import YaqtLib.Containers
import YaqtLib.Runs

/-! Views of list models. A model announces what it does to its rows, a view repeats it on rows of its own and reads
from the model what is new; a view that follows a model whose announcements are right shows its rows. -/

namespace Views

open Containers Runs

variable {ι ρ : Type}

/-- What a list model announces: a range of rows that came in or went away, one row that went to the place before the
row `destination` (as the rows were numbered before), a row whose roles changed (none, if the index is not valid), or
that all rows are new. -/
inductive Change (ρ : Type) where
  | rowsInserted (first last : Int)
  | rowsRemoved (first last : Int)
  | rowMoved (source destination : Int)
  | dataChanged (row : Option Nat) (roles : List ρ)
  | modelReset

/-- An announcement, with the rows the model has then. -/
structure Signal (ι ρ : Type) where
  change : Change ρ
  rows : List ι

/-- The ranges and moves a view of `n` rows can carry out. -/
def Change.Valid (n : Nat) : Change ρ → Prop
  | .rowsInserted first last => 0 ≤ first ∧ first ≤ n ∧ first ≤ last
  | .rowsRemoved first last => 0 ≤ first ∧ first ≤ last ∧ last < n
  | .rowMoved source destination =>
      0 ≤ source ∧ source < n ∧ 0 ≤ destination ∧ destination ≤ n ∧ (destination < source ∨ source + 1 < destination)
  | .dataChanged _ _ | .modelReset => True

instance (n : Nat) (change : Change ρ) : Decidable (change.Valid n) := by
  revert change
  rintro (_ | _) <;> dsimp only [Change.Valid] <;> infer_instance

variable (reads : ρ → Bool)

/-- The rows of a view after an announcement of a model that has `rows`; `reads` are the roles the view shows. No
roles at all stand for all of them. -/
def Change.carryOut (view rows : List ι) : Change ρ → List ι
  | .rowsInserted first last =>
      view.take first.toNat ++ (rows.drop first.toNat).take (last + 1 - first).toNat ++ view.drop first.toNat
  | .rowsRemoved first last => eraseRange view first.toNat last.toNat
  | .rowMoved source destination =>
      move view source.toNat (if destination < source then destination else destination - 1).toNat
  | .dataChanged row roles =>
      match row.bind fun row => rows[row]?.map fun x => view.set row x with
      | some view' => if roles.isEmpty || roles.any reads then view' else view
      | none => view
  | .modelReset => rows

/-- A view carries out an announcement if it can. -/
def replay (view : List ι) (signal : Signal ι ρ) : Option (List ι) :=
  if signal.change.Valid view.length then some (signal.change.carryOut reads view signal.rows) else none

/-- A view carries out the announcements one after the other. -/
def replayAll (view : List ι) (signals : List (Signal ι ρ)) : Option (List ι) :=
  signals.foldlM (replay reads) view

/-- All announcements can be carried out, and turn a view of `rows` into one of `rows'`. -/
def Mirrors (signals : List (Signal ι ρ)) (rows rows' : List ι) : Prop := replayAll reads rows signals = some rows'

variable {reads}

theorem Mirrors.nil (rows : List ι) : Mirrors reads [] rows rows := rfl

theorem Mirrors.append {signals signals' : List (Signal ι ρ)} {rows rows' rows'' : List ι}
    (h : Mirrors reads signals rows rows') (h' : Mirrors reads signals' rows' rows'') :
    Mirrors reads (signals ++ signals') rows rows'' := by
  unfold Mirrors replayAll at *
  rw [List.foldlM_append, h]
  exact h'

theorem mirrors_singleton {signal : Signal ι ρ} {rows rows' : List ι} (h : replay reads rows signal = some rows') :
    Mirrors reads [signal] rows rows' := by
  unfold Mirrors replayAll
  rw [List.foldlM_cons, h]
  rfl

theorem mirrors_of_valid {change : Change ρ} {view rows : List ι} (h : change.Valid view.length) :
    Mirrors reads [⟨change, rows⟩] view (change.carryOut reads view rows) :=
  mirrors_singleton (if_pos h)

/-- Rows that come in between two parts. -/
theorem mirrors_inserted (pre added post : List ι) (hadded : added ≠ []) :
    Mirrors reads [⟨(.rowsInserted pre.length (pre.length + added.length - 1) : Change ρ), pre ++ added ++ post⟩]
      (pre ++ post) (pre ++ added ++ post) := by
  have hpos := List.length_pos_of_ne_nil hadded
  have hvalid : (Change.rowsInserted (pre.length : Int) (pre.length + added.length - 1) : Change ρ).Valid
      (pre ++ post).length := by
    simp only [Change.Valid, List.length_append]
    omega
  have hcount : ((pre.length : Int) + added.length - 1 + 1 - pre.length).toNat = added.length := by omega
  have h := @mirrors_of_valid _ _ reads _ _ (pre ++ added ++ post) hvalid
  rw [Change.carryOut, hcount, Int.toNat_natCast, List.take_left, List.drop_left, List.append_assoc pre added post,
    List.drop_left, List.take_left, ← List.append_assoc] at h
  exact h

/-- A range of rows that goes away. -/
theorem mirrors_removed {rows : List ι} {first last : Nat} (hle : first ≤ last) (hlast : last < rows.length) :
    Mirrors reads [⟨(.rowsRemoved first last : Change ρ), eraseRange rows first last⟩] rows
      (eraseRange rows first last) := by
  refine mirrors_of_valid ?_
  simp only [Change.Valid]
  omega

/-- A row that goes to another place. -/
theorem mirrors_moved {rows : List ι} {source target : Nat} (hrange : MoveInRange rows source target)
    (hne : target ≠ source) :
    Mirrors reads [⟨(.rowMoved source (if target < source then target else target + 1) : Change ρ),
      move rows source target⟩] rows (move rows source target) := by
  obtain ⟨hsource, htarget⟩ := hrange
  have hvalid : (Change.rowMoved (source : Int) (if target < source then target else target + 1) : Change ρ).Valid
      rows.length := by
    simp only [Change.Valid]
    split_ifs <;> omega
  have hplace : (if (if target < source then (target : Int) else target + 1) < source then
      (if target < source then (target : Int) else target + 1)
      else (if target < source then (target : Int) else target + 1) - 1).toNat = target := by
    split_ifs <;> omega
  have h := @mirrors_of_valid _ _ reads _ _ (move rows source target) hvalid
  rwa [Change.carryOut, hplace] at h

/-- A row that is replaced by another one; the roles that differ are among those that are announced. -/
theorem mirrors_replaced {rows : List ι} {i : Nat} {x : ι} {roles : List ρ} (hi : i < rows.length)
    (hroles : rows[i]? = some x ∨ ∃ role ∈ roles, reads role = true) :
    Mirrors reads [⟨.dataChanged (some i) roles, rows.set i x⟩] rows (rows.set i x) := by
  have h := @mirrors_of_valid _ _ reads (.dataChanged (some i) roles) rows (rows.set i x) trivial
  rw [Change.carryOut, Option.bind_some, List.getElem?_set_self hi, Option.map_some] at h
  dsimp only at h
  rcases hroles with hsame | ⟨role, hmem, hreads⟩
  · have hset : rows.set i x = rows := by
      obtain ⟨hi, rfl⟩ := List.getElem?_eq_some_iff.mp hsame
      exact List.set_getElem_self hi
    rw [hset, ite_self] at h
    rwa [hset]
  · have hany : (roles.isEmpty || roles.any reads) = true := by
      rw [Bool.or_eq_true, List.any_eq_true]
      exact Or.inr ⟨role, hmem, hreads⟩
    rwa [if_pos hany] at h

/-- Data that changed without the rows being others. -/
theorem mirrors_dataChanged (row : Option Nat) (roles : List ρ) (rows : List ι) :
    Mirrors reads [⟨.dataChanged row roles, rows⟩] rows rows := by
  have h := @mirrors_of_valid _ _ reads (.dataChanged row roles) rows rows trivial
  rw [Change.carryOut] at h
  cases row with
  | none => exact h
  | some i =>
      cases hget : rows[i]? with
      | none =>
          rw [Option.bind_some, hget] at h
          exact h
      | some x =>
          obtain ⟨hi, rfl⟩ := List.getElem?_eq_some_iff.mp hget
          have := @mirrors_replaced _ _ reads _ _ _ roles hi (Or.inl hget)
          rwa [List.set_getElem_self hi] at this

theorem mirrors_reset (rows rows' : List ι) : Mirrors reads [⟨(.modelReset : Change ρ), rows'⟩] rows rows' :=
  @mirrors_of_valid _ _ reads .modelReset rows rows' trivial

/-! ### Runs -/

variable {σ ε : Type} (step : σ → ε → σ) (signals : σ → ε → List (Signal ι ρ))

/-- All announcements of a run. -/
def announced : σ → List ε → List (Signal ι ρ)
  | _, [] => []
  | s, e :: es => signals s e ++ announced (step s e) es

variable {step signals}

/-- If the announcements of every step are right, so are those of a run; `I` is what the steps keep. -/
theorem mirrors_run {rowsOf : σ → List ι} {I : σ → Prop} {P : σ → ε → Prop}
    (hstep : ∀ s e, I s → P s e → I (step s e) ∧ Mirrors reads (signals s e) (rowsOf s) (rowsOf (step s e))) {s : σ}
    (hs : I s) {es : List ε} (hes : Along step P s es) :
    Mirrors reads (announced step signals s es) (rowsOf s) (rowsOf (run step s es)) := by
  induction es generalizing s with
  | nil => exact .nil _
  | cons e es ih =>
      obtain ⟨hI, hmirrors⟩ := hstep s e hs hes.1
      exact hmirrors.append (ih hI hes.2)

end Views
