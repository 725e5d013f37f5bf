import YaqtLib.Containers

/-! Rows with an index map: a list whose rows may carry a key, and a hash from the keys to the row
numbers that the operations on the list patch by loops over a window of rows. `Indexes` says that the
hash is the exact inverse of the rows; the rules below give, for each shape of change, the window whose
patching restores it. -/

namespace IndexMap

open Containers

variable {α κ : Type}

/-- The rows that carry a key carry different ones. -/
def KeysDistinct (key : α → Option κ) (rows : List α) : Prop :=
  rows.Pairwise fun r r' => ∀ k, key r = some k → key r' ≠ some k

/-- The hash maps each key of a row to the number of its row, and no other key. -/
def Indexes (key : α → Option κ) (rows : List α) (m : QHash κ Nat) : Prop :=
  ∀ k i, m.value k = some i ↔ ∃ r, rows[i]? = some r ∧ key r = some k

theorem KeysDistinct.eq_of_getElem {key : α → Option κ} {rows : List α} (h : KeysDistinct key rows)
    {i j : Nat} {r r' : α} {k : κ} (hi : rows[i]? = some r) (hj : rows[j]? = some r')
    (hr : key r = some k) (hr' : key r' = some k) : i = j := by
  obtain ⟨hi', rfl⟩ := List.getElem?_eq_some_iff.mp hi
  obtain ⟨hj', rfl⟩ := List.getElem?_eq_some_iff.mp hj
  have hpair := List.pairwise_iff_getElem.mp h
  rcases Nat.lt_trichotomy i j with hlt | heq | hgt
  · exact absurd hr' (hpair i j hi' hj' hlt k hr)
  · exact heq
  · exact absurd hr (hpair j i hj' hi' hgt k hr')

theorem KeysDistinct.perm {key : α → Option κ} {rows rows' : List α} (h : KeysDistinct key rows)
    (hperm : rows.Perm rows') : KeysDistinct key rows' :=
  hperm.pairwise h fun hab k ha hb => hab k hb ha

theorem KeysDistinct.sublist {key : α → Option κ} {rows rows' : List α} (h : KeysDistinct key rows)
    (hsub : rows'.Sublist rows) : KeysDistinct key rows' :=
  List.Pairwise.sublist hsub h

theorem keysDistinct_append {key : α → Option κ} {pre post : List α} :
    KeysDistinct key (pre ++ post) ↔ KeysDistinct key pre ∧ KeysDistinct key post ∧
      ∀ r ∈ pre, ∀ r' ∈ post, ∀ k, key r = some k → key r' ≠ some k :=
  List.pairwise_append

/-- A row whose key no other row has goes in between the others. -/
theorem KeysDistinct.insert {key : α → Option κ} {pre post : List α} {x : α} {k : κ}
    (h : KeysDistinct key (pre ++ post)) (hx : key x = some k) (hnew : ∀ r ∈ pre ++ post, key r ≠ some k) :
    KeysDistinct key (pre ++ x :: post) := by
  have hcons : KeysDistinct key (x :: (pre ++ post)) := by
    refine List.pairwise_cons.mpr ⟨fun r hr k' hk' => ?_, h⟩
    rw [← hk', hx]
    exact hnew r hr
  exact hcons.perm List.perm_middle.symm

theorem keysDistinct_iff_nodup {key : α → Option κ} {rows : List α} :
    KeysDistinct key rows ↔ (rows.filterMap key).Nodup := by
  rw [List.Nodup, List.pairwise_filterMap]
  refine List.pairwise_iff_getElem.trans (Iff.trans ?_ List.pairwise_iff_getElem.symm)
  constructor
  · rintro h i j hi hj hij b hb b' hb' rfl
    exact h i j hi hj hij b hb hb'
  · intro h i j hi hj hij k hk hk'
    exact h i j hi hj hij k hk k hk' rfl

theorem indexes_congr {key : α → Option κ} {rows rows' : List α} {m : QHash κ Nat}
    (h : rows.map key = rows'.map key) : Indexes key rows m ↔ Indexes key rows' m := by
  have hrow : ∀ (l : List α) (k : κ) (i : Nat),
      (∃ r, l[i]? = some r ∧ key r = some k) ↔ (l.map key)[i]? = some (some k) := by
    intro l k i
    rw [List.getElem?_map, Option.map_eq_some_iff]
  simp only [Indexes, hrow, h]

namespace Indexes

variable {key : α → Option κ} {rows : List α} {m : QHash κ Nat}

theorem empty : Indexes key [] (QHash.empty : QHash κ Nat) := by
  intro k i
  simp

theorem keysDistinct (h : Indexes key rows m) : KeysDistinct key rows := by
  refine List.pairwise_iff_getElem.mpr fun i j hi hj hij k hk hk' => ?_
  have h1 := (h k i).mpr ⟨rows[i], List.getElem?_eq_getElem hi, hk⟩
  have h2 := (h k j).mpr ⟨rows[j], List.getElem?_eq_getElem hj, hk'⟩
  rw [h1] at h2
  exact absurd (Option.some.inj h2) (Nat.ne_of_lt hij)

theorem value_of_getElem (h : Indexes key rows m) {i : Nat} {r : α} {k : κ} (hi : rows[i]? = some r)
    (hk : key r = some k) : m.value k = some i :=
  (h k i).mpr ⟨r, hi, hk⟩

theorem exists_row (h : Indexes key rows m) {k : κ} {i : Nat} (hk : m.value k = some i) :
    ∃ r, rows[i]? = some r ∧ key r = some k :=
  (h k i).mp hk

theorem lt_length (h : Indexes key rows m) {k : κ} {i : Nat} (hk : m.value k = some i) :
    i < rows.length := by
  obtain ⟨r, hr, -⟩ := h.exists_row hk
  exact (List.getElem?_eq_some_iff.mp hr).1

theorem contains_iff (h : Indexes key rows m) (k : κ) :
    m.contains k = true ↔ ∃ r ∈ rows, key r = some k := by
  rw [QHash.contains_iff]
  constructor
  · rintro ⟨i, hi⟩
    obtain ⟨r, hr, hk⟩ := h.exists_row hi
    exact ⟨r, List.mem_of_getElem? hr, hk⟩
  · rintro ⟨r, hr, hk⟩
    obtain ⟨i, hi⟩ := List.mem_iff_getElem?.mp hr
    exact ⟨i, h.value_of_getElem hi hk⟩

theorem value_eq_none_iff (h : Indexes key rows m) (k : κ) :
    m.value k = none ↔ ∀ r ∈ rows, key r ≠ some k := by
  rw [← QHash.contains_eq_false_iff, ← Bool.not_eq_true, h.contains_iff]
  push Not
  rfl

end Indexes

section Reindex

variable [DecidableEq κ] (key : α → Option κ)

/-- The patching loop: the keys of a window of rows are entered under consecutive row numbers, the
first row of the window having number `i`. -/
def reindex : List α → Nat → QHash κ Nat → QHash κ Nat
  | [], _, m => m
  | r :: window, i, m =>
      reindex window (i + 1) (match key r with
        | some k => m.insert k i
        | none => m)

@[simp] theorem reindex_nil (i : Nat) (m : QHash κ Nat) : reindex key [] i m = m := rfl

theorem reindex_cons (r : α) (window : List α) (i : Nat) (m : QHash κ Nat) :
    reindex key (r :: window) i m = reindex key window (i + 1) (reindex key [r] i m) := rfl

theorem reindex_append (window window' : List α) (i : Nat) (m : QHash κ Nat) :
    reindex key (window ++ window') i m =
      reindex key window' (i + window.length) (reindex key window i m) := by
  induction window generalizing i m with
  | nil => rfl
  | cons r window ih =>
      rw [List.cons_append, reindex_cons, ih, reindex_cons key r window, List.length_cons,
        Nat.add_assoc, Nat.add_comm 1]

variable {key}

theorem value_reindex_of_not_mem {window : List α} {k : κ} (h : ∀ r ∈ window, key r ≠ some k) (i : Nat)
    (m : QHash κ Nat) : (reindex key window i m).value k = m.value k := by
  induction window generalizing i m with
  | nil => rfl
  | cons r window ih =>
      have hr := h r (List.mem_cons_self ..)
      rw [reindex, ih (fun r' hr' => h r' (List.mem_cons_of_mem _ hr'))]
      cases hkey : key r with
      | none => rfl
      | some k' => exact QHash.value_insert_of_ne m i (fun heq => hr (by rw [hkey, heq]))

theorem value_reindex_eq_none_iff {window : List α} {k : κ} (i : Nat) (m : QHash κ Nat) :
    (reindex key window i m).value k = none ↔ m.value k = none ∧ ∀ r ∈ window, key r ≠ some k := by
  induction window generalizing i m with
  | nil => simp
  | cons r window ih =>
      rw [reindex, ih, List.forall_mem_cons]
      cases hkey : key r with
      | none => simp
      | some k' =>
          dsimp only
          rw [QHash.value_insert]
          by_cases hk : k = k'
          · simp [hk]
          · simp [hk, Ne.symm hk]

theorem value_reindex_of_getElem {window : List α} (hd : KeysDistinct key window) {j : Nat} {r : α} {k : κ}
    (hj : window[j]? = some r) (hk : key r = some k) (i : Nat) (m : QHash κ Nat) :
    (reindex key window i m).value k = some (i + j) := by
  induction window generalizing i j m with
  | nil => simp at hj
  | cons r' window ih =>
      obtain ⟨hhead, htail⟩ := List.pairwise_cons.mp hd
      cases j with
      | zero =>
          obtain rfl : r' = r := by simpa using hj
          rw [reindex, hk, value_reindex_of_not_mem (fun r'' hr'' => hhead r'' hr'' k hk)]
          exact QHash.value_insert_self m k i
      | succ j =>
          rw [reindex, ih htail (by simpa using hj)]
          congr 1
          omega

/-- Entering a key before or after a window that does not carry it is the same. -/
theorem reindex_insert {window : List α} {k : κ} (h : ∀ r ∈ window, key r ≠ some k) (i j : Nat)
    (m : QHash κ Nat) : reindex key window i (m.insert k j) = (reindex key window i m).insert k j := by
  induction window generalizing i m with
  | nil => rfl
  | cons r window ih =>
      have htail : ∀ r' ∈ window, key r' ≠ some k := fun r' hr' => h r' (List.mem_cons_of_mem _ hr')
      rw [reindex, reindex, ← ih htail]
      cases hkey : key r with
      | none => rfl
      | some k' =>
          have hne : k' ≠ k := fun heq => h r (List.mem_cons_self ..) (by rw [hkey, heq])
          dsimp only
          congr 1
          funext k''
          simp only [QHash.insert]
          split_ifs with h1 h2
          · exact absurd (h1.symm.trans h2) hne
          · rfl
          · rfl
          · rfl

/-- The rule for a patched window: if the hash is right for the keys that no row of the window
carries, then it is right after the window is patched. -/
theorem Indexes.of_reindex {pre window post : List α} {m : QHash κ Nat}
    (hd : KeysDistinct key (pre ++ window ++ post))
    (hout : ∀ k, (∀ r ∈ window, key r ≠ some k) → ∀ i,
      m.value k = some i ↔ ∃ r, (pre ++ window ++ post)[i]? = some r ∧ key r = some k) :
    Indexes key (pre ++ window ++ post) (reindex key window pre.length m) := by
  intro k i
  have hwindow : KeysDistinct key window :=
    hd.sublist ((List.sublist_append_right pre window).trans (List.sublist_append_left _ post))
  by_cases hk : ∀ r ∈ window, key r ≠ some k
  · rw [value_reindex_of_not_mem hk]
    exact hout k hk i
  · push Not at hk
    obtain ⟨r, hr, hrk⟩ := hk
    obtain ⟨j, hj⟩ := List.mem_iff_getElem?.mp hr
    have hjlt := (List.getElem?_eq_some_iff.mp hj).1
    have hrow : (pre ++ window ++ post)[pre.length + j]? = some r := by
      rw [List.append_assoc, List.getElem?_append_right (by omega), Nat.add_sub_cancel_left,
        List.getElem?_append_left hjlt]
      exact hj
    rw [value_reindex_of_getElem hwindow hj hrk]
    constructor
    · intro heq
      exact ⟨r, by rw [← Option.some.inj heq]; exact hrow, hrk⟩
    · rintro ⟨r', hr', hrk'⟩
      rw [hd.eq_of_getElem hrow hr' hrk hrk']

/-- Rows are added at the end. -/
theorem Indexes.append {rows added : List α} {m : QHash κ Nat} (h : Indexes key rows m)
    (hd : KeysDistinct key (rows ++ added)) :
    Indexes key (rows ++ added) (reindex key added rows.length m) := by
  have hd' : KeysDistinct key (rows ++ added ++ []) := by rwa [List.append_nil]
  have := Indexes.of_reindex (m := m) hd' fun k hk i => by
    rw [h k i, List.append_nil]
    refine exists_congr fun r => and_congr_left fun hr => ?_
    constructor
    · intro hi
      rw [List.getElem?_append_left (List.getElem?_eq_some_iff.mp hi).1]
      exact hi
    · intro hi
      rcases Nat.lt_or_ge i rows.length with hlt | hge
      · rwa [List.getElem?_append_left hlt] at hi
      · rw [List.getElem?_append_right hge] at hi
        exact absurd hr (hk r (List.mem_of_getElem? hi))
  rwa [List.append_nil] at this

/-- The rows from some row on are replaced, and their keys are the only ones the hash may hold wrong. -/
theorem Indexes.rebuild {pre tail tail' : List α} {m : QHash κ Nat} (m' : QHash κ Nat)
    (h : Indexes key (pre ++ tail) m) (hd : KeysDistinct key (pre ++ tail'))
    (hm : ∀ k, (∀ r ∈ tail', key r ≠ some k) →
      m'.value k = if (∃ r ∈ tail, key r = some k) then none else m.value k) :
    Indexes key (pre ++ tail') (reindex key tail' pre.length m') := by
  have hd' : KeysDistinct key (pre ++ tail' ++ []) := by rwa [List.append_nil]
  have hcross := (keysDistinct_append.mp h.keysDistinct).2.2
  have := Indexes.of_reindex (m := m') hd' fun k hk i => by
    rw [List.append_nil, hm k hk]
    have hnew : (∃ r, (pre ++ tail')[i]? = some r ∧ key r = some k) ↔
        ∃ r, pre[i]? = some r ∧ key r = some k := by
      refine exists_congr fun r => and_congr_left fun hr => ?_
      rcases Nat.lt_or_ge i pre.length with hlt | hge
      · rw [List.getElem?_append_left hlt]
      · rw [List.getElem?_append_right hge, List.getElem?_eq_none hge]
        simp only [reduceCtorEq, iff_false]
        exact fun hi => hk r (List.mem_of_getElem? hi) hr
    rw [hnew]
    split_ifs with htail
    · obtain ⟨r, hr, hrk⟩ := htail
      simp only [false_iff, not_exists, not_and]
      intro r' hr' hrk'
      exact hcross r' (List.mem_of_getElem? hr') r hr k hrk' hrk
    · rw [h k i]
      refine exists_congr fun r => and_congr_left fun hr => ?_
      rcases Nat.lt_or_ge i pre.length with hlt | hge
      · rw [List.getElem?_append_left hlt]
      · rw [List.getElem?_append_right hge, List.getElem?_eq_none hge]
        simp only [reduceCtorEq, iff_false]
        exact fun hi => htail ⟨r, List.mem_of_getElem? hi, hr⟩
  rwa [List.append_nil] at this

/-- A row goes in between the others, and the rows from it on are indexed anew. -/
theorem Indexes.insert {pre post : List α} {x : α} {m : QHash κ Nat} (h : Indexes key (pre ++ post) m)
    (hd : KeysDistinct key (pre ++ x :: post)) :
    Indexes key (pre ++ x :: post) (reindex key (x :: post) pre.length m) := by
  refine h.rebuild m hd fun k hk => (if_neg ?_).symm
  rintro ⟨r, hr, hrk⟩
  exact hk r (List.mem_cons_of_mem _ hr) hrk

/-- A row is taken out with its key, and the rows behind it are indexed anew. -/
theorem Indexes.erase {pre post : List α} {x : α} {m : QHash κ Nat} {k : κ} (h : Indexes key (pre ++ x :: post) m)
    (hx : key x = some k) : Indexes key (pre ++ post) (reindex key post pre.length (m.remove k)) := by
  have hd := h.keysDistinct.sublist ((List.sublist_cons_self x post).append_left pre)
  refine h.rebuild (m.remove k) hd fun k' hk' => ?_
  rw [QHash.value_remove]
  refine if_congr ?_ rfl rfl
  constructor
  · rintro rfl
    exact ⟨x, List.mem_cons_self, hx⟩
  · rintro ⟨r, hr, hrk⟩
    rcases List.mem_cons.mp hr with rfl | hr
    · exact Option.some.inj (hrk.symm.trans hx)
    · exact absurd hrk (hk' r hr)

/-- Rows are permuted inside a window that is patched afterwards. -/
theorem Indexes.permute {pre window window' post : List α} {m : QHash κ Nat}
    (h : Indexes key (pre ++ window ++ post) m) (hperm : window.Perm window') :
    Indexes key (pre ++ window' ++ post) (reindex key window' pre.length m) := by
  have hlen := hperm.length_eq
  have hd : KeysDistinct key (pre ++ window' ++ post) :=
    h.keysDistinct.perm (((List.Perm.refl pre).append hperm).append_right post)
  refine Indexes.of_reindex hd fun k hk i => ?_
  rw [h k i]
  refine exists_congr fun r => and_congr_left fun hr => ?_
  have hnot : r ∉ window' := fun hmem => hk r hmem hr
  rcases Nat.lt_or_ge i pre.length with hlt | hge
  · rw [List.append_assoc, List.append_assoc, List.getElem?_append_left hlt, List.getElem?_append_left hlt]
  · rw [List.append_assoc, List.append_assoc, List.getElem?_append_right hge, List.getElem?_append_right hge]
    rcases Nat.lt_or_ge (i - pre.length) window.length with hin | hpast
    · rw [List.getElem?_append_left hin, List.getElem?_append_left (by omega)]
      constructor
      · exact fun hi => absurd (hperm.mem_iff.mp (List.mem_of_getElem? hi)) hnot
      · exact fun hi => absurd (List.mem_of_getElem? hi) hnot
    · rw [List.getElem?_append_right hpast, List.getElem?_append_right (by omega), hlen]

/-- Entering a row before or after a window whose rows do not carry its key is the same. -/
theorem reindex_singleton_comm {window : List α} {x : α} (h : ∀ r ∈ window, ∀ k, key x = some k → key r ≠ some k)
    (i j : Nat) (m : QHash κ Nat) :
    reindex key window i (reindex key [x] j m) = reindex key [x] j (reindex key window i m) := by
  cases hx : key x with
  | none => simp only [reindex, hx]
  | some k =>
      simp only [reindex, hx]
      exact reindex_insert (fun r hr => h r hr k hx) i j m

/-- Entering a window and taking a key out of the hash: the window may be entered without that key. -/
theorem reindex_remove {key' : α → Option κ} {window : List α} {k : κ}
    (h : ∀ r ∈ window, (key r = some k ∧ key' r = none) ∨ (key r = key' r ∧ key r ≠ some k)) (i : Nat)
    (m : QHash κ Nat) : (reindex key window i m).remove k = reindex key' window i (m.remove k) := by
  induction window generalizing i m with
  | nil => rfl
  | cons r window ih =>
      rw [reindex, reindex, ih fun r' hr' => h r' (List.mem_cons_of_mem _ hr')]
      congr 1
      rcases h r (List.mem_cons_self ..) with ⟨hr, hr'⟩ | ⟨hr, hne⟩
      · rw [hr, hr']
        exact QHash.remove_insert_self m k i
      · rw [← hr]
        cases hkey : key r with
        | none => rfl
        | some k' => exact QHash.remove_insert_of_ne m i fun heq => hne (by rw [hkey, heq])

variable (key) in
/-- The rows a move has shifted, the moved one apart: those between its old and its new place. -/
def reindexMoved (rows : List α) (source target : Nat) (m : QHash κ Nat) : QHash κ Nat :=
  if target < source then reindex key ((rows.drop (target + 1)).take (source - target)) (target + 1) m
  else reindex key ((rows.drop source).take (target - source)) source m

theorem exists_reindexMoved (rows : List α) (source target : Nat) :
    ∃ window i, (∀ r ∈ window, r ∈ rows) ∧ ∀ m, reindexMoved key rows source target m = reindex key window i m := by
  by_cases h : target < source
  · exact ⟨_, _, fun r hr => List.mem_of_mem_drop (List.mem_of_mem_take hr), fun m => if_pos h⟩
  · exact ⟨_, _, fun r hr => List.mem_of_mem_drop (List.mem_of_mem_take hr), fun m => if_neg h⟩

theorem reindexMoved_back (pre mid post : List α) (x : α) (hmid : mid ≠ []) (m : QHash κ Nat) :
    reindexMoved key (pre ++ x :: (mid ++ post)) (pre.length + mid.length) pre.length m =
      reindex key mid (pre.length + 1) m := by
  have hpos : 0 < mid.length := List.length_pos_of_ne_nil hmid
  rw [reindexMoved, if_pos (by omega), drop_append_cons, Nat.add_sub_cancel_left, List.take_left]

theorem reindexMoved_forth (pre mid post : List α) (m : QHash κ Nat) :
    reindexMoved key (pre ++ mid ++ post) pre.length (pre.length + mid.length) m =
      reindex key mid pre.length m := by
  rw [reindexMoved, if_neg (by omega), List.append_assoc, List.drop_left, Nat.add_sub_cancel_left, List.take_left]

/-- One row is moved, it is entered at its new place, and then the rows in between are patched. -/
theorem Indexes.move_back {pre mid post : List α} {x : α} {m : QHash κ Nat}
    (h : Indexes key (pre ++ mid ++ x :: post) m) :
    Indexes key (pre ++ x :: (mid ++ post)) (reindex key mid (pre.length + 1) (reindex key [x] pre.length m)) := by
  have hperm : (mid ++ [x]).Perm (x :: mid) := List.perm_append_singleton x mid
  have := @Indexes.permute _ _ _ key pre _ _ post m (by simpa using h) hperm
  rw [reindex_cons] at this
  simpa using this

theorem Indexes.move_forth {pre mid post : List α} {x : α} {m : QHash κ Nat}
    (h : Indexes key (pre ++ x :: (mid ++ post)) m) :
    Indexes key (pre ++ mid ++ x :: post)
      (reindex key mid pre.length (reindex key [x] (pre.length + mid.length) m)) := by
  have hd : KeysDistinct key (x :: mid) :=
    h.keysDistinct.sublist (((List.sublist_append_left mid post).cons_cons x).trans
      (List.sublist_append_right pre _))
  have hperm : (x :: mid).Perm (mid ++ [x]) := (List.perm_append_singleton x mid).symm
  have := @Indexes.permute _ _ _ key pre _ _ post m (by simpa using h) hperm
  rw [reindex_append] at this
  rw [reindex_singleton_comm fun r hr k hk => (List.pairwise_cons.mp hd).1 r hr k hk]
  simpa using this

/-- A move goes back over some rows, or forth. -/
theorem move_cases {rows : List α} {source target : Nat} {x : α} (hrange : MoveInRange rows source target)
    (hx : rows[source]? = some x) :
    (∃ pre mid post, rows = pre ++ mid ++ x :: post ∧ source = pre.length + mid.length ∧ target = pre.length ∧
      mid ≠ []) ∨
    (∃ pre mid post, rows = pre ++ x :: (mid ++ post) ∧ source = pre.length ∧ target = pre.length + mid.length) := by
  obtain ⟨pre, post, rfl, hlen⟩ := exists_split_of_getElem? hx
  rcases Nat.lt_or_ge target source with hlt | hge
  · left
    refine ⟨pre.take target, pre.drop target, post, by rw [List.take_append_drop], ?_, ?_, ?_⟩
    · rw [List.length_take_of_le (by omega), List.length_drop]
      omega
    · rw [List.length_take_of_le (by omega)]
    · exact List.ne_nil_of_length_pos (by rw [List.length_drop]; omega)
  · right
    have hrange := hrange.2
    rw [List.length_append, List.length_cons] at hrange
    refine ⟨pre, post.take (target - source), post.drop (target - source), by rw [List.take_append_drop],
      hlen.symm, ?_⟩
    rw [List.length_take_of_le (by omega)]
    omega

/-- **Rule for a move.** -/
theorem Indexes.move {rows : List α} {m : QHash κ Nat} (h : Indexes key rows m) {source target : Nat} {x : α}
    (hrange : MoveInRange rows source target) (hx : rows[source]? = some x) :
    Indexes key (move rows source target)
      (reindexMoved key (move rows source target) source target (reindex key [x] target m)) := by
  rcases move_cases hrange hx with ⟨pre, mid, post, rfl, rfl, rfl, hmid⟩ | ⟨pre, mid, post, rfl, rfl, rfl⟩
  · rw [move_append_back, reindexMoved_back pre mid post x hmid]
    exact h.move_back
  · rw [move_append, reindexMoved_forth pre mid (x :: post)]
    exact h.move_forth

/-- An entry of a patched hash is one of the window's, or it was there before and no row of the window has its
key. -/
theorem value_reindex_eq_some {window : List α} {k : κ} {i n : Nat} {m : QHash κ Nat}
    (h : (reindex key window i m).value k = some n) :
    (∃ j r, window[j]? = some r ∧ key r = some k ∧ n = i + j) ∨
      m.value k = some n ∧ ∀ r ∈ window, key r ≠ some k := by
  induction window generalizing i m with
  | nil => exact Or.inr ⟨h, fun r hr => absurd hr List.not_mem_nil⟩
  | cons r window ih =>
      rw [reindex] at h
      rcases ih h with ⟨j, r', hj, hkey, hn⟩ | ⟨hm, hnot⟩
      · exact Or.inl ⟨j + 1, r', hj, hkey, by omega⟩
      · by_cases hr : key r = some k
        · rw [hr, QHash.value_insert_self] at hm
          exact Or.inl ⟨0, r, rfl, hr, (Option.some.inj hm).symm⟩
        · right
          refine ⟨?_, List.forall_mem_cons.mpr ⟨hr, hnot⟩⟩
          cases hkey : key r with
          | none => rwa [hkey] at hm
          | some k' => rwa [hkey, QHash.value_insert_of_ne _ _ fun heq => hr (by rw [hkey, heq])] at hm

/-- Entering a window that has the same keys. -/
theorem reindex_congr {key' : α → Option κ} {window : List α} (h : ∀ r ∈ window, key r = key' r) (i : Nat)
    (m : QHash κ Nat) : reindex key window i m = reindex key' window i m := by
  induction window generalizing i m with
  | nil => rfl
  | cons r window ih =>
      rw [reindex, reindex, h r (List.mem_cons_self ..), ih fun r' hr' => h r' (List.mem_cons_of_mem _ hr')]

/-- The lookups of an exact hash are searches of the rows. -/
theorem Indexes.value_eq_findIdx? {rows : List α} {m : QHash κ Nat} (h : Indexes key rows m) (k : κ) :
    m.value k = rows.findIdx? fun r => key r = some k := by
  cases hfind : rows.findIdx? fun r => key r = some k with
  | none =>
      rw [h.value_eq_none_iff]
      intro r hr
      exact of_decide_eq_false (List.findIdx?_eq_none_iff.mp hfind r hr)
  | some i =>
      obtain ⟨hlt, hkey, -⟩ := List.findIdx?_eq_some_iff_getElem.mp hfind
      exact h.value_of_getElem (List.getElem?_eq_getElem hlt) (of_decide_eq_true hkey)

/-- A row is replaced by one with another key. -/
theorem Indexes.replace {rows : List α} {m : QHash κ Nat} (h : Indexes key rows m) {i : Nat} {x y : α} {k k' : κ}
    (hx : rows[i]? = some x) (hk : key x = some k) (hk' : key y = some k') (hd : KeysDistinct key (rows.set i y)) :
    Indexes key (rows.set i y) ((m.remove k).insert k' i) := by
  obtain ⟨pre, post, rfl, rfl⟩ := exists_split_of_getElem? hx
  have hset : (pre ++ x :: post).set pre.length y = pre ++ [y] ++ post := by
    rw [set_append_cons, List.append_assoc, List.singleton_append]
  rw [hset] at hd ⊢
  have hpatch := Indexes.of_reindex (m := m.remove k) hd fun l hl i => by
    have hly : k' ≠ l := fun heq => hl y (List.mem_singleton_self y) (heq ▸ hk')
    rw [QHash.value_remove]
    have hrow : (∃ r, (pre ++ [y] ++ post)[i]? = some r ∧ key r = some l) ↔
        i ≠ pre.length ∧ ∃ r, (pre ++ x :: post)[i]? = some r ∧ key r = some l := by
      rw [List.append_assoc, List.singleton_append, ← set_append_cons pre post x y, List.getElem?_set]
      by_cases hi : pre.length = i
      · rw [if_pos hi]
        refine iff_of_false ?_ fun h => h.1 hi.symm
        rintro ⟨r, hr, hrl⟩
        rw [if_pos (by simp)] at hr
        obtain rfl := Option.some.inj hr
        exact hly (Option.some.inj (hk'.symm.trans hrl))
      · rw [if_neg hi, and_iff_right (Ne.symm hi)]
    rw [hrow, ← h l i]
    split_ifs with hlk
    · subst hlk
      refine iff_of_false nofun fun hi => hi.1 ?_
      have hvalue := h.value_of_getElem hx hk
      rw [hi.2] at hvalue
      exact Option.some.inj hvalue
    · rw [iff_and_self]
      intro hi heq
      obtain ⟨r, hr, hrl⟩ := h.exists_row hi
      rw [heq, hx] at hr
      obtain rfl := Option.some.inj hr
      exact hlk (Option.some.inj (hrl.symm.trans hk))
  rw [reindex, hk', reindex_nil] at hpatch
  exact hpatch

omit [DecidableEq κ] in
/-- The new key of a row that is replaced is not yet in the hash. -/
theorem Indexes.value_of_replace {rows : List α} {m : QHash κ Nat} (h : Indexes key rows m) {i : Nat} {x y : α}
    {k k' : κ} (hx : rows[i]? = some x) (hk : key x = some k) (hk' : key y = some k') (hne : k ≠ k')
    (hd : KeysDistinct key (rows.set i y)) : m.value k' = none := by
  have hlt := (List.getElem?_eq_some_iff.mp hx).1
  rw [h.value_eq_none_iff]
  intro r hr hrk
  obtain ⟨j, hj⟩ := List.mem_iff_getElem?.mp hr
  by_cases hij : i = j
  · subst hij
    obtain rfl := Option.some.inj (hx.symm.trans hj)
    exact hne (Option.some.inj (hk.symm.trans hrk))
  · have hi : (rows.set i y)[i]? = some y := by rw [List.getElem?_set, if_pos rfl, if_pos hlt]
    have hj' : (rows.set i y)[j]? = some r := by rw [List.getElem?_set, if_neg hij, hj]
    exact hij (hd.eq_of_getElem hi hj' hk' hrk)

/-- The row must be entered under its new key. -/
theorem Indexes.replace_iff {rows : List α} {m : QHash κ Nat} (h : Indexes key rows m) {i : Nat} {x y : α}
    {k k' : κ} (hx : rows[i]? = some x) (hk : key x = some k) (hk' : key y = some k') (hne : k ≠ k')
    (hd : KeysDistinct key (rows.set i y)) (l : κ) :
    Indexes key (rows.set i y) ((m.remove k).insert l i) ↔ k' = l := by
  have hlt := (List.getElem?_eq_some_iff.mp hx).1
  constructor
  · intro hnew
    by_contra hl
    have hi : (rows.set i y)[i]? = some y := by rw [List.getElem?_set, if_pos rfl, if_pos hlt]
    have hvalue := hnew.value_of_getElem hi hk'
    rw [QHash.value_insert_of_ne _ _ hl, QHash.value_remove_of_ne _ hne.symm,
      h.value_of_replace hx hk hk' hne hd] at hvalue
    cases hvalue
  · rintro rfl
    exact h.replace hx hk hk' hd

/-- The patch after a move does not enter the row that has moved. -/
theorem value_reindexMoved {rows : List α} (hd : KeysDistinct key rows) {source target : Nat} {x : α} {k : κ}
    (hrange : MoveInRange rows source target) (hx : rows[source]? = some x) (hk : key x = some k) (m : QHash κ Nat) :
    (reindexMoved key (Containers.move rows source target) source target m).value k = m.value k := by
  rcases move_cases hrange hx with ⟨pre, mid, post, rfl, rfl, rfl, hmid⟩ | ⟨pre, mid, post, rfl, rfl, rfl⟩
  · rw [move_append_back, reindexMoved_back pre mid post x hmid]
    have hcross := (keysDistinct_append.mp hd).2.2
    refine value_reindex_of_not_mem (fun r hr hrk => ?_) _ m
    exact hcross r (List.mem_append_right pre hr) x (List.mem_cons_self ..) k hrk hk
  · rw [move_append, reindexMoved_forth pre mid (x :: post)]
    have hcross := (List.pairwise_cons.mp (keysDistinct_append.mp hd).2.1).1
    exact value_reindex_of_not_mem (fun r hr => hcross r (List.mem_append_left post hr) k hk) _ m

/-- A hash that does not hold the new place of a row that has moved is not made exact by the patch. -/
theorem value_of_indexes_reindexMoved {rows : List α} (hd : KeysDistinct key rows) {source target : Nat} {x : α}
    {k : κ} (hrange : MoveInRange rows source target) (hx : rows[source]? = some x) (hk : key x = some k)
    {m : QHash κ Nat} (h : Indexes key (Containers.move rows source target)
      (reindexMoved key (Containers.move rows source target) source target m)) : m.value k = some target := by
  rw [← value_reindexMoved hd hrange hx hk]
  exact h.value_of_getElem (getElem?_move hrange hx) hk

/-! ### Entries that lead to their key

Where keys may occur more than once, a hash that the operations patch still leads each key it holds to a row with
that key. -/

omit [DecidableEq κ] in
variable (key) in
/-- Each key of the hash leads to a row with that key. -/
def Leads (rows : List α) (m : QHash κ Nat) : Prop :=
  ∀ k i, m.value k = some i → ∃ r, rows[i]? = some r ∧ key r = some k

omit [DecidableEq κ] in
theorem Indexes.leads {rows : List α} {m : QHash κ Nat} (h : Indexes key rows m) : Leads key rows m :=
  fun k i => (h k i).mp

omit [DecidableEq κ] in
/-- The row of a key, with the rows before and behind it. -/
theorem Leads.exists_split {rows : List α} {m : QHash κ Nat} (h : Leads key rows m) {k : κ} {i : Nat}
    (hk : m.value k = some i) :
    ∃ pre row post, rows = pre ++ row :: post ∧ pre.length = i ∧ rows[i]? = some row ∧ key row = some k := by
  obtain ⟨row, hrow, hkey⟩ := h k i hk
  obtain ⟨pre, post, hrows, hi⟩ := exists_split_of_getElem? hrow
  exact ⟨pre, row, post, hrows, hi, hrow, hkey⟩

omit [DecidableEq κ] in
theorem leads_congr {rows rows' : List α} {m : QHash κ Nat} (h : rows.map key = rows'.map key) :
    Leads key rows m ↔ Leads key rows' m := by
  have hrow : ∀ (l : List α) (k : κ) (i : Nat),
      (∃ r, l[i]? = some r ∧ key r = some k) ↔ (l.map key)[i]? = some (some k) := by
    intro l k i
    rw [List.getElem?_map, Option.map_eq_some_iff]
  simp only [Leads, hrow, h]

/-- The rule for a patched window. -/
theorem Leads.of_reindex {pre window post : List α} {m : QHash κ Nat}
    (hout : ∀ k i, m.value k = some i → (∀ r ∈ window, key r ≠ some k) →
      ∃ r, (pre ++ window ++ post)[i]? = some r ∧ key r = some k) :
    Leads key (pre ++ window ++ post) (reindex key window pre.length m) := by
  intro k i hk
  rcases value_reindex_eq_some hk with ⟨j, r, hj, hkey, rfl⟩ | ⟨hm, hnot⟩
  · refine ⟨r, ?_, hkey⟩
    rw [List.append_assoc, List.getElem?_append_right (by omega), Nat.add_sub_cancel_left,
      List.getElem?_append_left (List.getElem?_eq_some_iff.mp hj).1]
    exact hj
  · exact hout k i hm hnot

theorem Leads.append {rows added : List α} {m : QHash κ Nat} (h : Leads key rows m) :
    Leads key (rows ++ added) (reindex key added rows.length m) := by
  have := @Leads.of_reindex _ _ _ key rows added [] m fun k i hk _ => by
    obtain ⟨r, hr, hkey⟩ := h k i hk
    rw [List.append_nil]
    exact ⟨r, by rw [List.getElem?_append_left (List.getElem?_eq_some_iff.mp hr).1]; exact hr, hkey⟩
  rwa [List.append_nil] at this

/-- The rows from some row on are replaced; an entry that is kept led to one of the rows before, or its key is one
of the new rows'. -/
theorem Leads.rebuild {pre tail tail' : List α} {m : QHash κ Nat} (m' : QHash κ Nat) (h : Leads key (pre ++ tail) m)
    (hm : ∀ k i, m'.value k = some i → (∀ r ∈ tail', key r ≠ some k) →
      m.value k = some i ∧ ∀ r ∈ tail, key r ≠ some k) :
    Leads key (pre ++ tail') (reindex key tail' pre.length m') := by
  have := @Leads.of_reindex _ _ _ key pre tail' [] m' fun k i hk hnot => by
    obtain ⟨hold, htail⟩ := hm k i hk hnot
    obtain ⟨r, hr, hkey⟩ := h k i hold
    rw [List.append_nil]
    rcases Nat.lt_or_ge i pre.length with hlt | hge
    · rw [List.getElem?_append_left hlt] at hr ⊢
      exact ⟨r, hr, hkey⟩
    · rw [List.getElem?_append_right hge] at hr
      exact absurd hkey (htail r (List.mem_of_getElem? hr))
  rwa [List.append_nil] at this

theorem Leads.insert {pre post : List α} {m : QHash κ Nat} (h : Leads key (pre ++ post) m) (x : α) :
    Leads key (pre ++ x :: post) (reindex key (x :: post) pre.length m) :=
  h.rebuild m fun _ _ hk hnot => ⟨hk, fun r hr => hnot r (List.mem_cons_of_mem _ hr)⟩

theorem Leads.erase {pre post : List α} {x : α} {m : QHash κ Nat} {k : κ} (h : Leads key (pre ++ x :: post) m)
    (hx : key x = some k) : Leads key (pre ++ post) (reindex key post pre.length (m.remove k)) := by
  refine h.rebuild (m.remove k) fun k' i hk' hnot => ?_
  rw [QHash.value_remove] at hk'
  split_ifs at hk' with heq
  refine ⟨hk', List.forall_mem_cons.mpr ⟨fun hxk => heq ?_, hnot⟩⟩
  exact Option.some.inj (hxk.symm.trans hx)

/-- Rows are permuted inside a window that is patched afterwards. -/
theorem Leads.permute {pre window window' post : List α} {m : QHash κ Nat} (h : Leads key (pre ++ window ++ post) m)
    (hperm : window.Perm window') : Leads key (pre ++ window' ++ post) (reindex key window' pre.length m) := by
  have hlen := hperm.length_eq
  refine Leads.of_reindex fun k i hk hnot => ?_
  obtain ⟨r, hr, hkey⟩ := h k i hk
  have hout : r ∉ window := fun hmem => hnot r (hperm.mem_iff.mp hmem) hkey
  refine ⟨r, ?_, hkey⟩
  rcases Nat.lt_or_ge i pre.length with hlt | hge
  · rw [List.append_assoc, List.getElem?_append_left hlt] at hr ⊢
    exact hr
  · rw [List.append_assoc, List.getElem?_append_right hge] at hr ⊢
    rcases Nat.lt_or_ge (i - pre.length) window.length with hin | hpast
    · rw [List.getElem?_append_left hin] at hr
      exact absurd (List.mem_of_getElem? hr) hout
    · rw [List.getElem?_append_right hpast] at hr
      rw [List.getElem?_append_right (by omega), ← hlen]
      exact hr

theorem Leads.move_forth {pre mid post : List α} {x : α} {m : QHash κ Nat} (h : Leads key (pre ++ x :: (mid ++ post)) m) :
    Leads key (pre ++ mid ++ x :: post)
      (reindex key mid pre.length (reindex key [x] (pre.length + mid.length) m)) := by
  refine Leads.of_reindex fun k i hk hnot => ?_
  rcases value_reindex_eq_some hk with ⟨j, r, hj, hkey, rfl⟩ | ⟨hm, hx⟩
  · obtain ⟨rfl, rfl⟩ : j = 0 ∧ x = r := by
      cases j with
      | zero => exact ⟨rfl, Option.some.inj hj⟩
      | succ j => exact absurd hj (by simp)
    exact ⟨x, by simp, hkey⟩
  · obtain ⟨r, hr, hkey⟩ := h k i hm
    have hne : r ≠ x := fun heq => hx x (List.mem_cons_self ..) (heq ▸ hkey)
    refine ⟨r, ?_, hkey⟩
    rcases Nat.lt_or_ge i pre.length with hlt | hge
    · rw [List.append_assoc, List.getElem?_append_left hlt]
      rwa [List.getElem?_append_left hlt] at hr
    · rw [List.getElem?_append_right hge] at hr
      rw [List.append_assoc, List.getElem?_append_right hge]
      cases hplace : i - pre.length with
      | zero =>
          rw [hplace] at hr
          exact absurd (Option.some.inj hr).symm hne
      | succ n =>
          rw [hplace, List.getElem?_cons_succ] at hr
          rcases Nat.lt_or_ge n mid.length with hin | hpast
          · rw [List.getElem?_append_left hin] at hr
            exact absurd hkey (hnot r (List.mem_of_getElem? hr))
          · rw [List.getElem?_append_right hpast] at hr
            rw [List.getElem?_append_right (by omega), show n + 1 - mid.length = n - mid.length + 1 by omega,
              List.getElem?_cons_succ]
            exact hr

/-- **Rule for a move**, of rows whose keys may occur more than once. -/
theorem Leads.move {rows : List α} {m : QHash κ Nat} (h : Leads key rows m) {source target : Nat} {x : α}
    (hrange : MoveInRange rows source target) (hx : rows[source]? = some x) :
    Leads key (move rows source target)
      (reindexMoved key (move rows source target) source target (reindex key [x] target m)) := by
  rcases move_cases hrange hx with ⟨pre, mid, post, rfl, rfl, rfl, hmid⟩ | ⟨pre, mid, post, rfl, rfl, rfl⟩
  · rw [move_append_back, reindexMoved_back pre mid post x hmid, ← reindex_cons]
    have hperm : (mid ++ [x]).Perm (x :: mid) := List.perm_append_singleton x mid
    have := @Leads.permute _ _ _ key pre _ _ post m (by simpa using h) hperm
    simpa using this
  · rw [move_append, reindexMoved_forth pre mid (x :: post)]
    exact h.move_forth

end Reindex

end IndexMap
