import YaqtLib.IndexMap

/-! Rows of interest among others: each is found under its key, and no other row carries that key. The other rows
may share keys, so the hash need not be the inverse of all rows. -/

namespace IndexMap

open Containers

variable {α κ : Type} {key : α → Option κ} {marked : α → Bool}

/-- A marked row shares its key with no other row. -/
def KeysApart (key : α → Option κ) (marked : α → Bool) (rows : List α) : Prop :=
  rows.Pairwise fun r r' => marked r = true ∨ marked r' = true → ∀ k, key r = some k → key r' ≠ some k

/-- Every marked row is found under its key. -/
def Finds (key : α → Option κ) (marked : α → Bool) (rows : List α) (m : QHash κ Nat) : Prop :=
  ∀ i r k, rows[i]? = some r → marked r = true → key r = some k → m.value k = some i

/-- The marked rows are found, and have their keys for themselves. -/
structure Pins (key : α → Option κ) (marked : α → Bool) (rows : List α) (m : QHash κ Nat) : Prop where
  apart : KeysApart key marked rows
  finds : Finds key marked rows m

theorem KeysApart.perm {rows rows' : List α} (h : KeysApart key marked rows) (hperm : rows.Perm rows') :
    KeysApart key marked rows' :=
  hperm.pairwise h fun hab hmarked k hb ha => hab hmarked.symm k ha hb

theorem KeysApart.of_unmarked {rows : List α} (h : ∀ r ∈ rows, marked r = false) : KeysApart key marked rows := by
  refine List.pairwise_iff_getElem.mpr fun i j hi hj _ hmarked => ?_
  rw [h _ (List.getElem_mem hi), h _ (List.getElem_mem hj)] at hmarked
  exact absurd hmarked (by simp)

/-- Unmarked rows join whose keys no marked row carries. -/
theorem KeysApart.append_unmarked {rows added : List α} (h : KeysApart key marked rows)
    (hadded : ∀ r ∈ added, marked r = false)
    (hkeys : ∀ r ∈ rows, marked r = true → ∀ r' ∈ added, ∀ k, key r = some k → key r' ≠ some k) :
    KeysApart key marked (rows ++ added) := by
  refine List.pairwise_append.mpr ⟨h, KeysApart.of_unmarked hadded, fun r hr r' hr' hmarked => ?_⟩
  rw [hadded r' hr', or_iff_left Bool.false_ne_true] at hmarked
  exact hkeys r hr hmarked r' hr'

/-- A row joins whose key no row carries. -/
theorem KeysApart.cons {rows : List α} (h : KeysApart key marked rows) {x : α}
    (hx : ∀ r ∈ rows, ∀ k, key x = some k → key r ≠ some k) : KeysApart key marked (x :: rows) :=
  List.pairwise_cons.mpr ⟨fun r hr _ => hx r hr, h⟩

theorem Pins.of_unmarked {rows : List α} (h : ∀ r ∈ rows, marked r = false) (m : QHash κ Nat) :
    Pins key marked rows m :=
  ⟨.of_unmarked h, fun _ r _ hr hmarked =>
    absurd hmarked (by rw [h r (List.mem_of_getElem? hr)]; exact Bool.false_ne_true)⟩

/-- Only the keys and the marks matter. -/
theorem Pins.congr {rows rows' : List α} {m : QHash κ Nat}
    (h : rows'.map (fun r => (key r, marked r)) = rows.map fun r => (key r, marked r))
    (hrows : Pins key marked rows m) : Pins key marked rows' m := by
  have happart : ∀ l : List α, KeysApart key marked l ↔
      (l.map fun r => (key r, marked r)).Pairwise fun p p' =>
        p.2 = true ∨ p'.2 = true → ∀ k, p.1 = some k → p'.1 ≠ some k := by
    intro l
    rw [List.pairwise_map]
    rfl
  refine ⟨(happart rows').mpr (h ▸ (happart rows).mp hrows.apart), fun i r k hr hmarked hk => ?_⟩
  have hi := congrArg (fun l : List (Option κ × Bool) => l[i]?) h
  simp only [List.getElem?_map, hr, Option.map_some] at hi
  obtain ⟨r', hr', heq⟩ := Option.map_eq_some_iff.mp hi.symm
  obtain ⟨hkey, hmark⟩ := Prod.mk.inj heq
  exact hrows.finds i r' k hr' (hmark.trans hmarked) (hkey.trans hk)

variable [DecidableEq κ]

/-- A row that has its key for itself is found where the patching loop meets it. -/
theorem value_reindex_of_apart {window : List α} (h : KeysApart key marked window) {j : Nat} {r : α} {k : κ}
    (hj : window[j]? = some r) (hmarked : marked r = true) (hk : key r = some k) (i : Nat) (m : QHash κ Nat) :
    (reindex key window i m).value k = some (i + j) := by
  induction window generalizing i j m with
  | nil => simp at hj
  | cons r' window ih =>
      obtain ⟨hhead, htail⟩ := List.pairwise_cons.mp h
      cases j with
      | zero =>
          obtain rfl : r' = r := by simpa using hj
          rw [reindex, hk, value_reindex_of_not_mem fun r'' hr'' => hhead r'' hr'' (Or.inl hmarked) k hk]
          exact QHash.value_insert_self m k i
      | succ j =>
          rw [reindex, ih htail (by simpa using hj)]
          congr 1
          omega

/-- The rule for rows whose tail is patched: the hash has to find the marked rows before the tail. -/
theorem Pins.of_reindex {pre window : List α} {m : QHash κ Nat} (happart : KeysApart key marked (pre ++ window))
    (hpre : Finds key marked pre m) : Pins key marked (pre ++ window) (reindex key window pre.length m) := by
  obtain ⟨-, hwindow, hcross⟩ := List.pairwise_append.mp happart
  refine ⟨happart, fun i r k hr hmarked hk => ?_⟩
  rcases Nat.lt_or_ge i pre.length with hi | hi
  · rw [List.getElem?_append_left hi] at hr
    have hmem := List.mem_of_getElem? hr
    rw [value_reindex_of_not_mem fun r' hr' => hcross r hmem r' hr' (Or.inl hmarked) k hk]
    exact hpre i r k hr hmarked hk
  · rw [List.getElem?_append_right hi] at hr
    rw [value_reindex_of_apart hwindow hr hmarked hk]
    congr 1
    omega

theorem Pins.append_unmarked {rows added : List α} {m : QHash κ Nat} (h : Pins key marked rows m)
    (hadded : ∀ r ∈ added, marked r = false)
    (hkeys : ∀ r ∈ rows, marked r = true → ∀ r' ∈ added, ∀ k, key r = some k → key r' ≠ some k) :
    Pins key marked (rows ++ added) (reindex key added rows.length m) :=
  .of_reindex (h.apart.append_unmarked hadded hkeys) h.finds

theorem Pins.prepend_unmarked {rows added : List α} {m : QHash κ Nat} (h : Pins key marked rows m)
    (hadded : ∀ r ∈ added, marked r = false)
    (hkeys : ∀ r ∈ rows, marked r = true → ∀ r' ∈ added, ∀ k, key r = some k → key r' ≠ some k) :
    Pins key marked (added ++ rows) (reindex key rows added.length (reindex key added 0 m)) := by
  have happart : KeysApart key marked ([] ++ (added ++ rows)) :=
    (h.apart.append_unmarked hadded hkeys).perm List.perm_append_comm
  have := Pins.of_reindex (m := m) happart fun i r k hr => by simp at hr
  rwa [List.length_nil, reindex_append, Nat.zero_add] at this

/-- A row whose key no row carries goes in between, and the rows from there on are patched. -/
theorem Pins.insert {pre post : List α} {m : QHash κ Nat} (h : Pins key marked (pre ++ post) m) {x : α}
    (hx : ∀ r ∈ pre ++ post, ∀ k, key x = some k → key r ≠ some k) :
    Pins key marked (pre ++ x :: post) (reindex key (x :: post) pre.length m) := by
  refine .of_reindex ((h.apart.cons hx).perm List.perm_middle.symm) fun i r k hr hmarked hk => ?_
  have hi := (List.getElem?_eq_some_iff.mp hr).1
  exact h.finds i r k (by rw [List.getElem?_append_left hi]; exact hr) hmarked hk

end IndexMap
