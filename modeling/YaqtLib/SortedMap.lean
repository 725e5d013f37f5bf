import Mathlib.Order.Lattice
import Mathlib.Data.List.Pairwise

/-! Maps that are kept in the order of their keys, as `QMap` keeps them: a value may be looked up, and a key that has
a given value, the first of them in this order. -/

namespace Containers

/-- A map by its entries, with ascending keys. -/
structure QMap (κ α : Type) [LinearOrder κ] where
  entries : List (κ × α)
  sorted : entries.Pairwise fun entry entry' => entry.1 < entry'.1

namespace QMap

variable {κ α : Type} [LinearOrder κ]

def empty : QMap κ α := ⟨[], List.Pairwise.nil⟩

def value (m : QMap κ α) (k : κ) : Option α := (m.entries.find? fun entry => entry.1 = k).map Prod.snd

def contains (m : QMap κ α) (k : κ) : Bool := (m.value k).isSome

/-- The first key with the value. -/
def key [DecidableEq α] (m : QMap κ α) (v : α) : Option κ := (m.entries.find? fun entry => entry.2 = v).map Prod.fst

def remove (m : QMap κ α) (k : κ) : QMap κ α := ⟨m.entries.filter fun entry => entry.1 ≠ k, m.sorted.filter _⟩

/-- The entries around a new one stay in order. -/
theorem sorted_insert (m : QMap κ α) (k : κ) (v : α) :
    ((m.entries.filter fun entry => entry.1 < k) ++ (k, v) :: m.entries.filter fun entry => k < entry.1).Pairwise
      fun entry entry' => entry.1 < entry'.1 := by
  refine List.pairwise_append.mpr ⟨m.sorted.filter _, List.pairwise_cons.mpr ⟨?_, m.sorted.filter _⟩, ?_⟩
  · intro entry hentry
    simpa using (List.mem_filter.mp hentry).2
  · intro entry hentry entry' hentry'
    have hbelow : entry.1 < k := by simpa using (List.mem_filter.mp hentry).2
    rcases List.mem_cons.mp hentry' with rfl | habove
    · exact hbelow
    · exact lt_trans hbelow (by simpa using (List.mem_filter.mp habove).2)

def insert (m : QMap κ α) (k : κ) (v : α) : QMap κ α :=
  ⟨(m.entries.filter fun entry => entry.1 < k) ++ (k, v) :: m.entries.filter fun entry => k < entry.1,
    m.sorted_insert k v⟩

theorem value_eq_some_iff (m : QMap κ α) {k : κ} {v : α} : m.value k = some v ↔ (k, v) ∈ m.entries := by
  obtain ⟨entries, hsorted⟩ := m
  rw [value]
  dsimp only
  induction entries with
  | nil => simp
  | cons entry rest ih =>
      obtain ⟨hfirst, hrest⟩ := List.pairwise_cons.mp hsorted
      rw [List.find?_cons, List.mem_cons]
      by_cases hk : entry.1 = k
      · have hnot : (k, v) ∉ rest := fun hmem => (hfirst _ hmem).ne hk
        subst hk
        simp [hnot, Prod.ext_iff, eq_comm]
      · have hne : (k, v) ≠ entry := fun heq => hk (congrArg Prod.fst heq).symm
        simpa [hk, hne] using ih hrest

@[simp] theorem value_empty (k : κ) : (empty : QMap κ α).value k = none := rfl

theorem contains_iff (m : QMap κ α) (k : κ) : m.contains k = true ↔ ∃ v, m.value k = some v := Option.isSome_iff_exists

theorem contains_eq_false_iff (m : QMap κ α) (k : κ) : m.contains k = false ↔ m.value k = none := by
  rw [contains, ← Bool.not_eq_true, Option.not_isSome_iff_eq_none]

theorem value_remove (m : QMap κ α) (k k' : κ) : (m.remove k).value k' = if k' = k then none else m.value k' := by
  refine Option.ext fun v => ?_
  rw [value_eq_some_iff, remove, List.mem_filter, ← value_eq_some_iff]
  split_ifs with hk <;> simp [hk]

theorem value_insert (m : QMap κ α) (k k' : κ) (v : α) :
    (m.insert k v).value k' = if k' = k then some v else m.value k' := by
  refine Option.ext fun v' => ?_
  rw [value_eq_some_iff, insert, List.mem_append, List.mem_cons, List.mem_filter, List.mem_filter,
    ← value_eq_some_iff]
  split_ifs with hk
  · simp [hk, eq_comm]
  · rcases lt_or_gt_of_ne hk with hlt | hgt
    · simp [hk, hlt, not_lt_of_gt hlt]
    · simp [hk, hgt, not_lt_of_gt hgt]

section Key

variable [DecidableEq α]

theorem value_of_key (m : QMap κ α) {k : κ} {v : α} (h : m.key v = some k) : m.value k = some v := by
  obtain ⟨entry, hfind, rfl⟩ := Option.map_eq_some_iff.mp h
  refine (m.value_eq_some_iff).mpr ?_
  have hvalue : entry.2 = v := by simpa using List.find?_some hfind
  rw [← hvalue]
  exact List.mem_of_find?_eq_some hfind

theorem value_ne_of_key (m : QMap κ α) {v : α} (h : m.key v = none) (k : κ) : m.value k ≠ some v := by
  intro hvalue
  have hnone := List.find?_eq_none.mp (Option.map_eq_none_iff.mp h) _ (m.value_eq_some_iff.mp hvalue)
  exact hnone (decide_eq_true rfl)

end Key

end QMap

end Containers
