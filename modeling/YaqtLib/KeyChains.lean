import Mathlib.Data.List.Sort
import Mathlib.Order.Defs.LinearOrder

/-! Comparisons by a chain of keys: the first key that differs decides. A chain is a strict order whatever the keys
are, and two elements are told apart by it exactly if one of the keys differs; lists whose elements are told apart
have one sorted arrangement. -/

namespace KeyChains

variable {α β : Type}

/-- What a comparison needs to be sorted by. -/
structure StrictOrder (less : α → α → Bool) : Prop where
  irrefl : ∀ a, less a a = false
  trans : ∀ a b c, less a b = true → less b c = true → less a c = true

/-- One of the two comes before the other. -/
def Apart (less : α → α → Bool) (a b : α) : Prop := less a b = true ∨ less b a = true

/-- Compared by a key, and by `less` where the key is the same. -/
def thenBy [LinearOrder β] (key : α → β) (less : α → α → Bool) (a b : α) : Bool :=
  if key a ≠ key b then key a < key b else less a b

/-- Compared by a key alone. -/
def byKey [LinearOrder β] (key : α → β) (a b : α) : Bool := key a < key b

variable {less : α → α → Bool}

theorem StrictOrder.asymm (h : StrictOrder less) {a b : α} (hab : less a b = true) : less b a = false := by
  rw [← Bool.not_eq_true]
  intro hba
  have haa := h.trans a b a hab hba
  rw [h.irrefl a] at haa
  exact Bool.false_ne_true haa

/-! ### Chains -/

section Keys

variable [LinearOrder β] (key : α → β)

theorem strictOrder_byKey : StrictOrder (byKey key) where
  irrefl a := decide_eq_false (lt_irrefl (key a))
  trans _ _ _ hab hbc := decide_eq_true ((of_decide_eq_true hab).trans (of_decide_eq_true hbc))

theorem apart_byKey {a b : α} : Apart (byKey key) a b ↔ key a ≠ key b := by
  rw [Apart, byKey, byKey, decide_eq_true_eq, decide_eq_true_eq]
  exact ne_iff_lt_or_gt.symm

theorem thenBy_of_ne {a b : α} (h : key a ≠ key b) : thenBy key less a b = decide (key a < key b) := if_pos h

theorem thenBy_of_eq {a b : α} (h : key a = key b) : thenBy key less a b = less a b := if_neg (not_not.mpr h)

/-- What comes before under a chain has the smaller key, or the same one. -/
theorem thenBy_eq_true_iff {a b : α} :
    thenBy key less a b = true ↔ key a < key b ∨ key a = key b ∧ less a b = true := by
  by_cases heq : key a = key b
  · rw [thenBy_of_eq key heq, heq]
    exact ⟨fun h => Or.inr ⟨rfl, h⟩, fun h => (h.resolve_left (lt_irrefl _)).2⟩
  · rw [thenBy_of_ne key heq, decide_eq_true_eq]
    exact ⟨Or.inl, fun h => h.resolve_right fun h => heq h.1⟩

/-- **Chain rule.** A key before a strict order is a strict order. -/
theorem StrictOrder.thenBy (h : StrictOrder less) : StrictOrder (thenBy key less) where
  irrefl a := by
    rw [thenBy_of_eq key rfl]
    exact h.irrefl a
  trans a b c hab hbc := by
    rw [thenBy_eq_true_iff] at hab hbc ⊢
    rcases hab with hab | ⟨hab, hless⟩
    · rcases hbc with hbc | ⟨hbc, -⟩
      · exact Or.inl (hab.trans hbc)
      · exact Or.inl (hbc ▸ hab)
    · rcases hbc with hbc | ⟨hbc, hless'⟩
      · exact Or.inl (hab ▸ hbc)
      · exact Or.inr ⟨hab.trans hbc, h.trans a b c hless hless'⟩

theorem apart_thenBy {a b : α} : Apart (thenBy key less) a b ↔ key a ≠ key b ∨ Apart less a b := by
  rw [Apart, thenBy_eq_true_iff, thenBy_eq_true_iff]
  by_cases heq : key a = key b
  · rw [heq]
    simp [Apart]
  · refine iff_of_true ?_ (Or.inl heq)
    exact (lt_or_gt_of_ne heq).imp Or.inl Or.inl

end Keys

/-! ### Sorts -/

/-- The list is in the order. -/
abbrev Sorted (less : α → α → Bool) (l : List α) : Prop := l.Pairwise fun a b => less a b = true

theorem sorted_orderedInsert (h : StrictOrder less) {a : α} {l : List α} (hl : Sorted less l)
    (ha : ∀ b ∈ l, Apart less a b) : Sorted less (l.orderedInsert (fun a b => less a b = true) a) := by
  induction l with
  | nil => exact List.pairwise_singleton _ a
  | cons b l ih =>
      obtain ⟨hb, hl⟩ := List.pairwise_cons.mp hl
      rw [List.orderedInsert_cons]
      split_ifs with hab
      · refine List.pairwise_cons.mpr ⟨fun c hc => ?_, List.pairwise_cons.mpr ⟨hb, hl⟩⟩
        rcases List.mem_cons.mp hc with rfl | hc
        · exact hab
        · exact h.trans a b c hab (hb c hc)
      · have hba : less b a = true := (ha b List.mem_cons_self).resolve_left hab
        refine List.pairwise_cons.mpr ⟨fun c hc => ?_, ih hl fun c hc => ha c (List.mem_cons_of_mem b hc)⟩
        rcases (List.mem_orderedInsert _).mp hc with rfl | hc
        · exact hba
        · exact hb c hc

/-- A list whose elements are told apart has one sorted arrangement. -/
theorem existsUnique_sorted (h : StrictOrder less) {l : List α} (hl : l.Pairwise (Apart less)) :
    ∃! sorted : List α, sorted.Perm l ∧ Sorted less sorted := by
  have hexists : ∃ sorted : List α, sorted.Perm l ∧ Sorted less sorted := by
    induction l with
    | nil => exact ⟨[], List.Perm.refl _, List.Pairwise.nil⟩
    | cons a l ih =>
        obtain ⟨ha, hl⟩ := List.pairwise_cons.mp hl
        obtain ⟨sorted, hperm, hsorted⟩ := ih hl
        refine ⟨sorted.orderedInsert (fun a b => less a b = true) a, ?_, ?_⟩
        · exact (List.perm_orderedInsert _ a sorted).trans (hperm.cons a)
        · exact sorted_orderedInsert h hsorted fun b hb => ha b (hperm.mem_iff.mp hb)
  obtain ⟨sorted, hperm, hsorted⟩ := hexists
  refine ⟨sorted, ⟨hperm, hsorted⟩, fun other hother => ?_⟩
  have hantisymm : ∀ a b, a ∈ other → b ∈ sorted → less a b = true → less b a = true → a = b := by
    intro a b _ _ hab hba
    rw [h.asymm hab] at hba
    exact absurd hba Bool.false_ne_true
  exact List.Perm.eq_of_pairwise hantisymm hother.2 hsorted (hother.1.trans hperm.symm)

end KeyChains
