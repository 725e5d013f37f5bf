import Mathlib.Data.List.Nodup
import Mathlib.Data.List.Range

/-! The positions of a sequence that a filter accepts, numbered anew: where an accepted position is among them, and the
first accepted one in an order in which positions are tried. -/

namespace Filtered

variable {α β : Type}

/-- The accepted ones of the first `n` positions. -/
def positions (accepts : Nat → Bool) (n : Nat) : List Nat := (List.range n).filter accepts

variable {accepts : Nat → Bool} {n : Nat}

theorem mem_positions {i : Nat} : i ∈ positions accepts n ↔ i < n ∧ accepts i = true := by
  rw [positions, List.mem_filter, List.mem_range]

theorem sorted_positions (accepts : Nat → Bool) (n : Nat) : (positions accepts n).Pairwise (· < ·) :=
  List.pairwise_lt_range.filter accepts

theorem nodup_positions (accepts : Nat → Bool) (n : Nat) : (positions accepts n).Nodup := List.nodup_range.filter accepts

theorem idxOf?_positions {i q : Nat} : (positions accepts n).idxOf? i = some q ↔ (positions accepts n)[q]? = some i := by
  rw [List.idxOf?_eq_some_iff]
  constructor
  · rintro ⟨hlt, heq, -⟩
    exact List.getElem?_eq_some_iff.mpr ⟨hlt, heq⟩
  · intro h
    obtain ⟨hlt, heq⟩ := List.getElem?_eq_some_iff.mp h
    refine ⟨hlt, heq, fun j hj hji => ?_⟩
    exact hj.ne ((nodup_positions accepts n).getElem_inj_iff.mp (hji.trans heq.symm))

theorem idxOf?_positions_eq_none {i : Nat} : (positions accepts n).idxOf? i = none ↔ ¬ (i < n ∧ accepts i = true) := by
  rw [List.idxOf?_eq_none_iff, mem_positions]

/-- Positions keep their order. -/
theorem lt_of_getElem? {i i' q q' : Nat} (h : (positions accepts n)[q]? = some i)
    (h' : (positions accepts n)[q']? = some i') : q < q' ↔ i < i' := by
  obtain ⟨hlt, rfl⟩ := List.getElem?_eq_some_iff.mp h
  obtain ⟨hlt', rfl⟩ := List.getElem?_eq_some_iff.mp h'
  have hsorted := List.pairwise_iff_getElem.mp (sorted_positions accepts n)
  constructor
  · exact hsorted q q' hlt hlt'
  · intro hless
    by_contra hnot
    rcases Nat.lt_or_eq_of_le (Nat.le_of_not_lt hnot) with hgt | rfl
    · exact absurd (hsorted q' q hlt' hlt hgt) (Nat.lt_asymm hless)
    · exact absurd hless (Nat.lt_irrefl _)

/-- What is tried in order is found at the first element at which it is. -/
theorem findSome?_of_sorted {r : α → α → Prop} (hasymm : ∀ a b, r a b → ¬ r b a) {l : List α} (hl : l.Pairwise r)
    {f : α → Option β} {b : β} :
    l.findSome? f = some b ↔ ∃ a ∈ l, f a = some b ∧ ∀ x ∈ l, r x a → f x = none := by
  induction l with
  | nil => simp
  | cons first rest ih =>
      obtain ⟨hfirst, hrest⟩ := List.pairwise_cons.mp hl
      rw [List.findSome?_cons]
      cases hf : f first with
      | some b' =>
          dsimp only
          constructor
          · intro heq
            refine ⟨first, List.mem_cons_self, hf.trans heq, fun x hx hless => ?_⟩
            rcases List.mem_cons.mp hx with rfl | hx
            · exact absurd hless (hasymm _ _ hless)
            · exact absurd (hfirst x hx) (hasymm _ _ hless)
          · rintro ⟨a, ha, hfa, hnone⟩
            rcases List.mem_cons.mp ha with rfl | ha
            · exact hf.symm.trans hfa
            · rw [hnone first List.mem_cons_self (hfirst a ha)] at hf
              cases hf
      | none =>
          dsimp only
          rw [ih hrest]
          constructor
          · rintro ⟨a, ha, hfa, hnone⟩
            refine ⟨a, List.mem_cons_of_mem _ ha, hfa, fun x hx hless => ?_⟩
            rcases List.mem_cons.mp hx with rfl | hx
            · exact hf
            · exact hnone x hx hless
          · rintro ⟨a, ha, hfa, hnone⟩
            rcases List.mem_cons.mp ha with rfl | ha
            · rw [hf] at hfa
              cases hfa
            · exact ⟨a, ha, hfa, fun x hx hless => hnone x (List.mem_cons_of_mem _ hx) hless⟩

end Filtered
