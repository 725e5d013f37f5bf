import Mathlib.Order.Lattice
import Mathlib.Data.List.Basic

/-! Parts of a list of ordered elements that have no gap in it, as sets of elements: the order in which the
part is listed does not matter. -/

namespace Segments

variable {α : Type} [LinearOrder α]

/-- What lies between two elements of the part belongs to it. -/
def GapFree (whole part : List α) : Prop :=
  ∀ a ∈ part, ∀ b ∈ part, ∀ h ∈ whole, a ≤ h → h ≤ b → h ∈ part

/-- What lies between the element and the part belongs to the part. -/
def Adjoins (whole part : List α) (x : α) : Prop :=
  ∀ a ∈ part, ∀ h ∈ whole, (a < h ∧ h < x ∨ x < h ∧ h < a) → h ∈ part

instance (whole part : List α) : Decidable (GapFree whole part) := by
  unfold GapFree
  infer_instance

instance (whole part : List α) (x : α) : Decidable (Adjoins whole part x) := by
  unfold Adjoins
  infer_instance

theorem gapFree_nil (whole : List α) : GapFree whole [] := fun _ ha => absurd ha List.not_mem_nil

theorem gapFree_congr {whole whole' part part' : List α} (hwhole : ∀ x, x ∈ whole ↔ x ∈ whole')
    (hpart : ∀ x, x ∈ part ↔ x ∈ part') : GapFree whole part ↔ GapFree whole' part' := by
  simp only [GapFree, hwhole, hpart]

/-- What is put beyond the part leaves it without gaps. -/
theorem GapFree.grow {whole part : List α} (h : GapFree whole part) {x : α} (hx : ∀ a ∈ part, a < x) :
    GapFree (whole ++ [x]) part := by
  intro a ha b hb y hy hay hyb
  rcases List.mem_append.mp hy with hy | hy
  · exact h a ha b hb y hy hay hyb
  · rw [List.mem_singleton.mp hy] at hyb
    exact absurd (hx b hb) (not_lt_of_ge hyb)

/-- **Extension rule.** An element extends a part without gaps exactly if it adjoins the part. -/
theorem gapFree_cons_iff {whole part : List α} (h : GapFree whole part) (x : α) :
    GapFree whole (x :: part) ↔ Adjoins whole part x := by
  constructor
  · intro hcons a ha y hy hbetween
    have hmem : y ∈ x :: part := by
      rcases hbetween with ⟨hay, hyx⟩ | ⟨hxy, hya⟩
      · exact hcons a (List.mem_cons_of_mem _ ha) x (List.mem_cons_self ..) y hy (le_of_lt hay) (le_of_lt hyx)
      · exact hcons x (List.mem_cons_self ..) a (List.mem_cons_of_mem _ ha) y hy (le_of_lt hxy) (le_of_lt hya)
    apply (List.mem_cons.mp hmem).resolve_left
    rintro rfl
    rcases hbetween with ⟨-, hlt⟩ | ⟨hlt, -⟩
    · exact lt_irrefl y hlt
    · exact lt_irrefl y hlt
  · intro hadjoins
    -- between `x` and an element of the part, in one direction or the other
    have hbetween : ∀ a ∈ part, ∀ y ∈ whole, (a ≤ y ∧ y ≤ x ∨ x ≤ y ∧ y ≤ a) → y ∈ x :: part := by
      intro a ha y hy hor
      by_cases hyx : y = x
      · rw [hyx]
        exact List.mem_cons_self ..
      by_cases hya : y = a
      · rw [hya]
        exact List.mem_cons_of_mem _ ha
      apply List.mem_cons_of_mem
      apply hadjoins a ha y hy
      rcases hor with ⟨hay, hyx'⟩ | ⟨hxy, hya'⟩
      · exact Or.inl ⟨lt_of_le_of_ne hay (Ne.symm hya), lt_of_le_of_ne hyx' hyx⟩
      · exact Or.inr ⟨lt_of_le_of_ne hxy (Ne.symm hyx), lt_of_le_of_ne hya' hya⟩
    intro a ha b hb y hy hay hyb
    rcases List.mem_cons.mp ha with hax | ha'
    · rw [hax] at hay
      rcases List.mem_cons.mp hb with hbx | hb'
      · rw [hbx] at hyb
        rw [le_antisymm hyb hay]
        exact List.mem_cons_self ..
      · exact hbetween b hb' y hy (Or.inr ⟨hay, hyb⟩)
    · rcases List.mem_cons.mp hb with hbx | hb'
      · rw [hbx] at hyb
        exact hbetween a ha' y hy (Or.inl ⟨hay, hyb⟩)
      · exact List.mem_cons_of_mem _ (h a ha' b hb' y hy hay hyb)

/-- **Union rule.** Two parts without gaps make one if an element of the first leaves the second without
gaps. -/
theorem GapFree.union {whole part part' : List α} (h : GapFree whole part) {x : α} (hx : x ∈ part)
    (h' : GapFree whole (x :: part')) : GapFree whole (part ++ part') := by
  have hx' : x ∈ x :: part' := List.mem_cons_self ..
  have hin : ∀ y ∈ x :: part', y ∈ part ++ part' := by
    intro y hy
    rcases List.mem_cons.mp hy with rfl | hy
    · exact List.mem_append_left _ hx
    · exact List.mem_append_right _ hy
  intro a ha b hb y hy hay hyb
  -- what lies between the two parts lies on one side of `x`
  rcases le_total y x with hyx | hxy
  · rcases List.mem_append.mp ha with ha | ha
    · exact List.mem_append_left _ (h a ha x hx y hy hay hyx)
    · exact hin y (h' a (List.mem_cons_of_mem _ ha) x hx' y hy hay hyx)
  · rcases List.mem_append.mp hb with hb | hb
    · exact List.mem_append_left _ (h x hx b hb y hy hxy hyb)
    · exact hin y (h' x hx' b (List.mem_cons_of_mem _ hb) y hy hxy hyb)

end Segments
