import Mathlib.Data.List.Basic
import Mathlib.Data.List.TakeWhile
import Mathlib.Tactic.SplitIfs

/-! Lists with marked elements that keep a distance from each other: between any two of them there are at least
a given number of elements. Unmarked elements can join at the ends, and a marked one can be put where the others
are far enough away. -/

namespace Spacing

variable {α : Type} {marked : α → Bool} {gap : Nat}

/-- The places of any two marked elements are more than `gap` apart. -/
def Spaced (marked : α → Bool) (gap : Nat) (l : List α) : Prop :=
  ∀ i j x y, l[i]? = some x → l[j]? = some y → marked x = true → marked y = true → i < j → i + gap < j

/-- Every marked element lies more than `gap` places before the place `p`. -/
def FarBefore (marked : α → Bool) (gap p : Nat) (l : List α) : Prop :=
  ∀ i x, l[i]? = some x → marked x = true → i + gap < p

/-- No marked element lies before the place `p`. -/
def StartFrom (marked : α → Bool) (p : Nat) (l : List α) : Prop :=
  ∀ i x, l[i]? = some x → marked x = true → p ≤ i

theorem StartFrom.of_unmarked {l : List α} (h : ∀ x ∈ l, marked x = false) (p : Nat) : StartFrom marked p l :=
  fun _ x hx hmarked => absurd hmarked (by rw [h x (List.mem_of_getElem? hx)]; exact Bool.false_ne_true)

theorem Spaced.of_unmarked {l : List α} (h : ∀ x ∈ l, marked x = false) : Spaced marked gap l :=
  fun _ _ x _ hx _ hmarked _ _ =>
    absurd hmarked (by rw [h x (List.mem_of_getElem? hx)]; exact Bool.false_ne_true)

/-- Only the marks matter. -/
theorem Spaced.congr {l l' : List α} (h : l'.map marked = l.map marked) (hl : Spaced marked gap l) :
    Spaced marked gap l' := by
  have hmark : ∀ (i : Nat) x, l'[i]? = some x → ∃ y, l[i]? = some y ∧ marked y = marked x := by
    intro i x hx
    have hi := congrArg (fun marks : List Bool => marks[i]?) h
    simp only [List.getElem?_map, hx, Option.map_some] at hi
    exact Option.map_eq_some_iff.mp hi.symm
  intro i j x y hx hy hmx hmy hij
  obtain ⟨x', hx', hmx'⟩ := hmark i x hx
  obtain ⟨y', hy', hmy'⟩ := hmark j y hy
  exact hl i j x' y' hx' hy' (hmx'.trans hmx) (hmy'.trans hmy) hij

/-- Two spaced lists, one behind the other. -/
theorem Spaced.append {l l' : List α} (hl : Spaced marked gap l) (hl' : Spaced marked gap l')
    (hcross : ∀ i j x y, l[i]? = some x → l'[j]? = some y → marked x = true → marked y = true →
      i + gap < l.length + j) : Spaced marked gap (l ++ l') := by
  intro i j x y hx hy hmx hmy hij
  rcases Nat.lt_or_ge i l.length with hi | hi
  · rw [List.getElem?_append_left hi] at hx
    rcases Nat.lt_or_ge j l.length with hj | hj
    · rw [List.getElem?_append_left hj] at hy
      exact hl i j x y hx hy hmx hmy hij
    · rw [List.getElem?_append_right hj] at hy
      have := hcross i (j - l.length) x y hx hy hmx hmy
      omega
  · rw [List.getElem?_append_right hi] at hx
    rw [List.getElem?_append_right (by omega)] at hy
    have := hl' (i - l.length) (j - l.length) x y hx hy hmx hmy (by omega)
    omega

theorem Spaced.append_unmarked {l added : List α} (hl : Spaced marked gap l)
    (hadded : ∀ x ∈ added, marked x = false) : Spaced marked gap (l ++ added) :=
  hl.append (.of_unmarked hadded) fun _ _ _ y _ hy _ hmarked =>
    absurd hmarked (by rw [hadded y (List.mem_of_getElem? hy)]; exact Bool.false_ne_true)

theorem Spaced.prepend_unmarked {l added : List α} (hl : Spaced marked gap l)
    (hadded : ∀ x ∈ added, marked x = false) : Spaced marked gap (added ++ l) :=
  (Spaced.of_unmarked hadded).append hl fun _ _ x _ hx _ hmarked _ =>
    absurd hmarked (by rw [hadded x (List.mem_of_getElem? hx)]; exact Bool.false_ne_true)

theorem Spaced.left {l l' : List α} (h : Spaced marked gap (l ++ l')) : Spaced marked gap l := by
  intro i j x y hx hy
  have hi := (List.getElem?_eq_some_iff.mp hx).1
  have hj := (List.getElem?_eq_some_iff.mp hy).1
  rw [← @List.getElem?_append_left _ l l' i hi] at hx
  rw [← @List.getElem?_append_left _ l l' j hj] at hy
  exact h i j x y hx hy

theorem Spaced.right {l l' : List α} (h : Spaced marked gap (l ++ l')) : Spaced marked gap l' := by
  intro i j x y hx hy hmx hmy hij
  have hx' : (l ++ l')[l.length + i]? = some x := by
    rw [List.getElem?_append_right (by omega), Nat.add_sub_cancel_left]
    exact hx
  have hy' : (l ++ l')[l.length + j]? = some y := by
    rw [List.getElem?_append_right (by omega), Nat.add_sub_cancel_left]
    exact hy
  have := h _ _ x y hx' hy' hmx hmy (by omega)
  omega

/-- **Rule for an insertion**: a marked element goes in where the marked ones on both sides are far enough. -/
theorem Spaced.insert {pre post : List α} (h : Spaced marked gap (pre ++ post))
    (hpre : FarBefore marked gap pre.length pre) (hpost : StartFrom marked gap post) (x : α) :
    Spaced marked gap (pre ++ x :: post) := by
  have hx : Spaced marked gap (x :: post) := by
    intro i j y z hy hz hmy hmz hij
    cases j with
    | zero => omega
    | succ j =>
        rw [List.getElem?_cons_succ] at hz
        cases i with
        | zero =>
            have := hpost j z hz hmz
            omega
        | succ i =>
            rw [List.getElem?_cons_succ] at hy
            have := h.right i j y z hy hz hmy hmz (by omega)
            omega
  refine h.left.append hx fun i j y z hy _ hmy _ => ?_
  have := hpre i y hy hmy
  omega

/-- An element goes in `gap` places before the first marked one, or further. -/
theorem Spaced.insert_before {pre post : List α} (h : Spaced marked gap (pre ++ post))
    (hfar : StartFrom marked (pre.length + gap) (pre ++ post)) (x : α) :
    Spaced marked gap (pre ++ x :: post) ∧ StartFrom marked pre.length (pre ++ x :: post) := by
  have hpre : ∀ (i : Nat) y, pre[i]? = some y → marked y = true → False := by
    intro i y hy hmarked
    have hi := (List.getElem?_eq_some_iff.mp hy).1
    have := hfar i y (by rw [List.getElem?_append_left hi]; exact hy) hmarked
    omega
  refine ⟨h.insert (fun i y hy hmarked => (hpre i y hy hmarked).elim) (fun j y hy hmarked => ?_) x,
    fun i y hy hmarked => ?_⟩
  · have hy' : (pre ++ post)[pre.length + j]? = some y := by
      rw [List.getElem?_append_right (by omega), Nat.add_sub_cancel_left]
      exact hy
    have := hfar _ y hy' hmarked
    omega
  · by_contra hlt
    rw [List.getElem?_append_left (by omega)] at hy
    exact hpre i y hy hmarked

/-- An element goes in more than `gap` places behind the last marked one. -/
theorem Spaced.insert_behind {pre post : List α} (h : Spaced marked gap (pre ++ post))
    (hfar : FarBefore marked gap pre.length (pre ++ post)) (x : α) :
    Spaced marked gap (pre ++ x :: post) ∧ FarBefore marked gap (pre.length + 1 + gap) (pre ++ x :: post) := by
  have hpre : FarBefore marked gap pre.length pre := by
    intro i y hy hmarked
    have hi := (List.getElem?_eq_some_iff.mp hy).1
    exact hfar i y (by rw [List.getElem?_append_left hi]; exact hy) hmarked
  have hpost : ∀ (j : Nat) y, post[j]? = some y → marked y = true → False := by
    intro j y hy hmarked
    have hy' : (pre ++ post)[pre.length + j]? = some y := by
      rw [List.getElem?_append_right (by omega), Nat.add_sub_cancel_left]
      exact hy
    have := hfar _ y hy' hmarked
    omega
  refine ⟨h.insert hpre (fun j y hy hmarked => (hpost j y hy hmarked).elim) x, fun i y hy hmarked => ?_⟩
  rcases Nat.lt_or_ge pre.length i with hi | hi
  · rw [List.getElem?_append_right (by omega)] at hy
    obtain ⟨j, hj⟩ : ∃ j, i - pre.length = j + 1 := ⟨i - pre.length - 1, by omega⟩
    rw [hj, List.getElem?_cons_succ] at hy
    exact (hpost j y hy hmarked).elim
  · omega

/-- The search for the first marked element from the start. -/
theorem startFrom_takeWhile (l : List α) : StartFrom marked (l.takeWhile fun x => !marked x).length l := by
  intro i x hx hmarked
  by_contra hlt
  have hmem : x ∈ l.takeWhile fun x => !marked x := by
    rw [← List.takeWhile_append_dropWhile (p := fun x => !marked x) (l := l),
      List.getElem?_append_left (by omega)] at hx
    exact List.mem_of_getElem? hx
  have := List.mem_takeWhile_imp hmem
  rw [hmarked] at this
  exact absurd this (by simp)

/-- The search for the last marked element from the end. -/
theorem farBefore_dropWhile (gap : Nat) (l : List α) :
    FarBefore marked gap ((l.reverse.dropWhile fun x => !marked x).length + gap) l := by
  intro i x hx hmarked
  have hi := (List.getElem?_eq_some_iff.mp hx).1
  have hrev : l.reverse[l.length - 1 - i]? = some x := by
    rw [List.getElem?_reverse (by omega), show l.length - 1 - (l.length - 1 - i) = i by omega]
    exact hx
  have hstart := @startFrom_takeWhile _ marked l.reverse _ x hrev hmarked
  have hlen := congrArg List.length
    (List.takeWhile_append_dropWhile (p := fun x => !marked x) (l := l.reverse))
  rw [List.length_append, List.length_reverse] at hlen
  omega

/-- Between two neighbouring marked elements there are at least `gap` others. -/
theorem Spaced.le_length {pre mid post : List α} {x y : α} (h : Spaced marked gap (pre ++ x :: (mid ++ y :: post)))
    (hx : marked x = true) (hy : marked y = true) : gap ≤ mid.length := by
  have := h.right 0 (mid.length + 1) x y rfl (by simp) hx hy (by omega)
  omega

end Spacing
