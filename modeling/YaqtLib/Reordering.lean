import YaqtLib.Containers

/-! Moving one element of a list to its place among the others, which are sorted: up past the elements it goes before,
or, if it stays, down past those that go before it. -/

namespace Reordering

open Containers

variable {α : Type}

/-- The index an element moves to from index `i`. -/
def placeOf (passesUp passesDown : α → Bool) (l : List α) (i : Nat) : Nat :=
  let j := i - ((l.take i).reverse.takeWhile passesUp).length
  if j = i then i + ((l.drop (i + 1)).takeWhile passesDown).length else j

variable {r : α → α → Prop} [IsTrans α r] {c : α} {passesUp passesDown : α → Bool} {pre post : List α}

/-- The scan upwards passes the elements that go behind `c`. -/
theorem exists_split_up (hsorted : pre.Pairwise r)
    (hup : ∀ x ∈ pre, passesUp x = true ↔ r c x) (hcomparable : ∀ x ∈ pre, r x c ∨ r c x) :
    ∃ pre1 pre2, pre = pre1 ++ pre2 ∧ (pre.reverse.takeWhile passesUp).length = pre2.length ∧
      (∀ x ∈ pre1, r x c) ∧ ∀ x ∈ pre2, r c x := by
  have hup' : ∀ x ∈ pre.reverse, passesUp x = true ↔ r c x := fun x hx => hup x (List.mem_reverse.mp hx)
  have hpassed : ∀ x ∈ pre.reverse.takeWhile passesUp, r c x := before_of_mem_takeWhile (r := fun x c => r c x) hup'
  have hleft : ∀ x ∈ pre.reverse.dropWhile passesUp, r x c :=
    behind_of_mem_dropWhile (r := fun x c => r c x) (fun h h' => trans_of r h' h) (List.pairwise_reverse.mpr hsorted) hup'
      fun x hx => (hcomparable x (List.mem_reverse.mp hx)).symm
  refine ⟨(pre.reverse.dropWhile passesUp).reverse, (pre.reverse.takeWhile passesUp).reverse, ?_,
    List.length_reverse.symm, fun x hx => hleft x (List.mem_reverse.mp hx),
    fun x hx => hpassed x (List.mem_reverse.mp hx)⟩
  rw [← List.reverse_append, List.takeWhile_append_dropWhile, List.reverse_reverse]

/-- The scan downwards passes the elements that go before `c`. -/
theorem exists_split_down (hsorted : post.Pairwise r)
    (hdown : ∀ x ∈ post, passesDown x = true ↔ r x c) (hcomparable : ∀ x ∈ post, r x c ∨ r c x) :
    ∃ post1 post2, post = post1 ++ post2 ∧ (post.takeWhile passesDown).length = post1.length ∧
      (∀ x ∈ post1, r x c) ∧ ∀ x ∈ post2, r c x :=
  ⟨post.takeWhile passesDown, post.dropWhile passesDown, List.takeWhile_append_dropWhile.symm, rfl,
    before_of_mem_takeWhile hdown, behind_of_mem_dropWhile (r := r) (fun h h' => trans_of r h h') hsorted hdown hcomparable⟩

/-- The element goes up into the elements before it, or it stays or goes down into those behind it. -/
theorem placeOf_cases (hsorted : (pre ++ post).Pairwise r)
    (hup : ∀ x ∈ pre ++ post, passesUp x = true ↔ r c x) (hdown : ∀ x ∈ pre ++ post, passesDown x = true ↔ r x c)
    (hcomparable : ∀ x ∈ pre ++ post, r x c ∨ r c x) :
    (∃ pre1 pre2, pre = pre1 ++ pre2 ∧ placeOf passesUp passesDown (pre ++ c :: post) pre.length = pre1.length ∧
      (pre1 ++ c :: (pre2 ++ post)).Pairwise r) ∨
    (∃ post1 post2, post = post1 ++ post2 ∧
      placeOf passesUp passesDown (pre ++ c :: post) pre.length = pre.length + post1.length ∧
      (pre ++ post1 ++ c :: post2).Pairwise r) := by
  obtain ⟨hpre, hpost, hcross⟩ := List.pairwise_append.mp hsorted
  obtain ⟨pre1, pre2, hpreEq, hlength, hpre1, hpre2⟩ := exists_split_up hpre
    (fun x hx => hup x (List.mem_append_left _ hx)) fun x hx => hcomparable x (List.mem_append_left _ hx)
  rw [placeOf, List.take_left, hlength, drop_append_cons]
  rcases List.eq_nil_or_concat pre2 with hnil | ⟨init, last, hlast⟩
  · -- nothing passed: all elements before `c` stay there
    right
    rw [hnil, List.append_nil] at hpreEq
    obtain ⟨post1, post2, hpostEq, hlength', hpost1, hpost2⟩ := exists_split_down hpost
      (fun x hx => hdown x (List.mem_append_right _ hx)) fun x hx => hcomparable x (List.mem_append_right _ hx)
    refine ⟨post1, post2, hpostEq, by rw [hnil, List.length_nil, Nat.sub_zero, if_pos rfl, hlength'], ?_⟩
    rw [hpostEq, ← List.append_assoc] at hsorted
    refine pairwise_splice hsorted (fun x hx => ?_) hpost2
    rcases List.mem_append.mp hx with hx | hx
    · exact hpre1 x (hpreEq ▸ hx)
    · exact hpost1 x hx
  · left
    have hpos : 0 < pre2.length := by simp [hlast]
    have hlen : pre.length = pre1.length + pre2.length := by rw [hpreEq, List.length_append]
    refine ⟨pre1, pre2, hpreEq, ?_, ?_⟩
    · rw [if_neg (by omega)]
      omega
    · have hsorted' := hsorted
      rw [hpreEq, List.append_assoc] at hsorted'
      refine pairwise_splice hsorted' hpre1 fun x hx => ?_
      rcases List.mem_append.mp hx with hx | hx
      · exact hpre2 x hx
      · -- the elements behind `c` follow one it passed
        have hmem : last ∈ pre2 := by simp [hlast]
        exact trans_of r (hpre2 last hmem) (hcross last (by simp [hpreEq, hmem]) x hx)

/-- **Reordering rule.** The element that is moved stands between the elements before and behind it, and the list is
sorted. -/
theorem move_placeOf (hsorted : (pre ++ post).Pairwise r)
    (hup : ∀ x ∈ pre ++ post, passesUp x = true ↔ r c x) (hdown : ∀ x ∈ pre ++ post, passesDown x = true ↔ r x c)
    (hcomparable : ∀ x ∈ pre ++ post, r x c ∨ r c x) :
    ∃ pre' post', pre' ++ post' = pre ++ post ∧
      placeOf passesUp passesDown (pre ++ c :: post) pre.length = pre'.length ∧
      move (pre ++ c :: post) pre.length pre'.length = pre' ++ c :: post' ∧ (pre' ++ c :: post').Pairwise r := by
  rcases placeOf_cases hsorted hup hdown hcomparable with
    ⟨pre1, pre2, rfl, hplace, hsorted'⟩ | ⟨post1, post2, rfl, hplace, hsorted'⟩
  · refine ⟨pre1, pre2 ++ post, (List.append_assoc ..).symm, hplace, ?_, hsorted'⟩
    rw [List.length_append, move_append_back]
  · refine ⟨pre ++ post1, post2, List.append_assoc .., by rw [hplace, List.length_append], ?_, hsorted'⟩
    rw [List.length_append, move_append]

end Reordering
