import YaqtLib.Splices

/-! Splices that do not overlap, made from the front to the back: every place is corrected by what the splices before
have changed. The list that is left is the one before with every splice put in its place, and each insertion stands at
the corrected place. -/

namespace Splices

variable {α : Type}

/-- The splices in the rest of a list that begins at the place `p`. -/
def substitute : Int → List (Splice α) → List α → List α
  | _, [], rest => rest
  | p, e :: edits, rest =>
      rest.take (e.offset - p).toNat ++ e.insertion ++ substitute e.stop edits (rest.drop (e.stop - p).toNat)

/-- The splices one after the other, with the places corrected. -/
def applyForward : Int → List (Splice α) → List α → List α
  | _, [], s => s
  | correction, e :: edits, s =>
      applyForward (correction - e.gain) edits (replace s (e.offset - correction) e.removeLength e.insertion)

/-- The corrected places. -/
def places : Int → List (Splice α) → List Int
  | _, [] => []
  | correction, e :: edits => (e.offset - correction) :: places (correction - e.gain) edits

/-- One splice ends before the next begins, from the place `p` to the place `stop`. -/
def Ascending : Int → List (Splice α) → Int → Prop
  | p, [], stop => p ≤ stop
  | p, e :: edits, stop => p ≤ e.offset ∧ 0 ≤ e.removeLength ∧ Ascending e.stop edits stop

/-- The insertion stands in the list at the place. -/
def StandsAt (s : List α) (e : Splice α) (place : Int) : Prop :=
  ∃ pre post, s = pre ++ e.insertion ++ post ∧ place = pre.length

theorem le_of_ascending {edits : List (Splice α)} {p stop : Int} (h : Ascending p edits stop) : p ≤ stop := by
  induction edits generalizing p with
  | nil => exact h
  | cons e edits ih =>
      obtain ⟨hp, hlength, hrest⟩ := h
      have hstop := ih hrest
      rw [Splice.stop] at hstop
      omega

/-- What the first splice leaves is a list of which the front does not change any more. -/
theorem replace_front {e : Splice α} {p : Int} {rest : List α} (hp : p ≤ e.offset) (hlength : 0 ≤ e.removeLength)
    (hstop : e.stop ≤ p + rest.length) (done : List α) :
    replace (done ++ rest) (e.offset - (p - done.length)) e.removeLength e.insertion =
      (done ++ rest.take (e.offset - p).toNat ++ e.insertion) ++ rest.drop (e.stop - p).toNat := by
  have hplace : e.offset - (p - done.length) = done.length + (e.offset - p) := by omega
  have hdrop : (e.offset - p + e.removeLength).toNat = (e.stop - p).toNat := by
    rw [Splice.stop]
    omega
  rw [Splice.stop] at hstop
  rw [hplace, replace_append_left (by omega) hlength, replace_of_mem (by omega) (by omega), hdrop]
  simp only [List.append_assoc]

/-- The length of the front after the first splice, as the correction counts it. -/
theorem correction_front {e : Splice α} {p : Int} {rest : List α} (hp : p ≤ e.offset) (hlength : 0 ≤ e.removeLength)
    (hstop : e.stop ≤ p + rest.length) (done : List α) :
    p - done.length - e.gain = e.stop - ((done ++ rest.take (e.offset - p).toNat ++ e.insertion).length : Int) := by
  rw [Splice.stop] at hstop
  rw [List.length_append, List.length_append, List.length_take_of_le (by omega), Splice.gain, Splice.stop]
  omega

section Front

variable {e : Splice α} {edits : List (Splice α)} {p : Int} {rest : List α}

/-- The rest behind the first splice holds the splices that follow. -/
theorem ascending_rest (h : Ascending p (e :: edits) (p + rest.length)) :
    e.stop ≤ p + rest.length ∧ Ascending e.stop edits (e.stop + (rest.drop (e.stop - p).toNat).length) := by
  obtain ⟨hp, hlength, hrest⟩ := h
  have hstop := le_of_ascending hrest
  refine ⟨hstop, ?_⟩
  have heq : e.stop + ((rest.drop (e.stop - p).toNat).length : Int) = p + rest.length := by
    rw [List.length_drop]
    rw [Splice.stop] at hstop ⊢
    omega
  rw [heq]
  exact hrest

end Front

/-- **Corrected splices.** From a list with a front, `done`, in which all splices are made. -/
theorem applyForward_eq {edits : List (Splice α)} {p : Int} {rest : List α}
    (h : Ascending p edits (p + rest.length)) (done : List α) :
    applyForward (p - done.length) edits (done ++ rest) = done ++ substitute p edits rest := by
  induction edits generalizing p rest done with
  | nil => rfl
  | cons e edits ih =>
      obtain ⟨hstop, hrest⟩ := ascending_rest h
      rw [applyForward, replace_front h.1 h.2.1 hstop, correction_front h.1 h.2.1 hstop, ih hrest, substitute]
      simp only [List.append_assoc]

/-- No corrected place lies in the front. -/
theorem length_le_of_mem_places {edits : List (Splice α)} {p : Int} {rest : List α}
    (h : Ascending p edits (p + rest.length)) (done : List α) :
    ∀ place ∈ places (p - done.length) edits, (done.length : Int) ≤ place := by
  induction edits generalizing p rest done with
  | nil => exact fun place hplace => absurd hplace List.not_mem_nil
  | cons e edits ih =>
      obtain ⟨hstop, hrest⟩ := ascending_rest h
      intro place hplace
      rw [places, correction_front h.1 h.2.1 hstop] at hplace
      rcases List.mem_cons.mp hplace with rfl | hplace
      · have hp := h.1
        omega
      · have hle := ih hrest _ place hplace
        simp only [List.length_append] at hle
        omega

/-- The insertions stand at the corrected places. -/
theorem standsAt_places {edits : List (Splice α)} {p : Int} {rest : List α}
    (h : Ascending p edits (p + rest.length)) (done : List α) :
    List.Forall₂ (StandsAt (done ++ substitute p edits rest)) edits (places (p - done.length) edits) := by
  induction edits generalizing p rest done with
  | nil => exact List.Forall₂.nil
  | cons e edits ih =>
      obtain ⟨hstop, hrest⟩ := ascending_rest h
      have hp := h.1
      rw [places, correction_front h.1 h.2.1 hstop]
      refine List.Forall₂.cons ?_ ?_
      · refine ⟨done ++ rest.take (e.offset - p).toNat, substitute e.stop edits (rest.drop (e.stop - p).toNat), ?_, ?_⟩
        · rw [substitute]
          simp only [List.append_assoc]
        · have hlength := h.2.1
          rw [Splice.stop] at hstop
          rw [List.length_append, List.length_take_of_le (by omega)]
          omega
      · have htail := ih hrest (done ++ rest.take (e.offset - p).toNat ++ e.insertion)
        rw [substitute]
        simpa only [List.append_assoc] using htail

/-- One insertion ends before the next begins. -/
theorem pairwise_places {edits : List (Splice α)} {p : Int} {rest : List α}
    (h : Ascending p edits (p + rest.length)) (done : List α) :
    (edits.zip (places (p - done.length) edits)).Pairwise fun a b => a.2 + (a.1.insertion.length : Int) ≤ b.2 := by
  induction edits generalizing p rest done with
  | nil => exact List.Pairwise.nil
  | cons e edits ih =>
      obtain ⟨hstop, hrest⟩ := ascending_rest h
      rw [places, correction_front h.1 h.2.1 hstop, List.zip_cons_cons, List.pairwise_cons]
      refine ⟨?_, ih hrest _⟩
      rintro ⟨e', place⟩ hmem
      have hle := length_le_of_mem_places hrest _ place (List.of_mem_zip hmem).2
      have hp := h.1
      have hlength := h.2.1
      rw [Splice.stop] at hstop
      rw [List.length_append, List.length_append, List.length_take_of_le (by omega)] at hle
      push_cast at hle
      dsimp only
      omega

end Splices
