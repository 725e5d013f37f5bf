import Mathlib.Algebra.BigOperators.Group.List.Basic
import Mathlib.Algebra.Order.Ring.Int
import Mathlib.Data.List.Sort

/-! Splices: members are taken out of a list from a place on and others are put there, one splice after the other.
The places are those of the list before the first splice, so they stay right only where splices are made from the
back to the front; those at one place come in any order. -/

namespace Splices

variable {α β : Type}

structure Splice (α : Type) where
  offset : Int
  insertion : List α
  removeLength : Int
deriving DecidableEq

/-- Nothing happens at a place outside the list. A length that reaches over the end is cut, and one below zero takes
members in front of the place in a second time. -/
def replace (s : List α) (position length : Int) (after : List α) : List α :=
  if 0 ≤ position ∧ position ≤ s.length then s.take position.toNat ++ after ++ s.drop (position + length).toNat
  else s

def applyAll (edits : List (Splice α)) (s : List α) : List α :=
  edits.foldl (fun s e => replace s e.offset e.removeLength e.insertion) s

namespace Splice

/-- The place behind what is taken out. -/
def stop (e : Splice α) : Int := e.offset + e.removeLength

def map (f : α → β) (e : Splice α) : Splice β := ⟨e.offset, e.insertion.map f, e.removeLength⟩

def shift (k : Int) (e : Splice α) : Splice α := ⟨k + e.offset, e.insertion, e.removeLength⟩

/-- What is put in is at least as long as what is taken out. -/
structure Grows (e : Splice α) : Prop where
  nonneg : 0 ≤ e.removeLength
  le : e.removeLength ≤ e.insertion.length

/-- By how much the list grows. -/
def gain (e : Splice α) : Int := e.insertion.length - e.removeLength

/-- The splice further at the back comes first. -/
def before (a b : Splice α) : Bool :=
  if b.stop = a.stop then b.offset < a.offset else b.stop < a.stop

theorem before_eq_false_iff {a b : Splice α} :
    before b a = false ↔ b.stop < a.stop ∨ b.stop = a.stop ∧ b.offset ≤ a.offset := by
  unfold before
  split_ifs with heq
  · simp only [decide_eq_false_iff_not, not_lt]
    omega
  · simp only [decide_eq_false_iff_not, not_lt]
    omega

@[simp] theorem map_offset (f : α → β) (e : Splice α) : (e.map f).offset = e.offset := rfl

@[simp] theorem map_insertion (f : α → β) (e : Splice α) : (e.map f).insertion = e.insertion.map f := rfl

@[simp] theorem map_removeLength (f : α → β) (e : Splice α) : (e.map f).removeLength = e.removeLength := rfl

@[simp] theorem map_stop (f : α → β) (e : Splice α) : (e.map f).stop = e.stop := rfl

@[simp] theorem shift_offset (k : Int) (e : Splice α) : (e.shift k).offset = k + e.offset := rfl

@[simp] theorem shift_insertion (k : Int) (e : Splice α) : (e.shift k).insertion = e.insertion := rfl

@[simp] theorem shift_removeLength (k : Int) (e : Splice α) : (e.shift k).removeLength = e.removeLength := rfl

@[simp] theorem shift_stop (k : Int) (e : Splice α) : (e.shift k).stop = k + e.stop := by
  simp only [stop, shift_offset, shift_removeLength]
  omega

@[simp] theorem shift_zero (e : Splice α) : e.shift 0 = e := by
  simp only [shift, Int.zero_add]

end Splice

open Splice

/-- From the back to the front; splices with the same two ends are in any order. -/
abbrev Descending (edits : List (Splice α)) : Prop := edits.Pairwise fun a b => before b a = false

theorem stop_le_of_descending {e : Splice α} {edits : List (Splice α)} (h : Descending (e :: edits)) :
    ∀ d ∈ edits, d.stop ≤ e.stop := by
  intro d hd
  have hle := before_eq_false_iff.mp (List.rel_of_pairwise_cons h hd)
  omega

/-! ### One splice -/

theorem replace_eq_self {s : List α} {p l : Int} {after : List α} (h : p < 0 ∨ (s.length : Int) < p) :
    replace s p l after = s := by
  rw [replace, if_neg]
  omega

theorem replace_of_mem {s : List α} {p l : Int} {after : List α} (h₀ : 0 ≤ p) (h : p ≤ s.length) :
    replace s p l after = s.take p.toNat ++ after ++ s.drop (p + l).toNat := by
  rw [replace, if_pos ⟨h₀, h⟩]

theorem map_replace (f : α → β) (s : List α) (p l : Int) (after : List α) :
    (replace s p l after).map f = replace (s.map f) p l (after.map f) := by
  unfold replace
  rw [List.length_map]
  split_ifs
  · rw [List.map_append, List.map_append, List.map_take, List.map_drop]
  · rfl

theorem length_replace {s : List α} {p l : Int} (h₀ : 0 ≤ p) (hl : 0 ≤ l) (h : p + l ≤ s.length) (after : List α) :
    ((replace s p l after).length : Int) = s.length + (after.length - l) := by
  rw [replace_of_mem h₀ (by omega)]
  simp only [List.length_append, List.length_take, List.length_drop]
  omega

theorem length_le_length_replace {s : List α} {p l : Int} {after : List α} (hl : 0 ≤ l) (h : l ≤ after.length) :
    s.length ≤ (replace s p l after).length := by
  unfold replace
  split_ifs with hp
  · simp only [List.length_append, List.length_take, List.length_drop]
    omega
  · exact le_rfl

/-- Nothing in front of the place changes. -/
theorem getElem?_replace_of_lt {s : List α} {p l : Int} {after : List α} {i : Nat} (h : (i : Int) < p) :
    (replace s p l after)[i]? = s[i]? := by
  unfold replace
  split_ifs with hp
  · have hlt : i < (s.take p.toNat).length := by
      rw [List.length_take]
      omega
    rw [List.append_assoc, List.getElem?_append_left hlt, List.getElem?_take_of_lt (by omega)]
  · rfl

/-- Where a member after a splice comes from. -/
theorem of_getElem?_replace {s : List α} {p l : Int} {after : List α} {i : Nat} {x : α}
    (h : (replace s p l after)[i]? = some x) :
    s[i]? = some x ∧ (i : Int) ≠ p ∨ 0 ≤ p ∧ x ∈ after ∨ ∃ j : Nat, p + l ≤ j ∧ s[j]? = some x := by
  unfold replace at h
  split_ifs at h with hp
  · rw [List.append_assoc] at h
    by_cases hi : i < (s.take p.toNat).length
    · rw [List.getElem?_append_left hi] at h
      rw [List.length_take] at hi
      rw [List.getElem?_take_of_lt (by omega)] at h
      exact Or.inl ⟨h, by omega⟩
    · rw [List.getElem?_append_right (by omega)] at h
      rcases List.mem_append.mp (List.mem_of_getElem? h) with hmem | hmem
      · exact Or.inr (Or.inl ⟨hp.1, hmem⟩)
      · obtain ⟨k, hk⟩ := List.getElem?_of_mem hmem
        rw [List.getElem?_drop] at hk
        exact Or.inr (Or.inr ⟨_, by omega, hk⟩)
  · have hlt := (List.getElem?_eq_some_iff.mp h).1
    exact Or.inl ⟨h, by omega⟩

/-- A list behind the splice stays. -/
theorem replace_append_right {x : List α} {p l : Int} {after : List α} (h₀ : 0 ≤ p) (hl : 0 ≤ l) (h : p + l ≤ x.length)
    (post : List α) : replace (x ++ post) p l after = replace x p l after ++ post := by
  rw [replace_of_mem h₀ (by rw [List.length_append]; omega), replace_of_mem h₀ (by omega),
    List.take_append_of_le_length (by omega), List.drop_append_of_le_length (by omega), List.append_assoc, List.append_assoc,
    List.append_assoc]

/-- A list in front of the splice moves it. -/
theorem replace_append_left {x : List α} {p l : Int} {after : List α} (h₀ : 0 ≤ p) (hl : 0 ≤ l) (pre : List α) :
    replace (pre ++ x) (pre.length + p) l after = pre ++ replace x p l after := by
  by_cases h : p ≤ x.length
  · have htake : ((pre.length : Int) + p).toNat = pre.length + p.toNat := by omega
    have hdrop : ((pre.length : Int) + p + l).toNat = pre.length + (p + l).toNat := by omega
    rw [replace_of_mem (by omega) (by rw [List.length_append]; omega), replace_of_mem h₀ h, htake, hdrop,
      List.take_length_add_append, List.drop_length_add_append, List.append_assoc, List.append_assoc, List.append_assoc]
  · rw [replace_eq_self (Or.inr (by rw [List.length_append]; omega)), replace_eq_self (Or.inr (by omega))]

/-! ### Splices one after the other -/

@[simp] theorem applyAll_nil (s : List α) : applyAll [] s = s := rfl

@[simp] theorem applyAll_cons (e : Splice α) (edits : List (Splice α)) (s : List α) :
    applyAll (e :: edits) s = applyAll edits (replace s e.offset e.removeLength e.insertion) := rfl

theorem applyAll_append (edits edits' : List (Splice α)) (s : List α) :
    applyAll (edits ++ edits') s = applyAll edits' (applyAll edits s) := List.foldl_append

theorem map_applyAll (f : α → β) (edits : List (Splice α)) (s : List α) :
    (applyAll edits s).map f = applyAll (edits.map (Splice.map f)) (s.map f) := by
  induction edits generalizing s with
  | nil => rfl
  | cons e edits ih => rw [applyAll_cons, ih, map_replace, List.map_cons, applyAll_cons]; rfl

theorem length_le_length_applyAll {edits : List (Splice α)} (h : ∀ e ∈ edits, e.Grows) (s : List α) :
    s.length ≤ (applyAll edits s).length := by
  induction edits generalizing s with
  | nil => exact le_rfl
  | cons e edits ih =>
      obtain ⟨he, hrest⟩ := List.forall_mem_cons.mp h
      exact (length_le_length_replace he.nonneg he.le).trans (ih hrest _)

/-- Splices that lie in a list and make it no shorter leave what follows it as it is. -/
theorem applyAll_append_right {edits : List (Splice α)} {x : List α}
    (h : ∀ e ∈ edits, e.Grows ∧ 0 ≤ e.offset ∧ e.stop ≤ x.length) (post : List α) :
    applyAll edits (x ++ post) = applyAll edits x ++ post := by
  induction edits generalizing x with
  | nil => rfl
  | cons e edits ih =>
      obtain ⟨⟨hgrows, h₀, hstop⟩, hrest⟩ := List.forall_mem_cons.mp h
      rw [applyAll_cons, applyAll_cons, replace_append_right h₀ hgrows.nonneg hstop]
      refine ih fun d hd => ⟨(hrest d hd).1, (hrest d hd).2.1, (hrest d hd).2.2.trans ?_⟩
      exact_mod_cast length_le_length_replace hgrows.nonneg hgrows.le

theorem applyAll_append_left {edits : List (Splice α)} (h : ∀ e ∈ edits, 0 ≤ e.removeLength ∧ 0 ≤ e.offset)
    (pre x : List α) : applyAll (edits.map (shift pre.length)) (pre ++ x) = pre ++ applyAll edits x := by
  induction edits generalizing x with
  | nil => rfl
  | cons e edits ih =>
      obtain ⟨⟨hlen, h₀⟩, hrest⟩ := List.forall_mem_cons.mp h
      rw [List.map_cons, applyAll_cons, applyAll_cons, ← ih hrest]
      exact congrArg _ (replace_append_left h₀ hlen pre)

/-! ### The order of splices -/

/-- The members with a property come first where an order puts them in front of the others. -/
theorem eq_filter_append_filter_of_pairwise {r : α → α → Prop} {p : α → Bool} {l : List α} (h : l.Pairwise r)
    (hp : ∀ a b, r a b → p b = true → p a = true) : l = l.filter p ++ l.filter fun a => !p a := by
  induction l with
  | nil => rfl
  | cons a l ih =>
      obtain ⟨ha, hl⟩ := List.pairwise_cons.mp h
      by_cases hpa : p a = true
      · rw [List.filter_cons_of_pos hpa, List.filter_cons_of_neg (by simp [hpa]), List.cons_append, ← ih hl]
      · have hnone : ∀ b ∈ l, ¬ p b = true := fun b hb hpb => hpa (hp a b (ha b hb) hpb)
        have hall : ∀ b ∈ l, (!p b) = true := fun b hb => by simpa using hnone b hb
        rw [List.filter_cons_of_neg hpa, List.filter_eq_nil_iff.mpr hnone, List.filter_cons_of_pos (by simp [hpa]),
          List.filter_eq_self.mpr hall, List.nil_append]

section Place

variable {front back : List (Splice α)} {place : Int} (hback : ∀ e ∈ back, place < e.stop)
  (hfront : ∀ e ∈ front, e.stop ≤ place)

include hback hfront

theorem descending_append (h : Descending back) (h' : Descending front) : Descending (back ++ front) := by
  refine List.pairwise_append.mpr ⟨h, h', fun a ha b hb => before_eq_false_iff.mpr (Or.inl ?_)⟩
  exact (hfront b hb).trans_lt (hback a ha)

/-- The splices that end behind a place are made first, then the others. -/
theorem exists_append_of_descending {edits : List (Splice α)} (h : Descending edits) (hperm : edits.Perm (back ++ front)) :
    ∃ back' front', edits = back' ++ front' ∧ back'.Perm back ∧ front'.Perm front ∧ Descending back' ∧
      Descending front' := by
  have hsplit := eq_filter_append_filter_of_pairwise (p := fun e => decide (place < e.stop)) h fun a b hab hb => by
    have hle := before_eq_false_iff.mp hab
    simp only [decide_eq_true_eq] at hb ⊢
    omega
  have hin : ∀ e ∈ back, decide (place < e.stop) = true := fun e he => decide_eq_true (hback e he)
  have hout : ∀ e ∈ front, ¬ decide (place < e.stop) = true := fun e he => by
    have hle := hfront e he
    simpa using hle
  have hin' : ∀ e ∈ back, ¬ (!decide (place < e.stop)) = true := fun e he => by rw [hin e he]; decide
  have hout' : ∀ e ∈ front, (!decide (place < e.stop)) = true := fun e he => by
    rw [(Bool.not_eq_true _).mp (hout e he)]
    rfl
  refine ⟨_, _, hsplit, ?_, ?_, h.filter _, h.filter _⟩
  · have hfilter := hperm.filter fun e => decide (place < e.stop)
    rwa [List.filter_append, List.filter_eq_self.mpr hin, List.filter_eq_nil_iff.mpr hout, List.append_nil] at hfilter
  · have hfilter := hperm.filter fun e => !decide (place < e.stop)
    rwa [List.filter_append, List.filter_eq_nil_iff.mpr hin', List.filter_eq_self.mpr hout', List.nil_append] at hfilter

end Place

/-- Moving splices makes other ones of them. -/
theorem eq_nil_of_perm_map_shift {edits : List (Splice α)} {k : Int} (hk : 0 < k)
    (h : (edits.map (shift k)).Perm edits) : edits = [] := by
  have hsum (edits : List (Splice α)) :
      ((edits.map (shift k)).map offset).sum = k * edits.length + (edits.map offset).sum := by
    induction edits with
    | nil => simp
    | cons e edits ih =>
        rw [List.map_cons, List.map_cons, List.sum_cons, ih, List.map_cons, List.sum_cons, List.length_cons, shift_offset,
          Nat.cast_add, Nat.cast_one, Int.mul_add, Int.mul_one]
        omega
  have hoffsets := (h.map offset).sum_eq
  rw [hsum] at hoffsets
  have hzero : k * edits.length = 0 := by omega
  rcases Int.mul_eq_zero.mp hzero with hk₀ | hlen
  · omega
  · exact List.length_eq_zero_iff.mp (by exact_mod_cast hlen)

/-- Splices with different ends have one order only. -/
theorem eq_of_descending {edits edits' : List (Splice α)} (hperm : edits.Perm edits') (h : Descending edits)
    (h' : edits'.Pairwise fun a b => b.stop < a.stop) : edits = edits' := by
  have hd : (edits'.map stop).Nodup := List.pairwise_map.mpr (h'.imp fun hlt => by omega)
  refine @List.Perm.eq_of_pairwise _ (fun a b => before b a = false) _ _ ?_ h ?_ hperm
  · intro a b ha hb hab hba
    have hab := before_eq_false_iff.mp hab
    have hba := before_eq_false_iff.mp hba
    exact List.inj_on_of_nodup_map hd (hperm.mem_iff.mp ha) hb (by omega)
  · exact h'.imp fun hlt => before_eq_false_iff.mpr (Or.inl hlt)

/-- The splices have the same two ends. -/
def Splice.ties (e d : Splice α) : Bool := decide (d.stop = e.stop ∧ d.offset = e.offset)

/-- Ordered lists of the same splices differ at most in the order of those with the same ends. -/
theorem eq_of_descending_of_ties {edits edits' : List (Splice α)} (hperm : edits.Perm edits') (h : Descending edits)
    (h' : Descending edits') (hties : ∀ e : Splice α, edits.filter e.ties = edits'.filter e.ties) : edits = edits' := by
  induction edits generalizing edits' with
  | nil => exact hperm.nil_eq
  | cons a edits ih =>
      cases edits' with
      | nil => exact absurd hperm.symm (List.not_perm_nil_cons _ _)
      | cons a' edits' =>
          have hself (e : Splice α) : e.ties e = true := decide_eq_true ⟨rfl, rfl⟩
          -- each of the two first splices comes no later than the other
          have htie : a.ties a' = true := by
            rcases List.mem_cons.mp (hperm.mem_iff.mp List.mem_cons_self) with rfl | hmem
            · exact hself a
            · rcases List.mem_cons.mp (hperm.mem_iff.mpr List.mem_cons_self) with rfl | hmem'
              · exact hself a'
              · have hle := before_eq_false_iff.mp (List.rel_of_pairwise_cons h hmem')
                have hle' := before_eq_false_iff.mp (List.rel_of_pairwise_cons h' hmem)
                exact decide_eq_true (by omega)
          have hhead := hties a
          rw [List.filter_cons_of_pos (hself a), List.filter_cons_of_pos htie] at hhead
          obtain rfl := (List.cons.inj hhead).1
          refine congrArg (a :: ·) (ih hperm.cons_inv h.of_cons h'.of_cons fun e => ?_)
          have he := hties e
          by_cases hea : e.ties a = true
          · rw [List.filter_cons_of_pos hea, List.filter_cons_of_pos hea] at he
            exact (List.cons.inj he).2
          · rwa [List.filter_cons_of_neg hea, List.filter_cons_of_neg hea] at he

/-- A sort of which nothing is known but that its result is ordered; members that tie come in any order. -/
structure Sorting (lt : α → α → Bool) where
  sort : List α → List α
  perm : ∀ l, (sort l).Perm l
  ordered : ∀ l, (sort l).Pairwise fun a b => lt b a = false

theorem Sorting.mem_sort {lt : α → α → Bool} (S : Sorting lt) {l : List α} {a : α} : a ∈ S.sort l ↔ a ∈ l :=
  (S.perm l).mem_iff

/-- Every ordered arrangement of a list is the result of a sort. -/
theorem Sorting.exists_sort_eq [DecidableEq α] {lt : α → α → Bool} (S : Sorting lt) {l sorted : List α}
    (hperm : sorted.Perm l) (h : sorted.Pairwise fun a b => lt b a = false) : ∃ S' : Sorting lt, S'.sort l = sorted := by
  refine ⟨⟨fun l' => if l' = l then sorted else S.sort l', fun l' => ?_, fun l' => ?_⟩, if_pos rfl⟩
  · split_ifs with heq
    · rw [heq]
      exact hperm
    · exact S.perm l'
  · split_ifs
    · exact h
    · exact S.ordered l'

instance : DecidableRel fun a b : Splice α => before b a = false := fun a b => inferInstanceAs (Decidable (before b a = false))

instance : Std.Total fun a b : Splice α => before b a = false :=
  ⟨fun a b => by
    simp only [before_eq_false_iff]
    omega⟩

instance : IsTrans (Splice α) fun a b => before b a = false :=
  ⟨fun a b c hab hbc => by
    rw [before_eq_false_iff] at hab hbc ⊢
    omega⟩

/-- A sort that keeps splices with the same ends in their order. -/
def insertionSorting : Sorting (before (α := α)) where
  sort := List.insertionSort fun a b => before b a = false
  perm := List.perm_insertionSort _
  ordered := List.pairwise_insertionSort _

/-! ### What a run of splices leaves -/

theorem getElem?_replace {s : List α} {p : Int} (h₀ : 0 ≤ p) (h : p ≤ s.length) (l : Int) (after : List α) (i : Nat) :
    (replace s p l after)[i]? =
      if (i : Int) < p then s[i]?
      else if (i : Int) < p + after.length then after[i - p.toNat]?
      else s[(p + l).toNat + (i - p.toNat - after.length)]? := by
  have hlen : (s.take p.toNat).length = p.toNat := by
    rw [List.length_take]
    omega
  split_ifs with hlt hmid
  · exact getElem?_replace_of_lt hlt
  · rw [replace_of_mem h₀ h, List.append_assoc, List.getElem?_append_right (by omega), hlen,
      List.getElem?_append_left (by omega)]
  · rw [replace_of_mem h₀ h, List.append_assoc, List.getElem?_append_right (by omega), hlen,
      List.getElem?_append_right (by omega), List.getElem?_drop]

/-- Members of a kind that each have their own splice to come, and that no splice puts in, are gone afterwards. -/
theorem not_mem_applyAll {P : α → Prop} {edits : List (Splice α)} (h : Descending edits) {s : List α}
    (hins : ∀ e ∈ edits, 0 ≤ e.offset → ∀ x ∈ e.insertion, ¬ P x)
    (hown : ∀ (i : Nat) (x : α), s[i]? = some x → P x → ∃ e ∈ edits, e.offset = i ∧ 0 < e.removeLength) :
    ∀ x ∈ applyAll edits s, ¬ P x := by
  induction edits generalizing s with
  | nil =>
      intro x hx hP
      obtain ⟨i, hi⟩ := List.getElem?_of_mem hx
      obtain ⟨e, he, -⟩ := hown i x hi hP
      exact List.not_mem_nil he
  | cons e edits ih =>
      rw [applyAll_cons]
      refine ih h.of_cons (fun d hd => hins d (List.mem_cons_of_mem e hd)) ?_
      intro i x hi hP
      rcases of_getElem?_replace hi with ⟨hs, hne⟩ | ⟨h₀, hmem⟩ | ⟨j, hj, hs⟩
      · -- in front of the splice: the own splice of the member is another one
        obtain ⟨d, hd, hoffset, hlen⟩ := hown i x hs hP
        rcases List.mem_cons.mp hd with rfl | hd
        · exact absurd hoffset.symm hne
        · exact ⟨d, hd, hoffset, hlen⟩
      · exact absurd hP (hins e List.mem_cons_self h₀ x hmem)
      · -- behind it: the own splice of the member would have come before
        obtain ⟨d, hd, hoffset, hlen⟩ := hown j x hs hP
        have hle : d.stop ≤ e.stop := by
          rcases List.mem_cons.mp hd with rfl | hd
          · exact le_rfl
          · exact stop_le_of_descending h d hd
        simp only [stop] at hle
        omega

/-- A member behind all the splices stays. -/
theorem mem_applyAll_of_getElem? {edits : List (Splice α)} (hgrows : ∀ e ∈ edits, e.Grows) {s : List α} {i : Nat} {x : α}
    (hx : s[i]? = some x) (h : ∀ e ∈ edits, e.stop ≤ i) : x ∈ applyAll edits s := by
  induction edits generalizing s i with
  | nil => exact List.mem_of_getElem? hx
  | cons e edits ih =>
      obtain ⟨⟨hnonneg, hle⟩, hgrows⟩ := List.forall_mem_cons.mp hgrows
      obtain ⟨hstop, hrest⟩ := List.forall_mem_cons.mp h
      rw [stop] at hstop
      have hlt := (List.getElem?_eq_some_iff.mp hx).1
      rw [applyAll_cons]
      by_cases h₀ : 0 ≤ e.offset
      · have hget := getElem?_replace h₀ (s := s) (by omega) e.removeLength e.insertion
          (i + e.insertion.length - e.removeLength.toNat)
        rw [if_neg (by omega), if_neg (by omega)] at hget
        have hi : (e.offset + e.removeLength).toNat +
            (i + e.insertion.length - e.removeLength.toNat - e.offset.toNat - e.insertion.length) = i := by omega
        rw [hi] at hget
        exact ih hgrows (hget.trans hx) fun d hd => (hrest d hd).trans (by omega)
      · rw [replace_eq_self (Or.inl (by omega))]
        exact ih hgrows hx hrest

/-- What is put in at a place of the list, with nothing taken out, stays. -/
theorem mem_applyAll_of_mem_insertion {edits : List (Splice α)} (hgrows : ∀ e ∈ edits, e.Grows) (h : Descending edits)
    {s : List α} {e : Splice α} (he : e ∈ edits) (hlen : e.removeLength = 0) (h₀ : 0 ≤ e.offset)
    (hoffset : e.offset ≤ s.length) {x : α} (hx : x ∈ e.insertion) : x ∈ applyAll edits s := by
  induction edits generalizing s with
  | nil => exact absurd he List.not_mem_nil
  | cons d edits ih =>
      have hstop := stop_le_of_descending h
      obtain ⟨hd, hrest⟩ := List.forall_mem_cons.mp hgrows
      rw [applyAll_cons]
      rcases List.mem_cons.mp he with rfl | he
      · obtain ⟨k, hk⟩ := List.getElem?_of_mem hx
        have hlt := (List.getElem?_eq_some_iff.mp hk).1
        have hget := getElem?_replace h₀ hoffset e.removeLength e.insertion (e.offset.toNat + k)
        rw [if_neg (by omega), if_pos (by omega), Nat.add_sub_cancel_left, hk] at hget
        refine mem_applyAll_of_getElem? hrest hget fun d hd => (hstop d hd).trans ?_
        rw [stop]
        omega
      · exact ih hrest h.of_cons he (hoffset.trans (by exact_mod_cast length_le_length_replace hd.nonneg hd.le))

/-- Lists that differ at most where one of the splices takes members out come out the same. -/
theorem applyAll_eq_of_agree {edits : List (Splice α)} (h : Descending edits) {e : Splice α} (he : e ∈ edits)
    (h₀ : 0 ≤ e.offset) {s t : List α} (hlen : s.length = t.length)
    (hagree : ∀ i : Nat, (i : Int) < e.offset ∨ e.stop ≤ i → s[i]? = t[i]?) : applyAll edits s = applyAll edits t := by
  induction edits generalizing s t with
  | nil => exact absurd he List.not_mem_nil
  | cons d edits ih =>
      have hstop := stop_le_of_descending h
      rw [applyAll_cons, applyAll_cons]
      by_cases hin : 0 ≤ d.offset ∧ d.offset ≤ s.length
      · have hget := getElem?_replace hin.1 hin.2 d.removeLength d.insertion
        have hget' := getElem?_replace hin.1 (hlen ▸ hin.2) d.removeLength d.insertion
        rcases List.mem_cons.mp he with rfl | he
        · refine congrArg (applyAll edits) (List.ext_getElem? fun i => ?_)
          rw [hget, hget']
          split_ifs with hlt hmid
          · exact hagree i (Or.inl hlt)
          · rfl
          · exact hagree _ (Or.inr (by rw [stop]; omega))
        · refine ih h.of_cons he ?_ fun i hi => ?_
          · rw [replace_of_mem hin.1 hin.2, replace_of_mem hin.1 (hlen ▸ hin.2)]
            simp only [List.length_append, List.length_take, List.length_drop, hlen]
          · rw [hget, hget']
            split_ifs with hlt hmid
            · exact hagree i hi
            · rfl
            · have := hstop e he
              exact hagree _ (Or.inr (by rw [stop] at this ⊢; rw [stop] at this; omega))
      · have hself : replace s d.offset d.removeLength d.insertion = s := replace_eq_self (by omega)
        have hself' : replace t d.offset d.removeLength d.insertion = t := replace_eq_self (by omega)
        rw [hself, hself']
        rcases List.mem_cons.mp he with rfl | he
        · -- the place lies behind both lists, which then are the same
          refine congrArg (applyAll edits) (List.ext_getElem? fun i => ?_)
          by_cases hi : i < s.length
          · exact hagree i (Or.inl (by omega))
          · rw [List.getElem?_eq_none (by omega), List.getElem?_eq_none (by omega)]
        · exact ih h.of_cons he hlen hagree

/-! ### Lengths -/

/-- Splices that end in the list: those in front of it do nothing and the others add up. -/
theorem length_applyAll_of_stop_le {edits : List (Splice α)} {s : List α}
    (h : ∀ e ∈ edits, e.Grows ∧ e.stop ≤ s.length) :
    ((applyAll edits s).length : Int) = s.length + ((edits.filter fun e => 0 ≤ e.offset).map gain).sum := by
  induction edits generalizing s with
  | nil => simp
  | cons e edits ih =>
      obtain ⟨⟨hgrows, hstop⟩, hrest⟩ := List.forall_mem_cons.mp h
      have hle := length_le_length_replace (s := s) (p := e.offset) hgrows.nonneg hgrows.le
      rw [applyAll_cons, ih fun d hd => ⟨(hrest d hd).1, (hrest d hd).2.trans (by omega)⟩]
      by_cases h₀ : 0 ≤ e.offset
      · rw [length_replace h₀ hgrows.nonneg hstop, List.filter_cons_of_pos (by simpa using h₀), List.map_cons,
          List.sum_cons, gain]
        omega
      · rw [replace_eq_self (Or.inl (by omega)), List.filter_cons_of_neg (by simpa using h₀)]

theorem grows_map_iff {f : α → β} (e : Splice α) : (e.map f).Grows ↔ e.Grows := by
  constructor
  · intro h
    exact ⟨h.nonneg, by simpa using h.le⟩
  · intro h
    exact ⟨h.nonneg, by simpa using h.le⟩

theorem descending_map_iff {f : α → β} {edits : List (Splice α)} :
    Descending (edits.map (Splice.map f)) ↔ Descending edits := List.pairwise_map

/-- The shape of a splice. -/
abbrev Splice.shape (e : Splice α) : Splice Unit := e.map fun _ => ()

theorem length_applyAll_shape (edits : List (Splice α)) (s : List α) :
    (applyAll edits s).length = (applyAll (edits.map shape) (s.map fun _ => ())).length := by
  rw [← map_applyAll, List.length_map]

theorem length_replace_eq {s : List α} {p l : Int} (hl : 0 ≤ l) (after : List α) :
    ((replace s p l after).length : Int) =
      if 0 ≤ p ∧ p ≤ s.length then max (s.length - l) p + after.length else s.length := by
  split_ifs with h
  · rw [replace_of_mem h.1 h.2]
    simp only [List.length_append, List.length_take, List.length_drop]
    omega
  · rw [replace_eq_self (by omega)]

/-- Splices with the same ends, made in either order, leave lists of one length. -/
theorem replace_unit_comm {a b : Splice Unit} (ha : a.Grows) (hb : b.Grows) (hstop : a.stop = b.stop)
    (hoffset : a.offset = b.offset) (s : List Unit) :
    replace (replace s a.offset a.removeLength a.insertion) b.offset b.removeLength b.insertion =
      replace (replace s b.offset b.removeLength b.insertion) a.offset a.removeLength a.insertion := by
  have hlen : a.removeLength = b.removeLength := by
    simp only [stop] at hstop
    omega
  have hle := ha.le
  have hle' := hb.le
  refine List.ext_getElem (Int.natCast_inj.mp ?_) fun _ _ _ => rfl
  rw [length_replace_eq hb.nonneg, length_replace_eq ha.nonneg, length_replace_eq ha.nonneg, length_replace_eq hb.nonneg,
    hoffset, hlen]
  split_ifs <;> omega

/-- The length of what is left depends on the splices, not on the order of those that tie. -/
theorem applyAll_unit_eq_of_perm {edits edits' : List (Splice Unit)} (hperm : edits.Perm edits') (h : Descending edits)
    (h' : Descending edits') (hgrows : ∀ e ∈ edits, e.Grows) (s : List Unit) :
    applyAll edits s = applyAll edits' s := by
  induction edits generalizing edits' s with
  | nil => rw [hperm.nil_eq]
  | cons a edits ih =>
      obtain ⟨ha, hrest⟩ := List.forall_mem_cons.mp hgrows
      obtain ⟨front, back, rfl⟩ := List.append_of_mem (hperm.mem_iff.mp List.mem_cons_self)
      have hperm' : edits.Perm (front ++ back) := (hperm.trans List.perm_middle).cons_inv
      have hdescending : Descending (front ++ back) := h'.sublist (List.sublist_cons_self a back |>.append_left front)
      rw [applyAll_cons, ih hperm' h.of_cons hdescending hrest, ← applyAll_cons]
      -- the splices in front of `a` tie with it
      have htie : ∀ d ∈ front, d.Grows ∧ d.stop = a.stop ∧ d.offset = a.offset := by
        intro d hd
        have hd' := hperm'.mem_iff.mpr (List.mem_append_left back hd)
        have hle := before_eq_false_iff.mp (List.rel_of_pairwise_cons h hd')
        have hle' := before_eq_false_iff.mp ((List.pairwise_append.mp h').2.2 d hd a List.mem_cons_self)
        exact ⟨hrest d hd', by omega, by omega⟩
      clear ih hperm hperm' h h' hdescending hgrows hrest
      induction front generalizing s with
      | nil => rfl
      | cons d front ih =>
          obtain ⟨⟨hd, hstop, hoffset⟩, htie⟩ := List.forall_mem_cons.mp htie
          rw [List.cons_append, applyAll_cons, applyAll_cons, replace_unit_comm ha hd hstop.symm hoffset.symm,
            ← applyAll_cons, ih _ htie, List.cons_append, applyAll_cons]

end Splices
