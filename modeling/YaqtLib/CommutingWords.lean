import Mathlib.Algebra.BigOperators.Group.List.Basic
import Mathlib.Algebra.Order.Field.Rat
import Mathlib.Data.Fintype.EquivFin
import Mathlib.Data.List.Permutation
import Mathlib.Data.List.Sort
import Mathlib.Data.Set.Finite.Lemmas
import Mathlib.Data.Set.Finite.List
import Mathlib.Tactic.Linarith
import Mathlib.Tactic.Ring

/-! Words that are written one after the other. Where a ranked arrangement of the words reads as every other one does,
words of different ranks commute; and words that commute may change places. -/

namespace Words

variable {α ι : Type}

/-- The two words read the same in either order. -/
def Commutes (u v : List α) : Prop := u ++ v = v ++ u

instance [DecidableEq α] (u v : List α) : Decidable (Commutes u v) := inferInstanceAs (Decidable (_ = _))

theorem Commutes.symm {u v : List α} (h : Commutes u v) : Commutes v u := Eq.symm h

/-! ### A word as a number -/

/-- The number with the codes of the letters as its digits, the first letter the last digit. -/
def value (code : α → Int) (base : Int) : List α → Int
  | [] => 0
  | a :: w => code a + base * value code base w

variable {code : α → Int} {base : Int}

theorem value_append (u v : List α) :
    value code base (u ++ v) = value code base u + base ^ u.length * value code base v := by
  induction u with
  | nil => simp [value]
  | cons a u ih =>
      rw [List.cons_append, value, ih, value, List.length_cons, pow_succ]
      ring

theorem value_neg (w : List α) : value (fun a => -code a) base w = -value code base w := by
  induction w with
  | nil => rfl
  | cons a w ih =>
      rw [value, ih, value]
      ring

/-- Digits below the base are those of one word only. -/
theorem value_injective (hcode : ∀ a, 0 ≤ code a ∧ code a < base) (hinj : Function.Injective code) {u v : List α}
    (hlen : u.length = v.length) (h : value code base u = value code base v) : u = v := by
  induction u generalizing v with
  | nil => exact (List.length_eq_zero_iff.mp hlen.symm).symm
  | cons a u ih =>
      cases v with
      | nil => cases hlen
      | cons b v =>
          rw [value, value] at h
          have hmod := congrArg (· % base) h
          simp only [Int.add_mul_emod_self_left, Int.emod_eq_of_lt (hcode a).1 (hcode a).2,
            Int.emod_eq_of_lt (hcode b).1 (hcode b).2] at hmod
          have hbase : base ≠ 0 := by
            have := hcode a
            omega
          rw [hmod] at h
          rw [hinj hmod, ih (Nat.succ.inj hlen) (Int.eq_of_mul_eq_mul_left hbase (add_left_cancel h))]

/-- Which of two words comes first in the least arrangement. -/
def weight (code : α → Int) (base : Int) (w : List α) : Rat := value code base w / ((base : Rat) ^ w.length - 1)

theorem value_append_le_iff (hbase : 1 < base) {u v : List α} (hu : u ≠ []) (hv : v ≠ []) :
    value code base (u ++ v) ≤ value code base (v ++ u) ↔ weight code base v ≤ weight code base u := by
  have hbase' : (1 : Rat) < base := by exact_mod_cast hbase
  have hpow (w : List α) (hw : w ≠ []) : 0 < (base : Rat) ^ w.length - 1 :=
    sub_pos.mpr (one_lt_pow₀ hbase' (List.length_pos_iff.mpr hw).ne')
  rw [weight, weight, div_le_div_iff₀ (hpow v hv) (hpow u hu), value_append, value_append,
    ← Int.cast_le (R := Rat)]
  push_cast
  constructor
  · intro h
    linarith
  · intro h
    linarith

/-! ### Arrangements -/

section Arrangements

variable {word : ι → List α} (code)

/-- In an arrangement with the least value the weights go down. -/
theorem pairwise_of_least (hbase : 1 < base) {l : List ι} (hne : ∀ i ∈ l, word i ≠ [])
    (h : ∀ l' : List ι, l'.Perm l → value code base (l.flatMap word) ≤ value code base (l'.flatMap word)) :
    l.Pairwise fun i j => weight code base (word j) ≤ weight code base (word i) := by
  induction l with
  | nil => exact List.Pairwise.nil
  | cons i l ih =>
      obtain ⟨hi, hl⟩ := List.forall_mem_cons.mp hne
      have hpos (w : List α) : 0 < base ^ w.length := pow_pos (by omega) _
      have htail := ih hl fun l' hl' => by
        have hle := h (i :: l') (hl'.cons i)
        rw [List.flatMap_cons, List.flatMap_cons, value_append, value_append] at hle
        exact le_of_mul_le_mul_left (le_of_add_le_add_left hle) (hpos (word i))
      refine List.Pairwise.cons ?_ htail
      cases l with
      | nil => exact fun j hj => absurd hj List.not_mem_nil
      | cons j l =>
          obtain ⟨hj, -⟩ := List.forall_mem_cons.mp hl
          -- the first two change places
          have hswap : weight code base (word j) ≤ weight code base (word i) := by
            rw [← value_append_le_iff hbase hi hj]
            have hle := h (j :: i :: l) (List.Perm.swap i j l)
            simp only [List.flatMap_cons, ← List.append_assoc] at hle
            rw [value_append, value_append (word j ++ word i), List.length_append, List.length_append,
              Nat.add_comm (word j).length] at hle
            exact le_of_add_le_add_right hle
          exact List.forall_mem_cons.mpr
            ⟨hswap, fun k hk => (List.rel_of_pairwise_cons htail hk).trans hswap⟩

/-- The arrangements in which no word comes in front of one of a lower rank. -/
abbrev Ranked (rank : ι → Int) (l : List ι) : Prop := l.Pairwise fun i j => rank i ≤ rank j

/-- Every arrangement reads as a ranked one. -/
def ReadsRanked (word : ι → List α) (rank : ι → Int) (l : List ι) : Prop :=
  ∀ l' : List ι, l'.Perm l →
    ∃ ranked : List ι, ranked.Perm l ∧ Ranked rank ranked ∧ ranked.flatMap word = l'.flatMap word

variable {rank : ι → Int} {l : List ι}

/-- The least arrangement is a ranked one. -/
theorem value_le_of_readsRanked (hbase : 1 < base) (hne : ∀ i ∈ l, word i ≠ []) (h : ReadsRanked word rank l) {i j : ι}
    (hi : i ∈ l) (hj : j ∈ l) (hlt : rank i < rank j) :
    value code base (word i ++ word j) ≤ value code base (word j ++ word i) := by
  obtain ⟨least, hmem, hleast⟩ := Set.exists_min_image {l' | l' ∈ l.permutations}
    (fun l' => value code base (l'.flatMap word)) l.permutations.finite_toSet
    ⟨l, List.mem_permutations.mpr (List.Perm.refl l)⟩
  obtain ⟨ranked, hperm, hranked, hreads⟩ := h least (List.mem_permutations.mp hmem)
  have hpairwise := pairwise_of_least code hbase (fun k hk => hne k (hperm.mem_iff.mp hk)) fun l' hl' => by
    rw [hreads]
    exact hleast l' (List.mem_permutations.mpr (hl'.trans hperm))
  -- the word of the lower rank is in front
  let R (i j : ι) : Prop := rank i < rank j → weight code base (word j) ≤ weight code base (word i)
  have hfront : ranked.Pairwise R := hpairwise.imp (S := R) fun hle _ => hle
  have hback : ranked.Pairwise (flip R) := hranked.imp fun hle hlt => absurd hle (not_le.mpr hlt)
  have hall := List.Pairwise.forall_of_forall_of_flip (fun k _ hlt => absurd hlt (lt_irrefl _)) hfront hback
  rw [value_append_le_iff hbase (hne i hi) (hne j hj)]
  exact hall (hperm.mem_iff.mpr hi) (hperm.mem_iff.mpr hj) hlt

/-- Where every arrangement reads as a ranked one, words of different ranks commute. -/
theorem commutes_of_readsRanked [Finite α] (hne : ∀ i ∈ l, word i ≠ []) (h : ReadsRanked word rank l) {i j : ι}
    (hi : i ∈ l) (hj : j ∈ l) (hlt : rank i < rank j) : Commutes (word i) (word j) := by
  obtain ⟨n, ⟨e⟩⟩ := Finite.exists_equiv_fin α
  have hbase : (1 : Int) < n + 2 := by omega
  have hcode (a : α) : (0 : Int) ≤ (e a).val ∧ ((e a).val : Int) < n + 2 := by
    have := (e a).isLt
    omega
  have hinj : Function.Injective fun a => ((e a).val : Int) := fun a b hab =>
    e.injective (Fin.ext (Int.ofNat_inj.mp hab))
  -- neither comes first, whichever letters count more
  have hle := value_le_of_readsRanked (fun a => ((e a).val : Int)) hbase hne h hi hj hlt
  have hge := value_le_of_readsRanked (fun a => -((e a).val : Int)) hbase hne h hi hj hlt
  rw [value_neg, value_neg] at hge
  refine value_injective hcode hinj ?_ (le_antisymm hle (neg_le_neg_iff.mp hge))
  rw [List.length_append, List.length_append, Nat.add_comm]

/-- Sorting words of which those that change places commute leaves what they read. -/
theorem flatMap_insertionSort {r : ι → ι → Prop} [DecidableRel r]
    (h : ∀ i ∈ l, ∀ j ∈ l, ¬ r i j → Commutes (word i) (word j)) :
    (l.insertionSort r).flatMap word = l.flatMap word := by
  induction l with
  | nil => rfl
  | cons i l ih =>
      have hrest := ih fun a ha b hb => h a (List.mem_cons_of_mem i ha) b (List.mem_cons_of_mem i hb)
      have hinsert (l' : List ι) (hl' : ∀ j ∈ l', j ∈ l) :
          (l'.orderedInsert r i).flatMap word = word i ++ l'.flatMap word := by
        induction l' with
        | nil => rfl
        | cons j l' ih' =>
            obtain ⟨hj, hl'⟩ := List.forall_mem_cons.mp hl'
            rw [List.orderedInsert_cons]
            split_ifs with hij
            · rfl
            · have hcommutes := h i List.mem_cons_self j (List.mem_cons_of_mem i hj) hij
              rw [List.flatMap_cons, ih' hl', List.flatMap_cons, ← List.append_assoc, ← hcommutes, List.append_assoc]
      rw [List.insertionSort_cons, hinsert _ fun j hj => (List.mem_insertionSort r).mp hj, hrest, List.flatMap_cons]

end Arrangements

end Words
