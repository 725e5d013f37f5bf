import Mathlib.Algebra.Field.Rat
import Mathlib.Tactic.NormNum
import YaqtLib.Bytes

/-! The waveforms of voice notes (`waveformmanager.cpp`): samples of five bits each, packed into bytes, in exact
rationals. -/

namespace YaqtLib

open Bytes

namespace WaveformManager

/-- The number of a byte of the array: plain `char` is signed on some platforms and unsigned on others. -/
def charToInt (charSigned : Bool) (byte : Byte) : BitVec 32 :=
  if charSigned then byte.signExtend 32 else byte.setWidth 32

/-- The five bits of sample `i`, read from one byte and the next. -/
def decodedValue (charSigned : Bool) (waveform : List Byte) (i : Nat) : BitVec 32 :=
  let j := i * 5 / 8
  let shift := i * 5 % 8
  let next := if j + 1 < waveform.length then charToInt charSigned (waveform.getD (j + 1) 0) else 0
  (charToInt charSigned (waveform.getD j 0) ||| next <<< 8).sshiftRight shift &&& 0x1F

def decodeWaveform (charSigned : Bool) (encodedData : String) : List Rat :=
  let waveform := fromBase64 encodedData.toList
  ((List.range (waveform.length * 8 / 5)).map fun i => ((decodedValue charSigned waveform i).toInt / 31 : Rat)).take 100

/-- `static_cast<int>(waveform[i].toDouble() * 31.0) & 31` -/
def encodedValue (sample : Rat) : BitVec 32 :=
  BitVec.ofInt 32 ((sample * 31).num.tdiv (sample * 31).den) &&& 31

/-- The first `m` samples, or-ed into the bytes. -/
def packed (waveform : List Rat) (result : List Byte) (m : Nat) : List Byte :=
  (List.range m).foldl (fun data i =>
    let bitOffset := i * 5
    orWord data (bitOffset / 8) (encodedValue (waveform.getD i 0) <<< (bitOffset % 8))) result

/-- The bytes of the samples; writing whole words needs a byte more than they fill. -/
def encodedBytes (waveform : List Rat) : List Byte :=
  let numBits := waveform.length * 5
  packed waveform (List.replicate ((numBits + 7) / 8 + 1) 0) waveform.length

def encodeWaveform (waveform : List Rat) : String := String.ofList (toBase64 (encodedBytes waveform))

/-! ### The packed bits -/

theorem packed_succ (waveform : List Rat) (result : List Byte) (m : Nat) :
    packed waveform result (m + 1) = orWord (packed waveform result m) (m * 5 / 8)
      (encodedValue (waveform.getD m 0) <<< (m * 5 % 8)) := by
  rw [packed, List.range_succ, List.foldl_append]
  rfl

theorem length_packed (waveform : List Rat) (result : List Byte) (m : Nat) :
    (packed waveform result m).length = result.length := by
  induction m with
  | zero => rfl
  | succ m ih => rw [packed_succ, length_orWord, ih]

theorem length_encodedBytes (waveform : List Rat) :
    (encodedBytes waveform).length = (waveform.length * 5 + 7) / 8 + 1 := by
  rw [encodedBytes, length_packed, List.length_replicate]

theorem getLsbD_encodedValue_of_le (sample : Rat) {b : Nat} (hb : 5 ≤ b) :
    (encodedValue sample).getLsbD b = false := by
  rw [encodedValue, BitVec.getLsbD_and]
  have hmask : (31 : BitVec 32).getLsbD b = false := by
    show (31 : Nat).testBit b = false
    exact Nat.testBit_lt_two_pow (lt_of_lt_of_le (by decide : 31 < 2 ^ 5) (Nat.pow_le_pow_right (by decide) hb))
  rw [hmask, Bool.and_false]

/-- Bit `t` of the packed samples is bit `t % 5` of sample `t / 5`. -/
theorem bitAt_packed (waveform : List Rat) {result : List Byte} (hzero : ∀ t, bitAt result t = false) {m : Nat}
    (hm : m * 5 ≤ 8 * result.length) (t : Nat) :
    bitAt (packed waveform result m) t =
      (decide (t < m * 5) && (encodedValue (waveform.getD (t / 5) 0)).getLsbD (t % 5)) := by
  induction m with
  | zero => rw [decide_eq_false (by omega), Bool.false_and]; exact hzero t
  | succ m ih =>
      have hlength : (packed waveform result m).length = result.length := length_packed _ _ _
      by_cases ht : t < 8 * result.length
      swap
      · rw [bitAt_of_length_le (by rw [length_packed]; omega), decide_eq_false (by omega), Bool.false_and]
      rw [packed_succ, bitAt_orWord (by rw [hlength]; exact ht), ih (by omega), BitVec.getLsbD_shiftLeft]
      rcases Nat.lt_or_ge t (m * 5) with hbefore | hafter
      · -- a bit of an earlier sample
        have hnot : (decide (8 * (m * 5 / 8) ≤ t) && (decide (t - 8 * (m * 5 / 8) < 32) &&
            !decide (t - 8 * (m * 5 / 8) < m * 5 % 8) &&
            (encodedValue (waveform.getD m 0)).getLsbD (t - 8 * (m * 5 / 8) - m * 5 % 8))) = false := by
          by_cases hstart : 8 * (m * 5 / 8) ≤ t
          · rw [decide_eq_true (by omega : t - 8 * (m * 5 / 8) < m * 5 % 8)]
            simp
          · rw [decide_eq_false hstart, Bool.false_and]
        rw [hnot, Bool.or_false, decide_eq_true hbefore, decide_eq_true (by omega)]
      · have hplace : t - 8 * (m * 5 / 8) - m * 5 % 8 = t - m * 5 := by omega
        rw [decide_eq_false (by omega : ¬ t < m * 5), Bool.false_and, Bool.false_or, hplace,
          decide_eq_true (by omega : 8 * (m * 5 / 8) ≤ t),
          decide_eq_false (by omega : ¬ t - 8 * (m * 5 / 8) < m * 5 % 8)]
        rcases Nat.lt_or_ge t ((m + 1) * 5) with hin | hpast
        · have hdiv : t / 5 = m := by omega
          have hmod : t % 5 = t - m * 5 := by omega
          rw [decide_eq_true hin, decide_eq_true (by omega : t - 8 * (m * 5 / 8) < 32), hdiv, hmod]
          simp
        · rw [decide_eq_false (by omega : ¬ t < (m + 1) * 5), getLsbD_encodedValue_of_le _ (by omega)]
          simp

theorem bitAt_encodedBytes (waveform : List Rat) (t : Nat) :
    bitAt (encodedBytes waveform) t =
      (decide (t < waveform.length * 5) && (encodedValue (waveform.getD (t / 5) 0)).getLsbD (t % 5)) := by
  apply bitAt_packed
  · exact bitAt_replicate_zero _
  · rw [List.length_replicate]
    omega

/-! ### The bits that are read -/

theorem getLsbD_charToInt (charSigned : Bool) (byte : Byte) {t : Nat} (ht : t < 32) :
    (charToInt charSigned byte).getLsbD t =
      if t < 8 then byte.getLsbD t else charSigned && byte.getLsbD 7 := by
  rw [charToInt]
  cases charSigned with
  | false =>
      rw [if_neg Bool.false_ne_true, BitVec.getLsbD_setWidth, decide_eq_true ht, Bool.true_and, Bool.false_and]
      split_ifs with h
      · rfl
      · exact BitVec.getLsbD_of_ge _ _ (by omega)
  | true =>
      rw [if_pos rfl, BitVec.getLsbD_signExtend, decide_eq_true ht, Bool.true_and, Bool.true_and]
      split_ifs with h
      · rfl
      · rw [BitVec.msb_eq_getLsbD_last]

/-- A sample is read bit by bit; where `char` is signed, the sign of its first byte covers the bits that lie in
the second one. -/
theorem getLsbD_decodedValue (charSigned : Bool) (waveform : List Byte) (i : Nat) {b : Nat} (hb : b < 5) :
    (decodedValue charSigned waveform i).getLsbD b = (bitAt waveform (i * 5 + b) ||
      (decide (8 ≤ i * 5 % 8 + b) && (charSigned && bitAt waveform (8 * (i * 5 / 8) + 7)))) := by
  have hmask : (0x1F : BitVec 32).getLsbD b = true := by
    have hall : ∀ b : Fin 5, (0x1F : BitVec 32).getLsbD b.val = true := by decide
    exact hall ⟨b, hb⟩
  have hsign : bitAt waveform (8 * (i * 5 / 8) + 7) = (waveform.getD (i * 5 / 8) 0).getLsbD 7 := by
    rw [bitAt]
    congr 2
    all_goals omega
  rw [decodedValue, BitVec.getLsbD_and, hmask, Bool.and_true, BitVec.getLsbD_sshiftRight,
    decide_eq_false (by omega : ¬ 32 ≤ b), if_pos (by omega : i * 5 % 8 + b < 32), BitVec.getLsbD_or,
    getLsbD_charToInt _ _ (by omega : i * 5 % 8 + b < 32), BitVec.getLsbD_shiftLeft, hsign]
  rcases Nat.lt_or_ge (i * 5 % 8 + b) 8 with hfirst | hsecond
  · have hdiv : (i * 5 + b) / 8 = i * 5 / 8 := by omega
    have hmod : (i * 5 + b) % 8 = i * 5 % 8 + b := by omega
    rw [if_pos hfirst, decide_eq_true hfirst, decide_eq_false (by omega : ¬ 8 ≤ i * 5 % 8 + b), bitAt, hdiv, hmod]
    simp
  · have hdiv : (i * 5 + b) / 8 = i * 5 / 8 + 1 := by omega
    have hmod : (i * 5 + b) % 8 = i * 5 % 8 + b - 8 := by omega
    rw [if_neg (by omega), decide_eq_true (by omega : i * 5 % 8 + b < 32),
      decide_eq_false (by omega : ¬ i * 5 % 8 + b < 8), decide_eq_true hsecond, bitAt, hdiv, hmod]
    by_cases hlast : i * 5 / 8 + 1 < waveform.length
    · rw [if_pos hlast, getLsbD_charToInt _ _ (by omega), if_pos (by omega)]
      simp [Bool.or_comm]
    · have hnone : waveform.getD (i * 5 / 8 + 1) 0 = 0 := by
        rw [List.getD_eq_getElem?_getD, List.getElem?_eq_none (by omega)]
        rfl
      rw [if_neg hlast, hnone]
      simp

/-! ### Round trips -/

/-- A sample of five bits. -/
def IsSample (x : Rat) : Prop := ∃ k : Nat, k ≤ 31 ∧ x = k / 31

theorem encodedValue_sample (k : Nat) (hk : k ≤ 31) : encodedValue (k / 31) = BitVec.ofNat 32 k := by
  have hexact : (k / 31 : Rat) * 31 = k := div_mul_cancel₀ _ (by decide)
  have hall : ∀ k : Fin 32, BitVec.ofInt 32 ((k.val : Int).tdiv 1) &&& 31 = BitVec.ofNat 32 k.val := by decide
  rw [encodedValue, hexact]
  exact hall ⟨k, by omega⟩

/-- The samples that are read are numbers of five bits. -/
theorem toInt_decodedValue (charSigned : Bool) (waveform : List Byte) (i : Nat) :
    (decodedValue charSigned waveform i).toInt = (decodedValue charSigned waveform i).toNat := by
  apply BitVec.toInt_eq_toNat_of_lt
  have hle : (decodedValue charSigned waveform i).toNat ≤ 31 := by
    rw [decodedValue, BitVec.toNat_and]
    exact Nat.and_le_right
  omega

theorem decodeWaveform_encodeWaveform (charSigned : Bool) (waveform : List Rat) :
    decodeWaveform charSigned (encodeWaveform waveform) =
      ((List.range (((waveform.length * 5 + 7) / 8 + 1) * 8 / 5)).map fun i =>
        ((decodedValue charSigned (encodedBytes waveform) i).toNat / 31 : Rat)).take 100 := by
  rw [decodeWaveform, encodeWaveform, String.toList_ofList, fromBase64_toBase64, length_encodedBytes]
  simp only [toInt_decodedValue]
  rfl

/-- The sign of the first byte of sample `i` sets no bit of the sample that lies in the second byte and is 0. -/
def SignKept (sample : Rat) (i : Nat) : Prop :=
  ∀ b < 5, 8 ≤ i * 5 % 8 + b → (encodedValue sample).getLsbD (7 - i * 5 % 8) = true →
    (encodedValue sample).getLsbD b = true

instance (sample : Rat) (i : Nat) : Decidable (SignKept sample i) :=
  inferInstanceAs (Decidable (∀ b < 5, _))

theorem bitAt_sample {waveform : List Rat} {i : Nat} (hi : i < waveform.length) {b : Nat} (hb : b < 5) :
    bitAt (encodedBytes waveform) (i * 5 + b) = (encodedValue (waveform.getD i 0)).getLsbD b := by
  have hdiv : (i * 5 + b) / 5 = i := by omega
  have hmod : (i * 5 + b) % 5 = b := by omega
  rw [bitAt_encodedBytes, decide_eq_true (by omega), hdiv, hmod, Bool.true_and]

theorem decodedValue_encodedBytes_iff (charSigned : Bool) {waveform : List Rat} {i : Nat}
    (hi : i < waveform.length) :
    decodedValue charSigned (encodedBytes waveform) i = encodedValue (waveform.getD i 0) ↔
      (charSigned = true → SignKept (waveform.getD i 0) i) := by
  -- the sign lies in the part of the sample that its first byte holds
  have hsign : ∀ b < 5, 8 ≤ i * 5 % 8 + b → bitAt (encodedBytes waveform) (8 * (i * 5 / 8) + 7) =
      (encodedValue (waveform.getD i 0)).getLsbD (7 - i * 5 % 8) := by
    intro b hb hsecond
    have hplace : 8 * (i * 5 / 8) + 7 = i * 5 + (7 - i * 5 % 8) := by omega
    rw [hplace, bitAt_sample hi (by omega)]
  constructor
  · intro heq hsigned b hb hsecond htop
    have hbit := congrArg (fun value => value.getLsbD b) heq
    simp only [getLsbD_decodedValue _ _ _ hb, bitAt_sample hi hb, hsign b hb hsecond, htop, hsigned,
      decide_eq_true hsecond, Bool.and_self, Bool.or_true] at hbit
    exact hbit.symm
  · intro hkept
    apply BitVec.eq_of_getLsbD_eq
    intro b _
    rcases Nat.lt_or_ge b 5 with hb | hb
    · rw [getLsbD_decodedValue _ _ _ hb, bitAt_sample hi hb]
      by_cases hsecond : 8 ≤ i * 5 % 8 + b
      · rw [hsign b hb hsecond]
        cases hsigned : charSigned with
        | false => simp
        | true =>
            have himp := hkept hsigned b hb hsecond
            cases htop : (encodedValue (waveform.getD i 0)).getLsbD (7 - i * 5 % 8) with
            | false => simp
            | true => rw [himp htop, Bool.true_or]
      · rw [decide_eq_false hsecond, Bool.false_and, Bool.or_false]
    · rw [getLsbD_encodedValue_of_le _ hb, decodedValue, BitVec.getLsbD_and]
      have hmask : (0x1F : BitVec 32).getLsbD b = false := by
        show (31 : Nat).testBit b = false
        exact Nat.testBit_lt_two_pow (lt_of_lt_of_le (by decide : 31 < 2 ^ 5) (Nat.pow_le_pow_right (by decide) hb))
      rw [hmask, Bool.and_false]

/-- A sample is read as it was written exactly if its sign bit does no harm. -/
theorem sample_decoded_iff (charSigned : Bool) {waveform : List Rat} (hsamples : ∀ x ∈ waveform, IsSample x)
    {i : Nat} (hi : i < waveform.length) :
    ((decodedValue charSigned (encodedBytes waveform) i).toNat / 31 : Rat) = waveform[i] ↔
      (charSigned = true → SignKept (waveform.getD i 0) i) := by
  have hget : waveform.getD i 0 = waveform[i] := by
    rw [List.getD_eq_getElem?_getD, List.getElem?_eq_getElem hi, Option.getD_some]
  obtain ⟨k, hk, hsample⟩ := hsamples _ (List.getElem_mem hi)
  have hvalue : (encodedValue (waveform.getD i 0)).toNat = k := by
    rw [hget, hsample, encodedValue_sample k hk, BitVec.toNat_ofNat, Nat.mod_eq_of_lt (by omega)]
  rw [← decodedValue_encodedBytes_iff charSigned hi, hsample, div_left_inj' (by decide), Nat.cast_inj]
  constructor
  · intro heq
    exact BitVec.eq_of_toNat_eq (heq.trans hvalue.symm)
  · intro heq
    rw [heq, hvalue]

theorem length_decodeWaveform (charSigned : Bool) (waveform : List Rat) :
    (decodeWaveform charSigned (encodeWaveform waveform)).length =
      min 100 (((waveform.length * 5 + 7) / 8 + 1) * 8 / 5) := by
  rw [decodeWaveform_encodeWaveform, List.length_take, List.length_map, List.length_range]

/-- What is decoded starts with the samples; the bits after them are read as further ones. -/
theorem take_decodeWaveform_iff (charSigned : Bool) {waveform : List Rat} (hsamples : ∀ x ∈ waveform, IsSample x)
    (hlength : waveform.length ≤ 100) :
    (decodeWaveform charSigned (encodeWaveform waveform)).take waveform.length = waveform ↔
      (charSigned = true → ∀ i < waveform.length, SignKept (waveform.getD i 0) i) := by
  have hcount : waveform.length ≤ (decodeWaveform charSigned (encodeWaveform waveform)).length := by
    rw [length_decodeWaveform]
    omega
  have hget : ∀ i (hi : i < waveform.length), (decodeWaveform charSigned (encodeWaveform waveform))[i] =
      ((decodedValue charSigned (encodedBytes waveform) i).toNat / 31 : Rat) := by
    intro i hi
    simp only [decodeWaveform_encodeWaveform, List.getElem_take, List.getElem_map, List.getElem_range]
  constructor
  · intro heq hsigned i hi
    apply (sample_decoded_iff charSigned hsamples hi).mp _ hsigned
    rw [← hget i hi, List.getElem_of_eq heq.symm hi, List.getElem_take]
  · intro hkept
    apply List.ext_getElem
    · rw [List.length_take]
      omega
    · intro i _ hi
      rw [List.getElem_take, hget i hi]
      exact (sample_decoded_iff charSigned hsamples hi).mpr fun hsigned => hkept hsigned i hi

/-- **Round trips of waveforms.** Up to 100 samples, a waveform is decoded to itself exactly if it has 100 samples
and, where `char` is signed, no sign sets a bit of a sample. -/
theorem decodeWaveform_encodeWaveform_iff (charSigned : Bool) {waveform : List Rat}
    (hsamples : ∀ x ∈ waveform, IsSample x) (hlength : waveform.length ≤ 100) :
    decodeWaveform charSigned (encodeWaveform waveform) = waveform ↔
      waveform.length = 100 ∧
        (charSigned = true → ∀ i < waveform.length, SignKept (waveform.getD i 0) i) := by
  have hcount := length_decodeWaveform charSigned waveform
  rw [← take_decodeWaveform_iff charSigned hsamples hlength]
  constructor
  · intro heq
    have hsame := congrArg List.length heq
    refine ⟨by omega, ?_⟩
    rw [heq, List.take_length]
  · rintro ⟨h100, htake⟩
    rwa [List.take_of_length_le (by omega)] at htake

theorem isSample_one : IsSample 1 := ⟨31, le_refl 31, by norm_num⟩

/-- The sign of a sample with all bits set does no harm. -/
theorem signKept_one (i : Nat) : SignKept 1 i := by
  intro b hb _ _
  have hone : ((31 : Nat) / 31 : Rat) = 1 := by norm_num
  have hall : ∀ b : Fin 5, (BitVec.ofNat 32 31).getLsbD b.val = true := by decide
  rw [← hone, encodedValue_sample 31 (le_refl 31)]
  exact hall ⟨b, hb⟩

theorem decodeWaveform_encodeWaveform_full :
    decodeWaveform true (encodeWaveform (List.replicate 100 1)) = List.replicate 100 1 := by
  apply (decodeWaveform_encodeWaveform_iff true _ (by rw [List.length_replicate])).mpr
  · refine ⟨List.length_replicate, fun _ i hi => ?_⟩
    rw [List.getD_eq_getElem?_getD, List.getElem?_eq_getElem hi, List.getElem_replicate]
    exact signKept_one i
  · intro x hx
    rw [List.eq_of_mem_replicate hx]
    exact isSample_one

/-- The byte that is written on top is read as samples. -/
theorem not_decodeWaveform_encodeWaveform :
    decodeWaveform false (encodeWaveform [1]) ≠ [1] ∧ decodeWaveform true (encodeWaveform [1]) ≠ [1] := by
  constructor
  · intro heq
    exact absurd ((length_decodeWaveform false [1]).symm.trans (congrArg List.length heq)) (by decide)
  · intro heq
    exact absurd ((length_decodeWaveform true [1]).symm.trans (congrArg List.length heq)) (by decide)

end WaveformManager

end YaqtLib
