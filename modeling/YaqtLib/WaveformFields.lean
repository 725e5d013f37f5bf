import Mathlib.Tactic.IntervalCases
import YaqtLib.WaveformManager

/-! The fields of five bits that waveforms are packed in: what is read where one lies in two bytes, and where the words
lie that are written for them. -/

namespace YaqtLib

open Bytes

namespace WaveformManager

/-- The bits `5i` to `5i + 4` of a byte array, as an unsigned number. -/
def field (waveform : List Byte) (i : Nat) : Nat := Nat.ofBits fun b : Fin 5 => bitAt waveform (i * 5 + b)

/-- The samples that a byte array holds, up to a hundred. -/
def fields (waveform : List Byte) : List Rat :=
  (List.range (min 100 (8 * waveform.length / 5))).map fun i => (field waveform i / 31 : Rat)

/-- A field that lies in two bytes is not covered by the sign of the first one. -/
def SignHarmless (waveform : List Byte) (i : Nat) : Prop :=
  bitAt waveform (8 * (i * 5 / 8) + 7) = true → ∀ b < 5, 8 ≤ i * 5 % 8 + b → bitAt waveform (i * 5 + b) = true

instance (waveform : List Byte) (i : Nat) : Decidable (SignHarmless waveform i) :=
  inferInstanceAs (Decidable (_ → ∀ b < 5, _))

theorem testBit_field (waveform : List Byte) (i : Nat) {b : Nat} (hb : b < 5) :
    (field waveform i).testBit b = bitAt waveform (i * 5 + b) :=
  Nat.testBit_ofBits_lt _ b hb

theorem decodedValue_lt (charSigned : Bool) (waveform : List Byte) (i : Nat) :
    (decodedValue charSigned waveform i).toNat < 2 ^ 5 := by
  have hle : (decodedValue charSigned waveform i).toNat ≤ 31 := by
    rw [decodedValue, BitVec.toNat_and]
    exact Nat.and_le_right
  omega

/-- A sample is read from its field exactly if no sign does harm. -/
theorem decodedValue_eq_field_iff (charSigned : Bool) (waveform : List Byte) (i : Nat) :
    (decodedValue charSigned waveform i).toNat = field waveform i ↔ (charSigned = true → SignHarmless waveform i) := by
  have hbit {b : Nat} (hb : b < 5) : (decodedValue charSigned waveform i).toNat.testBit b =
      (bitAt waveform (i * 5 + b) ||
        (decide (8 ≤ i * 5 % 8 + b) && (charSigned && bitAt waveform (8 * (i * 5 / 8) + 7)))) :=
    getLsbD_decodedValue charSigned waveform i hb
  constructor
  · intro heq hsigned htop b hb hsecond
    have hfield := hbit hb
    rw [heq, testBit_field waveform i hb, hsigned, htop, decide_eq_true hsecond, Bool.and_self, Bool.and_self,
      Bool.or_true] at hfield
    exact hfield
  · intro hharmless
    apply Nat.eq_of_testBit_eq
    intro b
    rcases Nat.lt_or_ge b 5 with hb | hb
    · rw [hbit hb, testBit_field waveform i hb]
      cases hsigned : charSigned with
      | false => rw [Bool.false_and, Bool.and_false, Bool.or_false]
      | true =>
          cases htop : bitAt waveform (8 * (i * 5 / 8) + 7) with
          | false => rw [Bool.and_false, Bool.and_false, Bool.or_false]
          | true =>
              by_cases hsecond : 8 ≤ i * 5 % 8 + b
              · rw [hharmless hsigned htop b hb hsecond, Bool.true_or]
              · rw [decide_eq_false hsecond, Bool.false_and, Bool.or_false]
    · have hpow : 2 ^ 5 ≤ 2 ^ b := Nat.pow_le_pow_right (by decide) hb
      have hfield : field waveform i < 2 ^ 5 := Nat.ofBits_lt_two_pow _
      rw [Nat.testBit_lt_two_pow ((decodedValue_lt charSigned waveform i).trans_le hpow),
        Nat.testBit_lt_two_pow (hfield.trans_le hpow)]

/-- **The fields of a waveform.** What is decoded are the fields of the bytes exactly if `char` is unsigned or no sign
covers a bit. -/
theorem decodeWaveform_eq_fields_iff (charSigned : Bool) (encodedData : String) :
    decodeWaveform charSigned encodedData = fields (fromBase64 encodedData.toList) ↔
      (charSigned = true → ∀ i < min 100 (8 * (fromBase64 encodedData.toList).length / 5),
        SignHarmless (fromBase64 encodedData.toList) i) := by
  generalize hbytes : fromBase64 encodedData.toList = waveform
  have hvalue (i : Nat) : ((decodedValue charSigned waveform i).toInt / 31 : Rat) = (field waveform i / 31 : Rat) ↔
      (charSigned = true → SignHarmless waveform i) := by
    rw [← decodedValue_eq_field_iff, toInt_decodedValue, div_left_inj' (by decide), Int.cast_natCast, Nat.cast_inj]
  have hlist : decodeWaveform charSigned encodedData =
      (List.range (min 100 (8 * waveform.length / 5))).map fun i =>
        ((decodedValue charSigned waveform i).toInt / 31 : Rat) := by
    rw [decodeWaveform, hbytes, ← List.map_take, List.take_range, Nat.mul_comm waveform.length 8]
  rw [hlist, fields, List.map_inj_left]
  simp only [List.mem_range, hvalue]
  exact ⟨fun h hsigned i hi => h i hi hsigned, fun h i hi hsigned => h hsigned i hi⟩

/-- A byte with its top bit set in front of a field's second part: two of ten bits. -/
theorem not_decodeWaveform_eq_fields :
    ¬ (∀ (charSigned : Bool) (encodedData : String),
      decodeWaveform charSigned encodedData = fields (fromBase64 encodedData.toList)) := by
  intro h
  have hfields := (decodeWaveform_eq_fields_iff true "gAA=").mp (h true "gAA=") rfl
  exact absurd (hfields 1 (by decide)) (by decide)

/-! ### The words that are written -/

/-- The four bytes of a word from an offset on lie in the array. -/
def WordInside (bytes : List Byte) (offset : Nat) : Prop := offset + 4 ≤ bytes.length

/-- The array before the sample with an index is written. -/
def written (waveform : List Rat) (i : Nat) : List Byte :=
  packed waveform (List.replicate ((waveform.length * 5 + 7) / 8 + 1) 0) i

/-- After the last sample the array is the encoded one. -/
theorem written_length (waveform : List Rat) : written waveform waveform.length = encodedBytes waveform := rfl

/-- **The buffer of a waveform.** The word of a sample lies in the array if three samples or more follow; of the third
from the end and of the second it does at some places only, and of the last one it never does. -/
theorem wordInside_iff (waveform : List Rat) {i : Nat} (hi : i < waveform.length) :
    WordInside (written waveform i) (i * 5 / 8) ↔
      i + 4 ≤ waveform.length ∨ (i + 3 = waveform.length ∧ i % 8 ≠ 0 ∧ i % 8 ≠ 5) ∨
        (i + 2 = waveform.length ∧ i % 8 = 3) := by
  rw [WordInside, written, length_packed, List.length_replicate]
  -- the offsets repeat every eight samples
  obtain ⟨k, j, hj, rfl⟩ : ∃ k j, j < 8 ∧ i = 8 * k + j := ⟨i / 8, i % 8, Nat.mod_lt i (by decide), by omega⟩
  have hoffset : (8 * k + j) * 5 / 8 = 5 * k + j * 5 / 8 := by omega
  have hmod : (8 * k + j) % 8 = j := by omega
  rw [hoffset, hmod]
  interval_cases j <;> omega

/-- The first word of four samples. -/
theorem wordInside_first : WordInside (written (List.replicate 4 1) 0) (0 * 5 / 8) :=
  (wordInside_iff (List.replicate 4 1) (by decide)).mpr (Or.inl (by decide))

/-- The word of a single sample goes two bytes beyond the array. -/
theorem not_wordInside :
    ¬ ∀ (waveform : List Rat) (i : Nat), i < waveform.length → WordInside (written waveform i) (i * 5 / 8) := by
  intro h
  have hsize : 0 * 5 / 8 + 4 ≤ (written [1] 0).length := h [1] 0 (by decide)
  rw [written, length_packed, List.length_replicate] at hsize
  exact absurd hsize (by decide)

/-- The word of the last sample goes beyond the array of every waveform. -/
theorem not_wordInside_last {waveform : List Rat} (hne : waveform ≠ []) :
    ¬ WordInside (written waveform (waveform.length - 1)) ((waveform.length - 1) * 5 / 8) := by
  have hpos := List.length_pos_iff.mpr hne
  rw [WordInside, written, length_packed, List.length_replicate]
  omega

end WaveformManager

end YaqtLib
