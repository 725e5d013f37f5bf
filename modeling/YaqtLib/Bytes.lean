import Mathlib.Algebra.Group.Nat.Defs
import Mathlib.Data.List.Basic

/-! Byte arrays: Base64 as Qt reads and writes it, and the bits of a byte array in little-endian order. -/

namespace Bytes

abbrev Byte := BitVec 8

/-! ### Base64 -/

/-- The character of a sextet. -/
def charOf (d : Nat) : Char :=
  if d < 26 then Char.ofNat ('A'.toNat + d)
  else if d < 52 then Char.ofNat ('a'.toNat + (d - 26))
  else if d < 62 then Char.ofNat ('0'.toNat + (d - 52))
  else if d = 62 then '+'
  else '/'

/-- The sextet of a character of the alphabet. -/
def sextetOf (c : Char) : Option Nat :=
  if 'A'.toNat ≤ c.toNat ∧ c.toNat ≤ 'Z'.toNat then some (c.toNat - 'A'.toNat)
  else if 'a'.toNat ≤ c.toNat ∧ c.toNat ≤ 'z'.toNat then some (c.toNat - 'a'.toNat + 26)
  else if '0'.toNat ≤ c.toNat ∧ c.toNat ≤ '9'.toNat then some (c.toNat - '0'.toNat + 52)
  else if c = '+' then some 62
  else if c = '/' then some 63
  else none

theorem sextetOf_charOf {d : Nat} (hd : d < 64) : sextetOf (charOf d) = some d := by
  have hall : ∀ d : Fin 64, sextetOf (charOf d.val) = some d.val := by decide
  exact hall ⟨d, hd⟩

theorem sextetOf_pad : sextetOf '=' = none := by decide

/-- The four sextets of a chunk of three bytes. -/
def sextet (chunk place : Nat) : Nat := chunk / 64 ^ place % 64

theorem sextet_lt (chunk place : Nat) : sextet chunk place < 64 := Nat.mod_lt _ (by decide)

/-- `QByteArray::toBase64`: four characters for each three bytes, the last ones padded. -/
def toBase64 : List Byte → List Char
  | [] => []
  | [a] =>
      let chunk := a.toNat * 65536
      [charOf (sextet chunk 3), charOf (sextet chunk 2), '=', '=']
  | [a, b] =>
      let chunk := a.toNat * 65536 + b.toNat * 256
      [charOf (sextet chunk 3), charOf (sextet chunk 2), charOf (sextet chunk 1), '=']
  | a :: b :: c :: bytes =>
      let chunk := a.toNat * 65536 + b.toNat * 256 + c.toNat
      charOf (sextet chunk 3) :: charOf (sextet chunk 2) :: charOf (sextet chunk 1) :: charOf (sextet chunk 0) ::
        toBase64 bytes

/-- The loop of `QByteArray::fromBase64`, with the bits that are not yet written; characters outside the
alphabet are ignored. -/
def readBase64 : Nat → Nat → List Char → List Byte
  | _, _, [] => []
  | buf, nbits, c :: chars =>
      match sextetOf c with
      | none => readBase64 buf nbits chars
      | some d =>
          let buf := buf * 64 + d
          let nbits := nbits + 6
          if 8 ≤ nbits then
            BitVec.ofNat 8 (buf / 2 ^ (nbits - 8)) :: readBase64 (buf % 2 ^ (nbits - 8)) (nbits - 8) chars
          else readBase64 buf nbits chars

def fromBase64 (chars : List Char) : List Byte := readBase64 0 0 chars

theorem readBase64_charOf {d : Nat} (hd : d < 64) (buf nbits : Nat) (chars : List Char) :
    readBase64 buf nbits (charOf d :: chars) =
      if 8 ≤ nbits + 6 then
        BitVec.ofNat 8 ((buf * 64 + d) / 2 ^ (nbits + 6 - 8)) ::
          readBase64 ((buf * 64 + d) % 2 ^ (nbits + 6 - 8)) (nbits + 6 - 8) chars
      else readBase64 (buf * 64 + d) (nbits + 6) chars := by
  rw [readBase64, sextetOf_charOf hd]

theorem readBase64_pad (buf nbits : Nat) (chars : List Char) :
    readBase64 buf nbits ('=' :: chars) = readBase64 buf nbits chars := by
  rw [readBase64, sextetOf_pad]

theorem ofNat_eq_of_mod {a : Byte} {n : Nat} (h : n % 256 = a.toNat) : BitVec.ofNat 8 n = a :=
  BitVec.eq_of_toNat_eq (by rw [BitVec.toNat_ofNat]; exact h)

/-- Four characters are read as the three bytes they were made of. -/
theorem readBase64_chunk (a b c : Byte) (chars : List Char) :
    readBase64 0 0 (charOf (sextet (a.toNat * 65536 + b.toNat * 256 + c.toNat) 3) ::
      charOf (sextet (a.toNat * 65536 + b.toNat * 256 + c.toNat) 2) ::
      charOf (sextet (a.toNat * 65536 + b.toNat * 256 + c.toNat) 1) ::
      charOf (sextet (a.toNat * 65536 + b.toNat * 256 + c.toNat) 0) :: chars) =
    a :: b :: c :: readBase64 0 0 chars := by
  have ha := a.isLt
  have hb := b.isLt
  have hc := c.isLt
  rw [readBase64_charOf (sextet_lt _ _), if_neg (by decide), readBase64_charOf (sextet_lt _ _), if_pos (by decide),
    readBase64_charOf (sextet_lt _ _), if_pos (by decide), readBase64_charOf (sextet_lt _ _), if_pos (by decide)]
  simp only [sextet]
  congr 1
  · apply ofNat_eq_of_mod
    omega
  congr 1
  · apply ofNat_eq_of_mod
    omega
  congr 1
  · apply ofNat_eq_of_mod
    omega
  congr 1
  omega

/-- **Round trip.** -/
theorem fromBase64_toBase64 (bytes : List Byte) : fromBase64 (toBase64 bytes) = bytes := by
  unfold fromBase64
  induction bytes using toBase64.induct with
  | case1 => rfl
  | case2 a =>
      have ha := a.isLt
      rw [toBase64, readBase64_charOf (sextet_lt _ _), if_neg (by decide), readBase64_charOf (sextet_lt _ _),
        if_pos (by decide), readBase64_pad, readBase64_pad, readBase64]
      simp only [sextet]
      congr 1
      apply ofNat_eq_of_mod
      omega
  | case3 a b =>
      have ha := a.isLt
      have hb := b.isLt
      rw [toBase64, readBase64_charOf (sextet_lt _ _), if_neg (by decide), readBase64_charOf (sextet_lt _ _),
        if_pos (by decide), readBase64_charOf (sextet_lt _ _), if_pos (by decide), readBase64_pad, readBase64]
      simp only [sextet]
      congr 1
      · apply ofNat_eq_of_mod
        omega
      congr 1
      apply ofNat_eq_of_mod
      omega
  | case4 a b c bytes ih =>
      rw [toBase64, readBase64_chunk, ih]

/-! ### Bits -/

/-- Bit `t` of a byte array; there are none past its end. -/
def bitAt (bytes : List Byte) (t : Nat) : Bool := (bytes.getD (t / 8) 0).getLsbD (t % 8)

/-- A 32-bit word is or-ed into the four bytes from `offset` on, the low byte first. What lies past the end is
not part of the array. -/
def orWord (bytes : List Byte) (offset : Nat) (word : BitVec 32) : List Byte :=
  bytes.mapIdx fun j byte => if offset ≤ j then byte ||| (word >>> (8 * (j - offset))).setWidth 8 else byte

@[simp] theorem length_orWord (bytes : List Byte) (offset : Nat) (word : BitVec 32) :
    (orWord bytes offset word).length = bytes.length := List.length_mapIdx

theorem bitAt_replicate_zero (n t : Nat) : bitAt (List.replicate n 0) t = false := by
  rw [bitAt, List.getD_eq_getElem?_getD, List.getElem?_replicate]
  split_ifs <;> simp

theorem bitAt_of_length_le {bytes : List Byte} {t : Nat} (ht : 8 * bytes.length ≤ t) : bitAt bytes t = false := by
  rw [bitAt, List.getD_eq_getElem?_getD, List.getElem?_eq_none (by omega)]
  simp

/-- The word's bits are or-ed to the array's, from the offset on. -/
theorem bitAt_orWord {bytes : List Byte} {t : Nat} (ht : t < 8 * bytes.length) (offset : Nat) (word : BitVec 32) :
    bitAt (orWord bytes offset word) t =
      (bitAt bytes t || (decide (8 * offset ≤ t) && word.getLsbD (t - 8 * offset))) := by
  have hbyte : t / 8 < bytes.length := by omega
  have hbit : t % 8 < 8 := Nat.mod_lt _ (by decide)
  rw [bitAt, bitAt, List.getD_eq_getElem?_getD, List.getD_eq_getElem?_getD, orWord, List.getElem?_mapIdx,
    List.getElem?_eq_getElem hbyte]
  simp only [Option.map_some, Option.getD_some]
  by_cases hoffset : offset ≤ t / 8
  · have hplace : 8 * (t / 8 - offset) + t % 8 = t - 8 * offset := by omega
    rw [if_pos hoffset, BitVec.getLsbD_or, BitVec.getLsbD_setWidth, BitVec.getLsbD_ushiftRight, hplace,
      decide_eq_true hbit, decide_eq_true (by omega : 8 * offset ≤ t)]
  · rw [if_neg hoffset, decide_eq_false (by omega : ¬ 8 * offset ≤ t), Bool.false_and, Bool.or_false]

end Bytes
