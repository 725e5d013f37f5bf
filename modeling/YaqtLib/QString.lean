import YaqtLib.QVariant
import YaqtLib.Splices

/-! Texts as Qt holds them, as lists of UTF-16 units: an offset into a text counts units, so it may fall between the
two halves of a surrogate pair. -/

namespace YaqtLib

abbrev QChar := UInt16

abbrev QString := List QChar

namespace QString

/-- The units of a character: two for one beyond the basic plane. -/
def unitsOf (c : Char) : List QChar :=
  let n := c.toNat
  if n < 0x10000 then [n.toUInt16]
  else [(0xD800 + (n - 0x10000) / 0x400).toUInt16, (0xDC00 + (n - 0x10000) % 0x400).toUInt16]

def ofString (s : String) : QString := s.toList.flatMap unitsOf

def lt : QChar := 0x3C
def gt : QChar := 0x3E
def amp : QChar := 0x26
def quot : QChar := 0x22
def cr : QChar := 0x0D
def lf : QChar := 0x0A

/-- `QString::toHtmlEscaped` of one unit. -/
def escape (c : QChar) : QString :=
  if c = lt then ofString "&lt;"
  else if c = gt then ofString "&gt;"
  else if c = amp then ofString "&amp;"
  else if c = quot then ofString "&quot;"
  else [c]

def toHtmlEscaped (text : QString) : QString := text.flatMap escape

def HTML_BR_TAG : QString := ofString "<br>"

/-- `replace(RAW_NEW_LINE_RE, HTML_BR_TAG)`; the expression is `\r?\n`. -/
def breakLines : QString → QString
  | [] => []
  | [c] => if c = lf then HTML_BR_TAG else [c]
  | c :: d :: text =>
      if c = cr ∧ d = lf then HTML_BR_TAG ++ breakLines text
      else if c = lf then HTML_BR_TAG ++ breakLines (d :: text)
      else c :: breakLines (d :: text)

def startsWith (text beginning : QString) : Bool := beginning.isPrefixOf text

/-- The place of the first occurrence. -/
def indexOf? (pattern : QString) : QString → Option Nat
  | [] => if pattern = [] then some 0 else none
  | c :: text => if pattern.isPrefixOf (c :: text) then some 0 else (indexOf? pattern text).map (· + 1)

def indexOf (text pattern : QString) : Int :=
  match indexOf? pattern text with
  | some place => place
  | none => -1

/-- `QString::mid`: a length below zero means all the rest. -/
def mid (text : QString) (position : Int) (length : Int := -1) : QString :=
  if (text.length : Int) < position then []
  else if position < 0 then
    if length < 0 ∨ text.length ≤ length + position then text else text.take (length + position).toNat
  else if length < 0 then text.drop position.toNat
  else (text.drop position.toNat).take length.toNat

def replace (text : QString) (position length : Int) (after : QString) : QString :=
  Splices.replace text position length after

def repeated (text : QString) (times : Int) : QString := (List.replicate times.toNat text).flatten

def number (n : Int) : QString := ofString (toString n)

/-- A number is written with digits and perhaps a minus sign. -/
theorem bounds_of_mem_toString {n : Int} {c : Char} (hc : c ∈ (toString n).toList) :
    0x2D ≤ c.toNat ∧ c.toNat ≤ 0x39 := by
  have hdigits (m : Nat) : ∀ c ∈ Nat.toDigits 10 m, 0x2D ≤ c.toNat ∧ c.toNat ≤ 0x39 := by
    intro c hc
    have hdigit := Nat.isDigit_of_mem_toDigits (by decide) (by decide) hc
    have hbounds : '0'.toNat ≤ c.toNat ∧ c.toNat ≤ '9'.toNat := by
      simpa [Char.isDigit, UInt32.le_iff_toNat_le] using hdigit
    exact ⟨(by decide : 0x2D ≤ '0'.toNat).trans hbounds.1, hbounds.2⟩
  rcases n with m | m
  · have htext : toString (Int.ofNat m) = String.ofList (Nat.toDigits 10 m) := rfl
    rw [htext, String.toList_ofList] at hc
    exact hdigits m c hc
  · have htext : toString (Int.negSucc m) = "-" ++ String.ofList (Nat.toDigits 10 (m + 1)) := rfl
    have hlist : (toString (Int.negSucc m)).toList = '-' :: Nat.toDigits 10 (m + 1) := by
      rw [htext, String.toList_append, @String.toList_ofList (Nat.toDigits 10 (m + 1))]
      rfl
    rw [hlist] at hc
    rcases List.mem_cons.mp hc with rfl | hc
    · decide
    · exact hdigits _ c hc

theorem bounds_of_mem_number {n : Int} {u : QChar} (hu : u ∈ number n) : 0x2D ≤ u.toNat ∧ u.toNat ≤ 0x39 := by
  obtain ⟨c, hc, hu⟩ := List.mem_flatMap.mp hu
  obtain ⟨hlow, hhigh⟩ := bounds_of_mem_toString hc
  have hone : unitsOf c = [c.toNat.toUInt16] := by
    rw [unitsOf]
    exact if_pos (by omega)
  rw [hone, List.mem_singleton] at hu
  have hnat : u.toNat = c.toNat := by
    rw [hu, Nat.toUInt16, UInt16.toNat_ofNat_of_lt' (hhigh.trans_lt (by decide))]
  rw [hnat]
  exact ⟨hlow, hhigh⟩

/-- `QString::toLongLong`; half of a surrogate pair is no digit. -/
def toLongLong (text : QString) : Int := stringToLongLong (String.ofList (text.map fun c => Char.ofNat c.toNat))

end QString

namespace FormattedText

def getPlainEscapedFor (text : QString) : QString := QString.breakLines (QString.toHtmlEscaped text)

end FormattedText

end YaqtLib
