import YaqtLib.FormattedText

/-! Templates: `QString::arg` replaces the place markers with the lowest number, and `argFrom` puts the text of a
caption into a template this way. A place marker is a percent sign, an optional `L` and one or two digits. -/

namespace YaqtLib

namespace QString

def percent : QChar := 0x25

def one : QChar := 0x31

/-- The digits of a place marker, which may be those of any script. -/
structure DigitTable where
  digitValue : QChar → Option Nat
  digitValue_one : digitValue one = some 1

/-- The digits of ASCII alone. -/
def asciiDigits : DigitTable where
  digitValue := fun c => if 0x30 ≤ c ∧ c ≤ 0x39 then some (c.toNat - 0x30) else none
  digitValue_one := by decide

/-- The number of a place marker from its digits on, and how many digits it has. -/
def escapeNumber (digits : DigitTable) : QString → Option (Nat × Nat)
  | [] => none
  | c :: text =>
      (digits.digitValue c).map fun escape =>
        match text.head?.bind digits.digitValue with
        | some nextEscape => (10 * escape + nextEscape, 2)
        | none => (escape, 1)

/-- A place marker at the start of a text: its number and its length. -/
def escapeAt (digits : DigitTable) : QString → Option (Nat × Nat)
  | [] => none
  | c :: text =>
      if c ≠ percent then none
      else if text.head? = some 0x4C then
        (escapeNumber digits text.tail).map fun (escape, length) => (escape, length + 2)
      else (escapeNumber digits text).map fun (escape, length) => (escape, length + 1)

/-- A template consists of units and of place markers. -/
inductive Piece where
  | unit (c : QChar)
  | place (escape : Nat) (marker : QString)
deriving DecidableEq

/-- The pieces of a text, of whose first units some belong to a place marker already. -/
def pieces (digits : DigitTable) : Nat → QString → List Piece
  | _, [] => []
  | skip + 1, _ :: text => pieces digits skip text
  | 0, c :: text =>
      match escapeAt digits (c :: text) with
      | some (escape, length) =>
          .place escape ((c :: text).take length) :: pieces digits (length - 1) text
      | none => .unit c :: pieces digits 0 text

/-- The lowest number of a place marker. -/
def minEscape : List Piece → Option Nat
  | [] => none
  | .unit _ :: rest => minEscape rest
  | .place escape _ :: rest => some (match minEscape rest with | some n => min escape n | none => escape)

/-- The text of a piece where the place markers with a number stand for another text. -/
def Piece.fill (escape : Option Nat) (a : QString) : Piece → QString
  | .unit c => [c]
  | .place n marker => if escape = some n then a else marker

/-- `QString::arg`; a text without place markers stays. -/
def arg (digits : DigitTable) (text a : QString) : QString :=
  (pieces digits 0 text).flatMap (Piece.fill (minEscape (pieces digits 0 text)) a)

/-- The template has one place marker, between two texts. -/
def OneMarker (digits : DigitTable) (template pre post : QString) : Prop :=
  ∃ escape marker, pieces digits 0 template = pre.map .unit ++ .place escape marker :: post.map .unit

variable {digits : DigitTable}

theorem minEscape_unit (text : QString) (rest : List Piece) : minEscape (text.map .unit ++ rest) = minEscape rest := by
  induction text with
  | nil => rfl
  | cons c text ih => rw [List.map_cons, List.cons_append, minEscape, ih]

theorem fill_unit (escape : Option Nat) (a text : QString) :
    (text.map Piece.unit).flatMap (Piece.fill escape a) = text := by
  induction text with
  | nil => rfl
  | cons c text ih => rw [List.map_cons, List.flatMap_cons, ih, Piece.fill, List.singleton_append]

/-- What is put into a template replaces its one place marker. -/
theorem arg_of_oneMarker {template pre post : QString} (h : OneMarker digits template pre post) (a : QString) :
    arg digits template a = pre ++ a ++ post := by
  obtain ⟨escape, marker, hpieces⟩ := h
  have hmin : minEscape (pieces digits 0 template) = some escape := by
    have hpost := minEscape_unit post []
    rw [List.append_nil] at hpost
    rw [hpieces, minEscape_unit, minEscape, hpost]
    rfl
  rw [arg, hmin, hpieces, List.flatMap_append, List.flatMap_cons, fill_unit, fill_unit, Piece.fill, if_pos rfl,
    List.append_assoc]

/-- The text that the pieces were read from. -/
def Piece.text : Piece → QString
  | .unit c => [c]
  | .place _ marker => marker

theorem one_le_of_escapeAt {text : QString} {escape length : Nat} (h : escapeAt digits text = some (escape, length)) :
    1 ≤ length := by
  cases text with
  | nil => cases h
  | cons c text =>
      rw [escapeAt] at h
      split_ifs at h with hc hlocale
      · obtain ⟨⟨n, len⟩, -, heq⟩ := Option.map_eq_some_iff.mp h
        rw [Prod.mk.injEq] at heq
        omega
      · obtain ⟨⟨n, len⟩, -, heq⟩ := Option.map_eq_some_iff.mp h
        rw [Prod.mk.injEq] at heq
        omega

theorem flatMap_pieces (skip : Nat) (text : QString) : (pieces digits skip text).flatMap Piece.text = text.drop skip := by
  induction text generalizing skip with
  | nil => rw [pieces, List.flatMap_nil, List.drop_nil]
  | cons c text ih =>
      cases skip with
      | succ skip => rw [pieces, ih, List.drop_succ_cons]
      | zero =>
          rw [pieces]
          split
          · rename_i escape length hescape
            obtain ⟨k, rfl⟩ := Nat.exists_eq_add_of_le (one_le_of_escapeAt hescape)
            rw [List.flatMap_cons, ih, Piece.text, Nat.add_sub_cancel_left, Nat.add_comm, List.take_succ_cons,
              List.cons_append, List.take_append_drop, List.drop_zero]
          · rw [List.flatMap_cons, ih, Piece.text, List.drop_zero, List.drop_zero, List.singleton_append]

/-- The template is its two texts around the place marker. -/
theorem template_of_oneMarker {template pre post : QString} (h : OneMarker digits template pre post) :
    ∃ marker, template = pre ++ marker ++ post := by
  obtain ⟨escape, marker, hpieces⟩ := h
  have hunits (text : QString) : (text.map Piece.unit).flatMap Piece.text = text := by
    induction text with
    | nil => rfl
    | cons c text ih => rw [List.map_cons, List.flatMap_cons, ih, Piece.text, List.singleton_append]
  have htext := @flatMap_pieces digits 0 template
  rw [hpieces, List.flatMap_append, List.flatMap_cons, hunits, hunits, List.drop_zero] at htext
  exact ⟨marker, by rw [← htext, List.append_assoc]; rfl⟩

/-- A percent sign and the digit one make a place marker. -/
theorem escapeAt_percent_one (text : QString) : escapeAt digits (percent :: one :: text) ≠ none := by
  have hhead : (one :: text).head? ≠ some 0x4C := by
    rw [List.head?_cons]
    decide
  rw [escapeAt, if_neg (not_not_intro rfl), if_neg hhead, escapeNumber, digits.digitValue_one]
  exact nofun

/-- The first unit of a text is a piece of its own where a unit comes first. -/
theorem exists_cons_of_pieces {text : QString} {c : QChar} {rest : List Piece}
    (h : pieces digits 0 text = .unit c :: rest) :
    ∃ text', text = c :: text' ∧ escapeAt digits text = none ∧ pieces digits 0 text' = rest := by
  cases text with
  | nil => cases h
  | cons d text =>
      rw [pieces] at h
      split at h
      · cases h
      · rename_i hescape
        obtain ⟨hd, hrest⟩ := List.cons.inj h
        exact ⟨text, by rw [Piece.unit.inj hd], hescape, hrest⟩

/-- The first place marker does not occur further in front than the place it is put into. -/
theorem indexOf?_of_units {template pre : QString} {rest : List Piece}
    (h : pieces digits 0 template = pre.map .unit ++ rest) (post : QString) :
    indexOf? [percent, one] (pre ++ ([percent, one] ++ post)) = some pre.length := by
  induction pre generalizing template with
  | nil => rfl
  | cons c pre ih =>
      obtain ⟨text, rfl, hescape, hrest⟩ := exists_cons_of_pieces h
      have hstarts : ¬ [percent, one].isPrefixOf (c :: (pre ++ ([percent, one] ++ post))) = true := by
        rw [List.isPrefixOf_iff_prefix, List.cons_prefix_cons]
        rintro ⟨rfl, hone⟩
        cases pre with
        | nil => exact absurd (List.cons_prefix_cons.mp hone).1 (by decide)
        | cons d pre =>
            obtain ⟨text', rfl, -, -⟩ := exists_cons_of_pieces hrest
            obtain rfl : one = d := (List.cons_prefix_cons.mp hone).1
            exact escapeAt_percent_one text' hescape
      rw [List.cons_append, indexOf?, if_neg hstarts, ih hrest, Option.map_some, List.length_cons]

theorem indexOf_arg_of_oneMarker {template pre post : QString} (h : OneMarker digits template pre post) :
    (arg digits template [percent, one]).indexOf [percent, one] = pre.length := by
  obtain ⟨escape, marker, hpieces⟩ := h
  rw [arg_of_oneMarker ⟨escape, marker, hpieces⟩, indexOf, List.append_assoc, indexOf?_of_units hpieces]

end QString

namespace FormattedText

open QString

/-- The text of the caption is put into the template; the entities are moved only when the text is parsed. -/
def argFrom (digits : DigitTable) (F : FormattedText) (text : QString) : FormattedText :=
  { F with
    plainText := arg digits text F.plainText
    prefixOffset := F.prefixOffset + (arg digits text (ofString "%1")).indexOf (ofString "%1") }

theorem argFrom_of_oneMarker {digits : DigitTable} {template pre post : QString}
    (h : OneMarker digits template pre post) (F : FormattedText) :
    F.argFrom digits template =
      { F with plainText := pre ++ F.plainText ++ post, prefixOffset := F.prefixOffset + pre.length } := by
  have hmarker : ofString "%1" = [percent, one] := rfl
  rw [argFrom, arg_of_oneMarker h, hmarker, indexOf_arg_of_oneMarker h]

end FormattedText

end YaqtLib
