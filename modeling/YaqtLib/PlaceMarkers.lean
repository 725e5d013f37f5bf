import YaqtLib.TextTemplates

/-! Templates that are filled twice. What is put in first may hold place markers of its own, and the second `arg` reads
them with the one that is left: they are spared only if all of them have higher numbers, or are written as the second
text is. -/

namespace YaqtLib

namespace QString

/-- The digits of any script; of the units of ASCII only the ten digits are digits. -/
structure UnicodeDigits extends DigitTable where
  digitValue_ascii : ∀ c < 0x80, digitValue c = asciiDigits.digitValue c

def two : QChar := 0x32

def localeMark : QChar := 0x4C

variable {digits : UnicodeDigits}

theorem digitValue_two : digits.digitValue two = some 2 := (digits.digitValue_ascii two (by decide)).trans (by decide)

theorem digitValue_percent : digits.digitValue percent = none :=
  (digits.digitValue_ascii percent (by decide)).trans (by decide)

/-- The text does not go on with the place marker that another one ends with. -/
def Stops (digits : DigitTable) (text : QString) : Prop :=
  ∀ c, text.head? = some c → digits.digitValue c = none ∧ c ≠ localeMark

theorem escapeNumber_append {text rest : QString} (hstops : Stops digits.toDigitTable rest) :
    escapeNumber digits.toDigitTable (text ++ rest) = escapeNumber digits.toDigitTable text := by
  have hhead : rest.head?.bind digits.digitValue = none := by
    cases hrest : rest.head? with
    | none => rfl
    | some c => exact (hstops c hrest).1
  match text with
  | [] =>
      rw [List.nil_append]
      cases rest with
      | nil => rfl
      | cons c rest =>
          have hc : digits.digitValue c = none := (hstops c rfl).1
          simp only [escapeNumber, hc, Option.map_none]
  | [c] => rw [List.singleton_append, escapeNumber, escapeNumber, hhead, List.head?_nil, Option.bind_none]
  | c :: d :: text => rfl

theorem escapeAt_append {text rest : QString} (hstops : Stops digits.toDigitTable rest) (hne : text ≠ []) :
    escapeAt digits.toDigitTable (text ++ rest) = escapeAt digits.toDigitTable text := by
  match text, hne with
  | [c], _ =>
      have hhead : ¬ rest.head? = some 0x4C := fun h => (hstops _ h).2 rfl
      have hnumber := @escapeNumber_append digits [] rest hstops
      rw [List.nil_append] at hnumber
      rw [List.singleton_append, escapeAt, escapeAt, if_neg hhead, hnumber]
      rfl
  | c :: d :: text, _ =>
      have hlocale := @escapeNumber_append digits text rest hstops
      have hnumber := @escapeNumber_append digits (d :: text) rest hstops
      rw [List.cons_append, List.cons_append, escapeAt, escapeAt, List.head?_cons, List.head?_cons, List.tail_cons,
        List.tail_cons, hlocale, ← List.cons_append, hnumber]

theorem length_le_of_escapeNumber {text : QString} {n length : Nat}
    (h : escapeNumber digits.toDigitTable text = some (n, length)) : length ≤ text.length := by
  match text with
  | [] => cases h
  | [c] =>
      rw [escapeNumber, List.head?_nil, Option.bind_none] at h
      obtain ⟨value, -, heq⟩ := Option.map_eq_some_iff.mp h
      rw [← (Prod.mk.inj heq).2]
      exact Nat.le_refl 1
  | c :: d :: text =>
      obtain ⟨value, -, heq⟩ := Option.map_eq_some_iff.mp h
      rw [List.length_cons, List.length_cons]
      split at heq
      · rw [← (Prod.mk.inj heq).2]
        omega
      · rw [← (Prod.mk.inj heq).2]
        omega

/-- What a place marker consists of: a percent sign, perhaps the mark of the locale, and one or two digits. -/
theorem marker_of_escapeAt {text : QString} {n length : Nat}
    (h : escapeAt digits.toDigitTable text = some (n, length)) :
    length ≤ text.length ∧ ∃ tail, text.take length = percent :: tail ∧ percent ∉ tail ∧ (two ∈ tail → 2 ≤ n) := by
  have hnumber {text : QString} {n length : Nat} (h : escapeNumber digits.toDigitTable text = some (n, length)) :
      percent ∉ text.take length ∧ (two ∈ text.take length → 2 ≤ n) := by
    have hdigit {c : QChar} {value : Nat} (hvalue : digits.digitValue c = some value) :
        percent ≠ c ∧ (two = c → value = 2) := by
      refine ⟨fun hc => ?_, fun hc => ?_⟩
      · rw [← hc, digitValue_percent] at hvalue
        cases hvalue
      · rw [← hc, digitValue_two] at hvalue
        exact (Option.some.inj hvalue).symm
    cases text with
    | nil => cases h
    | cons c text =>
        obtain ⟨value, hvalue, heq⟩ := Option.map_eq_some_iff.mp h
        have hc := hdigit hvalue
        split at heq
        · rename_i next hnext
          cases text with
          | nil => cases hnext
          | cons d text =>
              have hd := hdigit hnext
              obtain ⟨rfl, rfl⟩ := Prod.mk.inj heq
              simp only [List.take_succ_cons, List.take_zero, List.mem_cons, List.not_mem_nil, or_false, not_or]
              refine ⟨⟨hc.1, hd.1⟩, ?_⟩
              rintro (htwo | htwo)
              · rw [hc.2 htwo]
                omega
              · rw [hd.2 htwo]
                omega
        · obtain ⟨rfl, rfl⟩ := Prod.mk.inj heq
          rw [List.take_succ_cons, List.take_zero, List.mem_singleton, List.mem_singleton]
          exact ⟨hc.1, fun htwo => (hc.2 htwo).ge⟩
  cases text with
  | nil => cases h
  | cons c text =>
      rw [escapeAt] at h
      split_ifs at h with hc hlocale
      · obtain ⟨⟨n', length'⟩, hescape, heq⟩ := Option.map_eq_some_iff.mp h
        obtain ⟨rfl, rfl⟩ := Prod.mk.inj heq
        cases text with
        | nil => cases hlocale
        | cons d text =>
            obtain rfl : d = localeMark := Option.some.inj hlocale
            have hlength := length_le_of_escapeNumber hescape
            obtain ⟨hpercent, htwo⟩ := hnumber hescape
            rw [List.tail_cons] at hlength hpercent htwo
            refine ⟨by rw [List.length_cons, List.length_cons]; omega, localeMark :: text.take length', ?_, ?_, ?_⟩
            · rw [not_not.mp hc, List.take_succ_cons, List.take_succ_cons]
            · rw [List.mem_cons, not_or]
              exact ⟨by decide, hpercent⟩
            · intro hmem
              rcases List.mem_cons.mp hmem with hmark | hmem
              · exact absurd hmark (by decide)
              · exact htwo hmem
      · obtain ⟨⟨n', length'⟩, hescape, heq⟩ := Option.map_eq_some_iff.mp h
        obtain ⟨rfl, rfl⟩ := Prod.mk.inj heq
        have hlength := length_le_of_escapeNumber hescape
        obtain ⟨hpercent, htwo⟩ := hnumber hescape
        exact ⟨Nat.succ_le_succ hlength, text.take length', by rw [not_not.mp hc, List.take_succ_cons], hpercent, htwo⟩

/-- The markers among the pieces of a text. -/
theorem marker_of_mem_pieces {skip : Nat} {text : QString} {n : Nat} {marker : QString}
    (h : .place n marker ∈ pieces digits.toDigitTable skip text) :
    ∃ tail, marker = percent :: tail ∧ percent ∉ tail ∧ (two ∈ tail → 2 ≤ n) := by
  induction text generalizing skip with
  | nil =>
      rw [pieces] at h
      exact absurd h List.not_mem_nil
  | cons c text ih =>
      cases skip with
      | succ skip =>
          rw [pieces] at h
          exact ih h
      | zero =>
          rw [pieces] at h
          split at h
          · rename_i escape length hescape
            rcases List.mem_cons.mp h with heq | hrest
            · obtain ⟨rfl, rfl⟩ := Piece.place.inj heq
              exact (marker_of_escapeAt hescape).2
            · exact ih hrest
          · rcases List.mem_cons.mp h with heq | hrest
            · cases heq
            · exact ih hrest

/-- Where a text stops, the pieces of the whole are those of its parts. -/
theorem pieces_append {rest : QString} (hstops : Stops digits.toDigitTable rest) {skip : Nat} {text : QString}
    (hskip : skip ≤ text.length) :
    pieces digits.toDigitTable skip (text ++ rest) =
      pieces digits.toDigitTable skip text ++ pieces digits.toDigitTable 0 rest := by
  induction text generalizing skip with
  | nil =>
      rw [Nat.le_zero.mp hskip, List.nil_append, pieces, List.nil_append]
  | cons c text ih =>
      cases skip with
      | succ skip =>
          rw [List.cons_append, pieces, pieces]
          exact ih (Nat.le_of_succ_le_succ hskip)
      | zero =>
          have happend := @escapeAt_append digits (c :: text) rest hstops (List.cons_ne_nil c text)
          rw [List.cons_append] at happend
          rw [List.cons_append, pieces, pieces, happend]
          cases hescape : escapeAt digits.toDigitTable (c :: text) with
          | none => exact congrArg _ (ih (Nat.zero_le _))
          | some place =>
              obtain ⟨n, length⟩ := place
              have hlength := (marker_of_escapeAt hescape).1
              have hone := one_le_of_escapeAt hescape
              have hmarker : (c :: (text ++ rest)).take length = (c :: text).take length := by
                rw [← List.cons_append, List.take_append_of_le_length hlength]
              rw [List.length_cons] at hlength
              simp only [hmarker, ih (show length - 1 ≤ text.length by omega), List.cons_append]

theorem pieces_append_of_no_percent {text : QString} (h : percent ∉ text) (rest : QString) :
    pieces digits.toDigitTable 0 (text ++ rest) = text.map .unit ++ pieces digits.toDigitTable 0 rest := by
  induction text with
  | nil => rfl
  | cons c text ih =>
      obtain ⟨hc, htext⟩ := not_or.mp (mt List.mem_cons.mpr h)
      rw [List.cons_append, pieces, escapeAt, if_pos (Ne.symm hc), ih htext, List.map_cons, List.cons_append]

theorem pieces_of_no_percent {text : QString} (h : percent ∉ text) : pieces digits.toDigitTable 0 text = text.map .unit := by
  have happend := @pieces_append_of_no_percent digits text h []
  rw [List.append_nil, pieces, List.append_nil] at happend
  exact happend

/-- Whether a piece is a place marker with the number. -/
def Piece.hasNumber (n : Nat) : Piece → Bool
  | .unit _ => false
  | .place escape _ => escape = n

theorem countP_pos_of_mem {n : Nat} {marker : QString} {l : List Piece} (h : .place n marker ∈ l) :
    0 < l.countP (Piece.hasNumber n) :=
  List.countP_pos_iff.mpr ⟨_, h, by rw [Piece.hasNumber, decide_eq_true rfl]⟩

theorem minEscape_eq_none_iff {l : List Piece} : minEscape l = none ↔ ∀ n marker, .place n marker ∉ l := by
  induction l with
  | nil => exact ⟨fun _ _ _ => List.not_mem_nil, fun _ => rfl⟩
  | cons piece l ih =>
      cases piece with
      | unit c =>
          rw [minEscape, ih]
          simp only [List.mem_cons, reduceCtorEq, false_or]
      | place n marker =>
          rw [minEscape]
          exact ⟨by rintro ⟨⟩, fun h => absurd List.mem_cons_self (h n marker)⟩

/-- The number of the place markers that are filled. -/
theorem of_minEscape_eq_some {l : List Piece} {m : Nat} (h : minEscape l = some m) :
    (∃ marker, .place m marker ∈ l) ∧ ∀ n marker, .place n marker ∈ l → m ≤ n := by
  induction l generalizing m with
  | nil => cases h
  | cons piece l ih =>
      cases piece with
      | unit c =>
          obtain ⟨⟨marker, hmem⟩, hle⟩ := ih h
          refine ⟨⟨marker, List.mem_cons_of_mem _ hmem⟩, fun n marker hmem => ?_⟩
          rcases List.mem_cons.mp hmem with heq | hmem
          · cases heq
          · exact hle n marker hmem
      | place escape marker =>
          rw [minEscape] at h
          cases hrest : minEscape l with
          | none =>
              rw [hrest] at h
              obtain rfl := Option.some.inj h
              refine ⟨⟨marker, List.mem_cons_self⟩, fun n marker' hmem => ?_⟩
              rcases List.mem_cons.mp hmem with heq | hmem
              · exact (Piece.place.inj heq).1.ge
              · exact absurd hmem (minEscape_eq_none_iff.mp hrest n marker')
          | some n =>
              rw [hrest] at h
              obtain rfl : min escape n = m := Option.some.inj h
              obtain ⟨⟨marker', hmem'⟩, hle⟩ := ih hrest
              refine ⟨?_, fun k marker'' hmem => ?_⟩
              · by_cases hlt : escape ≤ n
                · exact ⟨marker, by rw [Nat.min_eq_left hlt]; exact List.mem_cons_self⟩
                · exact ⟨marker', by rw [Nat.min_eq_right (Nat.le_of_not_le hlt)]; exact List.mem_cons_of_mem _ hmem'⟩
              · rcases List.mem_cons.mp hmem with heq | hmem
                · rw [(Piece.place.inj heq).1]
                  exact Nat.min_le_left _ _
                · exact (Nat.min_le_right _ _).trans (hle k marker'' hmem)

/-! ### What filling changes -/

section Fill

variable {m : Nat} {c : QString} {l : List Piece}

/-- How often a unit occurs, where each of the markers that are filled has it equally often. -/
theorem count_fill {a : QChar} {r : Nat} (h : ∀ marker, .place m marker ∈ l → marker.count a = r) :
    (l.flatMap (Piece.fill (some m) c)).count a + l.countP (Piece.hasNumber m) * r =
      (l.flatMap Piece.text).count a + l.countP (Piece.hasNumber m) * c.count a := by
  induction l with
  | nil => rw [List.countP_nil, Nat.zero_mul, Nat.zero_mul, List.flatMap_nil, List.flatMap_nil]
  | cons piece l ih =>
      have hl := ih fun marker hmem => h marker (List.mem_cons_of_mem _ hmem)
      rw [List.flatMap_cons, List.flatMap_cons, List.count_append, List.count_append]
      cases piece with
      | unit d =>
          rw [List.countP_cons_of_neg (by rw [Piece.hasNumber]; exact nofun), Piece.fill, Piece.text]
          omega
      | place n marker =>
          by_cases hn : n = m
          · subst hn
            have hmarker := h marker List.mem_cons_self
            rw [List.countP_cons_of_pos (by rw [Piece.hasNumber, decide_eq_true rfl]), Piece.fill, if_pos rfl, Piece.text,
              hmarker, Nat.add_mul, Nat.add_mul, Nat.one_mul, Nat.one_mul]
            omega
          · have hfill : some m ≠ some n := fun heq => hn (Option.some.inj heq).symm
            rw [List.countP_cons_of_neg (by rw [Piece.hasNumber, decide_eq_true_eq]; exact hn), Piece.fill, if_neg hfill,
              Piece.text]
            omega

/-- Filling leaves the text only if what is put in starts as a marker does. -/
theorem head_of_fill (hmarkers : ∀ n marker, .place n marker ∈ l → ∃ tail, marker = percent :: tail)
    (hfill : l.flatMap (Piece.fill (some m) c) = l.flatMap Piece.text) (hmem : ∃ marker, .place m marker ∈ l) :
    c = [] ∨ c.head? = some percent := by
  induction l with
  | nil => exact absurd hmem.choose_spec List.not_mem_nil
  | cons piece l ih =>
      have hrest : ∀ n marker, .place n marker ∈ l → ∃ tail, marker = percent :: tail :=
        fun n marker hmem => hmarkers n marker (List.mem_cons_of_mem _ hmem)
      rw [List.flatMap_cons, List.flatMap_cons] at hfill
      cases piece with
      | unit d =>
          obtain ⟨marker, hmem⟩ := hmem
          rcases List.mem_cons.mp hmem with heq | hmem
          · cases heq
          · exact ih hrest (List.append_cancel_left hfill) ⟨marker, hmem⟩
      | place n marker =>
          rw [Piece.fill, Piece.text] at hfill
          split_ifs at hfill with hn
          · obtain ⟨tail, rfl⟩ := hmarkers n marker List.mem_cons_self
            cases c with
            | nil => exact Or.inl rfl
            | cons d c =>
                rw [List.cons_append, List.cons_append] at hfill
                exact Or.inr (congrArg some (List.cons.inj hfill).1)
          · obtain ⟨marker', hmem⟩ := hmem
            rcases List.mem_cons.mp hmem with heq | hmem
            · exact absurd (congrArg some (Piece.place.inj heq).1) hn
            · exact ih hrest (List.append_cancel_left hfill) ⟨marker', hmem⟩

/-- Two texts without percent signs in front of one. -/
theorem eq_of_append_percent {x y rest rest' : QString} (hx : percent ∉ x) (hy : percent ∉ y)
    (h : x ++ percent :: rest = y ++ percent :: rest') : x = y ∧ rest = rest' := by
  induction x generalizing y with
  | nil =>
      cases y with
      | nil => exact ⟨rfl, (List.cons.inj h).2⟩
      | cons d y => exact absurd (List.mem_cons.mpr (Or.inl (List.cons.inj h).1)) hy
  | cons d x ih =>
      cases y with
      | nil => exact absurd (List.mem_cons.mpr (Or.inl (List.cons.inj h).1.symm)) hx
      | cons e y =>
          obtain ⟨rfl, htail⟩ := List.cons.inj h
          obtain ⟨rfl, hrest⟩ := ih (mt (List.mem_cons_of_mem _) hx) (mt (List.mem_cons_of_mem _) hy) htail
          exact ⟨rfl, hrest⟩

/-- Filling leaves the text only if the markers that are filled are written as what is put in. The texts in front are
the ends of the markers before. -/
theorem markers_of_fill {q x y : QString}
    (hmarkers : ∀ n marker, .place n marker ∈ l → ∃ tail, marker = percent :: tail ∧ percent ∉ tail)
    (hq : percent ∉ q) (hx : percent ∉ x) (hy : percent ∉ y)
    (hfill : x ++ l.flatMap (Piece.fill (some m) (percent :: q)) = y ++ l.flatMap Piece.text) :
    x = y ∧ ∀ marker, .place m marker ∈ l → marker = percent :: q := by
  induction l generalizing x y with
  | nil =>
      rw [List.flatMap_nil, List.flatMap_nil, List.append_nil, List.append_nil] at hfill
      exact ⟨hfill, fun marker hmem => absurd hmem List.not_mem_nil⟩
  | cons piece l ih =>
      have hrest : ∀ n marker, .place n marker ∈ l → ∃ tail, marker = percent :: tail ∧ percent ∉ tail :=
        fun n marker hmem => hmarkers n marker (List.mem_cons_of_mem _ hmem)
      rw [List.flatMap_cons, List.flatMap_cons] at hfill
      cases piece with
      | unit d =>
          rw [Piece.fill, Piece.text] at hfill
          have hmem {marker : QString} (hmem : Piece.place m marker ∈ .unit d :: l) : Piece.place m marker ∈ l :=
            (List.mem_cons.mp hmem).resolve_left (by rintro ⟨⟩)
          by_cases hd : d = percent
          · subst hd
            rw [List.singleton_append, List.singleton_append] at hfill
            obtain ⟨rfl, htail⟩ := eq_of_append_percent hx hy hfill
            obtain ⟨-, hspelt⟩ := @ih [] [] hrest List.not_mem_nil List.not_mem_nil htail
            exact ⟨rfl, fun marker h => hspelt marker (hmem h)⟩
          · have hsingle : percent ∉ [d] := fun h => hd (List.mem_singleton.mp h).symm
            rw [← List.append_assoc, ← List.append_assoc] at hfill
            obtain ⟨heq, hspelt⟩ := ih hrest (List.not_mem_append hx hsingle) (List.not_mem_append hy hsingle) hfill
            exact ⟨List.append_cancel_right heq, fun marker h => hspelt marker (hmem h)⟩
      | place n marker =>
          obtain ⟨tail, rfl, htail⟩ := hmarkers n marker List.mem_cons_self
          rw [Piece.fill, Piece.text] at hfill
          split_ifs at hfill with hn
          · obtain rfl := Option.some.inj hn
            rw [List.cons_append, List.cons_append] at hfill
            obtain ⟨rfl, hends⟩ := eq_of_append_percent hx hy hfill
            obtain ⟨rfl, hspelt⟩ := ih hrest hq htail hends
            refine ⟨rfl, fun marker h => ?_⟩
            rcases List.mem_cons.mp h with heq | h
            · exact (Piece.place.inj heq).2
            · exact hspelt marker h
          · rw [List.cons_append] at hfill
            obtain ⟨rfl, hends⟩ := eq_of_append_percent hx hy hfill
            obtain ⟨-, hspelt⟩ := ih hrest htail htail hends
            refine ⟨rfl, fun marker h => ?_⟩
            rcases List.mem_cons.mp h with heq | h
            · exact absurd (congrArg some (Piece.place.inj heq).1) hn
            · exact hspelt marker h

end Fill

/-! ### A text and what follows it -/

/-- A text between two place markers that neither begins nor goes on with one. -/
structure Separator (digits : DigitTable) (separator : QString) : Prop where
  percent : QString.percent ∉ separator
  stops : Stops digits separator
  nonempty : separator ≠ []

theorem Separator.stops_append {separator : QString} (h : Separator digits.toDigitTable separator) (text : QString) :
    Stops digits.toDigitTable (separator ++ text) := by
  intro c hc
  cases separator with
  | nil => exact absurd rfl h.nonempty
  | cons d separator => exact h.stops c hc

/-- The separators of ASCII. -/
theorem separator_of_ascii {separator : QString} {c : QChar} (hhead : separator.head? = some c) (hascii : c < 0x80)
    (hdigit : asciiDigits.digitValue c = none) (hmark : c ≠ localeMark) (hpercent : percent ∉ separator) :
    Separator digits.toDigitTable separator where
  percent := hpercent
  stops := fun d hd => by
    obtain rfl := Option.some.inj (hhead.symm.trans hd)
    exact ⟨(digits.digitValue_ascii c hascii).trans hdigit, hmark⟩
  nonempty := fun hnil => by
    rw [hnil] at hhead
    cases hhead

theorem pieces_first : pieces digits.toDigitTable 0 [percent, one] = [.place 1 [percent, one]] := by
  have hescape : escapeAt digits.toDigitTable [percent, one] = some (1, 2) := by
    have hhead : ¬ [one].head? = some 0x4C := by decide
    rw [escapeAt, if_neg (not_not_intro rfl), if_neg hhead, escapeNumber, digits.digitValue_one]
    rfl
  simp only [pieces, hescape, List.take_succ_cons, List.take_zero]

theorem pieces_second : pieces digits.toDigitTable 0 [percent, two] = [.place 2 [percent, two]] := by
  have hescape : escapeAt digits.toDigitTable [percent, two] = some (2, 2) := by
    have hhead : ¬ [two].head? = some 0x4C := by decide
    rw [escapeAt, if_neg (not_not_intro rfl), if_neg hhead, escapeNumber, digitValue_two]
    rfl
  simp only [pieces, hescape, List.take_succ_cons, List.take_zero]

/-- Which place markers of a text leave it as it is when another text is put in after it. -/
def Spares (digits : DigitTable) (text last : QString) : Prop :=
  ∀ n marker, .place n marker ∈ pieces digits 0 text → n ≤ 2 → n = 2 ∧ marker = last

/-- A text stays as it is just if its markers of number two are written as what is put in for them. -/
theorem fill_two_iff {text last : QString} :
    (pieces digits.toDigitTable 0 text).flatMap (Piece.fill (some 2) last) = text ↔
      ∀ marker, .place 2 marker ∈ pieces digits.toDigitTable 0 text → marker = last := by
  have htext := @flatMap_pieces digits.toDigitTable 0 text
  rw [List.drop_zero] at htext
  constructor
  · intro hwhole marker hmem
    have hfill := hwhole.trans htext.symm
    have hcount := @count_fill 2 last (pieces digits.toDigitTable 0 text) percent 1 fun marker hmem => by
      obtain ⟨tail, rfl, htail, -⟩ := marker_of_mem_pieces hmem
      rw [List.count_cons_self, List.count_eq_zero_of_not_mem htail]
    rw [hfill] at hcount
    have hpos : 0 < (pieces digits.toDigitTable 0 text).countP (Piece.hasNumber 2) :=
      countP_pos_of_mem hmem
    have hone : last.count percent = 1 := (Nat.eq_of_mul_eq_mul_left hpos (by omega)).symm
    have hhead :=
      head_of_fill (fun n marker hmem => (marker_of_mem_pieces hmem).imp fun tail h => h.1) hfill ⟨marker, hmem⟩
    cases last with
    | nil => cases hone
    | cons d q =>
        obtain rfl : d = percent := Option.some.inj (hhead.resolve_left (List.cons_ne_nil d q))
        rw [List.count_cons_self] at hone
        have hq : percent ∉ q := List.count_eq_zero.mp (by omega)
        obtain ⟨-, hspelt⟩ := @markers_of_fill 2 _ q [] []
          (fun n marker hmem => (marker_of_mem_pieces hmem).imp fun tail h => ⟨h.1, h.2.1⟩) hq List.not_mem_nil
          List.not_mem_nil hfill
        exact hspelt marker hmem
  · intro hspelt
    refine (List.flatMap_congr fun piece hmem => ?_).trans htext
    cases piece with
    | unit d => rfl
    | place n marker =>
        rw [Piece.fill, Piece.text]
        split_ifs with hn
        · obtain rfl := Option.some.inj hn
          exact (hspelt marker hmem).symm
        · rfl

/-- Where a marker of a lower number is filled, the second marker stays, and its digit occurs once too often. -/
theorem fill_ne_of_lt {text last first : QString} {m : Nat} (hm : m < 2)
    (hmem : .place m first ∈ pieces digits.toDigitTable 0 text) (separator : QString) :
    (pieces digits.toDigitTable 0 text).flatMap (Piece.fill (some m) last) ++ (separator ++ [percent, two]) ≠
      text ++ (separator ++ last) := by
  intro heq
  have htext := @flatMap_pieces digits.toDigitTable 0 text
  rw [List.drop_zero] at htext
  have hcount := @count_fill m last (pieces digits.toDigitTable 0 text) two 0 fun marker hmem => by
    obtain ⟨tail, rfl, -, htwo⟩ := marker_of_mem_pieces hmem
    rw [List.count_cons_of_ne (by decide)]
    exact List.count_eq_zero_of_not_mem fun h => absurd (htwo h) (Nat.not_le.mpr hm)
  rw [htext] at hcount
  have hpos : 0 < (pieces digits.toDigitTable 0 text).countP (Piece.hasNumber m) :=
    countP_pos_of_mem hmem
  have hmul : last.count two ≤ (pieces digits.toDigitTable 0 text).countP (Piece.hasNumber m) * last.count two :=
    Nat.le_mul_of_pos_left _ hpos
  have hmarker : [percent, two].count two = 1 := by decide
  have hwhole := congrArg (List.count two) heq
  rw [List.count_append, List.count_append, List.count_append, List.count_append, hmarker] at hwhole
  omega

theorem spares_append_iff {text separator rest last : QString} (h : Separator digits.toDigitTable separator) :
    Spares digits.toDigitTable (text ++ (separator ++ rest)) last ↔
      Spares digits.toDigitTable text last ∧ Spares digits.toDigitTable rest last := by
  have hunits (n : Nat) (marker : QString) : .place n marker ∉ separator.map Piece.unit := by
    intro hmem
    obtain ⟨c, -, heq⟩ := List.mem_map.mp hmem
    cases heq
  have hmem (n : Nat) (marker : QString) :
      .place n marker ∈ pieces digits.toDigitTable 0 (text ++ (separator ++ rest)) ↔
        .place n marker ∈ pieces digits.toDigitTable 0 text ∨ .place n marker ∈ pieces digits.toDigitTable 0 rest := by
    rw [pieces_append (h.stops_append rest) (Nat.zero_le _), pieces_append_of_no_percent h.percent, List.mem_append,
      List.mem_append, or_iff_right (hunits n marker)]
  constructor
  · intro hspares
    exact ⟨fun n marker hn => hspares n marker ((hmem n marker).mpr (Or.inl hn)),
      fun n marker hn => hspares n marker ((hmem n marker).mpr (Or.inr hn))⟩
  · intro hspares n marker hn
    rcases (hmem n marker).mp hn with hn | hn
    · exact hspares.1 n marker hn
    · exact hspares.2 n marker hn

section Twice

variable {separator : QString} (hseparator : Separator digits.toDigitTable separator)

include hseparator

theorem pieces_twice (text : QString) :
    pieces digits.toDigitTable 0 (text ++ (separator ++ [percent, two])) =
      pieces digits.toDigitTable 0 text ++ (separator.map .unit ++ [.place 2 [percent, two]]) := by
  have hstops : Stops digits.toDigitTable [percent, two] := by
    intro c hc
    obtain rfl := Option.some.inj hc
    exact ⟨digitValue_percent, by decide⟩
  rw [pieces_append (hseparator.stops_append _) (Nat.zero_le _), pieces_append hstops (Nat.zero_le _),
    pieces_of_no_percent hseparator.percent, pieces_second]

/-- The first text takes the place of the first marker. -/
theorem arg_first (text : QString) :
    arg digits.toDigitTable ([percent, one] ++ (separator ++ [percent, two])) text =
      text ++ (separator ++ [percent, two]) := by
  have hmin : minEscape (separator.map .unit ++ [.place 2 [percent, two]]) = some 2 := minEscape_unit separator _
  rw [arg, pieces_twice hseparator, pieces_first, List.singleton_append, minEscape, hmin, List.flatMap_cons,
    List.flatMap_append, fill_unit]
  rfl

/-- The second text takes the place of the second marker alone just if the first text is spared. -/
theorem arg_second_iff (text last : QString) :
    arg digits.toDigitTable (text ++ (separator ++ [percent, two])) last = text ++ (separator ++ last) ↔
      Spares digits.toDigitTable text last := by
  rw [arg, pieces_twice hseparator]
  have hlast : .place 2 [percent, two] ∈ pieces digits.toDigitTable 0 text ++
      (separator.map .unit ++ [.place 2 [percent, two]]) :=
    List.mem_append_right _ (List.mem_append_right _ List.mem_cons_self)
  obtain ⟨m, hmin⟩ : ∃ m, minEscape (pieces digits.toDigitTable 0 text ++
      (separator.map .unit ++ [.place 2 [percent, two]])) = some m :=
    Option.ne_none_iff_exists'.mp fun hnone => minEscape_eq_none_iff.mp hnone 2 [percent, two] hlast
  obtain ⟨⟨first, hfirst⟩, hle⟩ := of_minEscape_eq_some hmin
  have hle_two : m ≤ 2 := hle 2 [percent, two] hlast
  rw [hmin, List.flatMap_append, List.flatMap_append, fill_unit, List.flatMap_singleton]
  by_cases hm : m = 2
  · subst hm
    rw [Piece.fill, if_pos rfl, List.append_cancel_right_eq, fill_two_iff]
    constructor
    · intro hspelt n marker hmem hn
      obtain rfl : n = 2 := Nat.le_antisymm hn (hle n marker (List.mem_append_left _ hmem))
      exact ⟨rfl, hspelt marker hmem⟩
    · intro hspares marker hmem
      exact (hspares 2 marker hmem (Nat.le_refl 2)).2
  · have hmem : .place m first ∈ pieces digits.toDigitTable 0 text := by
      rcases List.mem_append.mp hfirst with hmem | hmem
      · exact hmem
      · rcases List.mem_append.mp hmem with hmem | hmem
        · obtain ⟨d, -, heq⟩ := List.mem_map.mp hmem
          cases heq
        · exact absurd (Piece.place.inj (List.mem_singleton.mp hmem)).1 hm
    have hfill : some m ≠ some 2 := fun heq => hm (Option.some.inj heq)
    rw [Piece.fill, if_neg hfill]
    constructor
    · intro heq
      exact absurd heq (fill_ne_of_lt (Nat.lt_of_le_of_ne hle_two hm) hmem separator)
    · intro hspares
      exact absurd (hspares m first hmem hle_two).1 hm

end Twice

end QString

end YaqtLib
