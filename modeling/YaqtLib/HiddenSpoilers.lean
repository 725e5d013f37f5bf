import YaqtLib.ParsedText

/-! Hidden spoilers. The replacement of a spoiler takes out as many units as it hides, but the escapes of hidden units
are made like all others: those at the end of the hidden part before the replacement, which then takes out only some
of their units, and the others after it, at the places of units that are no longer there. So the parsed text tells which
hidden units are special; it tells no more than that and what the links of other entities read. -/

namespace YaqtLib

open QString Splices

namespace FormattedText

/-- Two texts of one length that differ at most in a range. -/
structure AgreeOutside (offset length : Int) (text text' : QString) : Prop where
  length_eq : text.length = text'.length
  getElem?_eq : ∀ i : Nat, (i : Int) < offset ∨ offset + length ≤ i → text[i]? = text'[i]?

/-- The same comes out for all texts that differ at most in the range, with and without escapes. -/
def RevealsNothing (S : StdSort) (entities : List PositionedFormattedTextEntity) (offset length : Int)
    (text : QString) : Prop :=
  ∀ text', AgreeOutside offset length text text' →
    ∀ escape, (ofText text entities).parse S escape = (ofText text' entities).parse S escape

/-- A unit of the text lies in the range. -/
def Covers (offset length : Int) (text : QString) : Prop :=
  ∃ i : Nat, i < text.length ∧ offset ≤ i ∧ i < offset + length

variable {entities : List PositionedFormattedTextEntity} {text text' : QString}

theorem AgreeOutside.eq_of_not_covers {offset length : Int} (h : AgreeOutside offset length text text')
    (hcovers : ¬ Covers offset length text) : text = text' := by
  refine List.ext_getElem? fun i => ?_
  by_cases hi : i < text.length
  · refine h.getElem?_eq i ?_
    by_contra hin
    exact hcovers ⟨i, hi, by omega, by omega⟩
  · rw [List.getElem?_eq_none (by omega), List.getElem?_eq_none (by rw [← h.length_eq]; omega)]

/-- The tags of an unrevealed spoiler. -/
theorem tags_ne_nil_of_unrevealed {entity : PositionedFormattedTextEntity} (htype : entity.type = .spoiler)
    (hdata : entity.typeData.toBool = false) (fullText : QString) (index : Nat) :
    ¬ ((entity.getHtmlTags fullText index).1 = [] ∧ (entity.getHtmlTags fullText index).2 = []) := by
  have htags : (entity.getHtmlTags fullText index).2 = PositionedFormattedTextEntity.A_TAG_END := by
    rw [PositionedFormattedTextEntity.getHtmlTags, htype, hdata]
    rfl
  rw [htags]
  exact fun hnil => absurd hnil.2 (by decide)

theorem entitiesInsertions_ne_nil_of_unrevealed {entity : PositionedFormattedTextEntity} (hmem : entity ∈ entities)
    (htype : entity.type = .spoiler) (hdata : entity.typeData.toBool = false) :
    (ofText text entities).entitiesInsertions ≠ [] := by
  obtain ⟨i, hget⟩ := List.getElem?_of_mem hmem
  have hin : ⟨entity.offset, (entity.getHtmlTags text i).1, 0⟩ ∈ (ofText text entities).entitiesInsertions := by
    refine mem_entitiesInsertions.mpr ⟨entity, i, hget, List.mem_append_right _ ?_⟩
    rw [if_neg (tags_ne_nil_of_unrevealed htype hdata text i)]
    exact List.mem_cons_self
  exact List.ne_nil_of_mem hin

/-- What a spoiler hides does not show in texts that have the same escapes and links. -/
theorem parse_eq_of_agreeOutside (S : StdSort) {entity : PositionedFormattedTextEntity} (hmem : entity ∈ entities)
    (htype : entity.type = .spoiler) (hdata : entity.typeData.toBool = false) (h₀ : 0 ≤ entity.offset)
    (h : AgreeOutside entity.offset entity.length text text') (hsame : (ofText text entities).SameParts text' text)
    {escape : Bool} (hescapes : escape = true → escapeInsertions 0 text' = escapeInsertions 0 text) :
    (ofText text entities).parse S escape = (ofText text' entities).parse S escape := by
  have hne : (ofText text entities).entitiesInsertions ≠ [] :=
    entitiesInsertions_ne_nil_of_unrevealed hmem htype hdata
  have hentities : (ofText text' entities).entitiesInsertions = (ofText text entities).entitiesInsertions :=
    entitiesInsertions_congr rfl rfl rfl rfl hsame
  have hinsertions : (ofText text' entities).insertions escape = (ofText text entities).insertions escape := by
    rw [insertions, insertions, hentities]
    split_ifs with hescape
    · rw [hescapes hescape]
    · rfl
  by_cases hlength : 0 < entity.length
  · obtain ⟨i, hget⟩ := List.getElem?_of_mem hmem
    have hreplacement : entity.getReplacement (ofText text entities) =
        QString.repeated (ofString "▒") entity.length := by
      rw [getReplacement_of_noImages (noImages_ofText text entities), if_pos ⟨htype, rfl⟩]
    have hpos : entity.getReplacement (ofText text entities) ≠ [] := by
      have hunit : ofString "▒" = [0x2592] := rfl
      have hlen := length_repeated 0x2592 entity.length
      rw [hreplacement, hunit]
      refine List.ne_nil_of_length_pos ?_
      omega
    have hspoiler : ⟨entity.offset, entity.getReplacement (ofText text entities), entity.length⟩ ∈
        S.sort ((ofText text entities).insertions escape) := by
      refine S.mem_sort.mpr (List.mem_append_left _ (mem_entitiesInsertions.mpr ⟨entity, i, hget, ?_⟩))
      refine List.mem_append_left _ ?_
      rw [if_pos hpos]
      exact List.mem_singleton.mpr rfl
    rw [parse_of_ne_nil S hne, parse_of_ne_nil S (hentities ▸ hne), hinsertions, map_shift_zero]
    exact applyAll_eq_of_agree (S.ordered _) hspoiler h₀ h.length_eq h.getElem?_eq
  · have hcovers : ¬ Covers entity.offset entity.length text := by
      rintro ⟨i, -, hlow, hhigh⟩
      omega
    rw [h.eq_of_not_covers hcovers]

/-! ### The length of a parsed text -/

theorem length_mid (h : text.length = text'.length) (p l : Int) : (text.mid p l).length = (text'.mid p l).length := by
  unfold mid
  rw [h]
  split_ifs
  · rfl
  · exact h
  · rw [List.length_take, List.length_take, h]
  · rw [List.length_drop, List.length_drop, h]
  · rw [List.length_take, List.length_take, List.length_drop, List.length_drop, h]

theorem map_unit_eq {s s' : QString} (h : s.length = s'.length) : (s.map fun _ => ()) = s'.map fun _ => () :=
  List.ext_getElem (by rw [List.length_map, List.length_map, h]) fun _ _ _ => rfl

/-- Texts of one length have tags of the same lengths at the same places. -/
theorem map_shape_entitiesInsertions (h : text.length = text'.length) :
    (ofText text entities).entitiesInsertions.map Splice.shape =
      (ofText text' entities).entitiesInsertions.map Splice.shape := by
  rw [entitiesInsertions, entitiesInsertions, List.map_flatMap, List.map_flatMap]
  refine List.flatMap_congr ?_
  rintro ⟨entity, i⟩ -
  have hlength : (entity.getHtmlTags text i).1.length = (entity.getHtmlTags text' i).1.length ∧
      (entity.getHtmlTags text i).2.length = (entity.getHtmlTags text' i).2.length := by
    by_cases hreads : entity.readsText = true
    · obtain ⟨scheme, htags⟩ := PositionedFormattedTextEntity.exists_scheme hreads
      have hpart : (entity.getTextPart text).length = (entity.getTextPart text').length := length_mid h _ _
      rw [htags, htags]
      simp only [PositionedFormattedTextEntity.linkTags, List.length_append, hpart, and_self]
    · rw [PositionedFormattedTextEntity.getHtmlTags_of_not_readsText ((Bool.not_eq_true _).mp hreads) text text' i]
      exact ⟨rfl, rfl⟩
  have hnil := entity.getHtmlTags_eq_nil_iff text text' i
  have hreplacement : entity.getReplacement (ofText text entities) = entity.getReplacement (ofText text' entities) := rfl
  simp only [entityInsertions, List.map_append, hreplacement]
  congr 1
  by_cases hempty : (entity.getHtmlTags text' i).1 = [] ∧ (entity.getHtmlTags text' i).2 = []
  · rw [if_pos hempty, if_pos (hnil.mpr hempty)]
  · rw [if_neg hempty, if_neg (mt hnil.mp hempty)]
    simp only [List.map_cons, List.map_nil, Splice.shape, Splice.map, map_unit_eq hlength.1, map_unit_eq hlength.2]

/-- The length of a parsed text is that of the escaped text and a number that only the entities and the length of the
text decide. -/
theorem exists_length_parse (entities : List PositionedFormattedTextEntity) (n : Nat) :
    ∃ extra : Int, ∀ (S : StdSort) (text : QString), text.length = n → (ofText text entities).entitiesInsertions ≠ [] →
      (((ofText text entities).parse S true).length : Int) = extra + (getPlainEscapedFor text).length := by
  let tags := (ofText (List.replicate n 0) entities).entitiesInsertions.map Splice.shape
  let back := tags.filter fun e => (n : Int) < e.stop
  let front := tags.filter fun e => !((n : Int) < e.stop)
  let start := applyAll (insertionSorting.sort back) (List.replicate n ())
  refine ⟨start.length + ((front.filter fun e => 0 ≤ e.offset).map Splice.gain).sum - n, fun S text hlen hne => ?_⟩
  have htags : (ofText text entities).entitiesInsertions.map Splice.shape = tags :=
    map_shape_entitiesInsertions (by rw [hlen, List.length_replicate])
  have hunits : (text.map fun _ => ()) = List.replicate n () := by rw [List.map_const', hlen]
  let sorted := (S.sort ((ofText text entities).insertions true)).map Splice.shape
  let escapes := (escapesOf 0 (atoms text)).map Splice.shape
  have hsorted : Descending sorted := descending_map_iff.mpr (S.ordered _)
  have hperm : sorted.Perm (back ++ (front ++ escapes)) := by
    have hinsertions := ((S.perm _).trans (insertions_perm (ofText text entities))).map Splice.shape
    rw [List.map_append, htags] at hinsertions
    rw [← List.append_assoc]
    exact hinsertions.trans ((List.filter_append_perm _ tags).symm.append_right escapes)
  have hgrows : ∀ e ∈ sorted, e.Grows := by
    intro e he
    obtain ⟨d, hd, rfl⟩ := List.mem_map.mp he
    exact (grows_map_iff d).mpr (grows_of_mem_insertions (noImages_ofText text entities) (S.mem_sort.mp hd))
  have hback : ∀ e ∈ back, (n : Int) < e.stop := fun e he => of_decide_eq_true (List.mem_filter.mp he).2
  have hescapes : ∀ e ∈ escapes, 0 ≤ e.offset ∧ e.stop ≤ n := by
    intro e he
    obtain ⟨d, hd, rfl⟩ := List.mem_map.mp he
    obtain ⟨-, hoffset, hstop⟩ := of_mem_escapesOf hd
    rw [flatten_atoms, hlen] at hstop
    exact ⟨by simpa using hoffset, by simpa using hstop⟩
  have hfront : ∀ e ∈ front ++ escapes, e.stop ≤ n := by
    intro e he
    rcases List.mem_append.mp he with he | he
    · have hnot := (List.mem_filter.mp he).2
      simpa using hnot
    · exact (hescapes e he).2
  obtain ⟨back', front', heq, hback', hfront', hdescending, hdescending'⟩ :=
    exists_append_of_descending hback hfront hsorted hperm
  have hstart : applyAll back' (List.replicate n ()) = start :=
    applyAll_unit_eq_of_perm (hback'.trans (insertionSorting.perm back).symm) hdescending (insertionSorting.ordered back)
      (fun e he => hgrows e (heq ▸ List.mem_append_left front' he)) _
  have hn : n ≤ start.length := by
    have hle := length_le_length_applyAll (fun e he => hgrows e (heq ▸ List.mem_append_left front' he))
      (List.replicate n ())
    rwa [hstart, List.length_replicate] at hle
  have hall : escapes.filter (fun e => 0 ≤ e.offset) = escapes :=
    List.filter_eq_self.mpr fun e he => decide_eq_true (hescapes e he).1
  have hgain : (escapes.map Splice.gain).sum = (getPlainEscapedFor text).length - n := by
    have hsum := sum_gain_escapesOf 0 (atoms text)
    rw [flatten_atoms, hlen, ← getPlainEscapedFor_eq] at hsum
    rw [← hsum, List.map_map]
    refine congrArg List.sum (List.map_congr_left fun e _ => ?_)
    simp [Splice.gain, Splice.shape]
  have hlength := @length_applyAll_of_stop_le Unit front' start fun e he =>
    ⟨hgrows e (heq ▸ List.mem_append_right back' he), (hfront e (hfront'.mem_iff.mp he)).trans (by exact_mod_cast hn)⟩
  rw [((hfront'.filter _).map _).sum_eq, List.filter_append, hall, List.map_append, List.sum_append, hgain] at hlength
  rw [parse_of_ne_nil S hne, map_shift_zero, length_applyAll_shape, hunits]
  change ((applyAll sorted _).length : Int) = _
  rw [heq, applyAll_append, hstart, hlength]
  omega

/-- The text with another unit at a place. -/
abbrev withUnit (text : QString) (i : Nat) (c : QChar) : QString := text.take i ++ c :: text.drop (i + 1)

theorem agreeOutside_withUnit {i : Nat} (hi : i < text.length) {offset length : Int} (hlow : offset ≤ i)
    (hhigh : i < offset + length) (c : QChar) : AgreeOutside offset length text (withUnit text i c) := by
  have htake : (text.take i).length = i := by
    rw [List.length_take]
    omega
  refine ⟨?_, fun j hj => ?_⟩
  · rw [List.length_append, htake, List.length_cons, List.length_drop]
    omega
  · rcases Nat.lt_or_gt_of_ne (show j ≠ i by omega) with hlt | hgt
    · rw [List.getElem?_append_left (by omega), List.getElem?_take_of_lt hlt]
    · obtain ⟨k, rfl⟩ := Nat.exists_eq_add_of_lt hgt
      have hsub : i + k + 1 - i = k + 1 := by omega
      rw [List.getElem?_append_right (by omega), htake, hsub, List.getElem?_cons_succ, List.getElem?_drop]
      congr 1
      omega

/-- A unit that is no line break is escaped by itself. -/
theorem length_getPlainEscapedFor_withUnit {c : QChar} (hcr : c ≠ cr) (hlf : c ≠ lf) (pre post : QString) :
    (getPlainEscapedFor (pre ++ c :: post)).length =
      (getPlainEscapedFor pre).length + (escape c).length + (getPlainEscapedFor post).length := by
  have hpre : ¬ Straddles pre (c :: post) := fun h => hlf (Option.some.inj h.2)
  have hpost : ¬ Straddles [c] post := fun h => hcr (Option.some.inj h.1)
  have hunit : getPlainEscapedFor [c] = escape c := by
    rw [getPlainEscapedFor_eq, atoms_cons fun h => hcr h.1, List.flatMap_cons, escapeAtom_unit hlf]
    exact List.append_nil _
  rw [getPlainEscapedFor_append hpre, List.length_append, ← List.singleton_append, getPlainEscapedFor_append hpost,
    List.length_append, hunit, Nat.add_assoc]

/-- Of two texts with a special unit and another one in the hidden part, one is parsed to a longer text. -/
theorem not_covers_of_revealsNothing {S : StdSort} {entity : PositionedFormattedTextEntity} (hmem : entity ∈ entities)
    (htype : entity.type = .spoiler) (hdata : entity.typeData.toBool = false)
    (h : RevealsNothing S entities entity.offset entity.length text) : ¬ Covers entity.offset entity.length text := by
  rintro ⟨i, hi, hlow, hhigh⟩
  have hplain := agreeOutside_withUnit hi hlow hhigh 0x61
  have hspecial := agreeOutside_withUnit hi hlow hhigh lt
  have hparse := (h _ hplain true).symm.trans (h _ hspecial true)
  obtain ⟨extra, hextra⟩ := exists_length_parse entities text.length
  have hlength := hextra S _ hplain.length_eq.symm (entitiesInsertions_ne_nil_of_unrevealed hmem htype hdata)
  rw [hparse, hextra S _ hspecial.length_eq.symm (entitiesInsertions_ne_nil_of_unrevealed hmem htype hdata),
    length_getPlainEscapedFor_withUnit (by decide) (by decide),
    length_getPlainEscapedFor_withUnit (by decide) (by decide)] at hlength
  have hone : (escape 0x61).length = 1 := by decide
  have hfour : (escape lt).length = 4 := by decide
  omega

/-- For every sort, every text and all entities among which there is an unrevealed spoiler: two texts that differ at most
in the hidden part come out the same if they need the same escapes and their links read the same, and for all such texts
this is so only if nothing is hidden. -/
theorem unrevealed_spoiler_hides_iff (S : StdSort) {entity : PositionedFormattedTextEntity} (hmem : entity ∈ entities)
    (htype : entity.type = .spoiler) (hdata : entity.typeData.toBool = false) (text : QString) :
    (RevealsNothing S entities entity.offset entity.length text ↔ ¬ Covers entity.offset entity.length text) ∧
      ∀ text', 0 ≤ entity.offset → AgreeOutside entity.offset entity.length text text' →
        (ofText text entities).SameParts text' text →
        (ofText text entities).parse S false = (ofText text' entities).parse S false ∧
          (escapeInsertions 0 text' = escapeInsertions 0 text →
            (ofText text entities).parse S true = (ofText text' entities).parse S true) := by
  refine ⟨⟨not_covers_of_revealsNothing hmem htype hdata, fun h text' hagree escape => ?_⟩, ?_⟩
  · rw [hagree.eq_of_not_covers h]
  · intro text' h₀ hagree hsame
    exact ⟨parse_eq_of_agreeOutside S hmem htype hdata h₀ hagree hsame nofun,
      fun hescapes => parse_eq_of_agreeOutside S hmem htype hdata h₀ hagree hsame fun _ => hescapes⟩

/-- The first unit hidden. -/
def hiddenFirst : PositionedFormattedTextEntity := { type := .spoiler, typeData := .bool false, offset := 0, length := 1 }

/-- Two letters that a spoiler hides. -/
theorem unrevealed_spoiler_hides_letter :
    (ofText (ofString "ab") [hiddenFirst]).parse stableSort true =
      (ofText (ofString "cb") [hiddenFirst]).parse stableSort true := by
  have hagree : AgreeOutside 0 1 (ofString "ab") (ofString "cb") := ⟨rfl, fun i hi => by
    cases i with
    | zero => omega
    | succ i => rfl⟩
  have hsame : (ofText (ofString "ab") [hiddenFirst]).SameParts (ofString "cb") (ofString "ab") := by
    intro entity hmem hreads
    rw [List.mem_singleton.mp hmem] at hreads
    exact absurd hreads (by decide)
  exact ((unrevealed_spoiler_hides_iff stableSort List.mem_cons_self rfl rfl (ofString "ab")).2 (ofString "cb") le_rfl
    hagree hsame).2 (by decide)

/-- A hidden angle bracket shows. -/
theorem not_unrevealed_spoiler_hides :
    ¬ ∀ (S : StdSort) (entities : List PositionedFormattedTextEntity) (entity : PositionedFormattedTextEntity),
      entity ∈ entities → entity.type = .spoiler → entity.typeData.toBool = false → 0 ≤ entity.offset →
      ∀ text, RevealsNothing S entities entity.offset entity.length text := by
  intro h
  have hreveals := h stableSort [hiddenFirst] hiddenFirst List.mem_cons_self rfl rfl le_rfl (ofString "ab")
  exact not_covers_of_revealsNothing List.mem_cons_self rfl rfl hreveals ⟨0, by decide, by decide, by decide⟩

end FormattedText

end YaqtLib
