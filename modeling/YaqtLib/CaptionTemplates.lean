import YaqtLib.ParsedText
import YaqtLib.TextTemplates

/-! Captions in templates. `argFrom` makes the text of a caption longer at its front but leaves the entities where they
were; the length of what came in front is added to every insertion when the text is parsed. That is right for the
insertions of the entities and wrong for those of the escapes, which are found in the longer text already, and the
links of the entities are read from the longer text at the old places. -/

namespace YaqtLib

open QString Splices

namespace FormattedText

/-- Nothing in the text is to be escaped. -/
def NoSpecial (text : QString) : Prop := ∀ c ∈ text, escapeAtom [c] = [c]

instance (text : QString) : Decidable (NoSpecial text) := inferInstanceAs (Decidable (∀ c ∈ text, _))

theorem escapeAtom_of_noSpecial {text atom : QString} (h : NoSpecial text) (hatom : atom ∈ atoms text) :
    escapeAtom atom = atom := by
  rcases eq_of_mem_atoms hatom with rfl | ⟨c, rfl⟩
  · have hlf : lf ∈ text := by
      rw [← flatten_atoms text]
      exact List.mem_flatten.mpr ⟨_, hatom, by decide⟩
    exact absurd (h lf hlf) (by decide)
  · refine h c ?_
    rw [← flatten_atoms text]
    exact List.mem_flatten.mpr ⟨_, hatom, List.mem_singleton.mpr rfl⟩

theorem escapesOf_eq_nil_iff (text : QString) (i : Nat) : escapesOf i (atoms text) = [] ↔ NoSpecial text := by
  constructor
  · intro h c hc
    rw [← flatten_atoms text] at hc
    obtain ⟨atom, hatom, hmem⟩ := List.mem_flatten.mp hc
    have hself : escapeAtom atom = atom := by
      by_contra hne
      obtain ⟨as, bs, hsplit⟩ := List.append_of_mem hatom
      have hnil := h
      rw [hsplit, escapesOf_append, escapesOf, escapeOf, if_neg hne] at hnil
      simp at hnil
    rcases eq_of_mem_atoms hatom with rfl | ⟨d, rfl⟩
    · exact absurd hself (by decide)
    · rwa [List.mem_singleton.mp hmem]
  · intro h
    refine List.eq_nil_iff_forall_not_mem.mpr fun e he => ?_
    obtain ⟨⟨atom, hmem, hne, -⟩, -⟩ := of_mem_escapesOf he
    exact hne (escapeAtom_of_noSpecial h hmem)

theorem getPlainEscapedFor_of_noSpecial {text : QString} (h : NoSpecial text) : getPlainEscapedFor text = text := by
  rw [getPlainEscapedFor_eq, List.flatMap_congr fun atom hatom => escapeAtom_of_noSpecial h hatom, List.flatMap_id',
    flatten_atoms]

section Templates

variable (digits : DigitTable) (template pre post caption : QString) (entities : List PositionedFormattedTextEntity)

/-- The caption in the template. -/
abbrev inTemplate : FormattedText := (ofText caption entities).argFrom digits template

/-- `argFrom` commutes with `parse`: the text in the template is parsed to the escaped template with the parsed caption
for the place marker, and each insertion is that of the caption or of the template, moved by the length of what stands
in front. -/
structure ArgCommutes : Prop where
  output : ∀ out, (∃ S : StdSort, (inTemplate digits template caption entities).parse S true = out) ↔
    ∃ S : StdSort, getPlainEscapedFor pre ++ (ofText caption entities).parse S true ++ getPlainEscapedFor post = out
  tags : ((inTemplate digits template caption entities).entitiesInsertions.map
      (Splice.shift (inTemplate digits template caption entities).prefixOffset)) =
    (ofText caption entities).entitiesInsertions.map (Splice.shift pre.length)
  escapes : (ofText caption entities).entitiesInsertions ≠ [] →
    ((escapeInsertions 0 (inTemplate digits template caption entities).plainText).map
        (Splice.shift (inTemplate digits template caption entities).prefixOffset)).Perm
      (escapeInsertions 0 pre ++ escapeInsertions pre.length caption ++
        escapeInsertions (pre.length + caption.length) post)

/-- No line break lies across an end of the caption, and either no entity writes anything, or nothing comes in front of
the caption, or there is nothing to escape and the links read the same at the old places of the longer text. -/
def KeepsPlaces : Prop :=
  ¬ Straddles pre (caption ++ post) ∧ ¬ Straddles caption post ∧
    ((ofText caption entities).entitiesInsertions = [] ∨ pre = [] ∨
      NoSpecial (pre ++ caption ++ post) ∧ (ofText caption entities).SameParts (pre ++ caption ++ post) caption)

end Templates

/-- The caption between the two texts of a template. -/
abbrev between (pre post caption : QString) (entities : List PositionedFormattedTextEntity) : FormattedText :=
  { plainText := pre ++ caption ++ post, entities := entities, prefixOffset := pre.length }

section Between

variable {pre post caption : QString} {entities : List PositionedFormattedTextEntity}

theorem inTemplate_eq {digits : DigitTable} {template : QString} (h : OneMarker digits template pre post) :
    inTemplate digits template caption entities = between pre post caption entities := by
  rw [inTemplate, argFrom_of_oneMarker h]
  simp only [Int.zero_add]

theorem entitiesInsertions_between
    (h : (ofText caption entities).SameParts (pre ++ caption ++ post) caption) :
    (between pre post caption entities).entitiesInsertions = (ofText caption entities).entitiesInsertions :=
  entitiesInsertions_congr rfl rfl rfl rfl h

/-- Behind the caption a text does not change what a link reads. -/
theorem sameParts_append (hrange : (ofText caption entities).InRange) :
    (ofText caption entities).SameParts (caption ++ post) caption := by
  intro entity hmem _
  obtain ⟨h₀, hlen, hend⟩ := hrange entity hmem
  have hend : entity.offset + entity.length ≤ caption.length := hend
  rw [PositionedFormattedTextEntity.getTextPart, PositionedFormattedTextEntity.getTextPart, mid, mid,
    if_neg (by rw [List.length_append]; omega), if_neg (by omega), if_neg (by omega), if_neg (by omega),
    if_neg (by omega), if_neg (by omega), List.drop_append_of_le_length (by omega),
    List.take_append_of_le_length (by rw [List.length_drop]; omega)]

/-- The splices of a caption make it no shorter and lie in it. -/
theorem lies_of_mem_insertions (hrange : (ofText caption entities).InRange) {e : Insertion}
    (h : e ∈ (ofText caption entities).insertions true) : e.Grows ∧ 0 ≤ e.offset ∧ e.stop ≤ caption.length := by
  rcases List.mem_append.mp ((insertions_perm _).mem_iff.mp h) with h | h
  · exact ⟨grows_of_mem_entitiesInsertions (noImages_ofText caption entities) h, lies_of_mem_entitiesInsertions hrange h⟩
  · obtain ⟨-, hoffset, hstop⟩ := of_mem_escapesOf h
    rw [flatten_atoms] at hstop
    exact ⟨(grows_of_mem_escapesOf h).1, by omega, by simpa using hstop⟩

/-- With nothing in front, the escapes behind the caption are made first and then those of the caption. -/
theorem exists_parse_behind (hrange : (ofText caption entities).InRange)
    (hne : (ofText caption entities).entitiesInsertions ≠ []) (hpost : ¬ Straddles caption post) (out : QString) :
    (∃ S : StdSort, (ofText (caption ++ post) entities).parse S true = out) ↔
      ∃ S : StdSort, (ofText caption entities).parse S true ++ getPlainEscapedFor post = out := by
  have hsame : (ofText (caption ++ post) entities).entitiesInsertions = (ofText caption entities).entitiesInsertions :=
    entitiesInsertions_congr rfl rfl rfl rfl (sameParts_append hrange)
  have hinsertions : ((ofText (caption ++ post) entities).insertions true).Perm
      ((escapesOf caption.length (atoms post)).reverse ++ (ofText caption entities).insertions true) := by
    refine (insertions_perm _).trans ?_
    rw [hsame, escapesOf_text_append hpost, Nat.zero_add, ← List.append_assoc]
    refine List.perm_append_comm.trans ((List.reverse_perm _).symm.append ?_)
    exact (insertions_perm (ofText caption entities)).symm
  have hbehind : ∀ e ∈ (escapesOf caption.length (atoms post)).reverse, (caption.length : Int) < e.stop := by
    intro e he
    have hmem := List.mem_reverse.mp he
    have hpos := (grows_of_mem_escapesOf hmem).2
    have hoffset := (of_mem_escapesOf hmem).2.1
    rw [Splice.stop]
    omega
  have happly (sorted : List Insertion) (hperm : sorted.Perm ((ofText caption entities).insertions true)) :
      applyAll ((escapesOf caption.length (atoms post)).reverse ++ sorted) (caption ++ post) =
        applyAll sorted caption ++ getPlainEscapedFor post := by
    have hescapes := applyAll_escapesOf caption (atoms post)
    rw [flatten_atoms, ← getPlainEscapedFor_eq] at hescapes
    rw [applyAll_append, hescapes]
    exact applyAll_append_right (fun e he => lies_of_mem_insertions hrange (hperm.mem_iff.mp he)) _
  have hlies : ∀ sorted : List Insertion, sorted.Perm ((ofText caption entities).insertions true) →
      ∀ e ∈ sorted, e.stop ≤ caption.length :=
    fun sorted hperm e he => (lies_of_mem_insertions hrange (hperm.mem_iff.mp he)).2.2
  rw [exists_parse_iff (hsame ▸ hne)]
  constructor
  · rintro ⟨sorted, hperm, hsorted, rfl⟩
    obtain ⟨behind, rest, rfl, hbehind', hrest, hdescending, hdescending'⟩ :=
      exists_append_of_descending hbehind (hlies _ (List.Perm.refl _)) hsorted (hperm.trans hinsertions)
    obtain rfl := eq_of_descending hbehind' hdescending (escapesOf_reverse_pairwise _ _)
    obtain ⟨S, hS⟩ := (exists_parse_iff hne true _).mpr ⟨rest, hrest, hdescending', rfl⟩
    refine ⟨S, ?_⟩
    rw [hS, map_shift_zero, map_shift_zero, happly _ hrest]
  · rintro ⟨S, rfl⟩
    have hescapes : Descending (escapesOf caption.length (atoms post)).reverse :=
      (escapesOf_reverse_pairwise _ _).imp fun hlt => Splice.before_eq_false_iff.mpr (Or.inl hlt)
    rw [parse_of_ne_nil S hne]
    refine ⟨(escapesOf caption.length (atoms post)).reverse ++ S.sort ((ofText caption entities).insertions true),
      ?_, ?_, ?_⟩
    · exact ((S.perm _).append_left _).trans hinsertions.symm
    · exact descending_append hbehind (hlies _ (S.perm _)) hescapes (S.ordered _)
    · rw [map_shift_zero, map_shift_zero, happly _ (S.perm _)]

theorem escapeInsertions_of_noSpecial {text : QString} (h : NoSpecial text) (i : Nat) : escapeInsertions i text = [] := by
  have hperm := escapeInsertions_perm i text
  rw [(escapesOf_eq_nil_iff text i).mpr h] at hperm
  exact hperm.eq_nil

/-- With nothing to escape the insertions are those of the entities, all of them moved. -/
theorem parse_between_of_noSpecial (hrange : (ofText caption entities).InRange)
    (hne : (ofText caption entities).entitiesInsertions ≠ []) (hspecial : NoSpecial (pre ++ caption ++ post))
    (hsame : (ofText caption entities).SameParts (pre ++ caption ++ post) caption) (S : StdSort) :
    (between pre post caption entities).parse S true = pre ++ (ofText caption entities).parse S true ++ post := by
  have hentities := entitiesInsertions_between hsame
  have hcaption : NoSpecial caption := fun c hc =>
    hspecial c (List.mem_append_left post (List.mem_append_right pre hc))
  have hinsertions : (between pre post caption entities).insertions true = (ofText caption entities).insertions true := by
    rw [insertions, insertions, hentities, if_pos rfl, if_pos rfl, escapeInsertions_of_noSpecial hspecial,
      escapeInsertions_of_noSpecial hcaption]
  have hlies : ∀ e ∈ S.sort ((ofText caption entities).insertions true),
      e.Grows ∧ 0 ≤ e.offset ∧ e.stop ≤ caption.length := fun e he =>
    lies_of_mem_insertions hrange ((S.perm _).mem_iff.mp he)
  rw [parse_of_ne_nil S (hentities ▸ hne), parse_of_ne_nil S hne, hinsertions, map_shift_zero]
  dsimp only
  rw [List.append_assoc, List.append_assoc, applyAll_append_left fun e he => ⟨(hlies e he).1.nonneg, (hlies e he).2.1⟩,
    applyAll_append_right hlies]

theorem entitiesInsertions_eq_nil_iff (text text' : QString) (prefixOffset : Int) :
    ({ plainText := text, entities := entities, prefixOffset := prefixOffset } : FormattedText).entitiesInsertions = [] ↔
      (ofText text' entities).entitiesInsertions = [] := by
  rw [entitiesInsertions, entitiesInsertions, List.flatMap_eq_nil_iff, List.flatMap_eq_nil_iff]
  refine forall₂_congr ?_
  rintro ⟨entity, i⟩ -
  rw [← List.length_eq_zero_iff, ← List.length_eq_zero_iff]
  exact Iff.of_eq (congrArg (· = 0) (length_entityInsertions (ofText text' entities)
    { plainText := text, entities := entities, prefixOffset := prefixOffset } (fun _ => rfl) entity i))

/-- Where the places are kept, parsing commutes with the template. -/
theorem output_between (hrange : (ofText caption entities).InRange) (h : KeepsPlaces pre post caption entities)
    (out : QString) :
    (∃ S : StdSort, (between pre post caption entities).parse S true = out) ↔
      ∃ S : StdSort,
        getPlainEscapedFor pre ++ (ofText caption entities).parse S true ++ getPlainEscapedFor post = out := by
  obtain ⟨hpre, hpost, hcases⟩ := h
  by_cases hne : (ofText caption entities).entitiesInsertions = []
  · have hnil := (entitiesInsertions_eq_nil_iff (pre ++ caption ++ post) caption pre.length).mpr hne
    refine exists_congr fun S => ?_
    rw [parse_of_nil S hnil, parse_of_nil S hne, List.append_assoc, getPlainEscapedFor_append hpre,
      getPlainEscapedFor_append hpost, List.append_assoc]
  · rcases hcases with hnil | rfl | ⟨hspecial, hsame⟩
    · exact absurd hnil hne
    · have hempty : getPlainEscapedFor [] = [] := rfl
      rw [hempty]
      exact exists_parse_behind hrange hne hpost out
    · have hpre : NoSpecial pre := fun c hc => hspecial c (List.mem_append_left post (List.mem_append_left caption hc))
      have hpost : NoSpecial post := fun c hc => hspecial c (List.mem_append_right _ hc)
      refine exists_congr fun S => ?_
      rw [parse_between_of_noSpecial hrange hne hspecial hsame, getPlainEscapedFor_of_noSpecial hpre,
        getPlainEscapedFor_of_noSpecial hpost]

theorem tags_between (hrange : (ofText caption entities).InRange) (h : KeepsPlaces pre post caption entities) :
    (between pre post caption entities).entitiesInsertions.map
        (Splice.shift (between pre post caption entities).prefixOffset) =
      (ofText caption entities).entitiesInsertions.map (Splice.shift pre.length) := by
  rcases h.2.2 with hnil | rfl | ⟨-, hsame⟩
  · rw [hnil, (entitiesInsertions_eq_nil_iff (pre ++ caption ++ post) caption pre.length).mpr hnil]
  · rw [entitiesInsertions_between (sameParts_append hrange)]
  · rw [entitiesInsertions_between hsame]

theorem escapes_between (h : KeepsPlaces pre post caption entities)
    (hne : (ofText caption entities).entitiesInsertions ≠ []) :
    ((escapeInsertions 0 (between pre post caption entities).plainText).map
        (Splice.shift (between pre post caption entities).prefixOffset)).Perm
      (escapeInsertions 0 pre ++ escapeInsertions pre.length caption ++
        escapeInsertions (pre.length + caption.length) post) := by
  obtain ⟨hpre, hpost, hcases⟩ := h
  rcases hcases with hnil | rfl | ⟨hspecial, -⟩
  · exact absurd hnil hne
  · have hzero : (between [] post caption entities).prefixOffset = 0 := rfl
    have hempty : escapeInsertions 0 [] = [] := rfl
    rw [hzero, map_shift_zero, hempty, List.nil_append, List.length_nil, Nat.zero_add]
    refine (escapeInsertions_perm _ _).trans ?_
    have htext : (between [] post caption entities).plainText = caption ++ post := rfl
    rw [htext, escapesOf_text_append hpost, Nat.zero_add]
    exact (escapeInsertions_perm _ _).symm.append (escapeInsertions_perm _ _).symm
  · have hpre : NoSpecial pre := fun c hc => hspecial c (List.mem_append_left post (List.mem_append_left caption hc))
    have hcaption : NoSpecial caption := fun c hc =>
      hspecial c (List.mem_append_left post (List.mem_append_right pre hc))
    have hpost : NoSpecial post := fun c hc => hspecial c (List.mem_append_right _ hc)
    rw [escapeInsertions_of_noSpecial hspecial, escapeInsertions_of_noSpecial hpre,
      escapeInsertions_of_noSpecial hcaption, escapeInsertions_of_noSpecial hpost]
    exact List.Perm.refl _

/-! ### What commuting takes -/

theorem flatMap_eq_iff_of_length {α β : Type} {f g : α → List β} {l : List α}
    (hlen : ∀ x, (f x).length = (g x).length) : l.flatMap f = l.flatMap g ↔ ∀ x ∈ l, f x = g x := by
  induction l with
  | nil => simp
  | cons x l ih =>
      rw [List.flatMap_cons, List.flatMap_cons, List.forall_mem_cons, ← ih]
      exact ⟨fun h => List.append_inj h (hlen x), fun h => by rw [h.1, h.2]⟩

/-- The insertions of the entities are those of the caption only if the links read the same. -/
theorem sameParts_of_entitiesInsertions
    (h : (between pre post caption entities).entitiesInsertions = (ofText caption entities).entitiesInsertions) :
    (ofText caption entities).SameParts (pre ++ caption ++ post) caption := by
  intro entity hmem hreads
  obtain ⟨i, hget⟩ := List.getElem?_of_mem hmem
  have hlen (x : PositionedFormattedTextEntity × Nat) :
      ((between pre post caption entities).entityInsertions x.1 x.2).length =
        ((ofText caption entities).entityInsertions x.1 x.2).length :=
    length_entityInsertions (ofText caption entities) (between pre post caption entities) (fun _ => rfl) x.1 x.2
  have hinsertions := (flatMap_eq_iff_of_length hlen).mp h (entity, i) (List.mem_zipIdx_iff_getElem?.mpr hget)
  refine (entity.getHtmlTags_eq_iff (pre ++ caption ++ post) caption i).mp ?_ hreads
  have hnil := entity.getHtmlTags_eq_nil_iff (pre ++ caption ++ post) caption i
  simp only [entityInsertions] at hinsertions
  have htags := List.append_cancel_left hinsertions
  by_cases hempty : (entity.getHtmlTags caption i).1 = [] ∧ (entity.getHtmlTags caption i).2 = []
  · exact Prod.ext ((hnil.mpr hempty).1.trans hempty.1.symm) ((hnil.mpr hempty).2.trans hempty.2.symm)
  · rw [if_neg hempty, if_neg (mt hnil.mp hempty)] at htags
    simp only [List.cons.injEq, Splice.mk.injEq] at htags
    exact Prod.ext htags.1.2.1 htags.2.1.2.1

/-- The escapes stand where they belong only if no line break lies across an end of the caption. -/
theorem not_straddles_of_perm {k : Nat}
    (h : ((escapeInsertions 0 (pre ++ caption ++ post)).map (Splice.shift k)).Perm
      (escapeInsertions 0 pre ++ escapeInsertions pre.length caption ++
        escapeInsertions (pre.length + caption.length) post)) :
    ¬ Straddles pre (caption ++ post) ∧ ¬ Straddles caption post := by
  have hshift (edits : List Insertion) : (edits.map (Splice.shift k)).map Splice.removeLength =
      edits.map Splice.removeLength := by
    rw [List.map_map]
    rfl
  have hsum (i : Nat) (text : QString) :
      ((escapeInsertions i text).map Splice.removeLength).sum = escapedLength text := by
    rw [((escapeInsertions_perm i text).map _).sum_eq, sum_removeLength_escapesOf]
  have hlength := (h.map Splice.removeLength).sum_eq
  rw [hshift, List.map_append, List.map_append, List.sum_append, List.sum_append, hsum, hsum, hsum, hsum,
    List.append_assoc, escapedLength_append, escapedLength_append] at hlength
  split_ifs at hlength with hpost hpre hpre
  · omega
  · omega
  · omega
  · exact ⟨hpre, hpost⟩

/-- Moved escapes are not those that belong there. -/
theorem noSpecial_of_perm (hpre : ¬ Straddles pre (caption ++ post)) (hpost : ¬ Straddles caption post) (hne : pre ≠ [])
    (h : ((escapeInsertions 0 (pre ++ caption ++ post)).map (Splice.shift pre.length)).Perm
      (escapeInsertions 0 pre ++ escapeInsertions pre.length caption ++
        escapeInsertions (pre.length + caption.length) post)) : NoSpecial (pre ++ caption ++ post) := by
  have hescapes : (escapeInsertions 0 (pre ++ caption ++ post)).Perm
      (escapeInsertions 0 pre ++ escapeInsertions pre.length caption ++
        escapeInsertions (pre.length + caption.length) post) := by
    refine (escapeInsertions_perm _ _).trans ?_
    rw [List.append_assoc, escapesOf_text_append hpre, escapesOf_text_append hpost, Nat.zero_add, List.append_assoc]
    exact (escapeInsertions_perm _ _).symm.append ((escapeInsertions_perm _ _).symm.append (escapeInsertions_perm _ _).symm)
  have hpos : 0 < (pre.length : Int) := by exact_mod_cast List.length_pos_iff.mpr hne
  have hnil := eq_nil_of_perm_map_shift hpos (h.trans hescapes.symm)
  have hperm := escapeInsertions_perm 0 (pre ++ caption ++ post)
  rw [hnil] at hperm
  exact (escapesOf_eq_nil_iff _ 0).mp hperm.nil_eq.symm

/-- Without insertions a line break across an end of the caption makes the whole shorter than its parts. -/
theorem not_straddles_of_output (hnil : (ofText caption entities).entitiesInsertions = [])
    (h : ∀ out, (∃ S : StdSort, (between pre post caption entities).parse S true = out) ↔
      ∃ S : StdSort,
        getPlainEscapedFor pre ++ (ofText caption entities).parse S true ++ getPlainEscapedFor post = out) :
    ¬ Straddles pre (caption ++ post) ∧ ¬ Straddles caption post := by
  have hnil' := (entitiesInsertions_eq_nil_iff (pre ++ caption ++ post) caption pre.length).mpr hnil
  obtain ⟨S, hS⟩ := (h _).mp ⟨stableSort, rfl⟩
  rw [parse_of_nil _ hnil', parse_of_nil S hnil] at hS
  have hlength := congrArg List.length hS
  have hwhole := length_getPlainEscapedFor_append pre (caption ++ post)
  have hback := length_getPlainEscapedFor_append caption post
  rw [← List.append_assoc] at hwhole
  simp only [List.length_append] at hlength
  split_ifs at hwhole hback with hpre hpost hpost
  · omega
  · omega
  · omega
  · exact ⟨hpre, hpost⟩

theorem map_shift_injective (k : Int) {edits edits' : List Insertion}
    (h : edits.map (Splice.shift k) = edits'.map (Splice.shift k)) : edits = edits' := by
  refine List.map_injective_iff.mpr (fun e e' heq => ?_) h
  obtain ⟨offset, insertion, removeLength⟩ := e
  obtain ⟨offset', insertion', removeLength'⟩ := e'
  simp only [Splice.shift, Splice.mk.injEq] at heq
  rw [Splice.mk.injEq]
  exact ⟨by omega, heq.2⟩

end Between

/-- Of any caption with its entities in the text and any template with one place marker. -/
theorem argCommutes_iff {digits : DigitTable} {template pre post caption : QString}
    {entities : List PositionedFormattedTextEntity} (hmarker : OneMarker digits template pre post)
    (hrange : (ofText caption entities).InRange) :
    ArgCommutes digits template pre post caption entities ↔ KeepsPlaces pre post caption entities := by
  have heq := @inTemplate_eq pre post caption entities digits template hmarker
  constructor
  · intro h
    have houtput := h.output
    have htags := h.tags
    have hescapes := h.escapes
    rw [heq] at houtput htags hescapes
    by_cases hne : (ofText caption entities).entitiesInsertions = []
    · obtain ⟨hpre, hpost⟩ := not_straddles_of_output hne houtput
      exact ⟨hpre, hpost, Or.inl hne⟩
    · obtain ⟨hpre, hpost⟩ := not_straddles_of_perm (hescapes hne)
      refine ⟨hpre, hpost, Or.inr ?_⟩
      by_cases hnil : pre = []
      · exact Or.inl hnil
      · exact Or.inr ⟨noSpecial_of_perm hpre hpost hnil (hescapes hne),
          sameParts_of_entitiesInsertions (map_shift_injective _ htags)⟩
  · intro h
    refine ⟨?_, ?_, ?_⟩
    · rw [heq]
      exact output_between hrange h
    · rw [heq]
      exact tags_between hrange h
    · rw [heq]
      exact escapes_between h

/-- The first unit in bold letters. -/
def boldFirst : List PositionedFormattedTextEntity := [{ type := .bold, offset := 0, length := 1 }]

theorem inRange_boldFirst : (ofText (ofString "a<b") boldFirst).InRange := by
  intro entity hmem
  obtain rfl := List.mem_singleton.mp hmem
  decide

/-- A template that starts with its place marker. -/
theorem argCommutes_in_front :
    ArgCommutes asciiDigits (ofString "%1!") [] (ofString "!") (ofString "a<b") boldFirst :=
  (argCommutes_iff ⟨1, ofString "%1", by decide⟩ inRange_boldFirst).mpr ⟨by decide, by decide, Or.inr (Or.inl rfl)⟩

/-- A text in front of the caption and a unit to be escaped: the unit is left as it is. -/
theorem not_argCommutes :
    ¬ ∀ (digits : DigitTable) (template pre post caption : QString) (entities : List PositionedFormattedTextEntity),
      OneMarker digits template pre post → (ofText caption entities).InRange →
      ArgCommutes digits template pre post caption entities := by
  intro h
  have hmarker : OneMarker asciiDigits (ofString "Photo: %1") (ofString "Photo: ") [] := ⟨1, ofString "%1", by decide⟩
  have hcommutes := h asciiDigits _ _ _ (ofString "a<b") boldFirst hmarker inRange_boldFirst
  obtain ⟨S, hS⟩ := (hcommutes.output _).mp ⟨stableSort, rfl⟩
  rw [inTemplate_eq hmarker] at hS
  have hplaced := @parse_eq_of_perm (between (ofString "Photo: ") [] (ofString "a<b") boldFirst)
    [⟨8, ofString "&lt;", 1⟩, ⟨1, ofString "</b>", 0⟩, ⟨0, ofString "<b>", 0⟩] stableSort (by decide) true (by decide)
    (by decide)
  have hcaption := @parse_eq_of_perm (ofText (ofString "a<b") boldFirst)
    [⟨1, ofString "&lt;", 1⟩, ⟨1, ofString "</b>", 0⟩, ⟨0, ofString "<b>", 0⟩] S (by decide) true (by decide) (by decide)
  rw [hplaced, hcaption] at hS
  exact absurd hS (by decide)

end FormattedText

end YaqtLib
