import YaqtLib.EscapedText

/-! The insertions of a text and the text parsed with them: which insertion belongs to which entity, where they lie,
and what of the text they depend on. -/

namespace YaqtLib

open QString Splices

namespace PositionedFormattedTextEntity

/-- The link of the entity is a part of the text. -/
def readsText (entity : PositionedFormattedTextEntity) : Bool :=
  match entity.type with
  | .url | .phoneNumber | .emailAddress | .botCommand | .mention | .hashtag | .cashtag => true
  | _ => false

/-- Such an entity has the tags of a link to the part. -/
theorem exists_scheme {entity : PositionedFormattedTextEntity} (h : entity.readsText = true) :
    ∃ scheme, ∀ text index, entity.getHtmlTags text index = linkTags scheme (entity.getTextPart text) := by
  unfold readsText at h
  split at h
  case h_8 => exact absurd h Bool.false_ne_true
  all_goals
    rename_i htype
    exact ⟨_, fun text index => by rw [getHtmlTags, htype]⟩

/-- The tags of the other entities are the same in every text. -/
theorem getHtmlTags_of_not_readsText {entity : PositionedFormattedTextEntity} (h : entity.readsText = false)
    (text text' : QString) (index : Nat) : entity.getHtmlTags text index = entity.getHtmlTags text' index := by
  unfold readsText at h
  unfold getHtmlTags
  split at h
  case h_8 => split <;> simp_all
  all_goals cases h

/-- The tags depend on the text through the part that is the link. -/
theorem getHtmlTags_eq_iff (entity : PositionedFormattedTextEntity) (text text' : QString) (index : Nat) :
    entity.getHtmlTags text index = entity.getHtmlTags text' index ↔
      (entity.readsText = true → entity.getTextPart text = entity.getTextPart text') := by
  by_cases h : entity.readsText = true
  · obtain ⟨scheme, htags⟩ := exists_scheme h
    rw [htags, htags]
    refine ⟨fun heq _ => ?_, fun heq => by rw [heq h]⟩
    exact List.append_cancel_left (List.append_cancel_right (Prod.mk.inj heq).1)
  · exact iff_of_true (getHtmlTags_of_not_readsText (Bool.not_eq_true _ ▸ h) text text' index) fun hreads => absurd hreads h

/-- Whether there are tags does not depend on the text. -/
theorem getHtmlTags_eq_nil_iff (entity : PositionedFormattedTextEntity) (text text' : QString) (index : Nat) :
    ((entity.getHtmlTags text index).1 = [] ∧ (entity.getHtmlTags text index).2 = []) ↔
      ((entity.getHtmlTags text' index).1 = [] ∧ (entity.getHtmlTags text' index).2 = []) := by
  by_cases h : entity.readsText = true
  · obtain ⟨scheme, htags⟩ := exists_scheme h
    have hend : A_TAG_END ≠ [] := by decide
    rw [htags, htags]
    exact iff_of_false (fun hnil => hend hnil.2) fun hnil => hend hnil.2
  · rw [getHtmlTags_of_not_readsText (Bool.not_eq_true _ ▸ h) text text' index]

end PositionedFormattedTextEntity

namespace FormattedText

/-- A text with entities, as the constructor makes it. -/
abbrev ofText (text : QString) (entities : List PositionedFormattedTextEntity) : FormattedText :=
  { plainText := text, entities := entities }

/-- No entity is replaced by an image. -/
def NoImages (F : FormattedText) : Prop := F.getCustomEmojiSize = 0

theorem noImages_ofText (text : QString) (entities : List PositionedFormattedTextEntity) :
    (ofText text entities).NoImages := rfl

variable {F : FormattedText}

theorem mem_entitiesInsertions {e : Insertion} :
    e ∈ F.entitiesInsertions ↔ ∃ entity i, F.entities[i]? = some entity ∧ e ∈ F.entityInsertions entity i := by
  rw [entitiesInsertions, List.mem_flatMap]
  constructor
  · rintro ⟨⟨entity, i⟩, hmem, he⟩
    exact ⟨entity, i, List.mem_zipIdx_iff_getElem?.mp hmem, he⟩
  · rintro ⟨entity, i, hget, he⟩
    exact ⟨(entity, i), List.mem_zipIdx_iff_getElem?.mpr hget, he⟩

/-- An insertion of an entity is its replacement, its opening tag or its closing tag. -/
theorem of_mem_entityInsertions {entity : PositionedFormattedTextEntity} {i : Nat} {e : Insertion}
    (h : e ∈ F.entityInsertions entity i) :
    e = ⟨entity.offset, entity.getReplacement F, entity.length⟩ ∧ entity.getReplacement F ≠ [] ∨
      e = ⟨entity.offset, (entity.getHtmlTags F.plainText i).1, 0⟩ ∨
      e = ⟨entity.offset + entity.length, (entity.getHtmlTags F.plainText i).2, 0⟩ := by
  rw [entityInsertions, List.mem_append] at h
  rcases h with h | h
  · split_ifs at h with hne
    · exact Or.inl ⟨List.mem_singleton.mp h, hne⟩
    · exact absurd h List.not_mem_nil
  · split_ifs at h with hempty
    · exact absurd h List.not_mem_nil
    · simpa using Or.inr h

theorem length_repeated (c : QChar) (n : Int) : (QString.repeated [c] n).length = n.toNat := by
  rw [QString.repeated, List.length_flatten, List.map_replicate, List.sum_replicate_nat, List.length_singleton,
    Nat.mul_one]

/-- Without images only spoilers are replaced. -/
theorem getReplacement_of_noImages (hF : F.NoImages) (entity : PositionedFormattedTextEntity) :
    entity.getReplacement F =
      if entity.type = .spoiler ∧ F.isFull = false then QString.repeated (ofString "▒") entity.length else [] := by
  rw [NoImages] at hF
  unfold PositionedFormattedTextEntity.getReplacement
  split
  · rename_i htype
    rw [if_pos hF, htype, if_neg fun h => nomatch h.1]
  · rename_i htype
    cases hfull : F.isFull <;> simp [htype]
  · rename_i hspoiler
    rw [if_neg fun h => hspoiler h.1]

/-- Then what replaces a part is as long as the part. -/
theorem length_getReplacement (hF : F.NoImages) {entity : PositionedFormattedTextEntity}
    (hne : entity.getReplacement F ≠ []) :
    (entity.getReplacement F).length = entity.length.toNat ∧ 0 < entity.length := by
  have hunit : ofString "▒" = [0x2592] := rfl
  rw [getReplacement_of_noImages hF, hunit] at hne ⊢
  split_ifs at hne ⊢ with hspoiler
  · have hlen := length_repeated 0x2592 entity.length
    have hpos := List.length_pos_iff.mpr hne
    exact ⟨hlen, by omega⟩
  · exact absurd rfl hne

theorem grows_of_mem_entitiesInsertions (hF : F.NoImages) {e : Insertion} (h : e ∈ F.entitiesInsertions) : e.Grows := by
  obtain ⟨entity, i, -, he⟩ := mem_entitiesInsertions.mp h
  rcases of_mem_entityInsertions he with ⟨rfl, hne⟩ | rfl | rfl
  · obtain ⟨hlen, hpos⟩ := length_getReplacement hF hne
    refine ⟨by simpa using hpos.le, ?_⟩
    dsimp only
    omega
  · exact ⟨le_rfl, by simp⟩
  · exact ⟨le_rfl, by simp⟩

/-- Every entity lies in the text. -/
def InRange (F : FormattedText) : Prop :=
  ∀ entity ∈ F.entities, 0 ≤ entity.offset ∧ 0 ≤ entity.length ∧ entity.offset + entity.length ≤ F.plainText.length

theorem lies_of_mem_entitiesInsertions (hF : F.InRange) {e : Insertion} (h : e ∈ F.entitiesInsertions) :
    0 ≤ e.offset ∧ e.stop ≤ F.plainText.length := by
  obtain ⟨entity, i, hget, he⟩ := mem_entitiesInsertions.mp h
  have hrange := hF entity (List.mem_of_getElem? hget)
  rcases of_mem_entityInsertions he with ⟨rfl, -⟩ | rfl | rfl
  · simp only [Splice.stop]
    omega
  · simp only [Splice.stop]
    omega
  · simp only [Splice.stop]
    omega

/-- The links of the entities read the same in two texts. -/
def SameParts (F : FormattedText) (text text' : QString) : Prop :=
  ∀ entity ∈ F.entities, entity.readsText = true → entity.getTextPart text = entity.getTextPart text'

/-- The insertions of the entities depend on the text through the links. -/
theorem entitiesInsertions_congr {G : FormattedText} (hentities : G.entities = F.entities) (hfull : G.isFull = F.isFull)
    (hsize : G.getCustomEmojiSize = F.getCustomEmojiSize) (hpath : G.getCustomEmojiPath = F.getCustomEmojiPath)
    (h : F.SameParts G.plainText F.plainText) : G.entitiesInsertions = F.entitiesInsertions := by
  rw [entitiesInsertions, entitiesInsertions, hentities]
  refine List.flatMap_congr fun ⟨entity, i⟩ hmem => ?_
  have htags := (entity.getHtmlTags_eq_iff G.plainText F.plainText i).mpr
    (h entity (List.mem_of_getElem? (List.mem_zipIdx_iff_getElem?.mp hmem)))
  have hreplacement : entity.getReplacement G = entity.getReplacement F := by
    unfold PositionedFormattedTextEntity.getReplacement
    rw [hfull, hsize, hpath]
  simp only [entityInsertions, htags, hreplacement]

/-- How many insertions an entity has does not depend on the text. -/
theorem length_entityInsertions (F G : FormattedText)
    (h : ∀ entity : PositionedFormattedTextEntity, entity.getReplacement G = entity.getReplacement F)
    (entity : PositionedFormattedTextEntity) (i : Nat) :
    (G.entityInsertions entity i).length = (F.entityInsertions entity i).length := by
  have htags := entity.getHtmlTags_eq_nil_iff G.plainText F.plainText i
  simp only [entityInsertions, h, List.length_append]
  congr 1
  by_cases hempty : (entity.getHtmlTags F.plainText i).1 = [] ∧ (entity.getHtmlTags F.plainText i).2 = []
  · rw [if_pos hempty, if_pos (htags.mpr hempty)]
  · rw [if_neg hempty, if_neg (mt htags.mp hempty)]
    rfl

/-! ### Parsing -/

theorem replaceAll_eq (prefixOffset : Int) (insertions : List Insertion) (text : QString) :
    replaceAll prefixOffset insertions text = applyAll (insertions.map (Splice.shift prefixOffset)) text := by
  rw [replaceAll, applyAll, List.foldl_map]
  rfl

theorem parse_of_nil (S : StdSort) (h : F.entitiesInsertions = []) :
    F.parse S true = getPlainEscapedFor F.plainText := by
  rw [parse, if_pos h, if_pos rfl, getPlainEscaped]

theorem parse_of_ne_nil (S : StdSort) (h : F.entitiesInsertions ≠ []) (escape : Bool) :
    F.parse S escape =
      applyAll ((S.sort (F.insertions escape)).map (Splice.shift F.prefixOffset)) F.plainText := by
  rw [parse, if_neg h, replaceAll_eq]

theorem map_shift_zero (insertions : List Insertion) : insertions.map (Splice.shift 0) = insertions := by
  rw [List.map_congr_left fun e _ => Splice.shift_zero e, List.map_id']

/-- What a text may be parsed to: every order that the comparator allows is that of some sort. -/
theorem exists_parse_iff (h : F.entitiesInsertions ≠ []) (escape : Bool) (out : QString) :
    (∃ S : StdSort, F.parse S escape = out) ↔
      ∃ sorted : List Insertion, sorted.Perm (F.insertions escape) ∧ Descending sorted ∧
        applyAll (sorted.map (Splice.shift F.prefixOffset)) F.plainText = out := by
  constructor
  · rintro ⟨S, rfl⟩
    exact ⟨S.sort (F.insertions escape), S.perm _, S.ordered _, (parse_of_ne_nil S h escape).symm⟩
  · rintro ⟨sorted, hperm, hsorted, rfl⟩
    obtain ⟨S, hS⟩ := Sorting.exists_sort_eq stableSort hperm hsorted
    exact ⟨S, by rw [parse_of_ne_nil S h, hS]⟩

/-- Insertions with different ends are made in one order by every sort. -/
theorem parse_eq_of_perm {sorted : List Insertion} (S : StdSort) (h : F.entitiesInsertions ≠ []) {escape : Bool}
    (hperm : (F.insertions escape).Perm sorted) (hsorted : sorted.Pairwise fun a b => b.stop < a.stop) :
    F.parse S escape = applyAll (sorted.map (Splice.shift F.prefixOffset)) F.plainText := by
  rw [parse_of_ne_nil S h, eq_of_descending ((S.perm _).trans hperm) (S.ordered _) hsorted]

/-- The insertions of the entities and the escapes of the atoms. -/
theorem insertions_perm (F : FormattedText) :
    (F.insertions true).Perm (F.entitiesInsertions ++ escapesOf 0 (atoms F.plainText)) := by
  rw [insertions, if_pos rfl]
  exact (escapeInsertions_perm 0 F.plainText).append_left _

theorem grows_of_mem_insertions (hF : F.NoImages) {e : Insertion} (h : e ∈ F.insertions true) : e.Grows := by
  rcases List.mem_append.mp ((insertions_perm F).mem_iff.mp h) with h | h
  · exact grows_of_mem_entitiesInsertions hF h
  · exact (grows_of_mem_escapesOf h).1

end FormattedText

end YaqtLib
