import YaqtLib.ParsedText

/-! Markup from a sender. Every unit of a parsed text is marked with where it comes from: the sender of the message, for
its text and for the targets of its links, or the client, for tags, replacements and escapes. A unit of the sender that
a reader would take for markup is escaped in the text itself, since its escape is made when it still stands where it
was found; nothing escapes it in the target of a link. -/

namespace YaqtLib

open TdConst QString Splices

inductive Origin where
  | sender
  | client
deriving DecidableEq

abbrev Marked := QChar × Origin

/-- The units that begin or end a tag or an attribute. -/
def IsMarkup (c : QChar) : Prop := c = lt ∨ c = gt ∨ c = quot

instance (c : QChar) : Decidable (IsMarkup c) := inferInstanceAs (Decidable (_ ∨ _))

/-- A unit of the sender that a reader takes for markup. -/
def Injected (u : Marked) : Prop := u.2 = .sender ∧ IsMarkup u.1

instance (u : Marked) : Decidable (Injected u) := inferInstanceAs (Decidable (_ ∧ _))

def mark (origin : Origin) (text : QString) : List Marked := text.map fun c => (c, origin)

theorem map_fst_mark (origin : Origin) (text : QString) : (mark origin text).map Prod.fst = text := by
  rw [mark, List.map_map]
  exact List.map_id' text

theorem not_injected_of_mem_client {text : QString} {u : Marked} (h : u ∈ mark .client text) : ¬ Injected u := by
  obtain ⟨c, -, rfl⟩ := List.mem_map.mp h
  exact fun hinjected => nomatch hinjected.1

theorem exists_injected_iff (text : QString) : (∃ u ∈ mark .sender text, Injected u) ↔ ∃ c ∈ text, IsMarkup c := by
  constructor
  · rintro ⟨u, hu, -, hmarkup⟩
    obtain ⟨c, hc, rfl⟩ := List.mem_map.mp hu
    exact ⟨c, hc, hmarkup⟩
  · rintro ⟨c, hc, hmarkup⟩
    exact ⟨(c, .sender), List.mem_map_of_mem hc, rfl, hmarkup⟩

namespace PositionedFormattedTextEntity

/-- The scheme and the target of the link of an entity. -/
def link (entity : PositionedFormattedTextEntity) (fullText : QString) : Option (QString × QString) :=
  match entity.type with
  | .url => some ([], entity.getTextPart fullText)
  | .textUrl => some ([], ofString entity.typeData.toStr)
  | .phoneNumber => some (ofString "tel:", entity.getTextPart fullText)
  | .emailAddress => some (ofString "mailto:", entity.getTextPart fullText)
  | .botCommand => some (ofString "botCommand://", entity.getTextPart fullText)
  | .mention => some (ofString "user://", entity.getTextPart fullText)
  | .mentionName => some (ofString "userId://", ofString entity.typeData.toStr)
  | .hashtag => some (ofString "hashtag://", entity.getTextPart fullText)
  | .cashtag => some (ofString "cashtag://", entity.getTextPart fullText)
  | _ => none

theorem getHtmlTags_of_link {entity : PositionedFormattedTextEntity} {fullText scheme target : QString}
    (h : entity.link fullText = some (scheme, target)) (index : Nat) :
    entity.getHtmlTags fullText index = linkTags scheme target := by
  unfold link at h
  split at h
  case h_10 => cases h
  all_goals
    rename_i htype
    obtain ⟨rfl, rfl⟩ := Prod.mk.inj (Option.some.inj h)
    rw [getHtmlTags, htype]

/-- The opening tag; the target of a link is the sender's. -/
def markedOpening (entity : PositionedFormattedTextEntity) (fullText : QString) (index : Nat) : List Marked :=
  match entity.link fullText with
  | some (scheme, target) =>
      mark .client (ofString "<a href=\"" ++ scheme) ++ mark .sender target ++ mark .client (ofString "\">")
  | none => mark .client (entity.getHtmlTags fullText index).1

theorem map_fst_markedOpening (entity : PositionedFormattedTextEntity) (fullText : QString) (index : Nat) :
    (entity.markedOpening fullText index).map Prod.fst = (entity.getHtmlTags fullText index).1 := by
  unfold markedOpening
  split
  · rename_i scheme target hlink
    rw [getHtmlTags_of_link hlink, List.map_append, List.map_append, map_fst_mark, map_fst_mark, map_fst_mark, linkTags]
  · exact map_fst_mark _ _

/-- The target is the part of the text or the data of the entity. -/
theorem of_link {entity : PositionedFormattedTextEntity} {fullText scheme target : QString}
    (h : entity.link fullText = some (scheme, target)) :
    entity.readsText = true ∧ target = entity.getTextPart fullText ∨
      (entity.type = .textUrl ∨ entity.type = .mentionName) ∧ target = ofString entity.typeData.toStr := by
  unfold link at h
  split at h
  case h_10 => cases h
  all_goals
    rename_i htype
    obtain ⟨rfl, rfl⟩ := Prod.mk.inj (Option.some.inj h)
    simp [readsText, htype]

theorem exists_link {entity : PositionedFormattedTextEntity} (h : entity.readsText = true) (fullText : QString) :
    ∃ scheme, entity.link fullText = some (scheme, entity.getTextPart fullText) := by
  unfold readsText at h
  split at h
  case h_8 => exact absurd h Bool.false_ne_true
  all_goals
    rename_i htype
    exact ⟨_, by rw [link, htype]⟩

/-- The data of such an entity is a number, when it was made of a map. -/
theorem typeData_ofMap {entity : QVariantMap} (h : (ofMap entity).type = .textUrl ∨ (ofMap entity).type = .mentionName) :
    ∃ n, (ofMap entity).typeData = .longLong n := by
  refine ⟨((entity.value TYPE).toMap.value "custom_emoji_id").toLongLong, ?_⟩
  have htype : (ofMap entity).type = EntityType.ofString ((entity.value TYPE).toMap.value TYPE_).toStr := rfl
  have hdata : (ofMap entity).typeData = (FormattedTextEntity.ofMap (entity.value TYPE).toMap).typeData := rfl
  rw [htype] at h
  rw [hdata]
  rcases h with h | h
  · simp [FormattedTextEntity.ofMap, h]
  · simp [FormattedTextEntity.ofMap, h]

end PositionedFormattedTextEntity

namespace FormattedText

def markClient (e : Insertion) : Splice Marked := ⟨e.offset, mark .client e.insertion, e.removeLength⟩

/-- The insertions of an entity with the origin of their units. -/
def markedEntityInsertions (F : FormattedText) (entity : PositionedFormattedTextEntity) (i : Nat) :
    List (Splice Marked) :=
  let replacement := entity.getReplacement F
  let htmlTags := entity.getHtmlTags F.plainText i
  (if replacement ≠ [] then [⟨entity.offset, mark .client replacement, entity.length⟩] else []) ++
    if htmlTags.1 = [] ∧ htmlTags.2 = [] then []
    else
      [⟨entity.offset, entity.markedOpening F.plainText i, 0⟩,
        ⟨entity.offset + entity.length, mark .client htmlTags.2, 0⟩]

def markedInsertions (F : FormattedText) : List (Splice Marked) :=
  (F.entities.zipIdx.flatMap fun entity => F.markedEntityInsertions entity.1 entity.2) ++
    (escapeInsertions 0 F.plainText).map markClient

/-- The escaped text with the origin of its units. -/
def markedEscaped (text : QString) : List Marked :=
  (atoms text).flatMap fun atom =>
    if escapeAtom atom = atom then mark .sender atom else mark .client (escapeAtom atom)

/-- The parsed text with the origin of its units, for the order that the sort leaves. -/
def MarkedParse (S : StdSort) (F : FormattedText) (marked : List Marked) : Prop :=
  if F.entitiesInsertions = [] then marked = markedEscaped F.plainText
  else
    ∃ sorted : List (Splice Marked), sorted.Perm F.markedInsertions ∧
      sorted.map (Splice.map Prod.fst) = S.sort (F.insertions true) ∧
      marked = applyAll (sorted.map (Splice.shift F.prefixOffset)) (mark .sender F.plainText)

/-- No markup in the parsed text comes from the sender. -/
def NoInjection (S : StdSort) (F : FormattedText) : Prop :=
  ∀ marked, MarkedParse S F marked → ∀ u ∈ marked, ¬ Injected u

/-! ### The marks change nothing -/

theorem map_markedEntityInsertions (F : FormattedText) (entity : PositionedFormattedTextEntity) (i : Nat) :
    (F.markedEntityInsertions entity i).map (Splice.map Prod.fst) = F.entityInsertions entity i := by
  rw [markedEntityInsertions, entityInsertions, List.map_append]
  congr 1
  · split_ifs
    · rw [List.map_singleton, Splice.map, map_fst_mark]
    · rfl
  · split_ifs
    · rfl
    · rw [List.map_cons, List.map_singleton, Splice.map, Splice.map, map_fst_mark,
        PositionedFormattedTextEntity.map_fst_markedOpening]

theorem map_markedInsertions (F : FormattedText) :
    F.markedInsertions.map (Splice.map Prod.fst) = F.insertions true := by
  have hclient : Splice.map Prod.fst ∘ markClient = id := funext fun e => by
    rw [Function.comp_apply, markClient, Splice.map, map_fst_mark, id]
  rw [markedInsertions, insertions, if_pos rfl, List.map_append, List.map_map, hclient, List.map_id, List.map_flatMap,
    entitiesInsertions]
  simp only [map_markedEntityInsertions]

theorem map_markedEscaped (text : QString) : (markedEscaped text).map Prod.fst = getPlainEscapedFor text := by
  rw [markedEscaped, getPlainEscapedFor_eq, List.map_flatMap]
  refine List.flatMap_congr fun atom _ => ?_
  split_ifs with h
  · rw [map_fst_mark, h]
  · rw [map_fst_mark]

variable {S : StdSort} {F : FormattedText}

/-- Without the marks it is the parsed text. -/
theorem map_fst_of_markedParse {marked : List Marked} (h : MarkedParse S F marked) :
    marked.map Prod.fst = F.parse S true := by
  unfold MarkedParse at h
  split_ifs at h with hnil
  · rw [h, map_markedEscaped, parse_of_nil S hnil]
  · obtain ⟨sorted, -, hsorted, rfl⟩ := h
    have hshift : (sorted.map (Splice.shift F.prefixOffset)).map (Splice.map Prod.fst) =
        (sorted.map (Splice.map Prod.fst)).map (Splice.shift F.prefixOffset) := by
      rw [List.map_map, List.map_map]
      rfl
    rw [map_applyAll, map_fst_mark, hshift, hsorted, parse_of_ne_nil S hnil]

/-- A rearranged image of a list is the image of the rearranged list. -/
theorem exists_perm_map {α β : Type} {f : α → β} {l : List β} {m : List α} (h : l.Perm (m.map f)) :
    ∃ m' : List α, m'.Perm m ∧ m'.map f = l := by
  obtain ⟨m', hm', hperm⟩ := List.perm_comp_forall₂ h
    (List.forall₂_map_left_iff.mpr (List.forall₂_same.mpr fun x _ => rfl) : List.Forall₂ (fun b a => b = f a) (m.map f) m)
  refine ⟨m', hperm, ?_⟩
  have := List.forall₂_eq_eq_eq ▸ List.forall₂_map_right_iff.mpr hm'
  exact this.symm

theorem exists_markedParse (S : StdSort) (F : FormattedText) : ∃ marked, MarkedParse S F marked := by
  unfold MarkedParse
  split_ifs with hnil
  · exact ⟨_, rfl⟩
  · have hperm := S.perm (F.insertions true)
    rw [← map_markedInsertions] at hperm
    obtain ⟨sorted, hsorted, hmap⟩ := exists_perm_map hperm
    exact ⟨_, sorted, hsorted, by rw [hmap, map_markedInsertions], rfl⟩

/-! ### Where markup of the sender can come from -/

/-- No target of a link that is put into the text holds markup. -/
def TargetsClean (F : FormattedText) : Prop :=
  ∀ entity ∈ F.entities, 0 ≤ entity.offset → ∀ scheme target, entity.link F.plainText = some (scheme, target) →
    ∀ c ∈ target, ¬ IsMarkup c

theorem mem_addInsertionsToFor {c : QChar} {text : QString} {j : Nat} (h : text[j]? = some c) (replacement : QString)
    (i : Nat) : ⟨(i + j : Nat), replacement, 1⟩ ∈ addInsertionsToFor c replacement i text := by
  induction text generalizing i j with
  | nil => cases h
  | cons d text ih =>
      rw [addInsertionsToFor_cons]
      cases j with
      | zero =>
          rw [if_pos (Option.some.inj h)]
          exact List.mem_append_left _ (List.mem_singleton.mpr rfl)
      | succ j =>
          have hmem := ih h (i + 1)
          rw [Nat.add_assoc, Nat.add_comm 1 j] at hmem
          exact List.mem_append_right _ hmem

/-- Each markup unit of the text has its own escape. -/
theorem exists_escape_of_isMarkup {text : QString} {j : Nat} {c : QChar} (h : text[j]? = some c) (hc : IsMarkup c) :
    ∃ e ∈ escapeInsertions 0 text, e.offset = j ∧ 0 < e.removeLength := by
  simp only [escapeInsertions, List.mem_append]
  rcases hc with rfl | rfl | rfl
  · have hmem := mem_addInsertionsToFor h (ofString "&lt;") 0
    rw [Nat.zero_add] at hmem
    exact ⟨_, Or.inl (Or.inl (Or.inl (Or.inl hmem))), rfl, Int.one_pos⟩
  · have hmem := mem_addInsertionsToFor h (ofString "&gt;") 0
    rw [Nat.zero_add] at hmem
    exact ⟨_, Or.inl (Or.inl (Or.inl (Or.inr hmem))), rfl, Int.one_pos⟩
  · have hmem := mem_addInsertionsToFor h (ofString "&quot;") 0
    rw [Nat.zero_add] at hmem
    exact ⟨_, Or.inl (Or.inr hmem), rfl, Int.one_pos⟩

/-- Only the opening tag of a link puts units of the sender in. -/
theorem of_injected_of_mem_markedInsertions {e : Splice Marked} (he : e ∈ F.markedInsertions) {u : Marked}
    (hu : u ∈ e.insertion) (hinjected : Injected u) :
    ∃ entity ∈ F.entities, e.offset = entity.offset ∧
      ∃ scheme target, entity.link F.plainText = some (scheme, target) ∧ ∃ c ∈ target, IsMarkup c := by
  rcases List.mem_append.mp he with he | he
  · obtain ⟨⟨entity, i⟩, hmem, he⟩ := List.mem_flatMap.mp he
    have hmem : entity ∈ F.entities := List.mem_of_getElem? (List.mem_zipIdx_iff_getElem?.mp hmem)
    rw [markedEntityInsertions, List.mem_append] at he
    rcases he with he | he
    · split_ifs at he
      · rw [List.mem_singleton.mp he] at hu
        exact absurd hinjected (not_injected_of_mem_client hu)
      · exact absurd he List.not_mem_nil
    · split_ifs at he
      · exact absurd he List.not_mem_nil
      · rcases List.mem_cons.mp he with rfl | he
        · refine ⟨entity, hmem, rfl, ?_⟩
          dsimp only at hu
          unfold PositionedFormattedTextEntity.markedOpening at hu
          split at hu
          · rename_i scheme target hlink
            refine ⟨scheme, target, hlink, ?_⟩
            rw [List.mem_append, List.mem_append] at hu
            rcases hu with (hu | hu) | hu
            · exact absurd hinjected (not_injected_of_mem_client hu)
            · exact (exists_injected_iff target).mp ⟨u, hu, hinjected⟩
            · exact absurd hinjected (not_injected_of_mem_client hu)
          · exact absurd hinjected (not_injected_of_mem_client hu)
        · rw [List.mem_singleton.mp he] at hu
          exact absurd hinjected (not_injected_of_mem_client hu)
  · obtain ⟨escape, -, rfl⟩ := List.mem_map.mp he
    exact absurd hinjected (not_injected_of_mem_client hu)

theorem not_injected_of_mem_markedEscaped {text : QString} {u : Marked} (h : u ∈ markedEscaped text) : ¬ Injected u := by
  obtain ⟨atom, hatom, hu⟩ := List.mem_flatMap.mp h
  split_ifs at hu with hself
  · obtain ⟨c, hc, rfl⟩ := List.mem_map.mp hu
    rintro ⟨-, hmarkup⟩
    rcases eq_of_mem_atoms hatom with rfl | ⟨d, rfl⟩
    · exact absurd hself (by decide)
    · rw [List.mem_singleton.mp hc] at hmarkup
      rcases hmarkup with rfl | rfl | rfl
      · exact absurd hself (by decide)
      · exact absurd hself (by decide)
      · exact absurd hself (by decide)
  · exact not_injected_of_mem_client hu

/-- Whatever the sort does with insertions that tie, in full texts too. -/
theorem noInjection_of_targetsClean (S : StdSort) (hstarts : F.prefixOffset = 0) (h : F.TargetsClean) :
    NoInjection S F := by
  intro marked hmarked u hu
  unfold MarkedParse at hmarked
  split_ifs at hmarked with hnil
  · rw [hmarked] at hu
    exact not_injected_of_mem_markedEscaped hu
  · obtain ⟨sorted, hperm, hsorted, rfl⟩ := hmarked
    have hshift : sorted.map (Splice.shift 0) = sorted := by
      rw [List.map_congr_left fun e _ => Splice.shift_zero e, List.map_id']
    rw [hstarts, hshift] at hu
    have hdescending : Descending sorted := descending_map_iff.mp (hsorted ▸ S.ordered (F.insertions true))
    refine not_mem_applyAll hdescending ?_ ?_ u hu
    · intro e he h₀ x hx hinjected
      obtain ⟨entity, hmem, hoffset, scheme, target, hlink, c, hc, hmarkup⟩ :=
        of_injected_of_mem_markedInsertions (hperm.mem_iff.mp he) hx hinjected
      exact h entity hmem (hoffset ▸ h₀) scheme target hlink c hc hmarkup
    · intro j x hx hinjected
      rw [mark, List.getElem?_map, Option.map_eq_some_iff] at hx
      obtain ⟨c, hc, rfl⟩ := hx
      obtain ⟨e, he, hoffset, hlength⟩ := exists_escape_of_isMarkup hc hinjected.2
      exact ⟨markClient e, hperm.mem_iff.mpr (List.mem_append_right _ (List.mem_map_of_mem he)), hoffset, hlength⟩

/-- A number holds no markup. -/
theorem not_isMarkup_of_mem_number (n : Int) : ∀ c ∈ ofString (toString n), ¬ IsMarkup c := by
  intro c hc
  obtain ⟨-, hhigh⟩ := bounds_of_mem_number hc
  rintro (rfl | rfl | rfl)
  · have : lt.toNat = 0x3C := rfl
    omega
  · have : gt.toNat = 0x3E := rfl
    omega
  · obtain ⟨hlow, -⟩ := bounds_of_mem_number hc
    have : quot.toNat = 0x22 := rfl
    omega

/-- Markup in a target that is put into the text stays there. -/
theorem not_noInjection_of_target (S : StdSort) {text : QString} {entities : List PositionedFormattedTextEntity}
    {entity : PositionedFormattedTextEntity} (hmem : entity ∈ entities) (h₀ : 0 ≤ entity.offset)
    (hoffset : entity.offset ≤ text.length) {scheme target : QString} (hlink : entity.link text = some (scheme, target))
    {c : QChar} (hc : c ∈ target) (hmarkup : IsMarkup c) : ¬ NoInjection S (ofText text entities) := by
  intro hno
  obtain ⟨i, hget⟩ := List.getElem?_of_mem hmem
  have htags : ¬ ((entity.getHtmlTags text i).1 = [] ∧ (entity.getHtmlTags text i).2 = []) := by
    rw [PositionedFormattedTextEntity.getHtmlTags_of_link hlink]
    exact fun hnil => absurd hnil.2 (by decide : PositionedFormattedTextEntity.A_TAG_END ≠ [])
  have hopening : ⟨entity.offset, entity.markedOpening text i, 0⟩ ∈ (ofText text entities).markedInsertions := by
    refine List.mem_append_left _ (List.mem_flatMap.mpr ⟨(entity, i), List.mem_zipIdx_iff_getElem?.mpr hget, ?_⟩)
    rw [markedEntityInsertions]
    refine List.mem_append_right _ ?_
    rw [if_neg htags]
    exact List.mem_cons_self
  have hne : (ofText text entities).entitiesInsertions ≠ [] := by
    refine List.ne_nil_of_mem (mem_entitiesInsertions.mpr ⟨entity, i, hget, ?_⟩) (a := ⟨entity.offset,
      (entity.getHtmlTags text i).1, 0⟩)
    rw [entityInsertions]
    refine List.mem_append_right _ ?_
    rw [if_neg htags]
    exact List.mem_cons_self
  obtain ⟨marked, hmarked⟩ := exists_markedParse S (ofText text entities)
  have hclean := hno marked hmarked
  unfold MarkedParse at hmarked
  rw [if_neg hne] at hmarked
  obtain ⟨sorted, hperm, hsorted, rfl⟩ := hmarked
  have hshift : sorted.map (Splice.shift 0) = sorted := by
    rw [List.map_congr_left fun e _ => Splice.shift_zero e, List.map_id']
  have hgrows : ∀ e ∈ sorted, e.Grows := by
    intro e he
    have hmap : e.map Prod.fst ∈ (ofText text entities).insertions true := by
      rw [← map_markedInsertions]
      exact List.mem_map_of_mem (hperm.mem_iff.mp he)
    exact (grows_map_iff e).mp (grows_of_mem_insertions (noImages_ofText text entities) hmap)
  have hdescending : Descending sorted :=
    descending_map_iff.mp (hsorted ▸ S.ordered ((ofText text entities).insertions true))
  have htarget : (c, Origin.sender) ∈ entity.markedOpening text i := by
    unfold PositionedFormattedTextEntity.markedOpening
    rw [hlink]
    exact List.mem_append_left _ (List.mem_append_right _ (List.mem_map_of_mem hc))
  have hlength : (entity.offset : Int) ≤ (mark .sender text).length := by
    rw [mark, List.length_map]
    exact hoffset
  rw [hshift] at hclean
  exact hclean _ (mem_applyAll_of_mem_insertion hgrows hdescending (hperm.mem_iff.mpr hopening) rfl h₀ hlength htarget)
    ⟨rfl, hmarkup⟩

/-- For every sort, every text and every list of entities as they come from TDLib. -/
theorem noInjection_iff (S : StdSort) (text : QString) (entities : List QVariantMap) :
    NoInjection S (ofText text (entities.map PositionedFormattedTextEntity.ofMap)) ↔
      ∀ entity ∈ entities.map PositionedFormattedTextEntity.ofMap, entity.readsText = true → 0 ≤ entity.offset →
        ∀ c ∈ entity.getTextPart text, ¬ IsMarkup c := by
  constructor
  · intro hno entity hmem hreads h₀ c hc hmarkup
    obtain ⟨scheme, hlink⟩ := PositionedFormattedTextEntity.exists_link hreads text
    have hoffset : entity.offset ≤ text.length := by
      by_contra hlt
      rw [PositionedFormattedTextEntity.getTextPart, mid, if_pos (by omega)] at hc
      exact List.not_mem_nil hc
    exact not_noInjection_of_target S hmem h₀ hoffset hlink hc hmarkup hno
  · intro h
    refine noInjection_of_targetsClean S rfl fun entity hmem h₀ scheme target hlink => ?_
    rcases PositionedFormattedTextEntity.of_link hlink with ⟨hreads, rfl⟩ | ⟨htype, rfl⟩
    · exact h entity hmem hreads h₀
    · obtain ⟨raw, -, rfl⟩ := List.mem_map.mp hmem
      obtain ⟨n, hn⟩ := PositionedFormattedTextEntity.typeData_ofMap htype
      rw [hn]
      exact not_isMarkup_of_mem_number n

/-- An address over a text that ends the attribute and the tag. -/
def urlMap : QVariantMap :=
  [(TYPE, .map [(TYPE_, .string "textEntityTypeUrl")]), ("offset", .longLong 0), ("length", .longLong 4)]

/-- The text of an address stands in its tag as the sender wrote it. -/
theorem not_noInjection :
    ¬ ∀ (S : StdSort) (text : QString) (entities : List QVariantMap),
      NoInjection S (ofText text (entities.map PositionedFormattedTextEntity.ofMap)) := by
  intro h
  have hlink : (PositionedFormattedTextEntity.ofMap urlMap).link (ofString "\"><b") = some ([], ofString "\"><b") := by
    decide
  exact not_noInjection_of_target stableSort List.mem_cons_self (by decide) (by decide) hlink (c := quot) (by decide)
    (by decide) (h stableSort (ofString "\"><b") [urlMap])

end FormattedText

end YaqtLib
