import YaqtLib.FormattedText
import YaqtLib.Substitutions

/-! Mentions in a typed text (`utilities.cpp`): each match of the expression for them is replaced by its plain text,
and becomes an entity of the text that is sent. -/

namespace YaqtLib

open QString Splices TdConst

namespace Utilities

structure FormattedTextReplacement where
  startIndex : Int
  length : Int
  type : QVariantMap
  plainText : QString

/-- What the expression has matched, with the groups it names. -/
structure RegularExpressionMatch where
  capturedStart : Int
  capturedLength : Int
  type : String
  text : QString

/-- `newFormattedText`; a text without entities has no list of them. -/
structure NewFormattedText where
  text : QString
  entities : Option QVariantList

def newFormattedText (text : QString) (entities : QVariantList) : NewFormattedText :=
  { text := text, entities := if entities = [] then none else some entities }

def replacementsSorter (a b : FormattedTextReplacement) : Bool := a.startIndex < b.startIndex

/-- The matches of an expression, which an engine finds in the text. -/
def findFormattedTextReplacements (globalMatch : QString → List RegularExpressionMatch) (text : QString)
    (entityType typeParameter : String) : List FormattedTextReplacement :=
  (globalMatch text).map fun m =>
    { startIndex := m.capturedStart
      length := m.capturedLength
      type :=
        if typeParameter ≠ "" ∧ m.type ≠ "" then
          QVariantMap.insert [(TYPE_, .string entityType)] typeParameter (.string m.type)
        else [(TYPE_, .string entityType)]
      plainText := m.text }

/-- The entity of a match whose plain text stands at an offset. -/
def entityAt (replacement : FormattedTextReplacement) (offset : Int) : QVariant :=
  .map [("offset", .longLong offset), ("length", .longLong replacement.plainText.length),
    (TYPE, .map replacement.type)]

/-- The variables of the loop. -/
structure Replacing where
  text : QString
  entities : QVariantList
  offsetCorrection : Int

def replaceOne (state : Replacing) (replacement : FormattedTextReplacement) : Replacing where
  text := state.text.replace (replacement.startIndex - state.offsetCorrection) replacement.length replacement.plainText
  entities := state.entities ++ [entityAt replacement (replacement.startIndex - state.offsetCorrection)]
  offsetCorrection := state.offsetCorrection + (replacement.length - replacement.plainText.length)

/-- The entities and the new text. -/
def formattedTextEntitiesFromReplacements (stdSort : Sorting replacementsSorter)
    (replacements : List FormattedTextReplacement) (text : QString) : QVariantList × QString :=
  let state := (stdSort.sort replacements).foldl replaceOne { text := text, entities := [], offsetCorrection := 0 }
  (state.entities, state.text)

def enhanceInputText (stdSort : Sorting replacementsSorter) (globalMatch : QString → List RegularExpressionMatch)
    (originalText : QString) : NewFormattedText :=
  let replacements := findFormattedTextReplacements globalMatch originalText "textEntityTypeMentionName" USER_ID
  let (entities, text) := formattedTextEntitiesFromReplacements stdSort replacements originalText
  newFormattedText text entities

/-! ### What is to come out -/

namespace FormattedTextReplacement

def stop (r : FormattedTextReplacement) : Int := r.startIndex + r.length

def toSplice (r : FormattedTextReplacement) : Splice QChar := ⟨r.startIndex, r.plainText, r.length⟩

/-- The match lies in the text. -/
structure Within (r : FormattedTextReplacement) (text : QString) : Prop where
  nonneg : 0 ≤ r.startIndex
  length : 0 ≤ r.length
  stop : r.stop ≤ text.length

/-- The match comes before the other one and ends before it begins. -/
def Precedes (a b : FormattedTextReplacement) : Prop := a.startIndex < b.startIndex ∧ a.stop ≤ b.startIndex

/-- The matches do not overlap. -/
def Apart (a b : FormattedTextReplacement) : Prop := a.Precedes b ∨ b.Precedes a

/-- Matches that have a unit do not overlap if one ends before the other begins. -/
theorem apart_of_pos {a b : FormattedTextReplacement} (ha : 0 < a.length) (hb : 0 < b.length)
    (h : a.stop ≤ b.startIndex ∨ b.stop ≤ a.startIndex) : a.Apart b := by
  unfold Apart Precedes
  unfold stop at h ⊢
  omega

end FormattedTextReplacement

open FormattedTextReplacement

def offsetOf (entity : QVariant) : Int := (entity.toMap.value "offset").toInt

def lengthOf (entity : QVariant) : Int := (entity.toMap.value "length").toInt

/-- The entity spans the plain text of the match in the new text, and has the type of the match. -/
structure EntityOf (newText : QString) (r : FormattedTextReplacement) (entity : QVariant) : Prop where
  stands : StandsAt newText r.toSplice (offsetOf entity)
  length : lengthOf entity = r.plainText.length
  type : entity.toMap.value TYPE = .map r.type

/-- The text with each of the matches, in their order, replaced by its plain text. -/
def replaced (sorted : List FormattedTextReplacement) (text : QString) : QString :=
  substitute 0 (sorted.map toSplice) text

/-- The new text is the old one with each match replaced, and there is one entity a match, one after the other. -/
structure Enhances (sorted : List FormattedTextReplacement) (text newText : QString) (entities : QVariantList) :
    Prop where
  result : newText = replaced sorted text
  each : List.Forall₂ (EntityOf newText) sorted entities
  ascending : entities.Pairwise fun a b => offsetOf a + lengthOf a ≤ offsetOf b

/-! ### The loop -/

/-- The loop makes splices with corrected places. -/
theorem foldl_replaceOne (sorted : List FormattedTextReplacement) (state : Replacing) :
    (sorted.foldl replaceOne state).text =
        applyForward state.offsetCorrection (sorted.map toSplice) state.text ∧
      (sorted.foldl replaceOne state).entities =
        state.entities ++ List.zipWith entityAt sorted (places state.offsetCorrection (sorted.map toSplice)) := by
  induction sorted generalizing state with
  | nil => exact ⟨rfl, (List.append_nil _).symm⟩
  | cons r sorted ih =>
      obtain ⟨htext, hentities⟩ := ih (replaceOne state r)
      have hcorrection : (replaceOne state r).offsetCorrection = state.offsetCorrection - r.toSplice.gain := by
        change state.offsetCorrection + (r.length - r.plainText.length) =
          state.offsetCorrection - (r.plainText.length - r.length)
        omega
      rw [hcorrection] at htext hentities
      refine ⟨htext, hentities.trans ?_⟩
      rw [List.map_cons, places, List.zipWith_cons_cons, List.append_cons]
      rfl

/-- Sorted matches that do not overlap are splices one after the other. -/
theorem ascending_toSplice {sorted : List FormattedTextReplacement} {text : QString}
    (hwithin : ∀ r ∈ sorted, r.Within text) (hsorted : sorted.Pairwise Precedes) {p : Int}
    (hp : ∀ r ∈ sorted, p ≤ r.startIndex) (hstop : p ≤ text.length) :
    Splices.Ascending p (sorted.map toSplice) text.length := by
  induction sorted generalizing p with
  | nil => exact hstop
  | cons r sorted ih =>
      obtain ⟨hfirst, hrest⟩ := List.pairwise_cons.mp hsorted
      have hr := hwithin r List.mem_cons_self
      refine ⟨hp r List.mem_cons_self, hr.length, ?_⟩
      exact ih (fun r' hr' => hwithin r' (List.mem_cons_of_mem _ hr')) hrest (fun r' hr' => (hfirst r' hr').2) hr.stop

/-- What is sorted by its start is in order, if nothing overlaps. -/
theorem pairwise_precedes_sort (S : Sorting replacementsSorter) {replacements : List FormattedTextReplacement}
    (hapart : replacements.Pairwise Apart) : (S.sort replacements).Pairwise Precedes := by
  have hsymm : ∀ {a b : FormattedTextReplacement}, a.Apart b → b.Apart a := Or.symm
  have happart := ((S.perm replacements).pairwise_iff hsymm).mpr hapart
  refine ((S.ordered replacements).and happart).imp fun {a b} h => ?_
  have hle : ¬ b.startIndex < a.startIndex := of_decide_eq_false h.1
  exact h.2.resolve_right fun hprecedes => hle hprecedes.1

/-- The entities of plain texts that stand at their places. -/
theorem forall₂_entityAt {newText : QString} {sorted : List FormattedTextReplacement} {offsets : List Int}
    (h : List.Forall₂ (StandsAt newText) (sorted.map toSplice) offsets) :
    List.Forall₂ (EntityOf newText) sorted (List.zipWith entityAt sorted offsets) := by
  induction sorted generalizing offsets with
  | nil => exact List.Forall₂.nil
  | cons r sorted ih =>
      cases offsets with
      | nil => cases h
      | cons offset offsets =>
          rw [List.map_cons, List.forall₂_cons] at h
          exact List.Forall₂.cons ⟨h.1, rfl, rfl⟩ (ih h.2)

theorem pairwise_entityAt {sorted : List FormattedTextReplacement} {offsets : List Int}
    (h : ((sorted.map toSplice).zip offsets).Pairwise fun a b => a.2 + (a.1.insertion.length : Int) ≤ b.2) :
    (List.zipWith entityAt sorted offsets).Pairwise fun a b => offsetOf a + lengthOf a ≤ offsetOf b := by
  rw [List.zip_map_left, List.pairwise_map] at h
  rw [← List.map_uncurry_zip_eq_zipWith, List.pairwise_map]
  exact h

theorem enhances_of_precedes {sorted : List FormattedTextReplacement} {text : QString}
    (hwithin : ∀ r ∈ sorted, r.Within text) (hsorted : sorted.Pairwise Precedes) :
    Enhances sorted text (sorted.foldl replaceOne ⟨text, [], 0⟩).text
      (sorted.foldl replaceOne ⟨text, [], 0⟩).entities := by
  have hascending : Splices.Ascending 0 (sorted.map toSplice) (0 + (text.length : Int)) := by
    rw [Int.zero_add]
    exact ascending_toSplice hwithin hsorted (fun r hr => (hwithin r hr).nonneg) (Int.natCast_nonneg _)
  obtain ⟨htext, hentities⟩ := foldl_replaceOne sorted ⟨text, [], 0⟩
  have hnew : (sorted.foldl replaceOne ⟨text, [], 0⟩).text = replaced sorted text :=
    htext.trans (applyForward_eq hascending [])
  rw [hentities, hnew]
  exact ⟨rfl, forall₂_entityAt (standsAt_places hascending []), pairwise_entityAt (pairwise_places hascending [])⟩

theorem enhances_sort (S : Sorting replacementsSorter) {text : QString} {replacements : List FormattedTextReplacement}
    (hwithin : ∀ r ∈ replacements, r.Within text) (hapart : replacements.Pairwise Apart) :
    Enhances (S.sort replacements) text (formattedTextEntitiesFromReplacements S replacements text).2
      (formattedTextEntitiesFromReplacements S replacements text).1 :=
  enhances_of_precedes (fun r hr => hwithin r (S.mem_sort.mp hr)) (pairwise_precedes_sort S hapart)

/-- **Replacing mentions.** For every sort, every text and all matches in it that do not overlap: put in order, each
match is replaced by its plain text, and becomes the entity that spans it. -/
theorem formattedTextEntitiesFromReplacements_enhances (S : Sorting replacementsSorter) (text : QString)
    (replacements : List FormattedTextReplacement) (hwithin : ∀ r ∈ replacements, r.Within text)
    (hapart : replacements.Pairwise Apart) :
    ∃ sorted : List FormattedTextReplacement, sorted.Perm replacements ∧ sorted.Pairwise Precedes ∧
      Enhances sorted text (formattedTextEntitiesFromReplacements S replacements text).2
        (formattedTextEntitiesFromReplacements S replacements text).1 := by
  have hsorted := pairwise_precedes_sort S hapart
  exact ⟨S.sort replacements, S.perm replacements, hsorted, enhances_sort S hwithin hapart⟩

instance : DecidableRel fun a b : FormattedTextReplacement => replacementsSorter b a = false :=
  fun a b => inferInstanceAs (Decidable (replacementsSorter b a = false))

instance : Std.Total fun a b : FormattedTextReplacement => replacementsSorter b a = false :=
  ⟨fun a b => by
    simp only [replacementsSorter, decide_eq_false_iff_not]
    omega⟩

instance : IsTrans FormattedTextReplacement fun a b => replacementsSorter b a = false :=
  ⟨fun a b c hab hbc => by
    simp only [replacementsSorter, decide_eq_false_iff_not] at hab hbc ⊢
    omega⟩

/-- A sort that keeps matches with the same start in their order. -/
def stableReplacementsSort : Sorting replacementsSorter where
  sort := List.insertionSort fun a b => replacementsSorter b a = false
  perm := List.perm_insertionSort _
  ordered := List.pairwise_insertionSort _

/-- The second of two mentions is listed first. -/
theorem formattedTextEntitiesFromReplacements_enhances_twoMentions :
    ∃ sorted : List FormattedTextReplacement,
      sorted.Perm [⟨6, 7, [(TYPE_, .string "b")], ofString "Eve"⟩, ⟨0, 5, [(TYPE_, .string "a")], ofString "Bo"⟩] ∧
        sorted.Pairwise Precedes ∧
        Enhances sorted (ofString "@5(B) @6(Eve)")
          (formattedTextEntitiesFromReplacements stableReplacementsSort [⟨6, 7, [(TYPE_, .string "b")], ofString "Eve"⟩,
            ⟨0, 5, [(TYPE_, .string "a")], ofString "Bo"⟩] (ofString "@5(B) @6(Eve)")).2
          (formattedTextEntitiesFromReplacements stableReplacementsSort [⟨6, 7, [(TYPE_, .string "b")], ofString "Eve"⟩,
            ⟨0, 5, [(TYPE_, .string "a")], ofString "Bo"⟩] (ofString "@5(B) @6(Eve)")).1 := by
  refine formattedTextEntitiesFromReplacements_enhances stableReplacementsSort _ _ ?_ ?_
  · intro r hr
    simp only [List.mem_cons, List.not_mem_nil, or_false] at hr
    rcases hr with rfl | rfl
    · exact ⟨by decide, by decide, by decide⟩
    · exact ⟨by decide, by decide, by decide⟩
  · refine List.pairwise_pair.mpr ?_
    exact apart_of_pos (by decide) (by decide) (Or.inr (by decide))

/-- A typed text: what is sent is the text with the matches of the expression replaced. -/
theorem enhanceInputText_enhances (S : Sorting replacementsSorter)
    (globalMatch : QString → List RegularExpressionMatch) (originalText : QString)
    (hwithin : ∀ r ∈ findFormattedTextReplacements globalMatch originalText "textEntityTypeMentionName" USER_ID,
      r.Within originalText)
    (hapart : (findFormattedTextReplacements globalMatch originalText "textEntityTypeMentionName" USER_ID).Pairwise
      Apart) :
    Enhances (S.sort (findFormattedTextReplacements globalMatch originalText "textEntityTypeMentionName" USER_ID))
      originalText (enhanceInputText S globalMatch originalText).text
      ((enhanceInputText S globalMatch originalText).entities.getD []) := by
  have henhances := enhances_sort S hwithin hapart
  have hentities : (enhanceInputText S globalMatch originalText).entities.getD [] =
      (formattedTextEntitiesFromReplacements S
        (findFormattedTextReplacements globalMatch originalText "textEntityTypeMentionName" USER_ID)
        originalText).1 := by
    unfold enhanceInputText newFormattedText
    dsimp only
    split_ifs with hnil
    · rw [hnil]
      rfl
    · rfl
  rw [hentities]
  exact henhances

end Utilities

end YaqtLib
