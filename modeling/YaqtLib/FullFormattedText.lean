import YaqtLib.Containers
import YaqtLib.Runs
import YaqtLib.TextTemplates

/-! Texts that are set again. Setting a text from a map leaves two fields as they were: the offset that `argFrom` has
added to, and the ids of emojis, which are cleared only where a wrapper takes the request for them. -/

namespace YaqtLib

open Containers QString Runs

/-- What setting a text from a map writes, and behind which ids. -/
def FormattedText.withText (F G : FormattedText) (ids : List QString) : FormattedText :=
  { F with
    plainText := G.plainText
    entities := G.entities
    needsRichText := G.needsRichText
    customEmojiIds := ids ++ G.customEmojiIds }

namespace FormattedText

/-- A new object of the class. -/
def empty : FormattedText := { plainText := [], entities := [] }

/-- The object of this class that is copied from another one. -/
def sliced (F : FormattedText) : FormattedText :=
  { F with isFull := false, getCustomEmojiSize := 0, getCustomEmojiPath := fun _ => [] }

/-- The ids of the emojis in a text. -/
def emojiIds (text : QVariantMap) (ignore : Ignore) : List QString := (setFormattedText empty text ignore).customEmojiIds

inductive Call where
  | setFormattedText (text : QVariantMap) (ignore : Ignore)
  | argFrom (text : QString)

def step (digits : DigitTable) (F : FormattedText) : Call → FormattedText
  | .setFormattedText text ignore => F.setFormattedText text ignore
  | .argFrom text => F.argFrom digits text

theorem addEntity_withText (ignore : Ignore) (F G : FormattedText) (ids : List QString) (rawEntity : QVariant) :
    addEntity ignore (F.withText G ids) rawEntity = F.withText (addEntity ignore G rawEntity) ids := by
  simp only [addEntity]
  split
  · rfl
  · split
    · rw [withText, withText, List.append_assoc]
    · rfl
    · rfl

theorem setFormattedText_eq (F : FormattedText) (text : QVariantMap) (ignore : Ignore) :
    F.setFormattedText text ignore = F.withText (setFormattedText empty text ignore) F.customEmojiIds := by
  have hfold (rawEntities : QVariantList) (G : FormattedText) :
      rawEntities.foldl (addEntity ignore) (F.withText G F.customEmojiIds) =
        F.withText (rawEntities.foldl (addEntity ignore) G) F.customEmojiIds := by
    induction rawEntities generalizing G with
    | nil => rfl
    | cons rawEntity rawEntities ih => rw [List.foldl_cons, List.foldl_cons, addEntity_withText, ih]
  have hstart : { F with plainText := ofString (text.value TdConst.TEXT).toStr, needsRichText := false, entities := [] } =
      F.withText { empty with
        plainText := ofString (text.value TdConst.TEXT).toStr, needsRichText := false, entities := [] }
        F.customEmojiIds := by
    rw [withText, empty, List.append_nil]
  simp only [setFormattedText]
  split_ifs
  · exact hstart
  · rw [hstart]
    exact hfold _ _

end FormattedText

/-- `FullFormattedText` under a type of wrappers: the data of the text, the paths of the emoji files that are loaded and
the requests for stickers. -/
structure FullFormattedText (W : Type) where
  text : FormattedText
  tdLibWrapper : Option W := none
  customEmojiSize : Int := 20
  customEmojiFiles : QHash Int QString := QHash.empty
  requested : List (List QString) := []

namespace FullFormattedText

variable {W : Type}

/-- The object under the methods that the class overrides. -/
def toFormattedText (G : FullFormattedText W) : FormattedText :=
  { G.text with
    isFull := true
    getCustomEmojiSize := G.customEmojiSize
    getCustomEmojiPath := fun customEmojiId => (G.customEmojiFiles.value customEmojiId).getD [] }

/-- The constructor from a text. -/
def ofText (F : FormattedText) (tdLibWrapper : Option W) : FullFormattedText W := { text := F, tdLibWrapper := tdLibWrapper }

def processCustomEmojis (G : FullFormattedText W) : FullFormattedText W :=
  let G := { G with customEmojiFiles := QHash.empty }
  if G.tdLibWrapper.isSome ∧ G.text.customEmojiIds ≠ [] then
    { G with
      requested := G.requested ++ [G.text.customEmojiIds]
      text := { G.text with customEmojiIds := [] } }
  else G

def setTdLibWrapper [DecidableEq W] (G : FullFormattedText W) (tdLibWrapper : Option W) : FullFormattedText W :=
  if G.tdLibWrapper ≠ tdLibWrapper then processCustomEmojis { G with tdLibWrapper := tdLibWrapper } else G

/-- `setFormattedText` of another text, which copies all its data. -/
def setFormattedTextFrom (G : FullFormattedText W) (formattedText : FormattedText) : FullFormattedText W :=
  processCustomEmojis { G with text := formattedText }

def setFormattedText (G : FullFormattedText W) (text : QVariantMap) (ignore : FormattedText.Ignore) :
    FullFormattedText W :=
  processCustomEmojis { G with text := G.text.setFormattedText text ignore }

def argFrom (digits : DigitTable) (G : FullFormattedText W) (text : QString) : FullFormattedText W :=
  { G with text := G.text.argFrom digits text }

/-- Stickers with the paths of their files; those of a number that is zero or known are left out. -/
def handleCustomEmojiStickersReceived (G : FullFormattedText W) (stickers : List (Int × QString)) :
    FullFormattedText W :=
  stickers.foldl (fun G sticker =>
    if sticker.1 = 0 ∨ G.customEmojiFiles.contains sticker.1 then G
    else { G with customEmojiFiles := G.customEmojiFiles.insert sticker.1 sticker.2 }) G

inductive Call (W : Type) where
  | setFormattedText (text : QVariantMap) (ignore : FormattedText.Ignore)
  | setFormattedTextFrom (formattedText : FormattedText)
  | argFrom (text : QString)
  | setTdLibWrapper (tdLibWrapper : Option W)
  | handleCustomEmojiStickersReceived (stickers : List (Int × QString))

def step [DecidableEq W] (digits : DigitTable) (G : FullFormattedText W) : Call W → FullFormattedText W
  | .setFormattedText text ignore => G.setFormattedText text ignore
  | .setFormattedTextFrom formattedText => G.setFormattedTextFrom formattedText
  | .argFrom text => G.argFrom digits text
  | .setTdLibWrapper tdLibWrapper => G.setTdLibWrapper tdLibWrapper
  | .handleCustomEmojiStickersReceived stickers => G.handleCustomEmojiStickersReceived stickers

/-- The call on an object of the derived class. -/
def Call.ofText : FormattedText.Call → Call W
  | .setFormattedText text ignore => .setFormattedText text ignore
  | .argFrom text => .argFrom text

/-! ### What the calls leave behind -/

/-- The offset after the calls: that of the last copied text and the places of the markers in the templates since. -/
def displacement (digits : DigitTable) : Int → List (Call W) → Int
  | offset, [] => offset
  | offset, .argFrom text :: calls =>
      displacement digits (offset + (arg digits text (ofString "%1")).indexOf (ofString "%1")) calls
  | _, .setFormattedTextFrom formattedText :: calls => displacement digits formattedText.prefixOffset calls
  | offset, _ :: calls => displacement digits offset calls

def lastWrapper : Option W → List (Call W) → Option W
  | tdLibWrapper, [] => tdLibWrapper
  | _, .setTdLibWrapper tdLibWrapper :: calls => lastWrapper tdLibWrapper calls
  | tdLibWrapper, _ :: calls => lastWrapper tdLibWrapper calls

/-- The ids that no wrapper has been asked for. -/
def unrequested [DecidableEq W] : Option W → List QString → List (Call W) → List QString
  | _, ids, [] => ids
  | tdLibWrapper, ids, .setFormattedText text ignore :: calls =>
      unrequested tdLibWrapper (if tdLibWrapper.isSome then [] else ids ++ FormattedText.emojiIds text ignore) calls
  | tdLibWrapper, _, .setFormattedTextFrom formattedText :: calls =>
      unrequested tdLibWrapper (if tdLibWrapper.isSome then [] else formattedText.customEmojiIds) calls
  | tdLibWrapper, ids, .setTdLibWrapper next :: calls =>
      unrequested next (if tdLibWrapper ≠ next ∧ next.isSome then [] else ids) calls
  | tdLibWrapper, ids, _ :: calls => unrequested tdLibWrapper ids calls

theorem processCustomEmojis_eq (G : FullFormattedText W) :
    (processCustomEmojis G).toFormattedText =
        { G.text with
          customEmojiIds := if G.tdLibWrapper.isSome then [] else G.text.customEmojiIds
          isFull := true
          getCustomEmojiSize := G.customEmojiSize
          getCustomEmojiPath := fun _ => [] } ∧
      (processCustomEmojis G).tdLibWrapper = G.tdLibWrapper ∧
        (processCustomEmojis G).customEmojiSize = G.customEmojiSize := by
  simp only [processCustomEmojis]
  split_ifs with hrequest hwrapper hwrapper
  · exact ⟨rfl, rfl, rfl⟩
  · exact absurd hrequest.1 hwrapper
  · have hids : G.text.customEmojiIds = [] := by
      by_contra hne
      exact hrequest ⟨hwrapper, hne⟩
    refine ⟨?_, rfl, rfl⟩
    rw [toFormattedText, hids]
    rfl
  · exact ⟨rfl, rfl, rfl⟩

/-- The data of an object that a run has left. -/
structure Left (G : FullFormattedText W) (offset : Int) (tdLibWrapper : Option W) (ids : List QString) : Prop where
  prefixOffset : G.text.prefixOffset = offset
  tdLibWrapper : G.tdLibWrapper = tdLibWrapper
  customEmojiIds : G.text.customEmojiIds = ids
  customEmojiSize : G.customEmojiSize = 20

theorem left_processCustomEmojis {G : FullFormattedText W} {offset : Int} {tdLibWrapper : Option W}
    {ids : List QString} (h : Left G offset tdLibWrapper ids) :
    Left (processCustomEmojis G) offset tdLibWrapper (if tdLibWrapper.isSome then [] else ids) := by
  obtain ⟨htext, hwrapper, hsize⟩ := processCustomEmojis_eq G
  refine ⟨?_, hwrapper.trans h.tdLibWrapper, ?_, hsize.trans h.customEmojiSize⟩
  · exact (congrArg FormattedText.prefixOffset htext).trans h.prefixOffset
  · rw [← h.tdLibWrapper, ← h.customEmojiIds]
    exact congrArg FormattedText.customEmojiIds htext

theorem left_handleCustomEmojiStickersReceived {G : FullFormattedText W} {offset : Int} {tdLibWrapper : Option W}
    {ids : List QString} (h : Left G offset tdLibWrapper ids) (stickers : List (Int × QString)) :
    Left (G.handleCustomEmojiStickersReceived stickers) offset tdLibWrapper ids := by
  induction stickers generalizing G with
  | nil => exact h
  | cons sticker stickers ih =>
      rw [handleCustomEmojiStickersReceived, List.foldl_cons]
      split_ifs with hknown
      · exact ih h
      · exact ih ⟨h.prefixOffset, h.tdLibWrapper, h.customEmojiIds, h.customEmojiSize⟩

/-- What a run leaves is told by its calls. -/
theorem left_run [DecidableEq W] (digits : DigitTable) {calls : List (Call W)} {G : FullFormattedText W} {offset : Int}
    {tdLibWrapper : Option W} {ids : List QString} (h : Left G offset tdLibWrapper ids) :
    Left (run (step digits) G calls) (displacement digits offset calls) (lastWrapper tdLibWrapper calls)
      (unrequested tdLibWrapper ids calls) := by
  induction calls generalizing G offset tdLibWrapper ids with
  | nil => exact h
  | cons call calls ih =>
      rw [run_cons]
      cases call with
      | setFormattedText text ignore =>
          refine ih (left_processCustomEmojis ⟨?_, h.tdLibWrapper, ?_, h.customEmojiSize⟩)
          · rw [FormattedText.setFormattedText_eq]
            exact h.prefixOffset
          · rw [FormattedText.setFormattedText_eq, ← h.customEmojiIds]
            rfl
      | setFormattedTextFrom formattedText =>
          exact ih (left_processCustomEmojis ⟨rfl, h.tdLibWrapper, rfl, h.customEmojiSize⟩)
      | argFrom text =>
          refine ih ⟨?_, h.tdLibWrapper, h.customEmojiIds, h.customEmojiSize⟩
          rw [← h.prefixOffset]
          rfl
      | setTdLibWrapper next =>
          simp only [step, setTdLibWrapper, displacement, lastWrapper, unrequested]
          split_ifs with hchanges hclears hclears
          · have hleft := left_processCustomEmojis (G := { G with tdLibWrapper := next })
              ⟨h.prefixOffset, rfl, h.customEmojiIds, h.customEmojiSize⟩
            rw [if_pos hclears.2] at hleft
            exact ih hleft
          · have hleft := left_processCustomEmojis (G := { G with tdLibWrapper := next })
              ⟨h.prefixOffset, rfl, h.customEmojiIds, h.customEmojiSize⟩
            rw [if_neg fun hsome => hclears ⟨h.tdLibWrapper ▸ hchanges, hsome⟩] at hleft
            exact ih hleft
          · exact absurd (h.tdLibWrapper.symm ▸ hclears.1) hchanges
          · exact ih ⟨h.prefixOffset, not_not.mp hchanges, h.customEmojiIds, h.customEmojiSize⟩
      | handleCustomEmojiStickersReceived stickers => exact ih (left_handleCustomEmojiStickersReceived h stickers)

end FullFormattedText

/-! ### Texts that are set after a run -/

namespace FormattedText

/-- Two texts of which all is the same that is kept or computed from them; the ids of emojis count as a set. -/
structure SameText (F G : FormattedText) : Prop where
  plainText : F.plainText = G.plainText
  entities : F.entities = G.entities
  needsRichText : F.needsRichText = G.needsRichText
  prefixOffset : F.prefixOffset = G.prefixOffset
  customEmojiIds : ∀ id, id ∈ F.customEmojiIds ↔ id ∈ G.customEmojiIds
  parse : ∀ (S : StdSort) (escape : Bool), F.parse S escape = G.parse S escape

/-- Texts that may differ in what setting a text leaves as it was. -/
theorem sameText_iff {F G : FormattedText}
    (h : { F with prefixOffset := G.prefixOffset, customEmojiIds := G.customEmojiIds } = G) :
    SameText F G ↔ F.prefixOffset = G.prefixOffset ∧ ∀ id, id ∈ F.customEmojiIds ↔ id ∈ G.customEmojiIds := by
  refine ⟨fun hsame => ⟨hsame.prefixOffset, hsame.customEmojiIds⟩, fun ⟨hoffset, hids⟩ => ?_⟩
  have hplain := congrArg FormattedText.plainText h
  have hentities := congrArg FormattedText.entities h
  have hrich := congrArg FormattedText.needsRichText h
  refine ⟨hplain, hentities, hrich, hoffset, hids, fun S escape => ?_⟩
  calc F.parse S escape = { F with prefixOffset := F.prefixOffset, customEmojiIds := G.customEmojiIds }.parse S escape := rfl
    _ = G.parse S escape := by rw [hoffset, h]

theorem prefixOffset_setFormattedText (F : FormattedText) (text : QVariantMap) (ignore : Ignore) :
    (F.setFormattedText text ignore).prefixOffset = F.prefixOffset := by
  rw [setFormattedText_eq]
  rfl

theorem customEmojiIds_setFormattedText (F : FormattedText) (text : QVariantMap) (ignore : Ignore) :
    (F.setFormattedText text ignore).customEmojiIds = F.customEmojiIds ++ emojiIds text ignore := by
  rw [setFormattedText_eq]
  rfl

theorem mem_append_iff_iff_subset {α : Type} {l l' : List α} : (∀ x, x ∈ l ++ l' ↔ x ∈ l') ↔ l ⊆ l' := by
  constructor
  · intro h x hx
    exact (h x).mp (List.mem_append_left _ hx)
  · intro h x
    exact ⟨fun hx => (List.mem_append.mp hx).elim (@h x) id, List.mem_append_right _⟩

open FullFormattedText in
/-- What a run of the base class leaves. -/
theorem left_run {W : Type} [DecidableEq W] (digits : DigitTable) (calls : List FormattedText.Call) {F : FormattedText}
    (hplain : F.sliced = F) :
    (run (step digits) F calls).prefixOffset =
        displacement digits F.prefixOffset (calls.map (Call.ofText (W := W))) ∧
      (run (step digits) F calls).customEmojiIds =
        unrequested none F.customEmojiIds (calls.map (Call.ofText (W := W))) ∧
      (run (step digits) F calls).sliced = run (step digits) F calls := by
  induction calls generalizing F with
  | nil => exact ⟨rfl, rfl, hplain⟩
  | cons call calls ih =>
      rw [run_cons]
      cases call with
      | setFormattedText text ignore =>
          have hstep : step digits F (.setFormattedText text ignore) =
              F.withText (setFormattedText empty text ignore) F.customEmojiIds := setFormattedText_eq F text ignore
          rw [hstep]
          refine ih ?_
          rw [← hplain]
          rfl
      | argFrom text =>
          refine ih ?_
          rw [← hplain]
          rfl

end FormattedText

namespace FullFormattedText

variable [DecidableEq W]

/-- The text that is set last on an object after calls, and on a new one. -/
theorem sameText_setFormattedText_iff (digits : DigitTable) (F : FormattedText) (tdLibWrapper : Option W)
    (calls : List (Call W)) (text : QVariantMap) (ignore : FormattedText.Ignore) :
    FormattedText.SameText (((run (step digits) (ofText F tdLibWrapper) calls).setFormattedText text ignore).toFormattedText)
        (((ofText FormattedText.empty (lastWrapper tdLibWrapper calls)).setFormattedText text ignore).toFormattedText) ↔
      displacement digits F.prefixOffset calls = 0 ∧
        (lastWrapper tdLibWrapper calls ≠ none ∨
          unrequested tdLibWrapper F.customEmojiIds calls ⊆ FormattedText.emojiIds text ignore) := by
  have hleft : Left (run (step digits) (ofText F tdLibWrapper) calls) (displacement digits F.prefixOffset calls)
      (lastWrapper tdLibWrapper calls) (unrequested tdLibWrapper F.customEmojiIds calls) :=
    left_run digits ⟨rfl, rfl, rfl, rfl⟩
  generalize run (step digits) (ofText F tdLibWrapper) calls = G at hleft
  obtain ⟨hoffset, hwrapper, hids, hsize⟩ := hleft
  rw [setFormattedText, setFormattedText, (processCustomEmojis_eq _).1, (processCustomEmojis_eq _).1]
  refine (FormattedText.sameText_iff ?_).trans ?_
  · rw [FormattedText.setFormattedText_eq G.text, hsize]
    rfl
  · have hempty : FormattedText.empty.prefixOffset = 0 := rfl
    have hnone : FormattedText.empty.customEmojiIds = [] := rfl
    simp only [FormattedText.prefixOffset_setFormattedText, FormattedText.customEmojiIds_setFormattedText, hoffset, hids,
      hwrapper, hempty, hnone, ofText, List.nil_append]
    cases hlast : lastWrapper tdLibWrapper calls with
    | none =>
        simp only [Option.isSome_none, Bool.false_eq_true, if_false, FormattedText.mem_append_iff_iff_subset, ne_eq,
          not_true_eq_false, false_or]
    | some w => simp only [Option.isSome_some, if_true, implies_true, ne_eq, reduceCtorEq, not_false_eq_true, true_or]

end FullFormattedText

namespace FormattedText

open FullFormattedText

theorem sameText_setFormattedText_iff {W : Type} [DecidableEq W] (digits : DigitTable) {F : FormattedText}
    (hplain : F.sliced = F) (calls : List FormattedText.Call) (text : QVariantMap) (ignore : Ignore) :
    SameText ((run (step digits) F calls).setFormattedText text ignore) (empty.setFormattedText text ignore) ↔
      displacement digits F.prefixOffset (calls.map (Call.ofText (W := W))) = 0 ∧
        unrequested none F.customEmojiIds (calls.map (Call.ofText (W := W))) ⊆ emojiIds text ignore := by
  obtain ⟨hoffset, hids, hsliced⟩ := @left_run W _ digits calls F hplain
  generalize run (step digits) F calls = G at hoffset hids hsliced
  have hempty : empty.prefixOffset = 0 := rfl
  have hnone : empty.customEmojiIds = [] := rfl
  refine (sameText_iff ?_).trans ?_
  · refine Eq.trans ?_ (setFormattedText_eq empty text ignore).symm
    rw [setFormattedText_eq G, prefixOffset_setFormattedText, ← hsliced]
    rfl
  · simp only [prefixOffset_setFormattedText, customEmojiIds_setFormattedText, hoffset, hids, hempty, hnone,
      List.nil_append, mem_append_iff_iff_subset]

/-- **The last text.** Whatever was done with an object before, the text that is set last is that of a new object
exactly if the offset has come back to zero and no ids are left over. -/
theorem last_text_iff {W : Type} [DecidableEq W] (digits : DigitTable) (F : FormattedText) (text : QVariantMap)
    (ignore : Ignore) :
    (∀ calls : List FormattedText.Call,
      SameText ((run (step digits) F.sliced calls).setFormattedText text ignore) (empty.setFormattedText text ignore) ↔
        displacement digits F.prefixOffset (calls.map (Call.ofText (W := W))) = 0 ∧
          unrequested none F.customEmojiIds (calls.map (Call.ofText (W := W))) ⊆ emojiIds text ignore) ∧
    ∀ (tdLibWrapper : Option W) (calls : List (FullFormattedText.Call W)),
      SameText
        (((run (FullFormattedText.step digits) (FullFormattedText.ofText F tdLibWrapper) calls).setFormattedText text
          ignore).toFormattedText)
        (((FullFormattedText.ofText empty (lastWrapper tdLibWrapper calls)).setFormattedText text
          ignore).toFormattedText) ↔
        displacement digits F.prefixOffset calls = 0 ∧
          (lastWrapper tdLibWrapper calls ≠ none ∨
            unrequested tdLibWrapper F.customEmojiIds calls ⊆ emojiIds text ignore) :=
  ⟨fun calls => sameText_setFormattedText_iff digits rfl calls text ignore,
    fun tdLibWrapper calls => FullFormattedText.sameText_setFormattedText_iff digits F tdLibWrapper calls text ignore⟩

/-- A caption in a template, and then another text in the same object. -/
theorem not_last_text :
    ¬ ∀ (calls : List (FullFormattedText.Call Unit)) (text : QVariantMap),
      SameText
        (((run (FullFormattedText.step asciiDigits) (FullFormattedText.ofText empty none) calls).setFormattedText text
          .none).toFormattedText)
        (((FullFormattedText.ofText empty (lastWrapper none calls)).setFormattedText text .none).toFormattedText) := by
  intro h
  have hoffset := (h [.argFrom (ofString "Photo: %1")] [(TdConst.TEXT, .string "done")]).prefixOffset
  exact absurd hoffset (by decide)

end FormattedText

end YaqtLib
