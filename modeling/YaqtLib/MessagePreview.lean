import YaqtLib.CleanupMap
import YaqtLib.PlaceMarkers

/-! The preview of a message and the list of names (`utilities.cpp`). Templates are those of the source language. Where
two texts go into a template they are put in one after the other. -/

namespace YaqtLib

open TdConst QString

namespace TdConst

abbrev CAPTION : String := "caption"
abbrev EMOJI : String := "emoji"
abbrev FILE_NAME : String := "file_name"
abbrev VENUE : String := "venue"
abbrev MESSAGE_CONTENT_TYPE_TEXT : String := "messageText"
abbrev MESSAGE_CONTENT_TYPE_STICKER : String := "messageSticker"
abbrev MESSAGE_CONTENT_TYPE_DICE : String := "messageDice"
abbrev MESSAGE_CONTENT_TYPE_STAKE_DICE : String := "messageStakeDice"
abbrev MESSAGE_CONTENT_TYPE_ANIMATED_EMOJI : String := "messageAnimatedEmoji"
abbrev MESSAGE_CONTENT_TYPE_LOCATION : String := "messageLocation"
abbrev MESSAGE_CONTENT_TYPE_VENUE : String := "messageVenue"
abbrev MESSAGE_CONTENT_TYPE_GAME : String := "messageGame"
abbrev MESSAGE_CONTENT_TYPE_POLL : String := "messagePoll"
abbrev MESSAGE_CONTENT_TYPE_CALL : String := "messageCall"
abbrev MESSAGE_CONTENT_TYPE_GROUP_CALL : String := "messageGroupCall"
abbrev MESSAGE_CONTENT_TYPE_CONTACT : String := "messageContact"

end TdConst

/-- What Qt knows of digits, and how it writes numbers for the reader. -/
structure QLocale where
  digits : UnicodeDigits
  toText : Int → QString
  percent_notMem : ∀ n, percent ∉ toText n

namespace Utilities

/-- A text of the source language. -/
abbrev tr (sourceText : String) : QString := ofString sourceText

/-- `%n` and `%Ln` are replaced by the number. -/
def replacePercentN (locale : QLocale) (n : Int) : QString → QString
  | c :: d :: e :: text =>
      if c = percent ∧ d = localeMark ∧ e = 0x6E then locale.toText n ++ replacePercentN locale n text
      else if c = percent ∧ d = 0x6E then QString.number n ++ replacePercentN locale n (e :: text)
      else c :: replacePercentN locale n (d :: e :: text)
  | [c, d] => if c = percent ∧ d = 0x6E then QString.number n else [c, d]
  | text => text

/-- A text of the source language with a number; a number below zero is none. -/
def trn (locale : QLocale) (sourceText : String) (n : Int) : QString :=
  if 0 ≤ n then replacePercentN locale n (ofString sourceText) else ofString sourceText

abbrev arg (locale : QLocale) (text a : QString) : QString := QString.arg locale.digits.toDigitTable text a

def getMessageContentFormattedText (messageContent : QVariantMap) : QVariantMap :=
  if (messageContent.value TYPE_).toStr = MESSAGE_CONTENT_TYPE_TEXT then (messageContent.value TEXT).toMap
  else (messageContent.value CAPTION).toMap

def getMessageCallText (messageCall : QVariantMap) (outgoing : Bool) : QString :=
  let discardReasonType := ((messageCall.value "discard_reason").toMap.value TYPE_).toStr
  let declined := discardReasonType = "callDiscardReasonDeclined" ∨ discardReasonType = "callDiscardReasonMissed"
  if (messageCall.value "is_video").toBool then
    if declined then if outgoing then tr "Canceled Video Call" else tr "Missed Video Call"
    else if outgoing then tr "Outgoing Video Call" else tr "Incoming Video Call"
  else if declined then if outgoing then tr "Canceled Call" else tr "Missed Call"
  else if outgoing then tr "Outgoing Call" else tr "Incoming Call"

def getMessageGroupCallText (messageGroupCall : QVariantMap) (outgoing : Bool) : QString :=
  if outgoing then tr "Outgoing Group Call"
  else if (messageGroupCall.value "was_missed").toBool then tr "Missed Group Call"
  else tr "Incoming Group Call"

/-- A text that is put into a template unless it is empty. -/
def orElse (locale : QLocale) (text : QString) (template noText : String) : QString :=
  if text ≠ [] then arg locale (tr template) text else tr noText

def getDiceText (locale : QLocale) (messageContent : QVariantMap) : QString :=
  let emoji := ofString (messageContent.value EMOJI).toStr
  let value := (messageContent.value "value").toInt
  if emoji = ofString "🎯" then
    emoji ++ ofString " " ++
      if value = 0 then tr "Dart: throwing…"
      else if value = 1 then tr "Dart: missed!"
      else if value = 2 ∨ value = 3 ∨ value = 4 then tr "Dart thrown"
      else if value = 6 then tr "Dart: bullseye!"
      else tr "Dart: almost there!"
  else if emoji = ofString "🎲" then
    emoji ++ ofString " " ++
      if 1 ≤ value ∧ value ≤ 6 then trn locale "Dice: %n" value else tr "Dice: rolling…"
  else emoji

def getPollText (locale : QLocale) (messageContent : QVariantMap) : QString :=
  let poll := (messageContent.value "poll").toMap
  let question := ofString ((poll.value "question").toMap.value TEXT).toStr
  if ((poll.value TYPE).toMap.value TYPE_).toStr = "pollTypeQuiz" then
    if (poll.value "is_anonymous").toBool then orElse locale question "Anonymous Quiz: %1" "Anonymous Quiz"
    else orElse locale question "Quiz: %1" "Quiz"
  else if (poll.value "is_anonymous").toBool then orElse locale question "Anonymous Poll: %1" "Anonymous Poll"
  else orElse locale question "Poll: %1" "Poll"

/-- The previews without a formatted text. -/
def notFormatted (locale : QLocale) (messageContent : QVariantMap) (outgoing : Bool) : Option QString :=
  let contentType := (messageContent.value TYPE_).toStr
  if contentType = MESSAGE_CONTENT_TYPE_STICKER then
    let emoji := ofString ((messageContent.value STICKER).toMap.value EMOJI).toStr
    some (if emoji = [] then tr "Sticker" else emoji)
  else if contentType = MESSAGE_CONTENT_TYPE_DICE then some (getDiceText locale messageContent)
  else if contentType = MESSAGE_CONTENT_TYPE_STAKE_DICE then some (ofString "🎲")
  else if contentType = MESSAGE_CONTENT_TYPE_ANIMATED_EMOJI then
    some (ofString (((messageContent.value ANIMATED_EMOJI).toMap.value STICKER).toMap.value EMOJI).toStr)
  else if contentType = MESSAGE_CONTENT_TYPE_VIDEO_NOTE then some (tr "Video message")
  else if contentType = MESSAGE_CONTENT_TYPE_LOCATION then some (tr "Location")
  else if contentType = MESSAGE_CONTENT_TYPE_VENUE then
    some (orElse locale (ofString ((messageContent.value VENUE).toMap.value TITLE).toStr) "Venue: %1" "Venue")
  else if contentType = MESSAGE_CONTENT_TYPE_POLL then some (getPollText locale messageContent)
  else if contentType = MESSAGE_CONTENT_TYPE_GAME then
    some (orElse locale (ofString ((messageContent.value "game").toMap.value "short_name").toStr) "Game: %1" "Game")
  else if contentType = MESSAGE_CONTENT_TYPE_CONTACT then
    some (orElse locale (ofString ((messageContent.value "contact").toMap.value FIRST_NAME).toStr) "Contact: %1" "Contact")
  else if contentType = MESSAGE_CONTENT_TYPE_CALL then some (getMessageCallText messageContent outgoing)
  else if contentType = MESSAGE_CONTENT_TYPE_GROUP_CALL then some (getMessageGroupCallText messageContent outgoing)
  else none

def hasMinithumbnail (messageContent : QVariantMap) (field : String) : Bool :=
  (messageContent.value field).toMap.contains MINITHUMBNAIL

/-- The title of an audio file or else its file name, and the file name of a document. -/
def attachmentName (messageContent : QVariantMap) : QString :=
  if (messageContent.value TYPE_).toStr = MESSAGE_CONTENT_TYPE_AUDIO then
    let audio := (messageContent.value AUDIO).toMap
    let name := ofString (audio.value TITLE).toStr
    if name = [] then ofString (audio.value FILE_NAME).toStr else name
  else ofString ((messageContent.value DOCUMENT).toMap.value FILE_NAME).toStr

/-- The template of a message with an attachment and the text of one without a caption. -/
def attachmentTexts (locale : QLocale) (name : QString) (noName : String) : QString × QString :=
  if name ≠ [] then (arg locale (tr "%1: %2") name, name) else ([], tr noName)

/-- The template for the caption and the text of a message without one; nothing for an unsupported message. -/
def captionTexts (locale : QLocale) (messageContent : QVariantMap) (withThumbnails : Bool) :
    Option (QString × QString) :=
  let contentType := (messageContent.value TYPE_).toStr
  if contentType = MESSAGE_CONTENT_TYPE_PHOTO then
    some (if withThumbnails && hasMinithumbnail messageContent PHOTO then [] else tr "Photo: %1", tr "Photo")
  else if contentType = MESSAGE_CONTENT_TYPE_VIDEO then
    some (if withThumbnails && (hasMinithumbnail messageContent COVER || hasMinithumbnail messageContent VIDEO) then []
      else tr "Video: %1", tr "Video")
  else if contentType = MESSAGE_CONTENT_TYPE_ANIMATION then
    some (if withThumbnails && hasMinithumbnail messageContent ANIMATION then [] else tr "GIF: %1", tr "GIF")
  else if contentType = MESSAGE_CONTENT_TYPE_AUDIO then
    some (attachmentTexts locale (attachmentName messageContent) "Audio")
  else if contentType = MESSAGE_CONTENT_TYPE_DOCUMENT then
    some (attachmentTexts locale (attachmentName messageContent) "File")
  else if contentType = MESSAGE_CONTENT_TYPE_VOICE_NOTE then some (tr "Voice message: %1", tr "Voice message")
  else if contentType = MESSAGE_CONTENT_TYPE_TEXT then some ([], [])
  else none

/-- `FormattedText(text)`. -/
def plainFormatted (text : QString) : FormattedText := { plainText := text, entities := [] }

def getMessagePreview (locale : QLocale) (messageContent : QVariantMap) (outgoing withThumbnails : Bool)
    (formattedIgnore : FormattedText.Ignore) : FormattedText :=
  match notFormatted locale messageContent outgoing with
  | some text => plainFormatted text
  | none =>
      let caption := FormattedText.ofMap (getMessageContentFormattedText messageContent) formattedIgnore
      match captionTexts locale messageContent withThumbnails with
      | none => plainFormatted []
      | some (captionTemplate, noCaptionText) =>
          if caption.plainText = [] then plainFormatted noCaptionText
          else if captionTemplate ≠ [] then caption.argFrom locale.digits.toDigitTable captionTemplate
          else caption

/-- `QStringList::join` -/
def join (separator : QString) (names : List QString) : QString := separator.intercalate names

def formatNames (locale : QLocale) (names : List QString) (othersCount : Int) : QString :=
  match names with
  | [] => []
  | [name] => if othersCount = 0 then name else arg locale (trn locale "%1 and %Ln others" othersCount) name
  | _ =>
      let newNames := if othersCount = 0 then names.dropLast else names
      let result := join (tr ", ") newNames
      if othersCount = 0 then arg locale (arg locale (tr "%1 and %2") result) (names.getLastD [])
      else arg locale (trn locale "%1 and %Ln others" othersCount) result

/-! ### What is written literally -/

/-- The caption of a message as TDLib sends it. -/
def captionText (messageContent : QVariantMap) : QString :=
  ofString ((messageContent.value CAPTION).toMap.value TEXT).toStr

/-- How the others are counted after the names. -/
def othersText (locale : QLocale) (othersCount : Int) : QString :=
  if 0 ≤ othersCount then tr " and " ++ locale.toText othersCount ++ tr " others" else tr " and %Ln others"

/-- The names as they are, with separators. -/
def listing (locale : QLocale) (names : List QString) (othersCount : Int) : QString :=
  if names = [] then []
  else if othersCount ≠ 0 then join (tr ", ") names ++ othersText locale othersCount
  else if names.dropLast = [] then names.getLastD []
  else join (tr ", ") names.dropLast ++ (tr " and " ++ names.getLastD [])

variable {locale : QLocale}

theorem separator_comma : Separator locale.digits.toDigitTable (tr ", ") :=
  @separator_of_ascii locale.digits (tr ", ") 0x2C (by decide) (by decide) (by decide) (by decide) (by decide)

theorem separator_and : Separator locale.digits.toDigitTable (tr " and ") :=
  @separator_of_ascii locale.digits (tr " and ") 0x20 (by decide) (by decide) (by decide) (by decide) (by decide)

theorem separator_colon : Separator locale.digits.toDigitTable (tr ": ") :=
  @separator_of_ascii locale.digits (tr ": ") 0x3A (by decide) (by decide) (by decide) (by decide) (by decide)

/-- Both texts of a template with two places. -/
theorem arg_arg_iff {separator : QString} (h : Separator locale.digits.toDigitTable separator) (text last : QString) :
    arg locale (arg locale ([percent, one] ++ (separator ++ [percent, two])) text) last = text ++ (separator ++ last) ↔
      Spares locale.digits.toDigitTable text last := by
  rw [arg, arg, arg_first h]
  exact arg_second_iff h text last

theorem plainText_addEntity (ignore : FormattedText.Ignore) (F : FormattedText) (rawEntity : QVariant) :
    (FormattedText.addEntity ignore F rawEntity).plainText = F.plainText := by
  simp only [FormattedText.addEntity]
  split
  · rfl
  · split <;> rfl

theorem plainText_ofMap (formattedText : QVariantMap) (ignore : FormattedText.Ignore) :
    (FormattedText.ofMap formattedText ignore).plainText = ofString (formattedText.value TEXT).toStr := by
  have hfold (rawEntities : QVariantList) (F : FormattedText) :
      (rawEntities.foldl (FormattedText.addEntity ignore) F).plainText = F.plainText := by
    induction rawEntities generalizing F with
    | nil => rfl
    | cons rawEntity rawEntities ih => rw [List.foldl_cons, ih, plainText_addEntity]
  rw [FormattedText.ofMap]
  split_ifs with hnil
  · rw [hnil]
    rfl
  · simp only [FormattedText.setFormattedText]
    split_ifs
    · rfl
    · exact hfold _ _

/-- A message with an attachment. -/
def IsAttachment (messageContent : QVariantMap) : Prop :=
  (messageContent.value TYPE_).toStr = MESSAGE_CONTENT_TYPE_AUDIO ∨
    (messageContent.value TYPE_).toStr = MESSAGE_CONTENT_TYPE_DOCUMENT

theorem captionTexts_of_isAttachment {messageContent : QVariantMap} (h : IsAttachment messageContent)
    (hname : attachmentName messageContent ≠ []) (withThumbnails : Bool) :
    captionTexts locale messageContent withThumbnails =
      some (arg locale (tr "%1: %2") (attachmentName messageContent), attachmentName messageContent) := by
  rcases h with htype | htype
  · rw [captionTexts, htype, if_neg (by decide), if_neg (by decide), if_neg (by decide), if_pos rfl, attachmentTexts,
      if_pos hname]
  · rw [captionTexts, htype, if_neg (by decide), if_neg (by decide), if_neg (by decide), if_neg (by decide), if_pos rfl,
      attachmentTexts, if_pos hname]

theorem notFormatted_of_isAttachment {messageContent : QVariantMap} (h : IsAttachment messageContent)
    (outgoing : Bool) : notFormatted locale messageContent outgoing = none := by
  rcases h with htype | htype
  · simp only [notFormatted, htype]
    rfl
  · simp only [notFormatted, htype]
    rfl

theorem getMessageContentFormattedText_of_isAttachment {messageContent : QVariantMap} (h : IsAttachment messageContent) :
    getMessageContentFormattedText messageContent = (messageContent.value CAPTION).toMap := by
  rw [getMessageContentFormattedText, if_neg]
  intro htext
  rcases h with htype | htype
  · exact absurd (htype.symm.trans htext) (by decide)
  · exact absurd (htype.symm.trans htext) (by decide)

/-- The preview of a message with an attachment and a caption. -/
theorem getMessagePreview_attachment_iff {messageContent : QVariantMap} (h : IsAttachment messageContent)
    (hname : attachmentName messageContent ≠ []) (hcaption : captionText messageContent ≠ [])
    (outgoing withThumbnails : Bool) (ignore : FormattedText.Ignore) :
    (getMessagePreview locale messageContent outgoing withThumbnails ignore).plainText =
        attachmentName messageContent ++ (tr ": " ++ captionText messageContent) ↔
      Spares locale.digits.toDigitTable (attachmentName messageContent) (captionText messageContent) := by
  have htemplate : tr "%1: %2" = [percent, one] ++ (tr ": " ++ [percent, two]) := by decide
  have hfirst := @arg_first locale.digits (tr ": ") separator_colon (attachmentName messageContent)
  rw [← htemplate] at hfirst
  have hne : arg locale (tr "%1: %2") (attachmentName messageContent) ≠ [] := by
    rw [arg, hfirst]
    exact List.append_ne_nil_of_left_ne_nil hname _
  have htext := plainText_ofMap (messageContent.value CAPTION).toMap ignore
  rw [getMessagePreview, notFormatted_of_isAttachment h]
  simp only [captionTexts_of_isAttachment h hname, getMessageContentFormattedText_of_isAttachment h]
  rw [if_neg (by rw [htext]; exact hcaption), if_pos hne, FormattedText.argFrom, htext, htemplate]
  exact arg_arg_iff separator_colon _ _

theorem join_cons_cons (separator first second : QString) (names : List QString) :
    join separator (first :: second :: names) = first ++ (separator ++ join separator (second :: names)) := by
  rw [join, join, List.intercalate_cons_cons, List.append_assoc]

theorem spares_join_iff {names : List QString} (hne : names ≠ []) (last : QString) :
    Spares locale.digits.toDigitTable (join (tr ", ") names) last ↔
      ∀ name ∈ names, Spares locale.digits.toDigitTable name last := by
  induction names with
  | nil => exact absurd rfl hne
  | cons first names ih =>
      cases names with
      | nil => rw [join, List.intercalate_singleton, List.forall_mem_singleton]
      | cons second names =>
          rw [join_cons_cons, spares_append_iff separator_comma, ih (List.cons_ne_nil _ _)]
          exact (List.forall_mem_cons (p := fun name => Spares locale.digits.toDigitTable name last)).symm

/-- The template with a count of others has one place for all names. -/
theorem arg_others (othersCount : Int) (names : QString) :
    arg locale (trn locale "%1 and %Ln others" othersCount) names = names ++ othersText locale othersCount := by
  have hand : percent ∉ tr " and " := by decide
  have hmarker : OneMarker locale.digits.toDigitTable (trn locale "%1 and %Ln others" othersCount) []
      (othersText locale othersCount) := by
    refine ⟨1, [percent, one], ?_⟩
    rw [List.map_nil, List.nil_append, trn, othersText]
    split_ifs with hcount
    · have hothers : percent ∉ locale.toText othersCount ++ tr " others" :=
        List.not_mem_append (locale.percent_notMem othersCount) (by decide)
      have htext : replacePercentN locale othersCount (ofString "%1 and %Ln others") =
          [percent, one] ++ (tr " and " ++ (locale.toText othersCount ++ tr " others")) := rfl
      rw [htext, pieces_append (separator_and.stops_append _) (Nat.zero_le _), pieces_first,
        pieces_of_no_percent (List.not_mem_append hand hothers), List.append_assoc]
      rfl
    · have hn : locale.digits.digitValue 0x6E = none :=
        (locale.digits.digitValue_ascii 0x6E (by decide)).trans (by decide)
      have htext : ofString "%1 and %Ln others" = [percent, one] ++ (tr " and " ++ ofString "%Ln others") := by decide
      have hkept : tr " and %Ln others" = tr " and " ++ ofString "%Ln others" := by decide
      have hcount : ofString "%Ln others" = percent :: localeMark :: 0x6E :: ofString " others" := by decide
      have hothers : percent ∉ localeMark :: 0x6E :: ofString " others" := by decide
      have hescape : escapeAt locale.digits.toDigitTable (percent :: localeMark :: 0x6E :: ofString " others") = none := by
        have hhead : (localeMark :: 0x6E :: ofString " others").head? = some 0x4C := rfl
        rw [escapeAt, if_neg (not_not_intro rfl), if_pos hhead, List.tail_cons, escapeNumber, hn]
        rfl
      rw [htext, hkept, pieces_append (separator_and.stops_append _) (Nat.zero_le _), pieces_first,
        pieces_append_of_no_percent hand, hcount, pieces, hescape, pieces_of_no_percent hothers, List.map_append]
      rfl
  have harg := arg_of_oneMarker hmarker names
  rwa [List.nil_append] at harg

/-- The list of names. -/
theorem formatNames_iff (names : List QString) (othersCount : Int) :
    formatNames locale names othersCount = listing locale names othersCount ↔
      (othersCount = 0 → ∀ name ∈ names.dropLast, Spares locale.digits.toDigitTable name (names.getLastD [])) := by
  match names with
  | [] => exact iff_of_true rfl fun _ name hname => absurd hname List.not_mem_nil
  | [name] =>
      refine iff_of_true ?_ fun _ name hname => absurd hname List.not_mem_nil
      by_cases hzero : othersCount = 0
      · subst hzero
        rfl
      · simp only [formatNames, listing, if_neg hzero, if_neg (List.cons_ne_nil name []), if_pos hzero, ne_eq]
        rw [arg_others, join, List.intercalate_singleton]
  | first :: second :: names =>
      have hne : (first :: second :: names).dropLast ≠ [] := List.cons_ne_nil _ _
      simp only [formatNames, listing, if_neg (List.cons_ne_nil first (second :: names)), if_neg hne]
      by_cases hzero : othersCount = 0
      · have htemplate : tr "%1 and %2" = [percent, one] ++ (tr " and " ++ [percent, two]) := by decide
        rw [if_pos hzero, if_pos hzero, if_neg (not_not_intro hzero), htemplate, arg_arg_iff separator_and,
          spares_join_iff hne]
        exact ⟨fun h _ => h, fun h => h hzero⟩
      · rw [if_neg hzero, if_neg hzero, if_pos hzero, arg_others]
        exact iff_of_true rfl fun h => absurd h hzero

/-- **Names and captions as they are.** The preview of a message with an attachment and the list of names keep what is
put in first exactly if it spares what comes after it. -/
theorem literal_iff (locale : QLocale) :
    (∀ (messageContent : QVariantMap) (outgoing withThumbnails : Bool) (ignore : FormattedText.Ignore),
      IsAttachment messageContent → attachmentName messageContent ≠ [] → captionText messageContent ≠ [] →
      ((getMessagePreview locale messageContent outgoing withThumbnails ignore).plainText =
          attachmentName messageContent ++ (tr ": " ++ captionText messageContent) ↔
        Spares locale.digits.toDigitTable (attachmentName messageContent) (captionText messageContent))) ∧
    ∀ (names : List QString) (othersCount : Int),
      formatNames locale names othersCount = listing locale names othersCount ↔
        (othersCount = 0 → ∀ name ∈ names.dropLast, Spares locale.digits.toDigitTable name (names.getLastD [])) :=
  ⟨fun _ outgoing withThumbnails ignore h hname hcaption =>
    getMessagePreview_attachment_iff h hname hcaption outgoing withThumbnails ignore, formatNames_iff⟩

/-- The locale of C programs. -/
def cLocale : QLocale where
  digits := { asciiDigits with digitValue_ascii := fun _ _ => rfl }
  toText := QString.number
  percent_notMem := fun n hmem => by
    have hpercent : percent.toNat = 0x25 := rfl
    have hbounds := bounds_of_mem_number hmem
    omega

/-- A document with a file name and a caption. -/
def documentContent (fileName caption : String) : QVariantMap :=
  [(TYPE_, .string MESSAGE_CONTENT_TYPE_DOCUMENT), (DOCUMENT, .map [(FILE_NAME, .string fileName)]),
    (CAPTION, .map [(TEXT, .string caption)])]

/-- A file name with a place marker, but one of a higher number. -/
theorem literal_document :
    (getMessagePreview cLocale (documentContent "100%3" "done") false false .none).plainText =
      ofString "100%3: done" := by
  have hspares : Spares cLocale.digits.toDigitTable (ofString "100%3") (ofString "done") := by
    have hpieces : pieces cLocale.digits.toDigitTable 0 (ofString "100%3") =
        [.unit 0x31, .unit 0x30, .unit 0x30, .place 3 (ofString "%3")] := by decide
    intro n marker hmem hn
    rw [hpieces] at hmem
    simp only [List.mem_cons, List.not_mem_nil, or_false, reduceCtorEq, false_or, Piece.place.injEq] at hmem
    omega
  have htext : ofString "100%3: done" = ofString "100%3" ++ (tr ": " ++ ofString "done") := by decide
  rw [htext]
  exact ((literal_iff cLocale).1 (documentContent "100%3" "done") false false .none (Or.inr rfl) (by decide)
    (by decide)).mpr hspares

/-- The caption comes into the file name, the last name into the one before it. -/
theorem not_literal :
    ¬ ((∀ (messageContent : QVariantMap) (outgoing withThumbnails : Bool) (ignore : FormattedText.Ignore),
      IsAttachment messageContent → attachmentName messageContent ≠ [] → captionText messageContent ≠ [] →
      (getMessagePreview cLocale messageContent outgoing withThumbnails ignore).plainText =
          attachmentName messageContent ++ (tr ": " ++ captionText messageContent)) ∧
      ∀ (names : List QString) (othersCount : Int),
        formatNames cLocale names othersCount = listing cLocale names othersCount) ∧
    (getMessagePreview cLocale (documentContent "100%2" "x") false false .none).plainText = ofString "100x: x" ∧
      formatNames cLocale [ofString "100%2", ofString "x"] 0 = ofString "100x and x" := by
  have hpreview : (getMessagePreview cLocale (documentContent "100%2" "x") false false .none).plainText =
      ofString "100x: x" := by decide
  refine ⟨fun h => ?_, hpreview, by decide⟩
  have hliteral := h.1 (documentContent "100%2" "x") false false .none (Or.inr rfl) (by decide) (by decide)
  rw [hpreview] at hliteral
  exact absurd hliteral (by decide)

end Utilities

end YaqtLib
