import YaqtLib.QString

/-! `FormattedText`: a text with entities, and how the text is written with tags for them. An entity comes from
TDLib as a map; where it stands is counted in units of the text. -/

namespace YaqtLib

open TdConst

namespace TdConst

abbrev ENTITIES : String := "entities"

end TdConst

/-- `FormattedTextEntity::Type`. -/
inductive EntityType where
  | unknown
  | mention
  | hashtag
  | cashtag
  | botCommand
  | url
  | emailAddress
  | phoneNumber
  | bankCardNumber
  | bold
  | italic
  | underline
  | strikethrough
  | spoiler
  | code
  | pre
  | preCode
  | blockQuote
  | expandableBlockQuote
  | textUrl
  | mentionName
  | customEmoji
  | mediaTimestamp
  | dateTime
deriving DecidableEq

namespace EntityType

def ofString (type : String) : EntityType :=
  if type = "textEntityTypeMention" then .mention
  else if type = "textEntityTypeHashtag" then .hashtag
  else if type = "textEntityTypeCashtag" then .cashtag
  else if type = "textEntityTypeBotCommand" then .botCommand
  else if type = "textEntityTypeUrl" then .url
  else if type = "textEntityTypeEmailAddress" then .emailAddress
  else if type = "textEntityTypePhoneNumber" then .phoneNumber
  else if type = "textEntityTypeBankCardNumber" then .bankCardNumber
  else if type = "textEntityTypeBold" then .bold
  else if type = "textEntityTypeItalic" then .italic
  else if type = "textEntityTypeUnderline" then .underline
  else if type = "textEntityTypeStrikethrough" then .strikethrough
  else if type = "textEntityTypeSpoiler" then .spoiler
  else if type = "textEntityTypeCode" then .code
  else if type = "textEntityTypePre" then .pre
  else if type = "textEntityTypePreCode" then .preCode
  else if type = "textEntityTypeBlockQuote" then .blockQuote
  else if type = "textEntityTypeExpandableBlockQuote" then .expandableBlockQuote
  else if type = "textEntityTypeTextUrl" then .textUrl
  else if type = "textEntityTypeMentionName" then .mentionName
  else if type = "textEntityTypeCustomEmoji" then .customEmoji
  else if type = "textEntityTypeMediaTimestamp" then .mediaTimestamp
  else if type = "textEntityTypeDateTime" then .dateTime
  else .unknown

end EntityType

structure FormattedTextEntity where
  type : EntityType
  typeData : QVariant := .invalid
deriving DecidableEq

namespace FormattedTextEntity

/-- The constructor from a map. In the switch for the data of a type each case runs into the next one up to the one of
the emojis: what is read last stays. -/
def ofMap (entityType : QVariantMap) : FormattedTextEntity :=
  let type := EntityType.ofString (entityType.value TYPE_).toStr
  let typeData : QVariant := if type = .textUrl then .string (entityType.value "url").toStr else .invalid
  let typeData : QVariant :=
    if type = .textUrl ∨ type = .mentionName then .longLong (entityType.value USER_ID).toLongLong else typeData
  let typeData : QVariant :=
    if type = .textUrl ∨ type = .mentionName ∨ type = .customEmoji then
      .longLong (entityType.value "custom_emoji_id").toLongLong
    else typeData
  let typeData : QVariant := if type = .spoiler then .bool false else typeData
  { type := type, typeData := typeData }

def isFull (entity : FormattedTextEntity) : Bool := entity.type = .customEmoji

def isLink (entity : FormattedTextEntity) : Bool :=
  match entity.type with
  | .url | .textUrl | .phoneNumber | .emailAddress | .botCommand | .mention | .mentionName | .hashtag | .cashtag => true
  | _ => false

end FormattedTextEntity

structure PositionedFormattedTextEntity extends FormattedTextEntity where
  offset : Int
  length : Int
deriving DecidableEq

/-- What `parse` reads of a text. The last three are what a `FullFormattedText` overrides. -/
structure FormattedText where
  plainText : QString
  entities : List PositionedFormattedTextEntity
  prefixOffset : Int := 0
  customEmojiIds : List QString := []
  needsRichText : Bool := false
  isFull : Bool := false
  getCustomEmojiSize : Int := 0
  getCustomEmojiPath : Int → QString := fun _ => []

namespace PositionedFormattedTextEntity

open QString

def ofMap (entity : QVariantMap) : PositionedFormattedTextEntity :=
  { FormattedTextEntity.ofMap (entity.value TYPE).toMap with
    offset := (entity.value "offset").toInt
    length := (entity.value "length").toInt }

def getTextPart (entity : PositionedFormattedTextEntity) (fullText : QString) : QString :=
  fullText.mid entity.offset entity.length

def getReplacement (entity : PositionedFormattedTextEntity) (parent : FormattedText) : QString :=
  match entity.type with
  | .customEmoji =>
      if parent.getCustomEmojiSize = 0 then []
      else
        let path := parent.getCustomEmojiPath entity.typeData.toLongLong
        let size := QString.number parent.getCustomEmojiSize
        if path ≠ [] then
          ofString "<img align=\"middle\" width=\"" ++ size ++ ofString "\" height=\"" ++ size ++ ofString "\" src=\"" ++
            path ++ ofString "\"/>"
        else []
  | .spoiler => if parent.isFull then [] else QString.repeated (ofString "▒") entity.length
  | _ => []

def A_TAG_END : QString := ofString "</a>"

/-- The tags of a link to a target under a scheme. -/
def linkTags (scheme target : QString) : QString × QString :=
  (ofString "<a href=\"" ++ scheme ++ target ++ ofString "\">", A_TAG_END)

/-- The tags of an entity in a text; the index tells which spoiler a link reveals. -/
def getHtmlTags (entity : PositionedFormattedTextEntity) (fullText : QString) (index : Nat) : QString × QString :=
  match entity.type with
  | .bold => (ofString "<b>", ofString "</b>")
  | .italic => (ofString "<i>", ofString "</i>")
  | .strikethrough => (ofString "<s>", ofString "</s>")
  | .underline => (ofString "<u>", ofString "</u>")
  | .spoiler =>
      if entity.typeData.toBool then ([], [])
      else (ofString "<a class=\"spoiler\" href=\"revealSpoiler://" ++ QString.number index ++ ofString "\">", A_TAG_END)
  | .pre | .code | .preCode => (ofString "<pre>", ofString "</pre>")
  | .url => linkTags [] (entity.getTextPart fullText)
  | .textUrl => linkTags [] (ofString entity.typeData.toStr)
  | .phoneNumber => linkTags (ofString "tel:") (entity.getTextPart fullText)
  | .emailAddress => linkTags (ofString "mailto:") (entity.getTextPart fullText)
  | .botCommand => linkTags (ofString "botCommand://") (entity.getTextPart fullText)
  | .mention => linkTags (ofString "user://") (entity.getTextPart fullText)
  | .mentionName => linkTags (ofString "userId://") (ofString entity.typeData.toStr)
  | .hashtag => linkTags (ofString "hashtag://") (entity.getTextPart fullText)
  | .cashtag => linkTags (ofString "cashtag://") (entity.getTextPart fullText)
  | _ => ([], [])

end PositionedFormattedTextEntity

namespace FormattedText

open QString Splices

/-- A part of the text to be replaced; the places are those of the text before the first replacement. -/
abbrev Insertion := Splice QChar

/-- `Insertion::sort`, the comparator. -/
def Insertion.sort (a b : Insertion) : Bool :=
  if b.offset + b.removeLength = a.offset + a.removeLength then b.offset < a.offset
  else b.offset + b.removeLength < a.offset + a.removeLength

/-- `std::sort` with the comparator: the result is ordered, and insertions with the same ends come in any order. -/
abbrev StdSort := Sorting Insertion.sort

/-- A sort that keeps insertions with the same ends in their order. -/
def stableSort : StdSort := insertionSorting

inductive Ignore where
  | none
  | all
  | full
  | fullBoldLinks
  | fullAndTagged
deriving DecidableEq

/-- Whether an entity is left out. -/
def Ignore.skips (ignore : Ignore) (entity : PositionedFormattedTextEntity) : Bool :=
  match ignore with
  | .full => entity.isFull
  | .fullBoldLinks => entity.isFull || entity.type = .bold || entity.isLink
  | .fullAndTagged => entity.type ≠ .spoiler
  | .none | .all => false

/-- One entity of the map, in the loop of `setFormattedText`. -/
def addEntity (ignore : Ignore) (F : FormattedText) (rawEntity : QVariant) : FormattedText :=
  let entity := PositionedFormattedTextEntity.ofMap rawEntity.toMap
  if ignore.skips entity then F
  else
    let F :=
      match entity.type with
      | .customEmoji => { F with customEmojiIds := F.customEmojiIds ++ [ofString entity.typeData.toStr] }
      | .spoiler => { F with needsRichText := true }
      | _ => F
    { F with entities := F.entities ++ [entity] }

/-- The ids of emojis and the offset of the text keep what they were. -/
def setFormattedText (F : FormattedText) (text : QVariantMap) (ignore : Ignore) : FormattedText :=
  let F := { F with plainText := ofString (text.value TEXT).toStr, needsRichText := false, entities := [] }
  if ignore = .all then F else (text.value ENTITIES).toList.foldl (addEntity ignore) F

def ofMap (formattedText : QVariantMap) (ignore : Ignore) : FormattedText :=
  if formattedText = [] then { plainText := [], entities := [] }
  else setFormattedText { plainText := [], entities := [] } formattedText ignore

def getPlainEscaped (F : FormattedText) : QString := getPlainEscapedFor F.plainText

/-- `addInsertionsToFor` of one unit, from a place of the text on. -/
def addInsertionsToFor (original : QChar) (replacement : QString) : Nat → QString → List Insertion
  | _, [] => []
  | i, c :: text =>
      if c = original then ⟨i, replacement, 1⟩ :: addInsertionsToFor original replacement (i + 1) text
      else addInsertionsToFor original replacement (i + 1) text

/-- `addInsertionsToFor` of `\r?\n`, from a place of the text on. -/
def addInsertionsForLines (replacement : QString) : Nat → QString → List Insertion
  | _, [] => []
  | i, [c] => if c = lf then [⟨i, replacement, 1⟩] else []
  | i, c :: d :: text =>
      if c = cr ∧ d = lf then ⟨i, replacement, 2⟩ :: addInsertionsForLines replacement (i + 2) text
      else if c = lf then ⟨i, replacement, 1⟩ :: addInsertionsForLines replacement (i + 1) (d :: text)
      else addInsertionsForLines replacement (i + 1) (d :: text)

/-- The insertions of the entity with an index. -/
def entityInsertions (F : FormattedText) (entity : PositionedFormattedTextEntity) (i : Nat) : List Insertion :=
  let replacement := entity.getReplacement F
  let htmlTags := entity.getHtmlTags F.plainText i
  (if replacement ≠ [] then [⟨entity.offset, replacement, entity.length⟩] else []) ++
    if htmlTags.1 = [] ∧ htmlTags.2 = [] then []
    else [⟨entity.offset, htmlTags.1, 0⟩, ⟨entity.offset + entity.length, htmlTags.2, 0⟩]

def entitiesInsertions (F : FormattedText) : List Insertion :=
  F.entities.zipIdx.flatMap fun entity => F.entityInsertions entity.1 entity.2

/-- The insertions for what must not stand in the text as it is, from a place of the text on. -/
def escapeInsertions (i : Nat) (plainText : QString) : List Insertion :=
  addInsertionsToFor lt (ofString "&lt;") i plainText ++ addInsertionsToFor gt (ofString "&gt;") i plainText ++
    addInsertionsToFor amp (ofString "&amp;") i plainText ++ addInsertionsToFor quot (ofString "&quot;") i plainText ++
    addInsertionsForLines HTML_BR_TAG i plainText

def insertions (F : FormattedText) (escape : Bool) : List Insertion :=
  F.entitiesInsertions ++ if escape then escapeInsertions 0 F.plainText else []

/-- The insertions in the order of the list. -/
def replaceAll (prefixOffset : Int) (insertions : List Insertion) (plainText : QString) : QString :=
  insertions.foldl
    (fun result insertion =>
      result.replace (prefixOffset + insertion.offset) insertion.removeLength insertion.insertion) plainText

/-- Without entities, as without insertions for them, the text is written as a plain one. -/
def parse (stdSort : StdSort) (F : FormattedText) (escape : Bool) : QString :=
  if F.entitiesInsertions = [] then if escape then F.getPlainEscaped else F.plainText
  else replaceAll F.prefixOffset (stdSort.sort (F.insertions escape)) F.plainText

end FormattedText

end YaqtLib
