import YaqtLib.FormattedText
import YaqtLib.Receiver

/-! Where the link of an entity leads. The link is written into the tag of the entity and read back when it is
opened, with the length of each scheme counted by hand; a type of entity has a scheme of its own, so that the two
sides can be compared type by type. -/

namespace YaqtLib

open TdConst QString

/-- What opening a link does. -/
inductive LinkAction where
  | searchPublicChatOpenDirectly (userName : QString)
  | createPrivateChat (userId : Int)
  | searchHashtag (text : QString) (cashtag : Bool)
  | getInternalLinkType (link : QString) (skipConfirmation checkExternalOnError : Bool)
  | sendTextMessage (chatId : Int) (message : QString) (topicId : QVariantMap)
deriving DecidableEq

namespace FormattedText

def handleLink (link : QString) (skipConfirmation checkExternalOnError : Bool) : LinkAction :=
  if link.startsWith (ofString "user://") then .searchPublicChatOpenDirectly (link.mid 8)
  else if link.startsWith (ofString "userId://") then .createPrivateChat (link.mid 9).toLongLong
  else if link.startsWith (ofString "hashtag://") then .searchHashtag (link.mid 10) false
  else if link.startsWith (ofString "cashtag://") then .searchHashtag (link.mid 10) true
  else .getInternalLinkType link skipConfirmation checkExternalOnError

end FormattedText

/-- What a link is opened with: the chat and topic for commands, and how other links are checked. -/
structure LinkContext where
  botCommandChatId : Int
  botCommandTopicId : QVariantMap
  skipConfirmation : Bool
  checkExternalOnError : Bool

/-- `Utilities::handleLink`. -/
def Utilities.handleLink (link : QString) (context : LinkContext) : LinkAction :=
  if link.startsWith (ofString "botCommand://") then
    .sendTextMessage context.botCommandChatId (link.mid 13) context.botCommandTopicId
  else FormattedText.handleLink link context.skipConfirmation context.checkExternalOnError

namespace PositionedFormattedTextEntity

/-- The link as the opening tag holds it, between `<a href="` and `">`. -/
def href (entity : PositionedFormattedTextEntity) (fullText : QString) (index : Nat) : QString :=
  let tag := (entity.getHtmlTags fullText index).1
  (tag.drop (ofString "<a href=\"").length).dropLast.dropLast

/-- The link of the entity is opened; commands are looked at by `Utilities` first. -/
def openLink (entity : PositionedFormattedTextEntity) (fullText : QString) (index : Nat) (context : LinkContext) :
    LinkAction :=
  let link := entity.href fullText index
  if entity.type = .botCommand then Utilities.handleLink link context
  else FormattedText.handleLink link context.skipConfirmation context.checkExternalOnError

end PositionedFormattedTextEntity

namespace EntityLinks

/-- A mention is written with an at sign in front of the name. -/
def userName : QString → QString
  | [] => []
  | c :: name => if c = 0x40 then name else c :: name

/-- What opening the link of an entity is to do, from its map and its part of the text. -/
def target (entityType : QVariantMap) (part : QString) (context : LinkContext) : Option LinkAction :=
  let internal (link : QString) : LinkAction :=
    .getInternalLinkType link context.skipConfirmation context.checkExternalOnError
  match EntityType.ofString (entityType.value TYPE_).toStr with
  | .url => some (internal part)
  | .textUrl => some (internal (ofString (entityType.value "url").toStr))
  | .phoneNumber => some (internal (ofString "tel:" ++ part))
  | .emailAddress => some (internal (ofString "mailto:" ++ part))
  | .botCommand => some (.sendTextMessage context.botCommandChatId part context.botCommandTopicId)
  | .mention => some (.searchPublicChatOpenDirectly (userName part))
  | .mentionName => some (.createPrivateChat (entityType.value USER_ID).toLongLong)
  | .hashtag => some (.searchHashtag part false)
  | .cashtag => some (.searchHashtag part true)
  | _ => none

/-- The data an entity is to hold, for the types that hold any. -/
def data (entityType : QVariantMap) : Option QVariant :=
  match EntityType.ofString (entityType.value TYPE_).toStr with
  | .textUrl => some (.string (entityType.value "url").toStr)
  | .mentionName => some (.longLong (entityType.value USER_ID).toLongLong)
  | .customEmoji => some (.longLong (entityType.value "custom_emoji_id").toLongLong)
  | _ => none

/-- The URL an entity brings along itself. -/
def ownUrl (entityType : QVariantMap) (part : QString) : Option QString :=
  match EntityType.ofString (entityType.value TYPE_).toStr with
  | .url => some part
  | .textUrl => some (ofString (entityType.value "url").toStr)
  | _ => none

/-- The schemes that only the client gives to links. -/
def privateSchemes : List QString :=
  ["user://", "userId://", "hashtag://", "cashtag://", "botCommand://", "revealSpoiler://"].map ofString

def OwnUrlPublic (entityType : QVariantMap) (part : QString) : Prop :=
  ∀ url, ownUrl entityType part = some url → ∀ scheme ∈ privateSchemes, url.startsWith scheme = false

/-- The entity made of a map holds the data of the map, and its link does to exactly the target of the map what it is
to do. -/
structure LeadsToTarget (entity : QVariantMap) (fullText : QString) (index : Nat) (context : LinkContext) : Prop where
  data : ∀ d, data (entity.value TYPE).toMap = some d → (PositionedFormattedTextEntity.ofMap entity).typeData = d
  opens : ∀ action,
    target (entity.value TYPE).toMap ((PositionedFormattedTextEntity.ofMap entity).getTextPart fullText) context =
      some action →
    (PositionedFormattedTextEntity.ofMap entity).openLink fullText index context = action

/-- Never for a URL of its own, since its text is overwritten by a number; for a user only if the number read last is
the id; for a mention only if there is no name for the unit too many to be cut from. -/
def ReadsTarget (entityType : QVariantMap) (part : QString) : Prop :=
  match EntityType.ofString (entityType.value TYPE_).toStr with
  | .textUrl => False
  | .mentionName => (entityType.value "custom_emoji_id").toLongLong = (entityType.value USER_ID).toLongLong
  | .mention => part = [] ∨ part.head? = some 0x40
  | _ => True

/-! ### Texts of numbers -/

theorem char_ofNat_toUInt16 {c : Char} (h : c.toNat < 0xD800) : Char.ofNat c.toNat.toUInt16.toNat = c := by
  have hlt : c.toNat < 2 ^ 16 := h.trans (by decide)
  rw [Nat.toUInt16, UInt16.toNat_ofNat_of_lt' hlt, Char.ofNat_toNat]

theorem map_ofString {cs : List Char} (h : ∀ c ∈ cs, c.toNat < 0xD800) :
    (ofString (String.ofList cs)).map (fun c => Char.ofNat c.toNat) = cs := by
  rw [ofString, String.toList_ofList]
  induction cs with
  | nil => rfl
  | cons c cs ih =>
      obtain ⟨hc, hcs⟩ := List.forall_mem_cons.mp h
      have hunits : unitsOf c = [c.toNat.toUInt16] := by
        rw [unitsOf]
        exact if_pos (by omega)
      rw [List.flatMap_cons, hunits, List.singleton_append, List.map_cons, char_ofNat_toUInt16 hc, ih hcs]

theorem toLongLong_ofString {cs : List Char} (h : ∀ c ∈ cs, c.toNat < 0xD800) :
    (ofString (String.ofList cs)).toLongLong = stringToLongLong (String.ofList cs) := by
  rw [QString.toLongLong, map_ofString h]

/-- The numbers of `qlonglong`. -/
def IsLongLong (n : Int) : Prop := -2 ^ 63 ≤ n ∧ n < 2 ^ 63

theorem toNat_lt_of_isDigit {c : Char} (h : c.isDigit = true) : c.toNat < 0xD800 := by
  have hbounds : '0'.toNat ≤ c.toNat ∧ c.toNat ≤ '9'.toNat := by
    simpa [Char.isDigit, UInt32.le_iff_toNat_le] using h
  exact hbounds.2.trans_lt (by decide)

theorem stringToLongLong_neg {n : Nat} (h : n ≤ 2 ^ 63) :
    stringToLongLong (String.ofList ('-' :: Nat.toDigits 10 n)) = -n := by
  obtain ⟨c, rest, hdigits⟩ := List.exists_cons_of_ne_nil (@Nat.toDigits_ne_nil n 10)
  have hvalue : digitsToNat (c :: rest) 0 = some n := by
    rw [← hdigits, digitsToNat_eq isDigit_of_mem_toDigits, Nat.ofDigitChars_ten_toDigits]
  unfold stringToLongLong
  rw [String.toList_ofList, hdigits]
  change (if -2 ^ 63 ≤ -((digitsToNat (c :: rest) 0).getD 0 : Int) ∧ -((digitsToNat (c :: rest) 0).getD 0 : Int) < 2 ^ 63
    then -((digitsToNat (c :: rest) 0).getD 0 : Int) else 0) = -n
  rw [hvalue, Option.getD_some, if_pos (by omega)]

/-- A number that is written and read again. -/
theorem toLongLong_number {n : Int} (h : IsLongLong n) : (ofString (toString n)).toLongLong = n := by
  obtain ⟨hlow, hhigh⟩ := h
  rcases n with n | n
  · have htext : toString (Int.ofNat n) = String.ofList (Nat.toDigits 10 n) := rfl
    rw [htext, toLongLong_ofString fun c hc => toNat_lt_of_isDigit (isDigit_of_mem_toDigits c hc),
      TDLibReceiver.stringToLongLong_toDigits (by simpa using Int.lt_toNat.mpr hhigh), Int.ofNat_eq_natCast]
  · have htext : toString (Int.negSucc n) = String.ofList ('-' :: Nat.toDigits 10 (n + 1)) := by
      have hrepr : toString (Int.negSucc n) = "-" ++ String.ofList (Nat.toDigits 10 (n + 1)) := rfl
      rw [hrepr, String.ofList_cons]
      rfl
    have hascii : ∀ c ∈ '-' :: Nat.toDigits 10 (n + 1), c.toNat < 0xD800 :=
      List.forall_mem_cons.mpr ⟨by decide, fun c hc => toNat_lt_of_isDigit (isDigit_of_mem_toDigits c hc)⟩
    rw [htext, toLongLong_ofString hascii, stringToLongLong_neg (by omega)]
    omega

/-! ### Links -/

theorem mid_append (scheme part : QString) : (scheme ++ part).mid scheme.length = part := by
  unfold mid
  rw [if_neg (by rw [List.length_append]; omega), if_neg (by omega), if_pos (by omega), Int.toNat_natCast,
    List.drop_left]

theorem startsWith_append (scheme part : QString) : (scheme ++ part).startsWith scheme = true :=
  List.isPrefixOf_iff_prefix.mpr (List.prefix_append scheme part)

/-- What is read out of a tag is what was put in. -/
theorem href_of_tags {entity : PositionedFormattedTextEntity} {fullText scheme part : QString} {index : Nat}
    (h : entity.getHtmlTags fullText index = PositionedFormattedTextEntity.linkTags scheme part) :
    entity.href fullText index = scheme ++ part := by
  have hend : ofString "\">" = [0x22, 0x3E] := rfl
  rw [PositionedFormattedTextEntity.href, h, PositionedFormattedTextEntity.linkTags, List.append_assoc,
    List.append_assoc, List.drop_left, hend, ← List.append_assoc]
  simp

theorem handleLink_user (name : QString) (skipConfirmation checkExternalOnError : Bool) :
    FormattedText.handleLink (ofString "user://" ++ name) skipConfirmation checkExternalOnError =
      .searchPublicChatOpenDirectly (name.drop 1) := by
  rw [FormattedText.handleLink, if_pos (startsWith_append _ _)]
  cases name with
  | nil => rfl
  | cons c name =>
      have hmid := mid_append (ofString "user://" ++ [c]) name
      rw [List.append_assoc, List.singleton_append] at hmid
      exact congrArg _ hmid

theorem handleLink_userId (part : QString) (skipConfirmation checkExternalOnError : Bool) :
    FormattedText.handleLink (ofString "userId://" ++ part) skipConfirmation checkExternalOnError =
      .createPrivateChat part.toLongLong := by
  have hmid : (ofString "userId://" ++ part).mid 9 = part := mid_append (ofString "userId://") part
  have hne : (ofString "userId://" ++ part).startsWith (ofString "user://") = false := rfl
  rw [FormattedText.handleLink, hne, if_neg Bool.false_ne_true, if_pos (startsWith_append _ _), hmid]

theorem handleLink_hashtag (part : QString) (skipConfirmation checkExternalOnError : Bool) :
    FormattedText.handleLink (ofString "hashtag://" ++ part) skipConfirmation checkExternalOnError =
      .searchHashtag part false :=
  congrArg (LinkAction.searchHashtag · false) (mid_append (ofString "hashtag://") part)

theorem handleLink_cashtag (part : QString) (skipConfirmation checkExternalOnError : Bool) :
    FormattedText.handleLink (ofString "cashtag://" ++ part) skipConfirmation checkExternalOnError =
      .searchHashtag part true :=
  congrArg (LinkAction.searchHashtag · true) (mid_append (ofString "cashtag://") part)

theorem handleLink_botCommand (part : QString) (context : LinkContext) :
    Utilities.handleLink (ofString "botCommand://" ++ part) context =
      .sendTextMessage context.botCommandChatId part context.botCommandTopicId :=
  congrArg (LinkAction.sendTextMessage context.botCommandChatId · context.botCommandTopicId)
    (mid_append (ofString "botCommand://") part)

/-- A link under none of the client's schemes is left to TDLib. -/
theorem handleLink_public {link : QString} (h : ∀ scheme ∈ privateSchemes, link.startsWith scheme = false)
    (skipConfirmation checkExternalOnError : Bool) :
    FormattedText.handleLink link skipConfirmation checkExternalOnError =
      .getInternalLinkType link skipConfirmation checkExternalOnError := by
  have hscheme (scheme : String) (hmem : ofString scheme ∈ privateSchemes) :
      ¬ link.startsWith (ofString scheme) = true := by
    rw [h _ hmem]
    exact Bool.false_ne_true
  rw [FormattedText.handleLink, if_neg (hscheme _ (by simp [privateSchemes])),
    if_neg (hscheme _ (by simp [privateSchemes])), if_neg (hscheme _ (by simp [privateSchemes])),
    if_neg (hscheme _ (by simp [privateSchemes]))]

theorem userName_eq_drop_iff (part : QString) : part.drop 1 = userName part ↔ part = [] ∨ part.head? = some 0x40 := by
  cases part with
  | nil => simp [userName]
  | cons c name =>
      rw [List.drop_one, List.tail_cons, userName, List.head?_cons]
      split_ifs with hat
      · simp [hat]
      · have hne : name ≠ c :: name := fun heq => by simpa using congrArg List.length heq
        simp [hat, hne]

section Types

variable {entity : QVariantMap} {fullText : QString} {index : Nat} {context : LinkContext}

/-- An entity without data leads to its target if its link does. -/
theorem leads_of_data_eq_none (hdata : data (entity.value TYPE).toMap = none) :
    LeadsToTarget entity fullText index context ↔ ∀ action,
      target (entity.value TYPE).toMap ((PositionedFormattedTextEntity.ofMap entity).getTextPart fullText) context =
        some action →
      (PositionedFormattedTextEntity.ofMap entity).openLink fullText index context = action := by
  refine ⟨LeadsToTarget.opens, fun h => ⟨fun d hd => ?_, h⟩⟩
  rw [hdata] at hd
  cases hd

theorem openLink_of_tags {entity : PositionedFormattedTextEntity} {scheme part : QString}
    (htype : entity.type ≠ .botCommand)
    (h : entity.getHtmlTags fullText index = PositionedFormattedTextEntity.linkTags scheme part) :
    entity.openLink fullText index context =
      FormattedText.handleLink (scheme ++ part) context.skipConfirmation context.checkExternalOnError := by
  rw [PositionedFormattedTextEntity.openLink, href_of_tags h]
  exact if_neg htype

/-- For every map of an entity, whatever the text, the index of the entity and the way links are opened. -/
theorem leadsToTarget_iff (hnumber : IsLongLong ((entity.value TYPE).toMap.value "custom_emoji_id").toLongLong)
    (hown : OwnUrlPublic (entity.value TYPE).toMap
      ((PositionedFormattedTextEntity.ofMap entity).getTextPart fullText)) :
    LeadsToTarget entity fullText index context ↔
      ReadsTarget (entity.value TYPE).toMap
        ((PositionedFormattedTextEntity.ofMap entity).getTextPart fullText) := by
  have htype : (PositionedFormattedTextEntity.ofMap entity).type =
    EntityType.ofString ((entity.value TYPE).toMap.value TYPE_).toStr := rfl
  have htypeData : (PositionedFormattedTextEntity.ofMap entity).typeData =
    (FormattedTextEntity.ofMap (entity.value TYPE).toMap).typeData := rfl
  have htags := PositionedFormattedTextEntity.getHtmlTags.eq_def (PositionedFormattedTextEntity.ofMap entity) fullText
    index
  cases hkind : EntityType.ofString ((entity.value TYPE).toMap.value TYPE_).toStr with
  | url =>
      rw [htype, hkind] at htags
      rw [leads_of_data_eq_none (by simp only [data, hkind]), openLink_of_tags (by simp [htype, hkind]) htags]
      simp only [target, ReadsTarget, hkind, List.nil_append, Option.some.injEq, forall_eq', iff_true]
      exact handleLink_public (hown _ (by simp only [ownUrl, hkind])) _ _
  | textUrl =>
      refine iff_of_false (fun h => ?_) (by simp only [ReadsTarget, hkind, not_false_iff])
      have hdata := h.data _ (by simp only [data, hkind]; rfl)
      rw [htypeData] at hdata
      simp [FormattedTextEntity.ofMap, hkind] at hdata
  | phoneNumber =>
      rw [htype, hkind] at htags
      rw [leads_of_data_eq_none (by simp only [data, hkind]), openLink_of_tags (by simp [htype, hkind]) htags]
      simp only [target, ReadsTarget, hkind, Option.some.injEq, forall_eq', iff_true]
      rfl
  | emailAddress =>
      rw [htype, hkind] at htags
      rw [leads_of_data_eq_none (by simp only [data, hkind]), openLink_of_tags (by simp [htype, hkind]) htags]
      simp only [target, ReadsTarget, hkind, Option.some.injEq, forall_eq', iff_true]
      rfl
  | botCommand =>
      rw [htype, hkind] at htags
      rw [leads_of_data_eq_none (by simp only [data, hkind]), PositionedFormattedTextEntity.openLink,
        href_of_tags htags]
      simp only [target, ReadsTarget, hkind, htype, if_true, Option.some.injEq, forall_eq', iff_true]
      exact handleLink_botCommand _ context
  | mention =>
      rw [htype, hkind] at htags
      rw [leads_of_data_eq_none (by simp only [data, hkind]), openLink_of_tags (by simp [htype, hkind]) htags,
        handleLink_user]
      simp only [target, ReadsTarget, hkind, Option.some.injEq, forall_eq', LinkAction.searchPublicChatOpenDirectly.injEq]
      exact userName_eq_drop_iff _
  | mentionName =>
      rw [htype, hkind] at htags
      have hnumberText : (PositionedFormattedTextEntity.ofMap entity).typeData =
          .longLong ((entity.value TYPE).toMap.value "custom_emoji_id").toLongLong := by
        rw [htypeData]
        simp [FormattedTextEntity.ofMap, hkind]
      constructor
      · intro h
        have hdata := h.data _ (by simp only [data, hkind]; rfl)
        rw [hnumberText, QVariant.longLong.injEq] at hdata
        simpa only [ReadsTarget, hkind] using hdata
      · intro h
        simp only [ReadsTarget, hkind] at h
        refine ⟨fun d hd => ?_, fun action haction => ?_⟩
        · simp only [data, hkind, Option.some.injEq] at hd
          rw [hnumberText, h, hd]
        · simp only [target, hkind, Option.some.injEq] at haction
          rw [openLink_of_tags (by simp [htype, hkind]) htags, handleLink_userId, hnumberText, QVariant.toStr,
            toLongLong_number hnumber, h, haction]
  | hashtag =>
      rw [htype, hkind] at htags
      rw [leads_of_data_eq_none (by simp only [data, hkind]), openLink_of_tags (by simp [htype, hkind]) htags]
      simp only [target, ReadsTarget, hkind, Option.some.injEq, forall_eq', iff_true]
      exact handleLink_hashtag _ _ _
  | cashtag =>
      rw [htype, hkind] at htags
      rw [leads_of_data_eq_none (by simp only [data, hkind]), openLink_of_tags (by simp [htype, hkind]) htags]
      simp only [target, ReadsTarget, hkind, Option.some.injEq, forall_eq', iff_true]
      exact handleLink_cashtag _ _ _
  | customEmoji =>
      refine iff_of_true ⟨fun d hd => ?_, fun action haction => ?_⟩ (by simp only [ReadsTarget, hkind])
      · simp only [data, hkind, Option.some.injEq] at hd
        rw [htypeData, ← hd]
        simp [FormattedTextEntity.ofMap, hkind]
      · simp only [target, hkind, reduceCtorEq] at haction
  | _ =>
      rw [leads_of_data_eq_none (by simp only [data, hkind])]
      simp only [target, ReadsTarget, hkind, reduceCtorEq, false_imp_iff, implies_true]

end Types

/-- The map of an entity from the start of a text. -/
def entityMap (entityType : QVariantMap) (length : Int) : QVariantMap :=
  [(TYPE, .map entityType), ("offset", .longLong 0), ("length", .longLong length)]

def mentionMap : QVariantMap := entityMap [(TYPE_, .string "textEntityTypeMention")] 4

def textUrlMap : QVariantMap :=
  entityMap [(TYPE_, .string "textEntityTypeTextUrl"), ("url", .string "https://a")] 4

def plainContext : LinkContext := ⟨1, [], false, true⟩

/-- A mention leads to the user. -/
theorem leadsToTarget_mention : LeadsToTarget mentionMap (ofString "@bob says") 0 plainContext := by
  refine (leadsToTarget_iff ⟨by decide, by decide⟩ ?_).mpr (Or.inr rfl)
  exact fun url hurl => nomatch hurl

/-- A text with a URL of its own does not lead there: the URL is lost as soon as the entity is made. -/
theorem not_leadsToTarget :
    ¬ ∀ (entity : QVariantMap) (fullText : QString) (index : Nat) (context : LinkContext),
      IsLongLong ((entity.value TYPE).toMap.value "custom_emoji_id").toLongLong →
      OwnUrlPublic (entity.value TYPE).toMap
        ((PositionedFormattedTextEntity.ofMap entity).getTextPart fullText) →
      LeadsToTarget entity fullText index context := by
  intro h
  have hown : OwnUrlPublic (textUrlMap.value TYPE).toMap
      ((PositionedFormattedTextEntity.ofMap textUrlMap).getTextPart (ofString "here")) := by
    intro url hurl
    obtain rfl : url = ofString "https://a" := (Option.some.inj hurl).symm
    decide
  have hleads := h textUrlMap (ofString "here") 0 plainContext ⟨by decide, by decide⟩ hown
  have hopens := hleads.opens _ rfl
  exact absurd hopens (by decide)

end EntityLinks

end YaqtLib
