import YaqtLib.CleanupMap
import YaqtLib.Receiver

/-! The message objects of TDLib, as far as `cleanupMap` goes down into them, and what it makes of one. -/

namespace YaqtLib

open TdConst

namespace TDLibReceiver

/-- An object of TDLib of the given type. -/
def HasType (object : QVariantMap) (type : String) : Prop := object.value TYPE_ = .string type

instance (object : QVariantMap) (type : String) : Decidable (HasType object type) :=
  inferInstanceAs (Decidable (_ = _))

/-- A sticker; an optional one is left out when it is not known. -/
def IsSticker (object : QVariantMap) : Prop := object = [] ∨ HasType object STICKER

inductive IsDiceStickers (object : QVariantMap) : Prop
  | unknown (h : object = [])
  | regular (h : HasType object TYPE_DICE_STICKERS_REGULAR) (hsticker : IsSticker (object.value STICKER).toMap)
  | slotMachine (h : HasType object TYPE_DICE_STICKERS_SLOT_MACHINE)
      (hstickers : ∀ field ∈ [BACKGROUND, LEVER, LEFT_REEL, CENTER_REEL, RIGHT_REEL],
        IsSticker (object.value field).toMap)

def IsAnimatedEmoji (object : QVariantMap) : Prop :=
  object = [] ∨ HasType object TYPE_ANIMATED_EMOJI ∧ IsSticker (object.value STICKER).toMap

/-- The types for which `cleanupMap` does something. -/
def cleanedTypes : List String :=
  [STICKER, TYPE_ANIMATED_EMOJI, TYPE_MESSAGE, TYPE_DRAFT_MESSAGE, TYPE_MESSAGE_STICKER, TYPE_MESSAGE_ANIMATED_EMOJI,
    TYPE_STICKER_SET_INFO, TYPE_STICKER_SET, TYPE_SPONSORED_CHAT, TYPE_MESSAGE_DICE, TYPE_DICE_STICKERS_REGULAR,
    TYPE_DICE_STICKERS_SLOT_MACHINE, TYPE_MESSAGE_VOICE_NOTE, TYPE_VOICE_NOTE]

/-- The content of a message; a voice note always comes with its waveform. -/
inductive IsMessageContent (content : QVariantMap) : Prop
  | sticker (h : HasType content TYPE_MESSAGE_STICKER) (hsticker : IsSticker (content.value STICKER).toMap)
  | animatedEmoji (h : HasType content TYPE_MESSAGE_ANIMATED_EMOJI)
      (hemoji : IsAnimatedEmoji (content.value ANIMATED_EMOJI).toMap)
  | dice (h : HasType content TYPE_MESSAGE_DICE)
      (hstates : ∀ field ∈ [INITIAL_STATE, FINAL_STATE], IsDiceStickers (content.value field).toMap)
  | voiceNote (h : HasType content TYPE_MESSAGE_VOICE_NOTE)
      (hvoice : HasType (content.value VOICE_NOTE).toMap TYPE_VOICE_NOTE)
      (hwaveform : (content.value VOICE_NOTE).toMap.contains WAVEFORM = true)
  | other (type : String) (h : HasType content type) (hother : type ∉ cleanedTypes)

structure IsMessage (message : QVariantMap) : Prop where
  type : HasType message TYPE_MESSAGE
  content : IsMessageContent (message.value CONTENT).toMap
  replyTo : message.contains REPLY_TO = true → ∃ type, HasType (message.value REPLY_TO).toMap type

/-- The object the message replies to, if that is a message. -/
def RepliesToMessage (message : QVariantMap) : Prop :=
  message.contains REPLY_TO = true ∧ HasType (message.value REPLY_TO).toMap TYPE_MESSAGE_REPLY_TO_MESSAGE

instance (message : QVariantMap) : Decidable (RepliesToMessage message) := inferInstanceAs (Decidable (_ ∧ _))

/-- The ids of the message replied to stand in the message itself, as older versions of TDLib wrote them. -/
def RepeatsReplyIds (message : QVariantMap) : Prop :=
  RepliesToMessage message →
    ((message.value REPLY_TO).toMap.contains MESSAGE_ID = true → message.contains REPLY_TO_MESSAGE_ID = true) ∧
      ((message.value REPLY_TO).toMap.contains CHAT_ID = true → message.contains REPLY_IN_CHAT_ID = true)

instance (message : QVariantMap) : Decidable (RepeatsReplyIds message) := inferInstanceAs (Decidable (_ → _ ∧ _))

def IsVoiceNoteMessage (message : QVariantMap) : Prop :=
  HasType (message.value CONTENT).toMap TYPE_MESSAGE_VOICE_NOTE

instance (message : QVariantMap) : Decidable (IsVoiceNoteMessage message) := inferInstanceAs (Decidable (HasType _ _))

section Cleanup

variable (charSigned : Bool) {object content message : QVariantMap}

theorem HasType.toStr {type : String} (h : HasType object type) : (object.value TYPE_).toStr = type := by
  rw [h, QVariant.toStr]

theorem HasType.insert {type : String} (h : HasType object type) : object.insert TYPE_ (.string type) = object :=
  QVariantMap.insert_of_value h (by rintro ⟨⟩)

theorem cleanup_of_notMem {type : String} (h : HasType object type) (hother : type ∉ cleanedTypes) :
    cleanup charSigned object = (object, false) := by
  simp only [cleanedTypes, List.mem_cons, List.not_mem_nil, or_false, not_or] at hother
  rw [cleanup_eq, cleanupStep]
  simp [h.toStr, hother]

theorem cleanup_sticker (h : IsSticker object) : cleanupMap charSigned object = object := by
  rcases h with rfl | h
  · rfl
  · rw [cleanupMap, cleanup_eq, cleanupStep, if_pos h.toStr]
    exact h.insert

/-- Writing an unchanged object back changes nothing. -/
theorem insert_cleaned {field : String} (h : cleanupMap charSigned (object.value field).toMap = (object.value field).toMap)
    (hcleaned : (cleanup charSigned (object.value field).toMap).2 = true) :
    object.insert field (.map (cleanup charSigned (object.value field).toMap).1) = object := by
  have hne : (object.value field).toMap ≠ [] := by
    intro hnil
    rw [hnil] at hcleaned
    exact absurd hcleaned (by simp)
  have hvalue := QVariant.eq_map_of_toMap_ne_nil hne
  rw [cleanupMap] at h
  rw [h]
  exact QVariantMap.insert_of_value hvalue (by rintro ⟨⟩)

theorem cleanupNested_of_unchanged {field type : String} (htype : HasType object type)
    (h : cleanupMap charSigned (object.value field).toMap = (object.value field).toMap) :
    (cleanupNested (cleanup charSigned) field type object).1 = object := by
  rw [cleanupNested_eq]
  refine iteInduction (motive := fun result : Cleaned QVariantMap => result.1 = object) (fun hcleaned => ?_) fun _ => rfl
  rw [insert_cleaned charSigned h hcleaned]
  exact htype.insert

theorem cleanupFields_of_unchanged {fields : List String}
    (h : ∀ field ∈ fields, cleanupMap charSigned (object.value field).toMap = (object.value field).toMap) :
    (cleanupFields (cleanup charSigned) object fields).1 = object := by
  refine cleanupFields_rule (P := fun result => result.1 = object) _ object fields rfl
    fun result hresult field hfield hcleaned => ?_
  rw [hresult]
  exact insert_cleaned charSigned (h field hfield) hcleaned

theorem cleanup_animatedEmoji (h : IsAnimatedEmoji object) : cleanupMap charSigned object = object := by
  rcases h with rfl | ⟨htype, hsticker⟩
  · rfl
  · rw [cleanupMap, cleanup_eq, cleanupStep, htype.toStr]
    exact cleanupNested_of_unchanged charSigned htype (cleanup_sticker charSigned hsticker)

theorem cleanup_diceStickers (h : IsDiceStickers object) : cleanupMap charSigned object = object := by
  cases h with
  | unknown h => rw [h]; rfl
  | regular htype hsticker =>
      rw [cleanupMap, cleanup_eq, cleanupStep, htype.toStr]
      exact cleanupNested_of_unchanged charSigned htype (cleanup_sticker charSigned hsticker)
  | slotMachine htype hstickers =>
      rw [cleanupMap, cleanup_eq, cleanupStep, htype.toStr]
      exact cleanupFields_of_unchanged charSigned fun field hfield => cleanup_sticker charSigned (hstickers field hfield)

/-- Of the contents, only voice notes are changed. -/
theorem cleanup_content (h : IsMessageContent content) (hvoice : ¬ HasType content TYPE_MESSAGE_VOICE_NOTE) :
    cleanupMap charSigned content = content := by
  cases h with
  | sticker htype hsticker =>
      rw [cleanupMap, cleanup_eq, cleanupStep, htype.toStr]
      exact cleanupNested_of_unchanged charSigned htype (cleanup_sticker charSigned hsticker)
  | animatedEmoji htype hemoji =>
      rw [cleanupMap, cleanup_eq, cleanupStep, htype.toStr]
      exact cleanupNested_of_unchanged charSigned htype (cleanup_animatedEmoji charSigned hemoji)
  | dice htype hstates =>
      have hfields := cleanupFields_of_unchanged charSigned fun field hfield =>
        cleanup_diceStickers charSigned (hstates field hfield)
      have hstep : cleanup charSigned content =
          if (cleanupFields (cleanup charSigned) content [INITIAL_STATE, FINAL_STATE]).2 then
            ((cleanupFields (cleanup charSigned) content [INITIAL_STATE, FINAL_STATE]).1.insert TYPE_
              (.string TYPE_MESSAGE_DICE), true)
          else (content, false) := by
        rw [cleanup_eq, cleanupStep, htype.toStr]
        rfl
      rw [cleanupMap, hstep, hfields]
      exact iteInduction (motive := fun result : Cleaned QVariantMap => result.1 = content) (fun _ => htype.insert)
        fun _ => rfl
  | voiceNote htype => exact absurd htype hvoice
  | other type htype hother => rw [cleanupMap, cleanup_of_notMem charSigned htype hother]

/-- The waveform of a voice note is replaced by the decoded one. -/
theorem cleanup_voiceNote (h : IsMessageContent content) (hvoice : HasType content TYPE_MESSAGE_VOICE_NOTE) :
    (cleanup charSigned content).2 = true ∧ (cleanup charSigned content).1 ≠ content := by
  cases h with
  | voiceNote htype hnote hwaveform =>
      have hcleaned : cleanup charSigned (content.value VOICE_NOTE).toMap =
          (cleanupVoiceNote charSigned (content.value VOICE_NOTE).toMap, true) := by
        rw [cleanup_eq, cleanupStep, hnote.toStr]
        rfl
      have heq : cleanup charSigned content =
          ((content.insert VOICE_NOTE (.map (cleanupVoiceNote charSigned (content.value VOICE_NOTE).toMap))).insert TYPE_
            (.string TYPE_MESSAGE_VOICE_NOTE), true) := by
        rw [cleanup_eq, cleanupStep, htype.toStr]
        change cleanupNested (cleanup charSigned) VOICE_NOTE TYPE_MESSAGE_VOICE_NOTE content = _
        rw [cleanupNested_eq, hcleaned]
        rfl
      rw [heq]
      refine ⟨rfl, fun hsame => ?_⟩
      have hvalue := congrArg (fun map => ((QVariantMap.value map VOICE_NOTE).toMap).contains WAVEFORM) hsame
      dsimp only at hvalue
      rw [QVariantMap.value_insert_of_ne _ _ (by decide), QVariantMap.value_insert_self, hwaveform, QVariant.toMap,
        cleanupVoiceNote, QVariantMap.contains_remove_self] at hvalue
      exact Bool.noConfusion hvalue
  | sticker htype => exact absurd (htype.symm.trans hvoice) (by decide)
  | animatedEmoji htype => exact absurd (htype.symm.trans hvoice) (by decide)
  | dice htype => exact absurd (htype.symm.trans hvoice) (by decide)
  | other type htype hother =>
      have heq : type = TYPE_MESSAGE_VOICE_NOTE := QVariant.string.inj (htype.symm.trans hvoice)
      exact absurd (heq ▸ hother) (by decide)

/-! ### Messages -/

theorem cleanup_message (h : HasType message TYPE_MESSAGE) :
    cleanup charSigned message = cleanupMessage (cleanup charSigned) message := by
  rw [cleanup_eq, cleanupStep, h.toStr]
  rfl

theorem value_withCleanContent (clean : QVariantMap → Cleaned QVariantMap) {key : String} (h : key ≠ CONTENT) :
    (withCleanContent clean message).value key = message.value key :=
  iteInduction (motive := fun result : QVariantMap => result.value key = message.value key)
    (fun _ => QVariantMap.value_insert_of_ne _ _ h) fun _ => rfl

theorem replyToOf_eq (clean : QVariantMap → Cleaned QVariantMap) :
    replyToOf clean message = (message.value REPLY_TO).toMap := by
  rw [replyToOf, value_withCleanContent clean (by decide)]

theorem repliesToMessage_iff (h : IsMessage message) :
    (message.contains REPLY_TO && decide (((message.value REPLY_TO).toMap.value TYPE_).toStr =
      TYPE_MESSAGE_REPLY_TO_MESSAGE)) = true ↔ RepliesToMessage message := by
  rw [Bool.and_eq_true, decide_eq_true_iff, RepliesToMessage]
  refine and_congr_right fun hcontains => ?_
  obtain ⟨type, htype⟩ := h.replyTo hcontains
  rw [htype.toStr, HasType, htype, QVariant.string.injEq]

/-- The form of a message: its content cleaned, and the ids of the message it replies to. -/
theorem cleanupMap_message (h : IsMessage message) : cleanupMap charSigned message =
    if RepliesToMessage message then
      ((copyMissing (message.value REPLY_TO).toMap CHAT_ID (copyMissing (message.value REPLY_TO).toMap MESSAGE_ID
        (withCleanContent (cleanup charSigned) message) REPLY_TO_MESSAGE_ID) REPLY_IN_CHAT_ID).insert REPLY_TO
          (.map (message.value REPLY_TO).toMap)).insert TYPE_ (.string TYPE_MESSAGE)
    else if (cleanup charSigned (message.value CONTENT).toMap).2 then
      (withCleanContent (cleanup charSigned) message).insert TYPE_ (.string TYPE_MESSAGE)
    else message := by
  rw [cleanupMap, cleanup_message charSigned h.type, cleanupMessage_eq, replyToOf_eq]
  by_cases hto : RepliesToMessage message
  · rw [if_pos ((repliesToMessage_iff h).mpr hto), if_pos hto, hto.2.insert]
  · rw [if_neg fun hreplies => hto ((repliesToMessage_iff h).mp hreplies), if_neg hto, apply_ite Prod.fst]

theorem withCleanContent_of_unchanged
    (h : cleanupMap charSigned (message.value CONTENT).toMap = (message.value CONTENT).toMap) :
    withCleanContent (cleanup charSigned) message = message :=
  iteInduction (motive := fun result : QVariantMap => result = message) (fun hcleaned => insert_cleaned charSigned h hcleaned)
    fun _ => rfl

/-- Messages that repeat the ids of their reply and are no voice notes are kept as they are. -/
theorem cleanupMap_eq_self (h : IsMessage message) (hrepeats : RepeatsReplyIds message)
    (hvoice : ¬ IsVoiceNoteMessage message) : cleanupMap charSigned message = message := by
  have hcontent := withCleanContent_of_unchanged charSigned (cleanup_content charSigned h.content hvoice)
  rw [cleanupMap_message charSigned h, hcontent]
  by_cases hto : RepliesToMessage message
  · have hvalue : message.value REPLY_TO = .map (message.value REPLY_TO).toMap := by
      refine QVariant.eq_map_of_toMap_ne_nil fun hnil => ?_
      have htype := hto.2
      rw [hnil] at htype
      exact QVariant.noConfusion htype
    have hmessageId := copyMissing_of_contains (hrepeats hto).1
    have hchatId := copyMissing_of_contains (hrepeats hto).2
    rw [if_pos hto, hmessageId, hchatId, QVariantMap.insert_of_value hvalue (by rintro ⟨⟩), h.type.insert]
  · rw [if_neg hto, h.type.insert, ite_self]

/-- The same object, whatever the client and the extra around it. -/
def SameObject (object object' : QVariantMap) : Prop :=
  ∀ key, key ≠ CLIENT_ID → key ≠ EXTRA_ →
    object.contains key = object'.contains key ∧ object.value key = object'.value key

theorem value_content_cleanupMap (h : IsMessage message)
    (hcleaned : (cleanup charSigned (message.value CONTENT).toMap).2 = true) :
    (cleanupMap charSigned message).value CONTENT = .map (cleanup charSigned (message.value CONTENT).toMap).1 := by
  have hcontent : (withCleanContent (cleanup charSigned) message).value CONTENT =
      .map (cleanup charSigned (message.value CONTENT).toMap).1 := by
    rw [withCleanContent, if_pos hcleaned]
    exact QVariantMap.value_insert_self _ _ _
  rw [cleanupMap_message charSigned h, if_pos hcleaned]
  refine iteInduction (motive := fun result : QVariantMap => result.value CONTENT = _) (fun _ => ?_) fun _ => ?_
  · rw [QVariantMap.value_insert_of_ne _ _ (by decide), QVariantMap.value_insert_of_ne _ _ (by decide),
      value_copyMissing_of_ne _ _ _ (by decide), value_copyMissing_of_ne _ _ _ (by decide), hcontent]
  · rw [QVariantMap.value_insert_of_ne _ _ (by decide), hcontent]

/-- The reply ids stand in the form of a reply. -/
theorem contains_cleanupMap (h : IsMessage message) (hto : RepliesToMessage message) :
    ((message.value REPLY_TO).toMap.contains MESSAGE_ID = true →
      (cleanupMap charSigned message).contains REPLY_TO_MESSAGE_ID = true) ∧
    ((message.value REPLY_TO).toMap.contains CHAT_ID = true →
      (cleanupMap charSigned message).contains REPLY_IN_CHAT_ID = true) := by
  rw [cleanupMap_message charSigned h, if_pos hto, QVariantMap.contains_insert, QVariantMap.contains_insert,
    QVariantMap.contains_insert, QVariantMap.contains_insert, contains_copyMissing_of_ne _ _ _ (by decide)]
  constructor
  · intro hmessageId
    rw [contains_copyMissing hmessageId, Bool.or_true, Bool.or_true]
  · intro hchatId
    rw [contains_copyMissing hchatId, Bool.or_true, Bool.or_true]

/-- Any other message is changed. -/
theorem sameObject_cleanupMap_iff (h : IsMessage message) :
    SameObject message (cleanupMap charSigned message) ↔ RepeatsReplyIds message ∧ ¬ IsVoiceNoteMessage message := by
  constructor
  · intro hsame
    refine ⟨fun hto => ⟨fun hmessageId => ?_, fun hchatId => ?_⟩, fun hvoice => ?_⟩
    · rw [(hsame REPLY_TO_MESSAGE_ID (by decide) (by decide)).1]
      exact (contains_cleanupMap charSigned h hto).1 hmessageId
    · rw [(hsame REPLY_IN_CHAT_ID (by decide) (by decide)).1]
      exact (contains_cleanupMap charSigned h hto).2 hchatId
    · obtain ⟨hcleaned, hne⟩ := cleanup_voiceNote charSigned h.content hvoice
      have hvalue := (hsame CONTENT (by decide) (by decide)).2
      rw [value_content_cleanupMap charSigned h hcleaned] at hvalue
      exact hne (congrArg QVariant.toMap hvalue).symm
  · rintro ⟨hrepeats, hvoice⟩
    rw [cleanupMap_eq_self charSigned h hrepeats hvoice]
    exact fun _ _ _ => ⟨rfl, rfl⟩

/-! ### The same message in another envelope -/

variable {object' message' : QVariantMap}

theorem SameObject.refl (object : QVariantMap) : SameObject object object := fun _ _ _ => ⟨rfl, rfl⟩

theorem SameObject.symm (h : SameObject object object') : SameObject object' object :=
  fun key hclient hextra => ⟨(h key hclient hextra).1.symm, (h key hclient hextra).2.symm⟩

theorem SameObject.trans {object'' : QVariantMap} (h : SameObject object object') (h' : SameObject object' object'') :
    SameObject object object'' := fun key hclient hextra =>
  ⟨(h key hclient hextra).1.trans (h' key hclient hextra).1, (h key hclient hextra).2.trans (h' key hclient hextra).2⟩

theorem SameObject.insert (h : SameObject object object') (k : String) (v : QVariant) :
    SameObject (object.insert k v) (object'.insert k v) := by
  intro key hclient hextra
  obtain ⟨hcontains, hvalue⟩ := h key hclient hextra
  refine ⟨by rw [QVariantMap.contains_insert, QVariantMap.contains_insert, hcontains], ?_⟩
  by_cases hkey : key = k
  · rw [hkey, QVariantMap.value_insert_self, QVariantMap.value_insert_self]
  · rw [QVariantMap.value_insert_of_ne _ _ hkey, QVariantMap.value_insert_of_ne _ _ hkey, hvalue]

/-- Writing a part of the envelope leaves the object. -/
theorem sameObject_insert (object : QVariantMap) {k : String} (v : QVariant) (h : k = CLIENT_ID ∨ k = EXTRA_) :
    SameObject (object.insert k v) object := by
  intro key hclient hextra
  have hne : key ≠ k := by
    rcases h with rfl | rfl
    · exact hclient
    · exact hextra
  rw [QVariantMap.contains_insert, decide_eq_false hne.symm, Bool.false_or, QVariantMap.value_insert_of_ne _ _ hne]
  exact ⟨rfl, rfl⟩

theorem SameObject.copyMissing (h : SameObject object object') (source : QVariantMap) (sourceKey : String)
    {targetKey : String} (hclient : targetKey ≠ CLIENT_ID) (hextra : targetKey ≠ EXTRA_) :
    SameObject (copyMissing source sourceKey object targetKey) (copyMissing source sourceKey object' targetKey) := by
  rw [TDLibReceiver.copyMissing, TDLibReceiver.copyMissing, (h targetKey hclient hextra).1]
  split_ifs
  · exact h.insert _ _
  · exact h

theorem IsMessage.of_sameObject (h : IsMessage message) (hsame : SameObject message' message) : IsMessage message' where
  type := (hsame TYPE_ (by decide) (by decide)).2.trans h.type
  content := by
    rw [(hsame CONTENT (by decide) (by decide)).2]
    exact h.content
  replyTo := by
    rw [(hsame REPLY_TO (by decide) (by decide)).1, (hsame REPLY_TO (by decide) (by decide)).2]
    exact h.replyTo

/-- The form of a message does not depend on its envelope. -/
theorem SameObject.cleanupMap (hsame : SameObject message' message) (h : IsMessage message) :
    SameObject (cleanupMap charSigned message') (cleanupMap charSigned message) := by
  have hcontent := (hsame CONTENT (by decide) (by decide)).2
  have hreplyTo := hsame REPLY_TO (by decide) (by decide)
  have hclean : SameObject (withCleanContent (cleanup charSigned) message')
      (withCleanContent (cleanup charSigned) message) := by
    rw [withCleanContent, withCleanContent, hcontent]
    split_ifs
    · exact hsame.insert _ _
    · exact hsame
  have hto : RepliesToMessage message' ↔ RepliesToMessage message := by
    rw [RepliesToMessage, RepliesToMessage, hreplyTo.1, hreplyTo.2]
  rw [cleanupMap_message charSigned (h.of_sameObject hsame), cleanupMap_message charSigned h, hreplyTo.2, hcontent]
  by_cases hreplies : RepliesToMessage message
  · rw [if_pos hreplies, if_pos (hto.mpr hreplies)]
    exact (((hclean.copyMissing _ _ (by decide) (by decide)).copyMissing _ _ (by decide) (by decide)).insert _ _).insert _ _
  · rw [if_neg hreplies, if_neg (hto.not.mpr hreplies)]
    split_ifs
    · exact hclean.insert _ _
    · exact hsame

end Cleanup

end TDLibReceiver

end YaqtLib
