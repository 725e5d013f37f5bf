import YaqtLib.ChatData
import YaqtLib.ForumTopic

/-! The roles of the topics of a forum in the views (`forumtopicsmodel.cpp`), the updates of a topic with the roles they
report (`forumtopic.cpp`), and what a topic that is received again shows. -/

namespace YaqtLib

open TdConst

namespace TdConst

abbrev COLOR : String := "color"
abbrev CUSTOM_EMOJI_ID : String := "custom_emoji_id"

end TdConst

namespace ForumTopic

/-! ### What is shown -/

inductive ModelRole where
  | display
  | id
  | name
  | iconColor
  | iconCustomEmojiId
  | creationDate
  | creatorId
  | isGeneral
  | isOutgoing
  | isClosed
  | isHidden
  | isNameImplicit
  | lastMessageId
  | lastMessageSenderId
  | lastMessageDate
  | lastMessageText
  | lastMessageMinithumbnail
  | lastMessageIsService
  | lastMessageSendingState
  | lastMessageIsOutgoing
  | isPinned
  | unreadCount
  | lastReadOutboxMessageId
  | lastReadInboxMessageId
  | unreadMentionCount
  | unreadReactionCount
  | unreadPollVoteCount
  | notificationSettings
  | draftMessageText
  | draftMessageDate
  deriving DecidableEq

/-- What a row shows under a role. -/
inductive RoleValue where
  | variant (v : QVariant)
  | sender (sender : Account.MessageSender)
  | color (rgb : BitVec 32)
  deriving DecidableEq

/-- The preview text of a message, which is composed in the language of the user and may name the topic. -/
structure Texts where
  messageText : (message : QVariantMap) → (forumTopicName : String) → String

def name (topic : ForumTopic) : String := (topic.info.value NAME).toStr

def isGeneral (topic : ForumTopic) : Bool := (topic.info.value IS_GENERAL).toBool

def iconColor (topic : ForumTopic) : BitVec 32 :=
  BitVec.ofInt 32 ((topic.info.value ICON).toMap.value COLOR).toInt ||| 0xFF000000

def iconCustomEmojiId (topic : ForumTopic) : Int := ((topic.info.value ICON).toMap.value CUSTOM_EMOJI_ID).toLongLong

def unreadCount (topic : ForumTopic) : Int := (topic.data.value UNREAD_COUNT).toInt

def unreadMentionCount (topic : ForumTopic) : Int := (topic.data.value UNREAD_MENTION_COUNT).toInt

def unreadReactionCount (topic : ForumTopic) : Int := (topic.data.value UNREAD_REACTION_COUNT).toInt

def unreadPollVoteCount (topic : ForumTopic) : Int := (topic.data.value UNREAD_POLL_VOTE_COUNT).toInt

def lastMessageSenderId (topic : ForumTopic) : Account.MessageSender := .of (topic.lastMessage.value SENDER_ID).toMap

def lastMessageText (texts : Texts) (topic : ForumTopic) : String := texts.messageText topic.lastMessage topic.name

def lastMessageMinithumbnail (topic : ForumTopic) : QVariant :=
  Account.ChatData.getMessageMinithumbnail (topic.lastMessage.value CONTENT).toMap

def lastMessageIsService (topic : ForumTopic) : Bool :=
  Account.ChatData.messageContentIsService ((topic.lastMessage.value CONTENT).toMap.value TYPE_).toStr

def lastMessageSendingState (topic : ForumTopic) : QVariant := topic.lastMessage.value SENDING_STATE

def lastMessageIsOutgoing (topic : ForumTopic) : Bool := (topic.lastMessage.value IS_OUTGOING).toBool

def draftMessageText (topic : ForumTopic) : String :=
  let content := (topic.draftMessage.value CONTENT).toMap
  if (content.value TYPE_).toStr ≠ "draftMessageContentText" then ""
  else ((content.value TEXT).toMap.value TEXT).toStr

/-- `ForumTopicsModel::data`; the notification settings are shown under no role. -/
def roleData (texts : Texts) (topic : ForumTopic) : ModelRole → RoleValue
  | .display => .variant (.map topic.data)
  | .id => .variant (.longLong topic.id)
  | .name => .variant (.string topic.name)
  | .iconColor => .color topic.iconColor
  | .iconCustomEmojiId => .variant (.string (toString topic.iconCustomEmojiId))
  | .creationDate => .variant (.longLong (topic.info.value CREATION_DATE).toInt)
  | .creatorId => .sender (.of (topic.info.value CREATOR_ID).toMap)
  | .isGeneral => .variant (.bool topic.isGeneral)
  | .isOutgoing => .variant (.bool (topic.info.value IS_OUTGOING).toBool)
  | .isClosed => .variant (.bool (topic.info.value IS_CLOSED).toBool)
  | .isHidden => .variant (.bool (topic.info.value IS_HIDDEN).toBool)
  | .isNameImplicit => .variant (.bool (topic.info.value IS_NAME_IMPLICIT).toBool)
  | .lastMessageId => .variant (.longLong topic.lastMessageId)
  | .lastMessageSenderId => .sender topic.lastMessageSenderId
  | .lastMessageText => .variant (.string (topic.lastMessageText texts))
  | .lastMessageMinithumbnail => .variant topic.lastMessageMinithumbnail
  | .lastMessageIsService => .variant (.bool topic.lastMessageIsService)
  | .lastMessageDate => .variant (.longLong topic.lastMessageDate)
  | .lastMessageSendingState => .variant topic.lastMessageSendingState
  | .lastMessageIsOutgoing => .variant (.bool topic.lastMessageIsOutgoing)
  | .lastReadOutboxMessageId => .variant (.longLong topic.lastReadOutboxMessageId)
  | .lastReadInboxMessageId => .variant (.longLong topic.lastReadInboxMessageId)
  | .isPinned => .variant (.bool topic.isPinned)
  | .unreadCount => .variant (.longLong topic.unreadCount)
  | .unreadMentionCount => .variant (.longLong topic.unreadMentionCount)
  | .unreadReactionCount => .variant (.longLong topic.unreadReactionCount)
  | .unreadPollVoteCount => .variant (.longLong topic.unreadPollVoteCount)
  | .draftMessageDate => .variant (.longLong topic.draftMessageDate)
  | .draftMessageText => .variant (.string topic.draftMessageText)
  | .notificationSettings => .variant .invalid

/-! ### What is reported -/

/-- A topic after an update, and the roles that the update reports. -/
abbrev Reported := ForumTopic × List ModelRole

/-- Roles that are reported if the condition holds. -/
def rolesIf (p : Prop) [Decidable p] (roles : List ModelRole) : List ModelRole := if p then roles else []

/-- Two updates after each other, with the roles of both. -/
def andThen (first second : ForumTopic → Reported) (topic : ForumTopic) : Reported :=
  ((second (first topic).1).1, (first topic).2 ++ (second (first topic).1).2)

def reportIsPinned (value : Bool) (topic : ForumTopic) : Reported :=
  (topic.updateIsPinned value, rolesIf (topic.isPinned ≠ value) [.isPinned])

def reportLastReadInboxMessageId (value : Int) (topic : ForumTopic) : Reported :=
  (topic.updateLastReadInboxMessageId value,
    rolesIf (topic.lastReadInboxMessageId ≠ value) [.lastReadInboxMessageId])

def reportLastReadOutboxMessageId (value : Int) (topic : ForumTopic) : Reported :=
  (topic.updateLastReadOutboxMessageId value,
    rolesIf (topic.lastReadOutboxMessageId ≠ value) [.lastReadOutboxMessageId])

def reportUnreadMentionCount (value : Int) (topic : ForumTopic) : Reported :=
  (topic.updateUnreadMentionCount value, rolesIf (topic.unreadMentionCount ≠ value) [.unreadMentionCount])

def reportUnreadReactionCount (value : Int) (topic : ForumTopic) : Reported :=
  (topic.updateUnreadReactionCount value, rolesIf (topic.unreadReactionCount ≠ value) [.unreadReactionCount])

def reportUnreadPollVoteCount (value : Int) (topic : ForumTopic) : Reported :=
  (topic.updateUnreadPollVoteCount value, rolesIf (topic.unreadPollVoteCount ≠ value) [.unreadPollVoteCount])

def reportNotificationSettings (value : QVariantMap) (topic : ForumTopic) : Reported :=
  (topic.updateNotificationSettings value,
    rolesIf ((topic.data.value NOTIFICATION_SETTINGS).toMap ≠ value) [.notificationSettings])

def reportDraftMessage (value : QVariantMap) (topic : ForumTopic) : Reported :=
  (topic.updateDraftMessage value, [.draftMessageDate, .draftMessageText])

def reportForumTopicInfo (newInfo : QVariantMap) (topic : ForumTopic) : Reported :=
  (topic.updateForumTopicInfo newInfo,
    rolesIf ((topic.info.value NAME).toStr ≠ (newInfo.value NAME).toStr) [.name] ++
    rolesIf ((topic.info.value ICON).toMap ≠ (newInfo.value ICON).toMap) [.iconColor, .iconCustomEmojiId] ++
    rolesIf ((topic.info.value CREATION_DATE).toInt ≠ (newInfo.value CREATION_DATE).toInt) [.creationDate] ++
    rolesIf ((topic.info.value CREATOR_ID).toMap ≠ (newInfo.value CREATOR_ID).toMap) [.creatorId] ++
    rolesIf ((topic.info.value IS_GENERAL).toBool ≠ (newInfo.value IS_GENERAL).toBool) [.isGeneral] ++
    rolesIf ((topic.info.value IS_OUTGOING).toBool ≠ (newInfo.value IS_OUTGOING).toBool) [.isOutgoing] ++
    rolesIf ((topic.info.value IS_CLOSED).toBool ≠ (newInfo.value IS_CLOSED).toBool) [.isClosed] ++
    rolesIf ((topic.info.value IS_HIDDEN).toBool ≠ (newInfo.value IS_HIDDEN).toBool) [.isHidden] ++
    rolesIf ((topic.info.value IS_NAME_IMPLICIT).toBool ≠ (newInfo.value IS_NAME_IMPLICIT).toBool) [.isNameImplicit])

def reportLastMessage (texts : Texts) (message : QVariantMap) (topic : ForumTopic) : Reported :=
  let topic' := topic.updateLastMessage message
  (topic',
    rolesIf (topic.lastMessageId ≠ topic'.lastMessageId) [.lastMessageId] ++
    rolesIf (topic.lastMessageSenderId ≠ topic'.lastMessageSenderId) [.lastMessageSenderId] ++
    rolesIf (topic.lastMessageDate ≠ topic'.lastMessageDate) [.lastMessageDate] ++
    rolesIf (topic.lastMessageText texts ≠ topic'.lastMessageText texts) [.lastMessageText] ++
    rolesIf (topic.lastMessageMinithumbnail ≠ topic'.lastMessageMinithumbnail) [.lastMessageMinithumbnail] ++
    rolesIf (topic.lastMessageIsService ≠ topic'.lastMessageIsService) [.lastMessageIsService] ++
    rolesIf (topic.lastMessageSendingState ≠ topic'.lastMessageSendingState) [.lastMessageSendingState] ++
    rolesIf (topic.lastMessageIsOutgoing ≠ topic'.lastMessageIsOutgoing) [.lastMessageIsOutgoing])

def reportForumTopicUpdate (update : QVariantMap) : ForumTopic → Reported :=
  andThen (andThen (andThen (andThen (andThen (andThen (andThen
    (reportIsPinned (update.value IS_PINNED).toBool)
    (reportLastReadInboxMessageId (update.value LAST_READ_INBOX_MESSAGE_ID).toLongLong))
    (reportLastReadOutboxMessageId (update.value LAST_READ_OUTBOX_MESSAGE_ID).toLongLong))
    (reportUnreadMentionCount (update.value UNREAD_MENTION_COUNT).toInt))
    (reportUnreadReactionCount (update.value UNREAD_REACTION_COUNT).toInt))
    (reportUnreadPollVoteCount (update.value UNREAD_POLL_VOTE_COUNT).toInt))
    (reportNotificationSettings (update.value NOTIFICATION_SETTINGS).toMap))
    (reportDraftMessage (update.value DRAFT_MESSAGE).toMap)

/-- The operands of `<<` are evaluated from the left to the right. -/
def reportForumTopicData (texts : Texts) (data : QVariantMap) : ForumTopic → Reported :=
  andThen (andThen (reportForumTopicUpdate data) (reportForumTopicInfo (data.value INFO).toMap))
    (reportLastMessage texts (data.value LAST_MESSAGE).toMap)

@[simp] theorem andThen_fst (first second : ForumTopic → Reported) (topic : ForumTopic) :
    (andThen first second topic).1 = (second (first topic).1).1 := rfl

theorem reportForumTopicUpdate_fst (update : QVariantMap) (topic : ForumTopic) :
    (reportForumTopicUpdate update topic).1 = topic.updateFromForumTopicUpdate update := by
  simp only [reportForumTopicUpdate, andThen_fst, reportIsPinned, reportLastReadInboxMessageId,
    reportLastReadOutboxMessageId, reportUnreadMentionCount, reportUnreadReactionCount, reportUnreadPollVoteCount,
    reportNotificationSettings, reportDraftMessage, updateFromForumTopicUpdate]

theorem reportForumTopicInfo_fst (newInfo : QVariantMap) (topic : ForumTopic) :
    (reportForumTopicInfo newInfo topic).1 = topic.updateForumTopicInfo newInfo := rfl

/-- The topic after the update is that of the model. -/
theorem reportForumTopicData_fst (texts : Texts) (data : QVariantMap) (topic : ForumTopic) :
    (reportForumTopicData texts data topic).1 = topic.updateForumTopicData data := by
  rw [reportForumTopicData, andThen_fst, andThen_fst, reportForumTopicUpdate_fst, updateForumTopicData]
  rfl

/-! ### What an update writes -/

/-- The key under which the data of a role stand. -/
def ModelRole.key : ModelRole → String
  | .display | .id => ""
  | .name | .iconColor | .iconCustomEmojiId | .creationDate | .creatorId | .isGeneral | .isOutgoing | .isClosed
  | .isHidden | .isNameImplicit => INFO
  | .lastMessageId | .lastMessageSenderId | .lastMessageDate | .lastMessageText | .lastMessageMinithumbnail
  | .lastMessageIsService | .lastMessageSendingState | .lastMessageIsOutgoing => LAST_MESSAGE
  | .isPinned => IS_PINNED
  | .unreadCount => UNREAD_COUNT
  | .lastReadOutboxMessageId => LAST_READ_OUTBOX_MESSAGE_ID
  | .lastReadInboxMessageId => LAST_READ_INBOX_MESSAGE_ID
  | .unreadMentionCount => UNREAD_MENTION_COUNT
  | .unreadReactionCount => UNREAD_REACTION_COUNT
  | .unreadPollVoteCount => UNREAD_POLL_VOTE_COUNT
  | .notificationSettings => NOTIFICATION_SETTINGS
  | .draftMessageText | .draftMessageDate => DRAFT_MESSAGE

/-- A role shows what stands under its key; the text of the last message also depends on the topic's name. -/
theorem roleData_congr (texts : Texts) {topic topic' : ForumTopic} {role : ModelRole} (hdisplay : role ≠ .display)
    (hid : topic'.id = topic.id) (hvalue : topic'.data.value role.key = topic.data.value role.key)
    (hname : role = .lastMessageText → topic'.name = topic.name) :
    roleData texts topic' role = roleData texts topic role := by
  cases role with
  | display => exact absurd rfl hdisplay
  | id => rw [roleData, roleData, hid]
  | notificationSettings => rfl
  | draftMessageText =>
      have hdraft : topic'.draftMessage = topic.draftMessage := congrArg QVariant.toMap hvalue
      rw [roleData, roleData, draftMessageText, draftMessageText, hdraft]
  | lastMessageText =>
      have hlast : topic'.lastMessage = topic.lastMessage := congrArg QVariant.toMap hvalue
      rw [roleData, roleData, lastMessageText, lastMessageText, hlast, hname rfl]
  | _ =>
      simp only [ModelRole.key] at hvalue
      simp only [roleData, name, iconColor, iconCustomEmojiId, isGeneral, info, lastMessageId, lastMessageSenderId,
        lastMessageMinithumbnail, lastMessageIsService, lastMessageDate, lastMessageSendingState,
        lastMessageIsOutgoing, lastMessage, lastReadOutboxMessageId, lastReadInboxMessageId, isPinned, unreadCount,
        unreadMentionCount, unreadReactionCount, unreadPollVoteCount, draftMessageDate, draftMessage, hvalue]

/-- The roles that alone show what stands under their keys. -/
def singleRoles : List ModelRole :=
  [.isPinned, .unreadCount, .lastReadOutboxMessageId, .lastReadInboxMessageId, .unreadMentionCount,
    .unreadReactionCount, .unreadPollVoteCount, .notificationSettings]

theorem ModelRole.eq_of_key {role role' : ModelRole} (hsingle : role ∈ singleRoles) (h : role'.key = role.key) :
    role' = role := by
  simp only [singleRoles, List.mem_cons, List.not_mem_nil, or_false] at hsingle
  rcases hsingle with rfl | rfl | rfl | rfl | rfl | rfl | rfl | rfl <;> cases role' <;> first
    | rfl
    | exact absurd h (by decide)

theorem ModelRole.key_ne_info {role : ModelRole} (hsingle : role ∈ singleRoles) : role.key ≠ INFO := by
  revert role
  decide

/-- An update of one field. -/
structure Writes (field : String) (topic topic' : ForumTopic) : Prop where
  id : topic'.id = topic.id
  value_of_ne : ∀ key, key ≠ field → topic'.data.value key = topic.data.value key

theorem writes_insert (topic : ForumTopic) (field : String) (v : QVariant) :
    Writes field topic { topic with data := topic.data.insert field v } :=
  ⟨rfl, fun _ hkey => QVariantMap.value_insert_of_ne _ _ hkey⟩

theorem writes_ite (topic : ForumTopic) (field : String) (v : QVariant) (p : Prop) [Decidable p] :
    Writes field topic (if p then { topic with data := topic.data.insert field v } else topic) :=
  iteInduction (fun _ => writes_insert topic field v) fun _ => ⟨rfl, fun _ _ => rfl⟩

section Value

variable (topic : ForumTopic) {key : String}

theorem value_updateIsPinned_of_ne (value : Bool) (h : key ≠ IS_PINNED) :
    (topic.updateIsPinned value).data.value key = topic.data.value key := (writes_ite topic _ _ _).value_of_ne key h

theorem value_updateLastReadInboxMessageId_of_ne (value : Int) (h : key ≠ LAST_READ_INBOX_MESSAGE_ID) :
    (topic.updateLastReadInboxMessageId value).data.value key = topic.data.value key :=
  (writes_ite topic _ _ _).value_of_ne key h

theorem value_updateLastReadOutboxMessageId_of_ne (value : Int) (h : key ≠ LAST_READ_OUTBOX_MESSAGE_ID) :
    (topic.updateLastReadOutboxMessageId value).data.value key = topic.data.value key :=
  (writes_ite topic _ _ _).value_of_ne key h

theorem value_updateCount_of_ne {field : String} (value : Int) (h : key ≠ field) :
    (updateCount field topic value).data.value key = topic.data.value key := (writes_ite topic _ _ _).value_of_ne key h

theorem value_updateNotificationSettings_of_ne (value : QVariantMap) (h : key ≠ NOTIFICATION_SETTINGS) :
    (topic.updateNotificationSettings value).data.value key = topic.data.value key :=
  (writes_ite topic _ _ _).value_of_ne key h

theorem value_updateDraftMessage_of_ne (value : QVariantMap) (h : key ≠ DRAFT_MESSAGE) :
    (topic.updateDraftMessage value).data.value key = topic.data.value key :=
  (writes_insert topic _ _).value_of_ne key h

theorem writes_updateForumTopicInfo (newInfo : QVariantMap) : Writes INFO topic (topic.updateForumTopicInfo newInfo) :=
  iteInduction (fun _ => ⟨rfl, fun _ _ => rfl⟩) fun _ => writes_insert topic INFO _

theorem value_updateForumTopicInfo_of_ne (newInfo : QVariantMap) (h : key ≠ INFO) :
    (topic.updateForumTopicInfo newInfo).data.value key = topic.data.value key :=
  (writes_updateForumTopicInfo topic newInfo).value_of_ne key h

theorem value_updateLastMessage_of_ne (message : QVariantMap) (h : key ≠ LAST_MESSAGE) :
    (topic.updateLastMessage message).data.value key = topic.data.value key :=
  (writes_insert topic _ _).value_of_ne key h

/-- The value that is read of a field after it is written unless it reads so already. -/
theorem read_ite_insert {α : Type} [DecidableEq α] (field : String) (read : QVariant → α) {v : QVariant} :
    read ((if read (topic.data.value field) ≠ read v then
      { topic with data := topic.data.insert field v } else topic).data.value field) = read v := by
  split_ifs with h
  · exact congrArg read (QVariantMap.value_insert_self _ _ _)
  · exact not_not.mp h

theorem isPinned_updateIsPinned (value : Bool) : ((topic.updateIsPinned value).data.value IS_PINNED).toBool = value :=
  topic.read_ite_insert IS_PINNED QVariant.toBool (v := .bool value)

theorem toLongLong_updateLastReadInboxMessageId (value : Int) :
    ((topic.updateLastReadInboxMessageId value).data.value LAST_READ_INBOX_MESSAGE_ID).toLongLong = value :=
  topic.read_ite_insert LAST_READ_INBOX_MESSAGE_ID QVariant.toLongLong (v := .longLong value)

theorem toLongLong_updateLastReadOutboxMessageId (value : Int) :
    ((topic.updateLastReadOutboxMessageId value).data.value LAST_READ_OUTBOX_MESSAGE_ID).toLongLong = value :=
  topic.read_ite_insert LAST_READ_OUTBOX_MESSAGE_ID QVariant.toLongLong (v := .longLong value)

theorem toInt_updateCount (field : String) (value : Int) :
    ((updateCount field topic value).data.value field).toInt = value :=
  topic.read_ite_insert field QVariant.toInt (v := .longLong value)

theorem sameInfo_refl (info : QVariantMap) : sameInfo info info = true := by
  simp [sameInfo]

/-- The info that is kept differs from the new one in no field that is looked at. -/
theorem sameInfo_updateForumTopicInfo (newInfo : QVariantMap) :
    sameInfo (topic.updateForumTopicInfo newInfo).info newInfo = true := by
  rw [updateForumTopicInfo]
  split_ifs with hsame
  · exact hsame
  · rw [info, QVariantMap.value_insert_self]
    exact sameInfo_refl newInfo

end Value

/-! ### What the topic shows then -/

section Shown

variable (texts : Texts) (topic : ForumTopic) (data : QVariantMap)

theorem value_updateForumTopicData_unreadCount :
    (topic.updateForumTopicData data).data.value UNREAD_COUNT = topic.data.value UNREAD_COUNT := by
  simp (disch := decide) only [updateForumTopicData, updateFromForumTopicUpdate, updateUnreadMentionCount,
    updateUnreadReactionCount, updateUnreadPollVoteCount, value_updateIsPinned_of_ne,
    value_updateLastReadInboxMessageId_of_ne, value_updateLastReadOutboxMessageId_of_ne, value_updateCount_of_ne,
    value_updateNotificationSettings_of_ne, value_updateDraftMessage_of_ne, value_updateForumTopicInfo_of_ne,
    value_updateLastMessage_of_ne]

/-- The fields outside the info read as those of the data received. -/
structure ReadsLike (topic : ForumTopic) (data : QVariantMap) : Prop where
  isPinned : topic.isPinned = (ForumTopic.new data).isPinned
  lastReadInboxMessageId : topic.lastReadInboxMessageId = (ForumTopic.new data).lastReadInboxMessageId
  lastReadOutboxMessageId : topic.lastReadOutboxMessageId = (ForumTopic.new data).lastReadOutboxMessageId
  unreadMentionCount : topic.unreadMentionCount = (ForumTopic.new data).unreadMentionCount
  unreadReactionCount : topic.unreadReactionCount = (ForumTopic.new data).unreadReactionCount
  unreadPollVoteCount : topic.unreadPollVoteCount = (ForumTopic.new data).unreadPollVoteCount
  draftMessage : topic.draftMessage = (ForumTopic.new data).draftMessage
  lastMessage : topic.lastMessage = (ForumTopic.new data).lastMessage

theorem readsLike_updateForumTopicData : ReadsLike (topic.updateForumTopicData data) data := by
  constructor
  all_goals
    simp (disch := decide) only [ForumTopic.isPinned, ForumTopic.lastReadInboxMessageId,
      ForumTopic.lastReadOutboxMessageId, ForumTopic.unreadMentionCount, ForumTopic.unreadReactionCount,
      ForumTopic.unreadPollVoteCount, ForumTopic.draftMessage, ForumTopic.lastMessage, updateForumTopicData,
      updateFromForumTopicUpdate, updateUnreadMentionCount, updateUnreadReactionCount, updateUnreadPollVoteCount,
      value_updateLastReadInboxMessageId_of_ne, value_updateLastReadOutboxMessageId_of_ne,
      value_updateCount_of_ne, value_updateNotificationSettings_of_ne, value_updateDraftMessage_of_ne,
      value_updateForumTopicInfo_of_ne, value_updateLastMessage_of_ne, isPinned_updateIsPinned,
      toLongLong_updateLastReadInboxMessageId, toLongLong_updateLastReadOutboxMessageId, toInt_updateCount,
      ForumTopic.new]
  · rw [updateDraftMessage, QVariantMap.value_insert_self, QVariant.toMap]
  · rw [updateLastMessage, QVariantMap.value_insert_self, QVariant.toMap]

/-- The info reads as that of the data received. -/
theorem sameInfo_updateForumTopicData :
    sameInfo (topic.updateForumTopicData data).info (ForumTopic.new data).info = true := by
  have hinfo : (topic.updateForumTopicData data).info =
      ((topic.updateFromForumTopicUpdate data).updateForumTopicInfo (data.value INFO).toMap).info :=
    congrArg QVariant.toMap (value_updateLastMessage_of_ne _ _ (by decide))
  rw [hinfo]
  exact sameInfo_updateForumTopicInfo _ _

/-- **The roles after the update** are those of a new topic, the unread count apart. -/
theorem roleData_updateForumTopicData {role : ModelRole} (hdisplay : role ≠ .display) (hcount : role ≠ .unreadCount)
    (hid : topic.id = (ForumTopic.new data).id) :
    roleData texts (topic.updateForumTopicData data) role = roleData texts (.new data) role := by
  have hreads := readsLike_updateForumTopicData topic data
  have hinfo := sameInfo_updateForumTopicData topic data
  have hid' := (id_updateForumTopicData topic data).trans hid
  generalize topic.updateForumTopicData data = topic' at hreads hinfo hid'
  simp only [sameInfo, Bool.and_eq_true, beq_iff_eq, decide_eq_true_eq, List.all_cons, List.all_nil, Bool.and_true]
    at hinfo
  obtain ⟨⟨⟨⟨hname, hicon⟩, hdate⟩, hcreator⟩, hgeneral, houtgoing, hclosed, hhidden, himplicit⟩ := hinfo
  cases role with
  | display => exact absurd rfl hdisplay
  | unreadCount => exact absurd rfl hcount
  | notificationSettings => rfl
  | id => rw [roleData, roleData, hid']
  | isPinned => rw [roleData, roleData, hreads.isPinned]
  | lastReadInboxMessageId => rw [roleData, roleData, hreads.lastReadInboxMessageId]
  | lastReadOutboxMessageId => rw [roleData, roleData, hreads.lastReadOutboxMessageId]
  | unreadMentionCount => rw [roleData, roleData, hreads.unreadMentionCount]
  | unreadReactionCount => rw [roleData, roleData, hreads.unreadReactionCount]
  | unreadPollVoteCount => rw [roleData, roleData, hreads.unreadPollVoteCount]
  | draftMessageDate => rw [roleData, roleData, draftMessageDate, draftMessageDate, hreads.draftMessage]
  | draftMessageText => rw [roleData, roleData, draftMessageText, draftMessageText, hreads.draftMessage]
  | lastMessageText => rw [roleData, roleData, lastMessageText, lastMessageText, hreads.lastMessage, name, name, hname]
  | lastMessageId =>
      show RoleValue.variant (.longLong (messageIdOf topic'.lastMessage)) = _
      rw [hreads.lastMessage]
      rfl
  | name => rw [roleData, roleData, name, name, hname]
  | iconColor => rw [roleData, roleData, iconColor, iconColor, hicon]
  | iconCustomEmojiId => rw [roleData, roleData, iconCustomEmojiId, iconCustomEmojiId, hicon]
  | creationDate => rw [roleData, roleData, hdate]
  | creatorId => rw [roleData, roleData, hcreator]
  | isGeneral => rw [roleData, roleData, isGeneral, isGeneral, hgeneral]
  | isOutgoing => rw [roleData, roleData, houtgoing]
  | isClosed => rw [roleData, roleData, hclosed]
  | isHidden => rw [roleData, roleData, hhidden]
  | isNameImplicit => rw [roleData, roleData, himplicit]
  | _ =>
      simp only [roleData, lastMessageSenderId, lastMessageDate, lastMessageMinithumbnail, lastMessageIsService,
        lastMessageSendingState, lastMessageIsOutgoing, hreads.lastMessage]

theorem unreadCount_updateForumTopicData : (topic.updateForumTopicData data).unreadCount = topic.unreadCount := by
  rw [unreadCount, value_updateForumTopicData_unreadCount]
  rfl

end Shown

end ForumTopic

end YaqtLib
