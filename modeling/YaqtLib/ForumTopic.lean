import YaqtLib.MessagesModel

/-! Forum topics (`chat/forumtopic.cpp`): the data of a topic and the updates that write them. Of the roles that
an update reports, those of the order and of the last message's id are given; the others go to the views. -/

namespace YaqtLib

open TdConst

/-- `ForumTopic`: the data it was made from, and the id read from them once. -/
structure ForumTopic where
  data : QVariantMap
  id : Int

namespace ForumTopic

def new (data : QVariantMap) : ForumTopic :=
  { data := data, id := ((data.value INFO).toMap.value FORUM_TOPIC_ID).toLongLong }

def info (topic : ForumTopic) : QVariantMap := (topic.data.value INFO).toMap

def isPinned (topic : ForumTopic) : Bool := (topic.data.value IS_PINNED).toBool

def lastReadInboxMessageId (topic : ForumTopic) : Int :=
  (topic.data.value LAST_READ_INBOX_MESSAGE_ID).toLongLong

def lastReadOutboxMessageId (topic : ForumTopic) : Int :=
  (topic.data.value LAST_READ_OUTBOX_MESSAGE_ID).toLongLong

def lastMessage (topic : ForumTopic) : QVariantMap := (topic.data.value LAST_MESSAGE).toMap

def lastMessageId (topic : ForumTopic) : Int := messageIdOf (topic.data.value LAST_MESSAGE).toMap

def lastMessageDate (topic : ForumTopic) : Int := (topic.lastMessage.value DATE).toLongLong

def draftMessage (topic : ForumTopic) : QVariantMap := (topic.data.value DRAFT_MESSAGE).toMap

def draftMessageDate (topic : ForumTopic) : Int := (topic.draftMessage.value DATE).toLongLong

/-- The date a topic is sorted by. -/
def orderDate (topic : ForumTopic) : Int :=
  if topic.draftMessage.isEmpty then topic.lastMessageDate else topic.draftMessageDate

def lessThan (topic1 topic2 : ForumTopic) : Bool :=
  if topic1.isPinned ≠ topic2.isPinned then topic1.isPinned
  else if topic1.orderDate ≠ topic2.orderDate then topic2.orderDate < topic1.orderDate
  else if topic1.lastMessageId ≠ topic2.lastMessageId then topic2.lastMessageId < topic1.lastMessageId
  else topic2.id < topic1.id

def updateIsPinned (topic : ForumTopic) (value : Bool) : ForumTopic :=
  if topic.isPinned ≠ value then { topic with data := topic.data.insert IS_PINNED (.bool value) } else topic

def updateLastReadInboxMessageId (topic : ForumTopic) (value : Int) : ForumTopic :=
  if topic.lastReadInboxMessageId ≠ value then
    { topic with data := topic.data.insert LAST_READ_INBOX_MESSAGE_ID (.longLong value) }
  else topic

def updateLastReadOutboxMessageId (topic : ForumTopic) (value : Int) : ForumTopic :=
  if topic.lastReadOutboxMessageId ≠ value then
    { topic with data := topic.data.insert LAST_READ_OUTBOX_MESSAGE_ID (.longLong value) }
  else topic

def updateLastMessage (topic : ForumTopic) (message : QVariantMap) : ForumTopic :=
  { topic with data := topic.data.insert LAST_MESSAGE (.map message) }

def updateLastMessageContent (topic : ForumTopic) (content : QVariantMap) : ForumTopic :=
  topic.updateLastMessage (topic.lastMessage.insert CONTENT (.map content))

/-- A counter is written if it changes. -/
def updateCount (field : String) (topic : ForumTopic) (value : Int) : ForumTopic :=
  if (topic.data.value field).toInt ≠ value then { topic with data := topic.data.insert field (.longLong value) }
  else topic

def updateUnreadMentionCount : ForumTopic → Int → ForumTopic := updateCount UNREAD_MENTION_COUNT

def updateUnreadReactionCount : ForumTopic → Int → ForumTopic := updateCount UNREAD_REACTION_COUNT

def updateUnreadPollVoteCount : ForumTopic → Int → ForumTopic := updateCount UNREAD_POLL_VOTE_COUNT

def updateNotificationSettings (topic : ForumTopic) (value : QVariantMap) : ForumTopic :=
  if (topic.data.value NOTIFICATION_SETTINGS).toMap ≠ value then
    { topic with data := topic.data.insert NOTIFICATION_SETTINGS (.map value) }
  else topic

def updateDraftMessage (topic : ForumTopic) (value : QVariantMap) : ForumTopic :=
  { topic with data := topic.data.insert DRAFT_MESSAGE (.map value) }

/-- An update of the topic; the last message is not among the fields it writes. -/
def updateFromForumTopicUpdate (topic : ForumTopic) (update : QVariantMap) : ForumTopic :=
  (topic.updateIsPinned (update.value IS_PINNED).toBool)
    |>.updateLastReadInboxMessageId (update.value LAST_READ_INBOX_MESSAGE_ID).toLongLong
    |>.updateLastReadOutboxMessageId (update.value LAST_READ_OUTBOX_MESSAGE_ID).toLongLong
    |>.updateUnreadMentionCount (update.value UNREAD_MENTION_COUNT).toInt
    |>.updateUnreadReactionCount (update.value UNREAD_REACTION_COUNT).toInt
    |>.updateUnreadPollVoteCount (update.value UNREAD_POLL_VOTE_COUNT).toInt
    |>.updateNotificationSettings (update.value NOTIFICATION_SETTINGS).toMap
    |>.updateDraftMessage (update.value DRAFT_MESSAGE).toMap

/-- The fields of a topic's info by which two of them are told apart. -/
def sameInfo (info newInfo : QVariantMap) : Bool :=
  (info.value NAME).toStr == (newInfo.value NAME).toStr &&
  decide ((info.value ICON).toMap = (newInfo.value ICON).toMap) &&
  (info.value CREATION_DATE).toInt == (newInfo.value CREATION_DATE).toInt &&
  decide ((info.value CREATOR_ID).toMap = (newInfo.value CREATOR_ID).toMap) &&
  [IS_GENERAL, IS_OUTGOING, IS_CLOSED, IS_HIDDEN, IS_NAME_IMPLICIT].all fun field =>
    (info.value field).toBool == (newInfo.value field).toBool

/-- The info is replaced if it differs; the id of the topic stays what it was read as. -/
def updateForumTopicInfo (topic : ForumTopic) (newInfo : QVariantMap) : ForumTopic :=
  if sameInfo topic.info newInfo then topic else { topic with data := topic.data.insert INFO (.map newInfo) }

def updateForumTopicData (topic : ForumTopic) (data : QVariantMap) : ForumTopic :=
  (topic.updateFromForumTopicUpdate data)
    |>.updateForumTopicInfo (data.value INFO).toMap
    |>.updateLastMessage (data.value LAST_MESSAGE).toMap

/-! ### The roles that change -/

inductive Role where
  | isPinned
  | lastMessageId
  | lastMessageDate
  | draftMessageDate
  deriving DecidableEq

/-- The roles `updateFromForumTopicUpdate` reports. -/
def rolesOfForumTopicUpdate (topic : ForumTopic) (update : QVariantMap) : List Role :=
  (if topic.isPinned ≠ (update.value IS_PINNED).toBool then [.isPinned] else []) ++ [.draftMessageDate]

/-- The roles `updateLastMessage` reports. -/
def rolesOfLastMessage (topic : ForumTopic) (message : QVariantMap) : List Role :=
  (if topic.lastMessageId ≠ messageIdOf message then [.lastMessageId] else []) ++
    (if topic.lastMessageDate ≠ (message.value DATE).toLongLong then [.lastMessageDate] else [])

/-- The date is reported with every content. -/
def rolesOfLastMessageContent : List Role := [.lastMessageDate]

def rolesOfForumTopicData (topic : ForumTopic) (data : QVariantMap) : List Role :=
  topic.rolesOfForumTopicUpdate data ++ topic.rolesOfLastMessage (data.value LAST_MESSAGE).toMap

/-! ### What an update keeps -/

/-- A field other than the last message is written. -/
theorem lastMessageId_insert (topic : ForumTopic) {field : String} (hfield : field ≠ LAST_MESSAGE) (v : QVariant) :
    ({ topic with data := topic.data.insert field v } : ForumTopic).lastMessageId = topic.lastMessageId := by
  rw [lastMessageId, lastMessageId, QVariantMap.value_insert_of_ne _ _ hfield.symm]

/-- Writes of fields other than the last message keep its id and that of the topic. -/
structure KeepsLastMessage (topic topic' : ForumTopic) : Prop where
  id : topic'.id = topic.id
  lastMessageId : topic'.lastMessageId = topic.lastMessageId

namespace KeepsLastMessage

variable {topic topic' topic'' : ForumTopic}

theorem refl (topic : ForumTopic) : KeepsLastMessage topic topic := ⟨rfl, rfl⟩

theorem trans (h : KeepsLastMessage topic topic') (h' : KeepsLastMessage topic' topic'') :
    KeepsLastMessage topic topic'' :=
  ⟨h'.id.trans h.id, h'.lastMessageId.trans h.lastMessageId⟩

theorem insert (topic : ForumTopic) {field : String} (hfield : field ≠ LAST_MESSAGE) (v : QVariant) :
    KeepsLastMessage topic { topic with data := topic.data.insert field v } :=
  ⟨rfl, lastMessageId_insert topic hfield v⟩

theorem ite {p : Prop} [Decidable p] (h : KeepsLastMessage topic topic') :
    KeepsLastMessage topic (if p then topic' else topic) := by
  split_ifs
  · exact h
  · exact refl topic

theorem updateIsPinned (topic : ForumTopic) (value : Bool) : KeepsLastMessage topic (topic.updateIsPinned value) :=
  ite (insert topic (by decide) _)

theorem updateLastReadInboxMessageId (topic : ForumTopic) (value : Int) :
    KeepsLastMessage topic (topic.updateLastReadInboxMessageId value) := ite (insert topic (by decide) _)

theorem updateLastReadOutboxMessageId (topic : ForumTopic) (value : Int) :
    KeepsLastMessage topic (topic.updateLastReadOutboxMessageId value) := ite (insert topic (by decide) _)

theorem updateCount (topic : ForumTopic) {field : String} (hfield : field ≠ LAST_MESSAGE) (value : Int) :
    KeepsLastMessage topic (ForumTopic.updateCount field topic value) := ite (insert topic hfield _)

theorem updateNotificationSettings (topic : ForumTopic) (value : QVariantMap) :
    KeepsLastMessage topic (topic.updateNotificationSettings value) := ite (insert topic (by decide) _)

theorem updateDraftMessage (topic : ForumTopic) (value : QVariantMap) :
    KeepsLastMessage topic (topic.updateDraftMessage value) := insert topic (by decide) _

end KeepsLastMessage

theorem keepsLastMessage_updateFromForumTopicUpdate (topic : ForumTopic) (update : QVariantMap) :
    KeepsLastMessage topic (topic.updateFromForumTopicUpdate update) := by
  unfold updateFromForumTopicUpdate
  refine KeepsLastMessage.trans ?_ (KeepsLastMessage.updateDraftMessage _ _)
  refine KeepsLastMessage.trans ?_ (KeepsLastMessage.updateNotificationSettings _ _)
  refine KeepsLastMessage.trans ?_ (KeepsLastMessage.updateCount _ (by decide) _)
  refine KeepsLastMessage.trans ?_ (KeepsLastMessage.updateCount _ (by decide) _)
  refine KeepsLastMessage.trans ?_ (KeepsLastMessage.updateCount _ (by decide) _)
  refine KeepsLastMessage.trans ?_ (KeepsLastMessage.updateLastReadOutboxMessageId _ _)
  refine KeepsLastMessage.trans ?_ (KeepsLastMessage.updateLastReadInboxMessageId _ _)
  exact KeepsLastMessage.updateIsPinned topic _

theorem keepsLastMessage_updateForumTopicInfo (topic : ForumTopic) (newInfo : QVariantMap) :
    KeepsLastMessage topic (topic.updateForumTopicInfo newInfo) := by
  rw [updateForumTopicInfo]
  split_ifs
  · exact .refl topic
  · exact .insert topic (by decide) _

theorem id_updateLastMessage (topic : ForumTopic) (message : QVariantMap) :
    (topic.updateLastMessage message).id = topic.id := rfl

/-- Updates of a topic keep its id. -/
theorem id_updateForumTopicData (topic : ForumTopic) (data : QVariantMap) :
    (topic.updateForumTopicData data).id = topic.id := by
  rw [updateForumTopicData, id_updateLastMessage, (keepsLastMessage_updateForumTopicInfo _ _).id,
    (keepsLastMessage_updateFromForumTopicUpdate topic data).id]

@[simp] theorem lastMessageId_updateLastMessage (topic : ForumTopic) (message : QVariantMap) :
    (topic.updateLastMessage message).lastMessageId = messageIdOf message := by
  rw [lastMessageId, updateLastMessage, QVariantMap.value_insert_self]
  rfl

theorem lastMessageId_updateLastMessageContent (topic : ForumTopic) (content : QVariantMap) :
    (topic.updateLastMessageContent content).lastMessageId = topic.lastMessageId := by
  rw [updateLastMessageContent, lastMessageId_updateLastMessage, messageIdOf,
    QVariantMap.value_insert_of_ne _ _ (by decide)]
  rfl

end ForumTopic

end YaqtLib
