import YaqtLib.ForumTopic

/-! The topics of a forum (`chat/forumtopicsmodel.cpp`): rows of topics with an index map by the ids of the topics
and one by the ids of their last messages. -/

namespace YaqtLib

open Containers IndexMap TdConst

structure ForumTopicsModel where
  topics : List ForumTopic
  topicIndexMap : QHash Int Nat
  topicLastMessageIdIndexMap : QHash Int Nat
  chatId : Int
  nextOffsetDate : Int
  nextOffsetMessageId : Int
  nextOffsetForumTopicId : Int
  endReached : Bool

namespace ForumTopicsModel

/-- The key under which `topicIndexMap` holds a row. -/
def idKey (topic : ForumTopic) : Option Int := some topic.id

/-- The key under which `topicLastMessageIdIndexMap` holds a row. -/
def lastMessageKey (topic : ForumTopic) : Option Int := some topic.lastMessageId

inductive Request where
  | getForumTopics (chatId offsetDate offsetMessageId offsetForumTopicId : Int)
  | getForumTopic (chatId forumTopicId : Int)
  deriving DecidableEq

/-- A new model, whose first page has been asked for. -/
def new (chatId : Int) : ForumTopicsModel :=
  { topics := [], topicIndexMap := QHash.empty, topicLastMessageIdIndexMap := QHash.empty, chatId := chatId
    nextOffsetDate := 0, nextOffsetMessageId := 0, nextOffsetForumTopicId := 0, endReached := false }

/-- The rows stay. -/
def reset (m : ForumTopicsModel) : ForumTopicsModel :=
  { m with chatId := 0, nextOffsetDate := 0, nextOffsetMessageId := 0, nextOffsetForumTopicId := 0 }

def loadMore (m : ForumTopicsModel) : List Request :=
  if m.chatId ≠ 0 ∧ m.nextOffsetDate ≠ 0 ∧ m.nextOffsetMessageId ≠ 0 ∧ m.nextOffsetForumTopicId ≠ 0 then
    if m.endReached then []
    else [.getForumTopics m.chatId m.nextOffsetDate m.nextOffsetMessageId m.nextOffsetForumTopicId]
  else []

/-- The topics of a page, sorted among themselves. -/
def pageTopics (newTopics : QVariantList) : List ForumTopic :=
  (newTopics.map fun topic => ForumTopic.new topic.toMap).insertionSort fun topic1 topic2 =>
    ForumTopic.lessThan topic2 topic1 = false

def handleForumTopicsReceived (m : ForumTopicsModel) (chatId : Int) (newTopics : QVariantList)
    (nextOffsetDate nextOffsetMessageId nextOffsetForumTopicId : Int) : ForumTopicsModel :=
  if m.chatId = chatId then
    if newTopics.isEmpty then { m with endReached := true }
    else
      let newForumTopics := pageTopics newTopics
      { m with
        topics := m.topics ++ newForumTopics
        topicIndexMap := reindex idKey newForumTopics m.topics.length m.topicIndexMap
        topicLastMessageIdIndexMap :=
          reindex lastMessageKey newForumTopics m.topics.length m.topicLastMessageIdIndexMap
        nextOffsetDate := nextOffsetDate
        nextOffsetMessageId := nextOffsetMessageId
        nextOffsetForumTopicId := nextOffsetForumTopicId }
  else m

def insertNewTopic (m : ForumTopicsModel) (topic : QVariantMap) : ForumTopicsModel :=
  let forumTopic := ForumTopic.new topic
  let pos := (m.topics.takeWhile fun other => !ForumTopic.lessThan forumTopic other).length
  let topics := m.topics.insertIdx pos forumTopic
  { m with
    topics := topics
    -- the rows behind the new one are the damaged part of the maps
    topicIndexMap := reindex idKey (topics.drop (pos + 1)) (pos + 1) (m.topicIndexMap.insert forumTopic.id pos)
    topicLastMessageIdIndexMap := reindex lastMessageKey (topics.drop (pos + 1)) (pos + 1)
      (m.topicLastMessageIdIndexMap.insert forumTopic.lastMessageId pos) }

/-- The index the topic moves to: up past the rows it goes before, or, if it stays, down past the rows it does not
go before. -/
def newIndexOf (topics : List ForumTopic) (forumTopic : ForumTopic) (index : Nat) : Nat :=
  let newIndex := index - ((topics.take index).reverse.takeWhile fun other => forumTopic.lessThan other).length
  if newIndex = index then
    index + ((topics.drop (index + 1)).takeWhile fun other => !forumTopic.lessThan other).length
  else newIndex

/-- Only `topicIndexMap` gets the new row of the topic that moves; both maps get those of the rows it passes. -/
def updateForumTopicOrder (m : ForumTopicsModel) (index : Nat) : ForumTopicsModel :=
  match m.topics[index]? with
  | none => m
  | some forumTopic =>
      let newIndex := newIndexOf m.topics forumTopic index
      if newIndex = index then m
      else
        let topics := move m.topics index newIndex
        { m with
          topics := topics
          topicIndexMap := reindexMoved idKey topics index newIndex (m.topicIndexMap.insert forumTopic.id newIndex)
          topicLastMessageIdIndexMap :=
            reindexMoved lastMessageKey topics index newIndex m.topicLastMessageIdIndexMap }

def handleForumTopicRolesChanged (m : ForumTopicsModel) (forumTopicIndex : Nat) (changedRoles : List ForumTopic.Role)
    (prevLastMessageId : Int) : ForumTopicsModel :=
  match m.topics[forumTopicIndex]? with
  | none => m
  | some topic =>
      let m :=
        if prevLastMessageId ≠ 0 ∧ .lastMessageId ∈ changedRoles then
          { m with topicLastMessageIdIndexMap :=
              (m.topicLastMessageIdIndexMap.remove prevLastMessageId).insert topic.id forumTopicIndex }
        else m
      if .isPinned ∈ changedRoles ∨ .lastMessageDate ∈ changedRoles ∨ .draftMessageDate ∈ changedRoles ∨
          .lastMessageId ∈ changedRoles then
        updateForumTopicOrder m forumTopicIndex
      else m

/-- What an update makes of a topic, the roles it reports, and the id of the last message before it where the
caller hands it on (0 where it does not). -/
structure TopicUpdate where
  update : ForumTopic → ForumTopic
  changedRoles : ForumTopic → List ForumTopic.Role
  prevLastMessageId : ForumTopic → Int

namespace TopicUpdate

def fromUpdate (update : QVariantMap) : TopicUpdate where
  update topic := topic.updateFromForumTopicUpdate update
  changedRoles topic := topic.rolesOfForumTopicUpdate update
  prevLastMessageId _ := 0

def info (newInfo : QVariantMap) : TopicUpdate where
  update topic := topic.updateForumTopicInfo newInfo
  changedRoles _ := []
  prevLastMessageId _ := 0

def lastMessage (message : QVariantMap) : TopicUpdate where
  update topic := topic.updateLastMessage message
  changedRoles topic := topic.rolesOfLastMessage message
  prevLastMessageId := ForumTopic.lastMessageId

def lastMessageContent (content : QVariantMap) : TopicUpdate where
  update topic := topic.updateLastMessageContent content
  changedRoles _ := ForumTopic.rolesOfLastMessageContent
  prevLastMessageId _ := 0

def data (data : QVariantMap) : TopicUpdate where
  update topic := topic.updateForumTopicData data
  changedRoles topic := topic.rolesOfForumTopicData data
  prevLastMessageId := ForumTopic.lastMessageId

end TopicUpdate

/-- The topic of a row is updated, and the roles that it reports are handled. An index out of range has no
defined meaning in the source. -/
def updateTopicAt (m : ForumTopicsModel) (index : Nat) (u : TopicUpdate) : ForumTopicsModel :=
  match m.topics[index]? with
  | none => m
  | some topic =>
      handleForumTopicRolesChanged { m with topics := m.topics.set index (u.update topic) } index
        (u.changedRoles topic) (u.prevLastMessageId topic)

def handleForumTopicUpdated (m : ForumTopicsModel) (chatId forumTopicId : Int) (update : QVariantMap) :
    ForumTopicsModel :=
  if m.chatId = chatId then
    match m.topicIndexMap.value forumTopicId with
    | none => m
    | some topicIndex => updateTopicAt m topicIndex (.fromUpdate update)
  else m

def handleForumTopicInfoUpdated (m : ForumTopicsModel) (chatId forumTopicId : Int) (info : QVariantMap) :
    ForumTopicsModel :=
  if m.chatId = chatId then
    match m.topicIndexMap.value forumTopicId with
    | none => m
    | some topicIndex => updateTopicAt m topicIndex (.info info)
  else m

def handleNewMessageReceived (m : ForumTopicsModel) (chatId : Int) (message : QVariantMap) :
    ForumTopicsModel × List Request :=
  let topicId := (message.value TOPIC_ID).toMap
  if m.chatId ≠ chatId ∨ (topicId.value TYPE_).toStr ≠ TYPE_MESSAGE_TOPIC_FORUM then (m, [])
  else
    let forumTopicId := (topicId.value FORUM_TOPIC_ID).toInt
    match m.topicIndexMap.value forumTopicId with
    | some forumTopicIndex => (updateTopicAt m forumTopicIndex (.lastMessage message), [])
    -- the topic is not yet loaded, or was just created
    | none => (m, [.getForumTopic chatId forumTopicId])

def handleForumTopicReceived (m : ForumTopicsModel) (chatId forumTopicId : Int) (topic : QVariantMap) :
    ForumTopicsModel :=
  if m.chatId ≠ chatId then m
  else
    match m.topicIndexMap.value forumTopicId with
    | some forumTopicIndex => updateTopicAt m forumTopicIndex (.data topic)
    | none => insertNewTopic m topic

def handleMessageContentUpdated (m : ForumTopicsModel) (chatId messageId : Int) (content : QVariantMap) :
    ForumTopicsModel :=
  if m.chatId = chatId then
    match m.topicLastMessageIdIndexMap.value messageId with
    | none => m
    | some forumTopicIndex => updateTopicAt m forumTopicIndex (.lastMessageContent content)
  else m

def handleMessageSendSucceeded (m : ForumTopicsModel) (chatId messageId : Int) (message : QVariantMap) :
    ForumTopicsModel :=
  if m.chatId = chatId then
    match m.topicLastMessageIdIndexMap.value messageId with
    | none => m
    | some forumTopicIndex => updateTopicAt m forumTopicIndex (.lastMessage message)
  else m

/-- Each topic whose last message was deleted is asked for again. -/
def handleMessagesDeleted (m : ForumTopicsModel) (chatId : Int) (messageIds : List Int) : List Request :=
  if m.chatId = chatId then
    messageIds.filterMap fun messageId => do
      let index ← m.topicLastMessageIdIndexMap.value messageId
      let topic ← m.topics[index]?
      return .getForumTopic chatId topic.id
  else []

/-- Both maps lose the key `forumTopicId`, and both get the rows behind under the ids of their topics. -/
def handleForumTopicNotFound (m : ForumTopicsModel) (chatId forumTopicId : Int) : ForumTopicsModel :=
  if m.chatId = chatId then
    match m.topicIndexMap.value forumTopicId with
    | none => m
    | some pos =>
        let topics := m.topics.eraseIdx pos
        { m with
          topics := topics
          topicIndexMap := reindex idKey (topics.drop pos) pos (m.topicIndexMap.remove forumTopicId)
          topicLastMessageIdIndexMap :=
            reindex idKey (topics.drop pos) pos (m.topicLastMessageIdIndexMap.remove forumTopicId) }
  else m

inductive Event where
  | loadMore
  | reset
  | forumTopicsReceived (chatId : Int) (newTopics : QVariantList)
      (nextOffsetDate nextOffsetMessageId nextOffsetForumTopicId : Int)
  | forumTopicUpdated (chatId forumTopicId : Int) (update : QVariantMap)
  | forumTopicInfoUpdated (chatId forumTopicId : Int) (info : QVariantMap)
  | newMessageReceived (chatId : Int) (message : QVariantMap)
  | forumTopicReceived (topic : QVariantMap)
  | messageContentUpdated (chatId messageId : Int) (content : QVariantMap)
  | messageSendSucceeded (chatId oldMessageId messageId : Int) (message : QVariantMap)
  | messagesDeleted (chatId : Int) (messageIds : List Int)
  | forumTopicNotFound (chatId forumTopicId : Int)

def handle (m : ForumTopicsModel) : Event → ForumTopicsModel × List Request
  | .loadMore => (m, loadMore m)
  | .reset => (reset m, [])
  | .forumTopicsReceived chatId newTopics nextOffsetDate nextOffsetMessageId nextOffsetForumTopicId =>
      (handleForumTopicsReceived m chatId newTopics nextOffsetDate nextOffsetMessageId nextOffsetForumTopicId, [])
  | .forumTopicUpdated chatId forumTopicId update => (handleForumTopicUpdated m chatId forumTopicId update, [])
  | .forumTopicInfoUpdated chatId forumTopicId info => (handleForumTopicInfoUpdated m chatId forumTopicId info, [])
  | .newMessageReceived chatId message => handleNewMessageReceived m chatId message
  -- `TDLibReceiver::processForumTopic` reads the ids from the topic's info
  | .forumTopicReceived topic =>
      let info := (topic.value INFO).toMap
      (handleForumTopicReceived m (info.value CHAT_ID).toLongLong (info.value FORUM_TOPIC_ID).toInt topic, [])
  | .messageContentUpdated chatId messageId content => (handleMessageContentUpdated m chatId messageId content, [])
  | .messageSendSucceeded chatId _ messageId message => (handleMessageSendSucceeded m chatId messageId message, [])
  | .messagesDeleted chatId messageIds => (m, handleMessagesDeleted m chatId messageIds)
  | .forumTopicNotFound chatId forumTopicId => (handleForumTopicNotFound m chatId forumTopicId, [])

/-- The state after one event. -/
def step (m : ForumTopicsModel) (e : Event) : ForumTopicsModel := (handle m e).1

end ForumTopicsModel

end YaqtLib
