import YaqtLib.ForumTopic
import YaqtLib.ReadableMessagesModel

/-! The messages of a forum topic (`chat/forumtopicmessagesmodel.cpp`): the readable model over a snapshot of the
topic's data. -/

namespace YaqtLib

open Containers IndexMap TdConst

structure ForumTopicMembers where
  loadingFullEnd : Bool
  searchQuery : String
  forumTopic : Option ForumTopic

abbrev ForumTopicMessagesModel := MessagesModel ForumTopicMembers

namespace ForumTopicMessagesModel

def lastReadInboxMessageId (m : ForumTopicMessagesModel) : Int :=
  (m.own.forumTopic.map ForumTopic.lastReadInboxMessageId).getD 0

def lastReadOutboxMessageId (m : ForumTopicMessagesModel) : Int :=
  (m.own.forumTopic.map ForumTopic.lastReadOutboxMessageId).getD 0

def lastMessageId (m : ForumTopicMessagesModel) : Int :=
  (m.own.forumTopic.map ForumTopic.lastMessageId).getD 0

instance : ReadableVirtuals ForumTopicMembers where
  lastReadInboxMessageId := lastReadInboxMessageId
  lastReadOutboxMessageId := lastReadOutboxMessageId
  lastMessageId := lastMessageId
  setLoadingFullEnd own b := { own with loadingFullEnd := b }

def loadMessages (m : ForumTopicMessagesModel) (extra : UpdateType) (fromMessageId offset : Int) :
    List Output :=
  match m.own.forumTopic with
  | none => []
  | some topic =>
      if m.own.searchQuery = "" then
        [.request (.getForumTopicHistory m.chatId topic.id extra fromMessageId offset)]
      -- search is not supported
      else []

instance : Virtuals ForumTopicMembers where
  appendMessages := MessagesModel.appendMessages
  prependMessages := MessagesModel.prependMessages
  processMessageData := ReadableMessagesModel.processMessageData
  reverseOrder _ := false
  clearOwn own := { own with loadingFullEnd := false, searchQuery := "" }
  canLoadMoreMessages _ := true
  loadMessages := loadMessages
  loadMoreHistoryImpl m := loadMessages m .updatePreviousSlice (ReadableMessagesModel.firstMessageId m) (-1)
  loadMoreFutureImpl m := loadMessages m .updateNextSlice (ReadableMessagesModel.lastRowMessageId m) (-49)
  loadHistoryForMessageImpl m messageId := loadMessages m .updateInitial messageId (-1)
  handlePrepareMessagesReceived m totalCount fromUpdate :=
    (ReadableMessagesModel.handlePrepareMessagesReceived m totalCount fromUpdate, [])

/-- A model of a chat whose topic is not known yet. -/
def new (chatId : Int) : ForumTopicMessagesModel :=
  MessagesModel.initial chatId { loadingFullEnd := false, searchQuery := "", forumTopic := none }

/-- `setForumTopicData`: the first data make the topic and load its first slice (`initialize`, with the
wrapper, the chat id and `loadFromMessageId` set); later ones update the topic. -/
def setForumTopicData (m : ForumTopicMessagesModel) (data : QVariantMap) (loadFromMessageId : Int) :
    ForumTopicMessagesModel × List Output :=
  match m.own.forumTopic with
  | some topic => ({ m with own := { m.own with forumTopic := some (topic.updateForumTopicData data) } }, [])
  | none =>
      if data.isEmpty then (m, [])
      else
        let m := { m with own := { m.own with forumTopic := some (ForumTopic.new data) } }
        (m, loadMessages m .updateInitial
          (if loadFromMessageId ≠ 0 then loadFromMessageId else lastReadInboxMessageId m) (-1))

def setSearchQuery (m : ForumTopicMessagesModel) (newSearchQuery : String) :
    ForumTopicMessagesModel × List Output :=
  if m.own.searchQuery ≠ newSearchQuery then
    let (m, cleared) := JumpableMessagesModel.clear m
    let m := { m with own := { m.own with searchQuery := newSearchQuery } }
    (m, cleared ++ loadMessages m .updateInitial
      (if newSearchQuery = "" then lastReadInboxMessageId m else 0) (-1))
  else (m, [])

def isTopic (m : ForumTopicMessagesModel) (chatId forumTopicId : Int) : Bool :=
  match m.own.forumTopic with
  | some topic => m.chatId == chatId && topic.id == forumTopicId
  | none => false

def handleForumTopicUpdated (m : ForumTopicMessagesModel) (chatId forumTopicId : Int)
    (update : QVariantMap) : ForumTopicMessagesModel :=
  if isTopic m chatId forumTopicId then
    { m with own := { m.own with forumTopic := m.own.forumTopic.map fun topic =>
        topic.updateFromForumTopicUpdate update } }
  else m

def handleForumTopicMessagesReceived (m : ForumTopicMessagesModel) (chatId forumTopicId : Int)
    (extra : UpdateType) (messages : List QVariantMap) (totalCount : Int) :
    ForumTopicMessagesModel × List Output :=
  if isTopic m chatId forumTopicId then
    JumpableMessagesModel.handleMessagesReceived m extra messages totalCount
  else (m, [])

def handleNewMessageReceived (m : ForumTopicMessagesModel) (chatId : Int) (message : QVariantMap) :
    ForumTopicMessagesModel :=
  if isTopic m chatId ((message.value TOPIC_ID).toMap.value FORUM_TOPIC_ID).toInt then
    ReadableMessagesModel.handleNewMessageReceived m message
  else m

inductive Event where
  | setForumTopicData (data : QVariantMap) (loadFromMessageId : Int)
  | loadMoreHistory
  | loadMoreFuture
  | loadHistoryForMessage (messageId : Int)
  | loadEnd (markAllAsRead : Bool)
  | setSearchQuery (newSearchQuery : String)
  | clear
  | handleInsertMessages (messages : List QVariantMap)
  | forumTopicMessagesReceived (chatId forumTopicId : Int) (extra : UpdateType) (messages : List QVariantMap)
      (totalCount : Int)
  | newMessageReceived (chatId : Int) (message : QVariantMap)
  | messageSendSucceeded (chatId oldMessageId messageId : Int) (message : QVariantMap)
  | messagesDeleted (chatId : Int) (messageIds : List Int)
  | forumTopicUpdated (chatId forumTopicId : Int) (update : QVariantMap)

def handle (m : ForumTopicMessagesModel) : Event → ForumTopicMessagesModel × List Output
  | .setForumTopicData data loadFromMessageId => setForumTopicData m data loadFromMessageId
  | .loadMoreHistory => JumpableMessagesModel.loadMoreHistory m
  | .loadMoreFuture => JumpableMessagesModel.loadMoreFuture m
  | .loadHistoryForMessage messageId => JumpableMessagesModel.loadHistoryForMessage m messageId
  | .loadEnd markAllAsRead => ReadableMessagesModel.loadEnd m markAllAsRead
  | .setSearchQuery newSearchQuery => setSearchQuery m newSearchQuery
  | .clear => JumpableMessagesModel.clear m
  | .handleInsertMessages messages => ((m.handleInsertMessages messages).1, [])
  | .forumTopicMessagesReceived chatId forumTopicId extra messages totalCount =>
      handleForumTopicMessagesReceived m chatId forumTopicId extra messages totalCount
  | .newMessageReceived chatId message => (handleNewMessageReceived m chatId message, [])
  | .messageSendSucceeded chatId oldMessageId messageId message =>
      m.handleMessageSendSucceeded chatId oldMessageId messageId message
  | .messagesDeleted chatId messageIds => (m.handleMessagesDeleted chatId messageIds, [])
  | .forumTopicUpdated chatId forumTopicId update =>
      (handleForumTopicUpdated m chatId forumTopicId update, [])

/-- The state after one event. -/
def step (m : ForumTopicMessagesModel) (e : Event) : ForumTopicMessagesModel := (handle m e).1

end ForumTopicMessagesModel

end YaqtLib
