import YaqtLib.ReadableMessagesModel

/-! The messages of a chat (`ChatMessagesModel` in `chat/chatmanager.cpp`): the readable model with a
search query, and with the sponsored messages of a channel among its rows. -/

namespace YaqtLib

open Containers IndexMap TdConst

/-- The members `ChatMessagesModel` adds, with the chat information its `ChatManager` reads from TDLib's
data at the moment. -/
structure ChatMembers where
  loadingFullEnd : Bool
  searchQuery : String
  containsSponsoredMessages : Bool
  pendingSponsoredMessages : List QVariantMap
  sponsoredMessagesMessagesBetween : Int
  chatInformation : QVariantMap

abbrev ChatMessagesModel := MessagesModel ChatMembers

namespace ChatMessagesModel

/-- `ChatManager::isChannel`. -/
def isChannel (m : ChatMessagesModel) : Bool :=
  let type := (m.own.chatInformation.value TYPE).toMap
  (type.value TYPE_).toStr == TYPE_CHAT_SUPERGROUP && (type.value IS_CHANNEL).toBool

def lastReadInboxMessageId (m : ChatMessagesModel) : Int :=
  (m.own.chatInformation.value LAST_READ_INBOX_MESSAGE_ID).toLongLong

def lastReadOutboxMessageId (m : ChatMessagesModel) : Int :=
  (m.own.chatInformation.value LAST_READ_OUTBOX_MESSAGE_ID).toLongLong

def lastMessageId (m : ChatMessagesModel) : Int :=
  messageIdOf (m.own.chatInformation.value LAST_MESSAGE).toMap

instance : ReadableVirtuals ChatMembers where
  lastReadInboxMessageId := lastReadInboxMessageId
  lastReadOutboxMessageId := lastReadOutboxMessageId
  lastMessageId := lastMessageId
  setLoadingFullEnd own b := { own with loadingFullEnd := b }

def canLoadMoreMessages (m : ChatMessagesModel) : Bool := m.own.searchQuery == ""

/-- The offset is ignored in a search for now. -/
def loadMessages (m : ChatMessagesModel) (extra : UpdateType) (fromMessageId offset : Int) : List Output :=
  if m.own.searchQuery = "" then [.request (.getChatHistory m.chatId extra fromMessageId offset)]
  else [.request (.searchChatMessages m.chatId m.own.searchQuery extra fromMessageId .empty 50 0)]

/-! ### Sponsored messages -/

def insertSponsoredMessage (m : ChatMessagesModel) (insertIndex : Int) (message : QVariantMap)
    (messageId : Int) : ChatMessagesModel :=
  let messages := insertAt m.messages insertIndex (MessageData.create message messageId)
  { m with
    messages := messages
    messageIndexMap := reindex MessageData.key (messages.drop insertIndex.toNat) insertIndex.toNat
      m.messageIndexMap }

/-- With a single sponsored message at the end, new rows go in at the index of the last row that is not
sponsored; otherwise nothing is moved. -/
def appendMessages (m : ChatMessagesModel) (newMessages : List MessageData) : ChatMessagesModel :=
  if m.own.containsSponsoredMessages && m.own.sponsoredMessagesMessagesBetween == 0 then
    let lastIndex : Int := (m.messages.reverse.dropWhile MessageData.isSponsored).length - 1
    m.insertMessagesAt lastIndex newMessages
  else MessagesModel.appendMessages m newMessages

/-- The loop that spreads the sponsored messages of a reply over the rows, from the end. -/
def spreadSponsoredMessages (messagesBetween : Int) :
    ChatMessagesModel → Int → List QVariantMap → ChatMessagesModel
  | m, _, [] => m
  | m, insertIndex, message :: rest =>
      let messageId := (message.value MESSAGE_ID).toLongLong
      if messageId ≠ 0 ∧ m.messageIndexMap.contains messageId = false then
        let m := insertSponsoredMessage m insertIndex message messageId
        if insertIndex - messagesBetween < 0 then
          -- no room for the extra ones, they are saved for later use
          { m with own := { m.own with
              pendingSponsoredMessages := rest
              sponsoredMessagesMessagesBetween := messagesBetween } }
        else spreadSponsoredMessages messagesBetween m (insertIndex - messagesBetween) rest
      else spreadSponsoredMessages messagesBetween m insertIndex rest

def handleSponsoredMessagesReceived (m : ChatMessagesModel) (chatId : Int)
    (sponsoredMessages : List QVariantMap) (messagesBetween : Int) : ChatMessagesModel :=
  if m.chatId ≠ chatId ∨ isChannel m = false then m
  else
    match sponsoredMessages with
    | [] => m
    | message :: _ =>
        let m :=
          if messagesBetween = 0 then
            let messageId := (message.value MESSAGE_ID).toLongLong
            if messageId ≠ 0 ∧ m.messageIndexMap.contains messageId = false then
              appendMessages m [MessageData.create message messageId]
            else m
          else spreadSponsoredMessages messagesBetween m m.messages.length sponsoredMessages
        { m with own := { m.own with
            containsSponsoredMessages := true
            sponsoredMessagesMessagesBetween := messagesBetween } }

/-- The loop over the pending messages after older rows came in; what is left stays pending. -/
def insertPendingBefore : ChatMessagesModel → Int → List QVariantMap → ChatMessagesModel × List QVariantMap
  | m, _, [] => (m, [])
  | m, insertIndex, message :: rest =>
      if 0 ≤ insertIndex then
        insertPendingBefore (insertSponsoredMessage m insertIndex message (messageIdOf message))
          (insertIndex - m.own.sponsoredMessagesMessagesBetween) rest
      else (m, message :: rest)

/-- The loop over the pending messages after newer rows came in. -/
def insertPendingAfter : ChatMessagesModel → Int → List QVariantMap → ChatMessagesModel × List QVariantMap
  | m, _, [] => (m, [])
  | m, insertIndex, message :: rest =>
      if insertIndex ≤ m.messages.length then
        insertPendingAfter (insertSponsoredMessage m insertIndex message (messageIdOf message))
          (insertIndex + 1 + m.own.sponsoredMessagesMessagesBetween) rest
      else (m, message :: rest)

def insertPendingSponsoredMessages (m : ChatMessagesModel) (totalCount : Int) (fromUpdate : UpdateType) :
    ChatMessagesModel :=
  if 0 < totalCount ∧ m.own.containsSponsoredMessages ∧ m.messages ≠ [] ∧
      m.own.pendingSponsoredMessages ≠ [] then
    let keep (r : ChatMessagesModel × List QVariantMap) : ChatMessagesModel :=
      { r.1 with own := { r.1.own with pendingSponsoredMessages := r.2 } }
    match fromUpdate with
    | .updatePreviousSlice =>
        let firstSponsored : Int := (m.messages.takeWhile fun message => !message.isSponsored).length
        keep (insertPendingBefore m (firstSponsored - m.own.sponsoredMessagesMessagesBetween)
          m.own.pendingSponsoredMessages)
    | .updateNextSlice =>
        let lastSponsored : Int :=
          (m.messages.reverse.dropWhile fun message => !message.isSponsored).length - 1
        keep (insertPendingAfter m (lastSponsored + 1 + m.own.sponsoredMessagesMessagesBetween)
          m.own.pendingSponsoredMessages)
    | _ => m
  else m

def handlePrepareMessagesReceived (m : ChatMessagesModel) (totalCount : Int) (fromUpdate : UpdateType) :
    ChatMessagesModel × List Output :=
  let m := ReadableMessagesModel.handlePrepareMessagesReceived m totalCount fromUpdate
  let m := insertPendingSponsoredMessages m totalCount fromUpdate
  (m, if !m.own.containsSponsoredMessages && isChannel m &&
      (fromUpdate == .updateInitial || fromUpdate == .updateReload) then
    [.request (.getChatSponsoredMessages m.chatId)] else [])

instance : Virtuals ChatMembers where
  appendMessages := appendMessages
  prependMessages := MessagesModel.prependMessages
  processMessageData := ReadableMessagesModel.processMessageData
  reverseOrder _ := false
  clearOwn own := { own with loadingFullEnd := false, searchQuery := "", containsSponsoredMessages := false }
  canLoadMoreMessages := canLoadMoreMessages
  loadMessages := loadMessages
  loadMoreHistoryImpl m := loadMessages m .updatePreviousSlice (ReadableMessagesModel.firstMessageId m) (-1)
  loadMoreFutureImpl m := loadMessages m .updateNextSlice (ReadableMessagesModel.lastRowMessageId m) (-49)
  loadHistoryForMessageImpl m messageId := loadMessages m .updateInitial messageId (-1)
  handlePrepareMessagesReceived := handlePrepareMessagesReceived

/-- A new model, before `ChatManager::initializeMainModels` loads its first slice. -/
def new (chatId : Int) (chatInformation : QVariantMap) : ChatMessagesModel :=
  MessagesModel.initial chatId
    { loadingFullEnd := false, searchQuery := "", containsSponsoredMessages := false,
      pendingSponsoredMessages := [], sponsoredMessagesMessagesBetween := 0,
      chatInformation := chatInformation }

/-- The first slice is loaded from a given message, or from the last read one. -/
def initialLoad (m : ChatMessagesModel) (fromMessageId : Int) : List Output :=
  loadMessages m .updateInitial (if fromMessageId ≠ 0 then fromMessageId else lastReadInboxMessageId m) (-1)

def setSearchQuery (m : ChatMessagesModel) (newSearchQuery : String) : ChatMessagesModel × List Output :=
  if m.own.searchQuery ≠ newSearchQuery then
    let (m, cleared) := JumpableMessagesModel.clear m
    let m := { m with own := { m.own with searchQuery := newSearchQuery } }
    (m, cleared ++ loadMessages m .updateInitial
      (if newSearchQuery = "" then lastReadInboxMessageId m else 0) (-1))
  else (m, [])

def handleNewMessageReceived (m : ChatMessagesModel) (chatId : Int) (message : QVariantMap) :
    ChatMessagesModel :=
  if chatId = m.chatId then ReadableMessagesModel.handleNewMessageReceived m message else m

/-- The slot behind `messagesReceived`, the answers to `getChatHistory`. -/
def handleMessagesReceived (m : ChatMessagesModel) (chatId : Int) (extra : UpdateType)
    (messages : List QVariantMap) (totalCount : Int) : ChatMessagesModel × List Output :=
  if m.chatId = chatId then JumpableMessagesModel.handleMessagesReceived m extra messages totalCount
  else (m, [])

def handleFoundChatMessagesReceived (m : ChatMessagesModel) (chatId : Int) (filter : SearchMessagesFilter)
    (extra : UpdateType) (messages : List QVariantMap) (totalCount : Int) : ChatMessagesModel × List Output :=
  if m.chatId = chatId ∧ filter = .empty then
    JumpableMessagesModel.handleMessagesReceived m extra messages totalCount
  else (m, [])

/-- What happens to the model: calls from the user interface, answers and updates from TDLib, and the
changes of the chat information it reads. -/
inductive Event where
  | initialLoad (fromMessageId : Int)
  | loadMoreHistory
  | loadMoreFuture
  | loadHistoryForMessage (messageId : Int)
  | loadEnd (markAllAsRead : Bool)
  | setSearchQuery (newSearchQuery : String)
  | clear
  | handleInsertMessages (messages : List QVariantMap)
  | messagesReceived (chatId : Int) (extra : UpdateType) (messages : List QVariantMap) (totalCount : Int)
  | foundChatMessagesReceived (chatId : Int) (filter : SearchMessagesFilter) (extra : UpdateType)
      (messages : List QVariantMap) (totalCount : Int)
  | newMessageReceived (chatId : Int) (message : QVariantMap)
  | messageSendSucceeded (chatId oldMessageId messageId : Int) (message : QVariantMap)
  | messagesDeleted (chatId : Int) (messageIds : List Int)
  | sponsoredMessagesReceived (chatId : Int) (sponsoredMessages : List QVariantMap) (messagesBetween : Int)
  | chatInformationChanged (chatInformation : QVariantMap)

def handle (m : ChatMessagesModel) : Event → ChatMessagesModel × List Output
  | .initialLoad fromMessageId => (m, initialLoad m fromMessageId)
  | .loadMoreHistory => JumpableMessagesModel.loadMoreHistory m
  | .loadMoreFuture => JumpableMessagesModel.loadMoreFuture m
  | .loadHistoryForMessage messageId => JumpableMessagesModel.loadHistoryForMessage m messageId
  | .loadEnd markAllAsRead => ReadableMessagesModel.loadEnd m markAllAsRead
  | .setSearchQuery newSearchQuery => setSearchQuery m newSearchQuery
  | .clear => JumpableMessagesModel.clear m
  | .handleInsertMessages messages => ((m.handleInsertMessages messages).1, [])
  | .messagesReceived chatId extra messages totalCount =>
      handleMessagesReceived m chatId extra messages totalCount
  | .foundChatMessagesReceived chatId filter extra messages totalCount =>
      handleFoundChatMessagesReceived m chatId filter extra messages totalCount
  | .newMessageReceived chatId message => (handleNewMessageReceived m chatId message, [])
  | .messageSendSucceeded chatId oldMessageId messageId message =>
      m.handleMessageSendSucceeded chatId oldMessageId messageId message
  | .messagesDeleted chatId messageIds => (m.handleMessagesDeleted chatId messageIds, [])
  | .sponsoredMessagesReceived chatId sponsoredMessages messagesBetween =>
      (handleSponsoredMessagesReceived m chatId sponsoredMessages messagesBetween, [])
  | .chatInformationChanged chatInformation => ({ m with own := { m.own with chatInformation } }, [])

/-- The state after one event. -/
def step (m : ChatMessagesModel) (e : Event) : ChatMessagesModel := (handle m e).1

end ChatMessagesModel

end YaqtLib
