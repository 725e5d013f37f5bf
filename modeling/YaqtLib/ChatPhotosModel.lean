import YaqtLib.MediaMessagesModel
import YaqtLib.ChatData

/-! The photos of a group (`chat/chatphotosmodel.cpp`): the messages that changed the chat photo, in descending order,
and a placeholder row for the current photo until a message with it is loaded. -/

namespace YaqtLib

open Containers IndexMap TdConst

/-- The members `ChatPhotosModel` adds to those of an inverted media model. -/
structure PhotoMembers extends MediaMembers where
  mainChatPhotoLoaded : Bool
  mainChatPhotoId : Int

abbrev ChatPhotosModel := MessagesModel PhotoMembers

namespace ChatPhotosModel

def new : ChatPhotosModel :=
  MessagesModel.initial 0
    { inverted := true, searchMessagesFilter := .chatPhoto, query := "", totalCount := -1, nextFromMessageId := 0,
      mainChatPhotoLoaded := false, mainChatPhotoId := 0 }

def updateTotalCount (m : ChatPhotosModel) (count : Int) : ChatPhotosModel :=
  if 0 ≤ m.own.totalCount ∧ m.own.totalCount ≠ count then { m with own := { m.own with totalCount := count } } else m

def loadMessagesWithLimit (m : ChatPhotosModel) (extra : UpdateType) (fromMessageId offset limit : Int) : List Output :=
  [.request (.searchChatMessages m.chatId m.own.query extra fromMessageId m.own.searchMessagesFilter limit offset)]

def loadMessages (m : ChatPhotosModel) (extra : UpdateType) (fromMessageId offset : Int) : List Output :=
  loadMessagesWithLimit m extra fromMessageId offset 100

/-- The first message after the placeholder goes behind it, all others before the rows. -/
def appendMessages (m : ChatPhotosModel) (newMessages : List MessageData) : ChatPhotosModel :=
  if m.own.mainChatPhotoId ≠ 0 ∧ m.messages.length = 1 then MessagesModel.appendMessages m newMessages
  else MessagesModel.prependMessages m newMessages

/-- The photo of a message that changed the chat photo. -/
def photoId (message : MessageData) : Int :=
  (((MessageData.getContent message.messageData).value "photo").toMap.value ID).toLongLong

/-- What `processMessageData` does to the rows is `processMessageData` below; the message stays as it is. -/
instance : Virtuals PhotoMembers where
  appendMessages := appendMessages
  prependMessages m newMessages := MessagesModel.appendMessages m newMessages
  processMessageData _ message := message
  reverseOrder _ := true
  clearOwn own := { own with mainChatPhotoLoaded := false, mainChatPhotoId := 0 }
  canLoadMoreMessages _ := true
  loadMessages := loadMessages
  loadMoreHistoryImpl m := loadMessages m .updatePreviousSlice m.own.nextFromMessageId 0
  loadMoreFutureImpl m :=
    loadMessagesWithLimit m .updateNextSlice ((m.messages.getLast?.map MessageData.messageId).getD 0) (-16) 32
  loadHistoryForMessageImpl m messageId := loadMessagesWithLimit m .updateInitial messageId (-26) 51
  handlePrepareMessagesReceived m totalCount fromUpdate :=
    (JumpableMessagesModel.handlePrepareMessagesReceived (updateTotalCount m totalCount) totalCount fromUpdate, [])

/-- The message is the one of the photo that the placeholder stands for. -/
def IsMainPhoto (m : ChatPhotosModel) (message : MessageData) : Prop :=
  m.own.mainChatPhotoId ≠ 0 ∧ message.messageContentType = MESSAGE_CONTENT_TYPE_CHAT_CHANGE_PHOTO ∧
    photoId message = m.own.mainChatPhotoId

instance (m : ChatPhotosModel) (message : MessageData) : Decidable (IsMainPhoto m message) :=
  inferInstanceAs (Decidable (_ ∧ _))

def processMessageData (m : ChatPhotosModel) (message : MessageData) : ChatPhotosModel :=
  if IsMainPhoto m message then
    MessagesModel.removeRange { m with own := { m.own with mainChatPhotoId := 0 } } 0 0
  else m

/-- The loop of `handleInsertMessages` that collects the new messages, and processes each of them. -/
def freshLoop : ChatPhotosModel → List QVariantMap → ChatPhotosModel × List MessageData
  | m, [] => (m, [])
  | m, messageData :: rest =>
      let messageId := messageIdOf messageData
      if messageId ≠ 0 ∧ chatIdOf messageData = m.chatId ∧ m.messageIndexMap.contains messageId = false then
        let message := MessageData.create messageData messageId
        let (m, newMessages) := freshLoop (processMessageData m message) rest
        (m, message :: newMessages)
      else freshLoop m rest

def handleInsertMessages (m : ChatPhotosModel) (messages : List QVariantMap) :
    ChatPhotosModel × List MessageData × Bool :=
  let (m, newMessages) := freshLoop m messages
  let newMessagesList := MessagesModel.sortMessages true newMessages
  let m := if newMessagesList.isEmpty then m
    else (m.insertMessages newMessagesList).setMessagesAlbum newMessagesList
  (m, newMessagesList, !newMessagesList.isEmpty && newMessagesList.length + messages.length < 10)

/-- `JumpableMessagesModel::handleMessagesReceived`, with the loop of this class. -/
def receiveMessages (m : ChatPhotosModel) (fromUpdate : UpdateType) (messages : List QVariantMap) (totalCount : Int) :
    ChatPhotosModel × List Output :=
  let (m, outputs) :=
    if messages.isEmpty then JumpableMessagesModel.notifyMessagesLoaded m fromUpdate totalCount
    else if m.waitingFor fromUpdate || m.messages.isEmpty then
      let (m, addedMessages, reloadNeeded) := handleInsertMessages m messages
      let (m, outputs) := JumpableMessagesModel.afterInsertion m addedMessages reloadNeeded fromUpdate totalCount
      (m, JumpableMessagesModel.insertionOutput addedMessages ++ outputs)
    else (m, [])
  (m.setWaitingFor fromUpdate false, outputs)

def handleMessagesReceived (m : ChatPhotosModel) (chatId : Int) (filter : SearchMessagesFilter) (extra : UpdateType)
    (messages : List QVariantMap) (totalCount nextFromMessageId : Int) : ChatPhotosModel × List Output :=
  if m.chatId = chatId ∧ filter = m.own.searchMessagesFilter then
    let (m, outputs) := receiveMessages m extra messages totalCount
    (updateTotalCount { m with own := { m.own with nextFromMessageId := nextFromMessageId } } totalCount, outputs)
  else (m, [])

/-- Whether a new message becomes a row. -/
def TakesNewMessage (m : ChatPhotosModel) (chatId : Int) (message : QVariantMap) : Prop :=
  m.endReached = true ∧ chatId = m.chatId ∧ m.messageIndexMap.contains (messageIdOf message) = false ∧
    Utilities.messageMatchesSearchFilter message m.own.searchMessagesFilter = true

instance (m : ChatPhotosModel) (chatId : Int) (message : QVariantMap) : Decidable (TakesNewMessage m chatId message) :=
  inferInstanceAs (Decidable (_ ∧ _))

def handleNewMessageReceived (m : ChatPhotosModel) (chatId : Int) (message : QVariantMap) : ChatPhotosModel :=
  if TakesNewMessage m chatId message then m.insertMessages [MessageData.create message (messageIdOf message)] else m

/-- `clear`; the cursor of the slices stays. -/
def clear (m : ChatPhotosModel) : ChatPhotosModel × List Output := JumpableMessagesModel.clear m

/-- The row for the current photo. -/
def placeholder (photo : QVariantMap) : MessageData :=
  MessageData.create
    [(TYPE_, .string "message"), (ID, .longLong 0),
      (CONTENT, .map [(TYPE_, .string MESSAGE_CONTENT_TYPE_CHAT_CHANGE_PHOTO), ("photo", .map photo)])] 0

def processChatPhoto (m : ChatPhotosModel) (photo : QVariantMap) : ChatPhotosModel × List Output :=
  let (m, cleared) := clear m
  let m :=
    if photo.isEmpty then m
    else
      let m := MessagesModel.insertMessagesAt
        { m with own := { m.own with mainChatPhotoId := (photo.value ID).toLongLong } } 0 [placeholder photo]
      { m with messageIndexMap := m.messageIndexMap.remove 0 }
  let m := { m.setWaitingFor .updateInitial true with endReached := true }
  (m, cleared ++ loadMessages m .updateInitial 0 0)

/-- The type and group of a chat in TDLib's data. -/
structure GroupData where
  chatType : Account.ChatType
  groupId : Int
  deriving DecidableEq

/-- `data` is what `getChatData` says of the model's chat. -/
def processGroupFullInfo (m : ChatPhotosModel) (data : Option GroupData) (type : Account.ChatType) (groupId : Int)
    (fullInfo : QVariantMap) : ChatPhotosModel × List Output :=
  if m.own.mainChatPhotoLoaded = false ∧ m.chatId ≠ 0 ∧ data = some ⟨type, groupId⟩ then
    processChatPhoto { m with own := { m.own with mainChatPhotoLoaded := true } } (fullInfo.value "photo").toMap
  else (m, [])

/-- `InvertedMediaMessagesModel::handleMessagesDeleted` visits the list from its front. -/
def handleMessagesDeleted (m : ChatPhotosModel) (chatId : Int) (messageIds : List Int) : ChatPhotosModel :=
  if chatId = m.chatId then m.deleteMessages messageIds else m

inductive Event where
  | setChatId (chatId : Int)
  | groupFullInfo (data : Option GroupData) (type : Account.ChatType) (groupId : Int) (fullInfo : QVariantMap)
  | foundChatMessagesReceived (chatId : Int) (filter : SearchMessagesFilter) (extra : UpdateType)
      (messages : List QVariantMap) (totalCount nextFromMessageId : Int)
  | newMessageReceived (chatId : Int) (message : QVariantMap)
  | messagesDeleted (chatId : Int) (messageIds : List Int)
  | loadMoreHistory
  | loadMoreFuture
  | clear

def handle (m : ChatPhotosModel) : Event → ChatPhotosModel × List Output
  | .setChatId chatId => ({ m with chatId := chatId }, [])
  | .groupFullInfo data type groupId fullInfo => processGroupFullInfo m data type groupId fullInfo
  | .foundChatMessagesReceived chatId filter extra messages totalCount nextFromMessageId =>
      handleMessagesReceived m chatId filter extra messages totalCount nextFromMessageId
  | .newMessageReceived chatId message => (handleNewMessageReceived m chatId message, [])
  | .messagesDeleted chatId messageIds => (handleMessagesDeleted m chatId messageIds, [])
  | .loadMoreHistory => JumpableMessagesModel.loadMoreHistory m
  | .loadMoreFuture => JumpableMessagesModel.loadMoreFuture m
  | .clear => clear m

def step (m : ChatPhotosModel) (e : Event) : ChatPhotosModel := (handle m e).1

end ChatPhotosModel

end YaqtLib
