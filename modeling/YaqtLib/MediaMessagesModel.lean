import YaqtLib.JumpableMessagesModel

/-! The messages of a chat that match a search filter (`chat/mediamessagesmodel.cpp`), in ascending order
or, for `InvertedMediaMessagesModel` (`chat/invertedmediamessagesmodel.cpp`), in descending order; with the
predicates of `utilities.cpp` that tell whether a message matches. -/

namespace YaqtLib

open Containers IndexMap TdConst

namespace Utilities

def messageContentTypeMatchesSearchFilter (contentType : String) (filter : SearchMessagesFilter) : Bool :=
  match filter with
  | .empty => true
  | .animation => contentType == MESSAGE_CONTENT_TYPE_ANIMATION
  | .audio => contentType == MESSAGE_CONTENT_TYPE_AUDIO
  | .chatPhoto => contentType == MESSAGE_CONTENT_TYPE_CHAT_CHANGE_PHOTO
  | .document => contentType == MESSAGE_CONTENT_TYPE_DOCUMENT
  | .photo => contentType == MESSAGE_CONTENT_TYPE_PHOTO
  | .photoAndVideo => contentType == MESSAGE_CONTENT_TYPE_PHOTO || contentType == MESSAGE_CONTENT_TYPE_VIDEO
  | .video => contentType == MESSAGE_CONTENT_TYPE_VIDEO
  | .videoNote => contentType == MESSAGE_CONTENT_TYPE_VIDEO_NOTE
  | .voiceAndVideoNote =>
      contentType == MESSAGE_CONTENT_TYPE_VOICE_NOTE || contentType == MESSAGE_CONTENT_TYPE_VIDEO_NOTE
  | .voiceNote => contentType == MESSAGE_CONTENT_TYPE_VOICE_NOTE
  | _ => true

def messageMatchesSearchFilter (message : QVariantMap) (filter : SearchMessagesFilter) : Bool :=
  match filter with
  | .failedToSend =>
      ((message.value SENDING_STATE).toMap.value TYPE_).toStr == TYPE_MESSAGE_SENDING_STATE_FAILED
  | .mention => false
  | .pinned => (message.value IS_PINNED).toBool
  | .unreadMention => (message.value CONTAINS_UNREAD_MENTION).toBool
  | .unreadReaction => !(message.value UNREAD_REACTIONS).toList.isEmpty
  | .url => !((message.value CONTENT).toMap.value LINK_PREVIEW).toMap.isEmpty
  | _ => messageContentTypeMatchesSearchFilter ((message.value CONTENT).toMap.value TYPE_).toStr filter

end Utilities

/-- The members `MediaMessagesModel` adds; `inverted` tells the two classes apart. -/
structure MediaMembers where
  inverted : Bool
  searchMessagesFilter : SearchMessagesFilter
  query : String
  totalCount : Int
  nextFromMessageId : Int

abbrev MediaMessagesModel := MessagesModel MediaMembers

namespace MediaMessagesModel

def maintainCount (m : MediaMessagesModel) : Bool := 0 ≤ m.own.totalCount

def updateTotalCount (m : MediaMessagesModel) (count : Int) : MediaMessagesModel :=
  if maintainCount m ∧ m.own.totalCount ≠ count then { m with own := { m.own with totalCount := count } }
  else m

def loadMessagesWithLimit (m : MediaMessagesModel) (extra : UpdateType) (fromMessageId offset limit : Int) :
    List Output :=
  [.request (.searchChatMessages m.chatId m.own.query extra fromMessageId m.own.searchMessagesFilter limit
    offset)]

/-- `loadMessages`, with the default limit. -/
def loadMessages (m : MediaMessagesModel) (extra : UpdateType) (fromMessageId offset : Int) : List Output :=
  loadMessagesWithLimit m extra fromMessageId offset 100

/-- An inverted model appends at its front. -/
def appendMessages (m : MediaMessagesModel) (newMessages : List MessageData) : MediaMessagesModel :=
  if m.own.inverted then MessagesModel.prependMessages m newMessages
  else MessagesModel.appendMessages m newMessages

def prependMessages (m : MediaMessagesModel) (newMessages : List MessageData) : MediaMessagesModel :=
  if m.own.inverted then MessagesModel.appendMessages m newMessages
  else MessagesModel.prependMessages m newMessages

def lastRowMessageId (m : MediaMessagesModel) : Int := (m.messages.getLast?.map MessageData.messageId).getD 0

instance : Virtuals MediaMembers where
  appendMessages := appendMessages
  prependMessages := prependMessages
  processMessageData _ message := message
  reverseOrder m := m.own.inverted
  clearOwn own := { own with nextFromMessageId := 0 }
  canLoadMoreMessages _ := true
  loadMessages := loadMessages
  loadMoreHistoryImpl m := loadMessages m .updatePreviousSlice m.own.nextFromMessageId 0
  loadMoreFutureImpl m := loadMessagesWithLimit m .updateNextSlice (lastRowMessageId m) (-16) 32
  loadHistoryForMessageImpl m messageId := loadMessagesWithLimit m .updateInitial messageId (-26) 51
  handlePrepareMessagesReceived m totalCount fromUpdate :=
    (JumpableMessagesModel.handlePrepareMessagesReceived (updateTotalCount m totalCount) totalCount fromUpdate,
      [])

/-- A new model with the filter that its user sets before anything is loaded. -/
def new (inverted : Bool) (searchMessagesFilter : SearchMessagesFilter) : MediaMessagesModel :=
  MessagesModel.initial 0
    { inverted := inverted, searchMessagesFilter := searchMessagesFilter, query := "", totalCount := -1,
      nextFromMessageId := 0 }

def tryReload (m : MediaMessagesModel) : MediaMessagesModel × List Output :=
  if !JumpableMessagesModel.loading m && m.highlightedMessageId == 0 then
    let (m, cleared) := JumpableMessagesModel.clear m
    (m, cleared ++ loadMessagesWithLimit m .updateInitial 0 (-16) 32)
  else (m, [])

def setSearchMessagesFilter (m : MediaMessagesModel) (filter : SearchMessagesFilter) :
    MediaMessagesModel × List Output :=
  if m.own.searchMessagesFilter ≠ filter then
    tryReload { m with own := { m.own with searchMessagesFilter := filter } }
  else (m, [])

def setQuery (m : MediaMessagesModel) (value : String) : MediaMessagesModel × List Output :=
  if m.own.query ≠ value then tryReload { m with own := { m.own with query := value } } else (m, [])

def setMaintainCount (m : MediaMessagesModel) (value : Bool) : MediaMessagesModel × List Output :=
  if maintainCount m ≠ value then
    ({ m with own := { m.own with totalCount := if value then 0 else -1 } },
      if value ∧ m.chatId ≠ 0 ∧ m.messages ≠ [] then
        [.request (.getChatMessageCount m.chatId m.own.searchMessagesFilter)]
      else [])
  else (m, [])

/-- `init` of a model that may already show what is asked for; then nothing is loaded. -/
def alreadyLoaded (m : MediaMessagesModel) (chatId fromMessageId : Int) (force : Bool) : Bool :=
  !force && m.chatId == chatId &&
    if fromMessageId = 0 then m.endReached
    else !m.messages.isEmpty && m.messageIndexMap.contains fromMessageId

def init (m : MediaMessagesModel) (chatId fromMessageId : Int) (checkCount force : Bool) :
    MediaMessagesModel × List Output :=
  if alreadyLoaded m chatId fromMessageId force then
    (if fromMessageId = 0 then m else { m with highlightedMessageId := fromMessageId }, [])
  else
    let (m, cleared) := JumpableMessagesModel.clear m
    let m := { m with chatId := chatId, highlightedMessageId := fromMessageId }
    (m, cleared ++
      if !checkCount || m.own.searchMessagesFilter == .empty || fromMessageId != 0 then
        loadMessagesWithLimit m .updateInitial fromMessageId (-16) 32
      else [.request (.getChatMessageCount chatId m.own.searchMessagesFilter)])

def handleChatMessageCountReceived (m : MediaMessagesModel) (count chatId : Int)
    (filter : SearchMessagesFilter) : MediaMessagesModel × List Output :=
  if m.chatId = chatId ∧ m.own.searchMessagesFilter = filter then
    let m := updateTotalCount m count
    if JumpableMessagesModel.loading m then
      if count = 0 then ({ m with endReached := true, startReached := true }, [])
      else
        let m := { m with endReached := true }
        (m, loadMessages m .updateInitial 0 0)
    else (m, [])
  else (m, [])

/-- The slot behind `foundChatMessagesReceived`; the cursor is kept whether or not the rows took the batch. -/
def handleMessagesReceived (m : MediaMessagesModel) (chatId : Int) (filter : SearchMessagesFilter)
    (extra : UpdateType) (messages : List QVariantMap) (totalCount nextFromMessageId : Int) :
    MediaMessagesModel × List Output :=
  if m.chatId = chatId ∧ filter = m.own.searchMessagesFilter then
    let (m, outputs) := JumpableMessagesModel.handleMessagesReceived m extra messages totalCount
    (updateTotalCount { m with own := { m.own with nextFromMessageId := nextFromMessageId } } totalCount,
      outputs)
  else (m, [])

def handleNewMessageReceived (m : MediaMessagesModel) (chatId : Int) (message : QVariantMap) :
    MediaMessagesModel :=
  if m.endReached then
    let messageId := messageIdOf message
    if chatId = m.chatId ∧ m.messageIndexMap.contains messageId = false ∧
        Utilities.messageMatchesSearchFilter message m.own.searchMessagesFilter then
      m.insertMessages [MessageData.create message messageId]
    else m
  else m

def removeMessage (m : MediaMessagesModel) (messageId : Int) : MediaMessagesModel :=
  let m := MessagesModel.removeMessage m messageId
  if maintainCount m then { m with own := { m.own with totalCount := m.own.totalCount - 1 } } else m

def insertMessageInOrder (m : MediaMessagesModel) (messageId : Int) (message : QVariantMap) :
    MediaMessagesModel :=
  let m := JumpableMessagesModel.insertMessageInOrder m messageId message m.own.inverted
  if maintainCount m then { m with own := { m.own with totalCount := m.own.totalCount + 1 } } else m

/-- The filters for which a content update can change whether a message matches. -/
def filtersByContent (filter : SearchMessagesFilter) : Bool :=
  match filter with
  | .animation | .audio | .document | .video | .photoAndVideo => true
  | _ => false

def handleMessageContentUpdated (m : MediaMessagesModel) (chatId messageId : Int) (newContent : QVariantMap) :
    MediaMessagesModel × List Output :=
  let (m, message) := MessagesModel.handleMessageContentUpdated m chatId messageId newContent
  if m.chatId = chatId ∧ filtersByContent m.own.searchMessagesFilter then
    match message with
    | some message =>
        if Utilities.messageMatchesSearchFilter message.messageData m.own.searchMessagesFilter then (m, [])
        else (removeMessage m messageId, [])
    | none =>
        if Utilities.messageContentTypeMatchesSearchFilter (newContent.value TYPE_).toStr
            m.own.searchMessagesFilter then (m, [])
        else (m, [.request (.getMessage m.chatId messageId)])
  else (m, [])

def handleMessageIsPinnedUpdated (m : MediaMessagesModel) (chatId messageId : Int) (isPinned : Bool) :
    MediaMessagesModel × List Output :=
  if m.own.searchMessagesFilter = .pinned then
    if m.chatId ≠ chatId then (m, [])
    else if isPinned then
      (m, if m.messageIndexMap.contains messageId then [] else [.request (.getMessage m.chatId messageId)])
    else (removeMessage m messageId, [])
  else (MessagesModel.handleMessageIsPinnedUpdated m chatId messageId isPinned, [])

/-- An inverted model visits the deleted ids from the front of the list. -/
def handleMessagesDeleted (m : MediaMessagesModel) (chatId : Int) (messageIds : List Int) :
    MediaMessagesModel × List Output :=
  (if m.own.inverted then (if chatId = m.chatId then m.deleteMessages messageIds else m)
    else MessagesModel.handleMessagesDeleted m chatId messageIds,
    -- only the ascending class asks for the new count
    if !m.own.inverted && m.own.searchMessagesFilter == .pinned && m.chatId == chatId then
      [.request (.getChatMessageCount chatId m.own.searchMessagesFilter)]
    else [])

inductive Event where
  | setSearchMessagesFilter (filter : SearchMessagesFilter)
  | setQuery (value : String)
  | setMaintainCount (value : Bool)
  | init (chatId fromMessageId : Int) (checkCount force : Bool)
  | loadMoreHistory
  | loadMoreFuture
  | loadHistoryForMessage (messageId : Int)
  | clear
  | handleInsertMessages (messages : List QVariantMap)
  | chatMessageCountReceived (count chatId : Int) (filter : SearchMessagesFilter)
  | foundChatMessagesReceived (chatId : Int) (filter : SearchMessagesFilter) (extra : UpdateType)
      (messages : List QVariantMap) (totalCount nextFromMessageId : Int)
  | newMessageReceived (chatId : Int) (message : QVariantMap)
  | messageFetched (messageId : Int) (message : QVariantMap)
  | removeMessage (messageId : Int)
  | messageContentUpdated (chatId messageId : Int) (newContent : QVariantMap)
  | messageIsPinnedUpdated (chatId messageId : Int) (isPinned : Bool)
  | messagesDeleted (chatId : Int) (messageIds : List Int)

def handle (m : MediaMessagesModel) : Event → MediaMessagesModel × List Output
  | .setSearchMessagesFilter filter => setSearchMessagesFilter m filter
  | .setQuery value => setQuery m value
  | .setMaintainCount value => setMaintainCount m value
  | .init chatId fromMessageId checkCount force => init m chatId fromMessageId checkCount force
  | .loadMoreHistory => JumpableMessagesModel.loadMoreHistory m
  | .loadMoreFuture => JumpableMessagesModel.loadMoreFuture m
  | .loadHistoryForMessage messageId => JumpableMessagesModel.loadHistoryForMessage m messageId
  | .clear => JumpableMessagesModel.clear m
  | .handleInsertMessages messages => ((m.handleInsertMessages messages).1, [])
  | .chatMessageCountReceived count chatId filter => handleChatMessageCountReceived m count chatId filter
  | .foundChatMessagesReceived chatId filter extra messages totalCount nextFromMessageId =>
      handleMessagesReceived m chatId filter extra messages totalCount nextFromMessageId
  | .newMessageReceived chatId message => (handleNewMessageReceived m chatId message, [])
  | .messageFetched messageId message =>
      (if (message.value TYPE_).toStr = TYPE_MESSAGE then insertMessageInOrder m messageId message else m, [])
  | .removeMessage messageId => (removeMessage m messageId, [])
  | .messageContentUpdated chatId messageId newContent =>
      handleMessageContentUpdated m chatId messageId newContent
  | .messageIsPinnedUpdated chatId messageId isPinned =>
      handleMessageIsPinnedUpdated m chatId messageId isPinned
  | .messagesDeleted chatId messageIds => handleMessagesDeleted m chatId messageIds

/-- The state after one event. -/
def step (m : MediaMessagesModel) (e : Event) : MediaMessagesModel := (handle m e).1

end MediaMessagesModel

end YaqtLib
