import Mathlib.Data.List.Sort
import YaqtLib.IndexMap
import YaqtLib.QVariant

/-! The rows of a chat (`chat/messagedata.cpp`, `chat/messagesmodel.cpp`): a list of messages with an
index map from the message ids to the rows and a map of the albums. The functions a subclass overrides
are the fields of `Virtuals`, and `Own` is what a subclass adds to the members. -/

namespace YaqtLib

open Containers IndexMap TdConst

structure MessageData where
  messageData : QVariantMap
  messageId : Int
  isSponsored : Bool
  messageContentType : String
  viewCount : Int
  reactions : QVariantList
  albumEntryFilter : Bool
  albumMessageIds : List Int
  generatedContentUnread : Bool

/-- Whether an object of TDLib is a sponsored message. -/
def isSponsoredMessage (data : QVariantMap) : Bool := (data.value TYPE_).toStr == TYPE_SPONSORED_MESSAGE

namespace MessageData

def getContent (messageData : QVariantMap) : QVariantMap := (messageData.value CONTENT).toMap

/-- `MessageData(data, msgid)`. -/
def create (data : QVariantMap) (msgid : Int) : MessageData :=
  let messageContentType := ((getContent data).value TYPE_).toStr
  let info := (data.value INTERACTION_INFO).toMap
  { messageData := data
    messageId := msgid
    isSponsored := isSponsoredMessage data
    messageContentType := messageContentType
    viewCount := (info.value VIEW_COUNT).toInt
    reactions := ((info.value REACTIONS).toMap.value REACTIONS).toList
    albumEntryFilter := false
    albumMessageIds := []
    generatedContentUnread := messageContentType == TYPE_MESSAGE_DICE &&
      !((getContent data).any fun entry => entry.1 == FINAL_STATE) }

def mediaAlbumId (message : MessageData) : Int := (message.messageData.value MEDIA_ALBUM_ID).toLongLong

/-- Sponsored messages are considered more than normal messages. -/
def lessThan (message1 message2 : MessageData) : Bool :=
  if message1.isSponsored != message2.isSponsored then !message1.isSponsored && message2.isSponsored
  else message1.messageId < message2.messageId

def moreThan (message1 message2 : MessageData) : Bool := !lessThan message1 message2

/-- `setContent`. -/
def setContent (message : MessageData) (content : QVariantMap) : MessageData :=
  { message with
    messageData := message.messageData.insert CONTENT (.map content)
    messageContentType := (content.value TYPE_).toStr }

/-- `setMessageData`; the object gets its interaction info written back. -/
def setMessageData (message : MessageData) (data : QVariantMap) : MessageData :=
  let info := (data.value INTERACTION_INFO).toMap
  { message with
    messageData := data.insert INTERACTION_INFO (.map info)
    isSponsored := isSponsoredMessage data
    messageContentType := ((getContent data).value TYPE_).toStr
    viewCount := (info.value VIEW_COUNT).toInt
    reactions := ((info.value REACTIONS).toMap.value REACTIONS).toList }

/-- `setIsPinned`. -/
def setIsPinned (message : MessageData) (isPinned : Bool) : MessageData :=
  { message with messageData := message.messageData.insert IS_PINNED (.bool isPinned) }

/-- The key under which the index map holds a row. -/
def key (message : MessageData) : Option Int := some message.messageId

/-- The part of a row that the album functions leave alone. -/
def body (message : MessageData) : MessageData :=
  { message with albumEntryFilter := false, albumMessageIds := [] }

@[simp] theorem create_messageId (data : QVariantMap) (msgid : Int) :
    (create data msgid).messageId = msgid := rfl

@[simp] theorem create_isSponsored (data : QVariantMap) (msgid : Int) :
    (create data msgid).isSponsored = isSponsoredMessage data := rfl

@[simp] theorem body_messageId (message : MessageData) : message.body.messageId = message.messageId := rfl

@[simp] theorem body_isSponsored (message : MessageData) : message.body.isSponsored = message.isSponsored := rfl

theorem key_eq_some {message : MessageData} {k : Int} : message.key = some k ↔ message.messageId = k :=
  Option.some_inj

end MessageData

/-- The id of a message object of TDLib. -/
def messageIdOf (message : QVariantMap) : Int := (message.value ID).toLongLong

/-- The chat id of a message object of TDLib. -/
def chatIdOf (message : QVariantMap) : Int := (message.value CHAT_ID).toLongLong

/-- A message object of TDLib with nothing but its ids. -/
def messageOf (chatId messageId : Int) : QVariantMap :=
  [(TYPE_, .string TYPE_MESSAGE), (ID, .longLong messageId), (CHAT_ID, .longLong chatId)]

inductive UpdateType where
  | updateInitial
  | updatePreviousSlice
  | updateNextSlice
  | updateReload
  deriving DecidableEq

inductive SearchMessagesFilter where
  | empty
  | photoAndVideo
  | animation
  | audio
  | chatPhoto
  | document
  | failedToSend
  | mention
  | photo
  | pinned
  | unreadMention
  | unreadReaction
  | url
  | video
  | videoNote
  | voiceAndVideoNote
  | voiceNote
  deriving DecidableEq

/-- The requests the message models send through the wrapper. -/
inductive Request where
  | getChatHistory (chatId : Int) (extra : UpdateType) (fromMessageId offset : Int)
  | searchChatMessages (chatId : Int) (query : String) (extra : UpdateType) (fromMessageId : Int)
      (filter : SearchMessagesFilter) (limit offset : Int)
  | getForumTopicHistory (chatId forumTopicId : Int) (extra : UpdateType) (fromMessageId offset : Int)
  | getChatMessageCount (chatId : Int) (filter : SearchMessagesFilter)
  | getChatSponsoredMessages (chatId : Int)
  | getMessage (chatId messageId : Int)
  | viewMessage (chatId messageId : Int)
  deriving DecidableEq

/-- What a handler does besides changing the members: it sends a request, runs `clear()` (which says so
by the signals it emits), or inserts the messages of a batch as rows. -/
inductive Output where
  | request (r : Request)
  | cleared
  | inserted (newMessages : List MessageData)

/-- The members of `MessagesModel` and `JumpableMessagesModel`, and those of the subclass. -/
structure MessagesModel (Own : Type) where
  chatId : Int
  messages : List MessageData
  messageIndexMap : QHash Int Nat
  albumMessageMap : QHash Int (List Int)
  waitingFor : UpdateType → Bool
  startReached : Bool
  endReached : Bool
  highlightedMessageId : Int
  own : Own

/-- The virtual functions, as the class of the object at hand overrides them. -/
class Virtuals (Own : Type) where
  appendMessages : MessagesModel Own → List MessageData → MessagesModel Own
  prependMessages : MessagesModel Own → List MessageData → MessagesModel Own
  processMessageData : MessagesModel Own → MessageData → MessageData
  reverseOrder : MessagesModel Own → Bool
  clearOwn : Own → Own
  canLoadMoreMessages : MessagesModel Own → Bool
  loadMessages : MessagesModel Own → UpdateType → Int → Int → List Output
  loadMoreHistoryImpl : MessagesModel Own → List Output
  loadMoreFutureImpl : MessagesModel Own → List Output
  loadHistoryForMessageImpl : MessagesModel Own → Int → List Output
  handlePrepareMessagesReceived : MessagesModel Own → Int → UpdateType → MessagesModel Own × List Output

namespace MessagesModel

variable {Own : Type}

/-- A model that was just constructed. -/
def initial (chatId : Int) (own : Own) : MessagesModel Own :=
  { chatId := chatId, messages := [], messageIndexMap := QHash.empty, albumMessageMap := QHash.empty,
    waitingFor := fun _ => false, startReached := false, endReached := false,
    highlightedMessageId := 0, own := own }

def setWaitingFor (m : MessagesModel Own) (t : UpdateType) (b : Bool) : MessagesModel Own :=
  { m with waitingFor := fun t' => if t' = t then b else m.waitingFor t' }

/-- `MessagesModel::clear`; nothing happens to a model without rows. -/
def clear (m : MessagesModel Own) : MessagesModel Own :=
  if m.messages.isEmpty then m
  else { m with messages := [], messageIndexMap := QHash.empty, albumMessageMap := QHash.empty }

/-! ### Albums -/

def setAlbumEntry (m : MessagesModel Own) (position : Nat) (isMain : Bool) (ids : List Int) :
    MessagesModel Own :=
  { m with messages := m.messages.modify position fun message =>
      { message with albumEntryFilter := !isMain, albumMessageIds := if isMain then ids else [] } }

/-- The loop over the ids of an album; the first one is its main entry. -/
def updateAlbumEntries (ids : List Int) : MessagesModel Own → List Int → Bool → MessagesModel Own
  | m, [], _ => m
  | m, id :: rest, isMain =>
      match m.messageIndexMap.value id with
      | some position => updateAlbumEntries ids (setAlbumEntry m position isMain ids) rest false
      | none => updateAlbumEntries ids m rest false

def updateAlbumMessages (m : MessagesModel Own) (albumId : Int) (checkDeleted : Bool) : MessagesModel Own :=
  match m.albumMessageMap.value albumId with
  | none => m
  | some albumIds =>
      let sorted := albumIds.insertionSort (· ≤ ·)
      let messageIds := if checkDeleted then sorted.filter m.messageIndexMap.contains else sorted
      let m := if messageIds.isEmpty then { m with albumMessageMap := m.albumMessageMap.remove albumId }
        else updateAlbumEntries messageIds m messageIds true
      { m with albumMessageMap := m.albumMessageMap.insert albumId messageIds }

/-- `setMessagesAlbum` for one message. -/
def setMessageAlbum (m : MessagesModel Own) (message : MessageData) : MessagesModel Own :=
  let albumId := message.mediaAlbumId
  if albumId = 0 then m
  else
    let messageIds := match m.albumMessageMap.value albumId with
      | some messageIds =>
          if message.messageId ∈ messageIds then messageIds else messageIds ++ [message.messageId]
      | none => [message.messageId]
    updateAlbumMessages { m with albumMessageMap := m.albumMessageMap.insert albumId messageIds } albumId false

def setMessagesAlbum (m : MessagesModel Own) (newMessages : List MessageData) : MessagesModel Own :=
  newMessages.foldl setMessageAlbum m

/-! ### Inserting and removing rows -/

def removeRange (m : MessagesModel Own) (firstDeleted lastDeleted : Nat) : MessagesModel Own :=
  if firstDeleted ≤ lastDeleted then
    let removed := (m.messages.drop firstDeleted).take (lastDeleted + 1 - firstDeleted)
    let rescanAlbumIds := (removed.map MessageData.mediaAlbumId).filter fun albumId =>
      albumId != 0 && m.albumMessageMap.contains albumId
    let messages := eraseRange m.messages firstDeleted lastDeleted
    let m := { m with
      messages := messages
      messageIndexMap := reindex MessageData.key (messages.drop firstDeleted) firstDeleted
        (m.messageIndexMap.removeAll (removed.map MessageData.messageId)) }
    rescanAlbumIds.foldl (fun m albumId => updateAlbumMessages m albumId true) m
  else m

/-- The loop of `insertMessagesAt`: each message goes behind the one before it. -/
def insertLoop : MessagesModel Own → Int → List MessageData → MessagesModel Own
  | m, _, [] => m
  | m, i, message :: rest =>
      insertLoop { m with
        messages := insertAt m.messages i message
        messageIndexMap := m.messageIndexMap.insert message.messageId i.toNat } (i + 1) rest

def insertMessagesAt (m : MessagesModel Own) (insertIndex : Int) (newMessages : List MessageData) :
    MessagesModel Own :=
  let m := insertLoop m insertIndex newMessages
  -- the rest of the map has been damaged too
  let i := (insertIndex + newMessages.length).toNat
  { m with messageIndexMap := reindex MessageData.key (m.messages.drop i) i m.messageIndexMap }

def appendMessages (m : MessagesModel Own) (newMessages : List MessageData) : MessagesModel Own :=
  { m with
    messages := m.messages ++ newMessages
    messageIndexMap := reindex MessageData.key newMessages m.messages.length m.messageIndexMap }

def prependMessages (m : MessagesModel Own) (newMessages : List MessageData) : MessagesModel Own :=
  { m with
    messages := newMessages ++ m.messages
    -- the loop over the new rows, then the loop over the rest of the map
    messageIndexMap := reindex MessageData.key m.messages newMessages.length
      (reindex MessageData.key newMessages 0 m.messageIndexMap) }

/-- The id of the last row that is not sponsored, or -1. -/
def lastKnownId (m : MessagesModel Own) : Int :=
  match m.messages.reverse.find? fun message => !message.isSponsored with
  | some message => message.messageId
  | none => -1

/-- `removeMessage` takes the row and its key out; the rest of the map stays as it is. -/
def removeMessage (m : MessagesModel Own) (messageId : Int) : MessagesModel Own :=
  match m.messageIndexMap.value messageId with
  | none => m
  | some index => { m with
      messages := m.messages.eraseIdx index
      messageIndexMap := m.messageIndexMap.remove messageId }

/-- The loop of `handleMessagesDeleted` over the ids in the order it visits them, with the positions
of the range collected so far; `count`, the length of the id list, stands for a position not set yet. -/
def deleteLoop (count : Nat) : MessagesModel Own → List Int → Nat → Nat → MessagesModel Own × Nat × Nat
  | m, [], firstPosition, lastPosition => (m, firstPosition, lastPosition)
  | m, id :: rest, firstPosition, lastPosition =>
      match m.messageIndexMap.value id with
      | none => deleteLoop count m rest firstPosition lastPosition
      | some position =>
          let lastPosition := if lastPosition = count then position else lastPosition
          let firstPosition := if firstPosition = count then position else firstPosition
          if position + 1 < firstPosition then
            -- some gap in between, the previous range goes first
            deleteLoop count (removeRange m firstPosition lastPosition) rest position position
          else deleteLoop count m rest position lastPosition

/-- The deletion of ids in the order they are visited, with the range left at the end. -/
def deleteMessages (m : MessagesModel Own) (messageIds : List Int) : MessagesModel Own :=
  let count := messageIds.length
  let (m, firstPosition, lastPosition) := deleteLoop count m messageIds count count
  if firstPosition ≠ count ∧ lastPosition ≠ count then removeRange m firstPosition lastPosition else m

/-- `MessagesModel::handleMessagesDeleted` visits the list from its end. -/
def handleMessagesDeleted (m : MessagesModel Own) (chatId : Int) (messageIds : List Int) :
    MessagesModel Own :=
  if chatId = m.chatId then deleteMessages m messageIds.reverse else m

/-! ### Updates of single messages -/

/-- `handleMessageFieldUpdated`, for an updater that always changes a role; the result is the row the
update applied to. -/
def handleMessageFieldUpdated (m : MessagesModel Own) (chatId messageId : Int)
    (updater : MessageData → MessageData) : MessagesModel Own × Option MessageData :=
  if m.chatId = chatId then
    match m.messageIndexMap.value messageId with
    | none => (m, none)
    | some pos => ({ m with messages := m.messages.modify pos updater }, (m.messages[pos]?).map updater)
  else (m, none)

/-- `handleMessageReceived`: a message that is loaded is updated. -/
def handleMessageReceived (m : MessagesModel Own) (chatId messageId : Int) (message : QVariantMap) :
    MessagesModel Own :=
  if chatId = m.chatId then
    match m.messageIndexMap.value messageId with
    | some position => { m with messages := m.messages.modify position fun row => row.setMessageData message }
    | none => m
  else m

def handleMessageContentUpdated (m : MessagesModel Own) (chatId messageId : Int) (newContent : QVariantMap) :
    MessagesModel Own × Option MessageData :=
  handleMessageFieldUpdated m chatId messageId fun message => message.setContent newContent

def handleMessageIsPinnedUpdated (m : MessagesModel Own) (chatId messageId : Int) (isPinned : Bool) :
    MessagesModel Own :=
  (handleMessageFieldUpdated m chatId messageId fun message => message.setIsPinned isPinned).1

section Virtual

variable [Virtuals Own]

def insertMessages (m : MessagesModel Own) (newMessages : List MessageData) : MessagesModel Own :=
  if m.messages.isEmpty then Virtuals.appendMessages m newMessages
  else
    match newMessages with
    | [] => m
    | first :: _ =>
        -- there is only an append or a prepend
        if m.lastKnownId < first.messageId then Virtuals.appendMessages m newMessages
        else Virtuals.prependMessages m newMessages

/-- The messages of a batch that become rows: those of this chat that are not loaded yet. -/
def freshMessages (m : MessagesModel Own) (messages : List QVariantMap) : List MessageData :=
  messages.filterMap fun messageData =>
    let messageId := messageIdOf messageData
    if messageId ≠ 0 ∧ chatIdOf messageData = m.chatId ∧ m.messageIndexMap.contains messageId = false then
      some (Virtuals.processMessageData m (MessageData.create messageData messageId))
    else none

/-- `std::sort` by `lessThan`, or by `moreThan` in reverse order. -/
def sortMessages (reverseOrder : Bool) (newMessages : List MessageData) : List MessageData :=
  if reverseOrder then newMessages.insertionSort fun a b => MessageData.moreThan b a = false
  else newMessages.insertionSort fun a b => MessageData.lessThan b a = false

/-- The model after a batch, the new rows, and whether more messages have to be loaded. -/
def handleInsertMessages (m : MessagesModel Own) (messages : List QVariantMap) :
    MessagesModel Own × List MessageData × Bool :=
  let newMessagesList := sortMessages (Virtuals.reverseOrder m) (freshMessages m messages)
  let m := if newMessagesList.isEmpty then m
    else setMessagesAlbum (insertMessages m newMessagesList) newMessagesList
  (m, newMessagesList, !newMessagesList.isEmpty && newMessagesList.length + messages.length < 10)

def handleMessageSendSucceeded (m : MessagesModel Own) (chatId oldMessageId messageId : Int)
    (message : QVariantMap) : MessagesModel Own × List Output :=
  if m.chatId = chatId then
    match m.messageIndexMap.value oldMessageId with
    | none => (m, [])
    | some pos =>
        let newMessage := { Virtuals.processMessageData m (MessageData.create message messageId) with
          generatedContentUnread := true }
        let m := { m with
          messages := m.messages.set pos newMessage
          messageIndexMap := (m.messageIndexMap.remove oldMessageId).insert messageId pos }
        let newPos := m.messages.length - 1
        let m :=
          if pos < newPos then
            let messages := move m.messages pos newPos
            { m with
              messages := messages
              messageIndexMap := reindex MessageData.key
                ((messages.drop pos).take (newPos + 1 - pos)) pos m.messageIndexMap }
          else m
        (m, [.request (.viewMessage m.chatId messageId)])
  else (m, [])

end Virtual

end MessagesModel

end YaqtLib
