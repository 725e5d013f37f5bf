import YaqtLib.MessageRows
import YaqtLib.Views

/-! What the readable models announce to their views: the functions of `chat/messagesmodel.cpp` and
`chat/readablemessagesmodel.cpp` that change rows, with the signals they emit, each with the ids the rows have when
it is emitted. There are no sponsored rows here. -/

namespace YaqtLib

open Containers IndexMap Views

/-- The roles of a message row. -/
inductive MessageRole where
  | display
  | messageId
  | isSponsored
  | messageContentType
  | messageViewCount
  | messageReactions
  | messageAlbumEntryFilter
  | messageAlbumId
  | messageAlbumMessageIds
  | messageAlbumMessages
  | generatedContentUnread
  | isFirstInSequence
  | isLastInSequence
  deriving DecidableEq

namespace MessageData

/-- `diff` with the object that is replaced. -/
def diff (message old : MessageData) : List MessageRole :=
  [.display] ++
    (if old.messageId ≠ message.messageId then [.messageId] else []) ++
    (if old.isSponsored ≠ message.isSponsored then [.isSponsored] else []) ++
    (if old.messageContentType ≠ message.messageContentType then [.messageContentType] else []) ++
    (if old.viewCount ≠ message.viewCount then [.messageViewCount] else []) ++
    (if old.reactions ≠ message.reactions then [.messageReactions] else []) ++
    (if old.albumEntryFilter ≠ message.albumEntryFilter then [.messageAlbumEntryFilter] else []) ++
    (if old.albumMessageIds ≠ message.albumMessageIds then [.messageAlbumMessageIds, .messageAlbumMessages] else []) ++
    (if old.generatedContentUnread ≠ message.generatedContentUnread then [.generatedContentUnread] else [])

/-- The roles `setAlbumEntryFilter` and `setAlbumEntryMessageIds` report, those that change. -/
def albumEntryRoles (message : MessageData) (isMain : Bool) (albumIds : List Int) : List MessageRole :=
  (if !isMain = message.albumEntryFilter then [] else [.messageAlbumEntryFilter]) ++
    (if (if isMain then albumIds else []) = message.albumMessageIds then []
      else [.messageAlbumMessageIds, .messageAlbumMessages])

end MessageData

abbrev RowSignal := Views.Signal Int MessageRole

namespace MessagesModel

variable {Own : Type}

/-- A signal that is emitted when the rows are those of `m`. -/
def signal (m : MessagesModel Own) (change : Change MessageRole) : RowSignal := ⟨change, m.ids⟩

/-- `QAbstractListModel::index`, none for an index without a row. -/
def index (m : MessagesModel Own) (row : Nat) : Option Nat := if row < m.messages.length then some row else none

/-- The signal that the roles of a row changed. -/
def dataChanged (m : MessagesModel Own) (row : Nat) (roles : List MessageRole) : RowSignal :=
  m.signal (.dataChanged (m.index row) roles)

/-- `MessagesModel::clear`; no rows are left. -/
def clearSignals (m : MessagesModel Own) : List RowSignal :=
  if m.messages.isEmpty then [] else [⟨.modelReset, []⟩]

/-! ### Albums -/

/-- `updateAlbumMessages`, the loop over the ids of the album. -/
def updateAlbumEntriesSignals (albumIds : List Int) : MessagesModel Own → List Int → Bool → List RowSignal
  | _, [], _ => []
  | m, id :: rest, isMain =>
      match m.messageIndexMap.value id with
      | some position =>
          (setAlbumEntry m position isMain albumIds).dataChanged position
              ((m.messages[position]?.map fun message => message.albumEntryRoles isMain albumIds).getD []) ::
            updateAlbumEntriesSignals albumIds (setAlbumEntry m position isMain albumIds) rest false
      | none => updateAlbumEntriesSignals albumIds m rest false

def updateAlbumMessagesSignals (m : MessagesModel Own) (albumId : Int) (checkDeleted : Bool) : List RowSignal :=
  match m.albumMessageMap.value albumId with
  | none => []
  | some albumIds =>
      let sorted := albumIds.insertionSort (· ≤ ·)
      let messageIds := if checkDeleted then sorted.filter m.messageIndexMap.contains else sorted
      if messageIds.isEmpty then [] else updateAlbumEntriesSignals messageIds m messageIds true

/-- `setMessagesAlbum` for one message. -/
def setMessageAlbumSignals (m : MessagesModel Own) (message : MessageData) : List RowSignal :=
  let albumId := message.mediaAlbumId
  if albumId = 0 then []
  else
    let messageIds := match m.albumMessageMap.value albumId with
      | some messageIds =>
          if message.messageId ∈ messageIds then messageIds else messageIds ++ [message.messageId]
      | none => [message.messageId]
    updateAlbumMessagesSignals { m with albumMessageMap := m.albumMessageMap.insert albumId messageIds } albumId false

def setMessagesAlbumSignals (m : MessagesModel Own) (newMessages : List MessageData) : List RowSignal :=
  announced setMessageAlbum setMessageAlbumSignals m newMessages

/-! ### Inserting and removing rows -/

/-- `ReadableMessagesModel::appendMessages` -/
def appendMessagesSignals (m : MessagesModel Own) (newMessages : List MessageData) : List RowSignal :=
  let oldSize := m.messages.length
  let m := m.appendMessages newMessages
  [m.signal (.rowsInserted oldSize (oldSize + newMessages.length - 1))] ++
    if 0 < oldSize then [m.dataChanged (oldSize - 1) [.isLastInSequence]] else []

/-- `ReadableMessagesModel::prependMessages` -/
def prependMessagesSignals (m : MessagesModel Own) (newMessages : List MessageData) : List RowSignal :=
  let wasEmpty := m.messages.isEmpty
  let m := m.prependMessages newMessages
  [m.signal (.rowsInserted 0 (newMessages.length - 1))] ++
    if !wasEmpty then [m.dataChanged newMessages.length [.isFirstInSequence]] else []

/-- The rows of a range leave; `MessagesModel::removeRange` without what it does to the albums. -/
def eraseRows (m : MessagesModel Own) (firstDeleted lastDeleted : Nat) : MessagesModel Own :=
  let removed := (m.messages.drop firstDeleted).take (lastDeleted + 1 - firstDeleted)
  let messages := eraseRange m.messages firstDeleted lastDeleted
  { m with
    messages := messages
    messageIndexMap := reindex MessageData.key (messages.drop firstDeleted) firstDeleted
      (m.messageIndexMap.removeAll (removed.map MessageData.messageId)) }

/-- The albums of the rows of a range. -/
def rescanAlbumIds (m : MessagesModel Own) (firstDeleted lastDeleted : Nat) : List Int :=
  (((m.messages.drop firstDeleted).take (lastDeleted + 1 - firstDeleted)).map MessageData.mediaAlbumId).filter
    fun albumId => albumId != 0 && m.albumMessageMap.contains albumId

/-- `ReadableMessagesModel::removeRange` -/
def removeRangeSignals (m : MessagesModel Own) (firstDeleted lastDeleted : Nat) : List RowSignal :=
  if firstDeleted ≤ lastDeleted then
    let erased := m.eraseRows firstDeleted lastDeleted
    let updated := m.removeRange firstDeleted lastDeleted
    [erased.signal (.rowsRemoved firstDeleted lastDeleted)] ++
      announced (fun m albumId => updateAlbumMessages m albumId true)
        (fun m albumId => updateAlbumMessagesSignals m albumId true) erased
        (m.rescanAlbumIds firstDeleted lastDeleted) ++
      (if 0 < firstDeleted then [updated.dataChanged (firstDeleted - 1) [.isLastInSequence]] else []) ++
      (if 0 < updated.messages.length then [updated.dataChanged firstDeleted [.isFirstInSequence]] else [])
  else []

/-- `handleMessagesDeleted`, the loop over the ids. -/
def deleteLoopSignals (count : Nat) : MessagesModel Own → List Int → Nat → Nat → List RowSignal
  | _, [], _, _ => []
  | m, id :: rest, firstPosition, lastPosition =>
      match m.messageIndexMap.value id with
      | none => deleteLoopSignals count m rest firstPosition lastPosition
      | some position =>
          let lastPosition := if lastPosition = count then position else lastPosition
          let firstPosition := if firstPosition = count then position else firstPosition
          if position + 1 < firstPosition then
            m.removeRangeSignals firstPosition lastPosition ++
              deleteLoopSignals count (removeRange m firstPosition lastPosition) rest position position
          else deleteLoopSignals count m rest position lastPosition

def deleteMessagesSignals (m : MessagesModel Own) (messageIds : List Int) : List RowSignal :=
  let count := messageIds.length
  let (m', firstPosition, lastPosition) := deleteLoop count m messageIds count count
  deleteLoopSignals count m messageIds count count ++
    if firstPosition ≠ count ∧ lastPosition ≠ count then m'.removeRangeSignals firstPosition lastPosition else []

def handleMessagesDeletedSignals (m : MessagesModel Own) (chatId : Int) (messageIds : List Int) : List RowSignal :=
  if chatId = m.chatId then m.deleteMessagesSignals messageIds.reverse else []

section Virtual

variable [Virtuals Own]

def insertMessagesSignals (m : MessagesModel Own) (newMessages : List MessageData) : List RowSignal :=
  if m.messages.isEmpty then m.appendMessagesSignals newMessages
  else
    match newMessages with
    | [] => []
    | first :: _ =>
        if m.lastKnownId < first.messageId then m.appendMessagesSignals newMessages
        else m.prependMessagesSignals newMessages

/-- `handleInsertMessages`; without new rows nothing is announced. -/
def handleInsertMessagesSignals (m : MessagesModel Own) (messages : List QVariantMap) : List RowSignal :=
  let newMessages := m.addedMessages messages
  if newMessages.isEmpty then []
  else m.insertMessagesSignals newMessages ++ setMessagesAlbumSignals (m.insertMessages newMessages) newMessages

/-- The replacement of a row, and its move to the end. -/
def handleMessageSendSucceededSignals (m : MessagesModel Own) (chatId oldMessageId messageId : Int)
    (message : QVariantMap) : List RowSignal :=
  if m.chatId = chatId then
    match m.messageIndexMap.value oldMessageId with
    | none => []
    | some pos =>
        let newMessage := m.sentMessage messageId message
        let replaced := { m with messages := m.messages.set pos newMessage }
        let newPos := m.messages.length - 1
        [replaced.dataChanged pos ((m.messages[pos]?.map newMessage.diff).getD [])] ++
          if pos < newPos then
            [(m.handleMessageSendSucceeded chatId oldMessageId messageId message).1.signal
              (.rowMoved pos (newPos + 1))]
          else []
  else []

end Virtual

end MessagesModel

/-- `ReadableMessagesModel::handleNewMessageReceived` -/
def ReadableMessagesModel.handleNewMessageReceivedSignals {Own : Type} [Virtuals Own] (m : MessagesModel Own)
    (message : QVariantMap) : List RowSignal :=
  let messageId := messageIdOf message
  if m.messageIndexMap.contains messageId then []
  else if Virtuals.canLoadMoreMessages m && m.endReached then
    let data := Virtuals.processMessageData m (MessageData.create message messageId)
    m.insertMessagesSignals [data] ++ (m.insertMessages [data]).setMessagesAlbumSignals [data]
  else []

namespace JumpableMessagesModel

variable {Own : Type} [Virtuals Own]

def handleMessagesReceivedSignals (m : MessagesModel Own) (fromUpdate : UpdateType) (messages : List QVariantMap) :
    List RowSignal :=
  if messages.isEmpty then []
  else if m.waitingFor fromUpdate || m.messages.isEmpty then m.handleInsertMessagesSignals messages
  else []

def loadHistoryForMessageSignals (m : MessagesModel Own) : List RowSignal :=
  if !waitingForSlice m && !m.messages.isEmpty then m.clearSignals else []

end JumpableMessagesModel

/-- `ReadableMessagesModel::loadEnd` -/
def ReadableMessagesModel.loadEndSignals {Own : Type} (m : MessagesModel Own) : List RowSignal :=
  if !JumpableMessagesModel.waitingForSlice m && !m.waitingFor .updateReload && !m.messages.isEmpty then
    m.clearSignals
  else []

end YaqtLib
