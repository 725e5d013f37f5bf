import YaqtLib.MessagesModel

/-! Loading slices of the history around the rows (`chat/jumpablemessagesmodel.cpp`). -/

namespace YaqtLib

open Containers IndexMap

namespace JumpableMessagesModel

variable {Own : Type} [Virtuals Own]

/-- `clear()` of the object at hand: the rows go, and every flag is reset. -/
def clear (m : MessagesModel Own) : MessagesModel Own × List Output :=
  ({ m.clear with
      waitingFor := fun _ => false
      startReached := false
      endReached := false
      highlightedMessageId := 0
      own := Virtuals.clearOwn m.own }, [.cleared])

/-- An empty model with both ends reached is not loading: the chat is empty. -/
def loading (m : MessagesModel Own) : Bool := m.messages.isEmpty && !m.endReached && !m.startReached

def waitingForSlice (m : MessagesModel Own) : Bool :=
  m.waitingFor .updatePreviousSlice || m.waitingFor .updateNextSlice

def loadMoreHistory (m : MessagesModel Own) : MessagesModel Own × List Output :=
  if !m.startReached && !m.waitingFor .updatePreviousSlice && !m.messages.isEmpty then
    let m := m.setWaitingFor .updatePreviousSlice true
    (m, Virtuals.loadMoreHistoryImpl m)
  else (m, [])

def loadMoreFuture (m : MessagesModel Own) : MessagesModel Own × List Output :=
  if Virtuals.canLoadMoreMessages m && !m.endReached && !m.waitingFor .updateNextSlice &&
      !m.messages.isEmpty then
    let m := m.setWaitingFor .updateNextSlice true
    (m, Virtuals.loadMoreFutureImpl m)
  else (m, [])

def loadHistoryForMessage (m : MessagesModel Own) (messageId : Int) : MessagesModel Own × List Output :=
  if !waitingForSlice m && !m.messages.isEmpty then
    let (m, cleared) := clear m
    let m := { m with highlightedMessageId := messageId }
    (m, cleared ++ Virtuals.loadHistoryForMessageImpl m messageId)
  else (m, [])

/-- `JumpableMessagesModel::handlePrepareMessagesReceived`. -/
def handlePrepareMessagesReceived (m : MessagesModel Own) (totalCount : Int) (fromUpdate : UpdateType) :
    MessagesModel Own :=
  if totalCount = 0 then
    match fromUpdate with
    | .updateNextSlice => { m with endReached := true }
    | .updatePreviousSlice => { m with startReached := true }
    -- no messages in the chat
    | .updateInitial => { m with startReached := true, endReached := true }
    | .updateReload => m
  else m

def notifyMessagesLoaded (m : MessagesModel Own) (fromUpdate : UpdateType) (totalCount : Int) :
    MessagesModel Own × List Output :=
  Virtuals.handlePrepareMessagesReceived (m.setWaitingFor fromUpdate false) totalCount fromUpdate

/-- What follows the insertion of a batch: a first answer of only a few messages asks for more. -/
def afterInsertion (m : MessagesModel Own) (addedMessages : List MessageData) (reloadNeeded : Bool)
    (fromUpdate : UpdateType) (totalCount : Int) : MessagesModel Own × List Output :=
  match addedMessages with
  | first :: _ =>
      if reloadNeeded ∧ fromUpdate ≠ .updateReload then
        let m := m.setWaitingFor .updateReload true
        (m, Virtuals.loadMessages m .updateReload first.messageId 0)
      else notifyMessagesLoaded m fromUpdate totalCount
  | [] => notifyMessagesLoaded m fromUpdate totalCount

def insertionOutput (addedMessages : List MessageData) : List Output :=
  if addedMessages.isEmpty then [] else [.inserted addedMessages]

def handleMessagesReceived (m : MessagesModel Own) (fromUpdate : UpdateType) (messages : List QVariantMap)
    (totalCount : Int) : MessagesModel Own × List Output :=
  let (m, outputs) :=
    if messages.isEmpty then notifyMessagesLoaded m fromUpdate totalCount
    else if m.waitingFor fromUpdate || m.messages.isEmpty then
      let (m, addedMessages, reloadNeeded) := m.handleInsertMessages messages
      let (m, outputs) := afterInsertion m addedMessages reloadNeeded fromUpdate totalCount
      (m, insertionOutput addedMessages ++ outputs)
    else (m, []) -- new messages, but not relevant
  (m.setWaitingFor fromUpdate false, outputs)

/-- `insertMessageInOrder`: past an end the message is taken only if that end is reached. The newest row
is the last one, or the first one of an inverted model. -/
def insertMessageInOrder (m : MessagesModel Own) (messageId : Int) (message : QVariantMap) (inverted : Bool) :
    MessagesModel Own :=
  let data := MessageData.create message messageId
  let newest := if inverted then m.messages.head? else m.messages.getLast?
  let oldest := if inverted then m.messages.getLast? else m.messages.head?
  match newest, oldest with
  | some newest, some oldest =>
      if newest.messageId < messageId then
        if m.endReached then Virtuals.appendMessages m [data] else m
      else if messageId < oldest.messageId then
        if m.startReached then Virtuals.prependMessages m [data] else m
      else
        match m.messages.findIdx? fun row =>
            if inverted then row.messageId < messageId else messageId < row.messageId with
        | some i => m.insertMessagesAt i [data]
        | none => m
  | _, _ => if m.endReached && m.startReached then Virtuals.appendMessages m [data] else m

end JumpableMessagesModel

end YaqtLib
