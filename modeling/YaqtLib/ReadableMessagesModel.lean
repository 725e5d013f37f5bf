import YaqtLib.JumpableMessagesModel

/-! The live tail of a conversation (`chat/readablemessagesmodel.cpp`): slices are requested next to the
rows, and new messages are taken once the end is reached. -/

namespace YaqtLib

open Containers IndexMap TdConst

/-- The pure virtual functions of `ReadableMessagesModel`, and its own member. -/
class ReadableVirtuals (Own : Type) where
  lastReadInboxMessageId : MessagesModel Own → Int
  lastReadOutboxMessageId : MessagesModel Own → Int
  lastMessageId : MessagesModel Own → Int
  setLoadingFullEnd : Own → Bool → Own

namespace ReadableMessagesModel

section Impl

variable {Own : Type} [ReadableVirtuals Own]

/-- `processMessageData`: generated content of an unread message is unread. -/
def processMessageData (m : MessagesModel Own) (message : MessageData) : MessageData :=
  if ReadableVirtuals.lastReadInboxMessageId m < message.messageId then
    { message with generatedContentUnread := true }
  else message

def handlePrepareMessagesReceived (m : MessagesModel Own) (totalCount : Int) (fromUpdate : UpdateType) :
    MessagesModel Own :=
  let m := if m.messageIndexMap.contains (ReadableVirtuals.lastMessageId m) then { m with endReached := true }
    else m
  JumpableMessagesModel.handlePrepareMessagesReceived m totalCount fromUpdate

/-- `messages.first()->messageId`; the callers have rows. -/
def firstMessageId (m : MessagesModel Own) : Int := (m.messages.head?.map MessageData.messageId).getD 0

/-- `messages.last()->messageId`; the callers have rows. -/
def lastRowMessageId (m : MessagesModel Own) : Int := (m.messages.getLast?.map MessageData.messageId).getD 0

end Impl

section Virtual

variable {Own : Type} [Virtuals Own] [ReadableVirtuals Own]

def handleNewMessageReceived (m : MessagesModel Own) (message : QVariantMap) : MessagesModel Own :=
  let messageId := messageIdOf message
  if m.messageIndexMap.contains messageId then m
  else if Virtuals.canLoadMoreMessages m && m.endReached then
    let data := Virtuals.processMessageData m (MessageData.create message messageId)
    (m.insertMessages [data]).setMessagesAlbum [data]
  -- not relevant, as less recent messages need to be loaded first
  else m

def loadEnd (m : MessagesModel Own) (markAllAsRead : Bool) : MessagesModel Own × List Output :=
  if !JumpableMessagesModel.waitingForSlice m && !m.waitingFor .updateReload && !m.messages.isEmpty then
    let m := { m with own := ReadableVirtuals.setLoadingFullEnd m.own markAllAsRead }
    let (m, cleared) := JumpableMessagesModel.clear m
    (m, cleared ++ Virtuals.loadMessages m .updateInitial
      (if markAllAsRead then 0 else ReadableVirtuals.lastReadOutboxMessageId m) (-1))
  else (m, [])

end Virtual

end ReadableMessagesModel

end YaqtLib
