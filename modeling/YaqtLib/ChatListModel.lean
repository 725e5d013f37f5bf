import YaqtLib.IndexMap
import YaqtLib.QVariant

/-! A chat list (`chatlistmodel.cpp`): rows sorted by the order of the chats in the list, with an index map
from the chat ids to the rows. -/

namespace YaqtLib

open Containers IndexMap

/-- A pointer to a `ChatData` object: the object it points to, and the chat id that object was made with. -/
structure ChatPointer where
  object : Nat
  chatId : Int
  deriving DecidableEq

structure ListChatData where
  data : ChatPointer
  order : Int
  isPinned : Bool
  deriving DecidableEq

namespace ListChatData

/-- The chat id of the row. -/
def chatId (chat : ListChatData) : Int := chat.data.chatId

def compareTo (chat other : ListChatData) : Int :=
  if chat.order = other.order then (if chat.chatId < other.chatId then 1 else -1)
  -- this puts the most recent ones to the top of the list
  else if chat.order < other.order then 1 else -1

/-- The key under which the index map holds a row. -/
def key (chat : ListChatData) : Option Int := some chat.chatId

end ListChatData

structure ChatListModel where
  chatList : List ListChatData
  chatIndexMap : QHash Int Nat

namespace ChatListModel

def new : ChatListModel := { chatList := [], chatIndexMap := QHash.empty }

def reset (_ : ChatListModel) : ChatListModel := new

/-- The index the chat moves to: up past the rows it goes before, or, if it stays, down past the rows that
go before it. -/
def newIndexOf (chatList : List ListChatData) (chat : ListChatData) (chatIndex : Nat) : Nat :=
  let newIndex := chatIndex -
    ((chatList.take chatIndex).reverse.takeWhile fun other => chat.compareTo other < 0).length
  if newIndex = chatIndex then
    chatIndex + ((chatList.drop (chatIndex + 1)).takeWhile fun other => 0 < chat.compareTo other).length
  else newIndex

/-- `updateChatOrder` of the row at `chatIndex`. -/
def updateChatOrder (m : ChatListModel) (chat : ListChatData) (chatIndex : Nat) : ChatListModel × Nat :=
  let newIndex := newIndexOf m.chatList chat chatIndex
  if newIndex = chatIndex then (m, newIndex)
  else
    let chatList := move m.chatList chatIndex newIndex
    let chatIndexMap := m.chatIndexMap.insert chat.chatId newIndex
    -- update the damaged part of the map
    ({ chatList := chatList
       chatIndexMap :=
        if newIndex < chatIndex then
          reindex ListChatData.key ((chatList.drop (newIndex + 1)).take (chatIndex - newIndex)) (newIndex + 1)
            chatIndexMap
        else
          reindex ListChatData.key ((chatList.drop chatIndex).take (newIndex - chatIndex)) chatIndex
            chatIndexMap }, newIndex)

def updateChatIsPinned (m : ChatListModel) (chatIndex : Nat) (isPinned : Bool) : ChatListModel :=
  { m with chatList := m.chatList.modify chatIndex fun chat => { chat with isPinned := isPinned } }

def handleChatAddedToList (m : ChatListModel) (chatData : ChatPointer) (order : Int) (isPinned : Bool) :
    ChatListModel :=
  let chat : ListChatData := { data := chatData, order := order, isPinned := isPinned }
  let pos := (m.chatList.takeWhile fun other => 0 ≤ chat.compareTo other).length
  let chatList := m.chatList.insertIdx pos chat
  { chatList := chatList
    -- the rows behind the new one are the damaged part of the map
    chatIndexMap := reindex ListChatData.key (chatList.drop (pos + 1)) (pos + 1)
      (m.chatIndexMap.insert chat.chatId pos) }

def handleChatRemovedFromList (m : ChatListModel) (chatId : Int) : ChatListModel :=
  match m.chatIndexMap.value chatId with
  | none => m
  | some i =>
      let chatList := m.chatList.eraseIdx i
      { chatList := chatList
        chatIndexMap := reindex ListChatData.key (chatList.drop i) i (m.chatIndexMap.remove chatId) }

def handleChatPositionUpdated (m : ChatListModel) (chatId order : Int) (isPinned : Bool) : ChatListModel :=
  match m.chatIndexMap.value chatId with
  | none => m
  | some chatIndex =>
      match m.chatList[chatIndex]? with
      | none => m
      | some chat =>
          let chat := { chat with order := order }
          let m := { m with chatList := m.chatList.set chatIndex chat }
          let (m, newIndex) := updateChatOrder m chat chatIndex
          updateChatIsPinned m newIndex isPinned

inductive Event where
  | chatAddedToList (chatData : ChatPointer) (order : Int) (isPinned : Bool)
  | chatRemovedFromList (chatId : Int)
  | chatPositionUpdated (chatId order : Int) (isPinned : Bool)
  | reset

/-- The state after one event. -/
def step (m : ChatListModel) : Event → ChatListModel
  | .chatAddedToList chatData order isPinned => handleChatAddedToList m chatData order isPinned
  | .chatRemovedFromList chatId => handleChatRemovedFromList m chatId
  | .chatPositionUpdated chatId order isPinned => handleChatPositionUpdated m chatId order isPinned
  | .reset => m.reset

end ChatListModel

end YaqtLib
