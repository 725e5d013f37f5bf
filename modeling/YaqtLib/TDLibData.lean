import YaqtLib.ChatFoldersModel

/-! The store of the chats (`tdlibdata.cpp`) and its signals to the chat lists. A chat is an object of its own:
the store and the rows of the lists hold pointers to it, and a new object differs from all before it. -/

namespace YaqtLib

open Containers TdConst

/-- The chat lists: the main list, the archive, and a list for each folder. -/
inductive ChatList where
  | main
  | archive
  | folder (folderId : Int)
  deriving DecidableEq

/-- The list a `ChatList` object stands for. -/
def chatListOf (chatList : QVariantMap) : Option ChatList :=
  let chatListType := (chatList.value TYPE_).toStr
  if chatListType = TYPE_CHAT_LIST_MAIN then some .main
  else if chatListType = TYPE_CHAT_LIST_ARCHIVE then some .archive
  else if chatListType = TYPE_CHAT_LIST_FOLDER then some (.folder (chatList.value CHAT_FOLDER_ID).toInt)
  else none

/-- The first position of the list that satisfies `p`, or the empty map. -/
def findPosition (p : QVariantMap → Bool) (positions : QVariantList) : QVariantMap :=
  ((positions.map QVariant.toMap).find? p).getD []

def findChatPosition (positions : QVariantList) (archive : Bool) : QVariantMap :=
  findPosition (fun position =>
    (position.value TYPE_).toStr = TYPE_CHAT_POSITION &&
    ((position.value LIST).toMap.value TYPE_).toStr =
      (if archive then TYPE_CHAT_LIST_ARCHIVE else TYPE_CHAT_LIST_MAIN)) positions

def findChatPositionForFolder (positions : QVariantList) (folderId : Int) : QVariantMap :=
  findPosition (fun position =>
    let chatList := (position.value LIST).toMap
    (position.value TYPE_).toStr = TYPE_CHAT_POSITION && ((chatList.value TYPE_).toStr = TYPE_CHAT_LIST_FOLDER &&
      (chatList.value CHAT_FOLDER_ID).toInt = folderId)) positions

/-- The position a chat has in a list. -/
def positionIn (positions : QVariantList) : ChatList → QVariantMap
  | .main => findChatPosition positions false
  | .archive => findChatPosition positions true
  | .folder folderId => findChatPositionForFolder positions folderId

/-- Order and pin of a position. -/
def orderOf (position : QVariantMap) : Int := (position.value ORDER).toLongLong

def isPinnedOf (position : QVariantMap) : Bool := (position.value IS_PINNED).toBool

structure ChatData where
  object : Nat
  chatId : Int
  chatData : QVariantMap

def ChatData.pointer (chat : ChatData) : ChatPointer := { object := chat.object, chatId := chat.chatId }

/-- The signals the chat lists are connected to; those of the main list, the archive and the folders
differ in the list only. -/
inductive Signal where
  | chatAddedToList (chatList : ChatList) (chat : ChatPointer) (order : Int) (isPinned : Bool)
  | chatRemovedFromList (chatList : ChatList) (chatId : Int)
  | chatListChatPositionUpdated (chatList : ChatList) (chatId order : Int) (isPinned : Bool)

structure TDLibData where
  chats : QHash Int ChatData
  /-- the number of objects made so far -/
  objects : Nat

namespace TDLibData

def new : TDLibData := { chats := QHash.empty, objects := 0 }

/-- All chats are deleted. -/
def reset (d : TDLibData) : TDLibData := { d with chats := QHash.empty }

/-- The signal for a chat that is in a list now, at the position it has in its stored data. -/
def addedToList (chat : ChatPointer) (positions : QVariantList) (chatList : ChatList) : Signal :=
  let position := positionIn positions chatList
  .chatAddedToList chatList chat (orderOf position) (isPinnedOf position)

/-- The lists a new chat is in. -/
def chatListsOf (chatInformation : QVariantMap) : List ChatList :=
  (chatInformation.value CHAT_LISTS).toList.filterMap fun chatList => chatListOf chatList.toMap

def positionsOf (chatInformation : QVariantMap) : QVariantList := (chatInformation.value POSITIONS).toList

def handleNewChatDiscovered (d : TDLibData) (chatInformation : QVariantMap) : TDLibData × List Signal :=
  let chatId := (chatInformation.value ID).toLongLong
  let chat : ChatData := { object := d.objects, chatId := chatId, chatData := chatInformation }
  ({ chats := d.chats.insert chatId chat, objects := d.objects + 1 },
    (chatListsOf chatInformation).map (addedToList chat.pointer (positionsOf chatInformation)))

def handleChatAddedToList (d : TDLibData) (chatList : QVariantMap) (chatId : Int) : List Signal :=
  match d.chats.value chatId with
  | none => []
  | some chat => (chatListOf chatList).toList.map (addedToList chat.pointer (positionsOf chat.chatData))

def handleChatRemovedFromList (d : TDLibData) (chatList : QVariantMap) (chatId : Int) : List Signal :=
  if d.chats.contains chatId then
    (chatListOf chatList).toList.map fun chatList => .chatRemovedFromList chatList chatId
  else []

def handleChatPositionUpdated (chatId : Int) (position : QVariantMap) : List Signal :=
  (chatListOf (position.value LIST).toMap).toList.map fun chatList =>
    .chatListChatPositionUpdated chatList chatId (orderOf position) (isPinnedOf position)

def updateChatPositions (chatId : Int) (positions : QVariantList) : List Signal :=
  positions.flatMap fun position => handleChatPositionUpdated chatId position.toMap

/-- The field of a known chat is replaced, and its positions are updated. -/
def updateChatField (field : String) (d : TDLibData) (chatId : Int) (v : QVariantMap) (positions : QVariantList) :
    TDLibData × List Signal :=
  match d.chats.value chatId with
  | none => (d, [])
  | some chat =>
      ({ d with chats := d.chats.insert chatId { chat with chatData := chat.chatData.insert field (.map v) } },
        updateChatPositions chatId positions)

def handleChatLastMessageUpdated : TDLibData → Int → QVariantMap → QVariantList → TDLibData × List Signal :=
  updateChatField LAST_MESSAGE

def handleChatDraftMessageUpdated : TDLibData → Int → QVariantMap → QVariantList → TDLibData × List Signal :=
  updateChatField DRAFT_MESSAGE

end TDLibData

namespace ChatFoldersModel

/-- The model of a list; the one of a folder that has none yet is empty. -/
def listModel (m : ChatFoldersModel) : ChatList → ChatListModel
  | .main => m.mainChatListModel
  | .archive => m.archiveChatListModel
  | .folder folderId => (m.chatModels.value folderId).getD ChatListModel.new

/-- A slot of one list's model. -/
def updateListModel (m : ChatFoldersModel) (f : ChatListModel → ChatListModel) : ChatList → ChatFoldersModel
  | .main => { m with mainChatListModel := f m.mainChatListModel }
  | .archive => { m with archiveChatListModel := f m.archiveChatListModel }
  | .folder folderId =>
      match m.chatModels.value folderId with
      | none => m
      | some chatModel => { m with chatModels := m.chatModels.insert folderId (f chatModel) }

/-- The slots of a signal: those of the folders model come first, and a model they make is not called. -/
def handleSignal (m : ChatFoldersModel) : Signal → ChatFoldersModel
  | .chatAddedToList chatList chat order isPinned =>
      match chatList with
      | .folder folderId =>
          if m.chatModels.contains folderId then
            updateListModel m (fun model => model.handleChatAddedToList chat order isPinned) chatList
          else handleChatAddedToFolderList m folderId chat order isPinned
      | _ => updateListModel m (fun model => model.handleChatAddedToList chat order isPinned) chatList
  | .chatRemovedFromList chatList chatId =>
      updateListModel m (fun model => model.handleChatRemovedFromList chatId) chatList
  | .chatListChatPositionUpdated chatList chatId order isPinned =>
      updateListModel m (fun model => model.handleChatPositionUpdated chatId order isPinned) chatList

def handleSignals (m : ChatFoldersModel) (signals : List Signal) : ChatFoldersModel := signals.foldl handleSignal m

end ChatFoldersModel

/-! ### The session -/

/-- The store and the lists of a TDLib client. -/
structure Session where
  data : TDLibData
  folders : ChatFoldersModel

/-- The updates that concern the chat lists. -/
inductive Update where
  | newChat (chatInformation : QVariantMap)
  | chatPosition (chatId : Int) (position : QVariantMap)
  | chatAddedToList (chatList : QVariantMap) (chatId : Int)
  | chatRemovedFromList (chatList : QVariantMap) (chatId : Int)
  | chatLastMessage (chatId : Int) (lastMessage : QVariantMap) (positions : QVariantList)
  | chatDraftMessage (chatId : Int) (draftMessage : QVariantMap) (positions : QVariantList)
  | chatFolders (newChatFolders : QVariantList) (mainChatListPosition : Int)
  | authorizationStateLoggingOut
  | authorizationStateClosing

namespace Session

def new : Session := { data := TDLibData.new, folders := ChatFoldersModel.new }

/-- The store has changed, and its signals are handled. -/
def emit (s : Session) (outcome : TDLibData × List Signal) : Session :=
  { data := outcome.1, folders := s.folders.handleSignals outcome.2 }

/-- The state after one update, if it stays within the ranges of the lists. -/
def step (s : Session) : Update → Option Session
  | .newChat chatInformation => some (s.emit (s.data.handleNewChatDiscovered chatInformation))
  | .chatPosition chatId position =>
      some (s.emit (s.data, TDLibData.handleChatPositionUpdated chatId position))
  | .chatAddedToList chatList chatId => some (s.emit (s.data, s.data.handleChatAddedToList chatList chatId))
  | .chatRemovedFromList chatList chatId =>
      some (s.emit (s.data, s.data.handleChatRemovedFromList chatList chatId))
  | .chatLastMessage chatId lastMessage positions =>
      some (s.emit (s.data.handleChatLastMessageUpdated chatId lastMessage positions))
  | .chatDraftMessage chatId draftMessage positions =>
      some (s.emit (s.data.handleChatDraftMessageUpdated chatId draftMessage positions))
  | .chatFolders newChatFolders mainChatListPosition =>
      (s.folders.handleChatFoldersUpdated newChatFolders mainChatListPosition).map fun folders =>
        { s with folders := folders }
  -- `clearContent`
  | .authorizationStateLoggingOut => s.folders.reset.map fun folders => { s with folders := folders }
  -- `clearContent`, then `TDLibData::reset`
  | .authorizationStateClosing =>
      s.folders.reset.map fun folders => { data := s.data.reset, folders := folders }

end Session

end YaqtLib
