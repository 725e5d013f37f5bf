import YaqtLib.ChatListModel

/-! The folders of the chat list (`chatfoldersmodel.cpp`): a row for each folder and one for the main list,
the row numbers of the folders, and the chat lists themselves. A list access outside its range is undefined
in the source; here such a step has no result. -/

namespace YaqtLib

open Containers IndexMap TdConst

/-- The icons of the folders. -/
inductive Icon where
  | all | unread | unmuted | bots | channels | groups | «private» | custom | setup | cat | crown | favorite
  | flower | game | home | love | mask | party | sport | study | trade | travel | work | airplane | book | light
  | like | money | note | palette
  deriving DecidableEq

inductive FolderType where
  | folderMain
  | folderFolder
  | folderArchive
  deriving DecidableEq

def iconForName (name : String) : Icon :=
  if name = "All" then .all
  else if name = "Unread" then .unread
  else if name = "Unmuted" then .unmuted
  else if name = "Bots" then .bots
  else if name = "Channels" then .channels
  else if name = "Groups" then .groups
  else if name = "Private" then .private
  else if name = "Custom" then .custom
  else if name = "Setup" then .setup
  else if name = "Cat" then .cat
  else if name = "Crown" then .crown
  else if name = "Favorite" then .favorite
  else if name = "Flower" then .flower
  else if name = "Game" then .game
  else if name = "Home" then .home
  else if name = "Love" then .love
  else if name = "Mask" then .mask
  else if name = "Party" then .party
  else if name = "Sport" then .sport
  else if name = "Study" then .study
  else if name = "Trade" then .trade
  else if name = "Travel" then .travel
  else if name = "Work" then .work
  else if name = "Airplane" then .airplane
  else if name = "Book" then .book
  else if name = "Light" then .light
  else if name = "Like" then .like
  else if name = "Money" then .money
  else if name = "Note" then .note
  else if name = "Palette" then .palette
  else .all

structure ChatFolderData where
  type : FolderType
  icon : Icon
  data : QVariantMap

namespace ChatFolderData

/-- The row of a folder: its icon is taken out of its data. -/
def ofFolder (data : QVariantMap) : ChatFolderData :=
  { type := .folderFolder
    icon := iconForName ((data.value ICON).toMap.value NAME).toStr
    data := data.remove ICON }

/-- The row of the main list. -/
def main : ChatFolderData := { type := .folderMain, icon := .all, data := [] }

def isFolder (row : ChatFolderData) : Bool := row.type = .folderFolder

/-- `0` for the main list, which has no data. -/
def id (row : ChatFolderData) : Int := (row.data.value ID).toInt

/-- The key under which the index map holds a row: only folders have one. -/
def key (row : ChatFolderData) : Option Int := if row.isFolder then some row.id else none

end ChatFolderData

structure ChatFoldersModel where
  chatFolders : List ChatFolderData
  chatFoldersIndexMap : QHash Int Nat
  mainChatListIndex : Int
  mainChatListModel : ChatListModel
  archiveChatListModel : ChatListModel
  chatModels : QHash Int ChatListModel

namespace ChatFoldersModel

def new : ChatFoldersModel :=
  { chatFolders := [ChatFolderData.main]
    chatFoldersIndexMap := QHash.empty
    mainChatListIndex := 0
    mainChatListModel := ChatListModel.new
    archiveChatListModel := ChatListModel.new
    chatModels := QHash.empty }

/-- Each row from row `i` on is entered under its id, the main list under its id `0` too. -/
def insertFollowing (chatFolders : List ChatFolderData) (i : Nat) (chatFoldersIndexMap : QHash Int Nat) :
    QHash Int Nat :=
  reindex (fun row => some row.id) (chatFolders.drop i) i chatFoldersIndexMap

def removeRange (m : ChatFoldersModel) (firstDeleted lastDeleted : Int) : Option ChatFoldersModel :=
  if 0 ≤ firstDeleted ∧ firstDeleted ≤ lastDeleted then
    if lastDeleted < m.chatFolders.length then
      let first := firstDeleted.toNat
      let last := lastDeleted.toNat
      let deleted := (m.chatFolders.drop first).take (last + 1 - first)
      let chatFolders := eraseRange m.chatFolders first last
      some { m with
        chatFolders := chatFolders
        chatFoldersIndexMap :=
          insertFollowing chatFolders first (m.chatFoldersIndexMap.removeAll (deleted.map ChatFolderData.id)) }
    else none
  else some m

/-- Removes the folders around the main list, and resets the main and archive lists. -/
def reset (m : ChatFoldersModel) : Option ChatFoldersModel :=
  (removeRange m 0 (m.mainChatListIndex - 1)).bind fun m =>
    (removeRange m (m.mainChatListIndex + 1) (m.chatFolders.length - 1)).map fun m =>
      { m with
        mainChatListModel := m.mainChatListModel.reset
        archiveChatListModel := m.archiveChatListModel.reset }

def handleChatAddedToFolderList (m : ChatFoldersModel) (folderId : Int) (chatData : ChatPointer) (order : Int)
    (isPinned : Bool) : ChatFoldersModel :=
  if m.chatModels.contains folderId then m
  else
    { m with chatModels := m.chatModels.insert folderId (ChatListModel.new.handleChatAddedToList chatData order isPinned) }

def updateChatFolderIndexAt (m : ChatFoldersModel) (i : Nat) : ChatFoldersModel :=
  match m.chatFolders[i]? with
  | none => m
  | some folder =>
      match folder.type with
      | .folderFolder => { m with chatFoldersIndexMap := m.chatFoldersIndexMap.insert folder.id i }
      | .folderMain => { m with mainChatListIndex := i }
      | .folderArchive => m

def finishMove (m : ChatFoldersModel) (source target : Nat) : ChatFoldersModel :=
  if target < source then
    -- the first index is already correct
    (List.range' (target + 1) (source - target)).foldl updateChatFolderIndexAt m
  else
    -- the last index is already correct
    (List.range' source (target - source)).foldl updateChatFolderIndexAt m

/-! ### The update of the folders -/

/-- The ids of the given folders. -/
def idsOf (newChatFolders : QVariantList) : List Int :=
  newChatFolders.map fun folder => (folder.toMap.value ID).toInt

/-- The removed folders among the rows below row `i` are taken out, the last one first. -/
def removeChatFolders (ids : List Int) : Nat → ChatFoldersModel → ChatFoldersModel
  | 0, m => m
  | i + 1, m =>
      match m.chatFolders[i]? with
      | none => removeChatFolders ids i m
      | some chatFolder =>
          if chatFolder.isFolder ∧ chatFolder.id ∉ ids then
            let chatFolders := m.chatFolders.eraseIdx i
            removeChatFolders ids i
              { m with
                chatFolders := chatFolders
                chatFoldersIndexMap :=
                  insertFollowing chatFolders i (m.chatFoldersIndexMap.remove chatFolder.id) }
          else removeChatFolders ids i m

/-- The main list moves to its new row. -/
def moveMainChatList (m : ChatFoldersModel) (mainChatListPosition : Int) : Option ChatFoldersModel :=
  let newMainChatListIndex := min mainChatListPosition m.chatFolders.length
  let oldMainChatListIndex := m.chatFolders.findIdx? fun row => row.type = .folderMain
  if (oldMainChatListIndex.elim (-1) fun i => (i : Int)) = newMainChatListIndex then some m
  else
    oldMainChatListIndex.bind fun source =>
      if 0 ≤ newMainChatListIndex ∧ MoveInRange m.chatFolders source newMainChatListIndex.toNat then
        some (finishMove
          { m with
            chatFolders := move m.chatFolders source newMainChatListIndex.toNat
            mainChatListIndex := newMainChatListIndex } source newMainChatListIndex.toNat)
      else none

/-- The last row of the list that satisfies `p`. -/
def lastIndexWhere {α : Type} (p : α → Bool) : List α → Option Nat
  | [] => none
  | x :: xs =>
      match lastIndexWhere p xs with
      | some j => some (j + 1)
      | none => if p x then some 0 else none

/-- A folder gets its new data and its row, the `i`-th folder of the update. -/
def updateChatFolder (mainChatListPosition : Int) (folder : QVariantMap) (i : Nat) (m : ChatFoldersModel) :
    Option ChatFoldersModel :=
  let normalizedIndex := if mainChatListPosition ≤ i then i + 1 else i
  let id := (folder.value ID).toInt
  let chatModels :=
    if m.chatModels.contains id then m.chatModels else m.chatModels.insert id ChatListModel.new
  let isOfFolder : ChatFolderData → Bool := fun folderData => folderData.isFolder && folderData.id = id
  let oldIndex := lastIndexWhere isOfFolder m.chatFolders
  let chatFolders := m.chatFolders.map fun folderData =>
    if isOfFolder folderData then { folderData with data := folder } else folderData
  let m := { m with chatModels := chatModels, chatFolders := chatFolders }
  match oldIndex with
  | none =>
      let insertionIndex := min normalizedIndex m.chatFolders.length
      let m := { m with chatFolders := m.chatFolders.insertIdx insertionIndex (ChatFolderData.ofFolder folder) }
      some ((List.range' insertionIndex (m.chatFolders.length - insertionIndex)).foldl updateChatFolderIndexAt m)
  | some oldIndex =>
      if oldIndex = normalizedIndex then some m
      else
        let newIndex := min normalizedIndex m.chatFolders.length
        if MoveInRange m.chatFolders oldIndex newIndex then
          some (finishMove
            { m with
              chatFolders := move m.chatFolders oldIndex newIndex
              chatFoldersIndexMap := m.chatFoldersIndexMap.insert id newIndex } oldIndex newIndex)
        else none

/-- The folders of the update in their order, the first of them being number `i`. -/
def updateChatFolders (mainChatListPosition : Int) : QVariantList → Nat → ChatFoldersModel → Option ChatFoldersModel
  | [], _, m => some m
  | folder :: newChatFolders, i, m =>
      (updateChatFolder mainChatListPosition folder.toMap i m).bind
        (updateChatFolders mainChatListPosition newChatFolders (i + 1))

def handleChatFoldersUpdated (m : ChatFoldersModel) (newChatFolders : QVariantList) (mainChatListPosition : Int) :
    Option ChatFoldersModel :=
  let m := { m with mainChatListIndex := -1 }
  let m := removeChatFolders (idsOf newChatFolders) m.chatFolders.length m
  (moveMainChatList m mainChatListPosition).bind fun m =>
    (updateChatFolders mainChatListPosition newChatFolders 0 m).map fun m =>
      { m with mainChatListIndex := mainChatListPosition }

/-- What changes the folders. -/
inductive Event where
  | reset
  | chatAddedToFolderList (folderId : Int) (chatData : ChatPointer) (order : Int) (isPinned : Bool)
  | chatFoldersUpdated (newChatFolders : QVariantList) (mainChatListPosition : Int)

/-- The state after one event, if the event stays within the ranges of the lists. -/
def step (m : ChatFoldersModel) : Event → Option ChatFoldersModel
  | .reset => reset m
  | .chatAddedToFolderList folderId chatData order isPinned =>
      some (handleChatAddedToFolderList m folderId chatData order isPinned)
  | .chatFoldersUpdated newChatFolders mainChatListPosition =>
      handleChatFoldersUpdated m newChatFolders mainChatListPosition

end ChatFoldersModel

end YaqtLib
