import YaqtLib.ChatFoldersRows

/-! The chat lists of the folders (`chatfoldersmodel.cpp`, `folderchatlistmodel.cpp`, `chatlistmodel.cpp`) with their
counts, their refresh timers and the connection by which a change of a count is announced. The list of a folder is made
by the first of two handlers that needs it. -/

namespace YaqtLib

open Containers IndexMap TdConst

namespace TdConst

abbrev UNREAD_UNMUTED_COUNT : String := "unread_unmuted_count"

end TdConst

/-- The members of a `ChatListModel` next to its rows. -/
structure ListMembers where
  unreadChatCount : Int
  unreadUnmutedChatCount : Int
  refreshTimerEnabled : Bool
  /-- `relativeTimeRefreshTimer->isActive()` -/
  timerActive : Bool

namespace ListMembers

def new : ListMembers :=
  { unreadChatCount := 0, unreadUnmutedChatCount := 0, refreshTimerEnabled := false, timerActive := false }

def tryEnableRefreshTimer (l : ListMembers) : ListMembers :=
  if l.refreshTimerEnabled then (if !l.timerActive then { l with timerActive := true } else l)
  else if l.timerActive then { l with timerActive := false }
  else l

def setRefreshTimerEnabled (l : ListMembers) (enabled : Bool) : ListMembers :=
  if l.refreshTimerEnabled ≠ enabled then tryEnableRefreshTimer { l with refreshTimerEnabled := enabled } else l

/-- `handleUnreadChatCountUpdated`, which always emits `unreadChatCountChanged`. -/
def handleUnreadChatCountUpdated (l : ListMembers) (chatCountInformation : QVariantMap) : ListMembers :=
  { l with
    unreadChatCount := (chatCountInformation.value UNREAD_COUNT).toInt
    unreadUnmutedChatCount := (chatCountInformation.value UNREAD_UNMUTED_COUNT).toInt }

@[simp] theorem tryEnableRefreshTimer_setting (l : ListMembers) :
    l.tryEnableRefreshTimer.refreshTimerEnabled = l.refreshTimerEnabled := by
  rw [tryEnableRefreshTimer]
  split_ifs <;> rfl

@[simp] theorem setRefreshTimerEnabled_setting (l : ListMembers) (enabled : Bool) :
    (l.setRefreshTimerEnabled enabled).refreshTimerEnabled = enabled := by
  rw [setRefreshTimerEnabled]
  split_ifs with h
  · exact tryEnableRefreshTimer_setting _
  · exact not_not.mp h

end ListMembers

/-- A `FolderChatListModel` next to its rows; `connected` tells whether its `unreadChatCountChanged` reaches
`ChatFoldersModel::handleFolderChatListUnreadChatCountChanged`. -/
structure FolderListMembers where
  members : ListMembers
  connected : Bool

inductive FolderRole where
  | own (role : ChatFolderData.Role)
  | model
  | unreadChatCount
  deriving DecidableEq

/-- A `dataChanged` signal of the folders for one row. -/
structure DataChanged where
  row : Nat
  roles : List FolderRole
  deriving DecidableEq

/-- The folders with the lists next to them: `folders.chatModels` has the rows of the lists. -/
structure FolderLists where
  folders : ChatFoldersModel
  refreshTimerEnabled : Bool
  main : ListMembers
  archive : ListMembers
  lists : QHash Int FolderListMembers

namespace FolderLists

def new : FolderLists :=
  { folders := ChatFoldersModel.new, refreshTimerEnabled := false, main := ListMembers.new,
    archive := ListMembers.new, lists := QHash.empty }

/-- The signal `chatAddedToFolderList`. A list that is made by the slot of `ChatFoldersModel` is connected too late for
this signal and gets the chat from the slot; the list that is there has a slot of its own. -/
def handleChatAddedToFolderList (s : FolderLists) (folderId : Int) (chatData : ChatPointer) (order : Int)
    (isPinned : Bool) : FolderLists :=
  match s.folders.chatModels.value folderId, s.lists.value folderId with
  | some model, some list =>
      { s with
        folders := { s.folders with
          chatModels := s.folders.chatModels.insert folderId (model.handleChatAddedToList chatData order isPinned) }
        lists := s.lists.insert folderId { list with members := list.members.tryEnableRefreshTimer } }
  | _, _ =>
      { s with
        folders := s.folders.handleChatAddedToFolderList folderId chatData order isPinned
        lists := s.lists.insert folderId
          { members := ListMembers.new.tryEnableRefreshTimer, connected := true } }

/-- The loop over the folders makes the lists that are not there; their signals are not connected. -/
def handleChatFoldersUpdated (s : FolderLists) (newChatFolders : QVariantList) (mainChatListPosition : Int) :
    Option FolderLists :=
  (s.folders.handleChatFoldersUpdated newChatFolders mainChatListPosition).map fun folders =>
    { s with
      folders := folders
      lists := s.lists.insertMissing (ChatFoldersModel.idsOf newChatFolders)
        { members := ListMembers.new, connected := false } }

def handleFolderChatListUnreadChatCountChanged (s : FolderLists) (folderId : Int) : List DataChanged :=
  match s.folders.chatFoldersIndexMap.value folderId with
  | some row => [{ row := row, roles := [.unreadChatCount] }]
  | none => []

/-- The signal `folderChatListUnreadChatCountUpdated`, with what the folders announce. -/
def handleFolderUnreadChatCountUpdated (s : FolderLists) (folderId : Int) (chatCountInformation : QVariantMap) :
    FolderLists × List DataChanged :=
  match s.lists.value folderId with
  | none => (s, [])
  | some list =>
      let list' := { list with members := list.members.handleUnreadChatCountUpdated chatCountInformation }
      ({ s with lists := s.lists.insert folderId list' },
        if list.connected then handleFolderChatListUnreadChatCountChanged s folderId else [])

def setRefreshTimerEnabled (s : FolderLists) (enabled : Bool) : FolderLists :=
  if s.refreshTimerEnabled ≠ enabled then
    { s with
      refreshTimerEnabled := enabled
      main := s.main.setRefreshTimerEnabled enabled
      archive := s.archive.setRefreshTimerEnabled enabled
      -- every list in `chatModels`
      lists := fun id => (s.lists.value id).map fun list =>
        { list with members := list.members.setRefreshTimerEnabled enabled } }
  else s

inductive Event where
  | chatFoldersUpdated (newChatFolders : QVariantList) (mainChatListPosition : Int)
  | chatAddedToFolderList (folderId : Int) (chatData : ChatPointer) (order : Int) (isPinned : Bool)
  | folderUnreadChatCountUpdated (folderId : Int) (chatCountInformation : QVariantMap)
  | setRefreshTimerEnabled (enabled : Bool)

/-- The state after one event, if the event stays within the ranges of the lists. -/
def step (s : FolderLists) : Event → Option FolderLists
  | .chatFoldersUpdated newChatFolders mainChatListPosition =>
      handleChatFoldersUpdated s newChatFolders mainChatListPosition
  | .chatAddedToFolderList folderId chatData order isPinned =>
      some (handleChatAddedToFolderList s folderId chatData order isPinned)
  | .folderUnreadChatCountUpdated folderId chatCountInformation =>
      some (handleFolderUnreadChatCountUpdated s folderId chatCountInformation).1
  | .setRefreshTimerEnabled enabled => some (setRefreshTimerEnabled s enabled)

end FolderLists

/-! ### The rows do not depend on the lists -/

namespace ChatFoldersModel

/-- The folders with other lists. -/
def withModels (m : ChatFoldersModel) (chatModels : QHash Int ChatListModel) : ChatFoldersModel :=
  { m with chatModels := chatModels }

theorem updateChatFolderIndexAt_withModels (m : ChatFoldersModel) (chatModels : QHash Int ChatListModel) (i : Nat) :
    updateChatFolderIndexAt (m.withModels chatModels) i = (updateChatFolderIndexAt m i).withModels chatModels := by
  unfold updateChatFolderIndexAt withModels
  dsimp only
  cases m.chatFolders[i]? with
  | none => rfl
  | some folder => cases hfolder : folder.type <;> simp only [hfolder]

theorem foldl_updateChatFolderIndexAt_withModels (is : List Nat) (m : ChatFoldersModel)
    (chatModels : QHash Int ChatListModel) :
    is.foldl updateChatFolderIndexAt (m.withModels chatModels) =
      (is.foldl updateChatFolderIndexAt m).withModels chatModels := by
  induction is generalizing m with
  | nil => rfl
  | cons i is ih => rw [List.foldl_cons, updateChatFolderIndexAt_withModels, ih, List.foldl_cons]

theorem finishMove_withModels (m : ChatFoldersModel) (chatModels : QHash Int ChatListModel) (source target : Nat) :
    finishMove (m.withModels chatModels) source target = (finishMove m source target).withModels chatModels := by
  rw [finishMove, finishMove]
  split_ifs
  · exact foldl_updateChatFolderIndexAt_withModels _ m chatModels
  · exact foldl_updateChatFolderIndexAt_withModels _ m chatModels

theorem removeChatFolders_withModels (ids : List Int) (i : Nat) (m : ChatFoldersModel)
    (chatModels : QHash Int ChatListModel) :
    removeChatFolders ids i (m.withModels chatModels) = (removeChatFolders ids i m).withModels chatModels := by
  induction i generalizing m with
  | zero => rfl
  | succ i ih =>
      unfold removeChatFolders
      have hfolders : (m.withModels chatModels).chatFolders = m.chatFolders := rfl
      rw [hfolders]
      cases m.chatFolders[i]? with
      | none => exact ih m
      | some chatFolder =>
          dsimp only
          by_cases hremoved : chatFolder.isFolder = true ∧ chatFolder.id ∉ ids
          · rw [if_pos hremoved, if_pos hremoved]
            exact ih { m with
              chatFolders := m.chatFolders.eraseIdx i
              chatFoldersIndexMap := insertFollowing (m.chatFolders.eraseIdx i) i
                (m.chatFoldersIndexMap.remove chatFolder.id) }
          · rw [if_neg hremoved, if_neg hremoved]
            exact ih m

theorem moveMainChatList_withModels (m : ChatFoldersModel) (chatModels : QHash Int ChatListModel) (p : Int) :
    moveMainChatList (m.withModels chatModels) p = (moveMainChatList m p).map fun m' => m'.withModels chatModels := by
  unfold moveMainChatList
  change (if (m.chatFolders.findIdx? _).elim (-1) _ = min p m.chatFolders.length then some (m.withModels chatModels)
    else (m.chatFolders.findIdx? _).bind _) = _
  dsimp only
  generalize m.chatFolders.findIdx? (fun row => row.type = .folderMain) = oldMainChatListIndex
  split_ifs
  · rfl
  · cases oldMainChatListIndex with
    | none => rfl
    | some source =>
        rw [Option.bind_some, Option.bind_some]
        change (if 0 ≤ min p m.chatFolders.length ∧
          MoveInRange m.chatFolders source (min p m.chatFolders.length).toNat then some _ else none) = _
        split_ifs
        · exact congrArg some (finishMove_withModels { m with
            chatFolders := move m.chatFolders source (min p m.chatFolders.length).toNat
            mainChatListIndex := min p m.chatFolders.length } chatModels source _)
        · rfl

theorem updateChatFolder_withModels (p : Int) (folder : QVariantMap) (i : Nat) (m : ChatFoldersModel)
    (chatModels : QHash Int ChatListModel) :
    updateChatFolder p folder i (m.withModels chatModels) = (updateChatFolder p folder i m).map fun m' =>
      m'.withModels (chatModels.insertMissing [(folder.value ID).toInt] ChatListModel.new) := by
  unfold updateChatFolder
  dsimp only [withModels]
  generalize m.chatFolders.map _ = rows
  cases lastIndexWhere (fun folderData => folderData.isFolder && folderData.id = (folder.value ID).toInt)
      m.chatFolders with
  | none =>
      exact congrArg some (foldl_updateChatFolderIndexAt_withModels _
        { m with chatFolders := _, chatModels := _ } (chatModels.insertMissing [(folder.value ID).toInt] ChatListModel.new))
  | some oldIndex =>
      dsimp only
      generalize (if p ≤ i then i + 1 else i) = normalizedIndex
      by_cases hstay : oldIndex = normalizedIndex
      · rw [if_pos hstay, if_pos hstay]
        rfl
      · rw [if_neg hstay, if_neg hstay]
        by_cases hrange : MoveInRange rows oldIndex (min normalizedIndex rows.length)
        · rw [if_pos hrange, if_pos hrange]
          exact congrArg some (finishMove_withModels
            { m with chatFolders := _, chatFoldersIndexMap := _, chatModels := _ }
            (chatModels.insertMissing [(folder.value ID).toInt] ChatListModel.new) oldIndex _)
        · rw [if_neg hrange, if_neg hrange]
          rfl

theorem updateChatFolders_withModels (p : Int) (newChatFolders : QVariantList) (i : Nat) (m : ChatFoldersModel)
    (chatModels : QHash Int ChatListModel) :
    updateChatFolders p newChatFolders i (m.withModels chatModels) =
      (updateChatFolders p newChatFolders i m).map fun m' =>
        m'.withModels (chatModels.insertMissing (idsOf newChatFolders) ChatListModel.new) := by
  induction newChatFolders generalizing i m chatModels with
  | nil => rfl
  | cons folder newChatFolders ih =>
      rw [updateChatFolders, updateChatFolders, updateChatFolder_withModels p folder.toMap i m chatModels]
      cases updateChatFolder p folder.toMap i m with
      | none => rfl
      | some m₁ => exact ih (i + 1) m₁ _

/-- An update does the same to the rows whatever lists there are, and makes the lists that are not there. -/
theorem handleChatFoldersUpdated_withModels (m : ChatFoldersModel) (chatModels : QHash Int ChatListModel)
    (newChatFolders : QVariantList) (p : Int) :
    handleChatFoldersUpdated (m.withModels chatModels) newChatFolders p =
      (handleChatFoldersUpdated m newChatFolders p).map fun m' =>
        m'.withModels (chatModels.insertMissing (idsOf newChatFolders) ChatListModel.new) := by
  have hremove := removeChatFolders_withModels (idsOf newChatFolders) m.chatFolders.length
    { m with mainChatListIndex := -1 } chatModels
  unfold handleChatFoldersUpdated
  change (moveMainChatList (removeChatFolders (idsOf newChatFolders) m.chatFolders.length
    (withModels { m with mainChatListIndex := -1 } chatModels)) p).bind _ = _
  rw [hremove, moveMainChatList_withModels]
  dsimp only
  cases moveMainChatList (removeChatFolders (idsOf newChatFolders) m.chatFolders.length
      { m with mainChatListIndex := -1 }) p with
  | none => rfl
  | some m₁ =>
      rw [Option.map_some, Option.bind_some, Option.bind_some, updateChatFolders_withModels]
      cases updateChatFolders p newChatFolders 0 m₁ <;> rfl

theorem chatModels_handleChatFoldersUpdated {m m' : ChatFoldersModel} {newChatFolders : QVariantList} {p : Int}
    (h : handleChatFoldersUpdated m newChatFolders p = some m') :
    m'.chatModels = m.chatModels.insertMissing (idsOf newChatFolders) ChatListModel.new := by
  have hsame := handleChatFoldersUpdated_withModels m m.chatModels newChatFolders p
  rw [show m.withModels m.chatModels = m from rfl, h, Option.map_some] at hsame
  exact congrArg ChatFoldersModel.chatModels (Option.some.inj hsame)

end ChatFoldersModel

end YaqtLib
