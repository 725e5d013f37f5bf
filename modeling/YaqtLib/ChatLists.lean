import YaqtLib.ChatFoldersIndex
import YaqtLib.TDLibData

/-! The chat lists as a family of models: a signal concerns the model of one list, an update of the folders
none, and a reset the main list and the archive, but not the folders' lists. -/

namespace YaqtLib

open Containers IndexMap TdConst

/-- The list a signal concerns. -/
def Signal.chatList : Signal → ChatList
  | .chatAddedToList chatList _ _ _ => chatList
  | .chatRemovedFromList chatList _ => chatList
  | .chatListChatPositionUpdated chatList _ _ _ => chatList

/-- What the signal does to the model of its list. -/
def Signal.slot : Signal → ChatListModel → ChatListModel
  | .chatAddedToList _ chat order isPinned => fun model => model.handleChatAddedToList chat order isPinned
  | .chatRemovedFromList _ chatId => fun model => model.handleChatRemovedFromList chatId
  | .chatListChatPositionUpdated _ chatId order isPinned => fun model =>
      model.handleChatPositionUpdated chatId order isPinned

namespace ChatFoldersModel

theorem listModel_updateListModel (m : ChatFoldersModel) {f : ChatListModel → ChatListModel}
    {chatList : ChatList} (hf : (∀ folderId, chatList = .folder folderId → m.chatModels.contains folderId = true) ∨
      f ChatListModel.new = ChatListModel.new) (chatList' : ChatList) :
    (updateListModel m f chatList).listModel chatList' =
      if chatList' = chatList then f (m.listModel chatList') else m.listModel chatList' := by
  cases chatList with
  | main => cases chatList' <;> rfl
  | archive => cases chatList' <;> rfl
  | folder folderId =>
      rw [updateListModel]
      cases hmodel : m.chatModels.value folderId with
      | none =>
          have hnew : f ChatListModel.new = ChatListModel.new := hf.resolve_left fun h => by
            have := h folderId rfl
            rw [QHash.contains_iff, hmodel] at this
            obtain ⟨_, h⟩ := this
            exact absurd h (by simp)
          dsimp only
          split_ifs with heq
          · rw [heq, listModel, hmodel, Option.getD_none, hnew]
          · rfl
      | some chatModel =>
          cases chatList' with
          | main => rfl
          | archive => rfl
          | folder folderId' =>
              rw [listModel, listModel]
              dsimp only
              by_cases heq : folderId' = folderId
              · rw [heq, if_pos rfl, QHash.value_insert_self, hmodel]
                rfl
              · rw [if_neg (by simpa using heq), QHash.value_insert_of_ne _ _ heq]

/-- **What a signal does.** -/
theorem listModel_handleSignal (m : ChatFoldersModel) (signal : Signal) (chatList : ChatList) :
    (m.handleSignal signal).listModel chatList =
      if chatList = signal.chatList then signal.slot (m.listModel chatList) else m.listModel chatList := by
  cases signal with
  | chatAddedToList chatList' chat order isPinned =>
      cases chatList' with
      | main => exact listModel_updateListModel m (Or.inl (by simp)) chatList
      | archive => exact listModel_updateListModel m (Or.inl (by simp)) chatList
      | folder folderId =>
          rw [handleSignal]
          by_cases hcontains : m.chatModels.contains folderId = true
          · rw [if_pos hcontains]
            exact listModel_updateListModel m (Or.inl (by simpa using hcontains)) chatList
          rw [if_neg hcontains]
          split_ifs with heq
          · rw [heq, handleChatAddedToFolderList, if_neg hcontains]
            have hnone : m.chatModels.value folderId = none := by
              rw [← QHash.contains_eq_false_iff]
              simpa using hcontains
            rw [Signal.chatList, listModel, listModel, hnone]
            dsimp only
            rw [QHash.value_insert_self]
            rfl
          · rw [handleChatAddedToFolderList, if_neg hcontains]
            cases chatList with
            | main => rfl
            | archive => rfl
            | folder folderId' =>
                have hne : folderId' ≠ folderId := by simpa [Signal.chatList] using heq
                rw [listModel, listModel]
                dsimp only
                rw [QHash.value_insert_of_ne _ _ hne]
  | chatRemovedFromList chatList' chatId => exact listModel_updateListModel m (Or.inr rfl) chatList
  | chatListChatPositionUpdated chatList' chatId order isPinned =>
      exact listModel_updateListModel m (Or.inr rfl) chatList

/-! ### Updates and resets of the folders -/

/-- The list models themselves. -/
def models (m : ChatFoldersModel) : ChatListModel × ChatListModel × QHash Int ChatListModel :=
  (m.mainChatListModel, m.archiveChatListModel, m.chatModels)

theorem listModel_congr {m m' : ChatFoldersModel} (h : m'.models = m.models) (chatList : ChatList) :
    m'.listModel chatList = m.listModel chatList := by
  obtain ⟨hmain, h⟩ := Prod.mk.inj h
  obtain ⟨harchive, hmodels⟩ := Prod.mk.inj h
  cases chatList with
  | main => exact hmain
  | archive => exact harchive
  | folder folderId => rw [listModel, listModel, hmodels]

theorem models_finishMove (m : ChatFoldersModel) (source target : Nat) : (finishMove m source target).models = m.models := by
  obtain ⟨index, heq⟩ := finishMove_eq m source target
  rw [heq]
  rfl

theorem models_removeChatFolders (ids : List Int) (i : Nat) (m : ChatFoldersModel) :
    (removeChatFolders ids i m).models = m.models := by
  induction i generalizing m with
  | zero => rfl
  | succ i ih =>
      rw [removeChatFolders]
      split
      · exact ih m
      · split_ifs
        · exact ih _
        · exact ih m

theorem models_moveMainChatList {m m' : ChatFoldersModel} {p : Int} (h : moveMainChatList m p = some m') :
    m'.models = m.models := by
  rw [moveMainChatList] at h
  split_ifs at h with hstay
  · rw [Option.some.inj h]
  · obtain ⟨source, -, h⟩ := Option.bind_eq_some_iff.mp h
    split_ifs at h
    · rw [← Option.some.inj h, models_finishMove]
      rfl

theorem models_removeRange {m m' : ChatFoldersModel} {first last : Int} (h : removeRange m first last = some m') :
    m'.models = m.models := by
  rw [removeRange] at h
  split_ifs at h
  · rw [← Option.some.inj h]
    rfl
  · rw [Option.some.inj h]

/-- A folder without a model gets an empty one. -/
theorem listModel_updateChatFolder {m m' : ChatFoldersModel} {p : Int} {folder : QVariantMap} {i : Nat}
    (h : updateChatFolder p folder i m = some m') (chatList : ChatList) :
    m'.listModel chatList = m.listModel chatList := by
  have hmodels : m'.models = (m.mainChatListModel, m.archiveChatListModel,
      if m.chatModels.contains (folder.value ID).toInt then m.chatModels
      else m.chatModels.insert (folder.value ID).toInt ChatListModel.new) := by
    rw [updateChatFolder] at h
    generalize (if m.chatModels.contains (folder.value ID).toInt then m.chatModels
      else m.chatModels.insert (folder.value ID).toInt ChatListModel.new) = chatModels at h ⊢
    generalize (if p ≤ i then i + 1 else i) = normalizedIndex at h
    dsimp only at h
    split at h
    · rw [← Option.some.inj h]
      obtain ⟨index, heq⟩ := foldl_updateChatFolderIndexAt _ _ _
      rw [heq]
      rfl
    · split_ifs at h
      · rw [← Option.some.inj h]
        rfl
      · rw [← Option.some.inj h, models_finishMove]
        rfl
  obtain ⟨hmain, h⟩ := Prod.mk.inj hmodels
  obtain ⟨harchive, hchatModels⟩ := Prod.mk.inj h
  cases chatList with
  | main => exact hmain
  | archive => exact harchive
  | folder folderId =>
      rw [listModel, listModel, hchatModels]
      split_ifs with hcontains
      · rfl
      · by_cases heq : folderId = (folder.value ID).toInt
        · have hnone : m.chatModels.value folderId = none := by
            rw [heq, ← QHash.contains_eq_false_iff]
            simpa using hcontains
          rw [heq, QHash.value_insert_self, ← heq, hnone]
          rfl
        · rw [QHash.value_insert_of_ne _ _ heq]

theorem listModel_updateChatFolders {m m' : ChatFoldersModel} {p : Int} {newChatFolders : QVariantList} {i : Nat}
    (h : updateChatFolders p newChatFolders i m = some m') (chatList : ChatList) :
    m'.listModel chatList = m.listModel chatList := by
  induction newChatFolders generalizing i m with
  | nil => rw [Option.some.inj h]
  | cons folder newChatFolders ih =>
      obtain ⟨m1, h1, h⟩ := Option.bind_eq_some_iff.mp h
      rw [ih h, listModel_updateChatFolder h1]

/-- An update of the folders leaves all lists as they are. -/
theorem listModel_handleChatFoldersUpdated {m m' : ChatFoldersModel} {newChatFolders : QVariantList} {p : Int}
    (h : handleChatFoldersUpdated m newChatFolders p = some m') (chatList : ChatList) :
    m'.listModel chatList = m.listModel chatList := by
  obtain ⟨m1, h1, h⟩ := Option.bind_eq_some_iff.mp h
  obtain ⟨m2, h2, rfl⟩ := Option.map_eq_some_iff.mp h
  calc ({ m2 with mainChatListIndex := p } : ChatFoldersModel).listModel chatList
      = m2.listModel chatList := listModel_congr rfl chatList
    _ = m1.listModel chatList := listModel_updateChatFolders h2 chatList
    _ = m.listModel chatList :=
        listModel_congr ((models_moveMainChatList h1).trans (models_removeChatFolders _ _ _)) chatList

/-- A reset empties the main list and the archive, and leaves the folders' lists as they are. -/
theorem listModel_reset {m m' : ChatFoldersModel} (h : reset m = some m') (chatList : ChatList) :
    m'.listModel chatList = match chatList with
      | .folder folderId => m.listModel (.folder folderId)
      | _ => ChatListModel.new := by
  obtain ⟨m1, h1, h⟩ := Option.bind_eq_some_iff.mp h
  obtain ⟨m2, h2, rfl⟩ := Option.map_eq_some_iff.mp h
  cases chatList with
  | main => rfl
  | archive => rfl
  | folder folderId =>
      exact listModel_congr ((models_removeRange h2).trans (models_removeRange h1)) (.folder folderId)

end ChatFoldersModel

end YaqtLib
