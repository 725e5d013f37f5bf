import YaqtLib.ChatFoldersUpdate
import YaqtLib.ChatListOrder
import YaqtLib.FolderLists

/-! The list of a folder, whichever update made it. One folder is followed by a machine of its own, which keeps the
rows of its list, the setting of its timer and whether its count is announced. -/

namespace YaqtLib

open Containers IndexMap Runs ChatFoldersModel

namespace ListChatData

/-- A chat that is added goes above the rows that do not precede it. -/
def Above (a b : ListChatData) : Prop := ¬ Precedes b a

instance : DecidableRel Above := fun a b => inferInstanceAs (Decidable (¬ Precedes b a))

instance : IsTrans ListChatData Above where
  trans a b c := by
    unfold Above Precedes
    omega

instance : Std.Total Above where
  total a b := by
    unfold Above Precedes
    omega

theorem Above.tied {a b : ListChatData} (h : Above a b) (h' : Above b a) : a.chatId = b.chatId ∧ a.order = b.order := by
  unfold Above Precedes at h h'
  omega

end ListChatData

open ListChatData

theorem ChatListModel.chatList_handleChatAddedToList (m : ChatListModel) (chatData : ChatPointer) (order : Int)
    (isPinned : Bool) : (m.handleChatAddedToList chatData order isPinned).chatList =
      m.chatList.orderedInsert Above { data := chatData, order := order, isPinned := isPinned } := by
  generalize hchat : ({ data := chatData, order := order, isPinned := isPinned } : ListChatData) = chat
  have hwhile : (fun other => decide (0 ≤ chat.compareTo other)) = fun other => decide ¬ Above chat other := by
    funext other
    exact decide_eq_decide.mpr ((compareTo_nonneg_iff chat other).trans not_not.symm)
  change m.chatList.insertIdx (m.chatList.takeWhile fun other =>
    0 ≤ ({ data := chatData, order := order, isPinned := isPinned } : ListChatData).compareTo other).length
      { data := chatData, order := order, isPinned := isPinned } = _
  rw [hchat, hwhile, List.orderedInsert_eq_take_drop]
  have hsplit := List.takeWhile_append_dropWhile (p := fun other => decide ¬ Above chat other) (l := m.chatList)
  conv_lhs => arg 1; rw [← hsplit]
  exact insertIdx_append_length _ _ _

namespace FolderLists

/-! ### The machine of one folder -/

structure OneList where
  rows : List ListChatData
  refreshTimerEnabled : Bool
  connected : Bool

structure OneFolder where
  list : Option OneList
  setting : Bool

/-- What the lists hold for a folder. -/
def view (folderId : Int) (s : FolderLists) : OneFolder :=
  { list := (s.folders.chatModels.value folderId).bind fun model => (s.lists.value folderId).map fun list =>
      { rows := model.chatList, refreshTimerEnabled := list.members.refreshTimerEnabled, connected := list.connected }
    setting := s.refreshTimerEnabled }

/-- The chat that an event adds to the folder. -/
def added (folderId : Int) : Event → Option ListChatData
  | .chatAddedToFolderList folderId' chatData order isPinned =>
      if folderId' = folderId then some { data := chatData, order := order, isPinned := isPinned } else none
  | _ => none

/-- The event needs the list of the folder. -/
def creates (folderId : Int) : Event → Bool
  | .chatFoldersUpdated newChatFolders _ => folderId ∈ idsOf newChatFolders
  | .chatAddedToFolderList folderId' .. => folderId' = folderId
  | _ => false

def settingOf : Event → Option Bool
  | .setRefreshTimerEnabled enabled => some enabled
  | _ => none

/-- One folder after one event. -/
def viewStep (folderId : Int) (v : OneFolder) (e : Event) : OneFolder :=
  match e with
  | .chatFoldersUpdated newChatFolders _ =>
      if folderId ∈ idsOf newChatFolders then
        { v with list := v.list.or (some { rows := [], refreshTimerEnabled := false, connected := false }) }
      else v
  | .chatAddedToFolderList folderId' chatData order isPinned =>
      if folderId' = folderId then
        let list := v.list.getD { rows := [], refreshTimerEnabled := false, connected := true }
        let chat : ListChatData := { data := chatData, order := order, isPinned := isPinned }
        { v with list := some { list with rows := list.rows.orderedInsert Above chat } }
      else v
  | .folderUnreadChatCountUpdated .. => v
  | .setRefreshTimerEnabled enabled =>
      if v.setting ≠ enabled then
        { list := v.list.map fun list => { list with refreshTimerEnabled := enabled }, setting := enabled }
      else v

/-- The lists and their members are there for the same folders, and the main list has the setting of the timers. -/
structure Wired (s : FolderLists) : Prop where
  consistent : Consistent s.folders.chatFolders s.folders.chatFoldersIndexMap
  keys : ∀ folderId, (s.folders.chatModels.value folderId).isSome = (s.lists.value folderId).isSome
  main : s.main.refreshTimerEnabled = s.refreshTimerEnabled

/-- An update of different folders, each with an id, and a position among them; the other events are arbitrary. -/
def Event.IsWellFormed : Event → Prop
  | .chatFoldersUpdated newChatFolders p => IsUpdate newChatFolders p
  | _ => True

theorem wired_new : Wired new := ⟨consistent_new, fun _ => rfl, rfl⟩

theorem isSome_value_insert {κ α : Type} [DecidableEq κ] (m : QHash κ α) (k k' : κ) (v : α) :
    ((m.insert k v).value k').isSome = (decide (k' = k) || (m.value k').isSome) := by
  rw [QHash.value_insert]
  split_ifs with h
  · rw [decide_eq_true h]
    rfl
  · rw [decide_eq_false h]
    rfl

theorem Wired.chatAddedToFolderList {s : FolderLists} (hs : Wired s) (folderId : Int) (chatData : ChatPointer)
    (order : Int) (isPinned : Bool) : Wired (handleChatAddedToFolderList s folderId chatData order isPinned) ∧
      ∀ id, view id (handleChatAddedToFolderList s folderId chatData order isPinned) =
        viewStep id (view id s) (.chatAddedToFolderList folderId chatData order isPinned) := by
  have hkeys := hs.keys folderId
  rw [handleChatAddedToFolderList]
  cases hmodel : s.folders.chatModels.value folderId with
  | some model =>
      cases hlist : s.lists.value folderId with
      | none => rw [hmodel, hlist] at hkeys; cases hkeys
      | some list =>
          dsimp only
          refine ⟨⟨hs.consistent, fun id => ?_, hs.main⟩, fun id => ?_⟩
          · dsimp only
            rw [isSome_value_insert, isSome_value_insert, hs.keys id]
          · unfold view viewStep
            dsimp only
            split_ifs with hid
            · subst hid
              rw [QHash.value_insert_self, QHash.value_insert_self, hmodel, hlist]
              simp [ChatListModel.chatList_handleChatAddedToList]
            · rw [QHash.value_insert_of_ne _ _ (Ne.symm hid), QHash.value_insert_of_ne _ _ (Ne.symm hid)]
  | none =>
      cases hlist : s.lists.value folderId with
      | some list => rw [hmodel, hlist] at hkeys; cases hkeys
      | none =>
          dsimp only
          rw [ChatFoldersModel.handleChatAddedToFolderList,
            if_neg (by rw [(QHash.contains_eq_false_iff _ _).mpr hmodel]; exact Bool.false_ne_true)]
          refine ⟨⟨hs.consistent, fun id => ?_, hs.main⟩, fun id => ?_⟩
          · dsimp only
            rw [isSome_value_insert, isSome_value_insert, hs.keys id]
          · unfold view viewStep
            dsimp only
            split_ifs with hid
            · subst hid
              rw [QHash.value_insert_self, QHash.value_insert_self, hmodel, hlist]
              simp [ChatListModel.chatList_handleChatAddedToList, ListMembers.new, ChatListModel.new]
            · rw [QHash.value_insert_of_ne _ _ (Ne.symm hid), QHash.value_insert_of_ne _ _ (Ne.symm hid)]

theorem Wired.chatFoldersUpdated {s s' : FolderLists} (hs : Wired s) {newChatFolders : QVariantList} {p : Int}
    (hupdate : IsUpdate newChatFolders p) (h : handleChatFoldersUpdated s newChatFolders p = some s') :
    Wired s' ∧ ∀ id, view id s' = viewStep id (view id s) (.chatFoldersUpdated newChatFolders p) := by
  obtain ⟨folders, hfolders, rfl⟩ := Option.map_eq_some_iff.mp h
  have hmodels := chatModels_handleChatFoldersUpdated hfolders
  refine ⟨⟨consistent_handleChatFoldersUpdated hs.consistent hupdate hfolders, fun id => ?_, hs.main⟩, fun id => ?_⟩
  · have hkeys := hs.keys id
    dsimp only
    rw [hmodels, QHash.value_insertMissing, QHash.value_insertMissing]
    split_ifs
    · simp
    · simpa using hkeys
  · have hkeys := hs.keys id
    unfold view viewStep
    dsimp only
    rw [hmodels, QHash.value_insertMissing, QHash.value_insertMissing]
    cases hmodel : s.folders.chatModels.value id with
    | some model =>
        cases hlist : s.lists.value id with
        | none => rw [hmodel, hlist] at hkeys; cases hkeys
        | some list => split_ifs <;> rfl
    | none =>
        cases hlist : s.lists.value id with
        | some list => rw [hmodel, hlist] at hkeys; cases hkeys
        | none => split_ifs <;> rfl

/-- **The lists refine the machine of each folder.** -/
theorem Wired.step {s s' : FolderLists} (hs : Wired s) {e : Event} (he : e.IsWellFormed)
    (h : FolderLists.step s e = some s') : Wired s' ∧ ∀ id, view id s' = viewStep id (view id s) e := by
  cases e with
  | chatFoldersUpdated newChatFolders p => exact hs.chatFoldersUpdated he h
  | chatAddedToFolderList folderId chatData order isPinned =>
      obtain rfl := Option.some.inj h
      exact hs.chatAddedToFolderList folderId chatData order isPinned
  | folderUnreadChatCountUpdated folderId chatCountInformation =>
      obtain rfl := Option.some.inj h
      rw [handleFolderUnreadChatCountUpdated]
      cases hlist : s.lists.value folderId with
      | none => exact ⟨hs, fun _ => rfl⟩
      | some list =>
          refine ⟨⟨hs.consistent, fun id => ?_, hs.main⟩, fun id => ?_⟩
          · dsimp only
            rw [isSome_value_insert, hs.keys id]
            by_cases hid : id = folderId
            · rw [hid, hlist, decide_eq_true rfl]
              rfl
            · rw [decide_eq_false hid, Bool.false_or]
          · unfold view viewStep
            dsimp only
            by_cases hid : id = folderId
            · rw [hid, QHash.value_insert_self, hlist]
              rfl
            · rw [QHash.value_insert_of_ne _ _ hid]
  | setRefreshTimerEnabled enabled =>
      obtain rfl := Option.some.inj h
      unfold setRefreshTimerEnabled
      by_cases hchange : s.refreshTimerEnabled ≠ enabled
      · rw [if_pos hchange]
        refine ⟨⟨hs.consistent, fun id => ?_, ?_⟩, fun id => ?_⟩
        · change _ = ((s.lists.value id).map _).isSome
          rw [Option.isSome_map]
          exact hs.keys id
        · exact ListMembers.setRefreshTimerEnabled_setting s.main enabled
        · unfold view viewStep
          dsimp only
          rw [if_pos hchange]
          change OneFolder.mk ((s.folders.chatModels.value id).bind fun model =>
            ((s.lists.value id).map _).map _) _ = _
          cases s.folders.chatModels.value id with
          | none => rfl
          | some model =>
              cases s.lists.value id with
              | none => rfl
              | some list => simp
      · rw [if_neg hchange]
        refine ⟨hs, fun id => ?_⟩
        unfold viewStep
        exact (if_neg hchange).symm

theorem run_none (es : List Event) : run (lift step) none es = none := by
  induction es with
  | nil => rfl
  | cons e es ih => exact ih

/-- **Runs.** A run of the lists is a run of the machine of each folder. -/
theorem Wired.run {s s' : FolderLists} (hs : Wired s) {es : List Event} (hes : ∀ e ∈ es, e.IsWellFormed)
    (h : Runs.run (lift FolderLists.step) (some s) es = some s') :
    Wired s' ∧ ∀ id, view id s' = Runs.run (viewStep id) (view id s) es := by
  induction es generalizing s with
  | nil =>
      obtain rfl := Option.some.inj h
      exact ⟨hs, fun _ => rfl⟩
  | cons e es ih =>
      rw [run_cons] at h
      change Runs.run (lift FolderLists.step) (FolderLists.step s e) es = some s' at h
      cases hstep : FolderLists.step s e with
      | none => rw [hstep, run_none] at h; cases h
      | some s₁ =>
          rw [hstep] at h
          obtain ⟨hs₁, hview⟩ := hs.step (hes e List.mem_cons_self) hstep
          obtain ⟨hs', hrun⟩ := ih hs₁ (fun e' he' => hes e' (List.mem_cons_of_mem _ he')) h
          exact ⟨hs', fun id => by rw [hrun id, hview id, run_cons]⟩

/-! ### Runs of the machine of one folder -/

section OneFolder

variable {folderId : Int}

theorem setting_run (v : OneFolder) (es : List Event) :
    (Runs.run (viewStep folderId) v es).setting = (lastOf settingOf es).getD v.setting := by
  refine read_run _ (fun v e => ?_) v es
  cases e with
  | chatFoldersUpdated newChatFolders p =>
      rw [viewStep]
      split_ifs <;> rfl
  | chatAddedToFolderList folderId' chatData order isPinned =>
      rw [viewStep]
      split_ifs <;> rfl
  | folderUnreadChatCountUpdated folderId' chatCountInformation => rfl
  | setRefreshTimerEnabled enabled =>
      rw [viewStep]
      split_ifs with h
      · rfl
      · exact not_not.mp h

/-- Without an event that needs it, the list is not made. -/
theorem list_run_of_not_creates {v : OneFolder} (hv : v.list = none) {es : List Event}
    (hes : ∀ e ∈ es, creates folderId e = false) : (Runs.run (viewStep folderId) v es).list = none := by
  induction es generalizing v with
  | nil => exact hv
  | cons e es ih =>
      refine ih ?_ fun e' he' => hes e' (List.mem_cons_of_mem _ he')
      have he := hes e List.mem_cons_self
      cases e with
      | chatFoldersUpdated newChatFolders p =>
          rw [viewStep, if_neg (by simpa [creates] using he)]
          exact hv
      | chatAddedToFolderList folderId' chatData order isPinned =>
          rw [viewStep, if_neg (by simpa [creates] using he)]
          exact hv
      | folderUnreadChatCountUpdated folderId' chatCountInformation => exact hv
      | setRefreshTimerEnabled enabled =>
          rw [viewStep]
          split_ifs
          · rw [hv]
            rfl
          · exact hv

/-- A list that was made stays connected or unconnected, and its timer gets in step with the others by the next
change of the setting. -/
theorem list_run_of_made {v : OneFolder} {list : OneList} (hv : v.list = some list) (es : List Event) :
    ∃ list', (Runs.run (viewStep folderId) v es).list = some list' ∧ list'.connected = list.connected ∧
      (list'.refreshTimerEnabled = (Runs.run (viewStep folderId) v es).setting ↔
        list.refreshTimerEnabled = v.setting ∨ .setRefreshTimerEnabled (!v.setting) ∈ es) := by
  induction es generalizing v list with
  | nil => exact ⟨list, hv, rfl, (or_iff_left List.not_mem_nil).symm⟩
  | cons e es ih =>
      have hsame : ∀ list₁ : OneList, (viewStep folderId v e).list = some list₁ →
          list₁.connected = list.connected → list₁.refreshTimerEnabled = list.refreshTimerEnabled →
          (viewStep folderId v e).setting = v.setting → e ≠ .setRefreshTimerEnabled (!v.setting) →
          ∃ list', (Runs.run (viewStep folderId) v (e :: es)).list = some list' ∧ list'.connected = list.connected ∧
            (list'.refreshTimerEnabled = (Runs.run (viewStep folderId) v (e :: es)).setting ↔
              list.refreshTimerEnabled = v.setting ∨ .setRefreshTimerEnabled (!v.setting) ∈ e :: es) := by
        intro list₁ hlist hconnected htimer hsetting hne
        obtain ⟨list', hlist', hconnected', htimer'⟩ := ih hlist
        refine ⟨list', hlist', hconnected'.trans hconnected, htimer'.trans ?_⟩
        rw [htimer, hsetting, List.mem_cons]
        exact or_congr_right (or_iff_right hne.symm).symm
      cases e with
      | chatFoldersUpdated newChatFolders p =>
          refine hsame list ?_ rfl rfl ?_ nofun
          · rw [viewStep, hv]
            split_ifs
            · rfl
            · exact hv
          · rw [viewStep]
            split_ifs <;> rfl
      | chatAddedToFolderList folderId' chatData order isPinned =>
          rw [viewStep] at hsame
          split_ifs at hsame with hid
          · exact hsame _ rfl (by rw [hv]; rfl) (by rw [hv]; rfl) rfl nofun
          · exact hsame list hv rfl rfl rfl nofun
      | folderUnreadChatCountUpdated folderId' chatCountInformation => exact hsame list hv rfl rfl rfl nofun
      | setRefreshTimerEnabled enabled =>
          by_cases hchange : v.setting ≠ enabled
          · have hstep : viewStep folderId v (.setRefreshTimerEnabled enabled) =
                { list := some { list with refreshTimerEnabled := enabled }, setting := enabled } := by
              rw [viewStep, if_pos hchange, hv]
              rfl
            obtain ⟨list', hlist', hconnected', htimer'⟩ := ih (congrArg OneFolder.list hstep)
            refine ⟨list', hlist', hconnected', htimer'.trans (iff_of_true ?_ (Or.inr ?_))⟩
            · rw [hstep]
              exact Or.inl rfl
            · have hnot : enabled = !v.setting := Bool.eq_not_of_ne hchange.symm
              rw [hnot]
              exact List.mem_cons_self
          · have hstep : viewStep folderId v (.setRefreshTimerEnabled enabled) = v := if_neg hchange
            refine hsame list (by rw [hstep]; exact hv) rfl rfl (by rw [hstep]) fun heq => ?_
            obtain rfl := Event.setRefreshTimerEnabled.inj heq
            exact hchange (by simp)

/-- The rows are the chats that were added, each put above those it is not behind. -/
theorem rows_run (v : OneFolder) (es : List Event) :
    ((Runs.run (viewStep folderId) v es).list.elim [] OneList.rows) =
      (es.filterMap (added folderId)).foldl (fun rows chat => rows.orderedInsert Above chat)
        (v.list.elim [] OneList.rows) := by
  induction es generalizing v with
  | nil => rfl
  | cons e es ih =>
      rw [run_cons, ih, List.filterMap_cons]
      cases e with
      | chatFoldersUpdated newChatFolders p =>
          dsimp only [added]
          rw [viewStep]
          congr 1
          split_ifs
          · cases v.list <;> rfl
          · rfl
      | chatAddedToFolderList folderId' chatData order isPinned =>
          rw [viewStep, added]
          split_ifs
          · cases v.list <;> rfl
          · rfl
      | folderUnreadChatCountUpdated folderId' chatCountInformation => rfl
      | setRefreshTimerEnabled enabled =>
          dsimp only [added]
          rw [viewStep]
          congr 1
          split_ifs
          · cases v.list <;> rfl
          · rfl

end OneFolder

end FolderLists

end YaqtLib
