import YaqtLib.FolderListsOrder

/-! What the order of the events makes of the list of a folder: when its rows, its timer and the announcements of its
count are those that any order gives. -/

namespace YaqtLib

open Containers IndexMap Runs ChatFoldersModel ListChatData

namespace FolderLists

/-- The chats that were added, sorted. -/
def sortedRows (chats : List ListChatData) : List ListChatData :=
  chats.foldl (fun rows chat => rows.orderedInsert Above chat) []

theorem sortedRows_eq (chats : List ListChatData) : sortedRows chats = chats.reverse.insertionSort Above := by
  have h : ∀ l : List ListChatData, l.insertionSort Above = l.foldr (List.orderedInsert Above) [] := by
    intro l
    induction l with
    | nil => rfl
    | cons chat l ih => exact congrArg (List.orderedInsert Above chat) ih
  rw [h, List.foldr_reverse, sortedRows]

/-- Chats with the same id and order are the same entry. -/
def Untied (chats : List ListChatData) : Prop :=
  ∀ a ∈ chats, ∀ b ∈ chats, a.chatId = b.chatId → a.order = b.order → a = b

instance (chats : List ListChatData) : Decidable (Untied chats) :=
  inferInstanceAs (Decidable (∀ a ∈ chats, ∀ b ∈ chats, _))

theorem sortedRows_perm {chats chats' : List ListChatData} (hperm : chats'.Perm chats) (h : Untied chats) :
    sortedRows chats' = sortedRows chats := by
  rw [sortedRows_eq, sortedRows_eq]
  have hmem : ∀ {a}, a ∈ chats.reverse.insertionSort Above → a ∈ chats :=
    fun ha => List.mem_reverse.mp ((List.mem_insertionSort Above).mp ha)
  have hsort : (chats'.reverse.insertionSort Above).Perm (chats.reverse.insertionSort Above) :=
    calc List.Perm (chats'.reverse.insertionSort Above) chats'.reverse := List.perm_insertionSort Above _
      List.Perm _ chats' := List.reverse_perm _
      List.Perm _ chats := hperm
      List.Perm _ chats.reverse := (List.reverse_perm _).symm
      List.Perm _ (chats.reverse.insertionSort Above) := (List.perm_insertionSort Above _).symm
  refine hsort.eq_of_pairwise (fun a b ha hb hab hba => ?_) (List.pairwise_insertionSort Above _)
    (List.pairwise_insertionSort Above _)
  obtain ⟨hid, horder⟩ := hab.tied hba
  exact h a (hmem (hsort.subset ha)) b (hmem hb) hid horder

/-- Of the entries with the id and the order of a chat, the one added first is the last. -/
theorem getLast?_tied (chat : ListChatData) (chats : List ListChatData) :
    ((sortedRows (chat :: chats)).filter fun other =>
      other.chatId = chat.chatId ∧ other.order = chat.order).getLast? = some chat := by
  have hfilter : ∀ l : List ListChatData, (l.insertionSort Above).filter (fun other =>
      other.chatId = chat.chatId ∧ other.order = chat.order) =
        l.filter fun other => other.chatId = chat.chatId ∧ other.order = chat.order := by
    intro l
    induction l with
    | nil => rfl
    | cons other l ih =>
        rw [List.insertionSort_cons, filter_orderedInsert, List.filter_cons, ih, List.filter_cons]
        intro b hother hb
        simp only [decide_eq_true_eq] at hother hb
        unfold Above Precedes
        omega
  rw [sortedRows_eq, hfilter, List.reverse_cons, List.filter_append]
  simp

/-- The setting of the timers after the events. -/
def settingAfter (es : List Event) : Bool := (lastOf settingOf es).getD false

/-- The order of the events is harmless: no chat comes twice with the same order and another pin, the timers are not
on when the list of the folder is made (or are switched off later), and a chat is what the list is made for. -/
structure Harmless (folderId : Int) (es : List Event) : Prop where
  untied : Untied (es.filterMap (added folderId))
  timer : settingAfter (es.takeWhile fun e => !creates folderId e) = false ∨
    .setRefreshTimerEnabled false ∈ es.dropWhile fun e => !creates folderId e
  chatFirst : ∃ chatData order isPinned rest,
    (es.dropWhile fun e => !creates folderId e) = .chatAddedToFolderList folderId chatData order isPinned :: rest

/-- The events after which the folder has a row: updates are well formed and name the folder. -/
def Event.Names (folderId : Int) : Event → Prop
  | .chatFoldersUpdated newChatFolders p => IsUpdate newChatFolders p ∧ folderId ∈ idsOf newChatFolders
  | _ => True

/-- The rows of the list of a folder. -/
def rowsOfList (folderId : Int) (s : FolderLists) : Option (List ListChatData) :=
  (s.folders.chatModels.value folderId).map ChatListModel.chatList

/-- A change of the count of the folder is announced for its row. -/
def Announces (folderId : Int) (s : FolderLists) : Prop :=
  ∀ chatCountInformation, ∃ row chatFolder, s.folders.chatFolders[row]? = some chatFolder ∧
    chatFolder.key = some folderId ∧
    (handleFolderUnreadChatCountUpdated s folderId chatCountInformation).2 =
      [{ row := row, roles := [.unreadChatCount] }]

/-- The list of the folder is the one that any other order of the events makes: the same rows, the timer of the main
list, and every later change of the count announced. -/
structure Settled (folderId : Int) (es : List Event) (s : FolderLists) : Prop where
  rows : ∀ es', es'.Perm es → ∀ s', Runs.run (lift step) (some new) es' = some s' →
    rowsOfList folderId s' = rowsOfList folderId s
  timer : ∀ list, s.lists.value folderId = some list → list.members.refreshTimerEnabled = s.main.refreshTimerEnabled
  announced : ∀ later s', (∀ e ∈ later, e.Names folderId) → Runs.run (lift step) (some s) later = some s' →
    Announces folderId s'

section Folder

variable {folderId : Int}

/-- The first event that needs the list, with those before and after it. -/
theorem exists_creator {es : List Event} (hmade : ∃ e ∈ es, creates folderId e = true) : ∃ e rest,
    (es.dropWhile fun e => !creates folderId e) = e :: rest ∧ creates folderId e = true ∧
      ∀ e ∈ es.takeWhile fun e => !creates folderId e, creates folderId e = false := by
  induction es with
  | nil =>
      obtain ⟨e, he, -⟩ := hmade
      exact absurd he List.not_mem_nil
  | cons e es ih =>
      by_cases he : creates folderId e = true
      · refine ⟨e, es, ?_, he, ?_⟩
        · rw [List.dropWhile_cons, he]
          rfl
        · rw [List.takeWhile_cons, he]
          exact fun e he => absurd he List.not_mem_nil
      · rw [Bool.not_eq_true] at he
        obtain ⟨e', he', hcreates⟩ := hmade
        have hmem : e' ∈ es := by
          refine (List.mem_cons.mp he').resolve_left fun heq => ?_
          rw [heq, he] at hcreates
          exact Bool.false_ne_true hcreates
        obtain ⟨creator, rest, hdrop, hcreator, hbefore⟩ := ih ⟨e', hmem, hcreates⟩
        refine ⟨creator, rest, ?_, hcreator, ?_⟩
        · rw [List.dropWhile_cons, he]
          exact hdrop
        · rw [List.takeWhile_cons, he]
          intro e'' he''
          rcases List.mem_cons.mp he'' with rfl | he''
          · exact he
          · exact hbefore e'' he''

/-- The event that makes the list makes it with the timer off; only a chat connects it. -/
theorem viewStep_creator {v : OneFolder} (hv : v.list = none) {e : Event} (he : creates folderId e = true) :
    (viewStep folderId v e).setting = v.setting ∧ ∃ list, (viewStep folderId v e).list = some list ∧
      list.refreshTimerEnabled = false ∧ (list.connected = true ↔
        ∃ chatData order isPinned, e = .chatAddedToFolderList folderId chatData order isPinned) := by
  cases e with
  | chatFoldersUpdated newChatFolders p =>
      rw [viewStep, if_pos (by simpa [creates] using he), hv]
      exact ⟨rfl, _, rfl, rfl, iff_of_false Bool.false_ne_true (by rintro ⟨_, _, _, heq⟩; cases heq)⟩
  | chatAddedToFolderList folderId' chatData order isPinned =>
      obtain rfl : folderId' = folderId := by simpa [creates] using he
      rw [viewStep, if_pos rfl, hv]
      exact ⟨rfl, _, rfl, rfl, iff_of_true rfl ⟨chatData, order, isPinned, rfl⟩⟩
  | folderUnreadChatCountUpdated folderId' chatCountInformation => exact absurd he Bool.false_ne_true
  | setRefreshTimerEnabled enabled => exact absurd he Bool.false_ne_true

/-- The list of a folder after the events: whether it is connected and in step depends on the event that made it. -/
theorem made_run {es : List Event} (hmade : ∃ e ∈ es, creates folderId e = true) :
    ∃ list, (Runs.run (viewStep folderId) { list := none, setting := false } es).list = some list ∧
      list.rows = sortedRows (es.filterMap (added folderId)) ∧
      (list.connected = true ↔ ∃ chatData order isPinned rest,
        (es.dropWhile fun e => !creates folderId e) = .chatAddedToFolderList folderId chatData order isPinned :: rest) ∧
      (list.refreshTimerEnabled = (Runs.run (viewStep folderId) { list := none, setting := false } es).setting ↔
        settingAfter (es.takeWhile fun e => !creates folderId e) = false ∨
          .setRefreshTimerEnabled false ∈ es.dropWhile fun e => !creates folderId e) := by
  obtain ⟨e, rest, hdrop, he, hbefore⟩ := exists_creator hmade
  have hrows := @rows_run folderId { list := none, setting := false } es
  have hsetting := @setting_run folderId { list := none, setting := false } (es.takeWhile fun e => !creates folderId e)
  have hnone := @list_run_of_not_creates folderId { list := none, setting := false } rfl _ hbefore
  have hrun : Runs.run (viewStep folderId) { list := none, setting := false } es =
      Runs.run (viewStep folderId) (viewStep folderId (Runs.run (viewStep folderId) { list := none, setting := false }
        (es.takeWhile fun e => !creates folderId e)) e) rest := by
    rw [← run_cons, ← run_append, ← hdrop, List.takeWhile_append_dropWhile]
  obtain ⟨hkept, list, hlist, htimer, hconnected⟩ := viewStep_creator hnone he
  obtain ⟨list', hlist', hconnected', htimer'⟩ := list_run_of_made hlist rest
  rw [← hrun] at hlist' htimer'
  refine ⟨list', hlist', ?_, ?_, htimer'.trans ?_⟩
  · rw [hlist'] at hrows
    exact hrows
  · rw [hconnected', hconnected, hdrop]
    constructor
    · rintro ⟨chatData, order, isPinned, rfl⟩
      exact ⟨chatData, order, isPinned, rest, rfl⟩
    · rintro ⟨chatData, order, isPinned, rest', heq⟩
      exact ⟨chatData, order, isPinned, (List.cons.inj heq).1⟩
  · have hcons : ∀ b, Event.setRefreshTimerEnabled b ∈ rest ↔ Event.setRefreshTimerEnabled b ∈ e :: rest := by
      intro b
      rw [List.mem_cons]
      refine (or_iff_right ?_).symm
      rintro rfl
      exact Bool.false_ne_true he
    rw [htimer, hkept, hsetting, hcons, hdrop]
    change false = settingAfter _ ∨ Event.setRefreshTimerEnabled (!settingAfter _) ∈ _ ↔ _
    cases settingAfter (es.takeWhile fun e => !creates folderId e) with
    | false => exact iff_of_true (Or.inl rfl) (Or.inl rfl)
    | true => exact or_congr eq_comm Iff.rfl

/-! ### The row of the folder -/

theorem exists_row_of_update {m m' : ChatFoldersModel} {newChatFolders : QVariantList} {p : Int}
    (h : m.handleChatFoldersUpdated newChatFolders p = some m') (hid : folderId ∈ idsOf newChatFolders) :
    ∃ row ∈ m'.chatFolders, row.key = some folderId := by
  have hne : ∀ (folders : List QVariantMap) (rows : List ChatFolderData), folders ≠ [] ∨ rows ≠ [] →
      folders.foldl applyObject rows ≠ [] := by
    intro folders
    induction folders with
    | nil => exact fun rows h => h.resolve_left fun h => h rfl
    | cons folder folders ih =>
        intro rows _
        refine ih _ (Or.inr ?_)
        rw [applyObject]
        split_ifs with hempty
        · exact List.cons_ne_nil _ _
        · simpa using hempty
  have hperm := (rowsOf_handleChatFoldersUpdated h).1 folderId hid
  obtain ⟨row, hrow⟩ := List.exists_mem_of_ne_nil _ (hne _ (rowsOf folderId m.chatFolders)
    (Or.inl (mem_idsOf_iff.mp hid)))
  exact ⟨row, mem_rowsOf.mp (hperm.mem_iff.mpr hrow)⟩

theorem chatFolders_step {s s' : FolderLists} {e : Event} (h : FolderLists.step s e = some s')
    (he : ∀ newChatFolders p, e ≠ .chatFoldersUpdated newChatFolders p) :
    s'.folders.chatFolders = s.folders.chatFolders := by
  cases e with
  | chatFoldersUpdated newChatFolders p => exact absurd rfl (he newChatFolders p)
  | chatAddedToFolderList folderId chatData order isPinned =>
      obtain rfl := Option.some.inj h
      rw [handleChatAddedToFolderList]
      split
      · rfl
      · dsimp only
        rw [ChatFoldersModel.handleChatAddedToFolderList]
        split_ifs <;> rfl
  | folderUnreadChatCountUpdated folderId chatCountInformation =>
      obtain rfl := Option.some.inj h
      rw [handleFolderUnreadChatCountUpdated]
      split <;> rfl
  | setRefreshTimerEnabled enabled =>
      obtain rfl := Option.some.inj h
      rw [setRefreshTimerEnabled]
      split_ifs <;> rfl

/-- Once an update has named the folder, it has a row. -/
theorem exists_row_run {s s' : FolderLists} {es : List Event} (hes : ∀ e ∈ es, e.Names folderId)
    (hrow : (∃ row ∈ s.folders.chatFolders, row.key = some folderId) ∨
      ∃ newChatFolders p, .chatFoldersUpdated newChatFolders p ∈ es)
    (h : Runs.run (lift step) (some s) es = some s') : ∃ row ∈ s'.folders.chatFolders, row.key = some folderId := by
  induction es generalizing s with
  | nil =>
      obtain rfl := Option.some.inj h
      exact hrow.resolve_right fun ⟨_, _, hmem⟩ => List.not_mem_nil hmem
  | cons e es ih =>
      rw [run_cons] at h
      change Runs.run (lift step) (step s e) es = some s' at h
      cases hstep : step s e with
      | none => rw [hstep, run_none] at h; cases h
      | some s₁ =>
          rw [hstep] at h
          refine ih (fun e' he' => hes e' (List.mem_cons_of_mem _ he')) ?_ h
          have hnames := hes e List.mem_cons_self
          by_cases hupdate : ∃ newChatFolders p, e = .chatFoldersUpdated newChatFolders p
          · obtain ⟨newChatFolders, p, rfl⟩ := hupdate
            obtain ⟨folders, hfolders, rfl⟩ := Option.map_eq_some_iff.mp hstep
            exact Or.inl (exists_row_of_update hfolders hnames.2)
          · push Not at hupdate
            rw [chatFolders_step hstep hupdate]
            refine hrow.imp_right fun ⟨newChatFolders, p, hmem⟩ => ⟨newChatFolders, p, ?_⟩
            exact (List.mem_cons.mp hmem).resolve_left (hupdate newChatFolders p).symm

/-- The count of a folder that has a row is announced exactly if its list is connected. -/
theorem announces_iff {s : FolderLists} (hs : Wired s) (hid : folderId ≠ 0)
    (hrow : ∃ row ∈ s.folders.chatFolders, row.key = some folderId) {list : OneList}
    (hlist : (view folderId s).list = some list) : Announces folderId s ↔ list.connected = true := by
  obtain ⟨model, -, hmap⟩ := Option.bind_eq_some_iff.mp hlist
  obtain ⟨members, hmembers, rfl⟩ := Option.map_eq_some_iff.mp hmap
  obtain ⟨chatFolder, hmem, hkey⟩ := hrow
  obtain ⟨row, hget⟩ := List.mem_iff_getElem?.mp hmem
  have hvalue : s.folders.chatFoldersIndexMap.value folderId = some row := by
    rw [← QHash.value_remove_of_ne _ hid]
    exact (hs.consistent.indexed folderId row).mpr ⟨chatFolder, hget, hkey⟩
  have hsignals : ∀ info, (handleFolderUnreadChatCountUpdated s folderId info).2 =
      if members.connected then [{ row := row, roles := [.unreadChatCount] }] else [] := by
    intro info
    rw [handleFolderUnreadChatCountUpdated, hmembers]
    dsimp only
    rw [handleFolderChatListUnreadChatCountChanged, hvalue]
  constructor
  · intro h
    obtain ⟨row', -, -, -, heq⟩ := h []
    rw [hsignals] at heq
    split_ifs at heq with hconnected
    exact hconnected
  · intro hconnected info
    refine ⟨row, chatFolder, hget, hkey, ?_⟩
    rw [hsignals, if_pos hconnected]

/-! ### The rows of the folders, without the lists -/

/-- The rows of the folders after one event. -/
def foldersStep (m : ChatFoldersModel) : Event → Option ChatFoldersModel
  | .chatFoldersUpdated newChatFolders p =>
      (m.handleChatFoldersUpdated newChatFolders p).map fun m' => m'.withModels QHash.empty
  | _ => some m

def isUpdate : Event → Bool
  | .chatFoldersUpdated .. => true
  | _ => false

theorem step_folders (s : FolderLists) (e : Event) :
    (step s e).map (fun s' => s'.folders.withModels QHash.empty) =
      foldersStep (s.folders.withModels QHash.empty) e := by
  cases e with
  | chatFoldersUpdated newChatFolders p =>
      rw [foldersStep, handleChatFoldersUpdated_withModels, step, FolderLists.handleChatFoldersUpdated]
      cases s.folders.handleChatFoldersUpdated newChatFolders p <;> rfl
  | chatAddedToFolderList folderId chatData order isPinned =>
      refine congrArg some ?_
      rw [handleChatAddedToFolderList]
      split
      · rfl
      · dsimp only
        rw [ChatFoldersModel.handleChatAddedToFolderList]
        split_ifs <;> rfl
  | folderUnreadChatCountUpdated folderId chatCountInformation =>
      refine congrArg some ?_
      rw [handleFolderUnreadChatCountUpdated]
      split <;> rfl
  | setRefreshTimerEnabled enabled =>
      refine congrArg some ?_
      rw [setRefreshTimerEnabled]
      split_ifs <;> rfl

theorem run_folders (s : Option FolderLists) (es : List Event) :
    (Runs.run (lift step) s es).map (fun s' => s'.folders.withModels QHash.empty) =
      Runs.run (lift foldersStep) (s.map fun s => s.folders.withModels QHash.empty) (es.filter isUpdate) := by
  induction es generalizing s with
  | nil => rfl
  | cons e es ih =>
      rw [run_cons, ih]
      have hstep : (lift step s e).map (fun s' => s'.folders.withModels QHash.empty) =
          lift foldersStep (s.map fun s => s.folders.withModels QHash.empty) e := by
        cases s with
        | none => rfl
        | some s => exact step_folders s e
      rw [hstep, List.filter_cons]
      split_ifs with hupdate
      · rfl
      · congr 1
        cases s with
        | none => rfl
        | some s => cases e <;> first | rfl | exact absurd rfl hupdate

/-- Which events are defined depends on the updates only. -/
theorem isSome_run_of_updates {es es' : List Event} (h : es.filter isUpdate = es'.filter isUpdate)
    {s : FolderLists} (hrun : Runs.run (lift step) (some new) es = some s) :
    ∃ s', Runs.run (lift step) (some new) es' = some s' := by
  have hmap := (run_folders (some new) es).trans ((congrArg _ h).trans (run_folders (some new) es').symm)
  rw [hrun] at hmap
  cases hrun' : Runs.run (lift step) (some new) es' with
  | none => rw [hrun'] at hmap; cases hmap
  | some s' => exact ⟨s', rfl⟩

/-! ### When the list is settled -/

theorem exists_creates {es : List Event} (hes : ∀ e ∈ es, e.Names folderId)
    (hupdate : ∃ newChatFolders p, .chatFoldersUpdated newChatFolders p ∈ es) :
    ∃ e ∈ es, creates folderId e = true := by
  obtain ⟨newChatFolders, p, hmem⟩ := hupdate
  exact ⟨_, hmem, decide_eq_true (hes _ hmem).2⟩

theorem Event.Names.isWellFormed {e : Event} (h : e.Names folderId) : e.IsWellFormed := by
  cases e with
  | chatFoldersUpdated newChatFolders p => exact h.1
  | _ => trivial

/-- What a run that names the folder leaves of it. -/
theorem view_run {s : FolderLists} {es : List Event} (hes : ∀ e ∈ es, e.Names folderId)
    (hrun : Runs.run (lift step) (some new) es = some s) :
    Wired s ∧ view folderId s = Runs.run (viewStep folderId) { list := none, setting := false } es := by
  obtain ⟨hs, hview⟩ := wired_new.run (fun e he => (hes e he).isWellFormed) hrun
  exact ⟨hs, hview folderId⟩

theorem rowsOfList_run {s : FolderLists} {es : List Event} (hes : ∀ e ∈ es, e.Names folderId)
    (hupdate : ∃ newChatFolders p, .chatFoldersUpdated newChatFolders p ∈ es)
    (hrun : Runs.run (lift step) (some new) es = some s) :
    rowsOfList folderId s = some (sortedRows (es.filterMap (added folderId))) := by
  obtain ⟨list, hlist, hrows, -, -⟩ := made_run (exists_creates hes hupdate)
  rw [← (view_run hes hrun).2] at hlist
  obtain ⟨model, hmodel, hmap⟩ := Option.bind_eq_some_iff.mp hlist
  obtain ⟨members, -, rfl⟩ := Option.map_eq_some_iff.mp hmap
  rw [rowsOfList, hmodel, ← hrows]
  rfl

/-- The rows are the same in every order exactly if no two entries tie. -/
theorem rows_settled_iff {s : FolderLists} {es : List Event} (hes : ∀ e ∈ es, e.Names folderId)
    (hupdate : ∃ newChatFolders p, .chatFoldersUpdated newChatFolders p ∈ es)
    (hrun : Runs.run (lift step) (some new) es = some s) :
    (∀ es', es'.Perm es → ∀ s', Runs.run (lift step) (some new) es' = some s' →
      rowsOfList folderId s' = rowsOfList folderId s) ↔ Untied (es.filterMap (added folderId)) := by
  have hrows : ∀ es', es'.Perm es → ∀ s', Runs.run (lift step) (some new) es' = some s' →
      rowsOfList folderId s' = some (sortedRows (es'.filterMap (added folderId))) := by
    intro es' hperm s' hrun'
    obtain ⟨newChatFolders, p, hmem⟩ := hupdate
    exact rowsOfList_run (fun e he => hes e (hperm.subset he)) ⟨newChatFolders, p, hperm.symm.subset hmem⟩ hrun'
  rw [rowsOfList_run hes hupdate hrun]
  constructor
  · intro hsame a ha b hb hid horder
    -- each of the two can come first
    have hfirst : ∀ chat ∈ es.filterMap (added folderId), ∃ rest,
        sortedRows (chat :: rest) = sortedRows (es.filterMap (added folderId)) := by
      intro chat hchat
      obtain ⟨e, he, hadded⟩ := List.mem_filterMap.mp hchat
      obtain ⟨pre, post, rfl⟩ := List.append_of_mem he
      have hnot : isUpdate e = false := by
        cases e with
        | chatFoldersUpdated newChatFolders p => cases hadded
        | _ => rfl
      have hupdates : (pre ++ e :: post).filter isUpdate = (e :: (pre ++ post)).filter isUpdate := by
        simp [List.filter_append, hnot]
      obtain ⟨s', hrun'⟩ := isSome_run_of_updates hupdates hrun
      have heq := (hrows _ List.perm_middle.symm s' hrun').symm.trans (hsame _ List.perm_middle.symm s' hrun')
      rw [List.filterMap_cons, hadded] at heq
      exact ⟨_, Option.some.inj heq⟩
    obtain ⟨rest, hrest⟩ := hfirst a ha
    obtain ⟨rest', hrest'⟩ := hfirst b hb
    have hlast := getLast?_tied a rest
    have hlast' := getLast?_tied b rest'
    rw [hrest, hid, horder] at hlast
    rw [hrest', hlast] at hlast'
    exact Option.some.inj hlast'
  · intro huntied es' hperm s' hrun'
    rw [hrows es' hperm s' hrun', sortedRows_perm (hperm.filterMap _) huntied]

/-- **The list of a folder, whichever update came first.** After any events that name the folder its list is the one
that every order of the events makes, with the timer of the main list and its later counts announced, exactly if the
order of the events is harmless. -/
theorem settled_iff (folderId : Int) (es : List Event) (hes : ∀ e ∈ es, e.Names folderId)
    (hupdate : ∃ newChatFolders p, .chatFoldersUpdated newChatFolders p ∈ es) (s : FolderLists)
    (hrun : Runs.run (lift step) (some new) es = some s) : Settled folderId es s ↔ Harmless folderId es := by
  obtain ⟨hs, hview⟩ := view_run hes hrun
  obtain ⟨list, hlist, -, hconnected, htimer⟩ := made_run (exists_creates hes hupdate)
  rw [← hview] at hlist htimer
  have hid : folderId ≠ 0 := by
    obtain ⟨newChatFolders, p, hmem⟩ := hupdate
    obtain ⟨⟨-, hzero, -⟩, hnamed⟩ := hes _ hmem
    exact fun hzero' => hzero (hzero' ▸ hnamed)
  have htimers : (∀ members, s.lists.value folderId = some members →
      members.members.refreshTimerEnabled = s.main.refreshTimerEnabled) ↔
        list.refreshTimerEnabled = (view folderId s).setting := by
    obtain ⟨model, -, hmap⟩ := Option.bind_eq_some_iff.mp hlist
    obtain ⟨members, hmembers, rfl⟩ := Option.map_eq_some_iff.mp hmap
    rw [hs.main, hmembers]
    exact ⟨fun h => h members rfl, fun h members' heq => Option.some.inj heq ▸ h⟩
  have hannounced : (∀ later s', (∀ e ∈ later, e.Names folderId) → Runs.run (lift step) (some s) later = some s' →
      Announces folderId s') ↔ list.connected = true := by
    constructor
    · intro h
      exact (announces_iff hs hid (exists_row_run hes (Or.inr hupdate) hrun) hlist).mp
        (h [] s (fun e he => absurd he List.not_mem_nil) rfl)
    · intro h later s' hlater hrun'
      obtain ⟨hs', hview'⟩ := hs.run (fun e he => (hlater e he).isWellFormed) hrun'
      obtain ⟨list', hlist', hconnected', -⟩ := list_run_of_made hlist later
      rw [← hview' folderId] at hlist'
      refine (announces_iff hs' hid ?_ hlist').mpr (hconnected'.trans h)
      exact exists_row_run hlater (Or.inl (exists_row_run hes (Or.inr hupdate) hrun)) hrun'
  constructor
  · intro h
    exact ⟨(rows_settled_iff hes hupdate hrun).mp h.rows, htimer.mp (htimers.mp h.timer),
      hconnected.mp (hannounced.mp h.announced)⟩
  · intro h
    exact ⟨(rows_settled_iff hes hupdate hrun).mpr h.untied, htimers.mpr (htimer.mpr h.timer),
      hannounced.mpr (hconnected.mpr h.chatFirst)⟩

end Folder

/-- A chat comes first, then the update of the folders. -/
theorem settled_chat_first : ∃ s, Runs.run (lift step) (some new) [.chatAddedToFolderList 1 ⟨0, 5⟩ 10 false,
      .chatFoldersUpdated [folderOf 1] 0, .setRefreshTimerEnabled true] = some s ∧
    Settled 1 [.chatAddedToFolderList 1 ⟨0, 5⟩ 10 false, .chatFoldersUpdated [folderOf 1] 0,
      .setRefreshTimerEnabled true] s := by
  refine ⟨_, rfl, (settled_iff 1 _ ?_ ⟨[folderOf 1], 0, by simp⟩ _ rfl).mpr ⟨by decide, Or.inl rfl, ?_⟩⟩
  · simp only [List.forall_mem_cons, Event.Names]
    exact ⟨trivial, by decide, trivial, fun e he => absurd he List.not_mem_nil⟩
  · exact ⟨⟨0, 5⟩, 10, false, _, rfl⟩

/-- The update of the folders comes first: a change of the count is not announced, and the timer of the list stays off
while that of the main list is on. -/
theorem not_settled : ¬ ∀ s, Runs.run (lift step) (some new) [.setRefreshTimerEnabled true,
      .chatFoldersUpdated [folderOf 1] 0, .chatAddedToFolderList 1 ⟨0, 5⟩ 10 false] = some s →
    Settled 1 [.setRefreshTimerEnabled true, .chatFoldersUpdated [folderOf 1] 0,
      .chatAddedToFolderList 1 ⟨0, 5⟩ 10 false] s := by
  intro h
  exact Bool.false_ne_true ((h _ rfl).timer _ rfl)

end FolderLists

end YaqtLib
