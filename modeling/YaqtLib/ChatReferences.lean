import YaqtLib.ChatLists
import YaqtLib.Runs

/-! The rows of the chat lists point to the chats of the store. The pointers stay right as long as no chat
is stored anew while a list has a row for it, and the store is not emptied while a folder's list has rows. -/

namespace YaqtLib

open Containers IndexMap Runs TdConst

namespace ChatListModel

/-- The chats the rows point to. -/
def pointers (m : ChatListModel) : List ChatPointer := m.chatList.map ListChatData.data

theorem mem_pointers_handleChatAddedToList (m : ChatListModel) (chat : ChatPointer) (order : Int) (isPinned : Bool)
    (p : ChatPointer) :
    p ∈ (handleChatAddedToList m chat order isPinned).pointers ↔ p = chat ∨ p ∈ m.pointers := by
  rw [pointers, handleChatAddedToList]
  dsimp only
  have hle := (List.takeWhile_sublist (fun other : ListChatData =>
    decide (0 ≤ ListChatData.compareTo { data := chat, order := order, isPinned := isPinned } other))
    (l := m.chatList)).length_le
  rw [List.map_insertIdx, List.mem_insertIdx (by simpa using hle), pointers]

theorem pointers_handleChatRemovedFromList (m : ChatListModel) (chatId : Int) :
    (handleChatRemovedFromList m chatId).pointers ⊆ m.pointers := by
  rw [handleChatRemovedFromList]
  split
  · exact List.Subset.refl _
  · exact ((List.eraseIdx_sublist _ _).map _).subset

theorem pointers_updateChatOrder (m : ChatListModel) (chat : ListChatData) (i : Nat) :
    (updateChatOrder m chat i).1.pointers ⊆ m.pointers := by
  rw [updateChatOrder]
  split_ifs
  · exact List.Subset.refl _
  · exact ((move_perm _ _ _).map _).subset
  · exact ((move_perm _ _ _).map _).subset

theorem pointers_updateChatIsPinned (m : ChatListModel) (i : Nat) (isPinned : Bool) :
    (updateChatIsPinned m i isPinned).pointers = m.pointers := by
  rw [pointers, updateChatIsPinned, pointers]
  dsimp only
  refine List.ext_getElem? fun j => ?_
  rw [List.getElem?_map, List.getElem?_map, List.getElem?_modify]
  cases m.chatList[j]? with
  | none => rfl
  | some chat =>
      simp only [Option.map_eq_map, Option.map_some]
      split_ifs <;> rfl

theorem pointers_handleChatPositionUpdated (m : ChatListModel) (chatId order : Int) (isPinned : Bool) :
    (handleChatPositionUpdated m chatId order isPinned).pointers ⊆ m.pointers := by
  rw [handleChatPositionUpdated]
  cases hindex : m.chatIndexMap.value chatId with
  | none => exact List.Subset.refl _
  | some chatIndex =>
      dsimp only
      cases hchat : m.chatList[chatIndex]? with
      | none => exact List.Subset.refl _
      | some chat =>
          dsimp only
          rw [pointers_updateChatIsPinned]
          refine List.Subset.trans (pointers_updateChatOrder _ _ _) fun p hp => ?_
          obtain ⟨row, hrow, rfl⟩ := List.mem_map.mp hp
          rcases List.mem_or_eq_of_mem_set hrow with hrow | rfl
          · exact List.mem_map_of_mem hrow
          · exact List.mem_map.mpr ⟨chat, List.mem_of_getElem? hchat, rfl⟩

end ChatListModel

/-- The chats a signal brings to a list. -/
def Signal.added : Signal → List ChatPointer
  | .chatAddedToList _ chat _ _ => [chat]
  | _ => []

theorem Signal.mem_pointers_slot {signal : Signal} {model : ChatListModel} {p : ChatPointer}
    (h : p ∈ (signal.slot model).pointers) : p ∈ signal.added ∨ p ∈ model.pointers := by
  cases signal with
  | chatAddedToList chatList chat order isPinned =>
      rcases (ChatListModel.mem_pointers_handleChatAddedToList model chat order isPinned p).mp h with rfl | h
      · exact Or.inl (List.mem_singleton_self p)
      · exact Or.inr h
  | chatRemovedFromList chatList chatId =>
      exact Or.inr (ChatListModel.pointers_handleChatRemovedFromList model chatId h)
  | chatListChatPositionUpdated chatList chatId order isPinned =>
      exact Or.inr (ChatListModel.pointers_handleChatPositionUpdated model chatId order isPinned h)

namespace ChatFoldersModel

/-- The chats the rows of a list point to. -/
def pointers (m : ChatFoldersModel) (chatList : ChatList) : List ChatPointer := (m.listModel chatList).pointers

/-- After some signals, a row points to a chat they have brought, or to one it pointed to before. -/
theorem mem_pointers_handleSignals {m : ChatFoldersModel} {signals : List Signal} {chatList : ChatList}
    {p : ChatPointer} (h : p ∈ (m.handleSignals signals).pointers chatList) :
    (∃ signal ∈ signals, p ∈ signal.added) ∨ p ∈ m.pointers chatList := by
  induction signals generalizing m with
  | nil => exact Or.inr h
  | cons signal signals ih =>
      rcases ih h with ⟨signal', hsignal', hp⟩ | hp
      · exact Or.inl ⟨signal', List.mem_cons_of_mem _ hsignal', hp⟩
      · rw [pointers, listModel_handleSignal] at hp
        split_ifs at hp
        · rcases Signal.mem_pointers_slot hp with hp | hp
          · exact Or.inl ⟨signal, List.mem_cons_self .., hp⟩
          · exact Or.inr hp
        · exact Or.inr hp

/-- The signals for a new chat take no row away. -/
theorem mem_pointers_handleSignals_added {m : ChatFoldersModel} {chat : ChatPointer} {positions : QVariantList}
    {chatLists : List ChatList} {chatList : ChatList} {p : ChatPointer} (h : p ∈ m.pointers chatList) :
    p ∈ (m.handleSignals (chatLists.map (TDLibData.addedToList chat positions))).pointers chatList := by
  induction chatLists generalizing m with
  | nil => exact h
  | cons chatList' chatLists ih =>
      refine @ih (m.handleSignal (TDLibData.addedToList chat positions chatList')) ?_
      rw [pointers, listModel_handleSignal]
      split_ifs
      · exact (ChatListModel.mem_pointers_handleChatAddedToList _ _ _ _ p).mpr (Or.inr h)
      · exact h

end ChatFoldersModel

namespace TDLibData

/-- The chat pointed to is the one stored under its id. -/
def Stores (d : TDLibData) (p : ChatPointer) : Prop :=
  ∃ chat, d.chats.value p.chatId = some chat ∧ chat.pointer = p

/-- Every chat is stored under its own id, and its object has been made. -/
def Valid (d : TDLibData) : Prop :=
  ∀ chatId chat, d.chats.value chatId = some chat → chat.chatId = chatId ∧ chat.object < d.objects

theorem Valid.stores {d : TDLibData} (h : d.Valid) {chatId : Int} {chat : ChatData}
    (hchat : d.chats.value chatId = some chat) : d.Stores chat.pointer := by
  have hid := (h chatId chat hchat).1
  exact ⟨chat, by rw [ChatData.pointer, hid]; exact hchat, rfl⟩

theorem Valid.object_lt {d : TDLibData} (h : d.Valid) {p : ChatPointer} (hp : d.Stores p) : p.object < d.objects := by
  obtain ⟨chat, hchat, rfl⟩ := hp
  exact (h chat.pointer.chatId chat hchat).2

/-- An outcome that keeps the stored chats, and whose signals bring only stored ones. -/
structure Keeps (d : TDLibData) (outcome : TDLibData × List Signal) : Prop where
  valid : outcome.1.Valid
  objects : d.objects ≤ outcome.1.objects
  kept : ∀ p, d.Stores p → outcome.1.Stores p
  added : ∀ signal ∈ outcome.2, ∀ p ∈ signal.added, outcome.1.Stores p

theorem added_handleChatPositionUpdated {chatId : Int} {position : QVariantMap} {signal : Signal}
    (h : signal ∈ handleChatPositionUpdated chatId position) : signal.added = [] := by
  obtain ⟨chatList, -, rfl⟩ := List.mem_map.mp h
  rfl

theorem keeps_handleChatPositionUpdated {d : TDLibData} (hd : d.Valid) (chatId : Int) (position : QVariantMap) :
    d.Keeps (d, handleChatPositionUpdated chatId position) :=
  ⟨hd, Nat.le_refl _, fun _ hp => hp, fun signal hsignal p hp => by
    rw [added_handleChatPositionUpdated hsignal] at hp
    simp at hp⟩

theorem keeps_handleChatRemovedFromList {d : TDLibData} (hd : d.Valid) (chatList : QVariantMap) (chatId : Int) :
    d.Keeps (d, d.handleChatRemovedFromList chatList chatId) := by
  refine ⟨hd, Nat.le_refl _, fun _ hp => hp, fun signal hsignal p hp => ?_⟩
  rw [handleChatRemovedFromList] at hsignal
  split_ifs at hsignal
  · obtain ⟨chatList, -, rfl⟩ := List.mem_map.mp hsignal
    simp [Signal.added] at hp
  · simp at hsignal

theorem keeps_handleChatAddedToList {d : TDLibData} (hd : d.Valid) (chatList : QVariantMap) (chatId : Int) :
    d.Keeps (d, d.handleChatAddedToList chatList chatId) := by
  refine ⟨hd, Nat.le_refl _, fun _ hp => hp, fun signal hsignal p hp => ?_⟩
  rw [handleChatAddedToList] at hsignal
  cases hchat : d.chats.value chatId with
  | none => simp [hchat] at hsignal
  | some chat =>
      simp only [hchat] at hsignal
      obtain ⟨chatList, -, rfl⟩ := List.mem_map.mp hsignal
      rw [List.mem_singleton.mp hp]
      exact hd.stores hchat

/-- Replacing a field of a chat's data leaves the chat what it is. -/
theorem keeps_updateChatField (field : String) {d : TDLibData} (hd : d.Valid) (chatId : Int) (v : QVariantMap)
    (positions : QVariantList) : d.Keeps (updateChatField field d chatId v positions) := by
  rw [updateChatField]
  cases hchat : d.chats.value chatId with
  | none => exact ⟨hd, Nat.le_refl _, fun p hp => hp, by simp⟩
  | some chat =>
      refine ⟨fun chatId' chat' hchat' => ?_, Nat.le_refl _, fun p hp => ?_, fun signal hsignal p hp => ?_⟩
      · rw [QHash.value_insert] at hchat'
        split_ifs at hchat' with hid
        · rw [← Option.some.inj hchat', hid]
          exact hd chatId chat hchat
        · exact hd chatId' chat' hchat'
      · obtain ⟨chat', hchat', hp⟩ := hp
        by_cases hid : p.chatId = chatId
        · rw [hid, hchat] at hchat'
          refine ⟨{ chat with chatData := chat.chatData.insert field (.map v) }, ?_, ?_⟩
          · rw [hid]
            exact QHash.value_insert_self ..
          · rw [← hp, ← Option.some.inj hchat']
            rfl
        · exact ⟨chat', by rw [QHash.value_insert_of_ne _ _ hid]; exact hchat', hp⟩
      · obtain ⟨position, -, hsignal⟩ := List.mem_flatMap.mp hsignal
        rw [added_handleChatPositionUpdated hsignal] at hp
        simp at hp

/-- The object of a new chat. -/
def newPointer (d : TDLibData) (chatInformation : QVariantMap) : ChatPointer :=
  { object := d.objects, chatId := (chatInformation.value ID).toLongLong }

theorem valid_handleNewChatDiscovered {d : TDLibData} (hd : d.Valid) (chatInformation : QVariantMap) :
    (d.handleNewChatDiscovered chatInformation).1.Valid := by
  intro chatId chat hchat
  rw [handleNewChatDiscovered] at hchat ⊢
  dsimp only at hchat ⊢
  rw [QHash.value_insert] at hchat
  split_ifs at hchat with hid
  · rw [← Option.some.inj hchat, hid]
    exact ⟨rfl, Nat.lt_succ_self _⟩
  · obtain ⟨hchatId, hobject⟩ := hd chatId chat hchat
    exact ⟨hchatId, Nat.lt_succ_of_lt hobject⟩

/-- After a new chat, its id stands for its object, and the other ids for what they stood for. -/
theorem stores_handleNewChatDiscovered (d : TDLibData) (chatInformation : QVariantMap) (p : ChatPointer) :
    (d.handleNewChatDiscovered chatInformation).1.Stores p ↔
      p = d.newPointer chatInformation ∨
        (p.chatId ≠ (chatInformation.value ID).toLongLong ∧ d.Stores p) := by
  rw [handleNewChatDiscovered, Stores, Stores]
  dsimp only
  by_cases hid : p.chatId = (chatInformation.value ID).toLongLong
  · rw [hid, QHash.value_insert_self]
    constructor
    · rintro ⟨chat, hchat, rfl⟩
      left
      rw [← Option.some.inj hchat]
      rfl
    · rintro (rfl | ⟨hne, -⟩)
      · exact ⟨_, rfl, rfl⟩
      · exact absurd rfl hne
  · rw [QHash.value_insert_of_ne _ _ hid]
    constructor
    · exact fun h => Or.inr ⟨hid, h⟩
    · rintro (rfl | ⟨-, h⟩)
      · exact absurd rfl hid
      · exact h

theorem added_handleNewChatDiscovered {d : TDLibData} {chatInformation : QVariantMap} {signal : Signal}
    (h : signal ∈ (d.handleNewChatDiscovered chatInformation).2) {p : ChatPointer} (hp : p ∈ signal.added) :
    p = d.newPointer chatInformation := by
  obtain ⟨chatList, -, rfl⟩ := List.mem_map.mp h
  exact List.mem_singleton.mp hp

end TDLibData

namespace Session

/-- Every row of every list refers to the chat that is stored under its id. -/
def Refers (s : Session) : Prop := ∀ chatList, ∀ p ∈ s.folders.pointers chatList, s.data.Stores p

/-- What every update keeps: the objects of the store and of the rows have been made. -/
structure Made (s : Session) : Prop where
  stored : s.data.Valid
  rows : ∀ chatList, ∀ p ∈ s.folders.pointers chatList, p.object < s.data.objects

/-- The updates after which the rows still refer to the stored chats: a new chat has no row yet, and the
store is emptied while the folders' lists are empty. -/
def KeepsReferences (s : Session) : Update → Prop
  | .newChat chatInformation =>
      ∀ chatList, ∀ p ∈ s.folders.pointers chatList, p.chatId ≠ (chatInformation.value ID).toLongLong
  | .authorizationStateClosing =>
      ∀ folders, s.folders.reset = some folders → ∀ folderId, s.folders.pointers (.folder folderId) = []
  | _ => True

theorem made_emit {s : Session} {outcome : TDLibData × List Signal} (hs : s.Made) (hvalid : outcome.1.Valid)
    (hle : s.data.objects ≤ outcome.1.objects)
    (hadded : ∀ signal ∈ outcome.2, ∀ p ∈ signal.added, outcome.1.Stores p) : (s.emit outcome).Made := by
  refine ⟨hvalid, fun chatList p hp => ?_⟩
  rcases ChatFoldersModel.mem_pointers_handleSignals hp with ⟨signal, hsignal, hp⟩ | hp
  · exact hvalid.object_lt (hadded signal hsignal p hp)
  · exact Nat.lt_of_lt_of_le (hs.rows chatList p hp) hle

theorem refers_emit {s : Session} {outcome : TDLibData × List Signal}
    (hkept : ∀ chatList, ∀ p ∈ s.folders.pointers chatList, outcome.1.Stores p)
    (hadded : ∀ signal ∈ outcome.2, ∀ p ∈ signal.added, outcome.1.Stores p) : (s.emit outcome).Refers := by
  intro chatList p hp
  rcases ChatFoldersModel.mem_pointers_handleSignals hp with ⟨signal, hsignal, hp⟩ | hp
  · exact hadded signal hsignal p hp
  · exact hkept chatList p hp

/-- An outcome that keeps the stored chats keeps the references. -/
theorem emit_keeps {s : Session} {outcome : TDLibData × List Signal} (h : s.data.Keeps outcome) :
    (s.Made → (s.emit outcome).Made) ∧ (s.Refers → (s.emit outcome).Refers) :=
  ⟨fun hs => made_emit hs h.valid h.objects h.added,
    fun hr => refers_emit (fun chatList p hp => h.kept p (hr chatList p hp)) h.added⟩

theorem pointers_folders {m m' : ChatFoldersModel} {newChatFolders : QVariantList} {p : Int}
    (h : m.handleChatFoldersUpdated newChatFolders p = some m') (chatList : ChatList) :
    m'.pointers chatList = m.pointers chatList := by
  rw [ChatFoldersModel.pointers, ChatFoldersModel.listModel_handleChatFoldersUpdated h, ChatFoldersModel.pointers]

theorem pointers_reset {m m' : ChatFoldersModel} (h : m.reset = some m') (chatList : ChatList) :
    m'.pointers chatList = match chatList with
      | .folder folderId => m.pointers (.folder folderId)
      | _ => [] := by
  rw [ChatFoldersModel.pointers, ChatFoldersModel.listModel_reset h]
  cases chatList <;> rfl

theorem pointers_reset_subset {m m' : ChatFoldersModel} (h : m.reset = some m') (chatList : ChatList) :
    m'.pointers chatList ⊆ m.pointers chatList := by
  rw [pointers_reset h]
  cases chatList with
  | main => exact List.nil_subset _
  | archive => exact List.nil_subset _
  | folder folderId => exact List.Subset.refl _

theorem made_step (s : Session) (u : Update) (s' : Session) (hs : s.Made) (h : s.step u = some s') : s'.Made := by
  have hd := hs.stored
  cases u with
  | newChat chatInformation =>
      rw [← Option.some.inj h]
      refine made_emit hs (TDLibData.valid_handleNewChatDiscovered hd _) (Nat.le_succ _) fun signal hsignal p hp => ?_
      rw [TDLibData.stores_handleNewChatDiscovered]
      exact Or.inl (TDLibData.added_handleNewChatDiscovered hsignal hp)
  | chatPosition chatId position =>
      rw [← Option.some.inj h]
      exact (emit_keeps (TDLibData.keeps_handleChatPositionUpdated hd chatId position)).1 hs
  | chatAddedToList chatList chatId =>
      rw [← Option.some.inj h]
      exact (emit_keeps (TDLibData.keeps_handleChatAddedToList hd chatList chatId)).1 hs
  | chatRemovedFromList chatList chatId =>
      rw [← Option.some.inj h]
      exact (emit_keeps (TDLibData.keeps_handleChatRemovedFromList hd chatList chatId)).1 hs
  | chatLastMessage chatId lastMessage positions =>
      rw [← Option.some.inj h]
      exact (emit_keeps (TDLibData.keeps_updateChatField LAST_MESSAGE hd chatId lastMessage positions)).1 hs
  | chatDraftMessage chatId draftMessage positions =>
      rw [← Option.some.inj h]
      exact (emit_keeps (TDLibData.keeps_updateChatField DRAFT_MESSAGE hd chatId draftMessage positions)).1 hs
  | chatFolders newChatFolders mainChatListPosition =>
      obtain ⟨folders, hfolders, rfl⟩ := Option.map_eq_some_iff.mp h
      exact ⟨hd, fun chatList p hp => hs.rows chatList p (pointers_folders hfolders chatList ▸ hp)⟩
  | authorizationStateLoggingOut =>
      obtain ⟨folders, hfolders, rfl⟩ := Option.map_eq_some_iff.mp h
      exact ⟨hd, fun chatList p hp => hs.rows chatList p (pointers_reset_subset hfolders chatList hp)⟩
  | authorizationStateClosing =>
      obtain ⟨folders, hfolders, rfl⟩ := Option.map_eq_some_iff.mp h
      exact ⟨fun chatId chat hchat => absurd hchat (by simp [TDLibData.reset]),
        fun chatList p hp => hs.rows chatList p (pointers_reset_subset hfolders chatList hp)⟩

/-- A new chat takes the place of the stored one: no row may point to that one. -/
theorem refers_newChat_iff {s : Session} (hs : s.Made) (hr : s.Refers) (chatInformation : QVariantMap) :
    (s.emit (s.data.handleNewChatDiscovered chatInformation)).Refers ↔
      ∀ chatList, ∀ p ∈ s.folders.pointers chatList, p.chatId ≠ (chatInformation.value ID).toLongLong := by
  constructor
  · intro h chatList p hp hid
    have hstores := h chatList p (ChatFoldersModel.mem_pointers_handleSignals_added hp)
    rcases (TDLibData.stores_handleNewChatDiscovered s.data chatInformation p).mp hstores with rfl | ⟨hne, -⟩
    · exact absurd (hs.rows chatList _ hp) (Nat.lt_irrefl _)
    · exact hne hid
  · intro h
    refine refers_emit (fun chatList p hp => ?_) fun signal hsignal p hp => ?_
    · rw [TDLibData.stores_handleNewChatDiscovered]
      exact Or.inr ⟨h chatList p hp, hr chatList p hp⟩
    · rw [TDLibData.stores_handleNewChatDiscovered]
      exact Or.inl (TDLibData.added_handleNewChatDiscovered hsignal hp)

theorem refers_step (s : Session) (u : Update) (hs : s.Made) (hr : s.Refers) :
    (∀ s' ∈ s.step u, s'.Refers) ↔ s.KeepsReferences u := by
  have hd := hs.stored
  cases u with
  | newChat chatInformation =>
      refine Iff.trans ?_ (refers_newChat_iff hs hr chatInformation)
      simp [step]
  | chatPosition chatId position =>
      refine iff_of_true (fun s' hs' => ?_) trivial
      rw [← Option.some.inj hs']
      exact (emit_keeps (TDLibData.keeps_handleChatPositionUpdated hd chatId position)).2 hr
  | chatAddedToList chatList chatId =>
      refine iff_of_true (fun s' hs' => ?_) trivial
      rw [← Option.some.inj hs']
      exact (emit_keeps (TDLibData.keeps_handleChatAddedToList hd chatList chatId)).2 hr
  | chatRemovedFromList chatList chatId =>
      refine iff_of_true (fun s' hs' => ?_) trivial
      rw [← Option.some.inj hs']
      exact (emit_keeps (TDLibData.keeps_handleChatRemovedFromList hd chatList chatId)).2 hr
  | chatLastMessage chatId lastMessage positions =>
      refine iff_of_true (fun s' hs' => ?_) trivial
      rw [← Option.some.inj hs']
      exact (emit_keeps (TDLibData.keeps_updateChatField LAST_MESSAGE hd chatId lastMessage positions)).2 hr
  | chatDraftMessage chatId draftMessage positions =>
      refine iff_of_true (fun s' hs' => ?_) trivial
      rw [← Option.some.inj hs']
      exact (emit_keeps (TDLibData.keeps_updateChatField DRAFT_MESSAGE hd chatId draftMessage positions)).2 hr
  | chatFolders newChatFolders mainChatListPosition =>
      refine iff_of_true (fun s' hs' => ?_) trivial
      obtain ⟨folders, hfolders, rfl⟩ := Option.map_eq_some_iff.mp hs'
      exact fun chatList p hp => hr chatList p (pointers_folders hfolders chatList ▸ hp)
  | authorizationStateLoggingOut =>
      refine iff_of_true (fun s' hs' => ?_) trivial
      obtain ⟨folders, hfolders, rfl⟩ := Option.map_eq_some_iff.mp hs'
      exact fun chatList p hp => hr chatList p (pointers_reset_subset hfolders chatList hp)
  | authorizationStateClosing =>
      have hnone : ∀ p, ¬ s.data.reset.Stores p := by
        rintro p ⟨chat, hchat, -⟩
        simp [TDLibData.reset] at hchat
      constructor
      · intro h folders hfolders folderId
        have hrefers := h { data := s.data.reset, folders := folders } (by rw [step, hfolders]; rfl)
        refine List.eq_nil_iff_forall_not_mem.mpr fun p hp => hnone p (hrefers (.folder folderId) p ?_)
        dsimp only
        rw [pointers_reset hfolders]
        exact hp
      · intro h s' hs'
        obtain ⟨folders, hfolders, rfl⟩ := Option.map_eq_some_iff.mp hs'
        intro chatList p hp
        dsimp only at hp
        rw [pointers_reset hfolders] at hp
        cases chatList with
        | main => simp at hp
        | archive => simp at hp
        | folder folderId =>
            have hnil := h folders hfolders folderId
            dsimp only at hp
            rw [hnil] at hp
            simp at hp

theorem pointers_new (chatList : ChatList) : new.folders.pointers chatList = [] := by
  cases chatList <;> rfl

theorem made_new : new.Made := by
  refine ⟨fun chatId chat h => absurd h (by simp [new, TDLibData.new]), fun chatList p hp => ?_⟩
  rw [pointers_new] at hp
  simp at hp

/-- **The references of the rows.** In every state of a run the rows refer to the stored chats exactly if all
updates of the run keep the references. -/
theorem rows_refer_iff (us : List Update) :
    (∀ us', us' <+: us → ∀ s ∈ run (lift step) (some new) us', s.Refers) ↔
      Along (lift step) (fun s u => ∀ s0 ∈ s, s0.KeepsReferences u) (some new) us := by
  have hrefers : new.Refers := by
    intro chatList p hp
    rw [pointers_new] at hp
    simp at hp
  exact Along.always_iff_lift made_step refers_step made_new hrefers us

/-- A chat with the lists it is in and its positions. -/
def chatOf (id : Int) (chatLists positions : QVariantList) : QVariantMap :=
  [(ID, .longLong id), (CHAT_LISTS, .list chatLists), (POSITIONS, .list positions)]

def folderChatList (folderId : Int) : QVariantMap :=
  [(TYPE_, .string TYPE_CHAT_LIST_FOLDER), (CHAT_FOLDER_ID, .longLong folderId)]

/-- Closing deletes the chats, and a folder's list keeps its rows. -/
theorem not_rows_refer : ¬ ∀ us : List Update, ∀ s ∈ run (lift step) (some new) us, s.Refers := by
  intro h
  have hafter : (run (lift step) (some new)
      [.newChat (chatOf 1 [.map (folderChatList 2)] []), .authorizationStateClosing]).map
        (fun s => (s.folders.pointers (.folder 2), (s.data.chats.value 1).isNone)) = some ([⟨0, 1⟩], true) := by
    decide
  obtain ⟨s, hs, hpointers⟩ := Option.map_eq_some_iff.mp hafter
  obtain ⟨hrows, hnone⟩ := Prod.mk.inj hpointers
  obtain ⟨chat, hchat, -⟩ := h _ s hs (.folder 2) ⟨0, 1⟩ (by rw [hrows]; exact List.mem_singleton_self _)
  rw [hchat] at hnone
  simp at hnone

end Session

end YaqtLib
