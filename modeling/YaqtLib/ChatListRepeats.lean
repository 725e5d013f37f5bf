import YaqtLib.ChatListOrder
import YaqtLib.ChatReferences

/-! Chats that are added to a list again. An add always inserts a row, so a chat that is in the list already has
another row afterwards, and one of them is left when the chat is removed. A new chat that comes with its lists and an
update that adds a chat to a list are two ways to the same slot. -/

namespace YaqtLib

open Containers IndexMap Runs TdConst

namespace ChatListModel

/-- The rows of a chat. -/
def rowsOf (m : ChatListModel) (chatId : Int) : List ListChatData :=
  m.chatList.filter fun chat => chat.chatId = chatId

theorem rowsOf_eq_nil_iff {m : ChatListModel} {chatId : Int} :
    m.rowsOf chatId = [] ↔ ∀ chat ∈ m.chatList, chat.chatId ≠ chatId := by
  simp [rowsOf, List.filter_eq_nil_iff]

/-- Whatever the list is like, an add inserts a row. -/
theorem length_rowsOf_added (m : ChatListModel) (chatData : ChatPointer) (order : Int) (isPinned : Bool) (chatId : Int) :
    ((handleChatAddedToList m chatData order isPinned).rowsOf chatId).length =
      (m.rowsOf chatId).length + if chatData.chatId = chatId then 1 else 0 := by
  rw [rowsOf, handleChatAddedToList]
  dsimp only
  generalize hchat : ({ data := chatData, order := order, isPinned := isPinned } : ListChatData) = chat
  have hid : chat.chatId = chatData.chatId := by rw [← hchat]; rfl
  have hperm := List.perm_insertIdx chat m.chatList (i := (m.chatList.takeWhile fun other =>
    decide (0 ≤ chat.compareTo other)).length) (List.takeWhile_sublist _).length_le
  rw [(hperm.filter _).length_eq, rowsOf, ← hid]
  by_cases h : chat.chatId = chatId
  · rw [List.filter_cons_of_pos (by simpa using h), if_pos h, List.length_cons]
  · rw [List.filter_cons_of_neg (by simpa using h), if_neg h, Nat.add_zero]

/-- Whatever the list is like, a removal takes out one row at most. -/
theorem length_rowsOf_le_removed (m : ChatListModel) (chatId chatId' : Int) :
    (m.rowsOf chatId').length ≤ ((handleChatRemovedFromList m chatId).rowsOf chatId').length + 1 := by
  rw [handleChatRemovedFromList]
  cases m.chatIndexMap.value chatId with
  | none => exact Nat.le_succ _
  | some i =>
      rw [rowsOf, rowsOf]
      dsimp only
      rcases Nat.lt_or_ge i m.chatList.length with hlt | hge
      · have hperm := List.getElem_cons_eraseIdx_perm hlt
        rw [← (hperm.filter _).length_eq, List.filter_cons]
        split_ifs
        · exact Nat.le_refl _
        · exact Nat.le_succ _
      · rw [List.eraseIdx_of_length_le hge]
        exact Nat.le_succ _

/-- What an add should leave: one row for the chat, with the order and the pin it is added with, rows that are sorted
by their orders with the map as their exact inverse, and no row for the chat once it is removed. -/
structure AddedOnce (m : ChatListModel) (chatData : ChatPointer) (order : Int) (isPinned : Bool) : Prop where
  one : (handleChatAddedToList m chatData order isPinned).rowsOf chatData.chatId =
    [{ data := chatData, order := order, isPinned := isPinned }]
  inOrder : (handleChatAddedToList m chatData order isPinned).InOrder
  removed : (handleChatRemovedFromList (handleChatAddedToList m chatData order isPinned) chatData.chatId).rowsOf
    chatData.chatId = []

/-- The adds of a run leave what they should. -/
def AddsOnce (m : ChatListModel) : Event → Prop
  | .chatAddedToList chatData order isPinned => AddedOnce m chatData order isPinned
  | _ => True

/-- A chat that is listed gets a second row, and keeps one when it is removed. -/
theorem added_again {m : ChatListModel} {chatData : ChatPointer} (hlisted : m.rowsOf chatData.chatId ≠ []) (order : Int)
    (isPinned : Bool) :
    2 ≤ ((handleChatAddedToList m chatData order isPinned).rowsOf chatData.chatId).length ∧
    (handleChatRemovedFromList (handleChatAddedToList m chatData order isPinned) chatData.chatId).rowsOf
      chatData.chatId ≠ [] := by
  have hpos := List.length_pos_iff.mpr hlisted
  have hadded := length_rowsOf_added m chatData order isPinned chatData.chatId
  have hremoved := length_rowsOf_le_removed (handleChatAddedToList m chatData order isPinned) chatData.chatId
    chatData.chatId
  rw [if_pos rfl] at hadded
  refine ⟨by omega, List.length_pos_iff.mp (by omega)⟩

theorem not_addedOnce {m : ChatListModel} {chatData : ChatPointer} (hlisted : m.rowsOf chatData.chatId ≠ []) (order : Int)
    (isPinned : Bool) : ¬AddedOnce m chatData order isPinned := fun h =>
  (added_again hlisted order isPinned).2 h.removed

/-- In a list in order an add leaves what it should exactly if the chat is not listed. -/
theorem addedOnce_iff {m : ChatListModel} (hm : m.InOrder) (chatData : ChatPointer) (order : Int) (isPinned : Bool) :
    AddedOnce m chatData order isPinned ↔ m.chatIndexMap.contains chatData.chatId = false := by
  constructor
  · intro h
    rw [← Bool.not_eq_true, hm.contains_iff]
    rintro ⟨chat, hchat, hid⟩
    exact not_addedOnce (fun hnil => rowsOf_eq_nil_iff.mp hnil chat hchat hid) order isPinned h
  · intro hnew
    obtain ⟨pre, post, hrows, hrows', hadded⟩ := handleChatAddedToList_spec hm chatData order isPinned hnew
    have hnot : ∀ chat ∈ m.chatList, chat.chatId ≠ chatData.chatId := by
      intro chat hchat hid
      have := (hm.contains_iff chatData.chatId).mpr ⟨chat, hchat, hid⟩
      rw [hnew] at this
      exact absurd this Bool.false_ne_true
    rw [hrows] at hnot
    refine ⟨?_, hadded, ?_⟩
    · rw [rowsOf, hrows', List.filter_append, List.filter_eq_nil_iff.mpr fun chat hchat => by
          simpa using hnot chat (List.mem_append_left _ hchat),
        List.filter_cons_of_pos (by simp [ListChatData.chatId]), List.filter_eq_nil_iff.mpr fun chat hchat => by
          simpa using hnot chat (List.mem_append_right _ hchat), List.nil_append]
    · rw [rowsOf_eq_nil_iff, (handle_others hadded chatData.chatId 0 false).2.1]
      intro chat hchat
      simpa using (List.mem_filter.mp hchat).2

theorem addsOnce_iff {m : ChatListModel} (hm : m.InOrder) (e : Event) : AddsOnce m e ↔ AddsUnlisted m e := by
  cases e with
  | chatAddedToList chatData order isPinned => exact addedOnce_iff hm chatData order isPinned
  | chatRemovedFromList chatId => exact Iff.rfl
  | chatPositionUpdated chatId order isPinned => exact Iff.rfl
  | reset => exact Iff.rfl

end ChatListModel

/-! ### The two updates that add a chat -/

namespace ChatFoldersModel

open ChatListModel

/-- Each signal of an add to the list inserts a row of its own. -/
theorem length_rowsOf_handleSignals_added (m : ChatFoldersModel) (chat : ChatPointer) (positions : QVariantList)
    (chatLists : List ChatList) (chatList : ChatList) :
    (((m.handleSignals (chatLists.map (TDLibData.addedToList chat positions))).listModel chatList).rowsOf
        chat.chatId).length =
      ((m.listModel chatList).rowsOf chat.chatId).length + chatLists.count chatList := by
  induction chatLists generalizing m with
  | nil => rfl
  | cons chatList' chatLists ih =>
      have hcons : m.handleSignals ((chatList' :: chatLists).map (TDLibData.addedToList chat positions)) =
          (m.handleSignal (TDLibData.addedToList chat positions chatList')).handleSignals
            (chatLists.map (TDLibData.addedToList chat positions)) := rfl
      rw [hcons, ih, listModel_handleSignal, List.count_cons]
      have hlist : (TDLibData.addedToList chat positions chatList').chatList = chatList' := rfl
      rw [hlist]
      by_cases heq : chatList = chatList'
      · rw [if_pos heq, if_pos (by simp [heq])]
        have := length_rowsOf_added (m.listModel chatList) chat (orderOf (positionIn positions chatList'))
          (isPinnedOf (positionIn positions chatList')) chat.chatId
        rw [if_pos rfl] at this
        rw [TDLibData.addedToList, Signal.slot, this]
        omega
      · rw [if_neg heq, if_neg (by simpa using Ne.symm heq), Nat.add_zero]

end ChatFoldersModel

namespace Session

open ChatListModel

/-- The rows of a chat in a list. -/
def rowsOf (s : Session) (chatList : ChatList) (chatId : Int) : List ListChatData :=
  (s.folders.listModel chatList).rowsOf chatId

/-- The update adds the chat to the list: a new chat that comes with it, or the update of a known chat's lists. -/
def AddsTo (s : Session) (chatList : ChatList) (chatId : Int) : Update → Prop
  | .newChat chatInformation =>
      (chatInformation.value ID).toLongLong = chatId ∧ chatList ∈ TDLibData.chatListsOf chatInformation
  | .chatAddedToList list id =>
      id = chatId ∧ chatListOf list = some chatList ∧ s.data.chats.contains chatId = true
  | _ => False

/-- Such an update always leaves one row more. -/
theorem length_rowsOf_lt {s s' : Session} (hs : s.Made) {chatList : ChatList} {chatId : Int} {u : Update}
    (hu : s.AddsTo chatList chatId u) (h : s.step u = some s') :
    (s.rowsOf chatList chatId).length < (s'.rowsOf chatList chatId).length := by
  cases u with
  | newChat chatInformation =>
      obtain ⟨hid, hmem⟩ := hu
      obtain rfl := Option.some.inj h
      have hcount := ChatFoldersModel.length_rowsOf_handleSignals_added s.folders
        { object := s.data.objects, chatId := chatId } (TDLibData.positionsOf chatInformation)
        (TDLibData.chatListsOf chatInformation) chatList
      have hpos := List.count_pos_iff.mpr hmem
      rw [rowsOf, rowsOf, emit, TDLibData.handleNewChatDiscovered, hid]
      dsimp only at hcount ⊢
      rw [ChatData.pointer, hcount]
      omega
  | chatAddedToList list id =>
      obtain ⟨rfl, hlist, hcontains⟩ := hu
      obtain rfl := Option.some.inj h
      obtain ⟨chat, hchat⟩ := (QHash.contains_iff _ _).mp hcontains
      have hid : chat.pointer.chatId = id := (hs.stored id chat hchat).1
      have hcount := ChatFoldersModel.length_rowsOf_handleSignals_added s.folders chat.pointer
        (TDLibData.positionsOf chat.chatData) [chatList] chatList
      rw [hid, List.count_singleton_self] at hcount
      rw [rowsOf, rowsOf, emit, TDLibData.handleChatAddedToList, hchat, hlist]
      dsimp only [Option.toList_some]
      rw [hcount]
      omega
  | chatPosition chatId position => exact hu.elim
  | chatRemovedFromList list id => exact hu.elim
  | chatLastMessage id lastMessage positions => exact hu.elim
  | chatDraftMessage id draftMessage positions => exact hu.elim
  | chatFolders newChatFolders mainChatListPosition => exact hu.elim
  | authorizationStateLoggingOut => exact hu.elim
  | authorizationStateClosing => exact hu.elim

/-- An update that takes the chat out of a list leaves all of its rows but one. -/
theorem length_rowsOf_le {s s' : Session} (list : QVariantMap) (id : Int) (chatList : ChatList) (chatId : Int)
    (h : s.step (.chatRemovedFromList list id) = some s') :
    (s.rowsOf chatList chatId).length ≤ (s'.rowsOf chatList chatId).length + 1 := by
  obtain rfl := Option.some.inj h
  rw [rowsOf, rowsOf, emit, TDLibData.handleChatRemovedFromList]
  dsimp only
  split_ifs
  · cases chatListOf list with
    | none => exact Nat.le_succ _
    | some chatList' =>
        have hlist : s.folders.handleSignals ((some chatList').toList.map fun chatList => .chatRemovedFromList chatList id) =
            s.folders.handleSignal (.chatRemovedFromList chatList' id) := rfl
        rw [hlist, ChatFoldersModel.listModel_handleSignal]
        split_ifs
        · exact length_rowsOf_le_removed _ id chatId
        · exact Nat.le_succ _
  · exact Nat.le_succ _

/-- **Chats that are added again.** In every run of a list its adds leave one row at the right place exactly if each
of them is of a chat that is not listed. In every state a list reaches, however it has come about, an add of a listed
chat does not, and in every state of a session an update that adds a chat to a list it is in leaves at least two rows
for it, one of which is there when the chat has been removed. -/
theorem chats_added_once_iff (es : List ChatListModel.Event) :
    (Along ChatListModel.step AddsOnce ChatListModel.new es ↔
      Along ChatListModel.step AddsUnlisted ChatListModel.new es) ∧
    (∀ (chatData : ChatPointer) (order : Int) (isPinned : Bool),
      (run ChatListModel.step ChatListModel.new es).rowsOf chatData.chatId ≠ [] →
      ¬AddedOnce (run ChatListModel.step ChatListModel.new es) chatData order isPinned) ∧
    ∀ us : List Update, ∀ s ∈ run (lift step) (some new) us, ∀ (chatList : ChatList) (chatId : Int) (u : Update),
      s.AddsTo chatList chatId u → s.rowsOf chatList chatId ≠ [] → ∀ s' ∈ s.step u,
      2 ≤ (s'.rowsOf chatList chatId).length ∧
      ∀ list, ∀ s'' ∈ s'.step (.chatRemovedFromList list chatId), s''.rowsOf chatList chatId ≠ [] := by
  refine ⟨?_, fun chatData order isPinned h => not_addedOnce h order isPinned, ?_⟩
  · exact Along.iff_of_keeps (I := InOrder) (fun m e hm => addsOnce_iff hm e)
      (fun m e hm he => inOrder_step m e hm ((addsOnce_iff hm e).mp he)) inOrder_new es
  · intro us s hs chatList chatId u hu hlisted s' hs'
    have hmade : s.Made := invariant_lift (I := Made) made_step made_new us s hs
    have hlt := length_rowsOf_lt hmade hu hs'
    have hpos := List.length_pos_iff.mpr hlisted
    refine ⟨by omega, fun list s'' hs'' => ?_⟩
    have hle := length_rowsOf_le list chatId chatList chatId hs''
    exact List.length_pos_iff.mp (by omega)

def mainChatList : QVariantMap := [(TYPE_, .string TYPE_CHAT_LIST_MAIN)]

/-- A chat that comes with the main list, and is added to it again. -/
theorem chats_added_once_twice :
    ¬AddedOnce (run ChatListModel.step ChatListModel.new [.chatAddedToList ⟨0, 1⟩ 5 false]) ⟨0, 1⟩ 7 false :=
  (chats_added_once_iff _).2.1 _ 7 false (by decide)

/-- Neither a list nor a session gets by with one row for a chat that is added again. -/
theorem not_chats_added_once :
    (¬∀ (es : List ChatListModel.Event) (chatData : ChatPointer) (order : Int) (isPinned : Bool),
      (run ChatListModel.step ChatListModel.new es).rowsOf chatData.chatId ≠ [] →
      AddedOnce (run ChatListModel.step ChatListModel.new es) chatData order isPinned) ∧
    ¬∀ us : List Update, ∀ s ∈ run (lift step) (some new) us, ∀ (chatList : ChatList) (chatId : Int) (u : Update),
      s.AddsTo chatList chatId u → s.rowsOf chatList chatId ≠ [] → ∀ s' ∈ s.step u,
      (s'.rowsOf chatList chatId).length = 1 := by
  constructor
  · intro h
    have hone := (h [.chatAddedToList ⟨0, 1⟩ 5 false] ⟨0, 1⟩ 7 false (by decide)).one
    exact absurd hone (by decide)
  · intro h
    -- `updateNewChat` with the main list among its lists, then `updateChatAddedToList`
    have hone := h [.newChat (chatOf 1 [.map mainChatList] [])] _ rfl .main 1 (.chatAddedToList mainChatList 1)
      ⟨rfl, by decide, by decide⟩ (by decide) _ rfl
    exact absurd hone (by decide)

end Session

end YaqtLib
