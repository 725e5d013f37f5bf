import YaqtLib.ChatListOrder
import YaqtLib.Views

/-! What a chat list announces to its views. Every operation announces one insertion, removal or move, with an index
or a destination of its own, before it changes the rows; a view that repeats what is announced shows the list,
whatever chats are added, removed and repositioned. -/

namespace YaqtLib

open Containers IndexMap Runs Views

namespace ChatListModel

/-- The roles of a row that the list itself sets. -/
inductive Role where
  | chatId
  | isPinned
  deriving DecidableEq

def chatIds (m : ChatListModel) : List Int := m.chatList.map ListChatData.chatId

abbrev RowSignal := Views.Signal Int Role

/-- An announcement after which the list is `m`. -/
def signal (m : ChatListModel) (change : Change Role) : RowSignal := ⟨change, m.chatIds⟩

/-- `QAbstractListModel::index`, none for an index without a row. -/
def index (m : ChatListModel) (row : Nat) : Option Nat := if row < m.chatList.length then some row else none

def updateChatOrderSignals (m : ChatListModel) (chat : ListChatData) (chatIndex : Nat) : List RowSignal :=
  let newIndex := newIndexOf m.chatList chat chatIndex
  if newIndex ≠ chatIndex then
    [(updateChatOrder m chat chatIndex).1.signal
      (.rowMoved chatIndex (if newIndex < chatIndex then newIndex else newIndex + 1))]
  else []

def updateChatIsPinnedSignals (m : ChatListModel) (chatIndex : Nat) (isPinned : Bool) : List RowSignal :=
  [(updateChatIsPinned m chatIndex isPinned).signal (.dataChanged (m.index chatIndex) [.isPinned])]

def handleChatAddedToListSignals (m : ChatListModel) (chatData : ChatPointer) (order : Int) (isPinned : Bool) :
    List RowSignal :=
  let chat : ListChatData := { data := chatData, order := order, isPinned := isPinned }
  let pos := (m.chatList.takeWhile fun other => 0 ≤ chat.compareTo other).length
  [(handleChatAddedToList m chatData order isPinned).signal (.rowsInserted pos pos)]

def handleChatRemovedFromListSignals (m : ChatListModel) (chatId : Int) : List RowSignal :=
  match m.chatIndexMap.value chatId with
  | none => []
  | some i => [(handleChatRemovedFromList m chatId).signal (.rowsRemoved i i)]

def handleChatPositionUpdatedSignals (m : ChatListModel) (chatId order : Int) (isPinned : Bool) : List RowSignal :=
  match m.chatIndexMap.value chatId with
  | none => []
  | some chatIndex =>
      match m.chatList[chatIndex]? with
      | none => []
      | some chat =>
          let chat := { chat with order := order }
          let m := { m with chatList := m.chatList.set chatIndex chat }
          let (m', newIndex) := updateChatOrder m chat chatIndex
          updateChatOrderSignals m chat chatIndex ++ updateChatIsPinnedSignals m' newIndex isPinned

/-- A list without rows has no entries in its index map either, and announces nothing. -/
def resetSignals (m : ChatListModel) : List RowSignal :=
  if m.chatList.isEmpty then [] else [m.reset.signal .modelReset]

/-- What is announced during an event, in the order of the announcements. -/
def signals (m : ChatListModel) : Event → List RowSignal
  | .chatAddedToList chatData order isPinned => handleChatAddedToListSignals m chatData order isPinned
  | .chatRemovedFromList chatId => handleChatRemovedFromListSignals m chatId
  | .chatPositionUpdated chatId order isPinned => handleChatPositionUpdatedSignals m chatId order isPinned
  | .reset => resetSignals m

/-! ### Every step is mirrored -/

/-- Every entry of the index map leads to a row of its chat. The same chat may be in the list more than once. -/
def RowsLead (m : ChatListModel) : Prop := Leads ListChatData.key m.chatList m.chatIndexMap

/-- A view of the list that keeps the chat ids. -/
abbrev MirrorsIds (signals : List RowSignal) (m m' : ChatListModel) : Prop :=
  Mirrors (fun role => role == .chatId) signals m.chatIds m'.chatIds

theorem newIndexOf_lt {chatList : List ListChatData} (chat : ListChatData) {chatIndex : Nat}
    (h : chatIndex < chatList.length) : newIndexOf chatList chat chatIndex < chatList.length := by
  have hbelow := (List.takeWhile_sublist (l := chatList.drop (chatIndex + 1)) fun other =>
    decide (0 < chat.compareTo other)).length_le
  rw [List.length_drop] at hbelow
  unfold newIndexOf
  dsimp only
  split_ifs <;> omega

theorem updateChatOrder_mirrored {m : ChatListModel} (hm : m.RowsLead) {chat : ListChatData} {chatIndex : Nat}
    (hchat : m.chatList[chatIndex]? = some chat) :
    (updateChatOrder m chat chatIndex).1.RowsLead ∧
      MirrorsIds (updateChatOrderSignals m chat chatIndex) m (updateChatOrder m chat chatIndex).1 := by
  rw [updateChatOrderSignals, updateChatOrder]
  dsimp only
  have hlt := newIndexOf_lt chat (List.getElem?_eq_some_iff.mp hchat).1
  generalize newIndexOf m.chatList chat chatIndex = newIndex at hlt ⊢
  by_cases hstay : newIndex = chatIndex
  · rw [if_pos hstay, if_neg (not_not.mpr hstay)]
    exact ⟨hm, .nil _⟩
  · rw [if_neg hstay, if_pos hstay]
    have hrange : MoveInRange m.chatList chatIndex newIndex := ⟨(List.getElem?_eq_some_iff.mp hchat).1, hlt⟩
    refine ⟨hm.move hrange hchat, ?_⟩
    have hids : (move m.chatList chatIndex newIndex).map ListChatData.chatId =
        move m.chatIds chatIndex newIndex := map_move _ _ _ _
    have hmirrors := @mirrors_moved _ Role (fun role => role == .chatId) m.chatIds chatIndex newIndex
      (by simpa [MoveInRange, chatIds] using hrange) hstay
    rw [← hids] at hmirrors
    exact hmirrors

theorem updateChatIsPinned_mirrored {m : ChatListModel} (hm : m.RowsLead) (chatIndex : Nat) (isPinned : Bool) :
    (updateChatIsPinned m chatIndex isPinned).RowsLead ∧
      MirrorsIds (updateChatIsPinnedSignals m chatIndex isPinned) m (updateChatIsPinned m chatIndex isPinned) := by
  have hmap : ∀ {β : Type} (f : ListChatData → β), (∀ chat : ListChatData, f { chat with isPinned := isPinned } = f chat) →
      (updateChatIsPinned m chatIndex isPinned).chatList.map f = m.chatList.map f := by
    intro β f hf
    apply List.ext_getElem?
    intro i
    rw [updateChatIsPinned, List.getElem?_map, List.getElem?_map, List.getElem?_modify]
    cases m.chatList[i]? with
    | none => rfl
    | some chat =>
        by_cases hi : chatIndex = i
        · simp [hi, hf]
        · simp [hi]
  have hids : (updateChatIsPinned m chatIndex isPinned).chatIds = m.chatIds := hmap _ fun _ => rfl
  refine ⟨(leads_congr (hmap ListChatData.key fun _ => rfl)).mpr hm, ?_⟩
  rw [MirrorsIds, updateChatIsPinnedSignals, signal, hids]
  exact mirrors_dataChanged _ _ _

/-- The new row goes in before the first row the chat goes before. -/
theorem handleChatAddedToList_mirrored {m : ChatListModel} (hm : m.RowsLead) (chatData : ChatPointer) (order : Int)
    (isPinned : Bool) :
    (handleChatAddedToList m chatData order isPinned).RowsLead ∧
      MirrorsIds (handleChatAddedToListSignals m chatData order isPinned) m
        (handleChatAddedToList m chatData order isPinned) := by
  obtain ⟨rows, map⟩ := m
  rw [handleChatAddedToListSignals, handleChatAddedToList]
  dsimp only
  generalize ({ data := chatData, order := order, isPinned := isPinned } : ListChatData) = chat
  have hsplit : rows = rows.takeWhile (fun other => decide (0 ≤ chat.compareTo other)) ++
      rows.dropWhile (fun other => decide (0 ≤ chat.compareTo other)) := List.takeWhile_append_dropWhile.symm
  generalize rows.takeWhile (fun other => decide (0 ≤ chat.compareTo other)) = pre at hsplit ⊢
  generalize rows.dropWhile (fun other => decide (0 ≤ chat.compareTo other)) = post at hsplit
  subst hsplit
  rw [insertIdx_append_length, drop_append_cons]
  constructor
  · exact Leads.insert hm chat
  · have hmirrors := @mirrors_inserted _ Role (fun role => role == .chatId) (pre.map ListChatData.chatId)
      [chat.chatId] (post.map ListChatData.chatId) (List.cons_ne_nil _ _)
    rw [List.length_map, List.length_singleton, Int.natCast_one, Int.add_sub_cancel] at hmirrors
    simpa [MirrorsIds, signal, chatIds] using hmirrors

theorem handleChatRemovedFromList_mirrored {m : ChatListModel} (hm : m.RowsLead) (chatId : Int) :
    (handleChatRemovedFromList m chatId).RowsLead ∧
      MirrorsIds (handleChatRemovedFromListSignals m chatId) m (handleChatRemovedFromList m chatId) := by
  obtain ⟨rows, map⟩ := m
  rw [handleChatRemovedFromListSignals, handleChatRemovedFromList]
  dsimp only
  cases hvalue : map.value chatId with
  | none => exact ⟨hm, .nil _⟩
  | some i =>
      obtain ⟨pre, chat', post, rfl, rfl, -, hkey⟩ := Leads.exists_split hm hvalue
      dsimp only
      rw [eraseIdx_append_cons, List.drop_left]
      constructor
      · exact Leads.erase hm hkey
      · have hmirrors := @mirrors_removed _ Role (fun role => role == .chatId)
          ((pre ++ chat' :: post).map ListChatData.chatId) pre.length pre.length (Nat.le_refl _) (by simp)
        have herase : eraseRange ((pre ++ chat' :: post).map ListChatData.chatId) pre.length pre.length =
            (pre ++ post).map ListChatData.chatId := by
          rw [← map_eraseRange, eraseRange_eq_eraseIdx, eraseIdx_append_cons]
        rw [herase] at hmirrors
        exact hmirrors

theorem handleChatPositionUpdated_mirrored {m : ChatListModel} (hm : m.RowsLead) (chatId order : Int)
    (isPinned : Bool) :
    (handleChatPositionUpdated m chatId order isPinned).RowsLead ∧
      MirrorsIds (handleChatPositionUpdatedSignals m chatId order isPinned) m
        (handleChatPositionUpdated m chatId order isPinned) := by
  rw [handleChatPositionUpdatedSignals, handleChatPositionUpdated]
  cases m.chatIndexMap.value chatId with
  | none => exact ⟨hm, .nil _⟩
  | some chatIndex =>
      dsimp only
      cases hget : m.chatList[chatIndex]? with
      | none => exact ⟨hm, .nil _⟩
      | some chat =>
          dsimp only
          have hset : ∀ {β : Type} (f : ListChatData → β), f { chat with order := order } = f chat →
              (m.chatList.set chatIndex { chat with order := order }).map f = m.chatList.map f :=
            fun f hf => map_set_of_eq hget hf
          have hm' : RowsLead { m with chatList := m.chatList.set chatIndex { chat with order := order } } :=
            (leads_congr (hset ListChatData.key rfl)).mpr hm
          have hids : chatIds { m with chatList := m.chatList.set chatIndex { chat with order := order } } =
              m.chatIds := hset ListChatData.chatId rfl
          have hchat : (m.chatList.set chatIndex { chat with order := order })[chatIndex]? =
              some { chat with order := order } := by
            rw [List.getElem?_set_self (List.getElem?_eq_some_iff.mp hget).1]
          obtain ⟨hlead, hmirrors⟩ := updateChatOrder_mirrored hm' hchat
          obtain ⟨hlead', hmirrors'⟩ := updateChatIsPinned_mirrored hlead
            (updateChatOrder { m with chatList := m.chatList.set chatIndex { chat with order := order } }
              { chat with order := order } chatIndex).2 isPinned
          rw [MirrorsIds, hids] at hmirrors
          exact ⟨hlead', hmirrors.append hmirrors'⟩

theorem reset_mirrored (m : ChatListModel) : m.reset.RowsLead ∧ MirrorsIds (resetSignals m) m m.reset := by
  refine ⟨Indexes.empty.leads, ?_⟩
  rw [resetSignals]
  split_ifs with h
  · rw [MirrorsIds, chatIds, List.isEmpty_iff.mp h]
    exact .nil _
  · exact mirrors_reset _ _

/-- **Step lemma.** -/
theorem step_mirrored (m : ChatListModel) (e : Event) (hm : m.RowsLead) :
    (step m e).RowsLead ∧ MirrorsIds (signals m e) m (step m e) := by
  cases e with
  | chatAddedToList chatData order isPinned => exact handleChatAddedToList_mirrored hm chatData order isPinned
  | chatRemovedFromList chatId => exact handleChatRemovedFromList_mirrored hm chatId
  | chatPositionUpdated chatId order isPinned => exact handleChatPositionUpdated_mirrored hm chatId order isPinned
  | reset => exact reset_mirrored m

end ChatListModel

end YaqtLib
