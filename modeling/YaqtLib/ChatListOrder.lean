import YaqtLib.ChatListModel
import YaqtLib.Reordering
import YaqtLib.Runs

/-! The order of a chat list and its index map. A row that changes is taken out of the sorted rows and put
back where it belongs; each operation is described by what stands before and behind that row. -/

namespace YaqtLib

open Containers IndexMap Runs

namespace ListChatData

/-- The order of the rows: by the order of the chats, the later chat id first among equal orders. -/
def Precedes (a b : ListChatData) : Prop := b.order < a.order ∨ (a.order = b.order ∧ b.chatId < a.chatId)

instance (a b : ListChatData) : Decidable (Precedes a b) := inferInstanceAs (Decidable (_ ∨ _))

theorem Precedes.trans {a b c : ListChatData} (h : Precedes a b) (h' : Precedes b c) : Precedes a c := by
  unfold Precedes at *
  omega

instance : IsTrans ListChatData Precedes := ⟨fun _ _ _ => Precedes.trans⟩

theorem precedes_or_precedes {a b : ListChatData} (h : a.chatId ≠ b.chatId) : Precedes a b ∨ Precedes b a := by
  have hcases := Int.lt_or_gt_of_ne h
  unfold Precedes
  omega

theorem compareTo_neg_iff {a b : ListChatData} (h : a.chatId ≠ b.chatId) :
    a.compareTo b < 0 ↔ Precedes a b := by
  have hcases := Int.lt_or_gt_of_ne h
  unfold compareTo Precedes
  split_ifs <;> omega

theorem compareTo_pos_iff (a b : ListChatData) : 0 < a.compareTo b ↔ Precedes b a := by
  unfold compareTo Precedes
  split_ifs <;> omega

theorem compareTo_nonneg_iff (a b : ListChatData) : 0 ≤ a.compareTo b ↔ Precedes b a := by
  unfold compareTo Precedes
  split_ifs <;> omega

theorem keysDistinct_iff_nodup_chatId {rows : List ListChatData} :
    KeysDistinct key rows ↔ (rows.map chatId).Nodup := by
  have : rows.filterMap key = rows.map chatId := List.filterMap_eq_map ▸ rfl
  rw [keysDistinct_iff_nodup, this]

/-- The keys of the rows around a row of the list. -/
theorem chatId_ne_of_mem {pre post : List ListChatData} {chat other : ListChatData}
    (hd : KeysDistinct key (pre ++ chat :: post)) (h : other ∈ pre ++ post) : chat.chatId ≠ other.chatId := by
  have hperm : (pre ++ chat :: post).Perm (chat :: (pre ++ post)) := List.perm_middle
  have := (List.pairwise_cons.mp (hd.perm hperm)).1 other h chat.chatId rfl
  exact fun heq => this (by rw [heq]; rfl)

end ListChatData

namespace ChatListModel

open ListChatData

/-- The rows are sorted, and the index map is their exact inverse. -/
structure InOrder (m : ChatListModel) : Prop where
  sorted : m.chatList.Pairwise Precedes
  indexed : Indexes ListChatData.key m.chatList m.chatIndexMap

/-- The rows of the other chats, in their order. -/
def others (m : ChatListModel) (chatId : Int) : List ListChatData :=
  m.chatList.filter fun chat => chat.chatId ≠ chatId

theorem inOrder_new : new.InOrder := ⟨List.Pairwise.nil, Indexes.empty⟩

namespace InOrder

variable {m : ChatListModel}

theorem keysDistinct (h : m.InOrder) : KeysDistinct ListChatData.key m.chatList := h.indexed.keysDistinct

theorem nodup (h : m.InOrder) : (m.chatList.map ListChatData.chatId).Nodup :=
  keysDistinct_iff_nodup_chatId.mp h.keysDistinct

theorem contains_iff (h : m.InOrder) (chatId : Int) :
    m.chatIndexMap.contains chatId = true ↔ ∃ chat ∈ m.chatList, chat.chatId = chatId := by
  rw [h.indexed.contains_iff]
  simp [ListChatData.key]

theorem value_iff (h : m.InOrder) (chatId : Int) (i : Nat) :
    m.chatIndexMap.value chatId = some i ↔ ∃ chat, m.chatList[i]? = some chat ∧ chat.chatId = chatId := by
  rw [h.indexed chatId i]
  simp [ListChatData.key]

/-- A listed chat, with the rows before and behind it. -/
theorem exists_split (h : m.InOrder) {chatId : Int} {i : Nat} (hi : m.chatIndexMap.value chatId = some i) :
    ∃ pre chat post, m.chatList = pre ++ chat :: post ∧ pre.length = i ∧ m.chatList[i]? = some chat ∧
      chat.chatId = chatId := by
  obtain ⟨pre, chat, post, hrows, hlen, hget, hkey⟩ := h.indexed.leads.exists_split hi
  exact ⟨pre, chat, post, hrows, hlen, hget, Option.some.inj hkey⟩

/-- The rows of the other chats around a listed chat. -/
theorem others_eq {pre post : List ListChatData} {chat : ListChatData} {chatId : Int} (h : m.InOrder)
    (hrows : m.chatList = pre ++ chat :: post) (hid : chat.chatId = chatId) : m.others chatId = pre ++ post := by
  subst hid
  have hd := h.keysDistinct
  rw [hrows] at hd
  have hne : ∀ other ∈ pre ++ post, other.chatId ≠ chat.chatId := fun other hother =>
    (chatId_ne_of_mem hd hother).symm
  rw [others, hrows, List.filter_append, List.filter_cons_of_neg (by simp), ← List.filter_append,
    List.filter_eq_self.mpr (by simpa using hne)]

end InOrder

theorem others_eq_self {m : ChatListModel} {chatId : Int} (h : ∀ chat ∈ m.chatList, chat.chatId ≠ chatId) :
    m.others chatId = m.chatList :=
  List.filter_eq_self.mpr (by simpa using h)

/-! ### Moving a row to its place -/

/-- The chat that is moved stands between the rows before and behind it. -/
theorem move_newIndexOf {pre post : List ListChatData} {chat : ListChatData}
    (hd : KeysDistinct ListChatData.key (pre ++ chat :: post)) (hsorted : (pre ++ post).Pairwise Precedes) :
    ∃ pre' post', pre' ++ post' = pre ++ post ∧
      newIndexOf (pre ++ chat :: post) chat pre.length = pre'.length ∧
      move (pre ++ chat :: post) pre.length pre'.length = pre' ++ chat :: post' ∧
      (pre' ++ chat :: post').Pairwise Precedes := by
  have hne : ∀ other ∈ pre ++ post, chat.chatId ≠ other.chatId := fun other => chatId_ne_of_mem hd
  apply Reordering.move_placeOf hsorted
  · intro other hother
    rw [decide_eq_true_iff]
    exact compareTo_neg_iff (hne other hother)
  · intro other _
    rw [decide_eq_true_iff]
    exact compareTo_pos_iff chat other
  · exact fun other hother => (precedes_or_precedes (hne other hother)).symm

/-- **Specification of `updateChatOrder`.** The row goes between the rows before and behind it, the other
rows stay in their order, and the index map follows. -/
theorem updateChatOrder_spec {m : ChatListModel} {pre post : List ListChatData} {chat : ListChatData}
    (hrows : m.chatList = pre ++ chat :: post) (hsorted : (pre ++ post).Pairwise Precedes)
    (hindexed : Indexes ListChatData.key m.chatList m.chatIndexMap) :
    ∃ pre' post', pre' ++ post' = pre ++ post ∧
      (updateChatOrder m chat pre.length).1.chatList = pre' ++ chat :: post' ∧
      (updateChatOrder m chat pre.length).2 = pre'.length ∧
      (updateChatOrder m chat pre.length).1.InOrder := by
  obtain ⟨rows, map⟩ := m
  dsimp only at hrows hindexed
  subst hrows
  obtain ⟨pre', post', hothers, hnew, hmove, hplace⟩ := move_newIndexOf hindexed.keysDistinct hsorted
  have hlen : pre'.length + post'.length = pre.length + post.length := by
    rw [← List.length_append, hothers, List.length_append]
  have hrange : MoveInRange (pre ++ chat :: post) pre.length pre'.length := by
    constructor <;> rw [List.length_append, List.length_cons] <;> omega
  have hindexed' := hindexed.move (x := chat) hrange (by simp)
  rw [hmove] at hindexed'
  by_cases hstay : pre'.length = pre.length
  · have heq : updateChatOrder ⟨pre ++ chat :: post, map⟩ chat pre.length =
        (⟨pre ++ chat :: post, map⟩, pre.length) := by
      rw [updateChatOrder]
      dsimp only
      rw [hnew, if_pos hstay, hstay]
    obtain ⟨rfl, rfl⟩ := List.append_inj hothers hstay
    rw [heq]
    exact ⟨pre', post', rfl, rfl, rfl, hplace, hindexed⟩
  · have heq : updateChatOrder ⟨pre ++ chat :: post, map⟩ chat pre.length =
        (⟨pre' ++ chat :: post', reindexMoved ListChatData.key (pre' ++ chat :: post') pre.length pre'.length
          (reindex ListChatData.key [chat] pre'.length map)⟩, pre'.length) := by
      rw [updateChatOrder]
      dsimp only
      rw [hnew, if_neg hstay, hmove]
      rfl
    rw [heq]
    exact ⟨pre', post', hothers, rfl, rfl, hplace, hindexed'⟩

/-! ### The operations -/

/-- The chat that is added goes between the rows before and behind it. -/
theorem handleChatAddedToList_spec {m : ChatListModel} (hm : m.InOrder) (chatData : ChatPointer) (order : Int)
    (isPinned : Bool) (hnew : m.chatIndexMap.contains chatData.chatId = false) :
    ∃ pre post, m.chatList = pre ++ post ∧
      (handleChatAddedToList m chatData order isPinned).chatList =
        pre ++ { data := chatData, order := order, isPinned := isPinned } :: post ∧
      (handleChatAddedToList m chatData order isPinned).InOrder := by
  obtain ⟨rows, map⟩ := m
  obtain ⟨hsorted, hindexed⟩ := hm
  dsimp only at hsorted hindexed hnew
  rw [handleChatAddedToList]
  generalize hchat : ({ data := chatData, order := order, isPinned := isPinned } : ListChatData) = chat
  have hid : chat.chatId = chatData.chatId := by rw [← hchat]; rfl
  have hnone : map.value chat.chatId = none := by rw [hid, ← QHash.contains_eq_false_iff]; exact hnew
  have habsent := (hindexed.value_eq_none_iff chat.chatId).mp hnone
  have hne : ∀ other ∈ rows, chat.chatId ≠ other.chatId := fun other hother heq =>
    habsent other hother (by rw [heq]; rfl)
  have hnonneg : ∀ other ∈ rows, decide (0 ≤ chat.compareTo other) = true ↔ Precedes other chat := by
    intro other _
    rw [decide_eq_true_iff]
    exact compareTo_nonneg_iff chat other
  obtain ⟨pre, post, hrows, hpos, hpre, hpost⟩ := Reordering.exists_split_down hsorted hnonneg
    fun other hother => (precedes_or_precedes (hne other hother)).symm
  subst hrows
  refine ⟨pre, post, rfl, ?_, ?_, ?_⟩
  · dsimp only
    rw [hpos, insertIdx_append_length]
  · dsimp only
    rw [hpos, insertIdx_append_length]
    exact pairwise_splice hsorted hpre hpost
  · dsimp only
    rw [hpos, insertIdx_append_length, drop_append_cons]
    exact hindexed.insert (hindexed.keysDistinct.insert rfl habsent)

theorem handleChatRemovedFromList_spec {m : ChatListModel} (hm : m.InOrder) {chat : ListChatData}
    {pre post : List ListChatData} (hrows : m.chatList = pre ++ chat :: post) :
    (handleChatRemovedFromList m chat.chatId).chatList = pre ++ post ∧
      (handleChatRemovedFromList m chat.chatId).InOrder := by
  obtain ⟨rows, map⟩ := m
  obtain ⟨hsorted, hindexed⟩ := hm
  dsimp only at hrows hsorted hindexed
  subst hrows
  have hvalue : map.value chat.chatId = some pre.length :=
    hindexed.value_of_getElem (r := chat) (by simp) rfl
  have hsub : (pre ++ post).Sublist (pre ++ chat :: post) := (List.sublist_cons_self _ _).append_left pre
  rw [handleChatRemovedFromList]
  dsimp only
  rw [hvalue]
  dsimp only
  rw [eraseIdx_append_cons, List.drop_left]
  exact ⟨rfl, hsorted.sublist hsub, hindexed.erase rfl⟩

/-- The chat has its new order and pin, at its place among the other rows. -/
theorem handleChatPositionUpdated_spec {m : ChatListModel} (hm : m.InOrder) {chat : ListChatData}
    {pre post : List ListChatData} (hrows : m.chatList = pre ++ chat :: post) (order : Int) (isPinned : Bool) :
    ∃ pre' post', pre' ++ post' = pre ++ post ∧
      (handleChatPositionUpdated m chat.chatId order isPinned).chatList =
        pre' ++ { chat with order := order, isPinned := isPinned } :: post' ∧
      (handleChatPositionUpdated m chat.chatId order isPinned).InOrder := by
  obtain ⟨rows, map⟩ := m
  obtain ⟨hsorted, hindexed⟩ := hm
  dsimp only at hrows hsorted hindexed
  subst hrows
  have hvalue : map.value chat.chatId = some pre.length :=
    hindexed.value_of_getElem (r := chat) (by simp) rfl
  have hget : (pre ++ chat :: post)[pre.length]? = some chat := by simp
  have hset : (pre ++ chat :: post).set pre.length { chat with order := order } =
      pre ++ { chat with order := order } :: post := by simp
  have hindexed' : Indexes ListChatData.key (pre ++ { chat with order := order } :: post) map :=
    (indexes_congr (by simp [ListChatData.key, ListChatData.chatId])).mp hindexed
  have hsorted' : (pre ++ post).Pairwise Precedes :=
    hsorted.sublist ((List.sublist_cons_self _ _).append_left pre)
  obtain ⟨pre', post', hothers, hlist, hindex, hplace, hmap⟩ := updateChatOrder_spec
    (m := ⟨pre ++ { chat with order := order } :: post, map⟩) rfl hsorted' hindexed'
  have heq : handleChatPositionUpdated ⟨pre ++ chat :: post, map⟩ chat.chatId order isPinned =
      updateChatIsPinned (updateChatOrder ⟨pre ++ { chat with order := order } :: post, map⟩
        { chat with order := order } pre.length).1 pre'.length isPinned := by
    rw [handleChatPositionUpdated]
    dsimp only
    rw [hvalue]
    dsimp only
    rw [hget]
    dsimp only
    rw [hset, hindex]
  have hmodify : (updateChatIsPinned (updateChatOrder ⟨pre ++ { chat with order := order } :: post, map⟩
      { chat with order := order } pre.length).1 pre'.length isPinned).chatList =
        pre' ++ { chat with order := order, isPinned := isPinned } :: post' := by
    rw [updateChatIsPinned, hlist, modify_append_cons]
  rw [hlist] at hplace hmap
  rw [heq]
  refine ⟨pre', post', hothers, hmodify, ?_, ?_⟩
  · rw [hmodify]
    simpa [List.pairwise_append, List.pairwise_cons, Precedes, ListChatData.chatId] using hplace
  · rw [hmodify]
    exact (indexes_congr (by simp [ListChatData.key, ListChatData.chatId])).mp hmap

/-- A chat that is not listed is left out by the position handler and by the removal. -/
theorem handle_of_not_listed {m : ChatListModel} {chatId : Int} (h : m.chatIndexMap.value chatId = none)
    (order : Int) (isPinned : Bool) :
    handleChatRemovedFromList m chatId = m ∧ handleChatPositionUpdated m chatId order isPinned = m := by
  rw [handleChatRemovedFromList, handleChatPositionUpdated, h]
  exact ⟨rfl, rfl⟩

/-- Removing or repositioning a chat keeps the list in order and the other rows as they were. -/
theorem handle_others {m : ChatListModel} (hm : m.InOrder) (chatId order : Int) (isPinned : Bool) :
    (handleChatRemovedFromList m chatId).InOrder ∧
    (handleChatRemovedFromList m chatId).chatList = m.others chatId ∧
    (handleChatPositionUpdated m chatId order isPinned).InOrder ∧
    (handleChatPositionUpdated m chatId order isPinned).others chatId = m.others chatId := by
  cases hvalue : m.chatIndexMap.value chatId with
  | none =>
      obtain ⟨hremove, hupdate⟩ := handle_of_not_listed hvalue order isPinned
      have habsent : ∀ chat ∈ m.chatList, chat.chatId ≠ chatId := by
        simpa [ListChatData.key] using (hm.indexed.value_eq_none_iff chatId).mp hvalue
      rw [hremove, hupdate]
      exact ⟨hm, (others_eq_self habsent).symm, hm, rfl⟩
  | some i =>
      obtain ⟨pre, chat, post, hrows, -, -, rfl⟩ := hm.exists_split hvalue
      obtain ⟨hremoved, hremove⟩ := handleChatRemovedFromList_spec hm hrows
      obtain ⟨pre', post', hothers, hrows', hupdate⟩ := handleChatPositionUpdated_spec hm hrows order isPinned
      refine ⟨hremove, by rw [hremoved, hm.others_eq hrows rfl], hupdate, ?_⟩
      rw [hm.others_eq hrows rfl, ← hothers]
      exact hupdate.others_eq hrows' rfl

/-! ### Runs -/

/-- A chat is added while it is not in the list. -/
def AddsUnlisted (m : ChatListModel) : Event → Prop
  | .chatAddedToList chatData _ _ => m.chatIndexMap.contains chatData.chatId = false
  | _ => True

instance (m : ChatListModel) : ∀ e : Event, Decidable (AddsUnlisted m e) := by
  rintro (_ | _) <;> dsimp only [AddsUnlisted] <;> infer_instance

theorem inOrder_step (m : ChatListModel) (e : Event) (hm : m.InOrder) (he : AddsUnlisted m e) :
    (step m e).InOrder := by
  cases e with
  | chatAddedToList chatData order isPinned =>
      obtain ⟨_, _, -, -, hadded⟩ := handleChatAddedToList_spec hm chatData order isPinned he
      exact hadded
  | chatRemovedFromList chatId => exact (handle_others hm chatId 0 false).1
  | chatPositionUpdated chatId order isPinned => exact (handle_others hm chatId order isPinned).2.2.1
  | reset => exact inOrder_new

/-- **The chat list.** In every state a new list reaches, the rows are strictly sorted, no chat occurs
twice, the map holds exactly the row of each listed chat, and taking a chat out or giving it another
position leaves the other rows in their order. -/
theorem chatList_ordered (es : List Event) (hes : Along step AddsUnlisted new es) :
    (run step new es).chatList.Pairwise Precedes ∧
    ((run step new es).chatList.map ListChatData.chatId).Nodup ∧
    (∀ chatId i, (run step new es).chatIndexMap.value chatId = some i ↔
      ∃ chat, (run step new es).chatList[i]? = some chat ∧ chat.chatId = chatId) ∧
    (∀ chatId, (step (run step new es) (.chatRemovedFromList chatId)).chatList =
      (run step new es).others chatId) ∧
    ∀ chatId order isPinned, (step (run step new es) (.chatPositionUpdated chatId order isPinned)).others chatId =
      (run step new es).others chatId := by
  have hm : (run step new es).InOrder := Along.invariant (I := InOrder) inOrder_step inOrder_new hes
  exact ⟨hm.sorted, hm.nodup, hm.value_iff, fun chatId => (handle_others hm chatId 0 false).2.1,
    fun chatId order isPinned => (handle_others hm chatId order isPinned).2.2.2⟩

theorem chatList_ordered_run :
    let m := run step new [.chatAddedToList ⟨0, 1⟩ 5 false, .chatAddedToList ⟨1, 2⟩ 5 false,
      .chatAddedToList ⟨2, 3⟩ 9 true, .chatPositionUpdated 1 10 false]
    m.chatList.Pairwise Precedes ∧ (m.chatList.map ListChatData.chatId).Nodup ∧
    (∀ chatId i, m.chatIndexMap.value chatId = some i ↔
      ∃ chat, m.chatList[i]? = some chat ∧ chat.chatId = chatId) ∧
    (∀ chatId, (step m (.chatRemovedFromList chatId)).chatList = m.others chatId) ∧
    ∀ chatId order isPinned, (step m (.chatPositionUpdated chatId order isPinned)).others chatId =
      m.others chatId :=
  chatList_ordered _ (by decide)

end ChatListModel

end YaqtLib
