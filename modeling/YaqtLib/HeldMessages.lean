import YaqtLib.MediaIndex
import YaqtLib.MessagesIndex

/-! Which message objects a model can hold after a step: the ones it held before, and the ones it was given. -/

namespace YaqtLib

open Containers TdConst

/-- The message objects a class holds apart from its rows. -/
class HoldsMessages (Own : Type) where
  others : Own → List QVariantMap

namespace MessagesModel

variable {Own : Type}

theorem mem_insertLoop {newMessages : List MessageData} {i : Int} {row : MessageData} (m : MessagesModel Own)
    (h : row ∈ (insertLoop m i newMessages).messages) : row ∈ m.messages ∨ row ∈ newMessages := by
  induction newMessages generalizing m i with
  | nil => exact .inl h
  | cons message rest ih =>
      rcases ih _ h with hrow | hrow
      · rcases List.eq_or_mem_of_mem_insertIdx hrow with rfl | hmem
        · exact .inr List.mem_cons_self
        · exact .inl hmem
      · exact .inr (List.mem_cons_of_mem _ hrow)

section Within

variable [HoldsMessages Own]

/-- Every message object that is held meets a condition. -/
def Within (S : QVariantMap → Prop) (m : MessagesModel Own) : Prop :=
  (∀ row ∈ m.messages, S row.messageData) ∧ ∀ message ∈ HoldsMessages.others m.own, S message

variable {S : QVariantMap → Prop} {m m' : MessagesModel Own}

theorem Within.of_rows (h : Within S m) (hown : m'.own = m.own)
    (hrows : ∀ row ∈ m'.messages, S row.messageData) : Within S m' := ⟨hrows, by rw [hown]; exact h.2⟩

theorem Within.sameButAlbums (h : Within S m) (hsame : SameButAlbums m m') : Within S m' := by
  have hdata : m'.messages.map MessageData.messageData = m.messages.map MessageData.messageData :=
    hsame.map_eq MessageData.messageData fun _ => rfl
  refine h.of_rows hsame.sameMembers.own fun row hrow => ?_
  have hmem : row.messageData ∈ m.messages.map MessageData.messageData := hdata ▸ List.mem_map_of_mem hrow
  obtain ⟨row', hrow', heq⟩ := List.mem_map.mp hmem
  rw [← heq]
  exact h.1 row' hrow'

theorem Within.insertMessagesAt (h : Within S m) (i : Int) {newMessages : List MessageData}
    (hnew : ∀ row ∈ newMessages, S row.messageData) : Within S (m.insertMessagesAt i newMessages) := by
  refine h.of_rows (insertLoop_sameMembers m i newMessages).own fun row hrow => ?_
  rcases mem_insertLoop m hrow with hmem | hmem
  · exact h.1 row hmem
  · exact hnew row hmem

theorem Within.appendMessages (h : Within S m) {newMessages : List MessageData}
    (hnew : ∀ row ∈ newMessages, S row.messageData) : Within S (m.appendMessages newMessages) := by
  refine h.of_rows rfl fun row hrow => ?_
  rcases List.mem_append.mp hrow with hmem | hmem
  · exact h.1 row hmem
  · exact hnew row hmem

theorem Within.prependMessages (h : Within S m) {newMessages : List MessageData}
    (hnew : ∀ row ∈ newMessages, S row.messageData) : Within S (m.prependMessages newMessages) := by
  refine h.of_rows rfl fun row hrow => ?_
  rcases List.mem_append.mp hrow with hmem | hmem
  · exact hnew row hmem
  · exact h.1 row hmem

theorem Within.handleMessageReceived (h : Within S m) (chatId messageId : Int) {message : QVariantMap}
    (hnew : S (message.insert INTERACTION_INFO (.map (message.value INTERACTION_INFO).toMap))) :
    Within S (m.handleMessageReceived chatId messageId message) := by
  rw [MessagesModel.handleMessageReceived]
  split_ifs
  · split
    · refine h.of_rows rfl fun row hrow => ?_
      obtain ⟨i, hi⟩ := List.getElem?_of_mem hrow
      dsimp only at hi
      rw [List.getElem?_modify] at hi
      cases hget : m.messages[i]? with
      | none => rw [hget] at hi; exact absurd hi (by simp)
      | some old =>
          rw [hget, Option.map_eq_map, Option.map_some, Option.some.injEq] at hi
          have hold := h.1 old (List.mem_of_getElem? hget)
          rw [← hi]
          split_ifs
          · exact hnew
          · exact hold
    · exact h
  · exact h

end Within

/-- What the overrides of a class make rows of is held already or given to them. -/
class KeepsHeld (Own : Type) [Virtuals Own] [HoldsMessages Own] : Prop extends LawfulVirtuals Own where
  others_clearOwn : ∀ own : Own, HoldsMessages.others (Virtuals.clearOwn own) = HoldsMessages.others own
  appendMessages : ∀ {S : QVariantMap → Prop} {m : MessagesModel Own} {newMessages : List MessageData}, Within S m →
    (∀ row ∈ newMessages, S row.messageData) → Within S (Virtuals.appendMessages m newMessages)
  prependMessages : ∀ {S : QVariantMap → Prop} {m : MessagesModel Own} {newMessages : List MessageData}, Within S m →
    (∀ row ∈ newMessages, S row.messageData) → Within S (Virtuals.prependMessages m newMessages)
  prepare : ∀ {S : QVariantMap → Prop} {m : MessagesModel Own} (totalCount : Int) (fromUpdate : UpdateType),
    Within S m → Within S (Virtuals.handlePrepareMessagesReceived m totalCount fromUpdate).1

section Handlers

variable [Virtuals Own] [HoldsMessages Own] [KeepsHeld Own] {S : QVariantMap → Prop} {m : MessagesModel Own}

theorem within_stable (S : QVariantMap → Prop) : Stable fun m : MessagesModel Own => Within S m where
  members _ _ _ _ hm := hm
  clear {m} hm := by
    refine ⟨?_, ?_⟩
    · change ∀ row ∈ m.clear.messages, S row.messageData
      rw [messages_clear]
      exact fun row hrow => absurd hrow (by simp)
    · change ∀ message ∈ HoldsMessages.others (Virtuals.clearOwn m.own), S message
      rw [KeepsHeld.others_clearOwn]
      exact hm.2
  prepare totalCount fromUpdate hm := KeepsHeld.prepare totalCount fromUpdate hm

theorem processMessageData_messageData (m : MessagesModel Own) (message : MessageData) :
    (Virtuals.processMessageData m message).messageData = message.messageData := by
  obtain ⟨unread, h⟩ := LawfulVirtuals.processMessageData_eq m message
  rw [h]

theorem Within.insertMessages (h : Within S m) {newMessages : List MessageData}
    (hnew : ∀ row ∈ newMessages, S row.messageData) : Within S (m.insertMessages newMessages) := by
  unfold MessagesModel.insertMessages
  split_ifs
  · exact KeepsHeld.appendMessages h hnew
  · cases newMessages with
    | nil => exact h
    | cons first rest =>
        dsimp only
        split_ifs
        · exact KeepsHeld.appendMessages h hnew
        · exact KeepsHeld.prependMessages h hnew

theorem messageData_of_mem_addedMessages {messages : List QVariantMap} {row : MessageData}
    (h : row ∈ m.addedMessages messages) : row.messageData ∈ messages := by
  rw [addedMessages, (sortMessages_perm _ _).mem_iff, freshMessages, List.mem_filterMap] at h
  obtain ⟨message, hmessage, heq⟩ := h
  dsimp only at heq
  split_ifs at heq
  rw [Option.some.injEq] at heq
  rw [← heq, processMessageData_messageData]
  exact hmessage

theorem Within.handleInsertMessages (h : Within S m) {messages : List QVariantMap}
    (hnew : ∀ message ∈ messages, S message) : Within S (m.handleInsertMessages messages).1 := by
  refine Within.sameButAlbums ?_ (handleInsertMessages_same m messages)
  split_ifs
  · exact h
  · exact h.insertMessages fun row hrow => hnew _ (messageData_of_mem_addedMessages hrow)

theorem Within.handleMessagesReceived (h : Within S m) (fromUpdate : UpdateType) {messages : List QVariantMap}
    (hnew : ∀ message ∈ messages, S message) (totalCount : Int) :
    Within S (JumpableMessagesModel.handleMessagesReceived m fromUpdate messages totalCount).1 :=
  (within_stable S).handleMessagesReceived h fromUpdate messages totalCount fun _ => h.handleInsertMessages hnew

theorem Within.handleMessageSendSucceeded (h : Within S m) (chatId oldMessageId messageId : Int)
    {message : QVariantMap} (hnew : S message) :
    Within S (m.handleMessageSendSucceeded chatId oldMessageId messageId message).1 := by
  rw [MessagesModel.handleMessageSendSucceeded]
  split_ifs
  · split
    · exact h
    · rename_i pos hpos
      have hset : ∀ row ∈ m.messages.set pos { Virtuals.processMessageData m (MessageData.create message messageId) with
          generatedContentUnread := true }, S row.messageData := by
        intro row hrow
        rcases List.mem_or_eq_of_mem_set hrow with hmem | rfl
        · exact h.1 row hmem
        · change S (Virtuals.processMessageData m (MessageData.create message messageId)).messageData
          rw [processMessageData_messageData]
          exact hnew
      dsimp only
      split_ifs
      · exact h.of_rows rfl fun row hrow => hset row ((move_perm _ _ _).mem_iff.mp hrow)
      · exact h.of_rows rfl hset
  · exact h

theorem Within.insertMessageInOrder (h : Within S m) (messageId : Int) {message : QVariantMap} (hnew : S message)
    (inverted : Bool) : Within S (JumpableMessagesModel.insertMessageInOrder m messageId message inverted) := by
  have hrow : ∀ row ∈ [MessageData.create message messageId], S row.messageData := by
    intro row hrow
    rw [List.mem_singleton.mp hrow]
    exact hnew
  exact JumpableMessagesModel.insertMessageInOrder_of h (KeepsHeld.appendMessages h hrow)
    (KeepsHeld.prependMessages h hrow) (fun i => h.insertMessagesAt i hrow) inverted

theorem Within.handleNewMessageReceived (h : Within S m) {message : QVariantMap} (hnew : S message) :
    Within S (ReadableMessagesModel.handleNewMessageReceived m message) := by
  rw [ReadableMessagesModel.handleNewMessageReceived]
  dsimp only
  split_ifs
  · exact h
  · refine Within.sameButAlbums (h.insertMessages fun row hrow => ?_) (setMessagesAlbum_same _ _)
    rw [List.mem_singleton.mp hrow, processMessageData_messageData]
    exact hnew
  · exact h

end Handlers

end MessagesModel

open MessagesModel

instance : HoldsMessages ForumTopicMembers where
  others _ := []

instance : KeepsHeld ForumTopicMembers where
  others_clearOwn _ := rfl
  appendMessages h hnew := h.appendMessages hnew
  prependMessages h hnew := h.prependMessages hnew
  prepare {S m} totalCount fromUpdate h := by
    change Within S (ReadableMessagesModel.handlePrepareMessagesReceived m totalCount fromUpdate)
    obtain ⟨startReached, endReached, heq⟩ :=
      ReadableMessagesModel.handlePrepareMessagesReceived_eq m totalCount fromUpdate
    rw [heq]
    exact h

instance : HoldsMessages MediaMembers where
  others _ := []

namespace MediaMessagesModel

theorem within_updateTotalCount {S : QVariantMap → Prop} {m : MediaMessagesModel} (h : Within S m) (count : Int) :
    Within S (updateTotalCount m count) := by
  rw [updateTotalCount]
  split_ifs
  · exact h
  · exact h

instance : KeepsHeld MediaMembers where
  others_clearOwn _ := rfl
  appendMessages {S m newMessages} h hnew := by
    change Within S (appendMessages m newMessages)
    rw [appendMessages]
    split_ifs
    · exact h.prependMessages hnew
    · exact h.appendMessages hnew
  prependMessages {S m newMessages} h hnew := by
    change Within S (prependMessages m newMessages)
    rw [prependMessages]
    split_ifs
    · exact h.appendMessages hnew
    · exact h.prependMessages hnew
  prepare {S m} totalCount fromUpdate h := by
    change Within S (JumpableMessagesModel.handlePrepareMessagesReceived (updateTotalCount m totalCount) totalCount
      fromUpdate)
    have hcount := within_updateTotalCount h totalCount
    unfold JumpableMessagesModel.handlePrepareMessagesReceived
    split_ifs
    · cases fromUpdate <;> exact hcount
    · exact hcount

end MediaMessagesModel

instance : HoldsMessages ChatMembers where
  others own := own.pendingSponsoredMessages

namespace ChatMessagesModel

variable {S : QVariantMap → Prop}

theorem within_insertSponsoredMessage {m : ChatMessagesModel} (h : Within S m) (insertIndex : Int)
    {message : QVariantMap} (hnew : S message) (messageId : Int) :
    Within S (insertSponsoredMessage m insertIndex message messageId) := by
  refine h.of_rows rfl fun row hrow => ?_
  rcases List.eq_or_mem_of_mem_insertIdx hrow with rfl | hmem
  · exact hnew
  · exact h.1 row hmem

theorem within_insertPendingBefore {m : ChatMessagesModel} (h : Within S m) (insertIndex : Int)
    {pending : List QVariantMap} (hpending : ∀ message ∈ pending, S message) :
    Within S (insertPendingBefore m insertIndex pending).1 ∧
      ∀ message ∈ (insertPendingBefore m insertIndex pending).2, S message := by
  induction pending generalizing m insertIndex with
  | nil => exact ⟨h, hpending⟩
  | cons message rest ih =>
      rw [insertPendingBefore]
      obtain ⟨hmessage, hrest⟩ := List.forall_mem_cons.mp hpending
      split_ifs
      · exact ih (within_insertSponsoredMessage h _ hmessage _) _ hrest
      · exact ⟨h, hpending⟩

theorem within_insertPendingAfter {m : ChatMessagesModel} (h : Within S m) (insertIndex : Int)
    {pending : List QVariantMap} (hpending : ∀ message ∈ pending, S message) :
    Within S (insertPendingAfter m insertIndex pending).1 ∧
      ∀ message ∈ (insertPendingAfter m insertIndex pending).2, S message := by
  induction pending generalizing m insertIndex with
  | nil => exact ⟨h, hpending⟩
  | cons message rest ih =>
      rw [insertPendingAfter]
      obtain ⟨hmessage, hrest⟩ := List.forall_mem_cons.mp hpending
      split_ifs
      · exact ih (within_insertSponsoredMessage h _ hmessage _) _ hrest
      · exact ⟨h, hpending⟩

theorem within_insertPendingSponsoredMessages {m : ChatMessagesModel} (h : Within S m) (totalCount : Int)
    (fromUpdate : UpdateType) : Within S (insertPendingSponsoredMessages m totalCount fromUpdate) := by
  rw [insertPendingSponsoredMessages]
  split_ifs
  · cases fromUpdate with
    | updatePreviousSlice =>
        obtain ⟨hrows, hpending⟩ := within_insertPendingBefore h _ h.2
        exact ⟨hrows.1, hpending⟩
    | updateNextSlice =>
        obtain ⟨hrows, hpending⟩ := within_insertPendingAfter h _ h.2
        exact ⟨hrows.1, hpending⟩
    | updateInitial => exact h
    | updateReload => exact h
  · exact h

instance : KeepsHeld ChatMembers where
  others_clearOwn _ := rfl
  appendMessages {S m newMessages} h hnew := by
    change Within S (appendMessages m newMessages)
    rw [appendMessages]
    split_ifs
    · exact h.insertMessagesAt _ hnew
    · exact h.appendMessages hnew
  prependMessages h hnew := h.prependMessages hnew
  prepare {S m} totalCount fromUpdate h := by
    change Within S (insertPendingSponsoredMessages (ReadableMessagesModel.handlePrepareMessagesReceived m totalCount
      fromUpdate) totalCount fromUpdate)
    obtain ⟨startReached, endReached, heq⟩ :=
      ReadableMessagesModel.handlePrepareMessagesReceived_eq m totalCount fromUpdate
    rw [heq]
    refine within_insertPendingSponsoredMessages ?_ totalCount fromUpdate
    exact h

end ChatMessagesModel

end YaqtLib
