import YaqtLib.MessageOrder
import YaqtLib.MessagesIndex

/-! The order of the ordinary rows of the readable models. A batch goes to one end as a whole and a sent
message goes to the very end, so the rows stay ascending as long as batches lie beyond one end and a sent
message gets the largest id; sponsored rows may lie anywhere in between. -/

namespace YaqtLib

open Containers IndexMap Runs MessagesModel

/-- The id of a row that is not sponsored. -/
def ordinaryId (message : MessageData) : Option Int := if message.isSponsored then none else some message.messageId

/-- The ids of the ordinary rows, in the order of the rows. -/
def ordinaryIds (rows : List MessageData) : List Int := rows.filterMap ordinaryId

/-- The ordinary rows are strictly ascending. -/
def Ascending (rows : List MessageData) : Prop := (ordinaryIds rows).Pairwise (· < ·)

@[simp] theorem ordinaryIds_nil : ordinaryIds [] = [] := rfl

@[simp] theorem ordinaryIds_append (rows rows' : List MessageData) :
    ordinaryIds (rows ++ rows') = ordinaryIds rows ++ ordinaryIds rows' :=
  List.filterMap_append

theorem ordinaryIds_of_ordinary {rows : List MessageData} (h : ∀ r ∈ rows, r.isSponsored = false) :
    ordinaryIds rows = rows.map MessageData.messageId := by
  rw [ordinaryIds, ← List.filterMap_eq_map]
  refine List.filterMap_congr fun r hr => ?_
  simp [ordinaryId, h r hr]

theorem ordinaryIds_sublist {rows rows' : List MessageData}
    (h : (rows'.map ordinaryId).Sublist (rows.map ordinaryId)) :
    (ordinaryIds rows').Sublist (ordinaryIds rows) := by
  have := h.filterMap id
  rwa [List.filterMap_map, List.filterMap_map] at this

theorem ordinaryIds_congr {rows rows' : List MessageData} (h : rows'.map ordinaryId = rows.map ordinaryId) :
    ordinaryIds rows' = ordinaryIds rows := by
  have := congrArg (List.filterMap id) h
  rwa [List.filterMap_map, List.filterMap_map] at this

theorem insertAt_eq (rows : List MessageData) (i : Int) (x : MessageData) :
    ∃ pre post, rows = pre ++ post ∧ insertAt rows i x = pre ++ x :: post := by
  obtain ⟨pre, post, rfl, hpre⟩ := exists_split_of_le (Nat.min_le_right i.toNat rows.length)
  refine ⟨pre, post, rfl, ?_⟩
  rw [insertAt, ← hpre]
  exact insertIdx_append_length pre post x

theorem ordinaryIds_insertAt_sponsored (rows : List MessageData) (i : Int) {x : MessageData}
    (hx : x.isSponsored = true) : ordinaryIds (insertAt rows i x) = ordinaryIds rows := by
  obtain ⟨pre, post, hrows, hinsert⟩ := insertAt_eq rows i x
  have hnone : ordinaryId x = none := by rw [ordinaryId, if_pos hx]
  rw [hinsert, hrows, ordinaryIds_append, ordinaryIds_append]
  exact congrArg _ (List.filterMap_cons_none hnone)

namespace MessagesModel

variable {Own : Type}

theorem lastKnownId_eq (m : MessagesModel Own) : m.lastKnownId = (ordinaryIds m.messages).getLast?.getD (-1) := by
  rw [lastKnownId, ordinaryIds, List.getLast?_filterMap]
  generalize m.messages.reverse = rows
  induction rows with
  | nil => rfl
  | cons r rows ih =>
      cases hr : r.isSponsored with
      | false => simp [ordinaryId, hr]
      | true => simpa [ordinaryId, hr] using ih

theorem SameButAlbums.ordinaryIds_eq {m m' : MessagesModel Own} (h : SameButAlbums m m') :
    ordinaryIds m'.messages = ordinaryIds m.messages :=
  ordinaryIds_congr (h.map_eq ordinaryId fun _ => rfl)

theorem Deletes.ascending {m m' : MessagesModel Own} (h : Deletes m m') (hm : Ascending m.messages) :
    Ascending m'.messages :=
  hm.sublist (ordinaryIds_sublist (h.map_sublist ordinaryId fun _ => rfl))

/-- New rows lie behind the ordinary ones, and an append puts them there, or before all of them. -/
def JoinsInOrder (m : MessagesModel Own) (appendsAtEnd : Bool) (newIds : List Int) : Prop :=
  ((∀ r ∈ ordinaryIds m.messages, ∀ k ∈ newIds, r < k) ∧
    (appendsAtEnd = true ∨ ordinaryIds m.messages = [] ∧ newIds.length ≤ 1)) ∨
  (ordinaryIds m.messages ≠ [] ∧ ∀ r ∈ ordinaryIds m.messages, ∀ k ∈ newIds, k < r)

instance (m : MessagesModel Own) (appendsAtEnd : Bool) (newIds : List Int) :
    Decidable (m.JoinsInOrder appendsAtEnd newIds) :=
  inferInstanceAs (Decidable (_ ∨ _))

theorem JoinsInOrder.perm {m : MessagesModel Own} {appendsAtEnd : Bool} {newIds newIds' : List Int}
    (h : m.JoinsInOrder appendsAtEnd newIds) (hperm : newIds'.Perm newIds) :
    m.JoinsInOrder appendsAtEnd newIds' := by
  rcases h with ⟨hnewer, hend⟩ | ⟨hne, holder⟩
  · exact Or.inl ⟨fun r hr k hk => hnewer r hr k (hperm.mem_iff.mp hk), by rwa [hperm.length_eq]⟩
  · exact Or.inr ⟨hne, fun r hr k hk => holder r hr k (hperm.mem_iff.mp hk)⟩

section Virtual

variable [Virtuals Own]

/-- A sorted batch that joins the rows in order keeps them ascending. -/
theorem ascending_insertMessages {m : MessagesModel Own} (hm : Ascending m.messages) {appendsAtEnd : Bool}
    {newMessages : List MessageData} (hnew : Ordered false newMessages)
    (hjoin : m.JoinsInOrder appendsAtEnd (newMessages.map MessageData.messageId))
    (happend : appendsAtEnd = true ∨ ordinaryIds m.messages = [] ∧ newMessages.length ≤ 1 →
      ordinaryIds (Virtuals.appendMessages m newMessages).messages =
        ordinaryIds m.messages ++ newMessages.map MessageData.messageId)
    (hprepend : Virtuals.prependMessages m newMessages = m.prependMessages newMessages) :
    Ascending (m.insertMessages newMessages).messages := by
  have hsorted : (newMessages.map MessageData.messageId).Pairwise (· < ·) := List.pairwise_map.mpr hnew.1
  have hids := ordinaryIds_of_ordinary hnew.2
  simp only [JoinsInOrder, List.length_map] at hjoin
  have hbehind : (∀ r ∈ ordinaryIds m.messages, ∀ k ∈ newMessages.map MessageData.messageId, r < k) →
      (appendsAtEnd = true ∨ ordinaryIds m.messages = [] ∧ newMessages.length ≤ 1) →
      Ascending (Virtuals.appendMessages m newMessages).messages := by
    intro hnewer hend
    rw [Ascending, happend hend]
    exact List.pairwise_append.mpr ⟨hm, hsorted, hnewer⟩
  have hbefore : (∀ r ∈ ordinaryIds m.messages, ∀ k ∈ newMessages.map MessageData.messageId, k < r) →
      Ascending (Virtuals.prependMessages m newMessages).messages := by
    intro holder
    rw [hprepend, Ascending, prependMessages, ordinaryIds_append, hids]
    exact List.pairwise_append.mpr ⟨hsorted, hm, fun k hk r hr => holder r hr k hk⟩
  unfold insertMessages
  split_ifs with hempty
  · rw [List.isEmpty_iff] at hempty
    rcases hjoin with ⟨hnewer, hend⟩ | ⟨hne, -⟩
    · exact hbehind hnewer hend
    · rw [hempty] at hne
      exact absurd rfl hne
  · cases newMessages with
    | nil => exact hm
    | cons first rest =>
        have hfirst : first.messageId ∈ (first :: rest).map MessageData.messageId := by simp
        -- the comparison with the last ordinary row tells on which side the batch lies
        have hlast : ∀ hne : ordinaryIds m.messages ≠ [],
            m.lastKnownId = (ordinaryIds m.messages).getLast hne := by
          intro hne
          rw [lastKnownId_eq, List.getLast?_eq_some_getLast hne, Option.getD_some]
        dsimp only
        split_ifs with hcmp
        · rcases hjoin with ⟨hnewer, hend⟩ | ⟨hne, holder⟩
          · exact hbehind hnewer hend
          · have := holder _ (List.getLast_mem hne) _ hfirst
            rw [hlast hne] at hcmp
            omega
        · rcases hjoin with ⟨hnewer, -⟩ | ⟨-, holder⟩
          · refine hbefore ?_
            by_cases hne : ordinaryIds m.messages = []
            · simp [hne]
            · have := hnewer _ (List.getLast_mem hne) _ hfirst
              rw [hlast hne] at hcmp
              omega
          · exact hbefore holder

variable [LawfulVirtuals Own]

/-- A batch of ordinary, distinct messages whose new ones join the rows in order. -/
def BatchInOrder (m : MessagesModel Own) (appendsAtEnd : Bool) (messages : List QVariantMap) : Prop :=
  (messages.map messageIdOf).Nodup ∧ (∀ messageData ∈ messages, isSponsoredMessage messageData = false) ∧
    m.JoinsInOrder appendsAtEnd ((messages.filter m.Fresh).map messageIdOf)

instance (m : MessagesModel Own) (appendsAtEnd : Bool) (messages : List QVariantMap) :
    Decidable (m.BatchInOrder appendsAtEnd messages) :=
  inferInstanceAs (Decidable (_ ∧ _ ∧ _))

/-- What is assumed of the object at hand: how it appends and prepends. -/
def JoinsAtEnds (m : MessagesModel Own) (appendsAtEnd : Bool) : Prop :=
  (∀ newMessages, (∀ r ∈ newMessages, r.isSponsored = false) →
    (appendsAtEnd = true ∨ ordinaryIds m.messages = [] ∧ newMessages.length ≤ 1) →
    ordinaryIds (Virtuals.appendMessages m newMessages).messages =
      ordinaryIds m.messages ++ newMessages.map MessageData.messageId) ∧
  (∀ newMessages, Virtuals.prependMessages m newMessages = m.prependMessages newMessages) ∧
  Virtuals.reverseOrder m = false

theorem ascending_handleInsertMessages {m : MessagesModel Own} (hm : Ascending m.messages) {appendsAtEnd : Bool}
    (hjoins : m.JoinsAtEnds appendsAtEnd) {messages : List QVariantMap}
    (hbatch : m.BatchInOrder appendsAtEnd messages) : Ascending (m.handleInsertMessages messages).1.messages := by
  rw [Ascending, (handleInsertMessages_same m messages).ordinaryIds_eq, ← Ascending]
  split_ifs
  · exact hm
  · have hordered : Ordered false (m.addedMessages messages) := by
      rw [addedMessages, hjoins.2.2]
      refine ordered_sortMessages ?_ ?_
      · intro r hr
        obtain ⟨messageData, hmem, hr⟩ := List.mem_filterMap.mp hr
        dsimp only at hr
        split_ifs at hr
        rw [← Option.some.inj hr, processMessageData_isSponsored]
        exact hbatch.2.1 messageData hmem
      · rw [ids_freshMessages]
        exact hbatch.1.sublist (List.filter_sublist.map _)
    exact ascending_insertMessages hm hordered (hbatch.2.2.perm (ids_addedMessages_perm m messages))
      (hjoins.1 _ hordered.2) (hjoins.2.1 _)

theorem ascending_handleNewMessageReceived [ReadableVirtuals Own] {m : MessagesModel Own}
    (hm : Ascending m.messages) {appendsAtEnd : Bool} (hjoins : m.JoinsAtEnds appendsAtEnd)
    {message : QVariantMap} (hord : isSponsoredMessage message = false)
    (hjoin : m.JoinsInOrder appendsAtEnd [messageIdOf message]) :
    Ascending (ReadableMessagesModel.handleNewMessageReceived m message).messages := by
  rw [ReadableMessagesModel.handleNewMessageReceived]
  dsimp only
  split_ifs
  · exact hm
  · rw [Ascending, (setMessagesAlbum_same _ _).ordinaryIds_eq, ← Ascending]
    have hordered : Ordered false
        [Virtuals.processMessageData m (MessageData.create message (messageIdOf message))] := by
      refine ⟨List.pairwise_singleton _ _, fun r hr => ?_⟩
      rw [List.mem_singleton.mp hr, processMessageData_isSponsored]
      exact hord
    refine ascending_insertMessages hm hordered ?_ (hjoins.1 _ hordered.2) (hjoins.2.1 _)
    rwa [List.map_singleton, processMessageData_messageId]
  · exact hm

/-- The confirmed message gets the largest id of the ordinary rows that stay. -/
def SentInOrder (m : MessagesModel Own) (chatId oldMessageId messageId : Int) (message : QVariantMap) : Prop :=
  m.chatId = chatId → ∀ pos ∈ m.messageIndexMap.value oldMessageId, isSponsoredMessage message = false ∧
    ∀ k ∈ ordinaryIds (m.messages.eraseIdx pos), k < messageId

instance (m : MessagesModel Own) (chatId oldMessageId messageId : Int) (message : QVariantMap) :
    Decidable (m.SentInOrder chatId oldMessageId messageId message) := by
  unfold SentInOrder
  infer_instance

theorem ascending_handleMessageSendSucceeded {m : MessagesModel Own} (hm : Ascending m.messages)
    {chatId oldMessageId messageId : Int} {message : QVariantMap}
    (hsent : m.SentInOrder chatId oldMessageId messageId message) :
    Ascending (m.handleMessageSendSucceeded chatId oldMessageId messageId message).1.messages := by
  by_cases hchat : m.chatId = chatId
  swap
  · rwa [handleMessageSendSucceeded, if_neg hchat]
  cases hold : m.messageIndexMap.value oldMessageId with
  | none => rwa [handleMessageSendSucceeded, if_pos hchat, hold]
  | some pos =>
      obtain ⟨hord, hlargest⟩ := hsent hchat pos hold
      rcases Nat.lt_or_ge pos m.messages.length with hlt | hge
      · obtain ⟨pre, old, post, hrows, hpre, -⟩ := exists_split_of_lt hlt
        have hid := m.sentMessage_messageId messageId message
        have hspons := m.sentMessage_isSponsored messageId message
        have herase : m.messages.eraseIdx pos = pre ++ post := by rw [← hpre, hrows, eraseIdx_append_cons]
        have hnew : ordinaryIds [m.sentMessage messageId message] = [messageId] := by
          simp [ordinaryIds, ordinaryId, hspons, hord, hid]
        rw [handleMessageSendSucceeded_eq m messageId message hchat hrows (by rw [hpre]; exact hold), Ascending,
          ordinaryIds_append, hnew]
        rw [herase] at hlargest
        have hsub : (ordinaryIds (pre ++ post)).Sublist (ordinaryIds m.messages) := by
          refine ordinaryIds_sublist (List.Sublist.map _ ?_)
          rw [hrows]
          exact (List.Sublist.refl pre).append (List.sublist_cons_self old post)
        refine List.pairwise_append.mpr ⟨hm.sublist hsub, List.pairwise_singleton _ _, ?_⟩
        intro k hk k' hk'
        rw [List.mem_singleton.mp hk']
        exact hlargest k hk
      · rw [handleMessageSendSucceeded, if_pos hchat, hold]
        dsimp only
        rw [List.set_eq_of_length_le hge, if_neg (by omega)]
        exact hm

end Virtual

end MessagesModel

/-! ### Chats -/

namespace ChatMessagesModel

/-- Whether new rows go behind all others: not with a single sponsored message. -/
def appendsAtEnd (m : ChatMessagesModel) : Bool :=
  !(m.own.containsSponsoredMessages && m.own.sponsoredMessagesMessagesBetween == 0)

theorem joinsAtEnds (m : ChatMessagesModel) : m.JoinsAtEnds (appendsAtEnd m) := by
  refine ⟨fun newMessages hs hend => ?_, fun _ => rfl, rfl⟩
  change ordinaryIds (appendMessages m newMessages).messages = _
  rw [appendMessages]
  dsimp only
  split
  case isTrue hsingle =>
    obtain ⟨hnone, hlen⟩ := hend.resolve_left (by simp [appendsAtEnd, hsingle])
    cases newMessages with
    | nil => simp [insertMessagesAt, insertLoop]
    | cons x rest =>
        obtain rfl : rest = [] := List.eq_nil_of_length_eq_zero (by simpa using hlen)
        obtain ⟨pre, post, hrows, hinsert⟩ := insertAt_eq m.messages
          ((m.messages.reverse.dropWhile MessageData.isSponsored).length - 1 : Int) x
        have hx := ordinaryIds_of_ordinary hs
        rw [hrows, ordinaryIds_append, List.append_eq_nil_iff] at hnone
        have hsplit : pre ++ x :: post = pre ++ [x] ++ post := by simp
        rw [insertMessagesAt, insertLoop, insertLoop]
        dsimp only
        rw [hinsert, hsplit, ordinaryIds_append, ordinaryIds_append, hx, hrows, ordinaryIds_append, hnone.1,
          hnone.2]
        simp
  case isFalse =>
    rw [MessagesModel.appendMessages, ordinaryIds_append, ordinaryIds_of_ordinary hs]

/-- Ascending ordinary rows, with sponsored messages waiting for their place. -/
def InOrder (m : ChatMessagesModel) : Prop :=
  Ascending m.messages ∧ ∀ message ∈ m.own.pendingSponsoredMessages, isSponsoredMessage message = true

theorem ascending_insertSponsoredMessage {m : ChatMessagesModel} (hm : Ascending m.messages) (insertIndex : Int)
    {message : QVariantMap} (messageId : Int) (hs : isSponsoredMessage message = true) :
    Ascending (insertSponsoredMessage m insertIndex message messageId).messages := by
  rw [insertSponsoredMessage, Ascending, ordinaryIds_insertAt_sponsored m.messages insertIndex
    (x := MessageData.create message messageId) hs]
  exact hm

theorem inOrder_spreadSponsoredMessages (messagesBetween : Int) {m : ChatMessagesModel} (hm : InOrder m)
    (insertIndex : Int) {sponsoredMessages : List QVariantMap}
    (hs : ∀ message ∈ sponsoredMessages, isSponsoredMessage message = true) :
    InOrder (spreadSponsoredMessages messagesBetween m insertIndex sponsoredMessages) := by
  induction sponsoredMessages generalizing m insertIndex with
  | nil => exact hm
  | cons message rest ih =>
      have hrest : ∀ message ∈ rest, isSponsoredMessage message = true :=
        fun message hmem => hs message (List.mem_cons_of_mem _ hmem)
      have hinsert := ascending_insertSponsoredMessage hm.1 insertIndex (message.value TdConst.MESSAGE_ID).toLongLong
        (hs message (List.mem_cons_self ..))
      rw [spreadSponsoredMessages]
      dsimp only
      split_ifs
      · exact ⟨hinsert, hrest⟩
      · exact ih ⟨hinsert, hm.2⟩ _ hrest
      · exact ih hm _ hrest

/-- A sponsored row is inserted, wherever `appendMessages` puts it. -/
theorem inOrder_appendMessages_sponsored {m : ChatMessagesModel} (hm : InOrder m) {x : MessageData}
    (hx : x.isSponsored = true) : InOrder (appendMessages m [x]) := by
  rw [appendMessages]
  dsimp only
  split_ifs
  · refine ⟨?_, hm.2⟩
    rw [insertMessagesAt, insertLoop, insertLoop, Ascending, ordinaryIds_insertAt_sponsored _ _ hx]
    exact hm.1
  · refine ⟨?_, hm.2⟩
    have hnone : ordinaryIds [x] = [] := by simp [ordinaryIds, ordinaryId, hx]
    rw [MessagesModel.appendMessages, Ascending, ordinaryIds_append, hnone, List.append_nil]
    exact hm.1

theorem inOrder_handleSponsoredMessagesReceived {m : ChatMessagesModel} (hm : InOrder m) (chatId : Int)
    {sponsoredMessages : List QVariantMap} (messagesBetween : Int)
    (hs : ∀ message ∈ sponsoredMessages, isSponsoredMessage message = true) :
    InOrder (handleSponsoredMessagesReceived m chatId sponsoredMessages messagesBetween) := by
  rw [handleSponsoredMessagesReceived.eq_def]
  split
  · exact hm
  cases sponsoredMessages with
  | nil => exact hm
  | cons message rest =>
      have hspread := inOrder_spreadSponsoredMessages messagesBetween hm m.messages.length hs
      have happend := @inOrder_appendMessages_sponsored m hm
        (MessageData.create message (message.value TdConst.MESSAGE_ID).toLongLong) (hs message (List.mem_cons_self ..))
      dsimp only
      split_ifs
      · exact happend
      · exact hm
      · exact hspread

theorem inOrder_insertPendingBefore {m : ChatMessagesModel} (hm : Ascending m.messages) (insertIndex : Int)
    {pending : List QVariantMap} (hs : ∀ message ∈ pending, isSponsoredMessage message = true) :
    Ascending (insertPendingBefore m insertIndex pending).1.messages ∧
      ∀ message ∈ (insertPendingBefore m insertIndex pending).2, isSponsoredMessage message = true := by
  induction pending generalizing m insertIndex with
  | nil => exact ⟨hm, by simp [insertPendingBefore]⟩
  | cons message rest ih =>
      rw [insertPendingBefore]
      split_ifs
      · exact ih (ascending_insertSponsoredMessage hm _ _ (hs message (List.mem_cons_self ..))) _
          fun message hmem => hs message (List.mem_cons_of_mem _ hmem)
      · exact ⟨hm, hs⟩

theorem inOrder_insertPendingAfter {m : ChatMessagesModel} (hm : Ascending m.messages) (insertIndex : Int)
    {pending : List QVariantMap} (hs : ∀ message ∈ pending, isSponsoredMessage message = true) :
    Ascending (insertPendingAfter m insertIndex pending).1.messages ∧
      ∀ message ∈ (insertPendingAfter m insertIndex pending).2, isSponsoredMessage message = true := by
  induction pending generalizing m insertIndex with
  | nil => exact ⟨hm, by simp [insertPendingAfter]⟩
  | cons message rest ih =>
      rw [insertPendingAfter]
      split_ifs
      · exact ih (ascending_insertSponsoredMessage hm _ _ (hs message (List.mem_cons_self ..))) _
          fun message hmem => hs message (List.mem_cons_of_mem _ hmem)
      · exact ⟨hm, hs⟩

theorem stable_inOrder : Stable InOrder where
  members _ _ _ _ hm := hm
  clear {m} hm := by
    refine ⟨?_, hm.2⟩
    change Ascending m.clear.messages
    rw [messages_clear]
    exact List.Pairwise.nil
  prepare {m} totalCount fromUpdate hm := by
    obtain ⟨startReached, endReached, heq⟩ :=
      ReadableMessagesModel.handlePrepareMessagesReceived_eq m totalCount fromUpdate
    change InOrder (handlePrepareMessagesReceived m totalCount fromUpdate).1
    rw [handlePrepareMessagesReceived, heq]
    dsimp only
    rw [insertPendingSponsoredMessages]
    split_ifs
    · cases fromUpdate with
      | updatePreviousSlice =>
          exact @inOrder_insertPendingBefore
            { m with startReached := startReached, endReached := endReached } hm.1 _ _ hm.2
      | updateNextSlice =>
          exact @inOrder_insertPendingAfter
            { m with startReached := startReached, endReached := endReached } hm.1 _ _ hm.2
      | updateInitial => exact hm
      | updateReload => exact hm
    · exact hm

theorem rowsOnly_inOrder : RowsOnly InOrder where
  stable := stable_inOrder
  settings _ _ _ hm := hm

/-- The steps that keep the ordinary rows ascending. -/
def OrderStep (m : ChatMessagesModel) : Event → Prop
  | .handleInsertMessages messages => m.BatchInOrder (appendsAtEnd m) messages
  | .messagesReceived chatId extra messages _ =>
      m.chatId = chatId → (m.waitingFor extra || m.messages.isEmpty) = true →
        m.BatchInOrder (appendsAtEnd m) messages
  | .foundChatMessagesReceived chatId filter extra messages _ =>
      m.chatId = chatId → filter = .empty → (m.waitingFor extra || m.messages.isEmpty) = true →
        m.BatchInOrder (appendsAtEnd m) messages
  | .newMessageReceived chatId message =>
      chatId = m.chatId → m.messageIndexMap.contains (messageIdOf message) = false →
        (canLoadMoreMessages m && m.endReached) = true →
        isSponsoredMessage message = false ∧ m.JoinsInOrder (appendsAtEnd m) [messageIdOf message]
  | .messageSendSucceeded chatId oldMessageId messageId message =>
      m.SentInOrder chatId oldMessageId messageId message
  | .sponsoredMessagesReceived _ sponsoredMessages _ =>
      ∀ message ∈ sponsoredMessages, isSponsoredMessage message = true
  | _ => True

instance (m : ChatMessagesModel) : ∀ e : Event, Decidable (OrderStep m e) := by
  rintro (_ | _) <;> dsimp only [OrderStep] <;> infer_instance

theorem insertMessages_own (m : ChatMessagesModel) (newMessages : List MessageData) :
    (m.insertMessages newMessages).own = m.own :=
  insertMessages_of (P := fun m' => m'.own = m.own) (appendMessages_sameMembers m newMessages).own rfl fun _ => rfl

theorem inOrder_handleInsertMessages {m : ChatMessagesModel} (hm : InOrder m) {messages : List QVariantMap}
    (hbatch : m.BatchInOrder (appendsAtEnd m) messages) : InOrder (m.handleInsertMessages messages).1 := by
  refine ⟨ascending_handleInsertMessages hm.1 (joinsAtEnds m) hbatch, ?_⟩
  rw [(handleInsertMessages_same m messages).sameMembers.own]
  split_ifs
  · exact hm.2
  · rw [insertMessages_own]
    exact hm.2

theorem inOrder_handleNewMessageReceived {m : ChatMessagesModel} (hm : InOrder m) {message : QVariantMap}
    (h : m.messageIndexMap.contains (messageIdOf message) = false →
      (canLoadMoreMessages m && m.endReached) = true →
      isSponsoredMessage message = false ∧ m.JoinsInOrder (appendsAtEnd m) [messageIdOf message]) :
    InOrder (ReadableMessagesModel.handleNewMessageReceived m message) := by
  by_cases htake : m.messageIndexMap.contains (messageIdOf message) = false ∧
      (canLoadMoreMessages m && m.endReached) = true
  · obtain ⟨hord, hjoin⟩ := h htake.1 htake.2
    refine ⟨ascending_handleNewMessageReceived hm.1 (joinsAtEnds m) hord hjoin, ?_⟩
    have hload : (Virtuals.canLoadMoreMessages m && m.endReached) = true := htake.2
    rw [ReadableMessagesModel.handleNewMessageReceived]
    dsimp only
    rw [htake.1, if_neg Bool.false_ne_true, if_pos hload, (setMessagesAlbum_same _ _).sameMembers.own,
      insertMessages_own]
    exact hm.2
  · rw [ReadableMessagesModel.handleNewMessageReceived]
    dsimp only
    split_ifs with hcontains hload
    · exact hm
    · exact absurd ⟨by simpa using hcontains, hload⟩ htake
    · exact hm

theorem inOrder_step (m : ChatMessagesModel) (e : Event) (hm : InOrder m) (he : OrderStep m e) :
    InOrder (step m e) := by
  cases e with
  | handleInsertMessages messages => exact inOrder_handleInsertMessages hm he
  | messagesReceived chatId extra messages totalCount =>
      exact rowsOnly_inOrder.history hm fun hchat haccept => inOrder_handleInsertMessages hm (he hchat haccept)
  | foundChatMessagesReceived chatId filter extra messages totalCount =>
      exact rowsOnly_inOrder.found hm fun hchat hfilter haccept =>
        inOrder_handleInsertMessages hm (he hchat hfilter haccept)
  | newMessageReceived chatId message =>
      rw [step, handle, handleNewMessageReceived]
      split
      case isTrue hchat => exact inOrder_handleNewMessageReceived hm (he hchat)
      case isFalse => exact hm
  | messageSendSucceeded chatId oldMessageId messageId message =>
      refine ⟨ascending_handleMessageSendSucceeded hm.1 he, ?_⟩
      rw [step, handle, (handleMessageSendSucceeded_sameMembers m _ _ _ _).own]
      exact hm.2
  | messagesDeleted chatId messageIds =>
      have hdeletes := handleMessagesDeleted_deletes m chatId messageIds
      refine ⟨hdeletes.ascending hm.1, ?_⟩
      rw [step, handle, hdeletes.sameMembers.own]
      exact hm.2
  | sponsoredMessagesReceived chatId sponsoredMessages messagesBetween =>
      exact inOrder_handleSponsoredMessagesReceived hm chatId messagesBetween he
  | _ => exact rowsOnly_inOrder.call hm rfl

end ChatMessagesModel

/-! ### Forum topics -/

namespace ForumTopicMessagesModel

theorem joinsAtEnds (m : ForumTopicMessagesModel) : m.JoinsAtEnds true := by
  refine ⟨fun newMessages hs _ => ?_, fun _ => rfl, rfl⟩
  change ordinaryIds (m.messages ++ newMessages) = _
  rw [ordinaryIds_append, ordinaryIds_of_ordinary hs]

theorem rowsOnly_ascending : RowsOnly fun m => Ascending m.messages where
  stable := stable (fun rows _ => Ascending rows) List.Pairwise.nil
  own _ hm := hm

/-- The steps that keep the ordinary rows ascending. -/
def OrderStep (m : ForumTopicMessagesModel) : Event → Prop
  | .handleInsertMessages messages => m.BatchInOrder true messages
  | .forumTopicMessagesReceived chatId forumTopicId extra messages _ =>
      isTopic m chatId forumTopicId = true → (m.waitingFor extra || m.messages.isEmpty) = true →
        m.BatchInOrder true messages
  | .newMessageReceived chatId message =>
      isTopic m chatId ((message.value TdConst.TOPIC_ID).toMap.value TdConst.FORUM_TOPIC_ID).toInt = true →
        m.messageIndexMap.contains (messageIdOf message) = false → m.endReached = true →
        isSponsoredMessage message = false ∧ m.JoinsInOrder true [messageIdOf message]
  | .messageSendSucceeded chatId oldMessageId messageId message =>
      m.SentInOrder chatId oldMessageId messageId message
  | _ => True

instance (m : ForumTopicMessagesModel) : ∀ e : Event, Decidable (OrderStep m e) := by
  rintro (_ | _) <;> dsimp only [OrderStep] <;> infer_instance

theorem ascending_step (m : ForumTopicMessagesModel) (e : Event) (hm : Ascending m.messages)
    (he : OrderStep m e) : Ascending (step m e).messages := by
  cases e with
  | handleInsertMessages messages => exact ascending_handleInsertMessages hm (joinsAtEnds m) he
  | forumTopicMessagesReceived chatId forumTopicId extra messages totalCount =>
      exact rowsOnly_ascending.history hm fun htopic haccept =>
        ascending_handleInsertMessages hm (joinsAtEnds m) (he htopic haccept)
  | newMessageReceived chatId message =>
      rw [step, handle, handleNewMessageReceived]
      split
      case isTrue htopic =>
        by_cases htake : m.messageIndexMap.contains (messageIdOf message) = false ∧ m.endReached = true
        · obtain ⟨hord, hjoin⟩ := he htopic htake.1 htake.2
          exact ascending_handleNewMessageReceived hm (joinsAtEnds m) hord hjoin
        · dsimp only
          rw [ReadableMessagesModel.handleNewMessageReceived]
          dsimp only
          split_ifs with hcontains hload
          · exact hm
          · refine absurd ⟨by simpa using hcontains, ?_⟩ htake
            exact (Bool.and_eq_true _ _ ▸ hload).2
          · exact hm
      case isFalse => exact hm
  | messageSendSucceeded chatId oldMessageId messageId message => exact ascending_handleMessageSendSucceeded hm he
  | messagesDeleted chatId messageIds => exact (handleMessagesDeleted_deletes m chatId messageIds).ascending hm
  | _ => exact rowsOnly_ascending.call hm rfl

end ForumTopicMessagesModel

end YaqtLib
