import YaqtLib.MaintainedCount

/-! The order of the media rows alone. Whatever is removed, whatever a fetch brings and however the index map lies,
the rows stay in order as long as batches and new messages lie beyond one end; a message may come to be there twice. -/

namespace YaqtLib

open Containers IndexMap Runs TdConst MessagesModel

theorem Before.not_before {inverted : Bool} {a b : Int} (h : Before inverted a b) : ¬ Before inverted b a := by
  cases inverted <;> simp only [Before, if_true, if_false, Bool.false_eq_true] at * <;> omega

theorem Before.not_before_of {inverted : Bool} {a b c : Int} (h : Before inverted a b) (h' : ¬ Before inverted c b) :
    ¬ Before inverted c a := by
  cases inverted <;> simp only [Before, if_true, if_false, Bool.false_eq_true] at * <;> omega

/-- Ordinary messages in the order of the model, the same ones perhaps side by side. -/
def WeaklyOrdered (inverted : Bool) (rows : List MessageData) : Prop :=
  rows.Pairwise (fun a b => ¬ Before inverted b.messageId a.messageId) ∧ ∀ r ∈ rows, r.isSponsored = false

theorem Ordered.weakly {inverted : Bool} {rows : List MessageData} (h : Ordered inverted rows) :
    WeaklyOrdered inverted rows :=
  ⟨h.1.imp Before.not_before, h.2⟩

theorem weaklyOrdered_append {inverted : Bool} {rows rows' : List MessageData} :
    WeaklyOrdered inverted (rows ++ rows') ↔ WeaklyOrdered inverted rows ∧ WeaklyOrdered inverted rows' ∧
      ∀ a ∈ rows, ∀ b ∈ rows', ¬ Before inverted b.messageId a.messageId := by
  simp only [WeaklyOrdered, List.pairwise_append, List.mem_append]
  constructor
  · rintro ⟨⟨h, h', hcross⟩, hs⟩
    exact ⟨⟨h, fun r hr => hs r (Or.inl hr)⟩, ⟨h', fun r hr => hs r (Or.inr hr)⟩, hcross⟩
  · rintro ⟨⟨h, hs⟩, ⟨h', hs'⟩, hcross⟩
    exact ⟨⟨h, h', hcross⟩, fun r hr => hr.elim (hs r) (hs' r)⟩

theorem weaklyOrdered_iff_map {inverted : Bool} {rows : List MessageData} :
    WeaklyOrdered inverted rows ↔
      (rows.map fun r => (r.messageId, r.isSponsored)).Pairwise (fun a b => ¬ Before inverted b.1 a.1) ∧
      ∀ p ∈ rows.map fun r => (r.messageId, r.isSponsored), p.2 = false := by
  simp [WeaklyOrdered, List.pairwise_map]

theorem WeaklyOrdered.of_sublist {inverted : Bool} {rows rows' : List MessageData} (h : WeaklyOrdered inverted rows)
    (hsub : (rows'.map fun r => (r.messageId, r.isSponsored)).Sublist
      (rows.map fun r => (r.messageId, r.isSponsored))) : WeaklyOrdered inverted rows' := by
  rw [weaklyOrdered_iff_map] at h ⊢
  exact ⟨h.1.sublist hsub, fun p hp => h.2 p (hsub.subset hp)⟩

/-- No row comes before the first one. -/
theorem WeaklyOrdered.head {inverted : Bool} {rows : List MessageData} (h : WeaklyOrdered inverted rows)
    {first : MessageData} (hfirst : rows.head? = some first) :
    ∀ r ∈ rows, ¬ Before inverted r.messageId first.messageId := by
  obtain ⟨rest, rfl⟩ := List.head?_eq_some_iff.mp hfirst
  intro r hr
  rcases List.mem_cons.mp hr with rfl | hr
  · exact fun hbefore => hbefore.ne rfl
  · exact (List.pairwise_cons.mp h.1).1 r hr

/-- No row comes behind the last one. -/
theorem WeaklyOrdered.getLast {inverted : Bool} {rows : List MessageData} (h : WeaklyOrdered inverted rows)
    {last : MessageData} (hlast : rows.getLast? = some last) :
    ∀ r ∈ rows, ¬ Before inverted last.messageId r.messageId := by
  obtain ⟨pre, rfl⟩ := List.getLast?_eq_some_iff.mp hlast
  intro r hr
  rcases List.mem_append.mp hr with hr | hr
  · exact (List.pairwise_append.mp h.1).2.2 r hr last (List.mem_singleton_self last)
  · rw [List.mem_singleton.mp hr]
    exact fun hbefore => hbefore.ne rfl

namespace MediaMessagesModel

/-- The rows of the class at hand are in its order. -/
structure InRowOrder (inverted : Bool) (m : MediaMessagesModel) : Prop where
  inverted_eq : m.own.inverted = inverted
  rows : WeaklyOrdered inverted m.messages

variable {inverted : Bool} {m : MediaMessagesModel}

theorem InRowOrder.of_sublist {m' : MediaMessagesModel} (hm : InRowOrder inverted m)
    (hown : m'.own.inverted = m.own.inverted)
    (hsub : (m'.messages.map fun r => (r.messageId, r.isSponsored)).Sublist
      (m.messages.map fun r => (r.messageId, r.isSponsored))) : InRowOrder inverted m' :=
  ⟨hown.trans hm.inverted_eq, hm.rows.of_sublist hsub⟩

theorem InRowOrder.of_eq {m' : MediaMessagesModel} (hm : InRowOrder inverted m)
    (hown : m'.own.inverted = m.own.inverted) (hrows : m'.messages = m.messages) : InRowOrder inverted m' :=
  hm.of_sublist hown (by rw [hrows])

theorem rowsOnly_inRowOrder (inverted : Bool) : RowsOnly (InRowOrder inverted) where
  of_eq hm hown hrows _ _ := hm.of_eq hown hrows
  clear {m} hm := by
    refine ⟨hm.inverted_eq, ?_⟩
    change WeaklyOrdered inverted m.clear.messages
    rw [messages_clear]
    exact (ordered_nil inverted).weakly

/-! ### Insertion -/

theorem inRowOrder_appendMessages (hm : InRowOrder inverted m) {newMessages : List MessageData}
    (hnew : WeaklyOrdered inverted newMessages)
    (hnewer : ∀ r ∈ m.messages, ∀ k ∈ newMessages, r.messageId < k.messageId) :
    InRowOrder inverted (appendMessages m newMessages) := by
  rw [appendMessages, hm.inverted_eq]
  cases inverted with
  | false =>
      refine ⟨hm.inverted_eq, weaklyOrdered_append.mpr ⟨hm.rows, hnew, fun r hr k hk => ?_⟩⟩
      exact Before.not_before (show Before false r.messageId k.messageId from hnewer r hr k hk)
  | true =>
      refine ⟨hm.inverted_eq, weaklyOrdered_append.mpr ⟨hnew, hm.rows, fun k hk r hr => ?_⟩⟩
      exact Before.not_before (show Before true k.messageId r.messageId from hnewer r hr k hk)

theorem inRowOrder_prependMessages (hm : InRowOrder inverted m) {newMessages : List MessageData}
    (hnew : WeaklyOrdered inverted newMessages)
    (holder : ∀ r ∈ m.messages, ∀ k ∈ newMessages, k.messageId < r.messageId) :
    InRowOrder inverted (prependMessages m newMessages) := by
  rw [prependMessages, hm.inverted_eq]
  cases inverted with
  | false =>
      refine ⟨hm.inverted_eq, weaklyOrdered_append.mpr ⟨hnew, hm.rows, fun k hk r hr => ?_⟩⟩
      exact Before.not_before (show Before false k.messageId r.messageId from holder r hr k hk)
  | true =>
      refine ⟨hm.inverted_eq, weaklyOrdered_append.mpr ⟨hm.rows, hnew, fun r hr k hk => ?_⟩⟩
      exact Before.not_before (show Before true r.messageId k.messageId from holder r hr k hk)

theorem inRowOrder_insertMessages (hm : InRowOrder inverted m) {newMessages : List MessageData}
    (hnew : WeaklyOrdered inverted newMessages) (hbeyond : m.BeyondOneEnd (newMessages.map MessageData.messageId)) :
    InRowOrder inverted (m.insertMessages newMessages) := by
  rcases List.eq_nil_or_concat' m.messages with hempty | ⟨pre, last, hrows⟩
  · rw [insertMessages_of_empty hempty]
    refine inRowOrder_appendMessages hm hnew ?_
    rw [hempty]
    exact fun r hr => absurd hr List.not_mem_nil
  · cases newMessages with
    | nil => rwa [insertMessages_nil (by simp [hrows])]
    | cons first rest =>
        have hlast : last.isSponsored = false := hm.rows.2 last (by rw [hrows]; simp)
        rcases insertMessages_of_beyond hrows hlast rfl hbeyond with ⟨heq, hnewer⟩ | ⟨heq, holder⟩
        · rw [heq]
          exact inRowOrder_appendMessages hm hnew hnewer
        · rw [heq]
          exact inRowOrder_prependMessages hm hnew holder

theorem inRowOrder_handleInsertMessages (hm : InRowOrder inverted m) {messages : List QVariantMap}
    (hbatch : m.BatchBeyond messages) : InRowOrder inverted (m.handleInsertMessages messages).1 := by
  have hsame := handleInsertMessages_same m messages
  have hinsert : InRowOrder inverted (if m.addedMessages messages = [] then m
      else m.insertMessages (m.addedMessages messages)) := by
    split_ifs with hnil
    · exact hm
    · exact inRowOrder_insertMessages hm (ordered_addedMessages hm.inverted_eq hbatch).weakly
        (beyondOneEnd_addedMessages hbatch)
  refine hinsert.of_sublist ?_ ?_
  · rw [hsame.sameMembers.own]
  · rw [hsame.map_eq _ fun _ => rfl]

/-- A fetched message goes before the first row that comes behind it. -/
theorem inRowOrder_insertMessagesAt (hm : InRowOrder inverted m) {data : MessageData}
    (hdata : data.isSponsored = false) {i : Nat}
    (hfind : (m.messages.findIdx? fun row =>
      if inverted then row.messageId < data.messageId else data.messageId < row.messageId) = some i) :
    InRowOrder inverted (m.insertMessagesAt i [data]) := by
  obtain ⟨hi, hlater, hearlier⟩ := List.findIdx?_eq_some_iff_getElem.mp hfind
  have hbehind : ∀ row : MessageData, (if inverted = true then decide (row.messageId < data.messageId)
      else decide (data.messageId < row.messageId)) = true ↔ Before inverted data.messageId row.messageId := by
    intro row
    cases inverted <;> simp [Before]
  have hrows := (List.take_append_drop i m.messages).symm
  have hinsert := insertMessagesAt_eq m _ _ [data] hrows
  rw [List.length_take_of_le (Nat.le_of_lt hi)] at hinsert
  obtain ⟨htake, hdrop, hcross⟩ := weaklyOrdered_append.mp (hrows ▸ hm.rows)
  have hsingle : WeaklyOrdered inverted [data] :=
    ⟨List.pairwise_singleton _ _, fun r hr => (List.mem_singleton.mp hr) ▸ hdata⟩
  rw [hinsert]
  refine ⟨hm.inverted_eq, weaklyOrdered_append.mpr ⟨weaklyOrdered_append.mpr ⟨htake, hsingle, ?_⟩, hdrop, ?_⟩⟩
  · intro r hr k hk
    rw [List.mem_singleton.mp hk]
    obtain ⟨j, hj, rfl⟩ := List.mem_take_iff_getElem.mp hr
    rw [← hbehind]
    exact hearlier j (by omega)
  · intro r hr k hk
    rcases List.mem_append.mp hr with hr | hr
    · exact hcross r hr k hk
    · rw [List.mem_singleton.mp hr]
      refine Before.not_before_of ((hbehind _).mp hlater) ?_
      exact hdrop.head (by rw [List.head?_drop, List.getElem?_eq_getElem hi]) k hk

theorem inRowOrder_insertMessageInOrder (hm : InRowOrder inverted m) (messageId : Int) {message : QVariantMap}
    (hord : isSponsoredMessage message = false) :
    InRowOrder inverted (JumpableMessagesModel.insertMessageInOrder m messageId message inverted) := by
  have hsingle : WeaklyOrdered inverted [MessageData.create message messageId] :=
    ⟨List.pairwise_singleton _ _, fun r hr => (List.mem_singleton.mp hr) ▸ hord⟩
  rw [JumpableMessagesModel.insertMessageInOrder]
  split
  · next newest oldest hnewest holdest =>
    have hmax : ∀ r ∈ m.messages, r.messageId ≤ newest.messageId := by
      cases inverted with
      | false => exact fun r hr => Int.not_lt.mp (hm.rows.getLast hnewest r hr)
      | true => exact fun r hr => Int.not_lt.mp (hm.rows.head hnewest r hr)
    have hmin : ∀ r ∈ m.messages, oldest.messageId ≤ r.messageId := by
      cases inverted with
      | false => exact fun r hr => Int.not_lt.mp (hm.rows.head holdest r hr)
      | true => exact fun r hr => Int.not_lt.mp (hm.rows.getLast holdest r hr)
    by_cases hnewer : newest.messageId < messageId
    · rw [if_pos hnewer]
      split
      · refine inRowOrder_appendMessages hm hsingle fun r hr k hk => ?_
        rw [List.mem_singleton.mp hk]
        exact Int.lt_of_le_of_lt (hmax r hr) hnewer
      · exact hm
    rw [if_neg hnewer]
    by_cases holder : messageId < oldest.messageId
    · rw [if_pos holder]
      split
      · refine inRowOrder_prependMessages hm hsingle fun r hr k hk => ?_
        rw [List.mem_singleton.mp hk]
        exact Int.lt_of_lt_of_le holder (hmin r hr)
      · exact hm
    rw [if_neg holder]
    split
    · next i hfind => exact inRowOrder_insertMessagesAt hm hord hfind
    · exact hm
  · next hnone =>
    split
    · refine inRowOrder_appendMessages hm hsingle ?_
      have hempty : m.messages = [] := by
        by_contra hne
        obtain ⟨first, hfirst⟩ := Option.ne_none_iff_exists'.mp (mt List.head?_eq_none_iff.mp hne)
        obtain ⟨last, hlast⟩ := Option.ne_none_iff_exists'.mp (mt List.getLast?_eq_none_iff.mp hne)
        cases inverted with
        | false => exact hnone last first hlast hfirst
        | true => exact hnone first last hfirst hlast
      rw [hempty]
      exact fun r hr => absurd hr List.not_mem_nil
    · exact hm

/-! ### Steps -/

theorem inRowOrder_removeMessage (hm : InRowOrder inverted m) (messageId : Int) :
    InRowOrder inverted (removeMessage m messageId) := by
  have hremoved : InRowOrder inverted (MessagesModel.removeMessage m messageId) := by
    refine hm.of_sublist (congrArg MediaMembers.inverted (removeMessage_sameMembers m messageId).own) (List.Sublist.map _ ?_)
    rw [MessagesModel.removeMessage]
    cases m.messageIndexMap.value messageId with
    | none => exact List.Sublist.refl _
    | some i => exact List.eraseIdx_sublist _ i
  rw [removeMessage]
  dsimp only
  split_ifs
  · exact hremoved.of_eq rfl rfl
  · exact hremoved

theorem inRowOrder_handleMessageFieldUpdated (hm : InRowOrder inverted m) (chatId messageId : Int)
    (updater : MessageData → MessageData)
    (hupdater : ∀ message, ((updater message).messageId, (updater message).isSponsored) =
      (message.messageId, message.isSponsored)) :
    InRowOrder inverted (m.handleMessageFieldUpdated chatId messageId updater).1 := by
  obtain ⟨messages, heq⟩ := handleMessageFieldUpdated_fst m chatId messageId updater
  have hmap := handleMessageFieldUpdated_map m chatId messageId updater
    (fun r => (r.messageId, r.isSponsored)) hupdater
  refine hm.of_sublist ?_ ?_
  · rw [heq]
  · rw [hmap]

theorem inRowOrder_messageContentUpdated (hm : InRowOrder inverted m) (chatId messageId : Int)
    (newContent : QVariantMap) : InRowOrder inverted (handleMessageContentUpdated m chatId messageId newContent).1 := by
  have hupdated : InRowOrder inverted (MessagesModel.handleMessageContentUpdated m chatId messageId newContent).1 :=
    inRowOrder_handleMessageFieldUpdated hm chatId messageId (fun message => message.setContent newContent) fun _ => rfl
  rw [handleMessageContentUpdated]
  generalize MessagesModel.handleMessageContentUpdated m chatId messageId newContent = result at hupdated ⊢
  obtain ⟨m₁, _ | message⟩ := result
  · dsimp only
    split_ifs <;> exact hupdated
  · dsimp only
    split_ifs
    · exact hupdated
    · exact inRowOrder_removeMessage hupdated messageId
    · exact hupdated

theorem inRowOrder_messagesDeleted (hm : InRowOrder inverted m) (chatId : Int) (messageIds : List Int) :
    InRowOrder inverted (handleMessagesDeleted m chatId messageIds).1 := by
  have hdeletes := deletes_handleMessagesDeleted m chatId messageIds
  exact hm.of_sublist (congrArg MediaMembers.inverted hdeletes.sameMembers.own) (hdeletes.map_sublist _ fun _ => rfl)

/-- The batches and the new messages that are taken lie beyond one end. -/
def BeyondStep (m : MediaMessagesModel) : Event → Prop
  | .handleInsertMessages messages => m.BatchBeyond messages
  | .foundChatMessagesReceived chatId filter extra messages _ _ =>
      m.chatId = chatId → filter = m.own.searchMessagesFilter →
        (m.waitingFor extra || m.messages.isEmpty) = true → m.BatchBeyond messages
  | .newMessageReceived chatId message =>
      m.endReached = true → chatId = m.chatId → m.messageIndexMap.contains (messageIdOf message) = false →
        Utilities.messageMatchesSearchFilter message m.own.searchMessagesFilter = true →
        isSponsoredMessage message = false ∧ m.BeyondOneEnd [messageIdOf message]
  | _ => True

instance (m : MediaMessagesModel) : ∀ e : Event, Decidable (BeyondStep m e) := by
  rintro (_ | _) <;> dsimp only [BeyondStep] <;> infer_instance

/-- **Step lemma.** -/
theorem inRowOrder_step (inverted : Bool) (m : MediaMessagesModel) (e : Event) (hm : InRowOrder inverted m)
    (he : BeyondStep m e) : InRowOrder inverted (step m e) := by
  cases e with
  | handleInsertMessages messages => exact inRowOrder_handleInsertMessages hm he
  | foundChatMessagesReceived chatId filter extra messages totalCount nextFromMessageId =>
      exact (rowsOnly_inRowOrder inverted).answer hm fun hchat hfilter haccept =>
        inRowOrder_handleInsertMessages hm (he hchat hfilter haccept)
  | newMessageReceived chatId message =>
      rw [step, handle, handleNewMessageReceived]
      dsimp only
      split_ifs with hend htake
      · obtain ⟨hord, hbeyond⟩ := he hend htake.1 htake.2.1 htake.2.2
        exact inRowOrder_insertMessages hm
          ⟨List.pairwise_singleton _ _, fun r hr => (List.mem_singleton.mp hr) ▸ hord⟩ hbeyond
      · exact hm
      · exact hm
  | messageFetched messageId message =>
      rw [step, handle]
      dsimp only
      split_ifs with htype
      · have hinsert := inRowOrder_insertMessageInOrder hm messageId (ordinary_of_message htype)
        rw [insertMessageInOrder, hm.inverted_eq]
        dsimp only
        split_ifs
        · exact hinsert.of_eq rfl rfl
        · exact hinsert
      · exact hm
  | removeMessage messageId => exact inRowOrder_removeMessage hm messageId
  | messageContentUpdated chatId messageId newContent => exact inRowOrder_messageContentUpdated hm _ _ _
  | messageIsPinnedUpdated chatId messageId isPinned =>
      rw [step, handle, handleMessageIsPinnedUpdated_fst]
      split_ifs
      · exact inRowOrder_removeMessage hm messageId
      · exact hm
      · exact inRowOrder_handleMessageFieldUpdated hm chatId messageId
          (fun message => message.setIsPinned isPinned) fun _ => rfl
  | messagesDeleted chatId messageIds => exact inRowOrder_messagesDeleted hm chatId messageIds
  | _ => exact (rowsOnly_inRowOrder inverted).call hm rfl

theorem inRowOrder_new (inverted : Bool) (filter : SearchMessagesFilter) :
    InRowOrder inverted (new inverted filter) :=
  ⟨rfl, (ordered_nil inverted).weakly⟩

end MediaMessagesModel

end YaqtLib
