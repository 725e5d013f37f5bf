import Mathlib.Data.List.Pairwise
import YaqtLib.MediaMessagesModel
import YaqtLib.MessageOrder
import YaqtLib.Runs

/-! The index map and the order of the media models. `removeMessage` takes a row out without shifting the
indices behind it, and `insertMessageInOrder` does not look whether the message is loaded; as long as rows
are removed at the end only, fetched messages are not loaded yet, and batches lie beyond one end, the rows
stay in order and the index map exact. -/

namespace YaqtLib

open Containers IndexMap Runs TdConst MessagesModel

namespace MessagesModel

variable {Own : Type}

/-- The message is not loaded, or it is the last row. -/
def LastOrAbsent (m : MessagesModel Own) (messageId : Int) : Prop :=
  m.messageIndexMap.value messageId = none ∨ m.messageIndexMap.value messageId = some (m.messages.length - 1)

instance (m : MessagesModel Own) (messageId : Int) : Decidable (m.LastOrAbsent messageId) :=
  inferInstanceAs (Decidable (_ ∨ _))

/-- `removeMessage` of the last row. -/
theorem removeMessage_last {m : MessagesModel Own} (hm : m.IndexExact) {messageId : Int}
    (h : m.LastOrAbsent messageId) :
    (m.removeMessage messageId).IndexExact ∧ (m.removeMessage messageId).messages.Sublist m.messages := by
  rcases h with hnone | hlast
  · rw [removeMessage, hnone]
    exact ⟨hm, List.Sublist.refl _⟩
  · obtain ⟨pre, x, post, hrows, hpre, -, hid⟩ := hm.exists_split hlast
    obtain rfl : post = [] := by
      have hlen := congrArg List.length hrows
      simp only [List.length_append, List.length_cons] at hlen
      exact List.length_eq_zero_iff.mp (by omega)
    have herase : m.messages.eraseIdx (m.messages.length - 1) = pre ++ [] := by
      rw [← hpre, hrows, eraseIdx_append_cons]
    rw [removeMessage, hlast]
    dsimp only
    rw [herase]
    refine ⟨?_, ?_⟩
    · have hm' : Indexes MessageData.key (pre ++ [x]) m.messageIndexMap := hrows ▸ hm
      exact hm'.erase (MessageData.key_eq_some.mpr hid)
    · rw [hrows]
      exact (List.Sublist.refl pre).append (List.nil_sublist [x])

/-- An update of a single message that keeps its id keeps the ids of the rows. -/
theorem handleMessageFieldUpdated_map {β : Type} (m : MessagesModel Own) (chatId messageId : Int)
    (updater : MessageData → MessageData) (f : MessageData → β) (hf : ∀ message, f (updater message) = f message) :
    (m.handleMessageFieldUpdated chatId messageId updater).1.messages.map f = m.messages.map f := by
  rw [handleMessageFieldUpdated]
  split_ifs
  · cases m.messageIndexMap.value messageId with
    | none => rfl
    | some pos =>
        apply List.ext_getElem?
        intro i
        simp only [List.getElem?_map, List.getElem?_modify]
        cases m.messages[i]? with
        | none => rfl
        | some message => by_cases hi : pos = i <;> simp [hi, hf]
  · rfl

theorem handleMessageFieldUpdated_fst (m : MessagesModel Own) (chatId messageId : Int)
    (updater : MessageData → MessageData) : ∃ messages,
    (m.handleMessageFieldUpdated chatId messageId updater).1 = { m with messages := messages } := by
  rw [handleMessageFieldUpdated]
  split_ifs
  · cases m.messageIndexMap.value messageId <;> exact ⟨_, rfl⟩
  · exact ⟨m.messages, rfl⟩

end MessagesModel

namespace MediaMessagesModel

instance : LawfulVirtuals MediaMembers where
  processMessageData_eq _ message := ⟨message.generatedContentUnread, rfl⟩

theorem insertsAtEnds (m : MediaMessagesModel) : InsertsAtEnds m := by
  intro newMessages
  cases h : m.own.inverted
  · refine Or.inl ⟨?_, ?_⟩
    · change appendMessages m newMessages = _
      rw [appendMessages, h, if_neg Bool.false_ne_true]
    · change prependMessages m newMessages = _
      rw [prependMessages, h, if_neg Bool.false_ne_true]
  · refine Or.inr ⟨?_, ?_⟩
    · change appendMessages m newMessages = _
      rw [appendMessages, h, if_pos rfl]
    · change prependMessages m newMessages = _
      rw [prependMessages, h, if_pos rfl]

/-- A property of the rows, their indices and their albums alone, which a cleared model has as well. -/
structure RowsOnly (Q : MediaMessagesModel → Prop) : Prop where
  of_eq : ∀ {m m' : MediaMessagesModel}, Q m → m'.own.inverted = m.own.inverted → m'.messages = m.messages →
    m'.messageIndexMap = m.messageIndexMap → m'.albumMessageMap = m.albumMessageMap → Q m'
  clear : ∀ {m : MediaMessagesModel}, Q m → Q (JumpableMessagesModel.clear m).1

/-- The calls of the user interface, and counts; they keep the rows or drop them all. -/
def Event.isCall : Event → Bool
  | .setSearchMessagesFilter .. | .setQuery .. | .setMaintainCount .. | .init .. | .loadMoreHistory | .loadMoreFuture
  | .loadHistoryForMessage .. | .clear | .chatMessageCountReceived .. => true
  | _ => false

namespace RowsOnly

variable {Q : MediaMessagesModel → Prop} {m : MediaMessagesModel}

theorem updateTotalCount (h : RowsOnly Q) (hm : Q m) (count : Int) : Q (updateTotalCount m count) := by
  rw [MediaMessagesModel.updateTotalCount]
  split_ifs
  · exact h.of_eq hm rfl rfl rfl rfl
  · exact hm

theorem stable (h : RowsOnly Q) : Stable Q where
  members _ _ _ _ hm := h.of_eq hm rfl rfl rfl rfl
  clear hm := h.clear hm
  prepare {m} totalCount fromUpdate hm := by
    change Q (JumpableMessagesModel.handlePrepareMessagesReceived (MediaMessagesModel.updateTotalCount m totalCount)
      totalCount fromUpdate)
    have hm' := h.updateTotalCount hm totalCount
    unfold JumpableMessagesModel.handlePrepareMessagesReceived
    cases fromUpdate <;> dsimp only <;> split_ifs <;> exact h.of_eq hm' rfl rfl rfl rfl

theorem tryReload (h : RowsOnly Q) (hm : Q m) : Q (tryReload m).1 := by
  rw [MediaMessagesModel.tryReload]
  split
  · exact h.clear hm
  · exact hm

theorem call (h : RowsOnly Q) (hm : Q m) {e : Event} (he : e.isCall = true) : Q (step m e) := by
  cases e with
  | setSearchMessagesFilter filter =>
      rw [step, handle, setSearchMessagesFilter]
      split
      · exact h.tryReload (h.of_eq hm rfl rfl rfl rfl)
      · exact hm
  | setQuery value =>
      rw [step, handle, setQuery]
      split
      · exact h.tryReload (h.of_eq hm rfl rfl rfl rfl)
      · exact hm
  | setMaintainCount value =>
      rw [step, handle, setMaintainCount]
      split
      · exact h.of_eq hm rfl rfl rfl rfl
      · exact hm
  | init chatId fromMessageId checkCount force =>
      rw [step, handle, init]
      split
      · split
        · exact hm
        · exact h.of_eq hm rfl rfl rfl rfl
      · exact h.of_eq (h.clear hm) rfl rfl rfl rfl
  | loadMoreHistory => exact h.stable.loadMoreHistory hm
  | loadMoreFuture => exact h.stable.loadMoreFuture hm
  | loadHistoryForMessage messageId => exact h.stable.loadHistoryForMessage hm messageId
  | clear => exact h.clear hm
  | chatMessageCountReceived count chatId filter =>
      have hm' := h.updateTotalCount hm count
      rw [step, handle, handleChatMessageCountReceived]
      dsimp only
      split_ifs
      · exact h.of_eq hm' rfl rfl rfl rfl
      · exact h.of_eq hm' rfl rfl rfl rfl
      · exact hm'
      · exact hm
  | _ => cases he

/-- An answer keeps the property if inserting its batch does. -/
theorem answer (h : RowsOnly Q) (hm : Q m) {chatId : Int} {filter : SearchMessagesFilter} {extra : UpdateType}
    {messages : List QVariantMap} {totalCount nextFromMessageId : Int}
    (hinsert : m.chatId = chatId → filter = m.own.searchMessagesFilter →
      (m.waitingFor extra || m.messages.isEmpty) = true → Q (m.handleInsertMessages messages).1) :
    Q (step m (.foundChatMessagesReceived chatId filter extra messages totalCount nextFromMessageId)) := by
  rw [step, handle, handleMessagesReceived]
  split
  case isTrue hcond =>
    have hbase := h.stable.handleMessagesReceived hm extra messages totalCount fun haccept =>
      hinsert hcond.1 hcond.2 (by rcases haccept with h | h <;> simp [h])
    generalize JumpableMessagesModel.handleMessagesReceived m extra messages totalCount = result at hbase ⊢
    have hcursor : Q { result.1 with own := { result.1.own with nextFromMessageId := nextFromMessageId } } :=
      h.of_eq hbase rfl rfl rfl rfl
    exact h.updateTotalCount hcursor totalCount
  case isFalse => exact hm

end RowsOnly

/-- The rows of the class at hand are in its order, and the index map is exact. -/
structure Exact (inverted : Bool) (m : MediaMessagesModel) : Prop where
  inverted_eq : m.own.inverted = inverted
  indexExact : m.IndexExact
  ordered : Ordered inverted m.messages

variable {inverted : Bool} {m : MediaMessagesModel}

theorem Exact.of_eq {m' : MediaMessagesModel} (hm : Exact inverted m) (hown : m'.own.inverted = m.own.inverted)
    (hrows : m'.messages = m.messages) (hindex : m'.messageIndexMap = m.messageIndexMap) :
    Exact inverted m' := by
  refine ⟨hown.trans hm.inverted_eq, ?_, ?_⟩
  · unfold IndexExact
    rw [hrows, hindex]
    exact hm.indexExact
  · rw [hrows]
    exact hm.ordered

theorem rowsOnly_exact (inverted : Bool) : RowsOnly (Exact inverted) where
  of_eq hm hown hrows hindex _ := hm.of_eq hown hrows hindex
  clear {m} hm := by
    refine ⟨hm.inverted_eq, indexExact_clear hm.indexExact, ?_⟩
    change Ordered inverted m.clear.messages
    rw [messages_clear]
    exact ordered_nil inverted

/-- The rows after new ones go to the end where newer messages belong. -/
theorem exact_appendMessages (hm : Exact inverted m) {newMessages : List MessageData}
    (hnew : Ordered inverted newMessages)
    (hnewer : ∀ r ∈ m.messages, ∀ k ∈ newMessages, r.messageId < k.messageId)
    (hd : (m.ids ++ newMessages.map MessageData.messageId).Nodup) :
    Exact inverted (appendMessages m newMessages) := by
  rw [appendMessages, hm.inverted_eq]
  cases inverted with
  | false =>
      refine ⟨hm.inverted_eq, indexExact_appendMessages hm.indexExact hd, ?_⟩
      exact ordered_append.mpr ⟨hm.ordered, hnew, hnewer⟩
  | true =>
      refine ⟨hm.inverted_eq, indexExact_prependMessages hm.indexExact hd, ?_⟩
      exact ordered_append.mpr ⟨hnew, hm.ordered, fun k hk r hr => hnewer r hr k hk⟩

theorem exact_prependMessages (hm : Exact inverted m) {newMessages : List MessageData}
    (hnew : Ordered inverted newMessages)
    (holder : ∀ r ∈ m.messages, ∀ k ∈ newMessages, k.messageId < r.messageId)
    (hd : (m.ids ++ newMessages.map MessageData.messageId).Nodup) :
    Exact inverted (prependMessages m newMessages) := by
  rw [prependMessages, hm.inverted_eq]
  cases inverted with
  | false =>
      refine ⟨hm.inverted_eq, indexExact_prependMessages hm.indexExact hd, ?_⟩
      exact ordered_append.mpr ⟨hnew, hm.ordered, fun k hk r hr => holder r hr k hk⟩
  | true =>
      refine ⟨hm.inverted_eq, indexExact_appendMessages hm.indexExact hd, ?_⟩
      exact ordered_append.mpr ⟨hm.ordered, hnew, holder⟩

theorem exact_insertMessages (hm : Exact inverted m) {newMessages : List MessageData}
    (hnew : Ordered inverted newMessages) (hbeyond : m.BeyondOneEnd (newMessages.map MessageData.messageId))
    (hd : (m.ids ++ newMessages.map MessageData.messageId).Nodup) :
    Exact inverted (m.insertMessages newMessages) := by
  rcases List.eq_nil_or_concat m.messages with hempty | ⟨pre, last, hrows⟩
  · rw [insertMessages_of_empty hempty]
    exact exact_appendMessages hm hnew (by simp [hempty]) hd
  · rw [List.concat_eq_append] at hrows
    cases newMessages with
    | nil => rwa [insertMessages_nil (by simp [hrows])]
    | cons first rest =>
        have hlast : last.isSponsored = false := hm.ordered.2 last (by rw [hrows]; simp)
        rcases insertMessages_of_beyond hrows hlast rfl hbeyond with ⟨heq, hnewer⟩ | ⟨heq, holder⟩
        · rw [heq]
          exact exact_appendMessages hm hnew hnewer hd
        · rw [heq]
          exact exact_prependMessages hm hnew holder hd

/-- The order of a batch depends on the batch alone. -/
theorem ordered_addedMessages (hinverted : m.own.inverted = inverted) {messages : List QVariantMap}
    (hbatch : m.BatchBeyond messages) : Ordered inverted (m.addedMessages messages) := by
  have hrev : Virtuals.reverseOrder m = inverted := hinverted
  rw [addedMessages, hrev]
  refine ordered_sortMessages ?_ ?_
  · intro r hr
    obtain ⟨messageData, hmem, hr⟩ := List.mem_filterMap.mp hr
    dsimp only at hr
    split_ifs at hr
    obtain rfl := Option.some.inj hr
    exact hbatch.2.1 messageData hmem
  · rw [ids_freshMessages]
    exact hbatch.1.sublist (List.filter_sublist.map _)

/-- The new messages of the batch lie beyond the end that the batch lies beyond. -/
theorem beyondOneEnd_addedMessages {messages : List QVariantMap} (hbatch : m.BatchBeyond messages) :
    m.BeyondOneEnd ((m.addedMessages messages).map MessageData.messageId) := by
  have hperm := ids_addedMessages_perm m messages
  rcases hbatch.2.2 with hnewer | holder
  · exact Or.inl fun r hr k hk => hnewer r hr k (hperm.mem_iff.mp hk)
  · exact Or.inr fun r hr k hk => holder r hr k (hperm.mem_iff.mp hk)

theorem exact_handleInsertMessages (hm : Exact inverted m) {messages : List QVariantMap}
    (hbatch : m.BatchBeyond messages) : Exact inverted (m.handleInsertMessages messages).1 := by
  have hsame := handleInsertMessages_same m messages
  have hinsert : Exact inverted (if m.addedMessages messages = [] then m
      else m.insertMessages (m.addedMessages messages)) := by
    split_ifs with hnil
    · exact hm
    · refine exact_insertMessages hm (ordered_addedMessages hm.inverted_eq hbatch) ?_
        (nodup_ids_addedMessages hm.indexExact hbatch.1)
      exact beyondOneEnd_addedMessages hbatch
  refine ⟨?_, hsame.indexExact hinsert.indexExact, ?_⟩
  · rw [hsame.sameMembers.own]
    exact hinsert.inverted_eq
  · refine hinsert.ordered.of_sublist ?_
    rw [hsame.map_eq _ fun _ => rfl]

/-! ### A fetched message -/

/-- In rows that ascend in some order of the ids, the first one has the least of them. -/
theorem head_least {R : Int → Int → Prop} (hrefl : ∀ k, R k k)
    (hpair : m.messages.Pairwise fun a b => R a.messageId b.messageId) (hne : m.messages ≠ []) :
    ∃ head ∈ m.messages, m.messages.head? = some head ∧ ∀ k ∈ m.ids, R head.messageId k := by
  refine ⟨m.messages.head hne, List.head_mem hne, List.head?_eq_some_head hne, fun k hk => ?_⟩
  obtain ⟨row, hrow, rfl⟩ := List.mem_map.mp hk
  exact hpair.rel_head_of_rel_head_head hrow (hrefl _)

/-- The last one has the greatest. -/
theorem last_greatest {R : Int → Int → Prop} (hrefl : ∀ k, R k k)
    (hpair : m.messages.Pairwise fun a b => R a.messageId b.messageId) (hne : m.messages ≠ []) :
    ∃ last ∈ m.messages, m.messages.getLast? = some last ∧ ∀ k ∈ m.ids, R k last.messageId := by
  refine ⟨m.messages.getLast hne, List.getLast_mem hne, List.getLast?_eq_some_getLast hne, fun k hk => ?_⟩
  obtain ⟨row, hrow, rfl⟩ := List.mem_map.mp hk
  exact hpair.rel_getLast_of_rel_getLast_getLast hrow (hrefl _)

/-- The row at the end of the newer messages has the largest id. -/
theorem exists_newest (hm : Exact inverted m) (hne : m.messages ≠ []) : ∃ newest ∈ m.messages,
    (if inverted then m.messages.head? else m.messages.getLast?) = some newest ∧
      ∀ k ∈ m.ids, k ≤ newest.messageId := by
  have hpair := hm.ordered.1
  cases inverted with
  | false => exact last_greatest Int.le_refl (hpair.imp Int.le_of_lt) hne
  | true => exact head_least (R := fun k k' => k' ≤ k) Int.le_refl (hpair.imp Int.le_of_lt) hne

/-- The row at the other end has the smallest id. -/
theorem exists_oldest (hm : Exact inverted m) (hne : m.messages ≠ []) : ∃ oldest ∈ m.messages,
    (if inverted then m.messages.getLast? else m.messages.head?) = some oldest ∧
      ∀ k ∈ m.ids, oldest.messageId ≤ k := by
  have hpair := hm.ordered.1
  cases inverted with
  | false => exact head_least Int.le_refl (hpair.imp Int.le_of_lt) hne
  | true => exact last_greatest (R := fun k k' => k' ≤ k) Int.le_refl (hpair.imp Int.le_of_lt) hne

/-- Where a message belongs: among the loaded ones, between them, or beyond an end that is reached. -/
def Belongs (m : MediaMessagesModel) (messageId : Int) : Prop :=
  messageId ∈ m.ids ∨ (∃ a ∈ m.ids, ∃ b ∈ m.ids, a < messageId ∧ messageId < b) ∨
    (m.messages ≠ [] ∧ (∀ k ∈ m.ids, k < messageId) ∧ m.endReached = true) ∨
    (m.messages ≠ [] ∧ (∀ k ∈ m.ids, messageId < k) ∧ m.startReached = true) ∨
    -- an empty model has the message beyond both ends
    (m.messages = [] ∧ m.endReached = true ∧ m.startReached = true)

theorem belongs_empty_iff (hempty : m.messages = []) (messageId : Int) :
    Belongs m messageId ↔ m.endReached = true ∧ m.startReached = true := by
  have hids : m.ids = [] := by rw [ids, hempty, List.map_nil]
  rw [Belongs, hids]
  constructor
  · rintro (hmem | ⟨a, ha, -⟩ | ⟨hne, -⟩ | ⟨hne, -⟩ | ⟨-, hreached⟩)
    · cases hmem
    · cases ha
    · exact absurd hempty hne
    · exact absurd hempty hne
    · exact hreached
  · exact fun hreached => Or.inr (Or.inr (Or.inr (Or.inr ⟨hempty, hreached⟩)))

/-- A message newer than all rows. -/
theorem belongs_newer_iff (hne : m.messages ≠ []) {messageId : Int} (hnewer : ∀ k ∈ m.ids, k < messageId) :
    Belongs m messageId ↔ m.endReached = true := by
  obtain ⟨row, hrow⟩ := List.exists_mem_of_ne_nil _ hne
  have hid : row.messageId ∈ m.ids := List.mem_map_of_mem hrow
  rw [Belongs]
  constructor
  · rintro (hmem | ⟨-, -, b, hb, -, hlt⟩ | ⟨-, -, hreached⟩ | ⟨-, hall, -⟩ | ⟨hnil, -⟩)
    · exact absurd (hnewer _ hmem) (Int.lt_irrefl _)
    · exact absurd hlt (Int.lt_asymm (hnewer b hb))
    · exact hreached
    · exact absurd (hall _ hid) (Int.lt_asymm (hnewer _ hid))
    · exact absurd hnil hne
  · exact fun hreached => Or.inr (Or.inr (Or.inl ⟨hne, hnewer, hreached⟩))

/-- A message older than all rows. -/
theorem belongs_older_iff (hne : m.messages ≠ []) {messageId : Int} (holder : ∀ k ∈ m.ids, messageId < k) :
    Belongs m messageId ↔ m.startReached = true := by
  obtain ⟨row, hrow⟩ := List.exists_mem_of_ne_nil _ hne
  have hid : row.messageId ∈ m.ids := List.mem_map_of_mem hrow
  rw [Belongs]
  constructor
  · rintro (hmem | ⟨a, ha, -, -, hlt, -⟩ | ⟨-, hall, -⟩ | ⟨-, -, hreached⟩ | ⟨hnil, -⟩)
    · exact absurd (holder _ hmem) (Int.lt_irrefl _)
    · exact absurd hlt (Int.lt_asymm (holder a ha))
    · exact absurd (hall _ hid) (Int.lt_asymm (holder _ hid))
    · exact hreached
    · exact absurd hnil hne
  · exact fun hreached => Or.inr (Or.inr (Or.inr (Or.inl ⟨hne, holder, hreached⟩)))

/-- The scan over the rows, for a message that lies between them and is not loaded. -/
theorem exists_between (hm : Exact inverted m) {messageId : Int} (hnot : messageId ∉ m.ids)
    (hlater : ∃ r ∈ m.messages, Before inverted messageId r.messageId) :
    ∃ pre post, m.messages = pre ++ post ∧
      (m.messages.findIdx? fun row => if inverted then row.messageId < messageId else messageId < row.messageId) =
        some pre.length ∧
      (∀ r ∈ pre, Before inverted r.messageId messageId) ∧ ∀ r ∈ post, Before inverted messageId r.messageId := by
  obtain ⟨later, hlatermem, hlater⟩ := hlater
  have hpred : ∀ row : MessageData,
      (if inverted = true then decide (row.messageId < messageId) else decide (messageId < row.messageId)) = true ↔
        Before inverted messageId row.messageId := by
    intro row
    cases inverted <;> simp [Before]
  generalize hp : (fun row : MessageData => if inverted = true then decide (row.messageId < messageId)
    else decide (messageId < row.messageId)) = p at *
  have hp' : ∀ row, p row = true ↔ Before inverted messageId row.messageId := by
    intro row
    rw [← hp]
    exact hpred row
  cases hfind : m.messages.findIdx? p with
  | none =>
      have := List.findIdx?_eq_none_iff.mp hfind later hlatermem
      rw [(hp' later).mpr hlater] at this
      exact absurd this Bool.true_eq_false_eq_False.elim
  | some i =>
      obtain ⟨hi, hpi, hbefore⟩ := List.findIdx?_eq_some_iff_getElem.mp hfind
      have hlen : (m.messages.take i).length = i := List.length_take_of_le (Nat.le_of_lt hi)
      refine ⟨m.messages.take i, m.messages.drop i, (List.take_append_drop i _).symm, by rw [hlen], ?_, ?_⟩
      · intro r hr
        obtain ⟨j, hj, rfl⟩ := List.mem_take_iff_getElem.mp hr
        have hj' : j < i := by omega
        have hne : messageId ≠ (m.messages[j]).messageId := fun heq =>
          hnot (heq ▸ List.mem_map_of_mem (List.getElem_mem _))
        have hnbefore : ¬ Before inverted messageId (m.messages[j]).messageId := by
          rw [← hp']
          exact hbefore j hj'
        exact (before_or_before hne).resolve_left hnbefore
      · intro r hr
        have hpair := hm.ordered.1
        rw [← List.take_append_drop i m.messages] at hpair
        have hdrop := (List.pairwise_append.mp hpair).2.1
        rw [List.drop_eq_getElem_cons hi] at hr hdrop
        rcases List.mem_cons.mp hr with rfl | hr
        · exact (hp' _).mp hpi
        · exact ((hp' _).mp hpi).trans ((List.pairwise_cons.mp hdrop).1 r hr)

/-- No row comes behind the last one. -/
theorem findIdx?_last_row (hm : Exact inverted m) {messageId : Int}
    (hlast : m.messageIndexMap.value messageId = some (m.messages.length - 1)) :
    (m.messages.findIdx? fun row => if inverted then row.messageId < messageId else messageId < row.messageId) =
      none := by
  refine List.findIdx?_eq_none_iff.mpr fun row hrow => ?_
  obtain ⟨i, hi, rfl⟩ := List.getElem_of_mem hrow
  obtain ⟨last, hget, hkey⟩ := Indexes.exists_row hm.indexExact hlast
  obtain ⟨hlt, rfl⟩ := List.getElem?_eq_some_iff.mp hget
  rw [MessageData.key_eq_some] at hkey
  have hnbefore : ¬ Before inverted messageId (m.messages[i]).messageId := by
    intro hbefore
    rcases Nat.lt_or_ge i (m.messages.length - 1) with hi' | hi'
    · have := List.pairwise_iff_getElem.mp hm.ordered.1 i _ hi hlt hi'
      rw [hkey] at this
      exact (this.trans hbefore).ne rfl
    · have hi'' : i = m.messages.length - 1 := by omega
      subst hi''
      exact hbefore.ne hkey.symm
  cases inverted <;> simpa [Before] using hnbefore

/-- A message newer than all rows goes behind them. -/
theorem exact_appended (hm : Exact inverted m) {data : MessageData} (hdata : data.isSponsored = false)
    (hall : ∀ k ∈ m.ids, k < data.messageId) :
    Exact inverted (appendMessages m [data]) ∧ data.messageId ∈ (appendMessages m [data]).ids := by
  have hnot : data.messageId ∉ m.ids := fun hmem => absurd (hall _ hmem) (Int.lt_irrefl _)
  constructor
  · refine exact_appendMessages hm ⟨List.pairwise_singleton _ _, by simpa using hdata⟩ ?_ ?_
    · intro r hr k hk
      rw [List.mem_singleton.mp hk]
      exact hall _ (List.mem_map_of_mem hr)
    · exact hm.indexExact.nodup.append (List.nodup_singleton _) (List.disjoint_singleton.mpr hnot)
  · rw [appendMessages]
    split_ifs <;> simp [ids, MessagesModel.appendMessages, MessagesModel.prependMessages]

/-- A message older than all rows goes before them. -/
theorem exact_prepended (hm : Exact inverted m) {data : MessageData} (hdata : data.isSponsored = false)
    (hall : ∀ k ∈ m.ids, data.messageId < k) :
    Exact inverted (prependMessages m [data]) ∧ data.messageId ∈ (prependMessages m [data]).ids := by
  have hnot : data.messageId ∉ m.ids := fun hmem => absurd (hall _ hmem) (Int.lt_irrefl _)
  constructor
  · refine exact_prependMessages hm ⟨List.pairwise_singleton _ _, by simpa using hdata⟩ ?_ ?_
    · intro r hr k hk
      rw [List.mem_singleton.mp hk]
      exact hall _ (List.mem_map_of_mem hr)
    · exact hm.indexExact.nodup.append (List.nodup_singleton _) (List.disjoint_singleton.mpr hnot)
  · rw [prependMessages]
    split_ifs <;> simp [ids, MessagesModel.appendMessages, MessagesModel.prependMessages]

/-- Between the rows the scan finds the place of a message that is not loaded. -/
theorem exact_insertMessagesAt (hm : Exact inverted m) {pre post : List MessageData} {data : MessageData}
    (hrows : m.messages = pre ++ post) (hdata : data.isSponsored = false) (hnot : data.messageId ∉ m.ids)
    (hpre : ∀ r ∈ pre, Before inverted r.messageId data.messageId)
    (hpost : ∀ r ∈ post, Before inverted data.messageId r.messageId) :
    Exact inverted (m.insertMessagesAt pre.length [data]) ∧
      data.messageId ∈ (m.insertMessagesAt pre.length [data]).ids := by
  have heq := insertMessagesAt_eq m pre post [data] hrows
  have hordered := ordered_append.mp (hrows ▸ hm.ordered)
  refine ⟨⟨?_, ?_, ?_⟩, ?_⟩
  · rw [heq]
    exact hm.inverted_eq
  · refine indexExact_insertMessagesAt hm.indexExact (by rw [hrows, List.length_append]; omega) ?_
    exact hm.indexExact.nodup.append (List.nodup_singleton _) (List.disjoint_singleton.mpr hnot)
  · rw [heq]
    have hsingle : Ordered inverted [data] := ⟨List.pairwise_singleton _ _, by simpa using hdata⟩
    refine ordered_append.mpr ⟨ordered_append.mpr ⟨hordered.1, hsingle, ?_⟩, hordered.2.1, ?_⟩
    · intro r hr k hk
      rw [List.mem_singleton.mp hk]
      exact hpre r hr
    · intro r hr k hk
      rcases List.mem_append.mp hr with hr | hr
      · exact hordered.2.2 r hr k hk
      · rw [List.mem_singleton.mp hr]
        exact hpost k hk
  · rw [heq]
    simp [ids]

/-- The scan over the rows passes all of them for a message that is loaded, as it is the last row; for another one
between the oldest and the newest row it finds the place where the message belongs. -/
theorem findIdx?_between (hm : Exact inverted m) {messageId : Int} {message : QVariantMap}
    (hdata : (MessageData.create message messageId).isSponsored = false) (h : m.LastOrAbsent messageId)
    {newest oldest : MessageData} (hnewest : newest ∈ m.messages) (holdest : oldest ∈ m.messages)
    (hle : messageId ≤ newest.messageId) (hge : oldest.messageId ≤ messageId) :
    ((m.messages.findIdx? fun row => if inverted then row.messageId < messageId else messageId < row.messageId) =
        none ∧ messageId ∈ m.ids) ∨
      ∃ i, (m.messages.findIdx? fun row =>
          if inverted then row.messageId < messageId else messageId < row.messageId) = some i ∧
        Exact inverted (m.insertMessagesAt i [MessageData.create message messageId]) ∧
        messageId ∈ (m.insertMessagesAt i [MessageData.create message messageId]).ids ∧ Belongs m messageId := by
  by_cases hmem : messageId ∈ m.ids
  · have hlast : m.messageIndexMap.value messageId = some (m.messages.length - 1) := by
      refine h.resolve_left fun hnone => ?_
      have := (contains_iff_mem_ids hm.indexExact messageId).mpr hmem
      rw [QHash.contains_iff, hnone] at this
      simp at this
    exact Or.inl ⟨findIdx?_last_row hm hlast, hmem⟩
  · have hnewestid : newest.messageId ∈ m.ids := List.mem_map_of_mem hnewest
    have holdestid : oldest.messageId ∈ m.ids := List.mem_map_of_mem holdest
    have hlt : messageId < newest.messageId := by
      have : messageId ≠ newest.messageId := fun heq => hmem (heq ▸ hnewestid)
      omega
    have hgt : oldest.messageId < messageId := by
      have : messageId ≠ oldest.messageId := fun heq => hmem (heq ▸ holdestid)
      omega
    have hlater : ∃ r ∈ m.messages, Before inverted messageId r.messageId := by
      cases inverted
      · exact ⟨newest, hnewest, hlt⟩
      · exact ⟨oldest, holdest, hgt⟩
    obtain ⟨pre, post, hrows, hfind, hpre, hpost⟩ := exists_between hm hmem hlater
    obtain ⟨hexact, hin⟩ := exact_insertMessagesAt hm hrows hdata hmem hpre hpost
    exact Or.inr ⟨pre.length, hfind, hexact, hin, Or.inr (Or.inl ⟨_, holdestid, _, hnewestid, hgt, hlt⟩)⟩

/-- A message that is not loaded is inserted where it belongs, if it belongs anywhere; the last row is found
to be there already. -/
theorem insertMessageInOrder_exact (hm : Exact inverted m) {messageId : Int} {message : QVariantMap}
    (hord : isSponsoredMessage message = false) (h : m.LastOrAbsent messageId) :
    Exact inverted (JumpableMessagesModel.insertMessageInOrder m messageId message inverted) ∧
      (messageId ∈ (JumpableMessagesModel.insertMessageInOrder m messageId message inverted).ids ↔
        Belongs m messageId) := by
  have hdata : (MessageData.create message messageId).isSponsored = false := hord
  rw [JumpableMessagesModel.insertMessageInOrder]
  by_cases hempty : m.messages = []
  · have hids : m.ids = [] := by rw [ids, hempty, List.map_nil]
    have hnewest : (if inverted = true then m.messages.head? else m.messages.getLast?) = none := by
      rw [hempty]
      cases inverted <;> rfl
    rw [hnewest, belongs_empty_iff hempty, ← Bool.and_eq_true]
    dsimp only
    split_ifs with hreached
    · obtain ⟨hexact, hin⟩ := exact_appended hm hdata (by simp [hids])
      exact ⟨hexact, iff_of_true hin hreached⟩
    · exact ⟨hm, iff_of_false (by simp [hids]) hreached⟩
  · obtain ⟨newest, hnewestmem, hnewest, hmax⟩ := exists_newest hm hempty
    obtain ⟨oldest, holdestmem, holdest, hmin⟩ := exists_oldest hm hempty
    rw [hnewest, holdest]
    dsimp only
    by_cases hnewer : newest.messageId < messageId
    · have hall : ∀ k ∈ m.ids, k < messageId := fun k hk => Int.lt_of_le_of_lt (hmax k hk) hnewer
      have hnot : messageId ∉ m.ids := fun hmem => absurd (hall _ hmem) (Int.lt_irrefl _)
      rw [if_pos hnewer, belongs_newer_iff hempty hall]
      split_ifs with hend
      · obtain ⟨hexact, hin⟩ := exact_appended hm hdata hall
        exact ⟨hexact, iff_of_true hin hend⟩
      · exact ⟨hm, iff_of_false hnot hend⟩
    rw [if_neg hnewer]
    by_cases holder : messageId < oldest.messageId
    · have hall : ∀ k ∈ m.ids, messageId < k := fun k hk => Int.lt_of_lt_of_le holder (hmin k hk)
      have hnot : messageId ∉ m.ids := fun hmem => absurd (hall _ hmem) (Int.lt_irrefl _)
      rw [if_pos holder, belongs_older_iff hempty hall]
      split_ifs with hstart
      · obtain ⟨hexact, hin⟩ := exact_prepended hm hdata hall
        exact ⟨hexact, iff_of_true hin hstart⟩
      · exact ⟨hm, iff_of_false hnot hstart⟩
    rw [if_neg holder]
    rcases findIdx?_between hm hdata h hnewestmem holdestmem (Int.not_lt.mp hnewer) (Int.not_lt.mp holder) with
      ⟨hfind, hmem⟩ | ⟨i, hfind, hexact, hin, hbelongs⟩
    · rw [hfind]
      exact ⟨hm, iff_of_true hmem (Or.inl hmem)⟩
    · rw [hfind]
      exact ⟨hexact, iff_of_true hin hbelongs⟩

/-! ### Runs -/

/-- The steps that keep the rows in order and the index map exact: batches and new messages lie beyond one
end, a removed message is the last row, and a fetched one is not loaded yet. -/
def IndexStep (m : MediaMessagesModel) : Event → Prop
  | .handleInsertMessages messages => m.BatchBeyond messages
  | .foundChatMessagesReceived chatId filter extra messages _ _ =>
      m.chatId = chatId → filter = m.own.searchMessagesFilter →
        (m.waitingFor extra || m.messages.isEmpty) = true → m.BatchBeyond messages
  | .newMessageReceived chatId message =>
      m.endReached = true → chatId = m.chatId → m.messageIndexMap.contains (messageIdOf message) = false →
        Utilities.messageMatchesSearchFilter message m.own.searchMessagesFilter = true →
        isSponsoredMessage message = false ∧ m.BeyondOneEnd [messageIdOf message]
  | .messageFetched messageId _ => m.LastOrAbsent messageId
  | .removeMessage messageId => m.LastOrAbsent messageId
  | .messageContentUpdated chatId messageId newContent =>
      m.chatId = chatId → filtersByContent m.own.searchMessagesFilter = true →
        Utilities.messageContentTypeMatchesSearchFilter (newContent.value TYPE_).toStr
          m.own.searchMessagesFilter = false → m.LastOrAbsent messageId
  | .messageIsPinnedUpdated chatId messageId isPinned =>
      m.own.searchMessagesFilter = .pinned → m.chatId = chatId → isPinned = false → m.LastOrAbsent messageId
  | _ => True

instance (m : MediaMessagesModel) : ∀ e : Event, Decidable (IndexStep m e) := by
  rintro (_ | _) <;> dsimp only [IndexStep] <;> infer_instance

theorem removeMessage_exact (hm : Exact inverted m) {messageId : Int} (h : m.LastOrAbsent messageId) :
    Exact inverted (removeMessage m messageId) := by
  obtain ⟨hindex, hsub⟩ := removeMessage_last hm.indexExact h
  have hown := (removeMessage_sameMembers m messageId).own
  have hremoved : Exact inverted (MessagesModel.removeMessage m messageId) :=
    ⟨by rw [hown]; exact hm.inverted_eq, hindex, hm.ordered.of_sublist (hsub.map _)⟩
  rw [removeMessage]
  dsimp only
  split_ifs
  · exact hremoved.of_eq rfl rfl rfl
  · exact hremoved

theorem handleMessageFieldUpdated_exact (hm : Exact inverted m) (chatId messageId : Int)
    (updater : MessageData → MessageData)
    (hupdater : ∀ message, ((updater message).messageId, (updater message).isSponsored) =
      (message.messageId, message.isSponsored)) :
    Exact inverted (m.handleMessageFieldUpdated chatId messageId updater).1 := by
  obtain ⟨messages, heq⟩ := handleMessageFieldUpdated_fst m chatId messageId updater
  have hmap := handleMessageFieldUpdated_map m chatId messageId updater
    (fun r => (r.messageId, r.isSponsored)) hupdater
  have hkeys := handleMessageFieldUpdated_map m chatId messageId updater MessageData.key
    fun message => by simpa [MessageData.key] using congrArg Prod.fst (hupdater message)
  rw [heq] at hmap hkeys ⊢
  exact ⟨hm.inverted_eq, (indexes_congr hkeys).mpr hm.indexExact,
    hm.ordered.of_sublist (by rw [hmap])⟩

/-- A content update removes a loaded message exactly if its new type does not match the filter. -/
theorem matches_setContent (message : MessageData) (newContent : QVariantMap) {filter : SearchMessagesFilter}
    (hfilter : filtersByContent filter = true) :
    Utilities.messageMatchesSearchFilter (message.setContent newContent).messageData filter =
      Utilities.messageContentTypeMatchesSearchFilter (newContent.value TYPE_).toStr filter := by
  have hvalue : ((message.setContent newContent).messageData.value CONTENT).toMap = newContent := by
    simp [MessageData.setContent, QVariant.toMap]
  cases filter <;> simp_all [filtersByContent, Utilities.messageMatchesSearchFilter]

theorem handleMessageContentUpdated_exact (hm : Exact inverted m) {chatId messageId : Int}
    {newContent : QVariantMap} (h : IndexStep m (.messageContentUpdated chatId messageId newContent)) :
    Exact inverted (handleMessageContentUpdated m chatId messageId newContent).1 := by
  have hupdated := handleMessageFieldUpdated_exact hm chatId messageId
    (fun message => message.setContent newContent) fun _ => rfl
  obtain ⟨messages, heq⟩ := handleMessageFieldUpdated_fst m chatId messageId
    fun message => message.setContent newContent
  have hlen := congrArg List.length (handleMessageFieldUpdated_map m chatId messageId
    (fun message => message.setContent newContent) MessageData.messageId fun _ => rfl)
  have hmessage : ∀ message', (m.handleMessageFieldUpdated chatId messageId
      fun message => message.setContent newContent).2 = some message' →
      ∃ message : MessageData, message' = message.setContent newContent := by
    intro message' hsome
    rw [handleMessageFieldUpdated] at hsome
    split_ifs at hsome
    cases hvalue : m.messageIndexMap.value messageId with
    | none => simp [hvalue] at hsome
    | some pos =>
        simp only [hvalue, Option.map_eq_some_iff] at hsome
        obtain ⟨message, -, rfl⟩ := hsome
        exact ⟨message, rfl⟩
  rw [handleMessageContentUpdated, MessagesModel.handleMessageContentUpdated]
  rcases hresult : m.handleMessageFieldUpdated chatId messageId fun message => message.setContent newContent
    with ⟨m', message'⟩
  rw [hresult] at hupdated heq hlen hmessage
  dsimp only at hupdated heq hlen hmessage ⊢
  split
  case isTrue hcond =>
    cases message' with
    | none =>
        dsimp only
        split
        · exact hupdated
        · exact hupdated
    | some message' =>
        dsimp only
        split
        case isTrue => exact hupdated
        case isFalse hmatch =>
          refine removeMessage_exact hupdated ?_
          obtain ⟨message, rfl⟩ := hmessage message' rfl
          rw [matches_setContent message newContent hcond.2, Bool.not_eq_true] at hmatch
          subst heq
          have hlast := h hcond.1 hcond.2 hmatch
          simp only [List.length_map] at hlen
          rwa [LastOrAbsent, hlen]
  case isFalse => exact hupdated

theorem deletes_handleMessagesDeleted (m : MediaMessagesModel) (chatId : Int) (messageIds : List Int) :
    Deletes m (handleMessagesDeleted m chatId messageIds).1 := by
  rw [handleMessagesDeleted]
  dsimp only
  split_ifs
  · exact deleteMessages_deletes m messageIds
  · exact .refl m
  · exact handleMessagesDeleted_deletes m chatId messageIds

theorem handleMessagesDeleted_exact (hm : Exact inverted m) (chatId : Int) (messageIds : List Int) :
    Exact inverted (handleMessagesDeleted m chatId messageIds).1 := by
  have hdeletes := deletes_handleMessagesDeleted m chatId messageIds
  have hindex : (handleMessagesDeleted m chatId messageIds).1.IndexExact := by
    rw [handleMessagesDeleted]
    dsimp only
    split_ifs
    · exact indexExact_deleteMessages hm.indexExact messageIds
    · exact hm.indexExact
    · exact indexExact_handleMessagesDeleted hm.indexExact chatId messageIds
  refine ⟨?_, hindex, hm.ordered.of_sublist (hdeletes.map_sublist _ fun _ => rfl)⟩
  rw [hdeletes.sameMembers.own]
  exact hm.inverted_eq

theorem ordinary_of_message {message : QVariantMap} (h : (message.value TYPE_).toStr = TYPE_MESSAGE) :
    isSponsoredMessage message = false := by
  rw [isSponsoredMessage, h]
  decide

theorem messageFetched_exact (hm : Exact inverted m) {messageId : Int} {message : QVariantMap}
    (htype : (message.value TYPE_).toStr = TYPE_MESSAGE) (h : m.LastOrAbsent messageId) :
    Exact inverted (step m (.messageFetched messageId message)) ∧
      (messageId ∈ (step m (.messageFetched messageId message)).ids ↔ Belongs m messageId) := by
  have hinsert := insertMessageInOrder_exact hm (ordinary_of_message htype) h
  rw [step, handle, if_pos htype, insertMessageInOrder, hm.inverted_eq]
  dsimp only
  split_ifs
  · exact ⟨hinsert.1.of_eq rfl rfl rfl, hinsert.2⟩
  · exact hinsert

theorem exact_step (inverted : Bool) (m : MediaMessagesModel) (e : Event) (hm : Exact inverted m)
    (he : IndexStep m e) : Exact inverted (step m e) := by
  cases e with
  | handleInsertMessages messages => exact exact_handleInsertMessages hm he
  | foundChatMessagesReceived chatId filter extra messages totalCount nextFromMessageId =>
      exact (rowsOnly_exact inverted).answer hm fun hchat hfilter haccept =>
        exact_handleInsertMessages hm (he hchat hfilter haccept)
  | newMessageReceived chatId message =>
      rw [step, handle, handleNewMessageReceived]
      dsimp only
      split_ifs with hend htake
      · obtain ⟨hord, hbeyond⟩ := he hend htake.1 htake.2.1 htake.2.2
        refine exact_insertMessages hm ⟨List.pairwise_singleton _ _, by simpa using hord⟩ hbeyond ?_
        have hnot := (not_mem_ids_iff hm.indexExact _).mp htake.2.1
        exact hm.indexExact.nodup.append (List.nodup_singleton _) (List.disjoint_singleton.mpr hnot)
      · exact hm
      · exact hm
  | messageFetched messageId message =>
      by_cases htype : (message.value TYPE_).toStr = TYPE_MESSAGE
      · exact (messageFetched_exact hm htype he).1
      · rw [step, handle, if_neg htype]
        exact hm
  | removeMessage messageId => exact removeMessage_exact hm he
  | messageContentUpdated chatId messageId newContent => exact handleMessageContentUpdated_exact hm he
  | messageIsPinnedUpdated chatId messageId isPinned =>
      rw [step, handle, handleMessageIsPinnedUpdated]
      by_cases hfilter : m.own.searchMessagesFilter = .pinned
      · rw [if_pos hfilter]
        by_cases hchat : m.chatId = chatId
        · rw [if_neg (not_not.mpr hchat)]
          cases isPinned with
          | true => exact hm
          | false => exact removeMessage_exact hm (he hfilter hchat rfl)
        · rw [if_pos hchat]
          exact hm
      · rw [if_neg hfilter]
        exact handleMessageFieldUpdated_exact hm chatId messageId _ fun _ => rfl
  | messagesDeleted chatId messageIds => exact handleMessagesDeleted_exact hm chatId messageIds
  | _ => exact (rowsOnly_exact inverted).call hm rfl

theorem exact_new (inverted : Bool) (filter : SearchMessagesFilter) : Exact inverted (new inverted filter) :=
  ⟨rfl, Indexes.empty, ordered_nil inverted⟩

/-- **The media models.** In every state a new model reaches by such steps, the index map is exact, the rows
are strictly sorted, and a fetched message is a row afterwards exactly if it belongs there. -/
theorem mediaRows_exact (inverted : Bool) (filter : SearchMessagesFilter) (es : List Event)
    (hes : Along step IndexStep (new inverted filter) es) :
    RowsIndexed (run step (new inverted filter) es) ∧
    (run step (new inverted filter) es).ids.Pairwise (Before inverted) ∧
    ∀ messageId message, (message.value TYPE_).toStr = TYPE_MESSAGE →
      IndexStep (run step (new inverted filter) es) (.messageFetched messageId message) →
      (messageId ∈ (step (run step (new inverted filter) es) (.messageFetched messageId message)).ids ↔
        Belongs (run step (new inverted filter) es) messageId) := by
  have hexact := Along.invariant (exact_step inverted) (exact_new inverted filter) hes
  refine ⟨hexact.indexExact.rowsIndexed, List.pairwise_map.mpr hexact.ordered.1, ?_⟩
  intro messageId message htype hfetch
  exact (messageFetched_exact hexact htype hfetch).2

/-- A video message with its content. -/
def videoOf (chatId messageId : Int) : QVariantMap :=
  messageOf chatId messageId ++ [(CONTENT, .map [(TYPE_, .string MESSAGE_CONTENT_TYPE_VIDEO)])]

theorem mediaRows_exact_run :
    let m := run step (new true .video)
      [.init 7 0 false false, .foundChatMessagesReceived 7 .video .updateInitial [videoOf 7 3, videoOf 7 5] 2 0,
        .removeMessage 3, .messageFetched 6 (videoOf 7 6)]
    RowsIndexed m ∧ (4 ∈ (step m (.messageFetched 4 (videoOf 7 4))).ids ↔ Belongs m 4) := by
  have h := mediaRows_exact true .video
    [.init 7 0 false false, .foundChatMessagesReceived 7 .video .updateInitial [videoOf 7 3, videoOf 7 5] 2 0,
      .removeMessage 3, .messageFetched 6 (videoOf 7 6)] (by decide)
  exact ⟨h.1, h.2.2 4 (videoOf 7 4) (by decide) (by decide)⟩

/-- The first of three videos becomes a photo: its row goes, and the indices behind it stay. -/
theorem not_mediaRows_exact :
    ¬ RowsIndexed (run step (new false .video)
      [.init 7 0 false false,
        .foundChatMessagesReceived 7 .video .updateInitial [videoOf 7 3, videoOf 7 2, videoOf 7 1] 3 0,
        .messageContentUpdated 7 1 [(TYPE_, .string MESSAGE_CONTENT_TYPE_PHOTO)]]) := by
  rintro ⟨hrows, -, -⟩
  exact absurd (hrows 0 (by decide)) (by decide)

end MediaMessagesModel

end YaqtLib
