import YaqtLib.ChatMessagesModel
import YaqtLib.ForumTopicMessagesModel
import YaqtLib.MessageRows
import YaqtLib.Runs

/-! The index map of the readable models: every run of a chat or of a forum topic without sponsored rows
keeps it exact. -/

namespace YaqtLib

open Containers IndexMap Runs

theorem Stable.loadEnd {Own : Type} [Virtuals Own] [ReadableVirtuals Own] {Q : MessagesModel Own → Prop}
    {m : MessagesModel Own} (h : Stable Q) (hm : Q m) (markAllAsRead : Bool)
    (hown : Q { m with own := ReadableVirtuals.setLoadingFullEnd m.own markAllAsRead }) :
    Q (ReadableMessagesModel.loadEnd m markAllAsRead).1 := by
  rw [ReadableMessagesModel.loadEnd]
  split
  · exact h.clear hown
  · exact hm

namespace MessagesModel

variable {Own : Type}

variable [Virtuals Own]

theorem indexExact_handleMessageSendSucceeded [LawfulVirtuals Own] {m : MessagesModel Own} (hm : m.IndexExact)
    {chatId oldMessageId messageId : Int} (message : QVariantMap)
    (hnew : m.messageIndexMap.contains messageId = false) :
    (m.handleMessageSendSucceeded chatId oldMessageId messageId message).1.IndexExact := by
  by_cases hchat : m.chatId = chatId
  swap
  · rwa [handleMessageSendSucceeded, if_neg hchat]
  cases hold : m.messageIndexMap.value oldMessageId with
  | none => rwa [handleMessageSendSucceeded, if_pos hchat, hold]
  | some pos =>
      obtain ⟨pre, old, post, hrows, hpre, -, hkey⟩ := hm.exists_split hold
      have hid := m.sentMessage_messageId messageId message
      rw [handleMessageSendSucceeded_eq m messageId message hchat hrows (by rw [hpre]; exact hold)]
      generalize m.sentMessage messageId message = newMessage at hid ⊢
      unfold IndexExact
      dsimp only
      rw [List.append_assoc]
      have hm' : Indexes MessageData.key (pre ++ old :: post) m.messageIndexMap := by rwa [← hrows]
      have hnotin : messageId ∉ m.ids := (not_mem_ids_iff hm _).mp hnew
      have hd : KeysDistinct MessageData.key (pre ++ (post ++ [newMessage])) := by
        have hnodup := hm.nodup
        rw [ids, hrows] at hnodup hnotin
        rw [keysDistinct_iff, ← List.append_assoc, List.map_append]
        have hsub : ((pre ++ post).map MessageData.messageId).Sublist
            ((pre ++ old :: post).map MessageData.messageId) :=
          ((List.Sublist.refl pre).append (List.sublist_cons_self old post)).map _
        refine (hnodup.sublist hsub).append (List.nodup_singleton _) ?_
        rw [List.map_singleton, hid]
        exact List.disjoint_singleton.mpr fun hmem => hnotin (hsub.subset hmem)
      refine Indexes.rebuild _ hm' hd fun k hk => ?_
      have hknew : k ≠ messageId := by
        rintro rfl
        exact hk newMessage (by simp) (MessageData.key_eq_some.mpr hid)
      rw [QHash.value_insert_of_ne _ _ hknew, QHash.value_remove]
      refine if_congr ?_ rfl rfl
      constructor
      · rintro rfl
        exact ⟨old, List.mem_cons_self .., MessageData.key_eq_some.mpr hkey⟩
      · rintro ⟨r, hr, hrk⟩
        rcases List.mem_cons.mp hr with rfl | hr
        · rw [← hkey, ← MessageData.key_eq_some.mp hrk]
        · exact absurd hrk (hk r (List.mem_append_left _ hr))

theorem indexExact_handleNewMessageReceived [LawfulVirtuals Own] {m : MessagesModel Own}
    (h : m.InsertsAtEnds) (hm : m.IndexExact) (message : QVariantMap) :
    (ReadableMessagesModel.handleNewMessageReceived m message).IndexExact := by
  rw [ReadableMessagesModel.handleNewMessageReceived]
  dsimp only
  split_ifs with hcontains
  · exact hm
  · refine (setMessagesAlbum_same _ _).indexExact (indexExact_insertMessages h hm ?_)
    rw [Bool.not_eq_true, not_mem_ids_iff hm] at hcontains
    rw [List.map_singleton, processMessageData_messageId]
    exact hm.nodup.append (List.nodup_singleton _) (List.disjoint_singleton.mpr hcontains)
  · exact hm

theorem handleNewMessageReceived_sameMembers {m : MessagesModel Own} (h : m.InsertsAtEnds)
    (message : QVariantMap) : SameMembers m (ReadableMessagesModel.handleNewMessageReceived m message) := by
  rw [ReadableMessagesModel.handleNewMessageReceived]
  dsimp only
  split_ifs
  · exact .refl m
  · exact (insertMessages_sameMembers h _).trans (setMessagesAlbum_same _ _).sameMembers
  · exact .refl m

end MessagesModel

open MessagesModel

/-- What the readable classes share as long as there are no sponsored rows (`Plain`): rows are added at
the ends, in ascending batches, and an answer sets the flags as `ReadableMessagesModel` does. -/
class PlainReadable (Own : Type) [Virtuals Own] [ReadableVirtuals Own] extends LawfulVirtuals Own where
  Plain : Own → Prop
  plain_clearOwn : ∀ {own}, Plain own → Plain (Virtuals.clearOwn own)
  plain_setLoadingFullEnd : ∀ {own} b, Plain own → Plain (ReadableVirtuals.setLoadingFullEnd own b)
  reverseOrder_eq : ∀ m : MessagesModel Own, Virtuals.reverseOrder m = false
  appendMessages_eq : ∀ {m : MessagesModel Own} newMessages, Plain m.own →
    Virtuals.appendMessages m newMessages = m.appendMessages newMessages
  prependMessages_eq : ∀ (m : MessagesModel Own) newMessages,
    Virtuals.prependMessages m newMessages = m.prependMessages newMessages
  handlePrepare_eq : ∀ {m : MessagesModel Own} totalCount fromUpdate, Plain m.own →
    (Virtuals.handlePrepareMessagesReceived m totalCount fromUpdate).1 =
      ReadableMessagesModel.handlePrepareMessagesReceived m totalCount fromUpdate

namespace PlainReadable

variable {Own : Type} [Virtuals Own] [ReadableVirtuals Own] [PlainReadable Own]

theorem insertsAtEnds {m : MessagesModel Own} (h : Plain m.own) : InsertsAtEnds m :=
  fun newMessages => Or.inl ⟨appendMessages_eq newMessages h, prependMessages_eq m newMessages⟩

end PlainReadable

/-- `ReadableMessagesModel` sets flags only. -/
theorem ReadableMessagesModel.handlePrepareMessagesReceived_eq {Own : Type} [ReadableVirtuals Own]
    (m : MessagesModel Own) (totalCount : Int) (fromUpdate : UpdateType) : ∃ startReached endReached,
    handlePrepareMessagesReceived m totalCount fromUpdate =
      { m with startReached := startReached, endReached := endReached } := by
  unfold handlePrepareMessagesReceived JumpableMessagesModel.handlePrepareMessagesReceived
  cases fromUpdate <;> dsimp only <;> split_ifs <;> exact ⟨_, _, rfl⟩

namespace PlainReadable

variable {Own : Type} [Virtuals Own] [ReadableVirtuals Own] [PlainReadable Own]

/-- A property of the rows and the index map that an empty model has is stable. -/
theorem stable (R : List MessageData → QHash Int Nat → Prop) (hempty : R [] QHash.empty) :
    Stable fun m : MessagesModel Own => R m.messages m.messageIndexMap ∧ Plain m.own where
  members _ _ _ _ hm := hm
  clear {m} hm := by
    refine ⟨?_, plain_clearOwn hm.2⟩
    change R m.clear.messages m.clear.messageIndexMap
    rw [MessagesModel.clear]
    split_ifs
    · exact hm.1
    · exact hempty
  prepare {m} totalCount fromUpdate hm := by
    obtain ⟨startReached, endReached, heq⟩ :=
      ReadableMessagesModel.handlePrepareMessagesReceived_eq m totalCount fromUpdate
    rw [handlePrepare_eq totalCount fromUpdate hm.2, heq]
    exact hm

end PlainReadable

/-! ### Chats -/

namespace ChatMessagesModel

theorem appendMessages_sameMembers (m : ChatMessagesModel) (newMessages : List MessageData) :
    SameMembers m (appendMessages m newMessages) := by
  rw [appendMessages]
  dsimp only
  split_ifs
  · exact insertMessagesAt_sameMembers m _ newMessages
  · exact .rows m _ _

instance : PlainReadable ChatMembers where
  processMessageData_eq m message := by
    change ∃ unread, ReadableMessagesModel.processMessageData m message = _
    rw [ReadableMessagesModel.processMessageData]
    split_ifs
    · exact ⟨true, rfl⟩
    · exact ⟨message.generatedContentUnread, rfl⟩
  Plain own := own.containsSponsoredMessages = false
  plain_clearOwn _ := rfl
  plain_setLoadingFullEnd _ h := h
  reverseOrder_eq _ := rfl
  appendMessages_eq {m} newMessages h := by
    change appendMessages m newMessages = _
    rw [appendMessages, h, Bool.false_and, if_neg Bool.false_ne_true]
  prependMessages_eq _ _ := rfl
  handlePrepare_eq {m} totalCount fromUpdate h := by
    obtain ⟨startReached, endReached, heq⟩ :=
      ReadableMessagesModel.handlePrepareMessagesReceived_eq m totalCount fromUpdate
    change (handlePrepareMessagesReceived m totalCount fromUpdate).1 = _
    rw [handlePrepareMessagesReceived, heq]
    dsimp only
    rw [insertPendingSponsoredMessages, if_neg]
    simp [h]

/-- A property that the settings of a chat have no part in. -/
structure RowsOnly (Q : ChatMessagesModel → Prop) : Prop where
  stable : Stable Q
  settings : ∀ {m : ChatMessagesModel} loadingFullEnd searchQuery chatInformation, Q m →
    Q { m with own := { m.own with
      loadingFullEnd := loadingFullEnd, searchQuery := searchQuery, chatInformation := chatInformation } }

/-- The calls of the user interface, and the updates of the chat; they keep the rows or drop them all. -/
def Event.isCall : Event → Bool
  | .initialLoad .. | .loadMoreHistory | .loadMoreFuture | .loadHistoryForMessage .. | .loadEnd ..
  | .setSearchQuery .. | .clear | .chatInformationChanged .. => true
  | _ => false

namespace RowsOnly

variable {Q : ChatMessagesModel → Prop} {m : ChatMessagesModel}

theorem call (h : RowsOnly Q) (hm : Q m) {e : Event} (he : e.isCall = true) : Q (step m e) := by
  cases e with
  | initialLoad fromMessageId => exact hm
  | loadMoreHistory => exact h.stable.loadMoreHistory hm
  | loadMoreFuture => exact h.stable.loadMoreFuture hm
  | loadHistoryForMessage messageId => exact h.stable.loadHistoryForMessage hm messageId
  | loadEnd markAllAsRead => exact h.stable.loadEnd hm markAllAsRead (h.settings markAllAsRead _ _ hm)
  | setSearchQuery newSearchQuery =>
      rw [step, handle, setSearchQuery]
      split
      · exact h.settings _ newSearchQuery _ (h.stable.clear hm)
      · exact hm
  | clear => exact h.stable.clear hm
  | chatInformationChanged chatInformation => exact h.settings _ _ chatInformation hm
  | _ => cases he

/-- A slice of the history keeps the property if inserting its batch does. -/
theorem history (h : RowsOnly Q) (hm : Q m) {chatId : Int} {extra : UpdateType} {messages : List QVariantMap}
    {totalCount : Int} (hinsert : m.chatId = chatId → (m.waitingFor extra || m.messages.isEmpty) = true →
      Q (m.handleInsertMessages messages).1) : Q (step m (.messagesReceived chatId extra messages totalCount)) := by
  rw [step, handle, handleMessagesReceived]
  split
  case isTrue hchat =>
    refine h.stable.handleMessagesReceived hm _ _ _ fun haccept => ?_
    exact hinsert hchat (by rcases haccept with h | h <;> simp [h])
  case isFalse => exact hm

/-- So does a slice of what a search finds. -/
theorem found (h : RowsOnly Q) (hm : Q m) {chatId : Int} {filter : SearchMessagesFilter} {extra : UpdateType}
    {messages : List QVariantMap} {totalCount : Int}
    (hinsert : m.chatId = chatId → filter = .empty → (m.waitingFor extra || m.messages.isEmpty) = true →
      Q (m.handleInsertMessages messages).1) :
    Q (step m (.foundChatMessagesReceived chatId filter extra messages totalCount)) := by
  rw [step, handle, handleFoundChatMessagesReceived]
  split
  case isTrue hcond =>
    refine h.stable.handleMessagesReceived hm _ _ _ fun haccept => ?_
    exact hinsert hcond.1 hcond.2 (by rcases haccept with h | h <;> simp [h])
  case isFalse => exact hm

end RowsOnly

/-- The state of a chat without sponsored rows whose index map is exact. -/
def Indexed (m : ChatMessagesModel) : Prop := m.IndexExact ∧ m.own.containsSponsoredMessages = false

theorem rowsOnly_indexed : RowsOnly Indexed where
  stable := PlainReadable.stable (Indexes MessageData.key) Indexes.empty
  settings _ _ _ hm := hm

/-- The steps the index map depends on: the ids of a batch are distinct, a sent message gets an id that is
not loaded, and no sponsored messages come in. -/
def IndexStep (m : ChatMessagesModel) : Event → Prop
  | .handleInsertMessages messages => (messages.map messageIdOf).Nodup
  | .messagesReceived _ _ messages _ => (messages.map messageIdOf).Nodup
  | .foundChatMessagesReceived _ _ _ messages _ => (messages.map messageIdOf).Nodup
  | .messageSendSucceeded _ _ messageId _ => m.messageIndexMap.contains messageId = false
  | .sponsoredMessagesReceived .. => False
  | _ => True

instance (m : ChatMessagesModel) : ∀ e : Event, Decidable (IndexStep m e) := by
  rintro (_ | _) <;> dsimp only [IndexStep] <;> infer_instance

theorem indexed_handleInsertMessages {m : ChatMessagesModel} (hm : Indexed m) {messages : List QVariantMap}
    (hd : (messages.map messageIdOf).Nodup) : Indexed (m.handleInsertMessages messages).1 := by
  have hends : InsertsAtEnds m := PlainReadable.insertsAtEnds hm.2
  refine ⟨indexExact_handleInsertMessages hends hm.1 hd, ?_⟩
  rw [(handleInsertMessages_sameMembers hends messages).own]
  exact hm.2

theorem indexed_step (m : ChatMessagesModel) (e : Event) (hm : Indexed m) (he : IndexStep m e) :
    Indexed (step m e) := by
  cases e with
  | handleInsertMessages messages => exact indexed_handleInsertMessages hm he
  | messagesReceived chatId extra messages totalCount =>
      exact rowsOnly_indexed.history hm fun _ _ => indexed_handleInsertMessages hm he
  | foundChatMessagesReceived chatId filter extra messages totalCount =>
      exact rowsOnly_indexed.found hm fun _ _ _ => indexed_handleInsertMessages hm he
  | newMessageReceived chatId message =>
      rw [step, handle, handleNewMessageReceived]
      split_ifs
      · have hends : InsertsAtEnds m := PlainReadable.insertsAtEnds hm.2
        refine ⟨indexExact_handleNewMessageReceived hends hm.1 message, ?_⟩
        dsimp only
        rw [(handleNewMessageReceived_sameMembers hends message).own]
        exact hm.2
      · exact hm
  | messageSendSucceeded chatId oldMessageId messageId message =>
      refine ⟨indexExact_handleMessageSendSucceeded hm.1 message he, ?_⟩
      rw [step, handle, (handleMessageSendSucceeded_sameMembers m _ _ _ _).own]
      exact hm.2
  | messagesDeleted chatId messageIds =>
      refine ⟨indexExact_handleMessagesDeleted hm.1 chatId messageIds, ?_⟩
      rw [step, handle, (handleMessagesDeleted_deletes m chatId messageIds).sameMembers.own]
      exact hm.2
  | sponsoredMessagesReceived => exact he.elim
  | _ => exact rowsOnly_indexed.call hm rfl

end ChatMessagesModel

/-! ### Forum topics -/

namespace ForumTopicMessagesModel

instance : PlainReadable ForumTopicMembers where
  processMessageData_eq m message := by
    change ∃ unread, ReadableMessagesModel.processMessageData m message = _
    rw [ReadableMessagesModel.processMessageData]
    split_ifs
    · exact ⟨true, rfl⟩
    · exact ⟨message.generatedContentUnread, rfl⟩
  Plain _ := True
  plain_clearOwn _ := trivial
  plain_setLoadingFullEnd _ _ := trivial
  reverseOrder_eq _ := rfl
  appendMessages_eq _ _ := rfl
  prependMessages_eq _ _ := rfl
  handlePrepare_eq _ _ _ := rfl

theorem insertsAtEnds (m : ForumTopicMessagesModel) : InsertsAtEnds m := PlainReadable.insertsAtEnds trivial

/-- A property of the rows and the index map that an empty model has is stable. -/
theorem stable (R : List MessageData → QHash Int Nat → Prop) (hempty : R [] QHash.empty) :
    Stable fun m : ForumTopicMessagesModel => R m.messages m.messageIndexMap where
  members := fun _ _ _ _ hm => hm
  clear := fun hm => ((PlainReadable.stable R hempty).clear ⟨hm, trivial⟩).1
  prepare := fun totalCount fromUpdate hm =>
    ((PlainReadable.stable R hempty).prepare totalCount fromUpdate ⟨hm, trivial⟩).1

/-- A property that the topic's data and the settings have no part in. -/
structure RowsOnly (Q : ForumTopicMessagesModel → Prop) : Prop where
  stable : Stable Q
  own : ∀ {m : ForumTopicMessagesModel} own, Q m → Q { m with own := own }

/-- The calls of the user interface, and the updates of the topic; they keep the rows or drop them all. -/
def Event.isCall : Event → Bool
  | .setForumTopicData .. | .loadMoreHistory | .loadMoreFuture | .loadHistoryForMessage .. | .loadEnd ..
  | .setSearchQuery .. | .clear | .forumTopicUpdated .. => true
  | _ => false

namespace RowsOnly

variable {Q : ForumTopicMessagesModel → Prop} {m : ForumTopicMessagesModel}

theorem call (h : RowsOnly Q) (hm : Q m) {e : Event} (he : e.isCall = true) : Q (step m e) := by
  cases e with
  | setForumTopicData data loadFromMessageId =>
      rw [step, handle, setForumTopicData]
      cases m.own.forumTopic with
      | some topic => exact h.own _ hm
      | none =>
          dsimp only
          split
          · exact hm
          · exact h.own _ hm
  | loadMoreHistory => exact h.stable.loadMoreHistory hm
  | loadMoreFuture => exact h.stable.loadMoreFuture hm
  | loadHistoryForMessage messageId => exact h.stable.loadHistoryForMessage hm messageId
  | loadEnd markAllAsRead => exact h.stable.loadEnd hm markAllAsRead (h.own _ hm)
  | setSearchQuery newSearchQuery =>
      rw [step, handle, setSearchQuery]
      split
      · exact h.own _ (h.stable.clear hm)
      · exact hm
  | clear => exact h.stable.clear hm
  | forumTopicUpdated chatId forumTopicId update =>
      rw [step, handle, handleForumTopicUpdated]
      split_ifs
      · exact h.own _ hm
      · exact hm
  | _ => cases he

/-- A slice keeps the property if inserting its batch does. -/
theorem history (h : RowsOnly Q) (hm : Q m) {chatId forumTopicId : Int} {extra : UpdateType}
    {messages : List QVariantMap} {totalCount : Int}
    (hinsert : isTopic m chatId forumTopicId = true → (m.waitingFor extra || m.messages.isEmpty) = true →
      Q (m.handleInsertMessages messages).1) :
    Q (step m (.forumTopicMessagesReceived chatId forumTopicId extra messages totalCount)) := by
  rw [step, handle, handleForumTopicMessagesReceived]
  split
  case isTrue htopic =>
    refine h.stable.handleMessagesReceived hm _ _ _ fun haccept => ?_
    exact hinsert htopic (by rcases haccept with h | h <;> simp [h])
  case isFalse => exact hm

end RowsOnly

theorem rowsOnly_indexExact : RowsOnly fun m => m.IndexExact where
  stable := stable (Indexes MessageData.key) Indexes.empty
  own _ hm := hm

/-- The steps the index map depends on, as for a chat. -/
def IndexStep (m : ForumTopicMessagesModel) : Event → Prop
  | .handleInsertMessages messages => (messages.map messageIdOf).Nodup
  | .forumTopicMessagesReceived _ _ _ messages _ => (messages.map messageIdOf).Nodup
  | .messageSendSucceeded _ _ messageId _ => m.messageIndexMap.contains messageId = false
  | _ => True

instance (m : ForumTopicMessagesModel) : ∀ e : Event, Decidable (IndexStep m e) := by
  rintro (_ | _) <;> dsimp only [IndexStep] <;> infer_instance

theorem indexExact_step (m : ForumTopicMessagesModel) (e : Event) (hm : m.IndexExact) (he : IndexStep m e) :
    (step m e).IndexExact := by
  cases e with
  | handleInsertMessages messages => exact indexExact_handleInsertMessages (insertsAtEnds m) hm he
  | forumTopicMessagesReceived chatId forumTopicId extra messages totalCount =>
      exact rowsOnly_indexExact.history hm fun _ _ => indexExact_handleInsertMessages (insertsAtEnds m) hm he
  | newMessageReceived chatId message =>
      rw [step, handle, handleNewMessageReceived]
      split_ifs
      · exact indexExact_handleNewMessageReceived (insertsAtEnds m) hm message
      · exact hm
  | messageSendSucceeded chatId oldMessageId messageId message =>
      exact indexExact_handleMessageSendSucceeded hm message he
  | messagesDeleted chatId messageIds => exact indexExact_handleMessagesDeleted hm chatId messageIds
  | _ => exact rowsOnly_indexExact.call hm rfl

end ForumTopicMessagesModel

/-- **The index map of the readable models.** In every state a new chat or forum topic reaches, each row
is found under its id, no two rows share an id, and the map has no other key. -/
theorem messageIndexMap_exact :
    (∀ chatId chatInformation (es : List ChatMessagesModel.Event),
      Along ChatMessagesModel.step ChatMessagesModel.IndexStep (ChatMessagesModel.new chatId chatInformation) es →
      RowsIndexed (run ChatMessagesModel.step (ChatMessagesModel.new chatId chatInformation) es)) ∧
    (∀ chatId (es : List ForumTopicMessagesModel.Event),
      Along ForumTopicMessagesModel.step ForumTopicMessagesModel.IndexStep (ForumTopicMessagesModel.new chatId)
        es →
      RowsIndexed (run ForumTopicMessagesModel.step (ForumTopicMessagesModel.new chatId) es)) := by
  constructor
  · intro chatId chatInformation es hes
    have hstart : ChatMessagesModel.Indexed (ChatMessagesModel.new chatId chatInformation) :=
      ⟨Indexes.empty, rfl⟩
    exact (Along.invariant ChatMessagesModel.indexed_step hstart hes).1.rowsIndexed
  · intro chatId es hes
    have hstart : (ForumTopicMessagesModel.new chatId).IndexExact := Indexes.empty
    exact (Along.invariant (I := IndexExact) ForumTopicMessagesModel.indexExact_step hstart hes).rowsIndexed

theorem messageIndexMap_exact_runs :
    RowsIndexed (run ChatMessagesModel.step (ChatMessagesModel.new 7 [])
      [.messagesReceived 7 .updateInitial [messageOf 7 5, messageOf 7 4] 2,
        .handleInsertMessages [messageOf 7 2, messageOf 7 5], .messageSendSucceeded 7 4 6 (messageOf 7 6),
        .messagesDeleted 7 [2, 6]]) ∧
    RowsIndexed (run ForumTopicMessagesModel.step (ForumTopicMessagesModel.new 7)
      [.handleInsertMessages [messageOf 7 5, messageOf 7 4], .messageSendSucceeded 7 4 6 (messageOf 7 6),
        .clear]) :=
  ⟨messageIndexMap_exact.1 7 [] _ (by decide), messageIndexMap_exact.2 7 _ (by decide)⟩

end YaqtLib
