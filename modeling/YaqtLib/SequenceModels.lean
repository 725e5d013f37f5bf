import YaqtLib.AnnouncedSequences
import YaqtLib.RowViewsModels

/-! The sequences of chats and forum topics over whole runs: what the operations announce is enough as long as no step
changes what rows say that are not beside the change. -/

namespace YaqtLib

open Containers IndexMap Runs Views MessagesModel

namespace PlainReadable

variable {Own : Type} [Virtuals Own] [ReadableVirtuals Own] [PlainReadable Own] {m : MessagesModel Own}

/-- What is announced of an operation covers what else it does to the flags, or by clearing. -/
theorem stable_announced (m : MessagesModel Own) (signals : List RowSignal) :
    Stable fun m' : MessagesModel Own => SequencesAnnounced m m' id signals ∧ Plain m'.own :=
  PlainReadable.stable
    (fun messages messageIndexMap => SequencesAnnounced m
      { m with messages := messages, messageIndexMap := messageIndexMap } id signals)
    (sequencesAnnounced_empty rfl id signals)

theorem announced_refl (h : m.AlbumsKept) (hplain : Plain m.own) (signals : List RowSignal) :
    SequencesAnnounced m m id signals ∧ Plain m.own :=
  ⟨sequencesAnnounced_same h rfl rfl (fun _ _ => rfl) signals, hplain⟩

theorem handleInsertMessages_announced (h : m.AlbumsKept) (hplain : Plain m.own) {messages : List QVariantMap}
    (hd : (messages.map messageIdOf).Nodup) (hcond : m.InsertsSeamlessly (m.addedMessages messages)) :
    SequencesAnnounced m (m.handleInsertMessages messages).1 id (m.handleInsertMessagesSignals messages) := by
  have hkept := h.handleInsertMessages (insertsAtEnds hplain) hd
  have heq : (m.handleInsertMessages messages).1 = if (m.addedMessages messages).isEmpty then m
      else (m.insertMessages (m.addedMessages messages)).setMessagesAlbum (m.addedMessages messages) := rfl
  rw [heq] at hkept ⊢
  rw [handleInsertMessagesSignals]
  split_ifs at hkept ⊢ with hempty
  · exact (announced_refl h hplain _).1
  · exact insertMessages_announced h (fun hnil => hempty (List.isEmpty_iff.mpr hnil))
      (appendMessages_eq _ hplain) (prependMessages_eq m _) hkept hcond

theorem handleMessagesReceived_announced (h : m.AlbumsKept) (hplain : Plain m.own) (fromUpdate : UpdateType)
    {messages : List QVariantMap} (totalCount : Int) (hd : (messages.map messageIdOf).Nodup)
    (hcond : m.waitingFor fromUpdate = true → m.InsertsSeamlessly (m.addedMessages messages)) :
    SequencesAnnounced m (JumpableMessagesModel.handleMessagesReceived m fromUpdate messages totalCount).1 id
      (JumpableMessagesModel.handleMessagesReceivedSignals m fromUpdate messages) := by
  refine ((stable_announced m _).handleMessagesReceived (announced_refl h hplain _) fromUpdate messages totalCount
    fun haccepts => ⟨?_, ?_⟩).1
  · cases messages with
    | nil =>
        rw [JumpableMessagesModel.handleInsertMessages_nil]
        exact (announced_refl h hplain _).1
    | cons message rest =>
        have hinserts : m.InsertsSeamlessly (m.addedMessages (message :: rest)) := by
          rcases haccepts with hwaiting | hempty
          · exact hcond hwaiting
          · exact insertsSeamlessly_of_empty hempty _
        have haccepts' : (m.waitingFor fromUpdate || m.messages.isEmpty) = true := by
          simpa [List.isEmpty_iff] using haccepts
        rw [JumpableMessagesModel.handleMessagesReceivedSignals, List.isEmpty_cons, if_neg Bool.false_ne_true,
          if_pos haccepts']
        exact handleInsertMessages_announced h hplain hd hinserts
  · rw [(handleInsertMessages_sameMembers (insertsAtEnds hplain) messages).own]
    exact hplain

/-- A new message that is taken stays in its place. -/
def TakesSeamlessly (m : MessagesModel Own) (message : QVariantMap) : Prop :=
  m.messageIndexMap.contains (messageIdOf message) = false → Virtuals.canLoadMoreMessages m = true →
    m.endReached = true →
    m.InsertsSeamlessly [Virtuals.processMessageData m (MessageData.create message (messageIdOf message))]

instance (m : MessagesModel Own) (message : QVariantMap) : Decidable (TakesSeamlessly m message) :=
  inferInstanceAs (Decidable (_ → _))

theorem handleNewMessageReceived_announced (h : m.AlbumsKept) (hplain : Plain m.own) {message : QVariantMap}
    (hcond : TakesSeamlessly m message) :
    SequencesAnnounced m (ReadableMessagesModel.handleNewMessageReceived m message) id
      (ReadableMessagesModel.handleNewMessageReceivedSignals m message) := by
  have hkept := h.handleNewMessageReceived (insertsAtEnds hplain) message
  rw [ReadableMessagesModel.handleNewMessageReceived] at hkept ⊢
  rw [ReadableMessagesModel.handleNewMessageReceivedSignals]
  dsimp only at hkept ⊢
  split_ifs at hkept ⊢ with hcontains htaken
  · exact (announced_refl h hplain _).1
  · rw [Bool.and_eq_true] at htaken
    exact insertMessages_announced h (List.cons_ne_nil _ _) (appendMessages_eq _ hplain) (prependMessages_eq m _) hkept
      (hcond (Bool.not_eq_true _ ▸ hcontains) htaken.1 htaken.2)
  · exact (announced_refl h hplain _).1

end PlainReadable

open PlainReadable

/-! ### Chats -/

namespace ChatMessagesModel

/-- The id a row has after an event. -/
def rowId (m : ChatMessagesModel) : Event → Int → Int
  | .messageSendSucceeded chatId oldMessageId messageId _ => m.sentId chatId oldMessageId messageId
  | _ => id

/-- The steps of a chat without sponsored messages that announce every change of a sequence: a batch lists no message
twice, a sent message gets an id that is not loaded, and the rows that are not announced stay in their sequences. -/
def SequenceStep (m : ChatMessagesModel) : Event → Prop
  | .handleInsertMessages messages =>
      (messages.map messageIdOf).Nodup ∧ m.InsertsSeamlessly (m.addedMessages messages)
  | .messagesReceived chatId extra messages _ =>
      (messages.map messageIdOf).Nodup ∧
        (m.chatId = chatId → m.waitingFor extra = true → m.InsertsSeamlessly (m.addedMessages messages))
  | .foundChatMessagesReceived chatId filter extra messages _ =>
      (messages.map messageIdOf).Nodup ∧
        (m.chatId = chatId ∧ filter = .empty → m.waitingFor extra = true →
          m.InsertsSeamlessly (m.addedMessages messages))
  | .newMessageReceived chatId message => chatId = m.chatId → TakesSeamlessly m message
  | .messageSendSucceeded chatId oldMessageId messageId message =>
      m.messageIndexMap.contains messageId = false ∧
        (m.chatId = chatId → m.SendsSeamlessly oldMessageId messageId message)
  | .messagesDeleted chatId messageIds =>
      chatId = m.chatId →
        DeletesSeamlessly messageIds.length m.messages messageIds.reverse messageIds.length messageIds.length
  | .sponsoredMessagesReceived .. => False
  | _ => True

instance (m : ChatMessagesModel) : ∀ e : Event, Decidable (SequenceStep m e) := by
  rintro (_ | _) <;> dsimp only [SequenceStep] <;> infer_instance

/-- **Step lemma.** -/
theorem sequences_step (m : ChatMessagesModel) (e : Event) (hm : Grouped m) (he : SequenceStep m e) :
    Grouped (step m e) ∧ SequencesAnnounced m (step m e) (rowId m e) (signals m e) := by
  have hstable := fun signals => PlainReadable.stable_announced m signals
  have hrefl := fun signals => announced_refl hm.1 hm.2 signals
  cases e with
  | initialLoad fromMessageId => exact ⟨grouped_step m _ hm trivial, (hrefl _).1⟩
  | loadMoreHistory => exact ⟨grouped_step m _ hm trivial, ((hstable _).loadMoreHistory (hrefl _)).1⟩
  | loadMoreFuture => exact ⟨grouped_step m _ hm trivial, ((hstable _).loadMoreFuture (hrefl _)).1⟩
  | loadHistoryForMessage messageId =>
      exact ⟨grouped_step m _ hm trivial, ((hstable _).loadHistoryForMessage (hrefl _) messageId).1⟩
  | loadEnd markAllAsRead =>
      refine ⟨grouped_step m _ hm trivial, ((hstable _).loadEnd (hrefl _) markAllAsRead ⟨?_, ?_⟩).1⟩
      · exact sequencesAnnounced_same hm.1 rfl rfl (fun _ _ => rfl) _
      · exact plain_setLoadingFullEnd _ hm.2
  | setSearchQuery newSearchQuery =>
      refine ⟨grouped_step m _ hm trivial, ?_⟩
      rw [step, handle, setSearchQuery]
      split
      · exact ((hstable _).clear (hrefl _)).1
      · exact (hrefl _).1
  | clear => exact ⟨grouped_step m _ hm trivial, ((hstable _).clear (hrefl _)).1⟩
  | handleInsertMessages messages =>
      exact ⟨grouped_step m _ hm he.1, handleInsertMessages_announced hm.1 hm.2 he.1 he.2⟩
  | messagesReceived chatId extra messages totalCount =>
      refine ⟨grouped_step m _ hm he.1, ?_⟩
      rw [step, handle, handleMessagesReceived, signals]
      split
      · exact handleMessagesReceived_announced hm.1 hm.2 extra totalCount he.1 (he.2 ‹_›)
      · exact (hrefl _).1
  | foundChatMessagesReceived chatId filter extra messages totalCount =>
      refine ⟨grouped_step m _ hm he.1, ?_⟩
      rw [step, handle, handleFoundChatMessagesReceived, signals]
      split
      · exact handleMessagesReceived_announced hm.1 hm.2 extra totalCount he.1 (he.2 ‹_›)
      · exact (hrefl _).1
  | newMessageReceived chatId message =>
      refine ⟨grouped_step m _ hm trivial, ?_⟩
      rw [step, handle, handleNewMessageReceived, signals]
      split
      · exact handleNewMessageReceived_announced hm.1 hm.2 (he ‹_›)
      · exact (hrefl _).1
  | messageSendSucceeded chatId oldMessageId messageId message =>
      obtain ⟨hkept, hannounced⟩ :=
        @handleMessageSendSucceeded_announced _ m _ _ hm.1 chatId oldMessageId messageId message he.1 he.2
      refine ⟨⟨hkept, ?_⟩, hannounced⟩
      rw [step, handle, (handleMessageSendSucceeded_sameMembers m _ _ _ _).own]
      exact hm.2
  | messagesDeleted chatId messageIds =>
      exact ⟨grouped_step m _ hm trivial, handleMessagesDeleted_announced hm.1 he⟩
  | sponsoredMessagesReceived => exact he.elim
  | chatInformationChanged chatInformation => exact ⟨grouped_step m _ hm trivial, (hrefl _).1⟩

end ChatMessagesModel

/-! ### Forum topics -/

namespace ForumTopicMessagesModel

/-- The id a row has after an event. -/
def rowId (m : ForumTopicMessagesModel) : Event → Int → Int
  | .messageSendSucceeded chatId oldMessageId messageId _ => m.sentId chatId oldMessageId messageId
  | _ => id

/-- The steps of a forum topic that announce every change of a sequence, as for a chat. -/
def SequenceStep (m : ForumTopicMessagesModel) : Event → Prop
  | .handleInsertMessages messages =>
      (messages.map messageIdOf).Nodup ∧ m.InsertsSeamlessly (m.addedMessages messages)
  | .forumTopicMessagesReceived chatId forumTopicId extra messages _ =>
      (messages.map messageIdOf).Nodup ∧
        (isTopic m chatId forumTopicId → m.waitingFor extra = true →
          m.InsertsSeamlessly (m.addedMessages messages))
  | .newMessageReceived chatId message =>
      isTopic m chatId ((message.value TdConst.TOPIC_ID).toMap.value TdConst.FORUM_TOPIC_ID).toInt →
        TakesSeamlessly m message
  | .messageSendSucceeded chatId oldMessageId messageId message =>
      m.messageIndexMap.contains messageId = false ∧
        (m.chatId = chatId → m.SendsSeamlessly oldMessageId messageId message)
  | .messagesDeleted chatId messageIds =>
      chatId = m.chatId →
        DeletesSeamlessly messageIds.length m.messages messageIds.reverse messageIds.length messageIds.length
  | _ => True

instance (m : ForumTopicMessagesModel) : ∀ e : Event, Decidable (SequenceStep m e) := by
  rintro (_ | _) <;> dsimp only [SequenceStep] <;> infer_instance

/-- **Step lemma.** -/
theorem sequences_step (m : ForumTopicMessagesModel) (e : Event) (hm : m.AlbumsKept) (he : SequenceStep m e) :
    (step m e).AlbumsKept ∧ SequencesAnnounced m (step m e) (rowId m e) (signals m e) := by
  have hplain : Plain m.own := trivial
  have hstable := fun signals => PlainReadable.stable_announced m signals
  have hrefl := fun signals => announced_refl hm hplain signals
  cases e with
  | setForumTopicData data loadFromMessageId =>
      refine ⟨albumsKept_step m _ hm trivial, ?_⟩
      have hsame : (step m (.setForumTopicData data loadFromMessageId)).messages = m.messages ∧
          (step m (.setForumTopicData data loadFromMessageId)).messageIndexMap = m.messageIndexMap := by
        rw [step, handle, setForumTopicData]
        cases m.own.forumTopic with
        | some topic => exact ⟨rfl, rfl⟩
        | none =>
            dsimp only
            split <;> exact ⟨rfl, rfl⟩
      exact sequencesAnnounced_same hm hsame.1 hsame.2 (fun _ _ => rfl) _
  | loadMoreHistory => exact ⟨albumsKept_step m _ hm trivial, ((hstable _).loadMoreHistory (hrefl _)).1⟩
  | loadMoreFuture => exact ⟨albumsKept_step m _ hm trivial, ((hstable _).loadMoreFuture (hrefl _)).1⟩
  | loadHistoryForMessage messageId =>
      exact ⟨albumsKept_step m _ hm trivial, ((hstable _).loadHistoryForMessage (hrefl _) messageId).1⟩
  | loadEnd markAllAsRead =>
      refine ⟨albumsKept_step m _ hm trivial, ((hstable _).loadEnd (hrefl _) markAllAsRead ⟨?_, trivial⟩).1⟩
      exact sequencesAnnounced_same hm rfl rfl (fun _ _ => rfl) _
  | setSearchQuery newSearchQuery =>
      refine ⟨albumsKept_step m _ hm trivial, ?_⟩
      rw [step, handle, setSearchQuery]
      split
      · exact ((hstable _).clear (hrefl _)).1
      · exact (hrefl _).1
  | clear => exact ⟨albumsKept_step m _ hm trivial, ((hstable _).clear (hrefl _)).1⟩
  | handleInsertMessages messages =>
      exact ⟨albumsKept_step m _ hm he.1, handleInsertMessages_announced hm hplain he.1 he.2⟩
  | forumTopicMessagesReceived chatId forumTopicId extra messages totalCount =>
      refine ⟨albumsKept_step m _ hm he.1, ?_⟩
      rw [step, handle, handleForumTopicMessagesReceived, signals]
      split
      · exact handleMessagesReceived_announced hm hplain extra totalCount he.1 (he.2 ‹_›)
      · exact (hrefl _).1
  | newMessageReceived chatId message =>
      refine ⟨albumsKept_step m _ hm trivial, ?_⟩
      rw [step, handle, handleNewMessageReceived, signals]
      split
      · exact handleNewMessageReceived_announced hm hplain (he ‹_›)
      · exact (hrefl _).1
  | messageSendSucceeded chatId oldMessageId messageId message =>
      exact handleMessageSendSucceeded_announced hm he.1 he.2
  | messagesDeleted chatId messageIds =>
      exact ⟨albumsKept_step m _ hm trivial, handleMessagesDeleted_announced hm he⟩
  | forumTopicUpdated chatId forumTopicId update =>
      refine ⟨albumsKept_step m _ hm trivial, ?_⟩
      rw [step, handle, handleForumTopicUpdated]
      split
      · exact sequencesAnnounced_same hm rfl rfl (fun _ _ => rfl) _
      · exact (hrefl _).1

end ForumTopicMessagesModel

/-- A text message, sent at a time. -/
def textMessageOf (chatId messageId date : Int) : QVariantMap :=
  messageOf chatId messageId ++
    [(TdConst.CONTENT, .map [(TdConst.TYPE_, .string "messageText")]), (TdConst.DATE, .longLong date)]

end YaqtLib
