import YaqtLib.ChatListSignals
import YaqtLib.RowViews
import YaqtLib.SliceRows

/-! Views of chat lists, chats and forum topics over whole runs. -/

namespace YaqtLib

open Containers IndexMap Runs Views MessagesModel

/-! ### Readable models -/

namespace JumpableMessagesModel

variable {Own : Type} [Virtuals Own] {m : MessagesModel Own}

theorem clear_follows (hm : m.RowsLead) : Follows m (clear m).1 m.clearSignals :=
  (MessagesModel.clear_follows hm).of_rows rfl rfl

theorem loadMoreHistory_follows (hm : m.RowsLead) : Follows m (loadMoreHistory m).1 [] := by
  rw [loadMoreHistory]
  split
  · exact (Follows.refl hm).of_rows rfl rfl
  · exact .refl hm

theorem loadMoreFuture_follows (hm : m.RowsLead) : Follows m (loadMoreFuture m).1 [] := by
  rw [loadMoreFuture]
  split
  · exact (Follows.refl hm).of_rows rfl rfl
  · exact .refl hm

theorem loadHistoryForMessage_follows (hm : m.RowsLead) (messageId : Int) :
    Follows m (loadHistoryForMessage m messageId).1
      (loadHistoryForMessageSignals m) := by
  rw [loadHistoryForMessage, loadHistoryForMessageSignals]
  split
  · exact (clear_follows hm).of_rows rfl rfl
  · exact .refl hm

end JumpableMessagesModel

theorem ReadableMessagesModel.loadEnd_follows {Own : Type} [Virtuals Own] [ReadableVirtuals Own] {m : MessagesModel Own}
    (hm : m.RowsLead) (markAllAsRead : Bool) :
    Follows m (ReadableMessagesModel.loadEnd m markAllAsRead).1 (ReadableMessagesModel.loadEndSignals m) := by
  rw [ReadableMessagesModel.loadEnd, ReadableMessagesModel.loadEndSignals]
  split
  · have hown : RowsLead { m with own := ReadableVirtuals.setLoadingFullEnd m.own markAllAsRead } := hm
    have hclear := JumpableMessagesModel.clear_follows hown
    exact ⟨hclear.lead, hclear.mirrors⟩
  · exact .refl hm

namespace PlainReadable

variable {Own : Type} [Virtuals Own] [ReadableVirtuals Own] [PlainReadable Own] {m : MessagesModel Own}

theorem insertMessages_follows (hm : m.RowsLead) (hplain : Plain m.own) {newMessages : List MessageData}
    (hne : newMessages ≠ []) : Follows m (m.insertMessages newMessages) (m.insertMessagesSignals newMessages) :=
  MessagesModel.insertMessages_follows hm hne (appendMessages_eq newMessages hplain) (prependMessages_eq m newMessages)

theorem handleInsertMessages_follows (hm : m.RowsLead) (hplain : Plain m.own) (messages : List QVariantMap) :
    Follows m (m.handleInsertMessages messages).1 (m.handleInsertMessagesSignals messages) := by
  have heq : (m.handleInsertMessages messages).1 = if (m.addedMessages messages).isEmpty then m
      else (m.insertMessages (m.addedMessages messages)).setMessagesAlbum (m.addedMessages messages) := rfl
  rw [heq, handleInsertMessagesSignals]
  split_ifs with hempty
  · exact .refl hm
  · have hinsert : Follows m (m.insertMessages (m.addedMessages messages))
        (m.insertMessagesSignals (m.addedMessages messages)) :=
      insertMessages_follows hm hplain fun hnil => hempty (List.isEmpty_iff.mpr hnil)
    exact hinsert.trans (setMessagesAlbum_follows hinsert.lead _)

theorem handleMessagesReceived_follows (hm : m.RowsLead) (hplain : Plain m.own) (fromUpdate : UpdateType)
    (messages : List QVariantMap) (totalCount : Int) :
    Follows m (JumpableMessagesModel.handleMessagesReceived m fromUpdate messages totalCount).1
      (JumpableMessagesModel.handleMessagesReceivedSignals m fromUpdate messages) := by
  have hbatch : Follows m (JumpableMessagesModel.withBatch m fromUpdate messages)
      (JumpableMessagesModel.handleMessagesReceivedSignals m fromUpdate messages) := by
    rw [JumpableMessagesModel.withBatch, JumpableMessagesModel.handleMessagesReceivedSignals]
    have hfollows := handleInsertMessages_follows hm hplain messages
    cases messages with
    | nil =>
        rw [JumpableMessagesModel.handleInsertMessages_nil, ite_self]
        exact .refl hm
    | cons message rest =>
        simp only [List.isEmpty_cons, Bool.or_eq_true, List.isEmpty_iff, Bool.false_eq_true, if_false]
        split_ifs
        · exact hfollows
        · exact .refl hm
  have hown : Plain (JumpableMessagesModel.withBatch m fromUpdate messages).own := by
    rw [(JumpableMessagesModel.withBatch_sameMembers (insertsAtEnds hplain) fromUpdate messages).own]
    exact hplain
  refine JumpableMessagesModel.handleMessagesReceived_of
    (Q := fun m' => Follows m m' (JumpableMessagesModel.handleMessagesReceivedSignals m fromUpdate messages))
    (fun _ h => h.of_rows rfl rfl) hbatch fun _ waitingFor => ?_
  have hprepare := @handlePrepare_eq Own _ _ _
    { JumpableMessagesModel.withBatch m fromUpdate messages with waitingFor := waitingFor } totalCount fromUpdate hown
  obtain ⟨startReached, endReached, heq⟩ := ReadableMessagesModel.handlePrepareMessagesReceived_eq
    { JumpableMessagesModel.withBatch m fromUpdate messages with waitingFor := waitingFor } totalCount fromUpdate
  rw [hprepare, heq]
  exact hbatch.of_rows rfl rfl

theorem handleNewMessageReceived_follows (hm : m.RowsLead) (hplain : Plain m.own) (message : QVariantMap) :
    Follows m (ReadableMessagesModel.handleNewMessageReceived m message)
      (ReadableMessagesModel.handleNewMessageReceivedSignals m message) := by
  rw [ReadableMessagesModel.handleNewMessageReceived, ReadableMessagesModel.handleNewMessageReceivedSignals]
  dsimp only
  split_ifs
  · exact .refl hm
  · have hinsert : Follows m
        (m.insertMessages [Virtuals.processMessageData m (MessageData.create message (messageIdOf message))])
        (m.insertMessagesSignals
          [Virtuals.processMessageData m (MessageData.create message (messageIdOf message))]) :=
      insertMessages_follows hm hplain (List.cons_ne_nil _ _)
    exact hinsert.trans (setMessagesAlbum_follows hinsert.lead _)
  · exact .refl hm

end PlainReadable

open PlainReadable

/-! ### Chats -/

namespace ChatMessagesModel

/-- No sponsored messages come in. -/
def WithoutSponsored : Event → Prop
  | .sponsoredMessagesReceived .. => False
  | _ => True

instance : ∀ e : Event, Decidable (WithoutSponsored e) := by
  rintro (_ | _) <;> dsimp only [WithoutSponsored] <;> infer_instance

/-- What is announced during an event, in a chat without sponsored messages. -/
def signals (m : ChatMessagesModel) : Event → List RowSignal
  | .initialLoad _ | .loadMoreHistory | .loadMoreFuture | .chatInformationChanged _ => []
  | .sponsoredMessagesReceived .. => []
  | .loadHistoryForMessage _ => JumpableMessagesModel.loadHistoryForMessageSignals m
  | .loadEnd _ => ReadableMessagesModel.loadEndSignals m
  | .setSearchQuery newSearchQuery => if m.own.searchQuery ≠ newSearchQuery then m.clearSignals else []
  | .clear => m.clearSignals
  | .handleInsertMessages messages => m.handleInsertMessagesSignals messages
  | .messagesReceived chatId extra messages _ =>
      if m.chatId = chatId then JumpableMessagesModel.handleMessagesReceivedSignals m extra messages else []
  | .foundChatMessagesReceived chatId filter extra messages _ =>
      if m.chatId = chatId ∧ filter = .empty then
        JumpableMessagesModel.handleMessagesReceivedSignals m extra messages
      else []
  | .newMessageReceived chatId message =>
      if chatId = m.chatId then ReadableMessagesModel.handleNewMessageReceivedSignals m message else []
  | .messageSendSucceeded chatId oldMessageId messageId message =>
      m.handleMessageSendSucceededSignals chatId oldMessageId messageId message
  | .messagesDeleted chatId messageIds => m.handleMessagesDeletedSignals chatId messageIds

/-- **Step lemma.** -/
theorem step_follows (m : ChatMessagesModel) (e : Event) (hm : m.RowsLead) (hplain : PlainReadable.Plain m.own)
    (he : WithoutSponsored e) : Follows m (step m e) (signals m e) := by
  cases e with
  | initialLoad fromMessageId => exact .refl hm
  | loadMoreHistory => exact JumpableMessagesModel.loadMoreHistory_follows hm
  | loadMoreFuture => exact JumpableMessagesModel.loadMoreFuture_follows hm
  | loadHistoryForMessage messageId => exact JumpableMessagesModel.loadHistoryForMessage_follows hm messageId
  | loadEnd markAllAsRead => exact ReadableMessagesModel.loadEnd_follows hm markAllAsRead
  | setSearchQuery newSearchQuery =>
      rw [step, handle, setSearchQuery, signals]
      split
      · exact (JumpableMessagesModel.clear_follows hm).of_rows rfl rfl
      · exact .refl hm
  | clear => exact JumpableMessagesModel.clear_follows hm
  | handleInsertMessages messages => exact handleInsertMessages_follows hm hplain messages
  | messagesReceived chatId extra messages totalCount =>
      rw [step, handle, handleMessagesReceived, signals]
      split
      · exact handleMessagesReceived_follows hm hplain extra messages totalCount
      · exact .refl hm
  | foundChatMessagesReceived chatId filter extra messages totalCount =>
      rw [step, handle, handleFoundChatMessagesReceived, signals]
      split
      · exact handleMessagesReceived_follows hm hplain extra messages totalCount
      · exact .refl hm
  | newMessageReceived chatId message =>
      rw [step, handle, handleNewMessageReceived, signals]
      split
      · exact handleNewMessageReceived_follows hm hplain message
      · exact .refl hm
  | messageSendSucceeded chatId oldMessageId messageId message =>
      exact handleMessageSendSucceeded_follows hm chatId oldMessageId messageId message
  | messagesDeleted chatId messageIds => exact handleMessagesDeleted_follows hm chatId messageIds
  | sponsoredMessagesReceived => exact he.elim
  | chatInformationChanged chatInformation => exact (Follows.refl hm).of_rows rfl rfl

theorem rowsOnly_plain : RowsOnly fun m => True ∧ PlainReadable.Plain m.own where
  stable := PlainReadable.stable (fun _ _ => True) trivial
  settings _ _ _ hm := hm

theorem step_plain (m : ChatMessagesModel) (e : Event) (hplain : PlainReadable.Plain m.own) (he : WithoutSponsored e) :
    PlainReadable.Plain (step m e).own := by
  have hinsert : ∀ messages, True ∧ PlainReadable.Plain (m.handleInsertMessages messages).1.own := by
    intro messages
    rw [(handleInsertMessages_sameMembers (insertsAtEnds hplain) messages).own]
    exact ⟨trivial, hplain⟩
  cases e with
  | handleInsertMessages messages => exact (hinsert messages).2
  | messagesReceived chatId extra messages totalCount =>
      exact (rowsOnly_plain.history ⟨trivial, hplain⟩ fun _ _ => hinsert messages).2
  | foundChatMessagesReceived chatId filter extra messages totalCount =>
      exact (rowsOnly_plain.found ⟨trivial, hplain⟩ fun _ _ _ => hinsert messages).2
  | newMessageReceived chatId message =>
      rw [step, handle, handleNewMessageReceived]
      split
      · dsimp only
        rw [(handleNewMessageReceived_sameMembers (insertsAtEnds hplain) message).own]
        exact hplain
      · exact hplain
  | messageSendSucceeded chatId oldMessageId messageId message =>
      rw [step, handle, (handleMessageSendSucceeded_sameMembers m _ _ _ _).own]
      exact hplain
  | messagesDeleted chatId messageIds =>
      rw [step, handle, (handleMessagesDeleted_deletes m chatId messageIds).sameMembers.own]
      exact hplain
  | sponsoredMessagesReceived => exact he.elim
  | _ => exact (rowsOnly_plain.call ⟨trivial, hplain⟩ rfl).2

end ChatMessagesModel

/-! ### Forum topics -/

namespace ForumTopicMessagesModel

/-- What is announced during an event. -/
def signals (m : ForumTopicMessagesModel) : Event → List RowSignal
  | .setForumTopicData _ _ | .loadMoreHistory | .loadMoreFuture | .forumTopicUpdated .. => []
  | .loadHistoryForMessage _ => JumpableMessagesModel.loadHistoryForMessageSignals m
  | .loadEnd _ => ReadableMessagesModel.loadEndSignals m
  | .setSearchQuery newSearchQuery => if m.own.searchQuery ≠ newSearchQuery then m.clearSignals else []
  | .clear => m.clearSignals
  | .handleInsertMessages messages => m.handleInsertMessagesSignals messages
  | .forumTopicMessagesReceived chatId forumTopicId extra messages _ =>
      if isTopic m chatId forumTopicId then
        JumpableMessagesModel.handleMessagesReceivedSignals m extra messages
      else []
  | .newMessageReceived chatId message =>
      if isTopic m chatId ((message.value TdConst.TOPIC_ID).toMap.value TdConst.FORUM_TOPIC_ID).toInt then
        ReadableMessagesModel.handleNewMessageReceivedSignals m message
      else []
  | .messageSendSucceeded chatId oldMessageId messageId message =>
      m.handleMessageSendSucceededSignals chatId oldMessageId messageId message
  | .messagesDeleted chatId messageIds => m.handleMessagesDeletedSignals chatId messageIds

/-- **Step lemma.** -/
theorem step_follows (m : ForumTopicMessagesModel) (e : Event) (hm : m.RowsLead) :
    Follows m (step m e) (signals m e) := by
  have hplain : PlainReadable.Plain m.own := trivial
  cases e with
  | setForumTopicData data loadFromMessageId =>
      rw [step, handle, setForumTopicData]
      cases m.own.forumTopic with
      | some topic => exact (Follows.refl hm).of_rows rfl rfl
      | none =>
          dsimp only
          split
          · exact .refl hm
          · exact (Follows.refl hm).of_rows rfl rfl
  | loadMoreHistory => exact JumpableMessagesModel.loadMoreHistory_follows hm
  | loadMoreFuture => exact JumpableMessagesModel.loadMoreFuture_follows hm
  | loadHistoryForMessage messageId => exact JumpableMessagesModel.loadHistoryForMessage_follows hm messageId
  | loadEnd markAllAsRead => exact ReadableMessagesModel.loadEnd_follows hm markAllAsRead
  | setSearchQuery newSearchQuery =>
      rw [step, handle, setSearchQuery, signals]
      split
      · exact (JumpableMessagesModel.clear_follows hm).of_rows rfl rfl
      · exact .refl hm
  | clear => exact JumpableMessagesModel.clear_follows hm
  | handleInsertMessages messages => exact handleInsertMessages_follows hm hplain messages
  | forumTopicMessagesReceived chatId forumTopicId extra messages totalCount =>
      rw [step, handle, handleForumTopicMessagesReceived, signals]
      split
      · exact handleMessagesReceived_follows hm hplain extra messages totalCount
      · exact .refl hm
  | newMessageReceived chatId message =>
      rw [step, handle, handleNewMessageReceived, signals]
      split
      · exact handleNewMessageReceived_follows hm hplain message
      · exact .refl hm
  | messageSendSucceeded chatId oldMessageId messageId message =>
      exact handleMessageSendSucceeded_follows hm chatId oldMessageId messageId message
  | messagesDeleted chatId messageIds => exact handleMessagesDeleted_follows hm chatId messageIds
  | forumTopicUpdated chatId forumTopicId update =>
      rw [step, handle, handleForumTopicUpdated]
      split
      · exact (Follows.refl hm).of_rows rfl rfl
      · exact .refl hm

end ForumTopicMessagesModel

/-- **Views mirror the models.** In every run of a chat list, and in every run of a chat without sponsored messages or
of a forum topic, what is announced can be carried out by a view, and the view then shows the rows. -/
theorem views_mirror :
    (∀ es : List ChatListModel.Event,
      Mirrors (fun role => role == .chatId) (announced ChatListModel.step ChatListModel.signals ChatListModel.new es) []
        (run ChatListModel.step ChatListModel.new es).chatIds) ∧
    (∀ chatId chatInformation (es : List ChatMessagesModel.Event), (∀ e ∈ es, ChatMessagesModel.WithoutSponsored e) →
      Mirrors (fun role => role == .messageId)
        (announced ChatMessagesModel.step ChatMessagesModel.signals (ChatMessagesModel.new chatId chatInformation) es)
        [] (run ChatMessagesModel.step (ChatMessagesModel.new chatId chatInformation) es).ids) ∧
    (∀ chatId (es : List ForumTopicMessagesModel.Event),
      Mirrors (fun role => role == .messageId)
        (announced ForumTopicMessagesModel.step ForumTopicMessagesModel.signals (ForumTopicMessagesModel.new chatId) es)
        [] (run ForumTopicMessagesModel.step (ForumTopicMessagesModel.new chatId) es).ids) := by
  refine ⟨fun es => ?_, fun chatId chatInformation es hes => ?_, fun chatId es => ?_⟩
  · have hstart : ChatListModel.new.RowsLead := Indexes.empty.leads
    exact mirrors_run (fun m e hm _ => ChatListModel.step_mirrored m e hm) hstart (along_true _ es)
  · have hstart : RowsLead (ChatMessagesModel.new chatId chatInformation) ∧
        PlainReadable.Plain (ChatMessagesModel.new chatId chatInformation).own := ⟨Indexes.empty.leads, rfl⟩
    have hstep : ∀ (m : ChatMessagesModel) e, RowsLead m ∧ PlainReadable.Plain m.own →
        ChatMessagesModel.WithoutSponsored e →
        (RowsLead (ChatMessagesModel.step m e) ∧ PlainReadable.Plain (ChatMessagesModel.step m e).own) ∧
        Mirrors (fun role => role == .messageId) (ChatMessagesModel.signals m e) m.ids
          (ids (ChatMessagesModel.step m e)) := by
      intro m e hm he
      have hfollows := ChatMessagesModel.step_follows m e hm.1 hm.2 he
      exact ⟨⟨hfollows.lead, ChatMessagesModel.step_plain m e hm.2 he⟩, hfollows.mirrors⟩
    exact mirrors_run hstep hstart (along_of_forall hes _)
  · have hstart : RowsLead (ForumTopicMessagesModel.new chatId) := Indexes.empty.leads
    have hstep : ∀ (m : ForumTopicMessagesModel) e, RowsLead m → True →
        RowsLead (ForumTopicMessagesModel.step m e) ∧
        Mirrors (fun role => role == .messageId) (ForumTopicMessagesModel.signals m e) m.ids
          (ids (ForumTopicMessagesModel.step m e)) := by
      intro m e hm _
      have hfollows := ForumTopicMessagesModel.step_follows m e hm
      exact ⟨hfollows.lead, hfollows.mirrors⟩
    exact mirrors_run hstep hstart (along_true _ es)

theorem views_mirror_run :
    Mirrors (fun role => role == .messageId)
      (announced ChatMessagesModel.step ChatMessagesModel.signals (ChatMessagesModel.new 7 [])
        [.handleInsertMessages [messageOf 7 5, messageOf 7 4], .messageSendSucceeded 7 4 6 (messageOf 7 6),
          .messagesDeleted 7 [5, 9]]) []
      (run ChatMessagesModel.step (ChatMessagesModel.new 7 [])
        [.handleInsertMessages [messageOf 7 5, messageOf 7 4], .messageSendSucceeded 7 4 6 (messageOf 7 6),
          .messagesDeleted 7 [5, 9]]).ids :=
  views_mirror.2.1 7 [] _ (by decide)

end YaqtLib
