import YaqtLib.LiveTailModels
import YaqtLib.MediaIndex
import YaqtLib.WaitingFlags

/-! The flags of the three classes of message models, and when each of them stands for a request in flight. -/

namespace YaqtLib

open Containers IndexMap Runs Requests MessagesModel JumpableMessagesModel

/-- `JumpableMessagesModel::handlePrepareMessagesReceived` sets the flags of the ends only. -/
theorem JumpableMessagesModel.handlePrepare_waitingFor {Own : Type} (m : MessagesModel Own) (totalCount : Int)
    (fromUpdate : UpdateType) :
    (JumpableMessagesModel.handlePrepareMessagesReceived m totalCount fromUpdate).waitingFor = m.waitingFor := by
  unfold JumpableMessagesModel.handlePrepareMessagesReceived
  split_ifs
  · cases fromUpdate <;> rfl
  · rfl

section Virtual

variable {Own : Type} [Virtuals Own] [WaitingVirtuals Own]

theorem handleNewMessageReceived_waitingFor [ReadableVirtuals Own] (m : MessagesModel Own) (message : QVariantMap) :
    (ReadableMessagesModel.handleNewMessageReceived m message).waitingFor = m.waitingFor := by
  rw [ReadableMessagesModel.handleNewMessageReceived]
  dsimp only
  split_ifs
  · rfl
  · rw [(setMessagesAlbum_same _ _).sameMembers.waitingFor, insertMessages_waitingFor]
  · rfl

/-- The flags after a call: they are all down, or what the call does to them is known. -/
def CallFlags (m : MessagesModel Own) (result : MessagesModel Own × List Output) (raised : UpdateType → Prop) : Prop :=
  (∀ t, result.1.waitingFor t = false ∧ ¬ raised t) ∨
    ∃ kept, StepFlags m result kept raised (WaitingVirtuals.CanLoad m.own)

theorem CallFlags.of_same {m : MessagesModel Own} {result : MessagesModel Own × List Output}
    (hflags : result.1.waitingFor = m.waitingFor) (houtputs : .cleared ∉ result.2) :
    CallFlags m result fun _ => False :=
  Or.inr ⟨_, .of_same hflags houtputs _⟩

theorem CallFlags.of_clear {m : MessagesModel Own} {result : MessagesModel Own × List Output}
    (hflags : result.1.waitingFor = fun _ => false) : CallFlags m result fun _ => False :=
  Or.inl fun t => ⟨congrFun hflags t, id⟩

theorem CallFlags.of_result {m : MessagesModel Own} {result result' : MessagesModel Own × List Output}
    {raised : UpdateType → Prop} (h : CallFlags m result raised)
    (hflags : result'.1.waitingFor = result.1.waitingFor) (houtputs : result'.2 = result.2) :
    CallFlags m result' raised := by
  rcases h with hdown | ⟨kept, hflags'⟩
  · exact Or.inl fun t => ⟨(congrFun hflags t).trans (hdown t).1, (hdown t).2⟩
  · exact Or.inr ⟨kept, hflags'.of_result hflags houtputs⟩

theorem loadHistoryForMessage_call (m : MessagesModel Own) (messageId : Int) :
    CallFlags m (loadHistoryForMessage m messageId) fun _ => False := by
  rw [loadHistoryForMessage]
  split_ifs
  · exact .of_clear rfl
  · exact .of_same rfl List.not_mem_nil

theorem loadEnd_call [ReadableVirtuals Own] (m : MessagesModel Own) (markAllAsRead : Bool) :
    CallFlags m (ReadableMessagesModel.loadEnd m markAllAsRead) fun _ => False := by
  rw [ReadableMessagesModel.loadEnd]
  split
  · exact .of_clear rfl
  · exact .of_same rfl List.not_mem_nil

theorem handleMessageSendSucceeded_call (m : MessagesModel Own) (chatId oldMessageId messageId : Int)
    (message : QVariantMap) :
    CallFlags m (m.handleMessageSendSucceeded chatId oldMessageId messageId message) fun _ => False :=
  .of_same (m.handleMessageSendSucceeded_sameMembers chatId oldMessageId messageId message).waitingFor
    (handleMessageSendSucceeded_requests m chatId oldMessageId messageId message).not_cleared

/-- What a slot does with a slice that is meant for the model. -/
theorem addressed_flags [LawfulVirtuals Own] (m : MessagesModel Own) {addressed : Prop} [Decidable addressed]
    (h : addressed) (fromUpdate : UpdateType) (messages : List QVariantMap) (totalCount : Int) :
    StepFlags m (if addressed then JumpableMessagesModel.handleMessagesReceived m fromUpdate messages totalCount
      else (m, [])) (fun t => t ≠ fromUpdate) (fun t => addressed ∧ RaisesReload m fromUpdate messages t)
      (WaitingVirtuals.CanLoad m.own) := by
  rw [if_pos h]
  exact (handleMessagesReceived_flags m fromUpdate messages totalCount).of_raised fun t => and_iff_right h

theorem addressed_call [LawfulVirtuals Own] (m : MessagesModel Own) {addressed : Prop} [Decidable addressed]
    (fromUpdate : UpdateType) (messages : List QVariantMap) (totalCount : Int) :
    CallFlags m (if addressed then JumpableMessagesModel.handleMessagesReceived m fromUpdate messages totalCount
      else (m, [])) fun t => addressed ∧ RaisesReload m fromUpdate messages t := by
  by_cases h : addressed
  · exact Or.inr ⟨_, addressed_flags m h fromUpdate messages totalCount⟩
  · simp only [h, false_and]
    exact .of_same rfl List.not_mem_nil

end Virtual

/-! ### Chats -/

namespace ChatMessagesModel

/-- A chat can always be asked for a slice. -/
theorem loadMessages_sends (m : ChatMessagesModel) (extra : UpdateType) (fromMessageId offset : Int) :
    ∃ r, .request r ∈ loadMessages m extra fromMessageId offset ∧ r.kind = some extra := by
  rw [loadMessages]
  split_ifs
  · exact ⟨_, List.mem_singleton_self _, rfl⟩
  · exact ⟨_, List.mem_singleton_self _, rfl⟩

instance : WaitingVirtuals ChatMembers where
  CanLoad _ := True
  appendMessages_waitingFor m newMessages := (appendMessages_sameMembers m newMessages).waitingFor
  prependMessages_waitingFor _ _ := rfl
  handlePrepare_waitingFor m totalCount fromUpdate := (handlePrepare_sameButSponsored m totalCount fromUpdate).waitingFor
  loadMessages_sends m extra fromMessageId offset := iff_true_intro (loadMessages_sends m extra fromMessageId offset)
  loadMoreHistoryImpl_sends m := iff_true_intro (loadMessages_sends m _ _ _)
  loadMoreFutureImpl_sends m := iff_true_intro (loadMessages_sends m _ _ _)

/-- The flags an event puts up. -/
def raises (m : ChatMessagesModel) : Event → UpdateType → Prop
  | .loadMoreHistory, t => RaisesHistory m t
  | .loadMoreFuture, t => RaisesFuture m t
  | .messagesReceived chatId extra messages _, t => m.chatId = chatId ∧ RaisesReload m extra messages t
  | .foundChatMessagesReceived chatId filter extra messages _, t =>
      (m.chatId = chatId ∧ filter = .empty) ∧ RaisesReload m extra messages t
  | _, _ => False

theorem call_flags (m : ChatMessagesModel) (e : Event) : CallFlags m (handle m e) (raises m e) := by
  cases e with
  | initialLoad fromMessageId => exact .of_same rfl (loadMessages_requests m _ _ _).not_cleared
  | loadMoreHistory => exact Or.inr ⟨_, loadMoreHistory_flags m⟩
  | loadMoreFuture => exact Or.inr ⟨_, loadMoreFuture_flags m⟩
  | loadHistoryForMessage messageId => exact loadHistoryForMessage_call m messageId
  | loadEnd markAllAsRead => exact loadEnd_call m markAllAsRead
  | setSearchQuery newSearchQuery =>
      rw [handle, setSearchQuery]
      split
      · exact .of_clear rfl
      · exact .of_same rfl List.not_mem_nil
  | clear => exact .of_clear rfl
  | handleInsertMessages messages => exact .of_same (handleInsertMessages_waitingFor m messages) List.not_mem_nil
  | messagesReceived chatId extra messages totalCount => exact addressed_call m extra messages totalCount
  | foundChatMessagesReceived chatId filter extra messages totalCount =>
      exact addressed_call m extra messages totalCount
  | newMessageReceived chatId message =>
      refine .of_same ?_ List.not_mem_nil
      rw [handle, handleNewMessageReceived]
      split_ifs
      · exact handleNewMessageReceived_waitingFor m message
      · rfl
  | messageSendSucceeded chatId oldMessageId messageId message =>
      exact handleMessageSendSucceeded_call m chatId oldMessageId messageId message
  | messagesDeleted chatId messageIds =>
      exact .of_same (handleMessagesDeleted_deletes m chatId messageIds).sameMembers.waitingFor List.not_mem_nil
  | sponsoredMessagesReceived chatId sponsoredMessages messagesBetween =>
      exact .of_same (handleSponsoredMessagesReceived_sameButSponsored m _ _ _).waitingFor List.not_mem_nil
  | chatInformationChanged chatInformation => exact .of_same rfl List.not_mem_nil

/-- The answer to a request is for the model: a search of another class has a filter. -/
def Addressed (m : ChatMessagesModel) : Request → Prop
  | .getChatHistory chatId .. => m.chatId = chatId
  | .searchChatMessages chatId _ _ _ filter _ _ => m.chatId = chatId ∧ filter = .empty
  | _ => False

instance (m : ChatMessagesModel) : ∀ r : Request, Decidable (Addressed m r) := by
  rintro (_ | _) <;> dsimp only [Addressed] <;> infer_instance

/-- The slots of a chat. -/
def listener : Listener ChatMembers Event where
  handle := handle
  answerTo := answerTo
  Addressed := Addressed
  raises := raises
  decidableAddressed := inferInstance
  call_flags := call_flags
  answer_flags m r a e hanswer haddressed := by
    cases r with
    | getChatHistory chatId extra fromMessageId offset =>
        obtain rfl := Option.some.inj hanswer
        exact ⟨extra, rfl, addressed_flags m haddressed extra a.messages a.totalCount⟩
    | searchChatMessages chatId query extra fromMessageId filter limit offset =>
        obtain rfl := Option.some.inj hanswer
        exact ⟨extra, rfl, addressed_flags m haddressed extra a.messages a.totalCount⟩
    | _ => exact haddressed.elim
  answer_ignored m r a e hanswer haddressed := by
    cases r with
    | getChatHistory chatId extra fromMessageId offset =>
        obtain rfl := Option.some.inj hanswer
        exact if_neg haddressed
    | searchChatMessages chatId query extra fromMessageId filter limit offset =>
        obtain rfl := Option.some.inj hanswer
        exact if_neg haddressed
    | _ => cases hanswer

end ChatMessagesModel

/-! ### Topics -/

namespace ForumTopicMessagesModel

/-- A topic is asked for a slice once its data are there, and not in a search. -/
theorem loadMessages_sends (m : ForumTopicMessagesModel) (extra : UpdateType) (fromMessageId offset : Int) :
    (∃ r, .request r ∈ loadMessages m extra fromMessageId offset ∧ r.kind = some extra) ↔
      m.own.forumTopic.isSome = true ∧ m.own.searchQuery = "" := by
  rw [loadMessages]
  cases m.own.forumTopic with
  | none =>
      refine iff_of_false ?_ fun h => Bool.false_ne_true h.1
      rintro ⟨_, hr, -⟩
      exact List.not_mem_nil hr
  | some topic =>
      dsimp only
      split_ifs with hquery
      · exact iff_of_true ⟨_, List.mem_singleton_self _, rfl⟩ ⟨rfl, hquery⟩
      · refine iff_of_false ?_ fun h => hquery h.2
        rintro ⟨_, hr, -⟩
        exact List.not_mem_nil hr

instance : WaitingVirtuals ForumTopicMembers where
  CanLoad own := own.forumTopic.isSome = true ∧ own.searchQuery = ""
  appendMessages_waitingFor _ _ := rfl
  prependMessages_waitingFor _ _ := rfl
  handlePrepare_waitingFor m totalCount fromUpdate := by
    obtain ⟨startReached, endReached, heq⟩ :=
      ReadableMessagesModel.handlePrepareMessagesReceived_eq m totalCount fromUpdate
    change (ReadableMessagesModel.handlePrepareMessagesReceived m totalCount fromUpdate).waitingFor = m.waitingFor
    rw [heq]
  loadMessages_sends := loadMessages_sends
  loadMoreHistoryImpl_sends m := loadMessages_sends m _ _ _
  loadMoreFutureImpl_sends m := loadMessages_sends m _ _ _

/-- The flags an event puts up. -/
def raises (m : ForumTopicMessagesModel) : Event → UpdateType → Prop
  | .loadMoreHistory, t => RaisesHistory m t
  | .loadMoreFuture, t => RaisesFuture m t
  | .forumTopicMessagesReceived chatId forumTopicId extra messages _, t =>
      isTopic m chatId forumTopicId = true ∧ RaisesReload m extra messages t
  | _, _ => False

theorem call_flags (m : ForumTopicMessagesModel) (e : Event) : CallFlags m (handle m e) (raises m e) := by
  cases e with
  | setForumTopicData data loadFromMessageId =>
      rw [handle, setForumTopicData]
      cases m.own.forumTopic with
      | some topic => exact .of_same rfl List.not_mem_nil
      | none =>
          dsimp only
          split
          · exact .of_same rfl List.not_mem_nil
          · exact .of_same rfl (loadMessages_requests
              { m with own := { m.own with forumTopic := some (ForumTopic.new data) } } .updateInitial _ _).not_cleared
  | loadMoreHistory => exact Or.inr ⟨_, loadMoreHistory_flags m⟩
  | loadMoreFuture => exact Or.inr ⟨_, loadMoreFuture_flags m⟩
  | loadHistoryForMessage messageId => exact loadHistoryForMessage_call m messageId
  | loadEnd markAllAsRead => exact loadEnd_call m markAllAsRead
  | setSearchQuery newSearchQuery =>
      rw [handle, setSearchQuery]
      split
      · exact .of_clear rfl
      · exact .of_same rfl List.not_mem_nil
  | clear => exact .of_clear rfl
  | handleInsertMessages messages => exact .of_same (handleInsertMessages_waitingFor m messages) List.not_mem_nil
  | forumTopicMessagesReceived chatId forumTopicId extra messages totalCount =>
      exact addressed_call m extra messages totalCount
  | newMessageReceived chatId message =>
      refine .of_same ?_ List.not_mem_nil
      rw [handle, handleNewMessageReceived]
      split_ifs
      · exact handleNewMessageReceived_waitingFor m message
      · rfl
  | messageSendSucceeded chatId oldMessageId messageId message =>
      exact handleMessageSendSucceeded_call m chatId oldMessageId messageId message
  | messagesDeleted chatId messageIds =>
      exact .of_same (handleMessagesDeleted_deletes m chatId messageIds).sameMembers.waitingFor List.not_mem_nil
  | forumTopicUpdated chatId forumTopicId update =>
      refine .of_same ?_ List.not_mem_nil
      rw [handle, handleForumTopicUpdated]
      split_ifs <;> rfl

def Addressed (m : ForumTopicMessagesModel) : Request → Prop
  | .getForumTopicHistory chatId forumTopicId .. => isTopic m chatId forumTopicId = true
  | _ => False

instance (m : ForumTopicMessagesModel) : ∀ r : Request, Decidable (Addressed m r) := by
  rintro (_ | _) <;> dsimp only [Addressed] <;> infer_instance

def listener : Listener ForumTopicMembers Event where
  handle := handle
  answerTo := answerTo
  Addressed := Addressed
  raises := raises
  decidableAddressed := inferInstance
  call_flags := call_flags
  answer_flags m r a e hanswer haddressed := by
    cases r with
    | getForumTopicHistory chatId forumTopicId extra fromMessageId offset =>
        obtain rfl := Option.some.inj hanswer
        exact ⟨extra, rfl, addressed_flags m haddressed extra a.messages a.totalCount⟩
    | _ => exact haddressed.elim
  answer_ignored m r a e hanswer haddressed := by
    cases r with
    | getForumTopicHistory chatId forumTopicId extra fromMessageId offset =>
        obtain rfl := Option.some.inj hanswer
        exact if_neg haddressed
    | _ => cases hanswer

end ForumTopicMessagesModel

/-! ### Media -/

namespace MediaMessagesModel

theorem updateTotalCount_waitingFor (m : MediaMessagesModel) (count : Int) :
    (updateTotalCount m count).waitingFor = m.waitingFor := by
  rw [updateTotalCount]
  split_ifs <;> rfl

instance : WaitingVirtuals MediaMembers where
  CanLoad _ := True
  appendMessages_waitingFor m newMessages := ((insertsAtEnds m).append_sameMembers newMessages).waitingFor
  prependMessages_waitingFor m newMessages := ((insertsAtEnds m).prepend_sameMembers newMessages).waitingFor
  handlePrepare_waitingFor m totalCount fromUpdate := by
    refine (JumpableMessagesModel.handlePrepare_waitingFor (updateTotalCount m totalCount) totalCount
      fromUpdate).trans ?_
    exact updateTotalCount_waitingFor m totalCount
  loadMessages_sends _ _ _ _ := iff_true_intro ⟨_, List.mem_singleton_self _, rfl⟩
  loadMoreHistoryImpl_sends _ := iff_true_intro ⟨_, List.mem_singleton_self _, rfl⟩
  loadMoreFutureImpl_sends _ := iff_true_intro ⟨_, List.mem_singleton_self _, rfl⟩

theorem removeMessage_waitingFor (m : MediaMessagesModel) (messageId : Int) :
    (removeMessage m messageId).waitingFor = m.waitingFor := by
  rw [removeMessage, ← (MessagesModel.removeMessage_sameMembers m messageId).waitingFor]
  dsimp only
  split_ifs <;> rfl

theorem insertMessageInOrder_waitingFor (m : MediaMessagesModel) (messageId : Int) (message : QVariantMap) :
    (insertMessageInOrder m messageId message).waitingFor = m.waitingFor := by
  have h : SameMembers m (JumpableMessagesModel.insertMessageInOrder m messageId message m.own.inverted) :=
    insertMessageInOrder_of (.refl m) ((insertsAtEnds m).append_sameMembers _) ((insertsAtEnds m).prepend_sameMembers _)
      (fun i => insertMessagesAt_sameMembers m i _) m.own.inverted
  rw [insertMessageInOrder, ← h.waitingFor]
  dsimp only
  split_ifs <;> rfl

theorem tryReload_call {m : MediaMessagesModel} {m₀ : MediaMessagesModel} (h : m₀.waitingFor = m.waitingFor) :
    CallFlags m (tryReload m₀) fun _ => False := by
  rw [tryReload]
  split
  · exact .of_clear rfl
  · exact .of_same h List.not_mem_nil

/-- The flags an event puts up. -/
def raises (m : MediaMessagesModel) : Event → UpdateType → Prop
  | .loadMoreHistory, t => RaisesHistory m t
  | .loadMoreFuture, t => RaisesFuture m t
  | .foundChatMessagesReceived chatId filter extra messages _ _, t =>
      (m.chatId = chatId ∧ filter = m.own.searchMessagesFilter) ∧ RaisesReload m extra messages t
  | _, _ => False

/-- The model that took a slice keeps the cursor and the count; its flags are those of the rows. -/
theorem handleMessagesReceived_waitingFor (m : MediaMessagesModel) (chatId : Int) (filter : SearchMessagesFilter)
    (extra : UpdateType) (messages : List QVariantMap) (totalCount nextFromMessageId : Int) :
    let result := if m.chatId = chatId ∧ filter = m.own.searchMessagesFilter then
      JumpableMessagesModel.handleMessagesReceived m extra messages totalCount else (m, [])
    (handleMessagesReceived m chatId filter extra messages totalCount nextFromMessageId).1.waitingFor =
        result.1.waitingFor ∧
      (handleMessagesReceived m chatId filter extra messages totalCount nextFromMessageId).2 = result.2 := by
  rw [handleMessagesReceived]
  dsimp only
  split_ifs
  · exact ⟨updateTotalCount_waitingFor _ _, rfl⟩
  · exact ⟨rfl, rfl⟩

theorem handleMessageContentUpdated_call (m : MediaMessagesModel) (chatId messageId : Int) (newContent : QVariantMap) :
    CallFlags m (handleMessageContentUpdated m chatId messageId newContent) fun _ => False := by
  have hfield := (handleMessageFieldUpdated_sameMembers m chatId messageId fun message =>
    message.setContent newContent).waitingFor
  rw [handleMessageContentUpdated]
  dsimp only
  split
  · split
    · split
      · exact .of_same hfield List.not_mem_nil
      · exact .of_same ((removeMessage_waitingFor _ _).trans hfield) List.not_mem_nil
    · split
      · exact .of_same hfield List.not_mem_nil
      · exact .of_same hfield (by simp)
  · exact .of_same hfield List.not_mem_nil

theorem handleMessageIsPinnedUpdated_call (m : MediaMessagesModel) (chatId messageId : Int) (isPinned : Bool) :
    CallFlags m (handleMessageIsPinnedUpdated m chatId messageId isPinned) fun _ => False := by
  rw [handleMessageIsPinnedUpdated]
  split
  · split
    · exact .of_same rfl List.not_mem_nil
    · split
      · refine .of_same rfl ?_
        dsimp only
        split_ifs <;> simp
      · exact .of_same (removeMessage_waitingFor m messageId) List.not_mem_nil
  · exact .of_same (handleMessageFieldUpdated_sameMembers m chatId messageId _).waitingFor List.not_mem_nil

theorem call_flags (m : MediaMessagesModel) (e : Event) : CallFlags m (handle m e) (raises m e) := by
  cases e with
  | setSearchMessagesFilter filter =>
      rw [handle, setSearchMessagesFilter]
      split
      · exact tryReload_call rfl
      · exact .of_same rfl List.not_mem_nil
  | setQuery value =>
      rw [handle, setQuery]
      split
      · exact tryReload_call rfl
      · exact .of_same rfl List.not_mem_nil
  | setMaintainCount value =>
      rw [handle, setMaintainCount]
      split
      · refine .of_same rfl ?_
        dsimp only
        split_ifs <;> simp
      · exact .of_same rfl List.not_mem_nil
  | init chatId fromMessageId checkCount force =>
      rw [handle, init]
      split
      · refine .of_same ?_ List.not_mem_nil
        dsimp only
        split_ifs <;> rfl
      · exact .of_clear rfl
  | loadMoreHistory => exact Or.inr ⟨_, loadMoreHistory_flags m⟩
  | loadMoreFuture => exact Or.inr ⟨_, loadMoreFuture_flags m⟩
  | loadHistoryForMessage messageId => exact loadHistoryForMessage_call m messageId
  | clear => exact .of_clear rfl
  | handleInsertMessages messages => exact .of_same (handleInsertMessages_waitingFor m messages) List.not_mem_nil
  | chatMessageCountReceived count chatId filter =>
      have hcount := updateTotalCount_waitingFor m count
      rw [handle, handleChatMessageCountReceived]
      split
      · dsimp only
        split
        · split
          · exact .of_same hcount List.not_mem_nil
          · exact .of_same hcount (by simp [loadMessages, loadMessagesWithLimit])
        · exact .of_same hcount List.not_mem_nil
      · exact .of_same rfl List.not_mem_nil
  | foundChatMessagesReceived chatId filter extra messages totalCount nextFromMessageId =>
      obtain ⟨hflags, houtputs⟩ := handleMessagesReceived_waitingFor m chatId filter extra messages totalCount
        nextFromMessageId
      exact (addressed_call m extra messages totalCount).of_result hflags houtputs
  | newMessageReceived chatId message =>
      refine .of_same ?_ List.not_mem_nil
      rw [handle, handleNewMessageReceived]
      dsimp only
      split_ifs
      · exact insertMessages_waitingFor m _
      · rfl
      · rfl
  | messageFetched messageId message =>
      refine .of_same ?_ List.not_mem_nil
      rw [handle]
      dsimp only
      split_ifs
      · exact insertMessageInOrder_waitingFor m messageId message
      · rfl
  | removeMessage messageId => exact .of_same (removeMessage_waitingFor m messageId) List.not_mem_nil
  | messageContentUpdated chatId messageId newContent =>
      exact handleMessageContentUpdated_call m chatId messageId newContent
  | messageIsPinnedUpdated chatId messageId isPinned =>
      exact handleMessageIsPinnedUpdated_call m chatId messageId isPinned
  | messagesDeleted chatId messageIds =>
      apply CallFlags.of_same
      · exact (deletes_handleMessagesDeleted m chatId messageIds).sameMembers.waitingFor
      · rw [handle, handleMessagesDeleted]
        dsimp only
        split_ifs <;> simp

/-- The answer to a request is for the model, as long as the chat and the filter are those of the request. -/
def Addressed (m : MediaMessagesModel) : Request → Prop
  | .searchChatMessages chatId _ _ _ filter _ _ => m.chatId = chatId ∧ filter = m.own.searchMessagesFilter
  | _ => False

instance (m : MediaMessagesModel) : ∀ r : Request, Decidable (Addressed m r) := by
  rintro (_ | _) <;> dsimp only [Addressed] <;> infer_instance

def listener : Listener MediaMembers Event where
  handle := handle
  answerTo := answerTo
  Addressed := Addressed
  raises := raises
  decidableAddressed := inferInstance
  call_flags := call_flags
  answer_flags m r a e hanswer haddressed := by
    cases r with
    | searchChatMessages chatId query extra fromMessageId filter limit offset =>
        obtain rfl := Option.some.inj hanswer
        obtain ⟨hflags, houtputs⟩ := handleMessagesReceived_waitingFor m chatId filter extra a.messages a.totalCount
          a.nextFromMessageId
        exact ⟨extra, rfl, (addressed_flags m haddressed extra a.messages a.totalCount).of_result hflags houtputs⟩
    | _ => exact haddressed.elim
  answer_ignored m r a e hanswer haddressed := by
    cases r with
    | searchChatMessages chatId query extra fromMessageId filter limit offset =>
        obtain rfl := Option.some.inj hanswer
        exact if_neg haddressed
    | _ => cases hanswer

end MediaMessagesModel

end YaqtLib
