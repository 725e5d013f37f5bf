import YaqtLib.MessageCopies
import YaqtLib.MessageRequests
import YaqtLib.ScrollPosition

/-! Jumps in a readable model. Every load that starts over runs `clear()`, which resets what an earlier jump has left
for the position; `loadEnd` sets its flag before that, so that the flag is gone when the position is computed. -/

namespace YaqtLib

open Runs MessagesModel JumpableMessagesModel

/-- What a jump leaves for the position, besides the rows. -/
structure Jump where
  loadingFullEnd : Bool
  highlightedMessageId : Int
  searchQuery : String

/-- What reaches a model of whose class the events are: an event, or an update of a message. -/
inductive ModelInput (ε : Type) where
  | event (e : ε)
  | messageUpdated (chatId messageId : Int) (setter : MessageData.Setter)

namespace MessagesModel

variable {Own ε : Type}

def jump [ScrollMembers Own] (m : MessagesModel Own) : Jump :=
  { loadingFullEnd := ScrollMembers.loadingFullEnd m.own
    highlightedMessageId := m.highlightedMessageId
    searchQuery := ScrollMembers.searchQuery m.own }

theorem SameMembers.jump_eq [ScrollMembers Own] {m m' : MessagesModel Own} (h : SameMembers m m') :
    m'.jump = m.jump := by
  rw [jump, jump, h.own, h.highlightedMessageId]

variable (handle : MessagesModel Own → ε → MessagesModel Own × List Output)

def handleInput (m : MessagesModel Own) : ModelInput ε → MessagesModel Own × List Output
  | .event e => handle m e
  | .messageUpdated chatId messageId setter => ((m.handleMessageUpdate chatId messageId setter).1, [])

def stepInput (m : MessagesModel Own) (i : ModelInput ε) : MessagesModel Own := (handleInput handle m i).1

/-- Nothing in the run clears the model. -/
def Uncleared (m : MessagesModel Own) (inputs : List (ModelInput ε)) : Prop :=
  Along (stepInput handle) (fun m i => .cleared ∉ (handleInput handle m i).2) m inputs

/-! ### The members that the rows do not touch -/

theorem handleMessageUpdate_sameMembers (m : MessagesModel Own) (chatId messageId : Int) (setter : MessageData.Setter) :
    SameMembers m (m.handleMessageUpdate chatId messageId setter).1 := by
  rw [handleMessageUpdate_eq]
  exact handleMessageFieldUpdated_sameMembers m chatId messageId _

end MessagesModel

/-- The overrides of a class leave what jumps leave alone, but for `clear()`, which resets it. -/
class JumpingVirtuals (Own : Type) [Virtuals Own] [ScrollMembers Own] : Prop where
  clearOwn : ∀ own : Own, ScrollMembers.loadingFullEnd (Virtuals.clearOwn own) = false ∧
    ScrollMembers.searchQuery (Virtuals.clearOwn own) = ""
  appendMessages : ∀ (m : MessagesModel Own) newMessages, SameMembers m (Virtuals.appendMessages m newMessages)
  prependMessages : ∀ (m : MessagesModel Own) newMessages, SameMembers m (Virtuals.prependMessages m newMessages)
  prepare : ∀ (m : MessagesModel Own) totalCount fromUpdate,
    (Virtuals.handlePrepareMessagesReceived m totalCount fromUpdate).1.jump = m.jump

/-- An event clears the model and leaves the jump it asks for, or it leaves the jump alone. -/
def Jumps {Own : Type} [ScrollMembers Own] (m : MessagesModel Own) (asked : Jump)
    (result : MessagesModel Own × List Output) : Prop :=
  .cleared ∈ result.2 ∧ result.1.jump = asked ∨ .cleared ∉ result.2 ∧ result.1.jump = m.jump

theorem Jumps.kept {Own : Type} [ScrollMembers Own] {m m' : MessagesModel Own} (asked : Jump) {outputs : List Output}
    (hjump : m'.jump = m.jump) (houtputs : .cleared ∉ outputs) : Jumps m asked (m', outputs) :=
  Or.inr ⟨houtputs, hjump⟩

/-- A request of `loadEnd` comes after its `clear()`. -/
theorem cleared_of_loadEnd_sends {Own : Type} [Virtuals Own] [ReadableVirtuals Own] {m : MessagesModel Own}
    {markAllAsRead : Bool} {r : Request} (h : .request r ∈ (ReadableMessagesModel.loadEnd m markAllAsRead).2) :
    .cleared ∈ (ReadableMessagesModel.loadEnd m markAllAsRead).2 := by
  generalize hresult : ReadableMessagesModel.loadEnd m markAllAsRead = result at h ⊢
  rw [ReadableMessagesModel.loadEnd] at hresult
  split at hresult
  · rw [← hresult]
    exact List.mem_cons_self
  · rw [← hresult] at h
    exact absurd h List.not_mem_nil

theorem handleMessagesReceived_not_cleared {Own : Type} [Virtuals Own] [RequestingVirtuals Own] [LawfulVirtuals Own]
    (m : MessagesModel Own) (fromUpdate : UpdateType) (messages : List QVariantMap) (totalCount : Int) :
    .cleared ∉ (handleMessagesReceived m fromUpdate messages totalCount).2 := by
  have hrestarts := (handleMessagesReceived_effects m fromUpdate messages totalCount).2.1
  rwa [restarts_effects] at hrestarts

section Virtual

variable {Own : Type} [Virtuals Own] [ScrollMembers Own]

theorem loadMoreHistory_jumps [RequestingVirtuals Own] (m : MessagesModel Own) (asked : Jump) :
    Jumps m asked (loadMoreHistory m) := by
  refine Or.inr ⟨(loadMoreHistory_requests m).2.not_cleared, ?_⟩
  rw [loadMoreHistory]
  split_ifs <;> rfl

theorem loadMoreFuture_jumps [RequestingVirtuals Own] (m : MessagesModel Own) (asked : Jump) :
    Jumps m asked (loadMoreFuture m) := by
  refine Or.inr ⟨(loadMoreFuture_requests m).2.not_cleared, ?_⟩
  rw [loadMoreFuture]
  split_ifs <;> rfl

theorem handleMessageSendSucceeded_jumps (m : MessagesModel Own) (asked : Jump)
    (chatId oldMessageId messageId : Int) (message : QVariantMap) :
    Jumps m asked (m.handleMessageSendSucceeded chatId oldMessageId messageId message) :=
  Or.inr ⟨(handleMessageSendSucceeded_requests m chatId oldMessageId messageId message).not_cleared,
    (handleMessageSendSucceeded_sameMembers m chatId oldMessageId messageId message).jump_eq⟩

variable [JumpingVirtuals Own]

theorem jump_clear (m : MessagesModel Own) : (JumpableMessagesModel.clear m).1.jump = ⟨false, 0, ""⟩ := by
  obtain ⟨hflag, hquery⟩ := JumpingVirtuals.clearOwn m.own
  rw [MessagesModel.jump, JumpableMessagesModel.clear]
  dsimp only
  rw [hflag, hquery]

theorem clear_jumps (m : MessagesModel Own) : Jumps m ⟨false, 0, ""⟩ (JumpableMessagesModel.clear m) :=
  Or.inl ⟨List.mem_singleton_self _, jump_clear m⟩

theorem loadHistoryForMessage_jumps (m : MessagesModel Own) (messageId : Int) :
    Jumps m ⟨false, messageId, ""⟩ (loadHistoryForMessage m messageId) := by
  rw [loadHistoryForMessage]
  split_ifs
  · refine Or.inl ⟨List.mem_cons_self, ?_⟩
    exact congrArg (fun asked : Jump => { asked with highlightedMessageId := messageId }) (jump_clear m)
  · exact .kept _ rfl List.not_mem_nil

/-- The flag for the full end is reset before the call returns. -/
theorem loadEnd_jumps [ReadableVirtuals Own] (m : MessagesModel Own) (markAllAsRead : Bool) :
    Jumps m ⟨false, 0, ""⟩ (ReadableMessagesModel.loadEnd m markAllAsRead) := by
  rw [ReadableMessagesModel.loadEnd]
  split
  · exact Or.inl ⟨List.mem_cons_self, jump_clear _⟩
  · exact .kept _ rfl List.not_mem_nil

theorem insertMessages_members (m : MessagesModel Own) (newMessages : List MessageData) :
    SameMembers m (m.insertMessages newMessages) :=
  insertMessages_of (JumpingVirtuals.appendMessages m newMessages) (JumpingVirtuals.prependMessages m newMessages)
    fun _ => .refl m

theorem jump_handleInsertMessages (m : MessagesModel Own) (messages : List QVariantMap) :
    (m.handleInsertMessages messages).1.jump = m.jump := by
  rw [(handleInsertMessages_same m messages).sameMembers.jump_eq]
  split_ifs
  · rfl
  · exact (insertMessages_members m _).jump_eq

theorem jump_notifyMessagesLoaded (m : MessagesModel Own) (fromUpdate : UpdateType) (totalCount : Int) :
    (notifyMessagesLoaded m fromUpdate totalCount).1.jump = m.jump :=
  JumpingVirtuals.prepare (m.setWaitingFor fromUpdate false) totalCount fromUpdate

theorem jump_handleMessagesReceived (m : MessagesModel Own) (fromUpdate : UpdateType) (messages : List QVariantMap)
    (totalCount : Int) : (handleMessagesReceived m fromUpdate messages totalCount).1.jump = m.jump := by
  rw [handleMessagesReceived]
  split_ifs
  · exact jump_notifyMessagesLoaded m _ _
  · have hinsert := jump_handleInsertMessages m messages
    exact afterInsertion_of (P := fun m' => m'.jump = m.jump) hinsert
      ((jump_notifyMessagesLoaded _ _ _).trans hinsert) _ _
  · rfl

theorem jump_handleNewMessageReceived [ReadableVirtuals Own] (m : MessagesModel Own) (message : QVariantMap) :
    (ReadableMessagesModel.handleNewMessageReceived m message).jump = m.jump := by
  rw [ReadableMessagesModel.handleNewMessageReceived]
  dsimp only
  split_ifs
  · rfl
  · rw [(setMessagesAlbum_same _ _).sameMembers.jump_eq]
    exact (insertMessages_members m _).jump_eq
  · rfl

theorem handleMessagesReceived_jumps [RequestingVirtuals Own] [LawfulVirtuals Own] (m : MessagesModel Own)
    (asked : Jump) (fromUpdate : UpdateType) (messages : List QVariantMap) (totalCount : Int) :
    Jumps m asked (handleMessagesReceived m fromUpdate messages totalCount) :=
  Or.inr ⟨handleMessagesReceived_not_cleared m fromUpdate messages totalCount,
    jump_handleMessagesReceived m fromUpdate messages totalCount⟩

end Virtual

/-! ### From one clear to the next -/

section Cleared

variable {Own ε : Type} [ScrollMembers Own] {handle : MessagesModel Own → ε → MessagesModel Own × List Output}
  {jumpOf : ε → Jump}

/-- The jump that an input asks for if it clears the model; an update of a message does not. -/
def ModelInput.asked (jumpOf : ε → Jump) : ModelInput ε → Jump
  | .event e => jumpOf e
  | .messageUpdated .. => ⟨false, 0, ""⟩

theorem handleInput_jumps (h : ∀ m e, Jumps m (jumpOf e) (handle m e)) (m : MessagesModel Own) (i : ModelInput ε) :
    Jumps m (i.asked jumpOf) (handleInput handle m i) := by
  cases i with
  | event e => exact h m e
  | messageUpdated chatId messageId setter =>
      exact .kept _ (handleMessageUpdate_sameMembers m chatId messageId setter).jump_eq List.not_mem_nil

/-- Until the model is cleared, the jump stays. -/
theorem jump_uncleared (h : ∀ m e, Jumps m (jumpOf e) (handle m e)) {m : MessagesModel Own}
    {inputs : List (ModelInput ε)} (hrun : Uncleared handle m inputs) :
    (run (stepInput handle) m inputs).jump = m.jump := by
  refine Along.invariant (I := fun m' => MessagesModel.jump m' = m.jump) (fun m' i hkept huncleared => ?_) rfl hrun
  rcases handleInput_jumps h m' i with ⟨hcleared, -⟩ | ⟨-, hjump⟩
  · exact absurd hcleared huncleared
  · exact hjump.trans hkept

/-- From an input that clears the model to the next one, the jump is the one that this input asked for. -/
theorem jump_run (h : ∀ m e, Jumps m (jumpOf e) (handle m e)) {m : MessagesModel Own} {i : ModelInput ε}
    (hcleared : .cleared ∈ (handleInput handle m i).2) {inputs : List (ModelInput ε)}
    (hrun : Uncleared handle (stepInput handle m i) inputs) :
    (run (stepInput handle) (stepInput handle m i) inputs).jump = i.asked jumpOf := by
  rw [jump_uncleared h hrun]
  rcases handleInput_jumps h m i with ⟨-, hjump⟩ | ⟨huncleared, -⟩
  · exact hjump
  · exact absurd hcleared huncleared

variable [ReadableVirtuals Own]

/-- Two models that show the same rows, with the same of them read. -/
structure ShowsSame (m m' : MessagesModel Own) : Prop where
  messages : m.messages = m'.messages
  messageIndexMap : m.messageIndexMap = m'.messageIndexMap
  lastReadInboxMessageId : ReadableVirtuals.lastReadInboxMessageId m = ReadableVirtuals.lastReadInboxMessageId m'

/-- Besides the rows the position depends on the jump only. -/
theorem ShowsSame.calculate_eq {m m' : MessagesModel Own} (h : ShowsSame m m') (hjump : m.jump = m'.jump)
    (myUserId : Int) : ReadableMessagesModel.calculateUnlessInSearch m myUserId =
      ReadableMessagesModel.calculateUnlessInSearch m' myUserId := by
  rw [MessagesModel.jump, MessagesModel.jump, Jump.mk.injEq] at hjump
  obtain ⟨hflag, hhighlighted, hquery⟩ := hjump
  have hindex : m.getMessageIndex = m'.getMessageIndex := by
    funext messageId
    rw [getMessageIndex, getMessageIndex, h.messageIndexMap]
  have hown : m.findLastSentMessageIndex myUserId = m'.findLastSentMessageIndex myUserId := by
    rw [findLastSentMessageIndex, findLastSentMessageIndex, h.messages]
  rw [ReadableMessagesModel.calculateUnlessInSearch, ReadableMessagesModel.calculateUnlessInSearch,
    ReadableMessagesModel.calculateScrollPosition, ReadableMessagesModel.calculateScrollPosition, hflag, hhighlighted,
    hquery, h.messages, h.lastReadInboxMessageId, hindex, hown]

/-- After an input that clears the model, what happened before it has no part in the position. -/
def ForgetsPast (handle : MessagesModel Own → ε → MessagesModel Own × List Output) (myUserId : Int) : Prop :=
  ∀ (m m' : MessagesModel Own) (i : ModelInput ε) (inputs inputs' : List (ModelInput ε)),
    .cleared ∈ (handleInput handle m i).2 → Uncleared handle (stepInput handle m i) inputs →
    .cleared ∈ (handleInput handle m' i).2 → Uncleared handle (stepInput handle m' i) inputs' →
    ShowsSame (run (stepInput handle) (stepInput handle m i) inputs)
      (run (stepInput handle) (stepInput handle m' i) inputs') →
    ReadableMessagesModel.calculateUnlessInSearch (run (stepInput handle) (stepInput handle m i) inputs) myUserId =
      ReadableMessagesModel.calculateUnlessInSearch (run (stepInput handle) (stepInput handle m' i) inputs') myUserId

theorem forgetsPast (h : ∀ m e, Jumps m (jumpOf e) (handle m e)) (myUserId : Int) : ForgetsPast handle myUserId := by
  intro m m' i inputs inputs' hcleared hrun hcleared' hrun' hshows
  refine hshows.calculate_eq ?_ myUserId
  rw [jump_run h hcleared hrun, jump_run h hcleared' hrun']

/-- After a call that asks for no message and no search. -/
theorem calculateUnlessInSearch_eq_last_iff {m : MessagesModel Own} (hjump : m.jump = ⟨false, 0, ""⟩) (myUserId : Int) :
    ReadableMessagesModel.calculateUnlessInSearch m myUserId = m.messages.length - 1 ↔
      ReadableMessagesModel.LandsAtEnd m myUserId := by
  rw [MessagesModel.jump, Jump.mk.injEq] at hjump
  obtain ⟨hflag, hhighlighted, hquery⟩ := hjump
  rw [ReadableMessagesModel.calculateUnlessInSearch, hquery, if_neg (not_not_intro rfl)]
  exact ReadableMessagesModel.calculateScrollPosition_eq_last_iff hflag hhighlighted myUserId

end Cleared

/-! ### Chats -/

namespace ChatMessagesModel

theorem SameButSponsored.jump_eq {m m' : ChatMessagesModel} (h : SameButSponsored m m') : m'.jump = m.jump := by
  rw [MessagesModel.jump, MessagesModel.jump, Jump.mk.injEq]
  exact ⟨h.loadingFullEnd, h.highlightedMessageId, h.searchQuery⟩

instance : JumpingVirtuals ChatMembers where
  clearOwn _ := ⟨rfl, rfl⟩
  appendMessages := appendMessages_sameMembers
  prependMessages m _ := .rows m _ _
  prepare m totalCount fromUpdate := (handlePrepare_sameButSponsored m totalCount fromUpdate).jump_eq

/-- The jump that an event is for. -/
def Event.asked : Event → Jump
  | .loadHistoryForMessage messageId => ⟨false, messageId, ""⟩
  | .setSearchQuery newSearchQuery => ⟨false, 0, newSearchQuery⟩
  | _ => ⟨false, 0, ""⟩

theorem handle_jumps (m : ChatMessagesModel) (e : Event) : Jumps m e.asked (handle m e) := by
  cases e with
  | initialLoad fromMessageId => exact .kept _ rfl (loadMessages_requests m _ _ _).not_cleared
  | loadMoreHistory => exact loadMoreHistory_jumps m _
  | loadMoreFuture => exact loadMoreFuture_jumps m _
  | loadHistoryForMessage messageId => exact loadHistoryForMessage_jumps m messageId
  | loadEnd markAllAsRead => exact loadEnd_jumps m markAllAsRead
  | setSearchQuery newSearchQuery =>
      rw [handle, setSearchQuery]
      split
      · exact Or.inl ⟨List.mem_cons_self, rfl⟩
      · exact .kept _ rfl List.not_mem_nil
  | clear => exact clear_jumps m
  | handleInsertMessages messages => exact .kept _ (jump_handleInsertMessages m messages) List.not_mem_nil
  | messagesReceived chatId extra messages totalCount =>
      rw [handle, handleMessagesReceived]
      split_ifs
      · exact handleMessagesReceived_jumps m _ extra messages totalCount
      · exact .kept _ rfl List.not_mem_nil
  | foundChatMessagesReceived chatId filter extra messages totalCount =>
      rw [handle, handleFoundChatMessagesReceived]
      split_ifs
      · exact handleMessagesReceived_jumps m _ extra messages totalCount
      · exact .kept _ rfl List.not_mem_nil
  | newMessageReceived chatId message =>
      refine .kept _ ?_ List.not_mem_nil
      rw [handleNewMessageReceived]
      split_ifs
      · exact jump_handleNewMessageReceived m message
      · rfl
  | messageSendSucceeded chatId oldMessageId messageId message =>
      exact handleMessageSendSucceeded_jumps m _ chatId oldMessageId messageId message
  | messagesDeleted chatId messageIds =>
      exact .kept _ (handleMessagesDeleted_deletes m chatId messageIds).sameMembers.jump_eq List.not_mem_nil
  | sponsoredMessagesReceived chatId sponsoredMessages messagesBetween =>
      exact .kept _ (handleSponsoredMessagesReceived_sameButSponsored m _ _ _).jump_eq List.not_mem_nil
  | chatInformationChanged chatInformation => exact .kept _ rfl List.not_mem_nil

/-- An answer clears nothing. -/
theorem messagesReceived_not_cleared (m : ChatMessagesModel) (chatId : Int) (extra : UpdateType)
    (messages : List QVariantMap) (totalCount : Int) :
    .cleared ∉ (handle m (.messagesReceived chatId extra messages totalCount)).2 := by
  rw [handle, handleMessagesReceived]
  split_ifs
  · exact handleMessagesReceived_not_cleared m _ messages totalCount
  · exact List.not_mem_nil

end ChatMessagesModel

/-! ### Forum topics -/

namespace ForumTopicMessagesModel

instance : JumpingVirtuals ForumTopicMembers where
  clearOwn _ := ⟨rfl, rfl⟩
  appendMessages m _ := .rows m _ _
  prependMessages m _ := .rows m _ _
  prepare m totalCount fromUpdate := by
    obtain ⟨startReached, endReached, heq⟩ :=
      ReadableMessagesModel.handlePrepareMessagesReceived_eq m totalCount fromUpdate
    change (ReadableMessagesModel.handlePrepareMessagesReceived m totalCount fromUpdate).jump = m.jump
    rw [heq]
    rfl

/-- The jump that an event is for. -/
def Event.asked : Event → Jump
  | .loadHistoryForMessage messageId => ⟨false, messageId, ""⟩
  | .setSearchQuery newSearchQuery => ⟨false, 0, newSearchQuery⟩
  | _ => ⟨false, 0, ""⟩

theorem handle_jumps (m : ForumTopicMessagesModel) (e : Event) : Jumps m e.asked (handle m e) := by
  cases e with
  | setForumTopicData data loadFromMessageId =>
      rw [handle, setForumTopicData]
      cases htopic : m.own.forumTopic with
      | some topic => exact .kept _ rfl List.not_mem_nil
      | none =>
          dsimp only
          split
          · exact .kept _ rfl List.not_mem_nil
          · exact .kept _ rfl (loadMessages_requests _ _ _ _).not_cleared
  | loadMoreHistory => exact loadMoreHistory_jumps m _
  | loadMoreFuture => exact loadMoreFuture_jumps m _
  | loadHistoryForMessage messageId => exact loadHistoryForMessage_jumps m messageId
  | loadEnd markAllAsRead => exact loadEnd_jumps m markAllAsRead
  | setSearchQuery newSearchQuery =>
      rw [handle, setSearchQuery]
      split
      · exact Or.inl ⟨List.mem_cons_self, rfl⟩
      · exact .kept _ rfl List.not_mem_nil
  | clear => exact clear_jumps m
  | handleInsertMessages messages => exact .kept _ (jump_handleInsertMessages m messages) List.not_mem_nil
  | forumTopicMessagesReceived chatId forumTopicId extra messages totalCount =>
      rw [handle, handleForumTopicMessagesReceived]
      split_ifs
      · exact handleMessagesReceived_jumps m _ extra messages totalCount
      · exact .kept _ rfl List.not_mem_nil
  | newMessageReceived chatId message =>
      refine .kept _ ?_ List.not_mem_nil
      rw [handleNewMessageReceived]
      split_ifs
      · exact jump_handleNewMessageReceived m message
      · rfl
  | messageSendSucceeded chatId oldMessageId messageId message =>
      exact handleMessageSendSucceeded_jumps m _ chatId oldMessageId messageId message
  | messagesDeleted chatId messageIds =>
      exact .kept _ (handleMessagesDeleted_deletes m chatId messageIds).sameMembers.jump_eq List.not_mem_nil
  | forumTopicUpdated chatId forumTopicId update =>
      refine .kept _ ?_ List.not_mem_nil
      rw [handleForumTopicUpdated]
      split_ifs <;> rfl

end ForumTopicMessagesModel

/-! ### The end of a jump to the end -/

/-- **A jump to the end.** From the request of a `loadEnd(true)` to the next `clear()`, the position is the last row
exactly if the last message that was read, or one of one's own, is among the last two rows. And the position after a
`clear()` does not depend on what came before it. -/
theorem loadEnd_landsAtEnd_iff (myUserId : Int) :
    (∀ (m : ChatMessagesModel) (r : Request) (inputs : List (ModelInput ChatMessagesModel.Event)),
      .request r ∈ (ChatMessagesModel.handle m (.loadEnd true)).2 →
      Uncleared ChatMessagesModel.handle (ChatMessagesModel.step m (.loadEnd true)) inputs →
      let m' := run (stepInput ChatMessagesModel.handle) (ChatMessagesModel.step m (.loadEnd true)) inputs
      (ChatMessagesModel.calculateScrollPosition m' myUserId = m'.messages.length - 1 ↔
        ReadableMessagesModel.LandsAtEnd m' myUserId)) ∧
    (∀ (m : ForumTopicMessagesModel) (r : Request) (inputs : List (ModelInput ForumTopicMessagesModel.Event)),
      .request r ∈ (ForumTopicMessagesModel.handle m (.loadEnd true)).2 →
      Uncleared ForumTopicMessagesModel.handle (ForumTopicMessagesModel.step m (.loadEnd true)) inputs →
      let m' := run (stepInput ForumTopicMessagesModel.handle) (ForumTopicMessagesModel.step m (.loadEnd true)) inputs
      (ForumTopicMessagesModel.calculateScrollPosition m' myUserId = m'.messages.length - 1 ↔
        ReadableMessagesModel.LandsAtEnd m' myUserId)) ∧
    ForgetsPast ChatMessagesModel.handle myUserId ∧ ForgetsPast ForumTopicMessagesModel.handle myUserId := by
  refine ⟨?_, ?_, forgetsPast ChatMessagesModel.handle_jumps myUserId,
    forgetsPast ForumTopicMessagesModel.handle_jumps myUserId⟩
  · intro m r inputs hsent hrun m'
    refine calculateUnlessInSearch_eq_last_iff ?_ myUserId
    exact jump_run (i := .event (.loadEnd true)) ChatMessagesModel.handle_jumps (cleared_of_loadEnd_sends hsent) hrun
  · intro m r inputs hsent hrun m'
    refine calculateUnlessInSearch_eq_last_iff ?_ myUserId
    exact jump_run (i := .event (.loadEnd true)) ForumTopicMessagesModel.handle_jumps
      (cleared_of_loadEnd_sends hsent) hrun

theorem loadEnd_landsAtEnd_read :
    let chatInformation : QVariantMap := [(TdConst.LAST_READ_INBOX_MESSAGE_ID, .longLong 14)]
    let m := run ChatMessagesModel.step (ChatMessagesModel.new 1 chatInformation)
      [.messagesReceived 1 .updateInitial ([1, 2, 3, 4, 5].map (messageOf 1)) 5]
    let m' := run (stepInput ChatMessagesModel.handle) (ChatMessagesModel.step m (.loadEnd true))
      [.event (.messagesReceived 1 .updateInitial ([11, 12, 13, 14, 15].map (messageOf 1)) 5)]
    m'.ids = [11, 12, 13, 14, 15] ∧ ChatMessagesModel.calculateScrollPosition m' 7 = m'.messages.length - 1 := by
  refine ⟨by decide, ((loadEnd_landsAtEnd_iff 7).1 _ (.getChatHistory 1 .updateInitial 0 (-1)) _ ?_ ?_).mpr ?_⟩
  · exact List.mem_cons_of_mem _ List.mem_cons_self
  · exact ⟨ChatMessagesModel.messagesReceived_not_cleared _ _ _ _ _, trivial⟩
  · exact Or.inr ⟨3, by decide, by decide, Or.inl rfl⟩

/-- Five rows behind the last message that was read: the position is the first of them. -/
theorem loadEnd_misses_end :
    let chatInformation : QVariantMap := [(TdConst.LAST_READ_INBOX_MESSAGE_ID, .longLong 5)]
    let m := run ChatMessagesModel.step (ChatMessagesModel.new 1 chatInformation)
      [.messagesReceived 1 .updateInitial ([1, 2, 3, 4, 5].map (messageOf 1)) 5]
    let m' := run ChatMessagesModel.step m
      [.loadEnd true, .messagesReceived 1 .updateInitial ([11, 12, 13, 14, 15].map (messageOf 1)) 5]
    (ChatMessagesModel.handle m (.loadEnd true)).2 =
        [.cleared, .request (.getChatHistory 1 .updateInitial 0 (-1))] ∧
      m'.ids = [11, 12, 13, 14, 15] ∧ ChatMessagesModel.calculateScrollPosition m' 7 ≠ m'.messages.length - 1 := by
  refine ⟨rfl, ?_, ?_⟩
  · decide
  · decide

end YaqtLib
