import YaqtLib.MessageRequests

/-! Batches that have been overtaken. An answer is taken whenever its kind is waited for or no rows are
loaded, so the answer to a request from before a `clear()`, or for another query, can come in. -/

namespace YaqtLib

open Runs Requests JumpableMessagesModel

/-! ### Chats -/

namespace ChatMessagesModel

/-- The events by which batches come in. -/
def Event.bringsSlice : Event → Bool
  | .messagesReceived .. | .foundChatMessagesReceived .. | .handleInsertMessages .. => true
  | _ => false

/-- The signal that answers a request. -/
def answerTo (r : Request) (a : Slice) : Option Event :=
  match r with
  | .getChatHistory chatId extra _ _ => some (.messagesReceived chatId extra a.messages a.totalCount)
  | .searchChatMessages chatId _ extra _ filter _ _ =>
      some (.foundChatMessagesReceived chatId filter extra a.messages a.totalCount)
  | _ => none

abbrev client : Client ChatMessagesModel { e : Event // e.bringsSlice = false } Request Slice (List MessageData) :=
  sliceClient handle Event.bringsSlice answerTo

/-- The model takes rows from the answer. -/
def Accepts (m : ChatMessagesModel) (r : Request) (a : Slice) : Prop :=
  match r with
  | .getChatHistory chatId extra _ _ => m.chatId = chatId ∧ TakesBatch m extra a.messages
  | .searchChatMessages chatId _ extra _ filter _ _ =>
      (m.chatId = chatId ∧ filter = .empty) ∧ TakesBatch m extra a.messages
  | _ => False

instance (m : ChatMessagesModel) (r : Request) (a : Slice) : Decidable (Accepts m r a) := by
  revert r
  rintro (_ | _) <;> dsimp only [Accepts] <;> infer_instance

/-- A request for a slice asks for what the model shows. -/
def AsksFor (m : ChatMessagesModel) (r : Request) : Prop := r.slice = none ∨ r.query = queryOf m

theorem call_spec (m : ChatMessagesModel) (e : Event) (he : e.bringsSlice = false) :
    Issues (AsksFor (handle m e).1) (handle m e).2 ∧
      (.cleared ∈ (handle m e).2 ∨ queryOf (handle m e).1 = queryOf m) := by
  cases e with
  | initialLoad fromMessageId =>
      exact ⟨.requests ((loadMessages_requests m _ _ _).mono fun r hr => Or.inr hr.2), Or.inr rfl⟩
  | loadMoreHistory =>
      obtain ⟨hquery, hrequests⟩ := loadMoreHistory_requests m
      exact ⟨.requests (hrequests.mono fun r hr => Or.inr (hr.trans hquery.symm)), Or.inr hquery⟩
  | loadMoreFuture =>
      obtain ⟨hquery, hrequests⟩ := loadMoreFuture_requests m
      exact ⟨.requests (hrequests.mono fun r hr => Or.inr (hr.trans hquery.symm)), Or.inr hquery⟩
  | loadHistoryForMessage messageId =>
      rw [handle]
      rcases loadHistoryForMessage_requests m messageId with heq | ⟨requests, heq, hrequests⟩
      · rw [heq]
        exact ⟨.requests (.nil _), Or.inr rfl⟩
      · rw [heq]
        exact ⟨.restart (hrequests.mono fun r hr => Or.inr hr), Or.inl (List.mem_cons_self ..)⟩
  | loadEnd markAllAsRead =>
      rw [handle, ReadableMessagesModel.loadEnd]
      split
      · exact ⟨.restart ((loadMessages_requests _ _ _ _).mono fun r hr => Or.inr hr.2),
          Or.inl (List.mem_cons_self ..)⟩
      · exact ⟨.requests (.nil _), Or.inr rfl⟩
  | setSearchQuery newSearchQuery =>
      rw [handle, setSearchQuery]
      split
      · exact ⟨.restart ((loadMessages_requests _ _ _ _).mono fun r hr => Or.inr hr.2),
          Or.inl (List.mem_cons_self ..)⟩
      · exact ⟨.requests (.nil _), Or.inr rfl⟩
  | clear => exact ⟨.restart (.nil _), Or.inl (List.mem_cons_self ..)⟩
  | handleInsertMessages messages => exact absurd he (by simp [Event.bringsSlice])
  | messagesReceived chatId extra messages totalCount => exact absurd he (by simp [Event.bringsSlice])
  | foundChatMessagesReceived chatId filter extra messages totalCount =>
      exact absurd he (by simp [Event.bringsSlice])
  | newMessageReceived chatId message =>
      refine ⟨.requests (.nil _), Or.inr ?_⟩
      rw [handle, handleNewMessageReceived]
      split_ifs
      · exact congrArg ChatMembers.searchQuery (handleNewMessageReceived_own m message)
      · rfl
  | messageSendSucceeded chatId oldMessageId messageId message =>
      refine ⟨.requests ((handleMessageSendSucceeded_requests m _ _ _ _).mono fun r hr => Or.inl hr), Or.inr ?_⟩
      exact congrArg ChatMembers.searchQuery (MessagesModel.handleMessageSendSucceeded_sameMembers m _ _ _ _).own
  | messagesDeleted chatId messageIds =>
      refine ⟨.requests (.nil _), Or.inr ?_⟩
      exact congrArg ChatMembers.searchQuery (MessagesModel.handleMessagesDeleted_deletes m _ _).sameMembers.own
  | sponsoredMessagesReceived chatId sponsoredMessages messagesBetween =>
      exact ⟨.requests (.nil _), Or.inr (handleSponsoredMessagesReceived_sameButSponsored m _ _ _).searchQuery⟩
  | chatInformationChanged chatInformation => exact ⟨.requests (.nil _), Or.inr rfl⟩

/-- An answer brings a batch exactly if the model accepts it, and leaves the query as it is. -/
theorem answer_spec (m : ChatMessagesModel) (r : Request) (a : Slice) :
    queryOf (client.answer m r a).1 = queryOf m ∧
      (∀ r', .send r' ∈ (client.answer m r a).2 → r'.query = queryOf m) ∧
      (Takes (client.answer m r a).2 ↔ Accepts m r a) := by
  have hnone : queryOf m = queryOf m ∧ (∀ r', .send r' ∈ effects [] → r'.query = queryOf m) ∧
      (Takes (effects []) ↔ False) :=
    ⟨rfl, fun r' hr' => absurd (mem_effects_send.mp hr').1 List.not_mem_nil,
      iff_false_intro fun h => by simpa using takes_effects.mp h⟩
  have hsome : ∀ extra, queryOf (JumpableMessagesModel.handleMessagesReceived m extra a.messages a.totalCount).1 =
        queryOf m ∧
      (∀ r', .send r' ∈
        effects (JumpableMessagesModel.handleMessagesReceived m extra a.messages a.totalCount).2 →
          r'.query = queryOf m) ∧
      (Takes (effects (JumpableMessagesModel.handleMessagesReceived m extra a.messages a.totalCount).2) ↔
        TakesBatch m extra a.messages) := by
    intro extra
    obtain ⟨hsent, -, htakes⟩ := handleMessagesReceived_effects m extra a.messages a.totalCount
    refine ⟨(handleMessagesReceived_spec m extra a.messages a.totalCount).1, fun r' hr' => ?_, htakes⟩
    rcases hsent r' hr' with hnone | hfollows
    · exact absurd (mem_effects_send.mp hr').2 (by rw [hnone]; exact Bool.false_ne_true)
    · exact hfollows.1
  cases r with
  | getChatHistory chatId extra fromMessageId offset =>
      change queryOf (handleMessagesReceived m chatId extra a.messages a.totalCount).1 = _ ∧
        (∀ r', _ ∈ effects (handleMessagesReceived m chatId extra a.messages a.totalCount).2 → _) ∧
        (Takes (effects (handleMessagesReceived m chatId extra a.messages a.totalCount).2) ↔
          m.chatId = chatId ∧ TakesBatch m extra a.messages)
      rw [handleMessagesReceived]
      split_ifs with hchat
      · simpa only [hchat, true_and] using hsome extra
      · simpa only [hchat, false_and] using hnone
  | searchChatMessages chatId query extra fromMessageId filter limit offset =>
      change queryOf (handleFoundChatMessagesReceived m chatId filter extra a.messages a.totalCount).1 = _ ∧
        (∀ r', _ ∈ effects (handleFoundChatMessagesReceived m chatId filter extra a.messages a.totalCount).2 → _) ∧
        (Takes (effects (handleFoundChatMessagesReceived m chatId filter extra a.messages a.totalCount).2) ↔
          (m.chatId = chatId ∧ filter = .empty) ∧ TakesBatch m extra a.messages)
      rw [handleFoundChatMessagesReceived]
      split_ifs with hchat
      · simpa only [hchat, and_self, true_and] using hsome extra
      · simpa only [hchat, false_and] using hnone
  | getForumTopicHistory chatId forumTopicId extra fromMessageId offset => exact hnone
  | getChatMessageCount chatId filter => exact hnone
  | getChatSponsoredMessages chatId => exact hnone
  | getMessage chatId messageId => exact hnone
  | viewMessage chatId messageId => exact hnone

/-- The pending requests that no `clear()` has overtaken ask for the query the model shows. -/
theorem keeps_query : client.Keeps fun m r => r.query = queryOf m where
  call m e := by
    apply (call_spec m e.1 e.2).2.imp
    · exact restarts_effects.mpr
    · intro hquery r hr
      exact hr.trans hquery.symm
  call_sent m e r hr := by
    obtain ⟨hrequest, hslice⟩ := mem_effects_send.mp hr
    rcases (call_spec m e.1 e.2).1.request hrequest with hnone | hquery
    · exact absurd hslice (by rw [hnone]; exact Bool.false_ne_true)
    · exact hquery
  answer m r a := Or.inr fun r' hr' => hr'.trans (answer_spec m r a).1.symm
  answer_sent m r a r' hr' := ((answer_spec m r a).2.1 r' hr').trans (answer_spec m r a).1.symm

/-- A batch that comes in answers a request sent after the last `clear()`, for the query of the moment. -/
def BatchFresh : Exchange ChatMessagesModel Request → Move { e : Event // e.bringsSlice = false } Slice → Prop :=
  client.Fresh fun m r => r.query = m.own.searchQuery

/-- No answer to a request from before the last `clear()` is accepted. -/
def NoneOvertaken : Exchange ChatMessagesModel Request →
    Move { e : Event // e.bringsSlice = false } Slice → Prop :=
  Client.Guarded Accepts fun x t => t.generation ≠ x.generation

instance (x : Exchange ChatMessagesModel Request) (move : Move { e : Event // e.bringsSlice = false } Slice) :
    Decidable (NoneOvertaken x move) :=
  inferInstanceAs (Decidable (Client.Guarded ..))

theorem batchFresh_iff {x : Exchange ChatMessagesModel Request} (hx : x.Current fun r => r.query = queryOf x.client)
    (move : Move { e : Event // e.bringsSlice = false } Slice) : BatchFresh x move ↔ NoneOvertaken x move := by
  apply Client.fresh_iff
  · intro m e
    exact (call_spec m e.1 e.2).1.not_takes
  · intro m r a
    exact (answer_spec m r a).2.2
  · intro t ht a _
    rw [not_not]
    exact ⟨fun hgeneration => ⟨hgeneration, hx t ht hgeneration⟩, And.left⟩

theorem along_batchFresh_iff (chatId : Int) (chatInformation : QVariantMap)
    (moves : List (Move { e : Event // e.bringsSlice = false } Slice)) :
    Along client.step BatchFresh (.start (new chatId chatInformation)) moves ↔
      Along client.step NoneOvertaken (.start (new chatId chatInformation)) moves := by
  apply Along.congr (J := fun x => x.Bounded ∧ x.Current fun r => r.query = queryOf x.client)
  · intro x move hx
    exact ⟨Client.bounded_step hx.1 move, keeps_query.current_step hx.1 hx.2 move⟩
  · intro x move hx
    exact batchFresh_iff hx.2 move
  · exact ⟨fun t ht => absurd ht List.not_mem_nil, fun t ht => absurd ht List.not_mem_nil⟩

end ChatMessagesModel

/-! ### Media -/

namespace MediaMessagesModel

def Event.bringsSlice : Event → Bool
  | .foundChatMessagesReceived .. | .handleInsertMessages .. => true
  | _ => false

def answerTo (r : Request) (a : Slice) : Option Event :=
  match r with
  | .searchChatMessages chatId _ extra _ filter _ _ =>
      some (.foundChatMessagesReceived chatId filter extra a.messages a.totalCount a.nextFromMessageId)
  | _ => none

abbrev client : Client MediaMessagesModel { e : Event // e.bringsSlice = false } Request Slice (List MessageData) :=
  sliceClient handle Event.bringsSlice answerTo

/-- The model takes rows from the answer. -/
def Accepts (m : MediaMessagesModel) (r : Request) (a : Slice) : Prop :=
  match r with
  | .searchChatMessages chatId _ extra _ filter _ _ =>
      (m.chatId = chatId ∧ filter = m.own.searchMessagesFilter) ∧ TakesBatch m extra a.messages
  | _ => False

instance (m : MediaMessagesModel) (r : Request) (a : Slice) : Decidable (Accepts m r a) := by
  revert r
  rintro (_ | _) <;> dsimp only [Accepts] <;> infer_instance

theorem tryReload_issues (m : MediaMessagesModel) : Issues (fun _ => True) (tryReload m).2 := by
  rw [tryReload]
  split
  · exact .restart (.singleton trivial)
  · exact .requests (.nil _)

theorem call_issues (m : MediaMessagesModel) (e : Event) (he : e.bringsSlice = false) :
    Issues (fun _ => True) (handle m e).2 := by
  cases e with
  | setSearchMessagesFilter filter =>
      rw [handle, setSearchMessagesFilter]
      split
      · exact tryReload_issues _
      · exact .requests (.nil _)
  | setQuery value =>
      rw [handle, setQuery]
      split
      · exact tryReload_issues _
      · exact .requests (.nil _)
  | setMaintainCount value =>
      rw [handle, setMaintainCount]
      split
      · dsimp only
        split
        · exact .requests (.singleton trivial)
        · exact .requests (.nil _)
      · exact .requests (.nil _)
  | init chatId fromMessageId checkCount force =>
      rw [handle, init]
      split
      · exact .requests (.nil _)
      · dsimp only
        split
        · exact .restart (.singleton trivial)
        · exact .restart (.singleton trivial)
  | loadMoreHistory => exact .requests ((loadMoreHistory_requests m).2.mono fun _ _ => trivial)
  | loadMoreFuture => exact .requests ((loadMoreFuture_requests m).2.mono fun _ _ => trivial)
  | loadHistoryForMessage messageId =>
      rw [handle]
      rcases loadHistoryForMessage_requests m messageId with heq | ⟨requests, heq, hrequests⟩
      · rw [heq]
        exact .requests (.nil _)
      · rw [heq]
        exact .restart (hrequests.mono fun _ _ => trivial)
  | clear => exact .restart (.nil _)
  | handleInsertMessages messages => exact absurd he (by simp [Event.bringsSlice])
  | chatMessageCountReceived count chatId filter =>
      rw [handle, handleChatMessageCountReceived]
      split
      · dsimp only
        split
        · split
          · exact .requests (.nil _)
          · exact .requests (.singleton trivial)
        · exact .requests (.nil _)
      · exact .requests (.nil _)
  | foundChatMessagesReceived chatId filter extra messages totalCount nextFromMessageId =>
      exact absurd he (by simp [Event.bringsSlice])
  | newMessageReceived chatId message => exact .requests (.nil _)
  | messageFetched messageId message => exact .requests (.nil _)
  | removeMessage messageId => exact .requests (.nil _)
  | messageContentUpdated chatId messageId newContent =>
      rw [handle, handleMessageContentUpdated]
      dsimp only
      split
      · split
        · split
          · exact .requests (.nil _)
          · exact .requests (.nil _)
        · split
          · exact .requests (.nil _)
          · exact .requests (.singleton trivial)
      · exact .requests (.nil _)
  | messageIsPinnedUpdated chatId messageId isPinned =>
      rw [handle, handleMessageIsPinnedUpdated]
      split
      · split
        · exact .requests (.nil _)
        · split
          · dsimp only
            split
            · exact .requests (.nil _)
            · exact .requests (.singleton trivial)
          · exact .requests (.nil _)
      · exact .requests (.nil _)
  | messagesDeleted chatId messageIds =>
      rw [handle, handleMessagesDeleted]
      dsimp only
      split
      · exact .requests (.singleton trivial)
      · exact .requests (.nil _)

theorem takes_answer_iff (m : MediaMessagesModel) (r : Request) (a : Slice) :
    Takes (client.answer m r a).2 ↔ Accepts m r a := by
  have hnone : Takes (effects []) ↔ False := iff_false_intro fun h => by simpa using takes_effects.mp h
  cases r with
  | searchChatMessages chatId query extra fromMessageId filter limit offset =>
      change Takes (effects (handleMessagesReceived m chatId filter extra a.messages a.totalCount
        a.nextFromMessageId).2) ↔ (m.chatId = chatId ∧ filter = m.own.searchMessagesFilter) ∧ _
      rw [handleMessagesReceived]
      split_ifs with hchat
      · rw [and_iff_right hchat]
        exact (handleMessagesReceived_effects m extra a.messages a.totalCount).2.2
      · exact hnone.trans (iff_of_false id fun h => hchat h.1)
  | getChatHistory chatId extra fromMessageId offset => exact hnone
  | getForumTopicHistory chatId forumTopicId extra fromMessageId offset => exact hnone
  | getChatMessageCount chatId filter => exact hnone
  | getChatSponsoredMessages chatId => exact hnone
  | getMessage chatId messageId => exact hnone
  | viewMessage chatId messageId => exact hnone

/-- A batch that comes in answers a request sent after the last `clear()`, for the query and the filter of
the moment. -/
def BatchFresh : Exchange MediaMessagesModel Request → Move { e : Event // e.bringsSlice = false } Slice → Prop :=
  client.Fresh fun m r => r.query = m.own.query ∧ r.filter = m.own.searchMessagesFilter

/-- No answer to a request from before the last `clear()`, or for another query, is accepted; a change of the
query does not clear a model that is loading or shows a message. -/
def NoneOutdated : Exchange MediaMessagesModel Request → Move { e : Event // e.bringsSlice = false } Slice → Prop :=
  Client.Guarded Accepts fun x t => t.generation ≠ x.generation ∨ t.request.query ≠ x.client.own.query

instance (x : Exchange MediaMessagesModel Request) (move : Move { e : Event // e.bringsSlice = false } Slice) :
    Decidable (NoneOutdated x move) :=
  inferInstanceAs (Decidable (Client.Guarded ..))

theorem Accepts.filter_eq {m : MediaMessagesModel} {r : Request} {a : Slice} (h : Accepts m r a) :
    r.filter = m.own.searchMessagesFilter := by
  cases r with
  | searchChatMessages chatId query extra fromMessageId filter limit offset => exact h.1.2
  | getChatHistory chatId extra fromMessageId offset => exact h.elim
  | getForumTopicHistory chatId forumTopicId extra fromMessageId offset => exact h.elim
  | getChatMessageCount chatId filter => exact h.elim
  | getChatSponsoredMessages chatId => exact h.elim
  | getMessage chatId messageId => exact h.elim
  | viewMessage chatId messageId => exact h.elim

theorem batchFresh_iff (x : Exchange MediaMessagesModel Request)
    (move : Move { e : Event // e.bringsSlice = false } Slice) : BatchFresh x move ↔ NoneOutdated x move := by
  apply Client.fresh_iff
  · intro m e
    exact (call_issues m e.1 e.2).not_takes
  · exact takes_answer_iff
  · intro t ht a haccepts
    rw [not_or, not_not, not_not, and_iff_left haccepts.filter_eq]

theorem along_batchFresh_iff (inverted : Bool) (searchMessagesFilter : SearchMessagesFilter)
    (moves : List (Move { e : Event // e.bringsSlice = false } Slice)) :
    Along client.step BatchFresh (.start (new inverted searchMessagesFilter)) moves ↔
      Along client.step NoneOutdated (.start (new inverted searchMessagesFilter)) moves := by
  apply Along.congr (J := fun _ => True)
  · exact fun _ _ _ => trivial
  · exact fun x move _ => batchFresh_iff x move
  · exact trivial

end MediaMessagesModel

/-- **Which batches come in.** In a run of a new chat or media model every batch that becomes rows answers a
request sent after the last `clear()` for the query and the filter of the moment, exactly if the model never
accepts an answer that has been overtaken. -/
theorem batches_fresh_iff (chatId : Int) (chatInformation : QVariantMap) (inverted : Bool)
    (searchMessagesFilter : SearchMessagesFilter) :
    (∀ moves,
      Along ChatMessagesModel.client.step ChatMessagesModel.BatchFresh
        (.start (ChatMessagesModel.new chatId chatInformation)) moves ↔
      Along ChatMessagesModel.client.step ChatMessagesModel.NoneOvertaken
        (.start (ChatMessagesModel.new chatId chatInformation)) moves) ∧
    (∀ moves,
      Along MediaMessagesModel.client.step MediaMessagesModel.BatchFresh
        (.start (MediaMessagesModel.new inverted searchMessagesFilter)) moves ↔
      Along MediaMessagesModel.client.step MediaMessagesModel.NoneOutdated
        (.start (MediaMessagesModel.new inverted searchMessagesFilter)) moves) :=
  ⟨ChatMessagesModel.along_batchFresh_iff _ _, MediaMessagesModel.along_batchFresh_iff _ _⟩

/-- The answer to the first load comes in after a search was started, and the answer for one query after
another query was set. -/
theorem not_batches_fresh :
    (¬ Along ChatMessagesModel.client.step ChatMessagesModel.BatchFresh (.start (ChatMessagesModel.new 7 []))
      [.call ⟨.initialLoad 0, rfl⟩, .call ⟨.setSearchQuery "word", rfl⟩, .answer 0 ⟨[messageOf 7 5], 1, 0⟩]) ∧
    (¬ Along MediaMessagesModel.client.step MediaMessagesModel.BatchFresh (.start (MediaMessagesModel.new false .photo))
      [.call ⟨.init 7 0 false false, rfl⟩, .call ⟨.setQuery "word", rfl⟩, .answer 0 ⟨[messageOf 7 5], 1, 0⟩]) := by
  constructor
  · rw [ChatMessagesModel.along_batchFresh_iff]
    decide
  · rw [MediaMessagesModel.along_batchFresh_iff]
    decide

end YaqtLib
