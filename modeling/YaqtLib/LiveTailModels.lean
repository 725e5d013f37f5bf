import YaqtLib.LiveTail
import YaqtLib.StaleBatches

/-! The live tail of a chat without a search, and of a forum topic. -/

namespace YaqtLib

open Runs Requests MessagesModel JumpableMessagesModel Conversation TdConst

/-! ### Chats -/

namespace ChatMessagesModel

instance : SlicesAtRows ChatMembers where
  loadMoreHistoryImpl m := (loadMessages_requests m _ _ _).mono fun _ hr => hr.1
  loadMoreFutureImpl m := (loadMessages_requests m _ _ _).mono fun _ hr => hr.1

/-- The calls that load, and the updates of the chat with its last message. -/
def Event.reads : Event → Bool
  | .initialLoad _ | .loadMoreHistory | .loadMoreFuture | .loadHistoryForMessage _ | .loadEnd _ | .clear
  | .chatInformationChanged _ => true
  | _ => false

/-- The answer names the chat. -/
def namesChat (m : ChatMessagesModel) (r : Request) : Bool :=
  match r with
  | .getChatHistory chatId .. => m.chatId == chatId
  | .searchChatMessages chatId _ _ _ filter .. => m.chatId == chatId && filter == .empty
  | _ => false

/-- Neither a search nor sponsored messages. -/
def Plain (own : ChatMembers) : Prop := own.containsSponsoredMessages = false ∧ own.searchQuery = ""

theorem stable_plain : Stable fun m : ChatMessagesModel => Plain m.own where
  members _ _ _ _ hm := hm
  clear _ := ⟨rfl, rfl⟩
  prepare {m} totalCount fromUpdate hm := by
    obtain ⟨startReached, endReached, heq⟩ :=
      ReadableMessagesModel.handlePrepareMessagesReceived_eq m totalCount fromUpdate
    rw [PlainReadable.handlePrepare_eq totalCount fromUpdate hm.1, heq]
    exact hm

theorem plain_call {m : ChatMessagesModel} (hm : Plain m.own) (e : Event) (he : e.reads = true) :
    Plain (handle m e).1.own := by
  cases e with
  | initialLoad fromMessageId => exact hm
  | loadMoreHistory => exact stable_plain.loadMoreHistory hm
  | loadMoreFuture => exact stable_plain.loadMoreFuture hm
  | loadHistoryForMessage messageId => exact stable_plain.loadHistoryForMessage hm messageId
  | loadEnd markAllAsRead => exact stable_plain.loadEnd hm markAllAsRead hm
  | clear => exact stable_plain.clear hm
  | chatInformationChanged chatInformation => exact hm
  | _ => exact absurd he Bool.false_ne_true

theorem callSpec (m : ChatMessagesModel) (e : Event) (he : e.reads = true) :
    CallSpec m (handle m e).1 (handle m e).2 := by
  cases e with
  | initialLoad fromMessageId =>
      exact .members m m.own ((loadMessages_requests m _ _ _).mono fun r hr => ⟨_, hr.1⟩)
  | loadMoreHistory => exact .loadMoreHistory m
  | loadMoreFuture => exact .loadMoreFuture m
  | loadHistoryForMessage messageId => exact .loadHistoryForMessage m messageId
  | loadEnd markAllAsRead => exact .loadEnd m markAllAsRead
  | clear => exact .restart m m.own _ 0 (.nil _)
  | chatInformationChanged chatInformation => exact .members m _ (.nil _)
  | _ => exact absurd he Bool.false_ne_true

/-- A chat as a reader of its conversation. -/
def reader : Reader ChatMembers where
  Call := { e : Event // e.reads = true }
  call m c := handle m c.1
  answer m r a :=
    match answerTo r a with
    | some e => handle m e
    | none => (m, [])
  newMessage m message := (handle m (.newMessageReceived (chatIdOf message) message)).1
  Concerns chatId message := chatIdOf message = chatId
  Ready := Plain
  Listens _ := True
  accepts := namesChat
  decidableConcerns _ _ := inferInstance
  chatIdOf_concerns h := h
  ready_plain h := h.1
  ready_canLoadMore {m} h := by
    show canLoadMoreMessages m = true
    rw [canLoadMoreMessages, h.2]
    rfl
  lastMessageId_own {m m'} h := by
    show lastMessageId m' = lastMessageId m
    rw [lastMessageId, lastMessageId, h]
  call_spec m c _ := callSpec m c.1 c.2
  call_ready m c h := plain_call h c.1 c.2
  call_listens _ _ _ _ := trivial
  newMessage_heard {m message} _ _ h := by
    show handleNewMessageReceived m (chatIdOf message) message = _
    rw [handleNewMessageReceived, if_pos h]
  newMessage_unheard h := absurd trivial h
  answer_accepted {m r kind k} a haccepts hslice := by
    cases r with
    | getChatHistory chatId extra fromMessageId offset =>
        obtain rfl : extra = kind := (Prod.mk.inj (Option.some.inj hslice)).1
        show handleMessagesReceived m chatId extra a.messages a.totalCount = _
        rw [handleMessagesReceived, if_pos (eq_of_beq haccepts)]
    | searchChatMessages chatId query extra fromMessageId filter limit offset =>
        obtain rfl : extra = kind := (Prod.mk.inj (Option.some.inj hslice)).1
        obtain ⟨hchat, hfilter⟩ := Bool.and_eq_true_iff.mp haccepts
        show handleFoundChatMessagesReceived m chatId filter extra a.messages a.totalCount = _
        rw [handleFoundChatMessagesReceived, if_pos ⟨eq_of_beq hchat, eq_of_beq hfilter⟩]
    | _ => exact absurd haccepts Bool.false_ne_true
  answer_ignored {m r} a h := by
    cases r with
    | getChatHistory chatId extra fromMessageId offset =>
        have hchat := h.resolve_right nofun
        show handleMessagesReceived m chatId extra a.messages a.totalCount = _
        rw [handleMessagesReceived, if_neg (by simpa [namesChat] using hchat)]
    | searchChatMessages chatId query extra fromMessageId filter limit offset =>
        have hchat := h.resolve_right nofun
        show handleFoundChatMessagesReceived m chatId filter extra a.messages a.totalCount = _
        rw [handleFoundChatMessagesReceived, if_neg (by simpa [namesChat] using hchat)]
    | _ => rfl
  accepts_listens _ := trivial

end ChatMessagesModel

/-! ### Forum topics -/

namespace ForumTopicMessagesModel

instance : SlicesAtRows ForumTopicMembers where
  loadMoreHistoryImpl m := (loadMessages_requests m _ _ _).mono fun _ hr => hr.1
  loadMoreFutureImpl m := (loadMessages_requests m _ _ _).mono fun _ hr => hr.1

/-- The calls that load, and what the model is told of its topic. -/
def Event.reads (forumTopicId : Int) : Event → Bool
  | .setForumTopicData data _ => data.isEmpty || (ForumTopic.new data).id == forumTopicId
  | .loadMoreHistory | .loadMoreFuture | .loadHistoryForMessage _ | .loadEnd _ | .clear
  | .forumTopicUpdated .. => true
  | _ => false

def answerTo (r : Request) (a : Slice) : Option Event :=
  match r with
  | .getForumTopicHistory chatId forumTopicId extra _ _ =>
      some (.forumTopicMessagesReceived chatId forumTopicId extra a.messages a.totalCount)
  | _ => none

/-- The answer names the topic. -/
def namesTopic (m : ForumTopicMessagesModel) (r : Request) : Bool :=
  match r with
  | .getForumTopicHistory chatId forumTopicId .. => isTopic m chatId forumTopicId
  | _ => false

/-- The topic of the model, if it is known, is the given one. -/
def OfTopic (forumTopicId : Int) (own : ForumTopicMembers) : Prop :=
  ∀ topic ∈ own.forumTopic, topic.id = forumTopicId

def KnowsTopic (own : ForumTopicMembers) : Prop := own.forumTopic.isSome = true

theorem stable_forumTopic (P : Option ForumTopic → Prop) :
    Stable fun m : ForumTopicMessagesModel => P m.own.forumTopic where
  members _ _ _ _ hm := hm
  clear hm := hm
  prepare {m} totalCount fromUpdate hm := by
    obtain ⟨startReached, endReached, heq⟩ :=
      ReadableMessagesModel.handlePrepareMessagesReceived_eq m totalCount fromUpdate
    rw [PlainReadable.handlePrepare_eq totalCount fromUpdate trivial, heq]
    exact hm

/-- What the calls make of the topic: it stays, becomes known, or is updated. -/
theorem forumTopic_call (forumTopicId : Int) {m : ForumTopicMessagesModel} {e : Event}
    (he : e.reads forumTopicId = true) :
    (handle m e).1.own.forumTopic = m.own.forumTopic ∨
      ∃ topic, (handle m e).1.own.forumTopic = some topic ∧
        (OfTopic forumTopicId m.own → topic.id = forumTopicId) := by
  cases e with
  | setForumTopicData data loadFromMessageId =>
      rw [handle, setForumTopicData]
      cases hknown : m.own.forumTopic with
      | some topic =>
          refine Or.inr ⟨_, rfl, fun htopic => ?_⟩
          exact (topic.id_updateForumTopicData data).trans (htopic topic hknown)
      | none =>
          dsimp only
          split
          · exact Or.inl hknown
          · next hdata =>
              refine Or.inr ⟨_, rfl, fun _ => ?_⟩
              have hreads : (data.isEmpty || (ForumTopic.new data).id == forumTopicId) = true := he
              rw [Bool.eq_false_of_not_eq_true hdata, Bool.false_or] at hreads
              exact eq_of_beq hreads
  | loadMoreHistory => exact Or.inl ((stable_forumTopic (· = m.own.forumTopic)).loadMoreHistory rfl)
  | loadMoreFuture => exact Or.inl ((stable_forumTopic (· = m.own.forumTopic)).loadMoreFuture rfl)
  | loadHistoryForMessage messageId =>
      exact Or.inl ((stable_forumTopic (· = m.own.forumTopic)).loadHistoryForMessage rfl messageId)
  | loadEnd markAllAsRead =>
      exact Or.inl ((stable_forumTopic (· = m.own.forumTopic)).loadEnd rfl markAllAsRead rfl)
  | clear => exact Or.inl rfl
  | forumTopicUpdated chatId topicId update =>
      rw [handle, handleForumTopicUpdated]
      split_ifs
      · cases hknown : m.own.forumTopic with
        | none => exact Or.inl rfl
        | some topic =>
            refine Or.inr ⟨topic.updateFromForumTopicUpdate update, rfl, fun htopic => ?_⟩
            exact (ForumTopic.keepsLastMessage_updateFromForumTopicUpdate topic update).id.trans (htopic topic hknown)
      · exact Or.inl rfl
  | _ => exact absurd he Bool.false_ne_true

theorem callSpec (forumTopicId : Int) (m : ForumTopicMessagesModel) (e : Event) (he : e.reads forumTopicId = true) :
    CallSpec m (handle m e).1 (handle m e).2 := by
  cases e with
  | setForumTopicData data loadFromMessageId =>
      rw [handle, setForumTopicData]
      cases m.own.forumTopic with
      | some topic => exact .members m _ (.nil _)
      | none =>
          dsimp only
          split
          · exact .unchanged m
          · let own : ForumTopicMembers := { m.own with forumTopic := some (ForumTopic.new data) }
            apply CallSpec.members m own
            exact (loadMessages_requests { m with own := own } _ _ _).mono fun r hr => ⟨_, hr.1⟩
  | loadMoreHistory => exact .loadMoreHistory m
  | loadMoreFuture => exact .loadMoreFuture m
  | loadHistoryForMessage messageId => exact .loadHistoryForMessage m messageId
  | loadEnd markAllAsRead => exact .loadEnd m markAllAsRead
  | clear => exact .restart m m.own _ 0 (.nil _)
  | forumTopicUpdated chatId topicId update =>
      rw [handle, handleForumTopicUpdated]
      split_ifs
      · exact .members m _ (.nil _)
      · exact .unchanged m
  | _ => exact absurd he Bool.false_ne_true

/-- A model of a forum topic as a reader of its conversation. -/
def reader (forumTopicId : Int) : Reader ForumTopicMembers where
  Call := { e : Event // e.reads forumTopicId = true }
  call m c := handle m c.1
  answer m r a :=
    match answerTo r a with
    | some e => handle m e
    | none => (m, [])
  newMessage m message := (handle m (.newMessageReceived (chatIdOf message) message)).1
  Concerns chatId message := chatIdOf message = chatId ∧
    ((message.value TOPIC_ID).toMap.value FORUM_TOPIC_ID).toInt = forumTopicId
  Ready := OfTopic forumTopicId
  Listens := KnowsTopic
  accepts := namesTopic
  decidableConcerns _ _ := inferInstance
  chatIdOf_concerns h := h.1
  ready_plain _ := trivial
  ready_canLoadMore _ := rfl
  lastMessageId_own {m m'} h := by
    show lastMessageId m' = lastMessageId m
    rw [lastMessageId, lastMessageId, h]
  call_spec m c _ := callSpec forumTopicId m c.1 c.2
  call_ready m c h := by
    rcases forumTopic_call forumTopicId (m := m) c.2 with heq | ⟨topic, heq, hid⟩
    · rw [OfTopic, heq]
      exact h
    · rw [OfTopic, heq]
      intro topic' htopic'
      rw [← Option.some.inj htopic']
      exact hid h
  call_listens m c _ hknows := by
    rcases forumTopic_call forumTopicId (m := m) c.2 with heq | ⟨topic, heq, -⟩
    · rw [KnowsTopic, heq]
      exact hknows
    · rw [KnowsTopic, heq]
      rfl
  newMessage_heard {m message} hready hknows hconcerns := by
    obtain ⟨topic, htopic⟩ := Option.isSome_iff_exists.mp hknows
    show handleNewMessageReceived m (chatIdOf message) message = _
    rw [handleNewMessageReceived, if_pos]
    rw [isTopic, htopic, hconcerns.1, hconcerns.2]
    show (m.chatId == m.chatId && topic.id == forumTopicId) = true
    rw [hready topic htopic, beq_self_eq_true, beq_self_eq_true]
    rfl
  newMessage_unheard {m message} hknows := by
    show handleNewMessageReceived m (chatIdOf message) message = _
    rw [handleNewMessageReceived, if_neg]
    rw [isTopic, Option.not_isSome_iff_eq_none.mp hknows]
    exact Bool.false_ne_true
  answer_accepted {m r kind k} a haccepts hslice := by
    cases r with
    | getForumTopicHistory chatId topicId extra fromMessageId offset =>
        obtain rfl : extra = kind := (Prod.mk.inj (Option.some.inj hslice)).1
        show handleForumTopicMessagesReceived m chatId topicId extra a.messages a.totalCount = _
        exact if_pos haccepts
    | _ => exact absurd haccepts Bool.false_ne_true
  answer_ignored {m r} a h := by
    cases r with
    | getForumTopicHistory chatId topicId extra fromMessageId offset =>
        have hnames := h.resolve_right nofun
        show handleForumTopicMessagesReceived m chatId topicId extra a.messages a.totalCount = _
        apply if_neg
        exact fun hyes => absurd (hyes.symm.trans hnames) (by simp)
    | _ => rfl
  accepts_listens {m r} haccepts := by
    cases r with
    | getForumTopicHistory chatId topicId extra fromMessageId offset =>
        rw [KnowsTopic]
        cases htopic : m.own.forumTopic with
        | some topic => rfl
        | none =>
            have htrue : isTopic m chatId topicId = true := haccepts
            rw [isTopic, htopic] at htrue
            exact absurd htrue Bool.false_ne_true
    | _ => exact absurd haccepts Bool.false_ne_true

/-- A message of a forum topic. -/
def topicMessageOf (chatId topicId messageId : Int) : QVariantMap :=
  (messageOf chatId messageId).insert TOPIC_ID (.map [(FORUM_TOPIC_ID, .longLong topicId)])

/-- The data of a topic with its last message. -/
def topicDataOf (topicId : Int) (lastMessage : QVariantMap) : QVariantMap :=
  [(INFO, .map [(FORUM_TOPIC_ID, .longLong topicId)]), (LAST_MESSAGE, .map lastMessage)]

theorem ofTopic_new (forumTopicId chatId : Int) : OfTopic forumTopicId (new chatId).own :=
  fun _ h => absurd h nofun

end ForumTopicMessagesModel

/-! ### Both models -/

/-- **The live tail.** In a run of a new chat model without a search, and of a new topic model, in which no
overtaken answer is taken beside rows, the tail is complete in every state exactly if the end counts as reached
only with the newest message announced. -/
theorem liveTail_complete_iff (chatId : Int) (chatInformation : QVariantMap) (forumTopicId : Int)
    (old : List QVariantMap) :
    (History ChatMessagesModel.reader chatId old →
      ∀ es : List (TailEvent ChatMessagesModel.reader.Call),
      Along (step _) (Served _) (start (ChatMessagesModel.new chatId chatInformation) old) es →
      Along (step _) (Undisturbed _) (start (ChatMessagesModel.new chatId chatInformation) old) es →
      ((∀ es', es' <+: es →
        TailComplete (run (step _) (start (ChatMessagesModel.new chatId chatInformation) old) es')) ↔
        Along (step _) (EndNewest _) (start (ChatMessagesModel.new chatId chatInformation) old) es)) ∧
    (History (ForumTopicMessagesModel.reader forumTopicId) chatId old →
      ∀ es : List (TailEvent (ForumTopicMessagesModel.reader forumTopicId).Call),
      Along (step _) (Served _) (start (ForumTopicMessagesModel.new chatId) old) es →
      Along (step _) (Undisturbed _) (start (ForumTopicMessagesModel.new chatId) old) es →
      ((∀ es', es' <+: es → TailComplete (run (step _) (start (ForumTopicMessagesModel.new chatId) old) es')) ↔
        Along (step _) (EndNewest _) (start (ForumTopicMessagesModel.new chatId) old) es)) := by
  constructor
  · intro hold es hserved hundisturbed
    exact tailComplete_run_iff (R := ChatMessagesModel.reader) ⟨rfl, rfl⟩ hold hserved hundisturbed
  · intro hold es hserved hundisturbed
    exact tailComplete_run_iff (R := ForumTopicMessagesModel.reader forumTopicId)
      (ForumTopicMessagesModel.ofTopic_new forumTopicId chatId) hold hserved hundisturbed

open ChatMessagesModel in
theorem liveTail_complete_run :
    TailComplete (run (step reader) (start (new 7 [(LAST_MESSAGE, .map (messageOf 7 5))])
        ([1, 2, 3, 4, 5].map (messageOf 7)))
      [.call ⟨.initialLoad 0, rfl⟩, .answered 0 ⟨[5, 4, 3, 2, 1].map (messageOf 7), 5, 0⟩,
        .messageSent (messageOf 7 6), .newMessage]) ∧
    TailComplete (run (step (ForumTopicMessagesModel.reader 3)) (start (ForumTopicMessagesModel.new 7)
        ([1, 2, 3, 4, 5].map (ForumTopicMessagesModel.topicMessageOf 7 3)))
      [.call ⟨.setForumTopicData (ForumTopicMessagesModel.topicDataOf 3
          (ForumTopicMessagesModel.topicMessageOf 7 3 5)) 0, rfl⟩,
        .answered 0 ⟨[5, 4, 3, 2, 1].map (ForumTopicMessagesModel.topicMessageOf 7 3), 5, 0⟩,
        .messageSent (ForumTopicMessagesModel.topicMessageOf 7 3 6), .newMessage]) :=
  ⟨((liveTail_complete_iff 7 _ 3 _).1 (by decide) _ (by decide) (by decide)).mpr (by decide) _ (List.prefix_refl _),
    ((liveTail_complete_iff 7 [] 3 _).2 (by decide) _ (by decide) (by decide)).mpr (by decide) _ (List.prefix_refl _)⟩

namespace ChatMessagesModel

/-- A message is announced between the first request and its answer. -/
def announcedEarly : List (TailEvent reader.Call) :=
  [.call ⟨.initialLoad 0, rfl⟩, .messageSent (messageOf 7 6), .newMessage,
    .answered 0 ⟨[5, 4, 3, 2, 1].map (messageOf 7), 5, 0⟩]

end ChatMessagesModel

namespace ForumTopicMessagesModel

def announcedEarly : List (TailEvent (reader 3).Call) :=
  [.call ⟨.setForumTopicData (topicDataOf 3 (topicMessageOf 7 3 5)) 0, rfl⟩,
    .messageSent (topicMessageOf 7 3 6), .newMessage,
    .answered 0 ⟨[5, 4, 3, 2, 1].map (topicMessageOf 7 3), 5, 0⟩]

end ForumTopicMessagesModel

/-- A message that is announced between the first request and its answer is dropped, and the end counts as
reached with the last message that the model still names. -/
theorem not_liveTail_complete :
    (Along (step _) (Served ChatMessagesModel.reader)
        (start (ChatMessagesModel.new 7 [(LAST_MESSAGE, .map (messageOf 7 5))]) ([1, 2, 3, 4, 5].map (messageOf 7)))
        ChatMessagesModel.announcedEarly ∧
      ¬ TailComplete (run (step ChatMessagesModel.reader)
        (start (ChatMessagesModel.new 7 [(LAST_MESSAGE, .map (messageOf 7 5))]) ([1, 2, 3, 4, 5].map (messageOf 7)))
        ChatMessagesModel.announcedEarly)) ∧
    (Along (step _) (Served (ForumTopicMessagesModel.reader 3))
        (start (ForumTopicMessagesModel.new 7) ([1, 2, 3, 4, 5].map (ForumTopicMessagesModel.topicMessageOf 7 3)))
        ForumTopicMessagesModel.announcedEarly ∧
      ¬ TailComplete (run (step (ForumTopicMessagesModel.reader 3))
        (start (ForumTopicMessagesModel.new 7) ([1, 2, 3, 4, 5].map (ForumTopicMessagesModel.topicMessageOf 7 3)))
        ForumTopicMessagesModel.announcedEarly)) := by
  refine ⟨⟨by decide, ?_⟩, by decide, ?_⟩
  · intro hcomplete
    have hrow := hcomplete (by decide) 6 (by decide) 5 (by decide) (by decide)
    exact absurd hrow (by decide)
  · intro hcomplete
    have hrow := hcomplete (by decide) 6 (by decide) 5 (by decide) (by decide)
    exact absurd hrow (by decide)

end YaqtLib
