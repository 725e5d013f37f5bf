import YaqtLib.ChatMessagesModel
import YaqtLib.ForumTopicMessagesModel
import YaqtLib.MediaIndex
import YaqtLib.MessagesIndex
import YaqtLib.Requests

/-! The message models as clients of TDLib. A request for a slice of the history is answered by a signal that
names the chat, the filter and the kind of the request, but neither its query nor its origin. -/

namespace YaqtLib

open Requests

/-- The answer to a request for a slice. -/
structure Slice where
  messages : List QVariantMap
  totalCount : Int
  nextFromMessageId : Int

/-- The ids of the messages of an answer. -/
def Slice.ids (a : Slice) : List Int := a.messages.map messageIdOf

namespace Request

/-- The kind of a request for a slice, and the message the slice lies at. -/
def slice : Request → Option (UpdateType × Int)
  | .getChatHistory _ extra fromMessageId _ => some (extra, fromMessageId)
  | .searchChatMessages _ _ extra fromMessageId _ _ _ => some (extra, fromMessageId)
  | .getForumTopicHistory _ _ extra fromMessageId _ => some (extra, fromMessageId)
  | _ => none

/-- The query of a search; a slice of the whole history has none. -/
def query : Request → String
  | .searchChatMessages _ query .. => query
  | _ => ""

def filter : Request → SearchMessagesFilter
  | .searchChatMessages _ _ _ _ filter .. => filter
  | _ => .empty

end Request

/-- What an output means to the exchange of requests; only requests for slices are tracked. -/
def Output.effect : Output → Option (Effect Request (List MessageData))
  | .request r => if r.slice.isSome then some (.send r) else none
  | .cleared => some .restart
  | .inserted newMessages => some (.take newMessages)

def effects (outputs : List Output) : List (Effect Request (List MessageData)) := outputs.filterMap Output.effect

theorem mem_effects_send {outputs : List Output} {r : Request} :
    .send r ∈ effects outputs ↔ .request r ∈ outputs ∧ r.slice.isSome = true := by
  rw [effects, List.mem_filterMap]
  constructor
  · rintro ⟨output, houtput, heffect⟩
    cases output with
    | request r' =>
        rw [Output.effect] at heffect
        split_ifs at heffect with hslice
        obtain rfl : r' = r := Effect.send.inj (Option.some.inj heffect)
        exact ⟨houtput, hslice⟩
    | cleared => exact absurd heffect (by simp [Output.effect])
    | inserted newMessages => exact absurd heffect (by simp [Output.effect])
  · rintro ⟨houtput, hslice⟩
    exact ⟨_, houtput, if_pos hslice⟩

theorem restarts_effects {outputs : List Output} : Restarts (effects outputs) ↔ .cleared ∈ outputs := by
  rw [Restarts, effects, List.mem_filterMap]
  constructor
  · rintro ⟨output, houtput, heffect⟩
    cases output with
    | request r =>
        rw [Output.effect] at heffect
        split_ifs at heffect
        exact absurd heffect (by simp)
    | cleared => exact houtput
    | inserted newMessages => exact absurd heffect (by simp [Output.effect])
  · intro houtput
    exact ⟨.cleared, houtput, rfl⟩

theorem takes_effects {outputs : List Output} :
    Takes (effects outputs) ↔ ∃ newMessages, .inserted newMessages ∈ outputs := by
  apply exists_congr
  intro newMessages
  rw [effects, List.mem_filterMap]
  constructor
  · rintro ⟨output, houtput, heffect⟩
    cases output with
    | request r =>
        rw [Output.effect] at heffect
        split_ifs at heffect
        exact absurd heffect (by simp)
    | cleared => exact absurd heffect (by simp [Output.effect])
    | inserted newMessages' =>
        obtain rfl : newMessages' = newMessages := Effect.take.inj (Option.some.inj heffect)
        exact houtput
  · intro houtput
    exact ⟨_, houtput, rfl⟩

/-- A class of models as a client: the calls are the events that bring no slice, and an answer is the event
its request leads to. -/
def sliceClient {Own Event : Type} (handle : MessagesModel Own → Event → MessagesModel Own × List Output)
    (bringsSlice : Event → Bool) (answerTo : Request → Slice → Option Event) :
    Client (MessagesModel Own) { e : Event // bringsSlice e = false } Request Slice (List MessageData) where
  call m e := ((handle m e.1).1, effects (handle m e.1).2)
  answer m r a :=
    match answerTo r a with
    | none => (m, [])
    | some e => ((handle m e).1, effects (handle m e).2)

/-! ### What the functions for slices output -/

/-- Outputs that are requests, each of which meets `R`. -/
def OnlyRequests (R : Request → Prop) (outputs : List Output) : Prop :=
  ∀ output ∈ outputs, ∃ r, output = .request r ∧ R r

namespace OnlyRequests

theorem nil (R : Request → Prop) : OnlyRequests R [] := fun _ h => absurd h List.not_mem_nil

theorem singleton {R : Request → Prop} {r : Request} (h : R r) : OnlyRequests R [.request r] := by
  intro output houtput
  exact ⟨r, List.mem_singleton.mp houtput, h⟩

theorem mono {R R' : Request → Prop} {outputs : List Output} (h : OnlyRequests R outputs)
    (himp : ∀ r, R r → R' r) : OnlyRequests R' outputs := by
  intro output houtput
  obtain ⟨r, hr, hR⟩ := h output houtput
  exact ⟨r, hr, himp r hR⟩

theorem request {R : Request → Prop} {outputs : List Output} (h : OnlyRequests R outputs) {r : Request}
    (hr : .request r ∈ outputs) : R r := by
  obtain ⟨r', heq, hR⟩ := h _ hr
  rwa [Output.request.inj heq]

theorem not_cleared {R : Request → Prop} {outputs : List Output} (h : OnlyRequests R outputs) :
    .cleared ∉ outputs := by
  intro hcleared
  obtain ⟨r, heq, -⟩ := h _ hcleared
  exact absurd heq (by simp)

theorem not_inserted {R : Request → Prop} {outputs : List Output} (h : OnlyRequests R outputs)
    (newMessages : List MessageData) : .inserted newMessages ∉ outputs := by
  intro hinserted
  obtain ⟨r, heq, -⟩ := h _ hinserted
  exact absurd heq (by simp)

end OnlyRequests

/-- Outputs of a call: requests, each of which meets `R`, perhaps after a `clear()`. -/
def Issues (R : Request → Prop) (outputs : List Output) : Prop :=
  ∃ requests, OnlyRequests R requests ∧ (outputs = requests ∨ outputs = .cleared :: requests)

namespace Issues

theorem requests {R : Request → Prop} {outputs : List Output} (h : OnlyRequests R outputs) : Issues R outputs :=
  ⟨outputs, h, Or.inl rfl⟩

theorem restart {R : Request → Prop} {outputs : List Output} (h : OnlyRequests R outputs) :
    Issues R (.cleared :: outputs) :=
  ⟨outputs, h, Or.inr rfl⟩

theorem request {R : Request → Prop} {outputs : List Output} (h : Issues R outputs) {r : Request}
    (hr : .request r ∈ outputs) : R r := by
  obtain ⟨requests, hrequests, rfl | rfl⟩ := h
  · exact hrequests.request hr
  · exact hrequests.request ((List.mem_cons.mp hr).resolve_left (by simp))

theorem not_takes {R : Request → Prop} {outputs : List Output} (h : Issues R outputs) :
    ¬ Takes (effects outputs) := by
  rw [takes_effects]
  rintro ⟨newMessages, hinserted⟩
  obtain ⟨requests, hrequests, rfl | rfl⟩ := h
  · exact hrequests.not_inserted newMessages hinserted
  · exact hrequests.not_inserted newMessages ((List.mem_cons.mp hinserted).resolve_left (by simp))

end Issues

/-- The virtual functions leave the members of the subclass alone and output requests only: a function that
loads asks for a slice of its kind at the message it is given, with the query of the members. -/
class RequestingVirtuals (Own : Type) [Virtuals Own] where
  query : Own → String
  appendMessages_own : ∀ (m : MessagesModel Own) newMessages, (Virtuals.appendMessages m newMessages).own = m.own
  prependMessages_own : ∀ (m : MessagesModel Own) newMessages, (Virtuals.prependMessages m newMessages).own = m.own
  query_handlePrepare : ∀ (m : MessagesModel Own) totalCount fromUpdate,
    query (Virtuals.handlePrepareMessagesReceived m totalCount fromUpdate).1.own = query m.own
  loadMessages : ∀ (m : MessagesModel Own) extra fromMessageId offset,
    OnlyRequests (fun r => r.slice = some (extra, fromMessageId) ∧ r.query = query m.own)
      (Virtuals.loadMessages m extra fromMessageId offset)
  loadMoreHistoryImpl : ∀ m : MessagesModel Own,
    OnlyRequests (fun r => (∃ k, r.slice = some (.updatePreviousSlice, k)) ∧ r.query = query m.own)
      (Virtuals.loadMoreHistoryImpl m)
  loadMoreFutureImpl : ∀ m : MessagesModel Own,
    OnlyRequests (fun r => (∃ k, r.slice = some (.updateNextSlice, k)) ∧ r.query = query m.own)
      (Virtuals.loadMoreFutureImpl m)
  loadHistoryForMessageImpl : ∀ (m : MessagesModel Own) messageId,
    OnlyRequests (fun r => r.slice = some (.updateInitial, messageId) ∧ r.query = query m.own)
      (Virtuals.loadHistoryForMessageImpl m messageId)
  handlePrepareMessagesReceived : ∀ (m : MessagesModel Own) totalCount fromUpdate,
    OnlyRequests (fun r => r.slice = none) (Virtuals.handlePrepareMessagesReceived m totalCount fromUpdate).2

namespace JumpableMessagesModel

open MessagesModel

theorem accepts_iff {Own : Type} (m : MessagesModel Own) (fromUpdate : UpdateType) :
    (m.waitingFor fromUpdate || m.messages.isEmpty) = true ↔ m.waitingFor fromUpdate = true ∨ m.messages = [] := by
  rw [Bool.or_eq_true, List.isEmpty_iff]

variable {Own : Type} [Virtuals Own]

/-- A batch is taken if rows of its kind are waited for, or there are none, and it brings a row. -/
def TakesBatch (m : MessagesModel Own) (fromUpdate : UpdateType) (messages : List QVariantMap) : Prop :=
  (m.waitingFor fromUpdate = true ∨ m.messages = []) ∧ ∃ message ∈ messages, m.Fresh message

instance (m : MessagesModel Own) (fromUpdate : UpdateType) (messages : List QVariantMap) :
    Decidable (TakesBatch m fromUpdate messages) :=
  inferInstanceAs (Decidable (_ ∧ _))

theorem addedMessages_ne_nil_iff [LawfulVirtuals Own] (m : MessagesModel Own) (messages : List QVariantMap) :
    m.addedMessages messages ≠ [] ↔ ∃ message ∈ messages, m.Fresh message := by
  constructor
  · intro h
    obtain ⟨added, hadded⟩ := List.exists_mem_of_ne_nil _ h
    obtain ⟨message, hmessage, hfresh, -⟩ :=
      mem_ids_addedMessages.mp (List.mem_map_of_mem (f := MessageData.messageId) hadded)
    exact ⟨message, hmessage, hfresh⟩
  · rintro ⟨message, hmessage, hfresh⟩ hnil
    have hmem := mem_ids_addedMessages.mpr ⟨message, hmessage, hfresh, rfl⟩
    rw [hnil] at hmem
    exact absurd hmem List.not_mem_nil

theorem handleMessageSendSucceeded_requests (m : MessagesModel Own) (chatId oldMessageId messageId : Int)
    (message : QVariantMap) :
    OnlyRequests (fun r => r.slice = none)
      (m.handleMessageSendSucceeded chatId oldMessageId messageId message).2 := by
  rw [handleMessageSendSucceeded]
  split_ifs
  · cases m.messageIndexMap.value oldMessageId with
    | none => exact .nil _
    | some pos => exact .singleton rfl
  · exact .nil _

variable [RequestingVirtuals Own]

theorem insertMessages_own (m : MessagesModel Own) (newMessages : List MessageData) :
    (m.insertMessages newMessages).own = m.own :=
  insertMessages_of (P := fun m' => m'.own = m.own) (RequestingVirtuals.appendMessages_own m newMessages)
    (RequestingVirtuals.prependMessages_own m newMessages) fun _ => rfl

theorem handleInsertMessages_own (m : MessagesModel Own) (messages : List QVariantMap) :
    (m.handleInsertMessages messages).1.own = m.own := by
  rw [(handleInsertMessages_same m messages).sameMembers.own]
  split_ifs
  · rfl
  · exact insertMessages_own m _

/-- The query of a model, which its requests name. -/
abbrev queryOf (m : MessagesModel Own) : String := RequestingVirtuals.query m.own

theorem query_notifyMessagesLoaded (m : MessagesModel Own) (fromUpdate : UpdateType) (totalCount : Int) :
    queryOf (notifyMessagesLoaded m fromUpdate totalCount).1 = queryOf m :=
  RequestingVirtuals.query_handlePrepare _ totalCount fromUpdate

/-- A request that handling a batch may send: for older messages at a row that has just come in. -/
def FollowsBatch (m : MessagesModel Own) (fromUpdate : UpdateType) (messages : List QVariantMap) (r : Request) :
    Prop :=
  r.slice = none ∨
    r.query = queryOf m ∧ (m.waitingFor fromUpdate = true ∨ m.messages = []) ∧
      ∃ first ∈ m.addedMessages messages, r.slice = some (.updateReload, first.messageId)

theorem afterInsertion_spec (m m' : MessagesModel Own) (messages : List QVariantMap) (hquery : queryOf m' = queryOf m)
    (reloadNeeded : Bool) {fromUpdate : UpdateType} (haccepts : m.waitingFor fromUpdate = true ∨ m.messages = [])
    (totalCount : Int) :
    queryOf (afterInsertion m' (m.addedMessages messages) reloadNeeded fromUpdate totalCount).1 = queryOf m ∧
      OnlyRequests (FollowsBatch m fromUpdate messages)
        (afterInsertion m' (m.addedMessages messages) reloadNeeded fromUpdate totalCount).2 := by
  have hnotify : OnlyRequests (FollowsBatch m fromUpdate messages) (notifyMessagesLoaded m' fromUpdate totalCount).2 :=
    (RequestingVirtuals.handlePrepareMessagesReceived _ totalCount fromUpdate).mono fun r hr => Or.inl hr
  unfold afterInsertion
  cases hadded : m.addedMessages messages with
  | nil => exact ⟨(query_notifyMessagesLoaded m' _ _).trans hquery, hnotify⟩
  | cons first rest =>
      dsimp only
      split
      · refine ⟨hquery, ?_⟩
        apply (RequestingVirtuals.loadMessages _ _ _ _).mono
        rintro r ⟨hslice, hr⟩
        refine Or.inr ⟨hr.trans hquery, haccepts, first, ?_, hslice⟩
        rw [hadded]
        exact List.mem_cons_self ..
      · exact ⟨(query_notifyMessagesLoaded m' _ _).trans hquery, hnotify⟩

/-- What handling a batch outputs: the rows it brings if it is taken, and requests. -/
theorem handleMessagesReceived_spec [LawfulVirtuals Own] (m : MessagesModel Own) (fromUpdate : UpdateType)
    (messages : List QVariantMap) (totalCount : Int) :
    queryOf (handleMessagesReceived m fromUpdate messages totalCount).1 = queryOf m ∧
    ∃ requests, OnlyRequests (FollowsBatch m fromUpdate messages) requests ∧
      (handleMessagesReceived m fromUpdate messages totalCount).2 =
        (if TakesBatch m fromUpdate messages then [.inserted (m.addedMessages messages)] else []) ++ requests := by
  rw [handleMessagesReceived]
  cases messages with
  | nil =>
      rw [if_neg (show ¬ TakesBatch m fromUpdate [] from fun h => absurd h.2 (by simp))]
      refine ⟨query_notifyMessagesLoaded m _ _, _, ?_, rfl⟩
      exact (RequestingVirtuals.handlePrepareMessagesReceived _ totalCount fromUpdate).mono fun r hr => Or.inl hr
  | cons message rest =>
      dsimp only [List.isEmpty_cons]
      rw [if_neg Bool.false_ne_true]
      by_cases haccepts : (m.waitingFor fromUpdate || m.messages.isEmpty) = true
      · rw [if_pos haccepts]
        have hspec := afterInsertion_spec m (m.handleInsertMessages (message :: rest)).1 (message :: rest)
          (congrArg RequestingVirtuals.query (handleInsertMessages_own m _))
          (m.handleInsertMessages (message :: rest)).2.2 ((accepts_iff m fromUpdate).mp haccepts) totalCount
        refine ⟨hspec.1, _, hspec.2, ?_⟩
        have htakes : TakesBatch m fromUpdate (message :: rest) ↔ m.addedMessages (message :: rest) ≠ [] := by
          rw [addedMessages_ne_nil_iff]
          exact and_iff_right ((accepts_iff m fromUpdate).mp haccepts)
        have hinsertion : insertionOutput (m.addedMessages (message :: rest)) =
            if TakesBatch m fromUpdate (message :: rest) then [.inserted (m.addedMessages (message :: rest))]
            else [] := by
          simp only [insertionOutput, List.isEmpty_iff, htakes, ne_eq, ite_not]
        rw [← hinsertion]
        rfl
      · rw [if_neg haccepts, if_neg (show ¬ TakesBatch m fromUpdate (message :: rest) from
          fun h => haccepts ((accepts_iff m fromUpdate).mpr h.1))]
        exact ⟨rfl, [], .nil _, rfl⟩

/-- The same, as effects. -/
theorem handleMessagesReceived_effects [LawfulVirtuals Own] (m : MessagesModel Own) (fromUpdate : UpdateType)
    (messages : List QVariantMap) (totalCount : Int) :
    (∀ r, .send r ∈ effects (handleMessagesReceived m fromUpdate messages totalCount).2 →
      FollowsBatch m fromUpdate messages r) ∧
    ¬ Restarts (effects (handleMessagesReceived m fromUpdate messages totalCount).2) ∧
    (Takes (effects (handleMessagesReceived m fromUpdate messages totalCount).2) ↔
      TakesBatch m fromUpdate messages) := by
  obtain ⟨-, requests, hrequests, heq⟩ := handleMessagesReceived_spec m fromUpdate messages totalCount
  rw [heq, restarts_effects, takes_effects]
  refine ⟨fun r hr => ?_, fun hcleared => ?_, ?_⟩
  · rcases List.mem_append.mp (mem_effects_send.mp hr).1 with hmem | hmem
    · exact absurd hmem (by split_ifs <;> simp)
    · exact hrequests.request hmem
  · rcases List.mem_append.mp hcleared with hmem | hmem
    · exact absurd hmem (by split_ifs <;> simp)
    · exact hrequests.not_cleared hmem
  · constructor
    · rintro ⟨newMessages, hinserted⟩
      rcases List.mem_append.mp hinserted with hmem | hmem
      · by_contra htakes
        rw [if_neg htakes] at hmem
        exact absurd hmem List.not_mem_nil
      · exact absurd hmem (hrequests.not_inserted newMessages)
    · intro htakes
      rw [if_pos htakes]
      exact ⟨_, List.mem_append_left _ (List.mem_singleton_self _)⟩

theorem loadMoreHistory_requests (m : MessagesModel Own) :
    queryOf (loadMoreHistory m).1 = queryOf m ∧
      OnlyRequests (fun r => r.query = queryOf m) (loadMoreHistory m).2 := by
  rw [loadMoreHistory]
  split_ifs
  · exact ⟨rfl, (RequestingVirtuals.loadMoreHistoryImpl _).mono fun r hr => hr.2⟩
  · exact ⟨rfl, .nil _⟩

theorem loadMoreFuture_requests (m : MessagesModel Own) :
    queryOf (loadMoreFuture m).1 = queryOf m ∧
      OnlyRequests (fun r => r.query = queryOf m) (loadMoreFuture m).2 := by
  rw [loadMoreFuture]
  split_ifs
  · exact ⟨rfl, (RequestingVirtuals.loadMoreFutureImpl _).mono fun r hr => hr.2⟩
  · exact ⟨rfl, .nil _⟩

theorem handleNewMessageReceived_own [ReadableVirtuals Own] (m : MessagesModel Own) (message : QVariantMap) :
    (ReadableMessagesModel.handleNewMessageReceived m message).own = m.own := by
  rw [ReadableMessagesModel.handleNewMessageReceived]
  dsimp only
  split_ifs
  · rfl
  · rw [(setMessagesAlbum_same _ _).sameMembers.own, insertMessages_own]
  · rfl

/-- A jump starts over. -/
theorem loadHistoryForMessage_requests (m : MessagesModel Own) (messageId : Int) :
    (loadHistoryForMessage m messageId = (m, [])) ∨
      ∃ requests, (loadHistoryForMessage m messageId).2 = .cleared :: requests ∧
        OnlyRequests (fun r => r.query = queryOf (loadHistoryForMessage m messageId).1) requests := by
  rw [loadHistoryForMessage]
  split_ifs
  · exact Or.inr ⟨_, rfl, (RequestingVirtuals.loadHistoryForMessageImpl _ _).mono fun r hr => hr.2⟩
  · exact Or.inl rfl

end JumpableMessagesModel

/-! ### The three classes -/

open MessagesModel (SameMembers)

namespace ChatMessagesModel

theorem loadMessages_requests (m : ChatMessagesModel) (extra : UpdateType) (fromMessageId offset : Int) :
    OnlyRequests (fun r => r.slice = some (extra, fromMessageId) ∧ r.query = m.own.searchQuery)
      (loadMessages m extra fromMessageId offset) := by
  rw [loadMessages]
  split_ifs with hquery
  · exact .singleton ⟨rfl, hquery.symm⟩
  · exact .singleton ⟨rfl, rfl⟩

/-- Pending sponsored messages that become rows leave the members as they are. -/
theorem insertPendingBefore_sameMembers (m : ChatMessagesModel) (insertIndex : Int) (pending : List QVariantMap) :
    SameMembers m (insertPendingBefore m insertIndex pending).1 := by
  induction pending generalizing m insertIndex with
  | nil => exact .refl m
  | cons message rest ih =>
      rw [insertPendingBefore]
      split_ifs
      · exact (SameMembers.rows m _ _).trans (ih _ _)
      · exact .refl m

theorem insertPendingAfter_sameMembers (m : ChatMessagesModel) (insertIndex : Int) (pending : List QVariantMap) :
    SameMembers m (insertPendingAfter m insertIndex pending).1 := by
  induction pending generalizing m insertIndex with
  | nil => exact .refl m
  | cons message rest ih =>
      rw [insertPendingAfter]
      split_ifs
      · exact (SameMembers.rows m _ _).trans (ih _ _)
      · exact .refl m

/-- `m'` has the members of `m`, but for the rows, the ends and what is kept of the sponsored messages. -/
structure SameButSponsored (m m' : ChatMessagesModel) : Prop where
  chatId : m'.chatId = m.chatId
  waitingFor : m'.waitingFor = m.waitingFor
  highlightedMessageId : m'.highlightedMessageId = m.highlightedMessageId
  loadingFullEnd : m'.own.loadingFullEnd = m.own.loadingFullEnd
  searchQuery : m'.own.searchQuery = m.own.searchQuery
  chatInformation : m'.own.chatInformation = m.own.chatInformation

namespace SameButSponsored

theorem refl (m : ChatMessagesModel) : SameButSponsored m m := ⟨rfl, rfl, rfl, rfl, rfl, rfl⟩

theorem trans {m m' m'' : ChatMessagesModel} (h : SameButSponsored m m') (h' : SameButSponsored m' m'') :
    SameButSponsored m m'' :=
  ⟨h'.chatId.trans h.chatId, h'.waitingFor.trans h.waitingFor, h'.highlightedMessageId.trans h.highlightedMessageId,
    h'.loadingFullEnd.trans h.loadingFullEnd, h'.searchQuery.trans h.searchQuery,
    h'.chatInformation.trans h.chatInformation⟩

theorem of_members {m m' : ChatMessagesModel} (h : SameMembers m m') : SameButSponsored m m' where
  chatId := h.chatId
  waitingFor := h.waitingFor
  highlightedMessageId := h.highlightedMessageId
  loadingFullEnd := congrArg ChatMembers.loadingFullEnd h.own
  searchQuery := congrArg ChatMembers.searchQuery h.own
  chatInformation := congrArg ChatMembers.chatInformation h.own

end SameButSponsored

theorem insertPending_sameButSponsored (m : ChatMessagesModel) (totalCount : Int) (fromUpdate : UpdateType) :
    SameButSponsored m (insertPendingSponsoredMessages m totalCount fromUpdate) := by
  rw [insertPendingSponsoredMessages]
  split_ifs
  · cases fromUpdate with
    | updatePreviousSlice =>
        exact (SameButSponsored.of_members (insertPendingBefore_sameMembers m _ _)).trans ⟨rfl, rfl, rfl, rfl, rfl, rfl⟩
    | updateNextSlice =>
        exact (SameButSponsored.of_members (insertPendingAfter_sameMembers m _ _)).trans ⟨rfl, rfl, rfl, rfl, rfl, rfl⟩
    | updateInitial => exact .refl m
    | updateReload => exact .refl m
  · exact .refl m

theorem handlePrepare_sameButSponsored (m : ChatMessagesModel) (totalCount : Int) (fromUpdate : UpdateType) :
    SameButSponsored m (handlePrepareMessagesReceived m totalCount fromUpdate).1 := by
  obtain ⟨startReached, endReached, heq⟩ :=
    ReadableMessagesModel.handlePrepareMessagesReceived_eq m totalCount fromUpdate
  have hends : SameButSponsored m { m with startReached := startReached, endReached := endReached } :=
    ⟨rfl, rfl, rfl, rfl, rfl, rfl⟩
  rw [handlePrepareMessagesReceived, heq]
  exact hends.trans (insertPending_sameButSponsored _ totalCount fromUpdate)

theorem spreadSponsoredMessages_sameButSponsored (messagesBetween : Int) (m : ChatMessagesModel) (insertIndex : Int)
    (sponsored : List QVariantMap) :
    SameButSponsored m (spreadSponsoredMessages messagesBetween m insertIndex sponsored) := by
  induction sponsored generalizing m insertIndex with
  | nil => exact .refl m
  | cons message rest ih =>
      have hrow : ∀ messageId, SameButSponsored m (insertSponsoredMessage m insertIndex message messageId) :=
        fun _ => .of_members (.rows m _ _)
      rw [spreadSponsoredMessages]
      dsimp only
      split_ifs
      · exact (hrow _).trans ⟨rfl, rfl, rfl, rfl, rfl, rfl⟩
      · exact (hrow _).trans (ih _ _)
      · exact ih _ _

theorem handleSponsoredMessagesReceived_sameButSponsored (m : ChatMessagesModel) (chatId : Int)
    (sponsored : List QVariantMap) (messagesBetween : Int) :
    SameButSponsored m (handleSponsoredMessagesReceived m chatId sponsored messagesBetween) := by
  unfold handleSponsoredMessagesReceived
  split
  · exact .refl m
  · cases sponsored with
    | nil => exact .refl m
    | cons message rest =>
        have hkept : ∀ m' : ChatMessagesModel, SameButSponsored m m' → SameButSponsored m { m' with own := { m'.own with
            containsSponsoredMessages := true, sponsoredMessagesMessagesBetween := messagesBetween } } :=
          fun _ h => h.trans ⟨rfl, rfl, rfl, rfl, rfl, rfl⟩
        refine hkept _ ?_
        dsimp only
        split_ifs
        · exact .of_members (appendMessages_sameMembers m _)
        · exact .refl m
        · exact spreadSponsoredMessages_sameButSponsored messagesBetween m _ _

theorem handlePrepare_requests (m : ChatMessagesModel) (totalCount : Int) (fromUpdate : UpdateType) :
    OnlyRequests (fun r => r.slice = none) (handlePrepareMessagesReceived m totalCount fromUpdate).2 := by
  rw [handlePrepareMessagesReceived]
  dsimp only
  split_ifs
  · exact .singleton rfl
  · exact .nil _

instance : RequestingVirtuals ChatMembers where
  query own := own.searchQuery
  appendMessages_own m newMessages := (appendMessages_sameMembers m newMessages).own
  prependMessages_own _ _ := rfl
  query_handlePrepare m totalCount fromUpdate := (handlePrepare_sameButSponsored m totalCount fromUpdate).searchQuery
  loadMessages := loadMessages_requests
  loadMoreHistoryImpl m := (loadMessages_requests m _ _ _).mono fun _ hr => ⟨⟨_, hr.1⟩, hr.2⟩
  loadMoreFutureImpl m := (loadMessages_requests m _ _ _).mono fun _ hr => ⟨⟨_, hr.1⟩, hr.2⟩
  loadHistoryForMessageImpl m _ := loadMessages_requests m _ _ _
  handlePrepareMessagesReceived := handlePrepare_requests

end ChatMessagesModel

namespace ForumTopicMessagesModel

theorem loadMessages_requests (m : ForumTopicMessagesModel) (extra : UpdateType) (fromMessageId offset : Int) :
    OnlyRequests (fun r => r.slice = some (extra, fromMessageId) ∧ r.query = "")
      (loadMessages m extra fromMessageId offset) := by
  rw [loadMessages]
  cases m.own.forumTopic with
  | none => exact .nil _
  | some topic =>
      dsimp only
      split_ifs
      · exact .singleton ⟨rfl, rfl⟩
      · exact .nil _

instance : RequestingVirtuals ForumTopicMembers where
  query _ := ""
  appendMessages_own _ _ := rfl
  prependMessages_own _ _ := rfl
  query_handlePrepare _ _ _ := rfl
  loadMessages := loadMessages_requests
  loadMoreHistoryImpl m := (loadMessages_requests m _ _ _).mono fun _ hr => ⟨⟨_, hr.1⟩, hr.2⟩
  loadMoreFutureImpl m := (loadMessages_requests m _ _ _).mono fun _ hr => ⟨⟨_, hr.1⟩, hr.2⟩
  loadHistoryForMessageImpl m _ := loadMessages_requests m _ _ _
  handlePrepareMessagesReceived _ _ _ := .nil _

end ForumTopicMessagesModel

namespace MediaMessagesModel

theorem query_updateTotalCount (m : MediaMessagesModel) (count : Int) :
    (updateTotalCount m count).own.query = m.own.query := by
  rw [updateTotalCount]
  split_ifs <;> rfl

theorem loadMessages_requests (m : MediaMessagesModel) (extra : UpdateType) (fromMessageId offset limit : Int) :
    OnlyRequests (fun r => r.slice = some (extra, fromMessageId) ∧ r.query = m.own.query)
      (loadMessagesWithLimit m extra fromMessageId offset limit) :=
  .singleton ⟨rfl, rfl⟩

instance : RequestingVirtuals MediaMembers where
  query own := own.query
  appendMessages_own m newMessages := ((insertsAtEnds m).append_sameMembers newMessages).own
  prependMessages_own m newMessages := ((insertsAtEnds m).prepend_sameMembers newMessages).own
  query_handlePrepare m totalCount fromUpdate := by
    change (JumpableMessagesModel.handlePrepareMessagesReceived (updateTotalCount m totalCount) totalCount
      fromUpdate).own.query = m.own.query
    rw [← query_updateTotalCount m totalCount]
    unfold JumpableMessagesModel.handlePrepareMessagesReceived
    split_ifs
    · cases fromUpdate <;> rfl
    · rfl
  loadMessages m extra fromMessageId offset := loadMessages_requests m _ _ _ _
  loadMoreHistoryImpl m := (loadMessages_requests m _ _ _ _).mono fun _ hr => ⟨⟨_, hr.1⟩, hr.2⟩
  loadMoreFutureImpl m := (loadMessages_requests m _ _ _ _).mono fun _ hr => ⟨⟨_, hr.1⟩, hr.2⟩
  loadHistoryForMessageImpl m _ := loadMessages_requests m _ _ _ _
  handlePrepareMessagesReceived _ _ _ := .nil _

end MediaMessagesModel

end YaqtLib
