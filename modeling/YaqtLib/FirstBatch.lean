import YaqtLib.Segments
import YaqtLib.SliceRows
import YaqtLib.StaleBatches

/-! The first batch of a media model. After `init` a count of the messages, new messages and the answer to the
initial search reach the model in any order; the answer becomes the rows only if there are none yet. -/

namespace YaqtLib

open Runs Requests Segments MessagesModel JumpableMessagesModel Utilities

namespace MediaMessagesModel

/-! ### What the handlers do to the rows -/

theorem preparesFlags (own : MediaMembers) : PreparesFlags own := by
  intro m _ totalCount fromUpdate
  change SameRows m (JumpableMessagesModel.handlePrepareMessagesReceived (updateTotalCount m totalCount)
    totalCount fromUpdate)
  have hcount : SameRows m (updateTotalCount m totalCount) := by
    rw [updateTotalCount]
    split_ifs <;> exact ⟨rfl, rfl, rfl, rfl⟩
  unfold JumpableMessagesModel.handlePrepareMessagesReceived
  split_ifs
  · cases fromUpdate <;> exact ⟨hcount.chatId, hcount.messages, hcount.messageIndexMap, hcount.waitingFor⟩
  · exact hcount

/-- What the handlers of the first load leave alone. -/
structure KeepsTarget (m m' : MediaMessagesModel) : Prop where
  chatId : m'.chatId = m.chatId
  filter : m'.own.searchMessagesFilter = m.own.searchMessagesFilter

theorem updateTotalCount_eq (m : MediaMessagesModel) (count : Int) : ∃ totalCount,
    updateTotalCount m count = { m with own := { m.own with totalCount := totalCount } } := by
  rw [updateTotalCount]
  split_ifs
  · exact ⟨count, rfl⟩
  · exact ⟨m.own.totalCount, rfl⟩

/-- A new message that matches becomes a row if the end is reached. -/
theorem handleNewMessageReceived_spec {m : MediaMessagesModel} (hm : m.IndexExact) {message : QVariantMap}
    (hchat : chatIdOf message = m.chatId)
    (hmatch : messageMatchesSearchFilter message m.own.searchMessagesFilter = true) :
    (handleNewMessageReceived m (chatIdOf message) message).IndexExact ∧
    SameMembers m (handleNewMessageReceived m (chatIdOf message) message) ∧
    ∀ k, k ∈ (handleNewMessageReceived m (chatIdOf message) message).ids ↔
      k ∈ m.ids ∨ (m.endReached = true ∧ k = messageIdOf message) := by
  unfold handleNewMessageReceived
  dsimp only
  split_ifs with hend htake
  · have hnot : messageIdOf message ∉ m.ids := (not_mem_ids_iff hm _).mp htake.2.1
    refine ⟨indexExact_insertMessages (insertsAtEnds m) hm ?_, insertMessages_sameMembers (insertsAtEnds m) _, ?_⟩
    · exact hm.nodup.append (List.nodup_singleton _) (List.disjoint_singleton.mpr hnot)
    · intro k
      rw [mem_ids_insertMessages (insertsAtEnds m)]
      simp [hend]
  · have hloaded : messageIdOf message ∈ m.ids := by
      rw [← contains_iff_mem_ids hm]
      by_contra hnot
      exact htake ⟨hchat, by simpa using hnot, hmatch⟩
    refine ⟨hm, .refl m, fun k => ?_⟩
    constructor
    · exact Or.inl
    · rintro (hk | ⟨-, rfl⟩)
      · exact hk
      · exact hloaded
  · refine ⟨hm, .refl m, fun k => ?_⟩
    simp [hend]

/-- A count of the messages changes flags, and may send an initial search. -/
theorem handleChatMessageCountReceived_spec (m : MediaMessagesModel) (count chatId : Int)
    (filter : SearchMessagesFilter) :
    SameRows m (handleChatMessageCountReceived m count chatId filter).1 ∧
    KeepsTarget m (handleChatMessageCountReceived m count chatId filter).1 ∧
    (handleChatMessageCountReceived m count chatId filter).1.own.nextFromMessageId = m.own.nextFromMessageId ∧
    (m.endReached = true → (handleChatMessageCountReceived m count chatId filter).1.endReached = true) ∧
    OnlyRequests (fun r => ∃ query extra fromMessageId limit offset, r =
        .searchChatMessages m.chatId query extra fromMessageId m.own.searchMessagesFilter limit offset)
      (handleChatMessageCountReceived m count chatId filter).2 := by
  obtain ⟨totalCount, heq⟩ := updateTotalCount_eq m count
  unfold handleChatMessageCountReceived
  rw [heq]
  dsimp only
  split_ifs
  · exact ⟨⟨rfl, rfl, rfl, rfl⟩, ⟨rfl, rfl⟩, rfl, fun _ => rfl, .nil _⟩
  · exact ⟨⟨rfl, rfl, rfl, rfl⟩, ⟨rfl, rfl⟩, rfl, fun _ => rfl, .singleton ⟨_, _, _, _, _, rfl⟩⟩
  · exact ⟨⟨rfl, rfl, rfl, rfl⟩, ⟨rfl, rfl⟩, rfl, id, .nil _⟩
  · exact ⟨⟨rfl, rfl, rfl, rfl⟩, ⟨rfl, rfl⟩, rfl, id, .nil _⟩

/-- Without rows every message of a batch of the chat becomes one. -/
theorem fresh_of_no_rows {m : MediaMessagesModel} (hm : m.IndexExact) (hnone : m.messages = [])
    {message : QVariantMap} (hchat : chatIdOf message = m.chatId) (hid : messageIdOf message ≠ 0) :
    m.Fresh message := by
  refine ⟨hid, hchat, (not_mem_ids_iff hm _).mpr ?_⟩
  rw [ids, hnone]
  exact List.not_mem_nil

theorem stable_filter (filter : SearchMessagesFilter) :
    Stable fun m : MediaMessagesModel => m.own.searchMessagesFilter = filter where
  members _ _ _ _ hm := hm
  clear hm := hm
  prepare {m} totalCount fromUpdate hm := by
    change (JumpableMessagesModel.handlePrepareMessagesReceived (updateTotalCount m totalCount) totalCount
      fromUpdate).own.searchMessagesFilter = filter
    obtain ⟨count, heq⟩ := updateTotalCount_eq m totalCount
    rw [heq]
    unfold JumpableMessagesModel.handlePrepareMessagesReceived
    split_ifs
    · cases fromUpdate <;> exact hm
    · exact hm

theorem filter_handleMessagesReceived (m : MediaMessagesModel) (fromUpdate : UpdateType)
    (messages : List QVariantMap) (totalCount : Int) :
    (JumpableMessagesModel.handleMessagesReceived m fromUpdate messages totalCount).1.own.searchMessagesFilter =
      m.own.searchMessagesFilter := by
  apply (stable_filter m.own.searchMessagesFilter).handleMessagesReceived rfl
  intro _
  rw [handleInsertMessages_own]

/-- The answer to an initial search becomes the rows if there are none, and its cursor is kept in any case. -/
theorem answer_initial_spec {m : MediaMessagesModel} (hm : m.IndexExact)
    (hwaiting : m.waitingFor .updateInitial = false) {query : String} {fromMessageId limit offset : Int} {a : Slice}
    (ha : ∀ message ∈ a.messages, chatIdOf message = m.chatId ∧ messageIdOf message ≠ 0) (hd : a.ids.Nodup)
    {m' : MediaMessagesModel} {sent : List (Effect Request (List MessageData))}
    (hanswer : client.answer m (.searchChatMessages m.chatId query .updateInitial fromMessageId
      m.own.searchMessagesFilter limit offset) a = (m', sent)) :
    m'.IndexExact ∧ m'.waitingFor .updateInitial = false ∧ KeepsTarget m m' ∧
    m'.own.nextFromMessageId = a.nextFromMessageId ∧
    (∀ k, k ∈ m'.ids ↔ if m.messages = [] then k ∈ a.ids else k ∈ m.ids) ∧
    ∀ r, .send r ∈ sent → r.slice.map Prod.fst ≠ some .updateInitial := by
  have hrows := handleMessagesReceived_rows (preparesFlags m.own) .updateInitial a.messages a.totalCount
  have hsent := (handleMessagesReceived_effects m .updateInitial a.messages a.totalCount).1
  have hfilter := filter_handleMessagesReceived m .updateInitial a.messages a.totalCount
  obtain ⟨totalCount, heq⟩ := updateTotalCount_eq
    { (JumpableMessagesModel.handleMessagesReceived m .updateInitial a.messages a.totalCount).1 with
      own := { (JumpableMessagesModel.handleMessagesReceived m .updateInitial a.messages a.totalCount).1.own with
        nextFromMessageId := a.nextFromMessageId } } a.totalCount
  have hbatch : (withBatch m .updateInitial a.messages).IndexExact ∧
      (withBatch m .updateInitial a.messages).chatId = m.chatId ∧
      ∀ k, k ∈ (withBatch m .updateInitial a.messages).ids ↔ if m.messages = [] then k ∈ a.ids else k ∈ m.ids := by
    rw [withBatch, hwaiting]
    simp only [Bool.false_eq_true, false_or]
    split_ifs with hnone
    · refine ⟨indexExact_handleInsertMessages (insertsAtEnds m) hm hd,
        (handleInsertMessages_sameMembers (insertsAtEnds m) _).chatId, fun k => ?_⟩
      rw [mem_ids_handleInsertMessages (insertsAtEnds m), Slice.ids, List.mem_map]
      have hids : m.ids = [] := congrArg _ hnone
      rw [hids]
      constructor
      · rintro (hk | ⟨message, hmessage, -, hk⟩)
        · exact absurd hk List.not_mem_nil
        · exact ⟨message, hmessage, hk⟩
      · rintro ⟨message, hmessage, hk⟩
        exact Or.inr ⟨message, hmessage,
          fresh_of_no_rows hm hnone (ha message hmessage).1 (ha message hmessage).2, hk⟩
    · exact ⟨hm, rfl, fun k => Iff.rfl⟩
  change ((handleMessagesReceived m m.chatId m.own.searchMessagesFilter .updateInitial a.messages a.totalCount
    a.nextFromMessageId).1, effects (handleMessagesReceived m m.chatId m.own.searchMessagesFilter .updateInitial
      a.messages a.totalCount a.nextFromMessageId).2) = (m', sent) at hanswer
  rw [handleMessagesReceived, if_pos ⟨rfl, rfl⟩] at hanswer
  dsimp only at hanswer
  rw [heq] at hanswer
  obtain ⟨rfl, rfl⟩ := Prod.mk.inj hanswer
  refine ⟨?_, hrows.arrived, ⟨hrows.chatId.trans hbatch.2.1, hfilter⟩, rfl, ?_, ?_⟩
  · unfold IndexExact
    dsimp only
    rw [hrows.rows, hrows.messageIndexMap]
    exact hbatch.1
  · intro k
    rw [← hbatch.2.2 k, ids, ids]
    dsimp only
    rw [hrows.rows]
  · intro r hr
    rcases hsent r hr with hnone | ⟨-, -, first, -, hslice⟩
    · rw [hnone]
      rintro ⟨⟩
    · rw [hslice]
      simp

end MediaMessagesModel

/-! ### The first load -/

/-- A media model between `init` and the end of its first load. The search finds the messages of `told`, whose
updates the model has seen or which were there before `init`, and of `queued`, oldest first. -/
structure FirstLoad where
  exchange : Exchange MediaMessagesModel Request
  told : List QVariantMap
  queued : List QVariantMap
  /-- the answers to initial searches that have been handled -/
  responses : List Slice

inductive Happening where
  | messageSent (message : QVariantMap)
  | newMessage
  | countReceived (count chatId : Int) (filter : SearchMessagesFilter)
  | initialAnswered (i : Nat) (a : Slice)

namespace FirstLoad

open MediaMessagesModel

def model (s : FirstLoad) : MediaMessagesModel := s.exchange.client

def toldIds (s : FirstLoad) : List Int := s.told.map messageIdOf

/-- The ids of all messages the search finds. -/
def sentIds (s : FirstLoad) : List Int := (s.told ++ s.queued).map messageIdOf

/-- A pending request is an initial search. -/
def initialPending (s : FirstLoad) (i : Nat) : Bool :=
  match s.exchange.pending[i]? with
  | some t => t.request.slice.map Prod.fst == some .updateInitial
  | none => false

/-- The updates about new messages come in their order. -/
def step (s : FirstLoad) : Happening → FirstLoad
  | .messageSent message => { s with queued := s.queued ++ [message] }
  | .newMessage =>
      match s.queued with
      | [] => s
      | message :: queued => { s with
          exchange := client.step s.exchange (.call ⟨.newMessageReceived (chatIdOf message) message, rfl⟩)
          told := s.told ++ [message]
          queued := queued }
  | .countReceived count chatId filter => { s with
      exchange := client.step s.exchange (.call ⟨.chatMessageCountReceived count chatId filter, rfl⟩) }
  | .initialAnswered i a =>
      if s.initialPending i then
        { s with exchange := client.step s.exchange (.answer i a), responses := a :: s.responses }
      else s

/-- A message the search of the model finds. -/
def Found (m : MediaMessagesModel) (message : QVariantMap) : Prop :=
  chatIdOf message = m.chatId ∧ messageMatchesSearchFilter message m.own.searchMessagesFilter = true ∧
    messageIdOf message ≠ 0

instance (m : MediaMessagesModel) (message : QVariantMap) : Decidable (Found m message) :=
  inferInstanceAs (Decidable (_ ∧ _ ∧ _))

/-- What the server does: a new message gets the greatest id, and an answer is a part of the messages without
gaps. -/
def Served (s : FirstLoad) : Happening → Prop
  | .messageSent message => Found s.model message ∧ ∀ k ∈ s.sentIds, k < messageIdOf message
  | .initialAnswered _ a =>
      (∀ message ∈ a.messages, chatIdOf message = s.model.chatId ∧ messageIdOf message ∈ s.sentIds) ∧
      a.ids.Nodup ∧ GapFree s.sentIds a.ids
  | _ => True

instance (s : FirstLoad) : ∀ h : Happening, Decidable (s.Served h) := by
  rintro (_ | _) <;> dsimp only [Served] <;> infer_instance

/-- The model after `init`, with the messages that were there before. -/
def start (m : MediaMessagesModel) (chatId fromMessageId : Int) (checkCount force : Bool)
    (history : List QVariantMap) : FirstLoad :=
  { exchange := client.step (.start m) (.call ⟨.init chatId fromMessageId checkCount force, rfl⟩)
    told := history
    queued := []
    responses := [] }

/-- Once an initial search has been answered: its messages are rows, the rows have no gap, and the cursor is
that of an answer whose messages are rows. -/
def BatchKept (s : FirstLoad) : Prop :=
  s.responses ≠ [] →
    (∀ a ∈ s.responses, ∀ k ∈ a.ids, k ∈ s.model.ids) ∧
    GapFree s.sentIds s.model.ids ∧
    ∃ a ∈ s.responses, s.model.own.nextFromMessageId = a.nextFromMessageId ∧ ∀ k ∈ a.ids, k ∈ s.model.ids

/-- The steps that lose nothing: an answer is handled while there are no rows, or its messages are rows
already; and a message that is added behind an answer lies next to the rows. -/
def LosesNothing (s : FirstLoad) : Happening → Prop
  | .newMessage =>
      match s.queued with
      | [] => True
      | message :: _ => s.responses ≠ [] → s.model.endReached = true → Adjoins s.sentIds s.model.ids (messageIdOf message)
  | .initialAnswered i a => s.initialPending i = true → s.model.messages = [] ∨ ∀ k ∈ a.ids, k ∈ s.model.ids
  | _ => True

instance (s : FirstLoad) (h : Happening) : Decidable (s.LosesNothing h) := by
  cases h with
  | messageSent message => exact isTrue trivial
  | newMessage =>
      unfold LosesNothing
      cases s.queued with
      | nil => exact isTrue trivial
      | cons message queued =>
          refine @instDecidableForall _ _ ?_ inferInstance
          exact decidable_of_iff (s.responses.isEmpty = false) (by simp)
  | countReceived count chatId filter => exact isTrue trivial
  | initialAnswered i a => unfold LosesNothing; infer_instance

/-! ### The invariant -/

structure Invariant (s : FirstLoad) : Prop where
  indexExact : s.model.IndexExact
  waiting : s.model.waitingFor .updateInitial = false
  found : ∀ message ∈ s.told ++ s.queued, Found s.model message
  ascending : s.sentIds.Pairwise (· < ·)
  rows : ∀ k ∈ s.model.ids, k ∈ s.sentIds
  /-- an initial search asks for what the model shows -/
  pending : ∀ t ∈ s.exchange.pending, t.request.slice.map Prod.fst = some .updateInitial →
    ∃ query extra fromMessageId limit offset, t.request = .searchChatMessages s.model.chatId query extra
      fromMessageId s.model.own.searchMessagesFilter limit offset
  /-- before the first answer, the rows are the newest messages the model was told of -/
  before : s.responses = [] → (s.model.messages ≠ [] → s.model.endReached = true) ∧
    ∀ k ∈ s.model.ids, k ∈ s.toldIds ∧ ∀ h ∈ s.toldIds, k ≤ h → h ∈ s.model.ids

/-- The model after a call, and the requests that are pending then. -/
theorem step_call (x : Exchange MediaMessagesModel Request) (e : { e : Event // e.bringsSlice = false }) :
    (client.step x (.call e)).client = (handle x.client e.1).1 ∧
    ∀ t ∈ (client.step x (.call e)).pending, t ∈ x.pending ∨ .request t.request ∈ (handle x.client e.1).2 := by
  refine ⟨Exchange.client_after _ _, fun t ht => ?_⟩
  apply (Exchange.mem_pending_after ht).imp_right
  intro hsent
  exact (mem_effects_send.mp hsent).1

theorem invariant_messageSent {s : FirstLoad} (hs : s.Invariant) {message : QVariantMap}
    (hserved : s.Served (.messageSent message)) : (s.step (.messageSent message)).Invariant := by
  have hids : (s.step (.messageSent message)).sentIds = s.sentIds ++ [messageIdOf message] := by
    show (s.told ++ (s.queued ++ [message])).map messageIdOf = _
    rw [← List.append_assoc, List.map_append]
    rfl
  refine ⟨hs.indexExact, hs.waiting, ?_, ?_, ?_, hs.pending, hs.before⟩
  · intro m hm
    rcases List.mem_append.mp hm with hm | hm
    · exact hs.found m (List.mem_append_left _ hm)
    · rcases List.mem_append.mp hm with hm | hm
      · exact hs.found m (List.mem_append_right _ hm)
      · rw [List.mem_singleton.mp hm]
        exact hserved.1
  · rw [hids]
    refine List.pairwise_append.mpr ⟨hs.ascending, List.pairwise_singleton _ _, fun k hk n hn => ?_⟩
    rw [List.mem_singleton.mp hn]
    exact hserved.2 k hk
  · intro k hk
    rw [hids]
    exact List.mem_append_left _ (hs.rows k hk)

/-- The step of the update about the next message. -/
theorem step_newMessage {s : FirstLoad} {message : QVariantMap} {queued : List QVariantMap}
    (hqueued : s.queued = message :: queued) :
    s.step .newMessage = { s with
      exchange := client.step s.exchange (.call ⟨.newMessageReceived (chatIdOf message) message, rfl⟩)
      told := s.told ++ [message]
      queued := queued } := by
  rw [step, hqueued]

theorem sentIds_newMessage {s : FirstLoad} {message : QVariantMap} {queued : List QVariantMap}
    (hqueued : s.queued = message :: queued) : (s.step .newMessage).sentIds = s.sentIds := by
  rw [step_newMessage hqueued, sentIds, sentIds, hqueued, List.append_assoc]
  rfl

theorem newMessage_spec {s : FirstLoad} (hs : s.Invariant) {message : QVariantMap} {queued : List QVariantMap}
    (hqueued : s.queued = message :: queued) :
    (s.step .newMessage).model.IndexExact ∧ SameMembers s.model (s.step .newMessage).model ∧
    ∀ k, k ∈ (s.step .newMessage).model.ids ↔
      k ∈ s.model.ids ∨ (s.model.endReached = true ∧ k = messageIdOf message) := by
  have hfound : Found s.model message := hs.found message (by rw [hqueued]; simp)
  have hmodel : (s.step .newMessage).model = handleNewMessageReceived s.model (chatIdOf message) message := by
    rw [step_newMessage hqueued]
    exact (step_call s.exchange _).1
  rw [hmodel]
  exact handleNewMessageReceived_spec hs.indexExact hfound.1 hfound.2.1

/-- The messages the model was told of are older than those it will be told of. -/
theorem lt_of_told_of_queued {s : FirstLoad} (hs : s.Invariant) {h k : Int} (hh : h ∈ s.toldIds)
    (hk : k ∈ s.queued.map messageIdOf) : h < k := by
  have hpairwise := hs.ascending
  rw [sentIds, List.map_append] at hpairwise
  exact (List.pairwise_append.mp hpairwise).2.2 h hh k hk

theorem no_ids_iff (m : MediaMessagesModel) : m.messages = [] ↔ ∀ k, k ∉ m.ids := by
  rw [← List.eq_nil_iff_forall_not_mem, ids, List.map_eq_nil_iff]

theorem invariant_newMessage {s : FirstLoad} (hs : s.Invariant) : (s.step .newMessage).Invariant := by
  cases hqueued : s.queued with
  | nil =>
      rw [step, hqueued]
      exact hs
  | cons message queued =>
      obtain ⟨hindex, hmembers, hids⟩ := newMessage_spec hs hqueued
      have hsent := sentIds_newMessage hqueued
      have hmem : messageIdOf message ∈ s.queued.map messageIdOf := by rw [hqueued]; simp
      have htold : ∀ h, h ∈ (s.step .newMessage).toldIds ↔ h ∈ s.toldIds ∨ h = messageIdOf message := by
        intro h
        rw [step_newMessage hqueued, toldIds, toldIds]
        simp
      refine ⟨hindex, ?_, ?_, ?_, ?_, ?_, ?_⟩
      · rw [hmembers.waitingFor]
        exact hs.waiting
      · intro m hm
        have hm' : m ∈ s.told ++ s.queued := by
          rw [step_newMessage hqueued] at hm
          simpa [hqueued] using hm
        have hfound := hs.found m hm'
        unfold Found
        rw [hmembers.chatId, hmembers.own]
        exact hfound
      · rw [hsent]
        exact hs.ascending
      · intro k hk
        rw [hsent]
        rcases (hids k).mp hk with hk | ⟨-, rfl⟩
        · exact hs.rows k hk
        · rw [sentIds, List.map_append]
          exact List.mem_append_right _ hmem
      · intro t ht hinitial
        rw [hmembers.chatId, hmembers.own]
        rw [step_newMessage hqueued] at ht
        rcases (step_call s.exchange _).2 t ht with ht | hsent
        · exact hs.pending t ht hinitial
        · exact absurd hsent List.not_mem_nil
      · intro hresponses
        have hresponses' : s.responses = [] := by rwa [step_newMessage hqueued] at hresponses
        obtain ⟨hend, hnewest⟩ := hs.before hresponses'
        rw [hmembers.endReached]
        refine ⟨fun hne => ?_, fun k hk => ?_⟩
        · by_contra hnot
          -- without the end there are no rows, and none comes in
          have hnone : s.model.messages = [] := by
            by_contra hsome
            exact hnot (hend hsome)
          apply hne
          rw [no_ids_iff] at hnone ⊢
          intro k hk
          rcases (hids k).mp hk with hk | ⟨hreached, -⟩
          · exact hnone k hk
          · exact hnot hreached
        · rw [htold]
          rcases (hids k).mp hk with hk | ⟨hreached, rfl⟩
          · refine ⟨Or.inl (hnewest k hk).1, fun h hh hkh => (hids h).mpr ?_⟩
            rcases (htold h).mp hh with hh | rfl
            · exact Or.inl ((hnewest k hk).2 h hh hkh)
            · exact Or.inr ⟨hend fun hnone => (no_ids_iff _).mp hnone k hk, rfl⟩
          · refine ⟨Or.inr rfl, fun h hh hkh => (hids h).mpr ?_⟩
            rcases (htold h).mp hh with hh | rfl
            · exact absurd hkh (Int.not_le.mpr (lt_of_told_of_queued hs hh hmem))
            · exact Or.inr ⟨hreached, rfl⟩

theorem invariant_countReceived {s : FirstLoad} (hs : s.Invariant) (count chatId : Int)
    (filter : SearchMessagesFilter) : (s.step (.countReceived count chatId filter)).Invariant := by
  have hmodel : (s.step (.countReceived count chatId filter)).model =
      (handleChatMessageCountReceived s.model count chatId filter).1 := (step_call s.exchange _).1
  obtain ⟨hrows, htarget, -, hend, hsent⟩ := handleChatMessageCountReceived_spec s.model count chatId filter
  have hids : (s.step (.countReceived count chatId filter)).model.ids = s.model.ids := by
    rw [hmodel, ids, ids, hrows.messages]
  refine ⟨?_, ?_, ?_, hs.ascending, ?_, ?_, ?_⟩
  · rw [hmodel]
    unfold IndexExact
    rw [hrows.messages, hrows.messageIndexMap]
    exact hs.indexExact
  · rw [hmodel, hrows.waitingFor]
    exact hs.waiting
  · intro m hm
    unfold Found
    rw [hmodel, htarget.chatId, htarget.filter]
    exact hs.found m hm
  · rw [hids]
    exact hs.rows
  · intro t ht hinitial
    rw [hmodel, htarget.chatId, htarget.filter]
    rcases (step_call s.exchange _).2 t ht with ht | hrequest
    · exact hs.pending t ht hinitial
    · exact hsent.request hrequest
  · intro hresponses
    obtain ⟨hreached, hnewest⟩ := hs.before hresponses
    rw [hids]
    refine ⟨fun hne => ?_, hnewest⟩
    rw [hmodel] at hne ⊢
    rw [hrows.messages] at hne
    exact hend (hreached hne)

/-- What the answer to an initial search does. -/
theorem initialAnswered_spec {s : FirstLoad} (hs : s.Invariant) {i : Nat} {a : Slice}
    (hserved : s.Served (.initialAnswered i a)) (hinitial : s.initialPending i = true) :
    (s.step (.initialAnswered i a)).Invariant ∧
    (s.step (.initialAnswered i a)).responses = a :: s.responses ∧
    (s.step (.initialAnswered i a)).sentIds = s.sentIds ∧
    (s.step (.initialAnswered i a)).model.own.nextFromMessageId = a.nextFromMessageId ∧
    ∀ k, k ∈ (s.step (.initialAnswered i a)).model.ids ↔
      if s.model.messages = [] then k ∈ a.ids else k ∈ s.model.ids := by
  cases hget : s.exchange.pending[i]? with
  | none => simp [initialPending, hget] at hinitial
  | some t =>
      have hkind : t.request.slice.map Prod.fst = some .updateInitial := by
        simpa [initialPending, hget] using hinitial
      have hpending : t ∈ s.exchange.pending := List.mem_of_getElem? hget
      obtain ⟨query, extra, fromMessageId, limit, offset, hrequest⟩ := hs.pending t hpending hkind
      obtain rfl : extra = .updateInitial := by
        rw [hrequest] at hkind
        exact Option.some.inj hkind
      obtain ⟨messages, hids, hgap⟩ := hserved
      have hbatch : ∀ message ∈ a.messages, chatIdOf message = s.model.chatId ∧ messageIdOf message ≠ 0 := by
        intro message hmessage
        obtain ⟨sent, hsent, heq⟩ := List.mem_map.mp (messages message hmessage).2
        exact ⟨(messages message hmessage).1, heq ▸ (hs.found sent hsent).2.2⟩
      -- the client's state and effects, and the exchange after them
      obtain ⟨m', sent, hanswer⟩ : ∃ m' sent, client.answer s.model (.searchChatMessages s.model.chatId query
          .updateInitial fromMessageId s.model.own.searchMessagesFilter limit offset) a = (m', sent) := ⟨_, _, rfl⟩
      obtain ⟨hindex, hwaiting, htarget, hcursor, hrows, hfollow⟩ :=
        answer_initial_spec hs.indexExact hs.waiting hbatch hids hanswer
      have hstep : s.step (.initialAnswered i a) = { s with
          exchange := { s.exchange with pending := s.exchange.pending.eraseIdx i }.after (m', sent)
          responses := a :: s.responses } := by
        rw [step, if_pos hinitial, Client.step, hget]
        dsimp only
        rw [hrequest]
        exact congrArg (fun r => { s with
          exchange := { s.exchange with pending := s.exchange.pending.eraseIdx i }.after r
          responses := a :: s.responses }) hanswer
      have hmodel : (s.step (.initialAnswered i a)).model = m' := by
        rw [hstep]
        exact Exchange.client_after _ _
      refine ⟨⟨?_, ?_, ?_, ?_, ?_, ?_, ?_⟩, ?_, ?_, ?_, ?_⟩
      · rwa [hmodel]
      · rwa [hmodel]
      · intro m hm
        unfold Found
        rw [hmodel, htarget.chatId, htarget.filter]
        rw [hstep] at hm
        exact hs.found m hm
      · rw [hstep]
        exact hs.ascending
      · rw [hmodel, hstep]
        intro k hk
        have hk' := (hrows k).mp hk
        split_ifs at hk'
        · obtain ⟨message, hmessage, rfl⟩ := List.mem_map.mp hk'
          exact (messages message hmessage).2
        · exact hs.rows k hk'
      · intro t' ht' hinitial'
        rw [hmodel, htarget.chatId, htarget.filter]
        rw [hstep] at ht'
        rcases Exchange.mem_pending_after ht' with ht' | hsent
        · exact hs.pending t' (List.mem_of_mem_eraseIdx ht') hinitial'
        · exact absurd hinitial' (hfollow _ hsent)
      · intro hresponses
        rw [hstep] at hresponses
        exact absurd hresponses (List.cons_ne_nil _ _)
      · rw [hstep]
      · rw [hstep]
        rfl
      · rwa [hmodel]
      · rwa [hmodel]

theorem invariant_step (s : FirstLoad) (h : Happening) (hs : s.Invariant) (hserved : s.Served h) :
    (s.step h).Invariant := by
  cases h with
  | messageSent message => exact invariant_messageSent hs hserved
  | newMessage => exact invariant_newMessage hs
  | countReceived count chatId filter => exact invariant_countReceived hs count chatId filter
  | initialAnswered i a =>
      by_cases hinitial : s.initialPending i = true
      · exact (initialAnswered_spec hs hserved hinitial).1
      · rw [step, if_neg hinitial]
        exact hs

/-! ### One step -/

/-- Before the first answer the rows have no gap. -/
theorem gapFree_before {s : FirstLoad} (hs : s.Invariant) (hresponses : s.responses = []) :
    GapFree s.sentIds s.model.ids := by
  intro a ha b hb h hh hah hhb
  have hnewest := (hs.before hresponses).2
  rw [sentIds, List.map_append] at hh
  rcases List.mem_append.mp hh with htold | hqueued
  · exact (hnewest a ha).2 h htold hah
  · exact absurd hhb (Int.not_le.mpr (lt_of_told_of_queued hs (hnewest b hb).1 hqueued))

theorem batchKept_messageSent_iff {s : FirstLoad} (hs : s.Invariant) (hkept : s.BatchKept)
    {message : QVariantMap} (hserved : s.Served (.messageSent message)) :
    (s.step (.messageSent message)).BatchKept := by
  intro hresponses
  obtain ⟨hrows, hgap, hcursor⟩ := hkept hresponses
  refine ⟨hrows, ?_, hcursor⟩
  have hids : (s.step (.messageSent message)).sentIds = s.sentIds ++ [messageIdOf message] := by
    show (s.told ++ (s.queued ++ [message])).map messageIdOf = _
    rw [← List.append_assoc, List.map_append]
    rfl
  rw [hids]
  exact hgap.grow fun k hk => hserved.2 k (hs.rows k hk)

theorem batchKept_newMessage_iff {s : FirstLoad} (hs : s.Invariant) (hkept : s.BatchKept) :
    (s.step .newMessage).BatchKept ↔ s.LosesNothing .newMessage := by
  cases hqueued : s.queued with
  | nil =>
      rw [step, LosesNothing, hqueued]
      exact iff_of_true hkept trivial
  | cons message queued =>
      obtain ⟨-, hmembers, hids⟩ := newMessage_spec hs hqueued
      have hresponses : (s.step .newMessage).responses = s.responses := by rw [step_newMessage hqueued]
      have hcond : s.LosesNothing .newMessage ↔ (s.responses ≠ [] → s.model.endReached = true →
          Adjoins s.sentIds s.model.ids (messageIdOf message)) := by
        rw [LosesNothing, hqueued]
      rw [hcond, BatchKept, hresponses, sentIds_newMessage hqueued, hmembers.own]
      apply forall_congr'
      intro hne
      obtain ⟨hrows, hgap, a, ha, hcursor, hinserted⟩ := hkept hne
      have hsub : ∀ k ∈ s.model.ids, k ∈ (s.step .newMessage).model.ids := fun k hk => (hids k).mpr (Or.inl hk)
      have hgap' : GapFree s.sentIds (s.step .newMessage).model.ids ↔
          (s.model.endReached = true → Adjoins s.sentIds s.model.ids (messageIdOf message)) := by
        by_cases hend : s.model.endReached = true
        · rw [imp_iff_right hend, ← gapFree_cons_iff hgap]
          apply gapFree_congr (fun _ => Iff.rfl)
          intro k
          rw [hids, List.mem_cons, and_iff_right hend, or_comm]
        · rw [iff_true_right fun h => absurd h hend]
          apply (gapFree_congr (fun _ => Iff.rfl) _).mpr hgap
          intro k
          rw [hids, or_iff_left fun h => hend h.1]
      rw [← hgap']
      constructor
      · exact fun h => h.2.1
      · exact fun h => ⟨fun a ha k hk => hsub k (hrows a ha k hk), h, a, ha, hcursor,
          fun k hk => hsub k (hinserted k hk)⟩

theorem batchKept_countReceived {s : FirstLoad} (hkept : s.BatchKept) (count chatId : Int)
    (filter : SearchMessagesFilter) : (s.step (.countReceived count chatId filter)).BatchKept := by
  intro hresponses
  have hmodel : (s.step (.countReceived count chatId filter)).model =
      (handleChatMessageCountReceived s.model count chatId filter).1 := (step_call s.exchange _).1
  obtain ⟨hrows, -, hcursor, -, -⟩ := handleChatMessageCountReceived_spec s.model count chatId filter
  have hids : (s.step (.countReceived count chatId filter)).model.ids = s.model.ids := by
    rw [hmodel, ids, ids, hrows.messages]
  rw [hids, hmodel, hcursor]
  exact hkept hresponses

theorem batchKept_initialAnswered_iff {s : FirstLoad} (hs : s.Invariant) (hkept : s.BatchKept) {i : Nat} {a : Slice}
    (hserved : s.Served (.initialAnswered i a)) :
    (s.step (.initialAnswered i a)).BatchKept ↔ s.LosesNothing (.initialAnswered i a) := by
  by_cases hinitial : s.initialPending i = true
  swap
  · rw [step, if_neg hinitial, LosesNothing]
    exact iff_of_true hkept fun h => absurd h hinitial
  obtain ⟨-, hresponses, hsent, hcursor, hids⟩ := initialAnswered_spec hs hserved hinitial
  rw [LosesNothing, imp_iff_right hinitial, BatchKept, hresponses, hsent, hcursor,
    imp_iff_right (List.cons_ne_nil a s.responses)]
  by_cases hnone : s.model.messages = []
  · simp only [if_pos hnone] at hids
    refine iff_of_true ⟨?_, ?_, a, List.mem_cons_self .., rfl, fun k hk => (hids k).mpr hk⟩ (Or.inl hnone)
    · intro a' ha' k hk
      rcases List.mem_cons.mp ha' with rfl | hold
      · exact (hids k).mpr hk
      · -- an earlier answer whose messages are rows of no rows is empty
        have hne : s.responses ≠ [] := List.ne_nil_of_mem hold
        exact absurd ((hkept hne).1 a' hold k hk) ((no_ids_iff _).mp hnone k)
    · exact (gapFree_congr (fun _ => Iff.rfl) fun k => hids k).mpr hserved.2.2
  · simp only [if_neg hnone] at hids
    rw [or_iff_right hnone]
    constructor
    · intro h k hk
      exact (hids k).mp (h.1 a (List.mem_cons_self ..) k hk)
    · intro hloaded
      refine ⟨?_, ?_, a, List.mem_cons_self .., rfl, fun k hk => (hids k).mpr (hloaded k hk)⟩
      · intro a' ha' k hk
        rcases List.mem_cons.mp ha' with rfl | hold
        · exact (hids k).mpr (hloaded k hk)
        · exact (hids k).mpr ((hkept (List.ne_nil_of_mem hold)).1 a' hold k hk)
      · apply (gapFree_congr (fun _ => Iff.rfl) hids).mpr
        by_cases hfirst : s.responses = []
        · exact gapFree_before hs hfirst
        · exact (hkept hfirst).2.1

theorem batchKept_step_iff (s : FirstLoad) (h : Happening) (hs : s.Invariant) (hkept : s.BatchKept)
    (hserved : s.Served h) : (s.step h).BatchKept ↔ s.LosesNothing h := by
  cases h with
  | messageSent message => exact iff_of_true (batchKept_messageSent_iff hs hkept hserved) trivial
  | newMessage => exact batchKept_newMessage_iff hs hkept
  | countReceived count chatId filter => exact iff_of_true (batchKept_countReceived hkept count chatId filter) trivial
  | initialAnswered i a => exact batchKept_initialAnswered_iff hs hkept hserved

/-! ### Runs -/

/-- The messages that were in the chat before `init`, oldest first. -/
def History (m : MediaMessagesModel) (chatId : Int) (history : List QVariantMap) : Prop :=
  (∀ message ∈ history, chatIdOf message = chatId ∧
    messageMatchesSearchFilter message m.own.searchMessagesFilter = true ∧ messageIdOf message ≠ 0) ∧
  (history.map messageIdOf).Pairwise (· < ·)

instance (m : MediaMessagesModel) (chatId : Int) (history : List QVariantMap) :
    Decidable (History m chatId history) :=
  inferInstanceAs (Decidable (_ ∧ _))

theorem invariant_start {m : MediaMessagesModel} (hm : m.IndexExact) {chatId fromMessageId : Int}
    {checkCount force : Bool} (hload : alreadyLoaded m chatId fromMessageId force = false)
    {history : List QVariantMap} (hhistory : History m chatId history) :
    (start m chatId fromMessageId checkCount force history).Invariant := by
  have hinit : ∃ outputs, init m chatId fromMessageId checkCount force =
      ({ (JumpableMessagesModel.clear m).1 with chatId := chatId, highlightedMessageId := fromMessageId },
        .cleared :: outputs) ∧
      OnlyRequests (fun r => r.slice = none ∨ ∃ query extra k limit offset,
        r = .searchChatMessages chatId query extra k m.own.searchMessagesFilter limit offset) outputs := by
    unfold init
    rw [hload, if_neg Bool.false_ne_true]
    refine ⟨_, rfl, ?_⟩
    dsimp only
    split_ifs
    · exact .singleton (Or.inr ⟨_, _, _, _, _, rfl⟩)
    · exact .singleton (Or.inl rfl)
  obtain ⟨outputs, hinit, hrequests⟩ := hinit
  have hmodel : (start m chatId fromMessageId checkCount force history).model =
      { (JumpableMessagesModel.clear m).1 with chatId := chatId, highlightedMessageId := fromMessageId } :=
    (step_call (.start m) ⟨.init chatId fromMessageId checkCount force, rfl⟩).1.trans (congrArg Prod.fst hinit)
  have hnone : (start m chatId fromMessageId checkCount force history).model.messages = [] := by
    rw [hmodel]
    exact messages_clear m
  refine ⟨?_, ?_, ?_, ?_, ?_, ?_, ?_⟩
  · rw [hmodel]
    exact indexExact_clear hm
  · rw [hmodel]
    rfl
  · intro message hmessage
    unfold Found
    rw [hmodel]
    have hmessage' : message ∈ history ++ [] := hmessage
    rw [List.append_nil] at hmessage'
    exact hhistory.1 message hmessage'
  · rw [sentIds]
    show ((history ++ []).map messageIdOf).Pairwise (· < ·)
    rw [List.append_nil]
    exact hhistory.2
  · intro k hk
    exact absurd hk ((no_ids_iff _).mp hnone k)
  · intro t ht hinitial
    rw [hmodel]
    rcases (step_call (.start m) _).2 t ht with ht | hrequest
    · exact absurd ht List.not_mem_nil
    · have hrequest' : .request t.request ∈ (init m chatId fromMessageId checkCount force).2 := hrequest
      rw [hinit] at hrequest'
      rcases hrequests.request ((List.mem_cons.mp hrequest').resolve_left (by simp)) with hslice | hsearch
      · rw [hslice] at hinitial
        cases hinitial
      · exact hsearch
  · intro _
    refine ⟨fun hne => absurd hnone hne, fun k hk => ?_⟩
    exact absurd hk ((no_ids_iff _).mp hnone k)

end FirstLoad

open FirstLoad in
/-- **The first batch of a media model.** After `init` no message of an answer to an initial search is missing
among the rows, the rows have no gap and the cursor belongs to an answer that was taken, in every state, exactly
if every answer is handled while there are no rows, or its messages are rows, and every message that is added
behind an answer lies next to the rows. -/
theorem first_batch_kept_iff {m : MediaMessagesModel} (hm : m.IndexExact) {chatId fromMessageId : Int}
    {checkCount force : Bool} (hload : MediaMessagesModel.alreadyLoaded m chatId fromMessageId force = false)
    {history : List QVariantMap} (hhistory : History m chatId history) {happenings : List Happening}
    (hserved : Along FirstLoad.step Served (start m chatId fromMessageId checkCount force history) happenings) :
    (∀ happenings', happenings' <+: happenings →
      BatchKept (run FirstLoad.step (start m chatId fromMessageId checkCount force history) happenings')) ↔
      Along FirstLoad.step LosesNothing (start m chatId fromMessageId checkCount force history) happenings := by
  apply Along.always_iff_of invariant_step batchKept_step_iff (invariant_start hm hload hhistory) _ hserved
  intro hresponses
  exact absurd rfl hresponses

open FirstLoad MediaMessagesModel in
theorem first_batch_kept_run :
    BatchKept (run FirstLoad.step (start (MediaMessagesModel.new false .video) 7 0 true false
        [videoOf 7 3, videoOf 7 4])
      [.countReceived 2 7 .video, .initialAnswered 0 ⟨[videoOf 7 4, videoOf 7 3], 2, 3⟩,
        .messageSent (videoOf 7 5), .newMessage]) :=
  (first_batch_kept_iff (show IndexExact (MediaMessagesModel.new false .video) from IndexMap.Indexes.empty)
    (by decide) (by decide) (by decide)).mpr (by decide) _ (List.prefix_refl _)

open FirstLoad MediaMessagesModel in
/-- A new message between the count and the answer takes the place of the first batch. -/
theorem not_first_batch_kept :
    ¬ BatchKept (run FirstLoad.step (start (MediaMessagesModel.new false .video) 7 0 true false
        [videoOf 7 3, videoOf 7 4])
      [.countReceived 2 7 .video, .messageSent (videoOf 7 5), .newMessage,
        .initialAnswered 0 ⟨[videoOf 7 4, videoOf 7 3], 2, 3⟩]) := by
  intro hkept
  have hrow := (hkept nofun).1 _ (List.mem_cons_self ..) 4 (by decide)
  exact absurd hrow (by decide)

end YaqtLib
