import YaqtLib.Segments
import YaqtLib.SliceEnds

/-! The live tail of a conversation. New messages are dropped until the end is reached, and the end counts as
reached once the message that the chat or the topic names as its last one is a row; where that message is not
the newest one announced, there is a gap. -/

namespace YaqtLib

open Runs Requests Segments MessagesModel JumpableMessagesModel

/-! ### Conversations -/

/-- A class that shows the live tail of a conversation: the calls of its users and what TDLib tells it of the
chat or the topic, the answers to its requests and the new messages, and what is known of these functions. -/
structure Reader (Own : Type) [Virtuals Own] [ReadableVirtuals Own] [PlainReadable Own] where
  Call : Type
  call : MessagesModel Own → Call → MessagesModel Own × List Output
  answer : MessagesModel Own → Request → Slice → MessagesModel Own × List Output
  newMessage : MessagesModel Own → QVariantMap → MessagesModel Own
  /-- the message is one of the conversation of this chat -/
  Concerns : Int → QVariantMap → Prop
  /-- there is neither a search nor a sponsored message -/
  Ready : Own → Prop
  /-- the conversation is known to the model -/
  Listens : Own → Prop
  /-- the answer names the conversation -/
  accepts : MessagesModel Own → Request → Bool
  decidableConcerns : ∀ chatId message, Decidable (Concerns chatId message)
  chatIdOf_concerns : ∀ {chatId message}, Concerns chatId message → chatIdOf message = chatId
  ready_plain : ∀ {own}, Ready own → PlainReadable.Plain own
  ready_canLoadMore : ∀ {m : MessagesModel Own}, Ready m.own → Virtuals.canLoadMoreMessages m = true
  lastMessageId_own : ∀ {m m' : MessagesModel Own}, m'.own = m.own →
    ReadableVirtuals.lastMessageId m' = ReadableVirtuals.lastMessageId m
  call_spec : ∀ m c, Ready m.own → CallSpec m (call m c).1 (call m c).2
  call_ready : ∀ m c, Ready m.own → Ready (call m c).1.own
  call_listens : ∀ m c, Ready m.own → Listens m.own → Listens (call m c).1.own
  newMessage_heard : ∀ {m : MessagesModel Own} {message}, Ready m.own → Listens m.own → Concerns m.chatId message →
    newMessage m message = ReadableMessagesModel.handleNewMessageReceived m message
  newMessage_unheard : ∀ {m : MessagesModel Own} {message}, ¬ Listens m.own → newMessage m message = m
  answer_accepted : ∀ {m : MessagesModel Own} {r kind k} a, accepts m r = true → r.slice = some (kind, k) →
    answer m r a = handleMessagesReceived m kind a.messages a.totalCount
  answer_ignored : ∀ {m : MessagesModel Own} {r} a, accepts m r = false ∨ r.slice = none → answer m r a = (m, [])
  accepts_listens : ∀ {m : MessagesModel Own} {r}, accepts m r = true → Listens m.own

/-- A reader with the requests that are pending, and the messages of its conversation, oldest first: those from
before, those announced to it by updates, and those whose updates are still to come. -/
structure Conversation (Own : Type) where
  exchange : Exchange (MessagesModel Own) Request
  old : List QVariantMap
  announced : List QVariantMap
  queued : List QVariantMap

inductive TailEvent (κ : Type) where
  | messageSent (message : QVariantMap)
  | newMessage
  | call (c : κ)
  | answered (i : Nat) (a : Slice)

namespace Conversation

variable {Own : Type}

def model (s : Conversation Own) : MessagesModel Own := s.exchange.client

def announcedIds (s : Conversation Own) : List Int := s.announced.map messageIdOf

def sent (s : Conversation Own) : List QVariantMap := s.old ++ s.announced ++ s.queued

/-- The ids of all messages of the conversation. -/
def sentIds (s : Conversation Own) : List Int := s.sent.map messageIdOf

def start (m : MessagesModel Own) (old : List QVariantMap) : Conversation Own :=
  { exchange := .start m, old := old, announced := [], queued := [] }

variable [Virtuals Own] [ReadableVirtuals Own] [PlainReadable Own] (R : Reader Own)

def client : Client (MessagesModel Own) R.Call Request Slice (List MessageData) where
  call m c := ((R.call m c).1, effects (R.call m c).2)
  answer m r a := ((R.answer m r a).1, effects (R.answer m r a).2)

/-- The updates about new messages come in their order. -/
def step (s : Conversation Own) : TailEvent R.Call → Conversation Own
  | .messageSent message => { s with queued := s.queued ++ [message] }
  | .newMessage =>
      match s.queued with
      | [] => s
      | message :: queued => { s with
          exchange := { s.exchange with client := R.newMessage s.model message }
          announced := s.announced ++ [message]
          queued := queued }
  | .call c => { s with exchange := (client R).step s.exchange (.call c) }
  | .answered i a => { s with exchange := (client R).step s.exchange (.answer i a) }

/-- What the server does: a new message gets the greatest id; an answer is a part of the messages without gaps,
also together with the message it was requested at. -/
def Served (s : Conversation Own) : TailEvent R.Call → Prop
  | .messageSent message => R.Concerns s.model.chatId message ∧ messageIdOf message ≠ 0 ∧
      ∀ k ∈ s.sentIds, k < messageIdOf message
  | .answered i a =>
      match s.exchange.pending[i]? with
      | none => True
      | some t =>
          (∀ message ∈ a.messages, chatIdOf message = s.model.chatId ∧ messageIdOf message ∈ s.sentIds) ∧
          a.ids.Nodup ∧ GapFree s.sentIds a.ids ∧
          ∀ k ∈ t.request.slice.map Prod.snd, k ∈ s.sentIds → GapFree s.sentIds (k :: a.ids)
  | _ => True

/-- While rows are loaded, no answer to a request from before a `clear()` is taken, unless it was requested at
a row. -/
def Undisturbed (s : Conversation Own) : TailEvent R.Call → Prop
  | .answered i a =>
      match s.exchange.pending[i]? with
      | none => True
      | some t => t.generation ≠ s.exchange.generation → R.accepts s.model t.request = true →
          s.model.messages ≠ [] → ∀ slice ∈ t.request.slice, TakesBatch s.model slice.1 a.messages →
            slice.2 ∈ s.model.ids
  | _ => True

/-- With an answer after which the end counts as reached, no message that has been announced is newer than all
rows and the messages of the answer. -/
def EndNewest (s : Conversation Own) : TailEvent R.Call → Prop
  | .answered i a =>
      match s.exchange.pending[i]? with
      | none => True
      | some t => R.accepts s.model t.request = true → ∀ slice ∈ t.request.slice,
          PlainReadable.ReachesEnd s.model slice.1 a.messages a.totalCount →
          joinedIds s.model slice.1 a.messages ≠ [] →
          ∀ n ∈ s.announcedIds, ∃ k ∈ joinedIds s.model slice.1 a.messages, n ≤ k
  | _ => True

instance (chatId : Int) (message : QVariantMap) : Decidable (R.Concerns chatId message) :=
  R.decidableConcerns chatId message

instance (s : Conversation Own) : ∀ e, Decidable (s.Served R e)
  | .messageSent message =>
      inferInstanceAs (Decidable (R.Concerns s.model.chatId message ∧ _ ∧ ∀ k ∈ s.sentIds, k < messageIdOf message))
  | .answered i a =>
      match h : s.exchange.pending[i]? with
      | none => isTrue (by rw [Served, h]; trivial)
      | some t => decidable_of_iff
          ((∀ message ∈ a.messages, chatIdOf message = s.model.chatId ∧ messageIdOf message ∈ s.sentIds) ∧
            a.ids.Nodup ∧ GapFree s.sentIds a.ids ∧
            ∀ k ∈ t.request.slice.map Prod.snd, k ∈ s.sentIds → GapFree s.sentIds (k :: a.ids))
          (by rw [Served, h])
  | .newMessage => isTrue trivial
  | .call _ => isTrue trivial

instance (s : Conversation Own) : ∀ e, Decidable (s.Undisturbed R e)
  | .answered i a =>
      match h : s.exchange.pending[i]? with
      | none => isTrue (by rw [Undisturbed, h]; trivial)
      | some t => decidable_of_iff
          (t.generation = s.exchange.generation ∨ (R.accepts s.model t.request = true → s.model.messages ≠ [] →
            ∀ slice ∈ t.request.slice, TakesBatch s.model slice.1 a.messages → slice.2 ∈ s.model.ids))
          (by rw [Undisturbed, h]; exact Decidable.or_iff_not_imp_left)
  | .messageSent _ => isTrue trivial
  | .newMessage => isTrue trivial
  | .call _ => isTrue trivial

instance (s : Conversation Own) : ∀ e, Decidable (s.EndNewest R e)
  | .answered i a =>
      match h : s.exchange.pending[i]? with
      | none => isTrue (by rw [EndNewest, h]; trivial)
      | some t => decidable_of_iff
          (R.accepts s.model t.request = true → ∀ slice ∈ t.request.slice,
            PlainReadable.ReachesEnd s.model slice.1 a.messages a.totalCount →
            joinedIds s.model slice.1 a.messages ≠ [] →
            ∀ n ∈ s.announcedIds, ∃ k ∈ joinedIds s.model slice.1 a.messages, n ≤ k)
          (by rw [EndNewest, h])
  | .messageSent _ => isTrue trivial
  | .newMessage => isTrue trivial
  | .call _ => isTrue trivial

/-- Once the end is reached, every announced message that is newer than a row is a row. -/
def TailComplete (s : Conversation Own) : Prop :=
  s.model.endReached = true → ∀ n ∈ s.announcedIds, ∀ k ∈ s.model.ids, k < n → n ∈ s.model.ids

/-! ### The invariant -/

structure Invariant (s : Conversation Own) : Prop where
  ready : R.Ready s.model.own
  indexExact : s.model.IndexExact
  waiting : s.model.waitingFor .updateInitial = false
  concerns : ∀ message ∈ s.sent, R.Concerns s.model.chatId message ∧ messageIdOf message ≠ 0
  ascending : s.sentIds.Pairwise (· < ·)
  rows : ∀ k ∈ s.model.ids, k ∈ s.sentIds
  bounded : s.exchange.Bounded
  /-- a request that no `clear()` has overtaken is an initial one, or lies at a row -/
  pending : s.exchange.Current (AtRow s.model)
  listens : s.model.endReached = true → R.Listens s.model.own
  /-- until the end is reached the rows have no gap -/
  gapFree : s.model.endReached = false → GapFree s.sentIds s.model.ids

variable {R}

theorem sentIds_messageSent (s : Conversation Own) (message : QVariantMap) :
    (step R s (.messageSent message)).sentIds = s.sentIds ++ [messageIdOf message] := by
  show (s.old ++ s.announced ++ (s.queued ++ [message])).map messageIdOf = _
  rw [← List.append_assoc, List.map_append]
  rfl

theorem invariant_messageSent {s : Conversation Own} (hs : s.Invariant R) {message : QVariantMap}
    (hserved : s.Served R (.messageSent message)) : (step R s (.messageSent message)).Invariant R := by
  have hids := sentIds_messageSent (R := R) s message
  refine ⟨hs.ready, hs.indexExact, hs.waiting, ?_, ?_, ?_, hs.bounded, hs.pending, hs.listens, ?_⟩
  · intro m hm
    have hm' : m ∈ s.old ++ s.announced ++ (s.queued ++ [message]) := hm
    rw [← List.append_assoc] at hm'
    rcases List.mem_append.mp hm' with hm' | hm'
    · exact hs.concerns m hm'
    · rw [List.mem_singleton.mp hm']
      exact ⟨hserved.1, hserved.2.1⟩
  · rw [hids]
    refine List.pairwise_append.mpr ⟨hs.ascending, List.pairwise_singleton _ _, fun k hk n hn => ?_⟩
    rw [List.mem_singleton.mp hn]
    exact hserved.2.2 k hk
  · intro k hk
    rw [hids]
    exact List.mem_append_left _ (hs.rows k hk)
  · intro hend
    rw [hids]
    exact (hs.gapFree hend).grow fun k hk => hserved.2.2 k (hs.rows k hk)

/-- A new message becomes a row exactly if the end is reached. -/
theorem newMessage_spec {s : Conversation Own} (hs : s.Invariant R) {message : QVariantMap}
    (hconcerns : R.Concerns s.model.chatId message) :
    (R.newMessage s.model message).IndexExact ∧ SameMembers s.model (R.newMessage s.model message) ∧
    ∀ k, k ∈ (R.newMessage s.model message).ids ↔
      k ∈ s.model.ids ∨ (s.model.endReached = true ∧ k = messageIdOf message) := by
  by_cases hlistens : R.Listens s.model.own
  swap
  · rw [R.newMessage_unheard hlistens]
    refine ⟨hs.indexExact, .refl _, fun k => ?_⟩
    rw [or_iff_left fun h => hlistens (hs.listens h.1)]
  have hends := PlainReadable.insertsAtEnds (R.ready_plain hs.ready)
  rw [R.newMessage_heard hs.ready hlistens hconcerns]
  refine ⟨indexExact_handleNewMessageReceived hends hs.indexExact message,
    handleNewMessageReceived_sameMembers hends message, fun k => ?_⟩
  rw [ReadableMessagesModel.handleNewMessageReceived, R.ready_canLoadMore hs.ready]
  dsimp only
  by_cases hcontains : s.model.messageIndexMap.contains (messageIdOf message) = true
  · rw [if_pos hcontains]
    constructor
    · exact Or.inl
    · rintro (hk | ⟨-, rfl⟩)
      · exact hk
      · exact (contains_iff_mem_ids hs.indexExact _).mp hcontains
  rw [if_neg hcontains, Bool.true_and]
  by_cases hend : s.model.endReached = true
  · rw [if_pos hend, (setMessagesAlbum_same _ _).ids_eq, mem_ids_insertMessages hends, List.map_singleton,
      processMessageData_messageId, List.mem_singleton, and_iff_right hend]
    rfl
  · rw [if_neg hend, or_iff_left fun h => hend h.1]

theorem step_newMessage {s : Conversation Own} {message : QVariantMap} {queued : List QVariantMap}
    (hqueued : s.queued = message :: queued) : step R s .newMessage = { s with
      exchange := { s.exchange with client := R.newMessage s.model message }
      announced := s.announced ++ [message]
      queued := queued } := by
  rw [step, hqueued]

theorem sent_newMessage (s : Conversation Own) : (step R s .newMessage).sent = s.sent := by
  cases hqueued : s.queued with
  | nil => rw [step, hqueued]
  | cons message queued =>
      rw [step_newMessage hqueued, sent, sent, hqueued]
      simp

theorem concerns_queued {s : Conversation Own} (hs : s.Invariant R) {message : QVariantMap}
    {queued : List QVariantMap} (hqueued : s.queued = message :: queued) : R.Concerns s.model.chatId message :=
  (hs.concerns message (by rw [sent, hqueued]; simp)).1

theorem invariant_newMessage {s : Conversation Own} (hs : s.Invariant R) : (step R s .newMessage).Invariant R := by
  have hsent := sent_newMessage (R := R) s
  cases hqueued : s.queued with
  | nil =>
      rw [step, hqueued]
      exact hs
  | cons message queued =>
      obtain ⟨hindex, hmembers, hids⟩ := newMessage_spec hs (concerns_queued hs hqueued)
      have hmodel : (step R s .newMessage).model = R.newMessage s.model message := by
        rw [step_newMessage hqueued]
        rfl
      have hmem : messageIdOf message ∈ s.sentIds := by
        rw [sentIds, sent, hqueued]
        simp
      refine ⟨?_, ?_, ?_, ?_, ?_, ?_, ?_, ?_, ?_, ?_⟩
      · rw [hmodel, hmembers.own]
        exact hs.ready
      · rw [hmodel]
        exact hindex
      · rw [hmodel, hmembers.waitingFor]
        exact hs.waiting
      · rw [hmodel, hmembers.chatId, hsent]
        exact hs.concerns
      · rw [sentIds, hsent]
        exact hs.ascending
      · rw [hmodel, sentIds, hsent]
        intro k hk
        rcases (hids k).mp hk with hk | ⟨-, rfl⟩
        · exact hs.rows k hk
        · exact hmem
      · rw [step_newMessage hqueued]
        exact hs.bounded
      · rw [hmodel, step_newMessage hqueued]
        intro t ht hgeneration kind k hslice
        apply (hs.pending t ht hgeneration kind k hslice).imp_right
        exact fun hk => (hids k).mpr (Or.inl hk)
      · rw [hmodel, hmembers.endReached, hmembers.own]
        exact hs.listens
      · rw [hmodel, hmembers.endReached, sentIds, hsent]
        intro hend
        apply (gapFree_congr (fun _ => Iff.rfl) _).mpr (hs.gapFree hend)
        intro k
        rw [hids, or_iff_left fun h => absurd (hend ▸ h.1) Bool.false_ne_true]

theorem invariant_call {s : Conversation Own} (hs : s.Invariant R) (c : R.Call) :
    (step R s (.call c)).Invariant R := by
  have hmodel : (step R s (.call c)).model = (R.call s.model c).1 := Exchange.client_after _ _
  have hspec := R.call_spec s.model c hs.ready
  have hsent : ∀ r, .send r ∈ effects (R.call s.model c).2 → AtRow (R.call s.model c).1 r :=
    fun r hr => hspec.requests r (mem_effects_send.mp hr).1
  refine ⟨?_, ?_, ?_, ?_, hs.ascending, ?_, hs.bounded.after _, ?_, ?_, ?_⟩
  · rw [hmodel]
    exact R.call_ready s.model c hs.ready
  · rw [hmodel]
    rcases hspec.rows with ⟨hrows, hindex, -⟩ | ⟨-, -, hindex, -⟩
    · unfold IndexExact
      rw [hrows, hindex]
      exact hs.indexExact
    · exact hindex hs.indexExact
  · rw [hmodel]
    exact hspec.waiting hs.waiting
  · rw [hmodel, hspec.chatId]
    exact hs.concerns
  · rw [hmodel]
    intro k hk
    rcases hspec.rows with ⟨hrows, -, -⟩ | ⟨-, hrows, -, -⟩
    · rw [ids, hrows] at hk
      exact hs.rows k hk
    · rw [ids, hrows] at hk
      exact absurd hk List.not_mem_nil
  · rw [hmodel]
    apply Exchange.current_foldl_perform
    · exact hs.bounded
    · rcases hspec.rows with ⟨hrows, -, -⟩ | ⟨hcleared, -, -, -⟩
      · left
        intro t ht hgeneration kind k hslice
        rw [ids, hrows]
        exact hs.pending t ht hgeneration kind k hslice
      · exact Or.inr (restarts_effects.mpr hcleared)
    · exact hsent
  · rw [hmodel]
    intro hend
    rcases hspec.rows with ⟨-, -, hend'⟩ | ⟨-, -, -, hend'⟩
    · exact R.call_listens s.model c hs.ready (hs.listens (hend' ▸ hend))
    · exact absurd (hend'.symm.trans hend) Bool.false_ne_true
  · rw [hmodel]
    intro hend
    rcases hspec.rows with ⟨hrows, -, hend'⟩ | ⟨-, hrows, -, -⟩
    · rw [ids, hrows]
      exact hs.gapFree (hend' ▸ hend)
    · rw [ids, hrows]
      exact gapFree_nil _

/-! ### Answers -/

/-- The answer of a pending request for a slice, as the server gives it, that the reader accepts. -/
structure Answers (R : Reader Own) (s : Conversation Own) (i : Nat) (a : Slice) (t : Ticket Request)
    (kind : UpdateType) (k : Int) : Prop where
  get : s.exchange.pending[i]? = some t
  accepts : R.accepts s.model t.request = true
  slice : t.request.slice = some (kind, k)
  sent : ∀ message ∈ a.messages, chatIdOf message = s.model.chatId ∧ messageIdOf message ∈ s.sentIds
  nodup : a.ids.Nodup
  gapFree : GapFree s.sentIds a.ids
  touches : k ∈ s.sentIds → GapFree s.sentIds (k :: a.ids)
  undisturbed : t.generation ≠ s.exchange.generation → s.model.messages ≠ [] → TakesBatch s.model kind a.messages →
    k ∈ s.model.ids

/-- An answer is accepted, or nothing happens to the model. -/
theorem answers_or_ignored {s : Conversation Own} {i : Nat} {a : Slice}
    (hserved : s.Served R (.answered i a)) (hundisturbed : s.Undisturbed R (.answered i a)) :
    (∃ t kind k, Answers R s i a t kind k) ∨
      (s.EndNewest R (.answered i a) ∧ ∃ pending, pending ⊆ s.exchange.pending ∧
        step R s (.answered i a) = { s with exchange := { s.exchange with pending := pending } }) := by
  rw [Served] at hserved
  rw [Undisturbed] at hundisturbed
  rw [EndNewest, step, Client.step]
  cases hget : s.exchange.pending[i]? with
  | none => exact Or.inr ⟨trivial, s.exchange.pending, List.Subset.refl _, rfl⟩
  | some t =>
      rw [hget] at hserved hundisturbed
      dsimp only at hserved hundisturbed ⊢
      obtain ⟨hsent, hnodup, hgap, htouches⟩ := hserved
      have hignored : ∀ _ : R.accepts s.model t.request = false ∨ t.request.slice = none,
          Exchange.after { s.exchange with pending := s.exchange.pending.eraseIdx i }
            ((client R).answer s.exchange.client t.request a) =
          { s.exchange with pending := s.exchange.pending.eraseIdx i } := by
        intro h
        show Exchange.after _ ((R.answer s.model t.request a).1, effects (R.answer s.model t.request a).2) = _
        rw [R.answer_ignored a h]
        rfl
      by_cases haccepts : R.accepts s.model t.request = true
      · cases hslice : t.request.slice with
        | some slice =>
            obtain ⟨kind, k⟩ := slice
            refine Or.inl ⟨t, kind, k, hget, haccepts, hslice, hsent, hnodup, hgap, ?_, ?_⟩
            · exact htouches k (by rw [hslice]; rfl)
            · intro hgeneration hrows
              exact hundisturbed hgeneration haccepts hrows (kind, k) (by rw [hslice]; rfl)
        | none =>
            refine Or.inr ⟨by rintro _ slice ⟨⟩, s.exchange.pending.eraseIdx i,
              List.eraseIdx_subset, ?_⟩
            rw [hignored (Or.inr hslice)]
      · refine Or.inr ⟨fun h => absurd h haccepts, s.exchange.pending.eraseIdx i, List.eraseIdx_subset, ?_⟩
        rw [hignored (Or.inl (Bool.eq_false_of_not_eq_true haccepts))]

variable {s : Conversation Own} {i : Nat} {a : Slice} {t : Ticket Request} {kind : UpdateType} {k : Int}

/-- The rows with the answer: every message of it that is not loaded comes in. -/
theorem mem_joinedIds (hs : s.Invariant R) (ha : Answers R s i a t kind k) (x : Int) :
    x ∈ joinedIds s.model kind a.messages ↔
      x ∈ s.model.ids ∨ ((s.model.waitingFor kind = true ∨ s.model.messages = []) ∧ x ∈ a.ids) := by
  rw [joinedIds, List.mem_append]
  by_cases haccepts : s.model.waitingFor kind = true ∨ s.model.messages = []
  swap
  · rw [if_neg haccepts, or_iff_left List.not_mem_nil, or_iff_left fun h => haccepts h.1]
  rw [if_pos haccepts, and_iff_right haccepts, List.mem_map, Slice.ids, List.mem_map]
  constructor
  · rintro (hx | ⟨message, hmessage, hx⟩)
    · exact Or.inl hx
    · exact Or.inr ⟨message, (List.mem_filter.mp hmessage).1, hx⟩
  · rintro (hx | ⟨message, hmessage, rfl⟩)
    · exact Or.inl hx
    · by_cases hloaded : messageIdOf message ∈ s.model.ids
      · exact Or.inl hloaded
      · right
        refine ⟨message, List.mem_filter.mpr ⟨hmessage, decide_eq_true ?_⟩, rfl⟩
        obtain ⟨hchat, hsent⟩ := ha.sent message hmessage
        obtain ⟨other, hother, heq⟩ := List.mem_map.mp hsent
        exact ⟨heq ▸ (hs.concerns other hother).2, hchat, (not_mem_ids_iff hs.indexExact _).mpr hloaded⟩

/-- Beside rows, a batch that brings a message was requested at one of them. -/
theorem at_row (hs : s.Invariant R) (ha : Answers R s i a t kind k) (hrows : s.model.messages ≠ [])
    (htakes : TakesBatch s.model kind a.messages) : k ∈ s.model.ids := by
  by_cases hgeneration : t.generation = s.exchange.generation
  · rcases hs.pending t (List.mem_of_getElem? ha.get) hgeneration kind k ha.slice with rfl | hk
    · -- an initial slice is never waited for
      rcases htakes.1 with hwaiting | hnone
      · exact absurd (hwaiting.symm.trans hs.waiting) (by simp)
      · exact absurd hnone hrows
    · exact hk
  · exact ha.undisturbed hgeneration hrows htakes

/-- Rows without a gap have none with the answer. -/
theorem gapFree_joinedIds (hs : s.Invariant R) (ha : Answers R s i a t kind k)
    (hgap : GapFree s.sentIds s.model.ids) : GapFree s.sentIds (joinedIds s.model kind a.messages) := by
  by_cases htakes : TakesBatch s.model kind a.messages
  swap
  · exact (gapFree_congr (fun _ => Iff.rfl) (joinedIds_of_not_takes htakes)).mpr hgap
  have hmem : ∀ x, x ∈ joinedIds s.model kind a.messages ↔ x ∈ s.model.ids ++ a.ids := by
    intro x
    rw [mem_joinedIds hs ha, and_iff_right htakes.1, List.mem_append]
  apply (gapFree_congr (fun _ => Iff.rfl) hmem).mpr
  by_cases hrows : s.model.messages = []
  · have hids : s.model.ids = [] := congrArg _ hrows
    rw [hids]
    exact ha.gapFree
  · have hk := at_row hs ha hrows htakes
    exact hgap.union hk (ha.touches (hs.rows k hk))

/-- With the end reached and rows loaded, an answer brings nothing that the tail misses. -/
theorem complete_of_endReached (hs : s.Invariant R) (ha : Answers R s i a t kind k)
    (hcomplete : s.TailComplete) (hend : s.model.endReached = true) (hrows : s.model.messages ≠ [])
    {n x : Int} (hn : n ∈ s.announcedIds) (hx : x ∈ joinedIds s.model kind a.messages) (hlt : x < n) :
    n ∈ joinedIds s.model kind a.messages := by
  have hjoin := mem_joinedIds hs ha
  have hsent : n ∈ s.sentIds := by
    rw [sentIds, sent, List.map_append, List.map_append]
    exact List.mem_append_left _ (List.mem_append_right _ hn)
  by_cases htakes : TakesBatch s.model kind a.messages
  swap
  · rw [joinedIds_of_not_takes htakes] at hx ⊢
    exact hcomplete hend n hn x hx hlt
  have hk := at_row hs ha hrows htakes
  rcases lt_or_ge k n with hkn | hnk
  · exact (hjoin n).mpr (Or.inl (hcomplete hend n hn k hk hkn))
  · rcases (hjoin x).mp hx with hx | ⟨haccepts, hx⟩
    · exact (hjoin n).mpr (Or.inl (hcomplete hend n hn x hx hlt))
    · -- between the answer and the row it was requested at
      have hmem : n ∈ k :: a.ids := ha.touches (hs.rows k hk) x (List.mem_cons_of_mem _ hx) k
        (List.mem_cons_self ..) n hsent (le_of_lt hlt) hnk
      rcases List.mem_cons.mp hmem with rfl | hmem
      · exact (hjoin n).mpr (Or.inl hk)
      · exact (hjoin n).mpr (Or.inr ⟨haccepts, hmem⟩)

variable [RequestingVirtuals Own]

/-- What an accepted answer does. -/
theorem answered_spec (hs : s.Invariant R) (ha : Answers R s i a t kind k) :
    (step R s (.answered i a)).Invariant R ∧
    (∀ x, x ∈ (step R s (.answered i a)).model.ids ↔ x ∈ joinedIds s.model kind a.messages) ∧
    ((step R s (.answered i a)).model.endReached = true ↔
      PlainReadable.ReachesEnd s.model kind a.messages a.totalCount) := by
  have hplain := R.ready_plain hs.ready
  have hends := PlainReadable.insertsAtEnds hplain
  have hmembers := withBatch_sameMembers hends kind a.messages
  have hrows := handleMessagesReceived_rows (PlainReadable.preparesFlags hplain) kind a.messages a.totalCount
  have hown := PlainReadable.own_handleMessagesReceived hplain kind a.messages a.totalCount
  have hend := PlainReadable.endReached_handleMessagesReceived hs.indexExact hplain (fun m' h => R.lastMessageId_own h)
    kind ha.nodup a.totalCount
  have hsent := (handleMessagesReceived_effects s.model kind a.messages a.totalCount).1
  have hmem : ∀ x, x ∈ (handleMessagesReceived s.model kind a.messages a.totalCount).1.ids ↔
      x ∈ joinedIds s.model kind a.messages := by
    intro x
    rw [ids, hrows.rows]
    exact mem_ids_withBatch hends kind a.messages x
  have hstep : step R s (.answered i a) = { s with
      exchange := { s.exchange with pending := s.exchange.pending.eraseIdx i }.after
        ((handleMessagesReceived s.model kind a.messages a.totalCount).1,
          effects (handleMessagesReceived s.model kind a.messages a.totalCount).2) } := by
    rw [step, Client.step, ha.get]
    show { s with exchange := Exchange.after _ ((R.answer s.model t.request a).1,
      effects (R.answer s.model t.request a).2) } = _
    rw [R.answer_accepted a ha.accepts ha.slice]
  have hmodel : (step R s (.answered i a)).model =
      (handleMessagesReceived s.model kind a.messages a.totalCount).1 := by
    rw [hstep]
    exact Exchange.client_after _ _
  rw [hmodel]
  refine ⟨⟨?_, ?_, ?_, ?_, ?_, ?_, ?_, ?_, ?_, ?_⟩, hmem, hend⟩
  · rw [hmodel, hown]
    exact hs.ready
  · rw [hmodel]
    unfold IndexExact
    rw [hrows.rows, hrows.messageIndexMap]
    exact indexExact_withBatch hends hs.indexExact kind ha.nodup
  · rw [hmodel]
    by_cases hkind : UpdateType.updateInitial = kind
    · rw [hkind]
      exact hrows.arrived
    · rw [hrows.waiting _ hkind (by rintro ⟨⟩), hmembers.waitingFor]
      exact hs.waiting
  · rw [hmodel, hrows.chatId, hmembers.chatId, hstep]
    exact hs.concerns
  · rw [hstep]
    exact hs.ascending
  · rw [hmodel, hstep]
    intro x hx
    rcases (mem_joinedIds hs ha x).mp ((hmem x).mp hx) with hx | ⟨-, hx⟩
    · exact hs.rows x hx
    · obtain ⟨message, hmessage, rfl⟩ := List.mem_map.mp hx
      exact (ha.sent message hmessage).2
  · rw [hstep]
    apply Exchange.Bounded.after
    exact fun t' ht' => hs.bounded t' (List.mem_of_mem_eraseIdx ht')
  · rw [hmodel, hstep]
    apply Exchange.current_foldl_perform
    · exact fun t' ht' => hs.bounded t' (List.mem_of_mem_eraseIdx ht')
    · left
      intro t' ht' hgeneration kind' k' hslice'
      apply (hs.pending t' (List.mem_of_mem_eraseIdx ht') hgeneration kind' k' hslice').imp_right
      exact fun hk' => (hmem k').mpr (List.mem_append_left _ hk')
    · intro r hr kind' k' hslice'
      rcases hsent r hr with hnone | ⟨-, haccepts, first, hfirst, hreload⟩
      · exact absurd (hnone.symm.trans hslice') (by rintro ⟨⟩)
      · -- more is loaded at a row that has come in
        right
        obtain ⟨message, hmessage, hfresh, hid⟩ := mem_ids_addedMessages.mp (List.mem_map_of_mem hfirst)
        rw [hreload] at hslice'
        rw [← (Prod.mk.inj (Option.some.inj hslice')).2, hmem, joinedIds, if_pos haccepts]
        apply List.mem_append_right
        exact List.mem_map.mpr ⟨message, List.mem_filter.mpr ⟨hmessage, decide_eq_true hfresh⟩, hid⟩
  · rw [hmodel, hown]
    exact fun _ => R.accepts_listens ha.accepts
  · rw [hmodel, hstep]
    intro hnot
    have hend' : s.model.endReached = false := by
      apply Bool.eq_false_of_not_eq_true
      intro hreached
      exact absurd (hend.mpr (Or.inl hreached)) (by rw [hnot]; exact Bool.false_ne_true)
    exact (gapFree_congr (fun _ => Iff.rfl) hmem).mpr (gapFree_joinedIds hs ha (hs.gapFree hend'))

theorem tailComplete_answered_iff (hs : s.Invariant R) (ha : Answers R s i a t kind k)
    (hcomplete : s.TailComplete) :
    (step R s (.answered i a)).TailComplete ↔ s.EndNewest R (.answered i a) := by
  obtain ⟨-, hids, hend⟩ := answered_spec hs ha
  have hannounced : (step R s (.answered i a)).announcedIds = s.announcedIds := rfl
  have hcond : s.EndNewest R (.answered i a) ↔
      (PlainReadable.ReachesEnd s.model kind a.messages a.totalCount → joinedIds s.model kind a.messages ≠ [] →
        ∀ n ∈ s.announcedIds, ∃ x ∈ joinedIds s.model kind a.messages, n ≤ x) := by
    rw [EndNewest, ha.get]
    dsimp only
    rw [ha.slice, imp_iff_right ha.accepts]
    constructor
    · exact fun h => h (kind, k) rfl
    · rintro h slice hslice
      rw [← Option.some.inj hslice]
      exact h
  have hafter : (step R s (.answered i a)).TailComplete ↔
      (PlainReadable.ReachesEnd s.model kind a.messages a.totalCount → ∀ n ∈ s.announcedIds,
        ∀ x ∈ joinedIds s.model kind a.messages, x < n → n ∈ joinedIds s.model kind a.messages) := by
    rw [TailComplete, hend, hannounced]
    simp only [hids]
  rw [hcond, hafter]
  apply forall_congr'
  intro hreaches
  constructor
  · intro h hne n hn
    obtain ⟨x, hx⟩ := List.exists_mem_of_ne_nil _ hne
    rcases lt_or_ge x n with hlt | hge
    · exact ⟨n, h n hn x hx hlt, le_refl n⟩
    · exact ⟨x, hx, hge⟩
  · intro h n hn x hx hlt
    by_cases hloaded : s.model.endReached = true ∧ s.model.messages ≠ []
    · exact complete_of_endReached hs ha hcomplete hloaded.1 hloaded.2 hn hx hlt
    · -- the rows with the answer have no gap
      have hgap : GapFree s.sentIds (joinedIds s.model kind a.messages) := by
        apply gapFree_joinedIds hs ha
        by_cases hend' : s.model.endReached = true
        · have hnone : s.model.messages = [] := by
            by_contra hrows
            exact hloaded ⟨hend', hrows⟩
          have hids : s.model.ids = [] := congrArg _ hnone
          rw [hids]
          exact gapFree_nil _
        · exact hs.gapFree (Bool.eq_false_of_not_eq_true hend')
      obtain ⟨y, hy, hny⟩ := h (List.ne_nil_of_mem hx) n hn
      have hsent : n ∈ s.sentIds := by
        rw [sentIds, sent, List.map_append, List.map_append]
        exact List.mem_append_left _ (List.mem_append_right _ hn)
      exact hgap x hx y hy n hsent (le_of_lt hlt) hny

/-! ### One step -/

theorem invariant_answered {s : Conversation Own} (hs : s.Invariant R) {i : Nat} {a : Slice}
    (hserved : s.Served R (.answered i a)) (hundisturbed : s.Undisturbed R (.answered i a)) :
    (step R s (.answered i a)).Invariant R := by
  rcases answers_or_ignored hserved hundisturbed with ⟨t, kind, k, ha⟩ | ⟨-, pending, hsub, hstep⟩
  · exact (answered_spec hs ha).1
  · rw [hstep]
    exact ⟨hs.ready, hs.indexExact, hs.waiting, hs.concerns, hs.ascending, hs.rows,
      fun t ht => hs.bounded t (hsub ht), fun t ht => hs.pending t (hsub ht), hs.listens, hs.gapFree⟩

theorem invariant_step (s : Conversation Own) (e : TailEvent R.Call) (hs : s.Invariant R)
    (he : s.Served R e ∧ s.Undisturbed R e) : (step R s e).Invariant R := by
  cases e with
  | messageSent message => exact invariant_messageSent hs he.1
  | newMessage => exact invariant_newMessage hs
  | call c => exact invariant_call hs c
  | answered i a => exact invariant_answered hs he.1 he.2

omit [RequestingVirtuals Own] in
/-- A new message that is announced with the end reached becomes the newest row. -/
theorem tailComplete_newMessage {s : Conversation Own} (hs : s.Invariant R) (hcomplete : s.TailComplete) :
    (step R s .newMessage).TailComplete := by
  cases hqueued : s.queued with
  | nil =>
      rw [step, hqueued]
      exact hcomplete
  | cons message queued =>
      obtain ⟨-, hmembers, hids⟩ := newMessage_spec hs (concerns_queued hs hqueued)
      have hmodel : (step R s .newMessage).model = R.newMessage s.model message := by
        rw [step_newMessage hqueued]
        rfl
      have hannounced : (step R s .newMessage).announcedIds = s.announcedIds ++ [messageIdOf message] := by
        rw [step_newMessage hqueued, announcedIds, announcedIds, List.map_append]
        rfl
      have holder : ∀ n ∈ s.announcedIds, n < messageIdOf message := by
        intro n hn
        have hpairwise := hs.ascending
        rw [sentIds, sent, hqueued, List.map_append, List.map_append] at hpairwise
        exact (List.pairwise_append.mp hpairwise).2.2 n (List.mem_append_right _ hn) _ (List.mem_cons_self ..)
      rw [TailComplete, hmodel, hmembers.endReached, hannounced]
      intro hend n hn k hk hkn
      rw [hids]
      rcases List.mem_append.mp hn with hn | hn
      · rcases (hids k).mp hk with hk | ⟨-, rfl⟩
        · exact Or.inl (hcomplete hend n hn k hk hkn)
        · exact absurd (holder n hn) (not_lt_of_gt hkn)
      · exact Or.inr ⟨hend, List.mem_singleton.mp hn⟩

omit [RequestingVirtuals Own] in
theorem tailComplete_call {s : Conversation Own} (hs : s.Invariant R) (hcomplete : s.TailComplete) (c : R.Call) :
    (step R s (.call c)).TailComplete := by
  have hmodel : (step R s (.call c)).model = (R.call s.model c).1 := Exchange.client_after _ _
  have hannounced : (step R s (.call c)).announcedIds = s.announcedIds := rfl
  rw [TailComplete, hmodel, hannounced]
  rcases (R.call_spec s.model c hs.ready).rows with ⟨hrows, -, hend⟩ | ⟨-, -, -, hend⟩
  · rw [hend, ids, hrows]
    exact hcomplete
  · intro hreached
    exact absurd (hend.symm.trans hreached) Bool.false_ne_true

theorem tailComplete_step_iff (s : Conversation Own) (e : TailEvent R.Call) (hs : s.Invariant R)
    (hcomplete : s.TailComplete) (he : s.Served R e ∧ s.Undisturbed R e) :
    (step R s e).TailComplete ↔ s.EndNewest R e := by
  cases e with
  | messageSent message => exact iff_of_true hcomplete trivial
  | newMessage => exact iff_of_true (tailComplete_newMessage hs hcomplete) trivial
  | call c => exact iff_of_true (tailComplete_call hs hcomplete c) trivial
  | answered i a =>
      rcases answers_or_ignored he.1 he.2 with ⟨t, kind, k, ha⟩ | ⟨hnewest, pending, -, hstep⟩
      · exact tailComplete_answered_iff hs ha hcomplete
      · rw [hstep]
        exact iff_of_true hcomplete hnewest

/-! ### Runs -/

/-- The messages that were in the conversation before, oldest first. -/
def History (R : Reader Own) (chatId : Int) (old : List QVariantMap) : Prop :=
  (∀ message ∈ old, R.Concerns chatId message ∧ messageIdOf message ≠ 0) ∧ (old.map messageIdOf).Pairwise (· < ·)

instance (chatId : Int) (old : List QVariantMap) : Decidable (History R chatId old) :=
  inferInstanceAs (Decidable (_ ∧ _))

/-- **Run rule.** From a new model, as long as no overtaken answer is taken beside rows, the tail is complete in
every state exactly if the end counts as reached only with the newest message announced. -/
theorem tailComplete_run_iff {chatId : Int} {own : Own} (hready : R.Ready own) {old : List QVariantMap}
    (hold : History R chatId old) {es : List (TailEvent R.Call)}
    (hserved : Along (step R) (Served R) (start (MessagesModel.initial chatId own) old) es)
    (hundisturbed : Along (step R) (Undisturbed R) (start (MessagesModel.initial chatId own) old) es) :
    (∀ es', es' <+: es → TailComplete (run (step R) (start (MessagesModel.initial chatId own) old) es')) ↔
      Along (step R) (EndNewest R) (start (MessagesModel.initial chatId own) old) es := by
  apply Along.always_iff_of invariant_step tailComplete_step_iff _ _ (hserved.and hundisturbed)
  · have hsent : (start (MessagesModel.initial chatId own) old).sent = old := by
      show old ++ [] ++ [] = old
      rw [List.append_nil, List.append_nil]
    refine ⟨hready, IndexMap.Indexes.empty, rfl, ?_, ?_, fun k hk => absurd hk List.not_mem_nil,
      fun t ht => absurd ht List.not_mem_nil, fun t ht => absurd ht List.not_mem_nil, nofun, fun _ => gapFree_nil _⟩
    · rw [hsent]
      exact hold.1
    · rw [sentIds, hsent]
      exact hold.2
  · intro hend
    exact absurd hend Bool.false_ne_true

end Conversation

end YaqtLib
