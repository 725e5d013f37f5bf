import YaqtLib.SliceEnds

/-! The flags of a message model that waits for slices. A flag is taken down by an answer that reaches the model and
by `clear()`; an error of TDLib reaches no model, and an answer whose chat or filter is no more the model's is
passed over. -/

namespace YaqtLib

open Runs Requests MessagesModel JumpableMessagesModel

/-- The kind of slice a request asks for. -/
def Request.kind (r : Request) : Option UpdateType := r.slice.map Prod.fst

theorem Request.isSome_slice_of_kind {r : Request} {t : UpdateType} (h : r.kind = some t) : r.slice.isSome = true := by
  obtain ⟨p, hp, -⟩ := Option.map_eq_some_iff.mp h
  rw [hp]
  rfl

/-- A class of models as a client whose requests may fail: an error is no event of a model. -/
def responseClient {Own Event : Type} (handle : MessagesModel Own → Event → MessagesModel Own × List Output)
    (answerTo : Request → Slice → Option Event) :
    Client (MessagesModel Own) Event Request (Option Slice) (List MessageData) where
  call m e := ((handle m e).1, effects (handle m e).2)
  answer m r a :=
    match a.bind (answerTo r) with
    | none => (m, [])
    | some e => ((handle m e).1, effects (handle m e).2)

/-- The virtual functions leave the flags alone, and a function that loads sends its request if the model can load. -/
class WaitingVirtuals (Own : Type) [Virtuals Own] extends RequestingVirtuals Own where
  CanLoad : Own → Prop
  appendMessages_waitingFor : ∀ (m : MessagesModel Own) newMessages,
    (Virtuals.appendMessages m newMessages).waitingFor = m.waitingFor
  prependMessages_waitingFor : ∀ (m : MessagesModel Own) newMessages,
    (Virtuals.prependMessages m newMessages).waitingFor = m.waitingFor
  handlePrepare_waitingFor : ∀ (m : MessagesModel Own) totalCount fromUpdate,
    (Virtuals.handlePrepareMessagesReceived m totalCount fromUpdate).1.waitingFor = m.waitingFor
  loadMessages_sends : ∀ (m : MessagesModel Own) extra fromMessageId offset,
    (∃ r, .request r ∈ Virtuals.loadMessages m extra fromMessageId offset ∧ r.kind = some extra) ↔ CanLoad m.own
  loadMoreHistoryImpl_sends : ∀ m : MessagesModel Own,
    (∃ r, .request r ∈ Virtuals.loadMoreHistoryImpl m ∧ r.kind = some .updatePreviousSlice) ↔ CanLoad m.own
  loadMoreFutureImpl_sends : ∀ m : MessagesModel Own,
    (∃ r, .request r ∈ Virtuals.loadMoreFutureImpl m ∧ r.kind = some .updateNextSlice) ↔ CanLoad m.own

/-- The flags of a model. -/
def waits {Own : Type} (m : MessagesModel Own) (t : UpdateType) : Bool := m.waitingFor t

/-- The flags a call for older rows puts up. -/
def RaisesHistory {Own : Type} (m : MessagesModel Own) (t : UpdateType) : Prop :=
  t = .updatePreviousSlice ∧ (!m.startReached && !m.waitingFor .updatePreviousSlice && !m.messages.isEmpty) = true

def RaisesFuture {Own : Type} [Virtuals Own] (m : MessagesModel Own) (t : UpdateType) : Prop :=
  t = .updateNextSlice ∧
    (Virtuals.canLoadMoreMessages m && !m.endReached && !m.waitingFor .updateNextSlice && !m.messages.isEmpty) = true

/-- A slice of only a few messages puts up the flag for more of them. -/
def RaisesReload {Own : Type} (m : MessagesModel Own) (fromUpdate : UpdateType) (messages : List QVariantMap)
    (t : UpdateType) : Prop :=
  t = .updateReload ∧ (m.waitingFor fromUpdate = true ∨ m.messages = []) ∧
    PlainReadable.ReloadNeeded m fromUpdate messages

theorem sends_effects {outputs : List Output} {t : UpdateType} :
    Exchange.Sends Request.kind (effects outputs) t ↔ ∃ r, .request r ∈ outputs ∧ r.kind = some t :=
  exists_congr fun _ => ⟨fun ⟨hsend, hkind⟩ => ⟨(mem_effects_send.mp hsend).1, hkind⟩,
    fun ⟨hrequest, hkind⟩ => ⟨mem_effects_send.mpr ⟨hrequest, Request.isSome_slice_of_kind hkind⟩, hkind⟩⟩

/-- What a step of a model does to its flags, as a step of a client. -/
abbrev StepFlags {Own : Type} (m : MessagesModel Own) (result : MessagesModel Own × List Output)
    (kept raised : UpdateType → Prop) (canLoad : Prop) : Prop :=
  Exchange.Raises Request.kind waits m (result.1, effects result.2) kept raised canLoad

/-- A step that does not touch the flags. -/
theorem StepFlags.of_same {Own : Type} {m : MessagesModel Own} {result : MessagesModel Own × List Output}
    (hflags : result.1.waitingFor = m.waitingFor) (houtputs : .cleared ∉ result.2) (canLoad : Prop) :
    StepFlags m result (fun _ => True) (fun _ => False) canLoad where
  goes_on := fun hrestart => houtputs (restarts_effects.mp hrestart)
  waited := fun t ht => Or.inl ⟨trivial, by rw [waits] at ht ⊢; rwa [hflags] at ht⟩
  asked := fun _ ht => ht.elim

/-- A step that puts up one flag, with the request that goes with it. -/
theorem StepFlags.of_raise {Own : Type} {m : MessagesModel Own} {t₀ : UpdateType} {outputs : List Output}
    {raised : UpdateType → Prop} {canLoad : Prop} (hraised : ∀ t, raised t ↔ t = t₀) (houtputs : .cleared ∉ outputs)
    (hsends : (∃ r, .request r ∈ outputs ∧ r.kind = some t₀) ↔ canLoad) :
    StepFlags m (m.setWaitingFor t₀ true, outputs) (fun _ => True) raised canLoad where
  goes_on := fun hrestart => houtputs (restarts_effects.mp hrestart)
  waited := fun t ht => by
    by_cases hkind : t = t₀
    · exact Or.inr ((hraised t).mpr hkind)
    · refine Or.inl ⟨trivial, ?_⟩
      rw [← ht]
      exact (if_neg hkind).symm
  asked := fun t ht => by
    obtain rfl := (hraised t).mp ht
    exact ⟨if_pos rfl, sends_effects.trans hsends⟩

/-- A step that does nothing. -/
theorem StepFlags.of_nothing {Own : Type} (m : MessagesModel Own) {raised : UpdateType → Prop}
    (hraised : ∀ t, ¬ raised t) (canLoad : Prop) : StepFlags m (m, []) (fun _ => True) raised canLoad where
  goes_on := fun hrestart => List.not_mem_nil (restarts_effects.mp hrestart)
  waited := fun _ ht => Or.inl ⟨trivial, ht⟩
  asked := fun t ht => absurd ht (hraised t)

/-- A step that takes one flag down. -/
theorem StepFlags.of_down {Own : Type} {m m' : MessagesModel Own} {t₀ : UpdateType} {outputs : List Output}
    {raised : UpdateType → Prop} (hflags : ∀ t, t ≠ t₀ → m'.waitingFor t = m.waitingFor t)
    (houtputs : .cleared ∉ outputs) (hraised : ∀ t, ¬ raised t) (canLoad : Prop) :
    StepFlags m (m'.setWaitingFor t₀ false, outputs) (fun t => t ≠ t₀) raised canLoad where
  goes_on := fun hrestart => houtputs (restarts_effects.mp hrestart)
  waited := fun t ht => by
    change (if t = t₀ then false else m'.waitingFor t) = true at ht
    split_ifs at ht with hkind
    exact Or.inl ⟨hkind, (hflags t hkind).symm.trans ht⟩
  asked := fun t ht => absurd ht (hraised t)

theorem StepFlags.of_raised {Own : Type} {m : MessagesModel Own} {result : MessagesModel Own × List Output}
    {kept raised raised' : UpdateType → Prop} {canLoad : Prop} (h : StepFlags m result kept raised canLoad)
    (hraised : ∀ t, raised' t ↔ raised t) : StepFlags m result kept raised' canLoad := by
  rwa [show raised' = raised from funext fun t => propext (hraised t)]

theorem StepFlags.of_result {Own : Type} {m : MessagesModel Own} {result result' : MessagesModel Own × List Output}
    {kept raised : UpdateType → Prop} {canLoad : Prop} (h : StepFlags m result kept raised canLoad)
    (hflags : result'.1.waitingFor = result.1.waitingFor) (houtputs : result'.2 = result.2) :
    StepFlags m result' kept raised canLoad where
  goes_on := by
    rw [houtputs]
    exact h.goes_on
  waited := fun t ht => h.waited t ((congrFun hflags t).symm.trans ht)
  asked := fun t ht => by
    rw [houtputs]
    exact ⟨(congrFun hflags t).trans (h.asked t ht).1, (h.asked t ht).2⟩

section Virtual

variable {Own : Type} [Virtuals Own] [WaitingVirtuals Own]

theorem loadMoreHistory_flags (m : MessagesModel Own) :
    StepFlags m (loadMoreHistory m) (fun _ => True) (RaisesHistory m) (WaitingVirtuals.CanLoad m.own) := by
  rw [loadMoreHistory]
  by_cases hguard : (!m.startReached && !m.waitingFor .updatePreviousSlice && !m.messages.isEmpty) = true
  · rw [if_pos hguard]
    apply StepFlags.of_raise
    · exact fun t => and_iff_left hguard
    · exact (RequestingVirtuals.loadMoreHistoryImpl _).not_cleared
    · exact WaitingVirtuals.loadMoreHistoryImpl_sends _
  · rw [if_neg hguard]
    exact .of_nothing m (fun t ht => hguard ht.2) _

theorem loadMoreFuture_flags (m : MessagesModel Own) :
    StepFlags m (loadMoreFuture m) (fun _ => True) (RaisesFuture m) (WaitingVirtuals.CanLoad m.own) := by
  rw [loadMoreFuture]
  by_cases hguard : (Virtuals.canLoadMoreMessages m && !m.endReached && !m.waitingFor .updateNextSlice &&
      !m.messages.isEmpty) = true
  · rw [if_pos hguard]
    apply StepFlags.of_raise
    · exact fun t => and_iff_left hguard
    · exact (RequestingVirtuals.loadMoreFutureImpl _).not_cleared
    · exact WaitingVirtuals.loadMoreFutureImpl_sends _
  · rw [if_neg hguard]
    exact .of_nothing m (fun t ht => hguard ht.2) _

theorem insertMessages_waitingFor (m : MessagesModel Own) (newMessages : List MessageData) :
    (m.insertMessages newMessages).waitingFor = m.waitingFor :=
  insertMessages_of (P := fun m' => m'.waitingFor = m.waitingFor)
    (WaitingVirtuals.appendMessages_waitingFor m newMessages)
    (WaitingVirtuals.prependMessages_waitingFor m newMessages) fun _ => rfl

theorem handleInsertMessages_waitingFor (m : MessagesModel Own) (messages : List QVariantMap) :
    (m.handleInsertMessages messages).1.waitingFor = m.waitingFor := by
  rw [(handleInsertMessages_same m messages).sameMembers.waitingFor]
  split_ifs
  · rfl
  · exact insertMessages_waitingFor m _

theorem notifyMessagesLoaded_waitingFor (m : MessagesModel Own) (fromUpdate : UpdateType) (totalCount : Int)
    {t : UpdateType} (ht : t ≠ fromUpdate) :
    (notifyMessagesLoaded m fromUpdate totalCount).1.waitingFor t = m.waitingFor t := by
  rw [notifyMessagesLoaded, WaitingVirtuals.handlePrepare_waitingFor]
  exact if_neg ht

theorem notifyMessagesLoaded_not_cleared (m : MessagesModel Own) (fromUpdate : UpdateType) (totalCount : Int) :
    .cleared ∉ (notifyMessagesLoaded m fromUpdate totalCount).2 :=
  (RequestingVirtuals.handlePrepareMessagesReceived _ totalCount fromUpdate).not_cleared

theorem not_cleared_insertionOutput (addedMessages : List MessageData) : .cleared ∉ insertionOutput addedMessages := by
  rw [insertionOutput]
  split_ifs <;> simp

/-- The flags after a batch that is taken: that of its kind is down, and the one for more messages is up if they are
asked for. -/
theorem afterInsertion_flags [LawfulVirtuals Own] {m m₁ : MessagesModel Own} (hflags : m₁.waitingFor = m.waitingFor)
    (hown : m₁.own = m.own) {fromUpdate : UpdateType} {messages : List QVariantMap}
    (haccepts : m.waitingFor fromUpdate = true ∨ m.messages = []) (totalCount : Int) :
    StepFlags m
      ((afterInsertion m₁ (m.addedMessages messages) (m.handleInsertMessages messages).2.2 fromUpdate
          totalCount).1.setWaitingFor fromUpdate false,
        insertionOutput (m.addedMessages messages) ++
          (afterInsertion m₁ (m.addedMessages messages) (m.handleInsertMessages messages).2.2 fromUpdate totalCount).2)
      (fun t => t ≠ fromUpdate) (RaisesReload m fromUpdate messages) (WaitingVirtuals.CanLoad m.own) := by
  have hiff := PlainReadable.reloadNeeded_iff m fromUpdate messages
  have hnotify : ¬ PlainReadable.ReloadNeeded m fromUpdate messages → StepFlags m
      ((notifyMessagesLoaded m₁ fromUpdate totalCount).1.setWaitingFor fromUpdate false,
        insertionOutput (m.addedMessages messages) ++ (notifyMessagesLoaded m₁ fromUpdate totalCount).2)
      (fun t => t ≠ fromUpdate) (RaisesReload m fromUpdate messages) (WaitingVirtuals.CanLoad m.own) := by
    intro hreload
    apply StepFlags.of_down
    · intro t ht
      rw [notifyMessagesLoaded_waitingFor m₁ fromUpdate totalCount ht, hflags]
    · rw [List.mem_append]
      exact not_or.mpr ⟨not_cleared_insertionOutput _, notifyMessagesLoaded_not_cleared m₁ fromUpdate totalCount⟩
    · exact fun t ht => hreload ht.2.2
  cases hadded : m.addedMessages messages with
  | nil =>
      rw [hadded] at hiff hnotify
      exact hnotify fun hreload => (hiff.mpr hreload).1 rfl
  | cons first rest =>
      rw [hadded] at hiff hnotify
      rw [afterInsertion]
      by_cases hneeded : (m.handleInsertMessages messages).2.2 = true ∧ fromUpdate ≠ .updateReload
      · have hreload := hiff.mp ⟨List.cons_ne_nil first rest, hneeded⟩
        rw [if_pos hneeded]
        constructor
        · rw [restarts_effects, List.mem_append]
          exact not_or.mpr ⟨not_cleared_insertionOutput _, (RequestingVirtuals.loadMessages _ _ _ _).not_cleared⟩
        · intro t ht
          change (if t = fromUpdate then false else if t = .updateReload then true else m₁.waitingFor t) = true at ht
          split_ifs at ht with hkind hmore
          · exact Or.inr ⟨hmore, haccepts, hreload⟩
          · exact Or.inl ⟨hkind, by rwa [hflags] at ht⟩
        · rintro t ⟨rfl, -⟩
          refine ⟨?_, ?_⟩
          · change (if UpdateType.updateReload = fromUpdate then false
              else if UpdateType.updateReload = .updateReload then true else m₁.waitingFor .updateReload) = true
            rw [if_neg hneeded.2.symm, if_pos rfl]
          · rw [sends_effects, ← hown]
            refine Iff.trans (exists_congr fun r => and_congr_left fun _ => ?_)
              (WaitingVirtuals.loadMessages_sends (m₁.setWaitingFor .updateReload true) .updateReload first.messageId 0)
            rw [List.mem_append]
            exact or_iff_right fun hmem => by rw [insertionOutput] at hmem; split_ifs at hmem <;> simp at hmem
      · rw [if_neg hneeded]
        exact hnotify fun hreload => hneeded (hiff.mpr hreload).2

theorem handleMessagesReceived_flags [LawfulVirtuals Own] (m : MessagesModel Own) (fromUpdate : UpdateType)
    (messages : List QVariantMap) (totalCount : Int) :
    StepFlags m (handleMessagesReceived m fromUpdate messages totalCount) (fun t => t ≠ fromUpdate)
      (RaisesReload m fromUpdate messages) (WaitingVirtuals.CanLoad m.own) := by
  rw [handleMessagesReceived]
  cases messages with
  | nil =>
      apply StepFlags.of_down
      · exact fun t ht => notifyMessagesLoaded_waitingFor m fromUpdate totalCount ht
      · exact notifyMessagesLoaded_not_cleared m fromUpdate totalCount
      · rintro t ⟨-, -, ⟨message, hmessage, -⟩, -⟩
        exact List.not_mem_nil hmessage
  | cons message rest =>
      dsimp only [List.isEmpty_cons]
      rw [if_neg Bool.false_ne_true]
      by_cases haccepts : (m.waitingFor fromUpdate || m.messages.isEmpty) = true
      · rw [if_pos haccepts]
        exact afterInsertion_flags (handleInsertMessages_waitingFor m _) (handleInsertMessages_own m _)
          ((accepts_iff m fromUpdate).mp haccepts) totalCount
      · rw [if_neg haccepts]
        apply StepFlags.of_down
        · exact fun _ _ => rfl
        · exact List.not_mem_nil
        · exact fun t ht => haccepts ((accepts_iff m fromUpdate).mpr ht.2.1)

end Virtual

/-! ### Models that listen to answers -/

/-- A class of message models with its slots: how requests are answered, to which model an answer is addressed, and
what each event puts up. -/
structure Listener (Own Event : Type) [Virtuals Own] [WaitingVirtuals Own] where
  handle : MessagesModel Own → Event → MessagesModel Own × List Output
  answerTo : Request → Slice → Option Event
  Addressed : MessagesModel Own → Request → Prop
  raises : MessagesModel Own → Event → UpdateType → Prop
  decidableAddressed : ∀ m r, Decidable (Addressed m r)
  call_flags : ∀ m e, (∀ t, (handle m e).1.waitingFor t = false ∧ ¬ raises m e t) ∨
    ∃ kept, StepFlags m (handle m e) kept (raises m e) (WaitingVirtuals.CanLoad m.own)
  answer_flags : ∀ m r a e, answerTo r a = some e → Addressed m r → ∃ t₀, r.kind = some t₀ ∧
    StepFlags m (handle m e) (fun t => t ≠ t₀) (raises m e) (WaitingVirtuals.CanLoad m.own)
  answer_ignored : ∀ m r a e, answerTo r a = some e → ¬ Addressed m r → handle m e = (m, [])

namespace Listener

variable {Own Event : Type} [Virtuals Own] [WaitingVirtuals Own] (L : Listener Own Event)

instance (m : MessagesModel Own) (r : Request) : Decidable (L.Addressed m r) := L.decidableAddressed m r

abbrev client : Client (MessagesModel Own) Event Request (Option Slice) (List MessageData) :=
  responseClient L.handle L.answerTo

/-- The event that the answer to a request is for the model; an error is none, and an answer that is not addressed to
the model is none either. -/
def heard (m : MessagesModel Own) (r : Request) (a : Option Slice) : Option Event :=
  if L.Addressed m r then a.bind (L.answerTo r) else none

/-- A flag that goes up goes up with a request, and an answer that the model does not hear is not the last one that a
flag waits for. -/
def Accounted (x : Exchange (MessagesModel Own) Request) : Move Event (Option Slice) → Prop
  | .call e => ∀ t, L.raises x.client e t → WaitingVirtuals.CanLoad x.client.own ∨ x.InFlight Request.kind t
  | .answer i a =>
      match x.pending[i]? with
      | none => True
      | some ticket =>
          let x' := { x with pending := x.pending.eraseIdx i }
          match L.heard x.client ticket.request a with
          | some e => ∀ t, L.raises x.client e t → WaitingVirtuals.CanLoad x.client.own ∨ x'.InFlight Request.kind t
          | none => ∀ t, waits x.client t = true → x'.InFlight Request.kind t

omit [Virtuals Own] [WaitingVirtuals Own] in
theorem inFlight_eraseIdx {x : Exchange (MessagesModel Own) Request} {i : Nat} {ticket : Ticket Request}
    (hget : x.pending[i]? = some ticket) {t : UpdateType} (hkind : ticket.request.kind ≠ some t)
    (h : x.InFlight Request.kind t) : Exchange.InFlight Request.kind { x with pending := x.pending.eraseIdx i } t := by
  obtain ⟨other, hmem, hother, hgeneration⟩ := h
  refine ⟨other, ?_, hother, hgeneration⟩
  obtain ⟨hlt, hticket⟩ := List.getElem?_eq_some_iff.mp hget
  have hsplit : x.pending = x.pending.take i ++ ticket :: x.pending.drop (i + 1) := by
    rw [← hticket, ← List.drop_eq_getElem_cons hlt, List.take_append_drop]
  rw [hsplit] at hmem
  rw [List.eraseIdx_eq_take_drop_succ]
  rcases List.mem_append.mp hmem with hmem | hmem
  · exact List.mem_append_left _ hmem
  · refine List.mem_append_right _ ((List.mem_cons.mp hmem).resolve_left ?_)
    rintro rfl
    exact hkind hother

/-- An answer that the model does not hear changes nothing. -/
theorem answer_of_not_heard {m : MessagesModel Own} {r : Request} {a : Option Slice} (h : L.heard m r a = none) :
    L.client.answer m r a = (m, []) := by
  rw [heard] at h
  change (match a.bind (L.answerTo r) with
    | none => (m, [])
    | some e => ((L.handle m e).1, effects (L.handle m e).2)) = (m, [])
  cases hanswer : a.bind (L.answerTo r) with
  | none => rfl
  | some e =>
      rw [hanswer] at h
      have hignored : ¬ L.Addressed m r := fun haddressed => by
        rw [if_pos haddressed] at h
        cases h
      obtain ⟨slice, -, hslice⟩ := Option.bind_eq_some_iff.mp hanswer
      dsimp only
      rw [L.answer_ignored m r slice e hslice hignored]
      rfl

theorem answer_of_heard {m : MessagesModel Own} {r : Request} {a : Option Slice} {e : Event}
    (h : L.heard m r a = some e) :
    L.client.answer m r a = ((L.handle m e).1, effects (L.handle m e).2) ∧
      ∃ t₀, r.kind = some t₀ ∧
        StepFlags m (L.handle m e) (fun t => t ≠ t₀) (L.raises m e) (WaitingVirtuals.CanLoad m.own) := by
  rw [heard] at h
  split_ifs at h with haddressed
  obtain ⟨slice, -, hslice⟩ := Option.bind_eq_some_iff.mp h
  refine ⟨?_, L.answer_flags m r slice e hslice haddressed⟩
  change (match a.bind (L.answerTo r) with
    | none => (m, [])
    | some e => ((L.handle m e).1, effects (L.handle m e).2)) = _
  rw [h]

/-- **One step.** Where every flag has a request in flight, this stays so exactly if the step is accounted for. -/
theorem backed_step_iff {x : Exchange (MessagesModel Own) Request} (hx : x.Backed Request.kind waits)
    (move : Move Event (Option Slice)) :
    (L.client.step x move).Backed Request.kind waits ↔ L.Accounted x move := by
  cases move with
  | call e =>
      change (x.after ((L.handle x.client e).1, effects (L.handle x.client e).2)).Backed Request.kind waits ↔ _
      rcases L.call_flags x.client e with hdown | ⟨kept, hflags⟩
      · refine iff_of_true (Exchange.backed_of_not_waits fun t => ?_) fun t ht => absurd ht (hdown t).2
        rw [Exchange.client_after]
        exact (hdown t).1
      · exact hflags.backed_iff fun t _ => hx t
  | answer i a =>
      rw [Client.step, Accounted]
      cases hget : x.pending[i]? with
      | none => exact iff_of_true hx trivial
      | some ticket =>
          dsimp only
          cases hheard : L.heard x.client ticket.request a with
          | none =>
              rw [L.answer_of_not_heard hheard]
              exact Iff.rfl
          | some e =>
              obtain ⟨hanswer, t₀, hkind, hflags⟩ := L.answer_of_heard hheard
              rw [hanswer]
              refine Exchange.Raises.backed_iff (x := { x with pending := x.pending.eraseIdx i }) hflags
                fun t hkept ht => ?_
              refine inFlight_eraseIdx hget (fun heq => ?_) (hx t ht)
              rw [hkind] at heq
              exact hkept (Option.some.inj heq).symm

theorem along_backed_iff {s : MessagesModel Own} (hs : ∀ t, s.waitingFor t = false)
    (moves : List (Move Event (Option Slice))) :
    Along L.client.step (fun x move => (L.client.step x move).Backed Request.kind waits) (.start s) moves ↔
      Along L.client.step L.Accounted (.start s) moves :=
  Along.iff_of_keeps (I := fun x => x.Backed Request.kind waits) (fun _ move hx => L.backed_step_iff hx move)
    (fun _ _ _ h => h) (Exchange.backed_of_not_waits hs) moves

end Listener

end YaqtLib
