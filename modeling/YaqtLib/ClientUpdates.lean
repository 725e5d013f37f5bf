import YaqtLib.ClientSessions

/-! Updates across the clients of TDLib (`tdlib/tdlibwrapper.cpp`, `tdlib/tdlibreceiver.cpp`). A client says nothing after
the update that closes it, and the next one is made when this update is handled: what the receiver leaves out is never an
update, and no update is handled for another client. -/

namespace YaqtLib

open Runs TdConst TDLibReceiver

namespace TDLibWrapper

namespace ClientSessions

/-! ### What is on its way -/

/-- The updates that are on their way to the wrapper, the first to come first. -/
def pendingUpdates (s : ClientSessions) : List Delivery :=
  s.queued.filter Delivery.isUpdate ++ (s.returned.filter ClientDocument.isUpdate).filterMap signalOf

/-- The wrapper's client goes on, or its last update is on its way, or it was closed for good. -/
def Tail (s : ClientSessions) : Prop :=
  (s.clientId ∉ s.closed ∧ ∀ d ∈ s.pendingUpdates, closes d = false) ∨
  (s.clientId ∈ s.closed ∧ ∃ front d, s.pendingUpdates = front ++ [d] ∧ closes d = true ∧ ∀ d' ∈ front, closes d' = false) ∨
  (s.clientId ∈ s.closed ∧ s.pendingUpdates = [] ∧ s.isClosing = true)

structure Invariant (s : ClientSessions) : Prop where
  receiver : s.receiverClientId = s.clientId
  fresh : s.clientId < s.nextClientId ∧ ∀ client ∈ s.closed, client < s.nextClientId
  /-- Who has been asked is the wrapper's client or closed. -/
  asked : ∀ client ∈ s.sent.map Prod.fst, client = s.clientId ∨ client ∈ s.closed
  ids : ∀ d ∈ s.returned, (d.data.value CLIENT_ID).toInt = d.client
  /-- An update without a handler may be left of a closed client. -/
  current : ∀ d ∈ s.returned, d.isUpdate = true → signalOf d ≠ none → d.client = s.clientId
  queuedCurrent : ∀ d ∈ s.queued, d.isUpdate = true → d.client = s.clientId
  responses : ∀ d ∈ s.returned, d.isUpdate = false → (d.data.value TYPE_).toStr ≠ "updateAuthorizationState"
  queuedResponses : ∀ d ∈ s.queued, d.isUpdate = false → ∃ data, d.signal = .other data
  tail : s.Tail
  /-- Nothing is lost, doubled or moved. -/
  order : s.updates.filterMap signalOf = (s.handled.map Prod.snd).filter Delivery.isUpdate ++ s.pendingUpdates
  attributed : ∀ entry ∈ s.handled, entry.2.isUpdate = true → entry.1 = entry.2.client

section

variable {s s' : ClientSessions}

theorem SameClient.pendingUpdates (h : SameClient s s') : s'.pendingUpdates = s.pendingUpdates := by
  rw [ClientSessions.pendingUpdates, h.queued, h.returned, ClientSessions.pendingUpdates]

theorem SameClient.invariant (hsame : SameClient s s') (h : Invariant s) : Invariant s' where
  receiver := by rw [hsame.receiverClientId, hsame.clientId, h.receiver]
  fresh := by
    rw [hsame.clientId, hsame.nextClientId, hsame.closed]
    exact h.fresh
  asked client hclient := by
    rw [hsame.clientId, hsame.closed]
    exact (hsame.sent client hclient).elim (h.asked client) Or.inl
  ids := by
    rw [hsame.returned]
    exact h.ids
  current := by
    rw [hsame.returned, hsame.clientId]
    exact h.current
  queuedCurrent := by
    rw [hsame.queued, hsame.clientId]
    exact h.queuedCurrent
  responses := by
    rw [hsame.returned]
    exact h.responses
  queuedResponses := by
    rw [hsame.queued]
    exact h.queuedResponses
  tail := by
    rw [Tail, hsame.pendingUpdates, hsame.clientId, hsame.closed, hsame.isClosing]
    exact h.tail
  order := by
    rw [hsame.pendingUpdates, hsame.updates, hsame.handled]
    exact h.order
  attributed := by
    rw [hsame.handled]
    exact h.attributed

/-- An update joins those on their way. -/
theorem pendingUpdates_update (s : ClientSessions) (client : Nat) (data : QVariantMap) :
    (s.step (.update client data)).pendingUpdates = s.pendingUpdates ++ (signalOf (document client true data)).toList := by
  have hone : [document client true data].filter ClientDocument.isUpdate = [document client true data] := rfl
  rw [step, pendingUpdates, pendingUpdates, List.filter_append, List.filterMap_append, hone, List.append_assoc]
  cases hsignal : signalOf (document client true data) with
  | none => rw [List.filterMap_cons_none hsignal, List.filterMap_nil, Option.toList_none]
  | some d => rw [List.filterMap_cons_some hsignal, List.filterMap_nil, Option.toList_some]

theorem tail_update (h : ∀ d ∈ s.pendingUpdates, closes d = false) (hopen : s.clientId ∉ s.closed) {data : QVariantMap}
    (hextra : data.value EXTRA_ = .invalid) : Tail (s.step (.update s.clientId data)) := by
  have hpending := pendingUpdates_update s s.clientId data
  obtain ⟨hcloses, hgoes⟩ := @closes_signalOf s.clientId data hextra
  rw [Tail, hpending]
  cases hclosed : isClosed data with
  | true =>
      obtain ⟨d, hsignal, hd⟩ := hcloses hclosed
      have hmem : s.clientId ∈ (s.step (.update s.clientId data)).closed := by
        rw [step, hclosed]
        exact List.mem_cons_self
      exact Or.inr (Or.inl ⟨hmem, s.pendingUpdates, d, by rw [hsignal, Option.toList_some], hd, h⟩)
  | false =>
      refine Or.inl ⟨?_, fun d hd => ?_⟩
      · rw [step, hclosed]
        exact hopen
      · rcases List.mem_append.mp hd with hd | hd
        · exact h d hd
        · exact hgoes hclosed d (Option.mem_toList.mp hd)

theorem invariant_update (h : Invariant s) {client : Nat} {data : QVariantMap}
    (he : Documented s (.update client data)) : Invariant (s.step (.update client data)) := by
  obtain ⟨hsent, hopen, hextra⟩ := he
  have hclient : client = s.clientId := (h.asked client hsent).resolve_right hopen
  subst hclient
  have hbefore : ∀ d ∈ s.pendingUpdates, closes d = false := by
    rcases h.tail with ⟨-, hnone⟩ | ⟨hclosed, -⟩ | ⟨hclosed, -⟩
    · exact hnone
    · exact absurd hclosed hopen
    · exact absurd hclosed hopen
  have hclosed : ∀ client ∈ (s.step (.update s.clientId data)).closed, client = s.clientId ∨ client ∈ s.closed := by
    intro client hmem
    rw [step] at hmem
    dsimp only at hmem
    split_ifs at hmem
    · exact List.mem_cons.mp hmem
    · exact Or.inr hmem
  have hkept : ∀ client ∈ s.closed, client ∈ (s.step (.update s.clientId data)).closed := by
    intro client hmem
    rw [step]
    dsimp only
    split_ifs
    · exact List.mem_cons_of_mem _ hmem
    · exact hmem
  refine
    { receiver := h.receiver
      fresh := ⟨h.fresh.1, fun client hmem => ?_⟩
      asked := fun client hmem => (h.asked client hmem).imp_right (hkept client)
      ids := List.forall_mem_append.mpr ⟨h.ids, List.forall_mem_singleton.mpr (value_document_clientId _ _ _)⟩
      current := List.forall_mem_append.mpr ⟨h.current, List.forall_mem_singleton.mpr fun _ _ => rfl⟩
      queuedCurrent := h.queuedCurrent
      responses := List.forall_mem_append.mpr ⟨h.responses, List.forall_mem_singleton.mpr fun h => by cases h⟩
      queuedResponses := h.queuedResponses
      tail := tail_update hbefore hopen hextra
      order := ?_
      attributed := h.attributed }
  · rcases hclosed client hmem with rfl | hmem
    · exact h.fresh.1
    · exact h.fresh.2 client hmem
  · rw [pendingUpdates_update, ← List.append_assoc]
    change (s.updates ++ [document s.clientId true data]).filterMap signalOf = _
    rw [List.filterMap_append, h.order]
    cases hsignal : signalOf (document s.clientId true data) with
    | none => rw [List.filterMap_cons_none hsignal, List.filterMap_nil]; rfl
    | some d => rw [List.filterMap_cons_some hsignal, List.filterMap_nil]; rfl

theorem invariant_response (h : Invariant s) {client : Nat} {data : QVariantMap}
    (he : Documented s (.response client data)) : Invariant (s.step (.response client data)) := by
  have hpending : (s.step (.response client data)).pendingUpdates = s.pendingUpdates := by
    have hnone : [document client false data].filter ClientDocument.isUpdate = [] := rfl
    rw [step, pendingUpdates, pendingUpdates, List.filter_append, hnone, List.append_nil]
  exact
    { receiver := h.receiver
      fresh := h.fresh
      asked := h.asked
      ids := List.forall_mem_append.mpr ⟨h.ids, List.forall_mem_singleton.mpr (value_document_clientId _ _ _)⟩
      current := List.forall_mem_append.mpr ⟨h.current, List.forall_mem_singleton.mpr fun h => by cases h⟩
      queuedCurrent := h.queuedCurrent
      responses := List.forall_mem_append.mpr ⟨h.responses, List.forall_mem_singleton.mpr fun _ => by
        rw [value_document _ _ _ (by decide)]
        exact he.2⟩
      queuedResponses := h.queuedResponses
      tail := by
        rw [Tail, hpending]
        exact h.tail
      order := by
        rw [hpending]
        exact h.order
      attributed := h.attributed }

theorem processReceivedDocument_of_ne {clientId : Int} {data : QVariantMap} (h : (data.value CLIENT_ID).toInt ≠ clientId) :
    processReceivedDocument clientId data = none := by
  rw [processReceivedDocument, route, if_pos h]

/-- The receiver takes the signal of an update of the wrapper's client, and of no other. -/
theorem processReceivedDocument_update (h : Invariant s) {d : ClientDocument} (hd : d ∈ s.returned)
    (hupdate : d.isUpdate = true) :
    processReceivedDocument s.receiverClientId d.data = processReceivedDocument d.client d.data := by
  by_cases hclient : d.client = s.clientId
  · rw [h.receiver, hclient]
  · have hnone : signalOf d = none := by
      by_contra hsome
      exact hclient (h.current d hd hupdate hsome)
    rw [processReceivedDocument_of_ne, Option.map_eq_none_iff.mp hnone]
    rw [h.ids d hd, h.receiver]
    exact fun heq => hclient (Int.ofNat_inj.mp heq)

/-- The receiver knows the client of every update it takes. -/
theorem pendingUpdates_receive (h : Invariant s) : s.receive.pendingUpdates = s.pendingUpdates := by
  rw [receive]
  cases hreturned : s.returned with
  | nil => rfl
  | cons d returned =>
      rw [pendingUpdates, pendingUpdates, hreturned]
      dsimp only
      rw [List.filter_append, List.append_assoc]
      refine congrArg (s.queued.filter Delivery.isUpdate ++ ·) ?_
      have hmem : d ∈ s.returned := hreturned ▸ List.mem_cons_self
      cases hupdate : d.isUpdate with
      | false =>
          rw [List.filter_cons_of_neg (by rw [hupdate]; exact Bool.false_ne_true)]
          cases processReceivedDocument s.receiverClientId d.data <;> rfl
      | true =>
          rw [List.filter_cons_of_pos hupdate, List.filterMap_cons, signalOf, hupdate,
            processReceivedDocument_update h hmem hupdate]
          cases processReceivedDocument d.client d.data <;> rfl

theorem invariant_receive (h : Invariant s) : Invariant s.receive := by
  have hpending := pendingUpdates_receive h
  rw [receive] at hpending ⊢
  cases hreturned : s.returned with
  | nil => exact h
  | cons d returned =>
      rw [hreturned] at hpending
      dsimp only at hpending ⊢
      have hmem : d ∈ s.returned := hreturned ▸ List.mem_cons_self
      have hrest : ∀ d' ∈ returned, d' ∈ s.returned := fun d' hd' => hreturned ▸ List.mem_cons_of_mem _ hd'
      refine
        { receiver := h.receiver
          fresh := h.fresh
          asked := h.asked
          ids := fun d' hd' => h.ids d' (hrest d' hd')
          current := fun d' hd' => h.current d' (hrest d' hd')
          queuedCurrent := List.forall_mem_append.mpr ⟨h.queuedCurrent, fun d' hd' hupdate => ?_⟩
          responses := fun d' hd' => h.responses d' (hrest d' hd')
          queuedResponses := List.forall_mem_append.mpr ⟨h.queuedResponses, fun d' hd' hresponse => ?_⟩
          tail := ?_
          order := ?_
          attributed := h.attributed }
      · obtain ⟨signal, hsignal, rfl⟩ := List.mem_map.mp hd'
        refine h.current d hmem hupdate fun hnone => ?_
        rw [processReceivedDocument_update h hmem hupdate, Option.map_eq_none_iff.mp hnone] at hsignal
        exact absurd hsignal List.not_mem_nil
      · obtain ⟨signal, hsignal, rfl⟩ := List.mem_map.mp hd'
        cases signal with
        | other data => exact ⟨data, rfl⟩
        | authorizationStateChanged authorizationState authorizationStateData =>
            exact absurd (type_of_authorizationStateChanged (Option.mem_toList.mp hsignal)).1 (h.responses d hmem hresponse)
      · rw [Tail, hpending]
        exact h.tail
      · rw [hpending]
        exact h.order

theorem pendingUpdates_taken {d : Delivery} {queued : List Delivery} (hqueued : s.queued = d :: queued) :
    s.pendingUpdates = if d.isUpdate = true then d :: (s.taken d queued).pendingUpdates
      else (s.taken d queued).pendingUpdates := by
  rw [pendingUpdates, hqueued]
  split_ifs with hupdate
  · rw [List.filter_cons_of_pos hupdate]
    rfl
  · rw [List.filter_cons_of_neg hupdate]
    rfl

/-- Behind a signal that does not close the client the others go on; behind one that does there are none. -/
theorem tail_taken (h : Tail s) {d : Delivery} {queued : List Delivery}
    (hpending : s.pendingUpdates = d :: (s.taken d queued).pendingUpdates) :
    (closes d = false → Tail (s.taken d queued)) ∧
      (closes d = true → s.clientId ∈ s.closed ∧ (s.taken d queued).pendingUpdates = []) := by
  rcases h with ⟨hopen, hnone⟩ | ⟨hclosed, front, last, hlast, hcloses, hfront⟩ | ⟨-, hempty, -⟩
  · rw [hpending] at hnone
    obtain ⟨hfirst, hrest⟩ := List.forall_mem_cons.mp hnone
    refine ⟨fun _ => Or.inl ⟨hopen, hrest⟩, fun hd => ?_⟩
    rw [hfirst] at hd
    cases hd
  · rw [hpending] at hlast
    cases front with
    | nil =>
        obtain ⟨rfl, hrest⟩ := List.cons.inj hlast
        refine ⟨fun hd => ?_, fun _ => ⟨hclosed, hrest⟩⟩
        rw [hcloses] at hd
        cases hd
    | cons d' front =>
        obtain ⟨rfl, hrest⟩ := List.cons.inj hlast
        obtain ⟨hfirst, hothers⟩ := List.forall_mem_cons.mp hfront
        refine ⟨fun _ => Or.inr (Or.inl ⟨hclosed, front, last, hrest, hcloses, hothers⟩), fun hd => ?_⟩
        rw [hfirst] at hd
        cases hd
  · rw [hempty] at hpending
    cases hpending

/-- What the taken signal leaves, but for the tail. -/
theorem order_taken (h : Invariant s) {d : Delivery} {queued : List Delivery} (hqueued : s.queued = d :: queued) :
    (s.taken d queued).updates.filterMap signalOf =
      ((s.taken d queued).handled.map Prod.snd).filter Delivery.isUpdate ++ (s.taken d queued).pendingUpdates := by
  have hpending := pendingUpdates_taken hqueued
  have horder := h.order
  rw [hpending] at horder
  change s.updates.filterMap signalOf = ((s.handled ++ [(s.clientId, d)]).map Prod.snd).filter Delivery.isUpdate ++ _
  rw [horder, List.map_append, List.filter_append]
  split_ifs with hupdate
  · rw [List.map_singleton, List.filter_cons_of_pos hupdate, List.filter_nil, List.append_assoc, List.singleton_append]
  · rw [List.map_singleton, List.filter_cons_of_neg hupdate, List.filter_nil, List.append_nil]

theorem attributed_taken (h : Invariant s) {d : Delivery} {queued : List Delivery} (hqueued : s.queued = d :: queued) :
    ∀ entry ∈ (s.taken d queued).handled, entry.2.isUpdate = true → entry.1 = entry.2.client :=
  List.forall_mem_append.mpr ⟨h.attributed, List.forall_mem_singleton.mpr fun hupdate =>
    (h.queuedCurrent d (hqueued ▸ List.mem_cons_self) hupdate).symm⟩

theorem invariant_taken (h : Invariant s) {d : Delivery} {queued : List Delivery} (hqueued : s.queued = d :: queued)
    (hgoes : closes d = false ∨ s.isClosing = true) : Invariant (s.taken d queued) where
  receiver := h.receiver
  fresh := h.fresh
  asked := h.asked
  ids := h.ids
  current := h.current
  queuedCurrent d' hd' := h.queuedCurrent d' (hqueued ▸ List.mem_cons_of_mem _ hd')
  responses := h.responses
  queuedResponses d' hd' := h.queuedResponses d' (hqueued ▸ List.mem_cons_of_mem _ hd')
  tail := by
    have hpending := pendingUpdates_taken hqueued
    split_ifs at hpending
    · obtain ⟨hopen, hclosed⟩ := tail_taken h.tail hpending
      cases hd : closes d with
      | false => exact hopen hd
      | true =>
          rw [hd] at hgoes
          exact Or.inr (Or.inr ⟨(hclosed hd).1, (hclosed hd).2, hgoes.resolve_left (by decide)⟩)
    · have htail := h.tail
      rw [Tail, hpending] at htail
      exact htail
  order := order_taken h hqueued
  attributed := attributed_taken h hqueued

/-- The next client after one that is closed and of which nothing more is to come. -/
theorem invariant_createClient (h : Invariant s) {d : Delivery} {queued : List Delivery} (hqueued : s.queued = d :: queued)
    (hclosed : s.clientId ∈ s.closed) (hnone : (s.taken d queued).pendingUpdates = [])
    (hsame : SameClient (s.taken d queued) s') (settings : ClientSettings) : Invariant (s'.createClient settings) := by
  have hpending : (s'.createClient settings).pendingUpdates = [] := hsame.pendingUpdates.trans hnone
  obtain ⟨hqueuedNone, hreturnedNone⟩ := List.append_eq_nil_iff.mp hpending
  have hnext : s'.nextClientId = s.nextClientId := hsame.nextClientId
  have hclosed' : s'.closed = s.closed := hsame.closed
  have hreturned : s'.returned = s.returned := hsame.returned
  exact
    { receiver := rfl
      fresh := by
        change s'.nextClientId < s'.nextClientId + 1 ∧ ∀ client ∈ s'.closed, client < s'.nextClientId + 1
        rw [hnext, hclosed']
        exact ⟨Nat.lt_succ_self _, fun client hmem => Nat.lt_succ_of_lt (h.fresh.2 client hmem)⟩
      asked := fun client hmem => by
        change client = s'.nextClientId ∨ client ∈ s'.closed
        rw [createClient, setInitialOptions, List.map_append, List.mem_append] at hmem
        rw [hclosed']
        rcases hmem with hmem | hmem
        · refine Or.inr ?_
          rcases hsame.sent client hmem with hmem | rfl
          · exact (h.asked client hmem).elim (fun heq => heq ▸ hclosed) id
          · exact hclosed
        · obtain ⟨entry, hentry, rfl⟩ := List.mem_map.mp hmem
          obtain ⟨request, -, rfl⟩ := List.mem_map.mp hentry
          exact Or.inl rfl
      ids := by
        change ∀ d ∈ s'.returned, _
        rw [hreturned]
        exact h.ids
      current := fun d' hd' hupdate hsome =>
        absurd (List.filterMap_eq_nil_iff.mp hreturnedNone d' (List.mem_filter.mpr ⟨hd', hupdate⟩)) hsome
      queuedCurrent := fun d' hd' hupdate => absurd hupdate (List.filter_eq_nil_iff.mp hqueuedNone d' hd')
      responses := by
        change ∀ d ∈ s'.returned, _
        rw [hreturned]
        exact h.responses
      queuedResponses := by
        change ∀ d ∈ s'.queued, _
        rw [hsame.queued]
        exact fun d' hd' => h.queuedResponses d' (hqueued ▸ List.mem_cons_of_mem _ hd')
      tail := by
        refine Or.inl ⟨?_, by rw [hpending]; exact fun d hd => absurd hd List.not_mem_nil⟩
        change s'.nextClientId ∉ s'.closed
        rw [hnext, hclosed']
        exact fun hmem => absurd (h.fresh.2 _ hmem) (Nat.lt_irrefl _)
      order := by
        have horder := order_taken h hqueued
        rw [hnone] at horder
        rw [hpending]
        change s'.updates.filterMap signalOf = (s'.handled.map Prod.snd).filter Delivery.isUpdate ++ []
        rw [hsame.updates, hsame.handled]
        exact horder
      attributed := by
        change ∀ entry ∈ s'.handled, _
        rw [hsame.handled]
        exact attributed_taken h hqueued }

theorem invariant_deliver (h : Invariant s) (settings : ClientSettings) : Invariant (s.deliver settings) := by
  cases hqueued : s.queued with
  | nil =>
      rw [deliver_nil hqueued]
      exact h
  | cons d queued =>
      cases hsignal : d.signal with
      | other data =>
          rw [deliver_other hqueued hsignal]
          have hgoes : closes d = false := by rw [closes, hsignal]
          exact invariant_taken h hqueued (Or.inl hgoes)
      | authorizationStateChanged authorizationState authorizationStateData =>
          rw [deliver_authorizationState hqueued hsignal]
          have hcloses : closes d = (authorizationState == "authorizationStateClosed") := by rw [closes, hsignal]
          by_cases hgoes : authorizationState ≠ "authorizationStateClosed" ∨ s.isClosing = true
          · have htaken := invariant_taken h hqueued (hgoes.imp_left fun hne => hcloses.trans (beq_eq_false_iff_ne.mpr hne))
            exact (sameClient_handleAuthorizationStateChanged (s.taken d queued) settings authorizationState
              authorizationStateData hgoes).invariant htaken
          · obtain ⟨rfl, hclosing⟩ : authorizationState = "authorizationStateClosed" ∧ s.isClosing = false :=
              ⟨not_not.mp fun hne => hgoes (Or.inl hne), Bool.not_eq_true _ ▸ fun hc => hgoes (Or.inr hc)⟩
            have hupdate : d.isUpdate = true := by
              by_contra hresponse
              obtain ⟨data, hother⟩ := h.queuedResponses d (hqueued ▸ List.mem_cons_self) (Bool.not_eq_true _ ▸ hresponse)
              rw [hsignal] at hother
              cases hother
            have hpending := pendingUpdates_taken hqueued
            rw [if_pos hupdate] at hpending
            obtain ⟨hclosed, hnone⟩ := (tail_taken h.tail hpending).2 (hcloses.trans (beq_self_eq_true _))
            have hsame := sameClient_takeAuthorizationState (s.taken d queued) settings "authorizationStateClosed"
            have hcreated := invariant_createClient h hqueued hclosed hnone hsame settings
            rw [handleAuthorizationStateChanged, if_pos ⟨rfl, hsame.isClosing.trans hclosing⟩]
            exact (SameClient.shown _ _ _).invariant hcreated

theorem invariant_destroy (h : Invariant s) : Invariant s.destroy := by
  rw [destroy]
  split_ifs
  · have hclosing : Invariant { s with isClosing := true } :=
      { h with tail := h.tail.imp_right (Or.imp_right fun hend => ⟨hend.1, hend.2.1, rfl⟩) }
    exact (SameClient.sendRequest { s with isClosing := true } _).invariant hclosing
  · exact h

/-- **Step lemma.** -/
theorem invariant_step (e : ClientEvent) (h : Invariant s) (he : Documented s e) : Invariant (s.step e) := by
  cases e with
  | update client data => exact invariant_update h he
  | response client data => exact invariant_response h he
  | receive => exact invariant_receive h
  | deliver settings => exact invariant_deliver h settings
  | sendRequest request => exact (SameClient.sendRequest s request).invariant h
  | destroy => exact invariant_destroy h

end

/-! ### Runs -/

theorem invariant_new (settings : ClientSettings) : Invariant (new settings) where
  receiver := rfl
  fresh := ⟨Nat.lt_succ_self 1, fun _ h => absurd h List.not_mem_nil⟩
  asked client hmem := by
    obtain ⟨entry, hentry, rfl⟩ := List.mem_map.mp hmem
    obtain ⟨request, -, rfl⟩ := List.mem_map.mp hentry
    exact Or.inl rfl
  ids _ h := absurd h List.not_mem_nil
  current _ h := absurd h List.not_mem_nil
  queuedCurrent _ h := absurd h List.not_mem_nil
  responses _ h := absurd h List.not_mem_nil
  queuedResponses _ h := absurd h List.not_mem_nil
  tail := Or.inl ⟨List.not_mem_nil, fun _ h => absurd h List.not_mem_nil⟩
  order := rfl
  attributed _ h := absurd h List.not_mem_nil

theorem invariant_run {settings : ClientSettings} {es : List ClientEvent}
    (hes : Along step Documented (new settings) es) : Invariant (run step (new settings) es) :=
  Along.invariant (fun _ e hs he => invariant_step e hs he) (invariant_new settings) hes

/-- **No update is lost.** However the threads and the clients interleave, the updates that TDLib has returned and that have
a handler are those the wrapper has handled and then those on their way, in the order in which they were returned; and each
was handled while the wrapper's client was the one it is about. -/
theorem updates_handled_in_order {settings : ClientSettings} {es : List ClientEvent}
    (hes : Along step Documented (new settings) es) :
    let s := run step (new settings) es
    s.updates.filterMap signalOf = (s.handled.map Prod.snd).filter Delivery.isUpdate ++
      (s.queued.filter Delivery.isUpdate ++ (s.returned.filter ClientDocument.isUpdate).filterMap signalOf) ∧
    ∀ entry ∈ s.handled, entry.2.isUpdate = true → entry.1 = entry.2.client :=
  ⟨(invariant_run hes).order, (invariant_run hes).attributed⟩

theorem updates_handled_in_order_logout :
    let s := run step (new noSettings) logout
    (s.handled.map Prod.fst) = [1, 1, 2] ∧ s.returned.length = 0 ∧
      ∀ entry ∈ s.handled, entry.2.isUpdate = true → entry.1 = entry.2.client := by
  have hes : Along step Documented (new noSettings) logout :=
    ⟨⟨by decide +kernel, by decide +kernel, rfl⟩, trivial, ⟨by decide +kernel, by decide +kernel, rfl⟩, trivial, trivial,
      trivial, ⟨by decide +kernel, by decide +kernel, rfl⟩, trivial, trivial, trivial⟩
  exact ⟨by decide +kernel, by decide +kernel, (updates_handled_in_order hes).2⟩

end ClientSessions

end TDLibWrapper

end YaqtLib
