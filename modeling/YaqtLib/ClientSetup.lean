import YaqtLib.ClientSessions

/-! What the wrapper asks of the clients of TDLib (`tdlib/tdlibwrapper.cpp`): the initial options when it makes a client,
and the parameters when the client waits for them. -/

namespace YaqtLib

open Runs TdConst TDLibReceiver

namespace TDLibWrapper

namespace ClientSessions

/-! ### What each client is asked -/

/-- The requests that were sent to a client. -/
def requestsTo (s : ClientSessions) (client : Nat) : List QVariantMap :=
  (s.sent.filter fun entry => entry.1 = client).map Prod.snd

def isParameters (request : QVariantMap) : Bool := (request.value TYPE_).toStr == "setTdlibParameters"

/-- The client asks for its parameters. -/
def asksParameters (d : Delivery) : Bool :=
  match d.signal with
  | .authorizationStateChanged authorizationState _ => authorizationState == "authorizationStateWaitTdlibParameters"
  | .other _ => false

/-- How often the wrapper was asked while a client was its own. -/
def parametersAsked (s : ClientSessions) (client : Nat) : Nat :=
  s.handled.countP fun entry => entry.1 = client && asksParameters entry.2

structure Configured (s : ClientSessions) : Prop where
  known : s.clientId < s.nextClientId
  options : ∀ client, 0 < client → client < s.nextClientId →
    ∃ settings, initialOptions settings <+: s.requestsTo client
  parameters : ∀ client, (s.requestsTo client).countP isParameters = s.parametersAsked client
  sentKnown : ∀ entry ∈ s.sent, entry.1 < s.nextClientId
  handledKnown : ∀ entry ∈ s.handled, entry.1 < s.nextClientId

section

variable {s s' : ClientSessions}

/-- Requests that are sent to one client. -/
theorem requestsTo_of_sent {client : Nat} {requests : List QVariantMap}
    (hsent : s'.sent = s.sent ++ requests.map fun request => (client, request)) (client' : Nat) :
    s'.requestsTo client' = s.requestsTo client' ++ if client = client' then requests else [] := by
  rw [requestsTo, hsent, List.filter_append, List.map_append, requestsTo, List.append_cancel_left_eq]
  split_ifs with hclient
  · simp [List.filter_map, Function.comp_def, hclient]
  · simp [List.filter_map, Function.comp_def, hclient]

theorem Configured.of_eq (h : Configured s) (hclientId : s'.clientId = s.clientId)
    (hnext : s'.nextClientId = s.nextClientId) (hsent : s'.sent = s.sent) (hhandled : s'.handled = s.handled) :
    Configured s' where
  known := by
    rw [hclientId, hnext]
    exact h.known
  options := by
    rw [hnext]
    intro client hpos hlt
    rw [requestsTo, hsent]
    exact h.options client hpos hlt
  parameters client := by
    rw [requestsTo, hsent, parametersAsked, hhandled]
    exact h.parameters client
  sentKnown := by
    rw [hsent, hnext]
    exact h.sentKnown
  handledKnown := by
    rw [hhandled, hnext]
    exact h.handledKnown

/-- The wrapper sends requests and handles signals, and the client is asked as often as it asks. -/
theorem Configured.append (h : Configured s) (requests : List QVariantMap) (handled : List Delivery)
    (hcount : requests.countP isParameters = handled.countP asksParameters) (hclientId : s'.clientId = s.clientId)
    (hnext : s'.nextClientId = s.nextClientId)
    (hsent : s'.sent = s.sent ++ requests.map fun request => (s.clientId, request))
    (hhandled : s'.handled = s.handled ++ handled.map fun d => (s.clientId, d)) : Configured s' where
  known := by
    rw [hclientId, hnext]
    exact h.known
  options := by
    rw [hnext]
    intro client hpos hlt
    obtain ⟨settings, hprefix⟩ := h.options client hpos hlt
    refine ⟨settings, hprefix.trans ?_⟩
    rw [requestsTo_of_sent hsent]
    exact List.prefix_append _ _
  parameters client := by
    rw [requestsTo_of_sent hsent, List.countP_append, h.parameters, parametersAsked, parametersAsked, hhandled,
      List.countP_append, Nat.add_left_cancel_iff]
    split_ifs with hclient
    · simp [List.countP_map, Function.comp_def, hclient, hcount]
    · simp [List.countP_map, Function.comp_def, hclient]
  sentKnown := by
    rw [hsent, hnext]
    refine List.forall_mem_append.mpr ⟨h.sentKnown, fun entry hentry => ?_⟩
    obtain ⟨request, -, rfl⟩ := List.mem_map.mp hentry
    exact h.known
  handledKnown := by
    rw [hhandled, hnext]
    refine List.forall_mem_append.mpr ⟨h.handledKnown, fun entry hentry => ?_⟩
    obtain ⟨d, -, rfl⟩ := List.mem_map.mp hentry
    exact h.known

theorem countP_initialOptions (settings : ClientSettings) : (initialOptions settings).countP isParameters = 0 := rfl

/-- A client that nobody has heard of gets the initial options first. -/
theorem Configured.createClient (h : Configured s) (settings : ClientSettings) : Configured (s.createClient settings) := by
  have hsent : (s.createClient settings).sent =
      s.sent ++ (initialOptions settings).map fun request => (s.nextClientId, request) := rfl
  have hnew : s.requestsTo s.nextClientId = [] := by
    rw [requestsTo, List.filter_eq_nil_iff.mpr, List.map_nil]
    intro entry hentry
    have hlt := h.sentKnown entry hentry
    simp only [decide_eq_true_eq]
    omega
  have hnext : (s.createClient settings).nextClientId = s.nextClientId + 1 := rfl
  refine
    { known := Nat.lt_succ_self _
      options := fun client hpos hlt => ?_
      parameters := fun client => ?_
      sentKnown := fun entry hentry => ?_
      handledKnown := fun entry hentry => Nat.lt_succ_of_lt (h.handledKnown entry hentry) }
  · rw [requestsTo_of_sent hsent]
    by_cases hclient : s.nextClientId = client
    · refine ⟨settings, ?_⟩
      rw [if_pos hclient, ← hclient, hnew]
      exact List.prefix_rfl
    · obtain ⟨settings', hprefix⟩ := h.options client hpos (by omega)
      exact ⟨settings', hprefix.trans (List.prefix_append _ _)⟩
  · have hsame : (s.createClient settings).parametersAsked client = s.parametersAsked client := rfl
    rw [requestsTo_of_sent hsent, List.countP_append, h.parameters, hsame]
    split_ifs
    · rw [countP_initialOptions, Nat.add_zero]
    · rw [List.countP_nil, Nat.add_zero]
  · rw [hsent] at hentry
    rw [hnext]
    rcases List.mem_append.mp hentry with hentry | hentry
    · exact Nat.lt_succ_of_lt (h.sentKnown entry hentry)
    · obtain ⟨request, -, rfl⟩ := List.mem_map.mp hentry
      exact Nat.lt_succ_self _

theorem sent_takeAuthorizationState (s : ClientSessions) (settings : ClientSettings) (authorizationState : String) :
    (s.takeAuthorizationState settings authorizationState).sent =
      s.sent ++ (if authorizationState = "authorizationStateWaitTdlibParameters" then [setTdlibParameters settings]
        else []).map fun request => (s.clientId, request) := by
  have hemit : ∀ {P : Prop} [Decidable P] (s : ClientSessions) (signal : SessionSignal),
      (if P then s.emit signal else s).sent = s.sent := by
    intro P _ s signal
    split_ifs <;> rfl
  have hreset : ∀ {P : Prop} [Decidable P] (s : ClientSessions),
      (if P then (s.emit .clearContent).emit .tdDataReset else s).sent = s.sent := by
    intro P _ s
    split_ifs <;> rfl
  rw [takeAuthorizationState, hreset, hemit, hemit]
  split_ifs
  · rfl
  · exact (List.append_nil _).symm

/-- A signal is handled that asks for parameters if and only if they are sent. -/
theorem configured_takeAuthorizationState (h : Configured s) {d : Delivery} (queued : List Delivery)
    (settings : ClientSettings) {authorizationState : String} {authorizationStateData : QVariantMap}
    (hd : d.signal = .authorizationStateChanged authorizationState authorizationStateData) :
    Configured ((s.taken d queued).takeAuthorizationState settings authorizationState) := by
  have hsame := sameClient_takeAuthorizationState (s.taken d queued) settings authorizationState
  have hasks : asksParameters d = (authorizationState == "authorizationStateWaitTdlibParameters") := by
    rw [asksParameters, hd]
  refine h.append _ [d] ?_ hsame.clientId hsame.nextClientId
    (sent_takeAuthorizationState (s.taken d queued) settings authorizationState) hsame.handled
  rw [List.countP_singleton, hasks]
  by_cases hwait : authorizationState = "authorizationStateWaitTdlibParameters"
  · rw [if_pos hwait, hwait]
    rfl
  · rw [if_neg hwait, if_neg fun heq => hwait (eq_of_beq heq)]
    rfl

theorem configured_deliver (h : Configured s) (settings : ClientSettings) : Configured (s.deliver settings) := by
  cases hqueued : s.queued with
  | nil =>
      rw [deliver_nil hqueued]
      exact h
  | cons d queued =>
      cases hsignal : d.signal with
      | other data =>
          rw [deliver_other hqueued hsignal]
          refine h.append [] [d] ?_ rfl rfl (List.append_nil _).symm rfl
          rw [List.countP_singleton, asksParameters, hsignal]
          rfl
      | authorizationStateChanged authorizationState authorizationStateData =>
          have htaken := configured_takeAuthorizationState h queued settings hsignal
          rw [deliver_authorizationState hqueued hsignal, handleAuthorizationStateChanged]
          split_ifs
          · exact (htaken.createClient settings).of_eq rfl rfl rfl rfl
          · exact htaken.of_eq rfl rfl rfl rfl

/-- **Step lemma.** -/
theorem configured_step (e : ClientEvent) (h : Configured s)
    (he : ∀ request, e = .sendRequest request → isParameters request = false) : Configured (s.step e) := by
  cases e with
  | update client data => exact h.of_eq rfl rfl rfl rfl
  | response client data => exact h.of_eq rfl rfl rfl rfl
  | receive =>
      rw [step, receive]
      cases s.returned with
      | nil => exact h
      | cons d returned => exact h.of_eq rfl rfl rfl rfl
  | deliver settings => exact configured_deliver h settings
  | sendRequest request =>
      refine h.append [request] [] ?_ rfl rfl rfl (List.append_nil _).symm
      rw [List.countP_singleton, he request rfl]
      rfl
  | destroy =>
      rw [step, destroy]
      split_ifs
      · exact h.append [[(TYPE_, .string "close")]] [] rfl rfl rfl rfl (List.append_nil _).symm
      · exact h

end

theorem configured_new (settings : ClientSettings) : Configured (new settings) := by
  have hblank : Configured
      { clientId := 0, authorizationState := .authorizationUnknown, authorizationStateData := [], isClosing := false
        receiverClientId := 0, nextClientId := 1, returned := [], queued := [], closed := [], sent := [], updates := []
        handled := [], signals := [] } :=
    { known := Nat.lt_succ_self 0
      options := fun client hpos hlt => by
        change client < 1 at hlt
        omega
      parameters := fun _ => rfl
      sentKnown := fun _ h => absurd h List.not_mem_nil
      handledKnown := fun _ h => absurd h List.not_mem_nil }
  exact hblank.createClient settings

end ClientSessions

end TDLibWrapper

end YaqtLib
