import YaqtLib.CallRuns

/-! Notifications for incoming calls: what the calls manager says of a call, what the notification manager makes of
it, and what the history of the call says there should be. -/

namespace YaqtLib

open Containers Runs TdConst

/-- What a notification shows of an incoming call. -/
structure CallNotification where
  userId : Int
  video : Bool

/-- The part of `NotificationManager` that is about calls. -/
abbrev CallNotifications := QHash Int CallNotification

namespace CallNotifications

def publishCallNotification (notifications : CallNotifications) (calls : CallsManager) (callId : Int) :
    CallNotifications :=
  match calls.activeCalls.value callId with
  | none => notifications
  | some call => notifications.insert callId { userId := call.userId, video := call.video }

def removeCallNotification (notifications : CallNotifications) (id : Int) : CallNotifications :=
  if notifications.contains id then notifications.remove id else notifications

/-- The signals of the calls manager, as they are connected. -/
def handleOutput (calls : CallsManager) (notifications : CallNotifications) : CallsManager.Output → CallNotifications
  | .pendingIncomingCall callId => notifications.publishCallNotification calls callId
  | .incomingCallNotPending callId => notifications.removeCallNotification callId
  | .acceptCall _ | .discardCall _ _ => notifications

end CallNotifications

/-- What happened to a call in a run, from its updates and the signals about it. -/
structure CallHistory where
  /-- The last update: whether it is an incoming call, and pending. -/
  pendingIncoming : Bool
  /-- How often it was announced. -/
  announced : Nat
  /-- `discardCall` was called while it was pending and incoming. -/
  declined : Bool
  /-- It was announced after that. -/
  announcedAgain : Bool
  /-- An update took it out of the pending state after it was announced. -/
  left : Bool
  /-- How often it was said not to be pending after it was announced. -/
  notPending : Nat

namespace CallHistory

def initial : CallHistory :=
  { pendingIncoming := false, announced := 0, declined := false, announcedAgain := false, left := false,
    notPending := 0 }

/-- The history of the call `id` after an event with the given outputs. -/
def note (h : CallHistory) (id : Int) (e : CallsManager.Event) (outputs : List CallsManager.Output) : CallHistory :=
  { pendingIncoming :=
      match e with
      | .callUpdated callId _ _ outgoing _ state =>
          if callId = id then !outgoing && getTdCallState (state.value TYPE_).toStr = .pending else h.pendingIncoming
      | _ => h.pendingIncoming
    announced := h.announced + outputs.count (.pendingIncomingCall id)
    declined :=
      match e with
      | .discardCall callId => h.declined || (callId = id && h.pendingIncoming)
      | _ => h.declined
    announcedAgain := h.announcedAgain || (h.declined && decide (.pendingIncomingCall id ∈ outputs))
    left :=
      match e with
      | .callUpdated callId _ _ _ _ state =>
          h.left || (callId = id && 0 < h.announced && getTdCallState (state.value TYPE_).toStr ≠ .pending)
      | _ => h.left
    notPending := h.notPending + if 0 < h.announced then outputs.count (.incomingCallNotPending id) else 0 }

theorem note_announced (h : CallHistory) (id : Int) (e : CallsManager.Event) (outputs : List CallsManager.Output) :
    (h.note id e outputs).announced = h.announced + outputs.count (.pendingIncomingCall id) := rfl

theorem note_announcedAgain (h : CallHistory) (id : Int) (e : CallsManager.Event)
    (outputs : List CallsManager.Output) : (h.note id e outputs).announcedAgain =
      (h.announcedAgain || (h.declined && decide (.pendingIncomingCall id ∈ outputs))) := rfl

theorem note_notPending (h : CallHistory) (id : Int) (e : CallsManager.Event) (outputs : List CallsManager.Output) :
    (h.note id e outputs).notPending =
      h.notPending + if 0 < h.announced then outputs.count (.incomingCallNotPending id) else 0 := rfl

/-- A declined call is not announced, no call is announced twice, and one that leaves the pending state after it was
announced is said to do so once. -/
structure Proper (h : CallHistory) : Prop where
  silent : h.announcedAgain = false
  once : h.announced ≤ 1
  ended : h.left = true → h.notPending = 1

end CallHistory

/-- The calls and their notifications in a run, with the histories of the calls. -/
structure CallSession where
  calls : CallsManager
  notifications : CallNotifications
  history : Int → CallHistory

namespace CallSession

open CallsManager (Event)

def new : CallSession :=
  { calls := .new, notifications := QHash.empty, history := fun _ => .initial }

/-- An event of the calls, with the notifications that its signals publish and remove. -/
def step (s : CallSession) (e : Event) : Option CallSession :=
  (s.calls.handle e).map fun (calls, outputs) =>
    { calls := calls
      notifications := outputs.foldl (CallNotifications.handleOutput calls) s.notifications
      history := fun id => (s.history id).note id e outputs }

/-- Calls are announced properly, and the notifications are those of the announced calls that are still pending. -/
structure AnnouncesProperly (s : CallSession) : Prop where
  proper : ∀ id, (s.history id).Proper
  notified : ∀ id, s.notifications.contains id = true ↔ 0 < (s.history id).announced ∧ (s.history id).left = false

/-- An update of a call for which it is right what the record of the call, or its absence, makes of it: a pending
incoming call without a record was neither announced nor declined; a call that was announced leaves the pending state
as an incoming one; and a call that left it is neither without a record nor pending when it is updated with another
state, or not incoming. -/
def UpdatesProperly (s : CallSession) : Event → Prop
  | .callUpdated id _ _ outgoing _ state =>
      if getTdCallState (state.value TYPE_).toStr = .pending then
        outgoing = false → s.calls.activeCalls.contains id = false →
          (s.history id).announced = 0 ∧ (s.history id).declined = false
      else
        0 < (s.history id).announced →
          ((s.history id).left = false → outgoing = false) ∧
          ((s.history id).left = true → outgoing = false →
            ∃ call ∈ s.calls.activeCalls.value id, call.state ≠ .pending)
  | _ => True

/-! ### What the steps keep -/

/-- What is in the histories whatever happens: only an announced call leaves and is said to be no longer pending, and
the record of an announced call that is still pending is pending. -/
structure Recorded (s : CallSession) : Prop where
  early : ∀ id, (s.history id).announced = 0 → (s.history id).left = false
  notYet : ∀ id, (s.history id).left = false → (s.history id).notPending = 0
  pending : ∀ id, 0 < (s.history id).announced → (s.history id).left = false →
    ∀ call ∈ s.calls.activeCalls.value id, call.state = .pending

/-- The signals about a call that an event without an update brings: none. -/
theorem handle_silent {m m' : CallsManager} {e : Event} {outputs : List CallsManager.Output}
    (h : m.handle e = some (m', outputs))
    (he : ∀ id uniqueId userId outgoing video state, e ≠ .callUpdated id uniqueId userId outgoing video state) :
    (∀ id, .pendingIncomingCall id ∉ outputs ∧ .incomingCallNotPending id ∉ outputs) ∧
      ∀ id call, m'.activeCalls.value id = some call → m.activeCalls.value id = some call := by
  have hremove : ∀ (calls : QHash Int Call) k id call, (calls.remove k).value id = some call →
      calls.value id = some call := by
    intro calls k id call hvalue
    rw [QHash.value_remove] at hvalue
    split_ifs at hvalue
    exact hvalue
  have hset : ∀ k id call, (m.setCurrentCallId k).activeCalls.value id = some call →
      m.activeCalls.value id = some call := by
    intro k id call hvalue
    rw [CallsManager.activeCalls_setCurrentCallId] at hvalue
    split at hvalue
    · exact hremove _ _ id call hvalue
    · exact hvalue
  cases e with
  | callUpdated id uniqueId userId outgoing video state => exact absurd rfl (he _ _ _ _ _ _)
  | callIdReceived id =>
      obtain ⟨rfl, rfl⟩ := Prod.mk.inj (Option.some.inj h)
      exact ⟨by simp, hset id⟩
  | acceptCall callId =>
      obtain ⟨rfl, rfl⟩ := Prod.mk.inj (Option.some.inj h)
      exact ⟨by simp, hset callId⟩
  | discardCall callId =>
      obtain ⟨rfl, rfl⟩ := Prod.mk.inj (Option.some.inj h)
      refine ⟨by simp, fun id call hvalue => ?_⟩
      dsimp only at hvalue
      split at hvalue
      · exact hremove _ _ id call hvalue
      · exact hvalue
  | stateUpdated callState state now =>
      obtain ⟨rfl, rfl⟩ := Prod.mk.inj (Option.some.inj h)
      refine ⟨by simp, fun id call hvalue => ?_⟩
      rw [CallsManager.stateUpdated] at hvalue
      split at hvalue
      · exact hvalue
      · exact hvalue
  | discardCurrentCall now =>
      obtain ⟨rfl, rfl⟩ := Prod.mk.inj (Option.some.inj h)
      exact ⟨by simp [CallsManager.discardCurrentCall], fun _ _ hvalue => hvalue⟩
  | signalBarsUpdated bars =>
      obtain ⟨rfl, rfl⟩ := Prod.mk.inj (Option.some.inj h)
      exact ⟨by simp, fun _ _ hvalue => hvalue⟩

/-- Without signals about a call its history keeps what was said of it. -/
theorem note_silent {h : CallHistory} {id : Int} {e : Event} {outputs : List CallsManager.Output}
    (hout : .pendingIncomingCall id ∉ outputs ∧ .incomingCallNotPending id ∉ outputs)
    (he : ∀ uniqueId userId outgoing video state, e ≠ .callUpdated id uniqueId userId outgoing video state) :
    (h.note id e outputs).announced = h.announced ∧ (h.note id e outputs).announcedAgain = h.announcedAgain ∧
      (h.note id e outputs).left = h.left ∧ (h.note id e outputs).notPending = h.notPending := by
  refine ⟨?_, ?_, ?_, ?_⟩
  · rw [CallHistory.note_announced, List.count_eq_zero.mpr hout.1, Nat.add_zero]
  · rw [CallHistory.note_announcedAgain, decide_eq_false hout.1, Bool.and_false, Bool.or_false]
  · cases e with
    | callUpdated callId uniqueId userId outgoing video state =>
        have hne : callId ≠ id := by
          rintro rfl
          exact he _ _ _ _ _ rfl
        simp [CallHistory.note, hne]
    | _ => rfl
  · rw [CallHistory.note_notPending, List.count_eq_zero.mpr hout.2, ite_self, Nat.add_zero]

/-- The history of a call is proper, and there is a notification while it is announced and pending. -/
def CallOk (h : CallHistory) (notified : Bool) : Prop :=
  h.Proper ∧ (notified = true ↔ 0 < h.announced ∧ h.left = false)

theorem callOk_congr {h h' : CallHistory} {notified : Bool}
    (hsame : h'.announced = h.announced ∧ h'.announcedAgain = h.announcedAgain ∧ h'.left = h.left ∧
      h'.notPending = h.notPending) : CallOk h' notified ↔ CallOk h notified := by
  obtain ⟨hannounced, hagain, hleft, hnot⟩ := hsame
  have hproper : h'.Proper ↔ h.Proper := by
    constructor
    · rintro ⟨hsilent, honce, hended⟩
      exact ⟨hagain ▸ hsilent, hannounced ▸ honce, hleft ▸ hnot ▸ hended⟩
    · rintro ⟨hsilent, honce, hended⟩
      exact ⟨hagain.trans hsilent, hannounced.trans_le honce, by rwa [hleft, hnot]⟩
  rw [CallOk, CallOk, hproper, hannounced, hleft]

theorem announcesProperly_iff {s : CallSession} :
    s.AnnouncesProperly ↔ ∀ id, CallOk (s.history id) (s.notifications.contains id) :=
  ⟨fun h id => ⟨h.proper id, h.notified id⟩, fun h => ⟨fun id => (h id).1, fun id => (h id).2⟩⟩

section Update

variable {h : CallHistory} {id uniqueId userId : Int} {outgoing video : Bool} {state : QVariantMap} {notified : Bool}
  {outputs : List CallsManager.Output}

theorem note_left : (h.note id (.callUpdated id uniqueId userId outgoing video state) outputs).left =
    (h.left || (0 < h.announced && getTdCallState (state.value TYPE_).toStr ≠ .pending)) := by
  simp [CallHistory.note]

/-- A call is announced properly for the first time only, and not after it was declined. -/
theorem callOk_announced (hearly : h.announced = 0 → h.left = false) (hok : CallOk h notified)
    (hpending : getTdCallState (state.value TYPE_).toStr = .pending) :
    CallOk (h.note id (.callUpdated id uniqueId userId outgoing video state) [.pendingIncomingCall id]) true ↔
      h.announced = 0 ∧ h.declined = false := by
  have hleft : (h.note id (.callUpdated id uniqueId userId outgoing video state) [.pendingIncomingCall id]).left =
      h.left := by
    rw [note_left, hpending]
    simp
  constructor
  · rintro ⟨⟨hsilent, honce, -⟩, -⟩
    rw [CallHistory.note_announced, List.count_singleton_self] at honce
    rw [CallHistory.note_announcedAgain, Bool.or_eq_false_iff] at hsilent
    refine ⟨by omega, ?_⟩
    simpa using hsilent.2
  · rintro ⟨hfirst, hdeclined⟩
    refine ⟨⟨?_, ?_, ?_⟩, ?_⟩
    · rw [CallHistory.note_announcedAgain, hdeclined, hok.1.silent]
      rfl
    · rw [CallHistory.note_announced, List.count_singleton_self, hfirst]
    · rw [hleft, hearly hfirst]
      exact fun heq => absurd heq Bool.false_ne_true
    · rw [hleft, hearly hfirst, CallHistory.note_announced, List.count_singleton_self]
      simp

/-- It is right to say that a call is not pending any more unless that was said before. -/
theorem callOk_notPending (hearly : h.announced = 0 → h.left = false) (hnotYet : h.left = false → h.notPending = 0)
    (hok : CallOk h notified) (hpending : getTdCallState (state.value TYPE_).toStr ≠ .pending) :
    CallOk (h.note id (.callUpdated id uniqueId userId outgoing video state) [.incomingCallNotPending id]) false ↔
      (0 < h.announced → h.left = false) := by
  have hsame : (h.note id (.callUpdated id uniqueId userId outgoing video state)
      [.incomingCallNotPending id]).announced = h.announced := by
    rw [CallHistory.note_announced]
    simp
  have hsilent : (h.note id (.callUpdated id uniqueId userId outgoing video state)
      [.incomingCallNotPending id]).announcedAgain = false := by
    rw [CallHistory.note_announcedAgain, hok.1.silent]
    simp
  rcases Nat.eq_zero_or_pos h.announced with hzero | hpos
  · refine iff_of_true ⟨⟨hsilent, hsame.trans_le hok.1.once, ?_⟩, ?_⟩ fun hlt => absurd hzero hlt.ne'
    · rw [note_left, hzero, hearly hzero]
      simp
    · rw [hsame, hzero]
      simp
  · have hleft : (h.note id (.callUpdated id uniqueId userId outgoing video state)
        [.incomingCallNotPending id]).left = true := by
      rw [note_left]
      simp [hpos, hpending]
    have hcount : (h.note id (.callUpdated id uniqueId userId outgoing video state)
        [.incomingCallNotPending id]).notPending = h.notPending + 1 := by
      rw [CallHistory.note_notPending, if_pos hpos, List.count_singleton_self]
    constructor
    · intro hafter _
      have hone := hafter.1.ended hleft
      rw [hcount] at hone
      by_contra hbefore
      have := hok.1.ended (by simpa using hbefore)
      omega
    · intro hbefore
      refine ⟨⟨hsilent, hsame.trans_le hok.1.once, fun _ => ?_⟩, ?_⟩
      · rw [hcount, hnotYet (hbefore hpos)]
      · rw [hleft]
        simp

/-- It is right to say nothing of a call as long as it does not leave the pending state. -/
theorem callOk_silent (hnotYet : h.left = false → h.notPending = 0) (hok : CallOk h notified) :
    CallOk (h.note id (.callUpdated id uniqueId userId outgoing video state) []) notified ↔
      (getTdCallState (state.value TYPE_).toStr ≠ .pending → 0 < h.announced → h.left = true) := by
  have hsame : (h.note id (.callUpdated id uniqueId userId outgoing video state) []).announced = h.announced := rfl
  have hagain : (h.note id (.callUpdated id uniqueId userId outgoing video state) []).announcedAgain =
      h.announcedAgain := by
    rw [CallHistory.note_announcedAgain]
    simp
  have hnot : (h.note id (.callUpdated id uniqueId userId outgoing video state) []).notPending = h.notPending := by
    rw [CallHistory.note_notPending]
    simp
  by_cases hleaves : getTdCallState (state.value TYPE_).toStr ≠ .pending ∧ 0 < h.announced
  · have hleft : (h.note id (.callUpdated id uniqueId userId outgoing video state) []).left = true := by
      rw [note_left]
      simp [hleaves.1, hleaves.2]
    constructor
    · intro hafter _ _
      have hone := hafter.1.ended hleft
      rw [hnot] at hone
      by_contra hbefore
      rw [hnotYet (by simpa using hbefore)] at hone
      exact absurd hone (by decide)
    · intro hbefore
      have hbefore' := hbefore hleaves.1 hleaves.2
      exact (callOk_congr ⟨hsame, hagain, hleft.trans hbefore'.symm, hnot⟩).mpr hok
  · have hleft : (h.note id (.callUpdated id uniqueId userId outgoing video state) []).left = h.left := by
      rw [note_left]
      rw [not_and_or] at hleaves
      rcases hleaves with hpending | hzero
      · simp [not_not.mp hpending]
      · simp [hzero]
    refine iff_of_true ((callOk_congr ⟨hsame, hagain, hleft, hnot⟩).mpr hok) fun hpending hpos => ?_
    exact absurd ⟨hpending, hpos⟩ hleaves

end Update

theorem announcements_cases (m : CallsManager) (id : Int) (outgoing : Bool) (state : CallState) :
    (m.announcements id outgoing state = [.pendingIncomingCall id] ∧ m.activeCalls.contains id = false ∧
        outgoing = false ∧ state = .pending) ∨
      (m.announcements id outgoing state = [.incomingCallNotPending id] ∧ outgoing = false ∧
        (∀ call ∈ m.activeCalls.value id, call.state = .pending) ∧ state ≠ .pending) ∨
      (m.announcements id outgoing state = [] ∧
        ¬ (m.activeCalls.contains id = false ∧ outgoing = false ∧ state = .pending) ∧
        ¬ (outgoing = false ∧ (∀ call ∈ m.activeCalls.value id, call.state = .pending) ∧ state ≠ .pending)) := by
  rw [CallsManager.announcements]
  split_ifs with hannounced hnot
  · exact Or.inl ⟨rfl, hannounced⟩
  · exact Or.inr (Or.inl ⟨rfl, hnot⟩)
  · exact Or.inr (Or.inr ⟨rfl, hannounced, hnot⟩)

/-- Only the call that is updated is spoken of. -/
theorem announcements_other (m : CallsManager) {id k : Int} (hk : k ≠ id) (outgoing : Bool) (state : CallState) :
    .pendingIncomingCall k ∉ m.announcements id outgoing state ∧
      .incomingCallNotPending k ∉ m.announcements id outgoing state := by
  rcases announcements_cases m id outgoing state with ⟨heq, -⟩ | ⟨heq, -⟩ | ⟨heq, -⟩ <;> rw [heq] <;> simp [hk]

theorem contains_publish {calls : CallsManager} {callId : Int} {call : Call}
    (hcall : calls.activeCalls.value callId = some call) (notifications : CallNotifications) (k : Int) :
    (notifications.publishCallNotification calls callId).contains k =
      if k = callId then true else notifications.contains k := by
  rw [CallNotifications.publishCallNotification, hcall]
  dsimp only
  rw [QHash.contains, QHash.value_insert]
  split_ifs <;> rfl

theorem contains_removeCallNotification (notifications : CallNotifications) (callId k : Int) :
    (notifications.removeCallNotification callId).contains k =
      if k = callId then false else notifications.contains k := by
  rw [CallNotifications.removeCallNotification]
  by_cases hcontains : notifications.contains callId = true
  · rw [if_pos hcontains, QHash.contains, QHash.value_remove]
    split_ifs <;> rfl
  · rw [if_neg hcontains]
    split_ifs with hk
    · rw [hk]
      exact Bool.not_eq_true _ ▸ hcontains
    · rfl

/-- Signals that are about no call leave the notifications as they are. -/
theorem foldl_handleOutput_silent {calls : CallsManager} {outputs : List CallsManager.Output}
    (h : ∀ id, .pendingIncomingCall id ∉ outputs ∧ .incomingCallNotPending id ∉ outputs)
    (notifications : CallNotifications) :
    outputs.foldl (CallNotifications.handleOutput calls) notifications = notifications := by
  induction outputs with
  | nil => rfl
  | cons output rest ih =>
      have hrest : ∀ id, .pendingIncomingCall id ∉ rest ∧ .incomingCallNotPending id ∉ rest := fun id =>
        ⟨fun hmem => (h id).1 (List.mem_cons_of_mem _ hmem), fun hmem => (h id).2 (List.mem_cons_of_mem _ hmem)⟩
      rw [List.foldl_cons]
      cases output with
      | pendingIncomingCall callId => exact absurd List.mem_cons_self (h callId).1
      | incomingCallNotPending callId => exact absurd List.mem_cons_self (h callId).2
      | acceptCall callId => exact ih hrest
      | discardCall callId duration => exact ih hrest

section Update

variable {s : CallSession} {id uniqueId userId : Int} {outgoing video : Bool} {state : QVariantMap}

/-- The calls, notifications and histories after an update. -/
def updated (s : CallSession) (calls : CallsManager) (id uniqueId userId : Int) (outgoing video : Bool)
    (state : QVariantMap) : CallSession :=
  { calls := calls
    notifications := (s.calls.announcements id outgoing (getTdCallState (state.value TYPE_).toStr)).foldl
      (CallNotifications.handleOutput calls) s.notifications
    history := fun k => (s.history k).note k (.callUpdated id uniqueId userId outgoing video state)
      (s.calls.announcements id outgoing (getTdCallState (state.value TYPE_).toStr)) }

theorem history_other {calls : CallsManager} {k : Int} (hk : k ≠ id) :
    ((s.updated calls id uniqueId userId outgoing video state).history k).announced = (s.history k).announced ∧
      ((s.updated calls id uniqueId userId outgoing video state).history k).announcedAgain =
        (s.history k).announcedAgain ∧
      ((s.updated calls id uniqueId userId outgoing video state).history k).left = (s.history k).left ∧
      ((s.updated calls id uniqueId userId outgoing video state).history k).notPending = (s.history k).notPending := by
  refine note_silent (announcements_other _ hk _ _) fun _ _ _ _ _ heq => hk ?_
  exact (CallsManager.Event.callUpdated.inj heq).1.symm

theorem recorded_updated {calls : CallsManager} (hs : s.Recorded) (hcalls : calls.activeCalls =
      s.calls.activeCalls.insert id
        (((s.calls.activeCalls.value id).getD .initial).update uniqueId userId outgoing video state)) :
    (s.updated calls id uniqueId userId outgoing video state).Recorded := by
  have hleft : ((s.updated calls id uniqueId userId outgoing video state).history id).left =
      ((s.history id).left ||
        (0 < (s.history id).announced && getTdCallState (state.value TYPE_).toStr ≠ .pending)) :=
    @note_left (s.history id) id uniqueId userId outgoing video state _
  have hannounced : ((s.updated calls id uniqueId userId outgoing video state).history id).announced =
      (s.history id).announced + (s.calls.announcements id outgoing
        (getTdCallState (state.value TYPE_).toStr)).count (.pendingIncomingCall id) := rfl
  have hnot : ((s.updated calls id uniqueId userId outgoing video state).history id).notPending =
      (s.history id).notPending + if 0 < (s.history id).announced then (s.calls.announcements id outgoing
        (getTdCallState (state.value TYPE_).toStr)).count (.incomingCallNotPending id) else 0 := rfl
  have hcases := announcements_cases s.calls id outgoing (getTdCallState (state.value TYPE_).toStr)
  refine ⟨fun k => ?_, fun k => ?_, fun k => ?_⟩
  · by_cases hk : k = id
    · subst hk
      rw [hleft, hannounced]
      intro hzero
      have hbefore : (s.history k).announced = 0 := by omega
      rw [hs.early k hbefore, hbefore]
      simp
    · rw [(history_other hk).1, (history_other hk).2.2.1]
      exact hs.early k
  · by_cases hk : k = id
    · subst hk
      rw [hleft, hnot, Bool.or_eq_false_iff]
      rintro ⟨hbefore, hstays⟩
      rw [hs.notYet k hbefore]
      rcases hcases with ⟨heq, -⟩ | ⟨heq, -, -, hpending⟩ | ⟨heq, -⟩
      · simp [heq]
      · have hzero : ¬ 0 < (s.history k).announced := by simpa [hpending] using hstays
        rw [if_neg hzero]
      · simp [heq]
    · rw [(history_other hk).2.2.1, (history_other hk).2.2.2]
      exact hs.notYet k
  · by_cases hk : k = id
    · subst hk
      rw [hleft, hannounced, Bool.or_eq_false_iff]
      rintro hpos ⟨-, hstays⟩ call hcall
      change calls.activeCalls.value k = some call at hcall
      rw [hcalls, QHash.value_insert_self] at hcall
      rw [← Option.some.inj hcall]
      change getTdCallState (state.value TYPE_).toStr = .pending
      by_contra hpending
      have hzero : (s.history k).announced = 0 := by simpa [hpending] using hstays
      rcases hcases with ⟨-, -, -, hpending'⟩ | ⟨heq, -⟩ | ⟨heq, -⟩
      · exact hpending hpending'
      · simp [heq, hzero] at hpos
      · simp [heq, hzero] at hpos
    · rw [(history_other hk).1, (history_other hk).2.2.1]
      intro hpos hleft call hcall
      change calls.activeCalls.value k = some call at hcall
      rw [hcalls, QHash.value_insert_of_ne _ _ hk] at hcall
      exact hs.pending k hpos hleft call hcall

theorem announces_updated {calls : CallsManager} (hs : s.Recorded) (hs' : s.AnnouncesProperly)
    (hcalls : calls.activeCalls = s.calls.activeCalls.insert id
      (((s.calls.activeCalls.value id).getD .initial).update uniqueId userId outgoing video state)) :
    (s.updated calls id uniqueId userId outgoing video state).AnnouncesProperly ↔
      s.UpdatesProperly (.callUpdated id uniqueId userId outgoing video state) := by
  have hok := announcesProperly_iff.mp hs'
  have hnotified : ∀ k, k ≠ id → (s.updated calls id uniqueId userId outgoing video state).notifications.contains k =
      s.notifications.contains k := by
    intro k hk
    rw [updated]
    dsimp only
    rcases announcements_cases s.calls id outgoing (getTdCallState (state.value TYPE_).toStr) with
      ⟨heq, -⟩ | ⟨heq, -⟩ | ⟨heq, -⟩
    · rw [heq]
      exact (contains_publish (by rw [hcalls, QHash.value_insert_self]) _ k).trans (if_neg hk)
    · rw [heq]
      exact (contains_removeCallNotification _ id k).trans (if_neg hk)
    · rw [heq]
      rfl
  have honly : (s.updated calls id uniqueId userId outgoing video state).AnnouncesProperly ↔
      CallOk ((s.updated calls id uniqueId userId outgoing video state).history id)
        ((s.updated calls id uniqueId userId outgoing video state).notifications.contains id) := by
    rw [announcesProperly_iff]
    refine ⟨fun h => h id, fun h k => ?_⟩
    by_cases hk : k = id
    · rw [hk]
      exact h
    · rw [hnotified k hk, callOk_congr (history_other hk)]
      exact hok k
  rw [honly, updated, UpdatesProperly]
  dsimp only
  rcases announcements_cases s.calls id outgoing (getTdCallState (state.value TYPE_).toStr) with
    ⟨heq, hcontains, hout, hpending⟩ | ⟨heq, hout, hrecord, hpending⟩ | ⟨heq, hnotannounced, hnotended⟩
  · rw [heq, if_pos hpending, List.foldl_cons, List.foldl_nil, CallNotifications.handleOutput,
      contains_publish (by rw [hcalls, QHash.value_insert_self]), if_pos rfl,
      callOk_announced (hs.early id) (hok id) hpending]
    exact ⟨fun h _ _ => h, fun h => h hout hcontains⟩
  · rw [heq, if_neg hpending, List.foldl_cons, List.foldl_nil, CallNotifications.handleOutput,
      contains_removeCallNotification, if_pos rfl,
      callOk_notPending (hs.early id) (hs.notYet id) (hok id) hpending]
    refine forall_congr' fun hpos => ⟨fun hleft => ⟨fun _ => hout, fun h => ?_⟩, fun h => ?_⟩
    · rw [hleft] at h
      exact absurd h Bool.false_ne_true
    · by_contra hleft
      obtain ⟨call, hcall, hne⟩ := h.2 (by simpa using hleft) hout
      exact hne (hrecord call hcall)
  · rw [heq, List.foldl_nil, callOk_silent (hs.notYet id) (hok id)]
    by_cases hpending : getTdCallState (state.value TYPE_).toStr = .pending
    · rw [if_pos hpending]
      refine iff_of_true (fun h => absurd hpending h) fun hout hcontains => ?_
      exact absurd ⟨hcontains, hout, hpending⟩ hnotannounced
    · rw [if_neg hpending]
      refine ⟨fun h hpos => ⟨fun hleft => ?_, fun _ hout => ?_⟩, fun h _ hpos => ?_⟩
      · rw [h hpending hpos] at hleft
        exact absurd hleft.symm Bool.false_ne_true
      · by_contra hnone
        refine hnotended ⟨hout, fun call hcall => ?_, hpending⟩
        by_contra hne
        exact hnone ⟨call, hcall, hne⟩
      · by_contra hleft
        have hleft' : (s.history id).left = false := by simpa using hleft
        exact hnotended ⟨(h hpos).1 hleft', hs.pending id hpos hleft', hpending⟩

end Update

/-- **Step lemma.** -/
theorem announces_step {s s' : CallSession} {e : Event} (hs : s.Recorded) (hstep : s.step e = some s') :
    s'.Recorded ∧ (s.AnnouncesProperly → (s'.AnnouncesProperly ↔ s.UpdatesProperly e)) := by
  obtain ⟨⟨calls, outputs⟩, hhandle, heq⟩ := Option.map_eq_some_iff.mp hstep
  dsimp only at heq
  subst heq
  by_cases he : ∃ id uniqueId userId outgoing video state, e = .callUpdated id uniqueId userId outgoing video state
  · obtain ⟨id, uniqueId, userId, outgoing, video, state, rfl⟩ := he
    obtain ⟨m', hupdated, hcalls, -⟩ := s.calls.handleCallUpdated_eq id uniqueId userId outgoing video state
    obtain ⟨rfl, rfl⟩ := Prod.mk.inj (Option.some.inj (hhandle.symm.trans hupdated))
    exact ⟨recorded_updated hs hcalls, fun hs' => announces_updated hs hs' hcalls⟩
  · have hnone : ∀ id uniqueId userId outgoing video state,
        e ≠ .callUpdated id uniqueId userId outgoing video state :=
      fun id uniqueId userId outgoing video state heq => he ⟨id, uniqueId, userId, outgoing, video, state, heq⟩
    obtain ⟨hout, hcalls⟩ := handle_silent hhandle hnone
    have hsame := fun id => @note_silent (s.history id) id e outputs (hout id) (hnone id)
    refine ⟨⟨fun id => ?_, fun id => ?_, fun id => ?_⟩, fun hs' => iff_of_true ?_ ?_⟩
    · rw [(hsame id).1, (hsame id).2.2.1]
      exact hs.early id
    · rw [(hsame id).2.2.1, (hsame id).2.2.2]
      exact hs.notYet id
    · rw [(hsame id).1, (hsame id).2.2.1]
      exact fun hannounced hleft call hcall => hs.pending id hannounced hleft call (hcalls id call hcall)
    · rw [announcesProperly_iff]
      intro id
      rw [foldl_handleOutput_silent hout, callOk_congr (hsame id)]
      exact announcesProperly_iff.mp hs' id
    · cases e with
      | callUpdated id uniqueId userId outgoing video state => exact absurd rfl (hnone _ _ _ _ _ _)
      | _ => trivial

theorem recorded_new : new.Recorded :=
  ⟨fun _ _ => rfl, fun _ _ => rfl, fun _ hpos => absurd hpos (Nat.lt_irrefl 0)⟩

theorem announcesProperly_new : new.AnnouncesProperly := by
  refine ⟨fun id => ⟨rfl, Nat.zero_le 1, fun hleft => absurd hleft Bool.false_ne_true⟩, fun id => ?_⟩
  exact iff_of_false Bool.false_ne_true fun h => absurd h.1 (Nat.lt_irrefl 0)

/-- No event dereferences an absent call. -/
theorem exists_step (s : CallSession) (e : Event) : ∃ s', s.step e = some s' := by
  obtain ⟨calls, heq⟩ := s.calls.exists_step e
  obtain ⟨out, hhandle, -⟩ := Option.map_eq_some_iff.mp heq
  refine Option.isSome_iff_exists.mp ?_
  rw [step, hhandle]
  rfl

theorem isSome_run (es : List Event) : (run (lift step) (some new) es).isSome = true := by
  have hstep : ∀ (s : Option CallSession) e, s.isSome = true → True → (lift step s e).isSome = true := by
    intro s e hs _
    obtain ⟨s, rfl⟩ := Option.isSome_iff_exists.mp hs
    exact Option.isSome_iff_exists.mpr (s.exists_step e)
  exact Along.invariant hstep rfl (along_true (some new) es)

/-- **Announced calls.** In every state of a run declined calls are silent, no call is announced twice, a call that
leaves the pending state is said to do so once, and the notifications are those of the announced calls that are still
pending, exactly if all updates of the run are proper ones. -/
theorem calls_announced_iff (es : List Event) :
    (∀ es', es' <+: es → ∃ s, run (lift step) (some new) es' = some s ∧ s.AnnouncesProperly) ↔
      Along (lift step) (fun s e => ∀ s' ∈ s, s'.UpdatesProperly e) (some new) es := by
  have hrecorded : ∀ (s : CallSession) e s', s.Recorded → s.step e = some s' → s'.Recorded :=
    fun s e s' hs hstep => (announces_step hs hstep).1
  have hproper : ∀ (s : CallSession) e, s.Recorded → s.AnnouncesProperly →
      ((∀ s' ∈ s.step e, s'.AnnouncesProperly) ↔ s.UpdatesProperly e) := by
    intro s e hs hs'
    obtain ⟨s', hnext⟩ := s.exists_step e
    rw [← (announces_step hs hnext).2 hs', hnext]
    exact ⟨fun h => h _ rfl, fun h s' heq => Option.some.inj heq ▸ h⟩
  rw [← Along.always_iff_lift hrecorded hproper recorded_new announcesProperly_new es]
  refine forall₂_congr fun es' _ => ⟨?_, fun h => ?_⟩
  · rintro ⟨s, heq, hs⟩ s' hs'
    obtain rfl : s = s' := Option.some.inj (heq.symm.trans hs')
    exact hs
  · obtain ⟨s, heq⟩ := Option.isSome_iff_exists.mp (isSome_run es')
    exact ⟨s, heq, h s heq⟩

/-- A pending call that is declined is announced again, if it is updated before it is gone. -/
theorem not_calls_announced :
    ¬ ∀ es' : List Event,
      es' <+: [.callUpdated 5 1 7 false false [(TYPE_, .string "callStatePending")], .discardCall 5,
        .callUpdated 5 1 7 false false [(TYPE_, .string "callStatePending")]] →
      ∃ s, run (lift step) (some new) es' = some s ∧ s.AnnouncesProperly := by
  intro h
  obtain ⟨s, heq, hs⟩ := h _ (List.prefix_refl _)
  obtain rfl := Option.some.inj heq
  exact absurd (hs.proper 5).silent (by decide)

end CallSession

end YaqtLib
