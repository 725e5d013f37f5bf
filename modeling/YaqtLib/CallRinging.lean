import YaqtLib.CallNotifications
import YaqtLib.HashListings
import YaqtLib.NgfInterface

/-! How incoming calls ring: what the notifications for calls (`notificationmanager.cpp`) and the current call
(`callsmanager.cpp`) set of the device, through the mode control entity (`mceinterface.cpp`) and the feedback daemon. -/

namespace YaqtLib

open Containers Runs TdConst

abbrev NGF_EVENT_RINGTONE : String := "ringtone"
abbrev NGF_EVENT_VIBRA : String := "vibra"
abbrev NGF_EVENT_DEFAULT : String := "default"
abbrev STATE_RINGING : String := "ringing"
abbrev LED_PATTERN_CALL : String := "PatternCommunicationCall"

/-- The last call state that was set, and the LED patterns that were activated and not deactivated since. -/
structure MceInterface where
  lastSetCallState : String
  ledPatterns : List String

namespace MceInterface

def setCallState (m : MceInterface) (state : String) : MceInterface := { m with lastSetCallState := state }

def resetCallState (m : MceInterface) : MceInterface := m.setCallState "none"

def setLedPattern (m : MceInterface) (pattern : String) (activate : Bool) : MceInterface :=
  let others := m.ledPatterns.filter fun pattern' => pattern' ≠ pattern
  { m with ledPatterns := if activate then pattern :: others else others }

theorem mem_setLedPattern (m : MceInterface) (pattern : String) (activate : Bool) :
    pattern ∈ (m.setLedPattern pattern activate).ledPatterns ↔ activate = true := by
  cases activate <;> simp [setLedPattern]

/-- What `NotificationManager::controlCallState` sets, beside the ringtone. -/
def controlCallState (m : MceInterface) (enabled : Bool) : MceInterface :=
  let m :=
    if enabled then m.setCallState STATE_RINGING
    else if m.lastSetCallState = STATE_RINGING then m.resetCallState
    else m
  m.setLedPattern LED_PATTERN_CALL enabled

theorem lastSetCallState_controlCallState (m : MceInterface) {enabled : Bool}
    (h : (m.controlCallState enabled).lastSetCallState = STATE_RINGING) : enabled = true := by
  cases enabled with
  | true => rfl
  | false =>
      refine absurd h ?_
      change (if m.lastSetCallState = STATE_RINGING then m.resetCallState else m).lastSetCallState ≠ STATE_RINGING
      by_cases hringing : m.lastSetCallState = STATE_RINGING
      · rw [if_pos hringing]
        change "none" ≠ STATE_RINGING
        decide
      · rw [if_neg hringing]
        exact hringing

end MceInterface

/-- The call notifications, with their entries in an order in which the hash is walked. -/
structure CallNotificationHash where
  hash : CallNotifications
  entries : List (Int × CallNotification)
  listed : hash.ListedBy entries

namespace CallNotificationHash

def empty : CallNotificationHash := ⟨QHash.empty, [], QHash.listedBy_empty⟩

def isEmpty (m : CallNotificationHash) : Bool := m.entries.isEmpty

theorem isEmpty_eq_false_iff (m : CallNotificationHash) : m.isEmpty = false ↔ ∃ id, m.hash.contains id = true := by
  rw [isEmpty, List.isEmpty_eq_false_iff_exists_mem]
  constructor
  · rintro ⟨⟨id, notification⟩, hentry⟩
    exact ⟨id, (QHash.contains_iff _ _).mpr ⟨notification, (m.listed.2 id notification).mp hentry⟩⟩
  · rintro ⟨id, hcontains⟩
    obtain ⟨notification, hvalue⟩ := (QHash.contains_iff _ _).mp hcontains
    exact ⟨(id, notification), (m.listed.2 id notification).mpr hvalue⟩

def publish (m : CallNotificationHash) (calls : CallsManager) (callId : Int) : CallNotificationHash where
  hash := m.hash.publishCallNotification calls callId
  entries := match calls.activeCalls.value callId with
    | none => m.entries
    | some call => (callId, { userId := call.userId, video := call.video }) ::
        m.entries.filter fun entry => entry.1 ≠ callId
  listed := by
    rw [CallNotifications.publishCallNotification]
    cases calls.activeCalls.value callId with
    | none => exact m.listed
    | some call => exact m.listed.insert callId _

theorem remove_of_contains_eq_false (m : CallNotificationHash) {id : Int} (h : m.hash.contains id = false) :
    (m.entries.filter fun entry => entry.1 ≠ id) = m.entries := by
  refine List.filter_eq_self.mpr fun entry hentry => decide_eq_true ?_
  rintro rfl
  have hvalue := (m.listed.2 entry.1 entry.2).mp hentry
  rw [(QHash.contains_eq_false_iff _ _).mp h] at hvalue
  cases hvalue

def remove (m : CallNotificationHash) (id : Int) : CallNotificationHash where
  hash := m.hash.removeCallNotification id
  entries := m.entries.filter fun entry => entry.1 ≠ id
  listed := by
    rw [CallNotifications.removeCallNotification]
    split_ifs with hcontains
    · exact m.listed.remove id
    · rw [m.remove_of_contains_eq_false (Bool.eq_false_of_not_eq_true hcontains)]
      exact m.listed

end CallNotificationHash

/-- The calls, their notifications, and what is done so that one hears and sees of them. -/
structure CallRinging where
  calls : CallsManager
  callNotifications : CallNotificationHash
  enableNgfCallsRingtone : Bool
  mceInterface : MceInterface
  ngfInterface : NgfSession
  /-- The daemon refused the ringtone or ended it, since it was asked for last. -/
  givenUp : Bool

namespace CallRinging

def new : CallRinging :=
  { calls := .new, callNotifications := .empty, enableNgfCallsRingtone := false,
    mceInterface := { lastSetCallState := "", ledPatterns := [] }, ngfInterface := .new, givenUp := false }

/-- `NgfInterface::play` and `NgfInterface::stop` for the ringtone. -/
def playRingtone (s : CallRinging) : CallRinging :=
  { s with
    ngfInterface := s.ngfInterface.play NGF_EVENT_RINGTONE (NgfInterface.playProperties "" "" "voip")
    givenUp := false }

def stopRingtone (s : CallRinging) : CallRinging :=
  { s with ngfInterface := s.ngfInterface.stop NGF_EVENT_RINGTONE }

def controlRingtone (s : CallRinging) (enabled : Bool) : CallRinging :=
  if enabled then s.playRingtone else s.stopRingtone

def controlCallState (s : CallRinging) (enabled : Bool) : CallRinging :=
  let s := if s.enableNgfCallsRingtone then s.controlRingtone enabled else s
  { s with mceInterface := s.mceInterface.controlCallState enabled }

def publishCallNotification (s : CallRinging) (callId : Int) : CallRinging :=
  if s.calls.activeCalls.contains callId then
    controlCallState { s with callNotifications := s.callNotifications.publish s.calls callId } true
  else s

def removeCallNotification (s : CallRinging) (id : Int) : CallRinging :=
  if s.callNotifications.hash.contains id then
    let s := { s with callNotifications := s.callNotifications.remove id }
    if s.callNotifications.isEmpty then s.controlCallState false else s
  else s

def setEnableNgfCallsRingtone (s : CallRinging) (value : Bool) : CallRinging :=
  if s.enableNgfCallsRingtone = value then s
  else
    let s := { s with enableNgfCallsRingtone := value }
    if s.callNotifications.isEmpty then s else s.controlRingtone s.enableNgfCallsRingtone

/-- `updateNotificationForChat`, of a chat that is private or secret or not. -/
def updateNotificationForChat (s : CallRinging) (chatId : Int) (isPrivateOrSecretChat : Bool) : CallRinging :=
  (s.callNotifications.entries.map Prod.fst).foldl (fun s callId =>
    match s.calls.activeCalls.value callId with
    | none => s
    | some call => if isPrivateOrSecretChat ∧ call.userId = chatId then s.publishCallNotification callId else s) s

/-- `playInChatSound`, when messages come in and are sent. -/
def playInChatSound (s : CallRinging) (soundPath : String) : CallRinging :=
  let ngf := s.ngfInterface.play NGF_EVENT_DEFAULT [("sound.filename", .string soundPath)]
  { s with ngfInterface := ngf.play NGF_EVENT_VIBRA (NgfInterface.playProperties "" "" "voip") }

/-- The signals of the calls manager, as they are connected. -/
def handleOutput (s : CallRinging) : CallsManager.Output → CallRinging
  | .pendingIncomingCall callId => s.publishCallNotification callId
  | .incomingCallNotPending callId => s.removeCallNotification callId
  | .acceptCall _ | .discardCall _ _ => s

/-- The call state that the calls manager sets, through `resetInstance` and `setCurrentCallId`. -/
def currentCallState (calls : CallsManager) (m : MceInterface) : CallsManager.Event → MceInterface
  | .callIdReceived _ | .acceptCall _ => m.resetCallState.setCallState "active"
  | .callUpdated id _ _ _ _ state =>
      if calls.currentCallId = id ∧ getTdCallState (state.value TYPE_).toStr = .discarded then m.resetCallState else m
  | _ => m

inductive Event where
  | call (e : CallsManager.Event)
  | updateNotificationForChat (chatId : Int) (isPrivateOrSecretChat : Bool)
  | setEnableNgfCallsRingtone (value : Bool)
  | playInChatSound (soundPath : String)
  | playFinished (watcher : Nat) (reply : Option Nat)
  | eventStatusChanged (serverEventId status : Nat)

/-- A call event; none, if an absent call is dereferenced. -/
def handleCall (s : CallRinging) (e : CallsManager.Event) : Option CallRinging :=
  (s.calls.handle e).map fun (calls, outputs) =>
    let s' := outputs.foldl handleOutput { s with calls := calls }
    { s' with mceInterface := currentCallState s.calls s'.mceInterface e }

/-- An event of the daemon. -/
def hear (s : CallRinging) (e : NgfSession.Event) : CallRinging :=
  { s with
    ngfInterface := s.ngfInterface.step e
    givenUp := s.givenUp || s.ngfInterface.givesUp NGF_EVENT_RINGTONE e }

def step (s : CallRinging) : Event → Option CallRinging
  | .call e => s.handleCall e
  | .updateNotificationForChat chatId isPrivateOrSecretChat =>
      some (s.updateNotificationForChat chatId isPrivateOrSecretChat)
  | .setEnableNgfCallsRingtone value => some (s.setEnableNgfCallsRingtone value)
  | .playInChatSound soundPath => some (s.playInChatSound soundPath)
  | .playFinished watcher reply => some (s.hear (.playFinished watcher reply))
  | .eventStatusChanged serverEventId status => some (s.hear (.eventStatusChanged serverEventId status))

/-- The daemon gives no sound the id of another one that it has not ended. -/
def FreshIds (s : CallRinging) : Event → Prop
  | .playFinished watcher reply => s.ngfInterface.Expected (.playFinished watcher reply)
  | _ => True

instance (s : CallRinging) : ∀ e : Event, Decidable (s.FreshIds e) := by
  rintro (_ | _ | _ | _ | _ | _) <;> dsimp only [FreshIds] <;> infer_instance

/-- The ringtone is to be heard. -/
def wanted (s : CallRinging) : Bool := s.enableNgfCallsRingtone && !s.callNotifications.isEmpty

/-- The device rings for the call notifications: the pattern is lit while there are any, and only then the call state
is that of ringing. The client records every sound but those whose call was overtaken, and asks to stop no sound that
the daemon has not. While the ringtone is wanted it is heard or asked for, or the daemon has given it up since it was
asked for last; and else every ringtone but one whose call was overtaken was asked to stop. -/
structure RingsForCalls (s : CallRinging) : Prop where
  led : LED_PATTERN_CALL ∈ s.mceInterface.ledPatterns ↔ ∃ id, s.callNotifications.hash.contains id = true
  ringing : s.mceInterface.lastSetCallState = STATE_RINGING → ∃ id, s.callNotifications.hash.contains id = true
  recorded : ∀ sound ∈ s.ngfInterface.sounds, sound.overtaken = false →
    s.ngfInterface.ngf.playingEvents.value sound.event = some sound.id
  stops : ∀ event id, .stop id ∈ s.ngfInterface.ngf.stop event →
    ∃ sound ∈ s.ngfInterface.sounds, sound.event = event ∧ sound.id = id
  heard : s.wanted = true → s.ngfInterface.Sounding NGF_EVENT_RINGTONE ∨ s.givenUp = true
  silenced : s.wanted = false → ∀ sound ∈ s.ngfInterface.sounds, sound.event = NGF_EVENT_RINGTONE →
    sound.overtaken = false → sound.stopped = true

/-! ### What the steps keep -/

/-- What carries the induction. -/
structure Invariant (s : CallRinging) : Prop where
  consistent : s.ngfInterface.Consistent
  led : LED_PATTERN_CALL ∈ s.mceInterface.ledPatterns ↔ s.callNotifications.isEmpty = false
  ringing : s.mceInterface.lastSetCallState = STATE_RINGING → s.callNotifications.isEmpty = false
  heard : s.wanted = true → s.ngfInterface.Sounding NGF_EVENT_RINGTONE ∨ s.givenUp = true
  quiet : s.wanted = false → s.ngfInterface.Quiet NGF_EVENT_RINGTONE

theorem Invariant.ringsForCalls {s : CallRinging} (hs : s.Invariant) : s.RingsForCalls := by
  refine ⟨?_, ?_, fun sound hsound hfirst => (hs.consistent.recorded sound hsound hfirst).1, fun event id hstop => ?_,
    hs.heard, fun hwanted => (hs.quiet hwanted).sounds⟩
  · rw [← CallNotificationHash.isEmpty_eq_false_iff]
    exact hs.led
  · rw [← CallNotificationHash.isEmpty_eq_false_iff]
    exact hs.ringing
  · rw [NgfInterface.stop] at hstop
    cases hvalue : s.ngfInterface.ngf.playingEvents.value event with
    | none =>
        rw [hvalue] at hstop
        cases hstop
    | some id' =>
        rw [hvalue] at hstop
        obtain rfl := NgfRequest.stop.inj (List.mem_singleton.mp hstop)
        exact (hs.consistent.live event id hvalue).2

theorem invariant_new : new.Invariant where
  consistent := NgfSession.consistent_new
  led := iff_of_false List.not_mem_nil Bool.true_eq_false.mp
  ringing := fun heq => absurd heq (by decide)
  heard := fun hwanted => absurd hwanted Bool.false_ne_true
  quiet := fun _ => NgfSession.quiet_new _

variable {s : CallRinging}

/-- **The ringtone.** It is played where it is wanted, and stopped where it is not. -/
theorem controlRingtone_follows (hconsistent : s.ngfInterface.Consistent) (enabled : Bool) :
    (s.controlRingtone enabled).ngfInterface.Consistent ∧
      (enabled = true → (s.controlRingtone enabled).ngfInterface.Sounding NGF_EVENT_RINGTONE) ∧
      (enabled = false → (s.controlRingtone enabled).ngfInterface.Quiet NGF_EVENT_RINGTONE) := by
  cases enabled with
  | true =>
      refine ⟨hconsistent.play (by decide) _, fun _ => hconsistent.sounding_play _ _, fun h => ?_⟩
      exact absurd h Bool.true_eq_false.mp
  | false => exact ⟨hconsistent.stop _, fun h => absurd h Bool.false_ne_true, fun _ => hconsistent.quiet_stop _⟩

theorem controlCallState_eq (s : CallRinging) (enabled : Bool) : s.controlCallState enabled =
    { (if s.enableNgfCallsRingtone then s.controlRingtone enabled else s) with
      mceInterface := s.mceInterface.controlCallState enabled } := by
  rw [controlCallState]
  cases s.enableNgfCallsRingtone <;> cases enabled <;> rfl

theorem Invariant.quiet_of_disabled (hs : s.Invariant) (h : s.enableNgfCallsRingtone = false) :
    s.ngfInterface.Quiet NGF_EVENT_RINGTONE := by
  refine hs.quiet ?_
  rw [wanted, h, Bool.false_and]

/-- The call state is controlled when a notification was published and when the last one was removed. -/
theorem invariant_controlCallState (hconsistent : s.ngfInterface.Consistent)
    (hquiet : s.enableNgfCallsRingtone = false → s.ngfInterface.Quiet NGF_EVENT_RINGTONE) {enabled : Bool}
    (hempty : s.callNotifications.isEmpty = !enabled) : (s.controlCallState enabled).Invariant := by
  have hsome : s.callNotifications.isEmpty = false ↔ enabled = true := by
    rw [hempty, Bool.not_eq_false']
  have hled : LED_PATTERN_CALL ∈ (s.mceInterface.controlCallState enabled).ledPatterns ↔
      s.callNotifications.isEmpty = false := (MceInterface.mem_setLedPattern _ _ _).trans hsome.symm
  have hringing : (s.mceInterface.controlCallState enabled).lastSetCallState = STATE_RINGING →
      s.callNotifications.isEmpty = false := fun h => hsome.mpr (s.mceInterface.lastSetCallState_controlCallState h)
  rw [controlCallState_eq]
  cases hringtone : s.enableNgfCallsRingtone with
  | false =>
      rw [if_neg Bool.false_ne_true]
      refine ⟨hconsistent, hled, hringing, fun h => ?_, fun _ => hquiet hringtone⟩
      rw [wanted, hringtone, Bool.false_and] at h
      exact absurd h Bool.false_ne_true
  | true =>
      rw [if_pos rfl]
      obtain ⟨hconsistent', hsounding, hquiet'⟩ := controlRingtone_follows hconsistent enabled
      have hrest : (s.controlRingtone enabled).callNotifications = s.callNotifications ∧
          (s.controlRingtone enabled).enableNgfCallsRingtone = true := by
        cases enabled <;> exact ⟨rfl, hringtone⟩
      have hwanted : wanted { s.controlRingtone enabled with
          mceInterface := s.mceInterface.controlCallState enabled } = enabled := by
        rw [wanted, hrest.1, hrest.2, hempty, Bool.true_and, Bool.not_not]
      refine ⟨hconsistent', ?_, ?_, fun h => Or.inl (hsounding (hwanted.symm.trans h)),
        fun h => hquiet' (hwanted.symm.trans h)⟩
      · dsimp only
        rw [hrest.1]
        exact hled
      · dsimp only
        rw [hrest.1]
        exact hringing

/-- Whether the ringtone is wanted, and all else that the invariant speaks of, stays. -/
theorem Invariant.congr (hs : s.Invariant) {s' : CallRinging} (hngf : s'.ngfInterface = s.ngfInterface)
    (hled : s'.mceInterface.ledPatterns = s.mceInterface.ledPatterns)
    (hstate : s'.mceInterface.lastSetCallState = STATE_RINGING → s.mceInterface.lastSetCallState = STATE_RINGING)
    (hempty : s'.callNotifications.isEmpty = s.callNotifications.isEmpty)
    (hwanted : s'.wanted = s.wanted) (hgivenUp : s'.givenUp = s.givenUp) : s'.Invariant := by
  refine ⟨?_, ?_, fun h => ?_, fun h => ?_, fun h => ?_⟩
  · rw [hngf]
    exact hs.consistent
  · rw [hled, hempty]
    exact hs.led
  · rw [hempty]
    exact hs.ringing (hstate h)
  · rw [hngf, hgivenUp]
    exact hs.heard (hwanted.symm.trans h)
  · rw [hngf]
    exact hs.quiet (hwanted.symm.trans h)

theorem Invariant.publishCallNotification (hs : s.Invariant) (callId : Int) :
    (s.publishCallNotification callId).Invariant := by
  rw [CallRinging.publishCallNotification]
  split_ifs with hcontains
  · obtain ⟨call, hcall⟩ := (QHash.contains_iff _ _).mp hcontains
    apply invariant_controlCallState
    · exact hs.consistent
    · exact hs.quiet_of_disabled
    · dsimp only [CallNotificationHash.publish, CallNotificationHash.isEmpty]
      rw [hcall]
      rfl
  · exact hs

theorem Invariant.removeCallNotification (hs : s.Invariant) (id : Int) :
    (s.removeCallNotification id).Invariant := by
  rw [CallRinging.removeCallNotification]
  split_ifs with hcontains
  · have hsome : s.callNotifications.isEmpty = false :=
      (CallNotificationHash.isEmpty_eq_false_iff _).mpr ⟨id, hcontains⟩
    dsimp only
    cases hempty : (s.callNotifications.remove id).isEmpty with
    | true =>
        rw [if_pos rfl]
        apply invariant_controlCallState
        · exact hs.consistent
        · exact hs.quiet_of_disabled
        · exact hempty
    | false =>
        rw [if_neg Bool.false_ne_true]
        refine hs.congr rfl rfl (fun h => h) (hempty.trans hsome.symm) ?_ rfl
        rw [wanted, wanted, hsome]
        dsimp only
        rw [hempty]
  · exact hs

theorem Invariant.setEnableNgfCallsRingtone (hs : s.Invariant) (value : Bool) :
    (s.setEnableNgfCallsRingtone value).Invariant := by
  rw [CallRinging.setEnableNgfCallsRingtone]
  split_ifs with hsame
  · exact hs
  · dsimp only
    cases hempty : s.callNotifications.isEmpty with
    | true =>
        rw [if_pos rfl]
        refine hs.congr rfl rfl (fun h => h) rfl ?_ rfl
        rw [wanted, wanted, hempty, Bool.not_true, Bool.and_false, Bool.and_false]
    | false =>
        rw [if_neg Bool.false_ne_true]
        have hfollows := controlRingtone_follows (s := { s with enableNgfCallsRingtone := value }) hs.consistent value
        obtain ⟨hconsistent, hsounding, hquiet⟩ := hfollows
        have hrest : (controlRingtone { s with enableNgfCallsRingtone := value } value).callNotifications =
              s.callNotifications ∧
            (controlRingtone { s with enableNgfCallsRingtone := value } value).mceInterface = s.mceInterface ∧
            (controlRingtone { s with enableNgfCallsRingtone := value } value).wanted = value := by
          cases value <;> exact ⟨rfl, rfl, by simp [wanted, controlRingtone, playRingtone, stopRingtone, hempty]⟩
        refine ⟨hconsistent, ?_, ?_, fun h => Or.inl (hsounding (hrest.2.2.symm.trans h)),
          fun h => hquiet (hrest.2.2.symm.trans h)⟩
        · rw [hrest.1, hrest.2.1]
          exact hs.led
        · rw [hrest.1, hrest.2.1]
          exact hs.ringing

/-- An event of the daemon, and a sound for another event. -/
theorem Invariant.hear (hs : s.Invariant) {e : NgfSession.Event} (hexpected : s.ngfInterface.Expected e)
    (hother : NgfSession.PlaysOther NGF_EVENT_RINGTONE e) : (s.hear e).Invariant := by
  refine ⟨NgfSession.consistent_step _ _ hs.consistent hexpected, hs.led, hs.ringing, fun h => ?_,
    fun h => (hs.quiet h).step hother⟩
  change _ ∨ (s.givenUp || s.ngfInterface.givesUp NGF_EVENT_RINGTONE e) = true
  rw [Bool.or_eq_true]
  rcases hs.heard h with hsounding | hgivenUp
  · exact (hsounding.step e).imp_right Or.inr
  · exact Or.inr (Or.inl hgivenUp)

theorem Invariant.playInChatSound (hs : s.Invariant) (soundPath : String) : (s.playInChatSound soundPath).Invariant := by
  have hdefault : (s.hear (.play NGF_EVENT_DEFAULT [("sound.filename", .string soundPath)])).Invariant := by
    apply hs.hear
    · change NGF_EVENT_DEFAULT ≠ ""
      decide
    · change NGF_EVENT_DEFAULT ≠ NGF_EVENT_RINGTONE
      decide
  have hvibra := hdefault.hear (e := .play NGF_EVENT_VIBRA (NgfInterface.playProperties "" "" "voip"))
    (by change NGF_EVENT_VIBRA ≠ ""; decide) (by change NGF_EVENT_VIBRA ≠ NGF_EVENT_RINGTONE; decide)
  refine hvibra.congr rfl rfl (fun h => h) rfl rfl ?_
  change s.givenUp = ((s.givenUp || false) || false)
  rw [Bool.or_false, Bool.or_false]

theorem Invariant.updateNotificationForChat (hs : s.Invariant) (chatId : Int) (isPrivateOrSecretChat : Bool) :
    (s.updateNotificationForChat chatId isPrivateOrSecretChat).Invariant := by
  rw [CallRinging.updateNotificationForChat]
  generalize s.callNotifications.entries.map Prod.fst = callIds
  induction callIds generalizing s with
  | nil => exact hs
  | cons callId rest ih =>
      rw [List.foldl_cons]
      apply ih
      cases s.calls.activeCalls.value callId with
      | none => exact hs
      | some call =>
          dsimp only
          split_ifs
          · exact hs.publishCallNotification callId
          · exact hs

theorem Invariant.handleOutputs (hs : s.Invariant) (outputs : List CallsManager.Output) :
    (outputs.foldl handleOutput s).Invariant := by
  induction outputs generalizing s with
  | nil => exact hs
  | cons output rest ih =>
      rw [List.foldl_cons]
      apply ih
      cases output with
      | pendingIncomingCall callId => exact hs.publishCallNotification callId
      | incomingCallNotPending callId => exact hs.removeCallNotification callId
      | acceptCall callId => exact hs
      | discardCall callId duration => exact hs

/-- The calls manager lights no pattern, and does not set the call state of ringing. -/
theorem currentCallState_follows (calls : CallsManager) (m : MceInterface) (e : CallsManager.Event) :
    (currentCallState calls m e).ledPatterns = m.ledPatterns ∧
      ((currentCallState calls m e).lastSetCallState = STATE_RINGING → m.lastSetCallState = STATE_RINGING) := by
  have hnone : m.resetCallState.lastSetCallState = STATE_RINGING → m.lastSetCallState = STATE_RINGING := by
    intro h
    exact absurd (show "none" = STATE_RINGING from h) (by decide)
  have hactive : (m.resetCallState.setCallState "active").lastSetCallState = STATE_RINGING →
      m.lastSetCallState = STATE_RINGING := by
    intro h
    exact absurd (show "active" = STATE_RINGING from h) (by decide)
  cases e with
  | callIdReceived id => exact ⟨rfl, hactive⟩
  | acceptCall callId => exact ⟨rfl, hactive⟩
  | callUpdated id uniqueId userId outgoing video state =>
      rw [currentCallState]
      split_ifs
      · exact ⟨rfl, hnone⟩
      · exact ⟨rfl, fun h => h⟩
  | discardCall | discardCurrentCall | stateUpdated | signalBarsUpdated => exact ⟨rfl, fun h => h⟩

theorem Invariant.handleCall (hs : s.Invariant) {e : CallsManager.Event} {s' : CallRinging}
    (h : s.handleCall e = some s') : s'.Invariant := by
  obtain ⟨⟨calls, outputs⟩, -, rfl⟩ := Option.map_eq_some_iff.mp h
  have hcalls : Invariant { s with calls := calls } := hs.congr rfl rfl (fun h => h) rfl rfl rfl
  obtain ⟨hled, hstate⟩ := currentCallState_follows s.calls
    (outputs.foldl handleOutput { s with calls := calls }).mceInterface e
  exact (hcalls.handleOutputs outputs).congr rfl hled hstate rfl rfl rfl

/-- **Step lemma.** -/
theorem invariant_step (s : CallRinging) (e : Event) (s' : CallRinging) (hs : s.Invariant) (hfresh : s.FreshIds e)
    (h : s.step e = some s') : s'.Invariant := by
  cases e with
  | call e => exact hs.handleCall h
  | updateNotificationForChat chatId isPrivateOrSecretChat =>
      obtain rfl := Option.some.inj h
      exact hs.updateNotificationForChat chatId isPrivateOrSecretChat
  | setEnableNgfCallsRingtone value =>
      obtain rfl := Option.some.inj h
      exact hs.setEnableNgfCallsRingtone value
  | playInChatSound soundPath =>
      obtain rfl := Option.some.inj h
      exact hs.playInChatSound soundPath
  | playFinished watcher reply =>
      obtain rfl := Option.some.inj h
      exact hs.hear hfresh trivial
  | eventStatusChanged serverEventId status =>
      obtain rfl := Option.some.inj h
      exact hs.hear trivial trivial

/-- No event dereferences an absent call. -/
theorem exists_step (s : CallRinging) (e : Event) : ∃ s', s.step e = some s' := by
  cases e with
  | call e =>
      obtain ⟨calls, heq⟩ := s.calls.exists_step e
      obtain ⟨out, hhandle, -⟩ := Option.map_eq_some_iff.mp heq
      refine Option.isSome_iff_exists.mp ?_
      rw [step, handleCall, hhandle]
      rfl
  | _ => exact ⟨_, rfl⟩

end CallRinging

end YaqtLib
