import YaqtLib.IndexMap
import YaqtLib.QVariant

/-! Voice calls (`callsmanager.cpp`, and the notifications for incoming calls of `notificationmanager.cpp`): the calls
TDLib reports, which of them is the current one, and what is said about incoming ones. The tgcalls instance is there
or not; what it is made of, the volume, battery and media state and the signals that properties changed are left out. -/

namespace YaqtLib

open Containers TdConst

/-- What a tgcalls instance says of its connection. -/
inductive TgCallsState where
  | waitInit
  | waitInitAck
  | established
  | failed
  | reconnecting
  deriving DecidableEq

inductive CallState where
  | pending
  | exchangingKeys
  | hangingUp
  | discarded
  | error
  | ready
  deriving DecidableEq

inductive CurrentCallState where
  | pending
  | ringing
  | exchangingKeys
  | hangingUp
  | declined
  | disconnected
  | hungUp
  | discarded
  | error
  | connecting
  | connected
  | unknownError
  deriving DecidableEq

def getTdCallState (type : String) : CallState :=
  if type = "callStatePending" then .pending
  else if type = "callStateExchangingKeys" then .exchangingKeys
  else if type = "callStateReady" then .ready
  else if type = "callStateHangingUp" then .hangingUp
  else if type = "callStateDiscarded" then .discarded
  else if type = "callStateError" then .error
  else .discarded

structure Call where
  uniqueId : Int
  userId : Int
  outgoing : Bool
  video : Bool
  state : CallState
  stateData : QVariantMap

namespace Call

/-- `Call()` -/
def initial : Call :=
  { uniqueId := 0, userId := 0, outgoing := false, video := false, state := .discarded, stateData := [] }

def update (_ : Call) (uniqueId userId : Int) (outgoing video : Bool) (state : QVariantMap) : Call :=
  { uniqueId := uniqueId, userId := userId, outgoing := outgoing, video := video,
    stateData := state.remove TYPE_, state := getTdCallState (state.value TYPE_).toStr }

end Call

structure CallsManager where
  activeCalls : QHash Int Call
  currentCallId : Int
  hasInstance : Bool
  currentCallReadyState : TgCallsState
  currentCallReadyTimestamp : Int
  signalBars : Int

namespace CallsManager

def new : CallsManager :=
  { activeCalls := QHash.empty, currentCallId := 0, hasInstance := false, currentCallReadyState := .reconnecting,
    currentCallReadyTimestamp := 0, signalBars := 0 }

/-- The signals about incoming calls, and the requests to TDLib. -/
inductive Output where
  | pendingIncomingCall (callId : Int)
  | incomingCallNotPending (callId : Int)
  | acceptCall (callId : Int)
  | discardCall (callId duration : Int)
  deriving DecidableEq

def resetInstance (m : CallsManager) (resetReadyTimestamp : Bool) : CallsManager :=
  { m with
    hasInstance := false
    currentCallReadyState := .reconnecting
    currentCallReadyTimestamp := if resetReadyTimestamp then 0 else m.currentCallReadyTimestamp
    signalBars := 0 }

def setCurrentCallId (m : CallsManager) (id : Int) : CallsManager :=
  let m := m.resetInstance true
  { m with
    activeCalls := if m.currentCallId ≠ 0 then m.activeCalls.remove m.currentCallId else m.activeCalls
    currentCallId := id }

/-- `handleCallReady`; none, if the current call is absent and a null pointer is dereferenced. -/
def handleCallReady (m : CallsManager) : Option CallsManager :=
  (m.activeCalls.value m.currentCallId).map fun _ => { m with hasInstance := true }

def handleCallUpdated (m : CallsManager) (id uniqueId userId : Int) (outgoing video : Bool) (state : QVariantMap) :
    Option (CallsManager × List Output) :=
  let newCall := !m.activeCalls.contains id
  let call := (m.activeCalls.value id).getD .initial
  let wasPending := call.state = .pending
  let call := call.update uniqueId userId outgoing video state
  let m := { m with activeCalls := m.activeCalls.insert id call }
  let outputs :=
    if newCall ∧ !call.outgoing ∧ call.state = .pending then [.pendingIncomingCall id]
    else if !call.outgoing ∧ (newCall ∨ wasPending) ∧ call.state ≠ .pending then [.incomingCallNotPending id]
    else []
  let m' :=
    if m.currentCallId = id then
      match call.state with
      | .pending | .exchangingKeys | .hangingUp | .error => some m
      | .discarded => some (m.resetInstance false)
      | .ready => m.handleCallReady
    else some m
  m'.map fun m => (m, outputs)

/-- `discardCurrentCall`, with the time in seconds. -/
def discardCurrentCall (m : CallsManager) (now : Int) : List Output :=
  [.discardCall m.currentCallId (if m.currentCallReadyTimestamp ≠ 0 then now - m.currentCallReadyTimestamp else 0)]

def acceptCall (m : CallsManager) (callId : Int) : CallsManager × List Output :=
  (m.setCurrentCallId callId, [.acceptCall callId])

def discardCall (m : CallsManager) (callId : Int) : CallsManager × List Output :=
  ({ m with
      activeCalls := if m.currentCallId ≠ callId ∧ m.activeCalls.contains callId then m.activeCalls.remove callId
        else m.activeCalls }, [.discardCall callId 0])

/-! ### The current call

None, if the current call is absent and a null pointer is dereferenced. -/

def currentCallUserId (m : CallsManager) : Option Int :=
  if m.currentCallId ≠ 0 then (m.activeCalls.value m.currentCallId).map Call.userId else some 0

def getCurrentCallState (m : CallsManager) : Option CurrentCallState :=
  if m.currentCallId = 0 then some .discarded
  else
    (m.activeCalls.value m.currentCallId).map fun call =>
      match call.state with
      | .ready =>
          if m.signalBars = 0 then .connecting
          else
            match m.currentCallReadyState with
            | .waitInit | .waitInitAck | .reconnecting => .connecting
            | .established => .connected
            | .failed => .unknownError
      | .pending => if (call.stateData.value "is_received").toBool then .ringing else .pending
      | .exchangingKeys => .exchangingKeys
      | .hangingUp => .hangingUp
      | .discarded =>
          let discardReason := ((call.stateData.value "discard_reason").toMap.value TYPE_).toStr
          if discardReason = "callDiscardReasonDeclined" then .declined
          else if discardReason = "callDiscardReasonDisconnected" then .disconnected
          else if discardReason = "callDiscardReasonHungUp" then .hungUp
          else .discarded
      | .error => .error

def currentCallError (m : CallsManager) : Option QVariantMap :=
  if m.currentCallId = 0 then some []
  else
    (m.activeCalls.value m.currentCallId).map fun call =>
      if call.state ≠ .error then [] else (call.stateData.value "error").toMap

def currentCallEmojis (m : CallsManager) : Option (List String) :=
  if m.currentCallId = 0 then some []
  else
    (m.activeCalls.value m.currentCallId).map fun call =>
      if call.state ≠ .ready then [] else (call.stateData.value "emojis").toList.map QVariant.toStr

/-! ### Runs -/

/-- What TDLib and the user do, and what the tgcalls instance reports; the call it was made for, whose state it asks,
may be gone from the active calls. -/
inductive Event where
  | callIdReceived (id : Int)
  | callUpdated (id uniqueId userId : Int) (outgoing video : Bool) (state : QVariantMap)
  | acceptCall (callId : Int)
  | discardCall (callId : Int)
  | discardCurrentCall (now : Int)
  | stateUpdated (callState : CallState) (state : TgCallsState) (now : Int)
  | signalBarsUpdated (bars : Int)

def stateUpdated (m : CallsManager) (callState : CallState) (state : TgCallsState) (now : Int) : CallsManager :=
  if callState ≠ .ready ∨ m.currentCallReadyState = state then m
  else
    { m with
      currentCallReadyState := state
      currentCallReadyTimestamp := if m.currentCallReadyTimestamp = 0 ∧ state = .established then now
        else m.currentCallReadyTimestamp }

def handle (m : CallsManager) : Event → Option (CallsManager × List Output)
  | .callIdReceived id => some (m.setCurrentCallId id, [])
  | .callUpdated id uniqueId userId outgoing video state =>
      m.handleCallUpdated id uniqueId userId outgoing video state
  | .acceptCall callId => some (m.acceptCall callId)
  | .discardCall callId => some (m.discardCall callId)
  | .discardCurrentCall now => some (m, m.discardCurrentCall now)
  | .stateUpdated callState state now => some (m.stateUpdated callState state now, [])
  | .signalBarsUpdated bars => some ({ m with signalBars := bars }, [])

def step (m : CallsManager) (e : Event) : Option CallsManager := (m.handle e).map Prod.fst

end CallsManager

end YaqtLib
