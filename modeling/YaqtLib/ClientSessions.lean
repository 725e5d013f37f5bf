import YaqtLib.Receiver
import YaqtLib.Runs

/-! The clients of TDLib one after the other (`tdlib/tdlibwrapper.cpp`, `tdlib/tdlibreceiver.cpp`). The receiver has a thread
of its own: it takes what TDLib returns, for whichever client, leaves out what is not for the client it knows, and the rest
reaches the wrapper through the queue of the main thread. When a client is closed the wrapper makes the next one. -/

namespace YaqtLib

open Runs TdConst TDLibReceiver

namespace TDLibWrapper

inductive AuthorizationState where
  | authorizationUnknown
  | waitTdlibParameters
  | waitPhoneNumber
  | waitPremiumPurchase
  | waitEmailAddress
  | waitEmailCode
  | waitCode
  | waitOtherDeviceConfirmation
  | waitRegistration
  | waitPassword
  | authorizationReady
  | loggingOut
  | closing
  | closed
  deriving DecidableEq

/-- The state of a type of TDLib. -/
def authorizationStateOf (authorizationState : String) : Option AuthorizationState :=
  if authorizationState = "authorizationStateWaitTdlibParameters" then some .waitTdlibParameters
  else if authorizationState = "authorizationStateWaitPhoneNumber" then some .waitPhoneNumber
  else if authorizationState = "authorizationStateWaitPremiumPurchase" then some .waitPremiumPurchase
  else if authorizationState = "authorizationStateWaitEmailAddress" then some .waitEmailAddress
  else if authorizationState = "authorizationStateWaitEmailCode" then some .waitEmailCode
  else if authorizationState = "authorizationStateWaitCode" then some .waitCode
  else if authorizationState = "authorizationStateWaitOtherDeviceConfirmation" then some .waitOtherDeviceConfirmation
  else if authorizationState = "authorizationStateWaitRegistration" then some .waitRegistration
  else if authorizationState = "authorizationStateWaitPassword" then some .waitPassword
  else if authorizationState = "authorizationStateReady" then some .authorizationReady
  else if authorizationState = "authorizationStateLoggingOut" then some .loggingOut
  else if authorizationState = "authorizationStateClosing" then some .closing
  else if authorizationState = "authorizationStateClosed" then some .closed
  else none

/-- The settings that the options of a new client depend on. -/
structure ClientSettings where
  tdLogVerbosity : Int
  logStream : QVariantMap
  storageOptimizer : Bool
  sendMarkdown : Bool
  tdlibParameters : QVariantMap

def setOption (name type : String) (value : QVariant) : QVariantMap :=
  [(TYPE_, .string "setOption"), ("name", .string name), ("value", .map [(TYPE_, .string type), ("value", value)])]

/-- The requests of `setInitialOptions`. -/
def initialOptions (settings : ClientSettings) : List QVariantMap :=
  [[(TYPE_, .string "setLogVerbosityLevel"), ("new_verbosity_level", .longLong settings.tdLogVerbosity)],
    [(TYPE_, .string "setLogStream"), ("log_stream", .map settings.logStream)],
    setOption "notification_group_count_max" "optionValueInteger" (.longLong 5),
    setOption "use_storage_optimizer" "optionValueBoolean" (.bool settings.storageOptimizer),
    setOption "always_parse_markdown" "optionValueBoolean" (.bool settings.sendMarkdown),
    setOption "online" "optionValueBoolean" (.bool true)]

/-- The request of `setTdlibParameters`; its other fields are those of the settings and the device. -/
def setTdlibParameters (settings : ClientSettings) : QVariantMap :=
  (TYPE_, .string "setTdlibParameters") :: settings.tdlibParameters

/-- The signals of the receiver. -/
inductive ReceiverSignal where
  | authorizationStateChanged (authorizationState : String) (authorizationStateData : QVariantMap)
  | other (data : QVariantMap)

/-- `processReceivedDocument`, with `processUpdateAuthorizationState`. -/
def processReceivedDocument (clientId : Int) (data : QVariantMap) : Option ReceiverSignal :=
  match route clientId data with
  | .ignored | .unhandled => none
  | .response _ => some (.other data)
  | .handler key =>
      if key = "updateAuthorizationState" then
        let authorizationState := (data.value "authorization_state").toMap
        some (.authorizationStateChanged (authorizationState.value TYPE_).toStr (authorizationState.remove TYPE_))
      else some (.other data)

/-- What TDLib returns: an update of a client, or the response to one of its requests. -/
structure ClientDocument where
  client : Nat
  isUpdate : Bool
  data : QVariantMap

/-- A signal on its way to the main thread, and what it was made of. -/
structure Delivery where
  client : Nat
  isUpdate : Bool
  signal : ReceiverSignal

/-- The signals of the wrapper on the change of the authorization; `tdDataReset` is the reset of the data. -/
inductive SessionSignal where
  | ready
  | clearContent
  | tdDataReset
  | authorizationStateChanged (authorizationState : AuthorizationState)

/-- The wrapper, its receiver and TDLib. What is behind `closed` only keeps what has happened: the requests that were sent,
the updates that TDLib has returned, what the wrapper has handled under which id, and the signals it has emitted. -/
structure ClientSessions where
  clientId : Nat
  authorizationState : AuthorizationState
  authorizationStateData : QVariantMap
  isClosing : Bool
  receiverClientId : Nat
  nextClientId : Nat
  returned : List ClientDocument
  queued : List Delivery
  closed : List Nat
  sent : List (Nat × QVariantMap)
  updates : List ClientDocument
  handled : List (Nat × Delivery)
  signals : List SessionSignal

inductive ClientEvent where
  /-- TDLib returns an update of a client. -/
  | update (client : Nat) (data : QVariantMap)
  | response (client : Nat) (data : QVariantMap)
  /-- `td_receive` in the thread of the receiver. -/
  | receive
  /-- The main thread comes to the next signal. -/
  | deliver (settings : ClientSettings)
  /-- Any function of the wrapper. -/
  | sendRequest (request : QVariantMap)
  /-- The destructor, up to its loop. -/
  | destroy

namespace ClientSessions

def sendRequest (s : ClientSessions) (request : QVariantMap) : ClientSessions :=
  { s with sent := s.sent ++ [(s.clientId, request)] }

def setInitialOptions (s : ClientSessions) (settings : ClientSettings) : ClientSessions :=
  { s with sent := s.sent ++ (initialOptions settings).map fun request => (s.clientId, request) }

def emit (s : ClientSessions) (signal : SessionSignal) : ClientSessions := { s with signals := s.signals ++ [signal] }

/-- The constructor. -/
def new (settings : ClientSettings) : ClientSessions :=
  { clientId := 1, authorizationState := .authorizationUnknown, authorizationStateData := [], isClosing := false
    receiverClientId := 1, nextClientId := 2, returned := [], queued := [], closed := [], sent := [], updates := []
    handled := [], signals := [] : ClientSessions }.setInitialOptions settings

/-- The client that comes after a closed one. -/
def createClient (s : ClientSessions) (settings : ClientSettings) : ClientSessions :=
  { s with clientId := s.nextClientId, receiverClientId := s.nextClientId,
           nextClientId := s.nextClientId + 1 }.setInitialOptions settings

/-- The branches of `handleAuthorizationStateChanged` but the last. -/
def takeAuthorizationState (s : ClientSessions) (settings : ClientSettings) (authorizationState : String) :
    ClientSessions :=
  let s :=
    if authorizationState = "authorizationStateWaitTdlibParameters" then s.sendRequest (setTdlibParameters settings) else s
  let s := { s with authorizationState := (authorizationStateOf authorizationState).getD s.authorizationState }
  let s := if authorizationState = "authorizationStateReady" then s.emit .ready else s
  let s := if authorizationState = "authorizationStateLoggingOut" then s.emit .clearContent else s
  if authorizationState = "authorizationStateClosing" ∧ s.isClosing = false then
    (s.emit .clearContent).emit .tdDataReset
  else s

def handleAuthorizationStateChanged (s : ClientSessions) (settings : ClientSettings) (authorizationState : String)
    (authorizationStateData : QVariantMap) : ClientSessions :=
  let s := s.takeAuthorizationState settings authorizationState
  let s :=
    if authorizationState = "authorizationStateClosed" ∧ s.isClosing = false then s.createClient settings else s
  { s with authorizationStateData := authorizationStateData }.emit (.authorizationStateChanged s.authorizationState)

/-- What TDLib returns for a client carries its id. -/
def document (client : Nat) (isUpdate : Bool) (data : QVariantMap) : ClientDocument :=
  { client := client, isUpdate := isUpdate, data := data.insert CLIENT_ID (.longLong client) }

/-- The authorization state that closes a client. -/
def isClosed (data : QVariantMap) : Bool :=
  (data.value TYPE_).toStr == "updateAuthorizationState" &&
    ((data.value "authorization_state").toMap.value TYPE_).toStr == "authorizationStateClosed"

def receive (s : ClientSessions) : ClientSessions :=
  match s.returned with
  | [] => s
  | d :: returned =>
      { s with
        returned := returned
        queued := s.queued ++ (processReceivedDocument s.receiverClientId d.data).toList.map fun signal =>
          { client := d.client, isUpdate := d.isUpdate, signal := signal } }

/-- The signals of the other updates and of responses change nothing of the session; the requests that their handlers send
come as events. -/
def deliver (s : ClientSessions) (settings : ClientSettings) : ClientSessions :=
  match s.queued with
  | [] => s
  | d :: queued =>
      let s := { s with queued := queued, handled := s.handled ++ [(s.clientId, d)] }
      match d.signal with
      | .authorizationStateChanged authorizationState authorizationStateData =>
          s.handleAuthorizationStateChanged settings authorizationState authorizationStateData
      | .other _ => s

def destroy (s : ClientSessions) : ClientSessions :=
  if s.authorizationState ≠ .closed then
    { s with isClosing := true }.sendRequest [(TYPE_, .string "close")]
  else s

def step (s : ClientSessions) : ClientEvent → ClientSessions
  | .update client data =>
      let d := document client true data
      { s with
        returned := s.returned ++ [d]
        updates := s.updates ++ [d]
        closed := if isClosed data then client :: s.closed else s.closed }
  | .response client data => { s with returned := s.returned ++ [document client false data] }
  | .receive => s.receive
  | .deliver settings => s.deliver settings
  | .sendRequest request => s.sendRequest request
  | .destroy => s.destroy

/-- What TDLib does: a client returns nothing before it gets a request, and no update after the one that closes it; an
update has no extra, and a response is no update of the authorization state. -/
def Documented (s : ClientSessions) : ClientEvent → Prop
  | .update client data => client ∈ s.sent.map Prod.fst ∧ client ∉ s.closed ∧ data.value EXTRA_ = .invalid
  | .response client data =>
      client ∈ s.sent.map Prod.fst ∧ (data.value TYPE_).toStr ≠ "updateAuthorizationState"
  | _ => True

/-! ### Documents and their signals -/

/-- What the signal of a document is if its client is the one the receiver knows. -/
def signalOf (d : ClientDocument) : Option Delivery :=
  (processReceivedDocument d.client d.data).map fun signal =>
    { client := d.client, isUpdate := d.isUpdate, signal := signal }

/-- The signal closes its client. -/
def closes (d : Delivery) : Bool :=
  match d.signal with
  | .authorizationStateChanged authorizationState _ => authorizationState == "authorizationStateClosed"
  | .other _ => false

theorem value_document_clientId (client : Nat) (isUpdate : Bool) (data : QVariantMap) :
    ((document client isUpdate data).data.value CLIENT_ID).toInt = client := by
  rw [document, QVariantMap.value_insert_self]
  rfl

theorem value_document (client : Nat) (isUpdate : Bool) (data : QVariantMap) {key : String} (h : key ≠ CLIENT_ID) :
    (document client isUpdate data).data.value key = data.value key :=
  QVariantMap.value_insert_of_ne _ _ h

theorem handlerOf_of_route {clientId : Int} {data : QVariantMap} {key : String} (h : route clientId data = .handler key) :
    handlerOf (data.value TYPE_).toStr = some key := by
  rw [route] at h
  split_ifs at h
  cases hid : requestIdMatch (data.value EXTRA_).toStr with
  | some digits =>
      rw [hid] at h
      cases h
  | none =>
      rw [hid] at h
      cases hhandler : handlerOf (data.value TYPE_).toStr with
      | none =>
          rw [hhandler] at h
          cases h
      | some key' =>
          rw [hhandler] at h
          exact congrArg some (Route.handler.inj h)

/-- Only an update of the authorization state has its signal. -/
theorem type_of_authorizationStateChanged {clientId : Int} {data : QVariantMap} {authorizationState : String}
    {authorizationStateData : QVariantMap}
    (h : processReceivedDocument clientId data = some (.authorizationStateChanged authorizationState authorizationStateData)) :
    (data.value TYPE_).toStr = "updateAuthorizationState" ∧
      authorizationState = ((data.value "authorization_state").toMap.value TYPE_).toStr := by
  rw [processReceivedDocument] at h
  cases hroute : route clientId data with
  | ignored =>
      rw [hroute] at h
      cases h
  | unhandled =>
      rw [hroute] at h
      cases h
  | response requestId =>
      rw [hroute] at h
      cases h
  | handler key =>
      rw [hroute] at h
      dsimp only at h
      split_ifs at h with hkey
      · cases h
        refine ⟨?_, rfl⟩
        rcases handlerOf_eq_some (handlerOf_of_route hroute) with htype | habstract
        · rw [← htype, hkey]
        · rw [hkey] at habstract
          exact absurd habstract (by decide)
      · cases h

/-- The signal of an update closes its client if the update does. -/
theorem closes_signalOf {client : Nat} {data : QVariantMap} (hextra : data.value EXTRA_ = .invalid) :
    (isClosed data = true → ∃ d, signalOf (document client true data) = some d ∧ closes d = true) ∧
      (isClosed data = false → ∀ d ∈ signalOf (document client true data), closes d = false) := by
  have hvalue : ∀ {key : String}, key ≠ CLIENT_ID → (document client true data).data.value key = data.value key :=
    fun h => value_document client true data h
  constructor
  · intro hclosed
    obtain ⟨htype, hstate⟩ := (Bool.and_eq_true _ _).mp hclosed
    have hroute : route client (document client true data).data = .handler "updateAuthorizationState" := by
      rw [route, if_neg (not_not.mpr (value_document_clientId client true data)), hvalue (by decide), hvalue (by decide),
        hextra, eq_of_beq htype]
      rfl
    have hsignal : processReceivedDocument client (document client true data).data = some (.authorizationStateChanged
        (((document client true data).data.value "authorization_state").toMap.value TYPE_).toStr
        (((document client true data).data.value "authorization_state").toMap.remove TYPE_)) := by
      rw [processReceivedDocument, hroute]
      rfl
    rw [← hvalue (by decide)] at hstate
    exact ⟨_, congrArg (Option.map _) hsignal, hstate⟩
  · intro hopen d hd
    obtain ⟨signal, hsignal, rfl⟩ := Option.map_eq_some_iff.mp hd
    cases signal with
    | other data => rfl
    | authorizationStateChanged authorizationState authorizationStateData =>
        obtain ⟨htype, hstate⟩ := type_of_authorizationStateChanged hsignal
        rw [hvalue (by decide)] at htype hstate
        rw [isClosed, htype, beq_self_eq_true, Bool.true_and, ← hstate] at hopen
        exact hopen

/-! ### The authorization state and the client -/

/-- The session has the same client, and has asked nobody else. -/
structure SameClient (s s' : ClientSessions) : Prop where
  clientId : s'.clientId = s.clientId
  receiverClientId : s'.receiverClientId = s.receiverClientId
  nextClientId : s'.nextClientId = s.nextClientId
  isClosing : s'.isClosing = s.isClosing
  returned : s'.returned = s.returned
  queued : s'.queued = s.queued
  closed : s'.closed = s.closed
  updates : s'.updates = s.updates
  handled : s'.handled = s.handled
  sent : ∀ client ∈ s'.sent.map Prod.fst, client ∈ s.sent.map Prod.fst ∨ client = s.clientId

namespace SameClient

variable {s s' s'' : ClientSessions}

theorem refl (s : ClientSessions) : SameClient s s where
  clientId := rfl
  receiverClientId := rfl
  nextClientId := rfl
  isClosing := rfl
  returned := rfl
  queued := rfl
  closed := rfl
  updates := rfl
  handled := rfl
  sent _ h := Or.inl h

theorem trans (h : SameClient s s') (h' : SameClient s' s'') : SameClient s s'' where
  clientId := h'.clientId.trans h.clientId
  receiverClientId := h'.receiverClientId.trans h.receiverClientId
  nextClientId := h'.nextClientId.trans h.nextClientId
  isClosing := h'.isClosing.trans h.isClosing
  returned := h'.returned.trans h.returned
  queued := h'.queued.trans h.queued
  closed := h'.closed.trans h.closed
  updates := h'.updates.trans h.updates
  handled := h'.handled.trans h.handled
  sent client hclient := by
    rcases h'.sent client hclient with hsent | hclient
    · exact h.sent client hsent
    · exact Or.inr (hclient.trans h.clientId)

theorem sendRequest (s : ClientSessions) (request : QVariantMap) : SameClient s (s.sendRequest request) where
  clientId := rfl
  receiverClientId := rfl
  nextClientId := rfl
  isClosing := rfl
  returned := rfl
  queued := rfl
  closed := rfl
  updates := rfl
  handled := rfl
  sent client h := by
    rw [ClientSessions.sendRequest, List.map_append, List.mem_append] at h
    exact h.imp_right List.mem_singleton.mp

theorem emit (h : SameClient s s') (signal : SessionSignal) : SameClient s (s'.emit signal) :=
  h.trans { refl s' with }

/-- The end of `handleAuthorizationStateChanged`. -/
theorem shown (s : ClientSessions) (authorizationStateData : QVariantMap) (signal : SessionSignal) :
    SameClient s ({ s with authorizationStateData := authorizationStateData }.emit signal) :=
  { refl s with }

/-- A step that is taken or not. -/
theorem ite {P : Prop} [Decidable P] (h : P → SameClient s s') (h' : ¬ P → SameClient s s'') :
    SameClient s (if P then s' else s'') := by
  split_ifs with hP
  · exact h hP
  · exact h' hP

end SameClient

theorem sameClient_takeAuthorizationState (s : ClientSessions) (settings : ClientSettings) (authorizationState : String) :
    SameClient s (s.takeAuthorizationState settings authorizationState) := by
  have hask : SameClient s (if authorizationState = "authorizationStateWaitTdlibParameters" then
      s.sendRequest (setTdlibParameters settings) else s) := .ite (fun _ => .sendRequest s _) fun _ => .refl s
  rw [takeAuthorizationState]
  generalize (if authorizationState = "authorizationStateWaitTdlibParameters" then
    s.sendRequest (setTdlibParameters settings) else s) = s' at hask ⊢
  have hstate : SameClient s { s' with authorizationState :=
      (authorizationStateOf authorizationState).getD s'.authorizationState } := hask.trans { SameClient.refl s' with }
  have hready := SameClient.ite (P := authorizationState = "authorizationStateReady")
    (fun _ => hstate.emit .ready) fun _ => hstate
  have hlogging := SameClient.ite (P := authorizationState = "authorizationStateLoggingOut")
    (fun _ => hready.emit .clearContent) fun _ => hready
  exact .ite (fun _ => (hlogging.emit .clearContent).emit .tdDataReset) fun _ => hlogging

/-- The wrapper keeps its client unless this client is closed. -/
theorem sameClient_handleAuthorizationStateChanged (s : ClientSessions) (settings : ClientSettings)
    (authorizationState : String) (authorizationStateData : QVariantMap)
    (h : authorizationState ≠ "authorizationStateClosed" ∨ s.isClosing = true) :
    SameClient s (s.handleAuthorizationStateChanged settings authorizationState authorizationStateData) := by
  have htake := sameClient_takeAuthorizationState s settings authorizationState
  rw [handleAuthorizationStateChanged, if_neg]
  · exact htake.trans (.shown _ _ _)
  · rintro ⟨hclosed, hclosing⟩
    rw [htake.isClosing] at hclosing
    rcases h with hne | hdestroyed
    · exact hne hclosed
    · rw [hdestroyed] at hclosing
      cases hclosing

/-- The session in which the wrapper takes the first signal. -/
def taken (s : ClientSessions) (d : Delivery) (queued : List Delivery) : ClientSessions :=
  { s with queued := queued, handled := s.handled ++ [(s.clientId, d)] }

section

variable {s : ClientSessions} {d : Delivery} {queued : List Delivery}

theorem deliver_nil (hqueued : s.queued = []) (settings : ClientSettings) : s.deliver settings = s := by
  rw [deliver, hqueued]

theorem deliver_other (hqueued : s.queued = d :: queued) {data : QVariantMap} (hsignal : d.signal = .other data)
    (settings : ClientSettings) : s.deliver settings = s.taken d queued := by
  rw [deliver, hqueued]
  simp only [hsignal]
  rfl

theorem deliver_authorizationState (hqueued : s.queued = d :: queued) {authorizationState : String}
    {authorizationStateData : QVariantMap}
    (hsignal : d.signal = .authorizationStateChanged authorizationState authorizationStateData)
    (settings : ClientSettings) :
    s.deliver settings =
      (s.taken d queued).handleAuthorizationStateChanged settings authorizationState authorizationStateData := by
  rw [deliver, hqueued]
  simp only [hsignal]
  rfl

end

/-! ### A logout -/

/-- An update of the authorization state. -/
def authorizationUpdate (authorizationState : String) : QVariantMap :=
  [(TYPE_, .string "updateAuthorizationState"), ("authorization_state", .map [(TYPE_, .string authorizationState)])]

def noSettings : ClientSettings :=
  { tdLogVerbosity := 0, logStream := [], storageOptimizer := true, sendMarkdown := false, tdlibParameters := [] }

/-- A client is closed, and the next one waits for its parameters. -/
def logout : List ClientEvent :=
  [.update 1 (authorizationUpdate "authorizationStateClosing"), .receive,
    .update 1 (authorizationUpdate "authorizationStateClosed"), .receive, .deliver noSettings, .deliver noSettings,
    .update 2 (authorizationUpdate "authorizationStateWaitTdlibParameters"), .receive, .deliver noSettings]

end ClientSessions

end TDLibWrapper

end YaqtLib
