import YaqtLib.CallRuns

/-! The tgcalls instance of the current call over whole runs: when one is made, stopped and destroyed. It is made for
every update that reports the call as ready, and stopped where a call is discarded or another one becomes the current. -/

namespace YaqtLib

open Containers Runs TdConst

/-- What happens to the instances, which are numbered in the order in which they are made. -/
inductive EngineEvent where
  | created (n : Nat)
  | stopped (n : Nat)
  | destroyed (n : Nat)
  deriving DecidableEq

namespace EngineEvent

def number : EngineEvent → Nat
  | .created n | .stopped n | .destroyed n => n

/-- The instance has been made and is not destroyed; the last event of a log is its first entry. -/
def Alive (log : List EngineEvent) (n : Nat) : Prop := .created n ∈ log ∧ .destroyed n ∉ log

/-- An instance that is replaced or dropped has been stopped before. -/
def StoppedFirst : List EngineEvent → Prop
  | [] => True
  | .destroyed n :: log => .stopped n ∈ log ∧ StoppedFirst log
  | _ :: log => StoppedFirst log

/-- At no time there are two instances. -/
def OneAtATime : List EngineEvent → Prop
  | [] => True
  | e :: log => (∀ n n', Alive (e :: log) n → Alive (e :: log) n' → n = n') ∧ OneAtATime log

variable {log : List EngineEvent} {n k : Nat}

theorem alive_created (h : ∀ e ∈ log, e.number ≠ k) : Alive (.created k :: log) n ↔ Alive log n ∨ n = k := by
  rw [Alive, Alive, List.mem_cons, List.mem_cons]
  constructor
  · rintro ⟨heq | hmem, hnot⟩
    · exact Or.inr (EngineEvent.created.inj heq)
    · exact Or.inl ⟨hmem, fun hdestroyed => hnot (Or.inr hdestroyed)⟩
  · rintro (⟨hmem, hnot⟩ | rfl)
    · refine ⟨Or.inr hmem, ?_⟩
      rintro (heq | hdestroyed)
      · cases heq
      · exact hnot hdestroyed
    · refine ⟨Or.inl rfl, ?_⟩
      rintro (heq | hdestroyed)
      · cases heq
      · exact h _ hdestroyed rfl

theorem alive_stopped : Alive (.stopped k :: log) n ↔ Alive log n := by
  rw [Alive, Alive, List.mem_cons, List.mem_cons, or_iff_right (by rintro ⟨⟩), or_iff_right (by rintro ⟨⟩)]

theorem alive_destroyed : Alive (.destroyed k :: log) n ↔ Alive log n ∧ n ≠ k := by
  rw [Alive, Alive, List.mem_cons, List.mem_cons, or_iff_right (by rintro ⟨⟩), not_or, EngineEvent.destroyed.injEq,
    and_comm (a := ¬ n = k), and_assoc]

end EngineEvent

open EngineEvent

/-- What an event does to the instance. -/
inductive EngineAction where
  | keep
  | resetInstance
  | handleCallReady
  deriving DecidableEq

namespace CallsManager

def engineAction (m : CallsManager) : Event → EngineAction
  | .callIdReceived _ | .acceptCall _ => .resetInstance
  | .callUpdated id _ _ _ _ state =>
      if m.currentCallId = id then
        match getTdCallState (state.value TYPE_).toStr with
        | .discarded => .resetInstance
        | .ready => .handleCallReady
        | _ => .keep
      else .keep
  | _ => .keep

/-- An instance is there only while the current call was last reported as ready or hanging up. -/
def Talking (m : CallsManager) : Prop :=
  m.hasInstance = true → ∃ call, m.activeCalls.value m.currentCallId = some call ∧
    (call.state = .ready ∨ call.state = .hangingUp)

/-- An update of the current call, while there is an instance for it, reports the end of the call. -/
def EndsProperly (m : CallsManager) : Event → Prop
  | .callUpdated id _ _ _ _ state => m.currentCallId = id → m.hasInstance = true →
      getTdCallState (state.value TYPE_).toStr = .hangingUp ∨ getTdCallState (state.value TYPE_).toStr = .discarded
  | _ => True

instance (m : CallsManager) : ∀ e : Event, Decidable (m.EndsProperly e) := by
  rintro (_ | _) <;> dsimp only [EndsProperly] <;> infer_instance

theorem hasInstance_handleCallUpdated {m : CallsManager} {id uniqueId userId : Int} {outgoing video : Bool}
    {state : QVariantMap} {r : CallsManager × List Output}
    (h : m.handleCallUpdated id uniqueId userId outgoing video state = some r) :
    r.1.hasInstance = if m.currentCallId = id then
        match getTdCallState (state.value TYPE_).toStr with
        | .discarded => false
        | .ready => true
        | _ => m.hasInstance
      else m.hasInstance := by
  have hstate : ∀ call : Call, (call.update uniqueId userId outgoing video state).state =
      getTdCallState (state.value TYPE_).toStr := fun _ => rfl
  rw [handleCallUpdated] at h
  obtain ⟨m', hm', rfl⟩ := Option.map_eq_some_iff.mp h
  dsimp only at hm' ⊢
  split_ifs at hm' ⊢ with hcurrent
  · rw [hstate] at hm'
    cases hcase : getTdCallState (state.value TYPE_).toStr with
    | ready =>
        rw [hcase] at hm'
        obtain ⟨call, -, rfl⟩ := Option.map_eq_some_iff.mp hm'
        rfl
    | pending | exchangingKeys | hangingUp | discarded | error =>
        rw [hcase] at hm'
        obtain rfl := Option.some.inj hm'
        rfl
  · obtain rfl := Option.some.inj hm'
    rfl

/-- The member `instance` after an event. -/
theorem hasInstance_step {m m' : CallsManager} {e : Event} (h : m.step e = some m') :
    m'.hasInstance = match m.engineAction e with
      | .keep => m.hasInstance
      | .resetInstance => false
      | .handleCallReady => true := by
  cases e with
  | callUpdated id uniqueId userId outgoing video state =>
      obtain ⟨r, hr, rfl⟩ := Option.map_eq_some_iff.mp h
      rw [hasInstance_handleCallUpdated hr, engineAction]
      split_ifs
      · cases getTdCallState (state.value TYPE_).toStr <;> rfl
      · rfl
  | stateUpdated callState state now =>
      obtain rfl := Option.some.inj h
      change (m.stateUpdated callState state now).hasInstance = m.hasInstance
      rw [stateUpdated]
      split_ifs <;> rfl
  | _ =>
      obtain rfl := Option.some.inj h
      rfl

/-- What is known of the current call before an event that leaves it and the instance alone. -/
theorem Talking.of_eq {m m' : CallsManager} (hm : m.Talking) (hinstance : m'.hasInstance = m.hasInstance)
    (hcall : m'.activeCalls.value m'.currentCallId = m.activeCalls.value m.currentCallId) : m'.Talking := by
  rw [Talking, hinstance, hcall]
  exact hm

/-- An update of the current call keeps the member `instance` in order exactly if a call whose instance stays is ready or
hanging up. -/
theorem talking_callUpdated_iff {m m' : CallsManager} {id uniqueId userId : Int} {outgoing video : Bool}
    {state : QVariantMap} (hm : m.Talking) (h : m.step (.callUpdated id uniqueId userId outgoing video state) = some m') :
    m'.Talking ↔ (m.currentCallId = id → m.hasInstance = true →
      getTdCallState (state.value TYPE_).toStr = .ready ∨ getTdCallState (state.value TYPE_).toStr = .hangingUp ∨
        getTdCallState (state.value TYPE_).toStr = .discarded) := by
  have hinstance := hasInstance_step h
  obtain ⟨m'', heq, hcalls, hcurrentId⟩ := m.handleCallUpdated_eq id uniqueId userId outgoing video state
  rw [step, handle, heq] at h
  obtain rfl : m'' = m' := Option.some.inj h
  rw [engineAction] at hinstance
  by_cases hcurrent : m.currentCallId = id
  · have hcall : m''.activeCalls.value m''.currentCallId =
        some (((m.activeCalls.value id).getD .initial).update uniqueId userId outgoing video state) := by
      rw [hcalls, hcurrentId, hcurrent, QHash.value_insert_self]
    rw [if_pos hcurrent] at hinstance
    have hiff : m''.Talking ↔ (m''.hasInstance = true → getTdCallState (state.value TYPE_).toStr = .ready ∨
        getTdCallState (state.value TYPE_).toStr = .hangingUp) := by
      rw [Talking, hcall]
      refine imp_congr_right fun _ => ⟨?_, fun hstate => ⟨_, rfl, hstate⟩⟩
      rintro ⟨call, hsome, hstate⟩
      rw [← Option.some.inj hsome] at hstate
      exact hstate
    rw [hiff, forall_prop_of_true hcurrent, hinstance]
    cases getTdCallState (state.value TYPE_).toStr <;> simp
  · rw [if_neg hcurrent] at hinstance
    refine iff_of_true (hm.of_eq hinstance ?_) fun hsame => absurd hsame hcurrent
    rw [hcalls, hcurrentId, QHash.value_insert_of_ne _ _ hcurrent]

/-- No other event makes the call and its instance disagree. -/
theorem talking_step {m m' : CallsManager} {e : Event} (hm : m.Talking) (h : m.step e = some m')
    (hother : ∀ id uniqueId userId outgoing video state, e ≠ .callUpdated id uniqueId userId outgoing video state) :
    m'.Talking := by
  cases e with
  | callUpdated id uniqueId userId outgoing video state => exact absurd rfl (hother _ _ _ _ _ _)
  | callIdReceived | acceptCall =>
      obtain rfl := Option.some.inj h
      exact fun hinstance => absurd hinstance Bool.false_ne_true
  | discardCall callId =>
      obtain rfl := Option.some.inj h
      refine hm.of_eq rfl ?_
      dsimp only [discardCall]
      split_ifs with hremove
      · exact QHash.value_remove_of_ne _ hremove.1
      · rfl
  | stateUpdated callState state now =>
      obtain rfl := Option.some.inj h
      change (m.stateUpdated callState state now).Talking
      rw [stateUpdated]
      split
      · exact hm
      · exact hm.of_eq rfl rfl
  | discardCurrentCall | signalBarsUpdated =>
      obtain rfl := Option.some.inj h
      exact hm.of_eq rfl rfl

end CallsManager

/-- The calls, the instance that is held if there is one, and what has happened to the instances. -/
structure CallEngine where
  calls : CallsManager
  held : Option Nat
  made : Nat
  log : List EngineEvent

namespace CallEngine

open CallsManager

def new : CallEngine := { calls := .new, held := none, made := 0, log := [] }

/-- The instance is stopped and dropped. -/
def resetInstance (s : CallEngine) : CallEngine :=
  match s.held with
  | none => s
  | some n => { s with held := none, log := .destroyed n :: .stopped n :: s.log }

/-- A new instance is made; that it is assigned to the member destroys the one which was there. -/
def handleCallReady (s : CallEngine) : CallEngine :=
  { s with
    held := some s.made
    made := s.made + 1
    log := (s.held.map EngineEvent.destroyed).toList ++ .created s.made :: s.log }

def act (s : CallEngine) : EngineAction → CallEngine
  | .keep => s
  | .resetInstance => s.resetInstance
  | .handleCallReady => s.handleCallReady

def step (s : CallEngine) (e : Event) : Option CallEngine :=
  (s.calls.step e).map fun calls => { s.act (s.calls.engineAction e) with calls := calls }

/-- The lifecycle of the instances. -/
structure Proper (s : CallEngine) : Prop where
  stoppedFirst : StoppedFirst s.log
  oneAtATime : OneAtATime s.log
  talking : s.calls.Talking

/-- The log tells of the instance that is held. -/
structure Tracked (s : CallEngine) : Prop where
  hasInstance : s.calls.hasInstance = s.held.isSome
  alive : ∀ n, Alive s.log n ↔ s.held = some n
  numbered : ∀ e ∈ s.log, e.number < s.made
  unstopped : ∀ n, s.held = some n → .stopped n ∉ s.log

/-! ### What is done to the instance -/

variable {s : CallEngine}

theorem tracked_resetInstance (hs : s.Tracked) :
    (∀ n, Alive s.resetInstance.log n ↔ s.resetInstance.held = some n) ∧
    (∀ e ∈ s.resetInstance.log, e.number < s.resetInstance.made) ∧ s.resetInstance.held = none := by
  rw [resetInstance]
  cases hheld : s.held with
  | none => exact ⟨hs.alive, hs.numbered, hheld⟩
  | some n =>
      have hmade : n < s.made := hs.numbered _ ((hs.alive n).mpr hheld).1
      refine ⟨fun k => ?_, fun e he => ?_, rfl⟩
      · rw [alive_destroyed, alive_stopped, hs.alive, hheld]
        refine iff_of_false (fun h => h.2 (Option.some.inj h.1).symm) (by rintro ⟨⟩)
      · rcases List.mem_cons.mp he with rfl | he
        · exact hmade
        · rcases List.mem_cons.mp he with rfl | he
          · exact hmade
          · exact hs.numbered e he

/-- A reset keeps the lifecycle in order. -/
theorem proper_resetInstance (hs : s.Tracked) (hfirst : StoppedFirst s.log) (hone : OneAtATime s.log) :
    StoppedFirst s.resetInstance.log ∧ OneAtATime s.resetInstance.log := by
  rw [resetInstance]
  cases hheld : s.held with
  | none => exact ⟨hfirst, hone⟩
  | some n =>
      refine ⟨⟨List.mem_cons_self, hfirst⟩, fun k k' hk hk' => ?_, fun k k' hk hk' => ?_, hone⟩
      · rw [alive_destroyed, alive_stopped, hs.alive, hheld] at hk
        exact absurd (Option.some.inj hk.1).symm hk.2
      · rw [alive_stopped, hs.alive] at hk hk'
        exact Option.some.inj (hk.symm.trans hk')

theorem alive_created_iff (hs : s.Tracked) (n : Nat) :
    Alive (.created s.made :: s.log) n ↔ s.held = some n ∨ n = s.made := by
  rw [alive_created fun e he => Nat.ne_of_lt (hs.numbered e he), hs.alive]

theorem tracked_handleCallReady (hs : s.Tracked) :
    (∀ n, Alive s.handleCallReady.log n ↔ s.handleCallReady.held = some n) ∧
    (∀ e ∈ s.handleCallReady.log, e.number < s.handleCallReady.made) ∧
    ∀ n, s.handleCallReady.held = some n → .stopped n ∉ s.handleCallReady.log := by
  have hcreated : ∀ e ∈ (.created s.made :: s.log : List EngineEvent), e.number < s.made + 1 := by
    intro e he
    rcases List.mem_cons.mp he with rfl | he
    · exact Nat.lt_succ_self _
    · exact Nat.lt_succ_of_lt (hs.numbered e he)
  have hunstopped : ∀ n, some s.made = some n → .stopped n ∉ (.created s.made :: s.log : List EngineEvent) := by
    intro n hn hmem
    rcases List.mem_cons.mp hmem with heq | hmem
    · cases heq
    · exact Nat.ne_of_lt (hs.numbered _ hmem) (Option.some.inj hn).symm
  have halive := alive_created_iff hs
  rw [handleCallReady]
  cases hheld : s.held with
  | none =>
      refine ⟨fun n => (halive n).trans ?_, hcreated, hunstopped⟩
      rw [hheld, or_iff_right (by rintro ⟨⟩), Option.some.injEq, eq_comm]
  | some k =>
      have hk : k < s.made := hs.numbered _ ((hs.alive k).mpr hheld).1
      refine ⟨fun n => ?_, fun e he => ?_, fun n hn hmem => ?_⟩
      · change Alive (.destroyed k :: .created s.made :: s.log) n ↔ some s.made = some n
        rw [alive_destroyed, halive, hheld, Option.some.injEq, Option.some.injEq]
        omega
      · rcases List.mem_cons.mp he with rfl | he
        · exact Nat.lt_succ_of_lt hk
        · exact hcreated e he
      · rcases List.mem_cons.mp hmem with heq | hmem
        · cases heq
        · exact hunstopped n hn hmem

/-- A new instance keeps the lifecycle in order exactly if there is none. -/
theorem proper_handleCallReady_iff (hs : s.Tracked) (hfirst : StoppedFirst s.log) (hone : OneAtATime s.log) :
    (StoppedFirst s.handleCallReady.log ∧ OneAtATime s.handleCallReady.log) ↔ s.held = none := by
  rw [handleCallReady]
  cases hheld : s.held with
  | none =>
      refine iff_of_true ⟨hfirst, fun n n' hn hn' => ?_, hone⟩ rfl
      have hiff := alive_created_iff hs
      rw [hheld] at hiff
      rw [((hiff n).mp hn).resolve_left (by rintro ⟨⟩), ((hiff n').mp hn').resolve_left (by rintro ⟨⟩)]
  | some n =>
      refine iff_of_false ?_ (Option.some_ne_none n)
      rintro ⟨⟨hstopped, -⟩, -⟩
      rcases List.mem_cons.mp hstopped with heq | hmem
      · cases heq
      · exact hs.unstopped n hheld hmem

/-! ### One event -/

theorem tracked_step {s' : CallEngine} {e : Event} (hs : s.Tracked) (h : s.step e = some s') : s'.Tracked := by
  obtain ⟨calls, hcalls, rfl⟩ := Option.map_eq_some_iff.mp h
  have hinstance := hasInstance_step hcalls
  cases haction : s.calls.engineAction e with
  | keep =>
      rw [haction] at hinstance
      exact ⟨hinstance.trans hs.hasInstance, hs.alive, hs.numbered, hs.unstopped⟩
  | resetInstance =>
      rw [haction] at hinstance
      obtain ⟨halive, hnumbered, hheld⟩ := tracked_resetInstance hs
      refine ⟨?_, halive, hnumbered, fun n hn => ?_⟩
      · change calls.hasInstance = s.resetInstance.held.isSome
        rw [hinstance, hheld]
        rfl
      · change s.resetInstance.held = some n at hn
        rw [hheld] at hn
        cases hn
  | handleCallReady =>
      rw [haction] at hinstance
      obtain ⟨halive, hnumbered, hunstopped⟩ := tracked_handleCallReady hs
      exact ⟨hinstance, halive, hnumbered, hunstopped⟩

/-- The log stays in order exactly if an instance is made only when there is none. -/
theorem log_step_iff {s' : CallEngine} {e : Event} (hs : s.Tracked) (hproper : s.Proper) (h : s.step e = some s') :
    (StoppedFirst s'.log ∧ OneAtATime s'.log) ↔
      (s.calls.engineAction e = .handleCallReady → s.calls.hasInstance = false) := by
  obtain ⟨calls, -, rfl⟩ := Option.map_eq_some_iff.mp h
  cases haction : s.calls.engineAction e with
  | keep => exact iff_of_true ⟨hproper.stoppedFirst, hproper.oneAtATime⟩ (by rintro ⟨⟩)
  | resetInstance =>
      exact iff_of_true (proper_resetInstance hs hproper.stoppedFirst hproper.oneAtATime) (by rintro ⟨⟩)
  | handleCallReady =>
      rw [forall_prop_of_true rfl, hs.hasInstance, Option.isSome_eq_false_iff, Option.isNone_iff_eq_none]
      exact proper_handleCallReady_iff hs hproper.stoppedFirst hproper.oneAtATime

theorem proper_iff {s : CallEngine} : s.Proper ↔ (StoppedFirst s.log ∧ OneAtATime s.log) ∧ s.calls.Talking :=
  ⟨fun h => ⟨⟨h.stoppedFirst, h.oneAtATime⟩, h.talking⟩, fun h => ⟨h.1.1, h.1.2, h.2⟩⟩

/-- **Step lemma.** -/
theorem proper_step_iff (hs : s.Tracked) (hproper : s.Proper) (e : Event) :
    (∀ s' ∈ s.step e, s'.Proper) ↔ s.calls.EndsProperly e := by
  obtain ⟨calls, hcalls⟩ := s.calls.exists_step e
  have hstep : s.step e = some { s.act (s.calls.engineAction e) with calls := calls } := by
    rw [step, hcalls, Option.map_some]
  have hlog := log_step_iff hs hproper hstep
  have hsome : (∀ s' ∈ s.step e, s'.Proper) ↔
      Proper { s.act (s.calls.engineAction e) with calls := calls } := by
    rw [hstep]
    exact ⟨fun h => h _ rfl, fun h s' hs' => Option.some.inj hs' ▸ h⟩
  rw [hsome, proper_iff, hlog]
  cases e with
  | callUpdated id uniqueId userId outgoing video state =>
      change _ ∧ calls.Talking ↔ _
      rw [talking_callUpdated_iff hproper.talking hcalls, engineAction, EndsProperly]
      by_cases hcurrent : s.calls.currentCallId = id
      · rw [if_pos hcurrent, forall_prop_of_true hcurrent, forall_prop_of_true hcurrent]
        cases getTdCallState (state.value TYPE_).toStr <;> cases s.calls.hasInstance <;> simp
      · rw [if_neg hcurrent]
        exact iff_of_true ⟨by rintro ⟨⟩, fun h => absurd h hcurrent⟩ fun h => absurd h hcurrent
  | _ =>
      refine iff_of_true ⟨by rintro ⟨⟩, talking_step hproper.talking hcalls ?_⟩ trivial
      rintro _ _ _ _ _ _ ⟨⟩

theorem tracked_new : new.Tracked where
  hasInstance := rfl
  alive n := iff_of_false (fun h => absurd h.1 List.not_mem_nil) (by rintro ⟨⟩)
  numbered e he := absurd he List.not_mem_nil
  unstopped n hn := by cases hn

theorem proper_new : new.Proper := ⟨trivial, trivial, fun h => absurd h Bool.false_ne_true⟩

/-- **The voice engine.** In all states of a run every instance that goes has been stopped, there is one instance at
most, and it is there only while the current call is ready or hanging up, exactly if every update of the current call
reports its end as long as there is an instance. -/
theorem engine_proper_iff (es : List Event) :
    (∀ es', es' <+: es → ∀ s ∈ run (lift step) (some new) es', s.Proper) ↔
      Along (lift step) (fun s e => ∀ s' ∈ s, s'.calls.EndsProperly e) (some new) es :=
  Along.always_iff_lift (fun _ _ _ hs h => tracked_step hs h) (fun _ e hs hproper => proper_step_iff hs hproper e)
    tracked_new proper_new es

/-- A call that is reported as ready twice. -/
theorem not_engine_proper :
    let ready : QVariantMap := [(TYPE_, .string "callStateReady")]
    let es : List Event := [.callIdReceived 1, .callUpdated 1 1 5 true false ready, .callUpdated 1 1 5 true false ready]
    ¬ ∀ s ∈ run (lift step) (some new) es, s.Proper := by
  intro ready es h
  have hstopped : EngineEvent.stopped 0 ∈ [EngineEvent.created 1, .created 0] := (h _ rfl).stoppedFirst.1
  revert hstopped
  decide

end CallEngine

end YaqtLib
