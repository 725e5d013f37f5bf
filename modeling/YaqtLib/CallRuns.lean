import YaqtLib.CallsManager
import YaqtLib.Runs

/-! Whether the current call is among the active ones, over whole runs. -/

namespace YaqtLib

open Containers Runs TdConst

namespace CallsManager

/-- The current call is among the active ones, and what is read of it is there. -/
structure CurrentCallKnown (m : CallsManager) : Prop where
  known : m.currentCallId ≠ 0 → m.activeCalls.contains m.currentCallId = true
  userId : m.currentCallUserId.isSome = true
  state : m.getCurrentCallState.isSome = true
  error : m.currentCallError.isSome = true
  emojis : m.currentCallEmojis.isSome = true

theorem currentCallKnown_iff {m : CallsManager} :
    m.CurrentCallKnown ↔ (m.currentCallId ≠ 0 → m.activeCalls.contains m.currentCallId = true) := by
  refine ⟨CurrentCallKnown.known, fun h => ?_⟩
  by_cases hzero : m.currentCallId = 0
  · refine ⟨h, ?_, ?_, ?_, ?_⟩
    · rw [currentCallUserId, if_neg (not_not.mpr hzero)]
      rfl
    · rw [getCurrentCallState, if_pos hzero]
      rfl
    · rw [currentCallError, if_pos hzero]
      rfl
    · rw [currentCallEmojis, if_pos hzero]
      rfl
  · obtain ⟨call, hcall⟩ := (QHash.contains_iff _ _).mp (h hzero)
    refine ⟨h, ?_, ?_, ?_, ?_⟩
    · rw [currentCallUserId, if_pos hzero, hcall]
      rfl
    · rw [getCurrentCallState, if_neg hzero, hcall]
      rfl
    · rw [currentCallError, if_neg hzero, hcall]
      rfl
    · rw [currentCallEmojis, if_neg hzero, hcall]
      rfl

/-- A call that becomes the current one is active, and not the current one already. -/
def KnowsCall (m : CallsManager) : Event → Prop
  | .callIdReceived id => id ≠ 0 → m.activeCalls.contains id = true ∧ id ≠ m.currentCallId
  | .acceptCall callId => callId ≠ 0 → m.activeCalls.contains callId = true ∧ callId ≠ m.currentCallId
  | _ => True

instance (m : CallsManager) : ∀ e : Event, Decidable (m.KnowsCall e) := by
  rintro (_ | _) <;> dsimp only [KnowsCall] <;> infer_instance

/-- What is said of a call that is updated. -/
def announcements (m : CallsManager) (id : Int) (outgoing : Bool) (state : CallState) : List Output :=
  if m.activeCalls.contains id = false ∧ outgoing = false ∧ state = .pending then [.pendingIncomingCall id]
  else if outgoing = false ∧ (∀ call ∈ m.activeCalls.value id, call.state = .pending) ∧ state ≠ .pending then
    [.incomingCallNotPending id]
  else []

/-- What an update does; the call that is updated is active, also when it is made ready. -/
theorem handleCallUpdated_eq (m : CallsManager) (id uniqueId userId : Int) (outgoing video : Bool)
    (state : QVariantMap) : ∃ m',
    m.handleCallUpdated id uniqueId userId outgoing video state =
        some (m', m.announcements id outgoing (getTdCallState (state.value TYPE_).toStr)) ∧
      m'.activeCalls = m.activeCalls.insert id
        (((m.activeCalls.value id).getD .initial).update uniqueId userId outgoing video state) ∧
      m'.currentCallId = m.currentCallId := by
  have houtputs : (if !m.activeCalls.contains id ∧ !outgoing ∧
        getTdCallState (state.value TYPE_).toStr = .pending then [Output.pendingIncomingCall id]
      else if !outgoing ∧ (!m.activeCalls.contains id ∨ ((m.activeCalls.value id).getD .initial).state = .pending) ∧
        getTdCallState (state.value TYPE_).toStr ≠ .pending then [.incomingCallNotPending id]
      else []) = m.announcements id outgoing (getTdCallState (state.value TYPE_).toStr) := by
    rw [announcements, QHash.contains]
    cases m.activeCalls.value id with
    | none => simp
    | some call => simp
  rw [handleCallUpdated, ← houtputs]
  generalize hupdate : ((m.activeCalls.value id).getD .initial).update uniqueId userId outgoing video state = call
  have hstate : call.state = getTdCallState (state.value TYPE_).toStr := by rw [← hupdate]; rfl
  have hout : call.outgoing = outgoing := by rw [← hupdate]; rfl
  dsimp only
  rw [hstate, hout]
  by_cases hcurrent : m.currentCallId = id
  · rw [if_pos hcurrent]
    cases getTdCallState (state.value TYPE_).toStr with
    | ready =>
        dsimp only
        rw [handleCallReady]
        dsimp only
        rw [hcurrent, QHash.value_insert_self]
        exact ⟨_, rfl, rfl, rfl⟩
    | pending | exchangingKeys | hangingUp | discarded | error => exact ⟨_, rfl, rfl, rfl⟩
  · rw [if_neg hcurrent]
    exact ⟨_, rfl, rfl, rfl⟩

/-- No step dereferences an absent call. -/
theorem exists_step (m : CallsManager) (e : Event) : ∃ m', m.step e = some m' := by
  cases e with
  | callUpdated id uniqueId userId outgoing video state =>
      obtain ⟨m', heq, -⟩ := m.handleCallUpdated_eq id uniqueId userId outgoing video state
      exact ⟨m', by rw [step, handle, heq]; rfl⟩
  | _ => exact ⟨_, rfl⟩

theorem activeCalls_setCurrentCallId (m : CallsManager) (id : Int) : (m.setCurrentCallId id).activeCalls =
    if m.currentCallId ≠ 0 then m.activeCalls.remove m.currentCallId else m.activeCalls := rfl

theorem known_setCurrentCallId {m : CallsManager} (id : Int) :
    (m.setCurrentCallId id).CurrentCallKnown ↔
      (id ≠ 0 → m.activeCalls.contains id = true ∧ id ≠ m.currentCallId) := by
  rw [currentCallKnown_iff]
  change (id ≠ 0 → (m.setCurrentCallId id).activeCalls.contains id = true) ↔ _
  refine forall_congr' fun hid => ?_
  rw [activeCalls_setCurrentCallId]
  by_cases hcurrent : m.currentCallId = 0
  · rw [if_neg (not_not.mpr hcurrent), hcurrent]
    exact (and_iff_left hid).symm
  · rw [if_pos hcurrent, QHash.contains, QHash.value_remove]
    split_ifs with heq
    · exact iff_of_false Bool.false_ne_true fun h => h.2 heq
    · exact (and_iff_left heq).symm

/-- **Step lemma.** -/
theorem known_step {m : CallsManager} (e : Event) (hm : m.CurrentCallKnown) :
    (∀ m' ∈ m.step e, m'.CurrentCallKnown) ↔ m.KnowsCall e := by
  have hkeep : ∀ m' : CallsManager, m'.currentCallId = m.currentCallId →
      (∀ id, m.activeCalls.contains id = true → m.currentCallId = id → m'.activeCalls.contains id = true) →
      m'.CurrentCallKnown := by
    intro m' hcurrent hcalls
    rw [currentCallKnown_iff, hcurrent]
    exact fun hne => hcalls _ (currentCallKnown_iff.mp hm hne) rfl
  cases e with
  | callIdReceived id =>
      refine Iff.trans ⟨fun h => h _ rfl, fun h m' hm' => ?_⟩ (known_setCurrentCallId id)
      rwa [← Option.some.inj hm']
  | acceptCall callId =>
      refine Iff.trans ⟨fun h => h _ rfl, fun h m' hm' => ?_⟩ (known_setCurrentCallId callId)
      rwa [← Option.some.inj hm']
  | callUpdated id uniqueId userId outgoing video state =>
      refine iff_of_true (fun m' hm' => ?_) trivial
      obtain ⟨m'', heq, hcalls, hcurrent⟩ := m.handleCallUpdated_eq id uniqueId userId outgoing video state
      rw [step, handle, heq] at hm'
      obtain rfl : m'' = m' := Option.some.inj hm'
      refine hkeep m'' hcurrent fun k hk _ => ?_
      rw [hcalls, QHash.contains, QHash.value_insert]
      split_ifs
      · rfl
      · exact hk
  | discardCall callId =>
      refine iff_of_true (fun m' hm' => ?_) trivial
      obtain rfl := Option.some.inj hm'
      refine hkeep _ rfl fun k hk hcurrent => ?_
      dsimp only [discardCall]
      split_ifs with hremove
      · rw [QHash.contains, QHash.value_remove_of_ne _ fun heq => hremove.1 (hcurrent.trans heq)]
        exact hk
      · exact hk
  | stateUpdated callState state now =>
      refine iff_of_true (fun m' hm' => ?_) trivial
      obtain rfl := Option.some.inj hm'
      change (m.stateUpdated callState state now).CurrentCallKnown
      rw [stateUpdated]
      split
      · exact hm
      · exact hkeep _ rfl fun _ hk _ => hk
  | discardCurrentCall | signalBarsUpdated =>
      refine iff_of_true (fun m' hm' => ?_) trivial
      obtain rfl := Option.some.inj hm'
      exact hkeep _ rfl fun _ hk _ => hk

/-- **The current call.** In every state of a run the current call is among the active ones exactly if every call that
becomes the current one is active then, and not the current one already. -/
theorem currentCall_known_iff (es : List Event) :
    (∀ es', es' <+: es → ∃ m, run (lift step) (some new) es' = some m ∧ m.CurrentCallKnown) ↔
      Along (lift step) (fun s e => ∀ m ∈ s, m.KnowsCall e) (some new) es := by
  have hdefined : ∀ es' : List Event, ∃ m, run (lift step) (some new) es' = some m := by
    intro es'
    have hstep : ∀ (s : Option CallsManager) e, s.isSome = true → True → (lift step s e).isSome = true := by
      intro s e hs _
      obtain ⟨m, rfl⟩ := Option.isSome_iff_exists.mp hs
      obtain ⟨m', heq⟩ := m.exists_step e
      exact Option.isSome_iff_exists.mpr ⟨m', heq⟩
    exact Option.isSome_iff_exists.mp (Along.invariant hstep rfl (along_true (some new) es'))
  have hstart : new.CurrentCallKnown := currentCallKnown_iff.mpr fun hne => absurd rfl hne
  rw [← Along.always_iff_lift (I := CurrentCallKnown) (J := fun _ => True) (fun _ _ _ _ _ => trivial)
    (fun m e _ hm => known_step e hm) trivial hstart es]
  refine forall₂_congr fun es' _ => ⟨?_, fun h => ?_⟩
  · rintro ⟨m, heq, hknown⟩ m' hm'
    obtain rfl : m = m' := Option.some.inj (heq.symm.trans hm')
    exact hknown
  · obtain ⟨m, heq⟩ := hdefined es'
    exact ⟨m, heq, h m heq⟩

/-- The id of a call that was created comes before the call. -/
theorem not_currentCall_known :
    ¬ ∀ es' : List Event, es' <+: [.callIdReceived 5] →
      ∃ m, run (lift step) (some new) es' = some m ∧ m.CurrentCallKnown := by
  intro h
  obtain ⟨m, heq, hknown⟩ := h [.callIdReceived 5] (List.prefix_refl _)
  obtain rfl := Option.some.inj heq
  exact absurd (hknown.known (by decide)) (by decide)

end CallsManager

end YaqtLib
