import YaqtLib.Runs
import Mathlib.Data.List.Nodup

/-! The queued signals of a file (`tdlib/tdlibfile.cpp`). Setters queue the signals of what they change in a set of bits
and emit them at their end; a handler of a signal may call setters itself, so an emission can run inside of another
that is suspended at some index. -/

namespace YaqtLib

open Runs

/-- `TDLibFileSignal`, the signal of `name##Changed` under its name. -/
inductive TDLibFileSignal where
  | tdLib
  | fileInfo
  | autoLoad
  | clearWithInvalidFileInfo
  | id
  | expectedSize
  | size
  | path
  | downloadOffset
  | downloadedPrefixSize
  | downloadedSize
  | canBeDeleted
  | canBeDownloaded
  | downloadingActive
  | downloadingCompleted
  | remoteId
  | uniqueId
  | uploadedSize
  | uploadingActive
  | uploadingCompleted
  deriving DecidableEq

/-- `QUEUED_SIGNALS`: the order of the bits, and of the emitters. -/
def queuedSignalsList : List TDLibFileSignal :=
  [.tdLib, .fileInfo, .autoLoad, .clearWithInvalidFileInfo, .id, .expectedSize, .size, .path, .downloadOffset,
    .downloadedPrefixSize, .downloadedSize, .canBeDeleted, .canBeDownloaded, .downloadingActive, .downloadingCompleted,
    .remoteId, .uniqueId, .uploadedSize, .uploadingActive, .uploadingCompleted]

def signalCount : Nat := queuedSignalsList.length

namespace TDLibFileSignal

/-- The value of the enumerator. -/
def uint (signal : TDLibFileSignal) : Nat := queuedSignalsList.idxOf signal

theorem mem_queuedSignalsList (signal : TDLibFileSignal) : signal ∈ queuedSignalsList := by
  cases signal <;> decide

theorem uint_lt (signal : TDLibFileSignal) : signal.uint < signalCount :=
  List.idxOf_lt_length_of_mem signal.mem_queuedSignalsList

theorem uint_inj {signal signal' : TDLibFileSignal} : signal.uint = signal'.uint ↔ signal = signal' :=
  ⟨List.idxOf_inj signal.mem_queuedSignalsList |>.mp, congrArg uint⟩

/-- The enumerator of a value. -/
theorem exists_uint {i : Nat} (h : i < signalCount) : ∃ signal : TDLibFileSignal, signal.uint = i ∧
    queuedSignalsList[i]? = some signal := by
  refine ⟨queuedSignalsList[i], ?_, List.getElem?_eq_getElem h⟩
  exact List.Nodup.idxOf_getElem (by decide) i h

end TDLibFileSignal

/-- The members of a file that hold its queued signals. -/
structure SignalQueue where
  queuedSignals : BitVec 32
  firstQueuedSignal : Nat
  deriving DecidableEq

namespace SignalQueue

def init : SignalQueue := { queuedSignals := 0#32, firstQueuedSignal := signalCount }

def signalBit (signal : Nat) : BitVec 32 := 1#32 <<< signal

def queueSignal (q : SignalQueue) (signal : TDLibFileSignal) : SignalQueue :=
  if q.queuedSignals ≠ 0#32 then
    { queuedSignals := q.queuedSignals ||| signalBit signal.uint
      firstQueuedSignal := if signal.uint < q.firstQueuedSignal then signal.uint else q.firstQueuedSignal }
  else { queuedSignals := signalBit signal.uint, firstQueuedSignal := signal.uint }

/-- Whether the bit of index `i` is set. -/
def hasBit (q : SignalQueue) (i : Nat) : Bool := q.queuedSignals &&& signalBit i ≠ 0#32

/-- The bit of index `i` is taken out. -/
def takeBit (q : SignalQueue) (i : Nat) : SignalQueue :=
  { q with queuedSignals := q.queuedSignals &&& ~~~(signalBit i) }

def isQueued (q : SignalQueue) (signal : TDLibFileSignal) : Bool := q.hasBit signal.uint

theorem getLsbD_signalBit {i : Nat} (hi : i < 32) (j : Nat) : (signalBit i).getLsbD j = decide (j = i) := by
  rw [signalBit, BitVec.getLsbD_shiftLeft, BitVec.getLsbD_one, Bool.eq_iff_iff]
  simp only [Bool.and_eq_true, Bool.not_eq_true', decide_eq_true_eq, decide_eq_false_iff_not]
  omega

/-- The test of the source reads the bit. -/
theorem hasBit_eq (q : SignalQueue) {i : Nat} (hi : i < 32) : q.hasBit i = q.queuedSignals.getLsbD i := by
  rw [hasBit, Bool.eq_iff_iff, decide_eq_true_iff]
  constructor
  · intro hne
    by_contra hbit
    refine hne (BitVec.eq_of_getLsbD_eq fun j hj => ?_)
    rw [BitVec.getLsbD_and, getLsbD_signalBit hi, BitVec.getLsbD_zero]
    by_cases hji : j = i
    · rw [hji, Bool.not_eq_true _ |>.mp hbit, Bool.false_and]
    · rw [decide_eq_false hji, Bool.and_false]
  · intro hbit hzero
    have hget := congrArg (fun v : BitVec 32 => v.getLsbD i) hzero
    rw [BitVec.getLsbD_and, getLsbD_signalBit hi, decide_eq_true rfl, hbit, BitVec.getLsbD_zero] at hget
    cases hget

theorem signalCount_lt : signalCount < 32 := by decide

/-- What is queued are signals. -/
def WellFormed (q : SignalQueue) : Prop := ∀ i, q.queuedSignals.getLsbD i = true → i < signalCount

theorem eq_zero_iff {q : SignalQueue} (h : q.WellFormed) :
    q.queuedSignals = 0#32 ↔ ∀ i < signalCount, q.hasBit i = false := by
  have hcount := signalCount_lt
  constructor
  · intro hzero i hi
    rw [hasBit_eq q (by omega), hzero]
    exact BitVec.getLsbD_zero
  · intro hnone
    refine BitVec.eq_of_getLsbD_eq fun j hj => ?_
    rw [BitVec.getLsbD_zero]
    by_contra hbit
    rw [Bool.not_eq_false] at hbit
    have hset := hnone j (h j hbit)
    rw [hasBit_eq q hj, hbit] at hset
    cases hset

theorem hasBit_queueSignal (q : SignalQueue) (signal : TDLibFileSignal) {i : Nat} (hi : i < signalCount) :
    (q.queueSignal signal).hasBit i = (q.hasBit i || decide (i = signal.uint)) := by
  have hcount := signalCount_lt
  have hsignal := signal.uint_lt
  rw [hasBit_eq _ (by omega), hasBit_eq _ (by omega), queueSignal]
  by_cases hqueued : q.queuedSignals = 0#32
  · rw [if_neg fun h => h hqueued, hqueued, BitVec.getLsbD_zero, Bool.false_or]
    exact getLsbD_signalBit (by omega) i
  · rw [if_pos hqueued]
    dsimp only
    rw [BitVec.getLsbD_or, getLsbD_signalBit (by omega)]

theorem isQueued_queueSignal (q : SignalQueue) (signal signal' : TDLibFileSignal) :
    (q.queueSignal signal).isQueued signal' = (q.isQueued signal' || decide (signal' = signal)) := by
  rw [isQueued, hasBit_queueSignal _ _ signal'.uint_lt, isQueued]
  simp only [TDLibFileSignal.uint_inj]

theorem wellFormed_queueSignal {q : SignalQueue} (h : q.WellFormed) (signal : TDLibFileSignal) :
    (q.queueSignal signal).WellFormed := by
  have hcount := signalCount_lt
  have hsignal := signal.uint_lt
  intro i hbit
  rw [queueSignal] at hbit
  by_cases hqueued : q.queuedSignals = 0#32
  · rw [if_neg fun h => h hqueued] at hbit
    dsimp only at hbit
    rw [getLsbD_signalBit (by omega), decide_eq_true_iff] at hbit
    exact hbit ▸ hsignal
  · rw [if_pos hqueued] at hbit
    dsimp only at hbit
    rw [BitVec.getLsbD_or, Bool.or_eq_true, getLsbD_signalBit (by omega), decide_eq_true_iff] at hbit
    rcases hbit with hbit | rfl
    · exact h i hbit
    · exact hsignal

theorem hasBit_takeBit (q : SignalQueue) {i j : Nat} (hi : i < signalCount) (hj : j < signalCount) :
    (q.takeBit i).hasBit j = (q.hasBit j && decide (j ≠ i)) := by
  have hcount := signalCount_lt
  rw [hasBit_eq _ (by omega), hasBit_eq _ (by omega), takeBit]
  dsimp only
  rw [BitVec.getLsbD_and, BitVec.getLsbD_not, getLsbD_signalBit (by omega), decide_eq_true (show j < 32 by omega),
    Bool.true_and, decide_not]

theorem wellFormed_takeBit {q : SignalQueue} (h : q.WellFormed) (i : Nat) : (q.takeBit i).WellFormed := by
  intro j hbit
  rw [takeBit] at hbit
  dsimp only at hbit
  rw [BitVec.getLsbD_and, Bool.and_eq_true] at hbit
  exact h j hbit.1

/-- The cached index is that of the lowest bit. -/
def FirstIsLowest (q : SignalQueue) : Prop :=
  q.hasBit q.firstQueuedSignal = true ∧ ∀ i < signalCount, q.hasBit i = true → q.firstQueuedSignal ≤ i

/-- The first index of a non-empty queue does not pass the new signal, nor the old index. -/
theorem firstQueuedSignal_queueSignal (q : SignalQueue) (signal : TDLibFileSignal) :
    (q.queueSignal signal).firstQueuedSignal =
      if q.queuedSignals = 0#32 then signal.uint else min signal.uint q.firstQueuedSignal := by
  rw [queueSignal]
  by_cases hqueued : q.queuedSignals = 0#32
  · rw [if_neg fun h => h hqueued, if_pos hqueued]
  · rw [if_pos hqueued, if_neg hqueued]
    dsimp only
    split_ifs <;> omega

end SignalQueue

/-! ### Emissions -/

/-- What is on the stack of calls: the loop of an `emitQueuedSignals` at an index, or a handler that the loop has called
at that index, and whether the handler has queued signals since its last emission. -/
inductive Frame where
  | loop (i : Nat)
  | handler (i : Nat) (dirty : Bool)

/-- A file in the middle of its calls, the innermost call first; `raised` tells whose bits went from unset to set, and
`emitted` which signals were emitted. -/
structure Emission where
  queue : SignalQueue
  stack : List Frame
  raised : List TDLibFileSignal
  emitted : List TDLibFileSignal

/-- What happens next: a call from outside or from the handler that runs, a step of the innermost loop, or the end of
the handler. -/
inductive Action where
  | queueSignal (signal : TDLibFileSignal)
  | emitQueuedSignals
  | advance
  | handlerReturns

namespace Emission

def new : Emission := { queue := .init, stack := [], raised := [], emitted := [] }

/-- The signal is queued, and noted if it was not queued before. -/
def queueSignal (e : Emission) (signal : TDLibFileSignal) : Emission :=
  { e with
    queue := e.queue.queueSignal signal
    raised := if e.queue.isQueued signal then e.raised else signal :: e.raised }

/-- `emitQueuedSignals` up to its loop: the first queued signal is reset before the signals are emitted. -/
def emitQueuedSignals (e : Emission) : Emission :=
  if e.queue.queuedSignals ≠ 0#32 then
    { e with
      queue := { e.queue with firstQueuedSignal := signalCount }
      stack := .loop e.queue.firstQueuedSignal :: e.stack }
  else e

/-- The loop at index `i`, called from the frames `rest`. -/
def advance (e : Emission) (i : Nat) (rest : List Frame) : Emission :=
  if i < signalCount ∧ e.queue.queuedSignals ≠ 0#32 then
    if e.queue.hasBit i then
      { e with
        queue := e.queue.takeBit i
        stack := .handler i false :: rest
        emitted := queuedSignalsList[i]?.toList ++ e.emitted }
    else { e with stack := .loop (i + 1) :: rest }
  else { e with stack := rest }

/-- A handler that has queued signals calls `emitQueuedSignals` before it returns. -/
def step (e : Emission) : Action → Option Emission
  | .queueSignal signal =>
      match e.stack with
      | [] => some (e.queueSignal signal)
      | .handler i _ :: rest => some { e.queueSignal signal with stack := .handler i true :: rest }
      | .loop _ :: _ => none
  | .emitQueuedSignals =>
      match e.stack with
      | [] => some e.emitQueuedSignals
      | .handler i _ :: rest => some (emitQueuedSignals { e with stack := .handler i false :: rest })
      | .loop _ :: _ => none
  | .advance =>
      match e.stack with
      | .loop i :: rest => some (e.advance i rest)
      | _ => none
  | .handlerReturns =>
      match e.stack with
      | .handler i false :: rest => some { e with stack := .loop (i + 1) :: rest }
      | _ => none

/-! ### The invariant -/

/-- The loop of the frame still comes to the index. -/
def Covers : Frame → Nat → Prop
  | .loop i, j => i ≤ j
  | .handler i _, j => i < j

def Covered (stack : List Frame) (j : Nat) : Prop := ∃ frame ∈ stack, Covers frame j

/-- The call that runs may have queued signals that it has not emitted yet. -/
def MayQueue : List Frame → Prop
  | [] => True
  | .handler _ dirty :: _ => dirty = true
  | .loop _ :: _ => False

/-- A pending signal lies ahead of some loop, or has been queued by the call that runs. -/
def Pending (e : Emission) : Prop :=
  ∀ i < signalCount, e.queue.hasBit i = true →
    Covered e.stack i ∨ (MayQueue e.stack ∧ e.queue.firstQueuedSignal ≤ i)

/-- Each signal was emitted as often as its bit went from unset to set, but for a bit that is set. -/
def Counted (e : Emission) : Prop :=
  ∀ signal, e.raised.count signal = e.emitted.count signal + if e.queue.isQueued signal then 1 else 0

structure Invariant (e : Emission) : Prop where
  wellFormed : e.queue.WellFormed
  pending : Pending e
  first : e.stack = [] → e.queue.queuedSignals ≠ 0#32 → e.queue.hasBit e.queue.firstQueuedSignal = true
  counted : Counted e

variable {e e' : Emission}

theorem invariant_new : Invariant new where
  wellFormed i hbit := by
    have hzero : (0#32).getLsbD i = true := hbit
    rw [BitVec.getLsbD_zero] at hzero
    cases hzero
  pending i _ hbit := by
    have hcount := SignalQueue.signalCount_lt
    rw [SignalQueue.hasBit_eq _ (by omega)] at hbit
    have hzero : (0#32).getLsbD i = true := hbit
    rw [BitVec.getLsbD_zero] at hzero
    cases hzero
  first _ hne := absurd rfl hne
  counted signal := by cases signal <;> decide

theorem covered_cons {frame : Frame} {stack : List Frame} {j : Nat} :
    Covered (frame :: stack) j ↔ Covers frame j ∨ Covered stack j :=
  List.exists_mem_cons_iff ..

/-- A set bit makes the set of bits other than empty. -/
theorem queued_of_hasBit {q : SignalQueue} {i : Nat} (h : q.hasBit i = true) : q.queuedSignals ≠ 0#32 := by
  intro hzero
  rw [SignalQueue.hasBit, hzero, BitVec.zero_and] at h
  cases h

theorem pending_queueSignal (h : Pending e) (signal : TDLibFileSignal) {stack : List Frame} (hmay : MayQueue stack)
    (hcovers : ∀ i, Covered e.stack i → Covered stack i) :
    Pending { e.queueSignal signal with stack := stack } := by
  intro i hi hbit
  change (e.queue.queueSignal signal).hasBit i = true at hbit
  change Covered stack i ∨ MayQueue stack ∧ (e.queue.queueSignal signal).firstQueuedSignal ≤ i
  rw [SignalQueue.hasBit_queueSignal _ _ hi, Bool.or_eq_true, decide_eq_true_iff] at hbit
  rw [SignalQueue.firstQueuedSignal_queueSignal]
  rcases hbit with hbit | rfl
  · rw [if_neg (queued_of_hasBit hbit)]
    rcases h i hi hbit with hcovered | ⟨-, hfirst⟩
    · exact Or.inl (hcovers i hcovered)
    · exact Or.inr ⟨hmay, Nat.le_trans (Nat.min_le_right _ _) hfirst⟩
  · refine Or.inr ⟨hmay, ?_⟩
    split_ifs
    · exact Nat.le_refl _
    · exact Nat.min_le_left _ _

theorem counted_queueSignal (h : Counted e) (signal : TDLibFileSignal) : Counted (e.queueSignal signal) := by
  intro signal'
  have hcount := h signal'
  rw [queueSignal]
  dsimp only
  rw [SignalQueue.isQueued_queueSignal]
  by_cases hsame : signal' = signal
  · subst hsame
    rw [decide_eq_true rfl, Bool.or_true, if_pos rfl]
    split_ifs at hcount ⊢ with hqueued
    · exact hcount
    · rw [List.count_cons_self, hcount]
  · rw [decide_eq_false hsame, Bool.or_false, ← hcount]
    split_ifs
    · rfl
    · exact List.count_cons_of_ne (Ne.symm hsame)

theorem invariant_queueSignal (h : Invariant e) (signal : TDLibFileSignal) {stack : List Frame} (hmay : MayQueue stack)
    (hcovers : ∀ i, Covered e.stack i → Covered stack i) (hempty : stack = [] → e.stack = []) :
    Invariant { e.queueSignal signal with stack := stack } where
  wellFormed := SignalQueue.wellFormed_queueSignal h.wellFormed signal
  pending := pending_queueSignal h.pending signal hmay hcovers
  first hstack _ := by
    have hcount := signal.uint_lt
    have hset : (e.queue.queueSignal signal).hasBit signal.uint = true := by
      rw [SignalQueue.hasBit_queueSignal _ _ hcount, decide_eq_true rfl, Bool.or_true]
    change (e.queue.queueSignal signal).hasBit (e.queue.queueSignal signal).firstQueuedSignal = true
    rw [SignalQueue.firstQueuedSignal_queueSignal]
    split_ifs with hqueued
    · exact hset
    · rcases Nat.le_total signal.uint e.queue.firstQueuedSignal with hle | hle
      · rw [Nat.min_eq_left hle]
        exact hset
      · rw [Nat.min_eq_right hle, SignalQueue.hasBit_queueSignal _ _ (by omega), h.first (hempty hstack) hqueued,
          Bool.true_or]
  counted := counted_queueSignal h.counted signal

/-- The emission takes the pending signals of its caller over. -/
theorem invariant_emitQueuedSignals (h : Invariant e) {stack : List Frame}
    (hcovers : ∀ i, Covered e.stack i → Covered stack i) : Invariant (emitQueuedSignals { e with stack := stack }) := by
  rw [emitQueuedSignals]
  by_cases hqueued : e.queue.queuedSignals = 0#32
  · rw [if_neg fun hne => hne hqueued]
    refine ⟨h.wellFormed, fun i _ hbit => ?_, fun _ hne => absurd hqueued hne, h.counted⟩
    exact absurd hqueued (queued_of_hasBit hbit)
  · rw [if_pos hqueued]
    refine ⟨h.wellFormed, fun i hi hbit => Or.inl (covered_cons.mpr ?_), ?_, h.counted⟩
    · rcases h.pending i hi hbit with hcovered | ⟨-, hfirst⟩
      · exact Or.inr (hcovers i hcovered)
      · exact Or.inl hfirst
    · rintro ⟨⟩

/-- What is pending while a loop runs lies ahead of it, or of a frame below. -/
theorem ahead_of_loop (h : Invariant e) {i : Nat} {rest : List Frame} (hstack : e.stack = .loop i :: rest) {j : Nat}
    (hj : j < signalCount) (hbit : e.queue.hasBit j = true) : i ≤ j ∨ Covered rest j := by
  rcases h.pending j hj hbit with hcovered | ⟨hmay, -⟩
  · rw [hstack] at hcovered
    exact covered_cons.mp hcovered
  · rw [hstack] at hmay
    exact hmay.elim

/-- A loop that has come to its end leaves nothing behind but to the frames below. -/
theorem ahead_of_ended (h : Invariant e) {i : Nat} {rest : List Frame} (hstack : e.stack = .loop i :: rest)
    (hends : ¬ (i < signalCount ∧ e.queue.queuedSignals ≠ 0#32)) {j : Nat} (hj : j < signalCount)
    (hbit : e.queue.hasBit j = true) : Covered rest j := by
  refine (ahead_of_loop h hstack hj hbit).resolve_left fun hle => hends ⟨?_, queued_of_hasBit hbit⟩
  omega

theorem queued_of_ended (h : Invariant e) {i : Nat} (hstack : e.stack = [.loop i])
    (hends : ¬ (i < signalCount ∧ e.queue.queuedSignals ≠ 0#32)) : e.queue.queuedSignals = 0#32 := by
  refine (SignalQueue.eq_zero_iff h.wellFormed).mpr fun j hj => ?_
  by_contra hbit
  rw [Bool.not_eq_false] at hbit
  obtain ⟨frame, hmem, -⟩ := ahead_of_ended h hstack hends hj hbit
  cases hmem

theorem invariant_advance (h : Invariant e) {i : Nat} {rest : List Frame} (hstack : e.stack = .loop i :: rest) :
    Invariant (e.advance i rest) := by
  rw [advance]
  by_cases hgoes : i < signalCount ∧ e.queue.queuedSignals ≠ 0#32
  swap
  · rw [if_neg hgoes]
    refine ⟨h.wellFormed, fun j hj hbit => Or.inl (ahead_of_ended h hstack hgoes hj hbit), fun hnil hne => ?_, h.counted⟩
    obtain rfl : rest = [] := hnil
    exact absurd (queued_of_ended h hstack hgoes) hne
  rw [if_pos hgoes]
  by_cases hbit : e.queue.hasBit i = true
  swap
  · rw [if_neg hbit]
    refine ⟨h.wellFormed, fun j hj hset => Or.inl (covered_cons.mpr ?_), ?_, h.counted⟩
    · refine (ahead_of_loop h hstack hj hset).imp_left fun hle => ?_
      have hne : i ≠ j := fun heq => hbit (heq ▸ hset)
      change i + 1 ≤ j
      omega
    · rintro ⟨⟩
  · rw [if_pos hbit]
    refine ⟨SignalQueue.wellFormed_takeBit h.wellFormed i, fun j hj hset => Or.inl (covered_cons.mpr ?_), ?_, ?_⟩
    · change (e.queue.takeBit i).hasBit j = true at hset
      rw [SignalQueue.hasBit_takeBit _ hgoes.1 hj, Bool.and_eq_true, decide_eq_true_iff] at hset
      refine (ahead_of_loop h hstack hj hset.1).imp_left fun hle => ?_
      change i < j
      omega
    · rintro ⟨⟩
    · obtain ⟨signal, hsignal, hemitter⟩ := TDLibFileSignal.exists_uint hgoes.1
      intro signal'
      have hcount := h.counted signal'
      dsimp only
      rw [hemitter]
      change _ = (signal :: e.emitted).count signal' + if (e.queue.takeBit i).hasBit signal'.uint then 1 else 0
      rw [SignalQueue.hasBit_takeBit _ hgoes.1 signal'.uint_lt, hcount]
      by_cases hsame : signal' = signal
      · subst hsame
        have hqueued : e.queue.isQueued signal' = true := by
          rw [SignalQueue.isQueued, hsignal]
          exact hbit
        rw [hqueued, hsignal, List.count_cons_self, decide_eq_false (not_not.mpr rfl), Bool.and_false]
        rfl
      · have hne : signal'.uint ≠ i := fun heq => hsame (TDLibFileSignal.uint_inj.mp (heq.trans hsignal.symm))
        rw [List.count_cons_of_ne (Ne.symm hsame), decide_eq_true hne, Bool.and_true]
        rfl

/-- **Step lemma.** -/
theorem invariant_step (e : Emission) (a : Action) (e' : Emission) (h : Invariant e) (hstep : e.step a = some e') :
    Invariant e' := by
  cases a with
  | queueSignal signal =>
      rw [step] at hstep
      split at hstep
      · next hstack =>
        obtain rfl := Option.some.inj hstep
        have hmay : MayQueue [] := trivial
        have hkept := invariant_queueSignal h signal hmay (fun i hcovered => hstack ▸ hcovered) fun _ => hstack
        rw [← hstack] at hkept
        exact hkept
      · next i dirty rest hstack =>
        obtain rfl := Option.some.inj hstep
        refine invariant_queueSignal h signal rfl (fun j hcovered => ?_) (by rintro ⟨⟩)
        rw [hstack] at hcovered
        exact covered_cons.mpr ((covered_cons.mp hcovered).imp_left fun hahead => hahead)
      · cases hstep
  | emitQueuedSignals =>
      rw [step] at hstep
      split at hstep
      · next hstack =>
        obtain rfl := Option.some.inj hstep
        exact invariant_emitQueuedSignals h fun _ hcovered => hcovered
      · next i dirty rest hstack =>
        obtain rfl := Option.some.inj hstep
        refine invariant_emitQueuedSignals h fun j hcovered => ?_
        rw [hstack] at hcovered
        exact covered_cons.mpr ((covered_cons.mp hcovered).imp_left fun hahead => hahead)
      · cases hstep
  | advance =>
      rw [step] at hstep
      split at hstep
      · next i rest hstack =>
        obtain rfl := Option.some.inj hstep
        exact invariant_advance h hstack
      · cases hstep
  | handlerReturns =>
      rw [step] at hstep
      split at hstep
      · next i rest hstack =>
        obtain rfl := Option.some.inj hstep
        refine ⟨h.wellFormed, fun j hj hbit => Or.inl (covered_cons.mpr ?_), ?_, h.counted⟩
        · rcases h.pending j hj hbit with hcovered | ⟨hmay, -⟩
          · rw [hstack] at hcovered
            exact (covered_cons.mp hcovered).imp_left fun hahead => hahead
          · rw [hstack] at hmay
            cases hmay
        · rintro ⟨⟩
      · cases hstep

/-! ### What a run delivers -/

/-- The outermost emission returns by this step. -/
def Returns (e e' : Emission) : Prop := e.stack ≠ [] ∧ e'.stack = []

/-- Only the end of a loop empties the stack. -/
theorem ended_of_returns {a : Action} (hstep : e.step a = some e') (hreturns : Returns e e') :
    ∃ i, e.stack = [.loop i] ∧ ¬ (i < signalCount ∧ e.queue.queuedSignals ≠ 0#32) ∧ e' = { e with stack := [] } := by
  obtain ⟨hcalled, hnil⟩ := hreturns
  cases a with
  | queueSignal signal =>
      rw [step] at hstep
      split at hstep
      · next hstack => exact absurd hstack hcalled
      · obtain rfl := Option.some.inj hstep
        cases hnil
      · cases hstep
  | emitQueuedSignals =>
      rw [step] at hstep
      split at hstep
      · next hstack => exact absurd hstack hcalled
      · obtain rfl := Option.some.inj hstep
        rw [emitQueuedSignals] at hnil
        split_ifs at hnil
      · cases hstep
  | advance =>
      rw [step] at hstep
      split at hstep
      · next i rest hstack =>
        obtain rfl := Option.some.inj hstep
        rw [advance] at hnil ⊢
        split_ifs at hnil with hgoes
        obtain rfl : rest = [] := hnil
        rw [if_neg hgoes]
        exact ⟨i, hstack, hgoes, rfl⟩
      · cases hstep
  | handlerReturns =>
      rw [step] at hstep
      split at hstep
      · obtain rfl := Option.some.inj hstep
        cases hnil
      · cases hstep

theorem invariant_run (as : List Action) : ∀ e ∈ run (lift step) (some new) as, Invariant e :=
  invariant_lift invariant_step invariant_new as

/-- A handler of the size queues the id, whose index the outer loop has passed, and emits it. -/
example : (run (lift step) (some new) [.queueSignal .size, .emitQueuedSignals, .advance, .queueSignal .id,
    .emitQueuedSignals, .advance, .handlerReturns, .advance, .handlerReturns, .advance]).map
      (fun e => (e.emitted, e.queue.queuedSignals)) = some ([.id, .size], 0#32) := by decide

end Emission

end YaqtLib
