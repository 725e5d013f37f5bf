import Mathlib.Data.List.Basic

/-! Runs of a machine that takes one event at a time, and the induction rule for what holds along a
run whose every step meets a condition on the state before it and the event. -/

namespace Runs

variable {σ ε : Type} (step : σ → ε → σ)

/-- The state after a list of events. -/
def run (s : σ) (es : List ε) : σ := es.foldl step s

/-- Every step of the run meets `P`, a condition on the state before the step and its event. -/
def Along (P : σ → ε → Prop) : σ → List ε → Prop
  | _, [] => True
  | s, e :: es => P s e ∧ Along P (step s e) es

@[simp] theorem run_nil (s : σ) : run step s [] = s := rfl

@[simp] theorem run_cons (s : σ) (e : ε) (es : List ε) : run step s (e :: es) = run step (step s e) es := rfl

@[simp] theorem along_nil (P : σ → ε → Prop) (s : σ) : Along step P s [] := trivial

@[simp] theorem along_cons (P : σ → ε → Prop) (s : σ) (e : ε) (es : List ε) :
    Along step P s (e :: es) ↔ P s e ∧ Along step P (step s e) es := Iff.rfl

variable {step}

theorem Along.and {P Q : σ → ε → Prop} {s : σ} {es : List ε} (hP : Along step P s es) (hQ : Along step Q s es) :
    Along step (fun s e => P s e ∧ Q s e) s es := by
  induction es generalizing s with
  | nil => trivial
  | cons e es ih => exact ⟨⟨hP.1, hQ.1⟩, ih hP.2 hQ.2⟩

/-- **Invariant rule.** What one step preserves under the condition, a run whose steps meet the
condition preserves. -/
theorem Along.invariant {P : σ → ε → Prop} {I : σ → Prop}
    (hstep : ∀ s e, I s → P s e → I (step s e)) {s : σ} {es : List ε} (hs : I s) (hP : Along step P s es) :
    I (run step s es) := by
  induction es generalizing s with
  | nil => exact hs
  | cons e es ih => exact ih (hstep s e hs hP.1) hP.2

/-- The same for every state of the run. -/
theorem Along.invariant_always {P : σ → ε → Prop} {I : σ → Prop} (hstep : ∀ s e, I s → P s e → I (step s e)) {s : σ}
    {es : List ε} (hs : I s) (hP : Along step P s es) : ∀ es', es' <+: es → I (run step s es') := by
  induction es generalizing s with
  | nil =>
      intro es' hes'
      rw [List.prefix_nil.mp hes']
      exact hs
  | cons e es ih =>
      intro es' hes'
      cases es' with
      | nil => exact hs
      | cons e' es' =>
          obtain ⟨rfl, hstarts⟩ := List.cons_prefix_cons.mp hes'
          exact ih (hstep s e' hs hP.1) hP.2 es' hstarts

/-- Along a run, a step condition may use the invariant of the states before it. -/
theorem Along.mono {P Q : σ → ε → Prop} {I : σ → Prop} (hstep : ∀ s e, I s → P s e → I (step s e))
    (himp : ∀ s e, I s → P s e → Q s e) {s : σ} {es : List ε} (hs : I s) (hP : Along step P s es) :
    Along step Q s es := by
  induction es generalizing s with
  | nil => trivial
  | cons e es ih => exact ⟨himp s e hs hP.1, ih (hstep s e hs hP.1) hP.2⟩

/-- Step conditions that agree where the invariant `J` of all steps holds agree along a run. -/
theorem Along.congr {P Q : σ → ε → Prop} {J : σ → Prop} (hJ : ∀ s e, J s → J (step s e))
    (hPQ : ∀ s e, J s → (P s e ↔ Q s e)) {s : σ} (hs : J s) (es : List ε) :
    Along step P s es ↔ Along step Q s es := by
  constructor
  · exact Along.mono (fun s e hs _ => hJ s e hs) (fun s e hs => (hPQ s e hs).mp) hs
  · exact Along.mono (fun s e hs _ => hJ s e hs) (fun s e hs => (hPQ s e hs).mpr) hs

/-- What a step keeps exactly if it meets the condition holds in every state of a run exactly if all steps
of the run meet it; `J` is what every step keeps that the environment, `E`, can take. -/
theorem Along.always_iff_of {E P : σ → ε → Prop} {I J : σ → Prop} (hJ : ∀ s e, J s → E s e → J (step s e))
    (hstep : ∀ s e, J s → I s → E s e → (I (step s e) ↔ P s e)) {s : σ} (hs : J s) (hI : I s) {es : List ε}
    (hE : Along step E s es) : (∀ es', es' <+: es → I (run step s es')) ↔ Along step P s es := by
  induction es generalizing s with
  | nil =>
      refine iff_of_true (fun es' hes' => ?_) trivial
      rw [List.prefix_nil.mp hes']
      exact hI
  | cons e es ih =>
      have hfirst := hstep s e hs hI hE.1
      constructor
      · intro h
        have hI' : I (step s e) := h [e] (List.prefix_append [e] es)
        refine ⟨hfirst.mp hI', (ih (hJ s e hs hE.1) hI' hE.2).mp fun es' hes' => ?_⟩
        exact h (e :: es') ((List.prefix_cons_inj e).mpr hes')
      · rintro ⟨hP, hrest⟩ es' hes'
        cases es' with
        | nil => exact hI
        | cons e' es' =>
            obtain ⟨rfl, hstarts⟩ := List.cons_prefix_cons.mp hes'
            exact (ih (hJ s e' hs hE.1) (hfirst.mpr hP) hE.2).mpr hrest es' hstarts

/-- Step conditions that agree in the states of an invariant agree along a run if the first of them keeps it. -/
theorem Along.iff_of_keeps {P Q : σ → ε → Prop} {I : σ → Prop} (hPQ : ∀ s e, I s → (P s e ↔ Q s e))
    (hkeep : ∀ s e, I s → P s e → I (step s e)) {s : σ} (hs : I s) (es : List ε) :
    Along step P s es ↔ Along step Q s es :=
  ⟨Along.mono hkeep (fun s e hs => (hPQ s e hs).mp) hs,
    Along.mono (fun s e hs hQ => hkeep s e hs ((hPQ s e hs).mpr hQ)) (fun s e hs => (hPQ s e hs).mpr) hs⟩

/-- The same in an environment, `E`, on which the steps depend. -/
theorem Along.iff_of_keeps_of {E P Q : σ → ε → Prop} {I : σ → Prop} (hPQ : ∀ s e, I s → E s e → (P s e ↔ Q s e))
    (hkeep : ∀ s e, I s → E s e → P s e → I (step s e)) {s : σ} (hs : I s) {es : List ε} (hE : Along step E s es) :
    Along step P s es ↔ Along step Q s es := by
  induction es generalizing s with
  | nil => exact Iff.rfl
  | cons e es ih =>
      constructor
      · rintro ⟨hP, halong⟩
        exact ⟨(hPQ s e hs hE.1).mp hP, (ih (hkeep s e hs hE.1 hP) hE.2).mp halong⟩
      · rintro ⟨hQ, halong⟩
        have hP := (hPQ s e hs hE.1).mpr hQ
        exact ⟨hP, (ih (hkeep s e hs hE.1 hP) hE.2).mpr halong⟩

theorem along_true (s : σ) (es : List ε) : Along step (fun _ _ => True) s es := by
  induction es generalizing s with
  | nil => trivial
  | cons e es ih => exact ⟨trivial, ih (step s e)⟩

/-- The same without an environment. -/
theorem Along.always_iff {P : σ → ε → Prop} {I J : σ → Prop} (hJ : ∀ s e, J s → J (step s e))
    (hstep : ∀ s e, J s → I s → (I (step s e) ↔ P s e)) {s : σ} (hs : J s) (hI : I s) (es : List ε) :
    (∀ es', es' <+: es → I (run step s es')) ↔ Along step P s es :=
  Along.always_iff_of (fun s e hs _ => hJ s e hs) (fun s e hs hI _ => hstep s e hs hI) hs hI (along_true s es)

instance Along.decidable (P : σ → ε → Prop) [∀ s e, Decidable (P s e)] :
    ∀ s es, Decidable (Along step P s es)
  | _, [] => inferInstanceAs (Decidable True)
  | s, e :: es =>
      have := Along.decidable P (step s e) es
      inferInstanceAs (Decidable (P s e ∧ Along step P (step s e) es))

/-- The same where what every state of the run is asked, `C`, says less than what carries the induction, `I`. -/
theorem Along.always_iff_of_stronger {P : σ → ε → Prop} {C I : σ → Prop} (hIC : ∀ s, I s → C s)
    (hstep : ∀ s e, I s → (C (step s e) → P s e) ∧ (P s e → I (step s e))) {s : σ} (hI : I s) (es : List ε) :
    (∀ es', es' <+: es → C (run step s es')) ↔ Along step P s es := by
  induction es generalizing s with
  | nil =>
      refine iff_of_true (fun es' hes' => ?_) trivial
      rw [List.prefix_nil.mp hes']
      exact hIC s hI
  | cons e es ih =>
      constructor
      · intro h
        have hP : P s e := (hstep s e hI).1 (h [e] ⟨es, rfl⟩)
        refine ⟨hP, (ih ((hstep s e hI).2 hP)).mp fun es' hes' => ?_⟩
        exact h (e :: es') (List.cons_prefix_cons.mpr ⟨rfl, hes'⟩)
      · rintro ⟨hP, halong⟩ es' hes'
        cases es' with
        | nil => exact hIC s hI
        | cons e' es' =>
            obtain ⟨rfl, hstarts⟩ := List.cons_prefix_cons.mp hes'
            exact (ih ((hstep s e' hI).2 hP)).mpr halong es' hstarts

theorem along_of_forall {P : ε → Prop} {es : List ε} (h : ∀ e ∈ es, P e) (s : σ) :
    Along step (fun _ e => P e) s es := by
  induction es generalizing s with
  | nil => trivial
  | cons e es ih => exact ⟨h e List.mem_cons_self, ih (fun e' he' => h e' (List.mem_cons_of_mem _ he')) (step s e)⟩

theorem run_append (s : σ) (es es' : List ε) : run step s (es ++ es') = run step (run step s es) es' :=
  List.foldl_append

/-! ### What the last event says -/

variable {β : Type}

/-- What the last event of those that say something says. -/
def lastOf (f : ε → Option β) : List ε → Option β
  | [] => none
  | e :: es => (lastOf f es).or (f e)

theorem lastOf_map {γ : Type} (g : β → γ) (f : ε → Option β) (es : List ε) :
    lastOf (fun e => (f e).map g) es = (lastOf f es).map g := by
  induction es with
  | nil => rfl
  | cons e es ih =>
      rw [lastOf, lastOf, ih]
      cases lastOf f es <;> rfl

theorem lastOf_congr {f g : ε → Option β} {es : List ε} (h : ∀ e ∈ es, f e = g e) : lastOf f es = lastOf g es := by
  induction es with
  | nil => rfl
  | cons e es ih =>
      rw [lastOf, lastOf, h e List.mem_cons_self, ih fun e' he' => h e' (List.mem_cons_of_mem _ he')]

/-- A part of the state that each event of the run either replaces or keeps holds what the last event says of it; `I`
is what the steps keep. -/
theorem read_run_of {P : σ → ε → Prop} {I : σ → Prop} {read : σ → β} {f : ε → Option β}
    (hstep : ∀ s e, I s → P s e → I (step s e) ∧ read (step s e) = (f e).getD (read s)) {s : σ} {es : List ε}
    (hs : I s) (hP : Along step P s es) : read (run step s es) = (lastOf f es).getD (read s) := by
  induction es generalizing s with
  | nil => rfl
  | cons e es ih =>
      obtain ⟨hI, hread⟩ := hstep s e hs hP.1
      rw [run_cons, ih hI hP.2, hread, lastOf]
      cases lastOf f es with
      | none => rfl
      | some b => rfl

/-- A part of the state that each event either replaces or keeps holds what the last event says of it. -/
theorem read_run (read : σ → β) {f : ε → Option β} (h : ∀ s e, read (step s e) = (f e).getD (read s)) (s : σ)
    (es : List ε) : read (run step s es) = (lastOf f es).getD (read s) :=
  read_run_of (I := fun _ => True) (fun s e _ _ => ⟨trivial, h s e⟩) trivial (along_true s es)

/-! ### What a run brings out -/

section Emitted

variable {ω : Type} (handle : σ → ε → σ × List ω)

/-- The outputs of the events in their order. -/
def emitted : σ → List ε → List ω
  | _, [] => []
  | s, e :: es => (handle s e).2 ++ emitted (handle s e).1 es

variable {handle}

/-- **Simulation rule.** States that are related bring out the same and stay related, along the events that keep the
relation. -/
theorem simulated_run {R : σ → σ → Prop} {P : ε → Prop}
    (hstep : ∀ s t e, R s t → P e → R (handle s e).1 (handle t e).1 ∧ (handle s e).2 = (handle t e).2) {s t : σ}
    (h : R s t) {es : List ε} (hes : ∀ e ∈ es, P e) :
    R (run (fun s e => (handle s e).1) s es) (run (fun s e => (handle s e).1) t es) ∧
      emitted handle s es = emitted handle t es := by
  induction es generalizing s t with
  | nil => exact ⟨h, rfl⟩
  | cons e es ih =>
      obtain ⟨hrelated, houtputs⟩ := hstep s t e h (hes e List.mem_cons_self)
      obtain ⟨hlast, hrest⟩ := ih hrelated fun e' he' => hes e' (List.mem_cons_of_mem _ he')
      refine ⟨hlast, ?_⟩
      rw [emitted, emitted, houtputs, hrest]

end Emitted

/-! ### Steps that may be undefined -/

variable {pstep : σ → ε → Option σ}

variable (pstep) in
/-- A machine whose step may be undefined, as a machine on optional states: what is undefined stays so. -/
def lift : Option σ → ε → Option σ := fun s e => s.bind fun s => pstep s e

/-- What every defined step preserves under the condition, every defined run preserves. -/
theorem Along.invariant_lift {P : σ → ε → Prop} {I : σ → Prop}
    (hstep : ∀ s e s', I s → P s e → pstep s e = some s' → I s') {s : σ} {es : List ε} (hs : I s)
    (hP : Along (lift pstep) (fun s e => ∀ m ∈ s, P m e) (some s) es) :
    ∀ s' ∈ run (lift pstep) (some s) es, I s' := by
  refine Along.invariant (I := fun s : Option σ => ∀ m ∈ s, I m) (fun s e hI hP m hm => ?_) (by simpa using hs) hP
  obtain ⟨s0, rfl, hm⟩ := Option.bind_eq_some_iff.mp hm
  exact hstep s0 e m (hI s0 rfl) (hP s0 rfl) hm

/-- The same without a condition. -/
theorem invariant_lift {I : σ → Prop} (hstep : ∀ s e s', I s → pstep s e = some s' → I s') {s : σ} (hs : I s)
    (es : List ε) : ∀ s' ∈ run (lift pstep) (some s) es, I s' :=
  Along.invariant_lift (P := fun _ _ => True) (fun s e s' hI _ h => hstep s e s' hI h) hs
    (Along.mono (I := fun _ => True) (fun _ _ _ _ => trivial) (fun _ _ _ _ _ _ => trivial) trivial
      (along_true (some s) es))

theorem Along.always_iff_lift {P : σ → ε → Prop} {I J : σ → Prop}
    (hJ : ∀ s e s', J s → pstep s e = some s' → J s')
    (hstep : ∀ s e, J s → I s → ((∀ s' ∈ pstep s e, I s') ↔ P s e)) {s : σ} (hs : J s) (hI : I s) (es : List ε) :
    (∀ es', es' <+: es → ∀ m ∈ run (lift pstep) (some s) es', I m) ↔
      Along (lift pstep) (fun s e => ∀ m ∈ s, P m e) (some s) es := by
  refine Along.always_iff (I := fun s : Option σ => ∀ m ∈ s, I m) (J := fun s : Option σ => ∀ m ∈ s, J m)
    (fun s e hs m hm => ?_) (fun s e hs hI => ?_) (by simpa using hs) (by simpa using hI) es
  · obtain ⟨s0, rfl, hm⟩ := Option.bind_eq_some_iff.mp hm
    exact hJ s0 e m (hs s0 rfl) hm
  · cases s with
    | none => simp [lift]
    | some s => simpa [lift] using hstep s e (hs s rfl) (hI s rfl)

end Runs
