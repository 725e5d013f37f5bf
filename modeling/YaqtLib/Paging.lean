import YaqtLib.Requests

/-! A client that repeats one call until it has everything, with a server that answers its requests: when the
repetition comes to an end, and where. -/

namespace Requests

open Runs

variable {σ κ ρ α β : Type}

/-- The number of requests among the effects. -/
def sends (effects : List (Effect ρ β)) : Nat :=
  effects.countP fun effect => match effect with
    | .send _ => true
    | _ => false

theorem sends_eq_zero {effects : List (Effect ρ β)} : sends effects = 0 ↔ ∀ request, .send request ∉ effects := by
  rw [sends, List.countP_eq_zero]
  constructor
  · intro h request hmem
    exact absurd rfl (h _ hmem)
  · intro h effect hmem
    cases effect with
    | send request => exact absurd hmem (h request)
    | restart => exact Bool.false_ne_true
    | take batch => exact Bool.false_ne_true

theorem Exchange.length_pending_after (x : Exchange σ ρ) (result : σ × List (Effect ρ β)) :
    (x.after result).pending.length = x.pending.length + sends result.2 := by
  have h : ∀ (effects : List (Effect ρ β)) (x : Exchange σ ρ),
      (effects.foldl perform x).pending.length = x.pending.length + sends effects := by
    intro effects
    induction effects with
    | nil => exact fun _ => rfl
    | cons effect effects ih =>
        intro x
        rw [List.foldl_cons, ih, sends, sends, List.countP_cons]
        cases effect with
        | send request =>
            rw [perform, List.length_append, List.length_singleton, if_pos rfl]
            omega
        | restart => rfl
        | take batch => rfl
  exact h result.2 { x with client := result.1 }

namespace Client

variable (C : Client σ κ ρ α β)

/-- What the client does in a step. -/
def effectsOf (x : Exchange σ ρ) : Move κ α → List (Effect ρ β)
  | .call c => (C.call x.client c).2
  | .answer i a =>
      match x.pending[i]? with
      | none => []
      | some t => (C.answer x.client t.request a).2

/-- The number of requests that the client sends along the moves. -/
def sent : Exchange σ ρ → List (Move κ α) → Nat
  | _, [] => 0
  | x, move :: moves => sends (C.effectsOf x move) + sent (C.step x move) moves

/-- The client repeats one call, and the server gives the answers it may give. -/
def Serves (call : κ) (Answers : ρ → α → Prop) (x : Exchange σ ρ) : Move κ α → Prop
  | .call c => c = call
  | .answer i a => ∃ t, x.pending[i]? = some t ∧ Answers t.request a

/-- No answer is outstanding, and the call asks for nothing. -/
def Settled (call : κ) (x : Exchange σ ρ) : Prop := x.pending = [] ∧ sends (C.call x.client call).2 = 0

/-- However the calls and the answers follow each other, the client sends a bounded number of requests, and once it
has nothing more to ask for it is done. -/
structure Terminates (call : κ) (Answers : ρ → α → Prop) (Done : σ → Prop) (x : Exchange σ ρ) : Prop where
  bounded : ∃ bound, ∀ moves, Along C.step (Serves call Answers) x moves → C.sent x moves ≤ bound
  done : ∀ moves, Along C.step (Serves call Answers) x moves → C.Settled call (run C.step x moves) →
    Done (run C.step x moves).client

variable {C} {call : κ} {Answers : ρ → α → Prop} {Done : σ → Prop}

theorem length_pending_answer {x : Exchange σ ρ} {i : Nat} {a : α} {t : Ticket ρ} (ht : x.pending[i]? = some t) :
    (C.step x (.answer i a)).pending.length + 1 = x.pending.length + sends (C.effectsOf x (.answer i a)) := by
  have hi : i < x.pending.length := (List.getElem?_eq_some_iff.mp ht).1
  rw [step, effectsOf, ht]
  dsimp only
  rw [Exchange.length_pending_after, List.length_eraseIdx_of_lt hi]
  omega

/-- Where the requests are bounded and each of them has an answer, answering them all leads to a settled exchange. -/
theorem exists_settled {I : Exchange σ ρ → Prop}
    (hstep : ∀ x move, I x → Serves call Answers x move → I (C.step x move))
    (hanswer : ∀ x, I x → ∀ t ∈ x.pending, ∃ a, Answers t.request a) {bound : Nat} {x : Exchange σ ρ} (hx : I x)
    (hbound : ∀ moves, Along C.step (Serves call Answers) x moves → C.sent x moves ≤ bound) :
    ∃ moves, Along C.step (Serves call Answers) x moves ∧ C.Settled call (run C.step x moves) := by
  -- a move that sends lowers the bound, and one that does not takes an answer to a pending request
  obtain ⟨size, hsize⟩ : ∃ size, 2 * bound + x.pending.length ≤ size := ⟨_, Nat.le_refl _⟩
  induction size generalizing bound x with
  | zero =>
      have hcall := hbound [.call call] ⟨rfl, trivial⟩
      refine ⟨[], trivial, List.length_eq_zero_iff.mp (by rw [run_nil]; omega), ?_⟩
      change sends (C.call x.client call).2 + 0 ≤ bound at hcall
      rw [run_nil]
      omega
  | succ size ih =>
      -- a move that is made, and the rest of the way from there
      have hmake : ∀ move, Serves call Answers x move →
          2 * (bound - sends (C.effectsOf x move)) + (C.step x move).pending.length ≤ size →
          ∃ moves, Along C.step (Serves call Answers) x moves ∧ C.Settled call (run C.step x moves) := by
        intro move hserves hless
        obtain ⟨moves, halong, hsettled⟩ := ih (hstep x move hx hserves) (fun moves halong => by
          have hsent := hbound (move :: moves) ⟨hserves, halong⟩
          rw [sent] at hsent
          omega) hless
        exact ⟨move :: moves, ⟨hserves, halong⟩, hsettled⟩
      have hfirst : ∀ move, Serves call Answers x move → sends (C.effectsOf x move) ≤ bound := by
        intro move hserves
        have hsent := hbound [move] ⟨hserves, trivial⟩
        rw [sent, sent] at hsent
        omega
      cases hpending : x.pending with
      | nil =>
          by_cases hsends : sends (C.call x.client call).2 = 0
          · exact ⟨[], trivial, hpending, hsends⟩
          · have hserves : Serves call Answers x (.call call) := rfl
            have hlength : (C.step x (.call call)).pending.length =
                x.pending.length + sends (C.effectsOf x (.call call)) := Exchange.length_pending_after x _
            have hle := hfirst (.call call) hserves
            have hsome : sends (C.effectsOf x (.call call)) ≠ 0 := hsends
            refine hmake (.call call) hserves ?_
            rw [hpending, List.length_nil] at hlength hsize
            omega
      | cons t rest =>
          obtain ⟨a, ha⟩ := hanswer x hx t (by rw [hpending]; exact List.mem_cons_self)
          have ht : x.pending[0]? = some t := by rw [hpending]; rfl
          have hserves : Serves call Answers x (.answer 0 a) := ⟨t, ht, ha⟩
          have hlength := @length_pending_answer _ _ _ _ _ C _ _ a _ ht
          have hle := hfirst (.answer 0 a) hserves
          refine hmake (.answer 0 a) hserves ?_
          omega

/-- **Unfinished rule.** A client that is never done does not terminate, if all its requests can be answered. -/
theorem not_terminates {I : Exchange σ ρ → Prop}
    (hstep : ∀ x move, I x → Serves call Answers x move → I (C.step x move))
    (hanswer : ∀ x, I x → ∀ t ∈ x.pending, ∃ a, Answers t.request a) (hnever : ∀ x, I x → ¬ Done x.client)
    {x : Exchange σ ρ} (hx : I x) : ¬ C.Terminates call Answers Done x := by
  intro hterminates
  obtain ⟨bound, hbound⟩ := hterminates.bounded
  obtain ⟨moves, halong, hsettled⟩ := exists_settled hstep hanswer hx hbound
  exact hnever _ (Along.invariant hstep hx halong) (hterminates.done moves halong hsettled)

/-- **Finished rule.** A client that sends nothing any more terminates, if it is done with the last answer. -/
theorem Terminates.of_silent {I : Exchange σ ρ → Prop}
    (hstep : ∀ x move, I x → Serves call Answers x move → I (C.step x move) ∧ sends (C.effectsOf x move) = 0)
    (hdone : ∀ x, I x → x.pending = [] → Done x.client) {x : Exchange σ ρ} (hx : I x) :
    C.Terminates call Answers Done x := by
  refine ⟨⟨0, fun moves halong => ?_⟩, fun moves halong hsettled => ?_⟩
  · induction moves generalizing x with
    | nil => exact Nat.le_refl 0
    | cons move moves ih =>
        obtain ⟨hI, hsends⟩ := hstep x move hx halong.1
        rw [sent, hsends, Nat.zero_add]
        exact ih hI halong.2
  · exact hdone _ (Along.invariant (fun x move hI hserves => (hstep x move hI hserves).1) hx halong) hsettled.1

end Client

end Requests
