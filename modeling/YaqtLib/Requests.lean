import YaqtLib.Runs

/-! Clients that send requests and take the answers in any order. A client can start over while requests are
pending; each pending request remembers the generation of the client it was sent in, so that it can be told
whether an answer has been overtaken. -/

namespace Requests

open Runs

/-- What a step of a client does besides changing its state. -/
inductive Effect (ρ β : Type) where
  | send (request : ρ)
  | restart
  | take (batch : β)

structure Ticket (ρ : Type) where
  request : ρ
  generation : Nat

/-- A client with states `σ` handles calls `κ`, and the answers `α` to its requests `ρ`. -/
structure Client (σ κ ρ α β : Type) where
  call : σ → κ → σ × List (Effect ρ β)
  answer : σ → ρ → α → σ × List (Effect ρ β)

/-- A client with the requests that wait for an answer. -/
structure Exchange (σ ρ : Type) where
  client : σ
  generation : Nat
  pending : List (Ticket ρ)

inductive Move (κ α : Type) where
  | call (c : κ)
  | answer (i : Nat) (a : α)

variable {σ κ ρ α β : Type}

/-- The effects bring a batch. -/
def Takes (effects : List (Effect ρ β)) : Prop := ∃ batch, .take batch ∈ effects

/-- The effects let the client start over. -/
def Restarts (effects : List (Effect ρ β)) : Prop := .restart ∈ effects

namespace Exchange

def start (s : σ) : Exchange σ ρ := { client := s, generation := 0, pending := [] }

def perform (x : Exchange σ ρ) : Effect ρ β → Exchange σ ρ
  | .send request => { x with pending := x.pending ++ [⟨request, x.generation⟩] }
  | .restart => { x with generation := x.generation + 1 }
  | .take _ => x

/-- The exchange after a step of the client. -/
def after (x : Exchange σ ρ) (result : σ × List (Effect ρ β)) : Exchange σ ρ :=
  result.2.foldl perform { x with client := result.1 }

/-- No pending request is younger than the client. -/
def Bounded (x : Exchange σ ρ) : Prop := ∀ t ∈ x.pending, t.generation ≤ x.generation

/-- Every pending request that has not been overtaken meets `K`. -/
def Current (K : ρ → Prop) (x : Exchange σ ρ) : Prop :=
  ∀ t ∈ x.pending, t.generation = x.generation → K t.request

theorem client_foldl_perform (x : Exchange σ ρ) (effects : List (Effect ρ β)) :
    (effects.foldl perform x).client = x.client := by
  induction effects generalizing x with
  | nil => rfl
  | cons effect effects ih =>
      rw [List.foldl_cons, ih]
      cases effect <;> rfl

@[simp] theorem client_after (x : Exchange σ ρ) (result : σ × List (Effect ρ β)) :
    (x.after result).client = result.1 := client_foldl_perform _ _

/-- A request that is pending after a step was pending before, or the step sent it. -/
theorem mem_pending_after {x : Exchange σ ρ} {result : σ × List (Effect ρ β)} {t : Ticket ρ}
    (ht : t ∈ (x.after result).pending) : t ∈ x.pending ∨ .send t.request ∈ result.2 := by
  have h : ∀ (effects : List (Effect ρ β)) (x : Exchange σ ρ), t ∈ (effects.foldl perform x).pending →
      t ∈ x.pending ∨ .send t.request ∈ effects := by
    intro effects
    induction effects with
    | nil => exact fun x ht => Or.inl ht
    | cons effect effects ih =>
        intro x ht
        rcases ih (x.perform effect) ht with ht | hsent
        · cases effect with
          | send request =>
              rcases List.mem_append.mp ht with ht | ht
              · exact Or.inl ht
              · rw [List.mem_singleton.mp ht]
                exact Or.inr (List.mem_cons_self ..)
          | restart => exact Or.inl ht
          | take batch => exact Or.inl ht
        · exact Or.inr (List.mem_cons_of_mem _ hsent)
  exact h result.2 { x with client := result.1 } ht

theorem Bounded.perform {x : Exchange σ ρ} (hx : x.Bounded) (effect : Effect ρ β) : (x.perform effect).Bounded := by
  cases effect with
  | send request =>
      intro t ht
      rcases List.mem_append.mp ht with ht | ht
      · exact hx t ht
      · rw [List.mem_singleton.mp ht]
        exact Nat.le_refl x.generation
  | restart => exact fun t ht => Nat.le_succ_of_le (hx t ht)
  | take batch => exact hx

theorem Bounded.foldl_perform {x : Exchange σ ρ} (hx : x.Bounded) (effects : List (Effect ρ β)) :
    (effects.foldl Exchange.perform x).Bounded := by
  induction effects generalizing x with
  | nil => exact hx
  | cons effect effects ih => exact ih (hx.perform effect)

theorem Bounded.after {x : Exchange σ ρ} (hx : x.Bounded) (result : σ × List (Effect ρ β)) :
    (x.after result).Bounded := by
  apply Bounded.foldl_perform
  exact hx

/-- **Requests rule.** What the pending requests meet, or a client that starts over forgets, and the requests
sent by a step meet, the pending requests meet after the step. -/
theorem current_foldl_perform {K : ρ → Prop} {x : Exchange σ ρ} (hx : x.Bounded) {effects : List (Effect ρ β)}
    (hcurrent : x.Current K ∨ Restarts effects) (hsent : ∀ request, .send request ∈ effects → K request) :
    (effects.foldl perform x).Current K := by
  induction effects generalizing x with
  | nil => exact hcurrent.resolve_right List.not_mem_nil
  | cons effect effects ih =>
      apply ih (hx.perform effect)
      · cases effect with
        | send request =>
            apply hcurrent.imp
            · intro hcurrent t ht hgeneration
              rcases List.mem_append.mp ht with ht | ht
              · exact hcurrent t ht hgeneration
              · rw [List.mem_singleton.mp ht]
                exact hsent request (List.mem_cons_self ..)
            · intro hrestart
              exact (List.mem_cons.mp hrestart).resolve_left (by simp)
        | restart =>
            -- every pending request is overtaken
            left
            intro t ht hgeneration
            exact absurd (hx t ht) (hgeneration ▸ Nat.not_succ_le_self x.generation)
        | take batch =>
            apply hcurrent.imp
            · intro hcurrent
              exact hcurrent
            · intro hrestart
              exact (List.mem_cons.mp hrestart).resolve_left (by simp)
      · intro request hrequest
        exact hsent request (List.mem_cons_of_mem _ hrequest)

theorem Current.mono {K K' : ρ → Prop} {x : Exchange σ ρ} (hx : x.Current K) (h : ∀ r, K r → K' r) :
    x.Current K' := fun t ht hgeneration => h t.request (hx t ht hgeneration)

/-! ### What a client waits for -/

section InFlight

variable {τ : Type} (kind : ρ → Option τ) (waits : σ → τ → Bool)

/-- A request of the kind, sent since the client last started over, waits for its answer. -/
def InFlight (x : Exchange σ ρ) (t : τ) : Prop :=
  ∃ ticket ∈ x.pending, kind ticket.request = some t ∧ ticket.generation = x.generation

/-- Whatever the client waits for is in flight. -/
def Backed (x : Exchange σ ρ) : Prop := ∀ t, waits x.client t = true → x.InFlight kind t

/-- The effects hold a request of the kind. -/
def Sends (effects : List (Effect ρ β)) (t : τ) : Prop := ∃ r, .send r ∈ effects ∧ kind r = some t

instance [DecidableEq τ] (x : Exchange σ ρ) (t : τ) : Decidable (x.InFlight kind t) :=
  inferInstanceAs (Decidable (∃ ticket ∈ x.pending, _))

variable {kind waits}

theorem inFlight_foldl_perform (x : Exchange σ ρ) {effects : List (Effect ρ β)} (h : ¬ Restarts effects) (t : τ) :
    (effects.foldl perform x).InFlight kind t ↔ x.InFlight kind t ∨ Sends kind effects t := by
  induction effects generalizing x with
  | nil => exact (or_iff_left fun ⟨_, hr, _⟩ => List.not_mem_nil hr).symm
  | cons effect effects ih =>
      rw [List.foldl_cons, ih _ fun hrestart => h (List.mem_cons_of_mem _ hrestart)]
      have hcons : Sends kind (effect :: effects) t ↔
          (∃ r, .send r = effect ∧ kind r = some t) ∨ Sends kind effects t := by
        simp only [Sends, List.mem_cons, or_and_right, exists_or]
      rw [hcons, ← or_assoc]
      refine or_congr_left ?_
      cases effect with
      | restart => exact absurd (List.mem_cons_self ..) h
      | take batch => exact (or_iff_left fun ⟨_, heq, _⟩ => absurd heq (by simp)).symm
      | send request =>
          constructor
          · rintro ⟨ticket, hticket, hkind, hgeneration⟩
            rcases List.mem_append.mp hticket with hticket | hticket
            · exact Or.inl ⟨ticket, hticket, hkind, hgeneration⟩
            · rw [List.mem_singleton.mp hticket] at hkind
              exact Or.inr ⟨request, rfl, hkind⟩
          · rintro (⟨ticket, hticket, hkind, hgeneration⟩ | ⟨r, heq, hkind⟩)
            · exact ⟨ticket, List.mem_append_left _ hticket, hkind, hgeneration⟩
            · cases heq
              exact ⟨⟨request, x.generation⟩, List.mem_append_right _ (List.mem_singleton_self _), hkind, rfl⟩

/-- What a step of a client does to what it waits for: of what it waited for it keeps some, and what it waits for
from now on it asks for if it can. -/
structure Raises (kind : ρ → Option τ) (waits : σ → τ → Bool) (s : σ) (result : σ × List (Effect ρ β))
    (kept raised : τ → Prop) (asks : Prop) : Prop where
  goes_on : ¬ Restarts result.2
  waited : ∀ t, waits result.1 t = true → kept t ∧ waits s t = true ∨ raised t
  asked : ∀ t, raised t → waits result.1 t = true ∧ (Sends kind result.2 t ↔ asks)

/-- **Flags rule.** What the client waits for after the step is in flight exactly if what it waits for anew is,
or is asked for in the step. -/
theorem Raises.backed_iff {x : Exchange σ ρ} {result : σ × List (Effect ρ β)} {kept raised : τ → Prop} {asks : Prop}
    (h : Raises kind waits x.client result kept raised asks)
    (hkept : ∀ t, kept t → waits x.client t = true → x.InFlight kind t) :
    (x.after result).Backed kind waits ↔ ∀ t, raised t → asks ∨ x.InFlight kind t := by
  have hflight : ∀ t, (x.after result).InFlight kind t ↔ x.InFlight kind t ∨ Sends kind result.2 t :=
    fun t => inFlight_foldl_perform _ h.goes_on t
  constructor
  · intro hbacked t ht
    obtain ⟨hwaits, hsends⟩ := h.asked t ht
    rcases (hflight t).mp (hbacked t (by rw [client_after]; exact hwaits)) with hflight | hsent
    · exact Or.inr hflight
    · exact Or.inl (hsends.mp hsent)
  · intro hraised t ht
    rw [client_after] at ht
    refine (hflight t).mpr ?_
    rcases h.waited t ht with ⟨hkeep, hwaited⟩ | hnew
    · exact Or.inl (hkept t hkeep hwaited)
    · exact (hraised t hnew).symm.imp_right (h.asked t hnew).2.mpr

/-- A client that starts over waits for nothing. -/
theorem backed_of_not_waits {x : Exchange σ ρ} (h : ∀ t, waits x.client t = false) : x.Backed kind waits :=
  fun t ht => absurd ht (by rw [h t]; exact Bool.false_ne_true)

end InFlight

end Exchange

namespace Client

variable (C : Client σ κ ρ α β)

/-- A call, or the answer to one of the pending requests; nothing happens if there is no such request. -/
def step (x : Exchange σ ρ) : Move κ α → Exchange σ ρ
  | .call c => x.after (C.call x.client c)
  | .answer i a =>
      match x.pending[i]? with
      | none => x
      | some t => { x with pending := x.pending.eraseIdx i }.after (C.answer x.client t.request a)

variable {C}

theorem bounded_step {x : Exchange σ ρ} (hx : x.Bounded) (move : Move κ α) : (C.step x move).Bounded := by
  cases move with
  | call c => exact hx.after _
  | answer i a =>
      rw [step]
      cases x.pending[i]? with
      | none => exact hx
      | some t =>
          apply Exchange.Bounded.after
          exact fun t' ht' => hx t' (List.mem_of_mem_eraseIdx ht')

/-- What a client keeps of its pending requests: a step that does not start over keeps it for the ones that
are there, and the ones it sends have it. -/
structure Keeps (C : Client σ κ ρ α β) (K : σ → ρ → Prop) : Prop where
  call : ∀ s c, Restarts (C.call s c).2 ∨ ∀ r, K s r → K (C.call s c).1 r
  call_sent : ∀ s c r, .send r ∈ (C.call s c).2 → K (C.call s c).1 r
  answer : ∀ s r a, Restarts (C.answer s r a).2 ∨ ∀ r', K s r' → K (C.answer s r a).1 r'
  answer_sent : ∀ s r a r', .send r' ∈ (C.answer s r a).2 → K (C.answer s r a).1 r'

theorem Keeps.current_step {K : σ → ρ → Prop} (hK : C.Keeps K) {x : Exchange σ ρ} (hbounded : x.Bounded)
    (hx : x.Current (K x.client)) (move : Move κ α) : (C.step x move).Current (K (C.step x move).client) := by
  cases move with
  | call c =>
      rw [step, Exchange.client_after]
      apply Exchange.current_foldl_perform
      · exact hbounded
      · rcases hK.call x.client c with hrestart | hkeeps
        · exact Or.inr hrestart
        · exact Or.inl (hx.mono hkeeps)
      · exact hK.call_sent x.client c
  | answer i a =>
      rw [step]
      cases x.pending[i]? with
      | none => exact hx
      | some t =>
          dsimp only
          rw [Exchange.client_after]
          apply Exchange.current_foldl_perform
          · exact fun t' ht' => hbounded t' (List.mem_of_mem_eraseIdx ht')
          · rcases hK.answer x.client t.request a with hrestart | hkeeps
            · exact Or.inr hrestart
            · left
              intro t' ht' hgeneration
              exact hkeeps _ (hx t' (List.mem_of_mem_eraseIdx ht') hgeneration)
          · exact hK.answer_sent x.client t.request a

/-! ### Overtaken answers -/

/-- A batch taken in the step answers a request of the current generation, for what the client asks for. -/
def Fresh (C : Client σ κ ρ α β) (Asks : σ → ρ → Prop) (x : Exchange σ ρ) : Move κ α → Prop
  | .call c => ¬ Takes (C.call x.client c).2
  | .answer i a =>
      match x.pending[i]? with
      | none => True
      | some t => Takes (C.answer x.client t.request a).2 →
          t.generation = x.generation ∧ Asks x.client t.request

/-- The step brings no answer to an old request that the client would accept. -/
def Guarded (Accepts : σ → ρ → α → Prop) (Old : Exchange σ ρ → Ticket ρ → Prop) (x : Exchange σ ρ) :
    Move κ α → Prop
  | .call _ => True
  | .answer i a =>
      match x.pending[i]? with
      | none => True
      | some t => Old x t → ¬ Accepts x.client t.request a

instance {Accepts : σ → ρ → α → Prop} {Old : Exchange σ ρ → Ticket ρ → Prop} [∀ s r a, Decidable (Accepts s r a)]
    [∀ x t, Decidable (Old x t)] (x : Exchange σ ρ) : ∀ move : Move κ α, Decidable (Guarded Accepts Old x move)
  | .call _ => isTrue trivial
  | .answer i a =>
      match h : x.pending[i]? with
      | none => isTrue (by rw [Guarded, h]; trivial)
      | some t => decidable_of_iff (Old x t → ¬ Accepts x.client t.request a) (by rw [Guarded, h])

/-- Exactly the steps that bring no old answer the client accepts take fresh batches, if the requests that
are not old are the ones the client asks for. -/
theorem fresh_iff {Asks : σ → ρ → Prop} {Accepts : σ → ρ → α → Prop} {Old : Exchange σ ρ → Ticket ρ → Prop}
    (hcall : ∀ s c, ¬ Takes (C.call s c).2)
    (hanswer : ∀ s r a, Takes (C.answer s r a).2 ↔ Accepts s r a)
    {x : Exchange σ ρ} (hold : ∀ t ∈ x.pending, ∀ a, Accepts x.client t.request a →
      (¬ Old x t ↔ t.generation = x.generation ∧ Asks x.client t.request))
    (move : Move κ α) : C.Fresh Asks x move ↔ Guarded Accepts Old x move := by
  cases move with
  | call c => exact iff_of_true (hcall x.client c) trivial
  | answer i a =>
      rw [Fresh, Guarded]
      cases hget : x.pending[i]? with
      | none => exact Iff.rfl
      | some t =>
          have ht : t ∈ x.pending := List.mem_of_getElem? hget
          dsimp only
          rw [hanswer]
          constructor
          · intro hfresh hOld haccepts
            exact (hold t ht a haccepts).mpr (hfresh haccepts) hOld
          · intro hguarded haccepts
            exact (hold t ht a haccepts).mp fun hOld => hguarded hOld haccepts

end Client

end Requests
