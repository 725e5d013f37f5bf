import Mathlib.Data.List.Induction
import YaqtLib.RunTotals

/-! What a machine holds of one entry along a run. An entry comes in with an event and is then changed by updates; an
entry that is there at the end is what came in last, with the updates since. -/

namespace Runs

variable {σ ε ν υ : Type} {step : σ → ε → σ}

/-- A projection that commutes with the steps commutes with runs. -/
theorem run_map {σ' : Type} {step' : σ' → ε → σ'} (f : σ → σ') (h : ∀ s e, f (step s e) = step' (f s) e) (s : σ)
    (es : List ε) : f (run step s es) = run step' (f s) es := by
  induction es generalizing s with
  | nil => rfl
  | cons e es ih => rw [run_cons, run_cons, ih, h]

/-- In a run of the events `before`, then `e`, then `after`, the entry that `lookup` finds at the end was not there
before `e`; it came in with `e`, stayed, and has been updated since. -/
structure Arrives (step : σ → ε → σ) (lookup : σ → Option ν) (update : ν → υ → ν) (updatesOf : ε → List υ)
    (brings : ε → ν → Prop) (s : σ) (before : List ε) (e : ε) (after : List ε) (entry : ν) : Prop where
  missing : lookup (run step s before) = none
  present : ∀ after', after' <+: after → (lookup (run step s (before ++ e :: after'))).isSome = true
  brought : ∃ came, brings e came ∧ entry = run update came (after.flatMap updatesOf)

variable {lookup : σ → Option ν} {update : ν → υ → ν} {updatesOf : ε → List υ} {brings : ε → ν → Prop}

/-- A later event that leaves the entry in, and updates it. -/
theorem Arrives.concat {s : σ} {before after : List ε} {e : ε} {entry : ν}
    (h : Arrives step lookup update updatesOf brings s before e after entry) (e' : ε)
    (hpresent : (lookup (run step s (before ++ e :: after ++ [e']))).isSome = true) :
    Arrives step lookup update updatesOf brings s before e (after ++ [e']) (run update entry (updatesOf e')) where
  missing := h.missing
  present := by
    intro after' hafter
    rcases List.prefix_concat_iff.mp hafter with rfl | hprefix
    · rwa [List.append_assoc, List.cons_append] at hpresent
    · exact h.present after' hprefix
  brought := by
    obtain ⟨came, hbrings, rfl⟩ := h.brought
    refine ⟨came, hbrings, ?_⟩
    rw [List.flatMap_append, List.flatMap_singleton, run_append]

variable (lookup update updatesOf brings) in
/-- **Arrival rule.** If every step leaves an entry that is there before and after it as it is, up to its updates, and an
entry that was not there is one the event brings, then in a run that starts without it every entry has come in. -/
theorem arrives_run {P : σ → ε → Prop} {I : σ → Prop} (hI : ∀ s e, I s → P s e → I (step s e))
    (hstep : ∀ s e, I s → P s e → ∀ entry, lookup (step s e) = some entry →
      (∃ old, lookup s = some old ∧ entry = run update old (updatesOf e)) ∨ lookup s = none ∧ brings e entry)
    {s : σ} (hs : I s) (hnone : lookup s = none) {es : List ε} (hP : Along step P s es) {entry : ν}
    (hentry : lookup (run step s es) = some entry) :
    ∃ before e after, es = before ++ e :: after ∧
      Arrives step lookup update updatesOf brings s before e after entry := by
  induction es using List.reverseRecOn generalizing entry with
  | nil =>
      rw [run_nil, hnone] at hentry
      cases hentry
  | append_singleton es e' ih =>
      obtain ⟨hes, he', -⟩ := (along_append s es [e']).mp hP
      have hpresent : (lookup (run step s (es ++ [e']))).isSome = true := Option.isSome_of_eq_some hentry
      have hlast : run step s (es ++ [e']) = step (run step s es) e' := run_append s es [e']
      rw [hlast] at hentry
      rcases hstep _ e' (hes.invariant hI hs) he' entry hentry with ⟨old, hold, rfl⟩ | ⟨hmissing, hbrings⟩
      · obtain ⟨before, e, after, rfl, harrives⟩ := ih hes hold
        refine ⟨before, e, after ++ [e'], ?_, harrives.concat e' hpresent⟩
        rw [List.append_assoc, List.cons_append]
      · refine ⟨es, e', [], rfl, hmissing, fun after' hafter => ?_, entry, hbrings, rfl⟩
        rw [List.prefix_nil.mp hafter]
        exact hpresent

end Runs
