import YaqtLib.Runs

/-! Totals along a run of a machine: what its steps add up to, and the rule that balances two totals against a measure
of the state. -/

namespace Runs

variable {σ ε : Type} {step : σ → ε → σ}

theorem along_append {P : σ → ε → Prop} (s : σ) (es es' : List ε) :
    Along step P s (es ++ es') ↔ Along step P s es ∧ Along step P (run step s es) es' := by
  induction es generalizing s with
  | nil => simp
  | cons e es ih => rw [List.cons_append, along_cons, along_cons, ih, run_cons, and_assoc]

variable (step) in
/-- The sum of the weights of the steps. -/
def totalAlong (w : σ → ε → Nat) : σ → List ε → Nat
  | _, [] => 0
  | s, e :: es => w s e + totalAlong w (step s e) es

@[simp] theorem totalAlong_nil (w : σ → ε → Nat) (s : σ) : totalAlong step w s [] = 0 := rfl

@[simp] theorem totalAlong_cons (w : σ → ε → Nat) (s : σ) (e : ε) (es : List ε) :
    totalAlong step w s (e :: es) = w s e + totalAlong step w (step s e) es := rfl

theorem totalAlong_zero (s : σ) (es : List ε) : totalAlong step (fun _ _ => 0) s es = 0 := by
  induction es generalizing s with
  | nil => rfl
  | cons e es ih => rw [totalAlong_cons, ih]

/-- **Balance rule.** If every step that meets the condition changes the credit `m` and the debt `n` by what it gains and
loses, so does a run whose steps meet it; `I` is what carries the steps. -/
theorem Along.balance {P : σ → ε → Prop} {I : σ → Prop} {m n : σ → Nat} {gain loss : σ → ε → Nat}
    (hI : ∀ s e, I s → P s e → I (step s e))
    (hstep : ∀ s e, I s → P s e → m (step s e) + n s + loss s e = m s + n (step s e) + gain s e) {s : σ} (hs : I s)
    {es : List ε} (hP : Along step P s es) :
    m (run step s es) + n s + totalAlong step loss s es = m s + n (run step s es) + totalAlong step gain s es := by
  induction es generalizing s with
  | nil => rfl
  | cons e es ih =>
      have hfirst := hstep s e hs hP.1
      have hrest := ih (hI s e hs hP.1) hP.2
      simp only [run_cons, totalAlong_cons]
      omega

end Runs
