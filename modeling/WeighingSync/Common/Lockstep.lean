import Mathlib

/-!
# Two machines on the same inputs

A machine takes inputs one by one, and to each it gives an output and its next state. Two machines in
related states, of which it is known which inputs they take alike, take a whole sequence alike exactly
when each of its inputs is such an input in the state in which it comes (`forall₂_trace_iff`).
-/

namespace WeighingSync

variable {σ σ' α ω ω' : Type*}

/-- The outputs of a machine, each with the state after it. -/
def trace (step : σ → α → ω × σ) : σ → List α → List (ω × σ)
  | _, [] => []
  | s, a :: as => step s a :: trace step (step s a).2 as

/-- Every input meets a condition in the state in which it comes. -/
def Along (ok : σ → α → Prop) (step : σ → α → ω × σ) : σ → List α → Prop
  | _, [] => True
  | s, a :: as => ok s a ∧ Along ok step (step s a).2 as

variable {step : σ → α → ω × σ} {step' : σ' → α → ω' × σ'} {ok : σ → α → Prop}
  {R : ω × σ → ω' × σ' → Prop} {I : σ → σ' → Prop}

/-- The inputs that two machines take alike keep their states related, so they take a sequence alike
as long as every input is one of these. -/
theorem forall₂_trace_iff (halike : ∀ s s' a, I s s' → (R (step s a) (step' s' a) ↔ ok s a))
    (hkeep : ∀ s s' a, I s s' → ok s a → I (step s a).2 (step' s' a).2) {s : σ} {s' : σ'}
    (hs : I s s') (as : List α) :
    List.Forall₂ R (trace step s as) (trace step' s' as) ↔ Along ok step s as := by
  induction as generalizing s s' with
  | nil => exact ⟨fun _ => trivial, fun _ => .nil⟩
  | cons a as ih =>
      rw [trace, trace, List.forall₂_cons, Along, halike s s' a hs]
      exact and_congr_right fun hok => ih (hkeep s s' a hs hok)

end WeighingSync
