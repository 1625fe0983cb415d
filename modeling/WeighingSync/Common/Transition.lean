import Mathlib

/-!
# Labelled transition systems

A `System` has initial states and a partial step function: `step s a = none` means that the action
`a` cannot happen in `s`. `ReachedBy ok` is the set of states reached along runs in which every step
meets the condition `ok`; `Reachable` puts no condition. The invariant rules below are the only
inductions over runs that the developments built on this file need.
-/

namespace WeighingSync

universe u v

/-- A labelled transition system with a partial step function. -/
structure System (σ : Type u) (α : Type v) where
  init : σ → Prop
  step : σ → α → Option σ

namespace System

variable {σ : Type u} {α : Type v} {S : System σ α} {ok : σ → α → Prop}

/-- The states reached along runs whose steps all meet `ok`. -/
inductive ReachedBy (S : System σ α) (ok : σ → α → Prop) : σ → Prop
  | start {s : σ} : S.init s → ReachedBy S ok s
  | next {s s' : σ} {a : α} : ReachedBy S ok s → S.step s a = some s' → ok s a → ReachedBy S ok s'

/-- The states reached along any run. -/
abbrev Reachable (S : System σ α) : σ → Prop := S.ReachedBy fun _ _ => True

/-- A property of the initial states that every step meeting `ok` preserves holds wherever such
steps lead. -/
theorem ReachedBy.invariant {I : σ → Prop} (hinit : ∀ s, S.init s → I s)
    (hstep : ∀ s a s', I s → S.step s a = some s' → ok s a → I s') {s : σ}
    (h : S.ReachedBy ok s) : I s := by
  induction h with
  | start hs => exact hinit _ hs
  | next _ hstep' hok ih => exact hstep _ _ _ ih hstep' hok

/-- Weakening the condition on steps reaches at least as many states. -/
theorem ReachedBy.mono {ok' : σ → α → Prop} (hle : ∀ s a, ok s a → ok' s a) {s : σ}
    (h : S.ReachedBy ok s) : S.ReachedBy ok' s := by
  induction h with
  | start hs => exact .start hs
  | next _ hstep hok ih => exact .next ih hstep (hle _ _ hok)

/-- Run a list of actions, as long as each meets `ok`. -/
def exec (S : System σ α) (ok : σ → α → Prop) [∀ s a, Decidable (ok s a)] : σ → List α → Option σ
  | s, [] => some s
  | s, a :: as => if ok s a then (S.step s a).bind fun s' => S.exec ok s' as else none

/-- An executed run stays within the states reached by steps that meet `ok`. -/
theorem ReachedBy.exec [∀ s a, Decidable (ok s a)] {as : List α} {s s' : σ} (h : S.ReachedBy ok s)
    (hrun : S.exec ok s as = some s') : S.ReachedBy ok s' := by
  induction as generalizing s with
  | nil =>
      rw [System.exec, Option.some_inj] at hrun
      exact hrun ▸ h
  | cons a as ih =>
      rw [System.exec] at hrun
      split_ifs at hrun with hok
      obtain ⟨s₁, hs₁, hrest⟩ := Option.bind_eq_some_iff.mp hrun
      exact ih (.next h hs₁ hok) hrest

/-- A run from an initial state, executed to a state where `P` holds, shows that one is reached. -/
theorem exists_of_exec {K : σ → α → Prop} [∀ s a, Decidable (K s a)] {l : List α} {s : σ}
    {P : σ → Bool} (hinit : S.init s) (hrun : (S.exec K s l).any P = true) :
    ∃ s', S.ReachedBy K s' ∧ P s' = true := by
  obtain ⟨s', hs', hP⟩ := (Option.any_eq_true _ _).mp hrun
  exact ⟨s', (ReachedBy.start hinit).exec hs', hP⟩

end System

end WeighingSync
