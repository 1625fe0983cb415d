import WeighingSync.Common.Transition

/-!
# Runs between two states, logs and simulations

`Leads ok s s'` says that steps which all meet `ok` lead from `s` to `s'`. A relation that every step
establishes holds between the ends of a run (`Leads.relates`). `logged` adds a log to a system, for
statements about what has happened so far, and `Simulates` is a forward simulation in which a step of the one system is
matched by a run of the other.
-/

namespace WeighingSync.System

universe u v w x

variable {σ : Type u} {α : Type v} {S : System σ α} {ok : σ → α → Prop}

/-- The states to which runs from `s` lead whose steps all meet `ok`. -/
inductive Leads (S : System σ α) (ok : σ → α → Prop) (s : σ) : σ → Prop
  | refl : Leads S ok s s
  | next {s' s'' : σ} {a : α} :
      Leads S ok s s' → S.step s' a = some s'' → ok s' a → Leads S ok s s''

theorem Leads.single {s s' : σ} {a : α} (hstep : S.step s a = some s') (hok : ok s a) :
    S.Leads ok s s' := .next .refl hstep hok

theorem Leads.trans {s s' s'' : σ} (h : S.Leads ok s s') (h' : S.Leads ok s' s'') :
    S.Leads ok s s'' := by
  induction h' with
  | refl => exact h
  | next _ hstep hok ih => exact ih.next hstep hok

/-- A run from a state that is reached reaches its end. -/
theorem ReachedBy.leads {s s' : σ} (h : S.ReachedBy ok s) (hrun : S.Leads ok s s') :
    S.ReachedBy ok s' := by
  induction hrun with
  | refl => exact h
  | next _ hstep hok ih => exact ih.next hstep hok

/-- A run keeps what its steps keep. -/
theorem Leads.invariant {I : σ → Prop}
    (hstep : ∀ s a s', I s → S.step s a = some s' → ok s a → I s') {s s' : σ}
    (hrun : S.Leads ok s s') (hs : I s) : I s' := by
  induction hrun with
  | refl => exact hs
  | next _ hstep' hok ih => exact hstep _ _ _ ih hstep' hok

/-- A reflexive and transitive relation between the states before and after every step, as long as an
invariant holds, is one between the ends of every run. -/
theorem Leads.relates {I : σ → Prop} {R : σ → σ → Prop} (hrefl : ∀ s, R s s)
    (htrans : ∀ s s' s'', R s s' → R s' s'' → R s s'')
    (hstep : ∀ s a s', I s → S.step s a = some s' → ok s a → I s' ∧ R s s') {s s' : σ}
    (hrun : S.Leads ok s s') (hs : I s) : R s s' := by
  -- the invariant is needed at every state in between, so that both go along
  have hboth : I s' ∧ R s s' := by
    induction hrun with
    | refl => exact ⟨hs, hrefl s⟩
    | next _ hstep' hok ih =>
        obtain ⟨hI, hR⟩ := hstep _ _ _ ih.1 hstep' hok
        exact ⟨hI, htrans _ _ _ ih.2 hR⟩
  exact hboth.2

/-- An executed run leads to its end. -/
theorem Leads.exec [∀ s a, Decidable (ok s a)] {as : List α} {s s' : σ}
    (hrun : S.exec ok s as = some s') : S.Leads ok s s' := by
  induction as generalizing s with
  | nil =>
      rw [System.exec, Option.some_inj] at hrun
      exact hrun ▸ .refl
  | cons a as ih =>
      rw [System.exec] at hrun
      split_ifs at hrun with hok
      obtain ⟨s₁, hs₁, hrest⟩ := Option.bind_eq_some_iff.mp hrun
      exact (Leads.single hs₁ hok).trans (ih hrest)

/-- A run that is executed to a state of which `P` holds. -/
theorem exists_end_of_exec {K : σ → α → Prop} [∀ s a, Decidable (K s a)] {l : List α} {s : σ}
    {P : σ → Bool} (hrun : (S.exec K s l).any P = true) : ∃ s', S.Leads K s s' ∧ P s' = true := by
  obtain ⟨s', hs', hP⟩ := (Option.any_eq_true _ _).mp hrun
  exact ⟨s', Leads.exec hs', hP⟩

/-- A run and its continuation, executed to states of which `P` holds. -/
theorem exists_leads_of_exec {K : σ → α → Prop} [∀ s a, Decidable (K s a)] {l m : List α} {s₀ : σ}
    {P : σ → σ → Bool} (hinit : S.init s₀)
    (hrun : ((S.exec K s₀ l).any fun s => (S.exec K s m).any (P s)) = true) :
    ∃ s s', S.ReachedBy K s ∧ S.Leads K s s' ∧ P s s' = true := by
  obtain ⟨s, hs, hrest⟩ := (Option.any_eq_true _ _).mp hrun
  obtain ⟨s', hs', hP⟩ := exists_end_of_exec hrest
  exact ⟨s, s', (ReachedBy.start hinit).exec hs, hs', hP⟩

/-! ## Logs -/

section

variable {β : Type w} (S) (note : σ → α → σ → List β)

/-- The system with a log of what `note` says of the steps so far. -/
def logged : System (σ × List β) α where
  init p := S.init p.1 ∧ p.2 = []
  step p a := (S.step p.1 a).map fun s' => (s', p.2 ++ note p.1 a s')

variable {S} {note}

theorem logged_step {p p' : σ × List β} {a : α} :
    (S.logged note).step p a = some p' ↔
      S.step p.1 a = some p'.1 ∧ p'.2 = p.2 ++ note p.1 a p'.1 := by
  constructor
  · intro h
    obtain ⟨s', hs', rfl⟩ := Option.map_eq_some_iff.mp h
    exact ⟨hs', rfl⟩
  · rintro ⟨hs', hlog⟩
    exact Option.map_eq_some_iff.mpr ⟨p'.1, hs', Prod.ext rfl hlog.symm⟩

/-- A relation between states and logs that holds at the start and is kept by every step that meets `K`, with
what is logged of it, holds along every run of such steps. -/
theorem logged_invariant_of {K : σ → α → Prop} {I : σ → List β → Prop} (hinit : ∀ s, S.init s → I s [])
    (hstep : ∀ s l a s', I s l → S.step s a = some s' → K s a → I s' (l ++ note s a s')) {p : σ × List β}
    (h : (S.logged note).ReachedBy (fun p a => K p.1 a) p) : I p.1 p.2 := by
  refine h.invariant (I := fun p => I p.1 p.2) (fun p hp => ?_) fun p a p' hI hs hK => ?_
  · rw [hp.2]
    exact hinit _ hp.1
  · obtain ⟨hs', hlog⟩ := logged_step.mp hs
    rw [hlog]
    exact hstep _ _ _ _ hI hs' hK

/-- One that every step keeps holds along every run. -/
theorem logged_invariant {I : σ → List β → Prop} (hinit : ∀ s, S.init s → I s [])
    (hstep : ∀ s l a s', I s l → S.step s a = some s' → I s' (l ++ note s a s')) {p : σ × List β}
    (h : (S.logged note).Reachable p) : I p.1 p.2 :=
  logged_invariant_of (K := fun _ _ => True) hinit (fun s l a s' hI hs _ => hstep s l a s' hI hs) h

end

/-! ## Simulations -/

/-- Whatever `S` does by steps that meet `ok`, from a state that `R` relates to a state of `T`, a run of `T`
follows it by steps that meet `ok'`. -/
structure Simulates {τ : Type w} {β : Type x} (S : System σ α) (ok : σ → α → Prop) (T : System τ β)
    (ok' : τ → β → Prop) (R : σ → τ → Prop) : Prop where
  init : ∀ s, S.init s → ∃ t, T.init t ∧ R s t
  step : ∀ s a s' t, R s t → S.step s a = some s' → ok s a → ∃ t', T.Leads ok' t t' ∧ R s' t'

section

variable {τ : Type w} {β : Type x} {T : System τ β} {ok' : τ → β → Prop} {R : σ → τ → Prop}

/-- A run of the one system is followed by a run of the other. -/
theorem Simulates.leads (h : Simulates S ok T ok' R) {s s' : σ} {t : τ} (hR : R s t)
    (hrun : S.Leads ok s s') : ∃ t', T.Leads ok' t t' ∧ R s' t' := by
  induction hrun with
  | refl => exact ⟨t, .refl, hR⟩
  | next _ hstep hok ih =>
      obtain ⟨t₁, hrun₁, hR₁⟩ := ih
      obtain ⟨t₂, hrun₂, hR₂⟩ := h.step _ _ _ _ hR₁ hstep hok
      exact ⟨t₂, hrun₁.trans hrun₂, hR₂⟩

/-- Every state that is reached is related to one that is reached. -/
theorem Simulates.reachedBy (h : Simulates S ok T ok' R) {s : σ} (hs : S.ReachedBy ok s) :
    ∃ t, T.ReachedBy ok' t ∧ R s t := by
  induction hs with
  | start hinit =>
      obtain ⟨t, ht, hR⟩ := h.init _ hinit
      exact ⟨t, .start ht, hR⟩
  | next _ hstep hok ih =>
      obtain ⟨t, ht, hR⟩ := ih
      obtain ⟨t', hrun, hR'⟩ := h.step _ _ _ _ hR hstep hok
      exact ⟨t', ht.leads hrun, hR'⟩

/-- A simulation by a function: as long as an invariant holds, every action is one action of the other system
or none at all. Conditions on its actions are conditions on those that are such. -/
theorem simulates_of_map {I : σ → Prop} (f : σ → τ) (act : α → Option β) (K : τ → β → Prop)
    (hinit : ∀ s, S.init s → I s ∧ T.init (f s))
    (hstep : ∀ s a s', I s → S.step s a = some s' → I s' ∧
      (∀ b ∈ act a, T.step (f s) b = some (f s')) ∧ (act a = none → f s' = f s)) :
    Simulates S (fun s a => ∀ b ∈ act a, K (f s) b) T K fun s t => I s ∧ t = f s where
  init s hs := ⟨f s, (hinit s hs).2, (hinit s hs).1, rfl⟩
  step s a s' t hR hs hok := by
    obtain ⟨hI, rfl⟩ := hR
    obtain ⟨hI', hact, hnone⟩ := hstep s a s' hI hs
    refine ⟨f s', ?_, hI', rfl⟩
    cases ha : act a with
    | none => exact hnone ha ▸ .refl
    | some b => exact .single (hact b ha) (hok b ha)

end

end WeighingSync.System
