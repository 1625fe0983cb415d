import WeighingSync.Common.Runs

/-!
# Handing keys on without losing them

Two holders of keys, one behind the other: what is promised was held by one of them at the time, the
downstream holder forgets nothing, and the upstream one gives up only what is held downstream. Then
every key that was ever promised is held (`promised_subset_of_reachable`).
-/

namespace WeighingSync

variable {κ : Type*}

/-- The keys that are promised to be held, and those that are held. -/
@[ext]
structure Custody (κ : Type*) where
  promised : Set κ
  upstream : Set κ
  downstream : Set κ

namespace Custody

/-- The keys that are held. -/
def held (c : Custody κ) : Set κ := c.upstream ∪ c.downstream

/-- What may happen to sets of keys. -/
inductive Move (κ : Type*)
  | arrive (keys : Set κ)
  | promise (keys : Set κ)
  | copy (keys : Set κ)
  | release (keys : Set κ)

open Classical in
/-- Keys arrive upstream, are promised once they are held, are copied downstream, and are released
upstream once they are held downstream. -/
noncomputable def handover : System (Custody κ) (Move κ) where
  init c := c = ⟨∅, ∅, ∅⟩
  step c
    | .arrive keys => some { c with upstream := c.upstream ∪ keys }
    | .promise keys => if keys ⊆ c.held then some { c with promised := c.promised ∪ keys } else none
    | .copy keys => some { c with downstream := c.downstream ∪ keys }
    | .release keys => if keys ⊆ c.downstream then some { c with upstream := c.upstream \ keys } else none

/-- What is promised is held, and stays promised. -/
theorem step_promised {c c' : Custody κ} {m : Move κ} (hs : c.promised ⊆ c.held)
    (hstep : handover.step c m = some c') : c'.promised ⊆ c'.held ∧ c.promised ⊆ c'.promised := by
  cases m with
  | arrive keys =>
      cases hstep
      exact ⟨hs.trans (Set.union_subset_union_left _ Set.subset_union_left), subset_rfl⟩
  | promise keys =>
      simp only [handover] at hstep
      split_ifs at hstep with hkeys
      cases hstep
      exact ⟨Set.union_subset hs hkeys, Set.subset_union_left⟩
  | copy keys =>
      cases hstep
      exact ⟨hs.trans (Set.union_subset_union_right _ Set.subset_union_left), subset_rfl⟩
  | release keys =>
      simp only [handover] at hstep
      split_ifs at hstep with hkeys
      cases hstep
      refine ⟨fun k hk => ?_, subset_rfl⟩
      -- a promised key that is released is held downstream
      by_cases hreleased : k ∈ keys
      · exact Or.inr (hkeys hreleased)
      · exact (hs hk).imp_left fun hup => ⟨hup, hreleased⟩

/-- Whatever is promised stays promised, and is held at the end of a run. -/
theorem promised_of_leads {c c' : Custody κ} (hs : c.promised ⊆ c.held)
    (hrun : handover.Leads (fun _ _ => True) c c') : c.promised ⊆ c'.held := by
  have hheld : c'.promised ⊆ c'.held :=
    hrun.invariant (fun _ _ _ hI hstep _ => (step_promised hI hstep).1) hs
  have hstays : c.promised ⊆ c'.promised := by
    refine hrun.relates (I := fun c => c.promised ⊆ c.held) (R := fun c c' => c.promised ⊆ c'.promised)
      (fun _ => subset_rfl) (fun _ _ _ => Set.Subset.trans) (fun c m c' hI hstep _ => ?_) hs
    exact step_promised hI hstep
  exact hstays.trans hheld

/-- Steps that do what the two holders may do add up: the downstream holder forgets nothing, what the
upstream one no longer has is downstream, and what is newly promised is held. -/
theorem leads_of_kept {c c' : Custody κ} (hdown : c.downstream ⊆ c'.downstream)
    (hup : c.upstream ⊆ c'.held) (hstays : c.promised ⊆ c'.promised)
    (hnew : c'.promised ⊆ c.promised ∪ c'.held) : handover.Leads (fun _ _ => True) c c' := by
  -- the copies come first: what is released must be downstream by then
  have hcopy : handover.step c (.copy c'.downstream) =
      some ⟨c.promised, c.upstream, c'.downstream⟩ := by
    simp only [handover, Set.union_eq_self_of_subset_left hdown]
  have harrive : handover.step ⟨c.promised, c.upstream, c'.downstream⟩ (.arrive c'.upstream) =
      some ⟨c.promised, c.upstream ∪ c'.upstream, c'.downstream⟩ := rfl
  have hrelease : handover.step ⟨c.promised, c.upstream ∪ c'.upstream, c'.downstream⟩
      (.release (c.upstream \ c'.upstream)) = some ⟨c.promised, c'.upstream, c'.downstream⟩ := by
    have hheld : c.upstream \ c'.upstream ⊆ c'.downstream := fun k hk => (hup hk.1).resolve_left hk.2
    have hrest : (c.upstream ∪ c'.upstream) \ (c.upstream \ c'.upstream) = c'.upstream := by
      ext k
      simp only [Set.mem_sdiff, Set.mem_union]
      tauto
    simp only [handover, if_pos hheld, hrest]
  have hpromise : handover.step ⟨c.promised, c'.upstream, c'.downstream⟩
      (.promise (c'.promised \ c.promised)) = some c' := by
    have hheld : c'.promised \ c.promised ⊆ held ⟨c.promised, c'.upstream, c'.downstream⟩ :=
      fun k hk => (hnew hk.1).resolve_left hk.2
    simp only [handover, if_pos hheld, Set.union_sdiff_cancel hstays]
  exact (((System.Leads.single hcopy trivial).next harrive trivial).next hrelease trivial).next
    hpromise trivial

/-- Nothing that was ever promised is lost. -/
theorem promised_subset_of_reachable {c : Custody κ} (h : handover.Reachable c) :
    c.promised ⊆ c.held := by
  refine h.invariant (I := fun c => c.promised ⊆ c.held) (fun c hc => ?_)
    fun c m c' hI hstep _ => (step_promised hI hstep).1
  have hempty : c = ⟨∅, ∅, ∅⟩ := hc
  rw [hempty]
  exact Set.empty_subset _

end Custody

end WeighingSync
