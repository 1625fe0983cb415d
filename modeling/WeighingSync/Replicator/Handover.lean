import WeighingSync.Common.Custody
import WeighingSync.Replicator.Assigned

/-!
# Keys on their way from C to B

C gives a record up only for a job of B, and B has a row of the key of every job, because the queue
row of a job was written together with it. So the two programs hand keys on without losing one
(`cluster_hands_over`): whatever C holds at some point of a run is later held by C or by B.
-/

namespace WeighingSync.Replicator

open Go Receiver

variable {S : Setup} {s s' : State}

/-- C and B as holders of keys. A key of C is held by B if MySQL finds a row for it. -/
def holdings (S : Setup) (promised : Set Str) (s : State) : Custody Str where
  promised := promised
  upstream := {key | key ∈ s.c.records.keys}
  downstream := {key | S.env.collate key ∈ s.b.replicated.keys}

/-- The invariant: B agrees with C about the ids it remembers, and has a row of the key of every queue
row. -/
structure Backed (S : Setup) (s : State) : Prop where
  ids : ∃ assigned, IdsAgree S ⟨s, assigned⟩
  queue : ∀ q ∈ s.b.queue.rows, q.key ∈ s.b.replicated.keys

theorem backed_fresh (S : Setup) : Backed S freshState where
  ids := ⟨[], KeyedTable.history_empty, keysAgree_fresh S⟩
  queue := fun _ hq => absurd hq List.not_mem_nil

/-- B has a row of the key of every job. -/
theorem Backed.jobs (hs : Backed S s) {job : DeleteJob} (hjob : job ∈ s.jobs) :
    S.env.collate job.recordKey ∈ s.b.replicated.keys := by
  obtain ⟨assigned, hids⟩ := hs.ids
  obtain ⟨q, hq, -, hrecord⟩ := hids.keys.job_row job hjob
  rw [← hrecord, ← hids.keys.queue_key q hq]
  exact hs.queue q hq

/-- Storing a record adds its key to the replicated rows, and enqueues no other. -/
theorem keys_storeRecord {env : StoreEnv} {cfg : Config} {now : ℤ} {r : CRecord} {db db' : ReplicatorDb}
    (h : storeRecord env cfg now r db = some db') :
    (∀ {key}, key ∈ db'.replicated.keys ↔ key ∈ db.replicated.keys ∨ key = env.collate r.recordKey) ∧
      ∀ q ∈ db'.queue.rows, q ∈ db.queue.rows ∨ q.key = env.collate r.recordKey := by
  obtain ⟨values, -, hreplicated, -, hqueue⟩ := exists_stored env h
  refine ⟨fun {key} => ?_, fun q hq => ?_⟩
  · rw [hreplicated, upsertReplicated, KeyedTable.mem_keys_upsert]
  · rw [hqueue] at hq
    split_ifs at hq
    · exact (mem_enqueue hq).imp And.left And.left
    · exact Or.inl hq

/-- B forgets no key. -/
theorem replicated_subset_of_step {a : Action} (h : Stepped S s a s') :
    s.b.replicated.keys ⊆ s'.b.replicated.keys := by
  cases h with
  | store now r rest b hpage hstore =>
      intro key hkey
      exact (keys_storeRecord hstore).1.mpr (Or.inl hkey)
  | _ => exact List.Subset.refl _

theorem backed_step {a : Action} (hs : Backed S s) (hstep : step S s a = some s') : Backed S s' := by
  have hstepped := stepped_of_step hstep
  have hkept := replicated_subset_of_step hstepped
  constructor
  case ids =>
    obtain ⟨assigned, hids⟩ := hs.ids
    exact ⟨_, idsAgree_step (d := .act a) hids (by simp only [observed, deedStep, hstep]; rfl)⟩
  case queue =>
    cases hstepped with
    | store now r rest b hpage hstore =>
        intro q hq
        -- a job is enqueued together with the row of its key
        rcases (keys_storeRecord hstore).2 q hq with hold | hnew
        · exact hkept (hs.queue q hold)
        · exact (keys_storeRecord hstore).1.mpr (Or.inr hnew)
    | mark now job rest outcome hjobs houtcome =>
        intro q hq
        -- what is marked keeps its key
        rcases mem_markJob hq with ⟨hold, -⟩ | ⟨q₀, hq₀, -, -, hkey, -⟩
        · exact hs.queue q hold
        · exact hkey ▸ hs.queue q₀ hq₀
    | _ => exact hs.queue

/-- What C no longer has, B has a row for. -/
theorem kept_step {a : Action} (hs : Backed S s) (h : Stepped S s a s') {key : Str}
    (hkey : key ∈ s.c.records.keys) :
    key ∈ s'.c.records.keys ∨ S.env.collate key ∈ s'.b.replicated.keys := by
  cases h with
  | upload env payload =>
      show key ∈ (insertPayload S.ccfg env payload s.c).1.records.keys ∨ _
      rcases records_insertPayload S.ccfg env payload s.c with hsame | hrows
      · exact Or.inl (hsame ▸ hkey)
      · rw [hrows, mem_keys_upsertRows]
        exact Or.inl (Or.inl hkey)
  | delete cutoff lost job rest hjobs houtcome =>
      obtain ⟨e, he, rfl⟩ := KeyedTable.mem_keys.mp hkey
      by_cases hgone : e ∈ (deleteByID S.ccfg s.c.records cutoff job.cRecordId).2.rows
      · exact Or.inl (KeyedTable.mem_keys.mpr ⟨e, hgone, rfl⟩)
      · -- the record of the id of the job has the key of the job
        have hjob : job ∈ s.jobs := hjobs ▸ List.mem_cons_self
        obtain ⟨assigned, hids⟩ := hs.ids
        have hid : (e.id : ℤ) = job.cRecordId := by
          by_contra hne
          exact hgone ((mem_deleteByID S.ccfg).mpr ⟨he, fun heq => absurd heq hne⟩)
        obtain ⟨named, hnamed, hcollate⟩ := hids.keys.jobs job hjob
        have hlive : Named assigned job.cRecordId e.key := ⟨e.id, hids.history.live e he, hid⟩
        rw [hlive.key_eq hids.history hnamed, hcollate]
        exact Or.inr (hs.jobs hjob)
  | _ => exact Or.inl hkey

/-- A step of C and B is what two holders of keys may do, also if they promise more keys with it. -/
theorem holdings_leads {a : Action} (hs : Backed S s) (hstep : step S s a = some s')
    {promised promised' : Set Str} (hstays : promised ⊆ promised')
    (hnew : promised' ⊆ promised ∪ (holdings S promised' s').held) :
    Custody.handover.Leads (fun _ _ => True) (holdings S promised s) (holdings S promised' s') := by
  have hstepped := stepped_of_step hstep
  refine Custody.leads_of_kept (fun key hkey => ?_) (fun key hkey => ?_) hstays hnew
  · exact replicated_subset_of_step hstepped hkey
  · exact kept_step hs hstepped hkey

/-- C and B hand keys on: every step of theirs is what two holders of keys may do. -/
theorem cluster_hands_over (S : Setup) :
    (cluster S).Simulates (fun _ _ => True) Custody.handover (fun _ _ => True)
      fun s c => Backed S s ∧ c = holdings S c.promised s where
  init := by
    intro s hs
    have hfresh : s = freshState := hs
    refine ⟨⟨∅, ∅, ∅⟩, rfl, hfresh ▸ backed_fresh S, ?_⟩
    rw [hfresh]
    ext key
    · exact Iff.rfl
    · exact ⟨fun h => absurd h id, fun h => absurd h List.not_mem_nil⟩
    · exact ⟨fun h => absurd h id, fun h => absurd h List.not_mem_nil⟩
  step := by
    rintro s a s' c ⟨hs, hc⟩ hstep -
    refine ⟨holdings S c.promised s', ?_, backed_step hs hstep, rfl⟩
    rw [hc]
    exact holdings_leads hs hstep (Set.Subset.refl _) Set.subset_union_left

/-- No key is lost: whatever C holds in a reachable state, C or B holds in every later one, whichever
requests fail or go unanswered and wherever either program stops. -/
theorem no_key_lost (h : (cluster S).Reachable s) (hrun : (cluster S).Leads (fun _ _ => True) s s') :
    ∀ key ∈ s.c.records.keys,
      key ∈ s'.c.records.keys ∨ S.env.collate key ∈ s'.b.replicated.keys := by
  obtain ⟨-, -, hs, -⟩ := (cluster_hands_over S).reachedBy h
  obtain ⟨c', hruns, -, hc'⟩ := (cluster_hands_over S).leads
    (t := holdings S {key | key ∈ s.c.records.keys} s) ⟨hs, rfl⟩ hrun
  have hheld := Custody.promised_of_leads (fun key hkey => Or.inl hkey) hruns
  intro key hkey
  have hmem := hheld hkey
  rw [hc'] at hmem
  exact hmem

/-- A record that C has received is fetched, stored and cleaned up. -/
theorem no_key_lost_cleaned : ∃ s s', (cluster smallSetup).Reachable s ∧
    (cluster smallSetup).Leads (fun _ _ => True) s s' ∧
    (∀ key ∈ s.c.records.keys,
      key ∈ s'.c.records.keys ∨ smallSetup.env.collate key ∈ s'.b.replicated.keys) ∧
    s.c.records.keys ≠ [] ∧ s'.c.records.keys = [] := by
  obtain ⟨s, s', hs, hrun, hP⟩ := System.exists_leads_of_exec (S := cluster smallSetup)
    (K := fun _ _ => True) (l := [uploadOf "A" "2026-01-01T00:00:00Z"])
    (m := [.fetch, .store 0, .load 0, .delete (Str.lit "2026-06-01T00:00:00Z") none, .mark 0])
    (P := fun s s' => decide (s.c.records.keys ≠ [] ∧ s'.c.records.keys = [])) rfl (by decide +kernel)
  exact ⟨s, s', hs, hrun, no_key_lost hs hrun, of_decide_eq_true hP⟩

end WeighingSync.Replicator
