import WeighingSync.Replicator.Cluster

/-!
# What a finished cleanup job says

B marks a job done when C answers its `DELETE` with 200, which C does whether or not the record was
old enough to be removed. So a job that is marked done has removed its record in the runs in which
every `DELETE` names a record that is old enough (`gone_of_marked`).
-/

namespace WeighingSync.Replicator

open Go Receiver

variable {S : Setup} {s s' : State} {a : Action}

/-! ## Ids that have been handed out -/

/-- Every id that B knows of C was handed out by C before. -/
structure IdsHandedOut (s : State) : Prop where
  page : ∀ r ∈ s.page, r.id < s.c.records.nextId
  queue : ∀ q ∈ s.b.queue.rows, q.val.cRecordId < s.c.records.nextId
  jobs : ∀ j ∈ s.jobs, j.cRecordId < s.c.records.nextId

/-- C never takes an id back. -/
theorem nextId_le_of_step (h : Stepped S s a s') : s.c.records.nextId ≤ s'.c.records.nextId := by
  cases h with
  | upload env payload =>
      show s.c.records.nextId ≤ (insertPayload S.ccfg env payload s.c).1.records.nextId
      rcases records_insertPayload S.ccfg env payload s.c with hsame | hrows
      · exact le_of_eq (by rw [hsame])
      · rw [hrows]
        exact nextId_le_upsertRows _ _
  | _ => exact Nat.le_refl _

theorem idsHandedOut_fresh : IdsHandedOut freshState := by
  constructor
  · intro r hr
    cases hr
  · intro q hq
    cases hq
  · intro j hj
    cases hj

/-- A step of B copies ids that it knew, or reads them off rows of C. -/
theorem idsHandedOut_step (hs : IdsHandedOut s) (h : Stepped S s a s') : IdsHandedOut s' := by
  have hle : (s.c.records.nextId : ℤ) ≤ s'.c.records.nextId := by
    exact_mod_cast nextId_le_of_step h
  cases h with
  | upload env payload =>
      exact ⟨fun r hr => (hs.page r hr).trans_le hle, fun q hq => (hs.queue q hq).trans_le hle,
        fun j hj => (hs.jobs j hj).trans_le hle⟩
  | fetch hpage =>
      refine ⟨fun r hr => ?_, hs.queue, hs.jobs⟩
      obtain ⟨e, he, rfl⟩ := mem_fetchedPage hr
      have hlt := s.c.records.id_lt e he
      show (e.id : ℤ) < s.c.records.nextId
      exact_mod_cast hlt
  | store now r rest b hpage hstore =>
      refine ⟨fun r' hr' => hs.page r' (by rw [hpage]; exact List.mem_cons_of_mem r hr'), ?_, hs.jobs⟩
      intro q hq
      change q ∈ b.queue.rows at hq
      obtain ⟨_, -, -, -, hqueue⟩ := exists_stored S.env hstore
      rw [hqueue] at hq
      split_ifs at hq
      · rcases mem_enqueue hq with ⟨hq, -⟩ | ⟨-, hid, -, -⟩
        · exact hs.queue q hq
        · rw [hid]
          exact hs.page r (by rw [hpage]; exact List.mem_cons_self)
      · exact hs.queue q hq
  | abortFetch => exact ⟨fun r hr => (nomatch hr), hs.queue, hs.jobs⟩
  | load now henabled hjobs =>
      refine ⟨hs.page, hs.queue, fun j hj => ?_⟩
      obtain ⟨q, hq, -, rfl⟩ := mem_loadDeleteJobs hj
      exact hs.queue q hq
  | delete cutoff lost job rest hjobs houtcome => exact ⟨hs.page, hs.queue, hs.jobs⟩
  | refuse cause job rest hjobs houtcome => exact ⟨hs.page, hs.queue, hs.jobs⟩
  | mark now job rest outcome hjobs houtcome =>
      refine ⟨hs.page, fun q hq => ?_, fun j hj => hs.jobs j ?_⟩
      · rcases mem_markJob hq with ⟨hq, -⟩ | ⟨q₀, hq₀, -, -, -, -, hid⟩
        · exact hs.queue q hq
        · rw [hid]
          exact hs.queue q₀ hq₀
      · rw [hjobs]
        exact List.mem_cons_of_mem job hj
  | abortCleanup => exact ⟨hs.page, hs.queue, fun j hj => (nomatch hj)⟩
  | crash => exact ⟨fun r hr => (nomatch hr), hs.queue, fun j hj => (nomatch hj)⟩

/-! ## Done means gone -/

/-- A `DELETE` whose reply arrives names only records that are older than the cutoff. -/
def NamesOnlyOld (s : State) : Action → Prop
  | .delete cutoff none => ∀ job ∈ s.jobs.head?, ∀ e ∈ s.c.records.rows, (e.id : ℤ) = job.cRecordId →
      Str.lt e.val.effectiveTime cutoff = true
  | _ => True

/-- A step that marks a job done does so with its record gone from C. -/
def MarksOnlyGone (s : State) : Action → Prop
  | .mark _ => ∀ job ∈ s.jobs.head?, s.outcome = some .succeeded →
      ∀ e ∈ s.c.records.rows, (e.id : ℤ) ≠ job.cRecordId
  | _ => True

instance (s : State) : DecidablePred (NamesOnlyOld s)
  | .delete cutoff none => inferInstanceAs (Decidable (∀ job ∈ s.jobs.head?, ∀ e ∈ s.c.records.rows,
      (e.id : ℤ) = job.cRecordId → Str.lt e.val.effectiveTime cutoff = true))
  | .delete _ (some _) | .upload _ _ | .fetch | .store _ | .abortFetch | .load _ | .refuse _ | .mark _
  | .abortCleanup | .crash => isTrue trivial

instance (s : State) : DecidablePred (MarksOnlyGone s)
  | .mark _ => inferInstanceAs (Decidable (∀ job ∈ s.jobs.head?, s.outcome = some .succeeded →
      ∀ e ∈ s.c.records.rows, (e.id : ℤ) ≠ job.cRecordId))
  | .delete _ _ | .upload _ _ | .fetch | .store _ | .abortFetch | .load _ | .refuse _
  | .abortCleanup | .crash => isTrue trivial

/-- The record of a job whose `DELETE` has succeeded is gone, and every known id is handed out. -/
structure CleanedUp (s : State) : Prop where
  ids : IdsHandedOut s
  gone : ∀ job ∈ s.jobs.head?, s.outcome = some .succeeded →
    ∀ e ∈ s.c.records.rows, (e.id : ℤ) ≠ job.cRecordId

/-- An upload gives no record an id that was handed out before, unless a record had it already. -/
theorem ne_of_upload {env : PostEnv} {payload : UploadPayload} {id : ℤ}
    (hlt : id < s.c.records.nextId) (hne : ∀ e ∈ s.c.records.rows, (e.id : ℤ) ≠ id) :
    ∀ e ∈ (insertPayload S.ccfg env payload s.c).1.records.rows, (e.id : ℤ) ≠ id := by
  intro e he
  rcases records_insertPayload S.ccfg env payload s.c with hsame | hrows
  · rw [hsame] at he
    exact hne e he
  · rw [hrows] at he
    rcases mem_upsertRows he with ⟨e₀, he₀, hid, -⟩ | ⟨hfresh, -⟩
    · rw [← hid]
      exact hne e₀ he₀
    · have hfresh' : (s.c.records.nextId : ℤ) ≤ e.id := by exact_mod_cast hfresh
      omega

theorem cleanedUp_step (hs : CleanedUp s) (hok : NamesOnlyOld s a) (h : Stepped S s a s') :
    CleanedUp s' := by
  refine ⟨idsHandedOut_step hs.ids h, ?_⟩
  cases h with
  | upload env payload =>
      intro job hjob hout
      exact ne_of_upload (hs.ids.jobs job (List.mem_of_mem_head? hjob)) (hs.gone job hjob hout)
  | fetch hpage => exact hs.gone
  | store now r rest b hpage hstore => exact hs.gone
  | abortFetch => exact hs.gone
  | load now henabled hjobs =>
      intro job hjob hout
      cases hout
  | delete cutoff lost job rest hjobs houtcome =>
      -- the reply says nothing about the record; that it is gone follows from its age
      intro job' hjob' hout
      have hjob : job' = job := by
        rw [hjobs] at hjob'
        cases hjob'
        rfl
      subst hjob
      cases lost with
      | none => exact (gone_deleteByID_iff S.ccfg).mpr (hok job' hjob')
      | some cause => cases hout
  | refuse cause job rest hjobs houtcome =>
      intro job' hjob' hout
      cases hout
  | mark now job rest outcome hjobs houtcome =>
      intro job' hjob' hout
      cases hout
  | abortCleanup =>
      intro job hjob hout
      cases hout
  | crash =>
      intro job hjob hout
      cases hout

/-- In a run whose `DELETE` requests all name records old enough, every job is marked done with its
record gone. -/
theorem gone_of_marked (S : Setup) {s s' : State} {a : Action}
    (h : (cluster S).ReachedBy NamesOnlyOld s) (hstep : (cluster S).step s a = some s') :
    MarksOnlyGone s a := by
  have hinv : CleanedUp s := by
    refine h.invariant ?_ ?_
    · intro s₀ hs₀
      have hfresh : s₀ = freshState := hs₀
      subst hfresh
      exact ⟨idsHandedOut_fresh, fun job hjob _ => by cases hjob⟩
    · intro s₀ a₀ s₁ hs hstep₀ hok
      exact cleanedUp_step hs hok (stepped_of_step hstep₀)
  cases a with
  | mark now => exact hinv.gone
  | _ => trivial

/-- A record of the beginning of the year is uploaded, fetched, stored and cleaned up in June. -/
theorem gone_of_marked_oldRecord : ∃ s s', (cluster smallSetup).ReachedBy NamesOnlyOld s ∧
    (cluster smallSetup).step s (.mark 0) = some s' ∧ MarksOnlyGone s (.mark 0) := by
  obtain ⟨s, hs, hmark⟩ := System.exists_of_exec (S := cluster smallSetup) (s := freshState)
    (P := fun s => (step smallSetup s (.mark 0)).isSome) rfl
    (show ((cluster smallSetup).exec NamesOnlyOld freshState
      [uploadOf "a" "2026-01-01T00:00:00Z", .fetch, .store 0, .load 0,
        .delete (Str.lit "2026-06-01T00:00:00Z") none]).any _ = true by decide +kernel)
  obtain ⟨s', hs'⟩ := Option.isSome_iff_exists.mp hmark
  exact ⟨s, s', hs, hs', gone_of_marked smallSetup hs hs'⟩

/-- A record that is too young is refused by C with status 200, and its job is marked done. -/
theorem not_marksOnlyGone_youngRecord : ∃ s s', (cluster smallSetup).Reachable s ∧
    (cluster smallSetup).step s (.mark 0) = some s' ∧ ¬ MarksOnlyGone s (.mark 0) := by
  obtain ⟨s, hs, hrun⟩ := System.exists_of_exec (S := cluster smallSetup) (s := freshState)
    (P := fun s => (step smallSetup s (.mark 0)).isSome && !decide (MarksOnlyGone s (.mark 0))) rfl
    (show ((cluster smallSetup).exec (fun _ _ => True) freshState
      [uploadOf "a" "2026-01-01T00:00:00Z", .fetch, .store 0, .load 0,
        .delete (Str.lit "2025-12-25T00:00:00Z") none]).any _ = true by decide +kernel)
  rw [Bool.and_eq_true, Bool.not_eq_true', decide_eq_false_iff_not] at hrun
  obtain ⟨s', hs'⟩ := Option.isSome_iff_exists.mp hrun.1
  exact ⟨s, s', hs, hs', hrun.2⟩

end WeighingSync.Replicator
