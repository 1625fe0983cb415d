import WeighingSync.Replicator.Handover
import WeighingSync.Uploader.Edits
import WeighingSync.Uploader.StateLog

/-!
# The three programs together

A uploads rows to C and ticks them off in its state file, B copies records from C and has C delete
them. The source may change in any way, requests may be refused or their replies lost, the state file
may be cut short, and every program may stop anywhere. What A has ticked off is then held by C or B
(`ticked_off_is_held`): the pipeline does to keys what two holders may do that hand keys on
(`pipeline_hands_over`).
-/

namespace WeighingSync.Pipeline

open Go

/-- The settings of A, and those of C and B. -/
structure Setup where
  uploader : Uploader.Config
  cluster : Replicator.Setup

/-- The settings of A, with those of C that decide what it stores. -/
def Setup.a (S : Setup) : Uploader.Setup := ⟨S.uploader, S.cluster.ccfg, S.cluster.timeText⟩

/-- The source, A with the writes to its state file so far, and C and B. -/
structure State where
  source : Uploader.SourceDb
  store : Uploader.StateStore
  writes : List Uploader.Write
  phase : Uploader.Phase
  cluster : Replicator.State

/-- What may happen: the source changes, A takes its next step, with any outcome, or starts anew, or
something happens at C or B. -/
inductive Action
  | change (source : Uploader.SourceDb)
  | readInfos
  | readPhotos
  | post (link : Uploader.Link)
  | append (acceptedAt : Str) (room : Option ℕ)
  | restart
  | cluster (a : Replicator.Action)

/-- A and C. -/
def State.deployment (s : State) : Uploader.Deployment := ⟨s.source, s.store, s.cluster.c, s.phase⟩

/-- One step. A process whose `loadState` fails does not start. -/
def step (S : Setup) (s : State) : Action → Option State
  | .change source => some { s with source }
  | .readInfos => (S.a.step s.deployment .readInfos).map fun d => { s with phase := d.phase }
  | .readPhotos => (S.a.step s.deployment .readPhotos).map fun d => { s with phase := d.phase }
  | .post link =>
      match s.phase with
      | .posting pending =>
          let l := S.a.connect s.deployment link
          some { s with
            cluster := { s.cluster with c := (l.answer (Uploader.requestBody S.uploader l.exchange pending)).2 }
            phase := S.a.afterPost l pending }
      | _ => none
  | .append acceptedAt room =>
      match s.phase with
      | .confirming accepted =>
          let entries := accepted.map (Uploader.SourceRecord.entry acceptedAt)
          some { s with
            store := (s.store.append entries room).1
            writes := s.writes ++ s.store.writes entries room
            phase := .idle }
      | _ => none
  | .restart =>
      match Uploader.loadState s.store.file with
      | .ok store => some { s with store, phase := .idle }
      | .error _ => none
  | .cluster a => (Replicator.step S.cluster s.cluster a).map fun cluster => { s with cluster }

/-- The pipeline from the first start on, with any source. -/
def pipeline (S : Setup) : System State Action where
  init s := s.store = ⟨[], []⟩ ∧ s.writes = [] ∧ s.phase = .idle ∧ s.cluster = Replicator.freshState
  step := step S

/-! ## What A ticks off -/

/-- A record that A may tick off: it is one of a row, has a key of valid text, and the key is
promised. -/
structure Tickable (promised : Set Str) (r : Uploader.SourceRecord) : Prop where
  ofRow : r.OfRow
  pk_ne : r.pk ≠ []
  pk_valid : r.pk.Valid
  promised : r.recordKey ∈ promised

/-- What the phase of A says of the records it carries. -/
def PhaseTickable (promised : Set Str) : Uploader.Phase → Prop
  | .idle | .reported _ => True
  | .reading infos => ∀ r ∈ infos, r.OfRow ∧ r.pk ≠ []
  | .posting pending => ∀ r ∈ pending, r.OfRow ∧ r.pk ≠ []
  | .confirming accepted => ∀ r ∈ accepted, Tickable promised r

/-- The file is what the writes left in it; whatever was written is promised, and whatever A takes for
confirmed was. -/
structure Ledger (promised : Set Str) (s : State) : Prop where
  file : s.store.file = s.writes.flatMap Uploader.Write.text
  writes : ∀ w ∈ s.writes, ∃ r, Tickable promised r ∧ ∃ acceptedAt, w.entry = r.entry acceptedAt
  done : ∀ key ∈ s.store.done, ∃ r, Tickable promised r ∧ r.storeKey = key
  phase : PhaseTickable promised s.phase

variable {S : Setup} {s s' : State} {promised promised' : Set Str}

theorem Tickable.mono (hle : promised ⊆ promised') {r : Uploader.SourceRecord}
    (hr : Tickable promised r) : Tickable promised' r :=
  { hr with promised := hle hr.promised }

/-- What is promised besides changes nothing for A. -/
theorem Ledger.mono (hle : promised ⊆ promised') (hs : Ledger promised s) : Ledger promised' s where
  file := hs.file
  writes := fun w hw => (hs.writes w hw).imp fun _ hr => ⟨hr.1.mono hle, hr.2⟩
  done := fun key hkey => (hs.done key hkey).imp fun _ hr => ⟨hr.1.mono hle, hr.2⟩
  phase := by
    have hphase := hs.phase
    cases h : s.phase with
    | confirming accepted =>
        rw [h] at hphase
        exact fun r hr => (hphase r hr).mono hle
    | _ => rw [h] at hphase; exact hphase

theorem Ledger.withPhase (hs : Ledger promised s) {phase : Uploader.Phase}
    (hphase : PhaseTickable promised phase) : Ledger promised { s with phase } :=
  { hs with phase := hphase }

/-- `fetchEntity` hands on records of rows that have a key. -/
theorem tickable_of_fetchEntity {batchSize : ℤ} {t : Uploader.SourceTable}
    {entityType table primaryKey serialColumn : Str} {records : List Uploader.SourceRecord}
    (htype : entityType = Uploader.weightInfo ∨ entityType = Uploader.weightPhoto)
    (h : Uploader.fetchEntity batchSize t entityType table primaryKey serialColumn = .ok records) :
    ∀ r ∈ records, r.OfRow ∧ r.pk ≠ [] := by
  obtain ⟨-, rfl, hidentified⟩ := Uploader.fetchEntity_eq_ok_iff.mp h
  intro r hr
  have hpk : r.pk ≠ [] := by
    have hr' := hidentified r hr
    rw [Uploader.SourceRecord.identified, Bool.and_eq_true] at hr'
    exact of_decide_eq_true hr'.1
  obtain ⟨row, -, rfl⟩ := List.mem_map.mp hr
  exact ⟨⟨⟨row, rfl⟩, htype, rfl⟩, hpk⟩

theorem phaseTickable_readInfos (hstep : step S s .readInfos = some s') :
    ∃ phase, s' = { s with phase } ∧ PhaseTickable promised phase := by
  obtain ⟨d, hd, rfl⟩ := Option.map_eq_some_iff.mp hstep
  refine ⟨d.phase, rfl, ?_⟩
  simp only [Uploader.Setup.step] at hd
  split at hd
  · cases hd
    rw [Uploader.Setup.readInfos]
    cases hread : S.a.fetchInfos s.deployment.source.info with
    | error e => trivial
    | ok infos => exact tickable_of_fetchEntity (Or.inl rfl) hread
  · cases hd
    rw [Uploader.Setup.readInfos]
    cases hread : S.a.fetchInfos s.deployment.source.info with
    | error e => trivial
    | ok infos => exact tickable_of_fetchEntity (Or.inl rfl) hread
  · cases hd

theorem phaseTickable_readPhotos (hs : Ledger promised s) (hstep : step S s .readPhotos = some s') :
    ∃ phase, s' = { s with phase } ∧ PhaseTickable promised phase := by
  obtain ⟨d, hd, rfl⟩ := Option.map_eq_some_iff.mp hstep
  refine ⟨d.phase, rfl, ?_⟩
  simp only [Uploader.Setup.step] at hd
  split at hd
  · next infos hphase =>
    have hinfos := hs.phase
    rw [show s.phase = .reading infos from hphase] at hinfos
    cases hread : S.a.fetchPhotos s.deployment.source.photo with
    | error e =>
        rw [hread] at hd
        cases hd
        trivial
    | ok photos =>
        rw [hread] at hd
        cases hd
        have hphotos := tickable_of_fetchEntity (Or.inr rfl) hread
        show PhaseTickable promised (Uploader.Setup.afterReading _ _)
        rw [Uploader.Setup.afterReading]
        split_ifs
        · trivial
        · intro r hr
          exact (List.mem_append.mp (List.mem_of_mem_filter hr)).elim (hinfos r) (hphotos r)
  · cases hd

/-- A goes on to confirm only records that C has stored under the keys they have in A. -/
theorem stored_of_afterPost {l : Uploader.Link} {pending accepted : List Uploader.SourceRecord}
    (hpending : ∀ r ∈ pending, r.OfRow ∧ r.pk ≠ [])
    (hafter : S.a.afterPost l pending = .confirming accepted) :
    ∀ r ∈ accepted, r ∈ pending ∧ r.pk.Valid ∧ r.recordKey ∈
      (l.answer (Uploader.requestBody S.uploader l.exchange pending)).2.records.keys := by
  have hrows : ∀ r ∈ pending, r.OfRow := fun r hr => (hpending r hr).1
  have haccepted : accepted = if l.Confirms S.uploader pending then
      pending.filter fun r => r.recordKey ∈ Receiver.acceptedOf (l.payload S.uploader pending)
      else [] := by
    rw [← Uploader.Link.acknowledged_post hrows]
    rw [Uploader.Setup.afterPost] at hafter
    cases hpost : Uploader.post l.exchange.send (Uploader.requestBody S.uploader l.exchange pending) with
    | error e =>
        rw [show Uploader.post l.exchange.send (Uploader.requestBody S.a.cfg l.exchange pending) = _
          from hpost] at hafter
        cases hafter
    | ok response =>
        rw [show Uploader.post l.exchange.send (Uploader.requestBody S.a.cfg l.exchange pending) = _
          from hpost] at hafter
        cases hafter
        rfl
  intro r hr
  rw [haccepted] at hr
  split_ifs at hr with hconfirms
  · obtain ⟨hr, hkey⟩ := List.mem_filter.mp hr
    obtain ⟨p, hp, hkeyed, hpkey⟩ := (Uploader.mem_acceptedOf_payloadOf hrows).mp (of_decide_eq_true hkey)
    have hvalid : r.recordKey.Valid := hpkey ▸ Uploader.valid_cKey (hrows p hp)
    rw [(hrows r hr).recordKey, Str.valid_append] at hvalid
    exact ⟨hr, hvalid.2, hpkey ▸ (Uploader.storedAtC_of_keyed hrows hconfirms.1 hp hkeyed).stored⟩
  · exact absurd hr List.not_mem_nil

theorem ledger_append {accepted : List Uploader.SourceRecord} (hs : Ledger promised s)
    (hphase : s.phase = .confirming accepted) (acceptedAt : Str) (room : Option ℕ) :
    let entries := accepted.map (Uploader.SourceRecord.entry acceptedAt)
    Ledger promised { s with
      store := (s.store.append entries room).1
      writes := s.writes ++ s.store.writes entries room
      phase := .idle } := by
  have haccepted := hs.phase
  rw [hphase] at haccepted
  constructor
  case file => rw [Uploader.StateStore.file_append, hs.file, List.flatMap_append]
  case writes =>
    intro w hw
    rcases List.mem_append.mp hw with hw | hw
    · exact hs.writes w hw
    · obtain ⟨r, hr, hentry⟩ := List.mem_map.mp (Uploader.StateStore.entry_mem_of_mem_writes hw)
      exact ⟨r, haccepted r hr, acceptedAt, hentry.symm⟩
  case done =>
    intro key hkey
    rcases Uploader.StateStore.mem_done_append hkey with hold | ⟨e, he, rfl⟩
    · exact hs.done key hold
    · obtain ⟨r, hr, rfl⟩ := List.mem_map.mp he
      exact ⟨r, haccepted r hr, rfl⟩
  case phase => trivial

/-- A new process knows the keys of the lines that are whole, and no other. -/
theorem ledger_restart {store : Uploader.StateStore} (hs : Ledger promised s)
    (hload : Uploader.loadState s.store.file = .ok store) :
    Ledger promised { s with store, phase := .idle } := by
  -- a line that was cut short is skipped, and all the others can be read
  have hreadable : ∀ w ∈ s.writes, w.entry.Readable := by
    intro w hw
    obtain ⟨r, hr, acceptedAt, hentry⟩ := hs.writes w hw
    have htype : r.entityType.Valid := by
      rcases hr.ofRow.entityType with h | h <;> rw [h] <;> exact Str.valid_lit _
    rw [hentry]
    exact Uploader.StateEntry.readable_of_valid_key htype hr.pk_valid hr.pk_ne
  rw [hs.file, Uploader.loadState_of_readable s.writes hreadable] at hload
  split_ifs at hload
  cases hload
  refine ⟨rfl, hs.writes, fun key hkey => ?_, trivial⟩
  obtain ⟨w, hw, rfl⟩ := List.mem_map.mp hkey
  obtain ⟨r, hr, acceptedAt, hentry⟩ := hs.writes w (List.mem_of_mem_filter hw)
  exact ⟨r, hr, by rw [hentry]; rfl⟩

/-! ## The pipeline hands keys on -/

/-- The pipeline and the two holders: the promised keys are those that A has ticked off, or will. -/
structure HandsOver (S : Setup) (s : State) (c : Custody Str) : Prop where
  backed : Replicator.Backed S.cluster s.cluster
  holdings : c = Replicator.holdings S.cluster c.promised s.cluster
  ledger : Ledger c.promised s

/-- What C does with a request is an upload, or nothing. -/
theorem cluster_of_answer (s : State) (link : Uploader.Link) (body : Str) :
    let c := ((S.a.connect s.deployment link).answer body).2
    c = s.cluster.c ∨
      ∃ a, Replicator.step S.cluster s.cluster a = some { s.cluster with c } := by
  rcases Receiver.handlePost_cases S.cluster.ccfg (S.a.connect s.deployment link).env
    ((S.a.connect s.deployment link).refusal body) body s.cluster.c with
    ⟨-, hsame⟩ | ⟨payload, db', -, -, hinsert, hanswer⟩
  · exact Or.inl hsame
  · refine Or.inr ⟨.upload (S.a.connect s.deployment link).env payload, ?_⟩
    have hdb : ((S.a.connect s.deployment link).answer body).2 = db' := congrArg Prod.snd hanswer
    rw [hdb, Replicator.step, hinsert]

theorem handsOver_post {c : Custody Str} {link : Uploader.Link} (hs : HandsOver S s c)
    (hstep : step S s (.post link) = some s') :
    ∃ c', Custody.handover.Leads (fun _ _ => True) c c' ∧ HandsOver S s' c' := by
  simp only [step] at hstep
  split at hstep
  · next pending hphase =>
    cases hstep
    have hpending := hs.ledger.phase
    rw [hphase] at hpending
    -- what A will confirm is promised from now on
    let accepted : Set Str := {key | ∃ records, S.a.afterPost (S.a.connect s.deployment link) pending =
      .confirming records ∧ ∃ r ∈ records, r.recordKey = key}
    have hstored : ∀ key ∈ accepted, key ∈ ((S.a.connect s.deployment link).answer (Uploader.requestBody
        S.uploader (S.a.connect s.deployment link).exchange pending)).2.records.keys := by
      rintro key ⟨records, hafter, r, hr, rfl⟩
      exact (stored_of_afterPost hpending hafter r hr).2.2
    have hledger : Ledger (c.promised ∪ accepted)
        { s with phase := S.a.afterPost (S.a.connect s.deployment link) pending } := by
      refine (hs.ledger.mono Set.subset_union_left).withPhase ?_
      cases hafter : S.a.afterPost (S.a.connect s.deployment link) pending with
      | confirming records =>
          intro r hr
          obtain ⟨hmem, hvalid, -⟩ := stored_of_afterPost hpending hafter r hr
          exact ⟨(hpending r hmem).1, (hpending r hmem).2, hvalid,
            Or.inr ⟨records, hafter, r, hr, rfl⟩⟩
      | idle => trivial
      | reported fetched => trivial
      | reading infos =>
          rw [Uploader.Setup.afterPost] at hafter
          split at hafter <;> cases hafter
      | posting records =>
          rw [Uploader.Setup.afterPost] at hafter
          split at hafter <;> cases hafter
    have hnew : c.promised ∪ accepted ⊆ c.promised ∪ (Replicator.holdings S.cluster
        (c.promised ∪ accepted) { s.cluster with c := ((S.a.connect s.deployment link).answer
          (Uploader.requestBody S.uploader (S.a.connect s.deployment link).exchange pending)).2 }).held :=
      Set.union_subset_union_right _ fun key hkey => Or.inl (hstored key hkey)
    refine ⟨Replicator.holdings S.cluster (c.promised ∪ accepted) { s.cluster with
      c := ((S.a.connect s.deployment link).answer (Uploader.requestBody S.uploader
        (S.a.connect s.deployment link).exchange pending)).2 }, ?_, ?_, rfl, ?_⟩
    · rcases cluster_of_answer (S := S) s link (Uploader.requestBody S.uploader
        (S.a.connect s.deployment link).exchange pending) with hsame | ⟨a, ha⟩
      · rw [hs.holdings]
        refine Custody.leads_of_kept (Set.Subset.refl _) (fun key hkey => Or.inl ?_)
          Set.subset_union_left hnew
        exact hsame ▸ hkey
      · rw [hs.holdings]
        exact Replicator.holdings_leads hs.backed ha Set.subset_union_left hnew
    · rcases cluster_of_answer (S := S) s link (Uploader.requestBody S.uploader
        (S.a.connect s.deployment link).exchange pending) with hsame | ⟨a, ha⟩
      · show Replicator.Backed S.cluster { s.cluster with c := _ }
        rw [hsame]
        exact hs.backed
      · exact Replicator.backed_step hs.backed ha
    · exact ⟨hledger.file, hledger.writes, hledger.done, hledger.phase⟩
  · cases hstep

/-- A step of A that leaves C and B alone. -/
theorem HandsOver.withLedger {c : Custody Str} (hs : HandsOver S s c)
    (hcluster : s'.cluster = s.cluster) (hledger : Ledger c.promised s') :
    ∃ c', Custody.handover.Leads (fun _ _ => True) c c' ∧ HandsOver S s' c' :=
  ⟨c, .refl, hcluster ▸ hs.backed, hcluster ▸ hs.holdings, hledger⟩

/-- The pipeline hands keys on: every step of it is what two holders of keys may do. -/
theorem pipeline_hands_over (S : Setup) :
    (pipeline S).Simulates (fun _ _ => True) Custody.handover (fun _ _ => True) (HandsOver S) where
  init := by
    rintro s ⟨hstore, hwrites, hphase, hcluster⟩
    obtain ⟨c, hc, hbacked, hholdings⟩ := (Replicator.cluster_hands_over S.cluster).init s.cluster hcluster
    refine ⟨c, hc, hbacked, hholdings, ?_, fun w hw => ?_, fun key hkey => ?_, ?_⟩
    · rw [hstore, hwrites]
      rfl
    · rw [hwrites] at hw
      exact absurd hw List.not_mem_nil
    · rw [hstore] at hkey
      exact absurd hkey List.not_mem_nil
    · rw [hphase]
      trivial
  step := by
    rintro s a s' c hs hstep -
    cases a with
    | change source =>
        cases hstep
        exact hs.withLedger rfl ⟨hs.ledger.file, hs.ledger.writes, hs.ledger.done, hs.ledger.phase⟩
    | readInfos =>
        obtain ⟨phase, rfl, hphase⟩ := phaseTickable_readInfos hstep
        exact hs.withLedger rfl (hs.ledger.withPhase hphase)
    | readPhotos =>
        obtain ⟨phase, rfl, hphase⟩ := phaseTickable_readPhotos hs.ledger hstep
        exact hs.withLedger rfl (hs.ledger.withPhase hphase)
    | post link => exact handsOver_post hs hstep
    | append acceptedAt room =>
        simp only [pipeline, step] at hstep
        split at hstep
        · next accepted hphase =>
          cases hstep
          exact hs.withLedger rfl (ledger_append hs.ledger hphase acceptedAt room)
        · cases hstep
    | restart =>
        simp only [pipeline, step] at hstep
        split at hstep
        · next store hload =>
          cases hstep
          exact hs.withLedger rfl (ledger_restart hs.ledger hload)
        · cases hstep
    | cluster a =>
        obtain ⟨cluster, hcluster, rfl⟩ := Option.map_eq_some_iff.mp hstep
        refine ⟨Replicator.holdings S.cluster c.promised cluster, ?_,
          Replicator.backed_step hs.backed hcluster, rfl,
          hs.ledger.file, hs.ledger.writes, hs.ledger.done, hs.ledger.phase⟩
        rw [hs.holdings]
        exact Replicator.holdings_leads hs.backed hcluster (Set.Subset.refl _) Set.subset_union_left

/-- What A has ticked off is not lost: whatever row A takes for confirmed, C has a record of its key, or
B has a row that MySQL finds under it. -/
theorem ticked_off_is_held (h : (pipeline S).Reachable s) {r : Uploader.SourceRecord} (hr : r.OfRow)
    (hdone : r.confirmedIn s.store = true) :
    r.recordKey ∈ s.cluster.c.records.keys ∨
      S.cluster.env.collate r.recordKey ∈ s.cluster.b.replicated.keys := by
  obtain ⟨c, hc, hs⟩ := (pipeline_hands_over S).reachedBy h
  -- rows with one key in the state file have one key at C
  obtain ⟨r', hr', hkey⟩ := hs.ledger.done _ (of_decide_eq_true hdone)
  have hsame : r.recordKey = r'.recordKey :=
    (Uploader.recordKey_eq_iff hr hr'.ofRow).mpr
      ((Uploader.storeKey_eq_iff hr hr'.ofRow).mp hkey.symm)
  have hheld := Custody.promised_subset_of_reachable hc hr'.promised
  rw [← hsame, hs.holdings] at hheld
  exact hheld

/-! ## A record on its way through the three programs -/

/-- One weighing row, in batches of one row, and one record a page. -/
def smallPipeline : Setup := ⟨Uploader.oneRowConfig, Replicator.smallSetup⟩
def pipelineStart : State := ⟨Uploader.weighedStart.source, ⟨[], []⟩, [], .idle, Replicator.freshState⟩

/-- The row is uploaded and ticked off, and A starts anew; its record is fetched, stored and cleaned
up. -/
def wholeWay : List Action :=
  [.readInfos, .readPhotos, .post Uploader.goodLink, .append Uploader.goodLink.acceptedAt none,
    .restart, .cluster .fetch, .cluster (.store 0), .cluster (.load 0),
    .cluster (.delete (Str.lit "2026-06-01T00:00:00Z") none), .cluster (.mark 0)]

/-- The record of the row. -/
def firstRecord : Uploader.SourceRecord :=
  Uploader.oneRowConfig.infoRecord (Uploader.weighedRow "a" "0")

theorem ticked_off_is_held_wholeWay : ∃ s, (pipeline smallPipeline).Reachable s ∧
    (firstRecord.recordKey ∈ s.cluster.c.records.keys ∨
      smallPipeline.cluster.env.collate firstRecord.recordKey ∈ s.cluster.b.replicated.keys) ∧
    firstRecord.confirmedIn s.store = true ∧ s.cluster.c.records.keys = [] := by
  obtain ⟨s, hs, hP⟩ := System.exists_of_exec (S := pipeline smallPipeline) (K := fun _ _ => True)
    (P := fun s => decide (firstRecord.confirmedIn s.store = true ∧ s.cluster.c.records.keys = []))
    (s := pipelineStart) (l := wholeWay) ⟨rfl, rfl, rfl, rfl⟩ (by decide +kernel)
  obtain ⟨hdone, hgone⟩ := of_decide_eq_true hP
  exact ⟨s, hs, ticked_off_is_held hs ⟨⟨_, rfl⟩, Or.inl rfl, rfl⟩ hdone, hdone, hgone⟩

end WeighingSync.Pipeline
