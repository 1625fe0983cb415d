import WeighingSync.Uploader.Confirmation

/-!
# Agreement under the documented keys

With `serialNo` as the key of weighing records and `id` as that of photos, C derives from a record
the key it has in A. What C commits is then confirmed in A exactly when the confirmation fits what
A reads of a reply (`agrees_iff`); how large it is follows from the keys alone
(`confirmationSize_documented`).
-/

namespace WeighingSync.Uploader

open Go

/-- The documented primary keys. -/
def documentedKey (entityType : Str) : String := if entityType = weightPhoto then "id" else "serialNo"

/-- A record that A has identified by the documented key, as valid UTF-8 text. -/
structure SourceRecord.Documented (r : SourceRecord) : Prop where
  ofRow : r.OfRow
  pk_eq : r.pk = stringValue (column r.data (Str.lit (documentedKey r.entityType)))
  pk_ne : r.pk ≠ []
  pk_valid : r.pk.Valid

/-! ## The same keys in A and in C -/

/-- C reads the documented key as A does. -/
theorem extractString_documented {r : SourceRecord} (hr : r.Documented) (names : List String) :
    Receiver.extractString r.received (documentedKey r.entityType :: names) = r.pk := by
  have hnull : column r.data (Str.lit (documentedKey r.entityType)) ≠ .null := by
    intro hnull
    refine hr.pk_ne ?_
    rw [hr.pk_eq, hnull]
    rfl
  rw [extractString_received hr.ofRow, firstText, if_neg hnull, ← hr.pk_eq,
    Str.repair_eq_self_iff.mpr hr.pk_valid]

theorem extractRecordKey_documented {r : SourceRecord} (hr : r.Documented) :
    (Receiver.extractRecordKey r.entityType r.received).2 = r.pk := by
  have hkey := extractString_documented hr
  rw [Receiver.extractRecordKey]
  rcases hr.ofRow.entityType with htype | htype
  · rw [htype] at hkey ⊢
    have hserial : Receiver.extractString r.received ["serialNo", "serial_no"] = r.pk :=
      hkey ["serial_no"]
    show (Receiver.firstKey r.received (("serialNo", ["serialNo", "serial_no"]) :: _)).2 = _
    rw [Receiver.firstKey, if_pos (by rw [hserial]; exact hr.pk_ne)]
    exact hserial
  · rw [htype] at hkey ⊢
    have hid : Receiver.extractString r.received ["id"] = r.pk := hkey []
    show (Receiver.firstKey r.received (("id", ["id"]) :: _)).2 = _
    rw [Receiver.firstKey, if_pos (by rw [hid]; exact hr.pk_ne)]
    exact hid

theorem keyedAtC_documented {r : SourceRecord} (hr : r.Documented) : r.keyedAtC = true := by
  rw [SourceRecord.keyedAtC, Receiver.keyed, extractRecordKey_documented hr]
  exact decide_eq_true hr.pk_ne

/-- The key of the record at C is its key in A. -/
theorem cKey_documented {r : SourceRecord} (hr : r.Documented) : r.cKey = r.recordKey := by
  rw [SourceRecord.cKey, Receiver.recordKey, extractRecordKey_documented hr, hr.ofRow.recordKey]

/-! ## The confirmation of a request -/

section

variable {l : Link} {cfg : Config} {pending : List SourceRecord}

theorem acceptedOf_documented (h : ∀ r ∈ pending, r.Documented) :
    Receiver.acceptedOf (l.payload cfg pending) = (inOrder pending).map SourceRecord.recordKey := by
  have hall : (inOrder pending).filter SourceRecord.keyedAtC = inOrder pending :=
    List.filter_eq_self.mpr fun r hr => keyedAtC_documented (h r (mem_inOrder.mp hr))
  rw [Link.payload, acceptedOf_payloadOf cfg _ fun r hr => (h r hr).ofRow, hall]
  exact List.map_congr_left fun r hr => cKey_documented (h r (mem_inOrder.mp hr))

/-- The size of the confirmation: it lists the key of every record, the serial number of every
weighing record, and nothing as failed. -/
theorem confirmationSize_documented (h : ∀ r ∈ pending, r.Documented) :
    l.confirmationSize cfg pending =
      Receiver.replySize l.env ((inOrder pending).map SourceRecord.recordKey)
        ((pending.filter fun r => r.entityType ≠ weightPhoto).map SourceRecord.pk) []
        (pending.filter fun r => r.entityType ≠ weightPhoto).length
        (pending.filter fun r => r.entityType = weightPhoto).length := by
  have haccepted : Receiver.acceptedOf (l.payload cfg pending) =
      (inOrder pending).map SourceRecord.recordKey := acceptedOf_documented h
  have hunkeyed : Receiver.unkeyedOf (l.payload cfg pending) = [] := by
    have hlength := Receiver.length_accepted_add_unkeyed (l.payload cfg pending)
    have htotal : Receiver.total (l.payload cfg pending).entityRecords = (inOrder pending).length :=
      total_payloadOf cfg l.exchange pending
    rw [haccepted, List.length_map, htotal] at hlength
    exact List.eq_nil_of_length_eq_zero (by omega)
  have hserials : Receiver.acceptedWeightInfoSerials (l.payload cfg pending)
      ((inOrder pending).map SourceRecord.recordKey) =
        (pending.filter fun r => r.entityType ≠ weightPhoto).map SourceRecord.pk := by
    have hsome : (pending.filter fun r => r.entityType ≠ weightPhoto).map SourceRecord.pk =
        (pending.filter fun r => r.entityType ≠ weightPhoto).filterMap
          (some ∘ SourceRecord.pk) := by
      rw [List.filterMap_eq_map]
    rw [hsome, Receiver.acceptedWeightInfoSerials, Link.payload, normalizedWeightInfo_payloadOf,
      List.filterMap_map]
    refine List.filterMap_congr fun r hr => ?_
    obtain ⟨hr, hinfo⟩ := List.mem_filter.mp hr
    have hdoc := h r hr
    have htype : r.entityType = weightInfo :=
      hdoc.ofRow.entityType.resolve_right (by simpa using hinfo)
    have hkey : Receiver.recordKey Receiver.weightInfo r.received = r.recordKey := by
      rw [← cKey_documented hdoc, SourceRecord.cKey, htype]
      rfl
    have hserial : Receiver.extractString r.received ["serialNo", "serial_no"] = r.pk := by
      have hread := extractString_documented hdoc ["serial_no"]
      rwa [htype] at hread
    have hmem : r.recordKey ∈ (inOrder pending).map SourceRecord.recordKey :=
      List.mem_map_of_mem (mem_inOrder.mpr hr)
    simp only [Function.comp_apply, hkey, hserial, hmem, hdoc.pk_ne, if_true, ne_eq,
      not_false_eq_true]
  rw [Link.confirmationSize]
  simp only [haccepted, hunkeyed, hserials]
  rw [Link.payload, normalizedWeightInfo_payloadOf, List.length_map]
  simp only [payloadOf, List.length_map]

end

/-! ## Agreement -/

/-- The pass has appended exactly the submitted records: one line for each of their keys, and every
one of them is confirmed. -/
def AppendsSubmitted (pass : Pass) (store : StateStore) (acceptedAt : Str)
    (pending : List SourceRecord) : Prop :=
  ∃ added : List SourceRecord, added.Sublist pending ∧
    (added.map fun r => stateKey r.entityType r.pk).Nodup ∧
    pass.store.file = store.file ++ added.flatMap (fun r => (r.entry acceptedAt).line) ∧
    ∀ r ∈ pending, r.confirmedIn pass.store = true

/-- A and C agree on a pass: what C commits is appended, and what C refuses changes nothing. -/
structure Agrees (l : Link) (cfg : Config) (db : SourceDb) (store : StateStore) : Prop where
  committed : l.Commits cfg (submitted cfg db store) →
    AppendsSubmitted (syncOnce cfg db store l.exchange) store l.acceptedAt (submitted cfg db store)
  refused : ¬ l.Commits cfg (submitted cfg db store) → (syncOnce cfg db store l.exchange).store = store

/-- The confirmation of a pass gets through: its reply arrives, is no larger than A reads, and the
disk takes the lines. -/
structure GetsThrough (l : Link) (cfg : Config) (store : StateStore) (pending : List SourceRecord) :
    Prop where
  arrives : l.replyLost = false
  fits : Receiver.replySize l.env ((inOrder pending).map SourceRecord.recordKey)
    ((pending.filter fun r => r.entityType ≠ weightPhoto).map SourceRecord.pk) []
    (pending.filter fun r => r.entityType ≠ weightPhoto).length
    (pending.filter fun r => r.entityType = weightPhoto).length ≤ maxReply
  room : ∀ n ∈ l.room,
    StateStore.linesSize store.done (pending.map (SourceRecord.entry l.acceptedAt)) ≤ n

theorem documented_of_mem_submitted {cfg : Config} (hinfo : cfg.infoPrimaryKey = Str.lit "serialNo")
    (hphoto : cfg.photoPrimaryKey = Str.lit "id") {db : SourceDb} {store : StateStore}
    {r : SourceRecord} (h : r ∈ submitted cfg db store) (hvalid : r.pk.Valid) : r.Documented := by
  have hofRow := ofRow_of_mem_submitted h
  rw [submitted] at h
  split at h
  · next records hfetch =>
    obtain ⟨hread, rfl⟩ := fetchAll_eq_ok_iff_readable.mp hfetch
    have hwindow := List.mem_of_mem_filter h
    have hpk : r.pk ≠ [] := by
      have hidentified := hread.2.2 r hwindow
      rw [SourceRecord.identified, Bool.and_eq_true] at hidentified
      exact of_decide_eq_true hidentified.1
    refine ⟨hofRow, ?_, hpk, hvalid⟩
    rcases List.mem_append.mp hwindow with hmem | hmem
    · obtain ⟨row, -, rfl⟩ := List.mem_map.mp hmem
      show stringValue (column row.data cfg.infoPrimaryKey) = _
      rw [hinfo]
      rfl
    · obtain ⟨row, -, rfl⟩ := List.mem_map.mp hmem
      show stringValue (column row.data cfg.photoPrimaryKey) = _
      rw [hphoto]
      rfl
  · cases h

theorem not_confirmedIn_of_mem_submitted {cfg : Config} {db : SourceDb} {store : StateStore}
    {r : SourceRecord} (h : r ∈ submitted cfg db store) : r.confirmedIn store = false := by
  rw [submitted] at h
  split at h
  · simpa using (List.mem_filter.mp h).2
  · cases h

/-- Appending the entries of records confirms these, with one line for each new key. -/
theorem append_records (store : StateStore) (acceptedAt : Str) {pending : List SourceRecord} :
    ∃ added : List SourceRecord, added.Sublist pending ∧
      (added.map fun r => stateKey r.entityType r.pk).Nodup ∧
      (store.append (pending.map (SourceRecord.entry acceptedAt)) none).1.file =
        store.file ++ added.flatMap (fun r => (r.entry acceptedAt).line) ∧
      ∀ r ∈ pending,
        r.confirmedIn (store.append (pending.map (SourceRecord.entry acceptedAt)) none).1 = true := by
  obtain ⟨entries, happend, hsub, hnodup, -, hall⟩ :=
    store.append_unlimited (pending.map (SourceRecord.entry acceptedAt))
  obtain ⟨added, hadded, rfl⟩ := List.sublist_map_iff.mp hsub
  rw [List.map_map] at hnodup
  refine ⟨added, hadded, hnodup, ?_, ?_⟩
  · rw [happend, List.flatMap_map]
  · intro r hr
    rw [happend]
    refine decide_eq_true (List.mem_append.mpr ?_)
    rcases hall (r.entry acceptedAt) (List.mem_map_of_mem hr) with hdone | hnew
    · exact Or.inr hdone
    · exact Or.inl (List.mem_reverse.mpr hnew)

/-- With the documented keys as valid UTF-8 text, a pass agrees with C exactly when the confirmation
of what C commits gets through. -/
theorem agrees_iff (l : Link) (cfg : Config) (hinfo : cfg.infoPrimaryKey = Str.lit "serialNo")
    (hphoto : cfg.photoPrimaryKey = Str.lit "id") (db : SourceDb) (store : StateStore)
    (hvalid : ∀ r ∈ submitted cfg db store, r.pk.Valid) :
    Agrees l cfg db store ↔ (submitted cfg db store ≠ [] → l.Commits cfg (submitted cfg db store) →
      GetsThrough l cfg store (submitted cfg db store)) := by
  have hdoc : ∀ r ∈ submitted cfg db store, r.Documented := fun r hr =>
    documented_of_mem_submitted hinfo hphoto hr (hvalid r hr)
  have hconfirmed := confirmed_syncOnce l cfg db store
  have hall : ((submitted cfg db store).filter fun r =>
      r.recordKey ∈ Receiver.acceptedOf (l.payload cfg (submitted cfg db store))) =
        submitted cfg db store := by
    refine List.filter_eq_self.mpr fun r hr => decide_eq_true ?_
    rw [acceptedOf_documented hdoc]
    exact List.mem_map_of_mem (mem_inOrder.mpr hr)
  rw [hall] at hconfirmed
  -- what is confirmed is nothing, or everything that was submitted
  have hstore : (syncOnce cfg db store l.exchange).store =
      if l.Confirms cfg (submitted cfg db store) then
        (store.append ((submitted cfg db store).map (SourceRecord.entry l.acceptedAt)) l.room).1
      else store := by
    rcases syncOnce_submitted cfg db store l.exchange with ⟨hnone, -, hsame⟩ | ⟨-, happend, -⟩
    · rw [hsame, hnone]
      exact (ite_self _).symm
    · rw [happend, hconfirmed]
      split_ifs <;> rfl
  constructor
  · intro h hne hcommits
    obtain ⟨added, -, -, -, hin⟩ := h.committed hcommits
    rw [hstore] at hin
    by_cases hconfirms : l.Confirms cfg (submitted cfg db store)
    · rw [if_pos hconfirms] at hin
      refine ⟨hconfirms.2.1, ?_, ?_⟩
      · rw [← confirmationSize_documented hdoc]
        exact hconfirms.2.2
      · by_contra hroom
        push Not at hroom
        obtain ⟨e, he, hnot⟩ := StateStore.exists_not_mem_done hroom
        obtain ⟨r, hr, rfl⟩ := List.mem_map.mp he
        exact hnot (of_decide_eq_true (hin r hr))
    · rw [if_neg hconfirms] at hin
      obtain ⟨r, hr⟩ := List.exists_mem_of_ne_nil _ hne
      have hnew := not_confirmedIn_of_mem_submitted hr
      rw [hin r hr] at hnew
      cases hnew
  · intro h
    refine ⟨fun hcommits => ?_, fun hrefused => ?_⟩
    · by_cases hne : submitted cfg db store = []
      · rw [hne] at hstore ⊢
        refine ⟨[], List.Sublist.refl _, List.nodup_nil, ?_, fun r hr => (nomatch hr)⟩
        rw [hstore]
        split_ifs <;> exact (List.append_nil _).symm
      · have hthrough := h hne hcommits
        have hconfirms : l.Confirms cfg (submitted cfg db store) := by
          refine ⟨hcommits, hthrough.arrives, ?_⟩
          rw [confirmationSize_documented hdoc]
          exact hthrough.fits
        rw [if_pos hconfirms, StateStore.append_of_room hthrough.room] at hstore
        rw [AppendsSubmitted, hstore]
        exact append_records store l.acceptedAt
    · rw [hstore, if_neg fun h : l.Confirms cfg _ => hrefused h.1]

/-- The rows `a` and `b` of a small source, in batches of one: `a` is submitted, and confirmed. -/
theorem agrees_iff_twoRows : ∃ cfg, loadConfig oneRowEnv defaultEndpoint = .ok cfg ∧
    submitted cfg twoRowDb ⟨[], []⟩ ≠ [] ∧
    goodLink.Commits cfg (submitted cfg twoRowDb ⟨[], []⟩) ∧
    Agrees goodLink cfg twoRowDb ⟨[], []⟩ := by
  have hvalid : ∀ r ∈ submitted oneRowConfig twoRowDb ⟨[], []⟩, r.pk.Valid := by decide +kernel
  have hne : submitted oneRowConfig twoRowDb ⟨[], []⟩ ≠ [] := by decide +kernel
  have hbody : ((requestBody oneRowConfig goodLink.exchange
      (submitted oneRowConfig twoRowDb ⟨[], []⟩)).size : ℤ) ≤ 16777216 := by decide +kernel
  have hthrough : GetsThrough goodLink oneRowConfig ⟨[], []⟩
      (submitted oneRowConfig twoRowDb ⟨[], []⟩) :=
    ⟨rfl, by decide +kernel, fun n hn => (nomatch hn)⟩
  exact ⟨oneRowConfig, loadConfig_oneRowEnv, hne, Link.commits_of_small hbody rfl (fun _ => rfl) hne,
    (agrees_iff goodLink oneRowConfig rfl rfl twoRowDb ⟨[], []⟩ hvalid).mpr fun _ _ => hthrough⟩

/-! ## A confirmation that is too large -/

theorem size_quote_append (s t : Str) :
    (Go.quote (s ++ t)).size + 2 = (Go.quote s).size + (Go.quote t).size := by
  have hmark : (Rune.char '"').size = 1 := rfl
  simp only [Go.quote, List.flatMap_append, Str.size_cons, Str.size_append, Str.size_nil, hmark]
  omega

/-- A text of plain letters. -/
def letters (n : ℕ) : Str := List.replicate n (.char 'a')

theorem size_quote_letters (n : ℕ) : (Go.quote (letters n)).size = n + 2 := by
  induction n with
  | zero => rfl
  | succ n ih =>
      have hone : (Go.quote [.char 'a']).size = 3 := by decide
      have hsplit := size_quote_append [.char 'a'] (letters n)
      have hletters : letters (n + 1) = [.char 'a'] ++ letters n := rfl
      rw [hletters]
      omega

theorem trimSpace_letters (n : ℕ) : (letters n).trimSpace = letters n := by
  have hdrop : ∀ m, (letters m).dropWhile Rune.isSpace = letters m := by
    intro m
    cases m with
    | zero => rfl
    | succ m => exact List.dropWhile_cons_of_neg (by decide)
  have hreverse : (letters n).reverse = letters n := List.reverse_replicate ..
  rw [Str.trimSpace, hdrop, List.rdropWhile, hreverse, hdrop, hreverse]

theorem valid_letters (n : ℕ) : (letters n).Valid := by
  intro r hr
  rw [List.eq_of_mem_replicate hr]
  rfl

/-- A weighing row with nothing but its serial number, as letters. -/
def lettersRow (n : ℕ) : Row where
  cells := [⟨Str.lit "serialNo", Str.lit "NVARCHAR", .text (letters n)⟩]
  columns_valid := by
    simp only [List.mem_singleton, forall_eq]
    exact Str.valid_lit _
  columns_nodup := List.nodup_singleton _

/-- A source with that row as its only one. -/
def lettersDb (n : ℕ) : SourceDb where
  info := { rows := [lettersRow n], pending := fun _ => true, le := fun _ _ => true, fails := false }
  photo := { rows := [], pending := fun _ => true, le := fun _ _ => true, fails := false }

/-- The record of that row. -/
def lettersRecord (n : ℕ) : SourceRecord where
  entityType := weightInfo
  pk := letters n
  recordKey := weightInfo ++ Str.lit ":" ++ letters n
  serial := letters n
  data := [(Str.lit "serialNo", .text (letters n))]

theorem submitted_lettersDb {cfg : Config} (hkey : cfg.infoPrimaryKey = Str.lit "serialNo")
    (hserial : cfg.infoSerialColumn = Str.lit "serialNo") (hbatch : cfg.batchSize = 1) (n : ℕ)
    (file : Str) : submitted cfg (lettersDb (n + 1)) ⟨file, []⟩ = [lettersRecord (n + 1)] := by
  have hrecord : cfg.infoRecord (lettersRow (n + 1)) = lettersRecord (n + 1) := by
    have hcolumn : stringValue (column (lettersRow (n + 1)).data (Str.lit "serialNo")) =
        letters (n + 1) := trimSpace_letters (n + 1)
    rw [Config.infoRecord, sourceRecord, hkey, hserial, hcolumn]
    rfl
  have hfetch : fetchAll cfg (lettersDb (n + 1)) = .ok [lettersRecord (n + 1)] := by
    refine fetchAll_eq_ok_iff.mpr ⟨rfl, rfl, ?_, ?_⟩
    · rw [hbatch, ← hrecord]
      rfl
    · intro r hr
      rw [List.mem_singleton.mp hr]
      rfl
  rw [submitted, hfetch]
  rfl

theorem size_requestBody_letters (cfg : Config) (x : Exchange) (n : ℕ) :
    (requestBody cfg x [lettersRecord n]).size =
      78 + n + (Go.quote cfg.source).size + (Go.quote cfg.database).size +
        (Go.quote x.uploadedAt).size := by
  have hbody : requestBody cfg x [lettersRecord n] = (Json.obj [(Str.lit "source", .str cfg.source),
      (Str.lit "database", .str cfg.database), (Str.lit "uploaded_at", .str x.uploadedAt),
      (Str.lit "weight_info_records",
        .arr [.obj [(Str.lit "serialNo", .str (letters n))]])]).encode := rfl
  have hchar : (Rune.char ':').size = 1 ∧ (Rune.char ',').size = 1 ∧ (Rune.char '\x7b').size = 1 ∧
      (Rune.char '\x7d').size = 1 ∧ (Rune.char '[').size = 1 ∧ (Rune.char ']').size = 1 :=
    ⟨rfl, rfl, rfl, rfl, rfl, rfl⟩
  have hnames : (Go.quote (Str.lit "source")).size = 8 ∧ (Go.quote (Str.lit "database")).size = 10 ∧
      (Go.quote (Str.lit "uploaded_at")).size = 13 ∧ (Go.quote (Str.lit "serialNo")).size = 10 ∧
      (Go.quote (Str.lit "weight_info_records")).size = 21 := by
    decide
  rw [hbody]
  simp only [Json.encode, Json.encodeFields, Json.encodeElements, Str.size_cons, Str.size_append,
    Str.size_nil, hchar, hnames, size_quote_letters, List.isEmpty_cons, List.isEmpty_nil, if_true,
    Bool.false_eq_true, if_false]
  omega

/-- A record whose serial number alone is as long as what A reads of a reply is committed by C, and
stays unconfirmed in A. -/
theorem not_agrees_letters : ∃ cfg, loadConfig oneRowEnv defaultEndpoint = .ok cfg ∧
    cfg.infoPrimaryKey = Str.lit "serialNo" ∧ cfg.photoPrimaryKey = Str.lit "id" ∧
    (∀ r ∈ submitted cfg (lettersDb maxReply) ⟨[], []⟩, r.pk.Valid) ∧
    ¬ Agrees goodLink cfg (lettersDb maxReply) ⟨[], []⟩ := by
  have hsubmitted : submitted oneRowConfig (lettersDb maxReply) ⟨[], []⟩ = [lettersRecord maxReply] :=
    submitted_lettersDb rfl rfl rfl (maxReply - 1) []
  have hdoc : ∀ r ∈ [lettersRecord maxReply], r.Documented := by
    rw [← hsubmitted]
    intro r hr
    refine documented_of_mem_submitted rfl rfl hr ?_
    rw [hsubmitted] at hr
    rw [List.mem_singleton.mp hr]
    exact valid_letters maxReply
  have hcommits : goodLink.Commits oneRowConfig [lettersRecord maxReply] := by
    have hnames : (Go.quote oneRowConfig.source).size = 17 ∧ (Go.quote oneRowConfig.database).size = 7 ∧
        (Go.quote goodLink.exchange.uploadedAt).size = 22 := by decide
    refine Link.commits_of_small ?_ rfl (fun _ => rfl) (List.cons_ne_nil _ _)
    rw [size_requestBody_letters, hnames.1, hnames.2.1, hnames.2.2]
    show ((78 + maxReply + 17 + 7 + 22 : ℕ) : ℤ) ≤ 16777216
    decide
  have hlarge : ¬ goodLink.Confirms oneRowConfig [lettersRecord maxReply] := by
    intro hconfirms
    have hfits := hconfirms.2.2
    rw [confirmationSize_documented hdoc] at hfits
    have hkeys : maxReply < Receiver.listSize
        ((inOrder [lettersRecord maxReply]).map SourceRecord.recordKey) := by
      have hone : (inOrder [lettersRecord maxReply]).map SourceRecord.recordKey =
          [(weightInfo ++ Str.lit ":") ++ letters maxReply] := rfl
      have hsplit := size_quote_append (weightInfo ++ Str.lit ":") (letters maxReply)
      have hname : (Go.quote (weightInfo ++ Str.lit ":")).size = 14 := by decide
      rw [size_quote_letters, hname] at hsplit
      rw [hone, Receiver.listSize, List.map_singleton, List.sum_singleton]
      omega
    rw [Receiver.replySize] at hfits
    omega
  -- so nothing is confirmed of what C has committed
  have hunchanged : (syncOnce oneRowConfig (lettersDb maxReply) ⟨[], []⟩ goodLink.exchange).store =
      ⟨[], []⟩ := by
    have hconfirmed := confirmed_syncOnce goodLink oneRowConfig (lettersDb maxReply) ⟨[], []⟩
    rw [hsubmitted, if_neg hlarge] at hconfirmed
    rcases syncOnce_submitted oneRowConfig (lettersDb maxReply) ⟨[], []⟩ goodLink.exchange with
      ⟨-, -, hsame⟩ | ⟨-, happend, -⟩
    · exact hsame
    · rw [happend, hconfirmed]
      rfl
  refine ⟨oneRowConfig, loadConfig_oneRowEnv, rfl, rfl, ?_, fun hagrees => ?_⟩
  · rw [hsubmitted]
    intro r hr
    rw [List.mem_singleton.mp hr]
    exact valid_letters maxReply
  · have hcommitted := hagrees.committed
    rw [hsubmitted] at hcommitted
    obtain ⟨-, -, -, -, hin⟩ := hcommitted hcommits
    have hmem := hin _ List.mem_cons_self
    rw [hunchanged] at hmem
    cases hmem

end WeighingSync.Uploader
