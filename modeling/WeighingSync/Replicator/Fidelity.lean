import WeighingSync.Go.JsonValue
import WeighingSync.Replicator.Fetch
import WeighingSync.Replicator.Outbox

/-!
# What arrives of a record

From the raw record of C to those of B: `handleQuery` decodes it and encodes it again, B stores the text
that it receives, and `upsertBusinessRecord` decodes this for the columns. `json.Unmarshal` makes every
number a float on the way. So what B stores denotes what C stored, and its integers stand in the columns
with their digits, exactly when a float keeps every number of the record (`faithful_iff`).
-/

namespace WeighingSync.Replicator

open Go Receiver

/-- Both texts are JSON and denote the same value. -/
def SameJson (text text' : Str) : Prop :=
  ∃ j j', parse text = some j ∧ parse text' = some j' ∧ j'.denote = j.denote

/-- Every field that is an integer stands in its column with its digits. -/
def KeepsIntegers (fields : List (String × String)) (members : List (Str × Json))
    (columns : List (Str × Option Str)) : Prop :=
  ∀ field ∈ fields, ∀ literal, Json.lookup members (Str.lit field.1) = some (.num literal) →
    ∀ n : ℕ, literalMagnitude literal = n →
      (Str.lit field.2, some (integerText (isNegative literal) n)) ∈ columns

/-- B has rows of a record in both of its tables. Both raw records denote what that of C denotes, an
object with those members, and the columns have its integers. -/
structure Faithful (collate : Str → Str) (e : Entry Str StoredRecord) (raw : Str)
    (members : List (Str × Json)) (db : ReplicatorDb) : Prop where
  replicated : ∃ x ∈ db.replicated.rows, x.key = collate e.key ∧ SameJson raw x.val.rawRecord
  business : ∃ x ∈ (db.business e.val.content.entityType).rows, x.key = collate e.key ∧
    SameJson raw x.val.rawRecord ∧
      KeepsIntegers (businessFields e.val.content.entityType) members x.val.columns

/-- The settings of B's store, with the numbers of `strconv`. -/
def storeEnv (collate : Str → Str) (goText : Json → Str) : StoreEnv := ⟨collate, fixedFloat, goText⟩

/-- What C sends of a value is read back by B. -/
theorem parse_encode_mapNumbers {raw : Str} {j j' : Json} (hj : parse raw = some j)
    (hmap : j.canonical.mapNumbers jsonFloat = some j') : parse j'.encode = some j' := by
  rw [parse_encode (Json.wellFormed_of_mapNumbers (fun _ _ => wellFormed_jsonFloat) hmap),
    Json.repair_mapNumbers (Json.repair_canonical (repair_of_parse hj)) hmap]

/-- What C sends denotes what it has exactly when a float keeps every number. -/
theorem sameJson_iff {raw : Str} {j j' : Json} (hj : parse raw = some j)
    (hmap : j.canonical.mapNumbers jsonFloat = some j') :
    SameJson raw j'.encode ↔ ∀ literal ∈ j.canonical.numbers, KeptByFloat literal := by
  have hread := parse_encode_mapNumbers hj hmap
  have hdenote : SameJson raw j'.encode ↔ j'.denote = j.denote := by
    constructor
    · rintro ⟨i, i', hi, hi', hsame⟩
      rw [Option.some.inj (hj.symm.trans hi), Option.some.inj (hread.symm.trans hi')]
      exact hsame
    · exact fun hsame => ⟨j, j', hj, hread, hsame⟩
  rw [hdenote, Json.denote_mapNumbers_iff hmap]
  constructor
  · intro h literal hmem
    obtain ⟨t, ht⟩ := Json.exists_of_mem_numbers hmap hmem
    exact (literalValue_jsonFloat_iff ht).mp (h literal hmem t ht)
  · intro h literal hmem t ht
    exact (literalValue_jsonFloat_iff ht).mpr (h literal hmem)

section

variable {collate : Str → Str} {goText : Json → Str} {cfg : Config} {now : ℤ}
  {e : Entry Str StoredRecord} {raw : Str} {members : List (Str × Json)} {db db' : ReplicatorDb}

/-- A record that B stores is one whose numbers are all in the range of a float: C sends any other as a
text. -/
theorem received_of_stored (hraw : e.val.content.rawRecord = some raw)
    (hobject : parse raw = some (.obj members))
    (hstore : storeRecord (storeEnv collate goText) cfg now (received jsonFloat e) db = some db') :
    ∃ fields, (Json.obj members).canonical.mapNumbers jsonFloat = some (.obj fields) ∧
      (received jsonFloat e).record = (Json.obj fields).encode := by
  have hrecord : (received jsonFloat e).record = (rawJSON jsonFloat raw).encode := by
    simp only [received, cRecordOf, pageItem, hraw]
    rfl
  rw [rawJSON, hobject, Option.bind_some] at hrecord
  cases hmap : (Json.obj members).canonical.mapNumbers jsonFloat with
  | none =>
      -- a JSON text is no object, so B does not store it
      obtain ⟨values, hstored⟩ := exists_stored _ hstore
      have hread : parse (Json.str raw).encode = some (Json.str raw).repair := parse_encode trivial
      have hdecoded := hstored.decoded
      rw [hmap] at hrecord
      rw [hrecord, hread] at hdecoded
      cases hdecoded
  | some j' =>
      rw [hmap] at hrecord
      rw [Json.canonical_obj] at hmap
      obtain ⟨fields, -, rfl⟩ := Option.map_eq_some_iff.mp hmap
      exact ⟨fields, rfl, hrecord⟩

/-- The type under which B files a record goes with the table that it writes. -/
theorem entity_received (e : Entry Str StoredRecord) :
    (e.val.content.entityType = Str.lit "weight_photo" ↔
      (received jsonFloat e).entity = Str.lit "weight_photo") := by
  have htype : (received jsonFloat e).entityType = e.val.content.entityType := rfl
  rw [CRecord.entity, htype]
  split_ifs with hnil
  · rw [hnil]
    decide
  · exact Iff.rfl

theorem businessFields_entity (e : Entry Str StoredRecord) :
    businessFields (received jsonFloat e).entity = businessFields e.val.content.entityType := by
  simp only [businessFields, ← entity_received]

/-- A float that keeps the integers of a record leaves their digits in the columns. -/
theorem keepsIntegers_columns {fields : List (Str × Json)} (businessNames : List (String × String))
    (hmap : (Json.obj members).canonical.mapNumbers jsonFloat = some (.obj fields))
    (hkept : ∀ literal ∈ (Json.obj members).canonical.numbers, KeptByFloat literal) :
    KeepsIntegers businessNames members
      (businessColumns (storeEnv collate goText) businessNames fields) := by
  rw [Json.canonical_obj] at hmap hkept
  obtain ⟨fields', hfields, hsame⟩ := Option.map_eq_some_iff.mp hmap
  cases hsame
  have hnodup := Json.nodup_of_pairwise_lt (Json.pairwise_canonicalMembers members)
  intro field hfield literal hlookup n hn
  have hcanonical : Json.lookup (Json.canonicalMembers members) (Str.lit field.1) =
      some (.num literal) := by
    rw [Json.lookup_canonicalMembers, hlookup]
    rfl
  -- the literal is one of the numbers of the record, and B reads what C made of it
  have hmem : literal ∈ (Json.obj (Json.canonicalMembers members)).numbers := by
    rw [Json.numbers_obj, List.mem_flatMap]
    exact ⟨_, (Json.lookup_eq_some_iff hnodup).mp hcanonical, List.mem_singleton_self literal⟩
  obtain ⟨j, hj, hread⟩ := Json.lookup_mapNumbers hnodup (Json.mapFields_eq_some_iff.mp hfields) hcanonical
  obtain ⟨t, ht, rfl⟩ := Option.map_eq_some_iff.mp hj
  refine List.mem_map.mpr ⟨field, hfield, ?_⟩
  rw [← fixedFloat_jsonFloat ht (hkept literal hmem) hn]
  show (Str.lit field.2, normalizeJSONValue _ (Json.lookup fields (Str.lit field.1))) = _
  rw [hread]
  rfl

/-- The row of a business table for a record that is stored. -/
theorem exists_upsertBusiness (env : StoreEnv) (names : List (String × String)) (r : CRecord)
    (values : List (Str × Json)) (t : KeyedTable Str BusinessRow) :
    ∃ x ∈ (upsertBusiness env names r values t).rows, x.key = env.collate r.recordKey ∧
      x.val.rawRecord = r.record ∧ x.val.columns = businessColumns env names values := by
  have hkey : env.collate r.recordKey ∈ (upsertBusiness env names r values t).keys :=
    KeyedTable.mem_keys_upsert.mpr (Or.inr rfl)
  obtain ⟨x, hx, hkey⟩ := KeyedTable.mem_keys.mp hkey
  exact ⟨x, hx, hkey, KeyedTable.view_of_mem_upsert BusinessRow.rawRecord rfl (fun _ => rfl) hx hkey,
    KeyedTable.view_of_mem_upsert BusinessRow.columns rfl (fun _ => rfl) hx hkey⟩

/-- Of a record whose raw records denote the same a float keeps every number. -/
theorem kept_of_faithful (hraw : e.val.content.rawRecord = some raw)
    (hobject : parse raw = some (.obj members))
    (hstore : storeRecord (storeEnv collate goText) cfg now (received jsonFloat e) db = some db')
    (h : Faithful collate e raw members db') :
    ∀ literal ∈ (Json.obj members).canonical.numbers, KeptByFloat literal := by
  obtain ⟨fields, hmap, hrecord⟩ := received_of_stored hraw hobject hstore
  obtain ⟨values, hstored⟩ := exists_stored _ hstore
  obtain ⟨x, hx, hkey, hdenotes⟩ := h.replicated
  rw [hstored.replicated] at hx
  have hrow : x.val.rawRecord = (received jsonFloat e).record :=
    KeyedTable.view_of_mem_upsert ReplicatedRow.rawRecord rfl (fun _ => rfl) hx hkey
  rw [hrow, hrecord] at hdenotes
  exact (sameJson_iff hobject hmap).mp hdenotes

/-- A record whose numbers a float keeps arrives as it is. -/
theorem faithful_of_kept (hraw : e.val.content.rawRecord = some raw)
    (hobject : parse raw = some (.obj members))
    (hstore : storeRecord (storeEnv collate goText) cfg now (received jsonFloat e) db = some db')
    (hkept : ∀ literal ∈ (Json.obj members).canonical.numbers, KeptByFloat literal) :
    Faithful collate e raw members db' := by
  obtain ⟨fields, hmap, hrecord⟩ := received_of_stored hraw hobject hstore
  obtain ⟨values, hstored⟩ := exists_stored _ hstore
  have hdenotes := (sameJson_iff hobject hmap).mpr hkept
  rw [← hrecord] at hdenotes
  have hvalues : values = fields := by
    have hdecoded := hstored.decoded
    rw [hrecord, parse_encode_mapNumbers hobject hmap] at hdecoded
    exact (Option.some.inj hdecoded).symm
  constructor
  case replicated =>
    obtain ⟨x, hx, hkey⟩ := exists_upsertReplicated (storeEnv collate goText) (received jsonFloat e)
      db.replicated
    have hrow : x.val.rawRecord = (received jsonFloat e).record :=
      KeyedTable.view_of_mem_upsert ReplicatedRow.rawRecord rfl (fun _ => rfl) hx hkey
    refine ⟨x, ?_, hkey, ?_⟩
    · rw [hstored.replicated]
      exact hx
    · rw [hrow]
      exact hdenotes
  case business =>
    rw [hstored.business, if_pos (entity_received e), businessFields_entity, hvalues]
    obtain ⟨x, hx, hkey, hrow, hcolumns⟩ := exists_upsertBusiness (storeEnv collate goText)
      (businessFields e.val.content.entityType) (received jsonFloat e) fields
      (db.business e.val.content.entityType)
    refine ⟨x, hx, hkey, ?_, ?_⟩
    · rw [hrow]
      exact hdenotes
    · rw [hcolumns]
      exact keepsIntegers_columns _ hmap hkept

/-- What B holds of a record denotes what C holds, with its integers in their columns, exactly when a
float keeps every number of it. -/
theorem faithful_iff (hraw : e.val.content.rawRecord = some raw)
    (hobject : parse raw = some (.obj members))
    (hstore : storeRecord (storeEnv collate goText) cfg now (received jsonFloat e) db = some db') :
    Faithful collate e raw members db' ↔
      ∀ literal ∈ (Json.obj members).canonical.numbers, KeptByFloat literal :=
  ⟨kept_of_faithful hraw hobject hstore, faithful_of_kept hraw hobject hstore⟩

end

/-! ## Large numbers -/

/-- The members of a record with this `fID`. -/
def numbered (fID : String) : List (Str × Json) := [(Str.lit "fID", .num (Str.lit fID))]

/-- The record at C. -/
def numberedRecord (fID : String) : Entry Str StoredRecord where
  id := 1
  key := Str.lit "weight_info:a"
  val := {
    content := { (serialUpload "a" "2026-01-01T00:00:00Z").content with
      rawRecord := some (Json.obj (numbered fID)).encode }
    ingestedAt := Str.lit "2026-01-01T00:00:00Z"
    cloudUpdatedAt := Str.lit "2026-01-01T00:00:00Z" }

theorem parse_numbered {fID : String}
    (h : validNumber (Str.lit fID) = true ∧ ∀ r ∈ Str.lit fID, isNumberRune r = true) :
    parse (Json.obj (numbered fID)).encode = some (.obj (numbered fID)) := by
  have hread : parse (Json.obj (numbered fID)).encode = some (Json.obj (numbered fID)).repair :=
    parse_encode ⟨h, trivial⟩
  rw [hread]
  rfl

/-- A small one arrives. -/
theorem faithful_iff_small :
    ∃ db', storeRecord (storeEnv id Json.encode) oneRecordConfig 0
        (received jsonFloat (numberedRecord "42")) emptyDb = some db' ∧
      (Faithful id (numberedRecord "42") (Json.obj (numbered "42")).encode (numbered "42") db' ↔
        ∀ literal ∈ (Json.obj (numbered "42")).canonical.numbers, KeptByFloat literal) := by
  have hsome : (storeRecord (storeEnv id Json.encode) oneRecordConfig 0
      (received jsonFloat (numberedRecord "42")) emptyDb).isSome = true := by
    decide +kernel
  obtain ⟨db', hstore⟩ := Option.isSome_iff_exists.mp hsome
  exact ⟨db', hstore, faithful_iff rfl (parse_numbered (by decide)) hstore⟩

/-- One above 2^53 is stored and does not. -/
theorem not_faithful_large :
    ∃ db', storeRecord (storeEnv id Json.encode) oneRecordConfig 0
        (received jsonFloat (numberedRecord "9007199254740993")) emptyDb = some db' ∧
      parse (Json.obj (numbered "9007199254740993")).encode =
        some (.obj (numbered "9007199254740993")) ∧
      ¬ Faithful id (numberedRecord "9007199254740993") (Json.obj (numbered "9007199254740993")).encode
        (numbered "9007199254740993") db' := by
  have hsome : (storeRecord (storeEnv id Json.encode) oneRecordConfig 0
      (received jsonFloat (numberedRecord "9007199254740993")) emptyDb).isSome = true := by
    decide +kernel
  have hlost : ¬ ∀ literal ∈ (Json.obj (numbered "9007199254740993")).canonical.numbers,
      KeptByFloat literal := by
    decide +kernel
  have hparse : parse (Json.obj (numbered "9007199254740993")).encode =
      some (.obj (numbered "9007199254740993")) := parse_numbered (by decide)
  obtain ⟨db', hstore⟩ := Option.isSome_iff_exists.mp hsome
  exact ⟨db', hstore, hparse, fun h => hlost (kept_of_faithful rfl hparse hstore h)⟩

end WeighingSync.Replicator
