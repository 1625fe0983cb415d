import WeighingSync.Receiver.Accounting

/-!
# Refused records

Which records `upsertRecords` puts into its failed list. A record is to be refused only if none of the
fields that its key may be taken from identifies it; but a blank text in the first of two aliases hides
the second one (`refusesOnlyUnidentified_iff`).
-/

namespace WeighingSync.Receiver

open Go

/-! ## What identifies a record -/

/-- The fields that `extractRecordKey` may take a key from. -/
def keyFields (entityType : Str) : List String := (keyCandidates entityType).flatMap Prod.snd

example : keyFields weightInfo = ["serialNo", "serial_no", "id", "ticket_no", "ticketNo"] ∧
    keyFields weightPhoto = ["id", "serialNo", "serial_no"] := by decide

/-- A boolean, a number or a text that is not blank. -/
def isIdentifier : Json → Bool
  | .bool _ => true
  | .num _ => true
  | .str s => s.trimSpace ≠ []
  | _ => false

/-- A blank text. -/
def isBlankText : Json → Bool
  | .str s => s.trimSpace = []
  | _ => false

/-- The field holds an identifier. -/
def filled (record : Record) (field : String) : Bool :=
  (Json.lookup record (Str.lit field)).any isIdentifier

/-- The field holds a blank text. -/
def blank (record : Record) (field : String) : Bool :=
  (Json.lookup record (Str.lit field)).any isBlankText

/-- A field of the record identifies it. -/
def identified (entityType : Str) (record : Record) : Bool :=
  (keyFields entityType).any (filled record)

/-- The alias that is read before a field. -/
def aliasBefore (field : String) : Option String :=
  if field = "serial_no" then some "serialNo"
  else if field = "ticketNo" then some "ticket_no" else none

/-- A blank text stands in the alias before the field. -/
def hidden (record : Record) (field : String) : Bool := (aliasBefore field).any (blank record)

/-- The failed list has an entry for every record that nothing identifies, and for no other. -/
def RefusesOnlyUnidentified (cfg : Config) (env : PostEnv) (origin : UploadOrigin) (batch : EntityBatch)
    (records : List (Record × Str)) : Prop :=
  (upsertRecords cfg env origin batch records).2.2 =
    (records.filter fun r => !identified batch.entityType r.1).map fun _ => []

/-! ## What is read of a record -/

section

variable {record : Record}

/-- A field that holds an identifier gives a text, and one that holds a blank text none, without the
fields after it. -/
theorem extractString_cons_ne_nil (hrecord : (Json.obj record).WellFormed) (field : String)
    (fields : List String) : extractString record (field :: fields) ≠ [] ↔
      filled record field = true ∨ (blank record field = false ∧ extractString record fields ≠ []) := by
  rw [extractString, filled, blank]
  cases hvalue : Json.lookup record (Str.lit field) with
  | none => simp
  | some value =>
      have hwell : value.WellFormed := by
        rw [Json.lookup, List.findRev?_eq_find?_reverse, Option.map_eq_some_iff] at hvalue
        obtain ⟨f, hf, rfl⟩ := hvalue
        exact Json.wellFormed_obj.mp hrecord f (List.mem_reverse.mp (List.mem_of_find?_eq_some hf))
      cases value with
      | str s => by_cases hs : s.trimSpace = [] <;> simp [scalarText, isIdentifier, isBlankText, hs]
      | num literal =>
          have hliteral : literal ≠ [] := by
            rintro rfl
            cases hwell.1
          simp [scalarText, isIdentifier, isBlankText, hliteral]
      | bool b => cases b <;> simp [scalarText, isIdentifier, isBlankText, formatBool, Str.lit]
      | null | arr | obj => simp [scalarText, isIdentifier, isBlankText]

/-- A record has a key exactly when it has an identifier that is not hidden. -/
theorem keyed_iff_filled (hrecord : (Json.obj record).WellFormed) (entityType : Str) :
    keyed entityType record = true ↔
      ∃ field ∈ keyFields entityType, filled record field = true ∧ hidden record field = false := by
  have hnil : extractString record [] = [] := rfl
  rw [keyed_iff, keyFields, keyCandidates]
  split_ifs with hphoto
  · simp [extractString_cons_ne_nil hrecord, hnil, hidden, aliasBefore]
    grind
  · simp [extractString_cons_ne_nil hrecord, hnil, hidden, aliasBefore]
    grind

/-- So a record with a key has an identifier. -/
theorem identified_of_keyed (hrecord : (Json.obj record).WellFormed) {entityType : Str}
    (h : keyed entityType record = true) : identified entityType record = true := by
  obtain ⟨field, hfield, hfilled, -⟩ := (keyed_iff_filled hrecord entityType).mp h
  exact List.any_eq_true.mpr ⟨field, hfield, hfilled⟩

end

/-! ## Who is refused -/

/-- Only records that nothing identifies are refused exactly when every record that has an identifier
has one without a blank text in the alias before it. -/
theorem refusesOnlyUnidentified_iff (cfg : Config) (env : PostEnv) (origin : UploadOrigin)
    (batch : EntityBatch) {records : List (Record × Str)}
    (hrecords : ∀ r ∈ records, (Json.obj r.1).WellFormed) :
    RefusesOnlyUnidentified cfg env origin batch records ↔
      ∀ r ∈ records, (∃ field ∈ keyFields batch.entityType, filled r.1 field = true) →
        ∃ field ∈ keyFields batch.entityType, filled r.1 field = true ∧ hidden r.1 field = false := by
  have hkeyed : ∀ r ∈ records, keyed batch.entityType r.1 = true ↔
      ∃ field ∈ keyFields batch.entityType, filled r.1 field = true ∧ hidden r.1 field = false :=
    fun r hr => keyed_iff_filled (hrecords r hr) batch.entityType
  have hidentified : ∀ r : Record × Str, identified batch.entityType r.1 = true ↔
      ∃ field ∈ keyFields batch.entityType, filled r.1 field = true := fun _ => List.any_eq_true
  constructor
  · intro h r hr hfilled
    rw [← hkeyed r hr]
    by_contra hnone
    -- the list of those without a key holds the others, so it is the same list if it is as long
    have hsublist : (records.filter fun r => !identified batch.entityType r.1).Sublist
        (records.filter fun r => !keyed batch.entityType r.1) := by
      have hfilter : (records.filter fun r => !identified batch.entityType r.1) =
          (records.filter fun r => !keyed batch.entityType r.1).filter
            fun r => !identified batch.entityType r.1 := by
        rw [List.filter_filter]
        refine List.filter_congr fun r hr => ?_
        cases hkey : keyed batch.entityType r.1 with
        | false => simp
        | true => simp [identified_of_keyed (hrecords r hr) hkey]
      rw [hfilter]
      exact List.filter_sublist
    have hlength := congrArg List.length h
    rw [upsertRecords, List.length_map, List.length_map] at hlength
    have hmem : r ∈ records.filter fun r => !keyed batch.entityType r.1 :=
      List.mem_filter.mpr ⟨hr, by simpa using hnone⟩
    rw [← hsublist.eq_of_length hlength.symm, List.mem_filter] at hmem
    rw [(hidentified r).mpr hfilled] at hmem
    exact absurd hmem.2 (by decide)
  · intro h
    have hsame : ∀ r ∈ records, (!keyed batch.entityType r.1) = !identified batch.entityType r.1 := by
      intro r hr
      have hkey : (keyed batch.entityType r.1 = true) ↔ (identified batch.entityType r.1 = true) := by
        constructor
        · exact identified_of_keyed (hrecords r hr)
        · intro hfilled
          exact (hkeyed r hr).mpr (h r hr ((hidentified r).mp hfilled))
      rw [Bool.not_inj_iff, Bool.eq_iff_iff, hkey]
    rw [RefusesOnlyUnidentified, upsertRecords, List.filter_congr hsame]

/-- A record with a serial number, and one with a blank text in the alias before it. -/
def aliasRecord : Record := [(Str.lit "serial_no", .str (Str.lit "A1"))]
def blankRecord : Record := (Str.lit "serialNo", .str (Str.lit " ")) :: aliasRecord

/-- A batch of records of weighings. -/
def weighings (records : List Record) : EntityBatch where
  entityType := weightInfo
  sourceTable := Str.lit "tbl_weightInfo"
  records := records

/-- Where the records come from. -/
def plainOrigin : UploadOrigin := ⟨Str.lit "scale", Str.lit "scale", none⟩

theorem refusesOnlyUnidentified_iff_alias :
    RefusesOnlyUnidentified plainConfig plainEnv plainOrigin (weighings [aliasRecord])
        [(aliasRecord, [])] ↔
      ∀ r ∈ [(aliasRecord, ([] : Str))], (∃ field ∈ keyFields weightInfo, filled r.1 field = true) →
        ∃ field ∈ keyFields weightInfo, filled r.1 field = true ∧ hidden r.1 field = false :=
  refusesOnlyUnidentified_iff plainConfig plainEnv plainOrigin (weighings [aliasRecord])
    (by simp [aliasRecord, Json.WellFormed, Json.WellFormedFields])

/-- The second one is refused, although it has a serial number. -/
theorem not_refusesOnlyUnidentified_blank :
    filled blankRecord "serial_no" = true ∧
      (upsertRecords plainConfig plainEnv plainOrigin (weighings [blankRecord])
        [(blankRecord, [])]).2.2 = [[]] ∧
      ¬ RefusesOnlyUnidentified plainConfig plainEnv plainOrigin (weighings [blankRecord])
        [(blankRecord, [])] := by
  have hidentified : identified weightInfo blankRecord = true := by decide
  have hkeyed : keyed weightInfo blankRecord = false := by decide
  have hfailed : (upsertRecords plainConfig plainEnv plainOrigin (weighings [blankRecord])
      [(blankRecord, [])]).2.2 = [[]] := by
    rw [upsertRecords, List.filter_cons_of_pos (by simp [weighings, hkeyed])]
    rfl
  refine ⟨by decide, hfailed, fun h => ?_⟩
  rw [RefusesOnlyUnidentified, hfailed,
    List.filter_cons_of_neg (by simp [weighings, hidentified])] at h
  cases h

end WeighingSync.Receiver
