import WeighingSync.Common.Runs
import WeighingSync.Go.JsonParsed
import WeighingSync.Inbound.Server

/-!
# The register of received payloads

In every run of the service `inbound_payloads` holds, in order, the payloads that were accepted and whose
rows could be inserted (`register_exact`). A row that is put to the service again is accepted with the
serial numbers of the first time (`replay_accepted`): the text of a payload is kept up to what the parser
makes of its numbers.
-/

namespace WeighingSync.Inbound

open Go Engine

/-! ## What is read of a value that was written -/

section

variable {f : Str → Option Str} {j j' : Json}

theorem reread_arr {xs : List Json} : Reread f (.arr xs) j' ↔
    ∃ ys, List.Forall₂ (Reread f) xs ys ∧ Json.arr ys = j' := by
  rw [Reread, Json.canonical, Json.canonicalElements_eq, Json.mapNumbers, Option.map_eq_some_iff]
  simp only [Json.mapElements_eq_some_iff, List.forall₂_map_left_iff]
  rfl

theorem reread_obj {fields : List (Str × Json)} (h : Reread f (.obj fields) j') :
    ∃ fields', List.Forall₂ (fun g g' => g'.1 = g.1 ∧ g.2.mapNumbers f = some g'.2)
      (Json.canonicalMembers fields) fields' ∧ Json.obj fields' = j' := by
  rw [Reread, Json.canonical_obj, Json.mapNumbers, Option.map_eq_some_iff] at h
  obtain ⟨fields', hfields, rfl⟩ := h
  exact ⟨fields', Json.mapFields_eq_some_iff.mp hfields, rfl⟩

/-- A member is read of the member that was written. -/
theorem reread_get (h : Reread f j j') (key : String) :
    Option.Rel (Reread f) (get key j) (get key j') := by
  cases j with
  | obj fields =>
      obtain ⟨fields', hfields, rfl⟩ := reread_obj h
      have hlookup := Json.lookup_canonicalMembers fields (Str.lit key)
      cases hx : Json.lookup fields (Str.lit key) with
      | some x =>
          rw [hx, Option.map_some] at hlookup
          -- of members with one name the last counts, and the map has no other
          obtain ⟨y, hy, hlookup'⟩ := Json.lookup_mapNumbers
            (Json.nodup_of_pairwise_lt (Json.pairwise_canonicalMembers fields)) hfields hlookup
          rw [get, get, hx, hlookup']
          exact .some hy
      | none =>
          rw [hx, Option.map_none] at hlookup
          have hnone : Json.lookup fields' (Str.lit key) = none := by
            by_contra hsome
            obtain ⟨g', hg', hname⟩ := Json.isSome_lookup.mp (Option.isSome_iff_ne_none.mpr hsome)
            obtain ⟨g, hg, hsame, -⟩ := Json.exists_mem_of_forall₂ hfields hg'
            have hmember := Json.isSome_lookup.mpr ⟨g, hg, hsame.symm.trans hname⟩
            rw [hlookup] at hmember
            cases hmember
          rw [get, get, hx, hnone]
          exact .none
  | arr xs =>
      obtain ⟨ys, -, rfl⟩ := reread_arr.mp h
      exact .none
  | num literal =>
      obtain ⟨t, -, rfl⟩ := Option.map_eq_some_iff.mp h
      exact .none
  | null | bool | str =>
      cases h
      exact .none

theorem asStr_reread (h : Reread f j j') : asStr j' = asStr j := by
  cases j with
  | obj fields =>
      obtain ⟨fields', -, rfl⟩ := reread_obj h
      rfl
  | arr xs =>
      obtain ⟨ys, -, rfl⟩ := reread_arr.mp h
      rfl
  | num literal =>
      obtain ⟨t, -, rfl⟩ := Option.map_eq_some_iff.mp h
      rfl
  | null | bool | str =>
      cases h
      rfl

theorem serialNo_reread (h : Reread f j j') : serialNo j' = serialNo j := by
  have hfirst := reread_get h "serialNo"
  have hsecond := reread_get h "serial_no"
  rw [serialNo, serialNo]
  generalize get "serialNo" j = x, get "serialNo" j' = y at hfirst
  generalize get "serial_no" j = x', get "serial_no" j' = y' at hsecond
  -- the second name counts only if the first is missing, not if it holds no text
  cases hfirst with
  | some hx => exact asStr_reread hx
  | none =>
      cases hsecond with
      | some hx => exact asStr_reread hx
      | none => rfl

/-- The records of a payload are read one by one. -/
theorem records_reread (h : Reread f j j') : List.Forall₂ (Reread f) (records j) (records j') := by
  have hrecords := reread_get h "records"
  rw [records, records]
  generalize get "records" j = x at hrecords
  generalize get "records" j' = y at hrecords
  cases hrecords with
  | none => exact .nil
  | @some x y hx =>
      cases x with
      | arr xs =>
          obtain ⟨ys, hys, rfl⟩ := reread_arr.mp hx
          exact hys
      | obj fields =>
          obtain ⟨fields', -, rfl⟩ := reread_obj hx
          exact .nil
      | num literal =>
          obtain ⟨t, -, rfl⟩ := Option.map_eq_some_iff.mp hx
          exact .nil
      | null | bool | str =>
          cases hx
          exact .nil

theorem serialNos_reread (h : Reread f j j') : serialNos j' = serialNos j := by
  have hrecords := records_reread h
  rw [serialNos, serialNos]
  generalize records j = xs, records j' = ys at hrecords
  induction hrecords with
  | nil => rfl
  | cons hx _ ih => rw [List.filterMap_cons, List.filterMap_cons, serialNo_reread hx, ih]

theorem origin_reread (h : Reread f j j') (key : String) : origin key j' = origin key j := by
  have hmember := reread_get h key
  rw [origin, origin]
  generalize get key j = x at hmember
  generalize get key j' = y at hmember
  cases hmember with
  | none => rfl
  | some hx => rw [Option.bind_some, Option.bind_some, asStr_reread hx]

end

/-! ## What a request does -/

section

variable {S : Service} {course : Course} {request : Request} {payload : Json}
  {table table' : InboundPayloads}

/-- The service takes the payload of a request. -/
structure Accepted (S : Service) (request : Request) (payload : Json) : Prop where
  extracted : extract S request = .ok payload
  admitted : S.app.admits request.authorization = true
  nonempty : records payload ≠ []

/-- The row that a request is to leave, if it does: what was accepted, unless its statement fails. -/
def attempted (S : Service) (entry : Course × Request) : Option InboundRow :=
  match extract S entry.2 with
  | .error _ => none
  | .ok payload =>
      if S.app.admits entry.2.authorization = true ∧ records payload ≠ [] ∧ S.app.persist = true ∧
          entry.1.insertFails = false then
        some (inboundRow S.lib entry.1.requestId entry.1.receivedAt payload)
      else none

theorem put_of_accepted (h : Accepted S request payload) : put S course request table =
    (⟨200, some (S.lib.toText (putResponse course payload))⟩, persisted S course payload table) := by
  rw [put, h.extracted]
  simp only [putWeighingData]
  rw [if_neg (by rw [h.admitted]; decide), if_neg h.nonempty]

/-- The statuses of requests that are refused. -/
def refusedStatuses : List ℕ := [400, 401, 413, 415]

variable (course table) in
/-- A request whose payload is not taken is refused, and leaves the table alone. -/
theorem put_of_not_accepted (h : ∀ payload, ¬ Accepted S request payload) :
    (put S course request table).1.status ∈ refusedStatuses ∧ (put S course request table).2 = table := by
  unfold put
  cases hextract : extract S request with
  | error status =>
      refine ⟨?_, rfl⟩
      show status ∈ refusedStatuses
      unfold extract at hextract
      split_ifs at hextract
      · cases hextract
        decide
      · cases hextract
        decide
      · split at hextract
        · cases hextract
        · cases hextract
          decide
  | ok payload =>
      simp only [putWeighingData]
      split_ifs with hadmits hempty
      · exact ⟨(by decide : 401 ∈ refusedStatuses), rfl⟩
      · exact ⟨(by decide : 400 ∈ refusedStatuses), rfl⟩
      · exact absurd ⟨hextract, (Bool.not_eq_false _).mp hadmits, hempty⟩ (h payload)

theorem attempted_of_accepted (h : Accepted S request payload) : attempted S (course, request) =
    if S.app.persist = true ∧ course.insertFails = false then
      some (inboundRow S.lib course.requestId course.receivedAt payload)
    else none := by
  simp only [attempted, h.extracted, h.admitted, h.nonempty, ne_eq, not_false_eq_true, true_and]

theorem accepted_of_attempted {row : InboundRow} (h : attempted S (course, request) = some row) :
    ∃ payload, Accepted S request payload ∧
      row = inboundRow S.lib course.requestId course.receivedAt payload := by
  unfold attempted at h
  split at h
  · cases h
  · next payload hextract =>
    split_ifs at h with hall
    cases h
    exact ⟨payload, ⟨hextract, hall.1, hall.2.1⟩, rfl⟩

/-- The row that a request is to leave goes to the end of the table, unless there is one with its id. -/
theorem rows_put : (put S course request table).2.rows = table.rows ++
    (attempted S (course, request)).toList.filter fun row =>
      row.requestId ∉ table.rows.map InboundRow.requestId := by
  by_cases haccepted : ∃ payload, Accepted S request payload
  · obtain ⟨payload, haccepted⟩ := haccepted
    rw [put_of_accepted haccepted, attempted_of_accepted haccepted]
    simp only [persisted]
    split_ifs with hpersist
    · exact rows_insert table _
    · exact (List.append_nil _).symm
  · push Not at haccepted
    have hnone : attempted S (course, request) = none := by
      by_contra hsome
      obtain ⟨row, hrow⟩ := Option.ne_none_iff_exists'.mp hsome
      obtain ⟨payload, h, -⟩ := accepted_of_attempted hrow
      exact haccepted payload h
    rw [(put_of_not_accepted _ _ haccepted).2, hnone]
    exact (List.append_nil _).symm

end

/-! ## Runs -/

/-- The service, whose steps are the requests to its route. -/
def service (S : Service) : System InboundPayloads (Course × Request) where
  init table := table.rows = []
  step table a := some (put S a.1 a.2 table).2

/-- A request with its reply. -/
structure Exchange where
  course : Course
  request : Request
  reply : HttpReply

/-- What is answered to a request. -/
def answered (S : Service) (table : InboundPayloads) (a : Course × Request) (_ : InboundPayloads) :
    List Exchange :=
  [⟨a.1, a.2, (put S a.1 a.2 table).1⟩]

/-- Of the rows with one id, the first. -/
def firstOfEach (rows : List InboundRow) : List InboundRow :=
  (rows.reverse.pwFilter fun a b => a.requestId ≠ b.requestId).reverse

theorem firstOfEach_concat (rows : List InboundRow) (row : Option InboundRow) :
    firstOfEach (rows ++ row.toList) = firstOfEach rows ++
      row.toList.filter fun row => row.requestId ∉ (firstOfEach rows).map InboundRow.requestId := by
  cases row with
  | none => simp
  | some row =>
      have hmem : row.requestId ∉ (firstOfEach rows).map InboundRow.requestId ↔
          ∀ b ∈ rows.reverse.pwFilter (fun a b => a.requestId ≠ b.requestId), row.requestId ≠ b.requestId := by
        rw [firstOfEach, List.mem_map]
        simp only [List.mem_reverse, not_exists, not_and]
        exact forall₂_congr fun b _ => ne_comm
      rw [Option.toList_some]
      -- reversed, the new row comes first, and stays if it differs from all that stay
      by_cases hnew : row.requestId ∉ (firstOfEach rows).map InboundRow.requestId
      · rw [List.filter_cons_of_pos (by simpa using hnew), List.filter_nil, firstOfEach,
          List.reverse_append, List.reverse_singleton, List.singleton_append,
          List.pwFilter_cons_of_pos (hmem.mp hnew), List.reverse_cons]
        rfl
      · rw [List.filter_cons_of_neg (by simpa using hnew), List.filter_nil, List.append_nil, firstOfEach,
          List.reverse_append, List.reverse_singleton, List.singleton_append,
          List.pwFilter_cons_of_neg fun h => hnew (hmem.mpr h)]
        rfl

/-- An exchange as it should be: a payload that is taken is answered with its serial numbers, and a request
without one is refused. -/
structure Exchange.Correct (S : Service) (e : Exchange) : Prop where
  accepted : ∀ payload, Accepted S e.request payload →
    e.reply = ⟨200, some (S.lib.toText (putResponse e.course payload))⟩
  refused : (∀ payload, ¬ Accepted S e.request payload) → e.reply.status ∈ refusedStatuses

theorem correct_put (S : Service) (course : Course) (request : Request) (table : InboundPayloads) :
    Exchange.Correct S ⟨course, request, (put S course request table).1⟩ where
  accepted payload haccepted := by
    show (put S course request table).1 = _
    rw [put_of_accepted haccepted]
  refused hnone := (put_of_not_accepted _ _ hnone).1

section

variable {S : Service} {p : InboundPayloads × List Exchange}

theorem correct_of_reachable (h : ((service S).logged (answered S)).Reachable p) :
    ∀ e ∈ p.2, e.Correct S := by
  refine System.logged_invariant (I := fun _ log => ∀ e ∈ log, e.Correct S)
    (fun _ _ e he => absurd he List.not_mem_nil) (fun table log a table' hI hstep e he => ?_) h
  rcases List.mem_append.mp he with he | he
  · exact hI e he
  · obtain rfl := List.mem_singleton.mp he
    exact correct_put S a.1 a.2 table

theorem rows_of_reachable (h : ((service S).logged (answered S)).Reachable p) :
    p.1.rows = firstOfEach (p.2.filterMap fun e => attempted S (e.course, e.request)) := by
  refine System.logged_invariant
    (I := fun table log => table.rows = firstOfEach (log.filterMap fun e => attempted S (e.course, e.request)))
    (fun table hinit => hinit) (fun table log a table' hrows hstep => ?_) h
  obtain ⟨course, request⟩ := a
  have htable : (put S course request table).2 = table' := Option.some_inj.mp hstep
  have hlog : (answered S table (course, request) table').filterMap (fun e =>
      attempted S (e.course, e.request)) = (attempted S (course, request)).toList := by
    rw [answered, List.filterMap_cons, List.filterMap_nil]
    cases attempted S (course, request) <;> rfl
  rw [List.filterMap_append, hlog, ← htable, rows_put, firstOfEach_concat, hrows]

end

/-- In every run every request is answered as it should be, and the table holds, in order, the rows that
the requests tried to insert: of those with one id, the first. -/
theorem register_exact (S : Service) {p : InboundPayloads × List Exchange}
    (h : ((service S).logged (answered S)).Reachable p) : (∀ e ∈ p.2, e.Correct S) ∧
      p.1.rows = firstOfEach (p.2.filterMap fun e => attempted S (e.course, e.request)) :=
  ⟨correct_of_reachable h, rows_of_reachable h⟩

/-! ## Replays -/

/-- A row of the table is that of a request whose payload was taken. -/
theorem exists_exchange {S : Service} {p : InboundPayloads × List Exchange}
    (h : ((service S).logged (answered S)).Reachable p) {row : InboundRow} (hrow : row ∈ p.1.rows) :
    ∃ e ∈ p.2, ∃ payload, Accepted S e.request payload ∧
      row = inboundRow S.lib e.course.requestId e.course.receivedAt payload := by
  rw [rows_of_reachable h, firstOfEach, List.mem_reverse] at hrow
  obtain ⟨e, he, hattempted⟩ := List.mem_filterMap.mp
    (List.mem_reverse.mp ((List.pwFilter_sublist _).subset hrow))
  obtain ⟨payload, haccepted, hrow⟩ := accepted_of_attempted hattempted
  exact ⟨e, he, payload, haccepted, hrow⟩

/-- What is written of a payload that was taken is read as this payload, but for its numbers. -/
theorem reread_payload {S : Service} (hlib : S.lib.Documented) {request : Request} {payload : Json}
    (h : Accepted S request payload) : ∃ payload', S.lib.fromBytes (S.lib.toText payload) = some payload' ∧
      Reread S.lib.number payload payload' := by
  have hextracted := h.extracted
  unfold extract at hextracted
  split_ifs at hextracted
  split at hextracted
  · next j hread =>
    cases hextracted
    exact (hlib.value _ _ hread).read
  · cases hextracted

/-- The payload of a row, put to the service again in a request that is admitted, is taken again: it is
answered as the payload was that the row was written of, and is to leave a row with the same origin and
number of records. -/
theorem replay_accepted {S : Service} (hlib : S.lib.Documented) {p : InboundPayloads × List Exchange}
    (h : ((service S).logged (answered S)).Reachable p) {row : InboundRow} (hrow : row ∈ p.1.rows)
    {course : Course} {request : Request} (hbody : request.body = row.payloadJson)
    (htype : request.jsonContentType = true) (hsize : request.body.size ≤ S.maxBodyBytes)
    (hadmitted : S.app.admits request.authorization = true) (table : InboundPayloads) :
    ∃ e ∈ p.2, ∃ payload, Accepted S e.request payload ∧
      row = inboundRow S.lib e.course.requestId e.course.receivedAt payload ∧
      e.reply = ⟨200, some (S.lib.toText (putResponse e.course payload))⟩ ∧
      (put S course request table).1 = ⟨200, some (S.lib.toText (putResponse course payload))⟩ ∧
      ∀ row' ∈ attempted S (course, request), row'.source = row.source ∧ row'.sourceDb = row.sourceDb ∧
        row'.sourceTable = row.sourceTable ∧ row'.recordsCount = row.recordsCount := by
  obtain ⟨e, he, payload, haccepted, rfl⟩ := exists_exchange h hrow
  obtain ⟨payload', hread, hreread⟩ := reread_payload hlib haccepted
  have hlength := (records_reread hreread).length_eq
  have hextract : extract S request = .ok payload' := by
    have hbody : request.body = S.lib.toText payload := hbody
    rw [extract, if_neg (by rw [htype]; decide), if_neg (Nat.not_lt.mpr hsize), hbody, hread]
  have haccepted' : Accepted S request payload' := by
    refine ⟨hextract, hadmitted, fun hempty => haccepted.nonempty ?_⟩
    rw [hempty] at hlength
    exact List.eq_nil_of_length_eq_zero hlength
  have hresponse : putResponse course payload' = putResponse course payload := by
    rw [putResponse, putResponse, serialNos_reread hreread, hlength]
  refine ⟨e, he, payload, haccepted, rfl, (correct_of_reachable h e he).accepted payload haccepted, ?_, ?_⟩
  · rw [put_of_accepted haccepted', hresponse]
  · intro row' hrow'
    obtain ⟨payload'', haccepted'', rfl⟩ := accepted_of_attempted hrow'
    obtain rfl : payload' = payload'' :=
      Except.ok.inj (haccepted'.extracted.symm.trans haccepted''.extracted)
    exact ⟨origin_reread hreread _, origin_reread hreread _, origin_reread hreread _, hlength.symm⟩

/-! ## A library that prints its numbers again -/

section

variable {f : Str → Option Str} {j j' : Json}

/-- A value is read again if its numbers are. -/
theorem exists_mapNumbers (h : ∀ t ∈ j.numbers, ∃ t', f t = some t') : ∃ j', j.mapNumbers f = some j' := by
  induction j using Json.induct with
  | null => exact ⟨.null, rfl⟩
  | bool b => exact ⟨.bool b, rfl⟩
  | str s => exact ⟨.str s, rfl⟩
  | num literal =>
      obtain ⟨t, ht⟩ := h literal (List.mem_singleton.mpr rfl)
      exact ⟨.num t, by rw [Json.mapNumbers, ht, Option.map_some]⟩
  | arr xs ih =>
      rw [Json.numbers_arr] at h
      have hxs : ∀ x ∈ xs, ∃ y, x.mapNumbers f = some y := fun x hx =>
        ih x hx fun t ht => h t (List.mem_flatMap.mpr ⟨x, hx, ht⟩)
      choose! g hg using hxs
      have hmapped : Json.mapElements f xs = some (xs.map g) :=
        Json.mapElements_eq_some_iff.mpr (List.forall₂_map_right_iff.mpr (List.forall₂_same.mpr hg))
      exact ⟨.arr (xs.map g), by rw [Json.mapNumbers, hmapped, Option.map_some]⟩
  | obj fields ih =>
      rw [Json.numbers_obj] at h
      have hfields : ∀ g ∈ fields, ∃ y, g.2.mapNumbers f = some y := fun g hg =>
        ih g hg fun t ht => h t (List.mem_flatMap.mpr ⟨g, hg, ht⟩)
      have : Nonempty Json := ⟨.null⟩
      choose! y hy using hfields
      have hmapped : Json.mapFields f fields = some (fields.map fun g => (g.1, y g)) :=
        Json.mapFields_eq_some_iff.mpr (List.forall₂_map_right_iff.mpr
          (List.forall₂_same.mpr fun g hg => ⟨rfl, hy g hg⟩))
      exact ⟨.obj (fields.map fun g => (g.1, y g)), by rw [Json.mapNumbers, hmapped, Option.map_some]⟩

/-- The numbers of a well-formed value are JSON numbers. -/
theorem wellFormed_of_mem_numbers (h : j.WellFormed) {t : Str} (ht : t ∈ j.numbers) :
    (Json.num t).WellFormed := by
  induction j using Json.induct with
  | null | bool | str => cases ht
  | num literal =>
      obtain rfl := List.mem_singleton.mp ht
      exact h
  | arr xs ih =>
      rw [Json.numbers_arr] at ht
      obtain ⟨x, hx, ht⟩ := List.mem_flatMap.mp ht
      exact ih x hx (Json.wellFormed_arr.mp h x hx) ht
  | obj fields ih =>
      rw [Json.numbers_obj] at ht
      obtain ⟨g, hg, ht⟩ := List.mem_flatMap.mp ht
      exact ih g hg (Json.wellFormed_obj.mp h g hg) ht

end

/-- A fraction without the zeros at its end, but with one digit. -/
def trimFraction (t : Str) : Str :=
  if .char '.' ∈ t ∧ .char 'e' ∉ t ∧ .char 'E' ∉ t then
    let digits := t.rdropWhile fun r => r = .char '0'
    if digits.getLast? = some (.char '.') then digits ++ [.char '0'] else digits
  else t

/-- A number as it is printed again. -/
def plainNumber (t : Str) : Option Str :=
  if validNumber t = true ∧ ∀ r ∈ t, isNumberRune r = true then
    some <|
      if validNumber (trimFraction t) = true ∧ ∀ r ∈ trimFraction t, isNumberRune r = true then trimFraction t
      else t
  else none

example : plainNumber (Str.lit "1.50") = some (Str.lit "1.5") ∧
    plainNumber (Str.lit "2.00") = some (Str.lit "2.0") ∧ plainNumber (Str.lit "300") = some (Str.lit "300") := by
  decide +kernel

theorem isSome_plainNumber {t : Str} (h : (Json.num t).WellFormed) : (plainNumber t).isSome = true := by
  have hvalid : validNumber t = true ∧ ∀ r ∈ t, isNumberRune r = true := h
  rw [plainNumber, if_pos hvalid]
  rfl

theorem wellFormed_plainNumber {literal t : Str} (h : plainNumber literal = some t) :
    (Json.num t).WellFormed := by
  unfold plainNumber at h
  split_ifs at h with hvalid htrimmed
  · cases h
    exact htrimmed
  · cases h
    exact hvalid

/-- Libraries that write and read JSON as Go does, but print the numbers that they have read. -/
def plainSerde : SerdeLib where
  toText := Json.encode
  fromBytes text := (parse text).bind fun j => j.canonical.mapNumbers plainNumber
  number := plainNumber

theorem isValue_plainSerde {j : Json} (hwellFormed : j.WellFormed) (hvalid : j.repair = j) :
    plainSerde.IsValue j := by
  have hread : ∃ j', j.canonical.mapNumbers plainNumber = some j' :=
    exists_mapNumbers fun t ht => Option.isSome_iff_exists.mp
      (isSome_plainNumber (wellFormed_of_mem_numbers (Json.wellFormed_canonical hwellFormed) ht))
  obtain ⟨j', hj'⟩ := hread
  refine ⟨hwellFormed, hvalid, fun t ht => isSome_plainNumber (wellFormed_of_mem_numbers hwellFormed ht),
    j', ?_, hj'⟩
  show (parse j.encode).bind _ = _
  rw [parse_encode hwellFormed, hvalid]
  exact hj'

theorem documented_plainSerde : plainSerde.Documented where
  text j hj := valid_encode j hj.wellFormed
  value text j' h := by
    obtain ⟨j, hj, hmapped⟩ := Option.bind_eq_some_iff.mp h
    exact isValue_plainSerde (Json.wellFormed_of_mapNumbers (fun _ _ => wellFormed_plainNumber) hmapped)
      (Json.repair_mapNumbers (Json.repair_canonical (repair_of_parse hj)) hmapped)

/-- A service that expects a token and keeps what it receives. -/
def plainService : Service where
  lib := plainSerde
  app := ⟨some (Str.lit "secret"), true⟩
  maxBodyBytes := 16 * 1024 * 1024
  rejectionText := natText

def firstCourse : Course := ⟨Str.lit "1", Str.lit "12:00", Str.lit "12:01", false⟩
def secondCourse : Course := ⟨Str.lit "2", Str.lit "12:02", Str.lit "12:03", false⟩

/-- A request with the token. -/
def putRequest (body : Str) : Request := ⟨some (bytesOf "Bearer secret"), true, body⟩

def oneRecordText : Str :=
  Str.lit "\x7b\"table\":\"weights\",\"records\":[\x7b\"serialNo\":\"A\",\"net\":1.50\x7d]\x7d"

/-- Two requests with one id: both are answered, and the first one's row is kept. -/
theorem register_exact_twice : ∃ p : InboundPayloads × List Exchange,
    ((∀ e ∈ p.2, e.Correct plainService) ∧ p.1.rows = firstOfEach
      (p.2.filterMap fun e => attempted plainService (e.course, e.request))) ∧
    (p.1.rows.map InboundRow.receivedAt, p.2.map fun e => e.reply.status) =
      ([Str.lit "12:00"], [200, 200]) := by
  obtain ⟨p, hreached, hend⟩ := System.exists_of_exec (S := (service plainService).logged
      (answered plainService)) (K := fun _ _ => True) (s := (InboundPayloads.empty, []))
    (l := [(firstCourse, putRequest oneRecordText), ({ secondCourse with requestId := Str.lit "1" },
      putRequest oneRecordText)])
    (P := fun p => decide ((p.1.rows.map InboundRow.receivedAt, p.2.map fun e => e.reply.status) =
      ([Str.lit "12:00"], [200, 200])))
    ⟨rfl, rfl⟩ (by decide +kernel)
  exact ⟨p, register_exact plainService hreached, of_decide_eq_true hend⟩

/-- What the service makes of a payload, and of its row. -/
theorem replay_accepted_one : ∃ p : InboundPayloads × List Exchange, ∃ row ∈ p.1.rows, ∃ e ∈ p.2,
    ∃ payload, Accepted plainService e.request payload ∧
      row = inboundRow plainSerde e.course.requestId e.course.receivedAt payload ∧
      e.reply = ⟨200, some (plainSerde.toText (putResponse e.course payload))⟩ ∧
      (put plainService secondCourse (putRequest row.payloadJson) .empty).1 =
        ⟨200, some (plainSerde.toText (putResponse secondCourse payload))⟩ ∧
      ∀ row' ∈ attempted plainService (secondCourse, putRequest row.payloadJson),
        row'.source = row.source ∧ row'.sourceDb = row.sourceDb ∧ row'.sourceTable = row.sourceTable ∧
          row'.recordsCount = row.recordsCount := by
  obtain ⟨p, hreached, hlength⟩ := System.exists_of_exec (S := (service plainService).logged
      (answered plainService)) (K := fun _ _ => True) (s := (InboundPayloads.empty, []))
    (l := [(firstCourse, putRequest oneRecordText)])
    (P := fun p => p.1.rows.any fun row => decide (row.payloadJson.size ≤ plainService.maxBodyBytes))
    ⟨rfl, rfl⟩ (by decide +kernel)
  obtain ⟨row, hrow, hsize⟩ := List.any_eq_true.mp hlength
  have hadmitted : plainService.app.admits (some (bytesOf "Bearer secret")) = true := by decide +kernel
  exact ⟨p, row, hrow, replay_accepted (S := plainService) documented_plainSerde hreached hrow rfl rfl
    (of_decide_eq_true hsize) hadmitted .empty⟩

end WeighingSync.Inbound
