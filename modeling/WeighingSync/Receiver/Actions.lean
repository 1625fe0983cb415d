import WeighingSync.Receiver.Accounting
import WeighingSync.Receiver.Signature

/-!
# What a signed request does

The routes of `cmd/receiver/main.go` and the parameters that its handlers read. The signed text sorts
the values of a parameter and has the path decoded, but a handler reads the first value and the router
the escaped path. The text determines the action of requests that list no two values of a parameter
that is read, escape no slash, and bring no newline with their timestamp or nonce
(`action_eq_of_signedText_eq`).
-/

namespace WeighingSync.Receiver

open Go

/-! ## Routes -/

/-- The configured routes, as the literal segments of their paths. -/
structure Routes where
  route : List Bytes
  queryRoute : List Bytes

/-- The handlers, with the path values that they read. -/
inductive Route
  | health
  | post
  | query
  | delete
  | deleteByID (id : Bytes)
  | deleteByKey (recordKey : Bytes)
  deriving DecidableEq, Repr

/-- The segments that the router matches: those of an absolute, clean path, unescaped one by one. -/
def pathSegments (escapedPath : Bytes) : Option (List Bytes) :=
  match escapedPath.splitOn (ascii '/') with
  | [] :: segments =>
      if segments.all fun s => s ≠ [] ∧ s ≠ bytesOf "." ∧ s ≠ bytesOf ".." then
        segments.mapM (Url.unescape .path)
      else none
  | _ => none

/-- The `http.ServeMux` of `main`; a pattern for `GET` serves `HEAD` as well. -/
def serveMux (routes : Routes) (method escapedPath : Bytes) : Option Route :=
  (pathSegments escapedPath).bind fun segments =>
    if method = bytesOf "GET" ∨ method = bytesOf "HEAD" then
      if segments = [bytesOf "health"] then some .health
      else if segments = routes.queryRoute then some .query
      else none
    else if method = bytesOf "POST" then
      if segments = routes.route then some .post else none
    else if method = bytesOf "DELETE" then
      if segments = routes.queryRoute then some .delete
      else
        match segments.drop routes.queryRoute.length with
        | [id] => if segments = routes.queryRoute ++ [id] then some (.deleteByID id) else none
        | [byKey, key] =>
            if segments = routes.queryRoute ++ [byKey, key] ∧ byKey = bytesOf "by-key" then
              some (.deleteByKey key)
            else none
        | _ => none
    else none

/-! ## Actions -/

/-- What a handler does once the request is authorised. -/
inductive Action
  | report
  | store (payload : Option UploadPayload)
  | query (filter : Option QueryFilter) (includeRaw : Bool)
  | deleteID (id : ℤ)
  | deleteKey (recordKey : Str)
  | refuse (message : Str)

/-- `handleDelete`, with `q.Get`. -/
def deleteAction (get : String → Str) : Action :=
  if get "id" ≠ [] then
    match parseOptionalInt64 (get "id") with
    | some id => .deleteID id
    | none => .refuse (Str.lit "invalid id")
  else
    let key := firstNonEmpty [get "record_key", get "recordKey", get "key"]
    if key ≠ [] then .deleteKey key else .refuse (Str.lit "id or record_key is required")

/-- `handleDeleteByID`. -/
def deleteByIDAction (pathValue : Str) : Action :=
  match parseOptionalInt64 pathValue with
  | some id => if id ≤ 0 then .refuse (Str.lit "invalid id") else .deleteID id
  | none => .refuse (Str.lit "invalid id")

/-- `handleDeleteByKey`. -/
def deleteByKeyAction (pathValue : Str) : Action :=
  if pathValue.trimSpace = [] then .refuse (Str.lit "record_key is required")
  else .deleteKey pathValue.trimSpace

/-- The action of a request on its route. -/
def action (cfg : Config) (timeText : Str → Option Str) (r : Request) : Route → Action
  | .health => .report
  | .post => .store (decodeBody (Str.ofBytes r.body))
  | .query =>
      .query (queryFilter cfg timeText r.get) (shouldReturnRaw (r.get "include_raw") cfg.returnRawRecords)
  | .delete => deleteAction r.get
  | .deleteByID id => deleteByIDAction (Str.ofBytes id)
  | .deleteByKey key => deleteByKeyAction (Str.ofBytes key)

/-- The body that a handler checks the signature of. -/
def signedBody (r : Request) : Route → Bytes
  | .post => r.body
  | _ => []

/-- The parameters that the handler of a route reads. -/
def readParameters : Route → List String
  | .query =>
      ["id", "limit", "offset", "record_key", "recordKey", "key", "entity_type", "entityType",
        "serialNo", "serial_no", "plateNo", "plate_no", "plate", "from", "to", "include_raw"]
  | .delete => ["id", "record_key", "recordKey", "key"]
  | _ => []

/-- The request says in one way only what it asks for: its timestamp and nonce have no newline in
them, no slash of its path is escaped, and no parameter that is read has two different values. -/
structure SaysOnce (r : Request) (route : Route) : Prop where
  timestamp : ascii '\n' ∉ r.timestamp.bytes
  nonce : ascii '\n' ∉ r.nonce.bytes
  path : ∀ parts ∈ (r.escapedPath.splitOn (ascii '/')).mapM (Url.unescape .path), ∀ part ∈ parts,
    ascii '/' ∉ part
  single : ∀ key ∈ readParameters route, ∀ x ∈ r.query.all (bytesOf key),
    ∀ y ∈ r.query.all (bytesOf key), x = y

/-! ## The parts of the signed text -/

/-- The first separator of two texts that are the same is at the same place. -/
theorem append_cons_left_inj {a : UInt8} {x y z w : Bytes} (hx : a ∉ x) (hy : a ∉ y)
    (h : x ++ a :: z = y ++ a :: w) : x = y ∧ z = w := by
  induction x generalizing y with
  | nil =>
      cases y with
      | nil => exact ⟨rfl, (List.cons.inj h).2⟩
      | cons b y =>
          rw [List.nil_append, List.cons_append, List.cons.injEq] at h
          exact absurd (h.1 ▸ List.mem_cons_self) hy
  | cons b x ih =>
      cases y with
      | nil =>
          rw [List.nil_append, List.cons_append, List.cons.injEq] at h
          exact absurd (h.1 ▸ List.mem_cons_self) hx
      | cons c y =>
          rw [List.cons_append, List.cons_append, List.cons.injEq] at h
          rw [List.mem_cons, not_or] at hx hy
          obtain ⟨hxy, hzw⟩ := ih hx.2 hy.2 h.2
          exact ⟨by rw [h.1, hxy], hzw⟩

/-- And the last one. -/
theorem append_cons_right_inj {a : UInt8} {x y z w : Bytes} (hz : a ∉ z) (hw : a ∉ w)
    (h : x ++ a :: z = y ++ a :: w) : x = y ∧ z = w := by
  have hrev := congrArg List.reverse h
  rw [List.reverse_append, List.reverse_append, List.reverse_cons, List.reverse_cons,
    List.append_assoc, List.append_assoc] at hrev
  obtain ⟨hzw, hxy⟩ := append_cons_left_inj (by simpa using hz) (by simpa using hw) hrev
  exact ⟨List.reverse_injective hxy, List.reverse_injective hzw⟩

theorem newline_not_mem_hexEncode (bytes : Bytes) : ascii '\n' ∉ hexEncode bytes := by
  have hdigit : ∀ n : Fin 16, ascii '\n' ≠ ascii (hexDigit n) := by decide
  intro hmem
  obtain ⟨b, -, hb⟩ := List.mem_flatMap.mp hmem
  have hlt := b.toNat_lt
  simp only [List.mem_cons, List.not_mem_nil, or_false] at hb
  rcases hb with hb | hb
  · exact hdigit ⟨b.toNat / 16, by omega⟩ hb
  · exact hdigit ⟨b.toNat % 16, by omega⟩ hb

/-- A method is a token, so there is no newline in it. -/
theorem newline_not_mem_upperBytes (r : Request) : ascii '\n' ∉ upperBytes r.method := by
  intro hmem
  obtain ⟨b, hb, heq⟩ := List.mem_map.mp hmem
  have htoken := List.all_eq_true.mp r.method_token b hb
  have hnewline : isTokenByte (ascii '\n') = false := by decide
  split_ifs at heq with hlower
  · have hsub : b = ascii '\n' + 32 := by rw [← heq, sub_add_cancel]
    rw [hsub] at hlower
    exact absurd hlower.1 (by decide)
  · rw [heq, hnewline] at htoken
    cases htoken

/-- Requests with one signed text have the same method up to case, path, query and body digest. -/
theorem parts_of_signedText {crypto : Crypto} {r r' : Request} {body body' : Bytes}
    (hr : ascii '\n' ∉ r.timestamp.bytes ∧ ascii '\n' ∉ r.nonce.bytes)
    (hr' : ascii '\n' ∉ r'.timestamp.bytes ∧ ascii '\n' ∉ r'.nonce.bytes)
    (h : r.signedText crypto body = r'.signedText crypto body') :
    upperBytes r.method = upperBytes r'.method ∧ r.path = r'.path ∧
      canonicalQuery r.query = canonicalQuery r'.query ∧
      hexEncode (crypto.sha256 body) = hexEncode (crypto.sha256 body') := by
  have hquery : ∀ v, ascii '\n' ∉ canonicalQuery v := fun v =>
    Url.Values.newline_not_mem_encode _
  simp only [Request.signedText, canonicalText, List.intercalate_cons_cons, List.intercalate_singleton,
    List.append_assoc, List.cons_append, List.nil_append] at h
  obtain ⟨hmethod, h⟩ :=
    append_cons_left_inj (newline_not_mem_upperBytes r) (newline_not_mem_upperBytes r') h
  -- from the end: the digest, the nonce, the timestamp, the query
  have hassoc : ∀ p q t n d : Bytes, p ++ ascii '\n' :: (q ++ ascii '\n' :: (t ++ ascii '\n' ::
      (n ++ ascii '\n' :: d))) = (((p ++ ascii '\n' :: q) ++ ascii '\n' :: t) ++ ascii '\n' :: n) ++
        ascii '\n' :: d := by
    intro p q t n d
    simp only [List.append_assoc, List.cons_append]
  rw [hassoc, hassoc] at h
  obtain ⟨h, hdigest⟩ :=
    append_cons_right_inj (newline_not_mem_hexEncode _) (newline_not_mem_hexEncode _) h
  obtain ⟨h, -⟩ := append_cons_right_inj hr.2 hr'.2 h
  obtain ⟨h, -⟩ := append_cons_right_inj hr.1 hr'.1 h
  obtain ⟨hpath, hcanonical⟩ := append_cons_right_inj (hquery _) (hquery _) h
  exact ⟨hmethod, hpath, hcanonical, hdigest⟩

/-! ## The parameters -/

theorem lookup_signed {entries : List (Bytes × List Bytes)} {key : Bytes} (h : isSigned key = true) :
    ((entries.filter fun e => isSigned e.1).map fun e => (e.1, e.2.insertionSort (· ≤ ·))).lookup key =
      (entries.lookup key).map fun values => values.insertionSort (· ≤ ·) := by
  induction entries with
  | nil => rfl
  | cons e entries ih =>
      by_cases hkey : key = e.1
      · subst hkey
        rw [List.filter_cons, if_pos h, List.map_cons, List.lookup_cons, List.lookup_cons,
          beq_self_eq_true]
        rfl
      · have hbeq : (key == e.1) = false := by simpa using hkey
        rw [List.lookup_cons, hbeq]
        by_cases hsigned : isSigned e.1 = true
        · rw [List.filter_cons, if_pos hsigned, List.map_cons, List.lookup_cons, hbeq]
          exact ih
        · rw [List.filter_cons, if_neg hsigned]
          exact ih

/-- Queries with one canonical form have the same values for every signed parameter, up to their
order. -/
theorem perm_all_of_canonicalQuery_eq {v v' : Url.Values} (h : canonicalQuery v = canonicalQuery v')
    {key : Bytes} (hkey : isSigned key = true) : (v.all key).Perm (v'.all key) := by
  have hnodup : ∀ v : Url.Values, (((v.entries.filter fun e => isSigned e.1).map fun e =>
      (e.1, e.2.insertionSort (· ≤ ·))).map Prod.fst).Nodup := by
    intro v
    rw [List.map_map]
    exact v.nodup.sublist (List.filter_sublist.map _)
  have hperm := Url.Values.perm_values_of_encode_eq (hnodup v) (hnodup v') h key
  have hsorted : ∀ v : Url.Values, (((v.entries.lookup key).map fun values =>
      values.insertionSort (· ≤ ·)).getD []).Perm (v.all key) := by
    intro v
    rw [Url.Values.all]
    cases v.entries.lookup key with
    | none => exact List.Perm.refl _
    | some values => exact List.perm_insertionSort _ values
  rw [lookup_signed hkey, lookup_signed hkey] at hperm
  exact (hsorted v).symm.trans (hperm.trans (hsorted v'))

/-- A parameter of one value is read alike, in whatever order its values come. -/
theorem get_eq_of_perm {v v' : Url.Values} {key : Bytes} (h : (v.all key).Perm (v'.all key))
    (hsingle : ∀ x ∈ v.all key, ∀ y ∈ v.all key, x = y) : v.get key = v'.get key := by
  rw [Url.Values.get, Url.Values.get]
  cases hall : v.all key with
  | nil =>
      rw [hall] at h
      rw [h.nil_eq]
  | cons x xs =>
      cases hall' : v'.all key with
      | nil =>
          rw [hall, hall'] at h
          cases h.eq_nil
      | cons y ys =>
          apply hsingle
          · rw [hall]
            exact List.mem_cons_self
          · rw [h.mem_iff, hall']
            exact List.mem_cons_self

theorem isSigned_readParameters (route : Route) :
    ∀ key ∈ readParameters route, isSigned (bytesOf key) = true := by
  cases route with
  | query => decide +kernel
  | delete => decide +kernel
  | health | post | deleteByID | deleteByKey => exact List.forall_mem_nil _

/-! ## The path -/

/-- An escaped text that has a slash in it is unescaped on both sides of the slash. -/
theorem unescape_slash {s t x : Bytes} (h : Url.unescape .path (s ++ ascii '/' :: t) = some x) :
    ∃ a b, Url.unescape .path s = some a ∧ Url.unescape .path t = some b ∧ x = a ++ ascii '/' :: b := by
  have hhex : Url.unhex (ascii '/') = none := by decide
  induction s using Url.unescape.induct generalizing x with
  | case1 =>
      rw [List.nil_append, Url.unescape_cons (by decide)] at h
      obtain ⟨b, hb, rfl⟩ := Option.map_eq_some_iff.mp h
      exact ⟨[], b, rfl, hb, rfl⟩
  | case2 hi lo rest ih =>
      rw [List.cons_append, List.cons_append, List.cons_append, Url.unescape_percent] at h
      obtain ⟨hv, hhi, h⟩ := Option.bind_eq_some_iff.mp h
      obtain ⟨lv, hlo, h⟩ := Option.bind_eq_some_iff.mp h
      obtain ⟨y, hy, rfl⟩ := Option.map_eq_some_iff.mp h
      obtain ⟨a, b, ha, hb, rfl⟩ := ih hy
      refine ⟨UInt8.ofNat (16 * hv + lv) :: a, b, ?_, hb, rfl⟩
      rw [Url.unescape_percent, hhi, Option.bind_some, hlo, Option.bind_some, ha, Option.map_some]
  | case3 s hshort =>
      -- the slash would have to be a hexadecimal digit
      exfalso
      cases s with
      | nil =>
          cases t with
          | nil => simp [Url.unescape] at h
          | cons c t =>
              rw [List.cons_append, List.nil_append, Url.unescape_percent, hhex] at h
              cases h
      | cons c s =>
          cases s with
          | nil =>
              rw [List.cons_append, List.cons_append, List.nil_append, Url.unescape_percent] at h
              obtain ⟨hv, -, h⟩ := Option.bind_eq_some_iff.mp h
              rw [hhex] at h
              cases h
          | cons d s => exact hshort c d s rfl
  | case4 b s hb ih =>
      rw [List.cons_append, Url.unescape_cons hb] at h
      obtain ⟨y, hy, rfl⟩ := Option.map_eq_some_iff.mp h
      obtain ⟨a, b', ha, hb', rfl⟩ := ih hy
      exact ⟨_ :: a, b', by rw [Url.unescape_cons hb, ha, Option.map_some], hb', rfl⟩

/-- The parts of an escaped path between its slashes, unescaped, make up the path. -/
theorem exists_parts {parts : List Bytes} (hne : parts ≠ []) {x : Bytes}
    (h : Url.unescape .path ([ascii '/'].intercalate parts) = some x) :
    ∃ decoded, parts.mapM (Url.unescape .path) = some decoded ∧ decoded ≠ [] ∧
      x = [ascii '/'].intercalate decoded := by
  induction parts generalizing x with
  | nil => exact absurd rfl hne
  | cons part parts ih =>
      cases parts with
      | nil =>
          rw [List.intercalate_singleton] at h
          exact ⟨[x], by rw [List.mapM_cons, h]; rfl, List.cons_ne_nil x [],
            (List.intercalate_singleton).symm⟩
      | cons part' parts =>
          rw [List.intercalate_cons_cons, List.append_assoc, List.cons_append, List.nil_append] at h
          obtain ⟨a, b, ha, hb, rfl⟩ := unescape_slash h
          obtain ⟨decoded, hdecoded, hdne, rfl⟩ := ih (List.cons_ne_nil _ _) hb
          refine ⟨a :: decoded, ?_, List.cons_ne_nil _ _, ?_⟩
          · rw [List.mapM_cons, ha, hdecoded]
            rfl
          · obtain ⟨d, ds, rfl⟩ := List.exists_cons_of_ne_nil hdne
            rw [List.intercalate_cons_cons, List.append_assoc, List.cons_append, List.nil_append]

/-- Where no slash is escaped, the parts are those of the decoded path. -/
theorem mapM_unescape_splitOn {r : Request} {route : Route} (h : SaysOnce r route) :
    (r.escapedPath.splitOn (ascii '/')).mapM (Url.unescape .path) =
      some (r.path.splitOn (ascii '/')) := by
  have hjoined : [ascii '/'].intercalate (r.escapedPath.splitOn (ascii '/')) = r.escapedPath :=
    List.intercalate_splitOn _
  have hdenotes := r.denotes
  rw [← hjoined] at hdenotes
  obtain ⟨decoded, hdecoded, hne, hpath⟩ := exists_parts (List.splitOn_ne_nil _ _) hdenotes
  rw [hdecoded, hpath, List.splitOn_intercalate _ (h.path decoded hdecoded) hne]

/-- Where no slash is escaped, the router matches the segments of the decoded path. -/
theorem pathSegments_eq {r : Request} {route : Route} (h : SaysOnce r route) {segments : List Bytes}
    (hsegments : pathSegments r.escapedPath = some segments) :
    r.path.splitOn (ascii '/') = [] :: segments := by
  have hparts := mapM_unescape_splitOn h
  rw [pathSegments] at hsegments
  split at hsegments
  · next raw hraw =>
    split_ifs at hsegments
    rw [hraw, List.mapM_cons, hsegments] at hparts
    exact (Option.some_inj.mp hparts).symm
  · cases hsegments

/-! ## The text determines the action -/

/-- A request that is routed has one of the methods of the routes. -/
theorem upperBytes_of_routed {routes : Routes} {method escapedPath : Bytes} {route : Route}
    (h : serveMux routes method escapedPath = some route) : upperBytes method = method := by
  obtain ⟨segments, -, h⟩ := Option.bind_eq_some_iff.mp h
  split_ifs at h with hget _ _ hpost _ hdelete
  all_goals first
    | exact hget.elim (fun h => h ▸ by decide) fun h => h ▸ by decide
    | exact hpost ▸ by decide
    | exact hdelete ▸ by decide

/-- Requests with one signed text that are routed and say once what they ask for are on one route. -/
theorem route_eq_of_parts {routes : Routes} {r r' : Request} {route route' : Route}
    (hroute : serveMux routes r.method r.escapedPath = some route)
    (hroute' : serveMux routes r'.method r'.escapedPath = some route') (hr : SaysOnce r route)
    (hr' : SaysOnce r' route') (hmethod : upperBytes r.method = upperBytes r'.method)
    (hpath : r.path = r'.path) : route = route' := by
  rw [upperBytes_of_routed hroute, upperBytes_of_routed hroute'] at hmethod
  obtain ⟨segments, hsegments, hserved⟩ := Option.bind_eq_some_iff.mp hroute
  obtain ⟨segments', hsegments', hserved'⟩ := Option.bind_eq_some_iff.mp hroute'
  have heq : segments = segments' := by
    have hsplit := pathSegments_eq hr hsegments
    rw [hpath, pathSegments_eq hr' hsegments'] at hsplit
    exact (List.cons.inj hsplit).2.symm
  rw [hmethod, heq, hserved'] at hserved
  exact (Option.some_inj.mp hserved).symm

/-- A handler reads the same of two requests that agree in the parameters it reads. -/
theorem action_congr (cfg : Config) (timeText : Str → Option Str) {r r' : Request} {route : Route}
    (hget : ∀ key ∈ readParameters route, r.get key = r'.get key)
    (hbody : signedBody r route = signedBody r' route) :
    action cfg timeText r route = action cfg timeText r' route := by
  cases route with
  | health => rfl
  | post =>
      have hsame : r.body = r'.body := hbody
      rw [action, action, hsame]
  | query =>
      simp only [readParameters, List.forall_mem_cons, List.not_mem_nil, false_imp_iff, implies_true,
        and_true] at hget
      obtain ⟨h₁, h₂, h₃, h₄, h₅, h₆, h₇, h₈, h₉, h₁₀, h₁₁, h₁₂, h₁₃, h₁₄, h₁₅, h₁₆⟩ := hget
      simp only [action, queryFilter, h₁, h₂, h₃, h₄, h₅, h₆, h₇, h₈, h₉, h₁₀, h₁₁, h₁₂, h₁₃, h₁₄,
        h₁₅, h₁₆]
  | delete =>
      simp only [readParameters, List.forall_mem_cons, List.not_mem_nil, false_imp_iff, implies_true,
        and_true] at hget
      obtain ⟨h₁, h₂, h₃, h₄⟩ := hget
      simp only [action, deleteAction, h₁, h₂, h₃, h₄]
  | deleteByID id => rfl
  | deleteByKey key => rfl

/-- Two requests that reach handlers, have one signed text and say once what they ask for take the
same route and the same action, if SHA-256 does not collide on their bodies. -/
theorem action_eq_of_signedText_eq {crypto : Crypto} {routes : Routes} (cfg : Config)
    (timeText : Str → Option Str) {r r' : Request} {route route' : Route}
    (hroute : serveMux routes r.method r.escapedPath = some route)
    (hroute' : serveMux routes r'.method r'.escapedPath = some route')
    (hcollision : crypto.sha256 (signedBody r route) = crypto.sha256 (signedBody r' route') →
      signedBody r route = signedBody r' route')
    (htext : r.signedText crypto (signedBody r route) = r'.signedText crypto (signedBody r' route'))
    (hr : SaysOnce r route) (hr' : SaysOnce r' route') :
    route = route' ∧ action cfg timeText r route = action cfg timeText r' route' := by
  obtain ⟨hmethod, hpath, hquery, hdigest⟩ :=
    parts_of_signedText ⟨hr.timestamp, hr.nonce⟩ ⟨hr'.timestamp, hr'.nonce⟩ htext
  have hroutes := route_eq_of_parts hroute hroute' hr hr' hmethod hpath
  subst hroutes
  have hbody : signedBody r route = signedBody r' route := by
    apply hcollision
    have hdecode := congrArg hexDecode hdigest
    rw [hexDecode_hexEncode, hexDecode_hexEncode] at hdecode
    exact Option.some_inj.mp hdecode
  refine ⟨rfl, action_congr cfg timeText (fun key hkey => ?_) hbody⟩
  have hperm := perm_all_of_canonicalQuery_eq hquery (isSigned_readParameters route key hkey)
  rw [Request.get, Request.get, get_eq_of_perm hperm (hr.single key hkey)]

/-! ## A parameter that is listed twice -/

/-- The default routes. -/
def defaultRoutes : Routes where
  route := [bytesOf "weighing-data-sync", bytesOf "put"]
  queryRoute := [bytesOf "weighing-data-sync", bytesOf "records"]

/-- A deletion that is asked for with the parameters of a query. -/
def deletion (rawQuery : String) : Request :=
  { sampleRequest with
    method := bytesOf "DELETE"
    rawQuery := bytesOf rawQuery
    method_token := by decide +kernel }

/-- The same with the last letter of its path escaped. -/
def escapedDeletion (rawQuery : String) : Request :=
  { deletion rawQuery with
    escapedPath := bytesOf "/weighing-data-sync/record%73"
    path := bytesOf "/weighing-data-sync/records"
    denotes := by decide +kernel }

theorem saysOnce_deletion : SaysOnce (deletion "id=1&trace=a&trace=b") .delete where
  timestamp := by decide +kernel
  nonce := by decide +kernel
  path := by decide +kernel
  single := by decide +kernel

theorem saysOnce_escapedDeletion : SaysOnce (escapedDeletion "trace=b&id=1&trace=a") .delete where
  timestamp := by decide +kernel
  nonce := by decide +kernel
  path := by decide +kernel
  single := by decide +kernel

theorem action_eq_deletion :
    (Route.delete = Route.delete) ∧
      action plainConfig some (deletion "id=1&trace=a&trace=b") .delete =
        action plainConfig some (escapedDeletion "trace=b&id=1&trace=a") .delete :=
  @action_eq_of_signedText_eq sampleCrypto defaultRoutes plainConfig some _ _ _ _
    (by decide +kernel) (by decide +kernel) (fun _ => rfl) (by decide +kernel) saysOnce_deletion
    saysOnce_escapedDeletion

theorem action_deletion (rawQuery : String) (id : ℤ)
    (h : parseOptionalInt64 ((deletion rawQuery).get "id") = some id)
    (hne : (deletion rawQuery).get "id" ≠ []) :
    action plainConfig some (deletion rawQuery) .delete = .deleteID id := by
  rw [action, deleteAction, if_pos hne, h]

/-- Two deletions with one signed text: the first deletes the record of id 1, the second that of
id 2. -/
theorem not_action_eq_twoIds :
    serveMux defaultRoutes (deletion "id=1&id=2").method (deletion "id=1&id=2").escapedPath =
        some .delete ∧
      serveMux defaultRoutes (deletion "id=2&id=1").method (deletion "id=2&id=1").escapedPath =
        some .delete ∧
      (deletion "id=1&id=2").signedText sampleCrypto [] =
        (deletion "id=2&id=1").signedText sampleCrypto [] ∧
      action plainConfig some (deletion "id=1&id=2") .delete = .deleteID 1 ∧
      action plainConfig some (deletion "id=2&id=1") .delete = .deleteID 2 ∧
      action plainConfig some (deletion "id=1&id=2") .delete ≠
        action plainConfig some (deletion "id=2&id=1") .delete := by
  have hfirst := action_deletion "id=1&id=2" 1 (by decide +kernel)
    (by decide +kernel)
  have hsecond := action_deletion "id=2&id=1" 2 (by decide +kernel)
    (by decide +kernel)
  refine ⟨by decide +kernel, by decide +kernel, by decide +kernel, hfirst, hsecond, ?_⟩
  rw [hfirst, hsecond]
  intro h
  cases h

end WeighingSync.Receiver
