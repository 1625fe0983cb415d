import WeighingSync.Receiver.Actions

/-!
# Requests of the signed clients

How `cmd/uploader/main.go` and `cmd/replicator/main.go` address and sign their requests. A request
reaches C with its percent-encoded path and its raw query as they are. The uploader signs the path
decoded, as C does; the replicator signs it escaped, so C accepts its requests exactly when escaping
changes nothing (`authorized_iff`).
-/

namespace WeighingSync

open Go

/-- A URL that a client sends a request to is parsed again from its text: the path from its escaped
form, the query as it is. -/
def reparsed (u : Url.URL) : Option Url.URL :=
  (Url.setPath u.escapedPath).map fun (path, rawPath) => ⟨path, rawPath, u.rawQuery⟩

/-- The credentials of a role, as a client holds them. -/
structure Credentials where
  token : Bytes
  secret : Bytes

namespace Uploader

open Receiver in
/-- `canonicalQuery` of the uploader. -/
def canonicalQuery (values : Url.Values) : Bytes :=
  Url.Values.encode ((values.entries.filter fun e => isSigned e.1).map fun e =>
    (e.1, e.2.insertionSort (· ≤ ·)))

open Receiver in
/-- `sign`. -/
def sign (crypto : Crypto) (secret method path query timestamp nonce body : Bytes) : Bytes :=
  hexEncode (crypto.hmac secret ([ascii '\n'].intercalate
    [upperBytes method, path, query, timestamp, nonce, hexEncode (crypto.sha256 body)]))

end Uploader

namespace Replicator

open Receiver in
/-- `canonicalQuery` of the replicator. -/
def canonicalQuery (values : Url.Values) : Bytes :=
  Url.Values.encode ((values.entries.filter fun e => isSigned e.1).map fun e =>
    (e.1, e.2.insertionSort (· ≤ ·)))

open Receiver in
/-- `signRequest` of the replicator. -/
def signRequest (crypto : Crypto) (secret method path query timestamp nonce body : Bytes) : Bytes :=
  hexEncode (crypto.hmac secret ([ascii '\n'].intercalate
    [upperBytes method, path, query, timestamp, nonce, hexEncode (crypto.sha256 body)]))

/-- `validateRoute`. -/
def validateRoute (route : Bytes) : Bool := route.head? = some (ascii '/') ∧ ascii '?' ∉ route

/-- The settings that the requests of the replicator are made of: the path of `C_BASE_URL`, parsed and
raw, and the two routes. -/
structure Addresses where
  basePath : Bytes
  baseRawPath : Bytes
  queryRoute : Bytes
  cleanupRoute : Bytes
  batchSize : ℕ
  queryRoute_valid : validateRoute queryRoute = true
  cleanupRoute_valid : validateRoute cleanupRoute = true
  batchSize_pos : 1 ≤ batchSize

/-- `endpoint`: the raw path is that of the base, whatever the route. -/
def Addresses.endpoint (a : Addresses) (route : Bytes) : Url.URL where
  path := a.basePath.rdropWhile (· = ascii '/') ++ route
  rawPath := a.baseRawPath
  rawQuery := []

/-- The query of `fetchAndStore`: `q.Set` on the parameters of an endpoint, which has none. -/
def Addresses.fetchURL (a : Addresses) : Url.URL :=
  { a.endpoint a.queryRoute with
    rawQuery := Url.Values.encode ((((a.endpoint a.queryRoute).query.add (bytesOf "include_raw")
      (bytesOf "true")).add (bytesOf "limit") (natText a.batchSize).bytes).entries) }

/-- The address of `deletePending` for a record. -/
def Addresses.cleanupURL (a : Addresses) (id : ℤ) : Url.URL :=
  a.endpoint (a.cleanupRoute ++ bytesOf "/" ++ (itoa id).bytes)

end Replicator

/-! ## Calls -/

/-- The calls that the clients make: `post` of the uploader, to the URL that its `loadConfig` has
parsed, and `doJSON` of the replicator for a fetch and for a cleanup. -/
inductive Call
  | upload (endpoint : Url.URL) (body : Bytes)
  | fetch (addresses : Replicator.Addresses)
  | cleanup (addresses : Replicator.Addresses) (id : ℤ)

namespace Call

/-- The method, the URL and the body of a call. -/
def method : Call → Bytes
  | .upload _ _ => bytesOf "POST"
  | .fetch _ => bytesOf "GET"
  | .cleanup _ _ => bytesOf "DELETE"
def url : Call → Url.URL
  | .upload endpoint _ => endpoint
  | .fetch addresses => addresses.fetchURL
  | .cleanup addresses id => addresses.cleanupURL id
def body : Call → Bytes
  | .upload _ body => body
  | .fetch _ | .cleanup _ _ => []

/-- The signature of a call: the uploader signs the URL of its request, the replicator the URL that it
made the request from, with its path escaped. -/
def signature (crypto : Receiver.Crypto) (secret : Bytes) (sent : Url.URL) (timestamp nonce : Bytes)
    (c : Call) : Bytes :=
  match c with
  | .upload _ body =>
      Uploader.sign crypto secret c.method sent.path (Uploader.canonicalQuery sent.query) timestamp
        nonce body
  | .fetch _ | .cleanup _ _ =>
      Replicator.signRequest crypto secret c.method c.url.escapedPath
        (Replicator.canonicalQuery c.url.query) timestamp nonce []

theorem method_token (c : Call) : c.method.all Receiver.isTokenByte = true := by
  cases c <;> (show List.all (bytesOf _) _ = true) <;> decide +kernel

/-- The request that reaches C. -/
def request (crypto : Receiver.Crypto) (credentials : Credentials) (ts : ℤ) (random : Bytes)
    (sent : Url.URL) (c : Call) : Receiver.Request where
  method := c.method
  escapedPath := sent.escapedPath
  path := sent.path
  rawQuery := sent.rawQuery
  authorization := bytesOf "Bearer " ++ credentials.token
  xTimestamp := (itoa ts).bytes
  xNonce := Receiver.hexEncode random
  xSignature := c.signature crypto credentials.secret sent (itoa ts).bytes (Receiver.hexEncode random)
  body := c.body
  method_token := c.method_token
  denotes := Url.unescape_escapedPath sent

/-- The path that a call is signed with is the one that C sees: the uploader's always is, and the
replicator's is if nothing in it has to be escaped. -/
def SignsPlainPath : Call → Prop
  | .upload _ _ => True
  | c => c.url.escapedPath = c.url.path

end Call

/-! ## What C reads of a request -/

/-- A text without white space is not trimmed. -/
theorem trimSpace_of_forall {s : Str} (h : ∀ r ∈ s, r.isSpace = false) : s.trimSpace = s := by
  rw [Str.trimSpace]
  have hdrop : s.dropWhile Rune.isSpace = s := by
    cases s with
    | nil => rfl
    | cons r s => exact List.dropWhile_cons_of_neg (by simp [h r List.mem_cons_self])
  rw [hdrop, List.rdropWhile_eq_self_iff]
  intro hne
  simp [h _ (List.getLast_mem hne)]

theorem isDigit_lt {c : Char} (h : c.isDigit = true) : c.toNat < 0x80 ∧ (Rune.char c).isSpace = false := by
  have hall : ∀ n : Fin 58, (Char.ofNat n).isDigit = true → (Rune.char (Char.ofNat n)).isSpace = false := by
    decide +kernel
  have hle : c.toNat ≤ 57 := by
    rw [Char.isDigit, Bool.and_eq_true, decide_eq_true_eq, decide_eq_true_eq] at h
    exact UInt32.le_iff_toNat_le.mp h.2
  refine ⟨by omega, ?_⟩
  have hc := hall ⟨c.toNat, by omega⟩
  rw [Char.ofNat_toNat] at hc
  exact hc h

/-- A decimal text is ASCII, and there is no white space in it. -/
theorem itoa_plain (n : ℤ) {r : Rune} (hr : r ∈ itoa n) :
    (∃ c : Char, r = .char c ∧ c.toNat < 0x80) ∧ r.isSpace = false := by
  have hdigits : ∀ {m : ℕ} {r : Rune}, r ∈ natText m →
      (∃ c : Char, r = .char c ∧ c.toNat < 0x80) ∧ r.isSpace = false := by
    intro m r hr
    obtain ⟨c, rfl, hc⟩ := isDigit_of_mem_natText hr
    exact ⟨⟨c, rfl, (isDigit_lt hc).1⟩, (isDigit_lt hc).2⟩
  cases n with
  | ofNat m => exact hdigits hr
  | negSucc m =>
      rcases List.mem_cons.mp hr with rfl | hr
      · exact ⟨⟨'-', rfl, by decide⟩, by decide⟩
      · exact hdigits hr

/-- `ParseInt` reads back what `FormatInt` prints of a 64-bit integer. -/
theorem atoi_itoa {n : ℤ} (hge : -2 ^ 63 ≤ n) (hlt : n < 2 ^ 63) : atoi (itoa n) = some n := by
  cases n with
  | ofNat m => exact atoi_natText (by rw [Int.ofNat_eq_natCast] at hlt; omega)
  | negSucc m =>
      rw [itoa, atoi]
      simp only [digitsValue_natText]
      show Option.filter _ (some (Int.negSucc m)) = some (Int.negSucc m)
      rw [Option.filter_some, if_pos (by simpa using ⟨hge, hlt⟩)]

/-- Hexadecimal text is ASCII, and there is no white space in it. -/
theorem hexEncode_plain {bytes : Bytes} {b : UInt8} (h : b ∈ Receiver.hexEncode bytes) :
    b < 0x80 ∧ (Rune.char (Char.ofNat b.toNat)).isSpace = false := by
  have hdigit : ∀ n : Fin 16, ascii (hexDigit n) < 0x80 ∧
      (Rune.char (Char.ofNat (ascii (hexDigit n)).toNat)).isSpace = false := by decide
  obtain ⟨x, -, hb⟩ := List.mem_flatMap.mp h
  have hlt := x.toNat_lt
  simp only [List.mem_cons, List.not_mem_nil, or_false] at hb
  rcases hb with rfl | rfl
  · exact hdigit ⟨x.toNat / 16, by omega⟩
  · exact hdigit ⟨x.toNat % 16, by omega⟩

/-- A header that has hexadecimal text in it is read as it is. -/
theorem firstNonEmpty_hexEncode {bytes : Bytes} (hne : bytes ≠ []) (rest : List Str) :
    Receiver.firstNonEmpty (Str.ofBytes (Receiver.hexEncode bytes) :: rest) =
      Str.ofBytes (Receiver.hexEncode bytes) := by
  have hascii : ∀ b ∈ Receiver.hexEncode bytes, b < 0x80 := fun b hb => (hexEncode_plain hb).1
  have htrim : (Str.ofBytes (Receiver.hexEncode bytes)).trimSpace =
      Str.ofBytes (Receiver.hexEncode bytes) := by
    apply trimSpace_of_forall
    rw [ofBytes_ascii hascii]
    intro r hr
    obtain ⟨b, hb, rfl⟩ := List.mem_map.mp hr
    exact (hexEncode_plain hb).2
  have hnonempty : Str.ofBytes (Receiver.hexEncode bytes) ≠ [] := by
    obtain ⟨b, bytes, rfl⟩ := List.exists_cons_of_ne_nil hne
    rw [ofBytes_ascii hascii]
    simp [Receiver.hexEncode]
  rw [Receiver.firstNonEmpty, htrim, if_pos hnonempty]

/-- A bearer token without white space around it is read from its header. -/
theorem extractBearer_bearer {token : Str} (hne : token ≠ []) (htrim : token.trimSpace = token) :
    Receiver.extractBearer (Str.lit "Bearer " ++ token) = (token, true) := by
  have hright : token.rdropWhile Rune.isSpace = token := by
    have hdrop : token.dropWhile Rune.isSpace = token := by
      have hlength := (List.rdropWhile_prefix Rune.isSpace (l := token.dropWhile Rune.isSpace)).length_le
      have hsuffix := List.dropWhile_suffix Rune.isSpace (l := token)
      rw [Str.trimSpace] at htrim
      rw [htrim] at hlength
      exact hsuffix.eq_of_length_le hlength
    rw [Str.trimSpace, hdrop] at htrim
    exact htrim
  have hheader : (Str.lit "Bearer " ++ token).trimSpace = Str.lit "Bearer " ++ token := by
    have hdrop : (Str.lit "Bearer " ++ token).dropWhile Rune.isSpace = Str.lit "Bearer " ++ token :=
      List.dropWhile_cons_of_neg (by decide)
    rw [Str.trimSpace, hdrop, List.rdropWhile_eq_self_iff]
    intro hnonempty
    rw [List.getLast_append_of_ne_nil hnonempty hne]
    exact List.rdropWhile_eq_self_iff.mp hright hne
  have hscheme : (Str.lit "Bearer " ++ token).takeWhile (· ≠ .char ' ') = Str.lit "Bearer" := rfl
  have hrest : (Str.lit "Bearer " ++ token).dropWhile (· ≠ .char ' ') = .char ' ' :: token := rfl
  rw [Receiver.extractBearer, hheader]
  simp only [hscheme, hrest]
  have hfold : Str.toLower (Str.lit "Bearer") = Str.lit "bearer" := by decide
  rw [if_neg (by simp [hfold]), List.tail_cons, htrim]

/-! ## When a call is authorised -/

section

variable {crypto : Receiver.Crypto} {credentials : Credentials} {c : Call} {ts : ℤ} {random : Bytes}
  {sent : Url.URL}

/-- The text that a call is signed with. -/
def Call.text (crypto : Receiver.Crypto) (c : Call) (ts : ℤ) (random path : Bytes) : Bytes :=
  Receiver.canonicalText crypto c.method path (Receiver.canonicalQuery c.url.query) (itoa ts).bytes
    (Receiver.hexEncode random) c.body

/-- The path that a call is signed with. -/
def Call.signedPath (c : Call) : Bytes :=
  match c with
  | .upload endpoint _ => endpoint.path
  | c => c.url.escapedPath

/-- A parsed URL has the path and the query of the URL it was made from. -/
theorem path_of_reparsed {u sent : Url.URL} (h : reparsed u = some sent) :
    sent.path = u.path ∧ sent.rawQuery = u.rawQuery := by
  rw [reparsed, Url.setPath, Url.unescape_escapedPath] at h
  cases h
  exact ⟨rfl, rfl⟩

theorem signature_eq (h : reparsed c.url = some sent) (secret : Bytes) :
    c.signature crypto secret sent (itoa ts).bytes (Receiver.hexEncode random) =
      Receiver.hexEncode (crypto.hmac secret (c.text crypto ts random c.signedPath)) := by
  obtain ⟨hpath, hquery⟩ := path_of_reparsed h
  cases c with
  | upload endpoint body =>
      rw [Call.signature, Url.URL.query, hpath, hquery]
      rfl
  | fetch addresses => rfl
  | cleanup addresses id => rfl

variable (crypto credentials) in
/-- What C reads of the headers of a call. -/
theorem headers_request (hts : -2 ^ 63 ≤ ts ∧ ts < 2 ^ 63) (hrandom : random.length = 16)
    (h : reparsed c.url = some sent) :
    let r := c.request crypto credentials ts random sent
    r.timestamp = itoa ts ∧ r.nonce.bytes = Receiver.hexEncode random ∧ r.nonce ≠ [] ∧
      r.signature ≠ [] ∧ r.signature.bytes = Receiver.hexEncode
        (crypto.hmac credentials.secret (c.text crypto ts random c.signedPath)) := by
  have hascii : ∀ {bytes : Bytes}, ∀ b ∈ Receiver.hexEncode bytes, b < 0x80 := fun b hb =>
    (hexEncode_plain hb).1
  have hnonempty : ∀ {bytes : Bytes}, bytes ≠ [] → Str.ofBytes (Receiver.hexEncode bytes) ≠ [] := by
    intro bytes hne
    obtain ⟨b, bytes, rfl⟩ := List.exists_cons_of_ne_nil hne
    rw [ofBytes_ascii hascii]
    simp [Receiver.hexEncode]
  have hnonce : random ≠ [] := by
    rintro rfl
    cases hrandom
  have hdigest : crypto.hmac credentials.secret (c.text crypto ts random c.signedPath) ≠ [] := by
    intro hnil
    have hlength := crypto.length_hmac credentials.secret (c.text crypto ts random c.signedPath)
    rw [hnil] at hlength
    cases hlength
  intro r
  -- C takes the first header that is not blank, and trims it
  have htimestamp : r.timestamp = itoa ts := by
    have hread : Str.ofBytes (itoa ts).bytes = itoa ts :=
      (ofBytes_bytes_ascii fun r hr => (itoa_plain ts hr).1).1
    have htrim : (itoa ts).trimSpace = itoa ts :=
      trimSpace_of_forall fun r hr => (itoa_plain ts hr).2
    have hne : itoa ts ≠ [] := by
      intro hnil
      have hatoi := atoi_itoa hts.1 hts.2
      rw [hnil] at hatoi
      cases hatoi
    show Receiver.firstNonEmpty (Str.ofBytes (itoa ts).bytes :: _) = itoa ts
    rw [hread, Receiver.firstNonEmpty, htrim, if_pos hne]
  have hnonceText : r.nonce = Str.ofBytes (Receiver.hexEncode random) :=
    firstNonEmpty_hexEncode hnonce _
  have hsignature : r.signature = Str.ofBytes (Receiver.hexEncode
      (crypto.hmac credentials.secret (c.text crypto ts random c.signedPath))) := by
    show Receiver.firstNonEmpty (Str.ofBytes (c.signature crypto credentials.secret sent _ _) :: _) = _
    rw [signature_eq h]
    exact firstNonEmpty_hexEncode hdigest _
  refine ⟨htimestamp, ?_, ?_, ?_, ?_⟩
  · rw [hnonceText, bytes_ofBytes_ascii hascii]
  · rw [hnonceText]
    exact hnonempty hnonce
  · rw [hsignature]
    exact hnonempty hdigest
  · rw [hsignature, bytes_ofBytes_ascii hascii]

/-- C accepts the signature of a call if it is the digest of the text that C expects. -/
theorem checkSignature_call {skew sinceNow untilNow : ℤ} (hts : -2 ^ 63 ≤ ts ∧ ts < 2 ^ 63)
    (hrandom : random.length = 16) (hskew : 0 ≤ skew) (hsince : sinceNow - unixTime ts ≤ skew)
    (huntil : unixTime ts - untilNow ≤ skew) (h : reparsed c.url = some sent) :
    Receiver.checkSignature crypto skew credentials.secret (c.request crypto credentials ts random sent)
        c.body sinceNow untilNow =
      if crypto.hmac credentials.secret (c.text crypto ts random c.signedPath) =
          crypto.hmac credentials.secret (c.text crypto ts random c.url.path) then
        .ok (ts, Receiver.hexEncode random)
      else .error (Str.lit "invalid signature") := by
  obtain ⟨htimestamp, hnonce, hnonceNe, hsignatureNe, hsignature⟩ :=
    headers_request crypto credentials hts hrandom h
  obtain ⟨hpath, hquery⟩ := path_of_reparsed h
  have htimestampNe : itoa ts ≠ [] := by
    intro hnil
    have hatoi := atoi_itoa hts.1 hts.2
    rw [hnil] at hatoi
    cases hatoi
  have hwindow : ¬ (durationBetween sinceNow (unixTime ts) > skew ∨
      durationBetween (unixTime ts) untilNow > skew) := by
    simp only [durationBetween, not_or, not_lt]
    omega
  rw [Receiver.checkSignature, htimestamp, if_neg (by simp [htimestampNe, hnonceNe, hsignatureNe])]
  simp only [atoi_itoa hts.1 hts.2]
  rw [if_neg hwindow, hsignature]
  have hexpected : Receiver.signRequest crypto credentials.secret
      (c.request crypto credentials ts random sent).method
      (c.request crypto credentials ts random sent).path
      (Receiver.canonicalQuery (c.request crypto credentials ts random sent).query) (itoa ts).bytes
      (Receiver.hexEncode random) c.body =
        Receiver.hexEncode (crypto.hmac credentials.secret (c.text crypto ts random c.url.path)) := by
    rw [Receiver.Request.query, Call.text, ← hpath, Url.URL.query, ← hquery]
    rfl
  simp only [Receiver.hexDecode_hexEncode, hnonce, hexpected, Option.getD_some]
  by_cases hsame : crypto.hmac credentials.secret (c.text crypto ts random c.signedPath) =
      crypto.hmac credentials.secret (c.text crypto ts random c.url.path)
  · rw [if_neg (not_not.mpr hsame), if_pos hsame]
  · rw [if_pos hsame, if_neg hsame]

/-- A call signs the path that C sees exactly when nothing in it has to be escaped. -/
theorem signedPath_eq_iff : c.signedPath = c.url.path ↔ c.SignsPlainPath := by
  cases c with
  | upload endpoint body => exact ⟨fun _ => trivial, fun _ => rfl⟩
  | fetch addresses => exact Iff.rfl
  | cleanup addresses id => exact Iff.rfl

/-- With one token and one secret on both sides, clocks within the skew and a fresh nonce, C authorises
a call if and only if the call is signed with the path as C sees it: always for the uploader, and for
the replicator if escaping the path changes nothing. -/
theorem authorized_iff {skew sinceNow untilNow addNow : ℤ} {auth : Receiver.AuthConfig}
    {store : Receiver.NonceStore} (hsent : reparsed c.url = some sent)
    (htoken : Str.ofBytes credentials.token = auth.apiToken)
    (hsecret : credentials.secret = auth.signSecret.bytes) (hsecretNe : auth.signSecret ≠ [])
    (hts : -2 ^ 63 ≤ ts ∧ ts < 2 ^ 63) (hrandom : random.length = 16) (hskew : 0 ≤ skew)
    (hsince : sinceNow - unixTime ts ≤ skew) (huntil : unixTime ts - untilNow ≤ skew)
    (hfresh : Receiver.hexEncode random ∉ store.map Prod.fst)
    (hcollision : crypto.hmac credentials.secret (c.text crypto ts random c.signedPath) =
        crypto.hmac credentials.secret (c.text crypto ts random c.url.path) →
      c.text crypto ts random c.signedPath = c.text crypto ts random c.url.path) :
    (Receiver.authorize crypto skew auth (c.request crypto credentials ts random sent) c.body sinceNow
      untilNow addNow store).1 = none ↔ c.SignsPlainPath := by
  have hbearer : auth.apiToken ≠ [] → Receiver.extractBearer (Str.ofBytes
      (c.request crypto credentials ts random sent).authorization) = (auth.apiToken, true) := by
    intro hne
    have hheader : Str.ofBytes (c.request crypto credentials ts random sent).authorization =
        Str.lit "Bearer " ++ auth.apiToken := by
      have hascii : ∀ b ∈ bytesOf "Bearer ", b < 0x80 := by decide +kernel
      have hscheme : Str.ofBytes (bytesOf "Bearer ") = Str.lit "Bearer " := by decide +kernel
      rw [← htoken, ← hscheme]
      exact ofBytes_append_of_ascii hascii credentials.token
    rw [hheader]
    exact extractBearer_bearer hne auth.token_trimmed
  have hpassed : ¬ (auth.apiToken ≠ [] ∧
      ((Receiver.extractBearer (Str.ofBytes
          (c.request crypto credentials ts random sent).authorization)).1 = [] ∨
        (Receiver.extractBearer (Str.ofBytes
          (c.request crypto credentials ts random sent).authorization)).1 ≠ auth.apiToken ∨
        (Receiver.extractBearer (Str.ofBytes
          (c.request crypto credentials ts random sent).authorization)).2 = false)) := by
    rintro ⟨hne, hrefused⟩
    rw [hbearer hne] at hrefused
    simp [hne] at hrefused
  have hstore : Receiver.hexEncode random ∉ (store.purge addNow).map Prod.fst := by
    intro hmem
    exact hfresh ((List.filter_sublist.map Prod.fst).subset hmem)
  rw [Receiver.authorize]
  simp only
  rw [if_neg hpassed, if_pos hsecretNe, ← hsecret, Receiver.verifySignature,
    checkSignature_call hts hrandom hskew hsince huntil hsent, ← signedPath_eq_iff]
  by_cases hsame : crypto.hmac credentials.secret (c.text crypto ts random c.signedPath) =
      crypto.hmac credentials.secret (c.text crypto ts random c.url.path)
  · rw [if_pos hsame]
    simp only [Receiver.NonceStore.add, if_neg hstore, true_iff]
    -- the texts differ in the path only
    have htext := hcollision hsame
    simp only [Call.text, Receiver.canonicalText, List.intercalate_cons_cons, List.append_assoc,
      List.append_cancel_left_eq] at htext
    exact List.append_cancel_right htext
  · rw [if_neg hsame]
    simp only [reduceCtorEq, false_iff]
    intro hpath
    exact hsame (by rw [hpath])

end

/-! ## A route with a space -/

/-- The replicator's addresses, with the default routes but for the query route. -/
def addressesOf (queryRoute : Bytes) (h : Replicator.validateRoute queryRoute = true) :
    Replicator.Addresses where
  basePath := []
  baseRawPath := []
  queryRoute := queryRoute
  cleanupRoute := bytesOf "/weighing-data-sync/records"
  batchSize := 100
  queryRoute_valid := h
  cleanupRoute_valid := by decide +kernel
  batchSize_pos := by decide

def defaultFetch : Call :=
  .fetch (addressesOf (bytesOf "/weighing-data-sync/records") (by decide +kernel))
def spacedFetch : Call := .fetch (addressesOf (bytesOf "/weighing data/records") (by decide +kernel))

/-- The digest of what is not escaped and of what is, for the fetches here. -/
def fetchCrypto (plain escaped : Bytes) (hplain : plain.length = 32) (hescaped : escaped.length = 32) :
    Receiver.Crypto :=
  { Receiver.sampleCrypto with
    hmac := fun _ text => if ascii '%' ∈ text then escaped else plain
    length_hmac := fun _ text => by
      split_ifs
      · exact hescaped
      · exact hplain }

/-- The digest that `s` is the hexadecimal text of. -/
def digestOf (s : String) : Bytes := (Receiver.hexDecode (bytesOf s)).getD []

def defaultCrypto : Receiver.Crypto :=
  fetchCrypto (digestOf "f3b2b426cfa1123056f9bc60c528743a8598379dd45a162ed4246c21d3892712")
    (digestOf "f3b2b426cfa1123056f9bc60c528743a8598379dd45a162ed4246c21d3892712") (by decide +kernel)
    (by decide +kernel)
def spacedCrypto : Receiver.Crypto :=
  fetchCrypto (digestOf "c744fcf21587c3c7cfaa2c9807735650ef15567b196207fbe367a76e9c7b8129")
    (digestOf "338a085b1a2c6c9dda5856acd58896223edeb1001341045cca8ba62d6aa1acb9") (by decide +kernel)
    (by decide +kernel)

def fetchCredentials : Credentials := ⟨bytesOf "token", bytesOf "secret"⟩

theorem trimSpace_token : (Str.lit "token").trimSpace = Str.lit "token" := by decide +kernel

theorem trimSpace_secret : (Str.lit "secret").trimSpace = Str.lit "secret" := by decide +kernel

def fetchAuth : Receiver.AuthConfig :=
  ⟨Str.lit "token", Str.lit "secret", trimSpace_token, trimSpace_secret⟩
def fetchRandom : Bytes := [0, 1, 2, 3, 4, 5, 6, 7, 8, 9, 10, 11, 12, 13, 14, 15]

/-- The answer to a fetch that is sent and received in one second, with a skew of five minutes. -/
def answerTo (crypto : Receiver.Crypto) (c : Call) : Option Str :=
  (Receiver.authorize crypto (300 * 10 ^ 9) fetchAuth
    (c.request crypto fetchCredentials 1787846400 fetchRandom c.url) c.body (unixTime 1787846400)
    (unixTime 1787846400) (unixTime 1787846400) []).1

theorem authorized_defaultFetch :
    answerTo defaultCrypto defaultFetch = none ↔ defaultFetch.SignsPlainPath :=
  authorized_iff (show reparsed defaultFetch.url = some defaultFetch.url by decide +kernel)
    (show Str.ofBytes fetchCredentials.token = fetchAuth.apiToken by decide +kernel)
    (by decide +kernel) (by decide +kernel) (by decide) (by decide)
    (show (0 : ℤ) ≤ 300 * 10 ^ 9 by decide) (by decide) (by decide)
    (show Receiver.hexEncode fetchRandom ∉ ([] : Receiver.NonceStore).map Prod.fst by decide)
    (fun _ => congrArg (defaultFetch.text defaultCrypto 1787846400 fetchRandom)
      (show defaultFetch.signedPath = defaultFetch.url.path by decide +kernel))

/-- The replicator accepts a query route with a space in it and signs it escaped. C is sent the same
escaped path, reads the space and expects another digest. -/
theorem not_authorized_spacedFetch :
    reparsed spacedFetch.url = some spacedFetch.url ∧
      answerTo spacedCrypto spacedFetch = some (Str.lit "invalid signature") ∧
      ¬ spacedFetch.SignsPlainPath := by
  refine ⟨by decide +kernel, by decide +kernel, ?_⟩
  show spacedFetch.url.escapedPath ≠ spacedFetch.url.path
  decide +kernel

end WeighingSync
