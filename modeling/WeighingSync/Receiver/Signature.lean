import WeighingSync.Go.Time
import WeighingSync.Go.Url
import WeighingSync.Receiver.Query

/-!
# Signed requests

`authorize`, `verifySignature`, `signRequest` and `nonceStore.Add` of `cmd/receiver/main.go`. What a
request brings is bytes. The hash functions are parameters, and every reading of the clock is an
argument of its own.
-/

namespace WeighingSync.Receiver

open Go

/-- The hash functions: SHA-256, and HMAC-SHA-256 of a key and a text. -/
structure Crypto where
  sha256 : Bytes → Bytes
  hmac : Bytes → Bytes → Bytes
  length_sha256 : ∀ text, (sha256 text).length = 32
  length_hmac : ∀ key text, (hmac key text).length = 32

/-- A byte that a method may consist of. -/
def isTokenByte (b : UInt8) : Bool :=
  (Char.ofNat b.toNat).isAlphanum ||
    Char.ofNat b.toNat ∈ ['!', '#', '$', '%', '&', '\x27', '*', '+', '-', '.', '^', '_', '\x60', '|', '~']

/-- A request as the server hands it on: its method is a token and its path could be unescaped. -/
structure Request where
  method : Bytes
  escapedPath : Bytes
  path : Bytes
  rawQuery : Bytes
  authorization : Bytes
  xTimestamp : Bytes
  xNonce : Bytes
  xSignature : Bytes
  body : Bytes
  method_token : method.all isTokenByte = true
  denotes : Url.unescape .path escapedPath = some path

namespace Request

/-- `r.URL.Query()`. -/
def query (r : Request) : Url.Values := Url.parseQuery r.rawQuery

/-- `r.URL.Query().Get`, as text. -/
def get (r : Request) (key : String) : Str := Str.ofBytes (r.query.get (bytesOf key))

/-- The signature parameters: from their header, or else from the query. -/
def timestamp (r : Request) : Str := firstNonEmpty [Str.ofBytes r.xTimestamp, r.get "timestamp"]
def nonce (r : Request) : Str := firstNonEmpty [Str.ofBytes r.xNonce, r.get "nonce"]
def signature (r : Request) : Str :=
  firstNonEmpty [Str.ofBytes r.xSignature, r.get "signature", r.get "sign"]

end Request

/-! ## The signed text -/

/-- `hex.EncodeToString`. -/
def hexEncode (bytes : Bytes) : Bytes :=
  bytes.flatMap fun b => [ascii (hexDigit (b.toNat / 16)), ascii (hexDigit (b.toNat % 16))]

/-- `hex.DecodeString`. -/
def hexDecode : Bytes → Option Bytes
  | [] => some []
  | [_] => none
  | hi :: lo :: rest => do
      let h ← Url.unhex hi
      let l ← Url.unhex lo
      (hexDecode rest).map (UInt8.ofNat (16 * h + l) :: ·)

/-- `strings.ToUpper`, of a method. -/
def upperBytes (s : Bytes) : Bytes := s.map fun b => if 97 ≤ b ∧ b ≤ 122 then b - 32 else b

/-- The parameters that are signed. -/
def isSigned (key : Bytes) : Bool := key ≠ bytesOf "signature" ∧ key ≠ bytesOf "sign"

/-- `canonicalQuery`. -/
def canonicalQuery (v : Url.Values) : Bytes :=
  Url.Values.encode ((v.entries.filter fun e => isSigned e.1).map fun e =>
    (e.1, e.2.insertionSort (· ≤ ·)))

/-- The text that `signRequest` signs. -/
def canonicalText (crypto : Crypto) (method path query timestamp nonce body : Bytes) : Bytes :=
  [ascii '\n'].intercalate
    [upperBytes method, path, query, timestamp, nonce, hexEncode (crypto.sha256 body)]

/-- `signRequest`. -/
def signRequest (crypto : Crypto) (secret method path query timestamp nonce body : Bytes) : Bytes :=
  hexEncode (crypto.hmac secret (canonicalText crypto method path query timestamp nonce body))

/-- The text that the signature of a request is checked against; `body` is what the handler passes
on. -/
def Request.signedText (crypto : Crypto) (r : Request) (body : Bytes) : Bytes :=
  canonicalText crypto r.method r.path (canonicalQuery r.query) r.timestamp.bytes r.nonce.bytes body

/-! ## Nonces -/

/-- `nonceStore`: the nonces that were used, each with the end of its window. -/
abbrev NonceStore := List (Bytes × Instant)

/-- The loop of `Add` that deletes what has expired. -/
def NonceStore.purge (s : NonceStore) (now : Instant) : NonceStore :=
  s.filter fun item => !decide (item.2 < now)

/-- `nonceStore.Add`. -/
def NonceStore.add (s : NonceStore) (now : Instant) (nonce : Bytes) (expiresAt : Instant) :
    Bool × NonceStore :=
  if nonce ∈ (s.purge now).map Prod.fst then (false, s.purge now)
  else (true, (nonce, expiresAt) :: s.purge now)

/-! ## Verification -/

/-- `verifySignature` up to its use of the nonce store, with the readings of `time.Since` and
`time.Until`: the timestamp and the nonce of a request that is signed properly. -/
def checkSignature (crypto : Crypto) (skew : ℤ) (secret : Bytes) (r : Request) (body : Bytes)
    (sinceNow untilNow : Instant) : Except Str (ℤ × Bytes) :=
  if r.timestamp = [] ∨ r.nonce = [] ∨ r.signature = [] then
    .error (Str.lit "missing signature parameters")
  else
    match atoi r.timestamp with
    | none => .error (Str.lit "invalid timestamp")
    | some ts =>
        if durationBetween sinceNow (unixTime ts) > skew ∨
            durationBetween (unixTime ts) untilNow > skew then
          .error (Str.lit "signature timestamp expired")
        else
          match hexDecode r.signature.bytes with
          | none => .error (Str.lit "invalid signature format")
          | some provided =>
              let expected := signRequest crypto secret r.method r.path (canonicalQuery r.query)
                r.timestamp.bytes r.nonce.bytes body
              if provided ≠ (hexDecode expected).getD [] then .error (Str.lit "invalid signature")
              else .ok (ts, r.nonce.bytes)

/-- `verifySignature`: the error, if there is one, and the nonces. -/
def verifySignature (crypto : Crypto) (skew : ℤ) (secret : Bytes) (r : Request) (body : Bytes)
    (sinceNow untilNow addNow : Instant) (store : NonceStore) : Option Str × NonceStore :=
  match checkSignature crypto skew secret r body sinceNow untilNow with
  | .error message => (some message, store)
  | .ok (ts, nonce) =>
      match store.add addNow nonce (unixTime ts + skew) with
      | (true, store) => (none, store)
      | (false, store) => (some (Str.lit "nonce already used"), store)

/-- `authConfig`, as `envFirst` reads it. -/
structure AuthConfig where
  apiToken : Str
  signSecret : Str
  token_trimmed : apiToken.trimSpace = apiToken
  secret_trimmed : signSecret.trimSpace = signSecret

/-- `extractBearer`. -/
def extractBearer (header : Str) : Str × Bool :=
  let scheme : Str := header.trimSpace.takeWhile (· ≠ .char ' ')
  let rest : Str := header.trimSpace.dropWhile (· ≠ .char ' ')
  if rest = [] ∨ scheme.toLower ≠ Str.lit "bearer" then ([], false)
  else (Str.trimSpace rest.tail, true)

/-- `authorize`. -/
def authorize (crypto : Crypto) (skew : ℤ) (auth : AuthConfig) (r : Request) (body : Bytes)
    (sinceNow untilNow addNow : Instant) (store : NonceStore) : Option Str × NonceStore :=
  let (token, ok) := extractBearer (Str.ofBytes r.authorization)
  if auth.apiToken ≠ [] ∧ (token = [] ∨ token ≠ auth.apiToken ∨ ok = false) then
    (some (Str.lit "invalid or missing bearer token"), store)
  else if auth.signSecret ≠ [] then
    verifySignature crypto skew auth.signSecret.bytes r body sinceNow untilNow addNow store
  else (none, store)

/-! ## Facts about hexadecimal text -/

theorem unhex_hexDigit {n : ℕ} (h : n < 16) : Url.unhex (ascii (hexDigit n)) = some n := by
  have hall : ∀ n : Fin 16, Url.unhex (ascii (hexDigit n)) = some n.val := by decide
  exact hall ⟨n, h⟩

/-- What is encoded is decoded to what it was. -/
theorem hexDecode_hexEncode (bytes : Bytes) : hexDecode (hexEncode bytes) = some bytes := by
  induction bytes with
  | nil => rfl
  | cons b bytes ih =>
      have hlt := b.toNat_lt
      have hb : UInt8.ofNat (16 * (b.toNat / 16) + b.toNat % 16) = b := by
        rw [Nat.div_add_mod, UInt8.ofNat_toNat]
      rw [hexEncode] at ih
      rw [hexEncode, List.flatMap_cons, List.cons_append, List.cons_append, List.nil_append, hexDecode,
        unhex_hexDigit (by omega), unhex_hexDigit (by omega), ih]
      simp only [Option.bind_eq_bind, Option.bind_some, Option.map_some, hb]

/-- A signature is accepted if it is the digest of the text that the server expects. -/
theorem hexDecode_signRequest (crypto : Crypto) (secret method path query timestamp nonce body : Bytes) :
    hexDecode (signRequest crypto secret method path query timestamp nonce body) =
      some (crypto.hmac secret (canonicalText crypto method path query timestamp nonce body)) :=
  hexDecode_hexEncode _

/-! ## A signed request -/

/-- The request of the replicator's test of its signatures, with the digests of that test. -/
def sampleDigest : Bytes :=
  (hexDecode (bytesOf "de3f34071cd00a2425069798f1943dffe51176e8f234ef01b90638556df57215")).getD []
def sampleCrypto : Crypto where
  sha256 := fun _ =>
    (hexDecode (bytesOf "e3b0c44298fc1c149afbf4c8996fb92427ae41e4649b934ca495991b7852b855")).getD []
  hmac := fun _ _ => sampleDigest
  length_sha256 := fun _ => by decide +kernel
  length_hmac := fun _ _ => by decide +kernel
def sampleRequest : Request where
  method := bytesOf "GET"
  escapedPath := bytesOf "/weighing-data-sync/records"
  path := bytesOf "/weighing-data-sync/records"
  rawQuery := bytesOf "include_raw=true&limit=100"
  authorization := bytesOf "Bearer token"
  xTimestamp := bytesOf "1787846400"
  xNonce := bytesOf "nonce"
  xSignature := bytesOf "de3f34071cd00a2425069798f1943dffe51176e8f234ef01b90638556df57215"
  body := []
  method_token := by decide +kernel
  denotes := by decide +kernel

/-- The text that the test signs. -/
example : sampleRequest.signedText sampleCrypto [] = bytesOf
    "GET\n/weighing-data-sync/records\ninclude_raw=true&limit=100\n1787846400\nnonce\ne3b0c44298fc1c149afbf4c8996fb92427ae41e4649b934ca495991b7852b855" := by
  decide +kernel

end WeighingSync.Receiver
