import WeighingSync.Receiver.Retention
import WeighingSync.Receiver.Settings

/-!
# Nothing without credentials

Under `REQUIRE_AUTH` every role has a token and a secret, whatever variables they come from. A request
that changes a table or is answered with records then carries the token of the role of its method and a
signature under its secret, over its body if it is an upload and over the empty body otherwise
(`credentialed_of_effect`). A request that is rejected before its nonce is used leaves the server as it
was.
-/

namespace WeighingSync.Receiver

open Go

/-- The request carries the token of a role and is signed, over this body, under its secret. -/
structure Credentialed (crypto : Crypto) (auth : AuthConfig) (r : Request) (body : Bytes) : Prop where
  complete : auth.Complete
  token : extractBearer (Str.ofBytes r.authorization) = (auth.apiToken, true)
  signature : hexDecode r.signature.bytes =
    some (crypto.hmac auth.signSecret.bytes (r.signedText crypto body))

/-- The reply returns records. -/
def ReturnsRecords (reply : Reply) : Prop :=
  ∃ page limit offset, page ≠ [] ∧ reply = .json 200 (queryJSON page limit offset)

/-- The credentials of the role of a method, from the environment: of the ingest role for an upload, of
the cleanup role for a deletion, and of the query role otherwise. -/
def credentialsFor (getenv : Str → Str) (method : Bytes) : AuthConfig :=
  if method = bytesOf "POST" then roleAuth getenv "INGEST" ["WRITE"]
  else if method = bytesOf "DELETE" then roleAuth getenv "CLEANUP" ["DELETE"]
  else roleAuth getenv "QUERY" ["READ"]

/-- What is signed of a body. -/
def bodyFor (r : Request) : Bytes := if r.method = bytesOf "POST" then r.body else []

/-- A request that is rejected before its nonce is used: no pattern matches it, its body is too large,
its token is not that of the role, or its signature does not pass. -/
inductive RejectedEarly (crypto : Crypto) (S : ServerConfig) (visit : Visit) (r : Request) : Prop
  | unrouted (hroute : serveMux S.routes r.method r.escapedPath = none)
  | tooLarge (route : Route) (hroute : serveMux S.routes r.method r.escapedPath = some route)
      (hsize : tooLarge S r route = true)
  | token (route : Route) (auth : AuthConfig)
      (hroute : serveMux S.routes r.method r.escapedPath = some route)
      (hrole : roleOf S route = some auth) (htoken : auth.apiToken ≠ [])
      (hrefused : extractBearer (Str.ofBytes r.authorization) ≠ (auth.apiToken, true))
  | signature (route : Route) (auth : AuthConfig) (message : Str)
      (hroute : serveMux S.routes r.method r.escapedPath = some route)
      (hrole : roleOf S route = some auth) (hsecret : auth.signSecret ≠ [])
      (hrefused : checkSignature crypto S.signSkew auth.signSecret.bytes r (signedBody r route)
        visit.sinceNow visit.untilNow = .error message)

variable {crypto : Crypto} {S : ServerConfig} {visit : Visit} {r : Request} {s : ServerState}

/-! ## What is authorised -/

/-- What passes the checks of a signature is signed. -/
theorem hexDecode_of_checkSignature {skew : ℤ} {secret body : Bytes} {sinceNow untilNow : Instant}
    {p : ℤ × Bytes}
    (h : checkSignature crypto skew secret r body sinceNow untilNow = .ok p) :
    hexDecode r.signature.bytes = some (crypto.hmac secret (r.signedText crypto body)) := by
  unfold checkSignature at h
  split_ifs at h
  split at h
  · cases h
  · split_ifs at h
    split at h
    · cases h
    · next provided hprovided =>
      simp only [hexDecode_signRequest, Option.getD_some] at h
      split_ifs at h with hne
      rw [hprovided, not_not.mp hne]
      rfl

/-- A request that `authorize` lets pass is credentialed, if the role has credentials. -/
theorem credentialed_of_authorize {skew : ℤ} {auth : AuthConfig} (hcomplete : auth.Complete)
    {body : Bytes} {sinceNow untilNow addNow : Instant} {store : NonceStore}
    (h : (authorize crypto skew auth r body sinceNow untilNow addNow store).1 = none) :
    Credentialed crypto auth r body := by
  unfold authorize at h
  cases hbearer : extractBearer (Str.ofBytes r.authorization) with
  | mk token ok =>
      rw [hbearer] at h
      simp only at h
      by_cases hrefused : auth.apiToken ≠ [] ∧ (token = [] ∨ token ≠ auth.apiToken ∨ ok = false)
      · rw [if_pos hrefused] at h
        cases h
      · rw [if_neg hrefused, if_pos hcomplete.2] at h
        have hpassed := not_or.mp (not_and.mp hrefused hcomplete.1)
        obtain ⟨htoken, hok⟩ := not_or.mp hpassed.2
        refine ⟨hcomplete, ?_, ?_⟩
        · rw [hbearer, not_not.mp htoken, (Bool.not_eq_false ok).mp hok]
        · unfold verifySignature at h
          cases hcheck : checkSignature crypto skew auth.signSecret.bytes r body sinceNow untilNow with
          | error message =>
              rw [hcheck] at h
              cases h
          | ok p => exact hexDecode_of_checkSignature hcheck

/-- The method of a request tells the role of its route, and the body that is signed. -/
theorem role_of_serveMux {route : Route}
    (hroute : serveMux S.routes r.method r.escapedPath = some route) :
    (r.method = bytesOf "POST" ∧ route = .post) ∨
    (r.method = bytesOf "DELETE" ∧ roleOf S route = some S.deleteAuth ∧ signedBody r route = []) ∨
    (r.method ≠ bytesOf "POST" ∧ r.method ≠ bytesOf "DELETE" ∧ (route = .health ∨ route = .query)) := by
  obtain ⟨segments, -, hroute⟩ := Option.bind_eq_some_iff.mp hroute
  by_cases hget : r.method = bytesOf "GET" ∨ r.method = bytesOf "HEAD"
  · rw [if_pos hget] at hroute
    have hother : r.method ≠ bytesOf "POST" ∧ r.method ≠ bytesOf "DELETE" := by
      rcases hget with hget | hget <;> rw [hget] <;> decide +kernel
    refine Or.inr (Or.inr ⟨hother.1, hother.2, ?_⟩)
    split_ifs at hroute <;> cases hroute
    · exact Or.inl rfl
    · exact Or.inr rfl
  · rw [if_neg hget] at hroute
    by_cases hpost : r.method = bytesOf "POST"
    · rw [if_pos hpost] at hroute
      split_ifs at hroute
      cases hroute
      exact Or.inl ⟨hpost, rfl⟩
    · rw [if_neg hpost] at hroute
      by_cases hdelete : r.method = bytesOf "DELETE"
      · refine Or.inr (Or.inl ⟨hdelete, ?_⟩)
        rw [if_pos hdelete] at hroute
        by_cases hquery : segments = S.routes.queryRoute
        · rw [if_pos hquery] at hroute
          cases hroute
          exact ⟨rfl, rfl⟩
        · rw [if_neg hquery] at hroute
          split at hroute
          · split_ifs at hroute
            cases hroute
            exact ⟨rfl, rfl⟩
          · split_ifs at hroute
            cases hroute
            exact ⟨rfl, rfl⟩
          · cases hroute
      · rw [if_neg hdelete] at hroute
        cases hroute

/-! ## What a request does -/

/-- A request is answered by the router, or refused, or authorised if its route needs that. -/
theorem serve_cases (crypto : Crypto) (S : ServerConfig) (visit : Visit) (r : Request)
    (s : ServerState) :
    serve crypto S visit r s = (visit.unrouted, s) ∨
    (∃ message, serve crypto S visit r s = (.error 413 message, s)) ∨
    ∃ route, serveMux S.routes r.method r.escapedPath = some route ∧
      ((roleOf S route = none ∧ serve crypto S visit r s = dispatch S visit r route s) ∨
      ∃ auth, roleOf S route = some auth ∧
        ((∃ message nonces, serve crypto S visit r s = (.error 401 message, { s with nonces })) ∨
        ∃ nonces, (authorize crypto S.signSkew auth r (signedBody r route) visit.sinceNow visit.untilNow
            visit.addNow s.nonces).1 = none ∧
          serve crypto S visit r s = dispatch S visit r route { s with nonces })) := by
  unfold serve
  cases hroute : serveMux S.routes r.method r.escapedPath with
  | none => exact Or.inl rfl
  | some route =>
      refine Or.inr ?_
      simp only
      by_cases hsize : tooLarge S r route = true
      · rw [if_pos hsize]
        exact Or.inl ⟨_, rfl⟩
      · rw [if_neg hsize]
        refine Or.inr ⟨route, rfl, ?_⟩
        cases hrole : roleOf S route with
        | none => exact Or.inl ⟨rfl, rfl⟩
        | some auth =>
            refine Or.inr ⟨auth, rfl, ?_⟩
            simp only
            cases hauth : authorize crypto S.signSkew auth r (signedBody r route) visit.sinceNow
                visit.untilNow visit.addNow s.nonces with
            | mk refusal nonces =>
                cases refusal with
                | none => exact Or.inr ⟨nonces, rfl, rfl⟩
                | some message => exact Or.inl ⟨message, nonces, rfl⟩

/-- Only a reply of status 200 returns records. -/
theorem status_of_returnsRecords {reply : Reply} (h : ReturnsRecords reply) : reply.status = 200 := by
  obtain ⟨page, limit, offset, -, rfl⟩ := h
  rfl

/-- The reply of `health` returns none. -/
theorem not_returnsRecords_health (now : Instant) :
    ¬ ReturnsRecords (.json 200 (healthJSON now)) := by
  rintro ⟨page, limit, offset, -, heq⟩
  -- the names of the first fields differ
  have hbody := congrArg (fun reply => reply.body.take 3) heq
  have hhealth : (Reply.json 200 (healthJSON now)).body.take 3 = Str.lit "\x7b\"s" := rfl
  have hquery : (Reply.json 200 (queryJSON page limit offset)).body.take 3 = Str.lit "\x7b\"c" := rfl
  simp only [hhealth, hquery] at hbody
  exact absurd hbody (by decide)

variable (visit r s) in
/-- `health` is open to everyone, changes nothing and returns no records. -/
theorem dispatch_of_roleOf_none {route : Route} (hrole : roleOf S route = none) :
    (dispatch S visit r route s).2 = s ∧ ¬ ReturnsRecords (dispatch S visit r route s).1 := by
  cases route with
  | health => exact ⟨rfl, not_returnsRecords_health visit.now⟩
  | post | query | delete | deleteByID | deleteByKey => cases hrole

/-- A request that is rejected before its nonce is used changes nothing. -/
theorem serve_of_rejectedEarly (h : RejectedEarly crypto S visit r) (s : ServerState) :
    (serve crypto S visit r s).2 = s := by
  -- a refusal that leaves the nonces as they were leaves the server as it was
  have hrefused : ∀ {route auth}, serveMux S.routes r.method r.escapedPath = some route →
      roleOf S route = some auth → (∃ message,
        authorize crypto S.signSkew auth r (signedBody r route) visit.sinceNow visit.untilNow
          visit.addNow s.nonces = (some message, s.nonces)) → (serve crypto S visit r s).2 = s := by
    rintro route auth hroute hrole ⟨message, hauth⟩
    unfold serve
    rw [hroute]
    simp only [hrole]
    split_ifs
    · rfl
    · rw [hauth]
  cases h with
  | unrouted hroute =>
      unfold serve
      rw [hroute]
  | tooLarge route hroute hsize =>
      unfold serve
      rw [hroute]
      simp only [hsize, if_true]
  | token route auth hroute hrole htoken hbearer =>
      refine hrefused hroute hrole ⟨Str.lit "invalid or missing bearer token", ?_⟩
      unfold authorize
      cases hparts : extractBearer (Str.ofBytes r.authorization) with
      | mk token ok =>
          rw [hparts] at hbearer
          simp only
          rw [if_pos]
          refine ⟨htoken, Or.inr ?_⟩
          by_contra hpassed
          obtain ⟨heq, hok⟩ := not_or.mp hpassed
          exact hbearer (by rw [not_not.mp heq, (Bool.not_eq_false ok).mp hok])
  | signature route auth message hroute hrole hsecret hcheck =>
      refine hrefused hroute hrole ?_
      unfold authorize
      cases extractBearer (Str.ofBytes r.authorization) with
      | mk token ok =>
          simp only
          split_ifs
          · exact ⟨_, rfl⟩
          · refine ⟨message, ?_⟩
            rw [verifySignature, hcheck]

/-! ## The credentials of a loaded configuration -/

/-- The roles of a server that is loaded under `REQUIRE_AUTH` have the credentials of the environment,
and these are complete. -/
theorem role_of_loaded {getenv : Str → Str} {sqliteDSN : Option Str} {loaded : LoadedConfig}
    (hload : loadConfig getenv sqliteDSN = .ok loaded) (hrequire : loaded.requireAuth = true)
    {routes : Routes} {hours : ℤ} {hhours : 168 ≤ hours} {route : Route} {auth : AuthConfig}
    (hroute : serveMux routes r.method r.escapedPath = some route)
    (hrole : roleOf (loaded.server routes hours hhours) route = some auth) :
    auth = credentialsFor getenv r.method ∧ auth.Complete ∧ signedBody r route = bodyFor r := by
  obtain ⟨hwrite, hread, hdelete⟩ := auth_of_loadConfig getenv hload
  obtain ⟨hcwrite, hcread, hcdelete⟩ := loaded.credentials hrequire
  unfold credentialsFor bodyFor
  rcases role_of_serveMux (S := loaded.server routes hours hhours) hroute with
    ⟨hmethod, rfl⟩ | ⟨hmethod, hrole', hbody⟩ | ⟨hpost, hdel, hquery⟩
  · cases hrole
    rw [if_pos hmethod, if_pos hmethod]
    exact ⟨hwrite, hcwrite, rfl⟩
  · have hne : r.method ≠ bytesOf "POST" := by
      rw [hmethod]
      decide +kernel
    rw [hrole] at hrole'
    cases hrole'
    rw [if_neg hne, if_pos hmethod, if_neg hne]
    exact ⟨hdelete, hcdelete, hbody⟩
  · rw [if_neg hpost, if_neg hdel, if_neg hpost]
    rcases hquery with rfl | rfl
    · cases hrole
    · cases hrole
      exact ⟨hread, hcread, rfl⟩

/-- Whatever the server holds: a request that changes a table or is answered with records is
credentialed for the role of its method, and one that is rejected before its nonce is used changes
nothing. -/
theorem credentialed_of_effect {getenv : Str → Str} {sqliteDSN : Option Str} {loaded : LoadedConfig}
    (hload : loadConfig getenv sqliteDSN = .ok loaded) (hrequire : loaded.requireAuth = true)
    (hmux : visit.unrouted.status ≠ 200) (crypto : Crypto) (routes : Routes) {hours : ℤ}
    (hhours : 168 ≤ hours) (r : Request) (s : ServerState) :
    ((serve crypto (loaded.server routes hours hhours) visit r s).2.db ≠ s.db ∨
        ReturnsRecords (serve crypto (loaded.server routes hours hhours) visit r s).1 →
      Credentialed crypto (credentialsFor getenv r.method) r (bodyFor r)) ∧
    (RejectedEarly crypto (loaded.server routes hours hhours) visit r →
      (serve crypto (loaded.server routes hours hhours) visit r s).2 = s) := by
  refine ⟨fun heffect => ?_, fun hrejected => serve_of_rejectedEarly hrejected s⟩
  -- a reply of another status, with the tables as they were, is no effect
  have hquiet : ∀ {reply : Reply} {s' : ServerState},
      serve crypto (loaded.server routes hours hhours) visit r s = (reply, s') →
        reply.status ≠ 200 → s'.db = s.db → False := by
    intro reply s' hserve hstatus hdb
    rw [hserve] at heffect
    exact heffect.elim (fun hne => hne hdb) fun hreturns => hstatus (status_of_returnsRecords hreturns)
  rcases serve_cases crypto (loaded.server routes hours hhours) visit r s with
    hserve | ⟨message, hserve⟩ | ⟨route, hroute, hrest⟩
  · exact (hquiet hserve hmux rfl).elim
  · have hstatus : 413 ≠ 200 := by decide
    exact (hquiet hserve hstatus rfl).elim
  · rcases hrest with ⟨hrole, hserve⟩ | ⟨auth, hrole, ⟨message, nonces, hserve⟩ | ⟨nonces, hauth, -⟩⟩
    · obtain ⟨hstate, hnone⟩ := dispatch_of_roleOf_none visit r s hrole
      rw [hserve, hstate] at heffect
      exact (heffect.elim (fun hne => hne rfl) hnone).elim
    · have hstatus : 401 ≠ 200 := by decide
      exact (hquiet hserve hstatus rfl).elim
    · obtain ⟨rfl, hcomplete, hbody⟩ := role_of_loaded hload hrequire hroute hrole
      rw [← hbody]
      exact credentialed_of_authorize hcomplete hauth

/-! ## Bodies that are not signed -/

/-- An environment with one token and one secret for all roles. -/
def sampleEnv (name : Str) : Str :=
  if name = Str.lit "API_TOKEN" then Str.lit "token"
  else if name = Str.lit "SIGN_SECRET" then Str.lit "secret"
  else []

theorem isSome_sampleEnv : (loadConfig sampleEnv (some [])).toOption.isSome = true := by decide +kernel

/-- Its configuration. -/
def sampleLoaded : LoadedConfig := (loadConfig sampleEnv (some [])).toOption.get isSome_sampleEnv

theorem loadConfig_sampleEnv : loadConfig sampleEnv (some []) = .ok sampleLoaded := by
  have hget := Option.some_get isSome_sampleEnv
  cases h : loadConfig sampleEnv (some []) with
  | error e =>
      have hsome := isSome_sampleEnv
      rw [h] at hsome
      cases hsome
  | ok loaded =>
      simp only [h, sampleLoaded, Except.toOption, Option.get_some]

/-- Its server, with the routes that it has by default. -/
def loadedServer : ServerConfig := sampleLoaded.server sampleServer.routes 168 (le_refl _)

/-- Hash functions under which the body of a request counts: the end of a text stands for its
digest. -/
def endOf (text : Bytes) : Bytes := ((text.reverse ++ List.replicate 32 0).take 32).reverse

theorem length_endOf (text : Bytes) : (endOf text).length = 32 := by
  rw [endOf, List.length_reverse, List.length_take, List.length_append, List.length_replicate]
  omega

def endCrypto : Crypto where
  sha256 := endOf
  hmac := fun _ => endOf
  length_sha256 := length_endOf
  length_hmac := fun _ => length_endOf

/-- A request, signed over a body. -/
def signedOver (r : Request) (body : Bytes) : Request :=
  { r with xSignature := hexEncode (endCrypto.hmac (bytesOf "secret") (r.signedText endCrypto body)) }

/-- An upload of one record, and a query that brings a body and is signed over the empty one. -/
def signedUpload : Request :=
  signedOver (uploadOf "2026-08-20T16:00:00Z") (uploadOf "2026-08-20T16:00:00Z").body
def queryWithBody : Request := signedOver { sampleRequest with body := bytesOf "unsigned" } []

theorem credentialed_of_effect_sample :
    loadConfig sampleEnv (some []) = .ok sampleLoaded ∧ sampleLoaded.requireAuth = true ∧
      (((serve endCrypto loadedServer (visitAt sampleSecond) signedUpload
            ⟨⟨.empty, .empty⟩, []⟩).2.db ≠ ⟨.empty, .empty⟩ ∨
          ReturnsRecords (serve endCrypto loadedServer (visitAt sampleSecond) signedUpload
            ⟨⟨.empty, .empty⟩, []⟩).1 →
        Credentialed endCrypto (credentialsFor sampleEnv signedUpload.method) signedUpload
          (bodyFor signedUpload)) ∧
      (RejectedEarly endCrypto loadedServer (visitAt sampleSecond) signedUpload →
        (serve endCrypto loadedServer (visitAt sampleSecond) signedUpload ⟨⟨.empty, .empty⟩, []⟩).2 =
          ⟨⟨.empty, .empty⟩, []⟩)) := by
  have hrequire : sampleLoaded.requireAuth = true := by decide +kernel
  have hmux : (visitAt sampleSecond).unrouted.status ≠ 200 := by decide
  have hloaded : loadedServer = sampleLoaded.server sampleServer.routes 168 (le_refl _) := rfl
  rw [hloaded]
  exact ⟨loadConfig_sampleEnv, hrequire, credentialed_of_effect loadConfig_sampleEnv hrequire hmux
    endCrypto sampleServer.routes (le_refl 168) signedUpload ⟨⟨.empty, .empty⟩, []⟩⟩

/-- The query is authorised, and there is a record that it selects. -/
def queryPasses (s : ServerState) : Bool :=
  (authorize endCrypto loadedServer.signSkew loadedServer.readAuth queryWithBody
      (signedBody queryWithBody .query) sampleSecond sampleSecond sampleSecond s.nonces).1 = none &&
    (match asked loadedServer (visitAt sampleSecond) queryWithBody .query with
    | .query (some f) includeRaw => (pageOf some s.db.records f includeRaw).length != 0
    | _ => false)

/-- What it is answered then. -/
theorem returnsRecords_of_queryPasses {s : ServerState} (h : queryPasses s = true) :
    ReturnsRecords (serve endCrypto loadedServer (visitAt sampleSecond) queryWithBody s).1 := by
  obtain ⟨hauth, hpage⟩ := Bool.and_eq_true_iff.mp h
  have hroute : serveMux loadedServer.routes queryWithBody.method queryWithBody.escapedPath =
      some .query := by decide +kernel
  rw [(@serve_of_authorised endCrypto loadedServer (visitAt sampleSecond) queryWithBody .query _ s hroute
    rfl rfl (of_decide_eq_true hauth)).1]
  cases hasked : asked loadedServer (visitAt sampleSecond) queryWithBody .query with
  | query filter includeRaw =>
      rw [hasked] at hpage
      cases filter with
      | none => cases hpage
      | some f =>
          refine ⟨_, f.limit, f.offset, ?_, rfl⟩
          intro hnil
          simp only [visitAt] at hnil
          simp only at hpage
          rw [hnil] at hpage
          cases hpage
  | report | store | deleteID | deleteKey | refuse =>
      rw [hasked] at hpage
      cases hpage

/-- A query that brings a body is answered with a record, although it is signed over the empty body
and not over its own. -/
theorem not_credentialed_body : loadConfig sampleEnv (some []) = .ok sampleLoaded ∧
    sampleLoaded.requireAuth = true ∧
    ∃ s, (receiver endCrypto loadedServer).Reachable s ∧
      ReturnsRecords (serve endCrypto loadedServer (visitAt sampleSecond) queryWithBody s).1 ∧
      ¬ Credentialed endCrypto (credentialsFor sampleEnv queryWithBody.method) queryWithBody
        queryWithBody.body := by
  obtain ⟨s, hs, hpasses⟩ := System.exists_of_exec (S := receiver endCrypto loadedServer)
    (K := fun _ _ => True) (P := queryPasses) (s := ⟨⟨.empty, .empty⟩, []⟩)
    (l := [(visitAt sampleSecond, signedUpload)]) ⟨rfl, rfl⟩ (by decide +kernel)
  refine ⟨loadConfig_sampleEnv, by decide +kernel, s, hs, returnsRecords_of_queryPasses hpasses,
    fun h => ?_⟩
  exact absurd h.signature (by decide +kernel)

end WeighingSync.Receiver
