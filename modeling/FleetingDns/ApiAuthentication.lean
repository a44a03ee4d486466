import FleetingDns.ApiTokens
import FleetingDns.EdgeRouter
import FleetingDns.RateLimitTables
namespace FleetingDns.Auth

open EdfCa ExpiringStore GuardedRuns Panics RateLimits EdgeRouter RateLimitState

abbrev HeaderValue := List Byte

abbrev HeaderMap := List (String × HeaderValue)

def HeaderMap.get (headers : HeaderMap) (name : String) : Option HeaderValue := (headers.find? (·.1 = name)).map Prod.snd

def HeaderValue.toStr (value : HeaderValue) : Option String :=
  if value.all fun b => (32 ≤ b.val && b.val < 127) || b.val == 9 then
    some (String.ofList (value.map fun b => Char.ofNat b.val))
  else none

def bearer : String := "Bearer "

def stripBearer (auth : String) : Option String :=
  if bearer.toList.isPrefixOf auth.toList then some (String.ofList (auth.toList.drop bearer.length)) else none

def extractBearerTokenWithDevBypass (headers : HeaderMap) (developmentMode : Bool) : Except AuthError String :=
  if developmentMode && (headers.get "x-development-bypass").bind HeaderValue.toStr == some "true" then
    .ok devBypassToken
  else
    match headers.get "authorization" with
    | none => .error (.authenticationFailed "Missing Authorization header")
    | some authHeader =>
      match HeaderValue.toStr authHeader with
      | none => .error (.authenticationFailed "Invalid Authorization header")
      | some auth =>
        match stripBearer auth with
        | none => .error (.authenticationFailed "Authorization header must start with 'Bearer '")
        | some token =>
          if !developmentMode && trim token.toList == devBypassToken.toList then
            .error (.authenticationFailed "Development bypass token is not accepted")
          else .ok token

def extractBearerToken (headers : HeaderMap) : Except AuthError String := extractBearerTokenWithDevBypass headers false

def publicPaths : List String := ["/health", "/v1/auth/github", "/v1/auth/token", "/metrics", "/docs", "/openapi.json"]

def isPublicEndpoint (path : String) : Bool := publicPaths.any fun publicPath => publicPath.toList.isPrefixOf path.toList

inductive Endpoint where
  | healthCheck
  | githubOauth
  | exchangeToken
  | getGithubOauthUrl
  | createTunnel
  | getTunnel
  | deleteTunnel
  | listTunnels
  | createTunnelSession
  | getTunnelHealth
  | getBulkTunnelHealth
  | issueCertificate
  | getCertificate
  | getStats
  | getRateLimitPolicy
  | updateRateLimitPolicy
  | createServicePlan
  | listServicePlans
  | getServicePlan
  | updateServicePlan
  | deleteServicePlan
  | assignServicePlanToUser
  | getMyServicePlan
  | getMyServicePlanUsage
  | getAvailableServicePlans
  | requestServicePlanChange
  | getQuotaInfo
  | checkOperationAllowed
  | resetUserUsage
  | getAllUsersQuotaStatus
  deriving DecidableEq

def Endpoint.extractor (developmentMode : Bool) : Endpoint → Option (HeaderMap → Except AuthError String)
  | healthCheck | githubOauth | exchangeToken | getGithubOauthUrl => none
  | createTunnel | getTunnel | deleteTunnel | listTunnels | createTunnelSession | getTunnelHealth | getBulkTunnelHealth
  | issueCertificate | getCertificate | getStats => some (extractBearerTokenWithDevBypass · developmentMode)
  | getRateLimitPolicy | updateRateLimitPolicy | createServicePlan | listServicePlans | getServicePlan | updateServicePlan
  | deleteServicePlan | assignServicePlanToUser | getMyServicePlan | getMyServicePlanUsage | getAvailableServicePlans
  | requestServicePlanChange | getQuotaInfo | checkOperationAllowed | resetUserUsage | getAllUsersQuotaStatus =>
    some extractBearerToken

structure Request where
  (method path : String)
  headers : HeaderMap
  endpoint : Endpoint
  (arrivedAt checkedAt : ℕ)
  (middlewareAt handlerAt : Timestamp)

structure ApiProcess (F L : Type) where
  developmentMode : Bool
  jwtSecret : String
  rateLimitConfig : RateLimitConfig F
  rateLimiter : RateLimitState F L String

inductive Served where
  | panicked (msg : String)
  | limited (msg : String)
  | unauthorized (e : AuthError)
  | handled (middleware : Option GitHubUser) (handler : Except AuthError (Option GitHubUser))

def contains (text part : String) : Bool := text.toList.tails.any part.toList.isPrefixOf

namespace ApiProcess

section

variable {F L : Type} (float : Binary64 F) (governor : Governor L) (md5 : String → List Byte)
  (parseIp : String → Option String)

def runWithConfig (developmentMode : Bool) (jwtSecret : String) : ApiProcess F L :=
  ⟨developmentMode, jwtSecret, .default float,
    if developmentMode then new.addBypassToken devBypassToken else .new⟩

section

variable (p : ApiProcess F L)

def authMiddleware (headers : HeaderMap) (path : String) (now : Timestamp) : Except AuthError (Option GitHubUser) :=
  if isPublicEndpoint path then .ok none
  else do
    let token ← extractBearerTokenWithDevBypass headers p.developmentMode
    let user ← validateJwtToken md5 token p.jwtSecret now
    return some user

def authenticate (endpoint : Endpoint) (headers : HeaderMap) (now : Timestamp) : Except AuthError (Option GitHubUser) :=
  match endpoint.extractor p.developmentMode with
  | none => .ok none
  | some extract => do
    let token ← extract headers
    let user ← validateJwtToken md5 token p.jwtSecret now
    return some user

def clientIp (headers : HeaderMap) : String :=
  ((((headers.get "x-forwarded-for").or (headers.get "x-real-ip")).bind HeaderValue.toStr).bind fun ips =>
    parseIp (String.ofList (trim (ips.toList.takeWhile (· ≠ ','))))).getD "127.0.0.1"

def tokenOf (headers : HeaderMap) : String :=
  (((headers.get "authorization").bind HeaderValue.toStr).bind stripBearer).getD "anonymous"

def limitKind (method path : String) : Kind :=
  if contains path "/tunnels" && method == "POST" then .tunnel
  else if contains path "/dns" || contains path "/domains" then .dns
  else .api

def rateLimitMiddleware (r : Request) : Checked × ApiProcess F L :=
  let token := tokenOf r.headers
  match checkIpRateLimit p.rateLimitConfig p.rateLimiter (clientIp parseIp r.headers) r.arrivedAt with
  | (.returned (.ok ()), limiter) =>
    let checked := check float governor p.rateLimitConfig limiter (limitKind r.method r.path) token r.checkedAt
    (checked.1, { p with rateLimiter := checked.2 })
  | (stopped, limiter) => (stopped, { p with rateLimiter := limiter })

def serve (r : Request) : Served × ApiProcess F L :=
  match p.rateLimitMiddleware float governor parseIp r with
  | (.panicked msg, p) => (.panicked msg, p)
  | (.returned (.error e), p) => (.limited e, p)
  | (.returned (.ok ()), p) =>
    match p.authMiddleware md5 r.headers r.path r.middlewareAt with
    | .error e => (.unauthorized e, p)
    | .ok user => (.handled user (p.authenticate md5 r.endpoint r.headers r.handlerAt), p)

def step (r : Request) : Option (ApiProcess F L) := some (p.serve float governor md5 parseIp r).2

end

end

end ApiProcess

variable {F L : Type} {float : Binary64 F} {governor : Governor L} {md5 : String → List Byte}
  {parseIp : String → Option String} {secret token : String} {headers : HeaderMap} {user : GitHubUser}
  {p p' : ApiProcess F L} {now : Timestamp}

def Backed (md5 : String → List Byte) (secret : String) (headers : HeaderMap) (user : GitHubUser) : Prop :=
  ∃ value auth token ts, headers.get "authorization" = some value ∧ HeaderValue.toStr value = some auth ∧
    stripBearer auth = some token ∧ token ≠ devBypassToken ∧ Vouched md5 secret token user.id user.login ts ∧
    user = tokenUser user.id user.login

lemma trim_devBypassToken : trim devBypassToken.toList = devBypassToken.toList := by decide

lemma extract_production (h : extractBearerToken headers = .ok token) :
    ∃ value auth, headers.get "authorization" = some value ∧ HeaderValue.toStr value = some auth ∧
      stripBearer auth = some token ∧ token ≠ devBypassToken := by
  rw [extractBearerToken, extractBearerTokenWithDevBypass] at h
  simp only [Bool.false_and, Bool.false_eq_true, ↓reduceIte, Bool.not_false, Bool.true_and, beq_iff_eq] at h
  rcases hget : headers.get "authorization" with _ | value
  · simp [hget] at h
  rcases hstr : HeaderValue.toStr value with _ | auth
  · simp [hget, hstr] at h
  rcases hstrip : stripBearer auth with _ | _
  · simp [hget, hstr, hstrip] at h
  simp only [hget, hstr, hstrip] at h
  split_ifs at h with htrim
  cases h
  refine ⟨value, auth, rfl, hstr, hstrip, ?_⟩
  rintro rfl
  exact htrim trim_devBypassToken

lemma backed_of_validated (ht : extractBearerToken headers = .ok token)
    (hv : validateJwtToken md5 token secret now = .ok user) : Backed md5 secret headers user := by
  obtain ⟨value, auth, hget, hstr, hstrip, hne⟩ := extract_production ht
  obtain ⟨id, login, ts, hvouched, -, rfl⟩ := validate_ok hne hv
  exact ⟨value, auth, token, ts, hget, hstr, hstrip, hne, hvouched, rfl⟩

lemma backed_of_identified
    (h : (do
    let token ← extractBearerToken headers
    let user ← validateJwtToken md5 token secret now
    return some user) = .ok (some user)) :
    Backed md5 secret headers user := by
  cases ht : extractBearerToken headers with
  | error =>
    rw [ht] at h
    cases h
  | ok token =>
    cases hv : validateJwtToken md5 token secret now with
    | error =>
      simp only [ht, bind, Except.bind, hv] at h
      cases h
    | ok =>
      simp only [ht, bind, Except.bind, hv] at h
      cases h
      exact backed_of_validated ht hv

namespace ApiProcess

structure Production (secret : String) (p : ApiProcess F L) : Prop where
  developmentMode : p.developmentMode = false
  jwtSecret : p.jwtSecret = secret
  bypassTokens : p.rateLimiter.bypassTokens = ∅

lemma check_bypassTokens (s : RateLimitState F L String) (kind : Kind) (token : String) (now : ℕ)
    (config : RateLimitConfig F) : (check float governor config s kind token now).2.bypassTokens = s.bypassTokens := by
  obtain hs | ⟨limiter, hs⟩ := check_state float governor config s kind token now <;> rw [hs]

lemma rateLimitMiddleware_frame (float : Binary64 F) (governor : Governor L) (parseIp : String → Option String)
    (p : ApiProcess F L) (r : Request) :
    (p.rateLimitMiddleware float governor parseIp r).2.developmentMode = p.developmentMode ∧
      (p.rateLimitMiddleware float governor parseIp r).2.jwtSecret = p.jwtSecret ∧
      (p.rateLimitMiddleware float governor parseIp r).2.rateLimiter.bypassTokens = p.rateLimiter.bypassTokens := by
  rw [rateLimitMiddleware, checkIpRateLimit]
  rcases (checkIp p.rateLimitConfig _ r.arrivedAt).1 with (_ | _) | _
  · exact ⟨rfl, rfl, rfl⟩
  · exact ⟨rfl, rfl, check_bypassTokens _ _ _ _ _⟩
  · exact ⟨rfl, rfl, rfl⟩

lemma serve_process (p : ApiProcess F L) (r : Request) :
    (p.serve float governor md5 parseIp r).2 = (p.rateLimitMiddleware float governor parseIp r).2 := by
  rw [serve]
  rcases p.rateLimitMiddleware float governor parseIp r with ⟨(_ | _) | _, q⟩
  · rfl
  · simp only
    cases q.authMiddleware md5 r.headers r.path r.middlewareAt <;> rfl
  · rfl

lemma production_step {r : Request} (hp : Production secret p) (h : step float governor md5 parseIp p r = some p') :
    Production secret p' := by
  cases h
  obtain ⟨hmode, hsecret, htokens⟩ := rateLimitMiddleware_frame float governor parseIp p r
  rw [serve_process]
  exact ⟨hmode.trans hp.developmentMode, hsecret.trans hp.jwtSecret, htokens.trans hp.bypassTokens⟩

lemma reach_production (h : Reach (step float governor md5 parseIp) Free (runWithConfig float false secret) p) : Production secret p := by
  induction h with
  | refl => exact ⟨rfl, rfl, rfl⟩
  | tail _ _ hs ih => exact production_step ih hs

lemma extractor_production {endpoint : Endpoint} {extract : HeaderMap → Except AuthError String}
    (h : endpoint.extractor false = some extract) : extract = extractBearerToken := by
  cases endpoint <;> cases h <;> rfl

theorem no_development_bypass (h : Reach (step float governor md5 parseIp) Free (runWithConfig float false secret) p) :
    (∀ token, p.rateLimiter.isBypassToken token = false) ∧
    (∀ headers path now user, p.authMiddleware md5 headers path now = .ok (some user) → Backed md5 secret headers user) ∧
    ∀ endpoint headers now user, p.authenticate md5 endpoint headers now = .ok (some user) →
      Backed md5 secret headers user := by
  obtain ⟨hmode, hsecret, htokens⟩ := reach_production h
  refine ⟨?_, ?_, ?_⟩
  · intro token
    simp [isBypassToken, htokens]
  · intro headers path now user hok
    rw [authMiddleware, hmode, hsecret] at hok
    split_ifs at hok
    · cases hok
    · exact backed_of_identified hok
  · intro endpoint headers now user hok
    rw [authenticate, hmode, hsecret] at hok
    cases hextract : endpoint.extractor false with
    | none =>
      rw [hextract] at hok
      cases hok
    | some =>
      rw [hextract, extractor_production hextract] at hok
      exact backed_of_identified hok

def withToken (token : String) : HeaderMap :=
  [("authorization", (bearer ++ token).toList.map fun c => ⟨c.toNat % 256, Nat.mod_lt _ (by decide)⟩)]

def launched : ApiProcess ℚ Gcra := runWithConfig exact false "secret"

theorem no_development_bypass_alice :
    (∀ token, launched.rateLimiter.isBypassToken token = false) ∧
    launched.authenticate zeroDigest .getStats
      (withToken " dev-bypass-token ") ⟨1700000060, by decide⟩ =
      .error (.authenticationFailed "Development bypass token is not accepted") ∧
    Backed zeroDigest "secret" (withToken aliceToken) (tokenUser "1" "alice") := by
  have h : Reach (step exact gcra zeroDigest fun _ => none) Free launched launched := .refl
  obtain ⟨hlimiter, -, hhandler⟩ := no_development_bypass h
  refine ⟨hlimiter, by decide +kernel, ?_⟩
  exact hhandler .getStats (withToken aliceToken) ⟨1700000060, by decide⟩ (tokenUser "1" "alice") (by decide +kernel)

end ApiProcess

end FleetingDns.Auth
