import FleetingDns.Library.FixedWindow
import FleetingDns.Library.Panics
import FleetingDns.Library.Tables
import Mathlib.Data.Rat.Init
namespace FleetingDns.RateLimits

open Panics FixedWindow ExpiringStore

/-- The operations on 64-bit floats that the limits are computed with: `literal` rounds, `toU32` saturates. -/
structure Binary64 (F : Type) where
  literal : ℚ → F
  ofU32 : ℕ → F
  toU32 : F → ℕ
  lt : F → F → Bool
  (sub mul : F → F → F)

structure Quota where
  (perMinute maxBurst : ℕ)
  deriving DecidableEq

/-- The limiter library: a keyed limiter is built from a quota and decides on the checks it is given. -/
structure Governor (L : Type) where
  keyed : Quota → L
  checkKey : L → String → ℕ → Bool × L

structure Gcra where
  (interval tolerance : ℕ)
  arrivals : AList fun _ : String => ℕ

def gcra : Governor Gcra where
  keyed quota :=
    let interval := 60 * second / quota.perMinute
    ⟨interval, interval * quota.maxBurst, ∅⟩
  checkKey limiter key now :=
    let arrival := (limiter.arrivals.lookup key).getD (now + limiter.interval)
    if now < arrival - limiter.tolerance then (false, limiter)
    else (true, { limiter with arrivals := limiter.arrivals.insert key (max arrival now + limiter.interval) })

def exact : Binary64 ℚ where
  literal := id
  ofU32 n := n
  toU32 x := min x.floor.toNat (2 ^ 32 - 1)
  lt x y := decide (x < y)
  sub x y := x - y
  mul x y := x * y

structure UserTier (F : Type) where
  (apiRequestsPerMinute tunnelRequestsPerMinute dnsRequestsPerMinute : ℕ)
  burstMultiplier : F
  bypassRateLimits : Bool

structure DdosProtection where
  (maxRequestsPerIpPerMinute ipBlockDurationSeconds : ℕ)

structure RateLimitConfig (F : Type) where
  userTiers : AList fun _ : String => UserTier F
  ddosProtection : DdosProtection
  dynamicAdjustment : Bool
  loadThreshold : F

def RateLimitConfig.default {F : Type} (float : Binary64 F) : RateLimitConfig F where
  userTiers := [⟨"Free", ⟨60, 10, 100, float.literal 1, false⟩⟩, ⟨"Pro", ⟨300, 50, 500, float.literal 2, false⟩⟩,
    ⟨"Enterprise", ⟨1000, 200, 2000, float.literal 3, true⟩⟩].toAList
  ddosProtection := ⟨1000, 3600⟩
  dynamicAdjustment := true
  loadThreshold := float.literal 0.8

inductive Kind where
  | api
  | tunnel
  | dns
  deriving DecidableEq

abbrev IpRateLimit := Counter

structure RateLimitState (F L Ip : Type) where
  limiters : Kind → AList fun _ : String => L
  userTiers : AList fun _ : String => String
  bypassTokens : AList fun _ : String => Bool
  ipLimiters : AList fun _ : Ip => IpRateLimit
  systemLoad : Option F

def unwrapped : Checked := .panicked "called `Option::unwrap()` on a `None` value"

section

variable {F L Ip : Type} (float : Binary64 F) (governor : Governor L) (config : RateLimitConfig F)

namespace RateLimitState

def new : RateLimitState F L Ip := ⟨fun _ => ∅, ∅, ∅, ∅, none⟩

variable (s : RateLimitState F L Ip)

section

variable (token : String)

def setUserTier (tier : String) : RateLimitState F L Ip := { s with userTiers := s.userTiers.insert token tier }

def addBypassToken : RateLimitState F L Ip := { s with bypassTokens := s.bypassTokens.insert token true }

def removeBypassToken : RateLimitState F L Ip := { s with bypassTokens := s.bypassTokens.erase token }

def isBypassToken : Bool := (s.bypassTokens.lookup token).isSome

def getUserTier : String := (s.userTiers.lookup token).getD "Free"

end

def updateSystemLoad (load : F) : RateLimitState F L Ip := { s with systemLoad := some load }

def getSystemLoad : F := s.systemLoad.getD (float.literal 0)

end RateLimitState

def checkIp (limit : IpRateLimit) (now : ℕ) : Checked × IpRateLimit :=
  if limit.blockedUntil.any (now < ·) then
    (.returned (.error "IP is temporarily blocked due to abuse"), limit)
  else
    let limit := restart (60 * second) limit now
    if limit.requests ≥ config.ddosProtection.maxRequestsPerIpPerMinute then
      match checkedAdd now (config.ddosProtection.ipBlockDurationSeconds * second) with
      | some blockedUntil => (.returned (.error "IP rate limit exceeded"), { limit with blockedUntil := some blockedUntil })
      | none => (.panicked "overflow when adding duration to instant", limit)
    else (.returned (.ok ()), { limit with requests := limit.requests + 1 })

def checkIpRateLimit [DecidableEq Ip] (s : RateLimitState F L Ip) (ip : Ip) (now : ℕ) : Checked × RateLimitState F L Ip :=
  let checked := checkIp config ((s.ipLimiters.lookup ip).getD ⟨0, now, none⟩) now
  (checked.1, { s with ipLimiters := s.ipLimiters.insert ip checked.2 })

def tierConfig (tier : String) : Option (UserTier F) := (config.userTiers.lookup tier).or (config.userTiers.lookup "Free")

def perMinute (requestsPerMinute : ℕ) : Option Quota :=
  if requestsPerMinute = 0 then none else some ⟨requestsPerMinute, requestsPerMinute⟩

def allowBurst (quota : Quota) (maxBurst : ℕ) : Option Quota :=
  if maxBurst = 0 then none else some { quota with maxBurst := maxBurst }

section

variable (load : F) (tier : UserTier F)

def apiQuota : Option Quota :=
  let requestsPerMinute := tier.apiRequestsPerMinute
  let requestsPerMinute :=
    if config.dynamicAdjustment && float.lt config.loadThreshold load then
      let reductionFactor :=
        float.sub (float.literal 1) (float.mul (float.sub load config.loadThreshold) (float.literal 0.5))
      float.toU32 (float.mul (float.ofU32 requestsPerMinute) reductionFactor)
    else requestsPerMinute
  perMinute requestsPerMinute

def tunnelQuota : Option Quota := do
  let burstQuota := float.toU32 (float.mul (float.ofU32 tier.tunnelRequestsPerMinute) tier.burstMultiplier)
  allowBurst (← perMinute tier.tunnelRequestsPerMinute) burstQuota

def dnsQuota : Option Quota := perMinute tier.dnsRequestsPerMinute

def quotaOf : Kind → Option Quota
  | .api => apiQuota float config load tier
  | .tunnel => tunnelQuota float tier
  | .dns => dnsQuota tier

end

def createApiLimiter (load : F) (tier : String) : Option L := do
  return governor.keyed (← apiQuota float config load (← tierConfig config tier))

def createTunnelLimiter (tier : String) : Option L := do
  return governor.keyed (← tunnelQuota float (← tierConfig config tier))

def createDnsLimiter (tier : String) : Option L := do
  return governor.keyed (← dnsQuota (← tierConfig config tier))

def checkRateLimit (kind : Kind) (createLimiter : String → Option L) (exceeded : String) (s : RateLimitState F L Ip)
    (token : String) (now : ℕ) : Checked × RateLimitState F L Ip :=
  if s.isBypassToken token then (.returned (.ok ()), s)
  else
    let tier := s.getUserTier token
    match tierConfig config tier with
    | none => (unwrapped, s)
    | some tierConfig =>
      if tierConfig.bypassRateLimits then (.returned (.ok ()), s)
      else match ((s.limiters kind).lookup token).or (createLimiter tier) with
        | none => (unwrapped, s)
        | some limiter =>
          let checked := governor.checkKey limiter token now
          (.returned (if checked.1 then .ok () else .error (exceeded ++ tier)),
            { s with limiters := Function.update s.limiters kind ((s.limiters kind).insert token checked.2) })

section

variable (s : RateLimitState F L Ip)

def checkApiRateLimit : String → ℕ → Checked × RateLimitState F L Ip :=
  checkRateLimit governor config .api (createApiLimiter float governor config (s.getSystemLoad float))
    "API rate limit exceeded for tier: " s

def checkTunnelRateLimit : String → ℕ → Checked × RateLimitState F L Ip :=
  checkRateLimit governor config .tunnel (createTunnelLimiter float governor config)
    "Tunnel creation rate limit exceeded for tier: " s

def checkDnsRateLimit : String → ℕ → Checked × RateLimitState F L Ip :=
  checkRateLimit governor config .dns (createDnsLimiter governor config)
    "DNS operation rate limit exceeded for tier: " s

def cleanupOldEntries (now : ℕ) : RateLimitState F L Ip :=
  { s with
    limiters := fun kind => if (s.limiters kind).entries.length > 10000 then ∅ else s.limiters kind
    ipLimiters := Tables.retain (fun limit => now - limit.lastReset < 3600 * second) s.ipLimiters }

end

end

inductive RateLimitCall (F Ip : Type) where
  | checkIpRateLimit (ip : Ip) (now : ℕ)
  | check (kind : Kind) (token : String) (now : ℕ)
  | setUserTier (token tier : String)
  | updateSystemLoad (load : F)
  | addBypassToken (token : String)
  | removeBypassToken (token : String)
  | cleanupOldEntries (now : ℕ)

def RateLimitCall.readings {F Ip : Type} : RateLimitCall F Ip → List ℕ
  | .checkIpRateLimit _ now => [now]
  | .check _ _ now => [now]
  | .cleanupOldEntries now => [now]
  | _ => []

section

variable {F L Ip : Type} [DecidableEq Ip] (float : Binary64 F) (governor : Governor L) (config : RateLimitConfig F)

def check (s : RateLimitState F L Ip) : Kind → String → ℕ → Checked × RateLimitState F L Ip
  | .api => checkApiRateLimit float governor config s
  | .tunnel => checkTunnelRateLimit float governor config s
  | .dns => checkDnsRateLimit governor config s

def serve (s : RateLimitState F L Ip) : RateLimitCall F Ip → RateLimitState F L Ip
  | .checkIpRateLimit ip now => (checkIpRateLimit config s ip now).2
  | .check kind token now => (check float governor config s kind token now).2
  | .setUserTier token tier => s.setUserTier token tier
  | .updateSystemLoad load => s.updateSystemLoad load
  | .addBypassToken token => s.addBypassToken token
  | .removeBypassToken token => s.removeBypassToken token
  | .cleanupOldEntries now => cleanupOldEntries s now

def after (s : RateLimitState F L Ip) (calls : List (RateLimitCall F Ip)) : RateLimitState F L Ip :=
  calls.foldl (serve float governor config) s

end

lemma check_state {F L Ip : Type} (float : Binary64 F) (governor : Governor L) (config : RateLimitConfig F)
    (s : RateLimitState F L Ip) (kind : Kind) (token : String) (now : ℕ) :
    (check float governor config s kind token now).2 = s ∨
      ∃ limiter, (check float governor config s kind token now).2 =
        { s with limiters := Function.update s.limiters kind ((s.limiters kind).insert token limiter) } := by
  have hbody (create : String → Option L) (exceeded : String) :
      (checkRateLimit governor config kind create exceeded s token now).2 = s ∨
        ∃ limiter, (checkRateLimit governor config kind create exceeded s token now).2 =
          { s with limiters := Function.update s.limiters kind ((s.limiters kind).insert token limiter) } := by
    unfold checkRateLimit
    dsimp only
    split_ifs
    · exact .inl rfl
    split
    · exact .inl rfl
    · split_ifs
      · exact .inl rfl
      · split
        · exact .inl rfl
        · exact .inr ⟨_, rfl⟩
  cases kind <;> exact hbody _ _

def hitIp {F : Type} (config : RateLimitConfig F) : IpRateLimit → ℕ → Bool × IpRateLimit :=
  hit config.ddosProtection.maxRequestsPerIpPerMinute (60 * second) fun now =>
    checkedAdd now (config.ddosProtection.ipBlockDurationSeconds * second)

lemma checkIp_hit {F : Type} (config : RateLimitConfig F) (limit : IpRateLimit) (now : ℕ) :
    ((checkIp config limit now).1 = .returned (.ok ()) ↔ (hitIp config limit now).1 = true) ∧
      (checkIp config limit now).2 = (hitIp config limit now).2 := by
  have hopen := restart_blockedUntil (60 * second) limit now
  unfold checkIp hitIp hit
  generalize restart (60 * second) limit now = counted at hopen ⊢
  obtain ⟨requests, lastReset, _⟩ := counted
  cases hopen
  by_cases hblocked : limit.blockedUntil.any (now < ·) = true
  · simp [hblocked]
  by_cases hfull : config.ddosProtection.maxRequestsPerIpPerMinute ≤ requests
  · cases hadd : checkedAdd now (config.ddosProtection.ipBlockDurationSeconds * second) <;>
      simp [hblocked, hfull, hadd]
  · simp [hblocked, hfull]

end FleetingDns.RateLimits
