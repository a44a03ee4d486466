import FleetingDns.Library.ExpiringStore
import Mathlib.Algebra.Ring.Int.Defs

namespace FleetingDns

open ExpiringStore

inductive TeardownPolicy where
  | ttlOnly
  | viewerIdle
  deriving DecidableEq

inductive TunnelStatus where
  | creating
  | active
  | destroying
  | expired
  | error
  deriving DecidableEq

structure GitHubUser where
  (id login : String)
  deriving DecidableEq

structure Tunnel where
  (id githubUserId githubUsername subdomain fqdn : String)
  (localPort slot : ℕ)
  certificateSerial : String
  (createdAt expiresAt : ℤ)
  status : TunnelStatus
  protectedTunnel : Bool
  teardownPolicy : TeardownPolicy
  deriving DecidableEq

structure TunnelInfo where
  (id githubUserId githubUsername subdomain fqdn : String)
  (localPort slot : ℕ)
  certificateSerial : String
  protectedTunnel : Bool
  teardownPolicy : TeardownPolicy
  deriving DecidableEq

def Tunnel.info (t : Tunnel) : TunnelInfo :=
  ⟨t.id, t.githubUserId, t.githubUsername, t.subdomain, t.fqdn, t.localPort, t.slot, t.certificateSerial,
    t.protectedTunnel, t.teardownPolicy⟩

structure UserTunnelLookup where
  (githubUserId githubUsername : String)
  tunnels : List String
  deriving DecidableEq

structure SessionData where
  (githubUserId publicKey fingerprint : String)
  expiresAt : ℤ
  sessionId : String
  deriving DecidableEq

structure SessionGrant where
  githubUserId : String
  grantedAt : ℕ
  deriving DecidableEq

/-- Values under a key: the JSON documents by what they decode to, and any other text. -/
inductive Value where
  | tunnel (t : Tunnel)
  | lookup (l : UserTunnelLookup)
  | session (d : SessionData)
  | grant (g : SessionGrant)
  | text (s : String)
  deriving DecidableEq

namespace Value

def asTunnel : Value → Option Tunnel
  | tunnel t => some t
  | _ => none

def asTunnelInfo (v : Value) : Option TunnelInfo := v.asTunnel.map Tunnel.info

def asLookup : Value → Option UserTunnelLookup
  | lookup l => some l
  | _ => none

def asSession : Value → Option SessionData
  | session d => some d
  | _ => none

def asText : Value → Option String
  | text s => some s
  | _ => none

lemma asTunnel_some {v : Value} {t : Tunnel} (h : v.asTunnel = some t) : v = .tunnel t := by
  cases v <;> simp_all [asTunnel]

lemma asLookup_some {v : Value} {l : UserTunnelLookup} (h : v.asLookup = some l) : v = .lookup l := by
  cases v <;> simp_all [asLookup]

end Value

def numSeconds (d : ℤ) : ℤ := d.tdiv second

lemma lt_numSeconds (d : ℤ) : d < numSeconds d * second + second := by
  have hmod := Int.tmod_lt_of_pos d (show (0 : ℤ) < second by decide)
  have hdiv := Int.mul_tdiv_add_tmod d second
  rw [numSeconds, Int.mul_comm]
  omega

lemma numSeconds_le (d : ℤ) : numSeconds d * second < d + second := by
  have hmod := Int.lt_tmod_of_pos d (show (0 : ℤ) < second by decide)
  have hdiv := Int.mul_tdiv_add_tmod d second
  rw [numSeconds, Int.mul_comm]
  omega

def numMinutes (d : ℤ) : ℤ := (numSeconds d).tdiv 60

def asU64 (i : ℤ) : ℕ := (i % 2 ^ 64).toNat

def asI64 (n : ℕ) : ℤ := (n + 2 ^ 63 : ℤ) % 2 ^ 64 - 2 ^ 63

def durationSeconds (s : ℤ) : Option ℤ :=
  if -((2 ^ 63 - 1) / 1000) ≤ s ∧ s ≤ (2 ^ 63 - 1) / 1000 then some (s * second) else none

def addUtc (now d : ℤ) : Option ℤ :=
  if -8334601228800 * second ≤ now + d ∧ now + d < 8210266876800 * second then some (now + d) else none

lemma addUtc_some {now d x : ℤ} (h : addUtc now d = some x) : x = now + d := by
  unfold addUtc at h
  split_ifs at h
  exact (Option.some.inj h).symm

end FleetingDns
