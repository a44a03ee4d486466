import FleetingDns.CertificateAuthority
import FleetingDns.DnsMessages
import FleetingDns.Library.Panics
namespace FleetingDns.Dnssec

open ExpiringStore EdfCa Dns Panics

abbrev Bytes := List Byte

inductive DnssecAlgorithm where
  | hmacSha256
  | rsaSha256
  | ecdsaP256Sha256
  deriving DecidableEq

inductive Algorithm where
  | unknown (n : ℕ)
  | rsaSha256
  | ecdsaP256Sha256
  deriving DecidableEq

namespace DnssecAlgorithm

def debug : DnssecAlgorithm → String
  | hmacSha256 => "HmacSha256"
  | rsaSha256 => "RsaSha256"
  | ecdsaP256Sha256 => "EcdsaP256Sha256"

def toHickoryAlgorithm : DnssecAlgorithm → Algorithm
  | hmacSha256 => .unknown 253
  | rsaSha256 => .rsaSha256
  | ecdsaP256Sha256 => .ecdsaP256Sha256

end DnssecAlgorithm

inductive DnssecError where
  | keyGeneration (msg : String)
  | keyRotation (msg : String)
  | keyNotFound (msg : String)
  deriving DecidableEq

structure KeyMetadata where
  keyId : String
  algorithm : DnssecAlgorithm
  (createdAt expiresAt : ℕ)
  isActive : Bool
  keyTag : ℕ
  deriving DecidableEq

inductive KeyMaterial where
  | hmac (key : Bytes)
  | rsa (key : Bytes)
  | ecdsa (key : Bytes)
  deriving DecidableEq

structure DnssecKey where
  metadata : KeyMetadata
  keyMaterial : KeyMaterial
  deriving DecidableEq

structure DnssecConfig where
  defaultAlgorithm : DnssecAlgorithm
  (rotationInterval gracePeriod maxKeys : ℕ)
  enableSignatureCache : Bool
  signatureCacheTtl : ℕ

structure CacheEntry where
  signature : Bytes
  (createdAt ttl : ℕ)

def CacheEntry.valid (entry : CacheEntry) (now : ℕ) : Bool := entry.createdAt ≤ now && now - entry.createdAt < entry.ttl

structure DnssecKeyManager where
  config : DnssecConfig
  keys : DnssecAlgorithm → Option (List DnssecKey)
  signatureCache : String → Option CacheEntry
  lastRotation : ℕ
  -- the lock of `keys`
  poisoned : Bool

structure Rrsig where
  typeCovered : RecordType
  algorithm : Algorithm
  (numLabels originalTtl sigExpiration sigInception keyTag : ℕ)
  signerName : Name
  sig : Bytes
  deriving DecidableEq

structure RrsigRecord where
  name : Name
  ttl : ℕ
  rrsig : Rrsig
  deriving DecidableEq

structure KeyDraw where
  (namedAt createdAt expiryFrom : ℕ)
  bytes : Except String Bytes
  tag : ℕ

structure EnvKey where
  secret : Bytes
  (createdAt expiryFrom : ℕ)

def algorithms : List DnssecAlgorithm := [.hmacSha256, .rsaSha256, .ecdsaP256Sha256]

structure Rotation where
  draws : DnssecAlgorithm → KeyDraw
  (deactivatedAt rotatedAt : ℕ)
  -- a hash map gives out its values in any order
  order : List DnssecAlgorithm
  visits : order.Perm algorithms

structure SigningTimes where
  (cacheReadAt keyReadAt cachedAt cleanedAt : ℕ)

structure RecordTimes where
  startedAt : ℕ
  signing : SigningTimes
  tagReadAt : ℕ

def KeyMaterial.key : KeyMaterial → Bytes
  | hmac key => key
  | rsa key => key
  | ecdsa key => key

namespace DnssecKey

def secret (key : DnssecKey) : Bytes := key.keyMaterial.key

def expiresAt (key : DnssecKey) : ℕ := key.metadata.expiresAt

def tag (key : DnssecKey) : ℕ := key.metadata.keyTag

def deactivate (key : DnssecKey) (now : ℕ) : DnssecKey :=
  if key.expiresAt < now then { key with metadata := { key.metadata with isActive := false } } else key

end DnssecKey

def KeyDraw.material (bytes : Bytes) : DnssecAlgorithm → KeyMaterial
  | .hmacSha256 => .hmac bytes
  | .rsaSha256 => .rsa bytes
  | .ecdsaP256Sha256 => .ecdsa bytes

def KeyDraw.keyId (draw : KeyDraw) (algorithm : DnssecAlgorithm) : String :=
  algorithm.debug ++ "-" ++ Nat.repr (draw.namedAt / second)

def KeyDraw.key (draw : KeyDraw) (config : DnssecConfig) (algorithm : DnssecAlgorithm) (bytes : Bytes) :
    Option DnssecKey :=
  (instantAdd draw.expiryFrom config.rotationInterval).map fun expiresAt =>
    ⟨⟨draw.keyId algorithm, algorithm, draw.createdAt, expiresAt, true, draw.tag⟩, KeyDraw.material bytes algorithm⟩

def EnvKey.key (env : EnvKey) (config : DnssecConfig) : Option DnssecKey :=
  (instantAdd env.expiryFrom config.rotationInterval).map fun expiresAt =>
    ⟨⟨"env-hmac", .hmacSha256, env.createdAt, expiresAt, true, 0⟩, .hmac env.secret⟩

def cacheKey (algorithm : DnssecAlgorithm) (data : Bytes) : String := algorithm.debug ++ ":" ++ hexEncode data

lemma debug_noColon (algorithm : DnssecAlgorithm) : Key.NoColon algorithm.debug := by
  cases algorithm <;> decide

lemma debug_injective : Function.Injective DnssecAlgorithm.debug := by
  rintro (_ | _ | _) (_ | _ | _) <;> decide

lemma hexDigit_injective : Function.Injective hexDigit := by
  unfold Function.Injective
  decide

lemma hexByte_injective : Function.Injective hexByte := by
  intro b c h
  simp only [hexByte, List.cons.injEq, and_true] at h
  have hhigh := congrArg Fin.val (hexDigit_injective h.1)
  have hlow := congrArg Fin.val (hexDigit_injective h.2)
  simp only at hhigh hlow
  apply Fin.ext
  omega

lemma hexText_injective (bytes bytes' : Bytes) (h : bytes.flatMap hexByte = bytes'.flatMap hexByte) :
    bytes = bytes' := by
  induction bytes generalizing bytes' with
  | nil =>
    cases bytes' with
    | nil => rfl
    | cons => simp [hexByte] at h
  | cons b bs ih =>
    cases bytes' with
    | nil => simp [hexByte] at h
    | cons c cs =>
      obtain ⟨hb, hs⟩ := List.append_inj h rfl
      rw [hexByte_injective hb, ih cs hs]

lemma cacheKey_injective {a a' : DnssecAlgorithm} {data data' : Bytes} (h : cacheKey a data = cacheKey a' data') :
    a = a' ∧ data = data' := by
  obtain ⟨ha, hd⟩ := Key.split_colon (debug_noColon a) (debug_noColon a') h
  rw [hexEncode, hexEncode, String.ofList_inj] at hd
  exact ⟨debug_injective ha, hexText_injective data data' hd⟩

namespace DnssecKeyManager

section

variable (m : DnssecKeyManager) (algorithm : DnssecAlgorithm)

def push (key : DnssecKey) : DnssecKeyManager :=
  { m with keys := Function.update m.keys algorithm (some ((m.keys algorithm).getD [] ++ [key])) }

def poisonError : String := "poisoned lock: another task failed inside"

def addHmacKeyFromEnv (env : EnvKey) : Option (Except DnssecError DnssecKeyManager) :=
  (env.key m.config).map fun key =>
    if m.poisoned then .error (.keyRotation poisonError) else .ok (m.push .hmacSha256 key)

/-- The first component is none for a panic. -/
def generateKey (draw : KeyDraw) : Option (Except DnssecError String) × DnssecKeyManager :=
  match draw.bytes with
  | .error e => (some (.error (.keyGeneration e)), m)
  | .ok bytes =>
    match draw.key m.config algorithm bytes with
    | none => (none, m)
    | some key =>
      if m.poisoned then (some (.error (.keyRotation poisonError)), m)
      else (some (.ok (draw.keyId algorithm)), m.push algorithm key)

end

def new (config : DnssecConfig) (draw : KeyDraw) (env : Option EnvKey) : Option (Except DnssecError DnssecKeyManager) :=
  match generateKey ⟨config, fun _ => none, fun _ => none, 0, false⟩ config.defaultAlgorithm draw with
  | (none, _) => none
  | (some (.error e), _) => some (.error e)
  | (some (.ok _), m) => env.elim (some (.ok m)) m.addHmacKeyFromEnv

section

variable (m : DnssecKeyManager)

def getActiveKey (algorithm : DnssecAlgorithm) (now : ℕ) : Except DnssecError DnssecKey :=
  if m.poisoned then .error (.keyNotFound poisonError)
  else
    match m.keys algorithm with
    | none => .error (.keyNotFound ("No keys for algorithm " ++ algorithm.debug))
    | some algorithmKeys =>
      match algorithmKeys.find? fun key => key.metadata.isActive && now < key.expiresAt with
      | none => .error (.keyNotFound ("No active key for algorithm " ++ algorithm.debug))
      | some key => .ok key

def needsRotation (now : ℕ) : Bool := second * m.config.rotationInterval < now - m.lastRotation

/-- A predicate that panics leaves the rest of the list as it is. -/
def retain (grace now : ℕ) : List DnssecKey → List DnssecKey × Bool
  | [] => ([], true)
  | key :: keys =>
    match instantAdd key.expiresAt grace with
    | none => (key :: keys, false)
    | some removal =>
      let (kept, done) := retain grace now keys
      (if now < removal then key :: kept else kept, done)

def sweep (now : ℕ) (algorithmKeys : List DnssecKey) : List DnssecKey × Bool :=
  retain m.config.gracePeriod now (algorithmKeys.map (·.deactivate now))

def sweeps (now : ℕ) (algorithm : DnssecAlgorithm) : Bool :=
  (m.keys algorithm).all fun algorithmKeys => (m.sweep now algorithmKeys).2

/-- The lists up to the one at which the loop panics. -/
def visited (now : ℕ) (order : List DnssecAlgorithm) : List DnssecAlgorithm :=
  order.takeWhile (m.sweeps now) ++ (order.dropWhile (m.sweeps now)).take 1

def deactivateOldKeys (now : ℕ) (order : List DnssecAlgorithm) : Option (Except DnssecError Unit) × DnssecKeyManager :=
  if m.poisoned then (some (.error (.keyRotation poisonError)), m)
  else
    let keys := fun algorithm =>
      if algorithm ∈ m.visited now order then
        (m.keys algorithm).map fun algorithmKeys => (m.sweep now algorithmKeys).1
      else m.keys algorithm
    if order.all (m.sweeps now) then (some (.ok ()), { m with keys := keys })
    else (none, { m with keys := keys, poisoned := true })

end

def generateKeys (rotation : Rotation) : List DnssecAlgorithm → DnssecKeyManager → Option Unit × DnssecKeyManager
  | [], m => (some (), m)
  | algorithm :: rest, m =>
    match m.generateKey algorithm (rotation.draws algorithm) with
    | (none, m) => (none, m)
    -- a failed generation is only logged
    | (some _, m) => generateKeys rotation rest m

section

variable (m : DnssecKeyManager)

def rotateKeys (rotation : Rotation) : Option (Except DnssecError Unit) × DnssecKeyManager :=
  match generateKeys rotation algorithms m with
  | (none, m) => (none, m)
  | (some (), m) =>
    match m.deactivateOldKeys rotation.deactivatedAt rotation.order with
    | (some (.ok ()), m) => (some (.ok ()), { m with lastRotation := rotation.rotatedAt })
    | failed => failed

def checkAndRotateKeys (readAt : ℕ) (rotation : Rotation) : Option (Except DnssecError Unit) × DnssecKeyManager :=
  if m.needsRotation readAt then m.rotateKeys rotation else (some (.ok ()), m)

def getCachedSignature (key : String) (now : ℕ) : Option Bytes :=
  match m.signatureCache key with
  | some entry => if entry.valid now then some entry.signature else none
  | none => none

def cacheSignature (key : String) (signature : Bytes) (cachedAt cleanedAt : ℕ) : DnssecKeyManager :=
  let entry := ⟨signature, cachedAt, m.config.signatureCacheTtl * second⟩
  { m with signatureCache := fun k =>
      (Function.update m.signatureCache key (some entry) k).filter (·.valid cleanedAt) }

end

section

variable (hmac : Bytes → Bytes → Bytes)

def signature (key : DnssecKey) (data : Bytes) : Bytes :=
  match key.keyMaterial with
  | .hmac hmacKey => hmac hmacKey data
  | .rsa hmacKey => hmac hmacKey data
  | .ecdsa hmacKey => hmac hmacKey data

section

variable (m : DnssecKeyManager) (data : Bytes) (algorithm : DnssecAlgorithm)

def cached (now : ℕ) : Option Bytes :=
  if m.config.enableSignatureCache then m.getCachedSignature (cacheKey algorithm data) now else none

def sign (times : SigningTimes) : Except DnssecError Bytes × DnssecKeyManager :=
  match m.cached data algorithm times.cacheReadAt with
  | some signature => (.ok signature, m)
  | none =>
    match m.getActiveKey algorithm times.keyReadAt with
    | .error e => (.error e, m)
    | .ok key =>
      let signature := signature hmac key data
      (.ok signature, if m.config.enableSignatureCache then
        m.cacheSignature (cacheKey algorithm data) signature times.cachedAt times.cleanedAt else m)

end

-- what the build makes of the result of 32-bit arithmetic: an overflow panics or wraps around
variable (u32 : ℕ → Option ℕ)

def rrsigRecordWithAlgorithm (m : DnssecKeyManager) (name : Name) (typ : RecordType) (ttl : ℕ) (rrset : Bytes)
    (algorithm : DnssecAlgorithm) (times : RecordTimes) : Option (Except DnssecError RrsigRecord) × DnssecKeyManager :=
  let now := times.startedAt / second % 2 ^ 32
  match m.sign hmac rrset algorithm times.signing with
  | (.error e, m) => (some (.error e), m)
  | (.ok signature, m) =>
    match m.getActiveKey algorithm times.tagReadAt with
    | .error e => (some (.error e), m)
    | .ok key => ((u32 (now + ttl)).map fun sigExpiration => .ok ⟨name, ttl, ⟨typ, algorithm.toHickoryAlgorithm,
        name.numLabels, ttl, sigExpiration, now, key.metadata.keyTag, name, signature⟩⟩, m)

def validateRrsig (m : DnssecKeyManager) (rrsig : Rrsig) (rrset : Bytes) (algorithm : DnssecAlgorithm) (now : ℕ) :
    Except DnssecError Bool :=
  match m.getActiveKey algorithm now with
  | .error e => .error e
  | .ok key => .ok (rrsig.sig = signature hmac key rrset)

end

end DnssecKeyManager

end FleetingDns.Dnssec
