import FleetingDns.DnssecKeys
import FleetingDns.Library.FirstLive
namespace FleetingDns.Dnssec

open ExpiringStore EdfCa Dns Panics FirstLive GuardedRuns DnssecKeyManager DnssecKey List KeyDraw Option

/-- The signer with the last clock reading and every key it ever held. -/
structure Signer where
  manager : DnssecKeyManager
  clock : ℕ
  issued : List DnssecKey

inductive Op where
  | sign (data : Bytes) (algorithm : DnssecAlgorithm) (times : SigningTimes)
  | rrsigRecord (name : Name) (typ : RecordType) (ttl : ℕ) (rrset : Bytes) (algorithm : DnssecAlgorithm)
    (times : RecordTimes)
  | generateKey (algorithm : DnssecAlgorithm) (draw : KeyDraw)
  | rotateKeys (rotation : Rotation)
  | checkAndRotateKeys (readAt : ℕ) (rotation : Rotation)
  | validateRrsig (rrsig : Rrsig) (rrset : Bytes) (algorithm : DnssecAlgorithm) (now : ℕ)

def KeyDraw.times (draw : KeyDraw) : List ℕ := [draw.namedAt, draw.createdAt, draw.expiryFrom]

def EnvKey.times (env : EnvKey) : List ℕ := [env.createdAt, env.expiryFrom]

def Rotation.times (rotation : Rotation) : List ℕ :=
  (rotation.draws .hmacSha256).times ++ (rotation.draws .rsaSha256).times ++ (rotation.draws .ecdsaP256Sha256).times
    ++ [rotation.deactivatedAt, rotation.rotatedAt]

def SigningTimes.times (t : SigningTimes) : List ℕ := [t.cacheReadAt, t.keyReadAt, t.cachedAt, t.cleanedAt]

def RecordTimes.times (t : RecordTimes) : List ℕ := t.startedAt :: t.signing.times ++ [t.tagReadAt]

def Op.times : Op → List ℕ
  | sign _ _ times => times.times
  | rrsigRecord _ _ _ _ _ times => times.times
  | generateKey _ draw => draw.times
  | rotateKeys rotation => rotation.times
  | checkAndRotateKeys readAt rotation => readAt :: rotation.times
  | validateRrsig _ _ _ now => [now]

/-- Readings of a clock that never runs backwards and that the platform can represent. -/
def advance : ℕ → List ℕ → Option ℕ
  | t, [] => some t
  | t, t' :: ts => if t ≤ t' ∧ t' / second < 2 ^ 63 then advance t' ts else none

def KeyDraw.keys (draw : KeyDraw) (config : DnssecConfig) (algorithm : DnssecAlgorithm) : List DnssecKey :=
  match draw.bytes with
  | .ok bytes => (draw.key config algorithm bytes).toList
  | .error _ => []

def KeyDraw.overflows (draw : KeyDraw) (config : DnssecConfig) : Bool :=
  draw.bytes.isOk && (instantAdd draw.expiryFrom config.rotationInterval).isNone

def Rotation.drawn (rotation : Rotation) (config : DnssecConfig) : List DnssecAlgorithm → List DnssecKey
  | [] => []
  | a :: rest =>
    if (rotation.draws a).overflows config then []
    else (rotation.draws a).keys config a ++ rotation.drawn config rest

def Rotation.keys (rotation : Rotation) (m : DnssecKeyManager) : List DnssecKey :=
  if m.poisoned then [] else rotation.drawn m.config algorithms

/-- When the rotation goes through the list, if it does. -/
def Rotation.sweptAt (rotation : Rotation) (m : DnssecKeyManager) (a : DnssecAlgorithm) : Option ℕ :=
  let generated := generateKeys rotation algorithms m
  if generated.1.isSome ∧ generated.2.poisoned = false ∧
    a ∈ generated.2.visited rotation.deactivatedAt rotation.order then some rotation.deactivatedAt else none

namespace Op

def rotation (m : DnssecKeyManager) : Op → Option Rotation
  | rotateKeys rotation => some rotation
  | checkAndRotateKeys readAt rotation => if m.needsRotation readAt then some rotation else none
  | sign _ _ _ | rrsigRecord _ _ _ _ _ _ | generateKey _ _ | validateRrsig _ _ _ _ => none

def issues (m : DnssecKeyManager) (op : Op) : List DnssecKey :=
  match op with
  | generateKey algorithm draw => if m.poisoned then [] else draw.keys m.config algorithm
  | _ => (op.rotation m).elim [] (·.keys m)

def sweptAt (m : DnssecKeyManager) (a : DnssecAlgorithm) (op : Op) : Option ℕ :=
  (op.rotation m).bind (·.sweptAt m a)

def signing : Op → Option (Bytes × DnssecAlgorithm × SigningTimes)
  | sign data algorithm times => some (data, algorithm, times)
  | rrsigRecord _ _ _ rrset algorithm times => some (rrset, algorithm, times.signing)
  | generateKey _ _ | rotateKeys _ | checkAndRotateKeys _ _ | validateRrsig _ _ _ _ => none

def run (hmac : Bytes → Bytes → Bytes) (m : DnssecKeyManager) : Op → DnssecKeyManager
  | sign data algorithm times => (m.sign hmac data algorithm times).2
  | rrsigRecord name typ ttl rrset algorithm times =>
    -- the build matters for the result only
    (m.rrsigRecordWithAlgorithm hmac (fits 32) name typ ttl rrset algorithm times).2
  | generateKey algorithm draw => (m.generateKey algorithm draw).2
  | rotateKeys rotation => (m.rotateKeys rotation).2
  | checkAndRotateKeys readAt rotation => (m.checkAndRotateKeys readAt rotation).2
  | validateRrsig _ _ _ _ => m

end Op

def ofAlgorithm (a : DnssecAlgorithm) (keys : List DnssecKey) : List DnssecKey :=
  keys.filter (·.metadata.algorithm = a)

namespace Signer

def step (hmac : Bytes → Bytes → Bytes) (s : Signer) (op : Op) : Option Signer :=
  (advance s.clock op.times).map fun clock => ⟨op.run hmac s.manager, clock, s.issued ++ op.issues s.manager⟩

def Distinct (issued : List DnssecKey) : Prop := (issued.map secret).Nodup

instance (issued : List DnssecKey) : Decidable (Distinct issued) :=
  inferInstanceAs (Decidable (issued.map secret).Nodup)

def Fresh (s : Signer) (op : Op) : Prop := Distinct (s.issued ++ op.issues s.manager)

instance (s : Signer) (op : Op) : Decidable (Fresh s op) := inferInstanceAs (Decidable (Distinct _))

def initialKeys (config : DnssecConfig) (draw : KeyDraw) (env : Option EnvKey) : List DnssecKey :=
  draw.keys config config.defaultAlgorithm ++ (env.bind (·.key config)).toList

def new (config : DnssecConfig) (clock : ℕ) (draw : KeyDraw) (env : Option EnvKey) : Option Signer := do
  let clock ← advance clock (draw.times ++ (env.map EnvKey.times).getD [])
  let manager ← (← DnssecKeyManager.new config draw env).toOption
  return ⟨manager, clock, initialKeys config draw env⟩

end Signer

section

variable {hmac : Bytes → Bytes → Bytes} {m : DnssecKeyManager} {s s' : Signer} {a b : DnssecAlgorithm} {k : DnssecKey}
  {data sig : Bytes} {t t' now : ℕ} {ts : List ℕ} {config : DnssecConfig} {op : Op} {draw : KeyDraw} {rotation : Rotation}

lemma advance_nil : advance t [] = some t' ↔ t = t' := by simp [advance]

lemma advance_cons {u : ℕ} :
    advance t (u :: ts) = some t' ↔ (t ≤ u ∧ u / second < 2 ^ 63) ∧ advance u ts = some t' := by
  rw [advance]
  split_ifs with hu
  · exact (and_iff_right hu).symm
  · simp only [hu, false_and]

lemma advance_bounds (h : advance t ts = some t') :
    t ≤ t' ∧ ∀ u ∈ ts, t ≤ u ∧ u ≤ t' ∧ u / second < 2 ^ 63 := by
  induction ts generalizing t with
  | nil => simp_all [advance]
  | cons u ts ih =>
    obtain ⟨hu, h⟩ := advance_cons.mp h
    obtain ⟨hle, hrest⟩ := ih h
    refine ⟨hu.1.trans hle, forall_mem_cons.mpr ⟨⟨hu.1, hle, hu.2⟩, fun v hv => ?_⟩⟩
    have hv := hrest v hv
    exact ⟨hu.1.trans hv.1, hv.2⟩

lemma signing_times {times : SigningTimes} (hop : op.signing = some (data, a, times))
    (h : advance t op.times = some t') :
    t ≤ times.cacheReadAt ∧ times.cacheReadAt ≤ times.keyReadAt ∧ times.keyReadAt ≤ times.cachedAt ∧
      times.cachedAt ≤ t' := by
  cases op with
  | sign | rrsigRecord =>
    cases hop
    simp only [Op.times, RecordTimes.times, SigningTimes.times, cons_append, nil_append, advance_cons,
      advance_nil] at h
    omega
  | _ => cases hop

def DnssecKeyManager.keysOf (m : DnssecKeyManager) (a : DnssecAlgorithm) : List DnssecKey := (m.keys a).getD []

lemma signature_eq (k : DnssecKey) (data : Bytes) : signature hmac k data = hmac k.secret data := by
  rw [signature, secret]
  cases k.keyMaterial <;> rfl

lemma ofAlgorithm_append (a : DnssecAlgorithm) (keys keys' : List DnssecKey) :
    ofAlgorithm a (keys ++ keys') = ofAlgorithm a keys ++ ofAlgorithm a keys' := filter_append keys keys'

lemma ofAlgorithm_keys (draw : KeyDraw) (config : DnssecConfig) (a b : DnssecAlgorithm) :
    ofAlgorithm a (draw.keys config b) = if b = a then draw.keys config b else [] := by
  unfold KeyDraw.keys KeyDraw.key ofAlgorithm
  cases draw.bytes with
  | error => simp
  | ok => cases instantAdd draw.expiryFrom config.rotationInterval <;> by_cases h : b = a <;> simp [h]

lemma keys_active (h : k ∈ draw.keys config a) : k.metadata.isActive = true := by
  rw [KeyDraw.keys] at h
  cases hb : draw.bytes with
  | error => simp [hb] at h
  | ok =>
    simp only [hb, Option.mem_toList, KeyDraw.key, Option.map_eq_some_iff] at h
    obtain ⟨_, -, rfl⟩ := h
    rfl

lemma drawn_active {l : List DnssecAlgorithm} (h : k ∈ rotation.drawn config l) : k.metadata.isActive = true := by
  induction l with
  | nil => cases h
  | cons a l ih =>
    rw [Rotation.drawn] at h
    split_ifs at h
    · cases h
    · rcases mem_append.mp h with h | h
      · exact keys_active h
      · exact ih h

lemma issues_active (h : k ∈ op.issues m) : k.metadata.isActive = true := by
  have hrotation {rotation : Rotation} (h : k ∈ rotation.keys m) : k.metadata.isActive = true := by
    rw [Rotation.keys] at h
    split_ifs at h
    · cases h
    · exact drawn_active h
  cases op with
  | generateKey =>
    rw [Op.issues] at h
    split_ifs at h
    · cases h
    · exact keys_active h
  | rotateKeys => exact hrotation h
  | checkAndRotateKeys =>
    simp only [Op.issues, Op.rotation] at h
    split_ifs at h
    · exact hrotation h
    · cases h
  | _ => cases h

lemma push_keysOf (m : DnssecKeyManager) (a b : DnssecAlgorithm) (k : DnssecKey) :
    (m.push b k).keysOf a = m.keysOf a ++ if b = a then [k] else [] := by
  by_cases h : b = a
  · subst h
    simp [push, keysOf]
  · simp [push, keysOf, h, Ne.symm h]

/-- What a call may do to the lists besides dropping keys. -/
structure Grows (m m' : DnssecKeyManager) (fresh : List DnssecKey) : Prop where
  config : m'.config = m.config
  cache : m'.signatureCache = m.signatureCache
  last : m'.lastRotation = m.lastRotation
  poisoned : m'.poisoned = m.poisoned
  keys : ∀ a, m'.keysOf a = m.keysOf a ++ ofAlgorithm a fresh

lemma Grows.refl (m : DnssecKeyManager) : Grows m m [] := ⟨rfl, rfl, rfl, rfl, fun _ => (append_nil _).symm⟩

lemma Grows.trans {m' m'' : DnssecKeyManager} {fresh fresh' : List DnssecKey} (h : Grows m m' fresh)
    (h' : Grows m' m'' fresh') : Grows m m'' (fresh ++ fresh') where
  config := h'.config.trans h.config
  cache := h'.cache.trans h.cache
  last := h'.last.trans h.last
  poisoned := h'.poisoned.trans h.poisoned
  keys a := by rw [h'.keys, h.keys, ofAlgorithm_append, append_assoc]

lemma grows_push {m : DnssecKeyManager} (hk : k.metadata.algorithm = a) : Grows m (m.push a k) [k] := by
  refine ⟨rfl, rfl, rfl, rfl, fun b => ?_⟩
  rw [push_keysOf]
  by_cases h : a = b <;> simp [ofAlgorithm, hk, h]

lemma key_algorithm {bytes : Bytes} (h : draw.key config a bytes = some k) : k.metadata.algorithm = a := by
  obtain ⟨_, -, rfl⟩ := map_eq_some_iff.mp h
  rfl

lemma generateKey_spec (m : DnssecKeyManager) (a : DnssecAlgorithm) (draw : KeyDraw) :
    ((m.generateKey a draw).1 = none ↔ draw.overflows m.config = true) ∧
      Grows m (m.generateKey a draw).2 (if m.poisoned then [] else draw.keys m.config a) := by
  cases hb : draw.bytes with
  | error => simp [generateKey, KeyDraw.overflows, KeyDraw.keys, hb, Except.isOk, Except.toBool, Grows.refl]
  | ok bytes =>
    cases hc : instantAdd draw.expiryFrom m.config.rotationInterval with
    | none =>
      simp [generateKey, KeyDraw.overflows, KeyDraw.keys, KeyDraw.key, hb, hc, Except.isOk, Except.toBool, Grows.refl]
    | some e =>
      obtain ⟨k, hk⟩ : ∃ k, draw.key m.config a bytes = some k := by simp [KeyDraw.key, hc]
      cases hp : m.poisoned with
      | true => simp [generateKey, KeyDraw.overflows, hb, hc, hk, hp, Grows.refl]
      | false =>
        simpa [generateKey, KeyDraw.overflows, KeyDraw.keys, hb, hc, hk, hp] using grows_push (key_algorithm hk)

lemma keys_overflows (a : DnssecAlgorithm) (h : draw.overflows config = true) : draw.keys config a = [] := by
  rw [KeyDraw.overflows, Bool.and_eq_true, Option.isNone_iff_eq_none] at h
  rw [KeyDraw.keys]
  cases draw.bytes <;> simp [KeyDraw.key, h.2]

lemma generateKeys_spec (rotation : Rotation) (l : List DnssecAlgorithm) (m : DnssecKeyManager) :
    Grows m (generateKeys rotation l m).2 (if m.poisoned then [] else rotation.drawn m.config l) := by
  induction l generalizing m with
  | nil => simpa [Rotation.drawn, generateKeys] using Grows.refl m
  | cons a l ih =>
    obtain ⟨hnone, hgrows⟩ := generateKey_spec m a (rotation.draws a)
    rw [generateKeys, Rotation.drawn]
    rcases hg : m.generateKey a (rotation.draws a) with ⟨_ | r, m'⟩
    · rw [hg] at hnone hgrows
      rw [keys_overflows a (hnone.mp rfl)] at hgrows
      rwa [if_pos (hnone.mp rfl)]
    · rw [hg] at hnone hgrows
      have hov : (rotation.draws a).overflows m.config = false := by simpa using hnone
      have hrest := hgrows.trans (ih m')
      rw [hgrows.config, hgrows.poisoned] at hrest
      simp only [hov]
      cases hp : m.poisoned <;> simpa [hp] using hrest

lemma deactivate_expiresAt (k : DnssecKey) (now : ℕ) : (k.deactivate now).expiresAt = k.expiresAt := by
  rw [deactivate]
  split_ifs <;> rfl

lemma deactivate_live (h : now ≤ k.expiresAt) : k.deactivate now = k := by
  rw [deactivate, if_neg (by omega)]

variable {grace : ℕ} {l : List DnssecKey}

lemma retain_sublist (grace now : ℕ) (l : List DnssecKey) : (retain grace now l).1.Sublist l := by
  induction l with
  | nil => exact .refl _
  | cons key keys ih =>
    rw [retain]
    cases instantAdd key.expiresAt grace with
    | none => exact .refl _
    | some =>
      dsimp only
      split_ifs
      · exact ih.cons_cons key
      · exact ih.cons key

lemma retain_first (ht : now ≤ t) (l : List DnssecKey) :
    firstLive expiresAt t (retain grace now l).1 = firstLive expiresAt t l := by
  induction l with
  | nil => rfl
  | cons key keys ih =>
    rw [retain]
    cases hc : instantAdd key.expiresAt grace with
    | none => rfl
    | some removal =>
      simp only [firstLive] at ih ⊢
      split_ifs with hkeep
      · rw [List.find?_cons, List.find?_cons, ih]
      · have hdead : key.expiresAt ≤ t := by
          have hremoval := (instantAdd_eq_some.mp hc).2
          omega
        simp [ih, hdead]

lemma sweep_first (m : DnssecKeyManager) (ht : now ≤ t) (l : List DnssecKey) :
    firstLive expiresAt t (m.sweep now l).1 = firstLive expiresAt t l := by
  rw [sweep, retain_first ht, firstLive_map (fun k => deactivate_expiresAt k now)]
  exact fun k _ hk => deactivate_live (by omega)

lemma mem_of_sweep (h : k ∈ (m.sweep now l).1) (hlive : now ≤ k.expiresAt) : k ∈ l := by
  obtain ⟨k0, hk0, rfl⟩ := mem_map.mp ((retain_sublist _ _ _).mem h)
  rw [deactivate_expiresAt] at hlive
  rwa [deactivate_live hlive]

section

variable (m)

/-- What is left of a list when it is gone through at the given time, if at all. -/
def DnssecKeyManager.left (l : List DnssecKey) : Option ℕ → List DnssecKey
  | none => l
  | some now => (m.sweep now l).1

lemma deactivateOldKeys_frame (now : ℕ) (order : List DnssecAlgorithm) :
    (m.deactivateOldKeys now order).2.config = m.config ∧
      (m.deactivateOldKeys now order).2.signatureCache = m.signatureCache := by
  rw [deactivateOldKeys]
  split_ifs <;> exact ⟨rfl, rfl⟩

lemma deactivateOldKeys_keysOf (now : ℕ) (order : List DnssecAlgorithm) (a : DnssecAlgorithm) :
    (m.deactivateOldKeys now order).2.keysOf a =
      m.left (m.keysOf a) (if m.poisoned = false ∧ a ∈ m.visited now order then some now else none) := by
  have hlist : ((if a ∈ m.visited now order then (m.keys a).map fun l => (m.sweep now l).1 else m.keys a).getD []) =
      m.left (m.keysOf a) (if a ∈ m.visited now order then some now else none) := by
    rw [keysOf]
    split_ifs
    · cases m.keys a <;> rfl
    · rfl
  cases hp : m.poisoned with
  | true => simp [deactivateOldKeys, hp, left]
  | false =>
    rw [deactivateOldKeys]
    simp only [hp, true_and, Bool.false_eq_true, if_false]
    rw [← hlist]
    cases order.all (m.sweeps now) <;> rfl

lemma rotateKeys_spec (rotation : Rotation) :
    (m.rotateKeys rotation).2.config = m.config ∧ (m.rotateKeys rotation).2.signatureCache = m.signatureCache ∧
      ∀ a, (m.rotateKeys rotation).2.keysOf a =
        m.left (m.keysOf a ++ ofAlgorithm a (rotation.keys m)) (rotation.sweptAt m a) := by
  have hgrows : Grows m _ (rotation.keys m) := generateKeys_spec rotation algorithms m
  simp only [rotateKeys, Rotation.sweptAt]
  generalize generateKeys rotation algorithms m = generated at hgrows ⊢
  obtain ⟨_ | ⟨⟩, m'⟩ := generated
  · exact ⟨hgrows.config, hgrows.cache, fun a => by simpa [left] using hgrows.keys a⟩
  obtain ⟨hconfig, hcache⟩ := deactivateOldKeys_frame m' rotation.deactivatedAt rotation.order
  have hkeys (a : DnssecAlgorithm) := deactivateOldKeys_keysOf m' rotation.deactivatedAt rotation.order a
  have hleft (l : List DnssecKey) (at' : Option ℕ) : m'.left l at' = m.left l at' := by
    cases at' <;> simp only [left, sweep, show m'.config = m.config from hgrows.config]
  simp only [hleft, hgrows.keys] at hkeys
  dsimp only
  split
  · rename_i heq
    rw [heq] at hconfig hcache hkeys
    exact ⟨hconfig.trans hgrows.config, hcache.trans hgrows.cache, fun a => by simpa [keysOf] using hkeys a⟩
  · exact ⟨hconfig.trans hgrows.config, hcache.trans hgrows.cache, fun a => by simpa using hkeys a⟩

end

lemma sign_frame (hmac : Bytes → Bytes → Bytes) (m : DnssecKeyManager) (data : Bytes) (a : DnssecAlgorithm)
    (times : SigningTimes) : (m.sign hmac data a times).2.keys = m.keys ∧
      (m.sign hmac data a times).2.config = m.config ∧ (m.sign hmac data a times).2.poisoned = m.poisoned := by
  rw [DnssecKeyManager.sign]
  cases m.cached data a times.cacheReadAt with
  | some => exact ⟨rfl, rfl, rfl⟩
  | none =>
    cases m.getActiveKey a times.keyReadAt with
    | error => exact ⟨rfl, rfl, rfl⟩
    | ok =>
      split_ifs <;> exact ⟨rfl, rfl, rfl⟩

lemma sign_cache {times : SigningTimes} {key : String} {e : CacheEntry}
    (h : (m.sign hmac data a times).2.signatureCache key = some e) :
    m.signatureCache key = some e ∨
      ∃ k, m.getActiveKey a times.keyReadAt = .ok k ∧ key = cacheKey a data ∧ e.signature = signature hmac k data ∧
        e.createdAt = times.cachedAt := by
  rw [DnssecKeyManager.sign] at h
  cases hc : m.cached data a times.cacheReadAt with
  | some => simp only [hc] at h; exact .inl h
  | none =>
    simp only [hc] at h
    rcases hg : m.getActiveKey a times.keyReadAt with _ | k
    · simp only [hg] at h; exact .inl h
    simp only [hg] at h
    split_ifs at h
    · rw [cacheSignature] at h
      have hu := (filter_eq_some_iff.mp h).1
      by_cases hk : key = cacheKey a data
      · subst hk
        rw [Function.update_self, Option.some.injEq] at hu
        subst hu
        exact .inr ⟨k, rfl, rfl, rfl, rfl⟩
      · rw [Function.update_of_ne hk] at hu
        exact .inl hu
    · exact .inl h

lemma rrsigRecord_run {u32 : ℕ → Option ℕ} (m : DnssecKeyManager) (name : Name) (typ : RecordType) (ttl : ℕ)
    (rrset : Bytes) (a : DnssecAlgorithm) (times : RecordTimes) :
    (m.rrsigRecordWithAlgorithm hmac u32 name typ ttl rrset a times).2 = (m.sign hmac rrset a times.signing).2 := by
  rw [rrsigRecordWithAlgorithm]
  rcases m.sign hmac rrset a times.signing with ⟨e | sig, m'⟩
  · rfl
  · simp only
    cases m'.getActiveKey a times.tagReadAt <;> rfl

section

variable (hmac m op)

lemma run_cases : (∃ data a times, op.signing = some (data, a, times) ∧ op.rotation m = none ∧ op.issues m = [] ∧
      op.run hmac m = (m.sign hmac data a times).2) ∨ (∃ a draw, op = .generateKey a draw) ∨
    (∃ rotation, op.rotation m = some rotation ∧ op.issues m = rotation.keys m ∧
      op.run hmac m = (m.rotateKeys rotation).2) ∨
    op.rotation m = none ∧ op.issues m = [] ∧ op.run hmac m = m := by
  cases op with
  | sign data a times => exact .inl ⟨data, a, times, rfl, rfl, rfl, rfl⟩
  | rrsigRecord name typ ttl rrset a times =>
    exact .inl ⟨rrset, a, times.signing, rfl, rfl, rfl, rrsigRecord_run m name typ ttl rrset a times⟩
  | generateKey a draw => exact .inr (.inl ⟨a, draw, rfl⟩)
  | rotateKeys rotation => exact .inr (.inr (.inl ⟨rotation, rfl, rfl, rfl⟩))
  | checkAndRotateKeys readAt rotation =>
    by_cases h : m.needsRotation readAt = true
    · exact .inr (.inr (.inl ⟨rotation, by simp [Op.issues, Op.rotation, Op.run, checkAndRotateKeys, h]⟩))
    · exact .inr (.inr (.inr (by simp [Op.issues, Op.rotation, Op.run, checkAndRotateKeys, h])))
  | validateRrsig => exact .inr (.inr (.inr ⟨rfl, rfl, rfl⟩))

lemma run_config : (op.run hmac m).config = m.config := by
  obtain ⟨data, a, times, -, -, -, h⟩ | ⟨a, draw, rfl⟩ | ⟨rotation, -, -, h⟩ | ⟨-, -, h⟩ := run_cases hmac m op
  · rw [h, (sign_frame hmac m data a times).2.1]
  · exact (generateKey_spec m a draw).2.config
  · rw [h, (rotateKeys_spec m rotation).1]
  · rw [h]

lemma run_keysOf (a : DnssecAlgorithm) :
    (op.run hmac m).keysOf a = m.left (m.keysOf a ++ ofAlgorithm a (op.issues m)) (op.sweptAt m a) := by
  obtain ⟨data, b, times, -, hr, hi, h⟩ | ⟨b, draw, rfl⟩ | ⟨rotation, hr, hi, h⟩ | ⟨hr, hi, h⟩ := run_cases hmac m op
  · simp [h, hi, hr, Op.sweptAt, left, ofAlgorithm, keysOf, sign_frame]
  · exact (generateKey_spec m b draw).2.keys a
  · rw [h, hi, Op.sweptAt, hr]
    exact (rotateKeys_spec m rotation).2.2 a
  · simp [h, hi, hr, Op.sweptAt, left, ofAlgorithm]

variable {hmac m op}

lemma run_cache {key : String} {e : CacheEntry} (h : (op.run hmac m).signatureCache key = some e) :
    m.signatureCache key = some e ∨ ∃ data a times k, op.signing = some (data, a, times) ∧
      m.getActiveKey a times.keyReadAt = .ok k ∧ key = cacheKey a data ∧ e.signature = signature hmac k data ∧
      e.createdAt = times.cachedAt := by
  obtain ⟨data, a, times, hop, -, -, hr⟩ | ⟨a, draw, rfl⟩ | ⟨rotation, -, -, hr⟩ | ⟨-, -, hr⟩ := run_cases hmac m op
  · rw [hr] at h
    exact (sign_cache h).imp_right fun ⟨k, hk⟩ => ⟨data, a, times, k, hop, hk⟩
  · exact .inl ((generateKey_spec m a draw).2.cache ▸ h)
  · rw [hr, (rotateKeys_spec m rotation).2.1] at h
    exact .inl h
  · rw [hr] at h
    exact .inl h

lemma rotation_run (hmac : Bytes → Bytes → Bytes) (h : op.rotation m = some rotation) :
    op.run hmac m = (m.rotateKeys rotation).2 ∧ op.issues m = rotation.keys m := by
  obtain ⟨_, _, _, -, hr, -⟩ | ⟨a, draw, rfl⟩ | ⟨rotation', hr, hi, hrun⟩ | ⟨hr, -⟩ := run_cases hmac m op
  · cases h.symm.trans hr
  · cases h
  · cases h.symm.trans hr
    exact ⟨hrun, hi⟩
  · cases h.symm.trans hr

lemma rotation_times (h : op.rotation m = some rotation) (hc : advance t op.times = some t') :
    t ≤ rotation.deactivatedAt ∧ rotation.deactivatedAt ≤ rotation.rotatedAt ∧ rotation.rotatedAt = t' ∧
      rotation.deactivatedAt / second < 2 ^ 63 ∧ rotation.rotatedAt / second < 2 ^ 63 := by
  have htimes : ∃ u, t ≤ u ∧ advance u rotation.times = some t' := by
    cases op with
    | rotateKeys =>
      cases h
      exact ⟨t, le_rfl, hc⟩
    | checkAndRotateKeys readAt =>
      rw [Op.rotation] at h
      split_ifs at h
      cases h
      exact ⟨readAt, (advance_cons.mp hc).1.1, (advance_cons.mp hc).2⟩
    | _ => cases h
  obtain ⟨u, hu, hc⟩ := htimes
  simp only [Rotation.times, times, cons_append, nil_append, advance_cons, advance_nil] at hc
  omega

lemma sweptAt_times (h : op.sweptAt m a = some now) (hc : advance t op.times = some t') :
    t ≤ now ∧ now ≤ t' ∧ now / second < 2 ^ 63 := by
  obtain ⟨rotation, hr, h⟩ := bind_eq_some_iff.mp h
  rw [Rotation.sweptAt] at h
  split_ifs at h
  cases h
  have := rotation_times hr hc
  omega

end

namespace Signer

/-- As far as unexpired keys go, each list is that of the keys issued for its algorithm. -/
structure Kept (config : DnssecConfig) (s : Signer) : Prop where
  config_eq : s.manager.config = config
  active : ∀ k ∈ s.issued, k.metadata.isActive = true
  live : ∀ a, ∀ k ∈ s.manager.keysOf a, s.clock < k.expiresAt → k ∈ s.issued
  first : ∀ a t, s.clock ≤ t →
    firstLive expiresAt t (s.manager.keysOf a) = firstLive expiresAt t (ofAlgorithm a s.issued)

/-- No key is drawn twice, and a cached signature is that of a key that signs for as long as it lasts. -/
structure Sound (hmac : Bytes → Bytes → Bytes) (config : DnssecConfig) (s : Signer) : Prop extends Kept config s where
  distinct : Distinct s.issued
  cached : ∀ a data e, s.manager.signatureCache (cacheKey a data) = some e →
    e.createdAt ≤ s.clock ∧ ∃ k ∈ s.issued, e.signature = signature hmac k data ∧
      Leads expiresAt s.clock (ofAlgorithm a s.issued) k

variable {m' : DnssecKeyManager}

lemma kept_step (h : Kept config s) (hstep : step hmac s op = some s') : Kept config s' := by
  obtain ⟨clock, hc, rfl⟩ := map_eq_some_iff.mp hstep
  have hle := (advance_bounds hc).1
  refine ⟨(run_config hmac s.manager op).trans h.config_eq, ?_, ?_, ?_⟩
  · intro k hk
    rcases mem_append.mp hk with hk | hk
    · exact h.active k hk
    · exact issues_active hk
  · intro a k hk hlive
    simp only [run_keysOf] at hk hlive
    have hbase : k ∈ s.manager.keysOf a ++ ofAlgorithm a (op.issues s.manager) := by
      cases hs : op.sweptAt s.manager a with
      | none => rwa [hs] at hk
      | some now =>
        rw [hs] at hk
        have := sweptAt_times hs hc
        exact mem_of_sweep hk (by omega)
    rcases mem_append.mp hbase with hk | hk
    · exact mem_append_left _ (h.live a k hk (by omega))
    · exact mem_append_right _ (mem_of_mem_filter hk)
  · intro a t ht
    simp only [run_keysOf, ofAlgorithm_append] at ht ⊢
    have hfirst := h.first a t (by omega)
    have hbase : firstLive expiresAt t (s.manager.keysOf a ++ ofAlgorithm a (op.issues s.manager)) =
        firstLive expiresAt t (ofAlgorithm a s.issued ++ ofAlgorithm a (op.issues s.manager)) := by
      simp only [firstLive] at hfirst ⊢
      rw [List.find?_append, List.find?_append, hfirst]
    cases hs : op.sweptAt s.manager a with
    | none => exact hbase
    | some now =>
      have := sweptAt_times hs hc
      exact (sweep_first s.manager (by omega) _).trans hbase

lemma getActiveKey_iff (hs : Kept config s) (ht : s.clock ≤ t) : s.manager.getActiveKey a t = .ok k ↔
    s.manager.poisoned = false ∧ firstLive expiresAt t (ofAlgorithm a s.issued) = some k := by
  rw [← hs.first a t ht]
  have hlive := hs.live a
  rw [getActiveKey, keysOf] at *
  cases s.manager.poisoned with
  | true => simp
  | false =>
  rcases hkeys : s.manager.keys a with _ | l
  · simp [firstLive]
  simp only [hkeys, getD_some] at hlive ⊢
  have hfind : (l.find? fun key => key.metadata.isActive && t < key.expiresAt) =
    firstLive expiresAt t l := by
    apply find_eq_firstLive
    intro key hkey
    by_cases he : t < key.expiresAt
    · simp [hs.active key (hlive key hkey (by omega))]
    · simp [he]
  rw [hfind]
  cases firstLive expiresAt t l <;> simp

lemma active_issued (hs : Kept config s) (ht : s.clock ≤ t) (h : s.manager.getActiveKey a t = .ok k) :
    k ∈ ofAlgorithm a s.issued ∧ t < k.expiresAt := firstLive_some ((getActiveKey_iff hs ht).mp h).2

/-- The key behind the signature: that of the cached one, or the first key issued that has not expired. -/
def Made (hmac : Bytes → Bytes → Bytes) (s : Signer) (data : Bytes) (a : DnssecAlgorithm) (times : SigningTimes)
    (k : DnssecKey) : Prop :=
  match s.manager.cached data a times.cacheReadAt with
  | some sig => sig = signature hmac k data
  | none => firstLive expiresAt times.keyReadAt (ofAlgorithm a s.issued) = some k

lemma cached_entry (h : m.cached data a now = some sig) :
    ∃ e, m.signatureCache (cacheKey a data) = some e ∧ e.valid now = true ∧ e.signature = sig := by
  rw [DnssecKeyManager.cached, getCachedSignature] at h
  cases he : m.signatureCache (cacheKey a data) with
  | none => simp [he] at h
  | some e =>
    simp only [he] at h
    split_ifs at h with _ hv
    exact ⟨e, rfl, hv, Option.some.inj h⟩

lemma sign_ok {times : SigningTimes} (hs : Sound hmac config s) (hclock : s.clock ≤ times.cacheReadAt)
    (htimes : times.cacheReadAt ≤ times.keyReadAt) (h : s.manager.sign hmac data a times = (.ok sig, m')) :
    ∃ k ∈ s.issued, Made hmac s data a times k ∧ sig = signature hmac k data ∧
      Leads expiresAt times.keyReadAt (ofAlgorithm a s.issued) k := by
  rw [DnssecKeyManager.sign] at h
  cases hc : s.manager.cached data a times.cacheReadAt with
  | some =>
    simp only [hc, Prod.mk.injEq, Except.ok.injEq] at h
    obtain ⟨e, he, -, hsig⟩ := cached_entry hc
    obtain ⟨-, k, hk, hke, hl⟩ := hs.cached a data e he
    rw [hsig, h.1] at hke
    exact ⟨k, hk, by rw [Made, hc, h.1]; exact hke, hke, hl.later (by omega)⟩
  | none =>
    simp only [hc] at h
    cases hg : s.manager.getActiveKey a times.keyReadAt with
    | error => simp [hg] at h
    | ok k =>
      simp only [hg, Prod.mk.injEq, Except.ok.injEq] at h
      have hfirst := ((getActiveKey_iff hs.toKept (by omega)).mp hg).2
      exact ⟨k, mem_of_mem_filter (firstLive_some hfirst).1, by rw [Made, hc]; exact hfirst, h.1.symm,
        leads_of_first hfirst⟩

lemma leads_step (h : step hmac s op = some s') (hl : Leads expiresAt s.clock (ofAlgorithm a s.issued) k) :
    Leads expiresAt s'.clock (ofAlgorithm a s'.issued) k := by
  obtain ⟨clock, hc, rfl⟩ := map_eq_some_iff.mp h
  simp only [ofAlgorithm_append]
  exact (hl.later (advance_bounds hc).1).append

lemma issued_step (h : step hmac s op = some s') (hk : k ∈ s.issued) : k ∈ s'.issued := by
  obtain ⟨clock, -, rfl⟩ := map_eq_some_iff.mp h
  exact mem_append_left _ hk

lemma sound_step (hs : Sound hmac config s) (hf : Fresh s op) (h : step hmac s op = some s') :
    Sound hmac config s' := by
  refine ⟨kept_step hs.toKept h, ?_, ?_⟩
  · obtain ⟨clock, -, rfl⟩ := map_eq_some_iff.mp h
    exact hf
  intro a data e he
  obtain ⟨clock, hc, hs'⟩ := map_eq_some_iff.mp h
  have hle : s.clock ≤ s'.clock := hs' ▸ (advance_bounds hc).1
  have hrun : s'.manager = op.run hmac s.manager := by rw [← hs']
  rw [hrun] at he
  rcases run_cache he with hold | ⟨data', a', times, k, hop, hg, hkey, hsig, hcreated⟩
  · obtain ⟨hc, k, hk, hsig, hl⟩ := hs.cached a data e hold
    exact ⟨hc.trans hle, k, issued_step h hk, hsig, leads_step h hl⟩
  · obtain ⟨rfl, rfl⟩ := cacheKey_injective hkey
    obtain ⟨h0, h1, h2, h3⟩ := signing_times hop hc
    have hfirst := ((getActiveKey_iff hs.toKept (by omega)).mp hg).2
    subst hs'
    refine ⟨by rw [hcreated]; exact h3, k, issued_step h (mem_of_mem_filter (firstLive_some hfirst).1), hsig, ?_⟩
    simp only [ofAlgorithm_append]
    exact ((leads_of_first hfirst).later (h2.trans h3)).append

lemma new_spec {env : Option EnvKey} (h : new config t draw env = some s) :
    Grows ⟨config, fun _ => none, fun _ => none, 0, false⟩ s.manager s.issued ∧
      (∀ k ∈ s.issued, k.metadata.isActive = true) ∧ s.issued = initialKeys config draw env ∧
      advance t (draw.times ++ (env.map EnvKey.times).getD []) = some s.clock := by
  obtain ⟨clock, hclock, h⟩ := bind_eq_some_iff.mp h
  obtain ⟨result, hnew, h⟩ := bind_eq_some_iff.mp h
  obtain ⟨manager, hm, h⟩ := bind_eq_some_iff.mp h
  cases h
  have hgrows := (generateKey_spec ⟨config, fun _ => none, fun _ => none, 0, false⟩ config.defaultAlgorithm draw).2
  rw [DnssecKeyManager.new] at hnew
  rcases hg : generateKey ⟨config, fun _ => none, fun _ => none, 0, false⟩ config.defaultAlgorithm draw with
    ⟨_ | e | id, m⟩
  · simp [hg] at hnew
  · simp only [hg, Option.some.injEq] at hnew
    subst hnew
    cases hm
  rw [hg] at hgrows
  simp only [hg] at hnew
  cases env with
  | none =>
    cases hnew
    cases hm
    simp only [initialKeys, bind_none, toList_none, append_nil]
    exact ⟨hgrows, fun k hk => keys_active hk, trivial, hclock⟩
  | some env =>
    simp only [elim_some, addHmacKeyFromEnv, map_eq_some_iff] at hnew
    obtain ⟨key, hkey, rfl⟩ := hnew
    rw [show m.config = config from hgrows.config] at hkey
    rw [show m.poisoned = false from hgrows.poisoned] at hm
    cases hm
    have halg : key.metadata.algorithm = .hmacSha256 ∧ key.metadata.isActive = true := by
      obtain ⟨_, -, rfl⟩ := map_eq_some_iff.mp hkey
      exact ⟨rfl, rfl⟩
    simp only [initialKeys, bind_some, hkey, toList_some]
    refine ⟨hgrows.trans (grows_push halg.1), fun k hk => ?_, trivial, hclock⟩
    rcases mem_append.mp hk with hk | hk
    · exact keys_active hk
    · rw [mem_singleton.mp hk, halg.2]

lemma kept_new {env : Option EnvKey} (h : new config t draw env = some s) : Kept config s := by
  obtain ⟨hgrows, hactive, -⟩ := new_spec h
  have hkeys : ∀ a, s.manager.keysOf a = ofAlgorithm a s.issued := hgrows.keys
  refine ⟨hgrows.config, hactive, ?_, ?_⟩
  · intro a k hk _
    rw [hkeys] at hk
    exact mem_of_mem_filter hk
  · intro a t _
    rw [hkeys]

lemma kept_reach {env : Option EnvKey} {s0 : Signer} (hnew : new config t draw env = some s0)
    (h : Reach (step hmac) Free s0 s) : Kept config s :=
  h.invariant (fun _ _ => trivial) (kept_new hnew) fun _ _ _ _ hk _ hstep => kept_step hk hstep

lemma sound_new {env : Option EnvKey} (h : new config t draw env = some s) (hd : Distinct s.issued) :
    Sound hmac config s :=
  ⟨kept_new h, hd, fun _ _ _ he => by simp [(new_spec h).1.cache] at he⟩

def Reachable (hmac : Bytes → Bytes → Bytes) (config : DnssecConfig) (s : Signer) : Prop :=
  ∃ t draw env s0, new config t draw env = some s0 ∧ Distinct s0.issued ∧ Reach (step hmac) Fresh s0 s

section

variable (h : Reachable hmac config s)

include h

lemma Reachable.step (hf : Fresh s op) (hs : Signer.step hmac s op = some s') : Reachable hmac config s' := by
  obtain ⟨t, draw, env, s0, hnew, hd, h⟩ := h
  exact ⟨t, draw, env, s0, hnew, hd, h.tail hf hs⟩

lemma Reachable.trans (h' : Reach (Signer.step hmac) Fresh s s') : Reachable hmac config s' := by
  obtain ⟨t, draw, env, s0, hnew, hd, h⟩ := h
  exact ⟨t, draw, env, s0, hnew, hd, h.trans h'⟩

lemma Reachable.sound : Sound hmac config s := by
  obtain ⟨t, draw, env, s0, hnew, hd, h⟩ := h
  exact h.invariant (fun _ _ => trivial) (sound_new hnew hd) fun _ _ _ _ hs hf hstep =>
    sound_step hs hf hstep

end

end Signer

end

namespace Schedule

def join (key data : Bytes) : Bytes := key ++ data

lemma join_injective (data : Bytes) : Function.Injective (join · data) := fun _ _ h => append_cancel_right h

def zeros (n : ℕ) : Bytes := List.replicate n EdfCa.zeroByte

def config : DnssecConfig := ⟨.rsaSha256, 604800, 86400, 10, true, 300⟩

def draw (t n : ℕ) : KeyDraw := ⟨t * second, t * second, t * second, .ok (zeros n), n⟩

def rotationAt (t n : ℕ) : Rotation :=
  ⟨fun
    | .hmacSha256 => draw t n
    | .rsaSha256 => draw t (n + 1)
    | .ecdsaP256Sha256 => draw t (n + 2), t * second, t * second, algorithms, .refl _⟩

def signing (t : ℕ) : SigningTimes := ⟨t * second, t * second, t * second, t * second⟩

def recording (t : ℕ) : RecordTimes := ⟨t * second, signing t, t * second⟩

def demo : Name := ⟨["demo", "fleetingdns", "run"]⟩

def booted : Option Signer := Signer.new config 0 (draw 1000 1) none

def after (ops : List Op) : Option Signer := booted.bind (runs (Signer.step join) Signer.Fresh · ops)

lemma reachable_after {ops : List Op} {s : Signer} (h : after ops = some s) : Signer.Reachable join config s := by
  obtain ⟨s0, h0, hr⟩ := bind_eq_some_iff.mp h
  have hd : booted.all (fun s => decide (Signer.Distinct s.issued)) = true := by decide
  rw [h0, all_some, decide_eq_true_eq] at hd
  exact ⟨0, draw 1000 1, none, s0, h0, hd, reach_of_runs hr⟩

end Schedule

end FleetingDns.Dnssec
