import FleetingDns.DnssecSigner
namespace FleetingDns.Dnssec.Signer

open ExpiringStore EdfCa Dns Panics FirstLive GuardedRuns DnssecKeyManager List Option DnssecKey

variable {hmac : Bytes → Bytes → Bytes} {u32 : ℕ → Option ℕ} {config : DnssecConfig} {s s' s'' : Signer}
  {a : DnssecAlgorithm} {k k' : DnssecKey} {name : Name} {typ : RecordType} {ttl t : ℕ} {rrset data : Bytes}
  {times : RecordTimes} {record : RrsigRecord}

lemma Sound.eq_of_signature (hinj : ∀ data, Function.Injective (hmac · data)) (hs : Sound hmac config s)
    (hk : k ∈ s.issued) (hk' : k' ∈ s.issued) (h : signature hmac k data = signature hmac k' data) : k = k' := by
  rw [signature_eq, signature_eq] at h
  exact inj_on_of_nodup_map hs.distinct hk hk' (hinj data h)

lemma record_times {clock : ℕ} (h : advance s.clock times.times = some clock) : s.clock ≤ times.signing.cacheReadAt ∧
    times.signing.cacheReadAt ≤ times.signing.keyReadAt ∧ times.signing.keyReadAt ≤ times.tagReadAt ∧
    clock = times.tagReadAt := by
  simp only [RecordTimes.times, SigningTimes.times, cons_append, nil_append, advance_cons, advance_nil] at h
  omega

lemma record_ok (hr : (s.manager.rrsigRecordWithAlgorithm hmac u32 name typ ttl rrset a times).1 = some (.ok record)) :
    ∃ sig m' tagKey, s.manager.sign hmac rrset a times.signing = (.ok sig, m') ∧
      s.manager.getActiveKey a times.tagReadAt = .ok tagKey ∧ record.rrsig.sig = sig ∧ record.rrsig.keyTag = tagKey.tag ∧
      u32 (times.startedAt / second % 2 ^ 32 + ttl) = some record.rrsig.sigExpiration ∧ record.rrsig.typeCovered = typ ∧
      record.rrsig.algorithm = a.toHickoryAlgorithm ∧ record.name = name := by
  obtain ⟨hkeys, -, hpoisoned⟩ := sign_frame hmac s.manager rrset a times.signing
  rw [rrsigRecordWithAlgorithm] at hr
  rcases hsign : s.manager.sign hmac rrset a times.signing with ⟨e | sig, m'⟩
  · simp [hsign] at hr
  simp only [hsign] at hr hkeys hpoisoned
  have hactive : m'.getActiveKey a times.tagReadAt = s.manager.getActiveKey a times.tagReadAt := by
    simp only [getActiveKey, hkeys, hpoisoned]
  rw [hactive] at hr
  cases hg : s.manager.getActiveKey a times.tagReadAt with
  | error => simp [hg] at hr
  | ok key =>
    simp only [hg, map_eq_some_iff, Except.ok.injEq] at hr
    obtain ⟨expiration, hexp, rfl⟩ := hr
    exact ⟨sig, m', key, rfl, rfl, rfl, rfl, hexp, rfl, rfl, rfl⟩

def NamesSigner (hmac : Bytes → Bytes → Bytes) (s : Signer) (rrset : Bytes) (record : RrsigRecord) : Prop :=
  ∃ k ∈ s.issued, signature hmac k rrset = record.rrsig.sig ∧ record.rrsig.keyTag = k.tag

/-- The key behind the signature is unexpired when the tag is read. -/
def SignerUnexpired (hmac : Bytes → Bytes → Bytes) (s : Signer) (rrset : Bytes) (a : DnssecAlgorithm)
    (times : RecordTimes) : Prop :=
  ∃ k ∈ s.issued, Made hmac s rrset a times.signing k ∧ times.tagReadAt < k.expiresAt

lemma made_unique (hinj : ∀ data, Function.Injective (hmac · data)) (hs : Sound hmac config s) {times : SigningTimes}
    (hk : k ∈ s.issued) (hk' : k' ∈ s.issued) (h : Made hmac s data a times k) (h' : Made hmac s data a times k') :
    k = k' := by
  rw [Made] at h h'
  cases hc : s.manager.cached data a times.cacheReadAt with
  | some =>
    simp only [hc] at h h'
    exact hs.eq_of_signature hinj hk hk' (h.symm.trans h')
  | none =>
    simp only [hc] at h h'
    exact Option.some.inj (h.symm.trans h')

theorem names_signer_iff (hinj : ∀ data, Function.Injective (hmac · data)) (h : Reachable hmac config s) {clock : ℕ}
    (hclock : advance s.clock times.times = some clock)
    (hr : (s.manager.rrsigRecordWithAlgorithm hmac u32 name typ ttl rrset a times).1 = some (.ok record)) :
    (SignerUnexpired hmac s rrset a times → NamesSigner hmac s rrset record) ∧
    ((∀ k ∈ s.issued, ∀ k' ∈ s.issued, k.tag = k'.tag → k = k') →
      (NamesSigner hmac s rrset record ↔ SignerUnexpired hmac s rrset a times)) := by
  have hs := h.sound
  obtain ⟨h0, h1, h2, -⟩ := record_times hclock
  obtain ⟨sig, m', tagKey, hsign, htag, hsig, hkeyTag, -⟩ := record_ok hr
  obtain ⟨k, hk, hmade, hks, hlead⟩ := sign_ok hs h0 h1 hsign
  obtain ⟨htagged, hlive⟩ := active_issued hs.toKept (by omega) htag
  have hnames : SignerUnexpired hmac s rrset a times → NamesSigner hmac s rrset record := by
    rintro ⟨k', hk', hmade', hunexpired⟩
    have heq := made_unique hinj hs hk' hk hmade' hmade
    subst heq
    have hfirst := ((getActiveKey_iff hs.toKept (by omega)).mp htag).2
    rw [hlead.later h2 hunexpired, Option.some.injEq] at hfirst
    exact ⟨k', hk, by rw [hsig, hks], by rw [hkeyTag, hfirst]⟩
  refine ⟨hnames, fun htags => ⟨?_, hnames⟩⟩
  rintro ⟨k', hk', hsig', hnamed⟩
  have heq : k' = k := hs.eq_of_signature hinj hk' hk (by rw [hsig', hsig, hks])
  have htagKey : tagKey = k := htags tagKey (mem_of_mem_filter htagged) k hk (by rw [← hkeyTag, hnamed, heq])
  exact ⟨k, hk, hmade, htagKey ▸ hlive⟩

instance {record : RrsigRecord} : Decidable (NamesSigner hmac s rrset record) :=
  inferInstanceAs (Decidable (∃ k ∈ s.issued, _))

instance {times : SigningTimes} : Decidable (Made hmac s data a times k) := by
  unfold Made
  split <;> infer_instance

open Dnssec.Schedule

def recorded (s : Signer) (t : ℕ) : Option RrsigRecord :=
  (s.manager.rrsigRecordWithAlgorithm join (fits 32) demo .a 300 [] .rsaSha256 (recording t)).1.bind Except.toOption

lemma recorded_ok (h : recorded s t = some record) :
    (s.manager.rrsigRecordWithAlgorithm join (fits 32) demo .a 300 [] .rsaSha256 (recording t)).1 = some (.ok record) := by
  obtain ⟨r, hr, h⟩ := bind_eq_some_iff.mp h
  cases r with
  | error => cases h
  | ok => rw [hr, Option.some.inj h]

def handover : List Op :=
  [.rotateKeys (rotationAt 604000 2), .rrsigRecord demo .a 300 [] .rsaSha256 (recording 605700)]

theorem names_signer_of_first_key : ∃ s record, Reachable join Dnssec.Schedule.config s ∧
    recorded s 1001 = some record ∧ NamesSigner join s [] record := by
  have hcheck : ((after []).any fun s => decide (advance s.clock (recording 1001).times = some (1001 * second)) &&
      (recorded s 1001).isSome && s.issued.any fun k => decide (Made join s [] .rsaSha256 (signing 1001) k) &&
        decide (1001 * second < k.expiresAt)) = true := by decide
  simp only [Option.any_eq_true, Bool.and_eq_true, decide_eq_true_eq, List.any_eq_true,
    isSome_iff_exists] at hcheck
  obtain ⟨s, hs, ⟨hclock, record, hr⟩, k, hk, hmade, hlive⟩ := hcheck
  exact ⟨s, record, reachable_after hs, hr, (names_signer_iff join_injective (reachable_after hs) hclock
    (recorded_ok hr)).1 ⟨k, hk, hmade, hlive⟩⟩

theorem cached_signature_misnamed : ∃ s record clock, Reachable join Dnssec.Schedule.config s ∧
    advance s.clock (recording 605801).times = some clock ∧ recorded s 605801 = some record ∧
    ¬ NamesSigner join s [] record := by
  have hcheck : ((after handover).any fun s => (advance s.clock (recording 605801).times).isSome &&
      (recorded s 605801).any fun record => !decide (NamesSigner join s [] record)) = true := by decide
  simp only [Option.any_eq_true, Bool.and_eq_true, Option.isSome_iff_exists, Bool.not_eq_true',
    decide_eq_false_iff_not] at hcheck
  obtain ⟨s, hs, ⟨clock, hclock⟩, record, hr, hnames⟩ := hcheck
  exact ⟨s, record, clock, reachable_after hs, hclock, hr, hnames⟩

def Accepted (hmac : Bytes → Bytes → Bytes) (s : Signer) (rrsig : Rrsig) (rrset : Bytes) (a : DnssecAlgorithm)
    (t : ℕ) : Prop :=
  s.manager.validateRrsig hmac rrsig rrset a t = .ok true

def Verifiable (hmac : Bytes → Bytes → Bytes) (s : Signer) (rrsig : Rrsig) (rrset : Bytes) (a : DnssecAlgorithm)
    (k : DnssecKey) (expiration t : ℕ) : Prop :=
  (t / second ≤ expiration → t < k.expiresAt + s.manager.config.gracePeriod * second → Accepted hmac s rrsig rrset a t) ∧
    (expiration < t / second → ¬ Accepted hmac s rrsig rrset a t)

/-- Up to the expiration the key is past its grace period, or it is unexpired and can be read; after the expiration it
has expired or cannot be read. -/
def ExpireTogether (m : DnssecKeyManager) (k : DnssecKey) (expiration t : ℕ) : Prop :=
  if t / second ≤ expiration then
    k.expiresAt + m.config.gracePeriod * second ≤ t ∨ m.poisoned = false ∧ t < k.expiresAt
  else m.poisoned = true ∨ k.expiresAt ≤ t

lemma leads_reach (h : Reach (step hmac) Fresh s s') (hl : Leads expiresAt s.clock (ofAlgorithm a s.issued) k) :
    Leads expiresAt s'.clock (ofAlgorithm a s'.issued) k := by
  induction h with
  | refl => exact hl
  | tail _ _ hs ih => exact leads_step hs ih

lemma issued_reach (h : Reach (step hmac) Fresh s s') (hk : k ∈ s.issued) : k ∈ s'.issued := by
  induction h with
  | refl => exact hk
  | tail _ _ hs ih => exact issued_step hs ih

lemma accepted_iff (hinj : ∀ data, Function.Injective (hmac · data)) (hs : Sound hmac config s) (hk : k ∈ s.issued)
    (hl : Leads expiresAt s.clock (ofAlgorithm a s.issued) k) {rrsig : Rrsig}
    (hsig : rrsig.sig = signature hmac k rrset) (ht : s.clock ≤ t) :
    Accepted hmac s rrsig rrset a t ↔ s.manager.poisoned = false ∧ t < k.expiresAt := by
  rw [Accepted, validateRrsig]
  constructor
  · intro hok
    cases hg : s.manager.getActiveKey a t with
    | error => simp [hg] at hok
    | ok =>
      simp only [hg, Except.ok.injEq, decide_eq_true_eq] at hok
      obtain ⟨hi, hlive⟩ := active_issued hs.toKept ht hg
      refine ⟨((getActiveKey_iff hs.toKept ht).mp hg).1, ?_⟩
      rwa [hs.eq_of_signature hinj hk (mem_of_mem_filter hi) (hsig.symm.trans hok)]
  · rintro ⟨hread, hlive⟩
    have hg := (getActiveKey_iff hs.toKept ht).mpr ⟨hread, hl.later ht hlive⟩
    simp [hg, hsig]

lemma fresh_record (hs : Sound hmac config s) : Fresh s (.rrsigRecord name typ ttl rrset a times) := by
  simpa [Fresh, Op.issues, Op.rotation] using hs.distinct

lemma record_backed (hs : Sound hmac config s) (hstep : step hmac s (.rrsigRecord name typ ttl rrset a times) = some s')
    (hr : (s.manager.rrsigRecordWithAlgorithm hmac u32 name typ ttl rrset a times).1 = some (.ok record)) :
    ∃ k ∈ s.issued, record.rrsig.sig = signature hmac k rrset ∧
      Leads expiresAt s'.clock (ofAlgorithm a s'.issued) k := by
  obtain ⟨clock, hclock, rfl⟩ := map_eq_some_iff.mp hstep
  obtain ⟨h0, h1, h2, rfl⟩ := record_times hclock
  obtain ⟨sig, m', tagKey, hsign, -, hsig, -, -⟩ := record_ok hr
  obtain ⟨k, hk, -, hks, hlead⟩ := sign_ok hs h0 h1 hsign
  simp only [ofAlgorithm_append]
  exact ⟨k, hk, hsig.trans hks, (hlead.later h2).append⟩

theorem rrsig_verifiable_iff (hinj : ∀ data, Function.Injective (hmac · data))
    (hu : ∀ n n', u32 n = some n' → n' = n % 2 ^ 32) (h : Reachable hmac config s)
    (hstep : step hmac s (.rrsigRecord name typ ttl rrset a times) = some s')
    (hr : (s.manager.rrsigRecordWithAlgorithm hmac u32 name typ ttl rrset a times).1 = some (.ok record))
    (h' : Reach (step hmac) Fresh s' s'') (ht : s''.clock ≤ t) :
    ∃ k ∈ s.issued, signature hmac k rrset = record.rrsig.sig ∧
      record.rrsig.sigExpiration = (times.startedAt / second + ttl) % 2 ^ 32 ∧
      (Verifiable hmac s'' record.rrsig rrset a k (times.startedAt / second + ttl) t ↔
        ExpireTogether s''.manager k (times.startedAt / second + ttl) t) := by
  have hs := h.sound
  obtain ⟨-, -, -, -, -, -, -, hexp, -⟩ := record_ok hr
  obtain ⟨k, hk, hsig, hlead⟩ := record_backed hs hstep hr
  refine ⟨k, hk, hsig.symm, by rw [hu _ _ hexp, Nat.mod_add_mod], ?_⟩
  have hs'' := ((h.step (fresh_record hs) hstep).trans h').sound
  have hk'' := issued_reach h' (issued_step hstep hk)
  have hacc := accepted_iff hinj hs'' hk'' (leads_reach h' hlead) hsig ht
  rw [Verifiable, ExpireTogether, hacc]
  cases s''.manager.poisoned <;> split_ifs <;> simp <;> omega

def recordOp (t : ℕ) : Op := .rrsigRecord demo .a 300 [] .rsaSha256 (recording t)

theorem rrsig_verifiable_while_fresh : ∃ s s' record, Reachable join Dnssec.Schedule.config s ∧
    step join s (recordOp 1001) = some s' ∧ recorded s 1001 = some record ∧
    ∃ k ∈ s.issued, signature join k [] = record.rrsig.sig ∧
      Verifiable join s' record.rrsig [] .rsaSha256 k (1001 * second / second + 300) (1100 * second) := by
  have hcheck : ((after []).any fun s => (recorded s 1001).isSome && (s.issued.all fun k =>
      decide (1100 * second < k.expiresAt)) && (step join s (recordOp 1001)).any fun s' =>
        decide (s'.clock ≤ 1100 * second) && !s'.manager.poisoned)
      = true := by decide
  simp only [Option.any_eq_true, Bool.and_eq_true, decide_eq_true_eq, List.all_eq_true, Bool.not_eq_true',
    isSome_iff_exists] at hcheck
  obtain ⟨s, hs, ⟨⟨record, hr⟩, hlive⟩, s', hstep, hclock, hread⟩ := hcheck
  have hfits (n n' : ℕ) (h : fits 32 n = some n') : n' = n % 2 ^ 32 := by
    obtain ⟨hlt, rfl⟩ := fits_eq_some.mp h
    exact (Nat.mod_eq_of_lt hlt).symm
  obtain ⟨k, hk, hsig, -, hiff⟩ := rrsig_verifiable_iff join_injective hfits (reachable_after hs) hstep
    (recorded_ok hr) .refl hclock
  have htogether : ExpireTogether s'.manager k (1001 * second / second + 300) (1100 * second) := by
    rw [ExpireTogether, if_pos (by decide)]
    exact .inr ⟨hread, hlive k hk⟩
  exact ⟨s, s', record, reachable_after hs, hstep, hr, k, hk, hsig, hiff.mpr htogether⟩

theorem expired_rrsig_accepted : ∃ s s' record, Reachable join Dnssec.Schedule.config s ∧
    step join s (recordOp 1001) = some s' ∧ recorded s 1001 = some record ∧ record.rrsig.sigExpiration = 1301 ∧
    s'.clock ≤ 1302 * second ∧ s'.manager.validateRrsig join record.rrsig [] .rsaSha256 (1302 * second) = .ok true := by
  have hcheck : ((after []).any fun s => (recorded s 1001).any fun record => (step join s (recordOp 1001)).any fun s' =>
      decide (record.rrsig.sigExpiration = 1301) && decide (s'.clock ≤ 1302 * second) &&
        decide (s'.manager.validateRrsig join record.rrsig [] .rsaSha256 (1302 * second) = .ok true)) = true := by decide
  simp only [Option.any_eq_true, Bool.and_eq_true, decide_eq_true_eq] at hcheck
  obtain ⟨s, hs, record, hr, s', hstep, ⟨hexp, hclock⟩, hacc⟩ := hcheck
  exact ⟨s, s', record, reachable_after hs, hstep, hr, hexp, hclock, hacc⟩

end FleetingDns.Dnssec.Signer
