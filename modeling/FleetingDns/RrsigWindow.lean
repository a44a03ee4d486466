import FleetingDns.Library.Panics
import FleetingDns.RrsigRecords
namespace FleetingDns.Dnssec

open ExpiringStore Dns Panics DnssecKeyManager Option

structure HmacSigner where
  key : Bytes

section

variable (hmac : Bytes → Bytes → Bytes)

def HmacSigner.sign (signer : HmacSigner) (data : Bytes) : Bytes := hmac signer.key data

def HmacSigner.rrsigRecord (signer : HmacSigner) (name : Name) (typ : RecordType) (ttl : ℕ) (rrset : Bytes)
    (startedAt : ℕ) : Option RrsigRecord :=
  let now := startedAt / second % 2 ^ 32
  let sig := signer.sign hmac rrset
  match fits 32 (now + ttl) with
  | none => none
  | some sigExpiration => some ⟨name, ttl, ⟨typ, .unknown 253, name.numLabels, ttl, sigExpiration, now, 0, name, sig⟩⟩

end

def SerialLt (i j : ℕ) : Prop := i < j ∧ j - i < 2 ^ 31 ∨ j < i ∧ 2 ^ 31 < i - j

def SerialLe (i j : ℕ) : Prop := i = j ∨ SerialLt i j

def Windowed (order : ℕ → ℕ → Prop) (startedAt ttl : ℕ) (result : Option (Except DnssecError RrsigRecord)) : Prop :=
  ∃ record, result = some (.ok record) ∧ record.rrsig.sigInception = startedAt / second % 2 ^ 32 ∧
    record.rrsig.sigExpiration = (record.rrsig.sigInception + ttl) % 2 ^ 32 ∧
    (ttl < 2 ^ 31 → order record.rrsig.sigInception record.rrsig.sigExpiration)

variable {hmac : Bytes → Bytes → Bytes} {m m' : DnssecKeyManager} {name : Name} {typ : RecordType} {ttl startedAt : ℕ}
  {rrset : Bytes} {a : DnssecAlgorithm} {times : RecordTimes} {order : ℕ → ℕ → Prop} {sig : Bytes} {key : DnssecKey}

lemma serialLt_add {i n : ℕ} (hpos : 0 < n) (hn : n < 2 ^ 31) : SerialLt i (i + n) := by
  left
  omega

lemma windowed_iff {now : ℕ} (hnow : now = startedAt / second % 2 ^ 32) (make : ℕ → RrsigRecord)
    (hmake : ∀ e, (make e).rrsig.sigInception = now ∧ (make e).rrsig.sigExpiration = e) :
    Windowed order startedAt ttl ((fits 32 (now + ttl)).map fun e => .ok (make e)) ↔
      now + ttl < 2 ^ 32 ∧ (ttl < 2 ^ 31 → order now (now + ttl)) := by
  cases hsum : fits 32 (now + ttl) with
  | none =>
    rw [fits_eq_none] at hsum
    simp only [Windowed, map_none, reduceCtorEq, false_and, exists_false, false_iff]
    omega
  | some =>
    obtain ⟨hlt, rfl⟩ := fits_eq_some.mp hsum
    obtain ⟨hinception, hexpiration⟩ := hmake (now + ttl)
    constructor
    · rintro ⟨record, hrecord, -, -, horder⟩
      cases hrecord
      rw [hinception, hexpiration] at horder
      exact ⟨hlt, horder⟩
    · rintro ⟨-, horder⟩
      refine ⟨make (now + ttl), rfl, hinception.trans hnow, ?_, ?_⟩
      · rw [hinception, hexpiration, Nat.mod_eq_of_lt hlt]
      · rw [hinception, hexpiration]
        exact horder

lemma windowed_strict {now : ℕ} : (now + ttl < 2 ^ 32 ∧ (ttl < 2 ^ 31 → SerialLt now (now + ttl))) ↔
    now + ttl < 2 ^ 32 ∧ ttl ≠ 0 := by
  apply and_congr_right
  intro _
  constructor
  · rintro h rfl
    have := h (by decide)
    simp [SerialLt] at this
  · intro hpos hn
    exact serialLt_add (by omega) hn

lemma windowed_weak {now : ℕ} : (now + ttl < 2 ^ 32 ∧ (ttl < 2 ^ 31 → SerialLe now (now + ttl))) ↔
    now + ttl < 2 ^ 32 := by
  refine and_iff_left ?_
  intro hn
  rcases Nat.eq_zero_or_pos ttl with rfl | hpos
  · exact .inl rfl
  · exact .inr (serialLt_add hpos hn)

lemma hmacSigner_windowed (signer : HmacSigner) :
    Windowed order startedAt ttl ((signer.rrsigRecord hmac name typ ttl rrset startedAt).map .ok) ↔
      startedAt / second % 2 ^ 32 + ttl < 2 ^ 32 ∧
        (ttl < 2 ^ 31 → order (startedAt / second % 2 ^ 32) (startedAt / second % 2 ^ 32 + ttl)) := by
  rw [← windowed_iff rfl (fun e => ⟨name, ttl, ⟨typ, .unknown 253, name.numLabels, ttl, e,
    startedAt / second % 2 ^ 32, 0, name, signer.sign hmac rrset⟩⟩) fun e => ⟨rfl, rfl⟩]
  rw [HmacSigner.rrsigRecord]
  cases fits 32 (startedAt / second % 2 ^ 32 + ttl) <;> rfl

lemma production_windowed (hsign : m.sign hmac rrset a times.signing = (.ok sig, m'))
    (hkey : m'.getActiveKey a times.tagReadAt = .ok key) :
    Windowed order times.startedAt ttl (m.rrsigRecordWithAlgorithm hmac (fits 32) name typ ttl rrset a times).1 ↔
      times.startedAt / second % 2 ^ 32 + ttl < 2 ^ 32 ∧
        (ttl < 2 ^ 31 → order (times.startedAt / second % 2 ^ 32) (times.startedAt / second % 2 ^ 32 + ttl)) := by
  rw [← windowed_iff rfl (fun e => ⟨name, ttl, ⟨typ, a.toHickoryAlgorithm, name.numLabels, ttl, e,
    times.startedAt / second % 2 ^ 32, key.metadata.keyTag, name, sig⟩⟩) fun e => ⟨rfl, rfl⟩]
  rw [rrsigRecordWithAlgorithm]
  simp only [hsign, hkey]

theorem rrsig_window (signer : HmacSigner) (times : RecordTimes)
    (hsign : m.sign hmac rrset a times.signing = (.ok sig, m'))
    (hkey : m'.getActiveKey a times.tagReadAt = .ok key) :
    let fitting := times.startedAt / second % 2 ^ 32 + ttl < 2 ^ 32
    let legacy := (signer.rrsigRecord hmac name typ ttl rrset times.startedAt).map .ok
    let production := (m.rrsigRecordWithAlgorithm hmac (fits 32) name typ ttl rrset a times).1
    (Windowed SerialLe times.startedAt ttl legacy ↔ fitting) ∧
    (Windowed SerialLe times.startedAt ttl production ↔ fitting) ∧
    (Windowed SerialLt times.startedAt ttl legacy ↔ fitting ∧ ttl ≠ 0) ∧
    (Windowed SerialLt times.startedAt ttl production ↔ fitting ∧ ttl ≠ 0) := by
  refine ⟨?_, ?_, ?_, ?_⟩
  · rw [hmacSigner_windowed, windowed_weak]
  · rw [production_windowed hsign hkey, windowed_weak]
  · rw [hmacSigner_windowed, windowed_strict]
  · rw [production_windowed hsign hkey, windowed_strict]

open Dnssec.Schedule

theorem rrsig_window_booted : ∃ s sig m' key, Signer.new config 0 (draw 1000 1) none = some s ∧
    s.manager.sign join [] .rsaSha256 (signing 1001) = (.ok sig, m') ∧
    m'.getActiveKey .rsaSha256 (1001 * second) = .ok key ∧
    Windowed SerialLt (1001 * second) 300 (s.manager.rrsigRecordWithAlgorithm join (fits 32) demo .a 300 [] .rsaSha256 (recording 1001)).1 := by
  have hcheck : (booted.any fun s => (s.manager.sign join [] .rsaSha256 (signing 1001)).1.toOption.isSome &&
      ((s.manager.sign join [] .rsaSha256 (signing 1001)).2.getActiveKey .rsaSha256 (1001 * second)).toOption.isSome) =
        true := by decide +kernel
  rw [any_eq_true] at hcheck
  obtain ⟨s, hnew, hcheck⟩ := hcheck
  rw [Bool.and_eq_true] at hcheck
  rcases hsign : s.manager.sign join [] .rsaSha256 (signing 1001) with ⟨e | sig, m'⟩
  · simp [hsign, Except.toOption] at hcheck
  · rw [hsign] at hcheck
    cases hkey : m'.getActiveKey .rsaSha256 (1001 * second) with
    | error => simp [hkey, Except.toOption] at hcheck
    | ok key =>
      exact ⟨s, sig, m', key, hnew, hsign, hkey, (rrsig_window ⟨zeros 1⟩ (recording 1001) hsign hkey).2.2.2.mpr
        (by decide)⟩

theorem rrsig_window_overflows : ∃ s, Signer.new config 0 (draw 4294967290 1) none = some s ∧
    (s.manager.getActiveKey .rsaSha256 (4294967295 * second)).toOption.isSome = true ∧
    (s.manager.rrsigRecordWithAlgorithm join (fits 32) demo .a 300 [] .rsaSha256 (recording 4294967295)).1 = none ∧
    (HmacSigner.mk (zeros 1)).rrsigRecord join demo .a 300 [] (4294967295 * second) = none := by
  have hcheck : ((Signer.new config 0 (draw 4294967290 1) none).any fun s =>
      (s.manager.getActiveKey .rsaSha256 (4294967295 * second)).toOption.isSome &&
      (s.manager.rrsigRecordWithAlgorithm join (fits 32) demo .a 300 [] .rsaSha256 (recording 4294967295)).1.isNone) = true := by
    decide +kernel
  rw [any_eq_true] at hcheck
  obtain ⟨s, hnew, hcheck⟩ := hcheck
  rw [Bool.and_eq_true, isNone_iff_eq_none] at hcheck
  exact ⟨s, hnew, hcheck.1, hcheck.2, by decide +kernel⟩

end FleetingDns.Dnssec
