import FleetingDns.Library.Panics
import FleetingDns.Library.Tables
import FleetingDns.MessageValidation
namespace FleetingDns.Dnssec

open ExpiringStore Dns Panics GuardedRuns DnssecKeyManager Option List Tables Sessions

structure ValidationStats where
  (totalValidations successfulValidations failedValidations : ℕ)
  validationsByAlgorithm : AList fun _ : String => ℕ
  averageValidationTimeUs : ℕ

def ValidationStats.default : ValidationStats := ⟨0, 0, 0, ∅, 0⟩

/-- The statistics behind their lock; nothing can be read once the lock is poisoned. -/
structure DnssecValidator where
  validationStats : Option ValidationStats

def DnssecValidator.new : DnssecValidator := ⟨some .default⟩

structure ValidationTimes where
  (startedAt keyReadAt finishedAt : ℕ)

def ValidationTimes.elapsedUs (times : ValidationTimes) : ℕ := (times.finishedAt - times.startedAt) / 1000 % 2 ^ 64

section

-- what the build makes of the result of 64-bit arithmetic: an overflow panics or wraps around
variable (u64 : ℕ → Option ℕ)

namespace ValidationStats

def updateValidationStats (algorithm : DnssecAlgorithm) (incrementTotal : Bool) (stats : ValidationStats) :
    Option ValidationStats := do
  let total ← if incrementTotal then u64 (stats.totalValidations + 1) else some stats.totalValidations
  let count ← u64 ((stats.validationsByAlgorithm.lookup algorithm.debug).getD 0 + 1)
  return { stats with
    totalValidations := total
    validationsByAlgorithm := stats.validationsByAlgorithm.insert algorithm.debug count }

def updateTimingStats (elapsedUs : ℕ) (stats : ValidationStats) : Option ValidationStats :=
  if stats.totalValidations = 0 then some { stats with averageValidationTimeUs := elapsedUs }
  else do
    let product ← u64 (stats.averageValidationTimeUs * (stats.totalValidations - 1))
    let sum ← u64 (product + elapsedUs)
    return { stats with averageValidationTimeUs := sum / stats.totalValidations }

def updateValidationResult (isValid : Bool) (stats : ValidationStats) : Option ValidationStats :=
  if isValid then do return { stats with successfulValidations := ← u64 (stats.successfulValidations + 1) }
  else do return { stats with failedValidations := ← u64 (stats.failedValidations + 1) }

end ValidationStats

open ValidationStats

variable (hmac : Bytes → Bytes → Bytes) (enc : Encoder)

namespace DnssecValidator

section

variable (v : DnssecValidator)

def update (f : ValidationStats → Option ValidationStats) : Option Unit × DnssecValidator :=
  match v.validationStats with
  | none => (some (), v)
  | some stats => ((f stats).map fun _ => (), ⟨f stats⟩)

def resetValidationStats : DnssecValidator :=
  (v.update fun _ => some ValidationStats.default).2

def validateRrsig (m : DnssecKeyManager) (rrsig : Rrsig) (rrset : Bytes)
    (algorithm : DnssecAlgorithm) (times : ValidationTimes) : Option (Except DnssecError Bool) × DnssecValidator :=
  match v.update (updateValidationStats u64 algorithm true) with
  | (none, v) => (none, v)
  | (some (), v) =>
    match m.getActiveKey algorithm times.keyReadAt with
    | .error e => (some (.error e), v)
    | .ok key =>
      let isValid := decide (rrsig.sig = signature hmac key rrset)
      match v.update (updateTimingStats u64 times.elapsedUs) with
      | (none, v) => (none, v)
      | (some (), v) =>
        match v.update (updateValidationResult u64 isValid) with
        | (none, v) => (none, v)
        | (some (), v) => (some (.ok isValid), v)

def validateAnswer (m : DnssecKeyManager) (answers : List Answer) (times : ValidationTimes)
    (result : ValidationResult) (record : Answer) : Option ValidationResult × DnssecValidator :=
  match record.data with
  | .other _ _ => (some result, v)
  | .rrsig rrsig =>
    let coveredRecords := covered answers rrsig
    if coveredRecords.isEmpty then (some result, v)
    else
      let errors := result.errors ++ (enc.write coveredRecords enc.fresh).1.map .encoding
      match fromHickoryAlgorithm rrsig.algorithm with
      | none => (some { result with errors := errors ++ [.unsupportedAlgorithm rrsig.algorithm] }, v)
      | some algorithm =>
        match v.validateRrsig u64 hmac m rrsig (enc.encode coveredRecords) algorithm times with
        | (none, v) => (none, v)
        | (some (.ok true), v) => (some { result with
            errors := errors
            validSignatures := result.validSignatures + 1 }, v)
        | (some (.ok false), v) => (some { result with
            errors := errors ++ [.invalidSignature rrsig.typeCovered]
            invalidSignatures := result.invalidSignatures + 1 }, v)
        | (some (.error e), v) => (some { result with
            errors := errors ++ [.validation e]
            validationErrors := result.validationErrors + 1 }, v)

end

def validateAnswers (m : DnssecKeyManager) (answers : List Answer) (times : ℕ → ValidationTimes) :
    List (Answer × ℕ) → ValidationResult → DnssecValidator → Option ValidationResult × DnssecValidator
  | [], result, v => (some result, v)
  | x :: xs, result, v =>
    match v.validateAnswer u64 hmac enc m answers (times x.2) result x.1 with
    | (none, v) => (none, v)
    | (some result, v) => validateAnswers m answers times xs result v

def validateDnsMessage (v : DnssecValidator) (m : DnssecKeyManager) (answers : List Answer)
    (times : ℕ → ValidationTimes) : Option ValidationResult × DnssecValidator :=
  let result : ValidationResult := ⟨.unsigned, 0, 0, 0, []⟩
  if (signatures answers).isEmpty then (some result, v)
  else
    let (result, v) := validateAnswers u64 hmac enc m answers times (signatures answers).zipIdx result v
    (result.map fun result => { result with status := result.conclude }, v)

end DnssecValidator

end

structure Check where
  rrsig : Rrsig
  rrset : Bytes
  algorithm : DnssecAlgorithm
  times : ValidationTimes

/-- A signature of a message is passed over without records it covers or with an unknown algorithm. -/
def Check.ofAnswer (enc : Encoder) (answers : List Answer) (times : ℕ → ValidationTimes) (x : Answer × ℕ) :
    Option Check :=
  match x.1.data with
  | .other _ _ => none
  | .rrsig rrsig =>
    if (covered answers rrsig).isEmpty then none
    else (fromHickoryAlgorithm rrsig.algorithm).map
      fun algorithm => ⟨rrsig, enc.encode (covered answers rrsig), algorithm, times x.2⟩

variable {u64 : ℕ → Option ℕ} {hmac : Bytes → Bytes → Bytes} {enc : Encoder} {m : DnssecKeyManager}
  {answers : List Answer} {times : ℕ → ValidationTimes} {c : Check}

namespace DnssecValidator

def check (u64 : ℕ → Option ℕ) (hmac : Bytes → Bytes → Bytes) (m : DnssecKeyManager) (v : DnssecValidator) (c : Check) :
    Option (Except DnssecError Bool) × DnssecValidator :=
  v.validateRrsig u64 hmac m c.rrsig c.rrset c.algorithm c.times

variable {v v' : DnssecValidator} {result r : ValidationResult} {x : Answer × ℕ}

section

lemma check_verdict {verdict : Except DnssecError Bool} (h : v.check u64 hmac m c = (some verdict, v')) :
    verdict = m.validateRrsig hmac c.rrsig c.rrset c.algorithm c.times.keyReadAt := by
  rw [check, validateRrsig] at h
  rw [DnssecKeyManager.validateRrsig]
  split at h
  · simp at h
  cases hkey : m.getActiveKey c.algorithm c.times.keyReadAt with
  | error =>
    simp only [hkey, Prod.mk.injEq, Option.some.injEq] at h
    exact h.1.symm
  | ok =>
    simp only [hkey] at h
    split at h
    · simp at h
    · split at h
      · simp at h
      · simp only [Prod.mk.injEq, Option.some.injEq] at h
        exact h.1.symm

lemma validateAnswer_check (u64 : ℕ → Option ℕ) (hmac : Bytes → Bytes → Bytes) (enc : Encoder) (m : DnssecKeyManager)
    (answers : List Answer) (times : ℕ → ValidationTimes) (v : DnssecValidator) (result : ValidationResult)
    (x : Answer × ℕ) :
    v.validateAnswer u64 hmac enc m answers (times x.2) result x.1 =
      match Check.ofAnswer enc answers times x with
      | none => (some (m.validateAnswer hmac enc answers (times x.2).keyReadAt result x.1), v)
      | some c => ((v.check u64 hmac m c).1.map fun _ =>
          m.validateAnswer hmac enc answers (times x.2).keyReadAt result x.1, (v.check u64 hmac m c).2) := by
  rw [validateAnswer, DnssecKeyManager.validateAnswer, Check.ofAnswer]
  cases x.1.data with
  | other => rfl
  | rrsig rrsig =>
    by_cases hempty : (covered answers rrsig).isEmpty = true
    · simp only [hempty, if_true]
    simp only [hempty, Bool.false_eq_true, if_false]
    obtain _ | algorithm := fromHickoryAlgorithm rrsig.algorithm
    · rfl
    simp only [map_some]
    rcases hcheck : v.check u64 hmac m ⟨rrsig, enc.encode (covered answers rrsig), algorithm, times x.2⟩ with
      ⟨_ | verdict, v'⟩
    · rw [check] at hcheck
      rw [hcheck]
      rfl
    · have hverdict := check_verdict hcheck
      rw [check] at hcheck
      rw [hcheck, ← hverdict]
      rcases verdict with e | _ | _ <;> rfl

end

end DnssecValidator

def Between (average : ℕ) (values : List ℕ) : Prop := (∃ t ∈ values, t ≤ average) ∧ ∃ t ∈ values, average ≤ t

lemma between_mean {average n : ℕ} {values : List ℕ} (hlength : values.length = n)
    (h : values ≠ [] → Between average values) (t : ℕ) : Between ((average * n + t) / (n + 1)) (values ++ [t]) := by
  have hlast : t ∈ values ++ [t] := by simp
  rcases Nat.eq_zero_or_pos n with rfl | hn
  · simp only [Nat.mul_zero, Nat.zero_add, Nat.div_one]
    exact ⟨⟨t, hlast, Nat.le_refl t⟩, t, hlast, Nat.le_refl t⟩
  have hne : values ≠ [] := by
    rintro rfl
    rw [length_nil] at hlength
    omega
  obtain ⟨⟨lo, hlo, hle⟩, hi, hhi, hge⟩ := h hne
  -- the mean moves from the old average towards the new value
  rcases Nat.le_total t average with ht | ht
  · have hlow : t ≤ (average * n + t) / (n + 1) := by
      rw [Nat.le_div_iff_mul_le (Nat.succ_pos n)]
      exact Nat.add_le_add_right (Nat.mul_le_mul_right n ht) t
    have hhigh : (average * n + t) / (n + 1) ≤ average := by
      apply Nat.div_le_of_le_mul
      rw [Nat.succ_mul, Nat.mul_comm]
      exact Nat.add_le_add_left ht _
    exact ⟨⟨t, hlast, hlow⟩, hi, mem_append_left _ hhi, hhigh.trans hge⟩
  have hlow : average ≤ (average * n + t) / (n + 1) := by
    rw [Nat.le_div_iff_mul_le (Nat.succ_pos n)]
    exact Nat.add_le_add_left ht _
  have hhigh : (average * n + t) / (n + 1) ≤ t := by
    apply Nat.div_le_of_le_mul
    rw [Nat.succ_mul, Nat.mul_comm]
    exact Nat.add_le_add_right (Nat.mul_le_mul_left n ht) t
  exact ⟨⟨lo, mem_append_left _ hlo, hle.trans hlow⟩, t, hlast, hhigh⟩

structure Tallied (stats : ValidationStats) (timings : List ℕ) : Prop where
  split : stats.totalValidations = stats.successfulValidations + stats.failedValidations
  byAlgorithm : total id stats.validationsByAlgorithm = stats.totalValidations
  count : timings.length = stats.totalValidations
  average : timings ≠ [] → Between stats.averageValidationTimeUs timings

structure Completes (m : DnssecKeyManager) (stats : ValidationStats) (c : Check) : Prop where
  key : ∃ key, m.getActiveKey c.algorithm c.times.keyReadAt = .ok key
  total : stats.totalValidations + 1 < 2 ^ 64
  sum : stats.averageValidationTimeUs * stats.totalValidations + c.times.elapsedUs < 2 ^ 64

namespace DnssecValidator

variable {stats : ValidationStats} {timings : List ℕ}

lemma tallied_default : Tallied .default [] := ⟨rfl, rfl, rfl, fun h => absurd rfl h⟩

def begun (stats : ValidationStats) (c : Check) : ValidationStats :=
  { stats with
    totalValidations := stats.totalValidations + 1
    validationsByAlgorithm := stats.validationsByAlgorithm.insert c.algorithm.debug
      ((stats.validationsByAlgorithm.lookup c.algorithm.debug).getD 0 + 1) }

lemma update_begun (hu : ∀ n < 2 ^ 64, u64 n = some n) (ht : Tallied stats timings)
    (htotal : stats.totalValidations + 1 < 2 ^ 64) :
    (⟨some stats⟩ : DnssecValidator).update (ValidationStats.updateValidationStats u64 c.algorithm true) =
      (some (), ⟨some (begun stats c)⟩) := by
  have hcount : id ((stats.validationsByAlgorithm.lookup c.algorithm.debug).getD 0) ≤ _ :=
    weight_le_total 0 rfl stats.validationsByAlgorithm c.algorithm.debug
  rw [ht.byAlgorithm, id] at hcount
  have hupdate : ValidationStats.updateValidationStats u64 c.algorithm true stats = some (begun stats c) := by
    rw [ValidationStats.updateValidationStats, hu _ htotal, hu _ (by omega)]
    rfl
  simp only [update, hupdate, map_some]

lemma begun_total (stats : ValidationStats) (c : Check) :
    total id (begun stats c).validationsByAlgorithm = total id stats.validationsByAlgorithm + 1 := by
  have h : _ + id ((stats.validationsByAlgorithm.lookup c.algorithm.debug).getD 0) = _ :=
    total_insert 0 rfl stats.validationsByAlgorithm c.algorithm.debug
      ((stats.validationsByAlgorithm.lookup c.algorithm.debug).getD 0 + 1)
  simp only [id, begun] at h ⊢
  omega

def finished (stats : ValidationStats) (c : Check) (isValid : Bool) : ValidationStats :=
  { begun stats c with
    averageValidationTimeUs := (stats.averageValidationTimeUs * stats.totalValidations + c.times.elapsedUs) /
      (stats.totalValidations + 1)
    successfulValidations := stats.successfulValidations + isValid.toNat
    failedValidations := stats.failedValidations + (!isValid).toNat }

lemma check_finished (hmac : Bytes → Bytes → Bytes) (hu : ∀ n < 2 ^ 64, u64 n = some n) (ht : Tallied stats timings)
    (hc : Completes m stats c) :
    ∃ isValid, (⟨some stats⟩ : DnssecValidator).check u64 hmac m c =
      (some (.ok isValid), ⟨some (finished stats c isValid)⟩) := by
  obtain ⟨key, hkey⟩ := hc.key
  have hsum := hc.sum
  have hsplit := ht.split
  have htotal := hc.total
  refine ⟨decide (c.rrsig.sig = signature hmac key c.rrset), ?_⟩
  rw [check, validateRrsig, update_begun hu ht htotal]
  simp only [hkey, update, ValidationStats.updateTimingStats, ValidationStats.updateValidationResult, begun,
    Nat.add_one_ne_zero, if_false, Nat.add_sub_cancel, Option.bind_eq_bind,
    hu _ (Nat.lt_of_le_of_lt (Nat.le_add_right _ _) hsum), Option.bind_some, hu _ hsum, Option.pure_def, Option.map_some]
  cases decide (c.rrsig.sig = signature hmac key c.rrset) with
  | true =>
    simp only [hu _ (show stats.successfulValidations + 1 < 2 ^ 64 by omega)]
    rfl
  | false =>
    simp only [hu _ (show stats.failedValidations + 1 < 2 ^ 64 by omega)]
    rfl

lemma tallied_finished (ht : Tallied stats timings) (c : Check) (isValid : Bool) :
    Tallied (finished stats c isValid) (timings ++ [c.times.elapsedUs]) where
  split := by
    have hsplit := ht.split
    simp only [finished, begun]
    cases isValid <;> simp only [Bool.toNat_true, Bool.toNat_false, Bool.not_true, Bool.not_false] <;> omega
  byAlgorithm := by
    have htotal := begun_total stats c
    rw [ht.byAlgorithm] at htotal
    exact htotal
  count := by
    rw [length_append, ht.count]
    rfl
  average _ := between_mean ht.count ht.average c.times.elapsedUs

lemma check_missing {e : DnssecError} (hu : ∀ n < 2 ^ 64, u64 n = some n) (ht : Tallied stats timings)
    (htotal : stats.totalValidations + 1 < 2 ^ 64) (hkey : m.getActiveKey c.algorithm c.times.keyReadAt = .error e) :
    (⟨some stats⟩ : DnssecValidator).check u64 hmac m c = (some (.error e), ⟨some (begun stats c)⟩) := by
  rw [check, validateRrsig, update_begun hu ht htotal]
  simp only [hkey]

def AllComplete (u64 : ℕ → Option ℕ) (hmac : Bytes → Bytes → Bytes) (m : DnssecKeyManager) :
    DnssecValidator → List Check → Prop
  | _, [] => True
  | v, c :: cs => (∀ stats ∈ v.validationStats, Completes m stats c) ∧ AllComplete u64 hmac m (v.check u64 hmac m c).2 cs

def recordedTimes (m : DnssecKeyManager) (cs : List Check) : List ℕ :=
  (cs.filter fun c => (m.getActiveKey c.algorithm c.times.keyReadAt).isOk).map (·.times.elapsedUs)

lemma recordedTimes_cons (hc : Completes m stats c) (cs : List Check) :
    recordedTimes m (c :: cs) = c.times.elapsedUs :: recordedTimes m cs := by
  obtain ⟨key, hkey⟩ := hc.key
  rw [recordedTimes, filter_cons_of_pos (by rw [hkey]; rfl), map_cons, recordedTimes]

lemma validateAnswers_tallied (hu : ∀ n < 2 ^ 64, u64 n = some n) {xs : List (Answer × ℕ)}
    (result : ValidationResult) (ht : Tallied stats timings)
    (hall : AllComplete u64 hmac m ⟨some stats⟩ (xs.filterMap (Check.ofAnswer enc answers times))) :
    ∃ stats' r, validateAnswers u64 hmac enc m answers times xs result ⟨some stats⟩ = (some r, ⟨some stats'⟩) ∧
      Tallied stats' (timings ++ recordedTimes m (xs.filterMap (Check.ofAnswer enc answers times))) := by
  induction xs generalizing result stats timings with
  | nil => exact ⟨stats, result, rfl, by simpa [recordedTimes] using ht⟩
  | cons x xs ih =>
    rw [validateAnswers, validateAnswer_check]
    cases hof : Check.ofAnswer enc answers times x with
    | none =>
      rw [filterMap_cons_none hof] at hall ⊢
      exact ih _ ht hall
    | some c =>
      rw [filterMap_cons_some hof] at hall ⊢
      obtain ⟨hc, hall⟩ := hall
      have hcomplete := hc stats rfl
      obtain ⟨isValid, hcheck⟩ := check_finished hmac hu ht hcomplete
      simp only [hcheck] at hall ⊢
      obtain ⟨stats', r, hrun, ht'⟩ := ih _ (tallied_finished ht c isValid) hall
      refine ⟨stats', r, hrun, ?_⟩
      rw [recordedTimes_cons hcomplete, ← singleton_append, ← append_assoc]
      exact ht'

end DnssecValidator

inductive Call where
  | validateRrsig (m : DnssecKeyManager) (c : Check)
  | validateDnsMessage (m : DnssecKeyManager) (answers : List Answer) (times : ℕ → ValidationTimes)
  | resetValidationStats

structure Watched where
  validator : DnssecValidator
  timings : List ℕ

namespace Watched

open DnssecValidator

def new : Watched := ⟨.new, []⟩

section

variable (u64 : ℕ → Option ℕ) (hmac : Bytes → Bytes → Bytes) (enc : Encoder)

def messageChecks (answers : List Answer) (times : ℕ → ValidationTimes) : List Check :=
  (signatures answers).zipIdx.filterMap (Check.ofAnswer enc answers times)

def after (w : Watched) : Call → Watched
  | .validateRrsig m c => ⟨(w.validator.check u64 hmac m c).2, w.timings ++ recordedTimes m [c]⟩
  | .validateDnsMessage m answers times => ⟨(w.validator.validateDnsMessage u64 hmac enc m answers times).2,
      w.timings ++ recordedTimes m (messageChecks enc answers times)⟩
  | .resetValidationStats => ⟨w.validator.resetValidationStats, []⟩

def step (w : Watched) (call : Call) : Option Watched := some (w.after u64 hmac enc call)

/-- Every validation of the call finds its key, and its arithmetic stays within 64 bits. -/
def Steady (w : Watched) : Call → Prop
  | .validateRrsig m c => AllComplete u64 hmac m w.validator [c]
  | .validateDnsMessage m answers times => AllComplete u64 hmac m w.validator (messageChecks enc answers times)
  | .resetValidationStats => True

end

variable {w w' : Watched} {call : Call}

def AddsUp (w : Watched) : Prop := ∃ stats, w.validator = ⟨some stats⟩ ∧ Tallied stats w.timings

lemma addsUp_step (hu : ∀ n < 2 ^ 64, u64 n = some n) (h : AddsUp w) (hsteady : w.Steady u64 hmac enc call) :
    AddsUp (w.after u64 hmac enc call) := by
  obtain ⟨stats, hv, ht⟩ := h
  cases call with
  | validateRrsig m c =>
    rw [Steady, hv] at hsteady
    have hcomplete := hsteady.1 stats rfl
    obtain ⟨isValid, hcheck⟩ := check_finished hmac hu ht hcomplete
    refine ⟨finished stats c isValid, ?_, ?_⟩
    · rw [after, hv, hcheck]
    · rw [after, recordedTimes_cons hcomplete]
      exact tallied_finished ht c isValid
  | validateDnsMessage =>
    rw [Steady, hv] at hsteady
    rw [after, hv, DnssecValidator.validateDnsMessage]
    split_ifs with hempty
    · rw [List.isEmpty_iff] at hempty
      refine ⟨stats, rfl, ?_⟩
      simpa [messageChecks, hempty, recordedTimes] using ht
    · obtain ⟨stats', r, hrun, ht'⟩ := validateAnswers_tallied hu ⟨.unsigned, 0, 0, 0, []⟩ ht hsteady
      exact ⟨stats', by rw [hrun], ht'⟩
  | resetValidationStats =>
    refine ⟨.default, ?_, tallied_default⟩
    rw [after, hv]
    rfl

theorem stats_add_up (hu : ∀ n < 2 ^ 64, u64 n = some n)
    (hrun : Reach (step u64 hmac enc) (Steady u64 hmac enc) new w) :
    ∃ stats, w.validator.validationStats = some stats ∧
      stats.totalValidations = stats.successfulValidations + stats.failedValidations ∧
      stats.totalValidations = total id stats.validationsByAlgorithm ∧
      (w.timings ≠ [] → Between stats.averageValidationTimeUs w.timings) ∧
      ∀ m c e, m.getActiveKey c.algorithm c.times.keyReadAt = .error e → stats.totalValidations + 1 < 2 ^ 64 →
        ∃ stats', (w.after u64 hmac enc (.validateRrsig m c)).validator.validationStats = some stats' ∧
          stats'.totalValidations = stats'.successfulValidations + stats'.failedValidations + 1 := by
  have hadds : AddsUp w := by
    apply hrun.invariant (J := fun _ => True) (fun _ _ => trivial) ⟨.default, rfl, tallied_default⟩
    intro w call w' _ h hsteady hstep
    cases hstep
    exact addsUp_step hu h hsteady
  obtain ⟨stats, hv, ht⟩ := hadds
  refine ⟨stats, by rw [hv], ht.split, ht.byAlgorithm.symm, ht.average, ?_⟩
  intro m c e hkey htotal
  refine ⟨begun stats c, ?_, ?_⟩
  · rw [after, hv, check_missing hu ht htotal hkey]
  · rw [begun, ht.split]

instance {m : DnssecKeyManager} {stats : ValidationStats} {c : Check} : Decidable (Completes m stats c) :=
  decidable_of_iff ((m.getActiveKey c.algorithm c.times.keyReadAt).isOk = true ∧ stats.totalValidations + 1 < 2 ^ 64 ∧
    stats.averageValidationTimeUs * stats.totalValidations + c.times.elapsedUs < 2 ^ 64) (by
    constructor
    · rintro ⟨hkey, htotal, hsum⟩
      cases hg : m.getActiveKey c.algorithm c.times.keyReadAt with
      | error => simp [hg, Except.isOk, Except.toBool] at hkey
      | ok key => exact ⟨⟨key, hg⟩, htotal, hsum⟩
    · rintro ⟨⟨key, hkey⟩, htotal, hsum⟩
      exact ⟨by rw [hkey]; rfl, htotal, hsum⟩)

def decideAllComplete (u64 : ℕ → Option ℕ) (hmac : Bytes → Bytes → Bytes) (m : DnssecKeyManager) :
    (v : DnssecValidator) → (cs : List Check) → Decidable (AllComplete u64 hmac m v cs)
  | _, [] => .isTrue trivial
  | v, c :: cs =>
    have : Decidable (AllComplete u64 hmac m (v.check u64 hmac m c).2 cs) := decideAllComplete u64 hmac m _ cs
    inferInstanceAs (Decidable ((∀ stats ∈ v.validationStats, Completes m stats c) ∧ _))

instance (w : Watched) (call : Call) : Decidable (w.Steady u64 hmac enc call) :=
  match call with
  | .validateRrsig m c => decideAllComplete u64 hmac m w.validator [c]
  | .validateDnsMessage m answers times => decideAllComplete u64 hmac m w.validator (messageChecks enc answers times)
  | .resetValidationStats => .isTrue trivial

open Dnssec.Schedule

def keyed : DnssecKeyManager :=
  ⟨config, Function.update (fun _ => none) .rsaSha256 (some ((draw 1000 1).key config .rsaSha256 (zeros 1)).toList),
    fun _ => none, 0, false⟩

def signedCheck (algorithm : DnssecAlgorithm) (micros : ℕ) : Check :=
  ⟨⟨.a, algorithm.toHickoryAlgorithm, 3, 300, 1301, 1001, 1, demo, join (zeros 1) []⟩, [], algorithm,
    ⟨1001 * second, 1001 * second, 1001 * second + micros * 1000⟩⟩

lemma fits_below (n : ℕ) (h : n < 2 ^ 64) : fits 64 n = some n := fits_eq_some.mpr ⟨h, rfl⟩

theorem stats_add_up_twice : ∃ w stats, Reach (step (fits 64) join Sessions.wire) (Steady (fits 64) join Sessions.wire) new w ∧
    w.validator.validationStats = some stats ∧ w.timings = [10, 20] ∧
    stats.totalValidations = stats.successfulValidations + stats.failedValidations ∧
    Between stats.averageValidationTimeUs [10, 20] := by
  have hcheck : ((runs (step (fits 64) join Sessions.wire) (Steady (fits 64) join Sessions.wire) new
      [.validateRrsig keyed (signedCheck .rsaSha256 10), .validateRrsig keyed (signedCheck .rsaSha256 20)]).any
        fun w => w.timings = [10, 20]) = true := by decide +kernel
  rw [Option.any_eq_true] at hcheck
  obtain ⟨w, hruns, htimings⟩ := hcheck
  rw [decide_eq_true_eq] at htimings
  have hrun := reach_of_runs hruns
  obtain ⟨stats, hstats, hsplit, -, hbetween, -⟩ := stats_add_up fits_below hrun
  rw [htimings] at hbetween
  exact ⟨w, stats, hrun, hstats, htimings, hsplit, hbetween (by simp)⟩

/-- One validation without a key, then one of ten microseconds: one of the two is neither a success nor a failure,
and the average is five microseconds. -/
theorem missing_key_miscounted : ∃ w stats, Reach (step (fits 64) join wire) Free new w ∧
    w.validator.validationStats = some stats ∧ stats.totalValidations = 2 ∧ stats.successfulValidations = 1 ∧
    stats.failedValidations = 0 ∧ w.timings = [10] ∧ stats.averageValidationTimeUs = 5 := by
  have hcheck : ((runs (step (fits 64) join wire) Free new
      [.validateRrsig keyed (signedCheck .hmacSha256 0), .validateRrsig keyed (signedCheck .rsaSha256 10)]).any
        fun w => w.validator.validationStats.any fun stats => stats.totalValidations = 2 &&
          stats.successfulValidations = 1 && stats.failedValidations = 0 && w.timings = [10] &&
          stats.averageValidationTimeUs = 5) = true := by decide +kernel
  simp only [Option.any_eq_true, Bool.and_eq_true, decide_eq_true_eq] at hcheck
  obtain ⟨w, hruns, stats, hstats, ⟨⟨⟨htotal, hsuccess⟩, hfailed⟩, htimings⟩, haverage⟩ := hcheck
  exact ⟨w, stats, reach_of_runs hruns, hstats, htotal, hsuccess, hfailed, htimings, haverage⟩

end Watched

end FleetingDns.Dnssec
