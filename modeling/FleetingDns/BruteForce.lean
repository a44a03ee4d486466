import FleetingDns.Commands
namespace FleetingDns

open ExpiringStore AList List

/-- How long before the origin of its clock an `Instant` may lie: its seconds are an `i64`. -/
def instantReach : ℕ := 2 ^ 63 * second

structure AuthAttempt where
  timestamp : ℕ
  clientAddr : SocketAddr
  success : Bool
  (certificateSerial failureReason : Option String)

structure BruteForceProtection where
  attempts : AList (fun _ : SocketAddr => List AuthAttempt)
  lockouts : AList (fun _ : SocketAddr => ℕ)

namespace BruteForceProtection

def empty : BruteForceProtection := ⟨∅, ∅⟩

def isLockedOut (self : BruteForceProtection) (now : ℕ) (addr : SocketAddr) (lockoutDuration : ℕ) : Bool :=
  match self.lockouts.lookup addr with
  | some lockoutTime => now - lockoutTime < lockoutDuration
  | none => false

def recordAttempt (self : BruteForceProtection) (now : ℕ) (attempt : AuthAttempt) (maxAttempts lockoutDuration : ℕ) :
    Option BruteForceProtection :=
  if instantReach + now < lockoutDuration then none
  else
    let addr := attempt.clientAddr
    let kept := ((self.attempts.lookup addr).getD []).filter (fun a => now < a.timestamp + lockoutDuration)
    let attempts := kept ++ [attempt]
    if attempt.success then
      some ⟨self.attempts.insert addr (attempts.filter AuthAttempt.success), self.lockouts.erase addr⟩
    else
      let recentFailures := (attempts.filter (fun a => !a.success)).length
      some ⟨self.attempts.insert addr attempts,
        if recentFailures ≥ maxAttempts then self.lockouts.insert addr now else self.lockouts⟩

variable {bfp bfp' : BruteForceProtection} {attempt : AuthAttempt} {addr : SocketAddr}
  {now now' maxAttempts lockoutDuration t : ℕ}

def attemptsOf (bfp : BruteForceProtection) (addr : SocketAddr) : List AuthAttempt := (bfp.attempts.lookup addr).getD []

def failures (bfp : BruteForceProtection) (addr : SocketAddr) (t : ℕ) : ℕ :=
  (bfp.attemptsOf addr).countP fun a => !a.success && t ≤ a.timestamp

section

variable (h : bfp.recordAttempt now attempt maxAttempts lockoutDuration = some bfp')

include h

lemma recordAttempt_frame (hne : addr ≠ attempt.clientAddr) :
    bfp'.attemptsOf addr = bfp.attemptsOf addr ∧ bfp'.lockouts.lookup addr = bfp.lockouts.lookup addr := by
  unfold recordAttempt at h
  dsimp only at h
  split_ifs at h <;> cases h
  · exact ⟨by rw [attemptsOf, lookup_insert_ne hne]; rfl, lookup_erase_ne hne⟩
  · exact ⟨by rw [attemptsOf, lookup_insert_ne hne]; rfl, lookup_insert_ne hne⟩
  · exact ⟨by rw [attemptsOf, lookup_insert_ne hne]; rfl, rfl⟩

lemma recordAttempt_success (hs : attempt.success = true) : bfp'.failures attempt.clientAddr t = 0 := by
  unfold recordAttempt at h
  split_ifs at h
  cases h
  rw [failures, attemptsOf, lookup_insert, countP_eq_zero]
  intro a ha
  simp [of_mem_filter ha]

lemma attemptsOf_failure (hs : attempt.success = false) :
    bfp'.attemptsOf attempt.clientAddr =
      (bfp.attemptsOf attempt.clientAddr).filter (fun a => now < a.timestamp + lockoutDuration) ++ [attempt] ∧
      bfp'.lockouts = if ((bfp'.attemptsOf attempt.clientAddr).filter (fun a => !a.success)).length ≥ maxAttempts
        then bfp.lockouts.insert attempt.clientAddr now else bfp.lockouts := by
  unfold recordAttempt at h
  rw [hs, if_neg Bool.false_ne_true] at h
  split_ifs at h
  all_goals
    cases h
    refine ⟨?_, ?_⟩ <;> rw [attemptsOf, lookup_insert]
    · rfl
    · simp_all

lemma recordAttempt_failure (hs : attempt.success = false) (ht : now < t + lockoutDuration) :
    bfp'.failures attempt.clientAddr t =
      bfp.failures attempt.clientAddr t + if t ≤ attempt.timestamp then 1 else 0 := by
  obtain ⟨hlist, -⟩ := attemptsOf_failure h hs
  rw [failures, hlist, countP_append, countP_filter, countP_singleton, hs]
  congr 1
  · -- what is dropped is older than the span
    apply countP_congr
    intro a _
    simp only [Bool.and_eq_true, decide_eq_true_eq]
    refine ⟨And.left, fun hp => ⟨hp, ?_⟩⟩
    omega
  · simp

end

/-- Every address with enough recent failures is locked out since one of them. -/
structure Locks (bfp : BruteForceProtection) (maxAttempts lockoutDuration now : ℕ) : Prop where
  dated : ∀ addr, ∀ a ∈ bfp.attemptsOf addr, a.timestamp ≤ now
  locked : ∀ addr t, now < t + lockoutDuration → maxAttempts ≤ bfp.failures addr t →
    ∃ lockoutTime, bfp.lockouts.lookup addr = some lockoutTime ∧ t ≤ lockoutTime

lemma Locks.later (h : bfp.Locks maxAttempts lockoutDuration now) (hle : now ≤ now') :
    bfp.Locks maxAttempts lockoutDuration now' :=
  ⟨fun addr a ha => (h.dated addr a ha).trans hle, fun addr t ht => h.locked addr t (by omega)⟩

lemma failures_pos (h : 0 < bfp.failures addr t) : ∃ a ∈ bfp.attemptsOf addr, t ≤ a.timestamp := by
  obtain ⟨a, ha, hp⟩ := countP_pos_iff.mp h
  simp only [Bool.and_eq_true, decide_eq_true_eq] at hp
  exact ⟨a, ha, hp.2⟩

lemma dated_recordAttempt (h : bfp.recordAttempt now attempt maxAttempts lockoutDuration = some bfp')
    (hd : ∀ addr, ∀ a ∈ bfp.attemptsOf addr, a.timestamp ≤ now) (ht : attempt.timestamp = now) {a : AuthAttempt}
    (ha : a ∈ bfp'.attemptsOf addr) : a.timestamp ≤ now := by
  by_cases hne : addr = attempt.clientAddr
  · subst hne
    unfold recordAttempt at h
    dsimp only at h
    have hmem : a ∈ (bfp.attemptsOf attempt.clientAddr).filter (fun a => now < a.timestamp + lockoutDuration) ++
        [attempt] := by
      split_ifs at h <;> cases h <;> rw [attemptsOf, lookup_insert] at ha
      · exact mem_of_mem_filter ha
      · exact ha
      · exact ha
    rw [mem_append, mem_singleton] at hmem
    obtain hmem | rfl := hmem
    · exact hd _ a (mem_of_mem_filter hmem)
    · exact ht.le
  · rw [(recordAttempt_frame h hne).1] at ha
    exact hd addr a ha

lemma locks_recordAttempt (h : bfp.recordAttempt now attempt maxAttempts lockoutDuration = some bfp')
    (hl : bfp.Locks maxAttempts lockoutDuration now) (ht : attempt.timestamp = now) (hmax : 0 < maxAttempts) :
    bfp'.Locks maxAttempts lockoutDuration now := by
  refine ⟨fun addr a ha => dated_recordAttempt h hl.dated ht ha, ?_⟩
  intro addr t hopen hmany
  by_cases hne : addr = attempt.clientAddr
  · subst hne
    cases hs : attempt.success with
    | true =>
      rw [recordAttempt_success h hs] at hmany
      omega
    | false =>
      obtain ⟨a, ha, hta⟩ := failures_pos (lt_of_lt_of_le hmax hmany)
      have hdate := dated_recordAttempt h hl.dated ht ha
      have hrecent : maxAttempts ≤ ((bfp'.attemptsOf attempt.clientAddr).filter fun a => !a.success).length := by
        rw [← countP_eq_length_filter]
        refine hmany.trans (countP_mono_left ?_)
        intro a _ hp
        simp only [Bool.and_eq_true] at hp
        exact hp.1
      rw [(attemptsOf_failure h hs).2, if_pos hrecent, lookup_insert]
      exact ⟨now, rfl, hta.trans hdate⟩
  · obtain ⟨hattempts, hlock⟩ := recordAttempt_frame h hne
    rw [failures, hattempts] at hmany
    rw [hlock]
    exact hl.locked addr t hopen hmany

lemma Locks.passed (h : bfp.Locks maxAttempts lockoutDuration now)
    (hp : bfp.isLockedOut now addr lockoutDuration = false) (hmax : 0 < maxAttempts) (ht : now < t + lockoutDuration) :
    bfp.failures addr t < maxAttempts := by
  by_contra hmany
  obtain ⟨a, ha, hta⟩ := failures_pos (show 0 < bfp.failures addr t by omega)
  have hdate := h.dated addr a ha
  obtain ⟨l, hl, hle⟩ := h.locked addr t ht (by omega)
  unfold isLockedOut at hp
  rw [hl] at hp
  simp only [decide_eq_false_iff_not] at hp
  omega

end BruteForceProtection

end FleetingDns
