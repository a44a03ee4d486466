import FleetingDns.BruteForce
import Mathlib.Data.List.Induction
namespace FleetingDns.BruteForceProtection

open List AList AuthAttempt

section

variable (maxAttempts lockoutDuration : ℕ)

def record (bfp : BruteForceProtection) (attempt : AuthAttempt) : Option BruteForceProtection :=
  bfp.recordAttempt attempt.timestamp attempt maxAttempts lockoutDuration

def recorded (xs : List AuthAttempt) : Option BruteForceProtection :=
  xs.foldlM (record maxAttempts lockoutDuration) empty

def failuresSince (addr : SocketAddr) (xs : List AuthAttempt) : List AuthAttempt :=
  (xs.filter (·.clientAddr = addr)).reverse.takeWhile (!·.success)

/-- A failure of the address after which it has not succeeded, the last of enough failures within the lockout duration. -/
structure Locking (xs : List AuthAttempt) (addr : SocketAddr) (before : List AuthAttempt) (x : AuthAttempt) : Prop where
  own : x.clientAddr = addr
  failed : x.success = false
  unanswered : ∃ after, xs = before ++ x :: after ∧ ∀ y ∈ after, y.clientAddr = addr → y.success = false
  enough : maxAttempts ≤ (failuresSince addr (before ++ [x])).countP fun y =>
    decide (x.timestamp < y.timestamp + lockoutDuration) && decide (y.timestamp ≤ x.timestamp)

def LockedOut (xs : List AuthAttempt) (addr : SocketAddr) (t : ℕ) : Prop :=
  ∃ before x, Locking maxAttempts lockoutDuration xs addr before x ∧ x.timestamp ≤ t ∧ t < x.timestamp + lockoutDuration

end

variable {m l t now : ℕ} {xs : List AuthAttempt} {a x : AuthAttempt} {addr : SocketAddr} {before : List AuthAttempt}
  {bfp bfp' : BruteForceProtection}

lemma failuresSince_other (h : a.clientAddr ≠ addr) : failuresSince addr (xs ++ [a]) = failuresSince addr xs := by
  simp [failuresSince, h]

lemma failuresSince_success (h : a.clientAddr = addr) (hs : a.success = true) : failuresSince addr (xs ++ [a]) = [] := by
  simp [failuresSince, h, hs]

lemma failuresSince_failure (h : a.clientAddr = addr) (hs : a.success = false) :
    failuresSince addr (xs ++ [a]) = a :: failuresSince addr xs := by
  simp [failuresSince, h, hs]

lemma mem_failuresSince (h : x ∈ failuresSince addr xs) : x ∈ xs := by
  have hmem := (takeWhile_sublist _).subset h
  exact mem_of_mem_filter (mem_reverse.mp hmem)

lemma locking_snoc : Locking m l (xs ++ [a]) addr before x ↔
    (before = xs ∧ x = a ∧ a.clientAddr = addr ∧ a.success = false ∧
      m ≤ (failuresSince addr (xs ++ [a])).countP fun y =>
        decide (a.timestamp < y.timestamp + l) && decide (y.timestamp ≤ a.timestamp)) ∨
    (Locking m l xs addr before x ∧ (a.clientAddr = addr → a.success = false)) := by
  constructor
  · rintro ⟨hown, hfailed, ⟨after, heq, hafter⟩, henough⟩
    obtain rfl | ⟨rest, b, rfl⟩ := eq_nil_or_concat' after
    · obtain ⟨rfl, hx⟩ := append_inj' heq rfl
      cases hx
      exact .inl ⟨rfl, rfl, hown, hfailed, henough⟩
    · rw [← cons_append, ← append_assoc] at heq
      obtain ⟨rfl, hb⟩ := append_inj' heq rfl
      cases hb
      refine .inr ⟨⟨hown, hfailed, ⟨rest, rfl, fun y hy => hafter y (mem_append_left _ hy)⟩, henough⟩, ?_⟩
      exact hafter a mem_concat_self
  rintro (⟨rfl, rfl, hown, hfailed, henough⟩ | ⟨⟨hown, hfailed, ⟨after, rfl, hafter⟩, henough⟩, ha⟩)
  · exact ⟨hown, hfailed, ⟨[], rfl, by simp⟩, henough⟩
  refine ⟨hown, hfailed, ⟨after ++ [a], by simp, ?_⟩, henough⟩
  intro y hy
  rw [mem_append, mem_singleton] at hy
  obtain hy | rfl := hy
  · exact hafter y hy
  · exact ha

/-- The maps say of every address what its attempts say: the failures in every span still open, and the time of the
latest locking one. -/
structure Reflects (m l : ℕ) (xs : List AuthAttempt) (now : ℕ) (bfp : BruteForceProtection) : Prop where
  past : ∀ x ∈ xs, x.timestamp ≤ now
  counts : ∀ addr t, now < t + l → bfp.failures addr t = (failuresSince addr xs).countP (t ≤ ·.timestamp)
  latest : ∀ addr before x, Locking m l xs addr before x →
    ∃ lockoutTime, bfp.lockouts.lookup addr = some lockoutTime ∧ x.timestamp ≤ lockoutTime
  locking : ∀ addr lockoutTime, bfp.lockouts.lookup addr = some lockoutTime →
    ∃ before x, Locking m l xs addr before x ∧ x.timestamp = lockoutTime

lemma reflects_empty (m l now : ℕ) : Reflects m l [] now empty where
  past := by simp
  counts addr t _ := by simp [failures, attemptsOf, empty, failuresSince]
  latest addr before x h := by
    obtain ⟨after, heq, -⟩ := h.unanswered
    simp at heq
  locking addr lockoutTime h := by simp [empty] at h

lemma Reflects.later (h : Reflects m l xs now bfp) {later : ℕ} (hle : now ≤ later) : Reflects m l xs later bfp where
  past x hx := (h.past x hx).trans hle
  counts addr t ht := h.counts addr t (by omega)
  latest := h.latest
  locking := h.locking

lemma counts_record (addr : SocketAddr) (h : Reflects m l xs a.timestamp bfp) (hr : record m l bfp a = some bfp')
    (ht : a.timestamp < t + l) : bfp'.failures addr t = (failuresSince addr (xs ++ [a])).countP (t ≤ ·.timestamp) := by
  by_cases hown : a.clientAddr = addr
  · subst hown
    cases hs : a.success with
    | true =>
      rw [recordAttempt_success hr hs, failuresSince_success rfl hs]
      rfl
    | false =>
      rw [recordAttempt_failure hr hs ht, failuresSince_failure rfl hs, h.counts _ t ht, countP_cons]
      simp only [decide_eq_true_eq]
  · rw [failuresSince_other hown, ← h.counts addr t ht, failures, (recordAttempt_frame hr (Ne.symm hown)).1]
    rfl

lemma enough_iff (h : Reflects m l xs a.timestamp bfp) (hr : record m l bfp a = some bfp') (hl : 0 < l)
    (hs : a.success = false) :
    ((bfp'.attemptsOf a.clientAddr).filter (fun y => !y.success)).length ≥ m ↔
      m ≤ (failuresSince a.clientAddr (xs ++ [a])).countP fun y =>
        decide (a.timestamp < y.timestamp + l) && decide (y.timestamp ≤ a.timestamp) := by
  obtain ⟨hlist, -⟩ := attemptsOf_failure hr hs
  have hcounts := counts_record (t := a.timestamp + 1 - l) a.clientAddr h hr (by omega)
  have hkept : (bfp'.attemptsOf a.clientAddr).countP (fun y => !y.success) =
      bfp'.failures a.clientAddr (a.timestamp + 1 - l) := by
    apply countP_congr
    intro y hy
    have hrecent : a.timestamp + 1 - l ≤ y.timestamp := by
      rw [hlist, mem_append, mem_singleton] at hy
      obtain hy | rfl := hy
      · have hlate := (mem_filter.mp hy).2
        rw [decide_eq_true_eq] at hlate
        omega
      · omega
    simp [hrecent]
  have hwindow : (failuresSince a.clientAddr (xs ++ [a])).countP (fun y => decide (a.timestamp + 1 - l ≤ y.timestamp)) =
      (failuresSince a.clientAddr (xs ++ [a])).countP fun y =>
        decide (a.timestamp < y.timestamp + l) && decide (y.timestamp ≤ a.timestamp) := by
    apply countP_congr
    intro y hy
    have hpast : y.timestamp ≤ a.timestamp := by
      have hmem := mem_failuresSince hy
      rw [mem_append, mem_singleton] at hmem
      obtain hmem | rfl := hmem
      · exact h.past y hmem
      · exact Nat.le_refl _
    simp only [decide_eq_true_eq, Bool.and_eq_true]
    omega
  rw [← countP_eq_length_filter, hkept, hcounts, hwindow]

lemma lockouts_success (hr : record m l bfp a = some bfp') (hs : a.success = true) :
    bfp'.lockouts.lookup a.clientAddr = none := by
  unfold record recordAttempt at hr
  split_ifs at hr
  cases hr
  exact lookup_erase _ _

lemma reflects_record (h : Reflects m l xs a.timestamp bfp) (hr : record m l bfp a = some bfp') (hl : 0 < l) :
    Reflects m l (xs ++ [a]) a.timestamp bfp' where
  past x hx := by
    rw [mem_append, mem_singleton] at hx
    obtain hx | rfl := hx
    · exact h.past x hx
    · exact Nat.le_refl _
  counts addr t ht := counts_record addr h hr ht
  latest addr before x hx := by
    by_cases hown : addr = a.clientAddr
    · subst hown
      cases hs : a.success with
      | true =>
        obtain ⟨-, -, -, hfailed, -⟩ | ⟨-, hfailed⟩ := locking_snoc.mp hx
        · rw [hs] at hfailed
          cases hfailed
        · rw [hs] at hfailed
          cases hfailed rfl
      | false =>
        obtain ⟨-, hlockouts⟩ := attemptsOf_failure hr hs
        rw [hlockouts]
        split_ifs with hmany
        · refine ⟨a.timestamp, lookup_insert _, ?_⟩
          obtain ⟨-, rfl, -⟩ | ⟨hold, -⟩ := locking_snoc.mp hx
          · exact Nat.le_refl _
          · obtain ⟨after, rfl, -⟩ := hold.unanswered
            exact h.past x (by simp)
        · obtain ⟨-, -, -, -, henough⟩ | ⟨hold, -⟩ := locking_snoc.mp hx
          · exact absurd ((enough_iff h hr hl hs).mpr henough) hmany
          · exact h.latest _ _ x hold
    · rw [(recordAttempt_frame hr hown).2]
      obtain ⟨-, -, hown', -⟩ | ⟨hold, -⟩ := locking_snoc.mp hx
      · exact absurd hown'.symm hown
      · exact h.latest _ _ x hold
  locking addr lockoutTime hlock := by
    by_cases hown : addr = a.clientAddr
    · subst hown
      cases hs : a.success with
      | true =>
        rw [lockouts_success hr hs] at hlock
        cases hlock
      | false =>
        obtain ⟨-, hlockouts⟩ := attemptsOf_failure hr hs
        rw [hlockouts] at hlock
        split_ifs at hlock with hmany
        · rw [lookup_insert, Option.some.injEq] at hlock
          exact ⟨xs, a, locking_snoc.mpr (.inl ⟨rfl, rfl, rfl, hs, (enough_iff h hr hl hs).mp hmany⟩), hlock⟩
        · obtain ⟨before, x, hx, htime⟩ := h.locking _ _ hlock
          exact ⟨before, x, locking_snoc.mpr (.inr ⟨hx, fun _ => hs⟩), htime⟩
    · rw [(recordAttempt_frame hr hown).2] at hlock
      obtain ⟨before, x, hx, htime⟩ := h.locking _ _ hlock
      exact ⟨before, x, locking_snoc.mpr (.inr ⟨hx, fun heq => absurd heq.symm hown⟩), htime⟩

lemma record_isSome (bfp : BruteForceProtection) (m : ℕ) (h : l ≤ instantReach + a.timestamp) :
    (record m l bfp a).isSome = true := by
  unfold record recordAttempt
  rw [if_neg (by omega)]
  split_ifs <;> rfl

lemma recorded_snoc (m l : ℕ) (xs : List AuthAttempt) (a : AuthAttempt) :
    recorded m l (xs ++ [a]) = (recorded m l xs).bind fun bfp => record m l bfp a := by
  simp [recorded]

lemma reflects_recorded (m : ℕ) (hl : 0 < l) (hclock : (xs.map timestamp).Pairwise (· ≤ ·))
    (hlate : ∀ x ∈ xs, l ≤ x.timestamp) :
    ∃ bfp, recorded m l xs = some bfp ∧ ∀ now, (∀ x ∈ xs, x.timestamp ≤ now) → Reflects m l xs now bfp := by
  induction xs using List.reverseRecOn with
  | nil => exact ⟨empty, rfl, fun now _ => reflects_empty m l now⟩
  | append_singleton xs a ih =>
    rw [map_append, pairwise_append] at hclock
    have hbefore : ∀ x ∈ xs, x.timestamp ≤ a.timestamp := by
      intro x hx
      exact hclock.2.2 _ (mem_map_of_mem hx) _ (by simp)
    obtain ⟨bfp, hbfp, hreflects⟩ := ih hclock.1 fun x hx => hlate x (mem_append_left _ hx)
    obtain ⟨bfp', hr⟩ := Option.isSome_iff_exists.mp (record_isSome bfp m ((hlate a mem_concat_self).trans (Nat.le_add_left _ _)))
    refine ⟨bfp', ?_, ?_⟩
    · rw [recorded_snoc, hbfp]
      exact hr
    · intro now hnow
      exact (reflects_record (hreflects _ hbefore) hr hl).later (hnow a mem_concat_self)

lemma isLockedOut_iff (h : Reflects m l xs now bfp) : bfp.isLockedOut now addr l = true ↔ LockedOut m l xs addr now := by
  unfold isLockedOut
  constructor
  · intro hlocked
    split at hlocked
    · rename_i lockoutTime hlookup
      obtain ⟨before, x, hx, rfl⟩ := h.locking _ _ hlookup
      obtain ⟨after, heq, -⟩ := hx.unanswered
      have hpast := h.past x (by simp [heq])
      rw [decide_eq_true_eq] at hlocked
      exact ⟨before, x, hx, hpast, by omega⟩
    · cases hlocked
  · rintro ⟨before, x, hx, hle, hlt⟩
    obtain ⟨lockoutTime, hlookup, hlate⟩ := h.latest _ _ _ hx
    rw [hlookup]
    simp only [decide_eq_true_eq]
    omega

lemma record_own {other other' : BruteForceProtection} (h : record m l bfp a = some bfp')
    (h' : record m l other a = some other') (hattempts : bfp.attemptsOf a.clientAddr = other.attemptsOf a.clientAddr)
    (hlock : bfp.lockouts.lookup a.clientAddr = other.lockouts.lookup a.clientAddr) :
    bfp'.attemptsOf a.clientAddr = other'.attemptsOf a.clientAddr ∧
      bfp'.lockouts.lookup a.clientAddr = other'.lockouts.lookup a.clientAddr := by
  cases hs : a.success with
  | true =>
    refine ⟨?_, by rw [lockouts_success h hs, lockouts_success h' hs]⟩
    unfold record recordAttempt at h h'
    rw [attemptsOf, attemptsOf] at hattempts
    split_ifs at h h'
    cases h
    cases h'
    rw [attemptsOf, attemptsOf, lookup_insert, lookup_insert, hattempts]
  | false =>
    obtain ⟨hlist, hlockouts⟩ := attemptsOf_failure h hs
    obtain ⟨hlist', hlockouts'⟩ := attemptsOf_failure h' hs
    have hsame : bfp'.attemptsOf a.clientAddr = other'.attemptsOf a.clientAddr := by rw [hlist, hlist', hattempts]
    refine ⟨hsame, ?_⟩
    rw [hlockouts, hlockouts', hsame]
    split_ifs
    · rw [lookup_insert, lookup_insert]
    · exact hlock

lemma recorded_own (addr : SocketAddr) (h : recorded m l xs = some bfp) :
    ∃ bfp', recorded m l (xs.filter (·.clientAddr = addr)) = some bfp' ∧ bfp'.attemptsOf addr = bfp.attemptsOf addr ∧
      bfp'.lockouts.lookup addr = bfp.lockouts.lookup addr := by
  induction xs using List.reverseRecOn generalizing bfp with
  | nil => exact ⟨bfp, h, rfl, rfl⟩
  | append_singleton xs a ih =>
    rw [recorded_snoc, Option.bind_eq_some_iff] at h
    obtain ⟨bfp0, h0, hr⟩ := h
    obtain ⟨bfp1, h1, hattempts, hlock⟩ := ih h0
    by_cases hown : a.clientAddr = addr
    · subst hown
      have hle : l ≤ instantReach + a.timestamp := by
        unfold record recordAttempt at hr
        split_ifs at hr with hlt
        · omega
        · omega
      obtain ⟨bfp', hr'⟩ := Option.isSome_iff_exists.mp (record_isSome bfp1 m hle)
      refine ⟨bfp', ?_, record_own hr' hr hattempts hlock⟩
      rw [filter_append, filter_cons_of_pos (by simp), filter_nil, recorded_snoc, h1]
      exact hr'
    · obtain ⟨hattempts', hlock'⟩ := recordAttempt_frame hr (Ne.symm hown)
      refine ⟨bfp1, ?_, hattempts.trans hattempts'.symm, hlock.trans hlock'.symm⟩
      rw [filter_append, filter_cons_of_neg (by simpa using hown), filter_nil, append_nil, h1]

theorem lockout_semantics (hl : 0 < l) (hclock : (xs.map timestamp).Pairwise (· ≤ ·))
    (hlate : ∀ x ∈ xs, l ≤ x.timestamp) :
    ∃ bfp, recorded m l xs = some bfp ∧ ∀ addr t, (∀ x ∈ xs, x.timestamp ≤ t) →
      (bfp.isLockedOut t addr l = true ↔ LockedOut m l xs addr t) ∧
      ∃ bfp', recorded m l (xs.filter (·.clientAddr = addr)) = some bfp' ∧
        bfp'.isLockedOut t addr l = bfp.isLockedOut t addr l := by
  obtain ⟨bfp, hbfp, hreflects⟩ := reflects_recorded m hl hclock hlate
  refine ⟨bfp, hbfp, ?_⟩
  intro addr t ht
  obtain ⟨bfp', hbfp', -, hlock⟩ := recorded_own addr hbfp
  refine ⟨isLockedOut_iff (hreflects t ht), bfp', hbfp', ?_⟩
  unfold isLockedOut
  rw [hlock]

def failedAt (t : ℕ) (addr : SocketAddr) : AuthAttempt := ⟨t, addr, false, none, none⟩

def twoClients : List AuthAttempt :=
  [failedAt 20 ⟨"192.0.2.1", 4000⟩, failedAt 21 ⟨"192.0.2.2", 4000⟩, failedAt 25 ⟨"192.0.2.1", 4000⟩]

lemma twoClients_ordered : (twoClients.map timestamp).Pairwise (· ≤ ·) := by decide

lemma twoClients_late : ∀ x ∈ twoClients, 10 ≤ x.timestamp := by decide

theorem lockout_semantics_twice :
    LockedOut 2 10 twoClients ⟨"192.0.2.1", 4000⟩ 34 ∧ ¬LockedOut 2 10 twoClients ⟨"192.0.2.2", 4000⟩ 34 := by
  obtain ⟨bfp, hbfp, h⟩ := lockout_semantics (m := 2) (l := 10) (by decide) twoClients_ordered twoClients_late
  cases hbfp
  constructor
  · exact (h ⟨"192.0.2.1", 4000⟩ 34 (by decide)).1.mp (by decide)
  · intro hlocked
    exact absurd ((h ⟨"192.0.2.2", 4000⟩ 34 (by decide)).1.mpr hlocked) (by decide)

end FleetingDns.BruteForceProtection
