import FleetingDns.Library.GuardedRuns
import FleetingDns.Library.Tables
import FleetingDns.LockoutSemantics
namespace FleetingDns.BruteForceProtection

open GuardedRuns ExpiringStore Tables List

def size (bfp : BruteForceProtection) : ℕ := total List.length bfp.attempts + bfp.lockouts.keys.length

structure Recorder where
  protection : BruteForceProtection
  log : List AuthAttempt

def Recorder.start : Recorder := ⟨empty, []⟩

def Recorder.step (m l : ℕ) (s : Recorder) (a : AuthAttempt) : Option Recorder :=
  -- the monotonic clock does not go back
  if s.log.all (·.timestamp ≤ a.timestamp) then (record m l s.protection a).map (⟨·, s.log ++ [a]⟩) else none

def recent (l t : ℕ) (xs : List AuthAttempt) : ℕ := xs.countP (t ≤ ·.timestamp + l)

/-- What is tracked of the other addresses lies within the lockout duration. -/
def Current (l : ℕ) (s : Recorder) (a : AuthAttempt) : Prop :=
  ∀ x ∈ s.protection.attempts.entries, x.1 ≠ a.clientAddr → ∀ y ∈ x.2, a.timestamp ≤ y.timestamp + l

variable {m l t : ℕ} {bfp bfp' : BruteForceProtection} {a : AuthAttempt} {s s' : Recorder}

lemma record_spec (h : record m l bfp a = some bfp') :
    ∃ kept, bfp'.attempts = bfp.attempts.insert a.clientAddr kept ∧ a ∈ kept ∧
      kept.Sublist ((bfp.attemptsOf a.clientAddr).filter (fun y => a.timestamp < y.timestamp + l) ++ [a]) ∧
      ∀ addr ∈ bfp'.lockouts, addr = a.clientAddr ∨ addr ∈ bfp.lockouts := by
  unfold record recordAttempt at h
  dsimp only at h
  split_ifs at h with hnow hsuccess henough <;> cases h
  · refine ⟨_, rfl, by simp [hsuccess], filter_sublist, fun addr haddr => .inr ?_⟩
    exact (AList.mem_erase.mp haddr).2
  · exact ⟨_, rfl, by simp, List.Sublist.refl _, fun addr haddr => (AList.mem_insert _).mp haddr⟩
  · exact ⟨_, rfl, by simp, List.Sublist.refl _, fun addr haddr => .inr haddr⟩

structure Accounted (l : ℕ) (s : Recorder) : Prop where
  counted : ∀ t, total (recent l t) s.protection.attempts ≤ recent l t s.log
  tracked : ∀ x ∈ s.protection.attempts.entries, x.2 ≠ []
  locked : ∀ addr ∈ s.protection.lockouts, addr ∈ s.protection.attempts

lemma accounted_record (h : Accounted l s) (hr : record m l s.protection a = some bfp') :
    Accounted l ⟨bfp', s.log ++ [a]⟩ := by
  obtain ⟨kept, hattempts, hmem, hsub, hlock⟩ := record_spec hr
  refine ⟨fun t => ?_, fun x hx => ?_, fun addr haddr => ?_⟩
  · have htotal := total_insert [] (rfl : recent l t [] = 0) s.protection.attempts a.clientAddr kept
    have hkept : recent l t kept ≤ recent l t ((s.protection.attempts.lookup a.clientAddr).getD []) + recent l t [a] := by
      refine (hsub.countP_le).trans ?_
      rw [countP_append]
      exact Nat.add_le_add_right filter_sublist.countP_le _
    have hold := h.counted t
    dsimp only
    rw [hattempts]
    have hlog : recent l t (s.log ++ [a]) = recent l t s.log + recent l t [a] := countP_append
    omega
  · dsimp only at hx
    rw [hattempts, AList.entries_insert, mem_cons] at hx
    obtain rfl | hx := hx
    · exact ne_nil_of_mem hmem
    · exact h.tracked x ((kerase_sublist _ _).subset hx)
  · dsimp only
    rw [hattempts, AList.mem_insert]
    exact (hlock addr haddr).imp_right (h.locked addr)

lemma step_record (h : s.step m l a = some s') :
    ∃ bfp', record m l s.protection a = some bfp' ∧ s' = ⟨bfp', s.log ++ [a]⟩ := by
  unfold Recorder.step at h
  split_ifs at h
  obtain ⟨bfp', hr, rfl⟩ := Option.map_eq_some_iff.mp h
  exact ⟨bfp', hr, rfl⟩

lemma reach_accounted {G : Recorder → AuthAttempt → Prop} (h : Reach (Recorder.step m l) G .start s) :
    Accounted l s := by
  refine h.invariant (fun _ _ => trivial) ?_ ?_
  · exact ⟨fun _ => Nat.zero_le _, by rintro x ⟨⟩, by rintro addr ⟨⟩⟩
  · intro s a s' _ hs _ hstep
    obtain ⟨bfp', hr, rfl⟩ := step_record hstep
    exact accounted_record hs hr

lemma lockouts_le (h : Accounted l s) : s.protection.lockouts.keys.length ≤ total List.length s.protection.attempts := by
  have hkeys : s.protection.lockouts.keys.length ≤ s.protection.attempts.keys.length :=
    (subperm_of_subset s.protection.lockouts.keys_nodup fun addr haddr => h.locked addr haddr).length_le
  refine hkeys.trans ?_
  rw [AList.keys, List.keys, length_map, ← length_map]
  apply length_le_sum_of_one_le
  simp only [mem_map, forall_exists_index, and_imp, forall_apply_eq_imp_iff₂]
  intro x hx
  exact length_pos_iff.mpr (h.tracked x hx)

theorem tracked_bounded (m l : ℕ) (h : Reach (Recorder.step m l) Free .start s) (hg : Current l s a)
    (hstep : s.step m l a = some s') : s'.protection.size ≤ 2 * recent l a.timestamp s'.log := by
  obtain ⟨bfp', hr, rfl⟩ := step_record hstep
  have hs := accounted_record (reach_accounted h) hr
  have hcurrent : total List.length bfp'.attempts = total (recent l a.timestamp) bfp'.attempts := by
    unfold total
    congr 1
    apply map_congr_left
    intro x hx
    refine (countP_eq_length.mpr ?_).symm
    obtain ⟨kept, hattempts, -, hsub, -⟩ := record_spec hr
    rw [hattempts, AList.entries_insert, mem_cons] at hx
    intro y hy
    rw [decide_eq_true_eq]
    obtain rfl | hx := hx
    · have hmem := hsub.subset hy
      rw [mem_append, mem_filter, mem_singleton, decide_eq_true_eq] at hmem
      obtain ⟨-, hlate⟩ | rfl := hmem <;> omega
    · refine hg x ((kerase_sublist _ _).subset hx) ?_ y hy
      rintro heq
      exact notMem_keys_kerase _ s.protection.attempts.nodupKeys (heq ▸ mem_keys_of_mem hx)
  have hcounted := hs.counted a.timestamp
  have hlocked := lockouts_le hs
  dsimp only at hcounted hlocked ⊢
  rw [size]
  omega

lemma total_new (hr : record m l bfp a = some bfp') (hnew : a.clientAddr ∉ bfp.attempts) :
    total List.length bfp'.attempts = total List.length bfp.attempts + 1 := by
  obtain ⟨kept, hattempts, hmem, hsub, -⟩ := record_spec hr
  have htotal := total_insert [] length_nil bfp.attempts a.clientAddr kept
  have hold : bfp.attempts.lookup a.clientAddr = none := AList.lookup_eq_none.mpr hnew
  have hle := hsub.length_le
  have hpos := length_pos_of_mem hmem
  rw [attemptsOf, hold] at hle
  rw [hold] at htotal
  simp only [Option.getD_none, filter_nil, nil_append, length_singleton, length_nil] at hle htotal
  rw [hattempts]
  omega

namespace Crowd

def client (n : ℕ) : SocketAddr := ⟨"203.0.113.7", n⟩

def refused (n t : ℕ) : AuthAttempt := ⟨t, client n, false, none, some "key validation failed"⟩

lemma step_refused (m n : ℕ) (hl : l ≤ instantReach + t) (hlog : ∀ x ∈ s.log, x.timestamp ≤ t) :
    ∃ bfp', record m l s.protection (refused n t) = some bfp' ∧
      s.step m l (refused n t) = some ⟨bfp', s.log ++ [refused n t]⟩ := by
  obtain ⟨bfp', hr⟩ := Option.isSome_iff_exists.mp (record_isSome (a := refused n t) s.protection m hl)
  refine ⟨bfp', hr, ?_⟩
  have hpast : (s.log.all fun x => x.timestamp ≤ (refused n t).timestamp) = true :=
    all_eq_true.mpr fun x hx => decide_eq_true (hlog x hx)
  rw [Recorder.step, if_pos hpast, hr, Option.map_some]

lemma reach_crowd (m l n : ℕ) : ∃ s, Reach (Recorder.step m l) Free .start s ∧
    total List.length s.protection.attempts = n ∧ (∀ x ∈ s.log, x.timestamp = l) ∧
    ∀ k, n ≤ k → client k ∉ s.protection.attempts := by
  induction n with
  | zero => exact ⟨.start, .refl, rfl, by rintro x ⟨⟩, by rintro k - ⟨⟩⟩
  | succ n ih =>
    obtain ⟨s, hs, htotal, hlog, hnew⟩ := ih
    obtain ⟨bfp', hr, hstep⟩ := step_refused m n (Nat.le_add_left _ _) fun x hx => (hlog x hx).le
    refine ⟨⟨bfp', s.log ++ [refused n l]⟩, hs.tail trivial hstep, ?_, ?_, ?_⟩
    · rw [total_new hr (hnew n (Nat.le_refl n)), htotal]
    · intro x hx
      rw [mem_append, mem_singleton] at hx
      obtain hx | rfl := hx
      · exact hlog x hx
      · rfl
    intro k hk
    obtain ⟨kept, hattempts, -⟩ := record_spec hr
    rw [hattempts, AList.mem_insert]
    rintro (heq | hold)
    · have : k = n := congrArg SocketAddr.port heq
      omega
    · exact hnew k (by omega) hold

end Crowd

open Crowd

theorem tracked_bounded_first : ∃ s', Recorder.start.step 3 300 (refused 0 300) = some s' ∧
    s'.protection.size ≤ 2 * recent 300 300 s'.log := by
  obtain ⟨bfp', -, hstep⟩ := step_refused (s := .start) 3 0 (Nat.le_add_left _ _) (by rintro x ⟨⟩)
  exact ⟨⟨bfp', _⟩, hstep, tracked_bounded (a := refused 0 300) 3 300 .refl (by rintro x ⟨⟩) hstep⟩

theorem tracked_unbounded : ¬ ∃ c, ∀ s a s', Reach (Recorder.step 3 (300 * second)) Free .start s →
    s.step 3 (300 * second) a = some s' → s'.protection.size ≤ c * recent (300 * second) a.timestamp s'.log := by
  rintro ⟨c, hc⟩
  generalize 300 * second = l at hc
  obtain ⟨s, hs, htotal, hlog, hnew⟩ := reach_crowd 3 l c
  have hpast : ∀ x ∈ s.log, x.timestamp ≤ 2 * l + 1 := by
    intro x hx
    rw [hlog x hx]
    omega
  obtain ⟨bfp', hr, hstep⟩ := step_refused 3 c (by omega : l ≤ instantReach + (2 * l + 1)) hpast
  have hone : recent l (2 * l + 1) (s.log ++ [refused c (2 * l + 1)]) = 1 := by
    rw [recent, countP_append, countP_eq_zero.mpr]
    · rw [Nat.zero_add, countP_singleton, if_pos]
      exact decide_eq_true (Nat.le_add_right _ _)
    · intro x hx
      rw [hlog x hx, decide_eq_true_eq]
      omega
  have hbound := hc s _ _ hs hstep
  have htracked := total_new hr (hnew c (Nat.le_refl c))
  dsimp only at hbound
  rw [show (refused c (2 * l + 1)).timestamp = 2 * l + 1 from rfl, hone, size] at hbound
  omega

end FleetingDns.BruteForceProtection
