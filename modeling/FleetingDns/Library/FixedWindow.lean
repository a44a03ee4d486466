import Mathlib.Data.List.Basic
import Mathlib.Data.Nat.Notation
import Mathlib.Tactic.SplitIfs
namespace FleetingDns.FixedWindow

/-- A counter that starts over once its window has passed, and blocks for a while, if it can, when it is full. -/
structure Counter where
  (requests lastReset : ℕ)
  blockedUntil : Option ℕ

variable (limit window : ℕ) (block : ℕ → Option ℕ)

def restart (c : Counter) (now : ℕ) : Counter :=
  if now - c.lastReset > window then ⟨0, now, none⟩ else { c with blockedUntil := none }

def hit (c : Counter) (now : ℕ) : Bool × Counter :=
  if c.blockedUntil.any (now < ·) then (false, c)
  else
    let c := restart window c now
    if c.requests ≥ limit then (false, { c with blockedUntil := block now })
    else (true, { c with requests := c.requests + 1 })

def admitted : Option Counter → List ℕ → ℕ
  | _, [] => 0
  | c, now :: times =>
    let h := hit limit window block (c.getD ⟨0, now, none⟩) now
    h.1.toNat + admitted (some h.2) times

variable {limit window block} {c : Counter} {now t : ℕ} {times : List ℕ}

lemma restart_within (h : now ≤ c.lastReset + window) : restart window c now = { c with blockedUntil := none } := by
  rw [restart, if_neg (by omega)]

lemma restart_late (h : c.lastReset + window < now) : restart window c now = ⟨0, now, none⟩ := by
  rw [restart, if_pos (by omega)]

lemma restart_blockedUntil (window : ℕ) (c : Counter) (now : ℕ) : (restart window c now).blockedUntil = none := by
  rw [restart]
  split_ifs <;> rfl

lemma hit_cases (limit window : ℕ) (block : ℕ → Option ℕ) (c : Counter) (now : ℕ) :
    hit limit window block c now = (false, c) ∨
    hit limit window block c now = (false, { restart window c now with blockedUntil := block now }) ∨
    ((restart window c now).requests < limit ∧ hit limit window block c now =
      (true, { restart window c now with requests := (restart window c now).requests + 1 })) := by
  rw [hit]
  split_ifs with hblocked
  · exact .inl rfl
  · by_cases hfull : (restart window c now).requests ≥ limit
    · exact .inr (.inl (if_pos hfull))
    · exact .inr (.inr ⟨Nat.lt_of_not_le hfull, if_neg hfull⟩)

lemma hit_within (limit : ℕ) (block : ℕ → Option ℕ) (h : now ≤ c.lastReset + window) :
    (hit limit window block c now).2.lastReset = c.lastReset ∧
      (hit limit window block c now).1.toNat + (limit - (hit limit window block c now).2.requests) ≤
        limit - c.requests := by
  obtain hhit | hhit | ⟨hlt, hhit⟩ := hit_cases limit window block c now
  · simp [hhit]
  · simp [hhit, restart_within h]
  · simp only [restart_within h] at hlt hhit
    rw [hhit]
    refine ⟨rfl, ?_⟩
    simp only [Bool.toNat_true]
    omega

lemma hit_count (limit window : ℕ) (block : ℕ → Option ℕ) (c : Counter) (now : ℕ) :
    (hit limit window block c now).1.toNat + (limit - (hit limit window block c now).2.requests) ≤ limit := by
  obtain hhit | hhit | ⟨hlt, hhit⟩ := hit_cases limit window block c now
  · simp [hhit]
  · simp [hhit]
  · simp only [hhit, Bool.toNat_true]
    omega

lemma hit_late (limit : ℕ) (block : ℕ → Option ℕ) (h : c.lastReset + window < now) : hit limit window block c now = (false, c) ∨
    (hit limit window block c now).2.lastReset = now := by
  obtain hhit | hhit | ⟨-, hhit⟩ := hit_cases limit window block c now
  · exact .inl hhit
  · simp [hhit, restart_late h]
  · simp [hhit, restart_late h]

lemma hit_again {requests : ℕ} (h : requests < limit) :
    hit limit window block ⟨requests, now, none⟩ now = (true, ⟨requests + 1, now, none⟩) := by
  simp [hit, restart, Nat.not_le_of_lt h]

lemma admitted_cons (c : Counter) (now : ℕ) (times : List ℕ) :
    admitted limit window block (some c) (now :: times) = (hit limit window block c now).1.toNat +
      admitted limit window block (some (hit limit window block c now).2) times := rfl

lemma admitted_within (limit : ℕ) (block : ℕ → Option ℕ) (h : ∀ now ∈ times, now ≤ c.lastReset + window) :
    admitted limit window block (some c) times ≤ limit - c.requests := by
  induction times generalizing c with
  | nil => exact Nat.zero_le _
  | cons now times ih =>
    obtain ⟨hreset, hcount⟩ := hit_within limit block (h now (by simp))
    have hrest := ih fun t ht => by
      rw [hreset]
      exact h t (List.mem_cons_of_mem now ht)
    rw [admitted_cons]
    omega

lemma admitted_one_window {c : Option Counter}
    (h : ∀ t ∈ times, t ≤ (hit limit window block (c.getD ⟨0, now, none⟩) now).2.lastReset + window) :
    admitted limit window block c (now :: times) ≤ limit := by
  have hrest := admitted_within limit block h
  have hcount := hit_count limit window block (c.getD ⟨0, now, none⟩) now
  rw [admitted]
  omega

lemma admitted_interval (limit : ℕ) (block : ℕ → Option ℕ) (h : ∀ now ∈ times, t ≤ now ∧ now ≤ t + window) :
    admitted limit window block (some c) times ≤ limit - c.requests + limit := by
  induction times generalizing c with
  | nil => exact Nat.zero_le _
  | cons now times ih =>
    have hrest : ∀ now ∈ times, t ≤ now ∧ now ≤ t + window := fun now hn => h now (List.mem_cons_of_mem _ hn)
    have hnow := h now (by simp)
    rw [admitted_cons]
    by_cases hin : now ≤ c.lastReset + window
    · obtain ⟨-, hcount⟩ := hit_within limit block hin
      have := ih (c := (hit limit window block c now).2) hrest
      omega
    obtain hhit | hreset := hit_late limit block (Nat.lt_of_not_le hin)
    · have := ih (c := c) hrest
      simpa [hhit] using this
    have hwithin : ∀ t' ∈ times, t' ≤ (hit limit window block c now).2.lastReset + window := by
      intro t' ht'
      have := hrest t' ht'
      omega
    have := admitted_within limit block hwithin
    have hcount := hit_count limit window block c now
    omega

lemma admitted_interval_le {c : Option Counter} (h : ∀ now ∈ times, t ≤ now ∧ now ≤ t + window) :
    admitted limit window block c times ≤ 2 * limit := by
  cases c with
  | some c =>
    have := admitted_interval limit block (c := c) h
    omega
  | none =>
    cases times with
    | nil => exact Nat.zero_le _
    | cons now =>
      have := admitted_interval limit block (c := ⟨0, now, none⟩) h
      rw [admitted_cons] at this
      rw [admitted, Option.getD_none]
      omega

end FleetingDns.FixedWindow
