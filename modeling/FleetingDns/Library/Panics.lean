import FleetingDns.Library.ExpiringStore

namespace FleetingDns.Panics

open ExpiringStore

/-- A check returns, or panics with the state as it has left it. -/
inductive Checked where
  | returned (r : Except String Unit)
  | panicked (msg : String)
  deriving DecidableEq

def Refused (r : Checked) : Prop := ∃ msg, r = .returned (.error msg)

def checkedAdd (instant duration : ℕ) : Option ℕ :=
  if (instant + duration) / second < 2 ^ 63 then some (instant + duration) else none

/-- A clock reading plus a number of seconds, which the platform holds in 64 bits. -/
def instantAdd (now secs : ℕ) : Option ℕ :=
  if now / second + secs < 2 ^ 63 then some (now + secs * second) else none

def checkedMul (duration scalar : ℕ) : Option ℕ :=
  if duration * scalar / second < 2 ^ 64 then some (duration * scalar) else none

def fits (bits n : ℕ) : Option ℕ := if n < 2 ^ bits then some n else none

variable {bits n n' : ℕ}

lemma instantAdd_eq_some {now secs sum : ℕ} : instantAdd now secs = some sum ↔
    now / second + secs < 2 ^ 63 ∧ now + secs * second = sum := by
  rw [instantAdd]
  split_ifs with h <;> simp only [h, true_and, false_and, Option.some.injEq]

lemma fits_eq_some : fits bits n = some n' ↔ n < 2 ^ bits ∧ n = n' := by
  rw [fits]
  split_ifs with h <;> simp [h]

lemma fits_eq_none : fits bits n = none ↔ 2 ^ bits ≤ n := by
  rw [fits]
  split_ifs with h
  · simpa using h
  · simpa using h

end FleetingDns.Panics
