import Mathlib.Data.List.Basic
import Mathlib.Tactic.SplitIfs
namespace FleetingDns.LossyText

abbrev Octet := Fin 256

/-- A character under way: its bits so far, the octets it is owed, and the range of the next one. -/
structure Pending where
  (bits owed low high : ℕ)
  beyondAscii : 0x80 ≤ low

def replacement : Char := '�'

def continued (bits owed : ℕ) : Pending := ⟨bits, owed, 0x80, 0xBF, Nat.le_refl _⟩

def first (b : ℕ) : List Char × Option Pending :=
  if b < 0x80 then ([Char.ofNat b], none)
  else if 0xC2 ≤ b ∧ b ≤ 0xDF then ([], some (continued (b - 0xC0) 1))
  else if b = 0xE0 then ([], some ⟨0, 2, 0xA0, 0xBF, by decide⟩)
  else if b = 0xED then ([], some ⟨0xD, 2, 0x80, 0x9F, by decide⟩)
  else if 0xE1 ≤ b ∧ b ≤ 0xEF then ([], some (continued (b - 0xE0) 2))
  else if b = 0xF0 then ([], some ⟨0, 3, 0x90, 0xBF, by decide⟩)
  else if b = 0xF4 then ([], some ⟨4, 3, 0x80, 0x8F, by decide⟩)
  else if 0xF1 ≤ b ∧ b ≤ 0xF3 then ([], some (continued (b - 0xF0) 3))
  else ([replacement], none)

def step : Option Pending → ℕ → List Char × Option Pending
  | none, b => first b
  | some p, b =>
    if p.low ≤ b ∧ b ≤ p.high then
      let bits := p.bits * 64 + (b - 0x80)
      if p.owed ≤ 1 then ([Char.ofNat bits], none) else ([], some (continued bits (p.owed - 1)))
    else (replacement :: (first b).1, (first b).2)

def decode : Option Pending → List Octet → List Char
  | none, [] => []
  | some _, [] => [replacement]
  | p, b :: bs => (step p b.val).1 ++ decode (step p b.val).2 bs

def after (p : Option Pending) (bs : List Octet) : Option Pending := bs.foldl (fun p (b : Octet) => (step p b.val).2) p

def fromUtf8Lossy (bs : List Octet) : List Char := decode none bs

variable {p : Option Pending} {b : Octet} {bs cs : List Octet}

lemma first_ascii {b : ℕ} (hb : b < 0x80) : first b = ([Char.ofNat b], none) := by
  rw [first, if_pos hb]

lemma step_ascii {b : ℕ} (p : Option Pending) (hb : b < 0x80) : (step p b).2 = none := by
  cases p with
  | none => rw [step, first_ascii hb]
  | some p =>
    have hlow := p.beyondAscii
    rw [step, if_neg (by omega), first_ascii hb]

lemma after_ascii (bs : List Octet) (hb : b.val < 0x80) : after p (bs ++ [b]) = none := by
  rw [after, List.foldl_append]
  exact step_ascii _ hb

lemma decode_cons (p : Option Pending) (b : Octet) (bs : List Octet) :
    decode p (b :: bs) = (step p b.val).1 ++ decode (step p b.val).2 bs := by
  cases p <;> rfl

lemma decode_append (h : after p bs = none) : decode p (bs ++ cs) = decode p bs ++ decode none cs := by
  induction bs generalizing p with
  | nil =>
    obtain rfl : p = none := h
    rfl
  | cons b bs ih =>
    rw [List.cons_append, decode_cons, decode_cons, ih h, List.append_assoc]

lemma fromUtf8Lossy_snoc (bs : List Octet) (hb : b.val < 0x80) :
    ∃ cs, fromUtf8Lossy (bs ++ [b]) = cs ++ [Char.ofNat b.val] := by
  rw [fromUtf8Lossy]
  generalize (none : Option Pending) = p
  induction bs generalizing p with
  | nil =>
    rw [List.nil_append, decode_cons]
    cases p with
    | none => exact ⟨[], by rw [step, first_ascii hb]; rfl⟩
    | some p =>
      have hlow := p.beyondAscii
      exact ⟨[replacement], by rw [step, if_neg (by omega), first_ascii hb]; rfl⟩
  | cons c bs ih =>
    obtain ⟨cs, hcs⟩ := ih (step p c.val).2
    exact ⟨(step p c.val).1 ++ cs, by rw [List.cons_append, decode_cons, hcs, List.append_assoc]⟩

lemma fromUtf8Lossy_append (hb : b.val < 0x80) :
    fromUtf8Lossy (bs ++ [b] ++ cs) = fromUtf8Lossy (bs ++ [b]) ++ fromUtf8Lossy cs :=
  decode_append (after_ascii bs hb)

end FleetingDns.LossyText
