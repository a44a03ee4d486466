import Mathlib.Algebra.Group.Nat.Defs
import Mathlib.Algebra.Ring.Int.Defs
import Mathlib.Data.List.Basic
import Mathlib.Data.String.Basic
namespace FleetingDns.TextFields

open List

section

variable {sep : Char} {s : String} {parts : List String}

def fields (sep : Char) (s : String) : List String := (s.toList.splitOn sep).map String.ofList

def joined (sep : Char) (parts : List String) : String := String.ofList ([sep].intercalate (parts.map String.toList))

lemma not_mem_splitOn {α : Type} [DecidableEq α] {x : α} {l part : List α} (h : part ∈ l.splitOn x) : x ∉ part := by
  induction l generalizing part with
  | nil =>
    rw [splitOn_nil, mem_singleton] at h
    simp [h]
  | cons y l ih =>
    rw [splitOn_cons_eq_if_modifyHead] at h
    split_ifs at h with hy
    · rcases mem_cons.mp h with rfl | h
      · simp
      · exact ih h
    obtain ⟨first, rest, hs⟩ := exists_cons_of_ne_nil (splitOn_ne_nil x l)
    rw [hs] at h ih
    rw [modifyHead_cons, mem_cons] at h
    rcases h with rfl | h
    · have hne : x ≠ y := by
        rintro rfl
        simp at hy
      simp [hne, ih mem_cons_self]
    · exact ih (mem_cons_of_mem _ h)

lemma fields_eq_iff : fields sep s = parts ↔ parts ≠ [] ∧ (∀ part ∈ parts, sep ∉ part.toList) ∧ s = joined sep parts := by
  constructor
  · rintro rfl
    refine ⟨by simp [fields], ?_, ?_⟩
    · simp only [fields, mem_map, forall_exists_index, and_imp, forall_apply_eq_imp_iff₂, String.toList_ofList]
      intro part hpart
      exact not_mem_splitOn hpart
    · have hmap : (fields sep s).map String.toList = s.toList.splitOn sep := by simp [fields]
      rw [joined, hmap, intercalate_splitOn, String.ofList_toList]
  · rintro ⟨hne, hfree, rfl⟩
    rw [fields, joined, String.toList_ofList, splitOn_intercalate]
    · simp [Function.comp_def]
    · simpa using hfree
    · simpa using hne

end

section

variable {n : ℕ} {digits : List Char}

def parseDigits (digits : List Char) : Option ℕ :=
  if digits ≠ [] ∧ digits.all Char.isDigit then some (Nat.ofDigitChars 10 digits 0) else none

lemma parseDigits_repr (n : ℕ) : parseDigits (Nat.repr n).toList = some n := by
  rw [Nat.toList_repr, parseDigits, if_pos, Nat.ofDigitChars_ten_toDigits]
  refine ⟨Nat.toDigits_ne_nil, ?_⟩
  rw [all_eq_true]
  intro c hc
  exact Nat.isDigit_of_mem_toDigits (by decide) (by decide) hc

lemma repr_inj {m n : ℕ} : Nat.repr m = Nat.repr n ↔ m = n := by
  constructor
  · intro h
    have hm := parseDigits_repr m
    rw [h, parseDigits_repr n] at hm
    exact (Option.some.inj hm).symm
  · rintro rfl
    rfl

def parseI64 (s : String) : Option ℤ :=
  match s.toList with
  | '-' :: digits => (parseDigits digits).bind fun n => if n ≤ 2 ^ 63 then some (-(n : ℤ)) else none
  | '+' :: digits => (parseDigits digits).bind fun n => if n < 2 ^ 63 then some (n : ℤ) else none
  | digits => (parseDigits digits).bind fun n => if n < 2 ^ 63 then some (n : ℤ) else none

lemma parseI64_repr (h : n < 2 ^ 63) : parseI64 (Nat.repr n) = some (n : ℤ) := by
  have hdigits := parseDigits_repr n
  have hfirst : ∀ c ∈ (Nat.repr n).toList, c.isDigit = true := by
    rw [Nat.toList_repr]
    intro c hc
    exact Nat.isDigit_of_mem_toDigits (by decide) (by decide) hc
  rw [parseI64]
  split
  · rename_i digits hl
    exact absurd (hfirst '-' (by simp [hl])) (by decide)
  · rename_i digits hl
    exact absurd (hfirst '+' (by simp [hl])) (by decide)
  · rw [hdigits, Option.bind_some, if_pos h]

lemma parseI64_range {s : String} {z : ℤ} (h : parseI64 s = some z) : -2 ^ 63 ≤ z ∧ z < 2 ^ 63 := by
  rw [parseI64] at h
  split at h <;>
  · obtain ⟨n, -, h⟩ := Option.bind_eq_some_iff.mp h
    split_ifs at h with hn
    cases h
    omega

end

lemma length_le_utf8Len (l : List Char) : l.length ≤ String.utf8Len l := by
  induction l with
  | nil => exact Nat.zero_le _
  | cons c =>
    have hc := c.utf8Size_pos
    rw [length_cons, String.utf8Len_cons]
    omega

lemma length_le_utf8ByteSize (s : String) : s.toList.length ≤ s.utf8ByteSize := by
  have hle := length_le_utf8Len s.toList
  rwa [← String.utf8ByteSize_ofList, String.ofList_toList] at hle

end FleetingDns.TextFields
