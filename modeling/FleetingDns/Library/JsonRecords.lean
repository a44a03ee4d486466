import Mathlib.Algebra.Ring.Int.Defs
import Mathlib.Data.List.Basic
namespace FleetingDns.JsonRecords

open List

inductive Json where
  | null
  | bool (b : Bool)
  | int (n : ℤ)
  | float (text : String)
  | str (s : String)
  | arr (items : List Json)
  | obj (entries : List (String × Json))

namespace Json

def asBool : Json → Option Bool
  | bool b => some b
  | _ => none

def asStr : Json → Option String
  | str s => some s
  | _ => none

def asU16 : Json → Option ℕ
  | int n => if 0 ≤ n ∧ n < 2 ^ 16 then some n.toNat else none
  | _ => none

def asVariant {α : Type} (names : List (String × α)) : Json → Option α
  | str s => names.lookup s
  | obj [(s, null)] => names.lookup s
  | _ => none

def fields (names : List String) : Json → Option (String → Option Json)
  | obj entries =>
    if ∀ name ∈ names, entries.countP (·.1 == name) ≤ 1 then some fun name => entries.lookup name else none
  | arr items => if items.length ≤ names.length then some fun name => items[names.idxOf name]? else none
  | _ => none

def Lacks (names : List String) (name : String) : Json → Prop
  | obj entries => ∀ value, (name, value) ∉ entries
  | arr items => items.length ≤ names.idxOf name
  | _ => True

def without (names : List String) : Json → Json
  | obj entries => obj (entries.filter fun entry => entry.1 ∉ names)
  | j => j

end Json

def required {α : Type} (get : String → Option Json) (name : String) (decode : Json → Option α) : Option α :=
  (get name).bind decode

def defaulted {α : Type} (get : String → Option Json) (name : String) (default : α) (decode : Json → Option α) : Option α :=
  match get name with
  | some value => decode value
  | none => some default

open Json

variable {α : Type} {names : List String} {name : String} {j : Json} {get : String → Option Json}
    {value : Json} {decode : Json → Option α} {entries : List (String × Json)}

lemma required_eq {x : α} (hget : get name = some value) (hvalue : decode value = some x) :
    required get name decode = some x := by
  rw [required, hget]
  exact hvalue

lemma lookup_eq_none_of_lacks (h : ∀ value, (name, value) ∉ entries) : entries.lookup name = none := by
  induction entries with
  | nil => rfl
  | cons entry entries ih =>
    obtain ⟨key, value⟩ := entry
    have hkey : name ≠ key := by
      rintro rfl
      exact h value (by simp)
    rw [lookup_cons, beq_false_of_ne hkey]
    apply ih
    intro value' hmem
    exact h value' (mem_cons_of_mem _ hmem)

lemma fields_lacks (hlacks : Lacks names name j) (hget : fields names j = some get) : get name = none := by
  cases j with
  | obj =>
    simp only [fields] at hget
    split_ifs at hget
    cases hget
    exact lookup_eq_none_of_lacks hlacks
  | arr =>
    simp only [fields] at hget
    split_ifs at hget
    cases hget
    exact List.getElem?_eq_none hlacks
  | _ => cases hget

lemma lookup_eq_some_of_once (hmem : (name, value) ∈ entries) (honce : entries.countP (·.1 == name) ≤ 1) :
    entries.lookup name = some value := by
  induction entries with
  | nil => cases hmem
  | cons entry entries ih =>
    obtain ⟨key, value'⟩ := entry
    rw [lookup_cons]
    by_cases hkey : name = key
    · subst hkey
      rw [countP_cons_of_pos (by simp)] at honce
      have hnone : entries.countP (·.1 == name) = 0 := by omega
      rcases mem_cons.mp hmem with heq | hmem
      · cases heq
        simp
      · have hfalse := countP_eq_zero.mp hnone _ hmem
        simp at hfalse
    rcases mem_cons.mp hmem with heq | hmem
    · cases heq
      exact absurd rfl hkey
    · rw [beq_false_of_ne hkey]
      refine ih hmem (Nat.le_trans ?_ honce)
      exact (sublist_cons_self _ _).countP_le

lemma fields_mem (hname : name ∈ names) (hmem : (name, value) ∈ entries)
    (hget : fields names (.obj entries) = some get) : get name = some value := by
  simp only [fields] at hget
  split_ifs at hget with honce
  cases hget
  exact lookup_eq_some_of_once hmem (honce name hname)

lemma lookup_filter (dropped : List String) (entries : List (String × Json)) (name : String) :
    (entries.filter fun entry => entry.1 ∉ dropped).lookup name =
      if name ∈ dropped then none else entries.lookup name := by
  induction entries with
  | nil => simp
  | cons entry entries ih =>
    obtain ⟨key, value⟩ := entry
    by_cases hdrop : key ∈ dropped
    · rw [filter_cons_of_neg (by simpa using hdrop), ih, lookup_cons]
      by_cases hkey : name = key
      · subst hkey
        simp [hdrop]
      · rw [beq_false_of_ne hkey]
    · rw [filter_cons_of_pos (by simpa using hdrop), lookup_cons, lookup_cons, ih]
      by_cases hkey : name = key
      · subst hkey
        simp [hdrop]
      · rw [beq_false_of_ne hkey]

lemma fields_without (dropped : List String) (hget : fields names (.obj entries) = some get) :
    fields names (without dropped (.obj entries)) = some fun name => if name ∈ dropped then none else get name := by
  simp only [fields] at hget
  split_ifs at hget with honce
  cases hget
  have honce' : ∀ name ∈ names, (entries.filter fun entry => entry.1 ∉ dropped).countP (·.1 == name) ≤ 1 := by
    intro name hname
    exact Nat.le_trans filter_sublist.countP_le (honce name hname)
  simp only [without, fields, if_pos honce', Option.some.injEq]
  funext name
  exact lookup_filter dropped entries name

lemma defaulted_missing {default x : α} (hnone : get name = none) (h : defaulted get name default decode = some x) :
    x = default := by
  rw [defaulted, hnone] at h
  exact (Option.some.inj h).symm

end FleetingDns.JsonRecords
