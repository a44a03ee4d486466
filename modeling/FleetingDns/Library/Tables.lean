import Mathlib.Algebra.BigOperators.Group.Finset.Basic
import Mathlib.Algebra.GroupWithZero.Nat
import Mathlib.Data.List.AList
namespace FleetingDns.Tables

open List Option AList

variable {K V : Type} [DecidableEq K]

def retain (keep : V → Bool) (table : AList fun _ : K => V) : AList fun _ : K => V :=
  ⟨table.entries.filter fun x => keep x.2, List.NodupKeys.sublist filter_sublist table.nodupKeys⟩

def eraseAll (keys : List K) (table : AList fun _ : K => V) : AList fun _ : K => V :=
  keys.foldl (fun table key => table.erase key) table

def total (weight : V → ℕ) (table : AList fun _ : K => V) : ℕ := (table.entries.map fun x => weight x.2).sum

variable {table table' : AList fun _ : K => V} {weight : V → ℕ}

lemma lookup_retain (keep : V → Bool) (table : AList fun _ : K => V) (k : K) :
    (retain keep table).lookup k = (table.lookup k).filter keep := by
  ext v
  rw [filter_eq_some_iff, ← mem_def, ← mem_def, mem_lookup_iff, mem_lookup_iff]
  exact mem_filter

lemma length_eraseAll {keys : List K} (hnodup : keys.Nodup) (hmem : ∀ key ∈ keys, key ∈ table) :
    (eraseAll keys table).keys.length = table.keys.length - keys.length := by
  induction keys generalizing table with
  | nil => rfl
  | cons key keys ih =>
    obtain ⟨hfresh, hnodup⟩ := nodup_cons.mp hnodup
    have hkey : key ∈ table.keys := hmem key (by simp)
    have hlength := @ih (table.erase key) hnodup ?_
    · rw [keys_erase, length_erase_of_mem hkey] at hlength
      rw [length_cons, eraseAll, foldl_cons, ← eraseAll]
      omega
    · intro key' hkey'
      rw [mem_erase]
      refine ⟨?_, hmem key' (mem_cons_of_mem _ hkey')⟩
      rintro rfl
      exact hfresh hkey'

lemma lookup_eraseAll {keys : List K} {k : K} {v : V} (h : (eraseAll keys table).lookup k = some v) :
    table.lookup k = some v := by
  induction keys generalizing table with
  | nil => exact h
  | cons key keys ih =>
    have hlookup := ih h
    by_cases hk : k = key
    · rw [hk, lookup_erase] at hlookup
      cases hlookup
    · rwa [lookup_erase_ne hk] at hlookup

section

variable (table) (k : K)

lemma length_insert (v : V) :
    (table.insert k v).keys.length = if k ∈ table then table.keys.length else table.keys.length + 1 := by
  rw [keys_insert, length_cons]
  split_ifs with hk
  · rw [length_erase_of_mem (mem_keys.mp hk)]
    exact Nat.sub_add_cancel (length_pos_of_mem (mem_keys.mp hk))
  · rw [erase_of_not_mem (mt mem_keys.mpr hk)]

lemma length_insert_le (v : V) : (table.insert k v).keys.length ≤ table.keys.length + 1 := by
  rw [length_insert]
  split_ifs <;> omega

lemma getD_lookup_insert (k' : K) (v absent : V) :
    ((table.insert k v).lookup k').getD absent = if k' = k then v else (table.lookup k').getD absent := by
  split_ifs with h
  · rw [h, lookup_insert, getD_some]
  · rw [lookup_insert_ne h]

end

lemma total_eq_sum (weight : V → ℕ) (table : AList fun _ : K => V) (absent : V) :
    total weight table = ∑ k ∈ table.keys.toFinset, weight ((table.lookup k).getD absent) := by
  rw [List.sum_toFinset _ table.keys_nodup, total, AList.keys, List.keys, List.map_map]
  congr 1
  apply List.map_congr_left
  rintro ⟨k, v⟩ hx
  have hlookup : table.lookup k = some v := AList.mem_lookup_iff.mpr hx
  simp [hlookup]

lemma total_congr (absent : V) (habsent : weight absent = 0)
    (h : ∀ k, weight ((table.lookup k).getD absent) = weight ((table'.lookup k).getD absent)) :
    total weight table = total weight table' := by
  have hwiden : ∀ (a b : AList fun _ : K => V), total weight a =
      ∑ k ∈ a.keys.toFinset ∪ b.keys.toFinset, weight ((a.lookup k).getD absent) := by
    intro a b
    rw [total_eq_sum weight a absent]
    apply Finset.sum_subset Finset.subset_union_left
    intro k _ hk
    have hlookup : a.lookup k = none := by
      rw [AList.lookup_eq_none, AList.mem_keys]
      simpa using hk
    rw [hlookup, getD_none, habsent]
  rw [hwiden table table', hwiden table' table, Finset.union_comm]
  exact Finset.sum_congr rfl fun k _ => h k

lemma total_insert (absent : V) (habsent : weight absent = 0) (table : AList fun _ : K => V) (k : K) (v : V) :
    total weight (table.insert k v) + weight ((table.lookup k).getD absent) = total weight table + weight v := by
  rw [total, entries_insert, map_cons, sum_cons, total]
  by_cases hk : k ∈ table
  · obtain ⟨old, before, after, -, hentries, herase⟩ := exists_of_kerase (mem_keys.mp hk)
    have hlookup : table.lookup k = some old := mem_lookup_iff.mpr (by simp [hentries])
    rw [herase, hentries, hlookup, getD_some, map_append, map_append, map_cons, sum_append,
      sum_append, sum_cons]
    dsimp only
    omega
  · rw [kerase_of_notMem_keys (mt mem_keys.mpr hk), lookup_eq_none.mpr hk, getD_none, habsent,
      Nat.add_zero, Nat.add_comm]

lemma weight_le_total (absent : V) (habsent : weight absent = 0) (table : AList fun _ : K => V) (k : K) :
    weight ((table.lookup k).getD absent) ≤ total weight table := by
  have h := total_insert absent habsent table k absent
  omega

end FleetingDns.Tables
