import Mathlib.Algebra.Group.Nat.Defs
import Mathlib.Data.List.AList
import Mathlib.Data.List.Perm.Basic
namespace FleetingDns.ExpiringStore

open Option AList

def second : ℕ := 1000000000

structure Entry (V : Type) where
  value : V
  deadline : Option ℕ

abbrev Store (K V : Type) := AList (fun _ : K => Entry V)

inductive StoreCmd (K V : Type) where
  | get (k : K)
  | set (k : K) (v : V)
  | setEx (k : K) (v : V) (ttl : ℕ)
  | setNxEx (k : K) (v : V) (ttl : ℕ)
  | del (k : K)
  | expire (k : K) (ttl : ℤ)
  | exist (k : K)
  | keys (p : K → Bool)

inductive Outcome (K : Type) where
  | ok
  | listed (l : List K)
  | refused (e : String)
  | lost (e : String)

variable {K V : Type}

def Entry.live (now : ℕ) (e : Entry V) : Bool := e.deadline.all (now < ·)

namespace StoreCmd

@[reducible] def Reply : StoreCmd K V → Type
  | get _ => Option V
  | set _ _ | setEx _ _ _ | del _ => Unit
  | setNxEx _ _ _ | expire _ _ | exist _ => Bool
  | keys _ => List K

def target : StoreCmd K V → Option K
  | get _ | exist _ | keys _ => none
  | set k _ | setEx k _ _ | setNxEx k _ _ | del k | expire k _ => some k

def written : StoreCmd K V → Option (K × V)
  | set k v | setEx k v _ | setNxEx k v _ => some (k, v)
  | _ => none

def entry (now : ℕ) (old : Option (Entry V)) : StoreCmd K V → Option (Entry V)
  | set _ v => some ⟨v, none⟩
  | setEx _ v ttl => some ⟨v, some (now + ttl * second)⟩
  | setNxEx _ v ttl => some (old.getD ⟨v, some (now + ttl * second)⟩)
  | del _ => none
  | expire _ ttl => if ttl ≤ 0 then none else old.map fun e => ⟨e.value, some (now + ttl.toNat * second)⟩
  | _ => old

end StoreCmd

def validExpire (now ttl : ℕ) : Bool := 0 < ttl ∧ now / 1000000 + ttl * 1000 < 2 ^ 63

lemma target_ne {c : StoreCmd K V} {j k : K} (hj : c.target = some j) (hk : c.target ≠ some k) : k ≠ j := by
  rintro rfl
  exact hk hj

section

variable [DecidableEq K]

def apply (now : ℕ) (s : Store K V) : (c : StoreCmd K V) → Except String (Store K V × c.Reply)
  | .get k => .ok (s, (s.lookup k).map Entry.value)
  | .set k v => .ok (s.insert k ⟨v, none⟩, ())
  | .setEx k v ttl =>
    if validExpire now ttl then .ok (s.insert k ⟨v, some (now + ttl * second)⟩, ())
    else .error "ERR invalid expire time in 'setex' command"
  | .setNxEx k v ttl =>
    if validExpire now ttl then
      match s.lookup k with
      | some _ => .ok (s, false)
      | none => .ok (s.insert k ⟨v, some (now + ttl * second)⟩, true)
    else .error "ERR invalid expire time in 'set' command"
  | .del k => .ok (s.erase k, ())
  | .expire k ttl =>
    match s.lookup k with
    | none => .ok (s, false)
    | some e =>
      if ttl ≤ 0 then .ok (s.erase k, true)
      else if validExpire now ttl.toNat then
        .ok (s.insert k ⟨e.value, some (now + ttl.toNat * second)⟩, true)
      else .error "ERR invalid expire time in 'expire' command"
  | .exist k => .ok (s, (s.lookup k).isSome)
  | .keys p => .ok (s, s.keys.filter p)

/-- A command is carried out, refused before it takes effect, or carried out with its reply lost. -/
def perform (now : ℕ) (s : Store K V) (c : StoreCmd K V) : Outcome K → Option (Store K V × Except String c.Reply)
  | .ok => match apply now s c with
    | .ok (s', r) => some (s', .ok r)
    | .error e => some (s, .error e)
  | .listed l => match c with
    | .keys p => if l.Perm (s.keys.filter p) then some (s, .ok l) else none
    | _ => none
  | .refused e => some (s, .error e)
  | .lost e => match apply now s c with
    | .ok (s', _) => some (s', .error e)
    | .error e' => some (s, .error e')

def lapse (now : ℕ) (s : Store K V) (k : K) : Option (Store K V) :=
  match s.lookup k with
  | some e => if e.live now then none else some (s.erase k)
  | none => none

variable {now ttl : ℕ} {s s' : Store K V} {c : StoreCmd K V} {k : K} {r : Except String c.Reply} {o : Outcome K}
    {v : V} {x : Unit}

lemma apply_cases {r : c.Reply} (h : apply now s c = .ok (s', r)) :
    (s' = s ∧ ∀ k, c.target = some k → s.lookup k = c.entry now (s.lookup k)) ∨ ∃ k, c.target = some k ∧
      ((s' = s.erase k ∧ c.entry now (s.lookup k) = none) ∨
        ∃ e, s' = s.insert k e ∧ c.entry now (s.lookup k) = some e) := by
  cases c with
  | get | exist | keys =>
    cases h
    exact .inl ⟨rfl, by rintro k ⟨⟩⟩
  | set k =>
    cases h
    exact .inr ⟨k, rfl, .inr ⟨_, rfl, rfl⟩⟩
  | del k =>
    cases h
    exact .inr ⟨k, rfl, .inl ⟨rfl, rfl⟩⟩
  | setEx k =>
    simp only [apply] at h
    split_ifs at h
    cases h
    exact .inr ⟨k, rfl, .inr ⟨_, rfl, rfl⟩⟩
  | setNxEx k =>
    simp only [apply] at h
    split_ifs at h
    split at h <;> rename_i he <;> cases h
    · exact .inl ⟨rfl, by rintro _ ⟨⟩; rw [he]; rfl⟩
    · exact .inr ⟨k, rfl, .inr ⟨_, rfl, by rw [he]; rfl⟩⟩
  | expire k =>
    simp only [apply] at h
    split at h <;> rename_i he
    · cases h
      exact .inl ⟨rfl, by rintro _ ⟨⟩; rw [he, StoreCmd.entry, map_none, ite_self]⟩
    · split_ifs at h with ht hv <;> cases h
      · exact .inr ⟨k, rfl, .inl ⟨rfl, if_pos ht⟩⟩
      · exact .inr ⟨k, rfl, .inr ⟨_, rfl, by rw [he, StoreCmd.entry, if_neg ht]; rfl⟩⟩

lemma apply_frame {r : c.Reply} (h : apply now s c = .ok (s', r)) (hk : c.target ≠ some k) :
    s'.lookup k = s.lookup k := by
  obtain ⟨rfl, -⟩ | ⟨j, hj, ⟨rfl, -⟩ | ⟨e, rfl, -⟩⟩ := apply_cases h
  · rfl
  · exact lookup_erase_ne (target_ne hj hk)
  · exact lookup_insert_ne (target_ne hj hk)

lemma apply_target {r : c.Reply} (h : apply now s c = .ok (s', r)) (hk : c.target = some k) :
    s'.lookup k = c.entry now (s.lookup k) := by
  obtain ⟨rfl, hsame⟩ | ⟨j, hj, hentry⟩ := apply_cases h
  · exact hsame k hk
  · obtain rfl := mem_unique hj hk
    obtain ⟨rfl, he⟩ | ⟨e, rfl, he⟩ := hentry
    · rw [he, lookup_erase]
    · rw [he, lookup_insert]

lemma perform_cases (h : perform now s c o = some (s', r)) : s' = s ∨ ∃ x, apply now s c = .ok (s', x) := by
  cases o with
  | ok =>
    simp only [perform] at h
    split at h
    · rename_i he
      cases h
      exact .inr ⟨_, he⟩
    · cases h
      exact .inl rfl
  | listed =>
    cases c <;> simp only [perform, reduceCtorEq] at h
    split_ifs at h
    cases h
    exact .inl rfl
  | refused =>
    cases h
    exact .inl rfl
  | lost e =>
    simp only [perform] at h
    split at h
    · rename_i he
      cases h
      exact .inr ⟨_, he⟩
    · cases h
      exact .inl rfl

lemma perform_invalid {e : String} (ha : apply now s c = .error e) (h : perform now s c o = some (s', r)) :
    (∃ e, r = .error e) ∧ s' = s := by
  cases o with
  | listed =>
    cases c <;> simp only [perform, reduceCtorEq] at h
    cases ha
  | _ =>
    simp only [perform, ha, Option.some.injEq, Prod.mk.injEq] at h
    exact ⟨⟨_, h.2.symm⟩, h.1.symm⟩

section

variable (h : perform now s c o = some (s', r))

include h

lemma perform_frame (hk : c.target ≠ some k) : s'.lookup k = s.lookup k := by
  obtain rfl | ⟨x, hx⟩ := perform_cases h
  · rfl
  · exact apply_frame hx hk

lemma perform_target (hk : c.target = some k) : s'.lookup k = s.lookup k ∨ s'.lookup k = c.entry now (s.lookup k) := by
  obtain rfl | ⟨x, hx⟩ := perform_cases h
  · exact .inl rfl
  · exact .inr (apply_target hx hk)

lemma perform_value {e : Entry V} (he : s'.lookup k = some e) :
    (∃ e0, s.lookup k = some e0 ∧ e0.value = e.value) ∨ c.written = some (k, e.value) := by
  by_cases hk : c.target = some k
  · obtain heq | heq := perform_target h hk
    · exact .inl ⟨e, heq ▸ he, rfl⟩
    rw [heq] at he
    cases c with
    | get | exist | keys => cases hk
    | set | setEx =>
      cases hk
      cases he
      exact .inr rfl
    | setNxEx =>
      cases hk
      cases hold : s.lookup k with
      | none =>
        rw [hold] at he
        cases he
        exact .inr rfl
      | some e0 =>
        rw [hold] at he
        cases he
        exact .inl ⟨e0, rfl, rfl⟩
    | del => cases he
    | expire =>
      cases hk
      simp only [StoreCmd.entry] at he
      split_ifs at he
      obtain ⟨e0, hold, rfl⟩ := map_eq_some_iff.mp he
      exact .inl ⟨e0, hold, rfl⟩
  · exact .inl ⟨e, perform_frame h hk ▸ he, rfl⟩

end

lemma perform_ok {x : c.Reply} (h : perform now s c o = some (s', .ok x)) :
    apply now s c = .ok (s', x) ∨
      ∃ (p : K → Bool) (l : List K), c = .keys p ∧ s' = s ∧ HEq x l ∧ l.Perm (s.keys.filter p) := by
  cases o with
  | ok =>
    simp only [perform] at h
    split at h
    · rename_i he
      simp only [Option.some.injEq, Prod.mk.injEq, Except.ok.injEq] at h
      exact .inl (by rw [he, h.1, h.2])
    · simp at h
  | listed l =>
    cases c <;> simp only [perform, reduceCtorEq] at h
    split at h
    · simp only [Option.some.injEq, Prod.mk.injEq, Except.ok.injEq] at h
      rename_i p hp
      exact .inr ⟨p, l, rfl, h.1.symm, heq_of_eq h.2.symm, hp⟩
    · cases h
  | refused => simp [perform] at h
  | lost =>
    simp only [perform] at h
    split at h <;> simp at h

lemma perform_done {x : c.Reply} (h : perform now s c o = some (s', .ok x)) (hc : ∀ p, c ≠ .keys p) :
    apply now s c = .ok (s', x) := by
  obtain h | ⟨p, l, hp, -⟩ := perform_ok h
  · exact h
  · exact absurd hp (hc p)

lemma perform_get {x : Option V} (h : perform now s (.get k) o = some (s', .ok x)) :
    s' = s ∧ x = (s.lookup k).map Entry.value := by
  cases perform_done h (by rintro p ⟨⟩)
  exact ⟨rfl, rfl⟩

lemma perform_exist {x : Bool} (h : perform now s (.exist k) o = some (s', .ok x)) :
    s' = s ∧ x = (s.lookup k).isSome := by
  cases perform_done h (by rintro p ⟨⟩)
  exact ⟨rfl, rfl⟩

lemma perform_setNxEx (h : perform now s (.setNxEx k v ttl) o = some (s', .ok true)) :
    s.lookup k = none ∧ s'.lookup k = some ⟨v, some (now + ttl * second)⟩ := by
  replace h := perform_done h (by rintro p ⟨⟩)
  have ht := apply_target h rfl
  simp only [apply] at h
  split at h
  · split at h <;> rename_i he
    · simp at h
    · rw [ht, he]; exact ⟨rfl, rfl⟩
  · cases h

lemma perform_setNxEx_held (h : perform now s (.setNxEx k v ttl) o = some (s', .ok false)) :
    (s.lookup k).isSome = true := by
  replace h := perform_done h (by rintro p ⟨⟩)
  simp only [apply] at h
  split at h
  · split at h <;> rename_i he
    · simp [he]
    · simp at h
  · cases h

lemma perform_set (h : perform now s (.set k v) o = some (s', .ok x)) : s'.lookup k = some ⟨v, none⟩ := by
  exact apply_target (perform_done h (by rintro p ⟨⟩)) rfl

lemma perform_del (h : perform now s (.del k) o = some (s', .ok x)) : s'.lookup k = none := by
  exact apply_target (perform_done h (by rintro p ⟨⟩)) rfl

lemma perform_setEx (h : perform now s (.setEx k v ttl) o = some (s', .ok x)) :
    validExpire now ttl = true ∧ s'.lookup k = some ⟨v, some (now + ttl * second)⟩ := by
  replace h := perform_done h (by rintro p ⟨⟩)
  have ht := apply_target h rfl
  simp only [apply] at h
  split at h
  · rename_i hv
    exact ⟨hv, ht⟩
  · cases h

lemma perform_claim {x : Bool} (h : perform now s (.setNxEx k v ttl) o = some (s', .ok x)) :
    validExpire now ttl = true := by
  replace h := perform_done h (by rintro p ⟨⟩)
  simp only [apply] at h
  split at h
  · rename_i hv
    exact hv
  · cases h

lemma perform_expire {ttl : ℤ} (h : perform now s (.expire k ttl) o = some (s', .ok true)) (hpos : 0 < ttl) :
    ∃ v, s'.lookup k = some ⟨v, some (now + ttl.toNat * second)⟩ := by
  replace h := perform_done h (by rintro p ⟨⟩)
  have ht := apply_target h rfl
  simp only [apply] at h
  cases he : s.lookup k with
  | none => simp [he] at h
  | some e =>
    rw [he, StoreCmd.entry, if_neg (by omega)] at ht
    exact ⟨e.value, ht⟩

lemma lapse_frame {j : K} (h : lapse now s j = some s') (hk : k ≠ j) : s'.lookup k = s.lookup k := by
  simp only [lapse] at h
  split at h
  · split at h
    · cases h
    · cases h; exact lookup_erase_ne hk
  · cases h

lemma lapse_target (h : lapse now s k = some s') :
    (∃ e, s.lookup k = some e ∧ e.live now = false) ∧ s'.lookup k = none := by
  simp only [lapse] at h
  split at h
  · rename_i e he
    split at h
    · cases h
    · rename_i hl; cases h; exact ⟨⟨e, he, by simpa using hl⟩, lookup_erase k s⟩
  · cases h

lemma lapse_some {j : K} {e : Entry V} (h : lapse now s j = some s') (he : s'.lookup k = some e) :
    s.lookup k = some e := by
  by_cases hk : k = j
  · subst hk
    cases (lapse_target h).2.symm.trans he
  · exact (lapse_frame h hk).symm.trans he

end

/-- The store as its readers see it: no key past its deadline. -/
def visible (now : ℕ) (s : Store K V) : Store K V :=
  ⟨s.entries.filter fun x => x.2.live now, List.NodupKeys.sublist List.filter_sublist s.nodupKeys⟩

lemma lookup_visible [DecidableEq K] (now : ℕ) (s : Store K V) (k : K) :
    (visible now s).lookup k = (s.lookup k).filter (·.live now) := by
  ext e
  rw [filter_eq_some_iff, ← mem_def, ← mem_def, mem_lookup_iff, mem_lookup_iff]
  exact List.mem_filter

lemma live_iff {now : ℕ} {e : Entry V} : e.live now = true ↔ ∀ d, e.deadline = some d → now < d := by
  cases he : e.deadline <;> simp [Entry.live, he]

end FleetingDns.ExpiringStore
