import Mathlib.Data.List.Basic
import Mathlib.Data.Nat.Notation
namespace FleetingDns.FirstLive

variable {α : Type} {deadline : α → ℕ} {t t' : ℕ} {l m : List α} {x : α}

def firstLive (deadline : α → ℕ) (t : ℕ) (l : List α) : Option α := l.find? fun x => t < deadline x

lemma firstLive_some (h : firstLive deadline t l = some x) : x ∈ l ∧ t < deadline x := by
  constructor
  · exact List.mem_of_find?_eq_some h
  · simpa using List.find?_some h

lemma find_eq_firstLive {p : α → Bool} (h : ∀ x ∈ l, p x = decide (t < deadline x)) :
    l.find? p = firstLive deadline t l := by
  induction l with
  | nil => rfl
  | cons y l ih =>
    have ht := ih fun x hx => h x (List.mem_cons_of_mem y hx)
    simp only [firstLive] at ht ⊢
    simp only [List.find?_cons, h y (by simp), ht]

lemma firstLive_none : firstLive deadline t l = none ↔ ∀ x ∈ l, deadline x ≤ t := by
  simp [firstLive]

lemma firstLive_later (h : firstLive deadline t l = some x) (ht : t ≤ t') (hx : t' < deadline x) :
    firstLive deadline t' l = some x := by
  rw [firstLive, List.find?_eq_some_iff_append] at h ⊢
  obtain ⟨-, before, after, rfl, hdead⟩ := h
  refine ⟨by simpa using hx, before, after, rfl, ?_⟩
  intro y hy
  have hd := hdead y hy
  simp only [Bool.not_eq_eq_eq_not, Bool.not_true, decide_eq_false_iff_not] at hd ⊢
  omega

lemma firstLive_append (h : firstLive deadline t l = some x) : firstLive deadline t (l ++ m) = some x := by
  rw [firstLive] at h ⊢
  simp [h]

lemma firstLive_append_dead (h : ∀ x ∈ l, deadline x ≤ t) :
    firstLive deadline t (l ++ m) = firstLive deadline t m := by
  have hn := firstLive_none.mpr h
  rw [firstLive] at hn
  simp [firstLive, hn]

lemma firstLive_map {f : α → α} (hd : ∀ x, deadline (f x) = deadline x) (hf : ∀ x ∈ l, t < deadline x → f x = x) :
    firstLive deadline t (l.map f) = firstLive deadline t l := by
  induction l with
  | nil => rfl
  | cons y l ih =>
    have ht := ih fun x hx => hf x (List.mem_cons_of_mem y hx)
    simp only [firstLive] at ht ⊢
    by_cases hy : t < deadline y
    · simp [hy, hf y (by simp) hy]
    · simp [hd, hy, ht]

def Leads (deadline : α → ℕ) (t : ℕ) (l : List α) (x : α) : Prop := t < deadline x → firstLive deadline t l = some x

lemma Leads.later (h : Leads deadline t l x) (ht : t ≤ t') : Leads deadline t' l x := by
  intro hx
  exact firstLive_later (h (by omega)) ht hx

lemma Leads.append (h : Leads deadline t l x) : Leads deadline t (l ++ m) x := fun hx => firstLive_append (h hx)

lemma leads_of_first (h : firstLive deadline t l = some x) : Leads deadline t l x := fun _ => h

end FleetingDns.FirstLive
