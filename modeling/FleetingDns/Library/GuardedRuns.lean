import Mathlib.Tactic.SplitIfs

namespace FleetingDns.GuardedRuns

variable {σ α : Type}

/-- States reached by a run in which every step meets the guard. -/
inductive Reach (step : σ → α → Option σ) (G : σ → α → Prop) (s0 : σ) : σ → Prop
  | refl : Reach step G s0 s0
  | tail {s s' : σ} {a : α} : Reach step G s0 s → G s a → step s a = some s' → Reach step G s0 s'

abbrev Free (_ : σ) (_ : α) : Prop := True

variable {step : σ → α → Option σ} {G G' : σ → α → Prop} {s0 s s' : σ}

lemma Reach.trans (h : Reach step G s0 s) (h' : Reach step G s s') : Reach step G s0 s' := by
  induction h' with
  | refl => exact h
  | tail _ hg hs ih => exact ih.tail hg hs

lemma Reach.mono (hG : ∀ s a, G s a → G' s a) (h : Reach step G s0 s) : Reach step G' s0 s := by
  induction h with
  | refl => exact .refl
  | tail _ hg hs ih => exact ih.tail (hG _ _ hg) hs

lemma Reach.free (h : Reach step G s0 s) : Reach step Free s0 s := h.mono (fun _ _ _ => trivial)

lemma Reach.invariant {I J : σ → Prop} (h : Reach step G s0 s) (hJ : ∀ s, Reach step G s0 s → J s)
    (h0 : I s0) (hs : ∀ s a s', J s → I s → G s a → step s a = some s' → I s') : I s := by
  induction h with
  | refl => exact h0
  | tail hr hg hstep ih => exact hs _ _ _ (hJ _ hr) ih hg hstep

def runs (step : σ → α → Option σ) (G : σ → α → Prop) [∀ s a, Decidable (G s a)] : σ → List α → Option σ
  | s, [] => some s
  | s, a :: as => if G s a then (step s a).bind (runs step G · as) else none

lemma reach_of_runs [∀ s a, Decidable (G s a)] {as : List α} (h : runs step G s as = some s') :
    Reach step G s s' := by
  induction as generalizing s with
  | nil => rw [runs, Option.some.injEq] at h; exact h ▸ .refl
  | cons a as ih =>
    rw [runs] at h
    split_ifs at h with hg
    obtain ⟨t, ht, hr⟩ := Option.bind_eq_some_iff.mp h
    exact (Reach.refl.tail hg ht).trans (ih hr)

section

variable (step G s) (as : List α)

lemma reach_of_check [∀ s a, Decidable (G s a)]
    (p : σ → Bool) (h : (runs step G s as).any p = true) : ∃ s', Reach step G s s' ∧ p s' = true := by
  rw [Option.any_eq_true] at h
  obtain ⟨s', hs', hp⟩ := h
  exact ⟨s', reach_of_runs hs', hp⟩

lemma reach_of_checks [∀ s a, Decidable (G s a)] (bs : List α) (p : σ → Bool) (q : σ → σ → Bool)
    (h : ((runs step G s as).any fun s1 => p s1 && (runs step G s1 bs).any (q s1)) = true) :
    ∃ s1 s2, Reach step G s s1 ∧ Reach step G s1 s2 ∧ p s1 = true ∧ q s1 s2 = true := by
  obtain ⟨s1, h1, hp⟩ := reach_of_check step G s as _ h
  rw [Bool.and_eq_true] at hp
  obtain ⟨s2, h2, hq⟩ := reach_of_check step G s1 bs (q s1) hp.2
  exact ⟨s1, s2, h1, h2, hp.1, hq⟩

lemma reach_of_step_check [∀ s a, Decidable (G s a)]
    (a : α) (p : σ → Bool) (h : ((runs step G s as).any fun s1 => decide (G s1 a) && (step s1 a).any p) = true) :
    ∃ s1 s2, Reach step G s s1 ∧ G s1 a ∧ step s1 a = some s2 ∧ p s2 = true := by
  obtain ⟨s1, h1, hp⟩ := reach_of_check step G s as _ h
  rw [Bool.and_eq_true, decide_eq_true_iff, Option.any_eq_true] at hp
  obtain ⟨hg, s2, hs, hp⟩ := hp
  exact ⟨s1, s2, h1, hg, hs, hp⟩

end

end FleetingDns.GuardedRuns
