import FleetingDns.Library.CommandPrograms
namespace FleetingDns.ThreadPool

open CommandPrograms List

structure Thread (S K C : Type) (R : C → Type) (A : Type) where
  call : K
  history : List (Event S C R)
  prog : Prog C R A

section

variable {α : Type} {xs : List α} {x y : α} {i j : ℕ}

lemma getElem?_snoc (h : (xs ++ [x])[i]? = some y) : xs[i]? = some y ∨ (i = xs.length ∧ y = x) := by
  rw [List.getElem?_append] at h
  split_ifs at h
  · exact .inl h
  · rw [List.getElem?_singleton] at h
    split_ifs at h
    cases h
    exact .inr ⟨by omega, rfl⟩

lemma getElem?_put (h : (xs.set j x)[i]? = some y) : (j ≠ i ∧ xs[i]? = some y) ∨ (j = i ∧ y = x) := by
  rw [List.getElem?_set] at h
  split_ifs at h with hj
  · cases h
    exact .inr ⟨hj, rfl⟩
  · exact .inl ⟨hj, h⟩

end

variable {S K C A O : Type} {R : C → Type}

namespace Thread

section

variable (th : Thread S K C R A) (t : Span S) (c : C) (k : R c → Prog C R A) (r : R c)

def advance : Thread S K C R A :=
  ⟨th.call, th.history ++ [⟨t, c, r⟩], k r⟩

def stop (a : A) : Thread S K C R A := { th with prog := .ret a }

def InFlight : Prop := th.prog.next.isSome

@[simp] lemma advance_call : (th.advance t c k r).call = th.call := rfl

@[simp] lemma advance_history : (th.advance t c k r).history = th.history ++ [⟨t, c, r⟩] := rfl

@[simp] lemma stop_call (a : A) : (th.stop a).call = th.call := rfl

@[simp] lemma stop_history (a : A) : (th.stop a).history = th.history := rfl

lemma stop_not_inFlight (a : A) : ¬ (th.stop a).InFlight := by
  simp [InFlight, stop, Prog.next]

end

lemma inFlight_of_call {th : Thread S K C R A} {c : C} {k : R c → Prog C R A} (h : th.prog = .call c k) :
    th.InFlight := by
  rw [InFlight, Prog.next_isSome h]; rfl

end Thread

def settle (complete : K → A → S → S) (call : K) (s : S) : Prog C R A → S
  | .ret a => complete call a s
  | .call _ _ => s

def exec (perform : S → K → (c : C) → O → Option (S × R c)) (complete : K → A → S → S)
    (s : S) (threads : List (Thread S K C R A)) (tid : ℕ) (o : O) : Option (S × List (Thread S K C R A)) :=
  match threads[tid]? with
  | none => none
  | some th => match th.prog with
    | .ret _ => none
    | .call c k => match perform s th.call c o with
      | none => none
      | some (s', r) => some (settle complete th.call s' (k r), threads.set tid (th.advance ⟨s, s'⟩ c k r))

lemma exec_cases {perform : S → K → (c : C) → O → Option (S × R c)} {complete : K → A → S → S} {s s' : S}
    {ts ts' : List (Thread S K C R A)} {tid : ℕ} {o : O} (h : exec perform complete s ts tid o = some (s', ts')) :
    ∃ th c k s1 r, ts[tid]? = some th ∧ th.prog = .call c k ∧ perform s th.call c o = some (s1, r) ∧
      s' = settle complete th.call s1 (k r) ∧ ts' = ts.set tid (th.advance ⟨s, s1⟩ c k r) := by
  simp only [exec] at h
  split at h
  · cases h
  rename_i th hth
  split at h
  · cases h
  rename_i c k hp
  split at h
  · cases h
  · rename_i s1 r hr
    simp only [Option.some.injEq, Prod.mk.injEq] at h
    exact ⟨th, c, k, s1, r, hth, hp, hr, h.1.symm, h.2.symm⟩

def Logs (h : List (Event S C R)) (c : C) (r : R c) (h' : List (Event S C R)) : Prop :=
  ∃ t, h' = h ++ [⟨t, c, r⟩]

variable {P : List (Event S C R) → C → Prop} {I : List (Event S C R) → Prop} {p : Prog C R A} {h : List (Event S C R)}
    {Q : A → Prop} {th : Thread S K C R A} {c : C} {good : (c : C) → R c → Prop} {k : R c → Prog C R A}

lemma meets_kept {Q : List (Event S C R) → A → Prop} (hI : ∀ h c t r, P h c → I h → I (h ++ [⟨t, c, r⟩]))
    (h0 : I h) (hm : Meets Logs P Q p h) : Meets Logs P (fun h a => Q h a ∧ I h) p h := by
  induction hm with
  | ret hq => exact .ret ⟨hq, h0⟩
  | call hc _ ih =>
    refine .call hc ?_
    rintro r h' ⟨t, rfl⟩
    exact ih r _ ⟨t, rfl⟩ (hI _ _ t r hc h0)

lemma meets_only {K : C → Prop} (hP : ∀ h c, K c → I h → P h c)
    (hI : ∀ h c t r, K c → I h → I (h ++ [⟨t, c, r⟩])) (hp : Only K p) (h0 : I h) :
    Meets Logs P (fun h _ => I h) p h := by
  induction hp generalizing h with
  | ret => exact .ret h0
  | call hc _ ih =>
    refine .call (hP h _ hc h0) ?_
    rintro r h' ⟨t, rfl⟩
    exact ih r (hI h _ t r hc h0)

lemma meets_spoiled (p : Prog C R A) (hbad : ∃ e ∈ h, ¬ good e.cmd e.reply) :
    Meets Logs (fun _ _ => True) (fun h a => (∀ e ∈ h, good e.cmd e.reply) → Q a) p h := by
  induction p generalizing h with
  | ret =>
    obtain ⟨e, he, hbad⟩ := hbad
    exact .ret fun hall => absurd (hall e he) hbad
  | call c k ih =>
    refine .call trivial ?_
    rintro r h' ⟨t, rfl⟩
    obtain ⟨e, he, hbad⟩ := hbad
    exact ih r ⟨e, mem_append_left _ he, hbad⟩

lemma meets_yields (hp : Yields good Q p) (h : List (Event S C R)) :
    Meets Logs (fun _ _ => True) (fun h a => (∀ e ∈ h, good e.cmd e.reply) → Q a) p h := by
  induction hp generalizing h with
  | ret ha => exact .ret fun _ => ha
  | @call c k _ ih =>
    refine .call trivial ?_
    rintro r h' ⟨t, rfl⟩
    by_cases hr : good c r
    · exact ih r hr _
    · exact meets_spoiled (k r) ⟨⟨t, c, r⟩, by simp, hr⟩

abbrev Obeys (May : List (Event S C R) → C → Prop) (Ends : List (Event S C R) → A → Prop) (p : Prog C R A)
    (h : List (Event S C R)) : Prop :=
  Meets Logs May Ends p h

abbrev Abides (May : List (Event S C R) → C → Prop) (p : Prog C R A) (h : List (Event S C R)) : Prop :=
  Meets Logs May (fun _ _ => True) p h

def Disciplined (May : K → List (Event S C R) → C → Prop) (Ends : K → List (Event S C R) → A → Prop)
    (ts : List (Thread S K C R A)) : Prop :=
  ∀ (tid : ℕ) (th : Thread S K C R A), ts[tid]? = some th → th.InFlight →
    Obeys (May th.call) (Ends th.call) th.prog th.history

variable {May : K → List (Event S C R) → C → Prop} {Ends : K → List (Event S C R) → A → Prop}
  {ts : List (Thread S K C R A)} {tid : ℕ}

section

variable (hd : Disciplined May Ends ts) (hth : ts[tid]? = some th) (hp : th.prog = .call c k)

include hd hth hp

lemma Disciplined.may : May th.call th.history c := by
  have h := hd tid th hth (Thread.inFlight_of_call hp)
  rw [hp] at h
  exact (meets_call h).1

lemma Disciplined.advance (t : Span S) (r : R c) :
    Obeys (May th.call) (Ends th.call) (k r) (th.history ++ [⟨t, c, r⟩]) := by
  have h := hd tid th hth (Thread.inFlight_of_call hp)
  rw [hp] at h
  exact (meets_call h).2 r _ ⟨t, rfl⟩

lemma Disciplined.ends {t : Span S} {r : R c} (hr : ¬ (th.advance t c k r).InFlight) :
    ∃ a, Ends th.call (th.history ++ [⟨t, c, r⟩]) a := by
  have h := hd.advance hth hp t r
  cases hk : k r with
  | ret a => rw [hk] at h; exact ⟨a, meets_ret h⟩
  | call =>
    have hf : (th.advance t c k r).InFlight := Thread.inFlight_of_call hk
    exact absurd hf hr

end

def Permitted (May : List (Event S C R) → C → Prop) (h : List (Event S C R)) : Prop :=
  ∀ h1 e h2, h = h1 ++ e :: h2 → May h1 e.cmd

lemma permitted_snoc {May : List (Event S C R) → C → Prop} {e : Event S C R} (hp : Permitted May h)
    (he : May h e.cmd) : Permitted May (h ++ [e]) := by
  intro h1 e' h2 heq
  obtain rfl | ⟨h3, x, rfl⟩ := eq_nil_or_concat h2
  · obtain ⟨rfl, hx⟩ := append_inj' heq rfl
    cases hx
    exact he
  · have hassoc : h ++ [e] = (h1 ++ e' :: h3) ++ [x] := by simpa using heq
    exact hp h1 e' h3 (append_inj' hassoc rfl).1

lemma permitted_order {May : List (Event S C R) → C → Prop} {e1 e2 : Event S C R} (hp : Permitted May h)
    (h1 : e1 ∈ h) (h2 : e2 ∈ h) : e1 = e2 ∨ (∃ l, e1 ∈ l ∧ May l e2.cmd) ∨ (∃ l, e2 ∈ l ∧ May l e1.cmd) := by
  obtain ⟨a, b, rfl⟩ := append_of_mem h1
  rw [mem_append, mem_cons] at h2
  obtain h2 | rfl | h2 := h2
  · exact .inr (.inr ⟨a, h2, hp a e1 b rfl⟩)
  · exact .inl rfl
  · obtain ⟨c, d, rfl⟩ := append_of_mem h2
    exact .inr (.inl ⟨a ++ e1 :: c, by simp, hp (a ++ e1 :: c) e2 d (by simp)⟩)

section

variable {β : Type} {note : K → Event S C R → Option β}

def observed (note : K → Event S C R → Option β) (ts : List (Thread S K C R A)) : List β :=
  ts.flatMap fun th => th.history.filterMap (note th.call)

lemma flatMap_set {α : Type} {f : α → List β} {xs : List α} {i : ℕ} {x x' : α} {l : List β} (hx : xs[i]? = some x)
    (hf : f x' = f x ++ l) : ((xs.set i x').flatMap f).Perm (xs.flatMap f ++ l) := by
  induction xs generalizing i with
  | nil => cases hx
  | cons y ys ih =>
    cases i with
    | zero =>
      cases hx
      rw [set_cons_zero, flatMap_cons, flatMap_cons, hf, append_assoc, append_assoc]
      exact perm_append_comm.append_left _
    | succ =>
      rw [set_cons_succ, flatMap_cons, flatMap_cons, append_assoc]
      exact (ih hx).append_left _

variable {th : Thread S K C R A} {p : Thread S K C R A → Bool}

lemma observed_advance {t : Span S} {c : C} {k : R c → Prog C R A} {r : R c} (hth : ts[tid]? = some th) :
    (observed note (ts.set tid (th.advance t c k r))).Perm (observed note ts ++ (note th.call ⟨t, c, r⟩).toList) := by
  apply flatMap_set hth
  cases h : note th.call ⟨t, c, r⟩ <;> simp [h]

lemma observed_stop {a : A} (hth : ts[tid]? = some th) :
    (observed note (ts.set tid (th.stop a))).Perm (observed note ts) := by
  have h : (observed note (ts.set tid (th.stop a))).Perm (observed note ts ++ []) := flatMap_set hth (by simp)
  rwa [append_nil] at h

lemma observed_arrive {call : K} {p : Prog C R A} : observed note (ts ++ [⟨call, [], p⟩]) = observed note ts := by
  simp [observed]

lemma countP_le_observed [DecidableEq β] {b : β}
    (h : ∀ th ∈ ts, p th = true → b ∈ th.history.filterMap (note th.call)) :
    ts.countP p ≤ (observed note ts).count b := by
  induction ts with
  | nil => exact Nat.le_refl _
  | cons th ts ih =>
    have htail := ih fun u hu => h u (mem_cons_of_mem _ hu)
    rw [observed, flatMap_cons, count_append, countP_cons]
    split_ifs with hp
    · have hpos := count_pos_iff.mpr (h th mem_cons_self hp)
      change _ ≤ _ + (observed note ts).count b
      omega
    · exact Nat.le_trans htail (Nat.le_add_left _ _)

lemma countP_eq_observed [DecidableEq β] {b : β}
    (h : ∀ th ∈ ts, (th.history.filterMap (note th.call)).count b = if p th then 1 else 0) :
    ts.countP p = (observed note ts).count b := by
  induction ts with
  | nil => rfl
  | cons th ts ih =>
    rw [observed, flatMap_cons, count_append, countP_cons, h th mem_cons_self,
      ih fun u hu => h u (mem_cons_of_mem _ hu)]
    exact Nat.add_comm _ _

end

end FleetingDns.ThreadPool
