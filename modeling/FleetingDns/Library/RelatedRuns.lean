import FleetingDns.Library.ServerPool

namespace FleetingDns.RelatedRuns

open CommandPrograms ThreadPool ServerPool GuardedRuns

/-- Which commands, and which replies to them, may stand for one another in two runs. -/
structure Likeness (C : Type) (R : C → Type) where
  twin : C → C → Prop
  alike : (c : C) → R c → (c' : C) → R c' → Prop

variable {S C α β γ δ ε : Type} {R : C → Type}

/-- The program ends with the result whenever each reply is alike the one recorded at its place. -/
inductive Settles (L : Likeness C R) : Prog C R α → List (Event S C R) → α → Prop
  | ret {a : α} : Settles L (.ret a) [] a
  | call {e : Event S C R} {h : List (Event S C R)} {c : C} {k : R c → Prog C R α} {a : α} :
      L.twin e.cmd c → (∀ r, L.alike e.cmd e.reply c r → Settles L (k r) h a) → Settles L (.call c k) (e :: h) a

inductive Leads : Prog C R α → List (Event S C R) → Prog C R α → Prop
  | refl {p : Prog C R α} : Leads p [] p
  | call {e : Event S C R} {h : List (Event S C R)} {k : R e.cmd → Prog C R α} {q : Prog C R α} :
      Leads (k e.reply) h q → Leads (.call e.cmd k) (e :: h) q

variable {h : List (Event S C R)}

lemma leads_snoc {p : Prog C R α} {c : C} {k : R c → Prog C R α} (t : Span S) (r : R c) (hl : Leads p h (.call c k)) :
    Leads p (h ++ [⟨t, c, r⟩]) (k r) := by
  generalize hq : Prog.call c k = q at hl
  induction hl with
  | refl =>
    subst hq
    exact Leads.call (e := ⟨t, c, r⟩) .refl
  | call _ ih => exact .call (ih hq)

lemma meets_leads {p0 p : Prog C R α} (hl : Leads p0 h p) :
    Meets Logs (fun _ _ => True) (fun h a => Leads p0 h (.ret a)) p h := by
  induction p generalizing h with
  | ret => exact .ret hl
  | call c k ih =>
    refine .call trivial ?_
    rintro r h' ⟨t, rfl⟩
    exact ih r (leads_snoc t r hl)

lemma reach_leads {K A O E : Type} {svc : Service S K C R A O E} {G : Pool S K C R A → Act K O E → Prop}
    {w : Pool S K C R A} {s : S} (h : Reach (step svc) G ⟨s, []⟩ w) {tid : ℕ} {th : Thread S K C R A} {x : A}
    (hth : w.threads[tid]? = some th) (hp : th.prog = .ret x) :
    x = svc.stopped ∨ Leads (svc.program th.call) th.history (.ret x) := by
  have hk : Keeps (fun _ _ _ => True) (fun call h x => x = svc.stopped ∨ Leads (svc.program call) h (.ret x))
      w.threads := by
    refine reach_keeps ?_ ?_ h
    · intro call
      exact meets_mono (fun _ _ hc => hc) (fun _ _ => .inr) (meets_leads .refl)
    · intro call h
      exact .inl rfl
  exact hk.ends hth hp

/-- Two programs that issue twin commands and, on alike replies, end in related results. -/
inductive Couples (L : Likeness C R) (good : (c : C) → R c → Prop) (Q : α → β → Prop) : Prog C R α → Prog C R β → Prop
  | ret {a : α} {b : β} : Q a b → Couples L good Q (.ret a) (.ret b)
  | call {c c' : C} {k : R c → Prog C R α} {k' : R c' → Prog C R β} : L.twin c c' →
      (∀ r r', good c r → L.alike c r c' r' → Couples L good Q (k r) (k' r')) → Couples L good Q (.call c k) (.call c' k')

section

variable {L : Likeness C R} {good : (c : C) → R c → Prop}
    {p : Prog C R α} {q : Prog C R β} {Q : γ → δ → Prop} {M : α → β → Prop}

lemma couples_mono {Q Q' : α → β → Prop} (hQ : ∀ a b, Q a b → Q' a b) (hc : Couples L good Q p q) :
    Couples L good Q' p q := by
  induction hc with
  | ret hq => exact .ret (hQ _ _ hq)
  | call ht _ ih => exact .call ht ih

lemma couples_seq {f : α → Prog C R γ} {g : β → Prog C R δ} (hp : Couples L good M p q)
    (hf : ∀ a b, M a b → Couples L good Q (f a) (g b)) : Couples L good Q (p >>= f) (q >>= g) := by
  induction hp with
  | ret hq => exact hf _ _ hq
  | call ht _ ih => exact .call ht ih

def Steady (L : Likeness C R) (good : (c : C) → R c → Prop) (c : C) : Prop :=
  L.twin c c ∧ ∀ r r', good c r → L.alike c r c r' → r = r'

lemma couples_only (hp : Only (Steady L good) p) : Couples L good (· = ·) p p := by
  induction hp with
  | ret => exact .ret rfl
  | call hc _ ih =>
    refine .call hc.1 ?_
    intro r r' hg ha
    obtain rfl := hc.2 r r' hg ha
    exact ih r

abbrev Same (M : α → β → Prop) : Except ε α → Except ε β → Prop
  | .ok a, .ok b => M a b
  | .error e, .error e' => e = e'
  | _, _ => False

lemma couples_except_seq {x : ExceptT ε (Prog C R) α} {y : ExceptT ε (Prog C R) β} {f : α → ExceptT ε (Prog C R) γ}
    {g : β → ExceptT ε (Prog C R) δ} (hx : Couples L good (Same M) x.run y.run)
    (hf : ∀ a b, M a b → Couples L good (Same Q) (f a).run (g b).run) :
    Couples L good (Same Q) (x >>= f).run (y >>= g).run := by
  refine couples_seq hx ?_
  intro r r' hr
  cases r with
  | ok a => cases r' with
    | ok b => exact hf a b hr
    | error => cases hr
  | error => cases r' with
    | ok => cases hr
    | error => exact .ret hr

lemma same_refl (r : Except ε α) : Same (· = ·) r r := by
  cases r <;> rfl

lemma eq_of_same {r r' : Except ε α} (h : Same (· = ·) r r') : r = r' := by
  cases r <;> cases r' <;> cases h <;> rfl

lemma settles_of_couples {h : List (Event S C R)} {q : Prog C R α} {a : α} (hc : Couples L good (· = ·) p q)
    (hl : Leads p h (.ret a)) (hg : ∀ e ∈ h, good e.cmd e.reply) : Settles L q h a := by
  generalize hend : Prog.ret a = r at hl
  induction hl generalizing q with
  | refl =>
    subst hend
    cases hc with
    | ret heq =>
      subst heq
      exact .ret
  | @call e h k r _ ih =>
    cases hc with
    | call ht hk =>
      refine .call ht ?_
      intro r' ha
      refine ih (hk e.reply r' (hg e List.mem_cons_self) ha) ?_ hend
      intro e' he'
      exact hg e' (List.mem_cons_of_mem _ he')

end

end FleetingDns.RelatedRuns
