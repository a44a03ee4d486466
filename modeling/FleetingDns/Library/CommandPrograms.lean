import Mathlib.Data.List.Basic

namespace FleetingDns.CommandPrograms

/-- A program issues one command at a time and resumes with the reply. -/
inductive Prog (C : Type) (R : C → Type) (α : Type) where
  | ret (a : α)
  | call (c : C) (k : R c → Prog C R α)

structure Span (S : Type) where
  (before after : S)

structure Event (S C : Type) (R : C → Type) where
  span : Span S
  cmd : C
  reply : R cmd

variable {C : Type} {R : C → Type} {α β ε H : Type}

lemma mem_snoc {xs : List α} {x y : α} : y ∈ xs ++ [x] ↔ y ∈ xs ∨ y = x := by rw [List.mem_append, List.mem_singleton]

namespace Prog

def bind : Prog C R α → (α → Prog C R β) → Prog C R β
  | ret a, f => f a
  | call c k, f => call c (fun r => (k r).bind f)

instance : Monad (Prog C R) where
  pure := ret
  bind := bind

def issue (c : C) : Prog C R (R c) := call c ret

def next : Prog C R α → Option C
  | ret _ => none
  | call c _ => some c

lemma next_isSome {p : Prog C R α} {c : C} {k : R c → Prog C R α} (h : p = .call c k) :
    p.next = some c := by rw [h]; rfl

def answer (f : (c : C) → Option (R c)) : Prog C R α → Option α
  | ret a => some a
  | call c k => (f c).bind fun r => (k r).answer f

lemma answer_bind (f : (c : C) → Option (R c)) (p : Prog C R α) (g : α → Prog C R β) :
    (p >>= g).answer f = (p.answer f).bind fun a => (g a).answer f := by
  induction p with
  | ret => rfl
  | call c k ih =>
    change (f c).bind (fun r => (k r >>= g).answer f) = ((f c).bind fun r => (k r).answer f).bind _
    rw [Option.bind_assoc]
    congr 1
    funext r
    exact ih r

lemma answer_issue_bind (f : (c : C) → Option (R c)) {c : C} {r : R c} (h : f c = some r) (g : R c → Prog C R β) :
    (issue c >>= g).answer f = (g r).answer f := by
  rw [answer_bind, issue, answer, h]
  rfl

def expand {D : Type} {T : D → Type} (f : (c : C) → Prog D T (R c)) : Prog C R α → Prog D T α
  | ret a => ret a
  | call c k => (f c).bind fun r => (k r).expand f

section

variable {D : Type} {T : D → Type} (f : (c : C) → Prog D T (R c))

lemma bind_assoc {γ : Type} (p : Prog C R α) (g : α → Prog C R β) (h : β → Prog C R γ) :
    (p.bind g).bind h = p.bind fun a => (g a).bind h := by
  induction p with
  | ret => rfl
  | call c k ih =>
    change Prog.call c (fun r => ((k r).bind g).bind h) = .call c fun r => (k r).bind fun a => (g a).bind h
    congr 1
    funext r
    exact ih r

lemma expand_bind (p : Prog C R α) (g : α → Prog C R β) :
    (p >>= g).expand f = p.expand f >>= fun a => (g a).expand f := by
  induction p with
  | ret => rfl
  | call c k ih =>
    change (f c).bind (fun r => (k r >>= g).expand f) = ((f c).bind fun r => (k r).expand f).bind _
    rw [bind_assoc]
    congr 1
    funext r
    exact ih r

lemma expand_seq (x : ExceptT ε (Prog C R) α) (g : α → ExceptT ε (Prog C R) β) :
    (x >>= g).run.expand f = x.run.expand f >>= fun r => (ExceptT.bindCont g r).expand f :=
  expand_bind f x.run _

end

end Prog

/-- Every command is permitted by the history at that point, whatever the replies admitted so far. -/
inductive Meets (adm : H → (c : C) → R c → H → Prop) (P : H → C → Prop) (Q : H → α → Prop) :
    Prog C R α → H → Prop
  | ret {a : α} {h : H} : Q h a → Meets adm P Q (.ret a) h
  | call {c : C} {k : R c → Prog C R α} {h : H} : P h c → (∀ r h', adm h c r h' → Meets adm P Q (k r) h') →
      Meets adm P Q (.call c k) h

section

variable {adm : H → (c : C) → R c → H → Prop} {P P' : H → C → Prop}
    {Q Q' : H → α → Prop} {a : α} {h : H} {c : C} {p : Prog C R α} {f : α → Prog C R β}
    {M : H → Except ε α → Prop} {x : ExceptT ε (Prog C R) α}

lemma meets_ret (hm : Meets adm P Q (.ret a) h) : Q h a := by
  cases hm with
  | ret hq => exact hq

lemma meets_call {k : R c → Prog C R α} (hm : Meets adm P Q (.call c k) h) :
    P h c ∧ ∀ r h', adm h c r h' → Meets adm P Q (k r) h' := by
  cases hm with
  | call hc hk => exact ⟨hc, hk⟩

lemma meets_pure (hq : Q h a) : Meets adm P Q (pure a : Prog C R α) h := .ret hq

lemma meets_mono (hP : ∀ h c, P h c → P' h c) (hQ : ∀ h a, Q h a → Q' h a) (hp : Meets adm P Q p h) :
    Meets adm P' Q' p h := by
  induction hp with
  | ret hq => exact .ret (hQ _ _ hq)
  | call hc _ ih => exact .call (hP _ _ hc) ih

lemma meets_bind {Q : H → β → Prop} (hp : Meets adm P (fun h' a => Meets adm P Q (f a) h') p h) :
    Meets adm P Q (p >>= f) h := by
  induction hp with
  | ret hq => exact hq
  | call hc _ ih => exact .call hc ih

lemma meets_seq {Q : H → β → Prop} {M : H → α → Prop} (hp : Meets adm P M p h)
    (hf : ∀ h' a, M h' a → Meets adm P Q (f a) h') : Meets adm P Q (p >>= f) h :=
  meets_bind (meets_mono (fun _ _ hc => hc) hf hp)

lemma meets_except_pure {Q : H → Except ε α → Prop} (hq : Q h (.ok a)) :
    Meets adm P Q (pure a : ExceptT ε (Prog C R) α).run h := .ret hq

lemma meets_throw {Q : H → Except ε α → Prop} {e : ε} (hq : Q h (.error e)) :
    Meets adm P Q (throw e : ExceptT ε (Prog C R) α).run h := .ret hq

lemma meets_except_seq {Q : H → Except ε β → Prop} {f : α → ExceptT ε (Prog C R) β} (hx : Meets adm P M x.run h)
    (hok : ∀ h' a, M h' (.ok a) → Meets adm P Q (f a).run h') (herror : ∀ h' e, M h' (.error e) → Q h' (.error e)) :
    Meets adm P Q (x >>= f).run h := by
  refine meets_seq hx ?_
  intro h' r hr
  cases r with
  | ok a => exact hok h' a hr
  | error e => exact .ret (herror h' e hr)

lemma meets_expand_seq {D : Type} {T : D → Type} {adm : H → (c : D) → T c → H → Prop} {P : H → D → Prop}
    {f : (c : C) → Prog D T (R c)} {Q : H → Except ε β → Prop} {g : α → ExceptT ε (Prog C R) β}
    (hx : Meets adm P M (x.run.expand f) h) (hok : ∀ h' a, M h' (.ok a) → Meets adm P Q ((g a).run.expand f) h')
    (herror : ∀ h' e, M h' (.error e) → Q h' (.error e)) : Meets adm P Q ((x >>= g).run.expand f) h := by
  rw [Prog.expand_seq]
  refine meets_seq hx ?_
  intro h' r hr
  cases r with
  | ok a => exact hok h' a hr
  | error e => exact .ret (herror h' e hr)

lemma meets_and (hp : Meets adm P Q p h) (hp' : Meets adm P' Q' p h) :
    Meets adm P (fun h a => Q h a ∧ Q' h a) p h := by
  induction hp with
  | ret hq => exact .ret ⟨hq, meets_ret hp'⟩
  | call hc _ ih => exact .call hc fun r h' ha => ih r h' ha ((meets_call hp').2 r h' ha)

lemma meets_lift {Q : H → Except ε α → Prop} (hp : Meets adm P (fun h' a => Q h' (.ok a)) p h) :
    Meets adm P Q (ExceptT.lift p).run h :=
  meets_seq hp (fun _ _ ha => .ret ha)

lemma meets_issue {Q : H → β → Prop} {f : R c → Prog C R β} (hc : P h c)
    (hf : ∀ r h', adm h c r h' → Meets adm P Q (f r) h') : Meets adm P Q (Prog.issue c >>= f) h := .call hc hf

lemma meets_lift_issue {Q : H → Except ε β → Prop} {f : R c → ExceptT ε (Prog C R) β} (hc : P h c)
    (hf : ∀ r h', adm h c r h' → Meets adm P Q (f r).run h') :
    Meets adm P Q (ExceptT.lift (Prog.issue c) >>= f).run h := .call hc hf

lemma meets_invariant {I : H → Prop} (hI : ∀ h c r h', adm h c r h' → I h → I h') (p : Prog C R α) (h0 : I h) :
    Meets adm (fun _ _ => True) (fun h _ => I h) p h := by
  induction p generalizing h with
  | ret => exact .ret h0
  | call c k ih => exact .call trivial (fun r h' ha => ih r (hI h c r h' ha h0))

lemma meets_expand {H' D : Type} {T : D → Type} {adm' : H' → (c : D) → T c → H' → Prop} {P' : H' → D → Prop}
    {K : H → H' → Prop} {f : (c : C) → Prog D T (R c)}
    (hf : ∀ h h' c, K h h' → P h c → Meets adm' P' (fun h'' r => ∃ h1, adm h c r h1 ∧ K h1 h'') (f c) h') {h' : H'}
    (hp : Meets adm P Q p h) (hK : K h h') :
    Meets adm' P' (fun h'' a => ∃ h1, K h1 h'' ∧ Q h1 a) (p.expand f) h' := by
  induction hp generalizing h' with
  | ret hq => exact .ret ⟨_, hK, hq⟩
  | call hc _ ih =>
    refine meets_seq (hf _ _ _ hK hc) ?_
    rintro h'' r ⟨h1, hadm, hK'⟩
    exact ih r h1 hadm hK'

lemma meets_any (hP : ∀ h c, P h c) (hQ : ∀ h a, Q h a) (p : Prog C R α) (h : H) : Meets adm P Q p h := by
  induction p generalizing h with
  | ret a => exact .ret (hQ h a)
  | call c k ih => exact .call (hP h c) (fun r h' _ => ih r h')

end

/-- Whatever the replies, the program issues commands of one kind only. -/
inductive Only (P : C → Prop) : Prog C R α → Prop
  | ret {a : α} : Only P (.ret a)
  | call {c : C} {k : R c → Prog C R α} : P c → (∀ r, Only P (k r)) → Only P (.call c k)

inductive Prog.MayIssue (c : C) : Prog C R α → Prop
  | now {k : R c → Prog C R α} : MayIssue c (.call c k)
  | later {c' : C} {k : R c' → Prog C R α} (r : R c') : MayIssue c (k r) → MayIssue c (.call c' k)

section

variable {P : C → Prop} {p : Prog C R α}

lemma only_mayIssue {c : C} (hp : Only P p) (h : p.MayIssue c) : P c := by
  induction hp with
  | ret => cases h
  | call hc _ ih =>
    cases h with
    | now => exact hc
    | later r h => exact ih r h

lemma only_bind {f : α → Prog C R β} (hp : Only P p) (hf : ∀ a, Only P (f a)) : Only P (p >>= f) := by
  induction hp with
  | ret => exact hf _
  | call hc _ ih => exact .call hc ih

lemma only_seq {x : ExceptT ε (Prog C R) α} {f : α → ExceptT ε (Prog C R) β} (hx : Only P x.run)
    (hf : ∀ a, Only P (f a).run) : Only P (x >>= f).run := by
  refine only_bind hx ?_
  intro r
  cases r with
  | ok a => exact hf a
  | error => exact .ret

lemma only_lift (hp : Only P p) : Only P (ExceptT.lift (ε := ε) p).run :=
  only_bind hp (fun _ => .ret)

lemma only_issue {c : C} (hc : P c) : Only (R := R) P (Prog.issue c) := .call hc (fun _ => .ret)

lemma only_mono {P' : C → Prop} (hP : ∀ c, P c → P' c) (hp : Only P p) : Only P' p := by
  induction hp with
  | ret => exact .ret
  | call hc _ ih => exact .call (hP _ hc) ih

lemma only_any (hP : ∀ c, P c) (p : Prog C R α) : Only P p := by
  induction p with
  | ret => exact .ret
  | call c k ih => exact .call (hP c) ih

lemma only_expand {D : Type} {T : D → Type} {P' : D → Prop} {f : (c : C) → Prog D T (R c)}
    (hf : ∀ c, P c → Only P' (f c)) (hp : Only P p) : Only P' (p.expand f) := by
  induction hp with
  | ret => exact .ret
  | call hc _ ih => exact only_bind (hf _ hc) ih

lemma meets_of_only {adm : H → (c : C) → R c → H → Prop} {P' : H → C → Prop} (hP : ∀ h c, P c → P' h c)
    (hp : Only P p) (h : H) : Meets adm P' (fun _ _ => True) p h := by
  induction hp generalizing h with
  | ret => exact .ret trivial
  | call hc _ ih => exact .call (hP h _ hc) (fun r h' _ => ih r h')

end

/-- As long as every reply is a good one, the program ends with a result of the kind. -/
inductive Yields (good : (c : C) → R c → Prop) (Q : α → Prop) : Prog C R α → Prop
  | ret {a : α} : Q a → Yields good Q (.ret a)
  | call {c : C} {k : R c → Prog C R α} : (∀ r, good c r → Yields good Q (k r)) → Yields good Q (.call c k)

abbrev Succeeds (good : (c : C) → R c → Prop) (M : α → Prop) (x : ExceptT ε (Prog C R) α) : Prop :=
  Yields good (fun r => ∃ a, r = .ok a ∧ M a) x.run

section

variable {good : (c : C) → R c → Prop} {M : α → Prop} {Q : β → Prop} {p : Prog C R α}

lemma yields_bind {f : α → Prog C R β} (hp : Yields good M p) (hf : ∀ a, M a → Yields good Q (f a)) :
    Yields good Q (p >>= f) := by
  induction hp with
  | ret ha => exact hf _ ha
  | call _ ih => exact .call ih

lemma yields_issue (c : C) : Yields (R := R) good (good c) (Prog.issue c) := .call fun _ hr => .ret hr

lemma succeeds_pure {a : α} (ha : M a) : Succeeds good M (pure a : ExceptT ε (Prog C R) α) := .ret ⟨a, rfl, ha⟩

lemma succeeds_seq {x : ExceptT ε (Prog C R) α} {f : α → ExceptT ε (Prog C R) β} (hx : Succeeds good M x)
    (hf : ∀ a, M a → Succeeds good Q (f a)) : Succeeds good Q (x >>= f) := by
  refine yields_bind hx ?_
  rintro _ ⟨a, rfl, ha⟩
  exact hf a ha

lemma succeeds_lift (hp : Yields good M p) : Succeeds (ε := ε) good M (ExceptT.lift p) :=
  yields_bind hp fun a ha => .ret ⟨a, rfl, ha⟩

lemma yields_expand {D : Type} {T : D → Type} {P : C → Prop} {good' : (c : D) → T c → Prop}
    {f : (c : C) → Prog D T (R c)} (hf : ∀ c, P c → Yields good' (good c) (f c)) (hp : Only P p)
    (hy : Yields good M p) : Yields good' M (p.expand f) := by
  induction hp with
  | ret =>
    cases hy with
    | ret ha => exact .ret ha
  | call hc _ ih =>
    cases hy with
    | call hk => exact yields_bind (hf _ hc) fun r hr => ih r (hk r hr)

end

end FleetingDns.CommandPrograms
