import FleetingDns.Library.ServerPool
namespace FleetingDns.CommandPrograms

open ThreadPool List

variable {S O C α : Type} {R : C → Type}

/-- A run of a program to its result; the state may change between its commands. -/
inductive Runs (perform : S → (c : C) → O → Option (S × R c)) : Prog C R α → List (Event S C R) → α → Prop
  | ret {a : α} : Runs perform (.ret a) [] a
  | call {c : C} {k : R c → Prog C R α} {s s' : S} {r : R c} {o : O} {es : List (Event S C R)} {a : α} :
      perform s c o = some (s', r) → Runs perform (k r) es a → Runs perform (.call c k) (⟨⟨s, s'⟩, c, r⟩ :: es) a

def Performs (perform : S → (c : C) → O → Option (S × R c)) (h : List (Event S C R)) (c : C) (r : R c)
    (h' : List (Event S C R)) : Prop :=
  ∃ s s' o, perform s c o = some (s', r) ∧ h' = h ++ [⟨⟨s, s'⟩, c, r⟩]

variable {perform : S → (c : C) → O → Option (S × R c)} {P : List (Event S C R) → C → Prop}
  {Q : List (Event S C R) → α → Prop} {p : Prog C R α} {es h : List (Event S C R)} {a : α}

lemma runs_meets (hm : Meets (Performs perform) P Q p h) (hr : Runs perform p es a) : Q (h ++ es) a := by
  induction hr generalizing h with
  | ret =>
    rw [append_nil]
    exact meets_ret hm
  | @call c k s s' r o es a hp _ ih =>
    have hnext := (meets_call hm).2 r _ ⟨s, s', o, hp, rfl⟩
    simpa using ih hnext

lemma meets_performs (hm : Meets Logs P Q p h) : Meets (Performs perform) P Q p h := by
  induction hm with
  | ret hq => exact .ret hq
  | call hc _ ih =>
    refine .call hc ?_
    rintro r h' ⟨s, s', o, -, rfl⟩
    exact ih r _ ⟨⟨s, s'⟩, rfl⟩

lemma runs_permitted (hm : Meets Logs P Q p h) (hr : Runs perform p es a) :
    ∀ h1 e h2, es = h1 ++ e :: h2 → P (h ++ h1) e.cmd := by
  induction hr generalizing h with
  | ret =>
    intro h1 e h2 heq
    simp at heq
  | @call c k s s' r o es a hp _ ih =>
    intro h1 e h2 heq
    cases h1 with
    | nil =>
      rw [nil_append, List.cons.injEq] at heq
      rw [← heq.1, append_nil]
      exact (meets_call hm).1
    | cons e1 h1 =>
      rw [cons_append, List.cons.injEq] at heq
      have hnext := (meets_call hm).2 r _ ⟨⟨s, s'⟩, rfl⟩
      rw [← heq.1]
      simpa using ih hnext h1 e h2 heq.2

lemma runs_only {P : C → Prop} (hp : Only P p) (hr : Runs perform p es a) : ∀ e ∈ es, P e.cmd := by
  induction hr with
  | ret => simp
  | call _ _ ih =>
    cases hp with
    | call hc hk => exact forall_mem_cons.mpr ⟨hc, ih (hk _)⟩

lemma runs_performed (hr : Runs perform p es a) :
    ∀ e ∈ es, ∃ o, perform e.span.before e.cmd o = some (e.span.after, e.reply) := by
  induction hr with
  | ret => simp
  | call hp _ ih =>
    intro e he
    obtain rfl | he := mem_cons.mp he
    · exact ⟨_, hp⟩
    · exact ih e he

def drive (perform : S → (c : C) → O → Option (S × R c)) : List O → S → Prog C R α → Option (List (Event S C R) × α)
  | _, _, .ret a => some ([], a)
  | [], _, .call _ _ => none
  | o :: os, s, .call c k => match perform s c o with
    | none => none
    | some (s', r) => (drive perform os s' (k r)).map fun x => (⟨⟨s, s'⟩, c, r⟩ :: x.1, x.2)

lemma runs_of_drive {os : List O} {s : S} (h : drive perform os s p = some (es, a)) : Runs perform p es a := by
  induction os generalizing s p es with
  | nil =>
    cases p with
    | ret => cases h; exact .ret
    | call => cases h
  | cons o os ih =>
    obtain _ | ⟨c, k⟩ := p
    · cases h; exact .ret
    simp only [drive] at h
    split at h
    · cases h
    · rename_i s' r hp
      obtain ⟨x, hx, heq⟩ := Option.map_eq_some_iff.mp h
      cases heq
      exact .call hp (ih hx)

/-- A run from a state: the state drifts between the commands, and the run may be dropped before any of them. -/
inductive Attempt (perform : S → (c : C) → O → Option (S × R c)) (drift : S → S → Prop) :
    S → Prog C R α → List (Event S C R) → S → Option α → Prop
  | done {s : S} {a : α} : Attempt perform drift s (.ret a) [] s (some a)
  | dropped {s : S} {c : C} {k : R c → Prog C R α} : Attempt perform drift s (.call c k) [] s none
  | call {s s1 s2 s' : S} {c : C} {k : R c → Prog C R α} {o : O} {r : R c} {es : List (Event S C R)} {res : Option α} :
      drift s s1 → perform s1 c o = some (s2, r) → Attempt perform drift s2 (k r) es s' res →
      Attempt perform drift s (.call c k) (⟨⟨s1, s2⟩, c, r⟩ :: es) s' res

variable {s s' : S}

section

variable {β ε : Type} {drift : S → S → Prop} {res : Option α} {c : C} {k : R c → Prog C R α}
  {x : ExceptT ε (Prog C R) α}

lemma attempt_ret (h : Attempt perform drift s (.ret a) es s' res) : s' = s ∧ es = [] ∧ res = some a := by
  cases h
  exact ⟨rfl, rfl, rfl⟩

lemma attempt_call (h : Attempt perform drift s (.call c k) es s' res) : (s' = s ∧ es = [] ∧ res = none) ∨
      ∃ s1 s2 o r es', drift s s1 ∧ perform s1 c o = some (s2, r) ∧ Attempt perform drift s2 (k r) es' s' res ∧
        es = ⟨⟨s1, s2⟩, c, r⟩ :: es' := by
  cases h with
  | dropped => exact .inl ⟨rfl, rfl, rfl⟩
  | call hd hp hk => exact .inr ⟨_, _, _, _, _, hd, hp, hk, rfl⟩

lemma attempt_bind {f : α → Prog C R β} {res : Option β} (h : Attempt perform drift s (p >>= f) es s' res) :
    (∃ a s1 es1 es2, Attempt perform drift s p es1 s1 (some a) ∧ Attempt perform drift s1 (f a) es2 s' res ∧
      es = es1 ++ es2) ∨ (res = none ∧ Attempt perform drift s p es s' none) := by
  induction p generalizing s es with
  | ret a => exact .inl ⟨a, s, [], es, .done, h, rfl⟩
  | call c k ih =>
    obtain ⟨rfl, rfl, rfl⟩ | ⟨s1, s2, o, r, es', hd, hp, hk, rfl⟩ := attempt_call h
    · exact .inr ⟨rfl, .dropped⟩
    · obtain ⟨a, s3, es1, es2, h1, h2, rfl⟩ | ⟨rfl, h1⟩ := ih r hk
      · exact .inl ⟨a, s3, _, es2, .call hd hp h1, h2, rfl⟩
      · exact .inr ⟨rfl, .call hd hp h1⟩

lemma attempt_seq {f : α → ExceptT ε (Prog C R) β} {b : β}
    (h : Attempt perform drift s (x >>= f).run es s' (some (.ok b))) :
    ∃ a s1 es1 es2, Attempt perform drift s x.run es1 s1 (some (.ok a)) ∧
      Attempt perform drift s1 (f a).run es2 s' (some (.ok b)) ∧ es = es1 ++ es2 := by
  obtain ⟨r, s1, es1, es2, h1, h2, rfl⟩ | ⟨hn, -⟩ := attempt_bind h
  · cases r with
    | ok a => exact ⟨a, s1, es1, es2, h1, h2, rfl⟩
    | error => cases (attempt_ret h2).2.2
  · cases hn

lemma attempt_issue {r : R c} (h : Attempt perform drift s (Prog.issue c) es s' (some r)) :
    ∃ s1 o, drift s s1 ∧ perform s1 c o = some (s', r) ∧ es = [⟨⟨s1, s'⟩, c, r⟩] := by
  obtain ⟨-, -, hn⟩ | ⟨s1, s2, o, r', es', hd, hp, hk, rfl⟩ := attempt_call h
  · cases hn
  · obtain ⟨rfl, rfl, hr⟩ := attempt_ret hk
    cases hr
    exact ⟨s1, o, hd, hp, rfl⟩

lemma attempt_lift (h : Attempt perform drift s (ExceptT.lift (ε := ε) p).run es s' (some (.ok a))) :
    Attempt perform drift s p es s' (some a) := by
  obtain ⟨b, s1, es1, es2, h1, h2, rfl⟩ | ⟨hn, -⟩ := attempt_bind h
  · obtain ⟨rfl, rfl, hr⟩ := attempt_ret h2
    cases hr
    rwa [append_nil]
  · cases hn

lemma attempt_only {P : C → Prop} (hp : Only P p) (h : Attempt perform drift s p es s' res) : ∀ e ∈ es, P e.cmd := by
  induction h with
  | done | dropped => simp
  | call _ _ _ ih =>
    cases hp with
    | call hc hk =>
      intro e he
      obtain rfl | he := mem_cons.mp he
      · exact hc
      · exact ih (hk _) e he

lemma attempt_runs (h : Attempt perform drift s p es s' res) (hres : res = some a) : Runs perform p es a := by
  induction h with
  | done => cases hres; exact .ret
  | dropped => cases hres
  | call _ hp _ ih => exact .call hp (ih hres)

lemma attempt_invariant {I : S → Prop} (hdrift : ∀ s s', drift s s' → I s → I s')
    (hperform : ∀ s c o s' r, perform s c o = some (s', r) → I s → I s') (h : Attempt perform drift s p es s' res)
    (hs : I s) : I s' := by
  induction h with
  | done | dropped => exact hs
  | call hd hp _ ih =>
    apply ih
    apply hperform _ _ _ _ _ hp
    exact hdrift _ _ hd hs

lemma attempt_mono {drift' : S → S → Prop} (hd : ∀ s s', drift s s' → drift' s s')
    (h : Attempt perform drift s p es s' res) : Attempt perform drift' s p es s' res := by
  induction h with
  | done => exact .done
  | dropped => exact .dropped
  | call hdrift hp _ ih => exact .call (hd _ _ hdrift) hp ih

lemma attempt_guarded {G : Event S C R → Prop} {P : S → C → Prop} {Q : S → α → Prop}
    (h : Attempt perform drift s p es s' res) (hG : ∀ e ∈ es, G e) (hres : res = some a)
    (hm : Meets (fun s c r s' => ∃ s1 o, drift s s1 ∧ perform s1 c o = some (s', r) ∧ G ⟨⟨s1, s'⟩, c, r⟩) P Q p s) :
    Q s' a := by
  induction h with
  | done =>
    cases hres
    exact meets_ret hm
  | dropped => cases hres
  | call hd hp _ ih =>
    rw [forall_mem_cons] at hG
    exact ih hG.2 hres ((meets_call hm).2 _ _ ⟨_, _, hd, hp, hG.1⟩)

lemma attempt_exists (htotal : ∀ s c, ∃ o s' r, perform s c o = some (s', r)) (p : Prog C R α) (s : S) :
    ∃ es s' a, Attempt perform Eq s p es s' (some a) := by
  induction p generalizing s with
  | ret a => exact ⟨[], s, a, .done⟩
  | call c k ih =>
    obtain ⟨o, s1, r, hp⟩ := htotal s c
    obtain ⟨es, s', a, h⟩ := ih r s1
    exact ⟨_, s', a, .call rfl hp h⟩

def Follows (perform : S → (c : C) → O → Option (S × R c)) (h : S × List (Event S C R)) (c : C) (r : R c)
    (h' : S × List (Event S C R)) : Prop :=
  ∃ o s', perform h.1 c o = some (s', r) ∧ h' = (s', h.2 ++ [⟨⟨h.1, s'⟩, c, r⟩])

lemma attempt_meets {P : S × List (Event S C R) → C → Prop} {Q : S × List (Event S C R) → α → Prop}
    {h : List (Event S C R)} (ha : Attempt perform Eq s p es s' res) (hm : Meets (Follows perform) P Q p (s, h)) :
    (∀ a, res = some a → Q (s', h ++ es) a) ∧ (res = none → ∃ c, P (s', h ++ es) c) := by
  induction ha generalizing h with
  | done =>
    refine ⟨?_, by rintro ⟨⟩⟩
    rintro a ⟨⟩
    rw [append_nil]
    exact meets_ret hm
  | dropped =>
    refine ⟨by rintro a ⟨⟩, fun _ => ?_⟩
    rw [append_nil]
    exact ⟨_, (meets_call hm).1⟩
  | call hd hp _ ih =>
    subst hd
    have hnext := (meets_call hm).2 _ _ ⟨_, _, hp, rfl⟩
    simpa using ih hnext

lemma attempt_expand_seq {D : Type} {T : D → Type} {perform : S → (c : D) → O → Option (S × T c)}
    {es : List (Event S D T)} {f : (c : C) → Prog D T (R c)} {g : α → ExceptT ε (Prog C R) β}
    {res : Option (Except ε β)} (h : Attempt perform drift s ((x >>= g).run.expand f) es s' res) :
    (∃ a s1 es1 es2, Attempt perform drift s (x.run.expand f) es1 s1 (some (.ok a)) ∧
      Attempt perform drift s1 ((g a).run.expand f) es2 s' res ∧ es = es1 ++ es2) ∨
    (∃ e, res = some (.error e) ∧ Attempt perform drift s (x.run.expand f) es s' (some (.error e))) ∨
    (res = none ∧ Attempt perform drift s (x.run.expand f) es s' none) := by
  rw [Prog.expand_seq] at h
  obtain ⟨r, s1, es1, es2, h1, h2, rfl⟩ | ⟨hn, h1⟩ := attempt_bind h
  · cases r with
    | ok a => exact .inl ⟨a, s1, es1, es2, h1, h2, rfl⟩
    | error e =>
      obtain ⟨rfl, rfl, rfl⟩ := attempt_ret h2
      exact .inr (.inl ⟨e, rfl, by rwa [append_nil]⟩)
  · exact .inr (.inr ⟨hn, h1⟩)

def conduct (perform : S → (c : C) → O → Option (S × R c)) :
    List O → S → Prog C R α → Option (List (Event S C R) × S × Option α)
  | _, s, .ret a => some ([], s, some a)
  | [], s, .call _ _ => some ([], s, none)
  | o :: os, s, .call c k => match perform s c o with
    | none => none
    | some (s', r) => (conduct perform os s' (k r)).map fun x => (⟨⟨s, s'⟩, c, r⟩ :: x.1, x.2)

lemma attempt_of_conduct (hd : ∀ s, drift s s) {os : List O} (h : conduct perform os s p = some (es, s', res)) :
    Attempt perform drift s p es s' res := by
  induction os generalizing s p es with
  | nil => cases p <;> cases h <;> constructor
  | cons o os ih =>
    obtain _ | ⟨c, k⟩ := p
    · cases h; exact .done
    simp only [conduct] at h
    split at h
    · cases h
    · rename_i s1 r hp
      obtain ⟨⟨es', t, res'⟩, hx, heq⟩ := Option.map_eq_some_iff.mp h
      cases heq
      exact .call (hd s) hp (ih hx)

lemma conduct_call {o : O} {r : R c} (h : perform s c o = some (s', r)) (os : List O) :
    (conduct perform (o :: os) s (.call c k)).bind (·.2.2) = (conduct perform os s' (k r)).bind (·.2.2) := by
  rw [conduct, h]
  exact Option.bind_map ..

end

section

open ServerPool GuardedRuns

variable {K A E : Type}

lemma reach_of_attempt (svc : Service S K C R A O E) {p : Prog C R A} {res : Option A} {a : A}
    (h : Attempt svc.perform Eq s p es s' res) (hres : res = some a) (ts : List (Thread S K C R A)) (call : K)
    (history : List (Event S C R)) :
    Reach (step svc) Free ⟨s, ts ++ [⟨call, history, p⟩]⟩ ⟨s', ts ++ [⟨call, history ++ es, .ret a⟩]⟩ := by
  induction h generalizing history with
  | done =>
    cases hres
    rw [append_nil]
    exact .refl
  | dropped => cases hres
  | @call s s1 s2 s' c k o r es res hd hp _ ih =>
    subst hd
    have hth : (ts ++ [⟨call, history, .call c k⟩])[ts.length]? = some ⟨call, history, .call c k⟩ := by
      simp
    have hstep : step svc ⟨s, ts ++ [⟨call, history, .call c k⟩]⟩ (.exec ts.length o) = _ := step_exec hth rfl hp
    have hset : (ts ++ [(⟨call, history, .call c k⟩ : Thread S K C R A)]).set ts.length
        (Thread.advance ⟨call, history, .call c k⟩ ⟨s, s2⟩ c k r) =
          ts ++ [⟨call, history ++ [⟨⟨s, s2⟩, c, r⟩], k r⟩] := by
      rw [set_append_right _ _ Nat.le.refl, Nat.sub_self]
      rfl
    rw [hset] at hstep
    have hrest := ih hres (history ++ [⟨⟨s, s2⟩, c, r⟩])
    rw [append_assoc] at hrest
    exact (Reach.refl.tail trivial hstep).trans hrest

end

end FleetingDns.CommandPrograms
