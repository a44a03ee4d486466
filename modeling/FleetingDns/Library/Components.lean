import FleetingDns.Library.ServerPool
namespace FleetingDns.Components

open CommandPrograms ThreadPool ServerPool GuardedRuns Prog List Option Reach

variable {S K C A O E S' K' D A' O' E' : Type} {R : C → Type} {T : D → Type}

def Answered (svc : Service S K C R A O E) (calls : K → Prop) (ok : (c : C) → R c → Prop) (w : Pool S K C R A) :
    Act K O E → Prop
  | .arrive k => calls k
  | .exec tid o => ∀ th c s r, Issues w tid th c → svc.perform w.shared c o = some (s, r) → ok c r
  | _ => True

/-- A server that has another as a part: where its state holds the other's, and which of its commands are the other's. -/
structure Embedding (inner : Service S K C R A O E) (outer : Service S' K' D T A' O' E') where
  state : S' → S
  cmd : C → D
  reply : (c : C) → T (cmd c) → R c
  own : D → Prop
  made : K → Prop
  cmd_inj : ∀ {c c'}, cmd c = cmd c' → c = c'
  own_cmd : ∀ c, ¬ own (cmd c)
  accepts : ∀ {k}, made k → ∀ s, inner.accept s k = some s
  performed : ∀ {s s' c o r}, outer.perform s (cmd c) o = some (s', r) →
    ∃ o', inner.perform (state s) c o' = some (state s', reply c r)
  kept : ∀ {s s' d o r}, own d → outer.perform s d o = some (s', r) → state s' = state s
  accepted : ∀ {s s' k}, outer.accept s k = some s' → state s' = state s
  drifted : ∀ {s s' e}, outer.drift s e = some s' → state s' = state s ∨ ∃ e', inner.drift (state s) e' = some (state s')
  restarted : ∀ {s s'}, outer.restart s = some s' → inner.restart (state s) = some (state s')

variable {inner : Service S K C R A O E} {outer : Service S' K' D T A' O' E'} (emb : Embedding inner outer)

def Embedding.issue (c : C) : Prog D T (R c) := .call (emb.cmd c) fun r => .ret (emb.reply c r)

/-- Apart from its own commands, the program makes whole calls of the part. -/
inductive Calls {α : Type} : Prog D T α → Prop
  | ret {a : α} : Calls (.ret a)
  | own {d : D} {k : T d → Prog D T α} : emb.own d → (∀ r, Calls (k r)) → Calls (.call d k)
  | call {k : K} {f : A → Prog D T α} {p : Prog D T α} : emb.made k → p = (inner.program k).expand emb.issue >>= f →
      (∀ a, Calls (f a)) → Calls p

variable {emb} {α β ε : Type}

section

variable {p : Prog D T α}

lemma calls_bind {f : α → Prog D T β} (hp : Calls emb p) (hf : ∀ a, Calls emb (f a)) : Calls emb (p >>= f) := by
  induction hp with
  | ret => exact hf _
  | own hd _ ih => exact .own hd ih
  | call hk hp _ ih =>
    subst hp
    exact .call hk (bind_assoc _ _ _) ih

lemma calls_seq {x : ExceptT ε (Prog D T) α} {f : α → ExceptT ε (Prog D T) β} (hx : Calls emb x.run)
    (hf : ∀ a, Calls emb (f a).run) : Calls emb (x >>= f).run := by
  apply calls_bind hx
  intro r
  cases r with
  | ok a => exact hf a
  | error => exact .ret

lemma calls_lift (hp : Calls emb p) : Calls emb (ExceptT.lift (ε := ε) p).run :=
  calls_bind hp fun _ => .ret

lemma calls_only (hp : Only emb.own p) : Calls emb p := by
  induction hp with
  | ret => exact .ret
  | call hc _ ih => exact .own hc ih

lemma calls_next {d : D} {k : T d → Prog D T α} (h : Calls emb (.call d k)) : (emb.own d ∧ ∀ r, Calls emb (k r)) ∨
    ∃ call c k0 f, emb.made call ∧ inner.program call = .call c k0 ∧
      Prog.call d k = (Prog.call c k0).expand emb.issue >>= f ∧ ∀ a, Calls emb (f a) := by
  generalize hp : call d k = p at h
  induction h with
  | ret => cases hp
  | own hd hk =>
    cases hp
    exact .inl ⟨hd, hk⟩
  | @call call f p hcall heq hf ih =>
    cases hq : inner.program call with
    | ret a =>
      rw [hq] at heq
      subst heq
      exact ih a hp
    | call c k0 =>
      rw [hq] at heq
      exact .inr ⟨call, c, k0, f, hcall, hq, heq, hf⟩

end

def Noted (emb : Embedding inner outer) (v : Pool S K C R A) (t : Span S') (c : C) (r : T (emb.cmd c)) : Prop :=
  ∃ (i : ℕ) (u : Thread S K C R A), v.threads[i]? = some u ∧
    (⟨⟨emb.state t.before, emb.state t.after⟩, c, emb.reply c r⟩ : Event S C R) ∈ u.history

def Tracked (emb : Embedding inner outer) (v : Pool S K C R A) (p : Prog D T α) : Option ℕ → Prop
  | none => Calls emb p
  | some i => ∃ (u : Thread S K C R A) (f : A → Prog D T α), v.threads[i]? = some u ∧
      p = u.prog.expand emb.issue >>= f ∧ ∀ a, Calls emb (f a)

/-- A state of the part that accounts for a state of the outer server; each thread makes one call at a time. -/
structure Tracks (emb : Embedding inner outer) (slot : ℕ → Option ℕ) (w : Pool S' K' D T A')
    (v : Pool S K C R A) : Prop where
  state : v.shared = emb.state w.shared
  threads : ∀ (tid : ℕ) (th : Thread S' K' D T A'), w.threads[tid]? = some th → Tracked emb v th.prog (slot tid)
  apart : ∀ {tid tid' i : ℕ}, slot tid = some i → slot tid' = some i → tid = tid'
  bound : ∀ {tid i : ℕ}, slot tid = some i → tid < w.threads.length ∧ i < v.threads.length
  events : ∀ (tid : ℕ) (th : Thread S' K' D T A') (t : Span S') (c : C) (r : T (emb.cmd c)), w.threads[tid]? = some th →
    (⟨t, emb.cmd c, r⟩ : Event S' D T) ∈ th.history → Noted emb v t c r

section

variable {w w' : Pool S' K' D T A'} {v v' : Pool S K C R A} {slot : ℕ → Option ℕ} {a : Act K' O' E'}
  {ok : (c : C) → R c → Prop} {ok' : (d : D) → T d → Prop}

lemma tracks_start (emb : Embedding inner outer) (s : S') : Tracks emb (fun _ => none) ⟨s, []⟩ ⟨emb.state s, []⟩ where
  state := rfl
  threads := by rintro tid th ⟨⟩
  apart := by rintro tid tid' i ⟨⟩
  bound := by rintro tid i ⟨⟩
  events := by rintro tid th t c r ⟨⟩

variable {c : C} {r : T (emb.cmd c)} {p : Prog D T α} {tid i : ℕ} {th : Thread S' K' D T A'} {u : Thread S K C R A}
    {x : Option ℕ}

lemma noted_step {b : Act K O E} (h : step inner v b = some v') {t : Span S'} (hn : Noted emb v t c r) :
    Noted emb v' t c r := by
  obtain ⟨i, u, hu, he⟩ := hn
  obtain ⟨u', hu', -, hpre⟩ := thread_kept h hu
  exact ⟨i, u', hu', hpre.subset he⟩

lemma tracked_extended {i : Option ℕ} {l : List (Thread S K C R A)} (hv : v'.threads = v.threads ++ l)
    (h : Tracked emb v p i) : Tracked emb v' p i := by
  cases i with
  | none => exact h
  | some =>
    obtain ⟨u, f, hu, hp, hf⟩ := h
    refine ⟨u, f, ?_, hp, hf⟩
    rw [hv, List.getElem?_append_left (List.getElem?_eq_some_iff.mp hu).1]
    exact hu

lemma tracks_arrive {call : K} (ht : Tracks emb slot w v) (hv : step inner v (.arrive call) = some v')
    (hcall : emb.made call) : Tracks emb slot w v' ∧ v'.threads = v.threads ++ [⟨call, [], inner.program call⟩] := by
  cases step_effect hv with
  | arrive accept threads =>
    refine ⟨⟨?_, ?_, ht.apart, ?_, ?_⟩, threads⟩
    · rw [emb.accepts hcall, Option.some.injEq] at accept
      rw [← accept]
      exact ht.state
    · intro tid th hth
      exact tracked_extended threads (ht.threads tid th hth)
    · intro tid i hs
      obtain ⟨htid, hi⟩ := ht.bound hs
      rw [threads, length_append]
      exact ⟨htid, by omega⟩
    · intro tid th t c r hth he
      exact noted_step hv (ht.events tid th t c r hth he)

lemma tracks_free (ht : Tracks emb slot w v) (hstate : emb.state w'.shared = emb.state w.shared)
    (hw' : w'.threads = w.threads.set tid th) (hcalls : Calls emb th.prog)
    (hevents : ∀ t c r, ⟨t, emb.cmd c, r⟩ ∈ th.history → Noted emb v t c r) :
    Tracks emb (Function.update slot tid none) w' v where
  state := ht.state.trans hstate.symm
  threads tid' th' hth := by
    obtain ⟨htid, hth⟩ | ⟨rfl, rfl⟩ := getElem?_put (hw' ▸ hth)
    · rw [Function.update_of_ne htid.symm]
      exact ht.threads tid' th' hth
    · rw [Function.update_self]
      exact hcalls
  apart {tid1 tid2 i} h1 h2 := by
    rw [Function.update_apply] at h1 h2
    split_ifs at h1 h2
    exact ht.apart h1 h2
  bound {tid' i} hs := by
    rw [Function.update_apply] at hs
    split_ifs at hs
    rw [hw', length_set]
    exact ht.bound hs
  events tid' th' t c r hth he := by
    obtain ⟨-, hth⟩ | ⟨-, rfl⟩ := getElem?_put (hw' ▸ hth)
    · exact ht.events tid' th' t c r hth he
    · exact hevents t c r he

lemma answered_exec {k : R c → Prog C R A} {o : O} {s : S} {r : R c} {calls : K → Prop}
    (hu : v.threads[i]? = some u) (hp : u.prog = .call c k) (hin : inner.perform v.shared c o = some (s, r))
    (hr : ok c r) : Answered inner calls ok v (.exec i o) := by
  intro u' c' s' r' hi hin'
  obtain ⟨hu', k', hp'⟩ := hi
  obtain rfl := mem_unique hu hu'
  cases hp.symm.trans hp'
  cases hin.symm.trans hin'
  exact hr

lemma tracked_elsewhere (hv : v'.threads = v.threads.set i u) (hx : x ≠ some i) (h : Tracked emb v p x) :
    Tracked emb v' p x := by
  obtain _ | _ := x
  · exact h
  obtain ⟨u', f, hu', hrest⟩ := h
  refine ⟨u', f, ?_, hrest⟩
  rw [hv, List.getElem?_set_ne]
  · exact hu'
  · rintro rfl
    exact hx rfl

lemma tracks_exec {k : T (emb.cmd c) → Prog D T A'} {o : O'} {k0 : R c → Prog C R A} {f : A → Prog D T A'}
    (ht : Tracks emb slot w v) (hok : ok' (emb.cmd c) r → ok c (emb.reply c r)) (hr : ok' (emb.cmd c) r)
    (hth : w.threads[tid]? = some th) (hk : k = fun r => (k0 (emb.reply c r)).expand emb.issue >>= f)
    (hf : ∀ a, Calls emb (f a)) (hu : v.threads[i]? = some u) (hp : u.prog = .call c k0)
    (hfree : ∀ tid', slot tid' = some i → tid' = tid)
    (hperf : outer.perform w.shared (emb.cmd c) o = some (w'.shared, r))
    (hw' : w'.threads = w.threads.set tid (th.advance ⟨w.shared, w'.shared⟩ (emb.cmd c) k r)) :
    ∃ o' v', Answered inner emb.made ok v (.exec i o') ∧ step inner v (.exec i o') = some v' ∧
      Tracks emb (Function.update slot tid (some i)) w' v' := by
  obtain ⟨o', hin⟩ := emb.performed hperf
  rw [← ht.state] at hin
  have hlt : i < v.threads.length := (List.getElem?_eq_some_iff.mp hu).1
  have hstep := step_exec hu hp hin
  refine ⟨o', _, answered_exec hu hp hin (hok hr), hstep, rfl, ?_, ?_, ?_, ?_⟩
  · intro tid' th' hth'
    obtain ⟨htid, hth'⟩ | ⟨rfl, rfl⟩ := getElem?_put (hw' ▸ hth')
    · rw [Function.update_of_ne htid.symm]
      apply tracked_elsewhere rfl _ (ht.threads tid' th' hth')
      intro hs
      exact htid (hfree tid' hs).symm
    · rw [Function.update_self]
      refine ⟨_, f, List.getElem?_set_self hlt, ?_, hf⟩
      rw [hk]
      rfl
  · intro tid1 tid2 j h1 h2
    rw [Function.update_apply] at h1 h2
    split_ifs at h1 h2 with heq1 heq2 heq2
    · rw [heq1, heq2]
    · cases h1
      rw [heq1, hfree tid2 h2]
    · cases h2
      rw [heq2, hfree tid1 h1]
    · exact ht.apart h1 h2
  · intro tid' j hs
    rw [Function.update_apply] at hs
    rw [hw', length_set, length_set]
    split_ifs at hs with heq
    · cases hs
      rw [heq]
      exact ⟨(List.getElem?_eq_some_iff.mp hth).1, hlt⟩
    · exact ht.bound hs
  intro tid' th' t c' r' hth' he
  obtain ⟨-, hth'⟩ | ⟨-, rfl⟩ := getElem?_put (hw' ▸ hth')
  · exact noted_step hstep (ht.events tid' th' t c' r' hth' he)
  rw [Thread.advance_history, mem_snoc] at he
  obtain he | heq := he
  · exact noted_step hstep (ht.events tid th t c' r' hth he)
  -- the command just issued is the last one of the thread of the part
  rw [Event.mk.injEq] at heq
  obtain ⟨rfl, hc, hr'⟩ := heq
  obtain rfl := emb.cmd_inj hc
  obtain rfl := eq_of_heq hr'
  refine ⟨i, _, List.getElem?_set_self hlt, mem_append_right _ ?_⟩
  rw [ht.state]
  exact mem_singleton_self _

lemma tracked_next {d : D} {k : T d → Prog D T α} (h : Tracked emb v (.call d k) x) :
    (emb.own d ∧ ∀ r, Calls emb (k r)) ∨
    (∃ i u c k0 f, x = some i ∧ v.threads[i]? = some u ∧ u.prog = .call c k0 ∧
      Prog.call d k = (Prog.call c k0).expand emb.issue >>= f ∧ ∀ a, Calls emb (f a)) ∨
    ∃ call c k0 f, emb.made call ∧ inner.program call = .call c k0 ∧
      Prog.call d k = (Prog.call c k0).expand emb.issue >>= f ∧ ∀ a, Calls emb (f a) := by
  obtain _ | i := x
  · exact (calls_next h).imp_right Or.inr
  obtain ⟨u, f, hu, hp, hf⟩ := h
  cases hq : u.prog with
  | ret a =>
    rw [hq] at hp
    have hcalls : Calls emb (.call d k) := by
      rw [hp]
      exact hf a
    exact (calls_next hcalls).imp_right Or.inr
  | call c k0 =>
    rw [hq] at hp
    exact .inr (.inl ⟨i, u, c, k0, f, rfl, hu, hq, hp, hf⟩)

lemma tracks_exec_step {o : O'} {d : D} {k : T d → Prog D T A'} {r : T d}
    (hok : ∀ c r, ok' (emb.cmd c) r → ok c (emb.reply c r)) (ht : Tracks emb slot w v) (hr : ok' d r)
    (hth : w.threads[tid]? = some th) (hp : th.prog = .call d k)
    (hperf : outer.perform w.shared d o = some (w'.shared, r))
    (hw' : w'.threads = w.threads.set tid (th.advance ⟨w.shared, w'.shared⟩ d k r)) :
    ∃ slot' v', Reach (step inner) (Answered inner emb.made ok) v v' ∧ Tracks emb slot' w' v' := by
  have htracked := ht.threads tid th hth
  rw [hp] at htracked
  obtain ⟨hd, hk⟩ | ⟨i, u, c, k0, f, hs, hu, hq, heq, hf⟩ | ⟨call, c, k0, f, hcall, hq, heq, hf⟩ := tracked_next htracked
  · refine ⟨_, v, .refl, tracks_free ht (emb.kept hd hperf) hw' (hk r) ?_⟩
    intro t c r' he
    rw [Thread.advance_history, mem_snoc] at he
    obtain he | heq := he
    · exact ht.events tid th t c r' hth he
    · rw [Event.mk.injEq] at heq
      exact absurd (heq.2.1 ▸ hd) (emb.own_cmd c)
  · change call d k = .call (emb.cmd c) fun r => (k0 (emb.reply c r)).expand emb.issue >>= f at heq
    cases heq
    obtain ⟨o', v', hg, hstep, ht'⟩ := tracks_exec ht (hok c r) hr hth rfl hf hu hq (fun tid' h' => ht.apart h' hs) hperf hw'
    exact ⟨_, v', refl.tail hg hstep, ht'⟩
  change Prog.call d k = .call (emb.cmd c) fun r => (k0 (emb.reply c r)).expand emb.issue >>= f at heq
  cases heq
  have harrive : step inner v (.arrive call) = some ⟨v.shared, v.threads ++ [⟨call, [], inner.program call⟩]⟩ := by
    simp only [step, emb.accepts hcall, map_some]
  obtain ⟨ht1, -⟩ := tracks_arrive ht harrive hcall
  have hnew : (v.threads ++ [⟨call, [], inner.program call⟩])[v.threads.length]? = _ :=
    List.getElem?_concat_length
  -- no thread makes this call yet
  have hfree : ∀ tid', slot tid' = some v.threads.length → tid' = tid := by
    intro tid' h'
    exact absurd (ht.bound h').2 (Nat.lt_irrefl _)
  obtain ⟨o', v', hg, hstep, ht'⟩ := tracks_exec ht1 (hok c r) hr hth rfl hf hnew hq hfree hperf hw'
  have hmade : Answered inner emb.made ok v (.arrive call) := hcall
  exact ⟨_, v', (refl.tail hmade harrive).tail hg hstep, ht'⟩

lemma tracks_shared (ht : Tracks emb slot w v) (hstate : v'.shared = emb.state w'.shared) (hw : w'.threads = w.threads)
    (hv : v'.threads = v.threads) : Tracks emb slot w' v' where
  state := hstate
  threads tid th hth := by
    have h := ht.threads tid th (hw ▸ hth)
    cases hs : slot tid with
    | none =>
      rw [hs] at h
      exact h
    | some =>
      rw [hs] at h
      obtain ⟨u, f, hu, hrest⟩ := h
      exact ⟨u, f, hv ▸ hu, hrest⟩
  apart := ht.apart
  bound hs := by
    rw [hw, hv]
    exact ht.bound hs
  events tid th t c r hth he := by
    obtain ⟨i, u, hu, hmem⟩ := ht.events tid th t c r (hw ▸ hth) he
    exact ⟨i, u, hv ▸ hu, hmem⟩

lemma tracks_restart (ht : Tracks emb slot w v) (h : outer.restart w.shared = some w'.shared)
    (hw' : w'.threads = w.threads.map (halt outer.stopped)) :
    ∃ v', step inner v .restart = some v' ∧ Tracks emb (fun _ => none) w' v' := by
  have hrestart := emb.restarted h
  rw [← ht.state] at hrestart
  have hstep : step inner v .restart = some ⟨emb.state w'.shared, v.threads.map (halt inner.stopped)⟩ := by
    simp only [step, hrestart, map_some]
  refine ⟨_, hstep, rfl, ?_, by rintro _ _ _ ⟨⟩, by rintro _ _ ⟨⟩, ?_⟩
  · intro tid th' hth
    rw [hw', List.getElem?_map, map_eq_some_iff] at hth
    obtain ⟨th, -, rfl⟩ := hth
    have hstopped := halt_not_inFlight outer.stopped th
    cases hp : (halt outer.stopped th).prog with
    | ret => exact .ret
    | call => exact absurd (Thread.inFlight_of_call hp) hstopped
  intro tid th' t c r hth he
  rw [hw', List.getElem?_map, map_eq_some_iff] at hth
  obtain ⟨th, hth, rfl⟩ := hth
  have hhist : (halt outer.stopped th).history = th.history := by
    obtain heq | heq := halt_cases outer.stopped th <;> rw [heq]
    rfl
  rw [hhist] at he
  exact noted_step hstep (ht.events tid th t c r hth he)

section

variable (hprog : ∀ k, Calls emb (outer.program k)) (hok : ∀ c r, ok' (emb.cmd c) r → ok c (emb.reply c r))
  (ht : Tracks emb slot w v)

include hprog hok ht

lemma tracks_step (hg : Answered outer (fun _ => True) ok' w a) (h : step outer w a = some w') :
    ∃ slot' v', Reach (step inner) (Answered inner emb.made ok) v v' ∧ Tracks emb slot' w' v' := by
  cases step_effect h with
  | drift drift threads =>
    obtain hkept | ⟨e', hd⟩ := emb.drifted drift
    · exact ⟨slot, v, .refl, tracks_shared ht (ht.state.trans hkept.symm) threads rfl⟩
    · rw [← ht.state] at hd
      have hstep : step inner v (.drift e') = some ⟨emb.state w'.shared, v.threads⟩ := by
        simp only [step, hd, map_some]
      have hguard : Answered inner emb.made ok v (.drift e') := trivial
      exact ⟨slot, _, refl.tail hguard hstep, tracks_shared ht rfl threads rfl⟩
  | @arrive call accept threads =>
    refine ⟨slot, v, .refl, ht.state.trans (emb.accepted accept).symm, ?_, ht.apart, ?_, ?_⟩
    · intro tid th hth
      obtain hth | ⟨rfl, rfl⟩ := getElem?_snoc (threads ▸ hth)
      · exact ht.threads tid th hth
      · cases hs : slot w.threads.length with
        | none => exact hprog call
        | some => exact absurd (ht.bound hs).1 (Nat.lt_irrefl _)
    · intro tid i hs
      obtain ⟨htid, hi⟩ := ht.bound hs
      rw [threads, length_append]
      exact ⟨by omega, hi⟩
    · intro tid th t c r hth he
      obtain hth | ⟨-, rfl⟩ := getElem?_snoc (threads ▸ hth)
      · exact ht.events tid th t c r hth he
      · cases he
  | @exec tid o th d k r thread prog perform threads =>
    exact tracks_exec_step hok ht (hg th d _ r ⟨thread, k, prog⟩ perform) thread prog perform threads
  | @cancel tid th thread inFlight shared threads =>
    refine ⟨_, v, .refl, tracks_free ht (by rw [shared]) threads .ret ?_⟩
    intro t c r he
    exact ht.events tid th t c r thread he
  | restart restart threads =>
    obtain ⟨v', hstep, ht'⟩ := tracks_restart ht restart threads
    have hguard : Answered inner emb.made ok v .restart := trivial
    exact ⟨_, v', refl.tail hguard hstep, ht'⟩

lemma tracks_run (h : Reach (step outer) (Answered outer (fun _ => True) ok') w w') :
    ∃ slot' v', Reach (step inner) (Answered inner emb.made ok) v v' ∧ Tracks emb slot' w' v' := by
  induction h with
  | refl => exact ⟨slot, v, .refl, ht⟩
  | tail _ hg hstep ih =>
    obtain ⟨slot1, v1, hr, ht1⟩ := ih
    obtain ⟨slot2, v2, hr2, ht2⟩ := tracks_step hprog hok ht1 hg hstep
    exact ⟨slot2, v2, hr.trans hr2, ht2⟩

end

end

end FleetingDns.Components
