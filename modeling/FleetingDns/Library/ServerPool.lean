import FleetingDns.Library.GuardedRuns
import FleetingDns.Library.ThreadPool
namespace FleetingDns.ServerPool

open CommandPrograms ThreadPool GuardedRuns Option List Thread

/-- A server: the program behind each call, what a command does to its state, and what may happen between commands. -/
structure Service (S K C : Type) (R : C → Type) (A O E : Type) where
  program : K → Prog C R A
  perform : S → (c : C) → O → Option (S × R c)
  accept : S → K → Option S
  drift : S → E → Option S
  restart : S → Option S
  stopped : A

structure Pool (S K C : Type) (R : C → Type) (A : Type) where
  shared : S
  threads : List (Thread S K C R A)

inductive Act (K O E : Type) where
  | drift (e : E)
  | arrive (call : K)
  | exec (tid : ℕ) (o : O)
  | cancel (tid : ℕ)
  | restart

variable {S K C A O E : Type} {R : C → Type}

def halt (a : A) (th : Thread S K C R A) : Thread S K C R A := if th.prog.next.isSome then th.stop a else th

lemma halt_cases (a : A) (th : Thread S K C R A) : halt a th = th ∨ halt a th = th.stop a := by
  unfold halt
  split_ifs
  · exact .inr rfl
  · exact .inl rfl

lemma halt_not_inFlight (a : A) (th : Thread S K C R A) : ¬ (halt a th).InFlight := by
  unfold halt
  split_ifs with hf
  · exact th.stop_not_inFlight a
  · exact hf

def step (svc : Service S K C R A O E) (w : Pool S K C R A) : Act K O E → Option (Pool S K C R A)
  | .drift e => (svc.drift w.shared e).map fun s => ⟨s, w.threads⟩
  | .arrive call => (svc.accept w.shared call).map fun s => ⟨s, w.threads ++ [⟨call, [], svc.program call⟩]⟩
  | .exec tid o => (exec (fun s _ c o => svc.perform s c o) (fun _ _ s => s) w.shared w.threads tid o).map fun r => ⟨r.1, r.2⟩
  | .cancel tid => w.threads[tid]?.bind fun th =>
    if th.prog.next.isSome then some ⟨w.shared, w.threads.set tid (th.stop svc.stopped)⟩ else none
  | .restart => (svc.restart w.shared).map fun s => ⟨s, w.threads.map (halt svc.stopped)⟩

inductive Effect (svc : Service S K C R A O E) (w w' : Pool S K C R A) : Act K O E → Prop
  | drift {e : E} (drift : svc.drift w.shared e = some w'.shared) (threads : w'.threads = w.threads) :
      Effect svc w w' (.drift e)
  | arrive {call : K} (accept : svc.accept w.shared call = some w'.shared)
      (threads : w'.threads = w.threads ++ [⟨call, [], svc.program call⟩]) : Effect svc w w' (.arrive call)
  | exec {tid : ℕ} {o : O} {th : Thread S K C R A} {c : C} {k : R c → Prog C R A} {r : R c}
      (thread : w.threads[tid]? = some th) (prog : th.prog = .call c k)
      (perform : svc.perform w.shared c o = some (w'.shared, r))
      (threads : w'.threads = w.threads.set tid (th.advance ⟨w.shared, w'.shared⟩ c k r)) : Effect svc w w' (.exec tid o)
  | cancel {tid : ℕ} {th : Thread S K C R A} (thread : w.threads[tid]? = some th) (inFlight : th.InFlight)
      (shared : w'.shared = w.shared) (threads : w'.threads = w.threads.set tid (th.stop svc.stopped)) :
      Effect svc w w' (.cancel tid)
  | restart (restart : svc.restart w.shared = some w'.shared) (threads : w'.threads = w.threads.map (halt svc.stopped)) :
      Effect svc w w' .restart

variable {svc : Service S K C R A O E} {w w' : Pool S K C R A} {a : Act K O E}

lemma settle_id (call : K) (s : S) (p : Prog C R A) : settle (fun _ _ s => s) call s p = s := by
  cases p <;> rfl

lemma step_effect (h : step svc w a = some w') : Effect svc w w' a := by
  cases a with
  | drift =>
    simp only [step, map_eq_some_iff] at h
    obtain ⟨s, hs, rfl⟩ := h
    exact .drift hs rfl
  | arrive =>
    simp only [step, map_eq_some_iff] at h
    obtain ⟨s, hs, rfl⟩ := h
    exact .arrive hs rfl
  | exec =>
    simp only [step, map_eq_some_iff] at h
    obtain ⟨⟨s', ts⟩, he, rfl⟩ := h
    obtain ⟨th, c, k, s, r, hth, hp, hr, rfl, rfl⟩ := exec_cases he
    rw [settle_id]
    exact .exec hth hp hr rfl
  | cancel =>
    simp only [step, bind_eq_some_iff] at h
    obtain ⟨th, hth, hs⟩ := h
    split_ifs at hs with hf
    cases hs
    exact .cancel hth hf rfl rfl
  | restart =>
    simp only [step, map_eq_some_iff] at h
    obtain ⟨s, hs, rfl⟩ := h
    exact .restart hs rfl

def Issues (w : Pool S K C R A) (tid : ℕ) (th : Thread S K C R A) (c : C) : Prop :=
  w.threads[tid]? = some th ∧ ∃ k, th.prog = .call c k

variable {tid : ℕ} {th th' : Thread S K C R A} {c : C} {s : S} {G : Pool S K C R A → Act K O E → Prop}
    {e : Event S C R} {m : S → ℕ}

lemma Issues.next (h : Issues w tid th c) : th.prog.next = some c := by
  obtain ⟨-, k, hk⟩ := h
  exact Prog.next_isSome hk

lemma issues_of_next (hth : w.threads[tid]? = some th) (hn : th.prog.next = some c) : Issues w tid th c := by
  cases hp : th.prog with
  | ret =>
    rw [hp] at hn
    cases hn
  | call c' k =>
    rw [Prog.next_isSome hp] at hn
    cases hn
    exact ⟨hth, k, hp⟩

lemma exec_step {o : O} (h : step svc w (.exec tid o) = some w') (hi : Issues w tid th c) :
    ∃ k r, th.prog = .call c k ∧ svc.perform w.shared c o = some (w'.shared, r) ∧
      w'.threads[tid]? = some (th.advance ⟨w.shared, w'.shared⟩ c k r) := by
  obtain ⟨hth, k, hp⟩ := hi
  cases step_effect h with
  | @exec _ _ u c' k' r thread prog perform threads =>
    obtain rfl := mem_unique hth thread
    rw [hp] at prog
    cases prog
    refine ⟨k, r, hp, perform, ?_⟩
    rw [threads, List.getElem?_set_self (List.getElem?_eq_some_iff.mp hth).1]

lemma step_exec {o : O} {k : R c → Prog C R A} {r : R c} (hth : w.threads[tid]? = some th)
    (hp : th.prog = .call c k) (h : svc.perform w.shared c o = some (s, r)) :
    step svc w (.exec tid o) = some ⟨s, w.threads.set tid (th.advance ⟨w.shared, s⟩ c k r)⟩ := by
  simp only [step, exec, hth, hp, h, settle_id, map_some]

section

variable (h : step svc w a = some w')

include h

lemma thread_step (hth : w'.threads[tid]? = some th') : (w.threads[tid]? = some th' ∧ ∀ o, a ≠ .exec tid o) ∨
    (∃ call, a = .arrive call ∧ tid = w.threads.length ∧ th' = ⟨call, [], svc.program call⟩) ∨
    (∃ o th c k r, a = .exec tid o ∧ w.threads[tid]? = some th ∧ th.prog = .call c k ∧
      svc.perform w.shared c o = some (w'.shared, r) ∧ th' = th.advance ⟨w.shared, w'.shared⟩ c k r) ∨
    (∃ th, w.threads[tid]? = some th ∧ (a = .cancel tid ∨ a = .restart) ∧ th' = th.stop svc.stopped) := by
  cases step_effect h with
  | drift drift threads => exact .inl ⟨threads ▸ hth, by rintro _ ⟨⟩⟩
  | @arrive call accept threads =>
    obtain hth | ⟨htid, rfl⟩ := getElem?_snoc (threads ▸ hth)
    · exact .inl ⟨hth, by rintro _ ⟨⟩⟩
    · exact .inr (.inl ⟨call, rfl, htid, rfl⟩)
  | @exec j o th c k r thread prog perform threads =>
    obtain ⟨hj, hth⟩ | ⟨rfl, rfl⟩ := getElem?_put (threads ▸ hth)
    · exact .inl ⟨hth, by rintro _ ⟨rfl⟩; exact hj rfl⟩
    · exact .inr (.inr (.inl ⟨o, th, c, k, r, rfl, thread, prog, perform, rfl⟩))
  | @cancel j th thread inFlight shared threads =>
    obtain ⟨-, hth⟩ | ⟨rfl, rfl⟩ := getElem?_put (threads ▸ hth)
    · exact .inl ⟨hth, by rintro _ ⟨⟩⟩
    · exact .inr (.inr (.inr ⟨th, thread, .inl rfl, rfl⟩))
  | restart restart threads =>
    rw [threads, List.getElem?_map, map_eq_some_iff] at hth
    obtain ⟨th, hth, rfl⟩ := hth
    obtain heq | heq := halt_cases svc.stopped th
    · rw [heq]
      exact .inl ⟨hth, by rintro _ ⟨⟩⟩
    · exact .inr (.inr (.inr ⟨th, hth, .inr rfl, heq⟩))

lemma length_step : w.threads.length ≤ w'.threads.length := by
  cases step_effect h with
  | drift _ threads | arrive _ threads | exec _ _ _ threads | cancel _ _ _ threads | restart _ threads => simp [threads]

lemma thread_kept (hth : w.threads[tid]? = some th) :
    ∃ th', w'.threads[tid]? = some th' ∧ th'.call = th.call ∧ th.history <+: th'.history := by
  have hlt : tid < w.threads.length := (List.getElem?_eq_some_iff.mp hth).1
  have hth' := List.getElem?_eq_getElem (Nat.lt_of_lt_of_le hlt (length_step h))
  refine ⟨_, hth', ?_⟩
  obtain ⟨hold, -⟩ | ⟨_, -, htid, -⟩ | ⟨_, _, _, _, _, -, hold, -, -, heq⟩ | ⟨_, hold, -, heq⟩ := thread_step h hth'
  · rw [mem_unique hold hth]
    exact ⟨rfl, prefix_refl _⟩
  · omega
  · rw [heq, mem_unique hold hth]
    exact ⟨rfl, prefix_append _ _⟩
  · rw [heq, mem_unique hold hth]
    exact ⟨rfl, prefix_refl _⟩

lemma finished_step (hth : w.threads[tid]? = some th) (hf : ¬ th.InFlight) : w'.threads[tid]? = some th := by
  have hother {j : ℕ} {u : Thread S K C R A} (hu : w.threads[j]? = some u) (hin : u.InFlight) : j ≠ tid := by
    rintro rfl
    obtain rfl := mem_unique hth hu
    exact hf hin
  cases step_effect h with
  | drift drift threads => exact threads ▸ hth
  | arrive accept threads =>
    rw [threads, List.getElem?_append_left (List.getElem?_eq_some_iff.mp hth).1]
    exact hth
  | exec thread prog perform threads =>
    rw [threads, List.getElem?_set_ne (hother thread (inFlight_of_call prog))]
    exact hth
  | cancel thread inFlight shared threads =>
    rw [threads, List.getElem?_set_ne (hother thread inFlight)]
    exact hth
  | restart restart threads =>
    rw [threads, List.getElem?_map, hth]
    exact congrArg some (if_neg hf)

end

lemma finished_run (h : Reach (step svc) G w w') (hth : w.threads[tid]? = some th) (hf : ¬ th.InFlight) :
    w'.threads[tid]? = some th := by
  induction h with
  | refl => exact hth
  | tail _ _ hs ih => exact finished_step hs ih hf

lemma call_step (h : step svc w a = some w') (hth : w'.threads[tid]? = some th') :
    (∃ th, w.threads[tid]? = some th ∧ th.call = th'.call) ∨ (a = .arrive th'.call ∧ tid = w.threads.length) := by
  obtain ⟨hold, -⟩ | ⟨call, ha, htid, rfl⟩ | ⟨o, th, c, k, r, -, hold, -, -, rfl⟩ | ⟨th, hold, -, rfl⟩ := thread_step h hth
  · exact .inl ⟨th', hold, rfl⟩
  · exact .inr ⟨ha, htid⟩
  · exact .inl ⟨th, hold, rfl⟩
  · exact .inl ⟨th, hold, rfl⟩

lemma event_step (h : step svc w a = some w') (hth : w'.threads[tid]? = some th') (he : e ∈ th'.history) :
    (∃ th, w.threads[tid]? = some th ∧ th.call = th'.call ∧ e ∈ th.history) ∨
    ∃ o th, a = .exec tid o ∧ Issues w tid th e.cmd ∧ th.call = th'.call ∧ th'.history = th.history ++ [e] ∧
      e.span = ⟨w.shared, w'.shared⟩ ∧ svc.perform w.shared e.cmd o = some (w'.shared, e.reply) := by
  obtain ⟨hold, -⟩ | ⟨call, -, -, rfl⟩ | ⟨o, th, c, k, r, ha, hold, hp, hperf, rfl⟩ | ⟨th, hold, -, rfl⟩ :=
    thread_step h hth
  · exact .inl ⟨th', hold, rfl, he⟩
  · cases he
  · rw [advance_history, mem_snoc] at he
    obtain he | rfl := he
    · exact .inl ⟨th, hold, rfl, he⟩
    · exact .inr ⟨o, th, ha, ⟨hold, k, hp⟩, rfl, rfl, rfl, hperf⟩
  · exact .inl ⟨th, hold, rfl, he⟩

lemma event_reached {w1 w2 : Pool S K C R A} (h : Reach (step svc) G w1 w2) (hlate : w1.threads.length ≤ tid)
    (hth : w2.threads[tid]? = some th) (he : e ∈ th.history) :
    ∃ w o u, Reach (step svc) G w1 w ∧ Reach (step svc) G w w2 ∧ G w (.exec tid o) ∧ Issues w tid u e.cmd ∧
      e.span.before = w.shared ∧ svc.perform w.shared e.cmd o = some (e.span.after, e.reply) := by
  induction h generalizing th with
  | refl =>
    rw [List.getElem?_eq_none hlate] at hth
    cases hth
  | @tail w w' a hr hg hstep ih =>
    obtain ⟨u, hold, -, he⟩ | ⟨o, u, rfl, hi, -, -, hspan, hp⟩ := event_step hstep hth he
    · obtain ⟨w0, o, u', hr0, hr0', hrest⟩ := ih hold he
      exact ⟨w0, o, u', hr0, hr0'.tail hg hstep, hrest⟩
    · exact ⟨w, o, u, hr, Reach.refl.tail hg hstep, hg, hi, by rw [hspan], by rw [hspan]; exact hp⟩

lemma event_performed (h : Reach (step svc) G ⟨s, []⟩ w) (hth : w.threads[tid]? = some th) (he : e ∈ th.history) :
    ∃ o, svc.perform e.span.before e.cmd o = some (e.span.after, e.reply) := by
  obtain ⟨w1, o, u, -, -, -, -, hbefore, hp⟩ := event_reached h (Nat.zero_le _) hth he
  rw [hbefore]
  exact ⟨o, hp⟩

lemma measure_run (hm : ∀ w a w', step svc w a = some w' → m w.shared ≤ m w'.shared) (h : Reach (step svc) G w w') :
    m w.shared ≤ m w'.shared := by
  induction h with
  | refl => exact Nat.le_refl _
  | tail _ _ hstep ih => exact Nat.le_trans ih (hm _ _ _ hstep)

lemma reach_ordered (hm : ∀ w a w', step svc w a = some w' → m w.shared ≤ m w'.shared)
    (h : Reach (step svc) G ⟨s, []⟩ w) (hth : w.threads[tid]? = some th) :
    th.history.Pairwise (fun e e' => m e.span.after ≤ m e'.span.before) ∧
      ∀ e ∈ th.history, m e.span.after ≤ m w.shared := by
  induction h generalizing th with
  | refl => cases hth
  | @tail w w' a _ _ hstep ih =>
    have hle := hm w a w' hstep
    obtain ⟨hold, -⟩ | ⟨call, -, -, rfl⟩ | ⟨o, u, c, k, r, -, hold, -, -, rfl⟩ | ⟨u, hold, -, rfl⟩ := thread_step hstep hth
    · exact ⟨(ih hold).1, fun e he => Nat.le_trans ((ih hold).2 e he) hle⟩
    · exact ⟨List.Pairwise.nil, by rintro e ⟨⟩⟩
    · rw [advance_history]
      constructor
      · rw [pairwise_append]
        refine ⟨(ih hold).1, pairwise_singleton _ _, ?_⟩
        intro e he e' he'
        obtain rfl := mem_singleton.mp he'
        exact (ih hold).2 e he
      · intro e he
        obtain he | rfl := mem_snoc.mp he
        · exact Nat.le_trans ((ih hold).2 e he) hle
        · exact Nat.le_refl _
    · exact ⟨(ih hold).1, fun e he => Nat.le_trans ((ih hold).2 e he) hle⟩

lemma reach_calls {P : K → Prop} (hG : ∀ w call, G w (.arrive call) → P call) (h : Reach (step svc) G ⟨s, []⟩ w)
    (hth : w.threads[tid]? = some th) : P th.call := by
  induction h generalizing th with
  | refl => cases hth
  | tail _ hg hstep ih =>
    obtain ⟨u, hold, heq⟩ | ⟨rfl, -⟩ := call_step hstep hth
    · exact heq ▸ ih hold
    · exact hG _ _ hg

lemma observed_step {β : Type} (note : K → Event S C R → Option β) (h : step svc w a = some w') :
    ((observed note w'.threads).Perm (observed note w.threads) ∧ ∀ tid o, a ≠ .exec tid o) ∨
    ∃ tid o th c r, a = .exec tid o ∧ Issues w tid th c ∧ svc.perform w.shared c o = some (w'.shared, r) ∧
      (observed note w'.threads).Perm
        (observed note w.threads ++ (note th.call ⟨⟨w.shared, w'.shared⟩, c, r⟩).toList) := by
  cases step_effect h with
  | drift drift threads => exact .inl ⟨by rw [threads], by rintro _ _ ⟨⟩⟩
  | arrive accept threads => exact .inl ⟨by rw [threads, observed_arrive], by rintro _ _ ⟨⟩⟩
  | @exec tid o th c k r thread prog perform threads =>
    exact .inr ⟨tid, o, th, c, r, rfl, ⟨thread, k, prog⟩, perform, threads ▸ observed_advance thread⟩
  | cancel thread inFlight shared threads => exact .inl ⟨threads ▸ observed_stop thread, by rintro _ _ ⟨⟩⟩
  | restart restart threads =>
    refine .inl ⟨?_, by rintro _ _ ⟨⟩⟩
    have hsame : ∀ th : Thread S K C R A, (halt svc.stopped th).history.filterMap (note (halt svc.stopped th).call) =
        th.history.filterMap (note th.call) := by
      intro th
      obtain heq | heq := halt_cases svc.stopped th
      · rw [heq]
      · rw [heq, stop_call, stop_history]
    rw [threads, observed, observed, flatMap_map]
    simp only [hsame, List.Perm.refl]

section

variable {M : K → List (Event S C R) → C → Prop} {Q : K → List (Event S C R) → A → Prop}

/-- Every thread, finished or not, keeps to what its call may issue and to how its call may end. -/
def Keeps (M : K → List (Event S C R) → C → Prop) (Q : K → List (Event S C R) → A → Prop)
    (ts : List (Thread S K C R A)) : Prop :=
  ∀ (tid : ℕ) (th : Thread S K C R A), ts[tid]? = some th →
    Permitted (M th.call) th.history ∧ Obeys (M th.call) (Q th.call) th.prog th.history

lemma Keeps.may (hk : Keeps M Q w.threads) {c : C} (hi : Issues w tid th c) : M th.call th.history c := by
  obtain ⟨hth, k, hp⟩ := hi
  have hobeys := (hk tid th hth).2
  rw [hp] at hobeys
  exact (meets_call hobeys).1

lemma Keeps.ends (hk : Keeps M Q w.threads) {x : A} (hth : w.threads[tid]? = some th) (hp : th.prog = .ret x) :
    Q th.call th.history x := by
  have hobeys := (hk tid th hth).2
  rw [hp] at hobeys
  exact meets_ret hobeys

section

variable (hcall : ∀ call, Obeys (M call) (Q call) (svc.program call) [])

include hcall

lemma keeps_step (hstop : ∀ tid th, w.threads[tid]? = some th → a = .cancel tid ∨ a = .restart → Q th.call
    th.history svc.stopped) (hk : Keeps M Q w.threads) (h : step svc w a = some w') : Keeps M Q w'.threads := by
  intro tid th' hth
  obtain ⟨hold, -⟩ | ⟨call, -, -, rfl⟩ | ⟨o, th, c, k, r, -, hold, hp, -, rfl⟩ | ⟨th, hold, ha, rfl⟩ := thread_step h hth
  · exact hk tid th' hold
  · refine ⟨?_, hcall call⟩
    intro h1 e h2 heq
    simp at heq
  · obtain ⟨hperm, hobeys⟩ := hk tid th hold
    rw [hp] at hobeys
    obtain ⟨hmay, hnext⟩ := meets_call hobeys
    exact ⟨permitted_snoc hperm hmay, hnext r _ ⟨_, rfl⟩⟩
  · exact ⟨(hk tid th hold).1, .ret (hstop tid th hold ha)⟩

lemma reach_keeps {s : S} (hstop : ∀ call h, Q call h svc.stopped) (h : Reach (step svc) G ⟨s, []⟩ w) :
    Keeps M Q w.threads := by
  induction h with
  | refl => rintro tid th ⟨⟩
  | tail _ _ hstep ih => exact keeps_step hcall (fun _ th _ _ => hstop th.call th.history) ih hstep

lemma disciplined_step (hd : Disciplined M Q w.threads) (h : step svc w a = some w') :
    Disciplined M Q w'.threads := by
  intro tid th' hth hf
  obtain ⟨hold, -⟩ | ⟨call, -, -, rfl⟩ | ⟨o, th, c, k, r, -, hold, hp, -, rfl⟩ | ⟨th, -, -, rfl⟩ := thread_step h hth
  · exact hd tid th' hold hf
  · exact hcall call
  · exact hd.advance hold hp _ r
  · exact absurd hf (th.stop_not_inFlight _)

lemma reach_disciplined {s : S} (h : Reach (step svc) G ⟨s, []⟩ w) : Disciplined M Q w.threads := by
  induction h with
  | refl => rintro tid th ⟨⟩
  | tail _ _ hstep ih => exact disciplined_step hcall ih hstep

end

end

end FleetingDns.ServerPool
