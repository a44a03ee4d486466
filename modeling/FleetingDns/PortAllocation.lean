import FleetingDns.Library.ServerPool
import FleetingDns.TunnelStorage
namespace FleetingDns.PortAllocation

open CommandPrograms ExpiringStore ThreadPool ServerPool GuardedRuns TunnelStorage List Option

inductive PortCall where
  | allocatePort (tunnelId : String) (certificateTtl : ℕ)
  | releasePort (port : ℕ)

inductive PortDone where
  | allocated (r : Except ApiError ℕ)
  | released (r : Except ApiError Unit)
  | dropped

def PortCall.program : PortCall → Program PortDone
  | .allocatePort tunnelId certificateTtl => do
    return .allocated (← (TunnelStorage.allocatePort tunnelId certificateTtl).run)
  | .releasePort port => do return .released (← (TunnelStorage.releasePort port).run)

structure PortState where
  now : ℕ
  store : Store Key Value

inductive PortChoice where
  | redis (o : Outcome Key)
  | port (n : ℕ)

namespace PortState

def perform (s : PortState) : (c : Cmd) → PortChoice → Option (PortState × c.Reply)
  | .redis c, .redis o =>
    (ExpiringStore.perform s.now (visible s.now s.store) c o).map fun r => ({ s with store := r.1 }, r.2)
  | .genPort, .port n => if h : 10000 ≤ n ∧ n < 65535 then some (s, ⟨n, h⟩) else none
  | _, _ => none

def claimed (s : PortState) (port : ℕ) : Bool := ((visible s.now s.store).lookup (.port port)).isSome

end PortState

def portServer : Service PortState PortCall Cmd Cmd.Reply PortDone PortChoice ℕ where
  program := PortCall.program
  perform := PortState.perform
  accept s _ := some s
  drift s d := some { s with now := s.now + d }
  restart _ := none
  stopped := .dropped

abbrev Ev := Event PortState Cmd Cmd.Reply

abbrev PortThread := Thread PortState PortCall Cmd Cmd.Reply PortDone

abbrev PortPool := Pool PortState PortCall Cmd Cmd.Reply PortDone

abbrev Action := Act PortCall PortChoice ℕ

def cyclic (start i : ℕ) : ℕ := portRangeStart + (start - portRangeStart + i) % 55536

lemma cyclic_zero {start : ℕ} (h : 10000 ≤ start ∧ start < 65535) : cyclic start 0 = start := by
  simp only [cyclic, portRangeStart]
  omega

lemma nextPort_cyclic (start i : ℕ) : nextPort (cyclic start i) = cyclic start (i + 1) := by
  unfold nextPort cyclic portRangeStart portRangeEnd
  split <;> omega

lemma cyclic_range (start i : ℕ) : 10000 ≤ cyclic start i ∧ cyclic start i ≤ 65535 := by
  simp only [cyclic, portRangeStart]
  omega

abbrev claim (port : ℕ) (tunnelId : String) (ttl : ℕ) : Cmd := .redis (.setNxEx (.port port) (.text tunnelId) ttl)

abbrev release (port : ℕ) : Cmd := .redis (.del (.port port))

def noAvailablePorts : ApiError := .storageError "No available ports found after 1000 attempts"

structure Tried (tunnelId : String) (ttl start i : ℕ) (h : List Ev) : Prop where
  inRange : 10000 ≤ start ∧ start < 65535
  drawn : ∃ (t : Span PortState) (s : { n : ℕ // 10000 ≤ n ∧ n < 65535 }), h[0]? = some ⟨t, .genPort, s⟩ ∧ s.val = start
  refused : ∀ j < i, ∃ t, h[j + 1]? = some ⟨t, claim (cyclic start j) tunnelId ttl, .ok false⟩
  length : h.length = i + 1

def May : PortCall → List Ev → Cmd → Prop
  | .allocatePort tunnelId ttl, h, c => (h = [] ∧ c = .genPort) ∨
      ∃ start i, i < 1000 ∧ Tried tunnelId ttl start i h ∧ c = claim (cyclic start i) tunnelId ttl
  | .releasePort port, h, c => h = [] ∧ c = release port

def Ends : PortCall → List Ev → PortDone → Prop
  | .allocatePort tunnelId ttl, h, .allocated (.ok port) => ∃ start i h0 t, i < 1000 ∧ Tried tunnelId ttl start i h0 ∧
      port = cyclic start i ∧ h = h0 ++ [⟨t, claim port tunnelId ttl, .ok true⟩]
  | .allocatePort tunnelId ttl, h, .allocated (.error e) =>
      e = noAvailablePorts → ∃ start, Tried tunnelId ttl start 1000 h
  | .releasePort _, _, .allocated _ => False
  | _, _, _ => True

variable {tunnelId : String} {h : List Ev}

section

variable {ttl start i : ℕ}

lemma Tried.snoc (ht : Tried tunnelId ttl start i h) (t : Span PortState) :
    Tried tunnelId ttl start (i + 1) (h ++ [⟨t, claim (cyclic start i) tunnelId ttl, .ok false⟩]) where
  inRange := ht.inRange
  drawn := by
    obtain ⟨t', s, hdrawn, heq⟩ := ht.drawn
    exact ⟨t', s, by rw [List.getElem?_append_left (by simp [ht.length])]; exact hdrawn, heq⟩
  refused j hj := by
    by_cases hlt : j < i
    · obtain ⟨t', hrefused⟩ := ht.refused j hlt
      refine ⟨t', ?_⟩
      rw [List.getElem?_append_left (by rw [ht.length]; omega)]
      exact hrefused
    · obtain rfl : j = i := by omega
      refine ⟨t, ?_⟩
      rw [← ht.length, List.getElem?_concat_length]
  length := by simp [ht.length]

lemma reserve_failed (e : String) : ApiError.storageError ("Failed to reserve port: " ++ e) ≠ noAvailablePorts := by
  intro heq
  have hchars := congrArg String.toList (ApiError.storageError.inj heq)
  rw [String.toList_append] at hchars
  cases hchars

lemma obeys_claimPort {attempts : ℕ} (ht : Tried tunnelId ttl start i h) (hsum : attempts + i = 1000) :
    Obeys (May (.allocatePort tunnelId ttl)) (fun h r => Ends (.allocatePort tunnelId ttl) h (.allocated r))
      (claimPort tunnelId ttl attempts (cyclic start i)).run h := by
  induction attempts generalizing i h with
  | zero =>
    obtain rfl : i = 1000 := by omega
    exact meets_throw fun _ => ⟨start, ht⟩
  | succ attempts ih =>
    refine .call (.inr ⟨start, i, by omega, ht, rfl⟩) ?_
    rintro r h' ⟨t, rfl⟩
    match r with
    | .error e => exact meets_throw fun heq => absurd heq (reserve_failed e)
    | .ok true => exact meets_except_pure ⟨start, i, h, t, by omega, ht, rfl, rfl⟩
    | .ok false =>
      have hnext := ih (ht.snoc t) (by omega)
      rw [← nextPort_cyclic] at hnext
      exact hnext

lemma obeys_program (call : PortCall) : Obeys (May call) (Ends call) call.program [] := by
  cases call with
  | allocatePort tunnelId ttl =>
    refine meets_seq ?_ fun h r hr => meets_pure hr
    refine .call (.inl ⟨rfl, rfl⟩) ?_
    rintro s h' ⟨t, rfl⟩
    have ht : Tried tunnelId ttl s.val 0 [⟨t, .genPort, s⟩] :=
      ⟨s.property, ⟨t, s, rfl, rfl⟩, fun j hj => absurd hj (Nat.not_lt_zero j), rfl⟩
    have hclaim := obeys_claimPort ht (rfl : 1000 + 0 = 1000)
    rw [cyclic_zero s.property] at hclaim
    exact hclaim
  | releasePort =>
    refine .call ⟨rfl, rfl⟩ ?_
    rintro r h' ⟨t, rfl⟩
    cases r <;> exact .ret trivial

end

def storeCommands (h : List Ev) : ℕ := h.countP fun e => match e.cmd with
  | .redis _ => true
  | _ => false

def releases (port : ℕ) (w : PortPool) : Action → Bool
  | .exec _ (.redis (.refused _)) => false
  | .exec tid _ => match w.threads[tid]?.bind (·.prog.next) with
    | some (.redis (.del (.port n))) => n = port
    | _ => false
  | _ => false

abbrev Unreleased (port : ℕ) (w : PortPool) (a : Action) : Prop := releases port w a = false

variable {s0 : PortState} {w : PortPool} {tid port : ℕ} {th : PortThread}

section

variable {w' w1 w2 : PortPool} {a : Action} {call : PortCall} {c : Cmd} {G : PortPool → Action → Prop} {v : Value}
  {d : ℕ} {t : Span PortState}

lemma Tried.storeCommands_le {ttl start i : ℕ} (ht : Tried tunnelId ttl start i h) : storeCommands h ≤ i := by
  obtain ⟨t, s, hdrawn, -⟩ := ht.drawn
  have hlength := ht.length
  obtain _ | ⟨e, es⟩ := h
  · cases hdrawn
  cases hdrawn
  have htail := countP_le_length (p := fun e : Ev => match e.cmd with
    | .redis _ => true
    | _ => false) (l := es)
  rw [length_cons] at hlength
  rw [storeCommands, countP_cons_of_neg (by simp)]
  omega

lemma may_bound (hm : May call h c) : h.length ≤ 1000 ∧ storeCommands h < 1000 := by
  cases call with
  | allocatePort =>
    obtain ⟨rfl, -⟩ | ⟨start, i, hi, ht, -⟩ := hm
    · simp [storeCommands]
    · have hlength := ht.length
      have hcount := ht.storeCommands_le
      omega
  | releasePort =>
    obtain ⟨rfl, -⟩ := hm
    simp [storeCommands]

lemma permitted_bound (hp : Permitted (May call) h) : storeCommands h ≤ 1000 := by
  obtain rfl | ⟨h1, e, rfl⟩ := eq_nil_or_concat' h
  · exact Nat.zero_le _
  have hbefore := (may_bound (hp h1 e [] rfl)).2
  have hlast := countP_le_length (p := fun e : Ev => match e.cmd with
    | .redis _ => true
    | _ => false) (l := [e])
  rw [length_singleton] at hlast
  rw [storeCommands] at hbefore
  rw [storeCommands, countP_append]
  omega

lemma reach_keeps_ports (hr : Reach (step portServer) G ⟨s0, []⟩ w) : Keeps May Ends w.threads := by
  apply reach_keeps obeys_program _ hr
  intro call h
  cases call <;> trivial

lemma progress (hr : Reach (step portServer) G ⟨s0, []⟩ w) (hth : w.threads[tid]? = some th) (hf : th.InFlight) :
    ∃ o, (step portServer w (.exec tid o)).isSome = true := by
  obtain ⟨c, hc⟩ := isSome_iff_exists.mp hf
  have hi := issues_of_next hth hc
  have hm := (reach_keeps_ports hr).may hi
  obtain ⟨-, k, hp⟩ := hi
  have hstep (o : PortChoice) (r : PortState × c.Reply) (h : w.shared.perform c o = some r) :
      (step portServer w (.exec tid o)).isSome = true := by
    rw [step_exec hth hp (show portServer.perform w.shared c o = some (r.1, r.2) from h)]
    rfl
  have hredis (c' : StoreCmd Key Value) (heq : c = .redis c') : ∃ o r, w.shared.perform c o = some r := by
    subst heq
    cases happly : apply w.shared.now (visible w.shared.now w.shared.store) c' <;>
      exact ⟨.redis .ok, _, by simp only [PortState.perform, ExpiringStore.perform, happly]; rfl⟩
  have hperform : ∃ o r, w.shared.perform c o = some r := by
    cases hcall : th.call with
    | allocatePort =>
      rw [hcall] at hm
      obtain ⟨-, rfl⟩ | ⟨start, i, -, -, rfl⟩ := hm
      · exact ⟨.port 10000, (w.shared, ⟨10000, by decide⟩), rfl⟩
      · exact hredis _ rfl
    | releasePort =>
      rw [hcall] at hm
      obtain ⟨-, rfl⟩ := hm
      exact hredis _ rfl
  obtain ⟨o, r, hr⟩ := hperform
  exact ⟨o, hstep o r hr⟩

lemma perform_redis {s s' : PortState} {c : StoreCmd Key Value} {o : PortChoice} {r : Except String c.Reply}
    (h : s.perform (.redis c) o = some (s', r)) : s'.now = s.now ∧
      ∃ o', ExpiringStore.perform s.now (visible s.now s.store) c o' = some (s'.store, r) ∧ o = .redis o' := by
  cases o <;> simp only [PortState.perform, reduceCtorEq] at h
  obtain ⟨⟨store, r'⟩, hp, heq⟩ := map_eq_some_iff.mp h
  cases heq
  exact ⟨rfl, _, hp, rfl⟩

lemma now_step (hs : step portServer w a = some w') : w.shared.now ≤ w'.shared.now := by
  cases step_effect hs with
  | drift drift =>
    rw [← Option.some.inj drift]
    exact Nat.le_add_right _ _
  | arrive accept => exact (congrArg PortState.now (Option.some.inj accept)).le
  | @exec tid o th c k r thread prog perform threads =>
    cases c with
    | redis => exact (perform_redis perform).1.ge
    | genPort =>
      cases o <;> simp only [portServer, PortState.perform, reduceCtorEq] at perform
      split_ifs at perform
      exact (congrArg (fun r => PortState.now r.1) (Option.some.inj perform)).le
    | _ => cases o <;> cases perform
  | cancel thread inFlight shared => exact (congrArg PortState.now shared).ge
  | restart restart => cases restart

lemma claim_step (hk : Keeps May Ends w.threads) (hg : Unreleased port w a) (hs : step portServer w a = some w')
    (hclaim : w.shared.store.lookup (.port port) = some ⟨v, some d⟩) (hnow : w.shared.now < d) :
    w'.shared.store.lookup (.port port) = some ⟨v, some d⟩ := by
  have hvisible : (visible w.shared.now w.shared.store).lookup (.port port) = some ⟨v, some d⟩ := by
    rw [lookup_visible, hclaim]
    simp [Entry.live, hnow]
  cases step_effect hs with
  | drift drift =>
    rw [← Option.some.inj drift]
    exact hclaim
  | arrive accept =>
    rw [← Option.some.inj accept]
    exact hclaim
  | @exec tid o th c k r thread prog perform threads =>
    have hm := hk.may ⟨thread, k, prog⟩
    cases c with
    | genPort =>
      cases o <;> simp only [portServer, PortState.perform, reduceCtorEq] at perform
      split_ifs at perform
      rw [← (Prod.mk.inj (Option.some.inj perform)).1]
      exact hclaim
    | redis c =>
      obtain ⟨-, o', hp, rfl⟩ := perform_redis perform
      rw [← hvisible]
      by_cases hc : c.target = some (.port port)
      · cases hcall : th.call with
        | allocatePort =>
          rw [hcall] at hm
          obtain ⟨-, ⟨⟩⟩ | ⟨start, i, -, -, heq⟩ := hm
          cases heq
          obtain hsame | hset := perform_target hp hc
          · exact hsame
          · rw [hset, hvisible]
            rfl
        | releasePort =>
          rw [hcall] at hm
          obtain ⟨-, heq⟩ := hm
          cases heq
          cases hc
          -- the guard leaves only a deletion that the store has refused
          cases o' with
          | refused => rw [← (Prod.mk.inj (Option.some.inj hp)).1]
          | _ => simp [Unreleased, releases, thread, Prog.next_isSome prog] at hg
      · exact perform_frame hp hc
    | _ => cases o <;> cases perform
  | cancel thread inFlight shared => rw [shared]; exact hclaim
  | restart restart => cases restart

section

variable (hr : Reach (step portServer) Free ⟨s0, []⟩ w1) (hrun : Reach (step portServer) (Unreleased port) w1 w2)
  (hclaim : w1.shared.store.lookup (.port port) = some ⟨v, some d⟩) (hnow : w2.shared.now < d)

include hr hrun hclaim hnow

lemma claim_run : w2.shared.store.lookup (.port port) = some ⟨v, some d⟩ := by
  induction hrun with
  | refl => exact hclaim
  | tail hrun hg hs ih =>
    have hlt := Nat.lt_of_le_of_lt (now_step hs) hnow
    exact claim_step (reach_keeps_ports (hr.trans hrun.free)) hg hs (ih hlt) hlt

lemma taken_before (hth : w2.threads[tid]? = some th) {ttl : ℕ}
    (he : ⟨t, claim port tunnelId ttl, .ok true⟩ ∈ th.history) :
    ∃ u, w1.threads[tid]? = some u ∧ ⟨t, claim port tunnelId ttl, .ok true⟩ ∈ u.history := by
  induction hrun generalizing th with
  | refl => exact ⟨th, hth, he⟩
  | tail hrun hg hs ih =>
    have hlt := Nat.lt_of_le_of_lt (now_step hs) hnow
    obtain ⟨u, hold, -, he⟩ | ⟨o, u, -, -, -, -, -, hp⟩ := event_step hs hth he
    · exact ih hlt hold he
    · obtain ⟨-, o', hset, -⟩ := perform_redis hp
      have hnone := (perform_setNxEx hset).1
      rw [lookup_visible, claim_run hr hrun hclaim hlt] at hnone
      simp [Entry.live, hlt] at hnone

end

lemma taken_finished (hk : Keeps May Ends w.threads) (hth : w.threads[tid]? = some th) {e : Ev}
    (he : e ∈ th.history) {n ttl : ℕ} (heq : e = ⟨t, claim n tunnelId ttl, .ok true⟩) : ¬ th.InFlight := by
  intro hf
  obtain ⟨c, hc⟩ := isSome_iff_exists.mp hf
  have hm := hk.may (issues_of_next hth hc)
  cases hcall : th.call with
  | releasePort =>
    rw [hcall] at hm
    rw [hm.1] at he
    cases he
  | allocatePort =>
    rw [hcall] at hm
    obtain ⟨hnil, -⟩ | ⟨start, i, -, ht, -⟩ := hm
    · rw [hnil] at he
      cases he
    obtain ⟨j, hj⟩ := mem_iff_getElem?.mp he
    have hlt := (List.getElem?_eq_some_iff.mp hj).1
    have hlength := ht.length
    cases j with
    | zero =>
      obtain ⟨t', s, hdrawn, -⟩ := ht.drawn
      rw [hdrawn, heq] at hj
      cases hj
    | succ j =>
      obtain ⟨t', hrefused⟩ := ht.refused j (by omega)
      rw [hrefused, heq] at hj
      cases hj

lemma ends_allocated (hk : Keeps May Ends w.threads) (hth : w.threads[tid]? = some th) {r : Except ApiError ℕ}
    (hret : th.prog = .ret (.allocated r)) :
    ∃ tunnelId ttl, Ends (.allocatePort tunnelId ttl) th.history (.allocated r) := by
  have hends := hk.ends hth hret
  cases hcall : th.call with
  | releasePort =>
    rw [hcall] at hends
    cases hends
  | allocatePort tunnelId ttl =>
    rw [hcall] at hends
    exact ⟨tunnelId, ttl, hends⟩

lemma returned_before (hr : Reach (step portServer) Free ⟨s0, []⟩ w1)
    (hrun : Reach (step portServer) (Unreleased port) w1 w2)
    (hclaim : w1.shared.store.lookup (.port port) = some ⟨v, some d⟩) (hnow : w2.shared.now < d)
    (hth : w2.threads[tid]? = some th) (hret : th.prog = .ret (.allocated (.ok port))) :
    w1.threads[tid]? = some th := by
  obtain ⟨tunnelId, ttl, start, i, h0, t, -, -, -, hhist⟩ :=
    ends_allocated (reach_keeps_ports (hr.trans hrun.free)) hth hret
  have he : ⟨t, claim port tunnelId ttl, .ok true⟩ ∈ th.history := by
    rw [hhist]
    exact mem_concat_self
  obtain ⟨u, hu, he'⟩ := taken_before hr hrun hclaim hnow hth he
  have hkept := finished_run hrun hu (taken_finished (reach_keeps_ports hr) hu he' rfl)
  rw [hu, ← hth, hkept]

end

def Taken (port : ℕ) (th : PortThread) : Prop :=
  ∃ e ∈ th.history, ∃ tunnelId ttl t, e = ⟨t, claim port tunnelId ttl, .ok true⟩ ∧ t.before.claimed port = false

def Refused (port : ℕ) (th : PortThread) : Prop :=
  ∃ e ∈ th.history, ∃ tunnelId ttl t, e = ⟨t, claim port tunnelId ttl, .ok false⟩ ∧ t.before.claimed port = true

section

variable (hr : Reach (step portServer) Free ⟨s0, []⟩ w) (hth : w.threads[tid]? = some th)

include hr hth

lemma returned_taken (hret : th.prog = .ret (.allocated (.ok port))) : 10000 ≤ port ∧ port ≤ 65535 ∧ Taken port th := by
  obtain ⟨tunnelId, ttl, start, i, h0, t, -, -, hport, hhist⟩ := ends_allocated (reach_keeps_ports hr) hth hret
  have he : ⟨t, claim port tunnelId ttl, .ok true⟩ ∈ th.history := by
    rw [hhist]
    exact mem_concat_self
  obtain ⟨o, hp⟩ := event_performed hr hth he
  obtain ⟨-, o', hset, -⟩ := perform_redis hp
  have hrange := cyclic_range start i
  rw [← hport] at hrange
  refine ⟨hrange.1, hrange.2, _, he, tunnelId, ttl, t, rfl, ?_⟩
  rw [PortState.claimed, (perform_setNxEx hset).1]
  rfl

lemma failed_refused (hret : th.prog = .ret (.allocated (.error noAvailablePorts))) :
    ∃ start, 10000 ≤ start ∧ start < 65535 ∧ ∀ i < 1000, Refused (cyclic start i) th := by
  obtain ⟨tunnelId, ttl, hends⟩ := ends_allocated (reach_keeps_ports hr) hth hret
  obtain ⟨start, ht⟩ := hends rfl
  refine ⟨start, ht.inRange.1, ht.inRange.2, ?_⟩
  intro i hi
  obtain ⟨t, hrefused⟩ := ht.refused i hi
  have he := mem_of_getElem? hrefused
  obtain ⟨o, hp⟩ := event_performed hr hth he
  obtain ⟨-, o', hset, -⟩ := perform_redis hp
  exact ⟨_, he, tunnelId, ttl, t, rfl, perform_setNxEx_held hset⟩

end

def Takes (port deadline : ℕ) (w w' : PortPool) : Prop :=
  ∃ tid o th u tunnelId ttl, Issues w tid th (claim port tunnelId ttl) ∧ step portServer w (.exec tid o) = some w' ∧
    w'.threads[tid]? = some u ∧ u.prog = .ret (.allocated (.ok port)) ∧ deadline = w.shared.now + ttl * second

lemma takes_claim {s0 : PortState} {w w' : PortPool} {port d : ℕ} (hr : Reach (step portServer) Free ⟨s0, []⟩ w')
    (ht : Takes port d w w') : ∃ v, w'.shared.store.lookup (.port port) = some ⟨v, some d⟩ := by
  obtain ⟨tid, o, th, u, tunnelId, ttl, hi, hs, hu, hret, rfl⟩ := ht
  obtain ⟨k, r, -, hperf, hu'⟩ := exec_step hs hi
  obtain rfl := mem_unique hu hu'
  obtain ⟨tunnelId', ttl', start, i, h0, t, -, -, -, hhist⟩ := ends_allocated (reach_keeps_ports hr) hu hret
  cases (append_inj' hhist rfl).2
  obtain ⟨-, o', hset, -⟩ := perform_redis hperf
  exact ⟨_, (perform_setNxEx hset).2⟩

theorem port_allocation (s0 : PortState) (w : PortPool) (hr : Reach (step portServer) Free ⟨s0, []⟩ w) :
    (∀ (tid : ℕ) (th : PortThread), w.threads[tid]? = some th →
      storeCommands th.history ≤ 1000 ∧
      (th.InFlight → storeCommands th.history < 1000 ∧ th.history.length ≤ 1000 ∧
        ∃ o, (step portServer w (.exec tid o)).isSome = true) ∧
      (∀ port, th.prog = .ret (.allocated (.ok port)) → 10000 ≤ port ∧ port ≤ 65535 ∧ Taken port th) ∧
      (th.prog = .ret (.allocated (.error noAvailablePorts)) →
        ∃ start, 10000 ≤ start ∧ start < 65535 ∧ ∀ i < 1000, Refused (cyclic start i) th)) ∧
    ∀ (w1 w2 : PortPool) (port deadline : ℕ), Takes port deadline w w1 →
      Reach (step portServer) (Unreleased port) w1 w2 → w2.shared.now < deadline →
      ∀ (tid : ℕ) (th : PortThread), w2.threads[tid]? = some th → th.prog = .ret (.allocated (.ok port)) →
        w1.threads[tid]? = some th := by
  constructor
  · intro tid th hth
    refine ⟨permitted_bound (reach_keeps_ports hr tid th hth).1, ?_, fun port hret => returned_taken hr hth hret,
      failed_refused hr hth⟩
    intro hf
    obtain ⟨c, hc⟩ := isSome_iff_exists.mp hf
    have hbound := may_bound ((reach_keeps_ports hr).may (issues_of_next hth hc))
    exact ⟨hbound.2, hbound.1, progress hr hth hf⟩
  · intro w1 w2 port deadline ht hrun hnow tid th hth hret
    have hr1 : Reach (step portServer) Free ⟨s0, []⟩ w1 := by
      obtain ⟨tid', o, -, -, -, -, -, hs, -⟩ := ht
      exact hr.tail trivial hs
    obtain ⟨v, hclaim⟩ := takes_claim hr1 ht
    exact returned_before hr1 hrun hclaim hnow hth hret

namespace Contention

def begin : PortPool := ⟨⟨1700000000 * second, ∅⟩, []⟩

def drawn : List Action := [.arrive (.allocatePort "a" 60), .exec 0 (.port 65534)]

def contended : List Action :=
  [.arrive (.allocatePort "b" 60), .exec 1 (.port 65534), .drift (59 * second), .exec 1 (.redis .ok), .exec 1 (.redis .ok)]

def returned (port : ℕ) (th : PortThread) : Bool := match th.prog with
  | .ret (.allocated (.ok n)) => n = port
  | _ => false

lemma returned_iff {port : ℕ} {th : PortThread} (h : returned port th = true) : th.prog = .ret (.allocated (.ok port)) := by
  unfold returned at h
  split at h
  · rename_i n heq
    rw [heq, decide_eq_true_eq.mp h]
  · cases h

def claims (port : ℕ) (tunnelId : String) (ttl : ℕ) : Cmd → Bool
  | .redis (.setNxEx (.port n) (.text id) t) => n = port && id = tunnelId && t = ttl
  | _ => false

lemma claims_eq {port ttl : ℕ} {tunnelId : String} {c : Cmd} (h : claims port tunnelId ttl c = true) :
    c = claim port tunnelId ttl := by
  unfold claims at h
  split at h
  · simp only [Bool.and_eq_true, decide_eq_true_eq] at h
    rw [h.1.1, h.1.2, h.2]
  · cases h

def taking (w : PortPool) : Bool := (w.threads[0]?.bind (·.prog.next)).any (claims 65534 "a" 60)

def shared (w : PortPool) : Bool := w.threads[0]?.any (returned 65534) && w.threads[1]?.any (returned 65535) &&
  decide (w.shared.now < 1700000060 * second)

end Contention

open Contention

theorem port_allocation_contended : ∃ w w1 w2 th0 th1, Reach (step portServer) Free begin w ∧
    Takes 65534 (1700000060 * second) w w1 ∧ Reach (step portServer) (Unreleased 65534) w1 w2 ∧
    w2.threads[0]? = some th0 ∧ th0.prog = .ret (.allocated (.ok 65534)) ∧ w1.threads[0]? = some th0 ∧
    w2.threads[1]? = some th1 ∧ th1.prog = .ret (.allocated (.ok 65535)) ∧ Taken 65535 th1 := by
  obtain ⟨w, hr, hp⟩ := reach_of_check (step portServer) Free begin drawn
    (fun w => decide (w.shared.now + 60 * second = 1700000060 * second) && taking w &&
      (step portServer w (.exec 0 (.redis .ok))).any fun w1 => w1.threads[0]?.any (returned 65534) &&
        (runs (step portServer) (Unreleased 65534) w1 contended).any shared) (by decide +kernel)
  simp only [Bool.and_eq_true, decide_eq_true_eq, Option.any_eq_true, taking, shared, Option.bind_eq_some_iff] at hp
  obtain ⟨⟨hnow, c, ⟨th, hth, hc⟩, hclaims⟩, w1, hs, ⟨u, hu, hret⟩, w2, hrun, ⟨⟨th0, hth0, hret0⟩, th1, hth1, hret1⟩, hlate⟩ :=
    hp
  rw [claims_eq hclaims] at hc
  have htakes : Takes 65534 (1700000060 * second) w w1 :=
    ⟨0, _, th, u, "a", 60, issues_of_next hth hc, hs, hu, returned_iff hret, hnow.symm⟩
  have hrun' := reach_of_runs hrun
  have hr2 := (hr.tail trivial hs).trans hrun'.free
  obtain ⟨-, -, htaken, -⟩ := (port_allocation _ w2 hr2).1 1 th1 hth1
  exact ⟨w, w1, w2, th0, th1, hr, htakes, hrun', hth0, returned_iff hret0,
    (port_allocation _ w hr).2 w1 w2 _ _ htakes hrun' hlate 0 th0 hth0 (returned_iff hret0), hth1, returned_iff hret1,
    (htaken 65535 (returned_iff hret1)).2.2⟩

end FleetingDns.PortAllocation
