import FleetingDns.WorldSteps
namespace FleetingDns

open CommandPrograms ExpiringStore ThreadPool Option List Shared Hub

def Job.role : Job → Job
  | .accept boundAs tunnel _ => .accept boundAs tunnel ⟨0, 0⟩
  | job => job

lemma Job.role_accept {job : Job} {boundAs tunnel : Option String} {activity : SlotActivity}
    (h : job.role = (Job.accept boundAs tunnel activity).role) : ∃ activity', job = .accept boundAs tunnel activity' := by
  cases job with
  | accept b t activity' => cases h; exact ⟨activity', rfl⟩
  | _ => cases h

lemma Job.isAccept_role (job : Job) : job.role.isAccept = job.isAccept := by cases job <;> rfl

structure Task.Ages (task task' : Task) : Prop where
  session : task'.session = task.session
  port : task'.port = task.port
  role : task'.job.role = task.job.role
  running : task'.running = true → task.running = true

lemma Task.Ages.refl (task : Task) : task.Ages task := ⟨rfl, rfl, rfl, id⟩

lemma Task.Ages.trans {t1 t2 t3 : Task} (h : t1.Ages t2) (h' : t2.Ages t3) : t1.Ages t3 :=
  ⟨h'.session.trans h.session, h'.port.trans h.port, h'.role.trans h.role, fun hr => h.running (h'.running hr)⟩

lemma Task.Ages.isAccept {task task' : Task} (h : task.Ages task') : task'.job.isAccept = task.job.isAccept := by
  rw [← Job.isAccept_role, h.role, Job.isAccept_role]

lemma Task.Ages.listening {task task' : Task} (h : task.Ages task') (hl : task'.listening = true) :
    task.listening = true := by
  simp only [Task.listening, Bool.and_eq_true] at hl ⊢
  exact ⟨h.running hl.1, h.isAccept ▸ hl.2⟩

namespace Hub

variable {hub hub' : Hub} {sid port : ℕ}

def Aged (hub hub' : Hub) : Prop :=
  ∀ i : ℕ, hub'.tasks[i]?.isSome = hub.tasks[i]?.isSome ∧
    ∀ task task', hub.tasks[i]? = some task → hub'.tasks[i]? = some task' → task.Ages task'

lemma Aged.refl (hub : Hub) : hub.Aged hub := by
  intro i
  refine ⟨rfl, fun task task' h h' => ?_⟩
  rw [h, Option.some.injEq] at h'
  exact h' ▸ .refl task

lemma Aged.trans {hub1 hub2 hub3 : Hub} (h : hub1.Aged hub2) (h' : hub2.Aged hub3) : hub1.Aged hub3 := by
  intro i
  refine ⟨(h' i).1.trans (h i).1, fun task task3 h1 h3 => ?_⟩
  have hs : hub2.tasks[i]?.isSome = true := by rw [(h i).1, h1]; rfl
  obtain ⟨task2, h2⟩ := isSome_iff_exists.mp hs
  exact ((h i).2 task task2 h1 h2).trans ((h' i).2 task2 task3 h2 h3)

lemma Aged.before (h : hub.Aged hub') {i : ℕ} {task' : Task} (ht : hub'.tasks[i]? = some task') :
    ∃ task, hub.tasks[i]? = some task ∧ task.Ages task' := by
  have hs : hub.tasks[i]?.isSome = true := by rw [← (h i).1, ht]; rfl
  obtain ⟨task, htask⟩ := isSome_iff_exists.mp hs
  exact ⟨task, htask, (h i).2 task task' htask ht⟩

variable {task : Task} {now : ℕ} {policy : TeardownPolicy}

lemma Aged.after (h : hub.Aged hub') {i : ℕ} (ht : hub.tasks[i]? = some task) :
    ∃ task', hub'.tasks[i]? = some task' ∧ task.Ages task' := by
  have hs : hub'.tasks[i]?.isSome = true := by rw [(h i).1, ht]; rfl
  obtain ⟨task', htask⟩ := isSome_iff_exists.mp hs
  exact ⟨task', htask, (h i).2 task task' ht htask⟩

lemma getElem?_abort (tasks : List Task) (handles : List ℕ) (i : ℕ) :
    (abort tasks handles)[i]? = tasks[i]?.map fun task => if i ∈ handles then { task with running := false } else task := by
  rw [abort, List.getElem?_mapIdx]

lemma aged_abort {handles : List ℕ} (h : hub'.tasks = abort hub.tasks handles) : hub.Aged hub' := by
  intro i
  rw [h, getElem?_abort]
  refine ⟨isSome_map, fun task task' ht ht' => ?_⟩
  rw [ht, map_some, Option.some.injEq] at ht'
  subst ht'
  split_ifs
  · exact ⟨rfl, rfl, rfl, by rintro ⟨⟩⟩
  · exact .refl task

lemma aged_of_tasks (h : hub'.tasks = hub.tasks) : hub.Aged hub' := by
  intro i
  rw [h]
  exact Aged.refl hub i

lemma aged_setActivity (hub : Hub) (task : ℕ) (f : SlotActivity → SlotActivity) : hub.Aged (hub.setActivity task f) := by
  intro i
  simp only [setActivity, List.getElem?_modify]
  refine ⟨by simp, fun t t' ht ht' => ?_⟩
  rw [ht] at ht'
  cases ht'
  split_ifs
  · refine ⟨rfl, rfl, ?_, id⟩
    obtain ⟨_, _, job, _⟩ := t
    cases job <;> rfl
  · exact .refl t

lemma closeSlot_some (h : hub.closeSlot sid port = some hub') :
    ∃ session handles, hub.sessions[sid]? = some session ∧ session.forwardListeners.lookup port = some handles ∧
      hub' = ⟨abort hub.tasks handles,
        hub.sessions.set sid { session with forwardListeners := session.forwardListeners.erase port },
        hub.edgeTunnelsOpen - 1⟩ := by
  unfold closeSlot at h
  split at h
  · cases h
  rename_i session hs
  split at h
  · cases h
  · rename_i handles hh
    cases h
    exact ⟨session, handles, hs, hh, rfl⟩

lemma aged_closeSlot (h : hub.closeSlot sid port = some hub') : hub.Aged hub' := by
  obtain ⟨session, handles, -, -, rfl⟩ := closeSlot_some h
  exact aged_abort rfl

lemma closeAll_induct {I : Hub → Prop} (hclose : ∀ hub hub' port, I hub → hub.closeSlot sid port = some hub' → I hub')
    (ports : List ℕ) {hub : Hub} (h : I hub) : I (hub.closeAll sid ports) := by
  induction ports generalizing hub with
  | nil => exact h
  | cons port ports ih =>
    rw [closeAll]
    cases hc : hub.closeSlot sid port with
    | none => exact ih h
    | some hub' => exact ih (hclose hub hub' port h hc)

lemma aged_dropSession (hub : Hub) (sid : ℕ) : hub.Aged (hub.dropSession sid) :=
  (closeAll_induct (I := hub.Aged) (fun _ _ _ h hc => h.trans (aged_closeSlot hc)) _ (.refl hub)).trans (aged_of_tasks rfl)

lemma aged_cancelTcpipForward (hub : Hub) (sid port : ℕ) : hub.Aged (hub.cancelTcpipForward sid port).1 := by
  unfold cancelTcpipForward
  cases hc : hub.closeSlot sid (port % 65536) with
  | none => exact .refl hub
  | some => exact aged_closeSlot hc

lemma openSlot_some {live : Option String} (h : hub.openSlot now sid port policy live = some hub') :
    ∃ session tasks handles,
      hub.sessions[sid]? = some session ∧
      tasks = hub.spawned now sid port session.clientCertificateSerial policy live ∧
      handles = List.range' hub.tasks.length tasks.length ∧ hub' = ⟨hub.tasks ++ tasks,
        hub.sessions.set sid { session with forwardListeners := session.forwardListeners.insert port handles },
        hub.edgeTunnelsOpen + 1⟩ := by
  unfold openSlot at h
  split at h
  · cases h
  · rename_i session hs
    cases h
    exact ⟨session, _, _, hs, rfl, rfl, rfl⟩

lemma getElem?_setSession (hub : Hub) (sid : ℕ) (f : SshSession → SshSession) (i : ℕ) :
    (hub.setSession sid f).sessions[i]? = hub.sessions[i]?.map fun session => if sid = i then f session else session := by
  rw [setSession, List.getElem?_modify]
  rfl

lemma spawned_accept {boundAs boundAs' live tunnelId : Option String} {activity : SlotActivity}
    (ht : task ∈ hub.spawned now sid port boundAs policy live) (hj : task.job = .accept boundAs' tunnelId activity) :
    task = ⟨sid, port, .accept boundAs live (.new now), true⟩ := by
  simp only [spawned, mem_append, mem_singleton, List.mem_map] at ht
  obtain (rfl | ⟨id, -, rfl⟩) | ht := ht
  · rfl
  · cases hj
  · split_ifs at ht
    · rw [mem_singleton] at ht
      subst ht
      cases hj
    · cases ht

lemma reaperPoll_some {task : ℕ} (h : hub.reaperPoll now task = some hub') :
    ∃ handles, hub.reaped now task = some handles ∧ hub' = { hub with tasks := abort hub.tasks handles } := by
  simp only [reaperPoll, map_eq_some_iff] at h
  obtain ⟨handles, hr, rfl⟩ := h
  exact ⟨handles, hr, rfl⟩

def Attends (hub hub' : Hub) : Prop := ∀ (sid : ℕ) (session : SshSession), hub.sessions[sid]? = some session →
  ∃ session', hub'.sessions[sid]? = some session' ∧
    session'.clientCertificateSerial = session.clientCertificateSerial ∧ session'.connected = session.connected

lemma Attends.refl (hub : Hub) : hub.Attends hub := fun _ session hs => ⟨session, hs, rfl, rfl⟩

lemma Attends.trans {hub1 hub2 hub3 : Hub} (h : hub1.Attends hub2) (h' : hub2.Attends hub3) : hub1.Attends hub3 := by
  intro sid session hs
  obtain ⟨session2, hs2, hc, hn⟩ := h sid session hs
  obtain ⟨session3, hs3, hc', hn'⟩ := h' sid session2 hs2
  exact ⟨session3, hs3, hc'.trans hc, hn'.trans hn⟩

lemma attends_set {session0 session1 : SshSession} (h0 : hub.sessions[sid]? = some session0)
    (h : hub'.sessions = hub.sessions.set sid session1)
    (hc : session1.clientCertificateSerial = session0.clientCertificateSerial)
    (hn : session1.connected = session0.connected) : hub.Attends hub' := by
  intro i session hs
  rw [h]
  by_cases hi : sid = i
  · subst hi
    rw [h0, Option.some.injEq] at hs
    subst hs
    exact ⟨session1, List.getElem?_set_self (List.getElem?_eq_some_iff.mp h0).1, hc, hn⟩
  · exact ⟨session, (List.getElem?_set_ne hi).trans hs, rfl, rfl⟩

lemma attends_closeSlot (h : hub.closeSlot sid port = some hub') : hub.Attends hub' := by
  obtain ⟨session, handles, hs, -, rfl⟩ := closeSlot_some h
  exact attends_set hs rfl rfl rfl

lemma attends_closeAll (hub : Hub) (sid : ℕ) (ports : List ℕ) : hub.Attends (hub.closeAll sid ports) :=
  closeAll_induct (fun _ _ _ h hc => h.trans (attends_closeSlot hc)) ports (.refl hub)

lemma attends_cancelTcpipForward (hub : Hub) (sid port : ℕ) : hub.Attends (hub.cancelTcpipForward sid port).1 := by
  unfold cancelTcpipForward
  cases hc : hub.closeSlot sid (port % 65536) with
  | none => exact .refl hub
  | some => exact attends_closeSlot hc

end Hub

namespace World

variable {config : Config} {w w' : World} {a : Action}

inductive HubEffect (w : World) (hub' : Hub) : Action → Prop
  | same {a : Action} (eq : hub' = w.shared.hub) : HubEffect w hub' a
  | connect {peer : SocketAddr}
      (eq : hub' = { w.shared.hub with sessions := w.shared.hub.sessions ++ [⟨peer, none, ∅, true⟩] }) :
      HubEffect w hub' (.sshConnect peer)
  | bind {tid : ℕ} {o : Choice} {th : CallThread} {sid requested port p : ℕ} {serial live : Option String}
      {policy : TeardownPolicy} (issues : w.Issues tid th (.bindSlot port policy live))
      (call : th.call = .tcpipForward sid serial requested) (port_eq : port ≠ 0 → p = port)
      (free : w.shared.hub.bound p = false)
      (opens : w.shared.hub.openSlot w.shared.now sid p policy live = some hub') : HubEffect w hub' (.exec tid o)
  | authenticated {tid : ℕ} {o : Choice} {th : CallThread} {sid : ℕ} {serial : Option String}
      (thread : w.threads[tid]? = some th) (inFlight : th.InFlight) (session : th.call.session = some sid)
      (call : ∀ serial' port, th.call ≠ .tcpipForward sid serial' port)
      (eq : hub' = w.shared.hub.setSession sid fun session => { session with clientCertificateSerial := serial }) :
      HubEffect w hub' (.exec tid o)
  | sshEnd {sid : ℕ} (idle : w.idle sid = true) (eq : hub' = w.shared.hub.dropSession sid) :
      HubEffect w hub' (.sshEnd sid)
  | cancel {sid port : ℕ} (idle : w.idle sid = true) (eq : hub' = (w.shared.hub.cancelTcpipForward sid port).1) :
      HubEffect w hub' (.cancelTcpipForward sid port)
  | reap {task : ℕ} (reaps : w.shared.hub.reaperPoll w.shared.now task = some hub') : HubEffect w hub' (.reaperPoll task)
  | activity {a : Action} {task : ℕ} {f : SlotActivity → SlotActivity} (eq : hub' = w.shared.hub.setActivity task f) :
      HubEffect w hub' a

lemma settle_hub (call : Call) (s : Shared) (p : Program Done) :
    (settle complete call s p).hub = s.hub ∨ ∃ sid serial, call.session = some sid ∧
      (∀ serial' port, call ≠ .tcpipForward sid serial' port) ∧
      (settle complete call s p).hub =
        s.hub.setSession sid fun session => { session with clientCertificateSerial := serial } := by
  cases p with
  | call => exact .inl rfl
  | ret a =>
    cases call with
    | authPublickey sid =>
      cases a with
      | authenticated auth serial' => exact .inr ⟨sid, serial', rfl, by rintro _ _ ⟨⟩, rfl⟩
      | _ => exact .inl rfl
    | _ => exact .inl rfl

lemma hub_step (h : step config w a = some w') : HubEffect w w'.shared.hub a := by
  cases a with
  | tick => cases h; exact .same rfl
  | lapse =>
    simp only [step, map_eq_some_iff] at h
    obtain ⟨store, -, rfl⟩ := h
    exact .same rfl
  | arrive =>
    simp only [step] at h
    split_ifs at h
    cases h
    exact .same rfl
  | exec tid =>
    simp only [step, map_eq_some_iff] at h
    obtain ⟨⟨s', ts⟩, he, rfl⟩ := h
    obtain ⟨th, c, k, s, r, hth, hp, hr, rfl, rfl⟩ := exec_cases he
    have hi : w.Issues tid th c := ⟨hth, k, hp⟩
    by_cases hc : ∃ port policy live, c = .bindSlot port policy live
    · obtain ⟨port, policy, live, rfl⟩ := hc
      obtain ⟨reply, hb⟩ := perform_bind hr
      obtain ⟨-, ⟨rfl, -⟩ | ⟨sid, serial, requested, p, hub, -, hcall, hport, hfree, hopen, rfl⟩⟩ := bind_eq hb
      · obtain hs | ⟨sid, serial, hsid, hne, hs⟩ := settle_hub th.call w.shared (k r)
        · exact .same hs
        · exact .authenticated hth hi.inFlight hsid hne hs
      · obtain hs | ⟨sid', serial', hsid, hne, -⟩ := settle_hub th.call { w.shared with hub := hub } (k r)
        · exact .bind hi hcall hport hfree (hopen.trans (congrArg some hs.symm))
        · rw [hcall] at hsid hne
          cases hsid
          exact absurd rfl (hne _ _)
    · have hhub := (perform_frame hr).2.2.2 fun port policy live he => hc ⟨port, policy, live, he⟩
      obtain hs | ⟨sid, serial, hsid, hne, hs⟩ := settle_hub th.call s (k r)
      · exact .same (hs.trans hhub)
      · exact .authenticated hth hi.inFlight hsid hne (hhub ▸ hs)
  | cancel =>
    simp only [step, map_eq_some_iff] at h
    obtain ⟨th, -, rfl⟩ := h
    exact .same rfl
  | sshConnect => cases h; exact .connect rfl
  | sshEnd =>
    simp only [step] at h
    split_ifs at h with hidle
    cases h
    exact .sshEnd hidle rfl
  | cancelTcpipForward =>
    simp only [step] at h
    split_ifs at h with hidle
    cases h
    exact .cancel hidle rfl
  | heartbeat =>
    simp only [step, bind_eq_some_iff, markTunnelLive, map_eq_some_iff] at h
    obtain ⟨tunnelId, -, ⟨store, r⟩, -, rfl⟩ := h
    exact .same rfl
  | reaperPoll =>
    simp only [step, map_eq_some_iff] at h
    obtain ⟨hub, hr, rfl⟩ := h
    exact .reap hr
  | viewerOpened | viewerClosed =>
    simp only [step] at h
    split_ifs at h
    cases h
    exact .activity rfl

lemma tasks_step (h : step config w a = some w') :
    w.shared.hub.Aged w'.shared.hub ∨ ∃ tid o th sid serial requested port policy live p session, a = .exec tid o ∧
      w.Issues tid th (.bindSlot port policy live) ∧ th.call = .tcpipForward sid serial requested ∧
      (port ≠ 0 → p = port) ∧ w.shared.hub.bound p = false ∧ w.shared.hub.sessions[sid]? = some session ∧
      w'.shared.hub.tasks = w.shared.hub.tasks ++
        w.shared.hub.spawned w.shared.now sid p session.clientCertificateSerial policy live := by
  cases hub_step h with
  | same eq => exact .inl (eq ▸ .refl _)
  | connect eq => exact .inl (aged_of_tasks (by rw [eq]))
  | bind issues call port_eq free opens =>
    obtain ⟨session, tasks, handles, hs, rfl, rfl, heq⟩ := openSlot_some opens
    exact .inr ⟨_, _, _, _, _, _, _, _, _, _, session, rfl, issues, call, port_eq, free, hs, by rw [heq]⟩
  | authenticated thread inFlight session call eq => exact .inl (aged_of_tasks (by rw [eq]; rfl))
  | sshEnd idle eq => exact .inl (eq ▸ aged_dropSession _ _)
  | cancel idle eq => exact .inl (eq ▸ aged_cancelTcpipForward _ _ _)
  | reap reaps =>
    obtain ⟨handles, -, heq⟩ := reaperPoll_some reaps
    exact .inl (aged_abort (by rw [heq]))
  | activity eq => exact .inl (eq ▸ aged_setActivity _ _ _)

def Authenticates (w : World) (a : Action) (sid : ℕ) : Prop :=
  ∃ tid o th, a = .exec tid o ∧ w.threads[tid]? = some th ∧ th.InFlight ∧ th.call.session = some sid ∧
    ∀ serial port, th.call ≠ .tcpipForward sid serial port

variable {sid : ℕ} {session : SshSession}

lemma session_step (h : step config w a = some w') (hs : w.shared.hub.sessions[sid]? = some session) :
    ∃ session', w'.shared.hub.sessions[sid]? = some session' ∧
      (session'.clientCertificateSerial = session.clientCertificateSerial ∨ w.Authenticates a sid) ∧
      (session'.connected = session.connected ∨ (a = .sshEnd sid ∧ w.idle sid = true)) := by
  have hkept : w.shared.hub.Attends w'.shared.hub → ∃ session', w'.shared.hub.sessions[sid]? = some session' ∧
      (session'.clientCertificateSerial = session.clientCertificateSerial ∨ w.Authenticates a sid) ∧
      (session'.connected = session.connected ∨ (a = .sshEnd sid ∧ w.idle sid = true)) := by
    intro hatt
    obtain ⟨session', hs', hc, hn⟩ := hatt sid session hs
    exact ⟨session', hs', .inl hc, .inl hn⟩
  cases hub_step h with
  | same eq => exact hkept (eq ▸ .refl _)
  | connect eq =>
    have hlt := (List.getElem?_eq_some_iff.mp hs).1
    exact ⟨session, by rw [eq, List.getElem?_append_left hlt, hs], .inl rfl, .inl rfl⟩
  | bind issues call port_eq free opens =>
    obtain ⟨session0, tasks, handles, hs0, -, -, heq⟩ := openSlot_some opens
    have hsessions : w'.shared.hub.sessions = _ := congrArg sessions heq
    exact hkept (attends_set hs0 hsessions rfl rfl)
  | @authenticated tid o th sid' serial thread inFlight hsid call eq =>
    rw [eq, getElem?_setSession, hs, map_some]
    refine ⟨_, rfl, ?_⟩
    by_cases hi : sid' = sid
    · subst hi
      exact ⟨.inr ⟨tid, o, th, rfl, thread, inFlight, hsid, call⟩, .inl (by rw [if_pos rfl])⟩
    · rw [if_neg hi]
      exact ⟨.inl rfl, .inl rfl⟩
  | @sshEnd sid' idle eq =>
    obtain ⟨session', hs', hc, hn⟩ := attends_closeAll w.shared.hub sid' (w.shared.hub.ports sid') sid session hs
    rw [eq, dropSession, getElem?_setSession, hs', map_some]
    refine ⟨_, rfl, ?_⟩
    by_cases hi : sid' = sid
    · subst hi
      exact ⟨.inl (by rw [if_pos rfl]; exact hc), .inr ⟨rfl, idle⟩⟩
    · rw [if_neg hi]
      exact ⟨.inl hc, .inl hn⟩
  | cancel idle eq => exact hkept (eq ▸ attends_cancelTcpipForward _ _ _)
  | reap reaps =>
    obtain ⟨handles, -, heq⟩ := reaperPoll_some reaps
    exact ⟨session, by rw [heq]; exact hs, .inl rfl, .inl rfl⟩
  | activity eq => exact ⟨session, by rw [eq]; exact hs, .inl rfl, .inl rfl⟩

structure Handlers (w : World) : Prop where
  lone : ∀ (i j : ℕ) (th u : CallThread) (sid : ℕ), w.threads[i]? = some th → w.threads[j]? = some u → th.InFlight →
    u.InFlight → th.call.session = some sid → u.call.session = some sid → i = j
  attended : ∀ (tid : ℕ) (th : CallThread) (sid : ℕ), w.threads[tid]? = some th → th.InFlight →
    th.call.session = some sid → ∃ session, w.shared.hub.sessions[sid]? = some session ∧ session.connected = true ∧
      ∀ serial port, th.call = .tcpipForward sid serial port → session.clientCertificateSerial = serial

lemma idle_iff : w.idle sid = true ↔ (∃ session, w.shared.hub.sessions[sid]? = some session ∧
    session.connected = true) ∧ ∀ th ∈ w.threads, th.InFlight → th.call.session ≠ some sid := by
  simp only [idle, Bool.and_eq_true, Option.any_eq_true, List.all_eq_true, Thread.InFlight]
  refine and_congr_right fun _ => forall₂_congr fun th _ => ?_
  cases th.prog.next <;> simp

lemma admits_idle {call : Call} (h : w.admits call = true) (hs : call.session = some sid) : w.idle sid = true := by
  cases call <;> cases hs <;> simp only [admits, Bool.and_eq_true] at h <;> exact h.1

lemma handlers_step (hh : Handlers w) (h : step config w a = some w') : Handlers w' := by
  constructor
  · intro i j th u sid hi hj hf hfu hth hu
    have hnew : ∀ {i j : ℕ} {th0 u : CallThread}, w.admits u.call = true → w.threads[i]? = some th0 → th0.InFlight →
        th0.call.session = some sid → u.call.session = some sid → i = j := by
      intro i j th0 u hadm hi hf hth hu
      exact absurd hth ((idle_iff.mp (admits_idle hadm hu)).2 th0 (mem_of_getElem? hi) hf)
    obtain ⟨th0, hi, hf, hc⟩ | ⟨-, hadm, hi'⟩ := flight_step h hi hf <;>
      obtain ⟨u0, hj, hfu, hcu⟩ | ⟨-, hadm', hj'⟩ := flight_step h hj hfu
    · exact hh.lone i j th0 u0 sid hi hj hf hfu (hc ▸ hth) (hcu ▸ hu)
    · exact hnew hadm' hi hf (hc ▸ hth) hu
    · exact (hnew hadm hj hfu (hcu ▸ hu) hth).symm
    · rw [hi', hj']
  intro tid th sid hth hf hsid
  obtain ⟨th0, hth0, hf0, hc⟩ | ⟨ha, hadm, -⟩ := flight_step h hth hf
  · obtain ⟨session, hs, hconn, hserial⟩ := hh.attended tid th0 sid hth0 hf0 (hc ▸ hsid)
    obtain ⟨session', hs', hc', hn'⟩ := session_step h hs
    refine ⟨session', hs', ?_, ?_⟩
    · obtain hn' | ⟨-, hidle⟩ := hn'
      · exact hn'.trans hconn
      · exact absurd (hc ▸ hsid) ((idle_iff.mp hidle).2 th0 (mem_of_getElem? hth0) hf0)
    intro serial port hcall
    obtain hc' | ⟨j, o, u, -, hu, hfu, hus, hne⟩ := hc'
    · exact hc'.trans (hserial serial port (hc.trans hcall))
    · -- only this handler of the session is running, and it does not authenticate
      obtain rfl := hh.lone tid j th0 u sid hth0 hu hf0 hfu (hc ▸ hsid) hus
      rw [hth0, Option.some.injEq] at hu
      subst hu
      exact absurd (hc.trans hcall) (hne serial port)
  obtain ⟨⟨session, hs, hconn⟩, -⟩ := idle_iff.mp (admits_idle hadm hsid)
  have hhub : w'.shared.hub = w.shared.hub := by
    rw [ha] at h
    cases hub_step h with
    | same eq => exact eq
    | activity =>
      simp only [step] at h
      split_ifs at h
      cases h
      rfl
  refine ⟨session, hhub ▸ hs, hconn, fun serial port hcall => ?_⟩
  simp only [hcall, admits, Bool.and_eq_true, hs, any_some, decide_eq_true_eq] at hadm
  exact hadm.2

lemma handlers_init (now : ℕ) : Handlers (init now) := by
  constructor
  · rintro i j th u sid ⟨⟩
  · rintro tid th sid ⟨⟩

open GuardedRuns in
lemma reach_handlers {G : World → Action → Prop} {now : ℕ} (h : Reach (step config) G (init now) w) : Handlers w :=
  h.invariant (J := fun _ => True) (fun _ _ => trivial) (handlers_init now)
    (fun _ _ _ _ hh _ hstep => handlers_step hh hstep)

end World

end FleetingDns
