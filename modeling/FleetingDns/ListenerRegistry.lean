import FleetingDns.HubSteps
namespace FleetingDns.ListenerRegistry

open CommandPrograms ExpiringStore ThreadPool GuardedRuns World Hub FleetingDns.Task Option AList List

variable {config : Config} {w w' : World} {a : Action} {K : FleetingDns.Task → Bool} {hub hub' : Hub} {sid port : ℕ}

structure Fades (K : FleetingDns.Task → Bool) : Prop where
  ages : ∀ {task task' : FleetingDns.Task}, task.Ages task' → K task' = true → K task = true
  stops : ∀ task : FleetingDns.Task, K { task with running := false } = false

lemma fades_listening : Fades listening where
  ages h := h.listening
  stops _ := rfl

lemma fades_running : Fades running where
  ages h := h.running
  stops _ := rfl

def handlesOf (hub : Hub) (sid port : ℕ) : Option (List ℕ) :=
  hub.sessions[sid]?.bind fun session => session.forwardListeners.lookup port

structure Registered (K : Task → Bool) (hub : Hub) : Prop where
  listed : ∀ (i : ℕ) (task : Task), hub.tasks[i]? = some task → K task = true →
    ∃ handles, handlesOf hub task.session task.port = some handles ∧ i ∈ handles
  owned : ∀ (sid port : ℕ) (handles : List ℕ) (i : ℕ), handlesOf hub sid port = some handles → i ∈ handles →
    ∃ task, hub.tasks[i]? = some task ∧ task.session = sid ∧ task.port = port

lemma handlesOf_set {session1 : SshSession} {session0 : SshSession} (h0 : hub.sessions[sid]? = some session0)
    (h : hub'.sessions = hub.sessions.set sid session1) (sid' port' : ℕ) :
    handlesOf hub' sid' port' = if sid' = sid then session1.forwardListeners.lookup port' else handlesOf hub sid' port' := by
  unfold handlesOf
  rw [h]
  by_cases hs : sid' = sid
  · subst hs
    rw [if_pos rfl, List.getElem?_set_self (List.getElem?_eq_some_iff.mp h0).1]
    rfl
  · rw [if_neg hs, List.getElem?_set_ne (Ne.symm hs)]

lemma handlesOf_some {handles : List ℕ} : handlesOf hub sid port = some handles ↔
    ∃ session, hub.sessions[sid]? = some session ∧ session.forwardListeners.lookup port = some handles := by
  rw [handlesOf, bind_eq_some_iff]

lemma handlesOf_close (h : hub.closeSlot sid port = some hub') (sid' port' : ℕ) :
    handlesOf hub' sid' port' = if sid' = sid ∧ port' = port then none else handlesOf hub sid' port' := by
  obtain ⟨session, handles, hs, -, rfl⟩ := closeSlot_some h
  rw [handlesOf_set hs rfl]
  by_cases hsid : sid' = sid
  · subst hsid
    by_cases hp : port' = port
    · subst hp
      simp
    · rw [if_pos rfl, if_neg (fun hc => hp hc.2), lookup_erase_ne hp, handlesOf, hs]
      rfl
  · rw [if_neg hsid, if_neg (fun hc => hsid hc.1)]

variable {now : ℕ} {policy : TeardownPolicy} {live : Option String} {task : Task}

lemma handlesOf_open (h : hub.openSlot now sid port policy live = some hub') :
    ∃ session, hub.sessions[sid]? = some session ∧
      hub'.tasks = hub.tasks ++ hub.spawned now sid port session.clientCertificateSerial policy live ∧
      ∀ sid' port', handlesOf hub' sid' port' = if sid' = sid ∧ port' = port then
        some (List.range' hub.tasks.length (hub.spawned now sid port session.clientCertificateSerial policy live).length)
        else handlesOf hub sid' port' := by
  obtain ⟨session, tasks, handles, hs, rfl, rfl, rfl⟩ := openSlot_some h
  refine ⟨session, hs, rfl, fun sid' port' => ?_⟩
  rw [handlesOf_set hs rfl]
  by_cases hsid : sid' = sid
  · subst hsid
    by_cases hp : port' = port
    · subst hp
      simp
    · rw [if_pos rfl, if_neg (fun hc => hp hc.2), lookup_insert_ne hp, handlesOf, hs]
      rfl
  · rw [if_neg hsid, if_neg (fun hc => hsid hc.1)]

lemma registered_aged (hK : Fades K) (hr : Registered K hub) (haged : hub.Aged hub')
    (hh : ∀ sid port, handlesOf hub' sid port = handlesOf hub sid port) : Registered K hub' := by
  constructor
  · intro i task' ht hk
    obtain ⟨task, ht0, hages⟩ := haged.before ht
    obtain ⟨handles, hl, hi⟩ := hr.listed i task ht0 (hK.ages hages hk)
    exact ⟨handles, by rw [hh, hages.session, hages.port, hl], hi⟩
  · intro sid port handles i hl hi
    obtain ⟨task, ht, hs, hp⟩ := hr.owned sid port handles i (hh sid port ▸ hl) hi
    obtain ⟨task', ht', hages⟩ := haged.after ht
    exact ⟨task', ht', hages.session.trans hs, hages.port.trans hp⟩

lemma registered_close (hK : Fades K) (hr : Registered K hub) (h : hub.closeSlot sid port = some hub') :
    Registered K hub' := by
  have haged := aged_closeSlot h
  obtain ⟨session, handles, hs, hh, heq⟩ := closeSlot_some h
  constructor
  · intro i task' ht hk
    obtain ⟨task, ht0, hages⟩ := haged.before ht
    obtain ⟨handles', hl, hi⟩ := hr.listed i task ht0 (hK.ages hages hk)
    refine ⟨handles', ?_, hi⟩
    rw [handlesOf_close h, hages.session, hages.port]
    split_ifs with hsame
    · -- a task of the closed slot was aborted
      rw [hsame.1, hsame.2, handlesOf, hs] at hl
      cases hh.symm.trans hl
      rw [heq, getElem?_abort, ht0, map_some, if_pos hi, Option.some.injEq] at ht
      rw [← ht, hK.stops] at hk
      cases hk
    · exact hl
  intro sid' port' handles' i hl hi
  rw [handlesOf_close h] at hl
  split_ifs at hl
  obtain ⟨task, ht, hs', hp⟩ := hr.owned sid' port' handles' i hl hi
  obtain ⟨task', ht', hages⟩ := haged.after ht
  exact ⟨task', ht', hages.session.trans hs', hages.port.trans hp⟩

lemma spawned_place {boundAs : Option String} (h : task ∈ hub.spawned now sid port boundAs policy live) :
    task.session = sid ∧ task.port = port := by
  simp only [spawned, mem_append, mem_singleton, List.mem_map] at h
  obtain (rfl | ⟨id, -, rfl⟩) | h := h
  · exact ⟨rfl, rfl⟩
  · exact ⟨rfl, rfl⟩
  · split_ifs at h
    · rw [mem_singleton] at h
      subst h
      exact ⟨rfl, rfl⟩
    · cases h

lemma registered_open (hr : Registered K hub) (hfree : ∀ task ∈ hub.tasks, K task = true → task.port ≠ port)
    (h : hub.openSlot now sid port policy live = some hub') : Registered K hub' := by
  obtain ⟨session, hs, htasks, hh⟩ := handlesOf_open h
  constructor
  · intro i task ht hk
    rw [htasks, List.getElem?_append] at ht
    rw [hh]
    split_ifs at ht with hlt
    · have hport := hfree task (mem_of_getElem? ht) hk
      rw [if_neg (fun hc => hport hc.2)]
      exact hr.listed i task ht hk
    · obtain ⟨hsid, hp⟩ := spawned_place (mem_of_getElem? ht)
      have hbound := (List.getElem?_eq_some_iff.mp ht).1
      rw [if_pos ⟨hsid, hp⟩]
      exact ⟨_, rfl, mem_range'_1.mpr ⟨by omega, by omega⟩⟩
  intro sid' port' handles i hl hi
  rw [htasks]
  rw [hh] at hl
  split_ifs at hl with hsame
  · cases hl
    obtain ⟨hle, hlt⟩ := mem_range'_1.mp hi
    have hget := List.getElem?_eq_getElem (l := hub.spawned now sid port session.clientCertificateSerial policy live)
      (i := i - hub.tasks.length) (by omega)
    refine ⟨_, (List.getElem?_append_right hle).trans hget, ?_⟩
    rw [hsame.1, hsame.2]
    exact spawned_place (getElem_mem _)
  · obtain ⟨task, ht, hplace⟩ := hr.owned sid' port' handles i hl hi
    exact ⟨task, (List.getElem?_append_left (List.getElem?_eq_some_iff.mp ht).1).trans ht, hplace⟩

lemma handlesOf_setSession {f : SshSession → SshSession}
    (hf : ∀ session, (f session).forwardListeners = session.forwardListeners) (sid' port' : ℕ) :
    handlesOf (hub.setSession sid f) sid' port' = handlesOf hub sid' port' := by
  unfold handlesOf
  rw [getElem?_setSession]
  cases hub.sessions[sid']? with
  | none => rfl
  | some =>
    rw [map_some, bind_some, bind_some]
    split_ifs
    · rw [hf]
    · rfl

lemma registered_dropSession (hK : Fades K) (hr : Registered K hub) (sid : ℕ) : Registered K (hub.dropSession sid) := by
  have hclosed : Registered K (hub.closeAll sid (hub.ports sid)) :=
    closeAll_induct (fun _ _ _ hr hc => registered_close hK hr hc) _ hr
  exact registered_aged hK hclosed (aged_of_tasks rfl) (handlesOf_setSession fun _ => rfl)

lemma registered_cancel (hK : Fades K) (hr : Registered K hub) (sid port : ℕ) :
    Registered K (hub.cancelTcpipForward sid port).1 := by
  unfold cancelTcpipForward
  cases hc : hub.closeSlot sid (port % 65536) with
  | none => exact hr
  | some => exact registered_close hK hr hc

lemma handlesOf_connect (peer : SocketAddr) (sid' port' : ℕ) :
    handlesOf { hub with sessions := hub.sessions ++ [⟨peer, none, ∅, true⟩] } sid' port' = handlesOf hub sid' port' := by
  unfold handlesOf
  rw [List.getElem?_append]
  split_ifs with hlt
  · rfl
  · rw [List.getElem?_eq_none (l := hub.sessions) (by omega), List.getElem?_singleton]
    split_ifs <;> rfl

lemma registered_step (hK : Fades K) (hr : Registered K w.shared.hub) (h : step config w a = some w')
    (hfree : ∀ p, w.shared.hub.bound p = false → ∀ task ∈ w.shared.hub.tasks, K task = true → task.port ≠ p) :
    Registered K w'.shared.hub := by
  cases hub_step h with
  | same eq => exact eq ▸ hr
  | connect eq =>
    rw [eq]
    exact registered_aged hK hr (aged_of_tasks rfl) (handlesOf_connect _)
  | bind issues call port_eq free opens => exact registered_open hr (hfree _ free) opens
  | authenticated thread inFlight session call eq =>
    rw [eq]
    exact registered_aged hK hr (aged_of_tasks rfl) (handlesOf_setSession fun _ => rfl)
  | sshEnd idle eq => exact eq ▸ registered_dropSession hK hr _
  | cancel idle eq => exact eq ▸ registered_cancel hK hr _ _
  | reap reaps =>
    obtain ⟨handles, -, heq⟩ := reaperPoll_some reaps
    rw [heq]
    exact registered_aged hK hr (aged_abort rfl) (fun _ _ => rfl)
  | activity eq =>
    rw [eq]
    exact registered_aged hK hr (aged_setActivity _ _ _) (fun _ _ => rfl)

lemma registered_empty : Registered K Hub.empty := by
  constructor
  · rintro i task ⟨⟩
  · rintro sid port handles i ⟨⟩

lemma unbound_listening {p : ℕ} (hb : hub.bound p = false) (ht : task ∈ hub.tasks) (hl : task.listening = true) :
    task.port ≠ p := by
  intro hp
  have hbound : hub.bound p = true := any_eq_true.mpr ⟨task, ht, by simp [hl, hp]⟩
  rw [hb] at hbound
  cases hbound

lemma reach_registered {G : World → Action → Prop} (h : Reach (step config) G (init now) w) :
    Registered listening w.shared.hub := by
  induction h with
  | refl => exact registered_empty
  | tail _ _ hstep ih => exact registered_step fades_listening ih hstep fun p hb task ht hl => unbound_listening hb ht hl

section

lemma closeSlot_none (h : hub.closeSlot sid port = none) : handlesOf hub sid port = none := by
  unfold closeSlot at h
  unfold handlesOf
  split at h
  · rename_i hs
    rw [hs]
    rfl
  rename_i session hs
  split at h
  · rename_i hl
    rw [hs]
    exact hl
  · cases h

lemma handlesOf_closeAll (ports : List ℕ) (h : port ∈ ports ∨ handlesOf hub sid port = none) :
    handlesOf (hub.closeAll sid ports) sid port = none := by
  induction ports generalizing hub with
  | nil =>
    obtain h | h := h
    · cases h
    · exact h
  | cons p ports ih =>
    rw [closeAll]
    cases hc : hub.closeSlot sid p with
    | none =>
      apply ih
      obtain h | h := h
      · obtain rfl | h := mem_cons.mp h
        · exact .inr (closeSlot_none hc)
        · exact .inl h
      · exact .inr h
    | some =>
      apply ih
      rw [getD_some, handlesOf_close hc]
      obtain h | h := h
      · obtain rfl | h := mem_cons.mp h
        · exact .inr (if_pos ⟨rfl, rfl⟩)
        · exact .inl h
      · refine .inr ?_
        split_ifs
        · rfl
        · exact h

lemma mem_ports {handles : List ℕ} (h : handlesOf hub sid port = some handles) : port ∈ hub.ports sid := by
  obtain ⟨session, hs, hl⟩ := handlesOf_some.mp h
  rw [ports, hs]
  refine mem_keys.mp ?_
  rw [← lookup_isSome, hl]
  rfl

lemma handlesOf_drop (hub : Hub) (sid sid' port : ℕ) :
    handlesOf (hub.dropSession sid) sid' port = handlesOf (hub.closeAll sid (hub.ports sid)) sid' port :=
  handlesOf_setSession (fun _ => by rfl) sid' port

lemma handlesOf_dropSession (hub : Hub) (sid port : ℕ) : handlesOf (hub.dropSession sid) sid port = none := by
  rw [handlesOf_drop]
  apply handlesOf_closeAll
  cases h : handlesOf hub sid port with
  | none => exact .inr rfl
  | some => exact .inl (mem_ports h)

def Gone (w : World) (sid : ℕ) : Prop :=
  (∃ session, w.shared.hub.sessions[sid]? = some session ∧ session.connected = false) ∧
    ∀ port, handlesOf w.shared.hub sid port = none

lemma handlesOf_closed (h : hub.closeSlot sid port = some hub') {sid' port' : ℕ} (hn : handlesOf hub sid' port' = none) :
    handlesOf hub' sid' port' = none := by
  rw [handlesOf_close h]
  split_ifs
  · rfl
  · exact hn

lemma gone_step (hh : Handlers w) (hg : Gone w sid) (h : step config w a = some w') : Gone w' sid := by
  obtain ⟨⟨session, hs, hconn⟩, hnone⟩ := hg
  constructor
  · obtain ⟨session', hs', -, hc | ⟨-, hidle⟩⟩ := session_step h hs
    · exact ⟨session', hs', hc.trans hconn⟩
    · obtain ⟨⟨session0, hs0, hconn0⟩, -⟩ := idle_iff.mp hidle
      rw [hs, Option.some.injEq] at hs0
      rw [← hs0, hconn] at hconn0
      cases hconn0
  intro port
  cases hub_step h with
  | same eq => rw [eq, hnone]
  | connect eq => rw [eq, handlesOf_connect, hnone]
  | @bind tid o th sid' requested _ p serial live policy issues call port_eq free opens =>
    obtain ⟨session0, hs0, -, heq⟩ := handlesOf_open opens
    rw [heq, if_neg, hnone]
    rintro ⟨rfl, -⟩
    obtain ⟨session1, hs1, hconn1, -⟩ := hh.attended tid th sid issues.1 issues.inFlight (by rw [call]; rfl)
    rw [hs, Option.some.injEq] at hs1
    rw [← hs1, hconn] at hconn1
    cases hconn1
  | authenticated thread inFlight session call eq =>
    rw [eq, ← hnone port]
    exact handlesOf_setSession (fun _ => by rfl) sid port
  | sshEnd idle eq =>
    rw [eq, handlesOf_drop]
    exact closeAll_induct (fun _ _ _ hn hc => handlesOf_closed hc hn) _
      (hnone port)
  | @cancel sid' port' idle eq =>
    rw [eq, cancelTcpipForward]
    cases hc : w.shared.hub.closeSlot sid' (port' % 65536) with
    | none => exact hnone port
    | some => exact handlesOf_closed hc (hnone port)
  | reap reaps =>
    obtain ⟨handles, -, heq⟩ := reaperPoll_some reaps
    rw [heq]
    exact hnone port
  | activity eq => rw [eq]; exact hnone port

lemma gone_sshEnd (h : step config w (.sshEnd sid) = some w') : Gone w' sid := by
  simp only [step] at h
  split_ifs at h with hidle
  cases h
  obtain ⟨⟨session, hs, -⟩, -⟩ := idle_iff.mp hidle
  obtain ⟨session', hs', -⟩ := attends_closeAll w.shared.hub sid (w.shared.hub.ports sid) sid session hs
  refine ⟨⟨{ session' with connected := false }, ?_, rfl⟩, handlesOf_dropSession _ _⟩
  change (w.shared.hub.dropSession sid).sessions[sid]? = _
  rw [dropSession, getElem?_setSession, hs', map_some, if_pos rfl]

lemma reach_gone {G : World → Action → Prop} {now : ℕ} (h : Reach (step config) G (init now) w) (hg : Gone w sid)
    (h' : Reach (step config) G w w') : Gone w' sid := by
  induction h' with
  | refl => exact hg
  | tail hr _ hstep ih => exact gone_step (reach_handlers (h.trans hr)) ih hstep

lemma gone_silent (hr : Registered listening w.shared.hub) (hg : Gone w sid) {task : Task}
    (ht : task ∈ w.shared.hub.tasks) (hs : task.session = sid) : task.listening = false := by
  by_contra hl
  obtain ⟨i, hi⟩ := List.getElem?_of_mem ht
  obtain ⟨handles, hh, -⟩ := hr.listed i task hi (Bool.eq_true_of_not_eq_false hl)
  rw [hs, hg.2] at hh
  cases hh

end

lemma closed_exactly (hr : Registered listening hub) (h : hub.closeSlot sid port = some hub') {i : ℕ}
    (ht : hub.tasks[i]? = some task) : ∃ task', hub'.tasks[i]? = some task' ∧
      (task'.listening = true ↔ task.listening = true ∧ ¬ (task.session = sid ∧ task.port = port)) := by
  obtain ⟨session, handles, hs, hh, rfl⟩ := closeSlot_some h
  have hhandles : handlesOf hub sid port = some handles := handlesOf_some.mpr ⟨session, hs, hh⟩
  refine ⟨_, by rw [getElem?_abort, ht, map_some], ?_⟩
  split_ifs with hi
  · obtain ⟨task0, ht0, hplace⟩ := hr.owned sid port handles i hhandles hi
    rw [ht, Option.some.injEq] at ht0
    subst ht0
    exact ⟨by rintro ⟨⟩, fun hc => absurd hplace hc.2⟩
  · refine ⟨fun hl => ⟨hl, ?_⟩, And.left⟩
    rintro ⟨rfl, rfl⟩
    obtain ⟨handles', hh', hi'⟩ := hr.listed i task ht hl
    rw [hhandles, Option.some.injEq] at hh'
    exact hi (hh' ▸ hi')

lemma cancelled_exactly (hr : Registered listening hub) (sid port : ℕ) {i : ℕ} (ht : hub.tasks[i]? = some task) :
    ∃ task', (hub.cancelTcpipForward sid port).1.tasks[i]? = some task' ∧
      (task'.listening = true ↔ task.listening = true ∧ ¬ (task.session = sid ∧ task.port = port % 65536)) := by
  unfold cancelTcpipForward
  cases hc : hub.closeSlot sid (port % 65536) with
  | none =>
    refine ⟨task, ht, fun hl => ⟨hl, ?_⟩, And.left⟩
    rintro ⟨rfl, hp⟩
    obtain ⟨handles, hh, -⟩ := hr.listed i task ht hl
    rw [hp, closeSlot_none hc] at hh
    cases hh
  | some => exact closed_exactly hr hc ht

theorem no_zombie_listeners {now : ℕ} (h : Reach (step config) Free (init now) w) :
    (∀ (i : ℕ) (task : Task), w.shared.hub.tasks[i]? = some task → task.listening = true →
      ∃ session handles, w.shared.hub.sessions[task.session]? = some session ∧
        session.forwardListeners.lookup task.port = some handles ∧ i ∈ handles) ∧
    (∀ sid w1 w2, step config w (.sshEnd sid) = some w1 → Reach (step config) Free w1 w2 →
      ∀ task ∈ w2.shared.hub.tasks, task.session = sid → task.listening = false) ∧
    ∀ sid port w1, step config w (.cancelTcpipForward sid port) = some w1 → ∀ (i : ℕ) (task : Task),
      w.shared.hub.tasks[i]? = some task → ∃ task', w1.shared.hub.tasks[i]? = some task' ∧
        (task'.listening = true ↔ task.listening = true ∧ ¬ (task.session = sid ∧ task.port = port % 65536)) := by
  have hr := reach_registered h
  refine ⟨?_, ?_, ?_⟩
  · intro i task ht hl
    obtain ⟨handles, hh, hi⟩ := hr.listed i task ht hl
    obtain ⟨session, hs, hl'⟩ := handlesOf_some.mp hh
    exact ⟨session, handles, hs, hl', hi⟩
  · intro sid w1 w2 hend hrun task ht hs
    have h1 : Reach (step config) Free (init now) w1 := h.tail trivial hend
    exact gone_silent (reach_registered (h1.trans hrun)) (reach_gone h1 (gone_sshEnd hend) hrun) ht hs
  · intro sid port w1 hcancel i task ht
    simp only [step] at hcancel
    split_ifs at hcancel
    cases hcancel
    exact cancelled_exactly hr sid port ht

open Schedule

/-- The forward of a served tunnel is registered; a cancel silences it, and so does the end of its session. -/
theorem no_zombie_listeners_served : ∃ w w1 w2 task, Reach (step deployment) Free start w ∧
    w.shared.hub.tasks[0]? = some task ∧ task.listening = true ∧
    (∃ session handles, w.shared.hub.sessions[task.session]? = some session ∧
      session.forwardListeners.lookup task.port = some handles ∧ 0 ∈ handles) ∧
    step deployment w (.cancelTcpipForward 0 10000) = some w1 ∧
    (∃ task', w1.shared.hub.tasks[0]? = some task' ∧ ¬ task'.listening = true) ∧
    step deployment w (.sshEnd 0) = some w2 ∧
    ∀ task ∈ w2.shared.hub.tasks, task.session = 0 → task.listening = false := by
  obtain ⟨w, hr, hp⟩ := started (serve (request 1800 "demo") 10000 "a" "ka")
    (fun w => w.shared.hub.tasks[0]?.any (fun task : Task => task.listening && decide (task.session = 0 ∧ task.port = 10000)) &&
      (step deployment w (.cancelTcpipForward 0 10000)).isSome && (step deployment w (.sshEnd 0)).isSome)
    (by decide +kernel)
  simp only [Bool.and_eq_true, Option.any_eq_true, decide_eq_true_eq, Option.isSome_iff_exists] at hp
  obtain ⟨⟨⟨task, ht, hl, hs⟩, w1, h1⟩, w2, h2⟩ := hp
  obtain ⟨hlisted, hended, hcancelled⟩ := no_zombie_listeners hr
  obtain ⟨task', ht', hsilent⟩ := hcancelled 0 10000 w1 h1 0 task ht
  exact ⟨w, w1, w2, task, hr, ht, hl, hlisted 0 task ht hl, h1, ⟨task', ht', fun hl' => (hsilent.mp hl').2 hs⟩, h2,
    hended 0 w2 w2 h2 .refl⟩

end FleetingDns.ListenerRegistry
