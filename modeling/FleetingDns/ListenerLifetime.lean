import FleetingDns.LivenessGauge
namespace FleetingDns.ListenerLifetime

open CommandPrograms ExpiringStore ThreadPool GuardedRuns World Hub ListenerRegistry LivenessGauge Option FleetingDns.Task

variable {config : Config} {w w' : World} {a : Action} {hub hub' : Hub} {sid i : ℕ} {task : Task} {t : String}

def listensAt (hub : Hub) (i : ℕ) (t : String) : Bool :=
  hub.tasks[i]?.any fun task => task.running && task.job.listensFor t

def periodic : Action → Bool
  | .heartbeat _ _ | .reaperPoll _ => true
  | _ => false

def Follows (config : Config) (w w' : World) (i : ℕ) (t : String) : Prop :=
  w.liveRecord t = none → ∀ w'', Reach (step config) Free w' w'' → listensAt w''.shared.hub i t = false

inductive Closes (w : World) (i : ℕ) (task : Task) : Action → Prop
  | sshEnd : Closes w i task (.sshEnd task.session)
  | cancel {port : ℕ} (port_eq : task.port = port % 65536) : Closes w i task (.cancelTcpipForward task.session port)
  | reap {k : ℕ} (reaps : reapsSlot w i (.reaperPoll k) = true) : Closes w i task (.reaperPoll k)

lemma listensFor_accept {job : Job} (h : job.listensFor t = true) : job.isAccept = true := by
  cases job with
  | accept => rfl
  | heartbeat | reaper => cases h

lemma listensFor_role (job : Job) : job.role.listensFor t = job.listensFor t := by cases job <;> rfl

lemma listensAt_iff : listensAt hub i t = true ↔
    ∃ task, hub.tasks[i]? = some task ∧ task.listening = true ∧ task.job.listensFor t = true := by
  simp only [listensAt, any_eq_true, listening, Bool.and_eq_true]
  constructor
  · rintro ⟨task, ht, hrun, hfor⟩
    exact ⟨task, ht, ⟨hrun, listensFor_accept hfor⟩, hfor⟩
  · rintro ⟨task, ht, ⟨hrun, -⟩, hfor⟩
    exact ⟨task, ht, hrun, hfor⟩

lemma task_step (h : step config w a = some w') (ht : w.shared.hub.tasks[i]? = some task) :
    ∃ task', w'.shared.hub.tasks[i]? = some task' ∧ task.Ages task' := by
  obtain haged | ⟨_, _, _, _, _, _, _, _, _, _, _, -, -, -, -, -, -, htasks⟩ := tasks_step h
  · exact haged.after ht
  · refine ⟨task, ?_, .refl task⟩
    rw [htasks, List.getElem?_append_left (List.getElem?_eq_some_iff.mp ht).1, ht]

lemma dropped_keeps (hr : Registered listening hub) (ht : hub.tasks[i]? = some task) (hl : task.listening = true)
    (hs : task.session ≠ sid) : ∃ task', (hub.dropSession sid).tasks[i]? = some task' ∧ task'.listening = true := by
  let I : Hub → Prop := fun hub' => Registered listening hub' ∧
    ∃ task', hub'.tasks[i]? = some task' ∧ task'.listening = true ∧ task'.session = task.session
  have hclose : ∀ hub1 hub2 port, I hub1 → hub1.closeSlot sid port = some hub2 → I hub2 := by
    rintro hub1 hub2 port ⟨hr1, task1, ht1, hl1, hs1⟩ hc
    obtain ⟨task2, ht2, hiff⟩ := closed_exactly hr1 hc ht1
    have hages := (aged_closeSlot hc i).2 task1 task2 ht1 ht2
    refine ⟨registered_close fades_listening hr1 hc, task2, ht2, hiff.mpr ⟨hl1, ?_⟩, hages.session.trans hs1⟩
    rintro ⟨hsid, -⟩
    exact hs (hs1.symm.trans hsid)
  have hstart : I hub := ⟨hr, task, ht, hl, rfl⟩
  obtain ⟨-, task', ht', hl', -⟩ := closeAll_induct hclose (hub.ports sid) hstart
  exact ⟨task', ht', hl'⟩

lemma reaped_keeps {k : ℕ} (h : w.shared.hub.reaperPoll w.shared.now k = some hub')
    (ht : w.shared.hub.tasks[i]? = some task) (hl : task.listening = true) :
    reapsSlot w i (.reaperPoll k) = true ∨ hub'.tasks[i]? = some task := by
  obtain ⟨handles, hreaped, rfl⟩ := reaperPoll_some h
  obtain ⟨rfl, -⟩ | ⟨j, rfl, hj⟩ := reaped_cases hreaped
  · exact .inr ((abort_nil _).symm ▸ ht)
  by_cases hij : i = j
  · subst hij
    exact .inl hj
  -- the aborted tasks are the accept task of another slot and the reaper itself
  have hik : i ≠ k := by
    rintro rfl
    obtain ⟨⟨task', ht', -, hjob⟩, -⟩ := reapsSlot_iff.mp hj
    rw [ht, Option.some.injEq] at ht'
    subst ht'
    simp [listening, hjob, Job.isAccept] at hl
  right
  rw [getElem?_abort, ht, map_some, if_neg (by simp [hij, hik])]

lemma listening_step (hr : Registered listening w.shared.hub) (h : step config w a = some w')
    (ht : w.shared.hub.tasks[i]? = some task) (hl : task.listening = true) :
    Closes w i task a ∨ ∃ task', w'.shared.hub.tasks[i]? = some task' ∧ task'.listening = true := by
  cases hub_step h with
  | same eq => exact .inr ⟨task, eq ▸ ht, hl⟩
  | connect eq => exact .inr ⟨task, by rw [eq]; exact ht, hl⟩
  | bind issues call port_eq free opens =>
    obtain ⟨session, -, htasks, -⟩ := handlesOf_open opens
    refine .inr ⟨task, ?_, hl⟩
    rw [htasks, List.getElem?_append_left (List.getElem?_eq_some_iff.mp ht).1, ht]
  | authenticated thread inFlight session call eq => exact .inr ⟨task, by rw [eq]; exact ht, hl⟩
  | @sshEnd sid idle eq =>
    by_cases hs : task.session = sid
    · subst hs
      exact .inl .sshEnd
    · rw [eq]
      exact .inr (dropped_keeps hr ht hl hs)
  | @cancel sid port idle eq =>
    by_cases hplace : task.session = sid ∧ task.port = port % 65536
    · obtain ⟨rfl, hp⟩ := hplace
      exact .inl (.cancel hp)
    · obtain ⟨task', ht', hiff⟩ := cancelled_exactly hr sid port ht
      rw [eq]
      exact .inr ⟨task', ht', hiff.mpr ⟨hl, hplace⟩⟩
  | @reap k reaps =>
    obtain hreap | ht' := reaped_keeps reaps ht hl
    · exact .inl (.reap hreap)
    · exact .inr ⟨task, ht', hl⟩
  | activity eq =>
    obtain ⟨task', ht', hages, hrun⟩ := stays_setActivity _ _ ht
    refine .inr ⟨task', eq ▸ ht', ?_⟩
    rw [listening, hrun, hages.isAccept]
    exact hl

lemma reaps_stopped (h : step config w a = some w') (hr : reapsSlot w i a = true) :
    ∃ task, w'.shared.hub.tasks[i]? = some task ∧ task.running = false := by
  cases a with
  | reaperPoll k =>
    simp only [step, map_eq_some_iff] at h
    obtain ⟨hub', hpoll, rfl⟩ := h
    obtain ⟨handles, hreaped, rfl⟩ := reaperPoll_some hpoll
    obtain ⟨-, hno⟩ | ⟨j, rfl, hj⟩ := reaped_cases hreaped
    · rw [hno i] at hr
      cases hr
    -- a reaper task watches one accept task
    have hij : i = j := by
      obtain ⟨⟨task, ht, -, hjob⟩, -⟩ := reapsSlot_iff.mp hr
      obtain ⟨⟨task', ht', -, hjob'⟩, -⟩ := reapsSlot_iff.mp hj
      rw [ht, Option.some.injEq] at ht'
      subst ht'
      rw [hjob] at hjob'
      cases hjob'
      rfl
    subst hij
    obtain ⟨task, ht⟩ : ∃ task, w.shared.hub.tasks[i]? = some task :=
      ⟨_, List.getElem?_eq_getElem (reapsSlot_lt hr)⟩
    refine ⟨{ task with running := false }, ?_, rfl⟩
    change (abort w.shared.hub.tasks [i, k])[i]? = _
    rw [getElem?_abort, ht, map_some, if_pos List.mem_cons_self]
  | _ => cases hr

lemma stopped_run {G : World → Action → Prop} (h : Reach (step config) G w w')
    (hs : ∃ task, w.shared.hub.tasks[i]? = some task ∧ task.running = false) :
    ∃ task, w'.shared.hub.tasks[i]? = some task ∧ task.running = false := by
  induction h with
  | refl => exact hs
  | tail _ _ hstep ih =>
    obtain ⟨task, ht, hrun⟩ := ih
    obtain ⟨task', ht', hages⟩ := task_step hstep ht
    refine ⟨task', ht', ?_⟩
    by_contra hrun'
    rw [hages.running (Bool.eq_true_of_not_eq_false hrun')] at hrun
    cases hrun

lemma listensAt_step {now : ℕ} (h : Reach (step config) Free (init now) w) (hl : listensAt w.shared.hub i t = true)
    (hp : periodic a = true) (hstep : step config w a = some w') (hr : reapsSlot w i a = false) :
    listensAt w'.shared.hub i t = true := by
  obtain ⟨task, ht, hlisten, hfor⟩ := listensAt_iff.mp hl
  obtain hclose | ⟨task', ht', hlisten'⟩ := listening_step (reach_registered h) hstep ht hlisten
  · cases hclose with
    | sshEnd | cancel => cases hp
    | reap hreaps =>
      rw [hr] at hreaps
      cases hreaps
  · obtain ⟨task1, ht1, hages⟩ := task_step hstep ht
    rw [ht', Option.some.injEq] at ht1
    subst ht1
    exact listensAt_iff.mpr ⟨task', ht', hlisten', by rw [← listensFor_role, hages.role, listensFor_role, hfor]⟩

theorem follows_record {now : ℕ} (h : Reach (step config) Free (init now) w) (hl : listensAt w.shared.hub i t = true)
    (hp : periodic a = true) (hstep : step config w a = some w') :
    Follows config w w' i t ↔ (w.liveRecord t).isSome = true ∨ reapsSlot w i a = true := by
  constructor
  · intro hfollows
    by_cases hlive : w.liveRecord t = none
    · right
      by_contra hr
      have hkept := listensAt_step h hl hp hstep (Bool.eq_false_of_not_eq_true hr)
      rw [hfollows hlive w' .refl] at hkept
      cases hkept
    · exact .inl (isSome_iff_ne_none.mpr hlive)
  · rintro (hlive | hr) hdead w'' hrun
    · rw [hdead] at hlive
      cases hlive
    · obtain ⟨task, ht, hstopped⟩ := stopped_run hrun (reaps_stopped hstep hr)
      rw [listensAt, ht, any_some, hstopped, Bool.false_and]

open Schedule

theorem follows_record_reaped : ∃ w w', Reach (step deployment) Free start w ∧ listensAt w.shared.hub 0 "a" = true ∧
    periodic (.reaperPoll 2) = true ∧ step deployment w (.reaperPoll 2) = some w' ∧ w.liveRecord "a" = none ∧
    ∀ w'', Reach (step deployment) Free w' w'' → listensAt w''.shared.hub 0 "a" = false := by
  obtain ⟨w, hr, hp⟩ := started
    (serve { request 1800 "demo" with teardownPolicy := some .viewerIdle } 10000 "a" "ka"
      ++ [.tick (1801 * second), .lapse (.tunnel "a")])
    (fun w => listensAt w.shared.hub 0 "a" && (w.liveRecord "a").isNone && reapsSlot w 0 (.reaperPoll 2) &&
      (step deployment w (.reaperPoll 2)).isSome) (by decide +kernel)
  simp only [Bool.and_eq_true, isNone_iff_eq_none, isSome_iff_exists] at hp
  obtain ⟨⟨⟨hl, hdead⟩, hreaps⟩, w', hstep⟩ := hp
  exact ⟨w, w', hr, hl, rfl, hstep, hdead, (follows_record hr hl rfl hstep).mpr (.inr hreaps) hdead⟩

/-- The default policy has no reaper: past the TTL the heartbeat still publishes the tunnel of an open listener. -/
theorem outlives_record : ∃ w w', Reach (step deployment) Free start w ∧ w.liveRecord "a" = none ∧
    periodic (.heartbeat 1 .ok) = true ∧ step deployment w (.heartbeat 1 .ok) = some w' ∧
    listensAt w'.shared.hub 0 "a" = true ∧ w'.idle 0 = true := by
  obtain ⟨w, hr, hp⟩ := started
    (serve (request 1800 "demo") 10000 "a" "ka" ++ [.tick (1801 * second), .lapse (.tunnel "a")])
    (fun w => (w.liveRecord "a").isNone && (step deployment w (.heartbeat 1 .ok)).any fun w' =>
      listensAt w'.shared.hub 0 "a" && w'.idle 0) (by decide +kernel)
  simp only [Bool.and_eq_true, isNone_iff_eq_none, any_eq_true] at hp
  obtain ⟨hdead, w', hstep, hl, hidle⟩ := hp
  exact ⟨w, w', hr, hdead, rfl, hstep, hl, hidle⟩

end FleetingDns.ListenerLifetime
