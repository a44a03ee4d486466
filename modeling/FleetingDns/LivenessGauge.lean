import FleetingDns.ListenerRegistry
import FleetingDns.StoredRecords
import Mathlib.Data.Finset.Card
namespace FleetingDns.LivenessGauge

open CommandPrograms ExpiringStore ThreadPool GuardedRuns World Hub ListenerRegistry FleetingDns.Task Option List

variable {config : Config} {w w' : World} {a : Action} {hub hub' : Hub} {sid port leader : ℕ} {handles : List ℕ}
  {live : Option String}

def listeners (hub : Hub) : Finset ℕ :=
  (Finset.range hub.tasks.length).filter fun i => hub.tasks[i]?.any listening = true

variable {i k now : ℕ} {t : String}

lemma mem_listeners : i ∈ listeners hub ↔ ∃ task, hub.tasks[i]? = some task ∧ task.listening = true := by
  rw [listeners, Finset.mem_filter, Finset.mem_range, Option.any_eq_true]
  refine ⟨And.right, fun h => ⟨?_, h⟩⟩
  obtain ⟨task, ht, -⟩ := h
  exact (List.getElem?_eq_some_iff.mp ht).1

structure Group (hub : Hub) (sid port : ℕ) (handles : List ℕ) (leader : ℕ) (live : Option String) : Prop where
  leads : leader ∈ handles
  accepts : ∃ boundAs activity, hub.tasks[leader]? = some ⟨sid, port, .accept boundAs live activity, true⟩
  members : ∀ i ∈ handles, ∃ task, hub.tasks[i]? = some task ∧ task.running = true ∧
    (task.job.isAccept = true → i = leader) ∧ ∀ t, task.job = .heartbeat t → live = some t
  beats : ∀ t, live = some t → ∃ i ∈ handles, ∃ task, hub.tasks[i]? = some task ∧ task.job = .heartbeat t

structure Truthful (hub : Hub) : Prop where
  registered : Registered running hub
  grouped : ∀ sid port handles, handlesOf hub sid port = some handles → ∃ leader live, Group hub sid port handles leader live
  gauge : hub.edgeTunnelsOpen = (listeners hub).card

def Stays (task task' : Task) : Prop := task.Ages task' ∧ task'.running = task.running

lemma Stays.refl (task : Task) : Stays task task := ⟨.refl task, rfl⟩

lemma role_heartbeat {job : Job} : job.role = .heartbeat t ↔ job = .heartbeat t := by
  cases job <;> simp [Job.role]

lemma Group.kept (hg : Group hub sid port handles leader live)
    (hstay : ∀ i ∈ handles, ∀ task, hub.tasks[i]? = some task → ∃ task', hub'.tasks[i]? = some task' ∧ Stays task task') :
    Group hub' sid port handles leader live := by
  constructor
  · exact hg.leads
  · obtain ⟨boundAs, activity, ht⟩ := hg.accepts
    obtain ⟨⟨sid', port', job', running'⟩, ht', hages, hrun⟩ := hstay leader hg.leads _ ht
    obtain ⟨activity', hj⟩ := Job.role_accept hages.role
    obtain rfl : sid' = sid := hages.session
    obtain rfl : port' = port := hages.port
    obtain rfl : running' = true := hrun
    have hj' : job' = _ := hj
    subst hj'
    exact ⟨boundAs, activity', ht'⟩
  · intro i hi
    obtain ⟨task, ht, hrun, hacc, hbeat⟩ := hg.members i hi
    obtain ⟨task', ht', hages, hrun'⟩ := hstay i hi task ht
    refine ⟨task', ht', hrun'.trans hrun, fun ha => hacc (hages.isAccept ▸ ha), fun t hj => hbeat t ?_⟩
    rw [← role_heartbeat, ← hages.role, role_heartbeat]
    exact hj
  intro t hl
  obtain ⟨i, hi, task, ht, hj⟩ := hg.beats t hl
  obtain ⟨task', ht', hages, -⟩ := hstay i hi task ht
  refine ⟨i, hi, task', ht', ?_⟩
  rw [← role_heartbeat, hages.role, role_heartbeat]
  exact hj

lemma listeners_congr (h : ∀ (i : ℕ) task, hub.tasks[i]? = some task →
    ∃ task', hub'.tasks[i]? = some task' ∧ Stays task task') (haged : hub.Aged hub') : listeners hub' = listeners hub := by
  ext i
  rw [mem_listeners, mem_listeners]
  constructor
  · rintro ⟨task', ht', hl⟩
    obtain ⟨task, ht, hages⟩ := haged.before ht'
    exact ⟨task, ht, hages.listening hl⟩
  · rintro ⟨task, ht, hl⟩
    obtain ⟨task', ht', hages, hrun⟩ := h i task ht
    refine ⟨task', ht', ?_⟩
    rw [listening, hrun, hages.isAccept]
    exact hl

section

variable (ht : Truthful hub) (hh : ∀ sid port, handlesOf hub' sid port = handlesOf hub sid port)

include ht hh

lemma truthful_stays
    (hstay : ∀ (i : ℕ) task, hub.tasks[i]? = some task → ∃ task', hub'.tasks[i]? = some task' ∧ Stays task task')
    (haged : hub.Aged hub') (hgauge : hub'.edgeTunnelsOpen = hub.edgeTunnelsOpen) : Truthful hub' := by
  refine ⟨registered_aged fades_running ht.registered haged hh, ?_, ?_⟩
  · intro sid port handles hl
    obtain ⟨leader, live, hg⟩ := ht.grouped sid port handles (hh sid port ▸ hl)
    exact ⟨leader, live, hg.kept fun i _ task htask => hstay i task htask⟩
  · rw [hgauge, listeners_congr hstay haged, ht.gauge]

lemma truthful_tasks
    (htasks : hub'.tasks = hub.tasks) (hgauge : hub'.edgeTunnelsOpen = hub.edgeTunnelsOpen) : Truthful hub' :=
  truthful_stays ht hh (fun _ task h => ⟨task, htasks ▸ h, .refl task⟩) (aged_of_tasks htasks) hgauge

end

lemma stays_setActivity (task : ℕ) (f : SlotActivity → SlotActivity) {t : Task} (ht : hub.tasks[i]? = some t) :
    ∃ t', (hub.setActivity task f).tasks[i]? = some t' ∧ Stays t t' := by
  obtain ⟨t', ht', hages⟩ := (aged_setActivity hub task f).after ht
  refine ⟨t', ht', hages, ?_⟩
  simp only [setActivity, List.getElem?_modify, ht] at ht'
  cases ht'
  split_ifs <;> rfl

lemma listeners_close (hg : Group hub sid port handles leader live) (htasks : hub'.tasks = abort hub.tasks handles) :
    leader ∈ listeners hub ∧ listeners hub' = (listeners hub).erase leader := by
  obtain ⟨boundAs, activity, hleader⟩ := hg.accepts
  refine ⟨mem_listeners.mpr ⟨_, hleader, rfl⟩, ?_⟩
  ext i
  rw [Finset.mem_erase, mem_listeners, mem_listeners]
  constructor
  · rintro ⟨task', ht', hl⟩
    rw [htasks, getElem?_abort] at ht'
    obtain ⟨task, ht, rfl⟩ := map_eq_some_iff.mp ht'
    split_ifs at hl with hi
    · cases hl
    · refine ⟨?_, task, ht, hl⟩
      rintro rfl
      exact hi hg.leads
  rintro ⟨hne, task, ht, hl⟩
  have hi : i ∉ handles := by
    intro hi
    obtain ⟨task0, ht0, -, hacc, -⟩ := hg.members i hi
    rw [ht, Option.some.injEq] at ht0
    subst ht0
    simp only [listening, Bool.and_eq_true] at hl
    exact hne (hacc hl.2)
  exact ⟨task, by rw [htasks, getElem?_abort, ht, map_some, if_neg hi], hl⟩

lemma truthful_close (ht : Truthful hub) (h : hub.closeSlot sid port = some hub') : Truthful hub' := by
  have hr := registered_close fades_running ht.registered h
  have hclose := handlesOf_close h
  obtain ⟨session, handles, hs, hh, heq⟩ := closeSlot_some h
  have htasks : hub'.tasks = abort hub.tasks handles := by rw [heq]
  have hhandles : handlesOf hub sid port = some handles := handlesOf_some.mpr ⟨session, hs, hh⟩
  obtain ⟨leader, live, hg⟩ := ht.grouped sid port handles hhandles
  refine ⟨hr, ?_, ?_⟩
  · intro sid' port' handles' hl
    rw [hclose] at hl
    split_ifs at hl with hsame
    obtain ⟨leader', live', hg'⟩ := ht.grouped sid' port' handles' hl
    refine ⟨leader', live', hg'.kept fun i hi task htask => ⟨task, ?_, .refl task⟩⟩
    -- the handles of two slots are disjoint
    have hni : i ∉ handles := by
      intro hi'
      obtain ⟨task1, ht1, hs1, hp1⟩ := ht.registered.owned sid' port' handles' i hl hi
      obtain ⟨task2, ht2, hs2, hp2⟩ := ht.registered.owned sid port handles i hhandles hi'
      rw [ht1, Option.some.injEq] at ht2
      subst ht2
      exact hsame ⟨hs1.symm.trans hs2, hp1.symm.trans hp2⟩
    rw [htasks, getElem?_abort, htask, map_some, if_neg hni]
  · obtain ⟨hmem, herase⟩ := listeners_close hg htasks
    have hcard := Finset.card_erase_add_one hmem
    have hgauge : hub'.edgeTunnelsOpen = hub.edgeTunnelsOpen - 1 := by rw [heq]
    rw [herase, hgauge, ht.gauge]
    omega

section

variable {now : ℕ} {boundAs : Option String} {policy : TeardownPolicy}

lemma spawned_head : (hub.spawned now sid port boundAs policy live)[0]? =
    some ⟨sid, port, .accept boundAs live (.new now), true⟩ := rfl

variable {task : Task}

lemma spawned_tail {k : ℕ} (h : (hub.spawned now sid port boundAs policy live)[k + 1]? = some task) :
    task.job.isAccept = false := by
  have hmem : task ∈ live.toList.map (fun tunnelId => ⟨sid, port, .heartbeat tunnelId, true⟩) ++
      if policy = .viewerIdle then [⟨sid, port, .reaper hub.tasks.length policy, true⟩] else [] :=
    List.mem_of_getElem? h
  rw [List.mem_append, List.mem_map] at hmem
  obtain ⟨id, -, rfl⟩ | hmem := hmem
  · rfl
  · split_ifs at hmem
    · rw [List.mem_singleton] at hmem
      subst hmem
      rfl
    · cases hmem

lemma spawned_accepts {k : ℕ} (h : (hub.spawned now sid port boundAs policy live)[k]? = some task) :
    task.job.isAccept = true ↔ k = 0 := by
  cases k with
  | zero =>
    rw [spawned_head, Option.some.injEq] at h
    subst h
    exact ⟨fun _ => rfl, fun _ => rfl⟩
  | succ => simp [spawned_tail h]

lemma spawned_runs (h : task ∈ hub.spawned now sid port boundAs policy live) :
    task.running = true ∧ ∀ t, task.job = .heartbeat t → live = some t := by
  simp only [spawned, List.mem_append, List.mem_singleton, List.mem_map] at h
  obtain (rfl | ⟨id, hid, rfl⟩) | h := h
  · exact ⟨rfl, by rintro t ⟨⟩⟩
  · refine ⟨rfl, ?_⟩
    rintro t ⟨⟩
    exact Option.mem_toList.mp hid
  · split_ifs at h
    · rw [List.mem_singleton] at h
      subst h
      exact ⟨rfl, by rintro t ⟨⟩⟩
    · cases h

lemma spawned_beats {t : String} (h : live = some t) :
    (hub.spawned now sid port boundAs policy live)[1]? = some ⟨sid, port, .heartbeat t, true⟩ := by
  subst h
  rfl

section

variable (htasks : hub'.tasks = hub.tasks ++ hub.spawned now sid port boundAs policy live)

include htasks

lemma group_open :
    Group hub' sid port (List.range' hub.tasks.length (hub.spawned now sid port boundAs policy live).length)
      hub.tasks.length live := by
  have hnew : ∀ k, hub'.tasks[hub.tasks.length + k]? = (hub.spawned now sid port boundAs policy live)[k]? := by
    intro k
    rw [htasks, List.getElem?_append_right (Nat.le_add_right _ _), Nat.add_sub_cancel_left]
  have hin : ∀ k task, (hub.spawned now sid port boundAs policy live)[k]? = some task →
      hub.tasks.length + k ∈ List.range' hub.tasks.length (hub.spawned now sid port boundAs policy live).length := by
    intro k task hk
    have hlt := (List.getElem?_eq_some_iff.mp hk).1
    rw [mem_range'_1]
    omega
  constructor
  · exact hin 0 _ spawned_head
  · exact ⟨boundAs, .new now, (hnew 0).trans spawned_head⟩
  · intro i hi
    rw [mem_range'_1] at hi
    obtain ⟨k, rfl⟩ := Nat.exists_eq_add_of_le hi.1
    obtain ⟨task, htask⟩ : ∃ task, (hub.spawned now sid port boundAs policy live)[k]? = some task :=
      ⟨_, List.getElem?_eq_getElem (by omega)⟩
    have hruns := spawned_runs (mem_of_getElem? htask)
    refine ⟨task, (hnew k).trans htask, hruns.1, fun ha => ?_, hruns.2⟩
    rw [(spawned_accepts htask).mp ha, Nat.add_zero]
  · intro t ht
    exact ⟨_, hin 1 _ (spawned_beats ht), _, (hnew 1).trans (spawned_beats ht), rfl⟩

lemma listeners_open : listeners hub' = insert hub.tasks.length (listeners hub) := by
  ext i
  rw [Finset.mem_insert, mem_listeners, mem_listeners, htasks]
  by_cases hi : i < hub.tasks.length
  · rw [List.getElem?_append_left hi]
    refine ⟨.inr, ?_⟩
    rintro (rfl | h)
    · omega
    · exact h
  obtain ⟨k, rfl⟩ := Nat.exists_eq_add_of_le (Nat.le_of_not_lt hi)
  rw [List.getElem?_append_right (Nat.le_add_right _ _), Nat.add_sub_cancel_left]
  constructor
  · rintro ⟨task, ht, hl⟩
    simp only [listening, Bool.and_eq_true] at hl
    rw [(spawned_accepts ht).mp hl.2]
    exact .inl rfl
  · rintro (hk | ⟨task, ht, -⟩)
    · obtain rfl : k = 0 := by omega
      exact ⟨_, spawned_head, rfl⟩
    · rw [List.getElem?_eq_none (Nat.le_add_right _ _)] at ht
      cases ht

end

lemma truthful_free {p : ℕ} (ht : Truthful hub) (hb : hub.bound p = false) (hmem : task ∈ hub.tasks)
    (hrun : task.running = true) : task.port ≠ p := by
  obtain ⟨i, hi⟩ := List.getElem?_of_mem hmem
  obtain ⟨handles, hh, -⟩ := ht.registered.listed i task hi hrun
  obtain ⟨leader, live, hg⟩ := ht.grouped _ _ handles hh
  obtain ⟨boundAs, activity, hleader⟩ := hg.accepts
  intro hp
  exact unbound_listening hb (mem_of_getElem? hleader) rfl hp

lemma truthful_open (ht : Truthful hub) (hb : hub.bound port = false)
    (h : hub.openSlot now sid port policy live = some hub') : Truthful hub' := by
  have hr := registered_open ht.registered (fun task hmem hrun => truthful_free ht hb hmem hrun) h
  obtain ⟨session, -, htasks, hh⟩ := handlesOf_open h
  obtain ⟨_, _, _, -, -, -, heq⟩ := openSlot_some h
  refine ⟨hr, ?_, ?_⟩
  · intro sid' port' handles hl
    rw [hh] at hl
    split_ifs at hl with hsame
    · obtain ⟨rfl, rfl⟩ := hsame
      rw [Option.some.injEq] at hl
      subst hl
      exact ⟨_, live, group_open htasks⟩
    · obtain ⟨leader, live', hg⟩ := ht.grouped sid' port' handles hl
      refine ⟨leader, live', hg.kept fun i _ task htask => ⟨task, ?_, .refl task⟩⟩
      rw [htasks, List.getElem?_append_left (List.getElem?_eq_some_iff.mp htask).1, htask]
  have hfresh : hub.tasks.length ∉ listeners hub := by
    rw [mem_listeners]
    rintro ⟨task, htask, -⟩
    rw [List.getElem?_eq_none le_rfl] at htask
    cases htask
  have hgauge : hub'.edgeTunnelsOpen = hub.edgeTunnelsOpen + 1 := by rw [heq]
  rw [listeners_open htasks, Finset.card_insert_of_notMem hfresh, hgauge, ht.gauge]
  rfl

end

lemma truthful_drop (ht : Truthful hub) (sid : ℕ) : Truthful (hub.dropSession sid) := by
  have hclosed : Truthful (hub.closeAll sid (hub.ports sid)) :=
    closeAll_induct (fun _ _ _ ht hc => truthful_close ht hc) _ ht
  have hgauge : ∀ ports, ∀ f, ((hub.closeAll sid ports).setSession sid f).edgeTunnelsOpen =
      (hub.closeAll sid ports).edgeTunnelsOpen := fun _ _ => rfl
  exact truthful_tasks hclosed (handlesOf_drop hub sid) rfl (hgauge _ _)

lemma truthful_cancel (ht : Truthful hub) (sid port : ℕ) : Truthful (hub.cancelTcpipForward sid port).1 := by
  unfold cancelTcpipForward
  cases hc : hub.closeSlot sid (port % 65536) with
  | none => exact ht
  | some => exact truthful_close ht hc

def reapsSlot (w : World) (i : ℕ) : Action → Bool
  | .reaperPoll k => (w.shared.hub.tasks[k]?.any fun task => task.running && task.job = .reaper i .viewerIdle) &&
      (w.shared.hub.activityOf i).any fun activity =>
        activity.active = 0 && viewerIdleTeardown ≤ w.shared.now - activity.lastEvent
  | _ => false

def Unreaped (w : World) (a : Action) : Prop := ∀ i < w.shared.hub.tasks.length, reapsSlot w i a = false

instance (w : World) (a : Action) : Decidable (Unreaped w a) :=
  inferInstanceAs (Decidable (∀ i < w.shared.hub.tasks.length, _))

lemma shouldTeardownIdle_iff {policy : TeardownPolicy} {active idle threshold : ℕ} :
    shouldTeardownIdle policy active idle threshold = true ↔ policy = .viewerIdle ∧ active = 0 ∧ threshold ≤ idle := by
  unfold shouldTeardownIdle
  cases policy <;> simp

lemma reapsSlot_iff : reapsSlot w i (.reaperPoll k) = true ↔
    (∃ task, w.shared.hub.tasks[k]? = some task ∧ task.running = true ∧ task.job = .reaper i .viewerIdle) ∧
    ∃ activity, w.shared.hub.activityOf i = some activity ∧ activity.active = 0 ∧
      viewerIdleTeardown ≤ activity.idleFor w.shared.now := by
  simp only [reapsSlot, Bool.and_eq_true, Option.any_eq_true, decide_eq_true_eq, SlotActivity.idleFor]

lemma reaped_cases (h : w.shared.hub.reaped w.shared.now k = some handles) :
    (handles = [] ∧ ∀ i, reapsSlot w i (.reaperPoll k) = false) ∨
    ∃ i, handles = [i, k] ∧ reapsSlot w i (.reaperPoll k) = true := by
  unfold Hub.reaped at h
  split at h
  · rename_i sid port acceptTask policy htask
    split at h
    · rename_i activity hact
      split_ifs at h with hidle <;> cases h
      · obtain ⟨rfl, hactive, hpast⟩ := shouldTeardownIdle_iff.mp hidle
        exact .inr ⟨acceptTask, rfl, reapsSlot_iff.mpr ⟨⟨_, htask, rfl, rfl⟩, activity, hact, hactive, hpast⟩⟩
      refine .inl ⟨rfl, fun i => ?_⟩
      rw [← Bool.not_eq_true, reapsSlot_iff]
      rintro ⟨⟨task, ht, -, hj⟩, activity', hact', hidle'⟩
      rw [htask, Option.some.injEq] at ht
      subst ht
      cases hj
      rw [hact, Option.some.injEq] at hact'
      subst hact'
      exact hidle (shouldTeardownIdle_iff.mpr ⟨rfl, hidle'⟩)
    · cases h
  · cases h

lemma reapsSlot_lt (h : reapsSlot w i a = true) : i < w.shared.hub.tasks.length := by
  cases a with
  | reaperPoll k =>
    obtain ⟨-, activity, hact, -⟩ := reapsSlot_iff.mp h
    unfold activityOf at hact
    split at hact
    · rename_i htask
      exact (List.getElem?_eq_some_iff.mp htask).1
    · cases hact
  | _ => cases h

lemma abort_nil (tasks : List Task) : abort tasks [] = tasks := by
  refine ext_getElem? fun i => ?_
  rw [getElem?_abort]
  simp

lemma truthful_step (ht : Truthful w.shared.hub) (hu : Unreaped w a) (h : step config w a = some w') :
    Truthful w'.shared.hub := by
  cases hub_step h with
  | same eq => exact eq ▸ ht
  | connect eq =>
    rw [eq]
    exact truthful_tasks ht (handlesOf_connect _) rfl rfl
  | bind issues call port_eq free opens => exact truthful_open ht free opens
  | authenticated thread inFlight session call eq =>
    rw [eq]
    exact truthful_tasks ht (handlesOf_setSession fun _ => rfl) rfl rfl
  | sshEnd idle eq => exact eq ▸ truthful_drop ht _
  | cancel idle eq => exact eq ▸ truthful_cancel ht _ _
  | reap reaps =>
    obtain ⟨handles, hr, heq⟩ := reaperPoll_some reaps
    obtain ⟨rfl, -⟩ | ⟨i, -, hi⟩ := reaped_cases hr
    · rw [heq]
      exact truthful_tasks ht (fun _ _ => rfl) (abort_nil _) rfl
    · rw [hu i (reapsSlot_lt hi)] at hi
      cases hi
  | activity eq =>
    rw [eq]
    exact truthful_stays ht (fun _ _ => rfl) (fun _ _ htask => stays_setActivity _ _ htask) (aged_setActivity _ _ _) rfl

lemma truthful_empty : Truthful Hub.empty := ⟨registered_empty, by rintro sid port handles ⟨⟩, rfl⟩

lemma reach_truthful (h : Reach (step config) Unreaped (init now) w) : Truthful w.shared.hub := by
  induction h with
  | refl => exact truthful_empty
  | tail _ hu hstep ih => exact truthful_step ih hu hstep

def Beating (hub : Hub) (t : String) : Prop := ∃ task ∈ hub.tasks, task.running = true ∧ task.job = .heartbeat t

def Listening (hub : Hub) (t : String) : Prop := ∃ task ∈ hub.tasks, task.running = true ∧ task.job.listensFor t = true

lemma beating_iff_listening (ht : Truthful hub) (t : String) : Beating hub t ↔ Listening hub t := by
  constructor
  · rintro ⟨task, hmem, hrun, hj⟩
    obtain ⟨i, hi⟩ := List.getElem?_of_mem hmem
    obtain ⟨handles, hh, hin⟩ := ht.registered.listed i task hi hrun
    obtain ⟨leader, live, hg⟩ := ht.grouped _ _ handles hh
    obtain ⟨task', hi', -, -, hlive⟩ := hg.members i hin
    rw [hi, Option.some.injEq] at hi'
    subst hi'
    obtain ⟨boundAs, activity, hleader⟩ := hg.accepts
    rw [hlive t hj] at hleader
    exact ⟨_, mem_of_getElem? hleader, rfl, by simp [Job.listensFor]⟩
  rintro ⟨⟨sid, port, job, running⟩, hmem, rfl, hj⟩
  obtain ⟨i, hi⟩ := List.getElem?_of_mem hmem
  obtain ⟨handles, hh, hin⟩ := ht.registered.listed i _ hi rfl
  obtain ⟨leader, live, hg⟩ := ht.grouped _ _ handles hh
  obtain ⟨task', hi', -, hacc, -⟩ := hg.members i hin
  rw [hi, Option.some.injEq] at hi'
  subst hi'
  cases job with
  | accept =>
    obtain rfl := hacc rfl
    obtain ⟨boundAs', activity', hleader⟩ := hg.accepts
    rw [hi] at hleader
    cases hleader
    obtain ⟨k, hk, task, htask, hbeat⟩ := hg.beats t (by simpa [Job.listensFor] using hj)
    obtain ⟨task', htask', hrun, -⟩ := hg.members k hk
    rw [htask, Option.some.injEq] at htask'
    subst htask'
    exact ⟨task, mem_of_getElem? htask, hrun, hbeat⟩
  | heartbeat | reaper => cases hj

lemma heartbeatOf_beating (h : hub.heartbeatOf k = some t) : Beating hub t := by
  unfold heartbeatOf at h
  split at h
  · rename_i htask
    cases h
    exact ⟨_, mem_of_getElem? htask, rfl, rfl⟩
  · cases h

lemma live_step (hs : Sane config w) (h : step config w a = some w') {e : Entry Value}
    (he : w'.entry (.tunnelLive t) = some e) : w.entry (.tunnelLive t) = some e ∨
      Beating w.shared.hub t ∧ e.deadline = some (w.shared.now + tunnelLiveTtl * second) := by
  obtain heq | ⟨-, -, hnone⟩ | ⟨tid, o, th, c, rfl, hi, ht, -⟩ | ⟨k, o, id, rfl, hk, hbeat, heq⟩ :=
    entry_step h (.tunnelLive t)
  · exact .inl (heq ▸ he)
  · rw [hnone] at he
    cases he
  · have hm := hs.may hi
    cases c with
    | get | exist | keys => cases ht
    | set | setEx | setNxEx | del | expire =>
      cases ht
      exact absurd (hm _ rfl) (by simp [owned])
  · cases hk
    rw [heq] at he
    cases he
    exact .inr ⟨heartbeatOf_beating hbeat, rfl⟩

instance (hub : Hub) (t : String) : Decidable (Beating hub t) :=
  inferInstanceAs (Decidable (∃ task ∈ hub.tasks, task.running = true ∧ task.job = .heartbeat t))

instance (hub : Hub) (t : String) : Decidable (Listening hub t) :=
  inferInstanceAs (Decidable (∃ task ∈ hub.tasks, task.running = true ∧ task.job.listensFor t = true))

def ExpiresBy (w : World) (t : String) (d : ℕ) : Prop :=
  ∀ e, w.entry (.tunnelLive t) = some e → ∃ d', e.deadline = some d' ∧ d' ≤ d

lemma reach_expiresBy {G : World → Action → Prop} (h : Reach (step config) G (init now) w) (t : String) :
    ExpiresBy w t (w.shared.now + tunnelLiveTtl * second) := by
  induction h with
  | refl => rintro e ⟨⟩
  | tail hr _ hstep ih =>
    intro e he
    have hnow := now_step hstep
    obtain he | ⟨-, hd⟩ := live_step (reach_sane hr) hstep he
    · obtain ⟨d, hd, hle⟩ := ih e he
      exact ⟨d, hd, by omega⟩
    · exact ⟨_, hd, by omega⟩

def Unlistened (t : String) (w : World) (a : Action) : Prop := Unreaped w a ∧ ¬ Listening w.shared.hub t

instance (t : String) (w : World) (a : Action) : Decidable (Unlistened t w a) := inferInstanceAs (Decidable (_ ∧ _))

lemma reach_unlistened {d : ℕ} (h : Reach (step config) Unreaped (init now) w) (hd : ExpiresBy w t d)
    (h' : Reach (step config) (Unlistened t) w w') : ExpiresBy w' t d := by
  suffices Reach (step config) Unreaped (init now) w' ∧ ExpiresBy w' t d from this.2
  induction h' with
  | refl => exact ⟨h, hd⟩
  | tail _ hg hstep ih =>
    obtain ⟨hr, hd⟩ := ih
    refine ⟨hr.tail hg.1 hstep, fun e he => ?_⟩
    obtain he | ⟨hbeat, -⟩ := live_step (reach_sane hr) hstep he
    · exact hd e he
    · exact absurd ((beating_iff_listening (reach_truthful hr) t).mp hbeat) hg.2

theorem liveness_truthful {now : ℕ} (h : Reach (step config) Unreaped (init now) w) :
    (∀ t, Beating w.shared.hub t ↔ Listening w.shared.hub t) ∧
    (∀ t w', Reach (step config) (Unlistened t) w w' → ∀ e, w'.entry (.tunnelLive t) = some e →
      e.live w'.shared.now = true → w'.shared.now < w.shared.now + tunnelLiveTtl * second) ∧
    w.shared.hub.edgeTunnelsOpen = (listeners w.shared.hub).card := by
  have ht := reach_truthful h
  refine ⟨beating_iff_listening ht, ?_, ht.gauge⟩
  intro t w' h' e he hlive
  obtain ⟨d, hd, hle⟩ := reach_unlistened h (reach_expiresBy h t) h' e he
  have hlt := live_iff.mp hlive d hd
  omega

open Schedule

theorem liveness_truthful_cancelled : ∃ w w', Reach (step deployment) Unreaped start w ∧
    Reach (step deployment) (Unlistened "a") w w' ∧ w'.shared.now = w.shared.now + 44 * second ∧
    (∃ e, w'.entry (.tunnelLive "a") = some e ∧ e.live w'.shared.now = true ∧
      w'.shared.now < w.shared.now + tunnelLiveTtl * second) ∧
    w.shared.hub.edgeTunnelsOpen = (listeners w.shared.hub).card := by
  obtain ⟨w, hr, hp⟩ := reach_of_check (step deployment) Unreaped start
    (serve (request 1800 "demo") 10000 "a" "ka" ++ [.heartbeat 1 .ok, .cancelTcpipForward 0 10000])
    (fun w => (runs (step deployment) (Unlistened "a") w [.tick (44 * second)]).any fun w' =>
      w'.shared.now = w.shared.now + 44 * second && (w'.entry (.tunnelLive "a")).any fun e => e.live w'.shared.now)
    (by decide +kernel)
  simp only [Option.any_eq_true, Bool.and_eq_true, decide_eq_true_eq] at hp
  obtain ⟨w', hw', hnow, e, he, hlive⟩ := hp
  have htruth := liveness_truthful hr
  exact ⟨w, w', hr, reach_of_runs hw', hnow, ⟨e, he, hlive, htruth.2.1 "a" w' (reach_of_runs hw') e he hlive⟩, htruth.2.2⟩

/-- The reaper stops the accept task alone: the tunnel goes on being published and counted. -/
theorem reaped_published : ∃ w, Reach (step deployment) Free start w ∧ Beating w.shared.hub "a" ∧
    ¬ Listening w.shared.hub "a" ∧ w.shared.hub.edgeTunnelsOpen = 1 ∧ (listeners w.shared.hub).card = 0 := by
  obtain ⟨w, hr, hp⟩ := started
    (serve { request 1800 "demo" with teardownPolicy := some .viewerIdle } 10000 "a" "ka"
      ++ [.tick (70 * second), .reaperPoll 2])
    (fun w => Beating w.shared.hub "a" && !decide (Listening w.shared.hub "a") && w.shared.hub.edgeTunnelsOpen = 1 &&
      (listeners w.shared.hub).card = 0) (by decide +kernel)
  simp only [Bool.and_eq_true, decide_eq_true_eq, Bool.not_eq_true', decide_eq_false_iff_not] at hp
  obtain ⟨⟨⟨hbeat, hnot⟩, hgauge⟩, hcard⟩ := hp
  exact ⟨w, hr, hbeat, hnot, hgauge, hcard⟩

end FleetingDns.LivenessGauge
