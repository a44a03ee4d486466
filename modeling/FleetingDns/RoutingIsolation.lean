import FleetingDns.Library.ExclusiveUse
import FleetingDns.HubSteps
import FleetingDns.Origins
import FleetingDns.SubdomainClaims
namespace FleetingDns.RoutingIsolation

open CommandPrograms ExpiringStore ThreadPool GuardedRuns ExclusiveUse World Origins SubdomainClaims List

variable {config : Config} {w w' : World} {a : Action} {n : ℕ} {i : Option String}

def consults : Call → Bool
  | .tcpipForward _ _ _ | .route _ => true
  | _ => false

/-- Who a slot number stands for: the record, the listener or the lookup under way that carries it. -/
inductive Uses (w : World) (n : ℕ) : Option String → Prop
  | record {id : String} {tunnel : Tunnel} {d : Option ℕ} : w.entry (.tunnel id) = some ⟨.tunnel tunnel, d⟩ →
      tunnel.slot = n → Uses w n (some tunnel.id)
  | listener {k : ℕ} {task : Task} {boundAs tunnelId : Option String} {activity : SlotActivity} :
      w.shared.hub.tasks[k]? = some task → task.running = true → task.job = .accept boundAs tunnelId activity →
      task.port = n → Uses w n boundAs
  | reader {tid : ℕ} {th : CallThread} {id : String} {tunnel : Tunnel} : w.threads[tid]? = some th → th.InFlight →
      consults th.call = true → Read th.history id tunnel → tunnel.slot = n → Uses w n (some tunnel.id)

def recordWith (n : ℕ) (key : Key) (e : Entry Value) : Bool :=
  match key with
  | .tunnel _ => e.value.asTunnel.any (·.slot == n)
  | _ => false

def slotUsed (w : World) (n : ℕ) : Bool :=
  (w.shared.store.entries.any fun x => recordWith n x.1 x.2) || w.shared.hub.bound n ||
    w.threads.any fun th => consults th.call && th.prog.next.isSome &&
      th.history.any fun e => (recordRead e).any (·.slot == n)

/-- A record is stored only once nothing is left that uses its slot. -/
def SlotUnused (w : World) (a : Action) : Prop := ∀ x ∈ w.storing a, slotUsed w x.tunnel.slot = false

instance : ∀ w a, Decidable (SlotUnused w a) := by
  intro w a
  unfold SlotUnused
  infer_instance

lemma used_of_uses (h : Uses w n i) : slotUsed w n = true := by
  simp only [slotUsed, Bool.or_eq_true, any_eq_true]
  cases h with
  | @record id tunnel d he hn =>
    refine .inl (.inl ⟨⟨.tunnel id, ⟨.tunnel tunnel, d⟩⟩, AList.mem_lookup_iff.mp he, ?_⟩)
    simp [recordWith, Value.asTunnel, hn]
  | @listener k task _ _ _ ht hr hj hp =>
    refine .inl (.inr (any_eq_true.mpr ⟨task, mem_of_getElem? ht, ?_⟩))
    simp [Task.listening, hr, hj, Job.isAccept, hp]
  | @reader tid th id tunnel hth hf hc hr hn =>
    obtain ⟨t, ht⟩ := hr
    have hf' : th.prog.next.isSome = true := hf
    refine .inr ⟨th, mem_of_getElem? hth, ?_⟩
    simp only [hc, hf', Bool.true_and, any_eq_true]
    exact ⟨_, ht, by simp [recordRead, hn]⟩

variable {tid : ℕ} {th : CallThread}

section

variable (hpool : config.hub.redisPool = true) (hs : Sane config w) (ho : Origins w) (hh : Handlers w)

include hpool hs ho hh

lemma uses_bind {sid requested port p : ℕ} {serial live : Option String} {policy : TeardownPolicy}
    (hi : w.Issues tid th (.bindSlot port policy live)) (hcall : th.call = .tcpipForward sid serial requested)
    (hp : port ≠ 0 → p = port) {session : SshSession} (hsess : w.shared.hub.sessions[sid]? = some session) :
    Uses w p session.clientCertificateSerial := by
  obtain ⟨_, _, _, hcall', -, hm⟩ := hs.may hi
  rw [hcall] at hcall'
  cases hcall'
  obtain ⟨id, tunnel, hr, hslot, hserial, -⟩ := hm hpool
  obtain ⟨hw, -⟩ := ho.read tid th id tunnel hi.1 hr
  have hrange := (written_slot hs hw).1
  obtain ⟨session', hsess', -, hident⟩ := hh.attended tid th sid hi.1 hi.inFlight (by rw [hcall]; rfl)
  rw [hsess, Option.some.injEq] at hsess'
  subst hsess'
  rw [hident serial requested hcall, hserial]
  exact .reader hi.1 hi.inFlight (by rw [hcall]; rfl) hr (by rw [hp (by omega), hslot])

lemma uses_step (h : step config w a = some w') (hu : Uses w' n i) :
    Uses w n i ∨ ∃ x ∈ w.storing a, x.tunnel.slot = n ∧ some x.tunnel.id = i := by
  cases hu with
  | @record id tunnel d he hn =>
    obtain he | ⟨tid, o, th, tunnel', ttl, rfl, hi, -, heq⟩ := record_step hs h he
    · exact .inl (.record he hn)
    · cases heq
      exact .inr ⟨_, storing_of_issues hi, hn, rfl⟩
  | @listener k task _ tunnelId activity ht hr hj hp =>
    obtain haged | ⟨tid, o, th, sid, serial, requested, port, policy, live, p, session, -, hi, hcall, hport, -, hsess, htasks⟩ :=
      tasks_step h
    · obtain ⟨task0, ht0, hages⟩ := haged.before ht
      obtain ⟨activity', hj0⟩ := Job.role_accept (hages.role ▸ congrArg Job.role hj)
      exact .inl (.listener ht0 (hages.running hr) hj0 (hages.port ▸ hp))
    rw [htasks, List.getElem?_append] at ht
    split_ifs at ht with hlt
    · exact .inl (.listener ht hr hj hp)
    · have htask := Hub.spawned_accept (mem_of_getElem? ht) hj
      subst htask
      cases hj
      exact .inl (hp ▸ uses_bind hpool hs ho hh hi hcall hport hsess)
  | @reader tid th id tunnel hth hf hc hr hn =>
    obtain ⟨u, hu, hcall, hflight, hr⟩ | ⟨-, d, he⟩ := reads_step hs h hth hr
    · exact .inl (.reader hu (hflight hf) (hcall ▸ hc) hr hn)
    · exact .inl (.record he hn)

end

lemma exclusive_init (now : ℕ) : Exclusive (Uses (init now)) := by
  intro n i j hi
  obtain ⟨⟨⟩, -⟩ | ⟨⟨⟩, -⟩ | ⟨⟨⟩, -⟩ := hi

lemma reach_exclusive (hpool : config.hub.redisPool = true) {now : ℕ}
    (h : Reach (step config) SlotUnused (init now) w) : Exclusive (Uses w) := by
  refine h.invariant (I := fun w => Exclusive (Uses w)) (J := fun w => Sane config w ∧ Origins w ∧ Handlers w)
    (fun _ hr => ⟨reach_sane hr, reach_origins hr, reach_handlers hr⟩) (exclusive_init now) ?_
  rintro w a w' ⟨hs, ho, hh⟩ hex hg hstep
  refine exclusive_step hex ?_ (fun n i hu => uses_step hpool hs ho hh hstep hu) ?_
  · rintro n i j ⟨x, hx, -, rfl⟩ ⟨y, hy, -, rfl⟩
    rw [Option.mem_def, hx, Option.some.injEq] at hy
    rw [hy]
  · rintro n i j ⟨x, hx, rfl, -⟩ hu
    have hfree := hg x hx
    rw [used_of_uses hu] at hfree
    cases hfree

def boundAs (task : Task) : Option String :=
  match task.job with
  | .accept boundAs _ _ => boundAs
  | _ => none

def Delivers (hub : Hub) (info : TunnelInfo) : Prop :=
  (∃ task ∈ hub.tasks, task.listening = true ∧ task.port = info.slot) ∧
    ∀ task ∈ hub.tasks, task.listening = true → task.port = info.slot → boundAs task = some info.id

lemma delivers_dial (hs : Sane config w) (hex : Exclusive (Uses w)) {info : TunnelInfo} {o : Choice} {s : Shared}
    (hi : w.Issues tid th (.dialSlot info))
    (hd : w.shared.perform config th.call (.dialSlot info) o = some (s, .ok ())) : Delivers w.shared.hub info := by
  obtain ⟨sni, id, tunnel, hcall, hr, rfl, -⟩ := hs.may hi
  have hread : Uses w tunnel.slot (some tunnel.id) := .reader hi.1 hi.inFlight (by rw [hcall]; rfl) hr rfl
  constructor
  · have hb := (Shared.perform_dial hd).2 rfl
    simpa [Hub.bound] using hb
  intro task ht hl hp
  obtain ⟨k, hk⟩ := List.getElem?_of_mem ht
  obtain ⟨sid, port, job, running⟩ := task
  simp only [Task.listening, Bool.and_eq_true] at hl
  cases job with
  | accept => exact hex _ _ _ (.listener hk hl.1 rfl hp) hread
  | _ => cases hl.2

theorem forwards_to_binder (hpool : config.hub.redisPool = true) {now : ℕ}
    (h : Reach (step config) SlotUnused (init now) w) {tid : ℕ} {th : CallThread} {t : Span Shared} {info : TunnelInfo}
    (hth : w.threads[tid]? = some th) (he : (⟨t, .dialSlot info, .ok ()⟩ : Ev) ∈ th.history) :
    (∃ tunnel, Read th.history tunnel.id tunnel ∧ tunnel.info = info) ∧ Delivers t.before.hub info := by
  induction h generalizing tid th with
  | refl => cases hth
  | tail hr hg hstep ih =>
    have hs := reach_sane hr
    obtain ⟨u, hu, -, -, hsub, he⟩ | ⟨o, u, -, hi, -, hhist, hb, hperf, -, -⟩ := event_step hstep hth he
    · obtain ⟨⟨tunnel, hread, hinfo⟩, hdel⟩ := ih hu he
      exact ⟨⟨tunnel, hread.mono hsub, hinfo⟩, hdel⟩
    · obtain ⟨sni, id, tunnel, -, hread, hinfo, -⟩ := hs.may hi
      obtain ⟨-, rfl⟩ := (reach_origins hr).read _ _ _ _ hi.1 hread
      have hb' : t.before = _ := hb
      rw [hb']
      refine ⟨⟨tunnel, hread.mono ?_, hinfo⟩, delivers_dial hs (reach_exclusive hpool hr) hi hperf⟩
      rw [hhist]
      exact subset_append_left _ _

open Schedule

def dialed : Ev → Option (Hub × TunnelInfo)
  | ⟨t, .dialSlot info, .ok ()⟩ => some (t.before.hub, info)
  | _ => none

lemma dialed_some {e : Ev} {x : Hub × TunnelInfo} (h : dialed e = some x) :
    ∃ t, e = ⟨t, .dialSlot x.2, .ok ()⟩ ∧ t.before.hub = x.1 := by
  unfold dialed at h
  split at h
  · cases h
    exact ⟨_, rfl, rfl⟩
  · cases h

def route (tid scans : ℕ) : List Action :=
  List.replicate scans (.exec tid (.redis .ok)) ++ [.exec tid (.dial (.ok ()))]

theorem forwards_to_binder_served : ∃ w th t info, deployment.hub.redisPool = true ∧
    Reach (step deployment) SlotUnused start w ∧ w.threads[3]? = some th ∧
    (⟨t, .dialSlot info, .ok ()⟩ : Ev) ∈ th.history ∧
    ((∃ tunnel, Read th.history tunnel.id tunnel ∧ tunnel.info = info) ∧ Delivers t.before.hub info) := by
  obtain ⟨w, hr, hp⟩ := reach_of_check (step deployment) SlotUnused start
    (serve (request 1800 "demo") 10000 "a" "ka" ++ [.arrive (.route (some "demo.fleetingdns.run"))] ++ route 3 3)
    (fun w => w.threads[3]?.any fun th => th.history.any fun e => (dialed e).isSome) (by decide +kernel)
  simp only [Option.any_eq_true, any_eq_true] at hp
  obtain ⟨th, hth, e, he, hd⟩ := hp
  obtain ⟨x, hx⟩ := Option.isSome_iff_exists.mp hd
  obtain ⟨t, rfl, -⟩ := dialed_some hx
  exact ⟨w, th, t, x.2, rfl, hr, hth, he, forwards_to_binder rfl hr hth he⟩

/-- The listener outlives the record and the port claim; the next tunnel on the port is routed to it. -/
theorem forwards_to_stranger : ∃ w, Reach (step deployment) Free start w ∧ ∃ th ∈ w.threads, ∃ t info,
    (⟨t, .dialSlot info, .ok ()⟩ : Ev) ∈ th.history ∧ ∃ task ∈ t.before.hub.tasks, task.listening = true ∧
      task.port = info.slot ∧ ∃ id, boundAs task = some id ∧ id ≠ info.id := by
  obtain ⟨w, hr, hp⟩ := started
    (serve (request 1800 "demo") 10000 "a" "ka"
      ++ [.tick (1801 * second), .lapse (.port 10000), .lapse (.tunnel "a"),
        .arrive (.createTunnel bob (request 1800 "shop"))]
      ++ create 3 10000 "b" "kb" ++ [.arrive (.route (some "shop.fleetingdns.run"))] ++ route 4 3)
    (fun w => w.threads.any fun th => th.history.any fun e => (dialed e).any fun x => x.1.tasks.any fun task =>
      task.listening && task.port == x.2.slot && (boundAs task).any (· != x.2.id)) (by decide +kernel)
  simp only [Option.any_eq_true, any_eq_true, Bool.and_eq_true, beq_iff_eq, bne_iff_ne] at hp
  obtain ⟨th, hth, e, he, x, hx, task, ht, ⟨hl, hp⟩, id, hid, hne⟩ := hp
  obtain ⟨t, rfl, hhub⟩ := dialed_some hx
  exact ⟨w, hr, th, hth, t, x.2, he, task, hhub ▸ ht, hl, hp, id, hid, hne⟩

end FleetingDns.RoutingIsolation
