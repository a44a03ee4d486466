import FleetingDns.HubSteps
import FleetingDns.SshFailClosed
namespace FleetingDns.SlotGate

open CommandPrograms ExpiringStore ThreadPool SshFailClosed List HandlerDisciplines Shared

variable {config : Config} {h : List Ev}

def opens : Ev → Bool
  | ⟨_, .bindSlot _ _ _, .bound _⟩ => true
  | _ => false

def Unopened (h : List Ev) : Prop := ∀ e ∈ h, opens e = false

lemma unopened_snoc {e : Ev} (hu : Unopened h) (he : opens e = false) : Unopened (h ++ [e]) := by
  unfold Unopened
  rw [forall_mem_append, forall_mem_singleton]
  exact ⟨hu, he⟩

lemma unopened_scan {p : TunnelInfo → Bool} :
    Obeys (fun _ _ => True) (fun h _ => Unopened h) (TunnelLookup.scanTunnels p).run [] := by
  have hscan := found_scanTunnels (p := p) (P := fun _ c => ∃ c', c = .redis c')
    (fun _ key _ => ⟨.get key, rfl⟩) ⟨_, rfl⟩
  refine meets_mono (fun _ _ _ => trivial) (fun _ _ hq => hq.2) (meets_kept ?_ (by simp [Unopened]) hscan)
  rintro h _ t r ⟨c, rfl⟩ hu
  exact unopened_snoc hu rfl

lemma unopened_slotGate (serial : Option String) (port : ℕ) :
    Obeys (fun _ _ => True) (fun h _ => Unopened h) (slotGate config.hub serial port) [] := by
  unfold slotGate
  split_ifs
  · refine meets_seq unopened_scan ?_
    intro h r hu
    split
    · split
      · split_ifs <;> exact meets_pure hu
      · exact meets_pure hu
    · exact meets_pure hu
    · exact meets_pure hu
  · exact meets_pure (by simp [Unopened])

lemma opens_tcpipForward (serial : Option String) (port : ℕ) : Obeys (fun _ _ => True)
    (fun h r => (r.1 = .ok true → ∃ h0 t policy live, h = h0 ++ [⟨t, .bindSlot (port % 65536) policy live, .bound r.2⟩]) ∧
      (r.1 ≠ .ok true → Unopened h)) (tcpipForward config.hub serial port) [] := by
  refine meets_seq (unopened_slotGate serial (port % 65536)) ?_
  intro h gate hu
  cases gate with
  | none => exact meets_pure ⟨by rintro ⟨⟩, fun _ => hu⟩
  | some gate =>
    refine meets_issue trivial ?_
    rintro reply h' ⟨t, rfl⟩
    cases reply with
    | bindFailed | localAddrFailed => exact meets_pure ⟨by rintro ⟨⟩, fun _ => unopened_snoc hu rfl⟩
    | bound => exact meets_pure ⟨fun _ => ⟨h, t, gate.1, gate.2, rfl⟩, fun hne => absurd rfl hne⟩

/-- The identity of a session after its authentications so far, and the identifier the last accepted one was for. -/
inductive Authenticated (config : Config) : Option String → Option String → Prop
  | connected : Authenticated config none none
  | auth {identity last identity' : Option String} {call : Call} {peer : SocketAddr} {user publicKey : String}
      {es : List Ev} {auth : Auth} : Authenticated config identity last →
      Runs (fun s c o => perform config s call c o) (authPublickey config.hub peer identity user publicKey) es
        (auth, identity') →
      Authenticated config identity' (if auth = .accept then some (sessionIdOf user) else last)

lemma names_unique {user id id' : String} (h : Names user id) (h' : Names user id') : id = id' := by
  obtain h | ⟨hno, rfl⟩ := h <;> obtain h' | ⟨hno', rfl⟩ := h'
  · have htext := congrArg String.toList (h.symm.trans h')
    rw [String.toList_append, String.toList_append, append_cancel_left_eq] at htext
    exact String.toList_injective htext
  · exact absurd h (hno' id)
  · exact absurd h' (hno id')
  · rfl

lemma authenticated_last {identity last : Option String} (h : Authenticated config identity last) : identity = last := by
  induction h with
  | connected => rfl
  | @auth identity last identity' call peer user publicKey es auth _ hruns ih =>
    obtain ⟨haccept, hkeep⟩ := runs_meets (rules_authPublickey peer identity user publicKey) hruns
    by_cases ha : auth = .accept
    · obtain ⟨id, hid, hnames, -⟩ := haccept ha
      have hid' : identity' = some id := hid
      rw [if_pos ha, hid', names_unique hnames (sessionIdOf_names user)]
    · rw [if_neg ha]
      exact (hkeep ha).trans ih

lemma bound_openSlot {hub hub' : Hub} {now sid port : ℕ} {policy : TeardownPolicy} {live : Option String}
    (h : hub.openSlot now sid port policy live = some hub') : hub'.bound port = true := by
  obtain ⟨session, tasks, handles, -, rfl, -, rfl⟩ := Hub.openSlot_some h
  simp [Hub.bound, Hub.spawned, Task.listening, Job.isAccept]

lemma hub_kept {call : Call} {e : Ev} {o : Choice} (he : opens e = false)
    (hp : e.span.before.perform config call e.cmd o = some (e.span.after, e.reply)) :
    e.span.after.hub = e.span.before.hub := by
  obtain ⟨t, c, r⟩ := e
  by_cases hc : ∃ port policy live, c = .bindSlot port policy live
  · obtain ⟨port, policy, live, rfl⟩ := hc
    obtain ⟨reply, hb⟩ := perform_bind hp
    obtain ⟨-, ⟨hs, -⟩ | ⟨_, _, _, p, _, hr, -⟩⟩ := bind_eq hb
    · exact congrArg hub hs
    · have hr' : r = .bound p := hr
      subst hr'
      cases he
  · exact (perform_frame hp).2.2.2 fun port policy live heq => hc ⟨port, policy, live, heq⟩

def SlotsInRange (es : List Ev) : Prop :=
  ∀ e ∈ es, ∀ id tunnel d, e.span.before.store.lookup (.tunnel id) = some ⟨.tunnel tunnel, d⟩ →
    10000 ≤ tunnel.slot ∧ tunnel.slot ≤ 65535

theorem gates_slots (hpool : config.hub.redisPool = true) {sid port : ℕ} {identity last : Option String} {es : List Ev}
    {r : Except String Bool × ℕ} (hsession : Authenticated config identity last)
    (hruns : Runs (fun s c o => perform config s (.tcpipForward sid identity port) c o)
      (tcpipForward config.hub identity port) es r) (hslots : SlotsInRange es) :
    (r.1 = .ok true →
      (∃ t policy live, (⟨t, .bindSlot (port % 65536) policy live, .bound r.2⟩ : Ev) ∈ es ∧
        t.before.hub.bound r.2 = false ∧ t.after.hub.bound r.2 = true) ∧
      ∃ e ∈ es, ∃ id tunnel d, e.span.before.store.lookup (.tunnel id) = some ⟨.tunnel tunnel, d⟩ ∧
        tunnel.slot = r.2 ∧ some tunnel.id = last) ∧
    (r.1 ≠ .ok true → ∀ e ∈ es, e.span.after.hub = e.span.before.hub) := by
  obtain ⟨htrue, hfalse⟩ := runs_meets (meets_performs (opens_tcpipForward identity port)) hruns
  have hperf := runs_performed hruns
  refine ⟨fun hr => ?_, fun hr e he => ?_⟩
  · obtain ⟨h0, t, policy, live, heq⟩ := htrue hr
    rw [nil_append] at heq
    have hbind : (⟨t, .bindSlot (port % 65536) policy live, .bound r.2⟩ : Ev) ∈ es := by rw [heq]; simp
    obtain ⟨_, _, _, hcall, -, hm⟩ :=
      runs_permitted (obeys_tcpipForward sid port identity) hruns h0 _ [] heq
    cases hcall
    obtain ⟨id, tunnel, ⟨t0, ht0⟩, hslot, hid, -⟩ := hm hpool
    have hread : (⟨t0, .redis (.get (.tunnel id)), .ok (some (.tunnel tunnel))⟩ : Ev) ∈ es := by
      rw [heq]
      exact mem_append_left _ ht0
    obtain ⟨o, hget⟩ := hperf _ hread
    obtain ⟨o', st, hget, -⟩ := perform_redis hget
    obtain ⟨⟨v, d⟩, hlook, hv⟩ := Option.map_eq_some_iff.mp (perform_get hget).2.symm
    have hv' : v = .tunnel tunnel := hv
    subst hv'
    have hrange := hslots _ hread id tunnel d hlook
    obtain ⟨o, hb⟩ := hperf _ hbind
    obtain ⟨reply, hb⟩ := perform_bind hb
    obtain ⟨-, ⟨-, hno⟩ | ⟨_, _, _, p, hub, hp, -, hport, hfree, hopen, hs⟩⟩ := bind_eq hb
    · exact absurd rfl (hno r.2)
    · cases hp
      have hslot' : tunnel.slot = r.2 := by
        rw [hport (by omega)]
        exact hslot
      refine ⟨⟨t, policy, live, hbind, hfree, ?_⟩, _, hread, id, tunnel, d, hlook, hslot', ?_⟩
      · have hafter : t.after = _ := hs
        rw [hafter]
        exact bound_openSlot hopen
      · exact hid.symm.trans (authenticated_last hsession)
  · obtain ⟨o, hp⟩ := hperf e he
    exact hub_kept (hfalse hr e (by simpa using he)) hp

def slotsInRange (e : Ev) : Bool :=
  e.span.before.store.entries.all fun x => x.2.value.asTunnel.all fun tunnel =>
    10000 ≤ tunnel.slot && tunnel.slot ≤ 65535

lemma slotsInRange_of_all {es : List Ev} (h : es.all slotsInRange = true) : SlotsInRange es := by
  intro e he id tunnel d hlook
  have hall := all_eq_true.mp (all_eq_true.mp h e he) _ (AList.mem_lookup_iff.mp hlook)
  simpa [Value.asTunnel] using hall

open Schedule

def staged : Shared :=
  let tunnel : Tunnel := ⟨"a", "1", "alice", "demo", "demo.fleetingdns.run", 3000, 10000, "01", 1700000000 * second,
    1700001800 * second, .creating, false, .ttlOnly⟩
  { enrolled with
    store := AList.insert (.tunnelLookup "1") ⟨.lookup ⟨"1", "alice", ["a"]⟩, none⟩
      (AList.insert (.tunnel "a") ⟨.tunnel tunnel, some (1700001800 * second)⟩ ∅)
    hub := ⟨[], [⟨laptop, some "a", ∅, true⟩], 0⟩ }

lemma authenticated_enrolled : ∃ last, Authenticated deployment (some "a") last := by
  have hrun : ((drive (fun s c o => perform deployment s (.authPublickey 0 laptop none "tunnel-a" "ka") c o)
      [.plain, .redis .ok, .plain, .plain] enrolled
      (authPublickey deployment.hub laptop none "tunnel-a" "ka")).any fun x => x.2 = (.accept, some "a")) = true := by
    decide +kernel
  rw [Option.any_eq_true] at hrun
  obtain ⟨⟨es, r⟩, hd, hr⟩ := hrun
  obtain rfl := of_decide_eq_true hr
  exact ⟨_, .auth .connected (runs_of_drive hd)⟩

theorem gates_slots_forwarded : ∃ last es r, deployment.hub.redisPool = true ∧ Authenticated deployment (some "a") last ∧
    Runs (fun s c o => perform deployment s (.tcpipForward 0 (some "a") 10000) c o)
      (tcpipForward deployment.hub (some "a") 10000) es r ∧ SlotsInRange es ∧ r.1 = .ok true ∧
    (∃ t policy live, (⟨t, .bindSlot (10000 % 65536) policy live, .bound r.2⟩ : Ev) ∈ es ∧
      t.before.hub.bound r.2 = false ∧ t.after.hub.bound r.2 = true) ∧
    ∃ e ∈ es, ∃ id tunnel d, e.span.before.store.lookup (.tunnel id) = some ⟨.tunnel tunnel, d⟩ ∧
      tunnel.slot = r.2 ∧ some tunnel.id = last := by
  have hrun : ((drive (fun s c o => perform deployment s (.tcpipForward 0 (some "a") 10000) c o)
      [.redis .ok, .redis .ok, .redis .ok, .bind (.bound 10000)] staged
      (tcpipForward deployment.hub (some "a") 10000)).any fun x =>
        x.1.all slotsInRange && x.2.1.toOption = some true) = true := by
    decide +kernel
  rw [Option.any_eq_true] at hrun
  obtain ⟨⟨es, r⟩, hd, hr⟩ := hrun
  rw [Bool.and_eq_true] at hr
  have hruns := runs_of_drive hd
  have hslots := slotsInRange_of_all hr.1
  have htrue : r.1 = .ok true := by
    have hb := of_decide_eq_true hr.2
    cases hr' : r.1 with
    | error =>
      rw [hr'] at hb
      cases hb
    | ok =>
      rw [hr'] at hb
      cases hb
      rfl
  obtain ⟨last, hlast⟩ := authenticated_enrolled
  obtain ⟨hbound, hrecord⟩ := (gates_slots rfl hlast hruns hslots).1 htrue
  exact ⟨last, es, r, rfl, hlast, hruns, hslots, htrue, hbound, hrecord⟩

end FleetingDns.SlotGate
