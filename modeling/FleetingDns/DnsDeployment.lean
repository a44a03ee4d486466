import FleetingDns.DnsCache
import FleetingDns.RouterLookup
import FleetingDns.SlotMapping
namespace FleetingDns.DnsDeployment

open CommandPrograms ExpiringStore ThreadPool GuardedRuns RouterLookup Dns ServerPool Option

structure Joint (Packet : Type) where
  world : World
  dns : DnsPool Packet

inductive JointAct (Packet : Type) where
  | api (a : Action)
  | dns (a : DnsAct Packet)

variable {Packet : Type}

namespace Joint

def init (Packet : Type) (now : ℕ) : Joint Packet := ⟨World.init now, Dns.start Packet now⟩

/-- The DNS server follows the clock of the world, and a read of it that succeeds is one of the world's store. -/
def agrees (j : Joint Packet) : DnsAct Packet → Bool
  | .drift (.tick _) => false
  | .exec tid (.read (.ok slot)) =>
    match j.dns.threads[tid]?.bind fun th => th.prog.next with
    | some (.redisGet key) => slot = (seen j.world key).bind Value.asText
    | _ => true
  | _ => true

def step (config : Config) (handler : DnsHandler Packet) (j : Joint Packet) : JointAct Packet → Option (Joint Packet)
  | .api a => (World.step config j.world a).map fun w => ⟨w, ⟨⟨w.shared.now, j.dns.shared.cache⟩, j.dns.threads⟩⟩
  | .dns a => if j.agrees a then (ServerPool.step (dnsServer handler) j.dns a).map fun dns => ⟨j.world, dns⟩ else none

end Joint

variable {config : Config} {handler : DnsHandler Packet} {j j' j1 : Joint Packet}
  {G : Joint Packet → JointAct Packet → Prop}
  {a : JointAct Packet} {now : ℕ}

lemma joint_step (h : j.step config handler a = some j') :
    (∃ b, a = .api b ∧ World.step config j.world b = some j'.world ∧
      j'.dns = ⟨⟨j'.world.shared.now, j.dns.shared.cache⟩, j.dns.threads⟩) ∨
    ∃ b, a = .dns b ∧ j.agrees b = true ∧ ServerPool.step (dnsServer handler) j.dns b = some j'.dns ∧
      j'.world = j.world := by
  cases a with
  | api b =>
    obtain ⟨w, hw, rfl⟩ := map_eq_some_iff.mp h
    exact .inl ⟨b, rfl, hw, rfl⟩
  | dns b =>
    simp only [Joint.step] at h
    split_ifs at h with ha
    obtain ⟨dns, hdns, rfl⟩ := map_eq_some_iff.mp h
    exact .inr ⟨b, rfl, ha, hdns, rfl⟩

lemma reach_world (h : Reach (Joint.step config handler) G j1 j) :
    Reach (World.step config) Free j1.world j.world := by
  induction h with
  | refl => exact .refl
  | tail _ _ hstep ih =>
    obtain ⟨b, -, hw, -⟩ | ⟨b, -, -, -, hw⟩ := joint_step hstep
    · exact ih.tail trivial hw
    · rw [hw]
      exact ih

lemma reach_now (h : Reach (Joint.step config handler) G j1 j) : j1.world.shared.now ≤ j.world.shared.now := by
  induction h with
  | refl => exact le_rfl
  | tail _ _ hstep ih =>
    obtain ⟨b, -, hw, -⟩ | ⟨b, -, -, -, hw⟩ := joint_step hstep
    · exact ih.trans (World.now_step hw)
    · rw [hw]
      exact ih

lemma dns_now {b : DnsAct Packet} {dns : DnsPool Packet} (ha : j.agrees b = true)
    (h : step (dnsServer handler) j.dns b = some dns) : dns.shared.now = j.dns.shared.now := by
  cases step_effect h with
  | @drift e drift threads =>
    cases e with
    | tick => cases ha
    | purge =>
      simp only [dnsServer, DnsState.drift] at drift
      split_ifs at drift
      rw [← Option.some.inj drift]
  | arrive accept => rw [Option.some.inj accept]
  | exec thread prog perform => exact perform_now perform
  | cancel thread inFlight shared => rw [shared]
  | restart restart => rw [← Option.some.inj restart]

lemma reach_dns (h : Reach (Joint.step config handler) G (Joint.init Packet now) j) :
    j.dns.shared.now = j.world.shared.now ∧
      Reach (step (dnsServer handler)) Free (Dns.start Packet now) j.dns := by
  induction h with
  | refl => exact ⟨rfl, .refl⟩
  | @tail j j' a _ _ hstep ih =>
    obtain ⟨hnow, hr⟩ := ih
    obtain ⟨b, -, hw, hdns⟩ | ⟨b, -, ha, hdns, hw⟩ := joint_step hstep
    · refine ⟨by rw [hdns], hr.tail (a := .drift (.tick (j'.world.shared.now - j.world.shared.now))) trivial ?_⟩
      have hle := World.now_step hw
      have hsum : j.dns.shared.now + (j'.world.shared.now - j.world.shared.now) = j'.world.shared.now := by omega
      simp only [step, dnsServer, DnsState.drift, hsum, hdns, map_some]
    · exact ⟨by rw [dns_now ha hdns, hnow, hw], hr.tail trivial hdns⟩

section

variable {tid : ℕ} {d : DnsThread Packet}

lemma dnsThread_kept (h : Reach (Joint.step config handler) G j1 j) (hd : j1.dns.threads[tid]? = some d) :
    ∃ d', j.dns.threads[tid]? = some d' ∧ d'.call = d.call ∧ d.history ⊆ d'.history := by
  induction h with
  | refl => exact ⟨d, hd, rfl, List.Subset.refl _⟩
  | tail _ _ hstep ih =>
    obtain ⟨d1, hd1, hcall, hsub⟩ := ih
    obtain ⟨b, -, -, hdns⟩ | ⟨b, -, -, hdns, -⟩ := joint_step hstep
    · exact ⟨d1, by rw [hdns]; exact hd1, hcall, hsub⟩
    · obtain ⟨d2, hd2, hcall2, hpre⟩ := thread_kept hdns hd1
      exact ⟨d2, hd2, hcall2.trans hcall, List.Subset.trans hsub hpre.subset⟩

def Later (j1 : Joint Packet) (tid : ℕ) : Prop := ∀ d, j1.dns.threads[tid]? = some d → d.InFlight

lemma later_of_inFlight (h : Reach (Joint.step config handler) G j1 j) (hd : j.dns.threads[tid]? = some d)
    (hf : d.InFlight) : Later j1 tid := by
  induction h generalizing d with
  | refl =>
    intro d' hd'
    rw [mem_unique hd' hd]
    exact hf
  | tail hr _ hstep ih =>
    obtain ⟨b, -, -, hdns⟩ | ⟨b, -, -, hdns, -⟩ := joint_step hstep
    · rw [hdns] at hd
      exact ih hd hf
    obtain ⟨hold, -⟩ | ⟨call, -, htid, -⟩ | ⟨o, u, c, k, r, -, hold, hp, -, -⟩ | ⟨u, -, -, rfl⟩ :=
      thread_step hdns hd
    · exact ih hold hf
    · intro d' hd'
      obtain ⟨d1, hd1, -⟩ := dnsThread_kept hr hd'
      rw [htid, List.getElem?_eq_none le_rfl] at hd1
      cases hd1
    · exact ih hold (Thread.inFlight_of_call hp)
    · exact absurd hf (Thread.stop_not_inFlight u _)

end

section

structure Executes (config : Config) (handler : DnsHandler Packet) (j j' : Joint Packet) (tid : ℕ) (th : CallThread)
    (c : StoreCmd Key Value) : Prop where
  step : ∃ o, j.step config handler (.api (.exec tid o)) = some j'
  issues : j.world.Issues tid th (.redis c)
  succeeds : ∃ th' t x, j'.world.threads[tid]? = some th' ∧ th'.history = th.history ++ [⟨t, .redis c, .ok x⟩]

variable {tid : ℕ} {th : CallThread} {c : StoreCmd Key Value}

lemma Executes.performed (h : Executes config handler j j' tid th c) :
    ∃ o s x, j.world.shared.perform config th.call (.redis c) o = some (s, .ok x) ∧
      ∀ k, j'.world.entry k = s.store.lookup k := by
  obtain ⟨o, hstep⟩ := h.step
  obtain ⟨b, hb, hw, -⟩ | ⟨b, hb, -⟩ := joint_step hstep
  · cases hb
    obtain ⟨th', t, x, hth', hh⟩ := h.succeeds
    obtain ⟨hold, hne⟩ | ⟨call, hb, -⟩ | ⟨o', u, c', k, s, r, ho, hold, hp, hperf, hentry, rfl⟩ | ⟨u, hb, -⟩ :=
      World.thread_step hw hth'
    · exact absurd rfl (hne o)
    · cases hb
    · obtain ⟨hth, k', hk'⟩ := h.issues
      obtain rfl := mem_unique hth hold
      rw [hk'] at hp
      cases hp
      have heq := List.append_cancel_left hh
      cases heq
      exact ⟨o', s, x, hperf, hentry⟩
    · cases hb
  · cases hb

lemma Executes.after (h : Executes config handler j j' tid th c)
    (hinit : Reach (Joint.step config handler) Free (Joint.init Packet now) j) :
    Reach (Joint.step config handler) Free (Joint.init Packet now) j' := by
  obtain ⟨o, hstep⟩ := h.step
  exact hinit.tail trivial hstep

lemma Executes.removed {k : Key} (h : Executes config handler j j' tid th (.del k)) : j'.world.entry k = none := by
  obtain ⟨o, s, x, hperf, hentry⟩ := h.performed
  obtain ⟨o', st, hp, rfl⟩ := Shared.perform_redis hperf
  rw [hentry]
  exact perform_del hp

lemma Executes.stored {k : Key} {v : Value} {ttl : ℕ} (h : Executes config handler j j' tid th (.setEx k v ttl)) :
    j'.world.entry k = some ⟨v, some (j.world.shared.now + ttl * second)⟩ := by
  obtain ⟨o, s, x, hperf, hentry⟩ := h.performed
  obtain ⟨o', st, hp, rfl⟩ := Shared.perform_redis hperf
  rw [hentry]
  exact (perform_setEx hp).2

lemma executes_of_event (h : Reach (Joint.step config handler) G (Joint.init Packet now) j) {t : Span Shared}
    {x : c.Reply} (hth : j.world.threads[tid]? = some th) (he : ⟨t, .redis c, .ok x⟩ ∈ th.history) :
    ∃ j0 j1 th0, Reach (Joint.step config handler) G (Joint.init Packet now) j0 ∧
      Executes config handler j0 j1 tid th0 c ∧ Reach (Joint.step config handler) G j1 j := by
  induction h generalizing th with
  | refl => cases hth
  | @tail j j' a hr hg hstep ih =>
    obtain ⟨b, rfl, hw, -⟩ | ⟨b, rfl, -, -, hw⟩ := joint_step hstep
    · obtain ⟨u, hu, -, -, -, he⟩ | ⟨o, u, rfl, hi, hcall, hh, -⟩ := World.event_step hw hth he
      · obtain ⟨j0, j1, th0, h0, hx, h1⟩ := ih hu he
        exact ⟨j0, j1, th0, h0, hx, h1.tail hg hstep⟩
      · exact ⟨j, j', u, hr, ⟨⟨o, hstep⟩, hi, th, t, x, hth, hh⟩, .refl⟩
    · rw [hw] at hth
      obtain ⟨j0, j1, th0, h0, hx, h1⟩ := ih hth he
      exact ⟨j0, j1, th0, h0, hx, h1.tail hg hstep⟩

end

end FleetingDns.DnsDeployment
