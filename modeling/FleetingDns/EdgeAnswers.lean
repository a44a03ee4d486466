import FleetingDns.DnsVisibility
namespace FleetingDns.EdgeAnswers

open CommandPrograms ExpiringStore ThreadPool GuardedRuns RouterLookup Dns DnsDeployment DnsVisibility Option Joint

variable {Packet : Type} {config : Config} {handler : DnsHandler Packet} {G : Joint Packet → JointAct Packet → Prop}
  {j : Joint Packet} {now tid : ℕ} {d : DnsThread Packet} {packet response : Packet}

/-- The reply for a name without a slot, or the one for a name whose slot is the edge. -/
def FromEdge (config : Config) (handler : DnsHandler Packet) (packet response : Packet) : Prop :=
  match handler.question packet with
  | some (message, query) => ∃ slot, (slot = none ∨ slot = some config.api.edgePublicIp) ∧
      response = handler.written (message.reply query slot)
  | none => handler.processDnsQuery packet = pure (.ok response)

lemma slotOf_edge {w : World} {fqdn : String} (h : Reach (World.step config) Free (World.init now) w) :
    slotOf fqdn w = none ∨ slotOf fqdn w = some config.api.edgePublicIp := by
  cases hslot : slotOf fqdn w with
  | none => exact .inl rfl
  | some slot =>
    obtain ⟨v, hseen, hv⟩ := bind_eq_some_iff.mp hslot
    obtain ⟨e, he, rfl⟩ := map_eq_some_iff.mp hseen
    rw [(SlotMapping.slot_origin h (filter_eq_some_iff.mp he).1).1] at hv
    cases hv
    exact .inr rfl

section

variable (h : Reach (step config handler) G (init Packet now) j) (hd : j.dns.threads[tid]? = some d)

include h hd

lemma reads_edge
    {t : Span (DnsState Packet)} {key : Key} {slot : Option String} (he : ⟨t, .redisGet key, .ok slot⟩ ∈ d.history) :
    slot = none ∨ slot = some config.api.edgePublicIp := by
  induction h generalizing d with
  | refl => cases hd
  | tail hr _ hstep ih =>
    obtain ⟨b, -, -, hdns⟩ | ⟨b, rfl, ha, hdns, -⟩ := joint_step hstep
    · rw [hdns] at hd
      exact ih hd he
    obtain ⟨d0, hold, -, he⟩ | ⟨o, d0, rfl, hi, -, -, -, hperf⟩ := ServerPool.event_step hdns hd he
    · exact ih hold he
    · obtain rfl := perform_redisGet hperf
      obtain ⟨message, query, -, rfl⟩ := (reach_obeys (reach_dns hr).2).may hi
      rw [read_agrees ha hi]
      exact slotOf_edge (reach_world hr)

lemma computed_edge (hc : Computed handler d.call d.history response) : FromEdge config handler d.call response := by
  unfold Computed at hc
  unfold FromEdge
  cases hq : handler.question d.call with
  | none =>
    rw [hq] at hc
    exact hc
  | some =>
    rw [hq] at hc
    obtain ⟨slot, hlooked, heq⟩ := hc
    refine ⟨slot, ?_, heq⟩
    cases hlooked with
    | found connection read => exact reads_edge h hd read
    | unread | unreachable => exact .inl rfl

end

/-- A reply from the cache was computed for a packet with the same key. -/
theorem answers_come_from_edge (h : Reach (step config handler) G (init Packet now) j)
    (hd : j.dns.threads[tid]? = some d) (hret : d.prog = .ret (.returned (.ok response))) :
    ∃ (uid : ℕ) (u : DnsThread Packet), j.dns.threads[uid]? = some u ∧
      handler.generateCacheKey d.call = handler.generateCacheKey u.call ∧ FromEdge config handler u.call response := by
  have hdns := (reach_dns h).2
  obtain ⟨t, hhit⟩ | hc := (reach_obeys hdns).ends hd hret
  · obtain ⟨n, -, -, uid, u, -, hu, hkey, hc, -⟩ := (reach_sourced hdns).hit tid d t _ response hd hhit
    exact ⟨uid, u, hu, hkey, computed_edge h hu hc⟩
  · exact ⟨tid, d, hd, rfl, computed_edge h hd hc⟩

open FleetingDns.Schedule Dns.Schedule

theorem answers_come_from_edge_app : ∃ j d response u, Reach (step deployment (dnsd 300)) Free begin j ∧
    j.dns.threads[0]? = some d ∧ d.prog = .ret (.returned (.ok response)) ∧ u ∈ j.dns.threads ∧
    FromEdge deployment (dnsd 300) u.call response := by
  obtain ⟨j, hr, hp⟩ := reach_of_check (step deployment (dnsd 300)) Free begin
    (creating ++ next 0 :: creatingOn ++ resolve 0 (some "127.0.0.1")) (answeredWith 0 .noError) (by decide +kernel)
  obtain ⟨d, hd, hp⟩ := (any_eq_true _ _).mp hp
  split at hp
  · rename_i message hret
    obtain ⟨uid, u, hu, -, hedge⟩ := answers_come_from_edge hr hd hret
    exact ⟨j, d, some message, u, hr, hd, hret, List.mem_of_getElem? hu, hedge⟩
  · cases hp

end FleetingDns.EdgeAnswers
