import FleetingDns.DnsDeployment
namespace FleetingDns.DnsVisibility

open CommandPrograms ExpiringStore ThreadPool GuardedRuns RouterLookup Dns DnsDeployment Panics Joint ServerPool World
  SlotMapping Option List

variable {Packet : Type} {config : Config} {handler : DnsHandler Packet} {fqdn : String} {V : Option String → Prop}
  {j j' j1 : Joint Packet} {G : Joint Packet → JointAct Packet → Prop} {a : JointAct Packet} {now : ℕ}

def slotOf (fqdn : String) (w : World) : Option String := (seen w (.slot fqdn)).bind Value.asText

def Concerns (handler : DnsHandler Packet) (fqdn : String) (packet : Packet) : Prop :=
  ∃ message query, handler.question packet = some (message, query) ∧ handler.slotKey query.name = .slot fqdn

/-- No answer about the name is remembered, and none is being worked out. -/
structure Unanswered (handler : DnsHandler Packet) (fqdn : String) (j : Joint Packet) : Prop where
  cached : ∀ packet, Concerns handler fqdn packet → j.dns.shared.get (handler.generateCacheKey packet) = none
  underWay : ∀ (tid : ℕ) d, j.dns.threads[tid]? = some d → d.InFlight → Concerns handler fqdn d.call → d.history = []

def Collisionless (handler : DnsHandler Packet) (j : Joint Packet) : Prop :=
  ∀ (i k : ℕ) d u, j.dns.threads[i]? = some d → j.dns.threads[k]? = some u →
    handler.defaultHasher d.call = handler.defaultHasher u.call → d.call = u.call

variable {tid : ℕ} {d : DnsThread Packet} {response : Packet}

section

def Acceptable (handler : DnsHandler Packet) (V : Option String → Prop) (packet response : Packet) : Prop :=
  ∃ message query slot, handler.question packet = some (message, query) ∧ V slot ∧
    response = handler.written (message.reply query slot)

/-- What has been read, remembered and returned about the name since `j1` goes back to acceptable lookups. -/
structure Settled (handler : DnsHandler Packet) (fqdn : String) (V : Option String → Prop) (j1 j : Joint Packet) :
    Prop where
  hit : ∀ (tid : ℕ) d t key response, j.dns.threads[tid]? = some d → Concerns handler fqdn d.call → Later j1 tid →
    (⟨t, .getCached key, some response⟩ : Dns.Ev Packet) ∈ d.history → Acceptable handler V d.call response
  read : ∀ (tid : ℕ) d t slot, j.dns.threads[tid]? = some d → Concerns handler fqdn d.call → Later j1 tid →
    (⟨t, .redisGet (.slot fqdn), .ok slot⟩ : Dns.Ev Packet) ∈ d.history → V slot
  failed : ∀ (tid : ℕ) d, j.dns.threads[tid]? = some d → Concerns handler fqdn d.call → Later j1 tid →
    Failed d.history → V none
  cached : ∀ (tid : ℕ) d response, j.dns.threads[tid]? = some d → Concerns handler fqdn d.call →
    j.dns.shared.get (handler.generateCacheKey d.call) = some response → Acceptable handler V d.call response

lemma settled_start (hu : Unanswered handler fqdn j1) : Settled handler fqdn V j1 j1 := by
  have hnil : ∀ {tid d}, j1.dns.threads[tid]? = some d → Concerns handler fqdn d.call → Later j1 tid → d.history = [] :=
    fun hd hc hl => hu.underWay _ _ hd (hl _ hd) hc
  constructor
  · intro tid d t key response hd hc hl he
    rw [hnil hd hc hl] at he
    cases he
  · intro tid d t slot hd hc hl he
    rw [hnil hd hc hl] at he
    cases he
  · rintro tid d hd hc hl ⟨t, e, he | ⟨key, he⟩⟩ <;> rw [hnil hd hc hl] at he <;> cases he
  · intro tid d response hd hc hget
    rw [hu.cached d.call hc] at hget
    cases hget

variable {slot : Option String}

section

variable (hs : Settled handler fqdn V j1 j) (hd : j.dns.threads[tid]? = some d) (hc : Concerns handler fqdn d.call)
  (hl : Later j1 tid)

include hs hd hc hl

lemma Settled.looked (hlook : Looked d.history (.slot fqdn) slot) : V slot := by
  cases hlook with
  | found connection read => exact hs.read tid d _ slot hd hc hl read
  | unread read => exact hs.failed tid d hd hc hl ⟨_, _, .inr ⟨_, read⟩⟩
  | unreachable connection => exact hs.failed tid d hd hc hl ⟨_, _, .inl connection⟩

lemma Settled.computed (hcomp : Computed handler d.call d.history response) :
    Acceptable handler V d.call response := by
  obtain ⟨message, query, hq, hkey⟩ := id hc
  rw [Computed, hq] at hcomp
  obtain ⟨slot, hlook, heq⟩ := hcomp
  rw [hkey] at hlook
  exact ⟨message, query, slot, hq, hs.looked hd hc hl hlook, heq⟩

end

def lookupFails : JointAct Packet → Bool
  | .dns (.exec _ (.connection (.error _))) | .dns (.exec _ (.read (.error _))) => true
  | _ => false

lemma collisionless_of_step (h : j.step config handler a = some j') (hc : Collisionless handler j') :
    Collisionless handler j := by
  intro i k d u hd hu heq
  have hstep : Reach (step config handler) Free j j' := Reach.refl.tail trivial h
  obtain ⟨d', hd', hcall, -⟩ := dnsThread_kept hstep hd
  obtain ⟨u', hu', hcall', -⟩ := dnsThread_kept hstep hu
  rw [← hcall, ← hcall'] at heq ⊢
  exact hc i k d' u' hd' hu' heq

lemma read_agrees (ha : j.agrees (.exec tid (.read (.ok slot))) = true)
    (hi : ServerPool.Issues j.dns tid d (.redisGet (.slot fqdn))) : slot = slotOf fqdn j.world := by
  have hnext : (j.dns.threads[tid]?.bind fun th => th.prog.next) = some (.redisGet (.slot fqdn)) := by
    rw [hi.1]
    exact hi.next
  simp only [agrees, hnext, decide_eq_true_eq] at ha
  exact ha

lemma settled_api (hs : Settled handler fqdn V j1 j) (hle : j.dns.shared.now ≤ j'.world.shared.now)
    (hdns : j'.dns = ⟨⟨j'.world.shared.now, j.dns.shared.cache⟩, j.dns.threads⟩) : Settled handler fqdn V j1 j' := by
  have hthreads : j'.dns.threads = j.dns.threads := by rw [hdns]
  constructor
  · rw [hthreads]
    exact hs.hit
  · rw [hthreads]
    exact hs.read
  · rw [hthreads]
    exact hs.failed
  · rw [hthreads]
    intro tid d response hd hc hget
    rw [hdns, get_eq_some] at hget
    obtain ⟨expiresAt, hlook, hlt⟩ := hget
    exact hs.cached tid d response hd hc (get_eq_some.mpr ⟨expiresAt, hlook, hle.trans_lt hlt⟩)

section

variable (hinit : Reach (step config handler) Free (init Packet now) j)
  (hrun : Reach (step config handler) G j1 j) (hs : Settled handler fqdn V j1 j)
  (hcoll : Collisionless handler j')

include hinit hrun hs hcoll

lemma cached_step {b : DnsAct Packet} (ha : j.agrees b = true)
    (hdns : step (dnsServer handler) j.dns b = some j'.dns) {d' : DnsThread Packet}
    (hd : j'.dns.threads[tid]? = some d') (hc : Concerns handler fqdn d'.call)
    (hget : j'.dns.shared.get (handler.generateCacheKey d'.call) = some response) :
    Acceptable handler V d'.call response := by
  obtain ⟨hclock, hr⟩ := reach_dns hinit
  obtain ⟨expiresAt, hlook, hlt⟩ := get_eq_some.mp hget
  rw [dns_now ha hdns] at hlt
  have hown : ∀ {uid : ℕ} {u : DnsThread Packet}, j.dns.threads[uid]? = some u →
      handler.generateCacheKey d'.call = handler.generateCacheKey u.call → u.call = d'.call := by
    intro uid u hu hkey
    obtain ⟨u', hu', hcall, -⟩ := thread_kept hdns hu
    rw [← hcall] at hkey ⊢
    exact hcoll uid tid u' d' hu' hd (generateCacheKey_inj.mp hkey.symm)
  obtain hold | ⟨uid, o, u, -, hi⟩ := cache_step hdns hlook
  · obtain ⟨n, -, -, uid, u, -, hu, hkey, -⟩ := (reach_sourced hr).entry _ _ hold
    rw [← hown hu hkey] at hc ⊢
    exact hs.cached uid u response hu hc (get_eq_some.mpr ⟨expiresAt, hkey ▸ hold, hlt⟩)
  · obtain ⟨hkey, hcomp, -⟩ := (reach_obeys hr).may hi
    have hflight : u.InFlight := Thread.inFlight_of_call hi.2.choose_spec
    rw [← hown hi.1 hkey] at hc ⊢
    exact hs.computed hi.1 hc (later_of_inFlight hrun hi.1 hflight) hcomp

lemma settled_step (hV : V (slotOf fqdn j.world)) (hlost : V none ∨ lookupFails a = false)
    (h : j.step config handler a = some j') : Settled handler fqdn V j1 j' := by
  obtain ⟨hclock, hr⟩ := reach_dns hinit
  obtain ⟨b, -, hw, hdns⟩ | ⟨b, rfl, ha, hdns, -⟩ := joint_step h
  · exact settled_api hs (hclock ▸ now_step hw) hdns
  constructor
  · intro tid d' t key response hd hc hl he
    obtain ⟨d, hold, hcall, he⟩ | ⟨o, d, -, hi, hcall, -, -, hperf⟩ := event_step hdns hd he
    · rw [← hcall] at hc ⊢
      exact hs.hit tid d t key response hold hc hl he
    · obtain ⟨rfl, -⟩ := (reach_obeys hr).may hi
      rw [← hcall] at hc ⊢
      exact hs.cached tid d response hi.1 hc (perform_getCached hperf).symm
  · intro tid d' t slot hd hc hl he
    obtain ⟨d, hold, hcall, he⟩ | ⟨o, d, rfl, hi, -, -, -, hperf⟩ := event_step hdns hd he
    · exact hs.read tid d t slot hold (hcall ▸ hc) hl he
    · obtain rfl := perform_redisGet hperf
      rw [read_agrees ha hi]
      exact hV
  · rintro tid d' hd hc hl ⟨t, e, he | ⟨key, he⟩⟩
    · obtain ⟨d, hold, hcall, he⟩ | ⟨o, d, rfl, -, -, -, -, hperf⟩ := event_step hdns hd he
      · exact hs.failed tid d hold (hcall ▸ hc) hl ⟨t, e, .inl he⟩
      · obtain rfl := perform_getConnection hperf
        exact hlost.resolve_right (by simp [lookupFails])
    · obtain ⟨d, hold, hcall, he⟩ | ⟨o, d, rfl, -, -, -, -, hperf⟩ := event_step hdns hd he
      · exact hs.failed tid d hold (hcall ▸ hc) hl ⟨t, e, .inr ⟨key, he⟩⟩
      · obtain rfl := perform_redisGet hperf
        exact hlost.resolve_right (by simp [lookupFails])
  · intro tid d' response hd hc hget
    exact cached_step hinit hrun hs hcoll ha hdns hd hc hget

end

lemma settled_reach (hinit : Reach (step config handler) Free (init Packet now) j1)
    (hu : Unanswered handler fqdn j1) (hrun : Reach (step config handler) G j1 j) (hcoll : Collisionless handler j)
    (hV : ∀ j' a, Reach (step config handler) G j1 j' → G j' a → V (slotOf fqdn j'.world))
    (hlost : V none ∨ ∀ j a, G j a → lookupFails a = false) : Settled handler fqdn V j1 j := by
  induction hrun with
  | refl => exact settled_start hu
  | tail hr hg hstep ih =>
    have hs := ih (collisionless_of_step hstep hcoll)
    exact settled_step (hinit.trans hr.free) hr hs hcoll (hV _ _ hr hg) (hlost.imp_right fun hG => hG _ _ hg) hstep

end

variable {o : Choice} {th : CallThread} {deadline : ℕ}

section

section

variable (fqdn j)

def storesSlot : JointAct Packet → Bool
  | .api (.exec tid _) => match j.world.threads[tid]?.bind fun th => th.prog.next with
    | some (.redis (.setEx (.slot name) _ _)) => name = fqdn | _ => false
  | _ => false

def deletesSlot : JointAct Packet → Bool
  | .api (.exec tid _) => match j.world.threads[tid]?.bind fun th => th.prog.next with
    | some (.redis (.del (.slot name))) => name = fqdn | _ => false
  | _ => false

def NotCreated (a : JointAct Packet) : Prop := storesSlot fqdn j a = false

/-- The tunnel with the name is neither replaced nor deleted, and Redis answers the DNS server. -/
def Untouched (a : JointAct Packet) : Prop :=
  storesSlot fqdn j a = false ∧ deletesSlot fqdn j a = false ∧ lookupFails a = false

end

instance (fqdn : String) (j : Joint Packet) (a : JointAct Packet) : Decidable (NotCreated fqdn j a) :=
  inferInstanceAs (Decidable (_ = _))

instance (fqdn : String) (j : Joint Packet) (a : JointAct Packet) : Decidable (Untouched fqdn j a) :=
  inferInstanceAs (Decidable (_ ∧ _))

def Bounded (fqdn : String) (deadline : ℕ) (w : World) : Prop :=
  ∀ e, w.entry (.slot fqdn) = some e → e.deadline = some deadline

variable {c : Cmd} {b : Action} {w : World}

lemma next_of_issues (hi : w.Issues tid th c) : (w.threads[tid]?.bind fun th => th.prog.next) = some c := by
  obtain ⟨hth, k, hk⟩ := hi
  rw [hth]
  exact Prog.next_isSome hk

lemma bounded_step (hinit : Reach (step config handler) Free (init Packet now) j)
    (hb : Bounded fqdn deadline j.world) (hg : NotCreated fqdn j a) (h : j.step config handler a = some j') :
    Bounded fqdn deadline j'.world := by
  obtain ⟨b, rfl, hw, -⟩ | ⟨b, -, -, -, hw⟩ := joint_step h
  · cases slot_step (reach_slots (reach_world hinit)) hw fqdn with
    | kept eq =>
      rw [Bounded, eq]
      exact hb
    | lapsed old dead eq | withdrawn issues eq =>
      rw [Bounded, eq]
      rintro e ⟨⟩
    | provided issues => simp [NotCreated, storesSlot, next_of_issues issues] at hg
  · rw [hw]
    exact hb

lemma slotOf_eq_none (hb : Bounded fqdn deadline w) (hle : deadline ≤ w.shared.now) : slotOf fqdn w = none := by
  have hseen : seen w (.slot fqdn) = none := by
    rw [seen]
    cases he : w.entry (.slot fqdn) with
    | none => rfl
    | some e =>
      have hdead : e.live w.shared.now = false := by
        rw [Entry.live, hb e he]
        simpa using hle
      simp [hdead]
  rw [slotOf, hseen]
  rfl

lemma bounded_reach (hinit : Reach (step config handler) Free (init Packet now) j1)
    (hb : Bounded fqdn deadline j1.world) (hrun : Reach (step config handler) (NotCreated fqdn) j1 j) :
    Bounded fqdn deadline j.world := by
  induction hrun with
  | refl => exact hb
  | tail hr hg hstep ih => exact bounded_step (hinit.trans hr.free) ih hg hstep

lemma mapped_reach {v : Value} (hinit : Reach (step config handler) Free (init Packet now) j1)
    (hm : j1.world.entry (.slot fqdn) = some ⟨v, some deadline⟩)
    (hrun : Reach (step config handler) (Untouched fqdn) j1 j) (hlt : j.world.shared.now < deadline) :
    j.world.entry (.slot fqdn) = some ⟨v, some deadline⟩ := by
  induction hrun with
  | refl => exact hm
  | @tail j j' a hr hg hstep ih =>
    obtain ⟨hstores, hdeletes, -⟩ := hg
    obtain ⟨b, rfl, hw, -⟩ | ⟨b, -, -, -, hw⟩ := joint_step hstep
    · have hold := ih ((now_step hw).trans_lt hlt)
      have hinit' := hinit.trans hr.free
      cases slot_step (reach_slots (reach_world hinit')) hw fqdn with
      | kept eq => exact eq.trans hold
      | lapsed old dead =>
        obtain rfl := mem_unique old hold
        have hle := now_step hw
        simp only [Entry.live, all_some, decide_eq_false_iff_not] at dead
        omega
      | withdrawn issues => simp [deletesSlot, next_of_issues issues] at hdeletes
      | provided issues => simp [storesSlot, next_of_issues issues] at hstores
    · rw [hw] at hlt ⊢
      exact ih hlt

end

section

def Silent (handler : DnsHandler Packet) (fqdn : String) (j1 j : Joint Packet) : Prop :=
  ∀ (tid : ℕ) d response message, j.dns.threads[tid]? = some d → Later j1 tid →
    d.prog = .ret (.returned (.ok response)) → handler.codec.fromVec response = some message →
    ∀ record ∈ message.addresses, ¬ record.name.Spells fqdn

def Resolving (handler : DnsHandler Packet) (fqdn : String) (ip : Net.Ipv4Addr) (j1 j : Joint Packet) : Prop :=
  ∀ (tid : ℕ) d message query served, j.dns.threads[tid]? = some d → Later j1 tid →
    handler.question d.call = some (message, query) → query.name.Spells fqdn → query.queryType = .a →
    d.prog = .ret served → served ≠ .cancelled → ∃ response answer, served = .returned (.ok response) ∧
      handler.codec.fromVec response = some answer ∧ answer.addresses = [⟨query.name, 300, .a ip⟩]

lemma Settled.answered (hs : Settled handler fqdn V j1 j)
    (hinit : Reach (step config handler) Free (init Packet now) j) (hd : j.dns.threads[tid]? = some d)
    (hc : Concerns handler fqdn d.call) (hl : Later j1 tid) (hr : d.prog = .ret (.returned (.ok response))) :
    Acceptable handler V d.call response := by
  obtain ⟨t, ht⟩ | hcomp := (reach_obeys (reach_dns hinit).2).ends hd hr
  · exact hs.hit tid d t _ response hd hc hl ht
  · exact hs.computed hd hc hl hcomp

lemma computed_of_answered (hinit : Reach (step config handler) Free (init Packet now) j)
    (hcoll : Collisionless handler j) (hd : j.dns.threads[tid]? = some d)
    (hr : d.prog = .ret (.returned (.ok response))) : ∃ h, Computed handler d.call h response := by
  have hdns := (reach_dns hinit).2
  obtain ⟨t, ht⟩ | hcomp := (reach_obeys hdns).ends hd hr
  · obtain ⟨n, -, -, uid, u, -, hu, hkey, hcomp, -⟩ := (reach_sourced hdns).hit tid d t _ response hd ht
    rw [hcoll tid uid d u hd hu (generateCacheKey_inj.mp hkey)]
    exact ⟨u.history, hcomp⟩
  · exact ⟨d.history, hcomp⟩

lemma addresses_of_computed (fqdn : String) {h : List (Dns.Ev Packet)} {packet : Packet} {message : Message}
    (hcomp : Computed handler packet h response) (hm : handler.codec.fromVec response = some message)
    {record : Record} (hrec : record ∈ message.addresses) : Concerns handler fqdn packet ∨
      handler.slotKey record.name ≠ .slot fqdn := by
  unfold Computed at hcomp
  cases hq : handler.question packet with
  | none =>
    obtain ⟨m, hwritable, heq, hnone, -⟩ := processDnsQuery_asksNothing hq
    rw [hq, heq] at hcomp
    cases hcomp
    rw [written_reads hwritable] at hm
    cases hm
    rw [hnone] at hrec
    cases hrec
  | some asked =>
    obtain ⟨m, query⟩ := asked
    rw [hq] at hcomp
    obtain ⟨slot, -, rfl⟩ := hcomp
    rw [written_reads (question_writable hq)] at hm
    cases hm
    rw [reply_addresses, mem_toList, map_eq_some_iff] at hrec
    obtain ⟨data, -, rfl⟩ := hrec
    by_cases hkey : handler.slotKey query.name = .slot fqdn
    · exact .inl ⟨m, query, hq, hkey⟩
    · exact .inr hkey

lemma silent_reach (hprints : handler.Prints fqdn) (hinit : Reach (step config handler) Free (init Packet now) j1)
    (hb : Bounded fqdn deadline j1.world) (hle : deadline ≤ j1.world.shared.now) (hu : Unanswered handler fqdn j1)
    (hrun : Reach (step config handler) (NotCreated fqdn) j1 j) (hcoll : Collisionless handler j) :
    Silent handler fqdn j1 j := by
  have hnone : ∀ j' a, Reach (step config handler) (NotCreated fqdn) j1 j' → NotCreated fqdn j' a →
      slotOf fqdn j'.world = none := by
    intro j' a hr _
    exact slotOf_eq_none (bounded_reach hinit hb hr) (hle.trans (reach_now hr))
  have hs := settled_reach (V := fun slot => slot = none) hinit hu hrun hcoll hnone (.inl rfl)
  have hinit' := hinit.trans hrun.free
  intro tid d response message hd hl hr hm record hrec
  obtain ⟨h, hcomp⟩ := computed_of_answered hinit' hcoll hd hr
  obtain hc | hne := addresses_of_computed fqdn hcomp hm hrec
  · obtain ⟨m, query, slot, hq, rfl, rfl⟩ := hs.answered hinit' hd hc hl hr
    rw [written_reads (question_writable hq)] at hm
    cases hm
    cases hrec
  · exact fun hspells => hne (hprints record.name hspells)

def Before (fqdn : String) (deadline : ℕ) (j : Joint Packet) (a : JointAct Packet) : Prop :=
  Untouched fqdn j a ∧ j.world.shared.now < deadline

lemma before_deadline (hrun : Reach (step config handler) (Untouched fqdn) j1 j)
    (hlt : j.world.shared.now < deadline) : Reach (step config handler) (Before fqdn deadline) j1 j := by
  induction hrun with
  | refl => exact .refl
  | @tail j j' a _ hg hstep ih =>
    have hle : j.world.shared.now ≤ j'.world.shared.now := reach_now (Reach.refl.tail (G := Free) trivial hstep)
    exact (ih (hle.trans_lt hlt)).tail ⟨hg, hle.trans_lt hlt⟩ hstep

lemma resolving_reach {ip : Net.Ipv4Addr} (hprints : handler.Prints fqdn)
    (hinit : Reach (step config handler) Free (init Packet now) j1)
    (hm : j1.world.entry (.slot fqdn) = some ⟨.text config.api.edgePublicIp, some deadline⟩)
    (hip : Net.parseIpv4 config.api.edgePublicIp = some ip) (hu : Unanswered handler fqdn j1)
    (hrun : Reach (step config handler) (Untouched fqdn) j1 j) (hlt : j.world.shared.now < deadline)
    (hfits : j.world.shared.now / second + handler.cacheTtl < 2 ^ 63) (hcoll : Collisionless handler j) :
    Resolving handler fqdn ip j1 j := by
  have hrun' := before_deadline hrun hlt
  have hedge : ∀ j' a, Reach (step config handler) (Before fqdn deadline) j1 j' → Before fqdn deadline j' a →
      slotOf fqdn j'.world = some config.api.edgePublicIp := by
    intro j' a hr hg
    have hentry := mapped_reach hinit hm (hr.mono fun _ _ hg => hg.1) hg.2
    have hlive : (⟨.text config.api.edgePublicIp, some deadline⟩ : Entry Value).live j'.world.shared.now = true := by
      simp [Entry.live, hg.2]
    rw [slotOf, seen, hentry, filter_some, if_pos hlive]
    rfl
  have hs := settled_reach (V := fun slot => slot = some config.api.edgePublicIp) hinit hu hrun' hcoll hedge
    (.inr fun _ _ hg => hg.1.2.2)
  have hinit' := hinit.trans hrun.free
  have hclock := (reach_dns hinit').1
  intro tid d message query served hd hl hq hspells htype hr hne
  cases served with
  | cancelled => exact absurd rfl hne
  | panicked =>
    obtain ⟨t, n, hn, hpanic⟩ := (reach_obeys (reach_dns hinit').2).ends hd hr
    have hle := instant_le (reach_dns hinit').2 hd hn
    have hdiv : n / second ≤ j.world.shared.now / second := Nat.div_le_div_right (hclock ▸ hle)
    rw [instantAdd, if_pos ((Nat.add_le_add_right hdiv _).trans_lt hfits)] at hpanic
    cases hpanic
  | returned r =>
    cases r with
    | error => cases (reach_obeys (reach_dns hinit').2).ends hd hr
    | ok =>
      obtain ⟨m, q, slot, hq', rfl, rfl⟩ := hs.answered hinit' hd ⟨message, query, hq, hprints _ hspells⟩ hl hr
      cases hq.symm.trans hq'
      refine ⟨_, _, rfl, written_reads (question_writable hq), ?_⟩
      simp [reply_addresses, Query.address, htype, hip]

end

section

variable (config : Config) (handler : DnsHandler Packet) (now : ℕ)

def DeletionsVisible : Prop :=
  (∀ j (tid : ℕ) th user id, Reach (step config handler) Free (init Packet now) j →
    j.world.threads[tid]? = some th → th.call = .deleteTunnel user id → th.prog = .ret (.deleted (.ok true)) →
    ∃ tunnel j0 j1 th0, Read th.history id tunnel ∧ Reach (step config handler) Free (init Packet now) j0 ∧
      Executes config handler j0 j1 tid th0 (.del (.slot tunnel.fqdn)) ∧ Reach (step config handler) Free j1 j) ∧
  ∀ fqdn j0 j1 j2 tid th, handler.Prints fqdn → Reach (step config handler) Free (init Packet now) j0 →
    Executes config handler j0 j1 tid th (.del (.slot fqdn)) → Unanswered handler fqdn j1 →
    Reach (step config handler) (NotCreated fqdn) j1 j2 → Collisionless handler j2 → Silent handler fqdn j1 j2

def ExpiriesVisible : Prop :=
  ∀ (tunnel : Tunnel) v ttl t j0 j1 j2 j3 tid th, handler.Prints tunnel.fqdn →
    Reach (step config handler) Free (init Packet now) j0 →
    Executes config handler j0 j1 tid th (.setEx (.slot tunnel.fqdn) v ttl) → Wrote th.history tunnel ttl t →
    ((j0.world.shared.now + ttl * second : ℕ) : ℤ) ≤ tunnel.expiresAt →
    Reach (step config handler) (NotCreated tunnel.fqdn) j1 j2 → tunnel.expiresAt ≤ j2.world.shared.now →
    Unanswered handler tunnel.fqdn j2 → Reach (step config handler) (NotCreated tunnel.fqdn) j2 j3 →
    Collisionless handler j3 → Silent handler tunnel.fqdn j2 j3

def CreationsVisible : Prop :=
  (∀ j (tid : ℕ) th response, Reach (step config handler) Free (init Packet now) j →
    j.world.threads[tid]? = some th → th.prog = .ret (.created (.ok response)) →
    ∃ tunnel v ttl t j0 j1 th0, Wrote th0.history tunnel ttl t ∧ tunnel.fqdn = response.fqdn ∧
      Reach (step config handler) Free (init Packet now) j0 ∧
      Executes config handler j0 j1 tid th0 (.setEx (.slot tunnel.fqdn) v ttl) ∧
      Reach (step config handler) Free j1 j) ∧
  ∀ (tunnel : Tunnel) v ttl t ip j0 j1 j2 tid th, handler.Prints tunnel.fqdn →
    Reach (step config handler) Free (init Packet now) j0 →
    Executes config handler j0 j1 tid th (.setEx (.slot tunnel.fqdn) v ttl) → Wrote th.history tunnel ttl t →
    tunnel.expiresAt ≤ ((j0.world.shared.now + ttl * second : ℕ) : ℤ) →
    Net.parseIpv4 config.api.edgePublicIp = some ip → Unanswered handler tunnel.fqdn j1 →
    Reach (step config handler) (Untouched tunnel.fqdn) j1 j2 → j2.world.shared.now < tunnel.expiresAt →
    j2.world.shared.now / second + handler.cacheTtl < 2 ^ 63 → Collisionless handler j2 →
    Resolving handler tunnel.fqdn ip j1 j2

variable {config handler now} {j0 : Joint Packet}

lemma provides_edge (hinit : Reach (step config handler) Free (init Packet now) j0) {v : Value} {ttl : ℕ}
    (hx : Executes config handler j0 j1 tid th (.setEx (.slot fqdn) v ttl)) :
    SlotMapping.MayProvide config th.call th.history fqdn v ttl := by
  obtain ⟨hth, k, hk⟩ := hx.issues
  obtain hu | ⟨_, _, _, hc, hmay⟩ | ⟨_, hc, -⟩ := (reach_slots (reach_world hinit)).may hth hk
  · cases hu
  · cases hc
    exact hmay
  · cases hc

lemma deletions_visible (config : Config) (handler : DnsHandler Packet) (now : ℕ) :
    DeletionsVisible config handler now := by
  constructor
  · intro j tid th user id hr hth hcall hdone
    obtain ⟨user', id', tunnel, hcall', hread, t, x, hdel⟩ := reach_completes (reach_world hr) hth hdone
    cases hcall.symm.trans hcall'
    obtain ⟨j0, j1, th0, h0, hx, h1⟩ := executes_of_event hr hth hdel
    exact ⟨tunnel, j0, j1, th0, hread, h0, hx, h1⟩
  · intro fqdn j0 j1 j2 tid th hprints hinit hx hu hrun hcoll
    have hb : Bounded fqdn 0 j1.world := by
      rw [Bounded, hx.removed]
      rintro e ⟨⟩
    exact silent_reach hprints (hx.after hinit) hb (Nat.zero_le _) hu hrun hcoll

lemma expiries_visible (config : Config) (handler : DnsHandler Packet) (now : ℕ) :
    ExpiriesVisible config handler now := by
  intro tunnel v ttl t j0 j1 j2 j3 tid th hprints hinit hx _ hle hrun hexp hu hrun' hcoll
  have hinit1 := hx.after hinit
  have hb : Bounded tunnel.fqdn (j0.world.shared.now + ttl * second) j1.world := by
    rw [Bounded, hx.stored]
    rintro e ⟨⟩
    rfl
  have hdead : j0.world.shared.now + ttl * second ≤ j2.world.shared.now := by exact_mod_cast hle.trans hexp
  exact silent_reach hprints (hinit1.trans hrun.free) (bounded_reach hinit1 hb hrun) hdead hu hrun' hcoll

lemma creations_visible (config : Config) (handler : DnsHandler Packet) (now : ℕ) :
    CreationsVisible config handler now := by
  constructor
  · intro j tid th response hr hth hdone
    obtain ⟨t, x, v, ttl, hset⟩ := reach_completes (reach_world hr) hth hdone
    obtain ⟨j0, j1, th0, h0, hx, h1⟩ := executes_of_event hr hth hset
    obtain ⟨user, request, tunnel, t', -, -, -, hwrote, hfqdn, -⟩ := provides_edge h0 hx
    rw [← hfqdn] at hx
    exact ⟨tunnel, v, ttl, t', j0, j1, th0, hwrote, hfqdn, h0, hx, h1⟩
  · intro tunnel v ttl t ip j0 j1 j2 tid th hprints hinit hx _ hle hip hu hrun hlt hfits hcoll
    obtain ⟨-, -, -, -, -, -, -, -, -, -, rfl, -⟩ := provides_edge hinit hx
    have hlt' : j2.world.shared.now < j0.world.shared.now + ttl * second := by exact_mod_cast hlt.trans_le hle
    exact resolving_reach hprints (hx.after hinit) hx.stored hip hu hrun hlt' hfits hcoll

theorem visible_where_unanswered (config : Config) (handler : DnsHandler Packet) (now : ℕ) :
    DeletionsVisible config handler now ∧ ExpiriesVisible config handler now ∧ CreationsVisible config handler now :=
  ⟨deletions_visible config handler now, expiries_visible config handler now, creations_visible config handler now⟩

end

section

open FleetingDns.Schedule Dns.Schedule

def succeeded (tid : ℕ) (w : World) : Bool :=
  match w.threads[tid]?.bind fun th => th.history.getLast? with
  | some ⟨_, .redis _, .ok _⟩ => true
  | _ => false

variable {p : Joint Packet → Bool} {c : StoreCmd Key Value}

lemma executes_of_check (hi : j.world.Issues tid th (.redis c))
    (h : ((j.step config handler (.api (.exec tid o))).any fun j' => succeeded tid j'.world && p j') = true) :
    ∃ j', Executes config handler j j' tid th c ∧ p j' = true := by
  rw [Option.any_eq_true] at h
  obtain ⟨j', hstep, hp⟩ := h
  rw [Bool.and_eq_true] at hp
  obtain ⟨b, hb, hw, -⟩ | ⟨b, hb, -⟩ := joint_step hstep
  · cases hb
    obtain ⟨k, s, r, -, -, -, hth⟩ := World.exec_step hw hi
    have hok := hp.1
    rw [succeeded, hth, Option.bind_some, Thread.advance_history, List.getLast?_concat] at hok
    cases r with
    | error => cases hok
    | ok x => exact ⟨j', ⟨⟨o, hstep⟩, hi, _, _, x, hth, Thread.advance_history _ _ _ _ _⟩, hp.2⟩
  · cases hb

lemma issues_of_next {w : World} {c : Cmd} (h : (w.threads[tid]?.bind fun th => th.prog.next) = some c) :
    ∃ th, w.Issues tid th c := by
  obtain ⟨th, hth, hn⟩ := bind_eq_some_iff.mp h
  cases hp : th.prog with
  | ret =>
    rw [hp] at hn
    cases hn
  | call c' k =>
    rw [hp] at hn
    cases hn
    exact ⟨th, hth, k, hp⟩

lemma issues_of_deletesSlot (h : deletesSlot fqdn j (.api (.exec tid o)) = true) :
    ∃ th, j.world.Issues tid th (.redis (.del (.slot fqdn))) := by
  simp only [deletesSlot] at h
  split at h
  · rename_i name hnext
    rw [decide_eq_true_eq] at h
    subst h
    exact issues_of_next hnext
  · cases h

lemma issues_of_storesSlot (h : storesSlot fqdn j (.api (.exec tid o)) = true) :
    ∃ th v ttl, j.world.Issues tid th (.redis (.setEx (.slot fqdn) v ttl)) := by
  simp only [storesSlot] at h
  split at h
  · rename_i name v ttl hnext
    rw [decide_eq_true_eq] at h
    subst h
    obtain ⟨th, hi⟩ := issues_of_next hnext
    exact ⟨th, v, ttl, hi⟩
  · cases h

def writes (p : Tunnel → ℕ → Bool) (th : CallThread) : Bool :=
  th.history.all fun e =>
    match e with
    | ⟨_, .redis (.setEx _ (.tunnel tunnel) ttl), _⟩ => p tunnel ttl
    | _ => true

def idle (j : Joint Packet) : Bool :=
  (j.dns.shared.cache.entries.all fun e => e.2.expiresAt ≤ j.dns.shared.now) &&
    j.dns.threads.all fun d => d.prog.next.isNone

lemma unanswered_of_idle (h : idle j = true) : Unanswered handler fqdn j := by
  rw [idle, Bool.and_eq_true, List.all_eq_true, List.all_eq_true] at h
  constructor
  · intro packet _
    rw [Option.eq_none_iff_forall_ne_some]
    intro response hget
    obtain ⟨expiresAt, hlook, hlt⟩ := get_eq_some.mp hget
    have hle := of_decide_eq_true (h.1 _ (AList.mem_lookup_iff.mp hlook))
    dsimp only at hle
    omega
  · intro tid d hd hf _
    have hnone := h.2 d (List.mem_of_getElem? hd)
    rw [Option.isNone_iff_eq_none] at hnone
    rw [Thread.InFlight, hnone] at hf
    cases hf

lemma prints_app : (dnsd 300).Prints "app.fleetingdns.run" := by
  rintro name ⟨hname, -⟩
  unfold DnsHandler.slotKey
  dsimp only [dnsd, codec]
  rw [hname]
  decide

def distinctKeys (j : Joint (Option Message)) : Bool :=
  j.dns.threads.all fun d => j.dns.threads.all fun u =>
    (dnsd 300).defaultHasher d.call != (dnsd 300).defaultHasher u.call || d.call == u.call

lemma collisionless_of_distinctKeys {j : Joint (Option Message)} (h : distinctKeys j = true) :
    Collisionless (dnsd 300) j := by
  intro i k d u hd hu heq
  simp only [distinctKeys, List.all_eq_true, Bool.or_eq_true, bne_iff_ne, beq_iff_eq] at h
  exact (h d (List.mem_of_getElem? hd) u (List.mem_of_getElem? hu)).resolve_left fun hne => hne heq

def begin : Joint (Option Message) := init _ (1700000000 * second)

def creating : List (JointAct (Option Message)) :=
  (.arrive (.createTunnel alice (request 3600 "app")) :: (create 0 10000 "t" "K").take 18).map .api

def creatingOn : List (JointAct (Option Message)) := ((create 0 10000 "t" "K").drop 19).map .api

def deleting : List (JointAct (Option Message)) :=
  (.arrive (.deleteTunnel alice "t") :: List.replicate 4 (.exec 1 (.redis .ok))).map .api

def next (tid : ℕ) : JointAct (Option Message) := .api (.exec tid (.redis .ok))

def resolve (tid : ℕ) (slot : Option String) : List (JointAct (Option Message)) :=
  (lookup tid [.connection (.ok ()), .read (.ok slot)]).map .dns

def answeredWith (tid : ℕ) (code : ResponseCode) (j : Joint (Option Message)) : Bool :=
  j.dns.threads[tid]?.any fun d =>
    match d.prog with
    | .ret (.returned (.ok (some message))) => message.responseCode = code
    | _ => false

lemma app_created (p : Joint (Option Message) → Bool)
    (h : ((runs (step deployment (dnsd 300)) Free begin creating).any fun j0 =>
      storesSlot "app.fleetingdns.run" j0 (next 0) &&
      (j0.world.threads[0]?.all (writes fun tunnel ttl => tunnel.expiresAt = 1700003600 * second ∧ ttl = 3600) &&
      (decide (j0.world.shared.now = 1700000000 * second) &&
      (j0.step deployment (dnsd 300) (next 0)).any fun j1 => succeeded 0 j1.world && p j1))) = true) :
    ∃ j0 j1 th tunnel v ttl t, Reach (step deployment (dnsd 300)) Free begin j0 ∧
      Executes deployment (dnsd 300) j0 j1 0 th (.setEx (.slot tunnel.fqdn) v ttl) ∧ Wrote th.history tunnel ttl t ∧
      tunnel.fqdn = "app.fleetingdns.run" ∧ tunnel.expiresAt = 1700003600 * second ∧
      (j0.world.shared.now + ttl * second : ℕ) = tunnel.expiresAt ∧ p j1 = true := by
  obtain ⟨j0, hr, hp⟩ := reach_of_check _ _ _ _ _ h
  simp only [Bool.and_eq_true, decide_eq_true_eq] at hp
  obtain ⟨hstores, hwrites, hnow, hany⟩ := hp
  obtain ⟨th, v, ttl, hi⟩ := issues_of_storesSlot hstores
  obtain ⟨j1, hx, hp1⟩ := executes_of_check hi hany
  obtain ⟨-, -, tunnel, t, -, -, -, hwrote, hfqdn, -⟩ := provides_edge hr hx
  rw [hi.1] at hwrites
  obtain ⟨hexp, httl⟩ := of_decide_eq_true (all_eq_true.mp hwrites _ hwrote.choose_spec)
  refine ⟨j0, j1, th, tunnel, v, ttl, t, hr, hfqdn ▸ hx, hwrote, hfqdn, hexp, ?_, hp1⟩
  rw [hexp, hnow, httl]
  rfl

theorem visible_where_unanswered_app :
    (∃ (j0 j1 j2 : Joint (Option Message)) (th : CallThread),
      Executes deployment (dnsd 300) j0 j1 1 th (.del (.slot "app.fleetingdns.run")) ∧ j1.dns.threads[1]? = none ∧
      answeredWith 1 .nxDomain j2 = true ∧ Silent (dnsd 300) "app.fleetingdns.run" j1 j2) ∧
    (∃ j1 j2 : Joint (Option Message), 1700003600 * second ≤ j1.world.shared.now ∧ j1.dns.threads[0]? = none ∧
      answeredWith 0 .nxDomain j2 = true ∧ Silent (dnsd 300) "app.fleetingdns.run" j1 j2) ∧
    ∃ (j0 j1 j2 : Joint (Option Message)) (th : CallThread) (v : Value) (ttl : ℕ),
      Executes deployment (dnsd 300) j0 j1 0 th (.setEx (.slot "app.fleetingdns.run") v ttl) ∧
      j1.dns.threads[0]? = none ∧ answeredWith 0 .noError j2 = true ∧
      Resolving (dnsd 300) "app.fleetingdns.run" ⟨127, 0, 0, 1⟩ j1 j2 := by
  obtain ⟨⟨-, hdeletion⟩, hexpiry, -, hcreation⟩ :=
    visible_where_unanswered deployment (dnsd 300) (1700000000 * second)
  refine ⟨?_, ?_, ?_⟩
  · obtain ⟨j0, h0, hp⟩ := reach_of_check (step deployment (dnsd 300)) Free begin
      (creating ++ next 0 :: creatingOn ++ resolve 0 (some "127.0.0.1") ++ .api (.tick (301 * second)) :: deleting)
      (fun j0 => deletesSlot "app.fleetingdns.run" j0 (next 1) && (j0.step deployment (dnsd 300) (next 1)).any fun j1 =>
        succeeded 1 j1.world && (idle j1 && (j1.dns.threads[1]?.isNone &&
        (runs (step deployment (dnsd 300)) (NotCreated "app.fleetingdns.run") j1
          (next 1 :: next 1 :: resolve 1 none)).any fun j2 => distinctKeys j2 && answeredWith 1 .nxDomain j2)))
      (by decide +kernel)
    rw [Bool.and_eq_true] at hp
    obtain ⟨th, hi⟩ := issues_of_deletesSlot hp.1
    obtain ⟨j1, hx, hp1⟩ := executes_of_check hi hp.2
    simp only [Bool.and_eq_true, isNone_iff_eq_none] at hp1
    obtain ⟨j2, h2, hp2⟩ := reach_of_check _ _ _ _ _ hp1.2.2
    rw [Bool.and_eq_true] at hp2
    exact ⟨j0, j1, j2, th, hx, hp1.2.1, hp2.2, hdeletion _ j0 j1 j2 1 th prints_app h0 hx (unanswered_of_idle hp1.1) h2
      (collisionless_of_distinctKeys hp2.1)⟩
  · obtain ⟨j0, j1, th, tunnel, v, ttl, t, h0, hx, hwrote, hfqdn, hexp, hdeadline, hp1⟩ := app_created
      (fun j1 => (runs (step deployment (dnsd 300)) (NotCreated "app.fleetingdns.run") j1
        (creatingOn ++ [.api (.tick (3600 * second))])).any fun j2 => idle j2 && (j2.dns.threads[0]?.isNone &&
        (decide (1700003600 * second ≤ j2.world.shared.now) &&
        (runs (step deployment (dnsd 300)) (NotCreated "app.fleetingdns.run") j2 (resolve 0 none)).any fun j3 =>
          distinctKeys j3 && answeredWith 0 .nxDomain j3)))
      (by decide +kernel)
    obtain ⟨j2, h2, hp2⟩ := reach_of_check _ _ _ _ _ hp1
    simp only [Bool.and_eq_true, isNone_iff_eq_none, decide_eq_true_eq] at hp2
    obtain ⟨j3, h3, hp3⟩ := reach_of_check _ _ _ _ _ hp2.2.2.2
    rw [Bool.and_eq_true] at hp3
    have hdue : tunnel.expiresAt ≤ j2.world.shared.now := by
      rw [hexp]
      exact_mod_cast hp2.2.2.1
    rw [← hfqdn] at h2 h3 ⊢
    exact ⟨j2, j3, hp2.2.2.1, hp2.2.1, hp3.2, hexpiry tunnel v ttl t j0 j1 j2 j3 0 th (hfqdn ▸ prints_app)
      h0 hx hwrote hdeadline.le h2 hdue
      (unanswered_of_idle hp2.1) h3 (collisionless_of_distinctKeys hp3.1)⟩
  · obtain ⟨j0, j1, th, tunnel, v, ttl, t, h0, hx, hwrote, hfqdn, hexp, hdeadline, hp1⟩ := app_created
      (fun j1 => idle j1 && (j1.dns.threads[0]?.isNone && (runs (step deployment (dnsd 300))
        (Untouched "app.fleetingdns.run") j1 (creatingOn ++ resolve 0 (some "127.0.0.1"))).any fun j2 =>
        distinctKeys j2 && (answeredWith 0 .noError j2 && decide (j2.world.shared.now = 1700000000 * second))))
      (by decide +kernel)
    simp only [Bool.and_eq_true, isNone_iff_eq_none] at hp1
    obtain ⟨j2, h2, hp2⟩ := reach_of_check _ _ _ _ _ hp1.2.2
    simp only [Bool.and_eq_true, decide_eq_true_eq] at hp2
    have hlt : j2.world.shared.now < tunnel.expiresAt := by
      rw [hexp, hp2.2.2]
      decide
    rw [← hfqdn] at h2 ⊢
    exact ⟨j0, j1, j2, th, v, ttl, hx, hp1.2.1, hp2.2.1, hcreation tunnel v ttl t _ j0 j1 j2 0 th
      (hfqdn ▸ prints_app) h0 hx hwrote
      hdeadline.ge (by decide) (unanswered_of_idle hp1.1) h2 hlt (by rw [hp2.2.2]; decide)
      (collisionless_of_distinctKeys hp2.1)⟩

def deletesApp (th : CallThread) : Bool :=
  match th.call, th.prog with
  | .deleteTunnel user id, .ret (.deleted (.ok true)) => user = alice && id = "t"
  | _, _ => false

def readsApp : FleetingDns.Ev → Bool
  | ⟨_, .redis (.get key), .ok (some (.tunnel tunnel))⟩ => key = .tunnel "t" && tunnel.fqdn = "app.fleetingdns.run"
  | _ => false

def resolvesApp (d : DnsThread (Option Message)) : Bool :=
  match d.prog with
  | .ret (.returned (.ok (some message))) => message.Readable &&
    message.addresses.any (·.name = ⟨["app", "fleetingdns", "run"]⟩)
  | _ => false

lemma deletes_of_deletesApp {th : CallThread} (h : deletesApp th = true) :
    th.call = .deleteTunnel alice "t" ∧ th.prog = .ret (.deleted (.ok true)) := by
  unfold deletesApp at h
  split at h
  · rename_i user id hcall hprog
    simp only [Bool.and_eq_true, decide_eq_true_eq] at h
    rw [hcall, h.1, h.2]
    exact ⟨rfl, hprog⟩
  · cases h

lemma reads_of_readsApp {th : CallThread} {e : FleetingDns.Ev} (he : e ∈ th.history) (h : readsApp e = true) :
    ∃ tunnel, Read th.history "t" tunnel ∧ tunnel.fqdn = "app.fleetingdns.run" := by
  unfold readsApp at h
  split at h
  · rename_i t key tunnel
    simp only [Bool.and_eq_true, decide_eq_true_eq] at h
    rw [h.1] at he
    exact ⟨tunnel, ⟨t, he⟩, h.2⟩
  · cases h

/-- The tunnel is gone, and for the rest of five minutes its name still has an address. -/
theorem deleted_name_resolved : ∃ (j1 j2 : Joint (Option Message)) (th : CallThread) (tunnel : Tunnel),
    Reach (Joint.step deployment (dnsd 300)) Free begin j1 ∧ j1.world.threads[1]? = some th ∧
    th.call = .deleteTunnel alice "t" ∧ th.prog = .ret (.deleted (.ok true)) ∧ Read th.history "t" tunnel ∧
    Reach (Joint.step deployment (dnsd 300)) (NotCreated tunnel.fqdn) j1 j2 ∧ ¬ Silent (dnsd 300) tunnel.fqdn j1 j2 := by
  obtain ⟨j1, h1, hp⟩ := reach_of_check (Joint.step deployment (dnsd 300)) Free begin
    (creating ++ next 0 :: creatingOn ++ resolve 0 (some "127.0.0.1") ++ deleting ++ List.replicate 3 (next 1))
    (fun j1 => (j1.world.threads[1]?.any fun th => deletesApp th && th.history.any readsApp) &&
      (j1.dns.threads[1]?.isNone && (runs (Joint.step deployment (dnsd 300)) (NotCreated "app.fleetingdns.run") j1
        ((hit 1).map .dns)).any fun j2 => j2.dns.threads[1]?.any resolvesApp))
    (by decide +kernel)
  simp only [Bool.and_eq_true, Option.any_eq_true, List.any_eq_true, Option.isNone_iff_eq_none] at hp
  obtain ⟨⟨th, hth, hdone, e, he, hread⟩, hnew, j2, hruns, d, hd, hres⟩ := hp
  obtain ⟨hcall, hprog⟩ := deletes_of_deletesApp hdone
  obtain ⟨tunnel, hread, hfqdn⟩ := reads_of_readsApp he hread
  refine ⟨j1, j2, th, tunnel, h1, hth, hcall, hprog, hread, hfqdn ▸ reach_of_runs hruns, ?_⟩
  intro hsilent
  unfold resolvesApp at hres
  split at hres
  · rename_i message hret
    simp only [Bool.and_eq_true, List.any_eq_true, decide_eq_true_eq] at hres
    obtain ⟨hreadable, record, hrecord, hname⟩ := hres
    have hlater : Later j1 1 := by
      intro d' hd'
      rw [hnew] at hd'
      cases hd'
    refine hsilent 1 d (some message) message hd hlater hret (codec_reads hreadable) record hrecord ?_
    rw [hname, hfqdn]
    exact ⟨by decide, by decide⟩
  · cases hres

end

end FleetingDns.DnsVisibility
