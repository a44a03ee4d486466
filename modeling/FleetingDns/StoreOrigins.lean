import FleetingDns.SlotMapping
import FleetingDns.UserLists
namespace FleetingDns.StoreOrigins

open CommandPrograms ExpiringStore ThreadPool GuardedRuns World Origins UserLists UserTunnelLookup Option

def CreatedFor (w : World) (owner id : String) : Prop :=
  ∃ tunnel, Written w tunnel ∧ tunnel.id = id ∧ tunnel.githubUserId = owner

/-- A list is taken over from an earlier read, so what was read has to be as good as what is stored. -/
structure OwnLists (w : World) : Prop where
  stored : ∀ owner l d, w.entry (.tunnelLookup owner) = some ⟨.lookup l, d⟩ → ∀ id ∈ l.tunnels, CreatedFor w owner id
  read : ∀ (tid : ℕ) (th : CallThread) (owner : String) (l : UserTunnelLookup), w.threads[tid]? = some th →
    Got th.history (.tunnelLookup owner) (some (.lookup l)) → ∀ id ∈ l.tunnels, CreatedFor w owner id

variable {config : Config} {G : World → Action → Prop} {now : ℕ} {w w' : World} {a : Action} {tid : ℕ} {th : CallThread}
  {owner id : String} {tunnel : Tunnel}

lemma createdFor_step (h : step config w a = some w') (hc : CreatedFor w owner id) : CreatedFor w' owner id := by
  obtain ⟨tunnel, hw, hid, howner⟩ := hc
  exact ⟨tunnel, written_step h hw, hid, howner⟩

lemma mem_ofData {existing : Option Value} (h : id ∈ (ofData tunnel existing).tunnels) :
    ∃ l, existing = some (.lookup l) ∧ id ∈ l.tunnels := by
  unfold ofData at h
  cases hl : existing.bind Value.asLookup with
  | none =>
    rw [hl] at h
    cases h
  | some l =>
    rw [hl] at h
    obtain ⟨v, rfl, hv⟩ := bind_eq_some_iff.mp hl
    exact ⟨l, by rw [Value.asLookup_some hv], h⟩

lemma mem_push {l : UserTunnelLookup} {added : String} (h : id ∈ (l.push added).tunnels) : id ∈ l.tunnels ∨ id = added := by
  unfold push at h
  split_ifs at h
  · exact .inl h
  · exact mem_snoc.mp h

lemma OwnLists.set (ho : OwnLists w) (hth : w.threads[tid]? = some th) {l : UserTunnelLookup}
    (hm : MaySetLookup th.call th.history owner (.lookup l)) (hid : id ∈ l.tunnels) : CreatedFor w owner id := by
  obtain ⟨t, existing, h0, hh, hm⟩ := hm
  have hgot : Got th.history (.tunnelLookup owner) existing := ⟨t, by simp [hh]⟩
  obtain ⟨user, request, tunnel, ttl, t', -, hw, howner, hl⟩ | ⟨user, removed, l0, -, -, rfl, hl⟩ := hm
  · cases hl
    obtain hid | rfl := mem_push hid
    · obtain ⟨l0, rfl, hmem⟩ := mem_ofData hid
      exact ho.read tid th owner l0 hth hgot id hmem
    · exact ⟨tunnel, ⟨tid, th, ttl, t', hth, hw⟩, rfl, howner⟩
  · cases hl
    exact ho.read tid th owner l0 hth hgot id (List.mem_of_mem_filter hid)

lemma ownLists_step (hs : Sane config w) (hp : Plain w) (ho : OwnLists w) (h : step config w a = some w') : OwnLists w' := by
  constructor
  · intro owner l d he id hid
    obtain heq | ⟨tid, o, th, v, -, hi, hm, heq⟩ := list_step hs hp h owner
    · exact createdFor_step h (ho.stored owner l d (heq ▸ he) id hid)
    · rw [heq] at he
      cases he
      exact createdFor_step h (ho.set hi.1 hm hid)
  · rintro tid th owner l hth ⟨t, ht⟩ id hid
    obtain ⟨u, hu, -, -, -, hold⟩ | ⟨o, u, -, -, -, -, -, hperf, -, -⟩ := event_step h hth ht
    · exact createdFor_step h (ho.read tid u owner l hu ⟨t, hold⟩ id hid)
    · obtain ⟨⟨v, d⟩, he, rfl⟩ := map_eq_some_iff.mp (got_entry hperf).symm
      exact createdFor_step h (ho.stored owner l d he id hid)

lemma reach_ownLists (h : Reach (step config) G (init now) w) : OwnLists w := by
  refine h.invariant (J := fun w => Sane config w ∧ Plain w) (fun _ hr => ⟨reach_sane hr, reach_plain hr⟩) ⟨?_, ?_⟩ ?_
  · rintro owner l d ⟨⟩
  · rintro tid th owner l ⟨⟩
  · intro w a w' hj ho _ hstep
    exact ownLists_step hj.1 hj.2 ho hstep

lemma thread_run (h : Reach (step config) G w w') (hth : w.threads[tid]? = some th) :
    ∃ th', w'.threads[tid]? = some th' ∧ th.history ⊆ th'.history := by
  induction h with
  | refl => exact ⟨th, hth, List.Subset.refl _⟩
  | tail _ _ hstep ih =>
    obtain ⟨u, hu, hsub⟩ := ih
    obtain ⟨u', hu', -, hsub'⟩ := thread_kept hstep hu
    exact ⟨u', hu', fun _ he => hsub' (hsub he)⟩

lemma erased_run (h : Reach (step config) G (init now) w) (hr : Reach (step config) G w w')
    (hth : w.threads[tid]? = some th) (hd : Deleted th.history id) : w'.entry (.tunnel id) = none := by
  obtain ⟨th', hth', hsub⟩ := thread_run hr hth
  exact (reach_origins (h.trans hr)).deleted tid th' id hth' (hd.mono hsub)

open Schedule

def creation : List Action := .arrive (.createTunnel alice (request 1800 "demo")) :: create 0 10000 "a" "ka"

def erases (id : String) : Ev → Bool
  | ⟨_, .redis (.del (.tunnel k)), .ok _⟩ => k == id
  | _ => false

lemma deleted_of_erases {h : List Ev} (he : h.any (erases id) = true) : Deleted h id := by
  obtain ⟨e, hmem, he⟩ := List.any_eq_true.mp he
  unfold erases at he
  split at he
  · rw [eq_of_beq he] at hmem
    exact ⟨_, _, hmem⟩
  · cases he

/-- No call that comes after the erasure sees the tunnel, and no call under way sees it again. -/
theorem erased_for_good (h : Reach (step config) G (init now) w) (hr : Reach (step config) G w w')
    (hth : w.threads[tid]? = some th) (hd : Deleted th.history id) :
    w'.entry (.tunnel id) = none ∧ ∀ (j : ℕ) (u : CallThread) (tunnel : Tunnel), w'.threads[j]? = some u →
      Read u.history id tunnel → ∃ u0, w.threads[j]? = some u0 ∧ Read u0.history id tunnel := by
  refine ⟨erased_run h hr hth hd, ?_⟩
  induction hr with
  | refl => exact fun j u tunnel hu hread => ⟨u, hu, hread⟩
  | tail hr _ hstep ih =>
    intro j u tunnel hu hread
    obtain ⟨u1, hu1, -, -, hread1⟩ | ⟨-, d, he⟩ := reads_step (reach_sane (h.trans hr)) hstep hu hread
    · exact ih j u1 tunnel hu1 hread1
    · cases (erased_run h hr hth hd).symm.trans he

theorem erased_for_good_alice : ∃ w th, Reach (step deployment) Free start w ∧ w.threads[1]? = some th ∧
    Deleted th.history "a" ∧ w.entry (.tunnel "a") = none := by
  obtain ⟨w, hr, hp⟩ := started
    (creation ++ .arrive (.deleteTunnel alice "a") :: List.replicate 3 (.exec 1 (.redis .ok)))
    (fun w => w.threads[1]?.any fun th => th.history.any (erases "a")) (by decide +kernel)
  obtain ⟨th, hth, he⟩ := (any_eq_true _ _).mp hp
  have hd := deleted_of_erases he
  exact ⟨w, th, hr, hth, hd, (erased_for_good hr .refl hth hd).1⟩

lemma written_by (hs : Sane config w) (hw : Written w tunnel) :
    ∃ (tid : ℕ) (th : CallThread) (user : GitHubUser) (request : CreateTunnelRequest) (ttl : ℕ) (t : Span Shared),
      w.threads[tid]? = some th ∧ th.call = .createTunnel user request ∧ user.id = tunnel.githubUserId ∧
      Wrote th.history tunnel ttl t := by
  obtain ⟨tid, th, ttl, t, hth, hwrote⟩ := hw
  have ⟨r, hr⟩ := hwrote
  obtain ⟨h1, h2, heq⟩ := List.append_of_mem hr
  obtain ⟨user, request, tunnel', _, _, hcall, ht, -, howner, -⟩ := hs.permitted tid th hth h1 _ h2 heq
  cases ht
  exact ⟨tid, th, user, request, ttl, t, hth, hcall, howner.symm, hwrote⟩

theorem lists_hold_own_tunnels (h : Reach (step config) G (init now) w) {e : Entry Value} {l : UserTunnelLookup}
    (he : w.entry (.tunnelLookup owner) = some e) (hl : e.value.asLookup = some l) (hid : id ∈ l.tunnels) :
    ∃ tunnel, tunnel.id = id ∧ tunnel.githubUserId = owner ∧
      (∃ (tid : ℕ) (th : CallThread) (user : GitHubUser) (request : CreateTunnelRequest) (ttl : ℕ) (t : Span Shared),
        w.threads[tid]? = some th ∧ th.call = .createTunnel user request ∧ user.id = owner ∧
        Wrote th.history tunnel ttl t) ∧
      ∀ tunnel', Written w tunnel' → tunnel'.id = id → tunnel' = tunnel := by
  obtain ⟨v, d⟩ := e
  obtain rfl := Value.asLookup_some hl
  obtain ⟨tunnel, hw, hid, rfl⟩ := (reach_ownLists h).stored owner l d he id hid
  refine ⟨tunnel, hid, rfl, written_by (reach_sane h) hw, ?_⟩
  intro tunnel' hw' hid'
  exact written_unique (reach_sane h) (reach_origins h) hw' hw (hid'.trans hid.symm)

theorem lists_hold_own_tunnels_alice : ∃ w e l, Reach (step deployment) Free start w ∧
    w.entry (.tunnelLookup "1") = some e ∧ e.value.asLookup = some l ∧ "a" ∈ l.tunnels ∧
    ∃ tunnel, tunnel.id = "a" ∧ tunnel.githubUserId = "1" ∧ ∃ (tid : ℕ) (th : CallThread) (user : GitHubUser)
      (request : CreateTunnelRequest) (ttl : ℕ) (t : Span Shared), w.threads[tid]? = some th ∧
        th.call = .createTunnel user request ∧ user.id = "1" ∧ Wrote th.history tunnel ttl t := by
  obtain ⟨w, hr, hp⟩ := started creation
    (fun w => (w.entry (.tunnelLookup "1")).any fun e => e.value.asLookup.any ("a" ∈ ·.tunnels)) (by decide +kernel)
  simp only [any_eq_true, decide_eq_true_eq] at hp
  obtain ⟨e, he, l, hl, hid⟩ := hp
  obtain ⟨tunnel, ha, howner, hwriter, -⟩ := lists_hold_own_tunnels hr he hl hid
  exact ⟨w, e, l, hr, he, hl, hid, tunnel, ha, howner, hwriter⟩

theorem store_well_sourced (h : Reach (step config) G (init now) w) :
    (∀ id e, w.entry (.tunnel id) = some e → ∃ tunnel d, e = ⟨.tunnel tunnel, some d⟩ ∧ tunnel.id = id ∧
      Written w tunnel ∧ 10000 ≤ tunnel.slot ∧ tunnel.slot ≤ 65535) ∧
    (∀ name e, w.entry (.subdomain name) = some e → ∃ tunnel, Written w tunnel ∧ tunnel.subdomain = name ∧
      e.value = .text tunnel.id) ∧
    (∀ fqdn e, w.entry (.slot fqdn) = some e → e.value = .text config.api.edgePublicIp ∧
      ∃ name, fqdn = name ++ "." ++ "fleetingdns.run") ∧
    ∀ owner e, w.entry (.tunnelLookup owner) = some e → ∃ l, e = ⟨.lookup l, none⟩ := by
  refine ⟨?_, (reach_origins h).indexed, fun _ _ => SlotMapping.slot_origin h, reach_plain h⟩
  intro id e he
  obtain ⟨tunnel, d, rfl, hid, hslot⟩ := (reach_sane h).record id e he
  exact ⟨tunnel, d, rfl, hid, (reach_origins h).stored id tunnel d he, hslot⟩

theorem store_well_sourced_alice : ∃ w e tunnel, Reach (step deployment) Free start w ∧
    w.entry (.subdomain "demo") = some e ∧ Written w tunnel ∧ tunnel.subdomain = "demo" ∧ e.value = .text tunnel.id := by
  obtain ⟨w, hr, hp⟩ := started creation
    (fun w => (w.entry (.subdomain "demo")).isSome) (by decide +kernel)
  obtain ⟨e, he⟩ := isSome_iff_exists.mp hp
  obtain ⟨tunnel, hw, hname, hv⟩ := (store_well_sourced hr).2.1 "demo" e he
  exact ⟨w, e, tunnel, hr, he, hw, hname, hv⟩

end FleetingDns.StoreOrigins
