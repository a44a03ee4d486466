import FleetingDns.Library.ExclusiveUse
import FleetingDns.Origins
import FleetingDns.SubdomainClaims
namespace FleetingDns.GrantIsolation

open CommandPrograms ExpiringStore ThreadPool GuardedRuns ExclusiveUse World Origins SubdomainClaims List Option

variable {config : Config} {w w' : World} {a : Action} {name token id : String} {tunnel : Tunnel} {tid : ℕ}
  {th : CallThread}

def guards : Call → Bool
  | .createTunnelSession _ _ | .route _ => true
  | _ => false

/-- Which tunnel a name stands for: the record or the lookup under way that carries it. -/
inductive Uses (w : World) (name : String) : String → Prop
  | record {id : String} {tunnel : Tunnel} {d : Option ℕ} : w.entry (.tunnel id) = some ⟨.tunnel tunnel, d⟩ →
      tunnel.subdomain = name → Uses w name tunnel.id
  | reader {tid : ℕ} {th : CallThread} {id : String} {tunnel : Tunnel} : w.threads[tid]? = some th → th.InFlight →
      guards th.call = true → Read th.history id tunnel → tunnel.subdomain = name → Uses w name tunnel.id

def carries (name : String) (key : Key) (e : Entry Value) : Bool :=
  match key with
  | .tunnel _ => e.value.asTunnel.any (·.subdomain == name)
  | .sessionGrant s _ => s == name
  | _ => false

def nameUsed (w : World) (name : String) : Bool :=
  (w.shared.store.entries.any fun x => carries name x.1 x.2) ||
    w.threads.any fun th => guards th.call && th.prog.next.isSome &&
      th.history.any fun e => (recordRead e).any (·.subdomain == name)

def prompt (w : World) : Action → Bool
  | .exec tid _ => w.threads[tid]?.all fun th => match th.prog.next with
    | some (.redis (.exist key)) => (w.entry key).all fun e => e.live w.shared.now
    | _ => true
  | _ => true

/-- A record is stored only once no record, grant or lookup of its name is left. -/
def NameUnused (w : World) (a : Action) : Prop :=
  (∀ x ∈ w.storing a, nameUsed w x.tunnel.subdomain = false) ∧ prompt w a = true

instance : ∀ w a, Decidable (NameUnused w a) := by
  intro w a
  unfold NameUnused
  infer_instance

variable {e : Entry Value} {t : Span Shared}

lemma prompt_exist {o : Choice} {key : Key} (hg : prompt w (.exec tid o) = true)
    (hi : w.Issues tid th (.redis (.exist key))) (he : w.entry key = some e) :
    e.live w.shared.now = true := by
  obtain ⟨hth, k, hk⟩ := hi
  simpa [prompt, hth, Prog.next_isSome hk, he] using hg

lemma used_of_uses (h : Uses w name id) : nameUsed w name = true := by
  simp only [nameUsed, Bool.or_eq_true, List.any_eq_true]
  cases h with
  | @record id tunnel d he hn =>
    refine .inl ⟨⟨.tunnel id, ⟨.tunnel tunnel, d⟩⟩, AList.mem_lookup_iff.mp he, ?_⟩
    simp [carries, Value.asTunnel, hn]
  | @reader tid th id tunnel hth hf hc hr hn =>
    obtain ⟨t, ht⟩ := hr
    have hf' : th.prog.next.isSome = true := hf
    refine .inr ⟨th, List.mem_of_getElem? hth, ?_⟩
    simp only [hc, hf', Bool.true_and, List.any_eq_true]
    exact ⟨_, ht, by simp [recordRead, hn]⟩

lemma used_of_grant (h : w.entry (.sessionGrant name token) = some e) : nameUsed w name = true := by
  simp only [nameUsed, Bool.or_eq_true, List.any_eq_true]
  exact .inl ⟨⟨.sessionGrant name token, e⟩, AList.mem_lookup_iff.mp h, by simp [carries]⟩

lemma uses_step (hs : Sane config w) (h : step config w a = some w') (hu : Uses w' name id) :
    Uses w name id ∨ ∃ x ∈ w.storing a, x.tunnel.subdomain = name ∧ x.tunnel.id = id := by
  cases hu with
  | @record id tunnel d he hn =>
    obtain he | ⟨tid, o, th, tunnel', ttl, rfl, hi, -, heq⟩ := record_step hs h he
    · exact .inl (.record he hn)
    · cases heq
      exact .inr ⟨_, storing_of_issues hi, hn, rfl⟩
  | @reader tid th id tunnel hth hf hc hr hn =>
    obtain ⟨u, hu, hcall, hflight, hr⟩ | ⟨-, d, he⟩ := reads_step hs h hth hr
    · exact .inl (.reader hu (hflight hf) (hcall ▸ hc) hr hn)
    · exact .inl (.record he hn)

lemma exclusive_uses_step (hs : Sane config w) (hex : Exclusive (Uses w)) (hg : NameUnused w a)
    (h : step config w a = some w') : Exclusive (Uses w') := by
  refine exclusive_step hex ?_ (fun name id hu => uses_step hs h hu) ?_
  · rintro name i j ⟨x, hx, -, rfl⟩ ⟨y, hy, -, rfl⟩
    rw [mem_def, hx, Option.some.injEq] at hy
    rw [hy]
  · rintro name i j ⟨x, hx, rfl, -⟩ hu
    have hfree := hg.1 x hx
    rw [used_of_uses hu] at hfree
    cases hfree

def Minted (w : World) (tunnel : Tunnel) (token : String) (t : Span Shared) : Prop :=
  ∃ (tid : ℕ) (th : CallThread) (user : GitHubUser) (v : Value) (r : Except String Unit), w.threads[tid]? = some th ∧
    th.call = .createTunnelSession user tunnel.id ∧ user.id = tunnel.githubUserId ∧
    (⟨t, .redis (.setEx (.sessionGrant tunnel.subdomain token) v sessionGrantTtlSeconds), r⟩ : Ev) ∈ th.history

structure Grants (w : World) : Prop where
  minted : ∀ name token e, w.entry (.sessionGrant name token) = some e → ∃ tunnel t, Written w tunnel ∧
    Minted w tunnel token t ∧ tunnel.subdomain = name ∧ e.deadline = some (t.before.now + sessionGrantTtlSeconds * second) ∧
    ∀ id, Uses w name id → id = tunnel.id
  checked : ∀ (tid : ℕ) (th : CallThread) (sni : Option String) (token : String) (t : Span Shared) (id : String)
    (tunnel : Tunnel), w.threads[tid]? = some th → th.call = .route sni → Checked th.history tunnel.subdomain token t →
    Read th.history id tunnel → ∃ t0, Minted w tunnel token t0 ∧ t0.before.now ≤ t.before.now ∧
      t.before.now < t0.before.now + sessionGrantTtlSeconds * second

lemma minted_step (h : step config w a = some w') (hm : Minted w tunnel token t) :
    Minted w' tunnel token t := by
  obtain ⟨tid, th, user, v, r, hth, hcall, huser, he⟩ := hm
  obtain ⟨th', hth', hcall', hsub⟩ := thread_kept h hth
  exact ⟨tid, th', user, v, r, hth', hcall'.trans hcall, huser, hsub he⟩

lemma grant_step (hs : Sane config w) (ho : Origins w) (hex : Exclusive (Uses w)) (hi : Grants w)
    (hg : NameUnused w a) (h : step config w a = some w') (he : w'.entry (.sessionGrant name token) = some e) :
    ∃ tunnel t, Written w' tunnel ∧ Minted w' tunnel token t ∧
      tunnel.subdomain = name ∧ e.deadline = some (t.before.now + sessionGrantTtlSeconds * second) ∧
      ∀ id, Uses w' name id → id = tunnel.id := by
  obtain heq | ⟨-, -, hnone⟩ | ⟨tid, o, th, c, rfl, hiss, ht, heq⟩ | ⟨_, _, _, -, hk, -⟩ :=
    entry_step h (.sessionGrant name token)
  · have hold : w.entry (.sessionGrant name token) = some e := heq ▸ he
    obtain ⟨tunnel, t, hw, hm, hn, hd, huses⟩ := hi.minted name token e hold
    refine ⟨tunnel, t, written_step h hw, minted_step h hm, hn, hd, fun id hu => ?_⟩
    obtain hu | ⟨x, hx, hx', -⟩ := uses_step hs h hu
    · exact huses id hu
    · -- a grant of the name is left, so no record of it is stored
      have hfree := hg.1 x hx
      rw [hx', used_of_grant hold] at hfree
      cases hfree
  · rw [hnone] at he
    cases he
  · have hm := hs.may hiss
    rw [heq] at he
    cases c with
    | setEx k =>
      cases ht
      cases he
      obtain ⟨user, id, tunnel, granted, hcall, hr, howner, rfl, rfl, rfl⟩ := hm
      obtain ⟨hw, rfl⟩ := ho.read tid th id tunnel hiss.1 hr
      obtain ⟨k, s, r, -, -, -, hth'⟩ := exec_step h hiss
      have hreader : Uses w tunnel.subdomain tunnel.id := .reader hiss.1 hiss.inFlight (by rw [hcall]; rfl) hr rfl
      have hminted : Minted w' tunnel token ⟨w.shared, s⟩ :=
        ⟨tid, _, user, .grant ⟨user.id, granted⟩, r, hth', hcall, howner.symm, by simp⟩
      refine ⟨tunnel, _, written_step h hw, hminted, rfl, rfl, fun id hu => ?_⟩
      obtain hu | ⟨x, hx, -⟩ := uses_step hs h hu
      · exact hex _ id tunnel.id hu hreader
      · obtain ⟨hth, k', hk'⟩ := hiss
        simp [storing, hth, Prog.next_isSome hk'] at hx
    | get | exist | keys => cases ht
    | set | setNxEx | del | expire => cases ht; exact absurd (hm _ rfl) (by simp [owned])
  · cases hk

lemma checked_step (hs : Sane config w) (ho : Origins w) (hi : Grants w) (hg : NameUnused w a)
    (h : step config w a = some w') {sni : Option String} (hth : w'.threads[tid]? = some th)
    (hcall : th.call = .route sni) (hc : Checked th.history tunnel.subdomain token t) (hr : Read th.history id tunnel) :
    ∃ t0, Minted w' tunnel token t0 ∧ t0.before.now ≤ t.before.now ∧
      t.before.now < t0.before.now + sessionGrantTtlSeconds * second := by
  obtain ⟨tr, hr⟩ := hr
  obtain ⟨u, hu, hcu, -, -, hr⟩ | ⟨o, u, -, hiss, -, hhist, -, -, -, -⟩ := event_step h hth hr
  · obtain ⟨u', hu', -, -, -, hc⟩ | ⟨o, u', rfl, hiss, -, -, hb, hperf, -, -⟩ := event_step h hth hc
    · rw [hu, Option.some.injEq] at hu'
      subst hu'
      obtain ⟨t0, hm, hle, hlt⟩ := hi.checked tid u sni token t id tunnel hu (hcu.trans hcall) hc ⟨tr, hr⟩
      exact ⟨t0, minted_step h hm, hle, hlt⟩
    rw [hiss.1, Option.some.injEq] at hu
    subst hu
    have hb' : t.before = w.shared := hb
    obtain ⟨o', st, hex, -⟩ := Shared.perform_redis hperf
    obtain ⟨e, he⟩ := isSome_iff_exists.mp (perform_exist hex).2.symm
    obtain ⟨tunnel', t0, hw', hm, hn, hd, huses⟩ := hi.minted tunnel.subdomain token e he
    have hreader : Uses w tunnel.subdomain tunnel.id :=
      .reader hiss.1 hiss.inFlight (by rw [hcu, hcall]; rfl) ⟨tr, hr⟩ rfl
    have hid := huses _ hreader
    obtain rfl := written_unique hs ho (ho.read tid u' id tunnel hiss.1 ⟨tr, hr⟩).1 hw' hid
    have hlive := live_iff.mp (prompt_exist hg.2 hiss he) _ hd
    have hbefore : t0.before.now ≤ w.shared.now := by
      obtain ⟨j, v, user, _, r, hv, -, -, hmem⟩ := hm
      exact (hs.performed j v _ hv hmem).2
    refine ⟨t0, minted_step h hm, ?_, ?_⟩
    · rw [hb']
      exact hbefore
    · rw [hb']
      exact hlive
  -- the record is read before any grant is checked
  rw [hhist] at hc
  obtain hc | hc := mem_append.mp hc
  · exact absurd rfl ((hs.may hiss).1 _ hc _)
  · rw [mem_singleton] at hc
    cases hc

lemma grants_step (hs : Sane config w) (ho : Origins w) (hex : Exclusive (Uses w)) (hi : Grants w)
    (hg : NameUnused w a) (h : step config w a = some w') : Grants w' := by
  constructor
  · intro name token e he
    exact grant_step hs ho hex hi hg h he
  · intro tid th sni token t id tunnel hth hcall hc hr
    exact checked_step hs ho hi hg h hth hcall hc hr

lemma reach_grants {now : ℕ} (h : Reach (step config) NameUnused (init now) w) : Exclusive (Uses w) ∧ Grants w := by
  refine h.invariant (I := fun w => Exclusive (Uses w) ∧ Grants w) (J := fun w => Sane config w ∧ Origins w)
    (fun _ hr => ⟨reach_sane hr, reach_origins hr⟩) ⟨?_, ?_, ?_⟩ ?_
  · intro name i j hi
    obtain ⟨⟨⟩, -⟩ | ⟨⟨⟩, -⟩ := hi
  · rintro name token e ⟨⟩
  · rintro tid th sni token t id tunnel ⟨⟩
  · rintro w a w' ⟨hs, ho⟩ ⟨hex, hi⟩ hg hstep
    exact ⟨exclusive_uses_step hs hex hg hstep, grants_step hs ho hex hi hg hstep⟩

theorem admits_owner_viewers {now : ℕ} (h : Reach (step config) NameUnused (init now) w) (hth : w.threads[tid]? = some th)
    {t : Span Shared} {info : TunnelInfo} (he : (⟨t, .dialSlot info, .ok ()⟩ : Ev) ∈ th.history)
    (hp : info.protectedTunnel = true) :
    ∃ tunnel, Read th.history tunnel.id tunnel ∧ tunnel.info = info ∧
      (∃ token t, Checked th.history tunnel.subdomain token t) ∧
      ∀ token t, Checked th.history tunnel.subdomain token t → ∃ t0, Minted w tunnel token t0 ∧
        t0.before.now ≤ t.before.now ∧ t.before.now ≤ t0.before.now + 900 * second := by
  have hs := reach_sane h
  obtain ⟨h1, h2, heq⟩ := append_of_mem he
  obtain ⟨sni, id, tunnel, hcall, hr, rfl, -, hcheck⟩ := hs.permitted tid th hth h1 _ h2 heq
  obtain ⟨token, tc, hc⟩ := hcheck hp
  have hsub : h1 ⊆ th.history := by
    rw [heq]
    exact subset_append_left _ _
  have hr' := hr.mono hsub
  obtain ⟨-, rfl⟩ := (reach_origins h).read tid th id tunnel hth hr'
  refine ⟨tunnel, hr', rfl, ⟨token, tc, hsub hc⟩, fun token t hc => ?_⟩
  obtain ⟨t0, hm, hle, hlt⟩ := (reach_grants h).2.checked tid th _ token t _ tunnel hth hcall hc hr'
  exact ⟨t0, hm, hle, hlt.le⟩

open Schedule

def protectedRequest (subdomain : String) : CreateTunnelRequest :=
  { request 1800 subdomain with protectedTunnel := some true }

def grant (tid : ℕ) : List Action :=
  [.exec tid (.redis .ok), .exec tid (.indices (List.replicate 32 0)), .exec tid .plain, .exec tid (.redis .ok),
    .exec tid .plain]

def view (tid scans : ℕ) : List Action :=
  List.replicate scans (.exec tid (.redis .ok))
    ++ [.exec tid (.head (.ok (EdgeRouter.ascii ("Cookie: fdns_session=" ++ String.ofList (List.replicate 32 'a'))))),
      .exec tid (.redis .ok), .exec tid (.dial (.ok ()))]

def dialedProtected : Ev → Option TunnelInfo
  | ⟨_, .dialSlot info, .ok ()⟩ => if info.protectedTunnel then some info else none
  | _ => none

lemma dialedProtected_some {e : Ev} {info : TunnelInfo} (h : dialedProtected e = some info) :
    info.protectedTunnel = true ∧ ∃ t, e = ⟨t, .dialSlot info, .ok ()⟩ := by
  unfold dialedProtected at h
  split at h
  · split_ifs at h with hp
    cases h
    exact ⟨hp, _, rfl⟩
  · cases h

theorem admits_owner_viewers_granted : ∃ w th t info, Reach (step deployment) NameUnused start w ∧
    w.threads[4]? = some th ∧ (⟨t, .dialSlot info, .ok ()⟩ : Ev) ∈ th.history ∧ info.protectedTunnel = true ∧
    ∃ tunnel, Read th.history tunnel.id tunnel ∧ tunnel.info = info ∧
      (∃ token t, Checked th.history tunnel.subdomain token t) ∧
      ∀ token t, Checked th.history tunnel.subdomain token t → ∃ t0, Minted w tunnel token t0 ∧
        t0.before.now ≤ t.before.now ∧ t.before.now ≤ t0.before.now + 900 * second := by
  obtain ⟨w, hr, hp⟩ := reach_of_check (step deployment) NameUnused start
    (serve (protectedRequest "demo") 10000 "a" "ka" ++ [.arrive (.createTunnelSession alice "a")] ++ grant 3
      ++ [.arrive (.route (some "demo.fleetingdns.run"))] ++ view 4 3)
    (fun w => w.threads[4]?.any fun th => th.history.any fun e => (dialedProtected e).isSome) (by decide +kernel)
  simp only [Option.any_eq_true, List.any_eq_true] at hp
  obtain ⟨th, hth, e, he, hd⟩ := hp
  obtain ⟨info, hx⟩ := isSome_iff_exists.mp hd
  obtain ⟨hprot, t, rfl⟩ := dialedProtected_some hx
  exact ⟨w, th, t, info, hr, hth, he, hprot, admits_owner_viewers hr hth he hprot⟩

/-- The grant of a deleted tunnel opens the protected tunnel that another user creates under the same name. -/
theorem admits_stranger : ∃ w, Reach (step deployment) Free start w ∧ ∃ th ∈ w.threads, ∃ t info,
    (⟨t, .dialSlot info, .ok ()⟩ : Ev) ∈ th.history ∧ info.protectedTunnel = true ∧
      ∀ u ∈ w.threads, ∀ user, u.call ≠ .createTunnelSession user info.id := by
  obtain ⟨w, hr, hp⟩ := started
    ([.arrive (.createTunnel bob (request 1800 "demo"))] ++ create 0 10000 "b" "kb"
      ++ [.arrive (.createTunnelSession bob "b")] ++ grant 1
      ++ [.arrive (.deleteTunnel bob "b")] ++ List.replicate 7 (.exec 2 (.redis .ok))
      ++ [.arrive (.createTunnel alice (protectedRequest "demo"))] ++ create 3 10001 "a" "ka"
      ++ [.sshConnect laptop, .arrive (.authPublickey 0 laptop none "tunnel-a" "ka")] ++ authenticate 4
      ++ [.arrive (.tcpipForward 0 (some "a") 10001)] ++ forward 5 10001
      ++ [.arrive (.route (some "demo.fleetingdns.run"))] ++ view 6 3)
    (fun w => w.threads.any fun th => th.history.any fun e => (dialedProtected e).any fun info =>
      w.threads.all fun u => match u.call with
        | .createTunnelSession _ id => id != info.id
        | _ => true) (by decide +kernel)
  simp only [Option.any_eq_true, List.any_eq_true, List.all_eq_true] at hp
  obtain ⟨th, hth, e, he, info, hx, hall⟩ := hp
  obtain ⟨hprot, t, rfl⟩ := dialedProtected_some hx
  refine ⟨w, hr, th, hth, t, info, he, hprot, fun u hu user hcall => ?_⟩
  have hne := hall u hu
  rw [hcall] at hne
  simp at hne

end FleetingDns.GrantIsolation
