import FleetingDns.SubdomainUniqueness
import FleetingDns.UserLists
namespace FleetingDns.RouterLookup

open CommandPrograms ExpiringStore ThreadPool GuardedRuns World SubdomainClaims Origins UserLists TunnelLookup
  TunnelStorage Value Option List Tunnel

variable {config : Config} {w : World} {name : String} {listing : List Key}

def outcome (listing : List Key) : StoreCmd Key Value → Outcome Key
  | .keys _ => .listed listing
  | _ => .ok

section

variable (w listing)

def answers : (c : Cmd) → Option c.Reply
  | .redis c => (ExpiringStore.perform w.shared.now (visible w.shared.now w.shared.store) c (outcome listing c)).map
      Prod.snd
  | _ => none

def lookupKeys : List Key := (visible w.shared.now w.shared.store).keys.filter Key.isTunnelLookup

def routerLookup (name : String) : Option (Except String (Option TunnelInfo)) :=
  (TunnelLookup.getTunnelBySubdomain name).run.answer (answers w listing)

def indexLookup (name : String) : Option (Except ApiError (Option Tunnel)) :=
  (TunnelStorage.getTunnelBySubdomain name).run.answer (answers w [])

def seen (k : Key) : Option Value := ((w.entry k).filter (·.live w.shared.now)).map Entry.value

end

lemma answers_get (k : Key) : answers w listing (.redis (.get k)) = some (.ok (seen w k)) := by
  simp [answers, outcome, ExpiringStore.perform, apply, lookup_visible, seen, entry]

lemma answers_keys (hp : listing.Perm (lookupKeys w)) :
    answers w listing (.redis (.keys Key.isTunnelLookup)) = some (.ok listing) := by
  have hperm : listing.Perm ((visible w.shared.now w.shared.store).keys.filter Key.isTunnelLookup) := hp
  simp [answers, outcome, ExpiringStore.perform, hperm]

variable {c : StoreCmd Key Value} {f : (c : Cmd) → Option c.Reply} {x : c.Reply} {p : TunnelInfo → Bool} {id : String}
    {info : TunnelInfo} {tunnel : Tunnel}

lemma answer_query {β : Type} (hc : f (.redis c) = some (.ok x)) (k : c.Reply → TunnelLookup.Cache β) :
    (query c >>= k).run.answer f = (k x).run.answer f := by
  change (f (.redis c)).bind _ = _
  rw [hc]
  rfl

lemma answer_redis {β : Type} {msg : String} (hc : f (.redis c) = some (.ok x)) (k : c.Reply → Api β) :
    (redis c msg >>= k).run.answer f = (k x).run.answer f := by
  change (f (.redis c)).bind _ = _
  rw [hc]
  rfl

def foundTunnel (w : World) (p : TunnelInfo → Bool) (id : String) : Option TunnelInfo :=
  ((seen w (.tunnel id)).bind asTunnelInfo).filter p

def foundInList (w : World) (p : TunnelInfo → Bool) (key : Key) : Option TunnelInfo :=
  ((seen w key).bind asLookup).bind fun l => l.tunnels.findSome? (foundTunnel w p)

lemma findTunnel_answer (p : TunnelInfo → Bool) (ids : List String) :
    (findTunnel p ids).run.answer (answers w listing) = some (.ok (ids.findSome? (foundTunnel w p))) := by
  induction ids with
  | nil => rfl
  | cons id ids ih =>
    rw [findTunnel, answer_query (answers_get _), List.findSome?_cons]
    rcases hid : (seen w (.tunnel id)).bind asTunnelInfo with _ | info
    · simpa [foundTunnel, hid] using ih
    have hfound : foundTunnel w p id = if p info then some info else none := by
      rw [foundTunnel, hid, filter_some]
    rw [hfound]
    by_cases hp : p info = true
    · simp only [hp]
      rfl
    · simpa only [hp, Bool.false_eq_true, if_false] using ih

lemma scanLookups_answer (p : TunnelInfo → Bool) (keys : List Key) :
    (scanLookups p keys).run.answer (answers w listing) = some (.ok (keys.findSome? (foundInList w p))) := by
  induction keys with
  | nil => rfl
  | cons key keys ih =>
    rw [scanLookups, answer_query (answers_get _), List.findSome?_cons]
    rcases hl : (seen w key).bind asLookup with _ | l
    · simpa [foundInList, hl] using ih
    simp only [foundInList, hl, bind_some]
    change (_ >>= _ : Prog _ _ _).answer _ = _
    rw [Prog.answer_bind]
    change Option.bind ((findTunnel p l.tunnels).run.answer _) _ = _
    rw [findTunnel_answer]
    cases hf : l.tunnels.findSome? (foundTunnel w p) with
    | none => exact ih
    | some => rfl

lemma routerLookup_eq (hp : listing.Perm (lookupKeys w)) :
    routerLookup w listing name = some (.ok (listing.findSome? (foundInList w (·.subdomain == name)))) := by
  unfold routerLookup TunnelLookup.getTunnelBySubdomain TunnelLookup.scanTunnels
  rw [answer_query (answers_keys hp), scanLookups_answer]

section

variable (hs : Sane config w)

include hs

lemma seen_record (id : String) : seen w (.tunnel id) = (w.liveRecord id).map Value.tunnel := by
  unfold seen liveRecord
  cases he : w.entry (.tunnel id) with
  | none => rfl
  | some e =>
    obtain ⟨tunnel, d, rfl, -⟩ := hs.record id e he
    by_cases hl : (⟨.tunnel tunnel, some d⟩ : Entry Value).live w.shared.now = true
    · simp [Option.filter_some, Value.asTunnel]
    · simp [hl]

lemma foundTunnel_some :
    foundTunnel w p id = some info ↔ ∃ tunnel, w.liveRecord id = some tunnel ∧ tunnel.info = info ∧ p info = true := by
  rw [foundTunnel, seen_record hs, filter_eq_some_iff, bind_map, bind_eq_some_iff]
  constructor
  · rintro ⟨⟨tunnel, hl, ht⟩, hp⟩
    exact ⟨tunnel, hl, Option.some.inj ht, hp⟩
  · rintro ⟨tunnel, hl, rfl, hp⟩
    exact ⟨⟨tunnel, hl, rfl⟩, hp⟩

lemma foundInList_some {key : Key} (h : foundInList w p key = some info) :
    ∃ id tunnel, w.liveRecord id = some tunnel ∧ tunnel.info = info ∧ p info = true := by
  obtain ⟨l, -, hf⟩ := bind_eq_some_iff.mp h
  obtain ⟨id, -, hid⟩ := exists_of_findSome?_eq_some hf
  exact ⟨id, (foundTunnel_some hs).mp hid⟩

lemma indexLookup_some (h : seen w (.subdomain name) = some (.text id)) :
    indexLookup w name = some (.ok (w.liveRecord id)) := by
  unfold indexLookup TunnelStorage.getTunnelBySubdomain
  rw [answer_redis (answers_get _), h]
  change (getTunnel id).run.answer _ = _
  unfold getTunnel
  rw [answer_redis (answers_get _), seen_record hs]
  cases w.liveRecord id with
  | none | some => rfl

/-- No creation stands between storing a record of the name and claiming the name. -/
def settled (name : String) (w : World) : Bool :=
  w.threads.all fun th => !(creates name th && decide (¬ Unpublished th.history) && decide (Unclaimed th.history))

lemma settled_claimed (hset : settled name w = true) {tid : ℕ} {th : CallThread} {ttl : ℕ}
    {t : Span Shared} (hth : w.threads[tid]? = some th) (hf : th.InFlight) (hw : Wrote th.history tunnel ttl t)
    (hn : tunnel.subdomain = name) : ¬ Unclaimed th.history := by
  obtain ⟨hcall, hask⟩ := wrote_asked hs hth hw
  have hcr : creates name th = true := creates_iff.mpr ⟨hcall, hf, hn ▸ hask⟩
  have hall := all_eq_true.mp hset th (mem_of_getElem? hth)
  simpa [hcr, hw.published] using hall

lemma seen_index (hc : SubdomainUniqueness.Claims w) (hset : settled name w = true)
    (hl : w.liveRecord id = some tunnel) (hn : tunnel.subdomain = name) :
    seen w (.subdomain name) = some (.text id) := by
  obtain ⟨tid, th, ttl, t, hth, hf, hw, hun, -⟩ | ⟨d, d', he, hx, hd⟩ := hc.indexed id tunnel hl
  · exact absurd hun (settled_claimed hs hset hth hf hw hn)
  obtain ⟨e, he', hlive, -⟩ := liveRecord_some hl
  rw [he, Option.some.injEq] at he'
  subst he'
  have hnow : w.shared.now < d := live_iff.mp hlive d rfl
  have hlive' : (⟨.text id, some d'⟩ : Entry Value).live w.shared.now = true := by
    rw [live_iff]
    rintro x ⟨rfl⟩
    omega
  rw [seen, ← hn, hx, filter_some, if_pos hlive']
  rfl

lemma seen_list (hl : Lists w) (hset : settled name w = true)
    (hlive : w.liveRecord id = some tunnel) (hn : tunnel.subdomain = name) :
    ∃ l, seen w (.tunnelLookup tunnel.githubUserId) = some (.lookup l) ∧ tunnel.id ∈ l.tunnels := by
  obtain ⟨tid, th, ttl, t, hth, hf, hw, hun, -⟩ | ⟨l, he, hmem⟩ := hl.listed id tunnel hlive
  · exact absurd hun (settled_claimed hs hset hth hf hw hn)
  · exact ⟨l, by rw [seen, he]; rfl, hmem⟩

end

lemma mem_lookupKeys {k : Key} {v : Value} (hk : k.isTunnelLookup = true) (h : seen w k = some v) :
    k ∈ lookupKeys w := by
  obtain ⟨e, he, -⟩ := map_eq_some_iff.mp h
  have hlook : (visible w.shared.now w.shared.store).lookup k = some e := (lookup_visible _ _ k).trans he
  refine mem_filter.mpr ⟨AList.mem_keys.mp ?_, hk⟩
  rw [← AList.lookup_isSome, hlook]
  rfl

lemma indexLookup_eq (hs : Sane config w) (ho : Origins w) (hno : ∀ id tunnel, w.liveRecord id = some tunnel →
    tunnel.subdomain ≠ name) : indexLookup w name = some (.ok none) := by
  rcases h : seen w (.subdomain name) with _ | _
  · unfold indexLookup TunnelStorage.getTunnelBySubdomain
    rw [answer_redis (answers_get _), h]
    rfl
  obtain ⟨e, he, rfl⟩ := map_eq_some_iff.mp h
  obtain ⟨tunnel, hw, hn, ht⟩ := ho.indexed name e (filter_eq_some_iff.mp he).1
  rw [indexLookup_some hs (h.trans (congrArg some ht))]
  rcases hl : w.liveRecord tunnel.id with _ | tunnel'
  · rfl
  -- a record under the indexed identifier is the one the name was claimed for
  obtain ⟨e', he', -, hv⟩ := liveRecord_some hl
  obtain ⟨_, d, rfl, hid, -⟩ := hs.record _ e' he'
  cases hv
  have heq := written_unique hs ho (ho.stored _ _ _ he') hw hid
  exact absurd (heq ▸ hn) (hno _ tunnel' hl)

theorem lookups_agree {now : ℕ} (h : Reach (step config) (Orderly config) (init now) w)
    (hset : settled name w = true) (hp : listing.Perm (lookupKeys w)) :
    ∃ found tunnel, routerLookup w listing name = some (.ok found) ∧ indexLookup w name = some (.ok tunnel) ∧
      found.map TunnelInfo.id = tunnel.map Tunnel.id := by
  have hs := reach_sane h
  have ho := reach_origins h
  have hc := SubdomainUniqueness.reach_claims (h.mono fun _ _ hg => hg.1)
  have hl := reach_lists h
  have hscan : routerLookup w listing name = _ := routerLookup_eq hp
  by_cases hex : ∃ id tunnel, w.liveRecord id = some tunnel ∧ tunnel.subdomain = name
  · obtain ⟨id, tunnel, hlive, hn⟩ := hex
    have hindex := seen_index hs hc hset hlive hn
    refine ⟨_, some tunnel, hscan, (indexLookup_some hs hindex).trans (by rw [hlive]), ?_⟩
    cases hfound : listing.findSome? (foundInList w (·.subdomain == name)) with
    | none =>
      obtain ⟨l, hlist, hmem⟩ := seen_list hs hl hset hlive hn
      have hkey := hp.mem_iff.mpr (mem_lookupKeys (k := .tunnelLookup tunnel.githubUserId) rfl hlist)
      have hnone := List.findSome?_eq_none_iff.mp hfound _ hkey
      simp only [foundInList, hlist, bind_some, asLookup, List.findSome?_eq_none_iff] at hnone
      have hid : tunnel.id = id := record_id hs hlive
      have hsome := (foundTunnel_some (p := (·.subdomain == name)) hs).mpr ⟨tunnel, hlive, rfl, by simp [info, hn]⟩
      rw [← hid, hnone _ hmem] at hsome
      cases hsome
    | some =>
      obtain ⟨key, -, hkey⟩ := exists_of_findSome?_eq_some hfound
      obtain ⟨id', tunnel', hlive', rfl, hsub⟩ := foundInList_some hs hkey
      have hindex' := seen_index hs hc hset hlive' (by simpa [info] using hsub)
      rw [hindex, Option.some.injEq, text.injEq] at hindex'
      subst hindex'
      rw [hlive, Option.some.injEq] at hlive'
      subst hlive'
      rfl
  · have hno : ∀ id tunnel, w.liveRecord id = some tunnel → tunnel.subdomain ≠ name :=
      fun id tunnel hlive hn => hex ⟨id, tunnel, hlive, hn⟩
    refine ⟨_, none, hscan, indexLookup_eq hs ho hno, ?_⟩
    cases hfound : listing.findSome? (foundInList w (·.subdomain == name)) with
    | none => rfl
    | some =>
      obtain ⟨key, -, hkey⟩ := exists_of_findSome?_eq_some hfound
      obtain ⟨id, tunnel, hlive, rfl, hsub⟩ := foundInList_some hs hkey
      exact absurd (by simpa [info] using hsub) (hno id tunnel hlive)

open Schedule

theorem lookups_agree_created : ∃ w, Reach (step deployment) (Orderly deployment) start w ∧ settled "demo" w = true ∧
    (w.liveRecord "a").isSome ∧ ∃ found tunnel, routerLookup w (lookupKeys w) "demo" = some (.ok found) ∧
      indexLookup w "demo" = some (.ok tunnel) ∧ found.map TunnelInfo.id = tunnel.map Tunnel.id := by
  obtain ⟨w, hr, hp⟩ := reach_of_check (step deployment) (Orderly deployment) start
    (.arrive (.createTunnel alice (request 1800 "demo")) :: create 0 10000 "a" "ka")
    (fun w => settled "demo" w && (w.liveRecord "a").isSome) (by decide +kernel)
  rw [Bool.and_eq_true] at hp
  exact ⟨w, hr, hp.1, hp.2, lookups_agree hr hp.1 (List.Perm.refl _)⟩

def indexOnly (name : String) (w : World) : Bool :=
  match routerLookup w (lookupKeys w) name, indexLookup w name with
  | some (.ok none), some (.ok (some _)) => true
  | _, _ => false

theorem lookups_differ : ∃ w, Reach (step deployment) Free start w ∧ (w.threads.all fun th => th.prog.next.isNone) ∧
    routerLookup w (lookupKeys w) "demo" = some (.ok none) ∧
    ∃ tunnel, indexLookup w "demo" = some (.ok (some tunnel)) := by
  obtain ⟨w, hr, hp⟩ := started
    ([.arrive (.createTunnel alice (request 1800 "demo")), .arrive (.createTunnel alice (request 1800 "shop"))]
      ++ (create 0 10000 "a" "ka").take 16 ++ (create 1 10001 "b" "kb").take 16
      ++ (create 0 10000 "a" "ka").drop 16 ++ (create 1 10001 "b" "kb").drop 16)
    (fun w => (w.threads.all fun th => th.prog.next.isNone) && indexOnly "demo" w) (by decide +kernel)
  rw [Bool.and_eq_true] at hp
  refine ⟨w, hr, hp.1, ?_⟩
  have hindex := hp.2
  unfold indexOnly at hindex
  split at hindex
  · rename_i tunnel hrouter hidx
    exact ⟨hrouter, tunnel, hidx⟩
  · cases hindex

end FleetingDns.RouterLookup
