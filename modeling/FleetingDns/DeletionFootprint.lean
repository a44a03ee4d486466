import FleetingDns.Library.ProgramRuns
import FleetingDns.UserLists
namespace FleetingDns.DeletionFootprint

open CommandPrograms ExpiringStore GuardedRuns World UserLists TunnelStorage Option UserTunnelLookup

variable {config : Config} {call : Call} {s s' : Shared} {es : List Ev} {w : World}

def Ticks (s s' : Shared) : Prop := ∃ d, s' = { s with now := s.now + d }

abbrev Alone (config : Config) (call : Call) {α : Type} (s : Shared) (p : Program α) (es : List Ev) (s' : Shared)
    (res : Option α) : Prop :=
  Attempt (fun s c o => Shared.perform config s call c o) Ticks s p es s' res

lemma alone_redis {c : StoreCmd Key Value} {msg : String} {x : c.Reply}
    (h : Alone config call s (redis c msg).run es s' (some (.ok x))) :
    ∃ now o, ExpiringStore.perform now s.store c o = some (s'.store, .ok x) := by
  obtain ⟨r, s1, es1, es2, h1, h2, rfl⟩ | ⟨hn, -⟩ := attempt_bind h
  · obtain ⟨s2, o, ⟨d, rfl⟩, hp, -⟩ := attempt_issue h1
    obtain ⟨o', st, hst, rfl⟩ := Shared.perform_redis hp
    cases r with
    | ok =>
      obtain ⟨rfl, -, hx⟩ := attempt_ret h2
      cases hx
      exact ⟨_, o', hst⟩
    | error => cases (attempt_ret h2).2.2
  · cases hn

variable {id : String} {e : Entry Value}

lemma alone_getTunnel {r : Option Tunnel}
    (h : Alone config call s (getTunnel id).run es s' (some (.ok r))) :
    s'.store = s.store ∧ r = ((s.store.lookup (.tunnel id)).map Entry.value).bind Value.asTunnel := by
  obtain ⟨x, s1, es1, es2, h1, h2, -⟩ := attempt_seq h
  obtain ⟨now, o, hp⟩ := alone_redis h1
  obtain ⟨hs, hx⟩ := perform_get hp
  rw [← hx, ← hs]
  cases x with
  | none =>
    obtain ⟨rfl, -, hr⟩ := attempt_ret h2
    cases hr
    exact ⟨rfl, rfl⟩
  | some v =>
    dsimp only at h2
    split at h2
    · rename_i t ht
      obtain ⟨rfl, -, hr⟩ := attempt_ret h2
      cases hr
      exact ⟨rfl, ht.symm⟩
    · cases (attempt_ret h2).2.2

def unlist (id : String) (e : Entry Value) : Entry Value :=
  match e.value.asLookup with
  | some l => ⟨.lookup (l.remove id), none⟩
  | none => e

structure Erased (id : String) (tunnel : Tunnel) (before after : Store Key Value) : Prop where
  record : after.lookup (.tunnel id) = none
  claim : after.lookup (.subdomain tunnel.subdomain) = none
  slot : after.lookup (.slot tunnel.fqdn) = none
  listed : after.lookup (.tunnelLookup tunnel.githubUserId) =
    (before.lookup (.tunnelLookup tunnel.githubUserId)).map (unlist id)
  frame : ∀ k, k ≠ .tunnel id → k ≠ .subdomain tunnel.subdomain → k ≠ .slot tunnel.fqdn →
    k ≠ .tunnelLookup tunnel.githubUserId → after.lookup k = before.lookup k

lemma alone_deleteTunnel {tunnel : Tunnel} {d : Option ℕ}
    (he : s.store.lookup (.tunnel id) = some ⟨.tunnel tunnel, d⟩)
    (h : Alone config call s (TunnelStorage.deleteTunnel id).run es s' (some (.ok true))) :
    Erased id tunnel s.store s'.store := by
  obtain ⟨r, s1, es1, es2, h1, h2, -⟩ := attempt_seq h
  obtain ⟨hs1, hr⟩ := alone_getTunnel h1
  rw [he] at hr
  cases hr
  obtain ⟨_, s2, _, _, hdel, h2, -⟩ := attempt_seq h2
  obtain ⟨now2, o2, hp2⟩ := alone_redis hdel
  obtain ⟨_, s3, _, _, hclaim, h3, -⟩ := attempt_seq h2
  obtain ⟨now3, o3, hp3⟩ := alone_redis hclaim
  obtain ⟨_, s4, _, _, hslot, h4, -⟩ := attempt_seq h3
  obtain ⟨now4, o4, hp4⟩ := alone_redis hslot
  obtain ⟨existing, s5, _, _, hget, h5, -⟩ := attempt_seq h4
  obtain ⟨now5, o5, hp5⟩ := alone_redis hget
  obtain ⟨hs5, hexisting⟩ := perform_get hp5
  -- the three index keys are gone and every other key is as before when the list is read
  have hframe : ∀ k, k ≠ .tunnel id → k ≠ .subdomain tunnel.subdomain → k ≠ .slot tunnel.fqdn →
      s5.store.lookup k = s.store.lookup k := by
    intro k hk1 hk2 hk3
    rw [hs5, perform_frame hp4 (by rintro ⟨rfl⟩; exact hk3 rfl), perform_frame hp3 (by rintro ⟨rfl⟩; exact hk2 rfl),
      perform_frame hp2 (by rintro ⟨rfl⟩; exact hk1 rfl), hs1]
  have hrecord : s5.store.lookup (.tunnel id) = none := by
    rw [hs5, perform_frame hp4 (by rintro ⟨⟩), perform_frame hp3 (by rintro ⟨⟩), perform_del hp2]
  have hname : s5.store.lookup (.subdomain tunnel.subdomain) = none := by
    rw [hs5, perform_frame hp4 (by rintro ⟨⟩), perform_del hp3]
  have hfqdn : s5.store.lookup (.slot tunnel.fqdn) = none := by
    rw [hs5, perform_del hp4]
  have hlist : s5.store.lookup (.tunnelLookup tunnel.githubUserId) = s.store.lookup (.tunnelLookup tunnel.githubUserId) :=
    hframe _ (by rintro ⟨⟩) (by rintro ⟨⟩) (by rintro ⟨⟩)
  rw [← hs5, hlist] at hexisting
  split at h5
  · rename_i l hl
    obtain ⟨_, s6, _, _, hset, h6, -⟩ := attempt_seq h5
    obtain ⟨now6, o6, hp6⟩ := alone_redis hset
    obtain ⟨rfl, -, -⟩ := attempt_ret h6
    refine ⟨?_, ?_, ?_, ?_, ?_⟩
    · rw [perform_frame hp6 (by rintro ⟨⟩), hrecord]
    · rw [perform_frame hp6 (by rintro ⟨⟩), hname]
    · rw [perform_frame hp6 (by rintro ⟨⟩), hfqdn]
    · rw [perform_set hp6]
      rw [hexisting] at hl
      obtain ⟨v, hv, hvl⟩ := Option.bind_eq_some_iff.mp hl
      obtain ⟨e, he', rfl⟩ := Option.map_eq_some_iff.mp hv
      rw [he', Option.map_some, unlist, hvl]
    · intro k hk1 hk2 hk3 hk4
      rw [perform_frame hp6 (by rintro ⟨rfl⟩; exact hk4 rfl), hframe k hk1 hk2 hk3]
  rename_i hl
  obtain ⟨rfl, -, -⟩ := attempt_ret h5
  refine ⟨hrecord, hname, hfqdn, ?_, fun k hk1 hk2 hk3 _ => hframe k hk1 hk2 hk3⟩
  rw [hlist]
  cases he' : s.store.lookup (.tunnelLookup tunnel.githubUserId) with
  | none => rfl
  | some e =>
    rw [hexisting, he'] at hl
    have hv : e.value.asLookup = none := hl
    rw [Option.map_some, unlist, hv]

def Names (tunnel : Tunnel) : Key → Value → Prop
  | .tunnel id, _ => id = tunnel.id
  | .subdomain name, v => name = tunnel.subdomain ∧ v = .text tunnel.id
  | .slot fqdn, _ => fqdn = tunnel.fqdn
  | .port n, v => n = tunnel.slot ∧ v = .text tunnel.githubUserId
  | .session keyPrefix id, _ => keyPrefix = "session" ∧ id = tunnel.id
  | .tunnelLookup owner, v => owner = tunnel.githubUserId ∧ ∃ l, v = .lookup l ∧ tunnel.id ∈ l.tunnels
  | _, _ => False

section

variable (w) (tunnel : Tunnel)

def HoldsName : Prop :=
  ∃ d, w.entry (.subdomain tunnel.subdomain) = some ⟨.text tunnel.id, d⟩

/-- A DNS slot holds the edge address only, so it belongs to the tunnel that holds the name. -/
def Belongs (k : Key) (v : Value) : Prop :=
  Names tunnel k v ∧ ∀ fqdn, k = .slot fqdn → HoldsName w tunnel

def OtherLive (tunnel' : Tunnel) : Prop :=
  w.liveRecord tunnel'.id = some tunnel' ∧ tunnel'.id ≠ tunnel.id

def part (e : Entry Value) : Entry Value :=
  match e.value with
  | .lookup l => ⟨.lookup { l with tunnels := l.tunnels.filter (· = tunnel.id) }, e.deadline⟩
  | _ => e

def Footprint (after : Store Key Value) : Prop :=
  (∀ k e, after.lookup k = some e → ¬ Names tunnel k e.value) ∧
  ∀ tunnel', OtherLive w tunnel tunnel' → ∀ k e, w.entry k = some e → Belongs w tunnel' k e.value →
    (after.lookup k).map (part tunnel') = some (part tunnel' e)

/-- No port claim or SSH session is left of the tunnel, and no other live tunnel holds its name. -/
def Clean : Prop :=
  (∀ e, w.entry (.port tunnel.slot) = some e → e.value ≠ .text tunnel.githubUserId) ∧
  w.entry (.session "session" tunnel.id) = none ∧
  ∀ tunnel', OtherLive w tunnel tunnel' → HoldsName w tunnel' →
    tunnel'.subdomain ≠ tunnel.subdomain ∧ (w.entry (.slot tunnel.fqdn) = none ∨ tunnel'.fqdn ≠ tunnel.fqdn)

end

variable {tunnel tunnel' : Tunnel} {after : Store Key Value}

lemma part_unlist {l : UserTunnelLookup} (hne : tunnel'.id ≠ tunnel.id) :
    part tunnel' (unlist tunnel.id ⟨.lookup l, none⟩) = part tunnel' ⟨.lookup l, none⟩ := by
  have hfilter : (l.tunnels.filter (· ≠ tunnel.id)).filter (· = tunnel'.id) = l.tunnels.filter (· = tunnel'.id) := by
    rw [List.filter_filter]
    apply List.filter_congr
    intro id _
    by_cases hid : id = tunnel'.id
    · simp [hid, hne]
    · simp [hid]
  simp only [unlist, part, Value.asLookup, remove, hfilter]

section

variable (he : Erased tunnel.id tunnel w.shared.store after)

include he

lemma clean_of_footprint (hf : Footprint w tunnel after) : Clean w tunnel := by
  refine ⟨?_, ?_, ?_⟩
  · intro e hport hv
    have hkept := he.frame (.port tunnel.slot) (by rintro ⟨⟩) (by rintro ⟨⟩) (by rintro ⟨⟩) (by rintro ⟨⟩)
    exact hf.1 _ e (hkept.trans hport) ⟨rfl, hv⟩
  · cases hsession : w.entry (.session "session" tunnel.id) with
    | none => rfl
    | some e =>
      have hkept := he.frame (.session "session" tunnel.id) (by rintro ⟨⟩) (by rintro ⟨⟩) (by rintro ⟨⟩) (by rintro ⟨⟩)
      exact absurd ⟨rfl, rfl⟩ (hf.1 _ e (hkept.trans hsession))
  intro tunnel' hother hholds
  constructor
  · intro hname
    obtain ⟨d, hclaim⟩ := hholds
    have hkept := hf.2 tunnel' hother _ _ hclaim ⟨⟨rfl, rfl⟩, by rintro _ ⟨⟩⟩
    rw [hname, he.claim] at hkept
    cases hkept
  cases hslot : w.entry (.slot tunnel.fqdn) with
  | none => exact .inl rfl
  | some e =>
    right
    intro hfqdn
    have hkept := hf.2 tunnel' hother _ e hslot ⟨hfqdn.symm, fun _ _ => hholds⟩
    rw [he.slot] at hkept
    cases hkept

lemma forgotten_of_clean (hplain : Plain w) (hc : Clean w tunnel) {k : Key} (hk : after.lookup k = some e) :
    ¬ Names tunnel k e.value := by
  intro hn
  cases k with
  | tunnel => cases hn; rw [he.record] at hk; cases hk
  | subdomain => obtain ⟨rfl, -⟩ := hn; rw [he.claim] at hk; cases hk
  | slot => cases hn; rw [he.slot] at hk; cases hk
  | port =>
    obtain ⟨rfl, hv⟩ := hn
    rw [he.frame _ (by rintro ⟨⟩) (by rintro ⟨⟩) (by rintro ⟨⟩) (by rintro ⟨⟩)] at hk
    exact hc.1 e hk hv
  | session =>
    obtain ⟨rfl, rfl⟩ := hn
    rw [he.frame _ (by rintro ⟨⟩) (by rintro ⟨⟩) (by rintro ⟨⟩) (by rintro ⟨⟩)] at hk
    exact absurd hc.2.1 (by rw [entry, hk]; rintro ⟨⟩)
  | tunnelLookup =>
    obtain ⟨rfl, l, hl, hmem⟩ := hn
    rw [he.listed] at hk
    obtain ⟨e', he', rfl⟩ := map_eq_some_iff.mp hk
    obtain ⟨l', rfl⟩ := hplain _ e' he'
    have hremoved : l = l'.remove tunnel.id := (Value.lookup.inj hl).symm
    rw [hremoved] at hmem
    simp [remove] at hmem
  | _ => exact hn

lemma kept_of_clean (hplain : Plain w) (hc : Clean w tunnel) (hother : OtherLive w tunnel tunnel') {k : Key}
    (hk : w.entry k = some e) (hb : Belongs w tunnel' k e.value) :
    (after.lookup k).map (part tunnel') = some (part tunnel' e) := by
  have hframe : (k ≠ .tunnel tunnel.id ∧ k ≠ .subdomain tunnel.subdomain ∧ k ≠ .slot tunnel.fqdn ∧
      k ≠ .tunnelLookup tunnel.githubUserId) → (after.lookup k).map (part tunnel') = some (part tunnel' e) := by
    rintro ⟨h1, h2, h3, h4⟩
    rw [he.frame k h1 h2 h3 h4, show w.shared.store.lookup k = some e from hk, map_some]
  obtain ⟨hn, hslot⟩ := hb
  cases k with
  | tunnel =>
    refine hframe ⟨?_, by rintro ⟨⟩, by rintro ⟨⟩, by rintro ⟨⟩⟩
    rintro ⟨rfl⟩
    exact hother.2 hn.symm
  | subdomain =>
    obtain ⟨rfl, hv⟩ := hn
    have hholds : HoldsName w tunnel' := ⟨e.deadline, by rw [hk, ← hv]⟩
    refine hframe ⟨by rintro ⟨⟩, ?_, by rintro ⟨⟩, by rintro ⟨⟩⟩
    intro hname
    exact (hc.2.2 tunnel' hother hholds).1 (Key.subdomain.inj hname)
  | slot fqdn =>
    have hholds := hslot fqdn rfl
    refine hframe ⟨by rintro ⟨⟩, by rintro ⟨⟩, ?_, by rintro ⟨⟩⟩
    rintro ⟨rfl⟩
    obtain hnone | hne := (hc.2.2 tunnel' hother hholds).2
    · rw [hnone] at hk
      cases hk
    · exact hne hn.symm
  | tunnelLookup owner =>
    by_cases howner : owner = tunnel.githubUserId
    · obtain ⟨l, rfl⟩ := hplain owner e hk
      subst howner
      rw [he.listed, show w.shared.store.lookup _ = _ from hk, map_some, map_some, part_unlist hother.2]
    · refine hframe ⟨by rintro ⟨⟩, by rintro ⟨⟩, by rintro ⟨⟩, ?_⟩
      rintro ⟨rfl⟩
      exact howner rfl
  | _ => exact hframe ⟨by rintro ⟨⟩, by rintro ⟨⟩, by rintro ⟨⟩, by rintro ⟨⟩⟩

end

theorem deletion_footprint {now : ℕ} (h : Reach (step config) Free (init now) w) {id : String}
    (hl : w.liveRecord id = some tunnel)
    (hd : Alone config call w.shared (TunnelStorage.deleteTunnel id).run es s' (some (.ok true))) :
    Footprint w tunnel s'.store ↔ Clean w tunnel := by
  obtain ⟨e, he, -, hv⟩ := liveRecord_some hl
  obtain ⟨tunnel', d, rfl, hid, -⟩ := (reach_sane h).record id e he
  cases hv
  subst hid
  have herased := alone_deleteTunnel he hd
  have hplain := reach_plain h
  constructor
  · exact clean_of_footprint herased
  · intro hc
    exact ⟨fun k e hk => forgotten_of_clean herased hplain hc hk,
      fun tunnel' hother k e hk hb => kept_of_clean herased hplain hc hother hk hb⟩

open Schedule

def carriesOut (w : World) (id : String) : Option (List Ev × Shared × Option (Except ApiError Bool)) :=
  conduct (fun s c o => Shared.perform deployment s (.deleteTunnel alice id) c o) (List.replicate 6 (.redis .ok)) w.shared
    (TunnelStorage.deleteTunnel id).run

def isDone : Option (Except ApiError Bool) → Bool
  | some (.ok deleted) => deleted
  | _ => false

lemma alone_of_carriesOut {p : Shared → Bool} (h : ((carriesOut w id).any fun x => isDone x.2.2 && p x.2.1) = true) :
    ∃ es s', Alone deployment (.deleteTunnel alice id) w.shared (TunnelStorage.deleteTunnel id).run es s'
      (some (.ok true)) ∧ p s' = true := by
  rw [Option.any_eq_true] at h
  obtain ⟨⟨es, s', res⟩, hx, hp⟩ := h
  rw [Bool.and_eq_true] at hp
  have hres : res = some (.ok true) := by
    have hdone := hp.1
    unfold isDone at hdone
    split at hdone
    · rename_i b hb
      change res = _ at hb
      rw [hb, hdone]
    · cases hdone
  rw [hres] at hx
  exact ⟨es, s', attempt_of_conduct (fun s => ⟨0, rfl⟩) hx, hp.2⟩

def onlyRecord (id : String) : Key → Bool
  | .tunnel id' => id' = id
  | _ => true

lemma other_of_onlyRecord (h : w.shared.store.keys.all (onlyRecord tunnel.id) = true) :
    ¬ OtherLive w tunnel tunnel' := by
  rintro ⟨hl, hne⟩
  obtain ⟨e, he, -, -⟩ := liveRecord_some hl
  have hmem : Key.tunnel tunnel'.id ∈ w.shared.store.keys := AList.lookup_isSome.mp (isSome_of_eq_some he)
  exact hne (of_decide_eq_true (List.all_eq_true.mp h _ hmem))

theorem deletion_footprint_half_created : ∃ w tunnel es s', Reach (step deployment) Free start w ∧
    w.liveRecord "a" = some tunnel ∧
    Alone deployment (.deleteTunnel alice "a") w.shared (TunnelStorage.deleteTunnel "a").run es s' (some (.ok true)) ∧
    Clean w tunnel ∧ Footprint w tunnel s'.store := by
  obtain ⟨w, hr, hp⟩ := started
    ([.arrive (.createTunnel alice (request 7200 "demo"))] ++ (create 0 10000 "a" "ka").take 19
      ++ [.cancel 0, .tick (1800 * second), .lapse (.port 10000)])
    (fun w => (w.liveRecord "a").any (fun tunnel => tunnel.id = "a" && tunnel.slot = 10000)
      && w.shared.store.keys.all (onlyRecord "a") && (w.entry (.port 10000)).isNone
      && (w.entry (.session "session" "a")).isNone && (carriesOut w "a").any fun x => isDone x.2.2 && true)
    (by decide +kernel)
  simp only [Bool.and_eq_true] at hp
  obtain ⟨⟨⟨⟨hlive, honly⟩, hport⟩, hsession⟩, hdone⟩ := hp
  rw [Option.any_eq_true] at hlive
  obtain ⟨tunnel, hl, htunnel⟩ := hlive
  simp only [Bool.and_eq_true, decide_eq_true_eq] at htunnel
  obtain ⟨es, s', hd, -⟩ := alone_of_carriesOut (p := fun _ => true) (by simpa using hdone)
  have hclean : Clean w tunnel := by
    refine ⟨?_, ?_, ?_⟩
    · rw [htunnel.2, Option.isNone_iff_eq_none.mp hport]
      rintro e ⟨⟩
    · rw [htunnel.1, Option.isNone_iff_eq_none.mp hsession]
    · intro tunnel' hother
      exact absurd hother (other_of_onlyRecord (htunnel.1 ▸ honly))
  exact ⟨w, tunnel, es, s', hr, hl, hd, hclean, (deletion_footprint hr hl hd).mpr hclean⟩

theorem footprint_left : ∃ w tunnel es s', Reach (step deployment) Free start w ∧ w.liveRecord "a" = some tunnel ∧
    Alone deployment (.deleteTunnel alice "a") w.shared (TunnelStorage.deleteTunnel "a").run es s' (some (.ok true)) ∧
    (∃ e, s'.store.lookup (.port tunnel.slot) = some e ∧ e.value = .text tunnel.githubUserId) ∧
    (s'.store.lookup (.session "session" tunnel.id)).isSome ∧ ¬ Footprint w tunnel s'.store := by
  obtain ⟨w, hr, hp⟩ := started
    ([.arrive (.createTunnel alice (request 1800 "demo"))] ++ create 0 10000 "a" "ka")
    (fun w => (w.liveRecord "a").any (fun tunnel => tunnel.id = "a" && tunnel.slot = 10000 && tunnel.githubUserId = "1")
      && (carriesOut w "a").any fun x => isDone x.2.2 && ((x.2.1.store.lookup (.port 10000)).any (·.value = .text "1")
      && (x.2.1.store.lookup (.session "session" "a")).isSome))
    (by decide +kernel)
  simp only [Bool.and_eq_true] at hp
  obtain ⟨hlive, hdone⟩ := hp
  rw [Option.any_eq_true] at hlive
  obtain ⟨tunnel, hl, htunnel⟩ := hlive
  simp only [Bool.and_eq_true, decide_eq_true_eq] at htunnel
  obtain ⟨⟨hid, hslot⟩, howner⟩ := htunnel
  obtain ⟨es, s', hd, hleft⟩ := alone_of_carriesOut (p := fun s => (s.store.lookup (.port 10000)).any (·.value = .text "1")
    && (s.store.lookup (.session "session" "a")).isSome) hdone
  rw [Bool.and_eq_true, Option.any_eq_true] at hleft
  obtain ⟨⟨e, he, hv⟩, hsession⟩ := hleft
  have hport : s'.store.lookup (.port tunnel.slot) = some e ∧ e.value = .text tunnel.githubUserId := by
    rw [hslot, howner]
    exact ⟨he, of_decide_eq_true hv⟩
  refine ⟨w, tunnel, es, s', hr, hl, hd, ⟨e, hport⟩, by rw [hid]; exact hsession, ?_⟩
  intro hf
  exact hf.1 _ e hport.1 ⟨rfl, hport.2⟩

end FleetingDns.DeletionFootprint
