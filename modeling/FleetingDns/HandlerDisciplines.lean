import FleetingDns.CreateDiscipline
import FleetingDns.HandlerFlow
namespace FleetingDns.HandlerDisciplines

open CommandPrograms ExpiringStore ThreadPool TunnelStorage EdgeRouter

variable {config : Config} {call : Call} {h : List Ev}

lemma reads_getTunnel {id : String} (hu : MayGetRecord call h id) (hd : Undeleted h) :
    Obeys (May config call) (fun h' r => Unchecked h' ∧ Undeleted h' ∧
      ∀ tunnel, r = .ok (some tunnel) → Read h' id tunnel) (getTunnel id).run h := by
  refine meets_redis hu ?_ ?_
  · intro t json
    have hu' : Unchecked (h ++ [⟨t, .redis (.get (.tunnel id)), .ok json⟩]) := avoids_snoc hu.1 (by rintro k ⟨⟩)
    have hd' : Undeleted (h ++ [⟨t, .redis (.get (.tunnel id)), .ok json⟩]) := avoids_snoc hd (by rintro k ⟨⟩)
    obtain _ | v := json
    · exact meets_except_pure ⟨hu', hd', by rintro _ ⟨⟩⟩
    dsimp only
    split
    · rename_i tunnel hv
      refine meets_except_pure ⟨hu', hd', ?_⟩
      rintro _ ⟨rfl⟩
      obtain rfl := Value.asTunnel_some hv
      exact ⟨t, by simp⟩
    · exact meets_throw ⟨hu', hd', by rintro _ ⟨⟩⟩
  · intro t e e'
    exact ⟨avoids_snoc hu.1 (by rintro k ⟨⟩), avoids_snoc hd (by rintro k ⟨⟩), by rintro _ ⟨⟩⟩

lemma reads_ownedTunnel (user : GitHubUser) {id : String} (hu : MayGetRecord call [] id) :
    Obeys (May config call) (fun h' r => Unchecked h' ∧ Undeleted h' ∧
      ∀ tunnel, r = .ok tunnel → Read h' id tunnel ∧ tunnel.githubUserId = user.id) (ownedTunnel user id).run [] := by
  refine meets_except_seq (reads_getTunnel hu (by simp [Undeleted])) ?_ ?_
  · rintro h' tunnel ⟨hu', hd', hr⟩
    obtain _ | _ := tunnel
    · exact meets_throw ⟨hu', hd', by rintro _ ⟨⟩⟩
    dsimp only
    split_ifs with ho
    · refine meets_except_pure ⟨hu', hd', ?_⟩
      rintro _ ⟨rfl⟩
      exact ⟨hr _ rfl, ho⟩
    · exact meets_throw ⟨hu', hd', by rintro _ ⟨⟩⟩
  · rintro h' e ⟨hu', hd', -⟩
    exact ⟨hu', hd', by rintro _ ⟨⟩⟩

def Unlists (id owner : String) (e : Ev) : Prop :=
  (∃ t x, ∃ l : UserTunnelLookup, e = ⟨t, .redis (.set (.tunnelLookup owner) (.lookup (l.remove id))), .ok x⟩) ∨
    ∃ t v, e = ⟨t, .redis (.get (.tunnelLookup owner)), .ok v⟩ ∧ v.bind Value.asLookup = none

def Closes (call : Call) (h : List Ev) (_ : Done) : Prop :=
  ∀ user id, call = .deleteTunnel user id → Deleted h id → ∃ h0 e, h = h0 ++ [e] ∧
    (succeeds e.cmd e.reply = false ∨ ∃ tunnel, Read h id tunnel ∧ Unlists id tunnel.githubUserId e)

lemma closes_undeleted {d : Done} (hd : Undeleted h) : Closes call h d := by
  rintro user id - ⟨t, x, ht⟩
  exact absurd rfl (hd _ ht (.tunnel id))

lemma closes_failed {e : Ev} {d : Done} (he : succeeds e.cmd e.reply = false) :
    Closes call (h ++ [e]) d := fun _ _ _ _ => ⟨h, e, rfl, .inl he⟩

lemma closes_deleteRecord (hu : Unchecked h) (hd : Undeleted h) (user : GitHubUser) (id : String) :
    Obeys (May config (.deleteTunnel user id)) (fun h' r => Closes (.deleteTunnel user id) h' (.deleted r))
      (TunnelStorage.deleteTunnel id).run h := by
  refine meets_except_seq (reads_getTunnel ⟨hu, by rintro _ _ ⟨rfl⟩; exact ⟨rfl, hd⟩⟩ hd) ?_
    (fun _ _ hq => closes_undeleted hq.2.1)
  rintro h1 tunnel ⟨-, hd1, hr⟩
  obtain _ | tunnel := tunnel
  · exact meets_except_pure (closes_undeleted hd1)
  have hread : Read h1 id tunnel := hr _ rfl
  refine meets_redis ⟨⟨user, rfl⟩, tunnel, hread⟩ ?_ (fun _ _ _ => closes_failed rfl)
  intro t2 x2
  refine meets_redis ⟨user, id, tunnel, rfl, hread.mono (by simp), rfl, t2, x2, by simp⟩ ?_ (fun _ _ _ => closes_failed rfl)
  intro t3 x3
  refine meets_redis (by rintro k ⟨⟩; rfl) ?_ (fun _ _ _ => closes_failed rfl)
  intro t4 x4
  refine meets_redis (by rintro k ⟨⟩) ?_ (fun _ _ _ => closes_failed rfl)
  intro t5 existing
  split
  · rename_i lookup hl
    obtain ⟨v, rfl, hv⟩ := Option.bind_eq_some_iff.mp hl
    obtain rfl := Value.asLookup_some hv
    refine meets_redis ?_ ?_ (fun _ _ _ => closes_failed rfl)
    · exact ⟨t5, _, _, rfl, .inr ⟨user, id, lookup, rfl, ⟨t2, x2, by simp⟩, rfl, rfl⟩⟩
    · intro t6 x6
      refine meets_except_pure ?_
      rintro _ _ ⟨rfl, rfl⟩ -
      exact ⟨_, _, rfl, .inr ⟨tunnel, hread.mono (by simp), .inl ⟨t6, x6, lookup, rfl⟩⟩⟩
  · rename_i hl
    refine meets_except_pure ?_
    rintro _ _ ⟨rfl, rfl⟩ -
    refine ⟨_, _, rfl, .inr ⟨tunnel, hread.mono (by simp), .inr ⟨t5, existing, rfl, ?_⟩⟩⟩
    exact hl

lemma closes_deleteTunnel (user : GitHubUser) (id : String) :
    Obeys (May config (.deleteTunnel user id)) (fun h' r => Closes (.deleteTunnel user id) h' (.deleted r))
      (deleteTunnel user id).run [] := by
  have hget : MayGetRecord (.deleteTunnel user id) [] id :=
    ⟨by simp [Unchecked], by rintro _ _ ⟨rfl⟩; exact ⟨rfl, by simp [Undeleted]⟩⟩
  refine meets_except_seq (reads_ownedTunnel user hget) ?_ (fun _ _ hq => closes_undeleted hq.2.1)
  rintro h' tunnel ⟨hu, hd, -⟩
  exact closes_deleteRecord hu hd user id

lemma obeys_createTunnelSession (user : GitHubUser) (id : String) :
    Abides (May config (.createTunnelSession user id)) (createTunnelSession user id).run [] := by
  have hget : MayGetRecord (.createTunnelSession user id) [] id := ⟨by simp [Unchecked], by rintro _ _ ⟨⟩⟩
  refine meets_except_seq (reads_ownedTunnel user hget) ?_ (fun _ _ _ => trivial)
  rintro h1 tunnel ⟨-, -, hr⟩
  obtain ⟨hread, howner⟩ := hr _ rfl
  refine meets_except_seq (M := fun h' _ => Read h' id tunnel) ?_ ?_ (fun _ _ _ => trivial)
  · refine meets_ask trivial fun t chars => meets_except_pure (hread.mono (by simp))
  intro h2 token hread2
  refine meets_except_seq (M := fun _ _ => True) ?_ ?_ (fun _ _ _ => trivial)
  · refine meets_ask trivial fun t now => ?_
    refine meets_redis ⟨user, id, tunnel, now, rfl, hread2.mono (by simp), howner, rfl, rfl, rfl⟩ ?_ (fun _ _ _ => trivial)
    intro t' x
    exact meets_except_pure trivial
  · intro h3 _ _
    exact meets_ask trivial fun t now => meets_except_pure trivial

section

open TunnelLookup

def Found (h : List Ev) (p : TunnelInfo → Bool) (h' : List Ev) (r : Except String (Option TunnelInfo)) : Prop :=
  h ⊆ h' ∧ Unchecked h' ∧ ∀ info, r = .ok (some info) → p info = true ∧ ∃ id tunnel, Read h' id tunnel ∧ tunnel.info = info

lemma Found.mono {h1 h' : List Ev} {p : TunnelInfo → Bool} {r : Except String (Option TunnelInfo)} (hs : h ⊆ h1)
    (hf : Found h1 p h' r) : Found h p h' r :=
  ⟨List.Subset.trans hs hf.1, hf.2⟩

variable {p : TunnelInfo → Bool} {P : List Ev → Cmd → Prop}

section

variable (hP : ∀ h key, Unchecked h → P h (.redis (.get key)))

include hP

lemma found_findTunnel (hu : Unchecked h) (tunnels : List String) :
    Obeys P (Found h p) (findTunnel p tunnels).run h := by
  induction tunnels generalizing h with
  | nil => exact meets_except_pure ⟨List.Subset.refl h, hu, by rintro _ ⟨⟩⟩
  | cons tunnelId tunnels ih =>
    refine meets_query (hP h (.tunnel tunnelId) hu) ?_ ?_
    · intro t tunnelData
      have hs : h ⊆ h ++ [⟨t, .redis (.get (.tunnel tunnelId)), .ok tunnelData⟩] := by simp
      have hu' : Unchecked (h ++ [⟨t, .redis (.get (.tunnel tunnelId)), .ok tunnelData⟩]) :=
        avoids_snoc hu (by rintro k ⟨⟩)
      have hnext := meets_mono (fun _ _ hc => hc) (fun _ _ => Found.mono hs) (ih hu')
      split
      · rename_i info hi
        split_ifs with hp
        · obtain ⟨v, rfl, hv⟩ := Option.bind_eq_some_iff.mp hi
          obtain ⟨tunnel, ht, rfl⟩ := Option.map_eq_some_iff.mp hv
          obtain rfl := Value.asTunnel_some ht
          refine meets_except_pure ⟨hs, hu', ?_⟩
          rintro _ ⟨rfl⟩
          exact ⟨hp, tunnelId, tunnel, ⟨t, by simp⟩, rfl⟩
        · exact hnext
      · exact hnext
    · intro t e e'
      exact ⟨by simp, avoids_snoc hu (by rintro k ⟨⟩), by rintro _ ⟨⟩⟩

lemma found_scanLookups (hu : Unchecked h) (keys : List Key) : Obeys P (Found h p) (scanLookups p keys).run h := by
  induction keys generalizing h with
  | nil => exact meets_except_pure ⟨List.Subset.refl h, hu, by rintro _ ⟨⟩⟩
  | cons key keys ih =>
    refine meets_query (hP h key hu) ?_ ?_
    · intro t userData
      have hs : h ⊆ h ++ [⟨t, .redis (.get key), .ok userData⟩] := by simp
      have hu' : Unchecked (h ++ [⟨t, .redis (.get key), .ok userData⟩]) := avoids_snoc hu (by rintro k ⟨⟩)
      split
      · rename_i userLookup _
        refine meets_except_seq (found_findTunnel hP hu' userLookup.tunnels) ?_ ?_
        · intro h' r hf
          cases r with
          | some => exact meets_except_pure (hf.mono hs)
          | none =>
            have hs' := List.Subset.trans hs hf.1
            exact meets_mono (fun _ _ hc => hc) (fun _ _ => Found.mono hs') (ih hf.2.1)
        · intro h' e hf
          exact ⟨List.Subset.trans hs hf.1, hf.2.1, by rintro _ ⟨⟩⟩
      · exact meets_mono (fun _ _ hc => hc) (fun _ _ => Found.mono hs) (ih hu')
    · intro t e e'
      exact ⟨by simp, avoids_snoc hu (by rintro k ⟨⟩), by rintro _ ⟨⟩⟩

lemma found_scanTunnels (hkeys : P [] (.redis (.keys Key.isTunnelLookup))) :
    Obeys P (Found [] p) (scanTunnels p).run [] := by
  have hu : Unchecked [] := by simp [Unchecked]
  refine meets_query hkeys ?_ ?_
  · intro t keys
    have hu' : Unchecked [⟨t, .redis (.keys Key.isTunnelLookup), .ok keys⟩] := by simp [Unchecked]
    exact meets_mono (fun _ _ hc => hc) (fun _ _ => Found.mono (by simp)) (found_scanLookups hP hu' keys)
  · intro t e e'
    exact ⟨by simp, avoids_snoc hu (by rintro k ⟨⟩), by rintro _ ⟨⟩⟩

end

def Scans : Call → Prop
  | .tcpipForward _ _ _ | .route _ => True
  | _ => False

lemma may_get (hcall : Scans call) (h : List Ev) (key : Key) (hu : Unchecked h) :
    May config call h (.redis (.get key)) := by
  cases key with
  | tunnel => exact ⟨hu, by rintro _ _ rfl; cases hcall⟩
  | subdomain => rintro ⟨user, request, rfl⟩; cases hcall
  | _ => rintro k ⟨⟩

lemma scans_obey (hcall : Scans call) : Obeys (May config call) (Found [] p) (scanTunnels p).run [] :=
  found_scanTunnels (may_get hcall) (by rintro k ⟨⟩)

end

lemma obeys_slotGate (sid requested : ℕ) (serial : Option String) :
    Obeys (May config (.tcpipForward sid serial requested))
      (fun h r => ∀ policy live, r = some (policy, live) →
        MayBind config (.tcpipForward sid serial requested) h (requested % 65536) policy live)
      (slotGate config.hub serial (requested % 65536)) [] := by
  unfold slotGate
  split_ifs with hpool
  · refine meets_seq (scans_obey trivial) ?_
    rintro h' r ⟨-, -, hf⟩
    split
    · rename_i info
      obtain ⟨hslot, id, tunnel, hread, rfl⟩ := hf _ rfl
      obtain _ | sessionId := serial
      · exact meets_pure (by rintro _ _ ⟨⟩)
      dsimp only
      split_ifs with hid
      · refine meets_pure ?_
        rintro _ _ ⟨rfl⟩
        refine ⟨sid, some sessionId, requested, rfl, rfl, fun _ => ⟨id, tunnel, hread, ?_, ?_, rfl, rfl⟩⟩
        · simpa [Tunnel.info] using hslot
        · rw [hid]; rfl
      · exact meets_pure (by rintro _ _ ⟨⟩)
    · exact meets_pure (by rintro _ _ ⟨⟩)
    · exact meets_pure (by rintro _ _ ⟨⟩)
  · refine meets_pure ?_
    rintro _ _ ⟨rfl⟩
    exact ⟨sid, serial, requested, rfl, rfl, fun hp => absurd hp hpool⟩

lemma obeys_tcpipForward (sid requested : ℕ) (serial : Option String) :
    Abides (May config (.tcpipForward sid serial requested))
      (tcpipForward config.hub serial requested) [] := by
  refine meets_seq (obeys_slotGate sid requested serial) ?_
  intro h' r hr
  cases r with
  | none => exact meets_pure trivial
  | some gate =>
    refine meets_issue (hr gate.1 gate.2 rfl) ?_
    rintro reply h'' -
    cases reply <;> exact meets_pure trivial

lemma checks_authorize (sni name : String) :
    Obeys (May config (.route (some sni)))
      (fun h' r => h ⊆ h' ∧ ∀ head, r = .ok head → ∃ token t, Checked h' name token t)
      (authorize name).run h := by
  refine meets_ask trivial fun t head => ?_
  split
  · exact meets_throw ⟨by simp, by rintro _ ⟨⟩⟩
  split
  · exact meets_throw ⟨by simp, by rintro _ ⟨⟩⟩
  rename_i token _
  refine meets_lift_query (by rintro k ⟨⟩) ?_ ?_
  · intro t' authorized
    cases authorized with
    | false => exact meets_throw ⟨by simp, by rintro _ ⟨⟩⟩
    | true => exact meets_except_pure ⟨by simp, fun _ _ => ⟨token, t', by simp [Checked]⟩⟩
  · intro t' e e'
    exact meets_throw ⟨by simp, by rintro _ ⟨⟩⟩

lemma obeys_dialTunnel {sni : String} {tunnel : Tunnel} (replayBuf : EdgeRouter.Bytes)
    (hd : MayDial (.route (some sni)) h tunnel.info) :
    Obeys (May config (.route (some sni))) (fun _ _ => True) (dialTunnel tunnel.info replayBuf) h := by
  refine meets_issue hd ?_
  rintro reply h' -
  split
  · exact meets_pure trivial
  · exact meets_pure trivial
  split_ifs
  · exact meets_pure trivial
  · refine meets_issue trivial ?_
    rintro reply' h'' -
    cases reply' <;> exact meets_pure trivial

lemma obeys_route (sni : Option String) :
    Abides (May config (.route sni)) (handleRouterConnection sni) [] := by
  obtain _ | sni := sni
  · exact meets_pure trivial
  refine meets_seq (scans_obey trivial) ?_
  rintro h1 r ⟨-, -, hf⟩
  split
  · exact meets_pure trivial
  · exact meets_pure trivial
  rename_i info
  obtain ⟨hname, id, tunnel, hread, rfl⟩ := hf _ rfl
  have hsub : tunnel.subdomain = subdomainFromSni sni := by simpa [Tunnel.info] using hname
  split_ifs with hp
  · refine meets_seq (checks_authorize sni (subdomainFromSni sni)) ?_
    rintro h2 r ⟨hs, hc⟩
    cases r with
    | error => exact meets_pure trivial
    | ok head =>
      exact obeys_dialTunnel _ ⟨sni, id, tunnel, rfl, hread.mono hs, rfl, hsub, fun _ => hsub ▸ hc head rfl⟩
  · refine obeys_dialTunnel _ ⟨sni, id, tunnel, rfl, hread, rfl, hsub, fun hp' => absurd hp' hp⟩

lemma obeys_authPublickey (sid : ℕ) (peer : SocketAddr) (serial : Option String) (user publicKey : String) :
    Abides (May config (.authPublickey sid peer serial user publicKey))
      (authPublickey config.hub peer serial user publicKey) [] := by
  refine meets_of_only (P := fun c => ∀ h, May config (.authPublickey sid peer serial user publicKey) h c)
    (fun h c hc => hc h) ?_ []
  exact HandlerFlow.only_authPublickey (fun _ _ _ => by rintro k ⟨⟩) (fun _ => trivial) (fun _ => trivial)
    (fun _ _ _ _ => trivial) _ _ _ _

lemma call_obeys (config : Config) (call : Call) : Obeys (May config call) (Ends call) (call.program config) [] := by
  cases call with
  | createTunnel user request =>
    exact meets_seq (CreateDiscipline.settles_createTunnel config user request) fun _ _ hs => meets_pure fun _ => hs
  | deleteTunnel user id =>
    exact meets_seq (closes_deleteTunnel user id) fun _ _ _ => meets_pure (by rintro ⟨_, _, ⟨⟩⟩)
  | createTunnelSession user id =>
    exact meets_seq (obeys_createTunnelSession user id) fun _ _ _ => meets_pure (by rintro ⟨_, _, ⟨⟩⟩)
  | authPublickey sid peer serial user publicKey =>
    exact meets_seq (obeys_authPublickey sid peer serial user publicKey) fun _ _ _ => meets_pure (by rintro ⟨_, _, ⟨⟩⟩)
  | tcpipForward sid serial port =>
    exact meets_seq (obeys_tcpipForward sid port serial) fun _ _ _ => meets_pure (by rintro ⟨_, _, ⟨⟩⟩)
  | route sni =>
    exact meets_seq (obeys_route sni) fun _ _ _ => meets_pure (by rintro ⟨_, _, ⟨⟩⟩)

end FleetingDns.HandlerDisciplines
