import FleetingDns.CallDiscipline
namespace FleetingDns.CreateDiscipline

open CommandPrograms ExpiringStore ThreadPool TunnelStorage List

structure Prepares (h : List Ev) : Prop where
  unpublished : Unpublished h
  unchecked : Unchecked h

def quiet : Cmd → Bool
  | .redis (.exist _) => false
  | c => !c.publishes

def Grows {α : Type} (h : List Ev) (X : List Ev → α → Prop) (h' : List Ev) (r : Except ApiError α) : Prop :=
  h ⊆ h' ∧ Prepares h' ∧ ∀ a, r = .ok a → X h' a

variable {α β : Type} {P : List Ev → Cmd → Prop} {h : List Ev} {X : List Ev → α → Prop} {Y : List Ev → β → Prop}

lemma prepares_nil : Prepares [] := ⟨by simp [Unpublished], by simp [Unchecked]⟩

lemma Prepares.snoc (hp : Prepares h) {e : Ev} (he : quiet e.cmd = true) : Prepares (h ++ [e]) := by
  constructor
  · intro e' he'
    obtain he' | rfl := mem_snoc.mp he'
    · exact hp.unpublished e' he'
    · cases hc : e'.cmd with
      | redis c => cases c <;> simp_all [quiet]
      | _ => rfl
  · refine avoids_snoc hp.unchecked ?_
    intro k hk
    rw [hk] at he
    simp [quiet] at he

lemma grows_pure {a : α} (hp : Prepares h) (hX : X h a) : Obeys P (Grows h X) (pure a : Api α).run h :=
  meets_except_pure ⟨List.Subset.refl h, hp, by rintro _ ⟨rfl⟩; exact hX⟩

variable {e : ApiError} {msg : String}

lemma grows_throw (hp : Prepares h) : Obeys P (Grows h X) (throw e : Api α).run h :=
  meets_throw ⟨List.Subset.refl h, hp, by rintro _ ⟨⟩⟩

lemma grows_rejectIf {p : Prop} [Decidable p] (hp : Prepares h) :
    Obeys P (Grows h fun h' _ => h' = h ∧ ¬ p) (rejectIf p e).run h := by
  unfold rejectIf
  split_ifs with hn
  · exact grows_throw hp
  · exact grows_pure hp ⟨rfl, hn⟩

lemma grows_orPanic {x : Option α} (hp : Prepares h) :
    Obeys P (Grows h fun _ a => x = some a) (orPanic msg x).run h := by
  cases x with
  | none => exact grows_throw hp
  | some => exact grows_pure hp rfl

lemma grows_seq {x : Api α} {f : α → Api β} (hx : Obeys P (Grows h X) x.run h)
    (hf : ∀ h' a, h ⊆ h' → Prepares h' → X h' a → Obeys P (Grows h' Y) (f a).run h') :
    Obeys P (Grows h Y) (x >>= f).run h := by
  refine meets_except_seq hx ?_ ?_
  · rintro h' a ⟨hs, hp, ha⟩
    refine meets_mono (fun _ _ hc => hc) ?_ (hf h' a hs hp (ha a rfl))
    rintro h'' r ⟨hs', hr⟩
    exact ⟨List.Subset.trans hs hs', hr⟩
  · rintro h' e ⟨hs, hp, -⟩
    exact ⟨hs, hp, by rintro _ ⟨⟩⟩

lemma grows_ask {c : Cmd} (hp : Prepares h) (hc : P h c) (hq : quiet c = true) :
    Obeys P (Grows h fun h' r => ∃ t, (⟨t, c, r⟩ : Ev) ∈ h') (ExceptT.lift (issue c)).run h := by
  refine .call hc ?_
  rintro r h' ⟨t, rfl⟩
  refine .ret ⟨by simp, hp.snoc hq, ?_⟩
  rintro _ ⟨rfl⟩
  exact ⟨t, by simp⟩

lemma grows_utcNow {config : Config} {call : Call} (hp : Prepares h) :
    Obeys (May config call) (Grows h fun _ _ => True) utcNow.run h := by
  refine meets_mono (fun _ _ hc => hc) ?_ (grows_ask (c := .utcNow) hp trivial rfl)
  rintro h' r ⟨hs, hp', -⟩
  exact ⟨hs, hp', fun _ _ => trivial⟩

lemma grows_redis {c : StoreCmd Key Value} (hp : Prepares h) (hc : P h (.redis c)) (hq : quiet (.redis c) = true) :
    Obeys P (Grows h fun h' x => ∃ t, (⟨t, .redis c, .ok x⟩ : Ev) ∈ h') (redis c msg).run h := by
  refine .call hc ?_
  rintro r h' ⟨t, rfl⟩
  cases r with
  | ok => exact .ret ⟨by simp, hp.snoc hq, by rintro _ ⟨rfl⟩; exact ⟨t, by simp⟩⟩
  | error => exact .ret ⟨by simp, hp.snoc hq, by rintro _ ⟨⟩⟩

section

variable {config : Config} {user : GitHubUser} {request : CreateTunnelRequest}

section

variable (hp : Prepares h)

include hp

lemma grows_local {c : Cmd} (hu : Unread h) (hc : P h c) (hq : quiet c = true) (hg : ∀ k, c ≠ .redis (.get k)) :
    Obeys P (Grows h fun h' _ => Unread h') (ExceptT.lift (issue c)).run h := by
  refine .call hc ?_
  rintro r h' ⟨t, rfl⟩
  exact .ret ⟨by simp, hp.snoc hq, fun _ _ => avoids_snoc hu hg⟩

lemma grows_checkQuota (hu : Unread h) :
    Obeys (May config (.createTunnel user request)) (Grows h fun h' _ => Unread h') (checkQuota user.id).run h := by
  refine grows_seq (grows_local hp hu trivial rfl (by rintro k ⟨⟩)) ?_
  intro h' r hs hp' hu'
  cases r with
  | ok => exact grows_pure hp' hu'
  | error => exact grows_throw hp'

lemma grows_chooseSubdomain (hu : Unread h) :
    Obeys (May config (.createTunnel user request)) (Grows h fun h' _ => Unread h')
      (chooseSubdomain request).run h := by
  unfold chooseSubdomain
  split
  · split
    · exact grows_pure hp hu
    · exact grows_throw hp
  · refine grows_seq (grows_local hp hu trivial rfl (by rintro k ⟨⟩)) ?_
    intro h' r hs hp' hu'
    exact grows_pure hp' hu'

lemma grows_getTunnel (id : String) :
    Obeys (May config (.createTunnel user request)) (Grows h fun h' r => r = none → Got h' (.tunnel id) none)
      (getTunnel id).run h := by
  refine grows_seq (grows_redis hp ⟨hp.unchecked, by rintro _ _ ⟨⟩⟩ rfl) ?_
  intro h' r hs hp' hr
  cases r with
  | none => exact grows_pure hp' (fun _ => hr)
  | some =>
    dsimp only
    split
    · exact grows_pure hp' (by rintro ⟨⟩)
    · exact grows_throw hp'

lemma grows_getTunnelBySubdomain (hu : Unread h) (name : String) :
    Obeys (May config (.createTunnel user request)) (Grows h fun h' r => r = none → Available h' name)
      (getTunnelBySubdomain name).run h := by
  refine grows_seq (grows_redis hp (fun _ => .inl ⟨hp.unpublished, hu⟩) rfl) ?_
  intro h' r hs hp' hr
  obtain _ | v := r
  · exact grows_pure hp' (fun _ => .inl hr)
  dsimp only
  split
  · rename_i id hid
    refine meets_mono (fun _ _ hc => hc) ?_ (grows_getTunnel hp' id)
    rintro h'' r' ⟨hs', hp'', hX⟩
    refine ⟨hs', hp'', ?_⟩
    rintro a rfl rfl
    exact .inr ⟨v, id, Got.mono hs' hr, hid, hX none rfl rfl⟩
  · exact grows_throw hp'

lemma grows_isSubdomainAvailable (hu : Unread h) (name : String) :
    Obeys (May config (.createTunnel user request)) (Grows h fun h' r => r = true → Available h' name)
      (isSubdomainAvailable name).run h := by
  refine grows_seq (grows_getTunnelBySubdomain hp hu name) ?_
  intro h' r hs hp' hr
  refine grows_pure hp' ?_
  intro hn
  exact hr (Option.isNone_iff_eq_none.mp hn)

lemma grows_registerCertificate (metadata : CertificateMetadata) :
    Obeys (May config (.createTunnel user request)) (Grows h fun _ _ => True)
      (ExceptT.lift (registerCertificate metadata)).run h := by
  refine meets_lift (meets_issue trivial ?_)
  rintro now _ ⟨t, rfl⟩
  have hp' : Prepares (h ++ [⟨t, .utcNow, now⟩]) := hp.snoc rfl
  dsimp only
  split_ifs
  · refine meets_issue ?_ ?_
    · rintro k ⟨rfl⟩; rfl
    · rintro r _ ⟨t', rfl⟩
      exact meets_pure ⟨by simp, hp'.snoc rfl, fun _ _ => trivial⟩
  · exact meets_pure ⟨by simp, hp', fun _ _ => trivial⟩

lemma grows_issueClientCertificate (ca : CaConfig) (commonName clientId : String) :
    Obeys (May config (.createTunnel user request)) (Grows h fun _ _ => True)
      (issueClientCertificate ca commonName clientId).run h := by
  refine grows_seq (grows_rejectIf hp) fun h1 _ _ hp1 _ => ?_
  refine grows_seq (grows_rejectIf hp1) fun h2 _ _ hp2 _ => ?_
  refine grows_seq (grows_ask hp2 trivial rfl) fun h3 _ _ hp3 _ => ?_
  refine grows_seq (grows_rejectIf hp3) fun h4 _ _ hp4 _ => ?_
  refine grows_seq (grows_rejectIf hp4) fun h5 _ _ hp5 _ => ?_
  refine grows_seq (grows_ask hp5 trivial rfl) fun h6 r _ hp6 _ => ?_
  cases r with
  | error => exact grows_throw hp6
  | ok =>
    refine grows_seq (grows_utcNow hp6) fun h7 _ _ hp7 _ => ?_
    refine grows_seq (grows_orPanic hp7) fun h8 _ _ hp8 _ => ?_
    refine grows_seq (grows_registerCertificate hp8 _) fun h9 _ _ hp9 _ => ?_
    refine grows_seq (grows_ask (c := .recordIssuance clientId) hp9 trivial rfl) fun h10 _ _ hp10 _ => ?_
    exact grows_pure hp10 trivial

end

lemma grows_claimPort (tunnelId : String) (ttl : ℕ) {attempts port : ℕ} (hp : Prepares h)
    (hport : 10000 ≤ port ∧ port ≤ 65535) :
    Obeys (May config (.createTunnel user request))
      (Grows h fun h' n => (∃ t, Reserved h' n ttl t) ∧ 10000 ≤ n ∧ n ≤ 65535)
      (claimPort tunnelId ttl attempts port).run h := by
  induction attempts generalizing h port with
  | zero => exact grows_throw hp
  | succ attempts ih =>
    refine grows_seq (grows_redis hp ⟨user, request, rfl⟩ rfl) ?_
    intro h' claimed hs hp' hc
    cases claimed with
    | true =>
      obtain ⟨t, ht⟩ := hc
      exact grows_pure hp' ⟨⟨t, _, ht⟩, hport⟩
    | false =>
      refine ih hp' ?_
      unfold nextPort portRangeEnd portRangeStart
      split_ifs <;> omega

lemma grows_allocatePort (hp : Prepares h) (tunnelId : String) (ttl : ℕ) :
    Obeys (May config (.createTunnel user request))
      (Grows h fun h' n => (∃ t, Reserved h' n ttl t) ∧ 10000 ≤ n ∧ n ≤ 65535)
      (allocatePort tunnelId ttl).run h := by
  refine grows_seq (grows_ask hp trivial rfl) ?_
  intro h' start hs hp' _
  have hstart := start.property
  exact grows_claimPort tunnelId ttl hp' ⟨hstart.1, by omega⟩

lemma grows_newTunnel (hp : Prepares h) (owner login name base : String) (localPort slot : ℕ) (serial : String)
    (ttl : ℕ) : Obeys (May config (.createTunnel user request))
      (Grows h fun h' tunnel => Named h' tunnel.id ∧ tunnel.githubUserId = owner ∧ tunnel.subdomain = name ∧
        tunnel.slot = slot) (Tunnel.new owner login name base localPort slot serial ttl).run h := by
  refine grows_seq (grows_utcNow hp) fun h1 now _ hp1 _ => ?_
  refine grows_seq (grows_orPanic hp1) fun h2 d _ hp2 _ => ?_
  refine grows_seq (grows_orPanic hp2) fun h3 expiresAt _ hp3 _ => ?_
  refine grows_seq (grows_ask hp3 trivial rfl) fun h4 id _ hp4 hid => ?_
  exact grows_pure hp4 ⟨hid, rfl, rfl, rfl⟩

def Settled (h : List Ev) : Prop :=
  Unpublished h ∨ ¬ Unclaimed h ∨ ∃ h0 e, h = h0 ++ [e] ∧ succeeds e.cmd e.reply = false

variable {x : Api α} {f : α → Api β} {tunnel : Tunnel}

lemma grows_then {Q : List Ev → Except ApiError β → Prop} (hx : Obeys P (Grows h X) x.run h)
    (hf : ∀ h' a, h ⊆ h' → Prepares h' → X h' a → Obeys P Q (f a).run h')
    (hQ : ∀ h' e, Unpublished h' → Q h' (.error e)) : Obeys P Q (x >>= f).run h := by
  refine meets_except_seq hx ?_ ?_
  · rintro h' a ⟨hs, hp, ha⟩
    exact hf h' a hs hp (ha a rfl)
  · rintro h' e ⟨-, hp, -⟩
    exact hQ h' e hp.unpublished

lemma unclaimed_of_unpublished (hu : Unpublished h) : Unclaimed h := by
  intro e he
  have hp := hu e he
  cases hc : e.cmd with
  | redis c =>
    cases c with
    | setNxEx k => cases k <;> simp_all [Cmd.publishes, Cmd.claimsSubdomain]
    | _ => rfl
  | _ => rfl

lemma claimed_mono {h' : List Ev} (hs : h ⊆ h') (hc : ¬ Unclaimed h) : ¬ Unclaimed h' :=
  fun hu => hc fun e he => hu e (hs he)

lemma claimed_of_mem {e : Ev} (he : e ∈ h) (hc : e.cmd.claimsSubdomain = true) : ¬ Unclaimed h := by
  intro hu
  rw [hu e he] at hc
  cases hc

lemma past_claimSubdomain {ttl : ℕ}
    (hc : MayClaimSubdomain (.createTunnel user request) h tunnel.subdomain (.text tunnel.id) ttl) :
    Obeys (May config (.createTunnel user request)) (fun h' _ => ¬ Unclaimed h') (claimSubdomain tunnel ttl).run h := by
  refine meets_redis hc ?_ (fun t e _ => claimed_of_mem (mem_append_right h (mem_singleton_self _)) rfl)
  intro t claimed
  have hpast := claimed_of_mem (mem_append_right h
    (mem_singleton_self ⟨t, .redis (.setNxEx (.subdomain tunnel.subdomain) (.text tunnel.id) ttl), .ok claimed⟩)) rfl
  cases claimed with
  | true => exact meets_except_pure hpast
  | false =>
    have hrefresh : MayRefreshSubdomain (h ++ [⟨t, .redis (.setNxEx (.subdomain tunnel.subdomain) (.text tunnel.id) ttl),
        .ok false⟩]) tunnel.subdomain := ⟨t, .text tunnel.id, ttl, by simp⟩
    refine meets_redis (fun _ => .inr hrefresh) ?_ (fun _ _ _ => claimed_mono (by simp) hpast)
    intro t' holder
    split_ifs
    · obtain ⟨t0, v, ttl0, hm⟩ := hrefresh
      refine meets_redis ⟨t0, v, ttl0, mem_append_left _ hm⟩ ?_ (fun _ _ _ => claimed_mono (by simp) hpast)
      intro t'' _
      exact meets_except_pure (claimed_mono (by simp) hpast)
    · exact meets_throw (claimed_mono (by simp) hpast)

lemma settled_of_failed {e : Ev} (hf : succeeds e.cmd e.reply = false) : Settled (h ++ [e]) :=
  .inr (.inr ⟨h, e, rfl, hf⟩)

lemma settles_storeTunnel (edgeIp : String) (hp : Prepares h)
    (hc : MayStoreRecord (.createTunnel user request) h tunnel.id (.tunnel tunnel)) :
    Obeys (May config (.createTunnel user request))
      (fun h' r => Settled h' ∧ ∀ a, r = .ok a → ¬ Unclaimed h') (storeTunnel edgeIp tunnel).run h := by
  refine meets_ask trivial fun t1 now => ?_
  have hp1 : Prepares (h ++ [⟨t1, .utcNow, now⟩]) := hp.snoc rfl
  have hc1 : MayStoreRecord (.createTunnel user request) (h ++ [⟨t1, .utcNow, now⟩]) tunnel.id (.tunnel tunnel) := by
    obtain ⟨u, q, t, ttl, t', hq, ht, hid, hu, -, hn, ha, hr, hlo⟩ := hc
    have hs : h ⊆ h ++ [⟨t1, .utcNow, now⟩] := by simp
    exact ⟨u, q, t, ttl, t', hq, ht, hid, hu, hp1.unpublished, hn.mono hs, ha.mono hs, hr.mono hs, hlo⟩
  refine meets_redis hc1 ?_ (fun t e _ => ⟨settled_of_failed rfl, by rintro _ ⟨⟩⟩)
  intro t2 x2
  refine meets_redis (by rintro k ⟨⟩) ?_ (fun t e _ => ⟨settled_of_failed rfl, by rintro _ ⟨⟩⟩)
  intro t3 existing
  refine meets_redis ?_ ?_ (fun t e _ => ⟨settled_of_failed rfl, by rintro _ ⟨⟩⟩)
  · exact ⟨t3, existing, _, rfl, .inl ⟨user, request, tunnel, asU64 (numSeconds (tunnel.expiresAt - now)), t2, rfl,
      ⟨.ok x2, by simp⟩, rfl, rfl⟩⟩
  intro t4 x4
  refine meets_except_seq (past_claimSubdomain ?_) ?_ ?_
  · refine ⟨user, request, tunnel, t2, rfl, ⟨.ok x2, by simp⟩, rfl, rfl, ?_, t4, x4,
      .lookup ((UserTunnelLookup.ofData tunnel existing).push tunnel.id), by simp⟩
    intro e he
    simp only [mem_snoc] at he
    obtain ((((he | rfl) | rfl) | rfl) | rfl) := he
    · exact unclaimed_of_unpublished hp1.unpublished e (by simp [he])
    all_goals rfl
  · intro h' _ hpast
    refine meets_redis (by rintro k ⟨⟩; rfl) ?_ ?_
    · intro t5 _
      exact meets_except_pure ⟨.inr (.inl (claimed_mono (by simp) hpast)), fun _ _ => claimed_mono (by simp) hpast⟩
    · intro t5 e _
      exact ⟨settled_of_failed rfl, by rintro _ ⟨⟩⟩
  · intro h' e hpast
    exact ⟨.inr (.inl hpast), by rintro _ ⟨⟩⟩

lemma past_seq (hx : Obeys P (fun h' _ => ¬ Unclaimed h') x.run h)
    (hf : ∀ h' a, ¬ Unclaimed h' → Obeys P (fun h'' _ => ¬ Unclaimed h'') (f a).run h') :
    Obeys P (fun h' _ => ¬ Unclaimed h') (x >>= f).run h :=
  meets_except_seq hx hf (fun _ _ he => he)

section

variable (hpast : ¬ Unclaimed h)

include hpast

lemma past_ask {c : Cmd} (hc : P h c) :
    Obeys P (fun h' _ => ¬ Unclaimed h') (ExceptT.lift (issue c) : Api c.Reply).run h := by
  refine .call hc ?_
  rintro r _ ⟨t, rfl⟩
  exact .ret (claimed_mono (by simp) hpast)

lemma past_generateSshKeyPair :
    Obeys (May config (.createTunnel user request)) (fun h' _ => ¬ Unclaimed h') generateSshKeyPair.run h := by
  refine past_seq (past_ask hpast trivial) ?_
  intro h' r hpast'
  cases r with
  | ok => exact meets_except_pure hpast'
  | error => exact meets_throw hpast'

lemma past_storeSshSession (id owner publicKey fingerprint : String) (expiresAt : ℤ) :
    Obeys (May config (.createTunnel user request)) (fun h' _ => ¬ Unclaimed h')
      (storeSshSession id owner publicKey fingerprint expiresAt).run h := by
  refine past_seq (past_ask (c := .utcNow) hpast trivial) ?_
  intro h' now hpast'
  refine meets_redis (by rintro k ⟨⟩; rfl) ?_ ?_
  · exact fun _ _ => meets_except_pure (claimed_mono (by simp) hpast')
  · exact fun _ _ _ => claimed_mono (by simp) hpast'

lemma past_generateRandomString (length : ℕ) :
    Obeys (May config (.createTunnel user request)) (fun h' _ => ¬ Unclaimed h')
      (generateRandomString length).run h :=
  past_seq (past_ask hpast trivial) (fun _ _ hpast' => meets_except_pure hpast')

lemma past_basicAuth :
    Obeys (May config (.createTunnel user request)) (fun h' _ => ¬ Unclaimed h') (basicAuth request).run h := by
  unfold basicAuth
  split_ifs
  · refine past_seq (past_generateRandomString hpast 8) fun h1 _ hpast1 => ?_
    exact past_seq (past_generateRandomString hpast1 12) fun h2 _ hpast2 => meets_except_pure hpast2
  · exact meets_except_pure hpast

end

lemma settles_createTunnel (config : Config) (user : GitHubUser) (request : CreateTunnelRequest) :
    Obeys (May config (.createTunnel user request)) (fun h' _ => Settled h')
      (createTunnel config.api user request).run [] := by
  have hstop : ∀ h' (e : ApiError), Unpublished h' → Settled h' := fun _ _ hu => .inl hu
  refine grows_then (grows_rejectIf prepares_nil) ?_ hstop
  rintro h1 _ _ hp1 ⟨rfl, -⟩
  refine grows_then (grows_checkQuota hp1 (by simp [Unread])) ?_ hstop
  intro h2 canCreate _ hp2 hu2
  refine grows_then (grows_rejectIf hp2) ?_ hstop
  rintro h3 _ _ hp3 ⟨rfl, -⟩
  refine grows_then (grows_chooseSubdomain hp3 hu2) ?_ hstop
  intro h4 subdomain _ hp4 hu4
  refine grows_then (grows_isSubdomainAvailable hp4 hu4 subdomain) ?_ hstop
  intro h5 available _ hp5 havail
  refine grows_then (grows_rejectIf hp5) ?_ hstop
  rintro h6 _ _ hp6 ⟨rfl, hav⟩
  have ha6 : Available h6 subdomain := havail (by simpa using hav)
  refine grows_then (grows_issueClientCertificate hp6 _ _ _) ?_ hstop
  intro h7 cert hs7 hp7 _
  refine grows_then (grows_utcNow hp7) ?_ hstop
  intro h8 now hs8 hp8 _
  refine grows_then (grows_allocatePort hp8 _ _) ?_ hstop
  intro h9 port hs9 hp9 hport
  refine grows_then (grows_newTunnel hp9 _ _ _ _ _ _ _ _) ?_ hstop
  intro h10 tunnel hs10 hp10 hnew
  obtain ⟨⟨t, hres⟩, hrange⟩ := hport
  obtain ⟨hid, howner, hname, hslot⟩ := hnew
  have hs : h6 ⊆ h10 := fun e he => hs10 (hs9 (hs8 (hs7 he)))
  refine meets_except_seq (settles_storeTunnel _ hp10 ?_) ?_ ?_
  · have hreserved : Reserved h10 tunnel.slot _ t := hslot ▸ hres.mono hs10
    exact ⟨user, request, _, _, t, rfl, rfl, rfl, howner, hp10.unpublished, hid, hname ▸ ha6.mono hs, hreserved,
      hslot ▸ hrange⟩
  · rintro h13 _ ⟨-, hpast⟩
    have hpast13 := hpast _ rfl
    refine meets_mono (fun _ _ hc => hc) (fun _ _ hq => .inr (.inl hq)) ?_
    refine past_seq (past_generateSshKeyPair hpast13) fun h14 _ hpast14 => ?_
    refine past_seq (past_storeSshSession hpast14 _ _ _ _ _) fun h15 _ hpast15 => ?_
    exact past_seq (past_basicAuth hpast15) fun h16 _ hpast16 => meets_except_pure hpast16
  · exact fun h' e hq => hq.1

end

end FleetingDns.CreateDiscipline
