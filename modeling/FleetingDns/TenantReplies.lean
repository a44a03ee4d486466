import FleetingDns.Library.RelatedRuns
import FleetingDns.TenantDiscipline
namespace FleetingDns.ApiServer

open CommandPrograms ExpiringStore TunnelStorage CreateFlow RelatedRuns

/-- Replies that differ only in records and certificates of others: in their fields, and in the ids they are kept under. -/
inductive Alike (u : String) (mine : String → Prop) : (c : ApiCmd) → c.Reply → (c' : ApiCmd) → c'.Reply → Prop
  | same {c : ApiCmd} {r : c.Reply} : Alike u mine c r c r
  | moved {id id' : String} {r : Except String (Option Value)} (other : ¬ mine id) (other' : ¬ mine id') :
      Alike u mine (.quota (.base (.redis (.get (.tunnel id))))) r (.quota (.base (.redis (.get (.tunnel id'))))) r
  | record {id id' : String} {tunnel tunnel' : Tunnel} (other : ¬ mine id) (other' : ¬ mine id')
      (foreign : tunnel.githubUserId ≠ u) (foreign' : tunnel'.githubUserId ≠ u) :
      Alike u mine (.quota (.base (.redis (.get (.tunnel id))))) (.ok (some (.tunnel tunnel)))
        (.quota (.base (.redis (.get (.tunnel id'))))) (.ok (some (.tunnel tunnel')))
  | holder {name id id' : String} (other : ¬ mine id) (other' : ¬ mine id') :
      Alike u mine (.quota (.base (.redis (.get (.subdomain name))))) (.ok (some (.text id)))
        (.quota (.base (.redis (.get (.subdomain name))))) (.ok (some (.text id')))
  | keys {p : Key → Bool} {l l' : List Key} (length : l.length = l'.length) :
      Alike u mine (.quota (.base (.redis (.keys p)))) (.ok l) (.quota (.base (.redis (.keys p)))) (.ok l')
  | active {serial : String} {cert cert' : EdfCa.ActiveCertificate} (foreign : cert.clientId ≠ u)
      (foreign' : cert'.clientId ≠ u) :
      Alike u mine (.ca (.lookupActive serial)) (some cert) (.ca (.lookupActive serial)) (some cert')
  | archived {k : String} {cert cert' : EdfCa.ActiveCertificate} (foreign : cert.clientId ≠ u)
      (foreign' : cert'.clientId ≠ u) : Alike u mine (.ca (.store (.get k))) (.ok (some (.certificate cert)))
        (.ca (.store (.get k))) (.ok (some (.certificate cert')))

inductive Twin (mine : String → Prop) : ApiCmd → ApiCmd → Prop
  | same {c : ApiCmd} : Twin mine c c
  | moved {id id' : String} (other : ¬ mine id) (other' : ¬ mine id') :
      Twin mine (.quota (.base (.redis (.get (.tunnel id))))) (.quota (.base (.redis (.get (.tunnel id')))))

def likeness (u : String) (mine : String → Prop) : Likeness ApiCmd ApiCmd.Reply := ⟨Twin mine, Alike u mine⟩

def Proper (d : Deployment) (u : String) (mine : String → Prop) : (c : ApiCmd) → c.Reply → Prop
  | .quota (.base .newUuid), id => mine id
  | .quota (.base (.redis (.get (.tunnel id)))), r =>
    ∀ tunnel, r = .ok (some (.tunnel tunnel)) → (tunnel.githubUserId = u ↔ mine id)
  | .quota (.base (.redis (.get (.tunnelLookup owner)))), r =>
    ∀ l, r = .ok (some (.lookup l)) → owner = u → ∀ id ∈ l.tunnels, mine id ∧ d.parseUuid id = some id
  | .ca (.lookupActive _), r => ∀ cert, r = some cert → cert.clientId = u
  | .ca (.store (.get _)), r => ∀ cert, r = .ok (some (.certificate cert)) → cert.clientId = u
  | _, _ => True

def calm (mine : String → Prop) : ApiCmd → Prop
  | .quota (.base (.redis (.get (.tunnel id)))) => mine id
  | .quota (.base (.redis (.get (.subdomain _)))) | .quota (.base (.redis (.keys _))) => False
  | _ => True

variable {d : Deployment} {u : String} {mine : String → Prop}

section

variable {α β : Type}

lemma steady_calm {c : ApiCmd} (hc : calm mine c) : Steady (likeness u mine) (Proper d u mine) c := by
  refine ⟨.same, ?_⟩
  intro r r' hg ha
  cases ha with
  | same | moved => rfl
  | record other => exact absurd hc other
  | holder | keys => cases hc
  | active foreign | archived foreign => exact absurd (hg _ rfl) foreign

variable (d u mine) in
abbrev Agrees (M : α → α → Prop) (x : Handler α) : Prop :=
  Couples (likeness u mine) (Proper d u mine) (Same M) x.run x.run

variable {x : Handler α} {Q : β → β → Prop} {f : α → Handler β}

lemma agrees_calm (hx : Only (calm mine) x.run) : Agrees d u mine (· = ·) x := by
  refine couples_mono ?_ (couples_only (only_mono (fun _ => steady_calm) hx))
  rintro r _ rfl
  exact same_refl r

lemma agrees_seq {M : α → α → Prop} (hx : Agrees d u mine M x)
    (hf : ∀ a b, M a b → Couples (likeness u mine) (Proper d u mine) (Same Q) (f a).run (f b).run) :
    Agrees d u mine Q (x >>= f) :=
  couples_except_seq hx hf

lemma agrees_then (hx : Agrees d u mine (· = ·) x) (hf : ∀ a, Agrees d u mine Q (f a)) :
    Agrees d u mine Q (x >>= f) := by
  refine agrees_seq hx ?_
  rintro a _ rfl
  exact hf a

lemma agrees_map {f : α → β} (hx : Agrees d u mine (· = ·) x) : Agrees d u mine (· = ·) (f <$> x) := by
  refine couples_seq hx ?_
  intro r r' hr
  obtain rfl := eq_of_same hr
  cases r <;> exact .ret rfl

lemma storage_seq (x : Api α) (f : α → Api β) : storage (x >>= f) = storage x >>= fun a => storage (f a) := by
  change (x >>= f).run.expand ofBase = x.run.expand ofBase >>= ExceptT.bindCont fun a => storage (f a)
  rw [Prog.expand_seq]
  congr 1
  funext r
  cases r <;> rfl

lemma stored_calm {x : Api α} (hx : Only (fun c => calm mine (.quota (.base c))) x.run) :
    Agrees d u mine (· = ·) (storage x) :=
  agrees_calm (only_storage hx)

lemma stored_then {x : Api α} {f : α → Api β} (hx : Only (fun c => calm mine (.quota (.base c))) x.run)
    (hf : ∀ a, Agrees d u mine Q (storage (f a))) : Agrees d u mine Q (storage (x >>= f)) := by
  rw [storage_seq]
  exact agrees_then (stored_calm hx) hf

end

variable {user : GitHubUser}

/-! ### Reads of records -/

section

lemma alike_tunnel {id id' : String} {r r' : Except String (Option Value)}
    (ha : Alike u mine (.quota (.base (.redis (.get (.tunnel id))))) r (.quota (.base (.redis (.get (.tunnel id'))))) r') :
    r = r' ∨ ∃ tunnel tunnel', r = .ok (some (.tunnel tunnel)) ∧ r' = .ok (some (.tunnel tunnel')) ∧
      tunnel.githubUserId ≠ u ∧ tunnel'.githubUserId ≠ u := by
  cases ha with
  | same | moved => exact .inl rfl
  | record other other' foreign foreign' => exact .inr ⟨_, _, rfl, rfl, foreign, foreign'⟩

lemma alike_holder {name : String} {r r' : Except String (Option Value)}
    (ha : Alike u mine (.quota (.base (.redis (.get (.subdomain name))))) r
      (.quota (.base (.redis (.get (.subdomain name))))) r') :
    r = r' ∨ ∃ id id', r = .ok (some (.text id)) ∧ r' = .ok (some (.text id')) ∧ ¬ mine id ∧ ¬ mine id' := by
  cases ha with
  | same => exact .inl rfl
  | holder other other' => exact .inr ⟨_, _, rfl, rfl, other, other'⟩

inductive Seen (u : String) : Option Tunnel → Option Tunnel → Prop
  | same {found : Option Tunnel} : Seen u found found
  | foreign {tunnel tunnel' : Tunnel} (foreign : tunnel.githubUserId ≠ u) (foreign' : tunnel'.githubUserId ≠ u) :
      Seen u (some tunnel) (some tunnel')

lemma couples_getTunnel {id id' : String} (hid : id = id' ∨ (¬ mine id ∧ ¬ mine id')) :
    Couples (likeness u mine) (Proper d u mine)
      (Same fun found found' => Seen u found found' ∧
        ∀ tunnel, found = some tunnel → (tunnel.githubUserId = u ↔ mine id))
      (storage (TunnelStorage.getTunnel id)).run (storage (TunnelStorage.getTunnel id')).run := by
  have htwin : Twin mine (.quota (.base (.redis (.get (.tunnel id)))))
    (.quota (.base (.redis (.get (.tunnel id'))))) := by
    obtain rfl | ⟨other, other'⟩ := hid
    · exact .same
    · exact .moved other other'
  refine .call htwin ?_
  intro r r' hg ha
  obtain rfl | ⟨tunnel, tunnel', rfl, rfl, foreign, foreign'⟩ := alike_tunnel ha
  · rcases r with e | (_ | v)
    · exact .ret rfl
    · refine .ret ⟨.same, ?_⟩
      rintro tunnel ⟨⟩
    cases v with
    | tunnel tunnel =>
      refine .ret ⟨.same, ?_⟩
      rintro _ ⟨rfl⟩
      exact hg tunnel rfl
    | _ => exact .ret rfl
  · refine .ret ⟨.foreign foreign foreign', ?_⟩
    rintro _ ⟨rfl⟩
    exact hg tunnel rfl

lemma agrees_isSubdomainAvailable (name : String) : Agrees d u mine (· = ·) (storage (isSubdomainAvailable name)) := by
  have hread : ∀ id id', id = id' ∨ (¬ mine id ∧ ¬ mine id') → Couples (likeness u mine) (Proper d u mine)
      (Same fun found found' => found.isNone = found'.isNone) (storage (TunnelStorage.getTunnel id)).run
      (storage (TunnelStorage.getTunnel id')).run := by
    intro id id' hid
    refine couples_mono ?_ (couples_getTunnel hid)
    rintro (e | found) (e' | found') hsame
    · exact hsame
    · exact hsame
    · exact hsame
    · obtain ⟨_ | _, -⟩ := hsame <;> rfl
  rw [isSubdomainAvailable, storage_seq]
  refine agrees_seq ?_ (fun _ _ heq => .ret heq)
  refine .call .same ?_
  intro r r' hg ha
  obtain rfl | ⟨id, id', rfl, rfl, other, other'⟩ := alike_holder ha
  · rcases r with e | (_ | v)
    · exact .ret rfl
    · exact .ret rfl
    · cases v with
      | text id => exact hread id id (.inl rfl)
      | _ => exact .ret rfl
  · exact hread id id' (.inr ⟨other, other'⟩)

lemma agrees_claimSubdomain {tunnel : Tunnel} (hmine : mine tunnel.id) (ttl : ℕ) :
    Agrees d u mine (· = ·) (storage (claimSubdomain tunnel ttl)) := by
  refine stored_then (only_redis trivial) ?_
  intro claimed
  cases claimed with
  | true => exact .ret rfl
  | false =>
    refine .call .same ?_
    intro r r' hg ha
    obtain rfl | ⟨id, id', rfl, rfl, other, other'⟩ := alike_holder ha
    · rcases r with e | holder
      · exact .ret rfl
      · change Agrees d u mine (· = ·) (storage (if _ then _ else _))
        split_ifs
        · exact stored_calm (only_seq (only_redis trivial) fun _ => .ret)
        · exact .ret rfl
    -- the holder is not the new tunnel in either run
    have hne : ∀ id, ¬ mine id → (some (Value.text id)).bind Value.asText ≠ some tunnel.id := by
      intro id other heq
      exact other (Option.some.inj heq ▸ hmine)
    change Couples _ _ _ (storage (if _ then _ else _)).run (storage (if _ then _ else _)).run
    rw [if_neg (hne id other), if_neg (hne id' other')]
    exact .ret rfl

lemma agrees_ownedTunnel (hu : user.id = u) (id : String) :
    Agrees d u mine (fun tunnel tunnel' => tunnel = tunnel' ∧ mine id) (storage (ownedTunnel user id)) := by
  rw [ownedTunnel, storage_seq]
  refine agrees_seq (couples_getTunnel (.inl rfl)) ?_
  rintro found found' ⟨hseen, howner⟩
  cases hseen with
  | same =>
    cases found with
    | none => exact .ret rfl
    | some tunnel =>
      dsimp only
      split_ifs with howned
      · exact .ret ⟨rfl, (howner tunnel rfl).mp (howned.trans hu)⟩
      · exact .ret rfl
  | @foreign tunnel tunnel' foreign foreign' =>
    dsimp only
    rw [if_neg (hu.symm ▸ foreign), if_neg (hu.symm ▸ foreign')]
    exact .ret rfl

lemma calm_deleteTunnel {id : String} (hmine : mine id) :
    Only (fun c => calm mine (.quota (.base c))) (TunnelStorage.deleteTunnel id).run := by
  refine only_seq (only_getTunnel hmine) ?_
  intro found
  cases found with
  | none => exact .ret
  | some =>
    refine only_seq (only_redis trivial) fun _ => only_seq (only_redis trivial) fun _ => ?_
    refine only_seq (only_redis trivial) fun _ => only_seq (only_redis trivial) fun existing => ?_
    split
    · exact only_seq (only_redis trivial) fun _ => .ret
    · exact .ret

lemma agrees_deleteTunnel (hu : user.id = u) (id : String) :
    Agrees d u mine (· = ·) (storage (FleetingDns.deleteTunnel user id)) := by
  rw [FleetingDns.deleteTunnel, storage_seq]
  refine agrees_seq (agrees_ownedTunnel hu id) ?_
  rintro tunnel _ ⟨rfl, hmine⟩
  exact stored_calm (calm_deleteTunnel hmine)

lemma agrees_createTunnelSession (hu : user.id = u) (id : String) :
    Agrees d u mine (· = ·) (storage (FleetingDns.createTunnelSession user id)) := by
  rw [FleetingDns.createTunnelSession, storage_seq]
  refine agrees_seq (agrees_ownedTunnel hu id) ?_
  rintro tunnel _ ⟨rfl, -⟩
  refine stored_calm (only_seq (only_seq (only_ask trivial) fun _ => .ret) fun token => only_seq ?_ fun _ => ?_)
  · exact only_seq (only_ask trivial) fun _ => only_seq (only_redis trivial) fun _ => .ret
  · exact only_seq (only_ask trivial) fun _ => .ret

lemma calm_readTunnels {ids : List String} (hids : ∀ id ∈ ids, mine id ∧ d.parseUuid id = some id) :
    Only (fun c => calm mine (.quota (.base c))) (readTunnels d.parseUuid ids).run := by
  induction ids with
  | nil => exact .ret
  | cons id ids ih =>
    obtain ⟨hmine, hparse⟩ := hids id List.mem_cons_self
    have hrest := ih fun id' hid' => hids id' (List.mem_cons_of_mem _ hid')
    rw [readTunnels, hparse]
    refine only_seq (only_lift (only_getTunnel hmine)) ?_
    rintro (e | _ | tunnel)
    · exact hrest
    · exact hrest
    · exact only_seq hrest fun _ => .ret

lemma agrees_listUserTunnels : Agrees d u mine (· = ·) (storage (listUserTunnels d.parseUuid u)) := by
  refine .call .same ?_
  intro r r' hg ha
  cases ha
  rcases r with e | (_ | v)
  · exact .ret rfl
  · exact .ret rfl
  · cases v with
    | lookup l => exact stored_calm (calm_readTunnels (hg l rfl rfl))
    | _ => exact .ret rfl

lemma agrees_getActiveTunnelCount : Agrees d u mine (· = ·) (storage getActiveTunnelCount) := by
  refine .call .same ?_
  intro r r' hg ha
  cases ha with
  | same => cases r <;> exact .ret rfl
  | keys length => exact .ret length

lemma agrees_newTunnel (owner login name base : String) (localPort slot : ℕ) (serial : String) (ttl : ℕ) :
    Agrees d u mine (fun tunnel tunnel' => tunnel = tunnel' ∧ mine tunnel.id)
      (storage (Tunnel.new owner login name base localPort slot serial ttl)) := by
  refine stored_then (only_ask trivial) fun now => stored_then only_orPanic fun _ => ?_
  refine stored_then only_orPanic fun expiresAt => .call .same ?_
  intro id id' hg ha
  cases ha
  exact .ret ⟨rfl, hg⟩

lemma agrees_storeTunnel (tunnel : Tunnel) (hmine : mine tunnel.id) (edgeIp : String) :
    Agrees d u mine (· = ·) (storage (storeTunnel edgeIp tunnel)) := by
  refine stored_then (only_ask trivial) fun now => stored_then (only_redis trivial) fun _ => ?_
  refine stored_then (only_redis trivial) fun existing => stored_then (only_redis trivial) fun _ => ?_
  rw [storage_seq]
  refine agrees_then (agrees_claimSubdomain hmine _) fun _ => ?_
  exact stored_calm (only_seq (only_redis trivial) fun _ => .ret)

lemma agrees_openTunnel {config : ApiConfig} {creation : CreateTunnelRequest} {subdomain : String}
    {cert : CertificateMetadata} :
    Agrees d u mine (· = ·) (storage (openTunnel config user creation subdomain cert)) := by
  refine stored_then (only_ask trivial) fun now => stored_then ?_ fun port => ?_
  · exact only_allocatePort trivial (fun _ _ _ => trivial) _ _
  rw [storage_seq]
  refine agrees_seq (agrees_newTunnel _ _ _ _ _ _ _ _) ?_
  rintro tunnel _ ⟨rfl, hmine⟩
  rw [storage_seq]
  refine agrees_then ?_ fun _ => stored_calm ?_
  · apply agrees_storeTunnel
    exact hmine
  · exact only_credentials trivial trivial (fun _ _ _ _ => trivial) (fun _ _ => trivial) creation _ _ _ _

end

/-! ### The routes -/

section

lemma calm_ca (c : EdfCa.Cmd) : calm mine (.ca c) := trivial

lemma calm_authority {α : Type} (x : EdfCa.Ca α) : Only (calm mine) (authority x).run := by
  refine only_bind (only_certified (only_any calm_ca x.run)) ?_
  intro r
  cases r <;> exact .ret

lemma calm_metered {α : Type} {p : Quota.Program α} (hp : Uses u p) : Only (calm mine) (metered p).run := by
  refine only_metered (only_mono ?_ hp)
  intro c hc
  unfold meters at hc
  split at hc <;> trivial

lemma calm_tame {α : Type} {p : Program α} (hp : Tame p) : Only (calm mine) p := by
  refine only_mono ?_ hp
  intro c hc
  unfold tame at hc
  split at hc <;> trivial

lemma agrees_createTunnel (creation : CreateTunnelRequest) :
    Agrees d u mine (· = ·) (createTunnel d user creation) := by
  refine agrees_then (agrees_calm only_reject) fun _ => ?_
  refine agrees_then (agrees_calm (calm_metered uses_canCreateTunnel)) fun canCreate => ?_
  refine agrees_then (agrees_calm only_reject) fun _ => ?_
  refine agrees_then (stored_calm (only_chooseSubdomain (fun _ _ => trivial) creation)) fun subdomain => ?_
  refine agrees_then (agrees_isSubdomainAvailable subdomain) fun available => ?_
  refine agrees_then (agrees_calm only_reject) fun _ => agrees_then (agrees_calm ?_) fun cert => agrees_openTunnel
  exact only_seq (only_newUuid trivial) fun _ => calm_authority _

lemma agrees_getTunnel (hu : user.id = u) (tunnelId : String) :
    Agrees d u mine (· = ·) (getTunnel d user tunnelId) := by
  refine agrees_then (agrees_calm (only_parseTunnelId tunnelId)) fun uuid => agrees_seq (agrees_ownedTunnel hu uuid) ?_
  rintro tunnel _ ⟨rfl, -⟩
  exact agrees_calm (only_seq (only_now trivial) fun _ => .ret)

lemma agrees_deletion (hu : user.id = u) (tunnelId : String) :
    Agrees d u mine (· = ·) (deleteTunnel d user tunnelId) :=
  agrees_then (agrees_calm (only_parseTunnelId tunnelId)) fun uuid =>
    agrees_then (agrees_deleteTunnel hu uuid) fun _ => .ret rfl

lemma agrees_session (hu : user.id = u) (tunnelId : String) :
    Agrees d u mine (· = ·) (createTunnelSession d user tunnelId) :=
  agrees_then (agrees_calm (only_parseTunnelId tunnelId)) fun uuid =>
    agrees_then (agrees_createTunnelSession hu uuid) fun _ => .ret rfl

lemma agrees_listTunnels (hu : user.id = u) : Agrees d u mine (· = ·) (listTunnels d user) := by
  subst hu
  exact agrees_then agrees_listUserTunnels fun _ => agrees_calm (only_seq (only_now trivial) fun _ => .ret)

lemma calm_healthChecks (tunnel : Tunnel) : Only (calm mine) (performTunnelHealthChecks d tunnel).run := by
  refine only_seq (only_now trivial) fun lastCheck => only_seq (only_now trivial) fun checkedAt => ?_
  split
  · exact .ret
  refine only_seq ?_ fun valid => only_seq ?_ fun live => .ret
  · unfold certificateValid
    split_ifs
    · exact .ret
    · exact only_lift (only_certified (only_any calm_ca _))
  · refine only_seq (only_lift (only_storage (only_seq (only_redis trivial) fun _ => .ret))) ?_
    rintro (e | live) <;> exact .ret

lemma agrees_getTunnelHealth (hu : user.id = u) (tunnelId : String) :
    Agrees d u mine (· = ·) (getTunnelHealth d user tunnelId) := by
  refine agrees_then (agrees_calm (only_parseTunnelId tunnelId)) fun uuid => ?_
  refine agrees_seq (couples_getTunnel (.inl rfl)) ?_
  rintro found found' ⟨hseen, -⟩
  cases hseen with
  | same =>
    cases found with
    | none => exact .ret rfl
    | some tunnel =>
      dsimp only
      split_ifs
      · exact .ret rfl
      · exact agrees_calm (calm_healthChecks tunnel)
  | foreign foreign foreign' =>
    dsimp only
    rw [if_pos (hu.symm ▸ foreign), if_pos (hu.symm ▸ foreign')]
    exact .ret rfl

lemma couples_bulkHealthOf (hu : user.id = u) (tunnelId : String) :
    Couples (likeness u mine) (Proper d u mine) (· = ·) (bulkHealthOf d user tunnelId)
      (bulkHealthOf d user tunnelId) := by
  unfold bulkHealthOf
  split
  · exact .ret rfl
  rename_i uuid _
  refine couples_seq (couples_getTunnel (.inl rfl)) ?_
  rintro (e | found) (e' | found') hsame
  · exact .ret rfl
  · cases hsame
  · cases hsame
  cases hsame.1 with
  | same =>
    obtain _ | tunnel := found
    · exact .ret rfl
    dsimp only
    split_ifs
    · exact .ret rfl
    · refine couples_seq (couples_only (only_mono (fun _ => steady_calm) (calm_healthChecks tunnel))) ?_
      rintro r _ rfl
      cases r <;> exact .ret rfl
  | foreign foreign foreign' =>
    dsimp only
    rw [if_pos (hu.symm ▸ foreign), if_pos (hu.symm ▸ foreign')]
    exact .ret rfl

lemma couples_bulkHealth (hu : user.id = u) (results : List TunnelHealthResult) (errors : List HealthError)
    (tunnelIds : List String) : Couples (likeness u mine) (Proper d u mine) (· = ·)
      (bulkHealth d user results errors tunnelIds) (bulkHealth d user results errors tunnelIds) := by
  induction tunnelIds generalizing results errors with
  | nil => exact .ret rfl
  | cons tunnelId tunnelIds ih =>
    refine couples_seq (couples_bulkHealthOf hu tunnelId) ?_
    rintro r _ rfl
    cases r <;> exact ih _ _

lemma agrees_getBulkTunnelHealth (hu : user.id = u) (tunnelIds : List String) :
    Agrees d u mine (· = ·) (getBulkTunnelHealth d user tunnelIds) := by
  refine agrees_then (agrees_calm only_reject) fun _ => agrees_then (agrees_calm only_reject) fun _ => ?_
  refine agrees_then ?_ fun _ => .ret rfl
  refine couples_seq (couples_bulkHealth hu [] [] tunnelIds) ?_
  rintro r _ rfl
  exact .ret rfl

lemma calm_issueCertificate (commonName : String) (ttl : Option ℕ) :
    Only (calm mine) (issueCertificate d user commonName ttl).run :=
  only_seq only_reject fun _ => only_seq (only_newUuid trivial) fun _ => only_seq only_orPanicked fun _ =>
    only_seq (calm_authority _) fun _ => .ret

lemma calm_getCertificate (serial : String) : Only (calm mine) (getCertificate d serial).run :=
  only_seq (calm_authority _) fun _ => only_seq (only_now trivial) fun _ => .ret

lemma agrees_getStats : Agrees d u mine (· = ·) getStats := by
  refine agrees_then agrees_getActiveTunnelCount fun _ => agrees_calm ?_
  refine only_seq (only_lift (only_issue trivial)) fun _ => ?_
  exact only_seq (only_lift (only_issue trivial)) fun _ => .ret

lemma calm_deactivateAll (as : List Plans.UserServicePlan) : Only (calm mine) (deactivateAll as).run := by
  induction as with
  | nil => exact .ret
  | cons a as ih => exact only_seq (only_query trivial) fun _ => ih

lemma calm_assign (userId : String) (r : AssignServicePlanRequest) :
    Only (calm mine) (assignServicePlanToUser userId r).run :=
  only_seq (only_query trivial) fun _ => only_seq only_orNotFound fun _ => only_seq (only_query trivial) fun existing =>
    only_seq (calm_deactivateAll existing) fun _ => only_seq (only_newUuid trivial) fun _ =>
      only_seq (only_now trivial) fun _ => only_seq (only_now trivial) fun _ =>
        only_seq (only_query trivial) fun _ => .ret

lemma calm_quota (operationType : String) : Only (calm mine) (checkOperationAllowed user operationType).run := by
  refine only_seq (calm_metered (uses_checkOperationAllowed operationType)) ?_
  rintro (e | response) <;> exact .ret

lemma calm_resetUserUsage (userId : String) : Only (calm mine) (resetUserUsage userId).run := by
  refine only_metered (only_bind (only_issue trivial) fun _ => ?_)
  exact only_bind (only_issue trivial) fun _ => .ret

lemma agrees_handle (request : Request) (hu : request.user.id = u) :
    Agrees d u mine (· = ·) (request.route.handle d request.user) := by
  cases request.route with
  | createTunnel r => exact agrees_map (agrees_createTunnel r)
  | getTunnel id => exact agrees_map (agrees_getTunnel hu id)
  | deleteTunnel id => exact agrees_map (agrees_deletion hu id)
  | listTunnels => exact agrees_map (agrees_listTunnels hu)
  | createTunnelSession id => exact agrees_map (agrees_session hu id)
  | getTunnelHealth id => exact agrees_map (agrees_getTunnelHealth hu id)
  | getBulkTunnelHealth ids => exact agrees_map (agrees_getBulkTunnelHealth hu ids)
  | issueCertificate commonName ttl => exact agrees_map (agrees_calm (calm_issueCertificate commonName ttl))
  | getCertificate serial => exact agrees_map (agrees_calm (calm_getCertificate serial))
  | getStats => exact agrees_map agrees_getStats
  | getRateLimitPolicy | updateRateLimitPolicy | getAllUsersQuotaStatus => exact .ret rfl
  | createServicePlan | listServicePlans | getServicePlan | updateServicePlan | deleteServicePlan | getMyServicePlan
  | getMyServicePlanUsage | getAvailableServicePlans | requestServicePlanChange =>
    exact agrees_calm (calm_tame (tame_handle rfl))
  | assignServicePlanToUser userId r => exact agrees_map (agrees_calm (calm_assign userId r))
  | getQuotaInfo =>
    refine agrees_map (agrees_calm (only_seq (calm_metered (u := request.user.id) ?_) fun _ => .ret))
    exact only_bind uses_getUserUsage fun _ => .ret
  | checkOperationAllowed operationType => exact agrees_map (agrees_calm (calm_quota operationType))
  | resetUserUsage userId => exact agrees_map (agrees_calm (calm_resetUserUsage userId))

lemma couples_request (request : Request) (hu : request.user.id = u) :
    Couples (likeness u mine) (Proper d u mine) (· = ·) (request.program d) (request.program d) := by
  refine couples_seq (agrees_handle request hu) ?_
  intro r r' hr
  obtain rfl := eq_of_same hr
  exact .ret rfl

end

end FleetingDns.ApiServer
