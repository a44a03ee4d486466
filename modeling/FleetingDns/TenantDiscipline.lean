import FleetingDns.TenantLedger
namespace FleetingDns.ApiServer

open CommandPrograms ExpiringStore ThreadPool TunnelStorage CreateFlow Provenance ApiState List
  EdfCa.CertificateRegistry Prog Value UserTunnelLookup
open EdfCa (certKey uuidText)

abbrev Named (h : List Ev) (id : String) : Prop := Drew drawnId h id

abbrev Numbered (h : List Ev) (serial : String) : Prop := Drew drawnSerial h serial

/-- A certificate of the given lifetime is registered under the serial number. -/
def Certified (ttl : ℤ) (h : List Ev) (serial : String) : Prop :=
  Numbered h serial ∧ ∃ t cert, (⟨t, .ca (.insertActive serial cert), ()⟩ : Ev) ∈ h ∧
    cert.metadata.expiresAt = cert.metadata.issuedAt + ttl

def MayStore (d : Deployment) (u : String) (h : List Ev) : StoreCmd Key Value → Prop
  | .setEx (.tunnel id) v _ => ∃ tunnel, v = .tunnel tunnel ∧ tunnel.githubUserId = u ∧ Named h id ∧
      Certified d.ca.ca.defaultTtl h tunnel.certificateSerial
  | .set (.tunnelLookup owner) v => ∀ l, v = .lookup l → ∀ id ∈ l.tunnels,
      Knows h (.listed owner id) ∨ (owner = u ∧ Named h id)
  | .del (.tunnel id) => ∃ tunnel, Knows h (.record id tunnel) ∧ tunnel.githubUserId = u
  | .setEx (.sessionGrant _ _) v _ => ∃ t, v = .grant ⟨u, t⟩
  | c => ∀ k, c.target = some k → kept k = false

def Inquires (request : Request) (h : List Ev) (serial : String) : Prop :=
  request.route = .getCertificate serial ∨ ∃ id tunnel, Knows h (.record id tunnel) ∧
    tunnel.githubUserId = request.user.id ∧ tunnel.certificateSerial = serial

def MayCertify (request : Request) (h : List Ev) : EdfCa.Cmd → Prop
  | .insertActive serial cert => cert.clientId = request.user.id ∧ Numbered h serial
  | .repopulate serial cert => Knows h (.certificate serial cert)
  | .lookupActive serial => Inquires request h serial
  | .store (.get k) => ∃ serial, k = certKey serial ∧ Inquires request h serial
  | .store c => ∀ k v, c.written = some (k, v) → ∃ serial cert, k = certKey serial ∧ v = .certificate cert ∧
      cert.clientId = request.user.id ∧ Numbered h serial
  | _ => True

def May (d : Deployment) (request : Request) (h : List Ev) : ApiCmd → Prop
  | .quota (.base (.redis c)) => MayStore d request.user.id h c
  | .quota (.readUsage u) | .quota (.cacheUsage u _) | .quota (.storeUsage u _) => u = request.user.id
  | .quota (.resetUsage u) => request.route = .resetUserUsage u
  | .ca c => MayCertify request h c
  | .db (.deactivate id) => ∃ u r, request.route = .assignServicePlanToUser u r ∧ Knows h (.assignment id u)
  | .db (.insertAssignment a) => ∃ r, request.route = .assignServicePlanToUser a.userId r
  | _ => True

def quiet (u : String) : ApiCmd → Bool
  | .quota (.base (.redis c)) => c.target.all fun k => !kept k
  | .quota (.readUsage v) | .quota (.cacheUsage v _) | .quota (.storeUsage v _) => v = u
  | .quota (.resetUsage _) => false
  | .ca .utcNow | .ca .newUuid | .ca (.isRateLimited _) | .ca (.recordIssuance _) | .ca (.sign _)
  | .ca .caCertificatePem => true
  | .ca _ | .db (.deactivate _) | .db (.insertAssignment _) => false
  | _ => true

abbrev Quiet {α : Type} (u : String) (p : Program α) : Prop := Only (fun c => quiet u c = true) p

variable {h : List Ev} {d : Deployment}

lemma mayStore_quiet {u : String} {c : StoreCmd Key Value} (hc : (c.target.all fun k => !kept k) = true) :
    MayStore d u h c := by
  have hfree : ∀ k, c.target = some k → kept k = false := by
    intro k hk
    rw [hk] at hc
    simpa using hc
  unfold MayStore
  split
  · cases hfree _ rfl
  · cases hfree _ rfl
  · cases hfree _ rfl
  · cases hfree _ rfl
  · exact hfree

lemma may_quiet {request : Request} {c : ApiCmd} (hc : quiet request.user.id c = true) : May d request h c := by
  cases c with
  | quota c =>
    cases c with
    | base c =>
      cases c with
      | redis => exact mayStore_quiet hc
      | _ => trivial
    | readUsage u | cacheUsage u | storeUsage u =>
      have heq : u = request.user.id := of_decide_eq_true hc
      exact heq
    | resetUsage => cases hc
  | ca c | db c => cases c <;> trivial
  | activeCount | totalIssued => trivial

variable {α β : Type} {request : Request}

section

variable {ε : Type} {I : List Ev → Prop}

def Lasting (I : List Ev → Prop) : Prop := ∀ h e, I h → I (h ++ [e])

lemma lasting_knows (f : Fact) : Lasting (Knows · f) := fun _ _ hk => hk.mono (subset_append_left _ _)

lemma lasting_drew {draw : (c : ApiCmd) → c.Reply → Option String} (b : String) : Lasting (Drew draw · b) := by
  rintro h e ⟨e', he, heq⟩
  exact ⟨e', mem_append_left _ he, heq⟩

lemma lasting_certified {ttl : ℤ} (serial : String) : Lasting (Certified ttl · serial) := by
  rintro h e ⟨hn, t, cert, hmem, hexpires⟩
  exact ⟨lasting_drew serial h e hn, t, cert, mem_append_left _ hmem, hexpires⟩

lemma lasting_true : Lasting fun _ => True := fun _ _ _ => trivial

lemma lasting_and {J : List Ev → Prop} (hI : Lasting I) (hJ : Lasting J) : Lasting fun h => I h ∧ J h :=
  fun h e hh => ⟨hI h e hh.1, hJ h e hh.2⟩

def OnOk (M : List Ev → α → Prop) (h : List Ev) (r : Except ε α) : Prop := ∀ a, r = .ok a → M h a

variable {M : List Ev → α → Prop} {p : Program α} {Q : List Ev → Except ApiError β → Prop}

lemma onOk_error (h : List Ev) (e : ε) : OnOk M h (.error e) := by
  rintro a ⟨⟩

lemma onOk_ok {a : α} (ha : M h a) : OnOk (ε := ε) M h (.ok a) := by
  rintro _ ⟨rfl⟩
  exact ha

lemma lasting_only {K : ApiCmd → Prop} {P : List Ev → ApiCmd → Prop} (hP : ∀ h c, K c → P h c) (hI : Lasting I)
    (hp : Only K p) (h0 : I h) : Obeys P (fun h _ => I h) p h := by
  refine meets_only ?_ ?_ hp h0
  · intro h c hc _
    exact hP h c hc
  · intro h c t r _ hh
    exact hI h _ hh

lemma obeys_quiet (hI : Lasting I) (hp : Quiet request.user.id p) (h0 : I h) :
    Obeys (May d request) (fun h _ => I h) p h :=
  lasting_only (fun _ _ => may_quiet) hI hp h0

lemma obeys_seq {Q : List Ev → Except ε β → Prop} {x : ExceptT ε Program α} {f : α → ExceptT ε Program β}
    (hI : Lasting I) (hx : Quiet request.user.id x.run) (h0 : I h)
    (hf : ∀ h' a, I h' → Obeys (May d request) Q (f a).run h') (hQ : ∀ h' e, Q h' (.error e)) :
    Obeys (May d request) Q (x >>= f).run h :=
  meets_except_seq (obeys_quiet hI hx h0) hf fun h' e _ => hQ h' e

lemma obeys_all {x : Handler α} (hx : Quiet request.user.id x.run) : Abides (May d request) x.run h :=
  obeys_quiet lasting_true hx trivial

lemma stored_seq {x : Api α} {f : α → Api β} (hI : Lasting I) (hx : Quiet request.user.id (x.run.expand ofBase))
    (h0 : I h) (hf : ∀ h' a, I h' → Obeys (May d request) Q ((f a).run.expand ofBase) h') (hQ : ∀ h' e, Q h' (.error e)) :
    Obeys (May d request) Q ((x >>= f).run.expand ofBase) h :=
  meets_expand_seq (obeys_quiet hI hx h0) hf fun h' e _ => hQ h' e

lemma stored_redis {c : StoreCmd Key Value} {msg : String} {f : c.Reply → Api β}
    (hc : May d request h (.quota (.base (.redis c))))
    (hok : ∀ t x, Obeys (May d request) Q ((f x).run.expand ofBase) (h ++ [⟨t, .quota (.base (.redis c)), .ok x⟩]))
    (hQ : ∀ h' e, Q h' (.error e)) : Obeys (May d request) Q ((redis c msg >>= f).run.expand ofBase) h := by
  refine .call hc ?_
  rintro r h' ⟨t, rfl⟩
  cases r with
  | ok x => exact hok t x
  | error => exact .ret (hQ _ _)

lemma certified_seq {Q : List Ev → Except EdfCa.CaError β → Prop} {x : EdfCa.Ca α} {f : α → EdfCa.Ca β}
    (hI : Lasting I) (hx : Quiet request.user.id (x.run.expand ofCa)) (h0 : I h)
    (hf : ∀ h' a, I h' → Obeys (May d request) Q ((f a).run.expand ofCa) h') (hQ : ∀ h' e, Q h' (.error e)) :
    Obeys (May d request) Q ((x >>= f).run.expand ofCa) h :=
  meets_expand_seq (obeys_quiet hI hx h0) hf fun h' e _ => hQ h' e

end

variable {u : String}

section

variable {P : ApiCmd → Prop}

lemma only_storage {x : Api α} (hx : Only (fun c => P (.quota (.base c))) x.run) : Only P (storage x).run := by
  refine only_expand ?_ hx
  intro c hc
  exact only_issue hc

lemma only_certified {γ : Type} {x : EdfCa.Program γ} (hx : Only (fun c => P (.ca c)) x) : Only P (x.expand ofCa) := by
  refine only_expand ?_ hx
  intro c hc
  exact only_issue hc

lemma only_metered {p : Quota.Program α} (hp : Only (fun c => P (.quota c)) p) : Only P (metered p).run := by
  refine only_lift (only_expand ?_ hp)
  intro c hc
  exact only_issue hc

lemma only_query {c : Plans.DbCmd} (hc : P (.db c)) : Only P (query c).run := by
  refine only_bind (only_issue hc) ?_
  intro r
  cases r <;> exact .ret

lemma only_now (hP : P (.quota (.base .utcNow))) : Only P now.run :=
  only_storage (only_ask hP)

lemma only_newUuid (hP : P (.quota (.base .newUuid))) : Only P (storage (ExceptT.lift (issue .newUuid))).run :=
  only_storage (only_ask hP)

lemma only_reject {p : Prop} [Decidable p] {e : ApiError} : Only P (reject p e).run := by
  unfold reject
  split_ifs <;> exact .ret

variable {x : Option α} {msg : String}

lemma only_orNotFound : Only P (orNotFound msg x).run := by
  cases x <;> exact .ret

lemma only_orPanicked : Only P (orPanicked msg x).run := by
  cases x <;> exact .ret

lemma only_storedPanic : Only P ((orPanic msg x).run.expand ofBase) := by
  cases x <;> exact .ret

lemma only_parseTunnelId {d : Deployment} (tunnelId : String) : Only P (parseTunnelId d tunnelId).run := by
  unfold parseTunnelId
  split <;> exact .ret

lemma quiet_storage {x : Api α} (hx : Only (fun c => quiet u (.quota (.base c)) = true) x.run) :
    Quiet u (storage x).run :=
  only_storage hx

end

/-! ### The usage tracker -/

section

open Quota UsageTracker

def meters (u : String) : QuotaCmd → Bool
  | .base .utcNow => true
  | .readUsage v | .cacheUsage v _ | .storeUsage v _ => v = u
  | _ => false

abbrev Uses {α : Type} (u : String) (p : Quota.Program α) : Prop := Only (fun c => meters u c = true) p

lemma meters_quiet {c : QuotaCmd} (hc : meters u c = true) : quiet u (.quota c) = true := by
  unfold meters at hc
  split at hc <;> first | exact hc | rfl | cases hc

lemma quiet_metered {α : Type} {p : Quota.Program α} (hp : Uses u p) : Quiet u (metered p).run :=
  only_metered (only_mono (fun _ => meters_quiet) hp)

lemma uses_getUserUsage : Uses u (getUserUsage u) := by
  refine only_bind (only_issue (decide_eq_true rfl)) ?_
  intro found
  cases found with
  | some => exact .ret
  | none =>
    refine only_bind (only_issue rfl) fun _ =>
      only_bind (only_issue rfl) fun _ => ?_
    exact only_bind (only_issue (decide_eq_true rfl)) fun _ => .ret

lemma uses_recordUsage (q : QuotaType) (amount : ℤ) : Uses u (recordUsage u q amount) := by
  refine only_bind uses_getUserUsage fun _ => only_bind (only_issue rfl) fun _ => ?_
  exact only_issue (decide_eq_true rfl)

lemma uses_enforceQuota (q : QuotaType) : Uses u (enforceQuota u q) := by
  refine only_bind (only_bind uses_getUserUsage fun _ => .ret) ?_
  intro result
  split_ifs
  · exact only_bind (uses_recordUsage q 1) fun _ => .ret
  · exact .ret

lemma uses_canCreateTunnel : Uses u (canCreateTunnel u) := only_bind (uses_enforceQuota .tunnelCreation) fun _ => .ret

lemma uses_checkOperationAllowed (operationType : String) : Uses u (Quota.checkOperationAllowed u operationType) := by
  unfold Quota.checkOperationAllowed
  split_ifs
  · exact only_bind (only_bind (uses_enforceQuota .apiCalls) fun _ => .ret) fun _ => .ret
  · exact only_bind uses_canCreateTunnel fun _ => .ret
  · exact only_bind (only_bind (uses_enforceQuota .dnsProvisioning) fun _ => .ret) fun _ => .ret
  · exact .ret

end

/-! ### Certificates -/

section

variable {serial : String}

lemma quiet_rejectIf {p : Prop} [Decidable p] {e : EdfCa.CaError} :
    Quiet u ((EdfCa.rejectIf p e).run.expand ofCa) := by
  unfold EdfCa.rejectIf
  split_ifs <;> exact .ret

lemma quiet_askCa {c : EdfCa.Cmd} (hc : quiet u (.ca c) = true) : Quiet u ((EdfCa.ask c).run.expand ofCa) :=
  only_certified (only_lift (only_issue hc))

lemma numbered_generateCertificate (creq : EdfCa.CertificateRequest) :
    Obeys (May d request) (OnOk fun h cert => Numbered h cert.metadata.serialNumber ∧
      cert.metadata.expiresAt = cert.metadata.issuedAt + creq.validityDuration)
      ((EdfCa.generateCertificate d.ca creq).run.expand ofCa) h := by
  refine certified_seq lasting_true (quiet_askCa rfl) trivial (fun h1 r _ => ?_) onOk_error
  obtain _ | _ := r
  · exact .ret (onOk_error _ _)
  dsimp only
  split
  · exact .ret (onOk_error _ _)
  refine meets_expand_seq (M := OnOk Numbered) ?_ (fun h2 serial hs => ?_)
    (fun h' e _ => onOk_error h' e)
  · refine .call trivial ?_
    rintro bytes h' ⟨t, rfl⟩
    exact .ret (onOk_ok ⟨_, mem_concat_self, rfl⟩)
  refine certified_seq (lasting_drew serial) (quiet_askCa rfl) (hs serial rfl) (fun h3 now h3n => ?_) onOk_error
  cases hadd : addUtc now creq.validityDuration with
  | none => exact .ret (onOk_error _ _)
  | some =>
    refine certified_seq (x := EdfCa.ask .caCertificatePem) (lasting_drew serial) (quiet_askCa rfl) h3n
      (fun h4 r h4n => ?_) onOk_error
    cases r with
    | error => exact .ret (onOk_error _ _)
    | ok => exact .ret (onOk_ok ⟨h4n, addUtc_some hadd⟩)

lemma obeys_registerCertificate {cert : EdfCa.ActiveCertificate} {ttl : ℤ} (hserial : cert.metadata.serialNumber = serial)
    (hclient : cert.clientId = request.user.id) (hnum : Numbered h serial)
    (hexpires : cert.metadata.expiresAt = cert.metadata.issuedAt + ttl) (persistent : Bool) :
    Obeys (May d request) (fun h _ => Certified ttl h serial)
      ((EdfCa.CertificateRegistry.registerCertificate persistent cert).expand ofCa) h := by
  subst hserial
  have hinsert : ∀ h', Numbered h' cert.metadata.serialNumber → Obeys (May d request)
      (fun h _ => Certified ttl h cert.metadata.serialNumber)
      ((EdfCa.issue (.insertActive cert.metadata.serialNumber cert)).expand ofCa) h' := by
    intro h' hn
    refine .call ⟨hclient, hn⟩ ?_
    rintro r _ ⟨t, rfl⟩
    exact .ret ⟨lasting_drew _ _ _ hn, t, cert, mem_concat_self, hexpires⟩
  unfold EdfCa.CertificateRegistry.registerCertificate
  split_ifs
  · refine .call trivial ?_
    rintro now _ ⟨t, rfl⟩
    have hn := lasting_drew _ _ ⟨t, .ca .utcNow, now⟩ hnum
    change Meets _ _ _ (expand ofCa (if _ then _ else _)) _
    split_ifs
    · refine .call ?_ ?_
      · rintro k v ⟨⟩
        exact ⟨_, cert, rfl, rfl, hclient, hn⟩
      · rintro r _ ⟨t', rfl⟩
        exact hinsert _ (lasting_drew _ _ _ hn)
    · exact hinsert _ hn
  · exact hinsert h hnum

lemma obeys_issueTo {clientId : String} (hclient : clientId = request.user.id) (ttl : Option ℤ)
    {creq : ℤ → EdfCa.CertificateRequest} (hcreq : ∀ ttl, (creq ttl).validityDuration = ttl) :
    Obeys (May d request)
      (OnOk fun h cert => Certified (ttl.getD d.ca.ca.defaultTtl) h cert.metadata.serialNumber)
      ((EdfCa.issueTo d.ca clientId ttl creq).run.expand ofCa) h := by
  refine certified_seq lasting_true ?_ trivial (fun h1 _ _ => ?_) onOk_error
  · rw [EdfCa.checkRateLimits, expand_seq]
    refine only_bind (quiet_askCa rfl) ?_
    rintro (e | limited)
    · exact .ret
    · exact quiet_rejectIf
  refine certified_seq lasting_true quiet_rejectIf trivial (fun h2 _ _ => ?_) onOk_error
  refine meets_expand_seq (numbered_generateCertificate _) (fun h3 cert hcert => ?_) (fun h' e _ => onOk_error h' e)
  obtain ⟨hnum, hexpires⟩ := hcert cert rfl
  rw [hcreq] at hexpires
  refine certified_seq (lasting_drew cert.metadata.serialNumber) (quiet_askCa rfl) hnum
    (fun h4 issuedAt h4n => ?_) onOk_error
  refine meets_expand_seq (M := fun h _ => Certified (ttl.getD d.ca.ca.defaultTtl) h cert.metadata.serialNumber) ?_
    (fun h5 _ h5n => ?_) (fun h' e _ => onOk_error h' e)
  · change Meets _ _ _ (expand ofCa (_ >>= _)) _
    rw [expand_bind]
    exact meets_seq (obeys_registerCertificate rfl hclient h4n hexpires _) fun _ _ hn => .ret hn
  · refine certified_seq (lasting_certified cert.metadata.serialNumber) (quiet_askCa rfl) h5n
      (fun h6 _ h6n => ?_) onOk_error
    exact .ret (onOk_ok h6n)

lemma obeys_issueClientCertificate (creq : EdfCa.IssuanceRequest) (hclient : creq.clientId = request.user.id) :
    Obeys (May d request)
      (OnOk fun h cert => Certified (creq.ttl.getD d.ca.ca.defaultTtl) h cert.metadata.serialNumber)
      ((EdfCa.issueClientCertificate d.ca creq).run.expand ofCa) h := by
  refine certified_seq lasting_true ?_ trivial (fun h1 _ _ => obeys_issueTo hclient _ fun _ => rfl) onOk_error
  rw [EdfCa.validateRequest, expand_seq]
  refine only_bind quiet_rejectIf ?_
  rintro (e | _)
  · exact .ret
  · exact quiet_rejectIf

lemma lasting_inquires (serial : String) : Lasting (Inquires request · serial) := by
  rintro h e (hroute | ⟨id, tunnel, hk, hu, hs⟩)
  · exact .inl hroute
  · exact .inr ⟨id, tunnel, lasting_knows _ _ _ hk, hu, hs⟩

lemma obeys_lookup (hq : Inquires request h serial) (persistent : Bool) :
    Abides (May d request)
      ((EdfCa.CertificateRegistry.getCertificate persistent serial).expand ofCa) h := by
  refine .call hq ?_
  rintro found _ ⟨t, rfl⟩
  cases found with
  | some => exact .ret trivial
  | none =>
    split_ifs
    · refine .call ⟨serial, rfl, lasting_inquires serial _ _ hq⟩ ?_
      rintro r _ ⟨t', rfl⟩
      rcases r with e | (_ | record)
      · exact .ret trivial
      · exact .ret trivial
      cases record with
      | malformed => exact .ret trivial
      | certificate =>
        refine .call ⟨_, mem_concat_self, .archived .certificate⟩ ?_
        rintro r _ ⟨t'', rfl⟩
        exact .ret trivial
    · exact .ret trivial

lemma obeys_validateCertificate (hq : Inquires request h serial) :
    Abides (May d request) ((EdfCa.validateCertificate d.ca serial).expand ofCa) h := by
  rw [EdfCa.validateCertificate, EdfCa.CertificateRegistry.isCertificateValid, Prog.expand_bind]
  refine meets_seq (obeys_lookup hq _) ?_
  intro h' found _
  cases found with
  | none => exact .ret trivial
  | some =>
    refine .call trivial ?_
    rintro now _ ⟨t, rfl⟩
    exact .ret trivial

lemma obeys_getCertificateInfo (hq : Inquires request h serial) :
    Abides (May d request) ((EdfCa.getCertificateInfo d.ca serial).run.expand ofCa) h := by
  refine meets_expand_seq (M := fun _ _ => True) ?_ (fun h' found _ => ?_) (fun _ _ _ => trivial)
  · change Meets _ _ _ (Prog.expand ofCa (_ >>= _)) _
    rw [Prog.expand_bind]
    exact meets_seq (obeys_lookup hq _) fun _ _ _ => .ret trivial
  · cases found <;> exact .ret trivial

lemma obeys_asking {α : Type} {x : EdfCa.Ca α} (hx : Abides (May d request) (x.run.expand ofCa) h) :
    Abides (May d request) (authority x).run h := by
  refine meets_seq hx ?_
  intro h' r _
  cases r <;> exact .ret trivial

lemma obeys_authority {α : Type} {x : EdfCa.Ca α} {M : List Ev → α → Prop}
    (hx : Obeys (May d request) (OnOk M) (x.run.expand ofCa) h) : Obeys (May d request) (OnOk M) (authority x).run h := by
  refine meets_seq hx ?_
  intro h' r hr
  cases r with
  | ok a => exact .ret (onOk_ok (hr a rfl))
  | error => exact .ret (onOk_error _ _)

end

/-! ### Tunnel records -/

section

lemma quiet_get (u : String) (k : Key) : quiet u (.quota (.base (.redis (.get k)))) = true := rfl

lemma reads_getTunnel (id : String) :
    Obeys (May d request) (OnOk fun h found => ∀ tunnel, found = some tunnel → Knows h (.record id tunnel))
      ((TunnelStorage.getTunnel id).run.expand ofBase) h := by
  refine stored_redis (may_quiet rfl) (fun t v => ?_) onOk_error
  cases v with
  | none =>
    refine .ret (onOk_ok ?_)
    rintro tunnel ⟨⟩
  | some v =>
    dsimp only
    split
    · rename_i tunnel hv
      obtain rfl := asTunnel_some hv
      refine .ret (onOk_ok ?_)
      rintro _ ⟨rfl⟩
      exact ⟨_, mem_concat_self, .stored .record⟩
    · exact .ret (onOk_error _ _)

lemma reads_ownedTunnel (user : GitHubUser) (id : String) :
    Obeys (May d request)
      (OnOk fun h tunnel => Knows h (.record id tunnel) ∧ tunnel.githubUserId = user.id)
      ((ownedTunnel user id).run.expand ofBase) h := by
  refine meets_expand_seq (reads_getTunnel id) (fun h' found hr => ?_) (fun h' e _ => onOk_error h' e)
  cases found with
  | none => exact .ret (onOk_error _ _)
  | some tunnel =>
    dsimp only
    split_ifs with ho
    · exact .ret (onOk_ok ⟨hr _ rfl tunnel rfl, ho⟩)
    · exact .ret (onOk_error _ _)

lemma obeys_deleteRecord {id : String} {owned : Tunnel} (hk : Knows h (.record id owned))
    (howned : owned.githubUserId = request.user.id) :
    Abides (May d request) ((TunnelStorage.deleteTunnel id).run.expand ofBase) h := by
  refine stored_seq (lasting_knows (.record id owned)) ?_ hk (fun h1 found hk1 => ?_) (fun _ _ => trivial)
  · exact quiet_storage (only_getTunnel (quiet_get _ _))
  obtain _ | tunnel := found
  · exact .ret trivial
  refine stored_redis ⟨owned, hk1, howned⟩ (fun t2 _ => ?_) (fun _ _ => trivial)
  refine stored_redis (may_quiet rfl) (fun t3 _ => ?_) (fun _ _ => trivial)
  refine stored_redis (may_quiet rfl) (fun t4 _ => ?_) (fun _ _ => trivial)
  refine stored_redis (may_quiet rfl) (fun t5 existing => ?_) (fun _ _ => trivial)
  split
  · rename_i lookup hl
    obtain ⟨v, rfl, hv⟩ := Option.bind_eq_some_iff.mp hl
    obtain rfl := asLookup_some hv
    refine stored_redis ?_ (fun _ _ => .ret trivial) (fun _ _ => trivial)
    rintro l ⟨rfl⟩ i hi
    have hold : i ∈ lookup.tunnels := (mem_filter.mp hi).1
    exact .inl ⟨_, mem_concat_self, .stored (.listed hold)⟩
  · exact .ret trivial

variable {user : GitHubUser}

lemma obeys_deleteTunnel (hu : user = request.user) (id : String) :
    Abides (May d request) ((FleetingDns.deleteTunnel user id).run.expand ofBase) h := by
  refine meets_expand_seq (reads_ownedTunnel user id) (fun h' tunnel hr => ?_) (fun _ _ _ => trivial)
  obtain ⟨hk, howned⟩ := hr tunnel rfl
  exact obeys_deleteRecord hk (howned.trans (congrArg _ hu))

lemma obeys_createTunnelSession (hu : user = request.user) (id : String) :
    Abides (May d request) ((FleetingDns.createTunnelSession user id).run.expand ofBase) h := by
  refine meets_of_only (P := fun c => ∀ h, May d request h c) (fun h c hc => hc h) ?_ h
  refine only_expand (P := fun c => ∀ h, May d request h (.quota (.base c))) ?_ ?_
  · intro c hc
    exact only_issue hc
  refine CreateFlow.only_createTunnelSession ?_ ?_ ?_ user ?_ id
  · intro k h
    exact may_quiet rfl
  · intro count range h
    exact may_quiet rfl
  · intro h
    exact may_quiet rfl
  · intro name token t ttl h
    exact ⟨t, by rw [hu]⟩

lemma mem_push {l : UserTunnelLookup} {id i : String} (hi : i ∈ (l.push id).tunnels) : i ∈ l.tunnels ∨ i = id := by
  unfold push at hi
  split_ifs at hi
  · exact .inl hi
  · simpa using hi

lemma mem_ofData {tunnel : Tunnel} {existing : Option Value} {i : String}
    (hi : i ∈ (ofData tunnel existing).tunnels) : ∃ l, existing = some (.lookup l) ∧ i ∈ l.tunnels := by
  unfold ofData at hi
  cases hl : existing.bind asLookup with
  | none =>
    rw [hl] at hi
    cases hi
  | some l =>
    obtain ⟨v, rfl, hv⟩ := Option.bind_eq_some_iff.mp hl
    obtain rfl := asLookup_some hv
    exact ⟨l, rfl, hi⟩

lemma obeys_storeTunnel (tunnel : Tunnel) (howner : tunnel.githubUserId = request.user.id) (hname : Named h tunnel.id)
    (hnum : Certified d.ca.ca.defaultTtl h tunnel.certificateSerial) (edgeIp : String) :
    Abides (May d request) ((storeTunnel edgeIp tunnel).run.expand ofBase) h := by
  refine stored_seq (lasting_and (lasting_drew tunnel.id) (lasting_certified tunnel.certificateSerial)) (only_now rfl)
    ⟨hname, hnum⟩ (fun h1 now hdrawn => ?_) (fun _ _ => trivial)
  refine stored_redis ⟨tunnel, rfl, howner, hdrawn.1, hdrawn.2⟩ (fun t2 _ => ?_) (fun _ _ => trivial)
  refine stored_redis (may_quiet rfl) (fun t3 existing => ?_) (fun _ _ => trivial)
  refine stored_redis ?_ (fun t4 _ => ?_) (fun _ _ => trivial)
  · rintro l ⟨rfl⟩ i hi
    obtain hi | rfl := mem_push hi
    · obtain ⟨l, rfl, hi⟩ := mem_ofData hi
      exact .inl ⟨_, mem_concat_self, .stored (.listed hi)⟩
    · exact .inr ⟨howner, lasting_drew _ _ _ (lasting_drew _ _ _ hdrawn.1)⟩
  refine obeys_all (x := storage (claimSubdomain tunnel _ >>= fun _ =>
    redis (.setEx (.slot tunnel.fqdn) (.text edgeIp) _) _ >>= fun _ => pure ())) ?_
  refine quiet_storage (only_seq ?_ fun _ => only_seq (only_redis rfl) fun _ => .ret)
  apply only_claimSubdomain
  · intro name v ttl
    rfl
  · intro name
    rfl
  · intro name ttl
    rfl

lemma obeys_newTunnel (owner login name base : String) (localPort slot : ℕ) (serial : String) (ttl : ℕ)
    (hnum : Certified d.ca.ca.defaultTtl h serial) : Obeys (May d request) (OnOk fun h tunnel => Named h tunnel.id ∧
        Certified d.ca.ca.defaultTtl h tunnel.certificateSerial ∧ tunnel.githubUserId = owner)
      ((Tunnel.new owner login name base localPort slot serial ttl).run.expand ofBase) h := by
  refine stored_seq (lasting_certified serial) (only_now rfl) hnum (fun h1 now h1n => ?_) onOk_error
  refine stored_seq (lasting_certified serial) only_storedPanic h1n
    (fun h2 _ h2n => ?_) onOk_error
  refine stored_seq (lasting_certified serial) only_storedPanic h2n
    (fun h3 _ h3n => ?_) onOk_error
  refine .call (may_quiet rfl) ?_
  rintro id _ ⟨t, rfl⟩
  exact .ret (onOk_ok ⟨⟨_, mem_concat_self, rfl⟩, lasting_certified _ _ _ h3n, rfl⟩)

lemma obeys_openTunnel {config : ApiConfig} {creation : CreateTunnelRequest} {subdomain : String}
    {cert : CertificateMetadata} (hnum : Certified d.ca.ca.defaultTtl h cert.serialNumber) :
    Abides (May d request)
      ((openTunnel config request.user creation subdomain cert).run.expand ofBase) h := by
  refine stored_seq (lasting_certified cert.serialNumber) (only_now rfl) hnum (fun h1 now h1n => ?_) (fun _ _ => trivial)
  refine stored_seq (lasting_certified cert.serialNumber) ?_ h1n (fun h2 port h2n => ?_) (fun _ _ => trivial)
  · refine quiet_storage (only_allocatePort ?_ ?_ _ _)
    · rfl
    · intro n v ttl
      rfl
  refine meets_expand_seq (obeys_newTunnel _ _ _ _ _ _ _ _ h2n) (fun h3 tunnel htunnel => ?_) (fun _ _ _ => trivial)
  obtain ⟨hname, hserial, howner⟩ := htunnel tunnel rfl
  refine meets_expand_seq (obeys_storeTunnel { tunnel with
    protectedTunnel := creation.protectedTunnel.getD false
    teardownPolicy := creation.teardownPolicy.getD .ttlOnly } howner hname hserial _) (fun h4 _ _ => ?_)
    (fun _ _ _ => trivial)
  refine obeys_quiet lasting_true (quiet_storage (only_credentials ?_ ?_ ?_ ?_ creation _ _ _ _)) trivial
  · rfl
  · rfl
  · intro p id v ttl
    rfl
  · intro count range
    rfl

end

/-! ### The routes -/

section

lemma obeys_map {α β : Type} {x : Handler α} {f : α → β} (hx : Abides (May d request) x.run h) :
    Abides (May d request) (f <$> x).run h := by
  refine meets_seq hx ?_
  intro h' r _
  cases r <;> exact .ret trivial

lemma obeys_then {α β : Type} {x : Handler α} {f : α → Handler β} (hx : Quiet request.user.id x.run)
    (hf : ∀ h' a, Abides (May d request) (f a).run h') : Abides (May d request) (x >>= f).run h :=
  obeys_seq lasting_true hx trivial (fun h' a _ => hf h' a) fun _ _ => trivial

lemma obeys_createTunnel (creation : CreateTunnelRequest) :
    Abides (May d request) (createTunnel d request.user creation).run h := by
  refine obeys_then only_reject fun h1 _ => obeys_then (quiet_metered uses_canCreateTunnel) fun h2 canCreate => ?_
  refine obeys_then only_reject fun h3 _ => obeys_then ?_ fun h4 subdomain => ?_
  · apply quiet_storage
    apply only_chooseSubdomain
    intro count range
    rfl
  refine obeys_then (quiet_storage (only_isSubdomainAvailable (quiet_get _) _)) fun h5 available => ?_
  refine obeys_then only_reject fun h6 _ => ?_
  refine meets_except_seq (M := OnOk fun h cert => Certified d.ca.ca.defaultTtl h cert.metadata.serialNumber) ?_
    (fun h7 cert hnum => obeys_openTunnel (hnum cert rfl)) (fun _ _ _ => trivial)
  refine obeys_seq lasting_true (only_newUuid rfl) trivial (fun h7 requestId _ => ?_) onOk_error
  exact obeys_authority (obeys_issueClientCertificate ⟨requestId, _, none, request.user.id⟩ rfl)

lemma obeys_getTunnel (tunnelId : String) : Abides (May d request) (getTunnel d request.user tunnelId).run h := by
  refine obeys_then (only_parseTunnelId tunnelId) fun h1 uuid => obeys_then ?_ fun h2 tunnel => ?_
  · exact quiet_storage (only_ownedTunnel (quiet_get _ _))
  · exact obeys_all (only_seq (only_now rfl) fun _ => .ret)

lemma quiet_readTunnels {u : String} (parse : String → Option String) (ids : List String) :
    Only (fun c => quiet u (.quota (.base c)) = true) (readTunnels parse ids).run := by
  induction ids with
  | nil => exact .ret
  | cons id ids ih =>
    unfold readTunnels
    split
    · exact ih
    rename_i uuid _
    refine only_seq (only_lift (only_getTunnel (quiet_get u _))) ?_
    rintro (e | _ | tunnel)
    · exact ih
    · exact ih
    · exact only_seq ih fun _ => .ret

lemma quiet_listTunnels : Quiet request.user.id (listTunnels d request.user).run := by
  refine only_seq (quiet_storage ?_) fun _ => only_seq (only_now rfl) fun _ => .ret
  refine only_seq (only_redis rfl) ?_
  intro data
  cases data with
  | none => exact .ret
  | some =>
    dsimp only
    split
    · exact quiet_readTunnels _ _
    · exact .ret

lemma quiet_sshConnected {u : String} (tunnelId : String) : Quiet u (sshConnected tunnelId).run := by
  refine only_seq (only_lift (quiet_storage (only_seq (only_redis rfl) fun _ => .ret))) ?_
  rintro (e | live) <;> exact .ret

lemma obeys_healthChecks {id : String} {tunnel : Tunnel} (hk : Knows h (.record id tunnel))
    (howned : tunnel.githubUserId = request.user.id) :
    Abides (May d request) (performTunnelHealthChecks d tunnel).run h := by
  have hlast := lasting_knows (.record id tunnel)
  refine obeys_seq hlast (only_now rfl) hk (fun h1 lastCheck hk1 => ?_) (fun _ _ => trivial)
  refine obeys_seq hlast (only_now rfl) hk1 (fun h2 checkedAt hk2 => ?_) (fun _ _ => trivial)
  split
  · exact .ret trivial
  refine meets_except_seq (M := fun _ _ => True) ?_ (fun h3 valid _ => ?_) (fun _ _ _ => trivial)
  · unfold certificateValid
    split_ifs
    · exact .ret trivial
    · exact meets_lift (obeys_validateCertificate (.inr ⟨id, tunnel, hk2, howned, rfl⟩))
  · exact obeys_then (quiet_sshConnected _) fun h4 live => .ret trivial

lemma obeys_getTunnelHealth (tunnelId : String) :
    Abides (May d request) (getTunnelHealth d request.user tunnelId).run h := by
  refine obeys_then (only_parseTunnelId tunnelId) fun h1 uuid => ?_
  refine meets_except_seq (reads_getTunnel uuid) (fun h2 found hr => ?_) (fun _ _ _ => trivial)
  cases found with
  | none => exact .ret trivial
  | some tunnel =>
    dsimp only
    split_ifs with howned
    · exact .ret trivial
    · exact obeys_healthChecks (hr _ rfl tunnel rfl) (not_not.mp howned)

lemma obeys_bulkHealthOf (tunnelId : String) : Abides (May d request) (bulkHealthOf d request.user tunnelId) h := by
  unfold bulkHealthOf
  split
  · exact .ret trivial
  rename_i uuid _
  refine meets_seq (reads_getTunnel uuid) ?_
  rintro h1 (e | _ | tunnel) hr
  · exact .ret trivial
  · exact .ret trivial
  dsimp only
  split_ifs with howned
  · exact .ret trivial
  · refine meets_seq (obeys_healthChecks (hr _ rfl tunnel rfl) (not_not.mp howned)) ?_
    intro h2 r _
    cases r <;> exact .ret trivial

lemma obeys_bulkHealth (results : List TunnelHealthResult) (errors : List HealthError) (tunnelIds : List String) :
    Abides (May d request) (bulkHealth d request.user results errors tunnelIds) h := by
  induction tunnelIds generalizing results errors h with
  | nil => exact .ret trivial
  | cons tunnelId tunnelIds ih =>
    refine meets_seq (obeys_bulkHealthOf tunnelId) ?_
    rintro h1 (e | result) _
    · exact ih _ _
    · exact ih _ _

lemma obeys_getBulkTunnelHealth (tunnelIds : List String) :
    Abides (May d request) (getBulkTunnelHealth d request.user tunnelIds).run h := by
  refine obeys_then only_reject fun h1 _ => obeys_then only_reject fun h2 _ => ?_
  refine meets_except_seq (M := fun _ _ => True) ?_ (fun _ _ _ => .ret trivial) fun _ _ _ => trivial
  exact meets_lift (obeys_bulkHealth [] [] tunnelIds)

lemma obeys_issue (commonName : String) (ttl : Option ℕ) :
    Abides (May d request) (issueCertificate d request.user commonName ttl).run h := by
  refine obeys_then only_reject fun h1 _ => obeys_then (only_newUuid rfl) fun h2 requestId => ?_
  refine obeys_then only_orPanicked fun h3 ttl => ?_
  refine meets_except_seq (obeys_asking ?_) (fun _ _ _ => .ret trivial) fun _ _ _ => trivial
  exact meets_expand_seq (obeys_issueClientCertificate _ rfl) (fun _ _ _ => .ret trivial) fun _ _ _ => trivial

lemma obeys_getCertificate {serial : String} (hroute : request.route = .getCertificate serial) :
    Abides (May d request) (getCertificate d serial).run h := by
  refine meets_except_seq (obeys_asking (obeys_getCertificateInfo (.inl hroute))) (fun h1 cert _ => ?_)
    fun _ _ _ => trivial
  exact obeys_all (only_seq (only_now rfl) fun _ => .ret)

lemma quiet_getStats : Quiet u getStats.run := by
  refine only_seq (quiet_storage (only_seq (only_redis rfl) fun _ => .ret)) fun _ => ?_
  refine only_seq (only_lift (only_issue rfl)) fun _ => ?_
  exact only_seq (only_lift (only_issue rfl)) fun _ => .ret

def tame : ApiCmd → Bool
  | .quota (.base .utcNow) | .quota (.base .newUuid) => true
  | .db (.deactivate _) | .db (.insertAssignment _) => false
  | .db _ => true
  | _ => false

abbrev Tame {α : Type} (p : Program α) : Prop := Only (fun c => tame c = true) p

lemma quiet_tame {α : Type} {p : Program α} (hp : Tame p) : Quiet u p := by
  refine only_mono ?_ hp
  intro c hc
  unfold tame at hc
  split at hc <;> first | rfl | cases hc
  rename_i c hdeactivate hinsert
  cases c with
  | deactivate id => cases hdeactivate id rfl
  | insertAssignment a => cases hinsert a rfl
  | _ => rfl

lemma tame_updateServicePlan (planId : String) (r : Plans.UpdateServicePlanRequest) :
    Tame (updateServicePlan planId r).run := by
  have hupdate : Tame (query (.updatePlan planId r) >>= fun plan => pure (ServicePlanResponse.of plan) :
      Handler ServicePlanResponse).run := only_seq (only_query rfl) fun _ => .ret
  refine only_seq (only_query rfl) fun found => only_seq only_orNotFound fun existing => ?_
  split
  · split_ifs
    · exact only_seq (only_query rfl) fun _ => only_seq only_reject fun _ => hupdate
    · exact hupdate
  · exact hupdate

lemma obeys_query {α : Type} {c : Plans.DbCmd} {f : c.Rows → Handler α} (hc : May d request h (.db c))
    (hf : ∀ t x, Abides (May d request) (f x).run (h ++ [⟨t, .db c, .ok x⟩])) :
    Abides (May d request) (query c >>= f).run h := by
  refine .call hc ?_
  rintro (e | x) _ ⟨t, rfl⟩
  · exact .ret trivial
  · exact hf t x

variable {userId : String} {r : AssignServicePlanRequest}

lemma obeys_deactivateAll (hroute : request.route = .assignServicePlanToUser userId r)
    {as : List Plans.UserServicePlan} (has : ∀ a ∈ as, Knows h (.assignment a.id userId)) :
    Abides (May d request) (deactivateAll as).run h := by
  induction as generalizing h with
  | nil => exact .ret trivial
  | cons a as ih =>
    refine obeys_query ⟨userId, r, hroute, has a mem_cons_self⟩ fun t _ => ih ?_
    intro a' ha'
    exact lasting_knows _ _ _ (has a' (mem_cons_of_mem _ ha'))

lemma obeys_assign (hroute : request.route = .assignServicePlanToUser userId r) :
    Abides (May d request) (assignServicePlanToUser userId r).run h := by
  refine obeys_then (only_query rfl) fun h1 found => obeys_then only_orNotFound fun h2 _ => ?_
  refine obeys_query trivial fun t existing => ?_
  refine meets_except_seq (obeys_deactivateAll hroute ?_) (fun h3 _ _ => ?_) fun _ _ _ => trivial
  · intro a ha
    exact ⟨_, mem_concat_self, .assigned ha⟩
  · refine obeys_then (only_newUuid rfl) fun h4 id => obeys_then (only_now rfl) fun h5 _ =>
      obeys_then (only_now rfl) fun h6 _ => ?_
    exact obeys_query ⟨r, hroute⟩ fun t a => .ret trivial

lemma tame_currentPlan (userId : String) : Tame (currentPlan userId).run :=
  only_seq (only_query rfl) fun _ => only_seq only_orNotFound fun _ => only_seq (only_query rfl) fun _ =>
    only_seq only_orNotFound fun _ => .ret

lemma tame_planFeatures (plan : Plans.ServicePlan) : Tame (planFeatures d plan).run := by
  unfold planFeatures
  split <;> exact .ret

lemma tame_availablePlans (current : Option Plans.UserServicePlan) (plans : List Plans.ServicePlan) :
    Tame (availablePlans d current plans).run := by
  induction plans with
  | nil => exact .ret
  | cons plan plans ih => exact only_seq (tame_planFeatures plan) fun _ => only_seq ih fun _ => .ret

lemma tame_map {α β : Type} {x : Handler α} {f : α → β} (hx : Tame x.run) : Tame (f <$> x).run := by
  refine only_bind hx ?_
  rintro (e | a) <;> exact .ret

def Route.onPlans : Route → Bool
  | .createServicePlan _ | .listServicePlans | .getServicePlan _ | .updateServicePlan _ _ | .deleteServicePlan _
  | .getMyServicePlan | .getMyServicePlanUsage | .getAvailableServicePlans | .requestServicePlanChange _ => true
  | _ => false

lemma tame_handle {user : GitHubUser} {route : Route} (hroute : route.onPlans = true) :
    Tame (route.handle d user).run := by
  cases route with
  | createServicePlan =>
    exact tame_map (only_seq (only_query rfl) fun _ => only_seq only_reject fun _ => only_seq (only_newUuid rfl) fun _ =>
      only_seq (only_now rfl) fun _ => only_seq (only_query rfl) fun _ => .ret)
  | listServicePlans => exact tame_map (only_seq (only_query rfl) fun _ => .ret)
  | getServicePlan => exact tame_map (only_seq (only_query rfl) fun _ => only_seq only_orNotFound fun _ => .ret)
  | updateServicePlan id r => exact tame_map (tame_updateServicePlan id r)
  | deleteServicePlan =>
    exact tame_map (only_seq (only_query rfl) fun _ => only_seq only_orNotFound fun _ =>
      only_seq (only_query rfl) fun _ => only_seq only_reject fun _ => only_query rfl)
  | getMyServicePlan =>
    exact tame_map (only_seq (tame_currentPlan _) fun _ => only_seq (tame_planFeatures _) fun _ => .ret)
  | getMyServicePlanUsage => exact tame_map (only_seq (tame_currentPlan _) fun _ => only_seq (only_now rfl) fun _ => .ret)
  | getAvailableServicePlans =>
    exact tame_map (only_seq (only_query rfl) fun _ => only_seq (only_query rfl) fun _ => tame_availablePlans _ _)
  | requestServicePlanChange =>
    exact tame_map (only_seq (only_query rfl) fun _ => only_seq only_orNotFound fun _ =>
      only_seq (only_query rfl) fun _ => only_seq only_reject fun _ => only_seq (only_newUuid rfl) fun _ => .ret)
  | _ => cases hroute

lemma quiet_checkOperationAllowed (operationType : String) :
    Quiet request.user.id (checkOperationAllowed request.user operationType).run := by
  refine only_seq (quiet_metered (uses_checkOperationAllowed operationType)) ?_
  rintro (e | response) <;> exact .ret

lemma obeys_resetUserUsage (hroute : request.route = .resetUserUsage userId) :
    Abides (May d request) (resetUserUsage userId).run h := by
  refine .call hroute ?_
  rintro _ _ ⟨t, rfl⟩
  refine .call trivial ?_
  rintro now _ ⟨t', rfl⟩
  exact .ret trivial

lemma obeys_handle (request : Request) : Abides (May d request) (request.route.handle d request.user).run h := by
  cases hroute : request.route with
  | createTunnel r => exact obeys_map (obeys_createTunnel r)
  | getTunnel id => exact obeys_map (obeys_getTunnel id)
  | deleteTunnel id =>
    refine obeys_map (obeys_then (only_parseTunnelId id) fun h1 uuid => ?_)
    exact meets_except_seq (obeys_deleteTunnel rfl uuid) (fun _ _ _ => .ret trivial) fun _ _ _ => trivial
  | listTunnels => exact obeys_map (obeys_all quiet_listTunnels)
  | createTunnelSession id =>
    refine obeys_map (obeys_then (only_parseTunnelId id) fun h1 uuid => ?_)
    exact meets_except_seq (obeys_createTunnelSession rfl uuid) (fun _ _ _ => .ret trivial) fun _ _ _ => trivial
  | getTunnelHealth id => exact obeys_map (obeys_getTunnelHealth id)
  | getBulkTunnelHealth ids => exact obeys_map (obeys_getBulkTunnelHealth ids)
  | issueCertificate commonName ttl => exact obeys_map (obeys_issue commonName ttl)
  | getCertificate => exact obeys_map (obeys_getCertificate hroute)
  | getStats => exact obeys_map (obeys_all quiet_getStats)
  | getRateLimitPolicy | updateRateLimitPolicy | getAllUsersQuotaStatus => exact .ret trivial
  | createServicePlan | listServicePlans | getServicePlan | updateServicePlan | deleteServicePlan | getMyServicePlan
  | getMyServicePlanUsage | getAvailableServicePlans | requestServicePlanChange =>
    exact obeys_all (quiet_tame (tame_handle rfl))
  | assignServicePlanToUser => exact obeys_map (obeys_assign hroute)
  | getQuotaInfo =>
    refine obeys_map (obeys_all (only_seq (quiet_metered ?_) fun _ => .ret))
    exact only_bind uses_getUserUsage fun _ => .ret
  | checkOperationAllowed operationType => exact obeys_map (obeys_all (quiet_checkOperationAllowed operationType))
  | resetUserUsage => exact obeys_map (obeys_resetUserUsage hroute)

lemma request_obeys (request : Request) : Abides (May d request) (request.program d) [] :=
  meets_seq (obeys_handle request) fun _ _ _ => .ret trivial

end

end FleetingDns.ApiServer
