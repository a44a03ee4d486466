import FleetingDns.CreateFlow
namespace FleetingDns.CreateFlow

open CommandPrograms ExpiringStore TunnelStorage Option

def redisFavours : (c : StoreCmd Key Value) → Except String c.Reply → Bool
  | _, .error _ => false
  | .get (.subdomain _), .ok v => v.isNone
  | .setNxEx _ _ _, .ok claimed => claimed
  | _, .ok _ => true

/-- The replies with which a creation goes through: every store command succeeds, the names and ports asked for are
free, the certificate and the key pair are made, and the clock leaves room for the lifetimes. -/
def favours (config : ApiConfig) (request : CreateTunnelRequest) : (c : Cmd) → c.Reply → Bool
  | .redis c, r => redisFavours c r
  | .utcNow, now => (addUtc now config.ca.defaultTtl).isSome &&
    ((durationSeconds (asI64 (request.ttl.getD 3600))).bind fun ttl => addUtc now ttl).isSome
  | .rateLimited _, limited => !limited
  | .generateCertificate _, r => r.isOk
  | .generateEd25519Keypair, r => r.isOk
  | _, _ => true

def acceptable (config : ApiConfig) (user : GitHubUser) (request : CreateTunnelRequest) : Bool :=
  (request.customSubdomain.all fun custom => (validateSubdomain custom).isOk) && !user.id.isEmpty &&
    config.ca.defaultTtl ≤ config.ca.maxTtl

abbrev Favoured (config : ApiConfig) (request : CreateTunnelRequest) {α : Type} (M : α → Prop) (x : Api α) : Prop :=
  Succeeds (fun c r => favours config request c r = true) M x

section

variable {config : ApiConfig} {user : GitHubUser} {request : CreateTunnelRequest} {α : Type}

lemma favoured_ask (c : Cmd) :
    Favoured config request (fun r => favours config request c r = true) (ExceptT.lift (issue c)) :=
  succeeds_lift (yields_issue c)

lemma favoured_redis (c : StoreCmd Key Value) (msg : String) :
    Favoured config request (fun r => redisFavours c (.ok r) = true) (redis c msg) := by
  refine .call fun r hr => ?_
  cases r with
  | error => cases c <;> cases hr
  | ok r => exact .ret ⟨r, rfl, hr⟩

lemma favoured_rejectIf {p : Prop} [Decidable p] {e : ApiError} (hp : ¬ p) :
    Favoured config request (fun _ => True) (rejectIf p e) := by
  rw [rejectIf, if_neg hp]
  exact succeeds_pure trivial

lemma favoured_orPanic {msg : String} {x : Option α} (hx : x.isSome) :
    Favoured config request (fun a => x = some a) (orPanic msg x) := by
  cases x with
  | none => cases hx
  | some => exact succeeds_pure rfl

lemma favoured_chooseSubdomain
    (hok : (request.customSubdomain.all fun custom => (validateSubdomain custom).isOk) = true) :
    Favoured config request (fun _ => True) (chooseSubdomain request) := by
  unfold chooseSubdomain
  split
  · rename_i custom hcustom
    rw [hcustom] at hok
    split
    · exact succeeds_pure trivial
    · rename_i e he
      rw [all_some, he] at hok
      cases hok
  · exact succeeds_seq (favoured_ask (.genIndices 20 36)) fun _ _ => succeeds_pure trivial

lemma favoured_isSubdomainAvailable (name : String) :
    Favoured config request (fun available => available = true) (isSubdomainAvailable name) := by
  have hlookup : Favoured config request (fun tunnel => tunnel = none) (getTunnelBySubdomain name) := by
    refine succeeds_seq (favoured_redis _ _) fun holder hfree => ?_
    obtain rfl : holder = none := isNone_iff_eq_none.mp hfree
    exact succeeds_pure rfl
  refine succeeds_seq hlookup fun tunnel hnone => ?_
  subst hnone
  exact succeeds_pure rfl

lemma favoured_registerCertificate (metadata : CertificateMetadata) :
    Favoured config request (fun _ => True) (ExceptT.lift (registerCertificate metadata)) := by
  refine succeeds_lift (yields_bind (yields_issue _) fun now _ => ?_)
  dsimp only
  split_ifs
  · exact yields_bind (yields_issue _) fun _ _ => .ret trivial
  · exact .ret trivial

lemma favoured_issueClientCertificate (hid : user.id.isEmpty = false) (httl : config.ca.defaultTtl ≤ config.ca.maxTtl) :
    Favoured config request (fun _ => True) (issueClientCertificate config.ca ("tunnel-client-" ++ user.id) user.id) := by
  refine succeeds_seq (favoured_rejectIf (by simp)) fun _ _ => ?_
  refine succeeds_seq (favoured_rejectIf (by simp [hid])) fun _ _ => ?_
  refine succeeds_seq (favoured_ask (.rateLimited user.id)) fun limited hlimited => ?_
  refine succeeds_seq (favoured_rejectIf (by simpa [favours] using hlimited)) fun _ _ => ?_
  refine succeeds_seq (favoured_rejectIf (not_lt.mpr httl)) fun _ _ => ?_
  refine succeeds_seq (favoured_ask (.generateCertificate _)) fun r hr => ?_
  cases r with
  | error => cases hr
  | ok =>
    refine succeeds_seq (favoured_ask .utcNow) fun now hnow => ?_
    rw [favours, Bool.and_eq_true] at hnow
    refine succeeds_seq (favoured_orPanic hnow.1) fun expiresAt _ => ?_
    refine succeeds_seq (favoured_registerCertificate _) fun _ _ => ?_
    exact succeeds_seq (favoured_ask (.recordIssuance user.id)) fun _ _ => succeeds_pure trivial

lemma favoured_allocatePort (owner : String) (ttl : ℕ) :
    Favoured config request (fun _ => True) (allocatePort owner ttl) := by
  refine succeeds_seq (favoured_ask .genPort) fun port _ => ?_
  refine succeeds_seq (favoured_redis _ _) fun claimed hclaimed => ?_
  obtain rfl : claimed = true := hclaimed
  exact succeeds_pure trivial

lemma favoured_newTunnel (owner login name base : String) (localPort slot : ℕ) (serial : String) :
    Favoured config request (fun _ => True)
      (Tunnel.new owner login name base localPort slot serial (request.ttl.getD 3600)) := by
  refine succeeds_seq (favoured_ask .utcNow) fun now hnow => ?_
  rw [favours, Bool.and_eq_true] at hnow
  obtain ⟨expiresAt, hroom⟩ := isSome_iff_exists.mp hnow.2
  obtain ⟨ttl, httl, hadd⟩ := bind_eq_some_iff.mp hroom
  refine succeeds_seq (favoured_orPanic (isSome_of_eq_some httl)) fun ttl' httl' => ?_
  obtain rfl := mem_unique httl httl'
  refine succeeds_seq (favoured_orPanic (isSome_of_eq_some hadd)) fun _ _ => ?_
  exact succeeds_seq (favoured_ask .newUuid) fun _ _ => succeeds_pure trivial

lemma favoured_storeTunnel (edgeIp : String) (tunnel : Tunnel) :
    Favoured config request (fun _ => True) (storeTunnel edgeIp tunnel) := by
  refine succeeds_seq (favoured_ask .utcNow) fun now _ => ?_
  refine succeeds_seq (favoured_redis (.setEx _ _ _) _) fun _ _ => ?_
  refine succeeds_seq (favoured_redis (.get _) _) fun existing _ => succeeds_seq (favoured_redis (.set _ _) _) fun _ _ => ?_
  refine succeeds_seq (M := fun _ => True) ?_ fun _ _ => ?_
  · refine succeeds_seq (favoured_redis (.setNxEx _ _ _) _) fun claimed hclaimed => ?_
    obtain rfl : claimed = true := hclaimed
    exact succeeds_pure trivial
  · exact succeeds_seq (favoured_redis (.setEx _ _ _) _) fun _ _ => succeeds_pure trivial

lemma favoured_generateSshKeyPair : Favoured config request (fun _ => True) generateSshKeyPair := by
  refine succeeds_seq (favoured_ask .generateEd25519Keypair) fun r hr => ?_
  cases r with
  | error => cases hr
  | ok => exact succeeds_pure trivial

lemma favoured_storeSshSession (id owner publicKey fingerprint : String) (expiresAt : ℤ) :
    Favoured config request (fun _ => True) (storeSshSession id owner publicKey fingerprint expiresAt) :=
  succeeds_seq (favoured_ask .utcNow) fun _ _ =>
    succeeds_seq (favoured_redis (.setEx _ _ _) _) fun _ _ => succeeds_pure trivial

lemma favoured_basicAuth : Favoured config request (fun _ => True) (basicAuth request) := by
  have hstring : ∀ n, Favoured config request (fun _ => True) (generateRandomString n) := fun n =>
    succeeds_seq (favoured_ask (.genIndices n 62)) fun _ _ => succeeds_pure trivial
  unfold basicAuth
  split_ifs
  · exact succeeds_seq (hstring 8) fun _ _ => succeeds_seq (hstring 12) fun _ _ => succeeds_pure trivial
  · exact succeeds_pure trivial

lemma favoured_provision (hok : acceptable config user request = true) :
    Favoured config request (fun _ => True) (provision config user request) := by
  simp only [acceptable, Bool.and_eq_true, Bool.not_eq_true', decide_eq_true_eq] at hok
  obtain ⟨⟨hname, hid⟩, httl⟩ := hok
  refine succeeds_seq (favoured_chooseSubdomain hname) fun name _ => ?_
  refine succeeds_seq (favoured_isSubdomainAvailable name) fun available havailable => ?_
  refine succeeds_seq (favoured_rejectIf (by simp [havailable])) fun _ _ => ?_
  refine succeeds_seq (favoured_issueClientCertificate hid httl) fun cert _ => ?_
  refine succeeds_seq (favoured_ask .utcNow) fun now _ => ?_
  refine succeeds_seq (favoured_allocatePort _ _) fun port _ => ?_
  refine succeeds_seq (favoured_newTunnel _ _ _ _ _ _ _) fun tunnel _ => ?_
  refine succeeds_seq (favoured_storeTunnel _ _) fun _ _ => succeeds_seq favoured_generateSshKeyPair fun sshKey _ => ?_
  refine succeeds_seq (favoured_storeSshSession _ _ _ _ _) fun _ _ => ?_
  exact succeeds_seq favoured_basicAuth fun _ _ => succeeds_pure trivial

end

end FleetingDns.CreateFlow
