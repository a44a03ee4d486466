import FleetingDns.TunnelHandlers
namespace FleetingDns.CreateFlow

open CommandPrograms ExpiringStore TunnelStorage

def plain : Cmd → Bool
  | .canCreateTunnel _ | .redis (.setEx (.slot _) _ _) => false
  | .isLockedOut _ | .recordAttempt _ _ _ _ | .bindSlot _ _ _ | .readRequestHead | .dialSlot _ | .replay _ => false
  | _ => true

abbrev Plain {α : Type} (x : Api α) : Prop := Only (fun c => plain c = true) x.run

def unslotted : Cmd → Bool
  | .redis c => match c.target with
    | some (.slot _) => false
    | _ => true
  | _ => true

def bare (c : Cmd) : Bool := plain c && unslotted c

abbrev Bare {α : Type} (x : Api α) : Prop := Only (fun c => bare c = true) x.run

variable {α : Type} {P : Cmd → Prop}

lemma plain_of_bare {x : Api α} (hx : Bare x) : Plain x := by
  refine only_mono ?_ hx
  intro c hc
  exact (Bool.and_eq_true_iff.mp hc).1

lemma only_rejectIf {p : Prop} [Decidable p] {e : ApiError} : Only P (rejectIf p e).run := by
  unfold rejectIf
  split_ifs <;> exact .ret

lemma only_orPanic {msg : String} {x : Option α} : Only P (orPanic msg x).run := by
  cases x <;> exact .ret

lemma only_ask {c : Cmd} (hc : P c) : Only P (ExceptT.lift (issue c) : Api c.Reply).run := only_lift (only_issue hc)

lemma only_redis {c : StoreCmd Key Value} {msg : String} (hc : P (.redis c)) : Only P (redis c msg).run := by
  refine only_bind (only_issue hc) ?_
  intro r
  cases r <;> exact .ret

lemma only_checkQuota {userId : String} (hc : P (.canCreateTunnel userId)) : Only P (checkQuota userId).run := by
  refine only_seq (only_ask hc) ?_
  intro r
  cases r <;> exact .ret

lemma only_chooseSubdomain (hP : ∀ count range, P (.genIndices count range)) (request : CreateTunnelRequest) :
    Only P (chooseSubdomain request).run := by
  unfold chooseSubdomain
  split
  · split <;> exact .ret
  · exact only_seq (only_ask (hP 20 36)) (fun _ => .ret)

lemma only_getTunnel {id : String} (hP : P (.redis (.get (.tunnel id)))) : Only P (getTunnel id).run := by
  refine only_seq (only_redis hP) ?_
  intro r
  cases r with
  | none => exact .ret
  | some =>
    dsimp only
    split <;> exact .ret

lemma only_ownedTunnel {user : GitHubUser} {id : String} (hP : P (.redis (.get (.tunnel id)))) :
    Only P (ownedTunnel user id).run := by
  refine only_seq (only_getTunnel hP) ?_
  intro r
  cases r with
  | none => exact .ret
  | some =>
    dsimp only
    split_ifs <;> exact .ret

lemma only_createTunnelSession (hget : ∀ k, P (.redis (.get k)))
    (hgen : ∀ count range, P (.genIndices count range)) (hnow : P .utcNow) (user : GitHubUser)
    (hset : ∀ name token t ttl, P (.redis (.setEx (.sessionGrant name token) (.grant ⟨user.id, t⟩) ttl))) (id : String) :
    Only P (createTunnelSession user id).run := by
  refine only_seq (only_ownedTunnel (hget _)) fun tunnel => ?_
  refine only_seq (only_seq (only_ask (hgen 32 62)) fun _ => .ret) fun token => only_seq ?_ fun _ => ?_
  · exact only_seq (only_ask hnow) fun _ => only_seq (only_redis (hset _ _ _ _)) fun _ => .ret
  · exact only_seq (only_ask hnow) fun _ => .ret

lemma only_isSubdomainAvailable (hP : ∀ k, P (.redis (.get k))) (name : String) :
    Only P (isSubdomainAvailable name).run := by
  refine only_seq ?_ (fun _ => .ret)
  refine only_seq (only_redis (hP _)) ?_
  intro r
  cases r with
  | none => exact .ret
  | some =>
    dsimp only
    split
    · exact only_getTunnel (hP _)
    · exact .ret

lemma only_generateSshKeyPair (hP : P .generateEd25519Keypair) : Only P generateSshKeyPair.run := by
  refine only_seq (only_ask hP) ?_
  intro r
  cases r <;> exact .ret

lemma only_basicAuth (hP : ∀ count range, P (.genIndices count range)) (request : CreateTunnelRequest) :
    Only P (basicAuth request).run := by
  have hstring : ∀ n, Only P (generateRandomString n).run := fun n => only_seq (only_ask (hP n 62)) fun _ => .ret
  unfold basicAuth
  split_ifs
  · exact only_seq (hstring 8) fun _ => only_seq (hstring 12) fun _ => .ret
  · exact .ret

lemma bare_issueClientCertificate (config : CaConfig) (commonName clientId : String) :
    Bare (issueClientCertificate config commonName clientId) := by
  refine only_seq only_rejectIf fun _ => only_seq only_rejectIf fun _ => only_seq (only_ask rfl) fun _ => ?_
  refine only_seq only_rejectIf fun _ => only_seq only_rejectIf fun _ => only_seq (only_ask rfl) fun r => ?_
  obtain _ | _ := r
  · exact .ret
  refine only_seq (only_ask rfl) fun _ => only_seq only_orPanic fun _ => only_seq (only_lift ?_) fun _ =>
    only_seq (only_ask rfl) fun _ => .ret
  refine only_bind (only_issue rfl) fun now => ?_
  dsimp only
  split_ifs
  · exact only_bind (only_issue rfl) fun _ => .ret
  · exact .ret

lemma only_claimPort (hP : ∀ n v ttl, P (.redis (.setNxEx (.port n) v ttl))) (owner : String) (ttl attempts port : ℕ) :
    Only P (claimPort owner ttl attempts port).run := by
  induction attempts generalizing port with
  | zero => exact .ret
  | succ attempts ih =>
    refine only_seq (only_redis (hP _ _ _)) ?_
    intro claimed
    cases claimed with
    | true => exact .ret
    | false => exact ih _

lemma only_allocatePort (hgen : P .genPort) (hP : ∀ n v ttl, P (.redis (.setNxEx (.port n) v ttl))) (owner : String)
    (ttl : ℕ) : Only P (allocatePort owner ttl).run :=
  only_seq (only_ask hgen) fun _ => only_claimPort hP _ _ _ _

lemma bare_allocatePort (owner : String) (ttl : ℕ) : Bare (allocatePort owner ttl) :=
  only_allocatePort (P := fun c => bare c = true) rfl (fun _ _ _ => rfl) owner ttl

lemma only_newTunnel (hnow : P .utcNow) (huuid : P .newUuid) (owner login name base : String) (localPort slot : ℕ)
    (serial : String) (ttl : ℕ) : Only P (Tunnel.new owner login name base localPort slot serial ttl).run :=
  only_seq (only_ask hnow) fun _ => only_seq only_orPanic fun _ => only_seq only_orPanic fun _ =>
    only_seq (only_ask huuid) fun _ => .ret

lemma bare_newTunnel (owner login name base : String) (localPort slot : ℕ) (serial : String) (ttl : ℕ) :
    Bare (Tunnel.new owner login name base localPort slot serial ttl) :=
  only_newTunnel (P := fun c => bare c = true) rfl rfl owner login name base localPort slot serial ttl

lemma only_claimSubdomain (hclaim : ∀ name v ttl, P (.redis (.setNxEx (.subdomain name) v ttl)))
    (hget : ∀ name, P (.redis (.get (.subdomain name)))) (hexpire : ∀ name ttl, P (.redis (.expire (.subdomain name) ttl)))
    (tunnel : Tunnel) (ttl : ℕ) : Only P (claimSubdomain tunnel ttl).run := by
  refine only_seq (only_redis (hclaim _ _ _)) ?_
  intro claimed
  cases claimed with
  | true => exact .ret
  | false =>
    refine only_seq (only_redis (hget _)) ?_
    intro holder
    split_ifs
    · exact only_seq (only_redis (hexpire _ _)) fun _ => .ret
    · exact .ret

lemma bare_claimSubdomain (tunnel : Tunnel) (ttl : ℕ) : Bare (claimSubdomain tunnel ttl) :=
  only_claimSubdomain (fun _ _ _ => rfl) (fun _ => rfl) (fun _ _ => rfl) tunnel ttl

lemma only_storeSshSession (hnow : P .utcNow) (hP : ∀ p id v ttl, P (.redis (.setEx (.session p id) v ttl)))
    (id owner publicKey fingerprint : String) (expiresAt : ℤ) :
    Only P (storeSshSession id owner publicKey fingerprint expiresAt).run :=
  only_seq (only_ask hnow) fun _ => only_seq (only_redis (hP _ _ _ _)) fun _ => .ret

lemma bare_storeSshSession (id owner publicKey fingerprint : String) (expiresAt : ℤ) :
    Bare (storeSshSession id owner publicKey fingerprint expiresAt) :=
  only_storeSshSession (P := fun c => bare c = true) rfl (fun _ _ _ _ => rfl) id owner publicKey fingerprint expiresAt

lemma only_credentials {α : Type} (hkey : P .generateEd25519Keypair) (hnow : P .utcNow)
    (hsession : ∀ p id v ttl, P (.redis (.setEx (.session p id) v ttl))) (hindices : ∀ count range, P (.genIndices count range))
    (request : CreateTunnelRequest) (id owner : String) (expiresAt : ℤ)
    (f : SshKeyPair → Option (String × String) → α) : Only P (ExceptT.run do
      let sshKey ← generateSshKeyPair
      storeSshSession id owner sshKey.publicKey sshKey.fingerprint expiresAt
      let auth ← basicAuth request
      return f sshKey auth) := by
  refine only_seq (only_generateSshKeyPair hkey) fun sshKey => ?_
  refine only_seq (only_storeSshSession hnow hsession _ _ _ _ _) fun _ => ?_
  exact only_seq (only_basicAuth hindices request) fun auth => .ret

section

variable (config : ApiConfig) (user : GitHubUser) (request : CreateTunnelRequest)

def openTunnel (subdomain : String) (cert : CertificateMetadata) : Api CreateTunnelResponse := do
  let now ← utcNow
  let certificateTtl := asU64 (numSeconds (cert.expiresAt - now))
  let allocatedPort ← allocatePort user.id certificateTtl
  let tunnel ← Tunnel.new user.id user.login subdomain "fleetingdns.run" request.port allocatedPort
    cert.serialNumber (request.ttl.getD 3600)
  let tunnel := { tunnel with
    protectedTunnel := request.protectedTunnel.getD false
    teardownPolicy := request.teardownPolicy.getD .ttlOnly }
  storeTunnel config.edgePublicIp tunnel
  let sshKey ← generateSshKeyPair
  storeSshSession tunnel.id user.id sshKey.publicKey sshKey.fingerprint tunnel.expiresAt
  let auth ← basicAuth request
  return ⟨tunnel.id, tunnel.fqdn, allocatedPort, cert.pem.certificatePem, cert.pem.privateKeyPem, sshKey,
    tunnel.expiresAt, auth⟩

def provision : Api CreateTunnelResponse := do
  let subdomain ← chooseSubdomain request
  let available ← isSubdomainAvailable subdomain
  rejectIf (!available) (alreadyInUse subdomain)
  let cert ← issueClientCertificate config.ca ("tunnel-client-" ++ user.id) user.id
  openTunnel config user request subdomain cert

def tooLong (ttlSeconds : ℕ) : ApiError :=
  .badRequest ("TTL " ++ Nat.repr ttlSeconds ++ " exceeds maximum allowed TTL of " ++ Nat.repr config.maxTunnelTtl
    ++ " seconds")

def quotaExceeded : ApiError :=
  .badRequest "Tunnel creation quota exceeded. Please upgrade your ServicePlan or wait until next billing period."

lemma createTunnel_eq : createTunnel config user request = (do
      rejectIf (request.ttl.getD config.defaultTunnelTtl > config.maxTunnelTtl)
        (tooLong config (request.ttl.getD config.defaultTunnelTtl))
      let canCreate ← checkQuota user.id
      rejectIf (!canCreate) quotaExceeded
      provision config user request) := rfl

end

section

variable (hP : ∀ c, plain c = true → P c) (hslot : ∀ fqdn v ttl, P (.redis (.setEx (.slot fqdn) v ttl)))

include hP hslot

section

variable (config : ApiConfig) (user : GitHubUser) (request : CreateTunnelRequest)

lemma only_openTunnel (subdomain : String)
    (cert : CertificateMetadata) : Only P (openTunnel config user request subdomain cert).run := by
  have hbare : ∀ c, bare c = true → P c := fun c hc => hP c (Bool.and_eq_true_iff.mp hc).1
  refine only_seq (only_ask (hP _ rfl)) fun now => ?_
  refine only_seq (only_mono hbare (bare_allocatePort _ _)) fun port => ?_
  refine only_seq (only_mono hbare (bare_newTunnel _ _ _ _ _ _ _ _)) fun tunnel => only_seq ?_ fun _ => ?_
  · refine only_seq (only_ask (hP _ rfl)) fun _ => only_seq (only_redis (hP _ rfl)) fun _ => ?_
    refine only_seq (only_redis (hP _ rfl)) fun _ => only_seq (only_redis (hP _ rfl)) fun _ => ?_
    refine only_seq (only_mono hbare (bare_claimSubdomain _ _)) fun _ => ?_
    exact only_seq (only_redis (hslot _ _ _)) fun _ => .ret
  · exact only_credentials (hP _ rfl) (hP _ rfl) (fun _ _ _ _ => hP _ rfl) (fun _ _ => hP _ rfl) request _ _ _ _

lemma only_provision : Only P (provision config user request).run := by
  have hbare : ∀ c, bare c = true → P c := fun c hc => hP c (Bool.and_eq_true_iff.mp hc).1
  refine only_seq (only_chooseSubdomain (fun _ _ => hP _ rfl) request) fun _ => ?_
  refine only_seq (only_isSubdomainAvailable (fun _ => hP _ rfl) _) fun _ => only_seq only_rejectIf fun _ => ?_
  refine only_seq (only_mono hbare (bare_issueClientCertificate _ _ _)) fun cert => ?_
  exact only_openTunnel hP hslot config user request _ cert

end

end

lemma only_createTunnel (hP : ∀ c, plain c = true → P c) (hquota : ∀ userId, P (.canCreateTunnel userId))
    (hslot : ∀ fqdn v ttl, P (.redis (.setEx (.slot fqdn) v ttl))) (config : ApiConfig) (user : GitHubUser)
    (request : CreateTunnelRequest) : Only P (createTunnel config user request).run := by
  refine only_seq only_rejectIf fun _ => only_seq (only_checkQuota (hquota _)) fun _ => ?_
  exact only_seq only_rejectIf fun _ => only_provision hP hslot config user request

end FleetingDns.CreateFlow
