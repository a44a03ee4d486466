import FleetingDns.TunnelStorage

namespace FleetingDns

open CommandPrograms ExpiringStore TunnelStorage

structure CaConfig where
  (defaultTtl maxTtl : ℤ)
  certsPerHourPerClient : ℕ

structure ApiConfig where
  (defaultTunnelTtl maxTunnelTtl : ℕ)
  ca : CaConfig
  edgePublicIp : String

structure ApiCredentials where
  (githubClientId githubClientSecret jwtSecret : String)

def ApiConfig.validate (config : ApiConfig) (credentials : ApiCredentials) : Except String Unit :=
  if credentials.githubClientId = "your-github-client-id" then
    throw "GitHub client ID not configured"
  else if credentials.githubClientSecret = "your-github-client-secret" then
    throw "GitHub client secret not configured"
  else if credentials.jwtSecret = "your-jwt-secret-key" then
    throw "JWT secret not configured"
  else if config.defaultTunnelTtl > config.maxTunnelTtl then
    throw "Default TTL cannot be greater than max TTL"
  else
    return

structure CreateTunnelRequest where
  port : ℕ
  ttl : Option ℕ
  customSubdomain : Option String
  (auth protectedTunnel : Option Bool)
  teardownPolicy : Option TeardownPolicy

structure CertificateMetadata where
  serialNumber : String
  expiresAt : ℤ
  pem : CertificatePem

structure CreateTunnelResponse where
  (id fqdn : String)
  slot : ℕ
  (tlsCert privateKey : String)
  sshKey : SshKeyPair
  expiresAt : ℤ
  auth : Option (String × String)

structure SessionGrantResponse where
  (token fqdn : String)
  expiresAt : ℕ

def validateSubdomain (subdomain : String) : Except ApiError Unit :=
  if subdomain.isEmpty ∨ subdomain.utf8ByteSize > 63 then
    throw (.badRequest "Subdomain must be 1-63 characters")
  else if ¬ subdomain.toList.all (fun c => c.isAlphanum || c == '-') then
    throw (.badRequest "Subdomain can only contain alphanumeric characters and hyphens")
  else if subdomain.toList.head? = some '-' ∨ subdomain.toList.getLast? = some '-' then
    throw (.badRequest "Subdomain cannot start or end with hyphen")
  else
    return

def base36 (idx : Fin 36) : Char :=
  if idx.val < 10 then Char.ofNat ('0'.toNat + idx.val) else Char.ofNat ('a'.toNat + idx.val - 10)

def charset : List Char := "abcdefghijklmnopqrstuvwxyzABCDEFGHIJKLMNOPQRSTUVWXYZ0123456789".toList

def generateRandomSubdomain : Api String := do
  let chars ← ExceptT.lift (issue (.genIndices 20 36))
  return "tunnel-" ++ String.ofList (List.ofFn fun i => base36 (chars i))

def generateRandomString (length : ℕ) : Api String := do
  let chars ← ExceptT.lift (issue (.genIndices length 62))
  return String.ofList (List.ofFn fun i => charset.getD (chars i).val 'a')

def registerCertificate (metadata : CertificateMetadata) : Program Unit := do
  let now ← issue .utcNow
  let ttl := numSeconds (metadata.expiresAt - now)
  if ttl > 0 then
    -- a failed write is logged and ignored
    let _ ← issue (.redis (.setEx (.cert metadata.serialNumber) (.text metadata.pem.certificatePem) (asU64 ttl)))
    return
  else
    return

def issueClientCertificate (config : CaConfig) (commonName clientId : String) : Api CertificateMetadata := do
  rejectIf commonName.isEmpty (.certificateError "Invalid request: Common name cannot be empty")
  rejectIf clientId.isEmpty (.certificateError "Invalid request: Client ID cannot be empty")
  let limited ← ExceptT.lift (issue (.rateLimited clientId))
  rejectIf limited (.certificateError ("Rate limit exceeded: Rate limit exceeded for client " ++ clientId ++ ": "
    ++ Nat.repr config.certsPerHourPerClient ++ " certificates per hour"))
  rejectIf (config.defaultTtl > config.maxTtl) (.certificateError ("Validation error: TTL validation error: requested "
    ++ Int.repr (numMinutes config.defaultTtl) ++ " minutes, max allowed "
    ++ Int.repr (numMinutes config.maxTtl) ++ " minutes"))
  match ← ExceptT.lift (issue (.generateCertificate commonName)) with
  | .error e => throw (.certificateError ("Certificate authority error: Certificate generation failed: " ++ e))
  | .ok pem =>
    let now ← utcNow
    let expiresAt ← orPanic "DateTime + TimeDelta overflowed" (addUtc now config.defaultTtl)
    let metadata : CertificateMetadata := ⟨pem.serialNumber, expiresAt, pem⟩
    ExceptT.lift (registerCertificate metadata)
    ExceptT.lift (issue (.recordIssuance clientId))
    return metadata

def generateSshKeyPair : Api SshKeyPair := do
  match ← ExceptT.lift (issue .generateEd25519Keypair) with
  | .ok kp => return kp
  | .error e => throw (.internalError ("SSH key generation failed: " ++ e))

def checkQuota (userId : String) : Api Bool := do
  match ← ExceptT.lift (issue (.canCreateTunnel userId)) with
  | .ok allowed => return allowed
  | .error e => throw e

def chooseSubdomain (request : CreateTunnelRequest) : Api String := do
  match request.customSubdomain with
  | some custom =>
    match validateSubdomain custom with
    | .ok () => return custom
    | .error e => throw e
  | none => generateRandomSubdomain

def basicAuth (request : CreateTunnelRequest) : Api (Option (String × String)) := do
  if request.auth.getD false then
    let username ← generateRandomString 8
    let password ← generateRandomString 12
    return some (username, password)
  else
    return none

def Tunnel.new (githubUserId githubUsername subdomain baseDomain : String) (localPort slot : ℕ)
    (certificateSerial : String) (ttlSeconds : ℕ) : Api Tunnel := do
  let now ← utcNow
  let ttl ← orPanic "TimeDelta::seconds out of bounds" (durationSeconds (asI64 ttlSeconds))
  let expiresAt ← orPanic "DateTime + TimeDelta overflowed" (addUtc now ttl)
  let id ← ExceptT.lift (issue .newUuid)
  return ⟨id, githubUserId, githubUsername, subdomain, subdomain ++ "." ++ baseDomain, localPort, slot,
    certificateSerial, now, expiresAt, .creating, false, .ttlOnly⟩

def createTunnel (config : ApiConfig) (user : GitHubUser) (request : CreateTunnelRequest) :
    Api CreateTunnelResponse := do
  let ttlSeconds := request.ttl.getD config.defaultTunnelTtl
  rejectIf (ttlSeconds > config.maxTunnelTtl) (.badRequest ("TTL " ++ Nat.repr ttlSeconds
    ++ " exceeds maximum allowed TTL of " ++ Nat.repr config.maxTunnelTtl ++ " seconds"))
  let canCreate ← checkQuota user.id
  rejectIf (!canCreate)
    (.badRequest "Tunnel creation quota exceeded. Please upgrade your ServicePlan or wait until next billing period.")
  let subdomain ← chooseSubdomain request
  let available ← isSubdomainAvailable subdomain
  rejectIf (!available) (alreadyInUse subdomain)
  let cert ← issueClientCertificate config.ca ("tunnel-client-" ++ user.id) user.id
  let now ← utcNow
  let certificateTtl := asU64 (numSeconds (cert.expiresAt - now))
  let allocatedPort ← allocatePort user.id certificateTtl
  let tunnel ← Tunnel.new user.id user.login subdomain "fleetingdns.run" request.port allocatedPort
    cert.serialNumber (request.ttl.getD 3600)
  let tunnel := { tunnel with
    protectedTunnel := request.protectedTunnel.getD false
    teardownPolicy := request.teardownPolicy.getD .ttlOnly }
  storeTunnel config.edgePublicIp tunnel
  let sshKey ← generateSshKeyPair
  storeSshSession tunnel.id user.id sshKey.publicKey sshKey.fingerprint tunnel.expiresAt
  let auth ← basicAuth request
  return ⟨tunnel.id, tunnel.fqdn, allocatedPort, cert.pem.certificatePem, cert.pem.privateKeyPem, sshKey,
    tunnel.expiresAt, auth⟩

def sessionGrantTtlSeconds : ℕ := 900

section

variable (user : GitHubUser) (tunnelId : String)

def ownedTunnel : Api Tunnel := do
  match ← getTunnel tunnelId with
  | none => throw (.notFound "Tunnel not found")
  | some tunnel => if tunnel.githubUserId = user.id then return tunnel else throw (.forbidden "Access denied")

def createTunnelSession : Api SessionGrantResponse := do
  let tunnel ← ownedTunnel user tunnelId
  let grantToken ← generateRandomString 32
  storeSessionGrant tunnel.subdomain grantToken user.id sessionGrantTtlSeconds
  let now ← utcNow
  return ⟨grantToken, tunnel.fqdn, now + sessionGrantTtlSeconds * second⟩

def deleteTunnel : Api Bool := do
  let _ ← ownedTunnel user tunnelId
  TunnelStorage.deleteTunnel tunnelId

end

end FleetingDns
