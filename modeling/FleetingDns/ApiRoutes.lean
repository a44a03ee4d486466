import FleetingDns.CertificateAuthority
import FleetingDns.ServicePlans
import FleetingDns.UsageTracking
import FleetingDns.World

namespace FleetingDns.ApiServer

open CommandPrograms ExpiringStore TunnelStorage CreateFlow Plans

inductive ApiCmd where
  | quota (c : Quota.QuotaCmd)
  | ca (c : EdfCa.Cmd)
  | activeCount
  | totalIssued
  | db (c : DbCmd)

@[reducible] def ApiCmd.Reply : ApiCmd → Type
  | quota c => c.Reply
  | ca c => c.Reply
  | activeCount | totalIssued => ℕ
  | db c => c.Reply

abbrev Program := Prog ApiCmd ApiCmd.Reply

abbrev Handler := ExceptT ApiError Program

structure Deployment where
  config : Config
  ca : EdfCa.Config
  /-- The canonical text of the UUID, if the text is one. -/
  (parseUuid parseJson : String → Option String)
  rateLimitPolicy : String

def ofBase (c : FleetingDns.Cmd) : Program c.Reply := Prog.issue (R := ApiCmd.Reply) (.quota (.base c))

def ofQuota (c : Quota.QuotaCmd) : Program c.Reply := Prog.issue (R := ApiCmd.Reply) (.quota c)

def ofCa (c : EdfCa.Cmd) : Program c.Reply := Prog.issue (R := ApiCmd.Reply) (.ca c)

section

variable {α : Type}

def storage (x : Api α) : Handler α := ExceptT.mk (x.run.expand ofBase)

def metered (p : Quota.Program α) : Handler α := ExceptT.lift (p.expand ofQuota)

def caErrorText : EdfCa.CaError → String
  | .badRequest msg => "Invalid request: " ++ msg
  | .rateLimitExceeded msg => "Rate limit exceeded: " ++ msg
  | .validationError msg => "Validation error: " ++ msg
  | .certificateError msg => "Certificate authority error: " ++ msg
  | .deserializationError msg => "Deserialization error: " ++ msg
  | .notFound msg => "Resource not found: " ++ msg
  | .panicked msg => msg

def ofCaError : EdfCa.CaError → ApiError
  | .panicked msg => .panicked msg
  | e => .certificateError (caErrorText e)

def authority (x : EdfCa.Ca α) : Handler α := ExceptT.mk do
  match ← x.run.expand ofCa with
  | .ok a => return .ok a
  | .error e => return .error (ofCaError e)

def query (c : DbCmd) : Handler c.Rows := ExceptT.mk do
  match ← Prog.issue (R := ApiCmd.Reply) (.db c) with
  | .ok rows => return .ok rows
  | .error e => return .error (.databaseError e)

def ask (c : ApiCmd) : Handler c.Reply := ExceptT.lift (Prog.issue c)

def now : Handler ℕ := storage utcNow

def reject (p : Prop) [Decidable p] (e : ApiError) : Handler Unit := if p then throw e else pure ()

def orNotFound (msg : String) : Option α → Handler α
  | some a => pure a
  | none => throw (.notFound msg)

def orPanicked (msg : String) : Option α → Handler α
  | some a => pure a
  | none => throw (.panicked msg)

end

/-! ### Tunnels -/

structure TunnelView where
  (id fqdn : String)
  (localPort slot : ℕ)
  status : TunnelStatus
  (createdAt expiresAt remainingTtl : ℤ)
  deriving DecidableEq

def TunnelView.of (now : ℕ) (tunnel : Tunnel) : TunnelView :=
  ⟨tunnel.id, tunnel.fqdn, tunnel.localPort, tunnel.slot, tunnel.status, tunnel.createdAt, tunnel.expiresAt,
    numSeconds (tunnel.expiresAt - now)⟩

structure SessionGrantView where
  (token cookie fqdn : String)
  expiresAt : ℕ
  deriving DecidableEq

def SessionGrantView.of (grant : SessionGrantResponse) : SessionGrantView :=
  ⟨grant.token, "fdns_session=" ++ grant.token ++ "; Domain=" ++ grant.fqdn
    ++ "; Path=/; Secure; HttpOnly; SameSite=Lax; Max-Age=" ++ Nat.repr sessionGrantTtlSeconds,
    grant.fqdn, grant.expiresAt⟩

inductive TunnelHealthStatus where
  | healthy
  | degraded
  | unhealthy
  | unknown
  deriving DecidableEq

inductive ConnectionStatus where
  | connected
  | disconnected
  | connecting
  | failed
  deriving DecidableEq

structure HealthDetails where
  (sshConnected certificateValid dnsResolvable portForwardingActive : Bool)
  deriving DecidableEq

structure TunnelHealthInfo where
  status : TunnelHealthStatus
  connectionStatus : ConnectionStatus
  details : HealthDetails
  (lastCheck responseTimeMs : ℕ)
  deriving DecidableEq

structure TunnelHealthResult where
  tunnelId : String
  healthInfo : TunnelHealthInfo
  deriving DecidableEq

structure HealthError where
  (tunnelId error : String)
  deriving DecidableEq

structure BulkHealthResponse where
  healthResults : List TunnelHealthResult
  errors : List HealthError
  (totalTunnels successfulChecks failedChecks : ℕ)
  deriving DecidableEq

def issueClientCertificate (d : Deployment) (user : GitHubUser) : Handler EdfCa.EphemeralCertificate := do
  let requestId ← storage (ExceptT.lift (issue .newUuid))
  authority (EdfCa.issueClientCertificate d.ca ⟨requestId, "tunnel-client-" ++ user.id, none, user.id⟩)

def createTunnel (d : Deployment) (user : GitHubUser) (request : CreateTunnelRequest) :
    Handler CreateTunnelResponse := do
  let ttlSeconds := request.ttl.getD d.config.api.defaultTunnelTtl
  reject (ttlSeconds > d.config.api.maxTunnelTtl) (tooLong d.config.api ttlSeconds)
  let canCreate ← metered (Quota.canCreateTunnel user.id)
  reject (!canCreate) quotaExceeded
  let subdomain ← storage (chooseSubdomain request)
  let available ← storage (isSubdomainAvailable subdomain)
  reject (!available) (alreadyInUse subdomain)
  let cert ← issueClientCertificate d user
  storage (openTunnel d.config.api user request subdomain ⟨cert.metadata.serialNumber, cert.metadata.expiresAt,
    ⟨cert.certificatePem, cert.privateKeyPem, cert.metadata.serialNumber⟩⟩)

def parseTunnelId (d : Deployment) (tunnelId : String) : Handler String :=
  match d.parseUuid tunnelId with
  | some uuid => pure uuid
  | none => throw (.badRequest "Invalid tunnel ID format")

section

variable (d : Deployment) (user : GitHubUser) (tunnelId : String)

def getTunnel : Handler TunnelView := do
  let uuid ← parseTunnelId d tunnelId
  let tunnel ← storage (ownedTunnel user uuid)
  let now ← now
  return .of now tunnel

def createTunnelSession : Handler SessionGrantView := do
  let uuid ← parseTunnelId d tunnelId
  let grant ← storage (FleetingDns.createTunnelSession user uuid)
  return .of grant

def deleteTunnel : Handler (Bool × String) := do
  let uuid ← parseTunnelId d tunnelId
  let deleted ← storage (FleetingDns.deleteTunnel user uuid)
  return (deleted, if deleted then "Tunnel deleted successfully" else "Tunnel not found")

def listTunnels : Handler (List TunnelView) := do
  let tunnels ← storage (listUserTunnels d.parseUuid user.id)
  let now ← now
  return tunnels.map (.of now)

def certificateValid (serial : String) : Handler Bool :=
  if serial.isEmpty then pure false
  else ExceptT.lift ((EdfCa.validateCertificate d.ca serial).expand ofCa)

def sshConnected : Handler Bool := do
  match ← ExceptT.lift (storage (isTunnelLive tunnelId)).run with
  | .ok live => return live
  | .error _ => return false

def performTunnelHealthChecks (tunnel : Tunnel) : Handler TunnelHealthInfo := do
  let lastCheck ← now
  let checkedAt ← now
  if (checkedAt : ℤ) > tunnel.expiresAt then
    return ⟨.unhealthy, .disconnected, ⟨false, false, false, false⟩, lastCheck, 0⟩
  else
    let certificateValid ← certificateValid d tunnel.certificateSerial
    let sshConnected ← sshConnected tunnel.id
    let portForwardingActive := sshConnected && tunnel.slot != 0
    let dnsResolvable := sshConnected && !tunnel.fqdn.isEmpty
    let healthStatus : TunnelHealthStatus :=
      if !sshConnected then .unhealthy else if !certificateValid then .degraded else .healthy
    let connectionStatus : ConnectionStatus :=
      if !sshConnected then .disconnected
      else if tunnel.status = .creating then .connecting
      else if tunnel.status = .error then .failed
      else .connected
    return ⟨healthStatus, connectionStatus, ⟨sshConnected, certificateValid, dnsResolvable, portForwardingActive⟩,
      lastCheck, 50⟩

def getTunnelHealth : Handler TunnelHealthInfo := do
  let uuid ← parseTunnelId d tunnelId
  match ← storage (TunnelStorage.getTunnel uuid) with
  | none => throw (.notFound "Tunnel not found")
  | some tunnel =>
    if tunnel.githubUserId ≠ user.id then throw (.forbidden "Access denied to tunnel")
    else performTunnelHealthChecks d tunnel

def errorText : ApiError → String
  | .certificateError msg => "Certificate error: " ++ msg
  | .storageError msg => "Storage error: " ++ msg
  | .badRequest msg => "Invalid request: " ++ msg
  | .internalError msg => "Internal server error: " ++ msg
  | .forbidden msg => "Forbidden: " ++ msg
  | .notFound msg => "Not found: " ++ msg
  | .databaseError msg => "Database error: " ++ msg
  | .validationError msg => "Validation error: " ++ msg
  | .panicked msg => msg

/-- The outcome for one tunnel of a bulk request. -/
def bulkHealthOf : Program (Except HealthError TunnelHealthResult) := do
  match d.parseUuid tunnelId with
  | none => return .error ⟨tunnelId, "Invalid tunnel ID format: " ++ tunnelId⟩
  | some uuid =>
    match ← (storage (TunnelStorage.getTunnel uuid)).run with
    | .ok (some tunnel) =>
      if tunnel.githubUserId ≠ user.id then return .error ⟨tunnelId, "Access denied to tunnel"⟩
      else
        match ← (performTunnelHealthChecks d tunnel).run with
        | .ok healthInfo => return .ok ⟨tunnelId, healthInfo⟩
        | .error e => return .error ⟨tunnelId, errorText e⟩
    | .ok none => return .error ⟨tunnelId, "Tunnel not found"⟩
    | .error _ => return .error ⟨tunnelId, "Failed to retrieve tunnel"⟩

end

def bulkHealth (d : Deployment) (user : GitHubUser) (healthResults : List TunnelHealthResult)
    (errors : List HealthError) : List String → Program (List TunnelHealthResult × List HealthError)
  | [] => return (healthResults, errors)
  | tunnelId :: tunnelIds => do
    match ← bulkHealthOf d user tunnelId with
    | .ok result => bulkHealth d user (healthResults ++ [result]) errors tunnelIds
    | .error e => bulkHealth d user healthResults (errors ++ [e]) tunnelIds

def getBulkTunnelHealth (d : Deployment) (user : GitHubUser) (tunnelIds : List String) : Handler BulkHealthResponse := do
  reject tunnelIds.isEmpty (.badRequest "No tunnel IDs provided")
  reject (tunnelIds.length > 100) (.badRequest "Maximum 100 tunnels per request")
  let (healthResults, errors) ← ExceptT.lift (bulkHealth d user [] [] tunnelIds)
  return ⟨healthResults, errors, tunnelIds.length, healthResults.length, errors.length⟩

/-! ### Certificates and statistics -/

structure IssueCertificateResponse where
  (serial certificate fingerprint : String)
  expiresAt : ℤ
  deriving DecidableEq

structure CertificateInfoResponse where
  (serial subject fingerprint : String)
  (issuedAt expiresAt : ℤ)
  status : String
  deriving DecidableEq

def issueCertificate (d : Deployment) (user : GitHubUser) (commonName : String) (ttl : Option ℕ) :
    Handler IssueCertificateResponse := do
  let ttlSeconds := ttl.getD d.config.api.defaultTunnelTtl
  reject (ttlSeconds > d.config.api.maxTunnelTtl) (.badRequest ("Certificate TTL " ++ Nat.repr ttlSeconds
    ++ " exceeds maximum allowed TTL of " ++ Nat.repr d.config.api.maxTunnelTtl ++ " seconds"))
  let requestId ← storage (ExceptT.lift (issue .newUuid))
  let ttl ← orPanicked "TimeDelta::seconds out of bounds" (durationSeconds (asI64 ttlSeconds))
  let response ← authority (EdfCa.issueCertificate d.ca ⟨requestId, commonName, some ttl, user.id⟩)
  return ⟨response.metadata.serialNumber, response.certificatePem, response.metadata.fingerprint,
    response.metadata.expiresAt⟩

def getCertificate (d : Deployment) (serial : String) : Handler CertificateInfoResponse := do
  let certInfo ← authority (EdfCa.getCertificateInfo d.ca serial)
  let now ← now
  return ⟨certInfo.metadata.serialNumber, certInfo.metadata.subject, certInfo.metadata.fingerprint,
    certInfo.metadata.issuedAt, certInfo.metadata.expiresAt,
    if certInfo.metadata.expiresAt < now then "expired" else "active"⟩

structure CaStats where
  (certificatesIssued activeCertificates expiredCertificates issuanceRate : ℕ)
  deriving DecidableEq

structure ApiStats where
  (activeTunnels tunnelsCreatedToday bytesTransferredToday : ℕ)
  caStats : CaStats
  uptimeSeconds : ℕ
  deriving DecidableEq

structure SystemInfo where
  (serviceName version rustVersion buildTimestamp : String)
  deriving DecidableEq

structure StatsResponse where
  apiStats : ApiStats
  systemInfo : SystemInfo
  deriving DecidableEq

def systemInfo : SystemInfo := ⟨"fleetingdns-api", "0.1.0", "1.75.0", "2025-01-15T12:00:00Z"⟩

def getStats : Handler StatsResponse := do
  let activeTunnels ← storage getActiveTunnelCount
  let activeCertificates ← ask .activeCount
  let totalIssued ← ask .totalIssued
  return ⟨⟨activeTunnels, 0, 0, ⟨totalIssued, activeCertificates, 0, 0⟩, 0⟩, systemInfo⟩

/-! ### Service plans -/

structure CreateServicePlanRequest where
  name : String
  (apiRateLimit tunnelCreationLimit dnsProvisioningLimit maxConcurrentTunnels : ℕ)
  featuresJson : Option String

structure AssignServicePlanRequest where
  servicePlanId : String
  endDate : Option ℤ

structure ServicePlanResponse where
  (id name : String)
  (apiRateLimit tunnelCreationLimit dnsProvisioningLimit maxConcurrentTunnels : ℕ)
  featuresJson : String
  createdAt : ℕ
  deriving DecidableEq

def ServicePlanResponse.of (plan : ServicePlan) : ServicePlanResponse :=
  ⟨plan.id, plan.name, asU32 plan.apiRateLimit, asU32 plan.tunnelCreationLimit, asU32 plan.dnsProvisioningLimit,
    asU32 plan.maxConcurrentTunnels, plan.featuresJson.getD "\x7b\x7d", plan.createdAt⟩

structure UserServicePlanResponse where
  (id userId servicePlanId : String)
  startDate : ℕ
  endDate : Option ℤ
  isActive : Bool
  deriving DecidableEq

def UserServicePlanResponse.of (a : UserServicePlan) : UserServicePlanResponse :=
  ⟨a.id, a.userId, a.servicePlanId, a.startDate, a.endDate, a.isActive⟩

def planExists (name : String) : ApiError := .validationError ("ServicePlan with name '" ++ name ++ "' already exists")

def planMissing (id : String) : String := "ServicePlan with id '" ++ id ++ "' not found"

def createServicePlan (request : CreateServicePlanRequest) : Handler ServicePlanResponse := do
  let existing ← query (.findPlanByName request.name)
  reject existing.isSome (planExists request.name)
  let planId ← storage (ExceptT.lift (issue .newUuid))
  let now ← now
  let inserted ← query (.insertPlan ⟨planId, request.name, asI32 request.apiRateLimit, asI32 request.tunnelCreationLimit,
    asI32 request.dnsProvisioningLimit, asI32 request.maxConcurrentTunnels, request.featuresJson, now⟩)
  return .of inserted

def listServicePlans : Handler (List ServicePlanResponse) := do
  let plans ← query .allPlans
  return plans.map .of

def getServicePlan (planId : String) : Handler ServicePlanResponse := do
  let found ← query (.findPlan planId)
  let plan ← orNotFound (planMissing planId) found
  return .of plan

def updateServicePlan (planId : String) (request : UpdateServicePlanRequest) : Handler ServicePlanResponse := do
  let found ← query (.findPlan planId)
  let existing ← orNotFound (planMissing planId) found
  match request.name with
  | some newName =>
    if newName ≠ existing.name then
      let duplicate ← query (.findOtherPlanByName newName planId)
      reject duplicate.isSome (planExists newName)
      let updated ← query (.updatePlan planId request)
      return .of updated
    else
      let updated ← query (.updatePlan planId request)
      return .of updated
  | none =>
    let updated ← query (.updatePlan planId request)
    return .of updated

def deleteServicePlan (planId : String) : Handler Unit := do
  let found ← query (.findPlan planId)
  let _ ← orNotFound (planMissing planId) found
  let activeAssignments ← query (.countActive planId)
  reject (activeAssignments > 0) (.validationError "Cannot delete ServicePlan with active user assignments")
  query (.deletePlan planId)

def deactivateAll : List UserServicePlan → Handler Unit
  | [] => pure ()
  | a :: as => do
    query (.deactivate a.id)
    deactivateAll as

def assignServicePlanToUser (userId : String) (request : AssignServicePlanRequest) :
    Handler UserServicePlanResponse := do
  let found ← query (.findPlan request.servicePlanId)
  let _ ← orNotFound (planMissing request.servicePlanId) found
  let existing ← query (.activeAssignments userId)
  deactivateAll existing
  let id ← storage (ExceptT.lift (issue .newUuid))
  let startDate ← now
  let createdAt ← now
  let inserted ← query (.insertAssignment
    ⟨id, userId, request.servicePlanId, startDate, request.endDate, true, createdAt⟩)
  return .of inserted

structure Quotas where
  (apiRateLimit tunnelCreationLimit dnsProvisioningLimit maxConcurrentTunnels : ℤ)
  deriving DecidableEq

def Quotas.of (plan : ServicePlan) : Quotas :=
  ⟨plan.apiRateLimit, plan.tunnelCreationLimit, plan.dnsProvisioningLimit, plan.maxConcurrentTunnels⟩

def planDescription (plan : ServicePlan) : String :=
  "Service plan with " ++ Int.repr plan.apiRateLimit ++ " API calls per hour"

def planFeatures (d : Deployment) (plan : ServicePlan) : Handler String :=
  match d.parseJson (plan.featuresJson.getD "\x7b\x7d") with
  | some features => pure features
  | none => throw (.internalError "Invalid features JSON")

structure MyServicePlanResponse where
  (servicePlanId name description features : String)
  quotas : Quotas
  (pricing assignmentDate : ℕ)
  endDate : Option ℤ
  isActive : Bool
  deriving DecidableEq

structure ServicePlanUsage where
  (tunnelsCreated tunnelsActive dnsQueries dataTransferredMb certificatesIssued : ℕ)
  quotaLimits : Quotas
  deriving DecidableEq

structure ServicePlanUsageResponse where
  (servicePlanId servicePlanName : String)
  usage : ServicePlanUsage
  lastUpdated : ℕ
  deriving DecidableEq

structure AvailableServicePlanResponse where
  (id name description features : String)
  quotas : Quotas
  pricing : ℕ
  (isCurrentPlan canUpgrade canDowngrade : Bool)
  deriving DecidableEq

structure ServicePlanChangeResponse where
  (message requestId status estimatedProcessingTime : String)
  deriving DecidableEq

def currentPlan (userId : String) : Handler (UserServicePlan × ServicePlan) := do
  let assigned ← query (.activeAssignment userId)
  let userServicePlan ← orNotFound "No active ServicePlan found" assigned
  let found ← query (.findPlan userServicePlan.servicePlanId)
  let servicePlan ← orNotFound "ServicePlan not found" found
  return (userServicePlan, servicePlan)

def getMyServicePlan (d : Deployment) (user : GitHubUser) : Handler MyServicePlanResponse := do
  let (userServicePlan, servicePlan) ← currentPlan user.id
  let features ← planFeatures d servicePlan
  return ⟨servicePlan.id, servicePlan.name, planDescription servicePlan, features, .of servicePlan, 0,
    userServicePlan.startDate, userServicePlan.endDate, userServicePlan.isActive⟩

def getMyServicePlanUsage (user : GitHubUser) : Handler ServicePlanUsageResponse := do
  let (_, servicePlan) ← currentPlan user.id
  let now ← now
  return ⟨servicePlan.id, servicePlan.name, ⟨0, 0, 0, 0, 0, .of servicePlan⟩, now⟩

def availablePlans (d : Deployment) (current : Option UserServicePlan) :
    List ServicePlan → Handler (List AvailableServicePlanResponse)
  | [] => pure []
  | plan :: plans => do
    let features ← planFeatures d plan
    let isCurrentPlan := current.any (·.servicePlanId = plan.id)
    let rest ← availablePlans d current plans
    return ⟨plan.id, plan.name, planDescription plan, features, .of plan, 0, isCurrentPlan, !isCurrentPlan,
      !isCurrentPlan⟩ :: rest

def getAvailableServicePlans (d : Deployment) (user : GitHubUser) : Handler (List AvailableServicePlanResponse) := do
  let current ← query (.activeAssignment user.id)
  let plans ← query .allPlans
  availablePlans d current plans

def requestServicePlanChange (user : GitHubUser) (servicePlanId : String) : Handler ServicePlanChangeResponse := do
  let target ← query (.findPlan servicePlanId)
  let _ ← orNotFound "Target ServicePlan not found" target
  let current ← query (.activeAssignmentTo user.id servicePlanId)
  reject current.isSome (.validationError "User already has this ServicePlan")
  let requestId ← storage (ExceptT.lift (issue .newUuid))
  return ⟨"ServicePlan change request received. An admin will review and process your request.", requestId, "pending",
    "24-48 hours"⟩

/-! ### Quotas -/

structure QuotaInfoResponse where
  usage : Quota.UserUsage
  limits : Quota.QuotaLimits
  warnings : List String
  (periodStart periodEnd : ℕ)

def quotaTypes : List Quota.QuotaType :=
  [.apiCalls, .tunnelCreation, .dnsProvisioning, .concurrentTunnels, .dataTransfer, .certificateIssuance]

def quotaWarnings (info : Quota.QuotaInfo) : List Quota.QuotaType :=
  quotaTypes.filter fun q => info.limits.of q ≠ 0 && 80 * info.limits.of q ≤ 100 * info.usage.current q

def getQuotaInfo (user : GitHubUser) : Handler QuotaInfoResponse := do
  let info ← metered (Quota.getQuotaInfo user.id)
  return ⟨info.usage, info.limits, (quotaWarnings info).map Quota.QuotaType.debug, info.usage.periodStart,
    info.usage.periodStart + 30 * 86400 * second⟩

def checkOperationAllowed (user : GitHubUser) (operationType : String) : Handler Quota.OperationCheckResponse := do
  match ← metered (Quota.checkOperationAllowed user.id operationType) with
  | .ok response => return response
  | .error e => throw e

def resetUserUsage (userId : String) : Handler Quota.ResetUsageResponse := metered (Quota.resetUserUsage userId)

/-! ### The router -/

inductive Route where
  | createTunnel (request : CreateTunnelRequest)
  | getTunnel (tunnelId : String)
  | deleteTunnel (tunnelId : String)
  | listTunnels
  | createTunnelSession (tunnelId : String)
  | getTunnelHealth (tunnelId : String)
  | getBulkTunnelHealth (tunnelIds : List String)
  | issueCertificate (commonName : String) (ttl : Option ℕ)
  | getCertificate (serial : String)
  | getStats
  | getRateLimitPolicy
  | updateRateLimitPolicy (newConfig : String)
  | createServicePlan (request : CreateServicePlanRequest)
  | listServicePlans
  | getServicePlan (planId : String)
  | updateServicePlan (planId : String) (request : UpdateServicePlanRequest)
  | deleteServicePlan (planId : String)
  | assignServicePlanToUser (userId : String) (request : AssignServicePlanRequest)
  | getMyServicePlan
  | getMyServicePlanUsage
  | getAvailableServicePlans
  | requestServicePlanChange (servicePlanId : String)
  | getQuotaInfo
  | checkOperationAllowed (operationType : String)
  | resetUserUsage (userId : String)
  | getAllUsersQuotaStatus

structure Request where
  user : GitHubUser
  route : Route

inductive Body where
  | created (r : CreateTunnelResponse)
  | tunnel (r : TunnelView)
  | deleted (deleted : Bool) (message : String)
  | tunnels (r : List TunnelView)
  | granted (r : SessionGrantView)
  | health (r : TunnelHealthInfo)
  | bulkHealth (r : BulkHealthResponse)
  | certificateIssued (r : IssueCertificateResponse)
  | certificate (r : CertificateInfoResponse)
  | stats (r : StatsResponse)
  | rateLimitPolicy (config : String)
  | plan (r : ServicePlanResponse)
  | plans (r : List ServicePlanResponse)
  | noContent
  | assigned (r : UserServicePlanResponse)
  | myPlan (r : MyServicePlanResponse)
  | myPlanUsage (r : ServicePlanUsageResponse)
  | availablePlans (r : List AvailableServicePlanResponse)
  | changeRequested (r : ServicePlanChangeResponse)
  | quotaInfo (r : QuotaInfoResponse)
  | operationChecked (r : Quota.OperationCheckResponse)
  | usageReset (r : Quota.ResetUsageResponse)
  | noUsers

abbrev Response := Except ApiError Body

def Route.handle (d : Deployment) (user : GitHubUser) : Route → Handler Body
  | createTunnel request => .created <$> ApiServer.createTunnel d user request
  | getTunnel tunnelId => .tunnel <$> ApiServer.getTunnel d user tunnelId
  | deleteTunnel tunnelId => (fun r => .deleted r.1 r.2) <$> ApiServer.deleteTunnel d user tunnelId
  | listTunnels => .tunnels <$> ApiServer.listTunnels d user
  | createTunnelSession tunnelId => .granted <$> ApiServer.createTunnelSession d user tunnelId
  | getTunnelHealth tunnelId => .health <$> ApiServer.getTunnelHealth d user tunnelId
  | getBulkTunnelHealth tunnelIds => .bulkHealth <$> ApiServer.getBulkTunnelHealth d user tunnelIds
  | issueCertificate commonName ttl => .certificateIssued <$> ApiServer.issueCertificate d user commonName ttl
  | getCertificate serial => .certificate <$> ApiServer.getCertificate d serial
  | getStats => .stats <$> ApiServer.getStats
  | getRateLimitPolicy => pure (.rateLimitPolicy d.rateLimitPolicy)
  | updateRateLimitPolicy newConfig => pure (.rateLimitPolicy newConfig)
  | createServicePlan request => .plan <$> ApiServer.createServicePlan request
  | listServicePlans => .plans <$> ApiServer.listServicePlans
  | getServicePlan planId => .plan <$> ApiServer.getServicePlan planId
  | updateServicePlan planId request => .plan <$> ApiServer.updateServicePlan planId request
  | deleteServicePlan planId => (fun _ => .noContent) <$> ApiServer.deleteServicePlan planId
  | assignServicePlanToUser userId request => .assigned <$> ApiServer.assignServicePlanToUser userId request
  | getMyServicePlan => .myPlan <$> ApiServer.getMyServicePlan d user
  | getMyServicePlanUsage => .myPlanUsage <$> ApiServer.getMyServicePlanUsage user
  | getAvailableServicePlans => .availablePlans <$> ApiServer.getAvailableServicePlans d user
  | requestServicePlanChange servicePlanId => .changeRequested <$> ApiServer.requestServicePlanChange user servicePlanId
  | getQuotaInfo => .quotaInfo <$> ApiServer.getQuotaInfo user
  | checkOperationAllowed operationType => .operationChecked <$> ApiServer.checkOperationAllowed user operationType
  | resetUserUsage userId => .usageReset <$> ApiServer.resetUserUsage userId
  | getAllUsersQuotaStatus => pure .noUsers

def Request.program (d : Deployment) (request : Request) : Program (Option Response) := do
  return some (← (request.route.handle d request.user).run)

end FleetingDns.ApiServer
