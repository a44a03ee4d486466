import FleetingDns.CreateFlow

namespace FleetingDns.Quota

open CommandPrograms CreateFlow

inductive QuotaType where
  | apiCalls
  | tunnelCreation
  | dnsProvisioning
  | concurrentTunnels
  | dataTransfer
  | certificateIssuance
  deriving DecidableEq

def QuotaType.debug : QuotaType → String
  | apiCalls => "ApiCalls"
  | tunnelCreation => "TunnelCreation"
  | dnsProvisioning => "DnsProvisioning"
  | concurrentTunnels => "ConcurrentTunnels"
  | dataTransfer => "DataTransfer"
  | certificateIssuance => "CertificateIssuance"

structure UserUsage where
  (userId servicePlanId : String)
  (apiCallsCount tunnelsCreatedCount dnsOperationsCount activeTunnelsCount dataTransferredMb certificatesIssuedCount : ℤ)
  (lastUpdated periodStart : ℕ)

structure QuotaLimits where
  (apiRateLimit tunnelCreationLimit dnsProvisioningLimit maxConcurrentTunnels : ℤ)
  (dataTransferLimitMb certificateIssuanceLimit : Option ℤ)

structure QuotaEnforcementResult where
  allowed : Bool
  remainingQuota : Option ℤ
  quotaExceeded : Option QuotaType
  message : String

structure QuotaInfo where
  usage : UserUsage
  limits : QuotaLimits

namespace UserUsage

def placeholder (userId : String) (lastUpdated periodStart : ℕ) : UserUsage :=
  ⟨userId, "default", 0, 0, 0, 0, 0, 0, lastUpdated, periodStart⟩

def current (usage : UserUsage) : QuotaType → ℤ
  | .apiCalls => usage.apiCallsCount
  | .tunnelCreation => usage.tunnelsCreatedCount
  | .dnsProvisioning => usage.dnsOperationsCount
  | .concurrentTunnels => usage.activeTunnelsCount
  | .dataTransfer => usage.dataTransferredMb
  | .certificateIssuance => usage.certificatesIssuedCount

def add (usage : UserUsage) (amount : ℤ) : QuotaType → UserUsage
  | .apiCalls => { usage with apiCallsCount := usage.apiCallsCount + amount }
  | .tunnelCreation => { usage with tunnelsCreatedCount := usage.tunnelsCreatedCount + amount }
  | .dnsProvisioning => { usage with dnsOperationsCount := usage.dnsOperationsCount + amount }
  | .concurrentTunnels => { usage with activeTunnelsCount := usage.activeTunnelsCount + amount }
  | .dataTransfer => { usage with dataTransferredMb := usage.dataTransferredMb + amount }
  | .certificateIssuance => { usage with certificatesIssuedCount := usage.certificatesIssuedCount + amount }

def reset (usage : UserUsage) (now : ℕ) : UserUsage :=
  { usage with
    apiCallsCount := 0
    tunnelsCreatedCount := 0
    dnsOperationsCount := 0
    activeTunnelsCount := 0
    dataTransferredMb := 0
    certificatesIssuedCount := 0
    periodStart := now
    lastUpdated := now }

end UserUsage

def QuotaLimits.of (limits : QuotaLimits) : QuotaType → ℤ
  | .apiCalls => limits.apiRateLimit
  | .tunnelCreation => limits.tunnelCreationLimit
  | .dnsProvisioning => limits.dnsProvisioningLimit
  | .concurrentTunnels => limits.maxConcurrentTunnels
  | .dataTransfer => limits.dataTransferLimitMb.getD 1024
  | .certificateIssuance => limits.certificateIssuanceLimit.getD 100

def quotaLimits : QuotaLimits := ⟨1000, 100, 100, 10, some 1024, some 100⟩

inductive QuotaCmd where
  | base (c : FleetingDns.Cmd)
  | readUsage (userId : String)
  | cacheUsage (userId : String) (usage : UserUsage)
  | storeUsage (userId : String) (usage : UserUsage)
  | resetUsage (userId : String)

@[reducible] def QuotaCmd.Reply : QuotaCmd → Type
  | base c => c.Reply
  | readUsage _ => Option UserUsage
  | cacheUsage _ _ | storeUsage _ _ | resetUsage _ => Unit

abbrev Program := Prog QuotaCmd QuotaCmd.Reply

def issue (c : QuotaCmd) : Program c.Reply := Prog.issue c

namespace UsageTracker

def getUserUsage (userId : String) : Program UserUsage := do
  match ← issue (.readUsage userId) with
  | some usage => return usage
  | none =>
    let lastUpdated ← issue (.base .utcNow)
    let periodStart ← issue (.base .utcNow)
    let usage := UserUsage.placeholder userId lastUpdated periodStart
    issue (.cacheUsage userId usage)
    return usage

def enforce (usage : UserUsage) (quotaType : QuotaType) (amount : ℤ) : QuotaEnforcementResult :=
  let currentUsage := usage.current quotaType
  let limit := quotaLimits.of quotaType
  let newUsage := currentUsage + amount
  if newUsage ≤ limit then
    ⟨true, some (limit - newUsage), none, "Operation allowed. Remaining quota: " ++ Int.repr (limit - newUsage)⟩
  else
    ⟨false, none, some quotaType, "Quota exceeded for " ++ quotaType.debug ++ ". Limit: " ++ Int.repr limit
      ++ ", Current: " ++ Int.repr currentUsage ++ ", Requested: " ++ Int.repr amount⟩

section

variable (userId : String) (quotaType : QuotaType) (amount : ℤ)

def checkQuota : Program QuotaEnforcementResult := do
  let usage ← getUserUsage userId
  return enforce usage quotaType amount

def recordUsage : Program Unit := do
  let usage ← getUserUsage userId
  let now ← issue (.base .utcNow)
  issue (.storeUsage userId { usage.add amount quotaType with lastUpdated := now })

def resetUsage : Program Unit := issue (.resetUsage userId)

end

end UsageTracker

open UsageTracker

section

variable (userId : String)

def enforceQuota (quotaType : QuotaType) : Program QuotaEnforcementResult := do
  let result ← UsageTracker.checkQuota userId quotaType 1
  if result.allowed then
    recordUsage userId quotaType 1
    return result
  else
    return result

def enforceApiQuota : Program QuotaEnforcementResult := enforceQuota userId .apiCalls

def enforceTunnelCreationQuota : Program QuotaEnforcementResult := enforceQuota userId .tunnelCreation

def enforceDnsQuota : Program QuotaEnforcementResult := enforceQuota userId .dnsProvisioning

def canMakeApiCall : Program Bool := do
  let result ← enforceApiQuota userId
  return result.allowed

def canCreateTunnel : Program Bool := do
  let result ← enforceTunnelCreationQuota userId
  return result.allowed

def canPerformDnsOperation : Program Bool := do
  let result ← enforceDnsQuota userId
  return result.allowed

def getQuotaInfo : Program QuotaInfo := do
  let usage ← getUserUsage userId
  return ⟨usage, quotaLimits⟩

structure OperationCheckResponse where
  allowed : Bool
  (operationType message : String)

def checkOperationAllowed (operationType : String) : Program (Except ApiError OperationCheckResponse) := do
  let respond (allowed : Bool) : OperationCheckResponse := ⟨allowed, operationType,
    if allowed then "Operation is allowed" else "Operation is not allowed due to quota limits"⟩
  if operationType = "api_call" then
    return .ok (respond (← canMakeApiCall userId))
  else if operationType = "tunnel_creation" then
    return .ok (respond (← canCreateTunnel userId))
  else if operationType = "dns_operation" then
    return .ok (respond (← canPerformDnsOperation userId))
  else
    return .error (.validationError "Invalid operation type")

structure ResetUsageResponse where
  message : String
  resetTimestamp : ℕ

def resetUserUsage : Program ResetUsageResponse := do
  resetUsage userId
  let now ← issue (.base .utcNow)
  return ⟨"Usage reset successfully for user " ++ userId, now⟩

end

def serve : (c : FleetingDns.Cmd) → Program c.Reply
  | .canCreateTunnel userId => do return .ok (← canCreateTunnel userId)
  | c => issue (.base c)

section

variable (config : ApiConfig) (user : GitHubUser) (request : CreateTunnelRequest)

def createTunnel : Program (Except ApiError CreateTunnelResponse) :=
  (FleetingDns.createTunnel config user request).run.expand serve

lemma checkQuota_expand (u : String) :
    (FleetingDns.checkQuota u).run.expand serve = canCreateTunnel u >>= fun allowed => pure (.ok allowed) :=
  Prog.bind_assoc (canCreateTunnel u) _ _

def Base : QuotaCmd → Prop
  | .base _ => True
  | _ => False

def Unasked (c : FleetingDns.Cmd) : Prop := ∀ userId, c ≠ .canCreateTunnel userId

lemma serve_unasked {c : FleetingDns.Cmd} (hc : Unasked c) : serve c = issue (.base c) := by
  cases c with
  | canCreateTunnel userId => exact absurd rfl (hc userId)
  | _ => rfl

lemma unasked_provision : Only Unasked (provision config user request).run := by
  refine only_provision ?_ ?_ config user request
  · rintro c hc userId rfl
    cases hc
  · intro fqdn v ttl userId h
    cases h

lemma base_provision : Only Base ((provision config user request).run.expand serve) := by
  refine only_expand ?_ (unasked_provision config user request)
  intro c hc
  rw [serve_unasked hc]
  exact only_issue trivial

end

end FleetingDns.Quota
