import FleetingDns.Commands

namespace FleetingDns

open CommandPrograms ExpiringStore

def UserTunnelLookup.ofData (tunnel : Tunnel) (existingData : Option Value) : UserTunnelLookup :=
  (existingData.bind Value.asLookup).getD ⟨tunnel.githubUserId, tunnel.githubUsername, []⟩

def UserTunnelLookup.push (lookup : UserTunnelLookup) (id : String) : UserTunnelLookup :=
  if id ∈ lookup.tunnels then lookup else { lookup with tunnels := lookup.tunnels ++ [id] }

def UserTunnelLookup.remove (lookup : UserTunnelLookup) (id : String) : UserTunnelLookup :=
  { lookup with tunnels := lookup.tunnels.filter (· ≠ id) }

namespace TunnelStorage

def alreadyInUse (subdomain : String) : ApiError :=
  .badRequest ("Subdomain '" ++ subdomain ++ "' is already in use by an active tunnel")

def claimSubdomain (tunnel : Tunnel) (ttl : ℕ) : Api Unit := do
  let claimed ← redis (.setNxEx (.subdomain tunnel.subdomain) (.text tunnel.id) ttl) "Failed to claim subdomain: "
  if claimed then
    return
  else
    let holder ← redis (.get (.subdomain tunnel.subdomain)) "Failed to read subdomain holder: "
    if holder.bind Value.asText = some tunnel.id then
      let _ ← redis (.expire (.subdomain tunnel.subdomain) (asI64 ttl)) "Failed to refresh subdomain TTL: "
      return
    else
      throw (alreadyInUse tunnel.subdomain)

def storeTunnel (edgeIp : String) (tunnel : Tunnel) : Api Unit := do
  let now ← utcNow
  let ttl := asU64 (numSeconds (tunnel.expiresAt - now))
  redis (.setEx (.tunnel tunnel.id) (.tunnel tunnel) ttl) "Failed to store tunnel data in Redis: "
  let existingData ← redis (.get (.tunnelLookup tunnel.githubUserId)) "Failed to get existing user tunnel lookup: "
  let userLookup := (UserTunnelLookup.ofData tunnel existingData).push tunnel.id
  redis (.set (.tunnelLookup tunnel.githubUserId) (.lookup userLookup)) "Failed to store user tunnel lookup in Redis: "
  claimSubdomain tunnel ttl
  redis (.setEx (.slot tunnel.fqdn) (.text edgeIp) ttl) "Failed to create DNS slot mapping: "
  return

def storeSessionGrant (subdomain token githubUserId : String) (ttlSeconds : ℕ) : Api Unit := do
  let now ← utcNow
  redis (.setEx (.sessionGrant subdomain token) (.grant ⟨githubUserId, now⟩) ttlSeconds)
    "Failed to store session grant: "
  return

def storeSshSession (sessionId githubUserId publicKey fingerprint : String) (expiresAt : ℤ) : Api Unit := do
  let now ← utcNow
  let ttl := asU64 (max (numSeconds (expiresAt - now)) 1) + 60
  redis (.setEx (.session "session" sessionId)
    (.session ⟨githubUserId, publicKey, fingerprint, expiresAt, sessionId⟩) ttl) "Failed to store SSH session: "
  return

def getTunnel (tunnelId : String) : Api (Option Tunnel) := do
  match ← redis (.get (.tunnel tunnelId)) "Failed to get tunnel: " with
  | none => return none
  | some json =>
    match json.asTunnel with
    | some tunnel => return some tunnel
    | none => throw (.storageError "Failed to deserialize tunnel: ")

def getTunnelBySubdomain (subdomain : String) : Api (Option Tunnel) := do
  match ← redis (.get (.subdomain subdomain)) "Failed to get subdomain mapping: " with
  | none => return none
  | some value =>
    match value.asText with
    | some id => getTunnel id
    | none => throw (.storageError "Failed to parse tunnel ID: ")

def isSubdomainAvailable (subdomain : String) : Api Bool := do
  let tunnel ← getTunnelBySubdomain subdomain
  return tunnel.isNone

def deleteTunnel (tunnelId : String) : Api Bool := do
  match ← getTunnel tunnelId with
  | none => return false
  | some tunnel =>
    redis (.del (.tunnel tunnelId)) "Failed to delete tunnel: "
    redis (.del (.subdomain tunnel.subdomain)) "Failed to delete subdomain mapping: "
    redis (.del (.slot tunnel.fqdn)) "Failed to delete DNS slot mapping: "
    let existing ← redis (.get (.tunnelLookup tunnel.githubUserId)) "Failed to read user tunnel lookup: "
    match existing.bind Value.asLookup with
    | some lookup =>
      redis (.set (.tunnelLookup tunnel.githubUserId) (.lookup (lookup.remove tunnelId)))
        "Failed to remove from user tunnels: "
      return true
    | none => return true

def isTunnelLive (tunnelId : String) : Api Bool := do
  let value ← redis (.get (.tunnelLive tunnelId)) "Failed to read tunnel liveness: "
  return value.isSome

def readTunnels (parseUuid : String → Option String) : List String → Api (List Tunnel)
  | [] => return []
  | tunnelId :: tunnelIds => do
    match parseUuid tunnelId with
    | none => readTunnels parseUuid tunnelIds
    | some uuid =>
      match ← ExceptT.lift (getTunnel uuid).run with
      | .ok (some tunnel) =>
        let tunnels ← readTunnels parseUuid tunnelIds
        return tunnel :: tunnels
      | _ => readTunnels parseUuid tunnelIds

def listUserTunnels (parseUuid : String → Option String) (githubUserId : String) : Api (List Tunnel) := do
  match ← redis (.get (.tunnelLookup githubUserId)) "Failed to get user tunnel lookup: " with
  | none => return []
  | some data =>
    match data.asLookup with
    | some userLookup => readTunnels parseUuid userLookup.tunnels
    | none => throw (.storageError "Failed to deserialize user tunnel lookup: ")

def getActiveTunnelCount : Api ℕ := do
  let tunnelKeys ← redis (.keys Key.isTunnel) "Failed to get tunnel keys: "
  return tunnelKeys.length

def portRangeStart : ℕ := 10000

def portRangeEnd : ℕ := 65535

def nextPort (port : ℕ) : ℕ := if port = portRangeEnd then portRangeStart else port + 1

def claimPort (tunnelId : String) (certificateTtl : ℕ) : (attempts port : ℕ) → Api ℕ
  | 0, _ => throw (.storageError "No available ports found after 1000 attempts")
  | attempts + 1, port => do
    let claimed ← redis (.setNxEx (.port port) (.text tunnelId) certificateTtl) "Failed to reserve port: "
    if claimed then return port else claimPort tunnelId certificateTtl attempts (nextPort port)

def allocatePort (tunnelId : String) (certificateTtl : ℕ) : Api ℕ := do
  let startPort ← ExceptT.lift (issue .genPort)
  claimPort tunnelId certificateTtl 1000 startPort.val

def releasePort (port : ℕ) : Api Unit := do
  redis (.del (.port port)) "Failed to release port: "
  return

end TunnelStorage

end FleetingDns
