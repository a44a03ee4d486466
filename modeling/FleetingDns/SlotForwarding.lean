import FleetingDns.SshAuthentication
import FleetingDns.TunnelLookup

namespace FleetingDns

open CommandPrograms

def slotGate (config : HubConfig) (serial : Option String) (requestedPort : ℕ) :
    Program (Option (TeardownPolicy × Option String)) := do
  if config.redisPool then
    match ← (TunnelLookup.getTunnelBySlot requestedPort).run with
    | .ok (some tunnel) =>
      match serial with
      | some sessionId =>
        if sessionId = tunnel.id then return some (tunnel.teardownPolicy, some tunnel.id) else return none
      | none => return none
    | .ok none => return none
    | .error _ => return none
  else
    return some (.ttlOnly, none)

def tcpipForward (config : HubConfig) (serial : Option String) (port : ℕ) : Program (Except String Bool × ℕ) := do
  match ← slotGate config serial (port % 65536) with
  | none => return (.ok false, port)
  | some (policy, liveTunnelId) =>
    match ← issue (.bindSlot (port % 65536) policy liveTunnelId) with
    | .bindFailed _ => return (.ok false, port)
    | .localAddrFailed e => return (.error e, port)
    | .bound boundPort => return (.ok true, boundPort)

end FleetingDns
