import FleetingDns.Commands

namespace FleetingDns.TunnelLookup

open CommandPrograms ExpiringStore

abbrev Cache := ExceptT String Program

def query (c : StoreCmd Key Value) : Cache c.Reply := ExceptT.mk do
  match ← issue (.redis c) with
  | .ok r => return .ok r
  | .error e => return .error ("Redis error: " ++ e)

def findTunnel (p : TunnelInfo → Bool) : List String → Cache (Option TunnelInfo)
  | [] => return none
  | tunnelId :: tunnels => do
    let tunnelData ← query (.get (.tunnel tunnelId))
    match tunnelData.bind Value.asTunnelInfo with
    | some tunnelInfo => if p tunnelInfo then return some tunnelInfo else findTunnel p tunnels
    | none => findTunnel p tunnels

def scanLookups (p : TunnelInfo → Bool) : List Key → Cache (Option TunnelInfo)
  | [] => return none
  | key :: keys => do
    let userData ← query (.get key)
    match userData.bind Value.asLookup with
    | some userLookup =>
      match ← findTunnel p userLookup.tunnels with
      | some tunnelInfo => return some tunnelInfo
      | none => scanLookups p keys
    | none => scanLookups p keys

def scanTunnels (p : TunnelInfo → Bool) : Cache (Option TunnelInfo) := do
  let keys ← query (.keys Key.isTunnelLookup)
  scanLookups p keys

def getTunnelBySubdomain (subdomain : String) : Cache (Option TunnelInfo) :=
  scanTunnels (fun tunnelInfo => tunnelInfo.subdomain == subdomain)

def getTunnelBySlot (slot : ℕ) : Cache (Option TunnelInfo) :=
  scanTunnels (fun tunnelInfo => tunnelInfo.slot == slot)

def checkSessionGrant (subdomain token : String) : Cache Bool := query (.exist (.sessionGrant subdomain token))

end FleetingDns.TunnelLookup
