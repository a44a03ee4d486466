import FleetingDns.Commands

namespace FleetingDns

open CommandPrograms ExpiringStore

structure HubConfig where
  redisAuthHandler : Option String
  (redisPool insecureAcceptAllKeys : Bool)
  (maxAuthAttempts authLockoutDuration : ℕ)
  fingerprint : String → String

inductive Auth where
  | accept
  | reject
  | panicked
  deriving DecidableEq

def isSessionIdChar (c : Char) : Bool := c.isAlphanum || c == '-' || c == '_'

def isValidSessionId (sessionId : String) : Bool :=
  !sessionId.isEmpty && sessionId.utf8ByteSize ≤ 64 && sessionId.toList.all isSessionIdChar

def sessionIdOf (user : String) : String :=
  if "tunnel-".toList.isPrefixOf user.toList then String.ofList (user.toList.drop "tunnel-".length) else user

def validatePublicKey (config : HubConfig) (keyPrefix publicKey sessionId : String) : ExceptT String Program Bool := do
  match ← ExceptT.lift (issue (.redis (.get (.session keyPrefix sessionId)))) with
  | .error _ => throw "Failed to get session data from Redis"
  | .ok none => return false
  | .ok (some data) =>
    match data.asSession with
    | none => throw "Failed to deserialize session data"
    | some session =>
      let now ← ExceptT.lift (issue .utcNow)
      if session.expiresAt < now then return false
      else return config.fingerprint publicKey == session.fingerprint

def keyAccepted (config : HubConfig) (publicKey sessionId : String) : Program Bool := do
  match config.redisAuthHandler with
  | some keyPrefix =>
    match ← (validatePublicKey config keyPrefix publicKey sessionId).run with
    | .ok valid => return valid
    | .error _ => return false
  | none => return config.insecureAcceptAllKeys

def authPublickey (config : HubConfig) (peer : SocketAddr) (serial : Option String) (user publicKey : String) :
    Program (Auth × Option String) := do
  let lockedOut ← issue (.isLockedOut peer)
  if lockedOut then
    return (.reject, serial)
  else
    let sessionId := sessionIdOf user
    if !isValidSessionId sessionId then
      return (.reject, serial)
    else
      let accepted ← keyAccepted config publicKey sessionId
      match ← issue (.recordAttempt peer accepted (some sessionId)
        (if accepted then none else some "key validation failed")) with
      | none => return (.panicked, serial)
      | some _ => if accepted then return (.accept, some sessionId) else return (.reject, serial)

end FleetingDns
