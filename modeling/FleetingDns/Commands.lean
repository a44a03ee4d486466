import FleetingDns.Library.LossyText
import FleetingDns.Library.ThreadPool
import FleetingDns.RedisKeys
import FleetingDns.TunnelRecords

namespace FleetingDns

open CommandPrograms ExpiringStore

inductive ApiError where
  | certificateError (msg : String)
  | storageError (msg : String)
  | badRequest (msg : String)
  | internalError (msg : String)
  | forbidden (msg : String)
  | notFound (msg : String)
  | databaseError (msg : String)
  | validationError (msg : String)
  | panicked (msg : String)
  deriving DecidableEq

structure SocketAddr where
  ip : String
  port : ℕ
  deriving DecidableEq

structure SshKeyPair where
  (privateKey publicKey fingerprint : String)
  deriving DecidableEq

structure CertificatePem where
  (certificatePem privateKeyPem serialNumber : String)
  deriving DecidableEq

inductive BindReply where
  | bound (port : ℕ)
  | bindFailed (e : String)
  | localAddrFailed (e : String)

inductive DialError where
  | failed (e : String)
  | timeout

inductive Cmd where
  | redis (c : StoreCmd Key Value)
  | utcNow
  | newUuid
  | genPort
  | genIndices (count range : ℕ)
  | canCreateTunnel (userId : String)
  | rateLimited (clientId : String)
  | generateCertificate (commonName : String)
  | recordIssuance (clientId : String)
  | generateEd25519Keypair
  | isLockedOut (peer : SocketAddr)
  | recordAttempt (peer : SocketAddr) (success : Bool) (certificateSerial failureReason : Option String)
  | bindSlot (port : ℕ) (policy : TeardownPolicy) (liveTunnelId : Option String)
  | readRequestHead
  | dialSlot (tunnel : TunnelInfo)
  | replay (bytes : List LossyText.Octet)

@[reducible] def Cmd.Reply : Cmd → Type
  | .redis c => Except String c.Reply
  | .utcNow => ℕ
  | .newUuid => String
  | .genPort => { n : ℕ // 10000 ≤ n ∧ n < 65535 }
  | .genIndices count range => Fin count → Fin range
  | .canCreateTunnel _ => Except ApiError Bool
  | .rateLimited _ => Bool
  | .generateCertificate _ => Except String CertificatePem
  | .recordIssuance _ => Unit
  | .generateEd25519Keypair => Except String SshKeyPair
  | .isLockedOut _ => Bool
  | .recordAttempt _ _ _ _ => Option Unit
  | .bindSlot _ _ _ => BindReply
  | .readRequestHead => Except String (List LossyText.Octet)
  | .dialSlot _ => Except DialError Unit
  | .replay _ => Except String Unit

abbrev Program := Prog Cmd Cmd.Reply
abbrev Api := ExceptT ApiError Program

def issue (c : Cmd) : Program c.Reply := Prog.issue c

def redis (c : StoreCmd Key Value) (msg : String) : Api c.Reply := ExceptT.mk do
  match ← issue (.redis c) with
  | .ok r => return .ok r
  | .error e => return .error (.storageError (msg ++ e))

def utcNow : Api ℕ := ExceptT.lift (issue .utcNow)

def rejectIf (p : Prop) [Decidable p] (e : ApiError) : Api Unit := if p then throw e else pure ()

def orPanic {α : Type} (msg : String) : Option α → Api α
  | some a => pure a
  | none => throw (.panicked msg)

end FleetingDns
