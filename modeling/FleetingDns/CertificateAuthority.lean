import FleetingDns.Library.ServerPool
import FleetingDns.TunnelHandlers

namespace FleetingDns.EdfCa

open CommandPrograms ExpiringStore

abbrev Byte := Fin 256

abbrev Der := List Byte

def zeroByte : Byte := ⟨0, by decide⟩

def hexDigit (n : Fin 16) : Char := if n.val < 10 then Char.ofNat ('0'.toNat + n.val) else Char.ofNat ('a'.toNat + n.val - 10)

def hexByte (b : Byte) : List Char := [hexDigit ⟨b.val / 16, by omega⟩, hexDigit ⟨b.val % 16, by omega⟩]

def hexEncode (bytes : List Byte) : String := String.ofList (bytes.flatMap hexByte)

def uuidText (bytes : Fin 16 → Byte) : String :=
  let part (start len : ℕ) := (((List.ofFn bytes).drop start).take len).flatMap hexByte
  String.ofList (part 0 4 ++ '-' :: part 4 2 ++ '-' :: part 6 2 ++ '-' :: part 8 2 ++ '-' :: part 10 6)

structure CertificateMetadata where
  (serialNumber subject issuer : String)
  (issuedAt expiresAt : ℤ)
  fingerprint : String
  deriving DecidableEq

inductive KeyUsage where
  | digitalSignature
  | keyEncipherment
  deriving DecidableEq

inductive ExtendedKeyUsage where
  | serverAuth
  | clientAuth
  deriving DecidableEq

structure CertificateRequest where
  commonName : String
  subjectAltNames : List String
  keyUsage : List KeyUsage
  extendedKeyUsage : List ExtendedKeyUsage
  validityDuration : ℤ
  deriving DecidableEq

namespace CertificateRequest

def forTunnelClient (clientId : String) (validityDuration : ℤ) : CertificateRequest :=
  ⟨"tunnel-client-" ++ clientId, [], [.digitalSignature, .keyEncipherment], [.clientAuth], validityDuration⟩

def forServer (fqdn : String) (validityDuration : ℤ) : CertificateRequest :=
  ⟨fqdn, [fqdn], [.digitalSignature, .keyEncipherment], [.serverAuth], validityDuration⟩

def withSan (request : CertificateRequest) (san : String) : CertificateRequest :=
  { request with subjectAltNames := request.subjectAltNames ++ [san] }

end CertificateRequest

structure EphemeralCertificate where
  (certificatePem privateKeyPem : String)
  metadata : CertificateMetadata
  caChainPem : String
  deriving DecidableEq

structure IssuanceRequest where
  (requestId commonName : String)
  ttl : Option ℤ
  clientId : String

structure IssuanceResponse where
  (requestId certificatePem : String)
  metadata : CertificateMetadata
  caChainPem : String
  deriving DecidableEq

structure ActiveCertificate where
  metadata : CertificateMetadata
  (certificatePem clientId : String)
  issuedAt : ℤ
  deriving DecidableEq

def inCalendar (t : ℤ) : Prop := -8334601228800 * second ≤ t ∧ t < 8210266876800 * second

instance (t : ℤ) : Decidable (inCalendar t) := inferInstanceAs (Decidable (_ ∧ _))

lemma inCalendar_addUtc {now d t : ℤ} (h : addUtc now d = some t) : inCalendar t := by
  unfold addUtc at h
  split_ifs at h with hrange
  cases h
  exact hrange

inductive Record where
  | certificate (cert : ActiveCertificate)
  | malformed (text : String)
  deriving DecidableEq

def Record.asCertificate : Record → Option ActiveCertificate
  | certificate cert => some cert
  | malformed _ => none

inductive CaError where
  | badRequest (msg : String)
  | rateLimitExceeded (msg : String)
  | validationError (msg : String)
  | certificateError (msg : String)
  | deserializationError (msg : String)
  | notFound (msg : String)
  | panicked (msg : String)
  deriving DecidableEq

structure Signed where
  (certificatePem privateKeyPem : String)

structure X509Certificate where
  serial : List Byte
  (subject issuer : String)
  (notBefore notAfter : ℤ)

structure X509 where
  pemCerts : String → Except String (List Der)
  fromDer : Der → Except String X509Certificate
  sha256 : Der → List Byte

structure Config where
  ca : CaConfig
  caName : String
  persistent : Bool
  x509 : X509
  (certificateAuthority certificatePinningEnabled : Bool)

inductive Cmd where
  | utcNow
  | store (c : StoreCmd String Record)
  | lookupActive (serial : String)
  | insertActive (serial : String) (cert : ActiveCertificate)
  | repopulate (serial : String) (cert : ActiveCertificate)
  | removeActive (serial : String)
  | retainActive
  | isRateLimited (clientId : String)
  | recordIssuance (clientId : String)
  | sign (request : CertificateRequest)
  | newUuid
  | caCertificatePem

@[reducible] def Cmd.Reply : Cmd → Type
  | utcNow => ℕ
  | store c => Except String c.Reply
  | lookupActive _ => Option ActiveCertificate
  | insertActive _ _ | repopulate _ _ | recordIssuance _ => Unit
  | removeActive _ | isRateLimited _ => Bool
  | retainActive => ℕ
  | sign _ => Except String Signed
  | newUuid => Fin 16 → Byte
  | caCertificatePem => Except String String

abbrev Program := Prog Cmd Cmd.Reply

def issue (c : Cmd) : Program c.Reply := Prog.issue c

abbrev Ca := ExceptT CaError Program

def ask (c : Cmd) : Ca c.Reply := ExceptT.lift (issue c)

def rejectIf (p : Prop) [Decidable p] (e : CaError) : Ca Unit := if p then throw e else return

def orPanic {α : Type} (msg : String) : Option α → Ca α
  | some a => return a
  | none => throw (.panicked msg)

def certKey (serialNumber : String) : String := "edf-ca:cert:" ++ serialNumber

namespace CertificateRegistry

def registerCertificate (persistent : Bool) (cert : ActiveCertificate) : Program Unit := do
  if persistent then
    let now ← issue .utcNow
    let ttl := numSeconds (cert.metadata.expiresAt - now)
    if ttl > 0 then
      -- a failed write is logged and ignored
      let _ ← issue (.store (.setEx (certKey cert.metadata.serialNumber) (.certificate cert) (asU64 ttl)))
      issue (.insertActive cert.metadata.serialNumber cert)
    else
      issue (.insertActive cert.metadata.serialNumber cert)
  else
    issue (.insertActive cert.metadata.serialNumber cert)

section

variable (persistent : Bool) (serialNumber : String)

def getCertificate : Program (Option ActiveCertificate) := do
  match ← issue (.lookupActive serialNumber) with
  | some cert => return some cert
  | none =>
    if persistent then
      match ← issue (.store (.get (certKey serialNumber))) with
      | .ok (some json) =>
        match json.asCertificate with
        | some cert =>
          issue (.repopulate serialNumber cert)
          return some cert
        | none => return none
      | .ok none => return none
      | .error _ => return none
    else
      return none

def isCertificateValid : Program Bool := do
  match ← getCertificate persistent serialNumber with
  | some cert =>
    let now ← issue .utcNow
    return decide (cert.metadata.expiresAt > now)
  | none => return false

def removeCertificate : Program Bool := do
  if persistent then
    -- a failed deletion is logged and ignored
    let _ ← issue (.store (.del (certKey serialNumber)))
    issue (.removeActive serialNumber)
  else
    issue (.removeActive serialNumber)

end

def cleanupExpired : Program ℕ := issue .retainActive

end CertificateRegistry

open CertificateRegistry

def calculateFingerprint (x509 : X509) (certPem : String) : Except CaError String :=
  match x509.pemCerts certPem with
  | .error e => throw (.deserializationError ("PEM parsing error: " ++ e))
  | .ok [] => throw (.deserializationError "No certificate found in PEM")
  | .ok (der :: _) =>
    let pairs := (x509.sha256 der).map hexByte
    return String.ofList ((List.intercalate [':'] pairs).map Char.toUpper)

def generateSerialNumber : Ca String := do
  let bytes ← ask .newUuid
  return uuidText bytes

def validateRequest (request : IssuanceRequest) : Ca Unit := do
  rejectIf request.commonName.isEmpty (.badRequest "Common name cannot be empty")
  rejectIf request.clientId.isEmpty (.badRequest "Client ID cannot be empty")

section

variable (config : Config)

def checkRateLimits (clientId : String) : Ca Unit := do
  let limited ← ask (.isRateLimited clientId)
  rejectIf limited (.rateLimitExceeded ("Rate limit exceeded for client " ++ clientId ++ ": "
    ++ Nat.repr config.ca.certsPerHourPerClient ++ " certificates per hour"))

def checkTtl (ttl : ℤ) : Ca Unit :=
  rejectIf (ttl > config.ca.maxTtl) (.validationError ("TTL validation error: requested " ++ Int.repr (numMinutes ttl)
    ++ " minutes, max allowed " ++ Int.repr (numMinutes config.ca.maxTtl) ++ " minutes"))

def generateCertificate (request : CertificateRequest) : Ca EphemeralCertificate := do
  match ← ask (.sign request) with
  | .error e => throw (.certificateError ("Certificate generation failed: " ++ e))
  | .ok signed =>
    match calculateFingerprint config.x509 signed.certificatePem with
    | .error e => throw e
    | .ok fingerprint =>
      let serialNumber ← generateSerialNumber
      let now ← ask .utcNow
      let expiresAt ← orPanic "DateTime + TimeDelta overflowed" (addUtc now request.validityDuration)
      let metadata : CertificateMetadata :=
        ⟨serialNumber, "CN=" ++ request.commonName, "CN=" ++ config.caName, now, expiresAt, fingerprint⟩
      match ← ask .caCertificatePem with
      | .error e => throw (.certificateError ("Certificate generation failed: " ++ e))
      | .ok caChainPem => return ⟨signed.certificatePem, signed.privateKeyPem, metadata, caChainPem⟩

def issueTo (clientId : String) (ttl : Option ℤ) (request : ℤ → CertificateRequest) : Ca EphemeralCertificate := do
  checkRateLimits config clientId
  let ttl := ttl.getD config.ca.defaultTtl
  checkTtl config ttl
  let cert ← generateCertificate config (request ttl)
  let issuedAt ← ask .utcNow
  let activeCert : ActiveCertificate := ⟨cert.metadata, cert.certificatePem, clientId, issuedAt⟩
  ExceptT.lift (CertificateRegistry.registerCertificate config.persistent activeCert)
  ask (.recordIssuance clientId)
  return cert

def issueClientCertificate (request : IssuanceRequest) : Ca EphemeralCertificate := do
  validateRequest request
  issueTo config request.clientId request.ttl fun ttl =>
    (CertificateRequest.forTunnelClient request.clientId ttl).withSan request.commonName

def issueCertificate (request : IssuanceRequest) : Ca IssuanceResponse := do
  let cert ← issueClientCertificate config request
  return ⟨request.requestId, cert.certificatePem, cert.metadata, cert.caChainPem⟩

def issueServerCertificate (fqdn : String) (extraSans : List String) (ttl : Option ℤ) : Ca EphemeralCertificate := do
  rejectIf fqdn.isEmpty (.badRequest "FQDN cannot be empty")
  issueTo config fqdn ttl fun ttl => extraSans.foldl CertificateRequest.withSan (CertificateRequest.forServer fqdn ttl)

section

variable (serialNumber : String)

def validateCertificate : Program Bool :=
  isCertificateValid config.persistent serialNumber

def notFound : CaError := .notFound ("Certificate not found: serial " ++ serialNumber)

def getCertificateInfo : Ca ActiveCertificate := do
  match ← ExceptT.lift (getCertificate config.persistent serialNumber) with
  | some cert => return cert
  | none => throw (notFound serialNumber)

def revokeCertificate : Ca Unit := do
  let known ← ExceptT.lift (getCertificate config.persistent serialNumber)
  let removed ← ExceptT.lift (removeCertificate config.persistent serialNumber)
  rejectIf (¬ (known.isSome ∨ removed)) (notFound serialNumber)

end

end

def cleanupExpiredCertificates : Program ℕ := cleanupExpired

end FleetingDns.EdfCa
