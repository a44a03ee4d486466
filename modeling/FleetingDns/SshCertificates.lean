import FleetingDns.CertificateAuthority

namespace FleetingDns.EdfCa

open CommandPrograms

structure CertificateInfo where
  (serialNumber subject issuer : String)
  (notBefore notAfter : ℤ)
  fingerprint : String
  deriving DecidableEq

structure CertificateValidationResult where
  isValid : Bool
  (serialNumber subject issuer : Option String)
  (notBefore notAfter : Option ℤ)
  fingerprint : Option String
  validationErrors : List String
  validatedAt : ℤ
  deriving DecidableEq

namespace CertificateValidationResult

def withError (result : CertificateValidationResult) (msg : String) : CertificateValidationResult :=
  { result with validationErrors := result.validationErrors ++ [msg] }

def withInfo (result : CertificateValidationResult) (info : CertificateInfo) : CertificateValidationResult :=
  { result with
    serialNumber := some info.serialNumber
    subject := some info.subject
    issuer := some info.issuer
    notBefore := some info.notBefore
    notAfter := some info.notAfter
    fingerprint := some info.fingerprint }

end CertificateValidationResult

def fromTimestamp (seconds : ℤ) : Option ℤ :=
  if -8334601228800 ≤ seconds ∧ seconds < 8210266876800 then some (seconds * ExpiringStore.second) else none

def timestampOrNow (seconds : ℤ) : Program ℤ := do
  match fromTimestamp seconds with
  | some t => return t
  | none =>
    let now ← issue .utcNow
    return now

namespace SshServer

def issueCertificate (config : Config) (requestId clientId commonName : String) : Program (Except String IssuanceResponse) := do
  if config.certificateAuthority then
    match ← (EdfCa.issueCertificate config ⟨requestId, commonName, none, clientId⟩).run with
    | .ok response => return .ok response
    | .error _ => return .error "Failed to issue certificate"
  else
    return .error "Certificate authority not configured"

def parseCertificatePem (x509 : X509) (certificatePem : String) : Except String Der :=
  match x509.pemCerts certificatePem with
  | .error _ => throw "Failed to parse PEM certificates"
  | .ok [] => throw "No certificates found in PEM data"
  | .ok (der :: _) => return der

def extractCertificateInfo (x509 : X509) (certDer : Der) : Program (Except String CertificateInfo) := do
  match x509.fromDer certDer with
  | .error e => return .error ("Failed to parse certificate: " ++ e)
  | .ok cert =>
    let notBefore ← timestampOrNow cert.notBefore
    let notAfter ← timestampOrNow cert.notAfter
    return .ok ⟨hexEncode cert.serial, cert.subject, cert.issuer, notBefore, notAfter, hexEncode (x509.sha256 certDer)⟩

/-- The pinned fingerprints are not consulted: any certificate that parses passes. -/
def validateCertificatePinning (x509 : X509) (certDer : Der) : Except String Unit :=
  match x509.fromDer certDer with
  | .error e => throw ("Failed to parse certificate for pinning: " ++ e)
  | .ok _ => return

def validateWithCa (config : Config) (result : CertificateValidationResult) : Program CertificateValidationResult := do
  if config.certificateAuthority then
    match result.serialNumber with
    | some serial =>
      let isValid ← validateCertificate config serial
      let result := { result with isValid := isValid }
      if isValid then return result else return result.withError "Certificate not found in CA registry"
    | none => return result
  else
    return result.withError "No certificate authority configured"

def checkPinning (config : Config) (certDer : Der) (result : CertificateValidationResult) : CertificateValidationResult :=
  if config.certificatePinningEnabled then
    match validateCertificatePinning config.x509 certDer with
    | .error e => { result.withError ("Certificate pinning validation failed: " ++ e) with isValid := false }
    | .ok () => result
  else
    result

def validateCertificateComprehensive (config : Config) (certificatePem : String) :
    Program CertificateValidationResult := do
  let validatedAt ← issue .utcNow
  let result : CertificateValidationResult := ⟨false, none, none, none, none, none, none, [], validatedAt⟩
  match parseCertificatePem config.x509 certificatePem with
  | .error e => return result.withError ("Certificate parsing failed: " ++ e)
  | .ok certDer =>
    match ← extractCertificateInfo config.x509 certDer with
    | .ok info =>
      let result ← validateWithCa config (result.withInfo info)
      return checkPinning config certDer result
    | .error _ =>
      let result ← validateWithCa config result
      return checkPinning config certDer result

end SshServer

end FleetingDns.EdfCa
