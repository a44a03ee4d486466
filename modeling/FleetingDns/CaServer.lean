import FleetingDns.SshCertificates

namespace FleetingDns.EdfCa

open CommandPrograms ExpiringStore ThreadPool ServerPool GuardedRuns

def hour : ℕ := 3600 * second

structure RateLimiter where
  limit : ℕ
  clientCounts : AList (fun _ : String => ℕ × ℕ)
  totalIssued : ℕ

namespace RateLimiter

def new (limit : ℕ) : RateLimiter := ⟨limit, ∅, 0⟩

def isRateLimited (self : RateLimiter) (now : ℕ) (clientId : String) : Bool :=
  match self.clientCounts.lookup clientId with
  | some (count, lastReset) => if now - lastReset < hour then count ≥ self.limit else false
  | none => false

def recordIssuance (self : RateLimiter) (now : ℕ) (clientId : String) : RateLimiter :=
  let entry := (self.clientCounts.lookup clientId).getD (0, now)
  -- a window that has expired is opened anew
  let entry := if now - entry.2 ≥ hour then (0, now) else entry
  ⟨self.limit, self.clientCounts.insert clientId (entry.1 + 1, entry.2), self.totalIssued + 1⟩

end RateLimiter

structure CaState where
  now : ℕ
  store : Store String Record
  activeCerts : AList (fun _ : String => ActiveCertificate)
  rateLimiter : RateLimiter
  usedSerials : List String
  boots : ℕ

def retain (now : ℕ) (certs : AList (fun _ : String => ActiveCertificate)) : AList (fun _ : String => ActiveCertificate) :=
  ⟨certs.entries.filter fun x => decide (x.2.metadata.expiresAt > now),
    List.NodupKeys.sublist List.filter_sublist certs.nodupKeys⟩

inductive Choice where
  | plain
  | store (o : Outcome String)
  | signed (r : Except String Signed)
  | uuid (bytes : Fin 16 → Byte)
  | caPem (r : Except String String)

namespace CaState

def init (config : Config) (now : ℕ) : CaState := ⟨now, ∅, ∅, .new config.ca.certsPerHourPerClient, [], 0⟩

def perform (s : CaState) : (c : Cmd) → Choice → Option (CaState × c.Reply)
  | .utcNow, .plain => some (s, s.now)
  | .store c, .store o =>
    -- a key past its deadline is gone
    (ExpiringStore.perform s.now (visible s.now s.store) c o).map fun r => ({ s with store := r.1 }, r.2)
  | .lookupActive serial, .plain => some (s, s.activeCerts.lookup serial)
  | .insertActive serial cert, .plain => some ({ s with activeCerts := s.activeCerts.insert serial cert }, ())
  | .repopulate serial cert, .plain => some ({ s with activeCerts := s.activeCerts.insert serial cert }, ())
  | .removeActive serial, .plain =>
    some ({ s with activeCerts := s.activeCerts.erase serial }, (s.activeCerts.lookup serial).isSome)
  | .retainActive, .plain =>
    let kept := retain s.now s.activeCerts
    some ({ s with activeCerts := kept }, s.activeCerts.entries.length - kept.entries.length)
  | .isRateLimited clientId, .plain => some (s, s.rateLimiter.isRateLimited s.now clientId)
  | .recordIssuance clientId, .plain =>
    some ({ s with rateLimiter := s.rateLimiter.recordIssuance s.now clientId }, ())
  | .sign _, .signed r => some (s, r)
  | .newUuid, .uuid bytes =>
    if uuidText bytes ∈ s.usedSerials then none
    else some ({ s with usedSerials := uuidText bytes :: s.usedSerials }, bytes)
  | .caCertificatePem, .caPem r => some (s, r)
  | _, _ => none

end CaState

inductive Call where
  | issueCertificate (request : IssuanceRequest)
  | issueClientCertificate (request : IssuanceRequest)
  | issueServerCertificate (fqdn : String) (extraSans : List String) (ttl : Option ℤ)
  | registerCertificate (cert : ActiveCertificate)
  | validateCertificate (serialNumber : String)
  | getCertificateInfo (serialNumber : String)
  | revokeCertificate (serialNumber : String)
  | cleanupExpiredCertificates
  | sshIssueCertificate (requestId clientId commonName : String)
  | validateCertificateComprehensive (certificatePem : String)

inductive Done where
  | issued (r : Except CaError EphemeralCertificate)
  | responded (r : Except CaError IssuanceResponse)
  | registered
  | validated (isValid : Bool)
  | found (r : Except CaError ActiveCertificate)
  | revoked (r : Except CaError Unit)
  | cleaned (removedCount : ℕ)
  | sshIssued (r : Except String IssuanceResponse)
  | reported (r : CertificateValidationResult)
  | stopped

def Call.program (config : Config) : Call → Program Done
  | .issueCertificate request => do return .responded (← (EdfCa.issueCertificate config request).run)
  | .issueClientCertificate request => do return .issued (← (EdfCa.issueClientCertificate config request).run)
  | .issueServerCertificate fqdn extraSans ttl => do
    return .issued (← (EdfCa.issueServerCertificate config fqdn extraSans ttl).run)
  | .registerCertificate cert => do
    CertificateRegistry.registerCertificate config.persistent cert
    return .registered
  | .validateCertificate serialNumber => do return .validated (← EdfCa.validateCertificate config serialNumber)
  | .getCertificateInfo serialNumber => do return .found (← (EdfCa.getCertificateInfo config serialNumber).run)
  | .revokeCertificate serialNumber => do return .revoked (← (EdfCa.revokeCertificate config serialNumber).run)
  | .cleanupExpiredCertificates => do return .cleaned (← EdfCa.cleanupExpiredCertificates)
  | .sshIssueCertificate requestId clientId commonName => do
    return .sshIssued (← SshServer.issueCertificate config requestId clientId commonName)
  | .validateCertificateComprehensive certificatePem => do
    return .reported (← SshServer.validateCertificateComprehensive config certificatePem)

def CaState.accept (s : CaState) : Call → Option CaState
  -- a certificate is registered under a serial of its own
  | .registerCertificate cert =>
    if cert.metadata.serialNumber ∉ s.usedSerials ∧ inCalendar cert.metadata.expiresAt then
      some { s with usedSerials := cert.metadata.serialNumber :: s.usedSerials }
    else none
  | _ => some s

def CaState.restart (config : Config) (s : CaState) : CaState :=
  { s with activeCerts := ∅, rateLimiter := .new config.ca.certsPerHourPerClient, boots := s.boots + 1 }

def server (config : Config) : Service CaState Call Cmd Cmd.Reply Done Choice ℕ where
  program := Call.program config
  perform := CaState.perform
  accept := CaState.accept
  drift s d := some { s with now := s.now + d }
  restart s := some (s.restart config)
  stopped := .stopped

abbrev Ev := Event CaState Cmd Cmd.Reply

abbrev CaThread := Thread CaState Call Cmd Cmd.Reply Done

abbrev CaPool := Pool CaState Call Cmd Cmd.Reply Done

abbrev Action := Act Call Choice ℕ

def start (config : Config) (now : ℕ) : CaPool := ⟨.init config now, []⟩

namespace Schedule

def x509 : X509 where
  pemCerts pem := .ok [pem.toList.map fun c => Fin.ofNat 256 c.toNat]
  fromDer der := .ok ⟨der, "CN=tunnel-client-laptop", "CN=FleetingDNS EDF CA", 1700000000, 1700001800⟩
  sha256 der := der

def deployment : Config := ⟨⟨1800 * second, 7200 * second, 10⟩, "FleetingDNS EDF CA", true, x509, true, false⟩

def begin : CaPool := start deployment (1700000000 * second)

def issuance : Call := .issueClientCertificate ⟨"request", "laptop.example", none, "laptop"⟩

def issued (tid : ℕ) (byte : Byte) : List Action :=
  [.exec tid .plain, .exec tid (.signed (.ok ⟨"certificate", "key"⟩)), .exec tid (.uuid fun _ => byte), .exec tid .plain,
    .exec tid (.caPem (.ok "ca")), .exec tid .plain, .exec tid .plain, .exec tid (.store .ok), .exec tid .plain,
    .exec tid .plain]

def first : Byte := 1

def serialOf (byte : Byte) : String := uuidText fun _ => byte

end Schedule

end FleetingDns.EdfCa
