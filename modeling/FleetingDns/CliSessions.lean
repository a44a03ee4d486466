import FleetingDns.Library.ExpiringStore
namespace FleetingDns.Cli

open ExpiringStore

structure SshKeyPair where
  (publicKey privateKey keyType fingerprint : String)
  (createdAt expiresAt : ℤ)
  sessionId : String
  slot : ℕ
  (fqdn subdomain : Option String)

inductive FleetingDnsError where
  | io (msg : String)
  | notFound (msg : String)
  | validationError (msg : String)
  | externalService (msg : String)

inductive SessionInfo where
  | unreadable (e : String)
  | garbled (e : String)
  | data (info : SshKeyPair)

/-- A write that fails, and what it leaves in the file if it has opened it. -/
structure WriteFault (α : Type) where
  error : String
  left : Option α

structure Faults where
  (createDir permissions removeKey removeInfo : Option String)
  writeKey : Option (WriteFault (Except String String))
  writeInfo : Option (WriteFault SessionInfo)

structure KeyDirectory where
  path : String
  sessionInfo : Option SessionInfo
  sshFiles : AList (fun _ : String => Except String String)
  faults : Faults

structure TunnelRequest where
  (port ttl : ℕ)
  customSubdomain : Option String

structure ResponseKey where
  (publicKey privateKey keyType fingerprint : Option String)

structure TunnelResponse where
  sshKey : Option ResponseKey
  expiresAt : Option ℤ
  id : Option String
  slot : Option ℕ
  (fqdn subdomain : Option String)

inductive ApiAnswer where
  | unsent (e : String)
  | status (errorText : String)
  | unparsed (e : String)
  | tunnel (response : TunnelResponse)

def required {α : Type} (msg : String) : Option α → Except FleetingDnsError α
  | some a => .ok a
  | none => .error (.externalService msg)

def TunnelResponse.keyPair (response : TunnelResponse) (sessionTtl now : ℕ) : Except FleetingDnsError SshKeyPair := do
  let sshKey ← required "No SSH key in tunnel response" response.sshKey
  let publicKey ← required "Missing public_key" sshKey.publicKey
  let privateKey ← required "Missing private_key" sshKey.privateKey
  let fingerprint ← required "Missing fingerprint" sshKey.fingerprint
  let sessionId ← required "Missing tunnel ID" response.id
  let slot ← required "Missing slot in tunnel response" response.slot
  return ⟨publicKey, privateKey, sshKey.keyType.getD "ed25519", fingerprint, now,
    response.expiresAt.getD (now + sessionTtl * second), sessionId, slot % 65536, response.fqdn, response.subdomain⟩

section

variable (stamp : ℤ → String)

def SshKeyPair.filename (keyPair : SshKeyPair) : String :=
  "edf-cli-" ++ stamp keyPair.expiresAt ++ "-" ++ keyPair.sessionId ++ ".priv"

namespace KeyDirectory

section

variable (self : KeyDirectory)

def cleanupSession : Except FleetingDnsError Unit × KeyDirectory :=
  match self.sessionInfo with
  | none => (.ok (), self)
  | some (.unreadable e) => (.error (.io ("Failed to read session info: " ++ e)), self)
  | some (.garbled e) => (.error (.validationError ("Failed to parse session info: " ++ e)), self)
  | some (.data info) =>
    match if info.filename stamp ∈ self.sshFiles then self.faults.removeKey else none with
    | some e => (.error (.io ("Failed to remove private key: " ++ e)), self)
    | none =>
      let self := { self with sshFiles := self.sshFiles.erase (info.filename stamp) }
      match self.faults.removeInfo with
      | some e => (.error (.io ("Failed to remove session info: " ++ e)), self)
      | none => (.ok (), { self with sessionInfo := none })

def loadExistingKeyPair (now : ℕ) : Except FleetingDnsError SshKeyPair × KeyDirectory :=
  match self.sessionInfo with
  | none => (.error (.notFound ("No active session found in " ++ self.path)), self)
  | some (.unreadable e) => (.error (.io ("Failed to read session info: " ++ e)), self)
  | some (.garbled e) => (.error (.validationError ("Failed to parse session info: " ++ e)), self)
  | some (.data info) =>
    if info.expiresAt < now then
      match self.cleanupSession stamp with
      | (.error e, self) => (.error e, self)
      | (.ok (), self) => (.error (.notFound "Session has expired"), self)
    else
      match self.sshFiles.lookup (info.filename stamp) with
      | none => (.error (.notFound ("Private key file not found: " ++ info.filename stamp)), self)
      | some (.error e) => (.error (.io ("Failed to read private key: " ++ e)), self)
      | some (.ok privateKey) => (.ok { info with privateKey := privateKey }, self)

def storePrivateKey (keyPair : SshKeyPair) : Except FleetingDnsError Unit × KeyDirectory :=
  let write (self : KeyDirectory) (text : Except String String) : KeyDirectory :=
    { self with sshFiles := self.sshFiles.insert (keyPair.filename stamp) text }
  match self.faults.createDir, self.faults.writeKey with
  | some e, _ => (.error (.io ("Failed to create SSH directory: " ++ e)), self)
  | none, some fault => (.error (.io ("Failed to write private key: " ++ fault.error)), fault.left.elim self (write self))
  | none, none =>
    let self := write self (.ok keyPair.privateKey)
    match self.faults.permissions, self.faults.writeInfo with
    | some e, _ => (.error (.io e), self)
    | none, some fault =>
      (.error (.io ("Failed to write session info: " ++ fault.error)),
        { self with sessionInfo := fault.left.or self.sessionInfo })
    | none, none => (.ok (), { self with sessionInfo := some (.data { keyPair with privateKey := "" }) })

def requestKeyPair (request : TunnelRequest) (answer : ApiAnswer) (now : ℕ) :
    Except FleetingDnsError SshKeyPair × KeyDirectory :=
  match answer with
  | .unsent e => (.error (.externalService ("Failed to send request: " ++ e)), self)
  | .status errorText => (.error (.externalService ("API error: " ++ errorText)), self)
  | .unparsed e => (.error (.externalService ("Failed to parse response: " ++ e)), self)
  | .tunnel response => match response.keyPair request.ttl now with
    | .error e => (.error e, self)
    | .ok keyPair => match self.storePrivateKey stamp keyPair with
      | (.error e, self) => (.error e, self)
      | (.ok (), self) => (.ok keyPair, self)

def getOrRequestKeyPair (request : TunnelRequest) (api : TunnelRequest → ApiAnswer)
    (now later : ℕ) : Except FleetingDnsError SshKeyPair × KeyDirectory :=
  match self.loadExistingKeyPair stamp now with
  | (.ok keyPair, self) => (.ok keyPair, self)
  | (.error (.notFound _), self) => self.requestKeyPair stamp request (api request) later
  | (.error e, self) => (.error e, self)

end

end KeyDirectory

end

/-- The session has the name asked for and lives no longer than asked for. -/
structure Asked (domain name : String) (ttl now : ℕ) (keyPair : SshKeyPair) : Prop where
  subdomain : keyPair.subdomain = some name
  fqdn : keyPair.fqdn = some (name ++ "." ++ domain)
  lifetime : keyPair.expiresAt ≤ now + ttl * second

/-- What `CreateTunnelResponse` says of a request that is honoured; it has no member `subdomain`. -/
structure Granted (domain : String) (now : ℕ) (request : TunnelRequest) (response : TunnelResponse) : Prop where
  fqdn : ∀ subdomain, request.customSubdomain = some subdomain → response.fqdn = some (subdomain ++ "." ++ domain)
  lifetime : ∀ expiresAt, response.expiresAt = some expiresAt → expiresAt ≤ now + request.ttl * second
  unnamed : response.subdomain = none

def Honours (domain : String) (now : ℕ) (request : TunnelRequest) (answer : ApiAnswer) : Prop :=
  ∀ response, answer = .tunnel response → Granted domain now request response

structure Reusable (stamp : ℤ → String) (directory : KeyDirectory) (now : ℕ) (info : SshKeyPair) : Prop where
  stored : directory.sessionInfo = some (.data info)
  unexpired : now ≤ info.expiresAt
  key : ∃ privateKey, directory.sshFiles.lookup (info.filename stamp) = some (.ok privateKey)

variable {stamp : ℤ → String} {directory directory' : KeyDirectory} {request : TunnelRequest} {now later : ℕ}
  {keyPair : SshKeyPair} {domain subdomain : String}

lemma load_reusable {info : SshKeyPair} (h : Reusable stamp directory now info) :
    ∃ privateKey, directory.loadExistingKeyPair stamp now = (.ok { info with privateKey := privateKey }, directory) := by
  obtain ⟨hstored, hunexpired, privateKey, hkey⟩ := h
  refine ⟨privateKey, ?_⟩
  rw [KeyDirectory.loadExistingKeyPair, hstored]
  dsimp only
  rw [if_neg (by omega), hkey]

lemma load_error (h : ∀ info, ¬ Reusable stamp directory now info) :
    ∃ e, (directory.loadExistingKeyPair stamp now).1 = .error e := by
  unfold KeyDirectory.loadExistingKeyPair
  split
  · exact ⟨_, rfl⟩
  · exact ⟨_, rfl⟩
  · exact ⟨_, rfl⟩
  rename_i info hstored
  split_ifs with hexpired
  · split <;> exact ⟨_, rfl⟩
  · split
    · exact ⟨_, rfl⟩
    · exact ⟨_, rfl⟩
    · rename_i privateKey hkey
      exact absurd ⟨hstored, by omega, privateKey, hkey⟩ (h info)

lemma keyPair_subdomain {response : TunnelResponse} {ttl : ℕ} (h : response.keyPair ttl now = .ok keyPair) :
    keyPair.subdomain = response.subdomain := by
  have hbind {α β : Type} {x : Except FleetingDnsError α} {f : α → Except FleetingDnsError β} {b : β}
      (h : x >>= f = .ok b) : ∃ a, f a = .ok b := by
    cases x with
    | error => cases h
    | ok a => exact ⟨a, h⟩
  obtain ⟨_, h⟩ := hbind h
  obtain ⟨_, h⟩ := hbind h
  obtain ⟨_, h⟩ := hbind h
  obtain ⟨_, h⟩ := hbind h
  obtain ⟨_, h⟩ := hbind h
  obtain ⟨_, h⟩ := hbind h
  cases h
  rfl

lemma request_unnamed {answer : ApiAnswer} (hhonours : Honours domain now request answer)
    (h : directory.requestKeyPair stamp request answer now = (.ok keyPair, directory')) : keyPair.subdomain = none := by
  cases answer with
  | tunnel response =>
    simp only [KeyDirectory.requestKeyPair] at h
    split at h
    · cases h
    rename_i fresh hfresh
    split at h <;> cases h
    exact (keyPair_subdomain hfresh).trans (hhonours response rfl).unnamed
  | _ => cases h

theorem forwards_what_was_asked {api : TunnelRequest → ApiAnswer} (hhonours : Honours domain later request (api request))
    (h : directory.getOrRequestKeyPair stamp request api now later = (.ok keyPair, directory')) :
    Asked domain subdomain request.ttl later keyPair ↔
      ∃ info, Reusable stamp directory now info ∧ Asked domain subdomain request.ttl later info := by
  unfold KeyDirectory.getOrRequestKeyPair at h
  by_cases hreusable : ∃ info, Reusable stamp directory now info
  · obtain ⟨info, hinfo⟩ := hreusable
    obtain ⟨privateKey, hload⟩ := load_reusable hinfo
    rw [hload] at h
    cases h
    constructor
    · intro hasked
      exact ⟨info, hinfo, hasked.subdomain, hasked.fqdn, hasked.lifetime⟩
    · rintro ⟨info', hinfo', hasked⟩
      cases hinfo.stored.symm.trans hinfo'.stored
      exact ⟨hasked.subdomain, hasked.fqdn, hasked.lifetime⟩
  · have hnone : ∀ info, ¬ Reusable stamp directory now info := fun info hinfo => hreusable ⟨info, hinfo⟩
    refine iff_of_false ?_ fun ⟨info, hinfo, _⟩ => hnone info hinfo
    intro hasked
    obtain ⟨e, hload⟩ := load_error hnone
    split at h
    · rename_i heq
      rw [heq] at hload
      cases hload
    · cases (request_unnamed hhonours h).symm.trans hasked.subdomain
    · cases h

namespace Laptop

def home : KeyDirectory := ⟨"/home/dev/.edf/keys", none, ∅, ⟨none, none, none, none, none, none⟩⟩

def filestamp (_ : ℤ) : String := "20260101-000000"

def api (now : ℕ) (request : TunnelRequest) : ApiAnswer :=
  let subdomain := request.customSubdomain.getD "quick-fox"
  .tunnel ⟨some ⟨some "ssh-ed25519 A", some "private", none, some "SHA256:A"⟩, some (now + request.ttl * second),
    some subdomain, some 40001, some (subdomain ++ "." ++ "fleetingdns.run"), none⟩

def forward (directory : KeyDirectory) (now ttl : ℕ) (subdomain : String) :=
  directory.getOrRequestKeyPair filestamp ⟨3000, ttl, some subdomain⟩ (api now) now now

lemma api_honours (now port ttl : ℕ) (subdomain : String) :
    Honours "fleetingdns.run" now ⟨port, ttl, some subdomain⟩ (api now ⟨port, ttl, some subdomain⟩) := by
  rintro response ⟨⟩
  exact ⟨by rintro _ ⟨⟩; rfl, by rintro _ ⟨⟩; exact Int.le_refl _, rfl⟩

def stored : SshKeyPair :=
  ⟨"ssh-ed25519 A", "", "ed25519", "SHA256:A", 0, 600 * second, "t1", 40001, some "app.fleetingdns.run", some "app"⟩

/-- A key directory of another client, which has kept the subdomain. -/
def imported : KeyDirectory :=
  { home with sessionInfo := some (.data stored), sshFiles := (∅ : AList _).insert (stored.filename filestamp) (.ok "private") }

end Laptop

open Laptop

theorem forwards_what_was_asked_imported : ∃ keyPair directory,
    forward imported 0 600 "app" = (.ok keyPair, directory) ∧ Asked "fleetingdns.run" "app" 600 0 keyPair := by
  have hreusable : Reusable filestamp imported 0 stored := ⟨rfl, by decide +kernel, "private", AList.lookup_insert _⟩
  obtain ⟨privateKey, hload⟩ := load_reusable hreusable
  have hforward : forward imported 0 600 "app" = (.ok { stored with privateKey := privateKey }, imported) := by
    rw [forward, KeyDirectory.getOrRequestKeyPair, hload]
  refine ⟨_, _, hforward, (forwards_what_was_asked (api_honours 0 3000 600 "app") hforward).mpr ?_⟩
  exact ⟨stored, hreusable, rfl, by decide, by decide +kernel⟩

/-- The session of a first invocation has no subdomain, and a second one is handed the tunnel of the first: another
name, and an hour where ten minutes were asked. -/
theorem stored_session_forwarded : ∃ first keyPair directory, forward home 0 3600 "app" = (.ok first, directory) ∧
    first.subdomain = none ∧ ¬ Asked "fleetingdns.run" "app" 3600 0 first ∧
    forward directory 0 600 "shop" = (.ok keyPair, directory) ∧ keyPair.fqdn = some "app.fleetingdns.run" ∧
    ¬ Asked "fleetingdns.run" "shop" 600 0 keyPair ∧ ¬ keyPair.expiresAt ≤ 600 * second := by
  refine ⟨_, _, _, rfl, rfl, ?_, rfl, by decide, ?_, by decide +kernel⟩
  · rintro ⟨⟨⟩, -, -⟩
  · rintro ⟨⟨⟩, -, -⟩

end FleetingDns.Cli
