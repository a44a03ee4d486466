import FleetingDns.Library.JsonRecords
import FleetingDns.TunnelRecords
namespace FleetingDns

open JsonRecords Json Tunnel List Option TeardownPolicy

/-- The texts of identifiers and times: what is parsed as a UUID, and chrono's reading of what it writes. -/
structure Texts where
  parseUuid : String → Option String
  printUtc : ℤ → String
  parseUtc : String → Option ℤ
  parse_print : ∀ t, parseUtc (printUtc t) = some t

/-- A record as one side of the system decodes it, with its times and its status as that side keeps them. -/
structure DecodedTunnel (T S : Type) extends TunnelInfo where
  (createdAt expiresAt : T)
  status : S

abbrev TunnelInfoRecord := DecodedTunnel String String

structure FieldDecoders (T S : Type) where
  id : Json → Option String
  time : Json → Option T
  status : Json → Option S

def tunnelFields : List String :=
  ["id", "github_user_id", "github_username", "subdomain", "fqdn", "local_port", "slot", "certificate_serial", "created_at",
    "expires_at", "status", "protected", "teardown_policy"]

def TunnelStatus.text : TunnelStatus → String
  | creating => "creating"
  | active => "active"
  | destroying => "destroying"
  | expired => "expired"
  | error => "error"

def TunnelStatus.variants : List (String × TunnelStatus) :=
  [creating, active, destroying, expired, error].map fun status => (status.text, status)

def TeardownPolicy.text : TeardownPolicy → String
  | ttlOnly => "ttl_only"
  | viewerIdle => "viewer_idle"

def TeardownPolicy.variants : List (String × TeardownPolicy) :=
  [ttlOnly, viewerIdle].map fun policy => (policy.text, policy)

namespace Tunnel

def entries (texts : Texts) (t : Tunnel) : List (String × Json) :=
  [("id", .str t.id), ("github_user_id", .str t.githubUserId), ("github_username", .str t.githubUsername),
    ("subdomain", .str t.subdomain), ("fqdn", .str t.fqdn), ("local_port", .int t.localPort), ("slot", .int t.slot),
    ("certificate_serial", .str t.certificateSerial), ("created_at", .str (texts.printUtc t.createdAt)),
    ("expires_at", .str (texts.printUtc t.expiresAt)), ("status", .str t.status.text),
    ("protected", .bool t.protectedTunnel), ("teardown_policy", .str t.teardownPolicy.text)]

def serialize (texts : Texts) (t : Tunnel) : Json := .obj (t.entries texts)

end Tunnel

def DecodedTunnel.deserialize {T S : Type} (decoders : FieldDecoders T S) (j : Json) : Option (DecodedTunnel T S) := do
  let get ← fields tunnelFields j
  let id ← required get "id" decoders.id
  let githubUserId ← required get "github_user_id" asStr
  let githubUsername ← required get "github_username" asStr
  let subdomain ← required get "subdomain" asStr
  let fqdn ← required get "fqdn" asStr
  let localPort ← required get "local_port" asU16
  let slot ← required get "slot" asU16
  let certificateSerial ← required get "certificate_serial" asStr
  let createdAt ← required get "created_at" decoders.time
  let expiresAt ← required get "expires_at" decoders.time
  let status ← required get "status" decoders.status
  let protectedTunnel ← defaulted get "protected" false asBool
  let teardownPolicy ← defaulted get "teardown_policy" .ttlOnly (asVariant variants)
  return ⟨⟨id, githubUserId, githubUsername, subdomain, fqdn, localPort, slot, certificateSerial, protectedTunnel,
    teardownPolicy⟩, createdAt, expiresAt, status⟩

namespace Tunnel

def decoders (texts : Texts) : FieldDecoders ℤ TunnelStatus :=
  ⟨fun value => value.asStr.bind texts.parseUuid, fun value => value.asStr.bind texts.parseUtc,
    asVariant TunnelStatus.variants⟩

def ofDecoded (r : DecodedTunnel ℤ TunnelStatus) : Tunnel :=
  ⟨r.id, r.githubUserId, r.githubUsername, r.subdomain, r.fqdn, r.localPort, r.slot, r.certificateSerial, r.createdAt,
    r.expiresAt, r.status, r.protectedTunnel, r.teardownPolicy⟩

def deserialize (texts : Texts) (j : Json) : Option Tunnel :=
  (DecodedTunnel.deserialize (decoders texts) j).map ofDecoded

end Tunnel

def TunnelInfoRecord.deserialize (j : Json) : Option TunnelInfoRecord := DecodedTunnel.deserialize ⟨asStr, asStr, asStr⟩ j

/-- What the fields of a stored tunnel can hold: a canonical UUID and ports of sixteen bits. -/
structure Tunnel.Storable (texts : Texts) (t : Tunnel) : Prop where
  id : texts.parseUuid t.id = some t.id
  localPort : t.localPort < 2 ^ 16
  slot : t.slot < 2 ^ 16

section

variable {T S : Type} {texts : Texts} {get : String → Option Json} {t : Tunnel} {decoders : FieldDecoders T S}
    {r : DecodedTunnel T S} {j : Json}

structure DecodedTunnel.Reads (decoders : FieldDecoders T S) (get : String → Option Json) (r : DecodedTunnel T S) :
    Prop where
  id : required get "id" decoders.id = some r.id
  githubUserId : required get "github_user_id" asStr = some r.githubUserId
  githubUsername : required get "github_username" asStr = some r.githubUsername
  subdomain : required get "subdomain" asStr = some r.subdomain
  fqdn : required get "fqdn" asStr = some r.fqdn
  localPort : required get "local_port" asU16 = some r.localPort
  slot : required get "slot" asU16 = some r.slot
  certificateSerial : required get "certificate_serial" asStr = some r.certificateSerial
  createdAt : required get "created_at" decoders.time = some r.createdAt
  expiresAt : required get "expires_at" decoders.time = some r.expiresAt
  status : required get "status" decoders.status = some r.status
  protectedTunnel : defaulted get "protected" false asBool = some r.protectedTunnel
  teardownPolicy : defaulted get "teardown_policy" .ttlOnly (asVariant variants) = some r.teardownPolicy

lemma deserialize_eq_some : DecodedTunnel.deserialize decoders j = some r ↔
    ∃ get, fields tunnelFields j = some get ∧ r.Reads decoders get := by
  constructor
  · intro h
    dsimp only [DecodedTunnel.deserialize, bind] at h
    simp only [↓bind_eq_some_iff] at h
    obtain ⟨get, hget, id, hid, user, huser, username, husername, subdomain, hsubdomain, fqdn, hfqdn, localPort, hlocalPort,
      slot, hslot, serial, hserial, createdAt, hcreatedAt, expiresAt, hexpiresAt, status, hstatus, prot, hprot, policy,
      hpolicy, h⟩ := h
    cases h
    exact ⟨get, hget, hid, huser, husername, hsubdomain, hfqdn, hlocalPort, hslot, hserial, hcreatedAt, hexpiresAt,
      hstatus, hprot, hpolicy⟩
  · rintro ⟨get, hget, hr⟩
    dsimp only [DecodedTunnel.deserialize, bind]
    simp only [hget, bind_some, hr.id, hr.githubUserId, hr.githubUsername, hr.subdomain, hr.fqdn, hr.localPort,
      hr.slot, hr.certificateSerial, hr.createdAt, hr.expiresAt, hr.status, hr.protectedTunnel, hr.teardownPolicy]
    rfl

lemma asVariant_status (status : TunnelStatus) : asVariant TunnelStatus.variants (.str status.text) = some status := by
  cases status <;> rfl

lemma asVariant_policy (policy : TeardownPolicy) :
    asVariant variants (.str policy.text) = some policy := by
  cases policy <;> rfl

lemma asU16_int {n : ℕ} (h : n < 2 ^ 16) : asU16 (.int n) = some n := by
  have hrange : (0 : ℤ) ≤ n ∧ (n : ℤ) < 2 ^ 16 := by omega
  simp only [asU16, if_pos hrange, Int.toNat_natCast]

lemma tunnelFields_nodup : tunnelFields.Nodup := by decide

lemma serialize_get (texts : Texts) (t : Tunnel) :
    fields tunnelFields (t.serialize texts) = some fun name => (t.entries texts).lookup name := by
  rw [serialize, fields, if_pos]
  intro name _
  have hcount : (t.entries texts).countP (·.1 == name) = tunnelFields.count name := by
    rfl
  exact nodup_iff_count_le_one.mp tunnelFields_nodup name

lemma decoded_serialize {createdAt expiresAt : T} {status : S} (ht : t.Storable texts)
    (hid : decoders.id (.str t.id) = some t.id)
    (hcreated : decoders.time (.str (texts.printUtc t.createdAt)) = some createdAt)
    (hexpires : decoders.time (.str (texts.printUtc t.expiresAt)) = some expiresAt)
    (hstatus : decoders.status (.str t.status.text) = some status) :
    DecodedTunnel.deserialize decoders (t.serialize texts) = some ⟨t.info, createdAt, expiresAt, status⟩ := by
  refine deserialize_eq_some.mpr ⟨_, serialize_get texts t, ?_⟩
  constructor
  case localPort => exact required_eq (by simp [entries, lookup_cons, info]) (asU16_int ht.localPort)
  case slot => exact required_eq (by simp [entries, lookup_cons, info]) (asU16_int ht.slot)
  all_goals
    simp [required, defaulted, entries, lookup_cons, asStr, asBool, info, asVariant_policy, hid,
      hcreated, hexpires, hstatus]

lemma Tunnel.deserialize_serialize (ht : t.Storable texts) : deserialize texts (t.serialize texts) = some t := by
  rw [deserialize, decoded_serialize ht ht.id (texts.parse_print _) (texts.parse_print _)
    (asVariant_status t.status)]
  rfl

end

section

variable {T S : Type} {texts : Texts} {get : String → Option Json} {t : Tunnel} {decoders : FieldDecoders T S}
    {r : DecodedTunnel T S} {j : Json} {i : TunnelInfo}

def optionalFields : List String := ["protected", "teardown_policy"]

variable {dropped : List String} {name : String}

lemma required_kept {α : Type} (hd : dropped ⊆ optionalFields) (hname : name ∉ optionalFields)
    (decode : Json → Option α) :
    required (fun name => if name ∈ dropped then none else get name) name decode = required get name decode := by
  rw [required, if_neg fun h => hname (hd h), required]

lemma defaulted_dropped {α : Type} {default x : α} {decode : Json → Option α}
    (h : defaulted get name default decode = some x) :
    defaulted (fun name => if name ∈ dropped then none else get name) name default decode =
      some (if name ∈ dropped then default else x) := by
  by_cases hname : name ∈ dropped
  · simp [defaulted, hname]
  · simpa [defaulted, hname] using h

def Tunnel.dropping (t : Tunnel) (dropped : List String) : Tunnel :=
  { t with
    protectedTunnel := if "protected" ∈ dropped then false else t.protectedTunnel
    teardownPolicy := if "teardown_policy" ∈ dropped then .ttlOnly else t.teardownPolicy }

def DecodedTunnel.dropping (r : DecodedTunnel T S) (dropped : List String) : DecodedTunnel T S :=
  { r with
    protectedTunnel := if "protected" ∈ dropped then false else r.protectedTunnel
    teardownPolicy := if "teardown_policy" ∈ dropped then .ttlOnly else r.teardownPolicy }

lemma deserialize_dropping {entries : List (String × Json)} (hd : dropped ⊆ optionalFields)
    (h : DecodedTunnel.deserialize decoders (.obj entries) = some r) :
    DecodedTunnel.deserialize decoders (without dropped (.obj entries)) = some (r.dropping dropped) := by
  obtain ⟨get, hget, hr⟩ := deserialize_eq_some.mp h
  refine deserialize_eq_some.mpr ⟨_, fields_without dropped hget, ?_⟩
  constructor
  case protectedTunnel => exact defaulted_dropped hr.protectedTunnel
  case teardownPolicy => exact defaulted_dropped hr.teardownPolicy
  all_goals rw [required_kept hd (by decide)]
  · exact hr.id
  · exact hr.githubUserId
  · exact hr.githubUsername
  · exact hr.subdomain
  · exact hr.fqdn
  · exact hr.localPort
  · exact hr.slot
  · exact hr.certificateSerial
  · exact hr.createdAt
  · exact hr.expiresAt
  · exact hr.status

lemma reads_optional (h : r.Reads decoders get) :
    (get "protected" = none → r.protectedTunnel = false) ∧ (get "teardown_policy" = none → r.teardownPolicy = .ttlOnly) ∧
      ∀ b, get "protected" = some (.bool b) → r.protectedTunnel = b := by
  refine ⟨?_, ?_, ?_⟩
  · intro hnone
    exact defaulted_missing hnone h.protectedTunnel
  · intro hnone
    exact defaulted_missing hnone h.teardownPolicy
  · intro b hb
    have hprot := h.protectedTunnel
    rw [defaulted, hb] at hprot
    exact (Option.some.inj hprot).symm

lemma deserialize_optional (h : DecodedTunnel.deserialize decoders j = some r) :
    (Lacks tunnelFields "protected" j → r.protectedTunnel = false) ∧
    (Lacks tunnelFields "teardown_policy" j → r.teardownPolicy = .ttlOnly) ∧
    ∀ entries, j = .obj entries → ("protected", .bool true) ∈ entries → r.protectedTunnel = true := by
  obtain ⟨get, hget, hr⟩ := deserialize_eq_some.mp h
  obtain ⟨hprot, hpolicy, hvalue⟩ := reads_optional hr
  refine ⟨fun h => hprot (fields_lacks h hget), fun h => hpolicy (fields_lacks h hget), ?_⟩
  rintro entries rfl hmem
  exact hvalue true (fields_mem (by decide) hmem hget)

def Decodes (texts : Texts) (j : Json) (i : TunnelInfo) : Prop :=
  (∃ t, deserialize texts j = some t ∧ t.info = i) ∨
    ∃ r, TunnelInfoRecord.deserialize j = some r ∧ r.toTunnelInfo = i

end

theorem tunnel_records_agree (texts : Texts) :
    (∀ t : Tunnel, t.Storable texts → ∃ r, TunnelInfoRecord.deserialize (t.serialize texts) = some r ∧
      r.toTunnelInfo = t.info) ∧
    (∀ t : Tunnel, t.Storable texts → ∀ dropped ⊆ optionalFields,
      deserialize texts (without dropped (t.serialize texts)) = some (t.dropping dropped) ∧
      ∃ r, TunnelInfoRecord.deserialize (without dropped (t.serialize texts)) = some r ∧
        r.toTunnelInfo = (t.dropping dropped).info) ∧
    ∀ j i, Decodes texts j i →
      (Lacks tunnelFields "protected" j → i.protectedTunnel = false) ∧
      (Lacks tunnelFields "teardown_policy" j → i.teardownPolicy = .ttlOnly) ∧
      ∀ entries, j = .obj entries → ("protected", .bool true) ∈ entries → i.protectedTunnel = true := by
  have hwrites : ∀ t : Tunnel, t.Storable texts → TunnelInfoRecord.deserialize (t.serialize texts) =
      some ⟨t.info, texts.printUtc t.createdAt, texts.printUtc t.expiresAt, t.status.text⟩ := by
    intro t ht
    exact decoded_serialize ht rfl rfl rfl rfl
  refine ⟨?_, ?_, ?_⟩
  · intro t ht
    exact ⟨_, hwrites t ht, rfl⟩
  · intro t ht dropped hd
    refine ⟨?_, _, deserialize_dropping hd (hwrites t ht), rfl⟩
    obtain ⟨r, hr, rfl⟩ := map_eq_some_iff.mp (deserialize_serialize ht)
    exact map_eq_some_iff.mpr ⟨_, deserialize_dropping hd hr, rfl⟩
  · rintro j i (⟨t, ht, rfl⟩ | ⟨r, hr, rfl⟩)
    · obtain ⟨r, hr, rfl⟩ := map_eq_some_iff.mp ht
      exact deserialize_optional hr
    · exact deserialize_optional hr

namespace Schedule

def tunnelId : String := "67e55044-10b1-426f-9247-bb680e5fe0c8"

def printUtc (t : ℤ) : String :=
  if t = 0 then "1970-01-01T00:00:00Z"
  else String.ofList ((if 0 < t then '+' else '-') :: List.replicate t.natAbs '1')

def parseUtc (s : String) : Option ℤ :=
  match s.toList with
  | '+' :: digits => some digits.length
  | '-' :: digits => some (-digits.length)
  | _ => some 0

lemma parse_printUtc (t : ℤ) : parseUtc (printUtc t) = some t := by
  rcases Int.lt_trichotomy t 0 with hneg | rfl | hpos
  · have hne : t ≠ 0 := by omega
    have hle : ¬ 0 < t := by omega
    simp only [printUtc, if_neg hne, if_neg hle, parseUtc, String.toList_ofList, length_replicate, Option.some.injEq]
    omega
  · rfl
  · have hne : t ≠ 0 := by omega
    simp only [printUtc, if_neg hne, if_pos hpos, parseUtc, String.toList_ofList, length_replicate, Option.some.injEq]
    omega

def texts : Texts := ⟨fun s => if s = tunnelId then some s else none, printUtc, parseUtc, parse_printUtc⟩

def guarded : Tunnel :=
  ⟨tunnelId, "583231", "octocat", "app", "app.fleetingdns.run", 3000, 10000, "0a", 0, 0, .active, true, .viewerIdle⟩

end Schedule

open Schedule

theorem tunnel_records_agree_guarded :
    (∃ r, TunnelInfoRecord.deserialize (guarded.serialize texts) = some r ∧ r.toTunnelInfo = guarded.info) ∧
    ∃ r, TunnelInfoRecord.deserialize (without ["teardown_policy"] (guarded.serialize texts)) = some r ∧
      r.toTunnelInfo = { guarded.info with teardownPolicy := .ttlOnly } := by
  have hstorable : guarded.Storable texts := ⟨rfl, by decide, by decide⟩
  obtain ⟨hwritten, hdropped, -⟩ := tunnel_records_agree texts
  exact ⟨hwritten guarded hstorable, (hdropped guarded hstorable ["teardown_policy"] (by decide)).2⟩

end FleetingDns
