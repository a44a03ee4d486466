import FleetingDns.ApiRoutes
import FleetingDns.CaSteps
import FleetingDns.Library.Mutex
namespace FleetingDns.CertificateManager

open CommandPrograms ExpiringStore ThreadPool ServerPool GuardedRuns Mutex EdfCa List

structure CertificateInfo where
  subjectAltNames : List String
  (certificate privateKey : ByteArray)
  expiresAt : ℤ
  serialNumber : String

structure CertificateConfig where
  rootDomain : String
  (validityDuration renewBefore : ℤ)
  includeLocalhost : Bool

def CertificateConfig.default : CertificateConfig := ⟨"fleetingdns.run", 3600 * second, 600 * second, true⟩

def CertificateConfig.caConfig (config : CertificateConfig) (defaults : CaConfig) : CaConfig :=
  { defaults with defaultTtl := config.validityDuration, maxTtl := max config.validityDuration defaults.maxTtl }

inductive Cmd where
  | lock
  | cached
  | setCached (info : CertificateInfo)
  | ca (c : EdfCa.Cmd)

@[reducible] def Cmd.Reply : Cmd → Type
  | lock | setCached _ => Unit
  | cached => Option CertificateInfo
  | ca c => c.Reply

abbrev Program := Prog Cmd Cmd.Reply

def ofCa (c : EdfCa.Cmd) : Program c.Reply := Prog.issue (R := Cmd.Reply) (.ca c)

inductive CertificateError where
  | failed (msg : String)
  | panicked (msg : String)
  deriving DecidableEq

abbrev Manager := ExceptT CertificateError Program

def ask (c : Cmd) : Manager c.Reply := ExceptT.lift (Prog.issue c)

section

variable (config : CertificateConfig)

def subjectAltNames : List String :=
  ["*." ++ config.rootDomain, config.rootDomain] ++ if config.includeLocalhost then ["localhost"] else []

def needsRenewal (cert : CertificateInfo) (now : ℕ) : Bool :=
  decide (cert.expiresAt - now ≤ config.renewBefore)

def ofCaError (primary : String) : EdfCa.CaError → CertificateError
  | .panicked msg => .panicked msg
  | e => .failed ("CA failed to issue wildcard certificate for " ++ primary ++ ": " ++ ApiServer.caErrorText e)

def issue (ca : EdfCa.Config) : Manager CertificateInfo := do
  let sans := subjectAltNames config
  match sans with
  | [] => throw (.panicked "subject_alt_names always yields at least the wildcard")
  | primary :: extra =>
    match ← ExceptT.lift ((issueServerCertificate ca primary extra (some config.validityDuration)).run.expand ofCa) with
    | .error e => throw (ofCaError primary e)
    | .ok ephemeral =>
      return ⟨sans, ephemeral.certificatePem.toUTF8, ephemeral.privateKeyPem.toUTF8, ephemeral.metadata.expiresAt,
        ephemeral.metadata.serialNumber⟩

def renew (ca : EdfCa.Config) : Manager CertificateInfo := do
  let fresh ← issue config ca
  ask (.setCached fresh)
  return fresh

def certificate (ca : EdfCa.Config) : Manager CertificateInfo := do
  ask .lock
  match ← ask .cached with
  | some current =>
    let now ← ask (.ca .utcNow)
    if needsRenewal config current now then renew config ca else return current
  | none => renew config ca

end

inductive Call where
  | certificate
  | ca (call : EdfCa.Call)

inductive Done where
  | returned (r : Except CertificateError CertificateInfo)
  | ca (done : EdfCa.Done)
  | dropped

def Call.program (config : CertificateConfig) (ca : EdfCa.Config) : Call → Program Done
  | .certificate => do return .returned (← (CertificateManager.certificate config ca).run)
  | .ca call => do return .ca (← (call.program ca).expand ofCa)

structure ManagerState where
  ca : EdfCa.CaState
  cached : Option CertificateInfo

namespace ManagerState

def now (s : ManagerState) : ℕ := s.ca.now

def perform (s : ManagerState) : (c : Cmd) → EdfCa.Choice → Option (ManagerState × c.Reply)
  | .lock, .plain => some (s, ())
  | .cached, .plain => some (s, s.cached)
  | .setCached info, .plain => some ({ s with cached := some info }, ())
  | .ca c, o => (s.ca.perform c o).map fun r => ({ s with ca := r.1 }, r.2)
  | _, _ => none

def accept (s : ManagerState) : Call → Option ManagerState
  | .certificate => some s
  | .ca call => (s.ca.accept call).map fun ca => { s with ca := ca }

end ManagerState

def manager (config : CertificateConfig) (ca : EdfCa.Config) :
    Service ManagerState Call Cmd Cmd.Reply Done EdfCa.Choice ℕ where
  program := Call.program config ca
  perform := ManagerState.perform
  accept := ManagerState.accept
  drift s d := some { s with ca := { s.ca with now := s.ca.now + d } }
  restart _ := none
  stopped := .dropped

abbrev Ev := Event ManagerState Cmd Cmd.Reply

abbrev ManagerThread := Thread ManagerState Call Cmd Cmd.Reply Done

abbrev ManagerPool := Pool ManagerState Call Cmd Cmd.Reply Done

abbrev Action := Act Call EdfCa.Choice ℕ

def locks : Cmd → Bool
  | .lock => true
  | _ => false

section

inductive Due (config : CertificateConfig) : List Ev → Prop
  | empty {t t' : Span ManagerState} : Due config [⟨t, .lock, ()⟩, ⟨t', .cached, none⟩]
  | near {t t' t'' : Span ManagerState} {current : CertificateInfo} {now : ℕ}
      (left : current.expiresAt - now ≤ config.renewBefore) :
      Due config [⟨t, .lock, ()⟩, ⟨t', .cached, some current⟩, ⟨t'', .ca .utcNow, now⟩]

def Asks (es : List Ev) : Prop := ∀ e ∈ es, ∃ c, e.cmd = .ca c

def IssuedAt (config : CertificateConfig) (es : List Ev) (expiresAt : ℤ) (now : ℕ) : Prop :=
  (∃ t, (⟨t, .ca .utcNow, now⟩ : Ev) ∈ es) ∧ expiresAt = now + config.validityDuration

abbrev Stamped (config : CertificateConfig) (es : List Ev) (expiresAt : ℤ) : Prop := ∃ now, IssuedAt config es expiresAt now

inductive May (config : CertificateConfig) : Call → List Ev → Cmd → Prop
  | lock : May config .certificate [] .lock
  | cached {t : Span ManagerState} : May config .certificate [⟨t, .lock, ()⟩] .cached
  | check {t t' : Span ManagerState} {current : CertificateInfo} :
      May config .certificate [⟨t, .lock, ()⟩, ⟨t', .cached, some current⟩] (.ca .utcNow)
  | issue {h es : List Ev} {c : EdfCa.Cmd} (due : Due config h) (asks : Asks es) :
      May config .certificate (h ++ es) (.ca c)
  | store {h es : List Ev} {fresh : CertificateInfo} (due : Due config h) (asks : Asks es)
      (stamped : Stamped config es fresh.expiresAt) : May config .certificate (h ++ es) (.setCached fresh)
  | ca {call : EdfCa.Call} {h : List Ev} {c : EdfCa.Cmd} (asks : Asks h) : May config (.ca call) h (.ca c)

inductive Ends (config : CertificateConfig) : Call → List Ev → Done → Prop
  | read {t t' t'' : Span ManagerState} {current : CertificateInfo} {now : ℕ}
      (left : config.renewBefore < current.expiresAt - now) :
      Ends config .certificate [⟨t, .lock, ()⟩, ⟨t', .cached, some current⟩, ⟨t'', .ca .utcNow, now⟩]
        (.returned (.ok current))
  | issued {h es : List Ev} {t : Span ManagerState} {fresh : CertificateInfo} (due : Due config h) (asks : Asks es)
      (stamped : Stamped config es fresh.expiresAt) :
      Ends config .certificate (h ++ es ++ [⟨t, .setCached fresh, ()⟩]) (.returned (.ok fresh))
  | failed {h es : List Ev} {e : CertificateError} (due : Due config h) (asks : Asks es) :
      Ends config .certificate (h ++ es) (.returned (.error e))
  | ca {call : EdfCa.Call} {h : List Ev} {done : EdfCa.Done} : Ends config (.ca call) h (.ca done)
  | dropped {call : Call} {h : List Ev} : Ends config call h .dropped

end

section

def Notes (l : List ℕ) (c : EdfCa.Cmd) (r : c.Reply) (l' : List ℕ) : Prop :=
  l' = match c, r with
    | .utcNow, now => now :: l
    | _, _ => l

lemma notes_mem {l l' : List ℕ} {c : EdfCa.Cmd} {r : c.Reply} {now : ℕ} (h : Notes l c r l') (hm : now ∈ l) : now ∈ l' := by
  unfold Notes at h
  split at h <;> rw [h]
  · exact mem_cons_of_mem _ hm
  · exact hm

def StampedBy (ttl : ℤ) (l : List ℕ) (r : Except EdfCa.CaError EdfCa.EphemeralCertificate) : Prop :=
  ∀ cert, r = .ok cert → ∃ now ∈ l, cert.metadata.expiresAt = now + ttl

lemma stampedBy_error {ttl : ℤ} (l : List ℕ) (e : EdfCa.CaError) : StampedBy ttl l (.error e) := nofun

variable {ca : EdfCa.Config} {l : List ℕ}

lemma stamped_generateCertificate (request : EdfCa.CertificateRequest) :
    Meets Notes (fun _ _ => True) (StampedBy request.validityDuration) (generateCertificate ca request).run l := by
  refine meets_lift_issue trivial ?_
  rintro (e | signed) l1 -
  · exact meets_throw (stampedBy_error _ _)
  dsimp only
  obtain _ | _ := calculateFingerprint ca.x509 signed.certificatePem
  · exact meets_throw (stampedBy_error _ _)
  refine meets_except_seq (meets_any (fun _ _ => trivial) (fun _ _ => trivial) _ _) ?_
    fun _ e _ => stampedBy_error _ e
  intro l2 serial _
  refine meets_lift_issue trivial ?_
  rintro now l3 rfl
  rcases hexpires : addUtc now request.validityDuration with _ | _
  · exact meets_throw (stampedBy_error _ _)
  refine meets_lift_issue trivial ?_
  rintro (e | chain) l4 hl4
  · exact meets_throw (stampedBy_error _ _)
  · refine .ret ?_
    rintro cert ⟨⟩
    exact ⟨now, notes_mem hl4 mem_cons_self, addUtc_some hexpires⟩

lemma stamped_issueTo (clientId : String) (ttl : ℤ) (request : ℤ → EdfCa.CertificateRequest)
    (hrequest : ∀ d, (request d).validityDuration = d) :
    Meets Notes (fun _ _ => True) (StampedBy ttl) (issueTo ca clientId (some ttl) request).run l := by
  have hany {α : Type} (x : EdfCa.Ca α) (l : List ℕ) :
      Meets Notes (fun _ _ => True) (fun _ _ => True) x.run l :=
    meets_any (fun _ _ => trivial) (fun _ _ => trivial) _ _
  refine meets_except_seq (hany _ l) ?_ fun _ e _ => stampedBy_error _ e
  intro l1 _ _
  refine meets_except_seq (hany _ l1) ?_ fun _ e _ => stampedBy_error _ e
  intro l2 _ _
  refine meets_except_seq (stamped_generateCertificate _) ?_ fun _ e _ => stampedBy_error _ e
  intro l3 cert hcert
  obtain ⟨now, hmem, hexpires⟩ := hcert cert rfl
  rw [hrequest] at hexpires
  have hkept {α : Type} (x : EdfCa.Ca α) {l : List ℕ} (hl : now ∈ l) :
      Meets Notes (fun _ _ => True) (fun l' _ => now ∈ l') x.run l :=
    meets_invariant (fun _ _ _ _ h => notes_mem h) _ hl
  refine meets_except_seq (hkept _ hmem) ?_ fun _ e _ => stampedBy_error _ e
  intro l4 issuedAt hmem
  refine meets_except_seq (hkept _ hmem) ?_ fun _ e _ => stampedBy_error _ e
  intro l5 _ hmem
  refine meets_except_seq (hkept _ hmem) ?_ fun _ e _ => stampedBy_error _ e
  intro l6 _ hmem
  refine .ret ?_
  rintro _ ⟨⟩
  exact ⟨now, hmem, hexpires⟩

lemma withSan_validity (sans : List String) (request : EdfCa.CertificateRequest) :
    (sans.foldl EdfCa.CertificateRequest.withSan request).validityDuration = request.validityDuration := by
  induction sans generalizing request with
  | nil => rfl
  | cons san sans ih => exact ih _

lemma stamped_issueServerCertificate (fqdn : String) (extraSans : List String) (ttl : ℤ) :
    Meets Notes (fun _ _ => True) (StampedBy ttl) (issueServerCertificate ca fqdn extraSans (some ttl)).run l := by
  refine meets_except_seq (meets_any (fun _ _ => trivial) (fun _ _ => trivial) _ _) ?_
    fun _ e _ => stampedBy_error _ e
  intro l1 _ _
  exact stamped_issueTo fqdn ttl _ fun d => withSan_validity _ _

end

section

variable {config : CertificateConfig} {ca : EdfCa.Config} {h es : List Ev}

lemma asks_nil : Asks [] := by
  rintro e ⟨⟩

lemma Asks.snoc (ha : Asks es) (t : Span ManagerState) (c : EdfCa.Cmd) (r : c.Reply) : Asks (es ++ [⟨t, .ca c, r⟩]) := by
  intro e he
  obtain he | rfl := mem_snoc.mp he
  · exact ha e he
  · exact ⟨c, rfl⟩

def Asked (h : List Ev) (l : List ℕ) (h' : List Ev) : Prop :=
  ∃ es, h' = h ++ es ∧ Asks es ∧ ∀ now ∈ l, ∃ t, (⟨t, .ca .utcNow, now⟩ : Ev) ∈ es

lemma obeys_ofCa {l : List ℕ} {h' : List Ev} (due : Due config h) (hasked : Asked h l h') (c : EdfCa.Cmd) :
    Obeys (May config .certificate) (fun h'' r => ∃ l', Notes l c r l' ∧ Asked h l' h'') (ofCa c) h' := by
  obtain ⟨es, rfl, hes, hl⟩ := hasked
  refine .call (.issue due hes) ?_
  rintro r _ ⟨t, rfl⟩
  refine .ret ⟨_, rfl, es ++ [⟨t, .ca c, r⟩], append_assoc _ _ _, hes.snoc t c r, ?_⟩
  intro now hnow
  have hold : now ∈ l → ∃ t', ⟨t', .ca .utcNow, now⟩ ∈ es ++ [⟨t, .ca c, r⟩] := by
    intro hmem
    obtain ⟨t', ht'⟩ := hl now hmem
    exact ⟨t', mem_append_left _ ht'⟩
  split at hnow
  · obtain rfl | hmem := mem_cons.mp hnow
    · exact ⟨t, mem_concat_self⟩
    · exact hold hmem
  · exact hold hnow

lemma obeys_issue (due : Due config h) :
    Obeys (May config .certificate) (fun h' r => ∃ es, h' = h ++ es ∧ Asks es ∧
      ∀ fresh, r = .ok fresh → Stamped config es fresh.expiresAt) (issue config ca).run h := by
  refine meets_except_seq (M := fun h' r => ∃ r', r = .ok r' ∧ ∃ l, Asked h l h' ∧ StampedBy config.validityDuration l r')
    (meets_lift ?_) ?_ ?_
  · refine meets_mono (fun _ _ hc => hc) ?_ (meets_expand (K := Asked h) (fun _ _ c hasked _ => obeys_ofCa due hasked c)
      (stamped_issueServerCertificate (l := []) _ _ _) ⟨[], (append_nil h).symm, asks_nil, by rintro now ⟨⟩⟩)
    rintro h' r ⟨l, hasked, hstamped⟩
    exact ⟨r, rfl, l, hasked, hstamped⟩
  · rintro h' r ⟨_, ⟨⟩, l, ⟨es, rfl, hes, hl⟩, hstamped⟩
    cases r with
    | error => exact .ret ⟨es, rfl, hes, nofun⟩
    | ok ephemeral =>
      refine .ret ⟨es, rfl, hes, ?_⟩
      rintro _ ⟨⟩
      obtain ⟨now, hmem, hexpires⟩ := hstamped ephemeral rfl
      exact ⟨now, hl now hmem, hexpires⟩
  · rintro h' e ⟨_, ⟨⟩, -⟩

lemma obeys_renew (due : Due config h) :
    Obeys (May config .certificate) (fun h' r => Ends config .certificate h' (.returned r)) (renew config ca).run h := by
  refine meets_except_seq (obeys_issue due) ?_ ?_
  · rintro h' fresh ⟨es, rfl, hes, hstamped⟩
    refine meets_lift_issue (.store due hes (hstamped fresh rfl)) ?_
    rintro ⟨⟩ _ ⟨t, rfl⟩
    exact .ret (.issued due hes (hstamped fresh rfl))
  · rintro h' e ⟨es, rfl, hes, -⟩
    exact .failed due hes

lemma obeys_certificate :
    Obeys (May config .certificate) (fun h' r => Ends config .certificate h' (.returned r)) (certificate config ca).run [] := by
  refine meets_lift_issue .lock ?_
  rintro ⟨⟩ _ ⟨t, rfl⟩
  refine meets_lift_issue .cached ?_
  rintro (_ | current) _ ⟨t', rfl⟩
  · exact obeys_renew .empty
  refine meets_lift_issue .check ?_
  rintro now _ ⟨t'', rfl⟩
  split_ifs with hrenew
  · exact obeys_renew (.near (decide_eq_true_iff.mp hrenew))
  · exact .ret (.read (Int.not_le.mp (mt decide_eq_true_iff.mpr hrenew)))

lemma obeys_program (call : Call) : Obeys (May config call) (Ends config call) (call.program config ca) [] := by
  obtain _ | call := call
  · exact meets_seq obeys_certificate fun _ _ hends => .ret hends
  have honly : Only (fun c => ∃ c', c = .ca c') ((call.program ca).expand ofCa) :=
    only_expand (fun c _ => only_issue ⟨c, rfl⟩) (only_any (fun _ => trivial) _)
  refine meets_seq (meets_only ?_ ?_ honly asks_nil) fun _ _ _ => .ret .ca
  · rintro h _ ⟨c, rfl⟩ hes
    exact .ca hes
  · rintro h _ t r ⟨c, rfl⟩ hes
    exact hes.snoc t c r

end

end FleetingDns.CertificateManager
