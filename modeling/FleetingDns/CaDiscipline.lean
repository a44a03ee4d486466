import FleetingDns.CaServer
namespace FleetingDns.EdfCa

open CommandPrograms ExpiringStore ThreadPool List CertificateRegistry

def records : Cmd → Bool
  | .recordIssuance _ => true
  | _ => false

def persists : Cmd → Bool
  | .store (.setEx _ _ _) => true
  | _ => false

def inserts : Cmd → Bool
  | .insertActive _ _ => true
  | _ => false

def Clean (h : List Ev) : Prop := ∀ e ∈ h, (records e.cmd || persists e.cmd || inserts e.cmd) = false

def Unrecorded (h : List Ev) : Prop := ∀ e ∈ h, records e.cmd = false

def hanging (h : List Ev) : Bool := h.getLast?.any fun e => persists e.cmd

def Checked (clientId : String) (h : List Ev) : Prop := ∃ t h0, h = ⟨t, .isRateLimited clientId, false⟩ :: h0

def Named (serial : String) (h : List Ev) : Prop := ∃ t bytes, (⟨t, .newUuid, bytes⟩ : Ev) ∈ h ∧ uuidText bytes = serial

def Registers (call : Call) (h : List Ev) (cert : ActiveCertificate) : Prop :=
  call = .registerCertificate cert ∨ (Named cert.metadata.serialNumber h ∧ inCalendar cert.metadata.expiresAt)

def Found (serial : String) (cert : ActiveCertificate) (h : List Ev) : Prop :=
  (∃ t, (⟨t, .lookupActive serial, some cert⟩ : Ev) ∈ h) ∨
    ∃ t record, (⟨t, .store (.get (certKey serial)), .ok (some record)⟩ : Ev) ∈ h ∧ record.asCertificate = some cert

inductive Reads (config : Config) (serial : String) : List Ev → Option ActiveCertificate → Prop
  | cached (t : Span CaState) (cert : ActiveCertificate) : Reads config serial [⟨t, .lookupActive serial, some cert⟩] (some cert)
  | unstored (t : Span CaState) (hp : config.persistent = false) : Reads config serial [⟨t, .lookupActive serial, none⟩] none
  | missing (t t' : Span CaState) (r : Except String (Option Record))
      (hr : ∀ record, r = .ok (some record) → record.asCertificate = none) :
      Reads config serial [⟨t, .lookupActive serial, none⟩, ⟨t', .store (.get (certKey serial)), r⟩] none
  | stored (t t' t'' : Span CaState) (record : Record) (cert : ActiveCertificate) (hr : record.asCertificate = some cert) :
      Reads config serial [⟨t, .lookupActive serial, none⟩, ⟨t', .store (.get (certKey serial)), .ok (some record)⟩,
        ⟨t'', .repopulate serial cert, ()⟩] (some cert)

def MayPersist (call : Call) (h : List Ev) (k : String) (v : Record) (ttl : ℕ) : Prop :=
  ∃ (cert : ActiveCertificate) (now : ℕ) (t : Span CaState) (h0 : List Ev),
    v = .certificate cert ∧ k = certKey cert.metadata.serialNumber ∧ Registers call h cert ∧ Clean h ∧
    h = h0 ++ [⟨t, .utcNow, now⟩] ∧ 0 < numSeconds (cert.metadata.expiresAt - now) ∧
    ttl = asU64 (numSeconds (cert.metadata.expiresAt - now))

section

variable (config : Config) (call : Call)

def MayInsert (h : List Ev) (serial : String) (cert : ActiveCertificate) : Prop :=
  serial = cert.metadata.serialNumber ∧ Registers call h cert ∧
    ((∃ h0 t ttl r, h = h0 ++ [⟨t, .store (.setEx (certKey serial) (.certificate cert) ttl), r⟩] ∧ Clean h0) ∨
      (Clean h ∧ (config.persistent = true → ∃ (h0 : List Ev) (t : Span CaState) (now : ℕ), h = h0 ++ [⟨t, .utcNow, now⟩] ∧
        numSeconds (cert.metadata.expiresAt - now) ≤ 0)))

def MayRepopulate (h : List Ev) (serial : String) (cert : ActiveCertificate) : Prop :=
  ∃ h0 t record, h = h0 ++ [⟨t, .store (.get (certKey serial)), .ok (some record)⟩] ∧ record.asCertificate = some cert

def MayIssue (h : List Ev) : Cmd → Prop
  | .newUuid => Clean h ∧ (∀ e ∈ h, e.cmd ≠ .newUuid) ∧ ∀ cert, call ≠ .registerCertificate cert
  | .store (.setEx k v ttl) => MayPersist call h k v ttl
  | .store (.get _) => True
  | .store (.del k) => ∃ serial, call = .revokeCertificate serial ∧ k = certKey serial
  | .store _ => False
  | .insertActive serial cert => MayInsert config call h serial cert
  | .repopulate serial cert => MayRepopulate h serial cert
  | .removeActive serial => call = .revokeCertificate serial
  | .isRateLimited _ => h = []
  | .recordIssuance clientId => Checked clientId h ∧ Unrecorded h
  | _ => True

def May (h : List Ev) (c : Cmd) : Prop :=
  (hanging h = true → inserts c = true) ∧ MayIssue config call h c

def Verdict (serial : String) (h : List Ev) (isValid : Bool) : Prop :=
  (isValid = false ∧ Reads config serial h none) ∨ ∃ (h0 : List Ev) (t : Span CaState) (now : ℕ) (cert : ActiveCertificate),
    h = h0 ++ [⟨t, .utcNow, now⟩] ∧ Reads config serial h0 (some cert) ∧ isValid = decide (cert.metadata.expiresAt > now)

def Removes (serial : String) (h : List Ev) : Prop :=
  ∃ h0 t removed, h = h0 ++ [⟨t, .removeActive serial, removed⟩] ∧ (removed = true ∨ ∃ cert, Found serial cert h0)

def Ends (h : List Ev) (d : Done) : Prop :=
  (∀ serial isValid, call = .validateCertificate serial → d = .validated isValid → Verdict config serial h isValid) ∧
  (∀ serial u, call = .revokeCertificate serial → d = .revoked (.ok u) → Removes serial h) ∧
  ∀ r, d = .reported r → r.isValid = true → ∃ bytes cert, Found (hexEncode bytes) cert h

end

variable {config : Config} {call : Call} {h h' : List Ev} {serial clientId : String} {cert : ActiveCertificate} {α β : Type}

section

variable {e : Ev}

lemma hanging_snoc : hanging (h ++ [e]) = persists e.cmd := by
  simp [hanging]

lemma Clean.snoc (hc : Clean h) (he : (records e.cmd || persists e.cmd || inserts e.cmd) = false) : Clean (h ++ [e]) := by
  intro e' he'
  obtain he' | rfl := mem_snoc.mp he'
  · exact hc e' he'
  · exact he

lemma Unrecorded.snoc (hc : Unrecorded h) (he : records e.cmd = false) : Unrecorded (h ++ [e]) := by
  intro e' he'
  obtain he' | rfl := mem_snoc.mp he'
  · exact hc e' he'
  · exact he

lemma Clean.unrecorded (hc : Clean h) : Unrecorded h := by
  intro e he
  have hm := hc e he
  simp only [Bool.or_eq_false_iff] at hm
  exact hm.1.1

lemma Clean.settled (hc : Clean h) : hanging h = false := by
  obtain rfl | ⟨h0, e, rfl⟩ := eq_nil_or_concat h
  · rfl
  · rw [concat_eq_append, hanging_snoc]
    have hm := hc e (by simp)
    simp only [Bool.or_eq_false_iff] at hm
    exact hm.1.2

lemma Checked.append (hc : Checked clientId h) (l : List Ev) : Checked clientId (h ++ l) := by
  obtain ⟨t, h0, rfl⟩ := hc
  exact ⟨t, h0 ++ l, rfl⟩

lemma Found.mono (hs : h ⊆ h') (hf : Found serial cert h) : Found serial cert h' := by
  obtain ⟨t, ht⟩ | ⟨t, record, ht, hr⟩ := hf
  · exact .inl ⟨t, hs ht⟩
  · exact .inr ⟨t, record, hs ht, hr⟩

lemma Named.append (hn : Named serial h) (l : List Ev) : Named serial (h ++ l) := by
  obtain ⟨t, bytes, ht, heq⟩ := hn
  exact ⟨t, bytes, mem_append_left l ht, heq⟩

lemma Registers.append (hr : Registers call h cert) (l : List Ev) : Registers call (h ++ l) cert :=
  hr.imp id fun hn => ⟨hn.1.append l, hn.2⟩

lemma Reads.found (hr : Reads config serial h (some cert)) : Found serial cert h := by
  cases hr with
  | cached t => exact .inl ⟨t, by simp⟩
  | stored t t' t'' record cert hr => exact .inr ⟨t', record, by simp, hr⟩

end

section

variable {P : List Ev → Cmd → Prop} {c : Cmd}

lemma meets_next {Q : List Ev → β → Prop} {f : c.Reply → Program β} (hc : P h c)
    (hf : ∀ t r, Obeys P Q (f r) (h ++ [⟨t, c, r⟩])) : Obeys P Q (issue c >>= f) h := by
  refine meets_issue hc ?_
  rintro r h' ⟨t, rfl⟩
  exact hf t r

lemma meets_last {Q : List Ev → c.Reply → Prop} (hc : P h c) (hf : ∀ t r, Q (h ++ [⟨t, c, r⟩]) r) :
    Obeys P Q (issue c) h := by
  refine .call hc ?_
  rintro r h' ⟨t, rfl⟩
  exact .ret (hf t r)

lemma meets_ask {Q : List Ev → Except CaError β → Prop} {f : c.Reply → Ca β} (hc : P h c)
    (hf : ∀ t r, Obeys P Q (f r).run (h ++ [⟨t, c, r⟩])) : Obeys P Q (ask c >>= f).run h := by
  refine meets_lift_issue hc ?_
  rintro r h' ⟨t, rfl⟩
  exact hf t r

lemma meets_rejectIf {Q : List Ev → Except CaError α → Prop} {p : Prop} [Decidable p] {e : CaError} {f : Unit → Ca α}
    (herror : p → Q h (.error e)) (hok : ¬ p → Obeys P Q (f ()).run h) : Obeys P Q (rejectIf p e >>= f).run h := by
  unfold rejectIf
  by_cases hp : p
  · rw [if_pos hp]
    exact .ret (herror hp)
  · rw [if_neg hp]
    exact hok hp

end

lemma may_settled {c : Cmd} (hh : hanging h = false) (hm : MayIssue config call h c) : May config call h c := by
  refine ⟨?_, hm⟩
  intro hg
  rw [hh] at hg
  cases hg

section

lemma meets_getCertificate {Q : List Ev → Option ActiveCertificate → Prop} (hh : hanging h = false)
    (hQ : ∀ l r, Reads config serial l r → hanging (h ++ l) = false → Q (h ++ l) r) :
    Obeys (May config call) Q (getCertificate config.persistent serial) h := by
  refine meets_next (may_settled hh trivial) ?_
  intro t r
  have h1 : hanging (h ++ [⟨t, .lookupActive serial, r⟩]) = false := hanging_snoc
  cases r with
  | some cert => exact .ret (hQ _ _ (.cached t cert) h1)
  | none =>
    rcases hp : config.persistent with _ | _
    · exact .ret (hQ _ _ (.unstored t hp) h1)
    refine meets_next (may_settled h1 trivial) ?_
    intro t' r
    rw [append_assoc]
    have h2 : hanging (h ++ ([⟨t, .lookupActive serial, none⟩] ++ [⟨t', .store (.get (certKey serial)), r⟩])) = false := by
      rw [← append_assoc]
      exact hanging_snoc
    match r with
    | .error e | .ok none => exact .ret (hQ _ _ (.missing t t' _ (by rintro _ ⟨⟩)) h2)
    | .ok (some (.malformed text)) => exact .ret (hQ _ _ (.missing t t' _ (by rintro _ ⟨⟩; rfl)) h2)
    | .ok (some (.certificate cert)) =>
      refine meets_next (may_settled h2 ⟨_, _, _, (append_assoc _ _ _).symm, rfl⟩) ?_
      intro t'' r
      rw [append_assoc]
      refine .ret (hQ _ _ (.stored t t' t'' _ cert rfl) ?_)
      rw [← append_assoc]
      exact hanging_snoc

lemma meets_isCertificateValid {Q : List Ev → Bool → Prop} (hh : hanging h = false)
    (hmiss : ∀ l, Reads config serial l none → Q (h ++ l) false)
    (hfound : ∀ l t (now : ℕ) cert, Reads config serial l (some cert) →
      Q (h ++ (l ++ [⟨t, .utcNow, now⟩])) (decide (cert.metadata.expiresAt > now))) :
    Obeys (May config call) Q (validateCertificate config serial) h := by
  refine meets_bind (meets_getCertificate hh ?_)
  intro l r hr hh'
  cases r with
  | none => exact .ret (hmiss l hr)
  | some cert =>
    refine meets_next (may_settled hh' trivial) ?_
    intro t now
    rw [append_assoc]
    exact .ret (hfound l t now cert hr)

variable {Q : List Ev → Unit → Prop}

lemma meets_insert (hm : MayInsert config call h serial cert) (hu : Unrecorded h)
    (hQ : ∀ h', h <+: h' → Unrecorded h' → hanging h' = false → Q h' ()) :
    Obeys (May config call) Q (issue (.insertActive serial cert)) h := by
  refine meets_last (c := .insertActive serial cert) ⟨fun _ => rfl, hm⟩ ?_
  intro t r
  exact hQ _ (prefix_append _ _) (hu.snoc rfl) hanging_snoc

lemma meets_register (hr : Registers call h cert) (hc : Clean h)
    (hQ : ∀ h', h <+: h' → Unrecorded h' → hanging h' = false → Q h' ()) :
    Obeys (May config call) Q (CertificateRegistry.registerCertificate config.persistent cert) h := by
  rcases hp : config.persistent with _ | _
  · exact meets_insert ⟨rfl, hr, .inr ⟨hc, by rw [hp]; rintro ⟨⟩⟩⟩ hc.unrecorded hQ
  refine meets_next (may_settled hc.settled trivial) ?_
  intro t now
  have hc1 : Clean (h ++ [⟨t, .utcNow, now⟩]) := hc.snoc rfl
  have hpre : h <+: h ++ [⟨t, .utcNow, now⟩] := List.prefix_append _ _
  change Obeys _ _ (if numSeconds (cert.metadata.expiresAt - now) > 0 then _ else _) _
  split_ifs with httl
  · refine meets_next (may_settled hc1.settled ⟨cert, now, t, h, rfl, rfl, hr.append _, hc1, rfl, httl, rfl⟩) ?_
    intro t' r
    refine meets_insert ⟨rfl, (hr.append _).append _, .inl ⟨_, _, _, _, rfl, hc1⟩⟩ (hc1.unrecorded.snoc rfl) ?_
    intro h' hpre'
    exact hQ h' ((hpre.trans (List.prefix_append _ _)).trans hpre')
  · refine meets_insert ⟨rfl, hr.append _, .inr ⟨hc1, fun _ => ⟨_, _, _, rfl, by omega⟩⟩⟩ hc1.unrecorded ?_
    intro h' hpre'
    exact hQ h' (hpre.trans hpre')

end

section

structure Prepares (clientId : String) (h : List Ev) : Prop where
  checked : Checked clientId h
  clean : Clean h

lemma Prepares.snoc {e : Ev} (hp : Prepares clientId h) (he : (records e.cmd || persists e.cmd || inserts e.cmd) = false) :
    Prepares clientId (h ++ [e]) :=
  ⟨hp.checked.append _, hp.clean.snoc he⟩

section

variable (hcall : ∀ cert, call ≠ .registerCertificate cert)

include hcall

lemma meets_generateCertificate {Q : List Ev → Except CaError EphemeralCertificate → Prop}
    (hp : Prepares clientId h) (hfresh : ∀ e ∈ h, e.cmd ≠ .newUuid) (request : CertificateRequest)
    (herror : ∀ h' e, Q h' (.error e)) (hok : ∀ h' cert, Prepares clientId h' → Named cert.metadata.serialNumber h' →
    inCalendar cert.metadata.expiresAt → Q h' (.ok cert)) :
    Obeys (May config call) Q (generateCertificate config request).run h := by
  refine meets_ask (may_settled hp.clean.settled trivial) ?_
  intro t r
  obtain _ | signed := r
  · exact .ret (herror _ _)
  have h1 : Prepares clientId (h ++ [⟨t, .sign request, .ok signed⟩]) := hp.snoc rfl
  dsimp only
  obtain _ | _ := calculateFingerprint config.x509 signed.certificatePem
  · exact .ret (herror _ _)
  have hfresh1 : ∀ e ∈ h ++ [⟨t, .sign request, .ok signed⟩], e.cmd ≠ .newUuid := by
    intro e he
    obtain he | rfl := mem_snoc.mp he
    · exact hfresh e he
    · exact nofun
  refine meets_ask (may_settled h1.clean.settled ⟨h1.clean, hfresh1, hcall⟩) ?_
  intro t2 bytes
  have h2 := h1.snoc (e := ⟨t2, .newUuid, bytes⟩) rfl
  have hnamed : Named (uuidText bytes) (h ++ [⟨t, .sign request, .ok signed⟩] ++ [⟨t2, .newUuid, bytes⟩]) :=
    ⟨t2, bytes, by simp, rfl⟩
  refine meets_ask (may_settled h2.clean.settled trivial) ?_
  intro t3 now
  have h3 := h2.snoc (e := ⟨t3, .utcNow, now⟩) rfl
  rcases hexp : addUtc now request.validityDuration with _ | _
  · exact .ret (herror _ _)
  refine meets_ask (may_settled h3.clean.settled trivial) ?_
  intro t4 r
  have h4 := h3.snoc (e := ⟨t4, .caCertificatePem, r⟩) rfl
  cases r with
  | error => exact .ret (herror _ _)
  | ok =>
    exact .ret (hok _ _ h4 ((hnamed.append _).append _) (inCalendar_addUtc hexp))

lemma meets_issueTo (clientId : String) (ttl : Option ℤ) (request : ℤ → CertificateRequest) :
    Abides (May config call) (issueTo config clientId ttl request).run [] := by
  refine meets_except_seq (M := fun h r => r = .ok () → Prepares clientId h ∧ ∀ e ∈ h, e.cmd ≠ .newUuid) ?_ ?_
    fun _ _ _ => trivial
  · refine meets_ask (may_settled rfl rfl) ?_
    intro t limited
    cases limited with
    | true => exact .ret nofun
    | false =>
      refine .ret fun _ => ⟨⟨⟨t, [], rfl⟩, ?_⟩, ?_⟩ <;> intro e he <;> obtain rfl := mem_singleton.mp he
      · rfl
      · exact nofun
  intro h u hprep
  obtain ⟨hp, hfresh⟩ := hprep rfl
  refine meets_rejectIf (fun _ => trivial) fun _ => ?_
  refine meets_except_seq (M := fun h r => ∀ cert, r = .ok cert → Prepares clientId h ∧
    Named cert.metadata.serialNumber h ∧ inCalendar cert.metadata.expiresAt)
    (meets_generateCertificate hcall hp hfresh _ (by rintro h' e cert ⟨⟩) ?_) ?_ fun _ _ _ => trivial
  · rintro h' cert hp' hn hcal _ ⟨⟩
    exact ⟨hp', hn, hcal⟩
  intro h' cert hcert
  obtain ⟨hp', hn, hcal⟩ := hcert cert rfl
  refine meets_ask (may_settled hp'.clean.settled trivial) ?_
  intro t issuedAt
  have hp1 := hp'.snoc (e := ⟨t, .utcNow, issuedAt⟩) rfl
  refine meets_except_seq (M := fun h'' _ => Checked clientId h'' ∧ Unrecorded h'' ∧ hanging h'' = false)
    (meets_lift (meets_register (.inr ⟨hn.append _, hcal⟩) hp1.clean ?_)) ?_ fun _ _ _ => trivial
  · rintro h'' ⟨l, rfl⟩ hu hh
    exact ⟨hp1.checked.append l, hu, hh⟩
  · rintro h'' u ⟨hc, hu, hh⟩
    refine meets_ask (may_settled hh ⟨hc, hu⟩) ?_
    intro t' r
    exact .ret trivial

lemma meets_issueClientCertificate (request : IssuanceRequest) :
    Abides (May config call) (issueClientCertificate config request).run [] := by
  refine meets_except_seq (M := fun h _ => h = []) ?_ ?_ fun _ _ _ => trivial
  · refine meets_rejectIf (fun _ => rfl) fun _ => ?_
    unfold rejectIf
    split_ifs <;> exact .ret rfl
  · rintro h u rfl
    exact meets_issueTo hcall _ _ _

lemma meets_issueCertificate (request : IssuanceRequest) :
    Abides (May config call) (issueCertificate config request).run [] :=
  meets_except_seq (meets_issueClientCertificate hcall request) (fun _ _ _ => .ret trivial) fun _ _ _ => trivial

lemma meets_sshIssueCertificate (requestId clientId commonName : String) :
    Abides (May config call) (SshServer.issueCertificate config requestId clientId commonName) [] := by
  unfold SshServer.issueCertificate
  split_ifs
  · refine meets_seq (meets_issueCertificate hcall _) ?_
    intro h r _
    cases r <;> exact .ret trivial
  · exact .ret trivial

end

end

section

lemma meets_getCertificateInfo (hh : hanging h = false) (serial : String) :
    Abides (May config call) (getCertificateInfo config serial).run h := by
  refine meets_except_seq (M := fun _ _ => True) (meets_lift (meets_getCertificate hh fun _ _ _ _ => trivial)) ?_
    fun _ _ _ => trivial
  intro h' r _
  cases r <;> exact .ret trivial

lemma meets_removeCertificate {Q : List Ev → Bool → Prop} (hh : hanging h = false)
    (hcall : call = .revokeCertificate serial) (hQ : ∀ l t r, Q (h ++ l ++ [⟨t, .removeActive serial, r⟩]) r) :
    Obeys (May config call) Q (removeCertificate config.persistent serial) h := by
  unfold removeCertificate
  split_ifs
  · refine meets_next (may_settled hh ⟨serial, hcall, rfl⟩) ?_
    intro t r
    exact meets_last (c := .removeActive serial) (may_settled hanging_snoc hcall) (hQ _)
  · refine meets_last (c := .removeActive serial) (may_settled hh hcall) ?_
    intro t r
    have hq := hQ [] t r
    rwa [append_nil] at hq

lemma meets_revokeCertificate (serial : String) :
    Obeys (May config (.revokeCertificate serial)) (fun h r => r = .ok () → Removes serial h)
      (revokeCertificate config serial).run [] := by
  refine meets_except_seq (M := fun h r => ∀ known, r = .ok known → hanging h = false ∧
    (known.isSome = true → ∃ cert, Found serial cert h)) (meets_lift (meets_getCertificate rfl ?_)) ?_ fun _ _ _ => nofun
  · rintro l r hr hh _ ⟨⟩
    refine ⟨hh, fun hs => ?_⟩
    obtain ⟨cert, rfl⟩ := Option.isSome_iff_exists.mp hs
    exact ⟨cert, hr.found⟩
  intro h known hknown
  obtain ⟨hh, hfound⟩ := hknown known rfl
  refine meets_except_seq (M := fun h' r => ∀ removed : Bool, r = .ok removed → (known.isSome ∨ removed) → Removes serial h')
    (meets_lift (meets_removeCertificate hh rfl ?_)) ?_ fun _ _ _ => nofun
  · rintro l t removed _ ⟨⟩ hor
    refine ⟨h ++ l, t, removed, rfl, ?_⟩
    obtain hs | hr := hor
    · obtain ⟨cert, hf⟩ := hfound hs
      exact .inr ⟨cert, hf.mono (subset_append_left h l)⟩
    · exact .inl hr
  · intro h' removed hremoved
    unfold rejectIf
    split_ifs with hn
    · exact .ret fun _ => hremoved removed rfl hn
    · exact .ret nofun

lemma meets_validateCertificate (serial : String) :
    Obeys (May config call) (Verdict config serial) (validateCertificate config serial) [] := by
  refine meets_isCertificateValid rfl ?_ ?_
  · intro l hr
    exact .inl ⟨rfl, hr⟩
  · intro l t now cert hr
    exact .inr ⟨l, t, now, cert, rfl, hr, rfl⟩

end

section

open SshServer

def Reported (h : List Ev) (r : CertificateValidationResult) : Prop :=
  r.isValid = true → ∃ bytes cert, Found (hexEncode bytes) cert h

lemma meets_timestampOrNow (hh : hanging h = false) (seconds : ℤ) :
    Obeys (May config call) (fun h' _ => hanging h' = false) (timestampOrNow seconds) h := by
  unfold timestampOrNow
  split
  · exact .ret hh
  · refine meets_next (may_settled hh trivial) ?_
    intro t now
    exact .ret hanging_snoc

lemma meets_extractCertificateInfo (hh : hanging h = false) (der : Der) :
    Obeys (May config call)
      (fun h' r => hanging h' = false ∧ ∀ info, r = .ok info → ∃ bytes, info.serialNumber = hexEncode bytes)
      (extractCertificateInfo config.x509 der) h := by
  unfold extractCertificateInfo
  split
  · exact .ret ⟨hh, nofun⟩
  rename_i cert _
  refine meets_seq (meets_timestampOrNow hh _) ?_
  intro h1 notBefore hh1
  refine meets_seq (meets_timestampOrNow hh1 _) ?_
  intro h2 notAfter hh2
  refine .ret ⟨hh2, ?_⟩
  rintro _ ⟨⟩
  exact ⟨cert.serial, rfl⟩

variable {result : CertificateValidationResult}

lemma meets_validateWithCa (hh : hanging h = false) (hr : result.isValid = false)
    (hserial : ∀ serial, result.serialNumber = some serial → ∃ bytes, serial = hexEncode bytes) :
    Obeys (May config call) Reported (validateWithCa config result) h := by
  have hinvalid : ∀ h', Reported h' result := by
    intro h' hv
    rw [hr] at hv
    cases hv
  unfold validateWithCa
  split_ifs
  · split
    · rename_i serial hs
      obtain ⟨bytes, rfl⟩ := hserial serial hs
      refine meets_bind (meets_isCertificateValid hh ?_ ?_)
      · intro l _
        exact .ret nofun
      intro l t now cert hread
      have hf : Found (hexEncode bytes) cert (h ++ (l ++ [⟨t, .utcNow, now⟩])) :=
        hread.found.mono fun e he => by simp [he]
      split_ifs
      · exact .ret fun _ => ⟨bytes, cert, hf⟩
      · exact .ret fun _ => ⟨bytes, cert, hf⟩
    · exact .ret (hinvalid h)
  · exact .ret (hinvalid h)

lemma Reported.checkPinning (hr : Reported h result) (der : Der) : Reported h (checkPinning config der result) := by
  unfold SshServer.checkPinning
  split_ifs
  · split
    · exact nofun
    · exact hr
  · exact hr

lemma meets_validateCertificateComprehensive (pem : String) :
    Obeys (May config call) Reported (validateCertificateComprehensive config pem) [] := by
  refine meets_next (may_settled rfl trivial) ?_
  intro t validatedAt
  split
  · exact .ret nofun
  rename_i der _
  refine meets_seq (meets_extractCertificateInfo hanging_snoc der) ?_
  rintro h r ⟨hh, hinfo⟩
  cases r with
  | error =>
    refine meets_seq (meets_validateWithCa hh rfl nofun) ?_
    intro h' result hr
    exact .ret (hr.checkPinning der)
  | ok info =>
    refine meets_seq (meets_validateWithCa hh rfl ?_) ?_
    · rintro serial ⟨⟩
      exact hinfo info rfl
    · intro h' result hr
      exact .ret (hr.checkPinning der)

end

def unremarkable : Done → Bool
  | .validated _ | .revoked _ | .reported _ => false
  | _ => true

lemma ends_other {d : Done} (hd : unremarkable d = true) : Ends config call h d := by
  refine ⟨?_, ?_, ?_⟩
  · rintro serial isValid - rfl
    cases hd
  · rintro serial u - rfl
    cases hd
  · rintro r rfl
    cases hd

lemma ends_stopped (config : Config) (call : Call) (h : List Ev) : Ends config call h .stopped := ends_other rfl

lemma call_conducts (config : Config) (call : Call) : Obeys (May config call) (Ends config call) (call.program config) [] := by
  cases call with
  | issueCertificate request =>
    exact meets_seq (meets_issueCertificate (by rintro _ ⟨⟩) request) fun _ _ _ => .ret (ends_other rfl)
  | issueClientCertificate request =>
    exact meets_seq (meets_issueClientCertificate (by rintro _ ⟨⟩) request) fun _ _ _ => .ret (ends_other rfl)
  | issueServerCertificate fqdn extraSans ttl =>
    exact meets_seq (meets_rejectIf (fun _ => trivial) fun _ => meets_issueTo (by rintro _ ⟨⟩) _ _ _)
      fun _ _ _ => .ret (ends_other rfl)
  | registerCertificate =>
    exact meets_bind (meets_register (.inl rfl) (by rintro e ⟨⟩) fun _ _ _ _ => .ret (ends_other rfl))
  | validateCertificate serial =>
    refine meets_seq (meets_validateCertificate serial) ?_
    intro h isValid hv
    refine .ret ⟨?_, by rintro _ _ ⟨⟩, by rintro _ ⟨⟩⟩
    rintro _ _ ⟨⟩ ⟨⟩
    exact hv
  | getCertificateInfo serial =>
    exact meets_seq (meets_getCertificateInfo rfl serial) fun _ _ _ => .ret (ends_other rfl)
  | revokeCertificate serial =>
    refine meets_seq (meets_revokeCertificate serial) ?_
    intro h r hr
    refine .ret ⟨by rintro _ _ ⟨⟩, ?_, by rintro _ ⟨⟩⟩
    rintro _ _ ⟨⟩ ⟨⟩
    exact hr rfl
  | cleanupExpiredCertificates =>
    exact meets_next (may_settled rfl trivial) fun _ _ => .ret (ends_other rfl)
  | sshIssueCertificate requestId clientId commonName =>
    exact meets_seq (meets_sshIssueCertificate (by rintro _ ⟨⟩) requestId clientId commonName) fun _ _ _ =>
      .ret (ends_other rfl)
  | validateCertificateComprehensive pem =>
    refine meets_seq (meets_validateCertificateComprehensive pem) ?_
    intro h r hr
    refine .ret ⟨by rintro _ _ ⟨⟩, by rintro _ _ ⟨⟩, ?_⟩
    rintro _ ⟨⟩
    exact hr

end FleetingDns.EdfCa
