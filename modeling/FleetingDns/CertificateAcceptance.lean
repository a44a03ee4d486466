import FleetingDns.CertificateOrigins

namespace FleetingDns.EdfCa

open CommandPrograms ExpiringStore ThreadPool ServerPool GuardedRuns

/-- The registry is private to the authority: certificates enter it by issuance only. -/
def ThroughCa (_ : CaPool) : Action → Prop
  | .arrive (.registerCertificate _) => False
  | _ => True

instance (w : CaPool) (a : Action) : Decidable (ThroughCa w a) := by
  unfold ThroughCa
  split <;> infer_instance

lemma hexDigit_ne (n : Fin 16) : hexDigit n ≠ '-' := by
  revert n
  decide

lemma hexByte_ne (b : Byte) : '-' ∉ hexByte b := by
  simp [hexByte, (hexDigit_ne _).symm]

lemma hexEncode_ne_uuidText (bytes : List Byte) (uuid : Fin 16 → Byte) : uuidText uuid ≠ hexEncode bytes := by
  intro heq
  have hmem : '-' ∈ (uuidText uuid).toList := by simp [uuidText]
  rw [heq, hexEncode, String.toList_ofList, List.mem_flatMap] at hmem
  obtain ⟨b, -, hb⟩ := hmem
  exact hexByte_ne b hb

variable {config : Config} {w : CaPool} {serial : String} {cert : ActiveCertificate}

lemma announced_uuid {now : ℕ} (h : Reach (step (server config)) ThroughCa (start config now) w) (ha : Announced w cert) :
    ∃ uuid, cert.metadata.serialNumber = uuidText uuid := by
  obtain ⟨tid, th, e, hth, he, hc⟩ := ha
  obtain ⟨cert', hcall, -⟩ | ⟨t, uuid, -, heq⟩ := announcer_holds (reach_sound h).keeps hth he hc
  · have hne : ∀ cert, th.call ≠ .registerCertificate cert := by
      refine reach_calls (P := fun call => ∀ cert, call ≠ .registerCertificate cert) ?_ h hth
      rintro w call hg cert rfl
      exact hg
    exact absurd hcall (hne cert')
  · exact ⟨uuid, heq.symm⟩

/-- A validation looks the certificate up under the hexadecimal text of its X.509 serial, which no registered one has. -/
theorem issued_certificates_rejected {now : ℕ} (h : Reach (step (server config)) ThroughCa (start config now) w) {tid : ℕ}
    {th : CaThread} {r : CertificateValidationResult} (hth : w.threads[tid]? = some th)
    (hret : th.prog = .ret (.reported r)) : r.isValid = false := by
  have hs := reach_sound h
  rw [← Bool.not_eq_true]
  intro hvalid
  obtain ⟨bytes, cert, hfound⟩ := (hs.keeps.ends hth hret).2.2 r rfl hvalid
  obtain ⟨hserial, ha⟩ := hs.found tid th _ cert hth hfound
  obtain ⟨uuid, huuid⟩ := announced_uuid h ha
  exact hexEncode_ne_uuidText bytes uuid (huuid.symm.trans hserial)

section

open Schedule

def sshIssued (pem : String) (expiresAt : ℤ) (th : CaThread) : Bool :=
  match th.call, th.prog with
  | .sshIssueCertificate _ _ _, .ret (.sshIssued (.ok response)) =>
    response.certificatePem = pem ∧ response.metadata.expiresAt = expiresAt
  | _, _ => false

def rejected (pem : String) (th : CaThread) : Bool :=
  match th.call, th.prog with
  | .validateCertificateComprehensive p, .ret (.reported r) => p = pem ∧ r.isValid = false
  | _, _ => false

variable {pem : String} {th : CaThread}

lemma sshIssued_iff {expiresAt : ℤ} (h : sshIssued pem expiresAt th = true) :
    ∃ requestId clientId commonName response, th.call = .sshIssueCertificate requestId clientId commonName ∧
      th.prog = .ret (.sshIssued (.ok response)) ∧ response.certificatePem = pem ∧
      response.metadata.expiresAt = expiresAt := by
  unfold sshIssued at h
  split at h
  · rename_i hcall hprog
    exact ⟨_, _, _, _, hcall, hprog, of_decide_eq_true h⟩
  · cases h

lemma rejected_iff (h : rejected pem th = true) :
    ∃ r, th.call = .validateCertificateComprehensive pem ∧ th.prog = .ret (.reported r) ∧ r.isValid = false := by
  unfold rejected at h
  split at h
  · rename_i hcall hprog
    obtain ⟨hp, hr⟩ := of_decide_eq_true h
    exact ⟨_, hp ▸ hcall, hprog, hr⟩
  · cases h

def issueAndValidate : List Action :=
  [.arrive (.sshIssueCertificate "request" "laptop" "laptop.example")] ++ issued 0 first
    ++ [.arrive (.validateCertificateComprehensive "certificate"), .exec 1 .plain, .exec 1 .plain, .exec 1 (.store .ok)]

theorem issued_certificates_rejected_at_once : ∃ w th r, Reach (step (server deployment)) ThroughCa begin w ∧
    w.threads[0]?.any (sshIssued "certificate" (1700001800 * second)) = true ∧ w.threads[1]? = some th ∧
    th.call = .validateCertificateComprehensive "certificate" ∧ th.prog = .ret (.reported r) ∧ r.isValid = false := by
  obtain ⟨w, h, hp⟩ := reach_of_check (step (server deployment)) ThroughCa begin issueAndValidate
    (fun w => w.threads[0]?.any (sshIssued "certificate" (1700001800 * second)) &&
      w.threads[1]?.any (rejected "certificate")) (by decide +kernel)
  rw [Bool.and_eq_true, Option.any_eq_true (rejected "certificate")] at hp
  obtain ⟨hissued, th, hth, hrej⟩ := hp
  obtain ⟨r, hcall, hret, -⟩ := rejected_iff hrej
  exact ⟨w, th, r, h, hissued, hth, hcall, hret, issued_certificates_rejected h hth hret⟩

theorem issued_certificate_invalid : deployment.certificatePinningEnabled = false ∧
    ∃ (w : CaPool) (th u : CaThread) (requestId clientId commonName : String) (response : IssuanceResponse)
      (r : CertificateValidationResult), Reach (step (server deployment)) ThroughCa begin w ∧
      response.metadata.expiresAt > w.shared.now ∧ w.threads.length = 2 ∧ w.threads[0]? = some th ∧
      th.call = .sshIssueCertificate requestId clientId commonName ∧ th.prog = .ret (.sshIssued (.ok response)) ∧
      w.threads[1]? = some u ∧ u.call = .validateCertificateComprehensive response.certificatePem ∧
      u.prog = .ret (.reported r) ∧ r.isValid = false := by
  obtain ⟨w, h, hp⟩ := reach_of_check (step (server deployment)) ThroughCa begin issueAndValidate
    (fun w => decide (w.threads.length = 2 ∧ w.shared.now = 1700000000 * second) &&
      (w.threads[0]?.any (sshIssued "certificate" (1700001800 * second)) && w.threads[1]?.any (rejected "certificate")))
    (by decide +kernel)
  rw [Bool.and_eq_true, Bool.and_eq_true, decide_eq_true_iff, Option.any_eq_true, Option.any_eq_true] at hp
  obtain ⟨⟨hlen, hnow⟩, ⟨th, hth, hiss⟩, u, hu, hrej⟩ := hp
  obtain ⟨requestId, clientId, commonName, response, hcall, hok, hpem, hexp⟩ := sshIssued_iff hiss
  obtain ⟨r, hcall', hret, hr⟩ := rejected_iff hrej
  refine ⟨rfl, w, th, u, requestId, clientId, commonName, response, r, h, ?_, hlen, hth, hcall, hok, hu, hpem ▸ hcall', hret,
    hr⟩
  rw [hnow, hexp]
  decide

end

end FleetingDns.EdfCa
