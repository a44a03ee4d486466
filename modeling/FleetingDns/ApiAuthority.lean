import FleetingDns.Library.Components
import FleetingDns.RegistrySurvival
import FleetingDns.TenantDiscipline
namespace FleetingDns.ApiServer

open CommandPrograms ExpiringStore ThreadPool ServerPool GuardedRuns Components TunnelStorage CreateFlow EdfCa Option
  EdfCa.CaState Quota

def requested : EdfCa.Call → Bool
  | .issueCertificate _ | .issueClientCertificate _ | .validateCertificate _ | .getCertificateInfo _ => true
  | _ => false

def apart : ApiCmd → Bool
  | .ca _ => false
  | _ => true

def authorityPart (d : Deployment) : Embedding (server d.ca) (apiServer d) where
  state s := s.ca
  cmd := .ca
  reply _ r := r
  own c := apart c = true
  made call := requested call = true
  cmd_inj h := by
    cases h
    rfl
  own_cmd c h := by cases h
  accepts {call} h s := by
    cases call with
    | registerCertificate => cases h
    | _ => rfl
  performed h := by
    cases performed h with
    | ca perform => exact ⟨_, perform⟩
  kept {s s' c o r} hc h := by
    cases performed h with
    | ca => cases hc
    | _ => rfl
  accepted h := by
    cases h
    rfl
  drifted {s s' e} h := by
    cases e with
    | tick d =>
      cases h
      exact .inr ⟨d, rfl⟩
    | lapse =>
      obtain ⟨st, -, rfl⟩ := map_eq_some_iff.mp h
      exact .inl rfl
    | put key entry =>
      cases entry with
      | none =>
        cases h
        exact .inl rfl
      | some =>
        simp only [apiServer, ApiState.drift] at h
        split_ifs at h
        cases h
        exact .inl rfl
  restarted h := by
    cases h
    rfl

/-! ### The calls of each route -/

section

variable {d : Deployment} {α β : Type}

abbrev Composed (d : Deployment) (p : Program α) : Prop := Calls (authorityPart d) p

variable {p : Program α}

lemma composed_only (hp : Only (fun c => apart c = true) p) : Composed d p := calls_only hp

lemma composed_storage (x : Api α) : Composed d (storage x).run :=
  composed_only (only_storage (only_any (fun _ => rfl) x.run))

lemma composed_metered (p : Quota.Program α) : Composed d (metered p).run :=
  composed_only (only_metered (only_any (fun _ => rfl) p))

lemma composed_query (c : Plans.DbCmd) : Composed d (query c).run := composed_only (only_query rfl)

lemma composed_now : Composed d now.run := composed_storage utcNow

lemma composed_reject {p : Prop} [Decidable p] {e : ApiError} : Composed d (reject p e).run := composed_only only_reject

lemma composed_map {x : Handler α} {f : α → β} (hx : Composed d x.run) : Composed d (f <$> x).run := by
  apply calls_bind hx
  intro r
  cases r <;> exact .ret

lemma composed_call (call : EdfCa.Call) {p : EdfCa.Program β} {result : β → EdfCa.Done}
    (hcall : requested call = true) (hp : call.program d.ca = p >>= fun b => pure (result b)) (take : EdfCa.Done → Option β)
    (htake : ∀ b, take (result b) = some b) {f : β → Program α} (a : α) (hf : ∀ b, Composed d (f b)) :
    Composed d (p.expand ofCa >>= f) := by
  have hassoc : ∀ g : EdfCa.Done → Program α, (call.program d.ca).expand ofCa >>= g =
      p.expand ofCa >>= fun b => g (result b) := by
    intro g
    rw [hp, Prog.expand_bind]
    exact Prog.bind_assoc _ _ _
  refine .call (f := fun x => (take x).elim (.ret a) f) hcall ?_ ?_
  · change p.expand ofCa >>= f = (call.program d.ca).expand ofCa >>= _
    rw [hassoc]
    simp only [htake, elim_some]
  · intro x
    cases take x with
    | none => exact .ret
    | some b => exact hf b

lemma composed_authority (call : EdfCa.Call) {x : EdfCa.Ca β} {result : Except EdfCa.CaError β → EdfCa.Done}
    (hcall : requested call = true) (hp : call.program d.ca = x.run >>= fun b => pure (result b))
    (take : EdfCa.Done → Option (Except EdfCa.CaError β)) (htake : ∀ b, take (result b) = some b) :
    Composed d (authority x).run := by
  refine composed_call call hcall hp take htake (.error (.panicked "")) ?_
  intro r
  cases r <;> exact .ret

section

variable (user : GitHubUser)

lemma composed_issueClientCertificate : Composed d (issueClientCertificate d user).run := by
  apply calls_seq (composed_storage _)
  intro requestId
  refine composed_authority (.issueClientCertificate _) rfl rfl (fun x => match x with
    | .issued r => some r
    | _ => none) ?_
  intro b
  rfl

lemma composed_createTunnel (request : CreateTunnelRequest) : Composed d (createTunnel d user request).run :=
  calls_seq composed_reject fun _ => calls_seq (composed_metered _) fun _ => calls_seq composed_reject fun _ =>
    calls_seq (composed_storage _) fun _ => calls_seq (composed_storage _) fun _ => calls_seq composed_reject fun _ =>
      calls_seq (composed_issueClientCertificate user) fun _ => composed_storage _

lemma composed_parseTunnelId (tunnelId : String) : Composed d (parseTunnelId d tunnelId).run :=
  composed_only (only_parseTunnelId tunnelId)

def verdictOf : EdfCa.Done → Option Bool
  | .validated r => some r
  | _ => none

lemma composed_certificateValid (serial : String) : Composed d (certificateValid d serial).run := by
  unfold certificateValid
  split_ifs
  · exact .ret
  · refine composed_call (.validateCertificate serial) rfl rfl verdictOf (fun _ => rfl) (.ok false) ?_
    intro r
    exact .ret

lemma composed_sshConnected (tunnelId : String) : Composed d (sshConnected tunnelId).run := by
  apply calls_seq (calls_lift (composed_storage _))
  rintro (e | live) <;> exact .ret

lemma composed_healthChecks (tunnel : Tunnel) : Composed d (performTunnelHealthChecks d tunnel).run := by
  apply calls_seq composed_now
  intro lastCheck
  apply calls_seq composed_now
  intro checkedAt
  split
  · exact .ret
  · exact calls_seq (composed_certificateValid _) fun _ => calls_seq (composed_sshConnected _) fun _ => .ret

lemma composed_getTunnelHealth (tunnelId : String) : Composed d (getTunnelHealth d user tunnelId).run := by
  apply calls_seq (composed_parseTunnelId tunnelId)
  intro uuid
  apply calls_seq (composed_storage _)
  rintro (_ | tunnel)
  · exact .ret
  · dsimp only
    split_ifs
    · exact .ret
    · exact composed_healthChecks tunnel

lemma composed_bulkHealthOf (tunnelId : String) : Composed d (bulkHealthOf d user tunnelId) := by
  unfold bulkHealthOf
  split
  · exact .ret
  apply calls_bind (composed_storage _)
  rintro (e | _ | tunnel)
  · exact .ret
  · exact .ret
  · dsimp only
    split_ifs
    · exact .ret
    · apply calls_bind (composed_healthChecks tunnel)
      rintro (e | info) <;> exact .ret

lemma composed_bulkHealth (results : List TunnelHealthResult) (errors : List HealthError)
    (tunnelIds : List String) : Composed d (bulkHealth d user results errors tunnelIds) := by
  induction tunnelIds generalizing results errors with
  | nil => exact .ret
  | cons tunnelId tunnelIds ih =>
    apply calls_bind (composed_bulkHealthOf user tunnelId)
    rintro (e | result)
    · exact ih _ _
    · exact ih _ _

lemma composed_issueCertificate (commonName : String) (ttl : Option ℕ) :
    Composed d (issueCertificate d user commonName ttl).run := by
  apply calls_seq composed_reject
  intro _
  apply calls_seq (composed_storage _)
  intro requestId
  apply calls_seq (composed_only only_orPanicked)
  intro ttl
  apply calls_seq _ fun _ => .ret
  refine composed_authority (.issueCertificate _) rfl rfl (fun x => match x with
    | .responded r => some r
    | _ => none) ?_
  intro b
  rfl

lemma composed_getCertificate (serial : String) : Composed d (getCertificate d serial).run := by
  apply calls_seq _ fun _ => calls_seq composed_now fun _ => .ret
  refine composed_authority (.getCertificateInfo serial) rfl rfl (fun x => match x with
    | .found r => some r
    | _ => none) ?_
  intro b
  rfl

lemma apart_tame (hp : Tame p) : Composed d p := by
  refine composed_only (only_mono ?_ hp)
  intro c hc
  cases c with
  | ca => cases hc
  | _ => rfl

lemma composed_deactivateAll (as : List Plans.UserServicePlan) : Composed d (deactivateAll as).run := by
  induction as with
  | nil => exact .ret
  | cons a as ih => exact calls_seq (composed_query _) fun _ => ih

lemma composed_assign (userId : String) (r : AssignServicePlanRequest) :
    Composed d (assignServicePlanToUser userId r).run :=
  calls_seq (composed_query _) fun _ => calls_seq (composed_only only_orNotFound) fun _ =>
    calls_seq (composed_query _) fun _ => calls_seq (composed_deactivateAll _) fun _ =>
      calls_seq (composed_storage _) fun _ => calls_seq composed_now fun _ => calls_seq composed_now fun _ =>
        calls_seq (composed_query _) fun _ => .ret

lemma composed_handle (route : Route) : Composed d (route.handle d user).run := by
  cases route with
  | createTunnel r => exact composed_map (composed_createTunnel user r)
  | getTunnel id =>
    exact composed_map (calls_seq (composed_parseTunnelId id) fun _ => calls_seq (composed_storage _) fun _ =>
      calls_seq composed_now fun _ => .ret)
  | deleteTunnel id | createTunnelSession id =>
    exact composed_map (calls_seq (composed_parseTunnelId id) fun _ => calls_seq (composed_storage _) fun _ => .ret)
  | listTunnels => exact composed_map (calls_seq (composed_storage _) fun _ => calls_seq composed_now fun _ => .ret)
  | getTunnelHealth id => exact composed_map (composed_getTunnelHealth user id)
  | getBulkTunnelHealth ids =>
    exact composed_map (calls_seq composed_reject fun _ => calls_seq composed_reject fun _ =>
      calls_seq (calls_lift (composed_bulkHealth user [] [] ids)) fun _ => .ret)
  | issueCertificate commonName ttl => exact composed_map (composed_issueCertificate user commonName ttl)
  | getCertificate serial => exact composed_map (composed_getCertificate serial)
  | getStats =>
    have hask : ∀ c, apart c = true → Composed d (ask c).run := fun c hc => composed_only (only_lift (only_issue hc))
    exact composed_map (calls_seq (composed_storage _) fun _ => calls_seq (hask .activeCount rfl) fun _ =>
      calls_seq (hask .totalIssued rfl) fun _ => .ret)
  | getRateLimitPolicy | updateRateLimitPolicy | getAllUsersQuotaStatus => exact .ret
  | createServicePlan | listServicePlans | getServicePlan | updateServicePlan | deleteServicePlan | getMyServicePlan
  | getMyServicePlanUsage | getAvailableServicePlans | requestServicePlanChange =>
    exact apart_tame (tame_handle rfl)
  | assignServicePlanToUser userId r => exact composed_map (composed_assign userId r)
  | getQuotaInfo => exact composed_map (calls_seq (composed_metered _) fun _ => .ret)
  | checkOperationAllowed =>
    apply composed_map
    apply calls_seq (composed_metered _)
    rintro (e | response) <;> exact .ret
  | resetUserUsage => exact composed_map (composed_metered _)

end

lemma composed_request (d : Deployment) (request : Request) : Composed d (request.program d) :=
  calls_bind (composed_handle request.user request.route) fun _ => .ret

end

/-! ### The runs -/

def succeeds : (c : ApiCmd) → c.Reply → Bool
  | .quota (.base (.redis _)), .error _ => false
  | .ca (.store _), .error _ => false
  | _, _ => true

def dependable (d : Deployment) (w : ApiPool) : Action → Bool
  | .exec tid o => match w.threads[tid]? with
    | some th => match th.prog with
      | .call c _ => (w.shared.perform d c o).all fun x => succeeds c x.2
      | .ret _ => true
    | none => true
  | _ => true

def Dependable (d : Deployment) (w : ApiPool) (a : Action) : Prop := dependable d w a = true

instance (d : Deployment) (w : ApiPool) (a : Action) : Decidable (Dependable d w a) :=
  inferInstanceAs (Decidable (_ = true))

section

variable {d : Deployment} {w w1 w2 : ApiPool} {a : Action} {now : ℕ} {db : Plans.PlanDb}
    {th : ApiThread} {v : EdfCa.CaPool}

lemma Dependable.succeeds {tid : ℕ} {o : ApiChoice} {c : ApiCmd} {s : ApiState} {r : c.Reply}
    (hg : Dependable d w (.exec tid o)) (hi : Issues w tid th c) (hp : w.shared.perform d c o = some (s, r)) :
    succeeds c r = true := by
  obtain ⟨hth, k, hprog⟩ := hi
  simpa only [Dependable, dependable, hth, hprog, hp, all_some] using hg

lemma answered_dependable (hg : Dependable d w a) :
    Answered (apiServer d) (fun _ => True) (fun c r => succeeds c r = true) w a := by
  cases a with
  | exec =>
    intro th c s r hi hp
    exact hg.succeeds hi hp
  | _ => trivial

lemma reliable_answered {b : EdfCa.Action}
    (h : Answered (server d.ca) (authorityPart d).made (fun c r => accepts c r = true) v b) :
    EdfCa.Reliable v b := by
  unfold EdfCa.Reliable reliable
  split
  · cases h
  · rename_i tid o
    split
    · rename_i th hth
      split
      · rename_i c k hp
        rw [all_eq_true]
        intro x hx
        exact h th c x.1 x.2 ⟨hth, k, hp⟩ hx
      · rfl
    · rfl
  · rfl

lemma run_authority {slot : ℕ → Option ℕ} (ht : Tracks (authorityPart d) slot w1 v)
    (h : Reach (step (apiServer d)) (Dependable d) w1 w2) :
    ∃ slot' v', Reach (step (server d.ca)) EdfCa.Reliable v v' ∧ Tracks (authorityPart d) slot' w2 v' := by
  have hanswered := h.mono fun _ _ hg => answered_dependable hg
  have hrun : ∃ slot' v', Reach (step (server d.ca)) (Answered (server d.ca) (authorityPart d).made
      fun c r => accepts c r = true) v v' ∧ Tracks (authorityPart d) slot' w2 v' := by
    refine tracks_run (composed_request d) ?_ ht hanswered
    intro c r h
    cases c with
    | store =>
      cases r with
      | ok => rfl
      | error => cases h
    | _ => rfl
  obtain ⟨slot', v', hr, ht'⟩ := hrun
  exact ⟨slot', v', hr.mono fun _ _ hg => reliable_answered hg, ht'⟩

structure Retained (cert : EdfCa.ActiveCertificate) (boots : ℕ) (s : EdfCa.CaState) : Prop where
  present : EdfCa.Present cert boots s
  lasting : EdfCa.Lasting cert s
  active : ∀ c, s.activeCerts.lookup cert.metadata.serialNumber = some c → c = cert
  stored : ∀ e, s.entry cert.metadata.serialNumber = some e → e.value = .certificate cert

lemma retained_run {i : ℕ} {t : Span ApiState} {serial : String} {cert : EdfCa.ActiveCertificate}
    (hp : d.ca.persistent = true) (h1 : Reach (step (apiServer d)) (Dependable d) (start d now db) w1)
    (h2 : Reach (step (apiServer d)) (Dependable d) w1 w2) (hth : w1.threads[i]? = some th)
    (he : ⟨t, .ca (.insertActive serial cert), ()⟩ ∈ th.history) :
    serial = cert.metadata.serialNumber ∧ Retained cert t.after.ca.boots w2.shared.ca := by
  obtain ⟨slot1, v1, hr1, ht1⟩ := run_authority (tracks_start (authorityPart d) _) h1
  obtain ⟨slot2, v2, hr2, ht2⟩ := run_authority ht1 h2
  obtain ⟨j, reg, hreg, hmem⟩ := ht1.events i th t (.insertActive serial cert) () hth he
  obtain ⟨hserial, hserved⟩ := served_registered hp hr1 hreg hmem rfl
  have hv := served_run hr1 hserved hr2
  have ho := reach_orderly (hr1.trans hr2)
  have hstate : v2.shared = w2.shared.ca := ht2.state
  refine ⟨hserial, ?_⟩
  rw [← hstate]
  refine ⟨hv.present, ?_, ?_, ?_⟩
  · -- too short a lifetime for the store at the reading is over soon after it
    obtain ⟨l1, t', reading, l2, heq, hshort⟩ | hlasting := hv.lasting
    · have hc := (reach_orderly hr1).chronicle
      have hread : ⟨t', .utcNow, reading⟩ ∈ reg.history := by
        rw [heq]
        simp
      obtain ⟨o, hperf⟩ := hc.performed j reg _ hreg hread
      obtain ⟨hspan, hreading⟩ := perform_utcNow hperf
      have hle : reading ≤ v1.shared.now := by
        have hpast := (hc.past j reg _ hreg hread).1
        rw [hspan, ← hreading] at hpast
        exact hpast
      have hlater := measure_run (fun _ _ _ => now_step) hr2
      exact .inl (by omega)
    · exact hlasting
  · intro c hc
    obtain ⟨heq, hann⟩ := ho.sound.active _ c hc
    exact ho.sound.announced_unique hann hv.announced heq
  · intro e he
    obtain ⟨c, hval, heq, hann⟩ := ho.sound.stored _ e he
    rw [hval, ho.sound.announced_unique hann hv.announced heq]

end

section

variable {d : Deployment} {w w' : ApiPool} {a : Action}

lemma perform_clocks {s s' : ApiState} {o : ApiChoice} {c : ApiCmd} {r : c.Reply} (h : s.perform d c o = some (s', r)) :
    s'.quota.shared.now = s.quota.shared.now ∧ s'.ca.now = s.ca.now ∧ s'.ca.boots = s.ca.boots := by
  cases performed h with
  | @quota c r o q perform canonical =>
    refine ⟨?_, rfl, rfl⟩
    cases c with
    | base =>
      obtain ⟨o1, shared, hp, rfl⟩ := perform_base perform
      exact (Shared.perform_frame hp).1
    | readUsage => rw [(perform_readUsage perform).1]
    | cacheUsage => rw [perform_cacheUsage perform]
    | storeUsage => rw [perform_storeUsage perform]
    | resetUsage =>
      rw [perform_resetUsage perform]
      rfl
  | ca perform => exact ⟨rfl, perform_now perform, perform_boots perform⟩
  | _ => exact ⟨rfl, rfl, rfl⟩

lemma clock_step (h : step (apiServer d) w a = some w') :
    (∃ δ, w'.shared.quota.shared.now = w.shared.quota.shared.now + δ ∧ w'.shared.ca.now = w.shared.ca.now + δ) ∧
      w.shared.ca.boots ≤ w'.shared.ca.boots := by
  cases step_effect h with
  | @drift e drift threads =>
    cases e with
    | tick δ =>
      rw [← Option.some.inj drift]
      exact ⟨⟨δ, rfl, rfl⟩, Nat.le_refl _⟩
    | lapse =>
      obtain ⟨st, -, heq⟩ := map_eq_some_iff.mp drift
      rw [← heq]
      exact ⟨⟨0, rfl, rfl⟩, Nat.le_refl _⟩
    | put key entry =>
      cases entry with
      | none =>
        rw [← Option.some.inj drift]
        exact ⟨⟨0, rfl, rfl⟩, Nat.le_refl _⟩
      | some =>
        simp only [apiServer, ApiState.drift] at drift
        split_ifs at drift
        rw [← Option.some.inj drift]
        exact ⟨⟨0, rfl, rfl⟩, Nat.le_refl _⟩
  | arrive accept =>
    rw [← Option.some.inj accept]
    exact ⟨⟨0, rfl, rfl⟩, Nat.le_refl _⟩
  | exec thread prog perform =>
    obtain ⟨hq, hc, hb⟩ := perform_clocks perform
    exact ⟨⟨0, hq, hc⟩, by rw [hb]⟩
  | cancel thread inFlight shared =>
    rw [shared]
    exact ⟨⟨0, rfl, rfl⟩, Nat.le_refl _⟩
  | restart restart =>
    rw [← Option.some.inj restart]
    exact ⟨⟨0, rfl, rfl⟩, Nat.le_succ _⟩

lemma now_step (h : step (apiServer d) w a = some w') : w.shared.quota.shared.now ≤ w'.shared.quota.shared.now := by
  obtain ⟨⟨δ, hq, -⟩, -⟩ := clock_step h
  omega

lemma reach_clock {G : ApiPool → Action → Prop} {now : ℕ} {db : Plans.PlanDb}
    (h : Reach (step (apiServer d)) G (start d now db) w) : w.shared.ca.now = w.shared.quota.shared.now := by
  induction h with
  | refl => rfl
  | tail _ _ hstep =>
    obtain ⟨⟨δ, hq, hc⟩, -⟩ := clock_step hstep
    omega

end

end FleetingDns.ApiServer
