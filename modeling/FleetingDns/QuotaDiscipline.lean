import FleetingDns.CreateSuccess
import FleetingDns.QuotaServer
namespace FleetingDns.Quota

open CommandPrograms ThreadPool UsageTracker CreateFlow UserUsage

def sight (u : String) : Ev → Option ℤ
  | ⟨_, .readUsage v, r⟩ => if v = u then some ((r.map tunnelsCreatedCount).getD 0) else none
  | _ => none

def seen (u : String) (h : List Ev) : List ℤ := h.filterMap (sight u)

def stores (u : String) : QuotaCmd → Bool
  | .storeUsage v _ => v = u
  | _ => false

def stored (u : String) (h : List Ev) : Bool := h.any fun e => stores u e.cmd

def QuotaCall.adds : QuotaCall → ℤ
  | createTunnel _ _ => 1
  | checkOperationAllowed _ operationType => if operationType = "tunnel_creation" then 1 else 0
  | getQuotaInfo _ | resetUserUsage _ => 0

def MayStore (call : QuotaCall) (h : List Ev) (usage : UserUsage) : Prop :=
  (∃ n ∈ seen call.userId h, usage.tunnelsCreatedCount = n + call.adds) ∧
    ∃ n ∈ seen call.userId h, 0 < call.adds → n + call.adds ≤ quotaLimits.tunnelCreationLimit

def May (call : QuotaCall) (h : List Ev) : QuotaCmd → Prop
  | .base _ => True
  | .readUsage v => v = call.userId ∧ stored v h = false
  | .cacheUsage v usage => v = call.userId ∧ stored v h = false ∧ 0 ∈ seen v h ∧ usage.tunnelsCreatedCount = 0
  | .storeUsage v usage => v = call.userId ∧ stored v h = false ∧ MayStore call h usage
  | .resetUsage v => call = .resetUserUsage v

def favourable (config : ApiConfig) (request : CreateTunnelRequest) : (c : QuotaCmd) → c.Reply → Bool
  | .base c, r => favours config request c r
  | _, _ => true

def succeeded : QuotaDone → Bool
  | .created (.ok _) => true
  | _ => false

def Ends (config : ApiConfig) (u : String) (call : QuotaCall) (h : List Ev) (d : QuotaDone) : Prop :=
  match call with
  | .createTunnel user request => user.id = u → (succeeded d = true → stored u h = true) ∧
    (stored u h = true → acceptable config user request = true →
      (∀ e ∈ h, favourable config request e.cmd e.reply = true) → succeeded d = true)
  | _ => True

section

variable {call : QuotaCall} {h : List Ev} {t : Span QuotaState} {u : String}

@[simp] lemma seen_read (v : String) (r : Option UserUsage) : seen u (h ++ [⟨t, .readUsage v, r⟩]) =
    seen u h ++ if v = u then [(r.map tunnelsCreatedCount).getD 0] else [] := by
  by_cases hv : v = u <;> simp [sight, hv, seen]

lemma seen_other {c : QuotaCmd} {r : c.Reply} (hc : ∀ v, c ≠ .readUsage v) : seen u (h ++ [⟨t, c, r⟩]) = seen u h := by
  cases c with
  | readUsage v => exact absurd rfl (hc v)
  | _ => simp [sight, seen]

section

variable (hu : call.userId = u) (hs : stored u h = false)

include hu hs

lemma getUserUsage_obeys :
    Obeys (May call) (fun h' usage => stored u h' = false ∧ usage.tunnelsCreatedCount ∈ seen u h' ∧
      ∀ n ∈ seen u h, n ∈ seen u h') (getUserUsage u) h := by
  refine meets_issue ⟨hu.symm, hs⟩ ?_
  rintro r _ ⟨t, rfl⟩
  have hread : ∀ n ∈ seen u h, n ∈ seen u (h ++ [⟨t, .readUsage u, r⟩]) := by
    intro n hn
    rw [seen_read]
    exact List.mem_append_left _ hn
  cases r with
  | some => exact .ret ⟨by simpa [stored, stores] using hs, by simp, hread⟩
  | none =>
    refine meets_issue trivial ?_
    rintro lastUpdated _ ⟨t1, rfl⟩
    refine meets_issue trivial ?_
    rintro periodStart _ ⟨t2, rfl⟩
    have hzero : 0 ∈ seen u (h ++ [⟨t, .readUsage u, none⟩] ++ [⟨t1, .base .utcNow, lastUpdated⟩]
        ++ [⟨t2, .base .utcNow, periodStart⟩]) := by
      rw [seen_other (by rintro _ ⟨⟩), seen_other (by rintro _ ⟨⟩)]
      simp
    refine meets_issue ⟨hu.symm, by simpa [stored, stores] using hs, hzero, rfl⟩ ?_
    rintro _ _ ⟨t3, rfl⟩
    refine .ret ⟨by simpa [stored, stores] using hs, ?_, ?_⟩
    · rw [seen_other (by rintro _ ⟨⟩)]
      exact hzero
    · intro n hn
      rw [seen_other (by rintro _ ⟨⟩), seen_other (by rintro _ ⟨⟩), seen_other (by rintro _ ⟨⟩)]
      exact hread n hn

lemma checkQuota_obeys (quotaType : QuotaType) : Obeys (May call) (fun h' result => stored u h' = false ∧
      (result.allowed = true → ∃ n ∈ seen u h', quotaType = .tunnelCreation → n + 1 ≤ quotaLimits.tunnelCreationLimit))
      (UsageTracker.checkQuota u quotaType 1) h := by
  refine meets_seq (getUserUsage_obeys hu hs) ?_
  rintro h' usage ⟨hs', hseen, -⟩
  refine .ret ⟨hs', fun hallowed => ⟨_, hseen, ?_⟩⟩
  rintro rfl
  unfold enforce at hallowed
  dsimp only at hallowed
  split_ifs at hallowed with hle
  exact hle

lemma recordUsage_obeys {quotaType : QuotaType} (hadds : call.adds = if quotaType = .tunnelCreation then 1 else 0)
    (hroom : ∃ n ∈ seen u h, quotaType = .tunnelCreation → n + 1 ≤ quotaLimits.tunnelCreationLimit) :
    Obeys (May call) (fun h' _ => stored u h' = true) (recordUsage u quotaType 1) h := by
  refine meets_seq (getUserUsage_obeys hu hs) ?_
  rintro h1 usage ⟨hs1, hseen, hkept⟩
  refine meets_issue trivial ?_
  rintro now _ ⟨t, rfl⟩
  have hstore : MayStore call (h1 ++ [⟨t, .base .utcNow, now⟩]) { usage.add 1 quotaType with lastUpdated := now } := by
    rw [MayStore, seen_other (by rintro _ ⟨⟩), hu, hadds]
    refine ⟨⟨_, hseen, by cases quotaType <;> simp [add]⟩, ?_⟩
    obtain ⟨n, hn, hle⟩ := hroom
    refine ⟨n, hkept n hn, ?_⟩
    split_ifs with htype
    · exact fun _ => hle htype
    · exact fun hpos => absurd hpos (lt_irrefl _)
  refine .call ⟨hu.symm, by simpa [stored, stores] using hs1, hstore⟩ ?_
  rintro _ _ ⟨t', rfl⟩
  exact .ret (by simp [stored, stores])

end

lemma enforceQuota_obeys (quotaType : QuotaType) (hu : call.userId = u) (hs : stored u h = false)
    (hadds : call.adds = if quotaType = .tunnelCreation then 1 else 0) :
    Obeys (May call) (fun h' result => stored u h' = result.allowed) (enforceQuota u quotaType) h := by
  refine meets_seq (checkQuota_obeys hu hs quotaType) ?_
  rintro h1 result ⟨hs1, hroom⟩
  split_ifs with hallowed
  · refine meets_seq (recordUsage_obeys hu hs1 hadds (hroom hallowed)) ?_
    intro h2 _ hs2
    exact .ret (by rw [hs2, hallowed])
  · exact .ret (by rw [hs1, Bool.eq_false_iff.mpr hallowed])

lemma canCreateTunnel_obeys (hu : call.userId = u) (hs : stored u h = false) (hadds : call.adds = 1) :
    Obeys (May call) (fun h' allowed => stored u h' = allowed) (canCreateTunnel u) h := by
  refine meets_seq (enforceQuota_obeys .tunnelCreation hu hs hadds) ?_
  intro h' result hresult
  exact .ret hresult

lemma provision_obeys {config : ApiConfig} {user : GitHubUser} {request : CreateTunnelRequest}
    (hs : stored u h = true) :
    Obeys (May call) (fun h' r => stored u h' = true ∧ (acceptable config user request = true →
      (∀ e ∈ h', favourable config request e.cmd e.reply = true) → ∃ response, r = .ok response))
      ((provision config user request).run.expand serve) h := by
  have hbase : Obeys (May call) (fun h' _ => stored u h' = true)
      ((provision config user request).run.expand serve) h := by
    refine meets_only ?_ ?_ (base_provision config user request) hs
    · intro h' c hc _
      cases c with
      | base => trivial
      | _ => exact hc.elim
    · intro h' c t r _ hs'
      rw [stored, List.any_append, Bool.or_eq_true]
      exact .inl hs'
  by_cases hok : acceptable config user request = true
  · have hyields : Yields (fun c r => favourable config request c r = true)
        (fun r => ∃ response, r = .ok response ∧ True) ((provision config user request).run.expand serve) := by
      refine yields_expand ?_ (unasked_provision config user request) (favoured_provision hok)
      intro c hc
      rw [serve_unasked hc]
      exact yields_issue (QuotaCmd.base c)
    refine meets_mono (fun _ _ hc => hc) ?_ (meets_and hbase (meets_yields hyields h))
    rintro h' r ⟨hs', hr⟩
    refine ⟨hs', fun _ hall => ?_⟩
    obtain ⟨response, hresponse, -⟩ := hr hall
    exact ⟨response, hresponse⟩
  · exact meets_mono (fun _ _ hc => hc) (fun h' r hs' => ⟨hs', fun hok' => absurd hok' hok⟩) hbase

lemma askQuota_obeys (hu : call.userId = u) (hs : stored u h = false) (hadds : call.adds = 1) :
    Obeys (May call) (fun h' r => ∃ allowed, r = .ok allowed ∧ stored u h' = allowed)
      ((FleetingDns.checkQuota u).run.expand serve) h := by
  rw [checkQuota_expand]
  refine meets_seq (canCreateTunnel_obeys hu hs hadds) ?_
  intro h' allowed hallowed
  exact .ret ⟨allowed, rfl, hallowed⟩

lemma rejectIf_obeys {p : Prop} [Decidable p] {e : ApiError} :
    Obeys (May call) (fun h' r => h' = h ∧ (p ∧ r = .error e ∨ ¬ p ∧ r = .ok ()))
      ((rejectIf p e).run.expand serve) h := by
  unfold rejectIf
  split_ifs with hp
  · exact .ret ⟨rfl, .inl ⟨hp, rfl⟩⟩
  · exact .ret ⟨rfl, .inr ⟨hp, rfl⟩⟩

variable {config : ApiConfig} {user : GitHubUser} {request : CreateTunnelRequest}

lemma ends_uncounted (e : ApiError) (hs : stored user.id h = false) :
    Ends config u (.createTunnel user request) h (.created (.error e)) := by
  rintro rfl
  exact ⟨by rintro ⟨⟩, fun hs' => absurd (hs.symm.trans hs') (by decide)⟩

lemma createTunnel_obeys (config : ApiConfig) (u : String) (user : GitHubUser) (request : CreateTunnelRequest) :
    Obeys (May (.createTunnel user request)) (fun h r => Ends config u (.createTunnel user request) h (.created r))
      (createTunnel config user request) [] := by
  refine meets_expand_seq rejectIf_obeys ?_ ?_
  · rintro _ _ ⟨rfl, -⟩
    refine meets_expand_seq (askQuota_obeys rfl rfl rfl) ?_ ?_
    · rintro h canCreate ⟨_, ⟨⟩, hs⟩
      refine meets_expand_seq rejectIf_obeys ?_ ?_
      · rintro _ _ ⟨rfl, ⟨-, ⟨⟩⟩ | ⟨hallowed, -⟩⟩
        rw [Bool.not_eq_true', Bool.not_eq_false, ← hs] at hallowed
        refine meets_mono (fun _ _ hc => hc) ?_ (provision_obeys hallowed)
        rintro h' r ⟨hs', hr⟩ rfl
        refine ⟨fun _ => hs', fun _ hok hall => ?_⟩
        obtain ⟨response, rfl⟩ := hr hok hall
        rfl
      · rintro _ e ⟨rfl, ⟨hrefused, -⟩ | ⟨-, ⟨⟩⟩⟩
        rw [Bool.not_eq_true', ← hs] at hrefused
        exact ends_uncounted e hrefused
    · rintro h e ⟨_, ⟨⟩, -⟩
  · rintro _ e ⟨rfl, -⟩
    exact ends_uncounted e rfl

lemma checkOperationAllowed_obeys (userId operationType : String) :
    Abides (May (.checkOperationAllowed userId operationType))
      (checkOperationAllowed userId operationType) [] := by
  have hallowed : ∀ quotaType : QuotaType,
      (QuotaCall.checkOperationAllowed userId operationType).adds = (if quotaType = .tunnelCreation then 1 else 0) →
      Abides (May (.checkOperationAllowed userId operationType))
        (do return (← enforceQuota userId quotaType).allowed) [] := by
    intro quotaType hadds
    exact meets_seq (enforceQuota_obeys quotaType rfl rfl hadds) fun _ _ _ => .ret trivial
  unfold checkOperationAllowed
  split_ifs with hapi htunnel hdns
  · exact meets_seq (hallowed .apiCalls (by rw [hapi]; rfl)) fun _ _ _ => .ret trivial
  · exact meets_seq (hallowed .tunnelCreation (by rw [htunnel]; rfl)) fun _ _ _ => .ret trivial
  · exact meets_seq (hallowed .dnsProvisioning (by rw [hdns]; rfl)) fun _ _ _ => .ret trivial
  · exact .ret trivial

lemma call_obeys (config : Config) (u : String) (call : QuotaCall) :
    Obeys (May call) (Ends config.api u call) (call.program config) [] := by
  cases call with
  | createTunnel user request =>
    exact meets_seq (createTunnel_obeys config.api u user request) fun _ _ hends => .ret hends
  | getQuotaInfo =>
    refine meets_seq (M := fun _ _ => True) ?_ fun _ _ _ => .ret trivial
    exact meets_seq (getUserUsage_obeys rfl rfl) fun _ _ _ => .ret trivial
  | checkOperationAllowed userId operationType =>
    exact meets_seq (checkOperationAllowed_obeys userId operationType) fun _ _ _ => .ret trivial
  | resetUserUsage =>
    refine meets_seq (M := fun _ _ => True) ?_ fun _ _ _ => .ret trivial
    exact meets_issue rfl fun _ _ _ => meets_issue trivial fun _ _ _ => .ret trivial

end

end FleetingDns.Quota
