import FleetingDns.Library.ProgramRuns
import FleetingDns.QuotaServer
namespace FleetingDns.Quota

open CommandPrograms ThreadPool UsageTracker QuotaState List

variable {config : Config} {s s' : QuotaState} {u : String}

/-- Nothing else happens to the system meanwhile: only the clock moves. -/
def Alone (s s' : QuotaState) : Prop := ∃ d, s' = { s with shared := { s.shared with now := s.shared.now + d } }

abbrev Try (config : Config) {α : Type} (s : QuotaState) (p : Program α) (es : List Ev) (s' : QuotaState)
    (res : Option α) : Prop :=
  Attempt (perform config) Alone s p es s' res

def Idle (s s' : QuotaState) : Prop := s'.shared.store = s.shared.store

def readLength (s : QuotaState) (u : String) : ℕ := if (s.usage.lookup u).isSome then 1 else 4

variable {es : List Ev}

lemma Alone.same (h : Alone s s') : Idle s s' ∧ s'.usage = s.usage := by
  obtain ⟨d, rfl⟩ := h
  exact ⟨rfl, rfl⟩

lemma try_utcNow {α : Type} {k : ℕ → Program α} {res : Option α}
    (h : Try config s (issue (.base .utcNow) >>= k) es s' res) :
    (s' = s ∧ es = [] ∧ res = none) ∨ ∃ s1 now es', Idle s s1 ∧ s1.usage = s.usage ∧ Try config s1 (k now) es' s' res ∧
      es.length = es'.length + 1 := by
  obtain hstop | ⟨s1, s2, o, now, es', hd, hp, hk, rfl⟩ := attempt_call h
  · exact .inl hstop
  · obtain ⟨rfl, -⟩ := perform_utcNow hp
    obtain ⟨hidle, husage⟩ := hd.same
    exact .inr ⟨s2, now, es', hidle, husage, hk, rfl⟩

lemma try_cacheUsage {α : Type} {usage : UserUsage} {k : Unit → Program α} {res : Option α}
    (h : Try config s (issue (.cacheUsage u usage) >>= k) es s' res) : (s' = s ∧ es = [] ∧ res = none) ∨
      ∃ s1 es', Idle s s1 ∧ s1.usage.lookup u = some usage ∧ Try config s1 (k ()) es' s' res ∧
        es.length = es'.length + 1 := by
  obtain hstop | ⟨s1, s2, o, r, es', hd, hp, hk, rfl⟩ := attempt_call h
  · exact .inl hstop
  · obtain rfl := perform_cacheUsage hp
    exact .inr ⟨{ s1 with usage := s1.usage.insert u usage }, es', hd.same.1, AList.lookup_insert _, hk, rfl⟩

lemma try_getUserUsage {res : Option UserUsage} (h : Try config s (getUserUsage u) es s' res) :
    Idle s s' ∧ s'.created u = s.created u ∧ (res = none → es.length < readLength s u) ∧
      ∀ usage, res = some usage → s'.usage.lookup u = some usage ∧ es.length = readLength s u := by
  obtain ⟨rfl, rfl, rfl⟩ | ⟨s1, s2, o, r, es', hd, hp, hk, rfl⟩ := attempt_call h
  · refine ⟨rfl, rfl, ?_, by rintro _ ⟨⟩⟩
    unfold readLength
    split_ifs <;> simp
  obtain ⟨rfl, rfl⟩ := perform_readUsage hp
  obtain ⟨hidle, husage⟩ := hd.same
  have hcreated : s2.created u = s.created u := by rw [created, husage]; rfl
  rw [readLength, ← husage]
  cases hl : s2.usage.lookup u with
  | some =>
    rw [hl] at hk
    obtain ⟨rfl, rfl, rfl⟩ := attempt_ret hk
    refine ⟨hidle, hcreated, by rintro ⟨⟩, ?_⟩
    rintro _ ⟨⟩
    exact ⟨hl, rfl⟩
  | none =>
    rw [hl] at hk
    rw [← hcreated, created_of_none hl]
    obtain ⟨rfl, rfl, rfl⟩ | ⟨s3, lastUpdated, es3, hidle3, husage3, hk, hlen3⟩ := try_utcNow hk
    · exact ⟨hidle, created_of_none hl, fun _ => by simp, by rintro _ ⟨⟩⟩
    have hl3 : s3.usage.lookup u = none := by rw [husage3, hl]
    obtain ⟨rfl, rfl, rfl⟩ | ⟨s4, periodStart, es4, hidle4, husage4, hk, hlen4⟩ := try_utcNow hk
    · refine ⟨hidle3.trans hidle, created_of_none hl3, fun _ => ?_, by rintro _ ⟨⟩⟩
      simp at hlen3 ⊢
      omega
    have hl4 : s4.usage.lookup u = none := by rw [husage4, hl3]
    have hidle4 : Idle s s4 := hidle4.trans (hidle3.trans hidle)
    obtain ⟨rfl, rfl, rfl⟩ | ⟨s5, es5, hidle5, hl5, hk, hlen5⟩ := try_cacheUsage hk
    · refine ⟨hidle4, created_of_none hl4, fun _ => ?_, by rintro _ ⟨⟩⟩
      simp at hlen3 hlen4 ⊢
      omega
    obtain ⟨rfl, rfl, rfl⟩ := attempt_ret hk
    refine ⟨hidle5.trans hidle4, created_of_lookup hl5, by rintro ⟨⟩, ?_⟩
    rintro _ ⟨⟩
    refine ⟨hl5, ?_⟩
    simp at hlen3 hlen4 hlen5 ⊢
    omega

def writePoint (s : QuotaState) (u : String) : ℕ := readLength s u + 3

lemma try_recordUsage {usage : UserUsage} {res : Option Unit} (hl : s.usage.lookup u = some usage)
    (h : Try config s (recordUsage u .tunnelCreation 1) es s' res) :
    (res = none ∧ Idle s s' ∧ s'.created u = s.created u ∧ es.length < 3) ∨
      (res = some () ∧ s'.created u = s.created u + 1 ∧ es.length = 3) := by
  have hread : readLength s u = 1 := by rw [readLength, hl]; rfl
  obtain ⟨usage1, s1, es1, es2, h1, h2, rfl⟩ | ⟨rfl, h1⟩ := attempt_bind h
  · obtain ⟨hidle1, hcreated1, -, hread1⟩ := try_getUserUsage h1
    obtain ⟨hl1, hlen1⟩ := hread1 usage1 rfl
    rw [length_append, hlen1, hread]
    obtain ⟨rfl, rfl, rfl⟩ | ⟨s2, now, es3, hidle2, husage2, h3, hlen2⟩ := try_utcNow h2
    · exact .inl ⟨rfl, hidle1, hcreated1, by simp⟩
    have hcreated2 : s2.created u = s.created u := by rw [created, husage2]; exact hcreated1
    obtain ⟨rfl, rfl, rfl⟩ | ⟨s3, s4, o, r, es4, hd, hp, hk, rfl⟩ := attempt_call h3
    · refine .inl ⟨rfl, hidle2.trans hidle1, hcreated2, ?_⟩
      rw [hlen2]
      simp
    obtain rfl := perform_storeUsage hp
    obtain ⟨rfl, rfl, rfl⟩ := attempt_ret hk
    refine .inr ⟨rfl, ?_, ?_⟩
    · rw [created_of_lookup (AList.lookup_insert _), ← hcreated1, created_of_lookup hl1]
      rfl
    · rw [hlen2]
      simp
  · obtain ⟨hidle, hcreated, hlen, -⟩ := try_getUserUsage h1
    have := hlen rfl
    exact .inl ⟨rfl, hidle, hcreated, by omega⟩

lemma enforce_allowed (usage : UserUsage) :
    (enforce usage .tunnelCreation 1).allowed = true ↔
      usage.tunnelsCreatedCount + 1 ≤ quotaLimits.tunnelCreationLimit := by
  unfold enforce
  dsimp only
  split_ifs with hle
  · exact iff_of_true rfl hle
  · exact iff_of_false (by simp) hle

lemma try_checkQuota {res : Option QuotaEnforcementResult}
    (h : Try config s (UsageTracker.checkQuota u .tunnelCreation 1) es s' res) :
    Idle s s' ∧ s'.created u = s.created u ∧ (res = none ∧ es.length < readLength s u ∨
      ∃ result usage, res = some result ∧ s'.usage.lookup u = some usage ∧ es.length = readLength s u ∧
        (result.allowed = true ↔ s.created u + 1 ≤ quotaLimits.tunnelCreationLimit)) := by
  obtain ⟨usage, s1, es1, es2, h1, h2, rfl⟩ | ⟨rfl, h1⟩ := attempt_bind h
  · obtain ⟨rfl, rfl, rfl⟩ := attempt_ret h2
    obtain ⟨hidle, hcreated, -, hread⟩ := try_getUserUsage h1
    obtain ⟨hl, hlen⟩ := hread usage rfl
    refine ⟨hidle, hcreated, .inr ⟨_, usage, rfl, hl, by rw [append_nil, hlen], ?_⟩⟩
    rw [← hcreated, created_of_lookup hl]
    exact enforce_allowed usage
  · obtain ⟨hidle, hcreated, hlen, -⟩ := try_getUserUsage h1
    exact ⟨hidle, hcreated, .inl ⟨rfl, hlen rfl⟩⟩

def Counted (s : QuotaState) (u : String) (es : List Ev) (s' : QuotaState) (allowed : Option Bool) : Prop :=
  (Idle s s' ∧ s'.created u = s.created u ∧ (allowed = none ∧ es.length < writePoint s u ∨
    allowed = some false ∧ quotaLimits.tunnelCreationLimit < s.created u + 1)) ∨
  (s'.created u = s.created u + 1 ∧ s.created u + 1 ≤ quotaLimits.tunnelCreationLimit ∧ allowed = some true ∧
    es.length = writePoint s u)

lemma try_enforceQuota {res : Option QuotaEnforcementResult}
    (h : Try config s (enforceQuota u .tunnelCreation) es s' res) :
    Counted s u es s' (res.map QuotaEnforcementResult.allowed) := by
  obtain ⟨result, s1, es1, es2, h1, h2, rfl⟩ | ⟨rfl, h1⟩ := attempt_bind h
  · obtain ⟨hidle, hcreated, ⟨hn, -⟩ | ⟨_, usage, ⟨⟩, hl, hlen, hallowed⟩⟩ := try_checkQuota h1
    · cases hn
    rw [Counted, length_append, hlen, writePoint, ← hcreated]
    by_cases hok : result.allowed = true
    · rw [if_pos hok] at h2
      obtain ⟨_, s2, es3, es4, h3, h4, rfl⟩ | ⟨rfl, h3⟩ := attempt_bind h2
      · obtain ⟨rfl, rfl, rfl⟩ := attempt_ret h4
        obtain ⟨hn, -⟩ | ⟨-, hrecorded, hlen3⟩ := try_recordUsage hl h3
        · cases hn
        · refine .inr ⟨hrecorded, by rw [hcreated]; exact hallowed.mp hok, congrArg some hok, ?_⟩
          rw [append_nil, hlen3]
      · obtain ⟨-, hidle3, hcreated3, hlen3⟩ | ⟨hn, -⟩ := try_recordUsage hl h3
        · exact .inl ⟨hidle3.trans hidle, hcreated3, .inl ⟨rfl, by omega⟩⟩
        · cases hn
    · rw [if_neg hok] at h2
      obtain ⟨rfl, rfl, rfl⟩ := attempt_ret h2
      refine .inl ⟨hidle, rfl, .inr ⟨congrArg some (by simpa using hok), ?_⟩⟩
      rw [hcreated]
      exact lt_of_not_ge fun hle => hok (hallowed.mpr hle)
  · obtain ⟨hidle, hcreated, ⟨-, hlen⟩ | ⟨_, _, hn, -⟩⟩ := try_checkQuota h1
    · exact .inl ⟨hidle, hcreated, .inl ⟨rfl, by rw [writePoint]; omega⟩⟩
    · cases hn

lemma try_canCreateTunnel {res : Option Bool} (h : Try config s (canCreateTunnel u) es s' res) :
    Counted s u es s' res := by
  obtain ⟨result, s1, es1, es2, h1, h2, rfl⟩ | ⟨rfl, h1⟩ := attempt_bind h
  · obtain ⟨rfl, rfl, rfl⟩ := attempt_ret h2
    rw [append_nil]
    exact try_enforceQuota h1
  · exact try_enforceQuota h1

section

open CreateFlow

variable {user : GitHubUser} {request : CreateTunnelRequest}

lemma try_base {α : Type} {p : Program α} {res : Option α} (hp : Only Base p) (h : Try config s p es s' res) :
    s'.usage = s.usage := by
  induction h with
  | done | dropped => rfl
  | @call s s1 s2 s' c k o r es res hd hperform _ ih =>
    cases hp with
    | call hc hk =>
      cases c with
      | base =>
        obtain ⟨o', shared, -, rfl⟩ := perform_base hperform
        rw [ih (hk r)]
        exact hd.same.2
      | _ => exact hc.elim

lemma try_rejectIf {p : Prop} [Decidable p] {e : ApiError} {res : Option (Except ApiError Unit)}
    (h : Try config s ((rejectIf p e).run.expand serve) es s' res) :
    s' = s ∧ es = [] ∧ (p ∧ res = some (.error e) ∨ ¬p ∧ res = some (.ok ())) := by
  unfold rejectIf at h
  split_ifs at h with hp
  · obtain ⟨rfl, rfl, rfl⟩ := attempt_ret h
    exact ⟨rfl, rfl, .inl ⟨hp, rfl⟩⟩
  · obtain ⟨rfl, rfl, rfl⟩ := attempt_ret h
    exact ⟨rfl, rfl, .inr ⟨hp, rfl⟩⟩

lemma try_askQuota {res : Option (Except ApiError Bool)}
    (h : Try config s ((FleetingDns.checkQuota u).run.expand serve) es s' res) :
    ∃ allowed, res = allowed.map .ok ∧ Counted s u es s' allowed := by
  rw [checkQuota_expand] at h
  obtain ⟨b, s1, es1, es2, h1, h2, rfl⟩ | ⟨rfl, h1⟩ := attempt_bind h
  · obtain ⟨rfl, rfl, rfl⟩ := attempt_ret h2
    rw [append_nil]
    exact ⟨some b, rfl, try_canCreateTunnel h1⟩
  · exact ⟨none, rfl, try_canCreateTunnel h1⟩

def provisioned : Key → Bool
  | .tunnel _ | .tunnelLookup _ | .subdomain _ | .slot _ | .port _ | .session _ _ => true
  | _ => false

def Unchanged (userId : String) (s s' : QuotaState) : Prop :=
  (∀ k, provisioned k = true → s'.shared.store.lookup k = s.shared.store.lookup k) ∧ s'.created userId = s.created userId

lemma Idle.unchanged (h : Idle s s') (hcreated : s'.created u = s.created u) : Unchanged u s s' :=
  ⟨fun _ _ => by rw [h], hcreated⟩

lemma try_countedCreation {res : Option (Except ApiError CreateTunnelResponse)}
    (h : Try config s ((do
      let canCreate ← FleetingDns.checkQuota user.id
      rejectIf (!canCreate) quotaExceeded
      provision config.api user request : Api CreateTunnelResponse).run.expand serve) es s' res) :
    (Unchanged user.id s s' ∧ (quotaLimits.tunnelCreationLimit < s.created user.id + 1 ∨
      res = none ∧ es.length < writePoint s user.id)) ∨
    (s'.created user.id = s.created user.id + 1 ∧ s.created user.id + 1 ≤ quotaLimits.tunnelCreationLimit ∧
      writePoint s user.id ≤ es.length) := by
  obtain ⟨canCreate, s1, es1, es2, h1, h2, rfl⟩ | ⟨e, -, h1⟩ | ⟨rfl, h1⟩ := attempt_expand_seq h
  · obtain ⟨_ | _, ⟨⟩, hcounted⟩ := try_askQuota h1
    obtain ⟨_, s2, es3, es4, h3, h4, rfl⟩ | ⟨e, rfl, h3⟩ | ⟨-, h3⟩ := attempt_expand_seq h2
    · obtain ⟨rfl, rfl, ⟨-, ⟨⟩⟩ | ⟨hallowed, -⟩⟩ := try_rejectIf h3
      have hlater : s'.created user.id = s2.created user.id := by
        rw [created, try_base (base_provision config.api user request) h4]
        rfl
      obtain ⟨-, -, ⟨⟨⟩, -⟩ | ⟨⟨⟩, -⟩⟩ | ⟨hcreated, hle, -, hlen⟩ := hcounted
      · exact absurd rfl hallowed
      · exact .inr ⟨hlater.trans hcreated, hle, by simp [hlen]⟩
    · obtain ⟨rfl, rfl, ⟨hno, -⟩ | ⟨-, ⟨⟩⟩⟩ := try_rejectIf h3
      obtain ⟨hidle, hcreated, ⟨⟨⟩, -⟩ | ⟨-, hlimit⟩⟩ | ⟨-, -, ⟨⟩, -⟩ := hcounted
      · exact .inl ⟨hidle.unchanged hcreated, .inl hlimit⟩
      · cases hno
    · obtain ⟨-, -, ⟨-, ⟨⟩⟩ | ⟨-, ⟨⟩⟩⟩ := try_rejectIf h3
  · obtain ⟨_ | _, ⟨⟩, -⟩ := try_askQuota h1
  · obtain ⟨_ | _, ⟨⟩, hcounted⟩ := try_askQuota h1
    obtain ⟨hidle, hcreated, ⟨-, hlen⟩ | ⟨⟨⟩, -⟩⟩ | ⟨-, -, ⟨⟩, -⟩ := hcounted
    exact .inl ⟨hidle.unchanged hcreated, .inr ⟨rfl, hlen⟩⟩

def AllOrNothing (userId : String) (s s' : QuotaState) (res : Option (Except ApiError CreateTunnelResponse)) : Prop :=
  (∃ response, res = some (.ok response)) ∨ Unchanged userId s s'

theorem failed_creation_unchanged_iff {res : Option (Except ApiError CreateTunnelResponse)}
    (h : Try config s (createTunnel config.api user request) es s' res) (hfail : ∀ response, res ≠ some (.ok response)) :
    AllOrNothing user.id s s' res ↔ config.api.maxTunnelTtl < request.ttl.getD config.api.defaultTunnelTtl ∨
      quotaLimits.tunnelCreationLimit < s.created user.id + 1 ∨ res = none ∧ es.length < writePoint s user.id := by
  rw [AllOrNothing, or_iff_right (fun ⟨response, hres⟩ => hfail response hres)]
  rw [createTunnel, createTunnel_eq] at h
  obtain ⟨_, s0, es0, es1, h0, h1, rfl⟩ | ⟨e, rfl, h0⟩ | ⟨-, h0⟩ := attempt_expand_seq h
  · obtain ⟨rfl, rfl, ⟨-, ⟨⟩⟩ | ⟨httl, -⟩⟩ := try_rejectIf h0
    obtain ⟨hsame, hearly⟩ | ⟨hcreated, hle, hlen⟩ := try_countedCreation h1
    · exact iff_of_true hsame (.inr hearly)
    · refine iff_of_false ?_ ?_
      · rintro ⟨-, hsame⟩
        omega
      · rintro (hlong | hlimit | ⟨-, hearly⟩)
        · exact httl hlong
        · omega
        · exact absurd hearly (not_lt.mpr hlen)
  · obtain ⟨rfl, rfl, ⟨httl, -⟩ | ⟨-, ⟨⟩⟩⟩ := try_rejectIf h0
    exact iff_of_true ⟨fun _ _ => rfl, rfl⟩ (.inl httl)
  · obtain ⟨-, -, ⟨-, ⟨⟩⟩ | ⟨-, ⟨⟩⟩⟩ := try_rejectIf h0

open FleetingDns.Schedule Schedule

def appCreation : Program (Except ApiError CreateTunnelResponse) :=
  createTunnel deployment.api alice (FleetingDns.Schedule.request 600 "app")

lemma try_of_conduct (os : List QuotaChoice)
    (p : List Ev × QuotaState × Option (Except ApiError CreateTunnelResponse) → Bool)
    (h : (conduct (perform deployment) os idle appCreation).any p = true) :
    ∃ es s' res, Try deployment idle appCreation es s' res ∧ p (es, s', res) = true := by
  rw [Option.any_eq_true] at h
  obtain ⟨⟨es, s', res⟩, hx, hp⟩ := h
  exact ⟨es, s', res, attempt_of_conduct (fun s => ⟨0, rfl⟩) hx, hp⟩

theorem failed_creation_unchanged_dropped : ∃ es s', Try deployment idle appCreation es s' none ∧ es.length = 6 ∧
    AllOrNothing alice.id idle s' none := by
  obtain ⟨es, s', res, hrun, hp⟩ := try_of_conduct (count.take 6)
    (fun x => x.2.2.isNone && x.1.length = 6) (by decide +kernel)
  simp only [Bool.and_eq_true, Option.isNone_iff_eq_none, decide_eq_true_eq] at hp
  obtain ⟨rfl, hlen⟩ := hp
  refine ⟨es, s', hrun, hlen, (failed_creation_unchanged_iff hrun (by rintro _ ⟨⟩)).mpr (.inr (.inr ⟨rfl, ?_⟩))⟩
  rw [hlen]
  decide

def isError : Option (Except ApiError CreateTunnelResponse) → Bool
  | some (.error _) => true
  | _ => false

def leftBehind : List Key :=
  [.tunnel "t1", .tunnelLookup "1", .subdomain "app", .slot "app.fleetingdns.run", .port 10000]

theorem failed_creation_leaves_traces : ∃ es s' e, Try deployment idle appCreation es s' (some (.error e)) ∧
    ¬ AllOrNothing alice.id idle s' (some (.error e)) ∧ s'.created alice.id = 1 ∧
    ∀ k ∈ leftBehind, (idle.shared.store.lookup k).isNone ∧ (s'.shared.store.lookup k).isSome := by
  obtain ⟨es, s', res, hrun, hp⟩ := try_of_conduct
    (count ++ (provide 10000 "t1").dropLast ++ [.base (.redis (.refused "OOM"))])
    (fun x => isError x.2.2 && x.2.1.created alice.id = 1
      && leftBehind.all fun k => (x.2.1.shared.store.lookup k).isSome) (by decide +kernel)
  simp only [Bool.and_eq_true, decide_eq_true_eq, all_eq_true] at hp
  obtain ⟨⟨herror, hcreated⟩, hleft⟩ := hp
  obtain ⟨e, rfl⟩ : ∃ e, res = some (.error e) := by
    unfold isError at herror
    split at herror
    · exact ⟨_, rfl⟩
    · cases herror
  refine ⟨es, s', e, hrun, ?_, hcreated, fun k hk => ⟨rfl, hleft k hk⟩⟩
  rintro (⟨_, ⟨⟩⟩ | ⟨-, hsame⟩)
  rw [hcreated] at hsame
  exact absurd hsame (by decide)

end

end FleetingDns.Quota
