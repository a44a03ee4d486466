import FleetingDns.RateLimitTables
namespace FleetingDns.RateLimits

open Panics FixedWindow ExpiringStore Option RateLimitState List

variable {F L Ip : Type} {float : Binary64 F} {governor : Governor L} {config : RateLimitConfig F}
  {s s' : RateLimitState F L Ip} {c : RateLimitCall F Ip} {calls : List (RateLimitCall F Ip)} {ip : Ip} {limit : IpRateLimit}
  {now t u : ℕ} {kind : Kind} {token : String}

def Bounded (config : RateLimitConfig F) (limit : IpRateLimit) : Prop :=
  ∀ u, limit.blockedUntil = some u →
    u ≤ limit.lastReset + (60 + config.ddosProtection.ipBlockDurationSeconds) * second

lemma checkIp_blocked (h : limit.blockedUntil = some u) (ht : t < u) :
    checkIp config limit t = (.returned (.error "IP is temporarily blocked due to abuse"), limit) := by
  rw [checkIp, h, any_some, decide_eq_true ht, if_pos rfl]

lemma restart_started (window : ℕ) (limit : IpRateLimit) (now : ℕ) :
    now ≤ (restart window limit now).lastReset + window := by
  unfold restart
  split_ifs
  · exact Nat.le_add_right _ _
  · dsimp only
    omega

lemma checkIp_bounded (h : Bounded config limit) (now : ℕ) : Bounded config (checkIp config limit now).2 := by
  have hnone := restart_blockedUntil (60 * second) limit now
  have hnow := restart_started (60 * second) limit now
  have hunblocked : ∀ limit' : IpRateLimit, limit'.blockedUntil = none → Bounded config limit' := by
    intro limit' h' u hu
    rw [h'] at hu
    cases hu
  unfold checkIp
  dsimp only
  split_ifs
  · exact h
  · split
    · rename_i blockedUntil hadd
      rintro u ⟨⟩
      unfold checkedAdd at hadd
      split_ifs at hadd
      cases hadd
      rw [Nat.add_mul]
      dsimp only
      omega
    · exact hunblocked _ hnone
  · exact hunblocked _ hnone

structure SameFor (kind : Kind) (s s' : RateLimitState F L Ip) : Prop where
  limiters : s.limiters kind = s'.limiters kind
  userTiers : s.userTiers = s'.userTiers
  bypassTokens : s.bypassTokens = s'.bypassTokens
  systemLoad : s.systemLoad = s'.systemLoad

lemma SameFor.symm (h : SameFor kind s s') : SameFor kind s' s :=
  ⟨h.limiters.symm, h.userTiers.symm, h.bypassTokens.symm, h.systemLoad.symm⟩

lemma SameFor.trans {s'' : RateLimitState F L Ip} (h : SameFor kind s s') (h' : SameFor kind s' s'') : SameFor kind s s'' :=
  ⟨h.limiters.trans h'.limiters, h.userTiers.trans h'.userTiers, h.bypassTokens.trans h'.bypassTokens,
    h.systemLoad.trans h'.systemLoad⟩

lemma SameFor.check (h : SameFor kind s s') (token : String) (now : ℕ) :
    (check float governor config s kind token now).1 = (check float governor config s' kind token now).1 ∧
      SameFor kind (check float governor config s kind token now).2 (check float governor config s' kind token now).2 := by
  have hbody : ∀ create : String → Option L, ∀ exceeded,
      (checkRateLimit governor config kind create exceeded s token now).1 =
        (checkRateLimit governor config kind create exceeded s' token now).1 ∧
      SameFor kind (checkRateLimit governor config kind create exceeded s token now).2
        (checkRateLimit governor config kind create exceeded s' token now).2 := by
    intro create exceeded
    unfold checkRateLimit isBypassToken getUserTier
    rw [h.limiters, h.userTiers, h.bypassTokens]
    dsimp only
    split_ifs
    · exact ⟨rfl, h⟩
    split
    · exact ⟨rfl, h⟩
    split_ifs
    · exact ⟨rfl, h⟩
    · split
      · exact ⟨rfl, h⟩
      · refine ⟨rfl, ?_, rfl, rfl, h.systemLoad⟩
        simp only [Function.update_self]
  have hload : s.getSystemLoad float = s'.getSystemLoad float := by
    rw [getSystemLoad, h.systemLoad, getSystemLoad]
  cases kind with
  | api =>
    dsimp only [RateLimits.check, checkApiRateLimit]
    rw [hload]
    exact hbody _ _
  | tunnel | dns => exact hbody _ _

lemma sameFor_other {kind' : Kind} (hne : kind ≠ kind') (s : RateLimitState F L Ip) (token : String) (now : ℕ) :
    SameFor kind (check float governor config s kind' token now).2 s := by
  obtain hs | ⟨limiter, hs⟩ := check_state float governor config s kind' token now
  · rw [hs]
    exact ⟨rfl, rfl, rfl, rfl⟩
  · rw [hs]
    exact ⟨Function.update_of_ne hne _ _, rfl, rfl, rfl⟩

variable [DecidableEq Ip]

def AllBounded (config : RateLimitConfig F) (s : RateLimitState F L Ip) : Prop :=
  ∀ ip limit, s.ipLimiters.lookup ip = some limit → Bounded config limit

lemma lookup_serve (float : Binary64 F) (governor : Governor L) (config : RateLimitConfig F) (s : RateLimitState F L Ip)
    (c : RateLimitCall F Ip) (ip : Ip) :
    (serve float governor config s c).ipLimiters.lookup ip = s.ipLimiters.lookup ip ∨
    (∃ now, c = .checkIpRateLimit ip now ∧ (serve float governor config s c).ipLimiters.lookup ip =
      some (checkIp config ((s.ipLimiters.lookup ip).getD ⟨0, now, none⟩) now).2) ∨
    ∃ now, c = .cleanupOldEntries now ∧ (serve float governor config s c).ipLimiters.lookup ip =
      (s.ipLimiters.lookup ip).filter fun limit => now - limit.lastReset < 3600 * second := by
  cases c with
  | checkIpRateLimit ip' now =>
    by_cases h : ip = ip'
    · subst h
      exact .inr (.inl ⟨now, rfl, AList.lookup_insert _⟩)
    · exact .inl (AList.lookup_insert_ne h)
  | check kind token now =>
    obtain hs | ⟨limiter, hs⟩ := check_state float governor config s kind token now <;> exact .inl (by rw [serve, hs])
  | cleanupOldEntries now => exact .inr (.inr ⟨now, rfl, Tables.lookup_retain _ _ _⟩)
  | _ => exact .inl rfl

lemma bounded_serve (h : AllBounded config s) : AllBounded config (serve float governor config s c) := by
  intro ip limit hlookup
  obtain hs | ⟨now, -, hs⟩ | ⟨now, -, hs⟩ := lookup_serve float governor config s c ip
  · exact h ip limit (hs ▸ hlookup)
  · obtain rfl := mem_unique hs hlookup
    apply checkIp_bounded
    cases hold : s.ipLimiters.lookup ip with
    | none => rintro u ⟨⟩
    | some limit => exact h ip limit hold
  · rw [hs, filter_eq_some_iff] at hlookup
    exact h ip limit hlookup.1

lemma bounded_after (h : AllBounded config s) : AllBounded config (after float governor config s calls) := by
  induction calls generalizing s with
  | nil => exact h
  | cons c calls ih => exact ih (bounded_serve h)

def Held (s : RateLimitState F L Ip) (ip : Ip) (u : ℕ) : Prop :=
  ∃ limit, s.ipLimiters.lookup ip = some limit ∧ limit.blockedUntil = some u

section

variable (hD : config.ddosProtection.ipBlockDurationSeconds ≤ 3540) (hb : AllBounded config s) (h : Held s ip u)

include hD hb h

lemma held_serve (hread : ∀ t ∈ c.readings, t < u) : Held (serve float governor config s c) ip u := by
  obtain ⟨limit, hlookup, hu⟩ := h
  obtain hs | ⟨now, rfl, hs⟩ | ⟨now, rfl, hs⟩ := lookup_serve float governor config s c ip
  · exact ⟨limit, hs.trans hlookup, hu⟩
  · rw [hlookup, getD_some, checkIp_blocked hu (hread now mem_cons_self)] at hs
    exact ⟨limit, hs, hu⟩
  refine ⟨limit, ?_, hu⟩
  have hbound := hb ip limit hlookup u hu
  have hlt := hread now mem_cons_self
  rw [hs, hlookup, filter_some, if_pos]
  rw [decide_eq_true_eq]
  have hsum : (60 + config.ddosProtection.ipBlockDurationSeconds) * second ≤ 3600 * second :=
    Nat.mul_le_mul_right _ (by omega)
  have hpos : 0 < second := by decide
  omega

lemma held_after (hread : ∀ c ∈ calls, ∀ t ∈ c.readings, t < u) :
    Held (after float governor config s calls) ip u := by
  induction calls generalizing s with
  | nil => exact h
  | cons c calls ih =>
    exact ih (bounded_serve hb) (held_serve hD hb h (hread c mem_cons_self))
      fun c hc => hread c (mem_cons_of_mem _ hc)

end

lemma sameFor_serve (h : SameFor kind s s') (c : RateLimitCall F Ip) :
    SameFor kind (serve float governor config s c) (serve float governor config s' c) := by
  cases c with
  | checkIpRateLimit => exact ⟨h.limiters, h.userTiers, h.bypassTokens, h.systemLoad⟩
  | check kind' token now =>
    by_cases heq : kind = kind'
    · subst heq
      exact (h.check token now).2
    · exact (sameFor_other heq s token now).trans (h.trans (sameFor_other heq s' token now).symm)
  | setUserTier token tier => exact ⟨h.limiters, congrArg (·.insert token tier) h.userTiers, h.bypassTokens, h.systemLoad⟩
  | updateSystemLoad => exact ⟨h.limiters, h.userTiers, h.bypassTokens, rfl⟩
  | addBypassToken token =>
    exact ⟨h.limiters, h.userTiers, congrArg (·.insert token true) h.bypassTokens, h.systemLoad⟩
  | removeBypassToken token =>
    exact ⟨h.limiters, h.userTiers, congrArg (AList.erase token) h.bypassTokens, h.systemLoad⟩
  | cleanupOldEntries =>
    refine ⟨?_, h.userTiers, h.bypassTokens, h.systemLoad⟩
    dsimp only [serve, cleanupOldEntries]
    rw [h.limiters]

lemma sameFor_after (h : SameFor kind s s') (calls : List (RateLimitCall F Ip)) :
    SameFor kind (after float governor config s calls) (after float governor config s' calls) := by
  induction calls generalizing s s' with
  | nil => exact h
  | cons c calls ih => exact ih (sameFor_serve h c)

theorem cleanup_grants_nothing (float : Binary64 F) (governor : Governor L) (config : RateLimitConfig F)
    (earlier later : List (RateLimitCall F Ip)) (now : ℕ) (s : RateLimitState F L Ip)
    (hs : s = after float governor config .new earlier) :
    (config.ddosProtection.ipBlockDurationSeconds ≤ 3540 →
      ∀ ip limit blockedUntil, s.ipLimiters.lookup ip = some limit → limit.blockedUntil = some blockedUntil →
        now < blockedUntil → (∀ c ∈ later, ∀ t ∈ c.readings, t < blockedUntil) → ∀ t < blockedUntil,
        Refused (checkIpRateLimit config (after float governor config (cleanupOldEntries s now) later) ip t).1) ∧
    ∀ kind token t, (s.limiters kind).entries.length ≤ 10000 →
      (check float governor config (after float governor config (cleanupOldEntries s now) later) kind token t).1 =
        (check float governor config (after float governor config s later) kind token t).1 := by
  constructor
  · intro hD ip limit blockedUntil hlookup hblocked hnow hread t ht
    have hbounded : AllBounded config s := by
      rw [hs]
      exact bounded_after (by rintro ip limit ⟨⟩)
    have hheld : Held (after float governor config s (.cleanupOldEntries now :: later)) ip blockedUntil :=
      held_after hD hbounded ⟨limit, hlookup, hblocked⟩ (by simpa [RateLimitCall.readings, hnow] using hread)
    obtain ⟨limit', hlookup', hblocked'⟩ := hheld
    refine ⟨"IP is temporarily blocked due to abuse", ?_⟩
    dsimp only [after, foldl_cons, serve] at hlookup'
    dsimp only [checkIpRateLimit, after]
    rw [hlookup', getD_some, checkIp_blocked hblocked' ht]
  · intro kind token t hlength
    have hsame : SameFor kind (cleanupOldEntries s now) s := ⟨if_neg (by omega), rfl, rfl, rfl⟩
    exact ((sameFor_after hsame later).check token t).1

def strict (ipBlockDurationSeconds : ℕ) : RateLimitConfig ℚ :=
  { RateLimitConfig.default exact with ddosProtection := ⟨1, ipBlockDurationSeconds⟩ }

def abused (ipBlockDurationSeconds : ℕ) : RateLimitState ℚ Gcra String :=
  after exact gcra (strict ipBlockDurationSeconds) .new
    [.checkIpRateLimit "192.0.2.1" 0, .checkIpRateLimit "192.0.2.1" (60 * second)]

theorem cleanup_grants_nothing_strict :
    Refused (checkIpRateLimit (strict 3540) (cleanupOldEntries (abused 3540) (3599 * second)) "192.0.2.1"
      (3599 * second)).1 :=
  (cleanup_grants_nothing exact gcra (strict 3540) _ [] (3599 * second) (abused 3540) rfl).1 (by decide)
    "192.0.2.1" ⟨1, 0, some (3600 * second)⟩ (3600 * second) rfl rfl (by decide) (by simp) _
    (by decide)

theorem cleanup_unblocks :
    (abused 3600).ipLimiters.lookup "192.0.2.1" = some ⟨1, 0, some (3660 * second)⟩ ∧
      (checkIpRateLimit (strict 3600) (cleanupOldEntries (abused 3600) (3600 * second)) "192.0.2.1"
        (3600 * second)).1 = .returned (.ok ()) :=
  ⟨rfl, rfl⟩

end FleetingDns.RateLimits
