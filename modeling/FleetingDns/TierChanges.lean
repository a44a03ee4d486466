import FleetingDns.RateLimitTables
namespace FleetingDns.RateLimits

open Panics Option RateLimitState List

section

variable {F L Ip : Type} (float : Binary64 F) (governor : Governor L) (config : RateLimitConfig F)

def create (s : RateLimitState F L Ip) : Kind → String → Option L
  | .api => createApiLimiter float governor config (s.getSystemLoad float)
  | .tunnel => createTunnelLimiter float governor config
  | .dns => createDnsLimiter governor config

def exceeded : Kind → String
  | .api => "API rate limit exceeded for tier: "
  | .tunnel => "Tunnel creation rate limit exceeded for tier: "
  | .dns => "DNS operation rate limit exceeded for tier: "

def RateLimitCall.plain : RateLimitCall F Ip → Bool
  | .checkIpRateLimit _ _ => true
  | .check _ _ _ => true
  | .setUserTier _ _ => true
  | .updateSystemLoad _ => true
  | _ => false

def feed (token : String) (quota : Quota) (times : List ℕ) : L :=
  times.foldl (fun limiter now => (governor.checkKey limiter token now).2) (governor.keyed quota)

def governed (load : F) (tier : String) (kind : Kind) (token : String) (times : List ℕ) (now : ℕ) : Checked :=
  match tierConfig config tier with
  | none => unwrapped
  | some tierConfig =>
    if tierConfig.bypassRateLimits then .returned (.ok ())
    else match quotaOf float config load tierConfig kind with
      | none => unwrapped
      | some quota => .returned (if (governor.checkKey (feed governor token quota times) token now).1 then .ok ()
          else .error (exceeded kind ++ tier))

def countingTier (s : RateLimitState F L Ip) (token : String) : Option (UserTier F) :=
  (tierConfig config (s.getUserTier token)).filter (!·.bypassRateLimits)

/-- The checks of a kind that count for a token, with the quota that its tier and the load stand for at the time. -/
def counted [DecidableEq Ip] (kind : Kind) (token : String) :
    RateLimitState F L Ip → List (RateLimitCall F Ip) → List (ℕ × Option Quota)
  | _, [] => []
  | s, c :: calls =>
    let rest := counted kind token (serve float governor config s c) calls
    match c with
    | .check kind' token' now =>
      if kind' = kind ∧ token' = token then
        match countingTier config s token with
        | some tier => (now, quotaOf float config (s.getSystemLoad float) tier kind) :: rest
        | none => rest
      else rest
    | _ => rest

end

variable {F L Ip : Type} {float : Binary64 F} {governor : Governor L} {config : RateLimitConfig F}
  {s : RateLimitState F L Ip} {kind : Kind} {token : String} {now : ℕ} {tier : UserTier F} {quota : Option Quota}
  {times : List ℕ}

lemma check_eq (float : Binary64 F) (governor : Governor L) (config : RateLimitConfig F) (s : RateLimitState F L Ip)
    (kind : Kind) : check float governor config s kind =
      checkRateLimit governor config kind (create float governor config s kind) (exceeded kind) s := by
  cases kind <;> rfl

lemma create_eq {name : String} (h : tierConfig config name = some tier) : create float governor config s kind name =
    (quotaOf float config (s.getSystemLoad float) tier kind).map governor.keyed := by
  cases kind <;>
    simp [create, createApiLimiter, createTunnelLimiter, createDnsLimiter, quotaOf, h, map_eq_bind]

section

variable (governor token quota times)

def kept : Option L :=
  if times = [] then none else quota.map (feed governor token · times)

lemma kept_or :
    (kept governor token quota times).or (quota.map governor.keyed) = quota.map (feed governor token · times) := by
  unfold kept
  split_ifs with h
  · subst h
    rfl
  · cases quota <;> rfl

lemma kept_snoc (now : ℕ) : kept governor token quota (times ++ [now]) =
      quota.map fun quota => (governor.checkKey (feed governor token quota times) token now).2 := by
  unfold kept feed
  simp

end

lemma check_counting (hbypass : s.bypassTokens = ∅) (htier : countingTier config s token = some tier)
    (hkept : (s.limiters kind).lookup token = kept governor token (quotaOf float config (s.getSystemLoad float) tier kind) times) :
    check float governor config s kind token now =
      match quotaOf float config (s.getSystemLoad float) tier kind with
      | none => (unwrapped, s)
      | some quota =>
        let checked := governor.checkKey (feed governor token quota times) token now
        (.returned (if checked.1 then .ok () else .error (exceeded kind ++ s.getUserTier token)),
          { s with limiters := Function.update s.limiters kind ((s.limiters kind).insert token checked.2) }) := by
  obtain ⟨hconfig, hcounts⟩ := filter_eq_some_iff.mp htier
  rw [check_eq, checkRateLimit, isBypassToken, hbypass]
  dsimp only
  rw [if_neg (by simp), hconfig]
  dsimp only
  rw [if_neg (by simpa using hcounts), create_eq hconfig, hkept, kept_or]
  cases quotaOf float config (s.getSystemLoad float) tier kind <;> rfl

lemma check_exempt (hbypass : s.bypassTokens = ∅) (htier : countingTier config s token = none) :
    check float governor config s kind token now =
      (if (tierConfig config (s.getUserTier token)).isSome then .returned (.ok ()) else unwrapped, s) := by
  rw [check_eq, checkRateLimit, isBypassToken, hbypass]
  unfold countingTier at htier
  cases hconfig : tierConfig config (s.getUserTier token) with
  | none => simp [hconfig]
  | some =>
    rw [hconfig, filter_some] at htier
    split_ifs at htier with hcounts
    simp at hcounts
    simp [hconfig, hcounts]

lemma check_lookup {kind' : Kind} {token' : String} (hne : ¬(kind' = kind ∧ token' = token)) :
    (((check float governor config s kind' token' now).2).limiters kind).lookup token = (s.limiters kind).lookup token := by
  obtain h | ⟨limiter, h⟩ := check_state float governor config s kind' token' now
  · rw [h]
  rw [h]
  by_cases hkind : kind' = kind
  · subst hkind
    dsimp only
    rw [Function.update_self]
    exact AList.lookup_insert_ne fun htoken => hne ⟨rfl, htoken.symm⟩
  · dsimp only
    rw [Function.update_of_ne (Ne.symm hkind)]

variable [DecidableEq Ip] {c : RateLimitCall F Ip} {calls : List (RateLimitCall F Ip)}

lemma serve_bypassTokens (h : s.bypassTokens = ∅) (hc : c.plain = true) :
    (serve float governor config s c).bypassTokens = ∅ := by
  cases c with
  | check kind token now =>
    obtain hs | ⟨limiter, hs⟩ := check_state float governor config s kind token now <;> rw [serve, hs] <;> exact h
  | addBypassToken | removeBypassToken | cleanupOldEntries => cases hc
  | _ => exact h

lemma counted_cons (s : RateLimitState F L Ip) (c : RateLimitCall F Ip) (calls : List (RateLimitCall F Ip)) :
    counted float governor config kind token s (c :: calls) =
      counted float governor config kind token s [c] ++
        counted float governor config kind token (serve float governor config s c) calls := by
  cases c with
  | check =>
    simp only [counted]
    split_ifs
    · cases countingTier config s token <;> rfl
    · rfl
  | _ => rfl

lemma kept_serve (hbypass : s.bypassTokens = ∅) (hc : c.plain = true)
    (hkept : (s.limiters kind).lookup token = kept governor token quota times)
    (hsame : ∀ x ∈ counted float governor config kind token s [c], x.2 = quota) :
    ((serve float governor config s c).limiters kind).lookup token = kept governor token quota
      (times ++ (counted float governor config kind token s [c]).map Prod.fst) := by
  cases c with
  | check kind' token' =>
    by_cases hown : kind' = kind ∧ token' = token
    · obtain ⟨rfl, rfl⟩ := hown
      cases htier : countingTier config s token' with
      | none =>
        simp only [counted, and_self, if_true, htier, map_nil, append_nil, serve]
        rw [check_exempt hbypass htier, hkept]
      | some tier =>
        simp only [counted, and_self, if_true, htier, map_cons, map_nil, mem_singleton, forall_eq, serve]
          at hsame ⊢
        subst hsame
        rw [check_counting hbypass htier hkept, kept_snoc]
        cases hquota : quotaOf float config (s.getSystemLoad float) tier kind' with
        | none => simp [hkept, kept, hquota]
        | some => simp
    · simp only [counted, if_neg hown, map_nil, append_nil, serve]
      rw [check_lookup hown, hkept]
  | checkIpRateLimit => simpa [counted, serve, checkIpRateLimit] using hkept
  | setUserTier => simpa [counted, serve, setUserTier] using hkept
  | updateSystemLoad => simpa [counted, serve, updateSystemLoad] using hkept
  | addBypassToken | removeBypassToken | cleanupOldEntries => cases hc

lemma after_bypassTokens (h : s.bypassTokens = ∅) (hplain : ∀ c ∈ calls, c.plain = true) :
    (after float governor config s calls).bypassTokens = ∅ := by
  induction calls generalizing s with
  | nil => exact h
  | cons c calls ih =>
    exact ih (serve_bypassTokens h (hplain c mem_cons_self)) fun c hc => hplain c (mem_cons_of_mem _ hc)

lemma kept_after (times : List ℕ) (hbypass : s.bypassTokens = ∅) (hplain : ∀ c ∈ calls, c.plain = true)
    (hkept : (s.limiters kind).lookup token = kept governor token quota times)
    (hsame : ∀ x ∈ counted float governor config kind token s calls, x.2 = quota) :
    ((after float governor config s calls).limiters kind).lookup token = kept governor token quota
      (times ++ (counted float governor config kind token s calls).map Prod.fst) := by
  induction calls generalizing s times with
  | nil => simpa [counted, after] using hkept
  | cons c calls ih =>
    have hc := hplain c mem_cons_self
    rw [counted_cons] at hsame ⊢
    have hstep := kept_serve hbypass hc hkept fun x hx => hsame x (mem_append_left _ hx)
    rw [map_append, ← append_assoc]
    exact ih _ (serve_bypassTokens hbypass hc) (fun c hc => hplain c (mem_cons_of_mem _ hc)) hstep
      fun x hx => hsame x (mem_append_right _ hx)

lemma serve_userTier (float : Binary64 F) (governor : Governor L) (config : RateLimitConfig F) (s : RateLimitState F L Ip)
    (hc : ∀ tier', c ≠ .setUserTier token tier') :
    (serve float governor config s c).getUserTier token = s.getUserTier token := by
  unfold getUserTier
  cases c with
  | check kind token now =>
    obtain hs | ⟨limiter, hs⟩ := check_state float governor config s kind token now <;> rw [serve, hs]
  | setUserTier token' tier =>
    have hne : token ≠ token' := by
      rintro rfl
      exact hc tier rfl
    dsimp only [serve, setUserTier]
    rw [AList.lookup_insert_ne hne]
  | _ => rfl

lemma after_userTier (hcalls : ∀ tier', .setUserTier token tier' ∉ calls) :
    (after float governor config s calls).getUserTier token = s.getUserTier token := by
  induction calls generalizing s with
  | nil => rfl
  | cons c calls ih =>
    have hc : ∀ tier', c ≠ .setUserTier token tier' := by
      rintro tier' rfl
      exact hcalls tier' mem_cons_self
    rw [← serve_userTier float governor config s hc]
    exact ih fun tier' h => hcalls tier' (mem_cons_of_mem _ h)

theorem tier_governs (float : Binary64 F) (governor : Governor L) (config : RateLimitConfig F)
    (earlier later : List (RateLimitCall F Ip)) (kind : Kind) (token tier : String) (now : ℕ)
    (hplain : ∀ c ∈ earlier ++ .setUserTier token tier :: later, c.plain = true)
    (hlast : ∀ tier', .setUserTier token tier' ∉ later) (s : RateLimitState F L Ip)
    (hs : s = after float governor config .new (earlier ++ .setUserTier token tier :: later)) (times : List (ℕ × Option Quota))
    (htimes : times = counted float governor config kind token .new (earlier ++ .setUserTier token tier :: later))
    (hsame : ∀ userTier, tierConfig config tier = some userTier → userTier.bypassRateLimits = false →
      ∀ x ∈ times, x.2 = quotaOf float config (s.getSystemLoad float) userTier kind) :
    (check float governor config s kind token now).1 =
      governed float governor config (s.getSystemLoad float) tier kind token (times.map Prod.fst) now := by
  have htier : s.getUserTier token = tier := by
    rw [hs, after, foldl_append, foldl_cons, ← after, after_userTier hlast, getUserTier]
    dsimp only [serve, setUserTier]
    rw [AList.lookup_insert, getD_some]
  have hbypass : s.bypassTokens = ∅ := by
    rw [hs]
    exact after_bypassTokens rfl hplain
  unfold governed
  cases hconfig : tierConfig config tier with
  | none =>
    have hexempt : countingTier config s token = none := by rw [countingTier, htier, hconfig, filter_none]
    rw [check_exempt hbypass hexempt, htier, hconfig]
    rfl
  | some userTier =>
    dsimp only
    split_ifs with hfree
    · have hexempt : countingTier config s token = none := by
        rw [countingTier, htier, hconfig, filter_some, hfree]
        rfl
      rw [check_exempt hbypass hexempt, htier, hconfig]
      rfl
    · rw [Bool.not_eq_true] at hfree
      have hcounts : countingTier config s token = some userTier := by
        rw [countingTier, htier, hconfig, filter_some, hfree]
        rfl
      have hkept : (s.limiters kind).lookup token = kept governor token
          (quotaOf float config (s.getSystemLoad float) userTier kind) (times.map Prod.fst) := by
        subst htimes
        rw [hs] at hsame ⊢
        exact kept_after [] rfl hplain rfl (hsame userTier hconfig hfree)
      rw [check_counting hbypass hcounts hkept, htier]
      cases quotaOf float config (s.getSystemLoad float) userTier kind <;> rfl

def checks (n : ℕ) : List (RateLimitCall ℚ String) := List.replicate n (.check .tunnel "token" 0)

def pro : RateLimitCall ℚ String := .setUserTier "token" "Pro"

def upgraded (before behind : ℕ) : RateLimitState ℚ Gcra String :=
  after exact gcra (.default exact) .new (checks before ++ pro :: checks behind)

def upgradedTimes (before behind : ℕ) : List (ℕ × Option Quota) :=
  counted exact gcra (.default exact) .tunnel "token" (.new : RateLimitState ℚ Gcra String)
    (checks before ++ pro :: checks behind)

theorem tier_governs_pro : (check exact gcra (.default exact) (upgraded 0 10) .tunnel "token" 0).1 = .returned (.ok ()) := by
  have hgoverned := tier_governs exact gcra (.default exact) (checks 0) (checks 10) .tunnel "token" "Pro" 0 (by decide)
    (by simp [checks]) (upgraded 0 10) rfl (upgradedTimes 0 10) rfl (by
      intro userTier htier _
      obtain rfl : _ = userTier := Option.some.inj htier
      decide +kernel)
  rw [hgoverned]
  decide +kernel

/-- The limiter made for the tier Free decides after the change to Pro. -/
theorem tier_outlived : (check exact gcra (.default exact) (upgraded 1 9) .tunnel "token" 0).1 =
      .returned (.error "Tunnel creation rate limit exceeded for tier: Pro") ∧
    governed exact gcra (.default exact) ((upgraded 1 9).getSystemLoad exact) "Pro" .tunnel "token"
      ((upgradedTimes 1 9).map Prod.fst) 0 = .returned (.ok ()) := by
  constructor <;> decide +kernel

end FleetingDns.RateLimits
