import FleetingDns.ApiAuthentication
import FleetingDns.IpLiterals
namespace FleetingDns.Auth

open ExpiringStore FixedWindow Panics RateLimits ApiProcess List AList Option RateLimitState

section

variable {F L Peer : Type} [DecidableEq Peer] (float : Binary64 F) (governor : Governor L)
  (parseIp : String → Option String)

def passes (peer : Peer) : ApiProcess F L → List (Peer × Request) → ℕ
  | _, [] => 0
  | p, x :: xs =>
    let (result, p) := p.rateLimitMiddleware float governor parseIp x.2
    (decide (x.1 = peer) && decide (result = .returned (.ok ()))).toNat + passes peer p xs

def arrivals (ip : String) (xs : List (Peer × Request)) : List ℕ :=
  (xs.filter fun x => clientIp parseIp x.2.headers = ip).map (·.2.arrivedAt)

def minuteStart (p : ApiProcess F L) (ip : String) (now : ℕ) : ℕ :=
  (((checkIpRateLimit p.rateLimitConfig p.rateLimiter ip now).2.ipLimiters.lookup ip).map Counter.lastReset).getD now

def OneMinute (p : ApiProcess F L) (ip : String) (xs : List (Peer × Request)) : Prop :=
  ∀ now times, arrivals parseIp ip xs = now :: times → ∀ t ∈ times, t ≤ minuteStart p ip now + 60 * second

def admittedIp (config : RateLimitConfig F) : Option IpRateLimit → List ℕ → ℕ :=
  admitted config.ddosProtection.maxRequestsPerIpPerMinute (60 * second) fun now =>
    checkedAdd now (config.ddosProtection.ipBlockDurationSeconds * second)

variable {float governor parseIp} {p : ApiProcess F L} {peer : Peer} {ip : String} {xs : List (Peer × Request)} {t : ℕ}

lemma checkIpRateLimit_spec (config : RateLimitConfig F) (s : RateLimitState F L String) (ip : String) (now : ℕ) :
    let counted := hitIp config ((s.ipLimiters.lookup ip).getD ⟨0, now, none⟩) now
    ((checkIpRateLimit config s ip now).1 = .returned (.ok ()) ↔ counted.1 = true) ∧
      (checkIpRateLimit config s ip now).2.ipLimiters = s.ipLimiters.insert ip counted.2 := by
  obtain ⟨hok, hlimit⟩ := checkIp_hit config ((s.ipLimiters.lookup ip).getD ⟨0, now, none⟩) now
  exact ⟨hok, congrArg (s.ipLimiters.insert ip) hlimit⟩

lemma rateLimitMiddleware_spec (float : Binary64 F) (governor : Governor L) (parseIp : String → Option String)
    (p : ApiProcess F L) (r : Request) :
    let checked := checkIpRateLimit p.rateLimitConfig p.rateLimiter (clientIp parseIp r.headers) r.arrivedAt
    let served := p.rateLimitMiddleware float governor parseIp r
    (served.1 = .returned (.ok ()) → checked.1 = .returned (.ok ())) ∧
      served.2.rateLimitConfig = p.rateLimitConfig ∧ served.2.rateLimiter.ipLimiters = checked.2.ipLimiters := by
  dsimp only
  rw [rateLimitMiddleware]
  rcases checkIpRateLimit p.rateLimitConfig p.rateLimiter (clientIp parseIp r.headers) r.arrivedAt with
    ⟨(_ | _) | _, limiter⟩
  · exact ⟨id, rfl, rfl⟩
  · refine ⟨fun _ => rfl, rfl, ?_⟩
    dsimp only
    obtain hs | ⟨_, hs⟩ := check_state float governor p.rateLimitConfig limiter _ (tokenOf r.headers) r.checkedAt <;> rw [hs]
  · exact ⟨id, rfl, rfl⟩

lemma passes_cons (p : ApiProcess F L) (x : Peer × Request) (xs : List (Peer × Request)) :
    passes float governor parseIp peer p (x :: xs) =
      (decide (x.1 = peer) && decide ((p.rateLimitMiddleware float governor parseIp x.2).1 = .returned (.ok ()))).toNat +
        passes float governor parseIp peer (p.rateLimitMiddleware float governor parseIp x.2).2 xs := rfl

lemma passes_le_admitted (float : Binary64 F) (governor : Governor L)
    (hone : ∀ x ∈ xs, x.1 = peer → clientIp parseIp x.2.headers = ip) :
    passes float governor parseIp peer p xs ≤
      admittedIp p.rateLimitConfig (p.rateLimiter.ipLimiters.lookup ip) (arrivals parseIp ip xs) := by
  induction xs generalizing p with
  | nil => exact Nat.zero_le _
  | cons x xs ih =>
    obtain ⟨hpass, hconfig, hlimiter⟩ := rateLimitMiddleware_spec float governor parseIp p x.2
    obtain ⟨hok, hinsert⟩ := checkIpRateLimit_spec p.rateLimitConfig p.rateLimiter (clientIp parseIp x.2.headers)
      x.2.arrivedAt
    have hrest := ih (p := (p.rateLimitMiddleware float governor parseIp x.2).2) fun y hy =>
      hone y (mem_cons_of_mem x hy)
    rw [hlimiter, hconfig, hinsert] at hrest
    rw [passes_cons]
    by_cases hip : clientIp parseIp x.2.headers = ip
    · rw [hip] at hpass hok hrest
      rw [lookup_insert] at hrest
      have harrivals : arrivals parseIp ip (x :: xs) = x.2.arrivedAt :: arrivals parseIp ip xs := by
        simp [arrivals, hip]
      rw [harrivals]
      refine Nat.add_le_add (Bool.toNat_le_toNat ?_) hrest
      intro h
      exact hok.mp (hpass (of_decide_eq_true (Bool.and_eq_true_iff.mp h).2))
    · have hpeer : ¬ x.1 = peer := fun h => hip (hone x (by simp) h)
      have harrivals : arrivals parseIp ip (x :: xs) = arrivals parseIp ip xs := by simp [arrivals, hip]
      rw [lookup_insert_ne (Ne.symm hip)] at hrest
      rw [harrivals]
      simpa [hpeer] using hrest

theorem flooding_bounded (hone : ∀ x ∈ xs, x.1 = peer → clientIp parseIp x.2.headers = ip) :
    let limit := p.rateLimitConfig.ddosProtection.maxRequestsPerIpPerMinute
    (OneMinute parseIp p ip xs → passes float governor parseIp peer p xs ≤ limit) ∧
    ((∀ x ∈ xs, t ≤ x.2.arrivedAt ∧ x.2.arrivedAt ≤ t + 60 * second) →
      passes float governor parseIp peer p xs ≤ 2 * limit) := by
  have hpasses := passes_le_admitted (p := p) float governor hone
  constructor
  · intro hminute
    refine Nat.le_trans hpasses ?_
    cases harrivals : arrivals parseIp ip xs with
    | nil => exact Nat.zero_le _
    | cons now times =>
      apply admitted_one_window
      have hstart := hminute now times harrivals
      rw [minuteStart, (checkIpRateLimit_spec p.rateLimitConfig p.rateLimiter ip now).2, AList.lookup_insert] at hstart
      exact hstart
  · intro htimes
    refine Nat.le_trans hpasses (admitted_interval_le (t := t) ?_)
    intro now hnow
    simp only [arrivals, List.mem_map, List.mem_filter] at hnow
    obtain ⟨x, ⟨hx, -⟩, rfl⟩ := hnow
    exact htimes x hx

end

namespace Flood

lemma byte_lt (c : Char) : c.toNat % 256 < 256 := Nat.mod_lt _ (by decide)

lemma noon_lt : 1700000000 < 2 ^ 63 := by decide

def letter : EdfCa.Byte := ⟨97, by decide⟩

def header (text : String) : HeaderValue := text.toList.map fun c => ⟨c.toNat % 256, byte_lt c⟩

def parseIpAddr (text : String) : Option String :=
  match Net.parseIpv4 text with
  | some ⟨a, b, c, d⟩ => some (".".intercalate ([a, b, c, d].map Nat.repr))
  | none => (Net.parseIpv6 text).map fun ip => ":".intercalate (ip.segments.map Nat.repr)

def request (ip : String) (n : ℕ) : Request where
  method := "GET"
  path := "/v1/stats"
  headers := [("x-forwarded-for", header ip), ("authorization", header "Bearer " ++ List.replicate n letter)]
  endpoint := .getStats
  arrivedAt := 1000 * second
  checkedAt := 1000 * second
  middlewareAt := ⟨1700000000, noon_lt⟩
  handlerAt := ⟨1700000000, noon_lt⟩

def requests (ip : String) (n : ℕ) : List (Unit × Request) := (List.range n).map fun i => ((), request ip i)

def spoofed : List (Unit × Request) := ((), request "198.51.100.2" 1000) :: requests "198.51.100.1" 1000

lemma requests_arrivedAt {ip : String} {n : ℕ} : ∀ x ∈ requests ip n, x.2.arrivedAt = 1000 * second := by
  intro x hx
  obtain ⟨i, -, rfl⟩ := mem_map.mp hx
  rfl

def token (n : ℕ) : String := String.ofList (List.replicate n 'a')

lemma token_injective : Function.Injective token := by
  intro m n h
  simpa [token] using congrArg String.length h

lemma tokenOf_request (ip : String) (n : ℕ) : tokenOf (request ip n).headers = token n := by
  have hget : (request ip n).headers.get "authorization" = some (header "Bearer " ++ List.replicate n letter) := rfl
  have hstr : HeaderValue.toStr (header "Bearer " ++ List.replicate n letter) =
      some (String.ofList (bearer.toList ++ List.replicate n 'a')) := by
    rw [HeaderValue.toStr, if_pos, map_append, map_replicate]
    · rfl
    · rw [all_append, Bool.and_eq_true]
      refine ⟨by decide, all_eq_true.mpr ?_⟩
      intro b hb
      rw [eq_of_mem_replicate hb]
      decide
  have hstrip : stripBearer (String.ofList (bearer.toList ++ List.replicate n 'a')) = some (token n) := by
    rw [stripBearer, String.toList_ofList, if_pos ( isPrefixOf_iff_prefix.mpr (prefix_append _ _))]
    exact congrArg (fun l => some (String.ofList l)) drop_left
  rw [tokenOf, hget, bind_some, hstr, bind_some, hstrip, getD_some]

lemma clientIp_first (n : ℕ) : clientIp parseIpAddr (request "198.51.100.1" n).headers = "198.51.100.1" := by
  change clientIp parseIpAddr [("x-forwarded-for", header "198.51.100.1")] = "198.51.100.1"
  decide

lemma clientIp_second (n : ℕ) : clientIp parseIpAddr (request "198.51.100.2" n).headers = "198.51.100.2" := by
  change clientIp parseIpAddr [("x-forwarded-for", header "198.51.100.2")] = "198.51.100.2"
  decide

/-- The tokens have not been seen, and no limits but the default ones are set. -/
structure Unseen (s : RateLimitState ℚ Gcra String) (ns : List ℕ) : Prop where
  bypassTokens : s.bypassTokens = ∅
  userTiers : s.userTiers = ∅
  systemLoad : s.systemLoad = none
  limiters : ∀ n ∈ ns, (s.limiters .api).lookup (token n) = none

lemma createApiLimiter_free : createApiLimiter exact gcra (.default exact) (exact.literal 0) "Free" =
    some (gcra.keyed ⟨60, 60⟩) := by
  have htier : tierConfig (.default exact) "Free" = some ⟨60, 10, 100, 1, false⟩ := rfl
  have hload : exact.lt (RateLimitConfig.default exact).loadThreshold (exact.literal 0) = false := by decide +kernel
  simp [createApiLimiter, htier, apiQuota, hload, perMinute]

lemma keyed_first (token : String) (now : ℕ) : (gcra.checkKey (gcra.keyed ⟨60, 60⟩) token now).1 = true := by
  have hidle : ¬ now < now + second - second * 60 := by omega
  simp only [gcra, lookup_empty, getD_none]
  exact congrArg Prod.fst (if_neg hidle)

variable {p : ApiProcess ℚ Gcra} {s : RateLimitState ℚ Gcra String} {ns : List ℕ} {ip : String} {n now : ℕ}

lemma check_unseen (h : Unseen s (n :: ns)) (hn : n ∉ ns) :
    let checked := check exact gcra (.default exact) s .api (token n) now
    checked.1 = .returned (.ok ()) ∧ Unseen checked.2 ns := by
  have htier : tierConfig (.default exact) "Free" = some ⟨60, 10, 100, 1, false⟩ := rfl
  have hlimiter := h.limiters n (by simp)
  simp only [check, checkApiRateLimit, checkRateLimit, isBypassToken, h.bypassTokens, lookup_empty,
    getUserTier, h.userTiers, getSystemLoad, h.systemLoad, getD_none, htier, hlimiter,
    none_or, createApiLimiter_free, keyed_first, isSome_none, Bool.false_eq_true, if_false, if_true]
  refine ⟨trivial, rfl, rfl, rfl, ?_⟩
  intro m hm
  have hne : token m ≠ token n := fun heq => hn (token_injective heq ▸ hm)
  dsimp only
  rw [Function.update_self, lookup_insert_ne hne]
  exact h.limiters m (mem_cons_of_mem n hm)

lemma rateLimitMiddleware_unseen {counted : ℕ} (hconfig : p.rateLimitConfig = .default exact)
    (h : Unseen p.rateLimiter (n :: ns)) (hn : n ∉ ns) (hip : clientIp parseIpAddr (request ip n).headers = ip)
    (hcounter : (p.rateLimiter.ipLimiters.lookup ip).getD ⟨0, 1000 * second, none⟩ = ⟨counted, 1000 * second, none⟩)
    (hroom : counted < 1000) :
    let served := p.rateLimitMiddleware exact gcra parseIpAddr (request ip n)
    served.1 = .returned (.ok ()) ∧ served.2.rateLimitConfig = .default exact ∧ Unseen served.2.rateLimiter ns ∧
      served.2.rateLimiter.ipLimiters = p.rateLimiter.ipLimiters.insert ip ⟨counted + 1, 1000 * second, none⟩ := by
  obtain ⟨-, hsame, hlimiters⟩ := rateLimitMiddleware_spec exact gcra parseIpAddr p (request ip n)
  obtain ⟨hok, hinsert⟩ := checkIpRateLimit_spec p.rateLimitConfig p.rateLimiter ip (1000 * second)
  have hhit : hitIp (.default exact) ⟨counted, 1000 * second, none⟩ (1000 * second) =
      (true, ⟨counted + 1, 1000 * second, none⟩) := hit_again hroom
  have harrived : (request ip n).arrivedAt = 1000 * second := rfl
  have hkind : limitKind (request ip n).method (request ip n).path = .api := by
    change limitKind "GET" "/v1/stats" = .api
    decide
  have hchecked : Unseen (checkIpRateLimit p.rateLimitConfig p.rateLimiter ip (1000 * second)).2 (n :: ns) :=
    ⟨h.bypassTokens, h.userTiers, h.systemLoad, h.limiters⟩
  rw [hconfig, hcounter, hhit] at hok hinsert
  rw [hip, harrived, hconfig] at hlimiters
  refine ⟨?_, hsame.trans hconfig, ?_, hlimiters.trans hinsert⟩
  all_goals
    rw [rateLimitMiddleware, hip, harrived, tokenOf_request, hkind, hconfig]
    rw [hconfig] at hchecked
    generalize checkIpRateLimit (.default exact) p.rateLimiter ip (1000 * second) = checked at hok hchecked
    obtain ⟨result, limiter⟩ := checked
    cases hok.mpr rfl
  · exact (check_unseen hchecked hn).1
  · exact (check_unseen hchecked hn).2

lemma passes_requests {counted : ℕ} (hip : ∀ n, clientIp parseIpAddr (request ip n).headers = ip)
    (hconfig : p.rateLimitConfig = .default exact) (h : Unseen p.rateLimiter ns) (hnodup : ns.Nodup)
    (hcounter : (p.rateLimiter.ipLimiters.lookup ip).getD ⟨0, 1000 * second, none⟩ = ⟨counted, 1000 * second, none⟩)
    (hroom : counted + ns.length ≤ 1000) :
    passes exact gcra parseIpAddr () p (ns.map fun n => ((), request ip n)) = ns.length := by
  induction ns generalizing p counted with
  | nil => rfl
  | cons n ns ih =>
    rw [length_cons] at hroom
    obtain ⟨hn, hnodup⟩ := nodup_cons.mp hnodup
    obtain ⟨hpass, hconfig', hunseen, hinsert⟩ :=
      rateLimitMiddleware_unseen hconfig h hn (hip n) hcounter (by omega)
    rw [map_cons, passes_cons, hpass, length_cons,
      ih hconfig' hunseen hnodup (by rw [hinsert, lookup_insert, getD_some]) (by omega)]
    exact Nat.add_comm _ _

lemma passes_spoofed (hconfig : p.rateLimitConfig = .default exact)
    (h : Unseen p.rateLimiter (1000 :: List.range 1000)) (hnone : p.rateLimiter.ipLimiters = ∅) :
    passes exact gcra parseIpAddr () p spoofed = 1001 := by
  obtain ⟨hpass, hconfig', hunseen, hinsert⟩ :=
    rateLimitMiddleware_unseen hconfig h (by simp) (clientIp_second 1000) (by rw [hnone]; rfl) (by decide)
  rw [hnone] at hinsert
  rw [spoofed, passes_cons, hpass, requests,
    passes_requests clientIp_first hconfig' hunseen nodup_range (by rw [hinsert]; rfl) (by simp), length_range]
  rfl

end Flood

open Flood

theorem flooding_bounded_burst : passes exact gcra parseIpAddr () launched (requests "198.51.100.1" 1500) ≤ 1000 := by
  have hone : ∀ x ∈ requests "198.51.100.1" 1500, x.1 = () → clientIp parseIpAddr x.2.headers = "198.51.100.1" := by
    intro x hx _
    obtain ⟨i, -, rfl⟩ := List.mem_map.mp hx
    exact clientIp_first i
  obtain ⟨hbound, -⟩ := flooding_bounded (p := launched) (t := 0) hone
  apply hbound
  intro now times harrivals t ht
  have hnow : ∀ u ∈ now :: times, u = 1000 * second := by
    intro u hu
    rw [← harrivals] at hu
    simp only [arrivals, List.mem_map, List.mem_filter] at hu
    obtain ⟨x, ⟨hx, -⟩, rfl⟩ := hu
    exact requests_arrivedAt x hx
  rw [hnow t (List.mem_cons_of_mem now ht), hnow now (by simp)]
  decide

/-- A peer that spreads its requests over two addresses, each with a token of its own, gets more than the limit through
at once. -/
theorem address_spoofed :
    launched.rateLimitConfig.ddosProtection.maxRequestsPerIpPerMinute = 1000 ∧
    (∀ x ∈ spoofed, x.2.arrivedAt = 1000 * second) ∧ (spoofed.map fun x => tokenOf x.2.headers).Nodup ∧
    passes exact gcra parseIpAddr () launched spoofed = 1001 := by
  refine ⟨rfl, ?_, ?_, ?_⟩
  · exact forall_mem_cons.mpr ⟨rfl, requests_arrivedAt⟩
  · have hmap : (spoofed.map fun x => tokenOf x.2.headers) = (1000 :: List.range 1000).map token := by
      rw [spoofed, requests, List.map_cons, List.map_cons, List.map_map, tokenOf_request]
      exact congrArg _ (map_congr_left fun n _ => tokenOf_request _ n)
    rw [hmap]
    exact List.Nodup.map token_injective (by simp [nodup_range])
  · exact passes_spoofed rfl ⟨rfl, rfl, rfl, fun _ _ => rfl⟩ rfl

end FleetingDns.Auth
