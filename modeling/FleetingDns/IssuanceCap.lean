import FleetingDns.CertificateOrigins
namespace FleetingDns.EdfCa

open CommandPrograms ExpiringStore ThreadPool ServerPool GuardedRuns Option List CaState RateLimiter

section

variable {self : RateLimiter} {now : ℕ} {clientId : String}

lemma RateLimiter.recordIssuance_self (hlimit : 0 < self.limit) (hok : self.isRateLimited now clientId = false) :
    ∃ n reset, (self.recordIssuance now clientId).clientCounts.lookup clientId = some (n + 1, reset) ∧ n + 1 ≤ self.limit ∧
      (self.clientCounts.lookup clientId = some (n, reset) ∨ (n = 0 ∧ reset = now ∧
        ∀ m last, self.clientCounts.lookup clientId = some (m, last) → hour ≤ now - last)) := by
  unfold isRateLimited at hok
  cases hl : self.clientCounts.lookup clientId with
  | none =>
    refine ⟨0, now, ?_, hlimit, .inr ⟨rfl, rfl, nofun⟩⟩
    simp [recordIssuance, hl]
  | some entry =>
    obtain ⟨count, last⟩ := entry
    rw [hl] at hok
    simp only at hok
    by_cases hexp : now - last < hour
    · rw [if_pos hexp, decide_eq_false_iff_not] at hok
      refine ⟨count, last, ?_, by omega, .inl rfl⟩
      simp only [recordIssuance, hl, getD_some, if_neg (by omega : ¬ now - last ≥ hour), AList.lookup_insert]
    · refine ⟨0, now, ?_, hlimit, .inr ⟨rfl, rfl, ?_⟩⟩
      · simp only [recordIssuance, hl, getD_some, if_pos (by omega : now - last ≥ hour), AList.lookup_insert]
      · rintro m r ⟨⟩
        omega

lemma RateLimiter.isRateLimited_later {later : ℕ} (hle : now ≤ later) (hok : self.isRateLimited now clientId = false) :
    self.isRateLimited later clientId = false := by
  unfold isRateLimited at hok ⊢
  split
  · rename_i count last hl
    rw [hl] at hok
    simp only at hok
    split_ifs with hexp
    · rwa [if_pos (by omega)] at hok
    · rfl
  · rfl

end

def windowOf (clientId : String) (s : CaState) : Option (ℕ × ℕ) :=
  (s.rateLimiter.clientCounts.lookup clientId).map fun entry => (s.boots, entry.2)

def noteIssuance (clientId : String) (_ : Call) (e : Ev) : Option (ℕ × ℕ) :=
  match e.cmd with
  | .recordIssuance client => if client = clientId then windowOf clientId e.span.after else none
  | _ => none

def issuances (w : CaPool) (clientId : String) : List (ℕ × ℕ) := observed (noteIssuance clientId) w.threads

def checked (clientId : String) : List Ev → Bool
  | ⟨_, .isRateLimited client, false⟩ :: _ => client = clientId
  | _ => false

def pending (clientId : String) (th : CaThread) : Bool :=
  th.prog.next.isSome && checked clientId th.history && th.history.all fun e => !records e.cmd

/-- The limit of a client is checked only while no other issuance to it is pending. -/
def oneAtATime (w : CaPool) : Action → Bool
  | .exec tid _ => match w.threads[tid]?.bind (·.prog.next) with
    | some (.isRateLimited clientId) => w.threads.all fun th => !pending clientId th
    | _ => true
  | _ => true

def OneAtATime (w : CaPool) (a : Action) : Prop := oneAtATime w a = true

instance (w : CaPool) (a : Action) : Decidable (OneAtATime w a) := inferInstanceAs (Decidable (_ = true))

variable {config : Config} {w w' : CaPool} {a : Action} {tid : ℕ} {th : CaThread} {clientId : String} {h : List Ev}

lemma checked_iff : checked clientId h = true ↔ Checked clientId h := by
  constructor
  · intro hc
    unfold checked at hc
    split at hc
    · rename_i t client h0
      obtain rfl := of_decide_eq_true hc
      exact ⟨t, h0, rfl⟩
    · cases hc
  · rintro ⟨t, h0, rfl⟩
    exact decide_eq_true rfl

lemma pending_iff : pending clientId th = true ↔ th.InFlight ∧ Checked clientId th.history ∧ Unrecorded th.history := by
  simp only [pending, Bool.and_eq_true, checked_iff, List.all_eq_true, Bool.not_eq_true', and_assoc]
  rfl

structure Capped (config : Config) (clientId : String) (w : CaPool) : Prop where
  limit : w.shared.rateLimiter.limit = config.ca.certsPerHourPerClient
  current : ∀ n reset, w.shared.rateLimiter.clientCounts.lookup clientId = some (n, reset) →
    (issuances w clientId).count (w.shared.boots, reset) = n ∧ reset ≤ w.shared.now
  past : ∀ x ∈ issuances w clientId, x.1 < w.shared.boots ∨ (x.1 = w.shared.boots ∧ ∃ n reset,
    w.shared.rateLimiter.clientCounts.lookup clientId = some (n, reset) ∧ x.2 ≤ reset)
  bound : ∀ x, (issuances w clientId).count x ≤ config.ca.certsPerHourPerClient
  admitted : ∀ (tid : ℕ) (th : CaThread), w.threads[tid]? = some th → pending clientId th = true →
    w.shared.rateLimiter.isRateLimited w.shared.now clientId = false
  sole : ∀ (i j : ℕ) (th u : CaThread), w.threads[i]? = some th → w.threads[j]? = some u → pending clientId th = true →
    pending clientId u = true → i = j

lemma OneAtATime.check {o : Choice} (hg : OneAtATime w (.exec tid o)) (hi : Issues w tid th (.isRateLimited clientId)) :
    ∀ u ∈ w.threads, pending clientId u = false := by
  have hn : w.threads[tid]?.bind (·.prog.next) = some (.isRateLimited clientId) := by
    rw [hi.1]
    exact hi.next
  simpa only [OneAtATime, oneAtATime, hn, List.all_eq_true, Bool.not_eq_true'] using hg

lemma pending_step (h : step (server config) w a = some w') {th' : CaThread} (hth : w'.threads[tid]? = some th')
    (hp : pending clientId th' = true) : (∃ th, w.threads[tid]? = some th ∧ pending clientId th = true) ∨
      ∃ o th, a = .exec tid o ∧ Issues w tid th (.isRateLimited clientId) ∧
        w.shared.perform (.isRateLimited clientId) o = some (w'.shared, false) := by
  obtain ⟨hflight, hchecked, hunrec⟩ := pending_iff.mp hp
  obtain ⟨hold, -⟩ | ⟨call, -, -, rfl⟩ | ⟨o, th, c, k, r, rfl, hold, hprog, hperf, rfl⟩ | ⟨th, -, -, rfl⟩ :=
    thread_step h hth
  · exact .inl ⟨th', hold, hp⟩
  · obtain ⟨t, h0, heq⟩ := hchecked
    cases heq
  · obtain ⟨t, h0, heq⟩ := hchecked
    rw [Thread.advance_history] at heq hunrec
    cases hh : th.history with
    | nil =>
      rw [hh] at heq
      cases heq
      exact .inr ⟨o, th, rfl, ⟨hold, k, hprog⟩, hperf⟩
    | cons e l =>
      rw [hh, cons_append, List.cons.injEq] at heq
      refine .inl ⟨th, hold, pending_iff.mpr ⟨Thread.inFlight_of_call hprog, ⟨t, l, by rw [hh, heq.1]⟩, ?_⟩⟩
      intro e he
      exact hunrec e (mem_append_left _ he)
  · exact absurd hflight (th.stop_not_inFlight _)

lemma noteIssuance_none {e : Ev} {call : Call} (he : records e.cmd = false) : noteIssuance clientId call e = none := by
  unfold noteIssuance
  split
  · rename_i heq
    rw [heq] at he
    cases he
  · rfl

lemma limiter_step (h : step (server config) w a = some w') (clientId : String) :
    (w'.shared.rateLimiter.limit = w.shared.rateLimiter.limit ∧ w'.shared.boots = w.shared.boots ∧
      w'.shared.rateLimiter.clientCounts.lookup clientId = w.shared.rateLimiter.clientCounts.lookup clientId ∧
      (issuances w' clientId).Perm (issuances w clientId)) ∨
    (∃ tid o th, a = .exec tid o ∧ Issues w tid th (.recordIssuance clientId) ∧
      w'.shared = { w.shared with rateLimiter := w.shared.rateLimiter.recordIssuance w.shared.now clientId } ∧
      (issuances w' clientId).Perm (issuances w clientId ++ (windowOf clientId w'.shared).toList)) ∨
    (w'.shared = w.shared.restart config ∧ (issuances w' clientId).Perm (issuances w clientId) ∧
      ∀ (tid : ℕ) (th : CaThread), w'.threads[tid]? = some th → ¬ th.InFlight) := by
  obtain ⟨hperm, hne⟩ | ⟨tid, o, th, c, r, rfl, hi, hperf, hperm⟩ := observed_step (noteIssuance clientId) h
  · obtain ⟨d, -, hs⟩ | ⟨_, _, -, hs, -⟩ | ⟨tid, o, _, _, _, ha, -⟩ | ⟨_, -, hs⟩ | ⟨rfl, hs⟩ := shared_step h
    · exact .inl ⟨by rw [hs], by rw [hs], by rw [hs], hperm⟩
    · exact .inl ⟨by rw [hs], by rw [hs], by rw [hs], hperm⟩
    · exact absurd ha (hne tid o)
    · exact .inl ⟨by rw [hs], by rw [hs], by rw [hs], hperm⟩
    refine .inr (.inr ⟨hs, hperm, ?_⟩)
    intro tid th hth
    cases step_effect h with
    | restart restart threads =>
      rw [threads, List.getElem?_map, map_eq_some_iff] at hth
      obtain ⟨u, -, rfl⟩ := hth
      exact halt_not_inFlight _ u
  have hboots := perform_boots hperf
  obtain ⟨hc, hl⟩ | ⟨client, rfl, hs⟩ := perform_limiter hperf
  · rw [noteIssuance_none hc, toList_none, append_nil] at hperm
    exact .inl ⟨by rw [hl], hboots, by rw [hl], hperm⟩
  by_cases hc : clientId = client
  · subst hc
    refine .inr (.inl ⟨tid, o, th, rfl, hi, hs, ?_⟩)
    simpa [issuances, noteIssuance] using hperm
  · refine .inl ⟨by rw [hs]; rfl, hboots, by rw [hs]; exact AList.lookup_insert_ne hc, ?_⟩
    simpa [issuances, noteIssuance, Ne.symm hc] using hperm

namespace Capped

lemma sole_step (hc : Capped config clientId w) (hg : OneAtATime w a) (h : step (server config) w a = some w') {i j : ℕ}
    {th u : CaThread} (hi : w'.threads[i]? = some th) (hj : w'.threads[j]? = some u) (hth : pending clientId th = true)
    (hu : pending clientId u = true) : i = j := by
  have hnew : ∀ {k tid : ℕ} {o : Choice} {v x : CaThread}, a = .exec k o → Issues w k v (.isRateLimited clientId) →
      w.threads[tid]? = some x → pending clientId x = false := by
    rintro k tid o v x rfl hv hx
    exact hg.check hv x (mem_of_getElem? hx)
  obtain ⟨th0, hi0, hth0⟩ | ⟨o, th0, ha, hth0, -⟩ := pending_step h hi hth <;>
    obtain ⟨u0, hj0, hu0⟩ | ⟨o', u0, ha', hu0, -⟩ := pending_step h hj hu
  · exact hc.sole i j th0 u0 hi0 hj0 hth0 hu0
  · rw [hnew ha' hu0 hi0] at hth0
    cases hth0
  · rw [hnew ha hth0 hj0] at hu0
    cases hu0
  · rw [ha] at ha'
    cases ha'
    rfl

section

variable (hk : Keeps (May config) (Ends config) w.threads) (hc : Capped config clientId w)

include hk hc

lemma admitted_step (h : step (server config) w a = some w') (hth : w'.threads[tid]? = some th)
    (hp : pending clientId th = true) : w'.shared.rateLimiter.isRateLimited w'.shared.now clientId = false := by
  obtain ⟨th0, hth0, hp0⟩ | ⟨o, th0, rfl, -, hperf⟩ := pending_step h hth hp
  · obtain ⟨hlimit, -, hl, -⟩ | ⟨k, o, u, rfl, hu, hs, -⟩ | ⟨-, -, hstopped⟩ := limiter_step h clientId
    · rw [isRateLimited, hl, hlimit]
      exact isRateLimited_later (now_step h) (hc.admitted tid th0 hth0 hp0)
    · -- the issuance recorded was the pending one
      obtain ⟨hchecked, hunrec⟩ := (hk.may hu).2
      have hpu : pending clientId u = true := pending_iff.mpr ⟨by rw [Thread.InFlight, hu.next]; rfl, hchecked, hunrec⟩
      obtain rfl := hc.sole tid k th0 u hth0 hu.1 hp0 hpu
      obtain ⟨c, r, -, -, hadv⟩ := exec_step h hu
      obtain rfl := mem_unique hth hadv
      have hrec := (pending_iff.mp hp).2.2 ⟨⟨w.shared, w'.shared⟩, .recordIssuance clientId, r⟩ (by simp)
      cases hrec
    · exact absurd (pending_iff.mp hp).1 (hstopped tid th hth)
  · obtain ⟨hs, hfalse⟩ := perform_isRateLimited hperf
    rw [hs, ← hfalse]

lemma kept_step (hg : OneAtATime w a) (h : step (server config) w a = some w')
    (hlimit : w'.shared.rateLimiter.limit = w.shared.rateLimiter.limit) (hboots : w'.shared.boots = w.shared.boots)
    (hl : w'.shared.rateLimiter.clientCounts.lookup clientId = w.shared.rateLimiter.clientCounts.lookup clientId)
    (hperm : (issuances w' clientId).Perm (issuances w clientId)) : Capped config clientId w' where
  limit := hlimit.trans hc.limit
  current n reset hn := by
    rw [hl] at hn
    obtain ⟨hcount, hle⟩ := hc.current n reset hn
    rw [hboots, hperm.count_eq]
    exact ⟨hcount, hle.trans (now_step h)⟩
  past x hx := by
    rw [hboots, hl]
    exact hc.past x (hperm.mem_iff.mp hx)
  bound x := by
    rw [hperm.count_eq]
    exact hc.bound x
  admitted tid th hth hp := hc.admitted_step hk h hth hp
  sole i j th u hi hj hth hu := hc.sole_step hg h hi hj hth hu

lemma restart_step (hg : OneAtATime w a) (h : step (server config) w a = some w')
    (hs : w'.shared = w.shared.restart config) (hperm : (issuances w' clientId).Perm (issuances w clientId)) :
    Capped config clientId w' where
  limit := by rw [hs]; rfl
  current n reset hn := by
    rw [hs] at hn
    cases hn
  past x hx := by
    refine .inl ?_
    rw [hs]
    obtain hlt | ⟨heq, -⟩ := hc.past x (hperm.mem_iff.mp hx)
    · exact Nat.lt_succ_of_lt hlt
    · exact heq ▸ Nat.lt_succ_self _
  bound x := by
    rw [hperm.count_eq]
    exact hc.bound x
  admitted tid th hth hp := hc.admitted_step hk h hth hp
  sole i j th u hi hj hth hu := hc.sole_step hg h hi hj hth hu

end

lemma record_step (hpos : 0 < config.ca.certsPerHourPerClient) (hk : Keeps (May config) (Ends config) w.threads)
    (hc : Capped config clientId w) (hg : OneAtATime w a) (h : step (server config) w a = some w')
    (hi : Issues w tid th (.recordIssuance clientId))
    (hs : w'.shared = { w.shared with rateLimiter := w.shared.rateLimiter.recordIssuance w.shared.now clientId })
    (hperm : (issuances w' clientId).Perm (issuances w clientId ++ (windowOf clientId w'.shared).toList)) :
    Capped config clientId w' := by
  have hpending : pending clientId th = true := by
    obtain ⟨hchecked, hunrec⟩ := (hk.may hi).2
    exact pending_iff.mpr ⟨by rw [Thread.InFlight, hi.next]; rfl, hchecked, hunrec⟩
  obtain ⟨n, reset, hl, hle, hcase⟩ := recordIssuance_self (hc.limit ▸ hpos)
    (hc.admitted tid th hi.1 hpending)
  have hl' : w'.shared.rateLimiter.clientCounts.lookup clientId = some (n + 1, reset) := by rw [hs]; exact hl
  have hboots : w'.shared.boots = w.shared.boots := by rw [hs]
  have hnow : w'.shared.now = w.shared.now := by rw [hs]
  rw [windowOf, hl', map_some, toList_some, hboots] at hperm
  have hcount : (issuances w clientId).count (w.shared.boots, reset) = n := by
    obtain hold | ⟨rfl, rfl, hexp⟩ := hcase
    · exact (hc.current n reset hold).1
    -- a window opened now has no issuance yet
    rw [count_eq_zero]
    intro hmem
    obtain hlt | ⟨-, m, last, hlast, hle⟩ := hc.past _ hmem
    · exact Nat.lt_irrefl _ hlt
    · have := hexp m last hlast
      simp only [hour, second] at this
      omega
  have hreset : reset ≤ w.shared.now ∧ ∀ m last, w.shared.rateLimiter.clientCounts.lookup clientId = some (m, last) →
      last ≤ reset := by
    obtain hold | ⟨-, rfl, -⟩ := hcase
    · refine ⟨(hc.current n reset hold).2, ?_⟩
      intro m last hlast
      rw [hold] at hlast
      cases hlast
      exact Nat.le_refl _
    · exact ⟨Nat.le_refl _, fun m last hlast => (hc.current m last hlast).2⟩
  refine ⟨by rw [hs]; exact hc.limit, ?_, ?_, ?_, fun _ _ => hc.admitted_step hk h, fun _ _ _ _ => hc.sole_step hg h⟩
  · intro m last hm
    rw [hl'] at hm
    cases hm
    rw [hboots, hnow, hperm.count_eq, count_append, hcount, count_singleton_self]
    exact ⟨rfl, hreset.1⟩
  · intro x hx
    rw [hperm.mem_iff, mem_snoc] at hx
    rw [hboots, hl']
    obtain hx | rfl := hx
    · obtain hlt | ⟨heq, m, last, hlast, hle⟩ := hc.past x hx
      · exact .inl hlt
      · exact .inr ⟨heq, n + 1, reset, rfl, hle.trans (hreset.2 m last hlast)⟩
    · exact .inr ⟨rfl, n + 1, reset, rfl, Nat.le_refl _⟩
  intro x
  rw [hperm.count_eq, count_append]
  by_cases hx : x = (w.shared.boots, reset)
  · subst hx
    rw [hcount, count_singleton_self]
    exact hc.limit ▸ hle
  · rw [count_singleton, if_neg (by simpa using Ne.symm hx)]
    exact hc.bound x

end Capped

lemma capped_step (hpos : 0 < config.ca.certsPerHourPerClient) (hk : Keeps (May config) (Ends config) w.threads)
    (hc : Capped config clientId w) (hg : OneAtATime w a) (h : step (server config) w a = some w') :
    Capped config clientId w' := by
  obtain ⟨hlimit, hboots, hl, hperm⟩ | ⟨tid, o, th, -, hi, hs, hperm⟩ | ⟨hs, hperm, -⟩ := limiter_step h clientId
  · exact hc.kept_step hk hg h hlimit hboots hl hperm
  · exact hc.record_step hpos hk hg h hi hs hperm
  · exact hc.restart_step hk hg h hs hperm

lemma capped_start (config : Config) (now : ℕ) (clientId : String) : Capped config clientId (start config now) where
  limit := rfl
  current := by rintro n reset ⟨⟩
  past := by rintro x ⟨⟩
  bound x := Nat.zero_le _
  admitted := by rintro tid th ⟨⟩
  sole := by rintro i j th u ⟨⟩

theorem issuance_capped {now : ℕ} (hpos : 0 < config.ca.certsPerHourPerClient)
    (h : Reach (step (server config)) OneAtATime (start config now) w) (clientId : String) (window : ℕ × ℕ) :
    (issuances w clientId).count window ≤ config.ca.certsPerHourPerClient := by
  have hc : Capped config clientId w :=
    h.invariant (I := Capped config clientId) (J := fun w => Keeps (May config) (Ends config) w.threads)
      (fun _ hr => (reach_sound hr).keeps) (capped_start config now clientId)
      (fun _ _ _ hk hc hg hstep => capped_step hpos hk hc hg hstep)
  exact hc.bound window

section

open Schedule

def strict : Config := { deployment with ca := ⟨1800 * second, 7200 * second, 1⟩ }

theorem issuance_capped_twice : ∃ w, Reach (step (server strict)) OneAtATime (start strict (1700000000 * second)) w ∧
    issuances w "laptop" = [(0, 1700000000 * second)] ∧
    (issuances w "laptop").count (0, 1700000000 * second) ≤ strict.ca.certsPerHourPerClient := by
  obtain ⟨w, h, hp⟩ := reach_of_check (step (server strict)) OneAtATime (start strict (1700000000 * second))
    ([.arrive issuance] ++ issued 0 first ++ [.arrive issuance, .exec 1 .plain])
    (fun w => issuances w "laptop" = [(0, 1700000000 * second)]) (by decide +kernel)
  exact ⟨w, h, of_decide_eq_true hp, issuance_capped (by decide) h "laptop" _⟩

/-- Two requests pass the check before either is counted. -/
theorem issuance_uncapped : ∃ w, Reach (step (server strict)) Free (start strict (1700000000 * second)) w ∧
    strict.ca.certsPerHourPerClient < (issuances w "laptop").count (0, 1700000000 * second) := by
  obtain ⟨w, h, hp⟩ := reach_of_check (step (server strict)) Free (start strict (1700000000 * second))
    ([.arrive issuance, .arrive issuance, .exec 0 .plain] ++ issued 1 2 ++ (issued 0 first).tail)
    (fun w => (issuances w "laptop").count (0, 1700000000 * second) = 2) (by decide +kernel)
  refine ⟨w, h, ?_⟩
  rw [of_decide_eq_true hp]
  decide

end

end FleetingDns.EdfCa
