import FleetingDns.ConnectionTracking
namespace FleetingDns.DdosProtection

open Panics SlidingWindow List ExpiringStore DdosCall

section

variable {Ip : Type} [DecidableEq Ip]

def allowedTimes (ip : Ip) (history : List (DdosCall Ip × DdosReply)) : List ℕ := history.filterMap fun
  | (.checkConnectionLimit ip' _ now, .checked r) => if ip' = ip ∧ r = allowed then some now else none
  | _ => none

def closes (ip : Ip) (calls : List (DdosCall Ip)) : ℕ := calls.count (.connectionClosed ip)

def Matched (config : DdosConfig) (calls : List (DdosCall Ip)) : Prop :=
  ∀ earlier, earlier <+: calls → ∀ ip, closes ip earlier ≤ (allowedTimes ip (answers config ∅ earlier)).length

def DdosCall.own (ip : Ip) : DdosCall Ip → Bool
  | .isBlocked ip' _ => ip' = ip
  | .checkConnectionLimit ip' _ _ => ip' = ip
  | .connectionClosed ip' => ip' = ip
  | _ => false

end

def Violation (r : Checked) : Prop := r = limitExceeded ∨ r = overflowed

variable {Ip : Type} {config : DdosConfig} {ipInfo : IpInfo Ip} {ip : Ip} {testedAt now t u k : ℕ}
  {info info' : IpConnectionInfo} {c : DdosCall Ip} {r : DdosReply} {calls : List (DdosCall Ip)} {times : List ℕ}

structure Tracks (config : DdosConfig) (times : List ℕ) (k t : ℕ) (info : IpConnectionInfo) : Prop where
  active : info.activeConnections + k = times.length
  bounded : info.activeConnections ≤ config.maxConnectionsPerIp
  past : ∀ x ∈ times, x ≤ t
  recent : live config.rateWindow t info.recentConnections = live config.rateWindow t times
  windows : ∀ start, within start config.rateWindow times ≤ config.connectionRatePerMinute

lemma tracks_new (config : DdosConfig) : Tracks config [] 0 0 .new where
  active := rfl
  bounded := Nat.zero_le _
  past := by simp
  recent := rfl
  windows _ := Nat.zero_le _

lemma Tracks.alike (h : Tracks config times k t info) (hle : t ≤ u) (halike : Alike config.rateWindow u info' info) :
    Tracks config times k u info' where
  active := by rw [halike.active, h.active]
  bounded := by rw [halike.active]; exact h.bounded
  past x hx := (h.past x hx).trans hle
  recent := by rw [halike.recent, ← live_later _ hle, h.recent, live_later _ hle]
  windows := h.windows

lemma Tracks.pruned (h : Tracks config times k t info) (hle : t ≤ u) (blockedUntil : Option ℕ) :
    Tracks config times k u ⟨info.activeConnections, live config.rateWindow u info.recentConnections, blockedUntil⟩ where
  active := h.active
  bounded := h.bounded
  past x hx := (h.past x hx).trans hle
  recent := by rw [live_later _ (Nat.le_refl u), ← live_later _ hle, h.recent, live_later _ hle]
  windows := h.windows

lemma Tracks.admitted (h : Tracks config times k t info) (hle : t ≤ now)
    (hrate : (live config.rateWindow now info.recentConnections).length < config.connectionRatePerMinute)
    (hactive : info.activeConnections < config.maxConnectionsPerIp) (blockedUntil : Option ℕ) :
    Tracks config (times ++ [now]) k now ⟨info.activeConnections + 1,
      live config.rateWindow now info.recentConnections ++ [now], blockedUntil⟩ := by
  have hpruned := h.pruned hle blockedUntil
  have hlive : live config.rateWindow now info.recentConnections = live config.rateWindow now times := by
    rw [← live_later _ hle, h.recent, live_later _ hle]
  refine ⟨?_, hactive, ?_, ?_, ?_⟩
  · have := h.active
    simp only [length_append, length_singleton]
    omega
  · intro x hx
    rw [mem_append, mem_singleton] at hx
    obtain hx | rfl := hx
    · exact hpruned.past x hx
    · exact Nat.le_refl _
  · rw [live_append, live_append]
    exact congrArg (· ++ _) hpruned.recent
  · rw [hlive] at hrate
    exact within_admitted hpruned.past hrate h.windows

variable {checked : Checked}

lemma Tracks.check (h : Tracks config times k t info) (hle : t ≤ testedAt) (hle' : testedAt ≤ now)
    (hcheck : Checks config testedAt now info checked info') :
    Tracks config (times ++ if checked = allowed then [now] else []) k now info' := by
  have hnow := hle.trans hle'
  cases hcheck with
  | blocked =>
    rw [if_neg (by decide), append_nil]
    exact h.alike hnow (.refl _ _ _)
  | exceeded | overflowed =>
    rw [if_neg (by decide), append_nil]
    exact h.pruned hnow _
  | allowed hblocked hrate hactive =>
    exact h.admitted hnow hrate hactive _

def Through (u : ℕ) (info : IpConnectionInfo) : Prop := ∃ blockedUntil, info.blockedUntil = some blockedUntil ∧ u ≤ blockedUntil

lemma Through.isBlocked (h : Through u info) (ht : t < u) : info.isBlocked t = true := by
  obtain ⟨blockedUntil, hb, hle⟩ := h
  rw [IpConnectionInfo.isBlocked, hb, Option.any_some, decide_eq_true_eq]
  omega

lemma Through.check (h : Through u info) (ht : testedAt < u) : info.check config testedAt now = (blocked, info) :=
  if_pos (h.isBlocked ht)

lemma through_effect (h : Through u info) (heffect : Effect config ip info c r info') (hread : ∀ x ∈ c.readings, x < u) :
    Through u info' := by
  cases heffect with
  | check testedAt =>
    rw [h.check (hread testedAt mem_cons_self)]
    exact h
  | close => exact h
  | stale hactive hrecent hblocked =>
    rw [h.isBlocked (hread _ mem_cons_self)] at hblocked
    cases hblocked
  | other => exact h

lemma through_violation (hcheck : Checks config testedAt now info checked info') (hv : Violation checked)
    (hfits : (now + config.blockDuration) / second < 2 ^ 63) :
    Through (now + config.blockDuration) info' := by
  have hadd : checkedAdd now config.blockDuration = some (now + config.blockDuration) := if_pos hfits
  cases hcheck with
  | blocked => exact absurd hv (by unfold Violation; decide)
  | exceeded hadd' =>
    rw [hadd] at hadd'
    exact ⟨_, rfl, (Option.some.inj hadd').le⟩
  | overflowed hadd' =>
    rw [hadd] at hadd'
    cases hadd'
  | allowed => exact absurd hv (by unfold Violation; decide)

variable [DecidableEq Ip]

lemma allowedTimes_check (ip : Ip) (testedAt now : ℕ) (checked : Checked) :
    allowedTimes ip [(.checkConnectionLimit ip testedAt now, .checked checked)] = if checked = allowed then [now] else [] := by
  unfold allowedTimes
  split_ifs with h <;> simp [h]

lemma allowedTimes_other (h : c.updates ≠ some ip) : allowedTimes ip [(c, r)] = [] := by
  unfold allowedTimes
  rw [filterMap_cons_none, filterMap_nil]
  split
  · rename_i heq
    cases heq
    rw [if_neg]
    rintro ⟨rfl, -⟩
    exact h rfl
  · rfl

lemma closes_other (h : c.updates ≠ some ip) : closes ip [c] = 0 := by
  apply count_eq_zero.mpr
  rw [mem_singleton]
  rintro rfl
  exact h rfl

lemma tracks_effect (h : Tracks config times k t info) (heffect : Effect config ip info c r info')
    (hclock : Clocked t (c :: calls)) (hclose : k + closes ip [c] ≤ times.length + (allowedTimes ip [(c, r)]).length) :
    Tracks config (times ++ allowedTimes ip [(c, r)]) (k + closes ip [c]) (c.ends t) info' := by
  have hother : c.updates ≠ some ip →
      Tracks config (times ++ allowedTimes ip [(c, r)]) (k + closes ip [c]) (c.ends t) info' := by
    intro hne
    rw [allowedTimes_other hne, closes_other hne, append_nil]
    exact h.alike hclock.le_ends (alike_of_effect heffect hne t)
  cases heffect with
  | check testedAt now =>
    have hhead := hclock.head
    simp only [readings, pairwise_cons, mem_cons, forall_eq_or_imp] at hhead
    rw [allowedTimes_check]
    exact h.check hhead.1.1 hhead.2.1.1 (check_cases config testedAt now info)
  | close =>
    have hactive := h.active
    simp only [closes, count_singleton_self, allowedTimes, filterMap_cons, filterMap_nil, length_nil]
      at hclose ⊢
    rw [append_nil]
    exact ⟨by dsimp only; omega, (Nat.sub_le _ _).trans h.bounded, h.past, h.recent, h.windows⟩
  | stale => exact hother (by rintro ⟨⟩)
  | other hne => exact hother hne

lemma tracks_run (h : Tracks config times k t (entry ipInfo ip)) (hclock : Clocked t calls)
    (hclose : ∀ earlier, earlier <+: calls →
      k + closes ip earlier ≤ times.length + (allowedTimes ip (answers config ipInfo earlier)).length) :
    ∃ t', Tracks config (times ++ allowedTimes ip (answers config ipInfo calls)) (k + closes ip calls) t'
      (entry (after config ipInfo calls) ip) := by
  induction calls generalizing ipInfo times k t with
  | nil => exact ⟨t, by simpa [answers, allowedTimes, closes, after] using h⟩
  | cons c calls ih =>
    have hsplit : ∀ earlier, allowedTimes ip (answers config ipInfo (c :: earlier)) =
        allowedTimes ip [(c, (serve config ipInfo c).1)] ++
          allowedTimes ip (answers config (serve config ipInfo c).2 earlier) := by
      intro earlier
      rw [allowedTimes, allowedTimes, allowedTimes, ← filterMap_append]
      rfl
    have hcount : ∀ earlier, closes ip (c :: earlier) = closes ip [c] + closes ip earlier := by
      intro earlier
      rw [closes, closes, closes, ← count_append]
      rfl
    have hfirst := hclose [c] (prefix_append [c] calls)
    have hstep := tracks_effect h (effect_serve config ipInfo c ip) hclock (by simpa [answers] using hfirst)
    have hrest : ∀ earlier, earlier <+: calls → k + closes ip [c] + closes ip earlier ≤
        (times ++ allowedTimes ip [(c, (serve config ipInfo c).1)]).length +
          (allowedTimes ip (answers config (serve config ipInfo c).2 earlier)).length := by
      intro earlier hearlier
      have hle := hclose (c :: earlier) (cons_prefix_cons.mpr ⟨rfl, hearlier⟩)
      rw [hsplit, hcount, length_append] at hle
      rw [length_append]
      omega
    obtain ⟨t', ht'⟩ := ih hstep hclock.tail hrest
    refine ⟨t', ?_⟩
    rw [hsplit, hcount, ← append_assoc, ← Nat.add_assoc]
    exact ht'

lemma mem_answers {b : DdosCall Ip × DdosReply} (h : b ∈ answers config ipInfo calls) :
    b.1 ∈ calls ∧ ∃ ipInfo', b.2 = (serve config ipInfo' b.1).1 := by
  induction calls generalizing ipInfo with
  | nil => cases h
  | cons c calls ih =>
    obtain rfl | h := mem_cons.mp h
    · exact ⟨mem_cons_self, ipInfo, rfl⟩
    · exact ⟨mem_cons_of_mem _ (ih h).1, (ih h).2⟩

lemma blocked_run (h : Through u (entry ipInfo ip)) (hclock : Clocked t calls)
    (hmem : (.checkConnectionLimit ip testedAt now, .checked checked) ∈ answers config ipInfo calls)
    (hu : testedAt < u) :
    checked = blocked := by
  induction calls generalizing ipInfo t with
  | nil => cases hmem
  | cons c calls ih =>
    have heffect := effect_serve config ipInfo c ip
    obtain heq | hmem := mem_cons.mp hmem
    · obtain ⟨rfl, hr⟩ := Prod.mk.inj heq
      obtain rfl := DdosReply.checked.inj (hr.trans (congrArg _ (checkConnectionLimit_eq ..).1))
      rw [h.check hu]
    by_cases hread : ∀ x ∈ c.readings, x < u
    · exact ih (through_effect h heffect hread) hclock.tail hmem
    -- the clock has passed the deadline before this check
    push Not at hread
    obtain ⟨x, hx, hux⟩ := hread
    have hlater : testedAt ∈ calls.flatMap readings :=
      mem_flatMap.mpr ⟨_, (mem_answers hmem).1, mem_cons_self⟩
    have hordered := (pairwise_cons.mp hclock).2
    rw [flatMap_cons, pairwise_append] at hordered
    have := hordered.2.2 x hx testedAt hlater
    omega

def Blocks (config : DdosConfig) (earlier later : DdosCall Ip × DdosReply) : Prop :=
  ∀ ip testedAt now violated testedAt' now' checked,
    earlier = (.checkConnectionLimit ip testedAt now, .checked violated) → Violation violated →
    later = (.checkConnectionLimit ip testedAt' now', .checked checked) → testedAt' < now + config.blockDuration →
    Refused checked

lemma violations_block (hclock : Clocked t calls) (hfits : ∀ ip testedAt now,
    DdosCall.checkConnectionLimit ip testedAt now ∈ calls → (now + config.blockDuration) / ExpiringStore.second < 2 ^ 63) :
    (answers config ipInfo calls).Pairwise (Blocks config) := by
  induction calls generalizing ipInfo t with
  | nil => exact .nil
  | cons c calls ih =>
    refine .cons ?_ (ih hclock.tail fun ip testedAt now h => hfits ip testedAt now (mem_cons_of_mem _ h))
    rintro b hb ip testedAt now violated testedAt' now' checked heq hv rfl hlt
    obtain ⟨rfl, hr⟩ := Prod.mk.inj heq
    obtain ⟨hchecked, hentry⟩ := checkConnectionLimit_eq config ipInfo testedAt now ip
    obtain rfl := DdosReply.checked.inj (hr.symm.trans (congrArg _ hchecked))
    have hthrough := through_violation (check_cases config testedAt now (entry ipInfo ip)) hv
      (hfits ip testedAt now mem_cons_self)
    have hown := hentry ip
    rw [if_pos rfl] at hown
    rw [← hown] at hthrough
    exact ⟨_, blocked_run hthrough hclock.tail hb hlt⟩

lemma own_alone (config : DdosConfig) (ip : Ip) (hclock : Clocked 0 calls) :
    (answers config ∅ calls).filter (·.1.own ip) = answers config ∅ (calls.filter (·.own ip)) := by
  have hkeep : ∀ c : DdosCall Ip, c.own ip = true → c.Concerns (· = ip) := by
    intro c hc
    cases c <;> simp_all [own, DdosCall.Concerns]
  have hdrop : ∀ c : DdosCall Ip, c.own ip = false → ∀ ip', ip' = ip → c.updates ≠ some ip' := by
    intro c hc
    cases c <;> simp_all [own, updates]
  have hfilter := answers_filter _ hkeep hdrop hclock fun ip' _ => Alike.refl config.rateWindow 0 (entry (∅) ip')
  have hobserved : ∀ calls : List (DdosCall Ip), ∀ b ∈ answers config ∅ calls, b.1.own ip = true → observed b = b := by
    intro calls b hb hown
    obtain ⟨-, ipInfo', hr⟩ := mem_answers hb
    obtain ⟨c, r⟩ := b
    dsimp only at hr
    subst hr
    cases c with
    | getStats => cases hown
    | _ => rfl
  have hleft : ∀ b ∈ (answers config ∅ calls).filter (·.1.own ip), observed b = b := by
    intro b hb
    rw [mem_filter] at hb
    exact hobserved calls b hb.1 hb.2
  have hright : ∀ b ∈ answers config ∅ (calls.filter (·.own ip)), observed b = b := by
    intro b hb
    exact hobserved _ b hb (mem_filter.mp (mem_answers hb).1).2
  rwa [map_congr_left hleft, map_congr_left hright, map_id', map_id'] at hfilter

theorem connection_limits (config : DdosConfig) (hclock : Clocked 0 calls) (hmatched : Matched config calls) :
    (∀ ip, (entry (after config ∅ calls) ip).activeConnections + closes ip calls =
        (allowedTimes ip (answers config ∅ calls)).length ∧
      (entry (after config ∅ calls) ip).activeConnections ≤ config.maxConnectionsPerIp ∧
      ∀ start, within start config.rateWindow (allowedTimes ip (answers config ∅ calls)) ≤
        config.connectionRatePerMinute) ∧
    ((∀ ip testedAt now, DdosCall.checkConnectionLimit ip testedAt now ∈ calls →
        (now + config.blockDuration) / ExpiringStore.second < 2 ^ 63) →
      (answers config ∅ calls).Pairwise (Blocks config)) ∧
    ∀ ip, (answers config ∅ calls).filter (·.1.own ip) = answers config ∅ (calls.filter (·.own ip)) := by
  refine ⟨?_, violations_block hclock, fun ip => own_alone config ip hclock⟩
  intro ip
  have hclose : ∀ earlier, earlier <+: calls →
      0 + closes ip earlier ≤ ([] : List ℕ).length + (allowedTimes ip (answers config ∅ earlier)).length := by
    intro earlier hearlier
    have := hmatched earlier hearlier ip
    simpa using this
  obtain ⟨t, htracks⟩ := tracks_run (tracks_new config) hclock hclose
  rw [List.nil_append, Nat.zero_add] at htracks
  exact ⟨htracks.active, htracks.bounded, htracks.windows⟩

def returning : List (DdosCall String) :=
  [.checkConnectionLimit "192.0.2.1" 0 0, .checkConnectionLimit "192.0.2.1" 1 1, .connectionClosed "192.0.2.1",
    .checkConnectionLimit "192.0.2.1" 2 2]

lemma returning_clocked : Clocked 0 returning := by
  unfold Clocked
  decide

def once (blockDuration : ℕ) : DdosConfig := ⟨1, 100, blockDuration, 60 * second⟩

lemma returning_matched (blockDuration : ℕ) : Matched (once blockDuration) returning := by
  intro earlier hearlier ip
  by_cases hip : ip = "192.0.2.1"
  · subst hip
    have hcloses : closes "192.0.2.1" earlier ≤ closes "192.0.2.1" returning := hearlier.sublist.count_le _
    cases earlier with
    | nil => exact Nat.zero_le _
    | cons c rest =>
      obtain ⟨rfl, -⟩ := cons_prefix_cons.mp hearlier
      have hfirst : ∃ times, allowedTimes "192.0.2.1" (answers (once blockDuration) ∅
          (.checkConnectionLimit "192.0.2.1" 0 0 :: rest)) = 0 :: times := ⟨_, rfl⟩
      exact hcloses.trans (Nat.le_add_left _ _)
  have hnone : closes ip earlier = 0 := by
    apply count_eq_zero.mpr
    intro hmem
    have := hearlier.subset hmem
    simp [returning, hip] at this
  omega

theorem connection_limits_once : (answers (once (300 * ExpiringStore.second)) ∅ returning).Pairwise
    (Blocks (once (300 * ExpiringStore.second))) := by
  apply (connection_limits _ returning_clocked (returning_matched _)).2.1
  intro ip testedAt now h
  simp only [returning, List.mem_cons, DdosCall.checkConnectionLimit.injEq, reduceCtorEq, List.not_mem_nil, or_false,
    false_or] at h
  obtain ⟨-, -, rfl⟩ | ⟨-, -, rfl⟩ | ⟨-, -, rfl⟩ := h <;> decide

theorem block_overflows : Clocked 0 returning ∧ Matched (once (2 ^ 64 * second - 1)) returning ∧
    ¬(answers (once (2 ^ 64 * second - 1)) ∅ returning).Pairwise
      (Blocks (once (2 ^ 64 * second - 1))) := by
  refine ⟨returning_clocked, returning_matched _, ?_⟩
  intro h
  obtain ⟨hblocks, -⟩ := pairwise_cons.mp (pairwise_cons.mp h).2
  obtain ⟨msg, hmsg⟩ := hblocks (.checkConnectionLimit "192.0.2.1" 2 2, .checked allowed) (by decide +kernel)
    "192.0.2.1" 1 1 overflowed 2 2 allowed rfl (.inr rfl) rfl (by decide)
  cases hmsg

end FleetingDns.DdosProtection
