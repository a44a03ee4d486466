import FleetingDns.DdosProtection
namespace FleetingDns.DdosProtection

open Panics SlidingWindow DdosCall List Option IpConnectionInfo DdosReply ExpiringStore

variable {Ip : Type} {config : DdosConfig} {ipInfo ipInfo' : IpInfo Ip} {ip : Ip} {testedAt now t : ℕ}
  {info info' : IpConnectionInfo} {c : DdosCall Ip} {r : DdosReply} {calls calls' : List (DdosCall Ip)} {S : Ip → Prop}

def Clocked (t : ℕ) (calls : List (DdosCall Ip)) : Prop := (t :: calls.flatMap readings).Pairwise (· ≤ ·)

def DdosCall.ends (c : DdosCall Ip) (t : ℕ) : ℕ := c.readings.getLastD t

lemma Clocked.head (h : Clocked t (c :: calls)) : (t :: c.readings).Pairwise (· ≤ ·) := by
  unfold Clocked at h
  rw [flatMap_cons, ← cons_append, pairwise_append] at h
  exact h.1

lemma Clocked.tail (h : Clocked t (c :: calls)) : Clocked (c.ends t) calls := by
  unfold Clocked at *
  rw [flatMap_cons, ← cons_append, pairwise_append] at h
  rw [pairwise_cons]
  exact ⟨fun x hx => h.2.2 _ (getLastD_mem_cons) x hx, h.2.1⟩

lemma Clocked.le_ends (h : Clocked t (c :: calls)) : t ≤ c.ends t := by
  have hhead := h.head
  cases c <;> simp_all [readings, ends]

/-- Two entries that no call at or after an instant tells apart. -/
structure Alike (width t : ℕ) (info info' : IpConnectionInfo) : Prop where
  active : info.activeConnections = info'.activeConnections
  recent : live width t info.recentConnections = live width t info'.recentConnections
  blocked : info.blockedUntil.filter (t < ·) = info'.blockedUntil.filter (t < ·)

lemma Alike.refl (width t : ℕ) (info : IpConnectionInfo) : Alike width t info info := ⟨rfl, rfl, rfl⟩

lemma Alike.later {width later : ℕ} (h : Alike width t info info') (hle : t ≤ later) : Alike width later info info' where
  active := h.active
  recent := by rw [← live_later _ hle, h.recent, live_later _ hle]
  blocked := by
    have hfilter : ∀ o : Option ℕ, o.filter (later < ·) = (o.filter (t < ·)).filter (later < ·) := by
      intro o
      rw [Option.filter_filter]
      congr 1
      funext x
      rw [Bool.eq_iff_iff, Bool.and_eq_true, decide_eq_true_eq, decide_eq_true_eq]
      omega
    rw [hfilter, h.blocked, ← hfilter]

lemma Alike.trans {width : ℕ} {info'' : IpConnectionInfo} (h : Alike width t info info') (h' : Alike width t info' info'') :
    Alike width t info info'' :=
  ⟨h.active.trans h'.active, h.recent.trans h'.recent, h.blocked.trans h'.blocked⟩

lemma Alike.isBlocked {width : ℕ} (h : Alike width t info info') : info.isBlocked t = info'.isBlocked t := by
  unfold IpConnectionInfo.isBlocked
  rw [← isSome_filter, h.blocked, isSome_filter]

lemma Alike.check (h : Alike config.rateWindow testedAt info info') (hle : testedAt ≤ now) :
    (info.check config testedAt now).1 = (info'.check config testedAt now).1 ∧
      Alike config.rateWindow now (info.check config testedAt now).2 (info'.check config testedAt now).2 := by
  have hlater := h.later hle
  unfold IpConnectionInfo.check
  rw [h.isBlocked]
  split_ifs
  · exact ⟨rfl, hlater⟩
  unfold update
  rw [hlater.recent, h.active]
  dsimp only
  split_ifs
  · split
    · exact ⟨rfl, .refl _ _ _⟩
    · exact ⟨rfl, rfl, rfl, hlater.blocked⟩
  · exact ⟨rfl, rfl, rfl, hlater.blocked⟩

lemma alike_new (hactive : info.activeConnections = 0) (hrecent : ∀ t ∈ info.recentConnections, config.rateWindow * 2 ≤ now - t)
    (hblocked : info.isBlocked now = false) : Alike config.rateWindow now .new info where
  active := hactive.symm
  recent := by
    apply Eq.symm
    apply live_eq_nil
    intro t ht
    have := hrecent t ht
    omega
  blocked := by
    unfold IpConnectionInfo.isBlocked at hblocked
    rw [← isSome_filter, isSome_eq_false_iff, isNone_iff_eq_none] at hblocked
    rw [hblocked]
    rfl

lemma alike_of_effect (h : Effect config ip info c r info') (hapart : c.updates ≠ some ip) (t : ℕ) :
    Alike config.rateWindow (c.ends t) info' info := by
  cases h with
  | check | close => exact absurd rfl hapart
  | stale hactive hrecent hblocked => exact alike_new hactive hrecent hblocked
  | other => exact .refl _ _ _

variable [DecidableEq Ip]

def AlikeOn (S : Ip → Prop) (width t : ℕ) (ipInfo ipInfo' : IpInfo Ip) : Prop :=
  ∀ ip, S ip → Alike width t (entry ipInfo ip) (entry ipInfo' ip)

def DdosCall.Concerns (S : Ip → Prop) : DdosCall Ip → Prop
  | .isBlocked ip _ => S ip
  | .checkConnectionLimit ip _ _ => S ip
  | .connectionClosed ip => S ip
  | .getStats _ => ∀ ip, S ip
  | .cleanupOldEntries _ => False

def DdosReply.untracked : DdosReply → DdosReply
  | .stats s => .stats { s with totalTrackedIps := 0 }
  | r => r

section

variable (h : AlikeOn S config.rateWindow t ipInfo ipInfo')

include h

lemma alikeOn_apart (hclock : Clocked t (c :: calls)) (hapart : ∀ ip, S ip → c.updates ≠ some ip) :
    AlikeOn S config.rateWindow (c.ends t) (serve config ipInfo c).2 ipInfo' := by
  intro ip hip
  exact (alike_of_effect (effect_serve config ipInfo c ip) (hapart ip hip) t).trans ((h ip hip).later hclock.le_ends)

lemma getStats_alike (hall : ∀ ip, S ip) (hle : t ≤ now) :
    (stats (getStats ipInfo now)).untracked = (stats (getStats ipInfo' now)).untracked := by
  have hblocked : (getStats ipInfo now).blockedIps = (getStats ipInfo' now).blockedIps := by
    dsimp only [getStats]
    apply Tables.total_congr new rfl
    intro ip
    exact congrArg Bool.toNat ((h ip (hall ip)).later hle).isBlocked
  have hactive : (getStats ipInfo now).totalActiveConnections = (getStats ipInfo' now).totalActiveConnections := by
    apply congrArg (· % 2 ^ 32)
    apply Tables.total_congr new rfl
    intro ip
    exact (h ip (hall ip)).active
  simp only [untracked, hblocked, hactive]

lemma serve_alike (hclock : Clocked t (c :: calls)) (hc : c.Concerns S) :
    (serve config ipInfo c).1.untracked = (serve config ipInfo' c).1.untracked ∧
      AlikeOn S config.rateWindow (c.ends t) (serve config ipInfo c).2 (serve config ipInfo' c).2 := by
  have hhead := hclock.head
  cases c with
  | isBlocked ip now =>
    have hle : t ≤ now := by simpa [readings] using hhead
    refine ⟨?_, fun ip' hip' => (h ip' hip').later hle⟩
    dsimp only [serve]
    rw [isBlocked_eq, isBlocked_eq, ((h ip hc).later hle).isBlocked]
  | checkConnectionLimit ip testedAt now =>
    have hle : t ≤ testedAt ∧ testedAt ≤ now := by
      simp [readings] at hhead
      omega
    obtain ⟨hr, hentry⟩ := checkConnectionLimit_eq config ipInfo testedAt now ip
    obtain ⟨hr', hentry'⟩ := checkConnectionLimit_eq config ipInfo' testedAt now ip
    obtain ⟨hsame, halike⟩ := ((h ip hc).later hle.1).check hle.2
    refine ⟨?_, ?_⟩
    · dsimp only [serve]
      rw [hr, hr', hsame]
    intro ip' hip'
    dsimp only [serve]
    rw [hentry, hentry']
    split_ifs
    · exact halike
    · exact (h ip' hip').later (hle.1.trans hle.2)
  | connectionClosed ip =>
    refine ⟨rfl, ?_⟩
    intro ip' hip'
    dsimp only [serve]
    rw [entry_connectionClosed, entry_connectionClosed]
    split_ifs
    · have halike := h ip hc
      exact ⟨by rw [halike.active], halike.recent, halike.blocked⟩
    · exact h ip' hip'
  | getStats now =>
    have hle : t ≤ now := by simpa [readings] using hhead
    exact ⟨getStats_alike h hc hle, fun ip' hip' => (h ip' hip').later hle⟩
  | cleanupOldEntries => exact hc.elim

end

def observed (a : DdosCall Ip × DdosReply) : DdosCall Ip × DdosReply := (a.1, a.2.untracked)

lemma answers_filter (keep : DdosCall Ip → Bool) (hkeep : ∀ c, keep c = true → c.Concerns S)
    (hdrop : ∀ c, keep c = false → ∀ ip, S ip → c.updates ≠ some ip) (hclock : Clocked t calls)
    (h : AlikeOn S config.rateWindow t ipInfo ipInfo') :
    ((answers config ipInfo calls).filter (keep ·.1)).map observed =
      (answers config ipInfo' (calls.filter keep)).map observed := by
  induction calls generalizing t ipInfo ipInfo' with
  | nil => rfl
  | cons c calls ih =>
    cases hc : keep c with
    | true =>
      obtain ⟨hr, hnext⟩ := serve_alike h hclock (hkeep c hc)
      simp only [answers, filter_cons, hc, if_true, map_cons, observed, hr]
      exact congrArg _ (ih hclock.tail hnext)
    | false =>
      simp only [answers, filter_cons, hc]
      exact ih hclock.tail (alikeOn_apart h hclock (hdrop c hc))

def DdosCall.isCleanup : DdosCall Ip → Bool
  | .cleanupOldEntries _ => true
  | _ => false

theorem cleanup_unobservable (config : DdosConfig) (ipInfo : IpInfo Ip) (hclock : Clocked 0 calls)
    (hclock' : Clocked 0 calls') (hsame : calls.filter (!·.isCleanup) = calls'.filter (!·.isCleanup)) :
    ((answers config ipInfo calls).filter (!·.1.isCleanup)).map observed =
      ((answers config ipInfo calls').filter (!·.1.isCleanup)).map observed := by
  have hkeep : ∀ c : DdosCall Ip, (!c.isCleanup) = true → c.Concerns fun _ => True := by
    intro c hc
    cases c <;> simp_all [isCleanup, DdosCall.Concerns]
  have hdrop : ∀ c : DdosCall Ip, (!c.isCleanup) = false → ∀ ip, True → c.updates ≠ some ip := by
    intro c hc
    cases c <;> simp_all [isCleanup, updates]
  have halike : AlikeOn (fun _ => True) config.rateWindow 0 ipInfo ipInfo := fun ip _ => .refl _ _ _
  rw [answers_filter _ hkeep hdrop hclock halike, answers_filter _ hkeep hdrop hclock' halike, hsame]

def visits : List (DdosCall String) :=
  [.checkConnectionLimit "192.0.2.1" 0 0, .connectionClosed "192.0.2.1", .getStats (121 * second),
    .checkConnectionLimit "192.0.2.1" (122 * second) (122 * second)]

def sweptVisits : List (DdosCall String) :=
  visits.take 2 ++ .cleanupOldEntries (120 * second) :: visits.drop 2

theorem cleanup_unobservable_visits :
    (after .default ∅ (sweptVisits.take 3)).lookup "192.0.2.1" = none ∧
      ((answers .default ∅ sweptVisits).filter (!·.1.isCleanup)).map observed =
        ((answers .default ∅ visits).filter (!·.1.isCleanup)).map observed := by
  refine ⟨by decide, cleanup_unobservable .default ∅ ?_ ?_ (by decide)⟩
  · unfold Clocked
    decide
  · unfold Clocked
    decide

end FleetingDns.DdosProtection
