import FleetingDns.Library.Panics
import FleetingDns.Library.SlidingWindow
import FleetingDns.Library.Tables
namespace FleetingDns.DdosProtection

open Panics SlidingWindow Tables Option

structure DdosConfig where
  (maxConnectionsPerIp connectionRatePerMinute blockDuration rateWindow : ℕ)

def DdosConfig.default : DdosConfig := ⟨10, 100, 300 * ExpiringStore.second, 60 * ExpiringStore.second⟩

structure IpConnectionInfo where
  activeConnections : ℕ
  recentConnections : List ℕ
  blockedUntil : Option ℕ

structure DdosStats where
  (totalTrackedIps blockedIps totalActiveConnections : ℕ)
  deriving DecidableEq

def blocked : Checked := .returned (.error "IP address is blocked")

def limitExceeded : Checked := .returned (.error "Connection limit exceeded - IP blocked")

def overflowed : Checked := .panicked "overflow when adding duration to instant"

def allowed : Checked := .returned (.ok ())

def IpConnectionInfo.new : IpConnectionInfo := ⟨0, [], none⟩

def IpConnectionInfo.isBlocked (info : IpConnectionInfo) (now : ℕ) : Bool := info.blockedUntil.any (now < ·)

def IpConnectionInfo.update (info : IpConnectionInfo) (config : DdosConfig) (now : ℕ) : Checked × IpConnectionInfo :=
  let info := { info with recentConnections := live config.rateWindow now info.recentConnections }
  let shouldBlock := decide (info.recentConnections.length ≥ config.connectionRatePerMinute) ||
    decide (info.activeConnections ≥ config.maxConnectionsPerIp)
  if shouldBlock then
    match checkedAdd now config.blockDuration with
    | some blockedUntil => (limitExceeded, { info with blockedUntil := some blockedUntil })
    | none => (overflowed, info)
  else
    (allowed, { info with
      activeConnections := info.activeConnections + 1
      recentConnections := info.recentConnections ++ [now] })

def IpConnectionInfo.kept (info : IpConnectionInfo) (cleanupThreshold now : ℕ) : Bool :=
  if info.activeConnections = 0 then
    info.recentConnections.any (fun timestamp => now - timestamp < cleanupThreshold) || info.isBlocked now
  else true

abbrev IpInfo (Ip : Type) := AList fun _ : Ip => IpConnectionInfo

section

variable {Ip : Type} [DecidableEq Ip] (config : DdosConfig) (ipInfo : IpInfo Ip)

def isBlocked (now : ℕ) (ip : Ip) : Bool := (ipInfo.lookup ip).any (·.isBlocked now)

def checkConnectionLimit (testedAt now : ℕ) (ip : Ip) : Checked × IpInfo Ip :=
  if isBlocked ipInfo testedAt ip then (blocked, ipInfo)
  else
    let updated := ((ipInfo.lookup ip).getD .new).update config now
    (updated.1, ipInfo.insert ip updated.2)

def connectionClosed (ip : Ip) : IpInfo Ip := match ipInfo.lookup ip with
  | some info => ipInfo.insert ip { info with activeConnections := info.activeConnections - 1 }
  | none => ipInfo

def getStats (now : ℕ) : DdosStats where
  totalTrackedIps := ipInfo.entries.length
  blockedIps := total (fun info => (info.isBlocked now).toNat) ipInfo
  totalActiveConnections := total IpConnectionInfo.activeConnections ipInfo % 2 ^ 32

def cleanupOldEntries (now : ℕ) : Option (IpInfo Ip) :=
  (checkedMul config.rateWindow 2).map fun cleanupThreshold =>
    retain (·.kept cleanupThreshold now) ipInfo

end

inductive DdosCall (Ip : Type) where
  | isBlocked (ip : Ip) (now : ℕ)
  | checkConnectionLimit (ip : Ip) (testedAt now : ℕ)
  | connectionClosed (ip : Ip)
  | getStats (now : ℕ)
  | cleanupOldEntries (now : ℕ)
  deriving DecidableEq

inductive DdosReply where
  | blocked (b : Bool)
  | checked (r : Checked)
  | closed
  | stats (s : DdosStats)
  | cleaned (done : Bool)
  deriving DecidableEq


namespace DdosCall

variable {Ip : Type}

def readings : DdosCall Ip → List ℕ
  | .isBlocked _ now => [now]
  | .checkConnectionLimit _ testedAt now => [testedAt, now]
  | .connectionClosed _ => []
  | .getStats now => [now]
  | .cleanupOldEntries now => [now]

def updates : DdosCall Ip → Option Ip
  | .checkConnectionLimit ip _ _ => some ip
  | .connectionClosed ip => some ip
  | _ => none

end DdosCall

section

variable {Ip : Type} [DecidableEq Ip] (config : DdosConfig)

def serve (ipInfo : IpInfo Ip) : DdosCall Ip → DdosReply × IpInfo Ip
  | .isBlocked ip now => (.blocked (isBlocked ipInfo now ip), ipInfo)
  | .checkConnectionLimit ip testedAt now =>
    let r := checkConnectionLimit config ipInfo testedAt now ip
    (.checked r.1, r.2)
  | .connectionClosed ip => (.closed, connectionClosed ipInfo ip)
  | .getStats now => (.stats (getStats ipInfo now), ipInfo)
  | .cleanupOldEntries now =>
    let r := cleanupOldEntries config ipInfo now
    (.cleaned r.isSome, r.getD ipInfo)

def after (ipInfo : IpInfo Ip) (calls : List (DdosCall Ip)) : IpInfo Ip :=
  calls.foldl (fun ipInfo c => (serve config ipInfo c).2) ipInfo

def answers (ipInfo : IpInfo Ip) : List (DdosCall Ip) → List (DdosCall Ip × DdosReply)
  | [] => []
  | c :: calls => (c, (serve config ipInfo c).1) :: answers (serve config ipInfo c).2 calls

end

variable {Ip : Type} [DecidableEq Ip]

def entry (ipInfo : IpInfo Ip) (ip : Ip) : IpConnectionInfo := (ipInfo.lookup ip).getD .new

def IpConnectionInfo.check (info : IpConnectionInfo) (config : DdosConfig) (testedAt now : ℕ) :
    Checked × IpConnectionInfo :=
  if info.isBlocked testedAt then (blocked, info) else info.update config now

inductive Checks (config : DdosConfig) (testedAt now : ℕ) (info : IpConnectionInfo) : Checked → IpConnectionInfo → Prop
  | blocked : info.isBlocked testedAt = true → Checks config testedAt now info blocked info
  | exceeded {blockedUntil : ℕ} : checkedAdd now config.blockDuration = some blockedUntil →
      Checks config testedAt now info limitExceeded
        ⟨info.activeConnections, live config.rateWindow now info.recentConnections, some blockedUntil⟩
  | overflowed : checkedAdd now config.blockDuration = none →
      Checks config testedAt now info overflowed
        ⟨info.activeConnections, live config.rateWindow now info.recentConnections, info.blockedUntil⟩
  | allowed : info.isBlocked testedAt = false →
      (live config.rateWindow now info.recentConnections).length < config.connectionRatePerMinute →
      info.activeConnections < config.maxConnectionsPerIp →
      Checks config testedAt now info allowed ⟨info.activeConnections + 1,
        live config.rateWindow now info.recentConnections ++ [now], info.blockedUntil⟩

lemma check_cases (config : DdosConfig) (testedAt now : ℕ) (info : IpConnectionInfo) :
    Checks config testedAt now info (info.check config testedAt now).1 (info.check config testedAt now).2 := by
  unfold IpConnectionInfo.check
  split_ifs with hblocked
  · exact .blocked hblocked
  unfold IpConnectionInfo.update
  dsimp only
  split_ifs with hfull
  · split
    · rename_i hadd
      exact .exceeded hadd
    · rename_i hadd
      exact .overflowed hadd
  · simp only [Bool.or_eq_true, decide_eq_true_eq, not_or, not_le] at hfull
    exact .allowed (Bool.not_eq_true _ ▸ hblocked) hfull.1 hfull.2

inductive Effect (config : DdosConfig) (ip : Ip) (info : IpConnectionInfo) : DdosCall Ip → DdosReply → IpConnectionInfo → Prop
  | check (testedAt now : ℕ) : Effect config ip info (.checkConnectionLimit ip testedAt now)
      (.checked (info.check config testedAt now).1) (info.check config testedAt now).2
  | close : Effect config ip info (.connectionClosed ip) .closed
      { info with activeConnections := info.activeConnections - 1 }
  | stale {now : ℕ} {r : DdosReply} : info.activeConnections = 0 →
      (∀ t ∈ info.recentConnections, config.rateWindow * 2 ≤ now - t) → info.isBlocked now = false →
      Effect config ip info (.cleanupOldEntries now) r .new
  | other {c : DdosCall Ip} {r : DdosReply} : c.updates ≠ some ip → Effect config ip info c r info

lemma isBlocked_eq (ipInfo : IpInfo Ip) (now : ℕ) (ip : Ip) : isBlocked ipInfo now ip = (entry ipInfo ip).isBlocked now := by
  unfold isBlocked entry
  cases ipInfo.lookup ip <;> rfl

section

variable (config : DdosConfig) (ipInfo : IpInfo Ip)

lemma checkConnectionLimit_eq (testedAt now : ℕ) (ip : Ip) :
    (checkConnectionLimit config ipInfo testedAt now ip).1 = ((entry ipInfo ip).check config testedAt now).1 ∧
      ∀ ip', entry (checkConnectionLimit config ipInfo testedAt now ip).2 ip' =
        if ip' = ip then ((entry ipInfo ip).check config testedAt now).2 else entry ipInfo ip' := by
  unfold checkConnectionLimit IpConnectionInfo.check
  rw [isBlocked_eq]
  split_ifs with h
  · refine ⟨rfl, fun ip' => ?_⟩
    split_ifs with heq
    · rw [heq]
    · rfl
  · exact ⟨rfl, fun ip' => getD_lookup_insert _ _ _ _ _⟩

lemma entry_connectionClosed (ip ip' : Ip) : entry (connectionClosed ipInfo ip) ip' = if ip' = ip then
      { entry ipInfo ip with activeConnections := (entry ipInfo ip).activeConnections - 1 } else entry ipInfo ip' := by
  unfold connectionClosed
  split
  · rename_i info hlookup
    have hentry : entry ipInfo ip = info := by rw [entry, hlookup, getD_some]
    rw [hentry]
    exact getD_lookup_insert _ _ _ _ _
  rename_i hlookup
  have hentry : entry ipInfo ip = .new := by rw [entry, hlookup, getD_none]
  split_ifs with heq
  · rw [heq, hentry]
    rfl
  · rfl

lemma effect_cleanupOldEntries (now : ℕ) (ip : Ip) (r : DdosReply) :
    Effect config ip (entry ipInfo ip) (.cleanupOldEntries now) r
      (entry ((cleanupOldEntries config ipInfo now).getD ipInfo) ip) := by
  unfold cleanupOldEntries checkedMul
  split_ifs
  · unfold entry
    rw [map_some, getD_some, lookup_retain]
    obtain _ | _ := ipInfo.lookup ip
    · exact .other nofun
    rw [filter_some]
    split_ifs with hkept
    · exact .other nofun
    · unfold IpConnectionInfo.kept at hkept
      split_ifs at hkept with hactive
      · simp only [Bool.or_eq_true, List.any_eq_true, decide_eq_true_eq, not_or, not_exists, not_and, not_lt] at hkept
        exact .stale hactive hkept.1 (Bool.not_eq_true _ ▸ hkept.2)
      · exact absurd rfl hkept
  · exact .other nofun

lemma effect_serve (c : DdosCall Ip) (ip : Ip) :
    Effect config ip (entry ipInfo ip) c (serve config ipInfo c).1 (entry (serve config ipInfo c).2 ip) := by
  cases c with
  | isBlocked | getStats => exact .other nofun
  | cleanupOldEntries now => exact effect_cleanupOldEntries config ipInfo now ip _
  | checkConnectionLimit ip' testedAt now =>
    obtain ⟨hr, hentry⟩ := checkConnectionLimit_eq config ipInfo testedAt now ip'
    dsimp only [serve]
    rw [hr, hentry ip]
    split_ifs with h
    · subst h
      exact .check testedAt now
    · exact .other fun heq => h (Option.some.inj heq).symm
  | connectionClosed =>
    dsimp only [serve]
    rw [entry_connectionClosed]
    split_ifs with h
    · subst h
      exact .close
    · exact .other fun heq => h (Option.some.inj heq).symm

end

end FleetingDns.DdosProtection
