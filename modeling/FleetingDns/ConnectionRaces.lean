import FleetingDns.ConnectionLimits
import FleetingDns.Library.ProgramRuns
namespace FleetingDns.DdosProtection

open CommandPrograms Panics ThreadPool ServerPool GuardedRuns ExpiringStore

inductive LimitCmd (Ip : Type) where
  | isBlocked (ip : Ip)
  | instantNow
  | update (ip : Ip) (now : ℕ)
  | close (ip : Ip)

abbrev LimitCmd.Reply {Ip : Type} : LimitCmd Ip → Type
  | .isBlocked _ => Bool
  | .instantNow => ℕ
  | .update _ _ => Checked
  | .close _ => Unit

inductive LimitCall (Ip : Type) where
  | checkConnectionLimit (ip : Ip)
  | connectionClosed (ip : Ip)

inductive LimitDone where
  | checked (r : Checked)
  | closed
  | dropped

section

variable {Ip : Type}

abbrev LimitProgram (Ip : Type) := Prog (LimitCmd Ip) LimitCmd.Reply

def issue (c : LimitCmd Ip) : LimitProgram Ip c.Reply := Prog.issue c

def LimitCall.program : LimitCall Ip → LimitProgram Ip LimitDone
  | .checkConnectionLimit ip => do
    if ← issue (.isBlocked ip) then return .checked blocked
    let now ← issue .instantNow
    return .checked (← issue (.update ip now))
  | .connectionClosed ip => do
    issue (.close ip)
    return .closed

structure LimitState (Ip : Type) where
  now : ℕ
  ipInfo : IpInfo Ip

variable [DecidableEq Ip]

def LimitState.perform (config : DdosConfig) (s : LimitState Ip) : (c : LimitCmd Ip) → Unit → Option (LimitState Ip × c.Reply)
  | .isBlocked ip, _ => some (s, DdosProtection.isBlocked s.ipInfo s.now ip)
  | .instantNow, _ => some (s, s.now)
  | .update ip now, _ =>
    let updated := (entry s.ipInfo ip).update config now
    some ({ s with ipInfo := s.ipInfo.insert ip updated.2 }, updated.1)
  | .close ip, _ => some ({ s with ipInfo := connectionClosed s.ipInfo ip }, ())

def limitServer (config : DdosConfig) :
    Service (LimitState Ip) (LimitCall Ip) (LimitCmd Ip) LimitCmd.Reply LimitDone Unit ℕ where
  program := LimitCall.program
  perform := LimitState.perform config
  accept s _ := some s
  drift s d := some { s with now := s.now + d }
  restart _ := none
  stopped := .dropped

end

abbrev LimitEvent (Ip : Type) := Event (LimitState Ip) (LimitCmd Ip) LimitCmd.Reply

abbrev LimitThread (Ip : Type) := Thread (LimitState Ip) (LimitCall Ip) (LimitCmd Ip) LimitCmd.Reply LimitDone

abbrev LimitPool (Ip : Type) := Pool (LimitState Ip) (LimitCall Ip) (LimitCmd Ip) LimitCmd.Reply LimitDone

abbrev LimitAct (Ip : Type) := Act (LimitCall Ip) Unit ℕ

variable {Ip : Type}

def LimitCall.May : LimitCall Ip → List (LimitEvent Ip) → LimitCmd Ip → Prop
  | .checkConnectionLimit ip, h, c => (h = [] ∧ c = .isBlocked ip) ∨ (∃ t, h = [⟨t, .isBlocked ip, false⟩] ∧ c = .instantNow) ∨
      ∃ t t' now, h = [⟨t, .isBlocked ip, false⟩, ⟨t', .instantNow, now⟩] ∧ c = .update ip now
  | .connectionClosed ip, h, c => h = [] ∧ c = .close ip

lemma obeys_program (call : LimitCall Ip) : Obeys call.May (fun _ _ => True) call.program [] := by
  cases call with
  | checkConnectionLimit =>
    refine .call (.inl ⟨rfl, rfl⟩) ?_
    rintro r h ⟨t, rfl⟩
    cases r with
    | true => exact .ret trivial
    | false =>
      refine .call (.inr (.inl ⟨t, rfl, rfl⟩)) ?_
      rintro now h ⟨t', rfl⟩
      refine .call (.inr (.inr ⟨t, t', now, rfl, rfl⟩)) ?_
      rintro r h ⟨t'', rfl⟩
      exact .ret trivial
  | connectionClosed =>
    refine .call ⟨rfl, rfl⟩ ?_
    rintro r h ⟨t, rfl⟩
    exact .ret trivial

variable [DecidableEq Ip] {config : DdosConfig} {s s0 s' : LimitState Ip} {w w' : LimitPool Ip} {a : LimitAct Ip} {tid : ℕ}
  {th : LimitThread Ip} {ip : Ip} {now : ℕ}

lemma perform_now {c : LimitCmd Ip} {o : Unit} {r : c.Reply} (h : LimitState.perform config s c o = some (s', r)) :
    s'.now = s.now := by
  cases c <;> cases h <;> rfl

lemma now_step (h : step (limitServer config) w a = some w') : w.shared.now ≤ w'.shared.now := by
  cases step_effect h with
  | drift drift =>
    rw [← Option.some.inj drift]
    exact Nat.le_add_right _ _
  | arrive accept => rw [← Option.some.inj accept]
  | exec thread prog perform => rw [perform_now perform]
  | cancel thread inFlight shared => rw [shared]
  | restart restart => cases restart

lemma updates_reported (hr : Reach (step (limitServer config)) Free ⟨s0, []⟩ w) (hth : w.threads[tid]? = some th)
    {t : Span (LimitState Ip)} {r : Checked} (he : ⟨t, .update ip now, r⟩ ∈ th.history) :
    ∃ t1 t2, th.history = [⟨t1, .isBlocked ip, false⟩, ⟨t2, .instantNow, now⟩, ⟨t, .update ip now, r⟩] := by
  have hkeeps : Keeps LimitCall.May (fun _ _ _ => True) w.threads :=
    reach_keeps obeys_program (fun _ _ => trivial) hr
  have hperm := (hkeeps tid th hth).1
  obtain ⟨h1, h2, heq⟩ := List.append_of_mem he
  have hmay := hperm h1 _ h2 heq
  cases hcall : th.call with
  | connectionClosed =>
    rw [hcall] at hmay
    cases hmay.2
  | checkConnectionLimit =>
    rw [hcall] at hmay hperm
    obtain ⟨-, hc⟩ | ⟨-, -, hc⟩ | ⟨t1, t2, now', rfl, hc⟩ := hmay
    · cases hc
    · cases hc
    cases hc
    -- the update is the last command of a check
    cases h2 with
    | nil => exact ⟨t1, t2, heq⟩
    | cons e h2 =>
      obtain ⟨hnil, -⟩ | ⟨_, hone, -⟩ | ⟨_, _, _, htwo, -⟩ := hperm [_, _, _] e h2 heq
      · cases hnil
      · cases hone
      · cases htwo

theorem allowed_unblocked (hr : Reach (step (limitServer config)) Free ⟨s0, []⟩ w) (hth : w.threads[tid]? = some th)
    {t : Span (LimitState Ip)} (he : ⟨t, .update ip now, allowed⟩ ∈ th.history) :
    ∃ t1, ⟨t1, .isBlocked ip, false⟩ ∈ th.history ∧
      ((entry t.before.ipInfo ip).blockedUntil = (entry t1.before.ipInfo ip).blockedUntil →
        (entry t.before.ipInfo ip).isBlocked now = false) := by
  obtain ⟨t1, t2, hhist⟩ := updates_reported hr hth he
  refine ⟨t1, by simp [hhist], ?_⟩
  intro hsame
  obtain ⟨hordered, -⟩ := reach_ordered (m := LimitState.now) (fun _ _ _ => now_step) hr hth
  have hperform : ∀ e ∈ th.history, ∃ o, LimitState.perform config e.span.before e.cmd o = some (e.span.after, e.reply) := by
    intro e he
    exact event_performed hr hth he
  rw [hhist] at hordered hperform
  obtain ⟨_, htest⟩ := hperform ⟨t1, .isBlocked ip, false⟩ (by simp)
  obtain ⟨_, hread⟩ := hperform ⟨t2, .instantNow, now⟩ (by simp)
  have hunblocked : isBlocked t1.before.ipInfo t1.before.now ip = false := congrArg Prod.snd (Option.some.inj htest)
  have hnow : t2.before.now = now := congrArg Prod.snd (Option.some.inj hread)
  have hle : t1.before.now ≤ now := by
    rw [← perform_now htest, ← hnow]
    exact (List.pairwise_cons.mp hordered).1 _ List.mem_cons_self
  rw [isBlocked_eq] at hunblocked
  unfold IpConnectionInfo.isBlocked at hunblocked ⊢
  rw [hsame]
  rw [Option.any_eq_false] at hunblocked ⊢
  intro blockedUntil hb
  have := hunblocked blockedUntil hb
  rw [decide_eq_false_iff_not] at this ⊢
  omega

namespace Race

def tested : List (LimitAct String) :=
  [.arrive (.checkConnectionLimit "192.0.2.1"), .exec 0 (), .exec 0 (), .exec 0 (),
    .arrive (.checkConnectionLimit "192.0.2.1"), .exec 1 (), .drift 1, .exec 1 ()]

def blocking : List (LimitAct String) :=
  [.arrive (.checkConnectionLimit "192.0.2.1"), .exec 2 (), .exec 2 (), .exec 2 (),
    .arrive (.connectionClosed "192.0.2.1"), .exec 3 ()]

def allows (p : Bool → Bool) (e : LimitEvent String) : Bool := match e with
  | ⟨t, .update ip now, r⟩ => ip = "192.0.2.1" && r = allowed && p ((entry t.before.ipInfo ip).isBlocked now)
  | _ => false

def neverBlocked (e : LimitEvent String) : Bool := (entry e.span.before.ipInfo "192.0.2.1").blockedUntil.isNone

lemma allows_eq {p : Bool → Bool} {e : LimitEvent String} (h : allows p e = true) :
    ∃ t now, e = ⟨t, .update "192.0.2.1" now, allowed⟩ ∧ p ((entry t.before.ipInfo "192.0.2.1").isBlocked now) = true := by
  unfold allows at h
  split at h
  · rename_i t ip now r
    simp only [Bool.and_eq_true, decide_eq_true_eq] at h
    obtain ⟨⟨rfl, rfl⟩, hp⟩ := h
    exact ⟨t, now, rfl, hp⟩
  · cases h

def begin : LimitPool String := ⟨⟨0, ∅⟩, []⟩

end Race

open Race

theorem allowed_unblocked_first : ∃ (w : LimitPool String) (th : LimitThread String) (t : Span (LimitState String)) (now : ℕ),
    Reach (step (limitServer (once (300 * second)))) Free begin w ∧ w.threads[0]? = some th ∧
    ⟨t, .update "192.0.2.1" now, allowed⟩ ∈ th.history ∧ (entry t.before.ipInfo "192.0.2.1").isBlocked now = false := by
  obtain ⟨w, hr, hw⟩ := reach_of_check (step (limitServer (once (300 * second)))) Free begin tested
    (fun w => w.threads[0]?.any fun th => th.history.any (allows fun _ => true) && th.history.all neverBlocked)
    (by decide +kernel)
  rw [Option.any_eq_true] at hw
  obtain ⟨th, hth, hw⟩ := hw
  rw [Bool.and_eq_true, List.all_eq_true] at hw
  obtain ⟨e, he, hallows⟩ := List.any_eq_true.mp hw.1
  obtain ⟨t, now, rfl, -⟩ := allows_eq hallows
  obtain ⟨t1, hmem, hunblocked⟩ := allowed_unblocked hr hth he
  have hnone : ∀ e ∈ th.history, (entry e.span.before.ipInfo "192.0.2.1").blockedUntil = none := by
    intro e he
    exact Option.isNone_iff_eq_none.mp (hw.2 e he)
  exact ⟨w, th, t, now, hr, hth, he, hunblocked ((hnone _ he).trans (hnone _ hmem).symm)⟩

/-- The check that found the address free allows a connection after the address has been blocked. -/
theorem blocked_allowed : ∃ (w : LimitPool String) (th : LimitThread String) (t : Span (LimitState String)) (now : ℕ),
    Reach (step (limitServer (once (300 * second)))) Free begin w ∧ w.threads[1]? = some th ∧
    ⟨t, .update "192.0.2.1" now, allowed⟩ ∈ th.history ∧ (entry t.before.ipInfo "192.0.2.1").isBlocked now = true := by
  obtain ⟨w, hr, hw⟩ := reach_of_check (step (limitServer (once (300 * second)))) Free begin
    (tested ++ blocking ++ [.exec 1 ()]) (fun w => w.threads[1]?.any (·.history.any (allows id))) (by decide +kernel)
  rw [Option.any_eq_true] at hw
  obtain ⟨th, hth, hany⟩ := hw
  obtain ⟨e, he, hallows⟩ := List.any_eq_true.mp hany
  obtain ⟨t, now, rfl, hblocked⟩ := allows_eq hallows
  exact ⟨w, th, t, now, hr, hth, he, hblocked⟩

end FleetingDns.DdosProtection
