import FleetingDns.Library.ExpiringStore
import FleetingDns.Library.GuardedRuns
import Mathlib.Data.List.Basic
import Mathlib.Logic.Function.Basic
namespace FleetingDns.Shutdown

open ExpiringStore GuardedRuns List

inductive ShutdownSignal where
  | graceful
  | immediate
  | force
  deriving DecidableEq

inductive ShutdownState where
  | running
  | draining
  | stopping
  | stopped
  deriving DecidableEq

inductive ControlCommand where
  | shutdown (signal : ShutdownSignal)
  | status
  | ping
  | reload

structure ControlResponse where
  status : String
  (uptime activeConnections : ℕ)
  shutdownState : ShutdownState
  component : String

structure ShutdownConfig where
  (gracefulTimeout immediateTimeout forceTimeout : ℕ)
  componentName : String

def ShutdownConfig.default (componentName : String) : ShutdownConfig :=
  ⟨30 * second, 5 * second, 1 * second, componentName⟩

inductive OsSignal where
  | sigterm
  | sigint
  | sigusr1
  | sigusr2
  deriving DecidableEq

def OsSignal.shutdownSignal : OsSignal → ShutdownSignal
  | sigterm | sigint => .graceful
  | sigusr1 => .immediate
  | sigusr2 => .force

def ShutdownSignal.debug : ShutdownSignal → String
  | graceful => "Graceful"
  | immediate => "Immediate"
  | force => "Force"

structure Ending where
  (endedAt openConnections : ℕ)
  delivered : List ShutdownSignal

structure Wait where
  (startedAt timeout wakeAt : ℕ)
  ordered : Bool
  ending : Option Ending

def Wait.deadline (w : Wait) : ℕ := w.startedAt + w.timeout

structure GracefulShutdown where
  config : ShutdownConfig
  state : ShutdownState
  (activeConnections startTime : ℕ)
  listening : OsSignal → Bool
  /-- The signal of the latest call of `shutdown`. -/
  called : Option ShutdownSignal
  delivered : List ShutdownSignal
  waits : List Wait
  clock : ℕ

def pollInterval : ℕ := second / 10

namespace GracefulShutdown

def withConfig (config : ShutdownConfig) (now : ℕ) : GracefulShutdown :=
  ⟨config, .running, 0, now, fun _ => true, none, [], [], now⟩

section

variable (s : GracefulShutdown) (signal : ShutdownSignal)

def send : GracefulShutdown :=
  { s with delivered := s.delivered ++ [signal] }

def shutdown : GracefulShutdown :=
  let state := match signal with
    | .force => .stopping
    | _ => .draining
  { s with state := state, called := some signal }.send signal

def handleOsSignal (sig : OsSignal) : GracefulShutdown :=
  if s.listening sig then
    { s with listening := Function.update s.listening sig false }.send sig.shutdownSignal
  else s

def respond (status : String) : ControlResponse :=
  ⟨status, s.clock - s.startTime, s.activeConnections, s.state, s.config.componentName⟩

end

def handleControlCommand (s : GracefulShutdown) : ControlCommand → ControlResponse × GracefulShutdown
  | .shutdown signal => (s.respond ("Shutdown initiated with signal: " ++ signal.debug), s.send signal)
  | .status => (s.respond "Service running", s)
  | .ping => (s.respond "Pong", s)
  | .reload => (s.respond "Reload not implemented yet", s)

-- an atomic 64-bit counter wraps
def connectionStarted (s : GracefulShutdown) : GracefulShutdown :=
  { s with activeConnections := (s.activeConnections + 1) % 2 ^ 64 }

def connectionFinished (s : GracefulShutdown) : GracefulShutdown :=
  { s with activeConnections := (s.activeConnections + 2 ^ 64 - 1) % 2 ^ 64 }

def timeoutDuration (s : GracefulShutdown) : ℕ :=
  match s.state with
  | .draining => s.config.gracefulTimeout
  | .stopping => s.config.immediateTimeout
  | _ => s.config.forceTimeout

def ending (s : GracefulShutdown) : Ending := ⟨s.clock, s.activeConnections, s.delivered⟩

/-- One poll: the loop over the connections first, then the timer around it. -/
def poll (s : GracefulShutdown) (w : Wait) : Wait :=
  if w.wakeAt ≤ s.clock ∧ s.activeConnections = 0 then { w with ending := some s.ending }
  else
    let wakeAt := if w.wakeAt ≤ s.clock then s.clock + pollInterval else w.wakeAt
    if w.deadline ≤ s.clock then { w with wakeAt := wakeAt, ending := some s.ending } else { w with wakeAt := wakeAt }

def resume (s : GracefulShutdown) (i : ℕ) (w : Wait) : GracefulShutdown :=
  let w := s.poll w
  { s with waits := s.waits.set i w, state := if w.ending.isSome then .stopped else s.state }

def waitForShutdown (s : GracefulShutdown) : GracefulShutdown :=
  let w : Wait := ⟨s.clock, s.timeoutDuration, s.clock, !s.delivered.isEmpty, none⟩
  { s with waits := s.waits ++ [w] }.resume s.waits.length w

end GracefulShutdown

inductive Act where
  | shutdown (signal : ShutdownSignal)
  | osSignal (sig : OsSignal)
  | control (command : ControlCommand)
  | connectionStarted
  | connectionFinished
  | waitForShutdown
  | resume (i : ℕ)
  | advance (t : ℕ)

section

variable (s : GracefulShutdown)

/-- Timers fire on time: the clock does not pass the end of a sleep or of a timeout that is waited for. -/
def mayAdvance (t : ℕ) : Bool :=
  s.clock ≤ t && s.waits.all fun w => w.ending.isSome || (t ≤ w.wakeAt && t ≤ w.deadline)

def step : Act → Option GracefulShutdown
  | .shutdown signal => some (s.shutdown signal)
  | .osSignal sig => some (s.handleOsSignal sig)
  | .control command => some (s.handleControlCommand command).2
  | .connectionStarted => some s.connectionStarted
  | .connectionFinished => some s.connectionFinished
  | .waitForShutdown => some s.waitForShutdown
  | .resume i => match s.waits[i]? with | some w => if w.ending.isSome then none else some (s.resume i w) | none => none
  | .advance t => if mayAdvance s t then some { s with clock := t } else none

def ShutdownSignal.urgency : ShutdownSignal → ℕ
  | graceful => 0
  | immediate => 1
  | force => 2

def moreUrgent (a b : ShutdownSignal) : ShutdownSignal := if a.urgency < b.urgency then b else a

def mostUrgent (delivered : List ShutdownSignal) : ShutdownSignal := delivered.foldl moreUrgent .graceful

def ShutdownConfig.documented (config : ShutdownConfig) : ShutdownSignal → ℕ
  | .graceful => config.gracefulTimeout
  | .immediate => config.immediateTimeout
  | .force => config.forceTimeout

def GracefulShutdown.documented : ℕ := s.config.documented (mostUrgent s.delivered)

def ShutdownState.rank : ShutdownState → ℕ
  | running => 0
  | draining => 1
  | stopping => 2
  | stopped => 3

def underWay : Bool := s.waits.any fun w => w.ordered && w.ending.isNone

/-- A wait lasts as documented for the most urgent signal, by the latest call of `shutdown` before it. -/
def Matches (config : ShutdownConfig) : Option ShutdownSignal → (urgent : ShutdownSignal) → Prop
  | none, .force | some .graceful, .graceful | some .immediate, .graceful => True
  | none, .graceful => config.forceTimeout = config.gracefulTimeout
  | none, .immediate => config.forceTimeout = config.immediateTimeout
  | some .graceful, urgent | some .immediate, urgent => config.gracefulTimeout = config.documented urgent
  | some .force, urgent => config.immediateTimeout = config.documented urgent

/-- What was called since the state became `Stopped` is nothing. -/
def GracefulShutdown.latest : Option ShutdownSignal :=
  if s.state = .stopped then none else s.called

def Unmoved (signal : ShutdownSignal) : Prop :=
  underWay s = true → (s.send signal).documented = s.documented

def Forward (signal : ShutdownSignal) : Prop :=
  s.state ≠ .stopped ∧ (s.called = some .force → signal = .force)

def Honoured : Act → Prop
  | .shutdown signal => Forward s signal ∧ Unmoved s signal
  | .osSignal sig => s.listening sig = true → Unmoved s sig.shutdownSignal
  | .control (.shutdown signal) => Unmoved s signal
  | .waitForShutdown => s.delivered = [] ∨ Matches s.config s.latest (mostUrgent s.delivered)
  | _ => True

end

instance (config : ShutdownConfig) : (called : Option ShutdownSignal) → (urgent : ShutdownSignal) →
    Decidable (Matches config called urgent)
  | none, .force | some .graceful, .graceful | some .immediate, .graceful => .isTrue trivial
  | none, .graceful | none, .immediate | some .graceful, .immediate | some .graceful, .force
  | some .immediate, .immediate | some .immediate, .force | some .force, _ => inferInstanceAs (Decidable (_ = _))

instance (s : GracefulShutdown) (signal : ShutdownSignal) : Decidable (Unmoved s signal) :=
  inferInstanceAs (Decidable (_ → _))

instance (s : GracefulShutdown) (signal : ShutdownSignal) : Decidable (Forward s signal) :=
  inferInstanceAs (Decidable (_ ∧ _))

instance (s : GracefulShutdown) : (act : Act) → Decidable (Honoured s act)
  | .shutdown _ => inferInstanceAs (Decidable (_ ∧ _))
  | .osSignal _ => inferInstanceAs (Decidable (_ → Unmoved s _))
  | .control (.shutdown signal) => inferInstanceAs (Decidable (Unmoved s signal))
  | .waitForShutdown => inferInstanceAs (Decidable (_ ∨ _))
  | .control .status | .control .ping | .control .reload | .connectionStarted | .connectionFinished | .resume _
  | .advance _ => .isTrue trivial

section

variable {s s' : GracefulShutdown} {w : Wait} {t : ℕ}

def Wait.Timed (clock : ℕ) (w : Wait) : Prop :=
  w.startedAt ≤ clock ∧ match w.ending with
  | none => clock ≤ w.deadline
  | some e => w.startedAt ≤ e.endedAt ∧ e.endedAt ≤ w.deadline ∧ (0 < e.openConnections → e.endedAt = w.deadline)

def Wait.Due (s : GracefulShutdown) (w : Wait) : Prop :=
  w.ordered = true → match w.ending with
  | none => w.timeout = s.documented
  | some e => w.timeout = s.config.documented (mostUrgent e.delivered)

lemma poll_cases (s : GracefulShutdown) (w : Wait) :
    ∃ wakeAt, (s.poll w = { w with wakeAt := wakeAt } ∧ s.clock < w.deadline) ∨
      (s.poll w = { w with wakeAt := wakeAt, ending := some s.ending } ∧
        (s.activeConnections = 0 ∨ w.deadline ≤ s.clock)) := by
  by_cases hdone : w.wakeAt ≤ s.clock ∧ s.activeConnections = 0
  · exact ⟨w.wakeAt, .inr ⟨by rw [GracefulShutdown.poll, if_pos hdone], .inl hdone.2⟩⟩
  · refine ⟨if w.wakeAt ≤ s.clock then s.clock + pollInterval else w.wakeAt, ?_⟩
    rw [GracefulShutdown.poll, if_neg hdone]
    by_cases hlate : w.deadline ≤ s.clock
    · exact .inr ⟨if_pos hlate, .inr hlate⟩
    · exact .inl ⟨if_neg hlate, Nat.lt_of_not_le hlate⟩

lemma timed_poll (hw : w.ending = none) (h : w.Timed s.clock) : (s.poll w).Timed s.clock := by
  rw [Wait.Timed, hw] at h
  obtain ⟨wakeAt, ⟨hpoll, hlt⟩ | ⟨hpoll, hend⟩⟩ := poll_cases s w
  · rw [hpoll]
    simp only [hw]
    exact h
  · rw [hpoll]
    refine ⟨h.1, h.1, h.2, fun hopen => Nat.le_antisymm h.2 ?_⟩
    exact hend.resolve_left (Nat.ne_of_gt hopen)

lemma due_poll (hw : w.ending = none) (h : w.Due s) : (s.poll w).Due s := by
  intro hordered
  obtain ⟨wakeAt, ⟨hpoll, -⟩ | ⟨hpoll, -⟩⟩ := poll_cases s w
  · rw [hpoll] at hordered ⊢
    exact h hordered
  · rw [hpoll] at hordered ⊢
    have hdue := h hordered
    simp only [hw] at hdue
    exact hdue

lemma timed_advance (h : w.Timed s.clock) (ht : mayAdvance s t = true) (hw : w ∈ s.waits) : w.Timed t := by
  simp only [mayAdvance, Bool.and_eq_true, decide_eq_true_eq, all_eq_true, Bool.or_eq_true] at ht
  obtain ⟨hstart, hend⟩ := h
  refine ⟨Nat.le_trans hstart ht.1, ?_⟩
  cases he : w.ending with
  | none =>
    have := ht.2 w hw
    simp only [he, Option.isSome_none, Bool.false_eq_true, false_or] at this
    exact this.2
  | some =>
    rw [he] at hend
    exact hend

end

def ShutdownState.after : Option ShutdownSignal → ShutdownState
  | none => .running
  | some .force => .stopping
  | some _ => .draining

structure Honest (config : ShutdownConfig) (s : GracefulShutdown) : Prop where
  config_eq : s.config = config
  timed : ∀ w ∈ s.waits, w.Timed s.clock
  due : ∀ w ∈ s.waits, w.Due s
  state_eq : s.state ≠ .stopped → s.state = .after s.called

section

variable {config : ShutdownConfig} {s s' : GracefulShutdown} {act : Act} {t : ℕ}

lemma matches_iff (h : s.state ≠ .stopped → s.state = .after s.called) (urgent : ShutdownSignal) :
    s.timeoutDuration = s.config.documented urgent ↔ Matches s.config s.latest urgent := by
  unfold GracefulShutdown.latest GracefulShutdown.timeoutDuration
  split_ifs with hs
  · rw [hs]
    cases urgent <;> simp [Matches, ShutdownConfig.documented]
  · rw [h hs]
    cases s.called with
    | none => cases urgent <;> simp [Matches, ShutdownConfig.documented, ShutdownState.after]
    | some signal => cases signal <;> cases urgent <;> simp [Matches, ShutdownConfig.documented, ShutdownState.after]

section

variable (h : Honest config s) (hconfig : s'.config = s.config) (hwaits : s'.waits = s.waits)
  (hclock : s'.clock = s.clock) (hdocumented : underWay s = true → s'.documented = s.documented)
  (hstate : s'.state ≠ .stopped → s'.state = .after s'.called)

include h hconfig hwaits hclock hdocumented hstate

lemma honest_request : Honest config s' where
  config_eq := hconfig.trans h.config_eq
  timed w hw := by
    rw [hwaits] at hw
    rw [hclock]
    exact h.timed w hw
  due w hw hordered := by
    rw [hwaits] at hw
    have hdue := h.due w hw hordered
    cases he : w.ending with
    | none =>
      have hunder : underWay s = true := by
        simp only [underWay, any_eq_true]
        exact ⟨w, hw, by simp [hordered, he]⟩
      simp only [he] at hdue ⊢
      rw [hdue, hdocumented hunder]
    | some =>
      simp only [he] at hdue ⊢
      rw [hdue, hconfig]
  state_eq := hstate

end

lemma honest_send {signal : ShutdownSignal} (h : Honest config s) (hu : Unmoved s signal) :
    Honest config (s.send signal) :=
  honest_request h rfl rfl rfl hu h.state_eq

lemma honest_count (h : Honest config s) (n : ℕ) : Honest config { s with activeConnections := n } :=
  honest_request h rfl rfl rfl (fun _ => rfl) h.state_eq

lemma honest_poll {w : Wait} {waits : List Wait} (h : Honest config s) (hw : w.ending = none)
    (htimed : w.Timed s.clock) (hdue : w.Due s) (hwaits : ∀ w' ∈ waits, w' ∈ s.waits ∨ w' = s.poll w) :
    Honest config { s with
      waits := waits, state := if (s.poll w).ending.isSome then .stopped else s.state } where
  config_eq := h.config_eq
  timed w' hw' := by
    rcases hwaits w' hw' with hold | rfl
    · exact h.timed w' hold
    · exact timed_poll hw htimed
  due w' hw' := by
    rcases hwaits w' hw' with hold | rfl
    · exact h.due w' hold
    · exact due_poll hw hdue
  state_eq := by
    split_ifs
    · exact fun hne => absurd rfl hne
    · exact h.state_eq

lemma waits_waitForShutdown (s : GracefulShutdown) : ∃ w : Wait, s.waitForShutdown.waits = s.waits ++ [s.poll w] ∧
    s.waitForShutdown =
      { s with waits := s.waits ++ [s.poll w], state := if (s.poll w).ending.isSome then .stopped else s.state } ∧
    w = ⟨s.clock, s.timeoutDuration, s.clock, !s.delivered.isEmpty, none⟩ := by
  refine ⟨_, ?_, ?_, rfl⟩ <;> simp [GracefulShutdown.waitForShutdown, GracefulShutdown.resume, GracefulShutdown.poll,
    GracefulShutdown.ending]

lemma honest_waitForShutdown (h : Honest config s) (hg : Honoured s .waitForShutdown) :
    Honest config s.waitForShutdown := by
  obtain ⟨w, -, heq, rfl⟩ := waits_waitForShutdown s
  rw [heq]
  refine honest_poll h rfl ⟨Nat.le_refl _, Nat.le_add_right _ _⟩ ?_ ?_
  · intro hordered
    have hne : s.delivered ≠ [] := by simpa using hordered
    exact (matches_iff h.state_eq _).mpr (hg.resolve_left hne)
  · intro w' hw'
    rcases mem_append.mp hw' with hold | hnew
    · exact .inl hold
    · exact .inr (mem_singleton.mp hnew)

lemma honest_step (h : Honest config s) (hg : Honoured s act) (hstep : step s act = some s') : Honest config s' := by
  cases act with
  | shutdown signal =>
    cases hstep
    exact honest_request h rfl rfl rfl hg.2 fun _ => by cases signal <;> rfl
  | osSignal =>
    cases hstep
    rw [GracefulShutdown.handleOsSignal]
    split_ifs with hl
    · exact honest_request h rfl rfl rfl (hg hl) h.state_eq
    · exact h
  | control command =>
    cases hstep
    cases command with
    | shutdown => exact honest_send h hg
    | status | ping | reload => exact h
  | connectionStarted =>
    obtain rfl := Option.some.inj hstep
    exact honest_count h _
  | connectionFinished =>
    obtain rfl := Option.some.inj hstep
    exact honest_count h _
  | waitForShutdown =>
    obtain rfl := Option.some.inj hstep
    exact honest_waitForShutdown h hg
  | resume i =>
    simp only [step] at hstep
    split at hstep
    · rename_i w hw
      split_ifs at hstep with hend
      obtain rfl := Option.some.inj hstep
      have hmem := mem_of_getElem? hw
      refine honest_poll h (Option.not_isSome_iff_eq_none.mp hend) (h.timed w hmem) (h.due w hmem) ?_
      intro w' hw'
      exact mem_or_eq_of_mem_set hw'
    · cases hstep
  | advance =>
    simp only [step] at hstep
    split_ifs at hstep with hmay
    obtain rfl := Option.some.inj hstep
    exact ⟨h.config_eq, fun w hw => timed_advance (h.timed w hw) hmay hw, h.due, h.state_eq⟩

lemma honest_new (config : ShutdownConfig) (t : ℕ) : Honest config (.withConfig config t) := by
  refine ⟨rfl, ?_, ?_, fun _ => rfl⟩ <;> simp [GracefulShutdown.withConfig]

lemma rank_stopped (s : GracefulShutdown) (p : Prop) [Decidable p] :
    s.state.rank ≤ (if p then ShutdownState.stopped else s.state).rank := by
  split_ifs
  · cases s.state <;> decide
  · exact Nat.le_refl _

lemma forward_shutdown (h : s.state ≠ .stopped → s.state = .after s.called) (signal : ShutdownSignal) :
    s.state.rank ≤ (s.shutdown signal).state.rank ↔ Forward s signal := by
  simp only [GracefulShutdown.shutdown, GracefulShutdown.send, Forward]
  by_cases hs : s.state = .stopped
  · rw [hs]
    cases signal <;> simp [ShutdownState.rank]
  · rw [h hs]
    cases s.called with
    | none => cases signal <;> simp [ShutdownState.rank, ShutdownState.after]
    | some called => cases called <;> cases signal <;> simp [ShutdownState.rank, ShutdownState.after]

lemma forward_step (hact : ∀ signal, act ≠ .shutdown signal) (hstep : step s act = some s') :
    s.state.rank ≤ s'.state.rank := by
  cases act with
  | shutdown signal => exact absurd rfl (hact signal)
  | osSignal =>
    obtain rfl := Option.some.inj hstep
    rw [GracefulShutdown.handleOsSignal]
    split_ifs <;> exact Nat.le_refl _
  | control command =>
    obtain rfl := Option.some.inj hstep
    cases command <;> exact Nat.le_refl _
  | connectionStarted =>
    obtain rfl := Option.some.inj hstep
    rw [GracefulShutdown.connectionStarted]
  | connectionFinished =>
    obtain rfl := Option.some.inj hstep
    rw [GracefulShutdown.connectionFinished]
  | waitForShutdown =>
    obtain rfl := Option.some.inj hstep
    exact rank_stopped s _
  | resume =>
    simp only [step] at hstep
    split at hstep
    · split_ifs at hstep
      obtain rfl := Option.some.inj hstep
      exact rank_stopped s _
    · cases hstep
  | advance =>
    simp only [step] at hstep
    split_ifs at hstep
    obtain rfl := Option.some.inj hstep
    exact Nat.le_refl _

lemma ends_at_deadline {i : ℕ} {w : Wait} (hw : s.waits[i]? = some w) (hend : w.ending = none)
    (hlate : w.deadline ≤ s.clock) :
    ∃ s' w', step s (.resume i) = some s' ∧ s'.waits[i]? = some w' ∧ w'.ending = some s.ending := by
  obtain ⟨wakeAt, ⟨-, hlt⟩ | ⟨hpoll, -⟩⟩ := poll_cases s w
  · exact absurd hlate (Nat.not_le_of_lt hlt)
  · refine ⟨s.resume i w, s.poll w, ?_, ?_, ?_⟩
    · simp [step, hw, hend]
    · have hlen := (List.getElem?_eq_some_iff.mp hw).1
      simp [GracefulShutdown.resume, hlen]
    · rw [hpoll]

end

namespace Daemon

def started : GracefulShutdown := .withConfig (.default "dnsd") 0

def polls (n : ℕ) : List Act := (List.range n).flatMap fun k => [.advance ((k + 1) * pollInterval), .resume 0]

def firstWait (s : GracefulShutdown) : Option (ℕ × ℕ) :=
  s.waits.head?.bind fun w => w.ending.map fun e => (e.endedAt - w.startedAt, e.openConnections)

end Daemon

open Daemon

end FleetingDns.Shutdown
