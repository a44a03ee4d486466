import FleetingDns.HubTasks
import FleetingDns.Library.GuardedRuns
namespace FleetingDns.ViewerReaper

open ExpiringStore GuardedRuns List

def viewerIdlePoll : ℕ := 10 * second

/-- How far the `connection_opened` or `connection_closed` call of a connection is: it counts, reads the clock and writes
the reading down as the last event. -/
inductive Event where
  | counted
  | read (t : ℕ)
  | written
  deriving DecidableEq

structure Viewer where
  openedAt : ℕ
  closedAt : Option ℕ
  event : Event
  deriving DecidableEq

def Viewer.isOpen (v : Viewer) : Bool := v.closedAt.isNone

inductive Reaper where
  | absent
  | sleeping (wakeAt : ℕ)
  | counted (activeConnections : ℕ)
  | aborting
  | finished
  deriving DecidableEq

structure SlotListener where
  now : ℕ
  policy : TeardownPolicy
  activity : SlotActivity
  viewers : List Viewer
  accepting : Bool
  reaper : Reaper
  deriving DecidableEq

def SlotListener.new (policy : TeardownPolicy) (now : ℕ) : SlotListener :=
  ⟨now, policy, .new now, [], true, if policy = .viewerIdle then .sleeping (now + viewerIdlePoll) else .absent⟩

inductive SlotStep where
  | tick (duration : ℕ)
  | accept
  | finish (viewer : ℕ)
  | readClock (viewer : ℕ)
  | writeEvent (viewer : ℕ)
  | readCount
  | readIdle
  | abort
  | cancel
  deriving DecidableEq

def step (s : SlotListener) : SlotStep → Option SlotListener
  | .tick duration => some { s with now := s.now + duration }
  -- the accept loop runs connection_opened to its end before it accepts again
  | .accept =>
    if s.accepting && s.viewers.all (fun v => !v.isOpen || v.event == .written) then
      some { s with
        activity := { s.activity with active := s.activity.active + 1 }
        viewers := s.viewers ++ [⟨s.now, none, .counted⟩] }
    else none
  | .finish i => match s.viewers[i]? with
    | some ⟨openedAt, none, .written⟩ =>
      some { s with
        activity := { s.activity with active := s.activity.active - 1 }
        viewers := s.viewers.set i ⟨openedAt, some s.now, .counted⟩ }
    | _ => none
  | .readClock i => match s.viewers[i]? with
    | some ⟨openedAt, closedAt, .counted⟩ =>
      some { s with viewers := s.viewers.set i ⟨openedAt, closedAt, .read s.now⟩ }
    | _ => none
  | .writeEvent i => match s.viewers[i]? with
    | some ⟨openedAt, closedAt, .read t⟩ =>
      some { s with
        activity := { s.activity with lastEvent := t }
        viewers := s.viewers.set i ⟨openedAt, closedAt, .written⟩ }
    | _ => none
  | .readCount => match s.reaper with
    | .sleeping wakeAt => if wakeAt ≤ s.now then some { s with reaper := .counted s.activity.active } else none
    | _ => none
  | .readIdle => match s.reaper with
    | .counted activeConnections =>
      if shouldTeardownIdle s.policy activeConnections (s.activity.idleFor s.now) viewerIdleTeardown then
        some { s with reaper := .aborting }
      else some { s with reaper := .sleeping (s.now + viewerIdlePoll) }
    | _ => none
  | .abort => match s.reaper with
    | .aborting => some { s with accepting := false, reaper := .finished }
    | _ => none
  -- cancel_tcpip_forward and the end of the session abort both tasks
  | .cancel => some { s with accepting := false, reaper := .finished }

variable {s s' : SlotListener} {a : SlotStep} {policy : TeardownPolicy} {t : ℕ}

def Quiet (s : SlotListener) : Prop :=
  ∀ v ∈ s.viewers, v.openedAt + viewerIdleTeardown ≤ s.now ∧ ∃ t, v.closedAt = some t ∧ t + viewerIdleTeardown ≤ s.now

def Viewer.Before (v : Viewer) (t : ℕ) : Prop := v.openedAt ≤ t ∧ ∀ c, v.closedAt = some c → c ≤ t

/-- The last event is no earlier than any opening or closing so far. -/
def UpToDate (s : SlotListener) : Prop := ∀ v ∈ s.viewers, v.Before s.activity.lastEvent

/-- No viewer is accepted, and the reaper reads an idle time that is up to date. -/
def Undisturbed (s : SlotListener) (a : SlotStep) : Prop := a ≠ .accept ∧ (a = .readIdle → UpToDate s)

def begins : SlotStep → Bool
  | .accept | .finish _ => true
  | _ => false

/-- No `connection_opened` or `connection_closed` call begins while another one is under way. -/
def OneByOne (s : SlotListener) (a : SlotStep) : Prop := begins a = true → ∀ v ∈ s.viewers, v.event = .written

instance (s : SlotListener) (a : SlotStep) : Decidable (OneByOne s a) := inferInstanceAs (Decidable (_ → _))

structure Tallied (policy : TeardownPolicy) (s : SlotListener) : Prop where
  active : s.activity.active = s.viewers.countP Viewer.isOpen
  same : s.policy = policy
  unreaped : policy = .ttlOnly → s.reaper = .absent ∨ s.reaper = .finished

lemma tallied_new (policy : TeardownPolicy) (now : ℕ) : Tallied policy (.new policy now) where
  active := rfl
  same := rfl
  unreaped := by
    rintro rfl
    exact .inl rfl

lemma Tallied.reaper (h : Tallied policy s) (hreaper : s.reaper ≠ .absent ∧ s.reaper ≠ .finished) (accepting : Bool)
    (reaper : Reaper) : Tallied policy { s with accepting := accepting, reaper := reaper } where
  active := h.active
  same := h.same
  unreaped hp := by
    obtain habsent | hfinished := h.unreaped hp
    · exact absurd habsent hreaper.1
    · exact absurd hfinished hreaper.2

section

variable {viewers : List Viewer} {i openedAt : ℕ} {closedAt : Option ℕ} {event event' : Event} {v : Viewer}

section

variable (h : viewers[i]? = some ⟨openedAt, closedAt, event⟩)

include h

lemma countP_restamp :
    (viewers.set i ⟨openedAt, closedAt, event'⟩).countP Viewer.isOpen = viewers.countP Viewer.isOpen := by
  have hmap : (viewers.set i ⟨openedAt, closedAt, event'⟩).map Viewer.closedAt = viewers.map Viewer.closedAt := by
    obtain ⟨hlt, hget⟩ := List.getElem?_eq_some_iff.mp h
    have hself := @set_getElem_self _ (viewers.map Viewer.closedAt) i (by rwa [length_map])
    rw [getElem_map, hget] at hself
    rw [map_set]
    exact hself
  have hcount := congrArg (List.countP Option.isNone) hmap
  rwa [countP_map, countP_map] at hcount

lemma mem_restamp (hv : v ∈ viewers.set i ⟨openedAt, closedAt, event'⟩) :
    ∃ u ∈ viewers, u.openedAt = v.openedAt ∧ u.closedAt = v.closedAt := by
  obtain hv | rfl := mem_or_eq_of_mem_set hv
  · exact ⟨v, hv, rfl, rfl⟩
  · exact ⟨_, mem_of_getElem? h, rfl, rfl⟩

lemma before_restamp (hall : ∀ v ∈ viewers, v.Before t) :
    ∀ v ∈ viewers.set i ⟨openedAt, closedAt, event'⟩, v.Before t := by
  intro v hv
  obtain ⟨u, hu, hopened, hclosed⟩ := mem_restamp h hv
  rw [Viewer.Before, ← hopened, ← hclosed]
  exact hall u hu

end

end

lemma tallied_step (h : Tallied policy s) (hs : step s a = some s') : Tallied policy s' := by
  cases a with
  | tick =>
    cases hs
    exact ⟨h.active, h.same, h.unreaped⟩
  | accept =>
    simp only [step] at hs
    split_ifs at hs
    cases hs
    exact ⟨by simp [h.active, Viewer.isOpen], h.same, h.unreaped⟩
  | finish i =>
    simp only [step] at hs
    split at hs
    · rename_i openedAt hv
      cases hs
      obtain ⟨hlt, hget⟩ := List.getElem?_eq_some_iff.mp hv
      exact ⟨by simp [h.active, countP_set hlt, hget, Viewer.isOpen], h.same, h.unreaped⟩
    · cases hs
  | readClock i | writeEvent i =>
    simp only [step] at hs
    split at hs
    · rename_i hv
      cases hs
      exact ⟨h.active.trans (countP_restamp hv).symm, h.same, h.unreaped⟩
    · cases hs
  | readCount =>
    simp only [step] at hs
    split at hs
    · rename_i wakeAt hreaper
      split_ifs at hs
      cases hs
      exact h.reaper (by simp [hreaper]) _ _
    · cases hs
  | readIdle =>
    simp only [step] at hs
    split at hs
    · rename_i activeConnections hreaper
      split_ifs at hs <;> cases hs <;> exact h.reaper (by simp [hreaper]) _ _
    · cases hs
  | abort =>
    simp only [step] at hs
    split at hs
    · cases hs
      exact ⟨h.active, h.same, fun _ => .inr rfl⟩
    · cases hs
  | cancel =>
    cases hs
    exact ⟨h.active, h.same, fun _ => .inr rfl⟩

lemma tallied_run {G : SlotListener → SlotStep → Prop} (h : Tallied policy s) (hr : Reach step G s s') : Tallied policy s' := by
  induction hr with
  | refl => exact h
  | tail _ _ hs ih => exact tallied_step ih hs

structure Verified (s : SlotListener) : Prop where
  counted : s.reaper = .counted 0 → ∀ v ∈ s.viewers, v.isOpen = false
  aborting : s.reaper = .aborting → Quiet s

lemma quiet_of_closed (h : UpToDate s) (hclosed : ∀ v ∈ s.viewers, v.isOpen = false)
    (hidle : viewerIdleTeardown ≤ s.activity.idleFor s.now) : Quiet s := by
  intro v hv
  obtain ⟨hopened, hcloses⟩ := h v hv
  have hpos : 0 < viewerIdleTeardown := by decide
  unfold SlotActivity.idleFor at hidle
  cases hc : v.closedAt with
  | none =>
    have hopen := hclosed v hv
    rw [Viewer.isOpen, hc] at hopen
    cases hopen
  | some t =>
    have := hcloses t hc
    exact ⟨by omega, t, rfl, by omega⟩

lemma Quiet.closed (h : Quiet s) : ∀ v ∈ s.viewers, v.isOpen = false := by
  intro v hv
  obtain ⟨-, t, ht, -⟩ := h v hv
  rw [Viewer.isOpen, ht]
  rfl

lemma verified_step (h : Tallied policy s) (hv : Verified s) (hg : Undisturbed s a) (hs : step s a = some s') :
    Verified s' := by
  cases a with
  | tick =>
    cases hs
    refine ⟨hv.counted, fun hreaper v hmem => ?_⟩
    obtain ⟨hopened, t, ht, hclosed⟩ := hv.aborting hreaper v hmem
    exact ⟨by dsimp only; omega, t, ht, by dsimp only; omega⟩
  | accept => exact absurd rfl hg.1
  | finish i =>
    simp only [step] at hs
    split at hs
    · rename_i openedAt hget
      have hmem := mem_of_getElem? hget
      cases hs
      constructor
      · intro hreaper
        cases hv.counted hreaper _ hmem
      · intro hreaper
        cases (hv.aborting hreaper).closed _ hmem
    · cases hs
  | readClock i | writeEvent i =>
    simp only [step] at hs
    split at hs
    · rename_i hget
      cases hs
      constructor
      · intro hreaper v hmem
        obtain ⟨u, hu, -, hclosed⟩ := mem_restamp hget hmem
        rw [Viewer.isOpen, ← hclosed]
        exact hv.counted hreaper u hu
      · intro hreaper v hmem
        obtain ⟨u, hu, hopened, hclosed⟩ := mem_restamp hget hmem
        rw [← hopened, ← hclosed]
        exact hv.aborting hreaper u hu
    · cases hs
  | readCount =>
    simp only [step] at hs
    split at hs
    · split_ifs at hs
      cases hs
      refine ⟨fun hreaper v hv => ?_, nofun⟩
      have hzero : s.activity.active = 0 := by injection hreaper
      rw [h.active, countP_eq_zero] at hzero
      simpa using hzero v hv
    · cases hs
  | readIdle =>
    simp only [step] at hs
    split at hs
    · rename_i activeConnections hreaper
      split_ifs at hs with hidle
      · cases hs
        simp only [shouldTeardownIdle, Bool.and_eq_true, beq_iff_eq, decide_eq_true_eq] at hidle
        obtain ⟨⟨-, rfl⟩, hidle⟩ := hidle
        have hquiet : Quiet s := quiet_of_closed (hg.2 rfl) (hv.counted hreaper) hidle
        exact ⟨nofun, fun _ => hquiet⟩
      · cases hs
        exact ⟨nofun, nofun⟩
    · cases hs
  | abort =>
    simp only [step] at hs
    split at hs
    · cases hs
      exact ⟨nofun, nofun⟩
    · cases hs
  | cancel =>
    cases hs
    exact ⟨nofun, nofun⟩

lemma verified_run (h : Tallied policy s) (hv : Verified s) (hr : Reach step Undisturbed s s') : Verified s' := by
  induction hr with
  | refl => exact hv
  | tail hr hg hs ih => exact verified_step (tallied_run h hr) ih hg hs

lemma verified_readCount (h : Tallied policy s) (hs : step s .readCount = some s') : Verified s' := by
  have hreaper : Verified s := by
    simp only [step] at hs
    split at hs
    · rename_i wakeAt hreaper
      exact ⟨by simp [hreaper], by simp [hreaper]⟩
    · cases hs
  exact verified_step (a := .readCount) h hreaper ⟨nofun, nofun⟩ hs

structure Ordered (s : SlotListener) : Prop where
  past : ∀ v ∈ s.viewers, v.Before s.now
  read : ∀ v ∈ s.viewers, ∀ t, v.event = .read t → ∀ u ∈ s.viewers, u.Before t
  settled : (∀ v ∈ s.viewers, v.event = .written) → UpToDate s

lemma Viewer.Before.mono {v : Viewer} {t' : ℕ} (h : v.Before t) (ht : t ≤ t') : v.Before t' :=
  ⟨h.1.trans ht, fun c hc => (h.2 c hc).trans ht⟩

lemma ordered_begin {viewers : List Viewer} {activity : SlotActivity} (new : Viewer) (h : Ordered s)
    (hwritten : ∀ v ∈ s.viewers, v.event = .written) (hsub : ∀ v ∈ viewers, v ∈ s.viewers ∨ v = new) (hnew : new ∈ viewers)
    (hbefore : new.Before s.now) (hcounted : new.event = .counted) :
    Ordered { s with activity := activity, viewers := viewers } where
  past v hv := by
    obtain hv | rfl := hsub v hv
    · exact h.past v hv
    · exact hbefore
  read v hv t ht := by
    obtain hv | rfl := hsub v hv
    · cases (hwritten v hv).symm.trans ht
    · cases hcounted.symm.trans ht
  settled hall := by cases hcounted.symm.trans (hall new hnew)

lemma ordered_step (h : Ordered s) (hg : OneByOne s a) (hs : step s a = some s') : Ordered s' := by
  cases a with
  | tick duration =>
    cases hs
    exact ⟨fun v hv => (h.past v hv).mono (Nat.le_add_right _ _), h.read, h.settled⟩
  | accept =>
    simp only [step] at hs
    split_ifs at hs
    cases hs
    exact ordered_begin ⟨s.now, none, .counted⟩ h (hg rfl) (fun v hv => by simpa using hv) (by simp)
      ⟨Nat.le_refl _, nofun⟩ rfl
  | finish i =>
    simp only [step] at hs
    split at hs
    · rename_i openedAt hget
      cases hs
      have hlt := (List.getElem?_eq_some_iff.mp hget).1
      refine ordered_begin _ h (hg rfl) (fun v => mem_or_eq_of_mem_set) (mem_set hlt _) ⟨?_, ?_⟩ rfl
      · exact (h.past _ (mem_of_getElem? hget)).1
      · rintro c ⟨⟩
        exact Nat.le_refl _
    · cases hs
  | readClock i =>
    simp only [step] at hs
    split at hs
    · rename_i openedAt closedAt hget
      cases hs
      have hlt := (List.getElem?_eq_some_iff.mp hget).1
      refine ⟨before_restamp hget h.past, ?_, fun hall => by cases hall _ (mem_set hlt _)⟩
      intro v hv t ht
      obtain hv | rfl := mem_or_eq_of_mem_set hv
      · exact before_restamp hget (h.read v hv t ht)
      · cases ht
        exact before_restamp hget h.past
    · cases hs
  | writeEvent i =>
    simp only [step] at hs
    split at hs
    · rename_i openedAt closedAt t hget
      cases hs
      refine ⟨before_restamp hget h.past, ?_, fun _ => before_restamp hget (h.read _ (mem_of_getElem? hget) t rfl)⟩
      intro v hv t' ht
      obtain hv | rfl := mem_or_eq_of_mem_set hv
      · exact before_restamp hget (h.read v hv t' ht)
      · cases ht
    · cases hs
  | readCount =>
    simp only [step] at hs
    split at hs
    · split_ifs at hs
      cases hs
      exact ⟨h.past, h.read, h.settled⟩
    · cases hs
  | readIdle =>
    simp only [step] at hs
    split at hs
    · split_ifs at hs <;> cases hs <;> exact ⟨h.past, h.read, h.settled⟩
    · cases hs
  | abort =>
    simp only [step] at hs
    split at hs
    · cases hs
      exact ⟨h.past, h.read, h.settled⟩
    · cases hs
  | cancel =>
    cases hs
    exact ⟨h.past, h.read, h.settled⟩

lemma ordered_run (hr : Reach step OneByOne (.new policy t) s) : Ordered s := by
  induction hr with
  | refl => exact ⟨by simp [SlotListener.new], by simp [SlotListener.new], by simp [UpToDate, SlotListener.new]⟩
  | tail _ hg hs ih => exact ordered_step ih hg hs

theorem reaper_spares_viewers (policy : TeardownPolicy) (t : ℕ) (hr : Reach step Free (.new policy t) s) :
    (s.activity.active = s.viewers.countP Viewer.isOpen ∧
      ∀ i s', step s (.finish i) = some s' → 0 < s.activity.active) ∧
    (∀ s1 s2 s3, step s .readCount = some s1 → Reach step Undisturbed s1 s2 → step s2 .abort = some s3 → Quiet s2) ∧
    (Reach step OneByOne (.new policy t) s → (∀ v ∈ s.viewers, v.event = .written) → UpToDate s) ∧
    (policy = .ttlOnly → step s .abort = none) := by
  have htallied := tallied_run (tallied_new policy t) hr
  refine ⟨⟨htallied.active, ?_⟩, ?_, fun hr' => (ordered_run hr').settled, ?_⟩
  · intro i s' hs
    simp only [step] at hs
    split at hs
    · rename_i openedAt hget
      rw [htallied.active]
      exact countP_pos_iff.mpr ⟨_, mem_of_getElem? hget, rfl⟩
    · cases hs
  · intro s1 s2 s3 hread hrun habort
    have hverified := verified_run (tallied_step htallied hread) (verified_readCount htallied hread) hrun
    simp only [step] at habort
    split at habort
    · rename_i hreaper
      exact hverified.aborting hreaper
    · cases habort
  · intro hp
    obtain habsent | hfinished := htallied.unreaped hp
    · rw [step, habsent]
    · rw [step, hfinished]

def visited : List SlotStep :=
  [.accept, .readClock 0, .writeEvent 0, .tick (5 * second), .finish 0, .readClock 0, .writeEvent 0, .tick (60 * second)]

theorem reaper_spares_viewers_visited : ∃ s s1 s2 s3, Reach step Free (.new .viewerIdle 0) s ∧ step s .readCount = some s1 ∧
    Reach step Undisturbed s1 s2 ∧ step s2 .abort = some s3 ∧ Quiet s2 := by
  obtain ⟨s, hr, hs⟩ := reach_of_check step OneByOne (.new .viewerIdle 0) visited
    (fun s => decide (∀ v ∈ s.viewers, v.event = .written) && (step s .readCount).any fun s1 : SlotListener =>
      decide (s1.viewers = s.viewers ∧ s1.activity = s.activity) && (step s1 .readIdle).any fun s2 =>
        (step s2 .abort).isSome) (by decide +kernel)
  simp only [Bool.and_eq_true, decide_eq_true_eq, Option.any_eq_true, Option.isSome_iff_exists] at hs
  obtain ⟨hwritten, s1, hcount, ⟨hviewers, hactivity⟩, s2, hidle, s3, habort⟩ := hs
  have hfree := hr.mono fun _ _ _ => trivial
  obtain ⟨-, hquiet, hsettled, -⟩ := reaper_spares_viewers .viewerIdle 0 hfree
  have hdate : UpToDate s1 := by
    rw [UpToDate, hviewers, hactivity]
    exact hsettled hr hwritten
  have hrun : Reach step Undisturbed s1 s2 := Reach.refl.tail (a := .readIdle) ⟨nofun, fun _ => hdate⟩ hidle
  exact ⟨s, s1, s2, s3, hfree, hcount, hrun, habort, hquiet s1 s2 s3 hcount hrun habort⟩

/-- A viewer is accepted between the reaper's last look and its abort. -/
theorem viewer_cut_off : ∃ s s', Reach step Free (.new .viewerIdle 0) s ∧ step s .abort = some s' ∧
    ∃ v ∈ s.viewers, v.isOpen = true := by
  obtain ⟨s, hr, hs⟩ := reach_of_check step Free (.new .viewerIdle 0) (visited ++ [.readCount, .readIdle, .accept])
    (fun s => (step s .abort).isSome && s.viewers.any Viewer.isOpen) (by decide +kernel)
  rw [Bool.and_eq_true, Option.isSome_iff_exists, any_eq_true] at hs
  obtain ⟨⟨s', habort⟩, hopen⟩ := hs
  exact ⟨s, s', hr, habort, hopen⟩

end FleetingDns.ViewerReaper
