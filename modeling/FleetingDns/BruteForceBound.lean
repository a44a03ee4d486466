import FleetingDns.AttemptDiscipline
import FleetingDns.StoredRecords
namespace FleetingDns.BruteForceBound

open CommandPrograms ExpiringStore ThreadPool GuardedRuns World AttemptDiscipline Shared BruteForceProtection Option
  List

variable {config : Config} {w w' : World} {a : Action} {call : Call} {ip : String} {peer : SocketAddr}

section

variable {o : Choice} {tid : ℕ}

lemma perform_bfp {s s' : Shared} {c : Cmd} {r : c.Reply} (h : s.perform config call c o = some (s', r))
    (hc : records c = false) :
    s'.bruteForceProtection = s.bruteForceProtection := by
  by_cases hch : Shared.Changes c
  · cases hch with
    | redis =>
      obtain ⟨_, _, -, rfl⟩ := perform_redis h
      rfl
    | newUuid => rw [(perform_uuid h).2]
    | recordAttempt => cases hc
    | bindSlot =>
      obtain ⟨reply, hb⟩ := perform_bind h
      obtain ⟨-, ⟨rfl, -⟩ | ⟨_, _, _, _, _, -, -, -, -, -, rfl⟩⟩ := bind_eq hb <;> rfl
  · rw [perform_pure h hch]

lemma perform_recordAttempt {s s' : Shared} {success : Bool} {serial reason : Option String} {r : Option Unit}
    (h : s.perform config call (.recordAttempt peer success serial reason) o = some (s', r)) :
    (r = some () ∧ s.bruteForceProtection.recordAttempt s.now ⟨s.now, peer, success, serial, reason⟩
      config.hub.maxAuthAttempts config.hub.authLockoutDuration = some s'.bruteForceProtection) ∨
    (r = none ∧ instantReach + s.now < config.hub.authLockoutDuration ∧ s'.bruteForceProtection = s.bruteForceProtection) := by
  cases o <;> simp only [Shared.perform, Shared.recordAttempt, reduceCtorEq] at h
  split at h
  · rename_i bfp hb
    cases h
    exact .inl ⟨rfl, hb⟩
  · rename_i hb
    cases h
    unfold BruteForceProtection.recordAttempt at hb
    split_ifs at hb with hnow
    exact .inr ⟨rfl, hnow, rfl⟩

lemma settle_bfp (call : Call) (s : Shared) (p : Program Done) :
    (settle complete call s p).bruteForceProtection = s.bruteForceProtection := by
  cases p with
  | call => rfl
  | ret d =>
    cases call with
    | authPublickey => cases d <;> rfl
    | _ => rfl

section

variable (h : step config w a = some w') (hidle : ∀ tid o, a ≠ .exec tid o)

include h hidle

lemma idle_bfp : w'.shared.bruteForceProtection = w.shared.bruteForceProtection := by
  cases a with
  | exec tid o => exact absurd rfl (hidle tid o)
  | tick | sshConnect =>
    cases h
    rfl
  | lapse | cancel | reaperPoll =>
    simp only [step, map_eq_some_iff] at h
    obtain ⟨_, -, rfl⟩ := h
    rfl
  | heartbeat =>
    simp only [step, bind_eq_some_iff, markTunnelLive, map_eq_some_iff] at h
    obtain ⟨_, -, _, -, rfl⟩ := h
    rfl
  | arrive | sshEnd | cancelTcpipForward | viewerOpened | viewerClosed =>
    simp only [step] at h
    split_ifs at h
    cases h
    rfl

lemma idle_observed {β : Type} {note : Call → Ev → Option β} :
    (observed note w'.threads).Perm (observed note w.threads) := by
  cases step_effect h with
  | quiet threads => rw [threads]
  | lapse lapse eq | heartbeat perform running eq => rw [eq]; exact List.Perm.refl _
  | arrive admits eq => rw [eq, observed_arrive]
  | cancel thread eq => rw [eq]; exact observed_stop thread
  | exec => exact absurd rfl (hidle _ _)

lemma idle_kept {th : CallThread} (hth : w.threads[tid]? = some th) :
    w'.threads[tid]? = some th ∨ a = .cancel tid := by
  have hlt : tid < w.threads.length := (List.getElem?_eq_some_iff.mp hth).1
  cases step_effect h with
  | quiet threads => exact .inl (threads ▸ hth)
  | lapse lapse eq | heartbeat perform running eq => exact .inl (by rw [eq]; exact hth)
  | arrive admits eq => exact .inl (by rw [eq, List.getElem?_append_left hlt]; exact hth)
  | exec => exact absurd rfl (hidle _ _)
  | @cancel j u thread eq =>
    by_cases hj : j = tid
    · exact .inr (by rw [hj])
    · exact .inl (by rw [eq, List.getElem?_set_ne hj]; exact hth)

end

structure Turn (config : Config) (w w' : World) (tid : ℕ) (th th' : CallThread) (e : Ev) : Prop where
  thread : w.threads[tid]? = some th
  issued : ∃ o, w.Issues tid th e.cmd ∧ w.shared.perform config th.call e.cmd o = some (e.span.after, e.reply)
  before : e.span.before = w.shared
  now : w'.shared.now = w.shared.now
  bfp : w'.shared.bruteForceProtection = e.span.after.bruteForceProtection
  call : th'.call = th.call
  history : th'.history = th.history ++ [e]
  threads : w'.threads = w.threads.set tid th'
  concludes : th'.prog.next = none → ∃ d, Concludes th.call th'.history d

lemma exec_turn (hd : Disciplined Attempts Concludes w.threads) (h : step config w (.exec tid o) = some w') :
    ∃ th th' e, Turn config w w' tid th th' e ∧ Attempts th.call th.history e.cmd := by
  cases step_effect h with
  | quiet threads store usedIds now idle => exact absurd rfl (idle tid o)
  | @exec _ _ th c k s r thread prog perform eq =>
    refine ⟨th, th.advance ⟨w.shared, s⟩ c k r, ⟨⟨w.shared, s⟩, c, r⟩, ?_, hd.may thread prog⟩
    refine ⟨thread, ⟨o, ⟨thread, k, prog⟩, perform⟩, rfl, ?_, ?_, rfl, rfl, by rw [eq], ?_⟩
    · rw [eq, (settle_frame _).1, (perform_frame perform).1]
    · rw [eq, settle_bfp]
    · intro hn
      exact hd.ends thread prog (by simp [Thread.InFlight, hn])

lemma Turn.observed {β : Type} {note : Call → Ev → Option β} {tid : ℕ} {th th' : CallThread} {e : Ev}
    (ht : Turn config w w' tid th th' e) :
    (observed note w'.threads).Perm (observed note w.threads ++ (note th.call e).toList) := by
  rw [ht.threads]
  apply flatMap_set ht.thread
  rw [ht.call, ht.history]
  cases hn : note th.call e <;> simp [hn]

lemma Turn.self {th th' : CallThread} {e : Ev} (ht : Turn config w w' tid th th' e) :
    w'.threads[tid]? = some th' := by
  rw [ht.threads, List.getElem?_set_self (List.getElem?_eq_some_iff.mp ht.thread).1]

lemma Turn.others {tid' : ℕ} {th th' : CallThread} {e : Ev} (ht : Turn config w w' tid th th' e) (hne : tid' ≠ tid) :
    w'.threads[tid']? = w.threads[tid']? := by
  rw [ht.threads, List.getElem?_set_ne hne.symm]

lemma Turn.cases {i : ℕ} {th th' u : CallThread} {e : Ev} (ht : Turn config w w' tid th th' e)
    (hu : w'.threads[i]? = some u) : (i = tid ∧ u = th') ∨ (i ≠ tid ∧ w.threads[i]? = some u) := by
  by_cases hi : i = tid
  · subst hi
    exact .inl ⟨rfl, (mem_unique ht.self hu).symm⟩
  · rw [ht.others hi] at hu
    exact .inr ⟨hi, hu⟩

end

def fromHost (ip : String) (call : Call) : Bool := (clientOf call).any fun peer => peer.ip = ip

def evaluation (ip : String) (call : Call) (e : Ev) : Option ℕ :=
  if fromHost ip call && evaluates e.cmd then some e.span.before.now else none

def accepted : (c : Cmd) → c.Reply → Bool
  | .recordAttempt _ success _ _, r => success && Option.isSome r
  | _, _ => false

def login (ip : String) (call : Call) (e : Ev) : Option ℕ :=
  if fromHost ip call && accepted e.cmd e.reply then some e.span.before.now else none

def evaluations (w : World) (ip : String) : List ℕ := observed (evaluation ip) w.threads

def logins (w : World) (ip : String) : List ℕ := observed (login ip) w.threads

def within (t d x : ℕ) : Bool := t ≤ x ∧ x < t + d

def pending (ip : String) (th : CallThread) : Bool :=
  fromHost ip th.call && th.prog.next.isSome && !th.history.isEmpty

def staleElsewhere (config : Config) (w : World) (peer : SocketAddr) : Bool :=
  w.shared.bruteForceProtection.attempts.entries.all fun ⟨addr, attempts⟩ => addr.ip ≠ peer.ip || addr = peer ||
    attempts.all fun attempt => attempt.success || attempt.timestamp + config.hub.authLockoutDuration ≤ w.shared.now

/-- Attempts from the host run one at a time and are carried through, from one source port per lockout period. -/
def inTurn (config : Config) (ip : String) (w : World) : Action → Bool
  | .exec tid _ => w.threads[tid]?.all fun th => !fromHost ip th.call || match th.prog.next with
    | some (.isLockedOut peer) => w.threads.all (fun th' => !pending ip th') && staleElsewhere config w peer
    | some (.recordAttempt _ _ _ _) => config.hub.authLockoutDuration ≤ instantReach + w.shared.now
    | _ => true
  | .cancel tid => w.threads[tid]?.all fun th => !pending ip th || !evaluated th.history
  | _ => true

abbrev InTurn (config : Config) (ip : String) (w : World) (a : Action) : Prop := inTurn config ip w a = true

section

variable {tid : ℕ} {th : CallThread} {o : Choice}

lemma guard_check (hg : InTurn config ip w (.exec tid o)) (hi : w.Issues tid th (.isLockedOut peer))
    (hip : fromHost ip th.call = true) : (∀ th' ∈ w.threads, pending ip th' = false) ∧
      staleElsewhere config w peer = true := by
  obtain ⟨hth, k, hk⟩ := hi
  simpa [InTurn, inTurn, hth, hip, Prog.next_isSome hk] using hg

lemma guard_record {success : Bool} {serial reason : Option String} (hg : InTurn config ip w (.exec tid o))
    (hi : w.Issues tid th (.recordAttempt peer success serial reason)) (hip : fromHost ip th.call = true) :
    config.hub.authLockoutDuration ≤ instantReach + w.shared.now := by
  obtain ⟨hth, k, hk⟩ := hi
  simpa [InTurn, inTurn, hth, hip, Prog.next_isSome hk] using hg

lemma stale_failures {addr : SocketAddr} {t : ℕ} (hs : staleElsewhere config w peer = true) (hip : addr.ip = peer.ip)
    (hne : addr ≠ peer) (ht : w.shared.now < t + config.hub.authLockoutDuration) :
    w.shared.bruteForceProtection.failures addr t = 0 := by
  rw [BruteForceProtection.failures, BruteForceProtection.attemptsOf, List.countP_eq_zero]
  rcases hl : w.shared.bruteForceProtection.attempts.lookup addr with _ | attempts
  · simp
  intro a ha hp
  have hall := List.all_eq_true.mp hs ⟨addr, attempts⟩ (AList.mem_lookup_iff.mp hl)
  simp only [hip, hne, ne_eq, not_true_eq_false, decide_false, Bool.false_or, List.all_eq_true] at hall
  have hold := hall a ha
  simp only [Bool.and_eq_true, Bool.not_eq_true', decide_eq_true_eq] at hp
  simp only [hp.1, Bool.false_or, decide_eq_true_eq] at hold
  omega

end

/-- The evaluations of every span still open are matched by failures on record for the address in use. -/
structure Tally (config : Config) (ip : String) (w : World) (addr : SocketAddr) : Prop where
  host : addr.ip = ip
  checked : ∀ (tid : ℕ) (th : CallThread), w.threads[tid]? = some th → pending ip th = true →
    clientOf th.call = some addr ∧ ∀ t, w.shared.now < t + config.hub.authLockoutDuration →
      w.shared.bruteForceProtection.failures addr t < config.hub.maxAuthAttempts
  alone : ∀ (tid tid' : ℕ) (th th' : CallThread), w.threads[tid]? = some th → w.threads[tid']? = some th' →
    pending ip th = true → pending ip th' = true → tid = tid'
  tallied : ∀ t, w.shared.now < t + config.hub.authLockoutDuration → (∀ x ∈ logins w ip, x < t) →
    (evaluations w ip).countP (t ≤ ·) ≤ w.shared.bruteForceProtection.failures addr t ∨
      ((evaluations w ip).countP (t ≤ ·) ≤ w.shared.bruteForceProtection.failures addr t + 1 ∧
        ∃ (tid : ℕ) (th : CallThread), w.threads[tid]? = some th ∧ pending ip th = true ∧ evaluated th.history = true)

lemma tally_quiet {addr : SocketAddr} (htally : Tally config ip w addr) (hnow : w.shared.now ≤ w'.shared.now)
    (hattempts : w'.shared.bruteForceProtection.attemptsOf addr = w.shared.bruteForceProtection.attemptsOf addr)
    (hev : (evaluations w' ip).Perm (evaluations w ip)) (hlog : (logins w' ip).Perm (logins w ip))
    (hback : ∀ (tid : ℕ) th', w'.threads[tid]? = some th' → pending ip th' = true →
      ∃ th, w.threads[tid]? = some th ∧ pending ip th = true ∧ th.call = th'.call)
    (hforth : ∀ (tid : ℕ) th, w.threads[tid]? = some th → pending ip th = true →
      evaluated th.history = true →
      ∃ th', w'.threads[tid]? = some th' ∧ pending ip th' = true ∧ evaluated th'.history = true) :
    Tally config ip w' addr := by
  have hfail : ∀ t, w'.shared.bruteForceProtection.failures addr t = w.shared.bruteForceProtection.failures addr t :=
    fun t => by rw [failures, hattempts]; rfl
  refine ⟨htally.host, ?_, ?_, ?_⟩
  · intro tid th' hth' hp'
    obtain ⟨th, hth, hp, hcall⟩ := hback tid th' hth' hp'
    obtain ⟨hclient, hfew⟩ := htally.checked tid th hth hp
    refine ⟨hcall ▸ hclient, fun t ht => ?_⟩
    rw [hfail]
    exact hfew t (by omega)
  · intro tid tid' th th' hth hth' hp hp'
    obtain ⟨u, hu, hpu, -⟩ := hback tid th hth hp
    obtain ⟨u', hu', hpu', -⟩ := hback tid' th' hth' hp'
    exact htally.alone tid tid' u u' hu hu' hpu hpu'
  intro t ht hquiet
  rw [hfail, hev.countP_eq]
  obtain hle | ⟨hle, tid, th, hth, hp, he⟩ :=
    htally.tallied t (by omega) fun x hx => hquiet x (hlog.mem_iff.mpr hx)
  · exact .inl hle
  · exact .inr ⟨hle, tid, hforth tid th hth hp he⟩

structure Bounded (config : Config) (ip : String) (w : World) : Prop where
  locks : w.shared.bruteForceProtection.Locks config.hub.maxAuthAttempts config.hub.authLockoutDuration w.shared.now
  evaluated : ∀ x ∈ evaluations w ip, x ≤ w.shared.now
  loggedIn : ∀ x ∈ logins w ip, x ≤ w.shared.now
  tally : ∃ addr, Tally config ip w addr
  bound : ∀ t, (∀ x ∈ logins w ip, within t config.hub.authLockoutDuration x = false) →
    (evaluations w ip).countP (within t config.hub.authLockoutDuration) ≤ config.hub.maxAuthAttempts

lemma Bounded.unobserved (hb : Bounded config ip w) (hnow : w.shared.now ≤ w'.shared.now)
    (hev : (evaluations w' ip).Perm (evaluations w ip)) (hlog : (logins w' ip).Perm (logins w ip))
    (hlocks : w'.shared.bruteForceProtection.Locks config.hub.maxAuthAttempts config.hub.authLockoutDuration w'.shared.now)
    (htally : ∃ addr, Tally config ip w' addr) : Bounded config ip w' := by
  refine ⟨hlocks, ?_, ?_, htally, ?_⟩
  · exact fun x hx => (hb.evaluated x (hev.mem_iff.mp hx)).trans hnow
  · exact fun x hx => (hb.loggedIn x (hlog.mem_iff.mp hx)).trans hnow
  · intro t hquiet
    rw [hev.countP_eq]
    exact hb.bound t fun x hx => hquiet x (hlog.mem_iff.mpr hx)

lemma bounded_idle (hb : Bounded config ip w) (hg : InTurn config ip w a) (h : step config w a = some w')
    (hidle : ∀ tid o, a ≠ .exec tid o) : Bounded config ip w' := by
  have hnow := now_step h
  have hbfp := idle_bfp h hidle
  have hev : (evaluations w' ip).Perm (evaluations w ip) := idle_observed h hidle
  have hlog : (logins w' ip).Perm (logins w ip) := idle_observed h hidle
  obtain ⟨addr, htally⟩ := hb.tally
  refine hb.unobserved hnow hev hlog (hbfp ▸ hb.locks.later hnow) ⟨addr, ?_⟩
  refine tally_quiet htally hnow (by rw [hbfp]) hev hlog ?_ ?_
  · intro tid th' hth' hp
    obtain ⟨hth, -⟩ | ⟨call, -, -, -, rfl⟩ | ⟨o, th, c, k, s, r, ha, -⟩ | ⟨th, -, -, rfl⟩ := thread_step h hth'
    · exact ⟨th', hth, hp, rfl⟩
    · simp [pending] at hp
    · exact absurd ha (hidle tid o)
    · simp [pending, Thread.stop, Prog.next] at hp
  · intro tid th hth hp he
    obtain hth' | rfl := idle_kept h hidle hth
    · exact ⟨th, hth', hp, he⟩
    · simp [InTurn, inTurn, hth, hp, he] at hg

section

variable {tid : ℕ} {th th' : CallThread} {e : Ev}

lemma turn_locks (hmax : 0 < config.hub.maxAuthAttempts) (ht : Turn config w w' tid th th' e)
    (hb : Bounded config ip w) : w'.shared.bruteForceProtection.Locks config.hub.maxAuthAttempts
      config.hub.authLockoutDuration w'.shared.now := by
  obtain ⟨o, -, hperf⟩ := ht.issued
  rw [ht.bfp, ht.now]
  by_cases hc : records e.cmd = true
  · obtain ⟨t, c, r⟩ := e
    cases c with
    | recordAttempt =>
      obtain ⟨-, hrec⟩ | ⟨-, -, hsame⟩ := perform_recordAttempt hperf
      · exact locks_recordAttempt hrec hb.locks rfl hmax
      · rw [hsame]
        exact hb.locks
    | _ => cases hc
  · rw [perform_bfp hperf (Bool.eq_false_iff.mpr hc)]
    exact hb.locks

lemma observed_none {β : Type} {note : Call → Ev → Option β} (ht : Turn config w w' tid th th' e)
    (hn : note th.call e = none) : (observed note w'.threads).Perm (observed note w.threads) := by
  have hperm : (observed note w'.threads).Perm (observed note w.threads ++ (note th.call e).toList) := ht.observed
  rwa [hn, toList_none, append_nil] at hperm

lemma observed_some {β : Type} {note : Call → Ev → Option β} {x : β} (ht : Turn config w w' tid th th' e)
    (hn : note th.call e = some x) : (observed note w'.threads).Perm (observed note w.threads ++ [x]) := by
  have hperm : (observed note w'.threads).Perm (observed note w.threads ++ (note th.call e).toList) := ht.observed
  rwa [hn, toList_some] at hperm

lemma login_none (hc : records e.cmd = false) : login ip call e = none := by
  obtain ⟨t, c, r⟩ := e
  cases c with
  | recordAttempt => cases hc
  | _ => simp [login, accepted]

lemma bounded_quiet (hmax : 0 < config.hub.maxAuthAttempts) (ht : Turn config w w' tid th th' e)
    (hb : Bounded config ip w) (hev : evaluation ip th.call e = none) (hlog : login ip th.call e = none)
    (hattempts : ∀ addr, addr.ip = ip →
      w'.shared.bruteForceProtection.attemptsOf addr = w.shared.bruteForceProtection.attemptsOf addr)
    (hback : pending ip th' = true → pending ip th = true)
    (hforth : pending ip th = true → evaluated th.history = true → pending ip th' = true ∧ evaluated th'.history = true) :
    Bounded config ip w' := by
  have hev' : (evaluations w' ip).Perm (evaluations w ip) := observed_none ht hev
  have hlog' : (logins w' ip).Perm (logins w ip) := observed_none ht hlog
  obtain ⟨addr, htally⟩ := hb.tally
  refine hb.unobserved ht.now.ge hev' hlog' (turn_locks hmax ht hb) ⟨addr, ?_⟩
  refine tally_quiet htally ht.now.ge (hattempts addr htally.host) hev' hlog' ?_ ?_
  · intro i u' hu' hp
    obtain ⟨rfl, rfl⟩ | ⟨-, hu⟩ := ht.cases hu'
    · exact ⟨th, ht.thread, hback hp, ht.call.symm⟩
    · exact ⟨u', hu, hp, rfl⟩
  intro i u hu hp he
  by_cases hi : i = tid
  · subst hi
    obtain rfl := mem_unique ht.thread hu
    exact ⟨th', ht.self, hforth hp he⟩
  · exact ⟨u, by rw [ht.others hi]; exact hu, hp, he⟩

lemma pending_iff {u : CallThread} :
    pending ip u = true ↔ fromHost ip u.call = true ∧ u.prog.next.isSome = true ∧ u.history ≠ [] := by
  simp [pending, and_assoc]

lemma attemptsOf_elsewhere (ht : Turn config w w' tid th th' e) (hm : Attempts th.call th.history e.cmd)
    (hip : fromHost ip th.call = false) {addr : SocketAddr} (haddr : addr.ip = ip) :
    w'.shared.bruteForceProtection.attemptsOf addr = w.shared.bruteForceProtection.attemptsOf addr := by
  obtain ⟨o, -, hperf⟩ := ht.issued
  rw [ht.bfp]
  obtain ⟨t, c, r⟩ := e
  by_cases hc : records c = true
  · cases c with
    | recordAttempt peer =>
      obtain ⟨-, hrec⟩ | ⟨-, -, hsame⟩ := perform_recordAttempt hperf
      · have hne : addr ≠ peer := by
          rintro rfl
          unfold Attempts at hm
          unfold fromHost at hip
          cases hcl : clientOf th.call with
          | none => simp [hcl, counts] at hm
          | some =>
            simp only [hcl, counts, reduceCtorEq, and_false, false_or] at hm
            obtain ⟨_, _, _, rfl, -⟩ := hm.2.2.2 trivial
            simp [hcl, haddr] at hip
        exact (recordAttempt_frame hrec hne).1
      · rw [hsame]
    | _ => cases hc
  · rw [perform_bfp hperf (Bool.eq_false_iff.mpr hc)]

lemma bounded_elsewhere (hmax : 0 < config.hub.maxAuthAttempts) (ht : Turn config w w' tid th th' e)
    (hm : Attempts th.call th.history e.cmd) (hb : Bounded config ip w) (hip : fromHost ip th.call = false) :
    Bounded config ip w' := by
  refine bounded_quiet hmax ht hb (by simp [evaluation, hip]) (by simp [login, hip])
    (fun addr haddr => attemptsOf_elsewhere ht hm hip haddr) ?_ ?_
  · intro hp
    have hhost := (pending_iff.mp hp).1
    rw [ht.call, hip] at hhost
    cases hhost
  · intro hp
    have hhost := (pending_iff.mp hp).1
    rw [hip] at hhost
    cases hhost

lemma inFlight_turn (ht : Turn config w w' tid th th' e) (hcl : clientOf th.call = some peer)
    (hr : recorded th.history = false) (hc : records e.cmd = false) (he : evaluated th'.history = true) :
    th'.prog.next.isSome = true := by
  cases hn : th'.prog.next with
  | some => rfl
  | none =>
    obtain ⟨d, hd⟩ := ht.concludes hn
    have hrec := hd (by rw [hcl]; rfl) he
    rw [ht.history, AttemptDiscipline.recorded_snoc, hr, hc] at hrec
    cases hrec

lemma host_of_client (hcl : clientOf th.call = some peer) (hip : peer.ip = ip) : fromHost ip th.call = true := by
  simp [fromHost, hcl, hip]

lemma bounded_check (hmax : 0 < config.hub.maxAuthAttempts) (ht : Turn config w w' tid th th' e)
    (hb : Bounded config ip w) (hcl : clientOf th.call = some peer) (hip : peer.ip = ip) (hh : th.history = [])
    (hc : e.cmd = .isLockedOut peer) (hidle : ∀ u ∈ w.threads, pending ip u = false)
    (hstale : staleElsewhere config w peer = true) (hpass : pending ip th' = true → Passed peer th'.history) :
    Bounded config ip w' := by
  obtain ⟨o, hissues, hperf⟩ := ht.issued
  obtain ⟨t0, c, reply⟩ := e
  obtain rfl : c = .isLockedOut peer := hc
  have hbfp : w'.shared.bruteForceProtection = w.shared.bruteForceProtection := by
    rw [ht.bfp]
    exact perform_bfp hperf rfl
  by_cases hp' : pending ip th' = true
  · obtain ⟨t1, hhead⟩ := hpass hp'
    rw [ht.history, hh] at hhead
    cases hhead
    have hopen : w.shared.bruteForceProtection.isLockedOut w.shared.now peer config.hub.authLockoutDuration = false := by
      cases o <;> simp only [Shared.perform, Option.some.injEq, Prod.mk.injEq, reduceCtorEq] at hperf
      exact hperf.2
    have hev : (evaluations w' ip).Perm (evaluations w ip) := observed_none ht (by simp [evaluation, evaluates])
    have hlog : (logins w' ip).Perm (logins w ip) := observed_none ht (by simp [login, accepted])
    have honly : ∀ i u, w'.threads[i]? = some u → pending ip u = true → i = tid ∧ u = th' := by
      intro i u hu hpu
      obtain hself | ⟨-, hu⟩ := ht.cases hu
      · exact hself
      · rw [hidle u (List.mem_of_getElem? hu)] at hpu
        cases hpu
    obtain ⟨addr, htally⟩ := hb.tally
    refine hb.unobserved ht.now.ge hev hlog (turn_locks hmax ht hb) ⟨peer, hip, ?_, ?_, ?_⟩
    · intro i u hu hpu
      obtain ⟨-, rfl⟩ := honly i u hu hpu
      rw [ht.call, hbfp, ht.now]
      exact ⟨hcl, fun t hlt => hb.locks.passed hopen hmax hlt⟩
    · intro i j u v hu hv hpu hpv
      rw [(honly i u hu hpu).1, (honly j v hv hpv).1]
    intro t hlt hquiet
    rw [hbfp, hev.countP_eq]
    rw [ht.now] at hlt
    obtain hle | ⟨-, i, u, hu, hpu, -⟩ := htally.tallied t hlt fun x hx => hquiet x (hlog.mem_iff.mpr hx)
    · by_cases hsame : addr = peer
      · exact .inl (hsame ▸ hle)
      · rw [stale_failures hstale (htally.host.trans hip.symm) hsame hlt] at hle
        exact .inl (by omega)
    · rw [hidle u (List.mem_of_getElem? hu)] at hpu
      cases hpu
  · refine bounded_quiet hmax ht hb (by simp [evaluation, evaluates]) (by simp [login, accepted])
      (fun addr _ => by rw [hbfp]) (fun hp => absurd hp hp') ?_
    intro hp
    exact absurd hh (pending_iff.mp hp).2.2

section

variable (ht : Turn config w w' tid th th' e) (hcl : clientOf th.call = some peer) (hip : peer.ip = ip)

include ht hcl hip

lemma pending_turn (hpass : Passed peer th.history) : pending ip th = true := by
  obtain ⟨o, hissues, -⟩ := ht.issued
  obtain ⟨t, hhead⟩ := hpass
  refine pending_iff.mpr ⟨host_of_client hcl hip, hissues.inFlight, ?_⟩
  intro hnil
  rw [hnil] at hhead
  cases hhead

lemma evaluated_pending (hr : recorded th.history = false) (hc : records e.cmd = false)
    (he : evaluated th'.history = true) : pending ip th' = true := by
  refine pending_iff.mpr ⟨?_, inFlight_turn ht hcl hr hc he, ?_⟩
  · rw [ht.call]
    exact host_of_client hcl hip
  · rw [ht.history]
    exact append_ne_nil_of_right_ne_nil _ (by simp)

end

section

variable (hmax : 0 < config.hub.maxAuthAttempts) (ht : Turn config w w' tid th th' e) (hb : Bounded config ip w)
  (hcl : clientOf th.call = some peer) (hip : peer.ip = ip) (hpass : Passed peer th.history)

include hmax ht hb hcl hip hpass

lemma bounded_evaluate (hr : recorded th.history = false) (hc : evaluates e.cmd = true)
    (he : evaluated th.history = false) : Bounded config ip w' := by
  have hrec : records e.cmd = false := by
    obtain ⟨t, c, r⟩ := e
    cases c <;> first | rfl | cases hc
  obtain ⟨o, -, hperf⟩ := ht.issued
  have hbfp : w'.shared.bruteForceProtection = w.shared.bruteForceProtection := by
    rw [ht.bfp]
    exact perform_bfp hperf hrec
  have hhost := host_of_client hcl hip
  have hev : (evaluations w' ip).Perm (evaluations w ip ++ [w.shared.now]) :=
    observed_some ht (by simp [evaluation, hhost, hc, ht.before])
  have hlog : (logins w' ip).Perm (logins w ip) := observed_none ht (login_none hrec)
  have he' : evaluated th'.history = true := by rw [ht.history, evaluated_snoc, hc, Bool.or_true]
  have hp := pending_turn ht hcl hip hpass
  have hp' := evaluated_pending ht hcl hip hr hrec he'
  obtain ⟨addr, htally⟩ := hb.tally
  obtain ⟨haddr, hfew⟩ := htally.checked tid th ht.thread hp
  -- until now the one attempt in flight had not been evaluated
  have hmatched : ∀ t, w.shared.now < t + config.hub.authLockoutDuration → (∀ x ∈ logins w ip, x < t) →
      (evaluations w ip).countP (t ≤ ·) ≤ w.shared.bruteForceProtection.failures addr t := by
    intro t hlt hquiet
    obtain hle | ⟨-, i, u, hu, hpu, heu⟩ := htally.tallied t hlt hquiet
    · exact hle
    · obtain rfl := htally.alone i tid u th hu ht.thread hpu hp
      obtain rfl := mem_unique ht.thread hu
      rw [he] at heu
      cases heu
  have hback : ∀ i u, w'.threads[i]? = some u → pending ip u = true → i = tid ∧ u = th' := by
    intro i u hu hpu
    obtain hself | ⟨hne, hu⟩ := ht.cases hu
    · exact hself
    · exact absurd (htally.alone i tid u th hu ht.thread hpu hp) hne
  refine ⟨turn_locks hmax ht hb, ?_, ?_, ⟨addr, htally.host, ?_, ?_, ?_⟩, ?_⟩
  · intro x hx
    rw [ht.now]
    obtain hx | hx := mem_append.mp (hev.mem_iff.mp hx)
    · exact hb.evaluated x hx
    · exact (mem_singleton.mp hx).le
  · rw [ht.now]
    exact fun x hx => hb.loggedIn x (hlog.mem_iff.mp hx)
  · intro i u hu hpu
    obtain ⟨-, rfl⟩ := hback i u hu hpu
    rw [ht.call, hbfp, ht.now]
    exact ⟨haddr, hfew⟩
  · intro i j u v hu hv hpu hpv
    rw [(hback i u hu hpu).1, (hback j v hv hpv).1]
  · intro t hlt hquiet
    rw [ht.now] at hlt
    have hle := hmatched t hlt fun x hx => hquiet x (hlog.mem_iff.mpr hx)
    refine .inr ⟨?_, tid, th', ht.self, hp', he'⟩
    rw [hev.countP_eq, countP_append, hbfp]
    have hone := countP_le_length (p := fun x => decide (t ≤ x)) (l := [w.shared.now])
    simp only [length_singleton] at hone
    omega
  intro t hquiet
  rw [hev.countP_eq, countP_append, countP_singleton]
  have hbound := hb.bound t fun x hx => hquiet x (hlog.mem_iff.mpr hx)
  split_ifs with hin
  · simp only [within, decide_eq_true_eq] at hin
    have hle := hmatched t hin.2 ?_
    · have hfewer := hfew t hin.2
      have hmono : (evaluations w ip).countP (within t config.hub.authLockoutDuration) ≤
          (evaluations w ip).countP (t ≤ ·) := by
        apply countP_mono_left
        intro x _ hx
        simp only [within, decide_eq_true_eq] at hx ⊢
        exact hx.1
      omega
    · intro x hx
      have hout := hquiet x (hlog.mem_iff.mpr hx)
      have hnow := hb.loggedIn x hx
      simp only [within, decide_eq_false_iff_not] at hout
      omega
  · exact hbound

lemma bounded_record {success : Bool} {serial reason : Option String}
    (hc : e.cmd = .recordAttempt peer success serial reason) (hnow : config.hub.authLockoutDuration ≤ instantReach + w.shared.now)
    (hdone : pending ip th' = false) : Bounded config ip w' := by
  obtain ⟨o, -, hperf⟩ := ht.issued
  obtain ⟨t0, c, r⟩ := e
  obtain rfl : c = .recordAttempt peer success serial reason := hc
  obtain ⟨hreply, hrec⟩ | ⟨-, hearly, -⟩ := perform_recordAttempt hperf
  swap
  · omega
  obtain rfl : r = some () := hreply
  have hhost := host_of_client hcl hip
  have hp := pending_turn ht hcl hip hpass
  obtain ⟨addr, htally⟩ := hb.tally
  obtain ⟨haddr, -⟩ := htally.checked tid th ht.thread hp
  obtain rfl : addr = peer := mem_unique haddr hcl
  have hev : (evaluations w' ip).Perm (evaluations w ip) := observed_none ht (by simp [evaluation, evaluates])
  have hnone : ∀ (i : ℕ) u, w'.threads[i]? = some u → pending ip u = false := by
    intro i u hu
    obtain ⟨-, rfl⟩ | ⟨hne, hu⟩ := ht.cases hu
    · exact hdone
    · by_contra hpu
      exact hne (htally.alone i tid u th hu ht.thread (by simpa using hpu) hp)
  have hlog : ∀ x, x ∈ logins w' ip ↔ x ∈ logins w ip ∨ (success = true ∧ x = w.shared.now) := by
    cases success with
    | true =>
      have hbefore : t0.before = w.shared := ht.before
      have hperm : (logins w' ip).Perm (logins w ip ++ [w.shared.now]) :=
        observed_some ht (by simp [login, hhost, accepted, hbefore])
      simp [hperm.mem_iff]
    | false =>
      have hperm : (logins w' ip).Perm (logins w ip) := observed_none ht (by simp [login, accepted])
      simp [hperm.mem_iff]
  refine ⟨turn_locks hmax ht hb, ?_, ?_, ⟨addr, hip, ?_, ?_, ?_⟩, ?_⟩
  · rw [ht.now]
    exact fun x hx => hb.evaluated x (hev.mem_iff.mp hx)
  · intro x hx
    rw [ht.now]
    obtain hx | ⟨-, rfl⟩ := (hlog x).mp hx
    · exact hb.loggedIn x hx
    · exact le_rfl
  · intro i u hu hpu
    rw [hnone i u hu] at hpu
    cases hpu
  · intro i j u v hu _ hpu
    rw [hnone i u hu] at hpu
    cases hpu
  · intro t hlt hquiet
    rw [ht.now] at hlt
    rw [hev.countP_eq, ht.bfp]
    by_cases hle : t ≤ w.shared.now
    · cases success with
      | true => exact absurd (hquiet _ ((hlog _).mpr (.inr ⟨rfl, rfl⟩))) (by omega)
      | false =>
        have hold := htally.tallied t hlt fun x hx => hquiet x ((hlog x).mpr (.inl hx))
        have hfail := recordAttempt_failure hrec rfl hlt
        rw [if_pos hle] at hfail
        simp only at hfail
        rw [hfail]
        obtain hold | ⟨hold, -⟩ := hold
        · exact .inl (by omega)
        · exact .inl hold
    have hzero : (evaluations w ip).countP (t ≤ ·) = 0 := by
      rw [countP_eq_zero]
      intro x hx
      have := hb.evaluated x hx
      simp only [decide_eq_true_eq]
      omega
    exact .inl (by omega)
  · intro t hquiet
    rw [hev.countP_eq]
    exact hb.bound t fun x hx => hquiet x ((hlog x).mpr (.inl hx))

end

end

lemma bounded_step (hmax : 0 < config.hub.maxAuthAttempts) (hd : Disciplined Attempts Concludes w.threads)
    (hb : Bounded config ip w) (hg : InTurn config ip w a) (h : step config w a = some w') : Bounded config ip w' := by
  by_cases hexec : ∃ tid o, a = .exec tid o
  swap
  · exact bounded_idle hb hg h fun tid o ha => hexec ⟨tid, o, ha⟩
  obtain ⟨tid, o, rfl⟩ := hexec
  have hd' := disciplined_step (call_attempts config) hd h
  obtain ⟨th, th', e, ht, hm⟩ := exec_turn hd h
  by_cases hhost : fromHost ip th.call = true
  swap
  · exact bounded_elsewhere hmax ht hm hb (by simpa using hhost)
  obtain ⟨o', hissues, -⟩ := ht.issued
  unfold Attempts at hm
  rcases hcl : clientOf th.call with _ | peer
  · simp [fromHost, hcl] at hhost
  have hip : peer.ip = ip := by simpa [fromHost, hcl] using hhost
  -- a thread still in flight past its check was let through by it
  have hnext : pending ip th' = true → Passed peer th'.history ∧ recorded th'.history = false := by
    intro hp
    obtain ⟨-, hn, hne⟩ := pending_iff.mp hp
    cases hprog : th'.prog with
    | ret =>
      rw [hprog] at hn
      cases hn
    | call =>
      have hm' := hd'.may ht.self hprog
      unfold Attempts at hm'
      rw [ht.call, hcl] at hm'
      obtain ⟨hnil, -⟩ | ⟨hpass, hr, -⟩ := hm'
      · exact absurd hnil hne
      · exact ⟨hpass, hr⟩
  rw [hcl] at hm
  obtain ⟨hnil, hc⟩ | ⟨hpass, hr, he, hc⟩ := hm
  · rw [hc] at hissues
    obtain ⟨hidle, hstale⟩ := guard_check hg hissues hhost
    exact bounded_check hmax ht hb hcl hip hnil hc hidle hstale fun hp => (hnext hp).1
  by_cases hev : evaluates e.cmd = true
  · exact bounded_evaluate hmax ht hb hcl hip hpass hr hev (he hev)
  by_cases hcount : counts e.cmd = true
  · obtain ⟨success, serial, reason, hcmd⟩ := hc hcount
    rw [hcmd] at hissues
    refine bounded_record hmax ht hb hcl hip hpass hcmd (guard_record hg hissues hhost) ?_
    by_contra hp
    have hunrecorded := (hnext (by simpa using hp)).2
    rw [ht.history, AttemptDiscipline.recorded_snoc, hcmd] at hunrecorded
    simp [records] at hunrecorded
  have hrec : records e.cmd = false := by
    obtain ⟨t, c, r⟩ := e
    cases c <;> first | rfl | exact absurd rfl hcount
  obtain ⟨o'', -, hperf⟩ := ht.issued
  refine bounded_quiet hmax ht hb ?_ (login_none hrec) ?_ ?_ ?_
  · simp [evaluation, Bool.eq_false_iff.mpr hev]
  · intro addr _
    rw [ht.bfp, perform_bfp hperf hrec]
  · exact fun _ => pending_turn ht hcl hip hpass
  · intro _ hevaluated
    have hstill : evaluated th'.history = true := by rw [ht.history, evaluated_snoc, hevaluated, Bool.true_or]
    exact ⟨evaluated_pending ht hcl hip hr hrec hstill, hstill⟩

lemma bounded_init (hmax : 0 < config.hub.maxAuthAttempts) (now : ℕ) : Bounded config ip (init now) := by
  refine ⟨⟨?_, ?_⟩, ?_, ?_, ⟨⟨ip, 0⟩, rfl, ?_, ?_, ?_⟩, ?_⟩
  · rintro addr a ⟨⟩
  · intro addr t _ hmany
    exact absurd (lt_of_lt_of_le hmax hmany) (Nat.lt_irrefl 0)
  · rintro x ⟨⟩
  · rintro x ⟨⟩
  · rintro tid th ⟨⟩
  · rintro tid tid' th th' ⟨⟩
  · exact fun t _ _ => .inl (Nat.zero_le _)
  · exact fun t _ => Nat.zero_le _

theorem evaluations_bounded {now : ℕ} (hmax : 0 < config.hub.maxAuthAttempts)
    (h : Reach (step config) (InTurn config ip) (init now) w) {t : ℕ}
    (hquiet : ∀ x ∈ logins w ip, within t config.hub.authLockoutDuration x = false) :
    (evaluations w ip).countP (within t config.hub.authLockoutDuration) ≤ config.hub.maxAuthAttempts := by
  have hb : Bounded config ip w :=
    h.invariant (I := Bounded config ip) (J := fun w => Disciplined Attempts Concludes w.threads)
      (fun _ hr => reach_disciplined (call_attempts config) hr) (bounded_init hmax now)
      (fun _ _ _ hd hb hg hs => bounded_step hmax hd hb hg hs)
  exact hb.bound t hquiet

open Schedule

def guess (sid port : ℕ) (commands : List Choice) : List Action :=
  [.sshConnect ⟨"203.0.113.7", port⟩, .arrive (.authPublickey sid ⟨"203.0.113.7", port⟩ none "tunnel-a" "guess")]
    ++ commands.map (.exec sid)

theorem evaluations_bounded_locked_out : ∃ w, Reach (step deployment) (InTurn deployment "203.0.113.7") start w ∧
    (evaluations w "203.0.113.7").length = 3 ∧
    (evaluations w "203.0.113.7").countP (within (1700000000 * second) (300 * second)) ≤ 3 := by
  obtain ⟨w, hw, hp⟩ := reach_of_check (step deployment) (InTurn deployment "203.0.113.7") start
    ((List.range 3).flatMap (fun sid => guess sid 50000 [.plain, .redis .ok, .plain]) ++ guess 3 50000 [.plain])
    (fun w => (evaluations w "203.0.113.7").length = 3 ∧ logins w "203.0.113.7" = []) (by decide +kernel)
  obtain ⟨hthree, hnone⟩ := of_decide_eq_true hp
  refine ⟨w, hw, hthree, evaluations_bounded (t := 1700000000 * second) (by decide) hw ?_⟩
  rw [hnone]
  rintro x ⟨⟩

/-- From four source ports four keys are evaluated at once. -/
theorem evaluations_unbounded : ∃ w t, Reach (step deployment) Free start w ∧
    (∀ x ∈ logins w "203.0.113.7", within t deployment.hub.authLockoutDuration x = false) ∧
    deployment.hub.maxAuthAttempts <
      (evaluations w "203.0.113.7").countP (within t deployment.hub.authLockoutDuration) := by
  obtain ⟨w, hw, hp⟩ := started
    ((List.range 4).flatMap fun sid => guess sid (50000 + sid) [.plain, .redis .ok, .plain])
    (fun w => logins w "203.0.113.7" = [] ∧
      (evaluations w "203.0.113.7").countP (within (1700000000 * second) (300 * second)) = 4) (by decide +kernel)
  obtain ⟨hnone, hfour⟩ := of_decide_eq_true hp
  refine ⟨w, 1700000000 * second, hw, ?_, ?_⟩
  · rw [hnone]
    rintro x ⟨⟩
  · exact hfour ▸ (by decide : 3 < 4)

end FleetingDns.BruteForceBound
