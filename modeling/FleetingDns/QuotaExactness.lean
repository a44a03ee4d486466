import FleetingDns.QuotaDiscipline
namespace FleetingDns.Quota

open CommandPrograms ThreadPool ServerPool GuardedRuns CreateFlow List Thread

def creates (u : String) : QuotaCall → Bool
  | .createTunnel user _ => user.id = u
  | _ => false

def touching (u : String) (th : QuotaThread) : Bool := th.prog.next.isSome && !(seen u th.history).isEmpty

def busy (u : String) (th : QuotaThread) : Bool := touching u th && !stored u th.history

section

variable (config : Config) (u : String) (w : QuotaPool)

/-- A request starts to use the counter of the user when no other is using it, a reset waits for the creations in flight,
and the replies to the user's creations favour them. -/
def takesTurn (tid : ℕ) (o : QuotaChoice) (th : QuotaThread) : Bool :=
  match th.prog.next with
  | some (.readUsage v) => v ≠ u || (w.threads.eraseIdx tid).all fun other => !busy u other
  | some (.resetUsage v) => v ≠ u || w.threads.all fun other => !touching u other
  | some (.base c) => match th.call with
    | .createTunnel user request => user.id ≠ u ||
      (w.shared.perform config (.base c) o).all fun r => favours config.api request c r.2
    | _ => true
  | _ => true

/-- Besides, a creation counted is not cancelled, and nothing else is counted as a creation. -/
def orderly : Action → Bool
  | .arrive (.createTunnel user request) => user.id ≠ u || acceptable config.api user request
  | .arrive (.checkOperationAllowed userId operationType) => userId ≠ u || operationType ≠ "tunnel_creation"
  | .exec tid o => w.threads[tid]?.all (takesTurn config u w tid o)
  | .cancel tid => w.threads[tid]?.all fun th => !(creates u th.call && stored u th.history)
  | _ => true

def Orderly (a : Action) : Prop := orderly config u w a = true

end

instance (config : Config) (u : String) (w : QuotaPool) (a : Action) : Decidable (Orderly config u w a) :=
  inferInstanceAs (Decidable (_ = true))

def lastEpoch (u : String) (th : QuotaThread) : Option ℕ := th.history.getLast?.map fun e => e.span.after.epoch u

def createdIn (u : String) (epoch : ℕ) (th : QuotaThread) : Bool :=
  creates u th.call && lastEpoch u th = some epoch && match th.prog with
    | .ret d => succeeded d
    | .call _ _ => false

def createdSince (u : String) (w : QuotaPool) : ℕ := w.threads.countP (createdIn u (w.shared.epoch u))

variable {config : Config} {u : String} {w w' : QuotaPool} {a : Action} {tid : ℕ} {th : QuotaThread}

section

variable {o : QuotaChoice}

section

variable (hg : Orderly config u w (.exec tid o))

include hg

lemma Orderly.exec (hth : w.threads[tid]? = some th) : takesTurn config u w tid o th = true := by
  rw [Orderly, orderly, hth] at hg
  exact hg

lemma Orderly.read (hi : Issues w tid th (.readUsage u)) {j : ℕ} {other : QuotaThread}
    (hother : w.threads[j]? = some other) (hb : busy u other = true) : j = tid := by
  have h := hg.exec hi.1
  rw [takesTurn, hi.next] at h
  by_contra hj
  have hmem := mem_eraseIdx_iff_getElem?.mpr ⟨j, hj, hother⟩
  simp only [ne_eq, not_true_eq_false, decide_false, Bool.false_or, all_eq_true] at h
  have := h other hmem
  simp [hb] at this

lemma Orderly.reset (hi : Issues w tid th (.resetUsage u)) {j : ℕ} {other : QuotaThread}
    (hother : w.threads[j]? = some other) : touching u other = false := by
  have h := hg.exec hi.1
  rw [takesTurn, hi.next] at h
  simp only [ne_eq, not_true_eq_false, decide_false, Bool.false_or, all_eq_true, Bool.not_eq_true'] at h
  exact h other (mem_of_getElem? hother)

lemma Orderly.reply {c : FleetingDns.Cmd} (hi : Issues w tid th (.base c)) {user : GitHubUser}
    {request : CreateTunnelRequest} (hcall : th.call = .createTunnel user request) (hu : user.id = u)
    {s' : QuotaState} {r : c.Reply} (hp : w.shared.perform config (.base c) o = some (s', r)) :
    favours config.api request c r = true := by
  have h := hg.exec hi.1
  rw [takesTurn, hi.next, hcall] at h
  simp only [hu, ne_eq, hp] at h
  exact h

end

lemma Orderly.cancel (hg : Orderly config u w (.cancel tid)) (hth : w.threads[tid]? = some th)
    (hc : creates u th.call = true) : stored u th.history = false := by
  rw [Orderly, orderly, hth, Option.all_some, hc, Bool.not_eq_true'] at hg
  exact hg

end

variable {th' : QuotaThread} {shared : Shared}

section

lemma busy_iff : busy u th = true ↔ th.InFlight ∧ seen u th.history ≠ [] ∧ stored u th.history = false := by
  simp [busy, touching, Thread.InFlight, and_assoc]

lemma seen_snoc (c : QuotaCmd) (r : c.Reply) (t : Span QuotaState) (hc : c ≠ .readUsage u) (h : List Ev) :
    seen u (h ++ [⟨t, c, r⟩]) = seen u h := by
  cases c with
  | readUsage v =>
    have hv : v ≠ u := fun hv => hc (congrArg _ hv)
    rw [seen_read, if_neg hv, append_nil]
  | _ => exact seen_other (by rintro _ ⟨⟩)

lemma stored_snoc (h : List Ev) (e : Ev) : stored u (h ++ [e]) = (stored u h || stores u e.cmd) := by
  simp [stored]

lemma busy_step (h : step (quotaServer config) w a = some w') (hth : w'.threads[tid]? = some th')
    (hb : busy u th' = true) : (∃ th, w.threads[tid]? = some th ∧ busy u th = true) ∨
      ∃ o th, a = .exec tid o ∧ Issues w tid th (.readUsage u) := by
  obtain ⟨hold, -⟩ | ⟨call, -, -, rfl⟩ | ⟨o, th, c, k, r, rfl, hold, hp, -, rfl⟩ | ⟨th, -, -, rfl⟩ := thread_step h hth
  · exact .inl ⟨th', hold, hb⟩
  · exact absurd rfl (busy_iff.mp hb).2.1
  · by_cases hc : c = .readUsage u
    · subst hc
      exact .inr ⟨o, th, rfl, hold, k, hp⟩
    · obtain ⟨-, hseen, hstored⟩ := busy_iff.mp hb
      rw [advance_history, seen_snoc c r _ hc] at hseen
      rw [advance_history, stored_snoc, Bool.or_eq_false_iff] at hstored
      exact .inl ⟨th, hold, busy_iff.mpr ⟨inFlight_of_call hp, hseen, hstored.1⟩⟩
  · exact absurd (busy_iff.mp hb).1 (th.stop_not_inFlight _)

def Single (u : String) (w : QuotaPool) : Prop :=
  ∀ (i j : ℕ) (th other : QuotaThread), w.threads[i]? = some th → w.threads[j]? = some other →
    busy u th = true → busy u other = true → i = j

lemma single_step (hs : Single u w) (hg : Orderly config u w a) (h : step (quotaServer config) w a = some w') :
    Single u w' := by
  intro i j th other hth hother hb hb'
  obtain ⟨v, hv, hbv⟩ | ⟨o, v, rfl, hv⟩ := busy_step h hth hb
  · obtain ⟨x, hx, hbx⟩ | ⟨o, x, rfl, hx⟩ := busy_step h hother hb'
    · exact hs i j v x hv hx hbv hbx
    · exact hg.read hx hv hbv
  · obtain ⟨x, hx, hbx⟩ | ⟨o', x, ha, -⟩ := busy_step h hother hb'
    · exact (hg.read hv hx hbx).symm
    · cases ha
      rfl

variable {call : QuotaCall}

lemma reach_single (h : Reach (step (quotaServer config)) (Orderly config u) (start shared) w) : Single u w := by
  induction h with
  | refl =>
    intro i j th other hth
    cases hth
  | tail _ hg hstep ih => exact single_step ih hg hstep

lemma ends_cancelled {h : List Ev} (hs : creates u call = true → stored u h = false) :
    Ends config.api u call h .cancelled := by
  cases call with
  | createTunnel =>
    intro hu
    have hfalse := hs (decide_eq_true hu)
    exact ⟨by rintro ⟨⟩, fun htrue => absurd (hfalse.symm.trans htrue) (by decide)⟩
  | _ => trivial

lemma reach_obeys (h : Reach (step (quotaServer config)) (Orderly config u) (start shared) w) :
    Keeps May (Ends config.api u) w.threads := by
  induction h with
  | refl => rintro tid th ⟨⟩
  | @tail w w' a _ hg hstep ih =>
    refine keeps_step (call_obeys config u) ?_ ih hstep
    rintro tid th hth (rfl | rfl)
    · exact ends_cancelled (hg.cancel hth)
    · cases step_effect hstep with
      | restart hrestart => cases hrestart

def Taken (config : Config) (u : String) : QuotaCall → Prop
  | .createTunnel user request => user.id = u → acceptable config.api user request = true
  | .checkOperationAllowed userId operationType => userId = u → operationType ≠ "tunnel_creation"
  | _ => True

lemma Taken.adds (ht : Taken config u call) (hu : call.userId = u) :
    call.adds = if creates u call then 1 else 0 := by
  cases call with
  | createTunnel => exact (if_pos (decide_eq_true hu)).symm
  | checkOperationAllowed => exact if_neg (ht hu)
  | _ => rfl

lemma Orderly.taken (hg : Orderly config u w (.arrive call)) : Taken config u call := by
  cases call with
  | createTunnel | checkOperationAllowed =>
    intro hu
    simpa [Orderly, orderly, hu] using hg
  | _ => trivial

section

variable (h : Reach (step (quotaServer config)) (Orderly config u) (start shared) w) (hth : w.threads[tid]? = some th)

include h hth

lemma reach_taken : Taken config u th.call :=
  reach_calls (fun _ _ hg => hg.taken) h hth

lemma reach_favourable {user : GitHubUser} {request : CreateTunnelRequest}
    (hcall : th.call = .createTunnel user request) (hu : user.id = u) :
    ∀ e ∈ th.history, favourable config.api request e.cmd e.reply = true := by
  induction h generalizing th with
  | refl => cases hth
  | @tail w w' a _ hg hstep ih =>
    intro e he
    obtain ⟨v, hv, hcall', he⟩ | ⟨o, v, rfl, hi, hcall', -, -, hperf⟩ := event_step hstep hth he
    · exact ih hv (hcall'.trans hcall) e he
    · obtain ⟨t, c, r⟩ := e
      cases c with
      | base => exact hg.reply hi (hcall'.trans hcall) hu hperf
      | _ => rfl

end

end

section

def noteStore (u : String) (call : QuotaCall) (e : Ev) : Option ℕ :=
  if creates u call && stores u e.cmd then some (e.span.before.epoch u) else none

structure Exact (u : String) (w : QuotaPool) : Prop where
  current : ∀ (tid : ℕ) (th : QuotaThread), w.threads[tid]? = some th → busy u th = true →
    ∀ n ∈ seen u th.history, n = w.shared.created u
  past : ∀ n ∈ observed (noteStore u) w.threads, n ≤ w.shared.epoch u
  exact : w.shared.created u = (observed (noteStore u) w.threads).count (w.shared.epoch u)
  bounded : w.shared.created u ≤ quotaLimits.tunnelCreationLimit

lemma shared_kept (h : step (quotaServer config) w a = some w') (ha : ∀ tid o, a ≠ .exec tid o) :
    w'.shared.created u = w.shared.created u ∧ w'.shared.epoch u = w.shared.epoch u := by
  cases step_effect h with
  | drift drift =>
    simp only [quotaServer] at drift
    split_ifs at drift
    rw [← Option.some.inj drift]
    exact ⟨rfl, rfl⟩
  | arrive accept =>
    rw [← Option.some.inj accept]
    exact ⟨rfl, rfl⟩
  | exec => exact absurd rfl (ha _ _)
  | cancel thread inFlight shared =>
    rw [shared]
    exact ⟨rfl, rfl⟩
  | restart restart => cases restart

variable {c : QuotaCmd} {r : c.Reply}

lemma count_exec (hx : Exact u w) (hk : Keeps May (Ends config.api u) w.threads) (htaken : Taken config u th.call)
    (hi : Issues w tid th c) (hc : c ≠ .resetUsage u) :
    countAfter u (w.shared.created u) c = w.shared.created u + (if creates u th.call && stores u c then 1 else 0) ∧
      countAfter u (w.shared.created u) c ≤ quotaLimits.tunnelCreationLimit := by
  have hmay := hk.may hi
  have hflight : th.InFlight := by
    obtain ⟨-, k, hp⟩ := hi
    exact inFlight_of_call hp
  have hunmoved : countAfter u (w.shared.created u) c = w.shared.created u → stores u c = false →
      countAfter u (w.shared.created u) c = w.shared.created u + (if creates u th.call && stores u c then 1 else 0) ∧
        countAfter u (w.shared.created u) c ≤ quotaLimits.tunnelCreationLimit := by
    intro hsame hstores
    rw [hsame, hstores, Bool.and_false]
    exact ⟨(add_zero _).symm, hx.bounded⟩
  cases c with
  | base | readUsage => exact hunmoved rfl rfl
  | resetUsage => exact hunmoved (if_neg fun hv => hc (congrArg _ hv)) rfl
  | cacheUsage =>
    refine hunmoved ?_ rfl
    obtain ⟨-, hstored, hzero, husage⟩ := hmay
    rw [countAfter]
    split_ifs with hv
    · subst hv
      have hbusy := busy_iff.mpr ⟨hflight, ne_nil_of_mem hzero, hstored⟩
      rw [husage]
      exact hx.current tid th hi.1 hbusy 0 hzero
    · rfl
  | storeUsage v usage =>
    by_cases hv : v = u
    · subst hv
      obtain ⟨huser, hstored, ⟨n, hn, husage⟩, m, hm, hroom⟩ := hmay
      rw [← huser] at hn hm
      have hbusy := busy_iff.mpr ⟨hflight, ne_nil_of_mem hn, hstored⟩
      obtain rfl := hx.current tid th hi.1 hbusy n hn
      obtain rfl := hx.current tid th hi.1 hbusy m hm
      have hadds := htaken.adds huser.symm
      have hafter : countAfter v (w.shared.created v) (.storeUsage v usage) = w.shared.created v + th.call.adds := by
        rw [countAfter, if_pos rfl, husage]
      have hstores : stores v (.storeUsage v usage) = true := decide_eq_true rfl
      rw [hafter, hstores, Bool.and_true, ← hadds]
      refine ⟨rfl, ?_⟩
      split_ifs at hadds
      · exact hroom (by omega)
      · rw [hadds, add_zero]
        exact hx.bounded
    · exact hunmoved (if_neg hv) (decide_eq_false hv)

lemma note_exec {s s' : QuotaState} :
    (noteStore u th.call ⟨⟨s, s'⟩, c, r⟩).toList = if creates u th.call && stores u c then [s.epoch u] else [] := by
  rw [noteStore]
  split_ifs <;> rfl

lemma created_unmoved (hx : Exact u w) (hk : Keeps May (Ends config.api u) w.threads)
    (htaken : Taken config u th.call) {s : QuotaState} {o : QuotaChoice} (hi : Issues w tid th c)
    (hperf : w.shared.perform config c o = some (s, r)) (hc : c ≠ .resetUsage u) (hstores : stores u c = false) :
    s.created u = w.shared.created u := by
  rw [perform_created hperf, (count_exec hx hk htaken hi hc).1, hstores, Bool.and_false]
  exact add_zero _

lemma busy_of_stores (hk : Keeps May (Ends config.api u) w.threads) (hi : Issues w tid th c)
    (hstores : stores u c = true) : busy u th = true := by
  have hmay := hk.may hi
  obtain ⟨-, k, hp⟩ := hi
  cases c with
  | storeUsage =>
    obtain rfl := of_decide_eq_true hstores
    obtain ⟨huser, hstored, ⟨n, hn, -⟩, -⟩ := hmay
    rw [← huser] at hn
    exact busy_iff.mpr ⟨inFlight_of_call hp, ne_nil_of_mem hn, hstored⟩
  | _ => cases hstores

section

variable (hx : Exact u w) (hs : Single u w) (hk : Keeps May (Ends config.api u) w.threads)
  (htaken : ∀ (tid : ℕ) th, w.threads[tid]? = some th → Taken config u th.call) (hg : Orderly config u w a)
  (h : step (quotaServer config) w a = some w')

include hx hs hk htaken hg h

lemma current_step : ∀ (tid : ℕ) (th' : QuotaThread), w'.threads[tid]? = some th' →
      busy u th' = true → ∀ n ∈ seen u th'.history, n = w'.shared.created u := by
  intro tid th' hth hb n hn
  obtain ⟨hold, hother⟩ | ⟨call, -, -, rfl⟩ | ⟨o, th, c, k, r, rfl, hold, hp, hperf, rfl⟩ | ⟨th, -, -, rfl⟩ :=
    thread_step h hth
  · -- another request moves the count only when it is busy itself
    rw [hx.current tid th' hold hb n hn]
    cases step_effect h with
    | @exec j o v c k r thread prog perform threads =>
      have hi : Issues w j v c := ⟨thread, k, prog⟩
      refine (created_unmoved hx hk (htaken j v thread) hi perform ?_ ?_).symm
      · rintro rfl
        have hfree := hg.reset hi hold
        simp [busy, hfree] at hb
      · by_contra hstores
        have hbusy := busy_of_stores hk hi (Bool.of_not_eq_false hstores)
        obtain rfl := hs j tid v th' thread hold hbusy hb
        exact hother o rfl
    | _ => exact (shared_kept h (by rintro _ _ ⟨⟩)).1.symm
  · exact absurd rfl (busy_iff.mp hb).2.1
  · have hi : Issues w tid th c := ⟨hold, k, hp⟩
    obtain ⟨-, hseen, hstored⟩ := busy_iff.mp hb
    rw [advance_history, stored_snoc, Bool.or_eq_false_iff] at hstored
    have hbusy : seen u th.history ≠ [] → busy u th = true := fun hne =>
      busy_iff.mpr ⟨inFlight_of_call hp, hne, hstored.1⟩
    rw [advance_history] at hn hseen
    rw [created_unmoved hx hk (htaken tid th hold) hi hperf ?_ hstored.2]
    · by_cases hc : c = .readUsage u
      · subst hc
        rw [seen_read, if_pos rfl, mem_snoc] at hn
        obtain hn | rfl := hn
        · exact hx.current tid th hold (hbusy (ne_nil_of_mem hn)) n hn
        · rw [(perform_readUsage hperf).2]
          rfl
      · rw [seen_snoc c r _ hc] at hn
        exact hx.current tid th hold (hbusy (ne_nil_of_mem hn)) n hn
    · rintro rfl
      rw [seen_snoc _ r _ (by rintro ⟨⟩)] at hseen
      have hfree := hg.reset hi hold
      have hb' := hbusy hseen
      simp [busy, hfree] at hb'
  · exact absurd (busy_iff.mp hb).1 (th.stop_not_inFlight _)

lemma exact_step : Exact u w' := by
  have hcurrent := current_step hx hs hk htaken hg h
  obtain ⟨hperm, hno⟩ | ⟨tid, o, th, c, r, rfl, hi, hperf, hperm⟩ := observed_step (noteStore u) h
  · obtain ⟨hcreated, hepoch⟩ := shared_kept h hno
    refine ⟨hcurrent, ?_, ?_, ?_⟩
    · intro n hn
      rw [hepoch]
      exact hx.past n (hperm.mem_iff.mp hn)
    · rw [hcreated, hepoch, hperm.count_eq]
      exact hx.exact
    · rw [hcreated]
      exact hx.bounded
  rw [note_exec] at hperm
  have hcreated : w'.shared.created u = countAfter u (w.shared.created u) c := perform_created hperf
  by_cases hc : c = .resetUsage u
  · subst hc
    have hepoch : w'.shared.epoch u = w.shared.epoch u + 1 := perform_nextEpoch hperf
    rw [show stores u (.resetUsage u) = false from rfl, Bool.and_false, if_neg Bool.false_ne_true,
      append_nil] at hperm
    have hzero : w'.shared.created u = 0 := by rw [hcreated, countAfter, if_pos rfl]
    refine ⟨hcurrent, ?_, ?_, ?_⟩
    · intro n hn
      rw [hepoch]
      exact (hx.past n (hperm.mem_iff.mp hn)).trans (Nat.le_succ _)
    · have hnone : (observed (noteStore u) w.threads).count (w.shared.epoch u + 1) = 0 := by
        rw [count_eq_zero]
        intro hmem
        exact absurd (hx.past _ hmem) (Nat.not_succ_le_self _)
      rw [hzero, hepoch, hperm.count_eq, hnone]
      rfl
    · rw [hzero]
      decide
  have hepoch : w'.shared.epoch u = w.shared.epoch u := perform_epoch hperf hc
  obtain ⟨hmoved, hle⟩ := count_exec hx hk (htaken tid th hi.1) hi hc
  refine ⟨hcurrent, ?_, ?_, ?_⟩
  · intro n hn
    rw [hepoch]
    obtain hn | hn := mem_append.mp (hperm.mem_iff.mp hn)
    · exact hx.past n hn
    · split_ifs at hn
      · exact (mem_singleton.mp hn).le
      · cases hn
  · rw [hcreated, hmoved, hepoch, hperm.count_eq, hx.exact]
    split_ifs <;> simp
  · rw [hcreated]
    exact hle

end

lemma reach_exact (h : Reach (step (quotaServer config)) (Orderly config u) (start shared) w) : Exact u w := by
  induction h with
  | refl =>
    refine ⟨?_, ?_, rfl, ?_⟩
    · intro tid th hth
      cases hth
    · intro n hn
      cases hn
    · change 0 ≤ 100
      decide
  | tail hr hg hstep ih =>
    exact exact_step ih (reach_single hr) (reach_obeys hr) (fun _ _ hth => reach_taken hr hth) hg hstep

def notes (u : String) (th : QuotaThread) : List ℕ := th.history.filterMap (noteStore u th.call)

/-- A counted creation was counted once, in the epoch of its last event; while it is in flight that is the present one. -/
def Settled (u : String) (w : QuotaPool) : Prop :=
  ∀ (tid : ℕ) (th : QuotaThread), w.threads[tid]? = some th → creates u th.call = true → stored u th.history = true →
    ∃ n, notes u th = [n] ∧ lastEpoch u th = some n ∧ seen u th.history ≠ [] ∧ (th.InFlight → n = w.shared.epoch u)

lemma notes_eq_nil (hs : stored u th.history = false) : notes u th = [] := by
  rw [notes, filterMap_eq_nil_iff]
  intro e he
  rw [stored, any_eq_false] at hs
  rw [noteStore, Bool.eq_false_iff.mpr (hs e he), Bool.and_false]
  rfl

lemma notes_advance (c : QuotaCmd) (k : c.Reply → Program QuotaDone) (r : c.Reply) (s s' : QuotaState) :
    notes u (th.advance ⟨s, s'⟩ c k r) = notes u th ++ if creates u th.call && stores u c then [s.epoch u] else [] := by
  by_cases hc : (creates u th.call && stores u c) = true <;> simp [noteStore, hc, notes]

lemma lastEpoch_advance (c : QuotaCmd) (k : c.Reply → Program QuotaDone) (r : c.Reply) (s s' : QuotaState) :
    lastEpoch u (th.advance ⟨s, s'⟩ c k r) = some (s'.epoch u) := by
  simp [lastEpoch]

lemma epoch_step (hg : Orderly config u w a) (h : step (quotaServer config) w a = some w')
    (hth : w.threads[tid]? = some th) (ht : touching u th = true) : w'.shared.epoch u = w.shared.epoch u := by
  cases step_effect h with
  | @exec j o v c k r thread prog perform threads =>
    refine perform_epoch perform ?_
    rintro rfl
    exact absurd (hg.reset ⟨thread, k, prog⟩ hth) (by rw [ht]; decide)
  | _ => exact (shared_kept h (by rintro _ _ ⟨⟩)).2

lemma touching_iff : touching u th = true ↔ th.InFlight ∧ seen u th.history ≠ [] := by
  simp [touching, Thread.InFlight]

lemma settled_step (hsettled : Settled u w) (hk : Keeps May (Ends config.api u) w.threads) (hg : Orderly config u w a)
    (h : step (quotaServer config) w a = some w') : Settled u w' := by
  intro tid th' hth hcreates hstored
  obtain ⟨hold, -⟩ | ⟨call, -, -, rfl⟩ | ⟨o, th, c, k, r, rfl, hold, hp, -, rfl⟩ | ⟨th, hold, -, rfl⟩ :=
    thread_step h hth
  · obtain ⟨n, hnotes, hlast, hseen, hflight⟩ := hsettled tid th' hold hcreates hstored
    refine ⟨n, hnotes, hlast, hseen, fun hf => ?_⟩
    rw [hflight hf, epoch_step hg h hold (touching_iff.mpr ⟨hf, hseen⟩)]
  · cases hstored
  · have hf : th.InFlight := inFlight_of_call hp
    rw [advance_call] at hcreates
    have hseen' : seen u th.history ≠ [] → seen u (th.advance ⟨w.shared, w'.shared⟩ c k r).history ≠ [] := by
      intro hne
      rw [advance_history, seen, filterMap_append]
      exact append_ne_nil_of_left_ne_nil hne _
    rw [notes_advance, lastEpoch_advance, hcreates]
    cases hs : stores u c with
    | true =>
      have hbusy := busy_of_stores hk ⟨hold, k, hp⟩ hs
      obtain ⟨-, hseen, hunstored⟩ := busy_iff.mp hbusy
      have hepoch := epoch_step hg h hold (touching_iff.mpr ⟨hf, hseen⟩)
      refine ⟨w.shared.epoch u, ?_, congrArg some hepoch, hseen' hseen, fun _ => hepoch.symm⟩
      rw [notes_eq_nil hunstored]
      rfl
    | false =>
      rw [advance_history, stored_snoc, hs, Bool.or_false] at hstored
      obtain ⟨n, hnotes, -, hseen, hflight⟩ := hsettled tid th hold hcreates hstored
      have hepoch := epoch_step hg h hold (touching_iff.mpr ⟨hf, hseen⟩)
      rw [← hflight hf] at hepoch
      refine ⟨n, ?_, congrArg some hepoch, hseen' hseen, fun _ => hepoch.symm⟩
      rw [hnotes]
      rfl
  · obtain ⟨n, hnotes, hlast, hseen, -⟩ := hsettled tid th hold hcreates hstored
    exact ⟨n, hnotes, hlast, hseen, fun hf => absurd hf (th.stop_not_inFlight _)⟩

lemma reach_settled (h : Reach (step (quotaServer config)) (Orderly config u) (start shared) w) : Settled u w := by
  induction h with
  | refl => rintro tid th ⟨⟩
  | tail hr hg hstep ih => exact settled_step ih (reach_obeys hr) hg hstep

end

section

lemma createdIn_iff {n : ℕ} : createdIn u n th = true ↔
    creates u th.call = true ∧ lastEpoch u th = some n ∧ ∃ d, th.prog = .ret d ∧ succeeded d = true := by
  unfold createdIn
  cases th.prog <;> simp [and_assoc]

section

variable (h : Reach (step (quotaServer config)) (Orderly config u) (start shared) w) (hth : w.threads[tid]? = some th)

include h hth

lemma stored_iff (hc : creates u th.call = true) {d : QuotaDone} (hp : th.prog = .ret d) :
    stored u th.history = true ↔ succeeded d = true := by
  have hends := (reach_obeys h).ends hth hp
  have htaken := reach_taken h hth
  cases hcall : th.call with
  | createTunnel user =>
    rw [hcall] at hc hends htaken
    have hu : user.id = u := of_decide_eq_true hc
    exact ⟨fun hs => (hends hu).2 hs (htaken hu) (reach_favourable h hth hcall hu), (hends hu).1⟩
  | _ =>
    rw [hcall] at hc
    cases hc

lemma notes_createdIn {n : ℕ} (hin : createdIn u n th = true) : notes u th = [n] := by
  obtain ⟨hc, hlast, d, hp, hd⟩ := createdIn_iff.mp hin
  obtain ⟨m, hnotes, hlast', -, -⟩ := reach_settled h tid th hth hc ((stored_iff h hth hc hp).mpr hd)
  obtain rfl := Option.mem_unique hlast hlast'
  exact hnotes

end

lemma creates_userId {call : QuotaCall} (hc : creates u call = true) : call.userId = u := by
  cases call with
  | createTunnel => exact of_decide_eq_true hc
  | _ => cases hc

lemma notes_other (hc : creates u th.call = false) : notes u th = [] := by
  rw [notes, filterMap_eq_nil_iff]
  intro e _
  rw [noteStore, hc]
  rfl

lemma notes_idle (h : Reach (step (quotaServer config)) (Orderly config u) (start shared) w)
    (hth : w.threads[tid]? = some th) (hidle : th.call.userId = u → ¬ th.InFlight) (n : ℕ) :
    (notes u th).count n = if createdIn u n th then 1 else 0 := by
  by_cases hin : createdIn u n th = true
  · rw [notes_createdIn h hth hin, if_pos hin]
    exact count_singleton_self
  rw [if_neg hin, count_eq_zero]
  intro hmem
  cases hc : creates u th.call with
  | false =>
    rw [notes_other hc] at hmem
    cases hmem
  | true =>
    cases hp : th.prog with
    | call => exact hidle (creates_userId hc) (inFlight_of_call hp)
    | ret d =>
      cases hs : stored u th.history with
      | false =>
        rw [notes_eq_nil hs] at hmem
        cases hmem
      | true =>
        obtain ⟨m, hnotes, hlast, -, -⟩ := reach_settled h tid th hth hc hs
        rw [hnotes, mem_singleton] at hmem
        subst hmem
        exact hin (createdIn_iff.mpr ⟨hc, hlast, d, hp, (stored_iff h hth hc hp).mp hs⟩)

theorem quota_exact (h : Reach (step (quotaServer config)) (Orderly config u) (start shared) w) :
    createdSince u w ≤ quotaLimits.tunnelCreationLimit ∧
      ((∀ th ∈ w.threads, th.call.userId = u → ¬ th.InFlight) → w.shared.created u = createdSince u w) := by
  have hx := reach_exact h
  constructor
  · have hle : createdSince u w ≤ (observed (noteStore u) w.threads).count (w.shared.epoch u) := by
      refine countP_le_observed ?_
      intro th hmem hin
      obtain ⟨tid, hth⟩ := List.getElem?_of_mem hmem
      change _ ∈ notes u th
      rw [notes_createdIn h hth hin]
      exact mem_singleton_self _
    have hbounded := hx.bounded
    rw [hx.exact] at hbounded
    exact (Int.ofNat_le.mpr hle).trans hbounded
  · intro hidle
    rw [hx.exact]
    have heq : createdSince u w = (observed (noteStore u) w.threads).count (w.shared.epoch u) := by
      refine countP_eq_observed ?_
      intro th hmem
      obtain ⟨tid, hth⟩ := List.getElem?_of_mem hmem
      exact notes_idle h hth (hidle th hmem) _
    rw [heq]

open FleetingDns.Schedule Schedule

def quiet (w : QuotaPool) : Bool := w.threads.all fun th => th.prog.next.isNone

lemma not_inFlight_of_quiet (hq : quiet w = true) : ∀ th ∈ w.threads, ¬ th.InFlight := by
  intro th hth hf
  have hnone := all_eq_true.mp hq th hth
  rw [Option.isNone_iff_eq_none] at hnone
  rw [Thread.InFlight, hnone] at hf
  cases hf

theorem quota_exact_after_reset : ∃ w,
    Reach (step (quotaServer deployment)) (Orderly deployment alice.id) (Quota.start idle.shared) w ∧
      (∀ th ∈ w.threads, ¬ th.InFlight) ∧ createdSince alice.id w = 1 ∧ w.shared.created alice.id = 1 := by
  obtain ⟨w, hr, hp⟩ := reach_of_check (step (quotaServer deployment)) (Orderly deployment alice.id)
    (Quota.start idle.shared)
    ([arrival "app", arrival "web"] ++ each 0 count ++ each 1 countAgain ++ each 0 (provide 10000 "t1")
      ++ each 1 (provide 10001 "t2") ++ [.arrive (.resetUserUsage alice.id)] ++ each 2 [.plain, .base .plain]
      ++ [arrival "api"] ++ each 3 countAgain ++ each 3 (provide 10002 "t3"))
    (fun w => quiet w && createdSince alice.id w = 1) (by decide +kernel)
  rw [Bool.and_eq_true, decide_eq_true_eq] at hp
  have hidle := not_inFlight_of_quiet hp.1
  have hexact := (quota_exact hr).2 fun th hth _ => hidle th hth
  rw [hp.2] at hexact
  exact ⟨w, hr, hidle, hp.2, hexact⟩

/-- Two creations read the same usage, and the second write loses the first. -/
theorem quota_inexact : ∃ w, Reach (step (quotaServer deployment)) Free (Quota.start idle.shared) w ∧
    (∀ th ∈ w.threads, ¬ th.InFlight) ∧ createdSince alice.id w = 2 ∧ w.shared.created alice.id = 1 := by
  obtain ⟨w, hr, hp⟩ := reach_of_check (step (quotaServer deployment)) Free (Quota.start idle.shared)
    ([arrival "app", arrival "web"] ++ each 0 (count.take 5) ++ each 1 (countAgain.take 2) ++ each 0 (count.drop 5)
      ++ each 1 (countAgain.drop 2) ++ each 0 (provide 10000 "t1") ++ each 1 (provide 10001 "t2"))
    (fun w => quiet w && createdSince alice.id w = 2 && w.shared.created alice.id = 1) (by decide +kernel)
  simp only [Bool.and_eq_true, decide_eq_true_eq] at hp
  obtain ⟨⟨hquiet, hsince⟩, hcreated⟩ := hp
  exact ⟨w, hr, not_inFlight_of_quiet hquiet, hsince, hcreated⟩

end

end FleetingDns.Quota
