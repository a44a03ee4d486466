import FleetingDns.WorldSteps
namespace FleetingDns.World

open CommandPrograms ExpiringStore ThreadPool GuardedRuns

variable {config : Config} {w w' : World} {a : Action}

/-- What holds of every reachable world, whatever the schedule. -/
structure Sane (config : Config) (w : World) : Prop where
  disciplined : Disciplined (May config) Ends w.threads
  performed : ∀ (tid : ℕ) (th : CallThread) (e : Ev), w.threads[tid]? = some th → e ∈ th.history →
    (∃ o, e.span.before.perform config th.call e.cmd o = some (e.span.after, e.reply)) ∧
      e.span.before.now ≤ w.shared.now
  permitted : ∀ (tid : ℕ) (th : CallThread), w.threads[tid]? = some th → Permitted (May config th.call) th.history
  record : ∀ id e, w.entry (.tunnel id) = some e → ∃ tunnel d, e = ⟨.tunnel tunnel, some d⟩ ∧ tunnel.id = id ∧
    10000 ≤ tunnel.slot ∧ tunnel.slot ≤ 65535

variable {tid : ℕ} {th : CallThread} {tunnel : Tunnel} {id : String}

lemma Sane.may (hs : Sane config w) {c : Cmd} (hi : w.Issues tid th c) : May config th.call th.history c := by
  obtain ⟨hth, k, hk⟩ := hi
  exact hs.disciplined.may hth hk

section

variable {M : Call → List Ev → Cmd → Prop} {E : Call → List Ev → Done → Prop}

lemma disciplined_step (hcall : ∀ call, Obeys (M call) (E call) (call.program config) [])
    (hd : Disciplined M E w.threads) (h : step config w a = some w') : Disciplined M E w'.threads := by
  intro tid th' hth hf
  obtain ⟨hth, -⟩ | ⟨call, -, -, -, rfl⟩ | ⟨o, th, c, k, s, r, -, hold, hp, -, -, rfl⟩ | ⟨th, -, -, rfl⟩ :=
    thread_step h hth
  · exact hd tid th' hth hf
  · exact hcall call
  · exact hd.advance hold hp _ r
  · exact absurd hf (Thread.stop_not_inFlight th _)

variable {tid now : ℕ} {G : World → Action → Prop}

lemma permitted_step (hd : Disciplined M E w.threads)
    (hp : ∀ (tid : ℕ) th, w.threads[tid]? = some th → Permitted (M th.call) th.history)
    (h : step config w a = some w') {th' : CallThread} (hth : w'.threads[tid]? = some th') :
    Permitted (M th'.call) th'.history := by
  obtain ⟨hth, -⟩ | ⟨call, -, -, -, rfl⟩ | ⟨o, th, c, k, s, r, -, hold, hprog, -, -, rfl⟩ | ⟨th, -, hold, rfl⟩ :=
    thread_step h hth
  · exact hp tid th' hth
  · intro h1 e h2 heq
    simp at heq
  · exact permitted_snoc (hp tid th hold) (hd.may hold hprog)
  · exact hp tid th hold

section

variable (hcall : ∀ call, Obeys (M call) (E call) (call.program config) []) (h : Reach (step config) G (init now) w)

include hcall h

lemma reach_disciplined : Disciplined M E w.threads := by
  induction h with
  | refl => rintro tid th ⟨⟩
  | tail _ _ hstep ih => exact disciplined_step hcall ih hstep

lemma reach_permitted {th : CallThread} (hth : w.threads[tid]? = some th) : Permitted (M th.call) th.history := by
  induction h generalizing tid th with
  | refl => cases hth
  | tail hr _ hstep ih => exact permitted_step (reach_disciplined hcall hr) (fun _ _ => ih) hstep hth

end

end

lemma performed_step (hs : Sane config w) (h : step config w a = some w') {th' : CallThread} {e : Ev}
    (hth : w'.threads[tid]? = some th') (he : e ∈ th'.history) :
    (∃ o, e.span.before.perform config th'.call e.cmd o = some (e.span.after, e.reply)) ∧
      e.span.before.now ≤ w'.shared.now := by
  have hnow := now_step h
  obtain ⟨th, hold, hcall, -, -, he⟩ | ⟨o, th, -, -, hcall, -, hb, hperf, -⟩ := event_step h hth he
  · obtain ⟨ho, ht⟩ := hs.performed tid th e hold he
    exact ⟨hcall ▸ ho, by omega⟩
  · rw [hb, ← hcall]
    exact ⟨⟨o, hperf⟩, hnow⟩

lemma Sane.once (hs : Sane config w) {tunnel' : Tunnel} {ttl ttl' : ℕ} {t t' : Span Shared}
    (hth : w.threads[tid]? = some th) (hw : Wrote th.history tunnel ttl t) (hw' : Wrote th.history tunnel' ttl' t') :
    tunnel = tunnel' ∧ ttl = ttl' ∧ t = t' := by
  obtain ⟨r, hr⟩ := hw
  obtain ⟨r', hr'⟩ := hw'
  obtain heq | ⟨l, hl, hm⟩ | ⟨l, hl, hm⟩ := permitted_order (hs.permitted tid th hth) hr hr'
  · simp only [Event.mk.injEq, Cmd.redis.injEq, StoreCmd.setEx.injEq, Value.tunnel.injEq] at heq
    exact ⟨heq.2.1.2.1, heq.2.1.2.2, heq.1⟩
  · obtain ⟨_, _, _, _, _, -, -, -, -, hu, -⟩ := hm
    exact absurd (hu _ hl) (by simp [Cmd.publishes])
  · obtain ⟨_, _, _, _, _, -, -, -, -, hu, -⟩ := hm
    exact absurd (hu _ hl) (by simp [Cmd.publishes])

section

variable (hs : Sane config w) (h : step config w a = some w')

include hs h

lemma record_step {e : Entry Value} (he : w'.entry (.tunnel id) = some e) :
    w.entry (.tunnel id) = some e ∨ ∃ tid o th tunnel ttl, a = .exec tid o ∧
      w.Issues tid th (.redis (.setEx (.tunnel id) (.tunnel tunnel) ttl)) ∧
      MayStoreRecord th.call th.history id (.tunnel tunnel) ∧
      e = ⟨.tunnel tunnel, some (w.shared.now + ttl * second)⟩ := by
  obtain heq | ⟨-, -, hnone⟩ | ⟨tid, o, th, c, rfl, hi, ht, heq⟩ | ⟨_, _, _, -, hk, -⟩ := entry_step h (.tunnel id)
  · exact .inl (heq ▸ he)
  · rw [hnone] at he; cases he
  · have hm := hs.may hi
    cases c with
    | setEx k v ttl =>
      cases ht
      obtain ⟨user, request, tunnel, _, _, hcall, rfl, hid, hrest⟩ := hm
      rw [heq] at he
      cases he
      exact .inr ⟨tid, o, th, tunnel, ttl, rfl, hi, ⟨user, request, tunnel, _, _, hcall, rfl, hid, hrest⟩, rfl⟩
    | del => cases ht; rw [heq] at he; cases he
    | get | exist | keys => cases ht
    | set | setNxEx | expire => cases ht; exact absurd (hm _ rfl) (by simp [owned])
  · cases hk

lemma reads_step (hth : w'.threads[tid]? = some th) (hr : Read th.history id tunnel) :
    (∃ u, w.threads[tid]? = some u ∧ u.call = th.call ∧ (th.InFlight → u.InFlight) ∧ Read u.history id tunnel) ∨
      tunnel.id = id ∧ ∃ d, w.entry (.tunnel id) = some ⟨.tunnel tunnel, some d⟩ := by
  obtain ⟨t, ht⟩ := hr
  obtain ⟨u, hu, hcall, hflight, -, ht⟩ | ⟨o, u, -, -, -, -, -, hperf, -, -⟩ := event_step h hth ht
  · exact .inl ⟨u, hu, hcall, hflight, t, ht⟩
  · obtain ⟨e, he, hv⟩ := Option.map_eq_some_iff.mp (got_entry hperf).symm
    obtain ⟨tunnel', d, rfl, hid, -⟩ := hs.record id e he
    cases hv
    exact .inr ⟨hid, d, he⟩

lemma sane_step : Sane config w' := by
  refine ⟨disciplined_step (HandlerDisciplines.call_obeys config) hs.disciplined h,
    fun tid th e hth he => performed_step hs h hth he, fun tid th hth => permitted_step hs.disciplined hs.permitted h hth, ?_⟩
  intro id e he
  obtain he | ⟨tid, o, th, tunnel, ttl, -, -, hm, rfl⟩ := record_step hs h he
  · exact hs.record id e he
  · obtain ⟨_, _, t, _, _, -, ht, hid, -, -, -, -, -, hslot⟩ := hm
    cases ht
    exact ⟨tunnel, _, rfl, hid, hslot⟩

end

lemma sane_init (config : Config) (now : ℕ) : Sane config (init now) := by
  refine ⟨?_, ?_, ?_, ?_⟩
  · rintro tid th ⟨⟩
  · rintro tid th e ⟨⟩
  · rintro tid th ⟨⟩
  · rintro id e ⟨⟩

lemma reach_sane {G : World → Action → Prop} {now : ℕ} (h : Reach (step config) G (init now) w) : Sane config w := by
  induction h with
  | refl => exact sane_init config now
  | tail _ _ hstep ih => exact sane_step ih hstep

structure Storing where
  thread : CallThread
  tunnel : Tunnel
  ttl : ℕ

def storing (w : World) : Action → Option Storing
  | .exec tid _ => w.threads[tid]?.bind fun th => match th.prog.next with
    | some (.redis (.setEx (.tunnel _) (.tunnel tunnel) ttl)) => some ⟨th, tunnel, ttl⟩
    | _ => none
  | _ => none

lemma storing_of_issues {o : Choice} {ttl : ℕ}
    (hi : w.Issues tid th (.redis (.setEx (.tunnel id) (.tunnel tunnel) ttl))) :
    w.storing (.exec tid o) = some ⟨th, tunnel, ttl⟩ := by
  obtain ⟨hth, k, hk⟩ := hi
  simp [storing, hth, Prog.next_isSome hk]

def liveRecord (w : World) (id : String) : Option Tunnel :=
  (w.entry (.tunnel id)).bind fun e => if e.live w.shared.now then e.value.asTunnel else none

lemma liveRecord_some (h : w.liveRecord id = some tunnel) :
    ∃ e, w.entry (.tunnel id) = some e ∧ e.live w.shared.now = true ∧ e.value = .tunnel tunnel := by
  obtain ⟨e, he, ht⟩ := Option.bind_eq_some_iff.mp h
  split_ifs at ht with hl
  exact ⟨e, he, hl, Value.asTunnel_some ht⟩

lemma record_id (hs : Sane config w) (h : w.liveRecord id = some tunnel) : tunnel.id = id := by
  obtain ⟨e, he, -, hv⟩ := liveRecord_some h
  obtain ⟨_, _, rfl, hid, -⟩ := hs.record id e he
  cases hv
  exact hid

lemma live_step (hs : Sane config w) (h : step config w a = some w') (hl : w'.liveRecord id = some tunnel) :
    (w.liveRecord id = some tunnel ∧ w'.entry (.tunnel id) = w.entry (.tunnel id)) ∨
      ∃ tid o th ttl, a = .exec tid o ∧ w.Issues tid th (.redis (.setEx (.tunnel id) (.tunnel tunnel) ttl)) ∧
        MayStoreRecord th.call th.history id (.tunnel tunnel) ∧
        w'.entry (.tunnel id) = some ⟨.tunnel tunnel, some (w.shared.now + ttl * second)⟩ := by
  obtain ⟨e, he, hlive, hv⟩ := liveRecord_some hl
  have hnow := now_step h
  obtain hold | ⟨tid, o, th, t, ttl, ha, hi, hm, rfl⟩ := record_step hs h he
  · refine .inl ⟨?_, he.trans hold.symm⟩
    have hlive' : e.live w.shared.now = true := by
      rw [live_iff] at hlive ⊢
      intro d hd
      have := hlive d hd
      omega
    simp [liveRecord, hold, hlive', hv, Value.asTunnel]
  · cases hv
    exact .inr ⟨tid, o, th, ttl, ha, hi, hm, he⟩

end FleetingDns.World
