import FleetingDns.StoredRecords
namespace FleetingDns.SlotExclusivity

open CommandPrograms ExpiringStore ThreadPool GuardedRuns World

variable {config : Config} {w w' : World} {a : Action}

def portDeadline (n : ℕ) : Ev → Option ℕ
  | ⟨t, .redis (.setNxEx (.port m) _ ttl), .ok true⟩ => if m = n then some (t.before.now + ttl * second) else none
  | _ => none

/-- Every record is stored with a deadline that a port claim of its own creation outlives. -/
def PortOutlivesRecord (w : World) (a : Action) : Prop :=
  ∀ x ∈ w.storing a, ∃ e ∈ x.thread.history, ∃ d ∈ portDeadline x.tunnel.slot e, w.shared.now + x.ttl * second ≤ d

instance : ∀ w a, Decidable (PortOutlivesRecord w a) := by
  intro w a
  unfold PortOutlivesRecord
  infer_instance

lemma portDeadline_some {n d : ℕ} {e : Ev} {h : List Ev} (he : e ∈ h) (hd : portDeadline n e = some d) :
    ∃ ttl t, Reserved h n ttl t ∧ t.before.now + ttl * second = d := by
  unfold portDeadline at hd
  split at hd
  · rename_i t m v ttl
    split_ifs at hd with hm
    subst hm
    exact ⟨ttl, t, ⟨v, he⟩, Option.some.inj hd⟩
  · cases hd

structure Slots (w : World) : Prop where
  held : ∀ (tid : ℕ) (th : CallThread) (n ttl : ℕ) (t : Span Shared), w.threads[tid]? = some th →
    Reserved th.history n ttl t → w.shared.now < t.before.now + ttl * second →
      ∃ v, w.entry (.port n) = some ⟨v, some (t.before.now + ttl * second)⟩
  holder : ∀ (tid1 tid2 : ℕ) (th1 th2 : CallThread) (n ttl1 ttl2 : ℕ) (t1 t2 : Span Shared),
    w.threads[tid1]? = some th1 → w.threads[tid2]? = some th2 →
    Reserved th1.history n ttl1 t1 → Reserved th2.history n ttl2 t2 →
    w.shared.now < t1.before.now + ttl1 * second → w.shared.now < t2.before.now + ttl2 * second → tid1 = tid2
  backed : ∀ id tunnel d, w.entry (.tunnel id) = some ⟨.tunnel tunnel, some d⟩ →
    ∃ (tid : ℕ) (th : CallThread) (ttl : ℕ) (t : Span Shared) (ttl' : ℕ) (t' : Span Shared),
      w.threads[tid]? = some th ∧ Wrote th.history tunnel ttl' t' ∧
      Reserved th.history tunnel.slot ttl t ∧ d ≤ t.before.now + ttl * second

lemma port_kept (hs : Sane config w) (h : step config w a = some w') {n : ℕ} {e : Entry Value}
    (he : w.entry (.port n) = some e) (hl : e.live w.shared.now = true) : w'.entry (.port n) = some e := by
  obtain heq | ⟨-, ⟨e', he', hd⟩, -⟩ | ⟨tid, o, th, c, -, hi, ht, heq⟩ | ⟨_, _, _, -, hk, -⟩ := entry_step h (.port n)
  · rw [heq, he]
  · rw [he, Option.some.injEq] at he'
    rw [← he', hl] at hd
    cases hd
  · have hm := hs.may hi
    cases c with
    | setNxEx => cases ht; rw [heq, he]; rfl
    | get | exist | keys => cases ht
    | set | setEx | del | expire => cases ht; exact absurd (hm _ rfl) (by simp [owned])
  · cases hk

variable {tid : ℕ} {th' : CallThread} {t : Span Shared}

lemma reserved_step (h : step config w a = some w') {n ttl : ℕ} (hth : w'.threads[tid]? = some th')
    (hr : Reserved th'.history n ttl t) :
    (∃ th, w.threads[tid]? = some th ∧ Reserved th.history n ttl t) ∨
      ((∃ o, a = .exec tid o) ∧ w.entry (.port n) = none ∧ t.before.now = w.shared.now ∧
        ∃ v, w'.entry (.port n) = some ⟨v, some (w.shared.now + ttl * second)⟩) := by
  obtain ⟨v, hv⟩ := hr
  obtain ⟨th, hold, -, -, -, hv⟩ | ⟨o, th, rfl, -, -, -, hb, hperf, -, hentry⟩ := event_step h hth hv
  · exact .inl ⟨th, hold, v, hv⟩
  have hb' : t.before = w.shared := hb
  obtain ⟨o', st, hset, hst⟩ := Shared.perform_redis hperf
  obtain ⟨hnone, hsome⟩ := perform_setNxEx hset
  refine .inr ⟨⟨o, rfl⟩, hnone, by rw [hb'], v, (hentry _).trans ?_⟩
  rw [hst]
  exact hsome

lemma held_step (hs : Sane config w) (hi : Slots w) (h : step config w a = some w') {n ttl : ℕ}
    (hth : w'.threads[tid]? = some th') (hr : Reserved th'.history n ttl t)
    (hd : w'.shared.now < t.before.now + ttl * second) :
    ∃ v, w'.entry (.port n) = some ⟨v, some (t.before.now + ttl * second)⟩ := by
  have hnow := now_step h
  obtain ⟨th, hold, hr⟩ | ⟨-, -, ht, v, hv⟩ := reserved_step h hth hr
  · obtain ⟨v, hv⟩ := hi.held tid th n ttl t hold hr (by omega)
    refine ⟨v, port_kept hs h hv ?_⟩
    rw [live_iff]
    rintro d ⟨rfl⟩
    omega
  · exact ⟨v, ht ▸ hv⟩

lemma unheld {th : CallThread} {n ttl : ℕ} (hi : Slots w) (hth : w.threads[tid]? = some th)
    (hr : Reserved th.history n ttl t) (hn : w.entry (.port n) = none) :
    t.before.now + ttl * second ≤ w.shared.now := by
  by_contra hd
  obtain ⟨v, hv⟩ := hi.held tid th n ttl t hth hr (by omega)
  rw [hn] at hv
  cases hv

lemma slots_step (hs : Sane config w) (hi : Slots w) (hg : PortOutlivesRecord w a)
    (h : step config w a = some w') : Slots w' := by
  have hnow := now_step h
  refine ⟨fun tid th n ttl t hth hr hd => held_step hs hi h hth hr hd, ?_, ?_⟩
  · intro tid1 tid2 th1 th2 n ttl1 ttl2 t1 t2 hth1 hth2 hr1 hr2 hd1 hd2
    obtain ⟨u1, hu1, hr1'⟩ | ⟨⟨o1, ha1⟩, hn1, -⟩ := reserved_step h hth1 hr1 <;>
      obtain ⟨u2, hu2, hr2'⟩ | ⟨⟨o2, ha2⟩, hn2, -⟩ := reserved_step h hth2 hr2
    · exact hi.holder tid1 tid2 u1 u2 n ttl1 ttl2 t1 t2 hu1 hu2 hr1' hr2' (by omega) (by omega)
    · have hd := unheld hi hu1 hr1' hn2
      omega
    · have hd := unheld hi hu2 hr2' hn1
      omega
    · rw [ha1] at ha2
      cases ha2
      rfl
  intro id tunnel d he
  obtain he | ⟨tid, o, th, tunnel', ttl', rfl, hiss, hm, heq⟩ := record_step hs h he
  · obtain ⟨tid, th, ttl, t, ttl', t', hth, hw, hr, hd⟩ := hi.backed id tunnel d he
    obtain ⟨th', hth', -, hsub⟩ := thread_kept h hth
    exact ⟨tid, th', ttl, t, ttl', t', hth', hw.mono hsub, hr.mono hsub, hd⟩
  cases heq
  obtain ⟨_, _, _, _, _, -, ht, rfl, -⟩ := hm
  cases ht
  obtain ⟨e, he, d, hd, hle⟩ := hg _ (storing_of_issues hiss)
  obtain ⟨portTtl, t, hr, rfl⟩ := portDeadline_some he hd
  obtain ⟨k, s, r, -, -, -, hth'⟩ := exec_step h hiss
  exact ⟨tid, _, portTtl, t, ttl', ⟨w.shared, s⟩, hth', ⟨r, by simp⟩, hr.mono (by simp), hle⟩

lemma slots_init (now : ℕ) : Slots (init now) := by
  refine ⟨?_, ?_, ?_⟩
  · rintro tid th n ttl t ⟨⟩
  · rintro tid1 tid2 th1 th2 n ttl1 ttl2 t1 t2 ⟨⟩
  · rintro id tunnel d ⟨⟩

lemma reach_slots {now : ℕ} (h : Reach (step config) PortOutlivesRecord (init now) w) : Slots w :=
  h.invariant (fun _ hr => reach_sane hr) (slots_init now) (fun _ _ _ hs hi hg hstep => slots_step hs hi hg hstep)

theorem slot_exclusive {now : ℕ} (h : Reach (step config) PortOutlivesRecord (init now) w) {id1 id2 : String}
    {tunnel1 tunnel2 : Tunnel} (h1 : w.liveRecord id1 = some tunnel1) (h2 : w.liveRecord id2 = some tunnel2)
    (hslot : tunnel1.slot = tunnel2.slot) : id1 = id2 := by
  have hs := reach_sane h
  have hi := reach_slots h
  have hbacked : ∀ {id tunnel}, w.liveRecord id = some tunnel → tunnel.id = id ∧
      ∃ (tid : ℕ) (th : CallThread) (ttl : ℕ) (t : Span Shared) (ttl' : ℕ) (t' : Span Shared),
        w.threads[tid]? = some th ∧ Wrote th.history tunnel ttl' t' ∧ Reserved th.history tunnel.slot ttl t ∧
          w.shared.now < t.before.now + ttl * second := by
    intro id tunnel hlive
    obtain ⟨e, he, hl, hv⟩ := liveRecord_some hlive
    obtain ⟨tunnel', d, rfl, hid, -⟩ := hs.record id e he
    cases hv
    obtain ⟨tid, th, ttl, t, ttl', t', hth, hw, hr, hd⟩ := hi.backed id tunnel d he
    have hnow : w.shared.now < d := live_iff.mp hl d rfl
    exact ⟨hid, tid, th, ttl, t, ttl', t', hth, hw, hr, by omega⟩
  obtain ⟨rfl, tid1, th1, ttl1, t1, ttl1', t1', hth1, hw1, hr1, hd1⟩ := hbacked h1
  obtain ⟨rfl, tid2, th2, ttl2, t2, ttl2', t2', hth2, hw2, hr2, hd2⟩ := hbacked h2
  obtain rfl := hi.holder tid1 tid2 th1 th2 _ ttl1 ttl2 t1 t2 hth1 hth2 hr1 (hslot ▸ hr2) hd1 hd2
  rw [hth1, Option.some.injEq] at hth2
  subst hth2
  rw [(hs.once hth1 hw1 hw2).1]

open Schedule

theorem slot_exclusive_created : ∃ w tunnel1 tunnel2, Reach (step deployment) PortOutlivesRecord start w ∧
    w.liveRecord "a" = some tunnel1 ∧ w.liveRecord "b" = some tunnel2 ∧ tunnel1.slot ≠ tunnel2.slot := by
  obtain ⟨w, hr, hp⟩ := reach_of_check (step deployment) PortOutlivesRecord start
    (.arrive (.createTunnel alice (request 1800 "demo")) :: create 0 10000 "a" "ka"
      ++ .arrive (.createTunnel bob (request 1800 "shop")) :: create 1 10001 "b" "kb")
    (fun w => (w.liveRecord "a").isSome && (w.liveRecord "b").isSome) (by decide +kernel)
  simp only [Bool.and_eq_true, Option.isSome_iff_exists] at hp
  obtain ⟨⟨tunnel1, h1⟩, tunnel2, h2⟩ := hp
  refine ⟨w, tunnel1, tunnel2, hr, h1, h2, ?_⟩
  intro hslot
  have hid : "a" = "b" := slot_exclusive hr h1 h2 hslot
  exact absurd hid (by decide)

/-- The port claim lives as long as the certificate, the record as long as the request asks. -/
theorem slot_shared : ∃ w, Reach (step deployment) Free start w ∧ ∃ id1 id2 tunnel1 tunnel2, id1 ≠ id2 ∧
    w.liveRecord id1 = some tunnel1 ∧ w.liveRecord id2 = some tunnel2 ∧ tunnel1.slot = tunnel2.slot := by
  obtain ⟨w, hr, hp⟩ := started
    (.arrive (.createTunnel alice (request 7200 "demo")) :: create 0 10000 "a" "ka"
      ++ [.tick (1801 * second), .lapse (.port 10000), .arrive (.createTunnel bob (request 3600 "shop"))]
      ++ create 1 10000 "b" "kb")
    (fun w => (w.liveRecord "a").any (·.slot = 10000) && (w.liveRecord "b").any (·.slot = 10000)) (by decide +kernel)
  simp only [Bool.and_eq_true, Option.any_eq_true, decide_eq_true_eq] at hp
  obtain ⟨⟨tunnel1, h1, hs1⟩, tunnel2, h2, hs2⟩ := hp
  exact ⟨w, hr, "a", "b", tunnel1, tunnel2, by decide, h1, h2, hs1.trans hs2.symm⟩

end FleetingDns.SlotExclusivity
