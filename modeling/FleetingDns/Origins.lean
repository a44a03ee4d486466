import FleetingDns.StoredRecords
namespace FleetingDns

open CommandPrograms ExpiringStore ThreadPool GuardedRuns World

def Origins.Written (w : World) (tunnel : Tunnel) : Prop :=
  ∃ (tid : ℕ) (th : CallThread) (ttl : ℕ) (t : Span Shared), w.threads[tid]? = some th ∧ Wrote th.history tunnel ttl t

/-- Where identifiers, records and index entries come from, in every reachable world. -/
structure Origins (w : World) : Prop where
  used : ∀ (tid : ℕ) (th : CallThread) (id : String), w.threads[tid]? = some th → Named th.history id →
    id ∈ w.shared.usedIds
  namer : ∀ (i j : ℕ) (th u : CallThread) (id : String), w.threads[i]? = some th → w.threads[j]? = some u →
    Named th.history id → Named u.history id → i = j
  stored : ∀ id tunnel d, w.entry (.tunnel id) = some ⟨.tunnel tunnel, d⟩ → Origins.Written w tunnel
  read : ∀ (tid : ℕ) (th : CallThread) (id : String) (tunnel : Tunnel), w.threads[tid]? = some th →
    Read th.history id tunnel → Origins.Written w tunnel ∧ tunnel.id = id
  indexed : ∀ name e, w.entry (.subdomain name) = some e →
    ∃ tunnel, Origins.Written w tunnel ∧ tunnel.subdomain = name ∧ e.value = .text tunnel.id
  deleted : ∀ (tid : ℕ) (th : CallThread) (id : String), w.threads[tid]? = some th → Deleted th.history id →
    w.entry (.tunnel id) = none

namespace Origins

variable {config : Config} {w w' : World} {a : Action} {tid : ℕ} {th : CallThread} {id name : String} {tunnel : Tunnel}

lemma written_step (h : step config w a = some w') (hw : Written w tunnel) : Written w' tunnel := by
  obtain ⟨tid, th, ttl, t, hth, hw⟩ := hw
  obtain ⟨th', hth', -, hsub⟩ := thread_kept h hth
  exact ⟨tid, th', ttl, t, hth', hw.mono hsub⟩

lemma wrote_named (hs : Sane config w) (hth : w.threads[tid]? = some th) {ttl : ℕ} {t : Span Shared}
    (hw : Wrote th.history tunnel ttl t) : Named th.history tunnel.id := by
  obtain ⟨r, hr⟩ := hw
  obtain ⟨h1, h2, heq⟩ := List.append_of_mem hr
  obtain ⟨_, _, _, _, _, -, -, -, -, -, hn, -⟩ := hs.permitted tid th hth h1 _ h2 heq
  rw [heq]
  exact hn.mono (by simp)

lemma written_slot (hs : Sane config w) (h : Written w tunnel) : 10000 ≤ tunnel.slot ∧ tunnel.slot ≤ 65535 := by
  obtain ⟨tid, th, ttl, t, hth, r, hr⟩ := h
  obtain ⟨h1, h2, heq⟩ := List.append_of_mem hr
  obtain ⟨_, _, _, _, _, -, ht, -, -, -, -, -, -, hslot⟩ := hs.permitted tid th hth h1 _ h2 heq
  cases ht
  exact hslot

lemma written_unique (hs : Sane config w) (ho : Origins w) {tunnel1 tunnel2 : Tunnel} (h1 : Written w tunnel1)
    (h2 : Written w tunnel2) (hid : tunnel1.id = tunnel2.id) : tunnel1 = tunnel2 := by
  obtain ⟨i, th, ttl1, t1, hth, hw1⟩ := h1
  obtain ⟨j, u, ttl2, t2, hu, hw2⟩ := h2
  obtain rfl := ho.namer i j th u _ hth hu (wrote_named hs hth hw1) (hid ▸ wrote_named hs hu hw2)
  rw [hth, Option.some.injEq] at hu
  subst hu
  exact (hs.once hth hw1 hw2).1

lemma named_step (h : step config w a = some w') {th' : CallThread} (hth : w'.threads[tid]? = some th')
    (hn : Named th'.history id) : (∃ th, w.threads[tid]? = some th ∧ Named th.history id) ∨
      ((∃ o, a = .exec tid o) ∧ id ∉ w.shared.usedIds ∧ id ∈ w'.shared.usedIds) := by
  obtain ⟨t, ht⟩ := hn
  obtain ⟨th, hth, -, -, -, ht⟩ | ⟨o, th, ha, -, -, -, -, hperf, hused, -⟩ := event_step h hth ht
  · exact .inl ⟨th, hth, t, ht⟩
  · obtain ⟨hnew, hs⟩ := Shared.perform_uuid hperf
    refine .inr ⟨⟨o, ha⟩, hnew, ?_⟩
    rw [hused, hs]
    exact List.mem_cons_self

lemma namer_step (ho : Origins w) (h : step config w a = some w') {i j : ℕ} {th u : CallThread}
    (hi : w'.threads[i]? = some th) (hj : w'.threads[j]? = some u) (hth : Named th.history id)
    (hu : Named u.history id) : i = j := by
  obtain ⟨th0, hi, hth⟩ | ⟨⟨o, ha⟩, hnew, -⟩ := named_step h hi hth <;>
    obtain ⟨u0, hj, hu⟩ | ⟨⟨o', ha'⟩, hnew', -⟩ := named_step h hj hu
  · exact ho.namer i j th0 u0 id hi hj hth hu
  · exact absurd (ho.used i th0 id hi hth) hnew'
  · exact absurd (ho.used j u0 id hj hu) hnew
  · rw [ha] at ha'
    cases ha'
    rfl

section

variable (hs : Sane config w) (ho : Origins w) (h : step config w a = some w')

include hs ho h

lemma stored_step {d : Option ℕ} (he : w'.entry (.tunnel id) = some ⟨.tunnel tunnel, d⟩) : Written w' tunnel := by
  obtain he | ⟨tid, o, th, tunnel', ttl, rfl, hi, hm, heq⟩ := record_step hs h he
  · exact written_step h (ho.stored id tunnel d he)
  · cases heq
    obtain ⟨_, _, _, _, _, -, ht, rfl, -⟩ := hm
    cases ht
    obtain ⟨k, s, r, -, -, -, hth⟩ := exec_step h hi
    exact ⟨tid, _, ttl, ⟨w.shared, s⟩, hth, r, by simp⟩

lemma read_step (hth : w'.threads[tid]? = some th) (hr : Read th.history id tunnel) :
    Written w' tunnel ∧ tunnel.id = id := by
  obtain ⟨u, hu, -, -, hr⟩ | ⟨hid, d, he⟩ := reads_step hs h hth hr
  · obtain ⟨hw, hid⟩ := ho.read tid u id tunnel hu hr
    exact ⟨written_step h hw, hid⟩
  · exact ⟨written_step h (ho.stored id tunnel _ he), hid⟩

lemma indexed_step {e : Entry Value} (he : w'.entry (.subdomain name) = some e) :
    ∃ tunnel, Written w' tunnel ∧ tunnel.subdomain = name ∧ e.value = .text tunnel.id := by
  have hkept : ∀ e', w.entry (.subdomain name) = some e' → e'.value = e.value →
      ∃ tunnel, Written w' tunnel ∧ tunnel.subdomain = name ∧ e.value = .text tunnel.id := by
    intro e' he' hv
    obtain ⟨tunnel, hw, hn, ht⟩ := ho.indexed name e' he'
    exact ⟨tunnel, written_step h hw, hn, hv ▸ ht⟩
  obtain heq | ⟨-, -, hnone⟩ | ⟨tid, o, th, c, -, hi, ht, heq⟩ | ⟨_, _, _, -, hk, -⟩ := entry_step h (.subdomain name)
  · exact hkept e (heq ▸ he) rfl
  · rw [hnone] at he
    cases he
  · have hm := hs.may hi
    rw [heq] at he
    cases c with
    | setNxEx k v ttl =>
      cases ht
      obtain ⟨user, request, tunnel, t, -, hw, hn, rfl, -⟩ := hm
      cases hold : w.entry (.subdomain name) with
      | none =>
        rw [hold] at he
        cases he
        exact ⟨tunnel, written_step h ⟨tid, th, ttl, t, hi.1, hw⟩, hn, rfl⟩
      | some =>
        rw [hold] at he
        cases he
        exact hkept _ hold rfl
    | expire =>
      simp only [StoreCmd.entry] at he
      split_ifs at he
      obtain ⟨e', he', rfl⟩ := Option.map_eq_some_iff.mp he
      exact hkept e' he' rfl
    | get | exist | keys => cases ht
    | set | setEx => cases ht; exact absurd (hm _ rfl) (by simp [owned])
    | del => cases he
  · cases hk

lemma deleted_step (hth : w'.threads[tid]? = some th) (hd : Deleted th.history id) :
    w'.entry (.tunnel id) = none := by
  obtain ⟨t, x, ht⟩ := hd
  obtain ⟨u, hu, -, -, -, hd⟩ | ⟨o, u, -, -, -, -, -, hperf, -, hentry⟩ := event_step h hth ht
  · cases he : w'.entry (.tunnel id) with
    | none => rfl
    | some =>
      have hnone := ho.deleted tid u id hu ⟨t, x, hd⟩
      obtain hold | ⟨j, o, u', tunnel, ttl, -, hi, hm, -⟩ := record_step hs h he
      · rw [hnone] at hold
        cases hold
      -- the deletion read a record under this identifier, which its creation has stored already
      obtain ⟨h1, h2, heq⟩ := List.append_of_mem hd
      obtain ⟨-, tunnel', hr⟩ := hs.permitted tid u hu h1 _ h2 heq
      obtain ⟨⟨i, v, ttl', t', hv, hw⟩, hid⟩ := ho.read tid u id tunnel' hu (hr.mono (by rw [heq]; simp))
      obtain ⟨_, _, _, _, _, -, -, rfl, -, hun, hn, -⟩ := hm
      obtain rfl := ho.namer i j v u' _ hv hi.1 (hid ▸ wrote_named hs hv hw) hn
      rw [hi.1, Option.some.injEq] at hv
      subst hv
      exact absurd hun hw.published
  · obtain ⟨o', st, hp, hs'⟩ := Shared.perform_redis hperf
    have hdel := perform_del hp
    rw [hentry, hs']
    exact hdel

lemma origins_step : Origins w' := by
  refine ⟨?_, ?_, ?_, ?_, ?_, ?_⟩
  · intro tid th id hth hn
    obtain ⟨u, hu, hn⟩ | ⟨-, -, hid⟩ := named_step h hth hn
    · exact used_step h (ho.used tid u id hu hn)
    · exact hid
  · intro i j th u id hi hj hth hu
    exact namer_step ho h hi hj hth hu
  · intro id tunnel d he
    exact stored_step hs ho h he
  · intro tid th id tunnel hth hr
    exact read_step hs ho h hth hr
  · intro name e he
    exact indexed_step hs ho h he
  · intro tid th id hth hd
    exact deleted_step hs ho h hth hd

end

lemma origins_init (now : ℕ) : Origins (init now) := by
  refine ⟨?_, ?_, ?_, ?_, ?_, ?_⟩
  · rintro tid th id ⟨⟩
  · rintro i j th u id ⟨⟩
  · rintro id tunnel d ⟨⟩
  · rintro tid th id tunnel ⟨⟩
  · rintro name e ⟨⟩
  · rintro tid th id ⟨⟩

lemma reach_origins {G : World → Action → Prop} {now : ℕ} (h : Reach (step config) G (init now) w) : Origins w :=
  h.invariant (fun _ hr => reach_sane hr) (origins_init now) (fun _ _ _ hs ho _ hstep => origins_step hs ho hstep)

end Origins

end FleetingDns
