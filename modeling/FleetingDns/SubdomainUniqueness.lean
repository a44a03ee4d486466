import FleetingDns.SubdomainClaims
namespace FleetingDns.SubdomainUniqueness

open CommandPrograms ExpiringStore ThreadPool GuardedRuns World SubdomainClaims Option

variable {config : Config} {w w' : World} {a : Action} {name : String} {th : CallThread} {tid : ℕ} {o : Choice}

/-- What the history of a creation or deletion says about the live records of a name: at most the given one. -/
inductive Bounds (call : Call) (h : List Ev) (name : String) : Option String → Prop
  | held {v : Value} {id : String} : isCreate call = true → Unpublished h → Got h (.subdomain name) (some v) →
      v.asText = some id → Bounds call h name (some id)
  | free : isCreate call = true → Unpublished h → Available h name → Bounds call h name none
  | stored {tunnel : Tunnel} {ttl : ℕ} {t : Span Shared} : isCreate call = true → Wrote h tunnel ttl t →
      tunnel.subdomain = name → Bounds call h name (some tunnel.id)
  | read {id : String} {tunnel : Tunnel} : isDelete call = true → Read h id tunnel → tunnel.subdomain = name →
      Bounds call h name (some id)
  | deleted {id id' : String} {tunnel : Tunnel} : isDelete call = true → Read h id tunnel →
      tunnel.subdomain = name → Deleted h id' → Bounds call h name none

def Indexed (w : World) (id : String) (tunnel : Tunnel) : Prop :=
  (∃ (tid : ℕ) (th : CallThread) (ttl : ℕ) (t : Span Shared), w.threads[tid]? = some th ∧ th.InFlight ∧
    Wrote th.history tunnel ttl t ∧ Unclaimed th.history ∧
    w.entry (.tunnel id) = some ⟨.tunnel tunnel, some (t.before.now + ttl * second)⟩) ∨
  ∃ d d', w.entry (.tunnel id) = some ⟨.tunnel tunnel, some d⟩ ∧
    w.entry (.subdomain tunnel.subdomain) = some ⟨.text id, some d'⟩ ∧ d ≤ d'

structure Claims (w : World) : Prop where
  alone : ∀ (i j : ℕ) (th u : CallThread) (name : String), w.threads[i]? = some th → w.threads[j]? = some u →
    creates name th = true → creates name u = true ∨ deletes name u = true → i = j
  won : ∀ (tid : ℕ) (th : CallThread) (t : Span Shared) (name : String) (v : Value) (ttl : ℕ) (r : Except String Bool),
    w.threads[tid]? = some th → th.InFlight →
    (⟨t, .redis (.setNxEx (.subdomain name) v ttl), r⟩ : Ev) ∈ th.history → r = .ok true
  bounded : ∀ (tid : ℕ) (th : CallThread) (name : String) (allowed : Option String), w.threads[tid]? = some th →
    th.InFlight → Bounds th.call th.history name allowed →
    ∀ id tunnel, w.liveRecord id = some tunnel → tunnel.subdomain = name → allowed = some id
  indexed : ∀ id tunnel, w.liveRecord id = some tunnel → Indexed w id tunnel

variable {allowed : Option String} {id : String} {tunnel : Tunnel} {i ttl : ℕ} {th' : CallThread} {v : Value}
    {t : Span Shared} {r : Except String Bool} {s : Shared}

lemma Bounds.engaged (hs : Sane config w) (hth : w.threads[tid]? = some th) (hf : th.InFlight)
    (hb : Bounds th.call th.history name allowed) : creates name th = true ∨ deletes name th = true := by
  rw [creates_iff, deletes_iff]
  cases hb with
  | held hc hu hg =>
    obtain ⟨t, ht⟩ := hg
    exact .inl ⟨hc, hf, t, _, ht⟩
  | free hc hu ha => exact .inl ⟨hc, hf, asked_of_available ha⟩
  | stored hc hw hn => exact .inl ⟨hc, hf, hn ▸ (wrote_asked hs hth hw).2⟩
  | read hd hr hn | deleted hd hr hn => exact .inr ⟨hd, hf, _, _, hr, hn⟩

lemma storer_creates {c : Cmd} (hi : w.Issues tid th c) (hm : MayStoreRecord th.call th.history id (.tunnel tunnel)) :
    creates tunnel.subdomain th = true := by
  obtain ⟨user, request, _, _, _, hcall, ht, -, -, -, -, ha, -⟩ := hm
  cases ht
  exact creates_iff.mpr ⟨isCreate_iff.mpr ⟨user, request, hcall⟩, hi.inFlight, asked_of_available ha⟩

lemma creates_step (h : step config w a = some w') (hth : w'.threads[i]? = some th') (hc : creates name th' = true) :
    (∃ th, w.threads[i]? = some th ∧ creates name th = true) ∨
      ∃ o th, a = .exec i o ∧ w.Issues i th (.redis (.get (.subdomain name))) ∧ isCreate th.call = true := by
  obtain ⟨hcall, hf, t, r, ht⟩ := creates_iff.mp hc
  obtain ⟨th, hold, hcall', hf', -, ht⟩ | ⟨o, th, ha, hi, hcall', -⟩ := event_step h hth ht
  · exact .inl ⟨th, hold, creates_iff.mpr ⟨hcall' ▸ hcall, hf' hf, t, r, ht⟩⟩
  · exact .inr ⟨o, th, ha, hi, hcall' ▸ hcall⟩

lemma deletes_step (h : step config w a = some w') (hth : w'.threads[i]? = some th') (hd : deletes name th' = true) :
    (∃ th, w.threads[i]? = some th ∧ deletes name th = true) ∨
      ∃ o th id e tunnel, a = .exec i o ∧ w.Issues i th (.redis (.get (.tunnel id))) ∧ isDelete th.call = true ∧
        w.entry (.tunnel id) = some e ∧ e.value = .tunnel tunnel ∧ tunnel.subdomain = name := by
  obtain ⟨hcall, hf, id, tunnel, ⟨t, ht⟩, hn⟩ := deletes_iff.mp hd
  obtain ⟨th, hold, hcall', hf', -, ht⟩ | ⟨o, th, ha, hi, hcall', -, -, hperf, -⟩ := event_step h hth ht
  · exact .inl ⟨th, hold, deletes_iff.mpr ⟨hcall' ▸ hcall, hf' hf, id, tunnel, ⟨t, ht⟩, hn⟩⟩
  · obtain ⟨e, he, hv⟩ := map_eq_some_iff.mp (got_entry hperf).symm
    exact .inr ⟨o, th, id, e, tunnel, ha, hi, hcall' ▸ hcall, he, hv, hn⟩

lemma alone_step (hc : Claims w) (hg : Undisturbed config w a) (h : step config w a = some w') {j : ℕ}
    {u' : CallThread} (hi : w'.threads[i]? = some th') (hj : w'.threads[j]? = some u') (hth : creates name th' = true)
    (hu : creates name u' = true ∨ deletes name u' = true) : i = j := by
  have hclash : ∀ {i j : ℕ} {o : Choice} {th u : CallThread}, a = .exec i o →
      w.Issues i th (.redis (.get (.subdomain name))) → isCreate th.call = true → w.threads[j]? = some u →
      creates name u = true ∨ deletes name u = true → i = j := by
    intro i j o th u ha hiss hcall huj hu
    subst ha
    by_contra hne
    obtain ⟨hnc, hnd⟩ := asks_alone hg hiss hcall (Ne.symm hne) huj
    rw [hnc, hnd] at hu
    simp at hu
  obtain ⟨th, hold, hth⟩ | ⟨o, th, ha, hiss, hcall⟩ := creates_step h hi hth
  · obtain hu | hu := hu
    · obtain ⟨u, huj, hu⟩ | ⟨o, u, ha, hiss, hcall⟩ := creates_step h hj hu
      · exact hc.alone i j th u name hold huj hth (.inl hu)
      · exact (hclash ha hiss hcall hold (.inl hth)).symm
    · obtain ⟨u, huj, hu⟩ | ⟨o, u, id, e, tunnel, rfl, hiss, hcall, he, hv, rfl⟩ := deletes_step h hj hu
      · exact hc.alone i j th u name hold huj hth (.inr hu)
      · rw [(reads_live hg hiss hcall he).2 tunnel hv i th hold] at hth
        cases hth
  obtain hu | hu := hu
  · obtain ⟨u, huj, hu⟩ | ⟨o', u, ha', -⟩ := creates_step h hj hu
    · exact hclash ha hiss hcall huj (.inl hu)
    · rw [ha] at ha'
      cases ha'
      rfl
  · obtain ⟨u, huj, hu⟩ | ⟨o', u, _, _, _, ha', -⟩ := deletes_step h hj hu
    · exact hclash ha hiss hcall huj (.inr hu)
    · rw [ha] at ha'
      cases ha'
      rfl

lemma claim_publishing (hm : MayClaimSubdomain th.call th.history name v ttl) (c : Cmd) :
    publishing th c = true := by
  obtain ⟨user, request, tunnel, t, hcall, hw, -, -, hu, -⟩ := hm
  have hc := isCreate_iff.mpr ⟨user, request, hcall⟩
  simp [publishing, hc, hu, hw.published]

section

variable (hs : Sane config w) (hc : Claims w)

include hs hc

lemma won_step (hg : Undisturbed config w a) (h : step config w a = some w') (hth : w'.threads[tid]? = some th')
    (hf : th'.InFlight) (he : ⟨t, .redis (.setNxEx (.subdomain name) v ttl), r⟩ ∈ th'.history) :
    r = .ok true := by
  obtain ⟨th, hold, -, hf', -, he⟩ | ⟨o, th, rfl, hi, -, -, -, hperf, -⟩ := event_step h hth he
  · exact hc.won tid th t name v ttl r hold (hf' hf) he
  · have hok := publishes_answered hg hi (claim_publishing (hs.may hi) _) hperf
    cases r with
    | ok => exact congrArg _ hok
    | error => cases hok

lemma indexed_entry (hno : ∀ (j : ℕ) u, w.threads[j]? = some u → creates tunnel.subdomain u = true →
    Unpublished u.history) (hl : w.liveRecord id = some tunnel) :
    ∃ d, w.entry (.subdomain tunnel.subdomain) = some ⟨.text id, some d⟩ := by
  obtain ⟨j, u, ttl, t, hu, hf, hw, -⟩ | ⟨d, d', -, he, -⟩ := hc.indexed id tunnel hl
  · obtain ⟨hcall, hask⟩ := wrote_asked hs hu hw
    exact absurd (hno j u hu (creates_iff.mpr ⟨hcall, hf, hask⟩)) hw.published
  · exact ⟨d', he⟩

lemma indexed_asker (hg : Undisturbed config w (.exec tid o))
    (hi : w.Issues tid th (.redis (.get (.subdomain name)))) (hcall : isCreate th.call = true)
    (hu : Unpublished th.history) (hl : w.liveRecord id = some tunnel) (hn : tunnel.subdomain = name) :
    ∃ d, w.entry (.subdomain name) = some ⟨.text id, some d⟩ := by
  subst hn
  refine indexed_entry hs hc ?_ hl
  intro j u huj hcr
  by_cases hj : j = tid
  · subst hj
    rw [hi.1, Option.some.injEq] at huj
    exact huj ▸ hu
  · rw [(asks_alone hg hi hcall hj huj).1] at hcr
    cases hcr

lemma indexed_reader (hg : Undisturbed config w (.exec tid o)) {id0 : String}
    (hi : w.Issues tid th (.redis (.get (.tunnel id0)))) (hcall : isDelete th.call = true) {e : Entry Value}
    {tunnel0 : Tunnel} (he : w.entry (.tunnel id0) = some e) (hv : e.value = .tunnel tunnel0)
    (hl : w.liveRecord id = some tunnel) (hn : tunnel.subdomain = tunnel0.subdomain) : id = id0 := by
  obtain ⟨hlive, hno⟩ := reads_live hg hi hcall he
  have hl0 : w.liveRecord id0 = some tunnel0 := by simp [liveRecord, he, hlive, hv, Value.asTunnel]
  have hidle : ∀ (j : ℕ) u, w.threads[j]? = some u → creates tunnel0.subdomain u = true →
      Unpublished u.history := by
    intro j u huj hcr
    rw [hno tunnel0 hv j u huj] at hcr
    cases hcr
  obtain ⟨d, hd⟩ := indexed_entry hs hc (hn ▸ hidle) hl
  obtain ⟨d0, hd0⟩ := indexed_entry hs hc hidle hl0
  rw [hn, hd0, Option.some.injEq, Entry.mk.injEq, Value.text.injEq] at hd
  exact hd.1.symm

end

lemma live_present (hl : w.liveRecord id = some tunnel) : w.entry (.tunnel id) ≠ none := by
  obtain ⟨e, he, -⟩ := liveRecord_some hl
  rw [he]
  exact some_ne_none e

lemma unpublished_of_snoc {h : List Ev} {e : Ev} (hu : Unpublished (h ++ [e])) : Unpublished h :=
  fun e' he' => hu e' (List.mem_append_left _ he')

lemma bounded_storing (hs : Sane config w) (hc : Claims w) {e : Ev}
    (hi : w.Issues tid th (.redis (.setEx (.tunnel id) (.tunnel tunnel) ttl)))
    (hcmd : e.cmd = .redis (.setEx (.tunnel id) (.tunnel tunnel) ttl))
    (hb : Bounds th.call (th.history ++ [e]) name allowed) :
    allowed = some tunnel.id ∧ tunnel.subdomain = name ∧
      ∀ id' tunnel', w.liveRecord id' = some tunnel' → tunnel'.subdomain ≠ name := by
  have hm := hs.may hi
  obtain ⟨user, request, tunnel1, _, _, hcall, ht, hid, -, hu, -, havail, -⟩ := hm
  cases ht
  have hcr : isCreate th.call = true := isCreate_iff.mpr ⟨user, request, hcall⟩
  have hpub : ¬ Unpublished (th.history ++ [e]) := by
    intro hu'
    have := hu' e (by simp)
    rw [hcmd] at this
    cases this
  cases hb with
  | held _ hu' | free _ hu' => exact absurd hu' hpub
  | read hd | deleted hd => rw [hcall] at hd; cases hd
  | @stored tunnel2 ttl2 t2 _ hw hn =>
    obtain hw | ⟨r, he⟩ := wrote_snoc hw
    · exact absurd hu hw.published
    · rw [he] at hcmd
      cases hcmd
      refine ⟨rfl, hn, fun id' tunnel' hl hn' => ?_⟩
      have hfree : Bounds th.call th.history name none := .free hcr hu (hn ▸ havail)
      cases hc.bounded tid th name none hi.1 hi.inFlight hfree id' tunnel' hl hn'

lemma read_own (hs : Sane config w) (hth : w.threads[tid]? = some th) {user : GitHubUser} {id' : String}
    (hcall : th.call = .deleteTunnel user id) (hr : Read th.history id' tunnel) : id' = id := by
  obtain ⟨t, ht⟩ := hr
  obtain ⟨h1, h2, heq⟩ := List.append_of_mem ht
  exact ((hs.permitted tid th hth h1 _ h2 heq).2 user id hcall).1

lemma asked_live (hs : Sane config w) (hc : Claims w) (hg : Undisturbed config w (.exec tid o))
    (hi : w.Issues tid th (.redis (.get (.subdomain name)))) (hcr : isCreate th.call = true)
    (hu : Unpublished th.history) {v : Option Value}
    (hperf : w.shared.perform config th.call (.redis (.get (.subdomain name))) o = some (s, .ok v))
    (hl : w.liveRecord id = some tunnel) (hn : tunnel.subdomain = name) : v = some (.text id) := by
  obtain ⟨d, hd⟩ := indexed_asker hs hc hg hi hcr hu hl hn
  have hval := got_entry hperf
  rw [hd] at hval
  exact hval

section

variable {c : Cmd} {r : c.Reply}

lemma available_advance (hs : Sane config w) (hc : Claims w) (hg : Undisturbed config w (.exec tid o))
    (hi : w.Issues tid th c) (hperf : w.shared.perform config th.call c o = some (s, r)) (hcr : isCreate th.call = true)
    (hu : Unpublished th.history) (hl : w.liveRecord id = some tunnel) (hn : tunnel.subdomain = name) :
    ¬ Available (th.history ++ [⟨⟨w.shared, s⟩, c, r⟩]) name := by
  have hold : ∀ {x}, Bounds th.call th.history name x → x = some id :=
    fun hb => hc.bounded tid th name _ hi.1 hi.inFlight hb id tunnel hl hn
  rintro (hnone | ⟨v, id', hsome, hv, hnone⟩)
  · obtain hnone | ⟨t, he⟩ := got_snoc hnone
    · cases hold (.free hcr hu (.inl hnone))
    · cases he
      cases asked_live hs hc hg hi hcr hu hperf hl hn
  obtain hsome' | ⟨t, he⟩ := got_snoc hsome
  · obtain hnone | ⟨t, he⟩ := got_snoc hnone
    · cases hold (.free hcr hu (.inr ⟨v, id', hsome', hv, hnone⟩))
    · cases he
      cases hold (.held hcr hu hsome' hv)
      exact absurd (map_eq_none_iff.mp (got_entry hperf).symm) (live_present hl)
  -- the name is asked for before any record is read
  cases he
  obtain ⟨t, ht⟩ | ⟨t, he⟩ := got_snoc hnone
  · obtain ⟨-, hur⟩ | ⟨t', v', ttl, ht'⟩ := hs.may hi (isCreate_iff.mp hcr)
    · exact absurd rfl (hur _ ht _)
    · cases hu _ ht'
  · cases he

lemma deleted_advance (hs : Sane config w) (hc : Claims w) (hi : w.Issues tid th c)
    (hperf : w.shared.perform config th.call c o = some (s, r)) (hd : isDelete th.call = true) {id0 id' : String}
    {tunnel0 : Tunnel} (hr : Read (th.history ++ [⟨⟨w.shared, s⟩, c, r⟩]) id0 tunnel0) (hname : tunnel0.subdomain = name)
    (hl : w.liveRecord id = some tunnel) (hn : tunnel.subdomain = name) (hkept : s.store.lookup (.tunnel id) ≠ none) :
    ¬ Deleted (th.history ++ [⟨⟨w.shared, s⟩, c, r⟩]) id' := by
  have hold : ∀ {x}, Bounds th.call th.history name x → x = some id :=
    fun hb => hc.bounded tid th name _ hi.1 hi.inFlight hb id tunnel hl hn
  intro hx
  obtain hr' | ⟨t, he⟩ := got_snoc hr
  · obtain hx | ⟨t, x, he⟩ := deleted_snoc hx
    · cases hold (.deleted hd hr' hname hx)
    cases he
    cases hold (.read hd hr' hname)
    obtain ⟨⟨user, hcall⟩, -⟩ := hs.may hi
    cases read_own hs hi.1 hcall hr'
    obtain ⟨o', st, hp, rfl⟩ := Shared.perform_redis hperf
    exact absurd (perform_del hp) hkept
  -- a deletion reads its record before it deletes anything
  cases he
  obtain ⟨user, id'', hcall⟩ := isDelete_iff.mp hd
  obtain ⟨-, hund⟩ := hs.may hi
  obtain ⟨t', x, hx⟩ | ⟨t', x, he⟩ := deleted_snoc hx
  · exact absurd rfl ((hund user id'' hcall).2 _ hx _)
  · cases he

lemma bounded_advance (hs : Sane config w) (hc : Claims w) (hg : Undisturbed config w (.exec tid o))
    (hi : w.Issues tid th c) (hperf : w.shared.perform config th.call c o = some (s, r)) {allowed : Option String}
    (hb : Bounds th.call (th.history ++ [⟨⟨w.shared, s⟩, c, r⟩]) name allowed) (hl : w.liveRecord id = some tunnel)
    (hn : tunnel.subdomain = name) (hkept : s.store.lookup (.tunnel id) ≠ none)
    (hne : ∀ id' v ttl, c ≠ .redis (.setEx (.tunnel id') v ttl)) : allowed = some id := by
  have hold : ∀ {x}, Bounds th.call th.history name x → x = some id :=
    fun hb => hc.bounded tid th name _ hi.1 hi.inFlight hb id tunnel hl hn
  cases hb with
  | held hcr hu hgot hv =>
    have hu' := unpublished_of_snoc hu
    obtain hgot | ⟨t, he⟩ := got_snoc hgot
    · exact hold (.held hcr hu' hgot hv)
    · cases he
      cases asked_live hs hc hg hi hcr hu' hperf hl hn
      exact hv.symm
  | free hcr hu ha => exact absurd ha (available_advance hs hc hg hi hperf hcr (unpublished_of_snoc hu) hl hn)
  | stored hcr hw hname =>
    obtain hw | ⟨r', he⟩ := wrote_snoc hw
    · exact hold (.stored hcr hw hname)
    · cases he
      exact absurd rfl (hne _ _ _)
  | @read id0 tunnel0 hd hr hname =>
    obtain hr | ⟨t, he⟩ := got_snoc hr
    · exact hold (.read hd hr hname)
    · cases he
      obtain ⟨e, he, hv⟩ := map_eq_some_iff.mp (got_entry hperf).symm
      rw [indexed_reader hs hc hg hi hd he hv hl (hn.trans hname.symm)]
  | deleted hd hr hname hx => exact absurd hx (deleted_advance hs hc hi hperf hd hr hname hl hn hkept)

end

section

variable (hs : Sane config w)

include hs

lemma bounded_step (hc : Claims w) (hg : Undisturbed config w a) (h : step config w a = some w')
    (hth : w'.threads[tid]? = some th') (hf : th'.InFlight) (hb : Bounds th'.call th'.history name allowed)
    (hl : w'.liveRecord id = some tunnel) (hn : tunnel.subdomain = name) : allowed = some id := by
  obtain ⟨hth, hne⟩ | ⟨call, -, -, -, rfl⟩ | ⟨o, th, c, k, s, r, rfl, hold, hp, hperf, hentry, rfl⟩ | ⟨th, -, -, rfl⟩ :=
    thread_step h hth
  · obtain ⟨hl, -⟩ | ⟨j, o, u, ttl, rfl, hi, hm, -⟩ := live_step hs h hl
    · exact hc.bounded tid th' name allowed hth hf hb id tunnel hl hn
    · -- the storing creation would be a second one engaged with the name
      obtain rfl := hc.alone j tid u th' name hi.1 hth (hn ▸ storer_creates hi hm) (hb.engaged hs hth hf)
      exact absurd rfl (hne o)
  · rcases hb with ⟨-, -, ⟨_, h⟩, -⟩ | ⟨-, -, ⟨_, h⟩ | ⟨_, _, ⟨_, h⟩, -⟩⟩ | ⟨-, ⟨_, h⟩, -⟩ | ⟨-, ⟨_, h⟩, -⟩ |
      ⟨-, ⟨_, h⟩, -⟩ <;> cases h
  · have hi : w.Issues tid th c := ⟨hold, k, hp⟩
    by_cases hst : ∃ id' v ttl, c = .redis (.setEx (.tunnel id') v ttl)
    · obtain ⟨id', v, ttl, rfl⟩ := hst
      obtain ⟨_, _, tunnel', _, _, -, rfl, rfl, -⟩ := hs.may hi
      obtain ⟨rfl, hn', hfree⟩ := bounded_storing hs hc hi rfl hb
      obtain ⟨hl, -⟩ | ⟨j, o', u, ttl', hexec, hi', -, -⟩ := live_step hs h hl
      · exact absurd hn (hfree id tunnel hl)
      cases hexec
      obtain ⟨hold', k', hk'⟩ := hi'
      rw [hold, Option.some.injEq] at hold'
      subst hold'
      rw [hp] at hk'
      cases hk'
      rfl
    obtain ⟨hl', hkept⟩ | ⟨j, o', u, ttl', hexec, ⟨hold', k', hk'⟩, -, -⟩ := live_step hs h hl
    · refine bounded_advance hs hc hg hi hperf hb hl' hn ?_ fun id' v ttl hc' => hst ⟨id', v, ttl, hc'⟩
      rw [← hentry]
      exact live_present hl
    cases hexec
    rw [hold, Option.some.injEq] at hold'
    subst hold'
    rw [hp] at hk'
    cases hk'
    exact absurd ⟨_, _, _, rfl⟩ hst
  · exact absurd hf (Thread.stop_not_inFlight th _)

lemma indexed_stored (hg : Undisturbed config w (.exec tid o)) (h : step config w (.exec tid o) = some w')
    (hi : w.Issues tid th (.redis (.setEx (.tunnel id) (.tunnel tunnel) ttl)))
    (he : w'.entry (.tunnel id) = some ⟨.tunnel tunnel, some (w.shared.now + ttl * second)⟩) :
    Indexed w' id tunnel := by
  obtain ⟨-, th', s, r, hth', hf, hun, hw, -⟩ := stored_writer hs hg h hi
  exact .inl ⟨tid, th', ttl, ⟨w.shared, s⟩, hth', hf, hw, hun, he⟩

lemma indexed_claimed (hg : Undisturbed config w (.exec tid o)) {ttl' : ℕ}
    (hi : w.Issues tid th (.redis (.setNxEx (.subdomain name) v ttl')))
    (hperf : w.shared.perform config th.call (.redis (.setNxEx (.subdomain name) v ttl')) o = some (s, r))
    (hw : Wrote th.history tunnel ttl t) : tunnel.subdomain = name ∧
      ∃ d', s.store.lookup (.subdomain name) = some ⟨.text tunnel.id, some d'⟩ ∧ t.before.now + ttl * second ≤ d' := by
  have hm := hs.may hi
  have hok := publishes_answered hg hi (claim_publishing hm _) hperf
  obtain ⟨user, request, tunnel', t', hcall, hw', hn, rfl, -⟩ := hm
  obtain ⟨rfl, rfl, rfl⟩ := hs.once hi.1 hw hw'
  obtain _ | claimed := r
  · cases hok
  obtain rfl : claimed = true := hok
  obtain ⟨o', st, hset, rfl⟩ := Shared.perform_redis hperf
  obtain ⟨r, hr⟩ := hw
  have hle := (hs.performed tid th _ hi.1 hr).2
  refine ⟨hn, _, (perform_setNxEx hset).2, ?_⟩
  dsimp only at hle
  omega

lemma announced_step (hg : Undisturbed config w a) (h : step config w a = some w') (hth : w.threads[tid]? = some th)
    (hf : th.InFlight) (hw : Wrote th.history tunnel ttl t) (hun : Unclaimed th.history)
    (he : w'.entry (.tunnel id) = some ⟨.tunnel tunnel, some (t.before.now + ttl * second)⟩) (hid : tunnel.id = id) :
    Indexed w' id tunnel := by
  obtain hth' | ⟨o, c, k, s, r, rfl, hk, hpub, hperf, hentry, hth'⟩ := writer_step hs hg h hth hw hun
  · exact .inl ⟨tid, th, ttl, t, hth', hf, hw, hun, he⟩
  cases hc : c.claimsSubdomain with
  | true =>
    obtain ⟨name, v, ttl', rfl⟩ := claim_of_claimsSubdomain hc
    obtain ⟨rfl, d', hd', hle⟩ := indexed_claimed hs hg ⟨hth, k, hk⟩ hperf hw
    exact .inr ⟨_, d', he, hid ▸ (hentry _).trans hd', hle⟩
  | false =>
    have hf' := publishes_on hs hg hth hk hpub hc hperf
    exact .inl ⟨tid, _, ttl, t, hth', hf', hw.mono (by simp), unclaimed_snoc hun hc, he⟩

lemma index_kept (hc : Claims w) (h : step config w a = some w') {d d' : ℕ} (hl : w.liveRecord id = some tunnel)
    (he : w.entry (.tunnel id) = some ⟨.tunnel tunnel, some d⟩)
    (hx : w.entry (.subdomain tunnel.subdomain) = some ⟨.text id, some d'⟩) (hd : d ≤ d') :
    w'.entry (.subdomain tunnel.subdomain) = some ⟨.text id, some d'⟩ := by
  obtain ⟨e, he', hlive, -⟩ := liveRecord_some hl
  rw [he, Option.some.injEq] at he'
  subst he'
  have hnow : w.shared.now < d := live_iff.mp hlive d rfl
  obtain heq | ⟨-, ⟨e', he', hdead⟩, -⟩ | ⟨tid, o, th, c, -, hi, ht, heq⟩ | ⟨_, _, _, -, hk, -⟩ :=
    entry_step h (.subdomain tunnel.subdomain)
  · rw [heq, hx]
  · rw [hx, Option.some.injEq] at he'
    subst he'
    have hlive' : (⟨.text id, some d'⟩ : Entry Value).live w.shared.now = true := by
      rw [live_iff]
      rintro x ⟨rfl⟩
      omega
    rw [hlive'] at hdead
    cases hdead
  · have hm := hs.may hi
    cases c with
    | setNxEx => cases ht; rw [heq, hx]; rfl
    | get | exist | keys => cases ht
    | set | setEx => cases ht; exact absurd (hm _ rfl) (by simp [owned])
    | del =>
      cases ht
      obtain ⟨user, id0, tunnel0, hcall, hr, hn, hdel⟩ := hm
      have hb : Bounds th.call th.history tunnel.subdomain none :=
        .deleted (isDelete_iff.mpr ⟨user, id0, hcall⟩) hr hn hdel
      cases hc.bounded tid th _ none hi.1 hi.inFlight hb id tunnel hl rfl
    | expire =>
      cases ht
      obtain ⟨t, v, ttl', ht⟩ := hm
      cases hc.won tid th t _ v ttl' _ hi.1 hi.inFlight ht
  · cases hk

lemma indexed_step (hc : Claims w) (hg : Undisturbed config w a) (h : step config w a = some w')
    (hl : w'.liveRecord id = some tunnel) : Indexed w' id tunnel := by
  obtain ⟨hold, hkept⟩ | ⟨tid, o, th, ttl, rfl, hi, -, he⟩ := live_step hs h hl
  · obtain ⟨tid, th, ttl, t, hth, hf, hw, hun, he⟩ | ⟨d, d', he, hx, hd⟩ := hc.indexed id tunnel hold
    · obtain ⟨_, _, heq, hid, -⟩ := hs.record id _ he
      cases heq
      exact announced_step hs hg h hth hf hw hun (hkept.trans he) hid
    · exact .inr ⟨d, d', hkept.trans he, index_kept hs hc h hold he hx hd, hd⟩
  · exact indexed_stored hs hg h hi he

lemma claims_step (hc : Claims w) (hg : Undisturbed config w a) (h : step config w a = some w') : Claims w' := by
  refine ⟨?_, ?_, ?_, ?_⟩
  · intro i j th u name hi hj hth hu
    exact alone_step hc hg h hi hj hth hu
  · intro tid th t name v ttl r hth hf he
    exact won_step hs hc hg h hth hf he
  · intro tid th name allowed hth hf hb id tunnel hl hn
    exact bounded_step hs hc hg h hth hf hb hl hn
  · intro id tunnel hl
    exact indexed_step hs hc hg h hl

end

lemma claims_init (now : ℕ) : Claims (init now) := by
  refine ⟨?_, ?_, ?_, ?_⟩
  · rintro i j th u name ⟨⟩
  · rintro tid th t name v ttl r ⟨⟩
  · rintro tid th name allowed ⟨⟩
  · rintro id tunnel ⟨⟩

lemma reach_claims {now : ℕ} (h : Reach (step config) (Undisturbed config) (init now) w) : Claims w :=
  h.invariant (fun _ hr => reach_sane hr) (claims_init now) (fun _ _ _ hs hc hg hstep => claims_step hs hc hg hstep)

theorem subdomain_unique {now : ℕ} (h : Reach (step config) (Undisturbed config) (init now) w) {id1 id2 : String}
    {tunnel1 tunnel2 : Tunnel} (h1 : w.liveRecord id1 = some tunnel1) (h2 : w.liveRecord id2 = some tunnel2)
    (hn : tunnel1.subdomain = tunnel2.subdomain) : id1 = id2 := by
  have hs := reach_sane h
  have hc := reach_claims h
  -- a creation that has yet to claim the name bounds its live records by its own
  have hannounced : ∀ {id id' tunnel tunnel'} {tid : ℕ} {th : CallThread} {ttl : ℕ} {t : Span Shared},
      w.liveRecord id' = some tunnel' → tunnel'.subdomain = tunnel.subdomain → w.threads[tid]? = some th →
      th.InFlight → Wrote th.history tunnel ttl t → tunnel.id = id → id = id' := by
    intro id id' tunnel tunnel' tid th ttl t hl' hn hth hf hw hid
    have hb := Bounds.stored (wrote_asked hs hth hw).1 hw rfl
    have hx := hc.bounded tid th _ _ hth hf hb id' tunnel' hl' hn
    rw [hid] at hx
    exact Option.some.inj hx
  obtain ⟨tid, th, ttl, t, hth, hf, hw, -⟩ | ⟨-, d1, -, hx1, -⟩ := hc.indexed id1 tunnel1 h1
  · exact hannounced h2 hn.symm hth hf hw (record_id hs h1)
  · obtain ⟨tid, th, ttl, t, hth, hf, hw, -⟩ | ⟨-, d2, -, hx2, -⟩ := hc.indexed id2 tunnel2 h2
    · exact (hannounced h1 hn hth hf hw (record_id hs h2)).symm
    · rw [hn, hx2, Option.some.injEq, Entry.mk.injEq, Value.text.injEq] at hx1
      exact hx1.1.symm

open Schedule

theorem subdomain_unique_created : ∃ w tunnel1 tunnel2, Reach (step deployment) (Undisturbed deployment) start w ∧
    w.liveRecord "a" = some tunnel1 ∧ w.liveRecord "b" = some tunnel2 ∧ tunnel1.subdomain ≠ tunnel2.subdomain := by
  obtain ⟨w, hr, hp⟩ := reach_of_check (step deployment) (Undisturbed deployment) start
    (.arrive (.createTunnel alice (request 1800 "demo")) :: create 0 10000 "a" "ka"
      ++ .arrive (.createTunnel bob (request 1800 "shop")) :: create 1 10001 "b" "kb")
    (fun w => (w.liveRecord "a").isSome && (w.liveRecord "b").isSome) (by decide +kernel)
  simp only [Bool.and_eq_true, isSome_iff_exists] at hp
  obtain ⟨⟨tunnel1, h1⟩, tunnel2, h2⟩ := hp
  refine ⟨w, tunnel1, tunnel2, hr, h1, h2, ?_⟩
  intro hn
  have hid : "a" = "b" := subdomain_unique hr h1 h2 hn
  exact absurd hid (by decide)

/-- Both creations find the name free; the one that loses the claim fails and leaves its record behind. -/
theorem subdomain_shared : ∃ w, Reach (step deployment) Free start w ∧ ∃ id1 id2 tunnel1 tunnel2, id1 ≠ id2 ∧
    w.liveRecord id1 = some tunnel1 ∧ w.liveRecord id2 = some tunnel2 ∧ tunnel1.subdomain = tunnel2.subdomain := by
  obtain ⟨w, hr, hp⟩ := started
    ([.arrive (.createTunnel alice (request 1800 "demo")), .arrive (.createTunnel bob (request 1800 "demo"))]
      ++ (create 0 10000 "a" "ka").take 2 ++ create 1 10001 "b" "kb" ++ ((create 0 10000 "a" "ka").take 19).drop 2)
    (fun w => (w.liveRecord "a").any (·.subdomain = "demo") && (w.liveRecord "b").any (·.subdomain = "demo")
      && w.threads.all fun th => th.prog.next.isNone) (by decide +kernel)
  simp only [Bool.and_eq_true, any_eq_true, decide_eq_true_eq] at hp
  obtain ⟨⟨⟨tunnel1, h1, hn1⟩, tunnel2, h2, hn2⟩, -⟩ := hp
  exact ⟨w, hr, "a", "b", tunnel1, tunnel2, by decide, h1, h2, hn1.trans hn2.symm⟩

end FleetingDns.SubdomainUniqueness
