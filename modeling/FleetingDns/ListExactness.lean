import FleetingDns.SlotMapping
import FleetingDns.UserLists
namespace FleetingDns.ListExactness

open CommandPrograms ExpiringStore ThreadPool GuardedRuns World SubdomainClaims Origins UserLists TunnelStorage
  CreateFlow UserTunnelLookup HandlerDisciplines Option List

variable {config : Config} {w w' : World} {a : Action} {tid : ℕ} {th : CallThread} {o : Choice} {id owner : String}
  {tunnel : Tunnel}

def SlotSet (h : List Ev) (fqdn : String) : Prop :=
  ∃ t x v ttl, (⟨t, .redis (.setEx (.slot fqdn) v ttl), .ok x⟩ : Ev) ∈ h

lemma call_closes (config : Config) (call : Call) : Obeys (May config call) (Closes call) (call.program config) [] := by
  have hother : (∀ user id, call ≠ .deleteTunnel user id) →
      Obeys (May config call) (Closes call) (call.program config) [] := fun hne =>
    meets_mono (fun _ _ hc => hc) (fun _ _ _ user id hcall => absurd hcall (hne user id))
      (call_obeys config call)
  cases call with
  | deleteTunnel user id => exact meets_seq (closes_deleteTunnel user id) fun h r hr => .ret hr
  | _ => exact hother (by rintro _ _ ⟨⟩)

def writesRecord (id : String) : Ev → Bool
  | ⟨_, .redis (.setEx (.tunnel id') _ _), _⟩ => id' == id
  | _ => false

def deletesRecord : Ev → Bool
  | ⟨_, .redis (.del (.tunnel _)), .ok _⟩ => true
  | _ => false

/-- A deletion reads a record only once the creation that stored it has ended. -/
def readsSettled (w : World) (call : Call) : Cmd → Bool
  | .redis (.get (.tunnel id)) =>
    !isDelete call || w.threads.all fun th => th.prog.next.isNone || !th.history.any (writesRecord id)
  | _ => true

def unlisting (th : CallThread) : Bool := th.prog.next.isSome && th.history.any deletesRecord

/-- From the removal of its record on, a deletion is neither refused a command nor cancelled. -/
def carriedThrough (config : Config) (w : World) (th : CallThread) (c : Cmd) (o : Choice) : Bool :=
  !unlisting th || (w.shared.perform config th.call c o).all fun r => succeeds c r.2

def oneByOne (config : Config) (w : World) : Action → Bool
  | .exec tid o => match w.threads[tid]? with
    | some th => match th.prog with
      | .call c _ => readsSettled w th.call c && carriedThrough config w th c o
      | .ret _ => true
    | none => true
  | .cancel tid => w.threads[tid]?.all fun th => !unlisting th
  | _ => true

def OneByOne (config : Config) (w : World) (a : Action) : Prop := listsAlone w a = true ∧ oneByOne config w a = true

instance (w : World) (a : Action) : Decidable (OneByOne config w a) := inferInstanceAs (Decidable (_ ∧ _))

section

variable {c : Cmd}

lemma oneByOne_exec (hg : OneByOne config w (.exec tid o)) (hi : w.Issues tid th c) :
    readsSettled w th.call c = true ∧ carriedThrough config w th c o = true := by
  obtain ⟨hth, k, hk⟩ := hi
  simpa [oneByOne, hth, hk] using hg.2

lemma deleted_unlisting (hd : Deleted th.history id) (hf : th.InFlight) : unlisting th = true := by
  obtain ⟨t, x, ht⟩ := hd
  rw [unlisting, Bool.and_eq_true, List.any_eq_true]
  exact ⟨hf, _, ht, rfl⟩

lemma reads_settled (hg : OneByOne config w (.exec tid o)) (hi : w.Issues tid th (.redis (.get (.tunnel id))))
    (hc : isDelete th.call = true) {j : ℕ} {u : CallThread} (hu : w.threads[j]? = some u) {ttl : ℕ} {t : Span Shared}
    (hw : Wrote u.history tunnel ttl t) (hid : tunnel.id = id) : ¬ u.InFlight := by
  have h := (oneByOne_exec hg hi).1
  simp only [readsSettled, hc, Bool.not_true, Bool.false_or, List.all_eq_true, Bool.or_eq_true, Bool.not_eq_true',
    isNone_iff_eq_none] at h
  obtain ⟨r, hr⟩ := hw
  intro hf
  obtain hn | hn := h u (List.mem_of_getElem? hu)
  · rw [Thread.InFlight, hn] at hf
    cases hf
  · have hm := any_eq_false.mp hn _ hr
    simp [writesRecord, hid] at hm

lemma not_cancelled (hg : OneByOne config w (.cancel tid)) (hth : w.threads[tid]? = some th)
    (hd : Deleted th.history id) : ¬ th.InFlight := by
  intro hf
  have h : unlisting th = false := by simpa [oneByOne, hth] using hg.2
  rw [deleted_unlisting hd hf] at h
  cases h

end

def listOf (w : World) (owner : String) : List String :=
  ((w.entry (.tunnelLookup owner)).bind fun e => e.value.asLookup).elim [] (·.tunnels)

lemma listOf_eq {l : UserTunnelLookup} (h : w.entry (.tunnelLookup owner) = some ⟨.lookup l, none⟩) :
    listOf w owner = l.tunnels := by
  rw [listOf, h]
  rfl

lemma listOf_ofData (hl : Plain w) {existing : Option Value}
    (h : existing = (w.entry (.tunnelLookup owner)).map Entry.value) :
    (ofData tunnel existing).tunnels = listOf w owner := by
  subst h
  cases he : w.entry (.tunnelLookup owner) with
  | none => rw [listOf, he]; rfl
  | some e =>
    obtain ⟨l, rfl⟩ := hl owner e he
    rw [listOf_eq he]
    rfl

lemma push_tunnels (l : UserTunnelLookup) :
    (l.push id).tunnels = if id ∈ l.tunnels then l.tunnels else l.tunnels ++ [id] := by
  unfold push
  split_ifs <;> rfl

lemma list_change (hs : Sane config w) (hl : Serial w) (h : step config w a = some w') (owner : String) :
    listOf w' owner = listOf w owner ∨
    (∃ tid o th tunnel ttl t, a = .exec tid o ∧ w.threads[tid]? = some th ∧ th.InFlight ∧ Wrote th.history tunnel ttl t ∧
      tunnel.githubUserId = owner ∧
      listOf w' owner = if tunnel.id ∈ listOf w owner then listOf w owner else listOf w owner ++ [tunnel.id]) ∨
    ∃ (tid : ℕ) (th : CallThread) (id : String), w.threads[tid]? = some th ∧ Deleted th.history id ∧
      listOf w' owner = (listOf w owner).filter (· ≠ id) := by
  obtain heq | ⟨tid, o, th, v, ha, hi, hm, heq⟩ := list_step hs hl.plain h owner
  · left
    rw [listOf, heq]
    rfl
  have hup := (updatesList_iff.mp (setter_updates hs hi)).1
  obtain ⟨t, existing, h0, hlast, hm⟩ := hm
  have hval := hl.fresh tid th h0 t _ existing hi.1 hup hi.inFlight hlast
  obtain ⟨user, request, tunnel, ttl, t', -, hw, hown, rfl⟩ | ⟨user, id, l, -, hdel, hl', rfl⟩ := hm
  · refine .inr (.inl ⟨tid, o, th, tunnel, ttl, t', ha, hi.1, hi.inFlight, hw, hown, ?_⟩)
    rw [listOf_eq heq, push_tunnels, listOf_ofData hl.plain hval]
  refine .inr (.inr ⟨tid, th, id, hi.1, hdel, ?_⟩)
  rw [hl'] at hval
  obtain ⟨e, he, hv⟩ := map_eq_some_iff.mp hval.symm
  obtain ⟨l0, rfl⟩ := hl.plain owner e he
  cases hv
  rw [listOf_eq heq, listOf_eq he]
  rfl

def Gone (w : World) (id : String) : Prop := ∃ (tid : ℕ) (th : CallThread), w.threads[tid]? = some th ∧ Deleted th.history id

/-- What the lists hold, and who may still write them, when their updates come one by one. -/
structure Books (w : World) : Prop where
  once : ∀ owner, (listOf w owner).Nodup
  owned : ∀ owner id, id ∈ listOf w owner → ∃ tunnel, Written w tunnel ∧ tunnel.id = id ∧ tunnel.githubUserId = owner
  kept : ∀ (tid : ℕ) (th : CallThread) (tunnel : Tunnel) (ttl : ℕ) (t : Span Shared), w.threads[tid]? = some th →
    Wrote th.history tunnel ttl t → SlotMapping.ListSet th.history tunnel.githubUserId → ¬ Gone w tunnel.id →
    tunnel.id ∈ listOf w tunnel.githubUserId
  settled : ∀ (i j : ℕ) (th u : CallThread) (id : String) (tunnel : Tunnel) (ttl : ℕ) (t : Span Shared),
    w.threads[i]? = some th → isDelete th.call = true → Read th.history id tunnel → w.threads[j]? = some u →
    Wrote u.history tunnel ttl t → ¬ u.InFlight
  absent : ∀ (tid : ℕ) (th : CallThread) (id : String) (tunnel : Tunnel), w.threads[tid]? = some th →
    Deleted th.history id → Read th.history id tunnel → ¬ th.InFlight → id ∉ listOf w tunnel.githubUserId

lemma deleter (hs : Sane config w) (hth : w.threads[tid]? = some th) (hd : Deleted th.history id) :
    (∃ user, th.call = .deleteTunnel user id) ∧ ∃ tunnel, Read th.history id tunnel := by
  obtain ⟨t, x, ht⟩ := hd
  obtain ⟨h1, h2, heq⟩ := append_of_mem ht
  obtain ⟨hcall, tunnel, hr⟩ := hs.permitted tid th hth h1 _ h2 heq
  exact ⟨hcall, tunnel, hr.mono (by rw [heq]; simp)⟩

lemma gone_step (h : step config w a = some w') (hg : Gone w id) : Gone w' id := by
  obtain ⟨tid, th, hth, hd⟩ := hg
  obtain ⟨th', hth', -, hsub⟩ := thread_kept h hth
  exact ⟨tid, th', hth', hd.mono hsub⟩

lemma once_step (hs : Sane config w) (hl : Serial w) (hb : Books w) (h : step config w a = some w') (owner : String) :
    (listOf w' owner).Nodup := by
  obtain heq | ⟨tid, o, th, tunnel, ttl, t, -, -, -, -, -, heq⟩ | ⟨tid, th, id, -, -, heq⟩ := list_change hs hl h owner
  · rw [heq]
    exact hb.once owner
  · rw [heq]
    split_ifs with hid
    · exact hb.once owner
    · exact nodup_append_comm.mp (nodup_cons.mpr ⟨hid, hb.once owner⟩)
  · rw [heq]
    exact (hb.once owner).sublist filter_sublist

lemma mem_pushed {l : List String} {x : String} (h : x ∈ if id ∈ l then l else l ++ [id]) : x ∈ l ∨ x = id := by
  split_ifs at h
  · exact .inl h
  · simpa using h

lemma owned_step (hs : Sane config w) (hl : Serial w) (hb : Books w) (h : step config w a = some w')
    (hid : id ∈ listOf w' owner) : ∃ tunnel, Written w' tunnel ∧ tunnel.id = id ∧ tunnel.githubUserId = owner := by
  have hkept : id ∈ listOf w owner → ∃ tunnel, Written w' tunnel ∧ tunnel.id = id ∧ tunnel.githubUserId = owner := by
    intro hold
    obtain ⟨tunnel, hw, hrest⟩ := hb.owned owner id hold
    exact ⟨tunnel, written_step h hw, hrest⟩
  obtain heq | ⟨tid, o, th, tunnel, ttl, t, -, hth, -, hw, hown, heq⟩ | ⟨tid, th, id', -, -, heq⟩ :=
    list_change hs hl h owner
  · exact hkept (heq ▸ hid)
  · rw [heq] at hid
    obtain hold | rfl := mem_pushed hid
    · exact hkept hold
    · exact ⟨tunnel, written_step h ⟨tid, th, ttl, t, hth, hw⟩, rfl, hown⟩
  · rw [heq] at hid
    exact hkept (mem_of_mem_filter hid)

lemma listed_step (hs : Sane config w) (hl : Serial w) (h : step config w a = some w') (hid : id ∈ listOf w owner)
    (hg : ¬ Gone w id) : id ∈ listOf w' owner := by
  obtain heq | ⟨tid, o, th, tunnel, ttl, t, -, -, -, -, -, heq⟩ | ⟨tid, th, id', hth, hd, heq⟩ := list_change hs hl h owner
  · exact heq ▸ hid
  · rw [heq]
    split_ifs
    · exact hid
    · exact mem_append_left _ hid
  · rw [heq, mem_filter, decide_eq_true_eq]
    refine ⟨hid, ?_⟩
    rintro rfl
    exact hg ⟨tid, th, hth, hd⟩

lemma unlisted_step (hs : Sane config w) (ho : Origins w) (hl : Serial w) (hb : Books w)
    (h : step config w a = some w') (hth : w.threads[tid]? = some th) (hc : isDelete th.call = true)
    (hr : Read th.history id tunnel) (hid : id ∉ listOf w owner) : id ∉ listOf w' owner := by
  obtain heq | ⟨j, o, u, tunnel', ttl, t, -, hu, hf, hw, -, heq⟩ | ⟨j, u, id', -, -, heq⟩ := list_change hs hl h owner
  · rwa [heq]
  · rw [heq]
    intro hmem
    obtain hmem | rfl := mem_pushed hmem
    · exact hid hmem
    · obtain ⟨hwritten, heq'⟩ := ho.read tid th _ tunnel hth hr
      obtain rfl := written_unique hs ho hwritten ⟨j, u, ttl, t, hu, hw⟩ heq'
      exact hb.settled tid j th u _ tunnel ttl t hth hc hr hu hw hf
  · rw [heq]
    intro hmem
    exact hid (mem_of_mem_filter hmem)

variable {th' : CallThread} {ttl now : ℕ} {t : Span Shared} {h : List Ev}

lemma kept_step (hs : Sane config w) (hl : Serial w) (hb : Books w) (h : step config w a = some w')
    (hth' : w'.threads[tid]? = some th') (hw : Wrote th'.history tunnel ttl t)
    (hset : SlotMapping.ListSet th'.history tunnel.githubUserId) (hg : ¬ Gone w' tunnel.id) :
    tunnel.id ∈ listOf w' tunnel.githubUserId := by
  have hg0 : ¬ Gone w tunnel.id := fun hgone => hg (gone_step h hgone)
  obtain ⟨t', x, v, hev⟩ := hset
  obtain ⟨r, hr⟩ := hw
  obtain ⟨th, hth, -, -, -, hev0⟩ | ⟨o, th, rfl, hi, hcall, hhist, -, hperf, -, hentry⟩ := event_step h hth' hev
  · obtain ⟨u, hu, -, -, -, hr0⟩ | ⟨o, u, rfl, hi, -, -, -, -, -, -⟩ := event_step h hth' hr
    · rw [hth, Option.some.injEq] at hu
      subst hu
      exact listed_step hs hl h (hb.kept tid th tunnel ttl t hth ⟨r, hr0⟩ ⟨t', x, v, hev0⟩ hg0) hg0
    · -- the record is stored before any list update of the creation
      obtain ⟨_, _, _, _, _, -, -, -, -, hun, -⟩ := hs.may hi
      obtain rfl : th = u := mem_unique hth hi.1
      cases hun _ hev0
  have hw0 : Wrote th.history tunnel ttl t := by
    rw [hhist, mem_snoc] at hr
    obtain hr | hr := hr
    · exact ⟨r, hr⟩
    · cases hr
  obtain ⟨_, existing, _, -, ⟨_, _, tunnel', _, _, -, hw', -, rfl⟩ | ⟨_, _, _, hdel, -⟩⟩ := hs.may hi
  · obtain ⟨rfl, -, -⟩ := hs.once hi.1 hw0 hw'
    obtain ⟨o', st, hp, hst⟩ := Shared.perform_redis hperf
    have hset' := perform_set hp
    have he : w'.entry (.tunnelLookup tunnel.githubUserId) = some ⟨.lookup ((ofData tunnel existing).push
        tunnel.id), none⟩ := by
      rw [hentry, hst]
      exact hset'
    rw [listOf_eq he]
    exact mem_push.mpr (.inr rfl)
  · have hcr := (wrote_asked hs hi.1 hw0).1
    rw [hdel] at hcr
    cases hcr

lemma settled_step (hs : Sane config w) (ho : Origins w) (hb : Books w) (hg : OneByOne config w a)
    (h : step config w a = some w') {i j : ℕ} {th u : CallThread} (hth : w'.threads[i]? = some th)
    (hc : isDelete th.call = true) (hr : Read th.history id tunnel) (hu : w'.threads[j]? = some u)
    (hw : Wrote u.history tunnel ttl t) : ¬ u.InFlight := by
  obtain ⟨t', hev⟩ := hr
  obtain ⟨r, hwr⟩ := hw
  obtain ⟨th0, hth0, hcall, -, -, hev0⟩ | ⟨o, th0, rfl, hi, hcall, -, hbefore, hperf, -, -⟩ := event_step h hth hev
  · have hc0 : isDelete th0.call = true := hcall ▸ hc
    obtain ⟨u0, hu0, -, hflight, -, hwr0⟩ | ⟨o, u0, rfl, hi, -, -, -, -, -, -⟩ := event_step h hu hwr
    · intro hf
      exact hb.settled i j th0 u0 id tunnel ttl t hth0 hc0 ⟨t', hev0⟩ hu0 ⟨r, hwr0⟩ (hflight hf)
    -- the record was there to be read, so its creation has stored it already
    obtain ⟨⟨l, v, ttl', t'', hv, hw⟩, -⟩ := ho.read i th0 id tunnel hth0 ⟨t', hev0⟩
    obtain ⟨_, _, _, _, _, -, -, -, -, hun, hn, -⟩ := hs.may hi
    obtain rfl := ho.namer l j v u0 _ hv hi.1 (wrote_named hs hv hw) hn
    obtain rfl : v = u0 := mem_unique hv hi.1
    exact absurd hun hw.published
  have hc0 : isDelete th0.call = true := hcall ▸ hc
  obtain ⟨u0, hu0, -, hflight, -, hwr0⟩ | ⟨o', u0, ha, hi', -, -, -, -, -, -⟩ := event_step h hu hwr
  · have hid : tunnel.id = id := by
      obtain ⟨e, he, hv⟩ := map_eq_some_iff.mp (got_entry hperf).symm
      obtain ⟨tunnel', d, rfl, hid, -⟩ := hs.record id e he
      cases hv
      exact hid
    intro hf
    exact reads_settled hg hi hc0 hu0 ⟨r, hwr0⟩ hid (hflight hf)
  cases ha
  have hsame : th0 = u0 := mem_unique hi.1 hi'.1
  obtain ⟨_, hk⟩ := hi.2
  obtain ⟨_, hk'⟩ := hi'.2
  rw [hsame, hk'] at hk
  cases hk

lemma absent_step (hs : Sane config w) (ho : Origins w) (hl : Serial w) (hb : Books w)
    (hcl : Disciplined (May config) Closes w.threads) (hg : OneByOne config w a) (h : step config w a = some w')
    (hth' : w'.threads[tid]? = some th') (hd : Deleted th'.history id) (hr : Read th'.history id tunnel)
    (hf : ¬ th'.InFlight) : id ∉ listOf w' tunnel.githubUserId := by
  have hs' := sane_step hs h
  have ho' := origins_step hs ho h
  obtain ⟨hth, -⟩ | ⟨call, -, -, -, rfl⟩ | ⟨o, th, c, k, s, r, rfl, hth, hk, hperf, hentry, rfl⟩ | ⟨th, rfl, hth, rfl⟩ :=
    thread_step h hth'
  · obtain ⟨⟨user, hcall⟩, -⟩ := deleter hs hth hd
    exact unlisted_step hs ho hl hb h hth (isDelete_iff.mpr ⟨user, id, hcall⟩) hr (hb.absent tid th' id tunnel hth hd hr hf)
  · obtain ⟨t, x, ht⟩ := hd
    cases ht
  · obtain ⟨⟨user, hcall⟩, -⟩ := deleter hs' hth' hd
    obtain ⟨a, hclose⟩ := hcl.ends hth hk hf
    obtain ⟨h0, e, heq, he⟩ := hclose user id hcall hd
    cases (append_inj' heq rfl).2
    obtain hfail | ⟨tunnel', hr', hun⟩ := he
    · -- no command of a deletion fails once its record is gone
      obtain hd0 | ⟨t, x, hlast⟩ := deleted_snoc hd
      · have hok := (oneByOne_exec hg ⟨hth, k, hk⟩).2
        simp [carriedThrough, deleted_unlisting hd0 (Thread.inFlight_of_call hk), hperf, hfail] at hok
      · cases hlast
        cases hfail
    obtain ⟨hw, hid⟩ := ho'.read tid _ id tunnel hth' hr
    obtain ⟨hw', hid'⟩ := ho'.read tid _ id tunnel' hth' hr'
    obtain rfl := written_unique hs' ho' hw hw' (hid.trans hid'.symm)
    obtain ⟨t, x, l, hset⟩ | ⟨t, v, hget, hv⟩ := hun
    · cases hset
      obtain ⟨o', st, hp, rfl⟩ := Shared.perform_redis hperf
      rw [listOf_eq ((hentry _).trans (perform_set hp))]
      simp [remove]
    cases hget
    obtain ⟨o', st, hp, rfl⟩ := Shared.perform_redis hperf
    have hsame : w'.entry (.tunnelLookup tunnel.githubUserId) = w.entry (.tunnelLookup tunnel.githubUserId) := by
      rw [hentry, (perform_get hp).1]
      rfl
    have hval : v = (w.entry (.tunnelLookup tunnel.githubUserId)).map Entry.value := (perform_get hp).2
    cases he : w.entry (.tunnelLookup tunnel.githubUserId) with
    | none =>
      rw [listOf, hsame, he]
      exact not_mem_nil
    | some e =>
      obtain ⟨l, rfl⟩ := hl.plain _ e he
      rw [hval, he] at hv
      cases hv
  · obtain ⟨⟨user, hcall⟩, -⟩ := deleter hs hth hd
    have hf0 := not_cancelled hg hth hd
    exact unlisted_step hs ho hl hb h hth (isDelete_iff.mpr ⟨user, id, hcall⟩) hr (hb.absent tid th id tunnel hth hd hr hf0)

lemma books_step (hs : Sane config w) (ho : Origins w) (hl : Serial w) (hcl : Disciplined (May config) Closes w.threads)
    (hb : Books w) (hg : OneByOne config w a) (h : step config w a = some w') : Books w' := by
  refine ⟨once_step hs hl hb h, fun owner id hid => owned_step hs hl hb h hid, ?_, ?_, ?_⟩
  · intro tid th tunnel ttl t hth hw hset hgone
    exact kept_step hs hl hb h hth hw hset hgone
  · intro i j th u id tunnel ttl t hth hc hr hu hw
    exact settled_step hs ho hb hg h hth hc hr hu hw
  · intro tid th id tunnel hth hd hr hf
    exact absent_step hs ho hl hb hcl hg h hth hd hr hf

lemma books_init (now : ℕ) : Books (init now) := by
  refine ⟨?_, ?_, ?_, ?_, ?_⟩
  · intro owner
    exact nodup_nil
  · rintro owner id ⟨⟩
  · rintro tid th tunnel ttl t ⟨⟩
  · rintro i j th u id tunnel ttl t ⟨⟩
  · rintro tid th id tunnel ⟨⟩

lemma reach_serial (h : Reach (step config) (OneByOne config) (init now) w) : Serial w := by
  refine h.invariant (fun _ hr => reach_sane hr) (serial_init now) ?_
  intro w a w' hs hl hg hstep
  exact serial_step hs hl hg.1 hstep

lemma reach_books (h : Reach (step config) (OneByOne config) (init now) w) : Books w := by
  induction h with
  | refl => exact books_init now
  | tail hr hg hstep ih =>
    exact books_step (reach_sane hr) (reach_origins hr) (reach_serial hr) (reach_disciplined (call_closes config) hr) ih hg
      hstep

def Stored (w : World) (tunnel : Tunnel) : Prop :=
  ∃ (tid : ℕ) (th : CallThread) (ttl : ℕ) (t : Span Shared), w.threads[tid]? = some th ∧ Wrote th.history tunnel ttl t ∧
    SlotSet th.history tunnel.fqdn

lemma stored_listed {G : World → Action → Prop} (h : Reach (step config) G (init now) w) (hst : Stored w tunnel) :
    ∃ (tid : ℕ) (th : CallThread) (ttl : ℕ) (t : Span Shared), w.threads[tid]? = some th ∧
      Wrote th.history tunnel ttl t ∧ SlotMapping.ListSet th.history tunnel.githubUserId := by
  have hs := reach_sane h
  obtain ⟨tid, th, ttl, t, hth, hw, t', x, v, ttl', hslot⟩ := hst
  obtain ⟨h1, h2, heq⟩ := append_of_mem hslot
  have hsub : h1 ⊆ th.history := by rw [heq]; simp
  obtain hu | ⟨_, _, _, hc, _, _, tunnel', t1, _, _, -, hw', -, -, -, -, -, t2, x2, v2, hset⟩ | ⟨_, hc, -⟩ :=
    reach_permitted (SlotMapping.call_slots config) h hth h1 _ h2 heq
  · cases hu
  · cases hc
    obtain ⟨rfl, -, -⟩ := hs.once hth hw (hw'.mono hsub)
    exact ⟨tid, th, ttl, t, hth, hw, t2, x2, v2, hsub hset⟩
  · cases hc

theorem no_lost_updates {now : ℕ} (h : Reach (step config) (OneByOne config) (init now) w)
    (hdone : ∀ th ∈ w.threads, updates th.call = true → ¬ th.InFlight) (owner : String) :
    (∀ tunnel, tunnel.githubUserId = owner → Stored w tunnel → ¬ Gone w tunnel.id → (listOf w owner).count tunnel.id = 1) ∧
      ∀ id, Gone w id → id ∉ listOf w owner := by
  have hs := reach_sane h
  have ho := reach_origins h
  have hb := reach_books h
  constructor
  · rintro tunnel rfl hst hg
    obtain ⟨tid, th, ttl, t, hth, hw, hset⟩ := stored_listed h hst
    exact count_eq_one_of_mem (hb.once _) (hb.kept tid th tunnel ttl t hth hw hset hg)
  · rintro id ⟨tid, th, hth, hd⟩ hid
    obtain ⟨⟨user, hcall⟩, tunnel, hr⟩ := deleter hs hth hd
    have hup : updates th.call = true := by simp [updates, hcall, isDelete]
    obtain ⟨tunnel', hw', hid', hown⟩ := hb.owned owner id hid
    obtain ⟨hw, heq⟩ := ho.read tid th id tunnel hth hr
    obtain rfl := written_unique hs ho hw hw' (heq.trans hid'.symm)
    exact hb.absent tid th id tunnel hth hd hr (hdone th (mem_of_getElem? hth) hup) (hown ▸ hid)

open Schedule

def finished (w : World) : Bool := w.threads.all fun th => th.prog.next.isNone

lemma finished_done (h : finished w = true) : ∀ th ∈ w.threads, updates th.call = true → ¬ th.InFlight := by
  intro th hth _ hf
  rw [finished, List.all_eq_true] at h
  rw [Thread.InFlight, Option.isNone_iff_eq_none.mp (h th hth)] at hf
  cases hf

theorem no_lost_updates_in_turn : ∃ w, Reach (step deployment) (OneByOne deployment) start w ∧ finished w = true ∧
    listOf w "1" = ["b"] ∧
    (∀ tunnel, tunnel.githubUserId = "1" → Stored w tunnel → ¬ Gone w tunnel.id → (listOf w "1").count tunnel.id = 1) ∧
      ∀ id, Gone w id → id ∉ listOf w "1" := by
  obtain ⟨w, hr, hp⟩ := reach_of_check (step deployment) (OneByOne deployment) start
    (.arrive (.createTunnel alice (request 1800 "demo")) :: create 0 10000 "a" "ka"
      ++ .arrive (.createTunnel alice (request 1800 "other")) :: create 1 10001 "b" "kb"
      ++ .arrive (.deleteTunnel alice "a") :: List.replicate 7 (.exec 2 (.redis .ok)))
    (fun w => finished w && listOf w "1" = ["b"]) (by decide +kernel)
  rw [Bool.and_eq_true, decide_eq_true_eq] at hp
  exact ⟨w, hr, hp.1, hp.2, no_lost_updates hr (finished_done hp.1) "1"⟩

def recordWritten : Ev → Option Tunnel
  | ⟨_, .redis (.setEx (.tunnel id) (.tunnel tunnel) _), _⟩ => if id = tunnel.id then some tunnel else none
  | _ => none

def slotAnswered (fqdn : String) : Ev → Bool
  | ⟨_, .redis (.setEx (.slot fqdn') _ _), .ok _⟩ => fqdn' == fqdn
  | _ => false

lemma wrote_of_recordWritten {e : Ev} (he : e ∈ h) (hw : recordWritten e = some tunnel) :
    ∃ ttl t, Wrote h tunnel ttl t := by
  unfold recordWritten at hw
  split at hw
  · rename_i t id tunnel' ttl r
    split_ifs at hw with hid
    cases hw
    subst hid
    exact ⟨ttl, t, r, he⟩
  · cases hw

lemma slotSet_of_slotAnswered {fqdn : String} (hs : h.any (slotAnswered fqdn) = true) : SlotSet h fqdn := by
  obtain ⟨e, he, hs⟩ := any_eq_true.mp hs
  unfold slotAnswered at hs
  split at hs
  · rename_i t fqdn' v ttl x
    obtain rfl := eq_of_beq hs
    exact ⟨t, x, v, ttl, he⟩
  · cases hs

/-- Both creations read the list before either has written it; the second write drops the first one's entry. -/
theorem update_lost : ∃ w tunnel, Reach (step deployment) Free start w ∧ finished w = true ∧ tunnel.githubUserId = "1" ∧
    Stored w tunnel ∧ ¬ Gone w tunnel.id ∧ tunnel.id ∉ listOf w "1" := by
  obtain ⟨w, hr, hp⟩ := started
    (.arrive (.createTunnel alice (request 1800 "demo")) :: (create 0 10000 "a" "ka").take 16
      ++ .arrive (.createTunnel alice (request 1800 "other")) :: create 1 10001 "b" "kb"
      ++ (create 0 10000 "a" "ka").drop 16)
    (fun w => finished w && listOf w "1" = ["a"] && w.threads.all (fun th => !th.history.any deletesRecord)
      && (w.threads[1]?.any fun th => th.history.any fun e => (recordWritten e).any fun tunnel =>
        tunnel.githubUserId = "1" && tunnel.id = "b" && th.history.any (slotAnswered tunnel.fqdn))) (by decide +kernel)
  simp only [Bool.and_eq_true, decide_eq_true_eq, Option.any_eq_true, List.any_eq_true] at hp
  obtain ⟨⟨⟨hdone, hlist⟩, hkept⟩, th, hth, e, he, tunnel, hw, ⟨howner, hid⟩, hslot⟩ := hp
  obtain ⟨ttl, t, hw⟩ := wrote_of_recordWritten he hw
  have hslot : SlotSet th.history tunnel.fqdn := slotSet_of_slotAnswered (List.any_eq_true.mpr hslot)
  refine ⟨w, tunnel, hr, hdone, howner, ⟨1, th, ttl, t, hth, hw, hslot⟩, ?_, ?_⟩
  · rintro ⟨i, u, hu, t', x, hd⟩
    have hno := List.all_eq_true.mp hkept u (List.mem_of_getElem? hu)
    rw [Bool.not_eq_true', List.any_eq_false] at hno
    exact hno _ hd rfl
  · rw [hlist, hid]
    decide

end FleetingDns.ListExactness
