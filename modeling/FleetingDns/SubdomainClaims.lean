import FleetingDns.StoredRecords
namespace FleetingDns.SubdomainClaims

open CommandPrograms ExpiringStore ThreadPool World List

variable {config : Config} {w w' : World} {a : Action} {name : String} {th : CallThread} {tid : ℕ} {o : Choice}

def asksFor (name : String) : Ev → Bool
  | ⟨_, .redis (.get (.subdomain n)), _⟩ => n == name
  | _ => false

def recordRead : Ev → Option Tunnel
  | ⟨_, .redis (.get (.tunnel _)), .ok (some (.tunnel tunnel))⟩ => some tunnel
  | _ => none

def isCreate : Call → Bool
  | .createTunnel _ _ => true
  | _ => false

def isDelete : Call → Bool
  | .deleteTunnel _ _ => true
  | _ => false

def creates (name : String) (th : CallThread) : Bool :=
  isCreate th.call && th.prog.next.isSome && th.history.any (asksFor name)

def deletes (name : String) (th : CallThread) : Bool :=
  isDelete th.call && th.prog.next.isSome && th.history.any fun e => (recordRead e).any (·.subdomain == name)

/-- A creation asks for a name only while no other creation or deletion of it is in flight. -/
def asksAlone (w : World) (tid : ℕ) (call : Call) : Cmd → Bool
  | .redis (.get (.subdomain name)) =>
    !isCreate call || (w.threads.eraseIdx tid).all fun th => !(creates name th || deletes name th)
  | _ => true

/-- A deletion reads a record only before its deadline and while no creation of its name is in flight. -/
def readsLive (w : World) (call : Call) : Cmd → Bool
  | .redis (.get (.tunnel id)) => !isDelete call || (w.entry (.tunnel id)).all fun e =>
      e.live w.shared.now && e.value.asTunnel.all fun tunnel => w.threads.all fun th => !creates tunnel.subdomain th
  | _ => true

def publishing (th : CallThread) (c : Cmd) : Bool :=
  isCreate th.call && decide (Unclaimed th.history) && (c.publishes || decide (¬ Unpublished th.history))

/-- From storing its record to claiming its name, every command of a creation succeeds. -/
def answered (config : Config) (w : World) (th : CallThread) (c : Cmd) (o : Choice) : Bool :=
  !publishing th c || (w.shared.perform config th.call c o).all fun r => succeeds c r.2

def undisturbed (config : Config) (w : World) : Action → Bool
  | .exec tid o => match w.threads[tid]? with
    | some th => match th.prog with
      | .call c _ => asksAlone w tid th.call c && readsLive w th.call c && answered config w th c o
      | .ret _ => true
    | none => true
  | .cancel tid => w.threads[tid]?.all fun th => !publishing th .utcNow
  | _ => true

def Undisturbed (config : Config) (w : World) (a : Action) : Prop := undisturbed config w a = true

instance (w : World) (a : Action) : Decidable (Undisturbed config w a) := inferInstanceAs (Decidable (_ = true))

variable {call : Call} {e : Ev} {tunnel : Tunnel} {h : List Ev} {ttl : ℕ} {t : Span Shared}

lemma isCreate_iff : isCreate call = true ↔ ∃ user request, call = .createTunnel user request := by
  cases call <;> simp [isCreate]

lemma isDelete_iff : isDelete call = true ↔ ∃ user id, call = .deleteTunnel user id := by
  cases call <;> simp [isDelete]

lemma asksFor_iff : asksFor name e = true ↔ ∃ t r, e = ⟨t, .redis (.get (.subdomain name)), r⟩ := by
  constructor
  · intro h
    unfold asksFor at h
    split at h
    · rename_i t n r
      exact ⟨t, r, by rw [eq_of_beq h]⟩
    · cases h
  · rintro ⟨t, r, rfl⟩
    simp [asksFor]

lemma recordRead_iff :
    recordRead e = some tunnel ↔ ∃ t id, e = ⟨t, .redis (.get (.tunnel id)), .ok (some (.tunnel tunnel))⟩ := by
  constructor
  · intro h
    unfold recordRead at h
    split at h
    · rename_i t id _
      cases h
      exact ⟨t, id, rfl⟩
    · cases h
  · rintro ⟨t, id, rfl⟩
    rfl

def Asked (h : List Ev) (name : String) : Prop := ∃ t r, (⟨t, .redis (.get (.subdomain name)), r⟩ : Ev) ∈ h

lemma creates_iff : creates name th = true ↔ isCreate th.call = true ∧ th.InFlight ∧ Asked th.history name := by
  simp only [creates, Bool.and_eq_true, any_eq_true, asksFor_iff, and_assoc]
  refine and_congr_right fun _ => and_congr_right fun _ => ?_
  constructor
  · rintro ⟨e, he, t, r, rfl⟩
    exact ⟨t, r, he⟩
  · rintro ⟨t, r, he⟩
    exact ⟨_, he, t, r, rfl⟩

lemma deletes_iff : deletes name th = true ↔
    isDelete th.call = true ∧ th.InFlight ∧ ∃ id tunnel, Read th.history id tunnel ∧ tunnel.subdomain = name := by
  simp only [deletes, Bool.and_eq_true, any_eq_true, Option.any_eq_true, recordRead_iff, beq_iff_eq, and_assoc]
  refine and_congr_right fun _ => and_congr_right fun _ => ?_
  constructor
  · rintro ⟨e, he, tunnel, ⟨t, id, rfl⟩, hn⟩
    exact ⟨id, tunnel, ⟨t, he⟩, hn⟩
  · rintro ⟨id, tunnel, ⟨t, he⟩, hn⟩
    exact ⟨_, he, tunnel, ⟨t, id, rfl⟩, hn⟩

lemma unclaimed_snoc (hu : Unclaimed h) (he : e.cmd.claimsSubdomain = false) : Unclaimed (h ++ [e]) := by
  unfold Unclaimed
  rw [forall_mem_append, forall_mem_singleton]
  exact ⟨hu, he⟩

lemma unclaimed_of_unpublished (hu : Unpublished h) : Unclaimed h := by
  intro e he
  have hp := hu e he
  unfold Cmd.publishes at hp
  unfold Cmd.claimsSubdomain
  split at hp
  · cases hp
  · cases hp
  · cases hp
  · split
    · rename_i hne _ _ _ _ hcmd
      exact absurd hcmd (by simpa using hne _ _ _)
    · rfl

lemma claim_of_claimsSubdomain {c : Cmd} (h : c.claimsSubdomain = true) :
    ∃ name v ttl, c = .redis (.setNxEx (.subdomain name) v ttl) := by
  unfold Cmd.claimsSubdomain at h
  split at h
  · exact ⟨_, _, _, rfl⟩
  · cases h

lemma asked_of_available (ha : Available h name) : Asked h name := by
  obtain ⟨t, ht⟩ | ⟨v, id, ⟨t, ht⟩, -⟩ := ha
  · exact ⟨t, _, ht⟩
  · exact ⟨t, _, ht⟩

lemma wrote_asked (hs : Sane config w) (hth : w.threads[tid]? = some th) (hw : Wrote th.history tunnel ttl t) :
    isCreate th.call = true ∧ Asked th.history tunnel.subdomain := by
  obtain ⟨r, hr⟩ := hw
  obtain ⟨h1, h2, heq⟩ := append_of_mem hr
  obtain ⟨user, request, tunnel', _, _, hcall, ht, -, -, -, -, ha, -⟩ := hs.permitted tid th hth h1 _ h2 heq
  cases ht
  refine ⟨isCreate_iff.mpr ⟨user, request, hcall⟩, ?_⟩
  obtain ⟨t', r', hm⟩ := asked_of_available ha
  exact ⟨t', r', by rw [heq]; exact mem_append_left _ hm⟩

section

variable {c : Cmd}

section

variable (hg : Undisturbed config w (.exec tid o))

include hg

lemma undisturbed_exec (hi : w.Issues tid th c) :
    asksAlone w tid th.call c = true ∧ readsLive w th.call c = true ∧ answered config w th c o = true := by
  obtain ⟨hth, k, hk⟩ := hi
  simpa [Undisturbed, undisturbed, hth, hk, and_assoc] using hg

lemma asks_alone (hi : w.Issues tid th (.redis (.get (.subdomain name))))
    (hc : isCreate th.call = true) {j : ℕ} {u : CallThread} (hj : j ≠ tid) (hu : w.threads[j]? = some u) :
    creates name u = false ∧ deletes name u = false := by
  have h := (undisturbed_exec hg hi).1
  simp only [asksAlone, hc, Bool.not_true, Bool.false_or, all_eq_true, Bool.not_eq_true', Bool.or_eq_false_iff] at h
  exact h u (mem_eraseIdx_iff_getElem?.mpr ⟨j, hj, hu⟩)

lemma reads_live {id : String}
    (hi : w.Issues tid th (.redis (.get (.tunnel id)))) (hc : isDelete th.call = true) {e : Entry Value}
    (he : w.entry (.tunnel id) = some e) : e.live w.shared.now = true ∧
      ∀ tunnel, e.value = .tunnel tunnel → ∀ (j : ℕ) u, w.threads[j]? = some u →
        creates tunnel.subdomain u = false := by
  have h := (undisturbed_exec hg hi).2.1
  simp only [readsLive, hc, he, Bool.not_true, Bool.false_or, Option.all_some, Bool.and_eq_true] at h
  refine ⟨h.1, fun tunnel ht j u hu => ?_⟩
  have hall := h.2
  rw [ht] at hall
  simp only [Value.asTunnel, Option.all_some, all_eq_true, Bool.not_eq_true'] at hall
  exact hall u (mem_of_getElem? hu)

end

variable {s : Shared} {r : c.Reply}

lemma publishes_answered (hg : Undisturbed config w (.exec tid o)) (hi : w.Issues tid th c)
    (hp : publishing th c = true) (hr : w.shared.perform config th.call c o = some (s, r)) : succeeds c r = true := by
  have h := (undisturbed_exec hg hi).2.2
  simpa [answered, hp, hr] using h

lemma publishing_iff : publishing th c = true ↔
    isCreate th.call = true ∧ Unclaimed th.history ∧ (c.publishes = true ∨ ¬ Unpublished th.history) := by
  simp [publishing, and_assoc]

lemma publishes_on (hs : Sane config w) (hg : Undisturbed config w (.exec tid o)) (hth : w.threads[tid]? = some th)
    {k : c.Reply → Program Done} (hk : th.prog = .call c k) (hp : publishing th c = true)
    (hc : c.claimsSubdomain = false) (hr : w.shared.perform config th.call c o = some (s, r)) :
    (th.advance ⟨w.shared, s⟩ c k r).InFlight := by
  obtain ⟨hcall, hun, hpub⟩ := publishing_iff.mp hp
  by_contra hf
  obtain ⟨a, he⟩ := hs.disciplined.ends hth hk hf
  obtain hu | hcl | ⟨h0, e, heq, hfail⟩ := he (isCreate_iff.mp hcall)
  · obtain hpub | hpub := hpub
    · have hlast : c.publishes = false := hu ⟨⟨w.shared, s⟩, c, r⟩ (by simp)
      rw [hlast] at hpub
      cases hpub
    · exact hpub fun e he => hu e (mem_append_left _ he)
  · exact hcl (unclaimed_snoc hun hc)
  · cases (append_inj' heq rfl).2
    rw [publishes_answered hg ⟨hth, k, hk⟩ hp hr] at hfail
    cases hfail

end

lemma writer_step (hs : Sane config w) (hg : Undisturbed config w a) (h : step config w a = some w')
    (hth : w.threads[tid]? = some th) (hw : Wrote th.history tunnel ttl t) (hun : Unclaimed th.history) :
    w'.threads[tid]? = some th ∨ ∃ o c k s r, a = .exec tid o ∧ th.prog = .call c k ∧ publishing th c = true ∧
      w.shared.perform config th.call c o = some (s, r) ∧ (∀ key, w'.entry key = s.store.lookup key) ∧
      w'.threads[tid]? = some (th.advance ⟨w.shared, s⟩ c k r) := by
  have hpub : ∀ c, publishing th c = true := fun c =>
    publishing_iff.mpr ⟨(wrote_asked hs hth hw).1, hun, .inr hw.published⟩
  obtain ⟨th', hth', -, hsub⟩ := thread_kept h hth
  obtain ⟨hkept, -⟩ | ⟨call, -, -, -, rfl⟩ | ⟨o, u, c, k, s, r, rfl, hu, hk, hperf, hentry, rfl⟩ | ⟨u, rfl, hu, -⟩ :=
    thread_step h hth'
  · rw [hth, Option.some.injEq] at hkept
    subst hkept
    exact .inl hth'
  · obtain ⟨r, hr⟩ := hw
    cases hsub hr
  · rw [hth, Option.some.injEq] at hu
    subst hu
    exact .inr ⟨o, c, k, s, r, rfl, hk, hpub c, hperf, hentry, hth'⟩
  · rw [hth] at hu
    simp [Undisturbed, undisturbed, hth, hpub] at hg

lemma stored_writer (hs : Sane config w) (hg : Undisturbed config w (.exec tid o))
    (h : step config w (.exec tid o) = some w') {id : String}
    (hi : w.Issues tid th (.redis (.setEx (.tunnel id) (.tunnel tunnel) ttl))) :
    Unpublished th.history ∧ ∃ th' s r, w'.threads[tid]? = some th' ∧ th'.InFlight ∧ Unclaimed th'.history ∧
      Wrote th'.history tunnel ttl ⟨w.shared, s⟩ ∧
      th'.history = th.history ++ [⟨⟨w.shared, s⟩, .redis (.setEx (.tunnel id) (.tunnel tunnel) ttl), r⟩] := by
  obtain ⟨k, s, r, hk, hperf, -, hth'⟩ := exec_step h hi
  obtain ⟨user, request, _, _, _, hcall, ht, rfl, -, hu, -⟩ := hs.may hi
  cases ht
  have hun : Unclaimed th.history := unclaimed_of_unpublished hu
  have hp : publishing th (.redis (.setEx (.tunnel tunnel.id) (.tunnel tunnel) ttl)) = true :=
    publishing_iff.mpr ⟨isCreate_iff.mpr ⟨user, request, hcall⟩, hun, .inl rfl⟩
  have hf := publishes_on hs hg hi.1 hk hp rfl hperf
  exact ⟨hu, _, s, r, hth', hf, unclaimed_snoc hun rfl, ⟨r, by simp⟩, rfl⟩

end FleetingDns.SubdomainClaims
