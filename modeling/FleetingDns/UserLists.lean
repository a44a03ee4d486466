import FleetingDns.Origins
import FleetingDns.SubdomainClaims
namespace FleetingDns.UserLists

open CommandPrograms ExpiringStore ThreadPool GuardedRuns World SubdomainClaims Origins List UserTunnelLookup

variable {config : Config} {w w' : World} {a : Action} {owner : String} {th : CallThread} {tid : ℕ} {o : Choice}

def readsList (owner : String) : Ev → Bool
  | ⟨_, .redis (.get (.tunnelLookup u)), _⟩ => u == owner
  | _ => false

def updates (call : Call) : Bool := isCreate call || isDelete call

def updatesList (owner : String) (th : CallThread) : Bool :=
  updates th.call && th.prog.next.isSome && th.history.getLast?.any (readsList owner)

/-- A list is read for an update only while no other update of it is under way. -/
def listsAlone (w : World) : Action → Bool
  | .exec tid _ => w.threads[tid]?.all fun th => match th.prog.next with
    | some (.redis (.get (.tunnelLookup owner))) =>
      !updates th.call || (w.threads.eraseIdx tid).all fun u => !updatesList owner u
    | _ => true
  | _ => true

def Orderly (config : Config) (w : World) (a : Action) : Prop := Undisturbed config w a ∧ listsAlone w a = true

instance (w : World) (a : Action) : Decidable (Orderly config w a) := inferInstanceAs (Decidable (_ ∧ _))

lemma lists_alone (hg : listsAlone w (.exec tid o) = true)
    (hi : w.Issues tid th (.redis (.get (.tunnelLookup owner)))) (hu : updates th.call = true) {j : ℕ} {u : CallThread}
    (hj : j ≠ tid) (huj : w.threads[j]? = some u) : updatesList owner u = false := by
  obtain ⟨hth, k, hk⟩ := hi
  simp only [listsAlone, hth, Option.all_some, Prog.next_isSome hk, hu, Bool.not_true, Bool.false_or,
    all_eq_true, Bool.not_eq_true'] at hg
  exact hg u (mem_eraseIdx_iff_getElem?.mpr ⟨j, hj, huj⟩)

lemma readsList_iff {e : Ev} : readsList owner e = true ↔ ∃ t r, e = ⟨t, .redis (.get (.tunnelLookup owner)), r⟩ := by
  constructor
  · intro h
    unfold readsList at h
    split at h
    · rename_i t u r
      exact ⟨t, r, by rw [eq_of_beq h]⟩
    · cases h
  · rintro ⟨t, r, rfl⟩
    simp [readsList]

lemma updatesList_iff : updatesList owner th = true ↔ updates th.call = true ∧ th.InFlight ∧
    ∃ h t r, th.history = h ++ [⟨t, .redis (.get (.tunnelLookup owner)), r⟩] := by
  simp only [updatesList, Bool.and_eq_true, Option.any_eq_true, readsList_iff, and_assoc]
  refine and_congr_right fun _ => and_congr_right fun _ => ?_
  constructor
  · rintro ⟨e, he, t, r, rfl⟩
    obtain ⟨h, hh⟩ := List.getLast?_eq_some_iff.mp he
    exact ⟨h, t, r, hh⟩
  · rintro ⟨h, t, r, hh⟩
    exact ⟨_, by rw [hh, List.getLast?_concat], t, r, rfl⟩

def Unlisted (h : List Ev) (owner : String) : Prop := ∀ e ∈ h, ∀ v, e.cmd ≠ .redis (.set (.tunnelLookup owner) v)

def Listed (w : World) (tunnel : Tunnel) : Prop :=
  (∃ (tid : ℕ) (th : CallThread) (ttl : ℕ) (t : Span Shared), w.threads[tid]? = some th ∧ th.InFlight ∧
    Wrote th.history tunnel ttl t ∧ Unclaimed th.history ∧ Unlisted th.history tunnel.githubUserId) ∨
  ∃ l, w.entry (.tunnelLookup tunnel.githubUserId) = some ⟨.lookup l, none⟩ ∧ tunnel.id ∈ l.tunnels

def Plain (w : World) : Prop := ∀ owner e, w.entry (.tunnelLookup owner) = some e → ∃ l, e = ⟨.lookup l, none⟩

structure Serial (w : World) : Prop where
  plain : Plain w
  alone : ∀ (i j : ℕ) (th u : CallThread) (owner : String), w.threads[i]? = some th → w.threads[j]? = some u →
    updatesList owner th = true → updatesList owner u = true → i = j
  fresh : ∀ (tid : ℕ) (th : CallThread) (h : List Ev) (t : Span Shared) (owner : String) (existing : Option Value),
    w.threads[tid]? = some th → updates th.call = true → th.InFlight →
    th.history = h ++ [⟨t, .redis (.get (.tunnelLookup owner)), .ok existing⟩] →
    existing = (w.entry (.tunnelLookup owner)).map Entry.value

structure Lists (w : World) : Prop extends Serial w where
  listed : ∀ id tunnel, w.liveRecord id = some tunnel → Listed w tunnel

lemma setter_updates {v : Value} (hs : Sane config w) (hi : w.Issues tid th (.redis (.set (.tunnelLookup owner) v))) :
    updatesList owner th = true := by
  obtain ⟨t, existing, h0, hh, hm⟩ := hs.may hi
  refine updatesList_iff.mpr ⟨?_, hi.inFlight, h0, t, .ok existing, hh⟩
  obtain ⟨user, request, _, _, _, hcall, -⟩ | ⟨user, id, _, hcall, -⟩ := hm <;>
    simp [updates, hcall, isCreate, isDelete]

lemma list_step (hs : Sane config w) (hl : Plain w) (h : step config w a = some w') (owner : String) :
    w'.entry (.tunnelLookup owner) = w.entry (.tunnelLookup owner) ∨
      ∃ tid o th v, a = .exec tid o ∧ w.Issues tid th (.redis (.set (.tunnelLookup owner) v)) ∧
        MaySetLookup th.call th.history owner v ∧ w'.entry (.tunnelLookup owner) = some ⟨v, none⟩ := by
  obtain heq | ⟨-, ⟨e, he, hdead⟩, -⟩ | ⟨tid, o, th, c, ha, hi, ht, heq⟩ | ⟨_, _, _, -, hk, -⟩ :=
    entry_step h (.tunnelLookup owner)
  · exact .inl heq
  · obtain ⟨l, rfl⟩ := hl owner e he
    cases hdead
  · have hm := hs.may hi
    cases c with
    | set k v => cases ht; exact .inr ⟨tid, o, th, v, ha, hi, hm, heq⟩
    | get | exist | keys => cases ht
    | setEx | setNxEx | del | expire => cases ht; exact absurd (hm _ rfl) (by simp [owned])
  · cases hk

lemma plain_step (hs : Sane config w) (hl : Plain w) (h : step config w a = some w') : Plain w' := by
  intro owner e he
  obtain heq | ⟨tid, o, th, v, -, -, hm, heq⟩ := list_step hs hl h owner
  · exact hl owner e (heq ▸ he)
  · rw [heq] at he
    cases he
    obtain ⟨_, _, _, -, ⟨_, _, _, _, _, -, -, -, rfl⟩ | ⟨_, _, _, -, -, -, rfl⟩⟩ := hm <;> exact ⟨_, rfl⟩

variable {now ttl : ℕ} {th' : CallThread} {t : Span Shared} {l : UserTunnelLookup} {id : String} {tunnel : Tunnel}
    {h : List Ev}

lemma reach_plain {G : World → Action → Prop} (h : Reach (step config) G (init now) w) : Plain w :=
  h.invariant (fun _ hr => reach_sane hr) (by rintro owner e ⟨⟩)
    (fun _ _ _ hs hl _ hstep => plain_step hs hl hstep)

lemma updates_step (h : step config w a = some w') {i : ℕ} (hth : w'.threads[i]? = some th')
    (hu : updatesList owner th' = true) :
    (w.threads[i]? = some th' ∧ (∀ o, a ≠ .exec i o)) ∨
      ∃ o th, a = .exec i o ∧ w.Issues i th (.redis (.get (.tunnelLookup owner))) ∧ updates th.call = true := by
  obtain ⟨hcall, hf, hh, t, r, hlast⟩ := updatesList_iff.mp hu
  have hmem : ⟨t, .redis (.get (.tunnelLookup owner)), r⟩ ∈ th'.history := by simp [hlast]
  obtain hold | ⟨call, -, -, -, rfl⟩ | ⟨o, th, c, k, s, r', ha, hold, hp, -, -, rfl⟩ | ⟨th, -, -, rfl⟩ :=
    thread_step h hth
  · exact .inl hold
  · cases hmem
  · cases (append_inj' hlast rfl).2
    exact .inr ⟨o, th, ha, ⟨hold, k, hp⟩, hcall⟩
  · exact absurd hf (Thread.stop_not_inFlight th _)

lemma alone_step (hl : Serial w) (hg : listsAlone w a = true) (h : step config w a = some w') {i j : ℕ}
    {th u : CallThread} (hi : w'.threads[i]? = some th) (hj : w'.threads[j]? = some u)
    (hth : updatesList owner th = true) (hu : updatesList owner u = true) : i = j := by
  obtain ⟨hi, -⟩ | ⟨o, th0, rfl, hiss, hcall⟩ := updates_step h hi hth <;>
    obtain ⟨hj, -⟩ | ⟨o', u0, ha', hiss', hcall'⟩ := updates_step h hj hu
  · exact hl.alone i j th u owner hi hj hth hu
  · subst ha'
    by_contra hne
    rw [lists_alone hg hiss' hcall' hne hi] at hth
    cases hth
  · by_contra hne
    rw [lists_alone hg hiss hcall (Ne.symm hne) hj] at hu
    cases hu
  · cases ha'
    rfl

lemma fresh_step (hs : Sane config w) (hl : Serial w) (h : step config w a = some w') {hh : List Ev}
    {existing : Option Value} (hth : w'.threads[tid]? = some th') (hcall : updates th'.call = true)
    (hf : th'.InFlight) (hlast : th'.history = hh ++ [⟨t, .redis (.get (.tunnelLookup owner)), .ok existing⟩]) :
    existing = (w'.entry (.tunnelLookup owner)).map Entry.value := by
  have hu : updatesList owner th' = true := updatesList_iff.mpr ⟨hcall, hf, hh, t, _, hlast⟩
  have hmem : ⟨t, .redis (.get (.tunnelLookup owner)), .ok existing⟩ ∈ th'.history := by simp [hlast]
  obtain ⟨hold, hne⟩ | ⟨call, -, -, -, rfl⟩ | ⟨o, th, c, k, s, r', rfl, hold, hp, hperf, hentry, rfl⟩ | ⟨th, -, -, rfl⟩ :=
    thread_step h hth
  · have hval := hl.fresh tid th' hh t owner existing hold hcall hf hlast
    obtain heq | ⟨j, o, u, v, rfl, hi, -, -⟩ := list_step hs hl.plain h owner
    · rw [heq, hval]
    · -- the writer is the one update of this list under way
      obtain rfl := hl.alone j tid u th' owner hi.1 hold (setter_updates hs hi) hu
      exact absurd rfl (hne o)
  · cases hmem
  · cases (append_inj' hlast rfl).2
    obtain ⟨o', st, hget, rfl⟩ := Shared.perform_redis hperf
    rw [hentry, (perform_get hget).1]
    exact (perform_get hget).2
  · exact absurd hf (Thread.stop_not_inFlight th _)

lemma serial_step (hs : Sane config w) (hl : Serial w) (hg : listsAlone w a = true) (h : step config w a = some w') :
    Serial w' := by
  refine ⟨plain_step hs hl.plain h, ?_, ?_⟩
  · intro i j th u owner hi hj hth hu
    exact alone_step hl hg h hi hj hth hu
  · intro tid th hh t owner existing hth hcall hf hlast
    exact fresh_step hs hl h hth hcall hf hlast

lemma mem_push {id' : String} : id' ∈ (l.push id).tunnels ↔ id' ∈ l.tunnels ∨ id' = id := by
  unfold push
  split_ifs with h
  · constructor
    · exact .inl
    · rintro (h' | rfl)
      · exact h'
      · exact h
  · simp

lemma listed_kept (hs : Sane config w) (ho : Origins w) (hl : Lists w) (h : step config w a = some w')
    (hlive : w.liveRecord id = some tunnel)
    (he : w.entry (.tunnelLookup tunnel.githubUserId) = some ⟨.lookup l, none⟩) (hmem : tunnel.id ∈ l.tunnels) :
    Listed w' tunnel := by
  obtain heq | ⟨tid, o, th, v, -, hi, hm, heq⟩ := list_step hs hl.plain h tunnel.githubUserId
  · exact .inr ⟨l, heq.trans he, hmem⟩
  have hup := (updatesList_iff.mp (setter_updates hs hi)).1
  obtain ⟨t, existing, h0, hlast, hm⟩ := hm
  have hval := hl.fresh tid th h0 t _ existing hi.1 hup hi.inFlight hlast
  rw [he] at hval
  subst hval
  obtain ⟨user, request, tunnel', ttl, t', -, -, -, rfl⟩ | ⟨user, id', l', -, hdel, hl', rfl⟩ := hm
  · exact .inr ⟨_, heq, mem_push.mpr (.inl hmem)⟩
  cases hl'
  have hnone := ho.deleted tid th id' hi.1 hdel
  have hne : tunnel.id ≠ id' := by
    intro hid
    obtain ⟨e, he', -, hv⟩ := liveRecord_some hlive
    obtain ⟨_, _, rfl, hid', -⟩ := hs.record id e he'
    cases hv
    rw [← hid', hid, hnone] at he'
    cases he'
  refine .inr ⟨_, heq, ?_⟩
  simpa [remove] using ⟨hmem, hne⟩

lemma unlisted_snoc {e : Ev} (hu : Unlisted h owner) (he : ∀ v, e.cmd ≠ .redis (.set (.tunnelLookup owner) v)) :
    Unlisted (h ++ [e]) owner := by
  unfold Unlisted
  rw [forall_mem_append, forall_mem_singleton]
  exact ⟨hu, he⟩

lemma unlisted_of_unpublished (hu : Unpublished h) : Unlisted h owner := by
  intro e he v hcmd
  have hp := hu e he
  rw [hcmd] at hp
  cases hp

lemma listing_step (hs : Sane config w) (hg : Undisturbed config w a) (h : step config w a = some w')
    (hth : w.threads[tid]? = some th) (hf : th.InFlight) (hw : Wrote th.history tunnel ttl t)
    (hun : Unclaimed th.history) (hul : Unlisted th.history tunnel.githubUserId) : Listed w' tunnel := by
  obtain hth' | ⟨o, c, k, s, r, rfl, hk, hpub, hperf, hentry, hth'⟩ := writer_step hs hg h hth hw hun
  · exact .inl ⟨tid, th, ttl, t, hth', hf, hw, hun, hul⟩
  have hi : w.Issues tid th c := ⟨hth, k, hk⟩
  have hok := publishes_answered hg hi hpub hperf
  have hnc : c.claimsSubdomain = false := by
    by_contra hc
    obtain ⟨name, v, ttl', rfl⟩ := claim_of_claimsSubdomain (Bool.eq_true_of_not_eq_false hc)
    obtain ⟨_, _, tunnel', t1, -, hw', -, -, -, t', x, v', hset⟩ := hs.may hi
    obtain ⟨rfl, -, -⟩ := hs.once hth hw hw'
    exact absurd rfl (hul _ hset v')
  by_cases hset : ∃ v, c = .redis (.set (.tunnelLookup tunnel.githubUserId) v)
  · obtain ⟨v, rfl⟩ := hset
    obtain _ | _ := r
    · cases hok
    obtain ⟨o', st, hp, rfl⟩ := Shared.perform_redis hperf
    obtain ⟨_, existing, _, -, ⟨_, _, tunnel', _, _, -, hw', hn, rfl⟩ | ⟨_, _, _, hcall, -⟩⟩ := hs.may hi
    · obtain ⟨rfl, -, -⟩ := hs.once hth hw hw'
      exact .inr ⟨_, (hentry _).trans (perform_set hp), mem_push.mpr (.inr rfl)⟩
    · have hcr := (wrote_asked hs hth hw).1
      rw [hcall] at hcr
      cases hcr
  · have hf' := publishes_on hs hg hth hk hpub hnc hperf
    refine .inl ⟨tid, _, ttl, t, hth', hf', hw.mono (by simp), unclaimed_snoc hun hnc, unlisted_snoc hul ?_⟩
    intro v hv
    exact hset ⟨v, hv⟩

lemma listed_stored (hs : Sane config w) (hg : Undisturbed config w (.exec tid o))
    (h : step config w (.exec tid o) = some w')
    (hi : w.Issues tid th (.redis (.setEx (.tunnel id) (.tunnel tunnel) ttl))) : Listed w' tunnel := by
  obtain ⟨hu, th', s, r, hth', hf, hun, hw, hhist⟩ := stored_writer hs hg h hi
  refine .inl ⟨tid, th', ttl, ⟨w.shared, s⟩, hth', hf, hw, hun, ?_⟩
  rw [hhist]
  exact unlisted_snoc (unlisted_of_unpublished hu) (by rintro v ⟨⟩)

lemma lists_step (hs : Sane config w) (ho : Origins w) (hl : Lists w) (hg : Orderly config w a)
    (h : step config w a = some w') : Lists w' := by
  refine ⟨serial_step hs hl.toSerial hg.2 h, ?_⟩
  intro id tunnel hlive
  obtain ⟨hold, -⟩ | ⟨tid, o, th, ttl, rfl, hi, -, -⟩ := live_step hs h hlive
  · obtain ⟨tid, th, ttl, t, hth, hf, hw, hun, hul⟩ | ⟨l, he, hmem⟩ := hl.listed id tunnel hold
    · exact listing_step hs hg.1 h hth hf hw hun hul
    · exact listed_kept hs ho hl h hold he hmem
  · exact listed_stored hs hg.1 h hi

lemma serial_init (now : ℕ) : Serial (init now) := by
  refine ⟨?_, ?_, ?_⟩
  · rintro owner e ⟨⟩
  · rintro i j th u owner ⟨⟩
  · rintro tid th hh t owner existing ⟨⟩

lemma reach_lists (h : Reach (step config) (Orderly config) (init now) w) : Lists w :=
  h.invariant (J := fun w => Sane config w ∧ Origins w) (fun _ hr => ⟨reach_sane hr, reach_origins hr⟩) 
    ⟨serial_init now, by rintro id tunnel ⟨⟩⟩
    (fun _ _ _ hj hl hg hstep => lists_step hj.1 hj.2 hl hg hstep)

end FleetingDns.UserLists
