import FleetingDns.Library.ProgramRuns
import FleetingDns.TunnelRecords
namespace FleetingDns.RedisAuth

open CommandPrograms ExpiringStore ThreadPool Option AList Entry

/-- Commands on the keys `{key_prefix}:{session}` and on the sets `user:{id}:sessions`. -/
inductive SetCmd where
  | session (c : StoreCmd String SessionData)
  | sadd (user sessionId : String)
  | srem (user sessionId : String)
  | expire (user : String) (ttl : ℤ)
  | smembers (user : String)

@[reducible] def SetCmd.Reply : SetCmd → Type
  | .session c => c.Reply
  | .sadd _ _ | .srem _ _ => Unit
  | .expire _ _ => Bool
  | .smembers _ => List String

inductive AuthCmd where
  | utcNow
  | redis (c : SetCmd)

@[reducible] def AuthCmd.Reply : AuthCmd → Type
  | .utcNow => ℕ
  | .redis c => Except String c.Reply

abbrev Handler := ExceptT String (Prog AuthCmd AuthCmd.Reply)

def issue (c : AuthCmd) : Prog AuthCmd AuthCmd.Reply c.Reply := Prog.issue c

def utcNow : Handler ℕ := ExceptT.lift (issue .utcNow)

def query (c : SetCmd) (context : String) : Handler c.Reply := ExceptT.mk do
  match ← issue (.redis c) with
  | .ok r => return .ok r
  | .error _ => return .error context

def addAuthorizedKey (sessionData : SessionData) : Handler Unit := do
  let now ← utcNow
  let ttl := asU64 (numSeconds (sessionData.expiresAt - now))
  query (.session (.setEx sessionData.sessionId sessionData ttl)) "Failed to store session data in Redis"
  query (.sadd sessionData.githubUserId sessionData.sessionId) "Failed to add session to user list"
  let _ ← query (.expire sessionData.githubUserId (asI64 (ttl + 300))) "Failed to set TTL on user session list"
  return

def removeAuthorizedKey (sessionId : String) : Handler Bool := do
  match ← query (.session (.get sessionId)) "Failed to get session data from Redis" with
  | some session =>
    query (.session (.del sessionId)) "Failed to delete session data from Redis"
    query (.srem session.githubUserId sessionId) "Failed to remove session from user list"
    return true
  | none => return false

def cleanupKeys : List String → ℕ → Handler ℕ
  | [], cleanedCount => return cleanedCount
  | key :: keys, cleanedCount => do
    match ← query (.session (.get key)) "Failed to get session data from Redis" with
    | some session =>
      let now ← utcNow
      if session.expiresAt < now then
        query (.session (.del key)) "Failed to delete expired session"
        query (.srem session.githubUserId session.sessionId) "Failed to remove session from user list"
        cleanupKeys keys (cleanedCount + 1)
      else
        cleanupKeys keys cleanedCount
    | none => cleanupKeys keys cleanedCount

def cleanupExpiredSessions : Handler ℕ := do
  let keys ← query (.session (.keys fun _ => true)) "Failed to get session keys from Redis"
  cleanupKeys keys 0

def getUserSessions (user : String) : Handler (List String) := query (.smembers user) "Failed to get user sessions from Redis"

inductive AuthCall where
  | add (sessionData : SessionData)
  | remove (sessionId : String)
  | cleanup

def AuthCall.program : AuthCall → Handler Unit
  | .add sessionData => addAuthorizedKey sessionData
  | .remove sessionId => do
    let _ ← removeAuthorizedKey sessionId
    return
  | .cleanup => do
    let _ ← cleanupExpiredSessions
    return

structure KeyStore where
  now : ℕ
  sessions : Store String SessionData
  lists : Store String (List String)

def outcome (listing : List String) : StoreCmd String SessionData → Outcome String
  | .keys _ => .listed listing
  | _ => .ok

def KeyStore.answer (s : KeyStore) (listing : List String) : (c : SetCmd) → Option (KeyStore × Except String c.Reply)
  | .session c => (perform s.now s.sessions c (outcome listing c)).map fun r => ({ s with sessions := r.1 }, r.2)
  | .sadd user sessionId =>
    let old := s.lists.lookup user
    let new := ⟨((old.map value).getD []).insert sessionId, old.bind deadline⟩
    some ({ s with lists := s.lists.insert user new }, .ok ())
  | .srem user sessionId => match s.lists.lookup user with
    | none => some (s, .ok ())
    | some e =>
      let kept := e.value.filter (· ≠ sessionId)
      let lists := if kept = [] then s.lists.erase user else s.lists.insert user ⟨kept, e.deadline⟩
      some ({ s with lists := lists }, .ok ())
  | .expire user ttl => (perform s.now s.lists (.expire user ttl) .ok).map fun r => ({ s with lists := r.1 }, r.2)
  | .smembers user => some (s, .ok (((s.lists.lookup user).map value).getD []))

def KeyStore.perform (s : KeyStore) : (c : AuthCmd) → List String → Option (KeyStore × c.Reply)
  | .utcNow, _ => some (s, s.now)
  | .redis c, listing => s.answer listing c

inductive Drifts (s : KeyStore) : KeyStore → Prop
  | refl : Drifts s s
  | tick {s' : KeyStore} (d : ℕ) : Drifts s s' → Drifts s { s' with now := s'.now + d }
  | session {s' : KeyStore} {k : String} {sessions : Store String SessionData} : Drifts s s' →
      lapse s'.now s'.sessions k = some sessions → Drifts s { s' with sessions := sessions }
  | list {s' : KeyStore} {k : String} {lists : Store String (List String)} : Drifts s s' →
      lapse s'.now s'.lists k = some lists → Drifts s { s' with lists := lists }

abbrev AuthEvent := Event KeyStore AuthCmd AuthCmd.Reply

inductive Ran (G : AuthEvent → Bool) : KeyStore → Prop
  | start (now : ℕ) : Ran G ⟨now, ∅, ∅⟩
  | drift {s s' : KeyStore} : Ran G s → Drifts s s' → Ran G s'
  | call {s s' : KeyStore} {call : AuthCall} {es : List AuthEvent} {r : Except String Unit} : Ran G s →
      Attempt KeyStore.perform Drifts s call.program.run es s' (some r) → (∀ e ∈ es, G e = true) → Ran G s'

/-- The expiry set on a user's list finds the list, and no session of the user is to outlive it. -/
def timely : AuthEvent → Bool
  | ⟨t, .redis (.expire user ttl), .ok true⟩ => 0 < ttl && t.after.sessions.entries.all fun x =>
      x.2.value.githubUserId ≠ user || x.2.deadline.any (· ≤ t.after.now + ttl.toNat * second)
  | ⟨_, .redis (.expire _ _), _⟩ => false
  | _ => true

def Goes (s : KeyStore) (c : AuthCmd) (r : c.Reply) (s' : KeyStore) : Prop :=
  ∃ t listing, Drifts s t ∧ t.perform c listing = some (s', r) ∧ timely ⟨⟨t, s'⟩, c, r⟩ = true

def Listed (s : KeyStore) (k : String) (e : Entry SessionData) : Prop :=
  ∃ l, s.lists.lookup e.value.githubUserId = some l ∧ k ∈ l.value ∧
    ∀ d, l.deadline = some d → ∃ d', e.deadline = some d' ∧ d' ≤ d

structure Covered (X : String → Prop) (s : KeyStore) : Prop where
  keyed : ∀ k e, s.sessions.lookup k = some e → e.value.sessionId = k
  listed : ∀ k e, s.sessions.lookup k = some e → ¬ X k → e.live s.now = true → Listed s k e

abbrev Complete : KeyStore → Prop := Covered fun _ => False

section

variable {X Y : String → Prop} {s s' : KeyStore} {user k : String} {r : Except String Unit} {x : Unit}

lemma Drifts.sessions {e : Entry SessionData} (h : Drifts s s') (he : s'.sessions.lookup k = some e) :
    s.sessions.lookup k = some e := by
  induction h with
  | refl => exact he
  | session _ hl ih => exact ih (lapse_some hl he)
  | tick _ _ ih | list _ _ ih => exact ih he

lemma Drifts.lists {l : Entry (List String)} (h : Drifts s s') (he : s'.lists.lookup k = some l) :
    s.lists.lookup k = some l := by
  induction h with
  | refl => exact he
  | list _ hl ih => exact ih (lapse_some hl he)
  | tick _ _ ih | session _ _ ih => exact ih he

lemma Covered.drift (hc : Covered X s) (h : Drifts s s') : Covered X s' := by
  refine ⟨fun k e he => hc.keyed k e (h.sessions he), ?_⟩
  intro k e he hX hlive
  induction h with
  | refl => exact hc.listed k e he hX hlive
  | tick d _ ih =>
    refine ih he ?_
    rw [live_iff] at hlive ⊢
    intro d' hd'
    exact Nat.lt_of_le_of_lt (Nat.le_add_right _ d) (hlive d' hd')
  | session _ hl ih => exact ih (lapse_some hl he) hlive
  | @list s' j _ _ hl ih =>
    obtain ⟨l, hlist, hmem, hle⟩ := ih he hlive
    refine ⟨l, ?_, hmem, hle⟩
    by_cases hj : e.value.githubUserId = j
    · -- a list past its deadline has outlived the session it lists
      subst hj
      obtain ⟨⟨l', hl', hdead⟩, -⟩ := lapse_target hl
      obtain rfl := mem_unique hlist hl'
      cases hdeadline : l.deadline with
      | none => simp [live, hdeadline] at hdead
      | some d =>
        obtain ⟨d', hd', hle'⟩ := hle d hdeadline
        have hlt : s'.now < d' := live_iff.mp hlive d' hd'
        simp only [live, hdeadline, all_some, decide_eq_false_iff_not] at hdead
        omega
    · rw [lapse_frame hl hj]
      exact hlist

lemma goes_session {c : StoreCmd String SessionData} {r : Except String c.Reply} (h : Goes s (.redis (.session c)) r s') :
    ∃ t listing, Drifts s t ∧ perform t.now t.sessions c (outcome listing c) = some (s'.sessions, r) ∧
      s'.lists = t.lists ∧ s'.now = t.now := by
  obtain ⟨t, listing, hd, h, -⟩ := h
  obtain ⟨_, hp, heq⟩ := map_eq_some_iff.mp h
  cases heq
  exact ⟨t, listing, hd, hp, rfl, rfl⟩

section

variable {c : StoreCmd String SessionData} {r : Except String c.Reply} (hc : Covered X s)
  (h : Goes s (.redis (.session c)) r s')

include hc h

/-- A command on one session leaves the others as they are. -/
lemma Covered.session (hX : ∀ k, X k → Y k)
    (hk : ∀ k e, c.target = some k → s'.sessions.lookup k = some e → Y k ∧ e.value.sessionId = k) : Covered Y s' := by
  obtain ⟨t, listing, hd, hp, hl, hn⟩ := goes_session h
  refine ⟨fun k e he => ?_, fun k e he hY hlive => ?_⟩
  · by_cases ht : c.target = some k
    · exact (hk k e ht he).2
    · exact (hc.drift hd).keyed k e (perform_frame hp ht ▸ he)
  · by_cases ht : c.target = some k
    · exact absurd (hk k e ht he).1 hY
    · obtain ⟨l, hlist, hmem, hle⟩ := (hc.drift hd).listed k e (perform_frame hp ht ▸ he) (hY ∘ hX k) (hn ▸ hlive)
      exact ⟨l, hl ▸ hlist, hmem, hle⟩

lemma Covered.read (hread : c.target = none) : Covered X s' :=
  hc.session h (fun _ hX => hX) fun k e ht => by cases hread.symm.trans ht

end

lemma Complete.refused {sessionData : SessionData} {ttl : ℕ} {e : String} (hc : Complete s)
    (h : Goes s (.redis (.session (.setEx k sessionData ttl))) (.error e) s') : Complete s' := by
  obtain ⟨t, listing, hd, hp, hl, hn⟩ := goes_session h
  have hsame : s' = t := by
    simp only [outcome, perform] at hp
    split at hp
    · cases hp
    cases s'
    cases t
    cases hp
    cases hl
    cases hn
    rfl
  exact hsame ▸ hc.drift hd

lemma goes_del (h : Goes s (.redis (.session (.del k))) r s') : s'.sessions.lookup k = none := by
  obtain ⟨t, listing, -, hp, -⟩ := goes_session h
  cases r with
  | ok => exact perform_del hp
  | error => simp [outcome, perform, apply] at hp

lemma covered_sadd (hc : Covered X s) (h : Goes s (.redis (.sadd user k)) r s') : Covered X s' ∧
    (∀ j e, s'.sessions.lookup j = some e → s.sessions.lookup j = some e) ∧
    ∀ l, s'.lists.lookup user = some l → k ∈ l.value := by
  obtain ⟨t, listing, hd, h, -⟩ := h
  cases h
  refine ⟨⟨(hc.drift hd).keyed, ?_⟩, fun j e he => hd.sessions he, ?_⟩
  · intro j e he hX hlive
    obtain ⟨l, hlist, hmem, hle⟩ := (hc.drift hd).listed j e he hX hlive
    by_cases hu : e.value.githubUserId = user
    · subst hu
      exact ⟨_, lookup_insert _, by simp [hlist, hmem], by simpa [hlist] using hle⟩
    · exact ⟨l, by rw [lookup_insert_ne hu, hlist], hmem, hle⟩
  · rw [lookup_insert]
    simp

lemma covered_srem (hc : Covered X s) (hgone : s.sessions.lookup k = none) (h : Goes s (.redis (.srem user k)) r s') :
    Covered X s' := by
  obtain ⟨t, listing, hd, h, -⟩ := h
  simp only [KeyStore.perform, KeyStore.answer] at h
  split at h
  · cases h
    exact hc.drift hd
  rename_i l0 hl0
  cases h
  refine ⟨(hc.drift hd).keyed, ?_⟩
  intro j e he hX hlive
  obtain ⟨l, hlist, hmem, hle⟩ := (hc.drift hd).listed j e he hX hlive
  by_cases hu : e.value.githubUserId = user
  · subst hu
    obtain rfl := mem_unique hl0 hlist
    have hkept : j ∈ l0.value.filter (· ≠ k) := by
      rw [List.mem_filter, decide_eq_true_eq]
      refine ⟨hmem, ?_⟩
      rintro rfl
      cases hgone.symm.trans (hd.sessions he)
    rw [if_neg (List.ne_nil_of_mem hkept)]
    exact ⟨_, lookup_insert _, hkept, hle⟩
  · refine ⟨l, ?_, hmem, hle⟩
    split_ifs
    · rw [lookup_erase_ne hu, hlist]
    · rw [lookup_insert_ne hu, hlist]

lemma covered_expire {ttl : ℤ} {r : Except String Bool} (hc : Covered (· = k) s)
    (howner : ∀ e, s.sessions.lookup k = some e → e.value.githubUserId = user)
    (hlist : ∀ l, s.lists.lookup user = some l → k ∈ l.value) (h : Goes s (.redis (.expire user ttl)) r s') :
    Complete s' := by
  obtain ⟨t, listing, hd, h, ht⟩ := h
  obtain ⟨⟨lists, r'⟩, hp, heq⟩ := map_eq_some_iff.mp h
  cases heq
  match r' with
  | .error e | .ok false => cases ht
  | .ok true =>
    simp only [timely, Bool.and_eq_true, List.all_eq_true, decide_eq_true_eq] at ht
    obtain ⟨hpos, hlate⟩ := ht
    obtain ⟨v, hv⟩ := perform_expire hp hpos
    obtain ⟨l, hl, hvalue⟩ | ⟨⟨⟩⟩ := perform_value hp hv
    refine ⟨(hc.drift hd).keyed, ?_⟩
    intro j e he _ hlive
    by_cases hu : e.value.githubUserId = user
    · subst hu
      refine ⟨_, hv, ?_, ?_⟩
      · rw [← hvalue]
        by_cases hj : j = k
        · exact hj ▸ hlist l (hd.lists hl)
        · obtain ⟨l', hl', hmem, -⟩ := (hc.drift hd).listed j e he hj hlive
          exact mem_unique hl' hl ▸ hmem
      · rintro d ⟨⟩
        have hd := hlate ⟨j, e⟩ (mem_lookup_iff.mp he)
        simpa [any_eq_true] using hd
    · have hj : j ≠ k := by
        rintro rfl
        exact hu (howner e (hd.sessions he))
      obtain ⟨l', hl', hmem, hle⟩ := (hc.drift hd).listed j e he hj hlive
      exact ⟨l', by rw [perform_frame hp (by rintro ⟨⟩; exact hu rfl), hl'], hmem, hle⟩

end

section

variable {s : KeyStore} {α : Type} {k user context context' : String}

abbrev Safe (p : Handler α) (s : KeyStore) : Prop := Meets Goes (fun _ _ => True) (fun s _ => Complete s) p.run s

lemma safe_query {c : SetCmd} {f : c.Reply → Handler α}
    (hok : ∀ s' x, Goes s (.redis c) (.ok x) s' → Safe (f x) s')
    (herror : ∀ s' e, Goes s (.redis c) (.error e) s' → Complete s') : Safe (query c context >>= f) s := by
  refine .call trivial ?_
  intro r s' h
  cases r with
  | ok x => exact hok s' x h
  | error e => exact .ret (herror s' e h)

lemma safe_utcNow {f : ℕ → Handler α} (hc : Complete s) (hf : ∀ s', Complete s' → Safe (f s'.now) s') :
    Safe (utcNow >>= f) s := by
  refine .call trivial ?_
  rintro r s' ⟨t, listing, hd, hp, -⟩
  cases hp
  exact hf _ (hc.drift hd)

lemma safe_addAuthorizedKey (sessionData : SessionData) (hc : Complete s) : Safe (addAuthorizedKey sessionData) s := by
  refine safe_utcNow hc fun s hc => safe_query (fun s' _ h => ?_) fun s' e h => hc.refused h
  obtain ⟨t, listing, -, hp, -⟩ := goes_session h
  have hset := (perform_setEx hp).2
  have hc1 : Covered (· = sessionData.sessionId) s' := by
    refine hc.session h (fun _ => False.elim) ?_
    rintro k e ⟨⟩ he
    cases hset.symm.trans he
    exact ⟨rfl, rfl⟩
  refine safe_query (fun s2 _ h2 => ?_) (by rintro s2 e ⟨_, _, _, ⟨⟩, _⟩)
  obtain ⟨hc2, hsessions, hlist⟩ := covered_sadd hc1 h2
  refine safe_query (fun s3 _ h3 => .ret (covered_expire hc2 ?_ hlist h3)) (by rintro s3 e ⟨_, _, _, _, ⟨⟩⟩)
  intro e he
  cases hset.symm.trans (hsessions _ e he)
  rfl

lemma safe_erase {p : Handler α} (hc : Complete s) (hp : ∀ s', Complete s' → Safe p s') :
    Safe (do query (.session (.del k)) context; query (.srem user k) context'; p) s := by
  have hdel {s' : KeyStore} {r : Except String Unit} (h : Goes s (.redis (.session (.del k))) r s') : Complete s' := by
    refine hc.session h (fun _ hX => hX) ?_
    rintro j e ⟨⟩ he
    cases (goes_del h).symm.trans he
  refine safe_query (fun s' _ h => ?_) fun s' e h => hdel h
  exact safe_query (fun s2 _ h2 => hp s2 (covered_srem (hdel h) (goes_del h) h2))
    fun s2 e h2 => covered_srem (hdel h) (goes_del h) h2

lemma safe_get {f : Option SessionData → Handler α} (hc : Complete s)
    (hf : ∀ s' x, Complete s' → (∀ session, x = some session → session.sessionId = k) → Safe (f x) s') :
    Safe (query (.session (.get k)) context >>= f) s := by
  refine safe_query (fun s' x h => hf s' x (hc.read h rfl) ?_) fun s' e h => hc.read h rfl
  rintro session rfl
  obtain ⟨t, listing, hd, hp, -⟩ := goes_session h
  obtain ⟨e, he, heq⟩ := map_eq_some_iff.mp (perform_get hp).2.symm
  rw [← heq]
  exact (hc.drift hd).keyed k e he

lemma safe_removeAuthorizedKey (sessionId : String) (hc : Complete s) : Safe (removeAuthorizedKey sessionId) s := by
  refine safe_get hc fun s' x hc' _ => ?_
  cases x with
  | none => exact .ret hc'
  | some => exact safe_erase hc' fun s'' hc'' => .ret hc''

lemma safe_cleanupKeys (keys : List String) (cleanedCount : ℕ) (hc : Complete s) :
    Safe (cleanupKeys keys cleanedCount) s := by
  induction keys generalizing cleanedCount s with
  | nil => exact .ret hc
  | cons key keys ih =>
    refine safe_get hc fun s' x hc' hkey => ?_
    cases x with
    | none => exact ih _ hc'
    | some session =>
      refine safe_utcNow hc' fun s1 hc1 => ?_
      split_ifs
      · rw [hkey session rfl]
        exact safe_erase hc1 fun s2 hc2 => ih _ hc2
      · exact ih _ hc1

lemma safe_cleanupExpiredSessions (hc : Complete s) : Safe cleanupExpiredSessions s :=
  safe_query (fun _ keys h => safe_cleanupKeys keys 0 (hc.read h rfl)) fun _ _ h => hc.read h rfl

lemma complete_run (h : Ran timely s) : Complete s := by
  induction h with
  | start => exact ⟨fun k e he => (by cases he), fun k e he => (by cases he)⟩
  | drift _ hd ih => exact ih.drift hd
  | @call s s' call es r _ ha hG ih =>
    refine attempt_guarded ha hG rfl (P := fun _ _ => True) (Q := fun s _ => Complete s) ?_
    cases call with
    | add sessionData => exact safe_addAuthorizedKey sessionData ih
    | remove sessionId =>
      exact meets_except_seq (safe_removeAuthorizedKey sessionId ih) (fun s' x hc => .ret hc) fun s' e hc => hc
    | cleanup => exact meets_except_seq (safe_cleanupExpiredSessions ih) (fun s' x hc => .ret hc) fun s' e hc => hc

lemma getUserSessions_members {s s' : KeyStore} {user : String} {es : List AuthEvent} {r : Except String (List String)}
    (h : Attempt KeyStore.perform Eq s (getUserSessions user).run es s' (some r)) :
    r = .ok (((s.lists.lookup user).map value).getD []) := by
  obtain ⟨-, -, ⟨⟩⟩ | ⟨s1, s2, o, x, es', rfl, hp, hk, -⟩ := attempt_call h
  cases hp
  exact Option.some.inj (attempt_ret hk).2.2

end

theorem sessions_listed (s : KeyStore) (h : Ran timely s) (sessionId : String) (e : Entry SessionData)
    (he : s.sessions.lookup sessionId = some e) (hlive : e.live s.now = true) (es : List AuthEvent) (s' : KeyStore)
    (r : Except String (List String))
    (hget : Attempt KeyStore.perform Eq s (getUserSessions e.value.githubUserId).run es s' (some r)) :
    ∃ l, r = .ok l ∧ sessionId ∈ l := by
  obtain ⟨l, hlist, hmem, -⟩ := (complete_run h).listed sessionId e he id hlive
  refine ⟨_, getUserSessions_members hget, ?_⟩
  rw [hlist]
  exact hmem

namespace Eclipse

def quick : List (List String) := [[], [], [], []]

def long : SessionData := ⟨"42", "ka", "fa", 7200 * second, "long"⟩

def short : SessionData := ⟨"42", "kb", "fb", 60 * second, "short"⟩

def added (s : KeyStore) (sessionData : SessionData) : KeyStore :=
  ((conduct KeyStore.perform quick s (AuthCall.add sessionData).program.run).map fun x => x.2.1).getD s

lemma ran_added {G : AuthEvent → Bool} {s : KeyStore} {sessionData : SessionData} (h : Ran G s)
    (hc : ((conduct KeyStore.perform quick s (AuthCall.add sessionData).program.run).any fun x =>
      x.2.2.isSome && x.1.all G) = true) : Ran G (added s sessionData) := by
  rw [any_eq_true] at hc
  obtain ⟨⟨es, s', res⟩, heq, hx⟩ := hc
  rw [Bool.and_eq_true, List.all_eq_true, isSome_iff_exists] at hx
  obtain ⟨⟨r, rfl⟩, hG⟩ := hx
  rw [added, heq]
  exact h.call (attempt_of_conduct (fun s => .refl) heq) hG

def both : KeyStore := added (added ⟨0, ∅, ∅⟩ long) short

end Eclipse

open Eclipse

theorem sessions_listed_one : ∃ s e es s' l, Ran timely s ∧ s.sessions.lookup "long" = some e ∧ e.live s.now = true ∧
    Attempt KeyStore.perform Eq s (getUserSessions e.value.githubUserId).run es s' (some (.ok l)) ∧ "long" ∈ l := by
  have hr : Ran timely (added ⟨0, ∅, ∅⟩ long) := ran_added (.start 0) (by decide +kernel)
  have hlive : (((added ⟨0, ∅, ∅⟩ long).sessions.lookup "long").any (·.live (added ⟨0, ∅, ∅⟩ long).now)) = true := by
    decide +kernel
  obtain ⟨e, he, hlive⟩ := (any_eq_true _ _).mp hlive
  have hget : Attempt KeyStore.perform Eq (added ⟨0, ∅, ∅⟩ long) (getUserSessions e.value.githubUserId).run _ _ _ :=
    .call (o := []) rfl rfl .done
  obtain ⟨l, ⟨⟩, hmem⟩ := sessions_listed _ hr "long" e he hlive _ _ _ hget
  exact ⟨_, e, _, _, _, hr, he, hlive, hget, hmem⟩

theorem session_unlisted : ∃ s e, Ran (fun _ => true) s ∧ s.sessions.lookup "long" = some e ∧ e.live s.now = true ∧
    e.value.githubUserId = "42" ∧
    ∀ es s' r, Attempt KeyStore.perform Eq s (getUserSessions "42").run es s' (some r) → r = .ok [] := by
  have hr : Ran (fun _ => true) both := ran_added (ran_added (.start 0) (by decide +kernel)) (by decide +kernel)
  have hstate : (both.sessions.lookup "long").any (fun e => e.live (both.now + 361 * second) && e.value.githubUserId = "42")
      && (both.lists.lookup "42").any (fun l => !l.live (both.now + 361 * second)) = true := by
    decide +kernel
  simp only [Bool.and_eq_true, any_eq_true, decide_eq_true_eq, Bool.not_eq_true'] at hstate
  obtain ⟨⟨e, he, hlive, howner⟩, l, hl, hdead⟩ := hstate
  have hlapse : lapse (both.now + 361 * second) both.lists "42" = some (both.lists.erase "42") := by simp [lapse, hl, hdead]
  refine ⟨_, e, hr.drift (.list (.tick (361 * second) .refl) hlapse), he, hlive, howner, ?_⟩
  intro es s' r h
  rw [getUserSessions_members h]
  rfl

end FleetingDns.RedisAuth
