import FleetingDns.Library.ProgramRuns
import FleetingDns.Library.TextFields
import FleetingDns.WorldSteps
namespace FleetingDns.SshFailClosed

open CommandPrograms ExpiringStore Shared List

variable {config : Config} {call : Call} {h : List Ev}

abbrev Rules (config : Config) (call : Call) {α : Type} (Q : List Ev → α → Prop) (p : Program α) (h : List Ev) : Prop :=
  Meets (Performs fun s c o => perform config s call c o) (fun _ _ => True) Q p h

def IsSessionChar (c : Char) : Prop :=
  ('A' ≤ c ∧ c ≤ 'Z') ∨ ('a' ≤ c ∧ c ≤ 'z') ∨ ('0' ≤ c ∧ c ≤ '9') ∨ c = '_' ∨ c = '-'

def Names (user id : String) : Prop := user = "tunnel-" ++ id ∨ (∀ rest, user ≠ "tunnel-" ++ rest) ∧ id = user

lemma sessionIdOf_names (user : String) : Names user (sessionIdOf user) := by
  unfold sessionIdOf
  split_ifs with hp
  · obtain ⟨rest, hrest⟩ := isPrefixOf_iff_prefix.mp hp
    left
    apply String.toList_injective
    have hdrop : user.toList.drop "tunnel-".length = rest := by rw [← hrest]; exact drop_left
    rw [String.toList_append, ← hrest]
    exact congrArg ("tunnel-".toList ++ ·) String.toList_ofList.symm
  · refine .inr ⟨?_, rfl⟩
    rintro rest rfl
    apply hp
    rw [String.toList_append]
    exact isPrefixOf_iff_prefix.mpr (prefix_append _ _)

lemma sessionChar {c : Char} (h : isSessionIdChar c = true) : IsSessionChar c := by
  delta isSessionIdChar Char.isAlphanum Char.isAlpha Char.isUpper Char.isLower Char.isDigit at h
  simp only [Bool.or_eq_true, Bool.and_eq_true, decide_eq_true_eq, beq_iff_eq] at h
  obtain ((((hu | hl) | hd) | hm) | hm) := h
  · exact .inl hu
  · exact .inr (.inl hl)
  · exact .inr (.inr (.inl hd))
  · exact .inr (.inr (.inr (.inr hm)))
  · exact .inr (.inr (.inr (.inl hm)))

lemma validSessionId {s : String} (h : isValidSessionId s = true) :
    1 ≤ s.length ∧ s.length ≤ 64 ∧ ∀ c ∈ s.toList, IsSessionChar c := by
  simp only [isValidSessionId, Bool.and_eq_true, decide_eq_true_eq, all_eq_true] at h
  obtain ⟨⟨hne, hlen⟩, hall⟩ := h
  have hbytes : s.length ≤ s.utf8ByteSize := String.length_toList ▸ TextFields.length_le_utf8ByteSize s
  refine ⟨?_, hbytes.trans hlen, fun c hc => sessionChar (hall c hc)⟩
  apply Nat.pos_of_ne_zero
  intro h0
  rw [String.length_eq_zero_iff] at h0
  rw [h0] at hne
  cases hne

def Vouched (config : HubConfig) (keyPrefix publicKey id : String) (h : List Ev) : Prop :=
  ∃ (t t' : Span Shared) (e : Entry Value) (session : SessionData),
    (⟨t, .redis (.get (.session keyPrefix id)), .ok (some (.session session))⟩ : Ev) ∈ h ∧
    t.before.store.lookup (.session keyPrefix id) = some e ∧ e.value = .session session ∧
    (⟨t', .utcNow, t'.before.now⟩ : Ev) ∈ h ∧ (t'.before.now : ℤ) ≤ session.expiresAt ∧
    session.fingerprint = config.fingerprint publicKey

lemma Vouched.mono {config : HubConfig} {keyPrefix publicKey id : String} {h h' : List Ev} (hs : h ⊆ h')
    (hv : Vouched config keyPrefix publicKey id h) : Vouched config keyPrefix publicKey id h' := by
  obtain ⟨t, t', e, session, hget, he, hval, hnow, hrest⟩ := hv
  exact ⟨t, t', e, session, hs hget, he, hval, hs hnow, hrest⟩

lemma rules_validatePublicKey (keyPrefix publicKey id : String) :
    Rules config call (fun h' r => h <+: h' ∧ (r = .ok true → Vouched config.hub keyPrefix publicKey id h'))
      (validatePublicKey config.hub keyPrefix publicKey id).run h := by
  refine .call trivial ?_
  rintro r _ ⟨s, s', o, hp, rfl⟩
  have hpre : h <+: h ++ [⟨⟨s, s'⟩, .redis (.get (.session keyPrefix id)), r⟩] := List.prefix_append _ _
  match r with
  | .error e | .ok none => exact .ret ⟨hpre, by rintro ⟨⟩⟩
  | .ok (some data) =>
    obtain ⟨o', st, hget, -⟩ := Shared.perform_redis hp
    obtain ⟨e, he, hval⟩ := Option.map_eq_some_iff.mp (perform_get hget).2.symm
    cases data with
    | session session =>
      refine .call trivial ?_
      rintro now _ ⟨s1, s1', o1, hp1, rfl⟩
      have hnow : now = s1.now := by
        cases o1 <;> simp only [Shared.perform, Option.some.injEq, Prod.mk.injEq, reduceCtorEq] at hp1
        exact hp1.2.symm
      subst hnow
      change Rules config call _ (if session.expiresAt < s1.now then (pure false : ExceptT String Program Bool)
        else pure (config.hub.fingerprint publicKey == session.fingerprint)).run _
      split_ifs with hexp
      · exact .ret ⟨hpre.trans (List.prefix_append _ _), by rintro ⟨⟩⟩
      · refine .ret ⟨hpre.trans (List.prefix_append _ _), fun hok => ?_⟩
        have hfp : config.hub.fingerprint publicKey = session.fingerprint := by simpa using hok
        exact ⟨⟨s, s'⟩, ⟨s1, s1'⟩, e, session, by simp, he, hval, by simp, by simpa using hexp, hfp.symm⟩
    | _ => exact .ret ⟨hpre, by rintro ⟨⟩⟩

def Admitted (config : HubConfig) (publicKey id : String) (h : List Ev) : Prop :=
  (∃ keyPrefix, config.redisAuthHandler = some keyPrefix ∧ Vouched config keyPrefix publicKey id h) ∨
    (config.redisAuthHandler = none ∧ config.insecureAcceptAllKeys = true)

lemma Admitted.mono {config : HubConfig} {publicKey id : String} {h h' : List Ev} (hs : h ⊆ h')
    (ha : Admitted config publicKey id h) : Admitted config publicKey id h' := by
  obtain ⟨keyPrefix, hk, hv⟩ | ha := ha
  · exact .inl ⟨keyPrefix, hk, hv.mono hs⟩
  · exact .inr ha

lemma rules_keyAccepted (publicKey id : String) :
    Rules config call (fun h' accepted => h <+: h' ∧ (accepted = true → Admitted config.hub publicKey id h'))
      (keyAccepted config.hub publicKey id) h := by
  unfold keyAccepted
  rcases hk : config.hub.redisAuthHandler with _ | keyPrefix
  · exact .ret ⟨prefix_refl h, fun hi => .inr ⟨hk, hi⟩⟩
  refine meets_seq (rules_validatePublicKey keyPrefix publicKey id) ?_
  rintro h' r ⟨hpre, hr⟩
  cases r with
  | error => exact .ret ⟨hpre, by rintro ⟨⟩⟩
  | ok =>
    refine .ret ⟨hpre, fun hv => .inl ⟨keyPrefix, hk, hr ?_⟩⟩
    rw [hv]

lemma perform_isLockedOut {s s' : Shared} {o : Choice} {peer : SocketAddr} {r : Bool}
    (h : s.perform config call (.isLockedOut peer) o = some (s', r)) :
    r = s.bruteForceProtection.isLockedOut s.now peer config.hub.authLockoutDuration := by
  cases o <;> simp only [Shared.perform, Option.some.injEq, Prod.mk.injEq, reduceCtorEq] at h
  exact h.2.symm

def Unlocked (config : HubConfig) (peer : SocketAddr) (h : List Ev) : Prop :=
  ∃ t, h.head? = some ⟨t, .isLockedOut peer, false⟩ ∧
    t.before.bruteForceProtection.isLockedOut t.before.now peer config.authLockoutDuration = false

def FailsClosed (config : HubConfig) (peer : SocketAddr) (serial : Option String) (user publicKey : String) (h : List Ev)
    (r : Auth × Option String) : Prop :=
  (r.1 = .accept → ∃ id, r.2 = some id ∧ Names user id ∧ 1 ≤ id.length ∧ id.length ≤ 64 ∧
    (∀ c ∈ id.toList, IsSessionChar c) ∧ Unlocked config peer h ∧ Admitted config publicKey id h) ∧
  (r.1 ≠ .accept → r.2 = serial)

lemma rules_authPublickey (peer : SocketAddr) (serial : Option String) (user publicKey : String) :
    Rules config call (FailsClosed config.hub peer serial user publicKey)
      (authPublickey config.hub peer serial user publicKey) [] := by
  refine .call trivial ?_
  rintro lockedOut _ ⟨s, s', o, hp, rfl⟩
  cases lockedOut with
  | true => exact .ret ⟨by rintro ⟨⟩, fun _ => rfl⟩
  | false =>
    have hunlocked := (perform_isLockedOut hp).symm
    change Rules config call _ (if !isValidSessionId (sessionIdOf user) then return (Auth.reject, serial) else _) _
    split_ifs with hvalid
    · exact .ret ⟨by rintro ⟨⟩, fun _ => rfl⟩
    refine meets_seq (rules_keyAccepted publicKey (sessionIdOf user)) ?_
    rintro h accepted ⟨hpre, hadm⟩
    refine .call trivial ?_
    rintro r _ ⟨s1, s1', o1, -, rfl⟩
    obtain _ | _ := r
    · exact .ret ⟨by rintro ⟨⟩, fun _ => rfl⟩
    cases accepted with
    | false => exact .ret ⟨by rintro ⟨⟩, fun _ => rfl⟩
    | true =>
      obtain ⟨hpos, hle, hall⟩ := validSessionId (by simpa using hvalid)
      obtain ⟨l, rfl⟩ := hpre
      refine .ret ⟨fun _ => ⟨sessionIdOf user, rfl, sessionIdOf_names user, hpos, hle, hall, ?_, ?_⟩, by simp⟩
      · exact ⟨⟨s, s'⟩, by simp, hunlocked⟩
      · exact (hadm rfl).mono (by simp)

theorem auth_fails_closed {peer : SocketAddr} {serial : Option String} {user publicKey : String} {es : List Ev}
    {r : Auth × Option String} (h : Runs (fun s c o => perform config s call c o)
      (authPublickey config.hub peer serial user publicKey) es r) :
    FailsClosed config.hub peer serial user publicKey es r := by
  simpa using runs_meets (rules_authPublickey peer serial user publicKey) h

open Schedule

def enrolled : Shared :=
  let session : SessionData := ⟨"1", "ka", "ka", 1700001800 * second, "a"⟩
  { start.shared with store := AList.insert (.session "session" "a") ⟨.session session, none⟩ ∅ }

theorem auth_fails_closed_accepted : ∃ es r,
    Runs (fun s c o => perform deployment s (.authPublickey 0 laptop none "tunnel-a" "ka") c o)
      (authPublickey deployment.hub laptop none "tunnel-a" "ka") es r ∧ r.1 = .accept ∧
    FailsClosed deployment.hub laptop none "tunnel-a" "ka" es r := by
  have hrun : ((drive (fun s c o => perform deployment s (.authPublickey 0 laptop none "tunnel-a" "ka") c o)
      [.plain, .redis .ok, .plain, .plain] enrolled
      (authPublickey deployment.hub laptop none "tunnel-a" "ka")).any fun x => x.2.1 = .accept) = true := by
    decide +kernel
  rw [Option.any_eq_true] at hrun
  obtain ⟨⟨es, r⟩, hd, hr⟩ := hrun
  have hruns := runs_of_drive hd
  exact ⟨es, r, hruns, of_decide_eq_true hr, auth_fails_closed hruns⟩

end FleetingDns.SshFailClosed
