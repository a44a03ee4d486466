import FleetingDns.AuthorizedKeys
import FleetingDns.CertificateAuthority
import FleetingDns.CreateFlow
import FleetingDns.TunnelLookup
namespace FleetingDns.KeyLifetimes

open CommandPrograms ExpiringStore ThreadPool TunnelStorage EdfCa RedisAuth RedisAuth.KeyStore

structure TunnelData extends TunnelInfo where
  (createdAt expiresAt status : String)

def storeTunnelData (toJson : TunnelData → Value) (parse : String → Option ℤ) (tunnelInfo : TunnelData) :
    TunnelLookup.Cache Unit := do
  let ttl ← match parse tunnelInfo.expiresAt with
    | some expires => do
      let now ← ExceptT.lift (issue .utcNow)
      pure (asU64 (numSeconds (expires - now)))
    | none => pure 3600
  TunnelLookup.query (.setEx (.tunnel tunnelInfo.id) (toJson tunnelInfo) ttl)

def InvalidTtl (ttl : ℕ) : Prop := ttl = 0 ∨ 2 ^ 63 - 1 < ttl

/-- What the lifetimes of keys are read off: the clock, the expiries given to keys, and the writes that Redis rejects. -/
structure Meter (C : Type) (R : C → Type) where
  clock : (c : C) → R c → Option ℕ
  lifetime : C → Option ℤ
  rejected : C → Prop
  writes : C → Bool
  failed : (c : C) → R c → Prop

def storage : Meter Cmd Cmd.Reply where
  clock
    | .utcNow, now => some now
    | _, _ => none
  lifetime
    | .redis (.setEx _ _ ttl) | .redis (.setNxEx _ _ ttl) => some ttl
    | .redis (.expire _ ttl) => some ttl
    | _ => none
  rejected
    | .redis (.setEx _ _ ttl) | .redis (.setNxEx _ _ ttl) => InvalidTtl ttl
    | _ => False
  writes
    | .redis c => c.target.isSome
    | _ => false
  failed
    | .redis _, r => ∃ e, r = .error e
    | _, _ => False

def auth : Meter RedisAuth.AuthCmd RedisAuth.AuthCmd.Reply where
  clock
    | .utcNow, now => some now
    | _, _ => none
  lifetime
    | .redis (.session (.setEx _ _ ttl)) => some ttl
    | _ => none
  rejected
    | .redis (.session (.setEx _ _ ttl)) => InvalidTtl ttl
    | _ => False
  writes
    | .redis (.session c) => c.target.isSome
    | .redis (.smembers _) | .utcNow => false
    | .redis _ => true
  failed
    | .redis _, r => ∃ e, r = .error e
    | _, _ => False

section

variable {S O C ε α : Type} {R : C → Type}

def Rejects (m : Meter C R) (perform : S → (c : C) → O → Option (S × R c)) : Prop :=
  ∀ s c o s' r, perform s c o = some (s', r) → m.rejected c → m.failed c r ∧ s' = s

def Remaining (now : ℕ) (expiresAt t : ℤ) : Prop :=
  1 ≤ t ∧ now + t * second ≤ expiresAt ∧ expiresAt < now + (t + 1) * second

/-- The call reads the clock, at one moment; each key written then expires with the record, and a call that succeeds
has written one. -/
def SaneLifetimes (m : Meter C R) (expiresAt : ℤ) (es : List (Event S C R)) (result : Except ε α) : Prop :=
  ∃ now, (∃ e ∈ es, m.clock e.cmd e.reply = some now) ∧
    (∀ e ∈ es, ∀ now', m.clock e.cmd e.reply = some now' → now' = now) ∧ (inCalendar now →
    (∀ e ∈ es, ∀ t, m.lifetime e.cmd = some t → ¬ m.rejected e.cmd → Remaining now expiresAt t) ∧
    (∀ a, result = .ok a → ∃ e ∈ es, ∃ t, m.lifetime e.cmd = some t ∧ ¬ m.rejected e.cmd) ∧
    (expiresAt < now + second →
      (∀ e ∈ es, m.writes e.cmd = true → e.span.after = e.span.before) ∧ ∃ err, result = .error err))

def left (expiresAt : ℤ) (now : ℕ) : ℕ := asU64 (numSeconds (expiresAt - now))

lemma remaining_left {now : ℕ} {expiresAt : ℤ} (hnow : inCalendar now) (hexp : inCalendar expiresAt) :
    (InvalidTtl (left expiresAt now) ∧ expiresAt < now + second) ∨ (now + second ≤ expiresAt ∧
      Remaining now expiresAt (left expiresAt now) ∧ asI64 (left expiresAt now) = left expiresAt now ∧
      ¬ InvalidTtl (left expiresAt now)) := by
  have hlt := lt_numSeconds (expiresAt - now)
  have hle := numSeconds_le (expiresAt - now)
  have hfloor : 0 ≤ expiresAt - now → numSeconds (expiresAt - now) * second ≤ expiresAt - now := by
    intro hpos
    rw [numSeconds, Int.tdiv_eq_ediv_of_nonneg hpos]
    exact Int.ediv_mul_le _ (by decide)
  simp only [InvalidTtl, Remaining, left, asU64, asI64]
  unfold inCalendar second at hnow hexp
  unfold second at hlt hle hfloor ⊢
  omega

def Gives (m : Meter C R) (ttl : ℕ) (c : C) : Prop :=
  (∀ x, m.clock c x = none) ∧ ∀ t, m.lifetime c = some t → t = ttl ∨ t = asI64 ttl

variable {m : Meter C R} {perform : S → (c : C) → O → Option (S × R c)} {expiresAt : ℤ}

/-- The writer reads the clock once, and its next command is the one that a spent lifetime stops at. -/
lemma sane_runs {p : Prog C R (Except ε α)} {c0 : C} {f : R c0 → Prog C R (Except ε α)} {es : List (Event S C R)}
    {result : Except ε α} (hredis : Rejects m perform) (hexp : inCalendar expiresAt) (hp : p = .call c0 f)
    (hlife : m.lifetime c0 = none) (hread : m.writes c0 = false) (clock : R c0 → ℕ)
    (hclock : ∀ r, m.clock c0 r = some (clock r))
    (hfirst : ∀ r, ∃ c k t, f r = .call c k ∧ m.lifetime c = some t ∧
      (m.rejected c ↔ InvalidTtl (left expiresAt (clock r))) ∧ ∀ x, m.failed c x → ∃ err, k x = .ret (.error err))
    (hrest : ∀ r, Only (Gives m (left expiresAt (clock r))) (f r)) (h : Runs perform p es result) :
    SaneLifetimes m expiresAt es result := by
  subst hp
  cases h with
  | @call _ _ s s' r o es _ hp hk =>
    have honly := runs_only (hrest r) hk
    refine ⟨clock r, ⟨_, List.mem_cons_self, hclock r⟩, ?_, fun hcal => ?_⟩
    · rw [List.forall_mem_cons]
      refine ⟨fun now' hnow => Option.some.inj (hnow.symm.trans (hclock r)), ?_⟩
      intro e he now' hnow
      cases ((honly e he).1 _).symm.trans hnow
    obtain ⟨c, k, t, hf, hc, hrejected, hfailed⟩ := hfirst r
    rw [hf] at hk
    cases hk with
    | @call _ _ s1 s1' x o es _ hp' hk' =>
      obtain ⟨hinvalid, hlate⟩ | ⟨hearly, hremaining, hsigned, hvalid⟩ := remaining_left hcal hexp
      · obtain ⟨hfail, rfl⟩ := hredis _ _ _ _ _ hp' (hrejected.mpr hinvalid)
        obtain ⟨err, herr⟩ := hfailed x hfail
        rw [herr] at hk'
        cases hk'
        simp [hlife, hread, hrejected.mpr hinvalid]
      refine ⟨?_, fun _ _ => ⟨⟨⟨s1, s1'⟩, c, x⟩, by simp, t, hc, mt hrejected.mp hvalid⟩, fun hlate => absurd hlate (by omega)⟩
      rw [List.forall_mem_cons]
      refine ⟨by simp [hlife], ?_⟩
      intro e he t ht _
      obtain ht | ht := (honly e he).2 t ht
      · rw [ht]
        exact hremaining
      · rw [ht, hsigned]
        exact hremaining

end

section

variable {S O : Type} {edgeIp : String} {tunnel : Tunnel} {ttl : ℕ}

lemma gives_redis {c : StoreCmd Key Value} {msg : String} (hc : ∀ t, storage.lifetime (.redis c) = some t →
    t = ttl ∨ t = asI64 ttl) : Only (Gives storage ttl) (redis c msg).run :=
  CreateFlow.only_redis ⟨fun _ => rfl, hc⟩

lemma gives_claimSubdomain : Only (Gives storage ttl) (claimSubdomain tunnel ttl).run := by
  refine only_seq (gives_redis (by rintro t ⟨⟩; exact .inl rfl)) fun claimed => ?_
  cases claimed with
  | true => exact .ret
  | false =>
    refine only_seq (gives_redis (by rintro t ⟨⟩)) fun holder => ?_
    split_ifs
    · exact only_seq (gives_redis (fun t ht => .inr (Option.some.inj ht).symm)) fun _ => .ret
    · exact .ret

section

variable {perform : S → (c : Cmd) → O → Option (S × c.Reply)} (hredis : Rejects storage perform)

include hredis

lemma sane_storeTunnel {es : List (Event S Cmd Cmd.Reply)} {result : Except ApiError Unit}
    (hexp : inCalendar tunnel.expiresAt) (h : Runs perform (storeTunnel edgeIp tunnel).run es result) :
    SaneLifetimes storage tunnel.expiresAt es result := by
  refine sane_runs hredis hexp rfl rfl rfl id (fun _ => rfl) (fun now => ⟨_, _, _, rfl, rfl, .rfl, ?_⟩) ?_ h
  · rintro _ ⟨e, rfl⟩
    exact ⟨_, rfl⟩
  · intro now
    refine only_seq (gives_redis (by rintro t ⟨⟩; exact .inl rfl)) fun _ =>
      only_seq (gives_redis (by rintro t ⟨⟩)) fun existing => only_seq (gives_redis (by rintro t ⟨⟩)) fun _ =>
      only_seq gives_claimSubdomain fun _ => only_seq (gives_redis (by rintro t ⟨⟩; exact .inl rfl)) fun _ => .ret

lemma sane_storeTunnelData {toJson : TunnelData → Value} {parse : String → Option ℤ} {tunnelInfo : TunnelData}
    {es : List (Event S Cmd Cmd.Reply)} {expires : ℤ} {result : Except String Unit}
    (hparse : parse tunnelInfo.expiresAt = some expires) (hexp : inCalendar expires)
    (h : Runs perform (storeTunnelData toJson parse tunnelInfo).run es result) :
    SaneLifetimes storage expires es result := by
  rw [storeTunnelData, hparse] at h
  refine sane_runs hredis hexp rfl rfl rfl id (fun _ => rfl) (fun now => ⟨_, _, _, rfl, rfl, .rfl, ?_⟩) ?_ h
  · rintro _ ⟨e, rfl⟩
    exact ⟨_, rfl⟩
  · intro now
    refine .call ⟨fun _ => rfl, by rintro t ⟨⟩; exact .inl rfl⟩ ?_
    intro r
    cases r <;> exact .ret

end

lemma sane_addAuthorizedKey {perform : S → (c : RedisAuth.AuthCmd) → O → Option (S × c.Reply)}
    {sessionData : SessionData} {es : List (Event S RedisAuth.AuthCmd RedisAuth.AuthCmd.Reply)}
    {result : Except String Unit} (hredis : Rejects auth perform) (hexp : inCalendar sessionData.expiresAt)
    (h : Runs perform (addAuthorizedKey sessionData).run es result) :
    SaneLifetimes auth sessionData.expiresAt es result := by
  refine sane_runs hredis hexp rfl rfl rfl id (fun _ => rfl) (fun now => ⟨_, _, _, rfl, rfl, .rfl, ?_⟩) ?_ h
  · rintro _ ⟨e, rfl⟩
    exact ⟨_, rfl⟩
  intro now
  refine .call ⟨fun _ => rfl, by rintro t ⟨⟩; exact .inl rfl⟩ fun r => ?_
  obtain _ | x := r
  · exact .ret
  refine .call ⟨fun _ => rfl, by rintro t ⟨⟩⟩ fun r => ?_
  cases r with
  | error => exact .ret
  | ok =>
    refine .call ⟨fun _ => rfl, by rintro t ⟨⟩⟩ fun r => ?_
    cases r <;> exact .ret

end

lemma validExpire_invalid {now ttl : ℕ} (h : InvalidTtl ttl) : validExpire now ttl = false := by
  rw [validExpire, decide_eq_false_iff_not]
  unfold InvalidTtl at h
  omega

structure Records where
  now : ℕ
  store : Store Key Value

def Records.perform (s : Records) : (c : Cmd) → Outcome Key → Option (Records × c.Reply)
  | .redis c, o => (ExpiringStore.perform s.now s.store c o).map fun r => ({ s with store := r.1 }, r.2)
  | .utcNow, _ => some (s, s.now)
  | _, _ => none

lemma rejects_records : Rejects storage Records.perform := by
  intro s c o s' r h hc
  cases c with
  | redis c =>
    obtain ⟨x, hp, heq⟩ := Option.map_eq_some_iff.mp h
    cases heq
    cases c with
    | setEx | setNxEx =>
      obtain ⟨he, hs⟩ := perform_invalid (by simp only [apply, validExpire_invalid hc]; rfl) hp
      exact ⟨he, by rw [hs]⟩
    | _ => cases hc
  | _ => cases hc

lemma rejects_keyStore : Rejects auth perform := by
  intro s c listing s' r h hc
  obtain _ | c := c
  · cases hc
  cases c with
  | session c =>
    obtain ⟨x, hp, heq⟩ := Option.map_eq_some_iff.mp h
    cases heq
    cases c with
    | setEx =>
      obtain ⟨he, hs⟩ := perform_invalid (by simp only [apply, validExpire_invalid hc]; rfl) hp
      exact ⟨he, by rw [hs]⟩
    | _ => cases hc
  | _ => cases hc

namespace Lease

open RedisAuth.Eclipse (long quick)

def record : Tunnel :=
  ⟨"a", "1", "alice", "demo", "demo.fleetingdns.run", 3000, 10000, "01", 0, 7200 * second, .creating, false, .ttlOnly⟩

def data : TunnelData := ⟨record.info, "", "1970-01-01T02:00:00Z", "active"⟩

def stored {ε : Type} (p : Program (Except ε Unit)) := drive Records.perform (List.replicate 7 .ok) ⟨0, ∅⟩ p

lemma runs_stored {ε : Type} {p : Program (Except ε Unit)} (h : (stored p).any (fun x => x.2.toOption.isSome) = true) :
    ∃ es, Runs Records.perform p es (.ok ()) := by
  obtain ⟨⟨es, r⟩, hdrive, hr⟩ := (Option.any_eq_true _ _).mp h
  cases r with
  | error => cases hr
  | ok => exact ⟨es, runs_of_drive hdrive⟩

lemma runs_added : ∃ es, Runs perform (addAuthorizedKey long).run es (.ok ()) := by
  have hrun : (drive perform quick ⟨0, ∅, ∅⟩ (addAuthorizedKey long).run).any
      (fun x => x.2.toOption.isSome) = true := by
    decide +kernel
  obtain ⟨⟨es, r⟩, hdrive, hr⟩ := (Option.any_eq_true _ _).mp hrun
  cases r with
  | error => cases hr
  | ok => exact ⟨es, runs_of_drive hdrive⟩

end Lease

open Lease RedisAuth.Eclipse

end FleetingDns.KeyLifetimes
