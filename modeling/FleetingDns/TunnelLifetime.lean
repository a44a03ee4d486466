import FleetingDns.CreateFlow
import FleetingDns.Library.ProgramRuns
import FleetingDns.WorldSteps
namespace FleetingDns.TunnelLifetime

open CommandPrograms ExpiringStore TunnelStorage Shared List CreateFlow

variable {config : Config} {call : Call} {s s' : Shared} {es es1 es2 : List Ev} {α : Type}

lemma validExpire_iff {now ttl : ℕ} : validExpire now ttl = true ↔ 0 < ttl ∧ now / 1000000 + ttl * 1000 < 2 ^ 63 :=
  decide_eq_true_iff

lemma asU64_valid {now t : ℕ} {d : ℤ} (hv : validExpire now (asU64 (numSeconds (d - t))) = true) (ht : t ≤ now)
    {now0 d0 : ℤ} (hd : addUtc now0 d0 = some d) :
    (asU64 (numSeconds (d - t))) = numSeconds (d - t) ∧ 0 < numSeconds (d - t) := by
  have hlt := lt_numSeconds (d - t)
  have hle := numSeconds_le (d - t)
  obtain ⟨hpos, hbound⟩ := validExpire_iff.mp hv
  unfold addUtc at hd
  split_ifs at hd with hrange
  cases hd
  unfold asU64 at hpos hbound ⊢
  unfold second at hlt hle hrange
  omega

def Later (s s' : Shared) : Prop := s.now ≤ s'.now

/-- A run of one call among any others: between its commands only the clock is known not to go back. -/
abbrev Interleaved (config : Config) (call : Call) {α : Type} (s : Shared) (p : Program α) (es : List Ev) (s' : Shared)
    (res : Option α) : Prop :=
  Attempt (fun s c o => perform config s call c o) Later s p es s' res

def reading : Ev → Option ℕ
  | ⟨_, .utcNow, now⟩ => some now
  | _ => none

def claimTime : Ev → Option ℕ
  | ⟨t, .redis (.setNxEx (.port _) _ _), .ok true⟩ => some t.before.now
  | _ => none

def timed : Ev → Option Key
  | ⟨_, .redis (.setEx k _ _), .ok _⟩ | ⟨_, .redis (.setNxEx k _ _), .ok true⟩ | ⟨_, .redis (.expire k _), .ok true⟩ =>
    some k
  | _ => none

def saved (e : Ev) : Option (Key × Option (Entry Value)) := (timed e).map fun k => (k, e.span.after.store.lookup k)

def readings (es : List Ev) : List ℕ := es.filterMap reading

def claims (es : List Ev) : List ℕ := es.filterMap claimTime

def saves (es : List Ev) : List (Key × Option (Entry Value)) := es.filterMap saved

structure Traces (es : List Ev) (rs cs : List ℕ) (ws : List (Key × Option (Entry Value))) : Prop where
  readings : readings es = rs
  claims : claims es = cs
  saves : saves es = ws

lemma Traces.append {rs1 rs2 cs1 cs2 : List ℕ} {ws1 ws2 : List (Key × Option (Entry Value))}
    (h1 : Traces es1 rs1 cs1 ws1) (h2 : Traces es2 rs2 cs2 ws2) :
    Traces (es1 ++ es2) (rs1 ++ rs2) (cs1 ++ cs2) (ws1 ++ ws2) := by
  constructor
  · rw [← h1.readings, ← h2.readings]
    exact filterMap_append
  · rw [← h1.claims, ← h2.claims]
    exact filterMap_append
  · rw [← h1.saves, ← h2.saves]
    exact filterMap_append

def silent : Cmd → Bool
  | .utcNow | .redis (.setEx _ _ _) | .redis (.setNxEx _ _ _) | .redis (.expire _ _) => false
  | _ => true

lemma traces_silent (h : ∀ e ∈ es, silent e.cmd = true) : Traces es [] [] [] := by
  have hnone : ∀ e ∈ es, reading e = none ∧ claimTime e = none ∧ saved e = none := by
    intro e he
    have hq := h e he
    obtain ⟨t, c, r⟩ := e
    cases c with
    | redis c => cases c <;> first | exact ⟨rfl, rfl, rfl⟩ | cases hq
    | utcNow => cases hq
    | _ => exact ⟨rfl, rfl, rfl⟩
  constructor
  · exact filterMap_eq_nil_iff.mpr fun e he => (hnone e he).1
  · exact filterMap_eq_nil_iff.mpr fun e he => (hnone e he).2.1
  · exact filterMap_eq_nil_iff.mpr fun e he => (hnone e he).2.2

lemma traces_nil : Traces [] [] [] [] := ⟨rfl, rfl, rfl⟩

section

lemma ran_later {p : Program α} {res : Option α} (h : Interleaved config call s p es s' res) : s.now ≤ s'.now := by
  induction h with
  | done | dropped => exact le_rfl
  | call hd hp _ ih =>
    have hnow := (perform_frame hp).1
    exact le_trans hd (hnow ▸ ih)

lemma ran_silent {x : Api α} {a : α} (hx : Only (fun c => silent c = true) x.run)
    (h : Interleaved config call s x.run es s' (some (.ok a))) : Traces es [] [] [] ∧ s.now ≤ s'.now :=
  ⟨traces_silent (attempt_only hx h), ran_later h⟩

lemma ran_utcNow {now : ℕ} (h : Interleaved config call s utcNow.run es s' (some (.ok now))) :
    Traces es [now] [] [] ∧ s.now ≤ now ∧ s'.now = now := by
  obtain ⟨s1, o, hd, hp, rfl⟩ := attempt_issue (attempt_lift h)
  cases o <;> simp only [Shared.perform, reduceCtorEq] at hp
  obtain ⟨rfl, rfl⟩ := hp
  exact ⟨⟨rfl, rfl, rfl⟩, hd, rfl⟩

variable {x : Unit} {msg owner : String} {ttl : ℕ} {tunnel : Tunnel}

lemma ran_rejectIf {p : Prop} [Decidable p] {e : ApiError}
    (h : Interleaved config call s (rejectIf p e).run es s' (some (.ok x))) : s' = s ∧ es = [] ∧ ¬ p := by
  unfold rejectIf at h
  split_ifs at h with hp
  · cases (attempt_ret h).2.2
  · obtain ⟨hs, hes, -⟩ := attempt_ret h
    exact ⟨hs, hes, hp⟩

lemma ran_orPanic {x : Option α} {a : α} (h : Interleaved config call s (orPanic msg x).run es s' (some (.ok a))) :
    s' = s ∧ es = [] ∧ x = some a := by
  cases x with
  | none => cases (attempt_ret h).2.2
  | some =>
    obtain ⟨hs, hes, hb⟩ := attempt_ret h
    cases hb
    exact ⟨hs, hes, rfl⟩

lemma ran_redis {c : StoreCmd Key Value} {x : c.Reply}
    (h : Interleaved config call s (redis c msg).run es s' (some (.ok x))) :
    ∃ s1 o, s.now ≤ s1.now ∧ s'.now = s1.now ∧ ExpiringStore.perform s1.now s1.store c o = some (s'.store, .ok x) ∧
      es = [⟨⟨s1, s'⟩, .redis c, .ok x⟩] := by
  obtain ⟨r, s1, es1, es2, h1, h2, rfl⟩ | ⟨hn, -⟩ := attempt_bind h
  · obtain ⟨s2, o, hd, hp, rfl⟩ := attempt_issue h1
    obtain ⟨o', st, hst, rfl⟩ := perform_redis hp
    cases r with
    | ok =>
      obtain ⟨rfl, rfl, hx⟩ := attempt_ret h2
      cases hx
      exact ⟨s2, o', hd, rfl, hst, rfl⟩
    | error => cases (attempt_ret h2).2.2
  · cases hn

lemma ran_setEx {k : Key} {v : Value}
    (h : Interleaved config call s (redis (.setEx k v ttl) msg).run es s' (some (.ok x))) :
    Traces es [] [] [(k, some ⟨v, some (s'.now + ttl * second)⟩)] ∧ s.now ≤ s'.now ∧
      validExpire s'.now ttl = true := by
  obtain ⟨s1, o, hle, heq, hp, rfl⟩ := ran_redis h
  obtain ⟨hv, hlook⟩ := perform_setEx hp
  rw [← heq] at hle hv hlook
  exact ⟨⟨rfl, rfl, congrArg (fun e => [(k, e)]) hlook⟩, hle, hv⟩

lemma ran_registerCertificate {metadata : CertificateMetadata}
    (h : Interleaved config call s (registerCertificate metadata) es s' (some x)) :
    ∃ registeredAt ws, Traces es [registeredAt] [] ws ∧ ∀ kw ∈ ws, kw.1 = .cert metadata.serialNumber := by
  obtain ⟨now, s1, es1, es2, h1, h2, rfl⟩ | ⟨hn, -⟩ := attempt_bind h
  · obtain ⟨s2, o, -, hp, rfl⟩ := attempt_issue h1
    have hnow : Traces [⟨⟨s2, s1⟩, .utcNow, now⟩] [now] [] [] := ⟨rfl, rfl, rfl⟩
    dsimp only at h2
    split_ifs at h2
    · obtain ⟨r, s3, es3, es4, h3, h4, rfl⟩ | ⟨hn, -⟩ := attempt_bind h2
      · obtain ⟨s4, o', -, hp', rfl⟩ := attempt_issue h3
        obtain ⟨rfl, rfl, -⟩ := attempt_ret h4
        cases r with
        | ok => exact ⟨now, _, hnow.append ⟨rfl, rfl, rfl⟩, by rintro kw (_ | ⟨_, ⟨⟩⟩); rfl⟩
        | error => exact ⟨now, [], hnow.append ⟨rfl, rfl, rfl⟩, by rintro kw ⟨⟩⟩
      · cases hn
    · obtain ⟨rfl, rfl, -⟩ := attempt_ret h2
      exact ⟨now, [], hnow, by rintro kw ⟨⟩⟩
  · cases hn

lemma ran_issueClientCertificate {ca : CaConfig} {commonName clientId : String} {cert : CertificateMetadata}
    (h : Interleaved config call s (issueClientCertificate ca commonName clientId).run es s' (some (.ok cert))) :
    ∃ issuedAt registeredAt ws, Traces es [issuedAt, registeredAt] [] ws ∧ (∀ kw ∈ ws, kw.1 = .cert cert.serialNumber) ∧
      addUtc issuedAt ca.defaultTtl = some cert.expiresAt := by
  obtain ⟨_, _, _, _, hx, h1, rfl⟩ := attempt_seq h
  obtain ⟨rfl, rfl, -⟩ := ran_rejectIf hx
  obtain ⟨_, _, _, _, hx, h2, rfl⟩ := attempt_seq h1
  obtain ⟨rfl, rfl, -⟩ := ran_rejectIf hx
  obtain ⟨_, _, es1, _, hlimited, h3, rfl⟩ := attempt_seq h2
  obtain ⟨htr1, -⟩ := ran_silent (only_ask rfl) hlimited
  obtain ⟨_, _, _, _, hx, h4, rfl⟩ := attempt_seq h3
  obtain ⟨rfl, rfl, -⟩ := ran_rejectIf hx
  obtain ⟨_, _, _, _, hx, h5, rfl⟩ := attempt_seq h4
  obtain ⟨rfl, rfl, -⟩ := ran_rejectIf hx
  obtain ⟨r, _, es2, _, hgen, h6, rfl⟩ := attempt_seq h5
  obtain ⟨htr2, -⟩ := ran_silent (only_ask rfl) hgen
  obtain _ | _ := r
  · cases (attempt_ret h6).2.2
  obtain ⟨issuedAt, _, _, _, hnow, h7, rfl⟩ := attempt_seq h6
  obtain ⟨htr3, -, -⟩ := ran_utcNow hnow
  obtain ⟨expiresAt, _, _, _, hadd, h8, rfl⟩ := attempt_seq h7
  obtain ⟨rfl, rfl, hexp⟩ := ran_orPanic hadd
  obtain ⟨_, _, _, _, hreg, h9, rfl⟩ := attempt_seq h8
  obtain ⟨registeredAt, ws, htr4, hws⟩ := ran_registerCertificate (attempt_lift hreg)
  obtain ⟨_, _, _, _, hrec, h10, rfl⟩ := attempt_seq h9
  obtain ⟨htr5, -⟩ := ran_silent (only_ask rfl) hrec
  obtain ⟨rfl, rfl, hcert⟩ := attempt_ret h10
  cases hcert
  refine ⟨issuedAt, registeredAt, ws, ?_, hws, hexp⟩
  have htail := htr4.append (htr5.append traces_nil)
  rw [show ws ++ ([] ++ []) = ws from append_nil ws] at htail
  exact htr1.append (htr2.append (htr3.append htail))

lemma ran_claimPort {attempts port n : ℕ}
    (h : Interleaved config call s (claimPort owner ttl attempts port).run es s' (some (.ok n))) :
    ∃ claimedAt, Traces es [] [claimedAt] [(.port n, some ⟨.text owner, some (claimedAt + ttl * second)⟩)] ∧
      validExpire claimedAt ttl = true ∧ s.now ≤ claimedAt ∧ claimedAt ≤ s'.now := by
  induction attempts generalizing s es port with
  | zero => cases (attempt_ret h).2.2
  | succ attempts ih =>
    obtain ⟨claimed, s1, es1, es2, hnx, h1, rfl⟩ := attempt_seq h
    obtain ⟨s2, o, hle, heq, hp, hes⟩ := ran_redis hnx
    cases claimed with
    | true =>
      obtain ⟨rfl, rfl, hn⟩ := attempt_ret h1
      subst hes
      cases hn
      refine ⟨s2.now, ⟨rfl, rfl, ?_⟩, perform_claim hp, hle, heq ▸ le_rfl⟩
      exact congrArg (fun e => [(Key.port n, e)]) (perform_setNxEx hp).2
    | false =>
      obtain ⟨claimedAt, htr, hv, hle', hle''⟩ := ih h1
      have htr1 : Traces es1 [] [] [] := by
        subst hes
        exact ⟨rfl, rfl, rfl⟩
      exact ⟨claimedAt, htr1.append htr, hv, by omega, hle''⟩

lemma ran_allocatePort {n : ℕ} (h : Interleaved config call s (allocatePort owner ttl).run es s' (some (.ok n))) :
    ∃ claimedAt, Traces es [] [claimedAt] [(.port n, some ⟨.text owner, some (claimedAt + ttl * second)⟩)] ∧
      validExpire claimedAt ttl = true ∧ s.now ≤ claimedAt ∧ claimedAt ≤ s'.now := by
  obtain ⟨start, s1, es1, es2, hgen, h1, rfl⟩ := attempt_seq h
  obtain ⟨htr, hle⟩ := ran_silent (only_ask rfl) hgen
  obtain ⟨claimedAt, htr', hv, hle', hle''⟩ := ran_claimPort h1
  exact ⟨claimedAt, htr.append htr', hv, hle.trans hle', hle''⟩

lemma ran_newTunnel {login name base serial : String} {localPort slot : ℕ}
    (h : Interleaved config call s (Tunnel.new owner login name base localPort slot serial ttl).run es s'
      (some (.ok tunnel))) :
    ∃ createdAt d, Traces es [createdAt] [] [] ∧ s.now ≤ createdAt ∧ createdAt ≤ s'.now ∧
      tunnel.createdAt = createdAt ∧ durationSeconds (asI64 ttl) = some d ∧ addUtc createdAt d = some tunnel.expiresAt ∧
      tunnel.slot = slot := by
  obtain ⟨createdAt, _, _, _, hnow, h1, rfl⟩ := attempt_seq h
  obtain ⟨htr, hle, heq⟩ := ran_utcNow hnow
  obtain ⟨d, _, _, _, hdur, h2, rfl⟩ := attempt_seq h1
  obtain ⟨rfl, rfl, hd⟩ := ran_orPanic hdur
  obtain ⟨expiresAt, _, _, _, hadd, h3, rfl⟩ := attempt_seq h2
  obtain ⟨rfl, rfl, hexp⟩ := ran_orPanic hadd
  obtain ⟨id, _, _, _, hid, h4, rfl⟩ := attempt_seq h3
  obtain ⟨htr', hle'⟩ := ran_silent (only_ask rfl) hid
  obtain ⟨rfl, rfl, ht⟩ := attempt_ret h4
  cases ht
  exact ⟨createdAt, d, htr.append (htr'.append traces_nil), hle, heq ▸ hle', rfl, hd, hexp, rfl⟩

def Kept (last : ℤ) (kw : Key × Option (Entry Value)) : Prop :=
  ∃ v d, kw.2 = some ⟨v, some d⟩ ∧ last ≤ d

lemma ran_claimSubdomain (h : Interleaved config call s (claimSubdomain tunnel ttl).run es s' (some (.ok x))) :
    ∃ ws, Traces es [] [] ws ∧
      ∀ kw ∈ ws, kw.1 = .subdomain tunnel.subdomain ∧ Kept (s.now + ttl * second : ℕ) kw := by
  obtain ⟨claimed, s1, es1, es2, hnx, h1, rfl⟩ := attempt_seq h
  obtain ⟨s2, o, hle, heq, hp, rfl⟩ := ran_redis hnx
  have hv := validExpire_iff.mp (perform_claim hp)
  cases claimed with
  | true =>
    obtain ⟨rfl, rfl, -⟩ := attempt_ret h1
    refine ⟨_, ⟨rfl, rfl, rfl⟩, ?_⟩
    intro kw hkw
    obtain rfl := mem_singleton.mp hkw
    exact ⟨rfl, _, _, (perform_setNxEx hp).2, by omega⟩
  | false =>
    obtain ⟨holder, s3, es3, es4, hget, h2, rfl⟩ := attempt_seq h1
    obtain ⟨s4, o', hle', heq', hp', rfl⟩ := ran_redis hget
    split_ifs at h2 with hown
    · obtain ⟨renewed, s5, es5, es6, hexp, h3, rfl⟩ := attempt_seq h2
      obtain ⟨s6, o'', hle'', heq'', hp'', rfl⟩ := ran_redis hexp
      obtain ⟨rfl, rfl, -⟩ := attempt_ret h3
      have hi64 : asI64 ttl = ttl := by
        unfold asI64
        omega
      obtain _ | _ := renewed
      · exact ⟨[], ⟨rfl, rfl, rfl⟩, by rintro kw ⟨⟩⟩
      refine ⟨_, ⟨rfl, rfl, rfl⟩, ?_⟩
      intro kw hkw
      obtain rfl := mem_singleton.mp hkw
      obtain ⟨v, hlook⟩ := perform_expire hp'' (by omega)
      rw [hi64, Int.toNat_natCast] at hlook
      exact ⟨rfl, v, _, hlook, by omega⟩
    · cases (attempt_ret h2).2.2

lemma ran_storeTunnel {edgeIp : String} {now0 d0 : ℤ} (hexp : addUtc now0 d0 = some tunnel.expiresAt)
    (h : Interleaved config call s (storeTunnel edgeIp tunnel).run es s' (some (.ok x))) :
    ∃ storedAt d ws, Traces es [storedAt] [] ((.tunnel tunnel.id, some ⟨.tunnel tunnel, some d⟩) :: ws) ∧
      s.now ≤ storedAt ∧ (storedAt : ℤ) < tunnel.expiresAt ∧ tunnel.expiresAt - second < d ∧
      ∀ kw ∈ ws, (kw.1 = .subdomain tunnel.subdomain ∨ kw.1 = .slot tunnel.fqdn) ∧
        Kept (tunnel.expiresAt - second + 1) kw := by
  obtain ⟨storedAt, s1, es1, es2, hnow, h1, rfl⟩ := attempt_seq h
  obtain ⟨htr1, hle1, rfl⟩ := ran_utcNow hnow
  obtain ⟨_, s2, es3, es4, hset, h2, rfl⟩ := attempt_seq h1
  obtain ⟨htr2, hle2, hv⟩ := ran_setEx hset
  obtain ⟨hu64, hpos⟩ := asU64_valid hv hle2 hexp
  have hfloor := lt_numSeconds (tunnel.expiresAt - s1.now)
  have hceil := numSeconds_le (tunnel.expiresAt - s1.now)
  obtain ⟨_, s3, es5, es6, hget, h3, rfl⟩ := attempt_seq h2
  obtain ⟨htr3, hle3⟩ := ran_silent (only_redis rfl) hget
  obtain ⟨_, s4, es7, es8, hput, h4, rfl⟩ := attempt_seq h3
  obtain ⟨htr4, hle4⟩ := ran_silent (only_redis rfl) hput
  obtain ⟨_, s5, es9, es10, hclaim, h5, rfl⟩ := attempt_seq h4
  obtain ⟨ws, htr5, hws⟩ := ran_claimSubdomain hclaim
  have hle5 := ran_later hclaim
  obtain ⟨_, s6, es11, es12, hslot, h6, rfl⟩ := attempt_seq h5
  obtain ⟨htr6, hle6, -⟩ := ran_setEx hslot
  obtain ⟨rfl, rfl, -⟩ := attempt_ret h6
  have htr := htr1.append (htr2.append (htr3.append (htr4.append (htr5.append (htr6.append traces_nil)))))
  generalize asU64 (numSeconds (tunnel.expiresAt - s1.now)) = ttl at *
  have hlate : ∀ t, s1.now ≤ t → tunnel.expiresAt - second < (t + ttl * second) := by
    unfold second at hfloor ⊢
    omega
  refine ⟨s1.now, _, _, by simpa using htr, hle1, ?_, hlate _ hle2, ?_⟩
  · unfold second at hceil
    omega
  intro kw hkw
  obtain hkw | hkw := mem_append.mp hkw
  · obtain ⟨hkey, v, d, hlook, hd⟩ := hws kw hkw
    have := hlate _ (hle2.trans (hle3.trans hle4))
    exact ⟨.inl hkey, v, d, hlook, by omega⟩
  · obtain rfl := mem_singleton.mp hkw
    have := hlate _ (hle2.trans (hle3.trans (hle4.trans (hle5.trans hle6))))
    exact ⟨.inr rfl, _, _, rfl, by omega⟩

lemma ran_storeSshSession {sessionId publicKey fingerprint : String} {expiresAt : ℤ}
    (h : Interleaved config call s (storeSshSession sessionId owner publicKey fingerprint expiresAt).run es s'
      (some (.ok x))) :
    ∃ sessionAt ws, Traces es [sessionAt] [] ws ∧ ∀ kw ∈ ws, kw.1 = .session "session" sessionId := by
  obtain ⟨sessionAt, s1, es1, es2, hnow, h1, rfl⟩ := attempt_seq h
  obtain ⟨htr1, -, -⟩ := ran_utcNow hnow
  obtain ⟨_, s2, es3, es4, hset, h2, rfl⟩ := attempt_seq h1
  obtain ⟨htr2, -, -⟩ := ran_setEx hset
  obtain ⟨rfl, rfl, -⟩ := attempt_ret h2
  exact ⟨sessionAt, _, htr1.append (htr2.append traces_nil), by rintro kw (_ | ⟨_, ⟨⟩⟩); rfl⟩

end

def Stored (es : List Ev) (tunnel : Tunnel) : Prop := ∃ d, (.tunnel tunnel.id, some ⟨.tunnel tunnel, d⟩) ∈ saves es

def ownKeys (tunnel : Tunnel) : List Key :=
  [.tunnel tunnel.id, .subdomain tunnel.subdomain, .slot tunnel.fqdn, .port tunnel.slot]

structure Policy (config : ApiConfig) (request : CreateTunnelRequest) (es : List Ev) (tunnel : Tunnel) : Prop where
  requested : tunnel.expiresAt - tunnel.createdAt = (request.ttl.getD config.defaultTunnelTtl * second : ℕ)
  bounded : tunnel.expiresAt - tunnel.createdAt ≤ (config.maxTunnelTtl * second : ℕ)
  kept : ∀ kw ∈ saves es, kw.1 ∈ ownKeys tunnel →
    ∃ e, kw.2 = some e ∧ ∀ t : ℕ, t + second ≤ tunnel.expiresAt → e.live t = true

structure Times where
  (issuedAt registeredAt checkedAt createdAt storedAt sessionAt claimedAt : ℕ)

def Times.of (ts : Times) (es : List Ev) : Prop :=
  readings es = [ts.issuedAt, ts.registeredAt, ts.checkedAt, ts.createdAt, ts.storedAt, ts.sessionAt] ∧
    claims es = [ts.claimedAt]

def Times.covers (ts : Times) (ca : CaConfig) (ttl : ℕ) : Prop :=
  (ts.createdAt + ttl * second : ℤ) - second <
    ts.claimedAt + numSeconds (ts.issuedAt + ca.defaultTtl - ts.checkedAt) * second

variable {v : Value} {tunnel : Tunnel} {api : ApiConfig} {request : CreateTunnelRequest}

lemma outlives_iff {d : ℕ} {expiresAt : ℤ} (hpos : second ≤ expiresAt) :
    (∀ t : ℕ, t + second ≤ expiresAt → (⟨v, some d⟩ : Entry Value).live t = true) ↔ expiresAt - second < d := by
  constructor
  · intro h
    have hlast := live_iff.mp (h (expiresAt - second).toNat (by omega)) d rfl
    omega
  · intro h t ht
    refine live_iff.mpr fun d' hd' => ?_
    cases hd'
    omega

lemma durationSeconds_some {n d : ℤ} (h : durationSeconds n = some d) : d = n * second := by
  unfold durationSeconds at h
  split_ifs at h
  exact (Option.some.inj h).symm

lemma deadline_cast {now ttl : ℕ} {n : ℤ} (h : (ttl : ℤ) = n) : (now + ttl * second : ℕ) = now + n * second := by
  unfold second
  omega

structure Creation (api : ApiConfig) (request : CreateTunnelRequest) (es : List Ev) (ts : Times) (tunnel : Tunnel) :
    Prop where
  times : ts.of es
  allowed : request.ttl.getD api.defaultTunnelTtl ≤ api.maxTunnelTtl
  created : tunnel.createdAt = ts.createdAt
  expires : tunnel.expiresAt = ts.createdAt + asI64 (request.ttl.getD 3600) * second
  ahead : tunnel.createdAt < tunnel.expiresAt
  stored : Stored es tunnel
  only : ∀ other, Stored es other → other = tunnel
  claimed : ∃ v d, (.port tunnel.slot, some ⟨v, some d⟩) ∈ saves es ∧
    (∀ w, (.port tunnel.slot, w) ∈ saves es → w = some ⟨v, some d⟩) ∧
    (d : ℤ) = ts.claimedAt + numSeconds (ts.issuedAt + api.ca.defaultTtl - ts.checkedAt) * second
  kept : ∀ kw ∈ saves es, kw.1 ∈ ownKeys tunnel → kw.1 ≠ .port tunnel.slot → Kept (tunnel.expiresAt - second + 1) kw

lemma saved_keys {port record : Option (Entry Value)} {serial sessionId : String} {last : ℤ}
    {certs owned sessions : List (Key × Option (Entry Value))} (hcerts : ∀ kw ∈ certs, kw.1 = .cert serial)
    (howned : ∀ kw ∈ owned, (kw.1 = .subdomain tunnel.subdomain ∨ kw.1 = .slot tunnel.fqdn) ∧ Kept last kw)
    (hsessions : ∀ kw ∈ sessions, kw.1 = .session "session" sessionId) {kw : Key × Option (Entry Value)}
    (h : kw ∈ certs ++ (.port tunnel.slot, port) :: (.tunnel tunnel.id, record) :: (owned ++ sessions)) :
    kw.1 ∉ ownKeys tunnel ∧ (∀ id, kw.1 ≠ .tunnel id) ∨ kw = (.port tunnel.slot, port) ∨
      kw = (.tunnel tunnel.id, record) ∨ (∀ id, kw.1 ≠ .tunnel id) ∧ kw.1 ≠ .port tunnel.slot ∧ Kept last kw := by
  rw [mem_append, mem_cons, mem_cons, mem_append] at h
  obtain h | h | h | h | h := h
  · simp [hcerts kw h, ownKeys]
  · exact .inr (.inl h)
  · exact .inr (.inr (.inl h))
  · obtain ⟨hkey | hkey, hkept⟩ := howned kw h <;> simp [hkey, hkept]
  · simp [hsessions kw h, ownKeys]

lemma creation_keys {p d : ℕ} {serial sessionId : String} {certs owned sessions : List (Key × Option (Entry Value))}
    (hcerts : ∀ kw ∈ certs, kw.1 = .cert serial)
    (howned : ∀ kw ∈ owned, (kw.1 = .subdomain tunnel.subdomain ∨ kw.1 = .slot tunnel.fqdn) ∧
      Kept (tunnel.expiresAt - second + 1) kw)
    (hsessions : ∀ kw ∈ sessions, kw.1 = .session "session" sessionId) (hd : tunnel.expiresAt - second < d)
    (hsaves : saves es = certs ++ (.port tunnel.slot, some ⟨v, some p⟩) ::
      (.tunnel tunnel.id, some ⟨.tunnel tunnel, some d⟩) :: (owned ++ sessions)) :
    Stored es tunnel ∧ (∀ other, Stored es other → other = tunnel) ∧
      (.port tunnel.slot, some ⟨v, some p⟩) ∈ saves es ∧
      (∀ w, (.port tunnel.slot, w) ∈ saves es → w = some ⟨v, some p⟩) ∧
      ∀ kw ∈ saves es, kw.1 ∈ ownKeys tunnel → kw.1 ≠ .port tunnel.slot →
        Kept (tunnel.expiresAt - second + 1) kw := by
  unfold Stored
  rw [hsaves]
  have hkeys : ∀ kw ∈ certs ++ (.port tunnel.slot, some ⟨v, some p⟩) ::
      (.tunnel tunnel.id, some ⟨.tunnel tunnel, some d⟩) :: (owned ++ sessions), _ :=
    fun kw => saved_keys hcerts howned hsessions
  refine ⟨⟨some d, by simp⟩, ?_, by simp, ?_, ?_⟩
  · rintro other ⟨d', hother⟩
    obtain h | h | h | h := hkeys _ hother
    · exact absurd rfl (h.2 other.id)
    · cases h
    · exact Value.tunnel.inj (Entry.mk.inj (Option.some.inj (Prod.mk.inj h).2)).1
    · exact absurd rfl (h.1 other.id)
  · intro w hw
    obtain h | h | h | h := hkeys _ hw
    · exact absurd (by simp [ownKeys]) h.1
    · exact (Prod.mk.inj h).2
    · cases h
    · exact absurd rfl h.2.1
  intro kw hkw hown hport
  obtain h | rfl | rfl | h := hkeys _ hkw
  · exact absurd hown h.1
  · exact absurd rfl hport
  · exact ⟨_, _, rfl, by omega⟩
  · exact h.2.2

lemma ran_createTunnel {user : GitHubUser} {response : CreateTunnelResponse}
    (h : Interleaved config call s (createTunnel api user request).run es s' (some (.ok response))) :
    ∃ ts tunnel, Creation api request es ts tunnel := by
  obtain ⟨_, _, _, _, hx, h1, rfl⟩ := attempt_seq h
  obtain ⟨rfl, rfl, hallowed⟩ := ran_rejectIf hx
  obtain ⟨_, s1, _, _, hx, h2, rfl⟩ := attempt_seq h1
  obtain ⟨htr1, -⟩ := ran_silent (only_checkQuota rfl) hx
  obtain ⟨_, _, _, _, hx, h3, rfl⟩ := attempt_seq h2
  obtain ⟨rfl, rfl, -⟩ := ran_rejectIf hx
  obtain ⟨name, _, _, _, hx, h4, rfl⟩ := attempt_seq h3
  obtain ⟨htr2, -⟩ := ran_silent (only_chooseSubdomain (fun _ _ => rfl) request) hx
  obtain ⟨_, _, _, _, hx, h5, rfl⟩ := attempt_seq h4
  obtain ⟨htr3, -⟩ := ran_silent (only_isSubdomainAvailable (fun _ => rfl) name) hx
  obtain ⟨_, _, _, _, hx, h6, rfl⟩ := attempt_seq h5
  obtain ⟨rfl, rfl, -⟩ := ran_rejectIf hx
  obtain ⟨cert, _, _, _, hx, h7, rfl⟩ := attempt_seq h6
  obtain ⟨issuedAt, registeredAt, certs, htr4, hcerts, hcert⟩ := ran_issueClientCertificate hx
  obtain ⟨checkedAt, s2, _, _, hx, h8, rfl⟩ := attempt_seq h7
  obtain ⟨htr5, -, rfl⟩ := ran_utcNow hx
  obtain ⟨port, s3, _, _, hx, h9, rfl⟩ := attempt_seq h8
  obtain ⟨claimedAt, htr6, hv, hle6, -⟩ := ran_allocatePort hx
  obtain ⟨hu64, -⟩ := asU64_valid hv hle6 hcert
  obtain ⟨made, s4, _, _, hx, h10, rfl⟩ := attempt_seq h9
  obtain ⟨createdAt, lifetime, htr7, -, hle7, hcreated, hlifetime, hexpires, hslot⟩ := ran_newTunnel hx
  obtain ⟨tunnel, htunnel⟩ : ∃ tunnel : Tunnel, { made with
    protectedTunnel := request.protectedTunnel.getD false
    teardownPolicy := request.teardownPolicy.getD .ttlOnly } = tunnel := ⟨_, rfl⟩
  rw [htunnel] at h10
  replace hcreated : tunnel.createdAt = createdAt := htunnel ▸ hcreated
  replace hexpires : addUtc createdAt lifetime = some tunnel.expiresAt := htunnel ▸ hexpires
  obtain rfl : tunnel.slot = port := htunnel ▸ hslot
  obtain ⟨_, s5, _, _, hx, h11, rfl⟩ := attempt_seq h10
  obtain ⟨storedAt, d, owned, htr8, hle8, hahead, hd, howned⟩ := ran_storeTunnel hexpires hx
  obtain ⟨_, _, _, _, hx, h12, rfl⟩ := attempt_seq h11
  obtain ⟨htr9, -⟩ := ran_silent (only_generateSshKeyPair rfl) hx
  obtain ⟨_, _, _, _, hx, h13, rfl⟩ := attempt_seq h12
  obtain ⟨sessionAt, sessions, htr10, hsessions⟩ := ran_storeSshSession hx
  obtain ⟨_, _, _, _, hx, h14, rfl⟩ := attempt_seq h13
  obtain ⟨htr11, -⟩ := ran_silent (only_basicAuth (fun _ _ => rfl) request) hx
  obtain ⟨rfl, rfl, -⟩ := attempt_ret h14
  have htr := htr1.append (htr2.append (htr3.append (htr4.append (htr5.append (htr6.append (htr7.append (htr8.append
    (htr9.append (htr10.append (htr11.append traces_nil))))))))))
  simp only [append_nil] at htr ⊢
  obtain ⟨hstored, honly, hclaimed, hport, hkept⟩ := creation_keys hcerts howned hsessions hd htr.saves
  refine ⟨⟨issuedAt, registeredAt, s2.now, createdAt, storedAt, sessionAt, claimedAt⟩, tunnel, ?_⟩
  exact {
    times := ⟨htr.readings, htr.claims⟩
    allowed := not_lt.mp hallowed
    created := hcreated
    expires := durationSeconds_some hlifetime ▸ addUtc_some hexpires
    ahead := by omega
    stored := hstored
    only := honly
    claimed := ⟨_, _, hclaimed, hport, deadline_cast (hu64.trans (by rw [addUtc_some hcert]))⟩
    kept := hkept }

lemma Creation.lifetime {ts : Times} (h : Creation api request es ts tunnel) (hmax : api.maxTunnelTtl < 2 ^ 64) :
    tunnel.expiresAt - tunnel.createdAt = (request.ttl.getD 3600 * second : ℕ) ∧
      second ≤ tunnel.expiresAt := by
  have hrange : request.ttl.getD 3600 < 2 ^ 64 := by
    have hallowed := h.allowed
    cases hr : request.ttl with
    | none => simp
    | some =>
      rw [hr] at hallowed
      exact lt_of_le_of_lt hallowed hmax
  have hahead := h.ahead
  have hexpires := h.expires
  have hcreated := h.created
  have hi64 : asI64 (request.ttl.getD 3600) = request.ttl.getD 3600 ∧ 0 < request.ttl.getD 3600 := by
    unfold second at hexpires
    unfold asI64 at hexpires ⊢
    omega
  unfold second at hexpires ⊢
  omega

theorem lifetime_policy {api : ApiConfig} {user : GitHubUser} {request : CreateTunnelRequest}
    {response : CreateTunnelResponse} (hmax : api.maxTunnelTtl < 2 ^ 64)
    (h : Interleaved config call s (createTunnel api user request).run es s' (some (.ok response))) :
    ∃ (ts : Times) (tunnel : Tunnel), ts.of es ∧ Stored es tunnel ∧ (∀ other, Stored es other → other = tunnel) ∧
      (Policy api request es tunnel ↔
        (request.ttl.isSome ∨ api.defaultTunnelTtl = 3600) ∧ ts.covers api.ca (request.ttl.getD 3600)) := by
  obtain ⟨ts, tunnel, hc⟩ := ran_createTunnel h
  obtain ⟨hlife, hsecond⟩ := hc.lifetime hmax
  have hallowed := hc.allowed
  obtain ⟨v, d, hclaimed, hport, hd⟩ := hc.claimed
  have hcovers : ts.covers api.ca (request.ttl.getD 3600) ↔ tunnel.expiresAt - second < d := by
    have hcreated := hc.created
    unfold Times.covers
    push_cast at hlife
    rw [hd]
    omega
  have hgiven : request.ttl.getD 3600 = request.ttl.getD api.defaultTunnelTtl ↔
      request.ttl.isSome ∨ api.defaultTunnelTtl = 3600 := by
    cases request.ttl with
    | none => simp [eq_comm]
    | some => simp
  refine ⟨ts, tunnel, hc.times, hc.stored, hc.only, ?_⟩
  rw [hcovers, ← hgiven]
  constructor
  · intro hp
    refine ⟨?_, ?_⟩
    · have hreq := hp.requested
      rw [hlife] at hreq
      exact Nat.eq_of_mul_eq_mul_right (by decide) (Int.ofNat_inj.mp hreq)
    · obtain ⟨e, he, hlive⟩ := hp.kept _ hclaimed (by simp [ownKeys])
      cases he
      exact (outlives_iff hsecond).mp hlive
  · rintro ⟨hsame, hlast⟩
    rw [hsame] at hlife
    refine ⟨hlife, ?_, ?_⟩
    · rw [hlife]
      exact_mod_cast Nat.mul_le_mul_right _ hallowed
    · intro kw hkw hown
      by_cases hk : kw.1 = .port tunnel.slot
      · obtain ⟨k, w⟩ := kw
        obtain rfl := hk
        exact ⟨_, hport w hkw, (outlives_iff hsecond).mpr hlast⟩
      · obtain ⟨v', d', hlook, hd'⟩ := hc.kept kw hkw hown hk
        exact ⟨_, hlook, (outlives_iff hsecond).mpr (by omega)⟩

open Schedule

def chosen : Action → Option Choice
  | .exec _ c => some c
  | _ => none

def created (request : CreateTunnelRequest) : Option (List Ev × Shared × Option (Except ApiError CreateTunnelResponse)) :=
  conduct (fun s c o => perform deployment s (.createTunnel alice request) c o)
    ((create 0 10000 "t1" "ssh-ed25519 AAAA").filterMap chosen) start.shared
    (createTunnel deployment.api alice request).run

def isCreated : Option (Except ApiError CreateTunnelResponse) → Bool
  | some (.ok _) => true
  | _ => false

lemma run_of_created {r : CreateTunnelRequest} {p : List Ev → Bool}
    (h : ((created r).any fun x => isCreated x.2.2 && p x.1) = true) :
    ∃ es s' response, Interleaved deployment (.createTunnel alice r) start.shared
      (createTunnel deployment.api alice r).run es s' (some (.ok response)) ∧ p es = true := by
  rw [Option.any_eq_true] at h
  obtain ⟨⟨es, s', res⟩, hx, hp⟩ := h
  rw [Bool.and_eq_true] at hp
  obtain ⟨response, hres⟩ : ∃ response, res = some (.ok response) := by
    have hdone := hp.1
    unfold isCreated at hdone
    split at hdone
    · exact ⟨_, by assumption⟩
    · cases hdone
  rw [hres] at hx
  exact ⟨es, s', response, attempt_of_conduct (fun s => Nat.le_refl s.now) hx, hp.2⟩

theorem lifetime_policy_given_ttl :
    ∃ es tunnel, Stored es tunnel ∧ Policy deployment.api (Schedule.request 600 "app") es tunnel := by
  obtain ⟨es, s', response, hrun, htimes⟩ := run_of_created (r := Schedule.request 600 "app")
    (p := fun es => readings es = List.replicate 6 (1700000000 * second) ∧ claims es = [1700000000 * second])
    (by decide +kernel)
  obtain ⟨ts, tunnel, hts, hstored, -, hpolicy⟩ := lifetime_policy (by decide) hrun
  refine ⟨es, tunnel, hstored, hpolicy.mpr ⟨.inl rfl, ?_⟩⟩
  obtain ⟨hr, hcl⟩ := of_decide_eq_true htimes
  have hreadings := hts.1.symm.trans hr
  have hclaims := hts.2.symm.trans hcl
  simp only [List.replicate, List.cons.injEq, and_true] at hreadings hclaims
  unfold Times.covers
  rw [hreadings.1, hreadings.2.2.1, hreadings.2.2.2.1, hclaims]
  decide

/-- Without a ttl the tunnel lives for the hour built into the handler, not for the configured default. -/
theorem default_ttl_ignored :
    deployment.api.validate ⟨"client", "secret", "jwt"⟩ = .ok () ∧
      ∃ es s' response, Interleaved deployment (.createTunnel alice ⟨3000, none, some "app", none, none, none⟩) start.shared
        (createTunnel deployment.api alice ⟨3000, none, some "app", none, none, none⟩).run es s' (some (.ok response)) ∧
        ∃ tunnel, Stored es tunnel ∧
          ¬ Policy deployment.api ⟨3000, none, some "app", none, none, none⟩ es tunnel := by
  refine ⟨rfl, ?_⟩
  obtain ⟨es, s', response, hrun, -⟩ := run_of_created (r := ⟨3000, none, some "app", none, none, none⟩)
    (p := fun _ => true) (by decide +kernel)
  obtain ⟨ts, tunnel, hc⟩ := ran_createTunnel hrun
  refine ⟨es, s', response, hrun, tunnel, hc.stored, ?_⟩
  intro hp
  have hrequested := hp.requested
  rw [(hc.lifetime (by decide)).1] at hrequested
  exact absurd hrequested (by decide)

end FleetingDns.TunnelLifetime
