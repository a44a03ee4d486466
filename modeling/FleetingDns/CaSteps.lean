import FleetingDns.CaDiscipline
import FleetingDns.Library.Tables
namespace FleetingDns.EdfCa

open CommandPrograms ExpiringStore ThreadPool ServerPool GuardedRuns AList CaState

def unexpired (now : ℕ) (cert : ActiveCertificate) : Bool := decide (cert.metadata.expiresAt > now)

lemma unexpired_iff {now : ℕ} {cert : ActiveCertificate} : unexpired now cert = true ↔ now < cert.metadata.expiresAt :=
  decide_eq_true_iff

lemma certKey_inj {serial serial' : String} : certKey serial = certKey serial' ↔ serial = serial' :=
  String.append_right_inj _

namespace CaState

def entry (s : CaState) (serial : String) : Option (Entry Record) := (visible s.now s.store).lookup (certKey serial)

inductive Performed (s : CaState) : CaState → (c : Cmd) → c.Reply → Prop
  | utcNow : Performed s s .utcNow s.now
  | store {c : StoreCmd String Record} {r : Except String c.Reply} {o : Outcome String} {store : Store String Record}
      (perform : ExpiringStore.perform s.now (visible s.now s.store) c o = some (store, r)) :
      Performed s { s with store := store } (.store c) r
  | lookupActive {serial : String} : Performed s s (.lookupActive serial) (s.activeCerts.lookup serial)
  | insertActive {serial : String} {cert : ActiveCertificate} :
      Performed s { s with activeCerts := s.activeCerts.insert serial cert } (.insertActive serial cert) ()
  | repopulate {serial : String} {cert : ActiveCertificate} :
      Performed s { s with activeCerts := s.activeCerts.insert serial cert } (.repopulate serial cert) ()
  | removeActive {serial : String} : Performed s { s with activeCerts := s.activeCerts.erase serial }
      (.removeActive serial) (s.activeCerts.lookup serial).isSome
  | retainActive {n : ℕ} : Performed s { s with activeCerts := retain s.now s.activeCerts } .retainActive n
  | isRateLimited {clientId : String} :
      Performed s s (.isRateLimited clientId) (s.rateLimiter.isRateLimited s.now clientId)
  | recordIssuance {clientId : String} :
      Performed s { s with rateLimiter := s.rateLimiter.recordIssuance s.now clientId } (.recordIssuance clientId) ()
  | sign {request : CertificateRequest} {r : Except String Signed} : Performed s s (.sign request) r
  | newUuid {bytes : Fin 16 → Byte} (fresh : uuidText bytes ∉ s.usedSerials) :
      Performed s { s with usedSerials := uuidText bytes :: s.usedSerials } .newUuid bytes
  | caCertificatePem {r : Except String String} : Performed s s .caCertificatePem r

variable {s s' : CaState} {c : Cmd} {o : Choice} {r : c.Reply} {serial : String}

section

variable (h : s.perform c o = some (s', r))

include h

lemma perform_effect : Performed s s' c r := by
  cases c with
  | store =>
    cases o <;> simp only [perform, reduceCtorEq] at h
    obtain ⟨⟨store, r'⟩, hp, heq⟩ := Option.map_eq_some_iff.mp h
    obtain ⟨rfl, rfl⟩ := heq
    exact .store hp
  | newUuid =>
    cases o <;> simp only [perform, reduceCtorEq] at h
    split_ifs at h with hu
    cases h
    exact .newUuid hu
  | _ =>
    cases o <;> simp only [perform, reduceCtorEq] at h
    cases h
    constructor

lemma perform_now : s'.now = s.now := by
  cases perform_effect h <;> rfl

lemma perform_boots : s'.boots = s.boots := by
  cases perform_effect h <;> rfl

lemma perform_used : s.usedSerials ⊆ s'.usedSerials := by
  cases perform_effect h with
  | newUuid => exact List.subset_cons_self _ _
  | _ => exact fun _ => id

end

lemma perform_utcNow {x : ℕ} (h : s.perform .utcNow o = some (s', x)) : s' = s ∧ x = s.now := by
  cases perform_effect h with
  | utcNow => exact ⟨rfl, rfl⟩

lemma perform_newUuid {bytes : Fin 16 → Byte} (h : s.perform .newUuid o = some (s', bytes)) :
    uuidText bytes ∉ s.usedSerials ∧ uuidText bytes ∈ s'.usedSerials := by
  cases perform_effect h with
  | newUuid fresh => exact ⟨fresh, List.mem_cons_self⟩

lemma perform_lookupActive {x : Option ActiveCertificate} (h : s.perform (.lookupActive serial) o = some (s', x)) :
    x = s.activeCerts.lookup serial := by
  cases perform_effect h with
  | lookupActive => rfl

lemma perform_insertActive {cert : ActiveCertificate} {x : Unit}
    (h : s.perform (.insertActive serial cert) o = some (s', x)) : s'.activeCerts.lookup serial = some cert := by
  cases perform_effect h with
  | insertActive => exact lookup_insert _

lemma perform_removeActive {x : Bool} (h : s.perform (.removeActive serial) o = some (s', x)) :
    x = (s.activeCerts.lookup serial).isSome ∧ s'.activeCerts.lookup serial = none ∧ s'.entry serial = s.entry serial := by
  cases perform_effect h with
  | removeActive => exact ⟨rfl, lookup_erase _ _, rfl⟩

lemma perform_isRateLimited {clientId : String} {x : Bool} (h : s.perform (.isRateLimited clientId) o = some (s', x)) :
    s' = s ∧ x = s.rateLimiter.isRateLimited s.now clientId := by
  cases perform_effect h with
  | isRateLimited => exact ⟨rfl, rfl⟩

lemma perform_limiter (h : s.perform c o = some (s', r)) : (records c = false ∧ s'.rateLimiter = s.rateLimiter) ∨
    ∃ clientId, c = .recordIssuance clientId ∧ s' = { s with rateLimiter := s.rateLimiter.recordIssuance s.now clientId } := by
  cases perform_effect h with
  | @recordIssuance clientId => exact .inr ⟨clientId, rfl, rfl⟩
  | _ => exact .inl ⟨rfl, rfl⟩

lemma perform_active (h : s.perform c o = some (s', r)) (serial : String) :
    s'.activeCerts.lookup serial = s.activeCerts.lookup serial ∨
    (∃ cert, (c = .insertActive serial cert ∨ c = .repopulate serial cert) ∧ s'.activeCerts.lookup serial = some cert) ∨
    (c = .removeActive serial ∧ s'.activeCerts.lookup serial = none) ∨
    (c = .retainActive ∧ s'.activeCerts.lookup serial =
      (s.activeCerts.lookup serial).filter (unexpired s.now)) := by
  cases perform_effect h with
  | @insertActive key cert =>
    by_cases hk : serial = key
    · subst hk
      exact .inr (.inl ⟨cert, .inl rfl, lookup_insert _⟩)
    · exact .inl (lookup_insert_ne hk)
  | @repopulate key cert =>
    by_cases hk : serial = key
    · subst hk
      exact .inr (.inl ⟨cert, .inr rfl, lookup_insert _⟩)
    · exact .inl (lookup_insert_ne hk)
  | @removeActive key =>
    by_cases hk : serial = key
    · subst hk
      exact .inr (.inr (.inl ⟨rfl, lookup_erase _ _⟩))
    · exact .inl (lookup_erase_ne hk)
  | retainActive => exact .inr (.inr (.inr ⟨rfl, Tables.lookup_retain (unexpired s.now) _ _⟩))
  | _ => exact .inl rfl

lemma visible_visible (now : ℕ) (store : Store String Record) (k : String) :
    (visible now (visible now store)).lookup k = (visible now store).lookup k := by
  simp [lookup_visible]

lemma perform_entry (h : s.perform c o = some (s', r)) (serial : String) : s'.entry serial = s.entry serial ∨
    ∃ c', c = .store c' ∧ c'.target = some (certKey serial) ∧
      s'.entry serial = (c'.entry s.now (s.entry serial)).filter (·.live s.now) := by
  cases perform_effect h with
  | @store c' r o store perform =>
    by_cases hk : c'.target = some (certKey serial)
    · obtain heq | heq := perform_target perform hk
      · refine .inl ?_
        rw [entry, lookup_visible, heq, ← lookup_visible, visible_visible]
        rfl
      · refine .inr ⟨c', rfl, hk, ?_⟩
        rw [entry, lookup_visible, heq]
        rfl
    · refine .inl ?_
      rw [entry, lookup_visible, perform_frame perform hk, ← lookup_visible, visible_visible]
      rfl
  | _ => exact .inl rfl

lemma perform_get {x : Option Record} (h : s.perform (.store (.get (certKey serial))) o = some (s', .ok x)) :
    x = (s.entry serial).map Entry.value := by
  cases perform_effect h with
  | store perform => exact (ExpiringStore.perform_get perform).2

lemma perform_setEx {v : Record} {ttl : ℕ} {x : Unit}
    (h : s.perform (.store (.setEx (certKey serial) v ttl)) o = some (s', .ok x)) :
    s'.entry serial = (some ⟨v, some (s.now + ttl * second)⟩).filter (·.live s.now) := by
  cases perform_effect h with
  | store perform =>
    rw [entry, lookup_visible]
    exact congrArg _ (ExpiringStore.perform_setEx perform).2

lemma entry_later {d : ℕ} : ({ s with now := s.now + d }).entry serial =
    (s.entry serial).filter (·.live (s.now + d)) := by
  simp only [entry, lookup_visible]
  obtain _ | e := s.store.lookup (certKey serial)
  · rfl
  have hlive : e.live (s.now + d) = true → e.live s.now = true := by
    simp only [live_iff]
    intro hl k hk
    have := hl k hk
    omega
  cases hn : e.live s.now <;> cases hd : e.live (s.now + d) <;> simp_all [Option.filter]

lemma accept_used {call : Call} (h : s.accept call = some s') :
    ∃ used, s' = { s with usedSerials := used } ∧ s.usedSerials ⊆ used := by
  unfold accept at h
  split at h
  · split_ifs at h
    exact ⟨_, (Option.some.inj h).symm, List.subset_cons_self _ _⟩
  · exact ⟨s.usedSerials, (Option.some.inj h).symm, fun _ => id⟩

end CaState

variable {config : Config} {w w' : CaPool} {a : Action}

section

variable (h : step (server config) w a = some w')

include h

lemma shared_step : (∃ d, a = .drift d ∧ w'.shared = { w.shared with now := w.shared.now + d }) ∨
    (∃ call used, a = .arrive call ∧ w'.shared = { w.shared with usedSerials := used } ∧ w.shared.usedSerials ⊆ used) ∨
    (∃ tid o th c r, a = .exec tid o ∧ Issues w tid th c ∧ w.shared.perform c o = some (w'.shared, r)) ∨
    (∃ tid, a = .cancel tid ∧ w'.shared = w.shared) ∨
    (a = .restart ∧ w'.shared = w.shared.restart config) := by
  cases step_effect h with
  | @drift d drift threads => exact .inl ⟨d, rfl, (Option.some.inj drift).symm⟩
  | @arrive call accept threads =>
    refine .inr (.inl ?_)
    obtain ⟨used, hs, hused⟩ := accept_used accept
    exact ⟨call, used, rfl, hs, hused⟩
  | @exec tid o th c k r thread prog perform threads =>
    exact .inr (.inr (.inl ⟨tid, o, th, c, r, rfl, ⟨thread, k, prog⟩, perform⟩))
  | @cancel tid th thread inFlight shared threads => exact .inr (.inr (.inr (.inl ⟨tid, rfl, shared⟩)))
  | restart restart => exact .inr (.inr (.inr (.inr ⟨rfl, (Option.some.inj restart).symm⟩)))

lemma now_step : w.shared.now ≤ w'.shared.now := by
  obtain ⟨d, -, hs⟩ | ⟨_, _, -, hs, -⟩ | ⟨_, _, _, _, _, -, -, hp⟩ | ⟨_, -, hs⟩ | ⟨-, hs⟩ := shared_step h
  · rw [hs]
    exact Nat.le_add_right _ _
  · rw [hs]
  · rw [perform_now hp]
  · rw [hs]
  · rw [hs]
    rfl

lemma boots_step : w.shared.boots ≤ w'.shared.boots := by
  obtain ⟨d, -, hs⟩ | ⟨_, _, -, hs, -⟩ | ⟨_, _, _, _, _, -, -, hp⟩ | ⟨_, -, hs⟩ | ⟨-, hs⟩ := shared_step h
  · rw [hs]
  · rw [hs]
  · rw [perform_boots hp]
  · rw [hs]
  · rw [hs]
    exact Nat.le_succ _

lemma used_step : w.shared.usedSerials ⊆ w'.shared.usedSerials := by
  obtain ⟨d, -, hs⟩ | ⟨_, _, -, hs, hu⟩ | ⟨_, _, _, _, _, -, -, hp⟩ | ⟨_, -, hs⟩ | ⟨-, hs⟩ := shared_step h
  · rw [hs]
    exact fun _ => id
  · rw [hs]
    exact hu
  · exact perform_used hp
  · rw [hs]
    exact fun _ => id
  · rw [hs]
    exact fun _ => id

lemma active_step (serial : String) : w'.shared.activeCerts.lookup serial = w.shared.activeCerts.lookup serial ∨
    (∃ tid o th cert, a = .exec tid o ∧ (Issues w tid th (.insertActive serial cert) ∨
      Issues w tid th (.repopulate serial cert)) ∧ w'.shared.activeCerts.lookup serial = some cert) ∨
    (∃ tid o th, a = .exec tid o ∧ Issues w tid th (.removeActive serial) ∧ w'.shared.activeCerts.lookup serial = none) ∨
    (w'.shared.now = w.shared.now ∧ w'.shared.activeCerts.lookup serial =
      (w.shared.activeCerts.lookup serial).filter (unexpired w.shared.now)) ∨
    (w'.shared.boots = w.shared.boots + 1 ∧ w'.shared.activeCerts.lookup serial = none) := by
  obtain ⟨d, -, hs⟩ | ⟨_, _, -, hs, -⟩ | ⟨tid, o, th, c, _, ha, hi, hp⟩ | ⟨_, -, hs⟩ | ⟨-, hs⟩ := shared_step h
  · exact .inl (by rw [hs])
  · exact .inl (by rw [hs])
  · obtain heq | ⟨cert, hc, heq⟩ | ⟨rfl, heq⟩ | ⟨rfl, heq⟩ := perform_active hp serial
    · exact .inl heq
    · obtain rfl | rfl := hc
      · exact .inr (.inl ⟨tid, o, th, cert, ha, .inl hi, heq⟩)
      · exact .inr (.inl ⟨tid, o, th, cert, ha, .inr hi, heq⟩)
    · exact .inr (.inr (.inl ⟨tid, o, th, ha, hi, heq⟩))
    · exact .inr (.inr (.inr (.inl ⟨perform_now hp, heq⟩)))
  · exact .inl (by rw [hs])
  · exact .inr (.inr (.inr (.inr ⟨by rw [hs]; rfl, by rw [hs]; rfl⟩)))

lemma entry_step (serial : String) : w'.shared.entry serial = w.shared.entry serial ∨
    w'.shared.entry serial = (w.shared.entry serial).filter (·.live w'.shared.now) ∨
    ∃ tid o th c, a = .exec tid o ∧ Issues w tid th (.store c) ∧ c.target = some (certKey serial) ∧
      w'.shared.entry serial = (c.entry w.shared.now (w.shared.entry serial)).filter (·.live w.shared.now) := by
  obtain ⟨d, -, hs⟩ | ⟨_, _, -, hs, -⟩ | ⟨tid, o, th, c, _, ha, hi, hp⟩ | ⟨_, -, hs⟩ | ⟨-, hs⟩ := shared_step h
  · refine .inr (.inl ?_)
    rw [hs]
    exact entry_later
  · exact .inl (by rw [hs]; rfl)
  · obtain heq | ⟨c', rfl, ht, heq⟩ := perform_entry hp serial
    · exact .inl heq
    · exact .inr (.inr ⟨tid, o, th, c', ha, hi, ht, heq⟩)
  · exact .inl (by rw [hs])
  · exact .inl (by rw [hs]; rfl)

end

def validated (serial : String) (isValid : Bool) (th : CaThread) : Bool :=
  match th.call, th.prog with
  | .validateCertificate s, .ret (.validated b) => s = serial ∧ b = isValid
  | _, _ => false

lemma validated_iff {serial : String} {isValid : Bool} {th : CaThread} (h : validated serial isValid th = true) :
    th.call = .validateCertificate serial ∧ th.prog = .ret (.validated isValid) := by
  unfold validated at h
  split at h
  · rename_i hcall hprog
    obtain ⟨hs, hb⟩ := of_decide_eq_true h
    exact ⟨hs ▸ hcall, hb ▸ hprog⟩
  · cases h

end FleetingDns.EdfCa
