import FleetingDns.ApiServer
import FleetingDns.CaSteps
import FleetingDns.Library.Provenance
import FleetingDns.WorldSteps
namespace FleetingDns.ApiServer

open CommandPrograms ExpiringStore ThreadPool ServerPool GuardedRuns Provenance ApiState Option Quota Shared List
  EdfCa.CaState Plans.PlanDb
open EdfCa (certKey uuidText)

inductive Fact where
  | record (id : String) (tunnel : Tunnel)
  | listed (owner id : String)
  | certificate (serial : String) (cert : EdfCa.ActiveCertificate)
  | assignment (id userId : String)

inductive Tells : Key → Value → Fact → Prop
  | record {id : String} {tunnel : Tunnel} : Tells (.tunnel id) (.tunnel tunnel) (.record id tunnel)
  | listed {owner id : String} {l : UserTunnelLookup} (mem : id ∈ l.tunnels) :
      Tells (.tunnelLookup owner) (.lookup l) (.listed owner id)

inductive Certifies : String → EdfCa.Record → Fact → Prop
  | certificate {serial : String} {cert : EdfCa.ActiveCertificate} :
      Certifies (certKey serial) (.certificate cert) (.certificate serial cert)

inductive Held (s : ApiState) : Fact → Prop
  | stored {k : Key} {e : Entry Value} {f : Fact} (lookup : s.store.lookup k = some e) (tells : Tells k e.value f) :
      Held s f
  | archived {k : String} {e : Entry EdfCa.Record} {f : Fact} (lookup : s.ca.store.lookup k = some e)
      (certifies : Certifies k e.value f) : Held s f
  | active {serial : String} {cert : EdfCa.ActiveCertificate} (lookup : s.ca.activeCerts.lookup serial = some cert) :
      Held s (.certificate serial cert)
  | assigned {a : Plans.UserServicePlan} (mem : a ∈ s.db.assignments) : Held s (.assignment a.id a.userId)

inductive Learned : (c : ApiCmd) → c.Reply → Fact → Prop
  | stored {k : Key} {v : Value} {f : Fact} (tells : Tells k v f) :
      Learned (.quota (.base (.redis (.get k)))) (.ok (some v)) f
  | archived {k : String} {v : EdfCa.Record} {f : Fact} (certifies : Certifies k v f) :
      Learned (.ca (.store (.get k))) (.ok (some v)) f
  | active {serial : String} {cert : EdfCa.ActiveCertificate} :
      Learned (.ca (.lookupActive serial)) (some cert) (.certificate serial cert)
  | assigned {userId : String} {l : List Plans.UserServicePlan} {a : Plans.UserServicePlan} (mem : a ∈ l) :
      Learned (.db (.activeAssignments userId)) (.ok l) (.assignment a.id userId)

inductive Written : ApiCmd → Fact → Prop
  | stored {c : StoreCmd Key Value} {k : Key} {v : Value} {f : Fact} (written : c.written = some (k, v))
      (tells : Tells k v f) : Written (.quota (.base (.redis c))) f
  | archived {c : StoreCmd String EdfCa.Record} {k : String} {v : EdfCa.Record} {f : Fact}
      (written : c.written = some (k, v)) (certifies : Certifies k v f) : Written (.ca (.store c)) f
  | inserted {serial : String} {cert : EdfCa.ActiveCertificate} :
      Written (.ca (.insertActive serial cert)) (.certificate serial cert)
  | repopulated {serial : String} {cert : EdfCa.ActiveCertificate} :
      Written (.ca (.repopulate serial cert)) (.certificate serial cert)
  | assigned {a : Plans.UserServicePlan} : Written (.db (.insertAssignment a)) (.assignment a.id a.userId)

def ledger : Ledger ApiState ApiCmd Fact ApiCmd.Reply := ⟨Held, Learned, Written⟩

abbrev Knows (h : List Ev) (f : Fact) : Prop := ledger.Knows h f

def drawnId : (c : ApiCmd) → c.Reply → Option String
  | .quota (.base .newUuid), id => some id
  | _, _ => none

def drawnSerial : (c : ApiCmd) → c.Reply → Option String
  | .ca .newUuid, bytes => some (uuidText bytes)
  | _, _ => none

inductive Performed (d : Deployment) (s : ApiState) : ApiState → (c : ApiCmd) → c.Reply → Prop
  | quota {c : Quota.QuotaCmd} {r : c.Reply} {o : Quota.QuotaChoice} {q : Quota.QuotaState}
      (perform : s.quota.perform d.config c o = some (q, r)) (canonical : canonical d c r = true) :
      Performed d s { s with quota := q } (.quota c) r
  | ca {c : EdfCa.Cmd} {r : c.Reply} {o : EdfCa.Choice} {ca : EdfCa.CaState}
      (perform : s.ca.perform c o = some (ca, r)) :
      Performed d s { s with ca := ca } (.ca c) r
  | activeCount {n : ℕ} : Performed d s s .activeCount n
  | totalIssued {n : ℕ} : Performed d s s .totalIssued n
  | db {c : Plans.DbCmd} {r : c.Reply} {o : Plans.DbChoice} {db : Plans.PlanDb}
      (perform : s.db.perform c o = some (db, r)) :
      Performed d s { s with db := db } (.db c) r

section

variable {d : Deployment} {s s' : ApiState} {o : ApiChoice} {c : ApiCmd} {r : c.Reply}

lemma performed (h : s.perform d c o = some (s', r)) : Performed d s s' c r := by
  cases c with
  | quota =>
    cases o <;> simp only [ApiState.perform, reduceCtorEq] at h
    obtain ⟨⟨q, r'⟩, hp, heq⟩ := bind_eq_some_iff.mp h
    split_ifs at heq with hc
    cases heq
    exact .quota hp hc
  | ca =>
    cases o <;> simp only [ApiState.perform, reduceCtorEq, Option.map_eq_some_iff] at h
    obtain ⟨⟨ca, r'⟩, hp, rfl, rfl⟩ := h
    exact .ca hp
  | db =>
    cases o <;> simp only [ApiState.perform, reduceCtorEq, Option.map_eq_some_iff] at h
    obtain ⟨⟨db, r'⟩, hp, rfl, rfl⟩ := h
    exact .db hp
  | activeCount | totalIssued =>
    cases o <;> simp only [ApiState.perform, reduceCtorEq] at h
    obtain ⟨rfl, -⟩ := h
    constructor

lemma perform_redis {c : StoreCmd Key Value} {r : Except String c.Reply}
    (h : s.perform d (.quota (.base (.redis c))) o = some (s', r)) :
    ∃ o' st, ExpiringStore.perform s.quota.shared.now s.store c o' = some (st, r) ∧ s' = s.withStore st := by
  cases performed h with
  | quota perform =>
    obtain ⟨o1, shared, hp, rfl⟩ := perform_base perform
    obtain ⟨o', st, hst, rfl⟩ := perform_redis hp
    exact ⟨o', st, hst, rfl⟩

lemma perform_newUuid {id : String} (h : s.perform d (.quota (.base .newUuid)) o = some (s', id)) :
    id ∉ s.quota.shared.usedIds ∧ id ∈ s'.quota.shared.usedIds ∧ d.parseUuid id = some id := by
  cases performed h with
  | quota perform canonical =>
    obtain ⟨o1, shared, hp, rfl⟩ := perform_base perform
    obtain ⟨hfresh, rfl⟩ := perform_uuid hp
    exact ⟨hfresh, mem_cons_self, of_decide_eq_true canonical⟩

section

variable (h : s.perform d c o = some (s', r))

include h

lemma perform_used : s.quota.shared.usedIds ⊆ s'.quota.shared.usedIds ∧ s.ca.usedSerials ⊆ s'.ca.usedSerials := by
  cases performed h with
  | @quota c r o q perform canonical =>
    refine ⟨?_, List.Subset.refl _⟩
    cases c with
    | base c =>
      obtain ⟨o1, shared, hp, rfl⟩ := perform_base perform
      by_cases hc : c = .newUuid
      · subst hc
        rw [(perform_uuid hp).2]
        exact subset_cons_self _ _
      · rw [(perform_frame hp).2.1 hc]
        exact List.Subset.refl _
    | readUsage =>
      rw [(perform_readUsage perform).1]
      exact List.Subset.refl _
    | cacheUsage =>
      rw [perform_cacheUsage perform]
      exact List.Subset.refl _
    | storeUsage =>
      rw [perform_storeUsage perform]
      exact List.Subset.refl _
    | resetUsage =>
      rw [perform_resetUsage perform]
      exact List.Subset.refl _
  | ca perform => exact ⟨List.Subset.refl _, perform_used perform⟩
  | _ => exact ⟨List.Subset.refl _, List.Subset.refl _⟩

lemma perform_store : s'.store = s.store ∨ ∃ c', c = .quota (.base (.redis c')) := by
  cases performed h with
  | @quota c r o q perform canonical =>
    cases c with
    | base c =>
      by_cases hc : ∃ c', c = .redis c'
      · obtain ⟨c', rfl⟩ := hc
        exact .inr ⟨c', rfl⟩
      · obtain ⟨o1, shared, hp, rfl⟩ := perform_base perform
        exact .inl ((perform_frame hp).2.2.1 fun c' hc' => hc ⟨c', hc'⟩)
    | readUsage => exact .inl (by rw [(perform_readUsage perform).1])
    | cacheUsage => exact .inl (by rw [perform_cacheUsage perform]; rfl)
    | storeUsage => exact .inl (by rw [perform_storeUsage perform]; rfl)
    | resetUsage => exact .inl (by rw [perform_resetUsage perform]; rfl)
  | _ => exact .inl rfl

lemma held_performed {f : Fact} (hf : Held s' f) : Held s f ∨ Written c f := by
  cases hf with
  | @stored k e _ lookup tells =>
    obtain heq | ⟨c', rfl⟩ := perform_store h
    · exact .inl (.stored (heq ▸ lookup) tells)
    · obtain ⟨o', st, hst, rfl⟩ := perform_redis h
      obtain ⟨e0, hold, hv⟩ | hw := perform_value hst lookup
      · exact .inl (.stored hold (hv ▸ tells))
      · exact .inr (.stored hw tells)
  | @archived k e _ lookup certifies =>
    cases performed h with
    | @ca c r o ca perform =>
      cases perform_effect perform with
      | @store c' r o store hp =>
        obtain ⟨e0, hold, hv⟩ | hw := perform_value hp lookup
        · rw [lookup_visible, filter_eq_some_iff] at hold
          exact .inl (.archived hold.1 (hv ▸ certifies))
        · exact .inr (.archived hw certifies)
      | _ => exact .inl (.archived lookup certifies)
    | _ => exact .inl (.archived lookup certifies)
  | @active serial cert lookup =>
    cases performed h with
    | ca perform =>
      obtain heq | ⟨cert', rfl | rfl, heq⟩ | ⟨-, heq⟩ | ⟨-, heq⟩ := perform_active perform serial
      · exact .inl (.active (heq ▸ lookup))
      · obtain rfl := mem_unique heq lookup
        exact .inr .inserted
      · obtain rfl := mem_unique heq lookup
        exact .inr .repopulated
      · cases heq.symm.trans lookup
      · have hold := heq.symm.trans lookup
        rw [filter_eq_some_iff] at hold
        exact .inl (.active hold.1)
    | _ => exact .inl (.active lookup)
  | @assigned a mem =>
    cases performed h with
    | db perform =>
      cases perform_effect perform with
      | kept assignments => exact .inl (.assigned (assignments ▸ mem))
      | @deactivated id assignments =>
        rw [assignments, List.mem_map] at mem
        obtain ⟨a0, ha0, rfl⟩ := mem
        rw [deactivated_id, deactivated_userId]
        exact .inl (.assigned ha0)
      | @inserted a' assignments =>
        rw [assignments, mem_snoc] at mem
        obtain hold | rfl := mem
        · exact .inl (.assigned hold)
        · exact .inr .assigned
    | _ => exact .inl (.assigned mem)

lemma learned_held {f : Fact} (hf : Learned c r f) : Held s f := by
  cases hf with
  | @stored k v _ tells =>
    obtain ⟨o', st, hst, -⟩ := perform_redis h
    obtain ⟨e, he, rfl⟩ := map_eq_some_iff.mp (perform_get hst).2.symm
    exact .stored he tells
  | @archived k v _ certifies =>
    cases performed h with
    | ca perform =>
      cases perform_effect perform with
      | store hp =>
        obtain ⟨e, he, rfl⟩ := map_eq_some_iff.mp (perform_get hp).2.symm
        rw [lookup_visible, filter_eq_some_iff] at he
        exact .archived he.1 certifies
  | active =>
    cases performed h with
    | ca perform => exact .active (perform_lookupActive perform).symm
  | @assigned u l a mem =>
    cases performed h with
    | db perform =>
      obtain ⟨o', hr⟩ := perform_ok perform
      have hactive := mem_filter.mp ((run_activeAssignments hr).mem_iff.mp mem)
      obtain ⟨hu, -⟩ := Bool.and_eq_true_iff.mp hactive.2
      exact of_decide_eq_true hu ▸ .assigned hactive.1

end

end

section

variable {s s' : ApiState} {e : Outside}

lemma drift_store (h : s.drift e = some s') {k : Key} {x : Entry Value} (hx : s'.store.lookup k = some x) :
    s.store.lookup k = some x ∨ kept k = false := by
  cases e with
  | tick =>
    cases h
    exact .inl hx
  | lapse key =>
    obtain ⟨st, hst, rfl⟩ := map_eq_some_iff.mp h
    by_cases hk : k = key
    · subst hk
      cases (lapse_target hst).2.symm.trans hx
    · exact .inl ((lapse_frame hst hk).symm.trans hx)
  | put key entry =>
    cases entry with
    | none =>
      cases h
      by_cases hk : k = key
      · subst hk
        cases (AList.lookup_erase _ _).symm.trans hx
      · exact .inl ((AList.lookup_erase_ne hk).symm.trans hx)
    | some =>
      simp only [drift] at h
      split_ifs at h with hkept
      cases h
      by_cases hk : k = key
      · subst hk
        exact .inr (Bool.not_eq_true _ ▸ hkept)
      · exact .inl ((AList.lookup_insert_ne hk).symm.trans hx)

lemma Tells.kept {k : Key} {v : Value} {f : Fact} (h : Tells k v f) : kept k = true := by
  cases h <;> rfl

lemma drift_parts (h : s.drift e = some s') : s'.quota.usage = s.quota.usage ∧ s'.db = s.db ∧
    s'.quota.shared.usedIds = s.quota.shared.usedIds ∧ s'.ca.usedSerials = s.ca.usedSerials ∧
    s'.ca.store = s.ca.store ∧ s'.ca.activeCerts = s.ca.activeCerts := by
  cases e with
  | tick =>
    cases h
    exact ⟨rfl, rfl, rfl, rfl, rfl, rfl⟩
  | lapse =>
    obtain ⟨st, -, rfl⟩ := map_eq_some_iff.mp h
    exact ⟨rfl, rfl, rfl, rfl, rfl, rfl⟩
  | put key entry =>
    cases entry with
    | none =>
      cases h
      exact ⟨rfl, rfl, rfl, rfl, rfl, rfl⟩
    | some =>
      simp only [drift] at h
      split_ifs at h
      cases h
      exact ⟨rfl, rfl, rfl, rfl, rfl, rfl⟩

lemma ledger_faithful (d : Deployment) : ledger.Faithful (apiServer d) where
  performed h hf := held_performed h hf
  told h hf := learned_held h hf
  accepted h hf := by
    cases h
    exact hf
  drifted h hf := by
    obtain ⟨-, hdb, -, -, hstore, hactive⟩ := drift_parts h
    cases hf with
    | stored lookup tells =>
      obtain hold | hkept := drift_store h lookup
      · exact .stored hold tells
      · rw [tells.kept] at hkept
        cases hkept
    | archived lookup certifies => exact .archived (hstore ▸ lookup) certifies
    | active lookup => exact .active (hactive ▸ lookup)
    | assigned mem => exact .assigned (hdb ▸ mem)
  restarted h hf := by
    cases h
    cases hf with
    | stored lookup tells => exact .stored lookup tells
    | archived lookup certifies => exact .archived lookup certifies
    | active lookup => cases lookup
    | assigned mem => exact .assigned mem

lemma ids_fresh (d : Deployment) : Fresh (apiServer d) drawnId fun s => s.quota.shared.usedIds where
  fresh {s s' c o r b} h hd := by
    unfold drawnId at hd
    split at hd
    · cases hd
      exact ⟨(perform_newUuid h).1, (perform_newUuid h).2.1⟩
    · cases hd
  performed h := (perform_used h).1
  accepted h := by cases h; exact List.Subset.refl _
  drifted h := by rw [(drift_parts h).2.2.1]; exact List.Subset.refl _
  restarted h := by cases h; exact List.Subset.refl _

lemma serials_fresh (d : Deployment) : Fresh (apiServer d) drawnSerial fun s => s.ca.usedSerials where
  fresh {s s' c o r b} h hd := by
    unfold drawnSerial at hd
    split at hd
    · cases hd
      cases performed h with
      | ca perform => exact EdfCa.CaState.perform_newUuid perform
    · cases hd
  performed h := (perform_used h).2
  accepted h := by cases h; exact List.Subset.refl _
  drifted h := by rw [(drift_parts h).2.2.2.1]; exact List.Subset.refl _
  restarted h := by cases h; exact List.Subset.refl _

end

end FleetingDns.ApiServer
