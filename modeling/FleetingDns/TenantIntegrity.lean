import FleetingDns.TenantReplies
namespace FleetingDns.ApiServer

open CommandPrograms ExpiringStore ThreadPool ServerPool GuardedRuns Provenance RelatedRuns Option Plans.PlanDb
  ApiState Quota List EdfCa.Schedule
open EdfCa (certKey)

def DrawnFor (draw : (c : ApiCmd) → c.Reply → Option String) (w : ApiPool) (b u : String) : Prop :=
  ∃ (tid : ℕ) (th : ApiThread), w.threads[tid]? = some th ∧ th.call.user.id = u ∧ Drew draw th.history b

abbrev Mine (w : ApiPool) (u id : String) : Prop := DrawnFor drawnId w id u

def Sound (d : Deployment) (w : ApiPool) : Fact → Prop
  | .record id tunnel => DrawnFor drawnId w id tunnel.githubUserId ∧
      DrawnFor drawnSerial w tunnel.certificateSerial tunnel.githubUserId
  | .listed owner id => DrawnFor drawnId w id owner ∧ d.parseUuid id = some id
  | .certificate serial cert => DrawnFor drawnSerial w serial cert.clientId
  | .assignment id userId => ∃ a ∈ w.shared.db.assignments, a.id = id ∧ a.userId = userId

section

variable {d : Deployment} {G : ApiPool → Action → Prop} {now : ℕ} {db : Plans.PlanDb} {w w' : ApiPool} {a : Action}
  {draw : (c : ApiCmd) → c.Reply → Option String} {b u v : String}

lemma drawnFor_step (h : step (apiServer d) w a = some w') (hd : DrawnFor draw w b u) : DrawnFor draw w' b u := by
  obtain ⟨tid, th, hth, hu, e, he, heq⟩ := hd
  obtain ⟨th', hth', hcall, hpre⟩ := thread_kept h hth
  exact ⟨tid, th', hth', hcall ▸ hu, e, hpre.subset he, heq⟩

lemma drawnFor_unique {used : ApiState → List String} (hf : Fresh (apiServer d) draw used)
    (h : Reach (step (apiServer d)) G (start d now db) w) (hu : DrawnFor draw w b u)
    (hv : DrawnFor draw w b v) : u = v := by
  obtain ⟨tid, th, hth, rfl, hb⟩ := hu
  obtain ⟨tid', th', hth', rfl, hb'⟩ := hv
  obtain rfl := (reach_drawn hf h).2 tid tid' th th' b hth hth' hb hb'
  rw [mem_unique hth hth']

lemma keeps_request (h : Reach (step (apiServer d)) G (start d now db) w) :
    Keeps (May d) (fun _ _ _ => True) w.threads :=
  reach_keeps request_obeys (fun _ _ => trivial) h

variable {o : ApiChoice} {c : ApiCmd} {r : c.Reply} {id : String} {tid : ℕ} {th : ApiThread}
    {x : Plans.UserServicePlan}

lemma canonical_performed {s s' : ApiState} (h : s.perform d c o = some (s', r)) (hd : drawnId c r = some id) :
    d.parseUuid id = some id := by
  unfold drawnId at hd
  split at hd
  · cases hd
    exact (perform_newUuid h).2.2
  · cases hd

lemma canonical_of_named (h : Reach (step (apiServer d)) G (start d now db) w) (hth : w.threads[tid]? = some th)
    (hn : Named th.history id) : d.parseUuid id = some id := by
  obtain ⟨e, he, heq⟩ := hn
  obtain ⟨o, hp⟩ := event_performed h hth he
  exact canonical_performed hp heq

lemma assignment_performed {s s' : ApiState} (h : s.perform d c o = some (s', r)) (hx : x ∈ s.db.assignments) :
    ∃ x' ∈ s'.db.assignments, x'.id = x.id ∧ x'.userId = x.userId := by
  cases performed h with
  | db perform => exact perform_assigned perform hx
  | _ => exact ⟨x, hx, rfl, rfl⟩

lemma assignment_step (h : step (apiServer d) w a = some w') (hx : x ∈ w.shared.db.assignments) :
    ∃ x' ∈ w'.shared.db.assignments, x'.id = x.id ∧ x'.userId = x.userId := by
  cases step_effect h with
  | drift drift => exact ⟨x, (drift_parts drift).2.1 ▸ hx, rfl, rfl⟩
  | arrive accept => exact ⟨x, Option.some.inj accept ▸ hx, rfl, rfl⟩
  | cancel thread inFlight shared => exact ⟨x, shared ▸ hx, rfl, rfl⟩
  | restart restart => exact ⟨x, Option.some.inj restart ▸ hx, rfl, rfl⟩
  | exec thread prog perform => exact assignment_performed perform hx

lemma sound_step (h : step (apiServer d) w a = some w') {f : Fact} (hf : Sound d w f) : Sound d w' f := by
  cases f with
  | record => exact ⟨drawnFor_step h hf.1, drawnFor_step h hf.2⟩
  | listed => exact ⟨drawnFor_step h hf.1, hf.2⟩
  | certificate => exact drawnFor_step h hf
  | assignment =>
    obtain ⟨x, hx, rfl, rfl⟩ := hf
    exact assignment_step h hx

lemma held_assignment {s : ApiState} {userId : String} (h : Held s (.assignment id userId)) :
    ∃ x ∈ s.db.assignments, x.id = id ∧ x.userId = userId := by
  generalize hf : Fact.assignment id userId = f at h
  cases h with
  | @stored k e f lookup tells =>
    subst hf
    generalize e.value = x at tells
    cases tells
  | @archived k e f lookup certifies =>
    subst hf
    generalize e.value = x at certifies
    cases certifies
  | active => cases hf
  | assigned mem =>
    cases hf
    exact ⟨_, mem, rfl, rfl⟩

lemma sound_stored (h : Reach (step (apiServer d)) G (start d now db) w) {c : StoreCmd Key Value} {k : Key}
    {x : Value} {f : Fact} (hth : w.threads[tid]? = some th) (hm : MayStore d th.call.user.id th.history c)
    (hw : c.written = some (k, x)) (ht : Tells k x f) (hk : ∀ f, Knows th.history f → Sound d w f) : Sound d w f := by
  cases ht with
  | @record id tunnel =>
    cases c with
    | setEx =>
      cases hw
      obtain ⟨_, ⟨rfl⟩, howner, hname, ⟨hnum, -⟩⟩ := hm
      exact ⟨⟨tid, th, hth, howner.symm, hname⟩, ⟨tid, th, hth, howner.symm, hnum⟩⟩
    | set | setNxEx =>
      cases hw
      cases hm _ rfl
    | _ => cases hw
  | @listed owner id l mem =>
    cases c with
    | set =>
      cases hw
      obtain hknown | ⟨rfl, hname⟩ := hm l rfl id mem
      · exact hk _ hknown
      · exact ⟨⟨tid, th, hth, rfl, hname⟩, canonical_of_named h hth hname⟩
    | setEx | setNxEx =>
      cases hw
      cases hm _ rfl
    | _ => cases hw

lemma certified_by {request : Request} {h : List Ev} {c : StoreCmd String EdfCa.Record} {serial : String}
    {cert : EdfCa.ActiveCertificate} (hm : MayCertify request h (.store c))
    (hw : c.written = some (certKey serial, .certificate cert)) :
    cert.clientId = request.user.id ∧ Numbered h serial := by
  have hstored : ∀ k x, c.written = some (k, x) → ∃ serial cert, k = certKey serial ∧ x = .certificate cert ∧
      cert.clientId = request.user.id ∧ Numbered h serial := by
    cases c with
    | get => cases hw
    | _ => exact hm
  obtain ⟨serial', cert', hkey, ⟨rfl⟩, hclient, hnum⟩ := hstored _ _ hw
  exact ⟨hclient, EdfCa.certKey_inj.mp hkey ▸ hnum⟩

lemma reach_grounded (h : Reach (step (apiServer d)) G (start d now db) w) : ledger.Grounded (Sound d) w := by
  induction h with
  | refl =>
    refine ⟨?_, by rintro tid th f ⟨⟩⟩
    intro f hf
    cases hf with
    | stored lookup | archived lookup | active lookup => cases lookup
    | assigned mem => exact ⟨_, mem, rfl, rfl⟩
  | @tail w w' a hr hg hstep ih =>
    refine Ledger.grounded_step (ledger_faithful d) (fun f hf => sound_step hstep hf) ?_ ih hstep
    intro tid o th c r f ha hi hp hw hk hheld
    have hmay := (keeps_request hr).may hi
    cases hw with
    | stored written tells => exact sound_step hstep (sound_stored hr hi.1 hmay written tells hk)
    | archived written certifies =>
      cases certifies
      obtain ⟨hclient, hnum⟩ := certified_by hmay written
      exact drawnFor_step hstep ⟨tid, th, hi.1, hclient.symm, hnum⟩
    | inserted => exact drawnFor_step hstep ⟨tid, th, hi.1, hmay.1.symm, hmay.2⟩
    | repopulated => exact sound_step hstep (hk _ hmay)
    | assigned => exact held_assignment hheld

end

/-! ### What belongs to a user -/

def belongs (v : String) : Key → Value → Bool
  | .tunnel _, .tunnel tunnel => tunnel.githubUserId = v
  | .sessionGrant _ _, .grant grant => grant.githubUserId = v
  | _, _ => false

@[ext] structure Holdings where
  /-- Tunnel records and session grants, each with its deadline. -/
  entries : Key → Option (Entry Value)
  usage : Option Quota.UserUsage
  assignments : List Plans.UserServicePlan

def holdings (v : String) (s : ApiState) : Holdings where
  entries k := (s.store.lookup k).filter fun e => belongs v k e.value
  usage := s.quota.usage.lookup v
  assignments := s.db.assignments.filter (·.userId = v)

def ownRoute (u : String) : Route → Bool
  | .resetUserUsage v | .assignServicePlanToUser v _ => v = u
  | _ => true

/-- The registry has nobody else's certificate under the serial that the request names. -/
def ownCertificate (u : String) (s : ApiState) : Route → Bool
  | .getCertificate serial => (s.ca.activeCerts.lookup serial).all (·.clientId = u) &&
    ((s.ca.store.lookup (certKey serial)).bind (·.value.asCertificate)).all (·.clientId = u)
  | _ => true

def freshToken (u : String) (s : ApiState) : ApiCmd → Bool
  | .quota (.base (.redis (.setEx (.sessionGrant name token) _ _))) =>
    (s.store.lookup (.sessionGrant name token)).all fun e => match e.value with
      | .grant grant => grant.githubUserId = u
      | _ => true
  | _ => true

/-- The checks that the routes documented as for administrators, and the certificate route, leave out. -/
def respects (u : String) (w : ApiPool) : Action → Bool
  | .arrive request => request.user.id ≠ u || ownRoute u request.route
  | .exec tid _ => w.threads[tid]?.all fun th => th.call.user.id ≠ u ||
    (ownCertificate u w.shared th.call.route && th.prog.next.all (freshToken u w.shared))
  | _ => true

def madeFor (u : String) (w : ApiPool) : Action → Bool
  | .arrive request => request.user.id = u
  | .exec tid _ | .cancel tid => w.threads[tid]?.any (·.call.user.id = u)
  | .drift (.tick _) => true
  | _ => false

section

variable {d : Deployment} {now : ℕ} {db : Plans.PlanDb} {w w' : ApiPool} {u v : String}
    {k : Key} {x : Value} {e : Entry Value} {c : StoreCmd Key Value}

lemma belongs_kept (h : belongs v k x = true) : kept k = true := by
  unfold belongs at h
  split at h <;> first | rfl | cases h

lemma foreign_record (h : Reach (step (apiServer d)) Free (start d now db) w) {id : String} (hv : v ≠ u)
    (hid : DrawnFor drawnId w id u) (he : w.shared.store.lookup (.tunnel id) = some e) :
    belongs v (.tunnel id) e.value = false := by
  by_contra hb
  cases hx : e.value with
  | tunnel tunnel =>
    rw [hx, Bool.not_eq_false] at hb
    have howner : tunnel.githubUserId = v := of_decide_eq_true hb
    have hheld : Held w.shared (.record id tunnel) := .stored he (hx ▸ .record)
    -- the owner of the record has drawn its id, and no id is drawn for two users
    have hdrawn := ((reach_grounded h).1 _ hheld).1
    exact hv (howner ▸ drawnFor_unique (ids_fresh d) h hdrawn hid)
  | _ =>
    rw [hx] at hb
    exact hb rfl

inductive Rewrites (u : String) (h : List Ev) : StoreCmd Key Value → Prop
  | record {id : String} {tunnel : Tunnel} {ttl : ℕ} (owner : tunnel.githubUserId = u) (named : Named h id) :
      Rewrites u h (.setEx (.tunnel id) (.tunnel tunnel) ttl)
  | list {owner : String} {x : Value} : Rewrites u h (.set (.tunnelLookup owner) x)
  | deletion {id : String} {tunnel : Tunnel} (known : Knows h (.record id tunnel)) (owner : tunnel.githubUserId = u) :
      Rewrites u h (.del (.tunnel id))
  | grant {name token : String} {t ttl : ℕ} : Rewrites u h (.setEx (.sessionGrant name token) (.grant ⟨u, t⟩) ttl)

lemma rewrites_kept {h : List Ev} (hm : MayStore d u h c) (ht : c.target = some k) (hk : kept k = true) :
    Rewrites u h c := by
  unfold MayStore at hm
  split at hm
  · obtain ⟨tunnel, rfl, howner, hname, -⟩ := hm
    exact .record howner hname
  · exact .list
  · obtain ⟨tunnel, hknown, howner⟩ := hm
    exact .deletion hknown howner
  · obtain ⟨t, rfl⟩ := hm
    exact .grant
  · rw [hm k ht] at hk
    cases hk

lemma filter_eq_none {α : Type} {p : α → Bool} {o : Option α} (h : ∀ a, o = some a → p a = false) :
    o.filter p = none := by
  cases o with
  | none => rfl
  | some a => rw [filter_some, h a rfl]; rfl

lemma foreign_grant {s : ApiState} {name token : String} {ttl : ℕ} (hv : v ≠ u)
    (hfresh : freshToken u s (.quota (.base (.redis (.setEx (.sessionGrant name token) x ttl)))) = true)
    (he : s.store.lookup (.sessionGrant name token) = some e) :
    belongs v (.sessionGrant name token) e.value = false := by
  simp only [freshToken, he, all_some] at hfresh
  cases hx : e.value with
  | grant =>
    rw [hx] at hfresh
    exact decide_eq_false fun hvo => hv (hvo.symm.trans (of_decide_eq_true hfresh))
  | _ => rfl

lemma spared (h : Reach (step (apiServer d)) Free (start d now db) w) {tid : ℕ} {th : ApiThread}
    (hi : Issues w tid th (.quota (.base (.redis c)))) (hu : th.call.user.id = u) (hv : v ≠ u)
    (hfresh : freshToken u w.shared (.quota (.base (.redis c))) = true) (ht : c.target = some k) :
    (∀ e, w.shared.store.lookup k = some e → belongs v k e.value = false) ∧
      ∀ t e, c.entry t (w.shared.store.lookup k) = some e → belongs v k e.value = false := by
  -- only a key that requests own can hold anything that belongs to a user
  cases hkept : kept k with
  | false =>
    have hnone : ∀ x, belongs v k x = false := by
      intro x
      by_contra hb
      rw [Bool.not_eq_false] at hb
      rw [belongs_kept hb] at hkept
      cases hkept
    exact ⟨fun e _ => hnone _, fun t e _ => hnone _⟩
  | true =>
    have hmay : MayStore d u th.history c := hu ▸ (keeps_request h).may hi
    cases rewrites_kept hmay ht hkept with
    | record howner hname =>
      cases ht
      refine ⟨fun e he => foreign_record h hv ⟨tid, th, hi.1, hu, hname⟩ he, ?_⟩
      rintro t e ⟨rfl⟩
      exact decide_eq_false fun hvo => hv (hvo.symm.trans howner)
    | list =>
      cases ht
      exact ⟨fun e _ => rfl, fun t e _ => rfl⟩
    | @deletion id tunnel hknown howner =>
      cases ht
      have hdrawn : DrawnFor drawnId w id u := howner ▸ ((reach_grounded h).2 tid th _ hi.1 hknown).1
      refine ⟨fun e he => foreign_record h hv hdrawn he, ?_⟩
      rintro t e ⟨⟩
    | grant =>
      cases ht
      refine ⟨fun e he => foreign_grant hv hfresh he, ?_⟩
      rintro t e ⟨rfl⟩
      exact decide_eq_false hv.symm

section

variable {tid : ℕ} {th : ApiThread} {c : ApiCmd} {o : ApiChoice} {s' : ApiState} {r : c.Reply}

lemma entries_performed (h : Reach (step (apiServer d)) Free (start d now db) w) (hi : Issues w tid th c)
    (hu : th.call.user.id = u) (hv : v ≠ u) (hfresh : freshToken u w.shared c = true)
    (hp : w.shared.perform d c o = some (s', r)) : (holdings v s').entries = (holdings v w.shared).entries := by
  funext k
  obtain heq | ⟨c, rfl⟩ := perform_store hp
  · simp only [holdings, heq]
  obtain ⟨o', st, hst, rfl⟩ := perform_redis hp
  change (st.lookup k).filter _ = (w.shared.store.lookup k).filter _
  by_cases ht : c.target = some k
  · obtain heq | heq := perform_target hst ht
    · rw [heq]
    · obtain ⟨hold, hnew⟩ := spared h hi hu hv hfresh ht
      rw [heq, filter_eq_none hold, filter_eq_none (hnew _)]
  · rw [perform_frame hst ht]

lemma usage_performed {s : ApiState} (hm : May d th.call th.history c) (hu : th.call.user.id = u)
    (hroute : ownRoute u th.call.route = true) (hv : v ≠ u) (hp : s.perform d c o = some (s', r)) :
    s'.quota.usage.lookup v = s.quota.usage.lookup v := by
  cases performed hp with
  | @quota c r o q perform canonical =>
    cases c with
    | base =>
      obtain ⟨o1, shared, -, rfl⟩ := perform_base perform
      rfl
    | readUsage => rw [(perform_readUsage perform).1]
    | cacheUsage =>
      rw [perform_cacheUsage perform]
      exact AList.lookup_insert_ne ((hm.trans hu).symm ▸ hv)
    | storeUsage =>
      rw [perform_storeUsage perform]
      exact AList.lookup_insert_ne ((hm.trans hu).symm ▸ hv)
    | resetUsage x =>
      have hroute' : th.call.route = .resetUserUsage x := hm
      rw [hroute'] at hroute
      obtain rfl : x = u := of_decide_eq_true hroute
      rw [perform_resetUsage perform]
      dsimp only [Quota.QuotaState.resetUsage]
      split
      · exact AList.lookup_insert_ne hv
      · rfl
  | _ => rfl

lemma filter_deactivated {db : Plans.PlanDb} {id : String} (hx : ∃ a ∈ db.assignments, a.id = id ∧ a.userId = u)
    (hv : v ≠ u) :
    (db.assignments.map (Plans.PlanDb.deactivated id)).filter (·.userId = v) = db.assignments.filter (·.userId = v) := by
  obtain ⟨a0, ha0, rfl, rfl⟩ := hx
  have hsame : ((fun a : Plans.UserServicePlan => decide (a.userId = v)) ∘ deactivated a0.id) =
      fun a => decide (a.userId = v) := by
    funext a
    rw [Function.comp_apply, deactivated_userId]
  rw [List.filter_map, hsame]
  conv_rhs => rw [← map_id (db.assignments.filter _)]
  refine map_congr_left ?_
  intro a ha
  obtain ⟨hmem, hown⟩ := mem_filter.mp ha
  unfold deactivated
  split_ifs with hid
  · obtain rfl := inj_on_of_nodup_map (keyed _) hmem ha0 hid
    exact absurd (of_decide_eq_true hown).symm hv
  · rfl

lemma assignments_performed (h : Reach (step (apiServer d)) Free (start d now db) w) (hi : Issues w tid th c)
    (hroute : ownRoute u th.call.route = true) (hv : v ≠ u) (hp : w.shared.perform d c o = some (s', r)) :
    (holdings v s').assignments = (holdings v w.shared).assignments := by
  have hm := (keeps_request h).may hi
  cases performed hp with
  | @db c r o db' perform =>
    change db'.assignments.filter _ = w.shared.db.assignments.filter _
    cases perform_effect perform with
    | kept assignments => rw [assignments]
    | @deactivated id assignments =>
      obtain ⟨x, req, heq, hknown⟩ := hm
      rw [heq] at hroute
      obtain rfl : x = u := of_decide_eq_true hroute
      rw [assignments]
      exact filter_deactivated ((reach_grounded h).2 tid th _ hi.1 hknown) hv
    | @inserted a assignments =>
      obtain ⟨req, heq⟩ := hm
      rw [heq] at hroute
      have ha : a.userId ≠ v := (of_decide_eq_true hroute : a.userId = u).symm ▸ hv.symm
      rw [assignments, filter_append, filter_singleton, decide_eq_false ha]
      exact append_nil _
  | _ => rfl

end

section

variable {tid : ℕ} {th : ApiThread} {a : Action}

lemma own_route (h : Reach (step (apiServer d)) (respects u · ·) (start d now db) w) (hth : w.threads[tid]? = some th)
    (hu : th.call.user.id = u) : ownRoute u th.call.route = true := by
  refine reach_calls (P := fun request => request.user.id = u → ownRoute u request.route = true) ?_ h hth hu
  intro w request hg hid
  simpa [respects, hid] using hg

lemma respects_exec {o : ApiChoice} (hg : respects u w (.exec tid o) = true) (hth : w.threads[tid]? = some th)
    (hu : th.call.user.id = u) : ownCertificate u w.shared th.call.route = true ∧
      ∀ c, th.prog.next = some c → freshToken u w.shared c = true := by
  simpa [respects, hth, hu, Option.all_eq_true] using hg

lemma holdings_step (h : Reach (step (apiServer d)) (respects u · ·) (start d now db) w) (hg : respects u w a = true)
    (hm : madeFor u w a = true) (hv : v ≠ u) (hs : step (apiServer d) w a = some w') :
    holdings v w'.shared = holdings v w.shared := by
  cases step_effect hs with
  | @drift e drift threads =>
    cases e with
    | tick => rw [← Option.some.inj drift]; rfl
    | lapse | put => cases hm
  | arrive accept => rw [← Option.some.inj accept]
  | cancel thread inFlight shared => rw [shared]
  | restart => cases hm
  | @exec tid o th c k r thread prog perform threads =>
    have hi : Issues w tid th c := ⟨thread, k, prog⟩
    have hu : th.call.user.id = u := by simpa [madeFor, thread] using hm
    have hroute := own_route h thread hu
    have hfresh := (respects_exec hg thread hu).2 c hi.next
    ext1
    · exact entries_performed h.free hi hu hv hfresh perform
    · exact usage_performed ((keeps_request h).may hi) hu hroute hv perform
    · exact assignments_performed h.free hi hroute hv perform

variable {serial : String} {cert : EdfCa.ActiveCertificate} {h1 : List Ev}

lemma held_certificate {s : ApiState} (h : Held s (.certificate serial cert))
    (ho : ownCertificate u s (.getCertificate serial) = true) : cert.clientId = u := by
  obtain ⟨hactive, harchived⟩ := Bool.and_eq_true_iff.mp ho
  cases h with
  | @stored k e f lookup tells =>
    generalize e.value = x at tells
    cases tells
  | @archived k e f lookup certifies =>
    generalize hx : e.value = x at certifies
    cases certifies
    rw [lookup] at harchived
    simpa [hx, EdfCa.Record.asCertificate] using harchived
  | active lookup =>
    rw [lookup] at hactive
    simpa using hactive

section

variable (h : Reach (step (apiServer d)) (respects u · ·) (start d now db) w) (hth : w.threads[tid]? = some th)
  (hu : th.call.user.id = u)

include h hth hu

lemma own_certificate (hroute : th.call.route = .getCertificate serial)
    (hk : Knows th.history (.certificate serial cert)) : cert.clientId = u := by
  induction h generalizing th with
  | refl => cases hth
  | tail _ hg hstep ih =>
    obtain ⟨e, he, hl⟩ := hk
    obtain ⟨th0, hold, hcall, he⟩ | ⟨o, th0, rfl, hi, hcall, -, -, hp⟩ := event_step hstep hth he
    · exact ih hold (hcall ▸ hu) (hcall ▸ hroute) ⟨e, he, hl⟩
    · have hown := (respects_exec hg hi.1 (hcall ▸ hu)).1
      rw [hcall, hroute] at hown
      exact held_certificate (learned_held hp hl) hown

lemma inquired_own (hsub : h1 ⊆ th.history) (hq : Inquires th.call h1 serial)
    (hk : Knows th.history (.certificate serial cert)) : cert.clientId = u := by
  -- the certificate route is guarded; every other lookup is for the serial of a tunnel the user owns
  obtain hroute | ⟨id, tunnel, hknown, howner, rfl⟩ := hq
  · exact own_certificate h hth hu hroute hk
  · have hgrounded := (reach_grounded h).2 tid th
    have hserial := (hgrounded _ hth (hknown.mono hsub)).2
    rw [howner, hu] at hserial
    exact drawnFor_unique (serials_fresh d) h (hgrounded _ hth hk) hserial

lemma proper_reply (hsub : h1 ⊆ th.history) {c : ApiCmd} {r : c.Reply} (hmay : May d th.call h1 c)
    (hdrew : ∀ id, drawnId c r = some id → Named th.history id) (hknows : ∀ f, Learned c r f → Knows th.history f) :
    Proper d u (Mine w u) c r := by
  have hgrounded := fun f hf => (reach_grounded h).2 tid th f hth (hknows f hf)
  unfold Proper
  split
  · exact ⟨tid, th, hth, hu, hdrew _ rfl⟩
  · rintro tunnel rfl
    have hdrawn := (hgrounded _ (.stored .record)).1
    constructor
    · intro howner
      exact howner ▸ hdrawn
    · intro hmine
      exact drawnFor_unique (ids_fresh d) h hdrawn hmine
  · rintro l rfl rfl id hid
    exact hgrounded _ (.stored (.listed hid))
  · rintro cert rfl
    exact inquired_own h hth hu hsub hmay (hknows _ .active)
  · rintro cert rfl
    obtain ⟨serial, rfl, hq⟩ := hmay
    exact inquired_own h hth hu hsub hq (hknows _ (.archived .certificate))
  · trivial

lemma proper_event {e : Ev} (he : e ∈ th.history) : Proper d u (Mine w u) e.cmd e.reply := by
  obtain ⟨h1, h2, hsplit⟩ := append_of_mem he
  have hsub : h1 ⊆ th.history := hsplit ▸ subset_append_left _ _
  have hmay := (keeps_request h tid th hth).1 h1 e h2 hsplit
  exact proper_reply h hth hu hsub hmay (fun id hid => ⟨e, he, hid⟩) fun f hf => ⟨e, he, hf⟩

end

end

theorem tenant_integrity (h : Reach (step (apiServer d)) (respects u · ·) (start d now db) w) :
    (∀ w' v, Reach (step (apiServer d)) (fun w a => respects u w a && madeFor u w a) w w' → v ≠ u →
      holdings v w'.shared = holdings v w.shared) ∧
    ∀ (tid : ℕ) (th : ApiThread) (r : Response), w.threads[tid]? = some th → th.call.user.id = u →
      th.prog = .ret (some r) → Settles (likeness u (Mine w u)) (th.call.program d) th.history (some r) := by
  constructor
  · intro w' v h' hv
    induction h' with
    | refl => rfl
    | tail hr hg hstep ih =>
      obtain ⟨hrespects, hmade⟩ := Bool.and_eq_true_iff.mp hg
      have hreach := h.trans (hr.mono fun _ _ hg => (Bool.and_eq_true_iff.mp hg).1)
      rw [holdings_step hreach hrespects hmade hv hstep, ih]
  · intro tid th r hth hu hp
    obtain hnone | hleads := reach_leads h hth hp
    · -- a dropped request has no response
      cases hnone
    · exact settles_of_couples (couples_request th.call hu) hleads fun e he => proper_event h hth hu he

end

section

open FleetingDns.ApiServer.Schedule
open FleetingDns.Schedule (alice bob)

def answered (w : ApiPool) (tid : ℕ) (u : String) (test : Response → Bool) : Bool :=
  w.threads[tid]?.any fun th => th.call.user.id = u && match th.prog with
    | .ret (some r) => test r
    | _ => false

lemma answered_response {w : ApiPool} {tid : ℕ} {u : String} {test : Response → Bool}
    (h : answered w tid u test = true) : ∃ (th : ApiThread) (r : Response), w.threads[tid]? = some th ∧
      th.call.user.id = u ∧ th.prog = .ret (some r) ∧ test r = true := by
  obtain ⟨th, hth, hp⟩ := any_eq_true _ _ |>.mp h
  obtain ⟨hu, hr⟩ := Bool.and_eq_true_iff.mp hp
  split at hr
  · exact ⟨th, _, hth, of_decide_eq_true hu, ‹_›, hr⟩
  · cases hr

def denied : Response → Bool
  | .error (.forbidden _) => true
  | _ => false

def bobsRequests : List Action :=
  [.arrive ⟨bob, .createTunnel (FleetingDns.Schedule.request 600 "app")⟩]
    ++ each 0 (create 10000 "t1" first)
    ++ [.arrive ⟨bob, .createTunnelSession "t1"⟩] ++ each 1 grant

def alicesRequests : List Action :=
  [.arrive ⟨alice, .getTunnel "t1"⟩] ++ each 2 [stored] ++ [.arrive ⟨alice, .resetUserUsage alice.id⟩]
    ++ each 3 [.quota .plain, plain] ++ [.arrive ⟨alice, .assignServicePlanToUser alice.id ⟨"basic", none⟩⟩]
    ++ each 4 (assign "a2" []) ++ [.arrive ⟨alice, .getStats⟩] ++ each 5 [stored, .plain, .plain]

theorem tenant_integrity_of_alice : ∃ w w', Reach (step (apiServer deployment)) (respects alice.id · ·) begin w ∧
    Reach (step (apiServer deployment)) (fun w a => respects alice.id w a && madeFor alice.id w a) w w' ∧
    (holdings bob.id w.shared).usage.isSome ∧ holdings bob.id w'.shared = holdings bob.id w.shared ∧
    ∃ (th : ApiThread) (r : Response), w'.threads[2]? = some th ∧ th.prog = .ret (some r) ∧ denied r ∧
      Settles (likeness alice.id (Mine w' alice.id)) (th.call.program deployment) th.history (some r) := by
  obtain ⟨w, h, hp⟩ := reach_of_check (step (apiServer deployment)) (respects alice.id · ·) begin bobsRequests
    (fun w => (holdings bob.id w.shared).usage.isSome && (runs (step (apiServer deployment))
      (fun w a => respects alice.id w a && madeFor alice.id w a) w alicesRequests).any (answered · 2 alice.id denied))
    (by decide +kernel)
  obtain ⟨husage, hruns⟩ := Bool.and_eq_true_iff.mp hp
  obtain ⟨w', h', hq⟩ := reach_of_check _ _ _ _ _ hruns
  obtain ⟨th, r, hth, hu, hprog, hdenied⟩ := answered_response hq
  have hreach := h.trans (h'.mono fun _ _ hg => (Bool.and_eq_true_iff.mp hg).1)
  exact ⟨w, w', h, h', husage, (tenant_integrity h).1 w' bob.id h' (by decide), th, r, hth, hprog, hdenied,
    (tenant_integrity hreach).2 2 th r hth hu hprog⟩

def discloses (cert : EdfCa.ActiveCertificate) : Response → Bool
  | .ok (.certificate r) => r = ⟨cert.metadata.serialNumber, cert.metadata.subject, cert.metadata.fingerprint,
    cert.metadata.issuedAt, cert.metadata.expiresAt, "active"⟩
  | _ => false

/-- Alice resets the usage of Bob, replaces the plan of Bob and reads the certificate of Bob. -/
theorem tenant_integrity_broken : ∃ w w', Reach (step (apiServer deployment)) Free begin w ∧
    Reach (step (apiServer deployment)) (madeFor alice.id · ·) w w' ∧
    (holdings bob.id w'.shared).usage ≠ (holdings bob.id w.shared).usage ∧
    (holdings bob.id w'.shared).assignments ≠ (holdings bob.id w.shared).assignments ∧
    ∃ (th : ApiThread) (r : Response) (cert : EdfCa.ActiveCertificate), w'.threads[4]? = some th ∧
      th.call.user.id = alice.id ∧ th.prog = .ret (some r) ∧ cert.clientId = bob.id ∧
      w.shared.ca.activeCerts.lookup (serialOf first) = some cert ∧ discloses cert r := by
  obtain ⟨w, h, hp⟩ := reach_of_check (step (apiServer deployment)) Free begin
    ([.arrive ⟨bob, .checkOperationAllowed "api_call"⟩] ++ each 0 count
      ++ [.arrive ⟨bob, .issueCertificate "laptop" none⟩]
      ++ each 1 (uuid "request" :: issued first))
    (fun w => (holdings bob.id w.shared).usage.map (·.apiCallsCount) = some 1 &&
      (w.shared.ca.activeCerts.lookup (serialOf first)).any fun cert =>
        cert.clientId = bob.id && (runs (step (apiServer deployment)) (fun w a => madeFor alice.id w a) w
          ([.arrive ⟨alice, .resetUserUsage bob.id⟩] ++ each 2 [.quota .plain, plain]
            ++ [.arrive ⟨alice, .assignServicePlanToUser bob.id ⟨"basic", none⟩⟩]
            ++ each 3 (assign "a2" tables.assignments)
            ++ [.arrive ⟨alice, .getCertificate (serialOf first)⟩]
            ++ each 4 [.ca .plain, plain])).any fun w' =>
          (holdings bob.id w'.shared).usage.map (·.apiCallsCount) = some 0 &&
          (holdings bob.id w'.shared).assignments ≠ (holdings bob.id w.shared).assignments &&
          answered w' 4 alice.id (discloses cert)) (by decide +kernel)
  obtain ⟨husage, hcert⟩ := Bool.and_eq_true_iff.mp hp
  obtain ⟨cert, hlookup, hcert⟩ := any_eq_true _ _ |>.mp hcert
  obtain ⟨hclient, hruns⟩ := Bool.and_eq_true_iff.mp hcert
  obtain ⟨w', h', hq⟩ := reach_of_check _ _ _ _ _ hruns
  simp only [Bool.and_eq_true, decide_eq_true_eq] at hq husage hclient
  obtain ⟨⟨husage', hassigned⟩, hanswered⟩ := hq
  obtain ⟨th, r, hth, hu, hprog, hdiscloses⟩ := answered_response hanswered
  refine ⟨w, w', h, h', ?_, hassigned, th, r, cert, hth, hu, hprog, hclient, hlookup, hdiscloses⟩
  intro heq
  rw [heq, husage] at husage'
  cases husage'

end

end FleetingDns.ApiServer
