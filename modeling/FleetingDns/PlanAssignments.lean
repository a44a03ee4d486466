import FleetingDns.TenantIntegrity
namespace FleetingDns.Plans.PlanDb

open Option List

variable {db db' : PlanDb} {c : DbCmd} {o : DbChoice} {id : String}

def Refers (db : PlanDb) : Prop := ∀ a ∈ db.assignments, ∃ plan ∈ db.plans, plan.id = a.servicePlanId

lemma Refers.mono (h : db.Refers) (hplans : ∀ plan ∈ db.plans, ∃ plan' ∈ db'.plans, plan'.id = plan.id)
    (hassigned : ∀ a ∈ db'.assignments, ∃ a0 ∈ db.assignments, a0.servicePlanId = a.servicePlanId) : db'.Refers := by
  intro a ha
  obtain ⟨a0, ha0, heq⟩ := hassigned a ha
  obtain ⟨plan, hplan, hid⟩ := h a0 ha0
  obtain ⟨plan', hplan', hid'⟩ := hplans plan hplan
  exact ⟨plan', hplan', by rw [hid', hid, heq]⟩

lemma run_refers {x : c.Rows} (h : db.Refers) (hr : db.run c o = some (db', x)) : db'.Refers := by
  cases c with
  | findPlan | findPlanByName | findOtherPlanByName | activeAssignment | activeAssignmentTo =>
    cases o <;> simp only [run, reduceCtorEq, map_eq_some_iff] at hr
    obtain ⟨_, _, rfl, _⟩ := hr
    exact h
  | countActive =>
    cases o <;> simp only [run, reduceCtorEq] at hr
    cases hr
    exact h
  | allPlans | activeAssignments =>
    cases o <;> simp only [run, reduceCtorEq] at hr
    split_ifs at hr
    cases hr
    exact h
  | insertPlan =>
    cases o <;> simp only [run, reduceCtorEq] at hr
    split_ifs at hr
    cases hr
    exact h.mono (fun p hp => ⟨p, mem_append_left _ hp, rfl⟩) fun a ha => ⟨a, ha, rfl⟩
  | updatePlan id =>
    cases o <;> simp only [run, reduceCtorEq, bind_eq_some_iff] at hr
    obtain ⟨plan, hfind, hr⟩ := hr
    split_ifs at hr
    cases hr
    refine h.mono (fun p hp => ⟨_, mem_map_of_mem hp, ?_⟩) fun a ha => ⟨a, ha, rfl⟩
    split_ifs with hid
    · have hplan : plan.id = id := by simpa using List.find?_some hfind
      exact hplan.trans hid.symm
    · rfl
  | deletePlan =>
    cases o <;> simp only [run, reduceCtorEq] at hr
    split_ifs at hr with hused
    cases hr
    intro a ha
    obtain ⟨plan, hplan, hid⟩ := h a ha
    refine ⟨plan, mem_filter.mpr ⟨hplan, ?_⟩, hid⟩
    simp only [List.any_eq_true, decide_eq_true_eq, not_exists, not_and] at hused
    rw [decide_eq_true_eq, hid]
    exact hused a ha
  | deactivate id =>
    cases o <;> simp only [run, reduceCtorEq] at hr
    split_ifs at hr
    cases hr
    refine h.mono (fun p hp => ⟨p, hp, rfl⟩) fun a ha => ?_
    obtain ⟨a0, ha0, rfl⟩ := mem_map.mp ha
    exact ⟨a0, ha0, by unfold deactivated; split_ifs <;> rfl⟩
  | insertAssignment =>
    cases o <;> simp only [run, reduceCtorEq] at hr
    split_ifs at hr with hnew
    cases hr
    intro a ha
    obtain hold | rfl := mem_append.mp ha |>.imp_right mem_singleton.mp
    · exact h a hold
    · have hplan := hnew.2
      simp only [List.any_eq_true, decide_eq_true_eq] at hplan
      exact hplan

lemma perform_refers {r : c.Reply} (h : db.Refers) (hr : db.perform c o = some (db', r)) : db'.Refers := by
  obtain rfl | ⟨o', x, hrun⟩ := perform_cases hr
  · exact h
  · exact run_refers h hrun

lemma filter_map_deactivated (id u : String) (l : List UserServicePlan) :
    (l.map (deactivated id)).filter (fun a => a.userId = u && a.isActive) =
      l.filter fun a => a.id ≠ id && (a.userId = u && a.isActive) := by
  induction l with
  | nil => rfl
  | cons a l ih =>
    rw [map_cons, filter_cons, filter_cons, ih]
    by_cases hid : a.id = id <;> simp [deactivated, hid]

lemma active_deactivated (h : db'.assignments = db.assignments.map (deactivated id)) (u : String) :
    db'.active u = (db.active u).filter (·.id ≠ id) := by
  rw [active, active, h, filter_map_deactivated, List.filter_filter]

lemma active_inserted {a : UserServicePlan} (h : db'.assignments = db.assignments ++ [a]) (u : String) :
    db'.active u = db.active u ++ bif a.userId = u && a.isActive then [a] else [] := by
  rw [active, active, h, filter_append, filter_singleton]

lemma run_insertAssignment {a x : UserServicePlan} (h : db.run (.insertAssignment a) o = some (db', x)) :
    db'.assignments = db.assignments ++ [a] := by
  cases o <;> simp only [run, reduceCtorEq] at h
  split_ifs at h
  cases h
  rfl

lemma run_deactivate {x : Unit} (h : db.run (.deactivate id) o = some (db', x)) :
    db'.assignments = db.assignments.map (deactivated id) := by
  cases o <;> simp only [run, reduceCtorEq] at h
  split_ifs at h
  cases h
  rfl

end FleetingDns.Plans.PlanDb

namespace FleetingDns.ApiServer

open CommandPrograms ExpiringStore ThreadPool ServerPool GuardedRuns Plans

/-! ### The statements of an assignment -/

def closing : Ev → Bool
  | ⟨_, .db (.insertAssignment _), _⟩ => true
  | ⟨_, .db _, .error _⟩ => true
  | _ => false

def deactivates : Ev → Bool
  | ⟨_, .db (.deactivate _), _⟩ => true
  | _ => false

abbrev begun (h : List Ev) : Bool := h.any deactivates

def Open (h : List Ev) : Prop := ∀ e ∈ h, closing e = false

def Read (u : String) (h : List Ev) (l : List UserServicePlan) : Prop :=
  ∃ t, (⟨t, .db (.activeAssignments u), .ok l⟩ : Ev) ∈ h

def Deactivated (h : List Ev) (id : String) : Prop := ∃ t, (⟨t, .db (.deactivate id), .ok ()⟩ : Ev) ∈ h

def MayAssign (u : String) (h : List Ev) (c : ApiCmd) : Prop :=
  Open h ∧ match c with
    | .db (.activeAssignments _) => begun h = false
    | .db (.insertAssignment a) => a.isActive = true ∧ ∃ l, Read u h l ∧ ∀ y ∈ l, Deactivated h y.id
    | _ => True

def Closes {α : Type} (h : List Ev) (_ : α) : Prop := begun h = true → ¬ Open h

variable {db : PlanDb} {o : DbChoice} {u : String}

section

variable {h : List Ev} {l : List UserServicePlan} {e : Ev}

lemma open_snoc : Open (h ++ [e]) ↔ Open h ∧ closing e = false := by
  simp only [Open, List.forall_mem_append, List.forall_mem_singleton]

lemma lasting_read (u : String) (l : List UserServicePlan) : Lasting (Read u · l) := by
  rintro h e ⟨t, he⟩
  exact ⟨t, List.mem_append_left _ he⟩

lemma lasting_deactivated (id : String) : Lasting (Deactivated · id) := by
  rintro h e ⟨t, he⟩
  exact ⟨t, List.mem_append_left _ he⟩

lemma not_open (he : closing e = true) : ¬ Open (h ++ [e]) := by
  intro hopen
  rw [(open_snoc.mp hopen).2] at he
  cases he

lemma assigns_query {α : Type} {c : DbCmd} {f : c.Rows → Handler α} {Q : List Ev → Except ApiError α → Prop}
    (hc : MayAssign u h (.db c)) (hQ : ∀ h' e, ¬ Open h' → Q h' (.error e))
    (hf : ∀ t x, Obeys (MayAssign u) Q (f x).run (h ++ [⟨t, .db c, .ok x⟩])) :
    Obeys (MayAssign u) Q (query c >>= f).run h := by
  refine .call hc ?_
  rintro (msg | x) _ ⟨t, rfl⟩
  · exact .ret (hQ _ _ (not_open (by cases c <;> rfl)))
  · exact hf t x

structure Clearing (u : String) (h : List Ev) (l as : List UserServicePlan) : Prop where
  isOpen : Open h
  read : Read u h l
  pending : ∀ y ∈ l, y ∈ as ∨ Deactivated h y.id

variable {as : List UserServicePlan}

lemma Clearing.snoc (hc : Clearing u h l as) (he : closing e = false) :
    Clearing u (h ++ [e]) l as where
  isOpen := open_snoc.mpr ⟨hc.isOpen, he⟩
  read := lasting_read u l h e hc.read
  pending y hy := (hc.pending y hy).imp_right (lasting_deactivated y.id h e)

lemma Clearing.next {a : UserServicePlan} (hc : Clearing u h l (a :: as)) (t : Span ApiState) :
    Clearing u (h ++ [⟨t, .db (.deactivate a.id), .ok ()⟩]) l as where
  isOpen := open_snoc.mpr ⟨hc.isOpen, rfl⟩
  read := lasting_read u l h _ hc.read
  pending y hy := by
    obtain hmem | hdone := hc.pending y hy
    · obtain rfl | hmem := List.mem_cons.mp hmem
      · exact .inr ⟨t, List.mem_concat_self⟩
      · exact .inl hmem
    · exact .inr (lasting_deactivated y.id h _ hdone)

lemma Clearing.done (hc : Clearing u h l []) : ∃ l, Read u h l ∧ ∀ y ∈ l, Deactivated h y.id := by
  refine ⟨l, hc.read, fun y hy => ?_⟩
  obtain ⟨⟨⟩⟩ | hdone := hc.pending y hy
  exact hdone

def Cleared (u : String) (l : List UserServicePlan) (h : List Ev) : Except ApiError Unit → Prop
  | .ok _ => Clearing u h l []
  | .error _ => ¬ Open h

lemma assigns_deactivateAll (hc : Clearing u h l as) :
    Obeys (MayAssign u) (Cleared u l) (deactivateAll as).run h := by
  induction as generalizing h with
  | nil => exact .ret hc
  | cons a as ih => exact assigns_query ⟨hc.isOpen, trivial⟩ (fun _ _ hclosed => hclosed) fun t _ => ih (hc.next t)

lemma closes_of_closed {α : Type} (h : List Ev) (x : α) (hclosed : ¬ Open h) : Closes h x := fun _ => hclosed

lemma assigns_assign (userId : String) (r : AssignServicePlanRequest) :
    Obeys (MayAssign userId) Closes (assignServicePlanToUser userId r).run [] := by
  refine assigns_query ⟨by rintro e ⟨⟩, trivial⟩ (fun h e => closes_of_closed h _) fun t found => ?_
  cases found with
  | none =>
    refine .ret ?_
    rintro ⟨⟩
  | some plan =>
    have hopen : Open [⟨t, .db (.findPlan r.servicePlanId), .ok (some plan)⟩] := by simp [Open, closing]
    refine assigns_query ⟨hopen, rfl⟩ (fun h e => closes_of_closed h _) fun t' existing => ?_
    refine meets_except_seq (assigns_deactivateAll (l := existing) ?_) ?_ fun h e => closes_of_closed h _
    · refine ⟨open_snoc.mpr ⟨hopen, rfl⟩, ?_, fun y hy => .inl hy⟩
      exact ⟨t', List.mem_concat_self⟩
    intro h _ hc
    refine .call ⟨hc.isOpen, trivial⟩ ?_
    rintro id _ ⟨t1, rfl⟩
    have h1 := hc.snoc (e := ⟨t1, .quota (.base .newUuid), id⟩) rfl
    refine .call ⟨h1.isOpen, trivial⟩ ?_
    rintro startDate _ ⟨t2, rfl⟩
    have h2 := h1.snoc (e := ⟨t2, .quota (.base .utcNow), startDate⟩) rfl
    refine .call ⟨h2.isOpen, trivial⟩ ?_
    rintro createdAt _ ⟨t3, rfl⟩
    have h3 := h2.snoc (e := ⟨t3, .quota (.base .utcNow), createdAt⟩) rfl
    refine assigns_query ⟨h3.isOpen, rfl, h3.done⟩ (fun h e => closes_of_closed h _) fun t4 inserted => ?_
    exact .ret (closes_of_closed _ _ (not_open rfl))

def MayPlan (request : Request) (h : List Ev) (c : ApiCmd) : Prop :=
  ∀ u r, request.route = .assignServicePlanToUser u r → MayAssign u h c

def EndsPlan (request : Request) (h : List Ev) (x : Option Response) : Prop :=
  ∀ u r, request.route = .assignServicePlanToUser u r → Closes h x

lemma request_assigns (d : Deployment) (request : Request) :
    Obeys (MayPlan request) (EndsPlan request) (request.program d) [] := by
  obtain ⟨user, route⟩ := request
  cases route with
  | assignServicePlanToUser userId r =>
    have hassign := assigns_assign userId r
    have hmay : ∀ h c, MayAssign userId h c → MayPlan ⟨user, .assignServicePlanToUser userId r⟩ h c := by
      rintro h c hc _ _ ⟨rfl, rfl⟩
      exact hc
    refine meets_seq (M := Closes) (meets_seq (meets_mono hmay (fun _ _ hq => hq) hassign) ?_) ?_
    · intro h x hx
      cases x <;> exact .ret hx
    · intro h x hx
      exact .ret fun _ _ _ => hx
  | _ =>
    refine meets_any ?_ ?_ _ _
    · rintro h c u r ⟨⟩
    · rintro h x u r ⟨⟩

end

/-! ### Runs -/

def assigns (u : String) (request : Request) : Bool := match request.route with
  | .assignServicePlanToUser v _ => v = u
  | _ => false

def assigning (u : String) (th : ApiThread) : Bool := th.prog.next.isSome && assigns u th.call

/-- Assignments for one user do not overlap. -/
def serial (w : ApiPool) : Action → Bool
  | .arrive request => w.threads.all fun th => match request.route with
    | .assignServicePlanToUser u _ => !assigning u th
    | _ => true
  | _ => true

/-- Between the first deactivation of a request and its insertion nothing goes wrong. -/
def uninterrupted (w : ApiPool) : Action → Bool
  | .exec tid (.db (.failed _)) | .cancel tid => w.threads[tid]?.all fun th => !begun th.history
  | .exec tid (.db (.lost _)) => w.threads[tid]?.all fun th => match th.prog.next with
    | some (.db (.deactivate _)) => false
    | some (.db (.insertAssignment _)) => true
    | _ => !begun th.history
  | .restart => w.threads.all fun th => th.prog.next.isNone || !begun th.history
  | _ => true

variable {d : Deployment} {now tid : ℕ} {w w' : ApiPool} {a : Action} {th : ApiThread} {c : ApiCmd}

section

variable {G : ApiPool → Action → Prop} {request : Request} {o : ApiChoice}

lemma assigns_route (h : assigns u request = true) : ∃ r, request.route = .assignServicePlanToUser u r := by
  unfold assigns at h
  split at h
  · rename_i v r hroute
    obtain rfl : v = u := of_decide_eq_true h
    exact ⟨r, hroute⟩
  · cases h

lemma route_assigns {r : AssignServicePlanRequest} (h : request.route = .assignServicePlanToUser u r) :
    assigns u request = true := by
  rw [assigns, h]
  exact decide_eq_true rfl

lemma disciplined_assign (h : Reach (step (apiServer d)) G (start d now db) w) :
    Disciplined MayPlan EndsPlan w.threads :=
  reach_disciplined (request_assigns d) h

lemma may_assign (h : Reach (step (apiServer d)) G (start d now db) w) (hi : Issues w tid th c)
    (hu : assigns u th.call = true) : MayAssign u th.history c := by
  obtain ⟨r, hroute⟩ := assigns_route hu
  obtain ⟨hth, k, hp⟩ := hi
  exact (disciplined_assign h).may hth hp u r hroute

lemma perform_db_kept {s s' : ApiState} {r : c.Reply} (h : s.perform d c o = some (s', r)) (hc : ∀ c', c ≠ .db c') :
    s'.db = s.db := by
  cases performed h with
  | db => exact absurd rfl (hc _)
  | _ => rfl

lemma perform_db {s s' : ApiState} {c : DbCmd} {r : c.Reply} (h : s.perform d (.db c) o = some (s', r)) :
    ∃ o', o = .db o' ∧ s.db.perform c o' = some (s'.db, r) := by
  cases o <;> simp only [ApiState.perform, reduceCtorEq, Option.map_eq_some_iff] at h
  obtain ⟨⟨db', r'⟩, hp, rfl, rfl⟩ := h
  exact ⟨_, rfl, hp⟩

lemma db_step (h : step (apiServer d) w a = some w') :
    w'.shared.db = w.shared.db ∨ ∃ tid o th c k r, a = .exec tid (.db o) ∧ w.threads[tid]? = some th ∧
      th.prog = .call (.db c) k ∧ w.shared.db.perform c o = some (w'.shared.db, r) ∧
      w'.threads[tid]? = some (th.advance ⟨w.shared, w'.shared⟩ (.db c) k r) := by
  cases step_effect h with
  | drift drift => exact .inl (drift_parts drift).2.1
  | arrive accept => exact .inl (Option.some.inj accept ▸ rfl)
  | cancel thread inFlight shared => exact .inl (shared ▸ rfl)
  | restart restart => exact .inl (Option.some.inj restart ▸ rfl)
  | @exec tid o th c k r thread prog perform threads =>
    cases c with
    | db c =>
      obtain ⟨o', rfl, hp⟩ := perform_db perform
      refine .inr ⟨tid, o', th, c, k, r, rfl, thread, prog, hp, ?_⟩
      rw [threads, List.getElem?_set_self (List.getElem?_eq_some_iff.mp thread).1]
    | _ => exact .inl (perform_db_kept perform (by rintro _ ⟨⟩))

lemma refers_step (h : step (apiServer d) w a = some w') (hr : w.shared.db.Refers) : w'.shared.db.Refers := by
  obtain heq | ⟨tid, o, th, c, k, r, -, -, -, hp, -⟩ := db_step h
  · exact heq ▸ hr
  · exact PlanDb.perform_refers hr hp

lemma reach_refers (h : Reach (step (apiServer d)) G (start d now db) w) (hdb : db.Refers) : w.shared.db.Refers := by
  induction h with
  | refl => exact hdb
  | tail _ _ hstep ih => exact refers_step hstep ih

lemma active_step (h : step (apiServer d) w a = some w') :
    (∀ u, (w'.shared.db.active u).Sublist (w.shared.db.active u)) ∨
    ∃ tid o th x, a = .exec tid o ∧ Issues w tid th (.db (.insertAssignment x)) ∧
      w'.shared.db.assignments = w.shared.db.assignments ++ [x] := by
  obtain heq | ⟨tid, o, th, c, k, r, rfl, hth, hp, hperf, -⟩ := db_step h
  · exact .inl fun u => heq ▸ List.Sublist.refl _
  cases PlanDb.perform_effect hperf with
  | kept assignments =>
    left
    intro u
    rw [PlanDb.active, assignments]
    exact List.Sublist.refl _
  | deactivated assignments =>
    left
    intro u
    rw [PlanDb.active_deactivated assignments]
    exact List.filter_sublist
  | @inserted x assignments => exact .inr ⟨tid, _, th, x, rfl, ⟨hth, k, hp⟩, assignments⟩

lemma assigning_step (h : step (apiServer d) w a = some w') {th' : ApiThread} (hth : w'.threads[tid]? = some th')
    (hu : assigning u th' = true) :
    (∃ th, w.threads[tid]? = some th ∧ assigning u th = true) ∨
      ∃ request, a = .arrive request ∧ tid = w.threads.length ∧ assigns u request = true := by
  obtain ⟨hflight, hcall⟩ := Bool.and_eq_true_iff.mp hu
  obtain ⟨hold, -⟩ | ⟨call, ha, htid, rfl⟩ | ⟨o, th, c, k, r, -, hold, hp, -, rfl⟩ | ⟨th, -, -, rfl⟩ := thread_step h hth
  · exact .inl ⟨th', hold, hu⟩
  · exact .inr ⟨call, ha, htid, hcall⟩
  · exact .inl ⟨th, hold, Bool.and_eq_true_iff.mpr ⟨Thread.inFlight_of_call hp, hcall⟩⟩
  · exact absurd hflight (th.stop_not_inFlight _)

end

section

structure OneActive (w : ApiPool) : Prop where
  single : ∀ u, (w.shared.db.active u).length ≤ 1
  alone : ∀ (u : String) (tid tid' : ℕ) (th th' : ApiThread), w.threads[tid]? = some th → w.threads[tid']? = some th' →
    assigning u th = true → assigning u th' = true → tid = tid'
  pending : ∀ (u : String) (tid : ℕ) (th : ApiThread) (l : List UserServicePlan), w.threads[tid]? = some th →
    assigning u th = true → Read u th.history l → ∀ x ∈ w.shared.db.active u,
      (∃ y ∈ l, y.id = x.id) ∧ ¬ Deactivated th.history x.id

variable {th' : ApiThread} {x : UserServicePlan}

lemma issues_assigning (h : Reach (step (apiServer d)) Free (start d now db) w)
    (hi : Issues w tid th (.db (.insertAssignment x))) : assigning x.userId th = true := by
  obtain ⟨r, hroute⟩ := (keeps_request h).may hi
  obtain ⟨-, k, hp⟩ := hi
  exact Bool.and_eq_true_iff.mpr ⟨Thread.inFlight_of_call hp, route_assigns hroute⟩

lemma OneActive.cleared (hone : OneActive w) (h : Reach (step (apiServer d)) Free (start d now db) w)
    (hi : Issues w tid th (.db (.insertAssignment x))) : w.shared.db.active x.userId = [] := by
  have hu := issues_assigning h hi
  obtain ⟨-, -, l, hread, hdone⟩ := may_assign h hi (Bool.and_eq_true_iff.mp hu).2
  rw [List.eq_nil_iff_forall_not_mem]
  intro y hy
  obtain ⟨⟨z, hz, hid⟩, hnot⟩ := hone.pending _ tid th l hi.1 hu hread y hy
  exact hnot (hid ▸ hdone z hz)

lemma active_append {db db' : PlanDb} (hu : x.userId ≠ u) (h : db'.assignments = db.assignments ++ [x]) :
    db'.active u = db.active u := by
  rw [PlanDb.active_inserted h, decide_eq_false hu]
  exact List.append_nil _

lemma single_step (h : Reach (step (apiServer d)) Free (start d now db) w) (hs : step (apiServer d) w a = some w')
    (hone : OneActive w) (u : String) : (w'.shared.db.active u).length ≤ 1 := by
  obtain hsub | ⟨tid, o, th, x, -, hi, hins⟩ := active_step hs
  · exact (hsub u).length_le.trans (hone.single u)
  by_cases hu : x.userId = u
  · subst hu
    rw [PlanDb.active_inserted hins, hone.cleared h hi]
    cases x.isActive <;> simp
  · rw [active_append hu hins]
    exact hone.single u

lemma alone_step (hg : serial w a = true) (hs : step (apiServer d) w a = some w') (hone : OneActive w) {tid' : ℕ}
    (hth : w'.threads[tid]? = some th) (hth' : w'.threads[tid']? = some th') (hu : assigning u th = true)
    (hu' : assigning u th' = true) : tid = tid' := by
  have hfresh {request : Request} {i : ℕ} {t : ApiThread} (ha : a = .arrive request) (hr : assigns u request = true)
      (ht : w.threads[i]? = some t) : assigning u t = false := by
    obtain ⟨r, hroute⟩ := assigns_route hr
    subst ha
    simp only [serial, List.all_eq_true, hroute] at hg
    simpa using hg t (List.mem_of_getElem? ht)
  obtain ⟨t, hold, ht⟩ | ⟨request, ha, htid, hr⟩ := assigning_step hs hth hu
  · obtain ⟨t', hold', ht'⟩ | ⟨request, ha, -, hr⟩ := assigning_step hs hth' hu'
    · exact hone.alone u tid tid' t t' hold hold' ht ht'
    · cases ht.symm.trans (hfresh ha hr hold)
  · obtain ⟨t', hold', ht'⟩ | ⟨-, -, htid', -⟩ := assigning_step hs hth' hu'
    · cases ht'.symm.trans (hfresh ha hr hold')
    · exact htid.trans htid'.symm

lemma open_of_assigning (h : Reach (step (apiServer d)) Free (start d now db) w) (hth : w.threads[tid]? = some th)
    (hu : assigning u th = true) : Open th.history := by
  obtain ⟨hflight, hcall⟩ := Bool.and_eq_true_iff.mp hu
  obtain ⟨c, hc⟩ := Option.isSome_iff_exists.mp hflight
  exact (may_assign h (issues_of_next hth hc) hcall).1

lemma perform_db_ok {s s' : ApiState} {o : ApiChoice} {c : DbCmd} {x : c.Rows}
    (h : s.perform d (.db c) o = some (s', .ok x)) : ∃ o', s.db.run c o' = some (s'.db, x) := by
  obtain ⟨o', rfl, hp⟩ := perform_db h
  exact PlanDb.perform_ok hp

section

variable (h : Reach (step (apiServer d)) Free (start d now db) w) (hs : step (apiServer d) w a = some w')
  (hone : OneActive w) (hth : w'.threads[tid]? = some th') (hu : assigning u th' = true)

include h hs hone hth hu

lemma active_shrinks : w'.shared.db.active u ⊆ w.shared.db.active u := by
  obtain hsub | ⟨tid', o, th, x, rfl, hi, hins⟩ := active_step hs
  · exact (hsub u).subset
  by_cases hxu : x.userId = u
  · subst hxu
    have hopen := open_of_assigning (h.tail trivial hs) hth hu
    obtain ⟨hold, hne⟩ | ⟨_, ⟨⟩, -⟩ | ⟨o', th1, c, k, r, ⟨rfl, rfl⟩, hold, hp, -, rfl⟩ | ⟨th1, -, -, rfl⟩ :=
      thread_step hs hth
    · -- the insertion is by another request for the user, which would overlap
      obtain rfl := hone.alone _ tid tid' th' th hold hi.1 hu (issues_assigning h hi)
      exact absurd rfl (hne o)
    · obtain ⟨hth', k', hp'⟩ := hi
      obtain rfl := Option.mem_unique hold hth'
      rw [hp] at hp'
      cases hp'
      exact absurd hopen (not_open rfl)
    · exact absurd (Bool.and_eq_true_iff.mp hu).1 (th1.stop_not_inFlight _)
  · rw [active_append hxu hins]
    exact List.Subset.refl _

lemma pending_step {l : List UserServicePlan} (hread : Read u th'.history l) (hx : x ∈ w'.shared.db.active u) :
    (∃ y ∈ l, y.id = x.id) ∧ ¬ Deactivated th'.history x.id := by
  have hold := active_shrinks h hs hone hth hu hx
  obtain ⟨hthread, -⟩ | ⟨call, -, -, rfl⟩ | ⟨o, th, c, k, r, rfl, hthread, hp, hperf, rfl⟩ | ⟨th, -, -, rfl⟩ :=
    thread_step hs hth
  · exact hone.pending u tid th' l hthread hu hread x hold
  · obtain ⟨t, ⟨⟩⟩ := hread
  · have hcall : assigns u th.call = true := (Bool.and_eq_true_iff.mp hu).2
    have hflight : assigning u th = true := Bool.and_eq_true_iff.mpr ⟨Thread.inFlight_of_call hp, hcall⟩
    have hmay := may_assign h ⟨hthread, k, hp⟩ hcall
    obtain ⟨t, hmem⟩ := hread
    obtain hmem | hnew := List.mem_append.mp hmem |>.imp_right List.mem_singleton.mp
    · obtain ⟨hlisted, hnot⟩ := hone.pending u tid th l hthread hflight ⟨t, hmem⟩ x hold
      refine ⟨hlisted, ?_⟩
      rintro ⟨t', hdone⟩
      obtain hdone | hnew := List.mem_append.mp hdone |>.imp_right List.mem_singleton.mp
      · exact hnot ⟨t', hdone⟩
      · cases hnew
        obtain ⟨o', hrun⟩ := perform_db_ok hperf
        rw [PlanDb.active_deactivated (PlanDb.run_deactivate hrun)] at hx
        simpa using (List.mem_filter.mp hx).2
    cases hnew
    obtain ⟨o', hrun⟩ := perform_db_ok hperf
    -- the rows are read before the first deactivation
    refine ⟨⟨x, (PlanDb.run_activeAssignments hrun).mem_iff.mpr hold, rfl⟩, ?_⟩
    rintro ⟨t', hdone⟩
    obtain hdone | hnew := List.mem_append.mp hdone |>.imp_right List.mem_singleton.mp
    · have hbegun := List.any_eq_false.mp hmay.2 _ hdone
      exact hbegun rfl
    · cases hnew
  · exact absurd (Bool.and_eq_true_iff.mp hu).1 (th.stop_not_inFlight _)

end

lemma reach_oneActive (hdb : ∀ u, (db.active u).length ≤ 1)
    (h : Reach (step (apiServer d)) (serial · ·) (start d now db) w) : OneActive w := by
  refine h.invariant (fun _ hr => hr.free) ?_ ?_
  · exact ⟨hdb, by rintro u tid tid' th th' ⟨⟩, by rintro u tid th l ⟨⟩⟩
  · intro w a w' hr hone hg hs
    exact ⟨single_step hr hs hone, fun _ _ _ _ _ hth hth' hu hu' => alone_step hg hs hone hth hth' hu hu',
      fun _ _ _ _ hth hu hread _ hx => pending_step hr hs hone hth hu hread hx⟩

end

section

def Provided (u : String) (w : ApiPool) : Prop :=
  w.shared.db.active u ≠ [] ∨ ∃ (tid : ℕ) (th : ApiThread), w.threads[tid]? = some th ∧ assigning u th = true ∧
    begun th.history = true

variable {r : c.Reply} {t : Span ApiState}

lemma begun_continues {k : c.Reply → Program (Option Response)}
    (h : Reach (step (apiServer d)) Free (start d now db) w) (hth : w.threads[tid]? = some th)
    (hp : th.prog = .call c k) (hu : assigns u th.call = true) (he : closing ⟨t, c, r⟩ = false)
    (hb : begun (th.history ++ [⟨t, c, r⟩]) = true) : assigning u (th.advance t c k r) = true := by
  obtain ⟨req, hroute⟩ := assigns_route hu
  have hd := disciplined_assign h
  refine Bool.and_eq_true_iff.mpr ⟨?_, hu⟩
  by_contra hflight
  obtain ⟨x, hx⟩ := hd.ends hth hp hflight
  exact hx u req hroute hb (open_snoc.mpr ⟨(hd.may hth hp u req hroute).1, he⟩)

lemma begun_snoc {h : List Ev} {e : Ev} (hb : begun h = true) : begun (h ++ [e]) = true := by
  rw [begun, List.any_append, Bool.or_eq_true]
  exact .inl hb

lemma closing_inserts {c : DbCmd} {k : c.Reply → Program (Option Response)} {db db' : PlanDb} {r : c.Reply}
    (hg : uninterrupted w (.exec tid (.db o)) = true) (hth : w.threads[tid]? = some th)
    (hp : th.prog = .call (.db c) k) (hb : begun th.history = true) (hperf : db.perform c o = some (db', r))
    (he : closing ⟨t, .db c, r⟩ = true) : ∃ x, c = .insertAssignment x ∧ db'.assignments = db.assignments ++ [x] := by
  obtain ⟨e, rfl, -⟩ | ⟨e, y, rfl, hrun⟩ | ⟨y, rfl, hrun⟩ := PlanDb.perform_inv hperf
  · simp [uninterrupted, hth, hb] at hg
  · cases c with
    | insertAssignment x => exact ⟨x, rfl, PlanDb.run_insertAssignment hrun⟩
    | _ => simp [uninterrupted, hth, Prog.next_isSome hp, hb] at hg
  · cases c with
    | insertAssignment x => exact ⟨x, rfl, PlanDb.run_insertAssignment hrun⟩
    | _ => cases he

lemma closing_db (h : closing ⟨t, c, r⟩ = true) : ∃ c', c = .db c' := by
  cases c with
  | db c => exact ⟨c, rfl⟩
  | _ => cases h

lemma provided_exec {o : ApiChoice} (h : Reach (step (apiServer d)) Free (start d now db) w)
    (hg : uninterrupted w (.exec tid o) = true) (hs : step (apiServer d) w (.exec tid o) = some w')
    (hth : w.threads[tid]? = some th) (hu : assigning u th = true) (hb : begun th.history = true) : Provided u w' := by
  obtain ⟨hflight, hcall⟩ := Bool.and_eq_true_iff.mp hu
  obtain ⟨c, hc⟩ := Option.isSome_iff_exists.mp hflight
  have hi := issues_of_next hth hc
  obtain ⟨k, r, hp, hperf, hth'⟩ := exec_step hs hi
  by_cases he : closing ⟨⟨w.shared, w'.shared⟩, c, r⟩ = true
  · obtain ⟨c, rfl⟩ := closing_db he
    obtain ⟨o', rfl, hdb⟩ := perform_db hperf
    obtain ⟨x, rfl, hins⟩ := closing_inserts hg hth hp hb hdb he
    obtain ⟨req, hroute⟩ := (keeps_request h).may hi
    obtain ⟨req', hroute'⟩ := assigns_route hcall
    rw [hroute] at hroute'
    obtain ⟨rfl, -⟩ := hroute'
    exact .inl (by rw [PlanDb.active_inserted hins, (may_assign h hi hcall).2.1]; simp)
  · exact .inr ⟨tid, _, hth', begun_continues h hth hp hcall (Bool.not_eq_true _ ▸ he) (begun_snoc hb), begun_snoc hb⟩

lemma active_eq (db : PlanDb) (u : String) :
    db.active u = (db.assignments.filter (·.userId = u)).filter (·.isActive) := by
  rw [PlanDb.active, List.filter_filter]
  congr 1
  funext x
  exact Bool.and_comm _ _

lemma taken_by (h : Reach (step (apiServer d)) Free (start d now db) w) (hs : step (apiServer d) w a = some w')
    (hbefore : w.shared.db.active u ≠ []) (hafter : w'.shared.db.active u = []) :
    ∃ tid o th id k r, a = .exec tid (.db o) ∧ w.threads[tid]? = some th ∧ th.prog = .call (.db (.deactivate id)) k ∧
      assigns u th.call = true ∧ w.shared.db.perform (.deactivate id) o = some (w'.shared.db, r) ∧
      w'.threads[tid]? = some (th.advance ⟨w.shared, w'.shared⟩ (.db (.deactivate id)) k r) := by
  obtain heq | ⟨tid, o, th, c, k, r, rfl, hth, hp, hperf, hth'⟩ := db_step hs
  · exact absurd (heq ▸ hafter) hbefore
  cases PlanDb.perform_effect hperf with
  | kept assignments =>
    rw [PlanDb.active, assignments] at hafter
    exact absurd hafter hbefore
  | @deactivated id assignments =>
    obtain ⟨v, req, hroute, hknown⟩ := (keeps_request h).may ⟨hth, k, hp⟩
    by_cases hv : u = v
    · subst hv
      exact ⟨tid, o, th, id, k, r, rfl, hth, hp, route_assigns hroute, hperf, hth'⟩
    · have hrow := (reach_grounded h).2 tid th _ hth hknown
      rw [active_eq, assignments, filter_deactivated hrow hv, ← active_eq] at hafter
      exact absurd hafter hbefore
  | inserted assignments =>
    rw [PlanDb.active_inserted assignments] at hafter
    exact absurd (List.append_eq_nil_iff.mp hafter).1 hbefore

lemma deactivated_ok {id : String} {k : Except String Unit → Program (Option Response)} {db db' : PlanDb}
    {r : Except String Unit} (hg : uninterrupted w (.exec tid (.db o)) = true) (hth : w.threads[tid]? = some th)
    (hp : th.prog = .call (.db (.deactivate id)) k) (hperf : db.perform (.deactivate id) o = some (db', r)) :
    db' = db ∨ r = .ok () := by
  obtain ⟨e, rfl, rfl⟩ | ⟨e, y, rfl, -⟩ | ⟨y, rfl, -⟩ := PlanDb.perform_inv hperf
  · exact .inl rfl
  · simp [uninterrupted, hth, Prog.next_isSome hp] at hg
  · exact .inr rfl

section

variable (h : Reach (step (apiServer d)) Free (start d now db) w) (hg : uninterrupted w a = true)
  (hs : step (apiServer d) w a = some w')

include h hg hs

lemma provided_taken (hbefore : w.shared.db.active u ≠ []) : Provided u w' := by
  by_cases hafter : w'.shared.db.active u = []
  · obtain ⟨tid, o, th, id, k, r, rfl, hth, hp, hu, hperf, hth'⟩ := taken_by h hs hbefore hafter
    obtain heq | rfl := deactivated_ok hg hth hp hperf
    · exact absurd (heq ▸ hafter) hbefore
    · have hb : begun (th.history ++ [⟨⟨w.shared, w'.shared⟩, .db (.deactivate id), .ok ()⟩]) = true := by
        simp [deactivates]
      exact .inr ⟨tid, _, hth', begun_continues h hth hp hu rfl hb, hb⟩
  · exact .inl hafter

lemma provided_step (hp : Provided u w) : Provided u w' := by
  obtain hbefore | ⟨tid, th, hth, hu, hb⟩ := hp
  · exact provided_taken h hg hs hbefore
  have hlt : tid < w.threads.length := (List.getElem?_eq_some_iff.mp hth).1
  cases step_effect hs with
  | drift drift threads => exact .inr ⟨tid, th, threads ▸ hth, hu, hb⟩
  | arrive accept threads => exact .inr ⟨tid, th, by rw [threads, List.getElem?_append_left hlt]; exact hth, hu, hb⟩
  | @exec j o t c k r thread prog perform threads =>
    by_cases hj : j = tid
    · subst hj
      exact provided_exec h hg hs hth hu hb
    · exact .inr ⟨tid, th, by rw [threads, List.getElem?_set_ne hj]; exact hth, hu, hb⟩
  | @cancel j t thread inFlight shared threads =>
    by_cases hj : j = tid
    · subst hj
      simp [uninterrupted, hth, hb] at hg
    · exact .inr ⟨tid, th, by rw [threads, List.getElem?_set_ne hj]; exact hth, hu, hb⟩
  | restart =>
    simp only [uninterrupted, List.all_eq_true] at hg
    have hnone := hg th (List.mem_of_getElem? hth)
    rw [hb, Bool.not_true, Bool.or_false, Option.isNone_iff_eq_none] at hnone
    simp [assigning, hnone] at hu

end

lemma reach_provided {w0 : ApiPool} (h0 : Reach (step (apiServer d)) Free (start d now db) w0) (hp : Provided u w0)
    (h : Reach (step (apiServer d)) (uninterrupted · ·) w0 w) : Provided u w := by
  induction h with
  | refl => exact hp
  | tail hr hg hs ih => exact provided_step (h0.trans hr.free) hg hs ih

end

theorem one_active_plan (d : Deployment) (now : ℕ) {db : PlanDb} (hrefers : db.Refers)
    (hsingle : ∀ u, (db.active u).length ≤ 1) :
    (∀ w, Reach (step (apiServer d)) Free (start d now db) w → w.shared.db.Refers) ∧
    (∀ w, Reach (step (apiServer d)) (serial · ·) (start d now db) w → ∀ u, (w.shared.db.active u).length ≤ 1) ∧
    ∀ w0 w u, Reach (step (apiServer d)) Free (start d now db) w0 → w0.shared.db.active u ≠ [] →
      Reach (step (apiServer d)) (uninterrupted · ·) w0 w → (∀ th ∈ w.threads, assigning u th = false) →
      w.shared.db.active u ≠ [] := by
  refine ⟨fun w h => reach_refers h hrefers, fun w h => (reach_oneActive hsingle h).single, ?_⟩
  intro w0 w u h0 hactive h hsettled
  obtain hkept | ⟨tid, th, hth, hu, -⟩ := reach_provided h0 (.inl hactive) h
  · exact hkept
  · rw [hsettled th (List.mem_of_getElem? hth)] at hu
    cases hu

namespace Schedule

open FleetingDns.Schedule (bob)

def twoPlans : PlanDb :=
  ⟨tables.plans ++ [⟨"pro", "Pro", 10000, 1000, 1000, 100, none, opening⟩], tables.assignments, tables.keyed⟩

def idle (w : ApiPool) : Bool := w.threads.all fun th => th.prog.next.isNone

def toPro : Request := ⟨bob, .assignServicePlanToUser bob.id ⟨"pro", none⟩⟩

def isError (w : ApiPool) (tid : ℕ) : Bool := w.threads[tid]?.any fun th => match th.prog with
  | .ret (some (.error _)) => true
  | _ => false

end Schedule

section

open FleetingDns.ApiServer.Schedule
open FleetingDns.Schedule (bob)

theorem one_active_plan_of_bob : ∃ w, Reach (step (apiServer deployment)) (fun w a => serial w a && uninterrupted w a)
    (start deployment opening twoPlans) w ∧ idle w ∧ isError w 1 ∧ isError w 2 ∧
    (w.shared.db.active bob.id).length = 1 ∧ w.shared.db.Refers := by
  have hrefers : twoPlans.Refers := by
    intro a ha
    rw [List.mem_singleton.mp ha]
    exact ⟨_, List.mem_cons_self, rfl⟩
  have hsingle : ∀ u, (twoPlans.active u).length ≤ 1 := fun u => List.length_filter_le _ _
  obtain ⟨w, h, hw⟩ := reach_of_check (step (apiServer deployment)) (fun w a => serial w a && uninterrupted w a)
    (start deployment opening twoPlans)
    ([.arrive toPro] ++ each 0 (assign "a2" twoPlans.assignments)
      ++ [.arrive toPro, .arrive ⟨bob, .deleteServicePlan "pro"⟩] ++ each 1 [.db (.failed "connection closed")]
      ++ each 2 [.db (.row 0), .db .done])
    (fun w => idle w && isError w 1 && isError w 2 && w.threads.all fun th => !assigning bob.id th) (by decide +kernel)
  simp only [Bool.and_eq_true, List.all_eq_true, Bool.not_eq_true'] at hw
  obtain ⟨⟨⟨hidle, hfailed⟩, hrefused⟩, hsettled⟩ := hw
  obtain ⟨hany, hserial, hkept⟩ := one_active_plan deployment opening hrefers hsingle
  have hlt := hserial w (h.mono fun _ _ hg => (Bool.and_eq_true_iff.mp hg).1) bob.id
  have hne := hkept _ w bob.id .refl (by decide) (h.mono fun _ _ hg => (Bool.and_eq_true_iff.mp hg).2) hsettled
  exact ⟨w, h, hidle, hfailed, hrefused, Nat.le_antisymm hlt (List.length_pos_iff.mpr hne), hany w h.free⟩

def faultless (w : ApiPool) : Action → Bool
  | .exec tid (.db (.failed _)) => w.threads[tid]?.any fun th => match th.prog.next with
    | some (.db (.insertAssignment a)) => (w.shared.db.run (.insertAssignment a) .done).isNone
    | _ => false
  | .exec _ (.db (.lost _)) | .cancel _ | .restart => false
  | _ => true

/-- Two moves that overlap leave Bob with two active assignments; a deletion of the plan in the middle of one leaves
Bob with none. -/
theorem active_plan_doubled_or_lost : twoPlans.active bob.id ≠ [] ∧
    (∃ w, Reach (step (apiServer deployment)) (faultless · ·) (start deployment opening twoPlans) w ∧ idle w ∧
      (w.shared.db.active bob.id).length = 2) ∧
    ∃ w, Reach (step (apiServer deployment)) (faultless · ·) (start deployment opening twoPlans) w ∧ idle w ∧
      isError w 0 ∧ w.shared.db.active bob.id = [] := by
  refine ⟨by decide, ?_, ?_⟩
  · obtain ⟨w, h, hw⟩ := reach_of_check (step (apiServer deployment)) (faultless · ·)
      (start deployment opening twoPlans)
      ([.arrive toPro, .arrive toPro] ++ each 0 ((assign "a2" twoPlans.assignments).take 2)
        ++ each 1 (assign "a3" twoPlans.assignments) ++ each 0 ((assign "a2" twoPlans.assignments).drop 2))
      (fun w => idle w && (w.shared.db.active bob.id).length == 2) (by decide +kernel)
    simp only [Bool.and_eq_true, beq_iff_eq] at hw
    exact ⟨w, h, hw⟩
  · obtain ⟨w, h, hw⟩ := reach_of_check (step (apiServer deployment)) (faultless · ·)
      (start deployment opening twoPlans)
      ([.arrive toPro, .arrive ⟨bob, .deleteServicePlan "pro"⟩] ++ each 0 ((assign "a2" twoPlans.assignments).take 2)
        ++ each 1 [.db (.row 0), .db .done, .db .done] ++ each 0 [.db .done, uuid "a2", plain, plain]
        ++ each 0 [.db (.failed "violates foreign key constraint")])
      (fun w => idle w && isError w 0 && (w.shared.db.active bob.id).isEmpty) (by decide +kernel)
    simp only [Bool.and_eq_true, List.isEmpty_iff] at hw
    obtain ⟨⟨hidle, hfailed⟩, hnone⟩ := hw
    exact ⟨w, h, hidle, hfailed, hnone⟩

end

end FleetingDns.ApiServer
