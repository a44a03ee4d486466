import FleetingDns.Library.CommandPrograms
import Mathlib.Data.List.Nodup
import Mathlib.Data.String.Basic
namespace FleetingDns.Plans

open CommandPrograms List

structure ServicePlan where
  (id name : String)
  (apiRateLimit tunnelCreationLimit dnsProvisioningLimit maxConcurrentTunnels : ℤ)
  featuresJson : Option String
  createdAt : ℕ
  deriving DecidableEq

structure UserServicePlan where
  (id userId servicePlanId : String)
  startDate : ℕ
  endDate : Option ℤ
  isActive : Bool
  createdAt : ℕ
  deriving DecidableEq

structure UpdateServicePlanRequest where
  name : Option String
  (apiRateLimit tunnelCreationLimit dnsProvisioningLimit maxConcurrentTunnels : Option ℕ)
  featuresJson : Option String

def asI32 (n : ℕ) : ℤ := (n + 2147483648 : ℤ) % 4294967296 - 2147483648

def asU32 (i : ℤ) : ℕ := (i % 4294967296).toNat

def ServicePlan.update (plan : ServicePlan) (request : UpdateServicePlanRequest) : ServicePlan :=
  { plan with
    name := request.name.getD plan.name
    apiRateLimit := (request.apiRateLimit.map asI32).getD plan.apiRateLimit
    tunnelCreationLimit := (request.tunnelCreationLimit.map asI32).getD plan.tunnelCreationLimit
    dnsProvisioningLimit := (request.dnsProvisioningLimit.map asI32).getD plan.dnsProvisioningLimit
    maxConcurrentTunnels := (request.maxConcurrentTunnels.map asI32).getD plan.maxConcurrentTunnels
    featuresJson := request.featuresJson.orElse fun _ => plan.featuresJson }

inductive DbCmd where
  | findPlan (id : String)
  | findPlanByName (name : String)
  | findOtherPlanByName (name id : String)
  | allPlans
  | insertPlan (plan : ServicePlan)
  | updatePlan (id : String) (request : UpdateServicePlanRequest)
  | deletePlan (id : String)
  | countActive (servicePlanId : String)
  | activeAssignment (userId : String)
  | activeAssignmentTo (userId servicePlanId : String)
  | activeAssignments (userId : String)
  | deactivate (id : String)
  | insertAssignment (assignment : UserServicePlan)

namespace DbCmd

@[reducible] def Rows : DbCmd → Type
  | findPlan _ | findPlanByName _ | findOtherPlanByName _ _ => Option ServicePlan
  | allPlans => List ServicePlan
  | insertPlan _ | updatePlan _ _ => ServicePlan
  | deletePlan _ | deactivate _ => Unit
  | countActive _ => ℕ
  | activeAssignment _ | activeAssignmentTo _ _ => Option UserServicePlan
  | activeAssignments _ => List UserServicePlan
  | insertAssignment _ => UserServicePlan

@[reducible] def Reply (c : DbCmd) : Type := Except String c.Rows

end DbCmd

structure PlanDb where
  plans : List ServicePlan
  assignments : List UserServicePlan
  keyed : (assignments.map UserServicePlan.id).Nodup

/-- What the database leaves open: which row a query for one row picks, in which order rows come, and failures. -/
inductive DbChoice where
  | done
  | row (n : ℕ)
  | plans (l : List ServicePlan)
  | assignments (l : List UserServicePlan)
  | failed (e : String)
  | lost (e : String)

namespace PlanDb

def pick {α : Type} (rows : List α) (n : ℕ) : Option (Option α) := if rows.isEmpty then some none else rows[n]?.map some

def active (db : PlanDb) (userId : String) : List UserServicePlan :=
  db.assignments.filter fun a => a.userId = userId && a.isActive

section

variable (id : String) (a : UserServicePlan)

def deactivated : UserServicePlan :=
  if a.id = id then { a with isActive := false } else a

lemma deactivated_id : (deactivated id a).id = a.id := by
  unfold deactivated
  split_ifs <;> rfl

lemma deactivated_userId : (deactivated id a).userId = a.userId := by
  unfold deactivated
  split_ifs <;> rfl

end

def deactivate (db : PlanDb) (id : String) : PlanDb where
  plans := db.plans
  assignments := db.assignments.map (deactivated id)
  keyed := by
    have hid : UserServicePlan.id ∘ deactivated id = UserServicePlan.id := funext (deactivated_id id)
    rw [map_map, hid]
    exact db.keyed

def insertAssignment (db : PlanDb) (a : UserServicePlan) (h : a.id ∉ db.assignments.map UserServicePlan.id) :
    PlanDb where
  plans := db.plans
  assignments := db.assignments ++ [a]
  keyed := by
    rw [map_append, map_singleton, nodup_append]
    refine ⟨db.keyed, nodup_singleton _, ?_⟩
    intro x hx y hy heq
    rw [mem_singleton] at hy
    exact h (hy ▸ heq ▸ hx)

def run (db : PlanDb) : (c : DbCmd) → DbChoice → Option (PlanDb × c.Rows)
  | .findPlan id, .row n => (pick (db.plans.filter (·.id = id)) n).map (db, ·)
  | .findPlanByName name, .row n => (pick (db.plans.filter (·.name = name)) n).map (db, ·)
  | .findOtherPlanByName name id, .row n =>
    (pick (db.plans.filter fun plan => plan.name = name && plan.id ≠ id) n).map (db, ·)
  | .allPlans, .plans l => if l.Perm db.plans then some (db, l) else none
  | .insertPlan plan, .done =>
    -- the id is the primary key, and names are unique
    if db.plans.any fun p => p.id = plan.id || p.name = plan.name then none
    else some ({ db with plans := db.plans ++ [plan] }, plan)
  | .updatePlan id request, .done => (db.plans.find? (·.id = id)).bind fun plan =>
    if db.plans.any fun p => p.id ≠ id && p.name = (plan.update request).name then none
    else some ({ db with plans := db.plans.map fun p => if p.id = id then plan.update request else p },
      plan.update request)
  | .deletePlan id, .done =>
    -- an assignment refers to its plan, active or not
    if db.assignments.any fun a => a.servicePlanId = id then none
    else some ({ db with plans := db.plans.filter (·.id ≠ id) }, ())
  | .countActive servicePlanId, .done =>
    some (db, (db.assignments.filter fun a => a.servicePlanId = servicePlanId && a.isActive).length)
  | .activeAssignment userId, .row n => (pick (db.active userId) n).map (db, ·)
  | .activeAssignmentTo userId servicePlanId, .row n =>
    (pick ((db.active userId).filter (·.servicePlanId = servicePlanId)) n).map (db, ·)
  | .activeAssignments userId, .assignments l => if l.Perm (db.active userId) then some (db, l) else none
  | .deactivate id, .done => if db.assignments.any (·.id = id) then some (db.deactivate id, ()) else none
  | .insertAssignment a, .done =>
    if h : a.id ∉ db.assignments.map UserServicePlan.id ∧ db.plans.any (·.id = a.servicePlanId) = true then
      some (db.insertAssignment a h.1, a)
    else none
  | _, _ => none

def perform (db : PlanDb) (c : DbCmd) : DbChoice → Option (PlanDb × c.Reply)
  | .failed e => some (db, .error e)
  | .lost e => (db.run c .done).map fun r => (r.1, .error e)
  | o => (db.run c o).map fun r => (r.1, .ok r.2)

section

variable {db db' : PlanDb} {c : DbCmd} {o : DbChoice} {r : c.Reply} {x : c.Rows}

lemma perform_inv (h : db.perform c o = some (db', r)) :
    (∃ e, o = .failed e ∧ db' = db) ∨ (∃ e x, o = .lost e ∧ db.run c .done = some (db', x)) ∨
      ∃ x, r = .ok x ∧ db.run c o = some (db', x) := by
  cases o with
  | failed e =>
    cases h
    exact .inl ⟨e, rfl, rfl⟩
  | lost e =>
    obtain ⟨⟨_, x⟩, hr, heq⟩ := Option.map_eq_some_iff.mp h
    cases heq
    exact .inr (.inl ⟨e, x, rfl, hr⟩)
  | _ =>
    obtain ⟨⟨_, x⟩, hr, heq⟩ := Option.map_eq_some_iff.mp h
    cases heq
    exact .inr (.inr ⟨x, rfl, hr⟩)

lemma perform_cases (h : db.perform c o = some (db', r)) : db' = db ∨ ∃ o' x, db.run c o' = some (db', x) := by
  obtain ⟨e, -, rfl⟩ | ⟨e, x, -, hr⟩ | ⟨x, -, hr⟩ := perform_inv h
  · exact .inl rfl
  · exact .inr ⟨_, x, hr⟩
  · exact .inr ⟨_, x, hr⟩

lemma perform_ok (h : db.perform c o = some (db', .ok x)) : ∃ o', db.run c o' = some (db', x) := by
  obtain ⟨e, rfl, -⟩ | ⟨e, y, rfl, hr⟩ | ⟨y, hy, hr⟩ := perform_inv h
  · cases h
  · rw [perform, hr] at h
    cases h
  · cases hy
    exact ⟨o, hr⟩

lemma run_activeAssignments {u : String} {l : List UserServicePlan}
    (h : db.run (.activeAssignments u) o = some (db', l)) : l.Perm (db.active u) := by
  cases o with
  | assignments =>
    simp only [run] at h
    split_ifs at h with hp
    cases h
    exact hp
  | _ => cases h

inductive Effect (db db' : PlanDb) : DbCmd → Prop
  | kept {c : DbCmd} (assignments : db'.assignments = db.assignments) : Effect db db' c
  | deactivated {id : String} (assignments : db'.assignments = db.assignments.map (deactivated id)) :
      Effect db db' (.deactivate id)
  | inserted {a : UserServicePlan} (assignments : db'.assignments = db.assignments ++ [a]) :
      Effect db db' (.insertAssignment a)

lemma run_effect (h : db.run c o = some (db', x)) : Effect db db' c := by
  cases c with
  | deactivate =>
    cases o <;> simp only [run, reduceCtorEq] at h
    split_ifs at h
    cases h
    exact .deactivated rfl
  | insertAssignment =>
    cases o <;> simp only [run, reduceCtorEq] at h
    split_ifs at h
    cases h
    exact .inserted rfl
  | findPlan | findPlanByName | findOtherPlanByName | activeAssignment | activeAssignmentTo =>
    cases o <;> simp only [run, reduceCtorEq, Option.map_eq_some_iff] at h
    obtain ⟨_, _, rfl, _⟩ := h
    exact .kept rfl
  | updatePlan =>
    cases o <;> simp only [run, reduceCtorEq, Option.bind_eq_some_iff] at h
    obtain ⟨plan, -, h⟩ := h
    split_ifs at h
    cases h
    exact .kept rfl
  | countActive =>
    cases o <;> simp only [run, reduceCtorEq] at h
    cases h
    exact .kept rfl
  | allPlans | insertPlan | deletePlan | activeAssignments =>
    cases o <;> simp only [run, reduceCtorEq] at h
    split_ifs at h
    cases h
    exact .kept rfl

lemma perform_effect (h : db.perform c o = some (db', r)) : Effect db db' c := by
  obtain rfl | ⟨o', x, hr⟩ := perform_cases h
  · exact .kept rfl
  · exact run_effect hr

lemma perform_assigned (h : db.perform c o = some (db', r)) {a : UserServicePlan} (ha : a ∈ db.assignments) :
    ∃ a' ∈ db'.assignments, a'.id = a.id ∧ a'.userId = a.userId := by
  cases perform_effect h with
  | kept assignments => exact ⟨a, assignments ▸ ha, rfl, rfl⟩
  | @deactivated id assignments =>
    rw [assignments]
    exact ⟨_, mem_map_of_mem ha, deactivated_id id a, deactivated_userId id a⟩
  | inserted assignments =>
    rw [assignments]
    exact ⟨a, mem_append_left _ ha, rfl, rfl⟩

end

end PlanDb

end FleetingDns.Plans
