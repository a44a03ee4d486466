import FleetingDns.ApiRoutes
import FleetingDns.CaServer
import FleetingDns.QuotaServer

namespace FleetingDns.ApiServer

open CommandPrograms ExpiringStore ThreadPool ServerPool Plans

structure ApiState where
  quota : Quota.QuotaState
  ca : EdfCa.CaState
  db : PlanDb

inductive ApiChoice where
  | plain
  | quota (o : Quota.QuotaChoice)
  | ca (o : EdfCa.Choice)
  | db (o : DbChoice)

inductive Outside where
  | tick (d : ℕ)
  | lapse (key : Key)
  | put (key : Key) (entry : Option (Entry Value))

namespace ApiState

def store (s : ApiState) : Store Key Value := s.quota.shared.store

def withStore (s : ApiState) (store : Store Key Value) : ApiState :=
  { s with quota := { s.quota with shared := { s.quota.shared with store := store } } }

def canonical (d : Deployment) : (c : Quota.QuotaCmd) → c.Reply → Bool
  | .base .newUuid, id => d.parseUuid id = some id
  | _, _ => true

def perform (d : Deployment) (s : ApiState) : (c : ApiCmd) → ApiChoice → Option (ApiState × c.Reply)
  | .quota c, .quota o => (s.quota.perform d.config c o).bind fun r =>
    if canonical d c r.2 then some ({ s with quota := r.1 }, r.2) else none
  | .ca c, .ca o => (s.ca.perform c o).map fun r => ({ s with ca := r.1 }, r.2)
  | .activeCount, .plain => some (s, s.ca.activeCerts.entries.length)
  | .totalIssued, .plain => some (s, s.ca.rateLimiter.totalIssued)
  | .db c, .db o => (s.db.perform c o).map fun r => ({ s with db := r.1 }, r.2)
  | _, _ => none

/-- The keys that only requests write: tunnel records, tunnel lists and session grants. -/
def kept : Key → Bool
  | .tunnel _ | .tunnelLookup _ | .sessionGrant _ _ => true
  | _ => false

def drift (s : ApiState) : Outside → Option ApiState
  | .tick d => some { s with
      quota := { s.quota with shared := { s.quota.shared with now := s.quota.shared.now + d } }
      ca := { s.ca with now := s.ca.now + d } }
  | .lapse key => (ExpiringStore.lapse s.quota.shared.now s.store key).map s.withStore
  | .put key entry =>
    -- others delete keys and write their own, such as the liveness marks of the hub
    match entry with
    | none => some (s.withStore (s.store.erase key))
    | some e => if kept key then none else some (s.withStore (s.store.insert key e))

def restart (d : Deployment) (s : ApiState) : ApiState :=
  { s with quota := { s.quota with usage := ∅ }, ca := s.ca.restart d.ca }

end ApiState

def apiServer (d : Deployment) :
    Service ApiState Request ApiCmd ApiCmd.Reply (Option Response) ApiChoice Outside where
  program := Request.program d
  perform := ApiState.perform d
  accept s _ := some s
  drift := ApiState.drift
  restart s := some (s.restart d)
  stopped := none

abbrev Ev := Event ApiState ApiCmd ApiCmd.Reply

abbrev ApiThread := Thread ApiState Request ApiCmd ApiCmd.Reply (Option Response)

abbrev ApiPool := Pool ApiState Request ApiCmd ApiCmd.Reply (Option Response)

abbrev Action := Act Request ApiChoice Outside

def start (d : Deployment) (now : ℕ) (db : PlanDb) : ApiPool :=
  ⟨⟨⟨⟨now, ∅, [], .empty, .empty⟩, ∅, []⟩, .init d.ca now, db⟩, []⟩

namespace Schedule

open FleetingDns.Schedule (bob)

def deployment : Deployment := ⟨FleetingDns.Schedule.deployment, EdfCa.Schedule.deployment, some, some, "policy"⟩

def opening : ℕ := 1700000000 * second

def tables : PlanDb :=
  ⟨[⟨"basic", "Basic", 1000, 100, 100, 10, none, opening⟩], [⟨"a1", bob.id, "basic", opening, none, true, opening⟩],
    List.nodup_singleton _⟩

def begin : ApiPool := start deployment opening tables

def each (tid : ℕ) (os : List ApiChoice) : List Action := os.map (.exec tid)

def plain : ApiChoice := .quota (.base .plain)

def stored : ApiChoice := .quota (.base (.redis .ok))

def uuid (id : String) : ApiChoice := .quota (.base (.uuid id))

def count : List ApiChoice := Quota.Schedule.count.map .quota

def issued (byte : EdfCa.Byte) : List ApiChoice := (EdfCa.Schedule.issued 0 byte).filterMap fun
  | .exec _ o => some (.ca o)
  | _ => none

def create (port : ℕ) (id : String) (byte : EdfCa.Byte) : List ApiChoice :=
  count ++ [stored, uuid ("request-" ++ id)] ++ issued byte
    ++ ((FleetingDns.Schedule.create 0 port id "key").drop 8).filterMap fun
      | .exec _ o => some (.quota (.base o))
      | _ => none

def grant : List ApiChoice := [stored, .quota (.base (.indices (List.replicate 32 0))), plain, stored, plain]

def assign (id : String) (existing : List UserServicePlan) : List ApiChoice :=
  [.db (.row 0), .db (.assignments existing)] ++ existing.map (fun _ => .db .done) ++ [uuid id, plain, plain, .db .done]

end Schedule

end FleetingDns.ApiServer
