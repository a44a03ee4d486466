import FleetingDns.Library.ServerPool
import FleetingDns.UsageTracking
import FleetingDns.World
namespace FleetingDns.Quota

open CommandPrograms ThreadPool ServerPool FleetingDns.Schedule

structure QuotaState where
  shared : Shared
  usage : AList (fun _ : String => UserUsage)
  resets : List String

inductive QuotaChoice where
  | plain
  | base (o : Choice)

namespace QuotaState

def resetUsage (s : QuotaState) (userId : String) : QuotaState :=
  { s with
    usage := match s.usage.lookup userId with
      | some usage => s.usage.insert userId (usage.reset s.shared.now)
      | none => s.usage
    resets := userId :: s.resets }

def perform (config : Config) (s : QuotaState) : (c : QuotaCmd) → QuotaChoice → Option (QuotaState × c.Reply)
  -- the caller matters to the listener of a session only
  | .base c, .base o => (Shared.perform config s.shared (.route none) c o).map fun r => ({ s with shared := r.1 }, r.2)
  | .readUsage userId, .plain => some (s, s.usage.lookup userId)
  | .cacheUsage userId usage, .plain => some ({ s with usage := s.usage.insert userId usage }, ())
  | .storeUsage userId usage, .plain => some ({ s with usage := s.usage.insert userId usage }, ())
  | .resetUsage userId, .plain => some (s.resetUsage userId, ())
  | _, _ => none

def created (s : QuotaState) (userId : String) : ℤ := ((s.usage.lookup userId).map UserUsage.tunnelsCreatedCount).getD 0

def epoch (s : QuotaState) (userId : String) : ℕ := s.resets.count userId

end QuotaState

section

variable {config : Config} {s s' : QuotaState} {u : String} {o : QuotaChoice}
    {usage : UserUsage} {r : Unit} {c : QuotaCmd}

lemma created_of_lookup (h : s.usage.lookup u = some usage) :
    s.created u = usage.tunnelsCreatedCount := by rw [QuotaState.created, h]; rfl

lemma created_of_none (h : s.usage.lookup u = none) : s.created u = 0 := by rw [QuotaState.created, h]; rfl

lemma perform_readUsage {r : Option UserUsage} (h : s.perform config (.readUsage u) o = some (s', r)) :
    s' = s ∧ r = s.usage.lookup u := by
  cases o <;> simp only [QuotaState.perform, Option.some.injEq, Prod.mk.injEq, reduceCtorEq] at h
  exact ⟨h.1.symm, h.2.symm⟩

lemma perform_cacheUsage (h : s.perform config (.cacheUsage u usage) o = some (s', r)) :
    s' = { s with usage := s.usage.insert u usage } := by
  cases o <;> simp only [QuotaState.perform, Option.some.injEq, Prod.mk.injEq, reduceCtorEq] at h
  exact h.1.symm

lemma perform_storeUsage (h : s.perform config (.storeUsage u usage) o = some (s', r)) :
    s' = { s with usage := s.usage.insert u usage } := by
  cases o <;> simp only [QuotaState.perform, Option.some.injEq, Prod.mk.injEq, reduceCtorEq] at h
  exact h.1.symm

lemma perform_base {c : FleetingDns.Cmd} {r : c.Reply} (h : s.perform config (.base c) o = some (s', r)) :
    ∃ o' shared, Shared.perform config s.shared (.route none) c o' = some (shared, r) ∧
      s' = { s with shared := shared } := by
  cases o <;> simp only [QuotaState.perform, reduceCtorEq] at h
  rename_i o'
  obtain ⟨⟨shared, r'⟩, hp, heq⟩ := Option.map_eq_some_iff.mp h
  obtain ⟨rfl, rfl⟩ := heq
  exact ⟨o', shared, hp, rfl⟩

lemma perform_utcNow {r : ℕ} (h : s.perform config (.base .utcNow) o = some (s', r)) : s' = s ∧ r = s.shared.now := by
  obtain ⟨o', shared, hp, rfl⟩ := perform_base h
  cases o' <;> simp only [Shared.perform, reduceCtorEq] at hp
  obtain ⟨rfl, rfl⟩ := hp
  exact ⟨rfl, rfl⟩

lemma perform_resetUsage (h : s.perform config (.resetUsage u) o = some (s', r)) : s' = s.resetUsage u := by
  cases o <;> simp only [QuotaState.perform, Option.some.injEq, Prod.mk.injEq, reduceCtorEq] at h
  exact h.1.symm

def countAfter (u : String) (n : ℤ) : QuotaCmd → ℤ
  | .cacheUsage v usage | .storeUsage v usage => if v = u then usage.tunnelsCreatedCount else n
  | .resetUsage v => if v = u then 0 else n
  | .base _ | .readUsage _ => n

lemma created_insert (v : String) (usage : UserUsage) :
    QuotaState.created { s with usage := s.usage.insert v usage } u =
      if v = u then usage.tunnelsCreatedCount else s.created u := by
  split_ifs with hv
  · subst hv
    exact created_of_lookup (AList.lookup_insert _)
  · rw [QuotaState.created, AList.lookup_insert_ne (Ne.symm hv)]
    rfl

lemma created_resetUsage (v : String) : (s.resetUsage v).created u = if v = u then 0 else s.created u := by
  rw [QuotaState.created, QuotaState.resetUsage]
  cases hl : s.usage.lookup v with
  | none =>
    split_ifs with hv
    · rw [← hv, hl]
      rfl
    · rfl
  | some => exact created_insert v _

lemma perform_created {r : c.Reply} (h : s.perform config c o = some (s', r)) :
    s'.created u = countAfter u (s.created u) c := by
  cases c with
  | base =>
    obtain ⟨-, shared, -, rfl⟩ := perform_base h
    rfl
  | readUsage => rw [(perform_readUsage h).1, countAfter]
  | cacheUsage => rw [perform_cacheUsage h, countAfter, created_insert]
  | storeUsage => rw [perform_storeUsage h, countAfter, created_insert]
  | resetUsage => rw [perform_resetUsage h, countAfter, created_resetUsage]

lemma perform_epoch {r : c.Reply} (h : s.perform config c o = some (s', r)) (hc : c ≠ .resetUsage u) :
    s'.epoch u = s.epoch u := by
  cases c with
  | base =>
    obtain ⟨-, shared, -, rfl⟩ := perform_base h
    rfl
  | readUsage => rw [(perform_readUsage h).1]
  | cacheUsage => rw [perform_cacheUsage h]; rfl
  | storeUsage => rw [perform_storeUsage h]; rfl
  | resetUsage v =>
    rw [perform_resetUsage h]
    have hv : v ≠ u := fun hv => hc (congrArg _ hv)
    exact List.count_cons_of_ne hv

lemma perform_nextEpoch (h : s.perform config (.resetUsage u) o = some (s', r)) : s'.epoch u = s.epoch u + 1 := by
  rw [perform_resetUsage h]
  exact List.count_cons_self

end

inductive QuotaCall where
  | createTunnel (user : GitHubUser) (request : CreateTunnelRequest)
  | getQuotaInfo (userId : String)
  | checkOperationAllowed (userId operationType : String)
  | resetUserUsage (userId : String)

inductive QuotaDone where
  | created (r : Except ApiError CreateTunnelResponse)
  | info (r : QuotaInfo)
  | checked (r : Except ApiError OperationCheckResponse)
  | reset (r : ResetUsageResponse)
  | cancelled

namespace QuotaCall

def userId : QuotaCall → String
  | createTunnel user _ => user.id
  | getQuotaInfo userId | checkOperationAllowed userId _ | resetUserUsage userId => userId

def program (config : Config) : QuotaCall → Program QuotaDone
  | createTunnel user request => do return .created (← Quota.createTunnel config.api user request)
  | getQuotaInfo userId => do return .info (← Quota.getQuotaInfo userId)
  | checkOperationAllowed userId operationType => do return .checked (← Quota.checkOperationAllowed userId operationType)
  | resetUserUsage userId => do return .reset (← Quota.resetUserUsage userId)

end QuotaCall

/-- The rest of the system may do anything to the shared state between two commands, except turning back the clock. -/
def quotaServer (config : Config) :
    Service QuotaState QuotaCall QuotaCmd QuotaCmd.Reply QuotaDone QuotaChoice Shared where
  program := QuotaCall.program config
  perform := QuotaState.perform config
  accept s _ := some s
  drift s shared := if s.shared.now ≤ shared.now then some { s with shared := shared } else none
  restart _ := none
  stopped := .cancelled

abbrev Ev := Event QuotaState QuotaCmd QuotaCmd.Reply

abbrev QuotaThread := Thread QuotaState QuotaCall QuotaCmd QuotaCmd.Reply QuotaDone

abbrev QuotaPool := Pool QuotaState QuotaCall QuotaCmd QuotaCmd.Reply QuotaDone

abbrev Action := Act QuotaCall QuotaChoice Shared

def start (shared : Shared) : QuotaPool := ⟨⟨shared, ∅, []⟩, []⟩

namespace Schedule

def idle : QuotaState := ⟨FleetingDns.Schedule.start.shared, ∅, []⟩

def count : List QuotaChoice := [.plain, .base .plain, .base .plain, .plain, .plain, .base .plain, .plain]

def countAgain : List QuotaChoice := [.plain, .plain, .base .plain, .plain]

def provide (port : ℕ) (id : String) : List QuotaChoice :=
  (create 0 port id "ssh-ed25519 AAAA").filterMap fun
    | .exec _ (.quota _) => none
    | .exec _ o => some (.base o)
    | _ => none

def each (tid : ℕ) (os : List QuotaChoice) : List Action := os.map (.exec tid)

def arrival (subdomain : String) : Action :=
  .arrive (.createTunnel alice (request 600 subdomain))

end Schedule

end FleetingDns.Quota
