import FleetingDns.CreateFlow
import FleetingDns.EdgeRouter
import FleetingDns.SlotForwarding
namespace FleetingDns.HandlerFlow

open CommandPrograms ExpiringStore CreateFlow TunnelLookup

def consults : Cmd → Bool
  | .redis (.get _) | .redis (.exist _) | .redis (.keys _) | .redis (.setEx (.sessionGrant _ _) _ _) => true
  | .redis _ | .canCreateTunnel _ | .isLockedOut _ | .recordAttempt _ _ _ _ => false
  | _ => true

abbrev Consults {α : Type} (p : Program α) : Prop := Only (fun c => consults c = true) p

lemma only_deleteTunnel {P : Cmd → Prop} (hget : ∀ k, P (.redis (.get k))) (hdel : ∀ k, P (.redis (.del k)))
    (hset : ∀ owner v, P (.redis (.set (.tunnelLookup owner) v))) (user : GitHubUser) (id : String) :
    Only P (deleteTunnel user id).run := by
  refine only_seq (only_ownedTunnel (hget _)) fun _ => only_seq (only_getTunnel (hget _)) ?_
  intro r
  cases r with
  | none => exact .ret
  | some =>
    refine only_seq (only_redis (hdel _)) fun _ => only_seq (only_redis (hdel _)) fun _ => ?_
    refine only_seq (only_redis (hdel _)) fun _ => only_seq (only_redis (hget _)) fun existing => ?_
    split
    · exact only_seq (only_redis (hset _ _)) fun _ => .ret
    · exact .ret

lemma consults_createTunnelSession (user : GitHubUser) (id : String) : Consults (createTunnelSession user id).run :=
  only_createTunnelSession (P := fun c => consults c = true) (fun _ => rfl) (fun _ _ => rfl) rfl user
    (fun _ _ _ _ => rfl) id

section

variable {P : Cmd → Prop} {peer : SocketAddr} (hget : ∀ keyPrefix id, P (.redis (.get (.session keyPrefix id))))
  (hnow : P .utcNow)

include hget hnow

lemma only_keyAccepted (config : HubConfig) (publicKey sessionId : String) :
    Only P (keyAccepted config publicKey sessionId) := by
  unfold keyAccepted
  split
  · refine only_bind (only_seq (only_lift (only_issue (hget _ _))) fun data => ?_) fun r => ?_
    · split
      · exact .ret
      · exact .ret
      · split
        · exact .ret
        · refine only_seq (only_lift (only_issue hnow)) fun now => ?_
          split_ifs <;> exact .ret
    · cases r <;> exact .ret
  · exact .ret

lemma only_authPublickey (hlocked : P (.isLockedOut peer))
    (hrecord : ∀ success serial reason, P (.recordAttempt peer success serial reason)) (hub : HubConfig)
    (serial : Option String) (user publicKey : String) : Only P (authPublickey hub peer serial user publicKey) := by
  refine only_bind (only_issue hlocked) fun lockedOut => ?_
  dsimp only
  split_ifs
  · exact .ret
  · exact .ret
  refine only_bind (only_keyAccepted hget hnow hub publicKey _) fun accepted => ?_
  refine only_bind (only_issue (hrecord _ _ _)) fun recorded => ?_
  cases recorded with
  | none => exact .ret
  | some =>
    split_ifs <;> exact .ret

end

lemma consults_query {c : StoreCmd Key Value} (hc : consults (.redis c) = true) :
    Consults (query c).run := by
  refine only_bind (only_issue hc) ?_
  intro r
  cases r <;> exact .ret

lemma consults_findTunnel (p : TunnelInfo → Bool) (ids : List String) :
    Consults (findTunnel p ids).run := by
  induction ids with
  | nil => exact .ret
  | cons id ids ih =>
    refine only_seq (consults_query rfl) fun data => ?_
    split
    · split_ifs
      · exact .ret
      · exact ih
    · exact ih

lemma consults_scanTunnels (p : TunnelInfo → Bool) : Consults (scanTunnels p).run := by
  refine only_seq (consults_query rfl) fun keys => ?_
  induction keys with
  | nil => exact .ret
  | cons key keys ih =>
    refine only_seq (consults_query rfl) fun data => ?_
    split
    · refine only_seq (consults_findTunnel p _) fun r => ?_
      cases r with
      | none => exact ih
      | some => exact .ret
    · exact ih

lemma consults_tcpipForward (config : HubConfig) (serial : Option String) (port : ℕ) :
    Consults (tcpipForward config serial port) := by
  refine only_bind ?_ fun gate => ?_
  · unfold slotGate
    split_ifs
    · refine only_bind (consults_scanTunnels _) fun r => ?_
      split
      · split
        · split_ifs <;> exact .ret
        · exact .ret
      · exact .ret
      · exact .ret
    · exact .ret
  · cases gate with
    | none => exact .ret
    | some =>
      refine only_bind (only_issue rfl) fun r => ?_
      cases r <;> exact .ret

lemma consults_dialTunnel (info : TunnelInfo) (replayBuf : EdgeRouter.Bytes) :
    Consults (EdgeRouter.dialTunnel info replayBuf) := by
  refine only_bind (only_issue rfl) fun r => ?_
  split
  · exact .ret
  · exact .ret
  · split
    · exact .ret
    · refine only_bind (only_issue rfl) fun r => ?_
      split <;> exact .ret

lemma consults_route (sni : Option String) : Consults (EdgeRouter.handleRouterConnection sni) := by
  obtain _ | _ := sni
  · exact .ret
  refine only_bind (consults_scanTunnels _) fun r => ?_
  split
  · exact .ret
  · exact .ret
  split_ifs
  · refine only_bind (only_seq (only_lift (only_issue rfl)) fun head => ?_) fun r => ?_
    · split
      · exact .ret
      split
      · exact .ret
      · refine only_seq (only_lift (consults_query rfl)) fun r => ?_
        split
        · exact .ret
        · split_ifs <;> exact .ret
    · cases r with
      | error => exact .ret
      | ok => exact consults_dialTunnel _ _
  · exact consults_dialTunnel _ _

end FleetingDns.HandlerFlow
