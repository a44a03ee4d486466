import Mathlib.Data.Int.Notation
import Mathlib.Data.Nat.Notation
import Mathlib.Order.Defs.LinearOrder
import Mathlib.Tactic.SplitIfs
namespace FleetingDns.Cli

inductive ChannelOpen where
  | opened
  | refused
  | failed (e : String)

structure Keepalive where
  took : ℕ
  reply : ChannelOpen

structure Session where
  droppedAt : Option ℕ
  keepalives : ℕ → Keepalive

def Session.isClosed (session : Session) (now : ℕ) : Bool := session.droppedAt.any (· ≤ now)

structure TunnelClient where
  keepAliveInterval : ℕ
  handle : Option Session
  disconnected : Bool
  (sent now : ℕ)

namespace TunnelClient

section

variable (self : TunnelClient)

def isConnected : Bool := self.handle.any fun handle => !handle.isClosed self.now

def sendKeepalive : Except String Unit × TunnelClient :=
  match self.handle with
  | none => (.error "No active SSH handle", self)
  | some handle =>
    if handle.isClosed self.now then
      (.error "SSH session closed", self)
    else
      let keepalive := handle.keepalives self.sent
      let self := { self with sent := self.sent + 1, now := self.now + keepalive.took }
      match keepalive.reply with
      | .opened | .refused => (.ok (), self)
      | .failed e => (.error ("keepalive failed: " ++ e), self)

def closeTunnel : Except String Unit × TunnelClient :=
  match self.handle with
  | some _ => (.ok (), { self with handle := none, disconnected := true })
  | none => (.ok (), self)

def sleep : TunnelClient := { self with now := self.now + self.keepAliveInterval }

def round (expiresAt : ℤ) : (Except String Unit × TunnelClient) ⊕ TunnelClient :=
  if expiresAt ≤ self.now then
    .inl self.closeTunnel
  else
    let self := self.sleep
    if !self.isConnected then
      .inl (.error "SSH session to EdgeHub dropped (detected within one keepalive interval)", self)
    else
      match self.sendKeepalive with
      | (.error e, self) => .inl (.error ("SSH session lost: " ++ e), self)
      | (.ok (), self) => .inr self

end

def runUntilExpiry (expiresAt : ℤ) : ℕ → TunnelClient → Option (Except String Unit × TunnelClient)
  | 0, _ => none
  | fuel + 1, self => match self.round expiresAt with
    | .inl r => some r
    | .inr self => runUntilExpiry expiresAt fuel self

end TunnelClient

variable {session : Session} {expiresAt : ℤ} {k t : ℕ} {client after : TunnelClient} {result : Except String Unit}

structure Outlasts (session : Session) (expiresAt : ℤ) (k t : ℕ) (client : TunnelClient) (result : Except String Unit)
    (after : TunnelClient) : Prop where
  expired : result = .ok () → expiresAt ≤ after.now ∧ after.handle = none ∧ after.disconnected = true
  lost : ∀ e, result = .error e → session.isClosed after.now = true ∨
    ∃ n e', client.sent ≤ n ∧ n < after.sent ∧ (session.keepalives n).reply = .failed e'
  atOnce : expiresAt ≤ client.now → after.now = client.now
  inTime : client.now < expiresAt → after.now ≤ expiresAt + client.keepAliveInterval + k
  noticed : ∀ x, session.droppedAt = some x → after.now ≤ max t x + client.keepAliveInterval + k

lemma not_closed {x now : ℕ} (h : session.isClosed now = false) (hx : session.droppedAt = some x) : now < x := by
  simpa [Session.isClosed, hx] using h

structure GoesOn (session : Session) (expiresAt : ℤ) (k t : ℕ) (client next : TunnelClient) : Prop where
  ahead : client.now < expiresAt
  handle : next.handle = some session
  interval : next.keepAliveInterval = client.keepAliveInterval
  sent : client.sent ≤ next.sent
  later : client.now + client.keepAliveInterval ≤ next.now
  soon : next.now ≤ client.now + client.keepAliveInterval + k
  up : ∀ x, session.droppedAt = some x → next.now ≤ max t x + k

lemma round_spec (expiresAt : ℤ) (hhandle : client.handle = some session) (hk : ∀ n, (session.keepalives n).took ≤ k)
    (ht : ∀ x, session.droppedAt = some x → client.now ≤ max t x + k) :
    match client.round expiresAt with
    | .inl (result, after) => Outlasts session expiresAt k t client result after
    | .inr next => GoesOn session expiresAt k t client next := by
  unfold TunnelClient.round
  dsimp only
  split_ifs with hexpired hdropped
  · rw [TunnelClient.closeTunnel, hhandle]
    refine ⟨fun _ => ⟨hexpired, rfl, rfl⟩, by rintro e ⟨⟩, fun _ => rfl, fun hahead => absurd hahead (by omega), ?_⟩
    intro x hx
    have := ht x hx
    dsimp only
    omega
  · have hclosed : session.isClosed client.sleep.now = true := by
      simpa [TunnelClient.isConnected, TunnelClient.sleep, hhandle] using hdropped
    refine ⟨by rintro ⟨⟩, fun _ _ => .inl hclosed, fun h => absurd h hexpired, fun _ => ?_, fun x hx => ?_⟩
    · dsimp only [TunnelClient.sleep]
      omega
    · have := ht x hx
      dsimp only [TunnelClient.sleep]
      omega
  have hopen : session.isClosed client.sleep.now = false := by
    simpa [TunnelClient.isConnected, TunnelClient.sleep, hhandle] using hdropped
  have htook := hk client.sent
  have hup : ∀ x, session.droppedAt = some x → client.now + client.keepAliveInterval < x := fun x => not_closed hopen
  have hsleep : client.sleep.handle = some session := hhandle
  simp only [TunnelClient.sendKeepalive, hsleep, hopen]
  cases hreply : (session.keepalives client.sleep.sent).reply with
  | failed e =>
    refine ⟨by rintro ⟨⟩, fun _ _ => .inr ⟨client.sent, e, Nat.le_refl _, Nat.lt_succ_self _, hreply⟩,
      fun h => absurd h hexpired, fun _ => ?_, fun x hx => ?_⟩
    · dsimp only [TunnelClient.sleep]
      omega
    · have := hup x hx
      dsimp only [TunnelClient.sleep]
      omega
  | _ =>
    refine ⟨by omega, rfl, rfl, Nat.le_succ _, Nat.le_add_right _ _, Nat.add_le_add_left htook _, ?_⟩
    intro x hx
    have := hup x hx
    dsimp only [TunnelClient.sleep]
    omega

lemma loop_outlasts (hhandle : client.handle = some session) (hd : 0 < client.keepAliveInterval)
    (hk : ∀ n, (session.keepalives n).took ≤ k) (ht : ∀ x, session.droppedAt = some x → client.now ≤ max t x + k) :
    ∃ enough result after, (∀ fuel ≥ enough, client.runUntilExpiry expiresAt fuel = some (result, after)) ∧
      Outlasts session expiresAt k t client result after := by
  -- the time left shrinks by an interval a round
  generalize hleft : (expiresAt - client.now).toNat = left
  induction left using Nat.strongRecOn generalizing client with
  | _ left ih =>
    have hround := round_spec expiresAt hhandle hk ht
    cases hr : client.round expiresAt with
    | inl r =>
      rw [hr] at hround
      refine ⟨1, r.1, r.2, fun fuel hfuel => ?_, hround⟩
      obtain ⟨fuel, rfl⟩ := Nat.exists_eq_add_of_le' hfuel
      rw [TunnelClient.runUntilExpiry, hr]
    | inr next =>
      rw [hr] at hround
      obtain ⟨hahead, hnext, hsame, hsent, hlater, hsoon, hup⟩ := hround
      obtain ⟨enough, result, after, hloop, hends⟩ := ih _ (by omega) hnext (by omega) hup rfl
      refine ⟨enough + 1, result, after, fun fuel hfuel => ?_, hends.expired, ?_, by omega, ?_, ?_⟩
      · obtain ⟨fuel, rfl⟩ := Nat.exists_eq_add_of_le' (Nat.le_of_add_left_le hfuel)
        rw [TunnelClient.runUntilExpiry, hr]
        exact hloop fuel (by omega)
      · intro e he
        obtain hclosed | ⟨n, e', hn, hrest⟩ := hends.lost e he
        · exact .inl hclosed
        · exact .inr ⟨n, e', by omega, hrest⟩
      · intro _
        have hatOnce := hends.atOnce
        have hinTime := hends.inTime
        omega
      · rw [← hsame]
        exact hends.noticed

theorem runs_until_expiry (expiresAt : ℤ) (hhandle : client.handle = some session)
    (hd : 0 < client.keepAliveInterval) (hk : ∀ n, (session.keepalives n).took ≤ k) :
    ∃ enough result after, (∀ fuel ≥ enough, client.runUntilExpiry expiresAt fuel = some (result, after)) ∧
      Outlasts session expiresAt k client.now client result after :=
  loop_outlasts hhandle hd hk fun _ _ => Nat.le_trans (Nat.le_max_left _ _) (Nat.le_add_right _ _)

namespace Forwarding

def laptop : Session := ⟨some 190, fun _ => ⟨2, .refused⟩⟩

def forwarding : TunnelClient := ⟨60, some laptop, false, 0, 0⟩

end Forwarding

open Forwarding

/-- The session drops while the client sleeps after its third keepalive. -/
theorem runs_until_expiry_laptop : ∃ enough e after,
    (∀ fuel ≥ enough, forwarding.runUntilExpiry 3600 fuel = some (.error e, after)) ∧
    after.sent = 3 ∧ 190 ≤ after.now ∧ after.now ≤ 190 + 60 + 2 := by
  have hk : ∀ n, (laptop.keepalives n).took ≤ 2 := fun _ => Nat.le_refl _
  obtain ⟨enough, result, after, hrun, hends⟩ := runs_until_expiry 3600 (rfl : forwarding.handle = some laptop) (by decide) hk
  have hdrop : forwarding.runUntilExpiry 3600 (enough + 4) =
      some (.error "SSH session to EdgeHub dropped (detected within one keepalive interval)",
        { forwarding with sent := 3, now := 246 }) := rfl
  cases (hrun (enough + 4) (Nat.le_add_right _ _)).symm.trans hdrop
  exact ⟨enough, _, _, hrun, rfl, by decide, hends.noticed 190 rfl⟩

end FleetingDns.Cli
