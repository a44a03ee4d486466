import FleetingDns.CallDiscipline
import FleetingDns.HandlerFlow
namespace FleetingDns.AttemptDiscipline

open CommandPrograms ExpiringStore ThreadPool HandlerFlow

variable {call : Call} {h : List Ev} {peer : SocketAddr}

def clientOf : Call → Option SocketAddr
  | .authPublickey _ peer _ _ _ => some peer
  | _ => none

def counts : Cmd → Bool
  | .isLockedOut _ | .recordAttempt _ _ _ _ => true
  | _ => false

def evaluates : Cmd → Bool
  | .redis (.get (.session _ _)) => true
  | _ => false

def records : Cmd → Bool
  | .recordAttempt _ _ _ _ => true
  | _ => false

def evaluated (h : List Ev) : Bool := h.any fun e => evaluates e.cmd

def recorded (h : List Ev) : Bool := h.any fun e => records e.cmd

def Passed (peer : SocketAddr) (h : List Ev) : Prop := ∃ t, h.head? = some ⟨t, .isLockedOut peer, false⟩

def Attempts (call : Call) (h : List Ev) (c : Cmd) : Prop :=
  match clientOf call with
  | none => counts c = false
  | some peer => (h = [] ∧ c = .isLockedOut peer) ∨ (Passed peer h ∧ recorded h = false ∧
      (evaluates c = true → evaluated h = false) ∧
      (counts c = true → ∃ success serial reason, c = .recordAttempt peer success serial reason))

def Concludes (call : Call) (h : List Ev) (_ : Done) : Prop :=
  (clientOf call).isSome = true → evaluated h = true → recorded h = true

section

lemma consults_uncounted (c : Cmd) (hc : consults c = true) : counts c = false := by
  cases c <;> first | rfl | cases hc

lemma obeys_of_only {p : Program Done} (hc : clientOf call = none) (hp : Only (fun c => counts c = false) p) :
    Obeys (Attempts call) (Concludes call) p h := by
  have hm : Abides (Attempts call) p h := by
    refine meets_of_only ?_ hp h
    intro h c hcmd
    unfold Attempts
    rw [hc]
    exact hcmd
  refine meets_mono (fun _ _ hm => hm) ?_ hm
  rintro h d - hs
  rw [hc] at hs
  cases hs

lemma Passed.snoc {e : Ev} (hp : Passed peer h) : Passed peer (h ++ [e]) := by
  obtain ⟨t, ht⟩ := hp
  obtain ⟨l, rfl⟩ := List.head?_eq_some_iff.mp ht
  exact ⟨t, rfl⟩

lemma evaluated_snoc {e : Ev} : evaluated (h ++ [e]) = (evaluated h || evaluates e.cmd) := by
  simp [evaluated]

lemma recorded_snoc {e : Ev} : recorded (h ++ [e]) = (recorded h || records e.cmd) := by
  simp [recorded]

lemma attempts_passed {c : Cmd} (hcall : clientOf call = some peer) (hpass : Passed peer h) (hr : recorded h = false)
    (he : evaluates c = true → evaluated h = false) (hc : counts c = false) : Attempts call h c := by
  unfold Attempts
  rw [hcall]
  exact .inr ⟨hpass, hr, he, by simp [hc]⟩

lemma obeys_keyAccepted (hcall : clientOf call = some peer) (hpass : Passed peer h) (hr : recorded h = false)
    (he : evaluated h = false) (config : HubConfig) (publicKey id : String) :
    Obeys (Attempts call) (fun h' _ => Passed peer h' ∧ recorded h' = false)
      (keyAccepted config publicKey id) h := by
  unfold keyAccepted
  obtain _ | keyPrefix := config.redisAuthHandler
  · exact .ret ⟨hpass, hr⟩
  refine meets_seq (M := fun h' _ => Passed peer h' ∧ recorded h' = false) ?_ ?_
  · refine meets_ask (attempts_passed hcall hpass hr (fun _ => he) rfl) ?_
    intro t r
    have hpass1 : Passed peer (h ++ [⟨t, .redis (.get (.session keyPrefix id)), r⟩]) := hpass.snoc
    have hr1 : recorded (h ++ [⟨t, .redis (.get (.session keyPrefix id)), r⟩]) = false := by
      rw [recorded_snoc, hr]
      rfl
    split
    · exact .ret ⟨hpass1, hr1⟩
    · exact .ret ⟨hpass1, hr1⟩
    · split
      · exact .ret ⟨hpass1, hr1⟩
      · refine meets_ask (attempts_passed hcall hpass1 hr1 (by rintro ⟨⟩) rfl) ?_
        intro t' now
        split_ifs <;> exact .ret ⟨hpass1.snoc, by rw [recorded_snoc, hr1]; rfl⟩
  · rintro h' r hq
    cases r <;> exact .ret hq

lemma obeys_authPublickey (sid : ℕ) (peer : SocketAddr) (serial : Option String) (user publicKey : String)
    (config : HubConfig) :
    Obeys (Attempts (.authPublickey sid peer serial user publicKey))
      (fun h _ => evaluated h = true → recorded h = true) (authPublickey config peer serial user publicKey) [] := by
  refine .call (.inl ⟨rfl, rfl⟩) ?_
  rintro lockedOut _ ⟨t, rfl⟩
  cases lockedOut with
  | true => exact .ret (by rintro ⟨⟩)
  | false =>
    have hpass : Passed peer [⟨t, .isLockedOut peer, false⟩] := ⟨t, rfl⟩
    change Obeys _ _ (if !isValidSessionId (sessionIdOf user) then return (Auth.reject, serial) else _) _
    split_ifs
    · exact .ret (by rintro ⟨⟩)
    refine meets_seq (obeys_keyAccepted rfl hpass rfl rfl config publicKey (sessionIdOf user)) ?_
    rintro h accepted ⟨hpass', hr⟩
    refine .call (.inr ⟨hpass', hr, by rintro ⟨⟩, fun _ => ⟨_, _, _, rfl⟩⟩) ?_
    rintro r _ ⟨t', rfl⟩
    have hdone : recorded (h ++ [⟨t', .recordAttempt peer accepted (some (sessionIdOf user))
        (if accepted = true then none else some "key validation failed"), r⟩]) = true := by
      rw [recorded_snoc]
      exact Bool.or_true _
    cases r with
    | none => exact .ret fun _ => hdone
    | some => cases accepted <;> exact .ret fun _ => hdone

lemma call_attempts (config : Config) (call : Call) :
    Obeys (Attempts call) (Concludes call) (call.program config) [] := by
  cases call with
  | authPublickey sid peer serial user publicKey =>
    exact meets_seq (obeys_authPublickey sid peer serial user publicKey config.hub) fun _ _ hq => .ret fun _ => hq
  | createTunnel user request =>
    have hP : ∀ c, CreateFlow.plain c = true → counts c = false := by
      intro c hc
      cases c <;> first | rfl | cases hc
    have hcreate := CreateFlow.only_createTunnel hP (fun _ => rfl) (fun _ _ _ => rfl) config.api user request
    exact obeys_of_only rfl (only_bind hcreate fun _ => .ret)
  | deleteTunnel user id =>
    have hdelete := only_deleteTunnel (P := fun c => counts c = false) (fun _ => rfl) (fun _ => rfl)
      (fun _ _ => rfl) user id
    exact obeys_of_only rfl (only_bind hdelete fun _ => .ret)
  | createTunnelSession user id =>
    have hsession := only_mono consults_uncounted (consults_createTunnelSession user id)
    exact obeys_of_only rfl (only_bind hsession fun _ => .ret)
  | tcpipForward sid serial port =>
    have hforward := only_mono consults_uncounted (consults_tcpipForward config.hub serial port)
    exact obeys_of_only rfl (only_bind hforward fun _ => .ret)
  | route sni =>
    have hroute := only_mono consults_uncounted (consults_route sni)
    exact obeys_of_only rfl (only_bind hroute fun _ => .ret)

end

end FleetingDns.AttemptDiscipline
