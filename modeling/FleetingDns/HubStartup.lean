import FleetingDns.CertificateAuthority
import FleetingDns.HubSteps
import FleetingDns.Origins
namespace FleetingDns.HubStartup

open CommandPrograms ExpiringStore ThreadPool GuardedRuns World Origins List Hub Shared

structure SshConfig where
  caConfig : Option EdfCa.Config
  (maxAuthAttempts authLockoutDuration : ℕ)
  redisUrl : Option String
  redisAuthEnabled : Bool
  redisKeyPrefix : String
  insecureAcceptAllKeys : Bool

structure StartUp where
  (hostKey certificateAuthority authPool lookupPool : Except String Unit)

namespace SshServer

def redisAuthHandler (config : SshConfig) (up : StartUp) : Option String :=
  if config.redisAuthEnabled then
    match config.redisUrl with
    | some _ =>
      match up.authPool with
      | .ok _ => some config.redisKeyPrefix
      | .error _ => none
    | none => none
  else none

def redisPool (config : SshConfig) (up : StartUp) : Bool :=
  match config.redisUrl with
  | some _ =>
    match up.lookupPool with
    | .ok _ => true
    | .error _ => false
  | none => false

def new (fingerprint : String → String) (config : SshConfig) (up : StartUp) : Except String HubConfig := do
  up.hostKey
  match config.caConfig with
  | some _ =>
    match up.certificateAuthority with
    | .ok _ => pure ()
    | .error _ => throw "Failed to initialize certificate authority"
  | none => pure ()
  return ⟨redisAuthHandler config up, redisPool config up, config.insecureAcceptAllKeys, config.maxAuthAttempts,
    config.authLockoutDuration, fingerprint⟩

lemma new_ok {fingerprint : String → String} {config : SshConfig} {up : StartUp} {hub : HubConfig}
    (h : new fingerprint config up = .ok hub) : hub.redisAuthHandler = redisAuthHandler config up ∧
      hub.redisPool = redisPool config up ∧ hub.insecureAcceptAllKeys = config.insecureAcceptAllKeys := by
  obtain ⟨hostKey, ca, authPool, lookupPool⟩ := up
  rcases hostKey with e | _
  · cases h
  cases hca : config.caConfig with
  | none =>
    simp only [new, hca] at h
    cases h
    exact ⟨rfl, rfl, rfl⟩
  | some =>
    rcases ca with e | _
    · simp only [new, hca] at h
      cases h
    · simp only [new, hca] at h
      cases h
      exact ⟨rfl, rfl, rfl⟩

end SshServer

variable {config : Config} {w w' : World} {a : Action} {sid : ℕ} {id : String}

def AuthenticatedAs (w : World) (sid : ℕ) (id : String) : Prop :=
  ∃ (tid : ℕ) (th : CallThread) (peer : SocketAddr) (serial : Option String) (user publicKey : String) (t : Span Shared),
    w.threads[tid]? = some th ∧ th.call = .authPublickey sid peer serial user publicKey ∧ sessionIdOf user = id ∧
    (⟨t, .recordAttempt peer true (some id) none, some ()⟩ : Ev) ∈ th.history

lemma authenticatedAs_step (h : step config w a = some w') (ha : AuthenticatedAs w sid id) :
    AuthenticatedAs w' sid id := by
  obtain ⟨tid, th, peer, serial, user, publicKey, t, hth, hcall, hid, he⟩ := ha
  obtain ⟨th', hth', hcall', hsub⟩ := thread_kept h hth
  exact ⟨tid, th', peer, serial, user, publicKey, t, hth', hcall'.trans hcall, hid, hsub he⟩

/-! ### What an authentication records -/

def MayRecord (config : Config) : Call → List Ev → Cmd → Prop
  | .authPublickey _ _ _ _ _, _, .recordAttempt _ success _ _ =>
    success = true → config.hub.redisAuthHandler = none → config.hub.insecureAcceptAllKeys = true
  | _, _, _ => True

def Settled (peer : SocketAddr) (serial : Option String) (user : String) (h : List Ev) (auth : Auth)
    (serial' : Option String) : Prop :=
  (auth = .accept → serial' = some (sessionIdOf user) ∧
    ∃ t, (⟨t, .recordAttempt peer true (some (sessionIdOf user)) none, some ()⟩ : Ev) ∈ h) ∧
  (auth ≠ .accept → serial' = serial)

def Concludes : Call → List Ev → Done → Prop
  | .authPublickey _ peer serial user _, h, .authenticated auth serial' => Settled peer serial user h auth serial'
  | _, _, _ => True

section

variable {h : List Ev} {peer : SocketAddr} {serial : Option String} {user publicKey : String}

lemma settled_rejected {auth : Auth} (ha : auth ≠ .accept) : Settled peer serial user h auth serial :=
  ⟨fun hacc => absurd hacc ha, fun _ => rfl⟩

lemma records_keyAccepted (sessionId : String) :
    Obeys (MayRecord config (.authPublickey sid peer serial user publicKey))
      (fun _ accepted => accepted = true → config.hub.redisAuthHandler = none → config.hub.insecureAcceptAllKeys = true)
      (keyAccepted config.hub publicKey sessionId) h := by
  unfold keyAccepted
  rcases hk : config.hub.redisAuthHandler with _ | _
  · exact meets_pure fun hinsecure _ => hinsecure
  refine meets_seq (M := fun _ _ => True) ?_ ?_
  · refine meets_ask trivial fun t data => ?_
    split
    · exact meets_throw trivial
    · exact meets_except_pure trivial
    · split
      · exact meets_throw trivial
      · refine meets_ask trivial fun t' now => ?_
        split_ifs <;> exact meets_except_pure trivial
  · intro h' r _
    cases r <;> exact meets_pure (by rintro _ ⟨⟩)

lemma records_authPublickey :
    Obeys (MayRecord config (.authPublickey sid peer serial user publicKey))
      (fun h r => Settled peer serial user h r.1 r.2) (authPublickey config.hub peer serial user publicKey) [] := by
  refine meets_issue trivial ?_
  rintro lockedOut h1 -
  dsimp only
  split_ifs
  · exact meets_pure (settled_rejected (by rintro ⟨⟩))
  · exact meets_pure (settled_rejected (by rintro ⟨⟩))
  refine meets_seq (records_keyAccepted (sessionIdOf user)) ?_
  intro h2 accepted haccepted
  refine meets_issue haccepted ?_
  rintro recorded _ ⟨t, rfl⟩
  cases recorded with
  | none => exact meets_pure (settled_rejected (by rintro ⟨⟩))
  | some =>
    split_ifs with hacc
    · subst hacc
      exact meets_pure ⟨fun _ => ⟨rfl, t, by simp⟩, fun hne => absurd rfl hne⟩
    · exact meets_pure (settled_rejected (by rintro ⟨⟩))

lemma call_records (call : Call) : Obeys (MayRecord config call) (Concludes call) (call.program config) [] := by
  cases call with
  | authPublickey => exact meets_seq records_authPublickey fun _ _ hs => meets_pure hs
  | _ => exact meets_any (fun _ _ => trivial) (fun _ _ => trivial) _ _

end

/-! ### The identities of the sessions -/

def serials (hub : Hub) : List (Option String) := hub.sessions.map (·.clientCertificateSerial)

section

variable {hub hub' : Hub} {session session' : SshSession}

lemma serials_set (h : hub'.sessions = hub.sessions.set sid session') (hs : hub.sessions[sid]? = some session)
    (hc : session'.clientCertificateSerial = session.clientCertificateSerial) : serials hub' = serials hub := by
  rw [serials, h, map_set, hc]
  apply ext_getElem?
  intro i
  by_cases hi : sid = i
  · subst hi
    rw [List.getElem?_set_self (by simpa using (List.getElem?_eq_some_iff.mp hs).1), serials, List.getElem?_map, hs]
    rfl
  · rw [List.getElem?_set_ne hi]
    rfl

lemma serials_closeSlot {port : ℕ} (h : hub.closeSlot sid port = some hub') : serials hub' = serials hub := by
  obtain ⟨session, handles, hs, -, rfl⟩ := closeSlot_some h
  exact serials_set rfl hs rfl

lemma serials_setSession (hub : Hub) (sid : ℕ) (f : SshSession → SshSession) (g : Option String → Option String)
    (hf : ∀ session, (f session).clientCertificateSerial = g session.clientCertificateSerial) :
    serials (hub.setSession sid f) = (serials hub).modify sid g := by
  apply ext_getElem?
  intro i
  rw [serials, List.getElem?_map, getElem?_setSession, List.getElem?_modify, serials, List.getElem?_map]
  cases hub.sessions[i]? with
  | none => rfl
  | some =>
    by_cases hi : sid = i
    · simp [hi, hf]
    · simp [hi]

lemma serials_dropSession (hub : Hub) (sid : ℕ) : serials (hub.dropSession sid) = serials hub := by
  have hset := serials_setSession (hub.closeAll sid (hub.ports sid)) sid
    (fun session => { session with connected := false }) id fun _ => rfl
  rw [modify_id] at hset
  refine hset.trans ?_
  exact closeAll_induct
    (fun _ _ _ hub hc => (serials_closeSlot hc).trans hub) _ rfl

lemma serials_cancel (hub : Hub) (sid port : ℕ) : serials (hub.cancelTcpipForward sid port).1 = serials hub := by
  unfold cancelTcpipForward
  cases hc : hub.closeSlot sid (port % 65536) with
  | none => rfl
  | some => exact serials_closeSlot hc

end

def Leaves (w' : World) (sid : ℕ) (serial' : Option String) : Prop :=
  ∃ (tid : ℕ) (th : CallThread) (peer : SocketAddr) (serial : Option String) (user publicKey : String) (auth : Auth),
    w'.threads[tid]? = some th ∧ th.call = .authPublickey sid peer serial user publicKey ∧
    Concludes th.call th.history (.authenticated auth serial')

variable {call : Call} {o : Choice} {tid now port : ℕ} {th : CallThread} {G : World → Action → Prop}
    {boundAs : Option String}

lemma serials_perform {s s' : Shared} {c : Cmd} {r : c.Reply} (h : s.perform config call c o = some (s', r)) :
    serials s'.hub = serials s.hub := by
  by_cases hc : ∃ port policy live, c = .bindSlot port policy live
  · obtain ⟨port, policy, live, rfl⟩ := hc
    obtain ⟨reply, hb⟩ := perform_bind h
    obtain ⟨-, ⟨rfl, -⟩ | ⟨sid, serial, requested, p, hub, -, -, -, -, hopen, rfl⟩⟩ := bind_eq hb
    · rfl
    · obtain ⟨session, tasks, handles, hs, -, -, rfl⟩ := openSlot_some hopen
      exact serials_set rfl hs rfl
  · rw [(perform_frame h).2.2.2 fun port policy live heq => hc ⟨port, policy, live, heq⟩]

lemma serials_exec (hd : Disciplined (MayRecord config) Concludes w.threads)
    (h : step config w (.exec tid o) = some w') :
    serials w'.shared.hub = serials w.shared.hub ∨
      ∃ sid serial', Leaves w' sid serial' ∧
        serials w'.shared.hub = (serials w.shared.hub).modify sid fun _ => serial' := by
  cases step_effect h with
  | quiet threads store usedIds now idle => exact absurd rfl (idle tid o)
  | @exec _ _ th c k s r thread prog perform eq =>
    have hkept := serials_perform perform
    have hth : w'.threads[tid]? = some (th.advance ⟨w.shared, s⟩ c k r) := by
      rw [eq, List.getElem?_set_self (List.getElem?_eq_some_iff.mp thread).1]
    have hends := hd.advance thread prog ⟨w.shared, s⟩ r
    have hhub : w'.shared.hub = (settle complete th.call s (k r)).hub := by rw [eq]
    rw [hhub, ← hkept]
    cases hp : k r with
    | call => exact .inl rfl
    | ret x =>
      cases hcall : th.call with
      | authPublickey sid peer serial user publicKey =>
        cases x with
        | authenticated auth serial' =>
          rw [hp] at hends
          refine .inr ⟨sid, serial', ⟨tid, th.advance ⟨w.shared, s⟩ c k r, peer, serial, user, publicKey, auth, hth, hcall,
            meets_ret hends⟩, ?_⟩
          exact serials_setSession s.hub sid _ (fun _ => serial') fun _ => rfl
        | _ => exact .inl rfl
      | _ => exact .inl rfl

lemma serials_step (hd : Disciplined (MayRecord config) Concludes w.threads) (h : step config w a = some w') :
    serials w'.shared.hub = serials w.shared.hub ∨ serials w'.shared.hub = serials w.shared.hub ++ [none] ∨
      ∃ sid serial', Leaves w' sid serial' ∧
        serials w'.shared.hub = (serials w.shared.hub).modify sid fun _ => serial' := by
  by_cases ha : ∃ tid o, a = .exec tid o
  · obtain ⟨tid, o, rfl⟩ := ha
    exact (serials_exec hd h).imp_right .inr
  cases hub_step h with
  | same eq => exact .inl (by rw [eq])
  | connect eq => exact .inr (.inl (by rw [eq, serials, map_append]; rfl))
  | bind | authenticated => exact absurd ⟨_, _, rfl⟩ ha
  | sshEnd idle eq => exact .inl (by rw [eq, serials_dropSession])
  | cancel idle eq => exact .inl (by rw [eq, serials_cancel])
  | reap reaps =>
    obtain ⟨handles, -, heq⟩ := reaperPoll_some reaps
    exact .inl (by rw [heq]; rfl)
  | activity eq => exact .inl (by rw [eq]; rfl)

def identity : Call → Option (ℕ × String)
  | .authPublickey sid _ (some id) _ _ | .tcpipForward sid (some id) _ => some (sid, id)
  | _ => none

structure Credible (w : World) : Prop where
  sessions : ∀ sid id, (serials w.shared.hub)[sid]? = some (some id) → AuthenticatedAs w sid id
  calls : ∀ (tid : ℕ) (th : CallThread) (sid : ℕ) (id : String), w.threads[tid]? = some th →
    identity th.call = some (sid, id) → AuthenticatedAs w sid id

lemma admits_identity (h : w.admits call = true) (hid : identity call = some (sid, id)) :
    (serials w.shared.hub)[sid]? = some (some id) := by
  have hserial : (w.shared.hub.sessions[sid]?.any fun session => session.clientCertificateSerial = some id) = true := by
    unfold identity at hid
    split at hid
    · cases hid
      simp only [admits, Bool.and_eq_true, Option.any_eq_true] at h ⊢
      obtain ⟨-, session, hs, -, hc⟩ := h
      exact ⟨session, hs, hc⟩
    · cases hid
      exact (Bool.and_eq_true_iff.mp h).2
    · cases hid
  simp only [Option.any_eq_true, decide_eq_true_eq] at hserial
  obtain ⟨session, hs, hc⟩ := hserial
  rw [serials, List.getElem?_map, hs, Option.map_some, hc]

lemma call_credible (hc : Credible w) (h : step config w a = some w') (hth : w'.threads[tid]? = some th)
    (hid : identity th.call = some (sid, id)) : AuthenticatedAs w' sid id := by
  apply authenticatedAs_step h
  obtain ⟨hold, -⟩ | ⟨call, -, hadm, -, rfl⟩ | ⟨o, u, c, k, s, r, -, hold, -, -, -, rfl⟩ | ⟨u, -, hold, rfl⟩ :=
    thread_step h hth
  · exact hc.calls tid th sid id hold hid
  · exact hc.sessions sid id (admits_identity hadm hid)
  · exact hc.calls tid u sid id hold hid
  · exact hc.calls tid u sid id hold hid

lemma leaves_authenticated (hc : Credible w) (h : step config w a = some w') (hl : Leaves w' sid (some id)) :
    AuthenticatedAs w' sid id := by
  obtain ⟨tid, th, peer, serial, user, publicKey, auth, hth, hcall, hends⟩ := hl
  rw [hcall] at hends
  by_cases hacc : auth = .accept
  · obtain ⟨heq, t, he⟩ := hends.1 hacc
    cases heq
    exact ⟨tid, th, peer, serial, user, publicKey, t, hth, hcall, rfl, he⟩
  · have hserial := hends.2 hacc
    refine call_credible hc h hth ?_
    rw [hcall, ← hserial]
    rfl

lemma credible_step (hd : Disciplined (MayRecord config) Concludes w.threads) (hc : Credible w)
    (h : step config w a = some w') : Credible w' := by
  refine ⟨?_, fun tid th sid id hth hid => call_credible hc h hth hid⟩
  intro sid id hid
  obtain heq | heq | ⟨sid', serial', hl, heq⟩ := serials_step hd h
  · exact authenticatedAs_step h (hc.sessions sid id (heq ▸ hid))
  · rw [heq] at hid
    obtain hid | ⟨-, ⟨⟩⟩ := getElem?_snoc hid
    exact authenticatedAs_step h (hc.sessions sid id hid)
  rw [heq, List.getElem?_modify] at hid
  obtain ⟨old, hold, hnew⟩ := Option.map_eq_some_iff.mp hid
  split_ifs at hnew with hsid
  · subst hsid
    subst hnew
    exact leaves_authenticated hc h hl
  · subst hnew
    exact authenticatedAs_step h (hc.sessions sid id hold)

lemma reach_credible (h : Reach (step config) G (init now) w) : Credible w := by
  refine h.invariant
    (fun _ hr => reach_disciplined call_records hr) ?_ fun _ _ _ hd hc _ hs => credible_step hd hc hs
  exact ⟨by rintro sid id ⟨⟩, by rintro tid th sid id ⟨⟩⟩

/-! ### Listeners -/

/-- The SSH layer hands on a forward request only once the client has authenticated. -/
def authenticatedFirst (_ : World) : Action → Bool
  | .arrive (.tcpipForward _ serial _) => serial.isSome
  | _ => true

def Consulted (w : World) (sid : ℕ) (tunnel : Tunnel) : Prop :=
  ∃ (tid : ℕ) (th : CallThread) (requested : ℕ) (t : Span Shared) (d : Option ℕ), w.threads[tid]? = some th ∧
    th.call = .tcpipForward sid (some tunnel.id) requested ∧
    (⟨t, .redis (.get (.tunnel tunnel.id)), .ok (some (.tunnel tunnel))⟩ : Ev) ∈ th.history ∧
    t.before.store.lookup (.tunnel tunnel.id) = some ⟨.tunnel tunnel, d⟩

def Owned (w : World) (sid port : ℕ) (boundAs : Option String) : Prop :=
  ∃ tunnel : Tunnel, boundAs = some tunnel.id ∧ tunnel.slot = port ∧ AuthenticatedAs w sid tunnel.id ∧
    Consulted w sid tunnel

lemma owned_step (h : step config w a = some w') (ho : Owned w sid port boundAs) : Owned w' sid port boundAs := by
  obtain ⟨tunnel, hbound, hslot, hauth, tid, th, requested, t, d, hth, hcall, he, hlook⟩ := ho
  obtain ⟨th', hth', hcall', hsub⟩ := thread_kept h hth
  exact ⟨tunnel, hbound, hslot, authenticatedAs_step h hauth, tid, th', requested, t, d, hth', hcall'.trans hcall,
    hsub he, hlook⟩

lemma handler_of_authenticated (hsecure : config.hub.insecureAcceptAllKeys = false)
    (h : Reach (step config) G (init now) w) (ha : AuthenticatedAs w sid id) : config.hub.redisAuthHandler ≠ none := by
  obtain ⟨tid, th, peer, serial, user, publicKey, t, hth, hcall, -, he⟩ := ha
  obtain ⟨h1, h2, heq⟩ := append_of_mem he
  have hmay := reach_permitted call_records h hth h1 _ h2 heq
  rw [hcall] at hmay
  intro hnone
  have hinsecure : config.hub.insecureAcceptAllKeys = true := hmay rfl hnone
  rw [hsecure] at hinsecure
  cases hinsecure

lemma forward_identified (h : Reach (step config) (authenticatedFirst · ·) (init now) w)
    (hth : w.threads[tid]? = some th) {serial : Option String} {requested : ℕ}
    (hcall : th.call = .tcpipForward sid serial requested) : serial.isSome = true := by
  induction h generalizing th with
  | refl => cases hth
  | tail _ hg hs ih =>
    obtain ⟨hold, -⟩ | ⟨call, rfl, -, -, rfl⟩ | ⟨o, u, c, k, s, r, -, hold, -, -, -, rfl⟩ | ⟨u, -, hold, rfl⟩ :=
      thread_step hs hth
    · exact ih hold hcall
    · have hcall' : call = _ := hcall
      subst hcall'
      exact hg
    · exact ih hold hcall
    · exact ih hold hcall

lemma owned_bind (hsecure : config.hub.insecureAcceptAllKeys = false)
    (hpool : config.hub.redisAuthHandler ≠ none → config.hub.redisPool = true)
    (h : Reach (step config) (authenticatedFirst · ·) (init now) w) {requested p : ℕ} {serial live : Option String}
    {policy : TeardownPolicy} (hi : w.Issues tid th (.bindSlot port policy live))
    (hcall : th.call = .tcpipForward sid serial requested) (hp : port ≠ 0 → p = port) {session : SshSession}
    (hsession : w.shared.hub.sessions[sid]? = some session) : Owned w sid p session.clientCertificateSerial := by
  obtain ⟨id, rfl⟩ := Option.isSome_iff_exists.mp (forward_identified h hi.1 hcall)
  have hauth : AuthenticatedAs w sid id := (reach_credible h).calls tid th sid id hi.1 (by rw [hcall]; rfl)
  have hs := reach_sane h
  obtain ⟨_, _, _, hcall', -, hm⟩ := hs.may hi
  rw [hcall] at hcall'
  cases hcall'
  -- nobody is authenticated without a handler, and with one the pool for the lookups is there
  obtain ⟨id', tunnel, hread, hslot, heq, -⟩ := hm (hpool (handler_of_authenticated hsecure h hauth))
  cases heq
  obtain ⟨hw, rfl⟩ := (reach_origins h).read tid th id' tunnel hi.1 hread
  have hrange := (written_slot hs hw).1
  obtain ⟨session', hsession', -, hident⟩ := (reach_handlers h).attended tid th sid hi.1 hi.inFlight (by rw [hcall]; rfl)
  rw [hsession, Option.some.injEq] at hsession'
  subst hsession'
  obtain ⟨t, he⟩ := hread
  obtain ⟨⟨o, hget⟩, -⟩ := hs.performed tid th _ hi.1 he
  obtain ⟨o', st, hget, -⟩ := perform_redis hget
  obtain ⟨⟨v, d⟩, hlook, hv⟩ := Option.map_eq_some_iff.mp (perform_get hget).2.symm
  have hv' : v = .tunnel tunnel := hv
  subst hv'
  refine ⟨tunnel, hident _ _ hcall, ?_, hauth, tid, th, requested, t, d, hi.1, hcall, he, hlook⟩
  rw [hp (by omega), hslot]

def AllOwned (w : World) : Prop := ∀ task ∈ w.shared.hub.tasks, ∀ boundAs live activity,
  task.job = .accept boundAs live activity → Owned w task.session task.port boundAs

section

variable (hsecure : config.hub.insecureAcceptAllKeys = false)
  (hpool : config.hub.redisAuthHandler ≠ none → config.hub.redisPool = true)
  (h : Reach (step config) (authenticatedFirst · ·) (init now) w)

include hsecure hpool h

lemma allOwned_step (hs : step config w a = some w') (ho : AllOwned w) : AllOwned w' := by
  intro task ht boundAs live activity hj
  apply owned_step hs
  obtain ⟨i, hi⟩ := List.getElem?_of_mem ht
  obtain haged | ⟨tid, o, th, sid, serial, requested, port, policy, live', p, session, -, hissues, hcall, hport, -,
      hsession, htasks⟩ := tasks_step hs
  · obtain ⟨task0, ht0, hages⟩ := haged.before hi
    obtain ⟨activity', hj0⟩ := Job.role_accept (hages.role ▸ congrArg Job.role hj)
    rw [hages.session, hages.port]
    exact ho task0 (mem_of_getElem? ht0) boundAs live activity' hj0
  rw [htasks, mem_append] at ht
  obtain hold | hnew := ht
  · exact ho task hold boundAs live activity hj
  · have htask := spawned_accept hnew hj
    subst htask
    cases hj
    exact owned_bind hsecure hpool h hissues hcall hport hsession

lemma reach_allOwned : AllOwned w := by
  refine h.invariant (fun _ hr => hr) ?_
    fun _ _ _ hr ho _ hs => allOwned_step hsecure hpool hr hs ho
  rintro task ⟨⟩

end

theorem start_up_fails_closed {ssh : SshConfig} {up : StartUp} {fingerprint : String → String} {now : ℕ}
    (hurl : ssh.redisUrl.isSome = true) (hsecure : ssh.insecureAcceptAllKeys = false)
    (hnew : SshServer.new fingerprint ssh up = .ok config.hub)
    (hpools : ssh.redisAuthEnabled = true → up.authPool = .ok () → up.lookupPool = .ok ())
    (h : Reach (step config) (authenticatedFirst · ·) (init now) w) {task : Task} (ht : task ∈ w.shared.hub.tasks)
    {boundAs live : Option String} {activity : SlotActivity} (hj : task.job = .accept boundAs live activity) :
    Owned w task.session task.port boundAs := by
  obtain ⟨hhandler, hpool, hinsecure⟩ := SshServer.new_ok hnew
  refine reach_allOwned (hinsecure.trans hsecure) ?_ h task ht boundAs live activity hj
  intro hne
  obtain ⟨url, hurl⟩ := Option.isSome_iff_exists.mp hurl
  rw [hhandler, SshServer.redisAuthHandler, hurl] at hne
  rw [hpool, SshServer.redisPool, hurl]
  split_ifs at hne with henabled
  · cases hauth : up.authPool with
    | ok => rw [hpools henabled hauth]
    | error => simp [hauth] at hne
  · exact absurd rfl hne

open Schedule

def ssh : SshConfig := ⟨none, 3, 300 * second, some "redis://127.0.0.1/", true, "session", false⟩

def allUp : StartUp := ⟨.ok (), .ok (), .ok (), .ok ()⟩

def listensAs (id : String) (task : Task) : Bool := match task.job with
  | .accept boundAs _ _ => task.running && boundAs = some id
  | _ => false

lemma listensAs_accept {task : Task} (h : listensAs id task = true) :
    ∃ live activity, task.running = true ∧ task.job = .accept (some id) live activity := by
  unfold listensAs at h
  split at h
  · rename_i boundAs live activity hj
    simp only [Bool.and_eq_true, decide_eq_true_eq] at h
    exact ⟨live, activity, h.1, h.2 ▸ hj⟩
  · cases h

theorem start_up_fails_closed_served : ∃ w task live activity,
    SshServer.new deployment.hub.fingerprint ssh allUp = .ok deployment.hub ∧
    Reach (step deployment) (authenticatedFirst · ·) start w ∧ task ∈ w.shared.hub.tasks ∧ task.running = true ∧
    task.job = .accept (some "a") live activity ∧ Owned w task.session task.port (some "a") := by
  obtain ⟨w, h, hw⟩ := reach_of_check (step deployment) (authenticatedFirst · ·) start
    (serve (request 1800 "demo") 10000 "a" "ka") (fun w => w.shared.hub.tasks.any (listensAs "a")) (by decide +kernel)
  obtain ⟨task, ht, hl⟩ := any_eq_true.mp hw
  obtain ⟨live, activity, hr, hj⟩ := listensAs_accept hl
  have hnew : SshServer.new deployment.hub.fingerprint ssh allUp = .ok deployment.hub := rfl
  exact ⟨w, task, live, activity, hnew, h, ht, hr, hj, start_up_fails_closed rfl rfl hnew (fun _ _ => rfl) h ht hj⟩

def unconsulted (w : World) : Bool := w.threads.all fun th => match th.call with
  | .tcpipForward _ _ _ => th.history.all fun e => match e.cmd with
    | .redis _ => false
    | _ => true
  | _ => true

lemma not_owned (h : unconsulted w = true) : ¬ Owned w sid port boundAs := by
  rintro ⟨tunnel, -, -, -, tid, th, requested, t, d, hth, hcall, he, -⟩
  have hthread := all_eq_true.mp h th (mem_of_getElem? hth)
  rw [hcall] at hthread
  cases all_eq_true.mp hthread _ he

def halfUp : StartUp := ⟨.ok (), .ok (), .ok (), .error "connection refused"⟩

def degraded : Config := ⟨deployment.api, { deployment.hub with redisPool := false }⟩

theorem slot_of_another_bound : SshServer.new degraded.hub.fingerprint ssh halfUp = .ok degraded.hub ∧
    ∃ w, Reach (step degraded) (authenticatedFirst · ·) start w ∧ ∃ task ∈ w.shared.hub.tasks, ∃ live activity,
      task.running = true ∧ task.job = .accept (some "b") live activity ∧
      ¬ Owned w task.session task.port (some "b") ∧
      ∃ tunnel d, w.entry (.tunnel "a") = some ⟨.tunnel tunnel, d⟩ ∧ tunnel.slot = task.port := by
  refine ⟨rfl, ?_⟩
  obtain ⟨w, h, hw⟩ := reach_of_check (step degraded) (authenticatedFirst · ·) start
    ([.arrive (.createTunnel alice (request 1800 "demo"))] ++ create 0 10000 "a" "ka"
      ++ [.arrive (.createTunnel bob (request 1800 "shop"))] ++ create 1 10001 "b" "kb"
      ++ [.sshConnect laptop, .arrive (.authPublickey 0 laptop none "tunnel-b" "kb")] ++ authenticate 2
      ++ [.arrive (.tcpipForward 0 (some "b") 10000), .exec 3 (.bind (.bound 10000))])
    (fun w => unconsulted w && w.shared.hub.tasks.any fun task => listensAs "b" task &&
      (w.entry (.tunnel "a")).any fun e => e.value.asTunnel.any fun tunnel => tunnel.slot = task.port)
    (by decide +kernel)
  rw [Bool.and_eq_true, any_eq_true] at hw
  obtain ⟨hnot, task, ht, hl⟩ := hw
  rw [Bool.and_eq_true] at hl
  obtain ⟨hl, he⟩ := hl
  obtain ⟨live, activity, hr, hj⟩ := listensAs_accept hl
  simp only [Option.any_eq_true, decide_eq_true_eq] at he
  obtain ⟨⟨v, d⟩, he, tunnel, hv, hslot⟩ := he
  obtain rfl := Value.asTunnel_some hv
  exact ⟨w, h, task, ht, live, activity, hr, hj, not_owned hnot, tunnel, d, he, hslot⟩

end FleetingDns.HubStartup
