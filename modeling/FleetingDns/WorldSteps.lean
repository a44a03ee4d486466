import FleetingDns.HandlerDisciplines
namespace FleetingDns

open CommandPrograms ExpiringStore ThreadPool Option Shared Thread

namespace Shared

variable {config : Config} {s s' : Shared} {call : Call} {o : Choice}

lemma perform_redis {c : StoreCmd Key Value} {r : Except String c.Reply}
    (h : s.perform config call (.redis c) o = some (s', r)) :
    ∃ o' st, ExpiringStore.perform s.now s.store c o' = some (st, r) ∧ s' = { s with store := st } := by
  cases o with
  | redis o' =>
    simp only [perform, map_eq_some_iff] at h
    obtain ⟨⟨st, r'⟩, hp, rfl, rfl⟩ := h
    exact ⟨o', st, hp, rfl⟩
  | _ => simp [perform] at h

variable {port : ℕ} {policy : TeardownPolicy} {live : Option String}

lemma bind_eq {reply r : BindReply} (h : s.bind call port policy live reply = some (s', r)) :
    r = reply ∧ ((s' = s ∧ ∀ p, r ≠ .bound p) ∨ ∃ sid serial requested p hub, r = .bound p ∧
      call = .tcpipForward sid serial requested ∧ (port ≠ 0 → p = port) ∧ s.hub.bound p = false ∧
      s.hub.openSlot s.now sid p policy live = some hub ∧ s' = { s with hub := hub }) := by
  cases reply with
  | bound p =>
    cases call with
    | tcpipForward sid serial requested =>
      simp only [bind] at h
      split_ifs at h with hb
      · simp only [map_eq_some_iff] at h
        obtain ⟨hub, ho, rfl, rfl⟩ := h
        exact ⟨rfl, .inr ⟨sid, serial, requested, p, hub, rfl, rfl, hb.1, hb.2, ho, rfl⟩⟩
    | _ => simp [bind] at h
  | bindFailed | localAddrFailed =>
    obtain ⟨rfl, rfl⟩ := h
    exact ⟨rfl, .inl ⟨rfl, by rintro p ⟨⟩⟩⟩

lemma perform_bind {r : BindReply} (h : s.perform config call (.bindSlot port policy live) o = some (s', r)) :
    ∃ reply, s.bind call port policy live reply = some (s', r) := by
  cases o with
  | bind reply => exact ⟨reply, h⟩
  | _ => simp [perform] at h

lemma perform_dial {info : TunnelInfo} {r : Except DialError Unit}
    (h : s.perform config call (.dialSlot info) o = some (s', r)) :
    s' = s ∧ (r = .ok () → s.hub.bound info.slot = true) := by
  cases o with
  | dial reply =>
    rcases reply with e | ⟨⟩ <;> simp only [perform, dial] at h
    · simp only [Option.some.injEq, Prod.mk.injEq] at h
      exact ⟨h.1.symm, by rintro rfl; exact absurd h.2 (by simp)⟩
    · split_ifs at h with hb
      simp only [Option.some.injEq, Prod.mk.injEq] at h
      exact ⟨h.1.symm, fun _ => hb⟩
  | _ => simp [perform] at h

lemma perform_uuid {id : String} (h : s.perform config call .newUuid o = some (s', id)) :
    id ∉ s.usedIds ∧ s' = { s with usedIds := id :: s.usedIds } := by
  cases o with
  | uuid =>
    simp only [perform] at h
    split_ifs at h with hu
    obtain ⟨rfl, rfl⟩ := h
    exact ⟨hu, rfl⟩
  | _ => simp [perform] at h

lemma perform_attempt {peer : SocketAddr} {success : Bool} {serial reason : Option String} {r : Option Unit}
    (h : s.perform config call (.recordAttempt peer success serial reason) o = some (s', r)) :
    ∃ bfp, s' = { s with bruteForceProtection := bfp } := by
  cases o with
  | plain =>
    simp only [perform, Option.some.injEq, recordAttempt] at h
    split at h
    · rename_i bfp _
      rw [Prod.mk.injEq] at h
      exact ⟨bfp, h.1.symm⟩
    · rw [Prod.mk.injEq] at h
      exact ⟨s.bruteForceProtection, h.1.symm⟩
  | _ => simp [perform] at h

inductive Changes : Cmd → Prop
  | redis (c : StoreCmd Key Value) : Changes (.redis c)
  | newUuid : Changes .newUuid
  | recordAttempt (peer : SocketAddr) (success : Bool) (serial reason : Option String) :
      Changes (.recordAttempt peer success serial reason)
  | bindSlot (port : ℕ) (policy : TeardownPolicy) (live : Option String) : Changes (.bindSlot port policy live)

lemma perform_pure {c : Cmd} {r : c.Reply} (h : s.perform config call c o = some (s', r)) (hc : ¬ Changes c) :
    s' = s := by
  cases c with
  | redis c => exact absurd (.redis c) hc
  | newUuid => exact absurd .newUuid hc
  | recordAttempt peer success serial reason => exact absurd (.recordAttempt peer success serial reason) hc
  | bindSlot port policy live => exact absurd (.bindSlot port policy live) hc
  | dialSlot => exact (perform_dial h).1
  | genPort | genIndices =>
    cases o <;> simp only [perform, reduceCtorEq] at h
    split_ifs at h
    simp only [Option.some.injEq, Prod.mk.injEq] at h
    exact h.1.symm
  | _ =>
    cases o <;> simp only [perform, Option.some.injEq, Prod.mk.injEq, reduceCtorEq] at h
    exact h.1.symm

lemma perform_frame {c : Cmd} {r : c.Reply} (h : s.perform config call c o = some (s', r)) :
    s'.now = s.now ∧ (c ≠ .newUuid → s'.usedIds = s.usedIds) ∧ ((∀ c', c ≠ .redis c') → s'.store = s.store) ∧
      ((∀ port policy live, c ≠ .bindSlot port policy live) → s'.hub = s.hub) := by
  by_cases hc : Changes c
  · cases hc with
    | redis c =>
      obtain ⟨_, _, -, rfl⟩ := perform_redis h
      exact ⟨rfl, fun _ => rfl, fun hne => absurd rfl (hne c), fun _ => rfl⟩
    | newUuid =>
      rw [(perform_uuid h).2]
      exact ⟨rfl, fun hne => absurd rfl hne, fun _ => rfl, fun _ => rfl⟩
    | recordAttempt =>
      obtain ⟨_, rfl⟩ := perform_attempt h
      exact ⟨rfl, fun _ => rfl, fun _ => rfl, fun _ => rfl⟩
    | bindSlot port policy live =>
      obtain ⟨reply, hb⟩ := perform_bind h
      refine ⟨?_, fun _ => ?_, fun _ => ?_, fun hne => absurd rfl (hne port policy live)⟩ <;>
        obtain ⟨-, ⟨rfl, -⟩ | ⟨_, _, _, _, _, -, -, -, -, -, rfl⟩⟩ := bind_eq hb <;> rfl
  · rw [perform_pure h hc]
    exact ⟨rfl, fun _ => rfl, fun _ => rfl, fun _ => rfl⟩

lemma settle_frame (p : Program Done) : (settle complete call s p).now = s.now ∧
    (settle complete call s p).usedIds = s.usedIds ∧ (settle complete call s p).store = s.store := by
  cases p with
  | call => exact ⟨rfl, rfl, rfl⟩
  | ret a =>
    cases call with
    | authPublickey => cases a <;> exact ⟨rfl, rfl, rfl⟩
    | _ => exact ⟨rfl, rfl, rfl⟩

end Shared

namespace World

inductive Effect (config : Config) (w w' : World) : Action → Prop
  | quiet {a : Action} (threads : w'.threads = w.threads) (store : w'.shared.store = w.shared.store)
      (usedIds : w'.shared.usedIds = w.shared.usedIds) (now : w.shared.now ≤ w'.shared.now)
      (idle : ∀ tid o, a ≠ .exec tid o) : Effect config w w' a
  | lapse {key : Key} {store : Store Key Value} (lapse : ExpiringStore.lapse w.shared.now w.shared.store key = some store)
      (eq : w' = w.withStore store) : Effect config w w' (.lapse key)
  | arrive {call : Call} (admits : w.admits call = true)
      (eq : w' = { w with threads := w.threads ++ [⟨call, [], call.program config⟩] }) :
      Effect config w w' (.arrive call)
  | exec {tid : ℕ} {o : Choice} {th : CallThread} {c : Cmd} {k : c.Reply → Program Done} {s : Shared} {r : c.Reply}
      (thread : w.threads[tid]? = some th) (prog : th.prog = .call c k)
      (perform : w.shared.perform config th.call c o = some (s, r))
      (eq : w' = ⟨settle complete th.call s (k r), w.threads.set tid (th.advance ⟨w.shared, s⟩ c k r)⟩) :
      Effect config w w' (.exec tid o)
  | cancel {tid : ℕ} {th : CallThread} (thread : w.threads[tid]? = some th)
      (eq : w' = { w with threads := w.threads.set tid (th.stop .cancelled) }) : Effect config w w' (.cancel tid)
  | heartbeat {task : ℕ} {o : Outcome Key} {tunnelId : String} {store : Store Key Value} {r : Except String Unit}
      (perform : ExpiringStore.perform w.shared.now w.shared.store
        (.setEx (.tunnelLive tunnelId) (.text "1") tunnelLiveTtl) o = some (store, r))
      (running : w.shared.hub.heartbeatOf task = some tunnelId) (eq : w' = w.withStore store) :
      Effect config w w' (.heartbeat task o)

variable {config : Config} {w w' : World} {a : Action}

lemma step_effect (h : step config w a = some w') : Effect config w w' a := by
  cases a with
  | tick d =>
    cases h
    exact .quiet rfl rfl rfl (Nat.le_add_right _ d) (by rintro _ _ ⟨⟩)
  | lapse =>
    simp only [step, map_eq_some_iff] at h
    obtain ⟨store, hl, rfl⟩ := h
    exact .lapse hl rfl
  | arrive =>
    simp only [step] at h
    split_ifs at h with hadm
    cases h
    exact .arrive hadm rfl
  | exec =>
    simp only [step, map_eq_some_iff] at h
    obtain ⟨⟨s', ts⟩, he, rfl⟩ := h
    obtain ⟨th, c, k, s, r, hth, hp, hr, rfl, rfl⟩ := exec_cases he
    exact .exec hth hp hr rfl
  | cancel =>
    simp only [step, map_eq_some_iff] at h
    obtain ⟨th, hth, rfl⟩ := h
    exact .cancel hth rfl
  | heartbeat =>
    simp only [step, bind_eq_some_iff, markTunnelLive, map_eq_some_iff] at h
    obtain ⟨tunnelId, hrun, ⟨store, r⟩, hp, rfl⟩ := h
    exact .heartbeat hp hrun rfl
  | sshConnect => cases h; exact .quiet rfl rfl rfl le_rfl (by rintro _ _ ⟨⟩)
  | sshEnd | cancelTcpipForward | viewerOpened | viewerClosed =>
    simp only [step] at h
    split_ifs at h
    cases h
    exact .quiet rfl rfl rfl le_rfl (by rintro _ _ ⟨⟩)
  | reaperPoll =>
    simp only [step, map_eq_some_iff] at h
    obtain ⟨hub, -, rfl⟩ := h
    exact .quiet rfl rfl rfl le_rfl (by rintro _ _ ⟨⟩)

def entry (w : World) (k : Key) : Option (Entry Value) := w.shared.store.lookup k

def Issues (w : World) (tid : ℕ) (th : CallThread) (c : Cmd) : Prop :=
  w.threads[tid]? = some th ∧ ∃ k, th.prog = .call c k

variable {tid : ℕ} {th th' : CallThread} {o : Choice}

lemma Issues.inFlight {c : Cmd} (hi : w.Issues tid th c) : th.InFlight := by
  obtain ⟨-, k, hk⟩ := hi
  exact inFlight_of_call hk

lemma got_entry {call : Call} {k : Key} {v : Option Value} {s : Shared}
    (h : w.shared.perform config call (.redis (.get k)) o = some (s, .ok v)) : v = (w.entry k).map Entry.value := by
  obtain ⟨o', st, hp, -⟩ := perform_redis h
  exact (perform_get hp).2

lemma now_step (h : step config w a = some w') : w.shared.now ≤ w'.shared.now := by
  cases step_effect h with
  | quiet threads store usedIds now => exact now
  | exec thread prog perform eq =>
    rw [eq, (settle_frame _).1, (perform_frame perform).1]
  | lapse lapse eq => rw [eq]; exact le_rfl
  | arrive admits eq | cancel thread eq => rw [eq]
  | heartbeat perform running eq => rw [eq]; exact le_rfl

lemma entry_step (h : step config w a = some w') (k : Key) :
    w'.entry k = w.entry k ∨
    (a = .lapse k ∧ (∃ e, w.entry k = some e ∧ e.live w.shared.now = false) ∧ w'.entry k = none) ∨
    (∃ tid o th c, a = .exec tid o ∧ w.Issues tid th (.redis c) ∧ c.target = some k ∧
      w'.entry k = c.entry w.shared.now (w.entry k)) ∨
    (∃ task o id, a = .heartbeat task o ∧ k = .tunnelLive id ∧ w.shared.hub.heartbeatOf task = some id ∧
      w'.entry k = some ⟨.text "1", some (w.shared.now + tunnelLiveTtl * second)⟩) := by
  cases step_effect h with
  | quiet threads store => exact .inl (by rw [entry, store]; rfl)
  | arrive admits eq | cancel thread eq => exact .inl (by rw [eq]; rfl)
  | @lapse key store lapse eq =>
    subst eq
    by_cases hk : k = key
    · subst hk
      obtain ⟨hdead, hnone⟩ := lapse_target lapse
      exact .inr (.inl ⟨rfl, hdead, hnone⟩)
    · exact .inl (lapse_frame lapse hk)
  | @exec tid o th c cont s r thread prog perform eq =>
    have hs : w'.entry k = s.store.lookup k := by rw [eq, entry, (settle_frame _).2.2]
    by_cases hc : ∃ c', c = .redis c'
    · obtain ⟨c', rfl⟩ := hc
      obtain ⟨o', st, hp, rfl⟩ := perform_redis perform
      by_cases ht : c'.target = some k
      · obtain he | he := perform_target hp ht
        · exact .inl (hs.trans he)
        · exact .inr (.inr (.inl ⟨tid, o, th, c', rfl, ⟨thread, cont, prog⟩, ht, hs.trans he⟩))
      · exact .inl (hs.trans (ExpiringStore.perform_frame hp ht))
    · have hstore := (perform_frame perform).2.2.1 (fun c' he => hc ⟨c', he⟩)
      exact .inl (by rw [hs, hstore]; rfl)
  | @heartbeat task o id store r perform running eq =>
    subst eq
    by_cases hk : k = .tunnelLive id
    · subst hk
      obtain he | he := perform_target perform rfl
      · exact .inl he
      · exact .inr (.inr (.inr ⟨task, o, id, rfl, rfl, running, he⟩))
    · refine .inl (ExpiringStore.perform_frame perform ?_)
      rintro ⟨rfl⟩
      exact hk rfl

lemma thread_step (h : step config w a = some w') (hth : w'.threads[tid]? = some th') :
    (w.threads[tid]? = some th' ∧ ∀ o, a ≠ .exec tid o) ∨
    (∃ call, a = .arrive call ∧ w.admits call = true ∧ tid = w.threads.length ∧ th' = ⟨call, [], call.program config⟩) ∨
    (∃ o th c k s r, a = .exec tid o ∧ w.threads[tid]? = some th ∧ th.prog = .call c k ∧
      w.shared.perform config th.call c o = some (s, r) ∧ (∀ key, w'.entry key = s.store.lookup key) ∧
      th' = th.advance ⟨w.shared, s⟩ c k r) ∨
    (∃ th, a = .cancel tid ∧ w.threads[tid]? = some th ∧ th' = th.stop .cancelled) := by
  cases step_effect h with
  | quiet threads store usedIds now idle => exact .inl ⟨threads ▸ hth, idle tid⟩
  | lapse lapse eq | heartbeat perform running eq => exact .inl ⟨by rw [eq] at hth; exact hth, by rintro _ ⟨⟩⟩
  | @arrive call admits eq =>
    rw [eq] at hth
    obtain hth | ⟨htid, rfl⟩ := getElem?_snoc hth
    · exact .inl ⟨hth, by rintro _ ⟨⟩⟩
    · exact .inr (.inl ⟨call, rfl, admits, htid, rfl⟩)
  | @exec j o th c k s r thread prog perform eq =>
    rw [eq] at hth
    obtain ⟨hj, hth⟩ | ⟨rfl, rfl⟩ := getElem?_put hth
    · exact .inl ⟨hth, by rintro _ ⟨rfl⟩; exact hj rfl⟩
    · refine .inr (.inr (.inl ⟨o, th, c, k, s, r, rfl, thread, prog, perform, fun key => ?_, rfl⟩))
      rw [eq, entry, (settle_frame _).2.2]
  | @cancel j th thread eq =>
    rw [eq] at hth
    obtain ⟨-, hth⟩ | ⟨rfl, rfl⟩ := getElem?_put hth
    · exact .inl ⟨hth, by rintro _ ⟨⟩⟩
    · exact .inr (.inr (.inr ⟨th, rfl, thread, rfl⟩))

lemma exec_step {c : Cmd} (h : step config w (.exec tid o) = some w') (hi : w.Issues tid th c) :
    ∃ k s r, th.prog = .call c k ∧ w.shared.perform config th.call c o = some (s, r) ∧
      w'.shared = settle complete th.call s (k r) ∧
      w'.threads[tid]? = some (th.advance ⟨w.shared, s⟩ c k r) := by
  obtain ⟨hth, k, hk⟩ := hi
  have hlt : tid < w.threads.length := (List.getElem?_eq_some_iff.mp hth).1
  simp only [step, map_eq_some_iff] at h
  obtain ⟨⟨s', ts⟩, he, rfl⟩ := h
  obtain ⟨u, c', k', s, r, hu, hp, hr, rfl, rfl⟩ := exec_cases he
  rw [hth, Option.some.injEq] at hu
  subst hu
  rw [hk] at hp
  cases hp
  exact ⟨k, s, r, hk, hr, rfl, List.getElem?_set_self hlt⟩

section

variable (h : step config w a = some w')

include h

lemma length_step : w.threads.length ≤ w'.threads.length := by
  cases step_effect h with
  | quiet threads => rw [threads]
  | lapse _ eq | arrive _ eq | exec _ _ _ eq | cancel _ eq | heartbeat _ _ eq => simp [eq, withStore]

lemma thread_kept (hth : w.threads[tid]? = some th) :
    ∃ th', w'.threads[tid]? = some th' ∧ th'.call = th.call ∧ th.history ⊆ th'.history := by
  have hlt : tid < w.threads.length := (List.getElem?_eq_some_iff.mp hth).1
  have hth' := List.getElem?_eq_getElem (Nat.lt_of_lt_of_le hlt (length_step h))
  refine ⟨_, hth', ?_⟩
  obtain ⟨hold, -⟩ | ⟨_, -, -, htid, -⟩ | ⟨_, _, _, _, _, _, -, hold, -, -, -, heq⟩ | ⟨_, -, hold, heq⟩ := thread_step h hth'
  · rw [mem_unique hold hth]
    exact ⟨rfl, List.Subset.refl _⟩
  · omega
  · rw [heq, mem_unique hold hth]
    exact ⟨rfl, List.subset_append_left _ _⟩
  · rw [heq, mem_unique hold hth]
    exact ⟨rfl, List.Subset.refl _⟩

lemma used_step : w.shared.usedIds ⊆ w'.shared.usedIds := by
  cases step_effect h with
  | quiet threads store usedIds => rw [usedIds]; exact List.Subset.refl _
  | lapse lapse eq => rw [eq]; exact List.Subset.refl _
  | arrive admits eq | cancel thread eq | heartbeat perform running eq => rw [eq]; exact List.Subset.refl _
  | @exec tid o th c k s r thread prog perform eq =>
    rw [eq, (settle_frame _).2.1]
    by_cases hc : c = .newUuid
    · subst hc
      rw [(perform_uuid perform).2]
      exact List.subset_cons_self _ _
    · rw [(perform_frame perform).2.1 hc]
      exact List.Subset.refl _

lemma event_step {e : Ev} (hth : w'.threads[tid]? = some th') (he : e ∈ th'.history) :
    (∃ th, w.threads[tid]? = some th ∧ th.call = th'.call ∧ (th'.InFlight → th.InFlight) ∧ th.history ⊆ th'.history ∧
      e ∈ th.history) ∨
    ∃ o th, a = .exec tid o ∧ w.Issues tid th e.cmd ∧ th.call = th'.call ∧ th'.history = th.history ++ [e] ∧
      e.span.before = w.shared ∧ w.shared.perform config th.call e.cmd o = some (e.span.after, e.reply) ∧
      w'.shared.usedIds = e.span.after.usedIds ∧ ∀ key, w'.entry key = e.span.after.store.lookup key := by
  obtain ⟨hth, -⟩ | ⟨call, -, -, -, rfl⟩ | ⟨o, th, c, k, s, r, rfl, hold, hp, hperf, hentry, rfl⟩ | ⟨th, -, hold, rfl⟩ :=
    thread_step h hth
  · exact .inl ⟨th', hth, rfl, id, List.Subset.refl _, he⟩
  · cases he
  · have hf := inFlight_of_call hp
    rw [advance_history, mem_snoc] at he
    obtain he | rfl := he
    · exact .inl ⟨th, hold, rfl, fun _ => hf, by simp, he⟩
    · refine .inr ⟨o, th, rfl, ⟨hold, k, hp⟩, rfl, rfl, rfl, hperf, ?_, hentry⟩
      obtain ⟨k', s', r', hk', hperf', hs', -⟩ := exec_step h ⟨hold, k, hp⟩
      rw [hperf, Option.some.injEq, Prod.mk.injEq] at hperf'
      rw [hs', (settle_frame _).2.1, hperf'.1]
  · exact .inl ⟨th, hold, rfl, fun hf => absurd hf (stop_not_inFlight th _), by simp, he⟩

lemma flight_step (hth : w'.threads[tid]? = some th') (hf : th'.InFlight) :
    (∃ th, w.threads[tid]? = some th ∧ th.InFlight ∧ th.call = th'.call) ∨
      (a = .arrive th'.call ∧ w.admits th'.call = true ∧ tid = w.threads.length) := by
  obtain ⟨hth', -⟩ | ⟨call, ha, hadm, htid, rfl⟩ | ⟨o, th, c, k, s, r, -, hold, hp, -, -, rfl⟩ | ⟨th, -, -, rfl⟩ :=
    thread_step h hth
  · exact .inl ⟨th', hth', hf, rfl⟩
  · exact .inr ⟨ha, hadm, htid⟩
  · exact .inl ⟨th, hold, inFlight_of_call hp, rfl⟩
  · exact absurd hf (stop_not_inFlight th _)

end

end World

end FleetingDns
