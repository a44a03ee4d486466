import FleetingDns.HandlerFlow
import FleetingDns.Origins
namespace FleetingDns.SlotMapping

open CommandPrograms ExpiringStore ThreadPool GuardedRuns World TunnelStorage CreateFlow HandlerFlow

variable {config : Config} {call : Call} {h : List Ev} {fqdn : String} {tunnel : Tunnel}

def ListSet (h : List Ev) (owner : String) : Prop :=
  ∃ t x v, (⟨t, .redis (.set (.tunnelLookup owner) v), .ok x⟩ : Ev) ∈ h

def MayProvide (config : Config) (call : Call) (h : List Ev) (fqdn : String) (v : Value) (ttl : ℕ) : Prop :=
  ∃ user request tunnel t t' now, call = .createTunnel user request ∧ Wrote h tunnel ttl t ∧ tunnel.fqdn = fqdn ∧
    fqdn = tunnel.subdomain ++ "." ++ "fleetingdns.run" ∧ v = .text config.api.edgePublicIp ∧
    (⟨t', .utcNow, now⟩ : Ev) ∈ h ∧ ttl = asU64 (numSeconds (tunnel.expiresAt - now)) ∧ ListSet h tunnel.githubUserId

def MayWithdraw (call : Call) (h : List Ev) (fqdn : String) : Prop :=
  ∃ user id tunnel, call = .deleteTunnel user id ∧ Read h id tunnel ∧ tunnel.fqdn = fqdn

def MaySlot (config : Config) (call : Call) (h : List Ev) (c : Cmd) : Prop :=
  unslotted c = true ∨
  (∃ fqdn v ttl, c = .redis (.setEx (.slot fqdn) v ttl) ∧ MayProvide config call h fqdn v ttl) ∨
  ∃ fqdn, c = .redis (.del (.slot fqdn)) ∧ MayWithdraw call h fqdn

def Mapped (h : List Ev) (fqdn : String) : Prop :=
  ∃ t x v ttl, (⟨t, .redis (.setEx (.slot fqdn) v ttl), .ok x⟩ : Ev) ∈ h

def Unmapped (h : List Ev) (fqdn : String) : Prop := ∃ t x, (⟨t, .redis (.del (.slot fqdn)), .ok x⟩ : Ev) ∈ h

def Completes (call : Call) (h : List Ev) : Done → Prop
  | .created (.ok response) => Mapped h response.fqdn
  | .deleted (.ok true) => ∃ user id tunnel, call = .deleteTunnel user id ∧ Read h id tunnel ∧ Unmapped h tunnel.fqdn
  | _ => True

lemma Mapped.mono {h' : List Ev} (hm : Mapped h fqdn) (hs : h ⊆ h') : Mapped h' fqdn := by
  obtain ⟨t, x, v, ttl, ht⟩ := hm
  exact ⟨t, x, v, ttl, hs ht⟩

section

variable {user : GitHubUser} {request : CreateTunnelRequest} {α β : Type}

lemma bare_unslotted (c : Cmd) (hc : bare c = true) : unslotted c = true := (Bool.and_eq_true_iff.mp hc).2

lemma consults_unslotted (c : Cmd) (hc : consults c = true) : unslotted c = true := by
  cases c with
  | redis c =>
    cases c with
    | setEx k => cases k <;> first | rfl | cases hc
    | _ => first | rfl | cases hc
  | _ => rfl

lemma slots_only {p : Program α} (hp : Only (fun c => unslotted c = true) p) (h : List Ev) :
    Obeys (MaySlot config call) (fun h' _ => h ⊆ h') p h := by
  refine meets_only ?_ ?_ hp (List.Subset.refl h)
  · intro h' c hc _
    exact .inl hc
  · intro h' c t r _ hs
    exact List.Subset.trans hs (List.subset_append_left _ _)

lemma slots_bare {x : Api α} (hx : Bare x) (h : List Ev) :
    Obeys (MaySlot config call) (fun h' _ => h ⊆ h') x.run h := slots_only (only_mono bare_unslotted hx) h

lemma slots_storeTunnel (hfqdn : tunnel.fqdn = tunnel.subdomain ++ "." ++ "fleetingdns.run") :
    Obeys (MaySlot config (.createTunnel user request)) (fun h' r => r = .ok () → Mapped h' tunnel.fqdn)
      (storeTunnel config.api.edgePublicIp tunnel).run h := by
  refine meets_ask (.inl rfl) fun t1 now => ?_
  refine meets_redis (.inl rfl) ?_ (by rintro _ _ _ ⟨⟩)
  intro t2 x2
  refine meets_redis (.inl rfl) ?_ (by rintro _ _ _ ⟨⟩)
  intro t3 existing
  refine meets_redis (.inl rfl) ?_ (by rintro _ _ _ ⟨⟩)
  intro t4 x4
  refine meets_except_seq (slots_bare (bare_claimSubdomain tunnel _) _) ?_ (by rintro _ _ _ ⟨⟩)
  intro h' _ hs
  refine meets_redis (.inr (.inl ⟨_, _, _, rfl, ?_⟩)) ?_ (by rintro _ _ _ ⟨⟩)
  · exact ⟨user, request, tunnel, t2, t1, now, rfl, ⟨.ok x2, hs (by simp)⟩, rfl, hfqdn, rfl, hs (by simp), rfl, t4, x4, _,
      hs List.mem_concat_self⟩
  · intro t5 x5
    exact meets_except_pure fun _ => ⟨t5, x5, _, _, List.mem_concat_self⟩

lemma slots_newTunnel (owner login name base : String) (localPort slot : ℕ) (serial : String) (ttl : ℕ) :
    Obeys (MaySlot config call) (fun _ r => ∀ tunnel, r = .ok tunnel → tunnel.subdomain = name ∧
      tunnel.fqdn = name ++ "." ++ base) (Tunnel.new owner login name base localPort slot serial ttl).run h := by
  refine meets_ask (.inl rfl) fun t1 now => ?_
  refine meets_except_seq (slots_bare only_orPanic _) ?_ (by rintro _ _ _ _ ⟨⟩)
  intro h2 d _
  refine meets_except_seq (slots_bare only_orPanic _) ?_ (by rintro _ _ _ _ ⟨⟩)
  intro h3 expiresAt _
  refine meets_ask (.inl rfl) fun t4 id => meets_except_pure ?_
  rintro _ ⟨rfl⟩
  exact ⟨rfl, rfl⟩

lemma slots_createTunnel : Obeys (MaySlot config (.createTunnel user request))
    (fun h' r => ∀ response, r = .ok response → Mapped h' response.fqdn)
    (createTunnel config.api user request).run h := by
  have hstop : ∀ h' e, (∀ response : CreateTunnelResponse,
      (.error e : Except ApiError CreateTunnelResponse) = .ok response → Mapped h' response.fqdn) := by
    rintro h' e _ ⟨⟩
  refine meets_except_seq (slots_bare only_rejectIf h) ?_ (fun _ _ _ => hstop _ _)
  intro h1 _ _
  refine meets_except_seq (slots_only (only_checkQuota rfl) h1) ?_ (fun _ _ _ => hstop _ _)
  intro h2 _ _
  refine meets_except_seq (slots_bare only_rejectIf h2) ?_ (fun _ _ _ => hstop _ _)
  intro h3 _ _
  refine meets_except_seq (slots_bare (only_chooseSubdomain (fun _ _ => rfl) request) h3) ?_ (fun _ _ _ => hstop _ _)
  intro h4 subdomain _
  refine meets_except_seq (slots_bare (only_isSubdomainAvailable (fun _ => rfl) _) h4) ?_ (fun _ _ _ => hstop _ _)
  intro h5 _ _
  refine meets_except_seq (slots_bare only_rejectIf h5) ?_ (fun _ _ _ => hstop _ _)
  intro h6 _ _
  refine meets_except_seq (slots_bare (bare_issueClientCertificate _ _ _) h6) ?_ (fun _ _ _ => hstop _ _)
  intro h7 cert _
  refine meets_ask (.inl rfl) fun t8 now => ?_
  refine meets_except_seq (slots_bare (bare_allocatePort _ _) _) ?_ (fun _ _ _ => hstop _ _)
  intro h9 port _
  refine meets_except_seq (slots_newTunnel _ _ _ _ _ _ _ _) ?_ (fun _ _ _ => hstop _ _)
  intro h10 tunnel hnew
  obtain ⟨hsub, hfqdn⟩ := hnew tunnel rfl
  refine meets_except_seq (slots_storeTunnel (hfqdn.trans (by rw [hsub]))) ?_ (fun _ _ _ => hstop _ _)
  intro h11 _ hset
  refine meets_except_seq (slots_bare (only_generateSshKeyPair rfl) h11) ?_ (fun _ _ _ => hstop _ _)
  intro h12 sshKey hs12
  refine meets_except_seq (slots_bare (bare_storeSshSession _ _ _ _ _) h12) ?_ (fun _ _ _ => hstop _ _)
  intro h13 _ hs13
  refine meets_except_seq (slots_bare (only_basicAuth (fun _ _ => rfl) request) h13) ?_ (fun _ _ _ => hstop _ _)
  intro h14 auth hs14
  refine meets_except_pure ?_
  rintro _ ⟨rfl⟩
  exact (hset rfl).mono (List.Subset.trans hs12 (List.Subset.trans hs13 hs14))

lemma slots_getTunnel (id : String) : Obeys (MaySlot config call)
    (fun h' r => ∀ tunnel, r = .ok (some tunnel) → Read h' id tunnel) (getTunnel id).run h := by
  refine meets_redis (.inl rfl) ?_ (by rintro _ _ _ _ ⟨⟩)
  intro t json
  obtain _ | v := json
  · exact meets_except_pure (by rintro _ ⟨⟩)
  dsimp only
  split
  · rename_i tunnel hv
    refine meets_except_pure ?_
    rintro _ ⟨rfl⟩
    obtain rfl := Value.asTunnel_some hv
    exact ⟨t, by simp⟩
  · exact meets_throw (by rintro _ ⟨⟩)

lemma slots_deleteTunnel (user : GitHubUser) (id : String) : Obeys (MaySlot config (.deleteTunnel user id))
    (fun h' r => r = .ok true → ∃ tunnel, Read h' id tunnel ∧ Unmapped h' tunnel.fqdn) (deleteTunnel user id).run h := by
  refine meets_except_seq (slots_only (only_ownedTunnel rfl) h) ?_ (by rintro _ _ _ ⟨⟩)
  intro h1 _ _
  refine meets_except_seq (slots_getTunnel id) ?_ (by rintro _ _ _ ⟨⟩)
  intro h2 r hr
  obtain _ | tunnel := r
  · exact meets_except_pure (by rintro ⟨⟩)
  have hread : Read h2 id tunnel := hr tunnel rfl
  refine meets_redis (.inl rfl) ?_ (by rintro _ _ _ ⟨⟩)
  intro t3 x3
  refine meets_redis (.inl rfl) ?_ (by rintro _ _ _ ⟨⟩)
  intro t4 x4
  refine meets_redis (.inr (.inr ⟨_, rfl, user, id, tunnel, rfl, hread.mono (by simp), rfl⟩)) ?_ (by rintro _ _ _ ⟨⟩)
  intro t5 x5
  have hdone : ∀ h', (h2 ++ [⟨t3, .redis (.del (.tunnel id)), .ok x3⟩] ++
      [⟨t4, .redis (.del (.subdomain tunnel.subdomain)), .ok x4⟩] ++
      [⟨t5, .redis (.del (.slot tunnel.fqdn)), .ok x5⟩]) ⊆ h' →
      ∃ tunnel, Read h' id tunnel ∧ Unmapped h' tunnel.fqdn := fun h' hs =>
    ⟨tunnel, hread.mono (fun e he => hs (by simp [he])), t5, x5, hs (by simp)⟩
  refine meets_redis (.inl rfl) ?_ (by rintro _ _ _ ⟨⟩)
  intro t6 existing
  split
  · refine meets_redis (.inl rfl) ?_ (by rintro _ _ _ ⟨⟩)
    intro t7 x7
    exact meets_except_pure fun _ => hdone _ (by simp)
  · exact meets_except_pure fun _ => hdone _ (by simp)

lemma call_slots (config : Config) (call : Call) :
    Obeys (MaySlot config call) (Completes call) (call.program config) [] := by
  cases call with
  | createTunnel =>
    refine meets_seq slots_createTunnel ?_
    rintro h' (e | response) hr
    · exact .ret trivial
    · exact .ret (hr response rfl)
  | deleteTunnel user id =>
    refine meets_seq (slots_deleteTunnel user id) ?_
    rintro h' (e | _ | _) hr
    · exact .ret trivial
    · exact .ret trivial
    · obtain ⟨tunnel, hread, hd⟩ := hr rfl
      exact .ret ⟨user, id, tunnel, rfl, hread, hd⟩
  | createTunnelSession user id =>
    have hp := only_mono consults_unslotted (consults_createTunnelSession user id)
    exact meets_seq (slots_only hp []) fun _ _ _ => .ret trivial
  | authPublickey =>
    refine meets_seq (slots_only ?_ []) fun _ _ _ => .ret trivial
    apply only_authPublickey <;> intros <;> rfl
  | tcpipForward sid serial port =>
    have hp := only_mono consults_unslotted (consults_tcpipForward config.hub serial port)
    exact meets_seq (slots_only hp []) fun _ _ _ => .ret trivial
  | route sni =>
    have hp := only_mono consults_unslotted (consults_route sni)
    exact meets_seq (slots_only hp []) fun _ _ _ => .ret trivial

end

section

variable {w w' : World} {a : Action} {G : World → Action → Prop} {now : ℕ}

inductive SlotEffect (config : Config) (w w' : World) (fqdn : String) : Action → Prop
  | kept {a : Action} (eq : w'.entry (.slot fqdn) = w.entry (.slot fqdn)) : SlotEffect config w w' fqdn a
  | lapsed {e : Entry Value} (old : w.entry (.slot fqdn) = some e) (dead : e.live w.shared.now = false)
      (eq : w'.entry (.slot fqdn) = none) : SlotEffect config w w' fqdn (.lapse (.slot fqdn))
  | provided {tid : ℕ} {o : Choice} {th : CallThread} {v : Value} {ttl : ℕ}
      (issues : w.Issues tid th (.redis (.setEx (.slot fqdn) v ttl)))
      (may : MayProvide config th.call th.history fqdn v ttl)
      (eq : w'.entry (.slot fqdn) = some ⟨v, some (w.shared.now + ttl * second)⟩) :
      SlotEffect config w w' fqdn (.exec tid o)
  | withdrawn {tid : ℕ} {o : Choice} {th : CallThread} (issues : w.Issues tid th (.redis (.del (.slot fqdn))))
      (eq : w'.entry (.slot fqdn) = none) : SlotEffect config w w' fqdn (.exec tid o)

lemma slot_step (hd : Disciplined (MaySlot config) Completes w.threads) (h : step config w a = some w')
    (fqdn : String) : SlotEffect config w w' fqdn a := by
  obtain heq | ⟨rfl, ⟨e, hold, hdead⟩, hnone⟩ | ⟨tid, o, th, c, rfl, hi, ht, heq⟩ | ⟨_, _, _, -, hk, -⟩ :=
    entry_step h (.slot fqdn)
  · exact .kept heq
  · exact .lapsed hold hdead hnone
  · obtain ⟨hth, k, hk⟩ := id hi
    obtain hu | ⟨fqdn', v, ttl, hc, hmay⟩ | ⟨fqdn', hc, -⟩ := hd.may hth hk
    · simp only [unslotted, ht] at hu
      cases hu
    · cases hc
      cases ht
      exact .provided hi hmay heq
    · cases hc
      cases ht
      exact .withdrawn hi heq
  · cases hk

lemma reach_slots (h : Reach (step config) G (init now) w) : Disciplined (MaySlot config) Completes w.threads :=
  reach_disciplined (call_slots config) h

lemma slot_origin (h : Reach (step config) G (init now) w) {e : Entry Value} (he : w.entry (.slot fqdn) = some e) :
    e.value = .text config.api.edgePublicIp ∧ ∃ name, fqdn = name ++ "." ++ "fleetingdns.run" := by
  induction h generalizing e with
  | refl => cases he
  | tail hr _ hstep ih =>
    cases slot_step (reach_slots hr) hstep fqdn with
    | kept eq => exact ih (eq ▸ he)
    | lapsed old dead eq | withdrawn issues eq =>
      rw [eq] at he
      cases he
    | provided issues may eq =>
      obtain ⟨user, request, tunnel, t, t', n, -, -, -, hname, hv, -⟩ := may
      rw [eq] at he
      cases he
      exact ⟨hv, tunnel.subdomain, hname⟩

lemma reach_completes (h : Reach (step config) G (init now) w) {tid : ℕ} {th : CallThread} {d : Done}
    (hth : w.threads[tid]? = some th) (hd : th.prog = .ret d) : Completes th.call th.history d := by
  induction h generalizing th with
  | refl => cases hth
  | @tail w0 w1 a hr _ hstep ih =>
    obtain ⟨hold, -⟩ | ⟨call, -, -, -, rfl⟩ | ⟨o, u, c, k, s, r, -, hold, hp, -, -, rfl⟩ | ⟨u, -, -, rfl⟩ :=
      thread_step hstep hth
    · exact ih hold hd
    · have hcall := call_slots config call
      rw [show call.program config = .ret d from hd] at hcall
      exact meets_ret hcall
    · have hnext := (reach_slots hr).advance hold hp ⟨w0.shared, s⟩ r
      rw [show k r = .ret d from hd] at hnext
      exact meets_ret hnext
    · cases hd
      trivial

end

end FleetingDns.SlotMapping
