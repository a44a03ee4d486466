import FleetingDns.World

namespace FleetingDns

open CommandPrograms ExpiringStore ThreadPool

def Got (h : List Ev) (k : Key) (v : Option Value) : Prop := ∃ t, (⟨t, .redis (.get k), .ok v⟩ : Ev) ∈ h

def Read (h : List Ev) (id : String) (tunnel : Tunnel) : Prop := Got h (.tunnel id) (some (.tunnel tunnel))

def Wrote (h : List Ev) (tunnel : Tunnel) (ttl : ℕ) (t : Span Shared) : Prop :=
  ∃ r, (⟨t, .redis (.setEx (.tunnel tunnel.id) (.tunnel tunnel) ttl), r⟩ : Ev) ∈ h

def Reserved (h : List Ev) (n ttl : ℕ) (t : Span Shared) : Prop :=
  ∃ v, (⟨t, .redis (.setNxEx (.port n) v ttl), .ok true⟩ : Ev) ∈ h

def Named (h : List Ev) (id : String) : Prop := ∃ t, (⟨t, .newUuid, id⟩ : Ev) ∈ h

def Available (h : List Ev) (name : String) : Prop :=
  Got h (.subdomain name) none ∨
    ∃ v id, Got h (.subdomain name) (some v) ∧ v.asText = some id ∧ Got h (.tunnel id) none

def Deleted (h : List Ev) (id : String) : Prop := ∃ t x, (⟨t, .redis (.del (.tunnel id)), .ok x⟩ : Ev) ∈ h

def Cmd.publishes : Cmd → Bool
  | .redis (.setEx (.tunnel _) _ _) | .redis (.set (.tunnelLookup _) _) | .redis (.setNxEx (.subdomain _) _ _) => true
  | _ => false

def Cmd.claimsSubdomain : Cmd → Bool
  | .redis (.setNxEx (.subdomain _) _ _) => true
  | _ => false

def Unpublished (h : List Ev) : Prop := ∀ e ∈ h, e.cmd.publishes = false

def Unclaimed (h : List Ev) : Prop := ∀ e ∈ h, e.cmd.claimsSubdomain = false

instance (h : List Ev) : Decidable (Unpublished h) := inferInstanceAs (Decidable (∀ e ∈ h, _))

instance (h : List Ev) : Decidable (Unclaimed h) := inferInstanceAs (Decidable (∀ e ∈ h, _))

def succeeds : (c : Cmd) → c.Reply → Bool
  | .redis (.setNxEx _ _ _), .ok claimed => claimed
  | .redis _, .ok _ => true
  | .redis _, .error _ => false
  | _, _ => true

def owned : Key → Bool
  | .tunnel _ | .tunnelLookup _ | .subdomain _ | .port _ | .sessionGrant _ _ | .tunnelLive _ => true
  | _ => false

section

variable (call : Call)

def MayStoreRecord (h : List Ev) (id : String) (v : Value) : Prop :=
  ∃ user request tunnel ttl t, call = .createTunnel user request ∧ v = .tunnel tunnel ∧ tunnel.id = id ∧
    tunnel.githubUserId = user.id ∧ Unpublished h ∧ Named h id ∧ Available h tunnel.subdomain ∧
    Reserved h tunnel.slot ttl t ∧ 10000 ≤ tunnel.slot ∧ tunnel.slot ≤ 65535

def MaySetLookup (h : List Ev) (owner : String) (v : Value) : Prop :=
  ∃ t existing h0, h = h0 ++ [⟨t, .redis (.get (.tunnelLookup owner)), .ok existing⟩] ∧
    ((∃ user request tunnel ttl t', call = .createTunnel user request ∧ Wrote h tunnel ttl t' ∧
        tunnel.githubUserId = owner ∧ v = .lookup ((UserTunnelLookup.ofData tunnel existing).push tunnel.id)) ∨
      ∃ user id l, call = .deleteTunnel user id ∧ Deleted h id ∧ existing = some (.lookup l) ∧
        v = .lookup (l.remove id))

def MayClaimSubdomain (h : List Ev) (name : String) (v : Value) (ttl : ℕ) : Prop :=
  ∃ user request tunnel t, call = .createTunnel user request ∧ Wrote h tunnel ttl t ∧ tunnel.subdomain = name ∧
    v = .text tunnel.id ∧ Unclaimed h ∧
    ∃ t' x v', (⟨t', .redis (.set (.tunnelLookup tunnel.githubUserId) v'), .ok x⟩ : Ev) ∈ h

def MayRefreshSubdomain (h : List Ev) (name : String) : Prop :=
  ∃ t v ttl, (⟨t, .redis (.setNxEx (.subdomain name) v ttl), .ok false⟩ : Ev) ∈ h

def Unread (h : List Ev) : Prop := ∀ e ∈ h, ∀ k, e.cmd ≠ .redis (.get k)

def Unchecked (h : List Ev) : Prop := ∀ e ∈ h, ∀ k, e.cmd ≠ .redis (.exist k)

def Undeleted (h : List Ev) : Prop := ∀ e ∈ h, ∀ k, e.cmd ≠ .redis (.del k)

def MayGetSubdomain (h : List Ev) (name : String) : Prop :=
  (∃ user request, call = .createTunnel user request) → (Unpublished h ∧ Unread h) ∨ MayRefreshSubdomain h name

def MayGetRecord (h : List Ev) (id : String) : Prop :=
  Unchecked h ∧ ∀ user id', call = .deleteTunnel user id' → id = id' ∧ Undeleted h

def MayDeleteRecord (h : List Ev) (id : String) : Prop :=
  (∃ user, call = .deleteTunnel user id) ∧ ∃ tunnel, Read h id tunnel

def MayDeleteSubdomain (h : List Ev) (name : String) : Prop :=
  ∃ user id tunnel, call = .deleteTunnel user id ∧ Read h id tunnel ∧ tunnel.subdomain = name ∧ Deleted h id

def MayGrant (h : List Ev) (name : String) (v : Value) (ttl : ℕ) : Prop :=
  ∃ user id tunnel t, call = .createTunnelSession user id ∧ Read h id tunnel ∧ tunnel.githubUserId = user.id ∧
    tunnel.subdomain = name ∧ v = .grant ⟨user.id, t⟩ ∧ ttl = sessionGrantTtlSeconds

end

def MayBind (config : Config) (call : Call) (h : List Ev) (port : ℕ) (policy : TeardownPolicy)
    (liveTunnelId : Option String) : Prop :=
  ∃ sid serial requested, call = .tcpipForward sid serial requested ∧ port = requested % 65536 ∧
    (config.hub.redisPool = true → ∃ id tunnel, Read h id tunnel ∧ tunnel.slot = port ∧ serial = some tunnel.id ∧
      liveTunnelId = some tunnel.id ∧ policy = tunnel.teardownPolicy)

def Checked (h : List Ev) (name token : String) (t : Span Shared) : Prop :=
  (⟨t, .redis (.exist (.sessionGrant name token)), .ok true⟩ : Ev) ∈ h

def MayDial (call : Call) (h : List Ev) (tunnelInfo : TunnelInfo) : Prop :=
  ∃ sni id tunnel, call = .route (some sni) ∧ Read h id tunnel ∧ tunnel.info = tunnelInfo ∧
    tunnel.subdomain = EdgeRouter.subdomainFromSni sni ∧
    (tunnel.protectedTunnel = true → ∃ token t, Checked h tunnel.subdomain token t)

def May (config : Config) (call : Call) (h : List Ev) : Cmd → Prop
  | .redis (.setEx (.tunnel id) v _) => MayStoreRecord call h id v
  | .redis (.del (.tunnel id)) => MayDeleteRecord call h id
  | .redis (.set (.tunnelLookup owner) v) => MaySetLookup call h owner v
  | .redis (.setNxEx (.subdomain name) v ttl) => MayClaimSubdomain call h name v ttl
  | .redis (.expire (.subdomain name) _) => MayRefreshSubdomain h name
  | .redis (.del (.subdomain name)) => MayDeleteSubdomain call h name
  | .redis (.get (.subdomain name)) => MayGetSubdomain call h name
  | .redis (.setNxEx (.port _) _ _) => ∃ user request, call = .createTunnel user request
  | .redis (.setEx (.sessionGrant name _) v ttl) => MayGrant call h name v ttl
  | .redis (.get (.tunnel id)) => MayGetRecord call h id
  | .redis c => ∀ k, c.target = some k → owned k = false
  | .bindSlot port policy liveTunnelId => MayBind config call h port policy liveTunnelId
  | .dialSlot tunnelInfo => MayDial call h tunnelInfo
  | _ => True

def Ends (call : Call) (h : List Ev) (_ : Done) : Prop :=
  (∃ user request, call = .createTunnel user request) →
    Unpublished h ∨ ¬ Unclaimed h ∨ ∃ h0 e, h = h0 ++ [e] ∧ succeeds e.cmd e.reply = false

section

variable {h h' : List Ev}

lemma Got.mono {k : Key} {v : Option Value} (hs : h ⊆ h') (hg : Got h k v) : Got h' k v := by
  obtain ⟨t, ht⟩ := hg
  exact ⟨t, hs ht⟩

variable {t : Span Shared} {id : String}

lemma Reserved.mono {n ttl : ℕ} (hs : h ⊆ h') (hr : Reserved h n ttl t) : Reserved h' n ttl t := by
  obtain ⟨v, hv⟩ := hr
  exact ⟨v, hs hv⟩

lemma Named.mono (hs : h ⊆ h') (hn : Named h id) : Named h' id := by
  obtain ⟨t, ht⟩ := hn
  exact ⟨t, hs ht⟩

lemma Available.mono {name : String} (hs : h ⊆ h') (ha : Available h name) : Available h' name := by
  obtain hn | ⟨v, id, hv, hid, hn⟩ := ha
  · exact .inl (hn.mono hs)
  · exact .inr ⟨v, id, hv.mono hs, hid, hn.mono hs⟩

lemma Wrote.mono {tunnel : Tunnel} {ttl : ℕ} (hs : h ⊆ h') (hw : Wrote h tunnel ttl t) : Wrote h' tunnel ttl t := by
  obtain ⟨r, hr⟩ := hw
  exact ⟨r, hs hr⟩

lemma Deleted.mono (hs : h ⊆ h') (hd : Deleted h id) : Deleted h' id := by
  obtain ⟨t, x, ht⟩ := hd
  exact ⟨t, x, hs ht⟩

end

variable {h : List Ev} {e : Ev} {tunnel : Tunnel} {ttl : ℕ} {t : Span Shared}

lemma wrote_snoc (hw : Wrote (h ++ [e]) tunnel ttl t) :
    Wrote h tunnel ttl t ∨ ∃ r, e = ⟨t, .redis (.setEx (.tunnel tunnel.id) (.tunnel tunnel) ttl), r⟩ := by
  obtain ⟨r, hr⟩ := hw
  obtain hr | hr := mem_snoc.mp hr
  · exact .inl ⟨r, hr⟩
  · exact .inr ⟨r, hr.symm⟩

lemma got_snoc {k : Key} {v : Option Value} (hg : Got (h ++ [e]) k v) :
    Got h k v ∨ ∃ t, e = ⟨t, .redis (.get k), .ok v⟩ := by
  obtain ⟨t, ht⟩ := hg
  obtain ht | ht := mem_snoc.mp ht
  · exact .inl ⟨t, ht⟩
  · exact .inr ⟨t, ht.symm⟩

lemma deleted_snoc {id : String} (hd : Deleted (h ++ [e]) id) :
    Deleted h id ∨ ∃ t x, e = ⟨t, .redis (.del (.tunnel id)), .ok x⟩ := by
  obtain ⟨t, x, ht⟩ := hd
  obtain ht | ht := mem_snoc.mp ht
  · exact .inl ⟨t, x, ht⟩
  · exact .inr ⟨t, x, ht.symm⟩

lemma Wrote.published (hw : Wrote h tunnel ttl t) : ¬ Unpublished h := by
  obtain ⟨r, hr⟩ := hw
  intro hu
  cases hu _ hr

lemma avoids_snoc {p : Key → Cmd} (hu : ∀ e ∈ h, ∀ k, e.cmd ≠ p k) (he : ∀ k, e.cmd ≠ p k) :
    ∀ e' ∈ h ++ [e], ∀ k, e'.cmd ≠ p k := by
  rw [List.forall_mem_append, List.forall_mem_singleton]
  exact ⟨hu, he⟩

section

variable {S β : Type} {P : List (Event S Cmd Cmd.Reply) → Cmd → Prop} {h : List (Event S Cmd Cmd.Reply)}

lemma meets_ask {ε : Type} {Q : List (Event S Cmd Cmd.Reply) → Except ε β → Prop} {c : Cmd} {f : c.Reply → ExceptT ε Program β}
    (hc : P h c) (hf : ∀ t r, Obeys P Q (f r).run (h ++ [⟨t, c, r⟩])) :
    Obeys P Q (ExceptT.lift (issue c) >>= f).run h := by
  refine meets_lift_issue hc ?_
  rintro r h' ⟨t, rfl⟩
  exact hf t r

variable {c : StoreCmd Key Value}

lemma meets_redis {Q : List (Event S Cmd Cmd.Reply) → Except ApiError β → Prop} {msg : String} {f : c.Reply → Api β}
    (hc : P h (.redis c)) (hok : ∀ t x, Obeys P Q (f x).run (h ++ [⟨t, .redis c, .ok x⟩]))
    (herror : ∀ t e e', Q (h ++ [⟨t, .redis c, .error e⟩]) (.error e')) : Obeys P Q (redis c msg >>= f).run h := by
  refine .call hc ?_
  rintro r h' ⟨t, rfl⟩
  cases r with
  | ok x => exact hok t x
  | error e => exact .ret (herror t e _)

lemma meets_query {Q : List (Event S Cmd Cmd.Reply) → Except String β → Prop} {f : c.Reply → TunnelLookup.Cache β} (hc : P h (.redis c))
    (hok : ∀ t x, Obeys P Q (f x).run (h ++ [⟨t, .redis c, .ok x⟩]))
    (herror : ∀ t e e', Q (h ++ [⟨t, .redis c, .error e⟩]) (.error e')) :
    Obeys P Q (TunnelLookup.query c >>= f).run h := by
  refine .call hc ?_
  rintro r h' ⟨t, rfl⟩
  cases r with
  | ok x => exact hok t x
  | error e => exact .ret (herror t e _)

lemma meets_lift_query {ε : Type} {Q : List (Event S Cmd Cmd.Reply) → Except ε β → Prop}
    {f : Except String c.Reply → ExceptT ε Program β} (hc : P h (.redis c))
    (hok : ∀ t x, Obeys P Q (f (.ok x)).run (h ++ [⟨t, .redis c, .ok x⟩]))
    (herror : ∀ t e e', Obeys P Q (f (.error e')).run (h ++ [⟨t, .redis c, .error e⟩])) :
    Obeys P Q (ExceptT.lift (TunnelLookup.query c).run >>= f).run h := by
  refine .call hc ?_
  rintro r h' ⟨t, rfl⟩
  cases r with
  | ok x => exact hok t x
  | error e => exact herror t e _

end

end FleetingDns
