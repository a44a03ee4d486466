import FleetingDns.TenantDiscipline
namespace FleetingDns.ApiServer

open CommandPrograms ExpiringStore ThreadPool ServerPool GuardedRuns Provenance TunnelStorage CreateFlow
  EdfCa.CertificateRegistry List
open EdfCa (certKey)

abbrev clock : ApiCmd := .quota (.base .utcNow)

abbrev reading (k : Key) : ApiCmd := .quota (.base (.redis (.get k)))

abbrev Leaves {α : Type} (Q : List Ev → α → Prop) (p : Program α) (h : List Ev) : Prop := Meets Logs (fun _ _ => True) Q p h

/-! ### What a check goes by -/

inductive Judged (d : Deployment) (serial : String) (h : List Ev) : Bool → Prop
  | unnumbered (empty : serial.isEmpty = true) : Judged d serial h false
  | unstored (memory : d.ca.persistent = false) : Judged d serial h false
  | missing {h1 h2 : List Ev} {t t' : Span ApiState} {r : Except String (Option EdfCa.Record)}
      (reads : h = h1 ++ ⟨t, .ca (.lookupActive serial), none⟩ :: ⟨t', .ca (.store (.get (certKey serial))), r⟩ :: h2)
      (other : ∀ record, r = .ok (some record) → record.asCertificate = none) : Judged d serial h false
  | found {t : Span ApiState} {now : ℕ} {cert : EdfCa.ActiveCertificate} (known : Knows h (.certificate serial cert))
      (read : (⟨t, .ca .utcNow, now⟩ : Ev) ∈ h) : Judged d serial h (decide (cert.metadata.expiresAt > now))

def Timed (h : List Ev) (lastCheck checkedAt : ℕ) : Prop :=
  ∃ (h1 : List Ev) (t t' : Span ApiState) (h2 : List Ev),
    h = h1 ++ ⟨t, clock, lastCheck⟩ :: ⟨t', clock, checkedAt⟩ :: h2

inductive Checked (d : Deployment) (tunnel : Tunnel) (h : List Ev) (info : TunnelHealthInfo) : Prop
  | expired {checkedAt : ℕ} (timed : Timed h info.lastCheck checkedAt) (late : tunnel.expiresAt < checkedAt)
      (ssh : info.details.sshConnected = false)
  | observed {checkedAt : ℕ} {t : Span ApiState} {r : Except String (Option Value)}
      (timed : Timed h info.lastCheck checkedAt) (early : checkedAt ≤ tunnel.expiresAt)
      (judged : Judged d tunnel.certificateSerial h info.details.certificateValid)
      (read : (⟨t, reading (.tunnelLive tunnel.id), r⟩ : Ev) ∈ h)
      (ssh : info.details.sshConnected = r.toOption.any Option.isSome)
      (status : info.status = if !info.details.sshConnected then .unhealthy
        else if !info.details.certificateValid then .degraded else .healthy)

variable {d : Deployment} {user : GitHubUser} {text : String} {h h' : List Ev} {info : TunnelHealthInfo}

section

variable {serial : String} {tunnel : Tunnel} {valid : Bool}

lemma Judged.mono (hs : h <+: h') (hj : Judged d serial h valid) : Judged d serial h' valid := by
  cases hj with
  | unnumbered empty => exact .unnumbered empty
  | unstored memory => exact .unstored memory
  | @missing h1 h2 t t' r reads other =>
    obtain ⟨l, rfl⟩ := hs
    have heq : h ++ l = h1 ++ ⟨t, .ca (.lookupActive serial), none⟩ ::
        ⟨t', .ca (.store (.get (certKey serial))), r⟩ :: (h2 ++ l) := by simp [reads]
    exact .missing heq other
  | found known read => exact .found (known.mono hs.subset) (hs.subset read)

lemma Timed.mono {lastCheck checkedAt : ℕ} (hs : h <+: h') (ht : Timed h lastCheck checkedAt) :
    Timed h' lastCheck checkedAt := by
  obtain ⟨l, rfl⟩ := hs
  obtain ⟨h1, t, t', h2, rfl⟩ := ht
  exact ⟨h1, t, t', h2 ++ l, by simp⟩

lemma Checked.mono (hs : h <+: h') (hc : Checked d tunnel h info) : Checked d tunnel h' info := by
  cases hc with
  | expired timed late ssh => exact .expired (timed.mono hs) late ssh
  | observed timed early judged read ssh status =>
    exact .observed (timed.mono hs) early (judged.mono hs) (hs.subset read) ssh status

lemma judges_lookup : Leaves (fun h' found => h <+: h' ∧ match found with
      | some cert => Knows h' (.certificate serial cert)
      | none => Judged d serial h' false)
    ((EdfCa.CertificateRegistry.getCertificate d.ca.persistent serial).expand ofCa) h := by
  refine .call trivial ?_
  rintro found _ ⟨t, rfl⟩
  cases found with
  | some =>
    exact .ret ⟨List.prefix_append _ _, _, List.mem_concat_self, .active⟩
  | none =>
    split_ifs with hp
    · refine .call trivial ?_
      rintro r _ ⟨t', rfl⟩
      have hpre : h <+: h ++ [⟨t, .ca (.lookupActive serial), none⟩] ++ [⟨t', .ca (.store (.get (certKey serial))), r⟩] :=
        (List.prefix_append _ _).trans (List.prefix_append _ _)
      have hmiss : (∀ record, r = .ok (some record) → record.asCertificate = none) → Judged d serial
          (h ++ [⟨t, .ca (.lookupActive serial), none⟩] ++ [⟨t', .ca (.store (.get (certKey serial))), r⟩]) false :=
        .missing (List.append_assoc _ _ _)
      rcases r with e | (_ | record)
      · exact .ret ⟨hpre, hmiss (by rintro record ⟨⟩)⟩
      · exact .ret ⟨hpre, hmiss (by rintro record ⟨⟩)⟩
      cases record with
      | malformed => exact .ret ⟨hpre, hmiss (by rintro record ⟨rfl⟩; rfl)⟩
      | certificate =>
        refine .call trivial ?_
        rintro r _ ⟨t'', rfl⟩
        refine .ret ⟨hpre.trans (List.prefix_append _ _), ?_⟩
        exact ⟨_, List.mem_append_left _ List.mem_concat_self, .archived .certificate⟩
    · exact .ret ⟨List.prefix_append _ _, .unstored (Bool.eq_false_iff.mpr hp)⟩

lemma judges_certificateValid (serial : String) :
    Leaves (fun h' r => ∃ valid, r = .ok valid ∧ h <+: h' ∧ Judged d serial h' valid)
      (certificateValid d serial).run h := by
  unfold certificateValid
  split_ifs with hempty
  · exact .ret ⟨false, rfl, prefix_refl _, .unnumbered hempty⟩
  apply meets_lift
  rw [EdfCa.validateCertificate, isCertificateValid, Prog.expand_bind]
  apply meets_seq judges_lookup
  intro h' found hfound
  cases found with
  | none => exact .ret ⟨false, rfl, hfound⟩
  | some =>
    refine .call trivial ?_
    rintro now _ ⟨t, rfl⟩
    refine .ret ⟨_, rfl, hfound.1.trans (prefix_append _ _), ?_⟩
    exact .found (hfound.2.mono (subset_append_left _ _)) mem_concat_self

lemma reads_clock : Leaves (fun h' r => ∃ t x, r = .ok x ∧ h' = h ++ [⟨t, clock, x⟩]) now.run h := by
  refine .call trivial ?_
  rintro x _ ⟨t, rfl⟩
  exact .ret ⟨t, x, rfl, rfl⟩

lemma reads_live (tunnelId : String) : Leaves (fun h' r => ∃ t x, h' = h ++ [⟨t, reading (.tunnelLive tunnelId), x⟩] ∧
    r = .ok (x.toOption.any Option.isSome)) (sshConnected tunnelId).run h := by
  refine .call trivial ?_
  rintro x _ ⟨t, rfl⟩
  cases x with
  | error e => exact .ret ⟨t, .error e, rfl, rfl⟩
  | ok v => exact .ret ⟨t, .ok v, rfl, rfl⟩

lemma checks_health (tunnel : Tunnel) :
    Leaves (fun h' r => ∃ info, r = .ok info ∧ h <+: h' ∧ Checked d tunnel h' info)
      (performTunnelHealthChecks d tunnel).run h := by
  refine meets_except_seq reads_clock ?_ (by rintro _ _ ⟨_, _, ⟨⟩, -⟩)
  rintro _ lastCheck ⟨t, _, ⟨rfl⟩, rfl⟩
  refine meets_except_seq reads_clock ?_ (by rintro _ _ ⟨_, _, ⟨⟩, -⟩)
  rintro _ checkedAt ⟨t', _, ⟨rfl⟩, rfl⟩
  have htimed : Timed (h ++ [⟨t, clock, lastCheck⟩] ++ [⟨t', clock, checkedAt⟩]) lastCheck checkedAt :=
    ⟨h, t, t', [], by simp⟩
  have hpre : h <+: h ++ [⟨t, clock, lastCheck⟩] ++ [⟨t', clock, checkedAt⟩] :=
    (prefix_append _ _).trans (prefix_append _ _)
  split
  · rename_i hlate
    exact .ret ⟨_, rfl, hpre, .expired htimed hlate rfl⟩
  rename_i hlate
  refine meets_except_seq (judges_certificateValid tunnel.certificateSerial) ?_ (by rintro _ _ ⟨_, ⟨⟩, -⟩)
  rintro h1 valid ⟨_, ⟨rfl⟩, hpre1, hjudged⟩
  refine meets_except_seq (reads_live tunnel.id) ?_ (by rintro _ _ ⟨_, _, -, ⟨⟩⟩)
  rintro _ ssh ⟨t1, x, rfl, ⟨rfl⟩⟩
  have hpre2 := hpre1.trans (prefix_append h1 [⟨t1, reading (.tunnelLive tunnel.id), x⟩])
  refine .ret ⟨_, rfl, hpre.trans hpre2, ?_⟩
  exact .observed (htimed.mono hpre2) (not_lt.mp hlate) (hjudged.mono (prefix_append _ _))
    mem_concat_self rfl rfl

end

/-! ### What a request reports -/

inductive Examined (d : Deployment) (text : String) (h : List Ev) (info : TunnelHealthInfo) : Prop
  | intro {uuid : String} {tunnel : Tunnel} {t : Span ApiState} (parsed : d.parseUuid text = some uuid)
      (read : (⟨t, reading (.tunnel uuid), .ok (some (.tunnel tunnel))⟩ : Ev) ∈ h) (checked : Checked d tunnel h info)

inductive Unseen (d : Deployment) (user : GitHubUser) (text : String) (h : List Ev) : Prop
  | malformed (parsed : d.parseUuid text = none)
  | refused {uuid : String} {t : Span ApiState} {r : Except String (Option Value)} (parsed : d.parseUuid text = some uuid)
      (read : (⟨t, reading (.tunnel uuid), r⟩ : Ev) ∈ h)
      (other : ∀ tunnel, r = .ok (some (.tunnel tunnel)) → tunnel.githubUserId ≠ user.id)

structure Gathered (d : Deployment) (user : GitHubUser) (h : List Ev) (results : List TunnelHealthResult)
    (texts : List String) : Prop where
  examined : ∀ x ∈ results, Examined d x.tunnelId h x.healthInfo
  covered : ∀ text ∈ texts, Unseen d user text h ∨ ∃ info, ⟨text, info⟩ ∈ results

def Asks (text : String) : Route → Prop
  | .getTunnelHealth tunnelId => tunnelId = text
  | .getBulkTunnelHealth tunnelIds => text ∈ tunnelIds ∧ tunnelIds.length ≤ 100
  | _ => False

def Reported (text : String) (info : TunnelHealthInfo) : Response → Prop
  | .ok (.health r) => r = info
  | .ok (.bulkHealth r) => ⟨text, info⟩ ∈ r.healthResults
  | _ => False

section

lemma Examined.mono (hs : h <+: h') (he : Examined d text h info) : Examined d text h' info := by
  obtain ⟨parsed, read, checked⟩ := he
  exact ⟨parsed, hs.subset read, checked.mono hs⟩

lemma Unseen.mono (hs : h <+: h') (hu : Unseen d user text h) : Unseen d user text h' := by
  cases hu with
  | malformed parsed => exact .malformed parsed
  | refused parsed read other => exact .refused parsed (hs.subset read) other

variable {results : List TunnelHealthResult} {uuid : String}

lemma Gathered.mono {texts : List String} (hs : h <+: h') (hg : Gathered d user h results texts) :
    Gathered d user h' results texts where
  examined x hx := (hg.examined x hx).mono hs
  covered text ht := (hg.covered text ht).imp_left fun hu => hu.mono hs

def Fetched (uuid : String) (h h' : List Ev) (r : Except ApiError (Option Tunnel)) : Prop :=
  ∃ t x, h' = h ++ [⟨t, reading (.tunnel uuid), x⟩] ∧ ∀ tunnel, x = .ok (some (.tunnel tunnel)) ↔ r = .ok (some tunnel)

lemma fetches (uuid : String) : Leaves (Fetched uuid h) (storage (TunnelStorage.getTunnel uuid)).run h := by
  refine .call trivial ?_
  rintro x _ ⟨t, rfl⟩
  rcases x with e | (_ | v)
  · exact .ret ⟨t, .error e, rfl, by simp⟩
  · exact .ret ⟨t, .ok none, rfl, by simp⟩
  · cases v with
    | tunnel tunnel => exact .ret ⟨t, .ok (some (.tunnel tunnel)), rfl, by simp⟩
    | _ => exact .ret ⟨t, _, rfl, by simp⟩

lemma Fetched.unseen {r : Except ApiError (Option Tunnel)} (hparse : d.parseUuid text = some uuid)
    (hf : Fetched uuid h h' r) (hother : ∀ tunnel, r = .ok (some tunnel) → tunnel.githubUserId ≠ user.id) :
    Unseen d user text h' := by
  obtain ⟨t, x, rfl, hx⟩ := hf
  refine .refused hparse mem_concat_self ?_
  intro tunnel htunnel
  exact hother tunnel ((hx tunnel).mp htunnel)

lemma Fetched.examined {tunnel : Tunnel} {h1 : List Ev} (hparse : d.parseUuid text = some uuid)
    (hf : Fetched uuid h h1 (.ok (some tunnel))) (hpre : h1 <+: h') (hc : Checked d tunnel h' info) :
    h <+: h' ∧ Examined d text h' info := by
  obtain ⟨t, x, rfl, hx⟩ := hf
  obtain rfl := (hx tunnel).mpr rfl
  have hread := hpre.subset mem_concat_self
  exact ⟨(prefix_append _ _).trans hpre, hparse, hread, hc⟩

lemma examines_tunnel (text : String) :
    Leaves (fun h' r => (Unseen d user text h' ∧ ∃ e, r = .error e) ∨ ∃ info, r = .ok info ∧ Examined d text h' info)
      (getTunnelHealth d user text).run h := by
  unfold getTunnelHealth parseTunnelId
  rcases hparse : d.parseUuid text with _ | uuid
  · exact .ret (.inl ⟨.malformed hparse, _, rfl⟩)
  refine meets_except_seq (M := fun h' r => h' = h ∧ r = .ok uuid) (.ret ⟨rfl, rfl⟩) ?_ (by rintro _ _ ⟨-, ⟨⟩⟩)
  rintro _ _ ⟨rfl, ⟨rfl⟩⟩
  refine meets_except_seq (fetches _) ?_ (fun _ _ hf => .inl ⟨hf.unseen hparse (by rintro _ ⟨⟩), _, rfl⟩)
  intro h1 found hf
  obtain _ | tunnel := found
  · exact .ret (.inl ⟨hf.unseen hparse (by rintro _ ⟨⟩), _, rfl⟩)
  dsimp only
  split_ifs with howner
  · exact .ret (.inl ⟨hf.unseen hparse (by rintro _ ⟨rfl⟩; exact howner), _, rfl⟩)
  · refine meets_mono (fun _ _ hc => hc) ?_ (checks_health tunnel)
    rintro h2 r ⟨info, rfl, hpre, hchecked⟩
    exact .inr ⟨info, rfl, (hf.examined hparse hpre hchecked).2⟩

lemma examines_each (text : String) :
    Leaves (fun h' r => h <+: h' ∧ ((Unseen d user text h' ∧ ∃ e, r = .error e) ∨
      ∃ info, r = .ok ⟨text, info⟩ ∧ Examined d text h' info)) (bulkHealthOf d user text) h := by
  unfold bulkHealthOf
  rcases hparse : d.parseUuid text with _ | uuid
  · exact .ret ⟨prefix_refl _, .inl ⟨.malformed hparse, _, rfl⟩⟩
  apply meets_seq (fetches uuid)
  intro h1 found hf
  have hpre : h <+: h1 := by
    obtain ⟨t, x, rfl, -⟩ := hf
    exact prefix_append _ _
  rcases found with e | (_ | tunnel)
  · exact .ret ⟨hpre, .inl ⟨hf.unseen hparse (by rintro _ ⟨⟩), _, rfl⟩⟩
  · exact .ret ⟨hpre, .inl ⟨hf.unseen hparse (by rintro _ ⟨⟩), _, rfl⟩⟩
  dsimp only
  split_ifs with howner
  · exact .ret ⟨hpre, .inl ⟨hf.unseen hparse (by rintro _ ⟨rfl⟩; exact howner), _, rfl⟩⟩
  · apply meets_seq (checks_health tunnel)
    rintro h2 _ ⟨info, rfl, hpre', hchecked⟩
    obtain ⟨hpre2, hexamined⟩ := hf.examined hparse hpre' hchecked
    exact .ret ⟨hpre2, .inr ⟨info, rfl, hexamined⟩⟩

lemma gathers_bulk {errors : List HealthError} {texts ids : List String} (hg : Gathered d user h results texts) :
    Leaves (fun h' r => Gathered d user h' r.1 (texts ++ ids)) (bulkHealth d user results errors ids) h := by
  induction ids generalizing results errors texts h with
  | nil =>
    rw [append_nil]
    exact .ret hg
  | cons text ids ih =>
    apply meets_seq (examines_each text)
    rintro h1 _ ⟨hpre, ⟨hunseen, e, rfl⟩ | ⟨info, rfl, hexamined⟩⟩
    · have hg1 : Gathered d user h1 results (texts ++ [text]) := by
        refine ⟨(hg.mono hpre).examined, ?_⟩
        intro text' ht
        obtain ht | rfl := mem_snoc.mp ht
        · exact (hg.mono hpre).covered text' ht
        · exact .inl hunseen
      simpa using ih hg1
    have hg1 : Gathered d user h1 (results ++ [⟨text, info⟩]) (texts ++ [text]) := by
      constructor
      · intro x hx
        obtain hx | rfl := mem_snoc.mp hx
        · exact (hg.mono hpre).examined x hx
        · exact hexamined
      intro text' ht
      obtain ht | rfl := mem_snoc.mp ht
      · obtain hu | ⟨info', hi⟩ := (hg.mono hpre).covered text' ht
        · exact .inl hu
        · exact .inr ⟨info', mem_append_left _ hi⟩
      · exact .inr ⟨info, mem_concat_self⟩
    simpa using ih hg1

lemma leaves_allowed {α : Type} {p : Prop} [Decidable p] {e : ApiError} {f : Unit → Handler α}
    {Q : List Ev → Except ApiError α → Prop} (hp : ¬ p) (hf : Leaves Q (f ()).run h) :
    Leaves Q (reject p e >>= f).run h := by
  rw [reject, if_neg hp]
  exact hf

lemma examines_bulk {tunnelIds : List String} (hne : tunnelIds ≠ []) (hlen : tunnelIds.length ≤ 100) :
    Leaves (fun h r => ∃ response, r = .ok response ∧ Gathered d user h response.healthResults tunnelIds)
      (getBulkTunnelHealth d user tunnelIds).run [] := by
  have hnone : Gathered d user [] [] [] := ⟨by rintro _ ⟨⟩, by rintro _ ⟨⟩⟩
  have hall : Leaves (fun h r => ∃ x, r = .ok x ∧ Gathered d user h x.1 tunnelIds)
      (ExceptT.lift (bulkHealth d user [] [] tunnelIds) : Handler _).run [] := by
    apply meets_lift
    exact meets_mono (fun _ _ hc => hc) (fun h x hg => ⟨x, rfl, hg⟩) (gathers_bulk hnone)
  apply leaves_allowed (mt List.isEmpty_iff.mp hne)
  apply leaves_allowed (not_lt.mpr hlen)
  refine meets_except_seq hall ?_ (by rintro _ _ ⟨_, ⟨⟩, -⟩)
  rintro h _ ⟨x, ⟨rfl⟩, hg⟩
  exact .ret ⟨_, rfl, hg⟩

lemma leaves_body {α : Type} {x : Handler α} {body : α → Body} {M : List Ev → Except ApiError α → Prop}
    {Q : List Ev → Option Response → Prop} (hx : Leaves M x.run h) (hQ : ∀ h r, M h r → Q h (some (r.map body))) :
    Leaves Q (do return some (← (body <$> x).run)) h := by
  refine meets_bind (meets_seq hx ?_)
  intro h' r hr
  cases r with
  | ok a => exact .ret (.ret (hQ h' (.ok a) hr))
  | error e => exact .ret (.ret (hQ h' (.error e) hr))

def EndsHealth (d : Deployment) (request : Request) (h : List Ev) (x : Option Response) : Prop :=
  ∀ text r, Asks text request.route → x = some r → (∀ info, Reported text info r → Examined d text h info) ∧
    (Unseen d request.user text h ∨ ∃ info, Reported text info r)

lemma request_reports (d : Deployment) (request : Request) : Leaves (EndsHealth d request) (request.program d) [] := by
  obtain ⟨user, route⟩ := request
  cases route with
  | getTunnelHealth tunnelId =>
    apply leaves_body (examines_tunnel tunnelId)
    rintro h _ (⟨hunseen, e, rfl⟩ | ⟨info, rfl, hexamined⟩) text _ ⟨rfl⟩ ⟨rfl⟩
    · exact ⟨by rintro _ ⟨⟩, .inl hunseen⟩
    · exact ⟨by rintro _ rfl; exact hexamined, .inr ⟨info, rfl⟩⟩
  | getBulkTunnelHealth tunnelIds =>
    by_cases hasked : tunnelIds ≠ [] ∧ tunnelIds.length ≤ 100
    · apply leaves_body (examines_bulk hasked.1 hasked.2)
      rintro h _ ⟨response, rfl, hg⟩ text _ ⟨ht, -⟩ ⟨rfl⟩
      exact ⟨fun info hi => hg.examined _ hi, hg.covered text ht⟩
    · refine meets_any (fun _ _ => trivial) ?_ _ _
      rintro h x text r ⟨ht, hlen⟩
      exact absurd ⟨ne_nil_of_mem ht, hlen⟩ hasked
  | _ =>
    refine meets_any (fun _ _ => trivial) ?_ _ _
    rintro h x text r ⟨⟩

end

end FleetingDns.ApiServer
