import FleetingDns.ApiAuthority
import FleetingDns.HealthChecks
import FleetingDns.TunnelLifetime
namespace FleetingDns.ApiServer

open CommandPrograms ExpiringStore ThreadPool ServerPool GuardedRuns Provenance TunnelStorage CreateFlow List
  EdfCa.CertificateRegistry Option EdfCa.CaState
open EdfCa (certKey)

variable {d : Deployment} {h : List Ev}

abbrev recording (tunnel : Tunnel) (ttl : ℕ) : ApiCmd :=
  .quota (.base (.redis (.setEx (.tunnel tunnel.id) (.tunnel tunnel) ttl)))

def Healthy (info : TunnelHealthInfo) : Prop :=
  info.status = .healthy ∧ info.details.certificateValid = true ∧ info.details.sshConnected = true

structure Thriving (tunnel : Tunnel) (s : ApiState) : Prop where
  recorded : (s.store.lookup (.tunnel tunnel.id)).map Entry.value = some (.tunnel tunnel)
  unexpired : s.quota.shared.now ≤ tunnel.expiresAt
  live : (s.store.lookup (.tunnelLive tunnel.id)).isSome = true

/-- The certificate has more than its last second left; without a restart since its registration, any time left. -/
def Covers (cert : EdfCa.ActiveCertificate) (boots : ℕ) (s : ApiState) : Prop :=
  s.quota.shared.now + second ≤ cert.metadata.expiresAt ∨
    s.quota.shared.now < cert.metadata.expiresAt ∧ s.ca.boots = boots

instance (tunnel : Tunnel) (s : ApiState) : Decidable (Thriving tunnel s) :=
  decidable_of_iff ((s.store.lookup (.tunnel tunnel.id)).map Entry.value = some (.tunnel tunnel) ∧
    s.quota.shared.now ≤ tunnel.expiresAt ∧ (s.store.lookup (.tunnelLive tunnel.id)).isSome = true)
    ⟨fun h => ⟨h.1, h.2.1, h.2.2⟩, fun h => ⟨h.recorded, h.unexpired, h.live⟩⟩

instance (cert : EdfCa.ActiveCertificate) (boots : ℕ) (s : ApiState) : Decidable (Covers cert boots s) :=
  inferInstanceAs (Decidable (_ ∨ _))

structure Attested (d : Deployment) (cert : EdfCa.ActiveCertificate) (boots : ℕ) (e : Ev) : Prop where
  performed : ∃ o, e.span.before.perform d e.cmd o = some (e.span.after, e.reply)
  succeeded : succeeds e.cmd e.reply = true
  retained : Retained cert boots e.span.before.ca
  clock : e.span.before.ca.now = e.span.before.quota.shared.now

variable {w w1 w2 : ApiPool} {now i tid : ℕ} {db : Plans.PlanDb} {cert : EdfCa.ActiveCertificate} {tunnel : Tunnel}
  {maker th : ApiThread} {t : Span ApiState}

section

variable {boots : ℕ} {info : TunnelHealthInfo}

lemma serial_nonempty {serial : String} (hn : Numbered h serial) : serial.isEmpty = false := by
  obtain ⟨⟨t, c, r⟩, -, heq⟩ := hn
  unfold drawnSerial at heq
  split at heq
  · cases heq
    simp [EdfCa.uuidText]
  · cases heq

lemma reading_replied {k : Key} {t : Span ApiState} {r : Except String (Option Value)}
    (ha : Attested d cert boots ⟨t, reading k, r⟩) : r = .ok ((t.before.store.lookup k).map Entry.value) := by
  obtain ⟨o, hp⟩ := ha.performed
  obtain ⟨o', st, hst, -⟩ := perform_redis hp
  cases r with
  | error => cases ha.succeeded
  | ok => rw [(perform_get hst).2]

lemma perform_clock {s s' : ApiState} {x : ℕ} {o : ApiChoice} (hp : s.perform d clock o = some (s', x)) :
    s' = s ∧ x = s.quota.shared.now := by
  cases performed hp with
  | quota perform =>
    obtain ⟨rfl, rfl⟩ := Quota.perform_utcNow perform
    exact ⟨rfl, rfl⟩

lemma perform_authority {s s' : ApiState} {c : EdfCa.Cmd} {r : c.Reply} {o : ApiChoice}
    (hp : s.perform d (.ca c) o = some (s', r)) : ∃ o', s.ca.perform c o' = some (s'.ca, r) := by
  cases performed hp with
  | ca perform => exact ⟨_, perform⟩

lemma Covers.unexpired {s : ApiState} (hc : Covers cert boots s) : s.quota.shared.now < cert.metadata.expiresAt := by
  obtain hc | ⟨hc, -⟩ := hc
  · unfold second at hc
    omega
  · exact hc

lemma known_certificate {cert' : EdfCa.ActiveCertificate} (ha : ∀ e ∈ h, Attested d cert boots e)
    (hk : Knows h (.certificate cert.metadata.serialNumber cert')) : cert' = cert := by
  obtain ⟨⟨t, c, r⟩, he, hl⟩ := hk
  obtain ⟨o, hperf⟩ := (ha _ he).performed
  have hretained := (ha _ he).retained
  cases hl with
  | stored tells => cases tells
  | archived certifies =>
    cases certifies
    obtain ⟨o', hget⟩ := perform_authority hperf
    obtain ⟨e, hentry, hvalue⟩ := map_eq_some_iff.mp (perform_get hget).symm
    rw [hretained.stored e hentry] at hvalue
    cases hvalue
    rfl
  | active =>
    obtain ⟨o', hlookup⟩ := perform_authority hperf
    exact hretained.active cert' (perform_lookupActive hlookup).symm

lemma missed_late {t t' : Span ApiState} {r : Except String (Option EdfCa.Record)}
    (hcached : Attested d cert boots ⟨t, .ca (.lookupActive cert.metadata.serialNumber), none⟩)
    (hstored : Attested d cert boots ⟨t', .ca (.store (.get (certKey cert.metadata.serialNumber))), r⟩)
    (hboots : t.after.ca.boots ≤ t'.before.ca.boots)
    (hother : ∀ record, r = .ok (some record) → record.asCertificate = none) (hc : Covers cert boots t.before) :
    ¬ Covers cert boots t'.before := by
  obtain ⟨⟨o, hperf⟩, -, hretained, hclock⟩ := hcached
  obtain ⟨o1, hlookup⟩ := perform_authority hperf
  -- an unexpired certificate leaves the cache only with a restart
  have hlost : boots < t.before.ca.boots := by
    obtain hb | hexp | hl := hretained.present
    · exact hb
    · have hu := EdfCa.unexpired_iff.mpr (hclock ▸ hc.unexpired)
      rw [hexp] at hu
      cases hu
    · have hnone := perform_lookupActive hlookup
      rw [hl] at hnone
      cases hnone
  obtain ⟨⟨o', hperf'⟩, hsucceeded, hretained', hclock'⟩ := hstored
  obtain ⟨o2, hget⟩ := perform_authority hperf'
  obtain _ | _ := r
  · cases hsucceeded
  -- its copy in the store goes by whole seconds, and may go in the last one
  obtain hexp | ⟨deadline, hentry, -⟩ := hretained'.lasting
  · have hsame : t.after.ca.boots = t.before.ca.boots := perform_boots hlookup
    rintro (hlong | ⟨-, heq⟩)
    · rw [hclock'] at hexp
      exact absurd hexp (not_lt.mpr hlong)
    · omega
  · have hx := perform_get hget
    rw [hentry] at hx
    cases hother _ (congrArg _ hx)

lemma judged_valid {valid : Bool} (hp : d.ca.persistent = true) (hne : cert.metadata.serialNumber.isEmpty = false)
    (ha : ∀ e ∈ h, Attested d cert boots e)
    (hb : h.Pairwise fun e e' => e.span.after.ca.boots ≤ e'.span.before.ca.boots)
    (hc : ∀ e ∈ h, Covers cert boots e.span.before) (hj : Judged d cert.metadata.serialNumber h valid) : valid = true := by
  cases hj with
  | unnumbered empty =>
    rw [hne] at empty
    cases empty
  | unstored memory =>
    rw [hp] at memory
    cases memory
  | @missing h1 h2 t t' r reads other =>
    subst reads
    simp only [forall_mem_append, forall_mem_cons] at ha hc
    obtain ⟨-, hcached, hstored, -⟩ := ha
    have hboots := (pairwise_cons.mp (pairwise_append.mp hb).2.1).1 _ mem_cons_self
    exact absurd hc.2.2.1 (missed_late hcached hstored hboots other hc.2.1)
  | @found t now cert' known read =>
    obtain rfl := known_certificate ha known
    obtain ⟨o, hperf⟩ := (ha _ read).performed
    obtain ⟨o', hnow⟩ := perform_authority hperf
    have hread : now = t.before.ca.now := (perform_utcNow hnow).2
    rw [hread, (ha _ read).clock]
    exact decide_eq_true (hc _ read).unexpired

lemma checked_healthy (hp : d.ca.persistent = true) (hs : tunnel.certificateSerial = cert.metadata.serialNumber)
    (hne : cert.metadata.serialNumber.isEmpty = false) (ha : ∀ e ∈ h, Attested d cert boots e)
    (hb : h.Pairwise fun e e' => e.span.after.ca.boots ≤ e'.span.before.ca.boots)
    (hf : ∀ e ∈ h, Thriving tunnel e.span.before) (hcover : ∀ e ∈ h, Covers cert boots e.span.before)
    (hc : Checked d tunnel h info) : Healthy info := by
  cases hc with
  | @expired checkedAt timed late ssh =>
    obtain ⟨h1, t, t', h2, rfl⟩ := timed
    have hmem : ⟨t', clock, checkedAt⟩ ∈ h1 ++ ⟨t, clock, info.lastCheck⟩ :: ⟨t', clock, checkedAt⟩ :: h2 := by simp
    obtain ⟨o, hperf⟩ := (ha _ hmem).performed
    have hread : checkedAt = t'.before.quota.shared.now := (perform_clock hperf).2
    rw [hread] at late
    exact absurd (hf _ hmem).unexpired (not_le.mpr late)
  | @observed checkedAt t r timed early judged read ssh status =>
    rw [hs] at judged
    have hvalid := judged_valid hp hne ha hb hcover judged
    have hssh : info.details.sshConnected = true := by
      rw [ssh, reading_replied (ha _ read)]
      exact (isSome_map ..).trans (hf _ read).live
    rw [hvalid, hssh] at status
    exact ⟨status, hvalid, hssh⟩

section

variable {G : ApiPool → Action → Prop} {ttl : ℕ}

lemma recorded_certified {r : Except String Unit} (hr : Reach (step (apiServer d)) G (start d now db) w)
    (hmaker : w.threads[i]? = some maker) (he : ⟨t, recording tunnel ttl, r⟩ ∈ maker.history) :
    tunnel.githubUserId = maker.call.user.id ∧ tunnel.certificateSerial.isEmpty = false ∧
      ∃ t cert, (⟨t, .ca (.insertActive tunnel.certificateSerial cert), ()⟩ : Ev) ∈ maker.history ∧
        cert.metadata.expiresAt = cert.metadata.issuedAt + d.ca.ca.defaultTtl := by
  obtain ⟨l1, l2, heq⟩ := append_of_mem he
  have hmay := (reach_keeps request_obeys (fun _ _ => trivial) hr i maker hmaker).1 l1 _ l2 heq
  obtain ⟨_, ⟨rfl⟩, howner, -, hnumbered, t', cert, hmem, hexpires⟩ := hmay
  refine ⟨howner, serial_nonempty hnumbered, t', cert, ?_, hexpires⟩
  rw [heq]
  exact mem_append_left _ hmem

lemma attested_later {serial : String} (hp : d.ca.persistent = true)
    (h1 : Reach (step (apiServer d)) (Dependable d) (start d now db) w1)
    (h2 : Reach (step (apiServer d)) (Dependable d) w1 w2) (hmaker : w1.threads[i]? = some maker)
    (hins : ⟨t, .ca (.insertActive serial cert), ()⟩ ∈ maker.history) (hlate : w1.threads.length ≤ tid)
    (hth : w2.threads[tid]? = some th) {e : Ev} (he : e ∈ th.history) : Attested d cert t.after.ca.boots e := by
  obtain ⟨w, o, u, hr, -, hg, hi, hbefore, hperf⟩ := event_reached h2 hlate hth he
  refine ⟨⟨o, ?_⟩, hg.succeeds hi hperf, ?_, ?_⟩
  · rw [hbefore]
    exact hperf
  · rw [hbefore]
    exact (retained_run hp h1 hr hmaker hins).2
  · rw [hbefore]
    exact reach_clock (h1.trans hr)

lemma connected_unexpired (hr : Reach (step (apiServer d)) G (start d now db) w) (hth : w.threads[tid]? = some th)
    (hc : Checked d tunnel th.history info) (hssh : info.details.sshConnected = true) :
    info.lastCheck ≤ tunnel.expiresAt := by
  cases hc with
  | expired timed late ssh =>
    rw [ssh] at hssh
    cases hssh
  | @observed checkedAt _ _ timed early judged read ssh status =>
    obtain ⟨l1, t1, t2, l2, heq⟩ := timed
    have hread : ∀ t (x : ℕ), ⟨t, clock, x⟩ ∈ th.history →
        t.after = t.before ∧ x = t.before.quota.shared.now := by
      intro t x he
      obtain ⟨o, hperf⟩ := event_performed hr hth he
      exact perform_clock hperf
    have hordered := (reach_ordered (m := fun s => s.quota.shared.now) (fun _ _ _ => now_step) hr hth).1
    obtain ⟨hafter, hlast⟩ := hread t1 info.lastCheck (by rw [heq]; simp)
    obtain ⟨-, hchecked⟩ := hread t2 checkedAt (by rw [heq]; simp)
    rw [heq] at hordered
    have hle : t1.after.quota.shared.now ≤ t2.before.quota.shared.now :=
      (pairwise_cons.mp (pairwise_append.mp hordered).2.1).1 _ mem_cons_self
    rw [hafter] at hle
    omega

end

end

section

variable {text : String} {r : Response}

lemma report_unexpired {G : ApiPool → Action → Prop} {info : TunnelHealthInfo}
    (hr : Reach (step (apiServer d)) G (start d now db) w) (hth : w.threads[tid]? = some th)
    (hasks : Asks text th.call.route) (hprog : th.prog = .ret (some r)) (hinfo : Reported text info r)
    (hssh : info.details.sshConnected = true) :
    ∃ uuid t tunnel, d.parseUuid text = some uuid ∧
      (⟨t, reading (.tunnel uuid), .ok (some (.tunnel tunnel))⟩ : Ev) ∈ th.history ∧ info.lastCheck ≤ tunnel.expiresAt := by
  have hends := (reach_keeps (request_reports d) (by rintro _ _ _ _ _ ⟨⟩) hr).ends hth hprog
  obtain ⟨hparsed, hread, hchecked⟩ := (hends text r hasks rfl).1 info hinfo
  exact ⟨_, _, _, hparsed, hread, connected_unexpired hr hth hchecked hssh⟩

lemma report_healthy (hp : d.ca.persistent = true) (h1 : Reach (step (apiServer d)) (Dependable d) (start d now db) w1)
    (h2 : Reach (step (apiServer d)) (Dependable d) w1 w2) (hmaker : w1.threads[i]? = some maker)
    (hins : ⟨t, .ca (.insertActive tunnel.certificateSerial cert), ()⟩ ∈ maker.history)
    (hne : tunnel.certificateSerial.isEmpty = false) (hlate : w1.threads.length ≤ tid) (hth : w2.threads[tid]? = some th)
    (howner : tunnel.githubUserId = th.call.user.id) (hasks : Asks text th.call.route)
    (hparse : d.parseUuid text = some tunnel.id) (hprog : th.prog = .ret (some r))
    (hthriving : ∀ e ∈ th.history, Thriving tunnel e.span.before)
    (hcovers : ∀ e ∈ th.history, Covers cert t.after.ca.boots e.span.before) :
    (∃ info, Reported text info r) ∧ ∀ info, Reported text info r → Healthy info := by
  have hserial := (retained_run hp h1 h2 hmaker hins).1
  have hends := (reach_keeps (request_reports d) (by rintro _ _ _ _ _ ⟨⟩) (h1.trans h2)).ends hth hprog
  obtain ⟨hreports, hseen⟩ := hends text r hasks rfl
  have hattested : ∀ e ∈ th.history, Attested d cert t.after.ca.boots e :=
    fun e he => attested_later hp h1 h2 hmaker hins hlate hth he
  have hboots := (reach_ordered (m := fun s => s.ca.boots) (fun _ _ _ hs => (clock_step hs).2) (h1.trans h2) hth).1
  have hrecord : ∀ {t : Span ApiState} {x : Except String (Option Value)},
      ⟨t, reading (.tunnel tunnel.id), x⟩ ∈ th.history → x = .ok (some (.tunnel tunnel)) := by
    intro t x he
    rw [reading_replied (hattested _ he)]
    exact congrArg _ (hthriving _ he).recorded
  constructor
  · obtain hunseen | hfound := hseen
    · cases hunseen with
      | malformed parsed => cases hparse.symm.trans parsed
      | refused parsed read other =>
        obtain rfl := mem_unique hparse parsed
        exact absurd howner (other tunnel (hrecord read))
    · exact hfound
  intro info hinfo
  obtain ⟨hparsed, hread, hchecked⟩ := hreports info hinfo
  obtain rfl := mem_unique hparse hparsed
  cases hrecord hread
  rw [hserial] at hne
  exact checked_healthy hp hserial hne hattested hboots hthriving hcovers hchecked

theorem tunnel_health (d : Deployment) (now : ℕ) (db : Plans.PlanDb) :
    (∀ w (tid : ℕ) (th : ApiThread) text info r, Reach (step (apiServer d)) Free (start d now db) w →
      w.threads[tid]? = some th → Asks text th.call.route → th.prog = .ret (some r) → Reported text info r →
      info.details.sshConnected = true →
      ∃ uuid t tunnel, d.parseUuid text = some uuid ∧
        (⟨t, reading (.tunnel uuid), .ok (some (.tunnel tunnel))⟩ : Ev) ∈ th.history ∧ info.lastCheck ≤ tunnel.expiresAt) ∧
    (d.ca.persistent = true → ∀ w1 w2 (i : ℕ) (maker : ApiThread) creation t tunnel ttl,
      Reach (step (apiServer d)) (Dependable d) (start d now db) w1 → Reach (step (apiServer d)) (Dependable d) w1 w2 →
      w1.threads[i]? = some maker → maker.call.route = .createTunnel creation →
      (⟨t, recording tunnel ttl, .ok ()⟩ : Ev) ∈ maker.history →
      ∃ (t' : Span ApiState) (cert : EdfCa.ActiveCertificate),
        (⟨t', .ca (.insertActive tunnel.certificateSerial cert), ()⟩ : Ev) ∈ maker.history ∧
        cert.metadata.expiresAt = cert.metadata.issuedAt + d.ca.ca.defaultTtl ∧
        ∀ tid (th : ApiThread) text r, w1.threads.length ≤ tid → w2.threads[tid]? = some th →
          th.call.user.id = maker.call.user.id → Asks text th.call.route → d.parseUuid text = some tunnel.id →
          th.prog = .ret (some r) → (∀ e ∈ th.history, Thriving tunnel e.span.before) →
          (∀ e ∈ th.history, Covers cert t'.after.ca.boots e.span.before) →
          (∃ info, Reported text info r) ∧ ∀ info, Reported text info r → Healthy info) := by
  constructor
  · intro w tid th text info r hr hth hasks hprog hinfo hssh
    exact report_unexpired hr hth hasks hprog hinfo hssh
  · intro hp w1 w2 i maker creation t tunnel ttl h1 h2 hmaker _ hstored
    obtain ⟨howner, hne, t', cert, hins, hexpires⟩ := recorded_certified h1 hmaker hstored
    refine ⟨t', cert, hins, hexpires, ?_⟩
    intro tid th text r hlate hth huser hasks hparse hprog hthriving hcovers
    exact report_healthy hp h1 h2 hmaker hins hne hlate hth (howner.trans huser.symm) hasks hparse hprog hthriving hcovers

end

structure Told (w1 w2 : ApiPool) (maker th : ApiThread) (tunnel : Tunnel) (info : TunnelHealthInfo) : Prop where
  made : w1.threads[0]? = some maker
  created : ∃ creation, maker.call.route = .createTunnel creation
  stored : ∃ t ttl, (⟨t, recording tunnel ttl, .ok ()⟩ : Ev) ∈ maker.history
  checked : w2.threads[1]? = some th
  owned : th.call.user.id = maker.call.user.id
  asked : Asks tunnel.id th.call.route
  answered : th.prog = .ret (some (.ok (.health info)))
  thriving : ∀ e ∈ th.history, Thriving tunnel e.span.before

namespace Schedule

open FleetingDns.Schedule (bob)

def opened : List Action :=
  .arrive ⟨bob, .createTunnel (FleetingDns.Schedule.request 3600 "demo")⟩ :: each 0 (create 10000 "t1" EdfCa.Schedule.first)

def asked (δ : ℕ) : List Action :=
  [.drift (.tick δ), .drift (.put (.tunnelLive "t1") (some ⟨.text "1", none⟩)), .arrive ⟨bob, .getTunnelHealth "t1"⟩]

def recordOf (h : List Ev) : Option Tunnel := h.findSome? fun
  | ⟨_, .quota (.base (.redis (.setEx (.tunnel id) (.tunnel tunnel) _))), .ok _⟩ =>
    if id = tunnel.id then some tunnel else none
  | _ => none

def certificates (h : List Ev) : List (ℕ × EdfCa.ActiveCertificate) := h.filterMap fun
  | ⟨t, .ca (.insertActive _ cert), _⟩ => some (t.after.ca.boots, cert)
  | _ => none

def made (w : ApiPool) : Option (ApiThread × Tunnel) := w.threads[0]?.bind fun maker =>
  match maker.call.route with
  | .createTunnel _ => (recordOf maker.history).map fun tunnel => (maker, tunnel)
  | _ => none

def answered (text : String) (w : ApiPool) : Option (ApiThread × TunnelHealthInfo) := w.threads[1]?.bind fun th =>
  match th.call.route, th.prog with
  | .getTunnelHealth tunnelId, .ret (some (.ok (.health info))) => if tunnelId = text then some (th, info) else none
  | _, _ => none

def told (p : ApiThread → ApiThread → TunnelHealthInfo → Bool) (w1 w2 : ApiPool) : Bool :=
  (made w1).any fun m => (answered m.2.id w2).any fun c => decide (c.1.call.user.id = m.1.call.user.id) &&
    decide (∀ e ∈ c.1.history, Thriving m.2 e.span.before) && p m.1 c.1 c.2

end Schedule

section

open FleetingDns.ApiServer.Schedule
open FleetingDns.Schedule (bob)

lemma recordOf_stored {h : List Ev} {tunnel : Tunnel} (hr : recordOf h = some tunnel) :
    ∃ t ttl, (⟨t, recording tunnel ttl, .ok ()⟩ : Ev) ∈ h := by
  obtain ⟨e, he, hx⟩ := exists_of_findSome?_eq_some hr
  split at hx
  · rename_i t id tunnel' ttl u
    split_ifs at hx with hid
    cases hx
    subst hid
    exact ⟨t, ttl, he⟩
  · cases hx

lemma told_spec {p : ApiThread → ApiThread → TunnelHealthInfo → Bool} {w1 w2 : ApiPool} (h : told p w1 w2 = true) :
    ∃ maker th tunnel info, Told w1 w2 maker th tunnel info ∧ p maker th info = true := by
  obtain ⟨⟨maker, tunnel⟩, hmade, hrest⟩ := (Option.any_eq_true ..).mp h
  obtain ⟨⟨th, info⟩, hanswered, hchecks⟩ := (Option.any_eq_true ..).mp hrest
  simp only [Bool.and_eq_true, decide_eq_true_eq] at hchecks
  obtain ⟨⟨howned, hthriving⟩, hp⟩ := hchecks
  obtain ⟨maker', hmaker, hx⟩ := bind_eq_some_iff.mp hmade
  obtain ⟨th', hth, hy⟩ := bind_eq_some_iff.mp hanswered
  split at hx
  · rename_i creation hroute
    obtain ⟨tunnel', hrecord, heq⟩ := map_eq_some_iff.mp hx
    cases heq
    split at hy
    · rename_i tunnelId info' hasked hprog
      split_ifs at hy with hid
      cases hy
      refine ⟨maker, th, tunnel, info, ?_, hp⟩
      exact ⟨hmaker, ⟨creation, hroute⟩, recordOf_stored hrecord, hth, howned, by rw [hasked]; exact hid, hprog, hthriving⟩
    · cases hy
  · cases hx

theorem healthy_after_restart : ∃ w1 w2 maker th tunnel info,
    Reach (step (apiServer deployment)) (Dependable deployment) begin w1 ∧
    Reach (step (apiServer deployment)) (Dependable deployment) w1 w2 ∧ Told w1 w2 maker th tunnel info ∧
    w1.shared.ca.boots < w2.shared.ca.boots ∧ Healthy info ∧ ∃ uuid t record, deployment.parseUuid tunnel.id = some uuid ∧
      (⟨t, reading (.tunnel uuid), .ok (some (.tunnel record))⟩ : Ev) ∈ th.history ∧ info.lastCheck ≤ record.expiresAt := by
  obtain ⟨w1, w2, h1, h2, hlen, hq⟩ := reach_of_checks (step (apiServer deployment)) (Dependable deployment) begin
    opened (.restart :: asked (600 * second) ++ each 1 [stored, plain, plain, .ca .plain, .ca (.store .ok), .ca .plain,
      .ca .plain, stored])
    (fun w1 => w1.threads.length ≤ 1)
    (fun w1 w2 => decide (w1.shared.ca.boots < w2.shared.ca.boots) && told (fun maker th _ =>
      decide (∀ x ∈ certificates maker.history, ∀ e ∈ th.history, Covers x.2 x.1 e.span.before)) w1 w2) (by decide +kernel)
  rw [Bool.and_eq_true, decide_eq_true_eq] at hq
  obtain ⟨maker, th, tunnel, info, htold, hcovers⟩ := told_spec hq.2
  obtain ⟨creation, hroute⟩ := htold.created
  obtain ⟨t, ttl, hstored⟩ := htold.stored
  obtain ⟨hconnected, hhealth⟩ := tunnel_health deployment opening tables
  obtain ⟨t', cert, hins, -, hchecks⟩ := hhealth rfl w1 w2 0 maker creation t tunnel ttl h1 h2 htold.made hroute hstored
  have hcert : (t'.after.ca.boots, cert) ∈ certificates maker.history := mem_filterMap.mpr ⟨_, hins, rfl⟩
  have hreport := hchecks 1 th tunnel.id _ (of_decide_eq_true hlen) htold.checked htold.owned htold.asked rfl htold.answered
    htold.thriving (of_decide_eq_true hcovers _ hcert)
  have hhealthy := hreport.2 info rfl
  have hunexpired := hconnected w2 1 th tunnel.id info _ (h1.trans h2).free htold.checked htold.asked htold.answered rfl
    hhealthy.2.2
  exact ⟨w1, w2, maker, th, tunnel, info, h1, h2, htold, hq.1, hhealthy, hunexpired⟩

/-- Half an hour and more later the tunnel is degraded, though it has a good part of its hour left: its certificate has
expired. -/
theorem degraded_by_itself : ∃ w1 w2 maker th tunnel info,
    Reach (step (apiServer deployment)) (Dependable deployment) begin w1 ∧
    Reach (step (apiServer deployment)) (Dependable deployment) w1 w2 ∧ Told w1 w2 maker th tunnel info ∧
    info.status = .degraded ∧ info.details.certificateValid = false ∧ info.details.sshConnected = true := by
  obtain ⟨w1, w2, h1, h2, -, hq⟩ := reach_of_checks (step (apiServer deployment)) (Dependable deployment) begin
    opened (asked (2000 * second) ++ each 1 [stored, plain, plain, .ca .plain, .ca .plain, stored]) (fun _ => true)
    (told fun _ _ info => decide (info.status = .degraded ∧ info.details.certificateValid = false ∧
      info.details.sshConnected = true)) (by decide +kernel)
  obtain ⟨maker, th, tunnel, info, htold, hinfo⟩ := told_spec hq
  exact ⟨w1, w2, maker, th, tunnel, info, h1, h2, htold, of_decide_eq_true hinfo⟩

end

end FleetingDns.ApiServer
