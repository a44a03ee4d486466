import FleetingDns.CertificateOrigins
namespace FleetingDns.EdfCa

open CommandPrograms ExpiringStore ThreadPool ServerPool GuardedRuns Option CaState List

def accepts : (c : Cmd) → c.Reply → Bool
  | .store _, .error _ => false
  | _, _ => true

def reliable (w : CaPool) : Action → Bool
  | .arrive (.revokeCertificate _) => false
  | .exec tid o => match w.threads[tid]? with
    | some th => match th.prog with
      | .call c _ => (w.shared.perform c o).all fun x => accepts c x.2
      | .ret _ => true
    | none => true
  | _ => true

def Reliable (w : CaPool) (a : Action) : Prop := reliable w a = true

instance (w : CaPool) (a : Action) : Decidable (Reliable w a) := inferInstanceAs (Decidable (_ = true))

section

variable (cert : ActiveCertificate) (boots : ℕ) (s : CaState)

/-- The memory of the process that registered the certificate has it while it is unexpired. -/
def Present : Prop :=
  boots < s.boots ∨ unexpired s.now cert = false ∨ s.activeCerts.lookup cert.metadata.serialNumber = some cert

def Lasting : Prop :=
  cert.metadata.expiresAt < s.now + second ∨ ∃ d : ℕ,
    s.entry cert.metadata.serialNumber = some ⟨.certificate cert, some d⟩ ∧ cert.metadata.expiresAt < d + second

/-- The certificate had less than a second left when its registration read the clock. -/
def ShortLived (h : List Ev) (e : Ev) : Prop :=
  ∃ (h1 : List Ev) (t : Span CaState) (now : ℕ) (h2 : List Ev),
    h = h1 ++ ⟨t, .utcNow, now⟩ :: e :: h2 ∧ cert.metadata.expiresAt < now + second

end

variable {config : Config} {w w' : CaPool} {a : Action} {tid : ℕ} {th : CaThread} {serial : String}
  {cert : ActiveCertificate} {o : Choice} {s : CaState}

lemma Reliable.accepts (hg : Reliable w (.exec tid o)) {c : Cmd} {r : c.Reply} (hi : Issues w tid th c) {s' : CaState}
    (hperf : w.shared.perform c o = some (s', r)) : accepts c r = true := by
  obtain ⟨hth, k, hp⟩ := hi
  simpa only [Reliable, reliable, hth, hp, hperf, all_some] using hg

lemma accepts_store {c : StoreCmd String Record} {r : Except String c.Reply} (h : accepts (.store c) r = true) :
    ∃ x, r = .ok x := by
  cases r with
  | ok x => exact ⟨x, rfl⟩
  | error => cases h

variable {now : ℕ}

lemma unexpired_earlier {later : ℕ} (hle : now ≤ later) (hu : unexpired later cert = true) :
    unexpired now cert = true := by
  rw [unexpired_iff] at hu ⊢
  omega

lemma asU64_numSeconds {t : ℤ} (hcal : inCalendar t) (hpos : 0 < numSeconds (t - now)) :
    (asU64 (numSeconds (t - now))) = numSeconds (t - now) := by
  have hle := numSeconds_le (t - now)
  unfold inCalendar second at hcal
  unfold asU64
  unfold second at hle
  omega

section

structure Chronicle (w : CaPool) : Prop where
  performed : ∀ (tid : ℕ) (th : CaThread) (e : Ev), w.threads[tid]? = some th → e ∈ th.history →
    ∃ o, e.span.before.perform e.cmd o = some (e.span.after, e.reply)
  past : ∀ (tid : ℕ) (th : CaThread) (e : Ev), w.threads[tid]? = some th → e ∈ th.history →
    e.span.after.now ≤ w.shared.now ∧ e.span.after.boots ≤ w.shared.boots
  ordered : ∀ (tid : ℕ) (th : CaThread), w.threads[tid]? = some th →
    th.history.Pairwise fun e e' => e.span.after.now ≤ e'.span.after.now ∧ e.span.after.boots ≤ e'.span.after.boots

lemma reach_chronicle {G : CaPool → Action → Prop} {now : ℕ}
    (h : Reach (step (server config)) G (start config now) w) : Chronicle w where
  performed tid th e hth he := event_performed h hth he
  past tid th e hth he :=
    ⟨(reach_ordered (fun _ _ _ => now_step) h hth).2 e he,
      (reach_ordered (fun _ _ _ => boots_step) h hth).2 e he⟩
  ordered tid th hth := by
    have hnow := (reach_ordered (fun _ _ _ => now_step) h hth).1
    have hboots := (reach_ordered (fun _ _ _ => boots_step) h hth).1
    refine (hnow.and hboots).imp_of_mem ?_
    intro e e' _ he' hle
    obtain ⟨o, hp⟩ := event_performed h hth he'
    rw [perform_now hp, perform_boots hp]
    exact hle

end

/-- What holds in every state of a run: where certificates come from, in which order, and that nothing is revoked. -/
structure Orderly (config : Config) (w : CaPool) : Prop where
  sound : Sound config w
  chronicle : Chronicle w
  unrevoked : ∀ (tid : ℕ) (th : CaThread) (serial : String), w.threads[tid]? = some th → th.call ≠ .revokeCertificate serial

lemma reach_orderly (h : Reach (step (server config)) Reliable (start config now) w) : Orderly config w where
  sound := reach_sound h
  chronicle := reach_chronicle h
  unrevoked tid th serial hth := by
    refine reach_calls (P := fun call => ∀ serial, call ≠ .revokeCertificate serial) ?_ h hth serial
    rintro w call hg serial rfl
    cases hg

section

variable {boots : ℕ}

lemma present_step (ho : Orderly config w) (ha : Announced w cert) (hboots : boots ≤ w.shared.boots)
    (hp : Present cert boots w.shared) (h : step (server config) w a = some w') : Present cert boots w'.shared := by
  obtain hb | hexp | hl := hp
  · exact .inl (hb.trans_le (boots_step h))
  · refine .inr (.inl ?_)
    rw [← Bool.not_eq_true] at hexp ⊢
    exact fun hu => hexp (unexpired_earlier (now_step h) hu)
  have hs := ho.sound.step h
  obtain heq | ⟨_, _, _, cert', -, -, heq⟩ | ⟨tid, o, th, -, hi, -⟩ | ⟨hnow, heq⟩ | ⟨hb, -⟩ :=
    active_step h cert.metadata.serialNumber
  · exact .inr (.inr (heq.trans hl))
  · obtain ⟨hserial, ha'⟩ := hs.active _ cert' heq
    obtain rfl := hs.announced_unique ha' (announced_step h ha) hserial
    exact .inr (.inr heq)
  · exact absurd (ho.sound.keeps.may hi).2 (ho.unrevoked tid th _ hi.1)
  · rw [hl] at heq
    cases hu : unexpired w.shared.now cert with
    | true => exact .inr (.inr (by rw [heq, filter_some, hu]; rfl))
    | false => exact .inr (.inl (by rw [hnow]; exact hu))
  · exact .inl (by omega)

lemma deadline_late (ho : Orderly config w) {ttl : ℕ} {k : String}
    (hi : Issues w tid th (.store (.setEx k (.certificate cert) ttl))) (hcal : inCalendar cert.metadata.expiresAt) :
    cert.metadata.expiresAt < (w.shared.now + ttl * second : ℕ) + second := by
  obtain ⟨_, reading, t, h0, ⟨⟩, -, -, -, hh, hpos, httl⟩ := (ho.sound.keeps.may hi).2
  have hmem : ⟨t, .utcNow, reading⟩ ∈ th.history := by rw [hh]; simp
  obtain ⟨o, hperf⟩ := ho.chronicle.performed tid th _ hi.1 hmem
  obtain ⟨hpast, -⟩ := ho.chronicle.past tid th _ hi.1 hmem
  obtain ⟨hspan, hreading⟩ := perform_utcNow hperf
  have hu64 := asU64_numSeconds hcal hpos
  have hlt := lt_numSeconds (cert.metadata.expiresAt - reading)
  have hle : reading ≤ w.shared.now := by
    rw [hspan, ← hreading] at hpast
    exact hpast
  unfold second at hlt ⊢
  omega

lemma lasting_of_entry {s s' : CaState} {d : ℕ} (hnow : s.now ≤ s'.now) (hd : cert.metadata.expiresAt < d + second)
    (he : s'.entry cert.metadata.serialNumber = (some ⟨.certificate cert, some d⟩).filter
      (·.live s.now)) :
    Lasting cert s' := by
  by_cases hlive : s.now < d
  · refine .inr ⟨d, ?_, hd⟩
    rw [he]
    simpa [Entry.live] using hlive
  · exact .inl (by omega)

lemma lasting_step (ho : Orderly config w) (ha : Announced w cert) (hl : Lasting cert w.shared)
    (h : step (server config) w a = some w') : Lasting cert w'.shared := by
  have hnow := now_step h
  obtain hexp | ⟨d, he, hd⟩ := hl
  · exact .inl (by omega)
  obtain heq | heq | ⟨tid, o, th, c, rfl, hi, ht, heq⟩ := entry_step h cert.metadata.serialNumber
  · exact .inr ⟨d, heq.trans he, hd⟩
  · rw [he] at heq
    exact lasting_of_entry (Nat.le_refl _) hd heq
  have hm := (ho.sound.keeps.may hi).2
  cases c with
  | setEx =>
    obtain ⟨cert', _, _, _, rfl, rfl, -⟩ := hm
    obtain rfl := (ho.sound.step h).announced_unique (announced_exec h hi rfl) (announced_step h ha)
      (certKey_inj.mp (Option.some.inj ht))
    exact lasting_of_entry hnow (deadline_late ho hi (ho.sound.announced_dated ha)) heq
  | del =>
    obtain ⟨serial, hcall, -⟩ := hm
    exact absurd hcall (ho.unrevoked tid th serial hi.1)
  | get => cases ht
  | _ => exact hm.elim

end

structure Survives (w : CaPool) : Prop where
  present : ∀ (tid : ℕ) (th : CaThread) (e : Ev) (cert : ActiveCertificate), w.threads[tid]? = some th → e ∈ th.history →
    e.cmd = .insertActive cert.metadata.serialNumber cert → Present cert e.span.after.boots w.shared
  lasting : ∀ (tid : ℕ) (th : CaThread) (e : Ev) (k : String) (cert : ActiveCertificate) (ttl : ℕ),
    w.threads[tid]? = some th → e ∈ th.history → e.cmd = .store (.setEx k (.certificate cert) ttl) → Lasting cert w.shared

lemma survives_step (ho : Orderly config w) (hv : Survives w) (hg : Reliable w a)
    (h : step (server config) w a = some w') : Survives w' where
  present tid th e cert hth he hc := by
    obtain ⟨u, hu, -, he⟩ | ⟨o, u, -, -, -, -, hspan, hperf⟩ := event_step h hth he
    · have ha : Announced w cert := ⟨tid, u, e, hu, he, by rw [hc]; rfl⟩
      exact present_step ho ha (ho.chronicle.past tid u e hu he).2 (hv.present tid u e cert hu he hc) h
    · obtain ⟨t, c, r⟩ := e
      obtain rfl : c = .insertActive cert.metadata.serialNumber cert := hc
      exact .inr (.inr (perform_insertActive hperf))
  lasting tid th e k cert ttl hth he hc := by
    obtain ⟨u, hu, -, he⟩ | ⟨o, u, rfl, hi, -, -, hspan, hperf⟩ := event_step h hth he
    · exact lasting_step ho ⟨tid, u, e, hu, he, by rw [hc]; rfl⟩ (hv.lasting tid u e k cert ttl hu he hc) h
    obtain ⟨t, c, r⟩ := e
    obtain rfl : c = .store (.setEx k (.certificate cert) ttl) := hc
    obtain ⟨x, rfl⟩ := accepts_store (hg.accepts hi hperf)
    obtain ⟨_, _, _, _, ⟨⟩, rfl, -⟩ := (ho.sound.keeps.may hi).2
    have hcal := (ho.sound.step h).announced_dated (announced_exec h hi rfl)
    exact lasting_of_entry (now_step h) (deadline_late ho hi hcal) (perform_setEx hperf)

lemma reach_survives (h : Reach (step (server config)) Reliable (start config now) w) : Survives w :=
  h.invariant (fun _ hr => reach_orderly hr)
    ⟨by rintro tid th e cert ⟨⟩, by rintro tid th e k cert ttl ⟨⟩⟩ (fun _ _ _ ho hv hg hstep => survives_step ho hv hg hstep)

structure Served (cert : ActiveCertificate) (boots : ℕ) (short : Prop) (n : ℕ) (w : CaPool) : Prop where
  announced : Announced w cert
  booted : boots ≤ w.shared.boots
  present : Present cert boots w.shared
  lasting : short ∨ Lasting cert w.shared
  seen : ∀ (tid : ℕ) (th : CaThread) (e : Ev), n ≤ tid → w.threads[tid]? = some th → e ∈ th.history →
    Present cert boots e.span.before ∧ (short ∨ Lasting cert e.span.before) ∧ accepts e.cmd e.reply = true

section

variable {boots n : ℕ} {short : Prop}

lemma served_step (ho : Orderly config w) (hv : Served cert boots short n w) (hg : Reliable w a)
    (h : step (server config) w a = some w') : Served cert boots short n w' where
  announced := announced_step h hv.announced
  booted := hv.booted.trans (boots_step h)
  present := present_step ho hv.announced hv.booted hv.present h
  lasting := hv.lasting.imp_right fun hl => lasting_step ho hv.announced hl h
  seen tid th e hn hth he := by
    obtain ⟨u, hu, -, he⟩ | ⟨o, u, rfl, hi, -, -, hspan, hperf⟩ := event_step h hth he
    · exact hv.seen tid u e hn hu he
    · rw [hspan]
      exact ⟨hv.present, hv.lasting, hg.accepts hi hperf⟩

variable {now : ℕ}

lemma served_run {w1 w2 : CaPool} (h1 : Reach (step (server config)) Reliable (start config now) w1)
    (hv : Served cert boots short n w1) (h2 : Reach (step (server config)) Reliable w1 w2) :
    Served cert boots short n w2 := by
  induction h2 with
  | refl => exact hv
  | tail hr hg hstep ih => exact served_step (reach_orderly (h1.trans hr)) ih hg hstep

lemma served_registered {w1 : CaPool} (hp : config.persistent = true)
    (h1 : Reach (step (server config)) Reliable (start config now) w1) {i : ℕ} {reg : CaThread} {e0 : Ev}
    (hreg : w1.threads[i]? = some reg) (he0 : e0 ∈ reg.history) (hc : e0.cmd = .insertActive serial cert) :
    serial = cert.metadata.serialNumber ∧
      Served cert e0.span.after.boots (ShortLived cert reg.history e0) w1.threads.length w1 := by
  have ho := reach_orderly h1
  have hv := reach_survives h1
  obtain ⟨l1, l2, heq⟩ := append_of_mem he0
  have hm := ((ho.sound.keeps i reg hreg).1 l1 e0 l2 heq).2
  rw [hc] at hm
  obtain ⟨hserial, -, hlast⟩ := hm
  have hann : Announced w1 cert := ⟨i, reg, e0, hreg, he0, by rw [hc]; rfl⟩
  refine ⟨hserial, hann, (ho.chronicle.past i reg e0 hreg he0).2, hv.present i reg e0 cert hreg he0 (hserial ▸ hc), ?_, ?_⟩
  · obtain ⟨h0, t, ttl, r, rfl, -⟩ | ⟨-, hshort⟩ := hlast
    · have hmem : ⟨t, .store (.setEx (certKey serial) (.certificate cert) ttl), r⟩ ∈ reg.history := by
        rw [heq]
        simp
      exact .inr (hv.lasting i reg _ _ cert ttl hreg hmem rfl)
    · obtain ⟨h0, t, now, rfl, hle⟩ := hshort hp
      have hlt := lt_numSeconds (cert.metadata.expiresAt - now)
      refine .inl ⟨h0, t, now, l2, by rw [heq]; simp, ?_⟩
      unfold second at hlt ⊢
      omega
  · intro tid th e hn hth
    rw [List.getElem?_eq_none hn] at hth
    cases hth

lemma missed_restarted (ho : Orderly config w) (hp : config.persistent = true) (hv : Served cert boots short n w)
    (hn : n ≤ tid) (hth : w.threads[tid]? = some th) (hread : Reads config cert.metadata.serialNumber th.history none) :
    ∃ e, th.history.getLast? = some e ∧ (unexpired e.span.after.now cert = true →
      boots < e.span.after.boots ∧ (cert.metadata.expiresAt < e.span.after.now + second ∨ short)) := by
  have hordered := ho.chronicle.ordered tid th hth
  have hseen := fun e => hv.seen tid th e hn hth
  have hperformed := fun e => ho.chronicle.performed tid th e hth
  generalize th.history = h at hread hordered hseen hperformed
  cases hread with
  | unstored t hm =>
    rw [hp] at hm
    cases hm
  | missing t t' r hr =>
    refine ⟨⟨t', .store (.get (certKey cert.metadata.serialNumber)), r⟩, rfl, ?_⟩
    intro hu
    obtain ⟨o, hlookup⟩ := hperformed _ mem_cons_self
    obtain ⟨o', hget⟩ := hperformed _ (mem_cons_of_mem _ (mem_singleton_self _))
    have horder : t.after.now ≤ t'.after.now ∧ t.after.boots ≤ t'.after.boots :=
      (pairwise_cons.mp hordered).1 _ (mem_singleton_self _)
    have hnow : t.after.now = t.before.now := perform_now hlookup
    have hboots : t.after.boots = t.before.boots := perform_boots hlookup
    constructor
    · obtain hb | hexp | hl := (hseen _ mem_cons_self).1
      · exact hb.trans_le (hboots ▸ horder.2)
      · rw [unexpired_earlier (hnow ▸ horder.1) hu] at hexp
        cases hexp
      · have hnone := perform_lookupActive hlookup
        rw [hl] at hnone
        cases hnone
    obtain ⟨-, hlasting, hacc⟩ := hseen _ (mem_cons_of_mem _ (mem_singleton_self _))
    obtain ⟨x, rfl⟩ := accepts_store hacc
    obtain hshort | hexp | ⟨d, he, -⟩ := hlasting
    · exact .inr hshort
    · rw [← perform_now hget] at hexp
      exact .inl hexp
    · have hx := perform_get hget
      simp only [he] at hx
      subst hx
      cases hr _ rfl

end

/-- What memory, the store or an answer to any call holds of a serial number. -/
def Known (w : CaPool) (serial : String) (cert : ActiveCertificate) : Prop :=
  w.shared.activeCerts.lookup serial = some cert ∨ (∃ e, w.shared.entry serial = some e ∧ e.value = .certificate cert) ∨
    ∃ (tid : ℕ) (th : CaThread), w.threads[tid]? = some th ∧ Found serial cert th.history

lemma Sound.known (hs : Sound config w) (hk : Known w serial cert) :
    cert.metadata.serialNumber = serial ∧ Announced w cert := by
  obtain hactive | ⟨e, he, hv⟩ | ⟨tid, th, hth, hfound⟩ := hk
  · exact hs.active serial cert hactive
  · obtain ⟨cert', hv', hknown⟩ := hs.stored serial e he
    cases hv.symm.trans hv'
    exact hknown
  · exact hs.found tid th serial cert hth hfound

theorem registry_unambiguous {G : CaPool → Action → Prop} {now : ℕ}
    (h : Reach (step (server config)) G (start config now) w) {cert' : ActiveCertificate} (hk : Known w serial cert)
    (hk' : Known w serial cert') : cert = cert' := by
  have hs := reach_sound h
  obtain ⟨hserial, hann⟩ := hs.known hk
  obtain ⟨hserial', hann'⟩ := hs.known hk'
  exact hs.announced_unique hann hann' (hserial.trans hserial'.symm)

section

open Schedule

theorem registry_unambiguous_issued : ∃ w cert e, Reach (step (server deployment)) Free begin w ∧
    w.shared.activeCerts.lookup (serialOf first) = some cert ∧ w.shared.entry (serialOf first) = some e ∧
    e.value = .certificate cert := by
  obtain ⟨w, hr, hp⟩ := reach_of_check (step (server deployment)) Free begin (.arrive issuance :: issued 0 first)
    (fun w => (w.shared.activeCerts.lookup (serialOf first)).isSome && (w.shared.entry (serialOf first)).isSome)
    (by decide +kernel)
  simp only [Bool.and_eq_true, isSome_iff_exists] at hp
  obtain ⟨⟨cert, hc⟩, e, he⟩ := hp
  obtain ⟨cert', hv, -⟩ := (reach_sound hr).stored (serialOf first) e he
  obtain rfl := registry_unambiguous hr (.inl hc) (.inr (.inl ⟨e, he, hv⟩))
  exact ⟨w, cert, e, hr, hc, he, hv⟩

def inserted (serial : String) (expiresAt : ℤ) (e : Ev) : Bool :=
  match e.cmd with
  | .insertActive s cert => s = serial ∧ cert.metadata.expiresAt = expiresAt
  | _ => false

lemma inserted_iff {expiresAt : ℤ} {e : Ev} (h : inserted serial expiresAt e = true) :
    ∃ cert, e.cmd = .insertActive serial cert ∧ cert.metadata.expiresAt = expiresAt := by
  unfold inserted at h
  split at h
  · rename_i cert hc
    obtain ⟨hs, hexp⟩ := of_decide_eq_true h
    exact ⟨cert, hs ▸ hc, hexp⟩
  · cases h

end

end FleetingDns.EdfCa
