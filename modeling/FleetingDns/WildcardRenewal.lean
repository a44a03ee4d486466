import FleetingDns.CertificateManager
namespace FleetingDns.CertificateManager

open CommandPrograms ExpiringStore ThreadPool ServerPool GuardedRuns Mutex Option EdfCa.CaState List CertificateConfig

abbrev Runs (config : CertificateConfig) (ca : EdfCa.Config) : ManagerPool → ManagerPool → Prop :=
  Reach (step (manager config ca)) (Exclusive locks)

variable {config : CertificateConfig} {ca : EdfCa.Config} {w w' : ManagerPool} {a : Action} {s0 s s' : ManagerState}
  {tid : ℕ} {th : ManagerThread} {call : Call} {h es : List Ev} {c : Cmd} {fresh : CertificateInfo}

section

variable {o : EdfCa.Choice} {r : c.Reply}

lemma perform_now (hp : s.perform c o = some (s', r)) : s'.now = s.now := by
  cases c with
  | ca =>
    obtain ⟨⟨ca', r'⟩, hca, heq⟩ := map_eq_some_iff.mp hp
    cases heq
    exact perform_now hca
  | _ =>
    cases o <;> cases hp
    rfl

lemma perform_utcNow {now : ℕ} (hp : s.perform (.ca .utcNow) o = some (s', now)) : now = s.now := by
  obtain ⟨⟨ca', r'⟩, hca, heq⟩ := map_eq_some_iff.mp hp
  cases heq
  exact (perform_utcNow hca).2

lemma perform_cached (hp : s.perform c o = some (s', r)) :
    s'.cached = s.cached ∨ ∃ fresh, c = .setCached fresh ∧ s'.cached = some fresh := by
  cases c with
  | ca =>
    obtain ⟨⟨ca', r'⟩, hca, heq⟩ := map_eq_some_iff.mp hp
    cases heq
    exact .inl rfl
  | setCached fresh =>
    cases o <;> cases hp
    exact .inr ⟨fresh, rfl, rfl⟩
  | _ =>
    cases o <;> cases hp
    exact .inl rfl

lemma perform_setCached {r : Unit} (hp : s.perform (.setCached fresh) o = some (s', r)) :
    s'.cached = some fresh := by
  cases o <;> cases hp
  rfl

lemma accept_same (ha : s.accept call = some s') : s'.now = s.now ∧ s'.cached = s.cached := by
  cases call with
  | certificate =>
    cases ha
    exact ⟨rfl, rfl⟩
  | ca =>
    obtain ⟨ca', hca, rfl⟩ := map_eq_some_iff.mp ha
    obtain ⟨used, rfl, -⟩ := accept_used hca
    exact ⟨rfl, rfl⟩

lemma now_step (hs : step (manager config ca) w a = some w') : w.shared.now ≤ w'.shared.now := by
  cases step_effect hs with
  | drift drift =>
    rw [← Option.some.inj drift]
    exact Nat.le_add_right _ _
  | arrive accept => rw [(accept_same accept).1]
  | exec thread prog perform => rw [perform_now perform]
  | cancel thread inFlight shared => rw [shared]
  | restart restart => cases restart

lemma cached_step (hs : step (manager config ca) w a = some w') : w'.shared.cached = w.shared.cached ∨
    ∃ tid o th fresh, a = .exec tid o ∧ Issues w tid th (.setCached fresh) ∧ w'.shared.cached = some fresh := by
  cases step_effect hs with
  | drift drift => exact .inl (by rw [← Option.some.inj drift])
  | arrive accept => exact .inl (accept_same accept).2
  | @exec tid o th c k r thread prog perform threads =>
    obtain hsame | ⟨fresh, rfl, hfresh⟩ := perform_cached perform
    · exact .inl hsame
    · exact .inr ⟨tid, o, th, fresh, rfl, ⟨thread, k, prog⟩, hfresh⟩
  | cancel thread inFlight shared => exact .inl (by rw [shared])
  | restart restart => cases restart

end

section

lemma Due.locked (due : Due config h) : ∃ t, (⟨t, .lock, ()⟩ : Ev) ∈ h := by
  cases due <;> exact ⟨_, mem_cons_self⟩

variable {e : Ev}

lemma Due.unstored (due : Due config h) (he : e ∈ h) : e.cmd ≠ .setCached fresh := by
  cases due <;> simp only [mem_cons, not_mem_nil, or_false] at he
  · obtain rfl | rfl := he <;> exact nofun
  · obtain rfl | rfl | rfl := he <;> exact nofun

lemma Asks.unstored (ha : Asks es) (he : e ∈ es) : e.cmd ≠ .setCached fresh := by
  obtain ⟨c, hc⟩ := ha e he
  rw [hc]
  exact nofun

lemma due_unstored (due : Due config h) (ha : Asks es) (he : e ∈ h ++ es) : e.cmd ≠ .setCached fresh := by
  rw [mem_append] at he
  obtain he | he := he
  · exact due.unstored he
  · exact ha.unstored he

lemma May.unstored (hm : May config call h c) (he : e ∈ h) : e.cmd ≠ .setCached fresh := by
  cases hm with
  | lock => cases he
  | cached =>
    obtain rfl := mem_singleton.mp he
    exact nofun
  | check =>
    simp only [mem_cons, not_mem_nil, or_false] at he
    obtain rfl | rfl := he <;> exact nofun
  | issue due asks | store due asks => exact due_unstored due asks he
  | ca asks => exact asks.unstored he

lemma May.locked (hm : May config call h (.setCached fresh)) : ∃ t, (⟨t, .lock, ()⟩ : Ev) ∈ h := by
  cases hm with
  | store due =>
    obtain ⟨t, ht⟩ := due.locked
    exact ⟨t, mem_append_left _ ht⟩

end

section

lemma keeps_run (hr : Runs config ca ⟨s0, []⟩ w) : Keeps (May config) (Ends config) w.threads :=
  reach_keeps obeys_program (fun _ _ => .dropped) hr

lemma ordered_run (hr : Runs config ca ⟨s0, []⟩ w) (hth : w.threads[tid]? = some th) :
    th.history.Pairwise (fun e e' => e.span.after.now ≤ e'.span.before.now) ∧
      ∀ e ∈ th.history, e.span.after.now ≤ w.shared.now :=
  reach_ordered (fun _ _ _ => now_step) hr hth

variable {t : Span ManagerState} {o : EdfCa.Choice}

lemma reading (hr : Runs config ca ⟨s0, []⟩ w) (hth : w.threads[tid]? = some th) {n : ℕ}
    (he : ⟨t, .ca .utcNow, n⟩ ∈ th.history) : t.before.now = n ∧ t.after.now = n := by
  obtain ⟨o, hp⟩ : ∃ o, t.before.perform (.ca .utcNow) o = some (t.after, n) := event_performed hr hth he
  have hnow := perform_utcNow hp
  exact ⟨hnow.symm, (perform_now hp).trans hnow.symm⟩

def Seen (s : ManagerState) (h : List Ev) : Prop := ∀ t x, (⟨t, .cached, x⟩ : Ev) ∈ h → x = s.cached

lemma read_locked (hk : Keeps (May config) (Ends config) w.threads) (hth : w.threads[tid]? = some th)
    {x : Option CertificateInfo} (he : ⟨t, .cached, x⟩ ∈ th.history) : ∃ t', ⟨t', .lock, ()⟩ ∈ th.history := by
  obtain ⟨h1, h2, heq⟩ := append_of_mem he
  have hmay := (hk tid th hth).1 h1 _ h2 heq
  generalize th.call = call at hmay
  cases hmay with
  | cached =>
    rw [heq]
    exact ⟨_, mem_append_left _ mem_cons_self⟩

lemma seen_exec (hk : Keeps (May config) (Ends config) w.threads)
    (hseen : holds locks th = true → Seen w.shared th.history) {r : c.Reply} (hi : Issues w tid th c)
    (hp : w.shared.perform c o = some (s', r)) (hc : ∀ fresh, c ≠ .setCached fresh) (t : Span ManagerState) :
    Seen s' (th.history ++ [⟨t, c, r⟩]) := by
  have hsame : s'.cached = w.shared.cached := by
    obtain hsame | ⟨fresh, rfl, -⟩ := perform_cached hp
    · exact hsame
    · exact absurd rfl (hc fresh)
  intro t' x hx
  rw [hsame]
  obtain hx | hx := mem_snoc.mp hx
  · obtain ⟨t'', hlock⟩ := read_locked hk hi.1 hx
    exact hseen (holds_of_issues hi hlock rfl) t' x hx
  · cases hx
    cases o <;> cases hp
    rfl

lemma seen_run (hr : Runs config ca ⟨s0, []⟩ w) (hth : w.threads[tid]? = some th) (hh : holds locks th = true) :
    Seen w.shared th.history := by
  induction hr generalizing tid th with
  | refl => cases hth
  | @tail w w' a hr hg hs ih =>
    have hk' := keeps_run (hr.tail hg hs)
    obtain ⟨hold, hother⟩ | ⟨call, -, -, rfl⟩ | ⟨o, u, c, k, r, rfl, hold, hp, hperform, rfl⟩ | ⟨u, -, -, rfl⟩ :=
      thread_step hs hth
    · obtain hsame | ⟨tid', o, u, fresh, rfl, hi, -⟩ := cached_step hs
      · intro t x hx
        rw [hsame]
        exact ih hold hh t x hx
      · -- whoever stores holds the lock, and only one thread does
        obtain ⟨t, hlock⟩ := ((keeps_run hr).may hi).locked
        have heq := holder_unique hr hi.1 (holds_of_issues hi hlock rfl) hold hh
        exact absurd (by rw [heq]) (hother o)
    · rintro t x ⟨⟩
    · refine seen_exec (keeps_run hr) (ih hold) ⟨hold, k, hp⟩ hperform ?_ _
      rintro fresh rfl
      obtain ⟨hflight, -⟩ := holds_iff.mp hh
      obtain ⟨c', hnext⟩ := isSome_iff_exists.mp hflight
      exact (hk'.may (issues_of_next hth hnext)).unstored mem_concat_self rfl
    · exact absurd (holds_iff.mp hh).1 (u.stop_not_inFlight _)

lemma seen_last (hr : Runs config ca ⟨s0, []⟩ w) (hs : step (manager config ca) w (.exec tid o) = some w')
    (hth : w'.threads[tid]? = some th) (hunstored : ∀ e ∈ th.history, ∀ fresh, e.cmd ≠ .setCached fresh) :
    Seen w'.shared th.history := by
  obtain ⟨-, hother⟩ | ⟨_, hne, -⟩ | ⟨_, u, c, k, r, -, hold, hp, hperform, rfl⟩ | ⟨_, -, hstop, -⟩ := thread_step hs hth
  · exact absurd rfl (hother o)
  · cases hne
  · exact seen_exec (keeps_run hr) (seen_run hr hold) ⟨hold, k, hp⟩ hperform (hunstored _ mem_concat_self) _
  · obtain hstop | hstop := hstop <;> cases hstop

lemma Due.current (due : Due config h) (hseen : Seen s (h ++ es)) {current : CertificateInfo}
    (hcached : s.cached = some current) :
    ∃ t before, (⟨t, .ca .utcNow, before⟩ : Ev) ∈ h ∧ current.expiresAt - before ≤ config.renewBefore := by
  cases due with
  | @empty t t' =>
    have hnone := hseen t' none (mem_append_left _ (by simp))
    rw [hcached] at hnone
    cases hnone
  | @near t t' t'' current' before left =>
    have hread := hseen t' (some current') (mem_append_left _ (by simp))
    rw [hcached] at hread
    cases hread
    exact ⟨t'', before, by simp, left⟩

lemma IssuedAt.mono {expiresAt : ℤ} {now : ℕ} (hi : IssuedAt config es expiresAt now) :
    IssuedAt config (h ++ es) expiresAt now := by
  obtain ⟨⟨t, ht⟩, hexpires⟩ := hi
  exact ⟨⟨t, mem_append_right _ ht⟩, hexpires⟩

lemma renewed (hr : Runs config ca ⟨s0, []⟩ w) (hi : Issues w tid th (.setCached fresh)) :
    Stamped config th.history fresh.expiresAt ∧ ∀ current, w.shared.cached = some current →
      current.expiresAt - config.renewBefore + config.validityDuration ≤ fresh.expiresAt := by
  have hmay := (keeps_run hr).may hi
  obtain ⟨t0, hlock⟩ := hmay.locked
  have hseen := seen_run hr hi.1 (holds_of_issues hi hlock rfl)
  obtain ⟨hordered, -⟩ := ordered_run hr hi.1
  have hreading {t : Span ManagerState} {n : ℕ} := reading hr hi.1 (t := t) (n := n)
  generalize th.call = call at hmay
  generalize th.history = history at hmay hseen hordered hreading
  cases hmay with
  | store due asks stamped =>
    obtain ⟨now, hissued⟩ := stamped
    refine ⟨⟨now, hissued.mono⟩, ?_⟩
    intro current hcurrent
    obtain ⟨⟨t, hstamp⟩, hexpires⟩ := hissued
    obtain ⟨t', before, hcheck, hleft⟩ := due.current hseen hcurrent
    obtain ⟨-, hafter⟩ := hreading (mem_append_left _ hcheck)
    obtain ⟨hbefore, -⟩ := hreading (mem_append_right _ hstamp)
    have hle := (pairwise_append.mp hordered).2.2 _ hcheck _ hstamp
    dsimp only at hle
    omega

section

variable (hv : config.renewBefore ≤ config.validityDuration) (hr : Runs config ca ⟨s0, []⟩ w)

include hv hr

lemma expiry_step (hs : step (manager config ca) w a = some w') {current : CertificateInfo}
    (hcached : w.shared.cached = some current) :
    ∃ current', w'.shared.cached = some current' ∧ current.expiresAt ≤ current'.expiresAt := by
  obtain hsame | ⟨tid, o, th, fresh, -, hi, hfresh⟩ := cached_step hs
  · exact ⟨current, hsame.trans hcached, Int.le_refl _⟩
  · have := (renewed hr hi).2 current hcached
    exact ⟨fresh, hfresh, by omega⟩

lemma expiry_run (hr' : Runs config ca w w') {current : CertificateInfo} (hcached : w.shared.cached = some current) :
    ∃ current', w'.shared.cached = some current' ∧ current.expiresAt ≤ current'.expiresAt := by
  induction hr' with
  | refl => exact ⟨current, hcached, Int.le_refl _⟩
  | tail hr' _ hs ih =>
    obtain ⟨current1, hcached1, hle1⟩ := ih
    obtain ⟨current2, hcached2, hle2⟩ := expiry_step hv (hr.trans hr') hs hcached1
    exact ⟨current2, hcached2, hle1.trans hle2⟩

end

end

inductive Obtained (config : CertificateConfig) (h : List Ev) (cert : CertificateInfo) (now : ℕ) : Prop
  | read {t t' : Span ManagerState} (cached : ⟨t, .cached, some cert⟩ ∈ h) (reading : ⟨t', .ca .utcNow, now⟩ ∈ h)
      (later : t.before.now ≤ now)
  | issued {t : Span ManagerState} (issued : IssuedAt config h cert.expiresAt now) (stored : ⟨t, .setCached cert, ()⟩ ∈ h)

lemma obtained (hv : config.renewBefore < config.validityDuration) (hr : Runs config ca ⟨s0, []⟩ w)
    (hth : w.threads[tid]? = some th) {cert : CertificateInfo} (hp : th.prog = .ret (.returned (.ok cert))) :
    ∃ now, Obtained config th.history cert now ∧ config.renewBefore < cert.expiresAt - now := by
  have hends := (keeps_run hr).ends hth hp
  obtain ⟨hordered, -⟩ := ordered_run hr hth
  have hreading {t : Span ManagerState} {n : ℕ} := reading hr hth (t := t) (n := n)
  have hperformed {e : Ev} := event_performed hr hth (e := e)
  generalize th.call = call at hends
  generalize th.history = history at hends hordered hreading hperformed
  cases hends with
  | @read t t' t'' _ now left =>
    obtain ⟨o, hperform⟩ : ∃ o, t'.before.perform .cached o = some (t'.after, some cert) :=
      hperformed (e := ⟨t', .cached, some cert⟩) (by simp)
    obtain ⟨hnow, -⟩ := hreading (t := t'') (n := now) (by simp)
    have hlater : t'.before.now ≤ now := by
      rw [← hnow, ← perform_now hperform]
      exact (pairwise_cons.mp (pairwise_cons.mp hordered).2).1 _ mem_cons_self
    refine ⟨now, .read ?_ (mem_cons_of_mem _ (mem_cons_of_mem _ mem_cons_self)) hlater, left⟩
    exact mem_cons_of_mem _ mem_cons_self
  | @issued h es t _ due asks stamped =>
    obtain ⟨now, hissued⟩ := stamped
    have hexpires := hissued.2
    obtain ⟨⟨t', ht'⟩, -⟩ := hissued
    refine ⟨now, .issued ⟨⟨t', ?_⟩, hexpires⟩ mem_concat_self, by omega⟩
    exact mem_append_left _ (mem_append_right _ ht')

theorem wildcard_renewal (hv : config.renewBefore < config.validityDuration) (hr : Runs config ca ⟨s0, []⟩ w) :
    (∀ (tid : ℕ) (th : ManagerThread) cert, w.threads[tid]? = some th → th.prog = .ret (.returned (.ok cert)) →
      ∃ now, Obtained config th.history cert now ∧ config.renewBefore < cert.expiresAt - now) ∧
    (∀ w' current, Runs config ca w w' → w.shared.cached = some current →
      ∃ current', w'.shared.cached = some current' ∧ current.expiresAt ≤ current'.expiresAt) ∧
    ∀ (tid tid' : ℕ) (th th' : ManagerThread) o w1 w2 cert cert', Issues w tid th (.setCached cert) →
      Exclusive locks w (.exec tid o : Action) → step (manager config ca) w (.exec tid o) = some w1 →
      Runs config ca w1 w2 → Issues w2 tid' th' (.setCached cert') →
      ∃ now now', IssuedAt config th.history cert.expiresAt now ∧ IssuedAt config th'.history cert'.expiresAt now' ∧
        config.validityDuration - config.renewBefore ≤ now' - now := by
  refine ⟨fun tid th cert hth hp => obtained hv hr hth hp, fun w' current hr' hcached => expiry_run hv.le hr hr' hcached, ?_⟩
  intro tid tid' th th' o w1 w2 cert cert' hi hg hs hr' hi'
  have hr1 := hr.tail hg hs
  have hstored : w1.shared.cached = some cert := by
    obtain ⟨k, r, -, hp, -⟩ := exec_step hs hi
    exact perform_setCached hp
  obtain ⟨current, hcurrent, hle⟩ := expiry_run hv.le hr1 hr' hstored
  obtain ⟨⟨now, hissued⟩, -⟩ := renewed hr hi
  obtain ⟨⟨now', hissued'⟩, hlater⟩ := renewed (hr1.trans hr') hi'
  refine ⟨now, now', hissued, hissued', ?_⟩
  have hexpires := hissued.2
  have hexpires' := hissued'.2
  have := hlater current hcurrent
  omega

theorem failure_near_expiry {o : EdfCa.Choice} {e : CertificateError} {current : CertificateInfo}
    (hr : Runs config ca ⟨s0, []⟩ w) (hg : Exclusive locks w (.exec tid o : Action))
    (hs : step (manager config ca) w (.exec tid o) = some w') (hth : w'.threads[tid]? = some th)
    (hp : th.prog = .ret (.returned (.error e))) (hcached : w'.shared.cached = some current) :
    current.expiresAt - w'.shared.now ≤ config.renewBefore ∧
      (config.renewBefore ≤ 0 → current.expiresAt ≤ w'.shared.now) := by
  have hr' := hr.tail hg hs
  have hends := (keeps_run hr').ends hth hp
  obtain ⟨-, hpast⟩ := ordered_run hr' hth
  have hreading {t : Span ManagerState} {n : ℕ} := reading hr' hth (t := t) (n := n)
  have hseen := seen_last hr hs hth
  generalize th.call = call at hends
  generalize th.history = history at hends hpast hreading hseen
  cases hends with
  | failed due asks =>
    obtain ⟨t, before, hcheck, hleft⟩ := due.current (hseen fun e he fresh => due_unstored due asks he) hcached
    obtain ⟨-, hafter⟩ := hreading (mem_append_left _ hcheck)
    have hle := hpast _ (mem_append_left _ hcheck)
    dsimp only at hle
    omega

namespace Rotation

def authority (limit : ℕ) : EdfCa.Config :=
  ⟨default.caConfig ⟨1800 * second, 7200 * second, limit⟩, "FleetingDNS-CA", false, EdfCa.Schedule.x509,
    true, false⟩

def begin (limit : ℕ) : ManagerPool := ⟨⟨.init (authority limit) 0, none⟩, []⟩

def issuing (tid : ℕ) (byte : EdfCa.Byte) : List Action :=
  [.exec tid .plain, .exec tid (.signed (.ok ⟨"certificate", "key"⟩)), .exec tid (.uuid fun _ => byte), .exec tid .plain,
    .exec tid (.caPem (.ok "ca")), .exec tid .plain, .exec tid .plain, .exec tid .plain]

def first : List Action := [.arrive .certificate, .exec 0 .plain, .exec 0 .plain] ++ issuing 0 EdfCa.Schedule.first

def later (tid delay : ℕ) : List Action :=
  [.drift (delay * second), .arrive .certificate, .exec tid .plain, .exec tid .plain, .exec tid .plain]

def stores : Cmd → Bool
  | .setCached _ => true
  | _ => false

lemma issues_of_stores {w : ManagerPool} {tid : ℕ} (h : w.threads[tid]?.any (fun th => th.prog.next.any stores) = true) :
    ∃ th cert, Issues w tid th (.setCached cert) := by
  rw [Option.any_eq_true] at h
  obtain ⟨th, hth, h⟩ := h
  rw [Option.any_eq_true] at h
  obtain ⟨c, hnext, hc⟩ := h
  unfold stores at hc
  split at hc
  · exact ⟨th, _, issues_of_next hth hnext⟩
  · cases hc

def rejected (w : ManagerPool) (tid : ℕ) : Bool := w.threads[tid]?.any fun th => match th.prog with
  | .ret (.returned (.error _)) => true
  | _ => false

lemma rejected_eq {w : ManagerPool} {tid : ℕ} (h : rejected w tid = true) :
    ∃ (th : ManagerThread) (e : CertificateError), w.threads[tid]? = some th ∧ th.prog = .ret (.returned (.error e)) := by
  unfold rejected at h
  rw [Option.any_eq_true] at h
  obtain ⟨th, hth, h⟩ := h
  split at h
  · rename_i e hp
    exact ⟨th, e, hth, hp⟩
  · cases h

def leaves (left : ℤ) (now : ℕ) (cert : CertificateInfo) : Bool := decide (cert.expiresAt - now = left)

end Rotation

open Rotation

theorem wildcard_renewal_rotates : ∃ (w w1 w2 : ManagerPool) (th th' : ManagerThread) (cert cert' : CertificateInfo),
    Runs .default (authority 10) (begin 10) w ∧ Issues w 0 th (.setCached cert) ∧
    step (manager .default (authority 10)) w (.exec 0 .plain) = some w1 ∧
    Runs .default (authority 10) w1 w2 ∧ Issues w2 1 th' (.setCached cert') ∧
    ∃ now now', IssuedAt .default th.history cert.expiresAt now ∧ IssuedAt .default th'.history cert'.expiresAt now' ∧
      (3000 * second : ℤ) ≤ now' - now := by
  obtain ⟨w, hr, hw⟩ := reach_of_check (step (manager .default (authority 10))) (Exclusive locks) (begin 10) first
    (fun w => w.threads[0]?.any (fun th => th.prog.next.any stores) && decide (Exclusive locks w (.exec 0 .plain : Action)) &&
      (step (manager .default (authority 10)) w (.exec 0 .plain)).any fun w1 =>
        (runs (step (manager .default (authority 10))) (Exclusive locks) w1
          (later 1 3000 ++ issuing 1 EdfCa.zeroByte)).any fun w2 => w2.threads[1]?.any fun th => th.prog.next.any stores)
    (by decide +kernel)
  rw [Bool.and_eq_true, Bool.and_eq_true, decide_eq_true_iff] at hw
  obtain ⟨⟨hstores, hg⟩, hw⟩ := hw
  obtain ⟨w1, hs, hw⟩ := (any_eq_true _ _).mp hw
  obtain ⟨w2, hruns, hstores'⟩ := (any_eq_true _ _).mp hw
  obtain ⟨th, cert, hi⟩ := issues_of_stores hstores
  obtain ⟨th', cert', hi'⟩ := issues_of_stores hstores'
  have hr' := reach_of_runs hruns
  exact ⟨w, w1, w2, th, th', cert, cert', hr, hi, hs, hr', hi',
    (wildcard_renewal (by decide) hr).2.2 0 1 th th' .plain w1 w2 cert cert' hi hg hs hr' hi'⟩

theorem failure_near_expiry_expired : ∃ (w' : ManagerPool) (th : ManagerThread) (e : CertificateError) (current : CertificateInfo),
    Runs { default with renewBefore := 0 } (authority 10) (begin 10) w' ∧
    w'.threads[1]? = some th ∧ th.prog = .ret (.returned (.error e)) ∧ w'.shared.cached = some current ∧
    current.expiresAt ≤ w'.shared.now := by
  obtain ⟨w, w', hr, hg, hs, hw⟩ := reach_of_step_check
    (step (manager { default with renewBefore := 0 } (authority 10))) (Exclusive locks) (begin 10)
    (first ++ [.exec 0 .plain] ++ later 1 3600 ++ [.exec 1 .plain]) (.exec 1 (.signed (.error "entropy")))
    (fun w' => rejected w' 1 && w'.shared.cached.isSome) (by decide +kernel)
  rw [Bool.and_eq_true] at hw
  obtain ⟨hrejected, hcached⟩ := hw
  obtain ⟨th, e, hth, hp⟩ := rejected_eq hrejected
  obtain ⟨current, hcurrent⟩ := isSome_iff_exists.mp hcached
  exact ⟨w', th, e, current, hr.tail hg hs, hth, hp, hcurrent,
    (failure_near_expiry hr hg hs hth hp hcurrent).2 (Int.le_refl _)⟩

/-- The name's limit of the hour is used up by another component, and the certificate in the cache has ten minutes left. -/
theorem failure_before_expiry : ∃ (w w' : ManagerPool) (th : ManagerThread) (e : CertificateError) (current : CertificateInfo),
    Runs .default (authority 2) (begin 2) w ∧
    Exclusive locks w (.exec 2 .plain : Action) ∧ step (manager .default (authority 2)) w (.exec 2 .plain) = some w' ∧
    w'.threads[2]? = some th ∧ th.prog = .ret (.returned (.error e)) ∧ w'.shared.cached = some current ∧
    current.expiresAt - w'.shared.now = 600 * second := by
  obtain ⟨w, w', hr, hg, hs, hw⟩ := reach_of_step_check (step (manager .default (authority 2))) (Exclusive locks) (begin 2)
    (first ++ [.exec 0 .plain] ++ [.arrive (.ca (.issueServerCertificate "*.fleetingdns.run" [] none))] ++
      issuing 1 EdfCa.zeroByte ++ later 2 3000) (.exec 2 .plain)
    (fun w' => rejected w' 2 && w'.shared.cached.any (leaves (600 * second) w'.shared.now)) (by decide +kernel)
  rw [Bool.and_eq_true] at hw
  obtain ⟨hrejected, hcached⟩ := hw
  obtain ⟨th, e, hth, hp⟩ := rejected_eq hrejected
  obtain ⟨current, hcurrent, hleft⟩ := (any_eq_true _ _).mp hcached
  exact ⟨w, w', th, e, current, hr, hg, hs, hth, hp, hcurrent, decide_eq_true_iff.mp hleft⟩

end FleetingDns.CertificateManager
