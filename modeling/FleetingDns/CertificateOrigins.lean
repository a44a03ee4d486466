import FleetingDns.CaSteps
namespace FleetingDns.EdfCa

open CommandPrograms ExpiringStore ThreadPool ServerPool GuardedRuns List Option CaState

def announced : Cmd → Option ActiveCertificate
  | .insertActive _ cert => some cert
  | .store (.setEx _ (.certificate cert) _) => some cert
  | _ => none

def Holds (th : CaThread) (serial : String) : Prop :=
  (∃ cert, th.call = .registerCertificate cert ∧ cert.metadata.serialNumber = serial) ∨ Named serial th.history

def Announced (w : CaPool) (cert : ActiveCertificate) : Prop :=
  ∃ (tid : ℕ) (th : CaThread) (e : Ev), w.threads[tid]? = some th ∧ e ∈ th.history ∧ announced e.cmd = some cert

structure Sound (config : Config) (w : CaPool) : Prop where
  keeps : Keeps (May config) (Ends config) w.threads
  dated : ∀ (tid : ℕ) (th : CaThread) (cert : ActiveCertificate), w.threads[tid]? = some th →
    th.call = .registerCertificate cert → inCalendar cert.metadata.expiresAt
  used : ∀ (tid : ℕ) (th : CaThread) (serial : String), w.threads[tid]? = some th → Holds th serial →
    serial ∈ w.shared.usedSerials
  sole : ∀ (i j : ℕ) (th u : CaThread) (serial : String), w.threads[i]? = some th → w.threads[j]? = some u →
    Holds th serial → Holds u serial → i = j
  active : ∀ serial cert, w.shared.activeCerts.lookup serial = some cert →
    cert.metadata.serialNumber = serial ∧ Announced w cert
  stored : ∀ serial e, w.shared.entry serial = some e →
    ∃ cert, e.value = .certificate cert ∧ cert.metadata.serialNumber = serial ∧ Announced w cert
  found : ∀ (tid : ℕ) (th : CaThread) (serial : String) (cert : ActiveCertificate), w.threads[tid]? = some th →
    Found serial cert th.history → cert.metadata.serialNumber = serial ∧ Announced w cert

variable {config : Config} {w w' : CaPool} {a : Action} {tid : ℕ} {th : CaThread} {serial : String}
  {cert cert' : ActiveCertificate}

lemma announced_step (h : step (server config) w a = some w') (hw : Announced w cert) : Announced w' cert := by
  obtain ⟨tid, th, e, hth, he, hc⟩ := hw
  obtain ⟨th', hth', -, hpre⟩ := thread_kept h hth
  exact ⟨tid, th', e, hth', hpre.subset he, hc⟩

lemma announced_exec {o : Choice} {c : Cmd} (h : step (server config) w (.exec tid o) = some w') (hi : Issues w tid th c)
    (hc : announced c = some cert) : Announced w' cert := by
  obtain ⟨k, r, -, -, hth⟩ := exec_step h hi
  exact ⟨tid, _, _, hth, mem_concat_self, hc⟩

section

variable {h : List Ev} {call : Call} {c : Cmd} {e e' : Ev}

lemma may_announce (hm : May config call h c) (hc : announced c = some cert) :
    Registers call h cert ∧ (Clean h ∨ ∃ h0 e, h = h0 ++ [e] ∧ announced e.cmd = some cert ∧ Clean h0) := by
  obtain ⟨-, hm⟩ := hm
  unfold announced at hc
  split at hc
  · cases hc
    obtain ⟨-, hr, ⟨h0, t, ttl, r, rfl, hc⟩ | ⟨hc, -⟩⟩ := hm
    · exact ⟨hr, .inr ⟨h0, _, rfl, rfl, hc⟩⟩
    · exact ⟨hr, .inl hc⟩
  · cases hc
    obtain ⟨_, _, _, _, ⟨⟩, -, hr, hc, -⟩ := hm
    exact ⟨hr, .inl hc⟩
  · cases hc

lemma Clean.not_announced (hc : Clean h) (he : e ∈ h) : announced e.cmd ≠ some cert := by
  intro ha
  have hm := hc e he
  unfold announced at ha
  split at ha
  · rename_i heq
    rw [heq] at hm
    cases hm
  · rename_i heq
    rw [heq] at hm
    cases hm
  · cases ha

lemma announced_once (hp : Permitted (May config call) h) (he : e ∈ h) (he' : e' ∈ h) (hc : announced e.cmd = some cert)
    (hc' : announced e'.cmd = some cert') : cert = cert' := by
  have hlater : ∀ {l : List Ev} {e1 e2 : Ev} {c1 c2 : ActiveCertificate}, e1 ∈ l → May config call l e2.cmd →
      announced e1.cmd = some c1 → announced e2.cmd = some c2 → c1 = c2 := by
    intro l e1 e2 c1 c2 hl hm h1 h2
    obtain ⟨-, hcl | ⟨h0, e, rfl, hce, hcl⟩⟩ := may_announce hm h2
    · exact absurd h1 (hcl.not_announced hl)
    · obtain hl | rfl := mem_snoc.mp hl
      · exact absurd h1 (hcl.not_announced hl)
      · exact mem_unique h1 hce
  obtain rfl | ⟨l, hl, hm⟩ | ⟨l, hl, hm⟩ := permitted_order hp he he'
  · exact mem_unique hc hc'
  · exact hlater hl hm hc hc'
  · exact (hlater hl hm hc' hc).symm

end

lemma registers_holds {h l : List Ev} (hth : th.history = h ++ l) (hr : Registers th.call h cert) :
    Holds th cert.metadata.serialNumber := by
  obtain hcall | ⟨hn, -⟩ := hr
  · exact .inl ⟨cert, hcall, rfl⟩
  · exact .inr (hth ▸ hn.append l)

lemma announcer_holds (hk : Keeps (May config) (Ends config) w.threads) (hth : w.threads[tid]? = some th) {e : Ev}
    (he : e ∈ th.history) (hc : announced e.cmd = some cert) : Holds th cert.metadata.serialNumber := by
  obtain ⟨h1, h2, heq⟩ := append_of_mem he
  exact registers_holds heq (may_announce ((hk tid th hth).1 h1 e h2 heq) hc).1

namespace Sound

lemma announced_dated (hs : Sound config w) (h : Announced w cert) : inCalendar cert.metadata.expiresAt := by
  obtain ⟨tid, th, e, hth, he, hc⟩ := h
  obtain ⟨h1, h2, heq⟩ := append_of_mem he
  obtain ⟨hcall | ⟨-, hcal⟩, -⟩ := may_announce ((hs.keeps tid th hth).1 h1 e h2 heq) hc
  · exact hs.dated tid th cert hth hcall
  · exact hcal

lemma announced_unique (hs : Sound config w) (h : Announced w cert) (h' : Announced w cert')
    (heq : cert.metadata.serialNumber = cert'.metadata.serialNumber) : cert = cert' := by
  obtain ⟨i, th, e, hth, he, hc⟩ := h
  obtain ⟨j, u, e', hu, he', hc'⟩ := h'
  obtain rfl := hs.sole i j th u _ hth hu (announcer_holds hs.keeps hth he hc) (heq ▸ announcer_holds hs.keeps hu he' hc')
  obtain rfl := mem_unique hth hu
  exact announced_once (hs.keeps i th hth).1 he he' hc hc'

end Sound

def actor (w : CaPool) : Action → ℕ
  | .exec tid _ => tid
  | _ => w.threads.length

lemma register_arrives (h : step (server config) w (.arrive (.registerCertificate cert)) = some w') :
    cert.metadata.serialNumber ∉ w.shared.usedSerials ∧ inCalendar cert.metadata.expiresAt ∧
      cert.metadata.serialNumber ∈ w'.shared.usedSerials := by
  cases step_effect h with
  | arrive accept =>
    change (if cert.metadata.serialNumber ∉ w.shared.usedSerials ∧ inCalendar cert.metadata.expiresAt then
      some { w.shared with usedSerials := cert.metadata.serialNumber :: w.shared.usedSerials } else none) = _ at accept
    split_ifs at accept with hadm
    refine ⟨hadm.1, hadm.2, ?_⟩
    rw [← Option.some.inj accept]
    exact mem_cons_self

lemma holds_step (h : step (server config) w a = some w') {th' : CaThread} (hth : w'.threads[tid]? = some th')
    (hh : Holds th' serial) : (∃ th, w.threads[tid]? = some th ∧ Holds th serial) ∨
      (tid = actor w a ∧ serial ∉ w.shared.usedSerials ∧ serial ∈ w'.shared.usedSerials) := by
  obtain ⟨hold, -⟩ | ⟨call, rfl, rfl, rfl⟩ | ⟨o, th, c, k, r, rfl, hold, hp, hperf, rfl⟩ | ⟨th, hold, -, rfl⟩ :=
    thread_step h hth
  · exact .inl ⟨th', hold, hh⟩
  · obtain ⟨cert, hcall, rfl⟩ | ⟨t, bytes, ht, -⟩ := hh
    · obtain rfl : call = .registerCertificate cert := hcall
      obtain ⟨hfresh, -, hused⟩ := register_arrives h
      exact .inr ⟨rfl, hfresh, hused⟩
    · cases ht
  · obtain ⟨cert, hcall, hserial⟩ | ⟨t, bytes, ht, rfl⟩ := hh
    · exact .inl ⟨th, hold, .inl ⟨cert, hcall, hserial⟩⟩
    · rw [Thread.advance_history, mem_snoc] at ht
      obtain ht | heq := ht
      · exact .inl ⟨th, hold, .inr ⟨t, bytes, ht, rfl⟩⟩
      · cases heq
        exact .inr ⟨rfl, perform_newUuid hperf⟩
  · exact .inl ⟨th, hold, hh⟩

namespace Sound

section

variable (hs : Sound config w) (h : step (server config) w a = some w')

include hs h

lemma dated_step (hth : w'.threads[tid]? = some th) (hcall : th.call = .registerCertificate cert) :
    inCalendar cert.metadata.expiresAt := by
  obtain ⟨hold, -⟩ | ⟨call, rfl, -, rfl⟩ | ⟨o, u, c, k, r, -, hold, -, -, rfl⟩ | ⟨u, hold, -, rfl⟩ := thread_step h hth
  · exact hs.dated tid th cert hold hcall
  · obtain rfl : call = .registerCertificate cert := hcall
    exact (register_arrives h).2.1
  · exact hs.dated tid u cert hold hcall
  · exact hs.dated tid u cert hold hcall

lemma sole_step {i j : ℕ} {th u : CaThread} (hi : w'.threads[i]? = some th) (hj : w'.threads[j]? = some u)
    (hth : Holds th serial) (hu : Holds u serial) : i = j := by
  obtain ⟨th0, hi0, hth0⟩ | ⟨hi0, hfresh, -⟩ := holds_step h hi hth <;>
    obtain ⟨u0, hj0, hu0⟩ | ⟨hj0, hfresh', -⟩ := holds_step h hj hu
  · exact hs.sole i j th0 u0 serial hi0 hj0 hth0 hu0
  · exact absurd (hs.used i th0 serial hi0 hth0) hfresh'
  · exact absurd (hs.used j u0 serial hj0 hu0) hfresh
  · rw [hi0, hj0]

lemma active_step (hc : w'.shared.activeCerts.lookup serial = some cert) :
    cert.metadata.serialNumber = serial ∧ Announced w' cert := by
  have hold : w.shared.activeCerts.lookup serial = some cert → cert.metadata.serialNumber = serial ∧ Announced w' cert := by
    intro hl
    obtain ⟨hserial, ha⟩ := hs.active serial cert hl
    exact ⟨hserial, announced_step h ha⟩
  obtain heq | ⟨tid, o, th, cert', rfl, hi, heq⟩ | ⟨_, _, _, -, -, heq⟩ | ⟨-, heq⟩ | ⟨-, heq⟩ := EdfCa.active_step h serial
  · exact hold (heq ▸ hc)
  · obtain rfl := mem_unique hc heq
    obtain hi | hi := hi
    · exact ⟨(hs.keeps.may hi).2.1.symm, announced_exec h hi rfl⟩
    · obtain ⟨h0, t, record, hh, hrec⟩ := (hs.keeps.may hi).2
      have hfound : Found serial cert th.history := .inr ⟨t, record, by rw [hh]; simp, hrec⟩
      obtain ⟨hserial, ha⟩ := hs.found tid th serial cert hi.1 hfound
      exact ⟨hserial, announced_step h ha⟩
  · rw [heq] at hc
    cases hc
  · rw [heq, filter_eq_some_iff] at hc
    exact hold hc.1
  · rw [heq] at hc
    cases hc

lemma stored_step {e : Entry Record} (he : w'.shared.entry serial = some e) :
    ∃ cert, e.value = .certificate cert ∧ cert.metadata.serialNumber = serial ∧ Announced w' cert := by
  have hold : w.shared.entry serial = some e →
      ∃ cert, e.value = .certificate cert ∧ cert.metadata.serialNumber = serial ∧ Announced w' cert := by
    intro he
    obtain ⟨cert, hv, hserial, ha⟩ := hs.stored serial e he
    exact ⟨cert, hv, hserial, announced_step h ha⟩
  obtain heq | heq | ⟨tid, o, th, c, rfl, hi, ht, heq⟩ := entry_step h serial
  · exact hold (heq ▸ he)
  · rw [heq, filter_eq_some_iff] at he
    exact hold he.1
  rw [heq, filter_eq_some_iff] at he
  have hm := (hs.keeps.may hi).2
  cases c with
  | setEx =>
    obtain ⟨cert, now, t, h0, rfl, rfl, hr, -⟩ := hm
    cases he.1
    exact ⟨cert, rfl, certKey_inj.mp (Option.some.inj ht), announced_exec h hi rfl⟩
  | del => cases he.1
  | get => cases ht
  | _ => exact hm.elim

lemma found_step (hth : w'.threads[tid]? = some th) (hf : Found serial cert th.history) :
    cert.metadata.serialNumber = serial ∧ Announced w' cert := by
  have hold : cert.metadata.serialNumber = serial ∧ Announced w cert →
      cert.metadata.serialNumber = serial ∧ Announced w' cert := And.imp_right (announced_step h)
  obtain ⟨t, ht⟩ | ⟨t, record, ht, hrec⟩ := hf
  · obtain ⟨u, hu, -, ht⟩ | ⟨o, u, -, -, -, -, -, hperf⟩ := event_step h hth ht
    · exact hold (hs.found tid u serial cert hu (.inl ⟨t, ht⟩))
    · exact hold (hs.active serial cert (perform_lookupActive hperf).symm)
  obtain ⟨u, hu, -, ht⟩ | ⟨o, u, -, -, -, -, -, hperf⟩ := event_step h hth ht
  · exact hold (hs.found tid u serial cert hu (.inr ⟨t, record, ht, hrec⟩))
  · obtain ⟨e, he, rfl⟩ := map_eq_some_iff.mp (perform_get hperf).symm
    obtain ⟨cert', hv, hserial⟩ := hs.stored serial e he
    rw [hv] at hrec
    cases hrec
    exact hold hserial

lemma step : Sound config w' where
  keeps := keeps_step (call_conducts config) (fun _ th _ _ => ends_stopped config th.call th.history) hs.keeps h
  dated tid th cert hth hcall := hs.dated_step h hth hcall
  used tid th' serial hth hh := by
    obtain ⟨th, hth, hh⟩ | ⟨-, -, hu⟩ := holds_step h hth hh
    · exact used_step h (hs.used tid th serial hth hh)
    · exact hu
  sole i j th u serial hi hj hth hu := hs.sole_step h hi hj hth hu
  active serial cert hc := hs.active_step h hc
  stored serial e he := hs.stored_step h he
  found tid th serial cert hth hf := hs.found_step h hth hf

end

end Sound

lemma sound_start (config : Config) (now : ℕ) : Sound config (start config now) where
  keeps := by rintro tid th ⟨⟩
  dated := by rintro tid th cert ⟨⟩
  used := by rintro tid th serial ⟨⟩
  sole := by rintro i j th u serial ⟨⟩
  active := by rintro serial cert ⟨⟩
  stored := by rintro serial e ⟨⟩
  found := by rintro tid th serial cert ⟨⟩

lemma reach_sound {G : CaPool → Action → Prop} {now : ℕ} (h : Reach (step (server config)) G (start config now) w) :
    Sound config w := by
  induction h with
  | refl => exact sound_start config now
  | tail _ _ hstep ih => exact ih.step hstep

end FleetingDns.EdfCa
