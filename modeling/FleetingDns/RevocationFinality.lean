import FleetingDns.CertificateOrigins
namespace FleetingDns.EdfCa

open CommandPrograms ExpiringStore ThreadPool ServerPool GuardedRuns Option List CaState

def inserting (serial : String) : Option Cmd → Bool
  | some (.insertActive s _) | some (.repopulate s _) => s = serial
  | _ => false

/-- A revocation takes a serial out of memory only when the store no longer has it and no request is about to put it back. -/
def effective (w : CaPool) : Action → Bool
  | .exec tid _ => match w.threads[tid]?.bind (·.prog.next) with
    | some (.removeActive serial) =>
      (w.shared.entry serial).isNone && w.threads.all fun th => !inserting serial th.prog.next
    | _ => true
  | _ => true

def Effective (w : CaPool) (a : Action) : Prop := effective w a = true

instance (w : CaPool) (a : Action) : Decidable (Effective w a) := inferInstanceAs (Decidable (_ = true))

/-- The serial is gone from both levels and nothing in flight brings it back. -/
structure Dead (serial : String) (w : CaPool) : Prop where
  announced : ∃ cert, cert.metadata.serialNumber = serial ∧ Announced w cert
  inactive : w.shared.activeCerts.lookup serial = none
  unstored : w.shared.entry serial = none
  idle : ∀ (tid : ℕ) (th : CaThread), w.threads[tid]? = some th → inserting serial th.prog.next = false

variable {config : Config} {w w' : CaPool} {a : Action} {tid : ℕ} {th : CaThread} {serial : String} {o : Choice}

lemma Effective.removal (hg : Effective w (.exec tid o)) (hi : Issues w tid th (.removeActive serial)) :
    w.shared.entry serial = none ∧ ∀ u ∈ w.threads, inserting serial u.prog.next = false := by
  have hn : w.threads[tid]?.bind (·.prog.next) = some (.removeActive serial) := by
    rw [hi.1]
    exact hi.next
  simp only [Effective, effective, hn, Bool.and_eq_true, Option.isNone_iff_eq_none, List.all_eq_true,
    Bool.not_eq_true'] at hg
  exact hg

lemma Sound.spent (hs : Sound config w) (ha : ∃ cert, cert.metadata.serialNumber = serial ∧ Announced w cert)
    (hth : w.threads[tid]? = some th) (hh : Holds th serial) : ¬ Clean th.history := by
  obtain ⟨cert, rfl, j, u, e, hu, he, hc⟩ := ha
  obtain rfl := hs.sole tid j th u _ hth hu hh (announcer_holds hs.keeps hu he hc)
  obtain rfl := mem_unique hth hu
  exact fun hclean => hclean.not_announced he hc

lemma inserting_cases {c : Option Cmd} (h : inserting serial c = true) :
    ∃ cert, c = some (.insertActive serial cert) ∨ c = some (.repopulate serial cert) := by
  unfold inserting at h
  split at h
  · rename_i cert
    exact ⟨cert, .inl (by rw [of_decide_eq_true h])⟩
  · rename_i cert
    exact ⟨cert, .inr (by rw [of_decide_eq_true h])⟩
  · cases h

lemma inserting_last (hs : Sound config w) (ha : ∃ cert, cert.metadata.serialNumber = serial ∧ Announced w cert)
    (hth : w.threads[tid]? = some th) (hi : inserting serial th.prog.next = true) :
    (∃ h0 t record, th.history = h0 ++ [⟨t, .store (.get (certKey serial)), .ok (some record)⟩]) ∨
      ∃ h0 t v ttl r, th.history = h0 ++ [⟨t, .store (.setEx (certKey serial) v ttl), r⟩] := by
  obtain ⟨cert, hn | hn⟩ := inserting_cases hi
  · obtain ⟨hserial, hr, ⟨h0, t, ttl, r, hh, -⟩ | ⟨hclean, -⟩⟩ := (hs.keeps.may (issues_of_next hth hn)).2
    · exact .inr ⟨h0, t, _, ttl, r, hh⟩
    · have hholds : Holds th serial := hserial ▸ registers_holds (append_nil _).symm hr
      exact absurd hclean (hs.spent ha hth hholds)
  · obtain ⟨h0, t, record, hh, -⟩ := (hs.keeps.may (issues_of_next hth hn)).2
    exact .inl ⟨h0, t, record, hh⟩

namespace Dead

lemma not_persisting (hs : Sound config w) (hd : Dead serial w) {v : Record} {ttl : ℕ} :
    ¬ Issues w tid th (.store (.setEx (certKey serial) v ttl)) := by
  intro hi
  obtain ⟨cert, now, t, h0, -, hk, hr, hclean, -⟩ := (hs.keeps.may hi).2
  have hholds : Holds th serial := certKey_inj.mp hk ▸ registers_holds (append_nil _).symm hr
  exact hs.spent hd.announced hi.1 hholds hclean

lemma inactive_step (hd : Dead serial w) (h : step (server config) w a = some w') :
    w'.shared.activeCerts.lookup serial = none := by
  obtain heq | ⟨tid, o, th, cert, -, hi, -⟩ | ⟨_, _, _, -, -, heq⟩ | ⟨-, heq⟩ | ⟨-, heq⟩ := active_step h serial
  · rw [heq, hd.inactive]
  · obtain hi | hi := hi
    · have hidle := hd.idle tid th hi.1
      rw [hi.next] at hidle
      simp [inserting] at hidle
    · have hidle := hd.idle tid th hi.1
      rw [hi.next] at hidle
      simp [inserting] at hidle
  · exact heq
  · rw [heq, hd.inactive]
    rfl
  · exact heq

section

variable (hs : Sound config w) (hd : Dead serial w) (h : step (server config) w a = some w')

include hs hd h

lemma unstored_step : w'.shared.entry serial = none := by
  obtain heq | heq | ⟨tid, o, th, c, -, hi, ht, heq⟩ := entry_step h serial
  · rw [heq, hd.unstored]
  · rw [heq, hd.unstored]
    rfl
  have hm := (hs.keeps.may hi).2
  cases c with
  | setEx =>
    cases ht
    exact absurd hi (hd.not_persisting hs)
  | del =>
    rw [heq]
    rfl
  | get => cases ht
  | _ => exact hm.elim

lemma idle_step (hth : w'.threads[tid]? = some th) : inserting serial th.prog.next = false := by
  rw [← Bool.not_eq_true]
  intro hi
  obtain ⟨cert, hserial, ha⟩ := hd.announced
  have hlast := inserting_last (hs.step h) ⟨cert, hserial, announced_step h ha⟩ hth hi
  obtain ⟨hold, -⟩ | ⟨call, -, -, rfl⟩ | ⟨o, u, c, k, r, rfl, hu, hp, hperf, rfl⟩ | ⟨u, -, -, rfl⟩ := thread_step h hth
  · rw [hd.idle tid th hold] at hi
    cases hi
  · obtain ⟨h0, t, record, heq⟩ | ⟨h0, t, v, ttl, r, heq⟩ := hlast <;> simp at heq
  · obtain ⟨h0, t, record, heq⟩ | ⟨h0, t, v, ttl, r, heq⟩ := hlast
    · obtain ⟨-, he⟩ := append_inj' heq rfl
      cases he
      have hnone := perform_get hperf
      rw [hd.unstored] at hnone
      cases hnone
    · obtain ⟨-, he⟩ := append_inj' heq rfl
      cases he
      exact hd.not_persisting hs ⟨hu, k, hp⟩
  · cases hi

lemma step : Dead serial w' := by
  obtain ⟨cert, hserial, ha⟩ := hd.announced
  exact ⟨⟨cert, hserial, announced_step h ha⟩, hd.inactive_step h, hd.unstored_step hs h, fun _ _ => hd.idle_step hs h⟩

end

end Dead

lemma dead_of_removal (hs : Sound config w) (hg : Effective w (.exec tid o))
    (h : step (server config) w (.exec tid o) = some w') (hi : Issues w tid th (.removeActive serial))
    (ha : ∃ cert, cert.metadata.serialNumber = serial ∧ Announced w cert) : Dead serial w' := by
  obtain ⟨hunstored, hidle⟩ := hg.removal hi
  obtain ⟨k, r, hp, hperf, hth'⟩ := exec_step h hi
  obtain ⟨-, hnone, hentry⟩ := perform_removeActive hperf
  obtain ⟨cert, hserial, hann⟩ := ha
  have hann' : ∃ cert, cert.metadata.serialNumber = serial ∧ Announced w' cert := ⟨cert, hserial, announced_step h hann⟩
  refine ⟨hann', hnone, hentry.trans hunstored, ?_⟩
  intro j u hu
  rw [← Bool.not_eq_true]
  intro hins
  by_cases hj : j = tid
  · subst hj
    obtain rfl := mem_unique hth' hu
    obtain ⟨h0, t, record, heq⟩ | ⟨h0, t, v, ttl, r, heq⟩ := inserting_last (hs.step h) hann' hu hins <;>
      · obtain ⟨-, he⟩ := append_inj' heq rfl
        cases he
  obtain ⟨hold, -⟩ | ⟨_, hact, -⟩ | ⟨_, _, _, _, _, hact, -⟩ | ⟨u', -, -, rfl⟩ := thread_step h hu
  · rw [hidle u (mem_of_getElem? hold)] at hins
    cases hins
  · cases hact
  · cases hact
    exact hj rfl
  · cases hins

def Finished (serial : String) (w : CaPool) : Prop :=
  ∀ (tid : ℕ) (th : CaThread) (h : List Ev), w.threads[tid]? = some th → h <+: th.history → Removes serial h → Dead serial w

lemma finished_step (hs : Sound config w) (hf : Finished serial w) (hg : Effective w a)
    (h : step (server config) w a = some w') : Finished serial w' := by
  intro tid th l hth hpre hr
  have hold : ∀ u : CaThread, w.threads[tid]? = some u → l <+: u.history → Dead serial w' :=
    fun u hu hl => (hf tid u l hu hl hr).step hs h
  obtain ⟨hu, -⟩ | ⟨call, -, -, rfl⟩ | ⟨o, u, c, k, r, rfl, hu, hp, hperf, rfl⟩ | ⟨u, hu, -, rfl⟩ := thread_step h hth
  · exact hold th hu hpre
  · obtain ⟨h0, t, removed, rfl, -⟩ := hr
    simp at hpre
  · rw [Thread.advance_history, prefix_concat_iff] at hpre
    obtain rfl | hpre := hpre
    · obtain ⟨h0, t, removed, heq, hknown⟩ := hr
      obtain ⟨rfl, he⟩ := append_inj' heq rfl
      cases he
      refine dead_of_removal hs hg h ⟨hu, k, hp⟩ ?_
      obtain rfl | ⟨cert, hfound⟩ := hknown
      · obtain ⟨hr, -⟩ := perform_removeActive hperf
        obtain ⟨cert, hcert⟩ := isSome_iff_exists.mp hr.symm
        exact ⟨cert, hs.active serial cert hcert⟩
      · exact ⟨cert, hs.found tid u serial cert hu hfound⟩
    · exact hold u hu hpre
  · exact hold u hu hpre

def Unseen (serial : String) (n : ℕ) (w : CaPool) : Prop :=
  ∀ (tid : ℕ) (th : CaThread) (cert : ActiveCertificate), n ≤ tid → w.threads[tid]? = some th → ¬ Found serial cert th.history

lemma unseen_step {n : ℕ} (hd : Dead serial w) (hu : Unseen serial n w) (h : step (server config) w a = some w') :
    Unseen serial n w' := by
  intro tid th cert hn hth hf
  obtain ⟨t, ht⟩ | ⟨t, record, ht, hrec⟩ := hf
  · obtain ⟨u, hth, -, ht⟩ | ⟨o, u, -, -, -, -, -, hperf⟩ := event_step h hth ht
    · exact hu tid u cert hn hth (.inl ⟨t, ht⟩)
    · have hnone := perform_lookupActive hperf
      rw [hd.inactive] at hnone
      cases hnone
  · obtain ⟨u, hth, -, ht⟩ | ⟨o, u, -, -, -, -, -, hperf⟩ := event_step h hth ht
    · exact hu tid u cert hn hth (.inr ⟨t, record, ht, hrec⟩)
    · have hnone := perform_get hperf
      rw [hd.unstored] at hnone
      cases hnone

lemma dead_run {n : ℕ} {G : CaPool → Action → Prop} (hs : Sound config w) (hd : Dead serial w) (hu : Unseen serial n w)
    (h : Reach (step (server config)) G w w') : Sound config w' ∧ Dead serial w' ∧ Unseen serial n w' := by
  induction h with
  | refl => exact ⟨hs, hd, hu⟩
  | tail _ _ hstep ih =>
    obtain ⟨hs, hd, hu⟩ := ih
    exact ⟨hs.step hstep, hd.step hs hstep, unseen_step hd hu hstep⟩

lemma reach_finished {now : ℕ} (h : Reach (step (server config)) Effective (start config now) w) : Finished serial w :=
  h.invariant (fun _ hr => reach_sound hr) (by rintro tid th l ⟨⟩)
    (fun _ _ _ hs hf hg hstep => finished_step hs hf hg hstep)

theorem revocation_final {now : ℕ} {w1 w2 : CaPool} (h1 : Reach (step (server config)) Effective (start config now) w1)
    (h2 : Reach (step (server config)) Effective w1 w2) {i j : ℕ} {th u : CaThread}
    (hth : w1.threads[i]? = some th) (hrevoke : th.call = .revokeCertificate serial)
    (hok : th.prog = .ret (.revoked (.ok ()))) (hlater : w1.threads.length ≤ j) (hu : w2.threads[j]? = some u)
    (hvalidate : u.call = .validateCertificate serial) {isValid : Bool} (hret : u.prog = .ret (.validated isValid)) :
    isValid = false := by
  have hs := reach_sound h1
  have hremoves : Removes serial th.history := (hs.keeps.ends hth hok).2.1 serial () hrevoke rfl
  have hd : Dead serial w1 := reach_finished h1 i th th.history hth (prefix_refl _) hremoves
  have hunseen : Unseen serial w1.threads.length w1 := by
    intro tid v cert hn hv
    rw [List.getElem?_eq_none hn] at hv
    cases hv
  obtain ⟨hs2, -, hunseen2⟩ := dead_run hs hd hunseen h2
  obtain ⟨hfalse, -⟩ | ⟨h0, t, now, cert, hh, hread, -⟩ := (hs2.keeps.ends hu hret).1 serial isValid hvalidate rfl
  · exact hfalse
  · have hfound : Found serial cert u.history := hread.found.mono (by rw [hh]; exact subset_append_left _ _)
    exact absurd hfound (hunseen2 j u cert hlater hu)

section

open Schedule

def revoked (serial : String) (th : CaThread) : Bool :=
  match th.call, th.prog with
  | .revokeCertificate s, .ret (.revoked (.ok ())) => s = serial
  | _, _ => false

lemma revoked_iff (h : revoked serial th = true) :
    th.call = .revokeCertificate serial ∧ th.prog = .ret (.revoked (.ok ())) := by
  unfold revoked at h
  split at h
  · rename_i hcall hprog
    exact ⟨of_decide_eq_true h ▸ hcall, hprog⟩
  · cases h

lemma revoked_validated {w1 w2 : CaPool} {n i j : ℕ} {isValid : Bool}
    (hp : decide (w1.threads.length = n ∧ w1.threads[i]?.any (revoked serial) = true) = true)
    (hq : w2.threads[j]?.any (validated serial isValid) = true) :
    w1.threads.length = n ∧ ∃ th u, w1.threads[i]? = some th ∧ revoked serial th = true ∧ w2.threads[j]? = some u ∧
      u.call = .validateCertificate serial ∧ u.prog = .ret (.validated isValid) := by
  obtain ⟨hlen, hp⟩ := of_decide_eq_true hp
  rw [Option.any_eq_true] at hp hq
  obtain ⟨th, hth, hrev⟩ := hp
  obtain ⟨u, hu, hval⟩ := hq
  obtain ⟨hcall, hret⟩ := validated_iff hval
  exact ⟨hlen, th, u, hth, hrev, hu, hcall, hret⟩

theorem revocation_final_alone : ∃ w1 w2 th u isValid, Reach (step (server deployment)) Effective begin w1 ∧
    Reach (step (server deployment)) Effective w1 w2 ∧ w1.threads[1]? = some th ∧ w2.threads[2]? = some u ∧
    revoked (serialOf first) th = true ∧ u.call = .validateCertificate (serialOf first) ∧ u.prog = .ret (.validated isValid) ∧
    isValid = false := by
  obtain ⟨w1, w2, h1, h2, hp, hq⟩ := reach_of_checks (step (server deployment)) Effective begin
    ([.arrive issuance] ++ issued 0 first ++ [.arrive (.revokeCertificate (serialOf first)), .exec 1 .plain, .exec 1 (.store .ok),
      .exec 1 .plain])
    [.arrive (.validateCertificate (serialOf first)), .exec 2 .plain, .exec 2 (.store .ok)]
    (fun w => w.threads.length = 2 ∧ w.threads[1]?.any (revoked (serialOf first)))
    (fun _ w => w.threads[2]?.any (validated (serialOf first) false)) (by decide +kernel)
  obtain ⟨hlen, th, u, hth, hrev, hu, hcall', hret⟩ := revoked_validated hp hq
  obtain ⟨hcall, hok⟩ := revoked_iff hrev
  exact ⟨w1, w2, th, u, false, h1, h2, hth, hu, hrev, hcall', hret,
    revocation_final h1 h2 hth hcall hok (by omega) hu hcall' hret⟩

/-- A reader that has read the store before the revocation puts the certificate back into memory after it. -/
theorem revocation_not_final : ∃ w1 w2 th u, Reach (step (server deployment)) Free begin w1 ∧
    Reach (step (server deployment)) Free w1 w2 ∧ w1.threads.length = 3 ∧ w1.threads[2]? = some th ∧
    th.call = .revokeCertificate (serialOf first) ∧ th.prog = .ret (.revoked (.ok ())) ∧ w2.threads[3]? = some u ∧
    u.call = .validateCertificate (serialOf first) ∧ u.prog = .ret (.validated true) := by
  obtain ⟨w1, w2, h1, h2, hp, hq⟩ := reach_of_checks (step (server deployment)) Free begin
    ([.arrive issuance] ++ issued 0 first ++ [.restart, .arrive (.validateCertificate (serialOf first)), .exec 1 .plain,
      .exec 1 (.store .ok), .arrive (.revokeCertificate (serialOf first)), .exec 2 .plain, .exec 2 (.store .ok), .exec 2 .plain,
      .exec 2 (.store .ok), .exec 2 .plain])
    [.exec 1 .plain, .arrive (.validateCertificate (serialOf first)), .exec 3 .plain, .exec 3 .plain]
    (fun w => w.threads.length = 3 ∧ w.threads[2]?.any (revoked (serialOf first)))
    (fun _ w => w.threads[3]?.any (validated (serialOf first) true)) (by decide +kernel)
  obtain ⟨hlen, th, u, hth, hrev, hu, hcall', hret⟩ := revoked_validated hp hq
  obtain ⟨hcall, hok⟩ := revoked_iff hrev
  exact ⟨w1, w2, th, u, h1, h2, hlen, hth, hcall, hok, hu, hcall', hret⟩

end

end FleetingDns.EdfCa
