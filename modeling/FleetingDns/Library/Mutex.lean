import FleetingDns.Library.ServerPool
namespace FleetingDns.Mutex

open CommandPrograms ThreadPool ServerPool GuardedRuns

variable {S K C A O E : Type} {R : C → Type} (locks : C → Bool)

def holds (th : Thread S K C R A) : Bool := th.prog.next.isSome && th.history.any fun e => locks e.cmd

def Exclusive (w : Pool S K C R A) : Act K O E → Prop
  | .exec tid _ => w.threads[tid]?.any (fun th => th.prog.next.any locks) = true → w.threads.all (fun th => !holds locks th) = true
  | _ => True

instance (w : Pool S K C R A) (a : Act K O E) : Decidable (Exclusive locks w a) := match a with
  | .exec _ _ => inferInstanceAs (Decidable (_ → _))
  | .drift _ | .arrive _ | .cancel _ | .restart => inferInstanceAs (Decidable True)

variable {locks} {svc : Service S K C R A O E} {w w' : Pool S K C R A} {a : Act K O E} {tid tid' : ℕ}
  {th th' : Thread S K C R A}

lemma holds_iff : holds locks th = true ↔ th.InFlight ∧ ∃ e ∈ th.history, locks e.cmd = true := by
  rw [holds, Bool.and_eq_true, List.any_eq_true, Thread.InFlight]

lemma holds_of_issues {c : C} (hi : Issues w tid th c) {e : Event S C R} (he : e ∈ th.history) (hl : locks e.cmd = true) :
    holds locks th = true := by
  obtain ⟨-, k, hk⟩ := hi
  exact holds_iff.mpr ⟨Thread.inFlight_of_call hk, e, he, hl⟩

lemma Exclusive.free {o : O} {c : C} (h : Exclusive (E := E) locks w (.exec tid o)) (hi : Issues w tid th c)
    (hl : locks c = true) (hth : w.threads[tid']? = some th') : holds locks th' = false := by
  have hnext : w.threads[tid]?.any (fun th => th.prog.next.any locks) = true := by
    rw [hi.1, Option.any_some, hi.next]
    exact hl
  have hall := List.all_eq_true.mp (h hnext) th' (List.mem_of_getElem? hth)
  rwa [Bool.not_eq_true'] at hall

lemma holds_step (h : step svc w a = some w') (hth : w'.threads[tid]? = some th') (hh : holds locks th' = true) :
    (∃ th, w.threads[tid]? = some th ∧ holds locks th = true) ∨
      ∃ o th c, a = .exec tid o ∧ Issues w tid th c ∧ locks c = true := by
  obtain ⟨hflight, e, he, hl⟩ := holds_iff.mp hh
  obtain ⟨hold, -⟩ | ⟨call, -, -, rfl⟩ | ⟨o, th, c, k, r, rfl, hold, hp, -, rfl⟩ | ⟨th, -, -, rfl⟩ := thread_step h hth
  · exact .inl ⟨th', hold, hh⟩
  · cases he
  · rw [Thread.advance_history, mem_snoc] at he
    obtain he | rfl := he
    · exact .inl ⟨th, hold, holds_of_issues ⟨hold, k, hp⟩ he hl⟩
    · exact .inr ⟨o, th, c, rfl, ⟨hold, k, hp⟩, hl⟩
  · exact absurd hflight (th.stop_not_inFlight _)

lemma holder_unique {s : S} (h : Reach (step svc) (Exclusive locks) ⟨s, []⟩ w) (hth : w.threads[tid]? = some th)
    (hh : holds locks th = true) (hth' : w.threads[tid']? = some th') (hh' : holds locks th' = true) : tid = tid' := by
  induction h generalizing th th' with
  | refl => cases hth
  | tail _ hg hstep ih =>
    obtain ⟨u, hu, hold⟩ | ⟨o, u, c, rfl, hi, hl⟩ := holds_step hstep hth hh
    · obtain ⟨u', hu', hold'⟩ | ⟨o, u', c, rfl, hi', hl'⟩ := holds_step hstep hth' hh'
      · exact ih hu hold hu' hold'
      · rw [hg.free hi' hl' hu] at hold
        cases hold
    · obtain ⟨u', hu', hold'⟩ | ⟨o', u', c', heq, -, -⟩ := holds_step hstep hth' hh'
      · rw [hg.free hi hl hu'] at hold'
        cases hold'
      · cases heq
        rfl

end FleetingDns.Mutex
