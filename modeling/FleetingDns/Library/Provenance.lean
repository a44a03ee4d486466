import FleetingDns.Library.ServerPool
namespace FleetingDns.Provenance

open CommandPrograms ThreadPool ServerPool GuardedRuns

variable {S K C A O E F : Type} {R : C → Type}

/-- What the state holds, what a reply tells of it, and what a command may add. -/
structure Ledger (S C F : Type) (R : C → Type) where
  held : S → F → Prop
  learned : (c : C) → R c → F → Prop
  written : C → F → Prop

variable {svc : Service S K C R A O E} {w w' : Pool S K C R A} {a : Act K O E}

namespace Ledger

def Knows (L : Ledger S C F R) (h : List (Event S C R)) (f : F) : Prop := ∃ e ∈ h, L.learned e.cmd e.reply f

lemma Knows.mono {L : Ledger S C F R} {h h' : List (Event S C R)} {f : F} (hs : h ⊆ h') (hk : L.Knows h f) :
    L.Knows h' f := by
  obtain ⟨e, he, hl⟩ := hk
  exact ⟨e, hs he, hl⟩

/-- Nothing comes into the state but what commands write, and replies tell what the state holds. -/
structure Faithful (L : Ledger S C F R) (svc : Service S K C R A O E) : Prop where
  performed : ∀ {s s' c o r f}, svc.perform s c o = some (s', r) → L.held s' f → L.held s f ∨ L.written c f
  told : ∀ {s s' c o r f}, svc.perform s c o = some (s', r) → L.learned c r f → L.held s f
  accepted : ∀ {s s' k f}, svc.accept s k = some s' → L.held s' f → L.held s f
  drifted : ∀ {s s' e f}, svc.drift s e = some s' → L.held s' f → L.held s f
  restarted : ∀ {s s' f}, svc.restart s = some s' → L.held s' f → L.held s f

def Grounded (L : Ledger S C F R) (sound : Pool S K C R A → F → Prop) (w : Pool S K C R A) : Prop :=
  (∀ f, L.held w.shared f → sound w f) ∧
    ∀ (tid : ℕ) (th : Thread S K C R A) (f : F), w.threads[tid]? = some th → L.Knows th.history f → sound w f

variable {L : Ledger S C F R} {sound : Pool S K C R A → F → Prop}

lemma held_step (hL : L.Faithful svc) (h : step svc w a = some w') {f : F} (hf : L.held w'.shared f) :
    L.held w.shared f ∨ ∃ tid o th c r, a = .exec tid o ∧ Issues w tid th c ∧
      svc.perform w.shared c o = some (w'.shared, r) ∧ L.written c f := by
  cases step_effect h with
  | drift drift => exact .inl (hL.drifted drift hf)
  | arrive accept => exact .inl (hL.accepted accept hf)
  | @exec tid o th c k r thread prog perform threads =>
    obtain hold | hnew := hL.performed perform hf
    · exact .inl hold
    · exact .inr ⟨tid, o, th, c, r, rfl, ⟨thread, k, prog⟩, perform, hnew⟩
  | cancel thread inFlight shared => exact .inl (shared ▸ hf)
  | restart restart => exact .inl (hL.restarted restart hf)

lemma grounded_step (hL : L.Faithful svc) (hmono : ∀ f, sound w f → sound w' f)
    (hwrite : ∀ tid o th c r f, a = .exec tid o → Issues w tid th c → svc.perform w.shared c o = some (w'.shared, r) →
      L.written c f → (∀ f', L.Knows th.history f' → sound w f') → L.held w'.shared f → sound w' f)
    (hg : L.Grounded sound w) (h : step svc w a = some w') : L.Grounded sound w' := by
  constructor
  · intro f hf
    obtain hold | ⟨tid, o, th, c, r, ha, hi, hp, hnew⟩ := held_step hL h hf
    · exact hmono f (hg.1 f hold)
    · exact hwrite tid o th c r f ha hi hp hnew (fun f' => hg.2 tid th f' hi.1) hf
  · rintro tid th' f hth ⟨e, he, hl⟩
    obtain ⟨th, hold, -, he⟩ | ⟨o, th, -, hi, -, -, -, hp⟩ := event_step h hth he
    · exact hmono f (hg.2 tid th f hold ⟨e, he, hl⟩)
    · exact hmono f (hg.1 f (hL.told hp hl))

end Ledger

section

variable {β : Type}

def Drew (draw : (c : C) → R c → Option β) (h : List (Event S C R)) (b : β) : Prop :=
  ∃ e ∈ h, draw e.cmd e.reply = some b

structure Fresh (svc : Service S K C R A O E) (draw : (c : C) → R c → Option β) (used : S → List β) : Prop where
  fresh : ∀ {s s' c o r b}, svc.perform s c o = some (s', r) → draw c r = some b → b ∉ used s ∧ b ∈ used s'
  performed : ∀ {s s' c o r}, svc.perform s c o = some (s', r) → used s ⊆ used s'
  accepted : ∀ {s s' k}, svc.accept s k = some s' → used s ⊆ used s'
  drifted : ∀ {s s' e}, svc.drift s e = some s' → used s ⊆ used s'
  restarted : ∀ {s s'}, svc.restart s = some s' → used s ⊆ used s'

variable {draw : (c : C) → R c → Option β} {used : S → List β}

lemma used_step (hd : Fresh svc draw used) (h : step svc w a = some w') : used w.shared ⊆ used w'.shared := by
  cases step_effect h with
  | drift drift => exact hd.drifted drift
  | arrive accept => exact hd.accepted accept
  | exec thread prog perform => exact hd.performed perform
  | cancel thread inFlight shared => rw [shared]; exact List.Subset.refl _
  | restart restart => exact hd.restarted restart

lemma drew_step (hd : Fresh svc draw used) (h : step svc w a = some w') {tid : ℕ} {th' : Thread S K C R A} {b : β}
    (hth : w'.threads[tid]? = some th') (hb : Drew draw th'.history b) :
    (∃ th, w.threads[tid]? = some th ∧ Drew draw th.history b) ∨
      ((∃ o, a = .exec tid o) ∧ b ∉ used w.shared ∧ b ∈ used w'.shared) := by
  obtain ⟨e, he, heq⟩ := hb
  obtain ⟨th, hold, -, he⟩ | ⟨o, th, ha, hi, -, -, -, hp⟩ := event_step h hth he
  · exact .inl ⟨th, hold, e, he, heq⟩
  · exact .inr ⟨⟨o, ha⟩, hd.fresh hp heq⟩

lemma reach_drawn {G : Pool S K C R A → Act K O E → Prop} {s : S} (hd : Fresh svc draw used)
    (h : Reach (step svc) G ⟨s, []⟩ w) :
    (∀ (tid : ℕ) th b, w.threads[tid]? = some th → Drew draw th.history b →
      b ∈ used w.shared) ∧
    ∀ (tid tid' : ℕ) th th' b, w.threads[tid]? = some th → w.threads[tid']? = some th' →
      Drew draw th.history b → Drew draw th'.history b → tid = tid' := by
  induction h with
  | refl => exact ⟨by rintro tid th b ⟨⟩, by rintro tid tid' th th' b ⟨⟩⟩
  | tail _ _ hstep ih =>
    obtain ⟨hused, huniq⟩ := ih
    constructor
    · intro tid th b hth hb
      obtain ⟨u, hold, hb⟩ | ⟨-, -, hnew⟩ := drew_step hd hstep hth hb
      · exact used_step hd hstep (hused tid u b hold hb)
      · exact hnew
    intro tid tid' th th' b hth hth' hb hb'
    obtain ⟨u, hold, hb⟩ | ⟨⟨o, ha⟩, hnot, -⟩ := drew_step hd hstep hth hb
    · obtain ⟨u', hold', hb'⟩ | ⟨-, hnot, -⟩ := drew_step hd hstep hth' hb'
      · exact huniq tid tid' u u' b hold hold' hb hb'
      · exact absurd (hused tid u b hold hb) hnot
    · obtain ⟨u', hold', hb'⟩ | ⟨⟨o', ha'⟩, -, -⟩ := drew_step hd hstep hth' hb'
      · exact absurd (hused tid' u' b hold' hb') hnot
      · rw [ha] at ha'
        cases ha'
        rfl

end

end FleetingDns.Provenance
