import FleetingDns.KeyRotation
namespace FleetingDns.Dnssec.Signer

open ExpiringStore FirstLive GuardedRuns DnssecKeyManager Option KeyDraw List

variable {hmac : Bytes → Bytes → Bytes} {config : DnssecConfig} {s s' : Signer} {a : DnssecAlgorithm}
  {k : DnssecKey} {m : DnssecKeyManager} {t readAt : ℕ} {data : Bytes} {rotation : Rotation} {draw : KeyDraw}

def Signs (hmac : Bytes → Bytes → Bytes) (s : Signer) (data : Bytes) (a : DnssecAlgorithm) : Prop :=
  ∃ sig, (s.manager.sign hmac data a (atOnce s.clock)).1 = .ok sig

/-- When the check ends a signature of the data is still cached, or the keys can be read and one of them is unexpired:
one issued before the check, or the one that a due rotation draws. -/
def Covered (s : Signer) (readAt : ℕ) (rotation : Rotation) (data : Bytes) (a : DnssecAlgorithm) : Prop :=
  (s.manager.cached data a rotation.rotatedAt).isSome = true ∨ s.manager.poisoned = false ∧
    ((∃ k ∈ ofAlgorithm a s.issued, rotation.rotatedAt < k.expiresAt) ∨
      second * s.manager.config.rotationInterval < readAt - s.manager.lastRotation ∧
      (∃ bytes, (rotation.draws a).bytes = .ok bytes) ∧
      rotation.rotatedAt < (rotation.draws a).expiryFrom + s.manager.config.rotationInterval * second)

lemma signs_iff (hmac : Bytes → Bytes → Bytes) (data : Bytes) (a : DnssecAlgorithm) (h : Kept config s) :
    Signs hmac s data a ↔ (s.manager.cached data a s.clock).isSome = true ∨
      s.manager.poisoned = false ∧ ∃ k ∈ ofAlgorithm a s.issued, s.clock < k.expiresAt := by
  have hkey : (∃ k, s.manager.getActiveKey a s.clock = .ok k) ↔
      s.manager.poisoned = false ∧ ∃ k ∈ ofAlgorithm a s.issued, s.clock < k.expiresAt := by
    simp only [getActiveKey_iff h le_rfl, exists_and_left, ← isSome_iff_exists, firstLive, List.find?_isSome,
      decide_eq_true_eq]
  rw [← hkey, Signs, DnssecKeyManager.sign, atOnce]
  cases s.manager.cached data a s.clock with
  | some => simp
  | none => cases s.manager.getActiveKey a s.clock <;> simp

lemma drawn_unexpired (hov : draw.overflows config = false) : (∃ k ∈ draw.keys config a, t < k.expiresAt) ↔
    (∃ bytes, draw.bytes = .ok bytes) ∧ t < draw.expiryFrom + config.rotationInterval * second := by
  rw [KeyDraw.overflows] at hov
  rw [KeyDraw.keys]
  cases hb : draw.bytes with
  | error => simp
  | ok bytes =>
    rw [hb] at hov
    have hsome : (Panics.instantAdd draw.expiryFrom config.rotationInterval).isSome = true := by
      simpa [Except.isOk, Except.toBool] using hov
    obtain ⟨expiresAt, he⟩ := Option.isSome_iff_exists.mp hsome
    rw [(Panics.instantAdd_eq_some.mp he).2]
    simp [KeyDraw.key, he, DnssecKey.expiresAt]

theorem signs_after_check_iff {draw : KeyDraw} {env : Option EnvKey} {s0 : Signer}
    (hnew : new config t draw env = some s0) (hr : Reach (step hmac) Free s0 s)
    (hok : (s.manager.checkAndRotateKeys readAt rotation).1 = some (.ok ()))
    (hstep : step hmac s (.checkAndRotateKeys readAt rotation) = some s') (data : Bytes) :
    Signs hmac s' data config.defaultAlgorithm ↔ Covered s readAt rotation data config.defaultAlgorithm := by
  have hkept := kept_reach hnew hr
  rw [signs_iff hmac data config.defaultAlgorithm (kept_step hkept hstep), Covered]
  have hclock : s'.clock = rotation.rotatedAt := by
    obtain ⟨clock, hc, rfl⟩ := map_eq_some_iff.mp hstep
    simp only [Op.times, Rotation.times, times, cons_append, nil_append, advance_cons, advance_nil] at hc
    change clock = _
    omega
  rw [hclock]
  rw [checkAndRotateKeys] at hok
  by_cases hneeds : s.manager.needsRotation readAt = true
  · rw [if_pos hneeds] at hok
    obtain ⟨hread, hread', -, hkeys⟩ := rotateKeys_ok hok
    obtain ⟨-, hov, hissued⟩ := hkeys config.defaultAlgorithm
    cases rotated_step (by rw [Op.rotation, if_pos hneeds]) hstep
    have hdue := of_decide_eq_true hneeds
    simp only [rotated_cached, hread, hread', ofAlgorithm_append, hissued, mem_append, or_and_right, exists_or,
      drawn_unexpired hov, hdue, true_and]
  · have hidle : ¬ second * s.manager.config.rotationInterval < readAt - s.manager.lastRotation :=
      fun hdue => hneeds (decide_eq_true hdue)
    obtain ⟨clock, -, rfl⟩ := map_eq_some_iff.mp hstep
    simp only [Op.run, checkAndRotateKeys, Op.issues, Op.rotation, hneeds, Bool.false_eq_true, if_false,
      elim_none, append_nil, hidle, false_and, or_false]

open Dnssec.Schedule

lemma booted_launched : booted = some launched := by
  exact (bind_fun_some booted).symm

theorem signs_after_rotation : ∃ s',
    step join launched (.checkAndRotateKeys (605800 * second) (rotationAt 605800 2)) = some s' ∧
    s'.clock = 605800 * second ∧ Signs join s' [] .rsaSha256 := by
  have hrun : ((step join launched (.checkAndRotateKeys (605800 * second) (rotationAt 605800 2))).any
      (·.clock = 605800 * second)) = true := by decide
  simp only [Option.any_eq_true, decide_eq_true_eq] at hrun
  obtain ⟨s', hstep, hclock⟩ := hrun
  have hcovered : Covered launched (605800 * second) (rotationAt 605800 2) [] .rsaSha256 :=
    .inr ⟨by decide, .inr ⟨by decide, ⟨_, rfl⟩, by decide⟩⟩
  exact ⟨s', hstep, hclock, (signs_after_check_iff booted_launched .refl (by decide) hstep []).mpr hcovered⟩

def Op.draws : Op → List KeyDraw
  | .generateKey _ draw => [draw]
  | .rotateKeys rotation | .checkAndRotateKeys _ rotation =>
    [rotation.draws .hmacSha256, rotation.draws .rsaSha256, rotation.draws .ecdsaP256Sha256]
  | .sign _ _ _ | .rrsigRecord _ _ _ _ _ _ | .validateRrsig _ _ _ _ => []

def Generating (_ : Signer) (op : Op) : Prop := (Op.draws op).all (·.bytes.isOk) = true

instance (s : Signer) (op : Op) : Decidable (Generating s op) := inferInstanceAs (Decidable (_ = true))

/-- Exactly one interval after a rotation its keys have expired, and the next is not yet due. -/
theorem signing_gap : ∃ s s', Reach (step join) Generating launched s ∧
    (s.manager.checkAndRotateKeys (1210600 * second) (rotationAt 1210600 5)).1 = some (.ok ()) ∧
    step join s (.checkAndRotateKeys (1210600 * second) (rotationAt 1210600 5)) = some s' ∧ s'.clock = 1210600 * second ∧
    (s'.manager.sign join [] .rsaSha256 (atOnce s'.clock)).1 =
      .error (.keyNotFound "No active key for algorithm RsaSha256") := by
  have hrun : ((runs (step join) Generating launched
      [.checkAndRotateKeys (605800 * second) (rotationAt 605800 2)]).any fun s =>
      decide ((s.manager.checkAndRotateKeys (1210600 * second) (rotationAt 1210600 5)).1 = some (.ok ())) &&
      (step join s (.checkAndRotateKeys (1210600 * second) (rotationAt 1210600 5))).any fun s' =>
        decide (s'.clock = 1210600 * second) && decide ((s'.manager.sign join [] .rsaSha256 (atOnce s'.clock)).1 =
          .error (.keyNotFound "No active key for algorithm RsaSha256"))) = true := by decide
  simp only [Option.any_eq_true, Bool.and_eq_true, decide_eq_true_eq] at hrun
  obtain ⟨s, hs, hok, s', hs', hclock, hgap⟩ := hrun
  exact ⟨s, s', reach_of_runs hs, hok, hs', hclock, hgap⟩

end FleetingDns.Dnssec.Signer
