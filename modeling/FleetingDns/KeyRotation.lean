import FleetingDns.RrsigRecords
namespace FleetingDns.Dnssec.Signer

open ExpiringStore EdfCa Dns Panics FirstLive GuardedRuns DnssecKeyManager Option Rotation List

variable {hmac : Bytes → Bytes → Bytes} {config : DnssecConfig} {s s1 s' s'' : Signer} {a : DnssecAlgorithm}
  {k k' : DnssecKey} {op : Op} {rotation : Rotation} {data sig bytes : Bytes} {t t' : ℕ} {m : DnssecKeyManager}
  {times : SigningTimes}

def Between (s : Signer) (op : Op) : Prop := Fresh s op ∧ op.rotation s.manager = none

/-- Every signature of the algorithm from now on, up to the next rotation, is made with the key, as long as the key
lasts or no other has been generated. -/
def SignsWith (hmac : Bytes → Bytes → Bytes) (a : DnssecAlgorithm) (s : Signer) (k : DnssecKey) : Prop :=
  ∀ s', Reach (step hmac) Between s s' → ∀ data times t sig m, advance s'.clock times.times = some t →
    s'.manager.sign hmac data a times = (.ok sig, m) →
    times.keyReadAt < k.expiresAt ∨ ofAlgorithm a s'.issued = ofAlgorithm a s.issued → sig = signature hmac k data

def NothingLeft (s : Signer) (a : DnssecAlgorithm) (rotation : Rotation) : Prop :=
  (∀ k ∈ ofAlgorithm a s.issued, k.expiresAt ≤ rotation.rotatedAt) ∧
    ∀ data, s.manager.cached data a rotation.rotatedAt = none

lemma rotated_step (hr : op.rotation s.manager = some rotation) (h : step hmac s op = some s') :
    s' = ⟨(s.manager.rotateKeys rotation).2, rotation.rotatedAt, s.issued ++ rotation.keys s.manager⟩ := by
  obtain ⟨clock, hc, rfl⟩ := map_eq_some_iff.mp h
  obtain ⟨-, -, rfl, -⟩ := rotation_times hr hc
  rw [(rotation_run hmac hr).1, (rotation_run hmac hr).2]

lemma generateKeys_done (rotation : Rotation) (l : List DnssecAlgorithm) (m : DnssecKeyManager)
    (h : (generateKeys rotation l m).1 = some ()) :
    (∀ a ∈ l, (rotation.draws a).overflows m.config = false) ∧
      rotation.drawn m.config l = l.flatMap fun a => (rotation.draws a).keys m.config a := by
  induction l generalizing m with
  | nil => exact ⟨by simp, rfl⟩
  | cons a l ih =>
    obtain ⟨hnone, hgrows⟩ := generateKey_spec m a (rotation.draws a)
    rw [generateKeys] at h
    rcases hg : m.generateKey a (rotation.draws a) with ⟨_ | r, m'⟩
    · rw [hg] at h
      cases h
    · rw [hg] at h hnone hgrows
      have hov : (rotation.draws a).overflows m.config = false := by simpa using hnone
      have hrest := ih _ h
      rw [hgrows.config] at hrest
      rw [drawn, hov, flatMap_cons, ← hrest.2]
      exact ⟨forall_mem_cons.mpr ⟨hov, hrest.1⟩, rfl⟩

lemma rotateKeys_ok (h : (m.rotateKeys rotation).1 = some (.ok ())) : m.poisoned = false ∧
    (m.rotateKeys rotation).2.poisoned = false ∧ (m.rotateKeys rotation).2.lastRotation = rotation.rotatedAt ∧
    ∀ a, rotation.sweptAt m a = some rotation.deactivatedAt ∧ (rotation.draws a).overflows m.config = false ∧
      ofAlgorithm a (rotation.keys m) = (rotation.draws a).keys m.config a := by
  have hgrows := generateKeys_spec rotation algorithms m
  have hdrawn := generateKeys_done rotation algorithms m
  simp only [rotateKeys, Rotation.sweptAt, Rotation.keys] at h ⊢
  generalize generateKeys rotation algorithms m = generated at *
  obtain ⟨_ | ⟨⟩, m'⟩ := generated
  · cases h
  cases hp : m'.poisoned with
  | true => simp [deactivateOldKeys, hp] at h
  | false =>
    have hp' : m.poisoned = false := hgrows.poisoned.symm.trans hp
    simp only [deactivateOldKeys, hp, Bool.false_eq_true, if_false] at h ⊢
    cases hall : rotation.order.all (m'.sweeps rotation.deactivatedAt) with
    | false => simp [hall] at h
    | true =>
      obtain ⟨hdone, hkeys⟩ := hdrawn rfl
      rw [hp', hkeys]
      have hmem (a : DnssecAlgorithm) : a ∈ algorithms := by cases a <;> decide
      refine ⟨rfl, by simp, by simp, fun a => ⟨?_, hdone a (hmem a), ?_⟩⟩
      · have hvisited : m'.visited rotation.deactivatedAt rotation.order = rotation.order := by
          have hdone : rotation.order.dropWhile (m'.sweeps rotation.deactivatedAt) = [] := by
            rw [List.dropWhile_eq_nil_iff]
            exact List.all_eq_true.mp hall
          rw [visited, hdone, List.take_nil, List.append_nil, List.takeWhile_eq_self_iff]
          exact List.all_eq_true.mp hall
        simp [hvisited, rotation.visits.mem_iff, hmem]
      · cases a <;> simp [algorithms, ofAlgorithm_append, ofAlgorithm_keys]

lemma cached_iff : m.cached data a t = some sig ↔ m.config.enableSignatureCache = true ∧
    ∃ e, m.signatureCache (cacheKey a data) = some e ∧ e.valid t = true ∧ e.signature = sig := by
  constructor
  · intro h
    refine ⟨?_, cached_entry h⟩
    rw [DnssecKeyManager.cached] at h
    split_ifs at h with hc
    exact hc
  · rintro ⟨hc, e, he, hv, rfl⟩
    simp only [DnssecKeyManager.cached, hc, ↓reduceIte, getCachedSignature, he, hv]

/-- Between two rotations: a signature that is still given out is of the new key, or of one generated since and made
when the new key had expired. -/
structure Rotated (hmac : Bytes → Bytes → Bytes) (config : DnssecConfig) (a : DnssecAlgorithm) (k : DnssecKey)
    (s1 s : Signer) : Prop where
  sound : Sound hmac config s
  clock : s1.clock ≤ s.clock
  grown : ofAlgorithm a s1.issued <+: ofAlgorithm a s.issued
  cached : ∀ data e t, s.clock ≤ t → s.manager.signatureCache (cacheKey a data) = some e → e.valid t = true →
    s.manager.config.enableSignatureCache = true → e.signature = signature hmac k data ∨
      k.expiresAt ≤ e.createdAt ∧ ofAlgorithm a s.issued ≠ ofAlgorithm a s1.issued

/-- Right after the rotation the new key is the last one issued, and no other is unexpired. -/
def Last (a : DnssecAlgorithm) (k : DnssecKey) (s1 : Signer) : Prop :=
  ∃ old, ofAlgorithm a s1.issued = old ++ [k] ∧ ∀ k' ∈ old, k'.expiresAt ≤ s1.clock

section

variable (h : Rotated hmac config a k s1 s) (hl : Last a k s1)

include h hl

lemma Rotated.active (ht : s.clock ≤ t) (hg : s.manager.getActiveKey a t = .ok k') :
    k' = k ∨ k.expiresAt ≤ t ∧ ofAlgorithm a s.issued ≠ ofAlgorithm a s1.issued := by
  obtain ⟨old, hold, hdead⟩ := hl
  obtain ⟨later, hlater⟩ := h.grown
  have hclock := h.clock
  have hfirst := ((getActiveKey_iff h.sound.toKept ht).mp hg).2
  rw [← hlater, hold, append_assoc, firstLive_append_dead fun k0 hk0 => (hdead k0 hk0).trans (by omega)] at hfirst
  by_cases hk : t < k.expiresAt
  · left
    simpa [firstLive, hk, eq_comm] using hfirst
  · rw [firstLive_append_dead (by simpa using hk)] at hfirst
    by_cases hnil : later = []
    · rw [hnil] at hfirst
      cases hfirst
    · refine .inr ⟨by omega, ?_⟩
      rw [← hlater]
      simpa using hnil

lemma Rotated.signs
    (hclock : advance s.clock times.times = some t) (hsign : s.manager.sign hmac data a times = (.ok sig, m))
    (hkey : times.keyReadAt < k.expiresAt ∨ ofAlgorithm a s.issued = ofAlgorithm a s1.issued) :
    sig = signature hmac k data := by
  obtain ⟨h0, h1, -⟩ := signing_times (rfl : (Op.sign data a times).signing = _) hclock
  rw [DnssecKeyManager.sign] at hsign
  cases hc : s.manager.cached data a times.cacheReadAt with
  | some =>
    simp only [hc, Prod.mk.injEq, Except.ok.injEq] at hsign
    obtain ⟨hon, e, he, hv, rfl⟩ := cached_iff.mp hc
    have hcreated := (h.sound.cached a data e he).1
    rw [← hsign.1]
    rcases h.cached data e _ h0 he hv hon with hsig | ⟨hlate, hgrown⟩
    · exact hsig
    · rcases hkey with hkey | hkey
      · omega
      · exact absurd hkey hgrown
  | none =>
    simp only [hc] at hsign
    cases hg : s.manager.getActiveKey a times.keyReadAt with
    | error => simp [hg] at hsign
    | ok =>
      simp only [hg, Prod.mk.injEq, Except.ok.injEq] at hsign
      rcases h.active hl (by omega) hg with rfl | ⟨hlate, hgrown⟩
      · exact hsign.1.symm
      · rcases hkey with hkey | hkey
        · omega
        · exact absurd hkey hgrown

lemma rotated_between (hg : Between s op) (hstep : step hmac s op = some s') : Rotated hmac config a k s1 s' := by
  have hs' := sound_step h.sound hg.1 hstep
  obtain ⟨clock, hc, rfl⟩ := map_eq_some_iff.mp hstep
  have hle := (advance_bounds hc).1
  have hmore : ofAlgorithm a s.issued ≠ ofAlgorithm a s1.issued →
      ofAlgorithm a (s.issued ++ op.issues s.manager) ≠ ofAlgorithm a s1.issued := by
    intro hne heq
    have hle := h.grown.length_le
    have hlen := congrArg List.length heq
    rw [ofAlgorithm_append, length_append] at hlen
    exact hne (h.grown.eq_of_length (by omega)).symm
  refine ⟨hs', h.clock.trans hle, ?_, ?_⟩
  · simp only [ofAlgorithm_append]
    exact h.grown.trans (prefix_append _ _)
  · intro data e t ht he hv hon
    simp only [run_config] at hon
    rcases run_cache he with hold | ⟨data', a', times, k', hop, hactive, hkey, hsig, hcreated⟩
    · exact (h.cached data e t (hle.trans ht) hold hv hon).imp_right (And.imp_right hmore)
    · obtain ⟨rfl, rfl⟩ := cacheKey_injective hkey
      obtain ⟨h0, h1, h2, -⟩ := signing_times hop hc
      rcases h.active hl (by omega) hactive with rfl | ⟨hlate, hgrown⟩
      · exact .inl hsig
      · exact .inr ⟨by omega, hmore hgrown⟩

lemma rotated_reach (hr : Reach (step hmac) Between s s') : Rotated hmac config a k s1 s' := by
  induction hr with
  | refl => exact h
  | tail _ hg hs ih => exact rotated_between ih hl hg hs

end

lemma rotated_cached (m : DnssecKeyManager) (rotation : Rotation) (data : Bytes) (a : DnssecAlgorithm) (t : ℕ) :
    (m.rotateKeys rotation).2.cached data a t = m.cached data a t := by
  obtain ⟨hconfig, hcache, -⟩ := rotateKeys_spec m rotation
  simp only [DnssecKeyManager.cached, getCachedSignature, hconfig, hcache]

def atOnce (t : ℕ) : SigningTimes := ⟨t, t, t, t⟩

lemma advance_atOnce (ht : t / second < 2 ^ 63) : advance t (atOnce t).times = some t := by
  simp only [atOnce, SigningTimes.times, advance_cons, advance_nil, le_refl, ht, and_self]

section

variable (hinj : ∀ data, Function.Injective (hmac · data)) (h : Reachable hmac config s) (hf : Fresh s op)
  (hr : op.rotation s.manager = some rotation) (hok : (s.manager.rotateKeys rotation).1 = some (.ok ()))
  (hstep : step hmac s op = some s') (hb : (rotation.draws a).bytes = .ok bytes)
  (hk : (rotation.draws a).key s.manager.config a bytes = some k)

include hok hb hk

lemma new_issued : ofAlgorithm a (rotation.keys s.manager) = [k] := by
  rw [((rotateKeys_ok hok).2.2.2 a).2.2, KeyDraw.keys, hb]
  simp [hk]

include h hf hr hstep

lemma rotated_start (hn : NothingLeft s a rotation) : Last a k s' ∧ Rotated hmac config a k s' s' := by
  have hs' := sound_step h.sound hf hstep
  have hnew := new_issued hok hb hk
  have hclock : s.clock ≤ rotation.rotatedAt := by
    obtain ⟨_, hc, -⟩ := map_eq_some_iff.mp hstep
    have := rotation_times hr hc
    omega
  cases rotated_step hr hstep
  refine ⟨⟨_, by rw [ofAlgorithm_append, hnew], hn.1⟩, hs', le_rfl, prefix_rfl, ?_⟩
  intro data e t ht he hv hon
  rw [(rotateKeys_spec s.manager rotation).2.1] at he
  rw [(rotateKeys_spec s.manager rotation).1] at hon
  -- an entry that is valid later is valid at the end of the rotation
  have hcreated := (h.sound.cached a data e he).1
  have hvalid : e.valid rotation.rotatedAt = true := by
    simp only [CacheEntry.valid, Bool.and_eq_true, decide_eq_true_eq] at hv ht ⊢
    omega
  have hleft := hn.2 data
  rw [cached_iff.mpr ⟨hon, e, he, hvalid, rfl⟩] at hleft
  cases hleft

include hinj

lemma old_signature {k1 : DnssecKey} (hk1 : k1 ∈ s.issued) (hsw : SignsWith hmac a s' k) (data : Bytes) :
    (s'.manager.sign hmac data a (atOnce rotation.rotatedAt)).1 ≠ .ok (signature hmac k1 data) := by
  intro hsign
  have hs' := sound_step h.sound hf hstep
  obtain ⟨_, hc, -⟩ := map_eq_some_iff.mp hstep
  have hnew := new_issued hok hb hk
  cases rotated_step hr hstep
  have hsig := hsw _ .refl data _ _ _ _ (advance_atOnce (rotation_times hr hc).2.2.2.2) (Prod.ext hsign rfl) (.inr rfl)
  have hkmem : k ∈ rotation.keys s.manager := mem_of_mem_filter (hnew ▸ mem_singleton_self k)
  have heq : k1 = k := hs'.eq_of_signature hinj (mem_append_left _ hk1) (mem_append_right _ hkmem) hsig
  rw [Fresh, (rotation_run hmac hr).2, Distinct, map_append, nodup_append'] at hf
  exact hf.2.2 (mem_map_of_mem hk1) (heq ▸ mem_map_of_mem hkmem)

theorem rotation_effective_iff :
    (SignsWith hmac a s' k ↔ NothingLeft s a rotation) ∧
    ∀ s'', Reach (step hmac) Between s' s'' → ∀ data times t sig m, advance s''.clock times.times = some t →
      s''.manager.sign hmac data a times = (.ok sig, m) → s''.manager.cached data a times.cacheReadAt = none →
      k.expiresAt ≤ times.keyReadAt → sig ≠ signature hmac k data := by
  have hs' := sound_step h.sound hf hstep
  have hold {k1 : DnssecKey} (hk1 : k1 ∈ s.issued) := old_signature hinj h hf hr hok hstep hb hk hk1
  refine ⟨⟨?_, ?_⟩, ?_⟩
  · intro hsw
    have hcache : ∀ data, s.manager.cached data a rotation.rotatedAt = none := by
      intro data
      cases hc : s.manager.cached data a rotation.rotatedAt with
      | none => rfl
      | some =>
        obtain ⟨e, he, -, rfl⟩ := cached_entry hc
        obtain ⟨-, k1, hk1, hsig, -⟩ := h.sound.cached a data e he
        refine absurd ?_ (hold hk1 hsw data)
        cases rotated_step hr hstep
        rw [DnssecKeyManager.sign, rotated_cached]
        simp only [atOnce, hc, hsig]
    refine ⟨fun k0 hk0 => ?_, hcache⟩
    by_contra hlive
    cases hfirst : firstLive DnssecKey.expiresAt rotation.rotatedAt (ofAlgorithm a s.issued) with
    | none => exact hlive (firstLive_none.mp hfirst k0 hk0)
    | some k1 =>
      refine absurd ?_ (hold (mem_of_mem_filter (firstLive_some hfirst).1) hsw [])
      cases rotated_step hr hstep
      have hg : (s.manager.rotateKeys rotation).2.getActiveKey a rotation.rotatedAt = .ok k1 := by
        apply (getActiveKey_iff hs'.toKept le_rfl).mpr
        rw [ofAlgorithm_append]
        exact ⟨(rotateKeys_ok hok).2.1, firstLive_append hfirst⟩
      rw [DnssecKeyManager.sign, rotated_cached]
      simp only [atOnce, hcache, hg]
  · intro hn s'' hreach data times t sig m hclock hsign hkey
    obtain ⟨hl, hrot⟩ := rotated_start h hf hr hok hstep hb hk hn
    exact (rotated_reach hrot hl hreach).signs hl hclock hsign hkey
  · intro s'' hreach data times t sig m hclock hsign hc hlate heq
    have hs'' := hreach.invariant (fun _ _ => trivial) hs' fun _ _ _ _ hs hg hstep => sound_step hs hg.1 hstep
    have hk'' : k ∈ s''.issued := by
      apply hreach.invariant (I := fun x => k ∈ x.issued) (fun _ _ => trivial) ?_ fun _ _ _ _ hk _ hstep =>
        issued_step hstep hk
      cases rotated_step hr hstep
      exact mem_append_right _ (mem_of_mem_filter (new_issued hok hb hk ▸ mem_singleton_self k))
    obtain ⟨h0, h1, -⟩ := signing_times (rfl : (Op.sign data a times).signing = _) hclock
    obtain ⟨k', hk', hmade, hsig, -⟩ := sign_ok hs'' h0 h1 hsign
    rw [Made, hc] at hmade
    have hlive := (firstLive_some hmade).2
    rw [hs''.eq_of_signature hinj hk' hk'' (hsig.symm.trans heq)] at hlive
    omega

end

open Dnssec.Schedule

def launched : Signer := (after []).get (by decide)

lemma reachable_launched : Reachable join Dnssec.Schedule.config launched := reachable_after (some_get _).symm

def newKey (t n : ℕ) : Option DnssecKey := (draw t n).key Dnssec.Schedule.config .rsaSha256 (zeros n)

theorem rotation_effective_when_expired : ∃ s' k, step join launched (.rotateKeys (rotationAt 605800 2)) = some s' ∧
    newKey 605800 3 = some k ∧ SignsWith join .rsaSha256 s' k := by
  have hrun : (step join launched (.rotateKeys (rotationAt 605800 2))).isSome = true := by decide
  have hkey : (newKey 605800 3).isSome = true := by decide
  obtain ⟨s', hstep⟩ := isSome_iff_exists.mp hrun
  obtain ⟨k, hk⟩ := isSome_iff_exists.mp hkey
  refine ⟨s', k, hstep, hk, ?_⟩
  have hfresh : Fresh launched (.rotateKeys (rotationAt 605800 2)) := by decide
  exact (rotation_effective_iff (a := .rsaSha256) join_injective reachable_launched hfresh rfl (by decide) hstep rfl
    hk).1.mpr ⟨by decide, fun _ => rfl⟩

theorem forced_rotation_without_effect : ∃ s' sig m k, Reachable join Dnssec.Schedule.config launched ∧
    Fresh launched (.rotateKeys (rotationAt 1900 2)) ∧ step join launched (.rotateKeys (rotationAt 1900 2)) = some s' ∧
    (launched.manager.rotateKeys (rotationAt 1900 2)).1 = some (.ok ()) ∧ newKey 1900 3 = some k ∧
    advance s'.clock (signing 1901).times = some (1901 * second) ∧
    s'.manager.sign join [] .rsaSha256 (signing 1901) = (.ok sig, m) ∧ sig ≠ signature join k [] := by
  have hcheck : ((step join launched (.rotateKeys (rotationAt 1900 2))).any fun s' =>
      decide (advance s'.clock (signing 1901).times = some (1901 * second)) &&
      decide ((s'.manager.sign join [] .rsaSha256 (signing 1901)).1 = .ok (zeros 1)) &&
      (newKey 1900 3).any fun k => decide (zeros 1 ≠ signature join k [])) = true := by decide
  simp only [Option.any_eq_true, Bool.and_eq_true, decide_eq_true_eq] at hcheck
  obtain ⟨s', hstep, ⟨hclock, hsig⟩, k, hk, hne⟩ := hcheck
  exact ⟨s', zeros 1, (s'.manager.sign join [] .rsaSha256 (signing 1901)).2, k, reachable_launched, by decide, hstep,
    by decide, hk, hclock, Prod.ext hsig rfl, hne⟩

end FleetingDns.Dnssec.Signer
