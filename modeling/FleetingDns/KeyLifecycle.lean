import FleetingDns.SigningGap
namespace FleetingDns.Dnssec

open ExpiringStore Panics GuardedRuns DnssecKeyManager List Option Dnssec.Schedule

namespace DnssecKey

def enabled (key : DnssecKey) : DnssecKey := { key with metadata := { key.metadata with isActive := true } }

lemma enabled_expiresAt (key : DnssecKey) : key.enabled.expiresAt = key.expiresAt := rfl

variable {key : DnssecKey}

lemma enabled_of_active (h : key.metadata.isActive = true) : key.enabled = key := by
  obtain ⟨⟨id, algorithm, createdAt, expiresAt, isActive, tag⟩, material⟩ := key
  subst h
  rfl

lemma enabled_deactivate (key : DnssecKey) (now : ℕ) : (key.deactivate now).enabled = key.enabled := by
  rw [deactivate]
  split_ifs <;> rfl

lemma deactivate_metadata (key : DnssecKey) (now : ℕ) :
    (key.deactivate now).metadata.createdAt = key.metadata.createdAt ∧
      (key.deactivate now).metadata.algorithm = key.metadata.algorithm := by
  rw [deactivate]
  split_ifs <;> exact ⟨rfl, rfl⟩

lemma deactivate_inactive {now : ℕ} (h : key.metadata.isActive = true) :
    (key.deactivate now).metadata.isActive = false ↔ key.expiresAt < now := by
  rw [deactivate]
  split_ifs with he <;> simp [he, h]

lemma deactivate_deactivate (key : DnssecKey) {now later : ℕ} (h : now ≤ later) :
    (key.deactivate now).deactivate later = key.deactivate later := by
  by_cases he : key.expiresAt < now
  · have hlate : key.expiresAt < later := by omega
    rw [deactivate, if_pos ((deactivate_expiresAt key now).trans_lt hlate)]
    simp only [deactivate, if_pos he, if_pos hlate]
  · have hlive : key.deactivate now = key := deactivate_live (by omega)
    rw [hlive]

end DnssecKey

def retire (grace now : ℕ) (keys : List DnssecKey) : List DnssecKey :=
  (keys.map (·.deactivate now)).filter fun key => now < key.expiresAt + grace * second

lemma retire_append (grace now : ℕ) (keys keys' : List DnssecKey) :
    retire grace now (keys ++ keys') = retire grace now keys ++ retire grace now keys' := by
  simp only [retire, map_append, filter_append]

variable {keys : List DnssecKey}

lemma mem_retire {grace now : ℕ} {key : DnssecKey} : key ∈ retire grace now keys ↔
    ∃ k ∈ keys, k.deactivate now = key ∧ now < k.expiresAt + grace * second := by
  simp only [retire, mem_filter, List.mem_map, decide_eq_true_eq]
  constructor
  · rintro ⟨⟨k, hk, rfl⟩, he⟩
    rw [deactivate_expiresAt] at he
    exact ⟨k, hk, rfl, he⟩
  · rintro ⟨k, hk, rfl, he⟩
    rw [deactivate_expiresAt]
    exact ⟨⟨k, hk, rfl⟩, he⟩

lemma retire_retire (grace : ℕ) {now later : ℕ} (h : now ≤ later) (keys : List DnssecKey) :
    retire grace later (retire grace now keys) = retire grace later keys := by
  induction keys with
  | nil => rfl
  | cons key keys ih =>
    simp only [retire, map_cons, filter_cons, deactivate_expiresAt, decide_eq_true_eq] at ih ⊢
    by_cases hlate : later < key.expiresAt + grace * second
    · have hnow : now < key.expiresAt + grace * second := by omega
      simp only [hnow, if_true, map_cons, filter_cons, deactivate_expiresAt, hlate, decide_true,
        DnssecKey.deactivate_deactivate key h, ih]
    · split_ifs
      · simp only [map_cons, filter_cons, deactivate_expiresAt, hlate, decide_false, Bool.false_eq_true,
          if_false, ih]
      · exact ih

lemma retire_length (grace now : ℕ) (keys : List DnssecKey) :
    (retire grace now keys).length = keys.countP fun key => now < key.expiresAt + grace * second := by
  rw [retire, List.filter_map, List.length_map, List.countP_eq_length_filter]
  simp only [Function.comp_def, deactivate_expiresAt]

lemma retire_sublist (grace now : ℕ) (keys : List DnssecKey) {f : DnssecKey → ℕ} (hf : ∀ k, f (k.deactivate now) = f k) :
    ((retire grace now keys).map f).Sublist (keys.map f) := by
  have hmap : (keys.map (·.deactivate now)).map f = keys.map f := by simp [Function.comp_def, hf]
  rw [← hmap]
  exact filter_sublist.map f

/-- The keys after one whose removal time cannot be represented are kept, as are all whose removal lies in the future. -/
lemma retain_filter {now grace : ℕ} (hnow : now / second < 2 ^ 63)
    (horder : keys.Pairwise fun k k' => k.expiresAt ≤ k'.expiresAt) :
    (retain grace now keys).1 = keys.filter fun key => now < key.expiresAt + grace * second := by
  induction keys with
  | nil => rfl
  | cons key keys ih =>
    obtain ⟨hfirst, hrest⟩ := pairwise_cons.mp horder
    rw [retain]
    cases hadd : instantAdd key.expiresAt grace with
    | none =>
      have hkey : now < key.expiresAt + grace * second := by
        have hlarge : ¬ key.expiresAt / second + grace < 2 ^ 63 := by
          intro hlt
          rw [instantAdd, if_pos hlt] at hadd
          cases hadd
        rw [show second = 1000000000 from rfl] at *
        omega
      symm
      rw [filter_eq_self, forall_mem_cons]
      refine ⟨decide_eq_true hkey, fun k hk => decide_eq_true ?_⟩
      have := hfirst k hk
      omega
    | some removal =>
      obtain ⟨-, rfl⟩ := instantAdd_eq_some.mp hadd
      rw [filter_cons, ← ih hrest]
      simp only [decide_eq_true_eq]

lemma sweep_eq_retire {now : ℕ} (m : DnssecKeyManager) (hnow : now / second < 2 ^ 63)
    (horder : keys.Pairwise fun k k' => k.expiresAt ≤ k'.expiresAt) :
    (m.sweep now keys).1 = retire m.config.gracePeriod now keys := by
  refine retain_filter hnow (pairwise_map.mpr ?_)
  simpa only [deactivate_expiresAt] using horder

/-- The last time a list was gone through, with the keys issued up to then and since. -/
structure Epoch where
  rotatedAt : ℕ
  (before since : List DnssecKey)

def History := DnssecAlgorithm → Epoch

def History.record (h : History) (m : DnssecKeyManager) (op : Op) : History := fun a =>
  match op.sweptAt m a with
  | some now => ⟨now, (h a).before ++ (h a).since ++ ofAlgorithm a (op.issues m), []⟩
  | none => ⟨(h a).rotatedAt, (h a).before, (h a).since ++ ofAlgorithm a (op.issues m)⟩

structure Timely (config : DnssecConfig) (t t' : ℕ) (keys : List DnssecKey) : Prop where
  created : ∀ k ∈ keys, t ≤ k.metadata.createdAt ∧ k.metadata.createdAt ≤ t'
  expires : ∀ k ∈ keys, t + config.rotationInterval * second ≤ k.expiresAt ∧
    k.expiresAt ≤ t' + config.rotationInterval * second
  order : keys.Pairwise fun k k' => k.metadata.createdAt ≤ k'.metadata.createdAt ∧ k.expiresAt ≤ k'.expiresAt

variable {t : ℕ} {draw : KeyDraw} {config : DnssecConfig} {env : Option EnvKey} {op : Op}

section

variable {t' t'' : ℕ} {keys' : List DnssecKey} {ts ts' : List ℕ}

lemma timely_nil (config : DnssecConfig) (t t' : ℕ) : Timely config t t' [] := ⟨by simp, by simp, .nil⟩

lemma Timely.append (h : Timely config t t' keys) (h' : Timely config t' t'' keys') (ht : t ≤ t') (ht' : t' ≤ t'') :
    Timely config t t'' (keys ++ keys') where
  created k hk := by
    rcases mem_append.mp hk with hk | hk
    · have := h.created k hk
      omega
    · have := h'.created k hk
      omega
  expires k hk := by
    rcases mem_append.mp hk with hk | hk
    · have := h.expires k hk
      omega
    · have := h'.expires k hk
      omega
  order := by
    refine pairwise_append.mpr ⟨h.order, h'.order, ?_⟩
    intro k hk k' hk'
    exact ⟨(h.created k hk).2.trans (h'.created k' hk').1, (h.expires k hk).2.trans (h'.expires k' hk').1⟩

lemma Timely.later (h : Timely config t t' keys) (ht : t' ≤ t'') : Timely config t t'' keys where
  created k hk := ⟨(h.created k hk).1, (h.created k hk).2.trans ht⟩
  expires k hk := ⟨(h.expires k hk).1, (h.expires k hk).2.trans (by omega)⟩
  order := h.order

lemma advance_append : advance t (ts ++ ts') = some t'' ↔ ∃ t', advance t ts = some t' ∧ advance t' ts' = some t'' := by
  induction ts generalizing t with
  | nil => simp [advance]
  | cons u ts ih =>
    rw [cons_append, advance_cons, ih]
    simp only [advance_cons, and_assoc, exists_and_left]

lemma key_timely {key : DnssecKey} {from' : ℕ} (hc : t ≤ key.metadata.createdAt ∧ key.metadata.createdAt ≤ t')
    (hfrom : t ≤ from' ∧ from' ≤ t') (he : instantAdd from' config.rotationInterval = some key.expiresAt) :
    Timely config t t' [key] := by
  have hexpires := (instantAdd_eq_some.mp he).2
  refine ⟨by simpa using hc, ?_, pairwise_singleton _ _⟩
  rw [forall_mem_singleton]
  omega

lemma keys_timely (config : DnssecConfig) (a : DnssecAlgorithm) (h : advance t draw.times = some t') :
    Timely config t t' (draw.keys config a) := by
  simp only [KeyDraw.times, advance_cons, advance_nil] at h
  rw [KeyDraw.keys]
  cases draw.bytes with
  | error => exact timely_nil config t t'
  | ok bytes =>
    dsimp only
    cases hk : draw.key config a bytes with
    | none => exact timely_nil config t t'
    | some =>
      obtain ⟨e, he, rfl⟩ := map_eq_some_iff.mp hk
      exact key_timely (by dsimp only; omega) (by omega) he

lemma drawn_timely {rotation : Rotation} (config : DnssecConfig) {l : List DnssecAlgorithm}
    (h : advance t (l.flatMap fun a => (rotation.draws a).times) = some t') :
    Timely config t t' (rotation.drawn config l) := by
  induction l generalizing t with
  | nil => exact timely_nil config t t'
  | cons a l ih =>
    rw [flatMap_cons, advance_append] at h
    obtain ⟨u, ha, hl⟩ := h
    rw [Rotation.drawn]
    split_ifs
    · exact timely_nil config t t'
    · exact (keys_timely config a ha).append (ih hl) (advance_bounds ha).1 (advance_bounds hl).1

lemma rotation_timely {rotation : Rotation} (m : DnssecKeyManager) (h : advance t rotation.times = some t') :
    Timely m.config t t' (rotation.keys m) := by
  have htimes : rotation.times = algorithms.flatMap (fun a => (rotation.draws a).times) ++
      [rotation.deactivatedAt, rotation.rotatedAt] := by simp [Rotation.times, algorithms]
  rw [htimes, advance_append] at h
  obtain ⟨u, hdraws, hend⟩ := h
  rw [Rotation.keys]
  split_ifs
  · exact timely_nil m.config t t'
  · exact (drawn_timely m.config hdraws).later (advance_bounds hend).1

lemma issues_timely (m : DnssecKeyManager) (h : advance t op.times = some t') :
    Timely m.config t t' (op.issues m) := by
  cases op with
  | generateKey a =>
    rw [Op.issues]
    split_ifs
    · exact timely_nil m.config t t'
    · exact keys_timely m.config a h
  | rotateKeys => exact rotation_timely m h
  | checkAndRotateKeys readAt =>
    rw [Op.times, advance_cons] at h
    simp only [Op.issues, Op.rotation]
    split_ifs
    · exact (timely_nil m.config t readAt).append (rotation_timely m h.2) h.1.1 (advance_bounds h.2).1
    · exact timely_nil m.config t t'
  | sign | rrsigRecord | validateRrsig => exact timely_nil m.config t t'

lemma initialKeys_timely (h : advance t (draw.times ++ (env.map EnvKey.times).getD []) = some t') :
    Timely config t t' (Signer.initialKeys config draw env) := by
  obtain ⟨u, hdraw, henv⟩ := advance_append.mp h
  refine (keys_timely config config.defaultAlgorithm hdraw).append ?_ (advance_bounds hdraw).1 (advance_bounds henv).1
  cases env with
  | none => exact timely_nil config u t'
  | some env =>
    simp only [map_some, getD_some, EnvKey.times, advance_cons, advance_nil] at henv
    rw [bind_some]
    cases hk : env.key config with
    | none => exact timely_nil config u t'
    | some =>
      obtain ⟨e, he, rfl⟩ := map_eq_some_iff.mp hk
      exact key_timely (by dsimp only; omega) (by omega) he

end

variable {hmac : Bytes → Bytes → Bytes}

namespace Signer

variable {s s' : Signer} {a : DnssecAlgorithm} {k : DnssecKey} {rotation : Rotation} {h h' : History}

/-- Each list is what the last rotation that went through it left of the keys before, followed by the keys since. -/
structure Filed (h : History) (s : Signer) : Prop where
  issued : ∀ a, ofAlgorithm a s.issued = (h a).before ++ (h a).since
  timely : Timely s.manager.config 0 s.clock s.issued
  clock : ∀ a, (h a).rotatedAt ≤ s.clock
  since : ∀ a, ∀ k ∈ (h a).since, (h a).rotatedAt ≤ k.expiresAt
  keys : ∀ a, s.manager.keysOf a =
    retire s.manager.config.gracePeriod (h a).rotatedAt (h a).before ++ (h a).since

lemma filed_sorted {before since : List DnssecKey} {f : DnssecKey → ℕ} {grace now : ℕ}
    (hf : ∀ k, f (k.deactivate now) = f k) (horder : (before ++ since).Pairwise fun k k' => f k ≤ f k') :
    (retire grace now before ++ since).Pairwise fun k k' => f k ≤ f k' := by
  have hsub : ((retire grace now before ++ since).map f).Sublist ((before ++ since).map f) := by
    rw [map_append, map_append]
    exact (retire_sublist grace now before hf).append (.refl _)
  exact pairwise_map.mp ((pairwise_map.mpr horder).sublist hsub)

lemma filed_step (hf : Filed h s) (hstep : step hmac s op = some s') : Filed (h.record s.manager op) s' := by
  obtain ⟨clock, hc, rfl⟩ := map_eq_some_iff.mp hstep
  have hle := (advance_bounds hc).1
  have hissues := issues_timely s.manager hc
  have htimely : Timely s.manager.config 0 clock (s.issued ++ op.issues s.manager) :=
    hf.timely.append hissues (Nat.zero_le _) hle
  have hlists (a : DnssecAlgorithm) : ofAlgorithm a (s.issued ++ op.issues s.manager) =
      (h a).before ++ ((h a).since ++ ofAlgorithm a (op.issues s.manager)) := by
    rw [ofAlgorithm_append, hf.issued, append_assoc]
  refine ⟨fun a => ?_, by simpa only [run_config] using htimely, fun a => ?_, fun a k hk => ?_, fun a => ?_⟩
  · rw [History.record]
    cases op.sweptAt s.manager a <;> simp only [hlists, append_assoc, append_nil]
  · have := hf.clock a
    rw [History.record]
    cases hs : op.sweptAt s.manager a with
    | none => exact this.trans hle
    | some => exact (sweptAt_times hs hc).2.1
  · rw [History.record] at hk ⊢
    cases hs : op.sweptAt s.manager a with
    | some => simp [hs] at hk
    | none =>
      simp only [hs, mem_append] at hk
      rcases hk with hk | hk
      · exact hf.since a k hk
      · exact (hf.clock a).trans (by have := hissues.expires k (mem_of_mem_filter hk); omega)
  · simp only [run_keysOf, run_config, hf.keys a, append_assoc]
    rw [History.record]
    cases hs : op.sweptAt s.manager a with
    | none => rfl
    | some now =>
      obtain ⟨h0, -, hnow⟩ := sweptAt_times hs hc
      have horder : (ofAlgorithm a (s.issued ++ op.issues s.manager)).Pairwise
          fun k k' => k.expiresAt ≤ k'.expiresAt := (htimely.order.imp And.right).filter _
      rw [hlists] at horder
      change (s.manager.sweep now _).1 = _
      rw [sweep_eq_retire s.manager hnow (filed_sorted (fun k => deactivate_expiresAt k _) horder), retire_append,
        retire_retire _ ((hf.clock a).trans h0), ← retire_append, append_assoc, append_nil]

lemma record_later (hf : Filed h s) (hstep : step hmac s op = some s') (a : DnssecAlgorithm) :
    (h a).rotatedAt ≤ (h.record s.manager op a).rotatedAt := by
  obtain ⟨clock, hc, -⟩ := map_eq_some_iff.mp hstep
  rw [History.record]
  cases hs : op.sweptAt s.manager a with
  | none => exact le_rfl
  | some => exact (hf.clock a).trans (sweptAt_times hs hc).1

lemma filed_new (hnew : new config t draw env = some s) : Filed (fun a => ⟨0, [], ofAlgorithm a s.issued⟩) s := by
  obtain ⟨hgrows, -, hissued, hclock⟩ := new_spec hnew
  refine ⟨fun _ => rfl, ?_, fun _ => Nat.zero_le _, fun _ _ _ => Nat.zero_le _, hgrows.keys⟩
  rw [hgrows.config, hissued]
  exact (timely_nil config 0 t).append (initialKeys_timely hclock) (Nat.zero_le _) (advance_bounds hclock).1

lemma filed_later (hf : Filed h s) (hrun : Reach (step hmac) Free s s') :
    ∃ h', Filed h' s' ∧ ∀ a, (h a).rotatedAt ≤ (h' a).rotatedAt := by
  induction hrun with
  | refl => exact ⟨h, hf, fun _ => le_rfl⟩
  | tail _ _ hstep ih =>
    obtain ⟨h', hf', hle⟩ := ih
    exact ⟨_, filed_step hf' hstep, fun a => (hle a).trans (record_later hf' hstep a)⟩

lemma kept_later (hkept : Kept config s) (hrun : Reach (step hmac) Free s s') : Kept config s' :=
  hrun.invariant (fun _ _ => trivial) hkept fun _ _ _ _ hk _ hstep => kept_step hk hstep

lemma filed_mem (hf : Filed h s) (hk : k ∈ s.issued)
    (he : s.clock < k.expiresAt + s.manager.config.gracePeriod * second) :
    ∃ now ≤ s.clock, k.deactivate now ∈ s.manager.keysOf k.metadata.algorithm := by
  have hself : k ∈ ofAlgorithm k.metadata.algorithm s.issued := mem_filter.mpr ⟨hk, decide_eq_true rfl⟩
  have hclock := hf.clock k.metadata.algorithm
  rw [hf.issued] at hself
  rw [hf.keys]
  rcases mem_append.mp hself with hk | hk
  · exact ⟨_, hclock, mem_append_left _ (mem_retire.mpr ⟨k, hk, rfl, by omega⟩)⟩
  · exact ⟨_, hclock, mem_append_right _ (by rwa [deactivate_live (hf.since _ k hk)])⟩

/-- A key of the list as it was issued, with what the last rotation made of it. -/
lemma filed_origin (hf : Filed h s) (hk : k ∈ s.manager.keysOf a) : ∃ k0 ∈ ofAlgorithm a s.issued,
    k0.deactivate (h a).rotatedAt = k ∧
      (k ∈ (h a).since ∨ (h a).rotatedAt < k.expiresAt + s.manager.config.gracePeriod * second) := by
  rw [hf.keys] at hk
  rw [hf.issued]
  rcases mem_append.mp hk with hk | hk
  · obtain ⟨k0, hk0, rfl, he⟩ := mem_retire.mp hk
    exact ⟨k0, mem_append_left _ hk0, rfl, .inr (by rwa [deactivate_expiresAt])⟩
  · exact ⟨k, mem_append_right _ hk, deactivate_live (hf.since a k hk), .inl hk⟩

lemma filed_inactive (hf : Filed h s) (hkept : Kept config s) (hk : k ∈ s.manager.keysOf a) :
    k.metadata.algorithm = a ∧ (k.metadata.isActive = false ↔ k.expiresAt < (h a).rotatedAt) := by
  obtain ⟨k0, hk0, rfl, -⟩ := filed_origin hf hk
  obtain ⟨hissued, ha⟩ := mem_filter.mp hk0
  rw [(k0.deactivate_metadata _).2, DnssecKey.deactivate_inactive (hkept.active k0 hissued), deactivate_expiresAt]
  exact ⟨of_decide_eq_true ha, Iff.rfl⟩

theorem key_lifecycle {draw : KeyDraw} {env : Option EnvKey} {s0 : Signer} (hnew : new config t draw env = some s0)
    (hrun : Reach (step hmac) Free s0 s) :
    (∀ now, s.clock ≤ now → ∀ k ∈ s.issued,
      (now < k.expiresAt → k ∈ s.manager.keysOf k.metadata.algorithm ∧ k.metadata.isActive = true) ∧
      (now < k.expiresAt + config.gracePeriod * second →
        ∃ k' ∈ s.manager.keysOf k.metadata.algorithm, k'.enabled = k)) ∧
    (∀ op rotation s', op.rotation s.manager = some rotation → (s.manager.rotateKeys rotation).1 = some (.ok ()) →
      step hmac s op = some s' → ∀ a, ∀ k ∈ s'.manager.keysOf a,
      rotation.deactivatedAt < k.expiresAt + config.gracePeriod * second ∧
      (k.expiresAt < rotation.deactivatedAt → k.metadata.isActive = false)) ∧
    (∀ s', Reach (step hmac) Free s s' → ∀ a, ∀ k ∈ s.manager.keysOf a, k.metadata.isActive = false →
      ∀ b, ∀ k' ∈ s'.manager.keysOf b, k'.enabled = k.enabled → k'.metadata.isActive = false) ∧
    ∀ a, (s.manager.keysOf a).Pairwise fun k k' => k.metadata.createdAt ≤ k'.metadata.createdAt := by
  have hkept := kept_reach hnew hrun
  obtain ⟨h, hf, -⟩ := filed_later (filed_new hnew) hrun
  have hconfig := hkept.config_eq
  refine ⟨?_, ?_, ?_, ?_⟩
  · intro now hnow k hk
    have hactive := hkept.active k hk
    refine ⟨fun he => ⟨?_, hactive⟩, fun he => ?_⟩
    · obtain ⟨u, hu, hmem⟩ := filed_mem hf hk (by omega)
      rwa [deactivate_live (by omega)] at hmem
    · rw [← hconfig] at he
      obtain ⟨u, hu, hmem⟩ := filed_mem hf hk (by omega)
      exact ⟨_, hmem, (k.enabled_deactivate _).trans (DnssecKey.enabled_of_active hactive)⟩
  · intro op rotation s' hrot hok hstep a k hk
    have hkept' := kept_step hkept hstep
    have hf' := filed_step hf hstep
    have hswept : op.sweptAt s.manager a = some rotation.deactivatedAt := by
      rw [Op.sweptAt, hrot, bind_some, ((rotateKeys_ok hok).2.2.2 a).1]
    obtain ⟨-, -, -, hdrop⟩ := filed_origin hf' hk
    have hinactive := (filed_inactive hf' hkept' hk).2
    simp only [History.record, hswept, hkept'.config_eq, not_mem_nil, false_or] at hdrop hinactive
    exact ⟨hdrop, hinactive.mpr⟩
  · intro s' hrun' a k hk hinactive b k' hk' hsame
    obtain ⟨h', hf', hle⟩ := filed_later hf hrun'
    obtain ⟨ha, hk⟩ := filed_inactive hf hkept hk
    obtain ⟨hb, hk'⟩ := filed_inactive hf' (kept_later hkept hrun') hk'
    have hab : b = a := by
      rw [← ha, ← hb]
      exact congrArg (fun key => key.metadata.algorithm) hsame
    have hexpires : k'.expiresAt = k.expiresAt := by
      rw [← k'.enabled_expiresAt, hsame, k.enabled_expiresAt]
    subst hab
    have := hk.mp hinactive
    have := hle b
    rw [hk', hexpires]
    omega
  · intro a
    have horder : (ofAlgorithm a s.issued).Pairwise fun k k' => k.metadata.createdAt ≤ k'.metadata.createdAt :=
      (hf.timely.order.imp And.left).filter _
    rw [hf.issued] at horder
    rw [hf.keys]
    exact filed_sorted (fun k => (k.deactivate_metadata _).1) horder

theorem key_lifecycle_rotation : ∃ s0 s, Signer.new Schedule.config 0 (Schedule.draw 1000 1) none = some s0 ∧
    Reach (step Schedule.join) Free s0 s ∧
    (s.manager.keysOf .rsaSha256).map (fun k => (k.tag, k.metadata.isActive)) = [(1, false), (3, true)] ∧
    ∀ s', Reach (step Schedule.join) Free s s' → ∀ a, ∀ k ∈ s.manager.keysOf a, k.metadata.isActive = false →
      ∀ b, ∀ k' ∈ s'.manager.keysOf b, k'.enabled = k.enabled → k'.metadata.isActive = false := by
  have hcheck : (Schedule.booted.any fun s0 =>
      (runs (step Schedule.join) Free s0 [.rotateKeys (Schedule.rotationAt 606000 2)]).any fun s =>
        (s.manager.keysOf .rsaSha256).map (fun k => (k.tag, k.metadata.isActive)) = [(1, false), (3, true)]) = true := by
    decide +kernel
  rw [Option.any_eq_true] at hcheck
  obtain ⟨s0, hnew, hcheck⟩ := hcheck
  obtain ⟨s, hrun, hkeys⟩ := reach_of_check _ _ _ _ _ hcheck
  exact ⟨s0, s, hnew, hrun, of_decide_eq_true hkeys, (key_lifecycle hnew hrun).2.2.1⟩

end Signer

open Signer

structure Tracked where
  signer : Signer
  history : History

def History.remaining (h : History) (config : DnssecConfig) (a : DnssecAlgorithm) : ℕ :=
  (h a).before.countP (fun key => (h a).rotatedAt < key.expiresAt + config.gracePeriod * second) + (h a).since.length

namespace Tracked

def start (s : Signer) : Tracked := ⟨s, fun a => ⟨0, [], ofAlgorithm a s.issued⟩⟩

def step (hmac : Bytes → Bytes → Bytes) (x : Tracked) (op : Op) : Option Tracked :=
  (x.signer.step hmac op).map fun s => ⟨s, x.history.record x.signer.manager op⟩

/-- The call and those before it generate keys no faster than `max_keys` allows. -/
def Sparse (x : Tracked) (op : Op) : Prop :=
  ∀ a, (x.history.record x.signer.manager op).remaining x.signer.manager.config a ≤ x.signer.manager.config.maxKeys

def Bounded (x : Tracked) : Prop := ∀ a, (x.signer.manager.keysOf a).length ≤ x.signer.manager.config.maxKeys

variable {x x' : Tracked} {s0 : Signer} {G : Tracked → Op → Prop}

structure Followed (config : DnssecConfig) (x : Tracked) : Prop where
  kept : Kept config x.signer
  filed : Filed x.history x.signer

lemma followed_step (hx : Followed config x) (hstep : x.step hmac op = some x') : Followed config x' := by
  obtain ⟨s', hs', rfl⟩ := map_eq_some_iff.mp hstep
  exact ⟨kept_step hx.kept hs', filed_step hx.filed hs'⟩

lemma followed_reach (hnew : Signer.new config t draw env = some s0) (hrun : Reach (step hmac) G (start s0) x) :
    Followed config x := by
  apply hrun.invariant (fun _ _ => trivial) ⟨kept_new hnew, filed_new hnew⟩
  intro x op x' _ hx _ hstep
  exact followed_step hx hstep

lemma length_keysOf (hx : Followed config x) (a : DnssecAlgorithm) :
    (x.signer.manager.keysOf a).length = x.history.remaining x.signer.manager.config a := by
  rw [hx.filed.keys, length_append, retire_length, History.remaining]

lemma bounded_iff_sparse (hx : Followed config x) (hstep : x.step hmac op = some x') : Bounded x' ↔ Sparse x op := by
  have hx' := followed_step hx hstep
  have hconfig : x'.signer.manager.config = x.signer.manager.config :=
    hx'.kept.config_eq.trans hx.kept.config_eq.symm
  have hhistory : x'.history = x.history.record x.signer.manager op := by
    obtain ⟨s', -, rfl⟩ := map_eq_some_iff.mp hstep
    rfl
  simp only [Bounded, Sparse, length_keysOf hx', hconfig, hhistory]

theorem keys_bounded (hnew : Signer.new config t draw env = some s0) (hstart : Bounded (start s0))
    (hrun : Reach (step hmac) Sparse (start s0) x) :
    (∀ a, (x.signer.manager.keysOf a).length ≤ config.maxKeys) ∧
    ∀ op x', x.step hmac op = some x' →
      ((∀ a, (x'.signer.manager.keysOf a).length ≤ config.maxKeys) ↔ Sparse x op) := by
  have hx := followed_reach hnew hrun
  have hbounded : Bounded x := by
    cases hrun with
    | refl => exact hstart
    | tail hrun' hsparse hstep => exact (bounded_iff_sparse (followed_reach hnew hrun') hstep).mpr hsparse
  refine ⟨?_, ?_⟩
  · rw [← hx.kept.config_eq]
    exact hbounded
  · intro op x' hstep
    rw [← bounded_iff_sparse hx hstep, Bounded, (followed_step hx hstep).kept.config_eq]

lemma forall_algorithm {p : DnssecAlgorithm → Prop} : (∀ a, p a) ↔ p .hmacSha256 ∧ p .rsaSha256 ∧ p .ecdsaP256Sha256 := by
  constructor
  · intro h
    exact ⟨h _, h _, h _⟩
  · rintro ⟨h1, h2, h3⟩ (_ | _ | _)
    · exact h1
    · exact h2
    · exact h3

instance (x : Tracked) : Decidable (Bounded x) := decidable_of_iff' _ forall_algorithm

instance (x : Tracked) (op : Op) : Decidable (Sparse x op) := decidable_of_iff' _ forall_algorithm

theorem keys_bounded_weekly : ∃ s0 x, Signer.new Schedule.config 0 (Schedule.draw 1000 1) none = some s0 ∧
    Reach (step Schedule.join) Sparse (start s0) x ∧ (x.signer.manager.keysOf .rsaSha256).length = 3 ∧
    ∀ a, (x.signer.manager.keysOf a).length ≤ 10 := by
  have hcheck : (Schedule.booted.any fun s0 => Bounded (start s0) && (runs (step Schedule.join) Sparse (start s0)
      [.rotateKeys (Schedule.rotationAt 2000 2), .rotateKeys (Schedule.rotationAt 606900 5)]).any fun x =>
        (x.signer.manager.keysOf .rsaSha256).length = 3) = true := by
    decide +kernel
  rw [Option.any_eq_true] at hcheck
  obtain ⟨s0, hnew, hcheck⟩ := hcheck
  rw [Bool.and_eq_true, decide_eq_true_eq] at hcheck
  obtain ⟨x, hrun, hlength⟩ := reach_of_check _ _ _ _ _ hcheck.2
  exact ⟨s0, x, hnew, hrun, of_decide_eq_true hlength, (keys_bounded hnew hcheck.1 hrun).1⟩

theorem keys_unbounded : Schedule.config.maxKeys = 10 ∧ ∃ s0 x,
    Signer.new Schedule.config 0 (Schedule.draw 1000 1) none = some s0 ∧ Bounded (start s0) ∧
    Reach (step Schedule.join) Free (start s0) x ∧ (x.signer.manager.keysOf .rsaSha256).length = 11 := by
  have hcheck : (Schedule.booted.any fun s0 => Bounded (start s0) && (runs (step Schedule.join) Free (start s0)
      ((List.range 10).map fun n => .rotateKeys (Schedule.rotationAt (1001 + n) (2 + 3 * n)))).any fun x =>
        (x.signer.manager.keysOf .rsaSha256).length = 11) = true := by
    decide +kernel
  rw [Option.any_eq_true] at hcheck
  obtain ⟨s0, hnew, hcheck⟩ := hcheck
  rw [Bool.and_eq_true, decide_eq_true_eq] at hcheck
  obtain ⟨x, hrun, hlength⟩ := reach_of_check _ _ _ _ _ hcheck.2
  exact ⟨rfl, s0, x, hnew, hcheck.1, hrun, of_decide_eq_true hlength⟩

end Tracked

end FleetingDns.Dnssec
