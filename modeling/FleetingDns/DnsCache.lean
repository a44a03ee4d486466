import FleetingDns.DnsServer
import FleetingDns.Library.Tables
import FleetingDns.Library.TextFields
namespace FleetingDns.Dns

open CommandPrograms ThreadPool ServerPool GuardedRuns ExpiringStore Panics List Option AList

variable {Packet : Type} {handler : DnsHandler Packet}

lemma generateCacheKey_inj {packet packet' : Packet} :
    handler.generateCacheKey packet = handler.generateCacheKey packet' ↔
      handler.defaultHasher packet = handler.defaultHasher packet' := by
  unfold DnsHandler.generateCacheKey
  rw [String.append_right_inj, TextFields.repr_inj, Fin.val_inj]

lemma instantAdd_eq {now secs n : ℕ} (h : instantAdd now secs = some n) : n = now + secs * second := by
  unfold instantAdd at h
  split_ifs at h
  exact (Option.some.inj h).symm

variable {w w' : DnsPool Packet} {a : DnsAct Packet} {response : Packet}

section

def Source (handler : DnsHandler Packet) (ts : List (DnsThread Packet)) (key : String) (response : Packet) (n : ℕ) :
    Prop :=
  ∃ (tid : ℕ) (u : DnsThread Packet) (t : Span (DnsState Packet)), ts[tid]? = some u ∧
    key = handler.generateCacheKey u.call ∧ Computed handler u.call u.history response ∧
    (⟨t, .instantNow, n⟩ : Ev Packet) ∈ u.history

structure Sourced (handler : DnsHandler Packet) (w : DnsPool Packet) : Prop where
  entry : ∀ key entry, w.shared.cache.lookup key = some entry → ∃ n, n ≤ w.shared.now ∧
    entry.expiresAt = n + handler.cacheTtl * second ∧ Source handler w.threads key entry.response n
  hit : ∀ (tid : ℕ) (th : DnsThread Packet) t key response, w.threads[tid]? = some th →
    (⟨t, .getCached key, some response⟩ : Ev Packet) ∈ th.history → ∃ n, n ≤ t.before.now ∧
      t.before.now < n + handler.cacheTtl * second ∧ Source handler w.threads key response n

variable {key : String} {n : ℕ}

lemma Source.step (hs : Source handler w.threads key response n) (h : step (dnsServer handler) w a = some w') :
    Source handler w'.threads key response n := by
  obtain ⟨tid, u, t, hu, hkey, hc, hn⟩ := hs
  obtain ⟨u', hu', hcall, hhistory⟩ := thread_kept h hu
  refine ⟨tid, u', t, hu', ?_, ?_, hhistory.subset hn⟩
  · rw [hcall]
    exact hkey
  · rw [hcall]
    exact hc.mono hhistory.subset

lemma source_of_insertion {tid : ℕ} {th : DnsThread Packet} {expiresAt : ℕ}
    (hk : Keeps (May handler) (Ends handler) w.threads) (hi : Issues w tid th (.insertCached key response expiresAt)) :
    ∃ n, expiresAt = n + handler.cacheTtl * second ∧ Source handler w.threads key response n ∧
      ∃ t, ⟨t, .instantNow, n⟩ ∈ th.history := by
  obtain ⟨hkey, hc, t, n, hn, hadd⟩ := hk.may hi
  exact ⟨n, instantAdd_eq hadd, ⟨tid, th, t, hi.1, hkey, hc, hn⟩, t, hn⟩

lemma reach_sourced {G : DnsPool Packet → DnsAct Packet → Prop} {now : ℕ}
    (hw : Reach (step (dnsServer handler)) G (start Packet now) w) : Sourced handler w := by
  induction hw with
  | refl =>
    constructor
    · intro key entry hl
      cases hl
    · intro tid th t key response hth
      cases hth
  | @tail w w' a hr _ hstep ih =>
    constructor
    · intro key entry hl
      obtain hold | ⟨tid, o, th, -, hi⟩ := cache_step hstep hl
      · obtain ⟨n, hle, hexp, hs⟩ := ih.entry key entry hold
        exact ⟨n, hle.trans (now_step hstep), hexp, hs.step hstep⟩
      · obtain ⟨n, hexp, hs, t, hn⟩ := source_of_insertion (reach_obeys hr) hi
        exact ⟨n, (instant_le hr hi.1 hn).trans (now_step hstep), hexp, hs.step hstep⟩
    intro tid th' t key response hth he
    obtain ⟨th, hold, he⟩ | ⟨expiresAt, hbefore, hl, hlt⟩ := hit_step hstep hth he
    · obtain ⟨n, hle, hlt, hs⟩ := ih.hit tid th t key response hold he
      exact ⟨n, hle, hlt, hs.step hstep⟩
    · obtain ⟨n, hle, hexp, hs⟩ := ih.entry key ⟨response, expiresAt⟩ hl
      subst hexp
      rw [hbefore]
      exact ⟨n, hle, hlt, hs.step hstep⟩

end

variable {now : ℕ}

section

variable [DecidableEq Packet]

/-- The step neither brings in a packet without a question or with the key of another packet, nor fails in Redis. -/
def undisturbed (handler : DnsHandler Packet) (w : DnsPool Packet) : DnsAct Packet → Bool
  | .arrive packet => (handler.question packet).isSome && w.threads.all fun th =>
    handler.defaultHasher th.call != handler.defaultHasher packet || th.call == packet
  | .exec _ (.connection (.error _)) | .exec _ (.read (.error _)) => false
  | _ => true

def Steady (handler : DnsHandler Packet) (w : DnsPool Packet) (a : DnsAct Packet) : Prop :=
  handler.cacheTtl = 0 ∨ undisturbed handler w a = true

instance (w : DnsPool Packet) (a : DnsAct Packet) : Decidable (Steady handler w a) := inferInstanceAs (Decidable (_ ∨ _))

lemma steady_arrive {packet : Packet} (hlong : handler.cacheTtl ≠ 0) (hg : Steady handler w (.arrive packet)) :
    (handler.question packet).isSome = true ∧
      ∀ (tid : ℕ) th, w.threads[tid]? = some th → handler.defaultHasher th.call = handler.defaultHasher packet →
        th.call = packet := by
  have hu := hg.resolve_left hlong
  simp only [undisturbed, Bool.and_eq_true, List.all_eq_true, Bool.or_eq_true, bne_iff_ne, beq_iff_eq] at hu
  refine ⟨hu.1, fun tid th hth heq => ?_⟩
  exact (hu.2 th (List.mem_of_getElem? hth)).resolve_left (fun hne => hne heq)

variable {tid : ℕ} {th : DnsThread Packet}

section

variable (hlong : handler.cacheTtl ≠ 0) (hw : Reach (step (dnsServer handler)) (Steady handler) (start Packet now) w)
  (hth : w.threads[tid]? = some th)

include hlong hw hth

lemma reach_asks : (handler.question th.call).isSome = true := by
  refine reach_calls (P := fun packet => (handler.question packet).isSome = true) ?_ hw hth
  intro w packet hg
  exact (steady_arrive hlong hg).1

lemma reach_collisionless {uid : ℕ} {u : DnsThread Packet} (hu : w.threads[uid]? = some u)
    (heq : handler.defaultHasher th.call = handler.defaultHasher u.call) : th.call = u.call := by
  induction hw generalizing tid uid th u with
  | refl => cases hth
  | tail _ hg hstep ih =>
    obtain ⟨th0, hth0, hcall⟩ | ⟨rfl, htid⟩ := call_step hstep hth
    · obtain ⟨u0, hu0, hcall'⟩ | ⟨rfl, -⟩ := call_step hstep hu
      · rw [← hcall, ← hcall'] at heq ⊢
        exact ih hth0 hu0 heq
      · rw [← hcall] at heq ⊢
        exact (steady_arrive hlong hg).2 tid th0 hth0 heq
    · obtain ⟨u0, hu0, hcall'⟩ | ⟨-, huid⟩ := call_step hstep hu
      · rw [← hcall'] at heq ⊢
        exact ((steady_arrive hlong hg).2 uid u0 hu0 heq.symm).symm
      · rw [htid, ← huid] at hth
        rw [mem_unique hth hu]

end

def Failed (h : List (Ev Packet)) : Prop :=
  ∃ t e, (⟨t, .getConnection, .error e⟩ : Ev Packet) ∈ h ∨ ∃ key, (⟨t, .redisGet key, .error e⟩ : Ev Packet) ∈ h

lemma reach_unfailed (hlong : handler.cacheTtl ≠ 0)
    (hw : Reach (step (dnsServer handler)) (Steady handler) (start Packet now) w) (hth : w.threads[tid]? = some th) :
    ¬ Failed th.history := by
  induction hw generalizing th with
  | refl => cases hth
  | tail _ hg hstep ih =>
    rintro ⟨t, e, he | ⟨key, he⟩⟩
    · obtain ⟨th0, hold, -, he⟩ | ⟨o, th0, rfl, -, -, -, -, hperf⟩ := event_step hstep hth he
      · exact ih hold ⟨t, e, .inl he⟩
      · obtain rfl := perform_getConnection hperf
        cases hg.resolve_left hlong
    · obtain ⟨th0, hold, -, he⟩ | ⟨o, th0, rfl, -, -, -, -, hperf⟩ := event_step hstep hth he
      · exact ih hold ⟨t, e, .inr ⟨key, he⟩⟩
      · obtain rfl := perform_redisGet hperf
        cases hg.resolve_left hlong

end

def Redis.answering (slot : Option String) : Redis := ⟨.ok (), fun _ => .ok slot⟩

def ReadAndComputed (handler : DnsHandler Packet) (u : DnsThread Packet) (response : Packet) : Prop :=
  ∃ t t' key slot, (⟨t, .getConnection, .ok ()⟩ : Ev Packet) ∈ u.history ∧
    (⟨t', .redisGet key, .ok slot⟩ : Ev Packet) ∈ u.history ∧
    (handler.processDnsQuery u.call).answer (Redis.answering slot).reply = some (.ok response)

variable {u : DnsThread Packet}

lemma readAndComputed_of_unfailed (hasks : (handler.question u.call).isSome = true)
    (hc : Computed handler u.call u.history response) (hf : ¬ Failed u.history) :
    ReadAndComputed handler u response := by
  obtain ⟨⟨message, query⟩, hq⟩ := isSome_iff_exists.mp hasks
  rw [Computed, hq] at hc
  obtain ⟨slot, hl, rfl⟩ := hc
  cases hl with
  | @found t t' _ connection read =>
    refine ⟨t, t', _, slot, connection, read, ?_⟩
    rw [Redis.processDnsQuery_answer _ hq]
    rfl
  | unread read => exact absurd ⟨_, _, .inr ⟨_, read⟩⟩ hf
  | unreachable connection => exact absurd ⟨_, _, .inl connection⟩ hf

lemma insertion_expired {G : DnsPool Packet → DnsAct Packet → Prop} {w : DnsPool Packet} {now tid expiresAt : ℕ}
    {t : Span (DnsState Packet)} {key : String} (hzero : handler.cacheTtl = 0)
    (hw : Reach (step (dnsServer handler)) G (start Packet now) w) (hu : w.threads[tid]? = some u)
    (he : ⟨t, .insertCached key response expiresAt, ()⟩ ∈ u.history) : expiresAt ≤ w.shared.now := by
  obtain ⟨h1, h2, heq⟩ := append_of_mem he
  obtain ⟨-, -, t', n, hn, hadd⟩ := (reach_obeys hw tid u hu).1 h1 _ h2 heq
  have hexp := instantAdd_eq hadd
  rw [hzero] at hexp
  rw [hexp]
  exact instant_le hw hu (heq ▸ mem_append_left _ hn)

theorem cached_answers_sound [DecidableEq Packet] (handler : DnsHandler Packet) (now : ℕ) {w : DnsPool Packet}
    (hw : Reach (step (dnsServer handler)) (Steady handler) (start Packet now) w) :
    (∀ (tid : ℕ) (th : DnsThread Packet) t key response, w.threads[tid]? = some th →
      (⟨t, .getCached key, some response⟩ : Ev Packet) ∈ th.history →
      ∃ (uid : ℕ) (u : DnsThread Packet) (t' : Span (DnsState Packet)) (n : ℕ), w.threads[uid]? = some u ∧
        u.call = th.call ∧ ReadAndComputed handler u response ∧ (⟨t', .instantNow, n⟩ : Ev Packet) ∈ u.history ∧
        n ≤ t.before.now ∧ t.before.now < n + handler.cacheTtl * second) ∧
    ∀ (tid : ℕ) (u : DnsThread Packet), w.threads[tid]? = some u → Failed u.history →
      ∀ t key response expiresAt, (⟨t, .insertCached key response expiresAt, ()⟩ : Ev Packet) ∈ u.history →
        expiresAt ≤ w.shared.now := by
  by_cases hzero : handler.cacheTtl = 0
  · constructor
    · intro tid th t key response hth he
      obtain ⟨n, hle, hlt, -⟩ := (reach_sourced hw).hit tid th t key response hth he
      rw [hzero] at hlt
      omega
    · intro tid u hu _ t key response expiresAt he
      exact insertion_expired hzero hw hu he
  · constructor
    · intro tid th t key response hth he
      obtain ⟨n, hle, hlt, uid, u, t', hu, hkey, hc, hn⟩ := (reach_sourced hw).hit tid th t key response hth he
      obtain ⟨h1, h2, heq⟩ := append_of_mem he
      have hkey' : key = handler.generateCacheKey th.call := ((reach_obeys hw tid th hth).1 h1 _ h2 heq).1
      have hhash := generateCacheKey_inj.mp (hkey.symm.trans hkey')
      exact ⟨uid, u, t', n, hu, reach_collisionless hzero hw hu hth hhash,
        readAndComputed_of_unfailed (reach_asks hzero hw hu) hc (reach_unfailed hzero hw hu), hn, hle, hlt⟩
    · intro tid u hu hf
      exact absurd hf (reach_unfailed hzero hw hu)

def hitOf : Ev Packet → Option Packet
  | ⟨_, .getCached _, some response⟩ => some response
  | _ => none

def readSucceeds : Ev Packet → Bool
  | ⟨_, .redisGet _, .ok _⟩ => true
  | _ => false

lemma hit_of_hitOf {e : Ev Packet} (h : hitOf e = some response) :
    ∃ t key, e = ⟨t, .getCached key, some response⟩ := by
  unfold hitOf at h
  split at h
  · cases h
    exact ⟨_, _, rfl⟩
  · cases h

namespace Schedule

def appQuestion : Option Message := some (asking 7 ["app", "fleetingdns", "run"] .a)

def lookup (tid : ℕ) (replies : List DnsChoice) : List (DnsAct (Option Message)) :=
  .arrive appQuestion :: .exec tid .plain :: replies.map (.exec tid) ++ [.exec tid .plain, .exec tid .plain]

def hit (tid : ℕ) : List (DnsAct (Option Message)) := [.arrive appQuestion, .exec tid .plain]

end Schedule

open Dns.Schedule

theorem cached_answers_sound_app : ∃ (w : DnsPool (Option Message)) (th u : DnsThread (Option Message)) (uid : ℕ)
    (t : Span (DnsState (Option Message))) (key : String) (response : Option Message),
    Reach (step (dnsServer (dnsd 300))) (Steady (dnsd 300)) (start _ 0) w ∧ w.threads[1]? = some th ∧
    (⟨t, .getCached key, some response⟩ : Ev _) ∈ th.history ∧ w.threads[uid]? = some u ∧ u.call = th.call ∧
    ReadAndComputed (dnsd 300) u response := by
  obtain ⟨w, hr, hp⟩ := reach_of_check (step (dnsServer (dnsd 300))) (Steady (dnsd 300)) (start _ 0)
    (lookup 0 [.connection (.ok ()), .read (.ok (some "127.0.0.1"))] ++ .drift (.tick 1) :: hit 1)
    (fun w => w.threads[1]?.any fun th => th.history.any fun e => (hitOf e).isSome) (by decide +kernel)
  simp only [Option.any_eq_true, List.any_eq_true, Option.isSome_iff_exists] at hp
  obtain ⟨th, hth, e, he, response, hresponse⟩ := hp
  obtain ⟨t, key, rfl⟩ := hit_of_hitOf hresponse
  obtain ⟨uid, u, -, -, hu, hcall, hc, -⟩ := (cached_answers_sound (dnsd 300) 0 hr).1 1 th t key response hth he
  exact ⟨w, th, u, uid, t, key, response, hr, hth, he, hu, hcall, hc⟩

/-- Redis is down for one lookup, and for the next five minutes the name does not exist. -/
theorem failed_lookup_remembered : ∃ (w : DnsPool (Option Message)) (th : DnsThread (Option Message))
    (t : Span (DnsState (Option Message))) (key : String) (response : Option Message),
    Reach (step (dnsServer (dnsd 300))) Free (start _ 0) w ∧ w.threads[1]? = some th ∧
    (⟨t, .getCached key, some response⟩ : Ev _) ∈ th.history ∧ response.map (·.responseCode) = some .nxDomain ∧
    ∀ u ∈ w.threads, ¬ ReadAndComputed (dnsd 300) u response := by
  obtain ⟨w, hr, hp⟩ := reach_of_check (step (dnsServer (dnsd 300))) Free (start _ 0)
    (lookup 0 [.connection (.error "timed out")] ++ .drift (.tick (299 * second)) :: hit 1)
    (fun w => (w.threads[1]?.any fun th => th.history.any fun e => (hitOf e).any fun response =>
      response.map Message.responseCode = some .nxDomain) && w.threads.all fun u => !u.history.any readSucceeds)
    (by decide +kernel)
  simp only [Bool.and_eq_true, Option.any_eq_true, List.any_eq_true, List.all_eq_true, decide_eq_true_eq] at hp
  obtain ⟨⟨th, hth, e, he, response, hresponse, hcode⟩, hall⟩ := hp
  obtain ⟨t, key, rfl⟩ := hit_of_hitOf hresponse
  refine ⟨w, th, t, key, response, hr, hth, he, hcode, ?_⟩
  rintro u hu ⟨-, t', key', slot, -, hread, -⟩
  have hno := hall u hu
  rw [Bool.not_eq_true', List.any_eq_false] at hno
  exact hno _ hread rfl

section

variable (handler) (w : DnsPool Packet)

def cacheKeys (p : Ev Packet → Bool) : List String :=
  ((w.threads.filter fun th => th.history.any p).map fun th => handler.generateCacheKey th.call).dedup

/-- Keys of the packets whose answers were computed within the time to live and a margin. -/
def answered (margin : ℕ) : List String := cacheKeys handler w fun e => match e with
  | ⟨_, .instantNow, n⟩ => w.shared.now < n + handler.cacheTtl * second + margin
  | _ => false

/-- Keys of the packets whose answers were cached and are in their time to live. -/
def unexpired : List String := cacheKeys handler w fun e => match e with
  | ⟨_, .insertCached _ _ expiresAt, _⟩ => w.shared.now < expiresAt
  | _ => false

/-- The purging task is never later than the margin. -/
def timely (margin : ℕ) : DnsAct Packet → Bool
  | .drift (.tick d) => w.shared.cache.entries.all fun x => w.shared.now + d < x.2.expiresAt + margin
  | .exec tid _ => (w.threads[tid]?.bind fun th => th.prog.next).all fun c => match c with
    | .insertCached _ _ expiresAt => w.shared.now < expiresAt + margin
    | _ => true
  | _ => true

/-- No answer is replaced by one that expires before it, and the server is not restarted. -/
def unbroken : DnsAct Packet → Bool
  | .exec tid _ => (w.threads[tid]?.bind fun th => th.prog.next).all fun c => match c with
    | .insertCached key _ expiresAt => (w.shared.cache.lookup key).all fun entry => entry.expiresAt ≤ expiresAt
    | _ => true
  | .restart => false
  | _ => true

end

section

variable {key : String} {margin expiresAt : ℕ} {entry : CacheEntry Packet}

lemma mem_cacheKeys {p : Ev Packet → Bool} : key ∈ cacheKeys handler w p ↔ ∃ (tid : ℕ) (th : DnsThread Packet),
    w.threads[tid]? = some th ∧ (∃ e ∈ th.history, p e = true) ∧ handler.generateCacheKey th.call = key := by
  simp only [cacheKeys, List.mem_dedup, List.mem_map, List.mem_filter, List.any_eq_true]
  constructor
  · rintro ⟨th, ⟨hmem, he⟩, hkey⟩
    obtain ⟨tid, hth⟩ := List.mem_iff_getElem?.mp hmem
    exact ⟨tid, th, hth, he, hkey⟩
  · rintro ⟨tid, th, hth, he, hkey⟩
    exact ⟨th, ⟨List.mem_of_getElem? hth, he⟩, hkey⟩

lemma fresh_step (h : step (dnsServer handler) w a = some w') (hg : timely w margin a = true)
    (hw : ∀ key entry, w.shared.cache.lookup key = some entry → w.shared.now < entry.expiresAt + margin)
    (hl : w'.shared.cache.lookup key = some entry) : w'.shared.now < entry.expiresAt + margin := by
  obtain hold | ⟨tid, o, th, rfl, hi⟩ := cache_step h hl
  · cases step_effect h with
    | @drift e drift =>
      cases e with
      | tick d =>
        simp only [timely, List.all_eq_true, decide_eq_true_eq] at hg
        rw [← Option.some.inj drift]
        exact hg _ (AList.mem_lookup_iff.mp hold)
      | purge =>
        simp only [dnsServer, DnsState.drift] at drift
        split_ifs at drift
        rw [← Option.some.inj drift]
        exact hw key entry hold
    | arrive accept => exact Option.some.inj accept ▸ hw key entry hold
    | exec thread prog perform => exact perform_now perform ▸ hw key entry hold
    | cancel thread inFlight shared => exact shared ▸ hw key entry hold
    | restart restart => exact Option.some.inj restart ▸ hw key entry hold
  · cases step_effect h with
    | exec thread prog perform =>
      rw [timely, hi.1, bind_some, hi.next] at hg
      rw [perform_now perform]
      exact of_decide_eq_true hg

lemma answered_of_cached (hw : Reach (step (dnsServer handler)) (fun w a => timely w margin a = true) (start Packet now) w)
    (hl : w.shared.cache.lookup key = some entry) : key ∈ answered handler w margin := by
  have hfresh : w.shared.now < entry.expiresAt + margin := by
    refine hw.invariant (J := fun _ => True) (I := fun w => ∀ key entry, w.shared.cache.lookup key = some entry →
      w.shared.now < entry.expiresAt + margin) (fun _ _ => trivial) ?_ ?_ key entry hl
    · rintro key entry ⟨⟩
    · intro w a w' _ hold hg hstep key entry hl
      exact fresh_step hstep hg hold hl
  obtain ⟨n, -, hexp, tid, u, t, hu, hkey, -, hn⟩ := (reach_sourced hw).entry key entry hl
  rw [hexp] at hfresh
  exact mem_cacheKeys.mpr ⟨tid, u, hu, ⟨_, hn, decide_eq_true hfresh⟩, hkey.symm⟩

lemma kept_step (h : step (dnsServer handler) w a = some w') (hg : unbroken w a = true)
    (hl : w.shared.cache.lookup key = some entry) (hlt : w'.shared.now < entry.expiresAt) :
    ∃ entry', w'.shared.cache.lookup key = some entry' ∧ entry.expiresAt ≤ entry'.expiresAt := by
  cases step_effect h with
  | @drift e drift =>
    refine ⟨entry, ?_, Nat.le_refl _⟩
    cases e with
    | tick => exact Option.some.inj drift ▸ hl
    | purge key' =>
      simp only [dnsServer, DnsState.drift] at drift
      split_ifs at drift with hget
      rw [← Option.some.inj drift] at hlt ⊢
      have hne : key ≠ key' := by
        rintro rfl
        rw [isNone_iff_eq_none] at hget
        cases hget.symm.trans (get_eq_some.mpr ⟨entry.expiresAt, hl, hlt⟩)
      exact (lookup_erase_ne hne).trans hl
  | arrive accept => exact ⟨entry, Option.some.inj accept ▸ hl, Nat.le_refl _⟩
  | @exec tid o th c k r thread prog perform =>
    obtain hkept | ⟨response, expiresAt, rfl, hnew⟩ := perform_cache perform key
    · exact ⟨entry, hkept.trans hl, Nat.le_refl _⟩
    · rw [unbroken, thread, bind_some, Prog.next_isSome prog] at hg
      simp only [all_some, hl, decide_eq_true_eq] at hg
      exact ⟨_, hnew, hg⟩
  | cancel thread inFlight shared => exact ⟨entry, shared ▸ hl, Nat.le_refl _⟩
  | restart => cases hg

lemma cached_of_unexpired (hw : Reach (step (dnsServer handler)) (fun w a => unbroken w a = true) (start Packet now) w)
    {tid : ℕ} {th : DnsThread Packet} {t : Span (DnsState Packet)} (hth : w.threads[tid]? = some th)
    (he : ⟨t, .insertCached key response expiresAt, ()⟩ ∈ th.history) (hlt : w.shared.now < expiresAt) :
    ∃ entry, w.shared.cache.lookup key = some entry ∧ expiresAt ≤ entry.expiresAt := by
  induction hw generalizing th with
  | refl => cases hth
  | tail _ hg hstep ih =>
    obtain ⟨th0, hold, -, he⟩ | ⟨o, th0, -, -, -, -, -, hperf⟩ := event_step hstep hth he
    · obtain ⟨entry, hl, hle⟩ := ih hold he ((now_step hstep).trans_lt hlt)
      obtain ⟨entry', hl', hle'⟩ := kept_step hstep hg hl (hlt.trans_le hle)
      exact ⟨entry', hl', hle.trans hle'⟩
    · rw [perform_insertCached hperf]
      exact ⟨_, lookup_insert _, Nat.le_refl _⟩

theorem cache_bounded (handler : DnsHandler Packet) (maxCacheSize margin now : ℕ) :
    (∀ w, Reach (step (dnsServer handler)) (fun w a => timely w margin a = true) (start Packet now) w →
      (answered handler w margin).length ≤ maxCacheSize → w.shared.cache.keys.length ≤ maxCacheSize) ∧
    ∀ w, Reach (step (dnsServer handler)) (fun w a => unbroken w a = true) (start Packet now) w →
      maxCacheSize < (unexpired handler w).length → maxCacheSize < w.shared.cache.keys.length := by
  constructor
  · intro w hw hle
    refine (subperm_of_subset w.shared.cache.keys_nodup fun key hkey => ?_).length_le.trans hle
    obtain ⟨entry, hl⟩ := isSome_iff_exists.mp (lookup_isSome.mpr (mem_keys.mp hkey))
    exact answered_of_cached hw hl
  · intro w hw hlt
    refine hlt.trans_le (subperm_of_subset (nodup_dedup _) fun key hkey => ?_).length_le
    obtain ⟨tid, th, hth, ⟨e, he, hp⟩, rfl⟩ := mem_cacheKeys.mp hkey
    split at hp
    · obtain ⟨h1, h2, heq⟩ := append_of_mem he
      obtain ⟨rfl, -⟩ := (reach_obeys hw tid th hth).1 h1 _ h2 heq
      obtain ⟨entry, hl, -⟩ := cached_of_unexpired hw hth he (of_decide_eq_true hp)
      exact mem_keys.mpr (lookup_isSome.mp (isSome_of_eq_some hl))
    · cases hp

end

namespace Schedule

def unasked (id : ℕ) : Option Message := some ⟨id, .query, .query, .noError, [], [], [], []⟩

def refuse (tid id : ℕ) : List (DnsAct (Option Message)) :=
  .arrive (unasked id) :: (List.replicate 3 .plain).map (.exec tid)

end Schedule

theorem cache_bounded_two : ∃ w,
    Reach (step (dnsServer (dnsd 300))) (fun w a => timely w (30 * second) a = true) (start _ 0) w ∧
    w.shared.cache.keys.length = 2 ∧ (answered (dnsd 300) w (30 * second)).length ≤ 2 ∧
    w.shared.cache.keys.length ≤ 2 := by
  obtain ⟨w, hr, hp⟩ := reach_of_check (step (dnsServer (dnsd 300))) (fun w a => timely w (30 * second) a = true)
    (start _ 0) (refuse 0 1 ++ refuse 1 2)
    (fun w => decide (w.shared.cache.keys.length = 2) && decide ((answered (dnsd 300) w (30 * second)).length ≤ 2))
    (by decide +kernel)
  simp only [Bool.and_eq_true, decide_eq_true_eq] at hp
  exact ⟨w, hr, hp.1, hp.2, (cache_bounded (dnsd 300) 2 (30 * second) 0).1 w hr hp.2⟩

theorem cache_outgrown : ∃ w, Reach (step (dnsServer (dnsd 300))) Free (start _ 0) w ∧
    1 < w.shared.cache.keys.length := by
  obtain ⟨w, hr, hp⟩ := reach_of_check (step (dnsServer (dnsd 300))) Free (start _ 0) (refuse 0 1 ++ refuse 1 2)
    (fun w => 1 < w.shared.cache.keys.length) (by decide +kernel)
  exact ⟨w, hr, of_decide_eq_true hp⟩

end FleetingDns.Dns
