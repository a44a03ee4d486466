import FleetingDns.DnsHandler
import FleetingDns.Library.ServerPool
namespace FleetingDns.Dns

open CommandPrograms ThreadPool ServerPool GuardedRuns Panics List AList

structure CacheEntry (Packet : Type) where
  response : Packet
  expiresAt : ℕ

structure DnsState (Packet : Type) where
  now : ℕ
  cache : AList (fun _ : String => CacheEntry Packet)

inductive DnsChoice where
  | plain
  | connection (r : Except String Unit)
  | read (r : Except String (Option String))

inductive DnsDrift where
  | tick (d : ℕ)
  | purge (key : String)

variable {Packet : Type}

namespace DnsState

section

variable (s : DnsState Packet)

def get (key : String) : Option Packet :=
  ((s.cache.lookup key).filter fun entry => s.now < entry.expiresAt).map CacheEntry.response

def insert (key : String) (response : Packet) (expiresAt : ℕ) : DnsState Packet :=
  { s with cache := s.cache.insert key ⟨response, expiresAt⟩ }

def perform : (c : DnsCmd Packet) → DnsChoice → Option (DnsState Packet × c.Reply)
  | .getCached key, .plain => some (s, s.get key)
  | .getConnection, .connection r => some (s, r)
  | .redisGet _, .read r => some (s, r)
  | .instantNow, .plain => some (s, s.now)
  | .insertCached key response expiresAt, .plain => some (s.insert key response expiresAt, ())
  | _, _ => none

def drift : DnsDrift → Option (DnsState Packet)
  | .tick d => some { s with now := s.now + d }
  | .purge key =>
    -- the purging task drops what has expired
    if (s.get key).isNone then some { s with cache := s.cache.erase key } else none

end

end DnsState

def dnsServer (handler : DnsHandler Packet) :
    Service (DnsState Packet) Packet (DnsCmd Packet) DnsCmd.Reply (Served Packet) DnsChoice DnsDrift where
  program := handler.handlePacket
  perform := DnsState.perform
  accept s _ := some s
  drift := DnsState.drift
  restart s := some ⟨s.now, ∅⟩
  stopped := .cancelled

abbrev Ev (Packet : Type) := Event (DnsState Packet) (DnsCmd Packet) DnsCmd.Reply
abbrev DnsThread (Packet : Type) := Thread (DnsState Packet) Packet (DnsCmd Packet) DnsCmd.Reply (Served Packet)
abbrev DnsPool (Packet : Type) := Pool (DnsState Packet) Packet (DnsCmd Packet) DnsCmd.Reply (Served Packet)
abbrev DnsAct (Packet : Type) := Act Packet DnsChoice DnsDrift

def start (Packet : Type) (now : ℕ) : DnsPool Packet := ⟨⟨now, ∅⟩, []⟩

section

variable (handler : DnsHandler Packet) (packet : Packet) (h : List (Ev Packet))

inductive Looked (h : List (Ev Packet)) (key : Key) : Option String → Prop
  | found {t t' : Span (DnsState Packet)} {slot : Option String} (connection : ⟨t, .getConnection, .ok ()⟩ ∈ h)
      (read : ⟨t', .redisGet key, .ok slot⟩ ∈ h) : Looked h key slot
  | unread {t : Span (DnsState Packet)} {e : String} (read : ⟨t, .redisGet key, .error e⟩ ∈ h) : Looked h key none
  | unreachable {t : Span (DnsState Packet)} {e : String} (connection : ⟨t, .getConnection, .error e⟩ ∈ h) :
      Looked h key none

def Computed (response : Packet) : Prop :=
  match handler.question packet with
  | some (message, query) =>
    ∃ slot, Looked h (handler.slotKey query.name) slot ∧ response = handler.written (message.reply query slot)
  | none => handler.processDnsQuery packet = pure (.ok response)

def May : DnsCmd Packet → Prop
  | .getCached key => key = handler.generateCacheKey packet ∧ h = []
  | .getConnection | .instantNow => True
  | .redisGet key => ∃ message query, handler.question packet = some (message, query) ∧ key = handler.slotKey query.name
  | .insertCached key response expiresAt => key = handler.generateCacheKey packet ∧
    Computed handler packet h response ∧
    ∃ t now, (⟨t, .instantNow, now⟩ : Ev Packet) ∈ h ∧ instantAdd now handler.cacheTtl = some expiresAt

def Ends : Served Packet → Prop
  | .returned (.ok response) =>
    (∃ t, (⟨t, .getCached (handler.generateCacheKey packet), some response⟩ : Ev Packet) ∈ h) ∨
      Computed handler packet h response
  | .returned (.error _) => False
  | .panicked => ∃ t now, (⟨t, .instantNow, now⟩ : Ev Packet) ∈ h ∧ instantAdd now handler.cacheTtl = none
  | .cancelled => True

variable {handler packet h} {h' : List (Ev Packet)} {response : Packet}

lemma Looked.mono {key : Key} {slot : Option String} (hl : Looked h key slot) (hs : h ⊆ h') : Looked h' key slot := by
  cases hl with
  | found connection read => exact .found (hs connection) (hs read)
  | unread read => exact .unread (hs read)
  | unreachable connection => exact .unreachable (hs connection)

lemma Computed.mono (hc : Computed handler packet h response) (hs : h ⊆ h') :
    Computed handler packet h' response := by
  unfold Computed at hc ⊢
  cases hq : handler.question packet with
  | none =>
    rw [hq] at hc
    exact hc
  | some =>
    rw [hq] at hc
    obtain ⟨slot, hl, heq⟩ := hc
    exact ⟨slot, hl.mono hs, heq⟩

lemma lookupSlotInRedis_obeys {message : Message} {query : Query}
    (hq : handler.question packet = some (message, query)) :
    Obeys (May handler packet) (fun h' r => Looked h' (handler.slotKey query.name) (r.toOption.getD none))
      (DnsHandler.lookupSlotInRedis (handler.codec.nameToString query.name)).run h := by
  simp only [DnsHandler.lookupSlotInRedis, if_neg (nameToString_nonempty query.name)]
  refine meets_issue trivial ?_
  rintro (e | ⟨⟨⟩⟩) _ ⟨t, rfl⟩
  · exact .ret (.unreachable mem_concat_self)
  · refine meets_issue ⟨message, query, hq, rfl⟩ ?_
    rintro (e | slot) _ ⟨t', rfl⟩
    · exact .ret (.unread mem_concat_self)
    · have hconnection : ⟨t, .getConnection, .ok ()⟩ ∈ h ++ [⟨t, .getConnection, .ok ()⟩] := by simp
      exact .ret (.found (mem_append_left _ hconnection) mem_concat_self)

lemma processDnsQuery_obeys : Obeys (May handler packet)
    (fun h' r => ∃ response, r = .ok response ∧ Computed handler packet h' response)
    (handler.processDnsQuery packet) h := by
  cases hq : handler.question packet with
  | none =>
    obtain ⟨m, -, heq, -⟩ := processDnsQuery_asksNothing hq
    rw [heq]
    exact .ret ⟨handler.written m, rfl, by rw [Computed, hq]; exact heq⟩
  | some asked =>
    rw [processDnsQuery_asks hq]
    refine meets_seq (lookupSlotInRedis_obeys hq) ?_
    intro h' r hl
    exact .ret ⟨_, rfl, by rw [Computed, hq]; exact ⟨_, hl, rfl⟩⟩

lemma cacheResponse_obeys (hc : Computed handler packet h response) :
    Obeys (May handler packet) (fun h' r => Computed handler packet h' response ∧
      (r = none → Ends handler packet h' .panicked)) (handler.cacheResponse packet response) h := by
  refine meets_issue trivial ?_
  rintro now _ ⟨t, rfl⟩
  have hc1 := hc.mono (subset_append_left h [⟨t, .instantNow, now⟩])
  have hnow : ⟨t, .instantNow, now⟩ ∈ h ++ [⟨t, .instantNow, now⟩] := by simp
  cases hadd : instantAdd now handler.cacheTtl with
  | none => exact .ret ⟨hc1, fun _ => ⟨t, now, hnow, hadd⟩⟩
  | some =>
    refine meets_issue ⟨rfl, hc1, t, now, hnow, hadd⟩ ?_
    rintro _ _ ⟨t', rfl⟩
    exact .ret ⟨hc1.mono (subset_append_left _ _), by rintro ⟨⟩⟩

lemma handlePacket_obeys (handler : DnsHandler Packet) (packet : Packet) :
    Obeys (May handler packet) (Ends handler packet) (handler.handlePacket packet) [] := by
  refine meets_issue ⟨rfl, rfl⟩ ?_
  rintro (_ | cached) _ ⟨t, rfl⟩
  · refine meets_seq processDnsQuery_obeys ?_
    rintro h1 _ ⟨response, rfl, hc⟩
    refine meets_seq (cacheResponse_obeys hc) ?_
    rintro h2 (_ | ⟨⟨⟩⟩) ⟨hc', hpanic⟩
    · exact .ret (hpanic rfl)
    · exact .ret (.inr hc')
  · exact .ret (.inl ⟨t, mem_singleton_self _⟩)

end

section

variable {s s' : DnsState Packet} {c : DnsCmd Packet} {o : DnsChoice} {r : c.Reply}

inductive Performed (s : DnsState Packet) : DnsState Packet → (c : DnsCmd Packet) → DnsChoice → c.Reply → Prop
  | getCached {key : String} : Performed s s (.getCached key) .plain (s.get key)
  | getConnection {r : Except String Unit} : Performed s s .getConnection (.connection r) r
  | redisGet {key : Key} {r : Except String (Option String)} : Performed s s (.redisGet key) (.read r) r
  | instantNow : Performed s s .instantNow .plain s.now
  | insertCached {key : String} {response : Packet} {expiresAt : ℕ} :
      Performed s (s.insert key response expiresAt) (.insertCached key response expiresAt) .plain ()

lemma perform_effect (h : s.perform c o = some (s', r)) : Performed s s' c o r := by
  cases c <;> cases o <;> simp only [DnsState.perform] at h <;> cases h <;> constructor

lemma perform_now (h : s.perform c o = some (s', r)) : s'.now = s.now := by
  cases perform_effect h <;> rfl

variable {key : String} {response : Packet} {e : DnsDrift} {entry : CacheEntry Packet} {t : Span (DnsState Packet)}
    {G : DnsPool Packet → DnsAct Packet → Prop} {now : ℕ}

lemma perform_getCached {x : Option Packet} (h : s.perform (.getCached key) o = some (s', x)) : x = s.get key := by
  cases perform_effect h with
  | getCached => rfl

lemma perform_getConnection {x : Except String Unit} (h : s.perform .getConnection o = some (s', x)) :
    o = .connection x := by
  cases perform_effect h with
  | getConnection => rfl

lemma perform_redisGet {key : Key} {x : Except String (Option String)}
    (h : s.perform (.redisGet key) o = some (s', x)) : o = .read x := by
  cases perform_effect h with
  | redisGet => rfl

lemma perform_instantNow {x : ℕ} (h : s.perform .instantNow o = some (s', x)) : x = s.now := by
  cases perform_effect h with
  | instantNow => rfl

lemma perform_insertCached {expiresAt : ℕ} {x : Unit}
    (h : s.perform (.insertCached key response expiresAt) o = some (s', x)) : s' = s.insert key response expiresAt := by
  cases perform_effect h with
  | insertCached => rfl

lemma perform_cache (h : s.perform c o = some (s', r)) (key : String) :
    s'.cache.lookup key = s.cache.lookup key ∨ ∃ response expiresAt, c = .insertCached key response expiresAt ∧
      s'.cache.lookup key = some ⟨response, expiresAt⟩ := by
  cases perform_effect h with
  | @insertCached key' response expiresAt =>
    by_cases hk : key = key'
    · subst hk
      exact .inr ⟨response, expiresAt, rfl, lookup_insert _⟩
    · exact .inl (lookup_insert_ne hk)
  | _ => exact .inl rfl

lemma get_eq_some : s.get key = some response ↔
    ∃ expiresAt, s.cache.lookup key = some ⟨response, expiresAt⟩ ∧ s.now < expiresAt := by
  unfold DnsState.get
  obtain _ | _ := s.cache.lookup key
  · simp
  rw [Option.map_eq_some_iff]
  constructor
  · rintro ⟨e, he, rfl⟩
    rw [Option.filter_eq_some_iff] at he
    obtain ⟨heq, hlt⟩ := he
    exact ⟨e.expiresAt, heq, of_decide_eq_true hlt⟩
  · rintro ⟨expiresAt, heq, hlt⟩
    cases heq
    exact ⟨⟨response, expiresAt⟩, by simp [hlt], rfl⟩

lemma drift_now (h : s.drift e = some s') : s.now ≤ s'.now := by
  cases e with
  | tick => exact Option.some.inj h ▸ Nat.le_add_right _ _
  | purge =>
    simp only [DnsState.drift] at h
    split_ifs at h
    exact Option.some.inj h ▸ le_rfl

lemma drift_cache (h : s.drift e = some s') (hl : s'.cache.lookup key = some entry) :
    s.cache.lookup key = some entry := by
  cases e with
  | tick =>
    rw [← Option.some.inj h] at hl
    exact hl
  | purge key' =>
    simp only [DnsState.drift] at h
    split_ifs at h
    rw [← Option.some.inj h] at hl
    by_cases hk : key = key'
    · rw [hk, lookup_erase] at hl
      cases hl
    · rw [lookup_erase_ne hk] at hl
      exact hl

variable {handler : DnsHandler Packet} {w w' : DnsPool Packet} {a : DnsAct Packet}

section

variable (h : step (dnsServer handler) w a = some w')

include h

lemma now_step : w.shared.now ≤ w'.shared.now := by
  cases step_effect h with
  | drift drift => exact drift_now drift
  | arrive accept => exact (Option.some.inj accept) ▸ le_rfl
  | exec thread prog perform => exact (perform_now perform).ge
  | cancel thread inFlight shared => exact shared ▸ le_rfl
  | restart restart => exact (Option.some.inj restart) ▸ le_rfl

lemma cache_step (hl : w'.shared.cache.lookup key = some entry) : w.shared.cache.lookup key = some entry ∨
    ∃ tid o th, a = .exec tid o ∧ Issues w tid th (.insertCached key entry.response entry.expiresAt) := by
  cases step_effect h with
  | drift drift => exact .inl (drift_cache drift hl)
  | arrive accept => exact .inl (by rw [Option.some.inj accept]; exact hl)
  | @exec tid o th c k r thread prog perform threads =>
    obtain hkept | ⟨response, expiresAt, rfl, hnew⟩ := perform_cache perform key
    · exact .inl (hkept ▸ hl)
    · obtain rfl := Option.mem_unique hl hnew
      exact .inr ⟨tid, o, th, rfl, thread, k, prog⟩
  | cancel thread inFlight shared => exact .inl (shared ▸ hl)
  | restart restart =>
    rw [← Option.some.inj restart] at hl
    cases hl

lemma hit_step {tid : ℕ} {th' : DnsThread Packet}
    (hth : w'.threads[tid]? = some th') (he : ⟨t, .getCached key, some response⟩ ∈ th'.history) :
    (∃ th, w.threads[tid]? = some th ∧ ⟨t, .getCached key, some response⟩ ∈ th.history) ∨
    ∃ expiresAt, t.before = w.shared ∧ w.shared.cache.lookup key = some ⟨response, expiresAt⟩ ∧
      w.shared.now < expiresAt := by
  obtain ⟨th, hold, -, he⟩ | ⟨o, th, -, -, -, -, hspan, hperf⟩ := event_step h hth he
  · exact .inl ⟨th, hold, he⟩
  · obtain ⟨expiresAt, hl, hlt⟩ := get_eq_some.mp (perform_getCached hperf).symm
    dsimp only at hspan
    exact .inr ⟨expiresAt, by rw [hspan], hl, hlt⟩

end

lemma instant_le (hw : Reach (step (dnsServer handler)) G (start Packet now) w) {tid n : ℕ} {th : DnsThread Packet}
    (hth : w.threads[tid]? = some th) (he : ⟨t, .instantNow, n⟩ ∈ th.history) : n ≤ w.shared.now := by
  obtain ⟨w1, o, u, -, hlater, -, -, -, hp⟩ := event_reached hw (Nat.zero_le _) hth he
  exact (perform_instantNow hp).trans_le (measure_run (fun _ _ _ => now_step) hlater)

lemma reach_obeys (hw : Reach (step (dnsServer handler)) G (start Packet now) w) :
    Keeps (May handler) (Ends handler) w.threads := by
  refine reach_keeps ?_ ?_ hw
  · exact handlePacket_obeys handler
  · intro packet h
    trivial

end

end FleetingDns.Dns
