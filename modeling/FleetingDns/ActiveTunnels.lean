import FleetingDns.RouterLookup
namespace FleetingDns.ActiveTunnels

open CommandPrograms ExpiringStore GuardedRuns World RouterLookup List

variable {config : Config} {w : World} {now : ℕ} {listing : List Key}

def recordOf : (_ : Key) × Entry Value → Option Tunnel
  | ⟨.tunnel _, ⟨.tunnel tunnel, _⟩⟩ => some tunnel
  | _ => none

def markerOf : Key → Option String
  | .tunnelLive id => some id
  | _ => none

def liveRecords (w : World) : List Tunnel := (visible w.shared.now w.shared.store).entries.filterMap recordOf

def liveMarkers (w : World) : List String := (visible w.shared.now w.shared.store).keys.filterMap markerOf

def tunnelKeys (w : World) : List Key := (visible w.shared.now w.shared.store).keys.filter Key.isTunnel

def activeTunnelCount (w : World) (listing : List Key) : Option (Except ApiError ℕ) :=
  TunnelStorage.getActiveTunnelCount.run.answer (answers w listing)

lemma length_tunnelKeys {entries : List ((_ : Key) × Entry Value)}
    (h : ∀ id e, ⟨.tunnel id, e⟩ ∈ entries → ∃ tunnel, e.value = .tunnel tunnel) :
    ((entries.map Sigma.fst).filter Key.isTunnel).length =
      (entries.filterMap recordOf).length + ((entries.map Sigma.fst).filterMap markerOf).length := by
  induction entries with
  | nil => rfl
  | cons x entries ih =>
    have hrest := ih fun id e he => h id e (mem_cons_of_mem _ he)
    obtain ⟨key, e⟩ := x
    rw [map_cons]
    cases key with
    | tunnel id =>
      obtain ⟨tunnel, hvalue⟩ := h id e (mem_cons_self ..)
      obtain ⟨value, deadline⟩ := e
      cases hvalue
      simp only [filter_cons, Key.isTunnel, if_true, length_cons, filterMap_cons, recordOf, markerOf]
      omega
    | tunnelLive =>
      simp only [filter_cons, Key.isTunnel, if_true, length_cons, filterMap_cons, recordOf, markerOf]
      omega
    | _ =>
      simp only [filter_cons, Key.isTunnel, Bool.false_eq_true, if_false, filterMap_cons, recordOf, markerOf,
        hrest]

lemma tunnelKeys_length (hs : Sane config w) :
    (tunnelKeys w).length = (liveRecords w).length + (liveMarkers w).length := by
  apply length_tunnelKeys
  intro id e he
  have hlookup : (visible w.shared.now w.shared.store).lookup (.tunnel id) = some e := AList.mem_lookup_iff.mpr he
  rw [lookup_visible, Option.filter_eq_some_iff] at hlookup
  obtain ⟨tunnel, d, rfl, -⟩ := hs.record id e hlookup.1
  exact ⟨tunnel, rfl⟩

lemma liveMarkers_nil : liveMarkers w = [] ↔ ∀ id, seen w (.tunnelLive id) = none := by
  have hseen (id : String) : seen w (.tunnelLive id) = none ↔ Key.tunnelLive id ∉ visible w.shared.now w.shared.store := by
    rw [seen, Option.map_eq_none_iff, entry, ← lookup_visible, AList.lookup_eq_none]
  simp only [hseen, liveMarkers, filterMap_eq_nil_iff]
  constructor
  · intro h id hid
    cases h _ hid
  · intro h key hkey
    cases key with
    | tunnelLive id => exact absurd hkey (h id)
    | _ => rfl

lemma activeTunnelCount_eq (hl : listing.Perm (tunnelKeys w)) :
    activeTunnelCount w listing = some (.ok (tunnelKeys w).length) := by
  have hkeys : answers w listing (.redis (.keys Key.isTunnel)) = some (.ok listing) := by
    have hperm : listing.Perm ((visible w.shared.now w.shared.store).keys.filter Key.isTunnel) := hl
    simp [answers, outcome, ExpiringStore.perform, hperm]
  rw [activeTunnelCount, TunnelStorage.getActiveTunnelCount, answer_redis hkeys, ← hl.length_eq]
  rfl

theorem active_tunnel_count (hreach : Reach (step config) Free (init now) w) (hl : listing.Perm (tunnelKeys w)) :
    activeTunnelCount w listing = some (.ok ((liveRecords w).length + (liveMarkers w).length)) ∧
    (activeTunnelCount w listing = some (.ok (liveRecords w).length) ↔ ∀ id, seen w (.tunnelLive id) = none) := by
  rw [activeTunnelCount_eq hl, tunnelKeys_length (reach_sane hreach)]
  refine ⟨rfl, ?_⟩
  rw [← liveMarkers_nil, ← length_eq_zero_iff, Option.some.injEq, Except.ok.injEq]
  omega

open Schedule

theorem active_tunnel_count_unpublished : ∃ w, Reach (step deployment) Free start w ∧ (liveRecords w).length = 1 ∧
    activeTunnelCount w (tunnelKeys w) = some (.ok 1) := by
  obtain ⟨w, hr, hp⟩ := started (serve (request 1800 "demo") 10000 "a" "ka")
    (fun w => (liveRecords w).length = 1 && (liveMarkers w).length = 0) (by decide +kernel)
  simp only [Bool.and_eq_true, decide_eq_true_eq, length_eq_zero_iff] at hp
  have hcount := (active_tunnel_count hr (.refl (tunnelKeys w))).2.mpr (liveMarkers_nil.mp hp.2)
  rw [hp.1] at hcount
  exact ⟨w, hr, hp.1, hcount⟩

theorem served_tunnel_counted_twice : ∃ w, Reach (step deployment) Free start w ∧ (liveRecords w).length = 1 ∧
    activeTunnelCount w (tunnelKeys w) = some (.ok 2) := by
  obtain ⟨w, hr, hp⟩ := started
    (serve (request 1800 "demo") 10000 "a" "ka" ++ [.heartbeat 1 .ok])
    (fun w => (liveRecords w).length = 1 && (tunnelKeys w).length = 2) (by decide +kernel)
  simp only [Bool.and_eq_true, decide_eq_true_eq] at hp
  refine ⟨w, hr, hp.1, ?_⟩
  rw [activeTunnelCount_eq (.refl _), hp.2]

end FleetingDns.ActiveTunnels
