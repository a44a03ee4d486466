import FleetingDns.RequestHead
namespace FleetingDns.EdgeRouter

open CommandPrograms ExpiringStore TunnelLookup LossyText Option List Wire

abbrev WireEv := Event Wire Cmd Cmd.Reply

def Wire.opened (reads : List Read) : Wire := ⟨reads, [], []⟩

def tunnelRead (name : String) : WireEv → Option TunnelInfo
  | ⟨_, .redis (.get (.tunnel _)), .ok (some v)⟩ => v.asTunnelInfo.filter (·.subdomain == name)
  | _ => none

def headRead : WireEv → Option Bytes
  | ⟨_, .readRequestHead, .ok buf⟩ => some buf
  | _ => none

def grants (name token : String) : WireEv → Bool
  | ⟨_, .redis (.exist key), .ok true⟩ => key = .sessionGrant name token
  | _ => false

def found (name : String) (es : List WireEv) : Option TunnelInfo := es.findSome? (tunnelRead name)

/-- The name is that of a tunnel, and a protected one has a live grant for the cookie of the request head. -/
def Authorised (sni : Option String) (es : List WireEv) : Prop :=
  ∃ host info, sni = some host ∧ found (subdomainFromSni host) es = some info ∧ (info.protectedTunnel = true →
    ∃ buf token, es.findSome? headRead = some buf ∧ sessionCookie buf = some token ∧
      es.any (grants (subdomainFromSni host) token) = true)

def cutShort : WireEv → Bool
  | ⟨_, .dialSlot _, .error _⟩ | ⟨_, .replay _, .error _⟩ => true
  | _ => false

variable {w : Wire} {es es' : List WireEv} {name : String} {sni : Option String} {reads : List Read}
  {P : Wire × List WireEv → Cmd → Prop}

lemma Authorised.append (h : Authorised sni es) (es' : List WireEv) : Authorised sni (es ++ es') := by
  obtain ⟨host, info, hsni, hfound, hprotected⟩ := h
  refine ⟨host, info, hsni, ?_, ?_⟩
  · rw [found] at hfound ⊢
    rw [List.findSome?_append, hfound, some_or]
  · intro hp
    obtain ⟨buf, token, hhead, hcookie, hgrant⟩ := hprotected hp
    refine ⟨buf, token, ?_, hcookie, ?_⟩
    · rw [List.findSome?_append, hhead, some_or]
    · rw [any_append, hgrant, Bool.true_or]

section

variable {c : StoreCmd Key Value} {e : WireEv}

lemma follows_redis {r : Except String c.Reply} {h' : Wire × List WireEv}
    (h : Follows Wire.perform (w, es) (.redis c) r h') :
    listable c r = true ∧ ∃ t, h' = (w, es ++ [⟨t, .redis c, r⟩]) := by
  obtain ⟨o, w', hp, rfl⟩ := h
  cases o <;> simp only [Wire.perform, reduceCtorEq] at hp
  split_ifs at hp with hl
  obtain ⟨rfl, rfl⟩ := hp
  exact ⟨hl, _, rfl⟩

lemma meets_wire_query {β : Type} {Q : Wire × List WireEv → Except String β → Prop} {f : c.Reply → Cache β}
    (hc : P (w, es) (.redis c))
    (hok : ∀ t x, listable c (.ok x) = true →
      Meets (Follows perform) P Q (f x).run (w, es ++ [⟨t, .redis c, .ok x⟩]))
    (herror : ∀ t e e', Q (w, es ++ [⟨t, .redis c, .error e⟩]) (.error e')) :
    Meets (Follows perform) P Q (query c >>= f).run (w, es) := by
  refine .call hc ?_
  intro r h' hf
  obtain ⟨hl, t, rfl⟩ := follows_redis hf
  cases r with
  | ok x => exact hok t x hl
  | error e => exact .ret (herror t e _)

def scans : WireEv → Bool
  | ⟨_, .redis (.get _), _⟩ | ⟨_, .redis (.keys _), _⟩ => true
  | _ => false

lemma scans_quiet (h : scans e = true) : headRead e = none ∧ ∀ name token, grants name token e = false := by
  unfold scans at h
  split at h
  · exact ⟨rfl, fun _ _ => rfl⟩
  · exact ⟨rfl, fun _ _ => rfl⟩
  · cases h

structure Looked (w : Wire) (name : String) (h : Wire × List WireEv) (r : Except String (Option TunnelInfo)) : Prop where
  wire : h.1 = w
  found : found name h.2 = r.toOption.join
  scans : ∀ e ∈ h.2, scans e = true

lemma found_snoc (h : found name es = none) : found name (es ++ [e]) = tunnelRead name e := by
  rw [found] at h ⊢
  rw [List.findSome?_append, h, none_or, List.findSome?_singleton]

section

variable (hP : ∀ es c, P (w, es) c) (hfound : found name es = none) (hscans : ∀ e ∈ es, scans e = true)

include hP hfound hscans

lemma looked_findTunnel (tunnels : List String) : Meets (Follows perform) P (Looked w name)
      (findTunnel (fun tunnelInfo => tunnelInfo.subdomain == name) tunnels).run (w, es) := by
  induction tunnels generalizing es with
  | nil => exact meets_except_pure ⟨rfl, hfound, hscans⟩
  | cons tunnelId tunnels ih =>
    have hsnoc (t : Span Wire) (r : Except String (Option Value)) :
        ∀ e ∈ es ++ [⟨t, .redis (.get (.tunnel tunnelId)), r⟩], scans e = true := by
      rw [forall_mem_append, forall_mem_singleton]
      exact ⟨hscans, rfl⟩
    refine meets_wire_query (hP es _) ?_ ?_
    · intro t tunnelData _
      have hnext := found_snoc (e := ⟨t, .redis (.get (.tunnel tunnelId)), .ok tunnelData⟩) hfound
      obtain _ | v := tunnelData
      · exact ih hnext (hsnoc t _)
      change found name _ = v.asTunnelInfo.filter (·.subdomain == name) at hnext
      cases hv : v.asTunnelInfo with
      | none =>
        rw [hv] at hnext
        simp only [bind_some, hv]
        exact ih hnext (hsnoc t _)
      | some info =>
        simp only [bind_some, hv]
        rw [hv, filter_some] at hnext
        split_ifs at hnext ⊢ with hname
        · exact meets_except_pure ⟨rfl, hnext, hsnoc t _⟩
        · exact ih hnext (hsnoc t _)
    · intro t e e'
      exact ⟨rfl, found_snoc hfound, hsnoc t _⟩

lemma looked_scanLookups {keys : List Key} (hkeys : ∀ key ∈ keys, key.isTunnelLookup = true) :
    Meets (Follows perform) P (Looked w name)
      (scanLookups (fun tunnelInfo => tunnelInfo.subdomain == name) keys).run (w, es) := by
  induction keys generalizing es with
  | nil => exact meets_except_pure ⟨rfl, hfound, hscans⟩
  | cons key keys ih =>
    obtain ⟨hkey, hkeys⟩ := forall_mem_cons.mp hkeys
    have hsnoc (t : Span Wire) (r : Except String (Option Value)) :
        found name (es ++ [⟨t, .redis (.get key), r⟩]) = none ∧
          ∀ e ∈ es ++ [⟨t, .redis (.get key), r⟩], scans e = true := by
      rw [found_snoc hfound, forall_mem_append, forall_mem_singleton]
      cases key with
      | tunnelLookup => exact ⟨rfl, hscans, rfl⟩
      | _ => cases hkey
    refine meets_wire_query (hP es _) ?_ ?_
    · intro t userData _
      obtain ⟨hnext, hscans'⟩ := hsnoc t (.ok userData)
      split
      · rename_i userLookup _
        refine meets_except_seq (looked_findTunnel hP hnext hscans' userLookup.tunnels) ?_ ?_
        · rintro ⟨w', es'⟩ r ⟨rfl, hf, hs⟩
          cases r with
          | some => exact meets_except_pure ⟨rfl, hf, hs⟩
          | none => exact ih hf hs hkeys
        · rintro h' e ⟨hw, hf, hs⟩
          exact ⟨hw, hf, hs⟩
      · exact ih hnext hscans' hkeys
    · intro t e e'
      obtain ⟨hnext, hscans'⟩ := hsnoc t (.error e)
      exact ⟨rfl, hnext, hscans'⟩

end

lemma looked_getTunnelBySubdomain (hP : ∀ es c, P (w, es) c) (name : String) :
    Meets (Follows perform) P (Looked w name) (getTunnelBySubdomain name).run (w, []) := by
  refine meets_wire_query (hP [] _) ?_ ?_
  · intro t keys hl
    exact looked_scanLookups hP rfl (by simp [scans]) (all_eq_true.mp hl)
  · intro t e e'
    exact ⟨rfl, rfl, by simp [scans]⟩

end

section

variable {host : String} {info : TunnelInfo}

lemma authorised_protected (hscans : ∀ e ∈ es, scans e = true) (hfound : found (subdomainFromSni host) es = some info)
    (hp : info.protectedTunnel = true) : Authorised (some host) (es ++ es') ↔
      ∃ buf token, es'.findSome? headRead = some buf ∧ sessionCookie buf = some token ∧
        es'.any (grants (subdomainFromSni host) token) = true := by
  have hhead : es.findSome? headRead = none := by
    rw [List.findSome?_eq_none_iff]
    intro e he
    exact (scans_quiet (hscans e he)).1
  have hgrants (token : String) : es.any (grants (subdomainFromSni host) token) = false := by
    rw [List.any_eq_false]
    intro e he
    simp [(scans_quiet (hscans e he)).2 _ token]
  have hfound' : found (subdomainFromSni host) (es ++ es') = some info := by
    rw [found] at hfound ⊢
    rw [List.findSome?_append, hfound, some_or]
  constructor
  · rintro ⟨host', info', hhost, hinfo, hall⟩
    cases hhost
    cases hfound'.symm.trans hinfo
    simpa [hhead, hgrants] using hall hp
  · intro hall
    refine ⟨host, info, rfl, hfound', fun _ => ?_⟩
    simpa [hhead, hgrants] using hall

def Bounded (w : Wire) : Prop := w.replayBuf.length ≤ maxHeaderBytes + chunkSize

def Gated (host : String) (reads : List Read) (h : Wire × List WireEv) (r : Except RouterOutcome Bytes) : Prop :=
  Bounded h.1 ∧ h.1.received = [] ∧ match r with
    | .ok buf => buf ++ stream h.1.reads = stream reads ∧ Authorised (some host) h.2
    | .error o => (∃ statusLine body, o = .status statusLine body) ∧ ¬ Authorised (some host) h.2

lemma gated_authorize (hP : ∀ w es c, Bounded w → w.received = [] → P (w, es) c) (hscans : ∀ e ∈ es, scans e = true)
    (hfound : found (subdomainFromSni host) es = some info) (hp : info.protectedTunnel = true) :
    Meets (Follows Wire.perform) P (Gated host reads) (authorize (subdomainFromSni host)).run (.opened reads, es) := by
  have hrefused {e : List WireEv} (h : ¬ ∃ buf token, e.findSome? headRead = some buf ∧ sessionCookie buf = some token ∧
      e.any (grants (subdomainFromSni host) token) = true) : ¬ Authorised (some host) (es ++ e) := by
    rwa [authorised_protected hscans hfound hp]
  refine meets_lift_issue (hP _ _ _ (by simp [Bounded, opened]) rfl) ?_
  rintro r h' ⟨o, w', hperf, rfl⟩
  cases o <;> simp only [Wire.perform, reduceCtorEq] at hperf
  rename_i n
  obtain ⟨rfl, rfl⟩ := hperf
  have hbound : (readRequestHead n [] reads).buf.length ≤ maxHeaderBytes + chunkSize :=
    readRequestHead_length (by simp)
  cases hresult : (readRequestHead n [] reads).result with
  | error =>
    simp only [opened, hresult]
    refine meets_throw ⟨hbound, rfl, ⟨_, _, rfl⟩, hrefused ?_⟩
    rintro ⟨buf, token, hhead, -⟩
    cases hhead
  | ok =>
    simp only [opened, hresult]
    dsimp only [Except.map]
    cases hcookie : sessionCookie (readRequestHead n [] reads).buf with
    | none =>
      refine meets_throw ⟨hbound, rfl, ⟨_, _, rfl⟩, hrefused ?_⟩
      rintro ⟨buf, token, hhead, hcookie', -⟩
      cases hhead
      cases hcookie.symm.trans hcookie'
    | some token =>
      refine .call (hP _ _ _ hbound rfl) ?_
      intro granted h' hf
      obtain ⟨-, t, rfl⟩ := follows_redis hf
      rw [append_assoc]
      cases granted with
      | error =>
        refine meets_throw ⟨hbound, rfl, ⟨_, _, rfl⟩, hrefused ?_⟩
        rintro ⟨buf, token', -, -, hgrant⟩
        cases hgrant
      | ok granted =>
        cases granted with
        | false =>
          refine meets_throw ⟨hbound, rfl, ⟨_, _, rfl⟩, hrefused ?_⟩
          rintro ⟨buf, token', -, -, hgrant⟩
          cases hgrant
        | true =>
          refine meets_except_pure ⟨hbound, rfl, readRequestHead_stream hresult, ?_⟩
          rw [authorised_protected hscans hfound hp]
          exact ⟨_, token, rfl, hcookie, by simp [grants]⟩

end

section

structure Underway (sni : Option String) (reads : List Read) (h : Wire × List WireEv) : Prop where
  bounded : Bounded h.1
  unauthorised : ¬ Authorised sni h.2 → h.1.received = []
  inOrder : h.1.received <+: stream reads

structure Routed (sni : Option String) (reads : List Read) (h : Wire × List WireEv) (o : RouterOutcome) : Prop
    extends Underway sni reads h where
  refused : ¬ Authorised sni h.2 → o ≠ .forwarded
  forwarded : o = .forwarded → h.1.received ++ stream h.1.reads = stream reads
  settled : Authorised sni h.2 → o = .forwarded ∨ h.2.any cutShort = true

variable {h : Wire × List WireEv}

lemma underway_of_silent (hb : Bounded h.1) (hr : h.1.received = []) : Underway sni reads h :=
  ⟨hb, fun _ => hr, hr ▸ nil_prefix⟩

lemma routed_of_refused {statusLine body : String} (hb : Bounded h.1) (hr : h.1.received = [])
    (ha : ¬ Authorised sni h.2) : Routed sni reads h (.status statusLine body) :=
  ⟨underway_of_silent hb hr, by rintro _ ⟨⟩, by rintro ⟨⟩, fun h' => absurd h' ha⟩

lemma routed_dialTunnel {info : TunnelInfo} {replayBuf : Bytes} (hb : Bounded w) (hr : w.received = [])
    (hstream : replayBuf ++ stream w.reads = stream reads) (ha : Authorised sni es) :
    Meets (Follows Wire.perform) (fun h _ => Underway sni reads h) (Routed sni reads)
      (dialTunnel info replayBuf) (w, es) := by
  refine .call (underway_of_silent hb hr) ?_
  rintro r h' ⟨o, w', hperf, rfl⟩
  cases o <;> simp only [Wire.perform, reduceCtorEq] at hperf
  simp only [Option.some.injEq, Prod.mk.injEq] at hperf
  obtain ⟨rfl, rfl⟩ := hperf
  rename_i dialed
  match dialed with
  | .error (.failed e) | .error .timeout =>
    exact meets_pure ⟨underway_of_silent hb hr, by rintro _ ⟨⟩, by rintro ⟨⟩, fun _ => .inr (by simp [cutShort])⟩
  | .ok () =>
    have ha' := ha.append [⟨⟨w, w⟩, .dialSlot info, .ok ()⟩]
    dsimp only
    split_ifs with hempty
    · refine meets_pure ⟨underway_of_silent hb hr, fun h => absurd ha' h, fun _ => ?_, fun _ => .inl rfl⟩
      rw [List.isEmpty_iff.mp hempty] at hstream
      rw [hr, hstream]
    · refine .call (underway_of_silent hb hr) ?_
      rintro r h' ⟨o, w', hperf, rfl⟩
      cases o <;> simp only [Wire.perform, reduceCtorEq] at hperf
      · simp only [hr] at hperf
        obtain ⟨rfl, rfl⟩ := hperf
        refine meets_pure ⟨⟨hb, fun h => absurd (ha'.append _) h, ?_⟩, fun h => absurd (ha'.append _) h, fun _ => hstream,
          fun _ => .inl rfl⟩
        exact ⟨_, hstream⟩
      rename_i n e
      simp only [hr] at hperf
      obtain ⟨rfl, rfl⟩ := hperf
      refine meets_pure ⟨⟨hb, fun h => absurd (ha'.append _) h, ?_⟩, by rintro _ ⟨⟩, by rintro ⟨⟩,
        fun _ => .inr (by simp [cutShort])⟩
      rw [← hstream]
      exact (List.take_prefix n replayBuf).trans (List.prefix_append _ _)

lemma routed_handleRouterConnection (sni : Option String) (reads : List Read) :
    Meets (Follows perform) (fun h _ => Underway sni reads h) (Routed sni reads) (handleRouterConnection sni)
      (.opened reads, []) := by
  have hb : Bounded (.opened reads) := by simp [Bounded, opened]
  cases sni with
  | none =>
    refine meets_pure (routed_of_refused hb rfl ?_)
    rintro ⟨host, info, hsni, -⟩
    cases hsni
  | some host =>
    refine meets_seq (looked_getTunnelBySubdomain (fun es c => underway_of_silent hb rfl) (subdomainFromSni host)) ?_
    rintro ⟨w, es⟩ r ⟨rfl, hfound, hscans⟩
    have hunknown (h : found (subdomainFromSni host) es = none) : ¬ Authorised (some host) es := by
      rintro ⟨host', info, hhost, hinfo, -⟩
      cases hhost
      cases h.symm.trans hinfo
    match r with
    | .error e | .ok none => exact meets_pure (routed_of_refused hb rfl (hunknown hfound))
    | .ok (some info) =>
      dsimp only
      split_ifs with hp
      · refine meets_seq (gated_authorize (fun w es c hb hr => underway_of_silent hb hr) hscans hfound hp) ?_
        rintro ⟨w, es'⟩ r ⟨hb', hr, hgate⟩
        cases r with
        | error =>
          obtain ⟨⟨statusLine, body, rfl⟩, ha⟩ := hgate
          exact meets_pure (routed_of_refused hb' hr ha)
        | ok =>
          obtain ⟨hstream, ha⟩ := hgate
          exact routed_dialTunnel hb' hr hstream ha
      · refine routed_dialTunnel hb rfl rfl ⟨host, info, rfl, hfound, fun h => absurd h hp⟩

end

/-- What the slot listener has received at the end; a splice that fails has copied some of the bytes left. -/
inductive Delivered (sni : Option String) (reads : List Read) (es : List WireEv) :
    Option RouterOutcome → (splice : Option ℕ) → Bytes → Prop
  | ended {w : Wire} {res : Option RouterOutcome} {splice : Option ℕ} :
      Attempt perform Eq (.opened reads) (handleRouterConnection sni) es w res → res ≠ some .forwarded →
      Delivered sni reads es res splice w.received
  | spliced {w : Wire} : Attempt perform Eq (.opened reads) (handleRouterConnection sni) es w (some .forwarded) →
      Delivered sni reads es (some .forwarded) none (w.received ++ stream w.reads)
  | cut {w : Wire} {n : ℕ} :
      Attempt perform Eq (.opened reads) (handleRouterConnection sni) es w (some .forwarded) →
      Delivered sni reads es (some .forwarded) (some n) (w.received ++ (stream w.reads).take n)

variable {w' : Wire}

lemma bounded_perform {c : Cmd} {o : WireChoice} {r : c.Reply} (hb : Bounded w) (h : w.perform c o = some (w', r)) :
    Bounded w' := by
  unfold Wire.perform at h
  split at h
  · cases h
    exact readRequestHead_length hb
  · cases h
    exact hb
  · cases h
    exact hb
  · cases h
    exact hb
  · split_ifs at h
    cases h
    exact hb
  · cases h

lemma bounded_attempt {α : Type} {p : Program α} {res : Option α} (hb : Bounded w)
    (h : Attempt perform Eq w p es w' res) : ∀ e ∈ es, Bounded e.span.after := by
  induction h with
  | done | dropped => simp
  | call hd hp _ ih =>
    subst hd
    have hb' := bounded_perform hb hp
    exact forall_mem_cons.mpr ⟨hb', ih hb'⟩

lemma delivered_cases {res : Option RouterOutcome} {splice : Option ℕ} {bytes : Bytes}
    (h : Delivered sni reads es res splice bytes) :
    (∀ e ∈ es, Bounded e.span.after) ∧ (¬ Authorised sni es → bytes = [] ∧ res ≠ some .forwarded) ∧
      bytes <+: stream reads ∧
      (Authorised sni es → res ≠ none → es.any cutShort = false → splice = none → bytes = stream reads) := by
  have hb : Bounded (.opened reads) := by simp [Bounded, opened]
  cases h with
  | @ended w res splice ha hne =>
    obtain ⟨hdone, hdropped⟩ := attempt_meets ha (routed_handleRouterConnection sni reads)
    cases res with
    | none =>
      obtain ⟨-, hu⟩ := hdropped rfl
      exact ⟨bounded_attempt hb ha, fun h => ⟨hu.unauthorised h, hne⟩, hu.inOrder, fun _ h => absurd rfl h⟩
    | some o =>
      have hr := hdone o rfl
      refine ⟨bounded_attempt hb ha, fun h => ⟨hr.unauthorised h, hne⟩, hr.inOrder, ?_⟩
      intro hauth _ hcut _
      obtain rfl | hcut' := hr.settled hauth
      · exact absurd rfl hne
      · cases hcut.symm.trans hcut'
  | @spliced w ha =>
    have hr := (attempt_meets ha (routed_handleRouterConnection sni reads)).1 _ rfl
    refine ⟨bounded_attempt hb ha, fun h => absurd rfl (hr.refused h), ?_, fun _ _ _ _ => hr.forwarded rfl⟩
    simp only [hr.forwarded rfl, prefix_refl]
  | @cut w n ha =>
    have hr := (attempt_meets ha (routed_handleRouterConnection sni reads)).1 _ rfl
    refine ⟨bounded_attempt hb ha, fun h => absurd rfl (hr.refused h), ?_, by rintro _ _ _ ⟨⟩⟩
    rw [← hr.forwarded rfl, prefix_append_right_inj]
    exact take_prefix n _

theorem byte_transparent {res : Option RouterOutcome} {splice : Option ℕ} {bytes : Bytes}
    (h : Delivered sni reads es res splice bytes) :
    (Authorised sni es → bytes <+: stream reads ∧
      (res ≠ none → es.any cutShort = false → splice = none → bytes = stream reads)) ∧
    (¬ Authorised sni es → bytes = [] ∧ res ≠ some .forwarded) ∧
    ∀ e ∈ es, e.span.after.replayBuf.length ≤ 16384 + 2048 := by
  obtain ⟨hbounded, hrefused, hpart, hwhole⟩ := delivered_cases h
  exact ⟨fun ha => ⟨hpart, hwhole ha⟩, hrefused, hbounded⟩

namespace Samples

def piece (bytes : Bytes) (h : bytes ≠ [] ∧ bytes.length ≤ chunkSize) : Read := .data ⟨bytes, h.1, h.2⟩

def record : Tunnel := ⟨"a", "1", "alice", "demo", "demo.fleetingdns.run", 3000, 10000, "01", 1700000000 * second,
  1700001800 * second, .creating, true, .ttlOnly⟩

def granting (token : String) : (c : StoreCmd Key Value) → Except String c.Reply
  | .keys _ => .ok [.tunnelLookup "1"]
  | .get (.tunnelLookup _) => .ok (some (.lookup ⟨"1", "alice", ["a"]⟩))
  | .get (.tunnel _) => .ok (some (.tunnel record))
  | .get _ => .ok none
  | .exist key => .ok (key = .sessionGrant "demo" token)
  | .set _ _ | .setEx _ _ _ | .del _ => .ok ()
  | .setNxEx _ _ _ | .expire _ _ => .ok false

def viewing : List Read :=
  [piece (ascii "GET / HTTP/1.1\r\nCookie: fdns_ses") (by decide), piece (ascii "sion=k\r\n\r\nhel") (by decide),
    piece (ascii "lo") (by decide), .closed]

end Samples

open Samples

theorem byte_transparent_viewing : ∃ es bytes,
    Delivered (some "demo.fleetingdns.run") viewing es (some .forwarded) none bytes ∧
    Authorised (some "demo.fleetingdns.run") es ∧
    bytes = ascii "GET / HTTP/1.1\r\nCookie: fdns_session=k\r\n\r\nhello" := by
  have hrun : ((conduct Wire.perform [.store (granting "k"), .store (granting "k"), .store (granting "k"), .timer 5,
      .store (granting "k"), .dial (.ok ()), .written] (.opened viewing)
      (handleRouterConnection (some "demo.fleetingdns.run"))).any fun x =>
        x.2.2 = some .forwarded && !x.1.any cutShort) = true := by
    decide +kernel
  rw [Option.any_eq_true] at hrun
  obtain ⟨⟨es, w, res⟩, hconduct, hx⟩ := hrun
  simp only [Bool.and_eq_true, decide_eq_true_eq, Bool.not_eq_true'] at hx
  obtain ⟨rfl, hcut⟩ := hx
  have hd := Delivered.spliced (attempt_of_conduct (fun _ => rfl) hconduct)
  obtain ⟨hwhole, hrefused, -⟩ := byte_transparent hd
  have ha : Authorised (some "demo.fleetingdns.run") es := by
    by_contra ha
    exact (hrefused ha).2 rfl
  refine ⟨es, _, hd, ha, ?_⟩
  rw [(hwhole ha).2 (by rintro ⟨⟩) hcut rfl]
  decide

end FleetingDns.EdgeRouter
