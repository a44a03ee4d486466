import FleetingDns.DnsCache
import FleetingDns.Library.ProgramRuns
import Mathlib.Logic.Equiv.List
import Mathlib.Logic.Relation
import Mathlib.Tactic.DeriveCountable
namespace FleetingDns.Dns

open CommandPrograms ThreadPool ServerPool GuardedRuns ExpiringStore Relation Panics DnsState Function.Injective

abbrev Datagram := List UInt8

def headerId : Datagram → Option ℕ
  | high :: low :: _ => some (high.toNat * 256 + low.toNat)
  | _ => none

def marksResponse (packet : Datagram) : Bool := packet[2]?.any fun flags => decide (128 ≤ flags.toNat)

/-- The DNS library takes the id and the type of a message from the header of the packet. -/
structure ReadsHeader (codec : Codec Datagram) : Prop where
  id : ∀ packet m, codec.fromVec packet = some m → headerId packet = some (m.id % 2 ^ 16)
  type : ∀ packet m, codec.fromVec packet = some m → (marksResponse packet = true ↔ m.messageType = .response)

section

variable {Packet : Type} {handler : DnsHandler Packet} {packet : Packet} {s s' : DnsState Packet}
  {es : List (Ev Packet)} {served : Served Packet}

def Served.reply : Served Packet → Option Packet
  | .returned (.ok response) => some response
  | _ => none

def Drifts : DnsState Packet → DnsState Packet → Prop := ReflTransGen fun s s' => ∃ e, s.drift e = some s'

def Ready (handler : DnsHandler Packet) (s : DnsState Packet) (packet : Packet) : Prop :=
  (s.get (handler.generateCacheKey packet)).isSome ∨ (instantAdd s.now handler.cacheTtl).isSome

lemma instantAdd_isSome {now secs : ℕ} : (instantAdd now secs).isSome = true ↔ now / second + secs < 2 ^ 63 := by
  unfold instantAdd
  split_ifs with h <;> simpa using h

lemma drifts_now (h : Drifts s s') : s.now ≤ s'.now := by
  induction h with
  | refl => exact le_rfl
  | tail _ hstep ih =>
    obtain ⟨e, he⟩ := hstep
    exact ih.trans (drift_now he)

lemma drifts_get {key : String} {response : Packet} (h : Drifts s s') (hget : s'.get key = some response) :
    s.get key = some response := by
  rw [get_eq_some] at hget ⊢
  obtain ⟨expiresAt, hl, hlt⟩ := hget
  refine ⟨expiresAt, ?_, (drifts_now h).trans_lt hlt⟩
  clear hlt
  induction h with
  | refl => exact hl
  | tail _ hstep ih =>
    obtain ⟨e, he⟩ := hstep
    exact ih (drift_cache he hl)

lemma perform_total (s : DnsState Packet) (c : DnsCmd Packet) : ∃ o s' r, s.perform c o = some (s', r) := by
  cases c with
  | getCached => exact ⟨.plain, _, _, rfl⟩
  | getConnection => exact ⟨.connection (.ok ()), _, _, rfl⟩
  | redisGet => exact ⟨.read (.ok none), _, _, rfl⟩
  | instantNow | insertCached => exact ⟨.plain, _, _, rfl⟩

lemma drifts_of_eq (s s' : DnsState Packet) (h : s = s') : Drifts s s' := by
  subst h
  exact .refl

variable {D : DnsState Packet → DnsState Packet → Prop}

section

variable (hD : ∀ s s', D s s' → Drifts s s')

include hD

lemma attempt_now {α : Type} {p : Program Packet α} {res : Option α}
    (h : Attempt perform D s p es s' res) : s.now ≤ s'.now := by
  refine attempt_invariant (I := fun x => s.now ≤ x.now) ?_ ?_ h le_rfl
  · intro x x' hd hx
    exact hx.trans (drifts_now (hD x x' hd))
  · intro x c o x' r hp hx
    exact hx.trans (perform_now hp).ge

lemma cacheResponse_attempt {response : Packet} {r : Option Unit}
    (h : Attempt perform D s (handler.cacheResponse packet response) es s' (some r)) :
    ∃ now, s.now ≤ now ∧ now ≤ s'.now ∧ (instantAdd now handler.cacheTtl).isSome = r.isSome := by
  obtain ⟨now, s2, es1, es2, hnow, hrest, -⟩ | ⟨hn, -⟩ := attempt_bind h
  · obtain ⟨s1, o, hd1, hp, -⟩ := attempt_issue hnow
    have heq := perform_instantNow hp
    have hsame := perform_now hp
    refine ⟨now, ?_, ?_, ?_⟩
    · have hle := drifts_now (hD s s1 hd1)
      omega
    · have hle := attempt_now hD hrest
      omega
    cases hadd : instantAdd now handler.cacheTtl with
    | none =>
      simp only [hadd] at hrest
      obtain ⟨-, -, hr⟩ := attempt_ret hrest
      cases hr
      rfl
    | some =>
      simp only [hadd] at hrest
      obtain ⟨u, s3, es3, es4, -, hrest, -⟩ | ⟨hn, -⟩ := attempt_bind hrest
      · obtain ⟨-, -, hr⟩ := attempt_ret hrest
        cases hr
        rfl
      · cases hn
  · cases hn

lemma handlePacket_attempt (h : Attempt perform D s (handler.handlePacket packet) es s' (some served)) :
    (∃ response, served = .returned (.ok response) ∧ Ready handler s packet) ∨
    (served = .panicked ∧ ∃ s1 now, D s s1 ∧ s1.get (handler.generateCacheKey packet) = none ∧ s.now ≤ now ∧ now ≤ s'.now ∧
      instantAdd now handler.cacheTtl = none) := by
  obtain ⟨cached, s2, es1, es2, hget, hrest, -⟩ | ⟨hn, -⟩ := attempt_bind h
  · obtain ⟨s1, o, hd1, hp, -⟩ := attempt_issue hget
    have hcached := perform_getCached hp
    have hle1 := drifts_now (hD s s1 hd1)
    cases cached with
    | some response =>
      obtain ⟨-, -, hserved⟩ := attempt_ret hrest
      refine .inl ⟨response, Option.some.inj hserved, .inl ?_⟩
      rw [drifts_get (hD s s1 hd1) hcached.symm]
      rfl
    | none =>
      obtain ⟨r, s3, es3, es4, hquery, hrest, -⟩ | ⟨hn, -⟩ := attempt_bind hrest
      · obtain ⟨response, rfl, -⟩ :=
          runs_meets (meets_performs (processDnsQuery_obeys (h := []))) (attempt_runs hquery rfl)
        obtain ⟨cached, s4, es5, es6, hcache, hrest, -⟩ | ⟨hn, -⟩ := attempt_bind hrest
        · obtain ⟨now, hlo, hhi, hadd⟩ := cacheResponse_attempt hD hcache
          have hle2 : s.now ≤ s2.now := hle1.trans (perform_now hp).ge
          have hle3 := attempt_now hD hquery
          have hle4 := attempt_now hD hrest
          cases cached with
          | none =>
            obtain ⟨-, -, hserved⟩ := attempt_ret hrest
            have hnone : instantAdd now handler.cacheTtl = none := by simpa using hadd
            exact .inr ⟨Option.some.inj hserved, s1, now, hd1, hcached.symm, by omega, by omega, hnone⟩
          | some =>
            obtain ⟨-, -, hserved⟩ := attempt_ret hrest
            refine .inl ⟨response, Option.some.inj hserved, .inr ?_⟩
            rw [instantAdd_isSome]
            have hadd := instantAdd_isSome.mp hadd
            have hdiv : s.now / second ≤ now / second := Nat.div_le_div_right (by omega)
            omega
        · cases hn
      · cases hn
  · cases hn

end

lemma answered_of_ready (hready : Ready handler s packet) : ∃ es s' response,
    Attempt perform Eq s (handler.handlePacket packet) es s' (some (.returned (.ok response))) ∧
      s'.now = s.now := by
  obtain ⟨es, s', served, h⟩ := attempt_exists perform_total (handler.handlePacket packet) s
  have hnow : s'.now = s.now := by
    refine attempt_invariant (I := fun x => x.now = s.now) ?_ ?_ h rfl
    · rintro x _ rfl hx
      exact hx
    · intro x c o x' r hp hx
      exact (perform_now hp).trans hx
  obtain ⟨response, rfl, -⟩ | ⟨-, s1, now, rfl, hget, hlo, hhi, hadd⟩ := handlePacket_attempt drifts_of_eq h
  · exact ⟨es, s', response, h, hnow⟩
  obtain rfl : now = s.now := by omega
  rcases hready with hhit | hfits
  · rw [hget] at hhit
    cases hhit
  · rw [hadd] at hfits
    cases hfits

lemma silent_iff : (∀ es s' served, Attempt perform Drifts s (handler.handlePacket packet) es s' (some served) →
    served.reply = none) ↔ ¬ Ready handler s packet := by
  constructor
  · intro hsilent hready
    obtain ⟨es, s', response, h, -⟩ := answered_of_ready hready
    have hreply := hsilent es s' _ (attempt_mono drifts_of_eq h)
    cases hreply
  · intro hready es s' served h
    obtain ⟨response, -, hr⟩ | ⟨rfl, -⟩ := handlePacket_attempt (fun _ _ hd => hd) h
    · exact absurd hr hready
    · rfl

end

section

/-- Two servers and the datagrams between them, each with its receiver; the other server stands as its sender. -/
structure Link where
  servers : Bool → DnsState Datagram
  wire : List (Bool × Datagram)
  sent : ℕ

inductive Exchange (handlers : Bool → DnsHandler Datagram) (l : Link) : Link → Prop
  | serve {before after : List (Bool × Datagram)} {receiver : Bool} {packet : Datagram} {es : List (Ev Datagram)}
      {s' : DnsState Datagram} {served : Served Datagram} (inFlight : l.wire = before ++ (receiver, packet) :: after)
      (handled : Attempt perform Drifts (l.servers receiver) ((handlers receiver).handlePacket (packet.take 512))
        es s' (some served)) :
      Exchange handlers l ⟨Function.update l.servers receiver s',
        before ++ after ++ (served.reply.map fun response => (!receiver, response)).toList,
        l.sent + served.reply.toList.length⟩
  | lose {before after : List (Bool × Datagram)} {datagram : Bool × Datagram}
      (inFlight : l.wire = before ++ datagram :: after) : Exchange handlers l ⟨l.servers, before ++ after, l.sent⟩
  | drift {server : Bool} {s' : DnsState Datagram} (drifts : Drifts (l.servers server) s') :
      Exchange handlers l ⟨Function.update l.servers server s', l.wire, l.sent⟩

variable {handlers : Bool → DnsHandler Datagram} {l : Link} {receiver : Bool} {packet : Datagram}

def InRange (handlers : Bool → DnsHandler Datagram) (l : Link) : Prop :=
  ∀ server, (instantAdd (l.servers server).now (handlers server).cacheTtl).isSome

lemma exchange_step (hwire : l.wire = [(receiver, packet)]) (hrange : InRange handlers l) :
    ∃ l' response, Exchange handlers l l' ∧ l'.wire = [(!receiver, response)] ∧ l'.sent = l.sent + 1 ∧
      InRange handlers l' := by
  have hready : Ready (handlers receiver) (l.servers receiver) (packet.take 512) := .inr (hrange receiver)
  obtain ⟨es, s', response, h, hnow⟩ := answered_of_ready hready
  have hserve := @Exchange.serve handlers l [] [] receiver packet es s' _ hwire (attempt_mono drifts_of_eq h)
  refine ⟨_, response, hserve, rfl, rfl, ?_⟩
  intro server
  dsimp only
  by_cases hs : server = receiver
  · subst hs
    rw [Function.update_self, hnow]
    exact hrange server
  · rw [Function.update_of_ne hs]
    exact hrange server

lemma exchange_unbounded (hwire : l.wire = [(receiver, packet)]) (hrange : InRange handlers l) (n : ℕ) :
    ∃ l' receiver' response, ReflTransGen (Exchange handlers) l l' ∧ l'.wire = [(receiver', response)] ∧
      l'.sent = l.sent + n ∧ InRange handlers l' := by
  induction n with
  | zero => exact ⟨l, receiver, packet, .refl, hwire, rfl, hrange⟩
  | succ n ih =>
    obtain ⟨l1, receiver1, packet1, hrun, hwire1, hsent1, hrange1⟩ := ih
    obtain ⟨l2, response, hstep, hwire2, hsent2, hrange2⟩ := exchange_step hwire1 hrange1
    exact ⟨l2, _, response, hrun.tail hstep, hwire2, by omega, hrange2⟩

end

section

variable {handler : DnsHandler Datagram} {packet response : Datagram} {h : List (Ev Datagram)} {w : DnsPool Datagram}

lemma headerId_written (hr : ReadsHeader handler.codec) {m : Message} (hm : m.Writable) :
    headerId (handler.written m) = some (m.id % 2 ^ 16) :=
  hr.id _ m (written_reads hm)

lemma computed_id (hr : ReadsHeader handler.codec) (hc : Computed handler packet h response) :
    headerId response = some (((handler.codec.fromVec packet).map Message.id).getD 0 % 2 ^ 16) := by
  unfold Computed at hc
  cases hq : handler.question packet with
  | none =>
    rw [hq] at hc
    obtain ⟨m, hm, heq, -, hid⟩ := processDnsQuery_asksNothing hq
    rw [heq] at hc
    cases hc
    rw [headerId_written hr hm, hid]
  | some asked =>
    rw [hq] at hc
    obtain ⟨slot, -, rfl⟩ := hc
    rw [headerId_written hr (question_writable hq), reply_id, (question_eq_some.mp hq).1]
    rfl

lemma computed_carries (hr : ReadsHeader handler.codec) (hc : Computed handler packet h response) :
    headerId response = headerId packet ↔
      (handler.codec.fromVec packet).isSome = true ∨ headerId packet = some 0 := by
  rw [computed_id hr hc]
  cases hp : handler.codec.fromVec packet with
  | some m => simp [hr.id packet m hp]
  | none => simp [eq_comm]

lemma reply_computed {now tid : ℕ} {th : DnsThread Datagram}
    (hw : Reach (step (dnsServer handler)) Free (start Datagram now) w) (hth : w.threads[tid]? = some th)
    (hret : th.prog = .ret (.returned (.ok response)))
    (hkey : ∀ u ∈ w.threads, handler.defaultHasher u.call = handler.defaultHasher th.call → u.call = th.call) :
    ∃ h, Computed handler th.call h response := by
  obtain ⟨t, hhit⟩ | hc := (reach_obeys hw).ends hth hret
  · obtain ⟨n, -, -, uid, u, t', hu, hkeyEq, hc, -⟩ := (reach_sourced hw).hit tid th t _ response hth hhit
    have hcall := hkey u (List.mem_of_getElem? hu) (generateCacheKey_inj.mp hkeyEq.symm)
    rw [hcall] at hc
    exact ⟨_, hc⟩
  · exact ⟨_, hc⟩

lemma first_reply {now : ℕ} {s' : DnsState Datagram}
    (hrun : Attempt perform Eq ⟨now, ∅⟩ (handler.handlePacket packet) h s' (some (.returned (.ok response)))) :
    ∃ w, Reach (step (dnsServer handler)) Free (start Datagram now) w ∧
      w.threads = [⟨packet, h, .ret (.returned (.ok response))⟩] := by
  have harrive : step (dnsServer handler) (start Datagram now) (.arrive packet) =
    some ⟨⟨now, ∅⟩, [] ++ [⟨packet, [], handler.handlePacket packet⟩]⟩ := rfl
  exact ⟨_, (Reach.refl.tail trivial harrive).trans (reach_of_attempt (dnsServer handler) hrun rfl [] packet []), rfl⟩

end

theorem answers_are_answered (handlers : Bool → DnsHandler Datagram)
    (hheader : ∀ server, ReadsHeader (handlers server).codec) :
    (∀ server s packet, marksResponse packet = true →
      ((∀ es s' served, Attempt perform Drifts s ((handlers server).handlePacket packet) es s' (some served) →
        served.reply = none) ↔ ¬ Ready (handlers server) s packet)) ∧
    (∀ l receiver packet, l.wire = [(receiver, packet)] → InRange handlers l →
      ∀ n, ∃ l', ReflTransGen (Exchange handlers) l l' ∧ l'.sent = l.sent + n) ∧
    ∀ server now w, Reach (step (dnsServer (handlers server))) Free (start Datagram now) w →
      ∀ (tid : ℕ) th response, w.threads[tid]? = some th → th.prog = .ret (.returned (.ok response)) →
        (∀ u ∈ w.threads, (handlers server).defaultHasher u.call = (handlers server).defaultHasher th.call →
          u.call = th.call) →
        (headerId response = headerId th.call ↔
          ((handlers server).codec.fromVec th.call).isSome = true ∨ headerId th.call = some 0) := by
  refine ⟨?_, ?_, ?_⟩
  · intro server s packet _
    exact silent_iff
  · intro l receiver packet hwire hrange n
    obtain ⟨l', _, _, hrun, -, hsent, -⟩ := exchange_unbounded hwire hrange n
    exact ⟨l', hrun, hsent⟩
  · intro server now w hw tid th response hth hret hkey
    obtain ⟨h, hc⟩ := reply_computed hw hth hret hkey
    exact computed_carries (hheader server) hc

deriving instance Countable for RecordType, MessageType, OpCode, ResponseCode, Net.Ipv4Addr, Net.Ipv6Addr

namespace Schedule

instance countableChar : Countable Char := Function.Injective.countable (f := Char.toNat) fun _ _ h => Char.toNat_inj.mp h

instance countableString : Countable String :=
  Function.Injective.countable (f := String.toList) fun _ _ h => String.toList_injective h

deriving instance Countable for Name, RData

deriving instance Countable for Query, Record

deriving instance Countable for Message

def opCodeNumber : OpCode → ℕ
  | .query => 0
  | .status => 2
  | .notify => 4
  | .update => 5
  | .dso => 6
  | .unknown code => code

def opCodeOf : ℕ → OpCode
  | 0 => .query
  | 2 => .status
  | 4 => .notify
  | 5 => .update
  | 6 => .dso
  | code => .unknown code

def responseCodeNumber : ResponseCode → ℕ
  | .noError => 0
  | .formErr => 1
  | .servFail => 2
  | .nxDomain => 3
  | .other code => code

def responseCodeOf : ℕ → ResponseCode
  | 0 => .noError
  | 1 => .formErr
  | 2 => .servFail
  | 3 => .nxDomain
  | code => .other code

def header (m : Message) : Datagram :=
  [UInt8.ofNat (m.id / 256), UInt8.ofNat m.id,
    UInt8.ofNat ((if m.messageType = .response then 128 else 0) + opCodeNumber m.opCode % 16 * 8),
    UInt8.ofNat (responseCodeNumber m.responseCode % 16), 0, 0, 0, 0, 0, 0, 0, 0]

def ofHeader (packet : Datagram) : Message :=
  ⟨(headerId packet).getD 0, if marksResponse packet then .response else .query,
    opCodeOf ((packet.getD 2 0).toNat / 8 % 16), responseCodeOf ((packet.getD 3 0).toNat % 16), [], [], [], []⟩

noncomputable def number : Message → ℕ := (exists_injective_nat Message).choose

noncomputable def wire (m : Message) : Datagram :=
  header m ++ if ofHeader (header m) = m then [] else List.replicate (number m + 1) 0

lemma wire_injective : Function.Injective wire := by
  intro m m' h
  obtain ⟨hheader, htail⟩ := List.append_inj h rfl
  split_ifs at htail with hm hm' hm'
  · rw [← hm, ← hm', hheader]
  · simp at htail
  · simp at htail
  · have hnumber : number m = number m' := by simpa using congrArg List.length htail
    exact (exists_injective_nat Message).choose_spec hnumber

open Classical in
noncomputable def wireCodec : Codec Datagram where
  fromVec packet := if h : ∃ m : Message, m.Readable ∧ wire m = packet then some h.choose else none
  toVec m := .ok (wire m)
  empty := []
  nameToString := codec.nameToString
  nameToString_ne := codec.nameToString_ne
  readable packet m h := by
    split_ifs at h with hm
    exact Option.some.inj h ▸ hm.choose_spec.1
  faithful m hm := by
    refine ⟨wire m, rfl, ?_⟩
    have h : ∃ m' : Message, m'.Readable ∧ wire m' = wire m := ⟨m, hm.readable, rfl⟩
    rw [dif_pos h, wire_injective h.choose_spec.2]

lemma wireCodec_fromVec {packet : Datagram} {m : Message} :
    wireCodec.fromVec packet = some m ↔ m.Readable ∧ wire m = packet := by
  unfold wireCodec
  dsimp only
  split_ifs with h
  · rw [Option.some.injEq]
    constructor
    · rintro rfl
      exact h.choose_spec
    · rintro ⟨-, hm⟩
      exact wire_injective (h.choose_spec.2.trans hm.symm)
  · simp only [false_iff]
    exact fun hm => h ⟨m, hm⟩

lemma wireCodec_readsHeader : ReadsHeader wireCodec where
  id packet m h := by
    rw [← (wireCodec_fromVec.mp h).2]
    simp only [wire, header, List.cons_append, headerId, UInt8.toNat_ofNat', Option.some.injEq]
    omega
  type packet m h := by
    rw [← (wireCodec_fromVec.mp h).2]
    by_cases hr : m.messageType = .response
    · simp [wire, header, marksResponse, hr]
      omega
    · simp [wire, header, marksResponse, hr]
      omega

noncomputable def udp : DnsHandler Datagram :=
  ⟨wireCodec,
    fun packet => ⟨packet.foldl (fun n byte => n * 256 + byte.toNat) 0 % 2 ^ 64, Nat.mod_lt _ (Nat.two_pow_pos 64)⟩, 300⟩

def empty : DnsState Datagram := ⟨0, ∅⟩

def forged : Datagram := [0x12, 0x34, 0x80, 0, 0, 0, 0, 0, 0, 0, 0, 0]

def cut : Datagram := [0x12, 0x34, 0, 0, 0, 1, 0, 0, 0, 0, 0, 0]

lemma forged_reads : udp.codec.fromVec forged = some ⟨0x1234, .response, .query, .noError, [], [], [], []⟩ := by
  refine wireCodec_fromVec.mpr ⟨by decide, ?_⟩
  have hheader : ofHeader (header ⟨0x1234, .response, .query, .noError, [], [], [], []⟩) =
    ⟨0x1234, .response, .query, .noError, [], [], [], []⟩ := by decide
  decide

lemma cut_unreadable : udp.codec.fromVec cut = none := by
  rw [Option.eq_none_iff_forall_ne_some]
  intro m h
  have hwire := (wireCodec_fromVec.mp h).2
  simp [wire, header, cut] at hwire

lemma ready : Ready udp empty forged ∧ Ready udp empty cut := by
  constructor <;> exact .inr (by decide)

lemma inRange (wire : List (Bool × Datagram)) : InRange (fun _ => udp) ⟨fun _ => empty, wire, 0⟩ := by
  intro server
  change (instantAdd empty.now udp.cacheTtl).isSome = true
  decide

end Schedule

open Dns.Schedule

theorem answers_are_answered_forged :
    (¬ ∀ es s' served, Attempt perform Drifts empty (udp.handlePacket forged) es s' (some served) →
      served.reply = none) ∧
    (∃ l', ReflTransGen (Exchange fun _ => udp) ⟨fun _ => empty, [(true, forged)], 0⟩ l' ∧ l'.sent = 0 + 1000) ∧
    ∃ (w : DnsPool Datagram) (th : DnsThread Datagram) (response : Datagram), w.threads[0]? = some th ∧
      th.prog = .ret (.returned (.ok response)) ∧ headerId response = headerId th.call := by
  obtain ⟨hsilent, hexchange, hids⟩ := answers_are_answered (fun _ => udp) fun _ => wireCodec_readsHeader
  refine ⟨?_, hexchange _ true forged rfl (inRange _) 1000, ?_⟩
  · rw [hsilent true empty forged (by decide), not_not]
    exact ready.1
  · obtain ⟨es, s', response, h, -⟩ := answered_of_ready ready.1
    obtain ⟨w, hw, hthreads⟩ := first_reply h
    have hth : w.threads[0]? = some ⟨forged, es, .ret (.returned (.ok response))⟩ := by rw [hthreads]; rfl
    refine ⟨w, _, response, hth, rfl, (hids true 0 w hw 0 _ response hth rfl ?_).mpr ?_⟩
    · intro u hu _
      rw [hthreads, List.mem_singleton] at hu
      rw [hu]
    · exact .inl (by rw [forged_reads]; rfl)

theorem forged_answers :
    (marksResponse forged = true ∧ ∃ es s' response,
      Attempt perform Drifts empty (udp.handlePacket forged) es s' (some (.returned (.ok response)))) ∧
    (∀ n, ∃ l', ReflTransGen (Exchange fun _ => udp) ⟨fun _ => empty, [(true, forged)], 0⟩ l' ∧ l'.sent = 0 + n) ∧
    (marksResponse cut = false ∧ 12 ≤ cut.length ∧ headerId cut = some 0x1234) ∧ ∃ es s' response,
      Attempt perform Drifts empty (udp.handlePacket cut) es s' (some (.returned (.ok response))) ∧
        headerId response = some 0 := by
  refine ⟨⟨by decide, ?_⟩, ?_, ⟨by decide, by decide, by decide⟩, ?_⟩
  · obtain ⟨es, s', response, h, -⟩ := answered_of_ready ready.1
    exact ⟨es, s', response, attempt_mono drifts_of_eq h⟩
  · intro n
    obtain ⟨l', _, _, hrun, -, hsent, -⟩ := exchange_unbounded rfl (inRange [(true, forged)]) n
    exact ⟨l', hrun, hsent⟩
  · obtain ⟨es, s', response, h, -⟩ := answered_of_ready ready.2
    refine ⟨es, s', response, attempt_mono drifts_of_eq h, ?_⟩
    obtain ⟨w, hw, hthreads⟩ := first_reply h
    have hth : w.threads[0]? = some ⟨cut, es, .ret (.returned (.ok response))⟩ := by rw [hthreads]; rfl
    obtain ⟨h', hc⟩ := reply_computed hw hth rfl (by
      intro u hu _
      rw [hthreads, List.mem_singleton] at hu
      rw [hu])
    rw [computed_id wireCodec_readsHeader hc, cut_unreadable]
    rfl

end FleetingDns.Dns
