import FleetingDns.Library.Framing
namespace FleetingDns.Dot

open Framing List

variable {σ : Type}

abbrev Handler (σ : Type) := σ → Bytes → Except String Bytes × σ

/-- A connection: the reads to come, the bytes written, and how many of them the peer takes before writing fails. -/
structure Connection (σ : Type) where
  reads : List Bytes
  output : Bytes
  limit : Option ℕ
  state : σ

namespace Connection

def writeAll (conn : Connection σ) (bytes : Bytes) : Bool × Connection σ :=
  match conn.limit with
  | none => (true, { conn with output := conn.output ++ bytes })
  | some limit =>
    if conn.output.length + bytes.length ≤ limit then (true, { conn with output := conn.output ++ bytes })
    else (false, { conn with output := conn.output ++ bytes.take (limit - conn.output.length) })

def loop (handlePacket : Handler σ) : ℕ → Connection σ → Connection σ
  | 0, conn => conn
  | fuel + 1, conn =>
    match readExact 2 conn.reads with
    | (none, reads) => { conn with reads }
    | (some lenBuf, reads) =>
      match readExact (fromBeBytes lenBuf) reads with
      | (none, reads) => { conn with reads }
      | (some buf, reads) =>
        match handlePacket conn.state buf with
        | (.error _, state) => { conn with reads, state }
        | (.ok resp, state) =>
          match writeAll { conn with reads, state } (toBeBytes resp.length) with
          | (false, conn) => conn
          | (true, conn) =>
            match writeAll conn resp with
            | (false, conn) => conn
            | (true, conn) => loop handlePacket fuel conn

/-- Every turn takes bytes off the stream, so one more turn than there are bytes is enough. -/
def serve (handlePacket : Handler σ) (conn : Connection σ) : Connection σ :=
  loop handlePacket (conn.reads.flatten.length + 1) conn

end Connection

inductive Answers (handlePacket : Handler σ) : σ → List Bytes → List Bytes → σ → Prop
  | nil {s : σ} : Answers handlePacket s [] [] s
  | cons {s s' s'' : σ} {m reply : Bytes} {messages replies : List Bytes} (answered : handlePacket s m = (.ok reply, s'))
      (rest : Answers handlePacket s' messages replies s'') :
      Answers handlePacket s (m :: messages) (reply :: replies) s''

/-- How the loop ends: at the end of the stream, at a message the handler refuses, or while its reply is written. -/
inductive Ends (handlePacket : Handler σ) (conn final : Connection σ) (tail : Bytes) (replies : List Bytes) (s : σ) :
    List Bytes → Prop
  | stream (output : final.output = conn.output ++ replies.flatMap frame) (reads : final.reads.flatten = []) :
      Ends handlePacket conn final tail replies s []
  | handler {m : Bytes} {rest : List Bytes} {e : String} {s' : σ} (refused : handlePacket s m = (.error e, s'))
      (output : final.output = conn.output ++ replies.flatMap frame)
      (reads : final.reads.flatten = rest.flatMap frame ++ tail) : Ends handlePacket conn final tail replies s (m :: rest)
  | write {m reply part : Bytes} {rest : List Bytes} {s' : σ} (answered : handlePacket s m = (.ok reply, s'))
      (cut : part <+: frame reply) (proper : part ≠ frame reply)
      (output : final.output = conn.output ++ replies.flatMap frame ++ part)
      (full : conn.limit = some final.output.length)
      (reads : final.reads.flatten = rest.flatMap frame ++ tail) : Ends handlePacket conn final tail replies s (m :: rest)

variable {handlePacket : Handler σ} {conn final : Connection σ} {tail bytes reply : Bytes} {replies rest : List Bytes} {s : σ}

namespace Connection

def Fits (conn : Connection σ) : Prop := ∀ limit, conn.limit = some limit → conn.output.length ≤ limit

lemma writeAll_spec (bytes : Bytes) (hfits : conn.Fits) :
    (conn.writeAll bytes = (true, { conn with output := conn.output ++ bytes }) ∧
      Fits { conn with output := conn.output ++ bytes }) ∨
    ∃ part, conn.writeAll bytes = (false, { conn with output := conn.output ++ part }) ∧ part <+: bytes ∧ part ≠ bytes ∧
      conn.limit = some (conn.output ++ part).length := by
  unfold writeAll
  cases hl : conn.limit with
  | none =>
    refine .inl ⟨rfl, ?_⟩
    intro limit h
    cases h
  | some limit =>
    have hle := hfits limit hl
    by_cases hroom : conn.output.length + bytes.length ≤ limit
    · refine .inl ⟨by simp [hroom], ?_⟩
      intro limit' h
      cases h
      rw [length_append]
      exact hroom
    refine .inr ⟨bytes.take (limit - conn.output.length), by simp [hroom], take_prefix _ _, ?_, ?_⟩
    · intro heq
      have hlen := congrArg List.length heq
      rw [length_take] at hlen
      omega
    · rw [length_append, length_take, Option.some.injEq]
      omega

lemma write_spec (reply : Bytes) (hfits : conn.Fits) :
    (∃ conn', conn.writeAll (toBeBytes reply.length) = (true, conn') ∧
      conn'.writeAll reply = (true, { conn with output := conn.output ++ frame reply }) ∧
      Fits { conn with output := conn.output ++ frame reply }) ∨
    ∃ part conn', part <+: frame reply ∧ part ≠ frame reply ∧ conn.limit = some (conn.output ++ part).length ∧
      conn' = { conn with output := conn.output ++ part } ∧
      (conn.writeAll (toBeBytes reply.length) = (false, conn') ∨
        ∃ conn1, conn.writeAll (toBeBytes reply.length) = (true, conn1) ∧ conn1.writeAll reply = (false, conn')) := by
  obtain ⟨hlen, hfits1⟩ | ⟨part, hlen, hpart, hne, hlimit⟩ := conn.writeAll_spec (toBeBytes reply.length) hfits
  · obtain ⟨hbody, hfits2⟩ | ⟨part, hbody, hpart, hne, hlimit⟩ := writeAll_spec reply hfits1
    · rw [append_assoc] at hbody hfits2
      exact .inl ⟨_, hlen, hbody, hfits2⟩
    dsimp only at hbody hlimit
    rw [append_assoc] at hbody hlimit
    refine .inr ⟨toBeBytes reply.length ++ part, _, ?_, ?_, hlimit, rfl, .inr ⟨_, hlen, hbody⟩⟩
    · exact (prefix_append_right_inj _).mpr hpart
    · intro heq
      exact hne (append_cancel_left heq)
  refine .inr ⟨part, _, hpart.trans (prefix_append _ _), ?_, hlimit, rfl, .inl hlen⟩
  intro heq
  have hle := hpart.length_le
  rw [heq, length_frame, length_toBeBytes] at hle
  have hnil : reply = [] := eq_nil_of_length_eq_zero (by omega)
  rw [hnil, frame, append_nil] at heq
  exact hne (by rw [hnil, heq])

end Connection

open Connection

lemma Ends.shift {conn' : Connection σ} (h : Ends handlePacket conn' final tail replies s rest)
    (houtput : conn'.output = conn.output ++ frame reply) (hlimit : conn'.limit = conn.limit) :
    Ends handlePacket conn final tail (reply :: replies) s rest := by
  have hall : conn'.output ++ replies.flatMap frame = conn.output ++ (reply :: replies).flatMap frame := by
    rw [houtput, flatMap_cons, append_assoc]
  cases h with
  | stream output reads => exact .stream (by rw [output, hall]) reads
  | handler refused output reads => exact .handler refused (by rw [output, hall]) reads
  | write answered cut proper output full reads =>
    exact .write answered cut proper (by rw [output, hall]) (hlimit ▸ full) reads

lemma loop_spec (handlePacket : Handler σ) (conn : Connection σ) {fuel : ℕ}
    (hfuel : conn.reads.flatten.length < fuel) (hp : Productive conn.reads) (hfits : conn.Fits)
    {messages : List Bytes} (hf : Framed conn.reads.flatten messages tail) :
    ∃ answered rest replies s, messages = answered ++ rest ∧ Answers handlePacket conn.state answered replies s ∧
      Ends handlePacket conn (loop handlePacket fuel conn) tail replies s rest := by
  induction fuel generalizing conn messages with
  | zero => omega
  | succ fuel ih =>
    rw [loop]
    obtain ⟨lenBuf, reads1, hread1, hlen, hflat1, hp1⟩ | ⟨hread, hshort⟩ := readExact_spec 2 hp
    · rw [hread1]
      dsimp only
      obtain ⟨buf, reads2, hread2, hbuf, hflat2, hp2⟩ | ⟨hread, hshort⟩ := readExact_spec (fromBeBytes lenBuf) hp1
      · rw [hread2]
        dsimp only
        have hsize : buf.length < 2 ^ 16 := hbuf ▸ fromBeBytes_lt lenBuf
        rw [hflat2, ← append_assoc, ← frame_of_length hlen hbuf] at hflat1
        rw [hflat1] at hf
        obtain ⟨messages', rfl, hf'⟩ := framed_frame hsize hf
        cases hh : handlePacket conn.state buf with
        | mk outcome state =>
          obtain _ | resp := outcome
          · exact ⟨[], _, [], conn.state, rfl, .nil, .handler hh (by simp) hf'.stream⟩
          dsimp only
          have hfits' : Fits { conn with reads := reads2, state } := hfits
          obtain ⟨conn', hwrite1, hwrite2, hfits2⟩ | ⟨part, conn', hpart, hne, hlimit, rfl, hwrite⟩ :=
            write_spec resp hfits'
          · rw [hwrite1]
            dsimp only
            rw [hwrite2]
            have hshorter : reads2.flatten.length < fuel := by
              rw [hflat1, length_append, length_frame] at hfuel
              omega
            obtain ⟨answered, rest, replies, s, rfl, hanswers, hends⟩ :=
              ih { conn with reads := reads2, output := conn.output ++ frame resp, state } hshorter hp2 hfits2 hf'
            refine ⟨buf :: answered, rest, resp :: replies, s, rfl, .cons hh hanswers, ?_⟩
            exact hends.shift rfl rfl
          refine ⟨[], buf :: messages', [], conn.state, rfl, .nil, ?_⟩
          obtain hwrite | ⟨conn1, hwrite1, hwrite2⟩ := hwrite
          · rw [hwrite]
            exact .write hh hpart hne (by simp) hlimit hf'.stream
          · rw [hwrite1]
            dsimp only
            rw [hwrite2]
            exact .write hh hpart hne (by simp) hlimit hf'.stream
      · rw [hread]
        rw [hflat1] at hf
        obtain ⟨rfl, -⟩ := framed_incomplete hf (incomplete_of_lenBuf hlen hshort)
        exact ⟨[], [], [], conn.state, rfl, .nil, .stream (by simp) rfl⟩
    · rw [hread]
      obtain ⟨rfl, -⟩ := framed_incomplete hf (incomplete_of_short hshort)
      exact ⟨[], [], [], conn.state, rfl, .nil, .stream (by simp) rfl⟩

lemma answers_size (hsize : ∀ s m reply s', handlePacket s m = (.ok reply, s') → reply.length ≤ 65535) {s s' : σ}
    {messages : List Bytes} (h : Answers handlePacket s messages replies s') : ∀ reply ∈ replies, reply.length < 2 ^ 16 := by
  induction h with
  | nil => simp
  | cons answered _ ih =>
    intro reply hmem
    rcases mem_cons.mp hmem with rfl | hmem
    · have hle := hsize _ _ _ _ answered
      omega
    · exact ih reply hmem

lemma incomplete_part {part : Bytes} (hsize : reply.length < 2 ^ 16) (hpart : part <+: frame reply)
    (hne : part ≠ frame reply) : Incomplete part := by
  rintro m rest hm rfl
  obtain ⟨more, hmore⟩ := hpart
  rw [append_assoc, ← append_nil (frame reply)] at hmore
  obtain ⟨rfl, hnil⟩ := frame_inj hm hsize hmore
  rw [(append_eq_nil_iff.mp hnil).1, append_nil] at hne
  exact hne rfl

theorem dot_framing (handlePacket : Handler σ)
    (hsize : ∀ s m reply s', handlePacket s m = (.ok reply, s') → reply.length ≤ 65535) (reads : List Bytes)
    (hreads : Productive reads) (limit : Option ℕ) (s : σ) :
    (∃ messages tail, Framed reads.flatten messages tail) ∧
    ∀ messages tail, Framed reads.flatten messages tail →
      ∃ answered rest replies s', messages = answered ++ rest ∧ Answers handlePacket s answered replies s' ∧
        Ends handlePacket ⟨reads, [], limit, s⟩ (serve handlePacket ⟨reads, [], limit, s⟩) tail replies s' rest ∧
        ∃ part, Framed (serve handlePacket ⟨reads, [], limit, s⟩).output replies part := by
  refine ⟨framed_exists _, ?_⟩
  intro messages tail hf
  have hfits : Fits (⟨reads, [], limit, s⟩ : Connection σ) := by
    intro limit' _
    exact Nat.zero_le _
  obtain ⟨answered, rest, replies, s', hmessages, hanswers, hends⟩ :=
    loop_spec handlePacket ⟨reads, [], limit, s⟩ (Nat.lt_succ_self _) hreads hfits hf
  have hreplies := answers_size hsize hanswers
  refine ⟨answered, rest, replies, s', hmessages, hanswers, hends, ?_⟩
  have hempty : Incomplete [] := incomplete_of_short (by simp)
  change Ends handlePacket _ (serve handlePacket ⟨reads, [], limit, s⟩) _ _ _ _ at hends
  cases hends with
  | stream output => exact ⟨[], by rw [output]; simp, hreplies, hempty⟩
  | handler refused output => exact ⟨[], by rw [output]; simp, hreplies, hempty⟩
  | @write m reply part rest' s'' replied cut proper output full reads =>
    have hlt : reply.length < 2 ^ 16 := by
      have hle := hsize _ _ _ _ replied
      omega
    exact ⟨part, by rw [output]; simp, hreplies, incomplete_part hlt cut proper⟩

namespace Schedule

def echo : Handler Unit := fun _ m => (if m.length ≤ 1 then .ok m else .error "refused", ())

lemma echo_size (s : Unit) (m reply : Bytes) (s' : Unit) (h : echo s m = (.ok reply, s')) : reply.length ≤ 65535 := by
  unfold echo at h
  split_ifs at h with hm
  · cases h
    omega
  · cases h

def reads : List Bytes := [[0], [1, 7, 0, 0], [0]]

end Schedule

open Schedule

theorem dot_framing_echo : ∃ answered rest replies s', [[7], []] = answered ++ rest ∧
    Answers echo () answered replies s' ∧
    Ends echo ⟨reads, [], some 4, ()⟩ (serve echo ⟨reads, [], some 4, ()⟩) [0] replies s' rest ∧
    ∃ part, Framed (serve echo ⟨reads, [], some 4, ()⟩).output replies part := by
  have hframed : Framed reads.flatten [[7], []] [0] := ⟨rfl, by decide, incomplete_of_short (by decide)⟩
  exact (dot_framing echo echo_size reads (by unfold Productive; decide) (some 4) ()).2 _ _ hframed

example : (serve echo ⟨reads, [], some 4, ()⟩).output = [0, 1, 7, 0] := by decide

theorem refused_consumed : ¬ ∃ answered replies s', Answers echo () answered replies s' ∧
    (serve echo ⟨[[0, 2, 7, 7]], [], none, ()⟩).output = replies.flatMap frame ∧
    [[0, 2, 7, 7]].flatten = answered.flatMap frame ++ (serve echo ⟨[[0, 2, 7, 7]], [], none, ()⟩).reads.flatten := by
  have hfinal : (serve echo ⟨[[0, 2, 7, 7]], [], none, ()⟩).output = [] ∧
    (serve echo ⟨[[0, 2, 7, 7]], [], none, ()⟩).reads = [] := by decide
  rintro ⟨answered, replies, s', hanswers, houtput, hconsumed⟩
  rw [hfinal.1] at houtput
  rw [hfinal.2] at hconsumed
  cases hanswers with
  | nil => simp at hconsumed
  | cons => simp [frame, toBeBytes] at houtput

end FleetingDns.Dot
