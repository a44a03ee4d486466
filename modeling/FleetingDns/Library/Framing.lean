import Mathlib.Algebra.Group.Nat.Defs
import Mathlib.Data.List.Basic
namespace FleetingDns.Framing

open UInt8 List

abbrev Bytes := List UInt8

def toBeBytes (n : ℕ) : Bytes := [ofNat (n / 256), ofNat n]

def fromBeBytes : Bytes → ℕ
  | [high, low] => high.toNat * 256 + low.toNat
  | _ => 0

def frame (m : Bytes) : Bytes := toBeBytes m.length ++ m

def Incomplete (stream : Bytes) : Prop := ∀ m rest, m.length < 2 ^ 16 → stream ≠ frame m ++ rest

structure Framed (stream : Bytes) (messages : List Bytes) (tail : Bytes) : Prop where
  stream : stream = messages.flatMap frame ++ tail
  size : ∀ m ∈ messages, m.length < 2 ^ 16
  tail : Incomplete tail

@[simp] lemma length_toBeBytes (n : ℕ) : (toBeBytes n).length = 2 := rfl

@[simp] lemma length_frame (m : Bytes) : (frame m).length = 2 + m.length := by simp [frame]

lemma fromBeBytes_toBeBytes {n : ℕ} (h : n < 2 ^ 16) : fromBeBytes (toBeBytes n) = n := by
  simp only [toBeBytes, fromBeBytes, toNat_ofNat']
  omega

lemma fromBeBytes_lt (bytes : Bytes) : fromBeBytes bytes < 2 ^ 16 := by
  unfold fromBeBytes
  split
  · next high low =>
    have hhigh := high.toNat_lt
    have hlow := low.toNat_lt
    omega
  · omega

lemma toBeBytes_fromBeBytes {bytes : Bytes} (h : bytes.length = 2) : toBeBytes (fromBeBytes bytes) = bytes := by
  match bytes, h with
  | [high, low], _ =>
    have hhigh := high.toNat_lt
    have hlow := low.toNat_lt
    simp only [toBeBytes, fromBeBytes, List.cons.injEq, and_true]
    constructor
    · apply UInt8.toNat_inj.mp
      rw [UInt8.toNat_ofNat']
      omega
    · apply UInt8.toNat_inj.mp
      rw [UInt8.toNat_ofNat']
      omega

lemma frame_of_length {lenBuf buf : Bytes} (hlen : lenBuf.length = 2) (hbuf : buf.length = fromBeBytes lenBuf) :
    frame buf = lenBuf ++ buf := by
  rw [frame, hbuf, toBeBytes_fromBeBytes hlen]

lemma frame_inj {m m' rest rest' : Bytes} (hm : m.length < 2 ^ 16) (hm' : m'.length < 2 ^ 16)
    (h : frame m ++ rest = frame m' ++ rest') : m = m' ∧ rest = rest' := by
  unfold frame at h
  rw [append_assoc, append_assoc] at h
  obtain ⟨hlen, htail⟩ := append_inj h (by simp)
  have hlen := congrArg fromBeBytes hlen
  rw [fromBeBytes_toBeBytes hm, fromBeBytes_toBeBytes hm'] at hlen
  exact append_inj htail hlen

variable {stream tail : Bytes} {messages : List Bytes}

lemma incomplete_of_short (h : stream.length < 2) : Incomplete stream := by
  rintro m rest - rfl
  simp at h
  omega

lemma incomplete_of_lenBuf {lenBuf rest : Bytes} (hlen : lenBuf.length = 2) (h : rest.length < fromBeBytes lenBuf) :
    Incomplete (lenBuf ++ rest) := by
  intro m rest' hm heq
  rw [frame, append_assoc] at heq
  obtain ⟨hbuf, hrest⟩ := append_inj heq (by simp [hlen])
  rw [hbuf, fromBeBytes_toBeBytes hm, hrest, length_append] at h
  omega

lemma framed_nil (h : Incomplete tail) : Framed tail [] tail := ⟨rfl, by simp, h⟩

lemma framed_cons {m : Bytes} (hm : m.length < 2 ^ 16) (h : Framed stream messages tail) :
    Framed (frame m ++ stream) (m :: messages) tail := by
  refine ⟨?_, ?_, h.tail⟩
  · rw [flatMap_cons, append_assoc, ← h.stream]
  · intro m' hm'
    rcases mem_cons.mp hm' with rfl | hm'
    · exact hm
    · exact h.size m' hm'

lemma framed_incomplete (h : Framed stream messages tail) (hi : Incomplete stream) :
    messages = [] ∧ tail = stream := by
  cases messages with
  | nil => exact ⟨rfl, h.stream.symm⟩
  | cons m =>
    refine absurd h.stream ?_
    rw [flatMap_cons, append_assoc]
    exact hi m _ (h.size m (by simp))

lemma framed_frame {m rest : Bytes} (hm : m.length < 2 ^ 16) (h : Framed (frame m ++ rest) messages tail) :
    ∃ messages', messages = m :: messages' ∧ Framed rest messages' tail := by
  cases messages with
  | nil => exact absurd h.stream.symm (h.tail m rest hm)
  | cons m' messages' =>
    have hs := h.stream
    rw [flatMap_cons, append_assoc] at hs
    obtain ⟨rfl, hrest⟩ := frame_inj hm (h.size m' (by simp)) hs
    exact ⟨messages', rfl, hrest, fun x hx => h.size x (mem_cons_of_mem _ hx), h.tail⟩

lemma framed_exists (stream : Bytes) : ∃ messages tail, Framed stream messages tail := by
  induction hn : stream.length using Nat.strongRecOn generalizing stream with
  | ind n ih =>
    by_cases hi : Incomplete stream
    · exact ⟨[], stream, framed_nil hi⟩
    unfold Incomplete at hi
    push Not at hi
    obtain ⟨m, rest, hm, rfl⟩ := hi
    rw [length_append, length_frame] at hn
    obtain ⟨messages, tail, h⟩ := ih rest.length (by omega) rest rfl
    exact ⟨m :: messages, tail, framed_cons hm h⟩

def readExact (n : ℕ) : List Bytes → Option Bytes × List Bytes
  | [] => if n = 0 then (some [], []) else (none, [])
  | chunk :: reads =>
    if n = 0 then (some [], chunk :: reads)
    else if chunk = [] then (none, reads)
    else if n < chunk.length then (some (chunk.take n), chunk.drop n :: reads)
    else match readExact (n - chunk.length) reads with
      | (some bytes, reads) => (some (chunk ++ bytes), reads)
      | (none, reads) => (none, reads)

def Productive (reads : List Bytes) : Prop := ∀ chunk ∈ reads, chunk ≠ []

lemma readExact_spec (n : ℕ) {reads : List Bytes} (hp : Productive reads) :
    (∃ bytes reads', readExact n reads = (some bytes, reads') ∧ bytes.length = n ∧
      reads.flatten = bytes ++ reads'.flatten ∧ Productive reads') ∨
    (readExact n reads = (none, []) ∧ reads.flatten.length < n) := by
  induction reads generalizing n with
  | nil =>
    by_cases hn : n = 0
    · exact .inl ⟨[], [], by simp [readExact, hn], by simp [hn], rfl, hp⟩
    · exact .inr ⟨by simp [readExact, hn], by simp; omega⟩
  | cons chunk reads ih =>
    have hne : chunk ≠ [] := hp chunk (by simp)
    have hp' : Productive reads := fun c hc => hp c (mem_cons_of_mem _ hc)
    by_cases hn : n = 0
    · exact .inl ⟨[], chunk :: reads, by simp [readExact, hn], by simp [hn], rfl, hp⟩
    by_cases hlt : n < chunk.length
    · refine .inl ⟨chunk.take n, chunk.drop n :: reads, by simp [readExact, hn, hne, hlt], ?_, ?_, ?_⟩
      · rw [length_take]
        omega
      · rw [flatten_cons, flatten_cons, ← append_assoc, take_append_drop]
      intro c hc
      rcases mem_cons.mp hc with rfl | hc
      · intro hnil
        have hdrop := congrArg List.length hnil
        rw [length_drop, length_nil] at hdrop
        omega
      · exact hp' c hc
    rcases ih (n - chunk.length) hp' with ⟨bytes, reads', heq, hlen, hflat, hprod⟩ | ⟨heq, hshort⟩
    · refine .inl ⟨chunk ++ bytes, reads', by simp [readExact, hn, hne, hlt, heq], ?_, ?_, hprod⟩
      · rw [length_append]
        omega
      · rw [flatten_cons, hflat, append_assoc]
    · refine .inr ⟨by simp [readExact, hn, hne, hlt, heq], ?_⟩
      rw [flatten_cons, length_append]
      omega

end FleetingDns.Framing
