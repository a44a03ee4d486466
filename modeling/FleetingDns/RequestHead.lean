import FleetingDns.EdgeRouter
import FleetingDns.Library.ProgramRuns

namespace FleetingDns.EdgeRouter

open CommandPrograms ExpiringStore LossyText

def maxHeaderBytes : ℕ := 16 * 1024

def chunkSize : ℕ := 2048

structure Chunk where
  bytes : Bytes
  nonempty : bytes ≠ []
  fits : bytes.length ≤ chunkSize

inductive Read where
  | data (chunk : Chunk)
  | closed
  | failed (e : String)

def stream : List Read → Bytes
  | .data chunk :: reads => chunk.bytes ++ stream reads
  | _ => []

def cr : Octet := ⟨13, by decide⟩

def lf : Octet := ⟨10, by decide⟩

def crlfcrlf : Bytes := [cr, lf, cr, lf]

def headComplete (buf : Bytes) : Bool := buf.tails.any crlfcrlf.isPrefixOf

structure HeadRead where
  result : Except String Unit
  buf : Bytes
  rest : List Read

/-- The loop of `read_request_head`; the timer of its caller lets `timer` reads complete. -/
def readRequestHead : ℕ → Bytes → List Read → HeadRead
  | timer, buf, reads =>
    if headComplete buf then ⟨.ok (), buf, reads⟩
    else if buf.length > maxHeaderBytes then ⟨.error "request headers exceed limit", buf, reads⟩
    else match timer, reads with
      | 0, _ => ⟨.error "timed out reading request headers", buf, reads⟩
      | _, [] => ⟨.error "timed out reading request headers", buf, []⟩
      | timer + 1, .data chunk :: rest => readRequestHead timer (buf ++ chunk.bytes) rest
      | _ + 1, .closed :: rest => ⟨.error "connection closed before request headers completed", buf, rest⟩
      | _ + 1, .failed e :: rest => ⟨.error e, buf, rest⟩

/-- A connection at the router: what the client's reads will return, and what the slot listener has received. -/
structure Wire where
  reads : List Read
  (replayBuf received : Bytes)

def listable : (c : StoreCmd Key Value) → Except String c.Reply → Bool
  | .keys p, .ok keys => keys.all p
  | _, _ => true

inductive WireChoice where
  | timer (n : ℕ)
  | dial (r : Except DialError Unit)
  | written
  | broken (n : ℕ) (e : String)
  | store (answer : (c : StoreCmd Key Value) → Except String c.Reply)

namespace Wire

def perform (w : Wire) : (c : Cmd) → WireChoice → Option (Wire × c.Reply)
  | .readRequestHead, .timer n =>
    let head := readRequestHead n w.replayBuf w.reads
    some (⟨head.rest, head.buf, w.received⟩, head.result.map fun _ => head.buf)
  | .dialSlot _, .dial r => some (w, r)
  | .replay bytes, .written => some ({ w with received := w.received ++ bytes }, .ok ())
  -- the write fails after some of the bytes
  | .replay bytes, .broken n e => some ({ w with received := w.received ++ bytes.take n }, .error e)
  | .redis c, .store answer => if listable c (answer c) then some (w, answer c) else none
  | _, _ => none

end Wire

section

variable {n : ℕ} {buf : Bytes} {reads : List Read}

lemma readRequestHead_length (h : buf.length ≤ maxHeaderBytes + chunkSize) :
    (readRequestHead n buf reads).buf.length ≤ maxHeaderBytes + chunkSize := by
  fun_induction readRequestHead n buf reads with
  | case5 buf hc hl n chunk rest ih =>
    have := chunk.fits
    apply ih
    rw [List.length_append]
    omega
  | case1 | case2 | case3 | case4 | case6 | case7 => exact h

lemma readRequestHead_stream (h : (readRequestHead n buf reads).result = .ok ()) :
    (readRequestHead n buf reads).buf ++ stream (readRequestHead n buf reads).rest = buf ++ stream reads := by
  fun_induction readRequestHead n buf reads with
  | case1 => rfl
  | case5 buf hc hl n chunk rest ih => rw [ih h, stream, List.append_assoc]
  | case2 | case3 | case4 | case6 | case7 => cases h

lemma readRequestHead_complete (h : (readRequestHead n buf reads).result = .ok ()) :
    headComplete (readRequestHead n buf reads).buf = true := by
  fun_induction readRequestHead n buf reads with
  | case1 n buf reads hc => exact hc
  | case5 buf hc hl n chunk rest ih => exact ih h
  | case2 | case3 | case4 | case6 | case7 => cases h

end

end FleetingDns.EdgeRouter
