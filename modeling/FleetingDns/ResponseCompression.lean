import FleetingDns.Library.GuardedRuns
import FleetingDns.Library.Tables
namespace FleetingDns.Compression

open GuardedRuns Tables List AList UInt8

abbrev Bytes := List UInt8

structure Zstd where
  encode : ℕ → Bytes → Bytes
  decode : Bytes → Option Bytes
  inverts : ∀ level data, decode (encode level data) = some data

structure CompressionConfig where
  enableCompression : Bool
  (minCompressSize compressionLevel : ℕ)

structure ResponseCompressor where
  config : CompressionConfig
  patternCache : AList fun _ : Bytes => Bytes

structure Call where
  response : Bytes
  encodes : Bool
  keys : List Bytes

/-- The quotient of the lengths, rounded to a double, is below the double nearest to 0.9: the quotient is below the
middle between that double and the one before it. -/
def beneficial (compressed original : ℕ) : Bool := compressed * 2 ^ 54 < 16212958658533785 * original

section

variable (z : Zstd)

namespace ResponseCompressor

def new (config : CompressionConfig) : ResponseCompressor := ⟨config, ∅⟩

section

variable (c : ResponseCompressor) (data : Bytes)

def compressData (encodes : Bool) : Option Bytes :=
  if encodes then some (z.encode c.config.compressionLevel data) else none

def decompressData (decodes : Bool) : Option Bytes := if decodes then z.decode data else none

def makeRoom (cache : AList fun _ : Bytes => Bytes) (keys : List Bytes) : AList fun _ : Bytes => Bytes :=
  if 1000 ≤ cache.keys.length then eraseAll (keys.take 100) cache else cache

def cacheCompressionPattern (original compressed : Bytes) (keys : List Bytes) : ResponseCompressor :=
  { c with patternCache := (makeRoom c.patternCache keys).insert original compressed }

def compressResponse (call : Call) : Bytes × ResponseCompressor :=
  if !c.config.enableCompression then (call.response, c)
  else if call.response.length < c.config.minCompressSize then (call.response, c)
  else
    match c.patternCache.lookup call.response with
    | some cached => (cached, c)
    | none =>
      match c.compressData z call.response call.encodes with
      | none => (call.response, c)
      | some compressed =>
        if beneficial compressed.length call.response.length then
          (compressed, c.cacheCompressionPattern call.response compressed call.keys)
        else (call.response, c)

def decompressResponse (compressed : Bytes) (decodes : Bool) : Bytes :=
  if !c.config.enableCompression then compressed
  else
    match decompressData z compressed decodes with
    | some decompressed => decompressed
    | none => compressed

def step (call : Call) : Option ResponseCompressor :=
  if call.keys.Perm c.patternCache.keys then some (c.compressResponse z call).2 else none

end

end ResponseCompressor

end

namespace ResponseCompressor

variable {z : Zstd} {config : CompressionConfig} {c c' : ResponseCompressor} {call : Call}

structure Filled (z : Zstd) (config : CompressionConfig) (c : ResponseCompressor) : Prop where
  config_eq : c.config = config
  size : c.patternCache.keys.length ≤ 1000
  entries : ∀ k v, c.patternCache.lookup k = some v →
    v = z.encode config.compressionLevel k ∧ beneficial v.length k.length = true

lemma filled_new (z : Zstd) (config : CompressionConfig) : Filled z config (new config) :=
  ⟨rfl, Nat.zero_le _, fun _ _ h => nomatch h⟩

variable {cache : AList fun _ : Bytes => Bytes} {keys : List Bytes}

lemma makeRoom_length (hkeys : keys.Perm cache.keys) (hsize : cache.keys.length ≤ 1000) :
    (makeRoom cache keys).keys.length < 1000 := by
  rw [makeRoom]
  split_ifs with hfull
  · have htake := take_sublist 100 keys
    have hlength : (keys.take 100).length = 100 := by
      rw [length_take, hkeys.length_eq]
      omega
    rw [length_eraseAll (htake.nodup (hkeys.nodup_iff.mpr cache.keys_nodup))]
    · omega
    · intro key hkey
      exact hkeys.mem_iff.mp (htake.subset hkey)
  · omega

lemma filled_cache {original : Bytes} (h : Filled z config c) (hkeys : keys.Perm c.patternCache.keys)
    (hshort : beneficial (z.encode config.compressionLevel original).length original.length = true) :
    Filled z config (c.cacheCompressionPattern original (z.encode config.compressionLevel original) keys) where
  config_eq := h.config_eq
  size := (length_insert_le _ original _).trans (makeRoom_length hkeys h.size)
  entries k v hv := by
    rw [cacheCompressionPattern] at hv
    by_cases hk : k = original
    · subst hk
      rw [lookup_insert, Option.some.injEq] at hv
      subst hv
      exact ⟨rfl, hshort⟩
    · rw [lookup_insert_ne hk] at hv
      rw [makeRoom] at hv
      split_ifs at hv
      · exact h.entries k v (lookup_eraseAll hv)
      · exact h.entries k v hv

def Shrinks (z : Zstd) (c : ResponseCompressor) (call : Call) : Prop :=
  c.config.minCompressSize ≤ call.response.length ∧ (call.response ∈ c.patternCache ∨ call.encodes = true ∧
    beneficial (z.encode c.config.compressionLevel call.response).length call.response.length = true)

lemma filled_step (h : Filled z config c) (hstep : c.step z call = some c') : Filled z config c' := by
  rw [step] at hstep
  split_ifs at hstep with hkeys
  cases hstep
  rw [compressResponse]
  split_ifs
  · exact h
  · exact h
  cases c.patternCache.lookup call.response with
  | some => exact h
  | none =>
    cases hencodes : call.encodes with
    | false => exact h
    | true =>
      simp only [compressData, if_true, h.config_eq]
      split_ifs with hshort
      · exact filled_cache h hkeys hshort
      · exact h

lemma compressResponse_fst (call : Call) (h : Filled z config c) (henabled : config.enableCompression = true) :
    (Shrinks z c call → (c.compressResponse z call).1 = z.encode config.compressionLevel call.response) ∧
    (¬ Shrinks z c call → (c.compressResponse z call).1 = call.response) := by
  rw [compressResponse, Shrinks, h.config_eq, henabled]
  simp only [Bool.not_true, Bool.false_eq_true, if_false]
  by_cases hsize : call.response.length < config.minCompressSize
  · simp only [hsize, if_true, implies_true, and_true]
    omega
  simp only [hsize, if_false, Nat.le_of_not_lt hsize]
  cases hlookup : c.patternCache.lookup call.response with
  | some =>
    have hmem : call.response ∈ c.patternCache := lookup_isSome.mp (by rw [hlookup]; rfl)
    simp only [hmem, true_or, not_true_eq_false, false_implies, and_true, true_implies]
    exact (h.entries _ _ hlookup).1
  | none =>
    have hmem : call.response ∉ c.patternCache := lookup_eq_none.mp hlookup
    simp only [hmem]
    cases call.encodes with
    | false => simp [compressData]
    | true =>
      simp only [compressData, if_true, h.config_eq]
      split_ifs with hshort <;> simp [hshort]

lemma beneficial_ne {r r' : Bytes} (h : beneficial r'.length r.length = true) : r' ≠ r := by
  rintro rfl
  simp only [beneficial, decide_eq_true_eq] at h
  omega

lemma shrinks_ne (h : Filled z config c) (hshrinks : Shrinks z c call) :
    z.encode config.compressionLevel call.response ≠ call.response := by
  rcases hshrinks.2 with hmem | ⟨-, hshort⟩
  · obtain ⟨v, hv⟩ := Option.isSome_iff_exists.mp (lookup_isSome.mpr hmem)
    obtain ⟨rfl, hshort⟩ := h.entries _ _ hv
    exact beneficial_ne hshort
  · rw [h.config_eq] at hshort
    exact beneficial_ne hshort

theorem compression_round_trip (hrun : Reach (step z) Free (new config) c) :
    (∀ call decodes, c.decompressResponse z (c.compressResponse z call).1 decodes = call.response ↔
      config.enableCompression = false ∨ (Shrinks z c call ∧ decodes = true) ∨
      (¬ Shrinks z c call ∧ ∀ other, decodes = true → z.decode call.response = some other → other = call.response)) ∧
    c.patternCache.keys.length ≤ 1000 ∧
    ∀ k v, c.patternCache.lookup k = some v → v = z.encode config.compressionLevel k := by
  have h : Filled z config c := by
    apply hrun.invariant (J := fun _ => True) (fun _ _ => trivial) (filled_new z config)
    intro c call c' _ hfilled _ hstep
    exact filled_step hfilled hstep
  refine ⟨?_, h.size, fun k v hv => (h.entries k v hv).1⟩
  intro call decodes
  cases henabled : config.enableCompression with
  | false =>
    simp [compressResponse, decompressResponse, h.config_eq, henabled]
  | true =>
    obtain ⟨hcompressed, hplain⟩ := compressResponse_fst call h henabled
    rw [decompressResponse, h.config_eq, henabled]
    simp only [Bool.not_true, Bool.false_eq_true, if_false, Bool.true_eq_false, false_or, decompressData]
    by_cases hshrinks : Shrinks z c call
    · have hne := shrinks_ne h hshrinks
      cases decodes <;> simp [hcompressed hshrinks, hshrinks, z.inverts, hne]
    · rw [hplain hshrinks]
      cases decodes with
      | false => simp [hshrinks]
      | true =>
        cases z.decode call.response with
        | none => simp [hshrinks]
        | some => simp [hshrinks]

end ResponseCompressor

namespace Frames

def frame (n : ℕ) (byte : UInt8) : Bytes :=
  [40, 181, 47, 253, 32, n, n * 8 + 3, (n * 8 + 3) / 256, 0].map ofNat ++ [byte]

def decode : Bytes → Option Bytes
  | [] => some []
  | b0 :: b1 :: b2 :: b3 :: b4 :: n :: b6 :: b7 :: b8 :: byte :: rest =>
    if [b0, b1, b2, b3, b4, n, b6, b7, b8, byte] = frame n.toNat byte then
      (decode rest).map (List.replicate n.toNat byte ++ ·)
    else none
  | _ => none

def encode : Bytes → Bytes
  | [] => []
  | byte :: bytes =>
    if bytes.length < 255 ∧ bytes = List.replicate bytes.length byte then frame (bytes.length + 1) byte
    else (byte :: bytes).flatMap (frame 1)

lemma decode_frame {n : ℕ} (hn : n < 256) (byte : UInt8) (rest : Bytes) :
    decode (frame n byte ++ rest) = (decode rest).map (List.replicate n byte ++ ·) := by
  have hnat : (ofNat n).toNat = n := toNat_ofNat_of_lt' hn
  simp only [frame, map_cons, map_nil, cons_append, nil_append, decode, hnat, if_true]

lemma decode_bytes (data : Bytes) : decode (data.flatMap (frame 1)) = some data := by
  induction data with
  | nil => rfl
  | cons byte data ih =>
    rw [flatMap_cons, decode_frame (by decide), ih]
    rfl

lemma decode_encode (data : Bytes) : decode (encode data) = some data := by
  obtain _ | ⟨byte, bytes⟩ := data
  · rfl
  rw [encode]
  split_ifs with hrun
  · have hframe := decode_frame (show bytes.length + 1 < 256 by omega) byte []
    rw [append_nil] at hframe
    rw [hframe, decode, Option.map_some, append_nil, replicate_succ, ← hrun.2]
  · exact decode_bytes (byte :: bytes)

def zstd : Zstd := ⟨fun _ => encode, decode, fun _ => decode_encode⟩

def config : CompressionConfig := ⟨true, 512, 6⟩

def eager : CompressionConfig := ⟨true, 50, 6⟩

def sevens : Call := ⟨List.replicate 100 (ofNat 7), true, []⟩

end Frames

open ResponseCompressor Frames

theorem compression_round_trip_cached : ∃ c, Reach (step zstd) Free (new eager) c ∧
    c.patternCache.lookup sevens.response = some (frame 100 7) ∧
    c.decompressResponse zstd (c.compressResponse zstd sevens).1 true = sevens.response := by
  have hcheck : (((new eager).step zstd sevens).any fun c => c.config.minCompressSize = 50 &&
      c.patternCache.lookup sevens.response = some (frame 100 7)) = true := by decide +kernel
  simp only [Option.any_eq_true, Bool.and_eq_true, decide_eq_true_eq] at hcheck
  obtain ⟨c, hstep, hsize, hlookup⟩ := hcheck
  have hrun : Reach (step zstd) Free (new eager) c := Reach.refl.tail trivial hstep
  have hshrinks : Shrinks zstd c sevens := by
    refine ⟨?_, .inl (lookup_isSome.mp (by rw [hlookup]; rfl))⟩
    rw [hsize]
    decide
  exact ⟨c, hrun, hlookup, ((compression_round_trip hrun).1 sevens true).mpr (.inr (.inl ⟨hshrinks, rfl⟩))⟩

/-- The response is short, so it goes out as it is; but it is a frame that stands for the single byte 7. -/
theorem frame_not_returned : (new config).compressResponse zstd ⟨frame 1 7, true, []⟩ = (frame 1 7, new config) ∧
    (new config).decompressResponse zstd (frame 1 7) true = [7] ∧ frame 1 7 ≠ [7] := by
  refine ⟨rfl, ?_, ?_⟩ <;> decide

end FleetingDns.Compression
