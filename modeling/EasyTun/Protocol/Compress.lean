import EasyTun.Protocol.Packet

/-!
# Compression (`internal/protocol/compress.go`)

LZ4 compression of payloads. The LZ4 library is a parameter (`Lz4`): a block
compressor that is told how long its destination is, its bound, and the
decompressor. `Lz4.Lossless` is the one law the program relies on.

`compress_spec` and `compress_eq_true_iff` say what `compress` can do: either
nothing, or replace the payload by a strictly shorter block, and exactly when.
`decompress_block` is its inverse on the receiving side.
-/

namespace EasyTun.Protocol

open EasyTun.Lib

/-- `pierrec/lz4`: `CompressBlock(src, dst, nil)` as a function of the source
and `len(dst)` (`none` is an error, an empty block the `n = 0` of
incompressible input), `UncompressBlock(src, dst)`, `CompressBlockBound`. -/
structure Lz4 where
  compressBlock : Bytes → Nat → Option Bytes
  uncompressBlock : Bytes → Nat → Option Bytes
  compressBlockBound : Nat → Nat

/-- `UncompressBlock` undoes `CompressBlock` when the destination is large
enough. -/
def Lz4.Lossless (L : Lz4) : Prop :=
  ∀ src n out m, L.compressBlock src n = some out → out ≠ [] → src.length ≤ m →
    L.uncompressBlock out m = some src

/-- LZ4 on input without a repetition: the compressor reports `n = 0`. -/
def Lz4.stored : Lz4 where
  compressBlock _ _ := some []
  uncompressBlock _ _ := none
  compressBlockBound n := n + n / 255 + 16

theorem Lz4.stored_lossless : Lz4.stored.Lossless :=
  fun _ _ _ _ h hne => absurd (Option.some.inj h).symm hne

/-- LZ4 on a run of one byte: the block is the byte and the length of the run. An input that is
no run is stored, and a destination that is too short is an error. -/
def Lz4.runs : Lz4 where
  compressBlock src n :=
    if n < 5 then none
    else if src = List.replicate src.length (src.headD 0) ∧ src.length < 256 ^ 4 then
      some (src.headD 0 :: toBE 4 src.length)
    else some []
  uncompressBlock block n :=
    if ofBE block.tail ≤ n then some (List.replicate (ofBE block.tail) (block.headD 0)) else none
  compressBlockBound n := n + n / 255 + 16

theorem Lz4.runs_lossless : Lz4.runs.Lossless := by
  intro src n out m hout hne hm
  change ite _ _ _ = some out at hout
  split at hout
  · cases hout
  · split at hout
    · next hrun =>
      cases hout
      have hlen : ofBE (toBE 4 src.length) = src.length := ofBE_toBE_of_lt hrun.2
      have hundo : Lz4.runs.uncompressBlock (src.headD 0 :: toBE 4 src.length) m =
          some (List.replicate src.length (src.headD 0)) := by
        simp only [Lz4.runs, List.tail_cons, List.headD_cons, hlen, if_pos hm]
      rw [hundo, ← hrun.1]
    · cases hout
      exact absurd rfl hne

/-- `probeLen` (compress.go:10). -/
def Lz4.probeLen (L : Lz4) : Nat := L.compressBlockBound 64

namespace GamePacket

/-- `compress` (compress.go:14–49): a 64-byte probe, then the whole payload.
The probe buffer keeps the length it came with; every exit after the probe puts
it back (`defer`). -/
def compress (L : Lz4) (g : GamePacket) (pool : Pool) : Bool × GamePacket × Pool :=
  let payloadLen := g.data.length
  if payloadLen ≤ 128 then (false, g, pool)
  else
    let probe := pool.getCap L.probeLen (·.upTo 0)
    let done := fun (p : Pool) => p.put (probe.1.upTo 0)
    match L.compressBlock (g.data.take 64) probe.1.len with
    | none => (false, g, done probe.2)
    | some out =>
      if out.length > 50 then (false, g, done probe.2)
      else
        let bound := L.compressBlockBound payloadLen
        let dst := probe.2.getCap bound (·.upTo 0)
        match L.compressBlock g.data (dst.1.upTo bound).len with
        | none => (false, g, done (dst.2.put (dst.1.upTo 0)))
        | some out =>
          if out.length ≥ payloadLen ∨ out.length = 0 ∨ out.length > maxPayloadSize then
            (false, g, done (dst.2.put (dst.1.upTo 0)))
          else
            (true, { g with payload := some out
                            length := (payloadLengthField out.length).getD 0 },
              done (dst.2.put ⟨g.data, 0, Nat.zero_le _⟩))

/-- `decompress` (compress.go:52–83). The packet's buffer is reused when its
capacity allows, else replaced. -/
def decompress (L : Lz4) (g : GamePacket) (pool : Pool) :
    Option ErrorCode × GamePacket × Pool :=
  let buf := pool.getCap maxPayloadSize (·.upTo 0)
  let dst := buf.1.upTo maxPayloadSize
  let done := fun (p : Pool) => p.put (dst.upTo 0)
  let raw := g.rawData.getD (Slice.make 0)
  match L.uncompressBlock g.data dst.len with
  | none => (some .lz4Failed, g, done buf.2)
  | some out =>
    let n := out.length
    if n = 0 ∨ n > maxPayloadSize then (some (.lz4Length n), g, done buf.2)
    else
      let reqLen := n + headerLength
      if reqLen > raw.cap then
        let tempBuf := ((Slice.make reqLen).copyAt 0 (raw.bytes.take headerLength)).copyAt
          headerLength out
        (none, { g with rawData := some tempBuf
                        payload := some (tempBuf.bytes.drop headerLength) },
          done (buf.2.put (raw.upTo 0)))
      else
        let raw := (raw.upTo reqLen).copyAt headerLength out
        (none, { g with rawData := some raw
                        payload := some (raw.bytes.drop headerLength) }, done buf.2)

/-! ## What compression does -/

/-- The length of the probe buffer a pool yields. -/
def probeBufLen (L : Lz4) (pool : Pool) : Nat := (pool.getCap L.probeLen (·.upTo 0)).1.len

/-- A payload the compressor takes: longer than 128 bytes, its first 64 bytes
fit 50 in a probe buffer of the given length, and the whole gets shorter. -/
def Compressible (L : Lz4) (probeBuf : Nat) (p : Bytes) : Prop :=
  128 < p.length ∧
  (∃ out, L.compressBlock (p.take 64) probeBuf = some out ∧ out.length ≤ 50) ∧
  ∃ out, L.compressBlock p (L.compressBlockBound p.length) = some out ∧
    0 < out.length ∧ out.length < p.length ∧ out.length ≤ maxPayloadSize

/-- The destination of the full pass always has the length of the bound, since
it is re-sliced: unlike the probe, it does not depend on the pool. -/
theorem dst_len (L : Lz4) (n : Nat) (pool : Pool) :
    ((pool.getCap (L.compressBlockBound n) (·.upTo 0)).1.upTo (L.compressBlockBound n)).len
      = L.compressBlockBound n :=
  Slice.upTo_len (Pool.le_cap_getCap ..)

/-- **What `compress` can do**: leave the packet alone, or replace its payload
by the block the compressor gave for it. -/
theorem compress_spec (L : Lz4) (g : GamePacket) (pool : Pool) :
    ((g.compress L pool).1 = false ∧ (g.compress L pool).2.1 = g ∧
        ¬Compressible L (probeBufLen L pool) g.data) ∨
    ((g.compress L pool).1 = true ∧ Compressible L (probeBufLen L pool) g.data ∧
      ∃ out, L.compressBlock g.data (L.compressBlockBound g.data.length) = some out ∧
        0 < out.length ∧ out.length < g.data.length ∧ out.length ≤ maxPayloadSize ∧
        (g.compress L pool).2.1 = { g with payload := some out
                                           length := (payloadLengthField out.length).getD 0 }) := by
  unfold compress
  simp only [dst_len]
  split
  · next h =>
    refine Or.inl ⟨rfl, rfl, ?_⟩
    intro hc
    exact absurd hc.1 (Nat.not_lt.mpr h)
  · next h128 =>
    split
    · next hprobe =>
      refine Or.inl ⟨rfl, rfl, ?_⟩
      rintro ⟨-, ⟨out, ho, -⟩, -⟩
      rw [probeBufLen, hprobe] at ho
      cases ho
    · next probeOut hprobe =>
      split
      · next h50 =>
        refine Or.inl ⟨rfl, rfl, ?_⟩
        rintro ⟨-, ⟨out, ho, hle⟩, -⟩
        rw [probeBufLen, hprobe] at ho
        cases ho
        omega
      · next h50 =>
        split
        · next hfull =>
          refine Or.inl ⟨rfl, rfl, ?_⟩
          rintro ⟨-, -, out, ho, -⟩
          rw [hfull] at ho
          cases ho
        · next out hfull =>
          split
          · next hbad =>
            refine Or.inl ⟨rfl, rfl, ?_⟩
            rintro ⟨-, -, out', ho, hpos, hlt, hmax⟩
            rw [hfull] at ho
            cases ho
            omega
          · next hgood =>
            have h1 : 0 < out.length := by omega
            have h2 : out.length < g.data.length := by omega
            have h3 : out.length ≤ maxPayloadSize := by omega
            exact Or.inr ⟨rfl, ⟨by omega, ⟨probeOut, hprobe, by omega⟩,
              ⟨out, hfull, h1, h2, h3⟩⟩, out, hfull, h1, h2, h3, rfl⟩

/-- `compress` succeeds exactly on compressible payloads. -/
theorem compress_eq_true_iff (L : Lz4) (g : GamePacket) (pool : Pool) :
    (g.compress L pool).1 = true ↔ Compressible L (probeBufLen L pool) g.data := by
  rcases compress_spec L g pool with ⟨h, -, hn⟩ | ⟨h, hc, -⟩
  · rw [h]
    exact ⟨fun h => (nomatch h), fun hc => absurd hc hn⟩
  · exact ⟨fun _ => hc, fun _ => h⟩

/-! ## What decompression does -/

/-- The buffer a packet's payload was parsed into, seen from its parts. -/
theorem take_header_bytes {raw : Slice} {n : Nat} (h : n + headerLength ≤ raw.cap) :
    (raw.upTo (n + headerLength)).bytes.take headerLength = raw.arr.take headerLength :=
  Slice.bytes_upTo_take (Nat.le_add_left ..) h

/-- A body of which the library makes nothing is refused. -/
theorem decompress_nothing {L : Lz4} {g : GamePacket} (pool : Pool)
    (hnothing : (L.uncompressBlock g.data maxPayloadSize).all List.isEmpty = true) :
    (g.decompress L pool).1 ≠ none := by
  have hdst : ((pool.getCap maxPayloadSize (·.upTo 0)).1.upTo maxPayloadSize).len
      = maxPayloadSize := Slice.upTo_len (Pool.le_cap_getCap ..)
  unfold decompress
  simp only [hdst]
  cases hblock : L.uncompressBlock g.data maxPayloadSize with
  | none => exact Option.some_ne_none _
  | some out =>
    rw [hblock] at hnothing
    obtain rfl : out = [] := List.isEmpty_iff.mp hnothing
    exact Option.some_ne_none _

/-- **Decompressing a block** whose plain form is non-empty and within the
limit succeeds on either path, and then both views of the packet show exactly
the plain form behind an unchanged header. -/
theorem decompress_block (L : Lz4) (g : GamePacket) (pool : Pool) {raw : Slice} {p : Bytes}
    (hraw : g.rawData = some raw) (hlen : headerLength ≤ raw.len)
    (hblock : L.uncompressBlock g.data maxPayloadSize = some p)
    (h0 : 0 < p.length) (hmax : p.length ≤ maxPayloadSize) :
    ∃ buf, (g.decompress L pool).1 = none ∧
      (g.decompress L pool).2.1 = { g with rawData := some buf, payload := some p } ∧
      buf.bytes = raw.bytes.take headerLength ++ p := by
  have hdst : ((pool.getCap maxPayloadSize (·.upTo 0)).1.upTo maxPayloadSize).len
      = maxPayloadSize := Slice.upTo_len (Pool.le_cap_getCap ..)
  have hhead : (raw.bytes.take headerLength).length = headerLength := by
    rw [List.length_take, Slice.length_bytes]; omega
  have hok : ¬(p.length = 0 ∨ p.length > maxPayloadSize) := by omega
  unfold decompress
  simp only [hdst, hblock, hraw, Option.getD_some]
  rw [if_neg hok]
  split
  · -- a fresh buffer: the header is copied over, then the plain form
    have hmk : ((Slice.make (p.length + headerLength)).copyAt 0
        (raw.bytes.take headerLength)).bytes.take headerLength
        = raw.bytes.take headerLength := by
      rw [Slice.bytes_copyAt (by rw [hhead, Slice.make_len]; omega), List.take_zero,
        List.nil_append]
      exact List.take_left' hhead
    have hbytes : (((Slice.make (p.length + headerLength)).copyAt 0
        (raw.bytes.take headerLength)).copyAt headerLength p).bytes
        = raw.bytes.take headerLength ++ p := by
      rw [Slice.bytes_copyAt (by rw [Slice.copyAt_len, Slice.make_len]; omega), hmk,
        List.drop_of_length_le (by
          rw [Slice.length_bytes, Slice.copyAt_len, Slice.make_len]; omega),
        List.append_nil]
    refine ⟨_, rfl, ?_, hbytes⟩
    rw [hbytes, List.drop_left' hhead]
  · next hcap =>
    -- the old buffer, re-sliced: the plain form lands behind the old header
    have hcap' : p.length + headerLength ≤ raw.cap := by omega
    have hl : (raw.upTo (p.length + headerLength)).len = p.length + headerLength :=
      Slice.upTo_len hcap'
    have htake : (raw.upTo (p.length + headerLength)).bytes.take headerLength
        = raw.bytes.take headerLength := by
      rw [take_header_bytes hcap', Slice.bytes, List.take_take, Nat.min_eq_left hlen]
    have hbytes : ((raw.upTo (p.length + headerLength)).copyAt headerLength p).bytes
        = raw.bytes.take headerLength ++ p := by
      rw [Slice.bytes_copyAt (by omega), htake,
        List.drop_of_length_le (by rw [Slice.length_bytes]; omega), List.append_nil]
    refine ⟨_, rfl, ?_, hbytes⟩
    rw [hbytes, List.drop_left' hhead]

end GamePacket

end EasyTun.Protocol
