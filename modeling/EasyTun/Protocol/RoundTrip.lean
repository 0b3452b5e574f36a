import EasyTun.Lib.ChaCha20Poly1305
import EasyTun.Protocol.Codec

/-!
# The data path end to end

What one side encodes and the other side parses and decrypts, in both views of
the received packet.

- `codec_round_trip`: the **`Payload`** view. For every payload, compression
  setting, counter and pool the receiver accepts, recovers the header and ends
  with the payload that was sent.
- `deliver_eq_some_iff`: the **`RawData`** view, which is what the client writes
  to its TUN device. The uncompressed path decrypts in place and never cuts
  `RawData`, so the 16 tag bytes stay behind the packet: the device gets the
  exact packet if and only if it travelled compressed.

Both are assembled from `receive_staged`, which follows one packet through
`ParsePacket` and the decryption step.
-/

namespace EasyTun.Protocol

open EasyTun.Lib GamePacket

variable {K : Type}

/-- A packet on the wire, by its parts. -/
def wireOf (A : Aead K) (s : GamePacket) (k : K) (c : UInt64) : Bytes :=
  wireAd s.pType s.dst s.length ++ (wireNonce s.src c ++ wireBody A s false (some k) c)

/-- **One data packet through the receiver**: it is accepted with its header
and body, and decryption puts its plaintext into `Payload` and, followed by
the untouched tag bytes, behind the header in `RawData`. -/
theorem receive_staged {A : Aead K} (hA : A.Correct) (hT : A.Tagged authenticationTagLength)
    (s g : GamePacket) (k : K) (c r : UInt64) (pool : Pool)
    (htype : clearCompress s.pType = typeData)
    (hl : payloadLengthField s.data.length = some s.length) :
    ∃ g' pool', g.parsePacket A pool (wireOf A s k c) true (none : Option (CipherState K))
        = (none, g', pool') ∧
      g'.src = s.src ∧ g'.dst = s.dst ∧ g'.pType = s.pType ∧
      g'.length.toNat = (wireOf A s k c).length - headerLength ∧
      ∃ raw tag, g'.decryptRaw A (some ⟨k, r⟩)
          = (none, { g' with payload := some s.data, rawData := some raw }) ∧
        raw.bytes = (wireAd s.pType s.dst s.length ++ wireNonce s.src c) ++ (s.data ++ tag) ∧
        tag.length = if s.data.length = 0 then 0 else authenticationTagLength := by
  have hbody := length_wireBody A hT s k c hl
  obtain ⟨raw, pool', hparse, hraw⟩ :=
    parsePacket_wire A g pool s.dst s.src s.length c htype hbody
  refine ⟨_, pool', hparse, rfl, rfl, rfl, ?_, ?_⟩
  · unfold wireOf
    rw [List.length_append, List.length_append, length_wireAd, length_wireNonce, hbody]
    show s.length.toNat = 9 + (12 + s.length.toNat) - (9 + 12)
    omega
  · rcases Nat.eq_zero_or_pos s.data.length with h0 | h0
    · -- nothing was sealed, and the zero length field skips the decryption
      have hnil : s.data = [] := List.length_eq_zero_iff.mp h0
      have hb : wireBody A s false (some k) c = [] := by
        unfold wireBody
        rw [if_neg (by omega)]
      have hl0 : ¬ 0 < s.length.toNat := by
        rw [← hbody, hb]
        exact Nat.lt_irrefl 0
      refine ⟨raw, [], ?_, ?_, ?_⟩
      · unfold decryptRaw
        simp only
        rw [if_neg hl0, hb, hnil]
      · rw [hraw, hb, hnil, List.append_nil, List.append_nil, List.append_nil]
      · rw [if_pos h0]
        rfl
    · have hb : wireBody A s false (some k) c
          = A.sealed k (wireNonce s.src c) s.data (wireAd s.pType s.dst s.length) := by
        unfold wireBody
        rw [if_pos h0]
      have htag := hT k (wireNonce s.src c) s.data (wireAd s.pType s.dst s.length)
      have hpos : 0 < s.length.toNat := by
        rw [← hbody, hb, htag]
        omega
      rw [hb] at hraw hparse ⊢
      obtain ⟨raw', hdec, -, hraw'⟩ := decryptRaw_wire A
        { src := s.src, dst := s.dst, pType := s.pType, length := s.length,
          payload := some _, rawData := some raw } ⟨k, r⟩
        rfl hraw (length_wireAd ..) (length_wireNonce ..) hpos (hA ..) (by rw [htag]; omega)
      refine ⟨raw', _, hdec, hraw', ?_⟩
      rw [if_neg (by omega), List.length_drop, htag]
      omega

/-- The two shapes a staged packet can have after a reset: as it was given, or
compressed and flagged. -/
theorem staged_reset (L : Lz4) (g : GamePacket) (src dst : ByteArr 4) (t : UInt8)
    (p : Option Bytes) (pool : Pool) (compress : Bool) :
    let s := (g.reset src dst t p).staged L pool compress
    s.src = src ∧ s.dst = dst ∧
    ((¬(compress = true ∧ Compressible L (probeBufLen L pool) (p.getD [])) ∧
        s.pType = clearCompress t ∧ s.data = p.getD []) ∨
      ((compress = true ∧ Compressible L (probeBufLen L pool) (p.getD [])) ∧
        s.pType = setCompress (clearCompress t) ∧ s.data ≠ [] ∧
        ∃ n, L.compressBlock (p.getD []) n = some s.data)) := by
  intro s
  rcases compressStage_spec L (g.reset src dst t p) pool compress
    (clearCompress_clearCompress t) with ⟨hn, h⟩ | ⟨hc, out, l, hb, h0, -, h⟩
  · have hs : s = { g.reset src dst t p with
        length := (payloadLengthField (p.getD []).length).getD 0 } := by
      show staged L (g.reset src dst t p) pool compress = _
      rw [staged, h]
      rfl
    rw [hs]
    exact ⟨rfl, rfl, Or.inl ⟨hn, rfl, rfl⟩⟩
  · have hs : s = { g.reset src dst t p with
        payload := some out
        length := (payloadLengthField out.length).getD 0
        pType := setCompress (clearCompress t) } := by
      show staged L (g.reset src dst t p) pool compress = _
      rw [staged, h]
      rfl
    rw [hs]
    refine ⟨rfl, rfl, Or.inr ⟨hc, rfl, fun hnil => ?_, _, hb⟩⟩
    have : out = [] := hnil
    rw [this] at h0
    exact Nat.lt_irrefl 0 h0

/-- Both shapes of a data packet are `TypeData` once the flag is cleared. -/
theorem staged_data_type (L : Lz4) (g : GamePacket) (src dst : ByteArr 4) (p : Option Bytes)
    (pool : Pool) (compress : Bool) :
    clearCompress ((g.reset src dst typeData p).staged L pool compress).pType = typeData := by
  obtain ⟨-, -, ⟨-, ht, -⟩ | ⟨-, ht, -⟩⟩ := staged_reset L g src dst typeData p pool compress
  · rw [ht]
    decide
  · rw [ht]
    decide

/-- The wire string of a data packet. -/
theorem encodePacket_data (A : Aead K) (L : Lz4) (g : GamePacket) (src dst : ByteArr 4)
    (p : Option Bytes) (pool : Pool) (compress : Bool) (k : K) (c : UInt64)
    (hmax : (p.getD []).length ≤ maxPayloadSize) :
    ((g.reset src dst typeData p).encodePacket A L pool false compress (some ⟨k, c⟩)).1.wire
      = some (wireOf A ((g.reset src dst typeData p).staged L pool compress) k c) := by
  rw [encodePacket_wire A L (g.reset src dst typeData p) pool false compress _
    (clearCompress_clearCompress typeData) hmax, encodeAt_eq]
  rfl

/-- **A data packet from `Reset` to `DecryptParse`**: the whole path, with both
views of the received packet. Behind the header `RawData` ends with the payload
and `rest`: nothing on the compressed path, the tag on the other. -/
theorem data_path (A : Aead K) (L : Lz4) (hA : A.Correct)
    (hT : A.Tagged authenticationTagLength) (hL : L.Lossless) (g₀ g₁ : GamePacket)
    (src dst : ByteArr 4) (p : Option Bytes) (hmax : (p.getD []).length ≤ maxPayloadSize)
    (compress : Bool) (k : K) (c r : UInt64) (pool pool' pool'' : Pool) :
    ∃ wire g pool₁,
      ((g₀.reset src dst typeData p).encodePacket A L pool false compress
        (some ⟨k, c⟩)).1.wire = some wire ∧
      g₁.parsePacket A pool' wire true (none : Option (CipherState K)) = (none, g, pool₁) ∧
      g.src = src ∧ g.dst = dst ∧ clearCompress g.pType = typeData ∧
      (compressed g.pType = true ↔
        compress = true ∧ Compressible L (probeBufLen L pool) (p.getD [])) ∧
      g.length.toNat = wire.length - headerLength ∧
      ∃ g' pool₂ buf head rest, g.decryptParse A L pool'' (some ⟨k, r⟩) = (none, g', pool₂) ∧
        g'.payload = some (p.getD []) ∧ g'.rawData = some buf ∧
        buf.bytes = head ++ (p.getD [] ++ rest) ∧ head.length = headerLength ∧
        (compress = true ∧ Compressible L (probeBufLen L pool) (p.getD []) → rest = []) ∧
        (¬(compress = true ∧ Compressible L (probeBufLen L pool) (p.getD [])) →
          0 < (p.getD []).length → rest.length = authenticationTagLength) := by
  have hflag := clearCompress_clearCompress typeData
  have hl := staged_lengthField L (g₀.reset src dst typeData p) pool compress hflag hmax
  have htype := staged_data_type L g₀ src dst p pool compress
  have hwire := encodePacket_data A L g₀ src dst p pool compress k c hmax
  obtain ⟨hs, hd, hshape⟩ := staged_reset L g₀ src dst typeData p pool compress
  generalize (g₀.reset src dst typeData p).staged L pool compress = s at *
  obtain ⟨g, pool₁, hparse, hsrc, hdst, hpt, hlen, raw, tag, hdec, hraw, htag⟩ :=
    receive_staged hA hT s g₁ k c r pool' htype hl
  have hhead : (wireAd s.pType s.dst s.length ++ wireNonce s.src c).length = headerLength := by
    rw [List.length_append, length_wireAd, length_wireNonce]
    rfl
  refine ⟨_, g, pool₁, hwire, hparse, hsrc.trans hs, hdst.trans hd, hpt ▸ htype, ?_, hlen, ?_⟩
  · rw [hpt]
    rcases hshape with ⟨hn, ht, -⟩ | ⟨hc, ht, -⟩
    · rw [ht, compressed_clearCompress]
      exact ⟨fun h => (nomatch h), fun h => absurd h hn⟩
    · rw [ht, compressed_setCompress]
      exact ⟨fun _ => hc, fun _ => rfl⟩
  · rcases hshape with ⟨hn, ht, hdata⟩ | ⟨hc, ht, hne, n, hb⟩
    · -- uncompressed: decryption was the last change to `RawData`
      have hplain : compressed g.pType = false := by rw [hpt, ht, compressed_clearCompress]
      refine ⟨_, _, raw, _, tag, decryptParse_plain hdec hplain, congrArg some hdata, rfl,
        hdata ▸ hraw, hhead, fun h => absurd h hn, fun _ h0 => ?_⟩
      rw [htag, hdata, if_neg (by omega)]
    · -- compressed: `decompress` rebuilds what is behind the header
      have hcomp : compressed g.pType = true := by rw [hpt, ht, compressed_setCompress]
      have hle : headerLength ≤ raw.len := by
        rw [← Slice.length_bytes, hraw, List.length_append, hhead]
        exact Nat.le_add_right ..
      obtain ⟨buf, h1, h2, h3⟩ := decompress_block L
        { g with payload := some s.data, rawData := some raw } pool'' rfl hle
        (hL _ n _ _ hb hne hmax) (Nat.lt_trans (by decide) hc.2.1) hmax
      refine ⟨_, _, buf, _, [], (decryptParse_compressed hdec hcomp).trans
        (Prod.ext h1 (Prod.ext h2 rfl)), rfl, rfl, ?_, hhead, fun _ => rfl,
        fun h => absurd hc h⟩
      rw [h3, hraw, List.take_left' hhead, List.append_nil]

/-! ## The payload view -/

/-- **Codec round trip.** For every payload within the limit, compression
setting, counter and pools: the wire string is accepted, the header fields come
back, the flag says whether `compress` succeeded, the length field is the
length of the ciphertext, and decryption leaves the payload that was sent. -/
theorem codec_round_trip (A : Aead K) (L : Lz4) (hA : A.Correct)
    (hT : A.Tagged authenticationTagLength) (hL : L.Lossless) (g₀ g₁ : GamePacket)
    (src dst : ByteArr 4) (p : Option Bytes) (hmax : (p.getD []).length ≤ maxPayloadSize)
    (compress : Bool) (k : K) (c r : UInt64) (pool pool' pool'' : Pool) :
    ∃ wire g pool₁,
      ((g₀.reset src dst typeData p).encodePacket A L pool false compress
        (some ⟨k, c⟩)).1.wire = some wire ∧
      g₁.parsePacket A pool' wire true (none : Option (CipherState K)) = (none, g, pool₁) ∧
      g.src = src ∧ g.dst = dst ∧ clearCompress g.pType = typeData ∧
      (compressed g.pType = true ↔
        compress = true ∧ ((g₀.reset src dst typeData p).compress L pool).1 = true) ∧
      g.length.toNat = wire.length - headerLength ∧
      (g.decryptParse A L pool'' (some ⟨k, r⟩)).1 = none ∧
      (g.decryptParse A L pool'' (some ⟨k, r⟩)).2.1.data = p.getD [] := by
  obtain ⟨wire, g, pool₁, hw, hparse, hsrc, hdst, htype, hc, hlen, g', pool₂, buf, head, rest,
      hdec, hpay, -⟩ :=
    data_path A L hA hT hL g₀ g₁ src dst p hmax compress k c r pool pool' pool''
  refine ⟨wire, g, pool₁, hw, hparse, hsrc, hdst, htype, ?_, hlen, ?_, ?_⟩
  · rw [compress_eq_true_iff]
    exact hc
  · rw [hdec]
  · rw [hdec]
    show g'.payload.getD [] = _
    rw [hpay]
    rfl

/-- A run of 200 bytes through the real cipher. It travels as a block. -/
theorem codec_round_trip_run :
    ∃ wire g pool₁,
      ((GamePacket.empty.reset (.zero 4) (.zero 4) typeData
        (some (List.replicate 200 7))).encodePacket chacha20Poly1305 Lz4.runs (.fresh 2048) false
        true (some ⟨.zero 32, 5⟩)).1.wire = some wire ∧
      GamePacket.empty.parsePacket chacha20Poly1305 (.fresh 2048) wire true none
        = (none, g, pool₁) ∧
      g.src = .zero 4 ∧ g.dst = .zero 4 ∧ clearCompress g.pType = typeData ∧
      compressed g.pType = true ∧ g.length.toNat = wire.length - headerLength ∧
      (g.decryptParse chacha20Poly1305 Lz4.runs (.fresh 2048) (some ⟨.zero 32, 0⟩)).1 = none ∧
      (g.decryptParse chacha20Poly1305 Lz4.runs (.fresh 2048)
        (some ⟨.zero 32, 0⟩)).2.1.data = List.replicate 200 7 := by
  obtain ⟨wire, g, pool₁, hw, hparse, hsrc, hdst, htype, hcomp, hlen, hdec⟩ :=
    codec_round_trip chacha20Poly1305 Lz4.runs chacha20Poly1305_correct chacha20Poly1305_tagged
      Lz4.runs_lossless .empty .empty (.zero 4) (.zero 4) (some (List.replicate 200 7))
      (by decide +kernel) true (.zero 32) 5 0 (.fresh 2048) (.fresh 2048) (.fresh 2048)
  have hblock : ((GamePacket.empty.reset (.zero 4) (.zero 4) typeData
      (some (List.replicate 200 7))).compress Lz4.runs (.fresh 2048)).1 = true := by
    decide +kernel
  exact ⟨wire, g, pool₁, hw, hparse, hsrc, hdst, htype, hcomp.mpr ⟨rfl, hblock⟩, hlen, hdec⟩

/-! ## The device view -/

/-- `tunSend` (device_linux.go:198–213): what is written to the device for one
buffer from the receive queue. -/
def tunSend (payload : Bytes) : Option Bytes :=
  if payload.length > headerLength then some (payload.drop headerLength) else none

/-- One packet from the sender's TUN device to the receiver's: `Reset` and
`EncodePacket` as `packetSend` calls them, `ParsePacket` and `DecryptParse` as
`packetRecv` does, and `tunSend` on the forwarded `RawData`. -/
def deliver (A : Aead K) (L : Lz4) (g₀ g₁ : GamePacket) (src dst : ByteArr 4) (p : Bytes)
    (compress : Bool) (sender recver : CipherState K) (pool pool' : Pool) : Option Bytes :=
  match ((g₀.reset src dst typeData (some p)).encodePacket A L pool false compress
      (some sender)).1.wire with
  | none => none
  | some wire =>
    match g₁.parsePacket A pool' wire true (none : Option (CipherState K)) with
    | (some _, _, _) => none
    | (none, g, pool') =>
      match g.decryptParse A L pool' (some recver) with
      | (some _, _, _) => none
      | (none, g, _) => g.rawData.bind fun raw => tunSend raw.bytes

/-- What the device gets: the packet and, unless it travelled compressed, the
16 tag bytes that decryption left behind it. -/
theorem deliver_eq (A : Aead K) (L : Lz4) (hA : A.Correct)
    (hT : A.Tagged authenticationTagLength) (hL : L.Lossless) (g₀ g₁ : GamePacket)
    (src dst : ByteArr 4) (p : Bytes) (hmin : 20 ≤ p.length) (hmax : p.length ≤ maxPayloadSize)
    (compress : Bool) (k : K) (c r : UInt64) (pool pool' : Pool) :
    ∃ rest, deliver A L g₀ g₁ src dst p compress ⟨k, c⟩ ⟨k, r⟩ pool pool' = some (p ++ rest) ∧
      (rest = [] ↔ compress = true ∧ Compressible L (probeBufLen L pool) p) := by
  -- the receiver's pool is the one `ParsePacket` left
  obtain ⟨_, _, pool₁, hw₀, hparse₀, -⟩ :=
    data_path A L hA hT hL g₀ g₁ src dst (some p) hmax compress k c r pool pool' pool'
  obtain ⟨wire, g, _, hw, hparse, -, -, -, -, -, g', _, buf, head, rest, hdec, -, hraw, hbytes,
      hhead, hrest, htag⟩ :=
    data_path A L hA hT hL g₀ g₁ src dst (some p) hmax compress k c r pool pool' pool₁
  rw [hw] at hw₀
  cases hw₀
  rw [hparse] at hparse₀
  cases hparse₀
  have hlong : buf.bytes.length > headerLength := by
    rw [hbytes, List.length_append, List.length_append, hhead]
    show headerLength + (p.length + rest.length) > headerLength
    omega
  refine ⟨rest, ?_, ?_, hrest⟩
  · unfold deliver
    rw [hw]
    simp only [hparse, hdec, hraw]
    show tunSend buf.bytes = _
    rw [tunSend, if_pos hlong, hbytes, List.drop_left' hhead]
    rfl
  · intro hnil
    by_contra hn
    have hlen := htag hn (by show 0 < p.length; omega)
    rw [hnil] at hlen
    cases hlen

/-- **The device gets exactly the packet if and only if it travelled
compressed.** Otherwise the tag is written behind it. -/
theorem deliver_eq_some_iff (A : Aead K) (L : Lz4) (hA : A.Correct)
    (hT : A.Tagged authenticationTagLength) (hL : L.Lossless) (g₀ g₁ : GamePacket)
    (src dst : ByteArr 4) (p : Bytes) (hmin : 20 ≤ p.length) (hmax : p.length ≤ maxPayloadSize)
    (compress : Bool) (k : K) (c r : UInt64) (pool pool' : Pool) :
    deliver A L g₀ g₁ src dst p compress ⟨k, c⟩ ⟨k, r⟩ pool pool' = some p ↔
      compress = true ∧ Compressible L (probeBufLen L pool) p := by
  obtain ⟨rest, hout, hrest⟩ :=
    deliver_eq A L hA hT hL g₀ g₁ src dst p hmin hmax compress k c r pool pool'
  rw [hout, ← hrest]
  constructor
  · intro h
    exact List.append_right_eq_self.mp (Option.some.inj h)
  · intro h
    rw [h, List.append_nil]

/-- A packet of 20 bytes is too short to be compressed, whatever the setting. -/
theorem deliver_eq_some_iff_short :
    deliver chacha20Poly1305 Lz4.stored .empty .empty (.zero 4) (.zero 4)
        (List.replicate 20 7) true ⟨.zero 32, 0⟩ ⟨.zero 32, 0⟩ (.fresh 2048) (.fresh 2048)
        = some (List.replicate 20 7) ↔
      true = true ∧ Compressible Lz4.stored (probeBufLen Lz4.stored (.fresh 2048))
        (List.replicate 20 7) :=
  deliver_eq_some_iff chacha20Poly1305 Lz4.stored chacha20Poly1305_correct
    chacha20Poly1305_tagged Lz4.stored_lossless .empty .empty (.zero 4) (.zero 4)
    (List.replicate 20 7) (by decide) (by decide) true (.zero 32) 0 0 (.fresh 2048) (.fresh 2048)

/-- Delivery is not exact in general: a 20-byte packet arrives with the tag
behind it. -/
theorem deliver_not_exact :
    ¬ ∀ (A : Aead (ByteArr 32)) (L : Lz4), A.Correct → A.Tagged authenticationTagLength →
      L.Lossless → ∀ (g₀ g₁ : GamePacket) (src dst : ByteArr 4) (p : Bytes), 20 ≤ p.length →
      p.length ≤ maxPayloadSize → ∀ (compress : Bool) (k : ByteArr 32) (c r : UInt64)
      (pool pool' : Pool),
      deliver A L g₀ g₁ src dst p compress ⟨k, c⟩ ⟨k, r⟩ pool pool' = some p := by
  intro h
  have hexact := h chacha20Poly1305 Lz4.stored chacha20Poly1305_correct chacha20Poly1305_tagged
    Lz4.stored_lossless .empty .empty (.zero 4) (.zero 4) (List.replicate 20 7) (by decide)
    (by decide) false (.zero 32) 0 0 (.fresh 2048) (.fresh 2048)
  obtain ⟨rest, hout, hrest⟩ := deliver_eq chacha20Poly1305 Lz4.stored chacha20Poly1305_correct
    chacha20Poly1305_tagged Lz4.stored_lossless .empty .empty (.zero 4) (.zero 4)
    (List.replicate 20 7) (by decide) (by decide) false (.zero 32) 0 0 (.fresh 2048)
    (.fresh 2048)
  rw [hout] at hexact
  exact absurd (hrest.mp (List.append_right_eq_self.mp (Option.some.inj hexact))).1 (by decide)

end EasyTun.Protocol
