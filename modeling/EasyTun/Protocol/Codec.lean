import EasyTun.Protocol.Compress

/-!
# The codec: `EncodePacket`, `ParsePacket`, `DecryptParse` (`internal/protocol/packet.go`)

The two ends of the data path. A sender resets a packet, compresses it if it
may, and encodes it under its `Sender`; a receiver parses the datagram without
a cipher, because a `TypeData` payload may also be a handshake message, and
decrypts it in a second call once it knows the session.

- `encodePacket_wire`: what a sender emits, as header, nonce and sealed body.
- `parsePacket_wire`: what a receiver makes of any such string.
- `decryptRaw_wire`: what decryption then does to both views of the packet,
  `Payload` and `RawData`.
- `encodePacket_clear`, `parsePacket_clear`, `parseControl_clear`: the same for
  packets without a cipher, as on the control connection.
-/

namespace EasyTun.Protocol

open EasyTun.Lib

variable {K : Type}

namespace GamePacket

/-! ## The functions -/

/-- The compression stage of `EncodePacket` (packet.go:231–237). -/
def compressStage (L : Lz4) (g : GamePacket) (pool : Pool) (compress : Bool) :
    GamePacket × Pool :=
  if compress then
    let r := g.compress L pool
    if r.1 then ({ r.2.1 with pType := setCompress r.2.1.pType }, r.2.2)
    else ({ r.2.1 with pType := clearCompress r.2.1.pType }, r.2.2)
  else (g, pool)

/-- `EncodePacket` (packet.go:227–252). -/
def encodePacket (A : Aead K) (L : Lz4) (g : GamePacket) (pool : Pool)
    (control compress : Bool) (cipher : Option (CipherState K)) : Encoded K × Pool :=
  match payloadLengthField g.data.length with
  | none => ({ wire := none, packet := g, cipher := cipher, seals := [] }, pool)
  | some _ =>
    let staged := g.compressStage L pool compress
    match payloadLengthField staged.1.data.length with
    | none =>
      ({ wire := none, packet := staged.1, cipher := cipher, seals := [] }, staged.2)
    | some length =>
      let g := { staged.1 with length := length }
      let data := staged.2.getCap (headerLength + length.toNat) id
      (g.encode A (data.1.upTo 0).bytes control cipher, data.2)

/-- `EncodePacketWithBuffer` (packet.go:254–257). -/
def encodePacketWithBuffer (A : Aead K) (g : GamePacket) (data : Bytes) (control : Bool)
    (cipher : Option (CipherState K)) : Encoded K :=
  g.encode A data control cipher

/-- `ParsePacket` (packet.go:259–278): the datagram is copied into a pooled
buffer, which becomes the packet's `RawData`. -/
def parsePacket (A : Aead K) (g : GamePacket) (pool : Pool) (content : Bytes)
    (parsePayload : Bool) (cipher : Option (CipherState K)) :
    Option ErrorCode × GamePacket × Pool :=
  if content.length > maxPacketSize then (some .packetTooLarge, g, pool)
  else
    let buf := pool.getCap content.length (·.upTo 0)
    let data := (buf.1.upTo content.length).copyAt 0 content
    match ({ g with rawData := some data }).parse A data.bytes parsePayload cipher with
    | (some e, g, _) =>
      (some e, { g with rawData := none, payload := none }, buf.2.put (data.upTo 0))
    | (none, g, bs) => (none, { g with rawData := some (data.copyAt 0 bs) }, buf.2)

/-- The decryption step of `DecryptParse` (packet.go:201–212), in place over the
ciphertext in `RawData`. -/
def decryptRaw (A : Aead K) (g : GamePacket) (cipher : Option (CipherState K)) :
    Option ErrorCode × GamePacket :=
  match cipher with
  | none => (none, g)
  | some cs =>
    if 0 < g.length.toNat then
      let raw := g.rawData.getD (Slice.make 0)
      match A.opened cs.key ((raw.bytes.drop 9).take nonceLength) (raw.bytes.drop headerLength)
          (raw.bytes.take (headerLength - nonceLength)) with
      | none => (some .authFailed, g)
      | some decrypted =>
        (none, { g with payload := some decrypted
                        rawData := some (raw.copyAt headerLength decrypted) })
    else (none, g)

/-- `DecryptParse` (packet.go:200–217). -/
def decryptParse (A : Aead K) (L : Lz4) (g : GamePacket) (pool : Pool)
    (cipher : Option (CipherState K)) : Option ErrorCode × GamePacket × Pool :=
  match g.decryptRaw A cipher with
  | (some e, g) => (some e, g, pool)
  | (none, g) => if compressed g.pType then g.decompress L pool else (none, g, pool)

/-- Without a length nothing is decrypted. -/
theorem decryptRaw_of_length_eq_zero {A : Aead K} {g : GamePacket}
    {cipher : Option (CipherState K)} (h : g.length.toNat = 0) :
    g.decryptRaw A cipher = (none, g) := by
  unfold decryptRaw
  cases cipher with
  | none => rfl
  | some cs => exact if_neg (by omega)

/-- After decryption an unflagged packet is done. -/
theorem decryptParse_plain {A : Aead K} {L : Lz4} {g g' : GamePacket} {pool : Pool}
    {cipher : Option (CipherState K)} (h : g.decryptRaw A cipher = (none, g'))
    (hc : compressed g'.pType = false) : g.decryptParse A L pool cipher = (none, g', pool) := by
  unfold decryptParse
  rw [h]
  simp only [hc]
  rfl

/-- After decryption a flagged packet is decompressed. -/
theorem decryptParse_compressed {A : Aead K} {L : Lz4} {g g' : GamePacket} {pool : Pool}
    {cipher : Option (CipherState K)} (h : g.decryptRaw A cipher = (none, g'))
    (hc : compressed g'.pType = true) :
    g.decryptParse A L pool cipher = g'.decompress L pool := by
  unfold decryptParse
  rw [h]
  simp only [hc]
  rfl

/-! ## The sender -/

/-- **The compression stage** either leaves an unflagged packet alone or swaps
in a compressed block and flags it; it never touches the addresses. -/
theorem compressStage_spec (L : Lz4) (g : GamePacket) (pool : Pool) (compress : Bool)
    (hflag : clearCompress g.pType = g.pType) :
    (¬(compress = true ∧ Compressible L (probeBufLen L pool) g.data) ∧
        (g.compressStage L pool compress).1 = g) ∨
    ((compress = true ∧ Compressible L (probeBufLen L pool) g.data) ∧
      ∃ out l, L.compressBlock g.data (L.compressBlockBound g.data.length) = some out ∧
        0 < out.length ∧ out.length ≤ maxPayloadSize ∧
        (g.compressStage L pool compress).1
          = { g with payload := some out, length := l, pType := setCompress g.pType }) := by
  unfold compressStage
  cases compress with
  | false =>
    refine Or.inl ⟨fun h => (nomatch h.1), rfl⟩
  | true =>
    rw [if_pos rfl]
    rcases compress_spec L g pool with ⟨hr, hg, hn⟩ | ⟨hr, hc, out, hb, h0, -, hmax, hg⟩
    · refine Or.inl ⟨fun h => hn h.2, ?_⟩
      simp only [hr, hg, hflag]
      rfl
    · refine Or.inr ⟨⟨rfl, hc⟩, out, (payloadLengthField out.length).getD 0, hb, h0, hmax, ?_⟩
      simp only [hr, hg]
      rfl

/-- The packet a sender encodes has a length field, whatever compression did. -/
theorem compressStage_lengthField (L : Lz4) (g : GamePacket) (pool : Pool) (compress : Bool)
    (hflag : clearCompress g.pType = g.pType) (hmax : g.data.length ≤ maxPayloadSize) :
    ∃ l, payloadLengthField (g.compressStage L pool compress).1.data.length = some l := by
  rcases compressStage_spec L g pool compress hflag with ⟨-, h⟩ | ⟨-, out, l, -, -, hout, h⟩
  · rw [h]
    exact payloadLengthField_isSome hmax
  · rw [h]
    exact payloadLengthField_isSome hout

/-- The packet `EncodePacket` hands to the body of `encode`, with its length
field; `none` if it is too large. Up to here no counter value is taken. -/
def prepare (L : Lz4) (g : GamePacket) (pool : Pool) (compress : Bool) : Option GamePacket :=
  match payloadLengthField g.data.length with
  | none => none
  | some _ =>
    let staged := (g.compressStage L pool compress).1
    (payloadLengthField staged.data.length).map fun length => { staged with length := length }

/-- **`EncodePacket` in three steps**: prepare the packet, take a counter value,
and run the body of `encode` on both. -/
theorem encodePacket_eq (A : Aead K) (L : Lz4) (g : GamePacket) (pool : Pool)
    (control compress : Bool) (cipher : Option (CipherState K)) {g' : GamePacket}
    (hg' : g.prepare L pool compress = some g') :
    (g.encodePacket A L pool control compress cipher).1 =
      { wire := some (g'.encodeAt A [] control (cipher.map (·.key)) (takeNonce cipher).1).1
        packet := g'
        cipher := (takeNonce cipher).2
        seals := (g'.encodeAt A [] control (cipher.map (·.key)) (takeNonce cipher).1).2 } := by
  unfold prepare at hg'
  cases hl₀ : payloadLengthField g.data.length with
  | none =>
    rw [hl₀] at hg'
    cases hg'
  | some l₀ =>
    cases hl : payloadLengthField (g.compressStage L pool compress).1.data.length with
    | none =>
      rw [hl₀] at hg'
      simp only [hl] at hg'
      cases hg'
    | some l =>
      rw [hl₀] at hg'
      simp only [hl, Option.map_some] at hg'
      cases hg'
      unfold encodePacket
      simp only [hl₀, hl]
      unfold encode
      have hdata : ({ (g.compressStage L pool compress).1 with length := l } : GamePacket).data
          = (g.compressStage L pool compress).1.data := rfl
      rw [hdata, hl]
      rfl

/-- The packet as it goes to `encode`: compressed if it was, with its length
field. -/
def staged (L : Lz4) (g : GamePacket) (pool : Pool) (compress : Bool) : GamePacket :=
  let g := (g.compressStage L pool compress).1
  { g with length := (payloadLengthField g.data.length).getD 0 }

/-- **What `EncodePacket` emits**: associated data, nonce and body of the staged
packet, and the `Seal` call made for it. -/
theorem encodePacket_wire (A : Aead K) (L : Lz4) (g : GamePacket) (pool : Pool)
    (control compress : Bool) (cipher : Option (CipherState K))
    (hflag : clearCompress g.pType = g.pType) (hmax : g.data.length ≤ maxPayloadSize) :
    (g.encodePacket A L pool control compress cipher).1 =
      { wire := some ((g.staged L pool compress).encodeAt A [] control (cipher.map (·.key))
          (takeNonce cipher).1).1
        packet := g.staged L pool compress
        cipher := (takeNonce cipher).2
        seals := ((g.staged L pool compress).encodeAt A [] control (cipher.map (·.key))
          (takeNonce cipher).1).2 } := by
  obtain ⟨l₀, hl₀⟩ := payloadLengthField_isSome hmax
  obtain ⟨l, hl⟩ := compressStage_lengthField L g pool compress hflag hmax
  refine encodePacket_eq A L g pool control compress cipher ?_
  unfold prepare staged
  simp only [hl₀, hl, Option.map_some, Option.getD_some]

/-- The body of a sealed packet is as long as its length field says: the tag
the field always counts is really there. -/
theorem length_wireBody (A : Aead K) (hT : A.Tagged authenticationTagLength) (g : GamePacket)
    (k : K) (c : UInt64) (hl : payloadLengthField g.data.length = some g.length) :
    (wireBody A g false (some k) c).length = g.length.toNat := by
  unfold wireBody
  rcases Nat.eq_zero_or_pos g.data.length with h0 | h0
  · rw [if_neg (by omega)]
    rw [h0, payloadLengthField_zero] at hl
    rw [← Option.some.inj hl]
    rfl
  · obtain ⟨l, hl', hlt⟩ := payloadLengthField_pos h0 (le_maxPayloadSize_of_lengthField hl)
    rw [if_pos h0, Option.some.inj (hl.symm.trans hl'), hlt]
    exact hT ..

theorem staged_lengthField (L : Lz4) (g : GamePacket) (pool : Pool) (compress : Bool)
    (hflag : clearCompress g.pType = g.pType) (hmax : g.data.length ≤ maxPayloadSize) :
    payloadLengthField (g.staged L pool compress).data.length
      = some (g.staged L pool compress).length := by
  obtain ⟨l, hl⟩ := compressStage_lengthField L g pool compress hflag hmax
  unfold staged
  simp only [hl, Option.getD_some]
  exact hl

/-! ## The receiver -/

/-- A body as long as the field says is valid in the lenient mode. -/
theorem validPayloadLength_self (l : UInt16) :
    validPayloadLength l.toNat l .dataCompat = true := by
  unfold validPayloadLength
  by_cases h : l = 0
  · rw [if_pos h, h]
    rfl
  · rw [if_neg h]
    simp

/-- Without a cipher `Parse` writes the datagram back over itself: the buffer keeps
its bytes. -/
theorem bytes_refill (s : Slice) {d : Bytes} (hfill : s.bytes = d) :
    (s.copyAt 0 d).bytes = d := by
  have hlen : s.len = d.length := by rw [← Slice.length_bytes, hfill]
  exact Slice.bytes_copyAt_whole hlen

/-- **`ParsePacket` without a cipher takes what `parseHeader` takes**: the fields come
from the header, `RawData` is the datagram and `Payload` what follows the header. -/
theorem parsePacket_of_header (A : Aead K) (g : GamePacket) (pool : Pool) {d : Bytes} {h : Header}
    (hok : parseHeader d (parseMode d false) = .ok h) :
    ∃ raw pool', g.parsePacket A pool d true (none : Option (CipherState K)) =
        (none, { g.withHeader h with
          payload := some (d.drop headerLength), rawData := some raw }, pool') ∧
      raw.bytes = d := by
  have hfill := Slice.bytes_fill (Pool.le_cap_getCap pool d.length (·.upTo 0))
  unfold parsePacket
  rw [if_neg (Nat.not_lt.mpr (parseHeader_ok hok).2.1)]
  simp only [hfill]
  unfold parse
  rw [Option.isSome_none, hok]
  exact ⟨_, _, rfl, bytes_refill _ hfill⟩

/-- **What `ParsePacket` makes of an encoded data packet**: it accepts, the
header fields come back, `RawData` is the datagram and `Payload` its body. -/
theorem parsePacket_wire (A : Aead K) (g : GamePacket) (pool : Pool) {pType : UInt8}
    (dst src : ByteArr 4) (l : UInt16) (c : UInt64) {body : Bytes}
    (htype : clearCompress pType = typeData) (hbody : body.length = l.toNat) :
    ∃ raw pool', g.parsePacket A pool (wireAd pType dst l ++ (wireNonce src c ++ body)) true
        (none : Option (CipherState K))
      = (none, { src, dst, pType, payload := some body, rawData := some raw, length := l },
          pool') ∧
      raw.bytes = wireAd pType dst l ++ (wireNonce src c ++ body) := by
  have hlt := l.toNat_lt
  have hlen : (wireAd pType dst l ++ (wireNonce src c ++ body)).length
      = headerLength + body.length := by
    rw [List.length_append, List.length_append, length_wireAd, length_wireNonce]
    show 9 + (12 + body.length) = 9 + 12 + body.length
    omega
  have hmode : parseMode (wireAd pType dst l ++ (wireNonce src c ++ body)) false
      = .dataCompat := by
    unfold parseMode
    rw [if_neg (by simp), if_pos]
    refine ⟨by rw [hlen]; unfold headerLength; omega, ?_⟩
    rw [getD_two_wireAd, htype]
  have hhead : parseHeader (wireAd pType dst l ++ (wireNonce src c ++ body))
      (parseMode (wireAd pType dst l ++ (wireNonce src c ++ body)) false)
      = .ok { pType, dst, src, length := l } := by
    rw [hmode]
    refine parseHeader_wire pType dst src l c body _ (fun h => h.2 htype) ?_ ?_
    · unfold maxLengthField
      omega
    · rw [hbody]
      exact validPayloadLength_self l
  obtain ⟨raw, pool', hparse, hraw⟩ := parsePacket_of_header A g pool hhead
  rw [(wire_cuts _ _ _ (length_wireAd ..) (length_wireNonce ..)).2.2] at hparse
  exact ⟨raw, pool', hparse, hraw⟩

/-- **What an accepted datagram looks like** to a receiver without a cipher:
`RawData` is the datagram, `Payload` what follows the header, and the fields are
read from their own bytes. -/
theorem parsePacket_ok {A : Aead K} {g g' : GamePacket} {pool pool' : Pool} {d : Bytes}
    (h : g.parsePacket A pool d true (none : Option (CipherState K)) = (none, g', pool')) :
    headerLength ≤ d.length ∧ ∃ raw : Slice, raw.bytes = d ∧
      g' = { src := .ofBytes 4 (d.drop 9)
             dst := .ofBytes 4 (d.drop 3)
             pType := d.getD 2 0
             payload := some (d.drop headerLength)
             rawData := some raw
             length := UInt16.ofNat (ofBE ((d.drop 7).take 2)) } := by
  have hfill := Slice.bytes_fill (Pool.le_cap_getCap pool d.length (·.upTo 0))
  unfold parsePacket at h
  split at h
  · cases h
  · simp only [hfill] at h
    unfold parse at h
    cases hhead : parseHeader d (parseMode d (none : Option (CipherState K)).isSome) with
    | error e =>
      rw [hhead] at h
      cases h
    | ok hd =>
      obtain ⟨hlen, -, hfields⟩ := parseHeader_ok hhead
      rw [hhead, hfields] at h
      cases h
      refine ⟨hlen, _, ?_, rfl⟩
      exact bytes_refill _ hfill

/-- **What a successful decryption found**: an authentic body behind the header
of `RawData`. -/
theorem decryptRaw_ok {A : Aead K} {g g' : GamePacket} {cs : CipherState K} {raw : Slice}
    (hraw : g.rawData = some raw) (hpos : 0 < g.length.toNat)
    (h : g.decryptRaw A (some cs) = (none, g')) :
    ∃ q raw', A.opened cs.key ((raw.bytes.drop 9).take nonceLength) (raw.bytes.drop headerLength)
        (raw.bytes.take (headerLength - nonceLength)) = some q ∧
      raw'.len = raw.len ∧ g' = { g with payload := some q, rawData := some raw' } := by
  unfold decryptRaw at h
  simp only [hraw, Option.getD_some] at h
  rw [if_pos hpos] at h
  split at h
  · cases h
  · next q hq =>
    cases h
    exact ⟨q, _, hq, Slice.copyAt_len .., rfl⟩

/-- **What decryption does to a packet** whose `RawData` is a wire string with
an authentic body: `Payload` becomes the plaintext, and `RawData` keeps its
length, with the plaintext stored over the ciphertext and the tail of the
ciphertext still behind it. -/
theorem decryptRaw_wire (A : Aead K) (g : GamePacket) (cs : CipherState K) {raw : Slice}
    {ad nonce body q : Bytes} (hraw : g.rawData = some raw)
    (hbytes : raw.bytes = ad ++ (nonce ++ body)) (had : ad.length = 9)
    (hn : nonce.length = 12) (hpos : 0 < g.length.toNat)
    (hopen : A.opened cs.key nonce body ad = some q) (hq : q.length ≤ body.length) :
    ∃ raw', g.decryptRaw A (some cs)
        = (none, { g with payload := some q, rawData := some raw' }) ∧
      raw'.len = raw.len ∧
      raw'.bytes = (ad ++ nonce) ++ (q ++ body.drop q.length) := by
  obtain ⟨h1, h2, h3⟩ := wire_cuts ad nonce body had hn
  have hlen : raw.len = headerLength + body.length := by
    rw [← Slice.length_bytes, hbytes, List.length_append, List.length_append, had, hn]
    show 9 + (12 + body.length) = 9 + 12 + body.length
    omega
  have hhead : (ad ++ nonce).length = headerLength := by
    rw [List.length_append, had, hn]
    rfl
  unfold decryptRaw
  simp only [hraw, Option.getD_some, hbytes, h1, h2, h3, hopen]
  rw [if_pos hpos]
  refine ⟨_, rfl, Slice.copyAt_len .., ?_⟩
  have hassoc : ad ++ (nonce ++ body) = (ad ++ nonce) ++ body := (List.append_assoc ..).symm
  rw [Slice.bytes_copyAt (by omega), hbytes, hassoc, List.take_left' hhead,
    ← List.drop_drop, List.drop_left' hhead]

/-! ## Packets in the clear -/

/-- The length field of a payload that is not too large. -/
def lengthFieldOf (payload : Bytes) : UInt16 := (payloadLengthField payload.length).getD 0

/-- A packet without a cipher on the wire. -/
def clearWire (src dst : ByteArr 4) (pType : UInt8) (payload : Bytes) : Bytes :=
  wireAd pType dst (lengthFieldOf payload) ++ (wireNonce src 0 ++ payload)

theorem length_clearWire (src dst : ByteArr 4) (pType : UInt8) (payload : Bytes) :
    (clearWire src dst pType payload).length = headerLength + payload.length := by
  rw [clearWire, List.length_append, List.length_append, length_wireAd, length_wireNonce,
    ← Nat.add_assoc]
  rfl

theorem drop_clearWire (src dst : ByteArr 4) (pType : UInt8) (payload : Bytes) :
    (clearWire src dst pType payload).drop headerLength = payload :=
  (wire_cuts _ _ _ (length_wireAd ..) (length_wireNonce ..)).2.2

/-- Only a payload that fits into the length field is encoded. -/
theorem le_maxPayloadSize_of_wire {A : Aead K} {L : Lz4} {g : GamePacket} {pool : Pool}
    {control compress : Bool} {cipher : Option (CipherState K)} {data : Bytes}
    (h : (g.encodePacket A L pool control compress cipher).1.wire = some data) :
    g.data.length ≤ maxPayloadSize := by
  unfold encodePacket at h
  cases hlength : payloadLengthField g.data.length with
  | none =>
    rw [hlength] at h
    cases h
  | some length => exact le_maxPayloadSize_of_lengthField hlength

/-- **What `encode` emits without a cipher** into an empty buffer. -/
theorem encode_clear (A : Aead K) (g : GamePacket) (control : Bool)
    (hmax : g.data.length ≤ maxPayloadSize) :
    (g.encode A [] control none).wire = some (clearWire g.src g.dst g.pType g.data) := by
  obtain ⟨l, hl⟩ := payloadLengthField_isSome hmax
  have hfield : lengthFieldOf g.data = l := by rw [lengthFieldOf, hl, Option.getD_some]
  have hbody : wireBody A { g with length := l } control none 0 = g.data := by
    show (if 0 < g.data.length then _ else []) = g.data
    split
    · cases control with
      | true => rfl
      | false => rfl
    · next h0 => exact (List.length_eq_zero_iff.mp (Nat.eq_zero_of_not_pos h0)).symm
  unfold encode
  simp only [hl]
  show some (GamePacket.encodeAt A { g with length := l } [] control none 0).1 = _
  rw [encodeAt_eq, hbody, clearWire, hfield]

/-- Without compression and a cipher, `EncodePacket` emits what `encode` does. -/
theorem encodePacket_plain (A : Aead K) (L : Lz4) (g : GamePacket) (pool : Pool) (control : Bool) :
    (g.encodePacket A L pool control false none).1.wire = (g.encode A [] control none).wire := by
  unfold encodePacket
  cases hl : payloadLengthField g.data.length with
  | none => simp only [encode, hl]
  | some l =>
    have hstage : g.compressStage L pool false = (g, pool) := rfl
    have hempty : (((pool.getCap (headerLength + l.toNat) id).1).upTo 0).bytes = [] :=
      List.length_eq_zero_iff.mp (Slice.length_bytes _)
    have hl' : payloadLengthField ({ g with length := l } : GamePacket).data.length = some l := hl
    simp only [hstage, hl, hempty, encode, hl']

/-- **What `EncodePacket` emits without a cipher**: the payload as it is. -/
theorem encodePacket_clear (A : Aead K) (L : Lz4) (g : GamePacket) (src dst : ByteArr 4)
    (pType : UInt8) {payload : Bytes} (pool : Pool) (control : Bool)
    (hmax : payload.length ≤ maxPayloadSize) :
    ((g.reset src dst pType (some payload)).encodePacket A L pool control false none).1.wire =
      some (clearWire src dst (clearCompress pType) payload) :=
  (encodePacket_plain ..).trans (encode_clear A _ control hmax)

/-- A body as long as a clear payload is valid in the strict mode. -/
theorem validPayloadLength_clear {payload : Bytes} (hmax : payload.length ≤ maxPayloadSize) :
    validPayloadLength payload.length (lengthFieldOf payload) .plaintext = true := by
  unfold lengthFieldOf
  rcases Nat.eq_zero_or_pos payload.length with h0 | h0
  · rw [h0]
    rfl
  · obtain ⟨l, hl, hlt⟩ := payloadLengthField_pos h0 hmax
    have hne : l ≠ 0 := by
      rintro rfl
      rw [UInt16.toNat_zero] at hlt
      omega
    rw [hl, Option.getD_some, validPayloadLength, if_neg hne, hlt]
    rw [if_neg (by omega), Nat.add_sub_cancel]
    exact beq_self_eq_true _

/-- The strict parser takes every clear packet. -/
theorem parseHeader_clear (src dst : ByteArr 4) (pType : UInt8) {payload : Bytes}
    (htype : compressed pType = false) (hmax : payload.length ≤ maxPayloadSize) :
    parseHeader (clearWire src dst pType payload) .plaintext
      = .ok { pType, dst, src, length := lengthFieldOf payload } := by
  refine parseHeader_wire pType dst src _ 0 payload .plaintext ?_ ?_ ?_
  · rintro ⟨h, -⟩
    rw [htype] at h
    cases h
  · exact Nat.le_trans hmax (Nat.sub_le ..)
  · exact validPayloadLength_clear hmax

/-- The lenient mode takes what the strict one takes. -/
theorem validPayloadLength_lenient {n : Nat} {l : UInt16}
    (h : validPayloadLength n l .plaintext = true) : validPayloadLength n l .dataCompat = true := by
  unfold validPayloadLength at h ⊢
  split at h
  · next h0 =>
    rw [if_pos h0]
    exact h
  · next h0 =>
    rw [if_neg h0]
    simp only at h ⊢
    split at h
    · cases h
    · next htag =>
      rw [Bool.or_eq_true, Bool.and_eq_true, decide_eq_true_iff]
      exact Or.inr ⟨Nat.lt_of_not_le htag, h⟩

/-- Without a cipher `parse` picks one of two modes. -/
theorem parseMode_cases (d : Bytes) :
    parseMode d false = .dataCompat ∨ parseMode d false = .plaintext := by
  unfold parseMode
  split
  · next h => cases h
  · split
    · exact Or.inl rfl
    · exact Or.inr rfl

/-- What the strict mode takes, `parse` without a cipher takes. -/
theorem parseHeader_lenient {d : Bytes} {h : Header} (hok : parseHeader d .plaintext = .ok h) :
    parseHeader d (parseMode d false) = .ok h := by
  rcases parseMode_cases d with hmode | hmode
  · obtain ⟨hframed, hlong, hvalid, hfields⟩ := parseHeader_eq_ok.mp hok
    rw [hmode]
    exact parseHeader_eq_ok.mpr ⟨hframed, hlong, validPayloadLength_lenient hvalid, hfields⟩
  · rw [hmode]
    exact hok

/-- **What `ParseControl` makes of a clear packet.** -/
theorem parseControl_clear (g : GamePacket) (src dst : ByteArr 4) (pType : UInt8)
    {payload : Bytes} (htype : compressed pType = false)
    (hmax : payload.length ≤ maxPayloadSize) :
    g.parseControl (clearWire src dst pType payload) =
      (none, { g with src, dst, pType, payload := some payload
                      length := lengthFieldOf payload }) := by
  unfold parseControl
  rw [parseHeader_clear src dst pType htype hmax]
  show (none, _) = _
  rw [show 9 + nonceLength = headerLength from rfl, drop_clearWire]
  rfl

/-- **What `ParsePacket` makes of a clear packet.** -/
theorem parsePacket_clear (A : Aead K) (g : GamePacket) (pool : Pool) (src dst : ByteArr 4)
    (pType : UInt8) {payload : Bytes} (htype : compressed pType = false)
    (hmax : payload.length ≤ maxPayloadSize) :
    ∃ raw pool', g.parsePacket A pool (clearWire src dst pType payload) true
        (none : Option (CipherState K)) =
      (none, { src, dst, pType, payload := some payload, rawData := some raw
               length := lengthFieldOf payload }, pool') := by
  have hhead := parseHeader_lenient (parseHeader_clear src dst pType htype hmax)
  obtain ⟨raw, pool', hparse, -⟩ := parsePacket_of_header A g pool hhead
  rw [drop_clearWire] at hparse
  exact ⟨raw, pool', hparse⟩

end GamePacket

end EasyTun.Protocol
