import EasyTun.Lib.ChaCha20Poly1305
import EasyTun.Protocol.Codec

/-!
# The wire grammar

Which byte strings are packets, said without the parser: a header with the magic
number, a compression flag only on data packets, and a length field that fits the
length of the string.

- `Strict`: the length field counts an authentication tag that is not there, or is
  zero for an empty payload. `Lenient`: it counts the body as it is, which only data
  packets may do.
- `parsers_accept_grammar`: **`ParseControl` takes exactly the strict strings and
  `ParsePacket` without a cipher the strict and the lenient ones**; they read the same
  from what both take, and a strict string is what its packet is encoded to, but for
  the counter.
- `clear_codec`: **what is encoded without a cipher is parsed back** by both parsers,
  for every payload that fits, and a payload that does not is not encoded.
-/

namespace EasyTun.Protocol

open EasyTun.Lib

variable {K : Type}

/-! ## Length fields -/

/-- The length field of a string. -/
def wireLength (d : Bytes) : Nat := ofBE ((d.drop 7).take 2)

/-- Two bytes fit into the field of a packet. -/
theorem toNat_headerOf_length {d : Bytes} (hlen : headerLength ≤ d.length) :
    (headerOf d).length.toNat = wireLength d := by
  have htake : ((d.drop 7).take 2).length = 2 := by
    rw [List.length_take, List.length_drop]
    unfold headerLength nonceLength at hlen
    omega
  have hlt := ofBE_lt ((d.drop 7).take 2)
  rw [htake] at hlt
  exact UInt16.toNat_ofNat_of_lt hlt

theorem wireLength_lt {d : Bytes} (hlen : headerLength ≤ d.length) : wireLength d < 2 ^ 16 := by
  rw [← toNat_headerOf_length hlen]
  exact UInt16.toNat_lt _

/-- The strict mode: no payload and a zero field, or a payload and a field that counts
the tag. -/
theorem validPayloadLength_plaintext {n : Nat} {l : UInt16} :
    validPayloadLength n l .plaintext = true ↔
      (l.toNat = 0 ∧ n = 0) ∨
        (authenticationTagLength < l.toNat ∧ n + authenticationTagLength = l.toNat) := by
  unfold validPayloadLength
  by_cases h0 : l = 0
  · subst h0
    rw [if_pos rfl, beq_iff_eq, UInt16.toNat_zero]
    omega
  · have hne : l.toNat ≠ 0 := fun h => h0 (UInt16.toNat_inj.mp h)
    rw [if_neg h0]
    simp only
    split
    · next htag =>
      constructor
      · intro h
        cases h
      · intro h
        omega
    · next htag =>
      rw [beq_iff_eq]
      omega

/-- The lenient mode: also a field that counts what is there. -/
theorem validPayloadLength_dataCompat {n : Nat} {l : UInt16} :
    validPayloadLength n l .dataCompat = true ↔
      n = l.toNat ∨
        (authenticationTagLength < l.toNat ∧ n + authenticationTagLength = l.toNat) := by
  unfold validPayloadLength
  by_cases h0 : l = 0
  · subst h0
    rw [if_pos rfl, beq_iff_eq, UInt16.toNat_zero]
    omega
  · rw [if_neg h0]
    simp only [Bool.or_eq_true, Bool.and_eq_true, beq_iff_eq, decide_eq_true_iff]
    omega

/-! ## Strict and lenient packets -/

/-- The packets of the strict form. -/
def Strict (d : Bytes) : Prop :=
  Framed d ∧ ((wireLength d = 0 ∧ d.length = headerLength) ∨
    (authenticationTagLength < wireLength d ∧
      d.length = headerLength + wireLength d - authenticationTagLength))

/-- The data packets whose length field is the length of the body. -/
def Lenient (d : Bytes) : Prop :=
  Framed d ∧ clearCompress (d.getD 2 0) = typeData ∧ d.length = headerLength + wireLength d

/-- **The strict mode takes the strict packets.** -/
theorem parseHeader_strict {d : Bytes} {h : Header} :
    parseHeader d .plaintext = .ok h ↔ Strict d ∧ h = headerOf d := by
  rw [parseHeader_eq_ok, validPayloadLength_plaintext]
  constructor
  · rintro ⟨hframed, -, hvalid, hfields⟩
    have hlen := hframed.header
    rw [toNat_headerOf_length hlen] at hvalid
    exact ⟨⟨hframed, by omega⟩, hfields⟩
  · rintro ⟨⟨hframed, hlength⟩, hfields⟩
    have hlt := wireLength_lt hframed.header
    rw [toNat_headerOf_length hframed.header]
    refine ⟨hframed, ?_, by omega, hfields⟩
    unfold maxPacketSize maxLengthField
    omega

theorem parseMode_typeData {d : Bytes} (hlen : headerLength ≤ d.length) :
    parseMode d false =
      if clearCompress (d.getD 2 0) = typeData then .dataCompat else .plaintext := by
  have h2 : 2 < d.length := by
    unfold headerLength at hlen
    omega
  unfold parseMode
  rw [if_neg (by decide)]
  simp only [h2, true_and]

/-- **Without a cipher `parse` takes the strict and the lenient packets.** -/
theorem parseHeader_parseMode {d : Bytes} {h : Header} :
    parseHeader d (parseMode d false) = .ok h ↔ (Strict d ∨ Lenient d) ∧ h = headerOf d := by
  constructor
  · intro hok
    obtain ⟨hframed, -, hvalid, hfields⟩ := parseHeader_eq_ok.mp hok
    have hlen := hframed.header
    refine ⟨?_, hfields⟩
    rw [parseMode_typeData hlen] at hok hvalid
    split at hvalid
    · next htype =>
      rw [validPayloadLength_dataCompat, toNat_headerOf_length hlen] at hvalid
      rcases hvalid with hbody | htag
      · exact Or.inr ⟨hframed, htype, by omega⟩
      · exact Or.inl ⟨hframed, by omega⟩
    · next htype =>
      rw [if_neg htype] at hok
      exact Or.inl (parseHeader_strict.mp hok).1
  · rintro ⟨hstrict | ⟨hframed, htype, hlength⟩, rfl⟩
    · exact GamePacket.parseHeader_lenient (parseHeader_strict.mpr ⟨hstrict, rfl⟩)
    · have hlt := wireLength_lt hframed.header
      rw [parseMode_typeData hframed.header, if_pos htype]
      refine parseHeader_eq_ok.mpr ⟨hframed, ?_, ?_, rfl⟩
      · unfold maxPacketSize maxLengthField
        omega
      · rw [validPayloadLength_dataCompat, toNat_headerOf_length hframed.header]
        omega

namespace GamePacket

/-- `ParseControl` on a strict packet. -/
theorem parseControl_strict (g : GamePacket) {d : Bytes} (hd : Strict d) :
    g.parseControl d =
      (none, { g.withHeader (headerOf d) with payload := some (d.drop headerLength) }) := by
  unfold parseControl
  rw [parseHeader_strict.mpr ⟨hd, rfl⟩]
  rfl

theorem parseControl_accepts (g : GamePacket) (d : Bytes) :
    (g.parseControl d).1 = none ↔ Strict d := by
  constructor
  · intro h
    unfold parseControl at h
    cases hhead : parseHeader d .plaintext with
    | error e =>
      rw [hhead] at h
      cases h
    | ok hd => exact (parseHeader_strict.mp hhead).1
  · intro hd
    rw [parseControl_strict g hd]

theorem parsePacket_accepts (A : Aead K) (g : GamePacket) (pool : Pool) (d : Bytes) :
    (g.parsePacket A pool d true (none : Option (CipherState K))).1 = none ↔
      Strict d ∨ Lenient d := by
  constructor
  · intro h
    cases hhead : parseHeader d (parseMode d false) with
    | error e =>
      have hfill := Slice.bytes_fill (Pool.le_cap_getCap pool d.length (·.upTo 0))
      unfold parsePacket at h
      split at h
      · cases h
      · simp only [hfill, parse, Option.isSome_none, hhead] at h
        cases h
    | ok hd => exact (parseHeader_parseMode.mp hhead).1
  · intro hd
    obtain ⟨raw, pool', hparse, -⟩ := parsePacket_of_header A g pool
      (parseHeader_parseMode.mpr ⟨hd, rfl⟩)
    rw [hparse]

/-! ## Encoding a parsed packet -/

/-- The bytes in front of the counter are the fields. -/
theorem take_thirteen {d : Bytes} (hd : Framed d) :
    wireAd (headerOf d).pType (headerOf d).dst (headerOf d).length ++ (headerOf d).src.1 =
      d.take 13 := by
  have hlen : 21 ≤ d.length := hd.header
  have hwindow : d.take 13 = window d 0 2 ++ window d 2 1 ++ window d 3 4 ++ window d 7 2 ++
      window d 9 4 := by
    rw [← window_append, ← window_append, ← window_append, ← window_append]
    rfl
  have htype : window d 2 1 = [d.getD 2 0] := by
    have h2 : 2 < d.length := by omega
    rw [window, List.drop_eq_getElem_cons h2, List.getD_eq_getElem?_getD,
      List.getElem?_eq_getElem h2]
    rfl
  have hdst : (headerOf d).dst.1 = window d 3 4 :=
    ByteArr.val_ofBytes (by rw [List.length_drop]; omega)
  have hsrc : (headerOf d).src.1 = window d 9 4 :=
    ByteArr.val_ofBytes (by rw [List.length_drop]; omega)
  have hfield : toBE 2 (headerOf d).length.toNat = window d 7 2 := by
    have hback := toBE_ofBE (window d 7 2)
    rw [length_window (by omega)] at hback
    rw [toNat_headerOf_length hd.header]
    exact hback
  rw [hwindow, htype, ← hdst, ← hsrc, ← hfield, show window d 0 2 = d.take 2 from rfl, hd.magic]
  simp only [wireAd, List.append_assoc]
  rfl

/-- The length field of the payload of a strict packet is the one it came with. -/
theorem lengthFieldOf_strict {d : Bytes} (hd : Strict d) :
    (d.drop headerLength).length ≤ maxPayloadSize ∧
      lengthFieldOf (d.drop headerLength) = (headerOf d).length := by
  obtain ⟨hframed, hlength⟩ := hd
  have hlt := wireLength_lt hframed.header
  have hfield := toNat_headerOf_length hframed.header
  have hdrop : (d.drop headerLength).length = d.length - headerLength := List.length_drop
  have hmax : (d.drop headerLength).length ≤ maxPayloadSize := by
    unfold maxPayloadSize maxLengthField
    unfold authenticationTagLength at hlength ⊢
    omega
  refine ⟨hmax, UInt16.toNat_inj.mp ?_⟩
  rw [hfield, lengthFieldOf]
  rcases Nat.eq_zero_or_pos (d.drop headerLength).length with h0 | h0
  · rw [h0, payloadLengthField_zero, Option.getD_some, UInt16.toNat_zero]
    omega
  · obtain ⟨l, hl, hlt⟩ := payloadLengthField_pos h0 hmax
    rw [hl, Option.getD_some, hlt]
    omega

/-- **A strict packet is what it is encoded to**, but for the counter. -/
theorem encode_strict (A : Aead K) (g : GamePacket) (control : Bool) {d : Bytes} (hd : Strict d) :
    (encodePacketWithBuffer A
        { g.withHeader (headerOf d) with payload := some (d.drop headerLength) } []
        control none).wire =
      some (d.take 13 ++ List.replicate 8 0 ++ d.drop headerLength) := by
  obtain ⟨hmax, hfield⟩ := lengthFieldOf_strict hd
  let p := { g.withHeader (headerOf d) with payload := some (d.drop headerLength) }
  refine (encode_clear A p control hmax).trans (congrArg some ?_)
  show clearWire (headerOf d).src (headerOf d).dst (headerOf d).pType (d.drop headerLength) = _
  rw [clearWire, hfield, ← take_thirteen hd.1, wireNonce]
  simp only [List.append_assoc]
  rfl

/-- **The parsers accept exactly the wire grammar.** For every string, every packet
that is reused and every pool:

1. `ParseControl` takes the strict strings;
2. `ParsePacket` without a cipher takes these, and of the data packets those whose
   length field is the length of the body;
3. where both accept, type, addresses, length and payload are the same, and the payload
   is what follows the header;
4. a packet that `ParseControl` recovered is encoded to the string it came from, with
   a zero counter. -/
theorem parsers_accept_grammar (A : Aead K) (d : Bytes) (g g' : GamePacket) (pool : Pool)
    (control : Bool) :
    ((g.parseControl d).1 = none ↔ Strict d) ∧
      ((g'.parsePacket A pool d true (none : Option (CipherState K))).1 = none ↔
        Strict d ∨ Lenient d) ∧
      ((g.parseControl d).1 = none →
        (g'.parsePacket A pool d true (none : Option (CipherState K))).1 = none →
        let p := (g.parseControl d).2
        let q := (g'.parsePacket A pool d true (none : Option (CipherState K))).2.1
        p.pType = q.pType ∧ p.dst = q.dst ∧ p.src = q.src ∧ p.length = q.length ∧
          p.payload = some (d.drop 21) ∧ q.payload = some (d.drop 21)) ∧
      ((g.parseControl d).1 = none →
        ((g.parseControl d).2.encodePacketWithBuffer A [] control none).wire =
          some (d.take 13 ++ List.replicate 8 0 ++ d.drop 21)) := by
  refine ⟨parseControl_accepts g d, parsePacket_accepts A g' pool d, fun hp _ => ?_, fun hp => ?_⟩
  · have hd := (parseControl_accepts g d).mp hp
    obtain ⟨raw, pool', hparse, -⟩ := parsePacket_of_header A g' pool
      (parseHeader_parseMode.mpr ⟨Or.inl hd, rfl⟩)
    rw [parseControl_strict g hd, hparse]
    exact ⟨rfl, rfl, rfl, rfl, rfl, rfl⟩
  · have hd := (parseControl_accepts g d).mp hp
    rw [parseControl_strict g hd]
    exact encode_strict A g control hd

/-- A data packet of one byte, in both forms. -/
theorem parsers_accept_grammar_one :
    (GamePacket.empty.parseControl (clearWire (.zero 4) (.zero 4) typeData [7])).1 = none ∧
      ((GamePacket.empty.parseControl (clearWire (.zero 4) (.zero 4) typeData
          [7])).2.encodePacketWithBuffer chacha20Poly1305 [] false none).wire =
        some (clearWire (.zero 4) (.zero 4) typeData [7]) ∧
      (GamePacket.empty.parseControl
        (wireAd typeData (.zero 4) 1 ++ (wireNonce (.zero 4) 0 ++ [7]))).1 ≠ none := by
  have hsome := parsers_accept_grammar chacha20Poly1305
    (clearWire (.zero 4) (.zero 4) typeData [7]) .empty .empty (.fresh 0) false
  exact ⟨by decide +kernel, hsome.2.2.2 (by decide +kernel), by decide +kernel⟩

/-! ## Encoding and parsing in the clear -/

/-- What a receiver recovers of a packet that was made of these. -/
structure Recovered (h : GamePacket) (src dst : ByteArr 4) (pType : UInt8)
    (payload : Bytes) : Prop where
  src : h.src = src
  dst : h.dst = dst
  pType : h.pType = clearCompress pType
  payload : h.payload = some payload

/-- The length field on the wire. -/
theorem wireLength_clearWire (src dst : ByteArr 4) (pType : UInt8) {payload : Bytes}
    (hmax : payload.length ≤ maxPayloadSize) :
    wireLength (clearWire src dst pType payload) =
      if payload.length = 0 then 0 else payload.length + authenticationTagLength := by
  rw [wireLength, clearWire, lengthField_wireAd, lengthFieldOf]
  split
  · next h0 =>
    rw [h0]
    rfl
  · next h0 =>
    obtain ⟨l, hl, hlt⟩ := payloadLengthField_pos (Nat.pos_of_ne_zero h0) hmax
    rw [hl, Option.getD_some, hlt]

/-- **The codec in the clear.** A payload of at most `MaxPayloadSize` bytes is encoded
to the same string with and without a pool; both parsers accept the string and recover
addresses, type (without the flag) and payload; and the length field is zero or the
length with the tag. A longer payload is not encoded. -/
theorem clear_codec (A : Aead K) (L : Lz4) (src dst : ByteArr 4) (pType : UInt8)
    (payload : Option Bytes) (control : Bool) (pool pool' : Pool) (g g' : GamePacket) :
    ((payload.getD []).length ≤ maxPayloadSize →
      ∃ wire,
        ((newGamePacket src dst pType payload).encodePacketWithBuffer A [] control none).wire =
          some wire ∧
        ((newGamePacket src dst pType payload).encodePacket A L pool control false none).1.wire =
          some wire ∧
        (∃ h, g.parseControl wire = (none, h) ∧
          h.Recovered src dst pType (payload.getD [])) ∧
        (∃ h pool'', g'.parsePacket A pool' wire true (none : Option (CipherState K)) =
            (none, h, pool'') ∧ h.Recovered src dst pType (payload.getD [])) ∧
        wireLength wire = if (payload.getD []).length = 0 then 0
          else (payload.getD []).length + authenticationTagLength) ∧
      (maxPayloadSize < (payload.getD []).length →
        ((newGamePacket src dst pType payload).encodePacketWithBuffer A [] control none).wire =
          none ∧
        ((newGamePacket src dst pType payload).encodePacket A L pool control false none).1.wire =
          none) := by
  constructor
  · intro hmax
    have hclear := compressed_clearCompress pType
    have hwire := encode_clear A (newGamePacket src dst pType payload) control hmax
    obtain ⟨raw, pool'', hparse⟩ := parsePacket_clear A g' pool' src dst (clearCompress pType)
      hclear hmax
    refine ⟨clearWire src dst (clearCompress pType) (payload.getD []), hwire,
      (encodePacket_plain ..).trans hwire, ⟨_, parseControl_clear g src dst _ hclear hmax, ?_⟩,
      ⟨_, pool'', hparse, ?_⟩, wireLength_clearWire src dst _ hmax⟩
    · exact ⟨rfl, rfl, rfl, rfl⟩
    · exact ⟨rfl, rfl, rfl, rfl⟩
  · intro hlong
    have hnone : payloadLengthField (newGamePacket src dst pType payload).data.length = none :=
      if_pos hlong
    have hwire : ((newGamePacket src dst pType payload).encode A [] control none).wire = none := by
      simp only [encode, hnone]
    exact ⟨hwire, (encodePacket_plain ..).trans hwire⟩

/-- Three bytes and nineteen in the length field. -/
theorem clear_codec_three :
    ∃ wire, ((newGamePacket (.zero 4) (.zero 4) typePing (some [1, 2, 3])).encodePacketWithBuffer
        chacha20Poly1305 [] true none).wire = some wire ∧ wireLength wire = 19 := by
  obtain ⟨wire, hwire, -, -, -, hlength⟩ := (clear_codec chacha20Poly1305 Lz4.stored (.zero 4)
    (.zero 4) typePing (some [1, 2, 3]) true (.fresh 0) (.fresh 0) .empty .empty).1 (by decide)
  exact ⟨wire, hwire, hlength⟩

end GamePacket

end EasyTun.Protocol
