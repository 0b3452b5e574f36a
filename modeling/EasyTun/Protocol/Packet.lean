import EasyTun.Lib.Slice
import EasyTun.Protocol.Cipher

/-!
# The wire packet (`internal/protocol/packet.go`)

The packet header, its encoder and its parser:

`[magic 2][pType 1][dst 4][length 2][nonce 12 (src 4 + counter 8)][payload]`

The first nine bytes (`wireAd`) are the associated data of an encrypted
payload, the next twelve (`wireNonce`) its nonce; together they are every byte
of the header. `encodeAt_eq` states what `encode` emits in these terms and
`parseHeader_wire` what `parseHeader` makes of it.

An `encode` also reports the `Seal` calls it made, which is what the results
about integrity and nonces are about.
-/

namespace EasyTun.Protocol

open EasyTun.Lib

/-! ## Constants -/

/-- The packet types (packet.go:13–26). -/
def typeHandshake : UInt8 := 1
def typeNoiseHandshake : UInt8 := 2
def typeNoiseResponse : UInt8 := 3
def typeDnsRequest : UInt8 := 4
def typeDnsResponse : UInt8 := 5
def typePing : UInt8 := 6
def typePong : UInt8 := 7
def typeData : UInt8 := 8
def typeP2PCheck : UInt8 := 9
def typeP2PCommand : UInt8 := 10
def typeP2PEstablished : UInt8 := 11
def typeP2PClosed : UInt8 := 12

/-- The bit of the type that marks a compressed payload (packet.go:28). -/
def flagCompress : UInt8 := 0x80

/-- The first two bytes of every packet (packet.go:30). -/
def magicNumber : Nat := 0xDAAA

/-- The lengths (packet.go:32–37). -/
def nonceLength : Nat := 12
def headerLength : Nat := 9 + nonceLength
def authenticationTagLength : Nat := 16
def maxLengthField : Nat := 2 ^ 16 - 1
def maxPacketSize : Nat := headerLength + maxLengthField
def maxPayloadSize : Nat := maxLengthField - authenticationTagLength

/-- `pType &^ FlagCompress`. -/
def clearCompress (pType : UInt8) : UInt8 := pType &&& ~~~flagCompress

/-- `pType | FlagCompress`. -/
def setCompress (pType : UInt8) : UInt8 := pType ||| flagCompress

/-- `pType & FlagCompress != 0`. -/
def compressed (pType : UInt8) : Bool := pType &&& flagCompress != 0

@[simp] theorem compressed_clearCompress (p : UInt8) :
    compressed (clearCompress p) = false := by
  have h : p &&& ~~~flagCompress &&& flagCompress = 0 := by
    rw [UInt8.and_assoc]
    show p &&& 0 = 0
    exact UInt8.and_zero
  rw [compressed, clearCompress, h]
  rfl

@[simp] theorem compressed_setCompress (p : UInt8) :
    compressed (setCompress p) = true := by
  have h : (p ||| flagCompress) &&& flagCompress = flagCompress := by
    apply UInt8.toBitVec_inj.mp
    apply BitVec.eq_of_getElem_eq
    intro i hi
    show ((p.toBitVec ||| flagCompress.toBitVec) &&& flagCompress.toBitVec)[i]
      = flagCompress.toBitVec[i]
    rw [BitVec.getElem_and, BitVec.getElem_or]
    cases p.toBitVec[i] <;> cases flagCompress.toBitVec[i] <;> rfl
  rw [compressed, setCompress, h]
  rfl

@[simp] theorem clearCompress_clearCompress (p : UInt8) :
    clearCompress (clearCompress p) = clearCompress p := by
  unfold clearCompress
  rw [UInt8.and_assoc, UInt8.and_self]

/-! ## Errors -/

/-- The errors of the codec: those of `errorcode.go`, the AEAD's one error and
the two of `decompress`. -/
inductive ErrorCode where
  | invalidMagic
  | payloadMismatch
  | packetTooLarge
  | packetTooShort
  | authFailed
  | lz4Failed
  | lz4Length (n : Nat)
  deriving DecidableEq, Repr

/-! ## Packets -/

/-- `GamePacket`. A nil `Payload` or `RawData` is `none`. -/
structure GamePacket where
  src : ByteArr 4
  dst : ByteArr 4
  pType : UInt8
  payload : Option Bytes
  rawData : Option Slice
  length : UInt16

/-- `&GamePacket{}`. -/
def GamePacket.empty : GamePacket :=
  { src := .zero 4, dst := .zero 4, pType := 0, payload := none, rawData := none, length := 0 }

/-- The payload's bytes; a nil slice has none. -/
def GamePacket.data (g : GamePacket) : Bytes := g.payload.getD []

/-- `payloadLengthField` (packet.go:145–153): the length field counts the AEAD
tag even where there is none, and is 0 for an empty payload. -/
def payloadLengthField (payloadLen : Nat) : Option UInt16 :=
  if payloadLen > maxPayloadSize then none
  else if payloadLen = 0 then some 0
  else some (UInt16.ofNat (payloadLen + authenticationTagLength))

/-- `Reset` (packet.go:62–68). -/
def GamePacket.reset (g : GamePacket) (src dst : ByteArr 4) (pType : UInt8)
    (payload : Option Bytes) : GamePacket :=
  { g with
    src, dst, payload
    pType := clearCompress pType
    length := (payloadLengthField (payload.getD []).length).getD 0 }

/-- `NewGamePacket` (packet.go:56–60). -/
def newGamePacket (src dst : ByteArr 4) (pType : UInt8) (payload : Option Bytes) :
    GamePacket :=
  GamePacket.empty.reset src dst pType payload

theorem payloadLengthField_zero : payloadLengthField 0 = some 0 := rfl

/-- The length field of a non-empty payload within the limit never wraps. -/
theorem payloadLengthField_pos {n : Nat} (h0 : 0 < n) (h : n ≤ maxPayloadSize) :
    ∃ l, payloadLengthField n = some l ∧ l.toNat = n + authenticationTagLength := by
  refine ⟨UInt16.ofNat (n + authenticationTagLength), ?_, ?_⟩
  · rw [payloadLengthField, if_neg (Nat.not_lt.mpr h), if_neg (Nat.ne_of_gt h0)]
  · have hlt : n + authenticationTagLength < 2 ^ 16 := by
      unfold maxPayloadSize maxLengthField authenticationTagLength at *
      omega
    exact UInt16.toNat_ofNat_of_lt hlt

theorem payloadLengthField_isSome {n : Nat} (h : n ≤ maxPayloadSize) :
    ∃ l, payloadLengthField n = some l := by
  rcases Nat.eq_zero_or_pos n with rfl | h0
  · exact ⟨0, rfl⟩
  · obtain ⟨l, hl, -⟩ := payloadLengthField_pos h0 h
    exact ⟨l, hl⟩

theorem le_maxPayloadSize_of_lengthField {n : Nat} {l : UInt16}
    (h : payloadLengthField n = some l) : n ≤ maxPayloadSize := by
  unfold payloadLengthField at h
  split at h
  · cases h
  · next hn => exact Nat.le_of_not_lt hn

/-- A buffer for what the length field says has room for the payload. -/
theorem le_payloadLengthField {n : Nat} {l : UInt16} (h : payloadLengthField n = some l) :
    n ≤ l.toNat := by
  rcases Nat.eq_zero_or_pos n with rfl | h0
  · exact Nat.zero_le _
  · obtain ⟨l', hl', hlen⟩ := payloadLengthField_pos h0 (le_maxPayloadSize_of_lengthField h)
    rw [hl'] at h
    cases h
    omega

/-! ## Encoding -/

variable {K : Type}

/-- One `Seal` call: the key it ran under and its arguments. -/
structure SealCall (K : Type) where
  key : K
  args : SealArgs

/-- What an `encode` leaves behind: the wire string (nil for an oversized
payload), the packet, the cipher state, and the `Seal` calls it made. -/
structure Encoded (K : Type) where
  wire : Option Bytes
  packet : GamePacket
  cipher : Option (CipherState K)
  seals : List (SealCall K)

/-- The counter value an `encode` takes from its cipher (packet.go:84–89). -/
def takeNonce : Option (CipherState K) → UInt64 × Option (CipherState K)
  | some cs => (cs.getNonce.1, some cs.getNonce.2)
  | none => (0, none)

/-- The body of `encode` once the counter value is known (packet.go:90–105).
The nonce and the associated data are read back from the buffer. -/
def GamePacket.encodeAt (A : Aead K) (g : GamePacket) (b : Bytes) (control : Bool)
    (key : Option K) (nonceVal : UInt64) : Bytes × List (SealCall K) :=
  let b := b ++ toBE 2 magicNumber
  let b := b ++ [g.pType]
  let b := b ++ g.dst.1
  let b := b ++ toBE 2 g.length.toNat
  let b := b ++ g.src.1
  let b := b ++ toBE 8 nonceVal.toNat
  let nonceBuf := (b.drop (headerLength - nonceLength)).take nonceLength
  if 0 < g.data.length then
    let header := b.take (headerLength - nonceLength)
    match control, key with
    | false, some k =>
      (b ++ A.sealed k nonceBuf g.data header, [⟨k, ⟨nonceBuf, g.data, header⟩⟩])
    | _, _ => (b ++ g.data, [])
  else (b, [])

/-- `encode` (packet.go:77–106). -/
def GamePacket.encode (A : Aead K) (g : GamePacket) (b : Bytes) (control : Bool)
    (cipher : Option (CipherState K)) : Encoded K :=
  match payloadLengthField g.data.length with
  | none => { wire := none, packet := g, cipher := cipher, seals := [] }
  | some length =>
    let g := { g with length := length }
    let r := g.encodeAt A b control (cipher.map (·.key)) (takeNonce cipher).1
    { wire := some r.1, packet := g, cipher := (takeNonce cipher).2, seals := r.2 }

/-! ### The header as associated data and nonce -/

/-- Bytes 0..8: magic, type, destination and length. -/
def wireAd (pType : UInt8) (dst : ByteArr 4) (length : UInt16) : Bytes :=
  toBE 2 magicNumber ++ ([pType] ++ (dst.1 ++ toBE 2 length.toNat))

/-- Bytes 9..20: source address and counter. -/
def wireNonce (src : ByteArr 4) (counter : UInt64) : Bytes :=
  src.1 ++ toBE 8 counter.toNat

@[simp] theorem length_wireAd (pType : UInt8) (dst : ByteArr 4) (length : UInt16) :
    (wireAd pType dst length).length = 9 := by
  simp [wireAd, dst.2]

@[simp] theorem length_wireNonce (src : ByteArr 4) (counter : UInt64) :
    (wireNonce src counter).length = 12 := by
  simp [wireNonce, src.2]

/-- What follows the header: nothing, the sealed payload, or the payload. -/
def wireBody (A : Aead K) (g : GamePacket) (control : Bool) (key : Option K)
    (nonceVal : UInt64) : Bytes :=
  if 0 < g.data.length then
    match control, key with
    | false, some k =>
      A.sealed k (wireNonce g.src nonceVal) g.data (wireAd g.pType g.dst g.length)
    | _, _ => g.data
  else []

/-- **What `encode` emits** into an empty buffer: the associated data, the
nonce and the body; and the `Seal` call uses exactly these header bytes. -/
theorem encodeAt_eq (A : Aead K) (g : GamePacket) (control : Bool) (key : Option K)
    (nonceVal : UInt64) :
    g.encodeAt A [] control key nonceVal =
      (wireAd g.pType g.dst g.length
          ++ (wireNonce g.src nonceVal ++ wireBody A g control key nonceVal),
        match decide (0 < g.data.length), control, key with
        | true, false, some k =>
          [⟨k, ⟨wireNonce g.src nonceVal, g.data, wireAd g.pType g.dst g.length⟩⟩]
        | _, _, _ => []) := by
  have hb : ((((([] ++ toBE 2 magicNumber) ++ [g.pType]) ++ g.dst.1) ++ toBE 2 g.length.toNat)
      ++ g.src.1) ++ toBE 8 nonceVal.toNat
      = wireAd g.pType g.dst g.length ++ wireNonce g.src nonceVal := by
    simp only [wireAd, wireNonce, List.nil_append, List.append_assoc]
  have hn : ((wireAd g.pType g.dst g.length ++ wireNonce g.src nonceVal).drop
      (headerLength - nonceLength)).take nonceLength = wireNonce g.src nonceVal := by
    have h9 : headerLength - nonceLength = (wireAd g.pType g.dst g.length).length := by
      rw [length_wireAd]; rfl
    rw [h9, List.drop_left]
    exact List.take_of_length_le (Nat.le_of_eq (length_wireNonce ..))
  have hh : (wireAd g.pType g.dst g.length ++ wireNonce g.src nonceVal).take
      (headerLength - nonceLength) = wireAd g.pType g.dst g.length := by
    have h9 : headerLength - nonceLength = (wireAd g.pType g.dst g.length).length := by
      rw [length_wireAd]; rfl
    rw [h9, List.take_left]
  unfold GamePacket.encodeAt wireBody
  simp only [hb, hn, hh]
  by_cases h0 : 0 < g.data.length
  · rw [if_pos h0, if_pos h0, decide_eq_true h0]
    cases control <;> cases key <;> simp only [List.append_assoc]
  · rw [if_neg h0, if_neg h0, decide_eq_false h0, List.append_nil]

/-! ## Parsing -/

/-- `payloadLengthMode` (packet.go:39–45). -/
inductive PayloadLengthMode where
  | plaintext
  | ciphertext
  | dataCompat
  deriving DecidableEq, Repr

/-- `validPayloadLength` (packet.go:180–198). -/
def validPayloadLength (actualPayloadLen : Nat) (length : UInt16) :
    PayloadLengthMode → Bool
  | mode =>
    if length = 0 then actualPayloadLen == 0
    else match mode with
      | .plaintext =>
        if length.toNat ≤ authenticationTagLength then false
        else actualPayloadLen == length.toNat - authenticationTagLength
      | .ciphertext => actualPayloadLen == length.toNat
      | .dataCompat =>
        actualPayloadLen == length.toNat ||
          (decide (length.toNat > authenticationTagLength) &&
            actualPayloadLen == length.toNat - authenticationTagLength)

/-- The fields `parseHeader` returns. -/
structure Header where
  pType : UInt8
  dst : ByteArr 4
  src : ByteArr 4
  length : UInt16
  deriving DecidableEq

/-- `parseHeader` (packet.go:155–178). -/
def parseHeader (data : Bytes) (mode : PayloadLengthMode) : Except ErrorCode Header :=
  if data.length < headerLength then .error .packetTooShort
  else if data.length > maxPacketSize then .error .packetTooLarge
  else if ofBE (data.take 2) ≠ magicNumber then .error .invalidMagic
  else
    let pType := data.getD 2 0
    if compressed pType ∧ clearCompress pType ≠ typeData then .error .payloadMismatch
    else
      let length := UInt16.ofNat (ofBE ((data.drop 7).take 2))
      if validPayloadLength (data.length - headerLength) length mode then
        .ok { pType
              dst := .ofBytes 4 (data.drop 3)
              src := .ofBytes 4 (data.drop 9)
              length }
      else .error .payloadMismatch

/-- The length mode `parse` picks (packet.go:109–116): without a cipher a
`TypeData` packet may carry either length form. -/
def parseMode (data : Bytes) (hasCipher : Bool) : PayloadLengthMode :=
  if hasCipher then .ciphertext
  else if 2 < data.length ∧ clearCompress (data.getD 2 0) = typeData then .dataCompat
  else .plaintext

/-- The header fields a successful `parseHeader` stores in the packet. -/
def GamePacket.withHeader (g : GamePacket) (h : Header) : GamePacket :=
  { g with pType := h.pType, dst := h.dst, src := h.src, length := h.length }

/-- `parse` (packet.go:108–140). The last component is the buffer afterwards: a
payload is decrypted in place, over its own ciphertext, and the tag bytes
behind it stay where they were. -/
def GamePacket.parse (A : Aead K) (g : GamePacket) (data : Bytes) (parsePayload : Bool)
    (cipher : Option (CipherState K)) : Option ErrorCode × GamePacket × Bytes :=
  match parseHeader data (parseMode data cipher.isSome) with
  | .error e => (some e, g, data)
  | .ok h =>
    let g := g.withHeader h
    let nonceBuf := (data.drop 9).take nonceLength
    match cipher with
    | some cs =>
      if parsePayload ∧ 0 < g.length.toNat then
        match A.opened cs.key nonceBuf (data.drop headerLength)
            (data.take (headerLength - nonceLength)) with
        | none => (some .authFailed, g, data)
        | some decrypted =>
          (none, { g with payload := some decrypted }, overwrite data headerLength decrypted)
      else (none, g, data)
    | none => (none, { g with payload := some (data.drop headerLength) }, data)

/-- `ParseControl` (packet.go:280–292). -/
def GamePacket.parseControl (g : GamePacket) (data : Bytes) :
    Option ErrorCode × GamePacket :=
  match parseHeader data .plaintext with
  | .error e => (some e, { g with payload := none })
  | .ok h => (none, { g.withHeader h with payload := some (data.drop (9 + nonceLength)) })

/-! ### Parsing what was encoded -/

/-- The type byte of a string that starts with an encoded header. -/
theorem getD_two_wireAd (pType : UInt8) (dst : ByteArr 4) (length : UInt16) (rest : Bytes) :
    (wireAd pType dst length ++ rest).getD 2 0 = pType := by
  unfold wireAd
  rw [List.append_assoc]
  rfl

theorem drop_three_wireAd (pType : UInt8) (dst : ByteArr 4) (length : UInt16) (rest : Bytes) :
    (wireAd pType dst length ++ rest).drop 3 = dst.1 ++ (toBE 2 length.toNat ++ rest) := by
  unfold wireAd
  rw [List.append_assoc, List.append_assoc, List.append_assoc]
  rfl

/-- The length field of a string that starts with an encoded header. -/
theorem lengthField_wireAd (pType : UInt8) (dst : ByteArr 4) (length : UInt16) (rest : Bytes) :
    ofBE (((wireAd pType dst length ++ rest).drop 7).take 2) = length.toNat := by
  rw [show 7 = 3 + 4 from rfl, ← List.drop_drop, drop_three_wireAd, List.drop_left' dst.2,
    List.take_left' (length_toBE ..), ofBE_toBE_of_lt length.toNat_lt]

/-- The header fields read back from any string that starts with an encoded
header: the parser's five reads undo the encoder's writes. -/
theorem parseHeader_wire (pType : UInt8) (dst src : ByteArr 4) (length : UInt16)
    (counter : UInt64) (body : Bytes) (mode : PayloadLengthMode)
    (hflag : ¬(compressed pType ∧ clearCompress pType ≠ typeData))
    (hmax : body.length ≤ maxLengthField)
    (hvalid : validPayloadLength body.length length mode) :
    parseHeader (wireAd pType dst length ++ (wireNonce src counter ++ body)) mode
      = .ok { pType, dst, src, length } := by
  have hlen : (wireAd pType dst length ++ (wireNonce src counter ++ body)).length
      = headerLength + body.length := by
    rw [List.length_append, List.length_append, length_wireAd, length_wireNonce]
    show 9 + (12 + body.length) = 9 + 12 + body.length
    omega
  have hmagic : (wireAd pType dst length ++ (wireNonce src counter ++ body)).take 2
      = toBE 2 magicNumber := by
    unfold wireAd
    rw [List.append_assoc]
    exact List.take_left' (length_toBE ..)
  have hsrc : (wireAd pType dst length ++ (wireNonce src counter ++ body)).drop 9
      = src.1 ++ (toBE 8 counter.toNat ++ body) := by
    rw [List.drop_left' (length_wireAd ..), wireNonce, List.append_assoc]
  unfold parseHeader
  rw [hlen, hmagic, getD_two_wireAd, lengthField_wireAd, drop_three_wireAd, hsrc,
    ofBE_toBE_of_lt (by decide)]
  rw [if_neg (by omega), if_neg (by unfold maxPacketSize; omega), if_neg (fun h => h rfl)]
  simp only [UInt16.ofNat_toNat, Nat.add_sub_cancel_left, ByteArr.ofBytes_append]
  rw [if_neg hflag, if_pos hvalid]

/-- The fields of a string, each read from its own bytes. -/
def headerOf (data : Bytes) : Header :=
  { pType := data.getD 2 0
    dst := .ofBytes 4 (data.drop 3)
    src := .ofBytes 4 (data.drop 9)
    length := UInt16.ofNat (ofBE ((data.drop 7).take 2)) }

/-- A header with the magic number whose compression flag is on a data packet or on
none. -/
structure Framed (data : Bytes) : Prop where
  header : headerLength ≤ data.length
  magic : data.take 2 = toBE 2 magicNumber
  flag : compressed (data.getD 2 0) = true → clearCompress (data.getD 2 0) = typeData

/-- The first two bytes are the magic number. -/
theorem ofBE_magic {data : Bytes} (hlen : headerLength ≤ data.length) :
    ofBE (data.take 2) = magicNumber ↔ data.take 2 = toBE 2 magicNumber := by
  constructor
  · intro h
    have htake : (data.take 2).length = 2 := by
      rw [List.length_take]
      unfold headerLength at hlen
      omega
    have hback := toBE_ofBE (data.take 2)
    rw [htake, h] at hback
    exact hback.symm
  · intro h
    rw [h, ofBE_toBE_of_lt (by decide)]

/-- **What `parseHeader` takes.** -/
theorem parseHeader_eq_ok {data : Bytes} {mode : PayloadLengthMode} {h : Header} :
    parseHeader data mode = .ok h ↔ Framed data ∧ data.length ≤ maxPacketSize ∧
      validPayloadLength (data.length - headerLength) (headerOf data).length mode = true ∧
      h = headerOf data := by
  unfold parseHeader
  constructor
  · intro hok
    split at hok
    · cases hok
    · next hshort =>
      split at hok
      · cases hok
      · next hlong =>
        split at hok
        · cases hok
        · next hmagic =>
          simp only at hok
          split at hok
          · cases hok
          · next hflag =>
            split at hok
            · next hvalid =>
              cases hok
              have hlen := Nat.le_of_not_lt hshort
              have hframed : Framed data :=
                ⟨hlen, (ofBE_magic hlen).mp (Decidable.not_not.mp hmagic), fun hc =>
                  Decidable.not_not.mp fun ht => hflag ⟨hc, ht⟩⟩
              exact ⟨hframed, Nat.le_of_not_lt hlong, hvalid, rfl⟩
            · cases hok
  · rintro ⟨hframed, hlong, hvalid, rfl⟩
    rw [if_neg (Nat.not_lt.mpr hframed.header), if_neg (Nat.not_lt.mpr hlong),
      if_neg (fun hne => hne ((ofBE_magic hframed.header).mpr hframed.magic))]
    simp only
    rw [if_neg (fun hc => hc.2 (hframed.flag hc.1))]
    exact if_pos hvalid

/-- **What an accepted header says**: each field is read from its own bytes. -/
theorem parseHeader_ok {data : Bytes} {mode : PayloadLengthMode} {h : Header}
    (hok : parseHeader data mode = .ok h) :
    headerLength ≤ data.length ∧ data.length ≤ maxPacketSize ∧
      h = { pType := data.getD 2 0
            dst := .ofBytes 4 (data.drop 3)
            src := .ofBytes 4 (data.drop 9)
            length := UInt16.ofNat (ofBE ((data.drop 7).take 2)) } := by
  obtain ⟨hframed, hlong, -, hfields⟩ := parseHeader_eq_ok.mp hok
  exact ⟨hframed.header, hlong, hfields⟩

/-- The three cuts of a wire string that decryption works on. -/
theorem wire_cuts (ad nonce body : Bytes) (had : ad.length = 9) (hn : nonce.length = 12) :
    (ad ++ (nonce ++ body)).take (headerLength - nonceLength) = ad ∧
    ((ad ++ (nonce ++ body)).drop 9).take nonceLength = nonce ∧
    (ad ++ (nonce ++ body)).drop headerLength = body := by
  refine ⟨List.take_left' had, ?_, ?_⟩
  · rw [List.drop_left' had]
    exact List.take_left' hn
  · rw [← List.append_assoc]
    exact List.drop_left' (by rw [List.length_append, had, hn]; rfl)

/-- The cuts are all of the string. -/
theorem eq_of_wire_cuts {data ad nonce body : Bytes}
    (had : data.take (headerLength - nonceLength) = ad)
    (hn : (data.drop 9).take nonceLength = nonce) (hbody : data.drop headerLength = body) :
    data = ad ++ (nonce ++ body) := by
  subst had hn hbody
  have hsplit : data.drop headerLength = (data.drop 9).drop nonceLength := by
    rw [List.drop_drop]
    rfl
  rw [hsplit, List.take_append_drop]
  exact (List.take_append_drop 9 data).symm

end EasyTun.Protocol
