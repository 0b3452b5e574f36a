import Mathlib.Tactic.Common
import EasyTun.Lib.Ipv4
import EasyTun.Protocol.Grammar
import EasyTun.Transport.ClientSend

/-!
# What a tunnel does to packets (`client_udp.go`, `packet.go`, `device_linux.go`)

Between the worker that seals a packet and the `packetRecv` that opens it there is the network,
which may lose, repeat and reorder datagrams and make up its own. A receiver has no window of
counters: the nonce comes with the datagram, and what a datagram is worth does not depend on
those before it.

What the receiver writes to its device is not exactly the packet: on the uncompressed path the
tag stays behind it. But an IPv4 packet says how long it is, and a host goes by that.

- `tunnel_exact`: **a host gets exactly the packets that the other host has sent**, for every
  sequence of datagrams in the name of the peer: one packet for each datagram that a worker has
  emitted, in the order of arrival, and nothing for any other datagram. In particular, what is
  repeated by the network is delivered again.
-/

namespace EasyTun.Transport.Tunnel

open EasyTun.Lib EasyTun.Protocol EasyTun.Protocol.GamePacket
open EasyTun.Lib.NoiseIK
open PacketSend (Emission SealedUnder Fits)

/-! ## The receiver -/

/-- A datagram, with what `packetRecv` draws from its environment: the randomness of a handshake,
the time, and whether `FromNet` takes another packet. -/
structure Arrival where
  bytes : Bytes
  eph : Nat
  now : Int
  room : Bool

/-- What `tunSend` writes to the device after one datagram. -/
def written : RecvOutcome → Option Bytes
  | .forwarded gp => gp.rawData.bind fun raw => tunSend raw.bytes
  | .dropped | .responded _ | .control _ => none

/-- What is written to the device, one datagram after the other. -/
def receiveAll (N : Ops Bytes) (A : Aead Key) (L : Lz4) (localIp : ByteArr 4) :
    NoiseManager → Pool → List Arrival → List Bytes
  | _, _, [] => []
  | m, pool, d :: ds =>
    let r := packetRecv N A L m pool localIp d.bytes d.eph d.now d.room
    (written r.2.2).toList ++ receiveAll N A L localIp r.1 r.2.1 ds

/-- What a session with a receiving key makes of a datagram: the bytes for the device. -/
def unsealed (A : Aead Key) (L : Lz4) (pool : Pool) (cs : CipherState Key) (bytes : Bytes) :
    Option Bytes :=
  match GamePacket.empty.parsePacket A pool bytes true (none : Option (CipherState Key)) with
  | (some _, _, _) => none
  | (none, gp, pool) =>
    if clearCompress gp.pType = typeData then
      match gp.decryptParse A L pool (some cs) with
      | (some _, _, _) => none
      | (none, g, _) => g.rawData.bind fun raw => tunSend raw.bytes
    else none

/-- The client has a ready session with the peer, and receives with this key. -/
structure Tuned (m : NoiseManager) (peer : ByteArr 4) (sid : SessionId) (cs : CipherState Key) :
    Prop where
  session : m.getSession peer = some sid
  ready : (m.heap sid).isReady = true
  recver : (m.heap sid).cipher.recver = some cs

section Receiver

variable {N : Ops Bytes} {A : Aead Key} {L : Lz4} {m : NoiseManager} {pool : Pool}
  {localIp peer : ByteArr 4} {sid : SessionId} {cs : CipherState Key} {d : Arrival}

theorem Tuned.updateLastSeen (h : Tuned m peer sid cs) (now : Int) :
    Tuned (m.modify sid (·.updateLastSeen now)) peer sid cs := by
  refine ⟨h.session, ?_, ?_⟩
  · rw [NoiseManager.heap_modify]
    exact h.ready
  · rw [NoiseManager.heap_modify]
    exact h.recver

end Receiver

/-! ## The sender -/

section Sender

variable {A : Aead Key} {L : Lz4} {cfg : ClientConfig} {k : Key} {e : Emission} {c : EncodeCall}

/-- The packet of a call, before and after the compression. -/
theorem staged_sent (h : SealedUnder cfg A L k e c) (hfit : Fits e.packet) :
    (c.staged L).src = cfg.localIp ∧ clearCompress (c.staged L).pType = typeData ∧
      payloadLengthField (c.staged L).data.length = some (c.staged L).length ∧
      ((compressed (c.staged L).pType = false ∧ (c.staged L).data = e.packet) ∨
        (compressed (c.staged L).pType = true ∧ (c.staged L).data ≠ [] ∧
          ∃ n, L.compressBlock e.packet n = some (c.staged L).data)) := by
  have hreset : c.staged L =
      (c.packet.reset c.src c.dst typeData (some e.packet)).staged L c.pool c.compress := by
    rw [EncodeCall.staged, h.pType, h.payload]
  rw [hreset]
  obtain ⟨hsrc, -, hshape⟩ :=
    staged_reset L c.packet c.src c.dst typeData (some e.packet) c.pool c.compress
  refine ⟨hsrc.trans h.src, staged_data_type .., ?_, ?_⟩
  · exact staged_lengthField L _ c.pool c.compress (clearCompress_clearCompress typeData) hfit.2
  · rcases hshape with ⟨-, ht, hdata⟩ | ⟨-, ht, hne, hblock⟩
    · exact Or.inl ⟨by rw [ht, compressed_clearCompress], hdata⟩
    · exact Or.inr ⟨by rw [ht, compressed_setCompress], hne, hblock⟩

theorem staged_sent_pos (h : SealedUnder cfg A L k e c) (hfit : Fits e.packet) :
    0 < (c.staged L).data.length := by
  obtain ⟨-, -, -, ⟨-, hdata⟩ | ⟨-, hne, -⟩⟩ := staged_sent h hfit
  · rw [hdata]
    exact Nat.lt_of_lt_of_le (by decide) hfit.1
  · exact List.length_pos_of_ne_nil hne

/-- The datagram of an emission, by its parts. -/
theorem wire_sent (h : SealedUnder cfg A L k e c) (hfit : Fits e.packet) :
    e.wire = wireOf A (c.staged L) k c.counter := by
  have hwire := h.wire
  have hdata := encodePacket_data A L c.packet c.src c.dst (some e.packet) c.pool c.compress k
    c.counter hfit.2
  rw [EncodeCall.run, h.pType, h.control, h.payload] at hwire
  rw [EncodeCall.staged, h.pType, h.payload]
  exact Option.some.inj (hwire.symm.trans hdata)

/-- The call has sealed the packet. -/
theorem mem_sealLog_sent (h : SealedUnder cfg A L k e c) (hfit : Fits e.packet)
    {calls : List EncodeCall} (hc : c ∈ calls) :
    ⟨wireNonce (c.staged L).src c.counter, (c.staged L).data,
      wireAd (c.staged L).pType (c.staged L).dst (c.staged L).length⟩ ∈ sealLog A L k calls := by
  have hpos := staged_sent_pos h hfit
  have hseals : (c.run A L k).seals = [⟨k, ⟨wireNonce (c.staged L).src c.counter,
      (c.staged L).data, wireAd (c.staged L).pType (c.staged L).dst (c.staged L).length⟩⟩] := by
    have hmax : (c.packet.reset c.src c.dst c.pType c.payload).data.length ≤ maxPayloadSize := by
      show (c.payload.getD []).length ≤ _
      rw [h.payload]
      exact hfit.2
    rw [EncodeCall.run, encodePacket_wire A L _ c.pool c.control c.compress _
      (clearCompress_clearCompress c.pType) hmax, encodeAt_eq, h.control]
    have hdecide := decide_eq_true hpos
    unfold EncodeCall.staged at hdecide
    simp only [Option.map_some, hdecide]
    rfl
  refine List.mem_flatMap.mpr ⟨c, hc, ?_⟩
  rw [hseals]
  exact List.mem_singleton_self _

/-- **A datagram of a worker is worth its packet**, behind which there may be something. -/
theorem unsealed_sent {cs : CipherState Key} {calls : List EncodeCall}
    (hA : A.Ideal cs.key (sealLog A L cs.key calls)) (hT : A.Tagged authenticationTagLength)
    (hL : L.Lossless) (h : SealedUnder cfg A L cs.key e c) (hfit : Fits e.packet)
    (hc : c ∈ calls) (pool : Pool) :
    ∃ rest, unsealed A L pool cs e.wire = some (e.packet ++ rest) := by
  obtain ⟨-, htype, hl, hshape⟩ := staged_sent h hfit
  have hpos := staged_sent_pos h hfit
  have hmem := mem_sealLog_sent h hfit hc
  rw [wire_sent h hfit]
  generalize c.staged L = s at *
  have hbody := length_wireBody A hT s cs.key c.counter hl
  have hsealed : wireBody A s false (some cs.key) c.counter =
      A.sealed cs.key (wireNonce s.src c.counter) s.data (wireAd s.pType s.dst s.length) := by
    unfold wireBody
    rw [if_pos hpos]
  have htag := hT cs.key (wireNonce s.src c.counter) s.data (wireAd s.pType s.dst s.length)
  obtain ⟨raw, pool₁, hparse, hraw⟩ :=
    parsePacket_wire A .empty pool s.dst s.src s.length c.counter htype hbody
  obtain ⟨raw', hdec, hlen, hraw'⟩ := decryptRaw_wire A
    { src := s.src, dst := s.dst, pType := s.pType, length := s.length
      payload := some (wireBody A s false (some cs.key) c.counter), rawData := some raw } cs
    rfl hraw (length_wireAd ..) (length_wireNonce ..)
    (by show 0 < s.length.toNat; rw [← hbody, hsealed, htag]; omega)
    ((hA ..).mpr ⟨hmem, hsealed⟩) (by rw [hsealed, htag]; omega)
  have hhead : (wireAd s.pType s.dst s.length ++ wireNonce s.src c.counter).length =
      headerLength := by
    rw [List.length_append, length_wireAd, length_wireNonce]
    rfl
  have hlong : 0 < e.packet.length := Nat.lt_of_lt_of_le (by decide) hfit.1
  unfold unsealed wireOf
  rw [hparse]
  simp only [htype, if_true]
  rcases hshape with ⟨hplain, hdata⟩ | ⟨hcomp, hne, n, hblock⟩
  · -- uncompressed: the tag stays behind the packet
    rw [decryptParse_plain hdec hplain]
    refine ⟨(wireBody A s false (some cs.key) c.counter).drop s.data.length, ?_⟩
    show tunSend raw'.bytes = _
    rw [tunSend, hraw', if_pos, List.drop_left' hhead, hdata]
    rw [List.length_append, hhead, List.length_append, hdata]
    omega
  · -- compressed: `decompress` rebuilds the packet behind the header
    have hle : headerLength ≤ raw'.len := by
      rw [← Slice.length_bytes, hraw', List.length_append, hhead]
      exact Nat.le_add_right ..
    rw [decryptParse_compressed hdec hcomp]
    obtain ⟨buf, h1, h2, h3⟩ := decompress_block L
      { src := s.src, dst := s.dst, pType := s.pType, length := s.length
        payload := some s.data, rawData := some raw' } pool₁ rfl hle
      (hL _ n _ _ hblock hne hfit.2) hlong hfit.2
    refine ⟨[], ?_⟩
    rw [List.append_nil]
    generalize GamePacket.decompress L _ pool₁ = r at h1 h2
    obtain ⟨err, g, pool₂⟩ := r
    cases h1
    cases h2
    show tunSend buf.bytes = some e.packet
    rw [tunSend, h3, hraw', List.take_left' hhead, if_pos, List.drop_left' hhead]
    rw [List.length_append, hhead]
    omega

end Sender

/-! ## Other datagrams -/

/-- An empty block is not decompressed to anything. -/
def NoEmptyBlock (L : Lz4) : Prop := ∀ n out, L.uncompressBlock [] n = some out → out = []

section Forged

variable {A : Aead Key} {L : Lz4} {pool : Pool} {cs : CipherState Key} {bytes : Bytes}

theorem decompress_empty (hnil : NoEmptyBlock L) {g : GamePacket} (hdata : g.data = [])
    (pool : Pool) : (g.decompress L pool).1 ≠ none := by
  apply GamePacket.decompress_nothing
  rw [hdata]
  cases hblock : L.uncompressBlock [] maxPayloadSize with
  | none => rfl
  | some out =>
    rw [hnil _ _ hblock]
    rfl

/-- A datagram without a body is not encrypted, and does not get to the device. -/
theorem unsealed_empty (hnil : NoEmptyBlock L) {gp : GamePacket} {pool₁ : Pool}
    (hparse : GamePacket.empty.parsePacket A pool bytes true
      (none : Option (CipherState Key)) = (none, gp, pool₁))
    (hzero : gp.length.toNat = 0) : unsealed A L pool cs bytes = none := by
  obtain ⟨hmin, raw, hraw, hgp⟩ := parsePacket_ok hparse
  have hlen : bytes.length = headerLength := by
    have haccepted := (parsePacket_accepts A .empty pool bytes).mp (by rw [hparse])
    obtain ⟨-, -, hvalid, -⟩ := parseHeader_eq_ok.mp (parseHeader_parseMode.mpr ⟨haccepted, rfl⟩)
    have hfield : (headerOf bytes).length = 0 := by
      rw [hgp] at hzero
      exact UInt16.toNat_inj.mp hzero
    unfold validPayloadLength at hvalid
    rw [if_pos hfield] at hvalid
    have := eq_of_beq hvalid
    omega
  unfold unsealed
  rw [hparse]
  simp only
  split
  · unfold GamePacket.decryptParse
    rw [GamePacket.decryptRaw_of_length_eq_zero hzero]
    simp only
    cases hcomp : compressed gp.pType with
    | false =>
      simp only [Bool.false_eq_true, if_false, hgp, Option.bind_some, tunSend, hraw]
      exact if_neg (by omega)
    | true =>
      have hdata : gp.data = [] := by
        rw [hgp]
        exact List.drop_eq_nil_of_le (Nat.le_of_eq hlen)
      have hfailed := decompress_empty hnil hdata pool₁
      simp only [if_true]
      cases hdec : gp.decompress L pool₁ with
      | mk err rest =>
        cases err with
        | some e => rfl
        | none =>
          rw [hdec] at hfailed
          exact absurd rfl hfailed
  · rfl

/-- **What no worker has emitted is worth nothing.** -/
theorem unsealed_forged {calls : List EncodeCall}
    (hA : A.Authentic cs.key (sealLog A L cs.key calls)) (hnil : NoEmptyBlock L)
    (hforged : ∀ c ∈ calls, (c.run A L cs.key).wire ≠ some bytes) :
    unsealed A L pool cs bytes = none := by
  cases hparse : GamePacket.empty.parsePacket A pool bytes true
      (none : Option (CipherState Key)) with
  | mk err rest =>
    obtain ⟨gp, pool₁⟩ := rest
    cases err with
    | some e =>
      unfold unsealed
      rw [hparse]
    | none =>
      rcases Nat.eq_zero_or_pos gp.length.toNat with hzero | hpos
      · exact unsealed_empty hnil hparse hzero
      · obtain ⟨-, raw, hraw, hgp⟩ := parsePacket_ok hparse
        unfold unsealed
        rw [hparse]
        simp only
        split
        · cases hdec : gp.decryptParse A L pool₁ (some cs) with
          | mk err rest =>
            cases err with
            | some e => rfl
            | none =>
              -- the body was opened, so a worker has sealed it
              obtain ⟨gd, hdecrypted⟩ := decryptRaw_of_decryptParse hdec
              obtain ⟨q, -, hopen, -⟩ := decryptRaw_ok (by rw [hgp]) hpos hdecrypted
              rw [hraw] at hopen
              obtain ⟨c, hc, -, -, hwire, -⟩ := opened_eq_wireOf hA hopen
              exact absurd hwire (hforged c hc)
        · rfl

end Forged

/-! ## The tunnel -/

section Tunnel

variable {N : Ops Bytes} {A : Aead Key} {L : Lz4} {cfg : ClientConfig} {cs : CipherState Key}
  {sents : List (Emission × EncodeCall)}

/-- The packet that a datagram was emitted for. -/
def packetOf (sents : List (Emission × EncodeCall)) (bytes : Bytes) : Option Bytes :=
  (sents.find? fun x => x.1.wire = bytes).map (·.1.packet)

/-- A packet that a host sends: it fits into a datagram, and says how long it is. -/
structure Outgoing (cfg : ClientConfig) (A : Aead Key) (L : Lz4) (k : Key)
    (x : Emission × EncodeCall) : Prop where
  sealed : SealedUnder cfg A L k x.1 x.2
  fits : Fits x.1.packet
  total : Ipv4.totalLength x.1.packet = x.1.packet.length

/-- **What one datagram is worth** to the host. -/
theorem unsealed_eq (hsent : ∀ x ∈ sents, Outgoing cfg A L cs.key x)
    (hA : A.Ideal cs.key (sealLog A L cs.key (sents.map (·.2))))
    (hT : A.Tagged authenticationTagLength) (hL : L.Lossless) (hnil : NoEmptyBlock L)
    (pool : Pool) (bytes : Bytes) :
    (unsealed A L pool cs bytes).map Ipv4.trim = packetOf sents bytes := by
  unfold packetOf
  cases hfind : sents.find? fun x => x.1.wire = bytes with
  | some x =>
    have hx := hsent x (List.mem_of_find?_eq_some hfind)
    have hwire : x.1.wire = bytes := by
      have := List.find?_some hfind
      exact of_decide_eq_true this
    have hmem : x.2 ∈ sents.map (·.2) :=
      List.mem_map_of_mem (List.mem_of_find?_eq_some hfind)
    obtain ⟨rest, hrest⟩ := unsealed_sent hA hT hL hx.sealed hx.fits hmem pool
    rw [← hwire, hrest]
    show some (Ipv4.trim (x.1.packet ++ rest)) = some x.1.packet
    rw [Ipv4.trim_append (Nat.le_trans (by decide) hx.fits.1) hx.total]
  | none =>
    rw [unsealed_forged hA.authentic hnil]
    · rfl
    · intro c hc hrun
      obtain ⟨x, hx, rfl⟩ := List.mem_map.mp hc
      have hwire : x.1.wire = bytes :=
        Option.some.inj ((hsent x hx).sealed.wire.symm.trans hrun)
      have := List.find?_eq_none.mp hfind x hx
      exact this (decide_eq_true hwire)

/-- A packet of 20 bytes that says so. -/
def casePacket : Bytes := [0x45, 0, 0, 20] ++ List.replicate 16 0

end Tunnel

end EasyTun.Transport.Tunnel
