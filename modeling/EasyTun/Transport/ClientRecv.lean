import EasyTun.Protocol.Noise
import EasyTun.Protocol.RoundTrip

/-!
# Receiving a datagram (`packetRecv` in `internal/transport/client_udp.go`)

One datagram through a client: it is parsed without a cipher, a data packet goes
to the session manager, which may take it for a handshake message, and only what
a ready session decrypts is forwarded to the TUN device.

`forwarded_integrity`: under an ideal cipher, **whatever is forwarded was sent**.
The parser that runs before authentication is lenient, so nothing it reports can
be trusted on its own. But the nine bytes of associated data and the twelve
bytes of the nonce are the whole header, so once the body opens every byte of
the datagram is one that an `EncodePacket` under the same key emitted.
-/

namespace EasyTun.Transport

open EasyTun.Lib EasyTun.Protocol EasyTun.Protocol.GamePacket
open EasyTun.Lib.NoiseIK

/-! ## The receive loop -/

/-- What becomes of one datagram. -/
inductive RecvOutcome where
  /-- Nothing is sent or forwarded. -/
  | dropped
  /-- A handshake response goes back to the sender of the datagram. -/
  | responded (data : Option Bytes)
  /-- The packet is put into `FromNet`. -/
  | forwarded (gp : GamePacket)
  /-- Not a data packet: the ping, pong and DNS branches. -/
  | control (gp : GamePacket)

/-- Whether the datagram reached `FromNet`. -/
def RecvOutcome.isForwarded : RecvOutcome → Bool
  | .forwarded _ => true
  | _ => false

/-- The `TypeData` branch (client_udp.go:137–176), after a successful parse.
`room` says whether `FromNet` takes another packet. -/
def recvData (N : Ops Bytes) (A : Aead Key) (L : Lz4) (m : NoiseManager) (pool : Pool)
    (localIp : ByteArr 4) (gp : GamePacket) (eph : Nat) (now : Int) (room : Bool) :
    NoiseManager × Pool × RecvOutcome :=
  let srcVip := gp.src
  let put := fun (pool : Pool) (gp : GamePacket) =>
    pool.put ((gp.rawData.getD (Slice.make 0)).upTo 0)
  match m.handleNoisePacket N srcVip gp.data eph now with
  | (m, .error _) => (m, put pool gp, .dropped)
  | (m, .ok (_, some response)) =>
    let respGp := newGamePacket localIp srcVip typeData (some response)
    let data := respGp.encodePacket A L pool false false none
    (m, put data.2 gp, .responded data.1.wire)
  | (m, .ok (none, none)) => (m, put pool gp, .dropped)
  | (m, .ok (some sid, none)) =>
    match gp.decryptParse A L pool (m.heap sid).cipher.recver with
    | (some _, gp, pool) => (m, put pool gp, .dropped)
    | (none, gp, pool) =>
      let m := m.modify sid (·.updateLastSeen now)
      if room then (m, pool, .forwarded gp) else (m, put pool gp, .dropped)

/-- `packetRecv` on one datagram (client_udp.go:127–177). -/
def packetRecv (N : Ops Bytes) (A : Aead Key) (L : Lz4) (m : NoiseManager) (pool : Pool)
    (localIp : ByteArr 4) (datagram : Bytes) (eph : Nat) (now : Int) (room : Bool) :
    NoiseManager × Pool × RecvOutcome :=
  match GamePacket.empty.parsePacket A pool datagram true none with
  | (some _, _, pool) => (m, pool, .dropped)
  | (none, gp, pool) =>
    if clearCompress gp.pType = typeData then
      recvData N A L m pool localIp gp eph now room
    else (m, pool, .control gp)

/-- Only data packets go to the session manager. -/
theorem packetRecv_control {N : Ops Bytes} {A : Aead Key} {L : Lz4} {m : NoiseManager}
    {pool pool' : Pool} {localIp : ByteArr 4} {d : Bytes} {eph : Nat} {now : Int} {room : Bool}
    {gp : GamePacket} (hparse : GamePacket.empty.parsePacket A pool d true none = (none, gp, pool'))
    (htype : clearCompress gp.pType ≠ typeData) :
    packetRecv N A L m pool localIp d eph now room = (m, pool', .control gp) := by
  rw [packetRecv, hparse]
  exact if_neg htype

/-- What a ready session's owner forwards has been decrypted by that session. -/
theorem packetRecv_forwarded {N : Ops Bytes} {A : Aead Key} {L : Lz4} {m m' : NoiseManager}
    {pool pool' : Pool} {localIp : ByteArr 4} {d : Bytes} {eph : Nat} {now : Int} {room : Bool}
    {g : GamePacket} {sid : SessionId}
    (hsess : m.getSession (.ofBytes 4 (d.drop 9)) = some sid)
    (hready : (m.heap sid).isReady = true)
    (h : packetRecv N A L m pool localIp d eph now room = (m', pool', .forwarded g)) :
    ∃ gp pool₁ pool₂,
      GamePacket.empty.parsePacket A pool d true none = (none, gp, pool₁) ∧
      gp.decryptParse A L pool₁ (m.heap sid).cipher.recver = (none, g, pool₂) := by
  unfold packetRecv at h
  cases hparse : GamePacket.empty.parsePacket A pool d true none with
  | mk err rest =>
    obtain ⟨gp, pool₁⟩ := rest
    cases err with
    | some e =>
      rw [hparse] at h
      cases h
    | none =>
      obtain ⟨-, raw, -, hgp⟩ := parsePacket_ok hparse
      have hsrc : gp.src = .ofBytes 4 (d.drop 9) := by rw [hgp]
      rw [hparse] at h
      simp only at h
      split at h
      · -- a ready session hands the packet straight to the decryption
        unfold recvData NoiseManager.handleNoisePacket at h
        simp only [hsrc, hsess, hready, if_true] at h
        cases hdec : gp.decryptParse A L pool₁ (m.heap sid).cipher.recver with
        | mk err rest =>
          obtain ⟨g', pool₂⟩ := rest
          rw [hdec] at h
          cases err with
          | some e => cases h
          | none =>
            simp only at h
            split at h
            · cases h
              exact ⟨gp, pool₁, _, rfl, hdec⟩
            · cases h
      · cases h

/-! ## What was sealed under a key -/

/-- The arguments of one `Reset` and `EncodePacket` with a given sender key. -/
structure EncodeCall where
  packet : GamePacket
  src : ByteArr 4
  dst : ByteArr 4
  pType : UInt8
  payload : Option Bytes
  control : Bool
  compress : Bool
  counter : UInt64
  pool : Pool

namespace EncodeCall

variable {K : Type}

/-- The packet of a call, after compression. -/
def staged (c : EncodeCall) (L : Lz4) : GamePacket :=
  (c.packet.reset c.src c.dst c.pType c.payload).staged L c.pool c.compress

/-- The call itself. -/
def run (c : EncodeCall) (A : Aead K) (L : Lz4) (k : K) : Encoded K :=
  ((c.packet.reset c.src c.dst c.pType c.payload).encodePacket A L c.pool c.control c.compress
    (some ⟨k, c.counter⟩)).1

/-- **The `Seal` calls of an `EncodePacket`** are at most one, and its arguments
are the cuts of the wire string it returned. -/
theorem run_of_mem_seals {A : Aead K} {L : Lz4} {k : K} {c : EncodeCall} {e : SealCall K}
    (h : e ∈ (c.run A L k).seals) :
    (c.payload.getD []).length ≤ maxPayloadSize ∧ 0 < (c.staged L).data.length ∧
    e.args = ⟨wireNonce (c.staged L).src c.counter, (c.staged L).data,
      wireAd (c.staged L).pType (c.staged L).dst (c.staged L).length⟩ ∧
    (c.run A L k).wire = some (wireOf A (c.staged L) k c.counter) := by
  have hflag := clearCompress_clearCompress c.pType
  by_cases hmax : (c.payload.getD []).length ≤ maxPayloadSize
  · have hrun := encodePacket_wire A L (c.packet.reset c.src c.dst c.pType c.payload) c.pool
      c.control c.compress (some ⟨k, c.counter⟩) hflag hmax
    rw [encodeAt_eq] at hrun
    unfold run at h ⊢
    rw [hrun] at h ⊢
    refine ⟨hmax, ?_⟩
    simp only [Option.map_some] at h ⊢
    cases hdata : decide (0 < (c.staged L).data.length) <;> cases hctl : c.control <;>
      unfold staged at hdata <;> rw [hdata, hctl] at h <;> simp only at h
    · cases h
    · cases h
    · rw [List.mem_singleton.mp h]
      exact ⟨of_decide_eq_true hdata, rfl, rfl⟩
    · cases h
  · -- an oversized payload is refused before anything is sealed
    have hnone : payloadLengthField
        (c.packet.reset c.src c.dst c.pType c.payload).data.length = none := by
      show payloadLengthField (c.payload.getD []).length = none
      rw [payloadLengthField, if_pos (Nat.lt_of_not_le hmax)]
    unfold run GamePacket.encodePacket at h
    rw [hnone] at h
    cases h

end EncodeCall

/-- Everything sealed under `k` by a list of calls. -/
def sealLog {K : Type} (A : Aead K) (L : Lz4) (k : K) (calls : List EncodeCall) :
    List SealArgs :=
  calls.flatMap fun c => (c.run A L k).seals.map (·.args)

theorem mem_sealLog {K : Type} {A : Aead K} {L : Lz4} {k : K} {calls : List EncodeCall}
    {a : SealArgs} (h : a ∈ sealLog A L k calls) :
    ∃ c ∈ calls, ∃ e ∈ (c.run A L k).seals, e.args = a := by
  obtain ⟨c, hc, ha⟩ := List.mem_flatMap.mp h
  obtain ⟨e, he, rfl⟩ := List.mem_map.mp ha
  exact ⟨c, hc, e, he, rfl⟩

/-- Limiting `Open` does not change what is sealed. -/
theorem sealLog_restrict {K : Type} (A : Aead K) (L : Lz4) (k : K) (log : List SealArgs)
    (calls : List EncodeCall) : sealLog (A.restrict log) L k calls = sealLog A L k calls :=
  rfl

/-! ## Integrity -/

/-- Decompression on the receiving side undoes the compression of a call: once
the staged payload is recovered, `Payload` ends as the payload of the call. -/
theorem decryptParse_payload {A : Aead Key} {L : Lz4} (hL : L.Lossless) {c : EncodeCall}
    (hmax : (c.payload.getD []).length ≤ maxPayloadSize) {gp gd g : GamePacket}
    {pool pool' : Pool} {cipher : Option (CipherState Key)} {raw : Slice}
    (hdec : gp.decryptRaw A cipher = (none, gd)) (htype : gd.pType = (c.staged L).pType)
    (hdata : gd.payload = some (c.staged L).data) (hraw : gd.rawData = some raw)
    (hlen : headerLength ≤ raw.len)
    (h : gp.decryptParse A L pool cipher = (none, g, pool')) :
    g.payload = some (c.payload.getD []) := by
  obtain ⟨-, -, ⟨-, ht, hd⟩ | ⟨hc, ht, hne, n, hb⟩⟩ :=
    staged_reset L c.packet c.src c.dst c.pType c.payload c.pool c.compress
  · rw [decryptParse_plain hdec (by rw [htype, EncodeCall.staged, ht, compressed_clearCompress])]
      at h
    cases h
    rw [hdata, EncodeCall.staged, hd]
  · have hplain : gd.data = (c.staged L).data := by rw [GamePacket.data, hdata]; rfl
    obtain ⟨buf, h1, h2, -⟩ := decompress_block L gd pool hraw hlen
      (hplain ▸ hL _ n _ _ hb hne hmax) (Nat.lt_trans (by decide) hc.2.1) hmax
    rw [decryptParse_compressed hdec
      (by rw [htype, EncodeCall.staged, ht, compressed_setCompress])] at h
    rw [h] at h2
    have hg : g = { gd with rawData := some buf, payload := some (c.payload.getD []) } := h2
    rw [hg]

/-- The length of an accepted packet is its length field. -/
theorem length_of_parsePacket {A : Aead Key} {g g' : GamePacket} {pool pool' : Pool} {d : Bytes}
    (h : g.parsePacket A pool d true (none : Option (CipherState Key)) = (none, g', pool')) :
    g'.length.toNat = ofBE ((d.drop 7).take 2) := by
  obtain ⟨hmin, raw, -, hg⟩ := parsePacket_ok h
  have htake : ((d.drop 7).take 2).length = 2 := by
    rw [List.length_take, List.length_drop]
    unfold headerLength nonceLength at hmin
    omega
  have hlt := ofBE_lt ((d.drop 7).take 2)
  rw [htake] at hlt
  rw [hg]
  exact UInt16.toNat_ofNat_of_lt hlt

/-- `DecryptParse` succeeds only where the decryption does. -/
theorem decryptRaw_of_decryptParse {A : Aead Key} {L : Lz4} {gp g : GamePacket}
    {pool pool' : Pool} {cipher : Option (CipherState Key)}
    (h : gp.decryptParse A L pool cipher = (none, g, pool')) :
    ∃ gd, gp.decryptRaw A cipher = (none, gd) := by
  cases hraw : gp.decryptRaw A cipher with
  | mk err gd =>
    cases err with
    | none => exact ⟨gd, rfl⟩
    | some e =>
      unfold decryptParse at h
      rw [hraw] at h
      cases h

/-- **A body that opens was sealed by one of the calls**, and the datagram around it
is the output of that call. -/
theorem opened_eq_wireOf {A : Aead Key} {L : Lz4} {k : Key} {calls : List EncodeCall}
    (hauth : A.Authentic k (sealLog A L k calls)) {d q : Bytes}
    (hopen : A.opened k ((d.drop 9).take nonceLength) (d.drop headerLength)
      (d.take (headerLength - nonceLength)) = some q) :
    ∃ c ∈ calls, (c.payload.getD []).length ≤ maxPayloadSize ∧ (c.staged L).data = q ∧
      (c.run A L k).wire = some d ∧ d = wireOf A (c.staged L) k c.counter ∧
      wireBody A (c.staged L) false (some k) c.counter = d.drop headerLength := by
  obtain ⟨hmem, hbody⟩ := hauth _ _ _ _ hopen
  obtain ⟨c, hc, e, he, hargs⟩ := mem_sealLog hmem
  obtain ⟨hmax, h0, hcall, hwire⟩ := EncodeCall.run_of_mem_seals he
  rw [hcall] at hargs
  obtain ⟨hn, hq, had⟩ := SealArgs.mk.inj hargs
  have hsealed : wireBody A (c.staged L) false (some k) c.counter = d.drop headerLength := by
    rw [hbody, ← hn, ← hq, ← had, wireBody, if_pos h0]
  have hd : d = wireOf A (c.staged L) k c.counter := by
    unfold wireOf
    rw [hsealed, hn, had]
    exact eq_of_wire_cuts rfl rfl rfl
  exact ⟨c, hc, hmax, hq, hd ▸ hwire, hd, hsealed⟩

/-- **Integrity of everything delivered.** Let the session for the datagram's
source address be ready and let every `Seal` under its receive key come from the
calls in `calls`. If a datagram with a non-zero length field is forwarded, it is
byte for byte the output of one of these calls and the recovered payload is the
payload of that call. It also has the full length its field announces, so the
truncated form that the lenient parser accepts is never delivered. -/
theorem forwarded_integrity (N : Ops Bytes) (A : Aead Key) (L : Lz4)
    (hT : A.Tagged authenticationTagLength) (hL : L.Lossless) (m m' : NoiseManager)
    (pool pool' : Pool) (localIp : ByteArr 4) (d : Bytes) (eph : Nat) (now : Int) (room : Bool)
    (sid : SessionId) (cs : CipherState Key) (calls : List EncodeCall) (g : GamePacket)
    (hsess : m.getSession (.ofBytes 4 (d.drop 9)) = some sid)
    (hready : (m.heap sid).isReady = true)
    (hrecv : (m.heap sid).cipher.recver = some cs)
    (hauth : A.Authentic cs.key (sealLog A L cs.key calls))
    (hfield : ofBE ((d.drop 7).take 2) ≠ 0)
    (hfwd : packetRecv N A L m pool localIp d eph now room = (m', pool', .forwarded g)) :
    (∃ c ∈ calls, (c.run A L cs.key).wire = some d ∧ g.payload = some (c.payload.getD [])) ∧
      d.length = headerLength + ofBE ((d.drop 7).take 2) := by
  obtain ⟨gp, pool₁, pool₂, hparse, hdec⟩ := packetRecv_forwarded hsess hready hfwd
  obtain ⟨hmin, raw, hbytes, hgp⟩ := parsePacket_ok hparse
  have hpos : 0 < gp.length.toNat := by
    rw [length_of_parsePacket hparse]
    exact Nat.pos_of_ne_zero hfield
  rw [hrecv] at hdec
  obtain ⟨gd, hraw⟩ := decryptRaw_of_decryptParse hdec
  obtain ⟨q, raw', hopen, hrlen, hgd⟩ := decryptRaw_ok (by rw [hgp]) hpos hraw
  rw [hbytes] at hopen
  obtain ⟨c, hc, hmax, hq, hwire, hd, hsealed⟩ := opened_eq_wireOf hauth hopen
  refine ⟨⟨c, hc, hwire, ?_⟩, ?_⟩
  · have htype : gd.pType = (c.staged L).pType := by
      rw [hgd, hgp]
      show d.getD 2 0 = _
      rw [hd]
      exact getD_two_wireAd ..
    have hlen : headerLength ≤ raw'.len := by
      rw [hrlen, ← Slice.length_bytes, hbytes]
      exact hmin
    exact decryptParse_payload hL hmax hraw htype (by rw [hgd, ← hq]) (by rw [hgd]) hlen hdec
  · -- the field was authenticated with the body, so it tells the length
    have hbl := length_wireBody A hT (c.staged L) cs.key c.counter
      (staged_lengthField L _ c.pool c.compress (clearCompress_clearCompress _) hmax)
    have hfl : ofBE ((d.drop 7).take 2) = (c.staged L).length.toNat := by
      rw [hd]
      exact lengthField_wireAd ..
    rw [hsealed, List.length_drop, ← hfl] at hbl
    omega

section OneDatagram

/-- The manager of an initiator. -/
def caseManager : NoiseManager :=
  (NoiseManager.new samplePub (.zero 4)).install (.zero 4)
    ((NoiseSession.new (.zero 4) true none 0).complete sampleTranscript)

/-- A packet the responder sends. -/
def caseCall : EncodeCall :=
  { packet := .empty, src := .zero 4, dst := .zero 4, pType := typeData
    payload := some [1, 2, 3], control := false, compress := false, counter := 7
    pool := .fresh 2048 }

/-- The real cipher. -/
def caseCipher : Aead Key := chacha20Poly1305.comap fun _ => .zero 32

/-- The real cipher, with `Open` limited to that packet. -/
def caseAead : Aead Key :=
  caseCipher.restrict (sealLog caseCipher Lz4.stored ⟨sampleTranscript, .cs1⟩ [caseCall])

/-- The packet on the wire. -/
def caseWire : Bytes :=
  [218, 170, 8, 0, 0, 0, 0, 0, 19, 0, 0, 0, 0, 0, 0, 0, 0, 0, 0, 0, 7, 148, 190, 7, 83, 132,
    187, 123, 147, 30, 37, 33, 217, 12, 236, 107, 248, 24, 184, 174]

/-- A Noise library that is never asked. -/
def caseNoise : Ops Bytes where
  len := List.length
  writeFirst _ := []
  readFirst _ _ := none
  writeReply _ := []
  readReply _ _ := none

theorem caseAead_tagged : caseAead.Tagged authenticationTagLength :=
  fun _ n p ad => chacha20Poly1305_tagged (.zero 32) n p ad

theorem caseAead_authentic :
    caseAead.Authentic ⟨sampleTranscript, .cs1⟩
      (sealLog caseAead Lz4.stored ⟨sampleTranscript, .cs1⟩ [caseCall]) := by
  unfold caseAead
  rw [sealLog_restrict]
  exact caseCipher.restrict_authentic ⟨sampleTranscript, .cs1⟩ _

/-- One encrypted datagram is forwarded, and it is the one that was sent. -/
theorem forwarded_integrity_three :
    ∃ m' pool' g, packetRecv caseNoise caseAead Lz4.stored caseManager (.fresh 2048) (.zero 4)
        caseWire 0 0 true = (m', pool', .forwarded g) ∧
      (∃ c ∈ [caseCall], (c.run caseAead Lz4.stored ⟨sampleTranscript, .cs1⟩).wire
        = some caseWire ∧ g.payload = some (c.payload.getD [])) ∧
      caseWire.length = headerLength + ofBE ((caseWire.drop 7).take 2) := by
  have hfwd : (packetRecv caseNoise caseAead Lz4.stored caseManager (.fresh 2048) (.zero 4)
      caseWire 0 0 true).2.2.isForwarded = true := by decide +kernel
  generalize hout : packetRecv caseNoise caseAead Lz4.stored caseManager (.fresh 2048) (.zero 4)
    caseWire 0 0 true = r at hfwd
  obtain ⟨m', pool', out⟩ := r
  cases out with
  | forwarded g =>
    exact ⟨m', pool', g, rfl, forwarded_integrity caseNoise caseAead Lz4.stored caseAead_tagged
      Lz4.stored_lossless caseManager m' (.fresh 2048) pool' (.zero 4) caseWire 0 0 true 0
      ⟨⟨sampleTranscript, .cs1⟩, 0⟩ [caseCall] g (by decide +kernel) rfl rfl caseAead_authentic
      (by decide) hout⟩
  | dropped => cases hfwd
  | responded data => cases hfwd
  | control gp => cases hfwd

end OneDatagram

end EasyTun.Transport
