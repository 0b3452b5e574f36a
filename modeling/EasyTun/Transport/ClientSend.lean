import EasyTun.Lib.Machine
import EasyTun.Protocol.Table
import EasyTun.Transport.ClientRecv

/-!
# Sending packets (`packetSend` in `internal/transport/client_udp.go`)

A worker takes IP packets from the TUN device, one after the other, and sends
each on one of four routes: a query to the virtual DNS server in the clear, a
packet to a host number 255 in the clear, a packet to a peer with a session
through that session, and a packet to a peer without one in a
`TypeNoiseHandshake` query to the server.

The machine has any number of workers on one session manager, whose other callers
run in between (`Call`). A worker stops where they can get in: it looks the
session up, asks whether it is ready, and encodes. `sent` is the log of what left
the client, with the packet that caused it.

- `Sealed`: an emission is an `EncodePacket` output whose payload is sealed under
  the key of a ready session with the packet's destination.
- `payloads_sealed`: **every emission is sealed**, in runs in which every packet
  that needs a session finds one.
- `query_in_clear`: without a session, the packet is the body of the query.
-/

namespace EasyTun.Transport

open EasyTun.Lib EasyTun.Protocol EasyTun.Protocol.GamePacket
open EasyTun.Lib.NoiseIK

/-! ## IP packets -/

/-- `[4]byte(p[16:20])`. -/
def dstIp (p : Bytes) : ByteArr 4 := .ofBytes 4 (p.drop 16)

/-- The length of the IP header. -/
def ihl (p : Bytes) : Nat := (p.getD 0 0 &&& 0x0F).toNat * 4

/-- A query to the virtual DNS server (client_udp.go:50–56). -/
def isDns (dnsIp : ByteArr 4) (p : Bytes) : Bool :=
  if ihl p + 8 ≤ p.length ∧ 20 ≤ ihl p ∧ p.getD 0 0 >>> 4 = 4 ∧ p.getD 9 0 = 17 ∧
      dstIp p = dnsIp then
    ofBE (window p (ihl p + 2) 2) == 53
  else false

/-- What `dnsBuffer` is filled with (client_udp.go:58–62): the source port and the
UDP payload. -/
def dnsRequest (p : Bytes) : Bytes := toBE 2 (ofBE (window p (ihl p) 2)) ++ p.drop (ihl p + 8)

/-- The packet goes through a session: no DNS query, and no broadcast
(client_udp.go:65). -/
def needsSession (dnsIp : ByteArr 4) (p : Bytes) : Bool :=
  !isDns dnsIp p && (dstIp p).1.getD 3 0 != 255

/-! ## The workers -/

/-- What a client is configured with: its address, that of the virtual DNS server
and `config.EnableCompress`. -/
structure ClientConfig where
  localIp : ByteArr 4
  dnsIp : ByteArr 4
  enableCompress : Bool

namespace PacketSend

/-- Where a `packetSend` worker is. -/
inductive Worker where
  /-- It takes the next packet. -/
  | idle
  /-- Line 66: `GetSession` returned this session. -/
  | found (p : Bytes) (sid : SessionId)
  /-- Line 80: the session is ready. -/
  | ready (p : Bytes) (sid : SessionId)

/-- A byte string that left the client, and the packet it left for. -/
structure Emission where
  packet : Bytes
  wire : Bytes
  deriving DecidableEq

/-- The sending half of a client. -/
structure Client where
  mgr : NoiseManager
  worker : Nat → Worker
  sent : List Emission

/-- What happens, with what it draws from the environment. -/
inductive Act (D : Type) where
  /-- Another goroutine calls the manager. -/
  | call (c : NoiseManager.Call Bytes D)
  /-- Worker `k` takes a packet. -/
  | take (k : Nat) (p : Bytes) (pool : Pool)
  | check (k : Nat)
  | encode (k : Nat) (pool : Pool) (now : Int)

variable {D : Type}

def setWorker (s : Client) (k : Nat) (w : Worker) : Client :=
  { s with worker := Function.update s.worker k w }

/-- A nil byte string is sent as an empty datagram. -/
def emit (s : Client) (p : Bytes) (data : Option Bytes) : Client :=
  { s with sent := s.sent ++ [⟨p, data.getD []⟩] }

/-- The packet that asks the server for the peer's key, with `p` as its payload
(client_udp.go:68). `controlSend` encodes it (client_control.go:161). -/
def noiseQuery (cfg : ClientConfig) (p : Bytes) : GamePacket :=
  newGamePacket cfg.localIp (dstIp p) typeNoiseHandshake (some p)

/-- `gp` with a packet for a peer or a broadcast (client_udp.go:81, 85). -/
def dataPacket (cfg : ClientConfig) (p : Bytes) : GamePacket :=
  newGamePacket cfg.localIp (dstIp p) typeData (some p)

/-- `gp` with a DNS query (client_udp.go:63). -/
def dnsPacket (cfg : ClientConfig) (p : Bytes) : GamePacket :=
  newGamePacket cfg.localIp (dstIp p) typeDnsRequest (some (dnsRequest p))

/-- The branches of the loop up to `GetSession` (client_udp.go:48–75, 84–87). -/
def route (cfg : ClientConfig) (A : Aead Key) (L : Lz4) (s : Client) (k : Nat) (p : Bytes)
    (pool : Pool) : Client :=
  if isDns cfg.dnsIp p then
    -- for the server's resolver, which has no session
    emit s p ((dnsPacket cfg p).encodePacket A L pool false false none).1.wire
  else if (dstIp p).1.getD 3 0 ≠ 255 then
    match s.mgr.getSession (dstIp p) with
    -- no session: the server is asked for the peer's key, with the packet as payload
    | none => emit s p ((noiseQuery cfg p).encodePacket A L pool true false none).1.wire
    | some sid => setWorker s k (.found p sid)
  -- a broadcast address belongs to no peer
  else emit s p ((dataPacket cfg p).encodePacket A L pool false false none).1.wire

/-- A packet for a ready session (client_udp.go:81–83). -/
def encode (cfg : ClientConfig) (A : Aead Key) (L : Lz4) (s : Client) (k : Nat) (p : Bytes)
    (sid : SessionId) (pool : Pool) (now : Int) : Client :=
  let mgr := s.mgr.modify sid (·.updateLastSeen now)
  let r := ((dataPacket cfg p).encodePacket A L pool false cfg.enableCompress
    (mgr.heap sid).cipher.sender).1
  let mgr := mgr.modify sid (·.setSender r.cipher)
  emit (setWorker { s with mgr } k .idle) p r.wire

/-- One step. -/
def step (cfg : ClientConfig) (A : Aead Key) (L : Lz4) (N : Ops D) (s : Client) :
    Act D → Option Client
  | .call c => some { s with mgr := s.mgr.call N c }
  | .take k p pool =>
    match s.worker k with
    | .idle => guardTo (20 ≤ p.length) (route cfg A L s k p pool)
    | _ => none
  | .check k =>
    match s.worker k with
    | .found p sid =>
      if (s.mgr.heap sid).isReady then some (setWorker s k (.ready p sid))
      -- the handshake is under way: the packet waits in the session it looked up
      else some (setWorker { s with mgr := s.mgr.modify sid (·.addPendingData p) } k .idle)
    | _ => none
  | .encode k pool now =>
    match s.worker k with
    | .ready p sid => some (encode cfg A L s k p sid pool now)
    | _ => none

/-- A client that has sent nothing. -/
def start (staticPub : PublicKey) (cfg : ClientConfig) : Client :=
  { mgr := .new staticPub cfg.localIp, worker := fun _ => .idle, sent := [] }

def machine (staticPub : PublicKey) (cfg : ClientConfig) (A : Aead Key) (L : Lz4) (N : Ops D) :
    Machine Client (Act D) :=
  { init := start staticPub cfg, step := step cfg A L N }

/-! ## What a ready session emits -/

/-- The emission is an `EncodePacket` output for its packet, with the payload sealed
under `k`. -/
structure SealedUnder (cfg : ClientConfig) (A : Aead Key) (L : Lz4) (k : Key) (e : Emission)
    (c : EncodeCall) : Prop where
  src : c.src = cfg.localIp
  dst : c.dst = dstIp e.packet
  pType : c.pType = typeData
  payload : c.payload = some e.packet
  control : c.control = false
  wire : (c.run A L k).wire = some e.wire
  body : e.wire.drop headerLength =
    A.sealed k (wireNonce cfg.localIp c.counter) (c.staged L).data
      (wireAd (c.staged L).pType (dstIp e.packet) (c.staged L).length)

/-- **The emission is sealed** under the `Sender` key of a ready session with its
packet's destination. -/
def Sealed (cfg : ClientConfig) (A : Aead Key) (L : Lz4) (m : NoiseManager) (e : Emission) :
    Prop :=
  ∃ sid k c, sid < m.next ∧ (m.heap sid).remoteVip = dstIp e.packet ∧
    (m.heap sid).isReady = true ∧ (m.heap sid).sendKey = some k ∧ SealedUnder cfg A L k e c

variable {cfg : ClientConfig} {A : Aead Key} {L : Lz4} {N : Ops D} {m m' : NoiseManager}

/-- Later calls do not take it back. -/
theorem Sealed.evolves {e : Emission} (h : Sealed cfg A L m e) (hm : m.Evolves m') :
    Sealed cfg A L m' e := by
  obtain ⟨sid, k, c, hlt, hvip, hready, hkey, hc⟩ := h
  obtain ⟨hready', hkey'⟩ := hm.ready hlt hready
  exact ⟨sid, k, c, Nat.lt_of_lt_of_le hlt hm.next_le, (hm.vip hlt).trans hvip, hready',
    hkey'.trans hkey, hc⟩

/-- The packet is an IP packet that fits into a datagram. -/
def Fits (p : Bytes) : Prop := 20 ≤ p.length ∧ p.length ≤ maxPayloadSize

/-- The call a worker makes for `p` with the counter at `n`. -/
def callFor (cfg : ClientConfig) (p : Bytes) (pool : Pool) (n : UInt64) : EncodeCall :=
  { packet := .empty, src := cfg.localIp, dst := dstIp p, pType := typeData, payload := some p
    control := false, compress := cfg.enableCompress, counter := n, pool }

/-- There is something to seal, compressed or not. -/
theorem staged_callFor (cfg : ClientConfig) (L : Lz4) {p : Bytes} (hp : 20 ≤ p.length)
    (pool : Pool) (n : UInt64) :
    ((callFor cfg p pool n).staged L).src = cfg.localIp ∧
      ((callFor cfg p pool n).staged L).dst = dstIp p ∧
      0 < ((callFor cfg p pool n).staged L).data.length := by
  obtain ⟨hsrc, hdst, ⟨-, -, hdata⟩ | ⟨-, -, hdata, -⟩⟩ :=
    staged_reset L .empty cfg.localIp (dstIp p) typeData (some p) pool cfg.enableCompress
  · refine ⟨hsrc, hdst, ?_⟩
    rw [EncodeCall.staged, callFor, hdata]
    exact Nat.lt_of_lt_of_le (by decide) hp
  · exact ⟨hsrc, hdst, List.length_pos_of_ne_nil hdata⟩

/-- **What a worker emits for a session with a `Sender`.** -/
theorem encodePacket_sealed (cfg : ClientConfig) (A : Aead Key) (L : Lz4) {p : Bytes}
    (hp : Fits p) (pool : Pool) (cs : CipherState Key) :
    let r := ((dataPacket cfg p).encodePacket A L pool false cfg.enableCompress (some cs)).1
    r.cipher.map (·.key) = some cs.key ∧
      SealedUnder cfg A L cs.key ⟨p, r.wire.getD []⟩ (callFor cfg p pool cs.nonce) := by
  intro r
  have hr : r = _ := encodePacket_wire A L (dataPacket cfg p) pool false cfg.enableCompress
    (some cs) (clearCompress_clearCompress typeData) hp.2
  obtain ⟨hsrc, hdst, hpos⟩ := staged_callFor cfg L hp.1 pool cs.nonce
  have hwire : r.wire =
      some (wireOf A ((callFor cfg p pool cs.nonce).staged L) cs.key cs.nonce) := by
    rw [hr, encodeAt_eq]
    rfl
  refine ⟨by rw [hr]; rfl, ⟨rfl, rfl, rfl, rfl, rfl, ?_, ?_⟩⟩
  · show r.wire = some (r.wire.getD [])
    rw [hwire]
    rfl
  · show (r.wire.getD []).drop headerLength = _
    rw [hwire]
    show (wireOf A _ cs.key cs.nonce).drop headerLength = _
    unfold wireOf
    rw [(wire_cuts _ _ _ (length_wireAd ..) (length_wireNonce ..)).2.2, wireBody, if_pos hpos, hsrc,
      hdst]
    rfl

/-! ## The runs -/

/-- **The condition**: a packet that needs a session finds one, and fits into a
datagram. -/
def Known (cfg : ClientConfig) (s : Client) : Act D → Prop
  | .take _ p _ => needsSession cfg.dnsIp p = true →
      (s.mgr.getSession (dstIp p)).isSome = true ∧ p.length ≤ maxPayloadSize
  | _ => True

instance (cfg : ClientConfig) (s : Client) : (a : Act D) → Decidable (Known cfg s a)
  | .take _ p _ => inferInstanceAs (Decidable (needsSession cfg.dnsIp p = true →
      (s.mgr.getSession (dstIp p)).isSome = true ∧ p.length ≤ maxPayloadSize))
  | .call _ | .check _ | .encode _ _ _ => inferInstanceAs (Decidable True)

/-- What a worker holds on to is a session with its packet's destination. -/
def Worker.Valid (m : NoiseManager) : Worker → Prop
  | .idle => True
  | .found p sid => Fits p ∧ sid < m.next ∧ (m.heap sid).remoteVip = dstIp p
  | .ready p sid => Fits p ∧ sid < m.next ∧ (m.heap sid).remoteVip = dstIp p ∧
      (m.heap sid).isReady = true

theorem Worker.Valid.evolves {w : Worker} (h : w.Valid m) (hm : m.Evolves m') : w.Valid m' := by
  cases w with
  | idle => trivial
  | found p sid =>
    obtain ⟨hp, hlt, hvip⟩ := h
    exact ⟨hp, Nat.lt_of_lt_of_le hlt hm.next_le, (hm.vip hlt).trans hvip⟩
  | ready p sid =>
    obtain ⟨hp, hlt, hvip, hready⟩ := h
    exact ⟨hp, Nat.lt_of_lt_of_le hlt hm.next_le, (hm.vip hlt).trans hvip,
      (hm.ready hlt hready).1⟩

/-- What holds in every state of a run. -/
structure Inv (cfg : ClientConfig) (A : Aead Key) (L : Lz4) (s : Client) : Prop where
  sound : s.mgr.Sound
  workers : ∀ k, (s.worker k).Valid s.mgr
  sent : ∀ e ∈ s.sent, needsSession cfg.dnsIp e.packet = true → Sealed cfg A L s.mgr e

namespace Inv

variable {s : Client}

/-- Another state of the manager. -/
theorem setMgr (h : Inv cfg A L s) (hm : s.mgr.Evolves m) : Inv cfg A L { s with mgr := m } where
  sound := hm.sound h.sound
  workers k := (h.workers k).evolves hm
  sent e he hneeds := (h.sent e he hneeds).evolves hm

theorem setWorker (h : Inv cfg A L s) (k : Nat) {w : Worker} (hw : w.Valid s.mgr) :
    Inv cfg A L (setWorker s k w) where
  sound := h.sound
  workers i := by
    show (Function.update s.worker k w i).Valid s.mgr
    by_cases hi : i = k
    · subst hi
      rw [Function.update_self]
      exact hw
    · rw [Function.update_of_ne hi]
      exact h.workers i
  sent := h.sent

theorem emit (h : Inv cfg A L s) {p : Bytes} {data : Option Bytes}
    (hp : needsSession cfg.dnsIp p = true → Sealed cfg A L s.mgr ⟨p, data.getD []⟩) :
    Inv cfg A L (emit s p data) where
  sound := h.sound
  workers := h.workers
  sent e he := by
    rcases List.mem_append.mp he with hold | hnew
    · exact h.sent e hold
    · rw [List.mem_singleton.mp hnew]
      exact hp

/-- The routes that end in the clear are for other packets. -/
theorem route (h : Inv cfg A L s) (k : Nat) {p : Bytes} (hlen : 20 ≤ p.length) (pool : Pool)
    (hknown : needsSession cfg.dnsIp p = true →
      (s.mgr.getSession (dstIp p)).isSome = true ∧ p.length ≤ maxPayloadSize) :
    Inv cfg A L (route cfg A L s k p pool) := by
  unfold PacketSend.route
  split
  · next hdns =>
    refine h.emit fun hneeds => ?_
    rw [needsSession, hdns] at hneeds
    cases hneeds
  · next hdns =>
    split
    · next hhost =>
      have hneeds : needsSession cfg.dnsIp p = true := by
        rw [needsSession, Bool.eq_false_iff.mpr hdns]
        exact bne_iff_ne.mpr hhost
      obtain ⟨hsome, hmax⟩ := hknown hneeds
      split
      · next hnone =>
        rw [hnone] at hsome
        cases hsome
      · next sid hsid =>
        obtain ⟨hlt, hvip⟩ := h.sound.entry hsid
        exact h.setWorker k ⟨⟨hlen, hmax⟩, hlt, hvip⟩
    · next hhost =>
      refine h.emit fun hneeds => ?_
      rw [needsSession, Bool.and_eq_true] at hneeds
      exact absurd (bne_iff_ne.mp hneeds.2) hhost

/-- A ready session seals. -/
theorem encode (h : Inv cfg A L s) {k : Nat} {p : Bytes} {sid : SessionId}
    (hworker : s.worker k = .ready p sid) (pool : Pool) (now : Int) :
    Inv cfg A L (encode cfg A L s k p sid pool now) := by
  have hvalid := h.workers k
  rw [hworker] at hvalid
  obtain ⟨hp, hlt, hvip, hready⟩ := hvalid
  have hseen : s.mgr.Evolves (s.mgr.modify sid (·.updateLastSeen now)) :=
    .modify s.mgr sid (.of_cipher rfl rfl)
  obtain ⟨hready₁, -⟩ := hseen.ready hlt hready
  -- a ready session has a sender
  have hkeyed := (hseen.sound h.sound).keyed hready₁
  obtain ⟨key, hkey⟩ := Option.isSome_iff_exists.mp hkeyed
  obtain ⟨cs, hcs, rfl⟩ := Option.map_eq_some_iff.mp hkey
  obtain ⟨hcipher, hsealed⟩ := encodePacket_sealed cfg A L hp pool cs
  unfold PacketSend.encode
  dsimp only
  rw [hcs]
  generalize ((dataPacket cfg p).encodePacket A L pool false cfg.enableCompress (some cs)).1 = r
    at hcipher hsealed ⊢
  -- drawing the counter value leaves the key in place
  have hdraw : (s.mgr.modify sid (·.updateLastSeen now)).Evolves
      ((s.mgr.modify sid (·.updateLastSeen now)).modify sid (·.setSender r.cipher)) :=
    .modify _ sid (NoiseSession.grows_setSender (hcipher.trans hkey.symm))
  have hboth := hseen.trans hdraw
  obtain ⟨hready₂, hkey₂⟩ := hdraw.ready hlt hready₁
  refine ((h.setMgr hboth).setWorker k (w := .idle) trivial).emit fun _ => ?_
  exact ⟨sid, cs.key, _, Nat.lt_of_lt_of_le hlt hboth.next_le, (hboth.vip hlt).trans hvip, hready₂,
    hkey₂.trans hkey, hsealed⟩

theorem step (h : Inv cfg A L s) {s' : Client} {a : Act D} (hok : Known cfg s a)
    (hs : PacketSend.step cfg A L N s a = some s') : Inv cfg A L s' := by
  cases a with
  | call c =>
    cases hs
    exact h.setMgr (NoiseManager.evolves_call N s.mgr c)
  | take k p pool =>
    simp only [PacketSend.step] at hs
    split at hs
    · obtain ⟨hlen, rfl⟩ := guardTo_eq_some.mp hs
      exact h.route k hlen pool hok
    · cases hs
  | check k =>
    simp only [PacketSend.step] at hs
    split at hs
    · next p sid hworker =>
      have hvalid := h.workers k
      rw [hworker] at hvalid
      split at hs
      · next hready =>
        cases hs
        exact h.setWorker k ⟨hvalid.1, hvalid.2.1, hvalid.2.2, hready⟩
      · cases hs
        have hm : s.mgr.Evolves (s.mgr.modify sid (·.addPendingData p)) :=
          .modify s.mgr sid (NoiseSession.grows_addPendingData _ p)
        exact (h.setMgr hm).setWorker k (w := .idle) trivial
    · cases hs
  | encode k pool now =>
    simp only [PacketSend.step] at hs
    split at hs
    · next p sid hworker =>
      cases hs
      exact h.encode hworker pool now
    · cases hs

end Inv

theorem inv_start (staticPub : PublicKey) (cfg : ClientConfig) (A : Aead Key) (L : Lz4) :
    Inv cfg A L (start staticPub cfg) where
  sound := NoiseManager.sound_new ..
  workers _ := trivial
  sent _ he := by cases he

/-- **Payloads stay end-to-end encrypted**, in every run in which every packet that
needs a session finds one. Whatever the other callers of the manager do: each byte
string that leaves the client for a packet that is neither a DNS query nor for a
host number 255 is an `EncodePacket` output with the payload sealed under the
`Sender` key of a ready session with the packet's destination. -/
theorem payloads_sealed (staticPub : PublicKey) (cfg : ClientConfig) (A : Aead Key) (L : Lz4)
    (N : Ops D) (s : Client)
    (hr : (machine staticPub cfg A L N).ReachVia (Known cfg) s) :
    ∀ e ∈ s.sent, needsSession cfg.dnsIp e.packet = true → Sealed cfg A L s.mgr e := by
  have hinv : Inv cfg A L s :=
    hr.invariant (inv_start staticPub cfg A L) fun _ h hok hs => h.step hok hs
  exact hinv.sent

section OnePacket

/-- A client at 10.0.6.2. -/
def caseConfig : ClientConfig :=
  { localIp := sampleIp 2, dnsIp := sampleIp 1, enableCompress := false }

/-- An ICMP echo request from it to 10.0.6.3. -/
def casePing : Bytes :=
  [0x45, 0, 0, 28, 0, 1, 0, 0, 64, 1, 0x5a, 0xdc, 10, 0, 6, 2, 10, 0, 6, 3,
    8, 0, 0xf7, 0xfd, 0, 1, 0, 1]

/-- A query of it for `pc.et.`, from one of its ports, with the identifier 0x1234. -/
def caseQueryFrom (port : UInt16) : Bytes :=
  [0x45, 0, 0, 51, 0, 1, 0, 0, 64, 17, 0x5a, 0xb7, 10, 0, 6, 2, 10, 0, 6, 1] ++
    toBE 2 port.toNat ++ [0, 53, 0, 31, 0, 0,
    0x12, 0x34, 1, 0, 0, 1, 0, 0, 0, 0, 0, 0, 2, 0x70, 0x63, 2, 0x65, 0x74, 0, 0, 1, 0, 1]

/-- The one from the port 0xc001. -/
def caseQuery : Bytes := caseQueryFrom 0xc001

/-- A peer's handshake is answered, and then a packet for it is taken and sent. -/
theorem payloads_sealed_ping :
    ∃ s, (machine samplePub' caseConfig caseCipher Lz4.stored ideal).ReachVia (Known caseConfig) s ∧
      s.sent.map (·.packet) = [casePing] ∧
      ∀ e ∈ s.sent, needsSession caseConfig.dnsIp e.packet = true →
        Sealed caseConfig caseCipher Lz4.stored s.mgr e := by
  obtain ⟨s, hr, hsent⟩ : ∃ s, (machine samplePub' caseConfig caseCipher Lz4.stored
      ideal).ReachVia (Known caseConfig) s ∧ s.sent.map (·.packet) = [casePing] :=
    Machine.exists_reachVia
      [.call (.handleResponderFirst (sampleIp 3) (.first sampleTranscript.first) 1 0),
        .take 0 casePing (.fresh 2048), .check 0, .encode 0 (.fresh 2048) 0]
      (by decide +kernel)
  exact ⟨s, hr, hsent, payloads_sealed _ _ _ _ _ s hr⟩

end OnePacket

/-! ## The route of a packet without a session -/

/-- The query of a packet without a session has the packet as its body. -/
theorem query_in_clear (cfg : ClientConfig) (A : Aead Key) (L : Lz4) {s : Client} {k : Nat}
    {p : Bytes} (pool : Pool) (hneeds : needsSession cfg.dnsIp p = true)
    (hnone : s.mgr.getSession (dstIp p) = none) (hmax : p.length ≤ maxPayloadSize) :
    route cfg A L s k p pool =
      emit s p (some (clearWire cfg.localIp (dstIp p) typeNoiseHandshake p)) := by
  rw [needsSession, Bool.and_eq_true, Bool.not_eq_true', bne_iff_ne] at hneeds
  have hdns : ¬isDns cfg.dnsIp p = true := by
    rw [hneeds.1]
    exact Bool.false_ne_true
  have hquery := encodePacket_clear A L .empty cfg.localIp (dstIp p) typeNoiseHandshake pool true
    hmax
  rw [route, if_neg hdns, if_pos hneeds.2, hnone]
  exact congrArg (emit s p) hquery

/-- **The first packet to a peer is not encrypted.** It leaves the client as the
body of the query for the peer's key. -/
theorem first_packet_in_clear :
    ∃ s, (machine samplePub' caseConfig caseCipher Lz4.stored ideal).Reach s ∧
      ∃ e ∈ s.sent, e.packet = casePing ∧ needsSession caseConfig.dnsIp e.packet = true ∧
        e.wire.drop headerLength = casePing := by
  refine ⟨_, Machine.Reach.step (a := .take 0 casePing (.fresh 2048)) .init rfl, ?_⟩
  rw [query_in_clear caseConfig caseCipher Lz4.stored (.fresh 2048) (by decide) rfl (by decide)]
  exact ⟨_, List.mem_singleton_self _, rfl, by decide, drop_clearWire ..⟩

end PacketSend

end EasyTun.Transport
