import EasyTun.Transport.ClientSend
import EasyTun.Transport.ControlRecv

/-!
# The first packet to a new peer

A packet for a peer without a session goes to the server as the payload of a query
for the peer's key. The server sends it back behind the key, and the client queues
it with the session it begins: as a slice of `readBuffer`, from which it is read
when the handshake is complete.

- `echo`, `echo_eq_some`: the way of the packet over the server and back;
- `Queued`: what is true of the session from then on;
- `first_packet_unchanged`: **the packet that is put on `tunChan` is the one that was
  sent**, if no frame in between has other bytes where the packet is;
- `first_packet_replaced`: a second new peer answers, and the first one is sent the
  packet of the second.
-/

namespace EasyTun.Transport

open EasyTun.Lib EasyTun.Lib.NoiseIK EasyTun.Protocol EasyTun.Protocol.GamePacket
open PacketSend (noiseQuery)

namespace ControlRecv

variable {K D : Type}

/-! ## To the server and back -/

/-- The packet that `handleNoiseHandshake` sends to the client that asked
(server_ws.go:184–202). -/
def noiseResponse (noisePublicKey : PublicKey) (virtualIp : ByteArr 4) (gp : GamePacket) :
    GamePacket :=
  newGamePacket gp.dst virtualIp typeNoiseResponse (some (noisePublicKey.1 ++ gp.data))

/-- **The way of a packet**: `controlSend` encodes the query, the server parses it with
`ParseControl`, and its `writePump` encodes the response. -/
def echo (A : Aead K) (L : Lz4) (cfg : ClientConfig) (noisePublicKey : PublicKey) (p : Bytes)
    (pool pool' : Pool) : Option Bytes :=
  ((noiseQuery cfg p).encodePacket A L pool true false none).1.wire.bind fun query =>
    (accept query).bind fun gp =>
      ((noiseResponse noisePublicKey cfg.localIp gp).encodePacket A L pool' true false none).1.wire

/-- Where the packet is in the response: behind the header and the key. -/
def echoOff : Nat := headerLength + 32

theorem accept_clear (src dst : ByteArr 4) (pType : UInt8) {payload : Bytes}
    (htype : compressed pType = false) (hmax : payload.length ≤ maxPayloadSize) :
    ∃ gp, accept (clearWire src dst pType payload) = some gp ∧ gp.src = src ∧ gp.dst = dst ∧
      gp.pType = pType ∧ gp.data = payload := by
  unfold accept
  rw [parseControl_clear .empty src dst pType htype hmax]
  exact ⟨_, rfl, rfl, rfl, rfl, rfl⟩

/-- A packet that comes back was short enough, and is the payload behind the key. -/
theorem echo_eq_some {A : Aead K} {L : Lz4} {cfg : ClientConfig} {noisePublicKey : PublicKey}
    {p frame : Bytes} {pool pool' : Pool}
    (h : echo A L cfg noisePublicKey p pool pool' = some frame) :
    (noisePublicKey.1 ++ p).length ≤ maxPayloadSize ∧
      frame = clearWire (dstIp p) cfg.localIp typeNoiseResponse (noisePublicKey.1 ++ p) := by
  obtain ⟨query, hquery, h⟩ := Option.bind_eq_some_iff.mp h
  obtain ⟨gp, hgp, hframe⟩ := Option.bind_eq_some_iff.mp h
  have hmax : p.length ≤ maxPayloadSize := le_maxPayloadSize_of_wire hquery
  have hwire := encodePacket_clear A L .empty cfg.localIp (dstIp p) typeNoiseHandshake pool true
    hmax
  cases hquery.symm.trans hwire
  obtain ⟨gp', hgp', hsrc, hdst, htype, hdata⟩ :=
    accept_clear cfg.localIp (dstIp p) (clearCompress typeNoiseHandshake) rfl hmax
  cases hgp.symm.trans hgp'
  rw [noiseResponse, hdst, hdata] at hframe
  have hmax' : (noisePublicKey.1 ++ p).length ≤ maxPayloadSize := le_maxPayloadSize_of_wire hframe
  have hwire' := encodePacket_clear A L .empty (dstIp p) cfg.localIp typeNoiseResponse pool' true
    hmax'
  exact ⟨hmax', Option.some.inj (hframe.symm.trans hwire')⟩

/-! ## The packet waits -/

/-- **The condition**: a frame in between has nothing else than `p` where `p` is, as far
as it goes. A frame that ends before that is one. -/
def Spares (p : Bytes) : Client → Act D → Prop
  | _, .frame frame _ _ => window frame echoOff p.length <+: p
  | _, .call _ => True

instance (p : Bytes) (s : Client) : (a : Act D) → Decidable (Spares p s a)
  | .frame frame _ _ => inferInstanceAs (Decidable (window frame echoOff p.length <+: p))
  | .call _ => inferInstanceAs (Decidable True)

/-- The slice that `HandshakeInit` queues. -/
def echoed (p : Bytes) : Part := ⟨echoOff, p.length⟩

/-- **While the handshake goes on**, the packet is in the buffer and the session's first. -/
structure Queued (sid : SessionId) (p : Bytes) (s : Client) : Prop where
  lt : sid < s.mgr.next
  bytes : (echoed p).bytes s.buf = p
  first : (s.mgr.heap sid).isReady = false → [.part (echoed p)] <+: (s.mgr.heap sid).pendingChan

variable {N : Ops D} {s s' : Client} {sid : SessionId} {p frame : Bytes}

/-- To the session manager a frame is at most one call. -/
theorem mgr_handle (N : Ops D) (s : Client) (frame : Bytes) (eph : Nat) (now : Int) :
    (handle N s frame eph now).mgr = s.mgr ∨
      ∃ c, (handle N s frame eph now).mgr = s.mgr.call N c := by
  unfold handle
  split
  · exact Or.inl rfl
  · next gp _ =>
    unfold dispatch
    split
    · split
      · exact Or.inl rfl
      · exact Or.inr ⟨.handshakeInit gp.src _ _ eph now, rfl⟩
    · split
      · split <;> exact Or.inl rfl
      · exact Or.inl rfl

namespace Queued

/-- Whatever is done to the manager. -/
theorem call (h : Queued sid p s) (N : Ops D) (c : NoiseManager.Call Item D) :
    Queued sid p { s with mgr := s.mgr.call N c } where
  lt := Nat.lt_of_lt_of_le h.lt (NoiseManager.evolves_call N s.mgr c).next_le
  bytes := h.bytes
  first hwaits := by
    have hwait : (s.mgr.heap sid).isReady = false := by
      rw [Bool.eq_false_iff]
      intro hready
      have hready' := ((NoiseManager.evolves_call N s.mgr c).ready h.lt hready).1
      exact Bool.false_ne_true (hwaits.symm.trans hready')
    rcases NoiseManager.waited_call N c h.lt hwait with ⟨-, hqueue⟩ | ⟨hready, -⟩
    · exact (h.first hwait).trans hqueue
    · exact absurd (hwaits.symm.trans hready) Bool.false_ne_true

/-- A frame that spares the packet. -/
theorem handle (h : Queued sid p s) {eph : Nat} {now : Int}
    (hok : Spares (D := D) p s (.frame frame eph now)) :
    Queued sid p (handle N s frame eph now) := by
  have hspares : window frame echoOff p.length <+: window s.buf echoOff p.length := by
    rw [show window s.buf echoOff p.length = p from h.bytes]
    exact hok
  have hbytes : (echoed p).bytes (ControlRecv.handle N s frame eph now).buf = p := by
    rw [(buf_handle N s frame eph now).1]
    exact (window_overwrite_agree hspares).trans h.bytes
  rcases mgr_handle N s frame eph now with hsame | ⟨c, hcall⟩
  · exact ⟨hsame ▸ h.lt, hbytes, hsame ▸ h.first⟩
  · have hnext := h.call N c
    exact ⟨hcall ▸ hnext.lt, hbytes, hcall ▸ hnext.first⟩

theorem step (h : Queued sid p s) {a : Act D} (hok : Spares p s a) (hs : step N s a = some s') :
    Queued sid p s' := by
  cases a with
  | frame frame eph now =>
    obtain ⟨-, rfl⟩ := guardTo_eq_some.mp hs
    exact h.handle hok
  | call c =>
    cases hs
    exact h.call N c

end Queued

/-- What `handle` comes down to for a response with a whole key. -/
theorem handle_response (N : Ops D) (s : Client) {gp : GamePacket} (hacc : accept frame = some gp)
    (htype : gp.pType = typeNoiseResponse) (hkey : 32 ≤ gp.data.length) (eph : Nat) (now : Int) :
    handle N s frame eph now = initiateNoise N (load s frame) gp.src ((payloadOf frame).upTo 32)
      ((payloadOf frame).after 32) eph now := by
  have hlong : ¬(payloadOf frame).len < 32 := by
    rw [(data_of_accept hacc).2, List.length_drop] at hkey
    show ¬frame.length - headerLength < 32
    omega
  unfold handle
  rw [hacc]
  show dispatch N _ gp _ eph now = _
  rw [dispatch, if_pos htype, if_neg hlong]

/-- The new session has its first payload queued. -/
theorem queue_initiateNoise (N : Ops D) (s : Client) (remoteVip : ByteArr 4)
    (remotePub firstPayload : Part) (eph : Nat) (now : Int) :
    ((initiateNoise N s remoteVip remotePub firstPayload eph now).mgr.heap
      s.mgr.next).pendingChan = [.part firstPayload] :=
  congrArg (·.pendingChan) (NoiseManager.heap_install s.mgr remoteVip _)

/-- **The response is handled**: the session that begins has the packet in its queue. -/
theorem queued_of_response {src dst : ByteArr 4} {noisePublicKey : PublicKey} {eph : Nat}
    {now : Int} (hmax : (noisePublicKey.1 ++ p).length ≤ maxPayloadSize)
    (hframe : frame = clearWire src dst typeNoiseResponse (noisePublicKey.1 ++ p))
    (hs : step N s (.frame frame eph now) = some s') :
    (s'.mgr.heap s.mgr.next).pendingChan = [.part (echoed p)] ∧ Queued s.mgr.next p s' := by
  obtain ⟨hfits, rfl⟩ := guardTo_eq_some.mp hs
  obtain ⟨gp, hacc, -, -, htype, hdata⟩ := accept_clear src dst typeNoiseResponse rfl hmax
  rw [← hframe] at hacc
  have hkey : noisePublicKey.1.length = 32 := noisePublicKey.2
  have hlen : gp.data.length = 32 + p.length := by
    rw [hdata, List.length_append, hkey]
  -- the slice behind the key
  have hpart : (payloadOf frame).after 32 = echoed p := by
    obtain ⟨hheader, hdrop⟩ := data_of_accept hacc
    rw [hdrop, List.length_drop] at hlen
    have hrest : frame.length - headerLength - 32 = p.length := by omega
    show Part.mk (headerLength + 32) (frame.length - headerLength - 32) = echoed p
    rw [hrest]
    rfl
  have hbytes : (echoed p).bytes (overwrite s.buf 0 frame) = p := by
    show window _ (headerLength + 32) p.length = p
    rw [bytes_payload hacc (by omega) (Nat.le_of_eq hlen.symm), hdata, window,
      List.drop_left' hkey, List.take_length]
  rw [handle_response N s hacc htype (by omega), hpart]
  have hqueue := queue_initiateNoise N (load s frame) gp.src ((payloadOf frame).upTo 32) (echoed p)
    eph now
  refine ⟨hqueue, Nat.lt_succ_self _, hbytes, fun _ => ?_⟩
  exact ⟨[], hqueue.symm⟩

/-! ## Delivery -/

/-- **The first packet to a new peer is delivered unchanged**, when all frames between
the response and the end of the handshake spare it. The call that makes the
session ready puts on `tunChan` what `HandshakeInit` queued with it, and that shows
the bytes of `p` then. -/
theorem first_packet_unchanged (N : Ops D) (A : Aead K) (L : Lz4) (cfg : ClientConfig)
    (staticPub : PublicKey) (buf : Bytes) {noisePublicKey : PublicKey} {p frame : Bytes}
    {pool pool' : Pool} (hecho : echo A L cfg noisePublicKey p pool pool' = some frame)
    {s s₁ s₂ : Client} {eph : Nat} {now : Int}
    (hrecv : step N s (.frame frame eph now) = some s₁)
    (hpath : (machine N staticPub cfg.localIp buf).PathVia (Spares p) s₁ s₂)
    {c : NoiseManager.Call Item D} (hwaits : (s₂.mgr.heap s.mgr.next).isReady = false)
    (hready : ((s₂.mgr.call N c).heap s.mgr.next).isReady = true) :
    ∃ item rest, (s₁.mgr.heap s.mgr.next).pendingChan = [item] ∧
      (s₂.mgr.call N c).tunChan = s₂.mgr.tunChan ++ item :: rest ∧ item.bytes s₂.buf = p := by
  obtain ⟨hmax, hframe⟩ := echo_eq_some hecho
  obtain ⟨hqueue, hqueued₁⟩ := queued_of_response hmax hframe hrecv
  have hqueued : Queued s.mgr.next p s₂ := hpath.invariant hqueued₁ fun _ h hok hs => h.step hok hs
  obtain ⟨rest, hrest⟩ := hqueued.first hwaits
  refine ⟨.part (echoed p), rest, hqueue, ?_, hqueued.bytes⟩
  rcases NoiseManager.waited_call N c hqueued.lt hwaits with ⟨hwaits', -⟩ | ⟨-, htun⟩
  · exact absurd (hwaits'.symm.trans hready) Bool.false_ne_true
  · rw [htun, ← hrest]
    rfl

section TwoPeers

open PacketSend (caseConfig casePing)

/-- An ICMP echo request from 10.0.6.2 to 10.0.6.4. -/
def casePing' : Bytes :=
  [0x45, 0, 0, 28, 0, 2, 0, 0, 64, 1, 0x5a, 0xda, 10, 0, 6, 2, 10, 0, 6, 4,
    8, 0, 0xf7, 0xfc, 0, 1, 0, 2]

/-- The public key of a peer: its host number, 32 times. -/
def casePub (vip : ByteArr 4) : PublicKey :=
  ⟨List.replicate 32 (vip.1.getLastD 0), List.length_replicate⟩

/-- What comes back for a packet, with the key of the peer. -/
def caseEcho (p : Bytes) : Bytes :=
  clearWire (dstIp p) caseClient typeNoiseResponse ((casePub (dstIp p)).1 ++ p)

/-- The reply of 10.0.6.3. -/
def caseReply : NoiseManager.Call Item Msg :=
  .lockedBody 0 (sampleIp 3) (.reply ⟨⟨samplePub, casePub (sampleIp 3), 0⟩, 1⟩)

/-- A frame without a payload comes in between. -/
theorem first_packet_unchanged_check :
    ∃ s₁ s₂, echo chacha20Poly1305 Lz4.stored caseConfig (casePub (sampleIp 3)) casePing
        (.fresh 2048) (.fresh 2048) = some (caseEcho casePing) ∧
      step ideal caseMachine.init (.frame (caseEcho casePing) 0 0) = some s₁ ∧
      caseMachine.PathVia (Spares casePing) s₁ s₂ ∧
      (s₂.mgr.heap 0).isReady = false ∧ ((s₂.mgr.call ideal caseReply).heap 0).isReady = true ∧
      ∃ item rest, (s₁.mgr.heap 0).pendingChan = [item] ∧
        (s₂.mgr.call ideal caseReply).tunChan = s₂.mgr.tunChan ++ item :: rest ∧
        item.bytes s₂.buf = casePing := by
  have hecho : echo chacha20Poly1305 Lz4.stored caseConfig (casePub (sampleIp 3)) casePing
      (.fresh 2048) (.fresh 2048) = some (caseEcho casePing) := by decide +kernel
  obtain ⟨s₁, hrecv, hrest⟩ := (Option.any_eq_true ..).mp (show
    (step ideal caseMachine.init (.frame (caseEcho casePing) 0 0)).any (fun s₁ =>
      (caseMachine.runVia (Spares casePing) s₁
        [.frame (clearWire (sampleIp 4) caseClient typeP2PCheck []) 0 0]).any fun s₂ =>
          !(s₂.mgr.heap 0).isReady && ((s₂.mgr.call ideal caseReply).heap 0).isReady) = true
    from by decide +kernel)
  obtain ⟨s₂, hrun, hdone⟩ := (Option.any_eq_true ..).mp hrest
  rw [Bool.and_eq_true, Bool.not_eq_true'] at hdone
  have hpath := Machine.PathVia.refl.runVia hrun
  exact ⟨s₁, s₂, hecho, hrecv, hpath, hdone.1, hdone.2,
    first_packet_unchanged ideal chacha20Poly1305 Lz4.stored caseConfig samplePub _
      hecho hrecv hpath hdone.1 hdone.2⟩

/-- **Another packet is delivered.** Two new peers are pinged, and the key of the second
arrives before the reply of the first: what is put on `tunChan` for the first session
is the packet for the second peer. -/
theorem first_packet_replaced :
    (∀ p ∈ [casePing, casePing'], echo chacha20Poly1305 Lz4.stored caseConfig (casePub (dstIp p)) p
      (.fresh 2048) (.fresh 2048) = some (caseEcho p)) ∧
    ∃ s, caseMachine.Reach s ∧ s.frames = [caseEcho casePing', caseEcho casePing] ∧
      (s.mgr.heap 0).remoteVip = dstIp casePing ∧
      (s.mgr.heap 0).isReady = false ∧ ((s.mgr.call ideal caseReply).heap 0).isReady = true ∧
      (s.mgr.call ideal caseReply).tunChan.map (Item.bytes s.buf) = [casePing'] := by
  refine ⟨by decide +kernel, ?_⟩
  exact Machine.exists_reach
    [.frame (caseEcho casePing) 0 0, .frame (caseEcho casePing') 1 0]
    (by decide +kernel)

end TwoPeers

end ControlRecv

end EasyTun.Transport
