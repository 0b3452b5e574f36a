import EasyTun.Lib.Machine
import EasyTun.Protocol.Codec
import EasyTun.Protocol.Table
import EasyTun.Stun.Tunnels

/-!
# The control connection of a client (`controlRecv` in `internal/transport/client_control.go`)

`controlRecv` reads every WebSocket frame to the beginning of one buffer and parses
it in place. What it keeps of a frame are slices of that buffer: the address of a
P2P peer (`BytesToIP`), and the packet that waits for a handshake. The next frame
is written over them.

The buffer is an array of bytes, and a slice of it an offset and a length. A
`bytes.Buffer` grows when fewer than 512 bytes are free behind a frame; here are the
frames that leave it where it is. Other goroutines call the session manager in
between.

- `targets_kept`: **every P2P target is the address of the last command**, if no
  frame changes the four bytes behind the header while a peer other than its own
  has an entry.
- `targets_mixed`: commands for two peers give the first one the address of the
  second, with its own port.
-/

namespace EasyTun.Transport

open EasyTun.Lib EasyTun.Lib.NoiseIK EasyTun.Protocol EasyTun.Protocol.GamePacket EasyTun.Stun

namespace ControlRecv

/-! ## Slices of the buffer -/

/-- A slice of the array behind `readBuffer`. -/
structure Part where
  off : Nat
  len : Nat
  deriving DecidableEq

namespace Part

/-- `v[:n]`. -/
def upTo (v : Part) (n : Nat) : Part := { v with len := n }

/-- `v[n:]`. -/
def after (v : Part) (n : Nat) : Part := ⟨v.off + n, v.len - n⟩

/-- What the slice shows. -/
def bytes (v : Part) (buf : Bytes) : Bytes := window buf v.off v.len

end Part

/-- `net.UDPAddr`. -/
structure UDPAddr where
  ip : Part
  port : Nat
  deriving DecidableEq

/-- `BytesToIP` (ipTransform.go:30–36): the port is read, the address is a slice. -/
def bytesToIP (buf : Bytes) (v : Part) : UDPAddr :=
  { ip := v.upTo 4, port := ofBE (window (v.bytes buf) 4 2) }

/-- What waits in a pending queue: a slice of the buffer, or a packet in an array of
its own. -/
inductive Item where
  | part (v : Part)
  | packet (p : Bytes)
  deriving DecidableEq

/-- The bytes of a queued packet: the present ones, if it is part of the array. -/
def Item.bytes (buf : Bytes) : Item → Bytes
  | .part v => v.bytes buf
  | .packet p => p

/-! ## The client -/

/-- What `controlRecv` has and uses. -/
structure Client where
  /-- The array behind `readBuffer`. -/
  buf : Bytes
  mgr : NoiseManager Item
  p2pRouter : Map (ByteArr 4) (P2PStatus UDPAddr)
  /-- The frames so far, the last one first. -/
  frames : List Bytes

variable {D : Type}

/-- `initiateNoise` (client_udp.go:228–239), up to the datagram it sends. -/
def initiateNoise (N : Ops D) (s : Client) (remoteVip : ByteArr 4) (remotePub firstPayload : Part)
    (eph : Nat) (now : Int) : Client :=
  { s with mgr := (s.mgr.handshakeInit N remoteVip (.ofBytes 32 (remotePub.bytes s.buf))
      (.part firstPayload) eph now).2 }

/-- `addP2P` (client_p2p.go:94–108). -/
def addP2P (s : Client) (vIp : ByteArr 4) (addr : UDPAddr) (natType : UInt8) (now : Int) : Client :=
  { s with p2pRouter := s.p2pRouter.insert vIp (.new natType addr now) }

/-- The packet of a frame that `ParseControl` accepts. It sets all the fields that
are read, whatever `gp` was. -/
def accept (frame : Bytes) : Option GamePacket :=
  match GamePacket.empty.parseControl frame with
  | (none, gp) => some gp
  | (some _, _) => none

/-- `gp.Payload`. -/
def payloadOf (frame : Bytes) : Part := ⟨headerLength, frame.length - headerLength⟩

/-- What a parsed frame does (client_control.go:124–144). `TypeP2PCheck` sends a
datagram, and the other types do nothing. -/
def dispatch (N : Ops D) (s : Client) (gp : GamePacket) (payload : Part) (eph : Nat) (now : Int) :
    Client :=
  if gp.pType = typeNoiseResponse then
    if payload.len < 32 then s
    else initiateNoise N s gp.src (payload.upTo 32) (payload.after 32) eph now
  else if gp.pType = typeP2PCommand then
    if payload.len < 7 then s
    else addP2P s gp.src (bytesToIP s.buf (payload.upTo 6)) ((payload.bytes s.buf).getD 6 0) now
  else s

/-- `readBuffer` after a frame. -/
def load (s : Client) (frame : Bytes) : Client :=
  -- `Reset` keeps the array: a longer frame before leaves its tail behind
  { s with buf := overwrite s.buf 0 frame, frames := frame :: s.frames }

/-- A binary frame (client_control.go:112–145). -/
def handle (N : Ops D) (s : Client) (frame : Bytes) (eph : Nat) (now : Int) : Client :=
  match accept frame with
  | none => load s frame
  | some gp => dispatch N (load s frame) gp (payloadOf frame) eph now

/-- `bytes.MinRead`. -/
def minRead : Nat := 512

/-- A frame arrives, or somebody else uses the sessions. -/
inductive Act (D : Type) where
  | frame (frame : Bytes) (eph : Nat) (now : Int)
  /-- Another goroutine calls the session manager. -/
  | call (c : NoiseManager.Call Item D)

/-- One step. A frame is one that leaves the buffer where it is. -/
def step (N : Ops D) (s : Client) : Act D → Option Client
  | .frame frame eph now =>
    guardTo (frame.length + minRead ≤ s.buf.length) (handle N s frame eph now)
  | .call c => some { s with mgr := s.mgr.call N c }

/-- A client whose buffer has grown to some size. -/
def start (staticPub : PublicKey) (myVip : ByteArr 4) (buf : Bytes) : Client :=
  { buf, mgr := .new staticPub myVip, p2pRouter := ∅, frames := [] }

/-- A client without sessions. -/
def machine (N : Ops D) (staticPub : PublicKey) (myVip : ByteArr 4) (buf : Bytes) :
    Machine Client (Act D) :=
  { init := start staticPub myVip buf, step := step N }

/-! ## P2P targets -/

/-- `GetDstAddr()`: the bytes of the address as they are now, and the port. -/
def getDstAddr (s : Client) (status : P2PStatus UDPAddr) : Bytes × Nat :=
  (status.dstAddr.ip.bytes s.buf, status.dstAddr.port)

/-- The frame is a `TypeP2PCommand` with this source: the address and port in its
payload. -/
def commandTo (v : ByteArr 4) (frame : Bytes) : Option (Bytes × Nat) :=
  (accept frame).bind fun gp =>
    guardTo (gp.pType = typeP2PCommand ∧ gp.src = v) (gp.data.take 4, ofBE (window gp.data 4 2))

/-- What the last command for a peer says. -/
def lastCommand (frames : List Bytes) (v : ByteArr 4) : Option (Bytes × Nat) :=
  frames.findSome? (commandTo v)

/-- The frame is no command, or one that has an address, a port and a NAT type. -/
def WholeCommand (frame : Bytes) : Prop :=
  ∀ gp ∈ accept frame, gp.pType = typeP2PCommand → 7 ≤ gp.data.length

instance (frame : Bytes) : Decidable (WholeCommand frame) :=
  inferInstanceAs (Decidable (∀ gp ∈ accept frame, _))

/-- **The condition**: commands are whole, and while a peer has an entry, a frame that
is no command for it has nothing else in the first four bytes of its payload than
what is in the buffer. -/
def Steady (s : Client) : Act D → Prop
  | .frame frame _ _ => WholeCommand frame ∧ ∀ v ∈ s.p2pRouter.keys, commandTo v frame = none →
      window frame headerLength 4 <+: window s.buf headerLength 4
  | .call _ => True

instance (s : Client) : (a : Act D) → Decidable (Steady s a)
  | .frame frame _ _ => inferInstanceAs (Decidable (WholeCommand frame ∧ ∀ v ∈ s.p2pRouter.keys,
      commandTo v frame = none → window frame headerLength 4 <+: window s.buf headerLength 4))
  | .call _ => inferInstanceAs (Decidable True)

variable {N : Ops D} {s s' : Client} {frame : Bytes} {gp : GamePacket} {v : ByteArr 4}

/-! ### What a frame is -/

/-- The payload is what is behind the header. -/
theorem data_of_accept (h : accept frame = some gp) :
    headerLength ≤ frame.length ∧ gp.data = frame.drop headerLength := by
  unfold accept GamePacket.parseControl at h
  cases hhead : parseHeader frame .plaintext with
  | error e =>
    rw [hhead] at h
    cases h
  | ok hd =>
    rw [hhead] at h
    cases h
    exact ⟨(parseHeader_ok hhead).1, rfl⟩

/-- Both ends of a slice of the payload. -/
theorem bytes_payload (h : accept frame = some gp) (hfits : frame.length ≤ s.buf.length)
    {i n : Nat} (hn : i + n ≤ gp.data.length) :
    window (overwrite s.buf 0 frame) (headerLength + i) n = window gp.data i n := by
  obtain ⟨hlen, hdata⟩ := data_of_accept h
  rw [hdata, List.length_drop] at hn
  rw [window_overwrite_head (by omega) hfits, hdata, window, window, List.drop_drop]

/-- A command with a whole payload names its peer and where to reach it. -/
theorem commandTo_eq_some {a : Bytes × Nat} :
    commandTo v frame = some a ↔ ∃ gp, accept frame = some gp ∧ gp.pType = typeP2PCommand ∧
      gp.src = v ∧ a = (gp.data.take 4, ofBE (window gp.data 4 2)) := by
  unfold commandTo
  rw [Option.bind_eq_some_iff]
  refine exists_congr fun gp => and_congr_right fun _ => ?_
  rw [guardTo_eq_some, and_assoc, eq_comm (a := a)]

/-- **What a frame does to the table**: an entry for `v` is as it was, unless the frame
is a whole command for `v`. -/
theorem router_handle_of_none (eph : Nat) (now : Int) (hnone : commandTo v frame = none) :
    (handle N s frame eph now).p2pRouter.lookup v = s.p2pRouter.lookup v := by
  unfold handle
  cases hacc : accept frame with
  | none => rfl
  | some gp =>
    show (dispatch N _ gp _ eph now).p2pRouter.lookup v = _
    unfold dispatch
    split
    · split
      · rfl
      · rfl
    · split
      · next hcommand =>
        split
        · rfl
        · -- a command for another peer
          have hsrc : v ≠ gp.src := fun heq => by
            have hsome := commandTo_eq_some.mpr ⟨gp, hacc, hcommand, heq.symm, rfl⟩
            rw [hnone] at hsome
            cases hsome
          exact AList.lookup_insert_ne hsrc
      · rfl

theorem buf_handle (N : Ops D) (s : Client) (frame : Bytes) (eph : Nat) (now : Int) :
    (handle N s frame eph now).buf = overwrite s.buf 0 frame ∧
      (handle N s frame eph now).frames = frame :: s.frames := by
  unfold handle
  split
  · exact ⟨rfl, rfl⟩
  · unfold dispatch
    split
    · split <;> exact ⟨rfl, rfl⟩
    · split
      · split <;> exact ⟨rfl, rfl⟩
      · exact ⟨rfl, rfl⟩

/-- A whole command makes an entry. -/
theorem router_handle_of_some (eph : Nat) (now : Int) {a : Bytes × Nat}
    (hfits : frame.length ≤ s.buf.length) (hwhole : WholeCommand frame)
    (hsome : commandTo v frame = some a) :
    ∃ status, (handle N s frame eph now).p2pRouter.lookup v = some status ∧
      status.dstAddr.ip = ⟨headerLength, 4⟩ ∧ status.dstAddr.port = a.2 ∧
      window (overwrite s.buf 0 frame) headerLength 4 = a.1 := by
  obtain ⟨gp, hacc, hcommand, rfl, rfl⟩ := commandTo_eq_some.mp hsome
  have hseven : 7 ≤ gp.data.length := hwhole gp hacc hcommand
  obtain ⟨hlen, hdata⟩ := data_of_accept hacc
  have hpayload : ¬(payloadOf frame).len < 7 := by
    rw [hdata, List.length_drop] at hseven
    show ¬frame.length - headerLength < 7
    omega
  have hnoise : ¬gp.pType = typeNoiseResponse := by
    rw [hcommand]
    decide
  have hbytes : ∀ {i n}, i + n ≤ 7 →
      window (overwrite s.buf 0 frame) (headerLength + i) n = window gp.data i n :=
    fun h => bytes_payload hacc hfits (Nat.le_trans h hseven)
  have hport : window (((payloadOf frame).upTo 6).bytes (overwrite s.buf 0 frame)) 4 2 =
      window gp.data 4 2 := by
    show window (window _ headerLength 6) 4 2 = _
    rw [window_window (by omega), hbytes (by omega)]
  refine ⟨{ dstNatType := ((payloadOf frame).bytes (overwrite s.buf 0 frame)).getD 6 0
            dstAddr := bytesToIP (overwrite s.buf 0 frame) ((payloadOf frame).upTo 6)
            lastSeen := now, established := false }, ?_, rfl, congrArg ofBE hport,
    hbytes (i := 0) (by omega)⟩
  unfold handle
  rw [hacc]
  show (dispatch N _ gp _ eph now).p2pRouter.lookup gp.src = _
  rw [dispatch, if_neg hnoise, if_pos hcommand, if_neg hpayload]
  exact AList.lookup_insert ..

/-! ### The invariant -/

/-- **All targets share four bytes of the buffer**, those the last command for each of
them named. -/
def Inv (s : Client) : Prop :=
  ∀ v status, s.p2pRouter.lookup v = some status → status.dstAddr.ip = ⟨headerLength, 4⟩ ∧
    lastCommand s.frames v = some (window s.buf headerLength 4, status.dstAddr.port)

theorem inv_start (staticPub : PublicKey) (myVip : ByteArr 4) (buf : Bytes) :
    Inv (start staticPub myVip buf) := by
  intro v status h
  cases h

theorem Inv.handle (h : Inv s) {eph : Nat} {now : Int} (hfits : frame.length ≤ s.buf.length)
    (hok : Steady (D := D) s (.frame frame eph now)) : Inv (handle N s frame eph now) := by
  intro v status hlook
  obtain ⟨hwhole, hsteady⟩ := hok
  obtain ⟨hbuf, hframes⟩ := buf_handle N s frame eph now
  rw [hbuf, hframes, lastCommand, List.findSome?_cons]
  cases hcommand : commandTo v frame with
  | some a =>
    obtain ⟨status', hlook', hip, hport, hbytes⟩ :=
      router_handle_of_some (N := N) eph now hfits hwhole hcommand
    cases hlook.symm.trans hlook'
    exact ⟨hip, by rw [hport, hbytes]⟩
  | none =>
    rw [router_handle_of_none eph now hcommand] at hlook
    have hkey : v ∈ s.p2pRouter.keys := by
      refine AList.mem_keys.mp (AList.lookup_isSome.mp ?_)
      rw [hlook]
      rfl
    have hold := h v status hlook
    rw [window_overwrite_agree (hsteady v hkey hcommand)]
    exact hold

theorem Inv.step (h : Inv s) {a : Act D} (hok : Steady s a) (hs : step N s a = some s') :
    Inv s' := by
  cases a with
  | frame frame eph now =>
    obtain ⟨hfits, rfl⟩ := guardTo_eq_some.mp hs
    exact h.handle (by omega) hok
  | call c =>
    cases hs
    exact h

/-- **P2P targets are not disturbed by later frames**, in every run of steady frames:
the target of every peer in the table is the address and port in the payload of
the last `TypeP2PCommand` from it. -/
theorem targets_kept (N : Ops D) (staticPub : PublicKey) (myVip : ByteArr 4) (buf : Bytes)
    (h : (machine N staticPub myVip buf).ReachVia Steady s) {status : P2PStatus UDPAddr}
    (hlook : s.p2pRouter.lookup v = some status) :
    lastCommand s.frames v = some (getDstAddr s status) := by
  have hinv : Inv s :=
    h.invariant (inv_start staticPub myVip buf) fun _ hi hok hs => hi.step hok hs
  obtain ⟨hip, hlast⟩ := hinv v status hlook
  rw [hlast, getDstAddr, hip]
  rfl

section TwoPeers

/-- The client, at 10.0.6.2. -/
def caseClient : ByteArr 4 := sampleIp 2

/-- A command of the server, with where a peer is reached. -/
def caseCommand (peer : ByteArr 4) (ip : Bytes) (port : Nat) : Bytes :=
  clearWire peer caseClient typeP2PCommand (ip ++ toBE 2 port ++ [3])

/-- A client with a buffer of a kilobyte. -/
def caseMachine : Machine Client (Act Msg) :=
  machine ideal samplePub caseClient (List.replicate 1024 0)

/-- Two peers behind one address, and a frame without a payload. -/
theorem targets_kept_shared :
    ∃ s, caseMachine.ReachVia Steady s ∧
      ∃ status, s.p2pRouter.lookup (sampleIp 3) = some status ∧
      getDstAddr s status = ([203, 0, 113, 5], 40000) ∧
      lastCommand s.frames (sampleIp 3) = some (getDstAddr s status) := by
  obtain ⟨s, hr, hlook⟩ : ∃ s, caseMachine.ReachVia Steady s ∧
      (s.p2pRouter.lookup (sampleIp 3)).map (getDstAddr s) = some ([203, 0, 113, 5], 40000) :=
    Machine.exists_reachVia
      [.frame (caseCommand (sampleIp 3) [203, 0, 113, 5] 40000) 0 0,
        .frame (clearWire (sampleIp 4) caseClient typeP2PCheck []) 0 0,
        .frame (caseCommand (sampleIp 4) [203, 0, 113, 5] 40001) 0 0]
      (by decide +kernel)
  obtain ⟨status, hstatus, haddr⟩ := Option.map_eq_some_iff.mp hlook
  exact ⟨s, hr, status, hstatus, haddr, targets_kept _ _ _ _ hr hstatus⟩

/-- **Commands for two peers get mixed.** The first peer is then sought at the address
of the second one, on its own port. -/
theorem targets_mixed :
    ∃ s, caseMachine.Reach s ∧ (∀ frame ∈ s.frames, (accept frame).isSome = true) ∧
      lastCommand s.frames (sampleIp 3) = some ([203, 0, 113, 5], 40000) ∧
      (s.p2pRouter.lookup (sampleIp 3)).map (getDstAddr s) = some ([198, 51, 100, 7], 40000) :=
  Machine.exists_reach
    [.frame (caseCommand (sampleIp 3) [203, 0, 113, 5] 40000) 0 0,
      .frame (caseCommand (sampleIp 4) [198, 51, 100, 7] 50000) 0 0]
    (by decide +kernel)

end TwoPeers

end ControlRecv

end EasyTun.Transport
