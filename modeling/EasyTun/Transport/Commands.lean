import EasyTun.Transport.Addresses
import EasyTun.Transport.Server

/-!
# The addresses in P2P commands

`UDPAddrPortToBytes` panics on the zero address, and `newClient` stores the zero
address until the client's first datagram arrives. A panic in a goroutine ends
the server.

- `commands_have_addresses`: if a client has sent a datagram when `handleP2PCommand`
  loads its address, then **every endpoint the server puts into a command is an IPv4 one,
  and the server does not crash**.
- `server_crashes`: the code does not check that. `transfer` creates the task
  before it looks at the address of the destination, so a data packet to a client
  that has not sent a datagram yet is enough.
-/

namespace EasyTun.Transport

open EasyTun.Lib EasyTun.Util EasyTun.Protocol EasyTun.Stun

/-! ## What is known about addresses -/

/-- Before the first datagram of a client its address is the zero one, and later an
IPv4 one. -/
def ZeroOrIPv4 (a : AddrPort) : Prop := a = .zero ∨ a.addr.isIPv4 = true

/-- The client whose address `handleP2PCommand` is about to load (server_p2p.go:93–94). -/
def P2P.loads : P2P → Option ConnId
  | .found _ src _ => some src
  | .loadedSrc _ _ dst _ => some dst
  | .idle | .taken _ | .loaded _ _ | .looked _ _ _ | .commanding _ _ => none

/-- The addresses that the P2P worker has loaded are IPv4 ones. -/
def P2P.Safe : P2P → Prop
  | .idle | .taken _ | .loaded _ _ | .looked _ _ _ | .found _ _ _ => True
  | .loadedSrc _ _ _ srcAddr => srcAddr.addr.isIPv4 = true
  | .commanding cmd _ => cmd.srcAddr.addr.isIPv4 = true ∧ cmd.dstAddr.addr.isIPv4 = true

namespace Plane

/-- A datagram of the client has arrived since it connected. -/
def Heard (s : Plane) (c : ConnId) : Prop := s.dataAddr c ≠ .zero

instance (s : Plane) : DecidablePred s.Heard := fun _ => inferInstanceAs (Decidable (_ ≠ _))

/-- Only IPv4 addresses are loaded for commands and put into them. -/
structure Safe (s : Plane) : Prop where
  dataAddr : ∀ c, ZeroOrIPv4 (s.dataAddr c)
  p2p : s.p2p.Safe
  calls : ∀ a ∈ s.calls, a.addr.isIPv4 = true
  alive : s.crashed = false

variable {s s' : Plane} {h : Hub} {c : ConnId}

namespace Safe

theorem new : Plane.new.Safe := ⟨fun _ => Or.inl rfl, trivial, nofun, rfl⟩

/-- A step that touches none of this. -/
theorem congr (hs : s.Safe) (hdata : s'.dataAddr = s.dataAddr) (hp2p : s'.p2p = s.p2p)
    (hcalls : s'.calls = s.calls) (hcrashed : s'.crashed = s.crashed) : s'.Safe where
  dataAddr := hdata ▸ hs.dataAddr
  p2p := hp2p ▸ hs.p2p
  calls := hcalls ▸ hs.calls
  alive := hcrashed ▸ hs.alive

theorem trySendControl (hs : s.Safe) (c : ConnId) (gp : GamePacket) :
    (s.trySendControl c gp).Safe := by
  unfold Plane.trySendControl
  split
  · exact hs.congr rfl rfl rfl rfl
  · exact hs

/-- A datagram of a peer sets an IPv4 address. -/
theorem updateAddrCheck (hs : s.Safe) (c : ConnId) (e : Endpoint) :
    (s.updateAddrCheck c e.addrPort).Safe := by
  unfold Plane.updateAddrCheck
  split
  · exact hs
  · -- a client has the new address or the one it had
    have hnew : ∀ c', (Function.update s.dataAddr c e.addrPort c').addr.isIPv4 = true ∨
        Function.update s.dataAddr c e.addrPort c' = s.dataAddr c' := by
      intro c'
      by_cases hc : c' = c
      · subst hc
        rw [Function.update_self]
        exact Or.inl e.isIPv4_addrPort
      · exact Or.inr (Function.update_of_ne hc ..)
    refine ⟨fun c' => ?_, hs.p2p, hs.calls, hs.alive⟩
    rcases hnew c' with hip | hold
    · exact Or.inr hip
    · show ZeroOrIPv4 (Function.update s.dataAddr c e.addrPort c')
      rw [hold]
      exact hs.dataAddr c'

/-- A command with an IPv4 address does no harm. -/
theorem sendCommand (hs : s.Safe) (c : ConnId) (src dst : ByteArr 4) {addr : AddrPort}
    (haddr : addr.addr.isIPv4 = true) (natType : UInt8) :
    (s.sendCommand c src dst addr natType).Safe := by
  have hcalls : { s with calls := s.calls ++ [addr] }.Safe := by
    refine ⟨hs.dataAddr, hs.p2p, fun a ha => ?_, hs.alive⟩
    rcases List.mem_append.mp ha with ha | ha
    · exact hs.calls a ha
    · rw [List.mem_singleton.mp ha]
      exact haddr
  obtain ⟨ip, hip⟩ := Option.isSome_iff_exists.mp (Addr.as4_isSome_of_isIPv4 haddr)
  unfold Plane.sendCommand udpAddrPortToBytes
  rw [hip]
  exact hcalls.trySendControl c _

theorem listenUdp (hs : s.Safe) (dnsReply : Hub → Header → Bytes → Option Bytes) (e : Endpoint)
    (d : Bytes) : (s.listenUdp dnsReply h e d).Safe := by
  unfold Plane.listenUdp
  split
  · exact hs
  · split
    · split
      · exact hs.updateAddrCheck _ e
      · exact hs
    · split
      · split
        · split
          · exact hs.congr rfl rfl rfl rfl
          · exact hs
        · exact hs
      · split
        · split
          · exact hs.congr rfl rfl rfl rfl
          · exact hs
        · exact hs

theorem listenCheck (hs : s.Safe) (e : Endpoint) (d : Bytes) : (s.listenCheck e d).Safe := by
  unfold Plane.listenCheck
  split
  · exact hs
  · split
    · exact hs.congr rfl rfl rfl rfl
    · exact hs

/-- The address `listenCheck` passes on is the one its datagram came from. -/
theorem listenCheckNext (hs : s.Safe) (e : Endpoint) (src dst : ByteArr 4) :
    (s.listenCheckNext h e src dst).Safe := by
  have hidle : { s with check := .idle }.Safe := hs.congr rfl rfl rfl rfl
  unfold Plane.listenCheckNext
  split
  · exact hidle.sendCommand _ src dst e.isIPv4_addrPort _
  · exact hidle

theorem relayNext (hs : s.Safe) (w : Fin 2) (r : Relay) (next : Establish) :
    (s.relayNext h w r next).Safe := by
  cases next with
  | natTypes | exist | status t | retries t | relay =>
    simp only [Plane.relayNext]
    split
    · exact hs.congr rfl rfl rfl rfl
    · exact hs.congr rfl rfl rfl rfl
  | add | reopen t => exact hs.congr rfl rfl rfl rfl
  | task =>
    simp only [Plane.relayNext, Plane.newP2PTask]
    split
    · exact hs.congr rfl rfl rfl rfl
    · exact hs.congr rfl rfl rfl rfl

theorem transferNext (hs : s.Safe) (w : Fin 2) (ht : s.transferNext h w = some s') : s'.Safe := by
  unfold Plane.transferNext at ht
  split at ht
  · split at ht
    · cases ht
    · cases ht
      exact hs.congr rfl rfl rfl rfl
  · cases ht
    exact hs.congr rfl rfl rfl rfl
  · split at ht
    · cases ht
      exact hs.congr rfl rfl rfl rfl
    · -- The packet's source is where its sender is reached from now on.
      next p _ _ _ src _ =>
      have hs := hs.updateAddrCheck src p.srcAddr
      simp only at ht
      split at ht
      · split at ht
        · cases ht
          exact hs.congr rfl rfl rfl rfl
        · cases ht
          exact hs.congr rfl rfl rfl rfl
      · cases ht
        exact hs.congr rfl rfl rfl rfl
  · cases ht
    exact hs.congr rfl rfl rfl rfl
  · cases ht
    exact hs.relayNext ..

/-- Each test sends the addresses that were loaded. -/
theorem commandNext (hs : s.Safe) {cmd : Command} (hsrc : cmd.srcAddr.addr.isIPv4 = true)
    (hdst : cmd.dstAddr.addr.isIPv4 = true) (test : Test) : (s.commandNext h cmd test).Safe := by
  cases test with
  | srcSymmetric =>
    simp only [Plane.commandNext]
    split
    · exact (hs.trySendControl _ _).sendCommand _ _ _ hsrc _
    · exact hs
  | dstSymmetric =>
    simp only [Plane.commandNext]
    split
    · exact (hs.trySendControl _ _).sendCommand _ _ _ hdst _
    · exact hs
  | dstCone =>
    simp only [Plane.commandNext]
    split
    · exact hs.sendCommand _ _ _ hdst _
    · exact hs
  | srcCone =>
    simp only [Plane.commandNext]
    split
    · exact hs.sendCommand _ _ _ hsrc _
    · exact hs

theorem setP2P (hs : s.Safe) {p2p : P2P} (hp : p2p.Safe) : { s with p2p := p2p }.Safe :=
  ⟨hs.dataAddr, hp, hs.calls, hs.alive⟩

/-- A client that was heard of has an IPv4 address. -/
theorem isIPv4_of_heard (hs : s.Safe) (hc : s.Heard c) : (s.dataAddr c).addr.isIPv4 = true :=
  (hs.dataAddr c).resolve_left hc

/-- The worker loads the addresses of clients that were heard of. -/
theorem p2pNext (hs : s.Safe) (hok : ∀ c ∈ s.p2p.loads, s.Heard c)
    (ht : s.p2pNext h = some s') : s'.Safe := by
  have hp := hs.p2p
  unfold Plane.p2pNext at ht
  split at ht
  · split at ht
    · cases ht
    · cases ht
      exact ⟨hs.dataAddr, trivial, hs.calls, hs.alive⟩
  · cases ht
    exact hs.setP2P trivial
  · cases ht
    exact hs.setP2P trivial
  · simp only at ht
    split at ht
    · cases ht
      exact ⟨hs.dataAddr, trivial, hs.calls, hs.alive⟩
    · cases ht
      exact ⟨hs.dataAddr, trivial, hs.calls, hs.alive⟩
  · next task src dst heq =>
    cases ht
    exact hs.setP2P (hs.isIPv4_of_heard (hok src (heq ▸ rfl)))
  · next task src dst srcAddr heq =>
    cases ht
    rw [heq] at hp
    exact hs.setP2P ⟨hp, hs.isIPv4_of_heard (hok dst (heq ▸ rfl))⟩
  · next cmd test heq =>
    cases ht
    rw [heq] at hp
    refine (hs.commandNext hp.1 hp.2 test).setP2P ?_
    cases test with
    | srcSymmetric | dstSymmetric | dstCone => exact hp
    | srcCone => trivial

theorem wsMessage (hs : s.Safe) (c : ConnId) (d : Bytes) : (s.wsMessage h c d).Safe := by
  unfold Plane.wsMessage
  split
  · split
    · split
      · exact (hs.trySendControl c _).congr rfl rfl rfl rfl
      · exact hs.congr rfl rfl rfl rfl
    · split
      · split
        · exact hs.congr rfl rfl rfl rfl
        · exact hs.congr rfl rfl rfl rfl
      · split
        · split
          · exact hs.congr rfl rfl rfl rfl
          · exact hs.congr rfl rfl rfl rfl
        · exact hs.congr rfl rfl rfl rfl
  · exact hs.congr rfl rfl rfl rfl

theorem wsNext (hs : s.Safe) (ht : s.wsNext c = some s') : s'.Safe := by
  unfold Plane.wsNext at ht
  split at ht
  · cases ht
  · cases ht
  · cases ht
    exact hs.congr rfl rfl rfl rfl
  · split at ht
    · cases ht
      exact hs.congr rfl rfl rfl rfl
    · cases ht
      exact hs.congr rfl rfl rfl rfl
  · cases ht
    exact hs.congr rfl rfl rfl rfl
  · cases ht
    exact hs.congr rfl rfl rfl rfl
  · cases ht
    exact hs.congr rfl rfl rfl rfl

theorem follow (hs : s.Safe) (h : Hub) (a : Hub.Act) : (s.follow h a).Safe := by
  cases a with
  | finish c => exact hs.trySendControl ..
  | removeClient c =>
    simp only [Plane.follow]
    split
    · exact hs.congr rfl rfl rfl rfl
    · exact hs
  | accept | cancel _ | quit _ | load _ _ | identify _ | assign _ | addClient _ | disconnect _
  | retain _ | tick _ | wake | lock | sweep _ | unlock => exact hs

end Safe

end Plane

namespace Server

variable {retentionTime : Int} {dnsReply : Hub → Header → Bytes → Option Bytes} {s s' : Server}
  {a : Act}

/-- When `handleP2PCommand` loads the address of a client, the client has been heard of. -/
def AddressOk (s : Server) : Act → Prop
  | .p2p => ∀ c ∈ s.plane.p2p.loads, s.plane.Heard c
  | _ => True

instance (s : Server) : (a : Act) → Decidable (AddressOk s a)
  | .p2p => inferInstanceAs (Decidable (∀ c ∈ s.plane.p2p.loads, s.plane.Heard c))
  | .hub _ | .removeA | .udp _ _ | .check _ _ | .checkNext | .transfer _ | .ws _ _ | .wsNext _
  | .wsDone _ | .ping _ | .writePump _ | .writeUdp => inferInstanceAs (Decidable True)

theorem safe_planeStep {h : Hub} {p p' : Plane} (hs : p.Safe)
    (hok : a = .p2p → ∀ c ∈ p.p2p.loads, p.Heard c)
    (hp : planeStep dnsReply h p a = some p') : p'.Safe := by
  cases a with
  | removeA =>
    simp only [planeStep] at hp
    split at hp
    · cases hp
      exact hs.congr rfl rfl rfl rfl
    · cases hp
  | udp e d =>
    cases hp
    exact hs.listenUdp ..
  | check e d =>
    simp only [planeStep] at hp
    split at hp
    · cases hp
      exact hs.listenCheck ..
    · cases hp
  | checkNext =>
    simp only [planeStep] at hp
    split at hp
    · cases hp
    · cases hp
      exact hs.listenCheckNext ..
  | transfer w => exact hs.transferNext w hp
  | p2p => exact hs.p2pNext (hok rfl) hp
  | ws c d =>
    obtain ⟨-, rfl⟩ := guardTo_eq_some.mp hp
    exact hs.wsMessage ..
  | wsNext c => exact hs.wsNext hp
  | ping c =>
    obtain ⟨-, rfl⟩ := guardTo_eq_some.mp hp
    exact hs.trySendControl ..
  | writePump c =>
    simp only [planeStep] at hp
    split at hp
    · cases hp
    · cases hp
      exact hs.congr rfl rfl rfl rfl
  | writeUdp =>
    simp only [planeStep] at hp
    split at hp
    · cases hp
    · cases hp
      exact hs.congr rfl rfl rfl rfl
  | hub a => cases hp
  | wsDone c => cases hp

theorem safe_step (hs : s.plane.Safe) (hok : AddressOk s a)
    (ht : step retentionTime dnsReply s a = some s') : s'.plane.Safe := by
  cases (does_of_step ht).2 with
  | hub _ => exact hs.follow ..
  | quit _ => exact hs.congr rfl rfl rfl rfl
  | back => exact hs.congr rfl rfl rfl rfl
  | plane hp =>
    refine safe_planeStep hs ?_ hp
    rintro rfl
    exact hok

/-- **Every endpoint in a command is an IPv4 one, and the server does not crash**,
in every run in which a client has sent a datagram when `handleP2PCommand` loads its
address. -/
theorem commands_have_addresses
    (hr : (machine retentionTime dnsReply).ReachVia AddressOk s) :
    (∀ a ∈ s.plane.calls, a.addr.isIPv4 = true) ∧ s.plane.crashed = false := by
  have hs : s.plane.Safe :=
    hr.invariant (P := fun s => s.plane.Safe) .new fun _ hs hok ht => safe_step hs hok ht
  exact ⟨hs.calls, hs.alive⟩

/-! ## A crash -/

/-- Two clients behind cone NATs connect: 10.0.6.2 and 10.0.6.3. -/
def connectTwo : List Act :=
  ([Hub.Act.accept, .accept] ++ Hub.handshake 0 (Hub.hello typeCone 7) ++
    Hub.handshake 1 (Hub.hello typeCone 8)).map Act.hub

/-- A data packet of twenty bytes from 10.0.6.2 to 10.0.6.3. -/
def dataPacket : Bytes :=
  wireAd typeData (Hub.hostIp 3) 20 ++ wireNonce (Hub.hostIp 2) 0 ++ List.replicate 20 0

/-- A ping of the client 10.0.6.3. -/
def pingPacket : Bytes := wireAd typePing (.zero 4) 0 ++ wireNonce (Hub.hostIp 3) 0

def endpoint (port : UInt16) : Endpoint :=
  { ip := .four 192 0 2 1, mapped := false, port }

/-- A worker relays the data packet and creates a task, and the P2P worker takes it
through `n` of its steps. -/
def punch (n : Nat) : List Act :=
  .udp (endpoint 1) dataPacket :: List.replicate 9 (.transfer 0) ++ List.replicate n .p2p

/-- After a ping of the destination, both addresses are sent to the other client. -/
theorem commands_have_addresses_after_ping :
    ∃ s, (machine 300 fun _ _ _ => none).ReachVia AddressOk s ∧
      s.plane.calls = [(endpoint 2).addrPort, (endpoint 1).addrPort] ∧
      ∀ a ∈ s.plane.calls, a.addr.isIPv4 = true := by
  obtain ⟨s, hr, hcalls⟩ : ∃ s, (machine 300 fun _ _ _ => none).ReachVia AddressOk s ∧
      s.plane.calls = [(endpoint 2).addrPort, (endpoint 1).addrPort] :=
    Machine.exists_reachVia (connectTwo ++ .udp (endpoint 2) pingPacket :: punch 10)
      (by decide +kernel)
  exact ⟨s, hr, hcalls, (commands_have_addresses hr).1⟩

/-- **A data packet to a client that has not sent a datagram yet ends the server.** -/
theorem server_crashes :
    ∃ s, (machine 300 fun _ _ _ => none).Reach s ∧ AddrPort.zero ∈ s.plane.calls ∧
      s.plane.crashed = true :=
  Machine.exists_reach (connectTwo ++ punch 9) (by decide +kernel)

end Server

end EasyTun.Transport
