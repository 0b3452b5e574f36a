import EasyTun.Protocol.Packet
import EasyTun.Stun.Tunnels
import EasyTun.Transport.Hub

/-!
# The server (`server.go`, `server_udp.go`, `server_p2p.go`, `server_ws.go`)

The data plane on top of the control plane of `Hub`. Datagrams of the clients
tell the server where to reach them (`dataAddr`); two `transfer` workers relay
data packets and ask for a direct path between the two clients; the P2P worker
sends each of the two the address of the other; `listenCheck` helps clients
behind a symmetric NAT.

Every goroutine is a program counter of its own, and a step is one access to
shared state: a channel, a snapshot, a record of a tunnel, a client's address.
The data plane reads the control plane and cannot change it, which the types of
its functions say.

- `Server.hub_reach`: **the control plane of a run is a run of the control
  plane**, so what holds for the `Hub` holds in the server.
-/

namespace EasyTun.Transport

open EasyTun.Lib EasyTun.Util EasyTun.Protocol EasyTun.Stun

/-! ## Data -/

/-- `transferPacket` (server.go:59–62): a data packet and where it came from. -/
structure TransferPacket where
  src : ByteArr 4
  dst : ByteArr 4
  raw : Bytes
  srcAddr : Endpoint

/-- `packet` (server.go:34–38). -/
structure OutPacket where
  data : Bytes
  broadcast : Bool
  dstAddr : AddrPort

/-- What `transfer` knows when it relays a packet. -/
structure Relay where
  packet : TransferPacket
  src : ConnId
  dst : ConnId
  dstAddr : AddrPort

/-- Where `transfer` is once it has both clients: inside `ifEstablish`
(server_p2p.go:15–32), before `newP2PTask`, or after it. -/
inductive Establish where
  | natTypes
  | exist
  | add
  | status (t : TunnelId)
  | retries (t : TunnelId)
  | reopen (t : TunnelId)
  | task
  | relay

/-- Where a `transfer` worker is (server.go:132–191). -/
inductive Transfer where
  | idle
  | taken (p : TransferPacket)
  | loaded (p : TransferPacket) (clientMap : Map (ByteArr 4) ConnId)
  | found (p : TransferPacket) (src dst : ConnId)
  | relaying (r : Relay) (next : Establish)

/-- What `handleP2PCommand` works on. -/
structure Command where
  task : P2PTask
  src : ConnId
  dst : ConnId
  srcAddr : AddrPort
  dstAddr : AddrPort

/-- The four tests of `handleP2PCommand` (server_p2p.go:97–114). -/
inductive Test where
  | srcSymmetric
  | dstSymmetric
  | dstCone
  | srcCone

/-- Where `handleP2PTask` is (server_p2p.go:53–80, 92–115). -/
inductive P2P where
  | idle
  | taken (task : P2PTask)
  | loaded (task : P2PTask) (clientMap : Map (ByteArr 4) ConnId)
  | looked (task : P2PTask) (clientMap : Map (ByteArr 4) ConnId) (t : Option TunnelId)
  | found (task : P2PTask) (src dst : ConnId)
  | loadedSrc (task : P2PTask) (src dst : ConnId) (srcAddr : AddrPort)
  | commanding (cmd : Command) (test : Test)

/-- Where `listenCheck` is (server_udp.go:151–210): waiting, or with a check for a
tunnel that exists. -/
inductive Check where
  | idle
  | seen (e : Endpoint) (src dst : ByteArr 4)

/-- Where `readPump` is in a message other than a handshake (server_ws.go:205–227). -/
inductive Ws where
  | idle
  | adding (a b : ByteArr 4)
  | status (t : TunnelId)
  | connecting (t : TunnelId)
  | failing (t : TunnelId)
  | counting (t : TunnelId)
  /-- The message is handled; `readPump` goes back to its loop. -/
  | done

/-- The data plane. `removing` is the client `removeClient` has removed the route of
and still has to remove the tunnels of; `calls` are the arguments of
`UDPAddrPortToBytes` so far, and a panic in it is the end. -/
structure Plane where
  dataAddr : ConnId → AddrPort
  controlChan : ConnId → List GamePacket
  ws : ConnId → Ws
  tm : TunnelManager
  removing : Option ConnId
  transferChan : List TransferPacket
  packetChan : List OutPacket
  p2pTaskChan : List P2PTask
  transfer : Fin 2 → Transfer
  p2p : P2P
  check : Check
  calls : List AddrPort
  crashed : Bool

/-- The capacities of the channels (server_hub.go:31–33, server_ws.go:28). -/
def controlCap : Nat := 16
def transferCap : Nat := 128
def packetCap : Nat := 128
def p2pTaskCap : Nat := 32

namespace Plane

/-- The data plane after `NewHub`; `newClient` stores the zero address. -/
def new : Plane :=
  { dataAddr := fun _ => .zero
    controlChan := fun _ => []
    ws := fun _ => .idle
    tm := .new
    removing := none
    transferChan := []
    packetChan := []
    p2pTaskChan := []
    transfer := fun _ => .idle
    p2p := .idle
    check := .idle
    calls := []
    crashed := false }

/-! ## Clients -/

/-- `trySendControl` (server_p2p.go:83–89), and every other send to a client's
channel that does not wait. -/
def trySendControl (s : Plane) (c : ConnId) (gp : GamePacket) : Plane :=
  if (s.controlChan c).length < controlCap then
    { s with controlChan := Function.update s.controlChan c (s.controlChan c ++ [gp]) }
  else s

/-- `updateAddrCheck` (server.go:194–201). -/
def updateAddrCheck (s : Plane) (c : ConnId) (addr : AddrPort) : Plane :=
  if s.dataAddr c = addr then s
  else { s with dataAddr := Function.update s.dataAddr c addr }

/-- A `TypeP2PCommand` message to a client, with an endpoint to try. -/
def sendCommand (s : Plane) (c : ConnId) (src dst : ByteArr 4) (addr : AddrPort)
    (natType : UInt8) : Plane :=
  let s := { s with calls := s.calls ++ [addr] }
  match udpAddrPortToBytes addr natType with
  -- `As4` panics on the zero address, and nothing recovers
  | none => { s with crashed := true }
  | some payload => s.trySendControl c (newGamePacket src dst typeP2PCommand (some payload))

/-! ## Datagrams -/

/-- `listenUdp` on one datagram (server_udp.go:78–147). `dnsReply` makes and encodes
the answer to a DNS request. -/
def listenUdp (dnsReply : Hub → Header → Bytes → Option Bytes) (s : Plane) (h : Hub)
    (e : Endpoint) (d : Bytes) : Plane :=
  match parseHeader d (parseMode d false) with
  | .error _ => s
  | .ok hd =>
    if clearCompress hd.pType = typePing then
      match h.router.clientMap.lookup hd.src with
      | some c => s.updateAddrCheck c e.addrPort
      | none => s
    else if clearCompress hd.pType = typeDnsRequest then
      match dnsReply h hd (d.drop headerLength) with
      | some data =>
        if s.packetChan.length < packetCap then
          { s with
            packetChan := s.packetChan ++ [{ data, broadcast := false, dstAddr := e.addrPort }] }
        else s
      | none => s
    else if clearCompress hd.pType = typeData then
      if s.transferChan.length < transferCap then
        { s with
          transferChan := s.transferChan ++
            [{ src := hd.src, dst := hd.dst, raw := d, srcAddr := e }] }
      else s
    else s

/-- `listenCheck` reads a datagram (server_udp.go:181–191). -/
def listenCheck (s : Plane) (e : Endpoint) (d : Bytes) : Plane :=
  match parseHeader d .plaintext with
  | .error _ => s
  | .ok hd =>
    if hd.pType = typeP2PCheck ∧ (s.tm.exist hd.src hd.dst).isSome then
      { s with check := .seen e hd.src hd.dst }
    else s

/-- `listenCheck` tells the other client (server_udp.go:192–204). -/
def listenCheckNext (s : Plane) (h : Hub) (e : Endpoint) (src dst : ByteArr 4) : Plane :=
  let s := { s with check := .idle }
  match h.router.clientMap.lookup src, h.router.clientMap.lookup dst with
  | some srcClient, some dstClient =>
    s.sendCommand dstClient src dst e.addrPort (h.client srcClient).natType
  | _, _ => s

/-! ## Relaying -/

/-- The destinations `transfer` relays to (server.go:148–150). -/
def relayed (dst : ByteArr 4) : Bool :=
  !(dst.1.getD 3 0 == 255 || (dst.1.getD 0 0 &&& 0xf0) == 0xe0) &&
    (dst.1.take 3 == Hub.subnetIp.1.take 3 && dst.1.getD 0 0 != 127)

/-- A `transfer` worker goes on. -/
def setTransfer (s : Plane) (w : Fin 2) (t : Transfer) : Plane :=
  { s with transfer := Function.update s.transfer w t }

/-- `newP2PTask` (server_p2p.go:35–50). -/
def newP2PTask (s : Plane) (task : P2PTask) : Plane :=
  if s.p2pTaskChan.length < p2pTaskCap then { s with p2pTaskChan := s.p2pTaskChan ++ [task] }
  else s

/-- The relaying of a packet between two clients, step by step
(server.go:156–177, server_p2p.go:15–32). -/
def relayNext (s : Plane) (h : Hub) (w : Fin 2) (r : Relay) : Establish → Plane
  | .natTypes =>
    if (h.client r.src).natType ≤ typeUnknown ∨ (h.client r.dst).natType ≤ typeUnknown then
      s.setTransfer w (.relaying r .relay)
    else s.setTransfer w (.relaying r .exist)
  | .exist =>
    match s.tm.exist r.packet.src r.packet.dst with
    | none => s.setTransfer w (.relaying r .add)
    | some t => s.setTransfer w (.relaying r (.status t))
  | .add =>
    { s with tm := s.tm.addTunnel r.packet.src r.packet.dst .init }.setTransfer w
      (.relaying r .task)
  | .status t =>
    if (s.tm.heap t).status = .failed then s.setTransfer w (.relaying r (.retries t))
    else s.setTransfer w (.relaying r .relay)
  | .retries t =>
    if (s.tm.heap t).retryTimes < 6 then s.setTransfer w (.relaying r (.reopen t))
    else s.setTransfer w (.relaying r .relay)
  | .reopen t =>
    { s with tm := s.tm.changeStatus t .init }.setTransfer w (.relaying r .task)
  | .task =>
    (s.newP2PTask
      { dstVip := r.packet.dst
        dst := r.dstAddr
        srcVip := r.packet.src
        src := r.packet.srcAddr.addrPort }).setTransfer w (.relaying r .relay)
  | .relay =>
    -- only here is the address tested; the task has been made before
    if r.dstAddr.isValid ∧ s.packetChan.length < packetCap then
      let p : OutPacket := { data := r.packet.raw, broadcast := false, dstAddr := r.dstAddr }
      { s with packetChan := s.packetChan ++ [p] }.setTransfer w .idle
    else s.setTransfer w .idle

/-- The next step of a `transfer` worker (server.go:132–191). -/
def transferNext (s : Plane) (h : Hub) (w : Fin 2) : Option Plane :=
  match s.transfer w with
  | .idle =>
    match s.transferChan with
    | [] => none
    | p :: rest => some ({ s with transferChan := rest }.setTransfer w (.taken p))
  | .taken p => some (s.setTransfer w (.loaded p h.router.clientMap))
  | .loaded p clientMap =>
    match clientMap.lookup p.src with
    | none => some (s.setTransfer w .idle)
    | some src =>
      let s := s.updateAddrCheck src p.srcAddr.addrPort
      if relayed p.dst then
        match clientMap.lookup p.dst with
        | some dst => some (s.setTransfer w (.found p src dst))
        | none => some (s.setTransfer w .idle)
      else some (s.setTransfer w .idle)
  | .found p src dst =>
    some (s.setTransfer w
      (.relaying { packet := p, src, dst, dstAddr := s.dataAddr dst } .natTypes))
  | .relaying r next => some (s.relayNext h w r next)

/-! ## Direct paths -/

/-- One test of `handleP2PCommand` (server_p2p.go:97–114). -/
def commandNext (s : Plane) (h : Hub) (cmd : Command) : Test → Plane
  | .srcSymmetric =>
    if (h.client cmd.src).natType = typeSymmetric then
      (s.trySendControl cmd.src
        (newGamePacket cmd.task.dstVip cmd.task.srcVip typeP2PCheck none)).sendCommand
          cmd.dst cmd.task.srcVip cmd.task.dstVip cmd.srcAddr (h.client cmd.src).natType
    else s
  | .dstSymmetric =>
    if (h.client cmd.dst).natType = typeSymmetric then
      (s.trySendControl cmd.dst
        (newGamePacket cmd.task.srcVip cmd.task.dstVip typeP2PCheck none)).sendCommand
          cmd.src cmd.task.dstVip cmd.task.srcVip cmd.dstAddr (h.client cmd.dst).natType
    else s
  | .dstCone =>
    if (h.client cmd.dst).natType = typeCone then
      s.sendCommand cmd.src cmd.task.dstVip cmd.task.srcVip cmd.dstAddr (h.client cmd.dst).natType
    else s
  | .srcCone =>
    if (h.client cmd.src).natType = typeCone then
      s.sendCommand cmd.dst cmd.task.srcVip cmd.task.dstVip cmd.srcAddr (h.client cmd.src).natType
    else s

/-- Where `handleP2PTask` is after a test. -/
def afterTest (cmd : Command) : Test → P2P
  | .srcSymmetric => .commanding cmd .dstSymmetric
  | .dstSymmetric => .commanding cmd .dstCone
  | .dstCone => .commanding cmd .srcCone
  | .srcCone => .idle

/-- The next step of `handleP2PTask` (server_p2p.go:53–80). -/
def p2pNext (s : Plane) (h : Hub) : Option Plane :=
  match s.p2p with
  | .idle =>
    match s.p2pTaskChan with
    | [] => none
    | task :: rest => some { s with p2pTaskChan := rest, p2p := .taken task }
  | .taken task => some { s with p2p := .loaded task h.router.clientMap }
  | .loaded task clientMap =>
    some { s with p2p := .looked task clientMap (s.tm.exist task.srcVip task.dstVip) }
  | .looked task clientMap t =>
    -- the tunnel is recorded before the clients are looked up
    let tm := match t with
      | none => s.tm.addTunnel task.srcVip task.dstVip .init
      | some t => s.tm.addRetryTimes t
    match clientMap.lookup task.srcVip, clientMap.lookup task.dstVip with
    | some src, some dst => some { s with tm, p2p := .found task src dst }
    | _, _ => some { s with tm, p2p := .idle }
  | .found task src dst => some { s with p2p := .loadedSrc task src dst (s.dataAddr src) }
  | .loadedSrc task src dst srcAddr =>
    some { s with
      p2p := .commanding { task, src, dst, srcAddr, dstAddr := s.dataAddr dst } .srcSymmetric }
  | .commanding cmd test => some { s.commandNext h cmd test with p2p := afterTest cmd test }

/-! ## Control messages -/

/-- The handler of a connection goes on. -/
def setWs (s : Plane) (c : ConnId) (w : Ws) : Plane :=
  { s with ws := Function.update s.ws c w }

/-- The messages that go to `handleHandshake`. -/
def isHandshake (d : Bytes) : Bool :=
  match parseHeader d .plaintext with
  | .ok hd => hd.pType == typeHandshake
  | .error _ => false

/-- `readPump` gets a message that is no handshake (server_ws.go:106–120, 184–227).
A client without an address is not listened to. -/
def wsMessage (s : Plane) (h : Hub) (c : ConnId) (d : Bytes) : Plane :=
  match parseHeader d .plaintext, (h.client c).virtualIp with
  | .ok hd, some vip =>
    if hd.pType = typeNoiseHandshake then
      match h.router.clientMap.lookup hd.dst with
      | some dst =>
        (s.trySendControl c (newGamePacket hd.dst vip typeNoiseResponse
          (some ((h.client dst).noisePublicKey.1 ++ d.drop headerLength)))).setWs c .done
      | none => s.setWs c .done
    else if hd.pType = typeP2PEstablished then
      match s.tm.exist vip hd.dst with
      | none => s.setWs c (.adding vip hd.dst)
      | some t => s.setWs c (.status t)
    else if hd.pType = typeP2PClosed then
      match s.tm.exist vip hd.dst with
      | none => s.setWs c .done
      | some t => s.setWs c (.failing t)
    else s.setWs c .done
  | _, _ => s.setWs c .done

/-- The next step of such a message (server_ws.go:208–214, 221–225). -/
def wsNext (s : Plane) (c : ConnId) : Option Plane :=
  match s.ws c with
  | .idle | .done => none
  | .adding a b => some ({ s with tm := s.tm.addTunnel a b .connected }.setWs c .done)
  | .status t =>
    if (s.tm.heap t).status = .init then some (s.setWs c (.connecting t))
    else some (s.setWs c .done)
  | .connecting t => some ({ s with tm := s.tm.changeStatus t .connected }.setWs c .done)
  | .failing t => some ({ s with tm := s.tm.changeStatus t .failed }.setWs c (.counting t))
  | .counting t => some ({ s with tm := s.tm.addRetryTimes t }.setWs c .done)

/-! ## What the control plane does to the data plane -/

/-- Nothing else holds what the step of the control plane needs: `readPump` for the
start of a handshake, the lock of the routing table for a change to it. -/
def admits (s : Plane) : Hub.Act → Bool
  | .load c _ | .quit c => match s.ws c with | .idle => true | _ => false
  | .addClient _ | .removeClient _ => s.removing.isNone
  | _ => true

/-- What a step of the control plane does to the rest: the reply to a handshake
(server_ws.go:174–179), and the tunnels that go with a route
(server_hub.go:110–112, 128). `h` is the control plane before the step. -/
def follow (s : Plane) (h : Hub) : Hub.Act → Plane
  | .finish c =>
    s.trySendControl c (newGamePacket (.zero 4) (ipToKey (h.client c).virtualIp) typeHandshake
      (some (h.client c).hostname))
  | .removeClient c =>
    if (h.router.clientMap.lookup (ipToKey (h.client c).virtualIp)).isSome then
      { s with removing := some c }
    else s
  | _ => s

/-- `readPump` of a connection waits for a message. -/
def reading (s : Plane) (h : Hub) (c : ConnId) : Bool :=
  match (h.conn c).pump, s.ws c with
  | .idle, .idle => true
  | _, _ => false

end Plane

/-! ## The machine -/

/-- The server: control plane and data plane. -/
structure Server where
  hub : Hub
  plane : Plane

namespace Server

/-- The steps. -/
inductive Act where
  /-- A step of the control plane. -/
  | hub (a : Hub.Act)
  /-- `removeClient` removes the tunnels. -/
  | removeA
  /-- A datagram arrives at the data port. -/
  | udp (e : Endpoint) (d : Bytes)
  /-- A datagram arrives at the check port. -/
  | check (e : Endpoint) (d : Bytes)
  | checkNext
  | transfer (w : Fin 2)
  | p2p
  /-- A control message that is no handshake arrives. -/
  | ws (c : ConnId) (d : Bytes)
  | wsNext (c : ConnId)
  /-- `readPump` goes back to its loop, or ends when the context is cancelled. -/
  | wsDone (c : ConnId)
  /-- A WebSocket ping arrives (server_ws.go:77–82). -/
  | ping (c : ConnId)
  /-- `writePump` sends a message to the client. -/
  | writePump (c : ConnId)
  /-- `writeUdpPacket` sends a packet. -/
  | writeUdp

variable (retentionTime : Int) (dnsReply : Hub → Header → Bytes → Option Bytes)

/-- The steps of the data plane, beside a control plane that stands still. -/
def planeStep (h : Hub) (s : Plane) : Act → Option Plane
  | .removeA =>
    match s.removing with
    | some c => some { s with
        tm := s.tm.removeA (ipToKey (h.client c).virtualIp), removing := none }
    | none => none
  | .udp e d => some (s.listenUdp dnsReply h e d)
  | .check e d =>
    match s.check with
    | .idle => some (s.listenCheck e d)
    | .seen _ _ _ => none
  | .checkNext =>
    match s.check with
    | .idle => none
    | .seen e src dst => some (s.listenCheckNext h e src dst)
  | .transfer w => s.transferNext h w
  | .p2p => s.p2pNext h
  | .ws c d =>
    guardTo (s.reading h c = true ∧ Plane.isHandshake d = false) (s.wsMessage h c d)
  | .wsNext c => s.wsNext c
  | .ping c =>
    guardTo (s.reading h c = true ∧ (s.controlChan c).length < controlCap)
      (s.trySendControl c (newGamePacket (.zero 4) (.zero 4) typePong none))
  | .writePump c =>
    match s.controlChan c with
    | [] => none
    | _ :: rest => some { s with controlChan := Function.update s.controlChan c rest }
  | .writeUdp =>
    match s.packetChan with
    | [] => none
    | _ :: rest => some { s with packetChan := rest }
  | .hub _ | .wsDone _ => none

/-- The steps of a server that has not crashed. -/
def live (s : Server) : Act → Option Server
  | .hub a =>
    if s.plane.admits a then
      (s.hub.step retentionTime a).map fun h => { hub := h, plane := s.plane.follow s.hub a }
    else none
  | .wsDone c =>
    match s.plane.ws c with
    | .done =>
      if (s.hub.conn c).cancelled then
        (s.hub.step retentionTime (.quit c)).map fun h =>
          { hub := h, plane := s.plane.setWs c .idle }
      else some { s with plane := s.plane.setWs c .idle }
    | _ => none
  | a => (planeStep dnsReply s.hub s.plane a).map fun p => { s with plane := p }

/-- One step of the server. -/
def step (s : Server) (a : Act) : Option Server :=
  if s.plane.crashed then none else s.live retentionTime dnsReply a

/-- The server, without clients. -/
def machine : Machine Server Act :=
  { init := { hub := .newHub, plane := .new }, step := step retentionTime dnsReply }

/-! ## What a step does -/

/-- A step is one of the control plane, with what follows from it, or one of the
data plane, or a message that ends. -/
inductive Does (s : Server) : Act → Server → Prop where
  | hub {a : Hub.Act} {h : Hub} (hs : s.hub.step retentionTime a = some h) :
      Does s (.hub a) { hub := h, plane := s.plane.follow s.hub a }
  | quit {c : ConnId} {h : Hub} (hs : s.hub.step retentionTime (.quit c) = some h) :
      Does s (.wsDone c) { hub := h, plane := s.plane.setWs c .idle }
  | back {c : ConnId} : Does s (.wsDone c) { s with plane := s.plane.setWs c .idle }
  | plane {a : Act} {p : Plane} (hp : planeStep dnsReply s.hub s.plane a = some p) :
      Does s a { s with plane := p }

variable {retentionTime dnsReply} {s s' : Server} {a : Act}

/-- **Inversion.** -/
theorem does_of_step (hs : step retentionTime dnsReply s a = some s') :
    s.plane.crashed = false ∧ Does retentionTime dnsReply s a s' := by
  unfold step at hs
  split at hs
  · cases hs
  · next hcrashed =>
    refine ⟨Bool.eq_false_iff.mpr hcrashed, ?_⟩
    have hplane : ∀ a, (planeStep dnsReply s.hub s.plane a).map (fun p => { s with plane := p }) =
        some s' → Does retentionTime dnsReply s a s' := by
      intro a hs
      obtain ⟨p, hp, rfl⟩ := Option.map_eq_some_iff.mp hs
      exact .plane hp
    cases a with
    | hub a =>
      simp only [live] at hs
      split at hs
      · obtain ⟨h, hh, rfl⟩ := Option.map_eq_some_iff.mp hs
        exact .hub hh
      · cases hs
    | wsDone c =>
      simp only [live] at hs
      split at hs
      · split at hs
        · obtain ⟨h, hh, rfl⟩ := Option.map_eq_some_iff.mp hs
          exact .quit hh
        · cases hs
          exact .back
      · cases hs
    | removeA | udp e d | check e d | checkNext | transfer w | p2p | ws c d | wsNext c | ping c
    | writePump c | writeUdp => exact hplane _ hs

/-- What a step of the control plane needs from the data plane. -/
theorem admits_of_step {b : Hub.Act} (hs : step retentionTime dnsReply s (.hub b) = some s') :
    s.plane.admits b = true := by
  unfold step at hs
  split at hs
  · cases hs
  · simp only [live] at hs
    split at hs
    · next hadmits => exact hadmits
    · cases hs

/-- Only a message that is handled ends. -/
theorem done_of_step {c : ConnId} (hs : step retentionTime dnsReply s (.wsDone c) = some s') :
    s.plane.ws c = .done := by
  unfold step at hs
  split at hs
  · cases hs
  · simp only [live] at hs
    split at hs
    · next hdone => exact hdone
    · cases hs

/-- Connections do not go away. -/
theorem next_le_of_step (hs : step retentionTime dnsReply s a = some s') :
    s.hub.next ≤ s'.hub.next := by
  cases (does_of_step hs).2 with
  | hub hh => exact Hub.next_le_of_step hh
  | quit hh => exact Hub.next_le_of_step hh
  | back => exact Nat.le_refl _
  | plane _ => exact Nat.le_refl _

/-- **The control plane of a run is a run of the control plane.** -/
theorem hub_reach (hr : (machine retentionTime dnsReply).Reach s) :
    (Hub.machine retentionTime).Reach s.hub := by
  refine hr.invariant (P := fun s => (Hub.machine retentionTime).Reach s.hub) ?_
    fun hreach hs => ?_
  · exact Machine.ReachVia.init
  cases (does_of_step hs).2 with
  | @hub a h hh => exact Machine.Reach.step (a := a) hreach hh
  | @quit c h hh => exact Machine.Reach.step (a := Hub.Act.quit c) hreach hh
  | back => exact hreach
  | plane _ => exact hreach

end Server

end EasyTun.Transport
