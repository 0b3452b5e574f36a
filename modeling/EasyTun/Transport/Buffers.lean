import EasyTun.Lib.Memory
import EasyTun.Protocol.Codec
import EasyTun.Transport.Server

/-!
# The buffers of the server (`server_udp.go`, `server.go`, `server_ws.go`)

The relay of the server again, this time with its memory. A datagram is copied into
a buffer of `bufPool`, and the buffer goes by reference through two queues to a
socket: `listenUdp` parses it into a `transferPacket`, a `transfer` worker puts its
buffer into a `packet`, and a `writeUdpPacket` worker sends it and puts the buffer
back. `transferPacket`s and `packet`s are pooled objects too. The control
connections use the same pool for what they send.

A step is one access to a pool, a queue, the routing table or a client's address, or
a write to a buffer. A pool hands out anything that was put into it and not taken
since, or something new. Whether the context is cancelled, how many workers there
are and which messages come in is left open.

All slices of these buffers begin at the start of their array, so a buffer is an
array and a slice of it a length. A nil slice that is put into a pool is left out:
who gets it makes a new array, as from an empty pool.

Queues and hands also record what the code does not: which datagram a packet is, and
how its target was chosen.
-/

namespace EasyTun.Transport

open EasyTun.Lib EasyTun.Util EasyTun.Protocol EasyTun.Protocol.GamePacket

namespace Buffers

/-! ## Objects -/

/-- A slice from the start of an array. -/
structure Buf where
  id : ArrId
  len : Nat
  deriving DecidableEq

/-- What a slice shows. -/
def Buf.bytes (b : Buf) (mem : Memory) : Bytes := (mem.arr b.id).take b.len

/-- The number of a `TunnelPacket`. -/
abbrev TpId := Nat

/-- `transferPacket` (server.go:59–62) with its `GamePacket`; nil is `none`. -/
structure Tp where
  rawData : Option Buf
  src : ByteArr 4
  dst : ByteArr 4
  srcAddr : AddrPort

/-- The number of a `Packet`. -/
abbrev PacketId := Nat

/-- `packet` (server.go:34–38). -/
structure Packet where
  data : Option Buf
  broadcast : Bool
  dstAddr : AddrPort

/-! ## What is on its way -/

/-- A `transferPacket` on its way: the datagram with this number, in this buffer. -/
structure Carried where
  tp : TpId
  buf : ArrId
  num : Nat
  deriving DecidableEq

/-- How a `transfer` worker chose the target of a datagram: the snapshot, the client
it found there, and the address it loaded from it. -/
structure Choice where
  num : Nat
  table : RouterSnapshot
  client : ConnId
  addr : AddrPort

/-- Where the data of a `packet` come from. -/
inductive Origin where
  | relay (c : Choice)
  | dns

/-- A `packet` on its way. -/
structure Parcel where
  packet : PacketId
  buf : Option ArrId
  origin : Origin

/-- `ipv4.Message`, for one address. -/
structure Message where
  data : Option Buf
  addr : AddrPort
  origin : Origin

/-- A datagram that was written. -/
structure Written where
  bytes : Bytes
  addr : AddrPort
  origin : Origin

/-- A message for a control connection. The payload of a `TypeNoiseResponse` is in a
pooled buffer, and other payloads in memory of their own. -/
structure Control where
  gp : GamePacket
  pending : Option ArrSlice

/-! ## Goroutines -/

/-- Where `listenUdp` is with a datagram (server_udp.go:77–147). -/
inductive Listen where
  | idle
  | stopped
  /-- Line 78: it comes to a datagram. -/
  | got (num : Nat) (content : Bytes) (srcAddr : AddrPort)
  /-- Line 86: it has a `transferPacket`. -/
  | read (num : Nat) (content : Bytes) (tp : TpId)
  /-- Inside `ParsePacket`, with a buffer. -/
  | buffered (num : Nat) (content : Bytes) (tp : TpId) (a : ArrId)
  /-- Line 124: a data packet. -/
  | parsed (e : Carried)
  /-- Line 104: a DNS request. -/
  | request (tp : TpId) (a : ArrId)
  | answered (tp : TpId) (a : ArrId) (resp : Bytes)
  | dnsPacket (tp : TpId) (a : ArrId) (resp : Bytes) (packet : PacketId)
  /-- Inside `EncodePacket`, with a buffer. -/
  | dnsBuffered (tp : TpId) (a : ArrId) (resp : Bytes) (packet : PacketId) (data : ArrId)
  | dnsEncoded (tp : TpId) (a : ArrId) (p : Parcel)
  /-- Line 119: the answer is dropped, its buffer is in the pool again. -/
  | dnsDropped (tp : TpId) (a : ArrId) (packet : PacketId)
  /-- `CleanUp`. -/
  | clean (tp : TpId) (a : Option ArrId)
  | cleaned (tp : TpId)
  /-- Line 134: the context is cancelled. -/
  | stopping (tp : TpId)

/-- Where a `transfer` worker is (server.go:132–191). What it does for a direct path
is in `Server`. -/
inductive Transfer where
  | idle
  | stopped
  | taken (e : Carried)
  | loaded (e : Carried) (table : RouterSnapshot)
  | found (e : Carried) (table : RouterSnapshot) (client : ConnId)
  | addressed (e : Carried) (c : Choice)
  | filled (e : Carried) (packet : PacketId) (c : Choice)
  /-- Not consumed. -/
  | dropping (e : Carried)
  | releasing (tp : TpId)

/-- Where a `writeUdpPacket` worker is (server_udp.go:212–280). -/
inductive Writer where
  | collecting (batch : List Parcel)
  | built (batch : List Parcel) (msgs : List Message)
  | releasing (batch : List Parcel)

/-- Where a `readPump` is in `handleNoiseHandshake` (server_ws.go:184–202), with what it
has yet to append to `pendingBuffer`. -/
inductive Reader where
  | idle
  | filling (gp : GamePacket) (pendingBuffer : ArrSlice) (rest : List Bytes)

/-- Where a `writePump` is (server_ws.go:37–74). -/
inductive Pump where
  | idle
  | stopped
  | taken (c : Control)
  | buffered (c : Control) (a : ArrId)
  | encoded (c : Control) (data : Option Buf)
  | wrote (c : Control)

/-- What the goroutines share about clients. -/
structure Clients where
  router : RouterSnapshot
  dataAddr : ConnId → AddrPort

/-- The memory, the pools, the channels, and where each goroutine is. -/
structure State where
  mem : Memory
  tps : TpId → Tp
  nextTp : TpId
  packets : PacketId → Packet
  nextPacket : PacketId
  bufPool : List ArrId
  tpPool : List TpId
  packetPool : List PacketId
  listen : Listen
  transferChan : List Carried
  transfers : Nat → Transfer
  packetChan : List Parcel
  writers : Nat → Writer
  readers : ConnId → Reader
  controlChan : ConnId → List Control
  pumps : ConnId → Pump
  clients : Clients
  /-- The datagrams so far, by number. -/
  received : List Bytes
  /-- What `clients` has been before. -/
  past : List Clients
  written : List Written

/-- What `clients` has been so far, and is. -/
def State.history (s : State) : List Clients := s.clients :: s.past

/-! ## Pools -/

/-- What a `Get` returns: what is at a position of the pool, or something new. -/
inductive Draw where
  | pooled (i : Nat)
  | made (n : Nat)

/-- The memory changes. -/
def setMem (s : State) (mem : Memory) : State := { s with mem }

/-- `bufPool.Put(..)`; a nil slice is `none`. -/
def putBuf (s : State) (a : Option ArrId) : State := { s with bufPool := s.bufPool ++ a.toList }

/-- `tpPool.Put(tp)`. -/
def putTp (s : State) (tp : TpId) : State := { s with tpPool := s.tpPool ++ [tp] }

/-- `packetPool.Put(packet)`. -/
def putPacket (s : State) (p : PacketId) : State := { s with packetPool := s.packetPool ++ [p] }

/-- `bufPool.Get()`. -/
def getBuf (s : State) : Draw → Option (ArrId × State)
  | .pooled i => s.bufPool[i]?.map fun a => (a, { s with bufPool := s.bufPool.eraseIdx i })
  | .made n => some (s.mem.next, setMem s (s.mem.alloc n))

/-- `bufPool.Get()` and the test of its capacity (packet.go:243–247, 263–267). -/
def getCap (s : State) (n : Nat) (d : Draw) : Option (ArrId × State) :=
  (getBuf s d).map fun r =>
    if (r.2.mem.arr r.1).length < n then
      -- too small: it goes back at once, and a new array is made
      (r.2.mem.next, setMem (putBuf r.2 (some r.1)) (r.2.mem.alloc n))
    else r

/-- `tpPool.Get()`. -/
def getTp (s : State) : Draw → Option (TpId × State)
  | .pooled i => s.tpPool[i]?.map fun tp => (tp, { s with tpPool := s.tpPool.eraseIdx i })
  | .made _ => some (s.nextTp, { s with nextTp := s.nextTp + 1 })

/-- `packetPool.Get()`. -/
def getPacket (s : State) : Draw → Option (PacketId × State)
  | .pooled i => s.packetPool[i]?.map fun p => (p, { s with packetPool := s.packetPool.eraseIdx i })
  | .made _ => some (s.nextPacket, { s with nextPacket := s.nextPacket + 1 })

/-! ## Assignments -/

/-- A `TunnelPacket` is filled. -/
def setTp (s : State) (tp : TpId) (t : Tp) : State := { s with tps := Function.update s.tps tp t }

/-- A `Packet` is filled. -/
def setPacket (s : State) (p : PacketId) (v : Packet) : State :=
  { s with packets := Function.update s.packets p v }

/-- An array is written to. -/
def store (s : State) (a : ArrId) (off : Nat) (bs : Bytes) : State :=
  setMem s (s.mem.store a off bs)

/-- The listener goes on. -/
def setListen (s : State) (l : Listen) : State := { s with listen := l }

/-- What is in the channel to `transfer`. -/
def setTransferChan (s : State) (es : List Carried) : State := { s with transferChan := es }

/-- What is in the channel to the writer. -/
def setPacketChan (s : State) (ps : List Parcel) : State := { s with packetChan := ps }

/-! ## Clients -/

/-- The clients change. -/
def setClients (s : State) (c : Clients) : State :=
  { s with clients := c, past := s.history }

/-- `updateAddrCheck` (server.go:194–201). -/
def updateAddrCheck (s : State) (c : ConnId) (addr : AddrPort) : State :=
  if s.clients.dataAddr c = addr then s
  else setClients s { s.clients with dataAddr := Function.update s.clients.dataAddr c addr }

/-! ## `listenUdp` -/

/-- The buffers that `ReadBatch` fills (server_udp.go:62). -/
def readSize : Nat := 2048

/-- What `listenUdp` does next. Which buffer a pool gives is chosen from outside. -/
inductive ListenAct where
  | receive (content : Bytes) (srcAddr : AddrPort)
  | getTp (d : Draw)
  | get (d : Draw)
  | parse
  /-- What `buildDnsResponse` returns, and what it writes over the request. -/
  | answer (resp : Option Bytes) (bs : Bytes)
  | dnsPacket (d : Draw)
  | dnsGet (d : Draw)
  | dnsEncode
  | dnsSend
  | dnsDrop
  | dnsPut
  | send
  | drop
  | done
  | putRaw
  | putTp

/-- `ParsePacket` with a buffer, and the `switch` on the type (server_udp.go:88–128,
packet.go:268–277). -/
def parse (s : State) (num : Nat) (content : Bytes) (tp : TpId) (a : ArrId) : State :=
  let s := store s a 0 content
  match parseHeader content (parseMode content false) with
  | .error _ =>
    -- `ParsePacket` puts the buffer back and clears `RawData`; `CleanUp` then puts nil
    setListen (putBuf (setTp s tp { s.tps tp with rawData := none }) (some a)) (.clean tp none)
  | .ok hd =>
    let t := { s.tps tp with rawData := some ⟨a, content.length⟩, src := hd.src, dst := hd.dst }
    let s := setTp s tp t
    if clearCompress hd.pType = typePing then
      -- the heartbeat of the data plane brings the client's address up to date
      match s.clients.router.clientMap.lookup hd.src with
      | some c => setListen (updateAddrCheck s c t.srcAddr) (.clean tp (some a))
      | none => setListen s (.clean tp (some a))
    else if clearCompress hd.pType = typeDnsRequest then setListen s (.request tp a)
    else if clearCompress hd.pType = typeData then setListen s (.parsed ⟨tp, a, num⟩)
    else setListen s (.clean tp (some a))

/-- The DNS answer in a buffer (server_udp.go:108–113). -/
def dnsWire (s : State) (tp : TpId) (resp : Bytes) : Bytes :=
  clearWire (.zero 4) (s.tps tp).src typeDnsResponse resp

/-- The answer in its `packet` (server_udp.go:111–113). -/
def dnsReady (s : State) (tp : TpId) (a : ArrId) (packet : PacketId) (data : Option Buf) : State :=
  setListen (setPacket s packet { data, broadcast := false, dstAddr := (s.tps tp).srcAddr })
    (.dnsEncoded tp a ⟨packet, data.map (·.id), .dns⟩)

/-- The datagram gets the next number. -/
def receive (s : State) (content : Bytes) (srcAddr : AddrPort) : State :=
  setListen { s with received := s.received ++ [content] }
    (.got s.received.length content srcAddr)

/-- One step of `listenUdp`. -/
def listenStep (s : State) : ListenAct → Option State
  | .receive content srcAddr =>
    match s.listen with
    | .idle => guardTo (content.length ≤ readSize) (receive s content srcAddr)
    | _ => none
  | .getTp d =>
    match s.listen with
    | .got num content srcAddr =>
      (getTp s d).map fun r =>
        setListen (setTp r.2 r.1 { r.2.tps r.1 with srcAddr }) (.read num content r.1)
    | _ => none
  | .get d =>
    match s.listen with
    | .read num content tp =>
      (getCap s content.length d).map fun r => setListen r.2 (.buffered num content tp r.1)
    | _ => none
  | .parse =>
    match s.listen with
    | .buffered num content tp a => some (parse s num content tp a)
    | _ => none
  | .answer resp bs =>
    match s.listen with
    | .request tp a =>
      -- the answer is appended to the first two bytes of the payload
      let s := store s a (headerLength + 2) bs
      match resp with
      | none => some (setListen s (.clean tp (some a)))
      | some resp => some (setListen s (.answered tp a resp))
    | _ => none
  | .dnsPacket d =>
    match s.listen with
    | .answered tp a resp =>
      (getPacket s d).map fun r => setListen r.2 (.dnsPacket tp a resp r.1)
    | _ => none
  | .dnsGet d =>
    match s.listen with
    | .dnsPacket tp a resp packet =>
      match payloadLengthField resp.length with
      | none =>
        -- `EncodePacket` returns nil, which is sent all the same
        some (dnsReady s tp a packet none)
      | some length =>
        (getCap s (headerLength + length.toNat) d).map fun r =>
          setListen r.2 (.dnsBuffered tp a resp packet r.1)
    | _ => none
  | .dnsEncode =>
    match s.listen with
    | .dnsBuffered tp a resp packet data =>
      let wire := dnsWire s tp resp
      some (dnsReady (store s data 0 wire) tp a packet (some ⟨data, wire.length⟩))
    | _ => none
  | .dnsSend =>
    match s.listen with
    | .dnsEncoded tp a p =>
      guardTo (s.packetChan.length < packetCap)
        (setListen (setPacketChan s (s.packetChan ++ [p])) (.clean tp (some a)))
    | _ => none
  | .dnsDrop =>
    match s.listen with
    | .dnsEncoded tp a p =>
      guardTo (packetCap ≤ s.packetChan.length)
        (setListen (putBuf (setPacket s p.packet { s.packets p.packet with data := none })
          ((s.packets p.packet).data.map (·.id))) (.dnsDropped tp a p.packet))
    | _ => none
  | .dnsPut =>
    match s.listen with
    | .dnsDropped tp a packet => some (setListen (putPacket s packet) (.clean tp (some a)))
    | _ => none
  | .send =>
    match s.listen with
    | .parsed e =>
      guardTo (s.transferChan.length < transferCap)
        (setListen (setTransferChan s (s.transferChan ++ [e])) .idle)
    | _ => none
  | .drop =>
    match s.listen with
    | .parsed e =>
      guardTo (transferCap ≤ s.transferChan.length) (setListen s (.clean e.tp (some e.buf)))
    | _ => none
  | .done =>
    match s.listen with
    | .parsed e =>
      -- the `transferPacket` goes into its pool with `RawData` still set, and nobody is
      -- left to take it out
      some (setListen (putBuf s ((s.tps e.tp).rawData.map (·.id))) (.stopping e.tp))
    | _ => none
  | .putRaw =>
    match s.listen with
    | .clean tp _ =>
      some (setListen (putBuf (setTp s tp { s.tps tp with rawData := none })
        ((s.tps tp).rawData.map (·.id))) (.cleaned tp))
    | _ => none
  | .putTp =>
    match s.listen with
    | .cleaned tp => some (setListen (putTp s tp) .idle)
    | .stopping tp => some (setListen (putTp s tp) .stopped)
    | _ => none

/-! ## `transfer` -/

/-- What a `transfer` worker does next. -/
inductive TransferAct where
  | take
  | load
  | check
  | address
  | fill (d : Draw)
  | send
  | drop
  | done
  | putRaw
  | putTp

/-- A `transfer` worker goes on. -/
def setTransfer (s : State) (k : Nat) (t : Transfer) : State :=
  { s with transfers := Function.update s.transfers k t }

/-- The clients of a packet in a snapshot (server.go:139–155). -/
def lookUp (s : State) (k : Nat) (e : Carried) (table : RouterSnapshot) : State :=
  let t := s.tps e.tp
  match table.clientMap.lookup t.src with
  | none => setTransfer s k (.dropping e)
  | some srcClient =>
    -- before the destination is looked at
    let s := updateAddrCheck s srcClient t.srcAddr
    if Plane.relayed t.dst then
      match table.clientMap.lookup t.dst with
      | some client => setTransfer s k (.found e table client)
      | none => setTransfer s k (.dropping e)
    else setTransfer s k (.dropping e)

/-- One step of a `transfer` worker. -/
def transferStep (s : State) (k : Nat) : TransferAct → Option State
  | .take =>
    match s.transfers k, s.transferChan with
    | .idle, e :: rest => some (setTransfer (setTransferChan s rest) k (.taken e))
    | _, _ => none
  | .load =>
    match s.transfers k with
    | .taken e => some (setTransfer s k (.loaded e s.clients.router))
    | _ => none
  | .check =>
    match s.transfers k with
    | .loaded e table => some (lookUp s k e table)
    | _ => none
  | .address =>
    match s.transfers k with
    | .found e table client =>
      some (setTransfer s k
        (.addressed e { num := e.num, table, client, addr := s.clients.dataAddr client }))
    | _ => none
  | .fill d =>
    match s.transfers k with
    | .addressed e c =>
      if c.addr.isValid then
        (getPacket s d).map fun r =>
          setTransfer (setPacket r.2 r.1
            { data := (s.tps e.tp).rawData, broadcast := false, dstAddr := c.addr }) k
            (.filled e r.1 c)
      else some (setTransfer s k (.dropping e))
    | _ => none
  | .send =>
    match s.transfers k with
    | .filled e packet c =>
      guardTo (s.packetChan.length < packetCap)
        (setTransfer (setPacketChan s (s.packetChan ++ [⟨packet, some e.buf, .relay c⟩])) k
          (.releasing e.tp))
    | _ => none
  | .drop =>
    match s.transfers k with
    | .filled e packet _ =>
      -- the `packet` goes into its pool with `data` still set
      guardTo (packetCap ≤ s.packetChan.length)
        (setTransfer (putPacket s packet) k (.dropping e))
    | _ => none
  | .done =>
    match s.transfers k with
    | .filled _ packet _ =>
      -- the worker returns and takes the `transferPacket` and its buffer with it
      some (setTransfer (putPacket s packet) k .stopped)
    | _ => none
  | .putRaw =>
    match s.transfers k with
    | .dropping e =>
      some (setTransfer (putBuf s ((s.tps e.tp).rawData.map (·.id))) k (.releasing e.tp))
    | _ => none
  | .putTp =>
    match s.transfers k with
    | .releasing tp =>
      some (setTransfer (putTp (setTp s tp { s.tps tp with rawData := none }) tp) k .idle)
    | _ => none

/-! ## `writeUdpPacket` -/

/-- `batchSize` (server_udp.go:213). -/
def batchSize : Nat := 16

/-- What the writer does next. -/
inductive WriterAct where
  | collect
  | build
  /-- `WriteBatch` writes the first `n` messages. -/
  | write (n : Nat)
  | putData
  | putPacket
  | next

/-- The writer goes on. -/
def setWriter (s : State) (k : Nat) (w : Writer) : State :=
  { s with writers := Function.update s.writers k w }

/-- The messages of a `packet` (server_udp.go:233–260). -/
def messages (s : State) (p : Parcel) : List Message :=
  let v := s.packets p.packet
  if v.broadcast then
    s.clients.router.clientSlice.filterMap fun c =>
      if (s.clients.dataAddr c).isValid then some ⟨v.data, s.clients.dataAddr c, p.origin⟩
      else none
  else if v.dstAddr.isValid then [⟨v.data, v.dstAddr, p.origin⟩]
  else []

/-- A message as it is written. -/
def Message.write (mem : Memory) (m : Message) : Written :=
  { bytes := (m.data.map (·.bytes mem)).getD [], addr := m.addr, origin := m.origin }

/-- The bytes that `WriteToUDP` gets. -/
def write (s : State) (msgs : List Message) : State :=
  { s with written := s.written ++ msgs.map (·.write s.mem) }

/-- One step of the writer. -/
def writerStep (s : State) (k : Nat) : WriterAct → Option State
  | .collect =>
    match s.writers k, s.packetChan with
    | .collecting batch, p :: rest =>
      guardTo (batch.length < batchSize)
        (setWriter (setPacketChan s rest) k (.collecting (batch ++ [p])))
    | _, _ => none
  | .build =>
    match s.writers k with
    | .collecting batch =>
      guardTo (batch.length ≠ 0) (setWriter s k (.built batch (batch.flatMap (messages s))))
    | _ => none
  | .write n =>
    match s.writers k with
    | .built batch msgs =>
      some (setWriter (write s (msgs.take n)) k (.releasing batch))
    | _ => none
  | .putData =>
    match s.writers k with
    | .releasing (p :: rest) =>
      guardTo ((s.packets p.packet).data ≠ none)
        (setWriter (putBuf (setPacket s p.packet { s.packets p.packet with data := none })
          ((s.packets p.packet).data.map (·.id))) k (.releasing ({ p with buf := none } :: rest)))
    | _ => none
  | .putPacket =>
    match s.writers k with
    | .releasing (p :: rest) =>
      guardTo ((s.packets p.packet).data = none)
        (setWriter (putPacket s p.packet) k (.releasing rest))
    | _ => none
  | .next =>
    match s.writers k with
    | .releasing [] => some (setWriter s k (.collecting []))
    | _ => none

/-! ## Control connections -/

/-- What the reader of a control connection does next. -/
inductive ReaderAct where
  /-- A query for the key of another client, and that key. -/
  | query (gp : GamePacket) (virtualIp : ByteArr 4) (noisePublicKey : ByteArr 32) (d : Draw)
  | append (slack : Nat)
  | send
  | drop
  | done

/-- A reader goes on. -/
def setReader (s : State) (k : ConnId) (r : Reader) : State :=
  { s with readers := Function.update s.readers k r }

/-- What is queued for a client. -/
def setControl (s : State) (k : ConnId) (cs : List Control) : State :=
  { s with controlChan := Function.update s.controlChan k cs }

/-- `handleNoiseHandshake` (server_ws.go:184–202). -/
def readerStep (s : State) (k : ConnId) : ReaderAct → Option State
  | .query gp virtualIp noisePublicKey d =>
    match s.readers k, s.clients.router.clientMap.lookup gp.dst with
    | .idle, some _ =>
      (getBuf s d).map fun r =>
        setReader r.2 k (.filling (newGamePacket gp.dst virtualIp typeNoiseResponse none)
          ⟨r.1, 0, 0, (r.2.mem.arr r.1).length⟩ [noisePublicKey.1, gp.data])
    | _, _ => none
  | .append slack =>
    match s.readers k with
    | .filling gp v (bs :: rest) =>
      let r := s.mem.append v bs slack
      some (setReader (setMem s r.1) k (.filling gp r.2 rest))
    | _ => none
  | .send =>
    match s.readers k with
    | .filling gp v [] =>
      guardTo ((s.controlChan k).length < controlCap)
        (setReader (setControl s k (s.controlChan k ++ [⟨gp, some v⟩])) k .idle)
    | _ => none
  | .drop =>
    match s.readers k with
    | .filling _ v [] =>
      guardTo (controlCap ≤ (s.controlChan k).length) (setReader (putBuf s (some v.id)) k .idle)
    | _ => none
  | .done =>
    match s.readers k with
    | .filling _ _ [] =>
      -- the context is cancelled, and the buffer is left to the garbage collector
      some (setReader s k .idle)
    | _ => none

/-- What the writer of a control connection does next. -/
inductive PumpAct where
  | take
  /-- `NextWriter` fails. -/
  | fail
  | get (d : Draw)
  | encode
  | put
  /-- The payload is put back, and the loop goes on if `Close` succeeds. -/
  | release (closed : Bool)

/-- The writer of a control connection goes on. -/
def setPump (s : State) (k : ConnId) (p : Pump) : State :=
  { s with pumps := Function.update s.pumps k p }

/-- The payload of a message. -/
def Control.payload (c : Control) (mem : Memory) : Bytes :=
  match c.pending with
  | some v => mem.read v
  | none => c.gp.data

/-- `writePump` (server_ws.go:37–74). -/
def pumpStep (s : State) (k : ConnId) : PumpAct → Option State
  | .take =>
    match s.pumps k, s.controlChan k with
    | .idle, c :: rest =>
      let s := setControl s k rest
      -- a pong is written as a control frame, without a buffer
      if c.gp.pType = typePong then some s else some (setPump s k (.taken c))
    | _, _ => none
  | .fail =>
    match s.pumps k with
    | .taken _ => some (setPump s k .stopped)
    | _ => none
  | .get d =>
    match s.pumps k with
    | .taken c =>
      match payloadLengthField (c.payload s.mem).length with
      | none => some (setPump s k (.encoded c none))
      | some length =>
        (getCap s (headerLength + length.toNat) d).map fun r => setPump r.2 k (.buffered c r.1)
    | _ => none
  | .encode =>
    match s.pumps k with
    | .buffered c a =>
      let wire := clearWire c.gp.src c.gp.dst c.gp.pType (c.payload s.mem)
      some (setPump (store s a 0 wire) k (.encoded c (some ⟨a, wire.length⟩)))
    | _ => none
  | .put =>
    match s.pumps k with
    | .encoded c data => some (setPump (putBuf s (data.map (·.id))) k (.wrote c))
    | _ => none
  | .release closed =>
    match s.pumps k with
    | .wrote c =>
      let next : Pump := if closed then .idle else .stopped
      if c.gp.pType = typeNoiseResponse then
        some (setPump (putBuf s (c.pending.map (·.id))) k next)
      else some (setPump s k next)
    | _ => none

/-! ## The server -/

/-- A step of one of the goroutines. -/
inductive Act where
  | listen (a : ListenAct)
  | transfer (k : Nat) (a : TransferAct)
  | writer (k : Nat) (a : WriterAct)
  | reader (k : ConnId) (a : ReaderAct)
  | pump (k : ConnId) (a : PumpAct)
  /-- `addClient` or `removeClient` stores a snapshot. -/
  | route (r : RouterSnapshot)
  /-- Another message for a client. -/
  | post (k : ConnId) (gp : GamePacket)

/-- One step of the server. -/
def step (s : State) : Act → Option State
  | .listen a => listenStep s a
  | .transfer k a => transferStep s k a
  | .writer k a => writerStep s k a
  | .reader k a => readerStep s k a
  | .pump k a => pumpStep s k a
  | .route r => some (setClients s { s.clients with router := r })
  | .post k gp =>
    guardTo (gp.pType ≠ typeNoiseResponse) (setControl s k (s.controlChan k ++ [⟨gp, none⟩]))

/-- `NewHub` (server_hub.go:26–60): everything is empty. -/
def start : State :=
  { mem := { arr := fun _ => [], next := 0 }
    tps := fun _ => { rawData := none, src := .zero 4, dst := .zero 4, srcAddr := .zero }
    nextTp := 0
    packets := fun _ => { data := none, broadcast := false, dstAddr := .zero }
    nextPacket := 0
    bufPool := [], tpPool := [], packetPool := []
    listen := .idle
    transferChan := []
    transfers := fun _ => .idle
    packetChan := []
    writers := fun _ => .collecting []
    readers := fun _ => .idle
    controlChan := fun _ => []
    pumps := fun _ => .idle
    clients := { router := .empty, dataAddr := fun _ => .zero }
    received := []
    past := []
    written := [] }

/-- The server, with empty pools and channels. -/
def machine : Machine State Act := { init := start, step := step }

end Buffers

end EasyTun.Transport
