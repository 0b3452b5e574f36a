import Mathlib.Tactic.Common
import EasyTun.Lib.Custody
import EasyTun.Protocol.Grammar
import EasyTun.Transport.ClientSend
import EasyTun.Util.Dns

/-!
# The buffers of a client (`client_udp.go`, `device_linux.go`, `packet.go`, `compress.go`)

The goroutines of a client take their buffers from one `sync.Pool` and put them back when they
are done. In between a buffer goes through queues and from hand to hand: `tunRecv` reads a packet
into it, a worker of `packetSend` compresses it, encodes it into a second buffer and puts both
back; a worker of `packetRecv` decrypts in place, `tunSend` writes and puts back. Who puts a
buffer back and still uses it, or puts it back twice, lets another goroutine write over a packet.

The places are the pool, the queues and the variables of the goroutines. A step is a list of
operations on them (`EasyTun.Lib.Custody`) and a move of one goroutine. `EncodePacket`,
`ParsePacket` and `DecryptParse` are as many steps as they have accesses to buffers, and each
step goes by what the buffers have in them at that time. Which of the pooled buffers a `Get`
returns is left open, and so is whether it is large enough.

Three places of the program pass on a buffer that they keep (`Clean`). `packetSend` puts
`dnsBuffer` back and uses it for the next query; the first packet for a peer is a part of the
`readBuffer` of `controlRecv`; and `testBroadCast` sends the same packet again and again. At a
fourth one a buffer is referred to from elsewhere: the address of a peer, which `addP2P` keeps in
`p2pRouter`, is a part of `readBuffer` too (`views`).

- `plan`: what each step does with which buffers.
- `machine`: the client.
-/

namespace EasyTun.Transport.ClientBuffers

open EasyTun.Lib EasyTun.Lib.NoiseIK EasyTun.Protocol EasyTun.Protocol.GamePacket EasyTun.Util
open Custody (Op)

/-! ## Places -/

/-- How far `compress` is with a payload. -/
inductive Stage where
  | plain
  /-- It is long enough. -/
  | long
  /-- The probe was good, in a buffer of this length. -/
  | probed (n : Nat)
  | squeezed
  deriving DecidableEq

/-- The places of the client that hold buffers. -/
inductive Place where
  | bufPool
  | fromTun
  | fromNet
  /-- Packets in the queries of `ControlSendChan`. -/
  | controlSendChan
  /-- `pendingChan` of a session. -/
  | pendingChan (sid : Nat)
  /-- `buf` of `tunRecv`, before and after `Read`. -/
  | tunBuf (j : Nat)
  | tunPacket (j : Nat)
  /-- `payload` of `tunSend`. -/
  | tunPayload (j : Nat)
  /-- The variables of a worker of `packetSend`. -/
  | payloadBatch (k : Nat)
  /-- `Payload` while the worker is at the packet `p`, and if it is at a query. -/
  | payload (k : Nat) (p : Bytes) (stage : Stage)
  | request (k : Nat)
  | dnsBuffer (k : Nat)
  /-- The buffers of `compress`. -/
  | probeBuf (k : Nat)
  | dst (k : Nat)
  /-- `data` of `EncodePacket`, before and after `encode`. -/
  | dataBuf (k : Nat)
  | data (k : Nat)
  /-- `buffer` of a worker of `packetRecv`, before and after `ReadFromUDP`. -/
  | buffer (k : Nat)
  | datagram (k : Nat)
  /-- `RawData`: a buffer for the datagram, with the datagram `d`, decrypted to `n` bytes of
  payload, and ready for `FromNet`. -/
  | parseBuf (k : Nat)
  | rawData (k : Nat) (d : Bytes)
  | opened (k : Nat) (d : Bytes) (key : Key) (n : Nat)
  | ready (k : Nat)
  /-- `dst` of `decompress`. -/
  | inflateBuf (k : Nat)
  /-- What others have encoded: `heartbeat`, `controlSend`, `initiateNoise` and the like. -/
  | borrowed (j : Nat)
  /-- `readBuffer` of `controlRecv`. -/
  | readBuffer
  /-- `bch` of `testBroadCast`. -/
  | bch
  deriving DecidableEq

instance : Nontrivial Place := ⟨.bufPool, .fromTun, by decide⟩

/-! ## What is computed from the contents -/

/-- What a client is built with. Opening a ciphertext does not make it longer, so that it can be
done in place. -/
structure Env where
  aead : Aead Key
  lz4 : Lz4
  cfg : ClientConfig
  opened_le : ∀ {k n c ad p}, aead.opened k n c ad = some p → p.length ≤ c.length

/-- The probe of `compress`, in a buffer of length `n` (compress.go:27–30). -/
def probeOk (L : Lz4) (n : Nat) (x : Bytes) : Bool :=
  (L.compressBlock (x.take 64) n).any fun out => out.length ≤ 50

/-- The full pass of `compress` (compress.go:40–46). -/
def squeeze (L : Lz4) (x : Bytes) : Option Bytes :=
  (L.compressBlock x (L.compressBlockBound x.length)).filter fun out =>
    0 < out.length ∧ out.length < x.length ∧ out.length ≤ maxPayloadSize

/-- What a worker of `packetSend` encodes. -/
inductive Body where
  | plain
  | squeezed
  | request
  deriving DecidableEq

/-- Where the body of a packet is. -/
def Body.place (k : Nat) (p : Bytes) : Body → Place
  | .plain => .payload k p .plain
  | .squeezed => .payload k p .squeezed
  | .request => .request k

/-- `gp` for the packet `p`, with `y` as its payload (client_udp.go:63, 80, 84). -/
def gamePacket (cfg : ClientConfig) (p y : Bytes) : Body → GamePacket
  | .plain => newGamePacket cfg.localIp (dstIp p) typeData (some y)
  | .squeezed =>
    let gp := newGamePacket cfg.localIp (dstIp p) typeData (some y)
    { gp with pType := setCompress gp.pType }
  | .request => newGamePacket cfg.localIp (dstIp p) typeDnsRequest (some y)

/-- `encode`, with a value of the session's counter. -/
def encode (E : Env) (p : Bytes) (key : Option Key) (counter : UInt64) (body : Body) (y : Bytes) :
    Bytes :=
  ((gamePacket E.cfg p y body).encode E.aead [] false (key.map (⟨·, counter⟩))).wire.getD []

/-- The decryption of `DecryptParse` (packet.go:201–212): `RawData` and the length of `Payload`
afterwards. The header was parsed when `RawData` had the datagram `d` in it. -/
def decrypt (E : Env) (key : Key) (d raw : Bytes) : Option (Bytes × Nat) :=
  if 0 < (headerOf d).length.toNat then
    (E.aead.opened key ((raw.drop 9).take nonceLength) (raw.drop headerLength)
        (raw.take (headerLength - nonceLength))).map fun decrypted =>
      (raw.take headerLength ++ (decrypted ++ raw.drop (headerLength + decrypted.length)),
        decrypted.length)
  else some (raw, raw.length - headerLength)

/-- `decompress` (compress.go:61–80), where `Payload` is `n` bytes of `RawData`. -/
def inflate (L : Lz4) (n : Nat) (raw : Bytes) : Option Bytes :=
  ((L.uncompressBlock ((raw.drop headerLength).take n) maxPayloadSize).filter fun out =>
    0 < out.length ∧ out.length ≤ maxPayloadSize).map (raw.take headerLength ++ ·)

/-- `BuildDNSResponse` with the payload of a response (client_udp.go:211). It makes a buffer of its
own. -/
def dnsBuf (cfg : ClientConfig) (raw : Bytes) : Option Bytes :=
  (buildDNSResponse (raw.drop headerLength) cfg.localIp cfg.dnsIp).toOption

/-! ## Goroutines -/

/-- Where the reader of the TUN device is. -/
inductive TunRecv where
  | idle
  | reading
  | filled
  deriving DecidableEq

/-- Where the writer of the TUN device is. -/
inductive TunSend where
  | waiting
  | writing
  | written
  deriving DecidableEq

/-- The packet a worker of `packetSend` is at, as it was when the worker took it up, and the key
of its session. -/
structure Job where
  packet : Bytes
  key : Option Key
  deriving DecidableEq

/-- Where a worker of `packetSend` is (client_udp.go:21–111). -/
inductive Send where
  | stopped
  /-- It collects its batch. -/
  | select
  /-- It takes the next packet of the batch. -/
  | walking
  /-- In `compress`: before the probe, with a buffer for it, and with a buffer for the result. -/
  | compressing (job : Job)
  | probing (job : Job)
  | squeezing (job : Job) (n : Nat)
  /-- In `EncodePacket`, before and behind `Get`. -/
  | encoding (job : Job) (body : Body)
  | filling (job : Job) (body : Body)
  /-- Before `WriteToUDP`, and before each of the two `Put`. -/
  | sending (job : Job) (body : Body)
  | sent (job : Job) (body : Body)
  | released
  deriving DecidableEq

/-- Where a worker of `packetRecv` is (client_udp.go:114–226). -/
inductive Recv where
  | stopped
  | reading
  /-- In `ParsePacket`, before and behind `Get`. -/
  | received
  | copying
  | parsed (d : Bytes)
  /-- Behind `SendDNS`. -/
  | answered (d : Bytes)
  /-- In `DecryptParse`, behind `Decrypt`, and in `decompress`. -/
  | decrypted (d : Bytes) (key : Key) (n : Nat)
  | inflating (d : Bytes) (key : Key) (n : Nat)
  | ready
  deriving DecidableEq

/-- The goroutines, and what has been exchanged with the kernel and the network. -/
structure Control where
  tunRecv : Nat → TunRecv
  tunSend : Nat → TunSend
  send : Nat → Send
  recv : Nat → Recv
  /-- Packets read from the kernel, and those that `tunSend` and `SendDNS` have given to `Write`. -/
  read : List Bytes
  written : List Bytes
  answered : List Bytes
  /-- Datagrams that came, and that were sent. -/
  received : List Bytes
  sent : List Bytes
  /-- The buffers that addresses in `p2pRouter` are parts of (ipTransform.go:31–36). -/
  views : List Nat

namespace Control

variable (c : Control)

/-- The reader of the TUN device goes on. -/
def setTunRecv (j : Nat) (ph : TunRecv) : Control :=
  { c with tunRecv := Function.update c.tunRecv j ph }

/-- The writer of the TUN device goes on. -/
def setTunSend (j : Nat) (ph : TunSend) : Control :=
  { c with tunSend := Function.update c.tunSend j ph }

/-- A worker of `packetSend` goes on. -/
def setSend (k : Nat) (ph : Send) : Control := { c with send := Function.update c.send k ph }

/-- A worker of `packetRecv` goes on. -/
def setRecv (k : Nat) (ph : Recv) : Control := { c with recv := Function.update c.recv k ph }

end Control

/-- The goroutines, and the buffers. -/
structure State where
  bufs : Custody Place Bytes
  ctl : Control

/-- A client that has just started. -/
def start : State :=
  { bufs := .empty
    ctl :=
      { tunRecv := fun _ => .idle, tunSend := fun _ => .waiting, send := fun _ => .stopped
        recv := fun _ => .stopped, read := [], written := [], answered := [], received := []
        sent := [], views := [] } }

/-! ## The steps -/

/-- `Get`. What comes from the pool is not looked at; if it is too small, or nothing is there,
a buffer is made. -/
def get (p : Place) : Option Nat → Op Place Bytes
  | some i => .move .bufPool p i
  | none => .make p []

/-- `Put`. -/
def put (p : Place) : Op Place Bytes := .move p .bufPool 0

/-- What a step does: operations, and a move of the goroutine. -/
abbrev Plan := List (Op Place Bytes) × Control

/-- What the goroutines of the TUN device do next. -/
inductive TunAct where
  | get (pick : Option Nat)
  | read (packet : Bytes)
  /-- `Read` fails, or the packet is not for the tunnel. -/
  | fail
  | reject
  | offer
  | take
  | write
  | put

section Plans

variable (E : Env) (s : State)

/-- `tunRecv` and `tunSend` of a device (device_linux.go:148–213). -/
def tunPlan (j : Nat) : TunAct → Option Plan
  | .get pick =>
    guardTo (s.ctl.tunRecv j = .idle) ([get (.tunBuf j) pick], s.ctl.setTunRecv j .reading)
  | .read packet =>
    guardTo (s.ctl.tunRecv j = .reading)
      ([.fill (.tunBuf j) (.tunPacket j) packet],
        { s.ctl.setTunRecv j .filled with read := s.ctl.read ++ [packet] })
  | .fail =>
    guardTo (s.ctl.tunRecv j = .reading) ([put (.tunBuf j)], s.ctl.setTunRecv j .idle)
  | .reject =>
    guardTo (s.ctl.tunRecv j = .filled) ([put (.tunPacket j)], s.ctl.setTunRecv j .idle)
  | .offer =>
    guardTo (s.ctl.tunRecv j = .filled)
      ([if (s.bufs.hold .fromTun).length < 256 then .move (.tunPacket j) .fromTun 0
        else put (.tunPacket j)], s.ctl.setTunRecv j .idle)
  | .take =>
    guardTo (s.ctl.tunSend j = .waiting)
      ([.move .fromNet (.tunPayload j) 0], s.ctl.setTunSend j .writing)
  | .write =>
    (s.bufs.content (.tunPayload j)).bind fun x =>
      guardTo (s.ctl.tunSend j = .writing)
        ([], { s.ctl.setTunSend j .written with
          written := s.ctl.written ++ (tunSend x).toList })
  | .put =>
    guardTo (s.ctl.tunSend j = .written) ([put (.tunPayload j)], s.ctl.setTunSend j .waiting)

/-- What becomes of a packet of the batch (client_udp.go:57–86). -/
inductive Route where
  /-- There is no session, and the packet goes with a query for the key. -/
  | query
  /-- The session is not ready, and its queue may be closed. -/
  | queue (sid : Nat) (isOpen : Bool)
  | session (key : Key)
  | broadcast
  /-- A query for a name; `dnsBuffer` may have to grow. -/
  | dns (grows : Bool)

/-- The first packet `p` of the batch. A query is appended to `dnsBuffer[:0]`, beginning with the
port, and a buffer that is too small is left behind. -/
def routePlan (k : Nat) (p : Bytes) : Route → Option Plan
  | .query =>
    guardTo (needsSession E.cfg.dnsIp p = true ∧ (s.bufs.hold .controlSendChan).length < 16)
      ([.move (.payloadBatch k) .controlSendChan 0], s.ctl)
  | .queue sid isOpen =>
    guardTo (needsSession E.cfg.dnsIp p = true)
      ([if isOpen = true ∧ (s.bufs.hold (.pendingChan sid)).length < 24 then
          .move (.payloadBatch k) (.pendingChan sid) 0
        else .drop (.payloadBatch k)], s.ctl)
  | .session key =>
    guardTo (needsSession E.cfg.dnsIp p = true)
      ([.pass (.payloadBatch k) (.payload k p .plain) p],
        s.ctl.setSend k (if E.cfg.enableCompress then .compressing ⟨p, some key⟩
          else .encoding ⟨p, some key⟩ .plain))
  | .broadcast =>
    guardTo (isDns E.cfg.dnsIp p = false ∧ needsSession E.cfg.dnsIp p = false)
      ([.pass (.payloadBatch k) (.payload k p .plain) p],
        s.ctl.setSend k (.encoding ⟨p, none⟩ .plain))
  | .dns grows =>
    let old := (s.bufs.content (.dnsBuffer k)).getD []
    guardTo (isDns E.cfg.dnsIp p = true)
      (.drop (.payloadBatch k) ::
        (if grows then
          [.write (.dnsBuffer k) ((dnsRequest p).take 2 ++ old.drop 2), .drop (.dnsBuffer k),
            .make (.dnsBuffer k) (dnsRequest p)]
        else [.write (.dnsBuffer k) (dnsRequest p)]) ++ [.share (.dnsBuffer k) (.request k)],
        s.ctl.setSend k (.encoding ⟨p, none⟩ .request))

/-- In `compress`: the payload is short, a buffer for the probe, the probe is bad or good, the
full pass. -/
inductive CompressAct where
  | short
  | probe (pick : Option Nat)
  | dismiss (n : Nat) (junk : Bytes)
  | accept (n : Nat) (junk : Bytes) (pick : Option Nat)
  | squeeze (junk : Bytes)

/-- `compress` (compress.go:14–49). -/
def compressPlan (k : Nat) : CompressAct → Option Plan
  | .short =>
    match s.ctl.send k with
    | .compressing job =>
      (s.bufs.content (.payload k job.packet .plain)).bind fun x =>
        guardTo (payloadLengthField x.length ≠ none ∧ x.length ≤ 128)
          ([], s.ctl.setSend k (.encoding job .plain))
    | _ => none
  | .probe pick =>
    match s.ctl.send k with
    | .compressing job =>
      (s.bufs.content (.payload k job.packet .plain)).bind fun x =>
        guardTo (payloadLengthField x.length ≠ none ∧ 128 < x.length)
          ([.pass (.payload k job.packet .plain) (.payload k job.packet .long) x,
            get (.probeBuf k) pick], s.ctl.setSend k (.probing job))
    | _ => none
  | .dismiss n junk =>
    match s.ctl.send k with
    | .probing job =>
      (s.bufs.content (.payload k job.packet .long)).bind fun x =>
        guardTo (probeOk E.lz4 n x = false)
          ([.write (.probeBuf k) junk, put (.probeBuf k),
            .pass (.payload k job.packet .long) (.payload k job.packet .plain) x],
            s.ctl.setSend k (.encoding job .plain))
    | _ => none
  | .accept n junk pick =>
    match s.ctl.send k with
    | .probing job =>
      (s.bufs.content (.payload k job.packet .long)).bind fun x =>
        guardTo (probeOk E.lz4 n x = true)
          ([.write (.probeBuf k) junk,
            .pass (.payload k job.packet .long) (.payload k job.packet (.probed n)) x,
            get (.dst k) pick], s.ctl.setSend k (.squeezing job n))
    | _ => none
  | .squeeze junk =>
    match s.ctl.send k with
    | .squeezing job n =>
      (s.bufs.content (.payload k job.packet (.probed n))).map fun x =>
        match squeeze E.lz4 x with
        | some y =>
          ([put (.payload k job.packet (.probed n)),
            .fill (.dst k) (.payload k job.packet .squeezed) y, put (.probeBuf k)],
            s.ctl.setSend k (.encoding job .squeezed))
        | none =>
          ([.write (.dst k) junk, put (.dst k),
            .pass (.payload k job.packet (.probed n)) (.payload k job.packet .plain) x,
            put (.probeBuf k)], s.ctl.setSend k (.encoding job .plain))
    | _ => none

/-- What `EncodePacket` does next. -/
inductive EmitAct where
  /-- The payload is too long for `EncodePacket`, which returns nil. -/
  | refuse
  | getData (pick : Option Nat)
  | encode (counter : UInt64)
  | send
  | putPayload
  | putData

/-- The rest of `EncodePacket`, and up to the second `Put` (client_udp.go:87–97). -/
def emitPlan (k : Nat) : EmitAct → Option Plan
  | .refuse =>
    match s.ctl.send k with
    | .compressing job =>
      (s.bufs.content (.payload k job.packet .plain)).bind fun y =>
        guardTo (payloadLengthField y.length = none)
          ([.make (.data k) []], s.ctl.setSend k (.sending job .plain))
    | .encoding job body =>
      (s.bufs.content (body.place k job.packet)).bind fun y =>
        guardTo (payloadLengthField y.length = none)
          ([.make (.data k) []], s.ctl.setSend k (.sending job body))
    | _ => none
  | .getData pick =>
    match s.ctl.send k with
    | .encoding job body =>
      (s.bufs.content (body.place k job.packet)).bind fun y =>
        guardTo (payloadLengthField y.length ≠ none)
          ([get (.dataBuf k) pick], s.ctl.setSend k (.filling job body))
    | _ => none
  | .encode counter =>
    match s.ctl.send k with
    | .filling job body =>
      (s.bufs.content (body.place k job.packet)).map fun y =>
        ([.fill (.dataBuf k) (.data k)
          (encode E job.packet job.key counter body y)],
          s.ctl.setSend k (.sending job body))
    | _ => none
  | .send =>
    match s.ctl.send k with
    | .sending job body =>
      (s.bufs.content (.data k)).map fun w =>
        ([], { s.ctl.setSend k (.sent job body) with sent := s.ctl.sent ++ [w] })
    | _ => none
  | .putPayload =>
    match s.ctl.send k with
    | .sent job body => some ([put (body.place k job.packet)], s.ctl.setSend k .released)
    | _ => none
  | .putData =>
    guardTo (s.ctl.send k = .released) ([put (.data k)], s.ctl.setSend k .walking)

/-- What a worker of `packetSend` does next. -/
inductive SendAct where
  | start
  /-- The session ends. -/
  | stop
  | collect
  | walk
  | route (r : Route)
  | compress (a : CompressAct)
  | emit (a : EmitAct)
  | done

/-- A worker of `packetSend`. -/
def sendPlan (k : Nat) : SendAct → Option Plan
  | .start =>
    guardTo (s.ctl.send k = .stopped) ([.make (.dnsBuffer k) []], s.ctl.setSend k .select)
  | .stop =>
    guardTo (s.ctl.send k = .select ∨ s.ctl.send k = .walking)
      (List.replicate (s.bufs.hold (.payloadBatch k)).length (.drop (.payloadBatch k)) ++
        [.drop (.dnsBuffer k)], s.ctl.setSend k .stopped)
  | .collect =>
    (s.bufs.content .fromTun).bind fun x =>
      guardTo (s.ctl.send k = .select ∧ (s.bufs.hold (.payloadBatch k)).length < 32)
        ([if x.length < 20 then .drop .fromTun else .move .fromTun (.payloadBatch k) 0], s.ctl)
  | .walk =>
    guardTo (s.ctl.send k = .select ∧ s.bufs.hold (.payloadBatch k) ≠ [] ∧
        ((s.bufs.hold (.payloadBatch k)).length = 32 ∨ s.bufs.hold .fromTun = []))
      ([], s.ctl.setSend k .walking)
  | .route r =>
    if s.ctl.send k = .walking then
      (s.bufs.content (.payloadBatch k)).bind fun p => routePlan E s k p r
    else none
  | .done =>
    guardTo (s.ctl.send k = .walking ∧ s.bufs.hold (.payloadBatch k) = [])
      ([], s.ctl.setSend k .select)
  | .compress a => compressPlan E s k a
  | .emit a => emitPlan E s k a

/-- What `ParsePacket` does next. -/
inductive ParseAct where
  | oversized
  | getRaw (pick : Option Nat)
  | parse
  /-- `RawData` is put back: it was a ping or a pong, or not for a session, or
  `HandleNoisePacket` has taken it. -/
  | release
  /-- A response to a query for a name. -/
  | answer
  | putAnswer
  /-- A packet of another type. -/
  | forget

/-- The types that `packetRecv` has a branch for (client_udp.go:141). -/
def recvTypes : List UInt8 := [typeData, typePing, typePong, typeDnsResponse]

/-- `ParsePacket`, and what becomes of the packet if it is not decrypted. -/
def parsePlan (k : Nat) : ParseAct → Option Plan
  | .oversized =>
    (s.bufs.content (.datagram k)).bind fun d =>
      guardTo (s.ctl.recv k = .received ∧ maxPacketSize < d.length)
        ([.move (.datagram k) (.buffer k) 0], s.ctl.setRecv k .reading)
  | .getRaw pick =>
    (s.bufs.content (.datagram k)).bind fun d =>
      guardTo (s.ctl.recv k = .received ∧ d.length ≤ maxPacketSize)
        ([get (.parseBuf k) pick], s.ctl.setRecv k .copying)
  | .parse =>
    (s.bufs.content (.datagram k)).bind fun d =>
      guardTo (s.ctl.recv k = .copying)
        (match parseHeader d (parseMode d false) with
        | .ok _ =>
          ([.fill (.parseBuf k) (.rawData k d) d, .move (.datagram k) (.buffer k) 0],
            s.ctl.setRecv k (.parsed d))
        | .error _ =>
          ([.write (.parseBuf k) d, put (.parseBuf k), .move (.datagram k) (.buffer k) 0],
            s.ctl.setRecv k .reading))
  | .release =>
    match s.ctl.recv k with
    | .parsed d =>
      guardTo (clearCompress (headerOf d).pType ∈ recvTypes ∧
          clearCompress (headerOf d).pType ≠ typeDnsResponse)
        ([put (.rawData k d)], s.ctl.setRecv k .reading)
    | _ => none
  | .answer =>
    match s.ctl.recv k with
    | .parsed d =>
      (s.bufs.content (.rawData k d)).bind fun raw =>
        guardTo (clearCompress (headerOf d).pType = typeDnsResponse)
          ([], { s.ctl.setRecv k (.answered d) with
            answered := s.ctl.answered ++ (dnsBuf E.cfg raw).toList })
    | _ => none
  | .putAnswer =>
    match s.ctl.recv k with
    | .answered d => some ([put (.rawData k d)], s.ctl.setRecv k .reading)
    | _ => none
  | .forget =>
    match s.ctl.recv k with
    | .parsed d =>
      guardTo (clearCompress (headerOf d).pType ∉ recvTypes)
        ([.drop (.rawData k d)], s.ctl.setRecv k .reading)
    | _ => none

/-- What `DecryptParse` does next. -/
inductive OpenAct where
  /-- With the key of the session. -/
  | decrypt (key : Key)
  | uncompressed
  | getInflate (pick : Option Nat)
  /-- `RawData` may be too small for the result. -/
  | inflate (junk : Bytes) (fits : Bool)
  | forward

/-- `DecryptParse`, up to `FromNet`. -/
def openPlan (k : Nat) : OpenAct → Option Plan
  | .decrypt key =>
    match s.ctl.recv k with
    | .parsed d =>
      (s.bufs.content (.rawData k d)).bind fun raw =>
        guardTo (clearCompress (headerOf d).pType = typeData)
          (match decrypt E key d raw with
          | some (b, n) =>
            ([.fill (.rawData k d) (.opened k d key n) b],
              s.ctl.setRecv k (.decrypted d key n))
          | none => ([put (.rawData k d)], s.ctl.setRecv k .reading))
    | _ => none
  | .uncompressed =>
    match s.ctl.recv k with
    | .decrypted d key n =>
      (s.bufs.content (.opened k d key n)).bind fun raw =>
        guardTo (compressed (headerOf d).pType = false)
          ([.pass (.opened k d key n) (.ready k) raw], s.ctl.setRecv k .ready)
    | _ => none
  | .getInflate pick =>
    match s.ctl.recv k with
    | .decrypted d key n =>
      guardTo (compressed (headerOf d).pType = true)
        ([get (.inflateBuf k) pick], s.ctl.setRecv k (.inflating d key n))
    | _ => none
  | .inflate junk fits =>
    match s.ctl.recv k with
    | .inflating d key n =>
      (s.bufs.content (.opened k d key n)).bind fun raw =>
        guardTo (compressed (headerOf d).pType = true)
          (match inflate E.lz4 n raw with
          | some u =>
            (.write (.inflateBuf k) junk ::
              (if fits then [.fill (.opened k d key n) (.ready k) u]
                else [.make (.ready k) u, put (.opened k d key n)]) ++ [put (.inflateBuf k)],
              s.ctl.setRecv k .ready)
          | none =>
            ([.write (.inflateBuf k) junk, put (.inflateBuf k), put (.opened k d key n)],
              s.ctl.setRecv k .reading))
    | _ => none
  | .forward =>
    guardTo (s.ctl.recv k = .ready)
      ([if (s.bufs.hold .fromNet).length < 64 then .move (.ready k) .fromNet 0
        else put (.ready k)], s.ctl.setRecv k .reading)

/-- What a worker of `packetRecv` does next. -/
inductive RecvAct where
  | start
  | read (d : Bytes)
  | parse (a : ParseAct)
  | openRaw (a : OpenAct)
  /-- The session ends, at the loop's head or while the packet waits for `FromNet`. -/
  | stop
  | leave

/-- A worker of `packetRecv`. -/
def recvPlan (k : Nat) : RecvAct → Option Plan
  | .start =>
    guardTo (s.ctl.recv k = .stopped) ([.make (.buffer k) []], s.ctl.setRecv k .reading)
  | .stop =>
    guardTo (s.ctl.recv k = .reading) ([.drop (.buffer k)], s.ctl.setRecv k .stopped)
  | .leave =>
    guardTo (s.ctl.recv k = .ready)
      ([.drop (.ready k), .drop (.buffer k)], s.ctl.setRecv k .stopped)
  | .read d =>
    guardTo (s.ctl.recv k = .reading)
      ([.fill (.buffer k) (.datagram k) d],
        { s.ctl.setRecv k .received with received := s.ctl.received ++ [d] })
  | .parse a => parsePlan E s k a
  | .openRaw a => openPlan E s k a

/-- What the sessions and the other goroutines do with buffers. -/
inductive OtherAct where
  | borrow (j : Nat) (pick : Option Nat)
  | scribble (j : Nat) (b : Bytes)
  | giveBack (j : Nat)
  /-- `SendAllPendingData` passes a packet on. -/
  | flush (sid : Nat)
  /-- The queue of a session that nobody has any more. -/
  | abandon (sid : Nat)
  /-- `controlSend` has sent a query. -/
  | query
  /-- `controlRecv` starts, reads a frame, for which `readBuffer` may have to grow, and ends. -/
  | control
  | frame (b : Bytes) (grows : Bool)
  | controlDone
  /-- It begins a handshake with the packet in the frame. -/
  | echo (sid : Nat)
  /-- It has a command, and `addP2P` keeps the address in the frame. -/
  | command
  /-- `testBroadCast` starts, and sends its packet. -/
  | test
  | broadcast

/-- The others. -/
def otherPlan : OtherAct → Option Plan
  | .borrow j pick => guardTo (s.bufs.hold (.borrowed j) = []) ([get (.borrowed j) pick], s.ctl)
  | .scribble j b => some ([.write (.borrowed j) b], s.ctl)
  | .giveBack j => some ([put (.borrowed j)], s.ctl)
  | .flush sid =>
    guardTo ((s.bufs.hold .fromTun).length < 256)
      ([.move (.pendingChan sid) .fromTun 0], s.ctl)
  | .abandon sid => some ([.drop (.pendingChan sid)], s.ctl)
  | .query => some ([.drop .controlSendChan], s.ctl)
  | .control => guardTo (s.bufs.hold .readBuffer = []) ([.make .readBuffer []], s.ctl)
  | .frame b grows =>
    some (if grows then [.drop .readBuffer, .make .readBuffer b] else [.write .readBuffer b], s.ctl)
  | .controlDone => some ([.drop .readBuffer], s.ctl)
  | .echo sid => some ([.share .readBuffer (.pendingChan sid)], s.ctl)
  | .command =>
    (s.bufs.hold .readBuffer).head?.map fun id => ([], { s.ctl with views := s.ctl.views ++ [id] })
  | .test => guardTo (s.bufs.hold .bch = []) ([.make .bch []], s.ctl)
  | .broadcast =>
    guardTo ((s.bufs.hold .fromTun).length < 256) ([.share .bch .fromTun], s.ctl)

/-- A step of one of the goroutines. -/
inductive Act where
  | tun (j : Nat) (a : TunAct)
  | send (k : Nat) (a : SendAct)
  | recv (k : Nat) (a : RecvAct)
  | other (a : OtherAct)

/-- What a step does to the goroutines, and its operations on the buffers. -/
def plan : Act → Option Plan
  | .tun j a => tunPlan s j a
  | .send k a => sendPlan E s k a
  | .recv k a => recvPlan E s k a
  | .other a => otherPlan s a

/-- One step of the client. -/
def step (a : Act) : Option State :=
  (plan E s a).bind fun p => (s.bufs.execs p.1).map fun bufs => ⟨bufs, p.2⟩

end Plans

/-- The client, with an empty pool. -/
def machine (E : Env) : Machine State Act := { init := start, step := step E }

/-- **None of the three**: no name is asked for, no first packet comes back with its key, and the
test does not send. -/
def Clean : Act → Bool
  | .send _ (.route (.dns _)) | .other (.echo _) | .other .broadcast => false
  | _ => true

end EasyTun.Transport.ClientBuffers
