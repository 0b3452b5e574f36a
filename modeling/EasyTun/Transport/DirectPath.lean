import Mathlib.Tactic.Common
import EasyTun.Transport.ClientSend
import EasyTun.Transport.P2PRoutes

/-!
# Where a client sends directly (`client_udp.go`, `client_p2p.go`)

`packetSend` collects up to 32 packets, loads `p2pRouter` once, and sends each packet to
the address of the status it finds there, if the status is established, and otherwise to
the server. The server names the address of a peer in a command, so at first it is
hearsay. `packetRecv` replaces it by the source of every ping and pong that gives the
peer's virtual address, and only a pong makes the status established.

The routes are those of `EasyTun.Transport.P2PRoutes`. The steps of the workers come in
between: `Established` and the address are loaded one after the other, from a status that
may have left the table since the snapshot.

- `probe`: what `packetRecv` takes for a ping or a pong.
- `Settled`: the address of a status is one that the peer was heard from, and the peer has
  answered. **Once this holds of a status it stays**, since every later address is one that
  the peer was heard from as well.
- `direct_where_heard`: **a packet is sent directly only to an address from which a ping or
  a pong in the name of its destination has come, and only after a pong.**
-/

namespace EasyTun.Transport

open EasyTun.Lib EasyTun.Protocol EasyTun.Protocol.GamePacket
open EasyTun.Lib.NoiseIK

/-! ## Pings and pongs -/

/-- A datagram that goes to the ping branch or to the pong branch of `packetRecv`
(client_udp.go:136, 177, 191): whether it is a pong, and the source it gives. -/
def probe (d : Bytes) : Option (Bool × ByteArr 4) :=
  match parseHeader d (parseMode d false) with
  | .error _ => none
  | .ok hd =>
    if clearCompress hd.pType = typePing then some (false, hd.src)
    else if clearCompress hd.pType = typePong then some (true, hd.src)
    else none

/-- The ping, which `handleP2P` encodes once (client_p2p.go:19). -/
def pingData (localIp : ByteArr 4) : Bytes := clearWire localIp (.zero 4) typePing []

/-- The pong, which `packetRecv` encodes once (client_udp.go:116–118). -/
def pongBytes (localIp : ByteArr 4) : Bytes := clearWire localIp (.zero 4) typePong []

/-- They are what `EncodePacketWithBuffer` makes. -/
theorem encode_ping {K : Type} (A : Aead K) (localIp : ByteArr 4) (t : UInt8)
    (ht : clearCompress t = t) :
    ((newGamePacket localIp (.zero 4) t none).encodePacketWithBuffer A [] true none).wire =
      some (clearWire localIp (.zero 4) t []) := by
  have hwire := encode_clear A (newGamePacket localIp (.zero 4) t none) true (Nat.zero_le _)
  rw [encodePacketWithBuffer, hwire]
  show some (clearWire localIp (.zero 4) (clearCompress t) []) = _
  rw [ht]

theorem probe_clearWire (src dst : ByteArr 4) {t : UInt8} (ht : compressed t = false) :
    probe (clearWire src dst t []) =
      if clearCompress t = typePing then some (false, src)
      else if clearCompress t = typePong then some (true, src) else none := by
  have hempty : ([] : Bytes).length ≤ maxPayloadSize := Nat.zero_le _
  rw [probe, parseHeader_lenient (parseHeader_clear src dst t ht hempty)]

theorem probe_pingData (localIp : ByteArr 4) : probe (pingData localIp) = some (false, localIp) :=
  probe_clearWire localIp (.zero 4) rfl

theorem probe_pongBytes (localIp : ByteArr 4) : probe (pongBytes localIp) = some (true, localIp) :=
  probe_clearWire localIp (.zero 4) rfl

/-- The type byte decides. -/
theorem probe_eq_none {d : Bytes} (hping : clearCompress (d.getD 2 0) ≠ typePing)
    (hpong : clearCompress (d.getD 2 0) ≠ typePong) : probe d = none := by
  unfold probe
  cases hok : parseHeader d (parseMode d false) with
  | error e => rfl
  | ok hd =>
    obtain ⟨-, -, rfl⟩ := parseHeader_ok hok
    show (if _ then _ else if _ then _ else _) = _
    rw [if_neg hping, if_neg hpong]

/-- **The session manager does not see pings and pongs**: `packetRecv` hands them to their
own branches, with the source they give. -/
theorem packetRecv_probe (N : Ops Bytes) (A : Aead Key) (L : Lz4) (m : NoiseManager) (pool : Pool)
    (localIp : ByteArr 4) (eph : Nat) (now : Int) (room : Bool) {d : Bytes} {pong : Bool}
    {src : ByteArr 4} (h : probe d = some (pong, src)) :
    ∃ gp pool', packetRecv N A L m pool localIp d eph now room = (m, pool', .control gp) ∧
      gp.src = src := by
  unfold probe at h
  cases hok : parseHeader d (parseMode d false) with
  | error e => simp [hok] at h
  | ok hd =>
    rw [hok] at h
    obtain ⟨raw, pool', hparse, -⟩ := parsePacket_of_header A .empty pool hok
    have hcases : (clearCompress hd.pType = typePing ∨ clearCompress hd.pType = typePong) ∧
        hd.src = src := by
      by_cases hping : clearCompress hd.pType = typePing
      · simp only [hping, if_true, Option.some.injEq, Prod.mk.injEq] at h
        exact ⟨.inl hping, h.2⟩
      · by_cases hpong : clearCompress hd.pType = typePong
        · simp only [hpong, if_true, if_neg (show typePong ≠ typePing by decide),
            Option.some.injEq, Prod.mk.injEq] at h
          exact ⟨.inr hpong, h.2⟩
        · simp [hping, hpong] at h
    refine ⟨_, pool', packetRecv_control hparse ?_, hcases.2⟩
    show clearCompress hd.pType ≠ typeData
    obtain hping | hpong := hcases.1
    · rw [hping]
      decide
    · rw [hpong]
      decide

/-! ### What `packetSend` writes -/

/-- The type byte of what `EncodePacket` returns. -/
theorem getD_two_encodePacket {K : Type} {A : Aead K} {L : Lz4} {g : GamePacket} {pool : Pool}
    {control compress : Bool} {cipher : Option (CipherState K)} {data : Bytes}
    (hflag : clearCompress g.pType = g.pType)
    (h : (g.encodePacket A L pool control compress cipher).1.wire = some data) :
    data.getD 2 0 = (g.staged L pool compress).pType := by
  have hwire := encodePacket_wire A L g pool control compress cipher hflag
    (le_maxPayloadSize_of_wire h)
  rw [hwire] at h
  obtain rfl := Option.some.inj h
  rw [encodeAt_eq]
  exact getD_two_wireAd ..

/-- A data packet is no ping and no pong, however it was encoded. -/
theorem probe_dataPacket {K : Type} (cfg : ClientConfig) (A : Aead K) (L : Lz4) (p : Bytes)
    (pool : Pool) (compress : Bool) (cipher : Option (CipherState K)) :
    probe (((PacketSend.dataPacket cfg p).encodePacket A L pool false compress cipher).1.wire.getD
      []) = none := by
  cases hwire : ((PacketSend.dataPacket cfg p).encodePacket A L pool false compress cipher).1.wire
    with
  | none => rfl
  | some data =>
    have htype : clearCompress (data.getD 2 0) = typeData := by
      rw [getD_two_encodePacket (clearCompress_clearCompress _) hwire]
      exact staged_data_type L .empty cfg.localIp (dstIp p) (some p) pool compress
    refine probe_eq_none ?_ ?_
    · rw [Option.getD_some, htype]
      decide
    · rw [Option.getD_some, htype]
      decide

/-- Nor is a DNS query. -/
theorem probe_dnsPacket {K : Type} (cfg : ClientConfig) (A : Aead K) (L : Lz4) (p : Bytes)
    (pool : Pool) :
    probe (((PacketSend.dnsPacket cfg p).encodePacket A L pool false false
      (none : Option (CipherState K))).1.wire.getD []) = none := by
  cases hwire : ((PacketSend.dnsPacket cfg p).encodePacket A L pool false false
      (none : Option (CipherState K))).1.wire with
  | none => rfl
  | some data =>
    have htype : data.getD 2 0 = typeDnsRequest :=
      getD_two_encodePacket (clearCompress_clearCompress _) hwire
    refine probe_eq_none ?_ ?_
    · rw [Option.getD_some, htype]
      decide
    · rw [Option.getD_some, htype]
      decide

namespace DirectPath

open P2PRoutes EasyTun.Stun

/-! ## The client -/

/-- What `packetSend` encodes for a packet to the destination `dst` (client_udp.go:57–86): a
query to the resolver, or the packet, sealed or in clear. -/
inductive Encodes (dst : ByteArr 4) : Bytes → Prop where
  | dns (cfg : ClientConfig) (A : Aead Key) (L : Lz4) {p : Bytes} (pool : Pool)
      (hdst : Transport.dstIp p = dst) :
      Encodes dst (((PacketSend.dnsPacket cfg p).encodePacket A L pool false false
        none).1.wire.getD [])
  | data (cfg : ClientConfig) (A : Aead Key) (L : Lz4) {p : Bytes} (pool : Pool) (compress : Bool)
      (cipher : Option (CipherState Key)) (hdst : Transport.dstIp p = dst) :
      Encodes dst (((PacketSend.dataPacket cfg p).encodePacket A L pool false compress
        cipher).1.wire.getD [])

/-- Whatever it is, it is no ping and no pong. -/
theorem Encodes.plain {dst : ByteArr 4} {data : Bytes} (h : Encodes dst data) :
    probe data = none := by
  cases h with
  | dns cfg A L pool hdst => exact probe_dnsPacket cfg A L _ pool
  | data cfg A L pool compress cipher hdst => exact probe_dataPacket cfg A L _ pool compress cipher

/-- What `packetSend` has encoded for a packet. -/
structure Outgoing where
  dstIp : ByteArr 4
  data : Bytes
  encoded : Encodes dstIp data

/-- The address that `packetSend` writes to (client_udp.go:87–95). -/
inductive Target where
  | server
  | direct (addr : Addr)
  deriving DecidableEq

/-- A datagram of `packetSend` that was written. -/
structure Sent extends Outgoing where
  target : Target

/-- Where a worker of `packetSend` is (client_udp.go:28–91). -/
inductive Sender where
  | select
  /-- It takes the next packet of its batch. -/
  | next (snapshot : Map (ByteArr 4) Id) (rest : List Outgoing)
  /-- There is a status for the packet, and `Established` is loaded next. -/
  | check (snapshot : Map (ByteArr 4) Id) (o : Outgoing) (status : Id) (rest : List Outgoing)
  /-- It was true, and `GetDstAddr` is next. -/
  | address (snapshot : Map (ByteArr 4) Id) (o : Outgoing) (status : Id) (rest : List Outgoing)

/-- A ping or a pong that arrived. -/
structure Heard where
  vIp : ByteArr 4
  addr : Addr
  pong : Bool
  deriving DecidableEq

/-- The client. `made` are the peers that the statuses were made for, each at the pointer of
its status, `heard` the pings and pongs so far, and `pongs` where pongs were sent. -/
structure Node where
  routes : Client
  made : List (ByteArr 4)
  senders : Nat → Sender
  sent : List Sent
  heard : List Heard
  pongs : List Addr

/-- A client without direct paths. -/
def start : Node :=
  { routes := P2PRoutes.start, made := [], senders := fun _ => .select, sent := [], heard := []
    pongs := [] }

/-- A step of the routes may make a status. -/
def newStatus : P2PRoutes.Act → List (ByteArr 4)
  | .addP2P vIp _ _ => [vIp]
  | _ => []

/-- The ping and the pong branch of `packetRecv` (client_udp.go:177–209). The pong goes out
behind `SetDstAddr`; here it may be under way earlier. -/
def datagram (n : Node) (addr : Addr) (d : Bytes) : Node :=
  match probe d with
  | none => n
  | some (pong, srcVIp) =>
    { n with
      routes := receive n.routes pong srcVIp addr
      heard := n.heard ++ [⟨srcVIp, addr, pong⟩]
      pongs := if pong then n.pongs else n.pongs ++ [addr] }

/-- A worker of `packetSend` goes on. -/
def setSender (n : Node) (k : Nat) (w : Sender) : Node :=
  { n with senders := Function.update n.senders k w }

/-- `WriteToUDP` of a worker, which then goes on with its batch. -/
def write (n : Node) (k : Nat) (snapshot : Map (ByteArr 4) Id) (o : Outgoing) (target : Target)
    (rest : List Outgoing) : Node :=
  { setSender n k (.next snapshot rest) with sent := n.sent ++ [{ o with target }] }

/-- What the routes, the network and the workers of `packetSend` do. -/
inductive Act where
  /-- Time passes, `controlRecv` gets a command, `packetRecv` goes on with a ping or a pong,
  or `handleP2P` makes a step. -/
  | routes (a : P2PRoutes.Act)
  /-- A datagram arrives. -/
  | datagram (addr : Addr) (d : Bytes)
  /-- A worker has collected packets, and loads the table. -/
  | batch (k : Nat) (os : List Outgoing)
  | next (k : Nat)
  | load (k : Nat)
  | write (k : Nat)

/-- `receive` is what a datagram does, and no step of its own. -/
def isReceive : P2PRoutes.Act → Bool
  | .receive .. => true
  | _ => false

/-- One step of one of them. -/
def step (n : Node) : Act → Option Node
  | .routes a =>
    if isReceive a then none
    else (P2PRoutes.step n.routes a).map fun r =>
      { n with routes := r, made := n.made ++ newStatus a }
  | .datagram addr d => some (datagram n addr d)
  | .batch k os =>
    match n.senders k with
    | .select =>
      guardTo (0 < os.length ∧ os.length ≤ 32) (setSender n k (.next n.routes.p2pRouter os))
    | _ => none
  | .next k =>
    match n.senders k with
    | .next _ [] => some (setSender n k .select)
    | .next snapshot (o :: rest) =>
      match snapshot.lookup o.dstIp with
      | none => some (write n k snapshot o .server rest)
      | some status => some (setSender n k (.check snapshot o status rest))
    | _ => none
  | .load k =>
    match n.senders k with
    | .check snapshot o status rest =>
      n.routes.objects[status]?.map fun st =>
        if st.established then setSender n k (.address snapshot o status rest)
        else write n k snapshot o .server rest
    | _ => none
  | .write k =>
    match n.senders k with
    | .address snapshot o status rest =>
      n.routes.objects[status]?.map fun st => write n k snapshot o (.direct st.dstAddr) rest
    | _ => none

/-- A client from its start. -/
def machine : Machine Node Act := { init := start, step }

/-! ## What a step does -/

/-- **The steps**, by what they do to the routes and to the workers. -/
inductive Does (n : Node) : Act → Node → Prop where
  | routes {a : P2PRoutes.Act} {r : Client} (ha : isReceive a = false)
      (hs : P2PRoutes.step n.routes a = some r) :
      Does n (.routes a) { n with routes := r, made := n.made ++ newStatus a }
  | ignored {addr : Addr} {d : Bytes} (hd : probe d = none) : Does n (.datagram addr d) n
  | heard {addr : Addr} {d : Bytes} {pong : Bool} {srcVIp : ByteArr 4}
      (hd : probe d = some (pong, srcVIp)) :
      Does n (.datagram addr d)
        { n with
          routes := receive n.routes pong srcVIp addr
          heard := n.heard ++ [⟨srcVIp, addr, pong⟩]
          pongs := if pong then n.pongs else n.pongs ++ [addr] }
  | batch {k : Nat} {os : List Outgoing} :
      Does n (.batch k os) (setSender n k (.next n.routes.p2pRouter os))
  | done {k : Nat} {snapshot : Map (ByteArr 4) Id} (hw : n.senders k = .next snapshot []) :
      Does n (.next k) (setSender n k .select)
  | unrouted {k : Nat} {snapshot : Map (ByteArr 4) Id} {o : Outgoing} {rest : List Outgoing}
      (hw : n.senders k = .next snapshot (o :: rest)) :
      Does n (.next k) (write n k snapshot o .server rest)
  | routed {k : Nat} {snapshot : Map (ByteArr 4) Id} {o : Outgoing} {rest : List Outgoing}
      {status : Id} (hw : n.senders k = .next snapshot (o :: rest))
      (hlook : snapshot.lookup o.dstIp = some status) :
      Does n (.next k) (setSender n k (.check snapshot o status rest))
  | established {k : Nat} {snapshot : Map (ByteArr 4) Id} {o : Outgoing} {rest : List Outgoing}
      {status : Id} {st : P2PStatus Addr} (hw : n.senders k = .check snapshot o status rest)
      (hst : n.routes.objects[status]? = some st) (hest : st.established = true) :
      Does n (.load k) (setSender n k (.address snapshot o status rest))
  | relayed {k : Nat} {snapshot : Map (ByteArr 4) Id} {o : Outgoing} {rest : List Outgoing}
      {status : Id} (hw : n.senders k = .check snapshot o status rest) :
      Does n (.load k) (write n k snapshot o .server rest)
  | direct {k : Nat} {snapshot : Map (ByteArr 4) Id} {o : Outgoing} {rest : List Outgoing}
      {status : Id} {st : P2PStatus Addr} (hw : n.senders k = .address snapshot o status rest)
      (hst : n.routes.objects[status]? = some st) :
      Does n (.write k) (write n k snapshot o (.direct st.dstAddr) rest)

variable {n n' : Node}

/-- **Inversion.** -/
theorem does_of_step {a : Act} (hs : step n a = some n') : Does n a n' := by
  cases a with
  | routes a =>
    simp only [step] at hs
    split at hs
    · cases hs
    · next ha =>
      obtain ⟨r, hr, rfl⟩ := Option.map_eq_some_iff.mp hs
      exact .routes (Bool.eq_false_iff.mpr ha) hr
  | datagram addr d =>
    obtain rfl := Option.some.inj hs
    unfold datagram
    split
    · next hd => exact .ignored hd
    · next hd => exact .heard hd
  | batch k os =>
    simp only [step] at hs
    split at hs
    · obtain ⟨-, rfl⟩ := guardTo_eq_some.mp hs
      exact .batch
    · cases hs
  | next k =>
    simp only [step] at hs
    split at hs
    · next hw =>
      obtain rfl := Option.some.inj hs
      exact .done hw
    · next hw =>
      split at hs
      · obtain rfl := Option.some.inj hs
        exact .unrouted hw
      · next hlook =>
        obtain rfl := Option.some.inj hs
        exact .routed hw hlook
    · cases hs
  | load k =>
    simp only [step] at hs
    split at hs
    · next hw =>
      obtain ⟨st, hst, rfl⟩ := Option.map_eq_some_iff.mp hs
      split
      · next hest => exact .established hw hst hest
      · exact .relayed hw
    · cases hs
  | write k =>
    simp only [step] at hs
    split at hs
    · next hw =>
      obtain ⟨st, hst, rfl⟩ := Option.map_eq_some_iff.mp hs
      exact .direct hw hst
    · cases hs

/-! ## What is known of a status -/

/-- A ping or a pong in the name of `v` has come from `addr`. -/
def Node.HeardAt (n : Node) (v : ByteArr 4) (addr : Addr) : Prop :=
  ∃ pong, (⟨v, addr, pong⟩ : Heard) ∈ n.heard

/-- A pong in the name of `v` has come. -/
def Node.Ponged (n : Node) (v : ByteArr 4) : Prop := ∃ addr, (⟨v, addr, true⟩ : Heard) ∈ n.heard

/-- **The peer has answered, and the address of the status is one it was heard from.** -/
def Node.Settled (n : Node) (status : Id) : Prop :=
  ∃ v st, n.made[status]? = some v ∧ n.routes.objects[status]? = some st ∧
    n.HeardAt v st.dstAddr ∧ n.Ponged v

/-- What holds of the task of a `packetRecv` worker. -/
def TaskOk (n : Node) : Task → Prop
  | .setDstAddr v status addr pong =>
    n.made[status]? = some v ∧ (⟨v, addr, pong⟩ : Heard) ∈ n.heard
  | .timeNow _ status | .storeLastSeen _ status _ | .storeEstablished _ status => n.Settled status

/-- A table leads to statuses that were made for the addresses it has them under. -/
def TableOk (n : Node) (table : Map (ByteArr 4) Id) : Prop :=
  ∀ v status, table.lookup v = some status → n.made[status]? = some v

/-- What holds of a `packetSend` worker. -/
def SenderOk (n : Node) : Sender → Prop
  | .select => True
  | .next snapshot _ => TableOk n snapshot
  | .check snapshot o status _ => TableOk n snapshot ∧ n.made[status]? = some o.dstIp
  | .address snapshot o status _ =>
    TableOk n snapshot ∧ n.made[status]? = some o.dstIp ∧ n.Settled status

/-- What holds of a datagram that was written. -/
def SentOk (n : Node) (m : Sent) : Prop :=
  ∀ addr, m.target = .direct addr → n.HeardAt m.dstIp addr ∧ n.Ponged m.dstIp

/-- What holds in every state. -/
structure Inv (n : Node) : Prop where
  length : n.made.length = n.routes.objects.length
  router : TableOk n n.routes.p2pRouter
  tasks : ∀ task ∈ n.routes.tasks, TaskOk n task
  settled : ∀ status st, n.routes.objects[status]? = some st → st.established = true →
    n.Settled status
  senders : ∀ k, SenderOk n (n.senders k)
  sent : ∀ m ∈ n.sent, SentOk n m

/-- What no step takes back. -/
structure Grows (n n' : Node) : Prop where
  made : ∀ {status : Id} {v : ByteArr 4}, n.made[status]? = some v → n'.made[status]? = some v
  heard : n.heard ⊆ n'.heard
  settled : ∀ {status : Id}, n.Settled status → n'.Settled status

namespace Grows

theorem heardAt (h : Grows n n') {v : ByteArr 4} {addr : Addr} (hv : n.HeardAt v addr) :
    n'.HeardAt v addr := by
  obtain ⟨pong, hmem⟩ := hv
  exact ⟨pong, h.heard hmem⟩

theorem ponged (h : Grows n n') {v : ByteArr 4} (hv : n.Ponged v) : n'.Ponged v := by
  obtain ⟨addr, hmem⟩ := hv
  exact ⟨addr, h.heard hmem⟩

theorem tableOk (h : Grows n n') {table : Map (ByteArr 4) Id} (ht : TableOk n table) :
    TableOk n' table := fun v status hlook => h.made (ht v status hlook)

theorem taskOk (h : Grows n n') {task : Task} (ht : TaskOk n task) : TaskOk n' task := by
  cases task with
  | setDstAddr v status addr pong => exact ⟨h.made ht.1, h.heard ht.2⟩
  | timeNow v status => exact h.settled ht
  | storeLastSeen v status last => exact h.settled ht
  | storeEstablished v status => exact h.settled ht

theorem senderOk (h : Grows n n') {w : Sender} (hw : SenderOk n w) : SenderOk n' w := by
  cases w with
  | select => trivial
  | next snapshot rest => exact h.tableOk hw
  | check snapshot o status rest => exact ⟨h.tableOk hw.1, h.made hw.2⟩
  | address snapshot o status rest =>
    exact ⟨h.tableOk hw.1, h.made hw.2.1, h.settled hw.2.2⟩

theorem sentOk (h : Grows n n') {m : Sent} (hm : SentOk n m) : SentOk n' m := by
  intro addr htarget
  obtain ⟨hheard, hponged⟩ := hm addr htarget
  exact ⟨h.heardAt hheard, h.ponged hponged⟩

/-- The statuses, the peers they were made for and what was heard are as before. -/
theorem of_eq (hmade : n'.made = n.made) (hheard : n'.heard = n.heard)
    (hobjects : n'.routes.objects = n.routes.objects) : Grows n n' where
  made h := by rwa [hmade]
  heard := by rw [hheard]; exact List.Subset.refl _
  settled := by
    rintro status ⟨v, st, hv, hst, ⟨pong, hat⟩, addr, hponged⟩
    exact ⟨v, st, hmade ▸ hv, hobjects ▸ hst, ⟨pong, hheard ▸ hat⟩, addr, hheard ▸ hponged⟩

/-- A status is written to, and its address, if it was settled, is still one that the peer
was heard from. -/
theorem of_modify {status : Id} {f : P2PStatus Addr → P2PStatus Addr} (hmade : n'.made = n.made)
    (hheard : n'.heard = n.heard)
    (hobjects : n'.routes.objects = n.routes.objects.modify status f)
    (hf : ∀ v st, n.made[status]? = some v → n.HeardAt v st.dstAddr →
      n.HeardAt v (f st).dstAddr) : Grows n n' where
  made h := by rwa [hmade]
  heard := by rw [hheard]; exact List.Subset.refl _
  settled := by
    rintro id ⟨v, st, hv, hst, hat, addr, hponged⟩
    have hat' : ∀ {a : Addr}, n.HeardAt v a → n'.HeardAt v a := by
      rintro a ⟨pong, hmem⟩
      exact ⟨pong, hheard ▸ hmem⟩
    by_cases hid : status = id
    · subst hid
      refine ⟨v, f st, hmade ▸ hv, ?_, hat' (hf v st hv hat), addr, hheard ▸ hponged⟩
      rw [hobjects, List.getElem?_modify_eq, hst]
      rfl
    · refine ⟨v, st, hmade ▸ hv, ?_, hat' hat, addr, hheard ▸ hponged⟩
      rw [hobjects, List.getElem?_modify_ne _ _ hid, hst]

end Grows

/-- A change of the routes under which nothing is taken back. -/
theorem Inv.carry (h : Inv n) (hg : Grows n n')
    (hlength : n'.made.length = n'.routes.objects.length)
    (hrouter : TableOk n' n'.routes.p2pRouter)
    (htasks : ∀ task ∈ n'.routes.tasks, task ∈ n.routes.tasks ∨ TaskOk n' task)
    (hsettled : ∀ (status : Id) st, n'.routes.objects[status]? = some st →
      st.established = true → n'.Settled status)
    (hsenders : n'.senders = n.senders) (hsent : n'.sent = n.sent) : Inv n' where
  length := hlength
  router := hrouter
  tasks task htask := by
    obtain hold | hnew := htasks task htask
    · exact hg.taskOk (h.tasks task hold)
    · exact hnew
  settled := hsettled
  senders k := by
    rw [hsenders]
    exact hg.senderOk (h.senders k)
  sent m hm := by
    rw [hsent] at hm
    exact hg.sentOk (h.sent m hm)

/-! ## Steps of the routes -/

/-- The step makes a status or writes to one, or prepares that. -/
def touches : P2PRoutes.Act → Bool
  | .addP2P .. | .receive .. | .work .. => true
  | _ => false

/-- Time passes, or `handleP2P` makes a step. -/
theorem untouched_of_step {s t : Client} {a : P2PRoutes.Act} (ha : touches a = false)
    (hs : P2PRoutes.step s a = some t) :
    t.objects = s.objects ∧ t.tasks = s.tasks ∧
      ∀ v status, t.p2pRouter.lookup v = some status → s.p2pRouter.lookup v = some status := by
  cases a with
  | clock seconds =>
    obtain rfl := Option.some.inj hs
    exact ⟨rfl, rfl, fun _ _ h => h⟩
  | addP2P vIp addr natType => cases ha
  | receive pong srcVIp addr => cases ha
  | work k room => cases ha
  | tick =>
    obtain rfl := tick_eq hs
    exact ⟨rfl, rfl, fun _ _ h => h⟩
  | visit vIp =>
    obtain ⟨rest, status, st, -, -, -, rfl⟩ := visit_eq hs
    exact ⟨rfl, rfl, fun _ _ h => h⟩
  | body ok =>
    have hs : P2PRoutes.body s ok = some t := hs
    unfold P2PRoutes.body at hs
    split at hs
    · cases hs
    · cases hs
    · obtain rfl := Option.some.inj hs
      exact ⟨rfl, rfl, fun _ _ h => h⟩
    · next vIp status rest hp =>
      -- the only step of the walk that changes the table
      obtain rfl := Option.some.inj hs
      have hsame : (removeP2P s vIp ok).objects = s.objects ∧
          (removeP2P s vIp ok).tasks = s.tasks := by cases ok <;> exact ⟨rfl, rfl⟩
      exact ⟨hsame.1, hsame.2, fun _ _ h => (lookup_removeP2P.mp h).2⟩
    · obtain ⟨st, -, rfl⟩ := Option.map_eq_some_iff.mp hs
      exact ⟨rfl, rfl, fun _ _ h => h⟩
    · obtain ⟨st, -, rfl⟩ := Option.map_eq_some_iff.mp hs
      exact ⟨rfl, rfl, fun _ _ h => h⟩
    · obtain ⟨st, -, rfl⟩ := Option.map_eq_some_iff.mp hs
      unfold punch
      split
      · exact ⟨rfl, rfl, fun _ _ h => h⟩
      · split <;> exact ⟨rfl, rfl, fun _ _ h => h⟩
    · obtain rfl := Option.some.inj hs
      exact ⟨rfl, rfl, fun _ _ h => h⟩
  | finish =>
    obtain rfl := finish_eq hs
    exact ⟨rfl, rfl, fun _ _ h => h⟩

theorem Inv.untouched (h : Inv n) {a : P2PRoutes.Act} {r : Client} (ha : touches a = false)
    (hs : P2PRoutes.step n.routes a = some r) :
    Inv { n with routes := r, made := n.made ++ newStatus a } := by
  obtain ⟨hobjects, htasks, hrouter⟩ := untouched_of_step ha hs
  have hmade : n.made ++ newStatus a = n.made := by
    cases a with
    | addP2P vIp addr natType => cases ha
    | _ => exact List.append_nil _
  rw [hmade]
  have hg : Grows n { n with routes := r } := .of_eq rfl rfl hobjects
  refine h.carry hg (h.length.trans (congrArg List.length hobjects.symm)) ?_ ?_ ?_ rfl rfl
  · intro v status hlook
    exact h.router v status (hrouter v status hlook)
  · intro task htask
    exact .inl (htasks ▸ htask)
  · intro status st hst hest
    exact hg.settled (h.settled status st (hobjects ▸ hst) hest)

theorem Inv.addP2P (h : Inv n) (vIp : ByteArr 4) (addr : Addr) (natType : UInt8) :
    Inv { n with
      routes := P2PRoutes.addP2P n.routes vIp addr natType, made := n.made ++ [vIp] } := by
  have hmade : ∀ {status : Id} {v : ByteArr 4}, n.made[status]? = some v →
      (n.made ++ [vIp])[status]? = some v := by
    intro status v hv
    rw [List.getElem?_append_left (List.getElem?_eq_some_iff.mp hv).1, hv]
  have hg : Grows n { n with
      routes := P2PRoutes.addP2P n.routes vIp addr natType, made := n.made ++ [vIp] } := by
    refine ⟨hmade, List.Subset.refl _, ?_⟩
    rintro status ⟨v, st, hv, hst, hat, hponged⟩
    refine ⟨v, st, hmade hv, ?_, hat, hponged⟩
    show (n.routes.objects ++ [_])[status]? = some st
    rw [List.getElem?_append_left (List.getElem?_eq_some_iff.mp hst).1, hst]
  refine h.carry hg ?_ ?_ (fun task htask => .inl htask) ?_ rfl rfl
  · show (n.made ++ [vIp]).length = (n.routes.objects ++ [_]).length
    rw [List.length_append, List.length_append, h.length]
    rfl
  · intro v status hlook
    show (n.made ++ [vIp])[status]? = some v
    by_cases hv : v = vIp
    · -- the pointer to the status that was made
      subst hv
      rw [P2PRoutes.addP2P, AList.lookup_insert] at hlook
      rw [← Option.some.inj hlook, ← h.length, List.getElem?_concat_length]
    · rw [P2PRoutes.addP2P, AList.lookup_insert_ne hv] at hlook
      exact hmade (h.router v status hlook)
  · intro status st hst hest
    have hst : (n.routes.objects ++ [_])[status]? = some st := hst
    by_cases hlt : status < n.routes.objects.length
    · rw [List.getElem?_append_left hlt] at hst
      exact hg.settled (h.settled status st hst hest)
    · -- the new status is not established
      rw [List.getElem?_append_right (Nat.le_of_not_lt hlt)] at hst
      have hnew := List.mem_of_getElem? hst
      rw [List.mem_singleton] at hnew
      rw [hnew] at hest
      cases hest

/-! ### The workers of `packetRecv` -/

/-- The status that a task writes to. -/
def taskStatus : Task → Id
  | .setDstAddr _ status _ _ | .timeNow _ status | .storeLastSeen _ status _
  | .storeEstablished _ status => status

/-- What it writes. -/
def effect : Task → P2PStatus Addr → P2PStatus Addr
  | .setDstAddr _ _ addr _, st => { st with dstAddr := addr }
  | .timeNow _ _, st => st
  | .storeLastSeen _ _ t, st => { st with lastSeen := t }
  | .storeEstablished _ _, st => { st with established := true }

theorem perform_objects (s : Client) (room : Bool) (task : Task) :
    (perform s room task).1.objects = s.objects.modify (taskStatus task) (effect task) := by
  cases task with
  | timeNow v status => exact (List.modify_id status s.objects).symm
  | storeEstablished v status => cases room <;> rfl
  | _ => rfl

/-- Only a status that is settled becomes established. -/
theorem settled_of_effect (h : Inv n) {task : Task} (htask : TaskOk n task) {st : P2PStatus Addr}
    (hst : n.routes.objects[taskStatus task]? = some st)
    (hest : (effect task st).established = true) : n.Settled (taskStatus task) := by
  cases task with
  | setDstAddr v status addr pong => exact h.settled status st hst hest
  | timeNow v status => exact h.settled status st hst hest
  | storeLastSeen v status t => exact h.settled status st hst hest
  | storeEstablished v status => exact htask

/-- The next task of a worker is one for a status that is settled. -/
theorem settled_of_next (h : Inv n) {task next : Task} {room : Bool} (htask : TaskOk n task)
    (hg : Grows n n') (hmade : n'.made = n.made)
    (hobjects : n'.routes.objects = n.routes.objects.modify (taskStatus task) (effect task))
    (hnext : (perform n.routes room task).2 = some next) : TaskOk n' next := by
  cases task with
  | setDstAddr v status addr pong =>
    obtain ⟨hpong, rfl⟩ := guardTo_eq_some.mp hnext
    obtain rfl : pong = true := hpong
    obtain ⟨hv, hmem⟩ := htask
    have hlt : status < n.routes.objects.length := by
      rw [← h.length]
      exact (List.getElem?_eq_some_iff.mp hv).1
    obtain ⟨st, hst⟩ := exists_status hlt
    refine ⟨v, { st with dstAddr := addr }, hmade ▸ hv, ?_, ⟨true, hg.heard hmem⟩, addr,
      hg.heard hmem⟩
    rw [hobjects]
    show (n.routes.objects.modify status _)[status]? = _
    rw [List.getElem?_modify_eq, hst]
    rfl
  | timeNow v status =>
    obtain rfl := Option.some.inj hnext
    exact hg.settled htask
  | storeLastSeen v status t =>
    obtain rfl := Option.some.inj hnext
    exact hg.settled htask
  | storeEstablished v status => cases hnext

theorem Inv.work (h : Inv n) {k : Nat} {room : Bool} {r : Client}
    (hs : P2PRoutes.step n.routes (.work k room) = some r) : Inv { n with routes := r } := by
  obtain ⟨task, hk, rfl⟩ := Option.map_eq_some_iff.mp hs
  have htask : TaskOk n task := h.tasks task (List.mem_of_getElem? hk)
  have hobjects := perform_objects n.routes room task
  have hg : Grows n { n with
      routes := { (perform n.routes room task).1 with
        tasks := n.routes.tasks.eraseIdx k ++ (perform n.routes room task).2.toList } } := by
    refine .of_modify rfl rfl hobjects ?_
    intro v st hv hat
    cases task with
    | setDstAddr v' status addr pong =>
      obtain rfl : v' = v := Option.some.inj (htask.1.symm.trans hv)
      exact ⟨pong, htask.2⟩
    | _ => exact hat
  refine h.carry hg ?_ ?_ ?_ ?_ rfl rfl
  · show n.made.length = (perform n.routes room task).1.objects.length
    rw [hobjects, List.length_modify, h.length]
  · show TableOk n (perform n.routes room task).1.p2pRouter
    rw [router_perform]
    exact h.router
  · intro next hnext
    obtain hold | hnew := List.mem_append.mp hnext
    · exact .inl (List.mem_of_mem_eraseIdx hold)
    · exact .inr (settled_of_next h htask hg rfl hobjects (Option.mem_toList.mp hnew))
  · intro status st hst hest
    have hst : (perform n.routes room task).1.objects[status]? = some st := hst
    rw [hobjects] at hst
    by_cases hid : taskStatus task = status
    · subst hid
      rw [List.getElem?_modify_eq] at hst
      obtain ⟨st', hst', rfl⟩ := Option.map_eq_some_iff.mp hst
      exact hg.settled (settled_of_effect h htask hst' hest)
    · rw [List.getElem?_modify_ne _ _ hid] at hst
      exact hg.settled (h.settled status st hst hest)

/-- A ping or a pong arrives, and a worker has the status it looked up. -/
theorem Inv.heard (h : Inv n) (pong : Bool) (srcVIp : ByteArr 4) (addr : Addr)
    (pongs : List Addr) :
    Inv { n with
      routes := receive n.routes pong srcVIp addr
      heard := n.heard ++ [⟨srcVIp, addr, pong⟩]
      pongs := pongs } := by
  have hsame : (receive n.routes pong srcVIp addr).objects = n.routes.objects ∧
      (receive n.routes pong srcVIp addr).p2pRouter = n.routes.p2pRouter := by
    unfold receive
    split <;> exact ⟨rfl, rfl⟩
  have hsub : n.heard ⊆ n.heard ++ [⟨srcVIp, addr, pong⟩] := List.subset_append_left _ _
  have hg : Grows n { n with
      routes := receive n.routes pong srcVIp addr
      heard := n.heard ++ [⟨srcVIp, addr, pong⟩]
      pongs := pongs } := by
    refine ⟨fun hv => hv, hsub, ?_⟩
    rintro status ⟨v, st, hv, hst, ⟨b, hat⟩, a, hponged⟩
    exact ⟨v, st, hv, hsame.1 ▸ hst, ⟨b, hsub hat⟩, a, hsub hponged⟩
  refine h.carry hg ?_ ?_ ?_ ?_ rfl rfl
  · exact h.length.trans (congrArg List.length hsame.1.symm)
  · show TableOk n (receive n.routes pong srcVIp addr).p2pRouter
    rw [hsame.2]
    exact h.router
  · intro task htask
    have htask : task ∈ (receive n.routes pong srcVIp addr).tasks := htask
    unfold receive at htask
    split at htask
    · exact .inl htask
    · next status hlook =>
      obtain hold | hnew := List.mem_append.mp htask
      · exact .inl hold
      · rw [List.mem_singleton] at hnew
        subst hnew
        exact .inr ⟨h.router srcVIp status hlook,
          List.mem_append_right _ (List.mem_singleton_self _)⟩
  · intro status st hst hest
    exact hg.settled (h.settled status st (hsame.1 ▸ hst) hest)

/-! ## Steps of `packetSend` -/

theorem Inv.setSender (h : Inv n) (k : Nat) {w : Sender} (hw : SenderOk n w) :
    Inv (setSender n k w) where
  length := h.length
  router := h.router
  tasks := h.tasks
  settled := h.settled
  senders i := by
    show SenderOk n (Function.update n.senders k w i)
    by_cases hi : i = k
    · subst hi
      rwa [Function.update_self]
    · rw [Function.update_of_ne hi]
      exact h.senders i
  sent := h.sent

theorem Inv.write (h : Inv n) (k : Nat) {snapshot : Map (ByteArr 4) Id} {o : Outgoing}
    {target : Target} (rest : List Outgoing) (htable : TableOk n snapshot)
    (hsent : SentOk n { o with target }) : Inv (write n k snapshot o target rest) where
  length := h.length
  router := h.router
  tasks := h.tasks
  settled := h.settled
  senders := (h.setSender k (w := .next snapshot rest) htable).senders
  sent m hm := by
    obtain hold | hnew := List.mem_append.mp hm
    · exact h.sent m hold
    · rw [List.mem_singleton] at hnew
      subst hnew
      exact hsent

/-- What goes to the server needs nothing. -/
theorem sentOk_server (o : Outgoing) : SentOk n { o with target := .server } := by
  intro addr htarget
  cases htarget

/-- **What goes to the address of a status that is settled**, for a packet to the peer that
the status was made for. -/
theorem sentOk_direct {status : Id} {st : P2PStatus Addr} (o : Outgoing)
    (hv : n.made[status]? = some o.dstIp) (hst : n.routes.objects[status]? = some st)
    (hsettled : n.Settled status) : SentOk n { o with target := .direct st.dstAddr } := by
  intro addr htarget
  obtain ⟨v', st', hv', hst', hat, hponged⟩ := hsettled
  obtain rfl : v' = o.dstIp := Option.some.inj (hv'.symm.trans hv)
  obtain rfl : st' = st := Option.some.inj (hst'.symm.trans hst)
  obtain rfl : st'.dstAddr = addr := Target.direct.inj htarget
  exact ⟨hat, hponged⟩

/-- **A step keeps it all.** -/
theorem Inv.step {a : Act} (h : Inv n) (hs : DirectPath.step n a = some n') : Inv n' := by
  cases does_of_step hs with
  | @routes a r ha hr =>
    cases a with
    | addP2P vIp addr natType =>
      obtain rfl := Option.some.inj hr
      exact h.addP2P vIp addr natType
    | receive pong srcVIp addr => cases ha
    | work k room =>
      have hmade : n.made ++ newStatus (.work k room) = n.made := List.append_nil _
      rw [hmade]
      exact h.work hr
    | _ => exact h.untouched rfl hr
  | ignored => exact h
  | @heard addr d pong srcVIp hd => exact h.heard pong srcVIp addr _
  | @batch k os => exact h.setSender k h.router
  | @done k snapshot hw => exact h.setSender k trivial
  | @unrouted k snapshot o rest hw =>
    have hok := h.senders k
    rw [hw] at hok
    exact h.write k rest hok (sentOk_server o)
  | @routed k snapshot o rest status hw hlook =>
    have hok := h.senders k
    rw [hw] at hok
    exact h.setSender k ⟨hok, hok o.dstIp status hlook⟩
  | @established k snapshot o rest status st hw hst hest =>
    have hok := h.senders k
    rw [hw] at hok
    exact h.setSender k ⟨hok.1, hok.2, h.settled status st hst hest⟩
  | @relayed k snapshot o rest status hw =>
    have hok := h.senders k
    rw [hw] at hok
    exact h.write k rest hok.1 (sentOk_server o)
  | @direct k snapshot o rest status st hw hst =>
    have hok := h.senders k
    rw [hw] at hok
    exact h.write k rest hok.1 (sentOk_direct o hok.2.1 hst hok.2.2)

theorem inv_start : Inv start where
  length := rfl
  router _ _ h := nomatch h
  tasks _ h := nomatch h
  settled _ _ h := nomatch h
  senders _ := trivial
  sent _ h := nomatch h

theorem inv_of_reach (hr : machine.Reach n) : Inv n :=
  Machine.Reach.invariant hr inv_start fun h hs => h.step hs

/-- **A client sends directly only where it has heard the peer**, in every run: whatever the
server's commands say, whatever datagrams come in and whenever routes come and go, a packet
that is not sent to the server goes to an address from which a ping or a pong in the name of
the packet's destination has come, and a pong in that name has come. -/
theorem direct_where_heard (hr : machine.Reach n) {m : Sent} (hm : m ∈ n.sent) {addr : Addr}
    (htarget : m.target = .direct addr) :
    (∃ pong, (⟨m.dstIp, addr, pong⟩ : Heard) ∈ n.heard) ∧
      ∃ addr', (⟨m.dstIp, addr', true⟩ : Heard) ∈ n.heard :=
  (inv_of_reach hr).sent m hm addr htarget

section OnePeer

/-- An echo request to the peer at 10.0.6.3, sealed. -/
def caseOutgoing : Outgoing :=
  { dstIp := sampleIp 3
    data := ((PacketSend.dataPacket PacketSend.caseConfig PacketSend.casePing).encodePacket
      caseCipher Lz4.stored (.fresh 2048) false false
      (some ⟨⟨sampleTranscript, .cs1⟩, 0⟩)).1.wire.getD []
    encoded := .data _ _ _ _ _ _ (by decide) }

/-- The peer was announced at one address and answers from another. -/
theorem direct_where_heard_pong :
    ∃ n, machine.Reach n ∧ ∃ m ∈ n.sent, m.target = .direct caseAddr' ∧
      (∃ pong, (⟨m.dstIp, caseAddr', pong⟩ : Heard) ∈ n.heard) ∧
        ∃ addr', (⟨m.dstIp, addr', true⟩ : Heard) ∈ n.heard := by
  obtain ⟨n, hr, m, hm, htarget⟩ :
      ∃ n, machine.Reach n ∧ ∃ m ∈ n.sent, m.target = .direct caseAddr' :=
    Machine.exists_reach
      [.routes (.addP2P (sampleIp 3) caseAddr typeCone),
        .datagram caseAddr' (pongBytes (sampleIp 3)),
        .routes (.work 0 true), .routes (.work 0 true), .routes (.work 0 true),
        .routes (.work 0 true), .batch 0 [caseOutgoing], .next 0, .load 0, .write 0]
      (by decide)
  exact ⟨n, hr, m, hm, htarget, direct_where_heard hr hm htarget⟩

end OnePeer

end DirectPath

end EasyTun.Transport
