import EasyTun.Lib.Machine
import EasyTun.Transport.Router
import EasyTun.Util.Format

/-!
# The control plane of the server (`server_hub.go`, `server_ws.go`, `server_dns.go`)

The `Hub` hands out virtual addresses and host names to the clients that connect
by WebSocket, routes to them, and keeps both for a while when a client
disconnects. Three kinds of goroutines work on it, any number of each but the
last:

- `serverWS` of a connection: it waits until the connection's context is
  cancelled, stores the client in `retentionMap`, and removes its route (`Serve`);
- `readPump` of a connection, as it runs `handleHandshake` (`Pump`);
- `cleanRetention`, which gives expired addresses back (`Sweeper`).

A step is what one of them does between two points where another can get in:
a section under a lock, a snapshot that is loaded or stored, or writes to the
client's own fields. `retentionMtx` is held through a whole sweep, while the
host names it removes become visible one by one.

A connection keeps its address in the field `virtualIp`, which the next
handshake on the same connection overwrites.
-/

namespace EasyTun.Transport

open EasyTun.Lib EasyTun.Util

/-! ## Data -/

abbrev ClientId := ByteArr 16

/-- `Client` (server.go:41–56), the fields a handshake sets. -/
structure Client where
  natType : UInt8
  virtualIp : IP
  hostname : Bytes
  noisePublicKey : ByteArr 32
  clientID : ClientId

/-- `newClient` (server_ws.go:24–34), without the address and channels of the
data plane. -/
def newClient (virtualIp : IP) : Client :=
  { natType := 0, virtualIp, hostname := [], noisePublicKey := .zero 32, clientID := .zero 16 }

/-- `offlineClient` (server.go:75–79). -/
structure OfflineClient where
  virtualIp : IP
  hostname : Bytes
  expiry : Int

/-- How a handshake fails. -/
inductive HandshakeError where
  | packetTooShort
  | noVirtualIp
  deriving DecidableEq

/-- Where `serverWS` of a connection is. -/
inductive Serve where
  /-- There is no such connection yet. -/
  | absent
  /-- It waits for the context. -/
  | running
  /-- It found an address in `virtualIp`, which it will store for later. -/
  | closing
  /-- The client is in `retentionMap`, and its route will be removed. -/
  | stored
  | closed
  deriving DecidableEq

/-- The connection is open until its client is put aside. -/
def Serve.isOpen : Serve → Bool
  | .running | .closing => true
  | .absent | .stored | .closed => false

/-- Where `readPump` of a connection is, and `handleHandshake` in it. -/
inductive Pump where
  /-- It waits for a message. -/
  | idle
  /-- Line 147: it has the snapshot of the host names. -/
  | loaded (payload : Bytes) (dnsMap : Map Bytes IP)
  /-- Line 150: it has set the client's key and identity. -/
  | identified (payload : Bytes) (dnsMap : Map Bytes IP)
  /-- Line 167: it has set the client's address and name. -/
  | assigned
  /-- Line 171: it has added the route. -/
  | routed
  /-- It has returned, because of an error of the handshake or for another
  reason. -/
  | exited (err : Option HandshakeError)

/-- No handshake is half-way. -/
def Pump.isQuiet : Pump → Bool
  | .idle | .exited _ => true
  | .loaded _ _ | .identified _ _ | .assigned | .routed => false

/-- A connection: its client, its two goroutines, whether its context is
cancelled, and whether a handshake was completed on it. -/
structure Conn where
  client : Client
  serve : Serve
  pump : Pump
  cancelled : Bool
  completed : Bool

namespace Conn

/-- A number that no connection has yet. -/
def absent : Conn :=
  { client := newClient none
    serve := .absent
    pump := .exited none
    cancelled := false
    completed := false }

/-- A new connection (server_ws.go:230–243). -/
def accepted : Conn := { absent with serve := .running, pump := .idle }

/-- `handleHandshake` returned an error (server_ws.go:114–119). -/
def fail (k : Conn) (err : HandshakeError) : Conn :=
  { k with pump := .exited (some err), cancelled := true }

/-- The beginning of `handleHandshake` (server_ws.go:135–147). -/
def load (k : Conn) (payload : Bytes) (dnsMap : Map Bytes IP) : Conn :=
  if payload.length < 49 then k.fail .packetTooShort
  else { k with pump := .loaded payload dnsMap }

/-- The fields set from the payload (server_ws.go:148–150). -/
def identify (k : Conn) (payload : Bytes) (dnsMap : Map Bytes IP) : Conn :=
  { k with
    client :=
      { k.client with
        natType := payload.getD 0 0
        noisePublicKey := .ofBytes 32 (payload.drop 1)
        clientID := .ofBytes 16 (payload.drop 33) }
    pump := .identified payload dnsMap }

/-- The fields set under the lock, and the test after it (server_ws.go:155–169). -/
def assign (k : Conn) (virtualIp : IP) (hostname : Bytes) : Conn :=
  let k' := { k with client := { k.client with virtualIp, hostname } }
  if virtualIp.isNone then k'.fail .noVirtualIp else { k' with pump := .assigned }

/-- The handshake succeeded; `readPump` goes on unless the context is cancelled
(server_ws.go:85). -/
def complete (k : Conn) : Conn :=
  { k with pump := if k.cancelled then .exited none else .idle, completed := true }

end Conn

/-- Where `cleanRetention` is. -/
inductive Sweeper where
  | idle
  /-- The ticker fired at this time. -/
  | woken (now : Int)
  /-- It holds `retentionMtx`, and these entries are still to be visited. -/
  | sweeping (now : Int) (ids : List ClientId)

/-- `retentionMtx` is not held by the sweeper. -/
def Sweeper.isOut : Sweeper → Bool
  | .idle | .woken _ => true
  | .sweeping _ _ => false

/-- `Hub` (server.go:82–112), its control plane. The connections so far have the
numbers below `next`. -/
structure Hub where
  conn : ConnId → Conn
  next : ConnId
  router : RouterSnapshot
  dnsMap : Map Bytes IP
  freeIps : List UInt8
  retentionMap : Map ClientId OfflineClient
  sweeper : Sweeper
  now : Int

namespace Hub

/-! ## Addresses and names -/

/-- `Subnet.IP` (server_hub.go:18–21). -/
def subnetIp : ByteArr 4 := .four 10 0 6 1

/-- The address with the host number `x` (server_hub.go:146–148). -/
def hostIp (x : UInt8) : ByteArr 4 :=
  ⟨subnetIp.1.set 3 x, by rw [List.length_set]; exact subnetIp.2⟩

/-- The host number of an address, `v[3]`. -/
def hostNumber (v : ByteArr 4) : UInt8 := v.1.getD 3 0

@[simp] theorem hostNumber_hostIp (x : UInt8) : hostNumber (hostIp x) = x := rfl

theorem hostIp_inj {x y : UInt8} (h : hostIp x = hostIp y) : x = y := by
  rw [← hostNumber_hostIp x, h, hostNumber_hostIp]

/-- The free stack of `NewHub`, its top at the end (server_hub.go:24–27). -/
def allIps : List UInt8 := (List.range' 2 253).reverse.map UInt8.ofNat

/-- `NewHub` (server_hub.go:17–58). -/
def newHub : Hub :=
  { conn := fun _ => .absent
    next := 0
    router := .empty
    dnsMap := ∅
    freeIps := allIps
    retentionMap := ∅
    sweeper := .idle
    now := 0 }

/-- `getIp` (server_hub.go:132–150). -/
def getIp (h : Hub) : IP × Hub :=
  (h.freeIps.getLast?.map hostIp, { h with freeIps := h.freeIps.dropLast })

/-- `releaseIp` (server_hub.go:153–164). -/
def releaseIp (h : Hub) (ip : IP) : Hub :=
  match ip with
  | none => h
  | some v4 => { h with freeIps := h.freeIps ++ [hostNumber v4] }

/-- `addDns` (server_dns.go:14–26). -/
def addDns (h : Hub) (hostname : Bytes) (ip : IP) : Hub :=
  { h with dnsMap := h.dnsMap.insert hostname ip }

/-- `removeDns` (server_dns.go:28–42). -/
def removeDns (h : Hub) (hostname : Bytes) : Hub :=
  { h with dnsMap := h.dnsMap.keepIf fun k _ => !(hostname == k) }

/-! ## The sections of the goroutines -/

def client (h : Hub) (c : ConnId) : Client := (h.conn c).client

def modify (h : Hub) (c : ConnId) (f : Conn → Conn) : Hub :=
  { h with conn := Function.update h.conn c (f (h.conn c)) }

/-- `readPump` ends, because it cannot read on or the context is cancelled
(server_ws.go:85–97). -/
def quit (h : Hub) (c : ConnId) : Hub :=
  h.modify c fun k => { k with pump := .exited none, cancelled := true }

/-- The section of `handleHandshake` under `retentionMtx` and the test after it
(server_ws.go:153–169). -/
def assign (h : Hub) (c : ConnId) (payload : Bytes) (dnsMap : Map Bytes IP) : Hub :=
  match h.retentionMap.lookup (h.conn c).client.clientID with
  | some oc =>
    -- a client that comes back gets the address and the name it had
    { h.modify c (·.assign oc.virtualIp oc.hostname) with
      retentionMap := h.retentionMap.erase (h.conn c).client.clientID }
  | none =>
    -- the name is unique in the table as it was loaded, before the lock
    h.getIp.2.modify c (·.assign h.getIp.1 (uniqueHostName (payload.drop 49) dnsMap))

/-- `addClient` (server_ws.go:171). -/
def addClient (h : Hub) (c : ConnId) : Hub :=
  { h.modify c (fun k => { k with pump := .routed }) with
    router := h.router.addClient (h.conn c).client.virtualIp c }

/-- The end of `handleHandshake` (server_ws.go:172–180), without the reply. -/
def finish (h : Hub) (c : ConnId) : Hub :=
  (h.addDns (h.conn c).client.hostname (h.conn c).client.virtualIp).modify c (·.complete)

/-- `serverWS` finds the context cancelled (server_ws.go:246–248, 261–263). -/
def disconnect (h : Hub) (c : ConnId) : Hub :=
  h.modify c fun k => { k with serve := if k.client.virtualIp.isSome then .closing else .closed }

/-- The section of `serverWS` under `retentionMtx` (server_ws.go:251–257). -/
def retain (retentionTime : Int) (h : Hub) (c : ConnId) : Hub :=
  { h.modify c (fun k => { k with serve := .stored }) with
    -- an entry of another connection with this id is overwritten
    retentionMap := h.retentionMap.insert (h.conn c).client.clientID
      { virtualIp := (h.conn c).client.virtualIp
        hostname := (h.conn c).client.hostname
        expiry := h.now + retentionTime } }

/-- `removeClient` (server_ws.go:260). The tunnels it removes as well are not
part of the control plane. -/
def removeClient (h : Hub) (c : ConnId) : Hub :=
  { h.modify c (fun k => { k with serve := .closed }) with
    -- the route of the address goes, whichever connection it leads to
    router := h.router.removeClient (h.conn c).client.virtualIp }

/-- `cleanRetention` visits one entry (server_hub.go:176–182). -/
def sweepEntry (h : Hub) (now : Int) (id : ClientId) : Hub :=
  match h.retentionMap.lookup id with
  | none => h
  | some oc =>
    if oc.expiry < now then
      { (h.releaseIp oc.virtualIp).removeDns oc.hostname with
        retentionMap := h.retentionMap.erase id }
    else h

/-! ## The machine -/

/-- The steps. -/
inductive Act where
  /-- A client connects. -/
  | accept
  /-- `writePump` cannot write a message and cancels the context (server_ws.go:52–57).
  Nothing but pongs, whose errors it ignores, is sent to a client without an
  address. -/
  | cancel (c : ConnId)
  | quit (c : ConnId)
  /-- `readPump` gets a `TypeHandshake` message with this payload. -/
  | load (c : ConnId) (payload : Bytes)
  | identify (c : ConnId)
  | assign (c : ConnId)
  | addClient (c : ConnId)
  | finish (c : ConnId)
  | disconnect (c : ConnId)
  | retain (c : ConnId)
  | removeClient (c : ConnId)
  /-- Time passes. -/
  | tick (d : Nat)
  /-- The ticker of `cleanRetention` fires. -/
  | wake
  /-- `cleanRetention` locks `retentionMtx`. -/
  | lock
  /-- The loop of `cleanRetention` visits an entry; their order is arbitrary. -/
  | sweep (id : ClientId)
  | unlock

/-- One step; `retentionTime` is `config.RetentionTime`. -/
def step (retentionTime : Int) (h : Hub) : Act → Option Hub
  | .accept => some { h.modify h.next (fun _ => .accepted) with next := h.next + 1 }
  | .cancel c =>
    guardTo ((h.conn c).client.virtualIp ≠ none) (h.modify c fun k => { k with cancelled := true })
  | .quit c =>
    match (h.conn c).pump with
    | .idle => some (h.quit c)
    | _ => none
  | .load c payload =>
    match (h.conn c).pump with
    | .idle => some (h.modify c (·.load payload h.dnsMap))
    | _ => none
  | .identify c =>
    match (h.conn c).pump with
    | .loaded payload dnsMap => some (h.modify c (·.identify payload dnsMap))
    | _ => none
  | .assign c =>
    match (h.conn c).pump with
    | .identified payload dnsMap => guardTo (h.sweeper.isOut = true) (h.assign c payload dnsMap)
    | _ => none
  | .addClient c =>
    match (h.conn c).pump with
    | .assigned => some (h.addClient c)
    | _ => none
  | .finish c =>
    match (h.conn c).pump with
    | .routed => some (h.finish c)
    | _ => none
  | .disconnect c =>
    guardTo ((h.conn c).serve = .running ∧ (h.conn c).cancelled = true) (h.disconnect c)
  | .retain c =>
    guardTo ((h.conn c).serve = .closing ∧ h.sweeper.isOut = true) (h.retain retentionTime c)
  | .removeClient c => guardTo ((h.conn c).serve = .stored) (h.removeClient c)
  | .tick d => some { h with now := h.now + d }
  | .wake =>
    match h.sweeper with
    | .idle => some { h with sweeper := .woken h.now }
    | _ => none
  | .lock =>
    match h.sweeper with
    | .woken now => some { h with sweeper := .sweeping now h.retentionMap.keys }
    | _ => none
  | .sweep id =>
    match h.sweeper with
    | .sweeping now ids =>
      guardTo (id ∈ ids) { h.sweepEntry now id with sweeper := .sweeping now (ids.erase id) }
    | _ => none
  | .unlock =>
    match h.sweeper with
    | .sweeping _ [] => some { h with sweeper := .idle }
    | _ => none

def machine (retentionTime : Int) : Machine Hub Act :=
  { init := newHub, step := step retentionTime }

/-! ## What a step does -/

/-- The steps with what they require and what they lead to. -/
inductive Does (retentionTime : Int) (h : Hub) : Act → Hub → Prop where
  | accept : Does retentionTime h .accept
      { h.modify h.next (fun _ => .accepted) with next := h.next + 1 }
  | cancel {c : ConnId} (hvip : (h.conn c).client.virtualIp ≠ none) :
      Does retentionTime h (.cancel c) (h.modify c fun k => { k with cancelled := true })
  | quit {c : ConnId} (hpump : (h.conn c).pump = .idle) :
      Does retentionTime h (.quit c) (h.quit c)
  | load {c : ConnId} (payload : Bytes) (hpump : (h.conn c).pump = .idle) :
      Does retentionTime h (.load c payload) (h.modify c (·.load payload h.dnsMap))
  | identify {c : ConnId} {payload : Bytes} {dnsMap : Map Bytes IP}
      (hpump : (h.conn c).pump = .loaded payload dnsMap) :
      Does retentionTime h (.identify c) (h.modify c (·.identify payload dnsMap))
  | assign {c : ConnId} {payload : Bytes} {dnsMap : Map Bytes IP}
      (hpump : (h.conn c).pump = .identified payload dnsMap) (hout : h.sweeper.isOut = true) :
      Does retentionTime h (.assign c) (h.assign c payload dnsMap)
  | addClient {c : ConnId} (hpump : (h.conn c).pump = .assigned) :
      Does retentionTime h (.addClient c) (h.addClient c)
  | finish {c : ConnId} (hpump : (h.conn c).pump = .routed) :
      Does retentionTime h (.finish c) (h.finish c)
  | disconnect {c : ConnId} (hserve : (h.conn c).serve = .running)
      (hcancelled : (h.conn c).cancelled = true) :
      Does retentionTime h (.disconnect c) (h.disconnect c)
  | retain {c : ConnId} (hserve : (h.conn c).serve = .closing) (hout : h.sweeper.isOut = true) :
      Does retentionTime h (.retain c) (h.retain retentionTime c)
  | removeClient {c : ConnId} (hserve : (h.conn c).serve = .stored) :
      Does retentionTime h (.removeClient c) (h.removeClient c)
  | tick (d : Nat) : Does retentionTime h (.tick d) { h with now := h.now + d }
  | wake (hidle : h.sweeper = .idle) :
      Does retentionTime h .wake { h with sweeper := .woken h.now }
  | lock {now : Int} (hwoken : h.sweeper = .woken now) :
      Does retentionTime h .lock { h with sweeper := .sweeping now h.retentionMap.keys }
  | sweep {now : Int} {ids : List ClientId} {id : ClientId}
      (hsweep : h.sweeper = .sweeping now ids) (hid : id ∈ ids) :
      Does retentionTime h (.sweep id)
        { h.sweepEntry now id with sweeper := .sweeping now (ids.erase id) }
  | unlock {now : Int} (hsweep : h.sweeper = .sweeping now []) :
      Does retentionTime h .unlock { h with sweeper := .idle }

/-- **Inversion**: every proof about the steps starts here. -/
theorem does_of_step {retentionTime : Int} {h h' : Hub} {a : Act}
    (hs : step retentionTime h a = some h') : Does retentionTime h a h' := by
  cases a with
  | accept =>
    cases hs
    exact .accept
  | cancel c =>
    obtain ⟨hvip, rfl⟩ := guardTo_eq_some.mp hs
    exact .cancel hvip
  | quit c =>
    simp only [step] at hs
    split at hs
    · next hpump =>
      cases hs
      exact .quit hpump
    · cases hs
  | load c payload =>
    simp only [step] at hs
    split at hs
    · next hpump =>
      cases hs
      exact .load payload hpump
    · cases hs
  | identify c =>
    simp only [step] at hs
    split at hs
    · next hpump =>
      cases hs
      exact .identify hpump
    · cases hs
  | assign c =>
    simp only [step] at hs
    split at hs
    · next hpump =>
      obtain ⟨hout, rfl⟩ := guardTo_eq_some.mp hs
      exact .assign hpump hout
    · cases hs
  | addClient c =>
    simp only [step] at hs
    split at hs
    · next hpump =>
      cases hs
      exact .addClient hpump
    · cases hs
  | finish c =>
    simp only [step] at hs
    split at hs
    · next hpump =>
      cases hs
      exact .finish hpump
    · cases hs
  | disconnect c =>
    obtain ⟨⟨hserve, hcancelled⟩, rfl⟩ := guardTo_eq_some.mp hs
    exact .disconnect hserve hcancelled
  | retain c =>
    obtain ⟨⟨hserve, hout⟩, rfl⟩ := guardTo_eq_some.mp hs
    exact .retain hserve hout
  | removeClient c =>
    obtain ⟨hserve, rfl⟩ := guardTo_eq_some.mp hs
    exact .removeClient hserve
  | tick d =>
    cases hs
    exact .tick d
  | wake =>
    simp only [step] at hs
    split at hs
    · next hidle =>
      cases hs
      exact .wake hidle
    · cases hs
  | lock =>
    simp only [step] at hs
    split at hs
    · next hwoken =>
      cases hs
      exact .lock hwoken
    · cases hs
  | sweep id =>
    simp only [step] at hs
    split at hs
    · next hsweep =>
      obtain ⟨hid, rfl⟩ := guardTo_eq_some.mp hs
      exact .sweep hsweep hid
    · cases hs
  | unlock =>
    simp only [step] at hs
    split at hs
    · next hsweep =>
      cases hs
      exact .unlock hsweep
    · cases hs

/-- The address the next handshake of a client assigns. -/
def offer (h : Hub) (c : ConnId) : IP :=
  match h.retentionMap.lookup (h.conn c).client.clientID with
  | some oc => oc.virtualIp
  | none => h.getIp.1

variable {h h' : Hub} {c : ConnId}

/-- A handshake changes its own connection, and no route. -/
theorem assign_frame (payload : Bytes) (dnsMap : Map Bytes IP) :
    (∃ hostname, (h.assign c payload dnsMap).conn =
      Function.update h.conn c ((h.conn c).assign (h.offer c) hostname)) ∧
    (h.assign c payload dnsMap).next = h.next ∧
    (h.assign c payload dnsMap).router = h.router := by
  unfold assign offer
  split
  · exact ⟨⟨_, rfl⟩, rfl, rfl⟩
  · exact ⟨⟨_, rfl⟩, rfl, rfl⟩

/-- A sweep changes no connection and no route. -/
theorem sweepEntry_frame (now : Int) (id : ClientId) :
    (h.sweepEntry now id).conn = h.conn ∧ (h.sweepEntry now id).next = h.next ∧
      (h.sweepEntry now id).router = h.router := by
  unfold sweepEntry
  split
  · exact ⟨rfl, rfl, rfl⟩
  · next oc _ =>
    split
    · cases oc.virtualIp with
      | none => exact ⟨rfl, rfl, rfl⟩
      | some v => exact ⟨rfl, rfl, rfl⟩
    · exact ⟨rfl, rfl, rfl⟩

/-- Only `addClient` and `removeClient` change a route. -/
theorem router_of_step {retentionTime : Int} {a : Act} (hs : step retentionTime h a = some h') :
    (∃ c, a = .addClient c ∧ h'.router = h.router.addClient (h.conn c).client.virtualIp c) ∨
    (∃ c, a = .removeClient c ∧ h'.router = h.router.removeClient (h.conn c).client.virtualIp) ∨
    ((∀ c, a ≠ .removeClient c) ∧ h'.router = h.router) := by
  cases does_of_step hs with
  | addClient hpump => exact Or.inl ⟨_, rfl, rfl⟩
  | removeClient hserve => exact Or.inr (Or.inl ⟨_, rfl, rfl⟩)
  | assign hpump hout => exact Or.inr (Or.inr ⟨nofun, (assign_frame _ _).2.2⟩)
  | sweep hsweep hid => exact Or.inr (Or.inr ⟨nofun, (sweepEntry_frame _ _).2.2⟩)
  | accept | cancel _ | quit _ | load _ _ | identify _ | finish _ | disconnect _ _ | retain _ _
  | tick _ | wake _ | lock _ | unlock _ => exact Or.inr (Or.inr ⟨nofun, rfl⟩)

/-! ## The numbers of the connections -/

/-- From `next` on there are no connections. -/
def Fresh (h : Hub) : Prop := ∀ c, h.next ≤ c → h.conn c = .absent

theorem Fresh.lt (hf : h.Fresh) (hc : h.conn c ≠ .absent) : c < h.next :=
  Nat.lt_of_not_le fun hle => hc (hf c hle)

/-- A change to a connection there is. -/
theorem Fresh.update (hf : h.Fresh) {k : Conn} (hconn : h'.conn = Function.update h.conn c k)
    (hnext : h'.next = h.next) (hc : h.conn c ≠ .absent) : h'.Fresh := by
  intro c' hc'
  rw [hnext] at hc'
  have hne : c' ≠ c := fun heq => absurd (heq ▸ hf.lt hc) (Nat.not_lt.mpr hc')
  rw [hconn, Function.update_of_ne hne]
  exact hf c' hc'

theorem conn_ne_absent_of_pump {p : Pump} (hpump : (h.conn c).pump = p) (hp : p ≠ .exited none) :
    h.conn c ≠ .absent := by
  intro heq
  rw [heq] at hpump
  exact hp hpump.symm

theorem conn_ne_absent_of_serve {p : Serve} (hserve : (h.conn c).serve = p) (hp : p ≠ .absent) :
    h.conn c ≠ .absent := by
  intro heq
  rw [heq] at hserve
  exact hp hserve.symm

theorem fresh_step {retentionTime : Int} {a : Act} (hf : h.Fresh)
    (hs : step retentionTime h a = some h') : h'.Fresh := by
  cases does_of_step hs with
  | accept =>
    intro c hc
    have hne : c ≠ h.next := fun heq => by
      subst heq
      exact Nat.not_succ_le_self _ hc
    exact (Function.update_of_ne hne ..).trans (hf c (Nat.le_of_succ_le hc))
  | cancel hvip =>
    refine hf.update rfl rfl fun heq => ?_
    rw [heq] at hvip
    exact hvip rfl
  | quit hpump => exact hf.update rfl rfl (conn_ne_absent_of_pump hpump nofun)
  | load _ hpump => exact hf.update rfl rfl (conn_ne_absent_of_pump hpump nofun)
  | identify hpump => exact hf.update rfl rfl (conn_ne_absent_of_pump hpump nofun)
  | assign hpump _ =>
    obtain ⟨⟨_, hconn⟩, hnext, -⟩ := assign_frame _ _
    exact hf.update hconn hnext (conn_ne_absent_of_pump hpump nofun)
  | addClient hpump => exact hf.update rfl rfl (conn_ne_absent_of_pump hpump nofun)
  | finish hpump => exact hf.update rfl rfl (conn_ne_absent_of_pump hpump nofun)
  | disconnect hserve _ => exact hf.update rfl rfl (conn_ne_absent_of_serve hserve nofun)
  | retain hserve _ => exact hf.update rfl rfl (conn_ne_absent_of_serve hserve nofun)
  | removeClient hserve => exact hf.update rfl rfl (conn_ne_absent_of_serve hserve nofun)
  | sweep _ _ =>
    obtain ⟨hconn, hnext, -⟩ := sweepEntry_frame _ _
    intro c hc
    rw [show _ = h.conn from hconn]
    exact hf c (hnext ▸ hc)
  | tick _ => exact hf
  | wake _ => exact hf
  | lock _ => exact hf
  | unlock _ => exact hf

/-- Connections do not go away. -/
theorem next_le_of_step {retentionTime : Int} {a : Act} (hs : step retentionTime h a = some h') :
    h.next ≤ h'.next := by
  cases does_of_step hs with
  | accept => exact Nat.le_succ _
  | assign _ _ => exact Nat.le_of_eq (assign_frame _ _).2.1.symm
  | sweep _ _ => exact Nat.le_of_eq (sweepEntry_frame _ _).2.1.symm
  | cancel _ | quit _ | load _ _ | identify _ | addClient _ | finish _ | disconnect _ _
  | retain _ _ | removeClient _ | tick _ | wake _ | lock _ | unlock _ => exact Nat.le_refl _

/-- A change to one connection that leaves its address as it is. -/
theorem virtualIp_update {c' : ConnId} {k : Conn} (hconn : h'.conn = Function.update h.conn c' k)
    (hk : k.client.virtualIp = (h.conn c').client.virtualIp) :
    (h'.client c).virtualIp = (h.client c).virtualIp := by
  show (h'.conn c).client.virtualIp = (h.conn c).client.virtualIp
  rw [hconn]
  by_cases hc : c = c'
  · subst hc
    rw [Function.update_self]
    exact hk
  · rw [Function.update_of_ne hc]

/-- **Only its own handshake changes the address of a connection.** -/
theorem virtualIp_of_step {retentionTime : Int} {a : Act} (hc : c < h.next) (ha : a ≠ .assign c)
    (hs : step retentionTime h a = some h') :
    (h'.client c).virtualIp = (h.client c).virtualIp := by
  cases does_of_step hs with
  | accept =>
    have hne : c ≠ h.next := Nat.ne_of_lt hc
    show (Function.update h.conn h.next .accepted c).client.virtualIp = _
    rw [Function.update_of_ne hne]
    rfl
  | @assign c' payload dnsMap _ _ =>
    have hne : c ≠ c' := fun heq => ha (heq ▸ rfl)
    obtain ⟨⟨_, hconn⟩, -, -⟩ := assign_frame (h := h) (c := c') payload dnsMap
    show ((h.assign c' payload dnsMap).conn c).client.virtualIp = _
    rw [hconn, Function.update_of_ne hne]
    rfl
  | sweep _ _ =>
    obtain ⟨hconn, -, -⟩ := sweepEntry_frame _ _
    exact congrArg (fun conn => (conn c).client.virtualIp) hconn
  | load payload hpump =>
    refine virtualIp_update rfl ?_
    unfold Conn.load
    split
    · rfl
    · rfl
  | cancel _ | quit _ | identify _ | addClient _ | finish _ | disconnect _ _ | retain _ _
  | removeClient _ => exact virtualIp_update rfl rfl
  | tick _ | wake _ | lock _ | unlock _ => rfl

theorem fresh {retentionTime : Int} (hr : (machine retentionTime).Reach h) : h.Fresh :=
  hr.invariant (fun _ _ => rfl) fun hf hs => fresh_step hf hs

end Hub

end EasyTun.Transport
