import EasyTun.Protocol.Received
import EasyTun.Protocol.Workers
import EasyTun.Transport.Routes

/-!
# Whose key a session is bound to

A client that gets the first message of a handshake learns two things: the source
address in the header of the datagram, and the initiator's static key, which Noise IK
authenticates. The session goes under the address. Which key belongs to the address
is known to a third machine, the server, where the client that holds the address has
registered its key, and nobody compares the two.

The model has any number of clients, the control plane of the server, and one client
that does not keep to the protocol. It has its own static key pair, and can register
any key, and send any datagram it can make. On the other clients any number of
`packetRecv` workers run `HandleNoisePacket` in three steps, as in
`EasyTun.Protocol.Workers`. Neither the relay nor `packetRecv` looks at where a datagram
comes from, so each one can reach every client, any number of times.

- `Hub.Keyed`: the control plane hands out **the key that a connection has
  registered**;
- `sessions_bound`: if first messages are sent only under an address that their
  sender holds, everybody registers the key they have, and no address changes hands
  while a first message is on its way from it, then **a session is bound to the key that
  is registered for its address**;
- `session_of_another`: a client sends a first message in the name of another one.
-/

namespace EasyTun.Transport

open EasyTun.Lib EasyTun.Util EasyTun.Protocol
open EasyTun.Lib.NoiseIK

/-! ## Authenticated keys -/

/-- The initiator's static key, which the handshake of a session has authenticated. -/
def initiatorKey (s : NoiseSession) : Option PublicKey :=
  s.recvKey.map (·.transcript.first.initiator)

/-- `handleResponderFirst` installs a ready session, with the key of the message it read. -/
theorem installed_of_handleResponderFirst {D : Type} {N : Ops D} {m m' : NoiseManager}
    {srcVip : ByteArr 4} {data : D} {eph : Nat} {now : Int} {sid : SessionId} {response : Option D}
    (h : m.handleResponderFirst N srcVip data eph now = (m', .ok (some sid, response))) :
    ∃ first, N.readFirst m.staticPub data = some first ∧ m'.getSession srcVip = some sid ∧
      (m'.heap sid).isReady = true ∧ initiatorKey (m'.heap sid) = some first.initiator := by
  unfold NoiseManager.handleResponderFirst at h
  split at h
  · cases h
  · next first hread =>
    cases h
    refine ⟨first, hread, NoiseManager.getSession_install .., ?_, ?_⟩
    · rw [NoiseManager.heap_sendAllPendingData, NoiseManager.heap_install]
      rfl
    · rw [NoiseManager.heap_sendAllPendingData, NoiseManager.heap_install]
      rfl

/-! ## Registered keys -/

/-- The key in the payload of a handshake (server_ws.go:149). -/
def keyOf (payload : Bytes) : PublicKey := .ofBytes 32 (payload.drop 1)

/-- The payload a client sends (`handshake`, client_control.go:45–47). -/
def handshakePayload (natType : UInt8) (pub : PublicKey) (clientID : ClientId)
    (deviceName : Bytes) : Bytes :=
  natType :: (pub.1 ++ (clientID.1 ++ deviceName))

@[simp] theorem keyOf_handshakePayload (natType : UInt8) (pub : PublicKey) (clientID : ClientId)
    (deviceName : Bytes) : keyOf (handshakePayload natType pub clientID deviceName) = pub :=
  ByteArr.ofBytes_append ..

/-- Before a handshake sets the key of its connection, and after its end. -/
def Pump.isApart : Pump → Bool
  | .idle | .loaded _ _ | .exited _ => true
  | .identified _ _ | .assigned | .routed => false

namespace Hub

/-- The key that `handleNoiseHandshake` hands out for an address (server_ws.go:184–192). -/
def noiseKey (h : Hub) (v : ByteArr 4) : Option PublicKey :=
  (h.router.clientMap.lookup v).map fun c => (h.client c).noisePublicKey

/-- **Every connection registers its key.** A connection without it has no route. -/
structure Keyed (key : ConnId → PublicKey) (h : Hub) : Prop where
  loaded : ∀ {c payload dnsMap}, (h.conn c).pump = .loaded payload dnsMap → keyOf payload = key c
  known : ∀ c, (h.client c).noisePublicKey = key c ∨
    ((h.conn c).pump.isApart = true ∧ ∀ v, h.router.clientMap.lookup v ≠ some c)

namespace Keyed

variable {key : ConnId → PublicKey} {h h' : Hub} {c : ConnId} {k : Conn}

theorem newHub : Hub.newHub.Keyed key where
  loaded h := by cases h
  known _ := Or.inr ⟨rfl, nofun⟩

theorem noiseKey_eq (hK : h.Keyed key) (v : ByteArr 4) :
    h.noiseKey v = (h.router.clientMap.lookup v).map key := by
  unfold noiseKey
  cases hc : h.router.clientMap.lookup v with
  | none => rfl
  | some c =>
    rcases hK.known c with hkey | ⟨-, hno⟩
    · exact congrArg some hkey
    · exact absurd hc (hno v)

/-- Neither a connection nor a route changes. -/
theorem congr (hK : h.Keyed key) (hconn : h'.conn = h.conn) (hrouter : h'.router = h.router) :
    h'.Keyed key where
  loaded hp := hK.loaded (hconn ▸ hp)
  known c := by
    unfold client
    rw [hconn, hrouter]
    exact hK.known c

/-- A step of the connection `c`, which gets no route it does not register its key for. -/
theorem update (hK : h.Keyed key) (hconn : h'.conn = Function.update h.conn c k)
    (hroute : ∀ {v c'}, c' ≠ c → h'.router.clientMap.lookup v = some c' →
      h.router.clientMap.lookup v = some c')
    (hloaded : ∀ {payload dnsMap}, k.pump = .loaded payload dnsMap → keyOf payload = key c)
    (hknown : k.client.noisePublicKey = key c ∨
      (k.pump.isApart = true ∧ ∀ v, h'.router.clientMap.lookup v ≠ some c)) : h'.Keyed key where
  loaded {c' payload dnsMap} hp := by
    rw [hconn] at hp
    by_cases hc : c' = c
    · subst hc
      rw [Function.update_self] at hp
      exact hloaded hp
    · rw [Function.update_of_ne hc] at hp
      exact hK.loaded hp
  known c' := by
    unfold client
    rw [hconn]
    by_cases hc : c' = c
    · subst hc
      rw [Function.update_self]
      exact hknown
    · rw [Function.update_of_ne hc]
      refine (hK.known c').imp_right fun ⟨hapart, hno⟩ => ⟨hapart, fun v hv => ?_⟩
      exact hno v (hroute hc hv)

/-- A step that leaves the key of its connection as it is. -/
theorem move (hK : h.Keyed key) (hconn : h'.conn = Function.update h.conn c k)
    (hroute : ∀ {v c'}, h'.router.clientMap.lookup v = some c' →
      h.router.clientMap.lookup v = some c')
    (hkey : k.client.noisePublicKey = (h.conn c).client.noisePublicKey)
    (hpump : (h.conn c).pump.isApart = true → k.pump.isApart = true)
    (hloaded : ∀ {payload dnsMap}, k.pump = .loaded payload dnsMap → keyOf payload = key c) :
    h'.Keyed key := by
  refine hK.update hconn (fun _ => hroute) hloaded ?_
  rw [hkey]
  exact (hK.known c).imp_right fun ⟨hapart, hno⟩ => ⟨hpump hapart, fun v hv => hno v (hroute hv)⟩

/-- A step that leaves the client and `readPump` of its connection as they are. -/
theorem stay (hK : h.Keyed key) (hconn : h'.conn = Function.update h.conn c k)
    (hroute : ∀ {v c'}, h'.router.clientMap.lookup v = some c' →
      h.router.clientMap.lookup v = some c')
    (hclient : k.client = (h.conn c).client) (hpump : k.pump = (h.conn c).pump) :
    h'.Keyed key :=
  hK.move hconn hroute (by rw [hclient]) (by rw [hpump]; exact id)
    fun hp => hK.loaded (hpump ▸ hp)

end Keyed

/-- A handshake presents the key of its connection. -/
def LoadOk (key : ConnId → PublicKey) : Act → Prop
  | .load c payload => keyOf payload = key c
  | _ => True

instance (key : ConnId → PublicKey) : (a : Act) → Decidable (LoadOk key a)
  | .load c payload => inferInstanceAs (Decidable (keyOf payload = key c))
  | .accept | .cancel _ | .quit _ | .identify _ | .assign _ | .addClient _ | .finish _
  | .disconnect _ | .retain _ | .removeClient _ | .tick _ | .wake | .lock | .sweep _ | .unlock =>
    inferInstanceAs (Decidable True)

theorem keyed_step {key : ConnId → PublicKey} {retentionTime : Int} {h h' : Hub} {a : Act}
    (hK : h.Keyed key) (hf : h.Fresh) (hok : LoadOk key a)
    (hs : step retentionTime h a = some h') : h'.Keyed key := by
  cases does_of_step hs with
  | accept =>
    have habsent : h.conn h.next = .absent := hf _ (Nat.le_refl _)
    exact hK.move rfl id (by rw [habsent]; rfl) (fun _ => rfl) nofun
  | cancel _ | disconnect _ _ | retain _ _ => exact hK.stay rfl id rfl rfl
  | quit _ => exact hK.move rfl id rfl (fun _ => rfl) nofun
  | @load c payload hpump =>
    have hload := Conn.load_frame (h.conn c) payload h.dnsMap
    refine hK.move (k := (h.conn c).load payload h.dnsMap) rfl id (by rw [hload.1]) (fun _ => ?_)
      fun {payload' dnsMap} hp => ?_
    · unfold Conn.load
      split
      · rfl
      · rfl
    · unfold Conn.load at hp
      split at hp
      · cases hp
      · cases hp
        exact hok
  | @identify c payload dnsMap hpump =>
    exact hK.update rfl (fun _ => id) nofun (Or.inl (hK.loaded hpump))
  | @assign c payload dnsMap hpump _ =>
    obtain ⟨⟨hostname, hconn⟩, -, hrouter⟩ := assign_frame (h := h) (c := c) payload dnsMap
    refine hK.move hconn (by rw [hrouter]; exact id) ?_ ?_ ?_
    · unfold Conn.assign
      simp only
      split
      · rfl
      · rfl
    · rw [hpump]
      exact nofun
    · intro payload' dnsMap' hp
      unfold Conn.assign at hp
      simp only at hp
      split at hp
      · cases hp
      · cases hp
  | @addClient c hpump =>
    refine hK.update rfl (fun {v c'} hne hv => ?_) nofun (Or.inl ?_)
    · have hv' := (h.router.lookup_addClient (h.conn c).client.virtualIp c v).symm.trans hv
      split at hv'
      · exact absurd (Option.some.inj hv').symm hne
      · exact hv'
    · -- it has set the key before it was given an address
      rcases hK.known c with hkey | ⟨hapart, -⟩
      · exact hkey
      · rw [hpump] at hapart
        cases hapart
  | @finish c hpump =>
    refine hK.move (k := (h.conn c).complete) rfl id rfl (by rw [hpump]; exact nofun) ?_
    intro payload dnsMap hp
    have hp' : (if (h.conn c).cancelled then Pump.exited none else .idle) =
      .loaded payload dnsMap := hp
    split at hp'
    · cases hp'
    · cases hp'
  | @removeClient c hserve =>
    refine hK.stay rfl (fun {v c'} hv => ?_) rfl rfl
    have hv' := (h.router.lookup_removeClient (h.conn c).client.virtualIp v).symm.trans hv
    split at hv'
    · cases hv'
    · exact hv'
  | sweep _ _ =>
    obtain ⟨hconn, -, hrouter⟩ := sweepEntry_frame _ _
    exact hK.congr hconn hrouter
  | tick _ | wake _ | lock _ | unlock _ => exact hK.congr rfl rfl

/-- The reply to the end of a handshake (server_ws.go:173–179). -/
def welcome (h : Hub) : Act → Option (ConnId × ByteArr 4)
  | .finish c => (h.client c).virtualIp.map fun v => (c, v)
  | _ => none

end Hub

/-! ## The model -/

/-- A datagram with a `TypeData` header. -/
structure Datagram where
  src : ByteArr 4
  dst : ByteArr 4
  data : Msg
  deriving DecidableEq

/-- The first message it holds. -/
def Datagram.first (d : Datagram) : Option First :=
  match d.data with
  | .first m => some m
  | .reply _ | .other _ => none

/-- What travels on the control connection `c`. -/
inductive Control where
  /-- `TypeHandshake` to the client: its address. -/
  | handshake (c : ConnId) (vip : ByteArr 4)
  /-- `TypeNoiseHandshake` from the client. -/
  | query (c : ConnId) (dst : ByteArr 4) (payload : Bytes)
  /-- `TypeNoiseResponse` to the client: the key of the address. -/
  | response (c : ConnId) (vip : ByteArr 4) (pub : PublicKey) (payload : Bytes)
  deriving DecidableEq

/-- Where a worker is in `HandleNoisePacket`. -/
inductive Receiver where
  | idle
  /-- It found an unready session and waits for the session's lock. -/
  | waiting (sid : SessionId) (d : Datagram)
  /-- It is on its way into `handleResponderFirst`, with the lock it holds. -/
  | responding (d : Datagram) (held : Option SessionId)
  deriving DecidableEq

/-- The datagram that a worker has. -/
def Receiver.datagram : Receiver → Option Datagram
  | .idle => none
  | .waiting _ d | .responding d _ => some d

/-- A client with `w` workers: its session manager, with the address in `localIp`, and its
control connection. -/
structure Peer (w : Nat) where
  mgr : NoiseManager
  controlConn : Option ConnId
  worker : Fin w → Receiver

/-- Who takes part: the static key of each client, which client opens which connection,
and the one that does not keep to the protocol. -/
structure Cast (n : Nat) where
  static : Fin n → PublicKey
  owner : ConnId → Fin n
  adversary : Fin n

namespace Cast

variable {n : Nat}

/-- The client that holds an address. -/
def holder (M : Cast n) (h : Hub) (v : ByteArr 4) : Option (Fin n) :=
  (h.router.clientMap.lookup v).map M.owner

/-- The key of the client that opened a connection. -/
def key (M : Cast n) (c : ConnId) : PublicKey := M.static (M.owner c)

end Cast

/-- The server, the clients, the control messages and datagrams on their way, every message
that was ever sent, and the next ephemeral key. -/
structure Overlay (n w : Nat) where
  hub : Hub
  peer : Fin n → Peer w
  control : List Control
  wire : List Datagram
  seen : List Msg
  eph : Nat

namespace Overlay

variable {n w : Nat}

/-- The steps. -/
inductive Act (n w : Nat) where
  /-- A step of the server; a handshake it gets comes from the adversary. -/
  | hub (b : Hub.Act)
  /-- A client that keeps to the protocol sends its handshake. -/
  | hello (c : ConnId) (natType : UInt8) (clientID : ClientId) (deviceName : Bytes)
  /-- A packet is read from the TUN device; `sealedLen` is the length of its ciphertext. -/
  | offer (x : Fin n) (p : Bytes) (sealedLen : Nat)
  | deliver (m : Control)
  | loseControl (m : Control)
  /-- The adversary sends a datagram. -/
  | inject (d : Datagram)
  | lose (d : Datagram)
  /-- `GetSession` at the start of `HandleNoisePacket`. -/
  | lookup (x : Fin n) (k : Fin w) (d : Datagram)
  /-- The body under the session's lock. -/
  | lock (x : Fin n) (k : Fin w)
  /-- `handleResponderFirst`, up to its `SetSession`. -/
  | respond (x : Fin n) (k : Fin w)
  | sweep (x : Fin n) (timeout : Int)
  | touch (x : Fin n) (sid : SessionId)

/-- A client changes. -/
def setPeer (s : Overlay n w) (x : Fin n) (p : Peer w) : Overlay n w :=
  { s with peer := Function.update s.peer x p }

/-- The sessions of a client change. -/
def setMgr (s : Overlay n w) (x : Fin n) (m : NoiseManager) : Overlay n w :=
  s.setPeer x { s.peer x with mgr := m }

/-- A worker of a client goes on. -/
def setWorker (s : Overlay n w) (x : Fin n) (k : Fin w) (v : Receiver) : Overlay n w :=
  s.setPeer x { s.peer x with worker := Function.update (s.peer x).worker k v }

/-- The server has a message for a client. -/
def push (s : Overlay n w) (m : Control) : Overlay n w := { s with control := s.control ++ [m] }

/-- A datagram is sent, and the adversary sees it. -/
def send (s : Overlay n w) (d : Datagram) : Overlay n w :=
  { s with wire := d :: s.wire, seen := d.data :: s.seen }

/-- A new ephemeral key was drawn. -/
def draw (s : Overlay n w) : Overlay n w := { s with eph := s.eph + 1 }

variable (M : Cast n)

/-- Noise messages the adversary can make: those with its own key, and copies. -/
def canMake (s : Overlay n w) (d : Msg) : Bool :=
  s.seen.contains d ||
    match d with
    | .first m => m.initiator == M.static M.adversary
    | .reply t => t.first.responder == M.static M.adversary
    | .other _ => true

/-- A step of the server, with the reply it sends. -/
def hubStep (retentionTime : Int) (s : Overlay n w) (b : Hub.Act) : Option (Overlay n w) :=
  (Hub.step retentionTime s.hub b).map fun h =>
    { s with
      hub := h
      control := s.control ++ ((s.hub.welcome b).map fun (c, v) => .handshake c v).toList }

/-- Handshakes that do not keep to the protocol come from the adversary. -/
def fromAdversary : Hub.Act → Bool
  | .load c _ => M.owner c == M.adversary
  | _ => true

/-- `packetSend` on one packet that is no DNS query (client_udp.go:29–87), on a client whose
control connection is `c`. -/
def packetSend (s : Overlay n w) (x : Fin n) (c : ConnId) (p : Bytes) (sealedLen : Nat) :
    Overlay n w :=
  let m := (s.peer x).mgr
  let dst : ByteArr 4 := .ofBytes 4 (p.drop 16)
  if p.length < 20 then s
  else if Hub.hostNumber dst = 255 then s.send ⟨m.myVip, dst, .other p.length⟩
  else match m.getSession dst with
    | none => s.push (.query c dst p)
    | some sid =>
      if (m.heap sid).isReady then
        (s.setMgr x (m.modify sid fun n => (n.updateLastSeen s.hub.now).drawNonce)).send
          ⟨m.myVip, dst, .other sealedLen⟩
      else s.setMgr x (m.modify sid (·.addPendingData p))

/-- `handleNoiseHandshake` (server_ws.go:184–202). -/
def handleNoiseHandshake (s : Overlay n w) (c : ConnId) (dst : ByteArr 4) (payload : Bytes) :
    Overlay n w :=
  match s.hub.noiseKey dst with
  | none => s
  | some pub => s.push (.response c dst pub payload)

/-- `initiateNoise` (client_udp.go:228–239). -/
def initiateNoise (s : Overlay n w) (x : Fin n) (remoteVip : ByteArr 4) (remotePub : PublicKey)
    (payload : Bytes) : Overlay n w :=
  let r := (s.peer x).mgr.handshakeInit ideal remoteVip remotePub payload s.eph s.hub.now
  ((s.setMgr x r.2).send ⟨(s.peer x).mgr.myVip, remoteVip, r.1⟩).draw

/-- What a control message does when it arrives. -/
def handle (s : Overlay n w) : Control → Overlay n w
  | .handshake c vip =>
    -- `ListenAndServe` (client.go:170–175)
    let p := s.peer (M.owner c)
    s.setPeer (M.owner c) { p with mgr := { p.mgr with myVip := vip }, controlConn := some c }
  | .query c dst payload => s.handleNoiseHandshake c dst payload
  | .response c vip pub payload =>
    if (s.peer (M.owner c)).controlConn = some c then s.initiateNoise (M.owner c) vip pub payload
    else s

/-- The datagram of a worker goes into `handleResponderFirst` (client_udp.go:142–157). -/
def respondTo (s : Overlay n w) (x : Fin n) (k : Fin w) (d : Datagram) (held : Option SessionId) :
    Overlay n w :=
  let m := (s.peer x).mgr
  let r := m.handleResponderFirst ideal d.src d.data s.eph s.hub.now
  let s' := (s.setMgr x (World.unlock r.1 held)).setWorker x k .idle
  match responseOf r.2 with
  | some response => (s'.send ⟨m.myVip, d.src, response⟩).draw
  | none => s'

/-- One step of the hub, of a client or of the adversary. -/
def step (retentionTime : Int) (s : Overlay n w) : Act n w → Option (Overlay n w)
  | .hub b => if fromAdversary M b then s.hubStep retentionTime b else none
  | .hello c natType clientID deviceName =>
    s.hubStep retentionTime (.load c (handshakePayload natType (M.key c) clientID deviceName))
  | .offer x p sealedLen => (s.peer x).controlConn.map fun c => s.packetSend x c p sealedLen
  | .deliver m =>
    guardTo (m ∈ s.control) (({ s with control := s.control.erase m } : Overlay n w).handle M m)
  | .loseControl m => some { s with control := s.control.erase m }
  | .inject d => guardTo (s.canMake M d.data = true) (s.send d)
  | .lose d => some { s with wire := s.wire.erase d }
  | .lookup x k d =>
    guardTo ((s.peer x).worker k = .idle ∧ d ∈ s.wire)
      (s.setWorker x k <|
        match (s.peer x).mgr.getSession d.src with
        | none => .responding d none
        | some sid => if ((s.peer x).mgr.heap sid).isReady then .idle else .waiting sid d)
  | .lock x k =>
    match (s.peer x).worker k with
    | .waiting sid d =>
      if ((s.peer x).mgr.heap sid).mtx then none
      else match (s.peer x).mgr.lockedBody ideal sid d.src d.data with
        | some r => some ((s.setMgr x r.1).setWorker x k .idle)
        | none =>
          some ((s.setMgr x ((s.peer x).mgr.modify sid fun n => { n with mtx := true })).setWorker
            x k (.responding d (some sid)))
    | _ => none
  | .respond x k =>
    match (s.peer x).worker k with
    | .responding d held => some (s.respondTo x k d held)
    | _ => none
  | .sweep x timeout => some (s.setMgr x ((s.peer x).mgr.sweepSessions timeout s.hub.now))
  | .touch x sid =>
    some (s.setMgr x ((s.peer x).mgr.modify sid (·.updateLastSeen s.hub.now)))

/-- New clients, and a new server. -/
def start : Overlay n w :=
  { hub := .newHub
    peer := fun x =>
      { mgr := .new (M.static x) (.zero 4), controlConn := none, worker := fun _ => .idle }
    control := []
    wire := []
    seen := []
    eph := 0 }

/-- The overlay from its start. -/
def machine (n w : Nat) (M : Cast n) (retentionTime : Int) : Machine (Overlay n w) (Act n w) :=
  { init := start M, step := step M retentionTime }

/-! ## First messages on their way -/

/-- The datagrams the workers have. -/
def held (s : Overlay n w) : List Datagram :=
  (List.finRange n).flatMap fun x =>
    (List.finRange w).filterMap fun k => ((s.peer x).worker k).datagram

/-- The datagrams that are on their way, or with a worker. -/
def flight (s : Overlay n w) : List Datagram := s.wire ++ s.held

/-- The condition on a step of the server: a handshake presents the key of the client it comes
from, and no address changes hands while a first message is on its way from it. -/
def HubOk (retentionTime : Int) (s : Overlay n w) (b : Hub.Act) : Prop :=
  Hub.LoadOk M.key b ∧ ∀ h ∈ Hub.step retentionTime s.hub b, ∀ d ∈ s.flight,
    d.first.isSome = true → M.holder h d.src = M.holder s.hub d.src

/-- The condition: besides, **a first message is sent under an address that its sender
holds**, and is the sender's own. -/
def BindOk (retentionTime : Int) (s : Overlay n w) : Act n w → Prop
  | .hub b => HubOk M retentionTime s b
  | .inject d => ∀ m ∈ d.first,
    m.initiator = M.static M.adversary ∧ M.holder s.hub d.src = some M.adversary
  | .deliver (.response c _ _ _) =>
    M.holder s.hub (s.peer (M.owner c)).mgr.myVip = some (M.owner c)
  | _ => True

instance (retentionTime : Int) (s : Overlay n w) (b : Hub.Act) :
    Decidable (HubOk M retentionTime s b) :=
  inferInstanceAs (Decidable (_ ∧ ∀ h ∈ _, ∀ d ∈ s.flight, _))

instance (retentionTime : Int) (s : Overlay n w) :
    (a : Act n w) → Decidable (BindOk M retentionTime s a)
  | .hub b => inferInstanceAs (Decidable (HubOk M retentionTime s b))
  | .inject d => inferInstanceAs (Decidable (∀ m ∈ d.first, _))
  | .deliver (.response c _ _ _) =>
    inferInstanceAs (Decidable (M.holder s.hub (s.peer (M.owner c)).mgr.myVip = some (M.owner c)))
  | .deliver (.handshake _ _) | .deliver (.query _ _ _) | .hello _ _ _ _ | .offer _ _ _
  | .loseControl _ | .lose _ | .lookup _ _ _ | .lock _ _ | .respond _ _ | .sweep _ _
  | .touch _ _ => inferInstanceAs (Decidable True)

variable {M} {s s' : Overlay n w} {x : Fin n} {d : Datagram}

theorem mem_held : d ∈ s.held ↔ ∃ x k, ((s.peer x).worker k).datagram = some d := by
  simp only [held, List.mem_flatMap, List.mem_filterMap, List.mem_finRange, true_and]

theorem worker_setMgr (s : Overlay n w) (x : Fin n) (m : NoiseManager) :
    ((s.setMgr x m).peer x).worker = (s.peer x).worker := by
  show (Function.update s.peer x _ x).worker = _
  rw [Function.update_self]

/-! ### Steps that send no first message -/

/-- The server and the keys stay, and no first message is new. -/
structure Keeps (s s' : Overlay n w) : Prop where
  hub : s'.hub = s.hub
  static : ∀ x, (s'.peer x).mgr.staticPub = (s.peer x).mgr.staticPub
  flight : ∀ {d}, d ∈ s'.flight → d.first.isSome = true → d ∈ s.flight

namespace Keeps

theorem refl (s : Overlay n w) : Keeps s s where
  hub := rfl
  static _ := rfl
  flight hd _ := hd

theorem trans {s'' : Overlay n w} (h : Keeps s s') (h' : Keeps s' s'') : Keeps s s'' where
  hub := h'.hub.trans h.hub
  static x := (h'.static x).trans (h.static x)
  flight hd hfirst := h.flight (h'.flight hd hfirst) hfirst

/-- One client goes on with its key and with datagrams that were on their way. -/
theorem setPeer {p : Peer w} (hstatic : p.mgr.staticPub = (s.peer x).mgr.staticPub)
    (hworker : ∀ k d, (p.worker k).datagram = some d → d ∈ s.flight) :
    Keeps s (s.setPeer x p) where
  hub := rfl
  static y := by
    show (Function.update s.peer x p y).mgr.staticPub = _
    by_cases hy : y = x
    · subst hy
      rw [Function.update_self]
      exact hstatic
    · rw [Function.update_of_ne hy]
  flight {d} hd _ := by
    rcases List.mem_append.mp hd with hwire | hheld
    · exact List.mem_append_left _ hwire
    · obtain ⟨y, k, hk⟩ := mem_held.mp hheld
      have hk' : ((Function.update s.peer x p y).worker k).datagram = some d := hk
      by_cases hy : y = x
      · subst hy
        rw [Function.update_self] at hk'
        exact hworker k d hk'
      · rw [Function.update_of_ne hy] at hk'
        exact List.mem_append_right _ (mem_held.mpr ⟨y, k, hk'⟩)

/-- The sessions of a client change. -/
theorem setMgr {m : NoiseManager} (hstatic : m.staticPub = (s.peer x).mgr.staticPub) :
    Keeps s (s.setMgr x m) :=
  setPeer hstatic fun k _ hd => List.mem_append_right _ (mem_held.mpr ⟨x, k, hd⟩)

/-- A worker of a client goes on. -/
theorem setWorker {k : Fin w} {v : Receiver} (hv : ∀ d, v.datagram = some d → d ∈ s.flight) :
    Keeps s (s.setWorker x k v) := by
  refine setPeer rfl fun k' d hd => ?_
  have hd' : (Function.update (s.peer x).worker k v k').datagram = some d := hd
  by_cases hk : k' = k
  · subst hk
    rw [Function.update_self] at hd'
    exact hv d hd'
  · rw [Function.update_of_ne hk] at hd'
    exact List.mem_append_right _ (mem_held.mpr ⟨x, k', hd'⟩)

/-- The server has a message for a client. -/
theorem push (s : Overlay n w) (m : Control) : Keeps s (s.push m) :=
  ⟨rfl, fun _ => rfl, fun hd _ => hd⟩

theorem draw (s : Overlay n w) : Keeps s s.draw := ⟨rfl, fun _ => rfl, fun hd _ => hd⟩

theorem setControl (s : Overlay n w) (control : List Control) : Keeps s { s with control } :=
  ⟨rfl, fun _ => rfl, fun hd _ => hd⟩

/-- A datagram without a first message is sent. -/
theorem send (hd : d.first = none) : Keeps s (s.send d) where
  hub := rfl
  static _ := rfl
  flight {d'} hmem hfirst := by
    rcases List.mem_cons.mp hmem with rfl | hold
    · rw [hd] at hfirst
      cases hfirst
    · exact hold

theorem lose (s : Overlay n w) (d : Datagram) : Keeps s { s with wire := s.wire.erase d } where
  hub := rfl
  static _ := rfl
  flight {d'} hmem _ := by
    rcases List.mem_append.mp hmem with hwire | hheld
    · exact List.mem_append_left _ (List.mem_of_mem_erase hwire)
    · exact List.mem_append_right _ hheld

end Keeps

theorem keeps_packetSend (s : Overlay n w) (x : Fin n) (c : ConnId) (p : Bytes)
    (sealedLen : Nat) : Keeps s (s.packetSend x c p sealedLen) := by
  unfold packetSend
  simp only
  split
  · exact .refl s
  · split
    · exact .send rfl
    · split
      · exact .push ..
      · split
        · next sid _ _ =>
          have htouched : Keeps s (s.setMgr x ((s.peer x).mgr.modify sid fun n =>
              (n.updateLastSeen s.hub.now).drawNonce)) := .setMgr rfl
          exact htouched.trans (.send rfl)
        · exact .setMgr rfl

theorem keeps_handleNoiseHandshake (s : Overlay n w) (c : ConnId) (dst : ByteArr 4)
    (payload : Bytes) : Keeps s (s.handleNoiseHandshake c dst payload) := by
  unfold handleNoiseHandshake
  split
  · exact .refl s
  · exact .push ..

theorem staticPub_unlock (m : NoiseManager) (held : Option SessionId) :
    (World.unlock m held).staticPub = m.staticPub := by
  cases held with
  | none => rfl
  | some sid => rfl

/-- What `handleResponderFirst` leaves as it is, and what it sends. -/
theorem handleResponderFirst_frame (m : NoiseManager) (srcVip : ByteArr 4) (data : Msg)
    (eph : Nat) (now : Int) :
    (m.handleResponderFirst ideal srcVip data eph now).1.staticPub = m.staticPub ∧
      ∀ response, responseOf (m.handleResponderFirst ideal srcVip data eph now).2 = some response →
        ∃ t, response = .reply t := by
  rcases m.handleResponderFirst_inv ideal srcVip data eph now with hfail | ⟨t, hok⟩
  · rw [hfail]
    exact ⟨rfl, nofun⟩
  · rw [hok]
    exact ⟨rfl, fun response hr => ⟨t, (Option.some.inj hr).symm⟩⟩

theorem keeps_respondTo (s : Overlay n w) (x : Fin n) (k : Fin w) (d : Datagram)
    (held : Option SessionId) : Keeps s (s.respondTo x k d held) := by
  obtain ⟨hstatic, hreply⟩ :=
    handleResponderFirst_frame (s.peer x).mgr d.src d.data s.eph s.hub.now
  unfold respondTo
  simp only
  have hidle : Keeps s ((s.setMgr x (World.unlock ((s.peer x).mgr.handleResponderFirst ideal d.src
      d.data s.eph s.hub.now).1 held)).setWorker x k .idle) :=
    .trans (.setMgr ((staticPub_unlock ..).trans hstatic)) (.setWorker nofun)
  split
  · next response hr =>
    obtain ⟨t, rfl⟩ := hreply response hr
    exact hidle.trans (.trans (.send rfl) (.draw _))
  · exact hidle

theorem keeps_lookup {retentionTime : Int} {k : Fin w}
    (hs : step M retentionTime s (.lookup x k d) = some s') : Keeps s s' := by
  obtain ⟨⟨-, hd⟩, rfl⟩ := guardTo_eq_some.mp hs
  refine .setWorker fun d' hd' => ?_
  -- whatever the worker does next, it does it with the datagram it has taken
  have hsame : d' = d := by
    split at hd'
    · cases hd'
      rfl
    · split at hd'
      · cases hd'
      · cases hd'
        rfl
  rw [hsame]
  exact List.mem_append_left _ hd

theorem keeps_lock {retentionTime : Int} {k : Fin w}
    (hs : step M retentionTime s (.lock x k) = some s') : Keeps s s' := by
  simp only [step] at hs
  split at hs
  · next sid d hw =>
    split at hs
    · cases hs
    · split at hs
      · next r hr =>
        cases hs
        refine .trans (.setMgr ?_) (.setWorker nofun)
        rcases NoiseManager.lockedBody_inv hr with hsame | ⟨-, t, hcomplete⟩
        · rw [hsame]
        · rw [hcomplete]
          rfl
      · -- it yields, with the lock
        cases hs
        have hlocked := Keeps.setMgr (s := s) (x := x)
          (m := (s.peer x).mgr.modify sid fun n => { n with mtx := true }) rfl
        refine hlocked.trans (.setWorker fun d' hd' => ?_)
        cases hd'
        refine List.mem_append_right _ (mem_held.mpr ⟨x, k, ?_⟩)
        rw [worker_setMgr, hw]
        rfl
  · cases hs

/-! ### What a step does -/

/-- The steps: the server goes on, a first message is sent, or neither. -/
inductive Does (M : Cast n) (retentionTime : Int) (s : Overlay n w) :
    Act n w → Overlay n w → Prop where
  | hub {b : Hub.Act} {h : Hub} {control : List Control}
      (hs : Hub.step retentionTime s.hub b = some h) :
      Does M retentionTime s (.hub b) { s with hub := h, control }
  | hello {c : ConnId} {natType : UInt8} {clientID : ClientId} {deviceName : Bytes} {h : Hub}
      {control : List Control} (hs : Hub.step retentionTime s.hub
        (.load c (handshakePayload natType (M.key c) clientID deviceName)) = some h) :
      Does M retentionTime s (.hello c natType clientID deviceName) { s with hub := h, control }
  | inject (d : Datagram) : Does M retentionTime s (.inject d) (s.send d)
  | initiate {c : ConnId} {vip : ByteArr 4} {pub : PublicKey} {payload : Bytes}
      (control : List Control) :
      Does M retentionTime s (.deliver (.response c vip pub payload))
        (({ s with control } : Overlay n w).initiateNoise (M.owner c) vip pub payload)
  | keeps {a : Act n w} {s' : Overlay n w} (h : Keeps s s') : Does M retentionTime s a s'

theorem does_of_step {retentionTime : Int} {a : Act n w}
    (hs : step M retentionTime s a = some s') : Does M retentionTime s a s' := by
  cases a with
  | hub b =>
    simp only [step] at hs
    split at hs
    · obtain ⟨h, hh, rfl⟩ := Option.map_eq_some_iff.mp hs
      exact .hub hh
    · cases hs
  | hello c natType clientID deviceName =>
    obtain ⟨h, hh, rfl⟩ := Option.map_eq_some_iff.mp hs
    exact .hello hh
  | offer x p sealedLen =>
    obtain ⟨c, -, rfl⟩ := Option.map_eq_some_iff.mp hs
    exact .keeps (keeps_packetSend ..)
  | deliver m =>
    obtain ⟨-, rfl⟩ := guardTo_eq_some.mp hs
    have hcontrol := Keeps.setControl s (s.control.erase m)
    cases m with
    | handshake c vip =>
      refine .keeps (hcontrol.trans (.setPeer rfl fun k _ hd => ?_))
      exact List.mem_append_right _ (mem_held.mpr ⟨M.owner c, k, hd⟩)
    | query c dst payload => exact .keeps (hcontrol.trans (keeps_handleNoiseHandshake ..))
    | response c vip pub payload =>
      simp only [handle]
      split
      · exact .initiate _
      · exact .keeps hcontrol
  | loseControl m =>
    cases hs
    exact .keeps (.setControl ..)
  | inject d =>
    obtain ⟨-, rfl⟩ := guardTo_eq_some.mp hs
    exact .inject d
  | lose d =>
    cases hs
    exact .keeps (.lose s d)
  | lookup x k d => exact .keeps (keeps_lookup hs)
  | lock x k => exact .keeps (keeps_lock hs)
  | respond x k =>
    simp only [step] at hs
    split at hs
    · cases hs
      exact .keeps (keeps_respondTo ..)
    · cases hs
  | sweep x timeout =>
    cases hs
    exact .keeps (.setMgr rfl)
  | touch x sid =>
    cases hs
    exact .keeps (.setMgr rfl)

/-! ## Bound sessions -/

/-- **The invariant**: every first message on its way has the key of the client that holds
its source address. -/
structure Bound (M : Cast n) (s : Overlay n w) : Prop where
  fresh : s.hub.Fresh
  keyed : s.hub.Keyed M.key
  static : ∀ x, (s.peer x).mgr.staticPub = M.static x
  first : ∀ {d m}, d ∈ s.flight → d.first = some m →
    (M.holder s.hub d.src).map M.static = some m.initiator

namespace Bound

theorem start (M : Cast n) : (start M : Overlay n w).Bound M where
  fresh _ _ := rfl
  keyed := .newHub
  static _ := rfl
  first {d m} hd := by
    rcases List.mem_append.mp hd with hwire | hheld
    · cases hwire
    · obtain ⟨x, k, hk⟩ := mem_held.mp hheld
      cases hk

theorem keeps (hB : s.Bound M) (hk : Keeps s s') : s'.Bound M where
  fresh := hk.hub ▸ hB.fresh
  keyed := hk.hub ▸ hB.keyed
  static x := (hk.static x).trans (hB.static x)
  first {d m} hd hm := by
    rw [hk.hub]
    exact hB.first (hk.flight hd (by rw [hm]; rfl)) hm

/-- A datagram is sent, and the adversary sees it. -/
theorem send (hB : s.Bound M)
    (hd : ∀ m, d.first = some m → (M.holder s.hub d.src).map M.static = some m.initiator) :
    (s.send d).Bound M where
  fresh := hB.fresh
  keyed := hB.keyed
  static := hB.static
  first {d' m} hmem hm := by
    rcases List.mem_cons.mp hmem with rfl | hold
    · exact hd m hm
    · exact hB.first hold hm

theorem hub {retentionTime : Int} {b : Hub.Act} {h : Hub} (hB : s.Bound M)
    (hok : HubOk M retentionTime s b) (hs : Hub.step retentionTime s.hub b = some h)
    (control : List Control) : ({ s with hub := h, control } : Overlay n w).Bound M where
  fresh := Hub.fresh_step hB.fresh hs
  keyed := Hub.keyed_step hB.keyed hB.fresh hok.1 hs
  static := hB.static
  first {d m} hd hm := by
    have hsame : M.holder h d.src = M.holder s.hub d.src :=
      hok.2 h hs d hd (by rw [hm]; rfl)
    show (M.holder h d.src).map M.static = _
    rw [hsame]
    exact hB.first hd hm

/-- A client starts a handshake under an address it holds. -/
theorem initiateNoise (hB : s.Bound M) (hx : M.holder s.hub (s.peer x).mgr.myVip = some x)
    (vip : ByteArr 4) (pub : PublicKey) (payload : Bytes) :
    (s.initiateNoise x vip pub payload).Bound M := by
  have hmgr : Keeps s (s.setMgr x ((s.peer x).mgr.handshakeInit ideal vip pub payload s.eph
      s.hub.now).2) := .setMgr rfl
  refine ((hB.keeps hmgr).send fun m hm => ?_).keeps (.draw _)
  cases hm
  show (M.holder s.hub (s.peer x).mgr.myVip).map M.static = some (s.peer x).mgr.staticPub
  rw [hx, hB.static x]
  rfl

end Bound

/-- The handshake of a client that keeps to the protocol. -/
theorem hubOk_hello (retentionTime : Int) (s : Overlay n w) (c : ConnId) (natType : UInt8)
    (clientID : ClientId) (deviceName : Bytes) :
    HubOk M retentionTime s (.load c (handshakePayload natType (M.key c) clientID deviceName)) := by
  refine ⟨keyOf_handshakePayload .., fun h hs d _ _ => ?_⟩
  rcases Hub.router_of_step hs with ⟨c', hc', -⟩ | ⟨c', hc', -⟩ | ⟨-, hsame⟩
  · cases hc'
  · cases hc'
  · unfold Cast.holder
    rw [hsame]

theorem bound_step {retentionTime : Int} {a : Act n w} (hB : s.Bound M)
    (hok : BindOk M retentionTime s a) (hs : step M retentionTime s a = some s') :
    s'.Bound M := by
  cases does_of_step hs with
  | hub hh => exact hB.hub hok hh _
  | hello hh => exact hB.hub (hubOk_hello ..) hh _
  | inject d =>
    refine hB.send fun m hm => ?_
    obtain ⟨hown, hholder⟩ := hok m hm
    rw [hholder, hown]
    rfl
  | initiate control => exact (hB.keeps (.setControl s control)).initiateNoise hok ..
  | keeps hk => exact hB.keeps hk

/-- **Sessions are bound to registered keys**, in every run in which a first message is sent
only under an address its sender holds, every client registers the key it has, and no
address changes hands while a first message is on its way from it: whatever session
`handleResponderFirst` installs for an address, the initiator's key it has authenticated
is the one that the server hands out for that address. -/
theorem sessions_bound {retentionTime : Int}
    (hr : (machine n w M retentionTime).ReachVia (BindOk M retentionTime) s) {k : Fin w}
    {held : Option SessionId} (hw : (s.peer x).worker k = .responding d held) {m' : NoiseManager}
    {sid : SessionId} {response : Option Msg}
    (hcall : (s.peer x).mgr.handleResponderFirst ideal d.src d.data s.eph s.hub.now =
      (m', .ok (some sid, response))) :
    m'.getSession d.src = some sid ∧ (m'.heap sid).isReady = true ∧
      ∃ key, initiatorKey (m'.heap sid) = some key ∧ s.hub.noiseKey d.src = some key := by
  have hB : s.Bound M := hr.invariant (P := Bound M) (.start M) fun _ hB hok hs =>
    bound_step hB hok hs
  obtain ⟨first, hread, hent, hready, hkey⟩ := installed_of_handleResponderFirst hcall
  refine ⟨hent, hready, first.initiator, hkey, ?_⟩
  have hfirst : d.first = some first := by
    rw [Datagram.first, (ideal_readFirst_eq_some.mp hread).1]
  have hflight : d ∈ s.flight :=
    List.mem_append_right _ (mem_held.mpr ⟨x, k, by rw [hw]; rfl⟩)
  rw [hB.keyed.noiseKey_eq, ← hB.first hflight hfirst, Cast.holder, Option.map_map]
  rfl

section Runs

/-- Three clients with a connection each; the third one does not keep to the protocol. -/
def three : Cast 3 where
  static x := .ofBytes 32 [UInt8.ofNat (x + 1)]
  owner c := Fin.ofNat 3 c
  adversary := 2

/-- A client connects and gets its address. -/
def connect (c : ConnId) : List (Act 3 1) :=
  [.hub .accept, .hello c 3 (Hub.idOf (UInt8.ofNat c)) [], .hub (.identify c), .hub (.assign c),
    .hub (.addClient c), .hub (.finish c),
    .deliver (.handshake c (Hub.hostIp (UInt8.ofNat (c + 2))))]

/-- A packet for 10.0.6.3. -/
def packetTo3 : Bytes := List.replicate 16 0 ++ (Hub.hostIp 3).1

/-- What 10.0.6.2 sends for it. -/
def firstTo3 : Datagram :=
  ⟨Hub.hostIp 2, Hub.hostIp 3, .first ⟨three.static 0, three.static 1, 0⟩⟩

/-- The client 10.0.6.2 asks for the key of 10.0.6.3 and starts a handshake. -/
def handshakeTo3 : List (Act 3 1) :=
  [.offer 0 packetTo3 0, .deliver (.query 0 (Hub.hostIp 3) packetTo3),
    .deliver (.response 0 (Hub.hostIp 3) (three.static 1) packetTo3), .lookup 1 0 firstTo3]

/-- The session that 10.0.6.3 installs is bound to the key of 10.0.6.2. -/
theorem sessions_bound_one :
    ∃ s, (machine 3 1 three 300).ReachVia (BindOk three 300) s ∧
      (s.peer 1).worker 0 = .responding firstTo3 none ∧
      let r := (s.peer 1).mgr.handleResponderFirst ideal firstTo3.src firstTo3.data s.eph s.hub.now
      r.1.getSession (Hub.hostIp 2) = some 0 ∧
        ∃ key, initiatorKey (r.1.heap 0) = some key ∧
          s.hub.noiseKey (Hub.hostIp 2) = some key := by
  obtain ⟨s, hr, hw, hcall⟩ : ∃ s, (machine 3 1 three 300).ReachVia (BindOk three 300) s ∧
      ((s.peer 1).worker 0 = .responding firstTo3 none ∧
        ((s.peer 1).mgr.handleResponderFirst ideal firstTo3.src firstTo3.data s.eph
          s.hub.now).2 = .ok (some 0, some (.reply ⟨⟨three.static 0, three.static 1, 0⟩, 1⟩))) :=
    Machine.exists_reachVia (connect 0 ++ connect 1 ++ connect 2 ++ handshakeTo3)
      (by decide +kernel)
  have hbound := sessions_bound hr hw (Prod.ext rfl hcall)
  exact ⟨s, hr, hw, hbound.1, hbound.2.2⟩

/-- What the client 10.0.6.4 sends to 10.0.6.2 in the name of 10.0.6.3. -/
def forged : Datagram :=
  ⟨Hub.hostIp 3, Hub.hostIp 2, .first ⟨three.static 2, three.static 0, 0⟩⟩

/-- **A session of another client.** The client 10.0.6.4 sends 10.0.6.2 a first message with
its own key and the source address of 10.0.6.3. 10.0.6.2 installs a session for
10.0.6.3 with the key of 10.0.6.4, while the server hands out another key for the
address. -/
theorem session_of_another :
    ∃ s, (machine 3 1 three 300).Reach s ∧ (s.peer 0).worker 0 = .responding forged none ∧
      let r := (s.peer 0).mgr.handleResponderFirst ideal forged.src forged.data s.eph s.hub.now
      r.1.getSession (Hub.hostIp 3) = some 0 ∧ (r.1.heap 0).isReady = true ∧
        initiatorKey (r.1.heap 0) = some (three.static 2) ∧
        s.hub.noiseKey (Hub.hostIp 3) = some (three.static 1) ∧
        three.static 2 ≠ three.static 1 :=
  Machine.exists_reach
    (connect 0 ++ connect 1 ++ connect 2 ++ [.inject forged, .lookup 0 0 forged])
    (by decide +kernel)

end Runs

end Overlay

end EasyTun.Transport
