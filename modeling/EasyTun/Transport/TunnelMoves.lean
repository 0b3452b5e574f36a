import EasyTun.Transport.Server

/-!
# The steps that concern tunnels

Four handlers use the records of the tunnels, and a fifth removes them: the two
`transfer` workers in `ifEstablish`, `handleP2PTask`, the handlers of
`TypeP2PEstablished` and `TypeP2PClosed`, and `removeClient`. What happens between
them is decided by a small part of the data plane, `Punching`. This module says once
what each step of the server does to that part.

- `Punching.Moves`: **the steps**, one constructor for each access to a record, to the
  table or to the queue of tasks;
- `moves_of_step`: every step of the server is one of them;
- `sound_of_moves`: all of them keep the table sound;
- `Server.Quiet`: no handler is half-way.
-/

namespace EasyTun.Transport

open EasyTun.Lib EasyTun.Util EasyTun.Protocol EasyTun.Stun

/-! ## Where the handlers are -/

/-- The pair of clients a packet is relayed between. -/
def Relay.pair (r : Relay) : ByteArr 8 := makeKey r.packet.src r.packet.dst

namespace Transfer

/-- The worker has no packet. -/
def isIdle : Transfer → Bool
  | .idle => true
  | .taken _ | .loaded _ _ | .found _ _ _ | .relaying _ _ => false

/-- The worker is about to change the table, a record or the queue of tasks. -/
def commits : Transfer → Bool
  | .relaying _ .add | .relaying _ (.reopen _) | .relaying _ .task => true
  | _ => false

/-- The worker has found out that there is no record, or which one. -/
def decides : Transfer → Bool
  | .relaying _ .add | .relaying _ (.status _) | .relaying _ (.retries _)
  | .relaying _ (.reopen _) | .relaying _ .task => true
  | _ => false

end Transfer

namespace P2P

/-- `handleP2PTask` has no task. -/
def isIdle : P2P → Bool
  | .idle => true
  | .taken _ | .loaded _ _ | .looked _ _ _ | .found _ _ _ | .loadedSrc _ _ _ _
  | .commanding _ _ => false

/-- The task `handleP2PTask` works on. -/
def job : P2P → Option P2PTask
  | .idle => none
  | .taken task | .loaded task _ | .looked task _ _ | .found task _ _ | .loadedSrc task _ _ _ =>
    some task
  | .commanding cmd _ => some cmd.task

end P2P

namespace Ws

/-- The handler has no message. -/
def isIdle : Ws → Bool
  | .idle => true
  | .adding _ _ | .status _ | .connecting _ | .failing _ | .counting _ | .done => false

/-- The record a `TypeP2PClosed` has marked and still has to count. -/
def counts : Ws → Option TunnelId
  | .counting t => some t
  | .idle | .adding _ _ | .status _ | .connecting _ | .failing _ | .done => none

end Ws

/-- The check listener has no datagram. -/
def Check.isIdle : Check → Bool
  | .idle => true
  | .seen _ _ _ => false

namespace Server

/-- The steps that have nothing to do with tunnels. -/
def Act.aside : Act → Bool
  | .udp _ _ | .check _ _ | .checkNext | .ping _ | .writePump _ | .writeUdp => true
  | .hub _ | .removeA | .transfer _ | .p2p | .ws _ _ | .wsNext _ | .wsDone _ => false

/-- The connection whose control message a step handles. -/
def Act.message : Act → Option ConnId
  | .ws c _ | .wsNext c | .wsDone c => some c
  | .hub _ | .removeA | .udp _ _ | .check _ _ | .checkNext | .transfer _ | .p2p | .ping _
  | .writePump _ | .writeUdp => none

/-- **No handler is half-way.** -/
def Quiet (s : Server) : Prop :=
  (∀ w, (s.plane.transfer w).isIdle = true) ∧ s.plane.p2p.isIdle = true ∧
    s.plane.check.isIdle = true ∧ s.plane.removing = none ∧
    ∀ c < s.hub.next, (s.plane.ws c).isIdle = true ∧ (s.hub.conn c).pump.isQuiet = true ∧
      (s.hub.conn c).serve ≠ .closing ∧ (s.hub.conn c).serve ≠ .stored

instance (s : Server) : Decidable s.Quiet := inferInstanceAs (Decidable (_ ∧ _))

end Server

/-! ## The part of the plane -/

/-- The part of the data plane that concerns tunnels. -/
structure Punching where
  tm : TunnelManager
  ws : ConnId → Ws
  removing : Option ConnId
  p2pTaskChan : List P2PTask
  transfer : Fin 2 → Transfer
  p2p : P2P

/-- Its values in a state of the plane. -/
def Plane.punching (s : Plane) : Punching :=
  { tm := s.tm, ws := s.ws, removing := s.removing, p2pTaskChan := s.p2pTaskChan
    transfer := s.transfer, p2p := s.p2p }

namespace Punching

/-- A `transfer` worker goes on. -/
def setTransfer (s : Punching) (w : Fin 2) (t : Transfer) : Punching :=
  { s with transfer := Function.update s.transfer w t }

/-- The handler of a connection goes on. -/
def setWs (s : Punching) (c : ConnId) (w : Ws) : Punching :=
  { s with ws := Function.update s.ws c w }

/-- What `handleP2PTask` does to the record it has looked up (server_p2p.go:62–66). -/
def recordTask (tm : TunnelManager) (task : P2PTask) : Option TunnelId → TunnelManager
  | none => tm.addTunnel task.srcVip task.dstVip .init
  | some t => tm.addRetryTimes t

/-- The task of a packet (server_p2p.go:36–41). -/
def taskOf (r : Relay) : P2PTask :=
  { dstVip := r.packet.dst
    dst := r.dstAddr
    srcVip := r.packet.src
    src := r.packet.srcAddr.addrPort }

/-- **What a step does.** `h` is the control plane before the step. -/
inductive Moves (h : Hub) (s : Punching) : Server.Act → Punching → Prop where
  /-- A step that has nothing to do with tunnels. -/
  | aside {a : Server.Act} (ha : a.aside = true) : Moves h s a s
  | hub {a : Hub.Act} (ha : ∀ c, a ≠ .removeClient c) : Moves h s (.hub a) s
  /-- `removeClient` has removed the route, and is about to call `RemoveA`. -/
  | removeRoute {c : ConnId} : Moves h s (.hub (.removeClient c)) { s with removing := some c }
  /-- `removeClient` finds no route. -/
  | removeNothing {c : ConnId}
      (hnone : h.router.clientMap.lookup (ipToKey (h.client c).virtualIp) = none) :
      Moves h s (.hub (.removeClient c)) s
  | removeA {c : ConnId} (hc : s.removing = some c) :
      Moves h s .removeA
        { s with tm := s.tm.removeA (ipToKey (h.client c).virtualIp), removing := none }
  /-- A `transfer` worker outside of `ifEstablish`, or one that leaves it with `false`. -/
  | pass {w : Fin 2} {t : Transfer} (hfrom : (s.transfer w).commits = false)
      (hto : t.decides = false) : Moves h s (.transfer w) (s.setTransfer w t)
  /-- `Exist` finds no record of the pair, or the record `t`. -/
  | absent {w : Fin 2} {r : Relay} (hw : s.transfer w = .relaying r .exist)
      (hnone : s.tm.exist r.packet.src r.packet.dst = none) :
      Moves h s (.transfer w) (s.setTransfer w (.relaying r .add))
  | present {w : Fin 2} {r : Relay} {t : TunnelId} (hw : s.transfer w = .relaying r .exist)
      (hsome : s.tm.exist r.packet.src r.packet.dst = some t) :
      Moves h s (.transfer w) (s.setTransfer w (.relaying r (.status t)))
  /-- The record is marked as failed, and has been tried often enough or not. -/
  | failed {w : Fin 2} {r : Relay} {t : TunnelId} (hw : s.transfer w = .relaying r (.status t)) :
      Moves h s (.transfer w) (s.setTransfer w (.relaying r (.retries t)))
  | retry {w : Fin 2} {r : Relay} {t : TunnelId} (hw : s.transfer w = .relaying r (.retries t)) :
      Moves h s (.transfer w) (s.setTransfer w (.relaying r (.reopen t)))
  /-- A record is added, or one is used again. -/
  | add {w : Fin 2} {r : Relay} (hw : s.transfer w = .relaying r .add) :
      Moves h s (.transfer w)
        ({ s with tm := s.tm.addTunnel r.packet.src r.packet.dst .init }.setTransfer w
          (.relaying r .task))
  | reopen {w : Fin 2} {r : Relay} {t : TunnelId} (hw : s.transfer w = .relaying r (.reopen t)) :
      Moves h s (.transfer w)
        ({ s with tm := s.tm.changeStatus t .init }.setTransfer w (.relaying r .task))
  /-- The task is queued, or dropped at a full queue. -/
  | enqueue {w : Fin 2} {r : Relay} (hw : s.transfer w = .relaying r .task)
      (hroom : s.p2pTaskChan.length < p2pTaskCap) :
      Moves h s (.transfer w)
        ({ s with p2pTaskChan := s.p2pTaskChan ++ [taskOf r] }.setTransfer w (.relaying r .relay))
  | drop {w : Fin 2} {r : Relay} (hw : s.transfer w = .relaying r .task)
      (hfull : p2pTaskCap ≤ s.p2pTaskChan.length) :
      Moves h s (.transfer w) (s.setTransfer w (.relaying r .relay))
  /-- `handleP2PTask` takes a task. -/
  | take {task : P2PTask} {rest : List P2PTask} (hp : s.p2p = .idle)
      (hchan : s.p2pTaskChan = task :: rest) :
      Moves h s .p2p { s with p2pTaskChan := rest, p2p := .taken task }
  /-- `handleP2PTask` goes on with its task and changes no record. -/
  | advance {task : P2PTask} {p : P2P} (hp : s.p2p.job = some task) (hto : p.job = some task) :
      Moves h s .p2p { s with p2p := p }
  /-- It counts the attempt in the record, and finds both clients or not. -/
  | record {task : P2PTask} {clientMap : Map (ByteArr 4) ConnId} {t : Option TunnelId}
      {src dst : ConnId} (hp : s.p2p = .looked task clientMap t) :
      Moves h s .p2p { s with tm := recordTask s.tm task t, p2p := .found task src dst }
  | lost {task : P2PTask} {clientMap : Map (ByteArr 4) ConnId} {t : Option TunnelId}
      (hp : s.p2p = .looked task clientMap t)
      (hlost : clientMap.lookup task.srcVip = none ∨ clientMap.lookup task.dstVip = none) :
      Moves h s .p2p { s with tm := recordTask s.tm task t, p2p := .idle }
  /-- The last test of `handleP2PCommand`. -/
  | finish {cmd : Command} (hp : s.p2p = .commanding cmd .srcCone) :
      Moves h s .p2p { s with p2p := .idle }
  /-- A control message arrives, is looked at or ends, and changes no record. -/
  | wsPass {a : Server.Act} {c : ConnId} {w : Ws} (ha : a.message = some c)
      (hconn : (h.conn c).pump = .idle ∨ (s.ws c).isIdle = false)
      (hfrom : (s.ws c).counts = none) (hto : w.counts = none) : Moves h s a (s.setWs c w)
  /-- `TypeP2PEstablished` without a record, and with one. -/
  | wsAdd {c : ConnId} {a b : ByteArr 4} (hws : s.ws c = .adding a b) :
      Moves h s (.wsNext c) ({ s with tm := s.tm.addTunnel a b .connected }.setWs c .done)
  | wsConnect {c : ConnId} {t : TunnelId} (hws : s.ws c = .connecting t) :
      Moves h s (.wsNext c) ({ s with tm := s.tm.changeStatus t .connected }.setWs c .done)
  /-- `TypeP2PClosed` marks the record, then counts. -/
  | wsFail {c : ConnId} {t : TunnelId} (hws : s.ws c = .failing t) :
      Moves h s (.wsNext c) ({ s with tm := s.tm.changeStatus t .failed }.setWs c (.counting t))
  | wsCount {c : ConnId} {t : TunnelId} (hws : s.ws c = .counting t) :
      Moves h s (.wsNext c) ({ s with tm := s.tm.addRetryTimes t }.setWs c .done)

end Punching

/-! ## Every step is one of them -/

namespace Plane

variable {s s' : Plane} {h : Hub} {c : ConnId}

/-- A message for a client does not concern the tunnels. -/
@[simp] theorem punching_trySendControl (s : Plane) (c : ConnId) (gp : GamePacket) :
    (s.trySendControl c gp).punching = s.punching := by
  unfold trySendControl
  split
  · rfl
  · rfl

@[simp] theorem punching_updateAddrCheck (s : Plane) (c : ConnId) (addr : AddrPort) :
    (s.updateAddrCheck c addr).punching = s.punching := by
  unfold updateAddrCheck
  split
  · rfl
  · rfl

@[simp] theorem punching_sendCommand (s : Plane) (c : ConnId) (src dst : ByteArr 4)
    (addr : AddrPort) (natType : UInt8) :
    (s.sendCommand c src dst addr natType).punching = s.punching := by
  simp only [sendCommand]
  split
  · rfl
  · rw [punching_trySendControl]
    rfl

/-- A datagram changes the queues and the addresses only. -/
theorem punching_listenUdp (dnsReply : Hub → Header → Bytes → Option Bytes) (e : Endpoint)
    (d : Bytes) : (s.listenUdp dnsReply h e d).punching = s.punching := by
  unfold listenUdp
  split
  · rfl
  · split
    · split
      · exact punching_updateAddrCheck ..
      · rfl
    · split
      · split
        · split
          · rfl
          · rfl
        · rfl
      · split
        · split
          · rfl
          · rfl
        · rfl

/-- So does a check. -/
theorem punching_listenCheck (e : Endpoint) (d : Bytes) :
    (s.listenCheck e d).punching = s.punching := by
  unfold listenCheck
  split
  · rfl
  · split
    · rfl
    · rfl

theorem punching_listenCheckNext (e : Endpoint) (src dst : ByteArr 4) :
    (s.listenCheckNext h e src dst).punching = s.punching := by
  simp only [listenCheckNext]
  split
  · rw [punching_sendCommand]
    rfl
  · rfl

/-- Commands are messages to clients. -/
theorem punching_commandNext (cmd : Command) (test : Test) :
    (s.commandNext h cmd test).punching = s.punching := by
  cases test with
  | srcSymmetric | dstSymmetric =>
    simp only [commandNext]
    split
    · rw [punching_sendCommand, punching_trySendControl]
    · rfl
  | dstCone | srcCone =>
    simp only [commandNext]
    split
    · exact punching_sendCommand ..
    · rfl

open Punching (Moves)

/-- A step of `ifEstablish`. -/
theorem moves_relayNext {w : Fin 2} {r : Relay} {next : Establish}
    (hw : s.transfer w = .relaying r next) :
    Moves h s.punching (.transfer w) (s.relayNext h w r next).punching := by
  have hw' : s.punching.transfer w = .relaying r next := hw
  cases next with
  | natTypes =>
    simp only [relayNext]
    split
    · exact .pass (by rw [hw']; rfl) rfl
    · exact .pass (by rw [hw']; rfl) rfl
  | exist =>
    simp only [relayNext]
    split
    · next hnone => exact .absent hw' hnone
    · next t hsome => exact .present hw' hsome
  | add => exact .add hw'
  | status t =>
    simp only [relayNext]
    split
    · exact .failed hw'
    · exact .pass (by rw [hw']; rfl) rfl
  | retries t =>
    simp only [relayNext]
    split
    · exact .retry hw'
    · exact .pass (by rw [hw']; rfl) rfl
  | reopen t => exact .reopen hw'
  | task =>
    simp only [relayNext, newP2PTask]
    split
    · next hroom => exact .enqueue hw' hroom
    · next hfull => exact .drop hw' (Nat.le_of_not_lt hfull)
  | relay =>
    simp only [relayNext]
    split
    · exact .pass (by rw [hw']; rfl) rfl
    · exact .pass (by rw [hw']; rfl) rfl

/-- A step of a `transfer` worker. -/
theorem moves_transferNext {w : Fin 2} (ht : s.transferNext h w = some s') :
    Moves h s.punching (.transfer w) s'.punching := by
  -- a worker that relays nothing yet writes nothing
  have hfrom : ∀ {t : Transfer}, s.transfer w = t → t.commits = false →
      (s.punching.transfer w).commits = false := by
    rintro t rfl hcommits
    exact hcommits
  unfold transferNext at ht
  split at ht
  · next hw =>
    split at ht
    · cases ht
    · cases ht
      exact .pass (hfrom hw rfl) rfl
  · next p hw =>
    cases ht
    exact .pass (hfrom hw rfl) rfl
  · next p clientMap hw =>
    -- the address of the sender may change on the way
    have hset : ∀ (c : ConnId) (t : Transfer), ((s.updateAddrCheck c p.srcAddr.addrPort).setTransfer
        w t).punching = s.punching.setTransfer w t := by
      intro c t
      have hsame := punching_updateAddrCheck s c p.srcAddr.addrPort
      exact congrArg (·.setTransfer w t) hsame
    split at ht
    · cases ht
      exact .pass (hfrom hw rfl) rfl
    · simp only at ht
      split at ht
      · split at ht
        · cases ht
          rw [hset]
          exact .pass (hfrom hw rfl) rfl
        · cases ht
          rw [hset]
          exact .pass (hfrom hw rfl) rfl
      · cases ht
        rw [hset]
        exact .pass (hfrom hw rfl) rfl
  · next p src dst hw =>
    cases ht
    exact .pass (hfrom hw rfl) rfl
  · next r next hw =>
    cases ht
    exact moves_relayNext hw

/-- A step of `handleP2PTask`. -/
theorem moves_p2pNext (ht : s.p2pNext h = some s') : Moves h s.punching .p2p s'.punching := by
  have hjob : ∀ {p : P2P} {task : P2PTask}, s.p2p = p → p.job = some task →
      s.punching.p2p.job = some task := by
    rintro p task rfl htask
    exact htask
  unfold p2pNext at ht
  split at ht
  · next hp =>
    split at ht
    · cases ht
    · next task rest hchan =>
      cases ht
      exact .take hp hchan
  · next task hp =>
    cases ht
    exact .advance (hjob hp rfl) rfl
  · next task clientMap hp =>
    cases ht
    exact .advance (hjob hp rfl) rfl
  · next task clientMap t hp =>
    simp only at ht
    split at ht
    · cases ht
      cases t with
      | none => exact .record (s := s.punching) hp
      | some t => exact .record (s := s.punching) hp
    · next hboth =>
      cases ht
      have hlost : clientMap.lookup task.srcVip = none ∨ clientMap.lookup task.dstVip = none := by
        cases hsrc : clientMap.lookup task.srcVip with
        | none => exact Or.inl rfl
        | some src =>
          cases hdst : clientMap.lookup task.dstVip with
          | none => exact Or.inr rfl
          | some dst => exact absurd hdst (hboth src dst hsrc)
      cases t with
      | none => exact .lost (s := s.punching) hp hlost
      | some t => exact .lost (s := s.punching) hp hlost
  · next task src dst hp =>
    cases ht
    exact .advance (hjob hp rfl) rfl
  · next task src dst srcAddr hp =>
    cases ht
    exact .advance (hjob hp rfl) rfl
  · next cmd test hp =>
    cases ht
    have hset : ∀ p : P2P, { s.commandNext h cmd test with p2p := p }.punching
        = { s.punching with p2p := p } := fun p =>
      congrArg (fun q : Punching => { q with p2p := p }) (punching_commandNext cmd test)
    rw [hset]
    cases test with
    | srcSymmetric | dstSymmetric | dstCone => exact .advance (hjob hp rfl) rfl
    | srcCone => exact .finish hp

/-- A control message arrives. -/
theorem moves_wsMessage {d : Bytes} (hread : s.reading h c = true) :
    Moves h s.punching (.ws c d) (s.wsMessage h c d).punching := by
  obtain ⟨hpump, hws⟩ : (h.conn c).pump = .idle ∧ s.ws c = .idle := by
    unfold reading at hread
    split at hread
    · next hpump hws => exact ⟨hpump, hws⟩
    · cases hread
  have hfrom : (s.punching.ws c).counts = none := by
    show (s.ws c).counts = none
    rw [hws]
    rfl
  have hpass : ∀ w : Ws, w.counts = none → Moves h s.punching (.ws c d) (s.setWs c w).punching :=
    fun w hw => .wsPass rfl (Or.inl hpump) hfrom hw
  -- the reply to a question for a key goes to the client's channel first
  have hreply : ∀ gp : GamePacket,
      Moves h s.punching (.ws c d) ((s.trySendControl c gp).setWs c .done).punching := by
    intro gp
    have hsame : ((s.trySendControl c gp).setWs c .done).punching = (s.setWs c .done).punching :=
      congrArg (·.setWs c .done) (punching_trySendControl s c gp)
    rw [hsame]
    exact hpass .done rfl
  unfold wsMessage
  split
  · split
    · split
      · exact hreply _
      · exact hpass .done rfl
    · split
      · split
        · exact hpass _ rfl
        · exact hpass _ rfl
      · split
        · split
          · exact hpass _ rfl
          · exact hpass _ rfl
        · exact hpass _ rfl
  · exact hpass _ rfl

/-- A step of the handler of a control message. -/
theorem moves_wsNext (ht : s.wsNext c = some s') :
    Moves h s.punching (.wsNext c) s'.punching := by
  unfold wsNext at ht
  split at ht
  · cases ht
  · cases ht
  · next a b hws =>
    cases ht
    exact .wsAdd hws
  · next t hws =>
    have hbusy : (s.punching.ws c).isIdle = false := by
      show (s.ws c).isIdle = false
      rw [hws]
      rfl
    have hfrom : (s.punching.ws c).counts = none := by
      show (s.ws c).counts = none
      rw [hws]
      rfl
    split at ht
    · cases ht
      exact .wsPass rfl (Or.inr hbusy) hfrom rfl
    · cases ht
      exact .wsPass rfl (Or.inr hbusy) hfrom rfl
  · next t hws =>
    cases ht
    exact .wsConnect hws
  · next t hws =>
    cases ht
    exact .wsFail hws
  · next t hws =>
    cases ht
    exact .wsCount hws

/-- Of the control plane only `removeClient` reaches the tunnels. -/
theorem punching_follow {a : Hub.Act} (ha : ∀ c, a ≠ .removeClient c) :
    (s.follow h a).punching = s.punching := by
  cases a with
  | removeClient c => exact absurd rfl (ha c)
  | finish c => exact punching_trySendControl ..
  | accept | cancel _ | quit _ | load _ _ | identify _ | assign _ | addClient _ | disconnect _
  | retain _ | tick _ | wake | lock | sweep _ | unlock => rfl

/-- What a step of the control plane has for a consequence. -/
theorem moves_follow (h : Hub) (a : Hub.Act) :
    Moves h s.punching (.hub a) (s.follow h a).punching := by
  by_cases ha : ∀ c, a ≠ .removeClient c
  · rw [punching_follow ha]
    exact .hub ha
  · obtain ⟨c, rfl⟩ := not_forall_not.mp ha
    simp only [follow]
    split
    · exact .removeRoute
    · next hnone =>
      exact .removeNothing (Option.isNone_iff_eq_none.mp (by simpa using hnone))

end Plane

namespace Server

variable {retentionTime : Int} {dnsReply : Hub → Header → Bytes → Option Bytes} {s s' : Server}
  {a : Act}

open Punching (Moves)

/-- A step of the data plane. -/
theorem moves_planeStep {h : Hub} {p p' : Plane} (hp : planeStep dnsReply h p a = some p') :
    Moves h p.punching a p'.punching := by
  cases a with
  | removeA =>
    simp only [planeStep] at hp
    split at hp
    · next c hc =>
      cases hp
      exact .removeA hc
    · cases hp
  | udp e d =>
    cases hp
    rw [Plane.punching_listenUdp]
    exact .aside rfl
  | check e d =>
    simp only [planeStep] at hp
    split at hp
    · cases hp
      rw [Plane.punching_listenCheck]
      exact .aside rfl
    · cases hp
  | checkNext =>
    simp only [planeStep] at hp
    split at hp
    · cases hp
    · cases hp
      rw [Plane.punching_listenCheckNext]
      exact .aside rfl
  | transfer w => exact Plane.moves_transferNext hp
  | p2p => exact Plane.moves_p2pNext hp
  | ws c d =>
    obtain ⟨⟨hread, -⟩, rfl⟩ := guardTo_eq_some.mp hp
    exact Plane.moves_wsMessage hread
  | wsNext c => exact Plane.moves_wsNext hp
  | ping c =>
    obtain ⟨-, rfl⟩ := guardTo_eq_some.mp hp
    rw [Plane.punching_trySendControl]
    exact .aside rfl
  | writePump c =>
    simp only [planeStep] at hp
    split at hp
    · cases hp
    · cases hp
      exact .aside rfl
  | writeUdp =>
    simp only [planeStep] at hp
    split at hp
    · cases hp
    · cases hp
      exact .aside rfl
  | hub a => cases hp
  | wsDone c => cases hp

/-- **Every step of the server is one of the moves.** -/
theorem moves_of_step (hs : step retentionTime dnsReply s a = some s') :
    Moves s.hub s.plane.punching a s'.plane.punching := by
  have hback : ∀ c, s.plane.ws c = .done →
      Moves s.hub s.plane.punching (.wsDone c) (s.plane.setWs c .idle).punching := by
    intro c hdone
    have hdone' : s.plane.punching.ws c = .done := hdone
    exact .wsPass rfl (Or.inr (by rw [hdone']; rfl)) (by rw [hdone']; rfl) rfl
  cases (does_of_step hs).2 with
  | hub _ => exact Plane.moves_follow ..
  | quit _ => exact hback _ (done_of_step hs)
  | back => exact hback _ (done_of_step hs)
  | plane hp => exact moves_planeStep hp

end Server

/-! ## The table stays sound -/

namespace Punching

variable {h : Hub} {s s' : Punching} {a : Server.Act}

theorem sound_recordTask {tm : TunnelManager} (hs : tm.Sound) (task : P2PTask)
    (t : Option TunnelId) : (recordTask tm task t).Sound := by
  cases t with
  | none => exact hs.addTunnel ..
  | some t => exact hs.addRetryTimes t

/-- **Every move keeps the table sound.** -/
theorem sound_of_moves (hs : s.tm.Sound) (hm : Moves h s a s') : s'.tm.Sound := by
  cases hm with
  | aside | hub | removeRoute | removeNothing | pass | absent | present | failed | retry | enqueue
  | drop | take | advance | finish | wsPass => exact hs
  | removeA hc => exact hs.removeA _
  | add hw => exact hs.addTunnel ..
  | reopen hw => exact hs.changeStatus ..
  | record hp => exact sound_recordTask hs ..
  | lost hp _ => exact sound_recordTask hs ..
  | wsAdd hws => exact hs.addTunnel ..
  | wsConnect hws => exact hs.changeStatus ..
  | wsFail hws => exact hs.changeStatus ..
  | wsCount hws => exact hs.addRetryTimes _

end Punching

end EasyTun.Transport
