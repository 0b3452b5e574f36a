import EasyTun.Stun.Pairs
import EasyTun.Transport.PunchAttempts

/-!
# Tunnels that are being established

A record with the status `TunnelInit` stands for an attempt that is under way, and
while it has that status `ifEstablish` refuses every further one. So somebody has to
be responsible for it: the worker that is about to queue the task, the queue, the P2P
worker, or in the end the two clients, which have been sent a message to begin with.
Each hand-over can fail without a trace.

- `PunchLog`: an observer that notes for each record whether such a message was put on
  the channel of one of its clients since the record became initial;
- `hasRoom`: what a test of `handleP2PCommand` needs to put a message, by the NAT types and
  the channels before it; `told_of_room`: then a client is told;
- `Covered`: **who is responsible** for a record;
- `covered_of_moves`: the steps hand the responsibility on;
- `init_tunnels_covered`: if no task is dropped at a full queue, the P2P worker finds
  both clients, and one of the tests applies and finds room, then **no tunnel is stuck**:
  where no handler is half-way, its task is queued or its clients were told;
- `stuck_in_init`: the channels of both clients are full, and the tunnel stays as it is.
-/

namespace EasyTun.Transport

open EasyTun.Lib EasyTun.Util EasyTun.Protocol EasyTun.Stun

/-! ## What the clients were told -/

/-- The message begins a direct path of the pair, and is for the client that has the
address it names. -/
def isPunch (h : Hub) (key : ByteArr 8) (m : ConnId × GamePacket) : Bool :=
  (m.2.pType == typeP2PCommand || m.2.pType == typeP2PCheck) &&
    makeKey m.2.src m.2.dst == key && (h.client m.1).virtualIp == some m.2.dst

/-- The messages a step has put on the channels of the clients. -/
def Server.sent (s s' : Server) : List (ConnId × GamePacket) :=
  (List.range s'.hub.next).flatMap fun c =>
    ((s'.plane.controlChan c).drop (s.plane.controlChan c).length).map fun gp => (c, gp)

/-- A step has told a client of the pair to begin. -/
def Server.told (s s' : Server) (key : ByteArr 8) : Bool := (s.sent s').any (isPunch s.hub key)

/-! ## Room for a message -/

/-- The client has the address, and there is room for a message to it. -/
def Plane.takes (s : Plane) (h : Hub) (c : ConnId) (vip : ByteArr 4) : Bool :=
  (h.client c).virtualIp == some vip && decide ((s.controlChan c).length < controlCap)

/-- **A test of `handleP2PCommand` has room for a message**: by the NAT types it applies, and a
client to which it sends still has its address, and room. A command also needs an endpoint that
can be encoded; after a check it needs a channel of its own. -/
def Plane.hasRoom (s : Plane) (h : Hub) (cmd : Command) : Test → Bool
  | .srcSymmetric =>
    (h.client cmd.src).natType == typeSymmetric &&
      (s.takes h cmd.src cmd.task.srcVip ||
        (s.takes h cmd.dst cmd.task.dstVip && cmd.srcAddr.addr.isIPv4 && cmd.dst != cmd.src))
  | .dstSymmetric =>
    (h.client cmd.dst).natType == typeSymmetric &&
      (s.takes h cmd.dst cmd.task.dstVip ||
        (s.takes h cmd.src cmd.task.srcVip && cmd.dstAddr.addr.isIPv4 && cmd.src != cmd.dst))
  | .dstCone =>
    (h.client cmd.dst).natType == typeCone &&
      (s.takes h cmd.src cmd.task.srcVip && cmd.dstAddr.addr.isIPv4)
  | .srcCone =>
    (h.client cmd.src).natType == typeCone &&
      (s.takes h cmd.dst cmd.task.dstVip && cmd.srcAddr.addr.isIPv4)

namespace Plane

/-- Between the two states the message was put on the channel of the client. -/
def Puts (s s' : Plane) (c : ConnId) (gp : GamePacket) : Prop :=
  gp ∈ (s'.controlChan c).drop (s.controlChan c).length

variable {s s' : Plane} {h : Hub} {c c' : ConnId} {gp gp' : GamePacket} {vip : ByteArr 4}

theorem takes_iff : s.takes h c vip = true ↔
    (h.client c).virtualIp = some vip ∧ (s.controlChan c).length < controlCap := by
  simp [takes]

theorem puts_trySendControl (hroom : (s.controlChan c).length < controlCap) :
    s.Puts (s.trySendControl c gp) c gp := by
  unfold Puts trySendControl
  rw [if_pos hroom]
  show gp ∈ (Function.update s.controlChan c (s.controlChan c ++ [gp]) c).drop _
  rw [Function.update_self, List.drop_left]
  exact List.mem_singleton_self gp

/-- Messages that are sent afterwards are behind it. -/
theorem Puts.trySendControl (hp : s.Puts s' c gp) : s.Puts (s'.trySendControl c' gp') c gp := by
  unfold Plane.trySendControl
  split
  · show gp ∈ (Function.update s'.controlChan c' (s'.controlChan c' ++ [gp']) c).drop _
    by_cases hc : c = c'
    · subst hc
      rw [Function.update_self, List.drop_append]
      exact List.mem_append_left _ hp
    · rw [Function.update_of_ne hc]
      exact hp
  · exact hp

theorem Puts.sendCommand {src dst : ByteArr 4} {addr : AddrPort} {natType : UInt8}
    (hp : s.Puts s' c gp) : s.Puts (s'.sendCommand c' src dst addr natType) c gp := by
  have hcalled : s.Puts { s' with calls := s'.calls ++ [addr] } c gp := hp
  unfold Plane.sendCommand
  dsimp only
  split
  · exact hp
  · exact hcalled.trySendControl

theorem puts_sendCommand {addr : AddrPort} (src dst : ByteArr 4) (natType : UInt8)
    (hroom : (s.controlChan c).length < controlCap) (haddr : addr.addr.isIPv4 = true) :
    ∃ payload, s.Puts (s.sendCommand c src dst addr natType) c
      (newGamePacket src dst typeP2PCommand (some payload)) := by
  obtain ⟨ip, hip⟩ := Option.isSome_iff_exists.mp (Addr.as4_isSome_of_isIPv4 haddr)
  unfold sendCommand udpAddrPortToBytes
  rw [hip]
  exact ⟨_, puts_trySendControl (s := { s with calls := s.calls ++ [addr] }) hroom⟩

/-- What goes to one client leaves the channel of another as it is. -/
theorem controlChan_trySendControl_of_ne (hc : c ≠ c') :
    (s.trySendControl c' gp').controlChan c = s.controlChan c := by
  unfold Plane.trySendControl
  split
  · exact Function.update_of_ne hc ..
  · rfl

/-- Between the two states a client of the pair was told. -/
def Tells (s s' : Plane) (h : Hub) (key : ByteArr 8) : Prop :=
  ∃ c gp, s.Puts s' c gp ∧ isPunch h key (c, gp) = true

variable {src dst : ByteArr 4} {addr : AddrPort} {natType : UInt8}

theorem isPunch_command {payload : Option Bytes} (hvip : (h.client c).virtualIp = some dst) :
    isPunch h (makeKey src dst) (c, newGamePacket src dst typeP2PCommand payload) = true := by
  have htype : clearCompress typeP2PCommand = typeP2PCommand := by decide
  simp [isPunch, htype, newGamePacket, GamePacket.reset, hvip]

theorem isPunch_check {payload : Option Bytes} (hvip : (h.client c).virtualIp = some src) :
    isPunch h (makeKey src dst) (c, newGamePacket dst src typeP2PCheck payload) = true := by
  have htype : clearCompress typeP2PCheck = typeP2PCheck := by decide
  simp [isPunch, htype, newGamePacket, GamePacket.reset, hvip, makeKey_comm dst src]

/-- A command that has room tells. -/
theorem tells_sendCommand
    (hroom : (s.takes h c dst && addr.addr.isIPv4) = true) :
    s.Tells (s.sendCommand c src dst addr natType) h (makeKey src dst) := by
  obtain ⟨htakes, haddr⟩ := Bool.and_eq_true_iff.mp hroom
  obtain ⟨hvip, hlength⟩ := takes_iff.mp htakes
  obtain ⟨payload, hputs⟩ := puts_sendCommand src dst natType hlength haddr
  exact ⟨c, _, hputs, isPunch_command hvip⟩

/-- The messages about a symmetric NAT, a check to the client `c'` behind it and a command to the
other, tell if one of them has room. -/
theorem tells_symmetric
    (hroom : (s.takes h c' src || (s.takes h c dst && addr.addr.isIPv4 && c != c')) = true) :
    s.Tells ((s.trySendControl c' (newGamePacket dst src typeP2PCheck none)).sendCommand c src dst
      addr natType) h (makeKey src dst) := by
  rcases (Bool.or_eq_true _ _).mp hroom with hcheck | hcommand
  · obtain ⟨hvip, hlength⟩ := takes_iff.mp hcheck
    exact ⟨c', _, (puts_trySendControl hlength).sendCommand, isPunch_check hvip⟩
  · simp only [Bool.and_eq_true, bne_iff_ne] at hcommand
    obtain ⟨⟨htakes, haddr⟩, hne⟩ := hcommand
    obtain ⟨hvip, hlength⟩ := takes_iff.mp htakes
    rw [← controlChan_trySendControl_of_ne hne] at hlength
    obtain ⟨payload, hputs⟩ := puts_sendCommand src dst natType hlength haddr
    unfold Puts at hputs
    rw [controlChan_trySendControl_of_ne hne] at hputs
    exact ⟨c, _, hputs, isPunch_command hvip⟩

/-- **A test that has room tells a client of the pair.** -/
theorem tells_commandNext {cmd : Command} {test : Test} (hroom : s.hasRoom h cmd test = true) :
    s.Tells (s.commandNext h cmd test) h cmd.task.pair := by
  have hcomm : makeKey cmd.task.dstVip cmd.task.srcVip = cmd.task.pair := makeKey_comm ..
  cases test with
  | srcSymmetric =>
    obtain ⟨hnat, hmail⟩ := Bool.and_eq_true_iff.mp hroom
    rw [commandNext, if_pos (eq_of_beq hnat)]
    exact tells_symmetric hmail
  | dstSymmetric =>
    obtain ⟨hnat, hmail⟩ := Bool.and_eq_true_iff.mp hroom
    rw [commandNext, if_pos (eq_of_beq hnat), ← hcomm]
    exact tells_symmetric hmail
  | dstCone =>
    obtain ⟨hnat, hmail⟩ := Bool.and_eq_true_iff.mp hroom
    rw [commandNext, if_pos (eq_of_beq hnat), ← hcomm]
    exact tells_sendCommand hmail
  | srcCone =>
    obtain ⟨hnat, hmail⟩ := Bool.and_eq_true_iff.mp hroom
    rw [commandNext, if_pos (eq_of_beq hnat)]
    exact tells_sendCommand hmail

end Plane

/-- A test that is next, with room for a message. -/
def Server.room (s : Server) : Act → Bool
  | .p2p =>
    match s.plane.p2p with
    | .commanding cmd test => s.plane.hasRoom s.hub cmd test
    | .idle | .taken _ | .loaded _ _ | .looked _ _ _ | .found _ _ _ | .loadedSrc _ _ _ _ => false
  | _ => false

/-- The task for which `handleP2PTask` is past the record and in `handleP2PCommand`. -/
def P2P.commands : P2P → Option P2PTask
  | .found task _ _ | .loadedSrc task _ _ _ => some task
  | .commanding cmd _ => some cmd.task
  | .idle | .taken _ | .loaded _ _ | .looked _ _ _ => none

theorem P2P.job_of_commands {p : P2P} {task : P2PTask} (h : p.commands = some task) :
    p.job = some task := by
  cases p with
  | found _ _ _ | loadedSrc _ _ _ _ | commanding _ _ => exact h
  | idle | taken _ | loaded _ _ | looked _ _ _ => cases h

/-- The last test of `handleP2PCommand`. -/
def P2P.isLast : P2P → Bool
  | .commanding _ .srcCone => true
  | _ => false

/-- Both clients of the task are in the snapshot, where that is about to be looked at. -/
def P2P.findsBoth : P2P → Bool
  | .looked task clientMap _ =>
    (clientMap.lookup task.srcVip).isSome && (clientMap.lookup task.dstVip).isSome
  | _ => true

/-- The worker is about to queue a task. -/
def Transfer.isTask : Transfer → Bool
  | .relaying _ .task => true
  | _ => false

/-- The record a worker in `ifEstablish` has looked up. -/
def Transfer.pointer : Transfer → Option (Relay × TunnelId)
  | .relaying r (.status t) | .relaying r (.retries t) | .relaying r (.reopen t) => some (r, t)
  | _ => none

theorem Transfer.pointer_of_decides {t : Transfer} (ht : t.decides = false) : t.pointer = none := by
  unfold decides at ht
  unfold pointer
  split
  · cases ht
  · cases ht
  · cases ht
  · rfl

/-- **The observer.** `commanded`: since the record became initial, a client of its pair was
told. `room`: since `handleP2PTask` is past the record, there was a test that had room. -/
structure PunchLog where
  commanded : TunnelId → Bool
  room : Bool

/-- A record becomes initial: it is new, or it had another status. -/
def entered (tm tm' : TunnelManager) (t : TunnelId) : Bool :=
  (tm'.heap t).status == .init && ((tm.heap t).status != .init || decide (tm.next ≤ t))

/-- What is noted of a step, when `told` are the pairs of which a client was told, and the step is
a test that has `room`. -/
def PunchLog.note (l : PunchLog) (s s' : Punching) (told : ByteArr 8 → Bool) (room : Bool) :
    PunchLog where
  commanded t := !entered s.tm s'.tm t && (l.commanded t || told (s'.tm.pair t))
  room := s.p2p.commands.isSome && (l.room || room)

theorem PunchLog.room_of_none {l : PunchLog} {s s' : Punching} {told : ByteArr 8 → Bool}
    {room : Bool} (h : s.p2p.commands = none) : (l.note s s' told room).room = false := by
  simp only [note, h]
  rfl

theorem PunchLog.room_of_some {l : PunchLog} {s s' : Punching} {told : ByteArr 8 → Bool}
    {room : Bool} {task : P2PTask} (h : s.p2p.commands = some task) :
    (l.note s s' told room).room = (l.room || room) := by
  simp only [note, h]
  rfl

namespace Server

variable (retentionTime : Int) (dnsReply : Hub → Header → Bytes → Option Bytes)

/-- **The server with the log.** -/
def punches : Machine (Server × PunchLog) Act :=
  (machine retentionTime dnsReply).observe ⟨fun _ => false, false⟩ fun l s a s' =>
    l.note s.plane.punching s'.plane.punching (s.told s') (s.room a)

end Server

/-! ## Initial records -/

/-- The record `t` is in the table under `key`, and is initial. -/
def Initial (tm : TunnelManager) (key : ByteArr 8) (t : TunnelId) : Prop :=
  tm.tunnels.lookup key = some t ∧ (tm.heap t).status = .init

namespace Initial

variable {tm : TunnelManager} {key : ByteArr 8} {t i : TunnelId} {x y : ByteArr 4}
  {status : TunnelStatus}

/-- `AddTunnel` has made the record, or it was initial before. -/
theorem of_addTunnel (hs : tm.Sound) (h : Initial (tm.addTunnel x y status) key t) :
    (key = makeKey x y ∧ status = .init) ∨ Initial tm key t := by
  obtain ⟨hent, hinit⟩ := h
  rcases TunnelManager.lookup_addTunnel hent with ⟨hkey, rfl, hnew⟩ | hold
  · rw [hnew, TunnelManager.heap_create] at hinit
    exact Or.inl ⟨hkey, hinit⟩
  · rw [TunnelManager.heap_addTunnel_of_lt (hs.entry hold).1] at hinit
    exact Or.inr ⟨hold, hinit⟩

/-- The record has changed, or it was initial before. -/
theorem of_update {r : P2PTunnel}
    (h : Initial { tm with heap := Function.update tm.heap i r } key t) :
    (t = i ∧ r.status = .init) ∨ Initial tm key t := by
  obtain ⟨hent, hinit⟩ := h
  have hinit' : (Function.update tm.heap i r t).status = .init := hinit
  by_cases hi : t = i
  · subst hi
    rw [Function.update_self] at hinit'
    exact Or.inl ⟨rfl, hinit'⟩
  · rw [Function.update_of_ne hi] at hinit'
    exact Or.inr ⟨hent, hinit'⟩

theorem of_addRetryTimes (h : Initial (tm.addRetryTimes i) key t) : Initial tm key t := by
  rcases of_update h with ⟨rfl, hstatus⟩ | hold
  · exact ⟨h.1, hstatus⟩
  · exact hold

theorem of_removeA (h : Initial (tm.removeA x) key t) : Initial tm key t :=
  ⟨(TunnelManager.lookup_removeA h.1).1, h.2⟩

end Initial

/-! ## Who is responsible -/

namespace Punching

/-- **Somebody is responsible for the record `t` of the pair `key`.** -/
inductive Covered (s : Punching) (l : PunchLog) (key : ByteArr 8) (t : TunnelId) : Prop where
  | queued {task : P2PTask} (htask : task ∈ s.p2pTaskChan) (hpair : task.pair = key)
  | starting {w : Fin 2} {r : Relay} (hw : s.transfer w = .relaying r .task)
      (hpair : r.pair = key)
  | working {task : P2PTask} (hjob : s.p2p.job = some task) (hpair : task.pair = key)
      (hroom : l.room = false)
  | commanded (ht : l.commanded t = true)

/-- The condition: no task is dropped at a full queue, both clients of a task are found, and
at the last test of `handleP2PCommand` there is `room`, or there was. -/
def TaskOk (s : Punching) (l : PunchLog) (room : Bool) : Server.Act → Prop
  | .transfer w => (s.transfer w).isTask = true → s.p2pTaskChan.length < p2pTaskCap
  | .p2p => s.p2p.findsBoth = true ∧ (s.p2p.isLast = true → (l.room || room) = true)
  | _ => True

/-- A test that has room tells a client of the task. -/
def Telling (s : Punching) (told : ByteArr 8 → Bool) (room : Bool) : Prop :=
  room = true → ∀ task, s.p2p.commands = some task → told task.pair = true

variable {h : Hub} {s s' : Punching} {a : Server.Act} {l : PunchLog} {told : ByteArr 8 → Bool}
  {room : Bool} {key : ByteArr 8} {t : TunnelId}

/-- Both clients of a task are found, so the P2P worker does not turn away. -/
theorem TaskOk.not_lost {task : P2PTask} {clientMap : Map (ByteArr 4) ConnId}
    {x : Option TunnelId} (hok : TaskOk s l room .p2p) (hp : s.p2p = .looked task clientMap x)
    (hlost : clientMap.lookup task.srcVip = none ∨ clientMap.lookup task.dstVip = none) :
    False := by
  have hboth : s.p2p.findsBoth = true := hok.1
  rw [hp] at hboth
  obtain ⟨hsrc, hdst⟩ := Bool.and_eq_true_iff.mp hboth
  rcases hlost with hnone | hnone
  · rw [hnone] at hsrc
    cases hsrc
  · rw [hnone] at hdst
    cases hdst

/-! ### The responsibility is handed on -/

/-- A test has room while `handleP2PCommand` works on a task of the pair. -/
theorem Covered.of_room {task : P2PTask} (hcommands : s.p2p.commands = some task)
    (hpair : task.pair = key) (hbefore : l.room = false) (htells : Telling s told room)
    (hroom : (l.room || room) = true) (hkey : s'.tm.pair t = key)
    (hentered : entered s.tm s'.tm t = false) : Covered s' (l.note s s' told room) key t := by
  rw [hbefore, Bool.false_or] at hroom
  have htold : told key = true := hpair ▸ htells hroom task hcommands
  have hnew : (l.note s s' told room).commanded t = (!entered s.tm s'.tm t &&
      (l.commanded t || told (s'.tm.pair t))) := rfl
  rw [hentered, hkey, htold, Bool.or_true] at hnew
  exact .commanded hnew

/-- `handleP2PTask` goes on with a task of the pair: it is still responsible, or a client was
told. -/
theorem Covered.of_job {task : P2PTask} (hjob : s.p2p.job = some task)
    (hjob' : s'.p2p.job = some task) (hpair : task.pair = key) (hbefore : l.room = false)
    (htells : Telling s told room) (hkey : s'.tm.pair t = key)
    (hentered : entered s.tm s'.tm t = false) : Covered s' (l.note s s' told room) key t := by
  cases hc : s.p2p.commands with
  | none => exact .working hjob' hpair (PunchLog.room_of_none hc)
  | some task' =>
    have hsame : task' = task := Option.some.inj ((P2P.job_of_commands hc).symm.trans hjob)
    cases hnew : (l.room || room) with
    | false => exact .working hjob' hpair ((PunchLog.room_of_some hc).trans hnew)
    | true =>
      exact .of_room (hc.trans (congrArg some hsame)) hpair hbefore htells hnew hkey hentered

theorem Covered.of_queued {task : P2PTask} (htask : task ∈ s.p2pTaskChan) (hpair : task.pair = key)
    (hm : Moves h s a s') : Covered s' (l.note s s' told room) key t := by
  cases hm with
  | @take task' rest hp hchan =>
    rw [hchan] at htask
    rcases List.mem_cons.mp htask with rfl | hrest
    · exact .working rfl hpair (PunchLog.room_of_none (by rw [hp]; rfl))
    · exact .queued hrest hpair
  | enqueue => exact .queued (List.mem_append_left _ htask) hpair
  | aside | hub | removeRoute | removeNothing | removeA | pass | absent | present | failed | retry
  | add | reopen | drop | advance | record | lost | finish | wsPass | wsAdd | wsConnect | wsFail
  | wsCount => exact .queued htask hpair

theorem Covered.of_starting {w : Fin 2} {r : Relay} (hw : s.transfer w = .relaying r .task)
    (hpair : r.pair = key) (hok : TaskOk s l room a) (hm : Moves h s a s') :
    Covered s' (l.note s s' told room) key t := by
  -- another worker moves
  have hother : ∀ {w' : Fin 2} {x : Transfer}, w ≠ w' →
      Function.update s.transfer w' x w = .relaying r .task := by
    intro w' x hne
    rw [Function.update_of_ne hne]
    exact hw
  -- a worker that is elsewhere is another one
  have hne : ∀ {w' : Fin 2} {x : Transfer}, s.transfer w' = x → x.isTask = false → w ≠ w' := by
    rintro w' x hx hfalse rfl
    rw [← hx, hw] at hfalse
    cases hfalse
  cases hm with
  | @pass w' x hfrom hto =>
    refine .starting (w := w) (hother (hne rfl ?_)) hpair
    cases hx : s.transfer w' with
    | relaying r' next =>
      rw [hx] at hfrom
      cases next with
      | task => cases hfrom
      | _ => rfl
    | _ => rfl
  | absent hw' _ | present hw' _ | failed hw' | retry hw' | add hw' | reopen hw' =>
    exact .starting (w := w) (hother (hne hw' rfl)) hpair
  | @enqueue w' r' hw' hroom =>
    by_cases hsame : w = w'
    · subst hsame
      rw [hw] at hw'
      cases hw'
      exact .queued (List.mem_append_right _ (List.mem_singleton_self _)) hpair
    · exact .starting (w := w) (hother hsame) hpair
  | @drop w' r' hw' hfull =>
    -- a task is not dropped
    have hroom : (s.transfer w').isTask = true → s.p2pTaskChan.length < p2pTaskCap := hok
    exact absurd (hroom (by rw [hw']; rfl)) (Nat.not_lt.mpr hfull)
  | aside | hub | removeRoute | removeNothing | removeA | take | advance | record | lost | finish
  | wsPass | wsAdd | wsConnect | wsFail | wsCount => exact .starting hw hpair

theorem Covered.of_working {task : P2PTask} (hjob : s.p2p.job = some task)
    (hpair : task.pair = key) (hbefore : l.room = false) (htells : Telling s told room)
    (hok : TaskOk s l room a) (hm : Moves h s a s') (hkey : s'.tm.pair t = key)
    (hentered : entered s.tm s'.tm t = false) : Covered s' (l.note s s' told room) key t := by
  cases hm with
  | take hp _ =>
    rw [hp] at hjob
    cases hjob
  | @advance task' p hp hto =>
    rw [hjob] at hp
    cases hp
    exact .of_job hjob hto hpair hbefore htells hkey hentered
  | @record task' clientMap x src dst hp =>
    have hsame : task' = task := by
      rw [hp] at hjob
      exact Option.some.inj hjob
    exact .of_job hjob (congrArg some hsame) hpair hbefore htells hkey hentered
  | lost hp hlost => exact absurd hlost (TaskOk.not_lost hok hp)
  | @finish cmd hp =>
    have hroom : (l.room || room) = true := hok.2 (by rw [hp]; rfl)
    have hcommands : s.p2p.commands = some task := by
      rw [hp] at hjob ⊢
      exact hjob
    exact .of_room hcommands hpair hbefore htells hroom hkey hentered
  | aside | hub | removeRoute | removeNothing | removeA | pass | absent | present | failed | retry
  | add | reopen | enqueue | drop | wsPass | wsAdd | wsConnect | wsFail | wsCount =>
    exact .of_job hjob hjob hpair hbefore htells hkey hentered

/-- **The steps hand the responsibility on.** -/
theorem covered_of_moves (hc : Covered s l key t) (htells : Telling s told room)
    (hok : TaskOk s l room a) (hm : Moves h s a s') (hkey : s'.tm.pair t = key)
    (hentered : entered s.tm s'.tm t = false) : Covered s' (l.note s s' told room) key t := by
  cases hc with
  | queued htask hpair => exact .of_queued htask hpair hm
  | starting hw hpair => exact .of_starting hw hpair hok hm
  | working hjob hpair hbefore =>
    exact .of_working hjob hpair hbefore htells hok hm hkey hentered
  | commanded ht =>
    refine .commanded ?_
    simp only [PunchLog.note]
    rw [hentered, ht]
    rfl

/-! ### Records that become initial -/

/-- The invariant. -/
structure Progressing (s : Punching) (l : PunchLog) : Prop where
  sound : s.tm.Sound
  pointer : ∀ w r t, (s.transfer w).pointer = some (r, t) → t < s.tm.next ∧ s.tm.pair t = r.pair
  covered : ∀ key t, s.tm.tunnels.lookup key = some t → (s.tm.heap t).status = .init →
    Covered s l key t

/-- A record keeps its pair. -/
theorem pair_of_moves (hm : Moves h s a s') (ht : t < s.tm.next) :
    t < s'.tm.next ∧ s'.tm.pair t = s.tm.pair t := by
  have hadd : ∀ x y status, t < (s.tm.addTunnel x y status).next ∧
      (s.tm.addTunnel x y status).pair t = s.tm.pair t := by
    intro x y status
    refine ⟨Nat.lt_of_lt_of_le ht (s.tm.next_le_addTunnel ..), ?_⟩
    rw [TunnelManager.pair, TunnelManager.heap_addTunnel_of_lt ht]
    rfl
  have hrecord : ∀ task x, t < (recordTask s.tm task x).next ∧
      (recordTask s.tm task x).pair t = s.tm.pair t := by
    intro task x
    cases x with
    | none => exact hadd ..
    | some i => exact ⟨ht, TunnelManager.pair_addRetryTimes ..⟩
  cases hm with
  | aside | hub | removeRoute | removeNothing | removeA | pass | absent | present | failed | retry
  | enqueue | drop | take | advance | finish | wsPass => exact ⟨ht, rfl⟩
  | add | wsAdd => exact hadd ..
  | record | lost => exact hrecord ..
  | reopen | wsConnect | wsFail => exact ⟨ht, TunnelManager.pair_changeStatus ..⟩
  | wsCount => exact ⟨ht, TunnelManager.pair_addRetryTimes ..⟩

theorem pointer_of_moves (hs : s.tm.Sound)
    (hpointer : ∀ w r t, (s.transfer w).pointer = some (r, t) →
      t < s.tm.next ∧ s.tm.pair t = r.pair) (hm : Moves h s a s') (w : Fin 2) (r : Relay)
    (t : TunnelId) (ht : (s'.transfer w).pointer = some (r, t)) :
    t < s'.tm.next ∧ s'.tm.pair t = r.pair := by
  -- a pointer that was there before
  have hold : (s.transfer w).pointer = some (r, t) → t < s'.tm.next ∧ s'.tm.pair t = r.pair := by
    intro hp
    obtain ⟨hlt, hpair⟩ := hpointer w r t hp
    obtain ⟨hlt', hpair'⟩ := pair_of_moves hm hlt
    exact ⟨hlt', hpair'.trans hpair⟩
  -- a worker that has moved has no pointer, or one that it had before
  have hmoved : ∀ {w' : Fin 2} {x : Transfer},
      x.pointer = none ∨ x.pointer = (s.transfer w').pointer →
      (Function.update s.transfer w' x w).pointer = some (r, t) →
      (s.transfer w).pointer = some (r, t) := by
    intro w' x hx hupdate
    by_cases hw : w = w'
    · subst hw
      rw [Function.update_self] at hupdate
      rcases hx with hnone | hsame
      · rw [hnone] at hupdate
        cases hupdate
      · exact hsame ▸ hupdate
    · rw [Function.update_of_ne hw] at hupdate
      exact hupdate
  cases hm with
  | pass _ hto => exact hold (hmoved (Or.inl (Transfer.pointer_of_decides hto)) ht)
  | absent | add | reopen | enqueue | drop => exact hold (hmoved (Or.inl rfl) ht)
  | failed hw => exact hold (hmoved (Or.inr (by rw [hw]; rfl)) ht)
  | retry hw => exact hold (hmoved (Or.inr (by rw [hw]; rfl)) ht)
  | @present w' r' i hw hsome =>
    by_cases hsame : w = w'
    · subst hsame
      have hnew : (Function.update s.transfer w (.relaying r' (.status i)) w).pointer
          = some (r, t) := ht
      rw [Function.update_self] at hnew
      cases hnew
      exact hs.entry hsome
    · have hnew : (Function.update s.transfer w' (.relaying r' (.status i)) w).pointer
          = some (r, t) := ht
      rw [Function.update_of_ne hsame] at hnew
      exact hold hnew
  | aside | hub | removeRoute | removeNothing | removeA | take | advance | record | lost | finish
  | wsPass | wsAdd | wsConnect | wsFail | wsCount => exact hold ht

/-- An initial record was initial before, or somebody has just become responsible for it. -/
theorem initial_of_moves (hP : Progressing s l) (hok : TaskOk s l room a) (hm : Moves h s a s')
    (hi : Initial s'.tm key t) :
    Initial s.tm key t ∨ Covered s' (l.note s s' told room) key t := by
  cases hm with
  | aside | hub | removeRoute | removeNothing | pass | absent | present | failed | retry | enqueue
  | drop | take | advance | finish | wsPass => exact Or.inl hi
  | removeA hc => exact Or.inl hi.of_removeA
  | @add w r hw =>
    rcases hi.of_addTunnel hP.sound with ⟨hkey, -⟩ | hold
    · -- the worker goes on to the task
      exact Or.inr (.starting (w := w) (Function.update_self ..) hkey.symm)
    · exact Or.inl hold
  | @reopen w r i hw =>
    rcases hi.of_update with ⟨rfl, -⟩ | hold
    · have hpair : s.tm.pair t = r.pair := (hP.pointer w r t (by rw [hw]; rfl)).2
      have hkey : s.tm.pair t = key := (hP.sound.entry hi.1).2
      exact Or.inr (.starting (w := w) (Function.update_self ..) (hpair.symm.trans hkey))
    · exact Or.inl hold
  | @record task clientMap x src dst hp =>
    cases x with
    | none =>
      rcases Initial.of_addTunnel hP.sound hi with ⟨hkey, -⟩ | hold
      · -- the record was gone, and the P2P worker has made a new one
        exact Or.inr (.working rfl hkey.symm (PunchLog.room_of_none (by rw [hp]; rfl)))
      · exact Or.inl hold
    | some i => exact Or.inl (Initial.of_addRetryTimes hi)
  | lost hp hlost => exact absurd hlost (TaskOk.not_lost hok hp)
  | wsAdd hws =>
    rcases hi.of_addTunnel hP.sound with ⟨-, hstatus⟩ | hold
    · cases hstatus
    · exact Or.inl hold
  | wsConnect hws | wsFail hws =>
    rcases hi.of_update with ⟨-, hstatus⟩ | hold
    · cases hstatus
    · exact Or.inl hold
  | wsCount hws => exact Or.inl hi.of_addRetryTimes

theorem progressing_step (hP : Progressing s l) (htells : Telling s told room)
    (hok : TaskOk s l room a) (hm : Moves h s a s') : Progressing s' (l.note s s' told room) where
  sound := sound_of_moves hP.sound hm
  pointer := pointer_of_moves hP.sound hP.pointer hm
  covered key t hent hinit := by
    rcases initial_of_moves hP hok hm ⟨hent, hinit⟩ with ⟨hold, hinit'⟩ | hnew
    · obtain ⟨hlt, hpair⟩ := hP.sound.entry hold
      have hentered : entered s.tm s'.tm t = false := by
        simp [entered, hinit', Nat.not_le.mpr hlt]
      have hkey : s'.tm.pair t = key := (pair_of_moves hm hlt).2.trans hpair
      exact covered_of_moves (hP.covered key t hold hinit') htells hok hm hkey hentered
    · exact hnew

end Punching

/-! ## Runs -/

namespace Server

variable {retentionTime : Int} {dnsReply : Hub → Header → Bytes → Option Bytes}
  {p : Server × PunchLog}

/-- The condition on a step, by the state before it: no task is dropped at a full queue, both
clients of a task are found, and at the last test of `handleP2PCommand` one of the tests has
room for a message, or had it when it was made. -/
def PunchOk (p : Server × PunchLog) : Act → Prop
  | .transfer w =>
    (p.1.plane.transfer w).isTask = true → p.1.plane.p2pTaskChan.length < p2pTaskCap
  | .p2p =>
    p.1.plane.p2p.findsBoth = true ∧
      (p.1.plane.p2p.isLast = true → (p.2.room || p.1.room .p2p) = true)
  | _ => True

instance (p : Server × PunchLog) : (a : Act) → Decidable (PunchOk p a)
  | .transfer w => inferInstanceAs (Decidable
      ((p.1.plane.transfer w).isTask = true → p.1.plane.p2pTaskChan.length < p2pTaskCap))
  | .p2p => inferInstanceAs (Decidable (_ ∧ (_ → _)))
  | .hub _ | .removeA | .udp _ _ | .check _ _ | .checkNext | .ws _ _ | .wsNext _ | .wsDone _
  | .ping _ | .writePump _ | .writeUdp => inferInstanceAs (Decidable True)

theorem taskOk_of_punchOk {a : Act} (hok : PunchOk p a) :
    Punching.TaskOk p.1.plane.punching p.2 (p.1.room a) a := by
  cases a with
  | p2p | transfer w => exact hok
  | hub _ | removeA | udp _ _ | check _ _ | checkNext | ws _ _ | wsNext _ | wsDone _ | ping _
  | writePump _ | writeUdp => trivial

/-- A message for a client of the pair is found. -/
theorem told_of_tells {s s' : Server} {key : ByteArr 8} (hfresh : s.hub.Fresh)
    (hnext : s.hub.next ≤ s'.hub.next) (h : s.plane.Tells s'.plane s.hub key) :
    s.told s' key = true := by
  obtain ⟨c, gp, hputs, hpunch⟩ := h
  have hvip : (s.hub.client c).virtualIp = some gp.dst :=
    eq_of_beq (Bool.and_eq_true_iff.mp hpunch).2
  have hc : c < s.hub.next := hfresh.lt fun habs => by
    have hnone : (s.hub.client c).virtualIp = none := by
      unfold Hub.client
      rw [habs]
      rfl
    rw [hnone] at hvip
    cases hvip
  refine List.any_eq_true.mpr ⟨(c, gp), List.mem_flatMap.mpr ⟨c, ?_, ?_⟩, hpunch⟩
  · exact List.mem_range.mpr (Nat.lt_of_lt_of_le hc hnext)
  · exact List.mem_map.mpr ⟨gp, hputs, rfl⟩

/-- **A test of `handleP2PCommand` that has room tells a client of its task.** -/
theorem told_of_room {s s' : Server} {a : Act} (hfresh : s.hub.Fresh)
    (hs : step retentionTime dnsReply s a = some s') :
    s.plane.punching.Telling (s.told s') (s.room a) := by
  intro hroom task htask
  have hcommands : s.plane.p2p.commands = some task := htask
  cases a with
  | p2p =>
    cases hp : s.plane.p2p with
    | commanding cmd test =>
      rw [hp] at hcommands
      cases hcommands
      simp only [room, hp] at hroom
      refine told_of_tells hfresh (next_le_of_step hs) ?_
      cases (does_of_step hs).2 with
      | plane hplane =>
        simp only [planeStep, Plane.p2pNext, hp] at hplane
        cases hplane
        exact Plane.tells_commandNext hroom
    | idle | taken _ | loaded _ _ | looked _ _ _ | found _ _ _ | loadedSrc _ _ _ _ =>
      simp only [room, hp] at hroom
      cases hroom
  | transfer w | hub _ | removeA | udp _ _ | check _ _ | checkNext | ws _ _ | wsNext _ | wsDone _
  | ping _ | writePump _ | writeUdp => cases hroom

/-- **No tunnel is stuck**, in every run in which no task is dropped at a full queue, the P2P
worker finds both clients of each task, and one of the tests that apply to their NAT types finds
room in the channel of a client: where no handler is half-way, a tunnel that is being established
has its task in the queue, or one of its clients was told since it began. -/
theorem init_tunnels_covered (hr : (punches retentionTime dnsReply).ReachVia PunchOk p)
    (hquiet : p.1.Quiet) (key : ByteArr 8) (t : TunnelId)
    (hent : p.1.plane.tm.tunnels.lookup key = some t)
    (hinit : (p.1.plane.tm.heap t).status = .init) :
    (∃ task ∈ p.1.plane.p2pTaskChan, task.pair = key) ∨ p.2.commanded t = true := by
  have hP : Punching.Progressing p.1.plane.punching p.2 := by
    refine hr.invariant (P := fun p => Punching.Progressing p.1.plane.punching p.2)
      ⟨.new, nofun, nofun⟩ fun {p q a} hrun hP hok hs => ?_
    obtain ⟨hstep, hnote⟩ := Machine.step_of_observe hs
    have hreach : (machine retentionTime dnsReply).Reach p.1 :=
      hrun.unobserved fun _ _ _ => trivial
    have hfresh : p.1.hub.Fresh := Hub.fresh (hub_reach hreach)
    rw [hnote]
    exact Punching.progressing_step hP (told_of_room hfresh hstep) (taskOk_of_punchOk hok)
      (moves_of_step hstep)
  obtain ⟨htransfer, hp2p, -⟩ := hquiet
  cases hP.covered key t hent hinit with
  | queued htask hpair => exact Or.inl ⟨_, htask, hpair⟩
  | @starting w r hw hpair =>
    have hidle := htransfer w
    have hw' : p.1.plane.transfer w = .relaying r .task := hw
    rw [hw'] at hidle
    cases hidle
  | @working task hjob hpair _ =>
    have hjob' : p.1.plane.p2p.job = some task := hjob
    cases hp : p.1.plane.p2p with
    | idle =>
      rw [hp] at hjob'
      cases hjob'
    | taken _ | loaded _ _ | looked _ _ _ | found _ _ _ | loadedSrc _ _ _ _ | commanding _ _ =>
      rw [hp] at hp2p
      cases hp2p
  | commanded ht => exact Or.inr ht

/-- The clients of a tunnel that is being established were told. -/
theorem init_tunnels_covered_one :
    ∃ p, (punches 300 fun _ _ _ => none).ReachVia PunchOk p ∧ p.1.Quiet ∧
      p.1.plane.tm.exist (Hub.hostIp 2) (Hub.hostIp 3) = some 0 ∧
      (p.1.plane.tm.heap 0).status = .init ∧
      ((∃ task ∈ p.1.plane.p2pTaskChan, task.pair = makeKey (Hub.hostIp 2) (Hub.hostIp 3)) ∨
        p.2.commanded 0 = true) := by
  obtain ⟨p, hr, hquiet, hent, hinit⟩ : ∃ p, (punches 300 fun _ _ _ => none).ReachVia PunchOk p ∧
      (p.1.Quiet ∧ p.1.plane.tm.exist (Hub.hostIp 2) (Hub.hostIp 3) = some 0 ∧
        (p.1.plane.tm.heap 0).status = .init) :=
    Machine.exists_reachVia (connectTwo ++ .udp (endpoint 2) pingPacket :: punch 10)
      (by decide +kernel)
  exact ⟨p, hr, hquiet, hent, hinit, init_tunnels_covered hr hquiet _ _ hent hinit⟩

/-- **A tunnel that is stuck.** Pings of both clients have filled their channels when the
P2P worker handles the task. Nobody is told, and the next packet of the pair finds the
tunnel as if it were being established. -/
theorem stuck_in_init :
    ∃ p, (punches 300 fun _ _ _ => none).Reach p ∧ p.1.Quiet ∧
      p.1.plane.tm.exist (Hub.hostIp 2) (Hub.hostIp 3) = some 0 ∧
      (p.1.plane.tm.heap 0).status = .init ∧ p.1.plane.p2pTaskChan.length = 0 ∧
      p.2.commanded 0 = false :=
  Machine.exists_reach
    (connectTwo ++ List.replicate 15 (.ping 0) ++ List.replicate 15 (.ping 1) ++
      .udp (endpoint 2) pingPacket :: punch 10 ++ relay 0 8)
    (by decide +kernel)

end Server

end EasyTun.Transport
