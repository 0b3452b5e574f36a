import Mathlib.Tactic.Common
import EasyTun.Lib.Chan
import EasyTun.Lib.Machine
import EasyTun.Protocol.Noise
import EasyTun.Protocol.Packet

/-!
# The goroutines of a client session

What runs between two connections to the server is a group of goroutines under one context
(client.go:193–219). Each is modelled by its program counter, and a step of it is one
operation (`Op`) on what the goroutines share: the context, the two connections and the two
channels that somebody waits for. What the packets contain does not matter here; what the
network and the clock bring in is left open. A crash of the program is not modelled.

- `Routine`: a goroutine, with **a rank that its own steps lower** once the context is
  cancelled (`rank_lt`).
- `load_le`: only the workers of `packetSend` take packets from `FromTun`; the steps of the
  others do not lessen what has to go through it.
- `returned_of_waits`, `blocked_of_waits`: **what a goroutine waits for when it waits** after
  the context is cancelled and the connections are closed.
-/

namespace EasyTun.Transport.Session

open EasyTun.Lib EasyTun.Protocol

/-! ## What the goroutines share -/

/-- The context, the two connections, and the two channels that somebody waits for
(client.go:80–83). -/
structure Shared where
  cancelled : Bool
  wsClosed : Bool
  udpClosed : Bool
  fromTun : Chan Bytes 256
  controlSendChan : Chan GamePacket 16

/-- An operation of a goroutine, and where the goroutine is after it. -/
inductive Op (π : Type) where
  /-- Nothing shared is used. -/
  | skip (k : π)
  /-- The context is done. -/
  | done (k : π)
  /-- It is not. -/
  | running (k : π)
  /-- An error is returned, and the group cancels the context. -/
  | fail (k : π)
  /-- `<-FromTun`. -/
  | takeTun (k : Bytes → π)
  /-- `FromTun <- p`. -/
  | putTun (p : Bytes) (k : π)
  /-- `FromTun` is empty. -/
  | noTun (k : π)
  /-- `<-ControlSendChan`. -/
  | takeControl (k : GamePacket → π)
  /-- `ControlSendChan <- gp`. -/
  | putControl (gp : GamePacket) (k : π)
  /-- A send that does not wait. -/
  | tryControl (gp : GamePacket) (k : π)
  /-- The control connection turns out to be closed. -/
  | wsClosed (k : π)
  /-- The data connection turns out to be closed. -/
  | udpClosed (k : π)
  | closeWs (k : π)
  | closeBoth (k : π)

variable {π β : Type}

/-- The operation; `none` while it has to wait. -/
def perform (s : Shared) : Op π → Option (Shared × π)
  | .skip k => some (s, k)
  | .done k => guardTo (s.cancelled = true) (s, k)
  | .running k => guardTo (s.cancelled = false) (s, k)
  | .fail k => some ({ s with cancelled := true }, k)
  | .takeTun k => s.fromTun.recv.map fun r => ({ s with fromTun := r.2 }, k r.1)
  | .putTun p k => (s.fromTun.send p).map fun c => ({ s with fromTun := c }, k)
  | .noTun k => guardTo (s.fromTun.len = 0) (s, k)
  | .takeControl k =>
    s.controlSendChan.recv.map fun r => ({ s with controlSendChan := r.2 }, k r.1)
  | .putControl gp k =>
    (s.controlSendChan.send gp).map fun c => ({ s with controlSendChan := c }, k)
  | .tryControl gp k => some ({ s with controlSendChan := s.controlSendChan.trySend gp }, k)
  | .wsClosed k => guardTo (s.wsClosed = true) (s, k)
  | .udpClosed k => guardTo (s.udpClosed = true) (s, k)
  | .closeWs k => some ({ s with wsClosed := true }, k)
  | .closeBoth k => some ({ s with wsClosed := true, udpClosed := true }, k)

section Waiting

variable {s : Shared} {k : π}

/-- Who waits for the context waits because it is not cancelled. -/
theorem done_waits (h : perform s (.done k) = none) : s.cancelled = false := by
  simpa [perform, guardTo] using h

theorem wsClosed_waits (h : perform s (.wsClosed k) = none) : s.wsClosed = false := by
  simpa [perform, guardTo] using h

theorem udpClosed_waits (h : perform s (.udpClosed k) = none) : s.udpClosed = false := by
  simpa [perform, guardTo] using h

/-- Who waits for room waits because the channel is full. -/
theorem putTun_waits {p : Bytes} (h : perform s (.putTun p k) = none) :
    s.fromTun.len = 256 :=
  Chan.send_eq_none.mp (Option.map_eq_none_iff.mp h)

/-- Who waits for a packet waits because there is none. -/
theorem takeTun_waits {k : Bytes → π} (h : perform s (.takeTun k) = none) :
    s.fromTun.len = 0 :=
  Chan.recv_eq_none.mp (Option.map_eq_none_iff.mp h)

theorem noTun_waits (h : perform s (.noTun k) = none) : s.fromTun.len ≠ 0 := by
  simpa [perform, guardTo] using h

end Waiting

/-! ### Ranks -/

/-- A queued packet is worth the steps it causes. -/
def Shared.rank (s : Shared) : Nat := 12 * s.fromTun.len + 3 * s.controlSendChan.len

/-- The operation lowers the rank of the goroutine from `r`, by more than it adds to the
channels. -/
def Op.Lowers (rank : π → Nat) (r : Nat) : Op π → Prop
  | .running _ => True
  | .takeTun k => ∀ p, rank (k p) < r + 12
  | .putTun _ k => rank k + 12 < r
  | .takeControl k => ∀ gp, rank (k gp) < r + 3
  | .putControl _ k | .tryControl _ k => rank k + 3 < r
  | .skip k | .done k | .fail k | .noTun k | .wsClosed k | .udpClosed k | .closeWs k
  | .closeBoth k => rank k < r

/-- The operation takes nothing from `FromTun`, and what the goroutine has to put there is
`n` at least until it has put it. -/
def Op.Feeds (pushes : π → Nat) (n : Nat) : Op π → Prop
  | .takeTun _ => False
  | .takeControl k => ∀ gp, n ≤ pushes (k gp)
  | .putTun _ k => n ≤ pushes k + 1
  | .running k | .putControl _ k | .tryControl _ k | .skip k | .done k | .fail k | .noTun k
  | .wsClosed k | .udpClosed k | .closeWs k | .closeBoth k => n ≤ pushes k

/-- A cancelled context stays cancelled, and a closed connection closed. -/
theorem flags_perform {s s' : Shared} {op : Op π} {k : π} (h : perform s op = some (s', k)) :
    (s.cancelled = true → s'.cancelled = true) ∧ (s.wsClosed = true → s'.wsClosed = true) ∧
      (s.udpClosed = true → s'.udpClosed = true) := by
  cases op <;>
    simp only [perform, guardTo_eq_some, Option.some.injEq, Option.map_eq_some_iff,
      Prod.mk.injEq] at h <;> grind

/-- **A step lowers the rank**, once the context is cancelled. -/
theorem rank_lt {s s' : Shared} {op : Op π} {k : π} {rank : π → Nat} {r : Nat}
    (hc : s.cancelled = true) (hlow : op.Lowers rank r) (h : perform s op = some (s', k)) :
    s'.rank + rank k < s.rank + r := by
  unfold Shared.rank
  cases op with
  | skip k' | fail k' | closeWs k' | closeBoth k' =>
    cases h
    exact Nat.add_lt_add_left hlow _
  | done k' | noTun k' | wsClosed k' | udpClosed k' =>
    obtain ⟨-, heq⟩ := guardTo_eq_some.mp h
    cases heq
    exact Nat.add_lt_add_left hlow _
  | running k' =>
    obtain ⟨hrun, -⟩ := guardTo_eq_some.mp h
    rw [hc] at hrun
    cases hrun
  | takeTun k' =>
    obtain ⟨⟨q, c⟩, hrecv, heq⟩ := Option.map_eq_some_iff.mp h
    cases heq
    have hlen := Chan.len_recv hrecv
    have hlow := hlow q
    simp only
    omega
  | putTun q k' =>
    obtain ⟨c, hsend, heq⟩ := Option.map_eq_some_iff.mp h
    cases heq
    have hlen := Chan.len_send hsend
    have hlow : rank k + 12 < r := hlow
    simp only
    omega
  | takeControl k' =>
    obtain ⟨⟨gp, c⟩, hrecv, heq⟩ := Option.map_eq_some_iff.mp h
    cases heq
    have hlen := Chan.len_recv hrecv
    have hlow := hlow gp
    simp only
    omega
  | putControl gp k' =>
    obtain ⟨c, hsend, heq⟩ := Option.map_eq_some_iff.mp h
    cases heq
    have hlen := Chan.len_send hsend
    have hlow : rank k + 3 < r := hlow
    simp only
    omega
  | tryControl gp k' =>
    cases h
    have hlen := s.controlSendChan.len_trySend_le gp
    have hlow : rank k + 3 < r := hlow
    simp only
    omega

/-- **What has to go through `FromTun` does not get less**, as long as nobody takes from it. -/
theorem load_le {s s' : Shared} {op : Op π} {k : π} {pushes : π → Nat} {n : Nat}
    (hfeeds : op.Feeds pushes n) (h : perform s op = some (s', k)) :
    s.fromTun.len + n ≤ s'.fromTun.len + pushes k := by
  cases op with
  | takeTun k' => exact hfeeds.elim
  | skip k' | fail k' | closeWs k' | closeBoth k' | tryControl gp k' =>
    cases h
    exact Nat.add_le_add_left hfeeds _
  | done k' | running k' | noTun k' | wsClosed k' | udpClosed k' =>
    obtain ⟨-, heq⟩ := guardTo_eq_some.mp h
    cases heq
    exact Nat.add_le_add_left hfeeds _
  | takeControl k' =>
    obtain ⟨⟨gp, c⟩, -, heq⟩ := Option.map_eq_some_iff.mp h
    cases heq
    exact Nat.add_le_add_left (hfeeds gp) _
  | putControl gp k' =>
    obtain ⟨c, -, heq⟩ := Option.map_eq_some_iff.mp h
    cases heq
    exact Nat.add_le_add_left hfeeds _
  | putTun q k' =>
    obtain ⟨c, hsend, heq⟩ := Option.map_eq_some_iff.mp h
    cases heq
    have hlen := Chan.len_send hsend
    have hfeeds : n ≤ pushes k + 1 := hfeeds
    simp only
    omega

/-! ### Goroutines -/

/-- A goroutine. Some of its steps are due to the network or the clock (`input`), and the
others lower its rank, which is zero at the end only. The steps it makes without waiting for an
answer of the network are `owed`. -/
structure Routine (π β : Type) where
  next : π → β → Option (Op π)
  returned : π
  input : β → Bool
  owed : β → Bool
  rank : π → Nat
  ends : ∀ a, next returned a = none
  lowers : ∀ {p a op}, next p a = some op → input a = false → op.Lowers rank (rank p)
  eq_returned : ∀ {p}, rank p = 0 → p = returned

/-- A step of a goroutine. -/
def Routine.advance (r : Routine π β) (s : Shared) (p : π) (a : β) : Option (Shared × π) :=
  (r.next p a).bind (perform s)

/-- A step is an operation that can be performed. -/
theorem Routine.advance_eq_some {r : Routine π β} {s s' : Shared} {p p' : π} {a : β} :
    r.advance s p a = some (s', p') ↔ ∃ op, r.next p a = some op ∧ perform s op = some (s', p') :=
  Option.bind_eq_some_iff

/-- The goroutine waits, or has returned. -/
def Routine.Waits (r : Routine π β) (s : Shared) (p : π) : Prop :=
  ∀ a, r.owed a = true → r.advance s p a = none

/-- The operation of a goroutine that waits cannot be performed. -/
theorem Routine.Waits.perform_eq_none {r : Routine π β} {s : Shared} {p : π} (h : r.Waits s p)
    (a : β) (ha : r.owed a = true) {op : Op π} (hop : r.next p a = some op) :
    perform s op = none := by
  have hnone := h a ha
  unfold Routine.advance at hnone
  rwa [hop] at hnone

/-- The context is cancelled and the connections are closed. -/
structure Shared.Shut (s : Shared) : Prop where
  cancelled : s.cancelled = true
  wsClosed : s.wsClosed = true
  udpClosed : s.udpClosed = true

section Shut

variable {r : Routine π β} {s : Shared} {p k : π}

/-- A goroutine with a case for the context does not wait. -/
theorem Routine.Waits.not_done (h : r.Waits s p) (hc : s.cancelled = true) (a : β)
    (ha : r.owed a = true) : r.next p a ≠ some (.done k) := by
  intro hop
  have hf := done_waits (h.perform_eq_none a ha hop)
  rw [hc] at hf
  cases hf

/-- Once the connections are closed, nobody waits for the control connection. -/
theorem Routine.Waits.not_wsClosed (h : r.Waits s p) (hs : s.Shut) (a : β)
    (ha : r.owed a = true) : r.next p a ≠ some (.wsClosed k) := by
  intro hop
  have hf := wsClosed_waits (h.perform_eq_none a ha hop)
  rw [hs.wsClosed] at hf
  cases hf

/-- Once the connections are closed, nobody waits for the data connection. -/
theorem Routine.Waits.not_udpClosed (h : r.Waits s p) (hs : s.Shut) (a : β)
    (ha : r.owed a = true) : r.next p a ≠ some (.udpClosed k) := by
  intro hop
  have hf := udpClosed_waits (h.perform_eq_none a ha hop)
  rw [hs.udpClosed] at hf
  cases hf

end Shut

/-! ## The goroutines -/

/-! ### `controlRecv` (client_control.go:93–148) -/

/-- Where it is: at the head of its loop, in `NextReader`, or on its way out. -/
inductive ControlRecv where
  | loop
  | reading
  /-- The deferred `Close` is next. -/
  | closing (err : Bool)
  | leaving (err : Bool)
  | returned

namespace ControlRecv

/-- What it does next. -/
inductive Act where
  | exit
  | enter
  /-- A message was read and handled, which does not wait for anything. -/
  | message
  /-- `NextReader` fails, after `ReadTimeout` at the latest. -/
  | fail
  | closed
  | close
  | leave

/-- The loop. The deferred `Close` runs on every way out (client_control.go:94). -/
def next : ControlRecv → Act → Option (Op ControlRecv)
  | .loop, .exit => some (.done (.closing false))
  | .loop, .enter => some (.running .reading)
  | .reading, .message => some (.skip .loop)
  | .reading, .fail => some (.skip (.closing true))
  | .reading, .closed => some (.wsClosed (.closing true))
  | .closing err, .close => some (.closeWs (.leaving err))
  | .leaving true, .leave => some (.fail .returned)
  | .leaving false, .leave => some (.skip .returned)
  | _, _ => none

/-- What is due to the network or the clock. -/
def input : Act → Bool
  | .message => true
  | _ => false

/-- A message or an error of the network may come or not. -/
def owed : Act → Bool
  | .message | .fail => false
  | _ => true

/-- How many steps it has left, once the context is cancelled. -/
def rank : ControlRecv → Nat
  | .returned => 0
  | .leaving _ => 1
  | .closing _ => 2
  | .loop => 3
  | .reading => 4

theorem lowers {p : ControlRecv} {a : Act} {op : Op ControlRecv} (h : next p a = some op)
    (ha : input a = false) : op.Lowers rank (rank p) := by
  unfold next at h
  split at h <;> cases h <;> simp_all [Op.Lowers, rank, input]

theorem feeds {p : ControlRecv} {a : Act} {op : Op ControlRecv} (h : next p a = some op) :
    op.Feeds (fun _ => 0) 0 := by
  unfold next at h
  split at h <;> cases h <;> exact Nat.le_refl 0

end ControlRecv

/-- `controlRecv`, as a routine. -/
def controlRecv : Routine ControlRecv ControlRecv.Act where
  next := ControlRecv.next
  returned := .returned
  input := ControlRecv.input
  owed := ControlRecv.owed
  rank := ControlRecv.rank
  ends a := by cases a <;> rfl
  lowers := ControlRecv.lowers
  eq_returned {p} h := by cases p <;> simp_all [ControlRecv.rank]

/-- `controlRecv` does not wait after the connections are closed. -/
theorem ControlRecv.returned_of_waits {s : Shared} {p : ControlRecv} (hs : s.Shut)
    (h : controlRecv.Waits s p) : p = .returned := by
  cases p with
  | loop => exact absurd rfl (h.not_done hs.cancelled .exit rfl)
  | reading => exact absurd rfl (h.not_wsClosed hs .closed rfl)
  | closing err => cases h .close rfl
  | leaving err => cases err <;> cases h .leave rfl
  | returned => rfl

/-! ### `controlSend` (client_control.go:151–172) -/

/-- Where it is: in its `select`, in a write, or on its way out with an error. -/
inductive ControlSend where
  | select
  /-- It is in `WriteMessage`. -/
  | writing (gp : GamePacket)
  | failing
  | returned

namespace ControlSend

/-- What it does next. A write ends on its own or fails. -/
inductive Act where
  | take
  | exit
  | wrote
  | fail
  | closed
  | leave

/-- The loop. A write to a connection that is closed fails. -/
def next : ControlSend → Act → Option (Op ControlSend)
  | .select, .take => some (.takeControl .writing)
  | .select, .exit => some (.done .returned)
  | .writing _, .wrote => some (.skip .select)
  | .writing _, .fail => some (.skip .failing)
  | .writing _, .closed => some (.wsClosed .failing)
  | .failing, .leave => some (.fail .returned)
  | _, _ => none

/-- A write may take as long as it likes, or fail. -/
def owed : Act → Bool
  | .wrote | .fail => false
  | _ => true

/-- How many steps it has left. A packet it takes is worth three. -/
def rank : ControlSend → Nat
  | .returned => 0
  | .failing => 1
  | .select => 2
  | .writing _ => 4

theorem lowers {p : ControlSend} {a : Act} {op : Op ControlSend} (h : next p a = some op) :
    op.Lowers rank (rank p) := by
  unfold next at h
  split at h <;> cases h <;> simp [Op.Lowers, rank]

theorem feeds {p : ControlSend} {a : Act} {op : Op ControlSend} (h : next p a = some op) :
    op.Feeds (fun _ => 0) 0 := by
  unfold next at h
  split at h <;> cases h <;> simp [Op.Feeds]

end ControlSend

/-- `controlSend`, as a routine. -/
def controlSend : Routine ControlSend ControlSend.Act where
  next := ControlSend.next
  returned := .returned
  input _ := false
  owed := ControlSend.owed
  rank := ControlSend.rank
  ends a := by cases a <;> rfl
  lowers h _ := ControlSend.lowers h
  eq_returned {p} h := by cases p <;> simp_all [ControlSend.rank]

/-- `controlSend` does not wait after the connections are closed. -/
theorem ControlSend.returned_of_waits {s : Shared} {p : ControlSend} (hs : s.Shut)
    (h : controlSend.Waits s p) : p = .returned := by
  cases p with
  | select => exact absurd rfl (h.not_done hs.cancelled .exit rfl)
  | writing gp => exact absurd rfl (h.not_wsClosed hs .closed rfl)
  | failing => cases h .leave rfl
  | returned => rfl

/-! ### `heartbeat` (client_control.go:68–90) -/

/-- Where it is. After a ping is queued it sends another one as a datagram. -/
inductive Heartbeat where
  | select
  /-- It has a ping for `ControlSendChan`. -/
  | offering
  | writing
  | failing
  | returned

namespace Heartbeat

/-- What it does next. The ticker is the clock. -/
inductive Act where
  | tick
  | exit
  | offer
  | wrote
  | fail
  | leave

/-- The loop. Both `select`s have a case for the context. -/
def next (localIp : ByteArr 4) : Heartbeat → Act → Option (Op Heartbeat)
  | .select, .tick => some (.skip .offering)
  | .select, .exit => some (.done .returned)
  | .offering, .offer =>
    some (.putControl (newGamePacket localIp (.zero 4) typePing none) .writing)
  | .offering, .exit => some (.done .returned)
  | .writing, .wrote => some (.skip .select)
  | .writing, .fail => some (.skip .failing)
  | .failing, .leave => some (.fail .returned)
  | _, _ => none

/-- What is due to the network or the clock. -/
def input : Act → Bool
  | .tick => true
  | _ => false

/-- The ticker may tick or not, and the write fail or not. -/
def owed : Act → Bool
  | .tick | .fail => false
  | _ => true

/-- How many steps it has left, with three for the packet it queues. -/
def rank : Heartbeat → Nat
  | .returned => 0
  | .failing => 1
  | .select => 2
  | .writing => 3
  | .offering => 7

theorem lowers {localIp : ByteArr 4} {p : Heartbeat} {a : Act} {op : Op Heartbeat}
    (h : next localIp p a = some op) (ha : input a = false) : op.Lowers rank (rank p) := by
  unfold next at h
  split at h <;> cases h <;> simp_all [Op.Lowers, rank, input]

theorem feeds {localIp : ByteArr 4} {p : Heartbeat} {a : Act} {op : Op Heartbeat}
    (h : next localIp p a = some op) : op.Feeds (fun _ => 0) 0 := by
  unfold next at h
  split at h <;> cases h <;> simp [Op.Feeds]

end Heartbeat

/-- `heartbeat`, as a routine. -/
def heartbeat (localIp : ByteArr 4) : Routine Heartbeat Heartbeat.Act where
  next := Heartbeat.next localIp
  returned := .returned
  input := Heartbeat.input
  owed := Heartbeat.owed
  rank := Heartbeat.rank
  ends a := by cases a <;> rfl
  lowers := Heartbeat.lowers
  eq_returned {p} h := by cases p <;> simp_all [Heartbeat.rank]

/-- `heartbeat` does not wait after the context is cancelled. -/
theorem Heartbeat.returned_of_waits {localIp : ByteArr 4} {s : Shared} {p : Heartbeat}
    (hs : s.Shut) (h : (heartbeat localIp).Waits s p) : p = .returned := by
  cases p with
  | select => exact absurd rfl (h.not_done hs.cancelled .exit rfl)
  | offering => exact absurd rfl (h.not_done hs.cancelled .exit rfl)
  | writing => cases h .wrote rfl
  | failing => cases h .leave rfl
  | returned => rfl

/-! ### `packetRecv` (client_udp.go:114–226) -/

/-- Where a worker is: at the head of its loop, in `ReadFromUDP`, or in
`HandleNoisePacket`. -/
inductive PacketRecv where
  | loop
  | reading
  /-- `HandleNoisePacket` waits for the lock of a session (noise.go:168). -/
  | locking (sid : SessionId)
  /-- It has completed the handshake of the session, whose lock it holds, and is in
  `SendAllPendingData` with these packets (noise.go:76–80, 192). -/
  | draining (sid : SessionId) (rest : List Bytes)
  | failing
  | returned

namespace PacketRecv

/-- What a datagram leads to. -/
inductive Datagram where
  /-- It is dropped, answered, forwarded, or a ping. -/
  | handled
  /-- It is a pong, and the server is told, unless the queue is full. -/
  | pong (gp : GamePacket)
  /-- A `select` found the context done. -/
  | done
  /-- It belongs to a session that is not ready. -/
  | waits (sid : SessionId)

/-- What it leads to under the lock. -/
inductive Locked where
  | handled
  /-- The session is ready by now, the datagram is decrypted, and the `select` finds the
  context done. -/
  | done
  /-- It completes the handshake. -/
  | completes (pending : List Bytes)

/-- What it does next. -/
inductive Act where
  | exit
  | enter
  | timeout
  | datagram (d : Datagram)
  | fail
  | closed
  | lock (l : Locked)
  | drain
  | leave

/-- The loop. Only the sends of `SendAllPendingData` wait for other goroutines. -/
def next : PacketRecv → Act → Option (Op PacketRecv)
  | .loop, .exit => some (.done .returned)
  | .loop, .enter => some (.running .reading)
  | .reading, .timeout => some (.skip .loop)
  | .reading, .datagram .handled => some (.skip .loop)
  | .reading, .datagram (.pong gp) => some (.tryControl gp .loop)
  | .reading, .datagram .done => some (.done .returned)
  | .reading, .datagram (.waits sid) => some (.skip (.locking sid))
  | .reading, .fail => some (.skip .failing)
  | .reading, .closed => some (.udpClosed .failing)
  | .locking _, .lock .handled => some (.skip .loop)
  | .locking _, .lock .done => some (.done .returned)
  | .locking sid, .lock (.completes pending) =>
    -- `pendingChan` holds no more than that
    if pending.length ≤ pendingCap then some (.skip (.draining sid pending)) else none
  | .draining _ [], .drain => some (.skip .loop)
  | .draining sid (p :: rest), .drain => some (.putTun p (.draining sid rest))
  | .failing, .leave => some (.fail .returned)
  | _, _ => none

/-- What is due to the network or the clock. -/
def input : Act → Bool
  | .datagram _ => true
  | _ => false

/-- A datagram, a timeout or an error may come or not. -/
def owed : Act → Bool
  | .timeout | .datagram _ | .fail => false
  | _ => true

/-- How many steps it has left, with twelve for each packet it puts into `FromTun`. -/
def rank : PacketRecv → Nat
  | .returned => 0
  | .loop | .failing => 1
  | .reading => 2
  | .draining _ rest => 2 + 13 * rest.length
  | .locking _ => 3 + 13 * pendingCap

/-- The packets it has to put into `FromTun`. -/
def pushes : PacketRecv → Nat
  | .draining _ rest => rest.length
  | _ => 0

/-- It holds the lock of the session. -/
def holds (sid : SessionId) : PacketRecv → Bool
  | .draining sid' _ => sid' == sid
  | _ => false

theorem lowers {p : PacketRecv} {a : Act} {op : Op PacketRecv} (h : next p a = some op)
    (ha : input a = false) : op.Lowers rank (rank p) := by
  unfold next at h
  split at h
  case h_12 pending =>
    split at h
    · next hlen =>
      cases h
      simp only [Op.Lowers, rank]
      omega
    · cases h
  all_goals cases h <;> simp_all [Op.Lowers, rank, input]
  all_goals omega

theorem feeds {p : PacketRecv} {a : Act} {op : Op PacketRecv} (h : next p a = some op) :
    op.Feeds pushes (pushes p) := by
  unfold next at h
  split at h
  case h_12 pending =>
    split at h
    · cases h
      exact Nat.zero_le _
    · cases h
  all_goals cases h <;> simp [Op.Feeds, pushes]

end PacketRecv

/-- A worker of `packetRecv`, as a routine. -/
def packetRecv : Routine PacketRecv PacketRecv.Act where
  next := PacketRecv.next
  returned := .returned
  input := PacketRecv.input
  owed := PacketRecv.owed
  rank := PacketRecv.rank
  ends a := by cases a <;> rfl
  lowers := PacketRecv.lowers
  eq_returned {p} h := by cases p <;> simp_all [PacketRecv.rank]

/-- A worker of `packetRecv` waits for room in `FromTun`, if it waits and has the lock. -/
theorem PacketRecv.blocked_of_waits {s : Shared} {p : PacketRecv} (hs : s.Shut)
    (h : packetRecv.Waits s p) : p = .returned ∨ s.fromTun.len = 256 ∧ 0 < p.pushes := by
  cases p with
  | loop => exact absurd rfl (h.not_done hs.cancelled .exit rfl)
  | reading => exact absurd rfl (h.not_udpClosed hs .closed rfl)
  | locking sid => cases h (.lock .handled) rfl
  | draining sid rest =>
    cases rest with
    | nil => cases h .drain rfl
    | cons q rest =>
      exact Or.inr ⟨putTun_waits (h.perform_eq_none .drain rfl rfl), Nat.succ_pos _⟩
  | failing => cases h .leave rfl
  | returned => exact Or.inl rfl

/-! ### `packetSend` (client_udp.go:21–111) -/

/-- Where a worker is: in its `select`, or with a batch of packets. -/
inductive PacketSend where
  | select
  /-- It collects a batch. -/
  | collecting (batch : List Bytes)
  | sending (rest : List Bytes)
  /-- It has a query for `ControlSendChan`. -/
  | offering (query : GamePacket) (rest : List Bytes)
  | returned

namespace PacketSend

/-- What it does next. -/
inductive Act where
  | take
  | more
  | load
  /-- The next packet is sent or put aside, or it needs a query. -/
  | next (query : Option GamePacket)
  | offer
  | exit

/-- The loop. A batch is collected until there are 32 packets or no more to take. -/
def next : PacketSend → Act → Option (Op PacketSend)
  | .select, .take =>
    some (.takeTun fun p => if p.length < 20 then .select else .collecting [p])
  | .collecting batch, .more =>
    if batch.length < 32 then
      some (.takeTun fun p =>
        if p.length < 20 then .collecting batch else .collecting (batch ++ [p]))
    else none
  | .collecting batch, .load =>
    if batch.length < 32 then some (.noTun (.sending batch)) else some (.skip (.sending batch))
  | .sending [], .next _ => some (.skip .select)
  | .sending (_ :: rest), .next none => some (.skip (.sending rest))
  | .sending (_ :: rest), .next (some query) => some (.skip (.offering query rest))
  | .offering query rest, .offer => some (.putControl query (.sending rest))
  | .select, .exit => some (.done .returned)
  | .offering _ _, .exit => some (.done .returned)
  | _, _ => none

/-- How many steps it has left, with three for each query it may queue. -/
def rank : PacketSend → Nat
  | .returned => 0
  | .select => 1
  | .collecting batch => 3 + 9 * batch.length
  | .sending rest => 2 + 8 * rest.length
  | .offering _ rest => 9 + 8 * rest.length

theorem lowers {p : PacketSend} {a : Act} {op : Op PacketSend} (h : next p a = some op) :
    op.Lowers rank (rank p) := by
  unfold next at h
  split at h
  case h_1 =>
    cases h
    intro p
    by_cases hp : p.length < 20 <;> simp [hp, rank]
  case h_2 batch =>
    split at h
    · cases h
      intro p
      by_cases hp : p.length < 20 <;> simp only [hp, if_true, if_false, rank, List.length_append,
        List.length_singleton] <;> omega
    · cases h
  case h_3 batch =>
    split at h <;> cases h <;> simp only [Op.Lowers, rank] <;> omega
  all_goals cases h <;> simp only [Op.Lowers, rank, List.length_cons] <;> omega

end PacketSend

/-- A worker of `packetSend`, as a routine. -/
def packetSend : Routine PacketSend PacketSend.Act where
  next := PacketSend.next
  returned := .returned
  input _ := false
  owed _ := true
  rank := PacketSend.rank
  ends a := by cases a <;> rfl
  lowers h _ := PacketSend.lowers h
  eq_returned {p} h := by cases p <;> simp_all [PacketSend.rank]

/-- A worker of `packetSend` does not wait after the context is cancelled. -/
theorem PacketSend.returned_of_waits {s : Shared} {p : PacketSend} (hs : s.Shut)
    (h : packetSend.Waits s p) : p = .returned := by
  cases p with
  | select => exact absurd rfl (h.not_done hs.cancelled .exit rfl)
  | collecting batch =>
    by_cases hlen : batch.length < 32
    · -- either there is another packet or there is none
      have hempty := takeTun_waits (h.perform_eq_none .more rfl (if_pos hlen))
      exact absurd hempty (noTun_waits (h.perform_eq_none .load rfl (if_pos hlen)))
    · cases h.perform_eq_none .load rfl (if_neg hlen)
  | sending rest => cases rest <;> cases h (.next none) rfl
  | offering query rest => exact absurd rfl (h.not_done hs.cancelled .exit rfl)
  | returned => rfl

/-! ### `handleP2P` and `punch` (client_p2p.go:16–73) -/

/-- Where it is: in its `select`, or on a walk over `p2pRouter`. -/
inductive HandleP2P where
  | select
  /-- It has so many entries to visit. -/
  | walking (entries : Nat)
  /-- It has so many ports of an entry to try. -/
  | spraying (ports entries : Nat)
  | returned

namespace HandleP2P

/-- What an entry needs. -/
inductive Visit where
  /-- It is removed, and the server is told, unless the queue is full. -/
  | removed (gp : GamePacket)
  | pinged
  /-- A symmetric NAT: 300 ports are tried. -/
  | spray

/-- What it does next. The ticker is the clock, and `tick` loads `p2pRouter`. -/
inductive Act where
  | tick (entries : Nat)
  | visit (v : Visit)
  | finish
  | port (ok : Bool)
  | exit

/-- The loop, with the walk over the entries and the ports of `punch`. -/
def next : HandleP2P → Act → Option (Op HandleP2P)
  | .select, .tick entries => some (.skip (.walking entries))
  | .select, .exit => some (.done .returned)
  | .walking 0, .finish => some (.skip .select)
  | .walking (n + 1), .visit (.removed gp) => some (.tryControl gp (.walking n))
  | .walking (n + 1), .visit .pinged => some (.skip (.walking n))
  | .walking (n + 1), .visit .spray => some (.skip (.spraying 300 n))
  | .spraying 0 n, .port _ => some (.skip (.walking n))
  | .spraying (_ + 1) n, .port false => some (.skip (.walking n))
  | .spraying (ports + 1) n, .port true => some (.skip (.spraying ports n))
  | _, _ => none

/-- What is due to the network or the clock. -/
def input : Act → Bool
  | .tick _ => true
  | _ => false

/-- How many steps it has left: an entry may cost 300 ports. -/
def rank : HandleP2P → Nat
  | .returned => 0
  | .select => 1
  | .walking entries => 2 + 320 * entries
  | .spraying ports entries => 3 + ports + 320 * entries

theorem lowers {p : HandleP2P} {a : Act} {op : Op HandleP2P} (h : next p a = some op)
    (ha : input a = false) : op.Lowers rank (rank p) := by
  unfold next at h
  split at h
  all_goals cases h <;> simp_all only [Op.Lowers, rank, input, reduceCtorEq] <;> omega

theorem feeds {p : HandleP2P} {a : Act} {op : Op HandleP2P} (h : next p a = some op) :
    op.Feeds (fun _ => 0) 0 := by
  unfold next at h
  split at h <;> cases h <;> simp [Op.Feeds]

end HandleP2P

/-- `handleP2P`, as a routine. -/
def handleP2P : Routine HandleP2P HandleP2P.Act where
  next := HandleP2P.next
  returned := .returned
  input := HandleP2P.input
  owed a := !HandleP2P.input a
  rank := HandleP2P.rank
  ends a := by cases a <;> rfl
  lowers := HandleP2P.lowers
  eq_returned {p} h := by cases p <;> simp_all [HandleP2P.rank]

/-- `handleP2P` does not wait after the context is cancelled. -/
theorem HandleP2P.returned_of_waits {s : Shared} {p : HandleP2P} (hs : s.Shut)
    (h : handleP2P.Waits s p) : p = .returned := by
  cases p with
  | select => exact absurd rfl (h.not_done hs.cancelled .exit rfl)
  | walking entries =>
    cases entries with
    | zero => cases h .finish rfl
    | succ n => cases h (.visit .pinged) rfl
  | spraying ports entries => cases ports <;> cases h (.port true) rfl
  | returned => rfl

/-! ### `testBroadCast` (client_ui.go:34–60) -/

/-- Where it is: in its `select`, or in the send to `FromTun`. -/
inductive TestBroadCast where
  | select
  | pushing
  | returned

namespace TestBroadCast

/-- What it does next. The ticker is the clock. -/
inductive Act where
  | tick
  | push
  | exit

/-- The loop. The send to `FromTun` is a plain one. -/
def next (bch : Bytes) : TestBroadCast → Act → Option (Op TestBroadCast)
  | .select, .tick => some (.skip .pushing)
  | .select, .exit => some (.done .returned)
  -- there is no case for the context here
  | .pushing, .push => some (.putTun bch .select)
  | _, _ => none

/-- What is due to the network or the clock. -/
def input : Act → Bool
  | .tick => true
  | _ => false

/-- How many steps it has left, with twelve for the packet it puts into `FromTun`. -/
def rank : TestBroadCast → Nat
  | .returned => 0
  | .select => 1
  | .pushing => 14

/-- The packet it has to put into `FromTun`. -/
def pushes : TestBroadCast → Nat
  | .pushing => 1
  | _ => 0

theorem lowers {bch : Bytes} {p : TestBroadCast} {a : Act} {op : Op TestBroadCast}
    (h : next bch p a = some op) (ha : input a = false) : op.Lowers rank (rank p) := by
  unfold next at h
  split at h <;> cases h <;> simp_all [Op.Lowers, rank, input]

theorem feeds {bch : Bytes} {p : TestBroadCast} {a : Act} {op : Op TestBroadCast}
    (h : next bch p a = some op) : op.Feeds pushes (pushes p) := by
  unfold next at h
  split at h <;> cases h <;> simp [Op.Feeds, pushes]

end TestBroadCast

/-- `testBroadCast`, as a routine. -/
def testBroadCast (bch : Bytes) : Routine TestBroadCast TestBroadCast.Act where
  next := TestBroadCast.next bch
  returned := .returned
  input := TestBroadCast.input
  owed a := !TestBroadCast.input a
  rank := TestBroadCast.rank
  ends a := by cases a <;> rfl
  lowers := TestBroadCast.lowers
  eq_returned {p} h := by cases p <;> simp_all [TestBroadCast.rank]

/-- `testBroadCast` waits for room in `FromTun`, if it waits. -/
theorem TestBroadCast.blocked_of_waits {bch : Bytes} {s : Shared} {p : TestBroadCast}
    (hs : s.Shut) (h : (testBroadCast bch).Waits s p) :
    p = .returned ∨ s.fromTun.len = 256 ∧ 0 < p.pushes := by
  cases p with
  | select => exact absurd rfl (h.not_done hs.cancelled .exit rfl)
  | pushing => exact Or.inr ⟨putTun_waits (h.perform_eq_none .push rfl rfl), Nat.one_pos⟩
  | returned => exact Or.inl rfl

/-! ### The goroutine that closes the connections (client.go:213–219) -/

/-- Where it is: before the context is done, in the second after that, or at the end. -/
inductive Closer where
  | waiting
  | sleeping
  | returned

namespace Closer

/-- What it does next. It wakes when the context is done. -/
inductive Act where
  | wake
  | close

/-- It waits for the context, sleeps, and closes both connections. -/
def next : Closer → Act → Option (Op Closer)
  | .waiting, .wake => some (.done .sleeping)
  | .sleeping, .close => some (.closeBoth .returned)
  | _, _ => none

/-- How many steps it has left. -/
def rank : Closer → Nat
  | .returned => 0
  | .sleeping => 1
  | .waiting => 2

theorem lowers {p : Closer} {a : Act} {op : Op Closer} (h : next p a = some op) :
    op.Lowers rank (rank p) := by
  unfold next at h
  split at h <;> cases h <;> simp [Op.Lowers, rank]

theorem feeds {p : Closer} {a : Act} {op : Op Closer} (h : next p a = some op) :
    op.Feeds (fun _ => 0) 0 := by
  unfold next at h
  split at h <;> cases h <;> simp [Op.Feeds]

/-- It returns from closing the connections. -/
theorem closed_of_returned {p : Closer} {a : Act} {op : Op Closer} {s s' : Shared}
    (hop : next p a = some op) (h : perform s op = some (s', .returned)) :
    s'.wsClosed = true ∧ s'.udpClosed = true := by
  unfold next at hop
  split at hop <;> cases hop
  · obtain ⟨-, heq⟩ := guardTo_eq_some.mp h
    cases heq
  · cases h
    exact ⟨rfl, rfl⟩

end Closer

/-- The closing goroutine, as a routine. -/
def closer : Routine Closer Closer.Act where
  next := Closer.next
  returned := .returned
  input _ := false
  owed _ := true
  rank := Closer.rank
  ends a := by cases a <;> rfl
  lowers h _ := Closer.lowers h
  eq_returned {p} h := by cases p <;> simp_all [Closer.rank]

/-- The closing goroutine does not wait after the context is cancelled. -/
theorem Closer.returned_of_waits {s : Shared} {p : Closer} (hc : s.cancelled = true)
    (h : closer.Waits s p) : p = .returned := by
  cases p with
  | waiting => exact absurd rfl (h.not_done hc .wake rfl)
  | sleeping => cases h .close rfl
  | returned => rfl

end EasyTun.Transport.Session
