import Mathlib.Tactic.Common
import EasyTun.Lib.Chan
import EasyTun.Lib.Progress
import EasyTun.Protocol.Packet

/-!
# The goroutines of a control connection (`internal/transport/server_ws.go`)

A control connection of the server has three goroutines: `readPump` and `writePump`, and
`serverWS`, which waits until the context of the connection is cancelled and then closes the
connection and puts the address of the client aside. They meet in `controlChan`, in the context
and in the socket. What is done with addresses is the matter of `Hub`; here it is the question
whether it comes to that.

Most sends to `controlChan` do not wait. The one in the ping handler does, and it waits for
`writePump` alone: not for the context. And `writePump` has one way to return without
cancelling the context, when a message cannot be finished.

- `connection_winds_down`: after the cancellation, **the goroutines do finitely many steps on
  their own, and then they have returned**, except that `readPump` may be left in the ping
  handler.
- `deaf_connection_hangs`: once `writePump` has returned, `readPump` **takes at most seventeen
  pings**, and at the last one it is left there.
- `hung_connection_stays`: a `readPump` that is left there **stays for good**. If the context is
  not cancelled yet, it will not be before the server ends, and `serverWS` does not put the
  address aside.
-/

namespace EasyTun.Transport.Connection

open EasyTun.Lib EasyTun.Protocol

/-! ## The goroutines -/

/-- What becomes of a message in `readPump` (server_ws.go:98–121). -/
inductive Message where
  /-- It is dropped, or its handler sends nothing. -/
  | silent
  /-- Its handler has an answer for this client. -/
  | answers (gp : GamePacket)
  /-- It is a handshake that fails. -/
  | refused

/-- Where `readPump` is (server_ws.go:75–123). -/
inductive Reader where
  /-- Line 85. -/
  | loop
  /-- In `NextReader`. -/
  | reading
  /-- In the ping handler, which sends to `controlChan`. -/
  | pinging
  | handling (m : Message)
  | returned

/-- Where `writePump` is (server_ws.go:37–72). -/
inductive Writer where
  | waiting
  | writing (gp : GamePacket)
  | returned

/-- Where `serverWS` is (server_ws.go:245–265). -/
inductive Serve where
  | waiting
  /-- Before `conn.Close`. -/
  | closing
  /-- The address is put aside, and the route is removed. -/
  | leaving
  | returned

/-- A connection. `broken` says that the library refuses further messages, since one could not
be written or a close message was sent. -/
structure State where
  reader : Reader
  writer : Writer
  serve : Serve
  controlChan : Chan GamePacket 16
  cancelled : Bool
  closed : Bool
  broken : Bool

/-- After `go client.readPump` (server_ws.go:243). -/
def State.start : State :=
  { reader := .loop, writer := .waiting, serve := .waiting, controlChan := .empty
    cancelled := false, closed := false, broken := false }

/-- The answer to a `TypePing`. -/
def pongGp : GamePacket := newGamePacket (.zero 4) (.zero 4) typePong none

/-- What the goroutines of the connection, the client and the hub do. -/
inductive Act where
  /-- `readPump` goes on. -/
  | read
  /-- `writePump` takes a message. -/
  | take
  /-- `writePump` finds the context done. -/
  | leave
  /-- `writePump` cannot write, since the socket is closed or the library refuses. -/
  | refuse
  /-- `serverWS` goes on. -/
  | serve
  /-- A ping arrives. -/
  | ping
  | message (m : Message)
  /-- `NextReader` fails: with a timeout, or otherwise. -/
  | readError (timeout : Bool)
  /-- A message is written. -/
  | written
  /-- The socket does not take it. -/
  | writeError
  /-- The library refuses further messages. -/
  | breaks
  /-- Another goroutine has a message for the client. -/
  | post (gp : GamePacket)
  /-- The context of the server is cancelled. -/
  | shutdown

/-- What a goroutine of the connection does by itself, if it can. -/
def Act.own : Act → Bool
  | .read | .take | .leave | .refuse | .serve => true
  | .ping | .message _ | .readError _ | .written | .writeError | .breaks | .post _
  | .shutdown => false

/-- `readPump` goes on. -/
def readNext (s : State) : Option State :=
  match s.reader with
  | .loop => some { s with reader := if s.cancelled then .returned else .reading }
  | .reading =>
    -- what the peer sends are inputs; a closed socket is an error that is no timeout
    guardTo (s.closed = true) { s with reader := .returned, cancelled := true }
  | .pinging =>
    (s.controlChan.send pongGp).map fun c => { s with reader := .reading, controlChan := c }
  | .handling .silent => some { s with reader := .loop }
  | .handling (.answers gp) =>
    some { s with reader := .loop, controlChan := s.controlChan.trySend gp }
  | .handling .refused => some { s with reader := .returned, cancelled := true }
  | .returned => none

/-- A message cannot be written (server_ws.go:48–67). -/
def writeFails (s : State) (gp : GamePacket) : State :=
  -- for a pong nobody looks at the error
  if gp.pType = typePong then { s with writer := .waiting, broken := true }
  -- `NextWriter` fails
  else if s.broken then { s with writer := .returned, cancelled := true }
  -- `Close` fails, and the context is not cancelled
  else { s with writer := .returned, broken := true }

/-- `serverWS` goes on. -/
def serveNext (s : State) : Option State :=
  match s.serve with
  | .waiting => guardTo (s.cancelled = true) { s with serve := .closing }
  | .closing => some { s with serve := .leaving, closed := true }
  | .leaving => some { s with serve := .returned }
  | .returned => none

/-- One step of one of them. -/
def step (s : State) : Act → Option State
  | .read => readNext s
  | .take =>
    match s.writer, s.controlChan.recv with
    | .waiting, some (gp, rest) => some { s with writer := .writing gp, controlChan := rest }
    | _, _ => none
  | .leave =>
    match s.writer with
    | .waiting => guardTo (s.cancelled = true) { s with writer := .returned }
    | _ => none
  | .refuse =>
    match s.writer with
    | .writing gp => guardTo (s.closed = true ∨ s.broken = true) (writeFails s gp)
    | _ => none
  | .serve => serveNext s
  | .ping =>
    match s.reader with
    | .reading => guardTo (s.closed = false) { s with reader := .pinging }
    | _ => none
  | .message m =>
    match s.reader with
    | .reading => guardTo (s.closed = false) { s with reader := .handling m }
    | _ => none
  | .readError timeout =>
    match s.reader with
    | .reading =>
      if timeout then guardTo (s.closed = false) { s with reader := .loop }
      else some { s with reader := .returned, cancelled := true }
    | _ => none
  | .written =>
    match s.writer with
    | .writing _ => guardTo (s.closed = false ∧ s.broken = false) { s with writer := .waiting }
    | _ => none
  | .writeError =>
    match s.writer with
    | .writing gp => some (writeFails s gp)
    | _ => none
  | .breaks => some { s with broken := true }
  | .post gp => some { s with controlChan := s.controlChan.trySend gp }
  | .shutdown => some { s with cancelled := true }

/-- A connection that has just been accepted. -/
def machine : Machine State Act := { init := .start, step := step }

/-! ## What a step does -/

/-- The steps, with what they need. -/
inductive Does (s : State) : Act → State → Prop where
  | loop (hreader : s.reader = .loop) :
      Does s .read { s with reader := if s.cancelled then .returned else .reading }
  | shutOut (hreader : s.reader = .reading) (hclosed : s.closed = true) :
      Does s .read { s with reader := .returned, cancelled := true }
  | pong {c : Chan GamePacket 16} (hreader : s.reader = .pinging)
      (hsend : s.controlChan.send pongGp = some c) :
      Does s .read { s with reader := .reading, controlChan := c }
  | silent (hreader : s.reader = .handling .silent) : Does s .read { s with reader := .loop }
  | answers {gp : GamePacket} (hreader : s.reader = .handling (.answers gp)) :
      Does s .read { s with reader := .loop, controlChan := s.controlChan.trySend gp }
  | refused (hreader : s.reader = .handling .refused) :
      Does s .read { s with reader := .returned, cancelled := true }
  | take {gp : GamePacket} {rest : Chan GamePacket 16} (hwriter : s.writer = .waiting)
      (hrecv : s.controlChan.recv = some (gp, rest)) :
      Does s .take { s with writer := .writing gp, controlChan := rest }
  | leave (hwriter : s.writer = .waiting) (hc : s.cancelled = true) :
      Does s .leave { s with writer := .returned }
  | refuse {gp : GamePacket} (hwriter : s.writer = .writing gp) : Does s .refuse (writeFails s gp)
  | close (hserve : s.serve = .waiting) (hc : s.cancelled = true) :
      Does s .serve { s with serve := .closing }
  | closed (hserve : s.serve = .closing) :
      Does s .serve { s with serve := .leaving, closed := true }
  | left (hserve : s.serve = .leaving) : Does s .serve { s with serve := .returned }
  | ping (hreader : s.reader = .reading) : Does s .ping { s with reader := .pinging }
  | message {m : Message} (hreader : s.reader = .reading) :
      Does s (.message m) { s with reader := .handling m }
  | timeout (hreader : s.reader = .reading) : Does s (.readError true) { s with reader := .loop }
  | readError (hreader : s.reader = .reading) :
      Does s (.readError false) { s with reader := .returned, cancelled := true }
  | written {gp : GamePacket} (hwriter : s.writer = .writing gp) :
      Does s .written { s with writer := .waiting }
  | writeError {gp : GamePacket} (hwriter : s.writer = .writing gp) :
      Does s .writeError (writeFails s gp)
  | breaks : Does s .breaks { s with broken := true }
  | post {gp : GamePacket} :
      Does s (.post gp) { s with controlChan := s.controlChan.trySend gp }
  | shutdown : Does s .shutdown { s with cancelled := true }

section Inversion

variable {s t : State} {a : Act}

theorem does_of_readNext (hs : readNext s = some t) : Does s .read t := by
  unfold readNext at hs
  split at hs
  · next hreader =>
    cases hs
    exact .loop hreader
  · next hreader =>
    obtain ⟨hclosed, rfl⟩ := guardTo_eq_some.mp hs
    exact .shutOut hreader hclosed
  · next hreader =>
    obtain ⟨c, hsend, rfl⟩ := Option.map_eq_some_iff.mp hs
    exact .pong hreader hsend
  · next hreader =>
    cases hs
    exact .silent hreader
  · next gp hreader =>
    cases hs
    exact .answers hreader
  · next hreader =>
    cases hs
    exact .refused hreader
  · cases hs

theorem does_of_serveNext (hs : serveNext s = some t) : Does s .serve t := by
  unfold serveNext at hs
  split at hs
  · next hserve =>
    obtain ⟨hc, rfl⟩ := guardTo_eq_some.mp hs
    exact .close hserve hc
  · next hserve =>
    cases hs
    exact .closed hserve
  · next hserve =>
    cases hs
    exact .left hserve
  · cases hs

/-- **Inversion.** -/
theorem does_of_step (hs : step s a = some t) : Does s a t := by
  cases a with
  | read => exact does_of_readNext hs
  | serve => exact does_of_serveNext hs
  | take =>
    simp only [step] at hs
    split at hs
    · next gp rest hwriter hrecv =>
      cases hs
      exact .take hwriter hrecv
    · cases hs
  | leave =>
    simp only [step] at hs
    split at hs
    · next hwriter =>
      obtain ⟨hc, rfl⟩ := guardTo_eq_some.mp hs
      exact .leave hwriter hc
    · cases hs
  | refuse =>
    simp only [step] at hs
    split at hs
    · next gp hwriter =>
      obtain ⟨-, rfl⟩ := guardTo_eq_some.mp hs
      exact .refuse hwriter
    · cases hs
  | ping =>
    simp only [step] at hs
    split at hs
    · next hreader =>
      obtain ⟨-, rfl⟩ := guardTo_eq_some.mp hs
      exact .ping hreader
    · cases hs
  | message m =>
    simp only [step] at hs
    split at hs
    · next hreader =>
      obtain ⟨-, rfl⟩ := guardTo_eq_some.mp hs
      exact .message hreader
    · cases hs
  | readError timeout =>
    simp only [step] at hs
    split at hs
    · next hreader =>
      cases timeout with
      | true =>
        obtain ⟨-, rfl⟩ := guardTo_eq_some.mp hs
        exact .timeout hreader
      | false =>
        cases hs
        exact .readError hreader
    · cases hs
  | written =>
    simp only [step] at hs
    split at hs
    · next gp hwriter =>
      obtain ⟨-, rfl⟩ := guardTo_eq_some.mp hs
      exact .written hwriter
    · cases hs
  | writeError =>
    simp only [step] at hs
    split at hs
    · next gp hwriter =>
      cases hs
      exact .writeError hwriter
    · cases hs
  | breaks =>
    cases hs
    exact .breaks
  | post gp =>
    cases hs
    exact .post
  | shutdown =>
    cases hs
    exact .shutdown

end Inversion

/-! ## The end of a connection -/

/-- How many steps `readPump` has left. -/
def Reader.rank : Reader → Nat
  | .returned => 0
  | .loop | .reading => 1
  -- with one message for `controlChan`
  | .pinging | .handling _ => 4

/-- How many steps `writePump` has left. -/
def Writer.rank : Writer → Nat
  | .returned => 0
  | .waiting => 1
  | .writing _ => 2

/-- How many steps `serverWS` has left. -/
def Serve.rank : Serve → Nat
  | .returned => 0
  | .leaving => 1
  | .closing => 2
  | .waiting => 3

/-- How much there is left to do after the cancellation. -/
def State.rank (s : State) : Nat :=
  s.reader.rank + s.writer.rank + s.serve.rank + 2 * s.controlChan.len

/-- No goroutine has a step of its own. -/
def State.Quiet (s : State) : Prop := ∀ a : Act, a.own = true → step s a = none

/-- `serverWS` closes the socket before it leaves. -/
def State.Shut (s : State) : Prop :=
  s.serve = .leaving ∨ s.serve = .returned → s.closed = true

/-- `readPump` waits in the ping handler for a `writePump` that has returned. -/
structure State.Hung (s : State) : Prop where
  reader : s.reader = .pinging
  writer : s.writer = .returned
  full : s.controlChan.len = 16

section Steps

variable {s t : State} {a : Act}

/-- A message that cannot be written: `writePump` waits again or returns. -/
theorem writeFails_cases (s : State) (gp : GamePacket) :
    ∃ w c b, writeFails s gp = { s with writer := w, cancelled := c, broken := b } ∧
      w.rank ≤ 1 ∧ (s.cancelled = true → c = true) := by
  unfold writeFails
  split
  · exact ⟨.waiting, s.cancelled, true, rfl, Nat.le_refl 1, id⟩
  · split
    · exact ⟨.returned, true, s.broken, rfl, Nat.zero_le 1, fun _ => rfl⟩
    · exact ⟨.returned, s.cancelled, true, rfl, Nat.zero_le 1, id⟩

theorem cancelled_step (hc : s.cancelled = true) (hs : step s a = some t) : t.cancelled = true := by
  cases does_of_step hs with
  | @refuse gp | @writeError gp =>
    obtain ⟨w, c, b, heq, -, hkept⟩ := writeFails_cases s gp
    rw [heq]
    exact hkept hc
  | shutOut | refused | readError | shutdown => rfl
  | _ => exact hc

theorem shut_step (hshut : s.Shut) (hs : step s a = some t) : t.Shut := by
  cases does_of_step hs with
  | @refuse gp | @writeError gp =>
    obtain ⟨w, c, b, heq, -⟩ := writeFails_cases s gp
    rw [heq]
    exact hshut
  | close hserve => exact fun hgone => by cases hgone <;> contradiction
  | closed => exact fun _ => rfl
  | left hserve => exact fun _ => hshut (Or.inl hserve)
  | _ => exact hshut

/-- **An own step after the cancellation brings the end nearer.** -/
theorem rank_step (hc : s.cancelled = true) (hown : a.own = true) (hs : step s a = some t) :
    t.rank < s.rank := by
  cases does_of_step hs with
  | loop hreader =>
    simp only [State.rank, hreader, hc, if_true, Reader.rank]
    omega
  | shutOut hreader | silent hreader | refused hreader =>
    simp only [State.rank, hreader, Reader.rank]
    omega
  | pong hreader hsend =>
    have hlen := Chan.len_send hsend
    simp only [State.rank, hreader, Reader.rank]
    omega
  | @answers gp hreader =>
    have hlen := s.controlChan.len_trySend_le gp
    simp only [State.rank, hreader, Reader.rank]
    omega
  | take hwriter hrecv =>
    have hlen := Chan.len_recv hrecv
    simp only [State.rank, hwriter, Writer.rank]
    omega
  | leave hwriter =>
    simp only [State.rank, hwriter, Writer.rank]
    omega
  | @refuse gp hwriter =>
    obtain ⟨w, c, b, heq, hw, -⟩ := writeFails_cases s gp
    have hrank : s.writer.rank = 2 := by rw [hwriter]; rfl
    rw [heq]
    simp only [State.rank]
    omega
  | close hserve | closed hserve | left hserve =>
    simp only [State.rank, hserve, Serve.rank]
    omega
  | ping | message | timeout | readError | written | writeError | breaks | post | shutdown =>
    cases hown

/-- **What a quiet connection looks like** after the cancellation. -/
theorem over_of_quiet (hc : s.cancelled = true) (hshut : s.Shut) (hquiet : s.Quiet) :
    s.serve = .returned ∧ s.writer = .returned ∧ (s.reader = .returned ∨ s.Hung) := by
  have hserve : s.serve = .returned := by
    have hnone := hquiet .serve rfl
    simp only [step, serveNext] at hnone
    cases hcase : s.serve with
    | waiting => simp [hcase, hc, guardTo] at hnone
    | closing | leaving => simp [hcase] at hnone
    | returned => rfl
  have hclosed := hshut (Or.inr hserve)
  have hwriter : s.writer = .returned := by
    cases hcase : s.writer with
    | waiting =>
      have hnone := hquiet .leave rfl
      simp [step, hcase, hc, guardTo] at hnone
    | writing gp =>
      have hnone := hquiet .refuse rfl
      simp [step, hcase, hclosed, guardTo] at hnone
    | returned => rfl
  refine ⟨hserve, hwriter, ?_⟩
  have hnone : readNext s = none := hquiet .read rfl
  unfold readNext at hnone
  cases hcase : s.reader with
  | loop => simp [hcase] at hnone
  | reading => simp [hcase, hclosed, guardTo] at hnone
  | handling m => cases m <;> simp [hcase] at hnone
  | returned => exact Or.inl rfl
  | pinging =>
    simp only [hcase, Option.map_eq_none_iff] at hnone
    exact Or.inr ⟨hcase, hwriter, Chan.send_eq_none.mp hnone⟩

/-- **After the cancellation a connection comes to its end.** Runs in which the goroutines only
do what they can do by themselves are finite; and when none of them can go on, `serverWS` and
`writePump` have returned, and so has `readPump`, unless it is in the ping handler and
`controlChan` is full. -/
theorem connection_winds_down {as : List Act} (hr : machine.Reach s) (hc : s.cancelled = true)
    (hrun : machine.runVia (fun _ a => a.own = true) s as = some t) :
    as.length ≤ s.rank ∧
      (t.Quiet → t.serve = .returned ∧ t.writer = .returned ∧ (t.reader = .returned ∨ t.Hung)) := by
  have hshut : s.Shut := by
    refine hr.invariant ?_ fun hP hstep => shut_step hP hstep
    rintro (hserve | hserve) <;> cases hserve
  obtain ⟨hlen, hct, hshutt⟩ := Machine.runVia_length_le
    (I := fun s => s.cancelled = true ∧ s.Shut) (r := State.rank)
    (fun hI _ hstep => ⟨cancelled_step hI.1 hstep, shut_step hI.2 hstep⟩)
    (fun hI hok hstep => rank_step hI.1 hok hstep) ⟨hc, hshut⟩ hrun
  exact ⟨Nat.le_trans (Nat.le_add_right _ _) hlen, over_of_quiet hct hshutt⟩

/-- The server ends while the client says nothing. -/
theorem connection_winds_down_idle :
    ∃ s t, machine.Reach s ∧ s.cancelled = true ∧
      machine.runVia (fun _ a => a.own = true) s [.serve, .serve, .read, .leave, .serve] =
        some t ∧ t.Quiet ∧
      t.serve = .returned ∧ t.writer = .returned ∧ (t.reader = .returned ∨ t.Hung) := by
  obtain ⟨s, hs, hc, t, ht, hquiet⟩ : ∃ s, machine.run .start [.read, .shutdown] = some s ∧
      s.cancelled = true ∧ ∃ t, machine.runVia (fun _ a => a.own = true) s
        [.serve, .serve, .read, .leave, .serve] = some t ∧ t.Quiet := by
    refine ⟨_, rfl, rfl, _, rfl, ?_⟩
    intro a hown
    cases a <;> first | rfl | cases hown
  have hr := Machine.reachVia_of_runVia hs
  exact ⟨s, t, hr, hc, ht, hquiet, (connection_winds_down hr hc ht).2 hquiet⟩

/-! ## A connection that hangs -/

/-- A ping arrives. -/
def Act.isPing : Act → Bool
  | .ping => true
  | _ => false

/-- One ping more can be taken than there is room for. -/
def Reader.pings : Reader → Nat
  | .pinging => 0
  | .loop | .reading | .handling _ | .returned => 1

/-- How many pings `readPump` can take as long as nobody reads `controlChan`. -/
def State.pings (s : State) : Nat := 16 - s.controlChan.len + s.reader.pings

/-- `writePump` does not come back. -/
theorem deaf_step (hwriter : s.writer = .returned) (hs : step s a = some t) :
    t.writer = .returned := by
  cases does_of_step hs with
  | leave => rfl
  | take h | refuse h | written h | writeError h =>
    rw [hwriter] at h
    cases h
  | _ => exact hwriter

theorem pings_step (hwriter : s.writer = .returned) (hs : step s a = some t) :
    t.pings + a.isPing.toNat ≤ s.pings := by
  cases does_of_step hs with
  | loop h =>
    simp only [State.pings, h]
    cases s.cancelled <;> exact Nat.le_refl _
  | shutOut h | silent h | refused h | ping h | message h | timeout h | readError h =>
    simp only [State.pings, h]
    exact Nat.le_refl _
  | @pong c h hsend =>
    have hlen := Chan.len_send hsend
    have hcap := c.len_le
    simp only [State.pings, h, Reader.pings, Act.isPing, Bool.toNat_false]
    omega
  | @answers gp h =>
    have hlen := s.controlChan.len_le_trySend gp
    simp only [State.pings, h, Reader.pings, Act.isPing, Bool.toNat_false]
    omega
  | @post gp =>
    have hlen := s.controlChan.len_le_trySend gp
    simp only [State.pings, Act.isPing, Bool.toNat_false]
    omega
  | take h | leave h | refuse h | written h | writeError h =>
    rw [hwriter] at h
    cases h
  | close | closed | left | breaks | shutdown => exact Nat.le_refl _

/-- No ping can be taken any more: `readPump` waits in the handler. -/
theorem hung_of_pings (hwriter : s.writer = .returned) (hpings : s.pings = 0) : s.Hung := by
  have hcap := s.controlChan.len_le
  obtain ⟨hroom, hreader⟩ := Nat.add_eq_zero_iff.mp hpings
  cases hcase : s.reader with
  | pinging => exact ⟨hcase, hwriter, by omega⟩
  | loop | reading | handling | returned =>
    rw [hcase] at hreader
    cases hreader

/-- **Once `writePump` has returned, few pings are left.** `readPump` takes at most as many pings
as there is room in `controlChan`, and one more. After that one the connection hangs. -/
theorem deaf_connection_hangs {as : List Act} (hwriter : s.writer = .returned)
    (hrun : machine.run s as = some t) :
    as.countP Act.isPing ≤ 17 - s.controlChan.len ∧
      (as.countP Act.isPing = 17 - s.controlChan.len → t.Hung) := by
  obtain ⟨hcount, hdeaf⟩ := Machine.runVia_countP_le
    (I := fun s => s.writer = .returned) (r := State.pings) (p := Act.isPing)
    (fun hI _ hstep => deaf_step hI hstep) (fun hI _ hstep => pings_step hI hstep) hwriter hrun
  have hcap := s.controlChan.len_le
  have hpings : s.pings ≤ 17 - s.controlChan.len := by
    have hreader : s.reader.pings ≤ 1 := by cases s.reader <;> simp [Reader.pings]
    unfold State.pings
    omega
  refine ⟨by omega, fun hall => hung_of_pings hdeaf ?_⟩
  omega

/-- A message is not taken by the socket, and then there are seventeen pings. -/
theorem deaf_connection_hangs_pings :
    ∃ s t, machine.Reach s ∧ s.writer = .returned ∧ s.cancelled = false ∧
      machine.run s ((List.replicate 16 [Act.ping, Act.read]).flatten ++ [Act.ping]) = some t ∧
      t.Hung := by
  obtain ⟨s, hs, hwriter, hc, hlen, t, ht⟩ : ∃ s,
      machine.run .start [.post (newGamePacket (.zero 4) (.zero 4) typeP2PCommand none), .take,
        .writeError, .read] = some s ∧
      s.writer = .returned ∧ s.cancelled = false ∧ s.controlChan.len = 0 ∧ ∃ t,
      machine.run s ((List.replicate 16 [Act.ping, Act.read]).flatten ++ [Act.ping]) = some t :=
    ⟨_, rfl, rfl, rfl, rfl, _, rfl⟩
  refine ⟨s, t, Machine.reachVia_of_runVia hs, hwriter, hc, ht,
    (deaf_connection_hangs hwriter ht).2 ?_⟩
  rw [hlen]
  rfl

/-- Nobody reads `controlChan`, so it stays full. -/
theorem hung_step (hhung : s.Hung) (hs : step s a = some t) : t.Hung := by
  refine hung_of_pings (deaf_step hhung.writer hs) ?_
  have hle := pings_step hhung.writer hs
  have hzero : s.pings = 0 := by
    rw [State.pings, hhung.reader, hhung.full]
    rfl
  omega

/-- `serverWS` leaves its wait for nothing but the cancellation. -/
def State.Called (s : State) : Prop := s.cancelled = false → s.serve = .waiting

theorem called_step (hcalled : s.Called) (hs : step s a = some t) : t.Called := by
  intro hc
  have hcs : s.cancelled = false := by
    cases hcase : s.cancelled with
    | false => rfl
    | true =>
      rw [cancelled_step hcase hs] at hc
      cases hc
  have hserve := hcalled hcs
  cases does_of_step hs with
  | @refuse gp | @writeError gp =>
    obtain ⟨w, c, b, heq, -⟩ := writeFails_cases s gp
    rw [heq]
    exact hserve
  | close _ h =>
    rw [hcs] at h
    cases h
  | closed h | left h =>
    rw [hserve] at h
    cases h
  | _ => exact hserve

/-- Only the end of the server cancels the context of a connection that hangs. -/
theorem uncancelled_step (hhung : s.Hung) (hc : s.cancelled = false) (hok : a ≠ .shutdown)
    (hs : step s a = some t) : t.cancelled = false := by
  cases does_of_step hs with
  | shutdown => exact absurd rfl hok
  | shutOut h | refused h | readError h =>
    rw [hhung.reader] at h
    cases h
  | refuse h | writeError h =>
    rw [hhung.writer] at h
    cases h
  | _ => exact hc

/-- **A connection that hangs does so for good**, whatever happens. If the context is not
cancelled yet, then `serverWS` waits until the server ends, and the address of the client is not
put aside. -/
theorem hung_connection_stays (hr : machine.Reach s) (hhung : s.Hung) :
    (∀ t, machine.PathVia (fun _ _ => True) s t → t.Hung) ∧
    ∀ t, machine.PathVia (fun _ a => a ≠ .shutdown) s t → s.cancelled = false →
      t.cancelled = false ∧ t.serve = .waiting := by
  constructor
  · intro t hp
    exact hp.invariant (P := State.Hung) hhung fun _ hhungt _ hstep => hung_step hhungt hstep
  · intro t hp hc
    have hcalled : s.Called := hr.invariant (fun _ => rfl) fun hP hstep => called_step hP hstep
    obtain ⟨-, hcalledt, hct⟩ : t.Hung ∧ t.Called ∧ t.cancelled = false := by
      refine hp.invariant (P := fun t => t.Hung ∧ t.Called ∧ t.cancelled = false)
        ⟨hhung, hcalled, hc⟩ ?_
      rintro t u a - ⟨hhungt, hcalledt, hct⟩ hok hstep
      exact ⟨hung_step hhungt hstep, called_step hcalledt hstep,
        uncancelled_step hhungt hct hok hstep⟩
    exact ⟨hct, hcalledt hct⟩

/-- Another message is dropped. -/
theorem hung_connection_stays_post :
    ∃ s t, machine.Reach s ∧ s.Hung ∧ s.cancelled = false ∧
      machine.PathVia (fun _ a => a ≠ .shutdown) s t ∧ t.Hung ∧ t.serve = .waiting := by
  obtain ⟨s, hs, hhung, hc, t, ht⟩ : ∃ s,
      machine.run .start ([.post (newGamePacket (.zero 4) (.zero 4) typeP2PCommand none), .take,
        .writeError, .read] ++ (List.replicate 16 [Act.ping, Act.read]).flatten ++ [Act.ping]) =
        some s ∧ s.Hung ∧ s.cancelled = false ∧ ∃ t, machine.step s (.post pongGp) = some t :=
    ⟨_, rfl, ⟨rfl, rfl, rfl⟩, rfl, _, rfl⟩
  have hr := Machine.reachVia_of_runVia hs
  have hp : machine.PathVia (fun _ a => a ≠ .shutdown) s t :=
    .step .refl (by intro h; cases h) ht
  obtain ⟨hstays, hwaits⟩ := hung_connection_stays hr hhung
  exact ⟨s, t, hr, hhung, hc, hp, hstays t (.step .refl trivial ht), (hwaits t hp hc).2⟩

end Steps

end EasyTun.Transport.Connection
