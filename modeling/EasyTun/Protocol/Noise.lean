import Mathlib.Logic.Function.Basic
import EasyTun.Lib.Maps
import EasyTun.Lib.NoiseIK
import EasyTun.Protocol.Cipher

/-!
# Noise sessions (`internal/protocol/noise.go`)

The session table of one client and the two sides of the handshake. Sessions
are reached through pointers: a worker keeps the session it looked up while the
table already holds another one. So the manager has a heap of session objects,
and the table maps a peer's virtual address to an object.

`HandleNoisePacket` is cut where the source lets another goroutine in: the
lookup, the body under the session's lock (`lockedBody`), and
`handleResponderFirst` with its `SetSession`. `handleNoisePacket` is the whole
call, run without interruption.

The message type is a parameter of the functions, through the operations of the
Noise library: byte strings where a datagram is followed through a client,
symbolic messages where two clients are followed through a handshake. So is the
type of what a pending queue holds. The queue holds slices: a byte string stands
for one where nobody writes to the array behind it, and where somebody does the
slice itself is queued.
-/

namespace EasyTun.Protocol

open EasyTun.Lib
open EasyTun.Lib.NoiseIK

/-! ## Sessions -/

/-- `NoiseSession` (noise.go:17–27). A handshake state that waits for its reply
is determined by the first message it wrote. -/
structure NoiseSession (α : Type := Bytes) where
  remoteVip : ByteArr 4
  cipher : Cipher Key
  hs : Option First
  isInitiator : Bool
  lastSeen : Int
  mtx : Bool
  pendingChan : List α
  pendingClosed : Bool

/-- The capacity of `pendingChan`. -/
def pendingCap : Nat := 24

namespace NoiseSession

variable {α : Type}

/-- `NewNoiseSession` (noise.go:29–38). -/
def new (remoteVip : ByteArr 4) (isInitiator : Bool) (hs : Option First) (now : Int) :
    NoiseSession α :=
  { remoteVip, isInitiator, hs
    lastSeen := now
    cipher := .newChaCha
    mtx := false
    pendingChan := []
    pendingClosed := false }

/-- `session.Cipher.IsReady()`. -/
def isReady (s : NoiseSession α) : Bool := s.cipher.isReady

/-- `UpdateLastSeen` (noise.go:67–69). -/
def updateLastSeen (s : NoiseSession α) (now : Int) : NoiseSession α := { s with lastSeen := now }

/-- `isTimeout` (noise.go:71–74). -/
def isTimeout (s : NoiseSession α) (timeout now : Int) : Bool :=
  decide (now - s.lastSeen > timeout)

/-- `closePending` (noise.go:82–85). -/
def closePending (s : NoiseSession α) : NoiseSession α := { s with pendingClosed := true }

/-- `AddPendingData` (noise.go:87–96): dropped when closed or full. -/
def addPendingData (s : NoiseSession α) (data : α) : NoiseSession α :=
  if s.pendingClosed then s
  else if s.pendingChan.length < pendingCap then
    { s with pendingChan := s.pendingChan ++ [data] }
  else s

/-- What the initiator's session becomes when it reads the reply of `t`
(noise.go:184–190): `ReadMessage` hands out the cipher states in the order of
`Split`, and the first is used to receive. -/
def complete (s : NoiseSession α) (t : Transcript) : NoiseSession α :=
  ({ s with cipher := .init ⟨t, .cs1⟩ ⟨t, .cs2⟩, hs := none }).closePending

/-- The responder's session for the handshake `t` (noise.go:212–215): here the
first cipher state is used to send. -/
def responder (srcVip : ByteArr 4) (t : Transcript) (now : Int) : NoiseSession α :=
  ({ new srcVip false none now with cipher := .init ⟨t, .cs2⟩ ⟨t, .cs1⟩ }).closePending

/-- `GetNonce` on the session's `Sender`. -/
def drawNonce (s : NoiseSession α) : NoiseSession α :=
  { s with cipher := { s.cipher with sender := s.cipher.sender.map (·.getNonce.2) } }

/-- The key of `Cipher.Sender`. -/
def sendKey (s : NoiseSession α) : Option Key := s.cipher.sender.map (·.key)

/-- The key of `Cipher.Recver`. -/
def recvKey (s : NoiseSession α) : Option Key := s.cipher.recver.map (·.key)

/-- Both ends have keys, and each sends under the key the other receives under. -/
def KeysMatch (s s' : NoiseSession α) : Prop :=
  s.sendKey.isSome = true ∧ s'.sendKey.isSome = true ∧
    s.sendKey = s'.recvKey ∧ s'.sendKey = s.recvKey

instance (s s' : NoiseSession α) : Decidable (s.KeysMatch s') :=
  inferInstanceAs (Decidable (_ ∧ _))

end NoiseSession

/-! ## The manager -/

/-- A pointer to a session object. -/
abbrev SessionId := Nat

/-- `NoiseManager` (noise.go:40–49). `tunChan` holds what was put back for
sending; the objects below `next` are the ones ever made. -/
structure NoiseManager (α : Type := Bytes) where
  tunChan : List α
  myVip : ByteArr 4
  staticPub : PublicKey
  sessions : Map (ByteArr 4) SessionId
  heap : SessionId → NoiseSession α
  next : SessionId

/-- The errors of `HandleNoisePacket`: those of the library and its own two. -/
inductive NoiseError where
  | readMessage
  | collision
  | invalidState
  deriving DecidableEq, Repr

/-- The results of `HandleNoisePacket`: a session, a response to send back. -/
abbrev HandleResult (D : Type) := Except NoiseError (Option SessionId × Option D)

/-- The response to send back, if any. -/
def responseOf {D : Type} : HandleResult D → Option D
  | .ok (_, response) => response
  | .error _ => none

namespace NoiseManager

variable {α : Type}

/-- `NewNoiseManager` followed by `SetVirtualIp` (noise.go:51–65, 98–100). -/
def new (staticPub : PublicKey) (myVip : ByteArr 4) : NoiseManager α :=
  { tunChan := [], myVip, staticPub, sessions := ∅
    heap := fun _ => .new (.zero 4) false none 0
    next := 0 }

/-- `GetSession` (noise.go:106–113). -/
def getSession (m : NoiseManager α) (key : ByteArr 4) : Option SessionId := m.sessions.lookup key

/-- `SetSession` (noise.go:115–125). -/
def setSession (m : NoiseManager α) (key : ByteArr 4) (sid : SessionId) : NoiseManager α :=
  { m with sessions := m.sessions.insert key sid }

/-- `DeleteSession` (noise.go:127–139). -/
def deleteSession (m : NoiseManager α) (key : ByteArr 4) : NoiseManager α :=
  { m with sessions := m.sessions.erase key }

/-- An assignment to the fields of a session object. -/
def modify (m : NoiseManager α) (sid : SessionId) (f : NoiseSession α → NoiseSession α) :
    NoiseManager α :=
  { m with heap := Function.update m.heap sid (f (m.heap sid)) }

/-- A new session object and the `SetSession` that publishes it. -/
def install (m : NoiseManager α) (key : ByteArr 4) (s : NoiseSession α) : NoiseManager α :=
  ({ m with heap := Function.update m.heap m.next s, next := m.next + 1 }).setSession key m.next

theorem getSession_install (m : NoiseManager α) (key : ByteArr 4) (s : NoiseSession α) :
    (m.install key s).getSession key = some m.next :=
  AList.lookup_insert ..

theorem heap_install (m : NoiseManager α) (key : ByteArr 4) (s : NoiseSession α) :
    (m.install key s).heap m.next = s :=
  Function.update_self ..

theorem heap_install_of_lt (m : NoiseManager α) (key : ByteArr 4) (s : NoiseSession α)
    {sid : SessionId} (hlt : sid < m.next) : (m.install key s).heap sid = m.heap sid :=
  Function.update_of_ne (Nat.ne_of_lt hlt) ..

/-- `SendAllPendingData(m.tunChan)` (noise.go:76–80), on a closed channel. -/
def sendAllPendingData (m : NoiseManager α) (sid : SessionId) : NoiseManager α :=
  { m.modify sid fun s => { s with pendingChan := [] } with
    tunChan := m.tunChan ++ (m.heap sid).pendingChan }

theorem heap_modify (m : NoiseManager α) (sid : SessionId)
    (f : NoiseSession α → NoiseSession α) : (m.modify sid f).heap sid = f (m.heap sid) :=
  Function.update_self ..

theorem heap_modify_of_ne (m : NoiseManager α) {sid i : SessionId} (hne : i ≠ sid)
    (f : NoiseSession α → NoiseSession α) : (m.modify sid f).heap i = m.heap i :=
  Function.update_of_ne hne ..

theorem heap_sendAllPendingData (m : NoiseManager α) (sid : SessionId) :
    (m.sendAllPendingData sid).heap sid = { m.heap sid with pendingChan := [] } :=
  Function.update_self ..

theorem heap_sendAllPendingData_of_ne (m : NoiseManager α) {sid i : SessionId} (hne : i ≠ sid) :
    (m.sendAllPendingData sid).heap i = m.heap i :=
  Function.update_of_ne hne ..

variable {D : Type}

/-- `HandshakeInit` (noise.go:141–156): a new initiator session replaces
whatever the table holds for the peer. -/
def handshakeInit (N : Ops D) (m : NoiseManager α) (remoteVip : ByteArr 4) (remotePub : PublicKey)
    (payload : α) (eph : Nat) (now : Int) : D × NoiseManager α :=
  let hs : First := { initiator := m.staticPub, responder := remotePub, eph }
  let session := (NoiseSession.new remoteVip true (some hs) now).addPendingData payload
  (N.writeFirst hs, m.install remoteVip session)

/-- `handleResponderFirst` (noise.go:198–220). -/
def handleResponderFirst (N : Ops D) (m : NoiseManager α) (srcVip : ByteArr 4) (data : D)
    (eph : Nat) (now : Int) : NoiseManager α × HandleResult D :=
  match N.readFirst m.staticPub data with
  | none => (m, .error .readMessage)
  | some first =>
    let t : Transcript := { first, eph }
    ((m.install srcVip (.responder srcVip t now)).sendAllPendingData m.next,
      .ok (some m.next, some (N.writeReply t)))

/-- The body of `HandleNoisePacket` under the session's lock (noise.go:168–195).
`none`: the larger address yields and goes on in `handleResponderFirst`. -/
def lockedBody (N : Ops D) (m : NoiseManager α) (sid : SessionId) (srcVip : ByteArr 4)
    (data : D) : Option (NoiseManager α × HandleResult D) :=
  let session := m.heap sid
  if session.isReady then some (m, .ok (some sid, none))
  else if session.isInitiator ∧ 64 ≤ N.len data then
    if srcVip.1 < m.myVip.1 then none else some (m, .error .collision)
  else if session.isInitiator then
    match session.hs.bind (N.readReply · data) with
    | none => some (m, .error .readMessage)
    | some t =>
      some ((m.modify sid (·.complete t)).sendAllPendingData sid, .ok (none, none))
  else some (m, .error .invalidState)

/-- `HandleNoisePacket` (noise.go:159–196), run without interruption. -/
def handleNoisePacket (N : Ops D) (m : NoiseManager α) (srcVip : ByteArr 4) (data : D)
    (eph : Nat) (now : Int) : NoiseManager α × HandleResult D :=
  match m.getSession srcVip with
  | none => m.handleResponderFirst N srcVip data eph now
  | some sid =>
    if (m.heap sid).isReady then (m, .ok (some sid, none))
    else
      (m.lockedBody N sid srcVip data).getD (m.handleResponderFirst N srcVip data eph now)

/-- `sweepSessions` (noise.go:222–241). -/
def sweepSessions (m : NoiseManager α) (timeout now : Int) : NoiseManager α :=
  { m with sessions := m.sessions.keepIf fun _ sid => !(m.heap sid).isTimeout timeout now }

end NoiseManager

end EasyTun.Protocol
