import Mathlib.Tactic.Common
import EasyTun.Lib.Chan
import EasyTun.Lib.Machine
import EasyTun.Transport.ClientSend
import EasyTun.Transport.Server

/-!
# The TUN devices of a client (`internal/tun/device_linux.go`, `client.go`)

A client has one TUN device at a time. When the server gives it another address after a
reconnect, `ListenAndServe` closes the device and makes a new one with the new address. All of
them share two channels with the rest of the client: `tunRecv` of a device puts what the kernel
sends into `FromTun`, and `tunSend` takes from `FromNet` what `packetRecv` has decrypted.

`tunRecv` ends when its device is closed. `tunSend` waits for packets and for the end of the
program, and does not look at the device: a closed one fails in `Write`, which is logged. `Write`
can fail on an open device as well, when the interface is down or the kernel does not like the
packet.

- `one_device_exact`: as long as there is one device, **`tunSend` writes the packets that
  `packetRecv` has forwarded, each once and in their order**, but for those the kernel refuses.
- `every_packet_accounted`: with any number of devices, the packets are taken in their order,
  each by one `tunSend`, and **a packet that the kernel would have taken is lost only at a device
  that was replaced**, or at the end of the program.
- `stale_device_starves`: such a `tunSend` stays, and **can take everything that waits, so that
  the device in use gets nothing**.
- `accepts_eq_relayed`: the packets that `tunRecv` lets through are those that the server
  relays, and those for broadcast and multicast addresses.
-/

namespace EasyTun.Tun

open EasyTun.Lib EasyTun.Protocol EasyTun.Transport

/-! ## Packets of the kernel -/

/-- `IsMulticast` of an address of four bytes. -/
def isMulticast (ip : ByteArr 4) : Bool := (ip.1.getD 0 0 &&& 0xf0) == 0xe0

/-- `Subnet.Contains` of the device with the address `ip` (device_linux.go:37–41). -/
def subnetContains (ip dst : ByteArr 4) : Bool := dst.1.take 3 == ip.1.take 3

/-- What `tunRecv` passes on (device_linux.go:173–180). -/
def accepts (ip : ByteArr 4) (packet : Bytes) : Bool :=
  !(decide (packet.length < 20) || packet.getD 0 0 >>> 4 != 4) &&
    (dstIp packet == .four 255 255 255 255 || (dstIp packet).1.getD 3 0 == 255 ||
      isMulticast (dstIp packet) ||
      (subnetContains ip (dstIp packet) && (dstIp packet).1.getD 0 0 != 127))

/-- **The device and the server agree**: an IPv4 packet gets to `FromTun` if the server would
relay it, or if its destination is a broadcast or a multicast address. -/
theorem accepts_eq_relayed (x : UInt8) {packet : Bytes} (hlen : 20 ≤ packet.length)
    (hversion : packet.getD 0 0 >>> 4 = 4) :
    accepts (Hub.hostIp x) packet =
      (Plane.relayed (dstIp packet) || (dstIp packet).1.getD 3 0 == 255 ||
        isMulticast (dstIp packet)) := by
  have hbcast : (dstIp packet == .four 255 255 255 255) = true →
      ((dstIp packet).1.getD 3 0 == 255) = true := by
    intro heq
    rw [eq_of_beq heq]
    rfl
  have hhost : (Hub.hostIp x).1.take 3 = Hub.subnetIp.1.take 3 := rfl
  unfold accepts Plane.relayed subnetContains isMulticast
  rw [hversion, hhost]
  simp only [Nat.not_lt.mpr hlen, decide_false, bne_self_eq_false, Bool.or_self, Bool.not_false,
    Bool.true_and]
  revert hbcast
  generalize (dstIp packet == .four 255 255 255 255) = b
  generalize ((dstIp packet).1.getD 3 0 == 255) = l
  generalize (((dstIp packet).1.getD 0 0 &&& 0xf0) == 0xe0) = m
  generalize ((dstIp packet).1.take 3 == Hub.subnetIp.1.take 3) = n
  generalize ((dstIp packet).1.getD 0 0 != 127) = k
  revert b l m n k
  decide

/-! ## The client -/

/-- Where `tunSend` is (device_linux.go:198–213). -/
inductive Sender where
  | waiting
  /-- It has taken this from `FromNet`. -/
  | writing (payload : Bytes)
  | returned

/-- What `tunSend` has in its hands. -/
def Sender.held : Sender → List Bytes
  | .writing payload => [payload]
  | .waiting | .returned => []

/-- What became of a packet that `tunSend` has taken (device_linux.go:202–207). -/
inductive Outcome where
  /-- It has no payload, and `Write` was not called. -/
  | empty
  | written
  /-- The kernel has not taken it. -/
  | refused
  /-- The file was closed. -/
  | closed
  deriving DecidableEq

/-- A device that was made, with its two goroutines. `handled` is what `tunSend` was given, and
what became of it. -/
structure Device where
  ip : ByteArr 4
  isOpen : Bool
  sender : Sender
  receiving : Bool
  handled : List (Bytes × Outcome)

/-- `NewTun` and `Start` (device_linux.go:33–121). -/
def newTun (ip : ByteArr 4) : Device :=
  { ip, isOpen := true, sender := .waiting, receiving := true, handled := [] }

/-- What `tunSend` has written to a device (device_linux.go:202–203). -/
def Device.output (d : Device) : List Bytes :=
  d.handled.filterMap fun e => if e.2 = .written then some (e.1.drop headerLength) else none

/-- What becomes of a packet, when the kernel takes it or not. -/
def Device.outcome (d : Device) (payload : Bytes) (taken : Bool) : Outcome :=
  if headerLength < payload.length then
    if d.isOpen then if taken then .written else .refused else .closed
  else .empty

/-- `tunSend` is done with a packet. -/
def Device.handle (d : Device) (payload : Bytes) (taken : Bool) : Device :=
  { d with sender := .waiting, handled := d.handled ++ [(payload, d.outcome payload taken)] }

/-- The client, as far as its devices go. The devices so far have the numbers below `next`, and
the last one is in use. -/
structure Client where
  localIp : Option (ByteArr 4)
  device : Nat → Device
  next : Nat
  fromNet : Chan Bytes 64
  fromTun : Chan Bytes 256
  cancelled : Bool

/-- A device changes. -/
def Client.set (s : Client) (i : Nat) (d : Device) : Client :=
  { s with device := Function.update s.device i d }

@[simp] theorem Client.set_device_self (s : Client) (i : Nat) (d : Device) :
    (s.set i d).device i = d := by
  show Function.update s.device i d i = d
  rw [Function.update_self]

theorem Client.set_device_of_ne (s : Client) {i j : Nat} (d : Device) (h : j ≠ i) :
    (s.set i d).device j = s.device j := by
  show Function.update s.device i d j = s.device j
  rw [Function.update_of_ne h]

/-- A client before its first handshake. -/
def Client.start : Client :=
  { localIp := none, device := fun _ => newTun (.zero 4), next := 0, fromNet := .empty
    fromTun := .empty, cancelled := false }

/-- Step C of `ListenAndServe` (client.go:171–185). -/
def Client.synchronise (s : Client) (newVip : ByteArr 4) : Client :=
  if s.localIp = some newVip then s
  else
    -- `Close` of the device in use, if there is one
    let old := s.set (s.next - 1) { s.device (s.next - 1) with isOpen := false }
    { old.set s.next (newTun newVip) with localIp := some newVip, next := s.next + 1 }

/-- What `packetRecv`, the goroutines of the devices, the kernel and the user do. -/
inductive Act where
  /-- A handshake was completed, with this address. -/
  | handshake (newVip : ByteArr 4)
  /-- `packetRecv` forwards a decrypted packet, or drops it when `FromNet` is full
  (client_udp.go:170–176). -/
  | forward (raw : Bytes)
  | take (i : Nat)
  /-- `tunSend` writes, and the kernel takes the packet or not. -/
  | write (i : Nat) (taken : Bool)
  /-- `tunRecv` reads a packet of the kernel, or finds the device closed. -/
  | read (i : Nat) (packet : Bytes)
  /-- A worker of `packetSend` takes a packet from `FromTun`. -/
  | collect
  /-- The program is told to stop. -/
  | cancel
  /-- `Start` finds the context done and closes the device. -/
  | shut (i : Nat)
  /-- `tunSend` finds the context done. -/
  | leave (i : Nat)
  /-- `tunRecv` finds the context done. -/
  | leaveRecv (i : Nat)

/-- One step of one of them. -/
def step (s : Client) : Act → Option Client
  | .handshake newVip => some (s.synchronise newVip)
  | .forward raw => some { s with fromNet := s.fromNet.trySend raw }
  | .take i =>
    match (s.device i).sender, s.fromNet.recv with
    | .waiting, some (payload, rest) =>
      guardTo (i < s.next)
        { s.set i { s.device i with sender := .writing payload } with fromNet := rest }
    | _, _ => none
  | .write i taken =>
    match (s.device i).sender with
    | .writing payload => guardTo (i < s.next) (s.set i ((s.device i).handle payload taken))
    | _ => none
  | .read i packet =>
    guardTo (i < s.next ∧ (s.device i).receiving = true) <|
      if (s.device i).isOpen then
        if accepts (s.device i).ip packet then { s with fromTun := s.fromTun.trySend packet } else s
      else s.set i { s.device i with receiving := false }
  | .collect => s.fromTun.recv.map fun r => { s with fromTun := r.2 }
  | .cancel => some { s with cancelled := true }
  | .shut i =>
    guardTo (i < s.next ∧ s.cancelled = true) (s.set i { s.device i with isOpen := false })
  | .leave i =>
    match (s.device i).sender with
    | .waiting =>
      guardTo (i < s.next ∧ s.cancelled = true) (s.set i { s.device i with sender := .returned })
    | _ => none
  | .leaveRecv i =>
    guardTo (i < s.next ∧ s.cancelled = true) (s.set i { s.device i with receiving := false })

/-- What passed through `FromNet`: the packets put into it, and by which device they were
taken. -/
structure Journal where
  forwarded : List Bytes
  taken : List (Nat × Bytes)

/-- What a step adds to the journal. -/
def Journal.note (o : Journal) (s : Client) : Act → Journal
  | .forward raw =>
    if s.fromNet.len < 64 then { o with forwarded := o.forwarded ++ [raw] } else o
  | .take i =>
    match s.fromNet.recv with
    | some (payload, _) => { o with taken := o.taken ++ [(i, payload)] }
    | none => o
  | _ => o

/-- The client and the observer of `FromNet`. -/
def machine : Machine (Client × Journal) Act :=
  ({ init := Client.start, step := step } : Machine Client Act).observe ⟨[], []⟩
    fun o s a _ => o.note s a

/-! ## The invariant -/

/-- What `tunSend` of a device has taken, in its order. -/
def Journal.takenBy (o : Journal) (i : Nat) : List Bytes :=
  (o.taken.filter fun e => e.1 = i).map (·.2)

/-- The device `i` of a client with so many devices. -/
structure Device.Ok (o : Journal) (next : Nat) (cancelled : Bool) (i : Nat) (d : Device) :
    Prop where
  /-- It handles what it takes, in that order. -/
  each : o.takenBy i = d.handled.map (·.1) ++ d.sender.held
  replaced : i + 1 < next → d.isOpen = false
  inUse : i + 1 = next → cancelled = false → d.isOpen = true
  empty : ∀ e ∈ d.handled, e.2 = .empty ↔ e.1.length ≤ headerLength
  lost : ∀ e ∈ d.handled, e.2 = .closed → i + 1 < next ∨ cancelled = true
  waits : cancelled = false → d.sender ≠ .returned

/-- **What is known about the packets and the devices.** -/
structure Inv (s : Client) (o : Journal) : Prop where
  /-- The packets are taken in their order. -/
  queue : o.forwarded = o.taken.map (·.2) ++ s.fromNet.items
  made : ∀ e ∈ o.taken, e.1 < s.next
  device : ∀ i, (s.device i).Ok o s.next s.cancelled i

section Steps

variable {s s' : Client} {o o' : Journal} {i next : Nat} {cancelled : Bool} {d d' : Device}

theorem takenBy_append (o : Journal) (j i : Nat) (payload : Bytes) :
    ({ o with taken := o.taken ++ [(j, payload)] } : Journal).takenBy i =
      if j = i then o.takenBy i ++ [payload] else o.takenBy i := by
  unfold Journal.takenBy
  simp only [List.filter_append, List.map_append]
  split
  · next hji => simp [hji]
  · next hji => simp [hji]

/-- Nothing was taken by a device that does not exist yet. -/
theorem Inv.takenBy_next (hI : Inv s o) : o.takenBy s.next = [] := by
  unfold Journal.takenBy
  rw [List.map_eq_nil_iff, List.filter_eq_nil_iff]
  intro e he
  simp only [decide_eq_true_eq]
  exact Nat.ne_of_lt (hI.made e he)

theorem Inv.set (hI : Inv s o) (hd : d.Ok o s.next s.cancelled i) : Inv (s.set i d) o := by
  refine ⟨hI.queue, hI.made, fun j => ?_⟩
  by_cases hj : j = i
  · subst hj
    rw [s.set_device_self]
    exact hd
  · rw [s.set_device_of_ne d hj]
    exact hI.device j

/-- The end of the program allows more. -/
theorem Device.Ok.cancel (hd : d.Ok o next cancelled i) : d.Ok o next true i :=
  ⟨hd.each, hd.replaced, fun _ hf => absurd hf.symm Bool.false_ne_true, hd.empty,
    fun _ _ _ => Or.inr rfl, fun hf => absurd hf.symm Bool.false_ne_true⟩

/-- A device is closed because the next one is made. -/
theorem Device.Ok.replace (hd : d.Ok o (i + 1) cancelled i) :
    { d with isOpen := false }.Ok o (i + 1 + 1) cancelled i :=
  ⟨hd.each, fun _ => rfl, fun hlast => absurd hlast (Nat.ne_of_lt (Nat.lt_succ_self _)),
    hd.empty, fun _ _ _ => Or.inl (Nat.lt_succ_self _), hd.waits⟩

/-- One more device. -/
theorem Device.Ok.grow (hd : d.Ok o next cancelled i) (hlt : i + 1 < next) :
    d.Ok o (next + 1) cancelled i :=
  ⟨hd.each, fun _ => hd.replaced hlt, fun hlast => absurd hlast (by omega), hd.empty,
    fun _ _ _ => Or.inl (by omega), hd.waits⟩

theorem Inv.synchronise (hI : Inv s o) (newVip : ByteArr 4) : Inv (s.synchronise newVip) o := by
  unfold Client.synchronise
  split
  · exact hI
  · refine ⟨hI.queue, fun e he => Nat.lt_succ_of_lt (hI.made e he), fun j => ?_⟩
    show (Function.update (Function.update s.device (s.next - 1) _) s.next (newTun newVip) j).Ok o
      (s.next + 1) s.cancelled j
    rcases Nat.lt_trichotomy j s.next with hj | rfl | hj
    · rw [Function.update_of_ne (Nat.ne_of_lt hj)]
      by_cases hlast : j + 1 = s.next
      · -- the device in use
        have hd := hI.device j
        rw [show s.next - 1 = j by omega, Function.update_self]
        rw [← hlast] at hd ⊢
        exact hd.replace
      · rw [Function.update_of_ne (by omega)]
        exact (hI.device j).grow (by omega)
    · rw [Function.update_self]
      refine ⟨?_, fun hlt => absurd hlt (Nat.lt_irrefl _), fun _ _ => rfl, ?_, ?_, ?_⟩
      · exact hI.takenBy_next
      · intro e he
        cases he
      · intro e he
        cases he
      · intro _ hret
        cases hret
    · rw [Function.update_of_ne (Nat.ne_of_gt hj), Function.update_of_ne (by omega)]
      have hd := hI.device j
      exact ⟨hd.each, fun hlt => absurd hlt (by omega), fun heq => absurd heq (by omega), hd.empty,
        fun e he hlost => (hd.lost e he hlost).imp_left fun hlt => absurd hlt (by omega), hd.waits⟩

/-- A packet is put into `FromNet`, if there is room. -/
theorem Inv.forward (hI : Inv s o) (raw : Bytes) :
    Inv { s with fromNet := s.fromNet.trySend raw } (o.note s (.forward raw)) := by
  have hitems := s.fromNet.items_trySend raw
  unfold Journal.note
  simp only
  split
  · next hroom =>
    refine ⟨?_, hI.made, fun i => ?_⟩
    · show o.forwarded ++ [raw] = o.taken.map (·.2) ++ (s.fromNet.trySend raw).items
      rw [hitems, if_pos hroom, hI.queue, List.append_assoc]
    · have hd := hI.device i
      exact ⟨hd.each, hd.replaced, hd.inUse, hd.empty, hd.lost, hd.waits⟩
  · next hfull =>
    refine ⟨?_, hI.made, hI.device⟩
    show o.forwarded = o.taken.map (·.2) ++ (s.fromNet.trySend raw).items
    rw [hitems, if_neg hfull]
    exact hI.queue

/-- A packet is taken from `FromNet`. -/
theorem Inv.take (hI : Inv s o) {payload : Bytes} {rest : Chan Bytes 64} (hi : i < s.next)
    (hsender : (s.device i).sender = .waiting) (hrecv : s.fromNet.recv = some (payload, rest)) :
    Inv { s.set i { s.device i with sender := .writing payload } with fromNet := rest }
      { o with taken := o.taken ++ [(i, payload)] } := by
  refine ⟨?_, ?_, fun j => ?_⟩
  · show o.forwarded = (o.taken ++ [(i, payload)]).map (·.2) ++ rest.items
    rw [hI.queue, Chan.recv_eq_some.mp hrecv, List.map_append, List.append_assoc]
    rfl
  · intro e he
    rcases List.mem_append.mp he with he | he
    · exact hI.made e he
    · rw [List.mem_singleton.mp he]
      exact hi
  · have hd := hI.device j
    show (Function.update s.device i _ j).Ok _ s.next s.cancelled j
    by_cases hj : j = i
    · subst hj
      rw [Function.update_self]
      refine ⟨?_, hd.replaced, hd.inUse, hd.empty, hd.lost, fun _ hret => by cases hret⟩
      have heach := hd.each
      rw [hsender] at heach
      rw [takenBy_append, if_pos rfl, heach]
      exact congrArg (· ++ [payload]) (List.append_nil _)
    · rw [Function.update_of_ne hj]
      refine ⟨?_, hd.replaced, hd.inUse, hd.empty, hd.lost, hd.waits⟩
      rw [takenBy_append, if_neg (Ne.symm hj)]
      exact hd.each

theorem Device.outcome_eq_empty (payload : Bytes) (taken : Bool) :
    d.outcome payload taken = .empty ↔ payload.length ≤ headerLength := by
  unfold Device.outcome
  split
  · next hlong =>
    have houtcome : (if d.isOpen then if taken then Outcome.written else .refused else .closed) ≠
        .empty := by
      cases d.isOpen <;> cases taken <;> decide
    exact ⟨fun h => absurd h houtcome, fun hle => absurd hlong (Nat.not_lt.mpr hle)⟩
  · next hshort => exact ⟨fun _ => Nat.le_of_not_lt hshort, fun _ => rfl⟩

theorem Device.outcome_of_open (payload : Bytes) (taken : Bool) (hopen : d.isOpen = true) :
    d.outcome payload taken ≠ .closed := by
  unfold Device.outcome
  rw [hopen]
  split
  · cases taken <;> decide
  · decide

/-- A packet is written, or not. -/
theorem Device.Ok.handle (hd : d.Ok o next cancelled i) {payload : Bytes} (taken : Bool)
    (hi : i < next) (hsender : d.sender = .writing payload) :
    (d.handle payload taken).Ok o next cancelled i := by
  have hmem : ∀ e ∈ (d.handle payload taken).handled,
      e ∈ d.handled ∨ e = (payload, d.outcome payload taken) := fun e he =>
    (List.mem_append.mp he).imp_right List.mem_singleton.mp
  refine ⟨?_, hd.replaced, hd.inUse, ?_, ?_, fun _ hret => by cases hret⟩
  · rw [hd.each, hsender]
    show _ = (d.handled ++ [(payload, d.outcome payload taken)]).map (·.1) ++ []
    rw [List.map_append, List.append_nil]
    rfl
  · intro e he
    rcases hmem e he with he | rfl
    · exact hd.empty e he
    · exact Device.outcome_eq_empty payload taken
  · intro e he hlost
    rcases hmem e he with he | rfl
    · exact hd.lost e he hlost
    · -- a closed device is not in use, or the program ends
      by_cases hlt : i + 1 < next
      · exact Or.inl hlt
      · refine Or.inr (Bool.eq_true_of_not_eq_false fun hc => ?_)
        exact Device.outcome_of_open payload taken (hd.inUse (by omega) hc) hlost

theorem Inv.step {a : Act} (hI : Inv s o) (hs : Tun.step s a = some s') : Inv s' (o.note s a) := by
  cases a with
  | handshake newVip =>
    cases hs
    exact hI.synchronise newVip
  | forward raw =>
    cases hs
    exact hI.forward raw
  | take i =>
    simp only [Tun.step] at hs
    split at hs
    · next payload rest hsender hrecv =>
      obtain ⟨hi, rfl⟩ := guardTo_eq_some.mp hs
      simp only [Journal.note, hrecv]
      exact hI.take hi hsender hrecv
    · cases hs
  | write i taken =>
    simp only [Tun.step] at hs
    split at hs
    · next payload hsender =>
      obtain ⟨hi, rfl⟩ := guardTo_eq_some.mp hs
      exact hI.set ((hI.device i).handle taken hi hsender)
    · cases hs
  | read i packet =>
    obtain ⟨-, rfl⟩ := guardTo_eq_some.mp hs
    split
    · split
      · exact ⟨hI.queue, hI.made, hI.device⟩
      · exact hI
    · have hd := hI.device i
      exact hI.set ⟨hd.each, hd.replaced, hd.inUse, hd.empty, hd.lost, hd.waits⟩
  | collect =>
    obtain ⟨r, -, rfl⟩ := Option.map_eq_some_iff.mp hs
    exact ⟨hI.queue, hI.made, hI.device⟩
  | cancel =>
    cases hs
    exact ⟨hI.queue, hI.made, fun i => (hI.device i).cancel⟩
  | shut i =>
    obtain ⟨⟨-, hc⟩, rfl⟩ := guardTo_eq_some.mp hs
    have hd := hI.device i
    refine hI.set ⟨hd.each, fun _ => rfl, fun _ hf => ?_, hd.empty, hd.lost, hd.waits⟩
    rw [hc] at hf
    cases hf
  | leave i =>
    simp only [Tun.step] at hs
    split at hs
    · next hsender =>
      obtain ⟨⟨-, hc⟩, rfl⟩ := guardTo_eq_some.mp hs
      have hd := hI.device i
      have heach := hd.each
      rw [hsender] at heach
      refine hI.set ⟨heach, hd.replaced, hd.inUse, hd.empty, hd.lost, fun hf => ?_⟩
      rw [hc] at hf
      cases hf
    · cases hs
  | leaveRecv i =>
    obtain ⟨-, rfl⟩ := guardTo_eq_some.mp hs
    have hd := hI.device i
    exact hI.set ⟨hd.each, hd.replaced, hd.inUse, hd.empty, hd.lost, hd.waits⟩

end Steps

theorem inv_of_reach {p : Client × Journal} (hr : machine.Reach p) : Inv p.1 p.2 := by
  refine hr.invariant (P := fun p => Inv p.1 p.2) ?_ ?_
  · refine ⟨rfl, ?_, fun i => ?_⟩
    · intro e he
      cases he
    · refine ⟨rfl, fun hlt => absurd hlt (Nat.not_lt_zero _), fun _ _ => rfl, ?_, ?_, ?_⟩
      · intro e he
        cases he
      · intro e he
        cases he
      · intro _ hret
        cases hret
  · intro p q a hI hs
    obtain ⟨hstep, hnote⟩ := Machine.step_of_observe hs
    rw [hnote]
    exact hI.step hstep

/-! ## What the kernel gets -/

/-- What of a packet in `FromNet` is for the kernel: its payload, if it has one. -/
def inner (raw : Bytes) : Option Bytes :=
  if headerLength < raw.length then some (raw.drop headerLength) else none

/-- The device that never was closed has written what the kernel did not refuse. -/
theorem Device.Ok.output_eq {o : Journal} {next i : Nat} {cancelled : Bool} {d : Device}
    (hd : d.Ok o next cancelled i) (hopen : ∀ e ∈ d.handled, e.2 ≠ .closed) :
    d.output = ((d.handled.filter (·.2 ≠ .refused)).map (·.1)).filterMap inner := by
  unfold Device.output
  rw [List.filterMap_map, List.filterMap_filter]
  refine List.filterMap_congr fun e he => ?_
  have hempty := hd.empty e he
  have hclosed := hopen e he
  rw [Function.comp_apply]
  unfold inner
  cases hout : e.2 with
  | written =>
    rw [hout] at hempty
    have hlong : headerLength < e.1.length := by simpa using hempty
    simp [hlong]
  | empty =>
    rw [hout] at hempty
    have hshort : e.1.length ≤ headerLength := hempty.mp rfl
    simp [Nat.not_lt.mpr hshort]
  | refused => simp
  | closed => exact absurd hout hclosed

variable {p : Client × Journal} {i : Nat}

/-- **One device, no loss of its own.** As long as the server has given the client one address,
`tunSend` is done with what `packetRecv` has forwarded, in that order and each packet once, up to
the one that it holds and those that wait in `FromNet`; and it has written the payloads of all of
them that the kernel did not refuse. -/
theorem one_device_exact (hr : machine.Reach p) (hone : p.1.next ≤ 1)
    (hrun : p.1.cancelled = false) :
    p.2.forwarded = (p.1.device 0).handled.map (·.1) ++ (p.1.device 0).sender.held ++
      p.1.fromNet.items ∧
    (p.1.device 0).output =
      (((p.1.device 0).handled.filter (·.2 ≠ .refused)).map (·.1)).filterMap inner := by
  have hI := inv_of_reach hr
  have hd := hI.device 0
  have hopen : ∀ e ∈ (p.1.device 0).handled, e.2 ≠ .closed := by
    intro e he hlost
    rcases hd.lost e he hlost with hlt | hc
    · omega
    · rw [hrun] at hc
      cases hc
  refine ⟨?_, hd.output_eq hopen⟩
  -- everything was taken by the device 0
  have hall : p.2.takenBy 0 = p.2.taken.map (·.2) := by
    unfold Journal.takenBy
    rw [List.filter_eq_self.mpr]
    intro e he
    have := hI.made e he
    exact decide_eq_true (by omega)
  rw [hI.queue, ← hall, hd.each]

/-- A run in which one packet is refused, one is written and a third one waits. -/
theorem one_device_exact_run :
    ∃ p, machine.Reach p ∧ (p.1.device 0).output = [[7]] ∧ p.1.fromNet.len = 1 ∧
      p.2.forwarded = (p.1.device 0).handled.map (·.1) ++ (p.1.device 0).sender.held ++
        p.1.fromNet.items ∧
      (p.1.device 0).output =
        (((p.1.device 0).handled.filter (·.2 ≠ .refused)).map (·.1)).filterMap inner := by
  obtain ⟨p, hr, hone, hrun, hout, hlen⟩ : ∃ p, machine.Reach p ∧ p.1.next ≤ 1 ∧
      p.1.cancelled = false ∧ (p.1.device 0).output = [[7]] ∧ p.1.fromNet.len = 1 :=
    Machine.exists_reach
      [.handshake (Hub.hostIp 2), .forward (List.replicate headerLength 0 ++ [6]), .take 0,
        .write 0 false, .forward (List.replicate headerLength 0 ++ [7]), .take 0, .write 0 true,
        .forward (List.replicate headerLength 0)] (by decide +kernel)
  exact ⟨p, hr, hout, hlen, one_device_exact hr hone hrun⟩

/-- **Every packet is accounted for**, whatever the number of devices: the packets are taken in
the order in which they were forwarded, each by one device that was made, and every device handles
what it took in that order. A packet that was not written has no payload, or the kernel has refused
it, or it was at a device that had been replaced, or the program was ending. -/
theorem every_packet_accounted (hr : machine.Reach p) :
    p.2.forwarded = p.2.taken.map (·.2) ++ p.1.fromNet.items ∧
    (∀ e ∈ p.2.taken, e.1 < p.1.next) ∧
    ∀ i, p.2.takenBy i = (p.1.device i).handled.map (·.1) ++ (p.1.device i).sender.held ∧
      ∀ e ∈ (p.1.device i).handled, e.2 ≠ .written →
        e.1.length ≤ headerLength ∨ e.2 = .refused ∨ i + 1 < p.1.next ∨ p.1.cancelled = true := by
  have hI := inv_of_reach hr
  refine ⟨hI.queue, hI.made, fun i => ⟨(hI.device i).each, fun e he hlost => ?_⟩⟩
  cases hout : e.2 with
  | empty => exact Or.inl (((hI.device i).empty e he).mp hout)
  | written => exact absurd hout hlost
  | refused => exact Or.inr (Or.inl rfl)
  | closed => exact Or.inr (Or.inr ((hI.device i).lost e he hout))

/-- A run in which a packet is lost: the device was replaced before it was written. -/
theorem every_packet_accounted_replaced :
    ∃ p, machine.Reach p ∧
      (p.1.device 0).handled = [(List.replicate headerLength 0 ++ [7], .closed)] ∧
      p.2.forwarded = p.2.taken.map (·.2) ++ p.1.fromNet.items ∧
      (∀ e ∈ p.2.taken, e.1 < p.1.next) ∧
      ∀ i, p.2.takenBy i = (p.1.device i).handled.map (·.1) ++ (p.1.device i).sender.held ∧
        ∀ e ∈ (p.1.device i).handled, e.2 ≠ .written →
          e.1.length ≤ headerLength ∨ e.2 = .refused ∨ i + 1 < p.1.next ∨
            p.1.cancelled = true := by
  obtain ⟨p, hr, hlost⟩ : ∃ p, machine.Reach p ∧
      (p.1.device 0).handled = [(List.replicate headerLength 0 ++ [7], .closed)] :=
    Machine.exists_reach
      [.handshake (Hub.hostIp 2), .forward (List.replicate headerLength 0 ++ [7]), .take 0,
        .handshake (Hub.hostIp 3), .write 0 true]
      (by decide +kernel)
  exact ⟨p, hr, hlost, every_packet_accounted hr⟩

/-! ## A device that was replaced -/

theorem machine_step {a : Act} {s : Client} (h : step p.1 a = some s) :
    machine.step p a = some (s, p.2.note p.1 a) := by
  show (step p.1 a).map _ = _
  rw [h]
  rfl

theorem step_take {s : Client} {payload : Bytes} {rest : Chan Bytes 64} (hi : i < s.next)
    (hsender : (s.device i).sender = .waiting) (hrecv : s.fromNet.recv = some (payload, rest)) :
    step s (.take i) = some
      { s.set i { s.device i with sender := .writing payload } with fromNet := rest } := by
  simp only [step, hsender, hrecv]
  exact guardTo_eq_some.mpr ⟨hi, rfl⟩

theorem step_write {s : Client} {payload : Bytes} (taken : Bool) (hi : i < s.next)
    (hsender : (s.device i).sender = .writing payload) :
    step s (.write i taken) = some (s.set i ((s.device i).handle payload taken)) := by
  simp only [step, hsender]
  exact guardTo_eq_some.mpr ⟨hi, rfl⟩

/-- Nothing but what `tunSend` of the closed device `i` does happened between `s` and `t`. -/
structure Starved (i : Nat) (s t : Client) : Prop where
  next : t.next = s.next
  others : ∀ j, j ≠ i → t.device j = s.device j
  closed : (t.device i).isOpen = false
  output : (t.device i).output = (s.device i).output

theorem Starved.set {s t : Client} {d : Device} (h : Starved i s t) (hclosed : d.isOpen = false)
    (hout : d.output = (t.device i).output) : Starved i s (t.set i d) := by
  refine ⟨h.next, fun j hj => ?_, ?_, ?_⟩
  · rw [t.set_device_of_ne d hj, h.others j hj]
  · rw [t.set_device_self, hclosed]
  · rw [t.set_device_self, hout, h.output]

/-- A closed device writes nothing. -/
theorem Device.output_handle_closed {d : Device} (payload : Bytes) (taken : Bool)
    (h : d.isOpen = false) : (d.handle payload taken).output = d.output := by
  have hout : d.outcome payload taken ≠ .written := by
    unfold Device.outcome
    rw [h]
    split <;> exact Outcome.noConfusion
  show (d.handled ++ [(payload, d.outcome payload taken)]).filterMap _ = _
  rw [List.filterMap_append, List.filterMap_cons, if_neg hout]
  exact List.append_nil _

/-- Steps of `tunSend` of the device `i`. -/
def Act.ofSender (i : Nat) (a : Act) : Prop := a = .take i ∨ ∃ taken, a = .write i taken

/-- `tunSend` of a closed device comes to wait for the next packet. -/
theorem Starved.settle {s : Client} {t : Client × Journal} (h : Starved i s t.1)
    (hi : i < t.1.next) (hsender : (t.1.device i).sender ≠ .returned)
    (hpath : machine.PathVia (fun _ a => a.ofSender i) p t) :
    ∃ u : Client × Journal, machine.PathVia (fun _ a => a.ofSender i) p u ∧ Starved i s u.1 ∧
      (u.1.device i).sender = .waiting ∧ u.1.fromNet = t.1.fromNet := by
  cases hcase : (t.1.device i).sender with
  | waiting => exact ⟨t, hpath, h, hcase, rfl⟩
  | returned => exact absurd hcase hsender
  | writing payload =>
    refine ⟨_, hpath.step (Or.inr ⟨true, rfl⟩) (machine_step (step_write true hi hcase)), ?_, ?_,
      rfl⟩
    · exact h.set h.closed (Device.output_handle_closed payload true h.closed)
    · exact congrArg Device.sender (t.1.set_device_self i _)

/-- It takes the next packet. -/
theorem Starved.take {s : Client} {t : Client × Journal} {payload : Bytes} {rest : Chan Bytes 64}
    (h : Starved i s t.1) (hi : i < t.1.next) (hsender : (t.1.device i).sender = .waiting)
    (hrecv : t.1.fromNet.recv = some (payload, rest))
    (hpath : machine.PathVia (fun _ a => a.ofSender i) p t) :
    ∃ u : Client × Journal, machine.PathVia (fun _ a => a.ofSender i) p u ∧ Starved i s u.1 ∧
      (u.1.device i).sender = .writing payload ∧ u.1.fromNet = rest := by
  have htaken := h.set (d := { t.1.device i with sender := .writing payload }) h.closed rfl
  refine ⟨_, hpath.step (Or.inl rfl) (machine_step (step_take hi hsender hrecv)), ?_, ?_, rfl⟩
  · exact ⟨htaken.next, htaken.others, htaken.closed, htaken.output⟩
  · exact congrArg Device.sender (t.1.set_device_self i _)

/-- It takes all that waits: by induction on the length of the queue. -/
theorem Starved.drain {s : Client} {n : Nat} : ∀ {t : Client × Journal}, Starved i s t.1 →
    i < s.next → (t.1.device i).sender = .waiting → t.1.fromNet.len = n →
    machine.PathVia (fun _ a => a.ofSender i) p t →
    ∃ q : Client × Journal, machine.PathVia (fun _ a => a.ofSender i) p q ∧ Starved i s q.1 ∧
      q.1.fromNet.len = 0 := by
  induction n with
  | zero => exact fun h _ _ hlen hpath => ⟨_, hpath, h, hlen⟩
  | succ n ih =>
    intro t h hi hsender hlen hpath
    cases hrecv : t.1.fromNet.recv with
    | none =>
      rw [Chan.recv_eq_none.mp hrecv] at hlen
      cases hlen
    | some r =>
      obtain ⟨payload, rest⟩ := r
      have hrest := Chan.len_recv hrecv
      obtain ⟨u, hu, hstarved, hwriting, hqueue⟩ :=
        h.take (h.next ▸ hi) hsender hrecv hpath
      have hsender : (u.1.device i).sender ≠ .returned := by
        rw [hwriting]
        exact Sender.noConfusion
      obtain ⟨v, hv, hstarved', hwaits, hqueue'⟩ :=
        hstarved.settle (hstarved.next ▸ hi) hsender hu
      refine ih hstarved' hi hwaits ?_ hv
      rw [hqueue', hqueue]
      omega

/-- **A replaced device starves the one in use.** While the program runs, `tunSend` of a device
that was replaced has not returned, and can take every packet that waits: then no other device
has got one of them, and nothing was written. -/
theorem stale_device_starves (hr : machine.Reach p) (hrun : p.1.cancelled = false)
    (hstale : i + 1 < p.1.next) :
    ∃ q : Client × Journal, machine.PathVia (fun _ a => a.ofSender i) p q ∧
      q.1.fromNet.len = 0 ∧ (∀ j, j ≠ i → q.1.device j = p.1.device j) ∧
      (q.1.device i).output = (p.1.device i).output := by
  have hd := (inv_of_reach hr).device i
  have hstart : Starved i p.1 p.1 := ⟨rfl, fun _ _ => rfl, hd.replaced hstale, rfl⟩
  obtain ⟨t, ht, hstarved, hwaits, -⟩ := hstart.settle (by omega) (hd.waits hrun) .refl
  obtain ⟨q, hq, hdone, hlen⟩ := hstarved.drain (by omega) hwaits rfl ht
  exact ⟨q, hq, hlen, hdone.others, hdone.output⟩

/-- Two devices and a packet that waits. -/
theorem stale_device_starves_reconnect :
    ∃ p, machine.Reach p ∧ p.1.fromNet.len = 1 ∧
      ∃ q : Client × Journal, machine.PathVia (fun _ a => a.ofSender 0) p q ∧
        q.1.fromNet.len = 0 ∧ (∀ j, j ≠ 0 → q.1.device j = p.1.device j) ∧
        (q.1.device 0).output = (p.1.device 0).output := by
  obtain ⟨p, hr, hrun, hstale, hlen⟩ : ∃ p, machine.Reach p ∧ p.1.cancelled = false ∧
      0 + 1 < p.1.next ∧ p.1.fromNet.len = 1 :=
    Machine.exists_reach
      [.handshake (Hub.hostIp 2), .handshake (Hub.hostIp 3), .forward [7]] (by decide +kernel)
  exact ⟨p, hr, hlen, stale_device_starves hr hrun hstale⟩

end EasyTun.Tun
