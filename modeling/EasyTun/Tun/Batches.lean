import Mathlib.Tactic.Common
import EasyTun.Tun.Devices

/-!
# The sender of the Wintun device (`internal/tun/device_windows.go`)

On Windows `tunSend` does not write a packet as soon as it has taken it from `FromNet`. It takes
more packets as long as there are some, up to 64, and then gives the batch to the ring of the
adapter, packet by packet. The ring may have no room for a packet, which is then lost. On Linux
there are no batches: the packets are written one by one.

- `Matches`: a state of the Windows client and one of the Linux client in which **the kernel on
  Linux has got what the adapter was given, and the batch**.
- `batches_refine`: every state of the Windows client has such a counterpart. So **the adapter
  gets what a Linux device would get, in the same order**, without the packets that the ring had
  no room for.
-/

namespace EasyTun.Tun.Batches

open EasyTun.Lib EasyTun.Protocol

/-! ## The client -/

/-- Where `tunSend` is (device_windows.go:207–243). -/
inductive Sender where
  | waiting
  /-- In the `DrainLoop`. -/
  | draining (payloadBatch : List Bytes)
  /-- These are left of the batch. -/
  | sending (payloadBatch : List Bytes)
  | returned

/-- What it has in its hands. -/
def Sender.batch : Sender → List Bytes
  | .draining payloadBatch | .sending payloadBatch => payloadBatch
  | .waiting | .returned => []

/-- How many packets `tunSend` collects at most. -/
def batchSize : Nat := 64

/-- The client, as far as the device goes. `forwarded` are the packets that were put into
`FromNet`, and `sent` those for which `AllocateSendPacket` was called, and whether it had room. -/
structure Adapter where
  sender : Sender
  fromNet : Chan Bytes 64
  cancelled : Bool
  forwarded : List Bytes
  sent : List (Bytes × Bool)

/-- An adapter that has just been opened. -/
def Adapter.start : Adapter :=
  { sender := .waiting, fromNet := .empty, cancelled := false, forwarded := [], sent := [] }

/-- What was sent to the adapter (device_windows.go:228–232). -/
def Adapter.output (w : Adapter) : List Bytes :=
  w.sent.filterMap fun e => if e.2 then some (e.1.drop headerLength) else none

/-- A packet joins the batch, unless it has no payload (device_windows.go:213–214, 219–221). -/
def join (payloadBatch : List Bytes) (payload : Bytes) : List Bytes :=
  if headerLength < payload.length then payloadBatch ++ [payload] else payloadBatch

/-- What the workers of `packetRecv`, `tunSend` and the user do. -/
inductive Act where
  /-- `packetRecv` forwards a decrypted packet, or drops it when `FromNet` is full. -/
  | forward (raw : Bytes)
  /-- `tunSend` takes a packet. -/
  | take
  /-- It leaves the `DrainLoop`. -/
  | drained
  /-- It sends a packet of the batch, if the ring has room. -/
  | send (room : Bool)
  /-- The batch is done. -/
  | next
  /-- The program is told to stop. -/
  | cancel
  | leave

/-- One step of one of them. -/
def step (w : Adapter) : Act → Option Adapter
  | .forward raw =>
    some { w with
      fromNet := w.fromNet.trySend raw
      forwarded := if w.fromNet.len < 64 then w.forwarded ++ [raw] else w.forwarded }
  | .take =>
    match w.sender, w.fromNet.recv with
    | .waiting, some (payload, rest) =>
      some { w with
        fromNet := rest
        sender :=
          if headerLength < payload.length then .draining (join [] payload) else .sending [] }
    | .draining payloadBatch, some (extraPacket, rest) =>
      guardTo (payloadBatch.length < batchSize)
        { w with fromNet := rest, sender := .draining (join payloadBatch extraPacket) }
    | _, _ => none
  | .drained =>
    match w.sender with
    | .draining payloadBatch =>
      guardTo (payloadBatch.length = batchSize ∨ w.fromNet.len = 0)
        { w with sender := .sending payloadBatch }
    | _ => none
  | .send room =>
    match w.sender with
    | .sending (p :: rest) => some { w with sender := .sending rest, sent := w.sent ++ [(p, room)] }
    | _ => none
  | .next =>
    match w.sender with
    | .sending [] => some { w with sender := .waiting }
    | _ => none
  | .cancel => some { w with cancelled := true }
  | .leave =>
    match w.sender with
    | .waiting => guardTo (w.cancelled = true) { w with sender := .returned }
    | _ => none

/-- The adapter from its start. -/
def machine : Machine Adapter Act := { init := .start, step }

/-! ## What a step does -/

/-- **The steps**, by what happens to the packets. -/
inductive Does (w : Adapter) : Act → Adapter → Prop where
  | forward {raw : Bytes} :
      Does w (.forward raw)
        { w with
          fromNet := w.fromNet.trySend raw
          forwarded := if w.fromNet.len < 64 then w.forwarded ++ [raw] else w.forwarded }
  /-- A packet joins the batch; the first one is the first of an empty batch. -/
  | take {payload : Bytes} {rest : Chan Bytes 64} {sender : Sender}
      (hrecv : w.fromNet.recv = some (payload, rest)) (hlt : w.sender.batch.length < batchSize)
      (hbatch : sender.batch = join w.sender.batch payload) :
      Does w .take { w with fromNet := rest, sender }
  | send {p : Bytes} {rest : List Bytes} {room : Bool} (hsender : w.sender = .sending (p :: rest)) :
      Does w (.send room) { w with sender := .sending rest, sent := w.sent ++ [(p, room)] }
  /-- Nothing happens to the packets. -/
  | moves {a : Act} {sender : Sender} {cancelled : Bool} (hbatch : sender.batch = w.sender.batch) :
      Does w a { w with sender, cancelled }

variable {w w' : Adapter} {a : Act}

/-- **Inversion.** -/
theorem does_of_step (hs : step w a = some w') : Does w a w' := by
  cases a with
  | forward raw =>
    cases hs
    exact .forward
  | take =>
    simp only [step] at hs
    split at hs
    · next payload rest hsender hrecv =>
      cases hs
      refine .take hrecv (by rw [hsender]; decide) ?_
      rw [hsender]
      unfold join
      split
      · rfl
      · rfl
    · next payloadBatch extraPacket rest hsender hrecv =>
      obtain ⟨hlt, rfl⟩ := guardTo_eq_some.mp hs
      refine .take hrecv ?_ ?_
      · rw [hsender]
        exact hlt
      · rw [hsender]
        rfl
    · cases hs
  | drained =>
    simp only [step] at hs
    split at hs
    · next hsender =>
      obtain ⟨-, rfl⟩ := guardTo_eq_some.mp hs
      exact .moves (hsender ▸ rfl)
    · cases hs
  | send room =>
    simp only [step] at hs
    split at hs
    · next hsender =>
      cases hs
      exact .send hsender
    · cases hs
  | next =>
    simp only [step] at hs
    split at hs
    · next hsender =>
      cases hs
      exact .moves (hsender ▸ rfl)
    · cases hs
  | cancel =>
    cases hs
    exact .moves rfl
  | leave =>
    simp only [step] at hs
    split at hs
    · next hsender =>
      obtain ⟨-, rfl⟩ := guardTo_eq_some.mp hs
      exact .moves (hsender ▸ rfl)
    · cases hs

/-- What `tunSend` has taken and kept, in its order. -/
def Adapter.kept (w : Adapter) : List Bytes := w.sent.map (·.1) ++ w.sender.batch

theorem append_join (l payloadBatch : List Bytes) (payload : Bytes) :
    l ++ join payloadBatch payload = join (l ++ payloadBatch) payload := by
  unfold join
  split
  · rw [List.append_assoc]
  · rfl

theorem filterMap_join (payloadBatch : List Bytes) (payload : Bytes) :
    (join payloadBatch payload).filterMap inner =
      payloadBatch.filterMap inner ++ (inner payload).toList := by
  unfold join
  split
  · next hlong => rw [List.filterMap_append, List.filterMap_cons, inner, if_pos hlong]; rfl
  · next hshort => rw [inner, if_neg hshort]; exact (List.append_nil _).symm

/-- **The packets that are kept have a payload, and the batch fits** into the slice that was made
for it. -/
structure Adapter.Ok (w : Adapter) : Prop where
  long : ∀ p ∈ w.kept, headerLength < p.length
  fits : w.sender.batch.length ≤ batchSize

/-- A packet was sent, and the others of the batch are left. -/
theorem kept_send {p : Bytes} {rest : List Bytes} {room : Bool}
    (hsender : w.sender = .sending (p :: rest)) :
    { w with sender := .sending rest, sent := w.sent ++ [(p, room)] }.kept = w.kept := by
  simp only [Adapter.kept, hsender, List.map_append, List.map_cons, List.map_nil, Sender.batch,
    List.append_assoc, List.singleton_append]

theorem Adapter.Ok.step (hw : w.Ok) (hs : step w a = some w') : w'.Ok := by
  cases does_of_step hs with
  | forward => exact ⟨hw.long, hw.fits⟩
  | @take payload rest sender _ hlt hbatch =>
    constructor
    · intro p hp
      simp only [Adapter.kept, hbatch, append_join] at hp
      unfold join at hp
      split at hp
      · next hlong =>
        rcases List.mem_append.mp hp with hp | hp
        · exact hw.long p hp
        · exact (List.mem_singleton.mp hp) ▸ hlong
      · exact hw.long p hp
    · show sender.batch.length ≤ batchSize
      rw [hbatch]
      unfold join
      split
      · rw [List.length_append]
        exact hlt
      · exact hw.fits
  | @send p rest room hsender =>
    constructor
    · rw [kept_send hsender]
      exact hw.long
    · have hfits := hw.fits
      rw [hsender] at hfits
      exact Nat.le_of_succ_le hfits
  | moves hbatch =>
    constructor
    · simp only [Adapter.kept, hbatch]
      exact hw.long
    · simp only [hbatch]
      exact hw.fits

/-! ## The Linux client does the same -/

/-- **The two clients have got the same packets.** On Linux those are written that are in a batch
on Windows. -/
structure Matches (w : Adapter) (l : Client × Journal) : Prop where
  made : l.1.next = 1
  isOpen : (l.1.device 0).isOpen = true
  waiting : (l.1.device 0).sender = .waiting
  fromNet : l.1.fromNet = w.fromNet
  forwarded : l.2.forwarded = w.forwarded
  output : (l.1.device 0).output = w.kept.filterMap inner

/-- An open device gets the payload, if the kernel takes it. -/
theorem output_handle {d : Device} (hopen : d.isOpen = true) (payload : Bytes) :
    (d.handle payload true).output = d.output ++ (inner payload).toList := by
  show (d.handled ++ [(payload, d.outcome payload true)]).filterMap _ = _
  rw [List.filterMap_append]
  refine congrArg _ ?_
  unfold inner Device.outcome
  by_cases hlong : headerLength < payload.length
  · rw [if_pos hlong, if_pos hlong, if_pos hopen]
    rfl
  · rw [if_neg hlong, if_neg hlong]
    rfl

/-- The Linux `tunSend` takes a packet and writes it. -/
theorem Matches.take {l : Client × Journal} {payload : Bytes} {rest : Chan Bytes 64}
    {sender : Sender} (hm : Matches w l) (hr : Tun.machine.Reach l)
    (hrecv : w.fromNet.recv = some (payload, rest))
    (hbatch : sender.batch = join w.sender.batch payload) :
    ∃ l', Tun.machine.Reach l' ∧ Matches { w with fromNet := rest, sender } l' := by
  have hrecv' : l.1.fromNet.recv = some (payload, rest) := hm.fromNet ▸ hrecv
  have hlt : 0 < l.1.next := hm.made ▸ Nat.one_pos
  -- the device with the packet in the hands of `tunSend`, and after the write
  let d : Device := { l.1.device 0 with sender := .writing payload }
  let d' : Device := d.handle payload true
  let s : Client := { l.1.set 0 d with fromNet := rest }
  have hd : s.device 0 = d := l.1.set_device_self 0 d
  have hd' : (s.set 0 d').device 0 = d' := s.set_device_self 0 d'
  have htake := machine_step (p := l) (step_take hlt hm.waiting hrecv')
  have hwrite := machine_step (p := (s, l.2.note l.1 (.take 0)))
    (step_write (s := s) true hlt (congrArg Device.sender hd))
  rw [hd] at hwrite
  refine ⟨_, (hr.step htake).step hwrite, ⟨hm.made, ?_, ?_, rfl, ?_, ?_⟩⟩
  · exact (congrArg Device.isOpen hd').trans hm.isOpen
  · exact congrArg Device.sender hd'
  · simp only [Journal.note, hrecv']
    exact hm.forwarded
  · refine (congrArg Device.output hd').trans ?_
    rw [output_handle (d := d) hm.isOpen, Adapter.kept, hbatch, append_join, filterMap_join]
    exact congrArg (· ++ _) hm.output

theorem Matches.step {l : Client × Journal} (hm : Matches w l) (hr : Tun.machine.Reach l)
    (hs : step w a = some w') : ∃ l', Tun.machine.Reach l' ∧ Matches w' l' := by
  cases does_of_step hs with
  | @forward raw =>
    have hforward := machine_step (p := l) (a := .forward raw) rfl
    refine ⟨_, hr.step hforward, ⟨hm.made, hm.isOpen, hm.waiting, ?_, ?_, hm.output⟩⟩
    · exact congrArg (·.trySend raw) hm.fromNet
    · simp only [Journal.note, hm.fromNet, hm.forwarded]
      split
      · rfl
      · exact hm.forwarded
  | take hrecv _ hbatch => exact hm.take hr hrecv hbatch
  | send hsender =>
    refine ⟨l, hr, ⟨hm.made, hm.isOpen, hm.waiting, hm.fromNet, hm.forwarded, ?_⟩⟩
    rw [kept_send hsender]
    exact hm.output
  | moves hbatch =>
    refine ⟨l, hr, ⟨hm.made, hm.isOpen, hm.waiting, hm.fromNet, hm.forwarded, ?_⟩⟩
    simp only [Adapter.kept, hbatch]
    exact hm.output

theorem ok_of_reach (hr : machine.Reach w) : w.Ok := by
  refine hr.invariant ⟨?_, Nat.zero_le _⟩ fun hw hs => hw.step hs
  intro p hp
  cases hp

theorem matches_of_reach (hr : machine.Reach w) :
    ∃ l : Client × Journal, Tun.machine.Reach l ∧ Matches w l := by
  refine hr.invariant (P := fun w => ∃ l : Client × Journal, Tun.machine.Reach l ∧ Matches w l)
    ?_ ?_
  · -- the Linux client has made its device
    refine ⟨_, Machine.Reach.step .init (machine_step (a := .handshake (.zero 4)) rfl), ?_⟩
    exact ⟨rfl, rfl, rfl, rfl, rfl, rfl⟩
  · rintro w w' a ⟨l, hl, hm⟩ hs
    exact hm.step hl hs

/-! ## Batches are not seen -/

/-- The adapter gets the payloads of the packets that the ring has room for. -/
theorem output_eq (hw : w.Ok) :
    w.output = ((w.sent.filter (·.2)).map (·.1)).filterMap inner := by
  rw [List.filterMap_map, List.filterMap_filter]
  refine List.filterMap_congr fun e he => ?_
  have hlong := hw.long e.1 (List.mem_append_left _ (List.mem_map_of_mem he))
  rw [Function.comp_apply, inner, if_pos hlong]

/-- **The batches of the Windows client are not seen.** Whatever state it is in, a Linux client
could have forwarded the same packets and have the same ones left in `FromNet`. Its kernel has got
the packets that were sent to the adapter, in the same order, and perhaps more; if the ring had
room for all of them, then these are the packets of the batch, of which there are at most 64. -/
theorem batches_refine (hr : machine.Reach w) :
    ∃ l : Client × Journal, Tun.machine.Reach l ∧ l.1.fromNet = w.fromNet ∧
      l.2.forwarded = w.forwarded ∧ w.output.Sublist (l.1.device 0).output ∧
      w.sender.batch.length ≤ 64 ∧
      ((∀ e ∈ w.sent, e.2 = true) →
        (l.1.device 0).output = w.output ++ w.sender.batch.map (·.drop headerLength)) := by
  have hw := ok_of_reach hr
  obtain ⟨l, hl, hm⟩ := matches_of_reach hr
  have hout := hm.output
  rw [Adapter.kept, List.filterMap_append] at hout
  refine ⟨l, hl, hm.fromNet, hm.forwarded, ?_, hw.fits, fun hroom => ?_⟩
  · rw [hout, output_eq hw]
    exact (((List.filter_sublist).map _).filterMap inner).trans (List.sublist_append_left _ _)
  · have hbatch : w.sender.batch.filterMap inner =
        w.sender.batch.map (·.drop headerLength) := by
      rw [← List.filterMap_eq_map]
      refine List.filterMap_congr fun p hp => ?_
      exact if_pos (hw.long p (List.mem_append_right _ hp))
    rw [hout, hbatch, output_eq hw, List.filter_eq_self.mpr hroom]

/-- Two packets make a batch, of which one is sent; a third one comes too late for it. -/
theorem batches_refine_two :
    ∃ w, machine.Reach w ∧ w.output = [[7]] ∧ w.fromNet.len = 1 ∧
      ∃ l : Client × Journal, Tun.machine.Reach l ∧ l.1.fromNet = w.fromNet ∧
        l.2.forwarded = w.forwarded ∧ (l.1.device 0).output = [[7], [8]] := by
  let raw (b : UInt8) : Bytes := List.replicate headerLength 0 ++ [b]
  obtain ⟨w, hr, hout, hbatch, hlen, hroom⟩ : ∃ w, machine.Reach w ∧ w.output = [[7]] ∧
      w.sender.batch.map (·.drop headerLength) = [[8]] ∧ w.fromNet.len = 1 ∧
      ∀ e ∈ w.sent, e.2 = true :=
    Machine.exists_reach [.forward (raw 7), .forward (raw 8), .take, .take, .drained,
      .forward (raw 9), .send true] (by decide +kernel)
  obtain ⟨l, hl, hfrom, hforwarded, -, -, heq⟩ := batches_refine hr
  refine ⟨w, hr, hout, hlen, l, hl, hfrom, hforwarded, ?_⟩
  rw [heq hroom, hout, hbatch]
  rfl

end EasyTun.Tun.Batches
