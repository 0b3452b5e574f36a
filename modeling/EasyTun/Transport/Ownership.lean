import EasyTun.Lib.Ledger
import EasyTun.Transport.Buffers

/-!
# Who holds which buffer

Buffers, `transferPacket`s, `packet`s and the datagrams themselves are the resources
of a `Ledger`, and the pools, the queues, the goroutines and the list of what was
written are its places. That no resource is in two places then covers three
different things: no buffer is pooled while somebody uses it, nobody writes to what
somebody else is sending, and no datagram is sent twice.

- `Item`, `Item.Ok`: what a place holds, and what is known of it.
- `Item.Ok.frame`: **it stays true as long as nobody else writes to it**.
- `stay`, `make`, `give`, `take`, `draw`: the kinds of steps the goroutines take. Each
  keeps the ledger sound.
-/

namespace EasyTun.Transport

open EasyTun.Lib EasyTun.Util EasyTun.Protocol EasyTun.Protocol.GamePacket

namespace Buffers

/-! ## Resources and places -/

/-- What there is one of: an array, a `transferPacket`, a `packet`, a datagram. -/
inductive Res where
  | buf (a : ArrId)
  | tp (i : TpId)
  | packet (i : PacketId)
  | datagram (num : Nat)
  deriving DecidableEq

/-- Where it can be: with a goroutine, in a channel or in a pool. -/
inductive Place where
  | pools
  | listen
  | transferChan
  | transfer (k : Nat)
  | packetChan
  | writer (k : Nat)
  | reader (k : ConnId)
  | controlChan (k : ConnId)
  | pump (k : ConnId)
  | written
  deriving DecidableEq

/-- What a place holds. -/
inductive Item where
  /-- Something in a pool, or in a hand that does not look into it. -/
  | loose (r : Res)
  /-- A buffer with room. -/
  | room (a : ArrId) (n : Nat)
  /-- A datagram that was just read. -/
  | datagram (num : Nat) (content : Bytes)
  | carried (e : Carried)
  /-- A `transferPacket` with its `RawData`. -/
  | holding (tp : TpId) (a : Option ArrId)
  | snapshot (table : RouterSnapshot)
  | target (num : Nat) (table : RouterSnapshot) (client : ConnId)
  /-- The target of the datagram with this number. -/
  | chosen (num : Nat) (c : Choice)
  /-- A `packet` that shares its buffer with a `transferPacket`. -/
  | filled (e : Carried) (packet : PacketId) (c : Choice)
  | parcel (p : Parcel)
  | batch (ps : List Parcel) (msgs : List Message)
  /-- A `packet` that has been sent. -/
  | spent (p : Parcel)
  | control (c : Control)
  | written (w : Written)

/-- An array, unless the slice is nil. -/
def bufRes (a : Option ArrId) : Multiset Res :=
  match a with
  | some a => {.buf a}
  | none => 0

/-- What a message was made from. -/
def Origin.res : Origin → Multiset Res
  | .relay c => {.datagram c.num}
  | .dns => 0

/-- What is in the channel to `transfer`. -/
def Carried.res (e : Carried) : Multiset Res := {.tp e.tp} + {.buf e.buf} + {.datagram e.num}

/-- What is in the channel to the writers. -/
def Parcel.res (p : Parcel) : Multiset Res := {.packet p.packet} + bufRes p.buf + p.origin.res

/-- What comes with an item. -/
def Item.res : Item → Multiset Res
  | .loose r => {r}
  | .room a _ => {.buf a}
  | .datagram num _ => {.datagram num}
  | .carried e => e.res
  | .holding tp a => {.tp tp} + bufRes a
  | .snapshot _ | .target _ _ _ | .chosen _ _ => 0
  | .filled e packet _ => e.res + {.packet packet}
  | .parcel p => p.res
  | .batch ps _ => (ps.map Parcel.res).sum
  | .spent p => {.packet p.packet} + bufRes p.buf
  | .control c => bufRes (c.pending.map (·.id))
  | .written w => w.origin.res

/-! ### What the places hold -/

/-- What the listener has. -/
def Listen.items : Listen → List Item
  | .idle | .stopped => []
  | .got num content _ => [.datagram num content]
  | .read num content tp => [.loose (.tp tp), .datagram num content]
  | .buffered num content tp a =>
    [.loose (.tp tp), .datagram num content, .room a content.length]
  | .parsed e => [.carried e]
  | .request tp a => [.holding tp (some a)]
  | .answered tp a _ => [.holding tp (some a)]
  | .dnsPacket tp a _ packet => [.holding tp (some a), .loose (.packet packet)]
  | .dnsBuffered tp a resp packet data =>
    [.holding tp (some a), .loose (.packet packet), .room data (headerLength + resp.length)]
  | .dnsEncoded tp a p => [.holding tp (some a), .parcel p]
  | .dnsDropped tp a packet => [.holding tp (some a), .loose (.packet packet)]
  | .clean tp a => [.holding tp a]
  | .cleaned tp | .stopping tp => [.loose (.tp tp)]

/-- What a `transfer` worker has. -/
def Transfer.items : Transfer → List Item
  | .idle | .stopped => []
  | .taken e => [.carried e]
  | .loaded e table => [.carried e, .snapshot table]
  | .found e table client => [.carried e, .target e.num table client]
  | .addressed e c => [.carried e, .chosen e.num c]
  | .filled e packet c => [.filled e packet c]
  | .dropping e => [.holding e.tp (some e.buf)]
  | .releasing tp => [.loose (.tp tp)]

/-- What the writer has. -/
def Writer.items : Writer → List Item
  | .collecting batch => batch.map .parcel
  | .built batch msgs => [.batch batch msgs]
  | .releasing batch => batch.map .spent

/-- What the reader of a control connection has. -/
def Reader.items : Reader → List Item
  | .idle => []
  | .filling _ v _ => [.loose (.buf v.id)]

/-- What the writer of a control connection has. -/
def Pump.items : Pump → List Item
  | .idle | .stopped => []
  | .taken c | .wrote c => [.control c]
  | .buffered c a => [.control c, .loose (.buf a)]
  | .encoded c data => .control c :: (data.map (.loose <| .buf ·.id)).toList

/-- What is in a place. -/
def State.items (s : State) : Place → List Item
  | .pools => s.bufPool.map (.loose <| .buf ·) ++ (s.tpPool.map (.loose <| .tp ·) ++
      s.packetPool.map (.loose <| .packet ·))
  | .listen => s.listen.items
  | .transferChan => s.transferChan.map .carried
  | .transfer k => (s.transfers k).items
  | .packetChan => s.packetChan.map .parcel
  | .writer k => (s.writers k).items
  | .reader k => (s.readers k).items
  | .controlChan k => (s.controlChan k).map .control
  | .pump k => (s.pumps k).items
  | .written => s.written.map .written

section Items

variable (s : State) {x : Place}

theorem items_setListen (l : Listen) (hx : x ≠ .listen) : (setListen s l).items x = s.items x := by
  cases x <;> first | rfl | exact absurd rfl hx

theorem items_putBuf (a : Option ArrId) (hx : x ≠ .pools) : (putBuf s a).items x = s.items x := by
  cases x <;> first | rfl | exact absurd rfl hx

theorem items_putTp (tp : TpId) (hx : x ≠ .pools) : (putTp s tp).items x = s.items x := by
  cases x <;> first | rfl | exact absurd rfl hx

theorem items_putPacket (i : PacketId) (hx : x ≠ .pools) : (putPacket s i).items x = s.items x := by
  cases x <;> first | rfl | exact absurd rfl hx

theorem items_setTransferChan (es : List Carried) (hx : x ≠ .transferChan) :
    (setTransferChan s es).items x = s.items x := by
  cases x <;> first | rfl | exact absurd rfl hx

theorem items_setPacketChan (ps : List Parcel) (hx : x ≠ .packetChan) :
    (setPacketChan s ps).items x = s.items x := by
  cases x <;> first | rfl | exact absurd rfl hx

theorem tps_setTp (tp : TpId) (t : Tp) : (setTp s tp t).tps tp = t := Function.update_self ..

theorem packets_setPacket (i : PacketId) (v : Packet) : (setPacket s i v).packets i = v :=
  Function.update_self ..

theorem items_setTp (tp : TpId) (t : Tp) : (setTp s tp t).items x = s.items x := by
  cases x <;> rfl

theorem items_setPacket (i : PacketId) (v : Packet) : (setPacket s i v).items x = s.items x := by
  cases x <;> rfl

theorem items_setMem (m : Memory) : (setMem s m).items x = s.items x := by
  cases x <;> rfl

theorem items_setClients (c : Clients) : (setClients s c).items x = s.items x := by
  cases x <;> rfl

theorem items_updateAddrCheck (c : ConnId) (addr : AddrPort) :
    (updateAddrCheck s c addr).items x = s.items x := by
  unfold updateAddrCheck
  split
  · rfl
  · exact items_setClients s _

theorem tps_updateAddrCheck (c : ConnId) (addr : AddrPort) :
    (updateAddrCheck s c addr).tps = s.tps := by
  unfold updateAddrCheck
  split <;> rfl

end Items

/-! ## What is known -/

/-- A data packet, compressed or not. -/
def IsData (d : Bytes) : Prop :=
  headerLength ≤ d.length ∧ clearCompress (d.getD 2 0) = typeData

instance (d : Bytes) : Decidable (IsData d) := inferInstanceAs (Decidable (_ ∧ _))

/-- The virtual addresses in the header of a datagram. -/
def srcOf (d : Bytes) : ByteArr 4 := .ofBytes 4 (d.drop 9)

/-- The destination in the header of a datagram. -/
def dstOf (d : Bytes) : ByteArr 4 := .ofBytes 4 (d.drop 3)

/-- The `transferPacket` has the datagram in its buffer, and its header. -/
def Carries (s : State) (e : Carried) : Prop :=
  ∃ d, s.received[e.num]? = some d ∧ IsData d ∧
    (s.tps e.tp).rawData = some ⟨e.buf, d.length⟩ ∧ Buf.bytes ⟨e.buf, d.length⟩ s.mem = d ∧
    (s.tps e.tp).src = srcOf d ∧ (s.tps e.tp).dst = dstOf d

/-- A snapshot there was. -/
def Snapshot (s : State) (table : RouterSnapshot) : Prop :=
  ∃ m ∈ s.history, m.router = table

/-- **The right client**: the source of the datagram is registered in the snapshot, and
its destination there as this client. -/
def Target (s : State) (num : Nat) (table : RouterSnapshot) (client : ConnId) : Prop :=
  Snapshot s table ∧ ∃ d, s.received[num]? = some d ∧
    (table.clientMap.lookup (srcOf d)).isSome = true ∧
    table.clientMap.lookup (dstOf d) = some client

/-- **The right address**: one that was the client's. -/
def Chosen (s : State) (c : Choice) : Prop :=
  Target s c.num c.table c.client ∧ ∃ m ∈ s.history, m.dataAddr c.client = c.addr

/-- What goes out is what came in, or is no data packet. -/
def Right (s : State) (bytes : Bytes) (addr : AddrPort) : Origin → Prop
  | .relay c => Chosen s c ∧ addr = c.addr ∧ s.received[c.num]? = some bytes
  | .dns => ¬IsData bytes

/-- What a slice shows; nil is empty. -/
def shown (mem : Memory) (data : Option Buf) : Bytes := (data.map (·.bytes mem)).getD []

/-- The `packet` is for one address, and right. -/
def ParcelOk (s : State) (p : Parcel) : Prop :=
  (s.packets p.packet).broadcast = false ∧ (s.packets p.packet).data.map (·.id) = p.buf ∧
    Right s (shown s.mem (s.packets p.packet).data) (s.packets p.packet).dstAddr p.origin

/-- The message of a `packet` for one address. -/
def unicast (s : State) (p : Parcel) : List Message :=
  if (s.packets p.packet).dstAddr.isValid then
    [⟨(s.packets p.packet).data, (s.packets p.packet).dstAddr, p.origin⟩]
  else []

/-- What is true of an item, whoever has it. -/
def Item.Ok (s : State) : Item → Prop
  | .loose _ => True
  | .room a n => n ≤ (s.mem.arr a).length
  | .datagram num content => s.received[num]? = some content
  | .carried e => Carries s e
  | .holding tp a => (s.tps tp).rawData.map (·.id) = a
  | .snapshot table => Snapshot s table
  | .target num table client => Target s num table client
  | .chosen num c => c.num = num ∧ Chosen s c
  | .filled e packet c => Carries s e ∧ c.num = e.num ∧ ParcelOk s ⟨packet, some e.buf, .relay c⟩
  | .parcel p => ParcelOk s p
  | .batch ps msgs => (∀ p ∈ ps, ParcelOk s p) ∧ msgs = ps.flatMap (unicast s)
  | .spent p => (s.packets p.packet).data.map (·.id) = p.buf
  | .control _ => True
  | .written w => Right s w.bytes w.addr w.origin

/-- The resource has been made. -/
def Used (s : State) : Res → Prop
  | .buf a => a < s.mem.next
  | .tp i => i < s.nextTp
  | .packet i => i < s.nextPacket
  | .datagram num => num < s.received.length

/-- The resource is the same in both states. -/
def Same (s s' : State) : Res → Prop
  | .buf a => s'.mem.arr a = s.mem.arr a
  | .tp i => s'.tps i = s.tps i
  | .packet i => s'.packets i = s.packets i
  | .datagram _ => True

/-- What is on record stays on record. -/
structure Later (s s' : State) : Prop where
  received : ∀ {num : Nat} {d : Bytes}, s.received[num]? = some d → s'.received[num]? = some d
  history : ∀ {m}, m ∈ s.history → m ∈ s'.history

/-! ### What is known stays true -/

theorem mem_bufRes {a : ArrId} {o : Option ArrId} (h : a ∈ o) : Res.buf a ∈ bufRes o := by
  cases h
  exact Multiset.mem_singleton_self _

theorem mem_sum_res {ps : List Parcel} {p : Parcel} (hp : p ∈ ps) {r : Res} (hr : r ∈ p.res) :
    r ∈ (ps.map Parcel.res).sum := by
  induction ps with
  | nil => cases hp
  | cons p' ps ih =>
    rw [List.map_cons, List.sum_cons, Multiset.mem_add]
    rcases List.mem_cons.mp hp with rfl | hp
    · exact Or.inl hr
    · exact Or.inr (ih hp)

section Frame

variable {s s' : State} (hl : Later s s')

include hl

theorem Snapshot.later {table : RouterSnapshot} (h : Snapshot s table) : Snapshot s' table := by
  obtain ⟨m, hm, hrouter⟩ := h
  exact ⟨m, hl.history hm, hrouter⟩

theorem Target.later {num : Nat} {table : RouterSnapshot} {client : ConnId}
    (h : Target s num table client) : Target s' num table client := by
  obtain ⟨hsnap, d, hd, hlookup⟩ := h
  exact ⟨hsnap.later hl, d, hl.received hd, hlookup⟩

theorem Chosen.later {c : Choice} (h : Chosen s c) : Chosen s' c := by
  obtain ⟨htarget, m, hm, haddr⟩ := h
  exact ⟨htarget.later hl, m, hl.history hm, haddr⟩

theorem Right.later {bytes : Bytes} {addr : AddrPort} {o : Origin} (h : Right s bytes addr o) :
    Right s' bytes addr o := by
  cases o with
  | relay c => exact ⟨h.1.later hl, h.2.1, hl.received h.2.2⟩
  | dns => exact h

/-- A slice of an array that nobody wrote to. -/
theorem Carries.frame {e : Carried} (h : Carries s e) (htp : s'.tps e.tp = s.tps e.tp)
    (hbuf : s'.mem.arr e.buf = s.mem.arr e.buf) : Carries s' e := by
  obtain ⟨d, hd, hdata, hraw, hbytes, hsrc, hdst⟩ := h
  refine ⟨d, hl.received hd, hdata, ?_, ?_, ?_, ?_⟩
  · rw [htp, hraw]
  · rw [Buf.bytes, hbuf]
    exact hbytes
  · rw [htp, hsrc]
  · rw [htp, hdst]

theorem ParcelOk.frame {p : Parcel} (h : ParcelOk s p)
    (hpacket : s'.packets p.packet = s.packets p.packet)
    (hbuf : ∀ a ∈ p.buf, s'.mem.arr a = s.mem.arr a) : ParcelOk s' p := by
  obtain ⟨hcast, hid, hright⟩ := h
  have hshown : shown s'.mem (s.packets p.packet).data = shown s.mem (s.packets p.packet).data := by
    cases hdata : (s.packets p.packet).data with
    | none => rfl
    | some b =>
      have harr : s'.mem.arr b.id = s.mem.arr b.id := hbuf b.id (by rw [← hid, hdata]; rfl)
      show (s'.mem.arr b.id).take b.len = _
      rw [harr]
      rfl
  unfold ParcelOk
  rw [hpacket, hshown]
  exact ⟨hcast, hid, hright.later hl⟩

/-- Everything a `Carried` speaks of is its own. -/
theorem Carries.frame_res {e : Carried} (h : Carries s e) (hsame : ∀ r ∈ e.res, Same s s' r) :
    Carries s' e :=
  h.frame hl (hsame (.tp e.tp) (by simp [Carried.res]))
    (hsame (.buf e.buf) (by simp [Carried.res]))

theorem ParcelOk.frame_res {p : Parcel} (h : ParcelOk s p) (hsame : ∀ r ∈ p.res, Same s s' r) :
    ParcelOk s' p := by
  refine h.frame hl (hsame (.packet p.packet) (by simp [Parcel.res])) fun a ha => ?_
  refine hsame (.buf a) ?_
  rw [Parcel.res, Multiset.mem_add, Multiset.mem_add]
  exact Or.inl (Or.inr (mem_bufRes ha))

/-- **An item is right as long as nobody writes to what it holds.** -/
theorem Item.Ok.frame {it : Item} (hsame : ∀ r ∈ it.res, Same s s' r) (h : it.Ok s) :
    it.Ok s' := by
  cases it with
  | loose r => trivial
  | room a n =>
    have harr : s'.mem.arr a = s.mem.arr a := hsame (.buf a) (Multiset.mem_singleton_self _)
    show n ≤ (s'.mem.arr a).length
    rw [harr]
    exact h
  | datagram num content => exact hl.received h
  | carried e => exact Carries.frame_res hl h hsame
  | holding tp a =>
    have htp : s'.tps tp = s.tps tp :=
      hsame (.tp tp) (Multiset.mem_add.mpr (Or.inl (Multiset.mem_singleton_self _)))
    show (s'.tps tp).rawData.map (·.id) = a
    rw [htp]
    exact h
  | snapshot table => exact Snapshot.later hl h
  | target num table client => exact Target.later hl h
  | chosen num c => exact ⟨h.1, h.2.later hl⟩
  | filled e packet c =>
    obtain ⟨hcarries, hnum, hparcel⟩ := h
    have hpacket : s'.packets packet = s.packets packet :=
      hsame (.packet packet) (Multiset.mem_add.mpr (Or.inr (Multiset.mem_singleton_self _)))
    have hbuf : s'.mem.arr e.buf = s.mem.arr e.buf :=
      hsame (.buf e.buf) (by simp [Item.res, Carried.res])
    refine ⟨hcarries.frame_res hl fun r hr => hsame r (Multiset.mem_add.mpr (Or.inl hr)), hnum,
      hparcel.frame hl hpacket ?_⟩
    rintro a ⟨⟩
    exact hbuf
  | parcel p => exact ParcelOk.frame_res hl h hsame
  | batch ps msgs =>
    obtain ⟨hok, hmsgs⟩ := h
    refine ⟨fun p hp => (hok p hp).frame_res hl fun r hr => hsame r (mem_sum_res hp hr), ?_⟩
    rw [hmsgs]
    refine List.flatMap_congr fun p hp => ?_
    have hpacket : s'.packets p.packet = s.packets p.packet :=
      hsame (.packet p.packet) (mem_sum_res hp (by simp [Parcel.res]))
    rw [unicast, unicast, hpacket]
  | spent p =>
    have hpacket : s'.packets p.packet = s.packets p.packet :=
      hsame (.packet p.packet) (Multiset.mem_add.mpr (Or.inl (Multiset.mem_singleton_self _)))
    show (s'.packets p.packet).data.map (·.id) = p.buf
    rw [hpacket]
    exact h
  | control c => trivial
  | written w => exact Right.later hl h

end Frame

/-- The ledger of the server. -/
def ledger : Ledger State Place Item Res where
  items := State.items
  res := Item.res
  Used := Used
  Ok := Item.Ok
  Same := Same
  Later := Later
  frame hl hsame h := Item.Ok.frame hl hsame h

@[simp] theorem ledger_res (it : Item) : ledger.res it = it.res := rfl

/-! ## Kinds of steps -/

section Kinds

variable {s s₁ s' : State} {W : Res → Prop} {p q : Place}

/-- What items speak of. -/
def State.heap (s : State) : Memory × (TpId → Tp) × TpId × (PacketId → Packet) × PacketId ×
    List Bytes × List Clients :=
  (s.mem, s.tps, s.nextTp, s.packets, s.nextPacket, s.received, s.history)

/-- From `s` to `s'` at most the resources in `W` were written to. -/
structure Writes (W : Res → Prop) (s s' : State) : Prop where
  same : ∀ r, Used s r → ¬W r → Same s s' r
  used : ∀ r, Used s r → Used s' r
  later : Later s s'

namespace Writes

theorem mono {W' : Res → Prop} (h : Writes W s s') (hW : ∀ r, W r → W' r) : Writes W' s s' :=
  ⟨fun r hused hr => h.same r hused fun hr' => hr (hW r hr'), h.used, h.later⟩

theorem trans (h : Writes W s s₁) (h' : Writes W s₁ s') : Writes W s s' where
  same r hused hW := by
    have h₁ := h.same r hused hW
    have h₂ := h'.same r (h.used r hused) hW
    cases r with
    | buf a => exact Eq.trans h₂ h₁
    | tp i => exact Eq.trans h₂ h₁
    | packet i => exact Eq.trans h₂ h₁
    | datagram num => trivial
  used r hused := h'.used r (h.used r hused)
  later := ⟨fun hd => h'.later.received (h.later.received hd),
    fun hm => h'.later.history (h.later.history hm)⟩

/-- Nothing was written to. -/
theorem of_heap (h : s'.heap = s.heap) : Writes W s s' := by
  simp only [State.heap, Prod.mk.injEq] at h
  obtain ⟨hmem, htps, hnextTp, hpackets, hnextPacket, hreceived, hhistory⟩ := h
  refine ⟨fun r _ _ => ?_, fun r hr => ?_, fun hd => ?_, fun hm => ?_⟩
  · cases r with
    | buf a => exact congrArg (·.arr a) hmem
    | tp i => exact congrFun htps i
    | packet i => exact congrFun hpackets i
    | datagram num => trivial
  · cases r with
    | buf a => exact Nat.lt_of_lt_of_eq hr (congrArg (·.next) hmem.symm)
    | tp i => exact Nat.lt_of_lt_of_eq hr hnextTp.symm
    | packet i => exact Nat.lt_of_lt_of_eq hr hnextPacket.symm
    | datagram num => exact Nat.lt_of_lt_of_eq hr (congrArg List.length hreceived.symm)
  · rw [hreceived]
    exact hd
  · rw [hhistory]
    exact hm

theorem setTp (s : State) {i : TpId} (hW : W (.tp i)) (t : Tp) : Writes W s (setTp s i t) where
  same r _ hr := by
    cases r with
    | tp j =>
      have hne : j ≠ i := fun hj => hr (by rw [hj]; exact hW)
      exact Function.update_of_ne hne ..
    | datagram num => trivial
    | _ => rfl
  used _ h := h
  later := ⟨id, id⟩

theorem setPacket (s : State) {i : PacketId} (hW : W (.packet i)) (v : Packet) :
    Writes W s (setPacket s i v) where
  same r _ hr := by
    cases r with
    | packet j =>
      have hne : j ≠ i := fun hj => hr (by rw [hj]; exact hW)
      exact Function.update_of_ne hne ..
    | datagram num => trivial
    | _ => rfl
  used _ h := h
  later := ⟨id, id⟩

/-- Arrays are made, or written to in `W`. -/
theorem setMem (s : State) {m : Memory} (hm : Memory.Frame (fun a => W (.buf a)) s.mem m) :
    Writes W s (setMem s m) where
  same r hused hr := by
    cases r with
    | buf a => exact hm.same hused hr
    | datagram num => trivial
    | _ => rfl
  used r h := by
    cases r with
    | buf a => exact Nat.lt_of_lt_of_le h hm.next_le
    | _ => exact h
  later := ⟨id, id⟩

theorem store (s : State) {a : ArrId} (hW : W (.buf a)) (off : Nat) (bs : Bytes) :
    Writes W s (store s a off bs) :=
  .setMem s ((Memory.frame_store s.mem a off bs).mono fun _ _ hi => hi ▸ hW)

theorem setClients (s : State) (c : Clients) : Writes W s (setClients s c) where
  same r _ _ := by cases r <;> trivial
  used _ h := h
  later := ⟨id, List.mem_cons_of_mem _⟩

theorem updateAddrCheck (s : State) (c : ConnId) (addr : AddrPort) :
    Writes W s (updateAddrCheck s c addr) := by
  unfold Buffers.updateAddrCheck
  split
  · exact .of_heap rfl
  · exact .setClients ..

end Writes

/-- The resources of a place. -/
abbrev State.holds (s : State) (x : Place) : Multiset Res := ledger.holds s x

/-- **Everything is in one place, and in order there.** -/
abbrev Sound (s : State) : Prop := ledger.Sound s

theorem mem_holds {x : Place} {it : Item} (hit : it ∈ s.items x) {r : Res} (hr : r ∈ it.res) :
    r ∈ s.holds x :=
  Ledger.mem_resOf (L := ledger) hit hr

theorem ok_item (h : Sound s) {x : Place} {it : Item} (hit : it ∈ s.items x) : it.Ok s := h.ok hit

/-- What is known of all that a place holds. -/
theorem ok_items (h : Sound s) {its : List Item} (hp : s.items p = its) :
    its.Forall (·.Ok s) := by
  subst hp
  exact List.forall_iff_forall_mem.mpr fun it hit => ok_item h hit

/-- Where nothing is written to, every item stays right. -/
theorem Writes.ok (hw : Writes (fun _ => False) s s') (h : Sound s) {x : Place} {it : Item}
    (hit : it ∈ s.items x) : it.Ok s' :=
  Item.Ok.frame hw.later (fun r hr => hw.same r (h.used (mem_holds hit hr)) id) (h.ok hit)

/-- What `p` may write to in a step. -/
abbrev Own (s s' : State) (p : Place) (r : Res) : Prop := r ∈ s.holds p ∨ r ∈ s'.holds p

/-- What is made in a step. -/
structure Fresh (s s' : State) (new : Multiset Res) : Prop where
  once : ∀ r, new.count r ≤ 1
  unused : ∀ r ∈ new, ¬Used s r
  used : ∀ r ∈ new, Used s' r

theorem fresh_zero (s s' : State) : Fresh s s' 0 where
  once _ := Nat.zero_le _
  unused r hr := absurd hr (Multiset.notMem_zero r)
  used r hr := absurd hr (Multiset.notMem_zero r)

theorem fresh_singleton {r : Res} (hunused : ¬Used s r) (hused : Used s' r) :
    Fresh s s' {r} where
  once r' := Multiset.nodup_iff_count_le_one.mp (Multiset.nodup_singleton r) r'
  unused r' hr' := by
    rw [Multiset.mem_singleton.mp hr']
    exact hunused
  used r' hr' := by
    rw [Multiset.mem_singleton.mp hr']
    exact hused

/-- **An exchange** of `p` with `q`, where `p` writes to what it holds. -/
theorem exchange (new : Multiset Res) (h : Sound s) (hw : Writes (Own s s' p) s s') (hne : p ≠ q)
    (hothers : ∀ x, x ≠ p → x ≠ q → s'.items x = s.items x)
    (hcount : s'.holds p + s'.holds q ≤ s.holds p + s.holds q + new) (hfresh : Fresh s s' new)
    (hok : ∀ it ∈ s'.items p, it.Ok s')
    (hkept : ∀ it ∈ s'.items q, it ∈ s.items q ∨ it.Ok s') : Sound s' := by
  have he : ledger.Exchange s s' p q new := by
    refine ⟨hne, hothers, fun r => ?_,
      fun r => ⟨hfresh.once r, fun hr => ⟨hfresh.unused r hr, hfresh.used r hr⟩⟩, hw.used,
      fun r hused hp hp' => hw.same r hused (not_or.mpr ⟨hp, hp'⟩), hw.later, hok, hkept⟩
    have hr := Multiset.le_iff_count.mp hcount r
    rwa [Multiset.count_add, Multiset.count_add, Multiset.count_add] at hr
  exact h.exchange he

/-! In each kind of step a place has the items `its` before and `its'` afterwards. -/

variable (its its' : List Item)

/-- **A place makes** something new. -/
theorem make (new : Multiset Res) (h : Sound s) (hp : s.items p = its) (hp' : s'.items p = its')
    (hne : p ≠ .pools) (hw : Writes (· ∈ ledger.resOf its) s s')
    (hothers : ∀ x, x ≠ p → s'.items x = s.items x)
    (hres : ledger.resOf its' ≤ ledger.resOf its + new) (hfresh : Fresh s s' new)
    (hok : its'.Forall (·.Ok s')) : Sound s' := by
  subst hp hp'
  have hpools : s'.items .pools = s.items .pools := hothers .pools hne.symm
  have hholds : s'.holds .pools = s.holds .pools := congrArg ledger.resOf hpools
  refine exchange new h (hw.mono fun _ => Or.inl) hne (fun x hx _ => hothers x hx) ?_ hfresh
    (List.forall_iff_forall_mem.mp hok) fun it hit => ?_
  · rw [hholds, add_right_comm]
    exact add_le_add hres le_rfl
  · exact Or.inl (hpools ▸ hit)

/-- **A place on its own** changes what it does with its resources, or drops some. -/
theorem stay (h : Sound s) (hp : s.items p = its) (hp' : s'.items p = its') (hne : p ≠ .pools)
    (hw : Writes (· ∈ ledger.resOf its) s s') (hothers : ∀ x, x ≠ p → s'.items x = s.items x)
    (hres : ledger.resOf its' ≤ ledger.resOf its) (hok : its'.Forall (·.Ok s')) : Sound s' :=
  make its its' 0 h hp hp' hne hw hothers (by rw [add_zero]; exact hres) (fresh_zero s s') hok

/-- **A place hands on** some of what it has, to the end of a queue or to the pools. -/
theorem give (given : List Item) (h : Sound s) (hp : s.items p = its) (hp' : s'.items p = its')
    (hq : (s'.items q).Perm (s.items q ++ given)) (hne : p ≠ q)
    (hw : Writes (· ∈ ledger.resOf its) s s')
    (hothers : ∀ x, x ≠ p → x ≠ q → s'.items x = s.items x)
    (hres : ledger.resOf its' + ledger.resOf given ≤ ledger.resOf its)
    (hok : its'.Forall (·.Ok s')) (hgiven : given.Forall (·.Ok s')) : Sound s' := by
  subst hp hp'
  have hholds : s'.holds q = s.holds q + ledger.resOf given :=
    (ledger.resOf_perm hq).trans (ledger.resOf_append (s.items q) given)
  refine exchange 0 h (hw.mono fun _ => Or.inl) hne hothers ?_ (fresh_zero s s')
    (List.forall_iff_forall_mem.mp hok) fun it hit => ?_
  · rw [hholds, add_zero, add_comm (s.holds q), ← add_assoc]
    exact add_le_add hres le_rfl
  · rcases List.mem_append.mp (hq.mem_iff.mp hit) with hold | hnew
    · exact Or.inl hold
    · exact Or.inr (List.forall_iff_forall_mem.mp hgiven it hnew)

/-- **A place takes** the first item of a queue, and writes to nothing. -/
theorem take (it : Item) (h : Sound s) (hp : s.items p = its) (hp' : s'.items p = its ++ [it])
    (hq : s.items q = it :: s'.items q) (hne : p ≠ q) (hw : Writes (fun _ => False) s s')
    (hothers : ∀ x, x ≠ p → x ≠ q → s'.items x = s.items x) : Sound s' := by
  subst hp
  have hholds : s.holds q = it.res + s'.holds q := by
    show ledger.resOf (s.items q) = _
    rw [hq, Ledger.resOf_cons]
    rfl
  have hholds' : s'.holds p = s.holds p + it.res := by
    show ledger.resOf (s'.items p) = _
    rw [hp', Ledger.resOf_append, Ledger.resOf_cons, Ledger.resOf_nil, add_zero]
    rfl
  refine exchange 0 h (hw.mono fun _ => False.elim) hne hothers ?_ (fresh_zero s s')
    (fun it' hit' => ?_) fun it' hit' => ?_
  · rw [hholds, hholds', add_zero, ← add_assoc]
  · rw [hp'] at hit'
    rcases List.mem_append.mp hit' with hold | hnew
    · exact hw.ok h hold
    · rw [List.mem_singleton.mp hnew]
      exact hw.ok h (x := q) (hq ▸ List.mem_cons_self ..)
  · exact Or.inl (hq ▸ List.mem_cons_of_mem _ hit')

/-! ### Pools -/

/-- What lies in a pool. -/
def poolRes {α : Type} (f : α → Res) (l : List α) : Multiset Res := (l.map fun x => {f x}).sum

theorem holds_pools (s : State) :
    s.holds .pools = poolRes .buf s.bufPool + (poolRes .tp s.tpPool +
      poolRes .packet s.packetPool) := by
  show ledger.resOf (_ ++ (_ ++ _)) = _
  rw [Ledger.resOf_append, Ledger.resOf_append]
  simp only [Ledger.resOf, List.map_map, poolRes]
  rfl

/-- Nothing is said about what lies in the pools. -/
theorem ok_pools {it : Item} (hit : it ∈ s.items .pools) (s' : State) : it.Ok s' := by
  simp only [State.items, List.mem_append, List.mem_map] at hit
  obtain ⟨_, _, rfl⟩ | ⟨_, _, rfl⟩ | ⟨_, _, rfl⟩ := hit <;> trivial

/-- One of a pool is taken out. -/
theorem poolRes_eraseIdx {α : Type} (f : α → Res) {l : List α} {i : Nat} {x : α}
    (h : l[i]? = some x) : poolRes f (l.eraseIdx i) + {f x} = poolRes f l := by
  obtain ⟨hi, rfl⟩ := List.getElem?_eq_some_iff.mp h
  have hperm := List.getElem_cons_eraseIdx_perm hi
  rw [poolRes, poolRes, ← (hperm.map fun x => ({f x} : Multiset Res)).sum_eq, List.map_cons,
    List.sum_cons, add_comm]

/-- What a `Put` adds to the pools. -/
theorem perm_putBuf (s : State) (a : Option ArrId) :
    ((putBuf s a).items .pools).Perm (s.items .pools ++ (a.map (.loose <| .buf ·)).toList) := by
  cases a with
  | none =>
    show List.Perm (((s.bufPool ++ []).map _) ++ _) (_ ++ [])
    rw [List.append_nil, List.append_nil]
    rfl
  | some a =>
    show List.Perm ((s.bufPool ++ [a]).map _ ++ _) ((_ ++ _) ++ [_])
    rw [List.map_append, List.append_assoc, List.append_assoc]
    exact List.Perm.append_left _ List.perm_append_comm

theorem perm_putTp (s : State) (tp : TpId) :
    ((putTp s tp).items .pools).Perm (s.items .pools ++ [.loose (.tp tp)]) := by
  show List.Perm (_ ++ ((s.tpPool ++ [tp]).map _ ++ _)) ((_ ++ (_ ++ _)) ++ [_])
  rw [List.map_append, List.append_assoc, List.append_assoc, List.append_assoc]
  exact List.Perm.append_left _ (List.Perm.append_left _ List.perm_append_comm)

theorem perm_putPacket (s : State) (i : PacketId) :
    ((putPacket s i).items .pools).Perm (s.items .pools ++ [.loose (.packet i)]) := by
  show List.Perm (_ ++ (_ ++ (s.packetPool ++ [i]).map _)) ((_ ++ (_ ++ _)) ++ [_])
  rw [List.map_append, List.append_assoc, List.append_assoc]
  exact List.Perm.refl _

/-- **A place puts a buffer back.** -/
theorem give_buf (a : Option ArrId) (h : Sound s) (hp : s.items p = its) (hp' : s'.items p = its')
    (hpools : s'.items .pools = (putBuf s a).items .pools) (hne : p ≠ .pools)
    (hw : Writes (· ∈ ledger.resOf its) s s')
    (hothers : ∀ x, x ≠ p → x ≠ .pools → s'.items x = s.items x)
    (hres : ledger.resOf its' + bufRes a ≤ ledger.resOf its) (hok : its'.Forall (·.Ok s')) :
    Sound s' := by
  refine give its its' _ h hp hp' (hpools ▸ perm_putBuf s a) hne hw hothers ?_ hok ?_
  · cases a <;> exact hres
  · cases a <;> trivial

theorem holds_putBuf (s : State) (a : ArrId) :
    (putBuf s (some a)).holds .pools = s.holds .pools + {.buf a} := by
  refine (ledger.resOf_perm (perm_putBuf s (some a))).trans ?_
  rw [Ledger.resOf_append]
  rfl

/-- **What a `Get` does**: it takes `r` out of the pools, where `new` may have been made
for it. -/
structure Took (s s₁ : State) (r : Res) (new : Multiset Res) : Prop where
  writes : Writes (fun _ => False) s s₁
  others : ∀ x, x ≠ .pools → s₁.items x = s.items x
  pools : s₁.holds .pools + {r} = s.holds .pools + new
  fresh : Fresh s s₁ new

/-- **A place takes something from a pool**, and may write to it at once. -/
theorem draw {r : Res} {new : Multiset Res} (h : Sound s) (ht : Took s s₁ r new)
    (hp : s.items p = its) (hp' : s'.items p = its') (hne : p ≠ .pools)
    (hw : Writes (fun r' => r' ∈ ledger.resOf its ∨ r' = r) s₁ s')
    (hothers : ∀ x, x ≠ p → s'.items x = s₁.items x)
    (hres : ledger.resOf its' = ledger.resOf its + {r}) (hok : its'.Forall (·.Ok s')) :
    Sound s' := by
  subst hp hp'
  have hholds : s'.holds .pools = s₁.holds .pools :=
    congrArg ledger.resOf (hothers .pools hne.symm)
  have hr : r ∈ s'.holds p := by
    show r ∈ ledger.resOf (s'.items p)
    rw [hres, Multiset.mem_add]
    exact Or.inr (Multiset.mem_singleton_self r)
  have hw' : Writes (Own s s' p) s s' :=
    (ht.writes.mono fun _ => False.elim).trans
      (hw.mono fun r' hr' => hr'.imp id (by rintro rfl; exact hr))
  have hfresh : Fresh s s' new :=
    ⟨ht.fresh.once, ht.fresh.unused, fun r hr => hw.used r (ht.fresh.used r hr)⟩
  refine exchange new h hw' hne (fun x hx hx' => ?_) ?_ hfresh (List.forall_iff_forall_mem.mp hok)
    fun it hit => ?_
  · rw [hothers x hx, ht.others x hx']
  · calc s'.holds p + s'.holds .pools
        = s.holds p + {r} + s₁.holds .pools := congrArg₂ (· + ·) hres hholds
      _ = s.holds p + (s₁.holds .pools + {r}) := by
        rw [add_assoc, add_comm (s₁.holds .pools)]
      _ ≤ s.holds p + s.holds .pools + new := by rw [ht.pools, add_assoc]
  · exact Or.inr (ok_pools hit s')

/-- Something that was pooled. -/
theorem Took.pooled {r : Res} (hheap : s₁.heap = s.heap)
    (hothers : ∀ x, x ≠ .pools → s₁.items x = s.items x)
    (hpools : s₁.holds .pools + {r} = s.holds .pools) : Took s s₁ r 0 :=
  ⟨.of_heap hheap, hothers, by rw [hpools, add_zero], fresh_zero s s₁⟩

/-- Something new. -/
theorem Took.made {r : Res} (hw : Writes (fun _ => False) s s₁)
    (hitems : ∀ x, s₁.items x = s.items x) (hunused : ¬Used s r) (hused : Used s₁ r) :
    Took s s₁ r {r} :=
  ⟨hw, fun x _ => hitems x, congrArg (ledger.resOf · + {r}) (hitems .pools),
    fresh_singleton hunused hused⟩

theorem took_getBuf {d : Draw} {a : ArrId} (h : getBuf s d = some (a, s₁)) :
    ∃ new, Took s s₁ (.buf a) new := by
  cases d with
  | pooled i =>
    obtain ⟨a', ha, heq⟩ := Option.map_eq_some_iff.mp h
    cases heq
    refine ⟨0, .pooled rfl (fun x hx => ?_) ?_⟩
    · cases x <;> first | rfl | exact absurd rfl hx
    · rw [holds_pools, holds_pools, add_right_comm]
      exact congrArg (· + _) (poolRes_eraseIdx .buf ha)
  | made n =>
    cases h
    exact ⟨_, .made (.setMem s (Memory.frame_alloc _ s.mem n)) (fun x => items_setMem ..)
      (Nat.lt_irrefl _) (Nat.lt_succ_self _)⟩

/-- The buffer is large enough. One that is not goes back. -/
theorem took_getCap {d : Draw} {n : Nat} {a : ArrId} (h : getCap s n d = some (a, s₁)) :
    (∃ new, Took s s₁ (.buf a) new) ∧ n ≤ (s₁.mem.arr a).length := by
  obtain ⟨⟨a', s₂⟩, hget, heq⟩ := Option.map_eq_some_iff.mp h
  obtain ⟨new, htook⟩ := took_getBuf hget
  dsimp only at heq
  split at heq
  · cases heq
    have hwrites : Writes (fun _ => False) s₂ (setMem s₂ (s₂.mem.alloc n)) :=
      .setMem s₂ (Memory.frame_alloc _ s₂.mem n)
    -- the array that is made now is none that was made before
    have hnot : Res.buf s₂.mem.next ∉ new := fun hr => Nat.lt_irrefl _ (htook.fresh.used _ hr)
    refine ⟨⟨new + {.buf s₂.mem.next}, (htook.writes.trans hwrites).trans (.of_heap rfl),
      fun x hx => ?_, ?_, fun r => ?_, fun r hr => ?_, fun r hr => ?_⟩, ?_⟩
    · rw [← htook.others x hx]
      cases x <;> first | rfl | exact absurd rfl hx
    · calc _ = s₂.holds .pools + {.buf a'} + {.buf s₂.mem.next} :=
            congrArg (· + _) (holds_putBuf s₂ a')
        _ = s.holds .pools + (new + {.buf s₂.mem.next}) := by rw [htook.pools, add_assoc]
    · have hnodup : (new + {.buf s₂.mem.next}).Nodup := by
        rw [add_comm, Multiset.singleton_add]
        exact Multiset.nodup_cons.mpr
          ⟨hnot, Multiset.nodup_iff_count_le_one.mpr htook.fresh.once⟩
      exact Multiset.nodup_iff_count_le_one.mp hnodup r
    · rcases Multiset.mem_add.mp hr with hr | hr
      · exact htook.fresh.unused r hr
      · rw [Multiset.mem_singleton.mp hr]
        exact fun hused => Nat.lt_irrefl _ (htook.writes.used _ hused)
    · rcases Multiset.mem_add.mp hr with hr | hr
      · exact hwrites.used r (htook.fresh.used r hr)
      · rw [Multiset.mem_singleton.mp hr]
        exact Nat.lt_succ_self _
    · show n ≤ ((s₂.mem.alloc n).arr s₂.mem.next).length
      rw [Memory.length_arr_alloc]
  · next hcap =>
    cases heq
    exact ⟨⟨new, htook⟩, Nat.le_of_not_lt hcap⟩

theorem took_getTp {d : Draw} {tp : TpId} (h : getTp s d = some (tp, s₁)) :
    ∃ new, Took s s₁ (.tp tp) new := by
  cases d with
  | pooled i =>
    obtain ⟨tp', htp, heq⟩ := Option.map_eq_some_iff.mp h
    cases heq
    refine ⟨0, .pooled rfl (fun x hx => ?_) ?_⟩
    · cases x <;> first | rfl | exact absurd rfl hx
    · rw [holds_pools, holds_pools, ← poolRes_eraseIdx .tp htp, add_assoc,
        add_right_comm (poolRes Res.tp (s.tpPool.eraseIdx i))]
  | made n =>
    cases h
    refine ⟨_, .made ⟨fun r _ _ => ?_, fun r hr => ?_, ⟨id, id⟩⟩ (fun x => ?_) (Nat.lt_irrefl _)
      (Nat.lt_succ_self _)⟩
    · cases r <;> trivial
    · cases r with
      | tp i => exact Nat.lt_succ_of_lt hr
      | _ => exact hr
    · cases x <;> rfl

theorem took_getPacket {d : Draw} {i : PacketId} (h : getPacket s d = some (i, s₁)) :
    ∃ new, Took s s₁ (.packet i) new := by
  cases d with
  | pooled j =>
    obtain ⟨i', hi, heq⟩ := Option.map_eq_some_iff.mp h
    cases heq
    refine ⟨0, .pooled rfl (fun x hx => ?_) ?_⟩
    · cases x <;> first | rfl | exact absurd rfl hx
    · rw [holds_pools, holds_pools, ← poolRes_eraseIdx .packet hi, add_assoc, add_assoc]
  | made n =>
    cases h
    refine ⟨_, .made ⟨fun r _ _ => ?_, fun r hr => ?_, ⟨id, id⟩⟩ (fun x => ?_) (Nat.lt_irrefl _)
      (Nat.lt_succ_self _)⟩
    · cases r <;> trivial
    · cases r with
      | packet i => exact Nat.lt_succ_of_lt hr
      | _ => exact hr
    · cases x <;> rfl

end Kinds

end Buffers

end EasyTun.Transport
