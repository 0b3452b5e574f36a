import EasyTun.Transport.RelayWorkers

/-!
# Relay integrity and single ownership

The goroutines of the control connections use the buffers of the relay too. With them
the ledger is complete, and it says three things about the server.

- `sound_readerStep`, `sound_pumpStep`: the control connections keep the ledger sound;
- `sound_reach`: **the ledger is sound in every state reached**;
- `relay_integrity`: what that says about the pool and about what was written.
-/

namespace EasyTun.Transport

open EasyTun.Lib EasyTun.Util EasyTun.Protocol EasyTun.Protocol.GamePacket

namespace Buffers

/-! ## Control connections -/

section ControlConn

variable {s s' : State} {k : ConnId} {gp : GamePacket} {v : ArrSlice} {c : Control}

theorem items_setReader (s : State) (k : ConnId) (r : Reader) {x : Place} (hx : x ≠ .reader k) :
    (setReader s k r).items x = s.items x := by
  cases x with
  | reader j =>
    have hne : j ≠ k := fun hj => hx (congrArg _ hj)
    exact congrArg Reader.items (Function.update_of_ne hne ..)
  | _ => rfl

theorem items_setReader_self (s : State) (k : ConnId) (r : Reader) :
    (setReader s k r).items (.reader k) = r.items :=
  congrArg Reader.items (Function.update_self ..)

theorem items_setControl (s : State) (k : ConnId) (cs : List Control) {x : Place}
    (hx : x ≠ .controlChan k) : (setControl s k cs).items x = s.items x := by
  cases x with
  | controlChan j =>
    have hne : j ≠ k := fun hj => hx (congrArg _ hj)
    exact congrArg (List.map Item.control) (Function.update_of_ne hne ..)
  | _ => rfl

theorem items_setControl_self (s : State) (k : ConnId) (cs : List Control) :
    (setControl s k cs).items (.controlChan k) = cs.map .control :=
  congrArg (List.map Item.control) (Function.update_self ..)

theorem items_setPump (s : State) (k : ConnId) (p : Pump) {x : Place} (hx : x ≠ .pump k) :
    (setPump s k p).items x = s.items x := by
  cases x with
  | pump j =>
    have hne : j ≠ k := fun hj => hx (congrArg _ hj)
    exact congrArg Pump.items (Function.update_of_ne hne ..)
  | _ => rfl

theorem items_setPump_self (s : State) (k : ConnId) (p : Pump) :
    (setPump s k p).items (.pump k) = p.items :=
  congrArg Pump.items (Function.update_self ..)

/-- Nothing is said about control messages. -/
theorem ok_control (cs : List Control) (s : State) : (cs.map Item.control).Forall (·.Ok s) := by
  refine List.forall_iff_forall_mem.mpr fun it hit => ?_
  obtain ⟨c, -, rfl⟩ := List.mem_map.mp hit
  trivial

/-! ### `readPump` -/

theorem sound_query (h : Sound s) (hr : s.readers k = .idle) {d : Draw} {a : ArrId} {s₁ : State}
    (hget : getBuf s d = some (a, s₁)) (hv : v.id = a) (rest : List Bytes) :
    Sound (setReader s₁ k (.filling gp v rest)) := by
  subst hv
  have hp : s.items (.reader k) = [] := congrArg Reader.items hr
  obtain ⟨new, htook⟩ := took_getBuf hget
  exact draw _ [.loose (.buf v.id)] h htook hp (items_setReader_self ..) Place.noConfusion
    (.of_heap rfl) (fun x hx => items_setReader _ _ _ hx) rfl trivial

/-- A part of the payload is appended, in the buffer or in a new one. -/
theorem sound_append (h : Sound s) {rest : List Bytes} (hr : s.readers k = .filling gp v rest)
    (bs : Bytes) (slack : Nat) (rest' : List Bytes) :
    Sound (setReader (setMem s (s.mem.append v bs slack).1) k
      (.filling gp (s.mem.append v bs slack).2 rest')) := by
  have hp : s.items (.reader k) = [.loose (.buf v.id)] := congrArg Reader.items hr
  have hwrites : Writes (· ∈ ledger.resOf [.loose (.buf v.id)]) s
      (setMem s (s.mem.append v bs slack).1) := by
    refine .setMem s ((Memory.frame_append s.mem v bs slack).mono ?_)
    rintro i - rfl
    simp [Item.res]
  have hothers : ∀ x, x ≠ .reader k → (setReader (setMem s (s.mem.append v bs slack).1) k
      (.filling gp (s.mem.append v bs slack).2 rest')).items x = s.items x := fun x hx =>
    (items_setReader _ _ _ hx).trans (items_setMem ..)
  rcases Memory.id_append s.mem v bs slack with hid | ⟨hid, hlt⟩
  · refine stay _ [.loose (.buf v.id)] h hp ?_ Place.noConfusion (hwrites.trans (.of_heap rfl))
      hothers le_rfl trivial
    rw [items_setReader_self, Reader.items, hid]
  · -- the old buffer is left to the garbage collector
    refine make _ [.loose (.buf s.mem.next)] {.buf s.mem.next} h hp ?_ Place.noConfusion
      (hwrites.trans (.of_heap rfl)) hothers (Multiset.le_add_left ..) ?_ trivial
    · rw [items_setReader_self, Reader.items, hid]
    · exact fresh_singleton (Nat.lt_irrefl _) hlt

theorem sound_sendControl (h : Sound s) (hr : s.readers k = .filling gp v []) :
    Sound (setReader (setControl s k (s.controlChan k ++ [⟨gp, some v⟩])) k .idle) := by
  have hp : s.items (.reader k) = [.loose (.buf v.id)] := congrArg Reader.items hr
  refine give _ [] [.control ⟨gp, some v⟩] (q := .controlChan k) h hp (items_setReader_self ..) ?_
    Place.noConfusion (.of_heap rfl)
    (fun x hx hx' => (items_setReader _ _ _ hx).trans (items_setControl _ _ _ hx'))
    (le_of_eq (zero_add _)) trivial trivial
  rw [items_setReader _ _ _ Place.noConfusion, items_setControl_self, List.map_append]
  rfl

/-- **`handleNoiseHandshake` keeps the ledger sound.** -/
theorem sound_readerStep (h : Sound s) {act : ReaderAct} (hs : readerStep s k act = some s') :
    Sound s' := by
  cases act with
  | query gp virtualIp noisePublicKey d =>
    simp only [readerStep] at hs
    split at hs
    · next hr _ =>
      obtain ⟨⟨a, s₁⟩, hget, rfl⟩ := Option.map_eq_some_iff.mp hs
      exact sound_query h hr hget rfl _
    · cases hs
  | append slack =>
    simp only [readerStep] at hs
    split at hs
    · next gp v bs rest hr =>
      cases hs
      exact sound_append h hr bs slack rest
    · cases hs
  | send =>
    simp only [readerStep] at hs
    split at hs
    · next gp v hr =>
      obtain ⟨-, rfl⟩ := guardTo_eq_some.mp hs
      exact sound_sendControl h hr
    · cases hs
  | drop =>
    simp only [readerStep] at hs
    split at hs
    · next gp v hr =>
      obtain ⟨-, rfl⟩ := guardTo_eq_some.mp hs
      have hp : s.items (.reader k) = [.loose (.buf v.id)] := congrArg Reader.items hr
      exact give_buf _ [] (some v.id) h hp (items_setReader_self ..) rfl Place.noConfusion
        (.of_heap rfl)
        (fun x hx hx' => (items_setReader _ _ _ hx).trans (items_putBuf _ _ hx')) le_rfl trivial
    · cases hs
  | done =>
    simp only [readerStep] at hs
    split at hs
    · next gp v hr =>
      cases hs
      have hp : s.items (.reader k) = [.loose (.buf v.id)] := congrArg Reader.items hr
      exact stay _ [] h hp (items_setReader_self ..) Place.noConfusion (.of_heap rfl)
        (fun x hx => items_setReader _ _ _ hx) (Multiset.zero_le _) trivial
    · cases hs

/-! ### `writePump` -/

/-- A message in the queue is not sent. -/
theorem sound_dropControl (h : Sound s) {rest : List Control}
    (hchan : s.controlChan k = c :: rest) : Sound (setControl s k rest) := by
  have hp : s.items (.controlChan k) = .control c :: rest.map .control :=
    congrArg (List.map Item.control) hchan
  exact stay _ _ h hp (items_setControl_self ..) Place.noConfusion (.of_heap rfl)
    (fun x hx => items_setControl _ _ _ hx) (Ledger.resOf_sublist (List.sublist_cons_self ..))
    (ok_control rest _)

theorem sound_takeControl (h : Sound s) (hp : s.pumps k = .idle) {rest : List Control}
    (hchan : s.controlChan k = c :: rest) :
    Sound (setPump (setControl s k rest) k (.taken c)) := by
  have hp : s.items (.pump k) = [] := congrArg Pump.items hp
  have hq : s.items (.controlChan k) = .control c :: rest.map .control :=
    congrArg (List.map Item.control) hchan
  refine take [] (.control c) (q := .controlChan k) h hp (items_setPump_self ..) ?_
    Place.noConfusion (.of_heap rfl)
    fun x hx hx' => (items_setPump _ _ _ hx).trans (items_setControl _ _ _ hx')
  rw [items_setPump _ _ _ Place.noConfusion, items_setControl_self]
  exact hq

theorem sound_getControl (h : Sound s) (hp : s.pumps k = .taken c) {n : Nat} {d : Draw} {a : ArrId}
    {s₁ : State} (hget : getCap s n d = some (a, s₁)) : Sound (setPump s₁ k (.buffered c a)) := by
  have hp : s.items (.pump k) = [.control c] := congrArg Pump.items hp
  obtain ⟨⟨new, htook⟩, -⟩ := took_getCap hget
  refine draw _ [.control c, .loose (.buf a)] h htook hp (items_setPump_self ..) Place.noConfusion
    (.of_heap rfl) (fun x hx => items_setPump _ _ _ hx) ?_ ⟨trivial, trivial⟩
  exact ledger.resOf_append [.control c] [.loose (.buf a)]

theorem sound_encode (h : Sound s) {a : ArrId} (hp : s.pumps k = .buffered c a) (wire : Bytes) :
    Sound (setPump (store s a 0 wire) k (.encoded c (some ⟨a, wire.length⟩))) := by
  have hp : s.items (.pump k) = [.control c, .loose (.buf a)] := congrArg Pump.items hp
  exact stay _ [.control c, .loose (.buf a)] h hp (items_setPump_self ..) Place.noConfusion
    ((Writes.store s (by simp [Item.res]) 0 wire).trans (.of_heap rfl))
    (fun x hx => (items_setPump _ _ _ hx).trans (items_setMem ..)) le_rfl ⟨trivial, trivial⟩

/-- A `writePump` goes on with less than it had. -/
theorem sound_setPump (h : Sound s) {p p' : Pump} (hp : s.pumps k = p)
    (hres : ledger.resOf p'.items ≤ ledger.resOf p.items)
    (hok : p'.items.Forall (·.Ok (setPump s k p'))) : Sound (setPump s k p') :=
  stay _ _ (p := .pump k) h (congrArg Pump.items hp) (items_setPump_self ..) Place.noConfusion
    (.of_heap rfl) (fun _ hx => items_setPump _ _ _ hx) hres hok

/-- A buffer of a `writePump` goes back. -/
theorem sound_putPump (h : Sound s) {p p' : Pump} (hp : s.pumps k = p) (a : Option ArrId)
    (hres : ledger.resOf p'.items + bufRes a ≤ ledger.resOf p.items)
    (hok : p'.items.Forall (·.Ok (setPump (putBuf s a) k p'))) :
    Sound (setPump (putBuf s a) k p') :=
  give_buf _ _ a (p := .pump k) h (congrArg Pump.items hp) (items_setPump_self ..) rfl
    Place.noConfusion (.of_heap rfl)
    (fun _ hx hx' => (items_setPump _ _ _ hx).trans (items_putBuf _ _ hx')) hres hok

/-- The message and the buffer of its encoding. -/
theorem resOf_encoded (c : Control) (data : Option Buf) :
    ledger.resOf (Pump.encoded c data).items =
      ledger.resOf [.control c] + bufRes (data.map (·.id)) := by
  cases data with
  | none => exact (add_zero _).symm
  | some b => exact ledger.resOf_append [.control c] [.loose (.buf b.id)]

/-- **A `writePump` keeps the ledger sound.** -/
theorem sound_pumpStep (h : Sound s) {act : PumpAct} (hs : pumpStep s k act = some s') :
    Sound s' := by
  cases act with
  | take =>
    simp only [pumpStep] at hs
    split at hs
    · next c rest hp hchan =>
      split at hs <;> cases hs
      · exact sound_dropControl h hchan
      · exact sound_takeControl h hp hchan
    · cases hs
  | fail =>
    simp only [pumpStep] at hs
    split at hs
    · next c hp =>
      cases hs
      exact sound_setPump h hp (Multiset.zero_le _) trivial
    · cases hs
  | get d =>
    simp only [pumpStep] at hs
    split at hs
    · next c hp =>
      split at hs
      · -- the payload is too long
        cases hs
        exact sound_setPump h hp le_rfl trivial
      · obtain ⟨⟨a, s₁⟩, hget, rfl⟩ := Option.map_eq_some_iff.mp hs
        exact sound_getControl h hp hget
    · cases hs
  | encode =>
    simp only [pumpStep] at hs
    split at hs
    · next c a hp =>
      cases hs
      exact sound_encode h hp _
    · cases hs
  | put =>
    simp only [pumpStep] at hs
    split at hs
    · next c data hp =>
      cases hs
      exact sound_putPump h hp _ (le_of_eq (resOf_encoded c data).symm) trivial
    · cases hs
  | release closed =>
    simp only [pumpStep] at hs
    split at hs
    · next c hp =>
      have hnext : (if closed = true then Pump.idle else Pump.stopped).items = [] := by
        split <;> rfl
      split at hs <;> cases hs
      · refine sound_putPump h hp _ ?_ (by rw [hnext]; trivial)
        rw [hnext]
        exact le_of_eq (add_comm _ _)
      · refine sound_setPump h hp ?_ (by rw [hnext]; trivial)
        rw [hnext]
        exact Multiset.zero_le _
    · cases hs

end ControlConn

/-! ## The server -/

section Server

variable {s s' : State}

theorem sound_start : Sound start := by
  have hholds : ∀ x, ledger.holds start x = 0 := fun x => by cases x <;> rfl
  have hitems : ∀ x, ledger.items start x = [] := fun x => by cases x <;> rfl
  constructor
  · intro x r
    rw [hholds]
    exact Nat.zero_le _
  · intro x y r hx
    rw [hholds] at hx
    exact absurd hx (Multiset.notMem_zero r)
  · intro x r hx
    rw [hholds] at hx
    exact absurd hx (Multiset.notMem_zero r)
  · intro x it hit
    rw [hitems] at hit
    cases hit

theorem sound_step {act : Act} (h : Sound s) (hs : step s act = some s') : Sound s' := by
  cases act with
  | listen a => exact sound_listenStep h hs
  | transfer k a => exact sound_transferStep h hs
  | writer k a => exact sound_writerStep h hs
  | reader k a => exact sound_readerStep h hs
  | pump k a => exact sound_pumpStep h hs
  | route r =>
    cases hs
    refine stay (p := .listen) _ _ h rfl rfl (by decide) (.setClients s _)
      (fun x _ => items_setClients s _) le_rfl (List.forall_iff_forall_mem.mpr fun it hit => ?_)
    exact Writes.ok (.setClients s _) h (x := .listen) hit
  | post k gp =>
    obtain ⟨-, rfl⟩ := guardTo_eq_some.mp hs
    refine stay (p := .controlChan k) _ _ h rfl (items_setControl_self ..) Place.noConfusion
      (.of_heap rfl) (fun x hx => items_setControl _ _ _ hx) (le_of_eq ?_) (ok_control _ _)
    rw [List.map_append, Ledger.resOf_append]
    exact add_zero _

/-- **The ledger is sound in every state reached.** -/
theorem sound_reach (h : machine.Reach s) : Sound s :=
  h.invariant sound_start fun hi hs => sound_step hi hs

/-! ### What that says -/

theorem poolRes_eq {α : Type} (f : α → Res) (l : List α) :
    poolRes f l = (l.map f : List Res) := by
  induction l with
  | nil => rfl
  | cons x l ih =>
    rw [poolRes, List.map_cons, List.sum_cons, List.map_cons, ← Multiset.cons_coe, ← ih,
      Multiset.singleton_add]
    rfl

theorem Sound.nodup_holds (h : Sound s) (x : Place) : (s.holds x).Nodup :=
  Multiset.nodup_iff_count_le_one.mpr (h.once x)

/-- The packets that a worker has collected and not yet sent. -/
def Writer.sending : Writer → List Parcel
  | .collecting batch => batch
  | .built batch _ => batch
  | .releasing _ => []

/-- A queued `transferPacket`, a queued `packet` or one that is being sent has the
buffer. -/
def Referenced (s : State) (a : ArrId) : Prop :=
  (∃ e ∈ s.transferChan, (s.tps e.tp).rawData.map (·.id) = some a) ∨
    (∃ p ∈ s.packetChan, (s.packets p.packet).data.map (·.id) = some a) ∨
    ∃ k, ∃ p ∈ (s.writers k).sending, (s.packets p.packet).data.map (·.id) = some a

theorem mem_res_of_data {p : Parcel} (h : ParcelOk s p) {a : ArrId}
    (ha : (s.packets p.packet).data.map (·.id) = some a) : Res.buf a ∈ p.res := by
  rw [h.2.1] at ha
  simp [Parcel.res, ha, bufRes]

/-- Such a buffer is held, and not by the pools. -/
theorem Referenced.held (h : Sound s) {a : ArrId} (hr : Referenced s a) :
    ∃ x, x ≠ Place.pools ∧ Res.buf a ∈ s.holds x := by
  obtain ⟨e, he, ha⟩ | ⟨p, hp, ha⟩ | ⟨k, p, hp, ha⟩ := hr
  · have hmem : Item.carried e ∈ s.items .transferChan := List.mem_map_of_mem he
    have hcarries : Carries s e := ok_item h hmem
    rw [hcarries.raw] at ha
    cases ha
    exact ⟨.transferChan, by decide, mem_holds hmem (by simp [Item.res, Carried.res])⟩
  · have hmem : Item.parcel p ∈ s.items .packetChan := List.mem_map_of_mem hp
    exact ⟨.packetChan, by decide, mem_holds hmem (mem_res_of_data (ok_item h hmem) ha)⟩
  · refine ⟨.writer k, Place.noConfusion, ?_⟩
    cases hw : s.writers k with
    | collecting batch =>
      rw [hw] at hp
      have hmem : Item.parcel p ∈ s.items (.writer k) := by
        rw [State.items, hw]
        exact List.mem_map_of_mem hp
      exact mem_holds hmem (mem_res_of_data (ok_item h hmem) ha)
    | built batch msgs =>
      rw [hw] at hp
      have hmem : Item.batch batch msgs ∈ s.items (.writer k) := by
        rw [State.items, hw]
        exact List.mem_singleton_self _
      obtain ⟨hok, -⟩ : Item.Ok s (.batch batch msgs) := ok_item h hmem
      exact mem_holds hmem (mem_sum_res hp (mem_res_of_data (hok p hp) ha))
    | releasing batch =>
      rw [hw] at hp
      cases hp

/-- The datagram that was sent on. -/
def Written.num (w : Written) : Option Nat :=
  match w.origin with
  | .relay c => some c.num
  | .dns => none

theorem resOf_written (ws : List Written) :
    ledger.resOf (ws.map .written) =
      ((ws.filterMap Written.num).map Res.datagram : List Res) := by
  induction ws with
  | nil => rfl
  | cons w ws ih =>
    rw [List.map_cons, Ledger.resOf_cons, ih]
    cases ho : w.origin with
    | relay c =>
      have hnum : w.num = some c.num := by rw [Written.num, ho]
      rw [List.filterMap_cons_some hnum, List.map_cons, ← Multiset.cons_coe,
        ← Multiset.singleton_add, ledger_res, Item.res, ho]
      rfl
    | dns =>
      have hnum : w.num = none := by rw [Written.num, ho]
      rw [List.filterMap_cons_none hnum, ledger_res, Item.res, ho]
      exact zero_add _

/-- **Relay integrity and single ownership**, in every state that any interleaving of
the goroutines reaches:

1. no buffer is in the pool twice, or in the pool while a queued `transferPacket`, a
   queued `packet` or a `packet` that is being sent has it;
2. a data packet that was written is a datagram that was received, byte for byte, its
   source was registered in the snapshot that was used, and it went to an address of the
   client that its destination is registered as there;
3. no datagram was written twice. -/
theorem relay_integrity (h : machine.Reach s) :
    (s.bufPool.Nodup ∧ ∀ a ∈ s.bufPool, ¬Referenced s a) ∧
      (∀ w ∈ s.written, IsData w.bytes → ∃ c, w.origin = .relay c ∧
        s.received[c.num]? = some w.bytes ∧ w.addr = c.addr ∧ Chosen s c) ∧
      (s.written.filterMap Written.num).Nodup := by
  have hsound := sound_reach h
  have hpool : poolRes .buf s.bufPool ≤ s.holds .pools := by
    rw [holds_pools]
    exact Multiset.le_add_right ..
  rw [poolRes_eq] at hpool
  refine ⟨⟨?_, fun a ha hr => ?_⟩, fun w hw hdata => ?_, ?_⟩
  · have hnodup := Multiset.nodup_of_le hpool (hsound.nodup_holds .pools)
    exact List.Nodup.of_map _ (Multiset.coe_nodup.mp hnodup)
  · obtain ⟨x, hx, hheld⟩ := hr.held hsound
    have hpools : Res.buf a ∈ s.holds .pools :=
      Multiset.mem_of_le hpool (Multiset.mem_coe.mpr (List.mem_map_of_mem ha))
    exact hx (hsound.apart hheld hpools)
  · have hright : Right s w.bytes w.addr w.origin :=
      ok_item (x := .written) hsound (List.mem_map_of_mem hw)
    cases ho : w.origin with
    | relay c =>
      rw [ho] at hright
      exact ⟨c, rfl, hright.2.2, hright.2.1, hright.1⟩
    | dns =>
      rw [ho] at hright
      exact absurd hdata hright
  · have hnodup := hsound.nodup_holds .written
    rw [show s.holds .written = _ from resOf_written s.written] at hnodup
    exact List.Nodup.of_map _ (Multiset.coe_nodup.mp hnodup)

/-! ### One datagram -/

section OneDatagram

def caseSource : ByteArr 4 := .four 10 0 6 2

def caseTarget : ByteArr 4 := .four 10 0 6 3

def caseTable : RouterSnapshot :=
  { clientMap := (AList.insert caseSource 0 ∅).insert caseTarget 1, clientSlice := [0, 1] }

/-- The public addresses of the two clients. -/
def caseAddr (port : UInt16) : AddrPort := { addr := .v4 (.four 203 0 113 5), port }

def caseDatagram : Bytes := clearWire caseSource caseTarget typeData [1, 2, 3]

/-- `listenUdp` takes in a datagram, up to the `switch`. -/
def caseListen (content : Bytes) (addr : AddrPort) (d : Draw) : List Act :=
  [.listen (.receive content addr), .listen (.getTp d), .listen (.get d), .listen .parse]

/-- The target pings, and the datagram goes through in the same buffer. -/
def caseRun : List Act :=
  .route caseTable ::
    (caseListen (clearWire caseTarget (.zero 4) typePing []) (caseAddr 40001) (.made 64) ++
      [.listen .putRaw, .listen .putTp] ++ caseListen caseDatagram (caseAddr 40000) (.pooled 0) ++
      [.listen .send, .transfer 0 .take, .transfer 0 .load, .transfer 0 .check,
        .transfer 0 .address, .transfer 0 (.fill (.made 0)), .transfer 0 .send, .writer 0 .collect,
        .writer 0 .build, .writer 0 (.write 1), .transfer 0 .putTp, .writer 0 .putData,
        .writer 0 .putPacket, .writer 0 .next])

/-- A datagram that is sent on, and the pools afterwards. -/
theorem relay_integrity_one :
    ∃ s, machine.Reach s ∧ s.bufPool = [0] ∧
      s.written.map (fun w => (w.bytes, w.addr)) = [(caseDatagram, caseAddr 40001)] ∧
      (∀ w ∈ s.written, IsData w.bytes → ∃ c, w.origin = .relay c ∧
        s.received[c.num]? = some w.bytes ∧ w.addr = c.addr ∧ Chosen s c) ∧
      (s.written.filterMap Written.num).Nodup := by
  obtain ⟨s, hr, hpool, hwritten⟩ : ∃ s, machine.Reach s ∧ s.bufPool = [0] ∧
      s.written.map (fun w => (w.bytes, w.addr)) = [(caseDatagram, caseAddr 40001)] :=
    Machine.exists_reach caseRun (by decide +kernel)
  exact ⟨s, hr, hpool, hwritten, (relay_integrity hr).2⟩

end OneDatagram

end Server

end Buffers

end EasyTun.Transport
