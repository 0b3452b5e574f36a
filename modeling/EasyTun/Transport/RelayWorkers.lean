import EasyTun.Transport.Ownership

/-!
# The relay keeps the ledger sound

`listenUdp`, the `transfer` workers and the `writeUdpPacket` workers, line by line: every
step of theirs is one of the kinds of `Ownership`. What a goroutine has before and after
a step is written out in each lemma.

- `sound_listenStep`, `sound_transferStep`, `sound_writerStep`: **each goroutine keeps
  the ledger sound**, whatever the others do.
-/

namespace EasyTun.Transport

open EasyTun.Lib EasyTun.Util EasyTun.Protocol EasyTun.Protocol.GamePacket

namespace Buffers

/-! ## `listenUdp` -/

section ListenUdp

variable {s s' : State} {num : Nat} {content resp : Bytes} {srcAddr : AddrPort} {tp : TpId}
  {a : ArrId} {packet : PacketId} {p : Parcel} {e : Carried}

/-- A datagram comes in. -/
theorem sound_receive (h : Sound s) (hs : listenStep s (.receive content srcAddr) = some s') :
    Sound s' := by
  simp only [listenStep] at hs
  split at hs
  · next hl =>
    obtain ⟨-, rfl⟩ := guardTo_eq_some.mp hs
    have hlater : ∀ {num : Nat} {d : Bytes}, s.received[num]? = some d →
        (s.received ++ [content])[num]? = some d := fun hd =>
      (List.getElem?_append_left (List.getElem?_eq_some_iff.mp hd).1).trans hd
    have hlt : s.received.length < (s.received ++ [content]).length := by
      rw [List.length_append]
      exact Nat.lt_succ_self _
    have hwrites : ∀ {W}, Writes W s (receive s content srcAddr) := by
      intro W
      refine ⟨fun r _ _ => ?_, fun r hr => ?_, hlater, id⟩
      · cases r <;> trivial
      · cases r with
        | datagram num => exact Nat.lt_trans hr hlt
        | _ => exact hr
    have hfresh : Fresh s (receive s content srcAddr) {.datagram s.received.length} :=
      fresh_singleton (Nat.lt_irrefl _) hlt
    have hp : s.items .listen = [] := congrArg Listen.items hl
    exact make _ [.datagram s.received.length content] _ h hp rfl (by decide) hwrites
      (fun x hx => (items_setListen _ _ hx).trans (by cases x <;> rfl)) (Multiset.le_add_left ..)
      hfresh List.getElem?_concat_length
  · cases hs

/-- Line 86: a `transferPacket` for the datagram. -/
theorem sound_getTp (h : Sound s) {d : Draw} (hs : listenStep s (.getTp d) = some s') :
    Sound s' := by
  simp only [listenStep] at hs
  split at hs
  · next num content srcAddr hl =>
    obtain ⟨⟨tp, s₁⟩, hget, rfl⟩ := Option.map_eq_some_iff.mp hs
    have hp : s.items .listen = [.datagram num content] := congrArg Listen.items hl
    have hdatagram : s.received[num]? = some content := ok_items h hp
    obtain ⟨new, htook⟩ := took_getTp hget
    exact draw _ [.loose (.tp tp), .datagram num content] h htook hp rfl (by decide)
      ((Writes.setTp s₁ (Or.inr rfl) _).trans (.of_heap rfl))
      (fun x hx => (items_setListen _ _ hx).trans (items_setTp ..)) (add_comm _ _)
      ⟨trivial, htook.writes.later.received hdatagram⟩
  · cases hs

/-- Inside `ParsePacket`: a buffer for the datagram. -/
theorem sound_get (h : Sound s) {d : Draw} (hs : listenStep s (.get d) = some s') : Sound s' := by
  simp only [listenStep] at hs
  split at hs
  · next num content tp hl =>
    obtain ⟨⟨a, s₁⟩, hget, rfl⟩ := Option.map_eq_some_iff.mp hs
    have hp : s.items .listen = [.loose (.tp tp), .datagram num content] := congrArg Listen.items hl
    obtain ⟨-, hdatagram⟩ := ok_items h hp
    obtain ⟨⟨new, htook⟩, hcap⟩ := took_getCap hget
    exact draw _ [.loose (.tp tp), .datagram num content, .room a content.length] h htook hp rfl
      (by decide) (.of_heap rfl) (fun x hx => items_setListen _ _ hx) rfl
      ⟨trivial, htook.writes.later.received hdatagram, hcap⟩
  · cases hs

/-- What is stored at the start of an array with room for it. -/
theorem bytes_store (m : Memory) {a : ArrId} {bs : Bytes} (hroom : bs.length ≤ (m.arr a).length) :
    Buf.bytes ⟨a, bs.length⟩ (m.store a 0 bs) = bs := by
  show window ((m.store a 0 bs).arr a) 0 bs.length = bs
  rw [Memory.arr_store]
  exact window_overwrite_self rfl (by omega)

/-- `ParsePacket` and the `switch`. -/
theorem sound_parse (h : Sound s) (hl : s.listen = .buffered num content tp a) :
    Sound (parse s num content tp a) := by
  have hp : s.items .listen =
      [.loose (.tp tp), .datagram num content, .room a content.length] :=
    congrArg Listen.items hl
  obtain ⟨-, hdatagram, hroom⟩ := ok_items h hp
  have hwrites : ∀ t, Writes
      (· ∈ ledger.resOf [.loose (.tp tp), .datagram num content, .room a content.length]) s
      (setTp (store s a 0 content) tp t) := fun t =>
    (Writes.store s (by simp [Item.res]) 0 content).trans (.setTp _ (by simp [Item.res]) t)
  have hitems : ∀ t x, (setTp (store s a 0 content) tp t).items x = s.items x := fun t x =>
    (items_setTp ..).trans (items_setMem ..)
  -- in most branches only the `transferPacket` and its buffer are left
  have hkeep : ∀ (s₂ : State) (l' : Listen),
      Writes (· ∈ ledger.resOf [.loose (.tp tp), .datagram num content, .room a content.length])
        s s₂ →
      (∀ x, s₂.items x = s.items x) → (s₂.tps tp).rawData.map (·.id) = some a →
      l'.items = [.holding tp (some a)] → Sound (setListen s₂ l') := by
    intro s₂ l' hw hsame hraw hl'
    refine stay _ [.holding tp (some a)] h hp hl' (by decide) (hw.trans (.of_heap rfl))
      (fun x hx => (items_setListen _ _ hx).trans (hsame x))
      (Multiset.le_iff_count.mpr fun r => ?_) hraw
    simp only [Ledger.resOf_cons, Ledger.resOf_nil, ledger_res, Item.res, bufRes,
      Multiset.count_add]
    omega
  unfold parse
  dsimp only
  split
  · -- an error: the buffer goes back at once
    refine give_buf _ [.holding tp none] (some a) h hp rfl rfl (by decide)
      ((hwrites _).trans (.of_heap rfl))
      (fun x hx hx' => (items_setListen _ _ hx).trans ((items_putBuf _ _ hx').trans (hitems _ x)))
      (Multiset.le_iff_count.mpr fun r => ?_) ?_
    · simp only [Ledger.resOf_cons, Ledger.resOf_nil, ledger_res, Item.res, bufRes,
        Multiset.count_add, Multiset.count_zero]
      omega
    · show ((setTp _ tp _).tps tp).rawData.map (·.id) = none
      rw [tps_setTp]
      rfl
  · next hd hparse =>
    obtain ⟨hlen, -, rfl⟩ := parseHeader_ok hparse
    have hraw : ∀ t : Tp, t.rawData = some ⟨a, content.length⟩ →
        ((setTp (store s a 0 content) tp t).tps tp).rawData.map (·.id) = some a := by
      intro t ht
      rw [tps_setTp, ht]
      rfl
    split
    · -- `TypePing`
      split
      · refine hkeep _ _ ((hwrites _).trans (.updateAddrCheck ..))
          (fun x => (items_updateAddrCheck ..).trans (hitems _ x)) ?_ rfl
        rw [tps_updateAddrCheck]
        exact hraw _ rfl
      · exact hkeep _ _ (hwrites _) (hitems _) (hraw _ rfl) rfl
    · split
      · -- `TypeDnsRequest`
        exact hkeep _ _ (hwrites _) (hitems _) (hraw _ rfl) rfl
      · split
        · -- `TypeData`
          next hdata =>
          refine stay _ [.carried ⟨tp, a, num⟩] h hp rfl (by decide)
            ((hwrites _).trans (.of_heap rfl))
            (fun x hx => (items_setListen _ _ hx).trans (hitems _ x))
            (Multiset.le_iff_count.mpr fun r => ?_) ?_
          · simp only [Ledger.resOf_cons, Ledger.resOf_nil, ledger_res, Item.res, Carried.res,
              Multiset.count_add]
            omega
          · refine ⟨content, hdatagram, ⟨hlen, hdata⟩, ?_, bytes_store s.mem hroom, ?_, ?_⟩
            · exact congrArg Tp.rawData (tps_setTp ..)
            · exact congrArg Tp.src (tps_setTp ..)
            · exact congrArg Tp.dst (tps_setTp ..)
        · exact hkeep _ _ (hwrites _) (hitems _) (hraw _ rfl) rfl

/-! ### DNS -/

theorem not_isData_dnsWire (s : State) (tp : TpId) (resp : Bytes) :
    ¬IsData (dnsWire s tp resp) := by
  rintro ⟨-, htype⟩
  rw [dnsWire, clearWire, getD_two_wireAd] at htype
  exact absurd htype (by decide)

theorem not_isData_nil : ¬IsData [] := by
  rintro ⟨hlen, -⟩
  exact absurd hlen (by decide)

/-- The answer is made, in the buffer of the request, or there is none. -/
theorem sound_answer (h : Sound s) {resp : Option Bytes} {bs : Bytes}
    (hs : listenStep s (.answer resp bs) = some s') : Sound s' := by
  simp only [listenStep] at hs
  split at hs
  · next tp a hl =>
    have hp : s.items .listen = [.holding tp (some a)] := congrArg Listen.items hl
    have hraw : (s.tps tp).rawData.map (·.id) = some a := ok_items h hp
    have hkeep : ∀ {l' : Listen}, l'.items = [.holding tp (some a)] →
        Sound (setListen (store s a (headerLength + 2) bs) l') := fun hl' =>
      stay _ _ h hp hl' (by decide)
        ((Writes.store s (by simp [Item.res, bufRes]) _ bs).trans (.of_heap rfl))
        (fun x hx => (items_setListen _ _ hx).trans (items_setMem ..)) le_rfl hraw
    split at hs
    · cases hs
      exact hkeep rfl
    · cases hs
      exact hkeep rfl
  · cases hs

/-- A `packet` for the answer. -/
theorem sound_dnsPacket (h : Sound s) {d : Draw} (hs : listenStep s (.dnsPacket d) = some s') :
    Sound s' := by
  simp only [listenStep] at hs
  split at hs
  · next tp a resp hl =>
    obtain ⟨⟨packet, s₁⟩, hget, rfl⟩ := Option.map_eq_some_iff.mp hs
    have hp : s.items .listen = [.holding tp (some a)] := congrArg Listen.items hl
    obtain ⟨new, htook⟩ := took_getPacket hget
    have hholding : Item.Ok s₁ (.holding tp (some a)) :=
      htook.writes.ok h (x := .listen) (hp ▸ List.mem_cons_self ..)
    exact draw _ [.holding tp (some a), .loose (.packet packet)] h htook hp rfl (by decide)
      (.of_heap rfl) (fun x hx => items_setListen _ _ hx) rfl ⟨hholding, trivial⟩
  · cases hs

/-- The answer in its `packet`. -/
theorem sound_dnsReady (h : Sound s) {its : List Item} (hp : s.items .listen = its) {s₂ : State}
    (hw : Writes (· ∈ ledger.resOf its) s s₂) (hitems : ∀ x, s₂.items x = s.items x)
    (hraw : (s₂.tps tp).rawData.map (·.id) = some a) {data : Option Buf}
    (hdata : ¬IsData (shown s₂.mem data))
    (hres : {.tp tp} + {.buf a} + {.packet packet} + bufRes (data.map (·.id)) ≤
      ledger.resOf its) :
    Sound (dnsReady s₂ tp a packet data) := by
  have hpacket : Res.packet packet ∈ ledger.resOf its := Multiset.mem_of_le hres (by simp)
  refine stay its [.holding tp (some a), .parcel ⟨packet, data.map (·.id), .dns⟩] h hp rfl
    (by decide) ((hw.trans (.setPacket s₂ hpacket _)).trans (.of_heap rfl))
    (fun x hx => (items_setListen _ _ hx).trans ((items_setPacket ..).trans (hitems x)))
    (le_trans (Multiset.le_iff_count.mpr fun r => ?_) hres) ⟨hraw, ?_⟩
  · simp only [Ledger.resOf_cons, Ledger.resOf_nil, ledger_res, Item.res, bufRes, Parcel.res,
      Origin.res, Multiset.count_add, Multiset.count_zero]
    omega
  · show ParcelOk (setPacket s₂ packet _) _
    unfold ParcelOk
    rw [packets_setPacket]
    exact ⟨rfl, rfl, hdata⟩

/-- `EncodePacket` of an answer that is too long. -/
theorem sound_dnsNil (h : Sound s)
    (hp : s.items .listen = [.holding tp (some a), .loose (.packet packet)]) :
    Sound (dnsReady s tp a packet none) := by
  obtain ⟨hraw, -⟩ := ok_items h hp
  refine sound_dnsReady h hp (.of_heap rfl) (fun _ => rfl) hraw not_isData_nil
    (Multiset.le_iff_count.mpr fun r => ?_)
  simp only [Ledger.resOf_cons, Ledger.resOf_nil, ledger_res, Item.res, bufRes, Option.map_none,
    Multiset.count_add, Multiset.count_zero]
  omega

/-- A buffer for the answer, unless it is too long. -/
theorem sound_dnsGet (h : Sound s) {d : Draw} (hs : listenStep s (.dnsGet d) = some s') :
    Sound s' := by
  simp only [listenStep] at hs
  split at hs
  · next tp a resp packet hl =>
    have hp : s.items .listen = [.holding tp (some a), .loose (.packet packet)] :=
      congrArg Listen.items hl
    split at hs
    · cases hs
      exact sound_dnsNil h hp
    · next length hlength =>
      obtain ⟨⟨data, s₁⟩, hget, rfl⟩ := Option.map_eq_some_iff.mp hs
      obtain ⟨⟨new, htook⟩, hcap⟩ := took_getCap hget
      have hholding : Item.Ok s₁ (.holding tp (some a)) :=
        htook.writes.ok h (x := .listen) (hp ▸ List.mem_cons_self ..)
      have hroom : headerLength + resp.length ≤ (s₁.mem.arr data).length := by
        have hle := le_payloadLengthField hlength
        omega
      exact draw _ [.holding tp (some a), .loose (.packet packet),
          .room data (headerLength + resp.length)] h htook hp rfl (by decide) (.of_heap rfl)
        (fun x hx => items_setListen _ _ hx) rfl ⟨hholding, trivial, hroom⟩
  · cases hs

/-- `EncodePacket` of the answer. -/
theorem sound_dnsEncode (h : Sound s) (hs : listenStep s .dnsEncode = some s') : Sound s' := by
  simp only [listenStep] at hs
  split at hs
  · next tp a resp packet data hl =>
    cases hs
    have hp : s.items .listen = [.holding tp (some a), .loose (.packet packet),
        .room data (headerLength + resp.length)] := congrArg Listen.items hl
    obtain ⟨hraw, -, hroom⟩ := ok_items h hp
    have hshown : shown (s.mem.store data 0 (dnsWire s tp resp))
        (some ⟨data, (dnsWire s tp resp).length⟩) = dnsWire s tp resp := by
      refine bytes_store s.mem ?_
      rw [dnsWire, length_clearWire]
      exact hroom
    refine sound_dnsReady h hp (.store s (by simp [Item.res]) ..) (fun x => items_setMem ..) hraw ?_
      (Multiset.le_iff_count.mpr fun r => ?_)
    · show ¬IsData (shown (s.mem.store data 0 (dnsWire s tp resp)) _)
      rw [hshown]
      exact not_isData_dnsWire s tp resp
    · simp only [Ledger.resOf_cons, Ledger.resOf_nil, ledger_res, Item.res, bufRes, Option.map_some,
        Multiset.count_add, Multiset.count_zero]
      omega
  · cases hs

/-- The answer is queued. -/
theorem sound_dnsSend (h : Sound s) (hs : listenStep s .dnsSend = some s') : Sound s' := by
  simp only [listenStep] at hs
  split at hs
  · next tp a p hl =>
    obtain ⟨-, rfl⟩ := guardTo_eq_some.mp hs
    have hp : s.items .listen = [.holding tp (some a), .parcel p] := congrArg Listen.items hl
    obtain ⟨hraw, hparcel⟩ := ok_items h hp
    refine give _ [.holding tp (some a)] [.parcel p] (q := .packetChan) h hp rfl
      (List.Perm.of_eq List.map_append) (by decide) (.of_heap rfl)
      (fun x hx hx' => (items_setListen _ _ hx).trans (items_setPacketChan _ _ hx'))
      (le_of_eq ?_) hraw hparcel
    exact (ledger.resOf_append [.holding tp (some a)] [.parcel p]).symm
  · cases hs

/-- `packetChan` is full. -/
theorem sound_dnsDrop (h : Sound s) (hs : listenStep s .dnsDrop = some s') : Sound s' := by
  simp only [listenStep] at hs
  split at hs
  · next tp a p hl =>
    obtain ⟨-, rfl⟩ := guardTo_eq_some.mp hs
    have hp : s.items .listen = [.holding tp (some a), .parcel p] := congrArg Listen.items hl
    obtain ⟨hraw, -, hbuf, -⟩ := ok_items h hp
    rw [hbuf]
    refine give_buf _ [.holding tp (some a), .loose (.packet p.packet)] p.buf h hp rfl rfl
      (by decide)
      ((Writes.setPacket s (by simp [Item.res, Parcel.res]) _).trans (.of_heap rfl))
      (fun x hx hx' => (items_setListen _ _ hx).trans
        ((items_putBuf _ _ hx').trans (items_setPacket ..)))
      (Multiset.le_iff_count.mpr fun r => ?_) ⟨hraw, trivial⟩
    simp only [Ledger.resOf_cons, Ledger.resOf_nil, ledger_res, Item.res, Parcel.res,
      Multiset.count_add, Multiset.count_zero]
    omega
  · cases hs

/-- The `packet` of an answer that was dropped. -/
theorem sound_dnsPut (h : Sound s) (hs : listenStep s .dnsPut = some s') : Sound s' := by
  simp only [listenStep] at hs
  split at hs
  · next tp a packet hl =>
    cases hs
    have hp : s.items .listen = [.holding tp (some a), .loose (.packet packet)] :=
      congrArg Listen.items hl
    obtain ⟨hraw, -⟩ := ok_items h hp
    refine give _ [.holding tp (some a)] [.loose (.packet packet)] (q := .pools) h hp rfl
      (perm_putPacket s packet) (by decide) (.of_heap rfl)
      (fun x hx hx' => (items_setListen _ _ hx).trans (items_putPacket _ _ hx'))
      (le_of_eq ?_) hraw trivial
    exact (ledger.resOf_append [.holding tp (some a)] [.loose (.packet packet)]).symm
  · cases hs

/-! ### The end of a datagram -/

theorem Carries.raw (h : Carries s e) : (s.tps e.tp).rawData.map (·.id) = some e.buf := by
  obtain ⟨d, -, -, hraw, -⟩ := h
  rw [hraw]
  rfl

/-- A `transferPacket` that is given up still has its buffer. -/
theorem resOf_holding_le (e : Carried) :
    ledger.resOf [.holding e.tp (some e.buf)] ≤ ledger.resOf [.carried e] := by
  refine Multiset.le_iff_count.mpr fun r => ?_
  simp only [Ledger.resOf_cons, Ledger.resOf_nil, ledger_res, Item.res, bufRes, Carried.res,
    Multiset.count_add]
  omega

/-- The datagram is passed on. -/
theorem sound_send (h : Sound s) (hs : listenStep s .send = some s') : Sound s' := by
  simp only [listenStep] at hs
  split at hs
  · next e hl =>
    obtain ⟨-, rfl⟩ := guardTo_eq_some.mp hs
    have hp : s.items .listen = [.carried e] := congrArg Listen.items hl
    have hcarries : Carries s e := ok_items h hp
    exact give _ [] [.carried e] (q := .transferChan) h hp rfl (List.Perm.of_eq List.map_append)
      (by decide) (.of_heap rfl)
      (fun x hx hx' => (items_setListen _ _ hx).trans (items_setTransferChan _ _ hx'))
      (le_of_eq (zero_add _)) trivial hcarries
  · cases hs

/-- `transferChan` is full. -/
theorem sound_drop (h : Sound s) (hs : listenStep s .drop = some s') : Sound s' := by
  simp only [listenStep] at hs
  split at hs
  · next e hl =>
    obtain ⟨-, rfl⟩ := guardTo_eq_some.mp hs
    have hp : s.items .listen = [.carried e] := congrArg Listen.items hl
    have hcarries : Carries s e := ok_items h hp
    exact stay _ [.holding e.tp (some e.buf)] h hp rfl (by decide) (.of_heap rfl)
      (fun x hx => items_setListen _ _ hx) (resOf_holding_le e) hcarries.raw
  · cases hs

/-- The context is cancelled. -/
theorem sound_done (h : Sound s) (hs : listenStep s .done = some s') : Sound s' := by
  simp only [listenStep] at hs
  split at hs
  · next e hl =>
    cases hs
    have hp : s.items .listen = [.carried e] := congrArg Listen.items hl
    have hcarries : Carries s e := ok_items h hp
    rw [hcarries.raw]
    exact give_buf _ [.loose (.tp e.tp)] (some e.buf) h hp rfl rfl (by decide) (.of_heap rfl)
      (fun x hx hx' => (items_setListen _ _ hx).trans (items_putBuf _ _ hx'))
      (resOf_holding_le e) trivial
  · cases hs

/-- `CleanUp`: the buffer. -/
theorem sound_putRaw (h : Sound s) (hs : listenStep s .putRaw = some s') : Sound s' := by
  simp only [listenStep] at hs
  split at hs
  · next tp o hl =>
    cases hs
    have hp : s.items .listen = [.holding tp o] := congrArg Listen.items hl
    have hraw : (s.tps tp).rawData.map (·.id) = o := ok_items h hp
    rw [hraw]
    refine give_buf _ [.loose (.tp tp)] o h hp rfl rfl (by decide)
      ((Writes.setTp s (by simp [Item.res]) _).trans (.of_heap rfl))
      (fun x hx hx' => (items_setListen _ _ hx).trans
        ((items_putBuf _ _ hx').trans (items_setTp ..)))
      (le_of_eq ?_) trivial
    exact (add_zero _).symm
  · cases hs

/-- `CleanUp`: the `transferPacket`. -/
theorem sound_putTp (h : Sound s) (hs : listenStep s .putTp = some s') : Sound s' := by
  have hput : ∀ {tp : TpId} {l' : Listen}, s.items .listen = [.loose (.tp tp)] → l'.items = [] →
      Sound (setListen (putTp s tp) l') := fun {tp _} hp hl' =>
    give _ [] [.loose (.tp tp)] (q := .pools) h hp hl' (perm_putTp s tp) (by decide) (.of_heap rfl)
      (fun x hx hx' => (items_setListen _ _ hx).trans (items_putTp _ _ hx'))
      (le_of_eq (zero_add _)) trivial trivial
  simp only [listenStep] at hs
  split at hs
  · next tp hl =>
    cases hs
    exact hput (congrArg Listen.items hl) rfl
  · next tp hl =>
    cases hs
    exact hput (congrArg Listen.items hl) rfl
  · cases hs

/-- **`listenUdp` keeps the ledger sound.** -/
theorem sound_listenStep (h : Sound s) {act : ListenAct} (hs : listenStep s act = some s') :
    Sound s' := by
  cases act with
  | receive content srcAddr => exact sound_receive h hs
  | getTp d => exact sound_getTp h hs
  | get d => exact sound_get h hs
  | parse =>
    simp only [listenStep] at hs
    split at hs
    · next num content tp a hl =>
      cases hs
      exact sound_parse h hl
    · cases hs
  | answer resp bs => exact sound_answer h hs
  | dnsPacket d => exact sound_dnsPacket h hs
  | dnsGet d => exact sound_dnsGet h hs
  | dnsEncode => exact sound_dnsEncode h hs
  | dnsSend => exact sound_dnsSend h hs
  | dnsDrop => exact sound_dnsDrop h hs
  | dnsPut => exact sound_dnsPut h hs
  | send => exact sound_send h hs
  | drop => exact sound_drop h hs
  | done => exact sound_done h hs
  | putRaw => exact sound_putRaw h hs
  | putTp => exact sound_putTp h hs

end ListenUdp

/-! ## `transfer` -/

section TransferWorker

variable {s s' : State} {k : Nat} {t : Transfer} {e : Carried} {table : RouterSnapshot}
  {client : ConnId} {c : Choice} {packet : PacketId}

theorem items_setTransfer (s : State) (k : Nat) (t : Transfer) {x : Place} (hx : x ≠ .transfer k) :
    (setTransfer s k t).items x = s.items x := by
  cases x with
  | transfer j =>
    have hne : j ≠ k := fun hj => hx (congrArg _ hj)
    exact congrArg Transfer.items (Function.update_of_ne hne ..)
  | _ => rfl

theorem items_setTransfer_self (s : State) (k : Nat) (t : Transfer) :
    (setTransfer s k t).items (.transfer k) = t.items :=
  congrArg Transfer.items (Function.update_self ..)

theorem sound_take (h : Sound s) (ht : s.transfers k = .idle) {rest : List Carried}
    (hchan : s.transferChan = e :: rest) :
    Sound (setTransfer (setTransferChan s rest) k (.taken e)) := by
  have hp : s.items (.transfer k) = [] := congrArg Transfer.items ht
  have hq : s.items .transferChan = .carried e :: rest.map .carried :=
    congrArg (List.map Item.carried) hchan
  exact take [] (.carried e) h hp (items_setTransfer_self ..) hq Place.noConfusion (.of_heap rfl)
    fun x hx hx' => (items_setTransfer _ _ _ hx).trans (items_setTransferChan _ _ hx')

theorem sound_load (h : Sound s) (ht : s.transfers k = .taken e) :
    Sound (setTransfer s k (.loaded e s.clients.router)) := by
  have hp : s.items (.transfer k) = [.carried e] := congrArg Transfer.items ht
  have hcarries : Carries s e := ok_items h hp
  have hsnapshot : Snapshot s s.clients.router := ⟨s.clients, List.mem_cons_self .., rfl⟩
  exact stay _ [.carried e, .snapshot s.clients.router] h hp (items_setTransfer_self ..)
    Place.noConfusion (.of_heap rfl) (fun x hx => items_setTransfer _ _ _ hx) le_rfl
    ⟨hcarries, hsnapshot⟩

/-- The datagram is not sent on. -/
theorem sound_dropping (h : Sound s) {its : List Item}
    (hp : s.items (.transfer k) = .carried e :: its) {s₂ : State}
    (hw : Writes (fun _ => False) s s₂) (hitems : ∀ x, s₂.items x = s.items x) :
    Sound (setTransfer s₂ k (.dropping e)) := by
  have hcarries : Item.Ok s₂ (.carried e) :=
    hw.ok h (x := .transfer k) (hp ▸ List.mem_cons_self ..)
  refine stay _ [.holding e.tp (some e.buf)] h hp (items_setTransfer_self ..) Place.noConfusion
    ((hw.mono fun _ => False.elim).trans (.of_heap rfl))
    (fun x hx => (items_setTransfer _ _ _ hx).trans (hitems x)) ?_ (Carries.raw hcarries)
  refine le_trans (resOf_holding_le e) (Ledger.resOf_sublist ?_)
  exact List.singleton_sublist.mpr (List.mem_cons_self ..)

/-- The two clients are looked up. -/
theorem sound_lookUp (h : Sound s) (ht : s.transfers k = .loaded e table) :
    Sound (lookUp s k e table) := by
  have hp : s.items (.transfer k) = [.carried e, .snapshot table] := congrArg Transfer.items ht
  obtain ⟨hcarries, hsnapshot⟩ := ok_items h hp
  unfold lookUp
  dsimp only
  split
  · exact sound_dropping h hp (.of_heap rfl) fun _ => rfl
  · next srcClient hsrc =>
    have hwrites : ∀ {W}, Writes W s (updateAddrCheck s srcClient (s.tps e.tp).srcAddr) :=
      .updateAddrCheck ..
    split
    · split
      · next client hdst =>
        have hcarries' : Item.Ok (updateAddrCheck s srcClient _) (.carried e) :=
          hwrites.ok h (x := .transfer k) (hp ▸ List.mem_cons_self ..)
        have htarget : Target s e.num table client := by
          obtain ⟨d, hd, -, -, -, hsrcOf, hdstOf⟩ := hcarries
          refine ⟨hsnapshot, d, hd, ?_, ?_⟩
          · rw [← hsrcOf, hsrc]
            rfl
          · rw [← hdstOf, hdst]
        exact stay _ [.carried e, .target e.num table client] h hp (items_setTransfer_self ..)
          Place.noConfusion (hwrites.trans (.of_heap rfl))
          (fun x hx => (items_setTransfer _ _ _ hx).trans (items_updateAddrCheck ..)) le_rfl
          ⟨hcarries', htarget.later (hwrites (W := fun _ => False)).later⟩
      · exact sound_dropping h hp hwrites fun _ => items_updateAddrCheck ..
    · exact sound_dropping h hp hwrites fun _ => items_updateAddrCheck ..

theorem sound_address (h : Sound s) (ht : s.transfers k = .found e table client) :
    Sound (setTransfer s k
      (.addressed e { num := e.num, table, client, addr := s.clients.dataAddr client })) := by
  have hp : s.items (.transfer k) = [.carried e, .target e.num table client] :=
    congrArg Transfer.items ht
  obtain ⟨hcarries, htarget⟩ := ok_items h hp
  exact stay _ [.carried e, .chosen e.num _] h hp (items_setTransfer_self ..) Place.noConfusion
    (.of_heap rfl) (fun x hx => items_setTransfer _ _ _ hx) le_rfl
    ⟨hcarries, rfl, htarget, s.clients, List.mem_cons_self .., rfl⟩

/-- The datagram in a `packet`. -/
theorem sound_fill (h : Sound s) (ht : s.transfers k = .addressed e c) {d : Draw} {s₁ : State}
    (hget : getPacket s d = some (packet, s₁)) :
    Sound (setTransfer (setPacket s₁ packet
      { data := (s.tps e.tp).rawData, broadcast := false, dstAddr := c.addr }) k
      (.filled e packet c)) := by
  have hp : s.items (.transfer k) = [.carried e, .chosen e.num c] := congrArg Transfer.items ht
  obtain ⟨hcarries, hnum, hchosen⟩ := ok_items h hp
  have hmem : Item.carried e ∈ s.items (.transfer k) := hp ▸ List.mem_cons_self ..
  obtain ⟨new, htook⟩ := took_getPacket hget
  have hcarries₁ : Item.Ok s₁ (.carried e) := htook.writes.ok h hmem
  have hheld : Res.tp e.tp ∈ s.holds (.transfer k) :=
    mem_holds hmem (by simp [Item.res, Carried.res])
  have htp : s₁.tps e.tp = s.tps e.tp := htook.writes.same (.tp e.tp) (h.used hheld) id
  have hparcel : ParcelOk (setPacket s₁ packet
      { data := (s.tps e.tp).rawData, broadcast := false, dstAddr := c.addr })
      ⟨packet, some e.buf, .relay c⟩ := by
    unfold ParcelOk
    rw [packets_setPacket]
    refine ⟨rfl, Carries.raw hcarries, hchosen.later htook.writes.later, rfl, ?_⟩
    -- the slice of the `transferPacket` shows the datagram
    obtain ⟨content, hcontent, -, hraw, hbytes, -⟩ := hcarries₁
    show s₁.received[c.num]? = some (shown s₁.mem (s.tps e.tp).rawData)
    rw [← htp, hraw, hnum, hcontent]
    exact congrArg some hbytes.symm
  exact draw _ [.filled e packet c] h htook hp (items_setTransfer_self ..) Place.noConfusion
    ((Writes.setPacket s₁ (Or.inr rfl) _).trans (.of_heap rfl))
    (fun x hx => (items_setTransfer _ _ _ hx).trans (items_setPacket ..)) rfl
    ⟨hcarries₁, hnum, hparcel⟩

theorem sound_sendPacket (h : Sound s) (ht : s.transfers k = .filled e packet c) :
    Sound (setTransfer (setPacketChan s (s.packetChan ++ [⟨packet, some e.buf, .relay c⟩])) k
      (.releasing e.tp)) := by
  have hp : s.items (.transfer k) = [.filled e packet c] := congrArg Transfer.items ht
  obtain ⟨-, hnum, hparcel⟩ := ok_items h hp
  refine give _ [.loose (.tp e.tp)] [.parcel ⟨packet, some e.buf, .relay c⟩] (q := .packetChan) h hp
    (items_setTransfer_self ..) (List.Perm.of_eq List.map_append) Place.noConfusion (.of_heap rfl)
    (fun x hx hx' => (items_setTransfer _ _ _ hx).trans (items_setPacketChan _ _ hx'))
    (Multiset.le_iff_count.mpr fun r => ?_) trivial hparcel
  simp only [Ledger.resOf_cons, Ledger.resOf_nil, ledger_res, Item.res, Carried.res, Parcel.res,
    bufRes, Origin.res, hnum, Multiset.count_add, Multiset.count_zero]
  omega

/-- `packetChan` is full, or the context is cancelled: the `packet` goes back. -/
theorem sound_putFilled (h : Sound s) (ht : s.transfers k = .filled e packet c)
    (hres : ledger.resOf t.items ≤ {.tp e.tp} + {.buf e.buf})
    (hok : t.items.Forall (·.Ok (setTransfer (putPacket s packet) k t))) :
    Sound (setTransfer (putPacket s packet) k t) := by
  have hp : s.items (.transfer k) = [.filled e packet c] := congrArg Transfer.items ht
  refine give _ _ [.loose (.packet packet)] (q := .pools) h hp (items_setTransfer_self ..)
    (perm_putPacket s packet) Place.noConfusion (.of_heap rfl)
    (fun x hx hx' => (items_setTransfer _ _ _ hx).trans (items_putPacket _ _ hx'))
    (Multiset.le_iff_count.mpr fun r => ?_) hok trivial
  have hr := Multiset.le_iff_count.mp hres r
  simp only [Ledger.resOf_cons, Ledger.resOf_nil, ledger_res, Item.res, Carried.res,
    Multiset.count_add, Multiset.count_zero] at hr ⊢
  omega

theorem sound_putDropped (h : Sound s) (ht : s.transfers k = .dropping e) :
    Sound (setTransfer (putBuf s ((s.tps e.tp).rawData.map (·.id))) k (.releasing e.tp)) := by
  have hp : s.items (.transfer k) = [.holding e.tp (some e.buf)] := congrArg Transfer.items ht
  have hraw : (s.tps e.tp).rawData.map (·.id) = some e.buf := ok_items h hp
  rw [hraw]
  exact give_buf _ [.loose (.tp e.tp)] (some e.buf) h hp (items_setTransfer_self ..) rfl
    Place.noConfusion (.of_heap rfl)
    (fun x hx hx' => (items_setTransfer _ _ _ hx).trans (items_putBuf _ _ hx')) le_rfl trivial

theorem sound_release (h : Sound s) {tp : TpId} (ht : s.transfers k = .releasing tp) (v : Tp) :
    Sound (setTransfer (putTp (setTp s tp v) tp) k .idle) := by
  have hp : s.items (.transfer k) = [.loose (.tp tp)] := congrArg Transfer.items ht
  exact give _ [] [.loose (.tp tp)] (q := .pools) h hp (items_setTransfer_self ..)
    (perm_putTp s tp) Place.noConfusion
    ((Writes.setTp s (by simp [Item.res]) v).trans (.of_heap rfl))
    (fun x hx hx' => (items_setTransfer _ _ _ hx).trans
      ((items_putTp _ _ hx').trans (items_setTp ..)))
    (le_of_eq (zero_add _)) trivial trivial

/-- **A `transfer` worker keeps the ledger sound.** -/
theorem sound_transferStep (h : Sound s) {act : TransferAct}
    (hs : transferStep s k act = some s') : Sound s' := by
  cases act with
  | take =>
    simp only [transferStep] at hs
    split at hs
    · next e rest ht hchan =>
      cases hs
      exact sound_take h ht hchan
    · cases hs
  | load =>
    simp only [transferStep] at hs
    split at hs
    · next e ht =>
      cases hs
      exact sound_load h ht
    · cases hs
  | check =>
    simp only [transferStep] at hs
    split at hs
    · next e table ht =>
      cases hs
      exact sound_lookUp h ht
    · cases hs
  | address =>
    simp only [transferStep] at hs
    split at hs
    · next e table client ht =>
      cases hs
      exact sound_address h ht
    · cases hs
  | fill d =>
    simp only [transferStep] at hs
    split at hs
    · next e c ht =>
      split at hs
      · obtain ⟨⟨packet, s₁⟩, hget, rfl⟩ := Option.map_eq_some_iff.mp hs
        exact sound_fill h ht hget
      · -- no address yet
        cases hs
        exact sound_dropping h (congrArg Transfer.items ht) (.of_heap rfl) fun _ => rfl
    · cases hs
  | send =>
    simp only [transferStep] at hs
    split at hs
    · next e packet c ht =>
      obtain ⟨-, rfl⟩ := guardTo_eq_some.mp hs
      exact sound_sendPacket h ht
    · cases hs
  | drop =>
    simp only [transferStep] at hs
    split at hs
    · next e packet c ht =>
      obtain ⟨-, rfl⟩ := guardTo_eq_some.mp hs
      have hp : s.items (.transfer k) = [.filled e packet c] := congrArg Transfer.items ht
      obtain ⟨hcarries, -⟩ := ok_items h hp
      exact sound_putFilled h ht (le_of_eq (add_zero _)) (Carries.raw hcarries)
    · cases hs
  | done =>
    simp only [transferStep] at hs
    split at hs
    · next e packet c ht =>
      cases hs
      exact sound_putFilled h ht (Multiset.zero_le _) trivial
    · cases hs
  | putRaw =>
    simp only [transferStep] at hs
    split at hs
    · next e ht =>
      cases hs
      exact sound_putDropped h ht
    · cases hs
  | putTp =>
    simp only [transferStep] at hs
    split at hs
    · next tp ht =>
      cases hs
      exact sound_release h ht _
    · cases hs

end TransferWorker

/-! ## `writeUdpPacket` -/

section WriteUdpPacket

variable {s s' : State} {k : Nat} {batch rest : List Parcel} {p : Parcel}

theorem items_setWriter (s : State) (k : Nat) (w : Writer) {x : Place} (hx : x ≠ .writer k) :
    (setWriter s k w).items x = s.items x := by
  cases x with
  | writer j =>
    have hne : j ≠ k := fun hj => hx (congrArg _ hj)
    exact congrArg Writer.items (Function.update_of_ne hne ..)
  | _ => rfl

theorem items_setWriter_self (s : State) (k : Nat) (w : Writer) :
    (setWriter s k w).items (.writer k) = w.items :=
  congrArg Writer.items (Function.update_self ..)

theorem sound_collect (h : Sound s) (hw : s.writers k = .collecting batch)
    (hchan : s.packetChan = p :: rest) :
    Sound (setWriter (setPacketChan s rest) k (.collecting (batch ++ [p]))) := by
  have hp : s.items (.writer k) = batch.map .parcel := congrArg Writer.items hw
  have hq : s.items .packetChan = .parcel p :: rest.map .parcel :=
    congrArg (List.map Item.parcel) hchan
  exact take _ (.parcel p) h hp ((items_setWriter_self ..).trans List.map_append) hq
    Place.noConfusion (.of_heap rfl)
    fun x hx hx' => (items_setWriter _ _ _ hx).trans (items_setPacketChan _ _ hx')

theorem messages_eq_unicast (h : ParcelOk s p) : messages s p = unicast s p := by
  unfold messages unicast
  dsimp only
  rw [h.1]
  rfl

theorem resOf_parcels (batch : List Parcel) :
    ledger.resOf (batch.map .parcel) = (batch.map Parcel.res).sum := by
  rw [Ledger.resOf, List.map_map]
  rfl

theorem sound_build (h : Sound s) (hw : s.writers k = .collecting batch) :
    Sound (setWriter s k (.built batch (batch.flatMap (messages s)))) := by
  have hp : s.items (.writer k) = batch.map .parcel := congrArg Writer.items hw
  have hok : ∀ p ∈ batch, ParcelOk s p := fun p hmem =>
    ok_item h (x := .writer k) (hp ▸ List.mem_map_of_mem hmem : Item.parcel p ∈ _)
  refine stay _ [.batch batch (batch.flatMap (messages s))] h hp (items_setWriter_self ..)
    Place.noConfusion (.of_heap rfl) (fun x hx => items_setWriter _ _ _ hx) (le_of_eq ?_) ?_
  · rw [resOf_parcels]
    exact add_zero _
  · exact ⟨hok, List.flatMap_congr fun p hmem => messages_eq_unicast (hok p hmem)⟩

/-- What is written of a batch has at most the datagrams of the batch. -/
theorem resOf_written_le (s : State) (batch : List Parcel) :
    ledger.resOf (batch.map .spent) +
        ledger.resOf (((batch.flatMap (unicast s)).map (Message.write s.mem)).map .written) ≤
      (batch.map Parcel.res).sum := by
  induction batch with
  | nil => exact le_rfl
  | cons p rest ih =>
    have hone : ledger.resOf (((unicast s p).map (Message.write s.mem)).map .written) ≤
        p.origin.res := by
      unfold unicast
      split
      · exact le_of_eq (add_zero _)
      · exact Multiset.zero_le _
    refine Multiset.le_iff_count.mpr fun r => ?_
    have hr := Multiset.le_iff_count.mp ih r
    have hr' := Multiset.le_iff_count.mp hone r
    simp only [List.flatMap_cons, List.map_cons, List.map_append, List.sum_cons, Ledger.resOf_cons,
      Ledger.resOf_append, ledger_res, Item.res, Parcel.res, Multiset.count_add] at hr hr' ⊢
    omega

/-- The message of a `packet` is right. -/
theorem right_unicast (h : ParcelOk s p) {m : Message} (hm : m ∈ unicast s p) :
    Right s (m.write s.mem).bytes m.addr m.origin := by
  unfold unicast at hm
  split at hm
  · rw [List.mem_singleton.mp hm]
    exact h.2.2
  · cases hm

theorem sound_write (h : Sound s) {msgs : List Message} (hw : s.writers k = .built batch msgs)
    (n : Nat) : Sound (setWriter (write s (msgs.take n)) k (.releasing batch)) := by
  have hp : s.items (.writer k) = [.batch batch msgs] := congrArg Writer.items hw
  obtain ⟨hok, rfl⟩ := ok_items h hp
  refine give _ (batch.map .spent)
    ((((batch.flatMap (unicast s)).take n).map (Message.write s.mem)).map .written) (q := .written)
    h hp (items_setWriter_self ..) (List.Perm.of_eq List.map_append) Place.noConfusion
    (.of_heap rfl)
    (fun x hx hx' => (items_setWriter _ _ _ hx).trans ?_) ?_
    (List.forall_iff_forall_mem.mpr fun it hit => ?_)
    (List.forall_iff_forall_mem.mpr fun it hit => ?_)
  · cases x <;> first | rfl | exact absurd rfl hx'
  · -- a part of the messages has a part of their datagrams
    have htake := Ledger.resOf_sublist (L := ledger)
      ((((batch.flatMap (unicast s)).take_sublist n).map (Message.write s.mem)).map Item.written)
    refine le_trans (add_le_add le_rfl htake) (le_trans (resOf_written_le s batch) ?_)
    exact le_of_eq (add_zero _).symm
  · obtain ⟨p, hmem, rfl⟩ := List.mem_map.mp hit
    exact (hok p hmem).2.1
  · obtain ⟨_, hmap, rfl⟩ := List.mem_map.mp hit
    obtain ⟨m, hm, rfl⟩ := List.mem_map.mp hmap
    obtain ⟨p, hmem, hmp⟩ := List.mem_flatMap.mp (List.mem_of_mem_take hm)
    exact right_unicast (hok p hmem) hmp

/-- The buffer of a `packet` that was sent goes back. -/
theorem sound_putData (h : Sound s) (hw : s.writers k = .releasing (p :: rest)) {v : Packet}
    (hv : v.data = none) :
    Sound (setWriter (putBuf (setPacket s p.packet v) ((s.packets p.packet).data.map (·.id))) k
      (.releasing ({ p with buf := none } :: rest))) := by
  have hp : s.items (.writer k) = .spent p :: rest.map .spent := congrArg Writer.items hw
  have hbuf : Item.Ok s (.spent p) := ok_item h (x := .writer k) (hp ▸ List.mem_cons_self ..)
  have hown : Res.packet p.packet ∈ (Item.spent p).res := by simp [Item.res]
  have htail : Res.packet p.packet ∉ ledger.resOf (rest.map .spent) :=
    h.not_mem_tail (x := Place.writer k) hp hown
  have hwrites : Writes (· = .packet p.packet) s (setPacket s p.packet v) :=
    Writes.setPacket (W := fun r => r = .packet p.packet) s rfl v
  rw [show (s.packets p.packet).data.map (·.id) = p.buf from hbuf]
  refine give_buf _ (.spent { p with buf := none } :: rest.map .spent) p.buf h hp
    (items_setWriter_self ..) rfl Place.noConfusion
    ((hwrites.mono fun r hr => ?_).trans (.of_heap rfl))
    (fun x hx hx' => (items_setWriter _ _ _ hx).trans
      ((items_putBuf _ _ hx').trans (items_setPacket ..)))
    (Multiset.le_iff_count.mpr fun r => ?_) (List.forall_iff_forall_mem.mpr fun it hit => ?_)
  · rw [hr]
    exact Ledger.mem_resOf (L := ledger) (List.mem_cons_self ..) hown
  · simp only [Ledger.resOf_cons, ledger_res, Item.res, bufRes, Multiset.count_add,
      Multiset.count_zero]
    omega
  · rcases List.mem_cons.mp hit with rfl | hit
    · show ((setPacket s p.packet v).packets p.packet).data.map (·.id) = none
      rw [packets_setPacket, hv]
      rfl
    · -- the other packets of the batch are other packets
      have hmem : it ∈ s.items (.writer k) := hp ▸ List.mem_cons_of_mem _ hit
      refine Item.Ok.frame hwrites.later (fun r hr => ?_) (ok_item h hmem)
      refine hwrites.same r (h.used (mem_holds hmem hr)) ?_
      rintro rfl
      exact htail (Ledger.mem_resOf (L := ledger) hit hr)

theorem sound_putSent (h : Sound s) (hw : s.writers k = .releasing (p :: rest)) :
    Sound (setWriter (putPacket s p.packet) k (.releasing rest)) := by
  have hp : s.items (.writer k) = .spent p :: rest.map .spent := congrArg Writer.items hw
  refine give _ (rest.map .spent) [.loose (.packet p.packet)] (q := .pools) h hp
    (items_setWriter_self ..) (perm_putPacket s p.packet) Place.noConfusion (.of_heap rfl)
    (fun x hx hx' => (items_setWriter _ _ _ hx).trans (items_putPacket _ _ hx'))
    (Multiset.le_iff_count.mpr fun r => ?_) (List.forall_iff_forall_mem.mpr fun it hit => ?_)
    trivial
  · simp only [Ledger.resOf_cons, Ledger.resOf_nil, ledger_res, Item.res, Multiset.count_add,
      Multiset.count_zero]
    omega
  · obtain ⟨p', hp', rfl⟩ := List.mem_map.mp hit
    have hspent : Item.Ok s (.spent p') :=
      ok_item h (x := .writer k) (hp ▸ List.mem_cons_of_mem _ hit)
    exact hspent

/-- **A `writeUdpPacket` worker keeps the ledger sound.** -/
theorem sound_writerStep (h : Sound s) {act : WriterAct} (hs : writerStep s k act = some s') :
    Sound s' := by
  cases act with
  | collect =>
    simp only [writerStep] at hs
    split at hs
    · next batch p rest hw hchan =>
      obtain ⟨-, rfl⟩ := guardTo_eq_some.mp hs
      exact sound_collect h hw hchan
    · cases hs
  | build =>
    simp only [writerStep] at hs
    split at hs
    · next batch hw =>
      obtain ⟨-, rfl⟩ := guardTo_eq_some.mp hs
      exact sound_build h hw
    · cases hs
  | write n =>
    simp only [writerStep] at hs
    split at hs
    · next batch msgs hw =>
      cases hs
      exact sound_write h hw n
    · cases hs
  | putData =>
    simp only [writerStep] at hs
    split at hs
    · next p rest hw =>
      obtain ⟨-, rfl⟩ := guardTo_eq_some.mp hs
      exact sound_putData h hw rfl
    · cases hs
  | putPacket =>
    simp only [writerStep] at hs
    split at hs
    · next p rest hw =>
      obtain ⟨-, rfl⟩ := guardTo_eq_some.mp hs
      exact sound_putSent h hw
    · cases hs
  | next =>
    simp only [writerStep] at hs
    split at hs
    · next hw =>
      cases hs
      have hp : s.items (.writer k) = [] := congrArg Writer.items hw
      exact stay _ [] h hp (items_setWriter_self ..) Place.noConfusion (.of_heap rfl)
        (fun x hx => items_setWriter _ _ _ hx) le_rfl trivial
    · cases hs

end WriteUdpPacket

end Buffers

end EasyTun.Transport
