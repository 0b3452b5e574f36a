import EasyTun.Lib.Memory
import EasyTun.Transport.ClientSend

/-!
# The buffer of DNS queries (`packetSend` in `internal/transport/client_udp.go`)

A `packetSend` worker has one slice, `dnsBuffer`, that it fills with every DNS query.
`EncodePacket` copies it behind a header into a buffer from the pool. After the
datagram is written, the worker puts both into the pool: the buffer, and `dnsBuffer`
itself, which it goes on using.

So buffers are arrays with identities here. The pool hands out any slice that was
put into it and not taken since, or a new one. Other goroutines take, write and put
slices at any time, and so does the worker itself for packets that are no queries.

- `intact_when_undisturbed`: **every query on the wire is the one that was sent**, if
  `EncodePacket` does not get the array behind `dnsBuffer` and nobody else writes to
  an array that the worker is using.
- `second_query_garbled`: the second of two short queries gets that array.
-/

namespace EasyTun.Transport

open EasyTun.Lib EasyTun.Protocol EasyTun.Protocol.GamePacket
open PacketSend (Emission dnsPacket)

namespace DnsBuffer

/-! ## The worker and the pool -/

/-- Where the worker is with a query; a nil slice is `none`. -/
inductive Phase where
  | idle
  /-- Line 62: `dnsBuffer` has the request. -/
  | filled (p : Bytes)
  /-- Line 64: `EncodePacket` returned `data`. -/
  | encoded (p : Bytes) (data : Option ArrSlice)
  /-- Line 96: the datagram is written. -/
  | written (data : Option ArrSlice)

structure State where
  mem : Memory
  pool : List ArrSlice
  /-- The slices that other goroutines have. -/
  others : List ArrSlice
  dnsBuffer : ArrSlice
  phase : Phase
  sent : List Emission

/-- What a `Get` returns: the slice at a position of the pool, or a new one. -/
inductive Choice where
  | pooled (i : Nat)
  | made (n : Nat)

/-- `bufPool.Get()`. -/
def get (s : State) : Choice → Option (ArrSlice × State)
  | .pooled i => s.pool[i]?.map fun v => (v, { s with pool := s.pool.eraseIdx i })
  | .made n => some (s.mem.fresh n, { s with mem := s.mem.alloc n })

/-- `bufPool.Put(v)`. -/
def put (s : State) (v : ArrSlice) : State := { s with pool := s.pool ++ [v] }

/-- The buffer of an `EncodePacket` (packet.go:243–247). -/
def getCap (s : State) (n : Nat) (c : Choice) : Option (ArrSlice × State) :=
  (get s c).map fun r =>
    if r.1.cap < n then
      -- what `Get` returned is too small and goes back as it is
      (r.2.mem.fresh n, put { r.2 with mem := r.2.mem.alloc n } r.1)
    else r

/-- `dnsBuffer` is filled (client_udp.go:58–62). -/
def fill (s : State) (p : Bytes) (slack₁ slack₂ : Nat) : State :=
  let r₁ := s.mem.append s.dnsBuffer.empty (toBE 2 (ofBE (window p (ihl p) 2))) slack₁
  let r₂ := r₁.1.append r₁.2 (p.drop (ihl p + 8)) slack₂
  { s with mem := r₂.1, dnsBuffer := r₂.2, phase := .filled p }

/-- What `encode` appends before the payload (packet.go:90–95). -/
def headerPieces (g : GamePacket) (length : UInt16) : List Bytes :=
  [toBE 2 magicNumber, [g.pType], g.dst.1, toBE 2 length.toNat, g.src.1, toBE 8 0]

/-- `EncodePacket` of a query, without a cipher (packet.go:227–252, 77–106). -/
def encode (cfg : ClientConfig) (s : State) (p : Bytes) (c : Choice) : Option State :=
  match payloadLengthField s.dnsBuffer.len with
  | none => some { s with phase := .encoded p none }
  | some length =>
    (getCap s (headerLength + length.toNat) c).map fun r =>
      let header := r.2.mem.appendAll r.1.empty (headerPieces (dnsPacket cfg p) length)
      -- the payload is read when the header is already written
      let data :=
        if 0 < s.dnsBuffer.len then header.1.append header.2 (header.1.read s.dnsBuffer) 0
        else header
      { r.2 with mem := data.1, phase := .encoded p (some data.2) }

/-- What happens, with what it draws from the environment. -/
inductive Act where
  /-- Another goroutine takes a slice. -/
  | get (c : Choice)
  /-- It writes into one that it has. -/
  | write (i off : Nat) (bs : Bytes)
  /-- It puts one back, from some position on. -/
  | put (i d : Nat)
  /-- The worker comes to a query. -/
  | query (p : Bytes) (slack₁ slack₂ : Nat)
  | encode (c : Choice)
  /-- `WriteToUDP`. -/
  | send
  /-- The two `Put`s (client_udp.go:97–98). -/
  | release

/-- One step. -/
def step (cfg : ClientConfig) (s : State) : Act → Option State
  | .get c => (get s c).map fun r => { r.2 with others := r.2.others ++ [r.1] }
  | .write i off bs =>
    s.others[i]?.bind fun v =>
      guardTo (off + bs.length ≤ v.cap) { s with mem := s.mem.store v.id (v.off + off) bs }
  | .put i d =>
    s.others[i]?.bind fun v =>
      guardTo (d ≤ v.cap) (put { s with others := s.others.eraseIdx i } (v.drop d))
  | .query p slack₁ slack₂ =>
    match s.phase with
    | .idle => guardTo (isDns cfg.dnsIp p = true) (fill s p slack₁ slack₂)
    | _ => none
  | .encode c =>
    match s.phase with
    | .filled p => encode cfg s p c
    | _ => none
  | .send =>
    match s.phase with
    | .encoded p data =>
      some { s with
        sent := s.sent ++ [⟨p, (data.map s.mem.read).getD []⟩]
        phase := .written data }
    | _ => none
  | .release =>
    match s.phase with
    | .written data =>
      -- the worker keeps `dnsBuffer` for its next query
      some { s with
        pool := s.pool ++ [s.dnsBuffer.empty] ++ (data.map ArrSlice.empty).toList
        phase := .idle }
    | _ => none

/-- `dnsBuffer := make([]byte, 0, 64)` (client_udp.go:25). -/
def start : State :=
  { mem := (Memory.mk (fun _ => []) 0).alloc 64
    pool := [], others := []
    dnsBuffer := ⟨0, 0, 0, 64⟩
    phase := .idle, sent := [] }

def machine (cfg : ClientConfig) : Machine State Act := { init := start, step := step cfg }

/-! ## The condition -/

/-- The array the worker has yet to read. -/
def inUse (s : State) : Option ArrId :=
  match s.phase with
  | .filled _ => some s.dnsBuffer.id
  | .encoded _ (some data) => some data.id
  | .encoded _ none | .idle | .written _ => none

/-- An IPv4 packet is not longer than this. -/
def maxIpPacket : Nat := 65535

/-- **The condition**: `EncodePacket` does not use the array behind `dnsBuffer`, and no
other goroutine writes to an array the worker has yet to read. -/
def Undisturbed (s : State) : Act → Prop
  | .query p _ _ => p.length ≤ maxIpPacket
  | .write i _ _ => ∀ v ∈ s.others[i]?, inUse s ≠ some v.id
  | .encode (.pooled i) => ∀ v ∈ s.pool[i]?, v.id = s.dnsBuffer.id →
      v.cap < headerLength + (s.dnsBuffer.len + authenticationTagLength)
  | _ => True

instance (s : State) : (a : Act) → Decidable (Undisturbed s a)
  | .query p _ _ => inferInstanceAs (Decidable (p.length ≤ maxIpPacket))
  | .write i _ _ => inferInstanceAs (Decidable (∀ v ∈ s.others[i]?, inUse s ≠ some v.id))
  | .encode (.pooled i) => inferInstanceAs (Decidable (∀ v ∈ s.pool[i]?,
      v.id = s.dnsBuffer.id → v.cap < headerLength + (s.dnsBuffer.len + authenticationTagLength)))
  | .encode (.made _) | .get _ | .put _ _ | .send | .release => inferInstanceAs (Decidable True)

/-! ## What a query is on the wire -/

/-- **The datagram is the query**: parsed without a cipher, it is a `TypeDnsRequest`
with the two bytes of the source port and the UDP payload of the packet. -/
def Intact (e : Emission) : Prop :=
  ∀ (K : Type) (A : Aead K) (g : GamePacket) (pool : Pool),
    ∃ gp pool', g.parsePacket A pool e.wire true none = (none, gp, pool') ∧
      gp.pType = typeDnsRequest ∧
      gp.payload = some (window e.packet (ihl e.packet) 2 ++ e.packet.drop (ihl e.packet + 8))

/-- The query in the clear, as `EncodePacket` makes it. -/
def queryWire (cfg : ClientConfig) (p : Bytes) : Bytes :=
  clearWire cfg.localIp (dstIp p) typeDnsRequest (dnsRequest p)

/-- A request with another payload. -/
theorem not_intact (src dst : ByteArr 4) {p payload : Bytes}
    (hmax : payload.length ≤ maxPayloadSize)
    (hne : payload ≠ window p (ihl p) 2 ++ p.drop (ihl p + 8)) :
    ¬Intact ⟨p, clearWire src dst typeDnsRequest payload⟩ := by
  intro hintact
  obtain ⟨raw, pool', hparse⟩ := parsePacket_clear chacha20Poly1305 .empty (.fresh 0) src dst
    typeDnsRequest rfl hmax
  obtain ⟨gp, pool'', hparse', -, hpayload⟩ := hintact _ chacha20Poly1305 .empty (.fresh 0)
  have heq := (Prod.mk.inj (Prod.mk.inj (hparse.symm.trans hparse')).2).1
  rw [← heq] at hpayload
  exact hne (Option.some.inj hpayload)

/-- A query the worker can handle. -/
structure Query (cfg : ClientConfig) (p : Bytes) : Prop where
  isDns : isDns cfg.dnsIp p = true
  length_le : p.length ≤ maxIpPacket

namespace Query

variable {cfg : ClientConfig} {p : Bytes}

/-- The UDP header is there. -/
theorem header (h : Query cfg p) : ihl p + 8 ≤ p.length ∧ 20 ≤ ihl p := by
  have hdns := h.isDns
  unfold Transport.isDns at hdns
  split at hdns
  · next hc => exact ⟨hc.1, hc.2.1⟩
  · cases hdns

theorem length_dnsRequest (h : Query cfg p) :
    (dnsRequest p).length = 2 + (p.length - (ihl p + 8)) ∧
      (dnsRequest p).length ≤ maxPayloadSize := by
  obtain ⟨hlen, h20⟩ := h.header
  have hmax := h.length_le
  have heq : (dnsRequest p).length = 2 + (p.length - (ihl p + 8)) := by
    rw [dnsRequest, List.length_append, length_toBE, List.length_drop]
  unfold maxIpPacket at hmax
  unfold maxPayloadSize maxLengthField authenticationTagLength
  omega

/-- The port is written as it was read. -/
theorem dnsRequest_eq (h : Query cfg p) :
    dnsRequest p = window p (ihl p) 2 ++ p.drop (ihl p + 8) := by
  have hlen : (window p (ihl p) 2).length = 2 := length_window (by have := h.header; omega)
  have hback := toBE_ofBE (window p (ihl p) 2)
  rw [hlen] at hback
  rw [dnsRequest, hback]

/-- The server reads what the client wrote. -/
theorem intact (h : Query cfg p) : Intact ⟨p, queryWire cfg p⟩ := by
  intro K A g pool
  obtain ⟨raw, pool', hparse⟩ := parsePacket_clear A g pool cfg.localIp (dstIp p) typeDnsRequest
    rfl h.length_dnsRequest.2
  exact ⟨_, pool', hparse, rfl, congrArg some h.dnsRequest_eq⟩

end Query

/-! ## The invariant -/

variable {cfg : ClientConfig} {s s' : State} {p : Bytes}

/-- What the worker relies on: the array in use has what it put there. -/
def PhaseOk (cfg : ClientConfig) (mem : Memory) (dnsBuffer : ArrSlice) : Phase → Prop
  | .idle => True
  | .filled p => Query cfg p ∧ mem.read dnsBuffer = dnsRequest p
  | .encoded p data => Query cfg p ∧
      ∃ v, data = some v ∧ v.Valid mem ∧ mem.read v = queryWire cfg p
  | .written data => ∀ v ∈ data, v.Valid mem

structure Inv (cfg : ClientConfig) (s : State) : Prop where
  dnsBuffer : s.dnsBuffer.Valid s.mem
  pool : ∀ v ∈ s.pool, v.Valid s.mem
  others : ∀ v ∈ s.others, v.Valid s.mem
  phase : PhaseOk cfg s.mem s.dnsBuffer s.phase
  sent : ∀ e ∈ s.sent, Intact e

theorem inv_start (cfg : ClientConfig) : Inv cfg start where
  dnsBuffer := ⟨Nat.zero_lt_one, Nat.le_of_eq List.length_replicate.symm, Nat.zero_le _⟩
  pool _ hv := by cases hv
  others _ hv := by cases hv
  phase := trivial
  sent _ he := by cases he

/-- The header in its two parts. -/
theorem flatten_headerPieces (cfg : ClientConfig) (p : Bytes) (length : UInt16) :
    (headerPieces (dnsPacket cfg p) length).flatten =
      wireAd typeDnsRequest (dstIp p) length ++ wireNonce cfg.localIp 0 := by
  simp only [headerPieces, List.flatten_cons, List.flatten_nil, wireAd, wireNonce,
    List.append_assoc, List.append_nil]
  rfl

namespace Inv

/-- Writes to arrays that the worker does not use. -/
theorem frame (h : Inv cfg s) {W : ArrId → Prop} {m : Memory} (hm : Memory.Frame W s.mem m)
    (huse : ∀ i, inUse s = some i → ¬W i) : Inv cfg { s with mem := m } where
  dnsBuffer := hm.valid h.dnsBuffer
  pool v hv := hm.valid (h.pool v hv)
  others v hv := hm.valid (h.others v hv)
  phase := by
    have hphase := h.phase
    show PhaseOk cfg m s.dnsBuffer s.phase
    cases hp : s.phase with
    | idle => trivial
    | filled p =>
      rw [hp] at hphase
      have hW : ¬W s.dnsBuffer.id := huse _ (by rw [inUse, hp])
      exact ⟨hphase.1, (hm.read h.dnsBuffer hW).trans hphase.2⟩
    | encoded p data =>
      rw [hp] at hphase
      obtain ⟨hquery, v, rfl, hv, hread⟩ := hphase
      have hW : ¬W v.id := huse _ (by rw [inUse, hp])
      exact ⟨hquery, v, rfl, hm.valid hv, (hm.read hv hW).trans hread⟩
    | written data =>
      rw [hp] at hphase
      exact fun v hv => hm.valid (hphase v hv)
  sent := h.sent

theorem put (h : Inv cfg s) {v : ArrSlice} (hv : v.Valid s.mem) : Inv cfg (put s v) where
  dnsBuffer := h.dnsBuffer
  pool w hw := by
    rcases List.mem_append.mp hw with hold | hnew
    · exact h.pool w hold
    · rw [List.mem_singleton.mp hnew]
      exact hv
  others := h.others
  phase := h.phase
  sent := h.sent

/-- **What a `Get` yields**: a valid slice, from the pool or with a new array. -/
theorem get (h : Inv cfg s) {c : Choice} {v : ArrSlice} (hget : get s c = some (v, s')) :
    Inv cfg s' ∧ v.Valid s'.mem ∧ s'.phase = s.phase ∧ s'.dnsBuffer = s.dnsBuffer ∧
      Memory.Frame (fun _ => False) s.mem s'.mem ∧
      ((∃ i, c = .pooled i ∧ s.pool[i]? = some v) ∨ v.id = s.mem.next) := by
  cases c with
  | pooled i =>
    obtain ⟨w, hw, heq⟩ := Option.map_eq_some_iff.mp hget
    cases heq
    have hmem : v ∈ s.pool := List.mem_of_getElem? hw
    refine ⟨⟨h.dnsBuffer, fun x hx => ?_, h.others, h.phase, h.sent⟩, h.pool v hmem, rfl, rfl,
      .refl _ _, Or.inl ⟨i, rfl, hw⟩⟩
    exact h.pool x (List.mem_of_mem_eraseIdx hx)
  | made n =>
    cases hget
    have hframe := Memory.frame_alloc (fun _ => False) s.mem n
    exact ⟨h.frame hframe fun _ _ => id, Memory.valid_fresh .., rfl, rfl, hframe, Or.inr rfl⟩

/-- The buffer of an `EncodePacket` is large enough, and it is not the array behind
`dnsBuffer` unless the pool handed that out. -/
theorem getCap (h : Inv cfg s) {n : Nat} {c : Choice} {v : ArrSlice}
    (hget : getCap s n c = some (v, s'))
    (hother : ∀ i, c = .pooled i → ∀ w ∈ s.pool[i]?, w.id = s.dnsBuffer.id → w.cap < n) :
    Inv cfg s' ∧ v.Valid s'.mem ∧ n ≤ v.cap ∧ v.id ≠ s'.dnsBuffer.id ∧ s'.phase = s.phase ∧
      s'.dnsBuffer = s.dnsBuffer ∧ s'.mem.read s.dnsBuffer = s.mem.read s.dnsBuffer := by
  obtain ⟨⟨w, s₁⟩, hw, heq⟩ := Option.map_eq_some_iff.mp hget
  obtain ⟨hinv, hvalid, hphase, hbuf, hframe, hwhere⟩ := h.get hw
  have hread := hframe.read h.dnsBuffer id
  have hlt := h.dnsBuffer.id_lt
  dsimp only at heq
  split at heq
  · -- too small: it goes back, and a new array is made
    cases heq
    have halloc := Memory.frame_alloc (fun _ => False) s₁.mem n
    have hinv' := hinv.frame halloc fun _ _ => id
    refine ⟨hinv'.put (halloc.valid hvalid), Memory.valid_fresh .., Nat.le_refl _, ?_, hphase, hbuf,
      ?_⟩
    · exact Nat.ne_of_gt hinv.dnsBuffer.id_lt
    · exact (halloc.read (hframe.valid h.dnsBuffer) id).trans hread
  · next hcap =>
    cases heq
    refine ⟨hinv, hvalid, Nat.le_of_not_lt hcap, ?_, hphase, hbuf, hread⟩
    rw [hbuf]
    rcases hwhere with ⟨i, rfl, hi⟩ | hnew
    · exact fun hid => hcap (hother i rfl v hi hid)
    · rw [hnew]
      exact Nat.ne_of_gt hlt

theorem fill (h : Inv cfg s) (hquery : Query cfg p) (slack₁ slack₂ : Nat)
    (hidle : s.phase = .idle) : Inv cfg (fill s p slack₁ slack₂) := by
  obtain ⟨hvalid₁, hread₁, hframe₁⟩ :=
    Memory.append_spec h.dnsBuffer.empty (toBE 2 (ofBE (window p (ihl p) 2))) slack₁
  obtain ⟨hvalid₂, hread₂, hframe₂⟩ := Memory.append_spec hvalid₁ (p.drop (ihl p + 8)) slack₂
  rw [hread₁, Memory.read_empty, List.nil_append] at hread₂
  have hframe : Memory.Frame (fun _ => True) s.mem _ :=
    (hframe₁.mono fun _ _ _ => trivial).trans (hframe₂.mono fun _ _ _ => trivial)
  -- nothing is in use before
  have hkeep := h.frame hframe fun i hi => by
    rw [inUse, hidle] at hi
    cases hi
  exact ⟨hvalid₂, hkeep.pool, hkeep.others, ⟨hquery, hread₂⟩, h.sent⟩

/-- **A query is encoded**, into an array of its own. -/
theorem encode (h : Inv cfg s) (hphase : s.phase = .filled p) {c : Choice}
    (hok : Undisturbed s (.encode c)) (hs : encode cfg s p c = some s') : Inv cfg s' := by
  have hfilled := h.phase
  rw [hphase] at hfilled
  obtain ⟨hquery, hread⟩ := hfilled
  obtain ⟨hreq, hmax⟩ := hquery.length_dnsRequest
  have hlen : s.dnsBuffer.len = (dnsRequest p).length := by
    rw [← Memory.length_read h.dnsBuffer, hread]
  have hpos : 0 < (dnsRequest p).length := by omega
  obtain ⟨length, hlength, hnat⟩ := payloadLengthField_pos hpos hmax
  unfold DnsBuffer.encode at hs
  rw [hlen, hlength] at hs
  obtain ⟨⟨data, s₁⟩, hget, rfl⟩ := Option.map_eq_some_iff.mp hs
  have hother : ∀ i, c = .pooled i → ∀ w ∈ s.pool[i]?, w.id = s.dnsBuffer.id →
      w.cap < headerLength + length.toNat := by
    rintro i rfl w hw hid
    rw [hnat, ← hlen]
    exact hok w hw hid
  obtain ⟨hinv, hvalid, hcap, hne, hphase₁, hbuf, hread₁⟩ := h.getCap hget hother
  have hheader := flatten_headerPieces cfg p length
  have hheaderLen : (headerPieces (dnsPacket cfg p) length).flatten.length = headerLength := by
    rw [hheader, List.length_append, length_wireAd, length_wireNonce]
    rfl
  -- the header fits and leaves `dnsBuffer` alone, so that the payload is still there
  have hcopy := Memory.append_copy (headerPieces (dnsPacket cfg p) length) hvalid.empty
    (hbuf ▸ hinv.dnsBuffer) (hbuf ▸ hne.symm) (by
      rw [hheaderLen, hlen]
      show 0 + (headerLength + (dnsRequest p).length) ≤ data.cap
      omega)
  have hwire : (headerPieces (dnsPacket cfg p) length).flatten ++ s₁.mem.read s.dnsBuffer =
      queryWire cfg p := by
    rw [hheader, hread₁, hread, queryWire, clearWire, lengthFieldOf, hlength, List.append_assoc]
    rfl
  have hkeep := hinv.frame hcopy.frame fun i hi => by
    rw [inUse, hphase₁, hphase] at hi
    cases hi
    exact hne.symm
  dsimp only
  rw [if_pos (by omega)]
  refine ⟨hkeep.dnsBuffer, hkeep.pool, hkeep.others, ⟨hquery, _, rfl, hcopy.valid, ?_⟩, hinv.sent⟩
  rw [hcopy.read, Memory.read_empty, List.nil_append]
  exact hwire

/-- The datagram is written as it was encoded. -/
theorem send (h : Inv cfg s) {data : Option ArrSlice} (hphase : s.phase = .encoded p data) :
    Inv cfg { s with
      sent := s.sent ++ [⟨p, (data.map s.mem.read).getD []⟩], phase := .written data } := by
  have hencoded := h.phase
  rw [hphase] at hencoded
  obtain ⟨hquery, v, rfl, hvalid, hread⟩ := hencoded
  refine ⟨h.dnsBuffer, h.pool, h.others, ?_, fun e he => ?_⟩
  · rintro w ⟨⟩
    exact hvalid
  · rcases List.mem_append.mp he with hold | hnew
    · exact h.sent e hold
    · rw [List.mem_singleton.mp hnew, Option.map_some, Option.getD_some, hread]
      exact hquery.intact

/-- Both slices are put back. -/
theorem release (h : Inv cfg s) {data : Option ArrSlice} (hphase : s.phase = .written data) :
    Inv cfg { s with
      pool := s.pool ++ [s.dnsBuffer.empty] ++ (data.map ArrSlice.empty).toList
      phase := .idle } := by
  have hwritten := h.phase
  rw [hphase] at hwritten
  refine ⟨h.dnsBuffer, fun v hv => ?_, h.others, trivial, h.sent⟩
  rcases List.mem_append.mp hv with hv | hv
  · exact (h.put h.dnsBuffer.empty).pool v hv
  · obtain ⟨w, hw, rfl⟩ := Option.map_eq_some_iff.mp (Option.mem_toList.mp hv)
    exact (hwritten w hw).empty

/-- **Every undisturbed step keeps the invariant.** -/
theorem step (h : Inv cfg s) {a : Act} (hok : Undisturbed s a) (hs : step cfg s a = some s') :
    Inv cfg s' := by
  cases a with
  | get c =>
    obtain ⟨⟨v, s₁⟩, hget, rfl⟩ := Option.map_eq_some_iff.mp hs
    obtain ⟨hinv, hvalid, -⟩ := h.get hget
    refine ⟨hinv.dnsBuffer, hinv.pool, fun w hw => ?_, hinv.phase, hinv.sent⟩
    rcases List.mem_append.mp hw with hold | hnew
    · exact hinv.others w hold
    · rw [List.mem_singleton.mp hnew]
      exact hvalid
  | write i off bs =>
    obtain ⟨v, hv, hguard⟩ := Option.bind_eq_some_iff.mp hs
    obtain ⟨-, rfl⟩ := guardTo_eq_some.mp hguard
    exact h.frame (Memory.frame_store ..) fun j hj hW => hok v hv (hW ▸ hj)
  | put i d =>
    obtain ⟨v, hv, hguard⟩ := Option.bind_eq_some_iff.mp hs
    obtain ⟨hd, rfl⟩ := guardTo_eq_some.mp hguard
    have hvalid := h.others v (List.mem_of_getElem? hv)
    have hrest : Inv cfg { s with others := s.others.eraseIdx i } :=
      ⟨h.dnsBuffer, h.pool, fun w hw => h.others w (List.mem_of_mem_eraseIdx hw), h.phase, h.sent⟩
    exact hrest.put (hvalid.drop hd)
  | query p slack₁ slack₂ =>
    unfold DnsBuffer.step at hs
    cases hphase : s.phase with
    | idle =>
      rw [hphase] at hs
      obtain ⟨hdns, rfl⟩ := guardTo_eq_some.mp hs
      exact h.fill ⟨hdns, hok⟩ slack₁ slack₂ hphase
    | _ => rw [hphase] at hs; cases hs
  | encode c =>
    unfold DnsBuffer.step at hs
    cases hphase : s.phase with
    | filled p =>
      rw [hphase] at hs
      exact h.encode hphase hok hs
    | _ => rw [hphase] at hs; cases hs
  | send =>
    unfold DnsBuffer.step at hs
    cases hphase : s.phase with
    | encoded p data =>
      rw [hphase] at hs
      cases hs
      exact h.send hphase
    | _ => rw [hphase] at hs; cases hs
  | release =>
    unfold DnsBuffer.step at hs
    cases hphase : s.phase with
    | written data =>
      rw [hphase] at hs
      cases hs
      exact h.release hphase
    | _ => rw [hphase] at hs; cases hs

end Inv

/-! ## The query on the wire -/

/-- **Every query is written as the application sent it**, in every run in which the
worker is undisturbed. -/
theorem intact_when_undisturbed (cfg : ClientConfig) {s : State}
    (h : (machine cfg).ReachVia Undisturbed s) : ∀ e ∈ s.sent, Intact e := by
  have hinv : Inv cfg s := h.invariant (inv_start cfg) fun _ hi hok hs => hi.step hok hs
  exact hinv.sent

section TwoQueries

open PacketSend (caseConfig caseQueryFrom)

/-- One query, encoded into the buffer that a `Get` returns. -/
def caseRound (port : UInt16) (c : Choice) : List Act :=
  [.query (caseQueryFrom port) 0 0, .encode c, .send, .release]

/-- The second query is encoded into the buffer of the first. -/
theorem intact_when_undisturbed_two :
    ∃ s, (machine caseConfig).ReachVia Undisturbed s ∧
      s.sent.map (·.packet) = [caseQueryFrom 0xc001, caseQueryFrom 0xc002] ∧
      ∀ e ∈ s.sent, Intact e := by
  obtain ⟨s, hr, hsent⟩ : ∃ s, (machine caseConfig).ReachVia Undisturbed s ∧
      s.sent.map (·.packet) = [caseQueryFrom 0xc001, caseQueryFrom 0xc002] :=
    Machine.exists_reachVia (caseRound 0xc001 (.made 2048) ++ caseRound 0xc002 (.pooled 1))
      (by decide +kernel)
  exact ⟨s, hr, hsent, intact_when_undisturbed caseConfig hr⟩

/-- What the second request is when it is encoded into `dnsBuffer`: the header, and
the last bytes of the question. -/
def caseGarbled : Bytes :=
  [0xda, 0xaa, 4, 10, 0, 6, 1, 0, 41, 10, 0, 6, 2, 0, 0, 0, 0, 0, 0, 0, 0] ++ [0, 1, 0, 1]

/-- **The second query is garbled** when it is encoded into `dnsBuffer` itself, which
the pool has since the first query was sent: the header is written over it before
it is copied. -/
theorem second_query_garbled :
    ∃ s, (machine caseConfig).Reach s ∧
      ∃ e ∈ s.sent, isDns caseConfig.dnsIp e.packet = true ∧ e.packet = caseQueryFrom 0xc002 ∧
        e.wire = clearWire caseConfig.localIp caseConfig.dnsIp typeDnsRequest caseGarbled ∧
        ¬Intact e := by
  obtain ⟨s, hr, hlast⟩ : ∃ s, (machine caseConfig).Reach s ∧ s.sent.getLast? =
      some ⟨caseQueryFrom 0xc002,
        clearWire caseConfig.localIp caseConfig.dnsIp typeDnsRequest caseGarbled⟩ :=
    Machine.exists_reach (caseRound 0xc001 (.made 2048) ++ caseRound 0xc002 (.pooled 0))
      (by decide +kernel)
  refine ⟨s, hr, _, List.mem_of_getLast? hlast, by decide, rfl, rfl, ?_⟩
  exact not_intact _ _ (by decide) (by decide)

end TwoQueries

end DnsBuffer

end EasyTun.Transport
