import Mathlib.Tactic.Common
import EasyTun.Transport.ClientBuffers
import EasyTun.Transport.Dns
import EasyTun.Transport.Tunnel

/-!
# What the pool of a client does not mix up

Which buffer is where is one half of it; the other is what has been computed from the contents.
`ClientBuffers` splits `EncodePacket`, `ParsePacket` and `DecryptParse` into as many steps as they
have accesses to buffers, and the goroutines take turns at any of them. The rest of this
development treats each of the three as one function. That is right as long as nobody writes to a
buffer that somebody else is working on.

- `Encodes`, `Opens.unsealed_eq`: the steps, one after the other on contents that stay as they
  are, compute what the functions return.
- `role`: what each place is for. It says of every variable on the way what its contents have to
  do with a packet or a datagram.
- `fair_of_plan`: **every step keeps to the rules of custody**, unless it is one of the three that
  share a buffer (`Clean`).
- `packets_unchanged`: then **every buffer is in one place, and what is sent and written is what
  the functions return** for packets that were read and datagrams that came. Buffers that the
  address of a peer is a part of stay with `controlRecv`, and no packet gets into them.
- `shared_of_not_clean`: after each of the three a buffer is in two places. What comes of two of
  them is in `DnsBuffer` and `FirstPacket`, and what becomes of the addresses in `ControlRecv`.
-/

namespace EasyTun.Transport.ClientBuffers

open EasyTun.Lib EasyTun.Lib.NoiseIK EasyTun.Protocol EasyTun.Protocol.GamePacket
open Custody
open PacketSend (dataPacket)
open Tunnel (unsealed)

/-! ## Step by step, and at once -/

section Encode

variable {E : Env} {p y : Bytes}

/-- `EncodePacket` returns `w` for the packet `p`, in some state of the pool and of the session,
with or without compression. -/
def Encodes (E : Env) (p w : Bytes) : Prop :=
  ∃ pool compress cipher,
    ((dataPacket E.cfg p).encodePacket E.aead E.lz4 pool false compress cipher).1.wire.getD [] = w

theorem encodes_nil (hlong : payloadLengthField p.length = none) : Encodes E p [] := by
  refine ⟨.fresh 2048, false, none, ?_⟩
  have hdata : (dataPacket E.cfg p).data = p := rfl
  unfold encodePacket
  rw [hdata]
  simp only [hlong]
  rfl

/-- `EncodePacket` returns what `encode` makes of the packet that it has prepared. -/
theorem encodes_of_prepare (pool : Pool) (compress : Bool) (gp : GamePacket) {l : UInt16}
    (hgp : (dataPacket E.cfg p).prepare E.lz4 pool compress = some { gp with length := l })
    (hl : payloadLengthField gp.data.length = some l) (cipher : Option (CipherState Key)) :
    Encodes E p ((gp.encode E.aead [] false cipher).wire.getD []) := by
  refine ⟨pool, compress, cipher, ?_⟩
  rw [encodePacket_eq _ _ _ _ _ _ _ hgp]
  unfold GamePacket.encode
  simp only [hl]

theorem encodes_plain (key : Option Key) (counter : UInt64) :
    Encodes E p (encode E p key counter .plain p) := by
  have hdata : (dataPacket E.cfg p).data = p := rfl
  cases hl : payloadLengthField p.length with
  | none =>
    have hnil : encode E p key counter .plain p = [] := by
      have hgp : gamePacket E.cfg p p .plain = dataPacket E.cfg p := rfl
      unfold encode GamePacket.encode
      rw [hgp, hdata]
      simp only [hl]
      rfl
    rw [hnil]
    exact encodes_nil hl
  | some l =>
    refine encodes_of_prepare (.fresh 2048) false (dataPacket E.cfg p) ?_ hl _
    unfold prepare
    simp only [hdata, hl]
    show Option.map _ (payloadLengthField (dataPacket E.cfg p).data.length) = _
    rw [hdata, hl]
    rfl

/-- A pool whose next buffer has the length `n`. -/
def probePool (L : Lz4) (n : Nat) : Pool where
  supply _ := ⟨List.replicate (max n L.probeLen) 0, n, by simp⟩
  taken := 0
  returned := []

theorem probeBufLen_probePool (L : Lz4) (n : Nat) : probeBufLen L (probePool L n) = n := by
  have hcap : ¬(probePool L n).get.1.cap < L.probeLen := by
    simp [Pool.get, probePool, Slice.cap]
  unfold probeBufLen Pool.getCap
  rw [if_neg hcap]
  rfl

/-- What the probe and the full pass take is what `compress` takes. -/
theorem compressible_of_probe {L : Lz4} {n : Nat} (hlong : 128 < p.length)
    (hprobe : probeOk L n p = true) (hy : squeeze L p = some y) : Compressible L n p := by
  obtain ⟨out, hout, hle⟩ := (Option.any_eq_true ..).mp hprobe
  obtain ⟨hblock, hshort⟩ := Option.filter_eq_some_iff.mp hy
  exact ⟨hlong, ⟨out, hout, of_decide_eq_true hle⟩, y, hblock, of_decide_eq_true hshort⟩

theorem encodes_squeezed {n : Nat} (hlen : payloadLengthField p.length ≠ none)
    (hc : Compressible E.lz4 n p) (hy : squeeze E.lz4 p = some y) (key : Option Key)
    (counter : UInt64) : Encodes E p (encode E p key counter .squeezed y) := by
  have hdata : (dataPacket E.cfg p).data = p := rfl
  obtain ⟨l₀, hl₀⟩ := Option.ne_none_iff_exists'.mp hlen
  obtain ⟨hblock, hshort⟩ := Option.filter_eq_some_iff.mp hy
  obtain ⟨-, -, hmax⟩ := of_decide_eq_true hshort
  obtain ⟨l, hl⟩ := payloadLengthField_isSome hmax
  -- the probe pool makes `compress` take the payload
  have hstage : ∃ l', ((dataPacket E.cfg p).compressStage E.lz4 (probePool E.lz4 n) true).1 =
      { dataPacket E.cfg p with
        payload := some y, length := l', pType := setCompress (dataPacket E.cfg p).pType } := by
    rcases compressStage_spec E.lz4 (dataPacket E.cfg p) (probePool E.lz4 n) true
        (clearCompress_clearCompress typeData) with ⟨hn, -⟩ | ⟨-, out, l', hout, -, -, hstage⟩
    · rw [probeBufLen_probePool, hdata] at hn
      exact absurd ⟨rfl, hc⟩ hn
    · rw [hdata, hblock] at hout
      cases hout
      exact ⟨l', hstage⟩
  obtain ⟨l', hstage⟩ := hstage
  refine encodes_of_prepare (probePool E.lz4 n) true (gamePacket E.cfg p y .squeezed) ?_ hl _
  unfold prepare
  simp only [hdata, hl₀, hstage]
  show Option.map _ (payloadLengthField y.length) = _
  rw [hl]
  rfl

end Encode

section Open

variable {E : Env} {d raw b : Bytes} {key : Key} {n : Nat}

theorem exists_wire_cuts (hhead : headerLength ≤ d.length) :
    ∃ ad nonce body, d = ad ++ (nonce ++ body) ∧ ad.length = 9 ∧ nonce.length = 12 := by
  have hhead : 21 ≤ d.length := hhead
  refine ⟨d.take 9, (d.drop 9).take 12, (d.drop 9).drop 12, ?_, ?_, ?_⟩
  · rw [List.take_append_drop, List.take_append_drop]
  · rw [List.length_take]
    omega
  · rw [List.length_take, List.length_drop]
    omega

variable (E key n) in
/-- **`decrypt` is the decryption of `DecryptParse`**, whatever buffer `ParsePacket` has got. -/
theorem decryptRaw_of_decrypt (gp : GamePacket) {slice : Slice} (hhead : headerLength ≤ d.length)
    (hgp : gp.rawData = some slice) (hslice : slice.bytes = d)
    (hpayload : gp.payload = some (d.drop headerLength))
    (hlength : gp.length = (headerOf d).length) (hdec : decrypt E key d d = some (raw, n)) :
    ∃ slice', gp.decryptRaw E.aead (some ⟨key, 0⟩) = (none, { gp with
        payload := some ((raw.drop headerLength).take n), rawData := some slice' }) ∧
      slice'.bytes = raw ∧ headerLength ≤ slice'.len := by
  have hlen : slice.len = d.length := by rw [← Slice.length_bytes, hslice]
  unfold decrypt at hdec
  split at hdec
  · next hpos =>
    obtain ⟨ad, nonce, body, hd, had, hn⟩ := exists_wire_cuts hhead
    obtain ⟨hcutad, hcutn, hcutbody⟩ := wire_cuts ad nonce body had hn
    rw [← hd] at hcutad hcutn hcutbody
    have hadn : (ad ++ nonce).length = headerLength := by
      rw [List.length_append, had, hn]
      rfl
    have hcuthead : d.take headerLength = ad ++ nonce := by
      rw [hd, ← List.append_assoc]
      exact List.take_left' hadn
    obtain ⟨q, hopen, hq⟩ := Option.map_eq_some_iff.mp hdec
    rw [hcutad, hcutn, hcutbody] at hopen
    rw [hcuthead, ← List.drop_drop, hcutbody] at hq
    cases hq
    obtain ⟨slice', hraw, hlen', hbytes⟩ := decryptRaw_wire E.aead gp ⟨key, 0⟩ hgp
      (hslice.trans hd) had hn (hlength ▸ hpos) hopen (E.opened_le hopen)
    refine ⟨slice', ?_, hbytes, by omega⟩
    rw [hraw, List.drop_left' hadn, List.take_left]
  · next hzero =>
    cases hdec
    refine ⟨slice, ?_, hslice, by omega⟩
    have hwhole : (d.drop headerLength).take (d.length - headerLength) = d.drop headerLength :=
      List.take_of_length_le (Nat.le_of_eq List.length_drop)
    have hplain : gp.decryptRaw E.aead (some ⟨key, 0⟩) = (none, gp) := by
      unfold decryptRaw
      simp only [hlength, hzero, if_false]
    rw [hplain, hwhole, ← hpayload, ← hgp]

/-- What a datagram is worth, step by step. -/
structure Opens (E : Env) (key : Key) (d b : Bytes) : Prop where
  accepted : parseHeader d (parseMode d false) = .ok (headerOf d)
  data : clearCompress (headerOf d).pType = typeData
  opened : ∃ raw n, decrypt E key d d = some (raw, n) ∧
    (compressed (headerOf d).pType = false ∧ b = raw ∨
      compressed (headerOf d).pType = true ∧ inflate E.lz4 n raw = some b)

/-- **It is worth that at once**, in every state of the pool. -/
theorem Opens.unsealed_eq (h : Opens E key d b) (pool : Pool) :
    unsealed E.aead E.lz4 pool ⟨key, 0⟩ d = tunSend b := by
  obtain ⟨raw, n, hdec, hb⟩ := h.opened
  obtain ⟨slice, pool', hparse, hslice⟩ := parsePacket_of_header E.aead .empty pool h.accepted
  obtain ⟨slice', hraw, hbytes, hlen⟩ := decryptRaw_of_decrypt E key n
    { GamePacket.empty.withHeader (headerOf d) with
      payload := some (d.drop headerLength), rawData := some slice }
    (parseHeader_ok h.accepted).1 rfl hslice rfl rfl hdec
  have htype : clearCompress (GamePacket.empty.withHeader (headerOf d)).pType = typeData := h.data
  unfold unsealed
  rw [hparse]
  simp only [htype, if_true]
  rcases hb with ⟨hplain, rfl⟩ | ⟨hcomp, hinflate⟩
  · rw [decryptParse_plain hraw hplain]
    show tunSend slice'.bytes = _
    rw [hbytes]
  · obtain ⟨u, hu, rfl⟩ := Option.map_eq_some_iff.mp hinflate
    obtain ⟨hblock, hshort⟩ := Option.filter_eq_some_iff.mp hu
    obtain ⟨hpos, hmax⟩ := of_decide_eq_true hshort
    rw [decryptParse_compressed hraw hcomp]
    obtain ⟨buf, h1, h2, h3⟩ := decompress_block E.lz4
      { GamePacket.empty.withHeader (headerOf d) with
        payload := some ((raw.drop headerLength).take n), rawData := some slice' }
      pool' rfl hlen hblock hpos hmax
    generalize GamePacket.decompress E.lz4 _ pool' = r at h1 h2
    obtain ⟨err, g, pool₂⟩ := r
    cases h1
    cases h2
    show tunSend buf.bytes = _
    rw [h3, hbytes]

end Open

/-! ## What the places are for -/

section Roles

variable (E : Env) (c : Control)

/-- What a payload is for the packet `p`, by how far `compress` is with it. -/
def AtStage (L : Lz4) (p b : Bytes) : Stage → Prop
  | .plain => b = p
  | .long => b = p ∧ 128 < p.length ∧ payloadLengthField p.length ≠ none
  | .probed n =>
    b = p ∧ 128 < p.length ∧ payloadLengthField p.length ≠ none ∧ probeOk L n p = true
  | .squeezed =>
    payloadLengthField p.length ≠ none ∧ squeeze L p = some b ∧ ∃ n, Compressible L n p

/-- A datagram for a packet that the kernel has given. -/
def Outgoing (w : Bytes) : Prop := ∃ p ∈ c.read, Encodes E p w

/-- `RawData` for a datagram that has come. -/
def Incoming (b : Bytes) : Prop := ∃ d ∈ c.received, ∃ key, Opens E key d b

/-- The packet that `SendDNS` gets for a datagram that has come. -/
def Answer (u : Bytes) : Prop :=
  ∃ d ∈ c.received, parseHeader d (parseMode d false) = .ok (headerOf d) ∧
    clearCompress (headerOf d).pType = typeDnsResponse ∧ dnsBuf E.cfg d = some u

/-- **What each place is for.** For a query there is no buffer, as long as nothing is shared. -/
def role : Place → Bytes → Prop
  | .fromTun, b | .controlSendChan, b | .pendingChan _, b | .tunPacket _, b
  | .payloadBatch _, b => b ∈ c.read
  | .payload _ p stage, b => p ∈ c.read ∧ AtStage E.lz4 p b stage
  | .request _, _ => False
  | .data _, b => Outgoing E c b
  | .datagram _, b => b ∈ c.received
  | .rawData _ d, b =>
    d ∈ c.received ∧ parseHeader d (parseMode d false) = .ok (headerOf d) ∧ b = d
  | .opened _ d key n, b =>
    d ∈ c.received ∧ parseHeader d (parseMode d false) = .ok (headerOf d) ∧
      clearCompress (headerOf d).pType = typeData ∧ decrypt E key d d = some (b, n)
  | .ready _, b | .fromNet, b | .tunPayload _, b => Incoming E c b
  | .bufPool, _ | .tunBuf _, _ | .dnsBuffer _, _ | .probeBuf _, _ | .dst _, _ | .dataBuf _, _
  | .buffer _, _ | .parseBuf _, _ | .inflateBuf _, _ | .borrowed _, _ | .readBuffer, _
  | .bch, _ => True

/-- Nothing is passed on from `readBuffer`. -/
def fixed (p : Place) : Prop := p = .readBuffer

end Roles

variable {E : Env} {s : State} {c c' : Control}

/-- More was exchanged. -/
structure Grows (c c' : Control) : Prop where
  read : c.read ⊆ c'.read
  received : c.received ⊆ c'.received

namespace Grows

theorem of_eq (hread : c'.read = c.read) (hreceived : c'.received = c.received) : Grows c c' :=
  ⟨hread ▸ List.Subset.refl _, hreceived ▸ List.Subset.refl _⟩

variable (h : Grows c c') {b : Bytes}

include h

theorem outgoing (hb : Outgoing E c b) : Outgoing E c' b := by
  obtain ⟨p, hp, hpb⟩ := hb
  exact ⟨p, h.read hp, hpb⟩

theorem incoming (hb : Incoming E c b) : Incoming E c' b := by
  obtain ⟨d, hd, hdb⟩ := hb
  exact ⟨d, h.received hd, hdb⟩

theorem answer (hb : Answer E c b) : Answer E c' b := by
  obtain ⟨d, hd, hdb⟩ := hb
  exact ⟨d, h.received hd, hdb⟩

theorem role {p : Place} (hb : role E c p b) : role E c' p b := by
  cases p with
  | fromTun | controlSendChan | pendingChan | tunPacket | payloadBatch => exact h.read hb
  | payload => exact ⟨h.read hb.1, hb.2⟩
  | request => exact hb
  | data => exact h.outgoing hb
  | datagram => exact h.received hb
  | rawData | opened => exact ⟨h.received hb.1, hb.2⟩
  | ready | fromNet | tunPayload => exact h.incoming hb
  | bufPool | tunBuf | dnsBuffer | probeBuf | dst | dataBuf | buffer | parseBuf | inflateBuf
  | borrowed | readBuffer | bch => trivial

end Grows

/-! ## The steps keep to the rules -/

/-- A plan that keeps to the rules, in a state whose places hold what they are for: the
operations do, the logs grow, and what is new in them is right. -/
structure Fair (E : Env) (s : State) (p : Plan) : Prop where
  grows : Grows s.ctl p.2
  legit : ∀ op ∈ p.1, Legit (role E p.2) fixed op
  sent : ∀ w ∈ p.2.sent, w ∈ s.ctl.sent ∨ Outgoing E p.2 w
  written : ∀ u ∈ p.2.written, u ∈ s.ctl.written ∨ ∃ b, Incoming E p.2 b ∧ tunSend b = some u
  answered : ∀ u ∈ p.2.answered, u ∈ s.ctl.answered ∨ Answer E p.2 u
  views : ∀ id ∈ p.2.views, id ∈ s.ctl.views ∨ id ∈ s.bufs.hold .readBuffer

namespace Fair

variable {ops : List (Op Place Bytes)} {j k : Nat}

/-- A plan that writes at most into the logs of what came in. -/
theorem quiet (hgrows : Grows s.ctl c) (hsent : c.sent = s.ctl.sent)
    (hwritten : c.written = s.ctl.written) (hanswered : c.answered = s.ctl.answered)
    (hviews : c.views = s.ctl.views) (hops : ∀ op ∈ ops, Legit (role E c) fixed op) :
    Fair E s (ops, c) where
  grows := hgrows
  legit := hops
  sent _ hw := .inl (hsent ▸ hw)
  written _ hu := .inl (hwritten ▸ hu)
  answered _ hu := .inl (hanswered ▸ hu)
  views _ hid := .inl (hviews ▸ hid)

variable (hops : ∀ op ∈ ops, Legit (role E s.ctl) fixed op)

include hops

theorem same : Fair E s (ops, s.ctl) := .quiet (.of_eq rfl rfl) rfl rfl rfl rfl hops

theorem tunRecv {ph : TunRecv} : Fair E s (ops, s.ctl.setTunRecv j ph) :=
  .quiet (.of_eq rfl rfl) rfl rfl rfl rfl hops

theorem tunSend {ph : TunSend} : Fair E s (ops, s.ctl.setTunSend j ph) :=
  .quiet (.of_eq rfl rfl) rfl rfl rfl rfl hops

theorem send {ph : Send} : Fair E s (ops, s.ctl.setSend k ph) :=
  .quiet (.of_eq rfl rfl) rfl rfl rfl rfl hops

theorem recv {ph : Recv} : Fair E s (ops, s.ctl.setRecv k ph) :=
  .quiet (.of_eq rfl rfl) rfl rfl rfl rfl hops

end Fair

theorem legit_get {p : Place} {pick : Option Nat} (hne : p ≠ .bufPool) (hp : ∀ b, role E c p b) :
    Legit (role E c) fixed (get p pick) := by
  cases pick with
  | none => exact hp []
  | some i => exact ⟨by simp [fixed], hne.symm, fun b _ => hp b⟩

theorem legit_put {p : Place} (hne : p ≠ .readBuffer ∧ p ≠ .bufPool) :
    Legit (role E c) fixed (put p) :=
  ⟨hne.1, hne.2, fun _ _ => trivial⟩

theorem Body.place_ne (body : Body) (k : Nat) (p : Bytes) :
    body.place k p ≠ .readBuffer ∧ body.place k p ≠ .bufPool := by
  cases body <;> simp [Body.place]

section Fair

open List (forall_mem_cons forall_mem_singleton forall_mem_append)

variable {j k : Nat} {p : Plan}

theorem fair_tun {a : TunAct} (h : Sound (role E s.ctl) s.bufs) (hp : tunPlan s j a = some p) :
    Fair E s p := by
  cases a with
  | get pick =>
    obtain ⟨-, rfl⟩ := guardTo_eq_some.mp hp
    refine .tunRecv ?_
    exact forall_mem_singleton.mpr (legit_get (by simp) fun _ => trivial)
  | read packet =>
    obtain ⟨-, rfl⟩ := guardTo_eq_some.mp hp
    have hmem : packet ∈ s.ctl.read ++ [packet] :=
      List.mem_append_right _ (List.mem_singleton_self _)
    refine .quiet ⟨List.subset_append_left _ _, List.Subset.refl _⟩ rfl rfl rfl rfl ?_
    exact forall_mem_singleton.mpr ⟨by simp [fixed], by simp, hmem⟩
  | fail | reject =>
    obtain ⟨-, rfl⟩ := guardTo_eq_some.mp hp
    refine .tunRecv ?_
    exact forall_mem_singleton.mpr (legit_put (by simp))
  | offer =>
    obtain ⟨-, rfl⟩ := guardTo_eq_some.mp hp
    refine .tunRecv ?_
    refine forall_mem_singleton.mpr ?_
    split
    · exact ⟨by simp [fixed], by simp, fun _ hb => hb⟩
    · exact legit_put (by simp)
  | take =>
    obtain ⟨-, rfl⟩ := guardTo_eq_some.mp hp
    refine .tunSend ?_
    exact forall_mem_singleton.mpr ⟨by simp [fixed], by simp, fun _ hb => hb⟩
  | write =>
    obtain ⟨x, hx, hp⟩ := Option.bind_eq_some_iff.mp hp
    obtain ⟨-, rfl⟩ := guardTo_eq_some.mp hp
    have hincoming : Incoming E s.ctl x := h.role_of_content hx
    exact
      { Fair.same (List.forall_mem_nil _) with
        grows := .of_eq rfl rfl
        written := fun u hu => by
          rcases List.mem_append.mp hu with hu | hu
          · exact .inl hu
          · exact .inr ⟨x, hincoming, Option.mem_toList.mp hu⟩ }
  | put =>
    obtain ⟨-, rfl⟩ := guardTo_eq_some.mp hp
    refine .tunSend ?_
    exact forall_mem_singleton.mpr (legit_put (by simp))

theorem fair_route {r : Route} {x : Bytes} (h : Sound (role E s.ctl) s.bufs)
    (hx : s.bufs.content (.payloadBatch k) = some x)
    (hok : Clean (.send k (.route r)) = true) (hp : routePlan E s k x r = some p) :
    Fair E s p := by
  have hread : x ∈ s.ctl.read := h.role_of_content hx
  cases r with
  | query =>
    obtain ⟨-, rfl⟩ := guardTo_eq_some.mp hp
    refine .same ?_
    exact forall_mem_singleton.mpr ⟨by simp [fixed], by simp, fun _ hb => hb⟩
  | queue sid isOpen =>
    obtain ⟨-, rfl⟩ := guardTo_eq_some.mp hp
    refine .same ?_
    refine forall_mem_singleton.mpr ?_
    split
    · exact ⟨by simp [fixed], by simp, fun _ hb => hb⟩
    · trivial
  | session key =>
    obtain ⟨-, rfl⟩ := guardTo_eq_some.mp hp
    refine .send ?_
    exact forall_mem_singleton.mpr ⟨by simp [fixed], by simp, hread, rfl⟩
  | broadcast =>
    obtain ⟨-, rfl⟩ := guardTo_eq_some.mp hp
    refine .send ?_
    exact forall_mem_singleton.mpr ⟨by simp [fixed], by simp, hread, rfl⟩
  | dns => cases hok

theorem fair_compress {a : CompressAct} (h : Sound (role E s.ctl) s.bufs)
    (hp : compressPlan E s k a = some p) : Fair E s p := by
  cases a with
  | short =>
    simp only [compressPlan] at hp
    split at hp
    · obtain ⟨x, -, hp⟩ := Option.bind_eq_some_iff.mp hp
      obtain ⟨-, rfl⟩ := guardTo_eq_some.mp hp
      refine .send ?_
      exact List.forall_mem_nil _
    · cases hp
  | probe pick =>
    simp only [compressPlan] at hp
    split at hp
    · obtain ⟨x, hx, hp⟩ := Option.bind_eq_some_iff.mp hp
      obtain ⟨⟨hlen, hlong⟩, rfl⟩ := guardTo_eq_some.mp hp
      obtain ⟨hread, rfl⟩ := h.role_of_content hx
      refine .send ?_
      refine forall_mem_cons.mpr ⟨⟨by simp [fixed], by simp, hread, rfl, hlong, hlen⟩, ?_⟩
      exact forall_mem_singleton.mpr (legit_get (by simp) fun _ => trivial)
    · cases hp
  | dismiss n junk =>
    simp only [compressPlan] at hp
    split at hp
    · obtain ⟨x, hx, hp⟩ := Option.bind_eq_some_iff.mp hp
      obtain ⟨-, rfl⟩ := guardTo_eq_some.mp hp
      obtain ⟨hread, hpacket, -⟩ := h.role_of_content hx
      refine .send ?_
      refine forall_mem_cons.mpr ⟨trivial, forall_mem_cons.mpr ⟨legit_put (by simp), ?_⟩⟩
      exact forall_mem_singleton.mpr ⟨by simp [fixed], by simp, hread, hpacket⟩
    · cases hp
  | accept n junk pick =>
    simp only [compressPlan] at hp
    split at hp
    · obtain ⟨x, hx, hp⟩ := Option.bind_eq_some_iff.mp hp
      obtain ⟨hprobe, rfl⟩ := guardTo_eq_some.mp hp
      obtain ⟨hread, rfl, hlong, hlen⟩ := h.role_of_content hx
      refine .send ?_
      refine forall_mem_cons.mpr ⟨trivial, forall_mem_cons.mpr ⟨?_, ?_⟩⟩
      · exact ⟨by simp [fixed], by simp, hread, rfl, hlong, hlen, hprobe⟩
      · exact forall_mem_singleton.mpr (legit_get (by simp) fun _ => trivial)
    · cases hp
  | squeeze junk =>
    simp only [compressPlan] at hp
    split at hp
    · obtain ⟨x, hx, rfl⟩ := Option.map_eq_some_iff.mp hp
      obtain ⟨hread, rfl, hlong, hlen, hprobe⟩ := h.role_of_content hx
      split
      · next y hy =>
        refine .send ?_
        refine forall_mem_cons.mpr ⟨legit_put (by simp), forall_mem_cons.mpr ⟨?_, ?_⟩⟩
        · have hc := compressible_of_probe hlong hprobe hy
          exact ⟨by simp [fixed], by simp, hread, hlen, hy, _, hc⟩
        · exact forall_mem_singleton.mpr (legit_put (by simp))
      · refine .send ?_
        refine forall_mem_cons.mpr ⟨trivial, forall_mem_cons.mpr ⟨legit_put (by simp), ?_⟩⟩
        refine forall_mem_cons.mpr ⟨⟨by simp [fixed], by simp, hread, rfl⟩, ?_⟩
        exact forall_mem_singleton.mpr (legit_put (by simp))
    · cases hp

/-- **The datagram for what a worker has as its payload.** -/
theorem outgoing_encode {body : Body} {x y : Bytes} (h : role E c (body.place k x) y)
    (key : Option Key) (counter : UInt64) : Outgoing E c (encode E x key counter body y) := by
  cases body with
  | plain =>
    obtain ⟨hread, rfl⟩ := h
    exact ⟨y, hread, encodes_plain key counter⟩
  | squeezed =>
    obtain ⟨hread, hlen, hy, n, hc⟩ := h
    exact ⟨x, hread, encodes_squeezed hlen hc hy key counter⟩
  | request => exact h.elim

/-- There is one also if the payload is too long. -/
theorem outgoing_nil {body : Body} {x y : Bytes} (h : role E c (body.place k x) y)
    (hlong : payloadLengthField y.length = none) : Outgoing E c [] := by
  cases body with
  | plain =>
    obtain ⟨hread, rfl⟩ := h
    exact ⟨y, hread, encodes_nil hlong⟩
  | squeezed =>
    obtain ⟨-, -, hy, -⟩ := h
    obtain ⟨-, hshort⟩ := Option.filter_eq_some_iff.mp hy
    obtain ⟨l, hl⟩ := payloadLengthField_isSome (of_decide_eq_true hshort).2.2
    cases hl.symm.trans hlong
  | request => exact h.elim

theorem fair_emit {a : EmitAct} (h : Sound (role E s.ctl) s.bufs)
    (hp : emitPlan E s k a = some p) : Fair E s p := by
  cases a with
  | refuse =>
    simp only [emitPlan] at hp
    split at hp
    · next job _ =>
      obtain ⟨y, hy, hp⟩ := Option.bind_eq_some_iff.mp hp
      obtain ⟨hlong, rfl⟩ := guardTo_eq_some.mp hp
      have hrole : role E s.ctl (Body.plain.place k job.packet) y := h.role_of_content hy
      refine .send ?_
      exact forall_mem_singleton.mpr (outgoing_nil hrole hlong)
    · obtain ⟨y, hy, hp⟩ := Option.bind_eq_some_iff.mp hp
      obtain ⟨hlong, rfl⟩ := guardTo_eq_some.mp hp
      refine .send ?_
      exact forall_mem_singleton.mpr (outgoing_nil (h.role_of_content hy) hlong)
    · cases hp
  | getData pick =>
    simp only [emitPlan] at hp
    split at hp
    · obtain ⟨y, -, hp⟩ := Option.bind_eq_some_iff.mp hp
      obtain ⟨-, rfl⟩ := guardTo_eq_some.mp hp
      refine .send ?_
      exact forall_mem_singleton.mpr (legit_get (by simp) fun _ => trivial)
    · cases hp
  | encode counter =>
    simp only [emitPlan] at hp
    split at hp
    · obtain ⟨y, hy, rfl⟩ := Option.map_eq_some_iff.mp hp
      refine .send ?_
      have houtgoing := outgoing_encode (h.role_of_content hy)
      exact forall_mem_singleton.mpr ⟨by simp [fixed], by simp, houtgoing ..⟩
    · cases hp
  | send =>
    simp only [emitPlan] at hp
    split at hp
    · obtain ⟨w, hw, rfl⟩ := Option.map_eq_some_iff.mp hp
      have houtgoing : Outgoing E s.ctl w := h.role_of_content hw
      exact
        { Fair.same (List.forall_mem_nil _) with
          grows := .of_eq rfl rfl
          sent := fun v hv => by
            rcases List.mem_append.mp hv with hv | hv
            · exact .inl hv
            · rw [List.mem_singleton.mp hv]
              exact .inr houtgoing }
    · cases hp
  | putPayload =>
    simp only [emitPlan] at hp
    split at hp
    · next job body _ =>
      obtain rfl := Option.some.inj hp
      refine .send ?_
      exact forall_mem_singleton.mpr (legit_put (body.place_ne k job.packet))
    · cases hp
  | putData =>
    obtain ⟨-, rfl⟩ := guardTo_eq_some.mp hp
    refine .send ?_
    exact forall_mem_singleton.mpr (legit_put (by simp))

theorem fair_send {a : SendAct} (h : Sound (role E s.ctl) s.bufs)
    (hok : Clean (.send k a) = true) (hp : sendPlan E s k a = some p) : Fair E s p := by
  cases a with
  | start =>
    obtain ⟨-, rfl⟩ := guardTo_eq_some.mp hp
    refine .send ?_
    exact forall_mem_singleton.mpr trivial
  | stop =>
    obtain ⟨-, rfl⟩ := guardTo_eq_some.mp hp
    refine .send (forall_mem_append.mpr ⟨fun op hop => ?_, forall_mem_singleton.mpr ?_⟩)
    · rw [List.eq_of_mem_replicate hop]
      trivial
    · trivial
  | collect =>
    obtain ⟨x, -, hp⟩ := Option.bind_eq_some_iff.mp hp
    obtain ⟨-, rfl⟩ := guardTo_eq_some.mp hp
    refine .same (forall_mem_singleton.mpr ?_)
    split
    · trivial
    · exact ⟨by simp [fixed], by simp, fun _ hb => hb⟩
  | walk | done =>
    obtain ⟨-, rfl⟩ := guardTo_eq_some.mp hp
    exact .send (List.forall_mem_nil _)
  | route r =>
    simp only [sendPlan] at hp
    split at hp
    · obtain ⟨x, hx, hp⟩ := Option.bind_eq_some_iff.mp hp
      exact fair_route h hx hok hp
    · cases hp
  | compress a => exact fair_compress h hp
  | emit a => exact fair_emit h hp

theorem fair_parse {a : ParseAct} (h : Sound (role E s.ctl) s.bufs)
    (hp : parsePlan E s k a = some p) : Fair E s p := by
  cases a with
  | oversized =>
    obtain ⟨d, -, hp⟩ := Option.bind_eq_some_iff.mp hp
    obtain ⟨-, rfl⟩ := guardTo_eq_some.mp hp
    refine .recv ?_
    exact forall_mem_singleton.mpr ⟨by simp [fixed], by simp, fun _ _ => trivial⟩
  | getRaw pick =>
    obtain ⟨d, -, hp⟩ := Option.bind_eq_some_iff.mp hp
    obtain ⟨-, rfl⟩ := guardTo_eq_some.mp hp
    refine .recv ?_
    exact forall_mem_singleton.mpr (legit_get (by simp) fun _ => trivial)
  | parse =>
    obtain ⟨d, hd, hp⟩ := Option.bind_eq_some_iff.mp hp
    obtain ⟨-, rfl⟩ := guardTo_eq_some.mp hp
    have hreceived : d ∈ s.ctl.received := h.role_of_content hd
    split
    · next hdr hhdr =>
      have hhead : parseHeader d (parseMode d false) = .ok (headerOf d) := by
        rw [hhdr, (parseHeader_parseMode.mp hhdr).2]
      refine .recv (forall_mem_cons.mpr ⟨?_, forall_mem_singleton.mpr ?_⟩)
      · exact ⟨by simp [fixed], by simp, hreceived, hhead, rfl⟩
      · exact ⟨by simp [fixed], by simp, fun _ _ => trivial⟩
    · refine .recv ?_
      refine forall_mem_cons.mpr ⟨trivial, forall_mem_cons.mpr ⟨legit_put (by simp), ?_⟩⟩
      exact forall_mem_singleton.mpr ⟨by simp [fixed], by simp, fun _ _ => trivial⟩
  | release =>
    simp only [parsePlan] at hp
    split at hp
    · obtain ⟨-, rfl⟩ := guardTo_eq_some.mp hp
      refine .recv ?_
      exact forall_mem_singleton.mpr (legit_put (by simp))
    · cases hp
  | answer =>
    simp only [parsePlan] at hp
    split at hp
    · next d _ =>
      obtain ⟨raw, hraw, hp⟩ := Option.bind_eq_some_iff.mp hp
      obtain ⟨htype, rfl⟩ := guardTo_eq_some.mp hp
      obtain ⟨hreceived, hhead, rfl⟩ := h.role_of_content hraw
      exact
        { Fair.same (List.forall_mem_nil _) with
          grows := .of_eq rfl rfl
          answered := fun u hu => by
            rcases List.mem_append.mp hu with hu | hu
            · exact .inl hu
            · exact .inr ⟨raw, hreceived, hhead, htype, Option.mem_toList.mp hu⟩ }
    · cases hp
  | putAnswer =>
    simp only [parsePlan] at hp
    split at hp
    · obtain rfl := Option.some.inj hp
      refine .recv ?_
      exact forall_mem_singleton.mpr (legit_put (by simp))
    · cases hp
  | forget =>
    simp only [parsePlan] at hp
    split at hp
    · obtain ⟨-, rfl⟩ := guardTo_eq_some.mp hp
      refine .recv ?_
      exact forall_mem_singleton.mpr trivial
    · cases hp

theorem fair_open {a : OpenAct} (h : Sound (role E s.ctl) s.bufs)
    (hp : openPlan E s k a = some p) : Fair E s p := by
  cases a with
  | decrypt key =>
    simp only [openPlan] at hp
    split at hp
    · obtain ⟨raw, hraw, hp⟩ := Option.bind_eq_some_iff.mp hp
      obtain ⟨htype, rfl⟩ := guardTo_eq_some.mp hp
      obtain ⟨hreceived, hhead, rfl⟩ := h.role_of_content hraw
      split
      · next b n hdec =>
        refine .recv ?_
        exact forall_mem_singleton.mpr ⟨by simp [fixed], by simp, hreceived, hhead, htype, hdec⟩
      · refine .recv ?_
        exact forall_mem_singleton.mpr (legit_put (by simp))
    · cases hp
  | uncompressed =>
    simp only [openPlan] at hp
    split at hp
    · next d key n _ =>
      obtain ⟨raw, hraw, hp⟩ := Option.bind_eq_some_iff.mp hp
      obtain ⟨hplain, rfl⟩ := guardTo_eq_some.mp hp
      obtain ⟨hreceived, hhead, htype, hdec⟩ := h.role_of_content hraw
      have hopens : Opens E key d raw := ⟨hhead, htype, raw, n, hdec, .inl ⟨hplain, rfl⟩⟩
      refine .recv ?_
      exact forall_mem_singleton.mpr ⟨by simp [fixed], by simp, d, hreceived, key, hopens⟩
    · cases hp
  | getInflate pick =>
    simp only [openPlan] at hp
    split at hp
    · obtain ⟨-, rfl⟩ := guardTo_eq_some.mp hp
      refine .recv ?_
      exact forall_mem_singleton.mpr (legit_get (by simp) fun _ => trivial)
    · cases hp
  | inflate junk fits =>
    simp only [openPlan] at hp
    split at hp
    · next d key n _ =>
      obtain ⟨raw, hraw, hp⟩ := Option.bind_eq_some_iff.mp hp
      obtain ⟨hcomp, rfl⟩ := guardTo_eq_some.mp hp
      obtain ⟨hreceived, hhead, htype, hdec⟩ := h.role_of_content hraw
      split
      · next u hu =>
        have hincoming : Incoming E s.ctl u :=
          ⟨d, hreceived, key, hhead, htype, raw, n, hdec, .inr ⟨hcomp, hu⟩⟩
        refine .recv ?_
        refine forall_mem_cons.mpr ⟨trivial, forall_mem_append.mpr ⟨?_, ?_⟩⟩
        · split
          · exact forall_mem_singleton.mpr ⟨by simp [fixed], by simp, hincoming⟩
          · refine forall_mem_cons.mpr ⟨hincoming, ?_⟩
            exact forall_mem_singleton.mpr (legit_put (by simp))
        · exact forall_mem_singleton.mpr (legit_put (by simp))
      · refine .recv ?_
        refine forall_mem_cons.mpr ⟨trivial, forall_mem_cons.mpr ⟨legit_put (by simp), ?_⟩⟩
        exact forall_mem_singleton.mpr (legit_put (by simp))
    · cases hp
  | forward =>
    obtain ⟨-, rfl⟩ := guardTo_eq_some.mp hp
    refine .recv (forall_mem_singleton.mpr ?_)
    split
    · exact ⟨by simp [fixed], by simp, fun _ hb => hb⟩
    · exact legit_put (by simp)

theorem fair_recv {a : RecvAct} (h : Sound (role E s.ctl) s.bufs)
    (hp : recvPlan E s k a = some p) : Fair E s p := by
  cases a with
  | start | stop =>
    obtain ⟨-, rfl⟩ := guardTo_eq_some.mp hp
    refine .recv ?_
    exact forall_mem_singleton.mpr trivial
  | leave =>
    obtain ⟨-, rfl⟩ := guardTo_eq_some.mp hp
    refine .recv ?_
    exact forall_mem_cons.mpr ⟨trivial, forall_mem_singleton.mpr trivial⟩
  | read d =>
    obtain ⟨-, rfl⟩ := guardTo_eq_some.mp hp
    have hmem : d ∈ s.ctl.received ++ [d] :=
      List.mem_append_right _ (List.mem_singleton_self _)
    refine .quiet ⟨List.Subset.refl _, List.subset_append_left _ _⟩ rfl rfl rfl rfl ?_
    exact forall_mem_singleton.mpr ⟨by simp [fixed], by simp, hmem⟩
  | parse a => exact fair_parse h hp
  | openRaw a => exact fair_open h hp

theorem fair_other {a : OtherAct} (hok : Clean (.other a) = true)
    (hp : otherPlan s a = some p) : Fair E s p := by
  cases a with
  | borrow j pick =>
    obtain ⟨-, rfl⟩ := guardTo_eq_some.mp hp
    refine .same ?_
    exact forall_mem_singleton.mpr (legit_get (by simp) fun _ => trivial)
  | giveBack j =>
    obtain rfl := Option.some.inj hp
    refine .same ?_
    exact forall_mem_singleton.mpr (legit_put (by simp))
  | flush sid =>
    obtain ⟨-, rfl⟩ := guardTo_eq_some.mp hp
    refine .same ?_
    exact forall_mem_singleton.mpr ⟨by simp [fixed], by simp, fun _ hb => hb⟩
  | scribble | abandon | query | controlDone =>
    obtain rfl := Option.some.inj hp
    refine .same ?_
    exact forall_mem_singleton.mpr trivial
  | frame b grows =>
    obtain rfl := Option.some.inj hp
    refine .same ?_
    split
    · exact forall_mem_cons.mpr ⟨trivial, forall_mem_singleton.mpr trivial⟩
    · exact forall_mem_singleton.mpr trivial
  | command =>
    obtain ⟨id, hid, rfl⟩ := Option.map_eq_some_iff.mp hp
    exact
      { Fair.same (List.forall_mem_nil _) with
        grows := .of_eq rfl rfl
        views := fun id' hid' => by
          rcases List.mem_append.mp hid' with hold | hnew
          · exact .inl hold
          · rw [List.mem_singleton.mp hnew]
            exact .inr (List.mem_of_mem_head? hid) }
  | control | test =>
    obtain ⟨-, rfl⟩ := guardTo_eq_some.mp hp
    refine .same ?_
    exact forall_mem_singleton.mpr trivial
  | echo | broadcast => cases hok

/-- **Every step keeps to the rules of custody.** -/
theorem fair_of_plan {a : Act} (h : Sound (role E s.ctl) s.bufs) (hok : Clean a = true)
    (hp : plan E s a = some p) : Fair E s p := by
  cases a with
  | tun j a => exact fair_tun h hp
  | send k a => exact fair_send h hok hp
  | recv k a => exact fair_recv h hp
  | other a => exact fair_other hok hp

end Fair

/-! ## Whole runs -/

structure Inv (E : Env) (s : State) : Prop where
  sound : Sound (role E s.ctl) s.bufs
  sent : ∀ w ∈ s.ctl.sent, Outgoing E s.ctl w
  written : ∀ u ∈ s.ctl.written, ∃ b, Incoming E s.ctl b ∧ tunSend b = some u
  answered : ∀ u ∈ s.ctl.answered, Answer E s.ctl u
  views : ∀ id ∈ s.ctl.views, s.bufs.Confined .readBuffer id

namespace Inv

theorem init : Inv E start where
  sound := .empty
  sent _ hw := by cases hw
  written _ hu := by cases hu
  answered _ hu := by cases hu
  views _ hid := by cases hid

theorem step {a : Act} {t : State} (h : Inv E s) (hok : Clean a = true)
    (hs : step E s a = some t) : Inv E t := by
  obtain ⟨p, hp, hs⟩ := Option.bind_eq_some_iff.mp hs
  obtain ⟨bufs, hbufs, rfl⟩ := Option.map_eq_some_iff.mp hs
  have hfair : Fair E s p := fair_of_plan h.sound hok hp
  have hmono : Sound (role E p.2) s.bufs := h.sound.mono fun _ _ hb => hfair.grows.role hb
  refine ⟨hmono.execs hfair.legit hbufs, fun w hw => ?_, fun u hu => ?_, fun u hu => ?_,
    fun id hid => ?_⟩
  · exact (hfair.sent w hw).elim (fun hold => hfair.grows.outgoing (h.sent w hold)) id
  · rcases hfair.written u hu with hold | hnew
    · obtain ⟨b, hb, hub⟩ := h.written u hold
      exact ⟨b, hfair.grows.incoming hb, hub⟩
    · exact hnew
  · exact (hfair.answered u hu).elim (fun hold => hfair.grows.answer (h.answered u hold)) id
  · have hconfined : s.bufs.Confined .readBuffer id :=
      (hfair.views id hid).elim (h.views id) h.sound.confined
    have hfixed : fixed .readBuffer := rfl
    exact hconfined.execs hfixed hfair.legit hbufs

theorem of_reach (hr : (machine E).ReachVia (fun _ a => Clean a = true) s) : Inv E s :=
  hr.invariant init fun _ h hok hs => h.step hok hs

end Inv

/-- **A response is worth that at once**, in every state of the client. -/
theorem injected_of_answer {d u : Bytes}
    (hhead : parseHeader d (parseMode d false) = .ok (headerOf d))
    (htype : clearCompress (headerOf d).pType = typeDnsResponse) (hu : dnsBuf E.cfg d = some u)
    (N : Ops Bytes) (m : NoiseManager) (pool : Pool) (eph : Nat) (now : Int) (room : Bool) :
    injected N E.aead E.lz4 E.cfg m pool d eph now room = some u := by
  obtain ⟨slice, pool', hparse, -⟩ := parsePacket_of_header E.aead .empty pool hhead
  have hdata : clearCompress (GamePacket.empty.withHeader (headerOf d)).pType ≠ typeData := by
    show clearCompress (headerOf d).pType ≠ typeData
    rw [htype]
    decide
  rw [injected, packetRecv_control hparse hdata]
  exact (if_pos htype).trans hu

/-- **What the pool does not mix up.** As long as the three places that share a buffer are not
come to: every buffer is held once and in one place, and one that the address of a peer is a part
of is in no place but `readBuffer`. Whatever `packetSend` has sent is what `EncodePacket`, done at
once, returns for a packet that was read from the kernel. Whatever `tunSend` has given to `Write`
is what `ParsePacket` and `DecryptParse`, done at once, make of a datagram that has come, and
whatever `SendDNS` has is what the DNS branch of `packetRecv` makes of one. -/
theorem packets_unchanged (hr : (machine E).ReachVia (fun _ a => Clean a = true) s) :
    (∀ p, (s.bufs.hold p).Nodup) ∧
    (∀ p q id, id ∈ s.bufs.hold p → id ∈ s.bufs.hold q → p = q) ∧
    (∀ id ∈ s.ctl.views, ∀ p, id ∈ s.bufs.hold p → p = .readBuffer) ∧
    (∀ w ∈ s.ctl.sent, ∃ p ∈ s.ctl.read, ∃ pool compress cipher,
      ((dataPacket E.cfg p).encodePacket E.aead E.lz4 pool false compress cipher).1.wire.getD []
        = w) ∧
    (∀ u ∈ s.ctl.written, ∃ d ∈ s.ctl.received, ∃ key, ∀ pool,
      unsealed E.aead E.lz4 pool ⟨key, 0⟩ d = some u) ∧
    ∀ u ∈ s.ctl.answered, ∃ d ∈ s.ctl.received, ∀ N m pool eph now room,
      injected N E.aead E.lz4 E.cfg m pool d eph now room = some u := by
  have hinv : Inv E s := .of_reach hr
  refine ⟨hinv.sound.nodup, fun p q id hp hq => hinv.sound.place_eq hp hq,
    fun id hid => (hinv.views id hid).only, hinv.sent, fun u hu => ?_, fun u hu => ?_⟩
  · obtain ⟨b, ⟨d, hd, key, hopens⟩, hub⟩ := hinv.written u hu
    exact ⟨d, hd, key, fun pool => (hopens.unsealed_eq pool).trans hub⟩
  · obtain ⟨d, hd, hhead, htype, hbuf⟩ := hinv.answered u hu
    exact ⟨d, hd, injected_of_answer hhead htype hbuf⟩

/-- A client whose cipher adds a tag of zeros. -/
def caseEnv : Env where
  aead :=
    { sealed := fun _ _ p _ => p ++ List.replicate 16 0
      opened := fun _ _ c _ => some (c.take (c.length - 16)) }
  lz4 := .stored
  cfg := { localIp := .zero 4, dnsIp := .zero 4, enableCompress := false }
  opened_le h := by
    obtain rfl := Option.some.inj h
    exact List.length_take_le' ..

/-- A packet to 7.7.7.7. -/
def casePacket : Bytes := List.replicate 20 7

def caseKey : Key := ⟨sampleTranscript, .cs1⟩

/-- A packet of the kernel, up to the batch of the worker that will send it. -/
def readAndCollect (p : Bytes) : List Act :=
  [.send 0 .start, .tun 0 (.get none), .tun 0 (.read p), .tun 0 .offer, .send 0 .collect,
    .send 0 .walk]

/-- A response for port 49153. -/
def caseResponse : Bytes := clearWire (.zero 4) (.zero 4) typeDnsResponse [0xc0, 0x01, 7]

/-- It is sent, and comes back. Then there are a command and a response. -/
theorem packets_unchanged_loop :
    ∃ s, (machine caseEnv).ReachVia (fun _ a => Clean a = true) s ∧
      s.ctl.sent = [encode caseEnv casePacket (some caseKey) 0 .plain casePacket] ∧
      s.ctl.written = [casePacket ++ List.replicate 16 0] ∧
      s.ctl.answered.length = 1 ∧ s.ctl.views.length = 1 ∧
      (∀ p q id, id ∈ s.bufs.hold p → id ∈ s.bufs.hold q → p = q) ∧
      (∀ u ∈ s.ctl.written, ∃ d ∈ s.ctl.received, ∃ key, ∀ pool,
        unsealed caseEnv.aead caseEnv.lz4 pool ⟨key, 0⟩ d = some u) ∧
      ∀ u ∈ s.ctl.answered, ∃ d ∈ s.ctl.received, ∀ N m pool eph now room,
        injected N caseEnv.aead caseEnv.lz4 caseEnv.cfg m pool d eph now room = some u := by
  obtain ⟨s, hr, hsent, hwritten, hanswered, hviews⟩ : ∃ s,
      (machine caseEnv).ReachVia (fun _ a => Clean a = true) s ∧
      s.ctl.sent = [encode caseEnv casePacket (some caseKey) 0 .plain casePacket] ∧
      s.ctl.written = [casePacket ++ List.replicate 16 0] ∧
      s.ctl.answered.length = 1 ∧ s.ctl.views.length = 1 :=
    Machine.exists_reachVia
      (readAndCollect casePacket ++
        [.send 0 (.route (.session caseKey)), .send 0 (.emit (.getData none)),
          .send 0 (.emit (.encode 0)), .send 0 (.emit .send), .send 0 (.emit .putPayload),
          .recv 0 .start,
          .recv 0 (.read (encode caseEnv casePacket (some caseKey) 0 .plain casePacket)),
          .recv 0 (.parse (.getRaw (some 0))), .recv 0 (.parse .parse),
          .recv 0 (.openRaw (.decrypt caseKey)), .recv 0 (.openRaw .uncompressed),
          .recv 0 (.openRaw .forward), .tun 0 .take, .tun 0 .write, .other .control,
          .other (.frame [] true), .other .command, .recv 0 (.read caseResponse),
          .recv 0 (.parse (.getRaw none)), .recv 0 (.parse .parse), .recv 0 (.parse .answer)])
      (by decide +kernel)
  obtain ⟨-, hapart, -, -, hopened, hinjected⟩ := packets_unchanged hr
  exact ⟨s, hr, hsent, hwritten, hanswered, hviews, hapart, hopened, hinjected⟩

/-- Each of the three shares a buffer. -/
theorem shared_of_not_clean {a : Act} {t : State} (hok : Clean a = false)
    (hs : step E s a = some t) :
    ∃ p q id, p ≠ q ∧ id ∈ t.bufs.hold p ∧ id ∈ t.bufs.hold q := by
  obtain ⟨⟨ops, c⟩, hp, hs⟩ := Option.bind_eq_some_iff.mp hs
  obtain ⟨bufs, hbufs, rfl⟩ := Option.map_eq_some_iff.mp hs
  -- the plans of the three end with `share`
  obtain ⟨p, q, ops, hne, rfl⟩ : ∃ p q ops', p ≠ q ∧ ops = ops' ++ [.share p q] := by
    unfold Clean at hok
    split at hok
    · next k grows =>
      simp only [plan, sendPlan] at hp
      split at hp
      · obtain ⟨x, -, hp⟩ := Option.bind_eq_some_iff.mp hp
        obtain ⟨-, heq⟩ := guardTo_eq_some.mp hp
        cases heq
        exact ⟨.dnsBuffer k, .request k, _, by simp, rfl⟩
      · cases hp
    · next sid =>
      cases hp
      exact ⟨.readBuffer, .pendingChan sid, [], by simp, rfl⟩
    · obtain ⟨-, heq⟩ := guardTo_eq_some.mp hp
      cases heq
      exact ⟨.bch, .fromTun, [], by simp, rfl⟩
    · cases hok
  obtain ⟨id, hidp, hidq⟩ := exists_shared hne hbufs
  exact ⟨p, q, id, hne, hidp, hidq⟩

end EasyTun.Transport.ClientBuffers
