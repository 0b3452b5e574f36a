import EasyTun.Lib.Memory
import EasyTun.Protocol.Codec

/-!
# `ParsePacket` and its buffers (`internal/protocol/packet.go`)

`ParsePacket` again, this time with the identity of its buffers. A packet object is used
again and again, and what it refers to when the call begins is whatever the calls before
have left. The pool hands out a slice of some array; a buffer that is too small goes back
at once and a new one is made. The call keeps a log of what it takes, makes and puts back.

Callers put `RawData` back when they are done with a packet, whether it could be parsed or
not. So a call that fails must not leave a buffer there, and must have put back its own.

- `parsePacket_agrees`: the verdict and the bytes are those of `GamePacket.parsePacket`, which
  has no identities.
- `Settled`: **a failed call retains nothing, and a successful one exactly the buffer in
  `RawData`**.
- `failed_parse_retains_nothing`: that is so for contents of a permitted size and for objects
  without a buffer, and for no others.
- `oversized_retains`: a packet that is too large is refused before anything else, and the
  object keeps what it referred to.
-/

namespace EasyTun.Protocol.ParseBuffers

open EasyTun.Lib EasyTun.Protocol

variable {K : Type}

/-! ## The functions -/

/-- `GamePacket` (packet.go:47–55) with its slices. -/
structure Packet where
  src : ByteArr 4
  dst : ByteArr 4
  pType : UInt8
  payload : Option ArrSlice
  rawData : Option ArrSlice
  length : UInt16

def Packet.withHeader (g : Packet) (h : Header) : Packet :=
  { g with pType := h.pType, dst := h.dst, src := h.src, length := h.length }

/-- `data[HeaderLength:]`, cut to `n` bytes. -/
def behindHeader (data : ArrSlice) (n : Nat) : ArrSlice :=
  { data with off := data.off + headerLength, len := n, cap := data.cap - headerLength }

/-- `parse` (packet.go:108–140). The payload is decrypted in place. -/
def parse (A : Aead K) (g : Packet) (mem : Memory) (data : ArrSlice) (parsePayload : Bool)
    (cipher : Option (CipherState K)) : Option ErrorCode × Packet × Memory :=
  let bytes := mem.read data
  match parseHeader bytes (parseMode bytes cipher.isSome) with
  | .error e => (some e, g, mem)
  | .ok h =>
    let g := g.withHeader h
    let nonceBuf := (bytes.drop 9).take nonceLength
    match cipher with
    | some cs =>
      if parsePayload ∧ 0 < g.length.toNat then
        match A.opened cs.key nonceBuf (bytes.drop headerLength)
            (bytes.take (headerLength - nonceLength)) with
        | none => (some .authFailed, g, mem)
        | some decrypted =>
          (none, { g with payload := some (behindHeader data decrypted.length) },
            mem.store data.id (data.off + headerLength) decrypted)
      else (none, g, mem)
    | none =>
      (none, { g with payload := some (behindHeader data (data.len - headerLength)) }, mem)

/-- What a call does with arrays. -/
inductive Event where
  /-- `pool.Get()` -/
  | get (a : ArrId)
  /-- `make` -/
  | make (a : ArrId)
  /-- `pool.Put(..)` -/
  | put (a : ArrId)
  deriving DecidableEq

/-- The buffer a call works with (packet.go:263–267), when the pool hands out `b`. -/
def getBuffer (mem : Memory) (b : ArrSlice) (n : Nat) : ArrSlice × Memory × List Event :=
  if b.cap < n then (mem.fresh n, mem.alloc n, [.get b.id, .put b.id, .make mem.next])
  else (b, mem, [.get b.id])

/-- What a call leaves. -/
structure Parsed where
  error : Option ErrorCode
  packet : Packet
  mem : Memory
  log : List Event

/-- `ParsePacket` (packet.go:259–278). -/
def parsePacket (A : Aead K) (g : Packet) (mem : Memory) (b : { b : ArrSlice // b.Valid mem })
    (content : Bytes) (parsePayload : Bool) (cipher : Option (CipherState K)) : Parsed :=
  if content.length > maxPacketSize then
    { error := some .packetTooLarge, packet := g, mem, log := [] }
  else
    let buf := getBuffer mem b.1 content.length
    let data := { buf.1 with len := content.length }
    let mem := buf.2.1.store data.id data.off content
    match parse A { g with rawData := some data } mem data parsePayload cipher with
    | (some e, g, mem) =>
      { error := some e
        packet := { g with rawData := none, payload := none }
        mem
        log := buf.2.2 ++ [.put data.id] }
    | (none, g, mem) => { error := none, packet := g, mem, log := buf.2.2 }

/-! ## Accounts -/

/-- How often the call took or made an array. -/
def acquired (log : List Event) (a : ArrId) : Nat := log.count (.get a) + log.count (.make a)

/-- How often it put the array into the pool. -/
def putBack (log : List Event) (a : ArrId) : Nat := log.count (.put a)

section Accounts

variable (log log' : List Event) (a x : ArrId)

@[simp] theorem acquired_nil : acquired [] a = 0 := rfl

@[simp] theorem putBack_nil : putBack [] a = 0 := rfl

@[simp] theorem acquired_get :
    acquired (.get x :: log) a = acquired log a + if a = x then 1 else 0 := by
  simp only [acquired, List.count_cons, beq_iff_eq, Event.get.injEq, reduceCtorEq, if_false,
    @eq_comm _ x a]
  omega

@[simp] theorem acquired_make :
    acquired (.make x :: log) a = acquired log a + if a = x then 1 else 0 := by
  simp only [acquired, List.count_cons, beq_iff_eq, Event.make.injEq, reduceCtorEq, if_false,
    @eq_comm _ x a]
  omega

@[simp] theorem acquired_put : acquired (.put x :: log) a = acquired log a := by
  simp [acquired]

@[simp] theorem putBack_get : putBack (.get x :: log) a = putBack log a := by
  simp [putBack]

@[simp] theorem putBack_make : putBack (.make x :: log) a = putBack log a := by
  simp [putBack]

@[simp] theorem putBack_put :
    putBack (.put x :: log) a = putBack log a + if a = x then 1 else 0 := by
  simp only [putBack, List.count_cons, beq_iff_eq, Event.put.injEq, @eq_comm _ x a]

theorem acquired_append : acquired (log ++ log') a = acquired log a + acquired log' a := by
  simp only [acquired, List.count_append]
  omega

theorem putBack_append : putBack (log ++ log') a = putBack log a + putBack log' a :=
  List.count_append

end Accounts

/-- **The buffer of a call**: it is large enough, and the only one that is not in the pool
again. -/
theorem getBuffer_spec {mem : Memory} {b : ArrSlice} (hb : b.Valid mem) (n : Nat) :
    (getBuffer mem b n).1.Valid (getBuffer mem b n).2.1 ∧ n ≤ (getBuffer mem b n).1.cap ∧
    ∀ a, acquired (getBuffer mem b n).2.2 a ≤ 1 ∧
      acquired (getBuffer mem b n).2.2 a =
        putBack (getBuffer mem b n).2.2 a + if a = (getBuffer mem b n).1.id then 1 else 0 := by
  unfold getBuffer
  split
  · refine ⟨mem.valid_fresh n, Nat.le_refl _, ?_⟩
    intro a
    -- the array that is made is none there was
    have hne : b.id ≠ mem.next := Nat.ne_of_lt hb.id_lt
    have hid : (mem.fresh n).id = mem.next := rfl
    simp only [acquired_get, acquired_put, acquired_make, acquired_nil, putBack_get, putBack_put,
      putBack_make, putBack_nil, hid]
    refine ⟨?_, by omega⟩
    by_cases hnew : a = mem.next
    · have hold : ¬ a = b.id := fun hold => hne (hold.symm.trans hnew)
      simp only [if_pos hnew, if_neg hold, Nat.zero_add, Nat.le_refl]
    · rw [if_neg hnew]
      split
      · exact Nat.le_refl _
      · exact Nat.zero_le _
  · next hcap =>
    refine ⟨hb, Nat.le_of_not_lt hcap, ?_⟩
    intro a
    rw [acquired_get, acquired_nil, putBack_get, putBack_nil]
    refine ⟨?_, rfl⟩
    split
    · exact Nat.le_refl _
    · exact Nat.zero_le _

/-- The content is in the buffer. -/
theorem read_filled {mem : Memory} {data : ArrSlice} (hv : data.Valid mem) (content : Bytes)
    (hcap : content.length ≤ data.cap) :
    let data := { data with len := content.length }
    data.Valid (mem.store data.id data.off content) ∧
      (mem.store data.id data.off content).read data = content := by
  intro data'
  have hv' : data'.Valid mem := ⟨hv.id_lt, hv.bounds, hcap⟩
  refine ⟨(mem.frame_store ..).valid hv', ?_⟩
  have hread : (mem.store data'.id data'.off content).read data' =
      overwrite (mem.read data') 0 content := Memory.read_store hv' 0 content
  have hlen := Memory.length_read hv'
  rw [hread, overwrite, List.take_zero, List.nil_append, hlen, Nat.sub_zero, Nat.zero_add,
    List.take_length, List.drop_of_length_le (Nat.le_of_eq hlen), List.append_nil]

/-! ## What `parse` does -/

/-- How many bytes behind the header were decrypted in place. -/
def decryptedLen (g : Packet) (parsePayload : Bool) (cipher : Option (CipherState K)) : Nat :=
  if cipher.isSome ∧ parsePayload ∧ 0 < g.length.toNat then (g.payload.map (·.len)).getD 0 else 0

/-- **What a successful `parse` leaves**: the buffer it was given, and outside of what it has
decrypted its contents. -/
theorem parse_ok {A : Aead K} {g g' : Packet} {mem mem' : Memory} {data : ArrSlice}
    {parsePayload : Bool} {cipher : Option (CipherState K)} (hv : data.Valid mem)
    (h : parse A g mem data parsePayload cipher = (none, g', mem')) :
    g'.rawData = g.rawData ∧ (mem'.read data).length = (mem.read data).length ∧
    ∀ i, ¬(headerLength ≤ i ∧ i < headerLength + decryptedLen g' parsePayload cipher) →
      (mem'.read data)[i]? = (mem.read data)[i]? := by
  unfold parse at h
  dsimp only at h
  split at h
  · cases h
  · next hd _ =>
    cases cipher with
    | none =>
      cases h
      exact ⟨rfl, rfl, fun _ _ => rfl⟩
    | some cs =>
      dsimp only at h
      split at h
      · next hdecrypt =>
        split at h
        · cases h
        · next decrypted _ =>
          cases h
          refine ⟨rfl, ?_, ?_⟩
          · rw [Memory.read_store hv, length_overwrite]
          · intro i hi
            have hlen : decryptedLen
                { g.withHeader hd with payload := some (behindHeader data decrypted.length) }
                parsePayload (some cs) = decrypted.length := if_pos ⟨rfl, hdecrypt⟩
            rw [hlen] at hi
            rw [Memory.read_store hv, getElem?_overwrite, if_neg (by omega)]
      · cases h
        exact ⟨rfl, rfl, fun _ _ => rfl⟩

/-- **The same verdict and the same bytes** as `GamePacket.parse`, whatever the packets
were before. -/
theorem parse_agrees (A : Aead K) (g : Packet) (g₀ : GamePacket) {mem : Memory} {data : ArrSlice}
    (hv : data.Valid mem) (parsePayload : Bool) (cipher : Option (CipherState K)) :
    (parse A g mem data parsePayload cipher).1 =
        (g₀.parse A (mem.read data) parsePayload cipher).1 ∧
      (parse A g mem data parsePayload cipher).2.2.read data =
        (g₀.parse A (mem.read data) parsePayload cipher).2.2 := by
  unfold parse GamePacket.parse
  dsimp only [Packet.withHeader, GamePacket.withHeader]
  cases parseHeader (mem.read data) (parseMode (mem.read data) cipher.isSome) with
  | error e => exact ⟨rfl, rfl⟩
  | ok hd =>
    cases cipher with
    | none => exact ⟨rfl, rfl⟩
    | some cs =>
      dsimp only
      by_cases hdecrypt : parsePayload = true ∧ 0 < hd.length.toNat
      · rw [if_pos hdecrypt, if_pos hdecrypt]
        cases A.opened cs.key (((mem.read data).drop 9).take nonceLength)
            ((mem.read data).drop headerLength)
            ((mem.read data).take (headerLength - nonceLength)) with
        | none => exact ⟨rfl, rfl⟩
        | some decrypted => exact ⟨rfl, Memory.read_store hv ..⟩
      · rw [if_neg hdecrypt, if_neg hdecrypt]
        exact ⟨rfl, rfl⟩

/-! ## What `ParsePacket` leaves -/

/-- **The call without identities**: whatever the packets and the pool were before, both
give the same verdict, and after a success both buffers show the same bytes. -/
theorem parsePacket_agrees (A : Aead K) (g : Packet) (mem : Memory)
    (b : { b : ArrSlice // b.Valid mem }) (g₀ : GamePacket) (pool : Pool) (content : Bytes)
    (parsePayload : Bool) (cipher : Option (CipherState K)) :
    let r := parsePacket A g mem b content parsePayload cipher
    let r₀ := g₀.parsePacket A pool content parsePayload cipher
    r.error = r₀.1 ∧ (r.error = none → ∃ v raw, r.packet.rawData = some v ∧
      r₀.2.1.rawData = some raw ∧ r.mem.read v = raw.bytes) := by
  intro r r₀
  obtain ⟨hvalid, hcap, -⟩ := getBuffer_spec b.2 content.length
  obtain ⟨hdata, hread⟩ := read_filled hvalid content hcap
  have hfill := Slice.bytes_fill (Pool.le_cap_getCap pool content.length (·.upTo 0))
  by_cases hsize : content.length > maxPacketSize
  · have hr : r = _ := if_pos hsize
    have hr₀ : r₀ = _ := if_pos hsize
    rw [hr, hr₀]
    exact ⟨rfl, nofun⟩
  · have hr : r = _ := if_neg hsize
    have hr₀ : r₀ = _ := if_neg hsize
    dsimp only at hr hr₀ hdata hread
    generalize getBuffer mem b.1 content.length = buf at hr hdata hread
    generalize (pool.getCap content.length (·.upTo 0)) = buf₀ at hr₀ hfill
    rw [hfill] at hr₀
    obtain ⟨herror, hbytes⟩ := parse_agrees A
      { g with rawData := some { buf.1 with len := content.length } }
      { g₀ with rawData := some ((buf₀.1.upTo content.length).copyAt 0 content) } hdata parsePayload
      cipher
    rw [hread] at herror hbytes
    split at hr
    · next e g' mem' hparse =>
      rw [hparse] at herror
      split at hr₀
      · next e₀ g₀' bs hparse₀ =>
        rw [hparse₀] at herror
        rw [hr, hr₀]
        exact ⟨herror, nofun⟩
      · next g₀' bs hparse₀ =>
        rw [hparse₀] at herror
        cases herror
    · next g' mem' hparse =>
      rw [hparse] at herror hbytes
      split at hr₀
      · next e₀ g₀' bs hparse₀ =>
        rw [hparse₀] at herror
        cases herror
      · next g₀' bs hparse₀ =>
        rw [hparse₀] at hbytes
        obtain ⟨hraw, hlength, -⟩ := parse_ok hdata hparse
        rw [hread] at hlength
        rw [hr, hr₀]
        refine ⟨rfl, fun _ => ⟨_, _, hraw, rfl, hbytes.trans ?_⟩⟩
        -- what is written back fills the buffer
        have hlen : ((buf₀.1.upTo content.length).copyAt 0 content).len = bs.length := by
          rw [← Slice.length_bytes, hfill, ← hlength]
          exact congrArg List.length hbytes
        exact (Slice.bytes_copyAt_whole hlen).symm

/-- **What a call should leave.** After an error the object refers to no buffer, and every buffer
that was taken or made has been put back once. After a success one buffer is outstanding: the
one in `RawData`, which shows the content outside of what was decrypted in place. -/
structure Settled (content : Bytes) (parsePayload : Bool) (cipher : Option (CipherState K))
    (r : Parsed) : Prop where
  failed : r.error ≠ none → r.packet.rawData = none ∧ r.packet.payload = none ∧
    ∀ a, acquired r.log a ≤ 1 ∧ putBack r.log a = acquired r.log a
  succeeded : r.error = none → ∃ v, r.packet.rawData = some v ∧
    (∀ a, acquired r.log a ≤ 1 ∧
      acquired r.log a = putBack r.log a + if a = v.id then 1 else 0) ∧
    (r.mem.read v).length = content.length ∧
    ∀ i, ¬(headerLength ≤ i ∧ i < headerLength + decryptedLen r.packet parsePayload cipher) →
      (r.mem.read v)[i]? = content[i]?

section Settled

variable (A : Aead K) (g : Packet) (mem : Memory) (b : { b : ArrSlice // b.Valid mem })
  {content : Bytes} (parsePayload : Bool) (cipher : Option (CipherState K))

/-- A content of a permitted size. -/
theorem settled_of_le (hsize : content.length ≤ maxPacketSize) :
    Settled content parsePayload cipher
      (parsePacket A g mem b content parsePayload cipher) := by
  obtain ⟨hvalid, hcap, hlog⟩ := getBuffer_spec b.2 content.length
  obtain ⟨hdata, hread⟩ := read_filled hvalid content hcap
  have hr : parsePacket A g mem b content parsePayload cipher = _ :=
    if_neg (Nat.not_lt.mpr hsize)
  dsimp only at hr hdata hread
  generalize getBuffer mem b.1 content.length = buf at hr hlog hdata hread
  split at hr
  · next e g' mem' _ =>
    rw [hr]
    refine ⟨fun _ => ⟨rfl, rfl, ?_⟩, nofun⟩
    intro a
    obtain ⟨hle, heq⟩ := hlog a
    show acquired (buf.2.2 ++ [.put buf.1.id]) a ≤ 1 ∧
      putBack (buf.2.2 ++ [.put buf.1.id]) a = acquired (buf.2.2 ++ [.put buf.1.id]) a
    rw [acquired_append, putBack_append, acquired_put, putBack_put, acquired_nil, putBack_nil]
    omega
  · next g' mem' hparse =>
    obtain ⟨hraw, hlength, hsame⟩ := parse_ok hdata hparse
    rw [hread] at hlength hsame
    rw [hr]
    exact ⟨fun h => absurd rfl h, fun _ => ⟨_, hraw, hlog, hlength, hsame⟩⟩

/-- A content that is too large is refused before the object or the pool is touched. -/
theorem parsePacket_oversized (hsize : maxPacketSize < content.length) :
    parsePacket A g mem b content parsePayload cipher =
      { error := some .packetTooLarge, packet := g, mem, log := [] } :=
  if_pos hsize

/-- **A failed `ParsePacket` retains nothing, if and only if** the content has a permitted size
or the object referred to nothing before. -/
theorem failed_parse_retains_nothing :
    Settled content parsePayload cipher (parsePacket A g mem b content parsePayload cipher) ↔
      content.length ≤ maxPacketSize ∨ (g.rawData = none ∧ g.payload = none) := by
  constructor
  · intro hsettled
    by_cases hsize : content.length ≤ maxPacketSize
    · exact Or.inl hsize
    · -- what is left is what was there
      rw [parsePacket_oversized A g mem b parsePayload cipher (Nat.lt_of_not_le hsize)]
        at hsettled
      obtain ⟨hraw, hpayload, -⟩ := hsettled.failed nofun
      exact Or.inr ⟨hraw, hpayload⟩
  · intro hcond
    by_cases hsize : content.length ≤ maxPacketSize
    · exact settled_of_le A g mem b parsePayload cipher hsize
    · obtain ⟨hraw, hpayload⟩ := hcond.resolve_left hsize
      rw [parsePacket_oversized A g mem b parsePayload cipher (Nat.lt_of_not_le hsize)]
      exact ⟨fun _ => ⟨hraw, hpayload, fun a => ⟨Nat.zero_le _, rfl⟩⟩, nofun⟩

end Settled

/-! ## Two calls -/

/-- One array of eight bytes. -/
def caseMemory : Memory := { arr := fun _ => List.replicate 8 0, next := 1 }

def caseBuffer : { b : ArrSlice // b.Valid caseMemory } :=
  ⟨{ id := 0, off := 0, len := 0, cap := 8 }, ⟨by decide, by decide, by decide⟩⟩

/-- A packet object that still refers to the buffer of an earlier packet. -/
def leftover : Packet :=
  { src := .zero 4, dst := .zero 4, pType := typeData
    payload := some { id := 0, off := 0, len := 4, cap := 8 }
    rawData := some { id := 0, off := 0, len := 8, cap := 8 }
    length := 0 }

/-- A cipher that opens nothing. -/
def closed : Aead Unit where
  sealed _ _ p _ := p ++ List.replicate 16 0
  opened _ _ _ _ := none

/-- Nine bytes are no packet: the buffer of eight goes back, the new one too, and nothing is
left of the earlier packet. -/
theorem failed_parse_retains_nothing_short :
    let r := parsePacket closed leftover caseMemory caseBuffer (List.replicate 9 0) true none
    r.error = some .packetTooShort ∧ r.log = [.get 0, .put 0, .make 1, .put 1] ∧
      r.packet.rawData = none ∧ r.packet.payload = none := by
  intro r
  have herror : r.error = some .packetTooShort := by decide
  have hsettled := (failed_parse_retains_nothing closed leftover caseMemory caseBuffer true
    none).mpr (Or.inl (show (List.replicate 9 0).length ≤ maxPacketSize by decide))
  obtain ⟨hraw, hpayload, -⟩ := hsettled.failed (by rw [herror]; nofun)
  exact ⟨herror, by decide, hraw, hpayload⟩

/-- **A packet that is too large leaves the earlier one in place**: the call fails, and the
object still refers to a buffer. -/
theorem oversized_retains :
    ∃ (g : Packet) (mem : Memory) (b : { b : ArrSlice // b.Valid mem }) (content : Bytes),
      ∀ (K : Type) (A : Aead K) (parsePayload : Bool) (cipher : Option (CipherState K)),
        let r := parsePacket A g mem b content parsePayload cipher
        r.error ≠ none ∧ r.packet.rawData ≠ none ∧ r.packet.payload ≠ none := by
  refine ⟨leftover, caseMemory, caseBuffer, List.replicate (maxPacketSize + 1) 0, ?_⟩
  intro K A parsePayload cipher r
  have hlarge : (List.replicate (maxPacketSize + 1) (0 : UInt8)).length > maxPacketSize := by
    rw [List.length_replicate]
    exact Nat.lt_succ_self _
  have hr : r = _ := if_pos hlarge
  rw [hr]
  exact ⟨nofun, nofun, nofun⟩

end EasyTun.Protocol.ParseBuffers
