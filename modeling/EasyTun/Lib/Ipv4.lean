import Mathlib.Algebra.BigOperators.Group.List.Basic
import Mathlib.Algebra.Ring.Nat
import EasyTun.Lib.Bytes

/-!
# IPv4 and UDP, as a receiver reads them

What a host does with a packet before an application sees its data: the checks of the
IPv4 header, then those of the UDP header, both with the Internet checksum.

The checksum is a sum of 16-bit words in one's-complement arithmetic, where a carry out of
the highest bit is added at the lowest (`addCarry`). A sender may instead add up the words
as numbers and fold the carries in at the end. `StandsFor` says what both results have in
common: a word that is congruent to the plain sum modulo `0xffff`, and zero only if the
sum is. There is one such word (`StandsFor.unique`).
-/

namespace EasyTun.Lib.Ipv4

/-! ## One's-complement sums -/

/-- The 16-bit words of a string, an odd byte at the end padded with zero. -/
def words : Bytes → List Nat
  | a :: b :: rest => ofBE [a, b] :: words rest
  | [a] => [ofBE [a, 0]]
  | [] => []

/-- Addition with end-around carry. -/
def addCarry (a b : Nat) : Nat := if a + b < 2 ^ 16 then a + b else a + b - 2 ^ 16 + 1

/-- The one's-complement sum. -/
def onesSum (ws : List Nat) : Nat := ws.foldl addCarry 0

/-- The word stands for a sum in one's-complement arithmetic. -/
structure StandsFor (word sum : Nat) : Prop where
  lt : word < 2 ^ 16
  congr : word % 0xffff = sum % 0xffff
  zero : word = 0 ↔ sum = 0

theorem StandsFor.unique {v w sum : Nat} (hv : StandsFor v sum) (hw : StandsFor w sum) :
    v = w := by
  have hcongr := hv.congr.trans hw.congr.symm
  have hzero := hv.zero.trans hw.zero.symm
  have hvlt := hv.lt
  have hwlt := hw.lt
  omega

theorem StandsFor.addCarry {v sum w : Nat} (h : StandsFor v sum) (hw : w < 2 ^ 16) :
    StandsFor (addCarry v w) (sum + w) := by
  obtain ⟨hlt, hcongr, hzero⟩ := h
  unfold Ipv4.addCarry
  split
  · next hsmall => exact ⟨hsmall, by omega, by omega⟩
  · next hlarge => exact ⟨by omega, by omega, by omega⟩

/-- **The one's-complement sum stands for the sum.** -/
theorem standsFor_onesSum {ws : List Nat} (h : ∀ w ∈ ws, w < 2 ^ 16) :
    StandsFor (onesSum ws) ws.sum := by
  have hfrom : ∀ {v sum : Nat}, StandsFor v sum →
      StandsFor (ws.foldl Ipv4.addCarry v) (sum + ws.sum) := by
    induction ws with
    | nil =>
      intro v sum hv
      exact hv
    | cons w ws ih =>
      intro v sum hv
      rw [List.foldl_cons, List.sum_cons, ← Nat.add_assoc]
      have hrest : ∀ w' ∈ ws, w' < 2 ^ 16 := fun w' hw' => h w' (List.mem_cons_of_mem _ hw')
      exact ih hrest (hv.addCarry (h w List.mem_cons_self))
  have hzero : StandsFor 0 0 := ⟨by decide, rfl, Iff.rfl⟩
  have hall := hfrom hzero
  rw [Nat.zero_add] at hall
  exact hall

/-- A word and its complement: with it, the sum is `0xffff`. -/
theorem StandsFor.complement {v sum : Nat} (h : StandsFor v sum) (hpos : 0 < sum) :
    StandsFor 0xffff (sum + (0xffff - v)) := by
  have hlt := h.lt
  have hcongr := h.congr
  exact ⟨by decide, by omega, by omega⟩

theorem ofBE_pair_lt (a b : UInt8) : ofBE [a, b] < 2 ^ 16 :=
  (ofBE_lt [a, b]).trans_eq (show 256 ^ 2 = 2 ^ 16 by decide)

theorem lt_of_mem_words {l : Bytes} : ∀ w ∈ words l, w < 2 ^ 16 := by
  induction l using words.induct with
  | case1 a b rest ih =>
    intro w hw
    rcases List.mem_cons.mp hw with rfl | hrest
    · exact ofBE_pair_lt a b
    · exact ih w hrest
  | case2 a =>
    intro w hw
    cases List.mem_singleton.mp hw
    exact ofBE_pair_lt a 0
  | case3 =>
    intro w hw
    cases hw

/-- The words of a string that is cut at an even position. -/
theorem words_append {xs : Bytes} (ys : Bytes) (h : xs.length % 2 = 0) :
    words (xs ++ ys) = words xs ++ words ys := by
  induction xs using words.induct with
  | case1 a b rest ih =>
    have hrest : rest.length % 2 = 0 := by
      rw [List.length_cons, List.length_cons] at h
      omega
    show ofBE [a, b] :: words (rest ++ ys) = ofBE [a, b] :: (words rest ++ words ys)
    rw [ih hrest]
  | case2 a => cases h
  | case3 => rfl

/-! ## Receiving -/

/-- What an application gets. -/
structure Datagram where
  src : Bytes
  srcPort : Nat
  dst : Bytes
  dstPort : Nat
  payload : Bytes
  deriving DecidableEq

/-- What the UDP checksum covers besides the segment. -/
def pseudoHeader (src dst : Bytes) (udpLength : Nat) : Bytes :=
  src ++ dst ++ [0, 17] ++ toBE 2 udpLength

/-- `IHL` is in words of four bytes. -/
def headerLength (packet : Bytes) : Nat := ofBE (window packet 0 1) % 16 * 4

/-- The total length in the header. -/
def totalLength (packet : Bytes) : Nat := ofBE (window packet 2 2)

/-- What a host takes of the bytes that a device delivers. -/
def trim (bytes : Bytes) : Bytes := bytes.take (totalLength bytes)

/-- What lies behind a packet is not part of it. -/
theorem trim_append {packet : Bytes} (hlen : 4 ≤ packet.length)
    (htotal : totalLength packet = packet.length) (rest : Bytes) :
    trim (packet ++ rest) = packet := by
  have hwindow : window (packet ++ rest) 2 2 = window packet 2 2 := by
    unfold window
    rw [List.drop_append_of_le_length (by omega), List.take_append_of_le_length]
    rw [List.length_drop]
    omega
  unfold trim totalLength
  rw [hwindow, show ofBE (window packet 2 2) = packet.length from htotal, List.take_left' rfl]

/-- The header of a packet that is not a fragment and carries UDP. -/
def HeaderOk (packet : Bytes) : Prop :=
  ofBE (window packet 0 1) / 16 = 4 ∧ 20 ≤ headerLength packet ∧
  headerLength packet ≤ totalLength packet ∧ totalLength packet ≤ packet.length ∧
  onesSum (words (packet.take (headerLength packet))) = 0xffff ∧
  ofBE (window packet 6 2) % 2 ^ 14 = 0 ∧ ofBE (window packet 9 1) = 17

instance (packet : Bytes) : Decidable (HeaderOk packet) :=
  inferInstanceAs (Decidable (_ ∧ _ ∧ _ ∧ _ ∧ _ ∧ _ ∧ _))

/-- What the packet carries. -/
def udpSegment (packet : Bytes) : Bytes :=
  window packet (headerLength packet) (totalLength packet - headerLength packet)

/-- The length in the UDP header. -/
def udpLength (segment : Bytes) : Nat := ofBE (window segment 4 2)

/-- A UDP segment between two hosts; a checksum of zero is none. -/
def SegmentOk (src dst segment : Bytes) : Prop :=
  8 ≤ udpLength segment ∧ udpLength segment ≤ segment.length ∧
  (ofBE (window segment 6 2) = 0 ∨
    onesSum (words (pseudoHeader src dst (udpLength segment) ++
      segment.take (udpLength segment))) = 0xffff)

instance (src dst segment : Bytes) : Decidable (SegmentOk src dst segment) :=
  inferInstanceAs (Decidable (_ ∧ _ ∧ (_ ∨ _)))

/-- What a host makes of a packet. -/
def receive (packet : Bytes) : Option Datagram :=
  let src := window packet 12 4
  let dst := window packet 16 4
  let udp := udpSegment packet
  if HeaderOk packet ∧ SegmentOk src dst udp then
    some
      { src
        srcPort := ofBE (window udp 0 2)
        dst
        dstPort := ofBE (window udp 2 2)
        payload := window udp 8 (udpLength udp - 8) }
  else none

end EasyTun.Lib.Ipv4
