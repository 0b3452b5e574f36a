import EasyTun.Lib.Bytes

/-!
# DNS answers as IP packets (`internal/util/dns.go`)

`BuildDNSResponse` turns an answer of the server into the IP packet that the
application gets from the TUN device. The first two bytes of what it is given are
the UDP port the answer goes to, the rest is the DNS message.

The packet is a zeroed buffer that is filled field by field, as in the source.
`buildDNSResponse_ok` reads it back: each field is in its window, whatever was
written before and after it.
-/

namespace EasyTun.Util

open EasyTun.Lib

/-! ## Checksums -/

/-- The words of `checksum` (dns.go:97–104), an odd byte at the end shifted up. -/
def sumWords : Bytes → Nat
  | a :: b :: rest => ofBE [a, b] + sumWords rest
  | [a] => a.toNat * 2 ^ 8
  | [] => 0

/-- The loop that folds the carries (dns.go:105–107). -/
def foldCarry : Nat → Nat → Nat
  | 0, sum => sum
  | fuel + 1, sum =>
    if sum > 0xffff then foldCarry fuel (sum % 2 ^ 16 + sum / 2 ^ 16) else sum

/-- Three rounds are enough for a `uint32`. -/
theorem foldCarry_le {sum : Nat} (h : sum < 2 ^ 32) : foldCarry 3 sum ≤ 0xffff := by
  have hround : ∀ {s : Nat}, s < 2 ^ 32 → s % 2 ^ 16 + s / 2 ^ 16 ≤ 2 * 0xffff := by
    intro s hs
    omega
  unfold foldCarry
  split
  · have h1 := hround h
    generalize sum % 2 ^ 16 + sum / 2 ^ 16 = s₁ at h1
    unfold foldCarry
    split
    · unfold foldCarry
      split
      · show _ % 2 ^ 16 + _ / 2 ^ 16 ≤ _
        omega
      · omega
    · omega
  · omega

/-- `checksum` (dns.go:96–109). -/
def checksum (data : Bytes) : UInt16 := ~~~(UInt16.ofNat (foldCarry 3 (sumWords data % 2 ^ 32)))

/-- `udpChecksum` (dns.go:112–126). -/
def udpChecksum (src dst udpData : Bytes) : UInt16 :=
  let pseudoHeader := src ++ dst ++ [0] ++ [17]
  checksum (pseudoHeader ++ toBE 2 udpData.length ++ udpData)

/-! ## The packet -/

/-- The error of `BuildDNSResponse`. -/
def rawResponseTooShort : String := "raw response too short"

/-- The IP header (dns.go:68–78), in a zeroed buffer. -/
def dnsIpHeader (totalLen : Nat) (localIp dnsServerIp : ByteArr 4) : Bytes :=
  let packet := List.replicate totalLen 0
  let packet := overwrite packet 0 [0x45]
  let packet := overwrite packet 1 [0x00]
  let packet := overwrite packet 2 (toBE 2 totalLen)
  let packet := overwrite packet 4 (toBE 2 0)
  let packet := overwrite packet 6 (toBE 2 0x4000)
  let packet := overwrite packet 8 [64]
  let packet := overwrite packet 9 [17]
  let packet := overwrite packet 12 dnsServerIp.1
  let packet := overwrite packet 16 localIp.1
  overwrite packet 10 (toBE 2 (checksum (packet.take 20)).toNat)

/-- `BuildDNSResponse` (dns.go:51–93). -/
def buildDNSResponse (rawResp : Bytes) (localIp dnsServerIp : ByteArr 4) : Except String Bytes :=
  if rawResp.length < 2 then .error rawResponseTooShort
  else
    let dstPort := ofBE (rawResp.take 2)
    let dnsPayload := rawResp.drop 2
    let packet := dnsIpHeader (20 + 8 + dnsPayload.length) localIp dnsServerIp
    let packet := overwrite packet 20 (toBE 2 53)
    let packet := overwrite packet 22 (toBE 2 dstPort)
    let packet := overwrite packet 24 (toBE 2 (8 + dnsPayload.length))
    let packet := overwrite packet 26 (toBE 2 0)
    let packet := overwrite packet 28 dnsPayload
    let udpCheck := udpChecksum (window packet 12 4) (window packet 16 4) (packet.drop 20)
    .ok (overwrite packet 26 (toBE 2 udpCheck.toNat))

@[simp] theorem length_dnsIpHeader (totalLen : Nat) (localIp dnsServerIp : ByteArr 4) :
    (dnsIpHeader totalLen localIp dnsServerIp).length = totalLen := by
  simp [dnsIpHeader]

/-- A UDP datagram in an IPv4 packet without options: where it goes and what it
carries. -/
structure Carries (packet : Bytes) (src dst : ByteArr 4) (srcPort dstPort : Nat)
    (payload : Bytes) : Prop where
  version : window packet 0 1 = [0x45]
  protocol : window packet 9 1 = [17]
  src : window packet 12 4 = src.1
  dst : window packet 16 4 = dst.1
  srcPort : ofBE (window packet 20 2) = srcPort
  dstPort : ofBE (window packet 22 2) = dstPort
  length : ofBE (window packet 24 2) = 8 + payload.length
  payload : packet.drop 28 = payload

instance (packet : Bytes) (src dst : ByteArr 4) (srcPort dstPort : Nat) (payload : Bytes) :
    Decidable (Carries packet src dst srcPort dstPort payload) :=
  decidable_of_iff (window packet 0 1 = [0x45] ∧ window packet 9 1 = [17] ∧
      window packet 12 4 = src.1 ∧ window packet 16 4 = dst.1 ∧
      ofBE (window packet 20 2) = srcPort ∧ ofBE (window packet 22 2) = dstPort ∧
      ofBE (window packet 24 2) = 8 + payload.length ∧ packet.drop 28 = payload)
    ⟨fun ⟨h1, h2, h3, h4, h5, h6, h7, h8⟩ => ⟨h1, h2, h3, h4, h5, h6, h7, h8⟩,
      fun h => ⟨h.1, h.2, h.3, h.4, h.5, h.6, h.7, h.8⟩⟩

section ReadBack

variable (totalLen : Nat) (localIp dnsServerIp : ByteArr 4)

/-- The fields of the IP header that a receiver looks at. -/
theorem dnsIpHeader_fields (h : 20 ≤ totalLen) :
    let packet := dnsIpHeader totalLen localIp dnsServerIp
    window packet 0 1 = [0x45] ∧ window packet 9 1 = [17] ∧
      window packet 12 4 = dnsServerIp.1 ∧ window packet 16 4 = localIp.1 := by
  have hl := localIp.2
  have hd := dnsServerIp.2
  unfold dnsIpHeader
  dsimp only
  -- in each window, only the write to it shows
  refine ⟨?_, ?_, ?_, ?_⟩
  · simp (disch := simp [hl, hd]) only [window_overwrite_disjoint]
    exact window_overwrite_self rfl (by simp; omega)
  · simp (disch := simp [hl, hd]) only [window_overwrite_disjoint]
    exact window_overwrite_self rfl (by simp; omega)
  · simp (disch := simp [hl, hd]) only [window_overwrite_disjoint]
    exact window_overwrite_self hd (by simp; omega)
  · simp (disch := simp [hl, hd]) only [window_overwrite_disjoint]
    exact window_overwrite_self hl (by simp; omega)

/-- **What `BuildDNSResponse` builds**: a UDP datagram from port 53 of the DNS
server to the port in the first two bytes, with the rest as its payload. -/
theorem buildDNSResponse_ok {rawResp : Bytes} (h : 2 ≤ rawResp.length)
    (hmax : 8 + (rawResp.drop 2).length < 2 ^ 16) :
    ∃ packet, buildDNSResponse rawResp localIp dnsServerIp = .ok packet ∧
      Carries packet dnsServerIp localIp 53 (ofBE (rawResp.take 2)) (rawResp.drop 2) := by
  refine ⟨_, if_neg (Nat.not_lt.mpr h), ?_⟩
  have hport : ofBE (rawResp.take 2) < 256 ^ 2 := by
    have hlt := ofBE_lt (rawResp.take 2)
    rw [List.length_take, Nat.min_eq_left h] at hlt
    exact hlt
  generalize rawResp.drop 2 = dnsPayload at hmax
  obtain ⟨hversion, hprotocol, hsrc, hdst⟩ :=
    dnsIpHeader_fields (20 + 8 + dnsPayload.length) localIp dnsServerIp (by omega)
  refine ⟨?_, ?_, ?_, ?_, ?_, ?_, ?_, ?_⟩
  · simp (disch := simp) only [window_overwrite_disjoint]
    exact hversion
  · simp (disch := simp) only [window_overwrite_disjoint]
    exact hprotocol
  · simp (disch := simp) only [window_overwrite_disjoint]
    exact hsrc
  · simp (disch := simp) only [window_overwrite_disjoint]
    exact hdst
  · simp (disch := simp) only [window_overwrite_disjoint]
    rw [window_overwrite_self (length_toBE ..) (by simp; omega)]
    exact ofBE_toBE_of_lt (by decide)
  · simp (disch := simp) only [window_overwrite_disjoint]
    rw [window_overwrite_self (length_toBE ..) (by simp; omega)]
    exact ofBE_toBE_of_lt hport
  · simp (disch := simp) only [window_overwrite_disjoint]
    rw [window_overwrite_self (length_toBE ..) (by simp; omega)]
    exact ofBE_toBE_of_lt hmax
  · -- the payload reaches to the end of the packet
    rw [drop_eq_window (n := dnsPayload.length) (by simp)]
    simp (disch := simp) only [window_overwrite_disjoint]
    exact window_overwrite_self rfl (by simp)

end ReadBack

end EasyTun.Util
