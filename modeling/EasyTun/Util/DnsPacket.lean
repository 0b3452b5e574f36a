import EasyTun.Lib.Ipv4
import EasyTun.Util.Dns

/-!
# DNS answers are valid datagrams (`internal/util/dns.go`)

The packets of `BuildDNSResponse` go straight into the TUN device, so the operating system
is their receiver, and it checks what the source computes: two lengths and two checksums.

`checksum` adds up words as numbers and folds the carries in afterwards. `Folds` is that
loop without a bound on its rounds, and each round keeps what the sum stands for
(`Folds.standsFor`). A checksum is the complement of the sum over a buffer in which its own
field is still zero, so with the field filled in the words add up to `0xffff`
(`onesSum_of_checksum`). For that the field has to start at an even position of what is
summed, and so it does in the pseudo-header's string as well, which is twelve bytes longer.

- `checksum_standsFor`: what `checksum` returns, for any data that an IPv4 packet can hold.
- `buildDNSResponse_received`: **the receiver gets exactly the answer**, and both sums are
  `0xffff`.
-/

namespace EasyTun.Util

open EasyTun.Lib EasyTun.Lib.Ipv4

/-! ## The sum of the words -/

theorem sumWords_eq (l : Bytes) : sumWords l = (words l).sum := by
  induction l using words.induct with
  | case1 a b rest ih =>
    show ofBE [a, b] + sumWords rest = (ofBE [a, b] :: words rest).sum
    rw [ih, List.sum_cons]
  | case2 a =>
    show a.toNat * 2 ^ 8 = (0 * 256 + a.toNat) * 256 + 0 + 0
    omega
  | case3 => rfl

theorem sumWords_append {xs : Bytes} (ys : Bytes) (h : xs.length % 2 = 0) :
    sumWords (xs ++ ys) = sumWords xs + sumWords ys := by
  rw [sumWords_eq, sumWords_eq, sumWords_eq, words_append ys h, List.sum_append]

theorem sumWords_toBE {n : Nat} (h : n < 2 ^ 16) : sumWords (toBE 2 n) = n := by
  have hfits : n < 256 ^ 2 := by omega
  show ofBE (toBE 2 n) + 0 = n
  rw [ofBE_toBE_of_lt hfits, Nat.add_zero]

theorem sumWords_le (l : Bytes) : sumWords l ≤ 0xffff * ((l.length + 1) / 2) := by
  induction l using words.induct with
  | case1 a b rest ih =>
    have hword := ofBE_pair_lt a b
    show ofBE [a, b] + sumWords rest ≤ 0xffff * ((rest.length + 1 + 1 + 1) / 2)
    omega
  | case2 a =>
    have hbyte := a.toNat_lt
    show a.toNat * 2 ^ 8 ≤ 0xffff * ((0 + 1 + 1) / 2)
    omega
  | case3 => exact Nat.le_refl 0

theorem sumWords_pos {a : UInt8} (h : a ≠ 0) (l : Bytes) : 0 < sumWords (a :: l) := by
  have ha : 0 < a.toNat := Nat.pos_of_ne_zero fun hzero => h (UInt8.toNat_inj.mp hzero)
  cases l with
  | nil =>
    show 0 < a.toNat * 2 ^ 8
    omega
  | cons b l =>
    show 0 < (0 * 256 + a.toNat) * 256 + b.toNat + sumWords l
    omega

/-- **The accumulator does not overflow**, whichever part of the data has been added. -/
theorem sumWords_take_lt {data : Bytes} (h : data.length < 2 ^ 17) (n : Nat) :
    sumWords (data.take n) < 2 ^ 32 := by
  have hle := sumWords_le (data.take n)
  have hlen : (data.take n).length ≤ data.length := List.length_take_le' ..
  omega

theorem sumWords_lt {data : Bytes} (h : data.length < 2 ^ 17) : sumWords data < 2 ^ 32 := by
  have hall := sumWords_take_lt h data.length
  rwa [List.take_length] at hall

/-! ## The folding loop -/

/-- The loop of the source (dns.go:105–107), without a bound: from `sum` on it ends with
`r`. -/
inductive Folds : Nat → Nat → Prop
  | done {sum : Nat} (h : sum ≤ 0xffff) : Folds sum sum
  | fold {sum r : Nat} (h : sum > 0xffff) (hrest : Folds (sum % 2 ^ 16 + sum / 2 ^ 16) r) :
      Folds sum r

/-- The loop with fuel runs as the one without, if it gets to the end. -/
theorem folds_foldCarry {fuel sum : Nat} (h : foldCarry fuel sum ≤ 0xffff) :
    Folds sum (foldCarry fuel sum) := by
  induction fuel generalizing sum with
  | zero => exact .done h
  | succ fuel ih =>
    unfold foldCarry at h ⊢
    split
    · next hlarge =>
      rw [if_pos hlarge] at h
      exact .fold hlarge (ih h)
    · next hsmall => exact .done (Nat.not_lt.mp hsmall)

/-- A round keeps what the sum stands for. -/
theorem Folds.standsFor {sum r : Nat} (h : Folds sum r) : StandsFor r sum := by
  induction h with
  | done h => exact ⟨Nat.lt_succ_of_le h, rfl, Iff.rfl⟩
  | fold _ _ ih =>
    obtain ⟨hlt, hcongr, hzero⟩ := ih
    exact ⟨hlt, by omega, by omega⟩

/-- **What `checksum` returns**: the complement of what the sum stands for. -/
theorem checksum_standsFor {data : Bytes} (h : data.length < 2 ^ 17) :
    ∃ v, StandsFor v (sumWords data) ∧ (checksum data).toNat = 0xffff - v := by
  have hsum := sumWords_lt h
  have hfold := (folds_foldCarry (foldCarry_le hsum)).standsFor
  refine ⟨_, hfold, ?_⟩
  rw [checksum, Nat.mod_eq_of_lt hsum, UInt16.toNat_not, UInt16.toNat_ofNat',
    Nat.mod_eq_of_lt hfold.lt]
  rfl

/-- **With the checksum filled in the sum is `0xffff`.** -/
theorem onesSum_of_checksum (data : Bytes) {filled : Bytes} (h : data.length < 2 ^ 17)
    (hpos : 0 < sumWords data) (hfilled : sumWords filled = sumWords data + (checksum data).toNat) :
    onesSum (words filled) = 0xffff := by
  obtain ⟨v, hv, hcheck⟩ := checksum_standsFor h
  have hones := standsFor_onesSum (lt_of_mem_words (l := filled))
  rw [← sumWords_eq, hfilled, hcheck] at hones
  exact hones.unique (hv.complement hpos)

/-! ## The packet before its checksums -/

section Drafts

variable (rawResp : Bytes) (localIp dnsServerIp : ByteArr 4)

/-- The IP header without its checksum. -/
def headerDraft (totalLen : Nat) (localIp dnsServerIp : ByteArr 4) : Bytes :=
  let packet := List.replicate totalLen 0
  let packet := overwrite packet 0 [0x45]
  let packet := overwrite packet 1 [0x00]
  let packet := overwrite packet 2 (toBE 2 totalLen)
  let packet := overwrite packet 4 (toBE 2 0)
  let packet := overwrite packet 6 (toBE 2 0x4000)
  let packet := overwrite packet 8 [64]
  let packet := overwrite packet 9 [17]
  let packet := overwrite packet 12 dnsServerIp.1
  overwrite packet 16 localIp.1

theorem dnsIpHeader_eq (totalLen : Nat) :
    dnsIpHeader totalLen localIp dnsServerIp =
      overwrite (headerDraft totalLen localIp dnsServerIp) 10
        (toBE 2 (checksum ((headerDraft totalLen localIp dnsServerIp).take 20)).toNat) :=
  rfl

/-- The total length, as `BuildDNSResponse` computes it. -/
def responseLength : Nat := 20 + 8 + (rawResp.drop 2).length

/-- The packet without the UDP checksum. -/
def packetDraft : Bytes :=
  let packet := dnsIpHeader (responseLength rawResp) localIp dnsServerIp
  let packet := overwrite packet 20 (toBE 2 53)
  let packet := overwrite packet 22 (toBE 2 (ofBE (rawResp.take 2)))
  let packet := overwrite packet 24 (toBE 2 (8 + (rawResp.drop 2).length))
  let packet := overwrite packet 26 (toBE 2 0)
  overwrite packet 28 (rawResp.drop 2)

/-- What the UDP checksum is computed over. -/
def udpCovered : Bytes :=
  let packet := packetDraft rawResp localIp dnsServerIp
  window packet 12 4 ++ window packet 16 4 ++ [0] ++ [17] ++
    toBE 2 (packet.drop 20).length ++ packet.drop 20

/-- The strings that `checksum` is called on. -/
def checksummed : List Bytes :=
  [(headerDraft (responseLength rawResp) localIp dnsServerIp).take 20,
    udpCovered rawResp localIp dnsServerIp]

def responsePacket : Bytes :=
  overwrite (packetDraft rawResp localIp dnsServerIp) 26
    (toBE 2 (checksum (udpCovered rawResp localIp dnsServerIp)).toNat)

variable {rawResp}

theorem buildDNSResponse_eq (h : 2 ≤ rawResp.length) :
    buildDNSResponse rawResp localIp dnsServerIp =
      .ok (responsePacket rawResp localIp dnsServerIp) :=
  if_neg (Nat.not_lt.mpr h)

variable (rawResp)

theorem length_packetDraft :
    (packetDraft rawResp localIp dnsServerIp).length = responseLength rawResp := by
  simp [packetDraft]

theorem length_responsePacket :
    (responsePacket rawResp localIp dnsServerIp).length = responseLength rawResp := by
  rw [responsePacket, length_overwrite, length_packetDraft]

end Drafts

/-! ## The sums over the packet -/

/-- The ten words of the header, with the checksum apart. -/
theorem sumWords_header {l : Bytes} (h : 20 ≤ l.length) :
    sumWords (l.take 20) =
      sumWords (window l 0 10) + (sumWords (window l 10 2) + sumWords (window l 12 8)) := by
  have hsplit : l.take 20 = window l 0 10 ++ (window l 10 2 ++ window l 12 8) := by
    rw [take_eq_window, window_append l 0 10 10, window_append l 10 2 8]
  rw [hsplit, sumWords_append _ (by rw [length_window (by omega)]),
    sumWords_append _ (by rw [length_window (by omega)])]

/-- The segment, with the checksum apart. -/
theorem sumWords_segment {l : Bytes} (h : 28 ≤ l.length) :
    sumWords (l.drop 20) =
      sumWords (window l 20 6) + (sumWords (window l 26 2) + sumWords (l.drop 28)) := by
  have hsplit : l.drop 20 = window l 20 6 ++ (window l 26 2 ++ l.drop 28) := by
    rw [window, window, ← List.drop_drop (i := 2) (j := 26), List.take_append_drop,
      ← List.drop_drop (i := 6) (j := 20), List.take_append_drop]
  rw [hsplit, sumWords_append _ (by rw [length_window (by omega)]),
    sumWords_append _ (by rw [length_window (by omega)])]

/-- Filling in the checksum of a header adds it to the sum. -/
theorem sumWords_fill {l : Bytes} (h : 20 ≤ l.length) (hzero : window l 10 2 = toBE 2 0) {c : Nat}
    (hc : c < 2 ^ 16) :
    sumWords ((overwrite l 10 (toBE 2 c)).take 20) = sumWords (l.take 20) + c := by
  have hfield : window (overwrite l 10 (toBE 2 c)) 10 2 = toBE 2 c :=
    window_overwrite_self (length_toBE ..) (by omega)
  have hbefore : window (overwrite l 10 (toBE 2 c)) 0 10 = window l 0 10 :=
    window_overwrite_disjoint (Or.inl (Nat.le_refl _))
  have hbehind : window (overwrite l 10 (toBE 2 c)) 12 8 = window l 12 8 :=
    window_overwrite_disjoint (Or.inr (Nat.le_of_eq (by rw [length_toBE])))
  rw [sumWords_header (by rw [length_overwrite]; exact h), sumWords_header h, hfield, hbefore,
    hbehind, hzero, sumWords_toBE hc, sumWords_toBE (by decide)]
  omega

theorem window_replicate {n off k : Nat} (h : off + k ≤ n) :
    window (List.replicate n 0) off k = List.replicate k 0 := by
  rw [window, List.drop_replicate, List.take_replicate, Nat.min_eq_left (by omega)]

section Header

variable (rawResp : Bytes) (localIp dnsServerIp : ByteArr 4)

theorem length_headerDraft (totalLen : Nat) :
    (headerDraft totalLen localIp dnsServerIp).length = totalLen := by
  simp [headerDraft]

/-- The field is zero while its value is computed. -/
theorem headerDraft_checksum {totalLen : Nat} (h : 20 ≤ totalLen) :
    window (headerDraft totalLen localIp dnsServerIp) 10 2 = toBE 2 0 := by
  have hl := localIp.2
  have hd := dnsServerIp.2
  unfold headerDraft
  simp (disch := simp [hl, hd]) only [window_overwrite_disjoint]
  exact window_replicate (by omega)

theorem headerDraft_version {totalLen : Nat} (h : 20 ≤ totalLen) :
    window (headerDraft totalLen localIp dnsServerIp) 0 1 = [0x45] := by
  have hl := localIp.2
  have hd := dnsServerIp.2
  unfold headerDraft
  simp (disch := simp [hl, hd]) only [window_overwrite_disjoint]
  exact window_overwrite_self rfl (by simp; omega)

/-- The header is complete before the rest is written. -/
theorem window_responsePacket {i n : Nat} (h : i + n ≤ 20) :
    window (responsePacket rawResp localIp dnsServerIp) i n =
      window (dnsIpHeader (responseLength rawResp) localIp dnsServerIp) i n := by
  unfold responsePacket packetDraft
  dsimp only
  rw [window_overwrite_disjoint (Or.inl (by omega)), window_overwrite_disjoint (Or.inl (by omega)),
    window_overwrite_disjoint (Or.inl (by omega)), window_overwrite_disjoint (Or.inl (by omega)),
    window_overwrite_disjoint (Or.inl (by omega)), window_overwrite_disjoint (Or.inl (by omega))]

theorem le_responseLength : 28 ≤ responseLength rawResp := Nat.le_add_right ..

/-- The header adds up. -/
theorem onesSum_header :
    onesSum (words ((responsePacket rawResp localIp dnsServerIp).take 20)) = 0xffff := by
  have hpacket : (responsePacket rawResp localIp dnsServerIp).take 20 =
      (dnsIpHeader (responseLength rawResp) localIp dnsServerIp).take 20 := by
    rw [take_eq_window, take_eq_window, window_responsePacket _ _ _ (by omega)]
  rw [hpacket, dnsIpHeader_eq]
  have hmin := le_responseLength rawResp
  have hlen := length_headerDraft localIp dnsServerIp (responseLength rawResp)
  have h20 : 20 ≤ responseLength rawResp := by omega
  have hversion := headerDraft_version localIp dnsServerIp h20
  have hzero := headerDraft_checksum localIp dnsServerIp h20
  generalize headerDraft (responseLength rawResp) localIp dnsServerIp = draft at hlen hversion hzero
  refine onesSum_of_checksum (draft.take 20) ?_ ?_ ?_
  · rw [List.length_take]
    omega
  · -- the first word is not zero
    have hfirst : draft.take 20 = 0x45 :: window draft 1 19 := by
      rw [take_eq_window, window_append draft 0 1 19, hversion]
      rfl
    rw [hfirst]
    exact sumWords_pos (by decide) _
  · exact sumWords_fill (by omega) hzero (checksum (draft.take 20)).toNat_lt

end Header

section Segment

variable (rawResp : Bytes) (localIp dnsServerIp : ByteArr 4)

/-- Outside the UDP checksum the packet is the draft. -/
theorem window_responsePacket_draft {i n : Nat} (h : i + n ≤ 26 ∨ 28 ≤ i) :
    window (responsePacket rawResp localIp dnsServerIp) i n =
      window (packetDraft rawResp localIp dnsServerIp) i n :=
  window_overwrite_disjoint (by rw [length_toBE]; exact h)

theorem packetDraft_checksum :
    window (packetDraft rawResp localIp dnsServerIp) 26 2 = toBE 2 0 := by
  unfold packetDraft
  dsimp only
  rw [window_overwrite_disjoint (Or.inl (by omega)),
    window_overwrite_self (length_toBE ..) (by simp [responseLength])]

/-- What the checksum covers is what the receiver adds up. -/
theorem udpCovered_eq :
    udpCovered rawResp localIp dnsServerIp =
      pseudoHeader dnsServerIp.1 localIp.1 (responseLength rawResp - 20) ++
        (packetDraft rawResp localIp dnsServerIp).drop 20 := by
  have hlen := le_responseLength rawResp
  obtain ⟨-, -, hsrc, hdst⟩ :=
    dnsIpHeader_fields (responseLength rawResp) localIp dnsServerIp (by omega)
  have hsrc' : window (packetDraft rawResp localIp dnsServerIp) 12 4 = dnsServerIp.1 := by
    rw [← window_responsePacket_draft _ _ _ (by omega), window_responsePacket _ _ _ (by omega)]
    exact hsrc
  have hdst' : window (packetDraft rawResp localIp dnsServerIp) 16 4 = localIp.1 := by
    rw [← window_responsePacket_draft _ _ _ (by omega), window_responsePacket _ _ _ (by omega)]
    exact hdst
  unfold udpCovered pseudoHeader
  dsimp only
  rw [hsrc', hdst', List.length_drop, length_packetDraft, List.append_assoc _ [0] [17]]
  rfl

theorem length_pseudoHeader (src dst : ByteArr 4) (n : Nat) :
    (pseudoHeader src.1 dst.1 n).length = 12 := by
  simp [pseudoHeader, src.2, dst.2]

theorem sumWords_pseudoHeader_pos (src dst : ByteArr 4) (n : Nat) :
    0 < sumWords (pseudoHeader src.1 dst.1 n) := by
  unfold pseudoHeader
  rw [sumWords_append _ (by simp [src.2, dst.2]), sumWords_append _ (by simp [src.2, dst.2])]
  -- the word of the protocol number
  have hproto : sumWords [0, 17] = 17 := rfl
  omega

/-- The segment and its pseudo-header add up, in a packet of a length that IPv4 allows. -/
theorem onesSum_segment (hmax : responseLength rawResp < 2 ^ 16) :
    onesSum (words (pseudoHeader dnsServerIp.1 localIp.1 (responseLength rawResp - 20) ++
      (responsePacket rawResp localIp dnsServerIp).drop 20)) = 0xffff := by
  have hlen := le_responseLength rawResp
  have hdraft := length_packetDraft rawResp localIp dnsServerIp
  have hpacket := length_responsePacket rawResp localIp dnsServerIp
  have hpseudo := length_pseudoHeader dnsServerIp localIp (responseLength rawResp - 20)
  have hpos := sumWords_pseudoHeader_pos dnsServerIp localIp (responseLength rawResp - 20)
  have hpayload : (responsePacket rawResp localIp dnsServerIp).drop 28 =
      (packetDraft rawResp localIp dnsServerIp).drop 28 := by
    rw [drop_eq_window (n := responseLength rawResp - 28) (by omega),
      drop_eq_window (n := responseLength rawResp - 28) (by omega),
      window_responsePacket_draft _ _ _ (Or.inr (Nat.le_refl _))]
  refine onesSum_of_checksum (udpCovered rawResp localIp dnsServerIp) ?_ ?_ ?_
  · rw [udpCovered_eq, List.length_append, hpseudo, List.length_drop]
    omega
  · rw [udpCovered_eq, sumWords_append _ (by rw [hpseudo])]
    omega
  · have hcheck := (checksum (udpCovered rawResp localIp dnsServerIp)).toNat_lt
    have hfield : window (responsePacket rawResp localIp dnsServerIp) 26 2 =
        toBE 2 (checksum (udpCovered rawResp localIp dnsServerIp)).toNat :=
      window_overwrite_self (length_toBE ..) (by omega)
    have hcovered : sumWords (udpCovered rawResp localIp dnsServerIp) =
        sumWords (pseudoHeader dnsServerIp.1 localIp.1 (responseLength rawResp - 20)) +
          sumWords ((packetDraft rawResp localIp dnsServerIp).drop 20) := by
      rw [udpCovered_eq, sumWords_append _ (by rw [hpseudo])]
    rw [hcovered, sumWords_append _ (by rw [hpseudo]), sumWords_segment (by omega),
      sumWords_segment (by omega), hfield, hpayload,
      window_responsePacket_draft _ _ _ (Or.inl (Nat.le_refl _)), packetDraft_checksum,
      sumWords_toBE hcheck, sumWords_toBE (by decide)]
    omega

end Segment

/-! ## What the receiver gets -/

section Receiver

variable (rawResp : Bytes) (localIp dnsServerIp : ByteArr 4)

/-- The length and the flags of the IP header. -/
theorem responsePacket_length_flags :
    window (responsePacket rawResp localIp dnsServerIp) 2 2 = toBE 2 (responseLength rawResp) ∧
    window (responsePacket rawResp localIp dnsServerIp) 6 2 = toBE 2 0x4000 := by
  have hl := localIp.2
  have hd := dnsServerIp.2
  have hmin := le_responseLength rawResp
  rw [window_responsePacket _ _ _ (by omega), window_responsePacket _ _ _ (by omega)]
  unfold dnsIpHeader
  dsimp only
  constructor
  · simp (disch := simp [hl, hd]) only [window_overwrite_disjoint]
    exact window_overwrite_self (length_toBE ..) (by simp; omega)
  · simp (disch := simp [hl, hd]) only [window_overwrite_disjoint]
    exact window_overwrite_self (length_toBE ..) (by simp; omega)

variable {rawResp}

theorem length_of_mem_checksummed (hmax : responseLength rawResp < 2 ^ 16) {data : Bytes}
    (h : data ∈ checksummed rawResp localIp dnsServerIp) : data.length < 2 ^ 17 := by
  rw [checksummed, List.mem_cons, List.mem_singleton] at h
  rcases h with hdata | hdata
  · rw [hdata, List.length_take]
    omega
  · rw [hdata, udpCovered_eq, List.length_append, length_pseudoHeader, List.length_drop,
      length_packetDraft]
    omega

end Receiver

/-- **A receiver decodes what was sent**: a packet whose fields are those of a datagram and
whose sums are `0xffff`. -/
theorem receive_of_carries {packet : Bytes} {src dst : ByteArr 4} {srcPort dstPort : Nat}
    {payload : Bytes} (h : Carries packet src dst srcPort dstPort payload)
    (hlen : packet.length = 28 + payload.length)
    (htotal : ofBE (window packet 2 2) = packet.length)
    (hflags : ofBE (window packet 6 2) % 2 ^ 14 = 0)
    (hheader : onesSum (words (packet.take 20)) = 0xffff)
    (hudp : onesSum (words (pseudoHeader src.1 dst.1 (8 + payload.length) ++ packet.drop 20)) =
      0xffff) :
    receive packet = some { src := src.1, srcPort, dst := dst.1, dstPort, payload } := by
  have hihl : headerLength packet = 20 := by
    rw [headerLength, h.version]
    rfl
  have hsegment : udpSegment packet = packet.drop 20 := by
    rw [udpSegment, hihl, totalLength, htotal, drop_eq_window (n := packet.length - 20) (by omega)]
  -- the fields of the UDP header are at their places behind the IP header
  have hfield : ∀ i n, i + n ≤ packet.length - 20 →
      window (udpSegment packet) i n = window packet (20 + i) n := by
    intro i n hin
    rw [hsegment, drop_eq_window (n := packet.length - 20) (by omega), window_window hin]
  have hudpLength : udpLength (udpSegment packet) = 8 + payload.length := by
    rw [udpLength, hfield 4 2 (by omega), h.length]
  have hok : HeaderOk packet := by
    refine ⟨?_, ?_, ?_, ?_, ?_, hflags, ?_⟩
    · rw [h.version]
      rfl
    · exact Nat.le_of_eq hihl.symm
    · rw [hihl, totalLength, htotal]
      omega
    · exact Nat.le_of_eq htotal
    · rw [hihl]
      exact hheader
    · rw [h.protocol]
      rfl
  have hseg : SegmentOk (window packet 12 4) (window packet 16 4) (udpSegment packet) := by
    refine ⟨by omega, ?_, Or.inr ?_⟩
    · rw [hudpLength, hsegment, List.length_drop]
      omega
    · rw [hudpLength, h.src, h.dst, hsegment, List.take_of_length_le]
      · exact hudp
      · rw [List.length_drop]
        omega
  have hpayload : window (udpSegment packet) 8 (udpLength (udpSegment packet) - 8) = payload := by
    rw [hudpLength, Nat.add_sub_cancel_left, hfield 8 _ (by omega), ← drop_eq_window (by omega),
      h.payload]
  unfold receive
  dsimp only
  rw [if_pos ⟨hok, hseg⟩, hpayload, hfield 0 2 (by omega), hfield 2 2 (by omega), h.src, h.dst,
    h.srcPort, h.dstPort]

/-- **DNS answers are well formed.** For every answer that fits into an IPv4 packet, a
receiver decodes the packet to the answer, both lengths are the real ones, and both sums
are `0xffff`. Neither computation of a checksum overflows, and its loop ends. -/
theorem buildDNSResponse_received (rawResp : Bytes) (localIp dnsServerIp : ByteArr 4)
    (h2 : 2 ≤ rawResp.length) (hmax : rawResp.length ≤ 65509) :
    ∃ packet, buildDNSResponse rawResp localIp dnsServerIp = .ok packet ∧
      packet.length = 26 + rawResp.length ∧
      receive packet = some
        { src := dnsServerIp.1, srcPort := 53
          dst := localIp.1, dstPort := ofBE (rawResp.take 2)
          payload := rawResp.drop 2 } ∧
      ofBE (window packet 2 2) = packet.length ∧
      ofBE (window packet 24 2) = packet.length - 20 ∧
      onesSum (words (packet.take 20)) = 0xffff ∧
      onesSum (words (pseudoHeader dnsServerIp.1 localIp.1 (packet.length - 20) ++
        packet.drop 20)) = 0xffff ∧
      ∀ data ∈ checksummed rawResp localIp dnsServerIp,
        (∀ n, sumWords (data.take n) < 2 ^ 32) ∧
        Folds (sumWords data) (foldCarry 3 (sumWords data)) := by
  have hpayload : (rawResp.drop 2).length = rawResp.length - 2 := List.length_drop
  have htotal : responseLength rawResp = 28 + (rawResp.drop 2).length := rfl
  have hlen := length_responsePacket rawResp localIp dnsServerIp
  obtain ⟨packet, hok, hcarries⟩ :=
    buildDNSResponse_ok localIp dnsServerIp h2 (by omega)
  rw [buildDNSResponse_eq localIp dnsServerIp h2] at hok ⊢
  obtain rfl := Except.ok.inj hok
  obtain ⟨hlength, hflags⟩ := responsePacket_length_flags rawResp localIp dnsServerIp
  have hfits : responseLength rawResp < 256 ^ 2 := by omega
  have htotalField : ofBE (window (responsePacket rawResp localIp dnsServerIp) 2 2) =
      (responsePacket rawResp localIp dnsServerIp).length := by
    rw [hlength, ofBE_toBE_of_lt hfits, hlen]
  have hflagsField :
      ofBE (window (responsePacket rawResp localIp dnsServerIp) 6 2) % 2 ^ 14 = 0 := by
    rw [hflags]
    decide
  have hheader := onesSum_header rawResp localIp dnsServerIp
  have hudp := onesSum_segment rawResp localIp dnsServerIp (by omega)
  have hudpLength : responseLength rawResp - 20 = 8 + (rawResp.drop 2).length := by omega
  refine ⟨_, hok, by omega, ?_, htotalField, ?_, hheader, ?_, ?_⟩
  · rw [hudpLength] at hudp
    exact receive_of_carries hcarries (by omega) htotalField hflagsField hheader hudp
  · rw [hcarries.length, hlen, hudpLength]
  · rw [hlen]
    exact hudp
  · intro data hdata
    have hshort := length_of_mem_checksummed localIp dnsServerIp (by omega) hdata
    exact ⟨sumWords_take_lt hshort, folds_foldCarry (foldCarry_le (sumWords_lt hshort))⟩

/-- An answer of three bytes, an odd payload, for port 0x1234. -/
theorem buildDNSResponse_received_odd :
    ∃ packet, buildDNSResponse [0x12, 0x34, 0xab] (.four 10 0 6 2) (.four 10 0 6 1) = .ok packet ∧
      packet.length = 29 ∧ (receive packet).map (·.payload) = some [0xab] := by
  obtain ⟨packet, hok, hlen, hreceive, -⟩ := buildDNSResponse_received [0x12, 0x34, 0xab]
    (.four 10 0 6 2) (.four 10 0 6 1) (by decide) (by decide)
  refine ⟨packet, hok, hlen, ?_⟩
  rw [hreceive]
  rfl

end EasyTun.Util
