import EasyTun.Transport.ClientSend
import EasyTun.Transport.Hub
import EasyTun.Util.Dns

/-!
# DNS through the tunnel (`server_dns.go`, and the DNS branches of both ends)

An application's query goes to the virtual DNS server. The client sends the UDP
source port of the query in front of the DNS message, the server answers with a
`TypeDnsResponse`, and the client takes the port from the first two bytes of the
answer. That the two bytes are there is a convention between four functions.

The DNS library is a parameter (`DnsLib`): whatever it unpacks and packs.

- `buildDnsResponse_ok`: the two ways in which the server succeeds. **Only the one for
  a known name puts the port in front.**
- `answers_return`: an answer goes to the port that asked, with the complete message, **if
  and only if** the name is in the table.
- `answer_of_unknown`: what becomes of an answer for any other name. The first two
  bytes of the message, its identifier, are taken for the port.
-/

namespace EasyTun.Transport

open EasyTun.Lib EasyTun.Util EasyTun.Protocol EasyTun.Protocol.GamePacket
open EasyTun.Lib.NoiseIK

/-! ## The server -/

/-- The DNS library, as `buildDnsResponse` uses it. -/
structure DnsLib where
  Msg : Type
  RR : Type
  /-- `Unpack` of a message with these bytes. -/
  unpack : Bytes → Option Msg
  /-- The names in `Question`. -/
  question : Msg → List Bytes
  /-- `Copy` and `dnsutil.SetReply`. -/
  setReply : Msg → Msg
  setAuthoritative : Msg → Msg
  /-- `Rcode = dns.RcodeNameError`. -/
  setNameError : Msg → Msg
  appendAnswer : Msg → RR → Msg
  /-- `dns.New`. -/
  new : Bytes → Option RR
  /-- `Pack`, and `Data` after it. -/
  pack : Msg → Option Bytes

/-- How `buildDnsResponse` fails: with its own two errors or with one of the
library. -/
inductive DnsError where
  | packetTooShort
  | parseDNSError
  | unpack
  | pack
  deriving DecidableEq

/-- `strings.Replace(s, old, "", 1)`. -/
def removeFirst (old : Bytes) : Bytes → Bytes
  | [] => []
  | b :: rest =>
    if old.isPrefixOf (b :: rest) then (b :: rest).drop old.length
    else b :: removeFirst old rest

/-- `".et"`. -/
def domain : Bytes := [0x2e, 0x65, 0x74]

/-- `getDns` (server_dns.go:45–53). -/
def getDns (dnsMap : Map Bytes IP) (hostname domain : Bytes) : IP :=
  (dnsMap.lookup (removeFirst (domain ++ [0x2e]) hostname)).getD none

/-- `net.IP.String` of four bytes. -/
def ipString (ip : ByteArr 4) : Bytes :=
  ((ip.1.map fun b => itoa b.toNat).intersperse [0x2e]).flatten

/-- The record `dns.New` is asked for (server_dns.go:81). -/
def recordText (hostname : Bytes) (ip : ByteArr 4) : Bytes :=
  hostname ++ " 60 IN A ".toUTF8.data.toList ++ ipString ip

/-- `buildDnsResponse` (server_dns.go:55–91). -/
def buildDnsResponse (D : DnsLib) (dnsMap : Map Bytes IP) (r : Bytes) : Except DnsError Bytes :=
  if r.length < 2 then .error .packetTooShort
  else
    match D.unpack (r.drop 2) with
    | none => .error .unpack
    | some msg =>
      match D.question msg with
      | [] => .error .parseDNSError
      | hostname :: _ =>
        let msgResp := D.setAuthoritative (D.setReply msg)
        match getDns dnsMap hostname domain with
        | none =>
          match D.pack (D.setNameError msgResp) with
          | none => .error .pack
          | some data => .ok data
        | some ip =>
          match D.new (recordText hostname ip) with
          | none => .error .parseDNSError
          | some rr =>
            match D.pack (D.appendAnswer msgResp rr) with
            | none => .error .pack
            | some data => .ok (r.take 2 ++ data)

/-- The packet the server sends back (server_udp.go:107). -/
def dnsReply (src : ByteArr 4) (dnsResp : Bytes) : GamePacket :=
  newGamePacket (.zero 4) src typeDnsResponse (some dnsResp)

/-! ## The client -/

/-- The `TypeDnsResponse` branch of `packetRecv` (client_udp.go:210–221): the packet
it gives to `SendDNS`. -/
def recvDns (cfg : ClientConfig) (gp : GamePacket) : Option Bytes :=
  if clearCompress gp.pType = typeDnsResponse then
    (buildDNSResponse gp.data cfg.localIp cfg.dnsIp).toOption
  else none

/-- What a datagram injects into the TUN device as a DNS answer. -/
def injected (N : Ops Bytes) (A : Aead Key) (L : Lz4) (cfg : ClientConfig) (m : NoiseManager)
    (pool : Pool) (datagram : Bytes) (eph : Nat) (now : Int) (room : Bool) : Option Bytes :=
  match packetRecv N A L m pool cfg.localIp datagram eph now room with
  | (_, _, .control gp) => recvDns cfg gp
  | _ => none

/-! ## What the server packs -/

/-- The name a request asks for. -/
def asked (D : DnsLib) (r : Bytes) : Option Bytes :=
  (D.unpack (r.drop 2)).bind fun msg => (D.question msg).head?

/-- The table has an address for the name that is asked for. -/
def KnownName (D : DnsLib) (dnsMap : Map Bytes IP) (r : Bytes) : Prop :=
  ∃ hostname ∈ asked D r, getDns dnsMap hostname domain ≠ none

instance (D : DnsLib) (dnsMap : Map Bytes IP) (r : Bytes) : Decidable (KnownName D dnsMap r) :=
  inferInstanceAs (Decidable (∃ _ ∈ _, _))

/-- `m` is the packed reply to the request: an answer with the address of the name
in the table, or a name error. -/
def PackedReply (D : DnsLib) (dnsMap : Map Bytes IP) (r m : Bytes) : Prop :=
  ∃ msg hostname, D.unpack (r.drop 2) = some msg ∧ asked D r = some hostname ∧
    match getDns dnsMap hostname domain with
    | none => D.pack (D.setNameError (D.setAuthoritative (D.setReply msg))) = some m
    | some ip => ∃ rr, D.new (recordText hostname ip) = some rr ∧
        D.pack (D.appendAnswer (D.setAuthoritative (D.setReply msg)) rr) = some m

/-- **What a success of `buildDnsResponse` is.** -/
theorem buildDnsResponse_ok {D : DnsLib} {dnsMap : Map Bytes IP} {r resp : Bytes}
    (h : buildDnsResponse D dnsMap r = .ok resp) :
    ∃ m, PackedReply D dnsMap r m ∧
      ((KnownName D dnsMap r ∧ resp = r.take 2 ++ m) ∨ (¬KnownName D dnsMap r ∧ resp = m)) := by
  unfold buildDnsResponse at h
  split at h
  · cases h
  · cases hmsg : D.unpack (r.drop 2) with
    | none =>
      rw [hmsg] at h
      cases h
    | some msg =>
      rw [hmsg] at h
      simp only at h
      cases hq : D.question msg with
      | nil =>
        rw [hq] at h
        cases h
      | cons hostname rest =>
        have hasked : asked D r = some hostname := by
          rw [asked, hmsg, Option.bind_some, hq]
          rfl
        rw [hq] at h
        simp only at h
        cases hip : getDns dnsMap hostname domain with
        | none =>
          rw [hip] at h
          simp only at h
          split at h
          · cases h
          · next m hm =>
            cases h
            refine ⟨_, ⟨msg, hostname, hmsg, hasked, ?_⟩, Or.inr ⟨?_, rfl⟩⟩
            · rw [hip]
              exact hm
            · rintro ⟨name, hname, hne⟩
              rw [hasked] at hname
              cases hname
              exact hne hip
        | some ip =>
          rw [hip] at h
          simp only at h
          split at h
          · cases h
          · next rr hrr =>
            split at h
            · cases h
            · next m hm =>
              cases h
              refine ⟨m, ⟨msg, hostname, hmsg, hasked, ?_⟩, Or.inl ⟨⟨hostname, hasked, ?_⟩, rfl⟩⟩
              · rw [hip]
                exact ⟨rr, hrr, hm⟩
              · rw [hip]
                exact nofun

/-! ## From the server to the application -/

section Back

variable (N : Ops Bytes) (A : Aead Key) (L : Lz4) (cfg : ClientConfig) (m : NoiseManager)
  (pool : Pool) (eph : Nat) (now : Int) (room : Bool)

/-- An answer that is too large is not sent. -/
theorem encodePacket_dnsReply {src : ByteArr 4} {dnsResp w : Bytes}
    (h : ((dnsReply src dnsResp).encodePacket A L pool false false none).1.wire = some w) :
    dnsResp.length ≤ maxPayloadSize ∧ w = clearWire (.zero 4) src typeDnsResponse dnsResp := by
  by_cases hmax : dnsResp.length ≤ maxPayloadSize
  · have hwire := encodePacket_clear A L .empty (.zero 4) src typeDnsResponse pool false hmax
    exact ⟨hmax, Option.some.inj (h.symm.trans hwire)⟩
  · have hnone : payloadLengthField (dnsReply src dnsResp).data.length = none :=
      if_pos (Nat.lt_of_not_le hmax)
    rw [encodePacket, hnone] at h
    cases h

/-- The client injects what `BuildDNSResponse` makes of an answer, whatever its state. -/
theorem injected_clearWire {dnsResp : Bytes} (hmax : dnsResp.length ≤ maxPayloadSize) :
    injected N A L cfg m pool (clearWire (.zero 4) cfg.localIp typeDnsResponse dnsResp) eph now
      room = (buildDNSResponse dnsResp cfg.localIp cfg.dnsIp).toOption := by
  obtain ⟨raw, pool₁, hparse⟩ := parsePacket_clear A .empty pool (.zero 4) cfg.localIp
    typeDnsResponse rfl hmax
  have htype : clearCompress typeDnsResponse ≠ typeData := by decide
  have hdns : clearCompress typeDnsResponse = typeDnsResponse := by decide
  rw [injected, packetRecv_control hparse htype]
  exact if_pos hdns

/-- **An answer on its way back**: the client injects a datagram for the port in the first two
bytes, with the rest as its payload. -/
theorem injected_dnsReply {dnsResp : Bytes} (h2 : 2 ≤ dnsResp.length)
    (hmax : dnsResp.length ≤ maxPayloadSize) :
    ∃ packet, injected N A L cfg m pool (clearWire (.zero 4) cfg.localIp typeDnsResponse dnsResp)
        eph now room = some packet ∧
      Carries packet cfg.dnsIp cfg.localIp 53 (ofBE (dnsResp.take 2)) (dnsResp.drop 2) := by
  have hfits : 8 + (dnsResp.drop 2).length < 2 ^ 16 := by
    rw [List.length_drop]
    unfold maxPayloadSize maxLengthField authenticationTagLength at hmax
    omega
  obtain ⟨packet, hbuild, hcarries⟩ := buildDNSResponse_ok cfg.localIp cfg.dnsIp h2 hfits
  refine ⟨packet, ?_, hcarries⟩
  rw [injected_clearWire N A L cfg m pool eph now room hmax, hbuild]
  rfl

/-- Whatever is injected for an answer does not have the whole answer as its payload. -/
theorem not_injected_whole {dnsResp packet : Bytes} {port : Nat}
    (hmax : dnsResp.length ≤ maxPayloadSize)
    (hinj : injected N A L cfg m pool (clearWire (.zero 4) cfg.localIp typeDnsResponse dnsResp)
      eph now room = some packet) :
    ¬Carries packet cfg.dnsIp cfg.localIp 53 port dnsResp := by
  intro hcarries
  by_cases h2 : 2 ≤ dnsResp.length
  · obtain ⟨packet', hinj', hcarries'⟩ := injected_dnsReply N A L cfg m pool eph now room h2 hmax
    cases hinj.symm.trans hinj'
    have hpayload := congrArg List.length (hcarries.payload.symm.trans hcarries'.payload)
    rw [List.length_drop] at hpayload
    omega
  · -- `BuildDNSResponse` fails
    rw [injected_clearWire N A L cfg m pool eph now room hmax, buildDNSResponse,
      if_pos (Nat.lt_of_not_le h2)] at hinj
    cases hinj

end Back

/-- The answer for a known name is injected for the port that asked, with the whole message. -/
theorem injected_known (N : Ops Bytes) (A : Aead Key) (L : Lz4) (cfg : ClientConfig)
    (m : NoiseManager) (pool : Pool) (eph : Nat) (now : Int) (room : Bool) {p msg : Bytes}
    (hmax : ((dnsRequest p).take 2 ++ msg).length ≤ maxPayloadSize) :
    ∃ packet, injected N A L cfg m pool (clearWire (.zero 4) cfg.localIp typeDnsResponse
        ((dnsRequest p).take 2 ++ msg)) eph now room = some packet ∧
      Carries packet cfg.dnsIp cfg.localIp 53 (ofBE (window p (ihl p) 2)) msg := by
  -- the request begins with the source port, and so does the answer
  have hport : (dnsRequest p).take 2 = toBE 2 (ofBE (window p (ihl p) 2)) :=
    List.take_left' (length_toBE ..)
  rw [hport] at hmax ⊢
  have h2 : 2 ≤ (toBE 2 (ofBE (window p (ihl p) 2)) ++ msg).length := by
    rw [List.length_append, length_toBE]
    exact Nat.le_add_right ..
  obtain ⟨packet, hinj, hcarries⟩ := injected_dnsReply N A L cfg m pool eph now room h2 hmax
  refine ⟨packet, hinj, ?_⟩
  have hlt : ofBE (window p (ihl p) 2) < 256 ^ 2 := by
    refine Nat.lt_of_lt_of_le (ofBE_lt _) (Nat.pow_le_pow_right (by decide) ?_)
    exact List.length_take_le ..
  rw [List.take_left' (length_toBE ..), List.drop_left' (length_toBE ..),
    ofBE_toBE_of_lt hlt] at hcarries
  exact hcarries

/-- **An answer returns to the port that asked if and only if the name is known.** Let
`buildDnsResponse` succeed on the request for a query `p`, with the packed message `msg`. The
answer is sent unless it is too large to be encoded. The packet that it then injects into the TUN
device, in any state of the client, is a UDP datagram for the source port of `p` with the complete
message as its payload, if and only if the table has an address for the name. -/
theorem answers_return (D : DnsLib) (dnsMap : Map Bytes IP) (cfg : ClientConfig) {p resp : Bytes}
    (hresp : buildDnsResponse D dnsMap (dnsRequest p) = .ok resp) :
    ∃ msg, PackedReply D dnsMap (dnsRequest p) msg ∧
      ∀ (N : Ops Bytes) (A : Aead Key) (L : Lz4) (m : NoiseManager) (pool pool' : Pool) (eph : Nat)
        (now : Int) (room : Bool),
        let wire := ((dnsReply cfg.localIp resp).encodePacket A L pool false false none).1.wire
        (wire.isSome = true ↔ resp.length ≤ maxPayloadSize) ∧
        ∀ w, wire = some w →
          ((∃ packet, injected N A L cfg m pool' w eph now room = some packet ∧
            Carries packet cfg.dnsIp cfg.localIp 53 (ofBE (window p (ihl p) 2)) msg) ↔
          KnownName D dnsMap (dnsRequest p)) := by
  obtain ⟨msg, hmsg, hcase⟩ := buildDnsResponse_ok hresp
  refine ⟨msg, hmsg, fun N A L m pool pool' eph now room => ⟨⟨fun hsome => ?_, fun hmax => ?_⟩, ?_⟩⟩
  · obtain ⟨w, hw⟩ := Option.isSome_iff_exists.mp hsome
    exact (encodePacket_dnsReply A L pool hw).1
  · have hwire := encodePacket_clear A L .empty (.zero 4) cfg.localIp typeDnsResponse pool false
      hmax
    exact Option.isSome_of_mem hwire
  · intro w hw
    obtain ⟨hmax, rfl⟩ := encodePacket_dnsReply A L pool hw
    rcases hcase with ⟨hknown, rfl⟩ | ⟨hunknown, rfl⟩
    · exact ⟨fun _ => hknown, fun _ => injected_known N A L cfg m pool' eph now room hmax⟩
    · refine ⟨?_, fun hknown => absurd hknown hunknown⟩
      rintro ⟨packet, hinj, hcarries⟩
      exact absurd hcarries (not_injected_whole N A L cfg m pool' eph now room hmax hinj)

/-- **The answer for an unknown name**: the first two bytes of the message are taken
for the port, and the rest for the message. -/
theorem answer_of_unknown (D : DnsLib) (dnsMap : Map Bytes IP) (cfg : ClientConfig) {r resp : Bytes}
    (hresp : buildDnsResponse D dnsMap r = .ok resp) (hunknown : ¬KnownName D dnsMap r)
    (h2 : 2 ≤ resp.length) (N : Ops Bytes) (A : Aead Key) (L : Lz4) (m : NoiseManager)
    (pool pool' : Pool) (eph : Nat) (now : Int) (room : Bool) {w : Bytes}
    (hw : ((dnsReply cfg.localIp resp).encodePacket A L pool false false none).1.wire = some w) :
    PackedReply D dnsMap r resp ∧
      ∃ packet, injected N A L cfg m pool' w eph now room = some packet ∧
        Carries packet cfg.dnsIp cfg.localIp 53 (ofBE (resp.take 2)) (resp.drop 2) := by
  obtain ⟨msg, hmsg, ⟨hknown, -⟩ | ⟨-, rfl⟩⟩ := buildDnsResponse_ok hresp
  · exact absurd hknown hunknown
  · obtain ⟨hmax, rfl⟩ := encodePacket_dnsReply A L pool hw
    exact ⟨hmsg, injected_dnsReply N A L cfg m pool' eph now room h2 hmax⟩

/-! ## Two queries -/

section TwoQueries

open PacketSend (caseConfig caseQuery)

/-- The labels of a name on the wire as text, each with a dot after it. -/
def labelsText : Nat → Bytes → Bytes
  | 0, _ => []
  | _, [] => []
  | fuel + 1, n :: rest =>
    if n = 0 then []
    else rest.take n.toNat ++ [0x2e] ++ labelsText fuel (rest.drop n.toNat)

/-- A message with one question. -/
structure CaseMsg where
  id : Bytes
  flags : UInt8 × UInt8
  question : Bytes
  answers : List Bytes

/-- The four bytes of a dotted address. -/
def dotted (text : Bytes) : Bytes :=
  (text.splitOn 0x2e).map fun part => part.foldl (fun acc b => acc * 10 + (b - 0x30)) 0

/-- A DNS library for messages with one question and answers with one address. -/
def caseDns : DnsLib where
  Msg := CaseMsg
  RR := Bytes
  unpack d :=
    if d.length < 12 then none
    else some
      { id := d.take 2
        flags := (d.getD 2 0, d.getD 3 0)
        question := d.drop 12
        answers := [] }
  question msg := [labelsText msg.question.length msg.question]
  setReply msg := { msg with flags := (msg.flags.1 ||| 0x80, msg.flags.2) }
  setAuthoritative msg := { msg with flags := (msg.flags.1 ||| 0x04, msg.flags.2) }
  setNameError msg := { msg with flags := (msg.flags.1, msg.flags.2 ||| 3) }
  appendAnswer msg rr := { msg with answers := msg.answers ++ [rr] }
  new text := ((text.splitOn 0x20).getLast?).map fun ip =>
    [0xc0, 0x0c, 0, 1, 0, 1, 0, 0, 0, 60, 0, 4] ++ dotted ip
  pack msg := some (msg.id ++ [msg.flags.1, msg.flags.2] ++ [0, 1] ++ toBE 2 msg.answers.length ++
    [0, 0, 0, 0] ++ msg.question ++ msg.answers.flatten)

/-- The table with `pc` at 10.0.6.3. -/
def caseTable : Map Bytes IP := AList.insert [0x70, 0x63] (some (.four 10 0 6 3)) ∅

/-- The answer the server builds when it knows `pc`. -/
def caseAnswer : Bytes :=
  [0xc0, 0x01, 0x12, 0x34, 0x85, 0, 0, 1, 0, 1, 0, 0, 0, 0, 2, 0x70, 0x63, 2, 0x65, 0x74, 0, 0, 1,
    0, 1, 0xc0, 0x0c, 0, 1, 0, 1, 0, 0, 0, 60, 0, 4, 10, 0, 6, 3]

/-- The answer the server builds when it does not. -/
def caseNameError : Bytes :=
  [0x12, 0x34, 0x85, 3, 0, 1, 0, 0, 0, 0, 0, 0, 2, 0x70, 0x63, 2, 0x65, 0x74, 0, 0, 1, 0, 1]

/-- The answer for a known name comes back to port 0xc001. -/
theorem answers_return_pc :
    (isDns caseConfig.dnsIp caseQuery = true ∧
      buildDnsResponse caseDns caseTable (dnsRequest caseQuery) = .ok caseAnswer ∧
      KnownName caseDns caseTable (dnsRequest caseQuery)) ∧
    ∃ msg, PackedReply caseDns caseTable (dnsRequest caseQuery) msg ∧
      ∃ packet, injected caseNoise caseCipher Lz4.stored caseConfig caseManager (.fresh 2048)
          (clearWire (.zero 4) caseConfig.localIp typeDnsResponse caseAnswer) 0 0 true
          = some packet ∧
        Carries packet caseConfig.dnsIp caseConfig.localIp 53 0xc001 msg := by
  have hresp : buildDnsResponse caseDns caseTable (dnsRequest caseQuery) = .ok caseAnswer := by
    decide +kernel
  have hknown : KnownName caseDns caseTable (dnsRequest caseQuery) := by decide +kernel
  refine ⟨⟨by decide, hresp, hknown⟩, ?_⟩
  obtain ⟨msg, hmsg, hback⟩ := answers_return caseDns caseTable caseConfig hresp
  refine ⟨msg, hmsg, ?_⟩
  obtain ⟨-, hreturns⟩ :=
    hback caseNoise caseCipher Lz4.stored caseManager (.fresh 2048) (.fresh 2048) 0 0 true
  have hmax : caseAnswer.length ≤ maxPayloadSize := by decide
  have hwire := encodePacket_clear caseCipher Lz4.stored .empty (.zero 4) caseConfig.localIp
    typeDnsResponse (.fresh 2048) false hmax
  exact (hreturns _ hwire).mpr hknown

/-- **The answer for an unknown name gets lost.** It goes to the port 0x1234, the
identifier of the message, and the message arrives without its first two bytes. -/
theorem unknown_name_misses_port :
    isDns caseConfig.dnsIp caseQuery = true ∧ ofBE (window caseQuery (ihl caseQuery) 2) = 0xc001 ∧
    buildDnsResponse caseDns ∅ (dnsRequest caseQuery) = .ok caseNameError ∧
    PackedReply caseDns ∅ (dnsRequest caseQuery) caseNameError ∧
    ∃ packet, injected caseNoise caseCipher Lz4.stored caseConfig caseManager (.fresh 2048)
        (clearWire (.zero 4) caseConfig.localIp typeDnsResponse caseNameError) 0 0 true
        = some packet ∧
      Carries packet caseConfig.dnsIp caseConfig.localIp 53 0x1234 (caseNameError.drop 2) := by
  have hresp : buildDnsResponse caseDns ∅ (dnsRequest caseQuery) = .ok caseNameError := by
    decide +kernel
  refine ⟨by decide, by decide, hresp, ?_⟩
  exact answer_of_unknown caseDns ∅ caseConfig hresp (by decide +kernel) (by decide) caseNoise
    caseCipher Lz4.stored caseManager (.fresh 2048) (.fresh 2048) 0 0 true
    (encodePacket_clear caseCipher Lz4.stored .empty (.zero 4) caseConfig.localIp typeDnsResponse
      (.fresh 2048) false (by decide))

end TwoQueries

end EasyTun.Transport
