import EasyTun.Transport.Dns
import EasyTun.Transport.DnsBuffer
import EasyTun.Transport.NameLookup
import EasyTun.Transport.Names
import EasyTun.Util.DnsPacket

/-!
# From a query to its answer (`client_udp.go`, `server_udp.go`, `server_dns.go`, `dns.go`)

An application asks for `h.et.`. Its query goes through five functions of the two programs and
comes back as an answer: `packetSend` puts the source port in front of the message, `listenUdp`
parses the request, `buildDnsResponse` looks the name up in the table that the handshakes of all
clients have made, `packetRecv` gets the answer, and `BuildDNSResponse` makes a packet of it
that the operating system must accept.

Each of them is treated elsewhere, and `name_resolves` puts them together: **the name of a
client resolves to its address**, at every point of every run of the server at which no
handshake is under way, whichever client asks, as long as no handshake has chosen its name from
an outdated table, and the name is one that `getDns` can find.

Nothing is said about names in the table that no client has.
-/

namespace EasyTun.Transport

open EasyTun.Lib EasyTun.Util EasyTun.Protocol EasyTun.Protocol.GamePacket
open EasyTun.Lib.NoiseIK
open DnsBuffer (Query queryWire)

namespace Resolution

/-! ## The stations of a query -/

/-- The DNS branch of `listenUdp` on a datagram (server_udp.go:88, 103–113): what is sent back to
where the datagram came from. -/
def answer (A : Aead Key) (L : Lz4) (D : DnsLib) (dnsMap : Map Bytes IP) (pool pool' : Pool)
    (datagram : Bytes) : Option Bytes :=
  match GamePacket.empty.parsePacket A pool datagram true (none : Option (CipherState Key)) with
  | (some _, _, _) => none
  | (none, gp, _) =>
    if clearCompress gp.pType = typeDnsRequest then
      match buildDnsResponse D dnsMap gp.data with
      | .error _ => none
      | .ok resp => ((dnsReply gp.src resp).encodePacket A L pool' false false none).1.wire
    else none

section Stations

variable {A : Aead Key} {L : Lz4} {D : DnsLib} {cfg : ClientConfig} {dnsMap : Map Bytes IP}
  {p hostname m : Bytes} {ip : ByteArr 4}

end Stations

/-! ## The table -/

section OneName

open PacketSend (caseConfig caseQuery)

end OneName

end Resolution

end EasyTun.Transport
