import EasyTun.Lib.Machine
import EasyTun.Lib.Bytes
import EasyTun.Lib.Slice
import EasyTun.Lib.Maps
import EasyTun.Lib.PairMap
import EasyTun.Lib.Memory
import EasyTun.Lib.Tokens
import EasyTun.Lib.Registry
import EasyTun.Lib.Ledger
import EasyTun.Lib.Aead
import EasyTun.Lib.ChaCha20Poly1305
import EasyTun.Lib.NoiseIK
import EasyTun.Lib.Ipv4
import EasyTun.Lib.Network
import EasyTun.Lib.Chan
import EasyTun.Lib.Progress
import EasyTun.Lib.Custody
import EasyTun.Util.Format
import EasyTun.Util.IpTransform
import EasyTun.Util.Dns
import EasyTun.Util.DnsPacket
import EasyTun.Protocol.Cipher
import EasyTun.Protocol.Packet
import EasyTun.Protocol.Compress
import EasyTun.Protocol.Codec
import EasyTun.Protocol.RoundTrip
import EasyTun.Protocol.Probe
import EasyTun.Protocol.Grammar
import EasyTun.Protocol.ParseBuffers
import EasyTun.Protocol.Noise
import EasyTun.Protocol.Table
import EasyTun.Protocol.Received
import EasyTun.Protocol.Pending
import EasyTun.Protocol.ClosingQueue
import EasyTun.Protocol.Views
import EasyTun.Protocol.Pairing
import EasyTun.Protocol.Workers
import EasyTun.Protocol.Nonces
import EasyTun.Protocol.Crossing
import EasyTun.Protocol.Renewal
import EasyTun.Stun.Tunnels
import EasyTun.Stun.Pairs
import EasyTun.Transport.ClientRecv
import EasyTun.Transport.ClientSend
import EasyTun.Transport.KeepAlive
import EasyTun.Transport.ControlRecv
import EasyTun.Transport.FirstPacket
import EasyTun.Transport.Reconnect
import EasyTun.Transport.P2PRoutes
import EasyTun.Transport.Handshake
import EasyTun.Transport.Router
import EasyTun.Transport.Hub
import EasyTun.Transport.Addresses
import EasyTun.Transport.Routes
import EasyTun.Transport.Names
import EasyTun.Transport.NameLookup
import EasyTun.Transport.Identity
import EasyTun.Transport.Binding
import EasyTun.Transport.Server
import EasyTun.Transport.Commands
import EasyTun.Transport.TunnelMoves
import EasyTun.Transport.TunnelOwners
import EasyTun.Transport.PunchAttempts
import EasyTun.Transport.StuckTunnels
import EasyTun.Transport.Dns
import EasyTun.Transport.DnsBuffer
import EasyTun.Transport.Buffers
import EasyTun.Transport.Ownership
import EasyTun.Transport.RelayWorkers
import EasyTun.Transport.Integrity
import EasyTun.Transport.Broadcast
import EasyTun.Transport.DirectPath
import EasyTun.Transport.HolePunching
import EasyTun.Transport.Goroutines
import EasyTun.Transport.Session
import EasyTun.Transport.Enrollment
import EasyTun.Transport.ControlMail
import EasyTun.Transport.Tunnel
import EasyTun.Transport.Resolution
import EasyTun.Transport.Connection
import EasyTun.Transport.PunchWalk
import EasyTun.Transport.ClientBuffers
import EasyTun.Transport.ClientCustody
import EasyTun.Tun.Devices
import EasyTun.Tun.Batches
