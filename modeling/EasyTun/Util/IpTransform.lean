import EasyTun.Lib.Bytes

/-!
# Addresses (`net`, `net/netip`, `internal/util/ipTransform.go`)

Virtual addresses are `net.IP` values that are nil or have four bytes, as
`getIp` makes them. Endpoints are `netip.AddrPort` values, whose zero value has
an invalid address: `As4` panics on it, which is `none` here.

- `as4_isSome_of_isIPv4`: `As4` returns on IPv4 and IPv4-mapped addresses.
- `Endpoint`: the source of a datagram of an IPv4 peer. Its address is of that
  kind by construction (`Endpoint.isIPv4_addrPort`).
-/

namespace EasyTun.Util

open EasyTun.Lib

/-- `net.IP` as the server uses it for virtual addresses; `none` is nil. -/
abbrev IP := Option (ByteArr 4)

/-- `IpToKey` (ipTransform.go:10–18). -/
def ipToKey (ip : IP) : ByteArr 4 := ip.getD (.zero 4)

@[simp] theorem ipToKey_some (v : ByteArr 4) : ipToKey (some v) = v := rfl

/-! ## `netip` -/

/-- `netip.Addr`, without zones. -/
inductive Addr where
  /-- The zero value, no address at all. -/
  | zero
  | v4 (ip : ByteArr 4)
  | v6 (ip : ByteArr 16)
  deriving DecidableEq

/-- The first twelve bytes of an IPv4-mapped IPv6 address. -/
def mappedHead : Bytes := List.replicate 10 0 ++ [0xff, 0xff]

namespace Addr

/-- `addr.IsValid()`. -/
def isValid : Addr → Bool
  | .zero => false
  | .v4 _ | .v6 _ => true

/-- `addr.Is4In6()`. -/
def is4In6 : Addr → Bool
  | .v6 ip => ip.1.take 12 == mappedHead
  | .zero | .v4 _ => false

/-- `As4`; `none` where it panics. -/
def as4 : Addr → Option (ByteArr 4)
  | .v4 ip => some ip
  | .v6 ip => if (Addr.v6 ip).is4In6 then some (.ofBytes 4 (ip.1.drop 12)) else none
  | .zero => none

/-- IPv4, or IPv4 mapped into IPv6. -/
def isIPv4 (a : Addr) : Bool :=
  match a with
  | .v4 _ => true
  | .v6 ip => (Addr.v6 ip).is4In6
  | .zero => false

theorem as4_isSome_of_isIPv4 {a : Addr} (h : a.isIPv4 = true) : a.as4.isSome = true := by
  cases a with
  | zero => cases h
  | v4 ip => rfl
  | v6 ip =>
    have hmapped : (Addr.v6 ip).is4In6 = true := h
    rw [as4, if_pos hmapped]
    rfl

end Addr

/-- `netip.AddrPort`. -/
structure AddrPort where
  addr : Addr
  port : UInt16
  deriving DecidableEq

/-- The zero value, which `newClient` stores. -/
def AddrPort.zero : AddrPort := { addr := .zero, port := 0 }

/-- `addrPort.IsValid()`. -/
def AddrPort.isValid (a : AddrPort) : Bool := a.addr.isValid

/-- `UDPAddrPortToBytes` (ipTransform.go:21–28); `none` where `As4` panics. -/
def udpAddrPortToBytes (addr : AddrPort) (natType : UInt8) : Option Bytes :=
  addr.addr.as4.map fun ip => ip.1 ++ toBE 2 addr.port.toNat ++ [natType]

/-! ## Where datagrams come from -/

/-- The UDP source of an IPv4 peer. A dual-stack socket reports it as an
IPv4-mapped address. -/
structure Endpoint where
  ip : ByteArr 4
  mapped : Bool
  port : UInt16
  deriving DecidableEq

/-- `net.UDPAddr.AddrPort` of such a source. -/
def Endpoint.addrPort (e : Endpoint) : AddrPort :=
  { addr :=
      if e.mapped then .v6 ⟨mappedHead ++ e.ip.1, by rw [List.length_append, e.ip.2]; rfl⟩
      else .v4 e.ip
    port := e.port }

theorem Endpoint.isIPv4_addrPort (e : Endpoint) : e.addrPort.addr.isIPv4 = true := by
  obtain ⟨ip, mapped, port⟩ := e
  cases mapped with
  | false => rfl
  | true =>
    show ((mappedHead ++ ip.1).take 12 == mappedHead) = true
    have htake : (mappedHead ++ ip.1).take mappedHead.length = mappedHead := List.take_left
    rw [show (12 : Nat) = mappedHead.length from rfl, htake]
    exact beq_self_eq_true _

/-- `As4` of such a source. -/
theorem Endpoint.as4_addrPort (e : Endpoint) : e.addrPort.addr.as4 = some e.ip := by
  unfold Endpoint.addrPort
  split
  · -- the last four bytes of the mapped address
    have htake : (mappedHead ++ e.ip.1).take 12 = mappedHead := List.take_left' rfl
    have hdrop : (mappedHead ++ e.ip.1).drop 12 = e.ip.1 := List.drop_left' rfl
    simp only [Addr.as4, Addr.is4In6, htake, hdrop, beq_self_eq_true, if_true]
    refine congrArg some ?_
    have hip := ByteArr.ofBytes_append e.ip []
    rwa [List.append_nil] at hip
  · rfl

end EasyTun.Util
