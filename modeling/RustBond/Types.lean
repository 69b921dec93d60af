import Mathlib.Init

/-!
# `RustBond.Types`: the core types of the protocol

The types of `src/types.rs` and of the parts of `std::net` and `ipnet` that they are made
of. Addresses are the octet arrays that `std::net` stores. A prefix carries the bound on
its length, as `ipnet` only builds prefixes within it.

`RouteKey` is the triple `(Vni, Destination, NextHop)` by which the server and the client
identify a route.
-/

set_option autoImplicit false

namespace RustBond

/-- Virtual network identifier. -/
structure Vni where
  id : UInt32
deriving DecidableEq, Repr

structure Ipv4Addr where
  octets : Vector UInt8 4
deriving DecidableEq, Repr

structure Ipv6Addr where
  octets : Vector UInt8 16
deriving DecidableEq, Repr

inductive IpAddr where
  | v4 (addr : Ipv4Addr)
  | v6 (addr : Ipv6Addr)
deriving DecidableEq, Repr

/-- The remote address of a TCP connection. The server identifies a peer by it. -/
inductive SocketAddr where
  | v4 (ip : Ipv4Addr) (port : UInt16)
  | v6 (ip : Ipv6Addr) (port : UInt16) (flowinfo scopeId : UInt32)
deriving DecidableEq, Repr

/-- An IPv4 prefix. Host bits are kept as given. -/
structure Ipv4Net where
  addr : Ipv4Addr
  prefixLen : UInt8
  prefixLen_le : prefixLen ≤ 32
deriving DecidableEq

/-- An IPv6 prefix. Host bits are kept as given. -/
structure Ipv6Net where
  addr : Ipv6Addr
  prefixLen : UInt8
  prefixLen_le : prefixLen ≤ 128
deriving DecidableEq

inductive IpNet where
  | v4 (net : Ipv4Net)
  | v6 (net : Ipv6Net)
deriving DecidableEq

/-- `IpNet::new`. `none` stands for `PrefixLenError`. -/
def IpNet.new (ip : IpAddr) (prefixLen : UInt8) : Option IpNet :=
  match ip with
  | .v4 addr => if h : prefixLen ≤ 32 then some (.v4 ⟨addr, prefixLen, h⟩) else none
  | .v6 addr => if h : prefixLen ≤ 128 then some (.v6 ⟨addr, prefixLen, h⟩) else none

/-- Route update action. -/
inductive Action where
  | add
  | remove
deriving DecidableEq, Repr

inductive NextHopType where
  | standard
  | nat
  | loadBalancerTarget
deriving DecidableEq, Repr

/-- Route destination. -/
structure Destination where
  ipPrefix : IpNet
deriving DecidableEq

/-- `Destination::from_ipv4`, which panics on a longer prefix. -/
def Destination.fromIpv4 (addr : Ipv4Addr) (prefixLen : UInt8)
    (h : prefixLen ≤ 32 := by decide) : Destination :=
  ⟨.v4 ⟨addr, prefixLen, h⟩⟩

/-- Next hop of a route. -/
structure NextHop where
  targetAddress : Ipv6Addr
  targetVni : Option UInt32
  hopType : NextHopType
  natPortRangeFrom : UInt16
  natPortRangeTo : UInt16
deriving DecidableEq, Repr

/-- `NextHop::standard`. -/
def NextHop.standard (targetAddress : Ipv6Addr) : NextHop where
  targetAddress := targetAddress
  targetVni := none
  hopType := .standard
  natPortRangeFrom := 0
  natPortRangeTo := 0

/-- The triple that identifies a route. -/
abbrev RouteKey : Type := Vni × Destination × NextHop

/-- The destination `10.0.n.0/24` of the source's unit tests (`make_dest`). -/
def makeDest (n : UInt8) : Destination := .fromIpv4 ⟨#v[10, 0, n, 0]⟩ 24

/-- The next hop `2001:db8::n` of the source's unit tests (`make_hop`). -/
def makeHop (n : UInt8) : NextHop :=
  .standard ⟨#v[0x20, 0x01, 0x0d, 0xb8, 0, 0, 0, 0, 0, 0, 0, 0, 0, 0, 0, n]⟩

/-- The address `[::1]:port`, which the source's integration tests connect from. -/
def SocketAddr.loopback (port : UInt16) : SocketAddr :=
  .v6 ⟨#v[0, 0, 0, 0, 0, 0, 0, 0, 0, 0, 0, 0, 0, 0, 0, 1]⟩ port 0 0

/-- State of a connection as the peer task publishes it. -/
inductive ConnectionState where
  | connecting
  | helloSent
  | helloReceived
  | established
  | retry
  | closed
deriving DecidableEq, Repr

end RustBond
