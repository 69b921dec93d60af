import Mathlib.Data.List.Basic
import RustBond.Wire.Conversions

/-!
# `RustBond.Netlink.Kernel`: route messages and the kernel that answers them

The messages of `netlink_packet_route` as far as `src/netlink.rs` builds and reads them, and
what it relies on of the kernel. The kernel has a list of routes, in the order of its dumps. An
id of a table has 32 bits, but the header of a message has one byte for it. So the kernel gives
the id in an attribute, and where it does not fit, the byte is `RT_TABLE_COMPAT`.

A `Kernel` says under which destination a route is stored, and whether a dump shows it.
`linux` is the one that the source talks to. A request for table 0 (`RT_TABLE_UNSPEC`) goes to the
main table, and one without a priority gets that of its family. A route is not added where there
is one already: for the same table and destination one of MetalBond, or one of any protocol with
the same type of service and priority, as `NLM_F_EXCL` has it. A message to delete a route is one
of a dump, and deletes the first route with this message.
-/

set_option autoImplicit false

namespace RustBond

/-! ### Host bits -/

/-- The first `bits` of eight bits. -/
def maskByte (bits : Nat) : UInt8 := if 8 ≤ bits then 255 else UInt8.ofNat (256 - 2 ^ (8 - bits))

/-- The octets of an address without the bits after `prefixLen`. -/
def maskOctets {n : Nat} (prefixLen : Nat) (octets : Vector UInt8 n) : Vector UInt8 n :=
  Vector.ofFn fun i => octets[i] &&& maskByte (prefixLen - 8 * i)

/-- An address that has been masked stays as it is. -/
theorem maskOctets_maskOctets {n : Nat} (prefixLen : Nat) (octets : Vector UInt8 n) :
    maskOctets prefixLen (maskOctets prefixLen octets) = maskOctets prefixLen octets := by
  ext i hi
  simp [maskOctets, UInt8.and_assoc]

/-- The prefix without its host bits. -/
def IpNet.trunc : IpNet → IpNet
  | .v4 net => .v4 { net with addr := ⟨maskOctets net.prefixLen.toNat net.addr.octets⟩ }
  | .v6 net => .v6 { net with addr := ⟨maskOctets net.prefixLen.toNat net.addr.octets⟩ }

/-- A network that has been truncated stays as it is. -/
theorem IpNet.trunc_trunc (net : IpNet) : trunc (trunc net) = trunc net := by
  cases net <;> simp [trunc, maskOctets_maskOctets]

namespace Netlink

/-! ### Messages -/

/-- `METALBOND_RT_PROTO`. -/
def metalbondRtProto : UInt8 := 254

/-- `RT_TABLE_COMPAT`, for a table whose id is not a byte. -/
def rtTableCompat : UInt8 := 252

/-- `RT_TABLE_MAIN`. -/
def rtTableMain : UInt8 := 254

/-- `RTPROT_STATIC`. -/
def rtprotStatic : UInt8 := 4

/-- The table that the kernel takes for an id in a request. `RT_TABLE_UNSPEC` is the main one. -/
def kernelTable (id : UInt32) : UInt32 := if id = 0 then rtTableMain.toUInt32 else id

/-- The priority of a route that is requested without one. It is `IP6_RT_PRIO_USER` in IPv6. -/
def defaultPriority : IpNet → UInt32
  | .v4 _ => 0
  | .v6 _ => 1024

inductive AddressFamily where
  | inet
  | inet6
deriving DecidableEq, Repr

inductive RouteAddress where
  | inet (addr : Ipv4Addr)
  | inet6 (addr : Ipv6Addr)
  | other (bytes : List UInt8)
deriving DecidableEq

/-- The attributes that are read. `other` stands for the rest of them. -/
inductive RouteAttribute where
  | destination (addr : RouteAddress)
  | gateway (addr : RouteAddress)
  | oif (index : UInt32)
  | priority (metric : UInt32)
  | table (id : UInt32)
  | other (kind : UInt16) (value : List UInt8)
deriving DecidableEq

structure RouteHeader where
  addressFamily : AddressFamily
  destinationPrefixLength : UInt8
  tos : UInt8
  table : UInt8
  protocol : UInt8
deriving DecidableEq

structure RouteMessage where
  header : RouteHeader
  attributes : List RouteAttribute
deriving DecidableEq

namespace RouteAttribute

def tableId : RouteAttribute → Option UInt32
  | table id => some id
  | _ => none

def destinationAddr : RouteAttribute → Option RouteAddress
  | destination addr => some addr
  | _ => none

def gatewayAddr : RouteAttribute → Option Ipv6Addr
  | gateway (.inet6 addr) => some addr
  | _ => none

def oifIndex : RouteAttribute → Option UInt32
  | oif index => some index
  | _ => none

def priorityMetric : RouteAttribute → Option UInt32
  | priority metric => some metric
  | _ => none

end RouteAttribute

/-- A route as the kernel has it. The table is its id. The kernel tells routes to one destination
apart by the type of service and the priority. -/
structure KernelRoute where
  table : UInt32
  protocol : UInt8
  dest : IpNet
  tos : UInt8
  priority : UInt32
  gateway : Option Ipv6Addr
  outputInterface : Option UInt32
deriving DecidableEq

namespace RouteMessage

/-! The builder of `rtnetlink` for a new route. -/

/-- `route().add()`, for an address family. -/
def add (family : AddressFamily) : RouteMessage where
  header :=
    { addressFamily := family
      destinationPrefixLength := 0
      tos := 0
      table := rtTableMain
      protocol := rtprotStatic }
  attributes := []

def push (route : RouteMessage) (attr : RouteAttribute) : RouteMessage :=
  { route with attributes := route.attributes ++ [attr] }

def destinationPrefix (route : RouteMessage) (addr : RouteAddress) (prefixLen : UInt8) :
    RouteMessage :=
  { route with header.destinationPrefixLength := prefixLen }.push (.destination addr)

/-- `table_id`: an id that is a byte goes to the header. -/
def tableId (route : RouteMessage) (table : UInt32) : RouteMessage :=
  if 255 < table then route.push (.table table)
  else { route with header.table := table.toUInt8 }

def withProtocol (route : RouteMessage) (protocol : UInt8) : RouteMessage :=
  { route with header.protocol := protocol }

/-! What the kernel makes of it. -/

/-- The id of the table: that of the attribute, and the byte of the header if there is none. -/
def realTable (route : RouteMessage) : UInt32 :=
  (route.attributes.findSome? RouteAttribute.tableId).getD route.header.table.toUInt32

/-- The destination that a request names. -/
def dest (request : RouteMessage) : Option IpNet :=
  match request.attributes.findSome? RouteAttribute.destinationAddr with
  | some (.inet addr) => IpNet.new (.v4 addr) request.header.destinationPrefixLength
  | some (.inet6 addr) => IpNet.new (.v6 addr) request.header.destinationPrefixLength
  | _ => none

/-- The route that a request asks for, with this destination. -/
def toRoute (request : RouteMessage) (dest : IpNet) : KernelRoute where
  table := kernelTable request.realTable
  protocol := request.header.protocol
  dest := dest
  tos := request.header.tos
  priority := (request.attributes.findSome? RouteAttribute.priorityMetric).getD
    (defaultPriority dest)
  gateway := request.attributes.findSome? RouteAttribute.gatewayAddr
  outputInterface := request.attributes.findSome? RouteAttribute.oifIndex

end RouteMessage

/-! ### Destinations in messages -/

/-- The address family of the routes to a prefix. -/
def familyOf : IpNet → AddressFamily
  | .v4 _ => .inet
  | .v6 _ => .inet6

/-- The address of a prefix, as an attribute has it. -/
def addressOf : IpNet → RouteAddress
  | .v4 net => .inet net.addr
  | .v6 net => .inet6 net.addr

/-- A prefix is its address and its length. -/
theorem eq_of_addressOf {net net' : IpNet} (haddr : addressOf net = addressOf net')
    (hlen : net.prefixLen = net'.prefixLen) : net = net' := by
  cases net with
  | v4 net => cases net' with
    | v4 net' =>
      obtain ⟨addr, len, hle⟩ := net
      obtain ⟨addr', len', hle'⟩ := net'
      cases haddr
      cases hlen
      rfl
    | v6 net' => cases haddr
  | v6 net => cases net' with
    | v4 net' => cases haddr
    | v6 net' =>
      obtain ⟨addr, len, hle⟩ := net
      obtain ⟨addr', len', hle'⟩ := net'
      cases haddr
      cases hlen
      rfl

/-! ### The kernel -/

/-- Why the kernel refuses a request: `EEXIST`, `EINVAL` and `ESRCH`. -/
inductive Errno where
  | fileExists
  | invalidArgument
  | noSuchProcess
deriving DecidableEq, Repr

structure Kernel where
  /-- The destination that a route is stored with. `none` if it is refused. -/
  stores : IpNet → Option IpNet
  /-- Whether a dump has the destination. -/
  dumpsDest : IpNet → Bool
  /-- How `rtnetlink` prints what the kernel answers. -/
  describe : Errno → String
  stores_stored : ∀ {net net' : IpNet}, stores net = some net' → stores net' = some net'

/-- Host bits are refused in IPv4, and cut off in IPv6. A prefix of length zero is not shown. -/
def linux : Kernel where
  stores
    | .v4 net => if IpNet.trunc (.v4 net) = .v4 net then some (.v4 net) else none
    | .v6 net => some (IpNet.trunc (.v6 net))
  dumpsDest net := net.prefixLen != 0
  describe
    | .fileExists => "Received a netlink error message File exists (os error 17)"
    | .invalidArgument => "Received a netlink error message Invalid argument (os error 22)"
    | .noSuchProcess => "Received a netlink error message No such process (os error 3)"
  stores_stored := by
    intro net net' h
    cases net with
    | v4 net =>
      obtain ⟨hcanonical, h⟩ := Option.ite_none_right_eq_some.mp h
      cases h
      exact if_pos hcanonical
    | v6 net =>
      cases h
      exact congrArg some (IpNet.trunc_trunc (.v6 net))

/-- The kernel's list of routes, with at most one MetalBond route for a table and a
destination. -/
structure Fib where
  routes : List KernelRoute
  unique : routes.Pairwise fun r r' => r.protocol = metalbondRtProto →
    r'.protocol = metalbondRtProto → ¬ (r.table = r'.table ∧ r.dest = r'.dest)
deriving DecidableEq

namespace Fib

/-- Whether a route is there that keeps `route` out: one for its table and destination, which has
its protocol, or its type of service and priority. -/
def occupied (fib : Fib) (route : KernelRoute) : Bool :=
  fib.routes.any fun r =>
    r.table == route.table && r.dest == route.dest &&
      (r.protocol == route.protocol || r.tos == route.tos && r.priority == route.priority)

/-- An addition finds its place occupied by a route of the same table and destination, if that has
the same protocol, or the same type of service and priority. -/
theorem occupied_eq_true {fib : Fib} {route : KernelRoute} : fib.occupied route = true ↔
    ∃ r ∈ fib.routes, r.table = route.table ∧ r.dest = route.dest ∧
      (r.protocol = route.protocol ∨ r.tos = route.tos ∧ r.priority = route.priority) := by
  simp [occupied, and_assoc]

/-- Where a route can be added, there is none of its protocol for the table and destination. -/
theorem free_of_occupied {fib : Fib} {route : KernelRoute} (h : fib.occupied route = false) :
    ∀ r ∈ fib.routes, r.protocol = route.protocol →
      ¬ (r.table = route.table ∧ r.dest = route.dest) := by
  intro r hr hprotocol hsame
  have hoccupied : fib.occupied route = true :=
    occupied_eq_true.mpr ⟨r, hr, hsame.1, hsame.2, Or.inl hprotocol⟩
  rw [h] at hoccupied
  cases hoccupied

/-- A new route, which a dump will have after the first `place` ones. -/
def insert (fib : Fib) (place : Nat) (route : KernelRoute) (h : fib.occupied route = false) :
    Fib where
  routes := fib.routes.take place ++ route :: fib.routes.drop place
  unique := by
    have hfree := free_of_occupied h
    rw [List.pairwise_middle fun {r r'} hne hr' hr heq => hne hr hr' ⟨heq.1.symm, heq.2.symm⟩,
      List.take_append_drop, List.pairwise_cons]
    refine ⟨?_, fib.unique⟩
    intro r hr hnew hold heq
    exact hfree r hr (hold.trans hnew.symm) ⟨heq.1.symm, heq.2.symm⟩

/-- The routes without the first one that `p` accepts. -/
def erase (fib : Fib) (p : KernelRoute → Bool) : Fib where
  routes := fib.routes.eraseP p
  unique := fib.unique.eraseP p

end Fib

namespace Kernel

variable (k : Kernel)

/-- A route in a dump. -/
def message (route : KernelRoute) : RouteMessage where
  header :=
    { addressFamily := familyOf route.dest
      destinationPrefixLength := route.dest.prefixLen
      tos := route.tos
      table := if route.table < 256 then route.table.toUInt8 else rtTableCompat
      protocol := route.protocol }
  attributes :=
    .table route.table ::
      ((if k.dumpsDest route.dest then [.destination (addressOf route.dest)] else []) ++
      (if route.priority = 0 then [] else [.priority route.priority]) ++
      (route.gateway.toList.map fun addr => .gateway (.inet6 addr)) ++
      (route.outputInterface.toList.map .oif))

/-- The dump of an address family. -/
def dump (fib : Fib) (family : AddressFamily) : List RouteMessage :=
  (fib.routes.map k.message).filter fun route => route.header.addressFamily == family

/-- `RTM_NEWROUTE`, with `NLM_F_CREATE` and `NLM_F_EXCL`. -/
def newRoute (fib : Fib) (place : Nat) (request : RouteMessage) : Except Errno Fib :=
  match request.dest.bind k.stores with
  | none => .error .invalidArgument
  | some dest =>
    if h : fib.occupied (request.toRoute dest) = false then
      .ok (fib.insert place (request.toRoute dest) h)
    else .error .fileExists

/-- `RTM_DELROUTE`. -/
def delRoute (fib : Fib) (message : RouteMessage) : Except Errno Fib :=
  if fib.routes.any fun r => k.message r == message then
    .ok (fib.erase fun r => k.message r == message)
  else .error .noSuchProcess

end Kernel

end Netlink

end RustBond
