import RustBond.Error
import RustBond.Lib.HashMap
import RustBond.Netlink.Kernel

/-!
# `RustBond.Netlink.Client`: routes in the kernel

`NetlinkClient` in `src/netlink.rs`. It has a table for each VNI, and adds and removes the routes
of the VNI there. To remove a route, or those of an earlier run, it goes through a dump. A route
is its own if the protocol says so, and the table and the destination are compared as the message
has them.

The link, its name and what a dump may fail with are left out. What `Display` writes for an
address is needed for the errors.
-/

set_option autoImplicit false

namespace RustBond

/-! ### Addresses in text -/

def Ipv4Addr.display (addr : Ipv4Addr) : String :=
  ".".intercalate (addr.octets.toList.map toString)

namespace Ipv6Addr

/-- The octets in pairs. -/
def segments : List UInt8 → List Nat
  | high :: low :: octets => (high.toNat * 256 + low.toNat) :: segments octets
  | _ => []

/-- The first of the longest runs of zeros: its start and its length. The run that ends before
`index` is `current`. -/
def longestZeros (index : Nat) (current longest : Nat × Nat) : List Nat → Nat × Nat
  | [] => longest
  | segment :: segments =>
    if segment = 0 then
      let current := if current.2 = 0 then (index, 1) else (current.1, current.2 + 1)
      let longest := if longest.2 < current.2 then current else longest
      longestZeros (index + 1) current longest segments
    else longestZeros (index + 1) (0, 0) longest segments

def displaySegments (segments : List Nat) : String :=
  ":".intercalate (segments.map fun segment => String.ofList (Nat.toDigits 16 segment))

/-- An IPv4 address that is mapped to IPv6 is written as such. Elsewhere, two dots stand for
several zeros. -/
def display (addr : Ipv6Addr) : String :=
  let octets := addr.octets.toList
  if octets.take 12 = [0, 0, 0, 0, 0, 0, 0, 0, 0, 0, 255, 255] then
    "::ffff:" ++ ".".intercalate ((octets.drop 12).map toString)
  else
    let segments := segments octets
    let (start, len) := longestZeros 0 (0, 0) (0, 0) segments
    if 1 < len then
      displaySegments (segments.take start) ++ "::" ++ displaySegments (segments.drop (start + len))
    else displaySegments segments

end Ipv6Addr

namespace Netlink

/-- `NetlinkConfig` without the name of the link. -/
structure NetlinkConfig where
  vniTableMap : HashMap Vni UInt32

structure NetlinkClient where
  config : NetlinkConfig
  linkIndex : UInt32

/-! ### What a route in a dump is compared with -/

/-- `matches_table`. -/
def matchesTable (table : UInt32) (route : RouteMessage) : Bool :=
  route.header.table == table.toUInt8 || route.attributes.any (· == .table table)

/-- `matches_protocol`. -/
def matchesProtocol (route : RouteMessage) : Bool := route.header.protocol == metalbondRtProto

/-- `matches_dest`. -/
def matchesDest (dest : RouteAddress) (prefixLen : UInt8) (route : RouteMessage) : Bool :=
  route.attributes.any (· == .destination dest) && route.header.destinationPrefixLength == prefixLen

/-- The route of a dump that `remove_route_v4` and `remove_route_v6` delete. -/
def findRoute (dest : RouteAddress) (prefixLen : UInt8) (table : UInt32)
    (routes : List RouteMessage) : Option RouteMessage :=
  routes.find? fun route =>
    matchesTable table route && matchesProtocol route && matchesDest dest prefixLen route

/-- The routes of a dump that `cleanup_routes_for_table` deletes. -/
def toDelete (table : UInt32) (routes : List RouteMessage) : List RouteMessage :=
  routes.filter fun route => matchesTable table route && matchesProtocol route

/-! ### The client -/

namespace NetlinkClient

variable (k : Kernel) (client : NetlinkClient)

/-- The request of `add_route_v4`. The gateway is not used. -/
def requestV4 (dest : Ipv4Addr) (prefixLen : UInt8) (table : UInt32) : RouteMessage :=
  (RouteMessage.add .inet).destinationPrefix (.inet dest) prefixLen
    |>.push (.oif client.linkIndex)
    |>.tableId table
    |>.withProtocol metalbondRtProto

/-- The request of `add_route_v6`. -/
def requestV6 (dest : Ipv6Addr) (prefixLen : UInt8) (gateway : Ipv6Addr) (table : UInt32) :
    RouteMessage :=
  (RouteMessage.add .inet6).destinationPrefix (.inet6 dest) prefixLen
    |>.push (.gateway (.inet6 gateway))
    |>.push (.oif client.linkIndex)
    |>.tableId table
    |>.withProtocol metalbondRtProto

/-- `add_route_v4`. The kernel decides on the place in its dumps. -/
def addRouteV4 (dest : Ipv4Addr) (prefixLen : UInt8) (table : UInt32) (place : Nat) (fib : Fib) :
    Except Error Fib :=
  (k.newRoute fib place (client.requestV4 dest prefixLen table)).mapError fun e =>
    .netlink s!"Cannot add IPv4 route to {dest.display}/{prefixLen} (table {table}): {k.describe e}"

/-- `add_route_v6`. -/
def addRouteV6 (dest : Ipv6Addr) (prefixLen : UInt8) (gateway : Ipv6Addr) (table : UInt32)
    (place : Nat) (fib : Fib) : Except Error Fib :=
  (k.newRoute fib place (client.requestV6 dest prefixLen gateway table)).mapError fun e =>
    .netlink s!"Cannot add IPv6 route to {dest.display}/{prefixLen} (table {table}): {k.describe e}"

/-- The table of a VNI. -/
def table (vni : Vni) : Except Error UInt32 :=
  match client.config.vniTableMap.lookup vni with
  | some table => .ok table
  | none => .error (.netlink s!"No route table ID configured for VNI {vni.id}")

/-- `add_route`. -/
def addRoute (vni : Vni) (dest : Destination) (nextHop : NextHop) (place : Nat) (fib : Fib) :
    Except Error Fib := do
  let table ← client.table vni
  match dest.ipPrefix with
  | .v4 net => client.addRouteV4 k net.addr net.prefixLen table place fib
  | .v6 net => client.addRouteV6 k net.addr net.prefixLen nextHop.targetAddress table place fib

/-- What `remove_route_v4` and `remove_route_v6` do. A route that is not found is no error. -/
def removeFound (family : AddressFamily) (dest : RouteAddress) (shown : String)
    (prefixLen : UInt8) (table : UInt32) (fib : Fib) : Except Error Fib :=
  match findRoute dest prefixLen table (k.dump fib family) with
  | none => .ok fib
  | some route => (k.delRoute fib route).mapError fun e =>
    .netlink s!"Cannot remove route to {shown}/{prefixLen} (table {table}): {k.describe e}"

/-- `remove_route_v4`. -/
def removeRouteV4 (dest : Ipv4Addr) (prefixLen : UInt8) (table : UInt32) (fib : Fib) :
    Except Error Fib :=
  removeFound k .inet (.inet dest) dest.display prefixLen table fib

/-- `remove_route_v6`. -/
def removeRouteV6 (dest : Ipv6Addr) (prefixLen : UInt8) (table : UInt32) (fib : Fib) :
    Except Error Fib :=
  removeFound k .inet6 (.inet6 dest) dest.display prefixLen table fib

/-- `remove_route`. The next hop is only logged. -/
def removeRoute (vni : Vni) (dest : Destination) (_nextHop : NextHop) (fib : Fib) :
    Except Error Fib := do
  let table ← client.table vni
  match dest.ipPrefix with
  | .v4 net => removeRouteV4 k net.addr net.prefixLen table fib
  | .v6 net => removeRouteV6 k net.addr net.prefixLen table fib

/-- `cleanup_routes_for_table`. A route that cannot be deleted is only logged. -/
def cleanupRoutesForTable (table : UInt32) (family : AddressFamily) (fib : Fib) : Fib :=
  (toDelete table (k.dump fib family)).foldl
    (fun fib route => ((k.delRoute fib route).toOption).getD fib) fib

/-- `cleanup_stale_routes`, for the order in which the map has its entries. -/
def cleanupStaleRoutes (entries : List (Vni × UInt32)) (fib : Fib) : Fib :=
  entries.foldl (fun fib entry =>
    cleanupRoutesForTable k entry.2 .inet6 (cleanupRoutesForTable k entry.2 .inet fib)) fib

end NetlinkClient

end Netlink

end RustBond
