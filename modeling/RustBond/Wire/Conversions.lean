import RustBond.Error
import RustBond.Proto
import RustBond.Types

/-!
# `RustBond.Wire.Conversions`: between the core types and the protobuf types

The `From` and `TryFrom` implementations of `src/types.rs`. Into the protobuf types the numbers
are widened. Back from them they are narrowed by `as`, which keeps the low bits, and only what
comes out of the narrowing is checked.
-/

set_option autoImplicit false

namespace RustBond

/-- `Option::ok_or`, and `Result::map_err` where the error is dropped. -/
def okOr {α : Type} (error : Error) (value : Option α) : Except Error α :=
  match value with
  | some a => .ok a
  | none => .error error

/-- `Vec::try_into` for arrays: the length must be the one of the array. -/
def tryIntoArray (n : Nat) (bytes : List UInt8) : Option (Vector UInt8 n) :=
  if h : bytes.length = n then some ⟨bytes.toArray, by simpa using h⟩ else none

def Action.ofProto (v : Proto.Action) : Action :=
  match v with
  | .add => .add
  | .remove => .remove

def Action.toProto (v : Action) : Proto.Action :=
  match v with
  | .add => .add
  | .remove => .remove

def NextHopType.ofProto (v : Proto.NextHopType) : NextHopType :=
  match v with
  | .standard => .standard
  | .nat => .nat
  | .loadbalancerTarget => .loadBalancerTarget

def NextHopType.toProto (v : NextHopType) : Proto.NextHopType :=
  match v with
  | .standard => .standard
  | .nat => .nat
  | .loadBalancerTarget => .loadbalancerTarget

/-- `IpNet::prefix_len`. -/
def IpNet.prefixLen (net : IpNet) : UInt8 :=
  match net with
  | .v4 net => net.prefixLen
  | .v6 net => net.prefixLen

/-- The address in `TryFrom<proto::Destination>`. -/
def Destination.tryFromAddr (d : Proto.Destination) : Except Error IpAddr :=
  match Proto.IpVersion.tryFrom d.ipVersion with
  | some .iPv4 => do
    let bytes ← okOr (.protocol "invalid IPv4 address length") (tryIntoArray 4 d.ipPrefix)
    return .v4 ⟨bytes⟩
  | some .iPv6 => do
    let bytes ← okOr (.protocol "invalid IPv6 address length") (tryIntoArray 16 d.ipPrefix)
    return .v6 ⟨bytes⟩
  | none => .error (.protocol "invalid IP version")

/-- `TryFrom<proto::Destination> for Destination`. -/
def Destination.tryFrom (d : Proto.Destination) : Except Error Destination := do
  let addr ← Destination.tryFromAddr d
  let prefixLen := d.prefixLength.toUInt8
  let ipPrefix ← okOr (.protocol "invalid prefix length") (IpNet.new addr prefixLen)
  return ⟨ipPrefix⟩

/-- `From<&Destination> for proto::Destination`. -/
def Destination.toProto (d : Destination) : Proto.Destination :=
  let (ipVersion, ipPrefix) := match d.ipPrefix with
    | .v4 net => (Proto.IpVersion.iPv4, net.addr.octets.toList)
    | .v6 net => (Proto.IpVersion.iPv6, net.addr.octets.toList)
  { ipVersion := ipVersion.toI32
    ipPrefix := ipPrefix
    prefixLength := d.ipPrefix.prefixLen.toUInt32 }

/-- `TryFrom<proto::NextHop> for NextHop`. -/
def NextHop.tryFrom (nh : Proto.NextHop) : Except Error NextHop := do
  let bytes ← okOr (.protocol "invalid target address length") (tryIntoArray 16 nh.targetAddress)
  let hopType ← okOr (.protocol "invalid next hop type")
    ((Proto.NextHopType.tryFrom nh.hopType).map NextHopType.ofProto)
  return {
    targetAddress := ⟨bytes⟩
    targetVni := if nh.targetVni ≠ 0 then some nh.targetVni else none
    hopType := hopType
    natPortRangeFrom := nh.natPortRangeFrom.toUInt16
    natPortRangeTo := nh.natPortRangeTo.toUInt16 }

/-- `From<&NextHop> for proto::NextHop`. An absent target VNI becomes 0. -/
def NextHop.toProto (nh : NextHop) : Proto.NextHop where
  targetAddress := nh.targetAddress.octets.toList
  targetVni := nh.targetVni.getD 0
  hopType := nh.hopType.toProto.toI32
  natPortRangeFrom := nh.natPortRangeFrom.toUInt32
  natPortRangeTo := nh.natPortRangeTo.toUInt32

end RustBond
