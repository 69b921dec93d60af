import Mathlib.Algebra.Group.Int.Defs
import RustBond.Lib.Proto3

/-!
# `RustBond.Proto`: the generated protobuf types

The types that `prost` generates from `proto/metalbond.proto`, with the conversions of their
enumerations. An enumeration field is an `i32`, an embedded message is an `Option`.

The generated code and the library behind it are not part of the repository. What the
repository calls of them is a parameter, `Prost`. `Prost.Standard` is what it relies on: a
message is encoded as the standard says, with the fields in the order of their numbers, and a
message that is written with each of its fields well formed and no unknown ones is decoded to
its values. Of all other payloads nothing is assumed, whether they are accepted or not.
-/

set_option autoImplicit false

namespace RustBond.Proto

open Proto3 (Field encodeFields decodeFields scalar blob embedded)

inductive IpVersion where
  | iPv4
  | iPv6
deriving DecidableEq

inductive Action where
  | add
  | remove
deriving DecidableEq

inductive NextHopType where
  | standard
  | nat
  | loadbalancerTarget
deriving DecidableEq

def IpVersion.toI32 (v : IpVersion) : Int32 :=
  match v with
  | .iPv4 => 0
  | .iPv6 => 1

def IpVersion.tryFrom (v : Int32) : Option IpVersion :=
  if v = 0 then some .iPv4 else if v = 1 then some .iPv6 else none

def Action.toI32 (v : Action) : Int32 :=
  match v with
  | .add => 0
  | .remove => 1

def Action.tryFrom (v : Int32) : Option Action :=
  if v = 0 then some .add else if v = 1 then some .remove else none

def NextHopType.toI32 (v : NextHopType) : Int32 :=
  match v with
  | .standard => 0
  | .nat => 1
  | .loadbalancerTarget => 2

def NextHopType.tryFrom (v : Int32) : Option NextHopType :=
  if v = 0 then some .standard else if v = 1 then some .nat
  else if v = 2 then some .loadbalancerTarget else none

structure Hello where
  keepaliveInterval : UInt32
  isServer : Bool
deriving DecidableEq

structure Subscription where
  vni : UInt32
deriving DecidableEq

structure Destination where
  ipVersion : Int32
  ipPrefix : List UInt8
  prefixLength : UInt32
deriving DecidableEq

structure NextHop where
  targetAddress : List UInt8
  targetVni : UInt32
  hopType : Int32
  natPortRangeFrom : UInt32
  natPortRangeTo : UInt32
deriving DecidableEq

structure Update where
  action : Int32
  vni : UInt32
  destination : Option Destination
  nextHop : Option NextHop
deriving DecidableEq

/-! ### The standard encoding -/

/-- An `int32` or an enumeration as a varint: sign-extended to 64 bits. -/
def int32 (v : Int32) : Nat := (v.toInt % 2 ^ 64).toNat

def Hello.fields (h : Hello) : List Field :=
  scalar 1 h.keepaliveInterval.toNat ++ scalar 2 h.isServer.toNat

def Subscription.fields (s : Subscription) : List Field := scalar 1 s.vni.toNat

def Destination.fields (d : Destination) : List Field :=
  scalar 1 (int32 d.ipVersion) ++ blob 2 d.ipPrefix ++ scalar 3 d.prefixLength.toNat

def NextHop.fields (n : NextHop) : List Field :=
  blob 1 n.targetAddress ++ scalar 2 n.targetVni.toNat ++ scalar 3 (int32 n.hopType) ++
    scalar 4 n.natPortRangeFrom.toNat ++ scalar 5 n.natPortRangeTo.toNat

def Update.fields (u : Update) : List Field :=
  scalar 1 (int32 u.action) ++ scalar 2 u.vni.toNat ++
    embedded 3 (u.destination.map fun d => encodeFields d.fields) ++
    embedded 4 (u.nextHop.map fun n => encodeFields n.fields)

/-! ### Decoding what is well formed -/

/-- A varint in the range of `uint32`. -/
def readUint32 (n : Nat) : Option UInt32 := if n < 2 ^ 32 then some (.ofNat n) else none

/-- A varint that is a nonnegative `int32`. -/
def readEnumeration (n : Nat) : Option Int32 := if n < 2 ^ 31 then some (.ofNat n) else none

def readBool (n : Nat) : Option Bool :=
  match n with
  | 0 => some false
  | 1 => some true
  | _ => none

def Hello.read (h : Hello) (f : Field) : Option Hello :=
  match f.number, f.value with
  | 1, .varint n => (readUint32 n).map fun v => { h with keepaliveInterval := v }
  | 2, .varint n => (readBool n).map fun v => { h with isServer := v }
  | _, _ => none

def Hello.decode (bytes : List UInt8) : Option Hello :=
  (decodeFields bytes).bind fun fs => fs.foldlM Hello.read ⟨0, false⟩

def Subscription.read (s : Subscription) (f : Field) : Option Subscription :=
  match f.number, f.value with
  | 1, .varint n => (readUint32 n).map fun v => { s with vni := v }
  | _, _ => none

def Subscription.decode (bytes : List UInt8) : Option Subscription :=
  (decodeFields bytes).bind fun fs => fs.foldlM Subscription.read ⟨0⟩

def Destination.read (d : Destination) (f : Field) : Option Destination :=
  match f.number, f.value with
  | 1, .varint n => (readEnumeration n).map fun v => { d with ipVersion := v }
  | 2, .bytes b => some { d with ipPrefix := b }
  | 3, .varint n => (readUint32 n).map fun v => { d with prefixLength := v }
  | _, _ => none

def Destination.decode (bytes : List UInt8) : Option Destination :=
  (decodeFields bytes).bind fun fs => fs.foldlM Destination.read ⟨0, [], 0⟩

def NextHop.read (h : NextHop) (f : Field) : Option NextHop :=
  match f.number, f.value with
  | 1, .bytes b => some { h with targetAddress := b }
  | 2, .varint n => (readUint32 n).map fun v => { h with targetVni := v }
  | 3, .varint n => (readEnumeration n).map fun v => { h with hopType := v }
  | 4, .varint n => (readUint32 n).map fun v => { h with natPortRangeFrom := v }
  | 5, .varint n => (readUint32 n).map fun v => { h with natPortRangeTo := v }
  | _, _ => none

def NextHop.decode (bytes : List UInt8) : Option NextHop :=
  (decodeFields bytes).bind fun fs => fs.foldlM NextHop.read ⟨[], 0, 0, 0, 0⟩

/-- An embedded message that occurs once. -/
def Update.read (u : Update) (f : Field) : Option Update :=
  match f.number, f.value with
  | 1, .varint n => (readEnumeration n).map fun v => { u with action := v }
  | 2, .varint n => (readUint32 n).map fun v => { u with vni := v }
  | 3, .bytes b =>
    if u.destination.isNone then
      (Destination.decode b).map fun d => { u with destination := some d }
    else none
  | 4, .bytes b =>
    if u.nextHop.isNone then (NextHop.decode b).map fun n => { u with nextHop := some n }
    else none
  | _, _ => none

def Update.decode (bytes : List UInt8) : Option Update :=
  (decodeFields bytes).bind fun fs => fs.foldlM Update.read ⟨0, 0, none, none⟩

end RustBond.Proto

namespace RustBond

/-- The functions of the generated code that the repository calls. `none` stands for a
`DecodeError`. -/
structure Prost where
  encodeHello : Proto.Hello → List UInt8
  encodeSubscription : Proto.Subscription → List UInt8
  encodeUpdate : Proto.Update → List UInt8
  decodeHello : List UInt8 → Option Proto.Hello
  decodeSubscription : List UInt8 → Option Proto.Subscription
  decodeUpdate : List UInt8 → Option Proto.Update

namespace Prost

/-- The library encodes as the standard says, and decodes what is well formed. -/
structure Standard (p : Prost) : Prop where
  encodeHello : ∀ h, p.encodeHello h = Proto3.encodeFields h.fields
  encodeSubscription : ∀ s, p.encodeSubscription s = Proto3.encodeFields s.fields
  encodeUpdate : ∀ u, p.encodeUpdate u = Proto3.encodeFields u.fields
  decodeHello : ∀ bytes h, Proto.Hello.decode bytes = some h → p.decodeHello bytes = some h
  decodeSubscription : ∀ bytes s,
    Proto.Subscription.decode bytes = some s → p.decodeSubscription bytes = some s
  decodeUpdate : ∀ bytes u, Proto.Update.decode bytes = some u → p.decodeUpdate bytes = some u

/-- The standard and nothing else: every payload that is not well formed is rejected. -/
def strict : Prost where
  encodeHello h := Proto3.encodeFields h.fields
  encodeSubscription s := Proto3.encodeFields s.fields
  encodeUpdate u := Proto3.encodeFields u.fields
  decodeHello := Proto.Hello.decode
  decodeSubscription := Proto.Subscription.decode
  decodeUpdate := Proto.Update.decode

/-- The implementation of the format meets what the program relies on. -/
theorem standard_strict : strict.Standard where
  encodeHello _ := rfl
  encodeSubscription _ := rfl
  encodeUpdate _ := rfl
  decodeHello _ _ h := h
  decodeSubscription _ _ h := h
  decodeUpdate _ _ h := h

end Prost

end RustBond
