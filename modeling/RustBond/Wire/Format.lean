import RustBond.Wire.Codec

/-!
# `RustBond.Wire.Format`: the documented format

What the header of `src/wire.rs` and `proto/metalbond.proto` say of a frame, without the code
that reads it:

* `Begins`: the bytes begin with a complete frame of a type and a payload.
* `Documented`: the fields of the payload are in the ranges of the format.
* `Carries`: the fields of the payload are the values of a message.

`narrow` is what is left of a payload once its numbers are cut to the widths that the program
stores them in. `normalise` is a message without what the format can not say of it.
-/

set_option autoImplicit false

namespace RustBond

namespace Proto

/-- An IPv4 prefix has 4 bytes and a length up to 32, an IPv6 prefix 16 bytes and a length up to
128. -/
def Destination.Documented (d : Destination) : Prop :=
  (d.ipVersion = IpVersion.iPv4.toI32 ∧ d.ipPrefix.length = 4 ∧ d.prefixLength.toNat ≤ 32) ∨
    (d.ipVersion = IpVersion.iPv6.toI32 ∧ d.ipPrefix.length = 16 ∧ d.prefixLength.toNat ≤ 128)

structure NextHop.Documented (n : NextHop) : Prop where
  targetAddress : n.targetAddress.length = 16
  hopType : 0 ≤ n.hopType.toInt ∧ n.hopType.toInt ≤ 2
  natPortRangeFrom : n.natPortRangeFrom.toNat ≤ 65535
  natPortRangeTo : n.natPortRangeTo.toNat ≤ 65535

structure Update.Documented (u : Update) : Prop where
  action : u.action = 0 ∨ u.action = 1
  destination : ∃ d, u.destination = some d ∧ d.Documented
  nextHop : ∃ n, u.nextHop = some n ∧ n.Documented

/-- The destination has exactly these values. -/
def Destination.Carries (d : Destination) (x : RustBond.Destination) : Prop :=
  match x.ipPrefix with
  | .v4 net =>
    d.ipVersion = IpVersion.iPv4.toI32 ∧ net.addr.octets.toList = d.ipPrefix ∧
      net.prefixLen.toNat = d.prefixLength.toNat
  | .v6 net =>
    d.ipVersion = IpVersion.iPv6.toI32 ∧ net.addr.octets.toList = d.ipPrefix ∧
      net.prefixLen.toNat = d.prefixLength.toNat

/-- A target VNI of 0 is the default value of the field: there is none. -/
structure NextHop.Carries (n : NextHop) (x : RustBond.NextHop) : Prop where
  targetAddress : x.targetAddress.octets.toList = n.targetAddress
  targetVni : x.targetVni = if n.targetVni = 0 then none else some n.targetVni
  hopType : x.hopType.toProto.toI32 = n.hopType
  natPortRangeFrom : x.natPortRangeFrom.toNat = n.natPortRangeFrom.toNat
  natPortRangeTo : x.natPortRangeTo.toNat = n.natPortRangeTo.toNat

def Update.Carries (u : Update) (m : Message) : Prop :=
  match m with
  | .update action vni destination nextHop =>
    action.toProto.toI32 = u.action ∧ vni.id = u.vni ∧
      (∃ d, u.destination = some d ∧ d.Carries destination) ∧
      ∃ n, u.nextHop = some n ∧ n.Carries nextHop
  | _ => False

/-- The prefix length cut to 8 bits. -/
def Destination.narrow (d : Destination) : Destination :=
  { d with prefixLength := d.prefixLength % 256 }

/-- The ports cut to 16 bits. -/
def NextHop.narrow (n : NextHop) : NextHop :=
  { n with
    natPortRangeFrom := n.natPortRangeFrom % 65536
    natPortRangeTo := n.natPortRangeTo % 65536 }

def Update.narrow (u : Update) : Update :=
  { u with
    destination := u.destination.map Destination.narrow
    nextHop := u.nextHop.map NextHop.narrow }

/-- Every number of the update fits in the width it is stored in. -/
structure Update.Fits (u : Update) : Prop where
  prefixLength : ∀ d ∈ u.destination, d.prefixLength.toNat ≤ 255
  natPortRangeFrom : ∀ n ∈ u.nextHop, n.natPortRangeFrom.toNat ≤ 65535
  natPortRangeTo : ∀ n ∈ u.nextHop, n.natPortRangeTo.toNat ≤ 65535

end Proto

/-- The next hop without a target VNI of 0, which is how the format says that there is none. -/
def NextHop.normalise (x : NextHop) : NextHop :=
  { x with targetVni := if x.targetVni = some 0 then none else x.targetVni }

/-- The route as the other side decodes it. -/
def RouteKey.normalise (r : RouteKey) : RouteKey := (r.1, r.2.1, r.2.2.normalise)

/-- The library seen through the widths of the program: of each update that it reads, only what
is left after narrowing. -/
def Prost.narrow (p : Prost) : Prost :=
  { p with decodeUpdate := fun payload => (p.decodeUpdate payload).map Proto.Update.narrow }

namespace Message

/-- The message with its next hop normalised. -/
def normalise (m : Message) : Message :=
  match m with
  | update action vni destination nextHop => update action vni destination nextHop.normalise
  | m => m

/-- The bytes begin with a complete frame: the header with the version, the big-endian length of
the payload and the type, and the payload itself. -/
def Begins (b : List UInt8) (t : MessageType) (payload : List UInt8) : Prop :=
  ∃ (high low : UInt8) (rest : List UInt8), b = 1 :: high :: low :: t.toU8 :: (payload ++ rest) ∧
    256 * high.toNat + low.toNat = payload.length

/-- The bytes are one frame, of the message. -/
def IsFrame (p : Prost) (b : List UInt8) (m : Message) : Prop := decode p b = .ok (m, b.length)

/-- The payload parses as the proto message of its type, with fields in the ranges of the format.
A KEEPALIVE has no proto message. -/
def Documented (p : Prost) (t : MessageType) (payload : List UInt8) : Prop :=
  match t with
  | .hello => ∃ h, p.decodeHello payload = some h
  | .keepalive => True
  | .subscribe => ∃ s, p.decodeSubscription payload = some s
  | .unsubscribe => ∃ s, p.decodeSubscription payload = some s
  | .update => ∃ u, p.decodeUpdate payload = some u ∧ u.Documented

/-- The payload has exactly the values of the message. -/
def Carries (p : Prost) (payload : List UInt8) (m : Message) : Prop :=
  match m with
  | hello keepaliveInterval isServer =>
    p.decodeHello payload = some ⟨keepaliveInterval, isServer⟩
  | keepalive => True
  | subscribe vni => p.decodeSubscription payload = some ⟨vni.id⟩
  | unsubscribe vni => p.decodeSubscription payload = some ⟨vni.id⟩
  | update .. => ∃ u, p.decodeUpdate payload = some u ∧ u.Carries m

/-- The bytes begin with a complete frame of the format. -/
def InFormat (p : Prost) (b : List UInt8) : Prop :=
  ∃ t payload, Begins b t payload ∧ payload.length ≤ maxPayloadSize ∧ Documented p t payload

/-- Decoding accepts what is in the format, and returns the values of the frame. -/
structure Exact (p : Prost) (b : List UInt8) : Prop where
  accepts : (∃ r, decode p b = .ok r) ↔ InFormat p b
  values : ∀ m n, decode p b = .ok (m, n) →
    ∃ payload, Begins b m.messageType payload ∧ n = headerSize + payload.length ∧
      Carries p payload m

/-- If the bytes begin with a frame that is in the format once its numbers are narrowed, then
its payload is not too long, and all its numbers fit. -/
def WithinLimits (p : Prost) (b : List UInt8) : Prop :=
  ∀ t payload, Begins b t payload → Documented p.narrow t payload →
    payload.length ≤ maxPayloadSize ∧ (t = .update → ∀ u ∈ p.decodeUpdate payload, u.Fits)

end Message

end RustBond
