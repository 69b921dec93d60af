import RustBond.Wire
import RustBond.Wire.Conversions

/-!
# `RustBond.Wire.Codec`: encoding and decoding of messages

`Message::encode` and `Message::decode` of `src/wire.rs`. A frame is a header of four bytes,
with the protocol version, the length of the payload in two bytes and the message type, and the
payload. Bytes are lists. A slice index of the source that can not be out of bounds is a pattern
or a `take`.
-/

set_option autoImplicit false

namespace RustBond

/-- `PROTOCOL_VERSION`. -/
def protocolVersion : UInt8 := 1

/-- `HEADER_SIZE`. -/
def headerSize : Nat := 4

/-- `MAX_PAYLOAD_SIZE`. -/
def maxPayloadSize : Nat := 1188

/-- Message type identifiers. -/
inductive MessageType where
  | hello
  | keepalive
  | subscribe
  | unsubscribe
  | update
deriving DecidableEq

namespace MessageType

/-- The discriminant, `as u8`. -/
def toU8 (t : MessageType) : UInt8 :=
  match t with
  | hello => 1
  | keepalive => 2
  | subscribe => 3
  | unsubscribe => 4
  | update => 5

/-- `TryFrom<u8> for MessageType`. -/
def tryFrom (value : UInt8) : Except Error MessageType :=
  match value with
  | 1 => .ok hello
  | 2 => .ok keepalive
  | 3 => .ok subscribe
  | 4 => .ok unsubscribe
  | 5 => .ok update
  | _ => .error (.protocol ("unknown message type: " ++ toString value.toNat))

end MessageType

namespace Message

/-- `Message::message_type`. -/
def messageType (m : Message) : MessageType :=
  match m with
  | hello .. => .hello
  | keepalive => .keepalive
  | subscribe _ => .subscribe
  | unsubscribe _ => .unsubscribe
  | update .. => .update

/-- `Message::encode_payload`. -/
def encodePayload (p : Prost) (m : Message) : Except Error (List UInt8) :=
  match m with
  | hello keepaliveInterval isServer => .ok (p.encodeHello ⟨keepaliveInterval, isServer⟩)
  | keepalive => .ok []
  | subscribe vni => .ok (p.encodeSubscription ⟨vni.id⟩)
  | unsubscribe vni => .ok (p.encodeSubscription ⟨vni.id⟩)
  | update action vni destination nextHop =>
    .ok (p.encodeUpdate
      { action := action.toProto.toI32
        vni := vni.id
        destination := some destination.toProto
        nextHop := some nextHop.toProto })

/-- `Message::encode`. -/
def encode (p : Prost) (m : Message) : Except Error (List UInt8) := do
  let payload ← m.encodePayload p
  if payload.length > maxPayloadSize then
    .error (.protocol ("message too long: " ++ toString payload.length ++
      " bytes > maximum of " ++ toString maxPayloadSize ++ " bytes"))
  else
    .ok (protocolVersion :: UInt8.ofNat (payload.length >>> 8) ::
      UInt8.ofNat (payload.length &&& 0xFF) :: m.messageType.toU8 :: payload)

/-- The arm for `MessageType::Update` of `decode_payload`, after the payload is parsed. -/
def ofProtoUpdate (msg : Proto.Update) : Except Error Message := do
  let action ← okOr (.protocol "invalid action")
    ((Proto.Action.tryFrom msg.action).map Action.ofProto)
  let destination ← okOr (.protocol "missing destination") msg.destination
  let destination ← Destination.tryFrom destination
  let nextHop ← okOr (.protocol "missing next_hop") msg.nextHop
  let nextHop ← NextHop.tryFrom nextHop
  return .update action ⟨msg.vni⟩ destination nextHop

/-- `Message::decode_payload`. The payload of a KEEPALIVE is not looked at. -/
def decodePayload (p : Prost) (msgType : MessageType) (payload : List UInt8) :
    Except Error Message :=
  match msgType with
  | .hello => do
    let msg ← okOr .encoding (p.decodeHello payload)
    return .hello msg.keepaliveInterval msg.isServer
  | .keepalive => .ok .keepalive
  | .subscribe => do
    let msg ← okOr .encoding (p.decodeSubscription payload)
    return .subscribe ⟨msg.vni⟩
  | .unsubscribe => do
    let msg ← okOr .encoding (p.decodeSubscription payload)
    return .unsubscribe ⟨msg.vni⟩
  | .update => do
    let msg ← okOr .encoding (p.decodeUpdate payload)
    ofProtoUpdate msg

/-- `Message::decode`: the message and the number of bytes consumed. -/
def decode (p : Prost) (buf : List UInt8) : Except Error (Message × Nat) :=
  match buf with
  | version :: high :: low :: msgType :: rest =>
    if version ≠ protocolVersion then
      .error (.protocol ("unsupported protocol version: " ++ toString version.toNat))
    else do
      let payloadLen := (high.toNat <<< 8) ||| low.toNat
      let msgType ← MessageType.tryFrom msgType
      if rest.length < payloadLen then .error (.protocol "message truncated")
      else do
        let message ← decodePayload p msgType (rest.take payloadLen)
        return (message, headerSize + payloadLen)
  | _ => .error (.protocol "message too short")

end Message

end RustBond
