import RustBond.Wire.Framing

/-!
# `RustBond.Wire.Handshake`: from the first bytes to the main loop

The reading side of `handle_peer` in `src/server.rs` and of `run_connection` in `src/peer.rs`,
up to the main loop and into it. `receive_hello` and `receive_message_with_timeout` each do one
read into a buffer of their own, decode a message at its beginning, and drop the buffer.

What the other side sends is the list of what the reads return. The end of the list is the end
of the stream, where a read returns no bytes. The buffers bound the reads, those of the handshake
to 256 bytes, so not every list occurs. That a read may take too long is left out, and so is what
the handshake sends.

Between the handshake and its main loop, the client makes a timer for its own KEEPALIVEs. This
panics for an interval of zero (`startsLoop`).
-/

set_option autoImplicit false

namespace RustBond.Handshake

/-- `stream.read`: what it returns, and what is left for later reads. -/
def read (reads : List (List UInt8)) : List UInt8 × List (List UInt8) :=
  match reads with
  | [] => ([], [])
  | bytes :: reads => (bytes, reads)

variable (p : Prost)

/-- `receive_hello`: the interval and the role that the HELLO says. The client keeps the interval
only. -/
def receiveHello (reads : List (List UInt8)) :
    Except Error (Option (UInt32 × Bool) × List (List UInt8)) :=
  let (bytes, reads) := read reads
  if bytes = [] then .ok (none, reads)
  else do
    let (msg, _) ← Message.decode p bytes
    match msg with
    | .hello keepaliveInterval isServer => .ok (some (keepaliveInterval, isServer), reads)
    | _ => .error (.protocol "expected HELLO message")

/-- `receive_message_with_timeout`, in time. -/
def receiveMessageWithTimeout (reads : List (List UInt8)) :
    Except Error (Message × List (List UInt8)) :=
  let (bytes, reads) := read reads
  if bytes = [] then .error .closed
  else do
    let (msg, _) ← Message.decode p bytes
    return (msg, reads)

/-- The error if the stream ends before a HELLO. -/
def expectedHello (side : Side) : Error :=
  match side with
  | .client => .protocol "expected HELLO response"
  | .server => .protocol "expected HELLO"

def expectedKeepalive (side : Side) : Error :=
  match side with
  | .client => .protocol "expected KEEPALIVE response"
  | .server => .protocol "expected KEEPALIVE"

/-- What the handshake ends with: the interval that the other side advertises, the smaller one of
both sides, and the reads that are left for the main loop. -/
structure Established where
  advertised : UInt32
  negotiated : UInt32
  reads : List (List UInt8)

/-- The handshake of a side whose own interval is `keepaliveInterval`. -/
def handshake (side : Side) (keepaliveInterval : UInt32) (reads : List (List UInt8)) :
    Except Error Established := do
  let (hello, reads) ← receiveHello p reads
  match hello with
  | none => .error (expectedHello side)
  | some (advertised, _) => do
    let (msg, reads) ← receiveMessageWithTimeout p reads
    if msg = .keepalive then
      return ⟨advertised, min keepaliveInterval advertised, reads⟩
    else .error (expectedKeepalive side)

/-- Whether a side gets from the handshake to its main loop. The client calls
`interval(keepalive_duration)`, which panics if the period is zero. -/
def startsLoop (side : Side) (negotiated : UInt32) : Bool :=
  match side with
  | .client => negotiated != 0
  | .server => true

/-- The handshake, and then the main loop on what is left, with a buffer that is empty. After a
panic there is no main loop. -/
def session {S : Type} (side : Side) (keepaliveInterval : UInt32)
    (handle : S → Message → S × Option Error) (s : S) (reads : List (List UInt8)) :
    Except Error (Established × Option (S × Except Error (List UInt8))) := do
  let e ← handshake p side keepaliveInterval reads
  if startsLoop side e.negotiated then
    return (e, Framing.readChunks p handle s (.ok []) e.reads)
  else return (e, none)

end RustBond.Handshake
