import RustBond.Wire.Codec

/-!
# `RustBond.Wire.Framing`: messages out of a stream of bytes

The read branch of the main loops, of `handle_peer` in `src/server.rs` and of `run_connection`
in `src/peer.rs`. What a read returns is appended to `msg_buf`, and then every complete message
is decoded, drained from the buffer and handled. The loop stops at an incomplete message and
waits for the next read. Any other error ends the connection.

The two sides run the same loop, with their own `handle_message`. The server goes on if a
message could not be handled, the client would not (`Side.handle`). The state that
`handle_message` works on is of any type, so a handler that collects its messages is one of
them (`Framing.collect`).
-/

set_option autoImplicit false

namespace RustBond

/-- The guard of the arm that waits for more bytes. -/
def Error.needsMore (e : Error) : Bool :=
  match e with
  | .protocol text => text.contains "too short" || text.contains "truncated"
  | _ => false

inductive Side where
  | client
  | server
deriving DecidableEq

/-- How a read branch handles a message: the new state, and the error that ends the loop. -/
def Side.handle {S : Type} (side : Side) (handleMessage : S → Message → S × Except Error Unit)
    (s : S) (msg : Message) : S × Option Error :=
  match side, handleMessage s msg with
  | .client, (s', .ok ()) => (s', none)
  | .client, (s', .error e) => (s', some e)
  | .server, (s', _) => (s', none)

namespace Framing

/-- A handler that collects the messages. -/
def collect (msgs : List Message) (msg : Message) : List Message × Except Error Unit :=
  (msgs ++ [msg], .ok ())

section
variable {S : Type} (p : Prost) (handle : S → Message → S × Option Error)

/-- The loop over `msg_buf`, for at most `fuel` rounds. It ends with the state of the handler,
and with what is left in the buffer or the error that ends the connection. -/
def processBuffer : Nat → S → List UInt8 → Option (S × Except Error (List UInt8))
  | 0, _, _ => none
  | fuel + 1, s, msgBuf =>
    if msgBuf = [] then some (s, .ok msgBuf)
    else
      match Message.decode p msgBuf with
      | .ok (msg, consumed) =>
        match handle s msg with
        | (s', none) => processBuffer fuel s' (msgBuf.drop consumed)
        | (s', some e) => some (s', .error e)
      | .error e => if e.needsMore then some (s, .ok msgBuf) else some (s, .error e)

/-- One read. Every round but the last drains the buffer, so there are no more of them than it
has bytes, and one. -/
def readChunk (s : S) (msgBuf chunk : List UInt8) : Option (S × Except Error (List UInt8)) :=
  processBuffer p handle ((msgBuf ++ chunk).length + 1) s (msgBuf ++ chunk)

/-- One read after another, until the connection ends. -/
def readChunks : S → Except Error (List UInt8) → List (List UInt8) →
    Option (S × Except Error (List UInt8))
  | s, .error e, _ => some (s, .error e)
  | s, .ok msgBuf, [] => some (s, .ok msgBuf)
  | s, .ok msgBuf, chunk :: chunks =>
    (readChunk p handle s msgBuf chunk).bind fun r => readChunks r.1 r.2 chunks

end

end Framing

end RustBond
