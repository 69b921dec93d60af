import RustBond.Lib.Duplex
import RustBond.Lib.Lts
import RustBond.Server.System
import RustBond.Wire.Framing

/-!
# `RustBond.Link`: the two ends of an established connection

The tasks at both ends of a connection after the handshake, with the buffers between them: what
`run_connection` in `src/peer.rs` and `handle_peer` in `src/server.rs` write, and when they read.

* The client writes its subscriptions and its announced routes, one `write_all` each, and does
  not read before it is done. Then its main loop takes a tick of the timer, a command or a read.
  What it reads never makes it write.
* The server takes a batch of messages for the peer or a read. After a read it handles all
  complete messages. It answers a KEEPALIVE with a KEEPALIVE and a SUBSCRIBE with all routes of
  the VNI, one `write_all` each, and reads nothing in the meantime.

Both sides use one task for everything, so a `write_all` that waits for room keeps the task from
its timers and from its reads.

The order in which the client iterates over its tables, the routes that the server answers with,
the messages for the peer and the commands are up to the environment, and so is when the buffers
take bytes, and how many. A step that would end the connection is left out.
-/

set_option autoImplicit false

namespace RustBond

/-- What `send_message` writes. Encoding fails for no message. -/
def Message.frame (p : Prost) (msg : Message) : List UInt8 :=
  match msg.encode p with
  | .ok data => data
  | .error _ => []

/-- The size of `read_buf` in both main loops. -/
def readBufSize : Nat := 65536

/-- The state of both tasks, with buffers of the given capacities: first the one from the client
to the server. The client is at the left end. -/
structure Link (capClient capServer : Nat) where
  pipes : Duplex UInt8 capClient capServer
  /-- What the client has still to write before its main loop. -/
  clientTodo : List (List UInt8)
  /-- What the server has still to write in answer to the message it handles. -/
  serverTodo : List (List UInt8)
  /-- `msg_buf` of the server. -/
  msgBuf : List UInt8
  /-- The server is in the loop over `msg_buf`. -/
  processing : Bool

namespace Link

inductive Label where
  /-- The outgoing buffer of a side takes `n` bytes of its `write_all`. -/
  | push (side : Side) (n : Nat)
  | clientNext
  | tick
  | command (cmd : PeerCommand)
  | clientRead (n : Nat)
  | serverRead (n : Nat)
  /-- The server takes the next message from `msg_buf`. `routes` are the routes of the VNI. -/
  | process (routes : List (Destination × NextHop))
  | serverNext
  | batch (msgs : List Message)
deriving DecidableEq

variable {capClient capServer : Nat} (p : Prost)

/-- The connection is established. The client has its subscriptions and its announced routes to
write. -/
def init (subs : List Vni) (routes : List (Vni × Route)) : Link capClient capServer where
  pipes := .idle
  clientTodo := subs.map (fun vni => Message.frame p (.subscribe vni)) ++ routes.map fun r =>
    Message.frame p (.update .add r.1 r.2.destination r.2.nextHop)
  serverTodo := []
  msgBuf := []
  processing := false

/-- What `handle_message` of the server writes in answer to a message. -/
def answers (msg : Message) (routes : List (Destination × NextHop)) : List (List UInt8) :=
  match msg with
  | .keepalive => [Message.frame p .keepalive]
  | .subscribe vni => routes.map fun r => Message.frame p (.update .add vni r.1 r.2)
  | _ => []

/-- One round of the loop over `msg_buf`. -/
def processNext (x : Link capClient capServer) (routes : List (Destination × NextHop)) :
    Option (Link capClient capServer) :=
  if x.msgBuf = [] then some { x with processing := false }
  else
    match Message.decode p x.msgBuf with
    | .ok (msg, consumed) =>
      some { x with msgBuf := x.msgBuf.drop consumed, serverTodo := answers p msg routes }
    | .error e => if e.needsMore then some { x with processing := false } else none

def step (x : Link capClient capServer) (label : Label) : Option (Link capClient capServer) :=
  match label with
  | .push .client n => (x.pipes.step (.left (.push n))).map fun d => { x with pipes := d }
  | .push .server n => (x.pipes.step (.right (.push n))).map fun d => { x with pipes := d }
  | .clientNext =>
    match x.clientTodo with
    | [] => none
    | data :: todo =>
      (x.pipes.step (.left (.write data))).map fun d =>
        { x with pipes := d, clientTodo := todo }
  | .tick =>
    if x.clientTodo = [] then
      (x.pipes.step (.left (.write (Message.frame p .keepalive)))).map fun d =>
        { x with pipes := d }
    else none
  | .command cmd =>
    match Connection.commandMessage cmd with
    | none => none
    | some msg =>
      if x.clientTodo = [] then
        (x.pipes.step (.left (.write (msg.frame p)))).map fun d => { x with pipes := d }
      else none
  | .clientRead n =>
    if x.clientTodo = [] ∧ n ≤ readBufSize then
      (x.pipes.step (.left (.read n))).map fun d => { x with pipes := d }
    else none
  | .serverRead n =>
    if x.serverTodo = [] ∧ x.processing = false ∧ n ≤ readBufSize then
      (x.pipes.step (.right (.read n))).map fun d =>
        { x with
          pipes := d
          msgBuf := x.msgBuf ++ x.pipes.left.buffer.take n
          processing := true }
    else none
  | .process routes =>
    if x.serverTodo = [] ∧ x.pipes.right.writing = [] ∧ x.processing = true then
      x.processNext p routes
    else none
  | .serverNext =>
    match x.serverTodo with
    | [] => none
    | data :: todo =>
      (x.pipes.step (.right (.write data))).map fun d =>
        { x with pipes := d, serverTodo := todo }
  | .batch msgs =>
    if x.serverTodo = [] ∧ x.processing = false ∧ msgs ≠ [] ∧ msgs.length ≤ batchLimit then
      (x.pipes.step (.right (.write (msgs.flatMap (Message.frame p))))).map fun d =>
        { x with pipes := d }
    else none

def lts (subs : List Vni) (routes : List (Vni × Route)) : Lts (Link capClient capServer) Label :=
  ⟨init p subs routes, step p⟩

/-- Both tasks are in a `write_all`, and the outgoing buffer of each is full. -/
def Deadlocked (x : Link capClient capServer) : Prop := x.pipes.Deadlocked

instance (x : Link capClient capServer) : Decidable x.Deadlocked :=
  inferInstanceAs (Decidable x.pipes.Deadlocked)

end Link

end RustBond
