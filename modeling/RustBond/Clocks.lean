import RustBond.Keepalive
import RustBond.Server.Deadline

/-!
# `RustBond.Clocks`: the timers of both ends of a connection

A connection in explicit time, from the HELLO of the client on: `run_connection` in `src/peer.rs`
at one end and `handle_peer` in `src/server.rs` at the other. Each side waits for a HELLO, without
a timer, and then for a KEEPALIVE, for the timeout that it has negotiated. In its main loop, the
client has a timer that ticks once in an interval, the first time at once. A tick looks at the time
since the last read, and sends a KEEPALIVE, which the server answers. The server does not send any
on its own. Its main loop is `Deadline`.

Between the sides are two streams of pieces, each with the time at which it was written. A read
gets one piece. A message may be written in several pieces, and only the last one of them tells
which message it is. A read of several pieces is several reads at the same time.

What a side does takes no time, and a timer ends when it is due. A write does not wait for room in
the buffers either. So all delays are between a write and the read of what was written. That a side
ends the connection for another reason than a timer is possible at any time. Times are in
nanoseconds.
-/

set_option autoImplicit false

namespace RustBond

open Keepalive (Negotiated negotiate interval)

namespace Clocks

/-- What a read may get. `bytes` complete neither a HELLO nor a KEEPALIVE. -/
inductive Piece where
  | hello (keepaliveInterval : UInt32)
  | keepalive
  | bytes
  /-- The end of the stream. -/
  | fin
deriving DecidableEq

structure Packet where
  piece : Piece
  sentAt : Nat
deriving DecidableEq

/-- Where `run_connection` is. A panic leaves it as well. -/
inductive ClientPhase where
  | connected
  | awaitingHello
  | awaitingKeepalive (negotiated : Negotiated) (deadline : Nat)
  | looping (negotiated : Negotiated) (lastReceived nextTick : Nat)
  | left (timedOut : Bool)

/-- Where `handle_peer` is. -/
inductive ServerPhase where
  | awaitingHello
  | awaitingKeepalive (negotiated : Negotiated) (deadline : Nat)
  | looping (negotiated : Negotiated) (clock : Deadline)
  | left (timedOut : Bool)

/-- When the next timer ends. -/
def ClientPhase.due (phase : ClientPhase) : Option Nat :=
  match phase with
  | .awaitingKeepalive _ deadline => some deadline
  | .looping _ _ nextTick => some nextTick
  | .connected | .awaitingHello | .left _ => none

def ServerPhase.due (phase : ServerPhase) : Option Nat :=
  match phase with
  | .awaitingKeepalive _ deadline => some deadline
  | .looping _ clock => some clock.deadline
  | .awaitingHello | .left _ => none

def ClientPhase.isLeft (phase : ClientPhase) : Bool :=
  match phase with
  | .left _ => true
  | _ => false

def ServerPhase.isLeft (phase : ServerPhase) : Bool :=
  match phase with
  | .left _ => true
  | _ => false

/-- A message, with `split` pieces before the one that completes it. -/
def frame (time split : Nat) (piece : Piece) : List Packet :=
  List.replicate split ⟨.bytes, time⟩ ++ [⟨piece, time⟩]

/-- The end of the stream, when a side leaves. -/
def closing (time : Nat) : List Packet := [⟨.fin, time⟩]

/-! ### The client -/

/-- `receive_hello`, and the initial KEEPALIVE. -/
def clientHello (own : UInt32) (time split : Nat) (piece : Piece) : ClientPhase × List Packet :=
  match piece with
  | .hello advertised =>
    (negotiate own advertised).elim (.left false, closing time) fun negotiated =>
      (.awaitingKeepalive negotiated (time + negotiated.keepaliveTimeout.asNanos),
        frame time split .keepalive)
  | .keepalive | .bytes | .fin => (.left false, closing time)

/-- The KEEPALIVE, and the beginning of the main loop. -/
def clientKeepalive (time : Nat) (negotiated : Negotiated) (piece : Piece) :
    ClientPhase × List Packet :=
  match piece with
  | .keepalive =>
    (interval negotiated.keepaliveDuration).elim (.left false, closing time) fun _ =>
      (.looping negotiated time time, [])
  | .hello _ | .bytes | .fin => (.left false, closing time)

/-- What the client does with a piece, and what it writes then. -/
def clientRead (own : UInt32) (time split : Nat) (phase : ClientPhase) (piece : Piece) :
    Option (ClientPhase × List Packet) :=
  match phase with
  | .awaitingHello => some (clientHello own time split piece)
  | .awaitingKeepalive negotiated _ => some (clientKeepalive time negotiated piece)
  | .looping negotiated _ nextTick =>
    match piece with
    | .fin => some (.left false, closing time)
    | .hello _ | .keepalive | .bytes => some (.looping negotiated time nextTick, [])
  | .connected | .left _ => none

/-- What the client does when a timer ends. -/
def clientTimer (time split : Nat) (phase : ClientPhase) : Option (ClientPhase × List Packet) :=
  match phase with
  | .awaitingKeepalive _ deadline =>
    if time = deadline then some (.left true, closing time) else none
  | .looping negotiated lastReceived nextTick =>
    if time = nextTick then
      if negotiated.keepaliveTimeout.asNanos < time - lastReceived then
        some (.left true, closing time)
      else
        some (.looping negotiated lastReceived (nextTick + negotiated.keepaliveDuration.asNanos),
          frame time split .keepalive)
    else none
  | .connected | .awaitingHello | .left _ => none

/-- The client sends something else than a KEEPALIVE. -/
def clientWrite (time : Nat) (phase : ClientPhase) : Option (ClientPhase × List Packet) :=
  match phase with
  | .looping _ _ _ => some (phase, [⟨.bytes, time⟩])
  | _ => none

/-! ### The server -/

/-- An iteration of the main loop that ends at `time`. It writes `sent`. -/
def serverBranch (negotiated : Negotiated) (clock : Deadline) (time : Nat) (branch : Branch)
    (sent : List Packet) : Option (ServerPhase × List Packet) :=
  (Deadline.step negotiated.keepaliveTimeout.asNanos clock (time, branch)).map fun clock =>
    match clock.result with
    | none => (.looping negotiated clock, sent)
    | some (.error .timeout) => (.left true, closing time)
    | some _ => (.left false, closing time)

/-- `receive_hello`, and the HELLO of the server. -/
def serverHello (own : UInt32) (time split : Nat) (piece : Piece) : ServerPhase × List Packet :=
  match piece with
  | .hello advertised =>
    (negotiate own advertised).elim (.left false, closing time) fun negotiated =>
      (.awaitingKeepalive negotiated (time + negotiated.keepaliveTimeout.asNanos),
        frame time split (.hello own))
  | .keepalive | .bytes | .fin => (.left false, closing time)

/-- What the server does with a piece, and what it writes then. -/
def serverRead (own : UInt32) (time split : Nat) (phase : ServerPhase) (piece : Piece) :
    Option (ServerPhase × List Packet) :=
  match phase with
  | .awaitingHello => some (serverHello own time split piece)
  | .awaitingKeepalive negotiated _ =>
    match piece with
    | .keepalive =>
      some (.looping negotiated (Deadline.new time negotiated.keepaliveTimeout.asNanos),
        frame time split .keepalive)
    | .hello _ | .bytes | .fin => some (.left false, closing time)
  | .looping negotiated clock =>
    match piece with
    | .fin => serverBranch negotiated clock time (.read .closed) []
    | .keepalive =>
      serverBranch negotiated clock time (.read (.bytes none)) (frame time split .keepalive)
    | .hello _ | .bytes => serverBranch negotiated clock time (.read (.bytes none)) []
  | .left _ => none

/-- What the server does when a timer ends. -/
def serverTimer (time : Nat) (phase : ServerPhase) : Option (ServerPhase × List Packet) :=
  match phase with
  | .awaitingKeepalive _ deadline =>
    if time = deadline then some (.left true, closing time) else none
  | .looping negotiated clock => serverBranch negotiated clock time .sleep []
  | .awaitingHello | .left _ => none

/-- The server writes a batch, or in answer to something else than a KEEPALIVE. -/
def serverWrite (time : Nat) (phase : ServerPhase) : Option (ServerPhase × List Packet) :=
  match phase with
  | .looping negotiated clock =>
    serverBranch negotiated clock time (.batch true) [⟨.bytes, time⟩]
  | _ => none

end Clocks

/-! ### Both of them -/

/-- The two sides, and the streams between them. -/
structure Clocks where
  now : Nat
  client : Clocks.ClientPhase
  server : Clocks.ServerPhase
  toServer : List Clocks.Packet
  toClient : List Clocks.Packet

namespace Clocks

inductive Action where
  | hello (split : Nat)
  | clientRead (split : Nat)
  | clientTimer (split : Nat)
  | clientWrite
  | clientLeave
  | serverRead (split : Nat)
  | serverTimer
  | serverWrite
  | serverLeave
deriving DecidableEq

def init : Clocks where
  now := 0
  client := .connected
  server := .awaitingHello
  toServer := []
  toClient := []

/-- No timer has been due before `time`. -/
def OnTime (s : Clocks) (time : Nat) : Prop :=
  s.now ≤ time ∧ (∀ due ∈ s.client.due, time ≤ due) ∧ ∀ due ∈ s.server.due, time ≤ due

instance (s : Clocks) (time : Nat) : Decidable (s.OnTime time) :=
  inferInstanceAs (Decidable (_ ∧ (∀ due ∈ s.client.due, _) ∧ ∀ due ∈ s.server.due, _))

def ofClient (s : Clocks) (result : Option (ClientPhase × List Packet)) : Option Clocks :=
  result.map fun r => { s with client := r.1, toServer := s.toServer ++ r.2 }

def ofServer (s : Clocks) (result : Option (ServerPhase × List Packet)) : Option Clocks :=
  result.map fun r => { s with server := r.1, toClient := s.toClient ++ r.2 }

/-- What a side does at `time`. The sides advertise these intervals. -/
def act (client server : UInt32) (s : Clocks) (time : Nat) (action : Action) : Option Clocks :=
  match action with
  | .hello split =>
    match s.client with
    | .connected => s.ofClient (some (.awaitingHello, frame time split (.hello client)))
    | _ => none
  | .clientRead split =>
    match s.toClient with
    | [] => none
    | packet :: rest =>
      { s with toClient := rest }.ofClient
        (Clocks.clientRead client time split s.client packet.piece)
  | .clientTimer split => s.ofClient (Clocks.clientTimer time split s.client)
  | .clientWrite => s.ofClient (Clocks.clientWrite time s.client)
  | .clientLeave => if s.client.isLeft then none else s.ofClient (some (.left false, closing time))
  | .serverRead split =>
    match s.toServer with
    | [] => none
    | packet :: rest =>
      { s with toServer := rest }.ofServer
        (Clocks.serverRead server time split s.server packet.piece)
  | .serverTimer => s.ofServer (Clocks.serverTimer time s.server)
  | .serverWrite => s.ofServer (Clocks.serverWrite time s.server)
  | .serverLeave => if s.server.isLeft then none else s.ofServer (some (.left false, closing time))

def step (client server : UInt32) (s : Clocks) (l : Nat × Action) : Option Clocks :=
  if s.OnTime l.1 then (s.act client server l.1 l.2).map fun s => { s with now := l.1 } else none

def lts (client server : UInt32) : Lts Clocks (Nat × Action) := ⟨init, step client server⟩

/-- A side has given the other one up. -/
def TimedOut (s : Clocks) : Prop := s.client = .left true ∨ s.server = .left true

/-- What has been written is read within `latency`, as long as the other side reads. -/
def Prompt (latency : Nat) (s : Clocks) (l : Nat × Action) : Prop :=
  (s.server.isLeft = false → ∀ packet ∈ s.toServer, l.1 ≤ packet.sentAt + latency) ∧
    (s.client.isLeft = false → ∀ packet ∈ s.toClient, l.1 ≤ packet.sentAt + latency)

end Clocks

end RustBond
