import RustBond.Error
import RustBond.Lib.Lts

/-!
# `RustBond.Server.Deadline`: the clock of the server's main loop

The main loop of `handle_peer` in `src/server.rs`, in explicit time. Every iteration begins with
a new sleep of `keepalive_timeout`, and ends with the first branch of the `select!` that is ready.
When the sleep ends, the loop looks at the time since the last read, and gives the peer up if it
is longer than the timeout.

A label says which branch ends the iteration, what becomes of it, and when. It may be any time
until the sleep ends. What a branch does takes no time, and what is read and written is left out.
Times are in nanoseconds.
-/

set_option autoImplicit false

namespace RustBond

/-- What becomes of `stream.read`. The bytes are appended to the buffer, and `error` is that of
the message that cannot be decoded, if there is one. -/
inductive ReadResult where
  | closed
  | bytes (error : Option Error)
  | failed
deriving DecidableEq

/-- The branch of the `select!` that ends an iteration. -/
inductive Branch where
  | shutdown
  | sleep
  | read (result : ReadResult)
  | batch (written : Bool)
deriving DecidableEq

/-- The clock of a main loop: the time at which the iteration begins, the time of the last read,
the time at which the sleep ends, and the result once the loop is left. -/
structure Deadline where
  now : Nat
  lastReceived : Nat
  deadline : Nat
  result : Option (Except Error Unit)

namespace Deadline

/-- The clock at the beginning of the main loop. -/
def new (start keepaliveTimeout : Nat) : Deadline where
  now := start
  lastReceived := start
  deadline := start + keepaliveTimeout
  result := none

/-- The next iteration: a new sleep. -/
def next (x : Deadline) (keepaliveTimeout : Nat) : Deadline :=
  { x with deadline := x.now + keepaliveTimeout }

/-- `break`. -/
def leave (x : Deadline) (result : Except Error Unit) : Deadline := { x with result := some result }

/-- What a branch does. `none` where the branch is not ready. -/
def branch (x : Deadline) (keepaliveTimeout : Nat) (branch : Branch) : Option Deadline :=
  match branch with
  | .shutdown => some (x.leave (.ok ()))
  | .sleep =>
    if x.now < x.deadline then none
    else if keepaliveTimeout < x.now - x.lastReceived then some (x.leave (.error .timeout))
    else some (x.next keepaliveTimeout)
  | .read .closed => some (x.leave (.ok ()))
  | .read .failed => some (x.leave (.error .connection))
  | .read (.bytes error) =>
    let x := { x with lastReceived := x.now }
    match error with
    | some error => some (x.leave (.error error))
    | none => some (x.next keepaliveTimeout)
  | .batch true => some (x.next keepaliveTimeout)
  | .batch false => some (x.leave (.error .connection))

/-- One iteration, which ends at `time`. -/
def step (keepaliveTimeout : Nat) (x : Deadline) (l : Nat × Branch) : Option Deadline :=
  if x.result.isSome ∨ l.1 < x.now ∨ x.deadline < l.1 then none
  else { x with now := l.1 }.branch keepaliveTimeout l.2

/-- A main loop that begins at `start`. -/
def lts (keepaliveTimeout start : Nat) : Lts Deadline (Nat × Branch) where
  init := new start keepaliveTimeout
  step := step keepaliveTimeout

end Deadline

end RustBond
