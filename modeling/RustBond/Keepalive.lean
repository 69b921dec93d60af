import RustBond.Lib.Duration
import RustBond.Wire.Handshake

/-!
# `RustBond.Keepalive`: the keepalive interval of a session

What `run_connection` in `src/peer.rs` and `handle_peer` in `src/server.rs` compute from the
keepalive intervals that the two HELLOs advertise, and how they get to their main loops with it.
Each side takes the smaller interval and two and a half times that as its timeout. In this time
the other side's KEEPALIVE has to arrive. Then the client makes the timer for the KEEPALIVEs that
it sends.

Time is in nanoseconds. The handshake without its clock is in `RustBond.Wire.Handshake`.
-/

set_option autoImplicit false

namespace RustBond.Keepalive

/-- `DEFAULT_KEEPALIVE_INTERVAL`, in seconds. The client always advertises it, and the server
unless it is configured otherwise. -/
def defaultKeepaliveInterval : UInt32 := 5

/-- `keepalive_duration` and `keepalive_timeout`. -/
structure Negotiated where
  keepaliveDuration : Duration
  keepaliveTimeout : Duration

/-- The durations for a side that advertises `own`, where the other side advertises `other`.
`none` stands for a panic: the operators on durations panic where the checked ones fail. -/
def negotiate (own other : UInt32) : Option Negotiated := do
  let negotiatedKeepalive := min own other
  let keepaliveDuration := Duration.fromSecs negotiatedKeepalive.toUInt64
  let product ← keepaliveDuration.checkedMul 5
  let keepaliveTimeout ← product.checkedDiv 2
  return ⟨keepaliveDuration, keepaliveTimeout⟩

/-- `receive_message_with_timeout`, for a read that is ready after `arrival` and whose bytes are
decoded to `reply`. `tokio::time::timeout` looks at the read before it looks at the clock. -/
def receiveMessageWithTimeout (duration : Duration) (arrival : Nat)
    (reply : Except Error Message) : Except Error Message :=
  if arrival ≤ duration.asNanos then reply else .error .timeout

/-- `tokio::time::interval`. `none` stands for a panic, by its assertion on the period. -/
def interval (period : Duration) : Option Duration :=
  if 0 < period.asNanos then some period else none

/-- Where a connection gets to. A panic ends its task, and the state that it has published stays
as it is. -/
inductive Start where
  | failed (error : Error)
  | panicked (state : ConnectionState)
  | looping (timeout : Duration)

/-- What a side does before its main loop once the KEEPALIVE is there. -/
def enterLoop (side : Side) (negotiated : Negotiated) : Start :=
  match side with
  | .server => .looping negotiated.keepaliveTimeout
  | .client => (interval negotiated.keepaliveDuration).elim (.panicked .established)
      fun _ => .looping negotiated.keepaliveTimeout

/-- What a side does with what it receives for the KEEPALIVE. -/
def received (side : Side) (negotiated : Negotiated) (result : Except Error Message) : Start :=
  match result with
  | .error error => .failed error
  | .ok msg =>
    if msg = .keepalive then enterLoop side negotiated
    else .failed (Handshake.expectedKeepalive side)

/-- A connection after both HELLOs. The client publishes that it has received one. -/
def start (side : Side) (own other : UInt32) (arrival : Nat) (reply : Except Error Message) :
    Start :=
  match negotiate own other with
  | none => .panicked .helloReceived
  | some negotiated =>
    received side negotiated
      (receiveMessageWithTimeout negotiated.keepaliveTimeout arrival reply)

/-- `run_connection`, for the interval that the server advertises. -/
def runConnection (serverKeepalive : UInt32) (arrival : Nat) (reply : Except Error Message) :
    Start :=
  start .client defaultKeepaliveInterval serverKeepalive arrival reply

/-- `handle_peer`, for the interval in the configuration and that of the client. -/
def handlePeer (keepaliveInterval clientKeepalive : UInt32) (arrival : Nat)
    (reply : Except Error Message) : Start :=
  start .server keepaliveInterval clientKeepalive arrival reply

end RustBond.Keepalive
