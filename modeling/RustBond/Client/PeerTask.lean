import RustBond.Peer

/-!
# `RustBond.Client.PeerTask`: the life of a peer task

The translation of `peer_task` and `run_connection` in `src/peer.rs`, without the received
routes' way to the handler, which is in `Client/Inbound.lean`. The task connects, shakes
hands, repeats its subscriptions and the client's announcements, and runs its main loop until
the connection ends. Then it clears the received routes, waits for a while and starts again.

An action is a piece of the task that no other task can observe in the middle. What the
network decides is in the choice of the action: whether a connection attempt, a handshake or
a write succeeds, which messages arrive, when a connection ends. `act` is `none` where the
task is not at the point at which the action happens. The interval that the handshake negotiates
is left out, and with it the panic for an interval of zero (`Handshake.startsLoop`).

The task reads its commands in two places. In the main loop it writes a message for the
command, and a failed write ends the connection, with the command gone. While it waits to
retry, it takes a command only to see whether it is a shutdown.
-/

set_option autoImplicit false

namespace RustBond

/-- Where a peer task is. -/
inductive TaskPhase where
  /-- From the top of the loop to the end of the handshake. -/
  | connecting
  /-- Repeating the subscriptions. `rest` are still to be sent. -/
  | resubscribing (rest : List Vni)
  /-- Repeating the announcements, with the read lock on the announced routes. -/
  | reannouncing (rest : List (Vni × Route))
  /-- In the main loop of `run_connection`. -/
  | running
  /-- `run_connection` has returned, and the received routes are not cleared yet. -/
  | ended
  /-- Waiting for the retry interval. -/
  | retrying
  /-- The task has returned. -/
  | closed
deriving DecidableEq

/-- The task holds the read lock on the announced routes. -/
def TaskPhase.holdsRoutes (phase : TaskPhase) : Bool :=
  match phase with
  | .reannouncing _ => true
  | _ => false

/-- A peer task with its side of the shared `PeerState` and its command channel. -/
structure PeerTask where
  /-- What `get_state` returns. -/
  state : ConnectionState
  phase : TaskPhase
  connection : Connection
  /-- The command channel. -/
  commands : List PeerCommand
  /-- What the task has sent since its connection was last established. -/
  sent : List Message

inductive TaskAction where
  | connectFailed
  | helloSent
  | helloReceived
  /-- The handshake is complete. `subs` are the subscriptions in the order of the iteration. -/
  | established (subs : List Vni)
  | resubscribe
  /-- The task takes the lock on the announced routes and lists them. -/
  | collect (routes : List (Vni × Route))
  | reannounce
  /-- The task releases the lock and enters the main loop. -/
  | enterLoop
  | keepalive
  | receive (msg : Message)
  /-- The main loop takes a command and writes its message. -/
  | command
  /-- The main loop takes a command and fails to write its message. -/
  | commandFailed
  /-- `run_connection` returns for another reason. -/
  | connectionEnded
  | clear
  | retryCommand
  | retryElapsed
deriving DecidableEq

namespace PeerTask

def new : PeerTask :=
  { state := .connecting
    phase := .connecting
    connection := ⟨∅, RouteTable.new⟩
    commands := []
    sent := [] }

/-- One action of the task. `announced` are the routes that the client announces. -/
def act (t : PeerTask) (announced : RouteTable) (action : TaskAction) : Option PeerTask :=
  match action with
  | .connectFailed =>
    if t.phase = .connecting ∧ t.state = .connecting then
      some { t with state := .retry, phase := .retrying }
    else none
  | .helloSent =>
    if t.phase = .connecting ∧ t.state = .connecting then some { t with state := .helloSent }
    else none
  | .helloReceived =>
    if t.phase = .connecting ∧ t.state = .helloSent then some { t with state := .helloReceived }
    else none
  | .established subs =>
    if t.phase = .connecting ∧ t.state = .helloReceived ∧
        (subs : Multiset Vni) = t.connection.subscriptions.val then
      some { t with state := .established, phase := .resubscribing subs, sent := [] }
    else none
  | .resubscribe =>
    match t.phase with
    | .resubscribing (vni :: rest) =>
      some { t with phase := .resubscribing rest, sent := t.sent ++ [.subscribe vni] }
    | _ => none
  | .collect routes =>
    if t.phase = .resubscribing [] ∧
        (routes : Multiset (Vni × Route)) = announced.getAllRoutes then
      some { t with phase := .reannouncing routes }
    else none
  | .reannounce =>
    match t.phase with
    | .reannouncing ((vni, route) :: rest) =>
      some { t with
        phase := .reannouncing rest
        sent := t.sent ++ [.update .add vni route.destination route.nextHop] }
    | _ => none
  | .enterLoop =>
    if t.phase = .reannouncing [] then some { t with phase := .running } else none
  | .keepalive =>
    if t.phase = .running then some { t with sent := t.sent ++ [.keepalive] } else none
  | .receive msg =>
    if t.phase = .running then some { t with connection := (t.connection.handleMessage msg).1 }
    else none
  | .command =>
    match t.phase, t.commands with
    | .running, cmd :: rest =>
      match Connection.commandMessage cmd with
      | some msg =>
        some { t with
          connection := (t.connection.handleCommand cmd).1
          commands := rest
          sent := t.sent ++ [msg] }
      | none => some { t with state := .closed, phase := .closed, commands := rest }
    | _, _ => none
  | .commandFailed =>
    match t.phase, t.commands with
    | .running, cmd :: rest =>
      if (Connection.commandMessage cmd).isSome then
        some { t with phase := .ended, commands := rest }
      else none
    | _, _ => none
  | .connectionEnded =>
    match t.phase with
    | .connecting | .resubscribing _ | .reannouncing _ | .running =>
      some { t with phase := .ended }
    | .ended | .retrying | .closed => none
  | .clear =>
    if t.phase = .ended then
      some { t with
        state := .retry
        phase := .retrying
        connection :=
          { t.connection with receivedRoutes := t.connection.receivedRoutes.clear } }
    else none
  | .retryCommand =>
    match t.phase, t.commands with
    | .retrying, .shutdown :: rest =>
      some { t with state := .closed, phase := .closed, commands := rest }
    | .retrying, _ :: rest =>
      some { t with state := .connecting, phase := .connecting, commands := rest }
    | _, _ => none
  | .retryElapsed =>
    if t.phase = .retrying then some { t with state := .connecting, phase := .connecting }
    else none

end PeerTask

end RustBond
