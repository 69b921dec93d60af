import RustBond.Server.System

/-!
# `RustBond.Server.Lifecycle`: from the start of the server to its end

`MetalBondServer` in `src/server.rs` around the system of `Server/System.lean`. `start` spawns the
routing actor and the accept loop, and the accept loop spawns a `handle_peer` task for every
connection. The model has the parts of these tasks that `System` leaves out:

* the accept loop, which ends when `shutdown_rx` has a signal or no sender;
* the way of a `handle_peer` task from the handshake to its end, with its entry in the map
  `ServerState::peers`;
* the value of `MetalBondServer`, which is given to `shutdown` or dropped;
* the broadcast channel that ends the main loops. A receiver that subscribes after the signal does
  not get it, but `recv` returns as well when every sender is dropped;
* the routing actor's task, which ends when every `RoutingHandle` is dropped and its channel is
  empty. The handles are in the server, in the accept loop, in every `handle_peer` task, and in
  every clone of the `ServerState`.

The source ignores that a `send` to the actor may fail, and takes the empty list for a response that
does not come. The model does the same (`send`, `responseDropped`).

As in `System`, a write to a stream does not wait for the peer. A connection comes from an address
that no other `handle_peer` task serves.
-/

set_option autoImplicit false

namespace RustBond

/-- The value of `MetalBondServer`, and how far its `shutdown` is. -/
inductive ServerPhase where
  | running
  /-- `shutdown` has signalled the peer handlers. -/
  | peersSignalled
  /-- `shutdown` has signalled the accept loop. -/
  | acceptSignalled
  | dropped
deriving DecidableEq

/-- Where a `handle_peer` task is. -/
inductive HandlerPhase where
  | handshake
  /-- It has sent `PeerConnected`. -/
  | registered (c : SessionId)
  /-- It is in the map of the peers, and in its main loop. -/
  | serving (c : SessionId)
  /-- Past its main loop. -/
  | leaving (c : SessionId)
  /-- It is not in the map of the peers any more. -/
  | removed (c : SessionId)
  | ended
deriving DecidableEq

structure Handler where
  addr : SocketAddr
  phase : HandlerPhase
  /-- The shutdown signal is in `shutdown_rx`. -/
  signalled : Bool
deriving DecidableEq

/-- Handle to communicate with a connected peer. -/
structure PeerHandle where
  tx : SessionId
  state : ConnectionState
deriving DecidableEq

structure Lifecycle where
  system : System
  server : ServerPhase
  /-- The shutdown signal is in the channel to the accept loop. -/
  shutdownRx : Bool
  accepting : Bool
  /-- The `handle_peer` tasks that were ever spawned. -/
  handlers : List Handler
  /-- Connected peers. -/
  peers : HashMap SocketAddr PeerHandle
  /-- The clones of the `ServerState` that others hold. -/
  clones : Nat
  /-- The routing actor's task has not ended. -/
  routing : Bool

inductive LifecycleLabel where
  /-- The accept loop takes a connection. -/
  | connect (addr : SocketAddr)
  | endAccept
  | handshakeFailed (i : Nat)
  /-- The handshake is complete, and the task sends `PeerConnected`. -/
  | register (i : Nat) (addr : SocketAddr) (subscriptions : List Vni) (announced : List RouteKey)
  | insertPeer (i : Nat)
  /-- An action of the main loop. -/
  | serve (i : Nat) (c : SessionId) (action : SessionAction)
  /-- The main loop waits for a response, and its sender is dropped. -/
  | responseDropped (i : Nat) (c : SessionId)
  /-- `shutdown_rx.recv()` returns in the main loop. -/
  | signalled (i : Nat) (c : SessionId)
  /-- The main loop ends for another reason. -/
  | stop (i : Nat) (c : SessionId)
  | removePeer (i : Nat)
  /-- The task sends `PeerDisconnected`, and ends. -/
  | disconnect (i : Nat) (c : SessionId)
  /-- An action of the client at the other end. -/
  | client (c : SessionId) (action : SessionAction)
  /-- An action of the routing actor. -/
  | actor (l : Label)
  | endActor
  | shutdown
  | signalAccept
  /-- `shutdown` returns. -/
  | shutdownReturns
  /-- The server is dropped without `shutdown`. -/
  | drop
  /-- Somebody clones the `ServerState`. -/
  | clone
  | release

/-- The actions that the `handle_peer` task takes in its main loop. -/
def SessionAction.isServing (action : SessionAction) : Bool :=
  match action with
  | .read | .respond | .flush _ => true
  | .command _ | .deliver | .stop | .disconnect => false

def SessionAction.isClient (action : SessionAction) : Bool :=
  match action with
  | .command _ | .deliver => true
  | .read | .respond | .flush _ | .stop | .disconnect => false

namespace Lifecycle

/-- What `start` returns. -/
def start : Lifecycle where
  system := System.new
  server := .running
  shutdownRx := false
  accepting := true
  handlers := []
  peers := ∅
  clones := 0
  routing := true

/-- The handlers after the `i`th of them has gone on from `phase` to `next`. -/
def advance (handlers : List Handler) (i : Nat) (phase next : HandlerPhase) :
    Option (List Handler) :=
  handlers[i]?.bind fun h =>
    if h.phase = phase then some (handlers.set i { h with phase := next }) else none

/-- The system after a step. A command to an actor that has ended is lost. -/
def send (x : Lifecycle) (s : System) : System :=
  if x.routing then s else { s with commands := x.system.commands }

/-- A sender of the broadcast channel is left. -/
def Broadcasting (x : Lifecycle) : Prop := x.server ≠ .dropped ∨ x.accepting = true

/-- A `RoutingHandle` is left. -/
def Held (x : Lifecycle) : Prop :=
  x.server ≠ .dropped ∨ x.accepting = true ∨ (∃ h ∈ x.handlers, h.phase ≠ .ended) ∨ 0 < x.clones

instance (x : Lifecycle) : Decidable x.Broadcasting := inferInstanceAs (Decidable (_ ∨ _))

instance (x : Lifecycle) : Decidable x.Held := inferInstanceAs (Decidable (_ ∨ _ ∨ _ ∨ _))

def connect (x : Lifecycle) (addr : SocketAddr) : Option Lifecycle :=
  if x.accepting ∧ ∀ h ∈ x.handlers, h.phase = .ended ∨ h.addr ≠ addr then
    some { x with handlers := x.handlers ++ [⟨addr, .handshake, false⟩] }
  else none

/-- The handshake of the `i`th task is complete. -/
def register (x : Lifecycle) (i : Nat) (addr : SocketAddr) (subscriptions : List Vni)
    (announced : List RouteKey) : Option Lifecycle :=
  if (x.handlers[i]?.map fun h => h.addr) = some addr then
    (advance x.handlers i .handshake (.registered x.system.sessions.length)).bind fun handlers =>
      (x.system.accept addr subscriptions announced).map fun s =>
        { x with system := x.send s, handlers := handlers }
  else none

/-- The `i`th task enters itself into the map of the peers. -/
def insertPeer (x : Lifecycle) (i : Nat) : Option Lifecycle :=
  match x.handlers[i]? with
  | some ⟨addr, .registered c, signalled⟩ =>
    some { x with
      handlers := x.handlers.set i ⟨addr, .serving c, signalled⟩
      peers := x.peers.insert addr ⟨c, .established⟩ }
  | _ => none

/-- The `i`th task removes itself from the map of the peers. -/
def removePeer (x : Lifecycle) (i : Nat) : Option Lifecycle :=
  match x.handlers[i]? with
  | some ⟨addr, .leaving c, signalled⟩ =>
    some { x with
      handlers := x.handlers.set i ⟨addr, .removed c, signalled⟩
      peers := x.peers.erase addr }
  | _ => none

/-- A step of the session `c` by which the `i`th task goes on from `phase` to `next`. -/
def handle (x : Lifecycle) (i : Nat) (c : SessionId) (phase next : HandlerPhase)
    (action : SessionAction) : Option Lifecycle :=
  (advance x.handlers i phase next).bind fun handlers =>
    (x.system.sessionStep c action).map fun s =>
      { x with system := x.send s, handlers := handlers }

/-- `response_rx.await.unwrap_or_default()` after the actor has ended. -/
def responseDropped (x : Lifecycle) (i : Nat) (c : SessionId) : Option Lifecycle :=
  if x.routing = false ∧ (x.handlers[i]?.map fun h => h.phase) = some (.serving c) then
    some { x with
      system := { x.system with sessions := x.system.sessions.modify c fun y => y.receive [] } }
  else none

def step (capacity : Nat) (x : Lifecycle) (l : LifecycleLabel) : Option Lifecycle :=
  match l with
  | .connect addr => x.connect addr
  | .endAccept =>
    if x.accepting ∧ (x.shutdownRx ∨ x.server = .dropped) then some { x with accepting := false }
    else none
  | .handshakeFailed i =>
    (advance x.handlers i .handshake .ended).map fun handlers => { x with handlers := handlers }
  | .register i addr subscriptions announced => x.register i addr subscriptions announced
  | .insertPeer i => x.insertPeer i
  | .serve i c action =>
    if action.isServing then x.handle i c (.serving c) (.serving c) action else none
  | .responseDropped i c => x.responseDropped i c
  | .signalled i c =>
    if (x.handlers[i]?.any fun h => h.signalled) ∨ ¬ x.Broadcasting then
      x.handle i c (.serving c) (.leaving c) .stop
    else none
  | .stop i c => x.handle i c (.serving c) (.leaving c) .stop
  | .removePeer i => x.removePeer i
  | .disconnect i c => x.handle i c (.removed c) .ended .disconnect
  | .client c action =>
    if action.isClient then
      (x.system.sessionStep c action).map fun s => { x with system := s }
    else none
  | .actor l =>
    if x.routing ∧ l.isActor then
      (x.system.step capacity l).map fun s => { x with system := s }
    else none
  | .endActor =>
    if x.routing ∧ ¬ x.Held ∧ x.system.commands = [] ∧ x.system.distribution.isNone then
      some { x with routing := false }
    else none
  | .shutdown =>
    if x.server = .running then
      some { x with
        server := .peersSignalled
        handlers := x.handlers.map fun h => { h with signalled := true } }
    else none
  | .signalAccept =>
    if x.server = .peersSignalled then
      some { x with server := .acceptSignalled, shutdownRx := true }
    else none
  | .shutdownReturns =>
    if x.server = .acceptSignalled then some { x with server := .dropped } else none
  | .drop => if x.server = .running then some { x with server := .dropped } else none
  | .clone =>
    if x.server = .running ∨ 0 < x.clones then some { x with clones := x.clones + 1 } else none
  | .release => if 0 < x.clones then some { x with clones := x.clones - 1 } else none

/-- A server from its start on, for channels of the given capacity. -/
def lts (capacity : Nat) : Lts Lifecycle LifecycleLabel := ⟨start, step capacity⟩

/-- The number of connected peers. -/
def peerCount (x : Lifecycle) : Nat := x.peers.len

end Lifecycle

/-- What a step of the server is in `System`. -/
def LifecycleLabel.system (l : LifecycleLabel) : Option Label :=
  match l with
  | .register _ addr subscriptions announced => some (.accept addr subscriptions announced)
  | .serve _ c action => some (.session c action)
  | .signalled _ c | .stop _ c => some (.session c .stop)
  | .disconnect _ c => some (.session c .disconnect)
  | .client c action => some (.session c action)
  | .actor l => some l
  | .connect _ | .endAccept | .handshakeFailed _ | .insertPeer _ | .responseDropped _ _
  | .removePeer _ | .endActor | .shutdown | .signalAccept | .shutdownReturns | .drop | .clone
  | .release => none

/-- The tasks of the server and of its clients make the step on their own. -/
def LifecycleLabel.isOwn (l : LifecycleLabel) : Bool :=
  match l with
  | .endAccept | .insertPeer _ | .serve _ _ _ | .responseDropped _ _ | .signalled _ _
  | .removePeer _ | .disconnect _ _ | .actor _ | .endActor | .signalAccept
  | .shutdownReturns => true
  | .client _ action => action = .deliver
  | .connect _ | .handshakeFailed _ | .register _ _ _ _ | .stop _ _ | .shutdown | .drop | .clone
  | .release => false

end RustBond
