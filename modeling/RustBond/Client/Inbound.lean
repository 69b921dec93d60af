import RustBond.Client.Origins
import RustBond.Lib.Lts

/-!
# `RustBond.Client.Inbound`: received routes on their way to the user's handler

The receiving side of a client: for every server the received routes of its peer task, the
tracker that the tasks share, and the calls of the user's handler so far. A server that the
client is not configured with takes no step, so the model covers any number of servers.

A peer task changes its received routes in three ways: it handles a message, it takes a
command (an unsubscribe drops the routes of the VNI), and after a connection has ended it
drops all of them. Each of these comes with calls on the task's `DeduplicatingHandler`. When
the calls follow an iteration over a hash table, the label lists them in the order of the
iteration.

Two systems differ in what a step is:

* in `Inbound.lts`, an event runs together with all its calls;
* in `Interleaved.lts`, the two halves of every call, the update of the tracker and the call
  of the user's handler, are steps of their own, and the tasks run side by side. A task does
  one thing after another, so it goes on only when its own call is complete.
-/

set_option autoImplicit false

namespace RustBond

/-- What happens at a peer task. -/
inductive PeerEvent where
  | message (msg : Message)
  | command (cmd : PeerCommand)
  | disconnect
deriving DecidableEq

namespace Connection

def new : Connection := ⟨∅, RouteTable.new⟩

/-- The end of a connection in `peer_task`: every received route is reported as removed, and
the table is cleared. -/
def disconnect (c : Connection) : Connection × Multiset HandlerCall :=
  ({ c with receivedRoutes := c.receivedRoutes.clear },
    c.receivedRoutes.getAllRoutes.map fun route => .removeRoute route.1 route.2)

/-- What the peer task does at an event, with the calls on its handler. -/
def handleEvent (c : Connection) (event : PeerEvent) : Connection × Multiset HandlerCall :=
  match event with
  | .message msg => ((c.handleMessage msg).1, ↑(c.handleMessage msg).2)
  | .command cmd => c.handleCommand cmd
  | .disconnect => c.disconnect

end Connection

/-- The receiving side of a client. -/
structure Inbound where
  connections : ServerId → Connection
  origins : RouteOriginTracker
  /-- The calls of the user's handler, oldest first. -/
  calls : List HandlerCall

namespace Inbound

def new : Inbound := ⟨fun _ => Connection.new, RouteOriginTracker.new, []⟩

/-- One call on the handler of `server`, both halves together. -/
def call (x : Inbound) (server : ServerId) (c : HandlerCall) : Inbound :=
  let (origins, calls) := DeduplicatingHandler.call server x.origins c
  { x with origins := origins, calls := x.calls ++ calls }

/-- An event at the peer task of `server`. -/
def handleEvent (x : Inbound) (server : ServerId) (event : PeerEvent)
    (calls : List HandlerCall) : Option Inbound :=
  let (connection, collected) := (x.connections server).handleEvent event
  if (calls : Multiset HandlerCall) = collected then
    let x' := { x with connections := Function.update x.connections server connection }
    some (calls.foldl (fun x c => x.call server c) x')
  else none

/-- All received routes for a VNI. -/
def getReceivedRoutes (x : Inbound) (vni : Vni) : Multiset Route :=
  (x.origins.getAll.filter fun e => e.1.1 = vni).map fun e => ⟨e.1.2.1, e.1.2.2⟩

/-- The number of routes of all servers together. -/
def routeCount (x : Inbound) : Nat := x.origins.len

def isRouteTableEmpty (x : Inbound) : Bool := x.origins.isEmpty

/-- The servers that announced a route. -/
def getRouteServers (x : Inbound) (vni : Vni) (dest : Destination) (hop : NextHop) :
    Option (HashSet ServerId) :=
  x.origins.getServers vni dest hop

/-- The label of a step: the server, the event, and its calls in their order. -/
structure Label where
  server : ServerId
  event : PeerEvent
  calls : List HandlerCall

def lts : Lts Inbound Label := ⟨new, fun x l => x.handleEvent l.server l.event l.calls⟩

end Inbound

/-- The receiving side of a client, in the middle of events and calls. -/
structure Interleaved extends Inbound where
  /-- The calls that a task has still to make on its handler. -/
  todo : ServerId → List HandlerCall
  /-- The calls of the user's handler that the tracker has asked for and that are not made
  yet, in the order of the updates of the tracker. -/
  pending : List (ServerId × HandlerCall)

namespace Interleaved

def new : Interleaved := ⟨Inbound.new, fun _ => [], []⟩

/-- The task of `server` is in the middle of a call. -/
def HalfDone (x : Interleaved) (server : ServerId) : Prop := ∃ p ∈ x.pending, p.1 = server

instance (x : Interleaved) (server : ServerId) : Decidable (x.HalfDone server) :=
  inferInstanceAs (Decidable (∃ p ∈ x.pending, p.1 = server))

inductive Label where
  /-- A peer task that has completed its calls takes the next event. -/
  | event (server : ServerId) (event : PeerEvent) (calls : List HandlerCall)
  /-- The first half of the next call of a task. -/
  | update (server : ServerId)
  /-- The second half of a call. -/
  | callback (server : ServerId)
deriving DecidableEq

def step (x : Interleaved) (l : Label) : Option Interleaved :=
  match l with
  | .event server event calls =>
    let (connection, collected) := (x.connections server).handleEvent event
    if x.todo server = [] ∧ ¬ x.HalfDone server ∧ (calls : Multiset HandlerCall) = collected then
      some { x with
        connections := Function.update x.connections server connection
        todo := Function.update x.todo server calls }
    else none
  | .update server =>
    match x.todo server with
    | [] => none
    | c :: rest =>
      if x.HalfDone server then none
      else
        let (origins, calls) := DeduplicatingHandler.call server x.origins c
        some { x with
          origins := origins
          todo := Function.update x.todo server rest
          pending := x.pending ++ calls.map fun call => (server, call) }
  | .callback server =>
    (x.pending.find? fun p => p.1 = server).map fun p =>
      { x with
        calls := x.calls ++ [p.2]
        pending := x.pending.eraseP fun p => p.1 = server }

def lts : Lts Interleaved Label := ⟨new, step⟩

end Interleaved

end RustBond
