import RustBond.Lib.Lts
import RustBond.Route
import RustBond.Wire

/-!
# `RustBond.Server.Routing`: the routing actor

The translation of `RoutingActor` in `src/server.rs`. The actor owns all routing state and
takes one command after another from its channel.

A handler of the source edits the tables, offers messages to the peers' bounded channels
with `try_send`, and at the end drops the peers for which a `try_send` returned `Full`.
The model keeps these three parts apart:

* `handle` returns the edited tables, the messages to offer (`Delivery`) and the reply on
  the command's oneshot channel;
* which `try_send` finds a full channel is up to the channels (`Server/System.lean`);
* `removeSlowConsumers` is the loop at the end of the handlers.

`RoutingActor.system` is the actor alone. Its environment chooses the commands and, for
each of them, which of the offered peers turn out to be slow, so its runs cover every
behaviour of the channels.
-/

set_option autoImplicit false

namespace RustBond

/-- One accepted connection: its `handle_peer` task and the channels this task creates. A
channel end (`tx`, `response_tx`) is named by the session that owns the other end. -/
abbrev SessionId : Type := Nat

/-- Commands sent to the routing actor. -/
inductive RoutingCommand where
  | peerConnected (addr : SocketAddr) (tx : SessionId)
  | peerDisconnected (addr : SocketAddr)
  | subscribe (addr : SocketAddr) (vni : Vni) (responseTx : SessionId)
  | unsubscribe (addr : SocketAddr) (vni : Vni)
  | update (fromAddr : SocketAddr) (action : Action) (vni : Vni) (destination : Destination)
      (nextHop : NextHop)
  | getStats
deriving DecidableEq

/-- The state that the routing actor owns. -/
structure RoutingActor where
  /-- VNI -> Destination -> Set<NextHop> -/
  routes : RouteTable
  /-- Route ownership: which peer announced each route. -/
  routeOwners : HashMap RouteKey SocketAddr
  /-- VNI -> set of subscribed peer addresses. -/
  subscriptions : HashMap Vni (HashSet SocketAddr)
  /-- Peer channels for distribution. -/
  peers : HashMap SocketAddr SessionId

/-- One pass of a distribution loop: `msg` is offered to every target that has a channel in
`peers`, in an unspecified order. -/
structure Delivery where
  msg : Message
  targets : HashSet SocketAddr

/-- What the actor sends on the oneshot channel of a command. -/
inductive Reply where
  | nothing
  | routes (responseTx : SessionId) (routes : Multiset (Destination × NextHop))
  | stats (routes owners peers subscriptions : Nat)

/-- The result of the table edits of one command. -/
structure Outcome where
  actor : RoutingActor
  deliveries : List Delivery
  reply : Reply

namespace RoutingActor

def new : RoutingActor where
  routes := RouteTable.new
  routeOwners := ∅
  subscriptions := ∅
  peers := ∅

/-- Subscribes the peer and returns the existing routes of the VNI. -/
def handleSubscribe (s : RoutingActor) (addr : SocketAddr) (vni : Vni) :
    RoutingActor × Multiset (Destination × NextHop) :=
  let subs := (s.subscriptions.lookup vni).getD ∅
  ({ s with subscriptions := s.subscriptions.insert vni (insert addr subs) },
    (s.routes.getDestinationsByVni vni).entries.bind fun e => e.2.map fun hop => (e.1, hop))

def handleUnsubscribe (s : RoutingActor) (addr : SocketAddr) (vni : Vni) : RoutingActor :=
  match s.subscriptions.lookup vni with
  | none => s
  | some peers =>
    let peers' := peers.erase addr
    { s with
      subscriptions :=
        if peers' = ∅ then s.subscriptions.erase vni else s.subscriptions.insert vni peers' }

/-- The edit of `routes` and `route_owners` in `handle_update`. -/
def updateTables (s : RoutingActor) (fromAddr : SocketAddr) (action : Action) (vni : Vni)
    (destination : Destination) (nextHop : NextHop) : RoutingActor :=
  match action with
  | .add =>
    { s with
      routes := (s.routes.addNextHop vni destination nextHop).1
      routeOwners := s.routeOwners.insert (vni, destination, nextHop) fromAddr }
  | .remove =>
    { s with
      routes := (s.routes.removeNextHop vni destination nextHop).1
      routeOwners := s.routeOwners.erase (vni, destination, nextHop) }

/-- `handle_update` up to the `try_send` calls: the subscribers of the VNI other than the
sender are offered the update. -/
def handleUpdate (s : RoutingActor) (fromAddr : SocketAddr) (action : Action) (vni : Vni)
    (destination : Destination) (nextHop : NextHop) : RoutingActor × List Delivery :=
  let s' := s.updateTables fromAddr action vni destination nextHop
  match s'.subscriptions.lookup vni with
  | none => (s', [])
  | some subs =>
    (s', [⟨.update action vni destination nextHop, subs.filter fun addr => addr ≠ fromAddr⟩])

/-- The first half of `handle_peer_disconnected`: the peer's channel and subscriptions go. -/
def unregister (s : RoutingActor) (addr : SocketAddr) : RoutingActor :=
  { s with
    peers := s.peers.erase addr
    subscriptions := (s.subscriptions.mapValues fun peers => peers.erase addr).retain
      fun _ peers => decide (peers ≠ ∅) }

/-- The routes that `handle_peer_disconnected` collects from `route_owners`. -/
def ownedRoutes (s : RoutingActor) (addr : SocketAddr) : Multiset RouteKey :=
  (s.routeOwners.entries.filter fun e => e.2 = addr).map fun e => e.1

/-- The loop of `handle_peer_disconnected` over the collected routes: each is removed from
both tables, and the subscribers of its VNI are offered the removal. -/
def withdrawOwned (s : RoutingActor) : List RouteKey → RoutingActor × List Delivery
  | [] => (s, [])
  | (vni, destination, nextHop) :: owned =>
    let s' :=
      { s with
        routes := (s.routes.removeNextHop vni destination nextHop).1
        routeOwners := s.routeOwners.erase (vni, destination, nextHop) }
    let (s'', deliveries) := s'.withdrawOwned owned
    match s'.subscriptions.lookup vni with
    | none => (s'', deliveries)
    | some subs => (s'', ⟨.update .remove vni destination nextHop, subs⟩ :: deliveries)

/-- `handle_peer_disconnected` up to the removal of slow consumers. `owned` lists the
collected routes in the order of the iteration. -/
def handlePeerDisconnected (s : RoutingActor) (addr : SocketAddr) (owned : List RouteKey) :
    RoutingActor × List Delivery :=
  (s.unregister addr).withdrawOwned owned

/-- The loop over `slow_consumers` at the end of `handle_update` and
`handle_peer_disconnected`. -/
def removeSlowConsumers (s : RoutingActor) (slow : HashSet SocketAddr) : RoutingActor :=
  { s with
    peers := s.peers.retain fun addr _ => decide (addr ∉ slow)
    subscriptions := s.subscriptions.mapValues fun subs => subs \ slow }

/-- One iteration of `run`, up to the `try_send` calls. -/
def handle (s : RoutingActor) (cmd : RoutingCommand) (owned : List RouteKey) : Outcome :=
  match cmd with
  | .peerConnected addr tx => ⟨{ s with peers := s.peers.insert addr tx }, [], .nothing⟩
  | .peerDisconnected addr =>
    let (s', deliveries) := s.handlePeerDisconnected addr owned
    ⟨s', deliveries, .nothing⟩
  | .subscribe addr vni responseTx =>
    let (s', routes) := s.handleSubscribe addr vni
    ⟨s', [], .routes responseTx routes⟩
  | .unsubscribe addr vni => ⟨s.handleUnsubscribe addr vni, [], .nothing⟩
  | .update fromAddr action vni destination nextHop =>
    let (s', deliveries) := s.handleUpdate fromAddr action vni destination nextHop
    ⟨s', deliveries, .nothing⟩
  | .getStats =>
    ⟨s, [], .stats s.routes.len s.routeOwners.len s.peers.len
      (s.subscriptions.entries.map fun e => e.2.card).sum⟩

/-- The routes that the handler of `cmd` collects before it iterates over them. -/
def collectedRoutes (s : RoutingActor) (cmd : RoutingCommand) : Multiset RouteKey :=
  match cmd with
  | .peerDisconnected addr => s.ownedRoutes addr
  | _ => 0

/-- The peers that receive a `try_send` call for these deliveries. -/
def offered (s : RoutingActor) (deliveries : List Delivery) : HashSet SocketAddr :=
  deliveries.foldr (fun d acc => (d.targets.filter fun addr => addr ∈ s.peers) ∪ acc) ∅

end RoutingActor

/-- One turn of the actor: a command with the session that sent it, and what the actor's
environment decides while it is processed: the iteration order of `route_owners`, and the
peers for which some `try_send` returns `Full`. -/
structure Turn where
  session : SessionId
  cmd : RoutingCommand
  owned : List RouteKey
  slow : HashSet SocketAddr

/-- A complete iteration of `run`. -/
def RoutingActor.turn (s : RoutingActor) (t : Turn) : Option RoutingActor :=
  let out := s.handle t.cmd t.owned
  if (t.owned : Multiset RouteKey) = s.collectedRoutes t.cmd ∧
      t.slow ⊆ out.actor.offered out.deliveries then
    some (out.actor.removeSlowConsumers t.slow)
  else none

/-- The routing actor on its own. -/
def RoutingActor.system : Lts RoutingActor Turn := ⟨RoutingActor.new, RoutingActor.turn⟩

end RustBond
