import RustBond.Route
import RustBond.Wire

/-!
# `RustBond.Peer`: the main loop of the client's peer task

The translation of `run_connection` and `handle_message` in `src/peer.rs`, as far as they
touch the task's own state: the VNIs that the peer has subscribed to and the routes that it
has received. `handleMessage` is the branch for incoming data and `handleCommand` is the
branch for the commands of the client.

A call of the peer task on its `RouteHandler` is a value here (`HandlerCall`). Both functions
return the calls that they make. An `Unsubscribe` makes its calls in the unspecified order of
the hash table, so a multiset of calls is returned.
-/

set_option autoImplicit false

namespace RustBond

/-- Commands from the client to its peer task. -/
inductive PeerCommand where
  | subscribe (vni : Vni)
  | unsubscribe (vni : Vni)
  | sendUpdate (msg : Message)
  | shutdown
deriving DecidableEq

/-- A call of a peer task on its `RouteHandler`. -/
inductive HandlerCall where
  | addRoute (vni : Vni) (route : Route)
  | removeRoute (vni : Vni) (route : Route)
deriving DecidableEq

/-- The state of a peer task that its main loop works on. -/
structure Connection where
  /-- The peer's own subscriptions, which it repeats when it reconnects. -/
  subscriptions : HashSet Vni
  /-- The routes received from the server. -/
  receivedRoutes : RouteTable

namespace Connection

/-- Handles a received message. The client ignores everything but updates. -/
def handleMessage (c : Connection) (msg : Message) : Connection × List HandlerCall :=
  match msg with
  | .hello _ _ => (c, [])
  | .keepalive => (c, [])
  | .subscribe _ => (c, [])
  | .unsubscribe _ => (c, [])
  | .update .add vni destination nextHop =>
    let (receivedRoutes, added) := c.receivedRoutes.addNextHop vni destination nextHop
    ({ c with receivedRoutes := receivedRoutes },
      if added then [.addRoute vni ⟨destination, nextHop⟩] else [])
  | .update .remove vni destination nextHop =>
    let (receivedRoutes, removed, _) := c.receivedRoutes.removeNextHop vni destination nextHop
    ({ c with receivedRoutes := receivedRoutes },
      if removed then [.removeRoute vni ⟨destination, nextHop⟩] else [])

/-- The message that the peer task writes for a command. `Shutdown` ends the connection. -/
def commandMessage (cmd : PeerCommand) : Option Message :=
  match cmd with
  | .subscribe vni => some (.subscribe vni)
  | .unsubscribe vni => some (.unsubscribe vni)
  | .sendUpdate msg => some msg
  | .shutdown => none

/-- What the peer task does for a command after its message is written. -/
def handleCommand (c : Connection) (cmd : PeerCommand) : Connection × Multiset HandlerCall :=
  match cmd with
  | .subscribe vni => ({ c with subscriptions := insert vni c.subscriptions }, 0)
  | .unsubscribe vni =>
    let (receivedRoutes, removed) := c.receivedRoutes.removeVni vni
    (⟨c.subscriptions.erase vni, receivedRoutes⟩,
      removed.map fun route => .removeRoute vni route)
  | .sendUpdate _ => (c, 0)
  | .shutdown => (c, 0)

end Connection

end RustBond
