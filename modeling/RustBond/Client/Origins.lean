import RustBond.Peer

/-!
# `RustBond.Client.Origins`: which servers announced a route

The translation of `RouteOriginTracker` and `DeduplicatingHandler` in `src/client.rs`. All
peer tasks of a client share one tracker, which maps a route to the set of servers that have
announced it. No set in it is empty: `add_origin` fills the set that it creates, and
`remove_origin` and `remove_server` drop the sets that they empty. The structure carries this
as a field.

The peer task of a server calls the `DeduplicatingHandler` of that server. A call first
updates the tracker, under its lock, and then calls the user's handler if the update says
so. `DeduplicatingHandler.call` returns the updated tracker and the calls that remain to be
made, so a model can put other steps between the two.
-/

set_option autoImplicit false

namespace RustBond

/-- Unique identifier for each server connection. -/
structure ServerId where
  id : Nat
deriving DecidableEq

/-- The servers that announced each route. -/
structure RouteOriginTracker where
  inner : HashMap RouteKey (HashSet ServerId)
  noEmpty : ∀ r servers, inner.lookup r = some servers → servers ≠ ∅

namespace RouteOriginTracker

def new : RouteOriginTracker where
  inner := ∅
  noEmpty := by
    intro r servers h
    rw [Finmap.lookup_empty] at h
    cases h

/-- An origin set that is not empty can be inserted. -/
theorem noEmpty_insert (t : RouteOriginTracker) (key : RouteKey) {servers' : HashSet ServerId}
    (hne : servers' ≠ ∅) (r : RouteKey) (servers : HashSet ServerId)
    (h : (t.inner.insert key servers').lookup r = some servers) : servers ≠ ∅ := by
  rw [HashMap.lookup_insert'] at h
  split at h
  · cases h
    exact hne
  · exact t.noEmpty r servers h

/-- Erasing a route leaves no empty origin set behind. -/
theorem noEmpty_erase (t : RouteOriginTracker) (key r : RouteKey) (servers : HashSet ServerId)
    (h : (t.inner.erase key).lookup r = some servers) : servers ≠ ∅ := by
  rw [HashMap.lookup_erase'] at h
  split at h
  · cases h
  · exact t.noEmpty r servers h

/-- Records that a server announced this route. The flag is true if it is the first one. -/
def addOrigin (t : RouteOriginTracker) (vni : Vni) (dest : Destination) (hop : NextHop)
    (server : ServerId) : RouteOriginTracker × Bool :=
  let key := (vni, dest, hop)
  let servers := (t.inner.lookup key).getD ∅
  (⟨t.inner.insert key (insert server servers),
      t.noEmpty_insert key (Finset.insert_ne_empty server servers)⟩,
    decide (servers = ∅))

/-- Records that a server withdrew this route. The flag is true if no server is left. -/
def removeOrigin (t : RouteOriginTracker) (vni : Vni) (dest : Destination) (hop : NextHop)
    (server : ServerId) : RouteOriginTracker × Bool :=
  let key := (vni, dest, hop)
  match t.inner.lookup key with
  | none => (t, false)
  | some servers =>
    if h : servers.erase server = ∅ then (⟨t.inner.erase key, t.noEmpty_erase key⟩, true)
    else (⟨t.inner.insert key (servers.erase server), t.noEmpty_insert key h⟩, false)

/-- Removes all routes from a server. Returns those that no server is left for, in an
unspecified order. -/
def removeServer (t : RouteOriginTracker) (server : ServerId) :
    RouteOriginTracker × Multiset RouteKey :=
  let left := t.inner.mapValues fun servers => servers.erase server
  (⟨left.retain fun _ servers => decide (servers ≠ ∅), by
      intro r servers h
      rw [HashMap.lookup_retain, Option.filter_eq_some_iff] at h
      exact of_decide_eq_true h.2⟩,
    (left.entries.filter fun e => e.2 = ∅).map fun e => e.1)

def getServers (t : RouteOriginTracker) (vni : Vni) (dest : Destination) (hop : NextHop) :
    Option (HashSet ServerId) :=
  t.inner.lookup (vni, dest, hop)

/-- The number of routes. -/
def len (t : RouteOriginTracker) : Nat := t.inner.len

def isEmpty (t : RouteOriginTracker) : Bool := t.len == 0

/-- All routes with their servers. -/
def getAll (t : RouteOriginTracker) : Multiset (RouteKey × HashSet ServerId) :=
  t.inner.entries.map fun e => (e.1, e.2)

/-- `remove_server_routes` of the client: the calls of the user's handler, and the routes that it
returns. -/
def removeServerRoutes (t : RouteOriginTracker) (server : ServerId) :
    RouteOriginTracker × Multiset HandlerCall × Multiset Route :=
  let (t', removed) := t.removeServer server
  (t', removed.map fun r => .removeRoute r.1 ⟨r.2.1, r.2.2⟩, removed.map fun r => ⟨r.2.1, r.2.2⟩)

end RouteOriginTracker

namespace DeduplicatingHandler

/-- `add_route` of the handler for `server`. -/
def addRoute (server : ServerId) (t : RouteOriginTracker) (vni : Vni) (route : Route) :
    RouteOriginTracker × List HandlerCall :=
  let (t', first) := t.addOrigin vni route.destination route.nextHop server
  (t', if first then [.addRoute vni route] else [])

/-- `remove_route` of the handler for `server`. -/
def removeRoute (server : ServerId) (t : RouteOriginTracker) (vni : Vni) (route : Route) :
    RouteOriginTracker × List HandlerCall :=
  let (t', last) := t.removeOrigin vni route.destination route.nextHop server
  (t', if last then [.removeRoute vni route] else [])

/-- A call of the peer task of `server`: the tracker after it, and the calls to the user's
handler that it asks for. -/
def call (server : ServerId) (t : RouteOriginTracker) (c : HandlerCall) :
    RouteOriginTracker × List HandlerCall :=
  match c with
  | .addRoute vni route => addRoute server t vni route
  | .removeRoute vni route => removeRoute server t vni route

end DeduplicatingHandler

end RustBond
