import RustBond.Lib.History
import RustBond.Server.Routing

/-!
# `RustBond.Server.History`: what a history of commands means

A history is the list of the commands that the actor has taken from its channel, oldest
first, each with the session that sent it. The functions of this module read a history as
its senders understand it, with no reference to the actor's tables:

* `holder h a` is the open session at the address `a`;
* `latest h r` is the most recent update on the route `r`, with its session;
* `owner h r` is the address that announced `r` last, while the announcement stands;
* `latestBy h c r` is the most recent update that the session `c` sent on `r`;
* `subscribed h c v` tells whether the last subscribe or unsubscribe that `c` sent for `v`
  is a subscribe;
* `subscriber h a v` tells whether the address `a` is subscribed to `v`.

`Disciplined` is the order in which the `handle_peer` tasks send commands. A session sends
`PeerConnected` first and `PeerDisconnected` last. An address is taken again only after the
`PeerDisconnected` of the session that held it.
-/

set_option autoImplicit false

namespace RustBond

/-- A command with the session that sent it. -/
abbrev Event : Type := SessionId × RoutingCommand

namespace Event

/-- The effect of an event on the holder of the address `a`. -/
def holderStep (a : SocketAddr) (holder : Option SessionId) (e : Event) : Option SessionId :=
  match e.2 with
  | .peerConnected addr _ => if addr = a then some e.1 else holder
  | .peerDisconnected addr => if addr = a then none else holder
  | _ => holder

/-- The open session at the address `a`. -/
def holder (h : List Event) (a : SocketAddr) : Option SessionId :=
  History.fold (holderStep a) none h

/-- The effect of an event on the most recent update on `r`. -/
def latestStep (r : RouteKey) (last : Option (SessionId × Action)) (e : Event) :
    Option (SessionId × Action) :=
  match e.2 with
  | .update _ action vni destination nextHop =>
    if (vni, destination, nextHop) = r then some (e.1, action) else last
  | _ => last

/-- The most recent update on `r`, with the session that sent it. -/
def latest (h : List Event) (r : RouteKey) : Option (SessionId × Action) :=
  History.fold (latestStep r) none h

/-- The effect of an event on the owner of `r`: an add makes its sender the owner, a remove
by anybody and the disconnect of the owner leave `r` without one. -/
def ownerStep (r : RouteKey) (owner : Option SocketAddr) (e : Event) : Option SocketAddr :=
  match e.2 with
  | .update fromAddr .add vni destination nextHop =>
    if (vni, destination, nextHop) = r then some fromAddr else owner
  | .update _ .remove vni destination nextHop =>
    if (vni, destination, nextHop) = r then none else owner
  | .peerDisconnected addr => if owner = some addr then none else owner
  | _ => owner

/-- The owner of `r`: the address that announced it last, as long as nobody has withdrawn
`r` since and the address has not disconnected. -/
def owner (h : List Event) (r : RouteKey) : Option SocketAddr :=
  History.fold (ownerStep r) none h

/-- The events that the session `c` sent. -/
def ofSession (h : List Event) (c : SessionId) : List Event := h.filter fun e => e.1 = c

/-- The most recent update on `r` that the session `c` sent. -/
def latestBy (h : List Event) (c : SessionId) (r : RouteKey) : Option Action :=
  (latest (ofSession h c) r).map Prod.snd

/-- The effect of a command on whether its session is subscribed to `v`. -/
def subscribedStep (v : Vni) (sub : Bool) (e : Event) : Bool :=
  match e.2 with
  | .subscribe _ vni _ => if vni = v then true else sub
  | .unsubscribe _ vni => if vni = v then false else sub
  | _ => sub

/-- Whether the last subscribe or unsubscribe that `c` sent for `v` is a subscribe. -/
def subscribed (h : List Event) (c : SessionId) (v : Vni) : Bool :=
  History.fold (subscribedStep v) false (ofSession h c)

/-- The event is a subscribe command of the session `c` for `v`. -/
def subscribes (e : Event) (c : SessionId) (v : Vni) : Bool :=
  match e.2 with
  | .subscribe _ vni _ => e.1 = c ∧ vni = v
  | _ => false

/-- The effect of an event on whether the address `a` is subscribed to `v`. -/
def subscriberStep (a : SocketAddr) (v : Vni) (sub : Bool) (e : Event) : Bool :=
  match e.2 with
  | .subscribe addr vni _ => if addr = a ∧ vni = v then true else sub
  | .unsubscribe addr vni => if addr = a ∧ vni = v then false else sub
  | .peerDisconnected addr => if addr = a then false else sub
  | _ => sub

/-- Whether the address `a` is subscribed to `v`. -/
def subscriber (h : List Event) (a : SocketAddr) (v : Vni) : Bool :=
  History.fold (subscriberStep a v) false h

/-- When a session may send a command. -/
def Allowed (past : List Event) (e : Event) : Prop :=
  match e.2 with
  | .peerConnected addr tx => holder past addr = none ∧ tx = e.1 ∧ ∀ e' ∈ past, e'.1 ≠ e.1
  | .peerDisconnected addr => holder past addr = some e.1
  | .subscribe addr _ responseTx => holder past addr = some e.1 ∧ responseTx = e.1
  | .unsubscribe addr _ => holder past addr = some e.1
  | .update addr _ _ _ _ => holder past addr = some e.1
  | .getStats => True

instance (past : List Event) : (e : Event) → Decidable (Allowed past e)
  | (c, .peerConnected addr tx) =>
    inferInstanceAs (Decidable (holder past addr = none ∧ tx = c ∧ ∀ e' ∈ past, e'.1 ≠ c))
  | (c, .peerDisconnected addr) => inferInstanceAs (Decidable (holder past addr = some c))
  | (c, .subscribe addr _ responseTx) =>
    inferInstanceAs (Decidable (holder past addr = some c ∧ responseTx = c))
  | (c, .unsubscribe addr _) => inferInstanceAs (Decidable (holder past addr = some c))
  | (c, .update addr _ _ _ _) => inferInstanceAs (Decidable (holder past addr = some c))
  | (_, .getStats) => inferInstanceAs (Decidable True)

/-- Every command of the history is allowed after the commands before it. -/
abbrev Disciplined (h : List Event) : Prop := History.Obeys Allowed h

/-- A session withdraws only a route that it has itself added and not yet removed. -/
def WithdrawsOwn (past : List Event) (e : Event) : Prop :=
  match e.2 with
  | .update _ .remove vni destination nextHop =>
    latestBy past e.1 (vni, destination, nextHop) = some .add
  | _ => True

instance (past : List Event) : (e : Event) → Decidable (WithdrawsOwn past e)
  | (c, .update _ .remove vni destination nextHop) =>
    inferInstanceAs (Decidable (latestBy past c (vni, destination, nextHop) = some .add))
  | (_, .update _ .add _ _ _) => inferInstanceAs (Decidable True)
  | (_, .peerConnected _ _) => inferInstanceAs (Decidable True)
  | (_, .peerDisconnected _) => inferInstanceAs (Decidable True)
  | (_, .subscribe _ _ _) => inferInstanceAs (Decidable True)
  | (_, .unsubscribe _ _) => inferInstanceAs (Decidable True)
  | (_, .getStats) => inferInstanceAs (Decidable True)

end Event

/-- The event of a turn. -/
def Turn.event (t : Turn) : Event := (t.session, t.cmd)

end RustBond
