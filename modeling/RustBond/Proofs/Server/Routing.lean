import RustBond.Proofs.Peer
import RustBond.Server.History

/-!
# `RustBond.Proofs.Server.Routing`: what one command does to the actor's tables

One lemma per table, over all commands at once:

* `lookup_routeOwners_handle` and `mem_routes_handle` for the two route tables;
* `mem_subscribers_handle` for the subscriptions;
* `lookup_peers_handle` for the channels;
* `after_offeredTo_handle` for the messages that are offered. They tell a subscriber about
  every change of the routes, except its own.

`removeSlowConsumers` touches the subscriptions and the channels only. The later proofs use
these lemmas and do not unfold the handlers.
-/

set_option autoImplicit false

namespace RustBond

/-- The edit of the server's table that a command asks for. -/
def RoutingCommand.edit (cmd : RoutingCommand) : Option (Edit RouteKey) :=
  match cmd with
  | .update _ .add vni destination nextHop => some (.insert (vni, destination, nextHop))
  | .update _ .remove vni destination nextHop => some (.erase (vni, destination, nextHop))
  | _ => none

namespace RoutingActor

/-- The subscribers of a VNI. -/
def subscribers (s : RoutingActor) (vni : Vni) : HashSet SocketAddr :=
  (s.subscriptions.lookup vni).getD ∅

/-- The subscribers of a VNI with an entry are that entry. -/
theorem subscribers_of_lookup {s : RoutingActor} {v : Vni} {subs : HashSet SocketAddr}
    (h : s.subscriptions.lookup v = some subs) : s.subscribers v = subs := by
  simp [subscribers, h]

/-- The routes that a peer owns are those recorded under its address. -/
theorem mem_ownedRoutes (s : RoutingActor) (addr : SocketAddr) (r : RouteKey) :
    r ∈ s.ownedRoutes addr ↔ s.routeOwners.lookup r = some addr := by
  simp only [ownedRoutes, Multiset.mem_map, Multiset.mem_filter]
  constructor
  · rintro ⟨⟨r', a⟩, ⟨hmem, rfl⟩, rfl⟩
    exact Finmap.lookup_eq_some_iff.mpr hmem
  · intro h
    exact ⟨⟨r, addr⟩, ⟨Finmap.lookup_eq_some_iff.mp h, rfl⟩, rfl⟩

/-- The routes collected for a disconnect, in whatever order the map yields them, are those
recorded under the peer's address. -/
theorem mem_owned_iff {s : RoutingActor} {addr : SocketAddr} {owned : List RouteKey}
    (hord : (owned : Multiset RouteKey) = s.collectedRoutes (.peerDisconnected addr))
    (r : RouteKey) : r ∈ owned ↔ s.routeOwners.lookup r = some addr := by
  rw [← mem_ownedRoutes, ← Multiset.mem_coe, hord]
  rfl

/-- Every route is collected once. -/
theorem nodup_owned {s : RoutingActor} {addr : SocketAddr} {owned : List RouteKey}
    (hord : (owned : Multiset RouteKey) = s.collectedRoutes (.peerDisconnected addr)) :
    owned.Nodup := by
  rw [← Multiset.coe_nodup, hord]
  exact Multiset.nodup_of_le (Multiset.map_le_map (Multiset.filter_le _ _))
    (Multiset.nodup_keys.mpr s.routeOwners.nodupKeys)

/-! ### The disconnect loop -/

/-- The withdrawal of a peer's routes leaves the other peers connected. -/
theorem withdrawOwned_peers (s : RoutingActor) (owned : List RouteKey) :
    (s.withdrawOwned owned).1.peers = s.peers := by
  induction owned generalizing s with
  | nil => rfl
  | cons r owned ih =>
    simp only [withdrawOwned]
    split <;> exact ih _

/-- The withdrawal of a peer's routes leaves the subscriptions as they are. -/
theorem withdrawOwned_subscriptions (s : RoutingActor) (owned : List RouteKey) :
    (s.withdrawOwned owned).1.subscriptions = s.subscriptions := by
  induction owned generalizing s with
  | nil => rfl
  | cons r owned ih =>
    simp only [withdrawOwned]
    split <;> exact ih _

/-- The withdrawal of a peer's routes leaves the subscribers of every VNI as they are. -/
theorem subscribers_withdrawOwned (s : RoutingActor) (owned : List RouteKey) (v : Vni) :
    (s.withdrawOwned owned).1.subscribers v = s.subscribers v := by
  unfold subscribers
  rw [withdrawOwned_subscriptions]

/-- Exactly the listed routes leave the table. -/
theorem mem_routes_withdrawOwned (s : RoutingActor) (owned : List RouteKey) (r : RouteKey) :
    r ∈ (s.withdrawOwned owned).1.routes ↔ r ∈ s.routes ∧ r ∉ owned := by
  induction owned generalizing s with
  | nil => simp [withdrawOwned]
  | cons r' owned ih =>
    have hrec := ih { s with
      routes := (s.routes.removeNextHop r'.1 r'.2.1 r'.2.2).1
      routeOwners := s.routeOwners.erase (r'.1, r'.2.1, r'.2.2) }
    simp only [withdrawOwned]
    split <;>
      · rw [hrec, RouteTable.mem_removeNextHop, List.mem_cons]
        tauto

/-- Exactly the listed routes lose their owner. -/
theorem lookup_routeOwners_withdrawOwned (s : RoutingActor) (owned : List RouteKey)
    (r : RouteKey) :
    (s.withdrawOwned owned).1.routeOwners.lookup r
      = if r ∈ owned then none else s.routeOwners.lookup r := by
  induction owned generalizing s with
  | nil => simp [withdrawOwned]
  | cons r' owned ih =>
    have hrec := ih { s with
      routes := (s.routes.removeNextHop r'.1 r'.2.1 r'.2.2).1
      routeOwners := s.routeOwners.erase (r'.1, r'.2.1, r'.2.2) }
    have hstep : (s.withdrawOwned (r' :: owned)).1.routeOwners.lookup r
        = if r ∈ owned then none
          else (s.routeOwners.erase (r'.1, r'.2.1, r'.2.2)).lookup r := by
      simp only [withdrawOwned]
      split <;> exact hrec
    -- The first route is erased, and it stays so.
    rw [hstep, HashMap.lookup_erase']
    by_cases hr : r = r'
    · simp [hr]
    · simp [hr]

/-- The disconnect loop offers, for each collected route, its removal to the subscribers of
its VNI. -/
theorem withdrawOwned_deliveries (s : RoutingActor) (owned : List RouteKey) :
    (s.withdrawOwned owned).2 = owned.filterMap fun r =>
      (s.subscriptions.lookup r.1).map fun subs => ⟨.update .remove r.1 r.2.1 r.2.2, subs⟩ := by
  induction owned generalizing s with
  | nil => rfl
  | cons r owned ih =>
    simp only [withdrawOwned, List.filterMap_cons]
    cases hsubs : s.subscriptions.lookup r.1 with
    | none => simp only [Option.map_none, ih]
    | some subs => simp only [Option.map_some, ih]

/-! ### The route tables -/

/-- Unregistering a peer does not touch the routes. -/
@[simp] theorem unregister_routes (s : RoutingActor) (addr : SocketAddr) :
    (s.unregister addr).routes = s.routes := rfl

/-- Unregistering a peer does not touch the owners. -/
@[simp] theorem unregister_routeOwners (s : RoutingActor) (addr : SocketAddr) :
    (s.unregister addr).routeOwners = s.routeOwners := rfl

/-- An update changes the actor as `updateTables` says. The rest of the handler distributes it. -/
theorem handleUpdate_fst (s : RoutingActor) (fromAddr : SocketAddr) (action : Action)
    (vni : Vni) (destination : Destination) (nextHop : NextHop) :
    (s.handleUpdate fromAddr action vni destination nextHop).1
      = s.updateTables fromAddr action vni destination nextHop := by
  simp only [handleUpdate]
  split <;> rfl

/-- An update leaves the channels and the subscriptions alone. -/
theorem updateTables_frame (s : RoutingActor) (fromAddr : SocketAddr) (action : Action)
    (vni : Vni) (destination : Destination) (nextHop : NextHop) :
    (s.updateTables fromAddr action vni destination nextHop).peers = s.peers ∧
      (s.updateTables fromAddr action vni destination nextHop).subscriptions
        = s.subscriptions := by
  cases action with
  | add => exact ⟨rfl, rfl⟩
  | remove => exact ⟨rfl, rfl⟩

/-- An update subscribes nobody. -/
theorem subscribers_handleUpdate (s : RoutingActor) (fromAddr : SocketAddr) (action : Action)
    (vni : Vni) (destination : Destination) (nextHop : NextHop) (v : Vni) :
    (s.handleUpdate fromAddr action vni destination nextHop).1.subscribers v
      = s.subscribers v := by
  unfold subscribers
  rw [handleUpdate_fst, (updateTables_frame ..).2]

/-- An unsubscription touches neither routes nor owners nor peers. -/
theorem handleUnsubscribe_routes (s : RoutingActor) (addr : SocketAddr) (vni : Vni) :
    (s.handleUnsubscribe addr vni).routes = s.routes ∧
      (s.handleUnsubscribe addr vni).routeOwners = s.routeOwners ∧
      (s.handleUnsubscribe addr vni).peers = s.peers := by
  unfold handleUnsubscribe
  split <;> exact ⟨rfl, rfl, rfl⟩

/-- The owners after a command: the history's view of the owner makes the same step. -/
theorem lookup_routeOwners_handle {s : RoutingActor} {e : Event} {owned : List RouteKey}
    (hord : (owned : Multiset RouteKey) = s.collectedRoutes e.2) (r : RouteKey) :
    (s.handle e.2 owned).actor.routeOwners.lookup r
      = Event.ownerStep r (s.routeOwners.lookup r) e := by
  obtain ⟨c, cmd⟩ := e
  cases cmd with
  | peerConnected addr tx => rfl
  | peerDisconnected addr =>
    show ((s.unregister addr).withdrawOwned owned).1.routeOwners.lookup r = _
    rw [lookup_routeOwners_withdrawOwned]
    simp only [mem_owned_iff hord, unregister_routeOwners, Event.ownerStep]
  | subscribe addr vni responseTx => rfl
  | unsubscribe addr vni =>
    show (s.handleUnsubscribe addr vni).routeOwners.lookup r = _
    rw [(handleUnsubscribe_routes s addr vni).2.1]
    rfl
  | update fromAddr action vni destination nextHop =>
    show (s.handleUpdate fromAddr action vni destination nextHop).1.routeOwners.lookup r = _
    rw [handleUpdate_fst]
    cases action with
    | add => simp only [updateTables, Event.ownerStep, HashMap.lookup_insert', @eq_comm _ r]
    | remove => simp only [updateTables, Event.ownerStep, HashMap.lookup_erase', @eq_comm _ r]
  | getStats => rfl

/-- A route is stored if it has an owner. The two tables agree. -/
def Stored (s : RoutingActor) : Prop :=
  ∀ r, r ∈ s.routes ↔ (s.routeOwners.lookup r).isSome

/-- Every command keeps the two route tables in agreement. -/
theorem stored_handle {s : RoutingActor} {e : Event} {owned : List RouteKey}
    (hord : (owned : Multiset RouteKey) = s.collectedRoutes e.2) (hs : s.Stored) :
    (s.handle e.2 owned).actor.Stored := by
  intro r
  rw [lookup_routeOwners_handle hord]
  obtain ⟨c, cmd⟩ := e
  cases cmd with
  | peerConnected addr tx => exact hs r
  | peerDisconnected addr =>
    show r ∈ ((s.unregister addr).withdrawOwned owned).1.routes ↔ _
    -- The collected routes are those that the peer owns.
    rw [mem_routes_withdrawOwned, mem_owned_iff hord, unregister_routes, hs r]
    simp only [Event.ownerStep]
    split
    · rename_i howner
      simp [howner]
    · rename_i howner
      simp [howner]
  | subscribe addr vni responseTx => exact hs r
  | unsubscribe addr vni =>
    show r ∈ (s.handleUnsubscribe addr vni).routes ↔ _
    rw [(handleUnsubscribe_routes s addr vni).1]
    exact hs r
  | update fromAddr action vni destination nextHop =>
    show r ∈ (s.handleUpdate fromAddr action vni destination nextHop).1.routes ↔ _
    rw [handleUpdate_fst]
    cases action with
    | add =>
      simp only [updateTables, RouteTable.mem_addNextHop, Event.ownerStep, hs r, @eq_comm _ r]
      split
      · rename_i heq
        simp [heq]
      · rename_i hne
        simp [hne]
    | remove =>
      simp only [updateTables, RouteTable.mem_removeNextHop, Event.ownerStep, hs r, ne_eq,
        @eq_comm _ r]
      split
      · rename_i heq
        simp [heq]
      · rename_i hne
        simp [hne]
  | getStats => exact hs r

/-! ### The channels and the subscriptions -/

/-- The channels after a command, when a session registers its own channel: the history's
view of the holder makes the same step. -/
theorem lookup_peers_handle {s : RoutingActor} {e : Event} (owned : List RouteKey)
    (htx : ∀ addr tx, e.2 = .peerConnected addr tx → tx = e.1) (a : SocketAddr) :
    (s.handle e.2 owned).actor.peers.lookup a = Event.holderStep a (s.peers.lookup a) e := by
  obtain ⟨c, cmd⟩ := e
  cases cmd with
  | peerConnected addr tx =>
    have hown : tx = c := htx addr tx rfl
    show (s.peers.insert addr tx).lookup a = _
    rw [HashMap.lookup_insert', hown]
    simp only [Event.holderStep, @eq_comm _ a]
  | peerDisconnected addr =>
    show ((s.unregister addr).withdrawOwned owned).1.peers.lookup a = _
    rw [withdrawOwned_peers]
    show (s.peers.erase addr).lookup a = _
    rw [HashMap.lookup_erase']
    simp only [Event.holderStep, @eq_comm _ a]
  | subscribe addr vni responseTx => rfl
  | unsubscribe addr vni =>
    show (s.handleUnsubscribe addr vni).peers.lookup a = _
    rw [(handleUnsubscribe_routes s addr vni).2.2]
    rfl
  | update fromAddr action vni destination nextHop =>
    show (s.handleUpdate fromAddr action vni destination nextHop).1.peers.lookup a = _
    rw [handleUpdate_fst, (updateTables_frame ..).1]
    rfl
  | getStats => rfl

/-- A subscription adds one subscriber to one VNI. -/
theorem mem_subscribers_handleSubscribe (s : RoutingActor) (addr : SocketAddr) (vni : Vni)
    (a : SocketAddr) (v : Vni) :
    a ∈ (s.handleSubscribe addr vni).1.subscribers v
      ↔ (addr = a ∧ vni = v) ∨ a ∈ s.subscribers v := by
  simp only [handleSubscribe, subscribers, HashMap.lookup_insert']
  by_cases hv : v = vni
  · subst hv
    simp [@eq_comm _ a]
  · simp [hv, Ne.symm hv]

/-- An unsubscription takes one subscriber away from one VNI. -/
theorem mem_subscribers_handleUnsubscribe (s : RoutingActor) (addr : SocketAddr) (vni : Vni)
    (a : SocketAddr) (v : Vni) :
    a ∈ (s.handleUnsubscribe addr vni).subscribers v
      ↔ a ∈ s.subscribers v ∧ ¬(addr = a ∧ vni = v) := by
  unfold handleUnsubscribe
  cases hsubs : s.subscriptions.lookup vni with
  | none =>
    -- The VNI has no entry, so nobody is subscribed to it.
    have hnone : ∀ b, b ∉ s.subscribers vni := by
      intro b
      simp [subscribers, hsubs]
    constructor
    · intro hmem
      refine ⟨hmem, ?_⟩
      intro h
      exact hnone a (h.2 ▸ hmem)
    · exact fun h => h.1
  | some peers =>
    have hpeers : s.subscribers vni = peers := subscribers_of_lookup hsubs
    by_cases hv : v = vni
    · subst hv
      rw [hpeers]
      show a ∈ (((if peers.erase addr = ∅ then s.subscriptions.erase v
        else s.subscriptions.insert v (peers.erase addr)) : HashMap _ _).lookup v).getD ∅ ↔ _
      split
      · rename_i hempty
        have hnot : a ∉ peers.erase addr := by simp [hempty]
        rw [HashMap.lookup_erase', if_pos rfl]
        simp only [Finset.mem_erase] at hnot
        simp only [Option.getD_none, Finset.notMem_empty, false_iff]
        intro h
        exact hnot ⟨fun heq => h.2 ⟨heq.symm, trivial⟩, h.1⟩
      · rw [HashMap.lookup_insert', if_pos rfl]
        simp [and_comm, @eq_comm _ a]
    · show a ∈ (((if peers.erase addr = ∅ then s.subscriptions.erase vni
        else s.subscriptions.insert vni (peers.erase addr)) : HashMap _ _).lookup v).getD ∅ ↔ _
      split
      · rw [HashMap.lookup_erase', if_neg hv]
        simp [subscribers, Ne.symm hv]
      · rw [HashMap.lookup_insert', if_neg hv]
        simp [subscribers, Ne.symm hv]

/-- An unregistered peer is no longer a subscriber of anything. -/
theorem mem_subscribers_unregister (s : RoutingActor) (addr a : SocketAddr) (v : Vni) :
    a ∈ (s.unregister addr).subscribers v ↔ a ∈ s.subscribers v ∧ addr ≠ a := by
  show a ∈ (((s.subscriptions.mapValues fun peers => peers.erase addr).retain
    fun _ peers => decide (peers ≠ ∅)).lookup v).getD ∅ ↔ _
  rw [HashMap.lookup_retain, HashMap.lookup_mapValues]
  unfold subscribers
  cases s.subscriptions.lookup v with
  | none => simp
  | some peers =>
    by_cases hempty : peers.erase addr = ∅
    · -- The entry goes, and the address was the only one in it.
      have hnot : a ∉ peers.erase addr := by simp [hempty]
      simp only [Finset.mem_erase, not_and] at hnot
      simp only [Option.map_some, Option.filter, hempty, ne_eq, not_true_eq_false, decide_false,
        Bool.false_eq_true, if_false, Option.getD_none, Finset.notMem_empty, Option.getD_some,
        false_iff, not_and, not_not]
      intro hmem
      by_contra hne
      exact hnot (Ne.symm hne) hmem
    · simp [Option.filter, hempty, and_comm, @eq_comm _ a]

/-- A disconnect leaves no VNI without a subscriber. -/
theorem unregister_noEmpty (s : RoutingActor) (a : SocketAddr) (v : Vni)
    (subs : HashSet SocketAddr) (h : (s.unregister a).subscriptions.lookup v = some subs) :
    subs ≠ ∅ := by
  have hretained : ((s.subscriptions.mapValues fun peers => peers.erase a).retain
      fun _ peers => decide (peers ≠ ∅)).lookup v = some subs := h
  rw [HashMap.lookup_retain, Option.filter_eq_some_iff] at hretained
  exact of_decide_eq_true hretained.2

/-- The subscriptions after a command: the history's view makes the same step. -/
theorem mem_subscribers_handle (s : RoutingActor) (e : Event) (owned : List RouteKey)
    (a : SocketAddr) (v : Vni) :
    decide (a ∈ (s.handle e.2 owned).actor.subscribers v)
      = Event.subscriberStep a v (decide (a ∈ s.subscribers v)) e := by
  obtain ⟨c, cmd⟩ := e
  cases cmd with
  | peerConnected addr tx => rfl
  | peerDisconnected addr =>
    show decide (a ∈ ((s.unregister addr).withdrawOwned owned).1.subscribers v) = _
    -- The disconnect loop offers messages, but leaves the subscriptions alone.
    rw [subscribers_withdrawOwned]
    simp only [mem_subscribers_unregister, Event.subscriberStep]
    split
    · rename_i h
      simp [h]
    · rename_i h
      simp [h]
  | subscribe addr vni responseTx =>
    show decide (a ∈ (s.handleSubscribe addr vni).1.subscribers v) = _
    simp only [mem_subscribers_handleSubscribe, Event.subscriberStep]
    split
    · rename_i h
      simp [h]
    · rename_i h
      simp [h]
  | unsubscribe addr vni =>
    show decide (a ∈ (s.handleUnsubscribe addr vni).subscribers v) = _
    simp only [mem_subscribers_handleUnsubscribe, Event.subscriberStep]
    split
    · rename_i h
      simp [h]
    · rename_i h
      simp [h]
  | update fromAddr action vni destination nextHop =>
    show decide (a ∈ (s.handleUpdate fromAddr action vni destination nextHop).1.subscribers v)
      = _
    rw [subscribers_handleUpdate]
    rfl
  | getStats => rfl

/-- The slow consumers, and no other peers, are removed from the map of the peers. -/
theorem lookup_peers_removeSlowConsumers (s : RoutingActor) (slow : HashSet SocketAddr)
    (a : SocketAddr) :
    (s.removeSlowConsumers slow).peers.lookup a
      = if a ∈ slow then none else s.peers.lookup a := by
  show (s.peers.retain _).lookup a = _
  rw [HashMap.lookup_retain]
  cases s.peers.lookup a with
  | none => simp
  | some tx => by_cases h : a ∈ slow <;> simp [Option.filter, h]

/-- The slow consumers, and no other peers, are removed from every VNI. -/
theorem mem_subscribers_removeSlowConsumers (s : RoutingActor) (slow : HashSet SocketAddr)
    (a : SocketAddr) (v : Vni) :
    a ∈ (s.removeSlowConsumers slow).subscribers v ↔ a ∈ s.subscribers v ∧ a ∉ slow := by
  show a ∈ ((s.subscriptions.mapValues fun subs => subs \ slow).lookup v).getD ∅ ↔ _
  rw [HashMap.lookup_mapValues]
  unfold subscribers
  cases s.subscriptions.lookup v with
  | none => simp
  | some subs => simp

/-- Without slow consumers the last loop of the handlers does nothing. -/
theorem removeSlowConsumers_empty (s : RoutingActor) : s.removeSlowConsumers ∅ = s := by
  have hpeers : (s.peers.retain fun addr _ => decide (addr ∉ (∅ : HashSet SocketAddr)))
      = s.peers := by
    refine Finmap.ext_lookup fun a => ?_
    rw [HashMap.lookup_retain]
    cases s.peers.lookup a with
    | none => rfl
    | some tx => rfl
  have hsubs : (s.subscriptions.mapValues fun subs => subs \ (∅ : HashSet SocketAddr))
      = s.subscriptions := by
    refine Finmap.ext_lookup fun v => ?_
    rw [HashMap.lookup_mapValues]
    simp only [Finset.sdiff_empty]
    exact Option.map_id'
  unfold removeSlowConsumers
  rw [hpeers, hsubs]

/-! ### The offered messages -/

/-- The messages that these deliveries offer to the address `a`. -/
def offeredTo (a : SocketAddr) (deliveries : List Delivery) : List Message :=
  (deliveries.filter fun d => a ∈ d.targets).map Delivery.msg

/-- Deliveries without targets offer nothing. -/
theorem offeredTo_filter (a : SocketAddr) (deliveries : List Delivery) :
    offeredTo a (deliveries.filter fun d => d.targets ≠ ∅) = offeredTo a deliveries := by
  unfold offeredTo
  rw [List.filter_filter]
  refine congrArg (List.map Delivery.msg) (List.filter_congr ?_)
  intro d _
  by_cases hmem : a ∈ d.targets
  · simp [hmem, Finset.ne_empty_of_mem hmem]
  · simp [hmem]

/-- The response to a subscribe command lists the stored routes of the VNI. -/
theorem mem_handleSubscribe_snd (s : RoutingActor) (addr : SocketAddr) (vni : Vni)
    (route : Destination × NextHop) :
    route ∈ (s.handleSubscribe addr vni).2 ↔ (vni, route.1, route.2) ∈ s.routes := by
  simp only [handleSubscribe, Multiset.mem_bind, Multiset.mem_map]
  rw [← RouteTable.mem_getDestinationsByVni]
  constructor
  · rintro ⟨⟨dest, hops⟩, hmem, hop, hhop, rfl⟩
    exact ⟨hops, Finmap.lookup_eq_some_iff.mpr hmem, hhop⟩
  · rintro ⟨hops, hlookup, hhop⟩
    exact ⟨⟨route.1, hops⟩, Finmap.lookup_eq_some_iff.mp hlookup, route.2, hhop, rfl⟩

/-- `handle_update` makes one delivery if the VNI has an entry, and none otherwise. -/
theorem handleUpdate_snd (s : RoutingActor) (fromAddr : SocketAddr) (action : Action)
    (vni : Vni) (destination : Destination) (nextHop : NextHop) :
    (s.handleUpdate fromAddr action vni destination nextHop).2
      = (s.subscriptions.lookup vni).toList.map fun subs =>
          ⟨.update action vni destination nextHop, subs.filter fun addr => addr ≠ fromAddr⟩ := by
  simp only [handleUpdate, (updateTables_frame ..).2]
  split
  · rename_i h
    rw [h]
    rfl
  · rename_i subs h
    rw [h]
    rfl

/-- An update is offered to the subscribers of its VNI other than its sender. -/
theorem offeredTo_handleUpdate (s : RoutingActor) (fromAddr : SocketAddr) (action : Action)
    (vni : Vni) (destination : Destination) (nextHop : NextHop) (a : SocketAddr) :
    offeredTo a (s.handleUpdate fromAddr action vni destination nextHop).2
      = if a ∈ s.subscribers vni ∧ a ≠ fromAddr then [.update action vni destination nextHop]
        else [] := by
  rw [handleUpdate_snd]
  unfold subscribers
  cases s.subscriptions.lookup vni with
  | none => simp [offeredTo]
  | some subs =>
    by_cases h : a ∈ subs ∧ a ≠ fromAddr
    · simp [offeredTo, h]
    · simp [offeredTo, h]

/-- The disconnect loop offers the removals of the collected routes to the subscribers. -/
theorem offeredTo_withdrawOwned (s : RoutingActor) (owned : List RouteKey) (a : SocketAddr) :
    offeredTo a (s.withdrawOwned owned).2
      = (owned.filter fun r => a ∈ s.subscribers r.1).map fun r =>
          .update .remove r.1 r.2.1 r.2.2 := by
  rw [withdrawOwned_deliveries]
  induction owned with
  | nil => rfl
  | cons r owned ih =>
    unfold subscribers offeredTo at ih ⊢
    rw [List.filterMap_cons, List.filter_cons]
    cases hsubs : s.subscriptions.lookup r.1 with
    | none =>
      simp only [Option.map_none, Option.getD_none, Finset.notMem_empty, decide_false,
        Bool.false_eq_true, if_false]
      exact ih
    | some subs =>
      simp only [Option.map_some, Option.getD_some, List.filter_cons]
      -- One message for each route of a VNI that the peer is subscribed to.
      by_cases hmem : a ∈ subs
      · simp only [hmem, decide_true, if_true, List.map_cons, ih]
      · simp only [hmem, decide_false, Bool.false_eq_true, if_false, ih]

/-- A removal for each of the listed routes of some VNIs erases those of these VNIs. -/
theorem after_removals {r : RouteKey} {p : RouteKey → Bool} (hp : p r = true) (start : Prop)
    (owned : List RouteKey) :
    EditLog.After r start
        (edits ((owned.filter p).map fun r' => .update .remove r'.1 r'.2.1 r'.2.2))
      ↔ start ∧ r ∉ owned := by
  have herase : edits ((owned.filter p).map fun r' => .update .remove r'.1 r'.2.1 r'.2.2)
      = (owned.filter p).map .erase := edits_map (fun _ => rfl) _
  have hmem : r ∈ owned.filter p ↔ r ∈ owned := by simp [hp]
  rw [herase, EditLog.after_map_erase, hmem]

/-- A peer that the command does not come from is told what the command does to a route of
a VNI that it is subscribed to. What it believed before matters only if the command is no
update on the route. -/
theorem after_offeredTo_handle {s : RoutingActor} {e : Event} {owned : List RouteKey}
    (hord : (owned : Multiset RouteKey) = s.collectedRoutes e.2) {a : SocketAddr} {r : RouteKey}
    (hsub : a ∈ s.subscribers r.1) (hleaves : e.2 ≠ .peerDisconnected a)
    (hother : ∀ action, e.2 ≠ .update a action r.1 r.2.1 r.2.2) (start : Prop)
    (hstart : (∀ addr action, e.2 ≠ .update addr action r.1 r.2.1 r.2.2) →
      (start ↔ r ∈ s.routes)) :
    EditLog.After r start (edits (offeredTo a (s.handle e.2 owned).deliveries))
      ↔ r ∈ (s.handle e.2 owned).actor.routes := by
  obtain ⟨c, cmd⟩ := e
  cases cmd with
  | peerConnected addr tx => exact hstart fun _ _ h => by cases h
  | peerDisconnected addr =>
    have hne : addr ≠ a := fun h => hleaves (by rw [h])
    show EditLog.After r start (edits (offeredTo a ((s.unregister addr).withdrawOwned owned).2))
      ↔ r ∈ ((s.unregister addr).withdrawOwned owned).1.routes
    -- The peer is told after the other one has left.
    have hstill : a ∈ (s.unregister addr).subscribers r.1 :=
      (mem_subscribers_unregister s addr a r.1).mpr ⟨hsub, hne⟩
    rw [offeredTo_withdrawOwned, mem_routes_withdrawOwned, unregister_routes,
      ← hstart fun _ _ h => by cases h]
    exact after_removals (by simpa using hstill) start owned
  | subscribe addr vni responseTx => exact hstart fun _ _ h => by cases h
  | unsubscribe addr vni =>
    show start ↔ r ∈ (s.handleUnsubscribe addr vni).routes
    rw [(handleUnsubscribe_routes s addr vni).1]
    exact hstart fun _ _ h => by cases h
  | update fromAddr action vni destination nextHop =>
    show EditLog.After r start
        (edits (offeredTo a (s.handleUpdate fromAddr action vni destination nextHop).2))
      ↔ r ∈ (s.handleUpdate fromAddr action vni destination nextHop).1.routes
    rw [offeredTo_handleUpdate, handleUpdate_fst]
    by_cases hr : r = (vni, destination, nextHop)
    · subst hr
      have hne : a ≠ fromAddr := fun h => hother action (by rw [h])
      rw [if_pos ⟨hsub, hne⟩]
      cases action with
      | add => simp [updateTables, edits, Message.edit, EditLog.after_insert]
      | remove => simp [updateTables, edits, Message.edit, EditLog.after_erase]
    · -- The update is about another route, whoever it is offered to.
      have hkeep : r ∈ (s.updateTables fromAddr action vni destination nextHop).routes
          ↔ r ∈ s.routes := by
        cases action with
        | add => simp [updateTables, hr]
        | remove => simp [updateTables, hr]
      have huntouched : EditLog.After r start (edits
          (if a ∈ s.subscribers vni ∧ a ≠ fromAddr
            then [.update action vni destination nextHop] else [])) = start := by
        refine EditLog.after_of_untouched ?_ start
        intro edit hmem heq
        obtain ⟨msg, hmsg, hedit⟩ := mem_edits.mp hmem
        split at hmsg
        · rw [List.mem_singleton] at hmsg
          subst hmsg
          exact hr (heq.symm.trans (Message.target_of_update hedit))
        · cases hmsg
      rw [huntouched, hkeep]
      refine hstart ?_
      intro addr action' heq
      cases heq
      exact hr rfl
  | getStats => exact hstart fun _ _ h => by cases h

end RoutingActor

end RustBond
