import RustBond.Client.Inbound
import RustBond.Proofs.Client.Origins
import RustBond.Proofs.Peer

/-!
# `RustBond.Proofs.Client.Inbound`: what the user's handler sees

The calls of a peer task report how its received routes change (`mem_handleEvent`): a
message reports a route only if the table has changed, an unsubscribe and a disconnect
report every route that goes. The tracker turns the reports of all tasks into the origin
sets, and the user's handler gets a call when a set becomes nonempty or empty.

`handler_sees_union` is the result for runs whose events are atomic: the origin set of a
route is the set of servers whose task holds it, and the handler has the union of the
servers' routes, with an `add_route` and a `remove_route` of each route by turns.
-/

set_option autoImplicit false

namespace RustBond

open EditLog (After)

/-- Reports of the removed routes `gone`, in any order. -/
theorem after_removeRoutes {calls : List HandlerCall} {gone : Multiset (Vni × Route)}
    (hcalls : (calls : Multiset HandlerCall) = gone.map fun e => .removeRoute e.1 e.2)
    (r : RouteKey) (start : Prop) :
    After r start (callEdits calls) ↔ start ∧ (r.1, ⟨r.2.1, r.2.2⟩) ∉ gone := by
  have hmem : ∀ call, call ∈ calls ↔ ∃ e ∈ gone, .removeRoute e.1 e.2 = call := by
    intro call
    rw [← Multiset.mem_coe, hcalls, Multiset.mem_map]
  -- Every report is an erasure, so only the set of their routes counts.
  have herase : callEdits calls = (calls.map HandlerCall.key).map .erase := by
    unfold callEdits
    rw [List.map_map]
    refine List.map_congr_left fun call hcall => ?_
    obtain ⟨e, -, rfl⟩ := (hmem call).mp hcall
    rfl
  have hkey : r ∈ calls.map HandlerCall.key ↔ (r.1, ⟨r.2.1, r.2.2⟩) ∈ gone := by
    rw [List.mem_map]
    constructor
    · rintro ⟨call, hcall, rfl⟩
      obtain ⟨e, he, rfl⟩ := (hmem call).mp hcall
      exact he
    · intro he
      exact ⟨.removeRoute r.1 ⟨r.2.1, r.2.2⟩, (hmem _).mpr ⟨_, he, rfl⟩, rfl⟩
  rw [herase, EditLog.after_map_erase, hkey]

namespace Connection

/-- A message is reported if it changes the table. -/
theorem mem_handleMessage_calls (c : Connection) (msg : Message) (r : RouteKey) :
    r ∈ (c.handleMessage msg).1.receivedRoutes ↔
      After r (r ∈ c.receivedRoutes) (callEdits (c.handleMessage msg).2) := by
  cases msg with
  | hello | keepalive | subscribe | unsubscribe => exact Iff.rfl
  | update action vni destination nextHop =>
    cases action with
    | add =>
      have hcalls : (c.handleMessage (.update .add vni destination nextHop)).2
          = if (c.receivedRoutes.addNextHop vni destination nextHop).2
            then [.addRoute vni ⟨destination, nextHop⟩] else [] := rfl
      show r ∈ (c.receivedRoutes.addNextHop vni destination nextHop).1 ↔ _
      rw [hcalls, RouteTable.mem_addNextHop]
      split
      · have hone : callEdits [.addRoute vni ⟨destination, nextHop⟩]
            = [.insert (vni, destination, nextHop)] := rfl
        rw [hone, EditLog.after_insert]
      · -- The route was there already, and nothing is reported.
        rename_i hflag
        rw [RouteTable.addNextHop_flag, not_not] at hflag
        show r = (vni, destination, nextHop) ∨ r ∈ c.receivedRoutes ↔ r ∈ c.receivedRoutes
        exact or_iff_right_of_imp fun h => h ▸ hflag
    | remove =>
      have hcalls : (c.handleMessage (.update .remove vni destination nextHop)).2
          = if (c.receivedRoutes.removeNextHop vni destination nextHop).2.1
            then [.removeRoute vni ⟨destination, nextHop⟩] else [] := rfl
      show r ∈ (c.receivedRoutes.removeNextHop vni destination nextHop).1 ↔ _
      rw [hcalls, RouteTable.mem_removeNextHop]
      split
      · have hone : callEdits [.removeRoute vni ⟨destination, nextHop⟩]
            = [.erase (vni, destination, nextHop)] := rfl
        rw [hone, EditLog.after_erase]
      · -- The route was not there.
        rename_i hflag
        rw [RouteTable.removeNextHop_flag] at hflag
        show r ≠ (vni, destination, nextHop) ∧ r ∈ c.receivedRoutes ↔ r ∈ c.receivedRoutes
        exact and_iff_right_of_imp fun hr h => hflag (h ▸ hr)

/-- A message makes at most one call, so the order of its calls is no choice. -/
theorem handleMessage_calls_of_coe_eq (c : Connection) (msg : Message) {calls : List HandlerCall}
    (hcalls : (calls : Multiset HandlerCall) = (c.handleMessage msg).2) :
    calls = (c.handleMessage msg).2 := by
  have hperm : calls.Perm (c.handleMessage msg).2 := Multiset.coe_eq_coe.mp hcalls
  have hlength : (c.handleMessage msg).2.length ≤ 1 := by
    cases msg with
    | hello | keepalive | subscribe | unsubscribe => exact Nat.zero_le 1
    | update action vni destination nextHop =>
      cases action with
      | add =>
        simp only [handleMessage]
        split <;> simp
      | remove =>
        simp only [handleMessage]
        split <;> simp
  match hlist : (c.handleMessage msg).2, hlength with
  | [], _ =>
    rw [hlist] at hperm
    exact hperm.eq_nil
  | [call], _ =>
    rw [hlist] at hperm
    exact List.perm_singleton.mp hperm

/-- A command reports the routes that it removes. -/
theorem mem_handleCommand_calls (c : Connection) (cmd : PeerCommand) {calls : List HandlerCall}
    (hcalls : (calls : Multiset HandlerCall) = (c.handleCommand cmd).2) (r : RouteKey) :
    r ∈ (c.handleCommand cmd).1.receivedRoutes ↔
      After r (r ∈ c.receivedRoutes) (callEdits calls) := by
  rw [mem_handleCommand]
  cases cmd with
  | unsubscribe vni =>
    -- The reports are in the order of the iteration over the table.
    have hgone : (calls : Multiset HandlerCall)
        = ((c.receivedRoutes.getRoutesByVni vni).map fun route => (vni, route)).map
            fun e => .removeRoute e.1 e.2 := by
      rw [hcalls, Multiset.map_map]
      rfl
    rw [after_removeRoutes hgone]
    refine and_congr_right fun hr => not_congr ?_
    rw [Multiset.mem_map]
    constructor
    · intro heq
      cases heq
      exact ⟨⟨r.2.1, r.2.2⟩, (RouteTable.mem_getRoutesByVni _ _ _).mpr hr, rfl⟩
    · rintro ⟨route, -, heq⟩
      rw [(Prod.mk.inj heq).1]
  | subscribe vni =>
    have hnone : calls = [] := Multiset.coe_eq_zero _ |>.mp hcalls
    simp [hnone, callEdits]
  | sendUpdate msg =>
    have hnone : calls = [] := Multiset.coe_eq_zero _ |>.mp hcalls
    simp [hnone, callEdits]
  | shutdown =>
    have hnone : calls = [] := Multiset.coe_eq_zero _ |>.mp hcalls
    simp [hnone, callEdits]

/-- A disconnect reports every received route. -/
theorem mem_disconnect_calls (c : Connection) {calls : List HandlerCall}
    (hcalls : (calls : Multiset HandlerCall) = c.disconnect.2) (r : RouteKey) :
    r ∈ c.disconnect.1.receivedRoutes ↔
      After r (r ∈ c.receivedRoutes) (callEdits calls) := by
  have hgone : (calls : Multiset HandlerCall)
      = c.receivedRoutes.getAllRoutes.map fun e => .removeRoute e.1 e.2 := hcalls
  rw [after_removeRoutes hgone, RouteTable.mem_getAllRoutes]
  exact iff_of_false (RouteTable.not_mem_new r) fun h => h.2 h.1

/-- The calls of an event report the change of the received routes. -/
theorem mem_handleEvent (c : Connection) (event : PeerEvent) {calls : List HandlerCall}
    (hcalls : (calls : Multiset HandlerCall) = (c.handleEvent event).2) (r : RouteKey) :
    r ∈ (c.handleEvent event).1.receivedRoutes ↔
      After r (r ∈ c.receivedRoutes) (callEdits calls) := by
  cases event with
  | message msg =>
    rw [c.handleMessage_calls_of_coe_eq msg hcalls]
    exact c.mem_handleMessage_calls msg r
  | command cmd => exact c.mem_handleCommand_calls cmd hcalls r
  | disconnect => exact c.mem_disconnect_calls hcalls r

end Connection

namespace Inbound

/-- Calls leave the received routes alone. -/
theorem connections_foldl_call (x : Inbound) (server : ServerId) (calls : List HandlerCall) :
    (calls.foldl (fun x c => x.call server c) x).connections = x.connections := by
  induction calls generalizing x with
  | nil => rfl
  | cons c calls ih => exact ih (x.call server c)

/-- The calls of a task edit the routes of its server in the tracker. -/
theorem mem_origins_foldl_call (x : Inbound) (server : ServerId) (calls : List HandlerCall)
    (r : RouteKey) (s : ServerId) :
    s ∈ (calls.foldl (fun x c => x.call server c) x).origins.origins r ↔
      if s = server then After r (s ∈ x.origins.origins r) (callEdits calls)
      else s ∈ x.origins.origins r := by
  induction calls generalizing x with
  | nil =>
    split
    · exact Iff.rfl
    · exact Iff.rfl
  | cons c calls ih =>
    have hstep := DeduplicatingHandler.mem_origins_call server x.origins c r s
    have hedits : callEdits (c :: calls) = callEdits [c] ++ callEdits calls := rfl
    -- The first call edits the start from which the other calls go on.
    rw [List.foldl_cons, ih (x.call server c), hedits, EditLog.after_append]
    split
    · rename_i hs
      rw [if_pos hs] at hstep
      have heq : (s ∈ (x.call server c).origins.origins r)
          = After r (s ∈ x.origins.origins r) (callEdits [c]) := propext hstep
      rw [heq]
    · rename_i hs
      rw [if_neg hs] at hstep
      exact hstep

/-- The calls of one event keep the handler in step with the tracker. -/
theorem mirrors_foldl_call {x : Inbound} (h : x.origins.Mirrors x.calls) (server : ServerId)
    (calls : List HandlerCall) :
    (calls.foldl (fun x c => x.call server c) x).origins.Mirrors
      (calls.foldl (fun x c => x.call server c) x).calls := by
  induction calls generalizing x with
  | nil => exact h
  | cons c calls ih => exact ih (RouteOriginTracker.mirrors_call h server c)

/-- What an event does. -/
theorem handleEvent_eq_some {x x' : Inbound} {server : ServerId} {event : PeerEvent}
    {calls : List HandlerCall} (h : x.handleEvent server event calls = some x') :
    (calls : Multiset HandlerCall) = ((x.connections server).handleEvent event).2 ∧
      x'.connections = Function.update x.connections server
        ((x.connections server).handleEvent event).1 ∧
      (∀ r s, s ∈ x'.origins.origins r ↔
        if s = server then After r (s ∈ x.origins.origins r) (callEdits calls)
        else s ∈ x.origins.origins r) ∧
      (x.origins.Mirrors x.calls → x'.origins.Mirrors x'.calls) := by
  simp only [handleEvent] at h
  split at h
  · rename_i hcalls
    cases h
    refine ⟨hcalls, connections_foldl_call _ server calls, ?_, ?_⟩
    · intro r s
      exact mem_origins_foldl_call _ server calls r s
    · intro hmirrors
      apply mirrors_foldl_call
      exact hmirrors
  · cases h

/-- The tracker has the routes of the tasks, and the handler's calls mirror the tracker. -/
structure Agrees (x : Inbound) : Prop where
  origins : ∀ r s, s ∈ x.origins.origins r ↔ r ∈ (x.connections s).receivedRoutes
  mirrors : x.origins.Mirrors x.calls

/-- At the start there is nothing to agree on. -/
theorem agrees_new : new.Agrees where
  origins := by
    intro r s
    have hnone : s ∉ RouteOriginTracker.new.origins r := by simp
    exact iff_of_false hnone (RouteTable.not_mem_new r)
  mirrors := RouteOriginTracker.mirrors_new

/-- An event, with all its calls, keeps the agreement. -/
theorem agrees_step {x x' : Inbound} {l : Label} (h : x.Agrees) (hs : lts.step x l = some x') :
    x'.Agrees := by
  obtain ⟨hcalls, hconnections, horigins, hmirrors⟩ := handleEvent_eq_some hs
  refine ⟨?_, hmirrors h.mirrors⟩
  intro r s
  rw [horigins, hconnections]
  by_cases hserver : s = l.server
  · subst hserver
    have heq : (l.server ∈ x.origins.origins r)
        = (r ∈ (x.connections l.server).receivedRoutes) := propext (h.origins r l.server)
    rw [if_pos rfl, heq, Function.update_self]
    exact ((x.connections l.server).mem_handleEvent l.event hcalls r).symm
  · rw [if_neg hserver, Function.update_of_ne hserver]
    exact h.origins r s

/-- **The handler sees the union of the servers' routes.** After any sequence of events at
the peer tasks of any number of servers, the origin set of a route is the set of the servers
whose tasks hold it. The calls of the user's handler on a route are `add_route` and
`remove_route` by turns, starting with `add_route`, and the route is added at the moment
exactly if some server holds it. -/
theorem handler_sees_union {ls : List Label} {x : Inbound} (hrun : lts.Run ls x) (r : RouteKey) :
    (∀ s, s ∈ x.origins.origins r ↔ r ∈ (x.connections s).receivedRoutes) ∧
      EditLog.Alternates true (EditLog.flags r (callEdits x.calls)) ∧
      (EditLog.last r (callEdits x.calls) = some true ↔
        ∃ s, r ∈ (x.connections s).receivedRoutes) := by
  have h : x.Agrees := Lts.Run.invariant agrees_new (fun _ _ _ _ _ h hs => agrees_step h hs) hrun
  refine ⟨h.origins r, (h.mirrors r).1, ?_⟩
  rw [← EditLog.after_false_iff, (h.mirrors r).2, ← Finset.nonempty_iff_ne_empty]
  exact exists_congr (h.origins r)

/-- Two servers announce the same route, and the connection to the first one ends. -/
def oneServerLeaves : List Label :=
  let r : Route := ⟨makeDest 1, makeHop 1⟩
  let add : PeerEvent := .message (.update .add ⟨100⟩ r.destination r.nextHop)
  [ ⟨⟨0⟩, add, [.addRoute ⟨100⟩ r]⟩, ⟨⟨1⟩, add, [.addRoute ⟨100⟩ r]⟩,
    ⟨⟨0⟩, .disconnect, [.removeRoute ⟨100⟩ r]⟩ ]

/-- After the run `oneServerLeaves`, the handler still has the route. -/
theorem handler_sees_union_oneServerLeaves :
    ∃ x, lts.Run oneServerLeaves x ∧
      EditLog.last (⟨100⟩, makeDest 1, makeHop 1) (callEdits x.calls) = some true := by
  have hrun : lts.Run oneServerLeaves _ := Lts.Run.of_exec (by decide)
  refine ⟨_, hrun, (handler_sees_union hrun _).2.2.mpr ⟨⟨1⟩, ?_⟩⟩
  decide

end Inbound

end RustBond
