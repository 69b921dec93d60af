import RustBond.Client.Origins
import RustBond.Lib.EditLog

/-!
# `RustBond.Proofs.Client.Origins`: the tracker and the calls it asks for

`origins` is the origin set of a route. `mem_origins_call` states what a call on a
`DeduplicatingHandler` does to the origin sets: it is an edit of the routes of its server.

`Mirrors` relates the tracker to the calls of the user's handler, made or still to be made:
on every route they are `add_route` and `remove_route` by turns, and the last one is an
`add_route` exactly while the route has an origin. `mirrors_call` shows that every call
keeps this, whichever task makes it and whatever the tasks have received.
-/

set_option autoImplicit false

namespace RustBond

/-- The route that a call is about. -/
def HandlerCall.key (c : HandlerCall) : RouteKey :=
  match c with
  | .addRoute vni route => (vni, route.destination, route.nextHop)
  | .removeRoute vni route => (vni, route.destination, route.nextHop)

/-- A call as an edit of the handler's set of routes. -/
def HandlerCall.edit (c : HandlerCall) : Edit RouteKey :=
  match c with
  | .addRoute _ _ => .insert c.key
  | .removeRoute _ _ => .erase c.key

/-- The calls of a handler as an edit log. -/
def callEdits (calls : List HandlerCall) : List (Edit RouteKey) := calls.map HandlerCall.edit

/-- The edits of the calls are those of the one list and then those of the other. -/
@[simp] theorem callEdits_append (calls calls' : List HandlerCall) :
    callEdits (calls ++ calls') = callEdits calls ++ callEdits calls' :=
  List.map_append

/-- The edit of a call is on the route of the call. -/
@[simp] theorem HandlerCall.target_edit (c : HandlerCall) : c.edit.target = c.key := by
  cases c with
  | addRoute vni route => rfl
  | removeRoute vni route => rfl

namespace RouteOriginTracker

/-- The servers that have announced `r`. -/
def origins (t : RouteOriginTracker) (r : RouteKey) : HashSet ServerId :=
  (t.inner.lookup r).getD ∅

/-- In a new tracker no route has an origin. -/
@[simp] theorem origins_new (r : RouteKey) : new.origins r = ∅ := by
  show ((∅ : HashMap RouteKey (HashSet ServerId)).lookup r).getD ∅ = ∅
  rw [Finmap.lookup_empty]
  rfl

/-- A route has an entry exactly while it has an origin. -/
theorem origins_ne_empty_iff (t : RouteOriginTracker) (r : RouteKey) :
    t.origins r ≠ ∅ ↔ ∃ servers, t.getServers r.1 r.2.1 r.2.2 = some servers ∧ servers ≠ ∅ := by
  show (t.inner.lookup r).getD ∅ ≠ ∅ ↔ ∃ servers, t.inner.lookup r = some servers ∧ servers ≠ ∅
  cases t.inner.lookup r with
  | none => simp
  | some servers => simp

/-- `add_origin` adds the server to the origins of one route. -/
theorem origins_addOrigin (t : RouteOriginTracker) (vni : Vni) (dest : Destination)
    (hop : NextHop) (server : ServerId) (r : RouteKey) :
    (t.addOrigin vni dest hop server).1.origins r
      = if (vni, dest, hop) = r then insert server (t.origins r) else t.origins r := by
  show ((t.inner.insert (vni, dest, hop) _).lookup r).getD ∅ = _
  rw [HashMap.lookup_insert']
  by_cases h : r = (vni, dest, hop)
  · rw [if_pos h, if_pos h.symm, Option.getD_some, h]
    rfl
  · rw [if_neg h, if_neg (Ne.symm h)]
    rfl

/-- `add_origin` returns whether the route had no origin before. -/
theorem addOrigin_flag (t : RouteOriginTracker) (vni : Vni) (dest : Destination)
    (hop : NextHop) (server : ServerId) :
    (t.addOrigin vni dest hop server).2 = decide (t.origins (vni, dest, hop) = ∅) := rfl

/-- `remove_origin` changes nothing where the route has no entry. -/
theorem removeOrigin_of_none {t : RouteOriginTracker} {vni : Vni} {dest : Destination}
    {hop : NextHop} (h : t.inner.lookup (vni, dest, hop) = none) (server : ServerId) :
    t.removeOrigin vni dest hop server = (t, false) := by
  simp only [removeOrigin, h]

/-- The entry of the route loses the server, and goes if no server is left. -/
theorem removeOrigin_of_some {t : RouteOriginTracker} {vni : Vni} {dest : Destination}
    {hop : NextHop} {servers : HashSet ServerId}
    (h : t.inner.lookup (vni, dest, hop) = some servers) (server : ServerId) :
    (t.removeOrigin vni dest hop server).2 = decide (servers.erase server = ∅) ∧
      (t.removeOrigin vni dest hop server).1.inner =
        if servers.erase server = ∅ then t.inner.erase (vni, dest, hop)
        else t.inner.insert (vni, dest, hop) (servers.erase server) := by
  simp only [removeOrigin, h]
  by_cases hlast : servers.erase server = ∅
  · simp [hlast]
  · simp [hlast]

/-- `remove_origin` removes the server from the origins of one route. -/
theorem origins_removeOrigin (t : RouteOriginTracker) (vni : Vni) (dest : Destination)
    (hop : NextHop) (server : ServerId) (r : RouteKey) :
    (t.removeOrigin vni dest hop server).1.origins r
      = if (vni, dest, hop) = r then (t.origins r).erase server else t.origins r := by
  cases hlookup : t.inner.lookup (vni, dest, hop) with
  | none =>
    rw [removeOrigin_of_none hlookup]
    split
    · rename_i h
      subst h
      simp [origins, hlookup]
    · rfl
  | some servers =>
    unfold origins
    rw [(removeOrigin_of_some hlookup server).2]
    by_cases h : (vni, dest, hop) = r
    · subst h
      rw [if_pos rfl, hlookup, Option.getD_some]
      split
      · rename_i hlast
        -- An empty origin set is not kept.
        rw [HashMap.lookup_erase', if_pos rfl, Option.getD_none, hlast]
      · rw [HashMap.lookup_insert', if_pos rfl, Option.getD_some]
    · rw [if_neg h]
      split
      · rw [HashMap.lookup_erase', if_neg (Ne.symm h)]
      · rw [HashMap.lookup_insert', if_neg (Ne.symm h)]

/-- `remove_origin` returns whether the server was the last origin. It was not for a route without
origins. -/
theorem removeOrigin_flag (t : RouteOriginTracker) (vni : Vni) (dest : Destination)
    (hop : NextHop) (server : ServerId) :
    (t.removeOrigin vni dest hop server).2
      = decide (t.origins (vni, dest, hop) ≠ ∅ ∧
          (t.origins (vni, dest, hop)).erase server = ∅) := by
  unfold origins
  cases hlookup : t.inner.lookup (vni, dest, hop) with
  | none =>
    rw [removeOrigin_of_none hlookup]
    simp
  | some servers =>
    have hne : servers ≠ ∅ := t.noEmpty _ _ hlookup
    rw [(removeOrigin_of_some hlookup server).1]
    simp [hne]

end RouteOriginTracker

namespace DeduplicatingHandler

/-- A call edits the routes of its own server. -/
theorem mem_origins_call (server : ServerId) (t : RouteOriginTracker) (c : HandlerCall)
    (r : RouteKey) (s : ServerId) :
    s ∈ (call server t c).1.origins r ↔
      if s = server then EditLog.After r (s ∈ t.origins r) (callEdits [c])
      else s ∈ t.origins r := by
  have hone : callEdits [c] = [c.edit] := rfl
  rw [hone, EditLog.after_singleton, HandlerCall.target_edit]
  cases c with
  | addRoute vni route =>
    show s ∈ (t.addOrigin _ _ _ server).1.origins r ↔ _
    rw [RouteOriginTracker.origins_addOrigin]
    -- Another route, another server and the own edit.
    by_cases hr : (vni, route.destination, route.nextHop) = r
    · by_cases hs : s = server
      · simp [hr, hs, HandlerCall.key, HandlerCall.edit, Edit.inserts]
      · simp [hr, hs]
    · simp [hr, HandlerCall.key]
  | removeRoute vni route =>
    show s ∈ (t.removeOrigin _ _ _ server).1.origins r ↔ _
    rw [RouteOriginTracker.origins_removeOrigin]
    by_cases hr : (vni, route.destination, route.nextHop) = r
    · by_cases hs : s = server
      · simp [hr, hs, HandlerCall.key, HandlerCall.edit, Edit.inserts]
      · simp [hr, hs]
    · simp [hr, HandlerCall.key]

/-- A call either asks for nothing and keeps the routes that have an origin, or it asks for
the same call on the user's handler, because its route gets its first origin or loses its
last one. -/
theorem call_cases (server : ServerId) (t : RouteOriginTracker) (c : HandlerCall) :
    ((call server t c).2 = [] ∧
      ∀ r, (call server t c).1.origins r ≠ ∅ ↔ t.origins r ≠ ∅) ∨
    ((call server t c).2 = [c] ∧
      (c.edit.inserts = true ↔ t.origins c.key = ∅) ∧
      ∀ r, (call server t c).1.origins r ≠ ∅ ↔
        if c.key = r then c.edit.inserts = true else t.origins r ≠ ∅) := by
  cases c with
  | addRoute vni route =>
    have horigins := t.origins_addOrigin vni route.destination route.nextHop server
    have hcalls : (call server t (.addRoute vni route)).2
        = if (t.addOrigin vni route.destination route.nextHop server).2
          then [.addRoute vni route] else [] := rfl
    rw [hcalls, t.addOrigin_flag]
    by_cases hfirst : t.origins (vni, route.destination, route.nextHop) = ∅
    · -- The first origin of the route.
      refine Or.inr ⟨by simp [hfirst], iff_of_true rfl hfirst, ?_⟩
      intro r
      show (t.addOrigin _ _ _ server).1.origins r ≠ ∅ ↔ _
      rw [horigins r]
      by_cases hr : (vni, route.destination, route.nextHop) = r
      · simp [hr, HandlerCall.key, HandlerCall.edit, Edit.inserts]
      · simp [hr, HandlerCall.key]
    · -- The route has an origin before and after.
      refine Or.inl ⟨by simp [hfirst], ?_⟩
      intro r
      show (t.addOrigin _ _ _ server).1.origins r ≠ ∅ ↔ _
      rw [horigins r]
      by_cases hr : (vni, route.destination, route.nextHop) = r
      · subst hr
        simp [hfirst]
      · simp [hr]
  | removeRoute vni route =>
    have horigins := t.origins_removeOrigin vni route.destination route.nextHop server
    have hcalls : (call server t (.removeRoute vni route)).2
        = if (t.removeOrigin vni route.destination route.nextHop server).2
          then [.removeRoute vni route] else [] := rfl
    rw [hcalls, t.removeOrigin_flag]
    by_cases hlast : t.origins (vni, route.destination, route.nextHop) ≠ ∅ ∧
        (t.origins (vni, route.destination, route.nextHop)).erase server = ∅
    · -- The last origin of the route.
      refine Or.inr ⟨by rw [decide_eq_true hlast]; rfl, ?_, ?_⟩
      · refine iff_of_false ?_ hlast.1
        intro hinserts
        cases hinserts
      · intro r
        show (t.removeOrigin _ _ _ server).1.origins r ≠ ∅ ↔ _
        rw [horigins r]
        by_cases hr : (vni, route.destination, route.nextHop) = r
        · subst hr
          simp [hlast.2, HandlerCall.key, HandlerCall.edit, Edit.inserts]
        · simp [hr, HandlerCall.key]
    · -- There was no origin to remove, or another one is left.
      refine Or.inl ⟨by rw [decide_eq_false hlast]; rfl, ?_⟩
      intro r
      show (t.removeOrigin _ _ _ server).1.origins r ≠ ∅ ↔ _
      rw [horigins r]
      by_cases hr : (vni, route.destination, route.nextHop) = r
      · subst hr
        rw [if_pos rfl]
        constructor
        · intro hleft hnone
          rw [hnone] at hleft
          exact hleft rfl
        · intro hheld hnone
          exact hlast ⟨hheld, hnone⟩
      · rw [if_neg hr]

end DeduplicatingHandler

/-- The calls of the user's handler mirror the tracker. -/
def RouteOriginTracker.Mirrors (t : RouteOriginTracker) (calls : List HandlerCall) : Prop :=
  ∀ r, EditLog.Alternates true (EditLog.flags r (callEdits calls)) ∧
    (EditLog.After r False (callEdits calls) ↔ t.origins r ≠ ∅)

namespace RouteOriginTracker

/-- At the start there are no origins and no calls. -/
theorem mirrors_new : new.Mirrors [] := by
  intro r
  refine ⟨trivial, ?_⟩
  simp [callEdits]

/-- The calls that a call asks for keep the handler in step with the tracker. -/
theorem mirrors_call {t : RouteOriginTracker} {calls : List HandlerCall} (h : t.Mirrors calls)
    (server : ServerId) (c : HandlerCall) :
    (DeduplicatingHandler.call server t c).1.Mirrors
      (calls ++ (DeduplicatingHandler.call server t c).2) := by
  intro r
  obtain ⟨halternates, hafter⟩ := h r
  rcases DeduplicatingHandler.call_cases server t c with ⟨hnone, hheld⟩ | ⟨hone, hchange, hheld⟩
  · rw [hnone, List.append_nil, hheld r]
    exact ⟨halternates, hafter⟩
  · have hedits : callEdits (calls ++ [c]) = callEdits calls ++ [c.edit] := by
      rw [callEdits_append]
      rfl
    rw [hone, hedits, EditLog.alternates_flags_snoc, EditLog.after_append,
      EditLog.after_singleton, HandlerCall.target_edit, hheld r]
    refine ⟨⟨halternates, ?_⟩, ?_⟩
    · -- The call inserts exactly if the last call on its route did not.
      rintro rfl
      rw [hchange, hafter, not_not]
    · split
      · exact Iff.rfl
      · exact hafter

end RouteOriginTracker

end RustBond
