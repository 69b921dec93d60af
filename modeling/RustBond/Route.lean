import Mathlib.Algebra.BigOperators.Group.Multiset.Basic
import Mathlib.Data.Multiset.Bind
import RustBond.Lib.HashMap
import RustBond.Types

/-!
# `RustBond.Route`: the route table

The translation of `src/route.rs`. `RouteTable` is the nested map
`VNI -> Destination -> Set<NextHop>`. The methods of the source keep every inner map and
every inner set nonempty (`add_next_hop` fills what it creates, `remove_next_hop` cleans up
what it empties), and the structure carries this as the field `noEmpty`.

A method that collects a hash-table iteration into a `Vec` returns a `Multiset`.
-/

set_option autoImplicit false

namespace RustBond

/-- A destination and a next hop. -/
structure Route where
  destination : Destination
  nextHop : NextHop
deriving DecidableEq

/-- The nested map behind a route table. -/
abbrev RouteMap : Type := HashMap Vni (HashMap Destination (HashSet NextHop))

namespace RouteMap

/-- No inner map and no inner set is empty. -/
def NoEmpty (m : RouteMap) : Prop :=
  ∀ vni vniRoutes, m.lookup vni = some vniRoutes →
    vniRoutes ≠ ∅ ∧ ∀ dest hops, vniRoutes.lookup dest = some hops → hops ≠ ∅

/-- An empty map has no empty entries. -/
theorem noEmpty_empty : NoEmpty ∅ := by
  intro vni vniRoutes h
  rw [Finmap.lookup_empty] at h
  cases h

/-- The map under `add_next_hop`: both `entry(..).or_default()` lookups and the insertion
into the set. -/
def addNextHop (m : RouteMap) (vni : Vni) (destination : Destination) (nextHop : NextHop) :
    RouteMap :=
  let vniRoutes := (m.lookup vni).getD ∅
  let nextHops := (vniRoutes.lookup destination).getD ∅
  m.insert vni (vniRoutes.insert destination (insert nextHop nextHops))

/-- The map under `remove_next_hop`, for a destination that has an entry: the set loses the
next hop, and what becomes empty loses its entry. -/
def removeNextHop (m : RouteMap) (vni : Vni) (vniRoutes : HashMap Destination (HashSet NextHop))
    (destination : Destination) (nextHops : HashSet NextHop) (nextHop : NextHop) : RouteMap :=
  let nextHops' := nextHops.erase nextHop
  let vniRoutes' :=
    if nextHops' = ∅ then vniRoutes.erase destination
    else vniRoutes.insert destination nextHops'
  if vniRoutes' = ∅ then m.erase vni else m.insert vni vniRoutes'

/-- An entry that is not empty, and has no empty entries itself, can be inserted. -/
theorem noEmpty_insert {m : RouteMap} (h : m.NoEmpty) (vni : Vni)
    (vniRoutes : HashMap Destination (HashSet NextHop)) (hne : vniRoutes ≠ ∅)
    (hin : ∀ dest hops, vniRoutes.lookup dest = some hops → hops ≠ ∅) :
    NoEmpty (m.insert vni vniRoutes) := by
  intro vni' vniRoutes' hlookup
  rw [HashMap.lookup_insert'] at hlookup
  split at hlookup
  · cases hlookup
    exact ⟨hne, hin⟩
  · exact h vni' vniRoutes' hlookup

/-- Erasing a VNI leaves no empty entry behind. -/
theorem noEmpty_erase {m : RouteMap} (h : m.NoEmpty) (vni : Vni) : NoEmpty (m.erase vni) := by
  intro vni' vniRoutes' hlookup
  rw [HashMap.lookup_erase'] at hlookup
  split at hlookup
  · cases hlookup
  · exact h vni' vniRoutes' hlookup

/-- `add_next_hop` makes no empty entry, since it adds to each of them. -/
theorem noEmpty_addNextHop {m : RouteMap} (h : m.NoEmpty) (vni : Vni)
    (destination : Destination) (nextHop : NextHop) :
    NoEmpty (m.addNextHop vni destination nextHop) := by
  refine noEmpty_insert h vni _ (HashMap.ne_empty_of_lookup (Finmap.lookup_insert _)) ?_
  intro dest hops hlookup
  rw [HashMap.lookup_insert'] at hlookup
  split at hlookup
  · cases hlookup
    exact Finset.insert_ne_empty _ _
  · -- The other destinations are those of the old inner map, or of the fresh empty one.
    cases hm : m.lookup vni with
    | none =>
      rw [hm, Option.getD_none, Finmap.lookup_empty] at hlookup
      cases hlookup
    | some vniRoutes =>
      rw [hm, Option.getD_some] at hlookup
      exact (h vni vniRoutes hm).2 dest hops hlookup

/-- `remove_next_hop` drops an entry that it has emptied, so no empty one stays. -/
theorem noEmpty_removeNextHop {m : RouteMap} (h : m.NoEmpty) {vni : Vni}
    {vniRoutes : HashMap Destination (HashSet NextHop)} (hm : m.lookup vni = some vniRoutes)
    (destination : Destination) (nextHops : HashSet NextHop) (nextHop : NextHop) :
    NoEmpty (m.removeNextHop vni vniRoutes destination nextHops nextHop) := by
  have hin := (h vni vniRoutes hm).2
  -- The inner map after the removal, whichever way it was cleaned up, has no empty set.
  have hin' : ∀ dest hops,
      (if nextHops.erase nextHop = ∅ then vniRoutes.erase destination
        else vniRoutes.insert destination (nextHops.erase nextHop)).lookup dest = some hops →
      hops ≠ ∅ := by
    intro dest hops hlookup
    split at hlookup
    · rw [HashMap.lookup_erase'] at hlookup
      split at hlookup
      · cases hlookup
      · exact hin dest hops hlookup
    · rename_i hhops
      rw [HashMap.lookup_insert'] at hlookup
      split at hlookup
      · cases hlookup
        exact hhops
      · exact hin dest hops hlookup
  show NoEmpty (if _ = ∅ then m.erase vni else m.insert vni _)
  by_cases hempty : (if nextHops.erase nextHop = ∅ then vniRoutes.erase destination
      else vniRoutes.insert destination (nextHops.erase nextHop)) = ∅
  · rw [if_pos hempty]
    exact noEmpty_erase h vni
  · rw [if_neg hempty]
    exact noEmpty_insert h vni _ hempty hin'

end RouteMap

/-- A route table: the nested map, with no empty entry in it. -/
structure RouteTable where
  /-- VNI -> Destination -> Set<NextHop> -/
  routes : RouteMap
  noEmpty : routes.NoEmpty

namespace RouteTable

/-- A new empty route table. -/
def new : RouteTable := ⟨∅, RouteMap.noEmpty_empty⟩

/-- Adds a next hop for a destination in a VNI. The flag is true if it was newly added. -/
def addNextHop (t : RouteTable) (vni : Vni) (destination : Destination) (nextHop : NextHop) :
    RouteTable × Bool :=
  let vniRoutes := (t.routes.lookup vni).getD ∅
  let nextHops := (vniRoutes.lookup destination).getD ∅
  (⟨t.routes.addNextHop vni destination nextHop, RouteMap.noEmpty_addNextHop t.noEmpty _ _ _⟩,
    decide (nextHop ∉ nextHops))

/-- Removes a next hop for a destination in a VNI. The flag is true if it was there, the
number counts the next hops left for the destination. -/
def removeNextHop (t : RouteTable) (vni : Vni) (destination : Destination) (nextHop : NextHop) :
    RouteTable × Bool × Nat :=
  match h : t.routes.lookup vni with
  | none => (t, false, 0)
  | some vniRoutes =>
    match vniRoutes.lookup destination with
    | none => (t, false, 0)
    | some nextHops =>
      (⟨t.routes.removeNextHop vni vniRoutes destination nextHops nextHop,
          RouteMap.noEmpty_removeNextHop t.noEmpty h _ _ _⟩,
        decide (nextHop ∈ nextHops), (nextHops.erase nextHop).card)

/-- Whether a next hop exists for a destination in a VNI. -/
def nextHopExists (t : RouteTable) (vni : Vni) (destination : Destination) (nextHop : NextHop) :
    Bool :=
  (((t.routes.lookup vni).bind fun vniRoutes => vniRoutes.lookup destination).map
    fun nextHops => decide (nextHop ∈ nextHops)).getD false

/-- All VNIs in the table. -/
def getVnis (t : RouteTable) : Multiset Vni := t.routes.entries.map fun e => e.1

/-- All destinations and their next hops for a VNI. -/
def getDestinationsByVni (t : RouteTable) (vni : Vni) :
    HashMap Destination (Multiset NextHop) :=
  ((t.routes.lookup vni).getD ∅).mapValues Finset.val

/-- All routes for a VNI. -/
def getRoutesByVni (t : RouteTable) (vni : Vni) : Multiset Route :=
  match t.routes.lookup vni with
  | none => 0
  | some vniRoutes =>
    vniRoutes.entries.bind fun e => e.2.val.map fun nextHop => ⟨e.1, nextHop⟩

/-- All routes in the table. -/
def getAllRoutes (t : RouteTable) : Multiset (Vni × Route) :=
  t.routes.entries.bind fun e =>
    e.2.entries.bind fun e' => e'.2.val.map fun nextHop => (e.1, ⟨e'.1, nextHop⟩)

/-- Removes all routes for a VNI and returns them. -/
def removeVni (t : RouteTable) (vni : Vni) : RouteTable × Multiset Route :=
  (⟨t.routes.erase vni, RouteMap.noEmpty_erase t.noEmpty vni⟩, t.getRoutesByVni vni)

/-- Clears all routes from the table. -/
def clear (_ : RouteTable) : RouteTable := new

/-- The number of routes in the table. -/
def len (t : RouteTable) : Nat :=
  (t.routes.entries.map fun e => (e.2.entries.map fun e' => e'.2.card).sum).sum

/-- Whether the table has no entry. -/
def isEmpty (t : RouteTable) : Bool := t.routes.len == 0

/-- `r ∈ t` states that `next_hop_exists` finds the triple `r`. -/
instance : Membership RouteKey RouteTable where
  mem t r := t.nextHopExists r.1 r.2.1 r.2.2 = true

instance (t : RouteTable) (r : RouteKey) : Decidable (r ∈ t) :=
  inferInstanceAs (Decidable (t.nextHopExists r.1 r.2.1 r.2.2 = true))

end RouteTable

end RustBond
