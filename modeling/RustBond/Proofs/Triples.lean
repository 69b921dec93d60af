import Mathlib.Data.Finset.Image
import RustBond.Lib.History
import RustBond.Proofs.Route

/-!
# `RustBond.Proofs.Triples`: the route table refines a set of triples

The abstract side is a finite set of triples. `TableOp` names the methods that change a table,
`Triples.apply` is what they do to the set, and `Refines` says for every method of the table
what it returns, in terms of the set.

`refines_triples` shows this for the table and the set of its own triples, and
`triples_apply` shows that the methods keep the two together. So after any sequence of calls
the table answers every call as the set would (`after_refines`).
-/

set_option autoImplicit false

namespace RustBond

/-- A method that changes the table. -/
inductive TableOp where
  | addNextHop (vni : Vni) (destination : Destination) (nextHop : NextHop)
  | removeNextHop (vni : Vni) (destination : Destination) (nextHop : NextHop)
  | removeVni (vni : Vni)
  | clear
deriving DecidableEq

namespace Triples

/-- What a method does to the set. -/
def apply (S : Finset RouteKey) (op : TableOp) : Finset RouteKey :=
  match op with
  | .addNextHop vni destination nextHop => insert (vni, destination, nextHop) S
  | .removeNextHop vni destination nextHop => S.erase (vni, destination, nextHop)
  | .removeVni vni => S.filter fun r => r.1 ≠ vni
  | .clear => ∅

/-- The set after a sequence of calls. -/
def after (ops : List TableOp) : Finset RouteKey := History.fold apply ∅ ops

/-- A triple without its VNI. -/
def route (r : RouteKey) : Route := ⟨r.2.1, r.2.2⟩

/-- The triples of a VNI. -/
def ofVni (S : Finset RouteKey) (vni : Vni) : Finset RouteKey := S.filter fun r => r.1 = vni

/-- The next hops for a destination in a VNI. -/
def nextHops (S : Finset RouteKey) (vni : Vni) (destination : Destination) : Finset NextHop :=
  (S.filter fun r => r.1 = vni ∧ r.2.1 = destination).image fun r => r.2.2

/-- The VNIs with a triple. -/
def vnis (S : Finset RouteKey) : Finset Vni := S.image Prod.fst

/-- The next hops of a destination are those that make a route of the set with it. -/
theorem mem_nextHops (S : Finset RouteKey) (vni : Vni) (destination : Destination)
    (nextHop : NextHop) :
    nextHop ∈ nextHops S vni destination ↔ (vni, destination, nextHop) ∈ S := by
  simp only [nextHops, Finset.mem_image, Finset.mem_filter]
  constructor
  · rintro ⟨⟨v, d, n⟩, ⟨hmem, rfl, rfl⟩, rfl⟩
    exact hmem
  · intro hmem
    exact ⟨(vni, destination, nextHop), ⟨hmem, rfl, rfl⟩, rfl⟩

end Triples

namespace RouteTable

/-- The table after a method. -/
def apply (t : RouteTable) (op : TableOp) : RouteTable :=
  match op with
  | .addNextHop vni destination nextHop => (t.addNextHop vni destination nextHop).1
  | .removeNextHop vni destination nextHop => (t.removeNextHop vni destination nextHop).1
  | .removeVni vni => (t.removeVni vni).1
  | .clear => t.clear

/-- A new table after a sequence of calls. -/
def after (ops : List TableOp) : RouteTable := History.fold apply new ops

/-- Every method of the table returns what the set says. -/
structure Refines (t : RouteTable) (S : Finset RouteKey) : Prop where
  addNextHop : ∀ vni destination nextHop,
    (t.addNextHop vni destination nextHop).2 = decide ((vni, destination, nextHop) ∉ S)
  removeNextHop : ∀ vni destination nextHop,
    (t.removeNextHop vni destination nextHop).2
      = (decide ((vni, destination, nextHop) ∈ S),
          (Triples.nextHops (S.erase (vni, destination, nextHop)) vni destination).card)
  removeVni : ∀ vni, (t.removeVni vni).2 = (Triples.ofVni S vni).val.map Triples.route
  nextHopExists : ∀ vni destination nextHop,
    t.nextHopExists vni destination nextHop = decide ((vni, destination, nextHop) ∈ S)
  getAllRoutes : t.getAllRoutes = S.val.map fun r => (r.1, Triples.route r)
  getRoutesByVni : ∀ vni, t.getRoutesByVni vni = (Triples.ofVni S vni).val.map Triples.route
  getDestinationsByVni : ∀ vni destination,
    (t.getDestinationsByVni vni).lookup destination
      = if Triples.nextHops S vni destination = ∅ then none
        else some (Triples.nextHops S vni destination).val
  getVnis : t.getVnis = (Triples.vnis S).val
  len : t.len = S.card
  isEmpty : t.isEmpty = decide (S = ∅)

/-! ### The getters without repetitions -/

/-- `get_routes_by_vni` lists no route twice. -/
theorem nodup_getRoutesByVni (t : RouteTable) (vni : Vni) : (t.getRoutesByVni vni).Nodup := by
  unfold getRoutesByVni
  cases t.routes.lookup vni with
  | none => exact Multiset.nodup_zero
  | some vniRoutes => exact nodup_routes Function.injective_id vniRoutes

/-- `get_vnis` lists no VNI twice. -/
theorem nodup_getVnis (t : RouteTable) : t.getVnis.Nodup :=
  Multiset.nodup_keys.mpr t.routes.nodupKeys

/-- A triple is its VNI and its route. -/
theorem pair_injective : Function.Injective fun r : RouteKey => (r.1, Triples.route r) := by
  rintro ⟨v, d, n⟩ ⟨v', d', n'⟩ h
  cases h
  rfl

/-- `get_all_routes` is the abstract set, each route with its VNI. -/
theorem getAllRoutes_eq (t : RouteTable) :
    t.getAllRoutes = t.triples.val.map fun r => (r.1, Triples.route r) := by
  refine (Multiset.Nodup.ext t.nodup_getAllRoutes
    (t.triples.nodup.map pair_injective)).mpr fun pair => ?_
  obtain ⟨vni, route⟩ := pair
  rw [mem_getAllRoutes, Multiset.mem_map]
  constructor
  · intro hmem
    exact ⟨(vni, route.destination, route.nextHop), (mem_triples t _).mpr hmem, rfl⟩
  · rintro ⟨r, hmem, heq⟩
    cases heq
    exact (mem_triples t r).mp hmem

/-- `get_routes_by_vni` is the part of the abstract set in the VNI. -/
theorem getRoutesByVni_eq (t : RouteTable) (vni : Vni) :
    t.getRoutesByVni vni = (Triples.ofVni t.triples vni).val.map Triples.route := by
  -- Within a VNI, the route determines the triple.
  have hnodup : ((Triples.ofVni t.triples vni).val.map Triples.route).Nodup := by
    refine Multiset.Nodup.map_on ?_ (Triples.ofVni t.triples vni).nodup
    intro r hr r' hr' heq
    have hv := (Finset.mem_filter.mp hr).2
    have hv' := (Finset.mem_filter.mp hr').2
    exact pair_injective (Prod.ext (hv.trans hv'.symm) heq)
  refine (Multiset.Nodup.ext (t.nodup_getRoutesByVni vni) hnodup).mpr fun route => ?_
  rw [mem_getRoutesByVni, Multiset.mem_map]
  constructor
  · intro hmem
    exact ⟨(vni, route.destination, route.nextHop),
      Finset.mem_filter.mpr ⟨(mem_triples t _).mpr hmem, rfl⟩, rfl⟩
  · rintro ⟨r, hmem, rfl⟩
    obtain ⟨hr, rfl⟩ := Finset.mem_filter.mp hmem
    exact (mem_triples t r).mp hr

/-- `get_vnis` is the set of the VNIs in the abstract set. -/
theorem getVnis_eq (t : RouteTable) : t.getVnis = (Triples.vnis t.triples).val := by
  refine (Multiset.Nodup.ext t.nodup_getVnis (Triples.vnis t.triples).nodup).mpr fun vni => ?_
  show vni ∈ t.getVnis ↔ vni ∈ Triples.vnis t.triples
  rw [mem_getVnis, Triples.vnis, Finset.mem_image]
  constructor
  · rintro ⟨d, n, hmem⟩
    exact ⟨(vni, d, n), (mem_triples t _).mpr hmem, rfl⟩
  · rintro ⟨⟨v, d, n⟩, hmem, rfl⟩
    exact ⟨d, n, (mem_triples t _).mp hmem⟩

/-- The two `or_default` lookups find the next hops of the destination. -/
theorem entry_eq_nextHops (t : RouteTable) (vni : Vni) (destination : Destination) :
    ((((t.routes.lookup vni).getD ∅).lookup destination).getD ∅ : HashSet NextHop)
      = Triples.nextHops t.triples vni destination := by
  ext n
  rw [mem_entry_iff, Triples.mem_nextHops, mem_triples]

/-- No destination is listed without a next hop. -/
theorem lookup_getDestinationsByVni (t : RouteTable) (vni : Vni) (destination : Destination) :
    (t.getDestinationsByVni vni).lookup destination
      = if Triples.nextHops t.triples vni destination = ∅ then none
        else some (Triples.nextHops t.triples vni destination).val := by
  rw [getDestinationsByVni, HashMap.lookup_mapValues, ← entry_eq_nextHops]
  cases hv : t.routes.lookup vni with
  | none => simp
  | some vniRoutes =>
    cases hd : vniRoutes.lookup destination with
    | none => simp [hd]
    | some hops =>
      have hne : hops ≠ ∅ := (t.noEmpty vni vniRoutes hv).2 destination hops hd
      simp [hd, hne]

/-! ### The methods -/

/-- `remove_next_hop` returns whether the triple was in the set, and how many next hops the
destination has left. -/
theorem removeNextHop_snd (t : RouteTable) (vni : Vni) (destination : Destination)
    (nextHop : NextHop) :
    (t.removeNextHop vni destination nextHop).2
      = (decide ((vni, destination, nextHop) ∈ t.triples),
        (Triples.nextHops (t.triples.erase (vni, destination, nextHop)) vni destination).card) := by
  have hnextHops : Triples.nextHops (t.triples.erase (vni, destination, nextHop)) vni destination
      = (Triples.nextHops t.triples vni destination).erase nextHop := by
    ext n
    simp [Triples.mem_nextHops]
  refine Prod.ext ?_ ?_
  · rw [Bool.eq_iff_iff, removeNextHop_flag, decide_eq_true_iff, mem_triples]
  · rw [hnextHops, ← entry_eq_nextHops]
    rcases entry_cases t vni destination with h | ⟨vniRoutes, nextHops, hv, hd⟩
    · -- No next hop is left where there was none.
      rw [removeNextHop_of_no_entry h]
      cases hv : t.routes.lookup vni with
      | none => simp
      | some vniRoutes =>
        rw [hv, Option.bind_some] at h
        simp [h]
    · rw [(removeNextHop_of_lookup hv hd nextHop).2]
      simp [hv, hd]

/-- `is_empty` tells whether the abstract set is empty. -/
theorem isEmpty_eq (t : RouteTable) : t.isEmpty = decide (t.triples = ∅) := by
  have hkeys : t.isEmpty = true ↔ t.getVnis = 0 := by
    rw [isEmpty, beq_iff_eq, HashMap.len, Multiset.card_eq_zero, getVnis, Multiset.map_eq_zero]
  rw [Bool.eq_iff_iff, hkeys, getVnis_eq, Finset.val_eq_zero, Triples.vnis, Finset.image_eq_empty,
    decide_eq_true_iff]

/-- A table returns what the set of its triples says. -/
theorem refines_triples (t : RouteTable) : t.Refines t.triples where
  addNextHop vni destination nextHop := by
    rw [Bool.eq_iff_iff, addNextHop_flag, decide_eq_true_iff, mem_triples]
  removeNextHop := t.removeNextHop_snd
  removeVni := t.getRoutesByVni_eq
  nextHopExists vni destination nextHop := by
    rw [Bool.eq_iff_iff, decide_eq_true_iff, mem_triples]
    rfl
  getAllRoutes := t.getAllRoutes_eq
  getRoutesByVni := t.getRoutesByVni_eq
  getDestinationsByVni := t.lookup_getDestinationsByVni
  getVnis := t.getVnis_eq
  len := t.len_eq_card_triples
  isEmpty := t.isEmpty_eq

/-- A method does to the triples of a table what it does to the set. -/
theorem triples_apply (t : RouteTable) (op : TableOp) :
    (t.apply op).triples = Triples.apply t.triples op := by
  ext r
  rw [mem_triples]
  cases op with
  | addNextHop vni destination nextHop => simp [apply, Triples.apply]
  | removeNextHop vni destination nextHop => simp [apply, Triples.apply]
  | removeVni vni => simp [apply, Triples.apply, and_comm]
  | clear => simp [apply, Triples.apply]

/-- Any sequence of operations does to the table what it does to the abstract set. -/
theorem triples_after (ops : List TableOp) : (after ops).triples = Triples.after ops := by
  induction ops using List.reverseRecOn with
  | nil =>
    ext r
    rw [mem_triples]
    exact iff_of_false (not_mem_new r) (Finset.notMem_empty r)
  | append_singleton ops op ih =>
    rw [after, Triples.after, History.fold_snoc, History.fold_snoc, triples_apply]
    exact congrArg (Triples.apply · op) ih

/-- **The route table is a set of triples.** After any sequence of calls, every method returns
what the set of triples says after the same calls. -/
theorem after_refines (ops : List TableOp) : (after ops).Refines (Triples.after ops) := by
  rw [← triples_after]
  exact refines_triples (after ops)

end RouteTable

end RustBond
