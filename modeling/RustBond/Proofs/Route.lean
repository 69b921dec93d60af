import Mathlib.Data.Finset.Dedup
import Mathlib.Data.Set.Basic
import RustBond.Route

/-!
# `RustBond.Proofs.Route`: the route table is a set of triples

`r ∈ t` means that `next_hop_exists` finds the triple `r` in the table `t`. The lemmas say
what each method does to this membership, so that no later proof looks into the nested
maps:

* `mem_addNextHop`, `mem_removeNextHop`, `mem_removeVni`, `not_mem_new` for the tables;
* `addNextHop_flag`, `removeNextHop_flag` for the returned flags;
* `mem_getAllRoutes`, `mem_getRoutesByVni` and `mem_getDestinationsByVni` for the getters,
  with `nodup_getAllRoutes` and `len_eq_card_getAllRoutes`.

`triples` is the table as a finite set, and `len_eq_card_triples` counts it.
-/

set_option autoImplicit false

namespace RustBond.RouteTable

/-- Membership, spelled out over the nested maps. -/
theorem mem_iff (t : RouteTable) (r : RouteKey) :
    r ∈ t ↔ ∃ vniRoutes hops, t.routes.lookup r.1 = some vniRoutes ∧
      vniRoutes.lookup r.2.1 = some hops ∧ r.2.2 ∈ hops := by
  show t.nextHopExists r.1 r.2.1 r.2.2 = true ↔ _
  unfold nextHopExists
  cases hv : t.routes.lookup r.1 with
  | none => simp
  | some vniRoutes =>
    cases hd : vniRoutes.lookup r.2.1 with
    | none => simp [hd]
    | some hops => simp [hd]

/-- A new table is empty. -/
@[simp] theorem not_mem_new (r : RouteKey) : r ∉ new := by
  rw [mem_iff]
  rintro ⟨vniRoutes, hops, h, -⟩
  rw [show new.routes = ∅ from rfl, Finmap.lookup_empty] at h
  cases h

/-- A cleared table is empty. -/
@[simp] theorem not_mem_clear (t : RouteTable) (r : RouteKey) : r ∉ t.clear := not_mem_new r

/-! ### `add_next_hop` -/

/-- The next hops that `add_next_hop` finds through its two `or_default` entries. -/
theorem mem_entry_iff (t : RouteTable) (vni : Vni) (destination : Destination)
    (nextHop : NextHop) :
    nextHop ∈ ((((t.routes.lookup vni).getD ∅).lookup destination).getD ∅ : HashSet NextHop)
      ↔ (vni, destination, nextHop) ∈ t := by
  rw [mem_iff]
  cases hv : t.routes.lookup vni with
  | none => simp
  | some vniRoutes =>
    cases hd : vniRoutes.lookup destination with
    | none => simp [hd]
    | some hops => simp [hd]

/-- `add_next_hop` returns whether the route was new. -/
theorem addNextHop_flag (t : RouteTable) (vni : Vni) (destination : Destination)
    (nextHop : NextHop) :
    (t.addNextHop vni destination nextHop).2 = true ↔ (vni, destination, nextHop) ∉ t := by
  rw [← mem_entry_iff]
  exact decide_eq_true_iff

/-- `add_next_hop` adds one route and keeps the others. -/
@[simp] theorem mem_addNextHop (t : RouteTable) (vni : Vni) (destination : Destination)
    (nextHop : NextHop) (r : RouteKey) :
    r ∈ (t.addNextHop vni destination nextHop).1 ↔ r = (vni, destination, nextHop) ∨ r ∈ t := by
  obtain ⟨v, d, n⟩ := r
  rw [mem_iff]
  simp only [addNextHop, RouteMap.addNextHop, HashMap.lookup_insert']
  by_cases hv : v = vni
  · subst hv
    by_cases hd : d = destination
    · subst hd
      simp [← mem_entry_iff t v d n]
    · -- Another destination of the same VNI keeps its next hops.
      rw [mem_iff]
      cases hm : t.routes.lookup v with
      | none => simp [hd]
      | some vniRoutes => simp [hd]
  · simp [hv, mem_iff]

/-! ### `remove_next_hop` -/

/-- `remove_next_hop` where both maps have an entry: the next hop is removed from the set, and the
entries that this leaves empty from the maps. -/
theorem removeNextHop_of_lookup {t : RouteTable} {vni : Vni} {destination : Destination}
    {vniRoutes : HashMap Destination (HashSet NextHop)} {nextHops : HashSet NextHop}
    (hv : t.routes.lookup vni = some vniRoutes)
    (hd : vniRoutes.lookup destination = some nextHops) (nextHop : NextHop) :
    (t.removeNextHop vni destination nextHop).1.routes
        = t.routes.removeNextHop vni vniRoutes destination nextHops nextHop ∧
      (t.removeNextHop vni destination nextHop).2
        = (decide (nextHop ∈ nextHops), (nextHops.erase nextHop).card) := by
  unfold removeNextHop
  split
  · rename_i hnone
    rw [hv] at hnone
    cases hnone
  · rename_i vniRoutes' hsome
    obtain rfl : vniRoutes = vniRoutes' := Option.some.inj (hv.symm.trans hsome)
    simp only [hd, and_self]

/-- Without an entry for the destination, `remove_next_hop` does nothing. -/
theorem removeNextHop_of_no_entry {t : RouteTable} {vni : Vni} {destination : Destination}
    (h : ((t.routes.lookup vni).bind fun vniRoutes => vniRoutes.lookup destination) = none)
    (nextHop : NextHop) : t.removeNextHop vni destination nextHop = (t, false, 0) := by
  unfold removeNextHop
  split
  · rfl
  · rename_i vniRoutes hsome
    rw [hsome, Option.bind_some] at h
    rw [h]

/-- The two cases of `remove_next_hop`: there is an entry for the destination or not. -/
theorem entry_cases (t : RouteTable) (vni : Vni) (destination : Destination) :
    ((t.routes.lookup vni).bind fun vniRoutes => vniRoutes.lookup destination) = none ∨
    ∃ vniRoutes nextHops, t.routes.lookup vni = some vniRoutes ∧
      vniRoutes.lookup destination = some nextHops := by
  cases hv : t.routes.lookup vni with
  | none => exact Or.inl rfl
  | some vniRoutes =>
    cases hd : vniRoutes.lookup destination with
    | none => exact Or.inl hd
    | some nextHops => exact Or.inr ⟨vniRoutes, nextHops, rfl, hd⟩

/-- Without an entry on the way to it, a route is not in the table. -/
theorem not_mem_of_no_entry {t : RouteTable} {vni : Vni} {destination : Destination}
    (h : ((t.routes.lookup vni).bind fun vniRoutes => vniRoutes.lookup destination) = none)
    (nextHop : NextHop) : (vni, destination, nextHop) ∉ t := by
  rw [mem_iff]
  rintro ⟨vniRoutes, hops, hv, hd, -⟩
  rw [hv, Option.bind_some, hd] at h
  cases h

/-- `remove_next_hop` returns whether the route was there. -/
theorem removeNextHop_flag (t : RouteTable) (vni : Vni) (destination : Destination)
    (nextHop : NextHop) :
    (t.removeNextHop vni destination nextHop).2.1 = true ↔ (vni, destination, nextHop) ∈ t := by
  rcases entry_cases t vni destination with h | ⟨vniRoutes, nextHops, hv, hd⟩
  · rw [removeNextHop_of_no_entry h]
    simp [not_mem_of_no_entry h nextHop]
  · rw [(removeNextHop_of_lookup hv hd nextHop).2, mem_iff]
    simp [hv, hd]

/-- `remove_next_hop` removes one route and keeps the others. -/
@[simp] theorem mem_removeNextHop (t : RouteTable) (vni : Vni) (destination : Destination)
    (nextHop : NextHop) (r : RouteKey) :
    r ∈ (t.removeNextHop vni destination nextHop).1 ↔
      r ≠ (vni, destination, nextHop) ∧ r ∈ t := by
  rcases entry_cases t vni destination with h | ⟨vniRoutes, nextHops, hv, hd⟩
  · rw [removeNextHop_of_no_entry h]
    constructor
    · intro hr
      refine ⟨?_, hr⟩
      rintro rfl
      exact not_mem_of_no_entry h nextHop hr
    · exact fun hr => hr.2
  · obtain ⟨v, d, n⟩ := r
    rw [mem_iff, (removeNextHop_of_lookup hv hd nextHop).1, mem_iff]
    simp only [RouteMap.removeNextHop]
    by_cases hvv : v = vni
    · subst hvv
      by_cases hdd : d = destination
      · subst hdd
        by_cases hempty : nextHops.erase nextHop = ∅
        · -- The set is gone, and so is every next hop but the removed one.
          have hn : ∀ m, m ∈ nextHops → m = nextHop := fun m hm => by
            by_contra hne
            exact Finset.notMem_empty m (hempty ▸ Finset.mem_erase.mpr ⟨hne, hm⟩)
          simp only [hempty, if_true]
          constructor
          · rintro ⟨vr, hops, h₁, h₂, -⟩
            split at h₁
            · rw [Finmap.lookup_erase] at h₁
              cases h₁
            · rw [Finmap.lookup_insert] at h₁
              cases h₁
              rw [Finmap.lookup_erase] at h₂
              cases h₂
          · rintro ⟨hne, vr, hops, h₁, h₂, h₃⟩
            rw [hv] at h₁
            cases h₁
            rw [hd] at h₂
            cases h₂
            exact absurd (by rw [hn n h₃]) hne
        · have hne : vniRoutes.insert d (nextHops.erase nextHop) ≠ ∅ :=
            HashMap.ne_empty_of_lookup (Finmap.lookup_insert _)
          simp [hempty, hne, hv, hd]
      · -- Another destination of the same VNI. The entry of the VNI may only go if it was
        -- the last one.
        by_cases hempty : nextHops.erase nextHop = ∅
        · by_cases hlast : vniRoutes.erase destination = ∅
          · have hnone : vniRoutes.lookup d = none := by
              rw [← Finmap.lookup_erase_ne hdd, hlast, Finmap.lookup_empty]
            simp [hempty, hlast, hdd, hv, hnone]
          · simp [hempty, hlast, hdd, hv]
        · have hne : vniRoutes.insert destination (nextHops.erase nextHop) ≠ ∅ :=
            HashMap.ne_empty_of_lookup (Finmap.lookup_insert _)
          simp [hempty, hne, hv, hdd]
    · split_ifs <;> simp [hvv]

/-! ### `remove_vni` -/

/-- `remove_vni` removes the routes of one VNI and keeps the others. -/
@[simp] theorem mem_removeVni (t : RouteTable) (vni : Vni) (r : RouteKey) :
    r ∈ (t.removeVni vni).1 ↔ r.1 ≠ vni ∧ r ∈ t := by
  rw [mem_iff, mem_iff]
  simp only [removeVni, HashMap.lookup_erase']
  by_cases hv : r.1 = vni
  · simp [hv]
  · simp [hv]

/-! ### The getters -/

/-- `get_routes_by_vni` lists the routes of the VNI. -/
theorem mem_getRoutesByVni (t : RouteTable) (vni : Vni) (route : Route) :
    route ∈ t.getRoutesByVni vni ↔ (vni, route.destination, route.nextHop) ∈ t := by
  rw [mem_iff]
  unfold getRoutesByVni
  cases hv : t.routes.lookup vni with
  | none => simp
  | some vniRoutes =>
    simp only [Multiset.mem_bind, Multiset.mem_map, Option.some.injEq]
    constructor
    · rintro ⟨⟨d, hops⟩, hmem, n, hn, rfl⟩
      exact ⟨vniRoutes, hops, rfl, Finmap.lookup_eq_some_iff.mpr hmem, hn⟩
    · rintro ⟨vniRoutes, hops, rfl, hd, hn⟩
      exact ⟨⟨route.destination, hops⟩, Finmap.lookup_eq_some_iff.mp hd, route.nextHop, hn, rfl⟩

/-- `get_all_routes` lists all routes with their VNIs. -/
theorem mem_getAllRoutes (t : RouteTable) (vni : Vni) (route : Route) :
    (vni, route) ∈ t.getAllRoutes ↔ (vni, route.destination, route.nextHop) ∈ t := by
  rw [mem_iff]
  simp only [getAllRoutes, Multiset.mem_bind, Multiset.mem_map]
  constructor
  · rintro ⟨⟨v, vniRoutes⟩, hv, ⟨d, hops⟩, hd, n, hn, heq⟩
    cases heq
    exact ⟨vniRoutes, hops, Finmap.lookup_eq_some_iff.mpr hv, Finmap.lookup_eq_some_iff.mpr hd, hn⟩
  · rintro ⟨vniRoutes, hops, hv, hd, hn⟩
    exact ⟨⟨vni, vniRoutes⟩, Finmap.lookup_eq_some_iff.mp hv, ⟨route.destination, hops⟩,
      Finmap.lookup_eq_some_iff.mp hd, route.nextHop, hn, rfl⟩

/-- `get_destinations_by_vni` gives the same routes, grouped by destination. -/
theorem mem_getDestinationsByVni (t : RouteTable) (vni : Vni) (destination : Destination)
    (nextHop : NextHop) :
    (∃ hops, (t.getDestinationsByVni vni).lookup destination = some hops ∧ nextHop ∈ hops) ↔
      (vni, destination, nextHop) ∈ t := by
  rw [← mem_entry_iff]
  simp only [getDestinationsByVni, HashMap.lookup_mapValues]
  cases ((t.routes.lookup vni).getD ∅).lookup destination with
  | none => simp
  | some hops => simp

/-- `get_vnis` lists the VNIs that have a route. -/
theorem mem_getVnis (t : RouteTable) (vni : Vni) :
    vni ∈ t.getVnis ↔ ∃ destination nextHop, (vni, destination, nextHop) ∈ t := by
  simp only [getVnis, Multiset.mem_map, mem_iff]
  constructor
  · rintro ⟨⟨v, vniRoutes⟩, hmem, rfl⟩
    have hv := Finmap.lookup_eq_some_iff.mpr hmem
    obtain ⟨hne, hin⟩ := t.noEmpty v vniRoutes hv
    -- Neither the inner map nor its set is empty, so the VNI has a route.
    obtain ⟨d, hd⟩ : ∃ d, vniRoutes.lookup d ≠ none := by
      by_contra hall
      push Not at hall
      exact hne ((HashMap.eq_empty_iff vniRoutes).mpr hall)
    obtain ⟨hops, hhops⟩ := Option.ne_none_iff_exists'.mp hd
    obtain ⟨n, hn⟩ := Finset.nonempty_iff_ne_empty.mpr (hin d hops hhops)
    exact ⟨d, n, vniRoutes, hops, hv, hhops, hn⟩
  · rintro ⟨d, n, vniRoutes, hops, hv, -⟩
    exact ⟨⟨vni, vniRoutes⟩, Finmap.lookup_eq_some_iff.mp hv, rfl⟩

/-! ### Counting -/

/-- The routes that are collected for one VNI, each once. What is collected of a route says which
one it is. -/
theorem nodup_routes {B : Type} {f : Route → B} (hf : Function.Injective f)
    (m : HashMap Destination (HashSet NextHop)) :
    (m.entries.bind fun e => e.2.val.map fun n => f ⟨e.1, n⟩).Nodup := by
  refine HashMap.nodup_bind_entries m (fun d hops => hops.val.map fun n => f ⟨d, n⟩)
    (fun d hops => hops.nodup.map fun n n' h => ?_) (fun d hops d' hops' r hr hr' => ?_)
  · exact congrArg Route.nextHop (hf h)
  · obtain ⟨n, -, rfl⟩ := Multiset.mem_map.mp hr
    obtain ⟨n', -, heq⟩ := Multiset.mem_map.mp hr'
    exact (congrArg Route.destination (hf heq)).symm

/-- `get_all_routes` lists no route twice, the maps having each key once. -/
theorem nodup_getAllRoutes (t : RouteTable) : t.getAllRoutes.Nodup := by
  refine HashMap.nodup_bind_entries t.routes
    (fun vni m => m.entries.bind fun e' => e'.2.val.map fun n => (vni, (⟨e'.1, n⟩ : Route)))
    (fun vni m => nodup_routes (Prod.mk_right_injective vni) m) (fun vni m vni' m' r hr hr' => ?_)
  simp only [Multiset.mem_bind, Multiset.mem_map] at hr hr'
  obtain ⟨e, _, n, _, rfl⟩ := hr
  obtain ⟨e', _, n', _, heq⟩ := hr'
  exact (congrArg Prod.fst heq).symm

/-- `len` is the number of the routes that `get_all_routes` lists. -/
theorem len_eq_card_getAllRoutes (t : RouteTable) : t.len = Multiset.card t.getAllRoutes := by
  simp [len, getAllRoutes, Function.comp_def]

/-- The triples of a table, as a finite set. -/
def triples (t : RouteTable) : Finset RouteKey :=
  (t.getAllRoutes.map fun r => (r.1, r.2.destination, r.2.nextHop)).toFinset

/-- The abstract set of a table has the same members as the table. -/
@[simp] theorem mem_triples (t : RouteTable) (r : RouteKey) : r ∈ t.triples ↔ r ∈ t := by
  obtain ⟨vni, destination, nextHop⟩ := r
  simp only [triples, Multiset.mem_toFinset, Multiset.mem_map]
  constructor
  · rintro ⟨⟨v, route⟩, hmem, heq⟩
    cases heq
    exact (mem_getAllRoutes t v route).mp hmem
  · intro h
    have hall := (mem_getAllRoutes t vni ⟨destination, nextHop⟩).mpr h
    exact ⟨(vni, ⟨destination, nextHop⟩), hall, rfl⟩

/-- `len` is the number of triples. -/
theorem len_eq_card_triples (t : RouteTable) : t.len = t.triples.card := by
  have hinj : Function.Injective fun r : Vni × Route => (r.1, r.2.destination, r.2.nextHop) := by
    rintro ⟨v, ⟨d, n⟩⟩ ⟨v', ⟨d', n'⟩⟩ h
    cases h
    rfl
  rw [triples, Multiset.toFinset_card_of_nodup ((nodup_getAllRoutes t).map hinj),
    Multiset.card_map, len_eq_card_getAllRoutes]

end RustBond.RouteTable
