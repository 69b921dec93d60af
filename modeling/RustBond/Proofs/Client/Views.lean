import RustBond.Proofs.Client.Inbound

/-!
# `RustBond.Proofs.Client.Views`: what the client's queries return

`get_received_routes`, `route_count`, `is_route_table_empty` and `get_route_servers` read the
tracker. `views_agree` says what this is in terms of the received routes of the peer tasks: the
union of their tables, in which a route of several servers is one route. It holds after every
event, so the queries agree with the calls of the user's handler too.
-/

set_option autoImplicit false

namespace RustBond

namespace RouteOriginTracker

/-- The keys of the tracker are the routes that some server has announced. -/
theorem mem_keys_iff (t : RouteOriginTracker) (r : RouteKey) :
    r ∈ t.inner.keys ↔ ∃ server, server ∈ t.origins r := by
  rw [Finmap.mem_keys, ← Finmap.lookup_isSome]
  unfold origins
  cases hlookup : t.inner.lookup r with
  | none => simp
  | some servers =>
    -- No set in the tracker is empty.
    obtain ⟨server, hmem⟩ := Finset.nonempty_iff_ne_empty.mpr (t.noEmpty r servers hlookup)
    simpa using ⟨server, hmem⟩

/-- `len` counts the routes with an entry. -/
theorem len_eq_card_keys (t : RouteOriginTracker) : t.len = t.inner.keys.card :=
  HashMap.len_eq_card_keys t.inner

/-- A listing of the tracker, by the keys. -/
theorem map_fst_getAll (t : RouteOriginTracker) : t.getAll.map Prod.fst = t.inner.keys.val := by
  unfold getAll
  rw [Multiset.map_map]
  rfl

/-- `get_servers` returns the origins of a route if it has some. -/
theorem getServers_eq_some_iff (t : RouteOriginTracker) (r : RouteKey)
    (servers : HashSet ServerId) :
    t.getServers r.1 r.2.1 r.2.2 = some servers ↔ servers = t.origins r ∧ servers ≠ ∅ := by
  unfold getServers origins
  cases hlookup : t.inner.lookup r with
  | none => simp
  | some servers' =>
    have hne := t.noEmpty r servers' hlookup
    rw [Option.some.injEq, Option.getD_some]
    constructor
    · rintro rfl
      exact ⟨rfl, hne⟩
    · exact fun h => h.1.symm

end RouteOriginTracker

namespace Inbound

/-- `get_received_routes` lists the routes of the VNI that have an entry in the tracker. -/
theorem getReceivedRoutes_eq (x : Inbound) (vni : Vni) :
    x.getReceivedRoutes vni
      = (x.origins.inner.keys.val.filter fun r => r.1 = vni).map fun r => ⟨r.2.1, r.2.2⟩ := by
  unfold getReceivedRoutes
  rw [← RouteOriginTracker.map_fst_getAll, Multiset.filter_map, Multiset.map_map]
  rfl

/-- The views of the client agree with the tracker after every sequence of events. -/
theorem agrees_of_run {ls : List Label} {x : Inbound} (hrun : lts.Run ls x) : x.Agrees :=
  Lts.Run.invariant agrees_new (fun _ _ _ _ _ h hs => agrees_step h hs) hrun

/-- **The client's queries show the union of the servers' routes.** After any sequence of events at
the peer tasks of any number of servers: `get_received_routes` lists every route of the VNI that
some server's task holds, and lists it once. `route_count` is the number of routes that some task
holds, and `is_route_table_empty` is true if there are none. `get_route_servers` returns the
servers whose tasks hold the route, and nothing if there are none. -/
theorem views_agree {ls : List Label} {x : Inbound} (hrun : lts.Run ls x) :
    (∀ vni, (x.getReceivedRoutes vni).Nodup ∧ ∀ route : Route, route ∈ x.getReceivedRoutes vni ↔
      ∃ s, (vni, route.destination, route.nextHop) ∈ (x.connections s).receivedRoutes) ∧
    (∃ routes : Finset RouteKey, x.routeCount = routes.card ∧
      ∀ r, r ∈ routes ↔ ∃ s, r ∈ (x.connections s).receivedRoutes) ∧
    (x.isRouteTableEmpty = true ↔ ∀ s r, r ∉ (x.connections s).receivedRoutes) ∧
    (∀ (r : RouteKey) (servers : HashSet ServerId),
      x.getRouteServers r.1 r.2.1 r.2.2 = some servers ↔
        servers ≠ ∅ ∧ ∀ s, s ∈ servers ↔ r ∈ (x.connections s).receivedRoutes) := by
  have hagrees := agrees_of_run hrun
  have hkeys : ∀ r, r ∈ x.origins.inner.keys ↔ ∃ s, r ∈ (x.connections s).receivedRoutes := by
    intro r
    rw [RouteOriginTracker.mem_keys_iff]
    exact exists_congr fun s => hagrees.origins r s
  refine ⟨fun vni => ⟨?_, fun route => ?_⟩, ⟨x.origins.inner.keys, ?_, hkeys⟩, ?_, ?_⟩
  · rw [getReceivedRoutes_eq]
    refine Multiset.Nodup.map_on ?_ (x.origins.inner.keys.nodup.filter _)
    -- Two keys of one VNI differ in the route.
    intro r hr r' hr' heq
    have hv : r.1 = r'.1 :=
      (Multiset.of_mem_filter hr).trans (Multiset.of_mem_filter hr').symm
    obtain ⟨hdest, hhop⟩ := Route.mk.inj heq
    exact Prod.ext hv (Prod.ext hdest hhop)
  · rw [getReceivedRoutes_eq, ← hkeys, Multiset.mem_map]
    constructor
    · rintro ⟨r, hr, rfl⟩
      obtain ⟨hmem, rfl⟩ := Multiset.mem_filter.mp hr
      exact hmem
    · intro hmem
      exact ⟨_, Multiset.mem_filter.mpr ⟨hmem, rfl⟩, rfl⟩
  · exact RouteOriginTracker.len_eq_card_keys x.origins
  · unfold isRouteTableEmpty RouteOriginTracker.isEmpty
    rw [beq_iff_eq, RouteOriginTracker.len_eq_card_keys, Finset.card_eq_zero,
      Finset.eq_empty_iff_forall_notMem]
    simp only [hkeys, not_exists]
    exact forall_comm
  · intro r servers
    unfold getRouteServers
    rw [RouteOriginTracker.getServers_eq_some_iff]
    constructor
    · rintro ⟨rfl, hne⟩
      exact ⟨hne, hagrees.origins r⟩
    · rintro ⟨hne, hservers⟩
      refine ⟨Finset.ext fun s => ?_, hne⟩
      rw [hservers, hagrees.origins]

/-- The queries after the run `oneServerLeaves`. -/
theorem views_agree_oneServerLeaves :
    ∃ x, lts.Run oneServerLeaves x ∧ ⟨makeDest 1, makeHop 1⟩ ∈ x.getReceivedRoutes ⟨100⟩ := by
  have hrun : lts.Run oneServerLeaves _ := Lts.Run.of_exec (by decide)
  exact ⟨_, hrun, (((views_agree hrun).1 ⟨100⟩).2 _).mpr ⟨⟨1⟩, by decide⟩⟩

end Inbound

end RustBond
