import RustBond.Netlink.Calls
import RustBond.Proofs.Netlink.Client

/-!
# `RustBond.Proofs.Netlink.Mirror`: does the kernel mirror the active routes?

Several active routes may share a table and a destination, with different next hops or VNIs. The
kernel has one route for them. An addition after the first one fails, and a removal does not look
at the next hop. So the removal of one of them takes the route away from the others.

`Mirrors` says that there is a route in the kernel precisely for the active ones, with the gateway
of one of them. `mirrors_iff` shows which calls keep it (`Keeps`). An addition has to be of a
destination that the kernel stores, and no route of another protocol may keep the new one out. A
removal has to hit the route in the table of its VNI, and no other active route may share it. If
the kernel does not show the destination as it is, or the VNI has table 0, a removal does nothing,
and the route has to have the gateway of another one that is active.
-/

set_option autoImplicit false

namespace RustBond.Netlink

/-- The destination that the kernel stores for a prefix, and the prefix itself if it is refused. -/
def Kernel.network (k : Kernel) (net : IpNet) : IpNet := (k.stores net).getD net

namespace Calls

open NetlinkClient (gateway hits hits_iff mem_insert makeDest6 table100)

/-- The route belongs to this table and destination of the kernel. -/
structure MapsTo (k : Kernel) (client : NetlinkClient) (route : RouteKey) (table : UInt32)
    (net : IpNet) : Prop where
  table_eq : (client.config.vniTableMap.lookup route.1).map kernelTable = some table
  net_eq : k.network route.2.1.ipPrefix = net

instance (k : Kernel) (client : NetlinkClient) (route : RouteKey) (table : UInt32) (net : IpNet) :
    Decidable (MapsTo k client route table net) :=
  decidable_of_iff ((client.config.vniTableMap.lookup route.1).map kernelTable = some table ∧
    k.network route.2.1.ipPrefix = net) ⟨fun h => ⟨h.1, h.2⟩, fun h => ⟨h.1, h.2⟩⟩

/-- `r` is a MetalBond route for this table and destination. -/
structure Occupies (r : KernelRoute) (table : UInt32) (net : IpNet) : Prop where
  protocol_eq : r.protocol = metalbondRtProto
  table_eq : r.table = table
  dest_eq : r.dest = net

instance (r : KernelRoute) (table : UInt32) (net : IpNet) : Decidable (Occupies r table net) :=
  decidable_of_iff (r.protocol = metalbondRtProto ∧ r.table = table ∧ r.dest = net)
    ⟨fun h => ⟨h.1, h.2.1, h.2.2⟩, fun h => ⟨h.1, h.2, h.3⟩⟩

/-- The kernel mirrors the active routes. -/
structure Mirrors (k : Kernel) (client : NetlinkClient) (s : Calls) : Prop where
  installed_iff : ∀ table net, (∃ r ∈ s.fib.routes, Occupies r table net) ↔
    ∃ route ∈ s.active, MapsTo k client route table net
  gateway_eq : ∀ r ∈ s.fib.routes, r.protocol = metalbondRtProto →
    ∃ route ∈ s.active, MapsTo k client route r.table r.dest ∧
      r.gateway = gateway route.2.1.ipPrefix route.2.2

/-- What the addition of a route needs, where the VNI has table `id`. The kernel has to store the
destination. If it has a route that keeps the new one out, one of MetalBond has to be there. -/
def KeepsAddition (k : Kernel) (client : NetlinkClient) (s : Calls) (route : RouteKey)
    (id : UInt32) : Prop :=
  ∃ stored ∈ k.stores route.2.1.ipPrefix,
    s.fib.occupied (client.newRoute id route.2.1.ipPrefix stored route.2.2) = true →
      ∃ r ∈ s.fib.routes, Occupies r (kernelTable id) stored

instance (k : Kernel) (client : NetlinkClient) (s : Calls) (route : RouteKey) (id : UInt32) :
    Decidable (KeepsAddition k client s route id) :=
  Option.decidableExistsMem _

/-- What the removal of a route needs, where the VNI has table `id`. If the kernel shows its
destination as it is and in this table, then the first route that is hit has to be in the table,
and no other active route belongs to it. If not, the route of the kernel stays, and has to have the
gateway of another active one. -/
def KeepsRemoval (k : Kernel) (client : NetlinkClient) (s : Calls) (route : RouteKey)
    (id : UInt32) : Prop :=
  if id ≠ 0 ∧ k.Shows route.2.1.ipPrefix then
    (∀ found ∈ s.fib.routes.find? (hits k id route.2.1.ipPrefix), found.table = id) ∧
      ∀ other ∈ s.active.erase route, ¬ MapsTo k client other id route.2.1.ipPrefix
  else
    ∃ other ∈ s.active.erase route,
      MapsTo k client other (kernelTable id) (k.network route.2.1.ipPrefix) ∧
        ∃ r ∈ s.fib.routes, Occupies r (kernelTable id) (k.network route.2.1.ipPrefix) ∧
          r.gateway = gateway other.2.1.ipPrefix other.2.2

instance (k : Kernel) (client : NetlinkClient) (s : Calls) (route : RouteKey) (id : UInt32) :
    Decidable (KeepsRemoval k client s route id) :=
  inferInstanceAs (Decidable (if id ≠ 0 ∧ k.Shows route.2.1.ipPrefix then
    (∀ found ∈ s.fib.routes.find? _, _) ∧ ∀ other ∈ s.active.erase route, ¬ _
    else ∃ other ∈ s.active.erase route, _ ∧ ∃ r ∈ s.fib.routes, _ ∧ _))

/-- What a call needs for the kernel to mirror the active routes afterwards. -/
def Keeps (k : Kernel) (client : NetlinkClient) (s : Calls) : Call → Prop
  | .add route _ =>
    ∀ id ∈ client.config.vniTableMap.lookup route.1, KeepsAddition k client s route id
  | .remove route =>
    ∀ id ∈ client.config.vniTableMap.lookup route.1, KeepsRemoval k client s route id

instance (k : Kernel) (client : NetlinkClient) (s : Calls) :
    (call : Call) → Decidable (Keeps k client s call)
  | .add _ _ => Option.decidableForallMem _
  | .remove _ => Option.decidableForallMem _

/-- The kernel has MetalBond routes only to destinations that it stores as they are, and none in a
table with the id 0. -/
def Stored (k : Kernel) (fib : Fib) : Prop :=
  ∀ r ∈ fib.routes, r.protocol = metalbondRtProto → k.stores r.dest = some r.dest ∧ r.table ≠ 0

variable {k : Kernel} {client : NetlinkClient} {s s' : Calls} {vni : Vni} {dest : Destination}
  {nextHop : NextHop} {table : UInt32} {net : IpNet} {place : Nat} {fib : Fib}
  {r r' : KernelRoute}

/-- At most one route of the kernel is for a table and a destination. -/
theorem Occupies.unique (h : Occupies r table net) (h' : Occupies r' table net)
    (hr : r ∈ fib.routes) (hr' : r' ∈ fib.routes) : r = r' := by
  by_contra hne
  obtain ⟨before, after, hroutes⟩ := List.append_of_mem hr
  have hpairs := fib.unique
  rw [hroutes] at hr' hpairs
  rw [List.pairwise_append, List.pairwise_cons] at hpairs
  obtain ⟨-, ⟨hafter, -⟩, hbefore⟩ := hpairs
  rcases List.mem_append.mp hr' with hr' | hr'
  · exact hbefore r' hr' r List.mem_cons_self h'.protocol_eq h.protocol_eq
      ⟨h'.table_eq.trans h.table_eq.symm, h'.dest_eq.trans h.dest_eq.symm⟩
  · rcases List.mem_cons.mp hr' with heq | hr'
    · exact hne heq.symm
    · exact hafter r' hr' h.protocol_eq h'.protocol_eq
        ⟨h.table_eq.trans h'.table_eq.symm, h.dest_eq.trans h'.dest_eq.symm⟩

/-- Erasing a MetalBond route takes this one away. -/
theorem mem_erase {p : KernelRoute → Bool} {found : KernelRoute}
    (hfound : fib.routes.find? p = some found) (hprotocol : found.protocol = metalbondRtProto) :
    r ∈ (fib.erase p).routes ↔ r ∈ fib.routes ∧ r ≠ found := by
  obtain ⟨-, before, after, hroutes, -, herase⟩ := NetlinkClient.eraseP_of_find? hfound
  -- The other routes have another table or another destination.
  have hother : found ∉ before ++ after := by
    intro hmem
    have hpairs := fib.unique
    rw [hroutes, List.pairwise_middle fun {r r'} hne hr' hr heq =>
      hne hr hr' ⟨heq.1.symm, heq.2.symm⟩, List.pairwise_cons] at hpairs
    exact hpairs.1 found hmem hprotocol hprotocol ⟨rfl, rfl⟩
  show r ∈ fib.routes.eraseP p ↔ _
  rw [herase, hroutes]
  constructor
  · intro hr
    refine ⟨?_, fun heq => hother (heq ▸ hr)⟩
    rcases List.mem_append.mp hr with hr | hr
    · exact List.mem_append_left _ hr
    · exact List.mem_append_right _ (List.mem_cons_of_mem _ hr)
  · rintro ⟨hr, hne⟩
    rcases List.mem_append.mp hr with hr | hr
    · exact List.mem_append_left _ hr
    · exact List.mem_append_right _ ((List.mem_cons.mp hr).resolve_left hne)

/-! ### One call -/

/-- What an addition does to the routes of the kernel. It is refused for its destination, kept out
by a route that is there, or made. -/
inductive Added (k : Kernel) (client : NetlinkClient) (dest : Destination) (nextHop : NextHop)
    (place : Nat) (table : UInt32) (fib : Fib) : Fib → Prop
  | refused : k.stores dest.ipPrefix = none → Added k client dest nextHop place table fib fib
  | keptOut {stored : IpNet} : k.stores dest.ipPrefix = some stored →
      fib.occupied (client.newRoute table dest.ipPrefix stored nextHop) = true →
      Added k client dest nextHop place table fib fib
  | inserted {stored : IpNet}
      (hfree : fib.occupied (client.newRoute table dest.ipPrefix stored nextHop) = false) :
      k.stores dest.ipPrefix = some stored →
      Added k client dest nextHop place table fib
        (fib.insert place (client.newRoute table dest.ipPrefix stored nextHop) hfree)

/-- Every addition is of one of these kinds: an error leaves the routes of the kernel as they
are. -/
theorem added_addRoute (hmap : client.config.vniTableMap.lookup vni = some table) (fib : Fib) :
    Added k client dest nextHop place table fib
      (((client.addRoute k vni dest nextHop place fib).toOption).getD fib) := by
  cases hadd : client.addRoute k vni dest nextHop place fib with
  | ok fib' =>
    obtain ⟨stored, hstored, hfree, rfl⟩ := (NetlinkClient.addRoute_eq_ok hmap).mp hadd
    exact .inserted hfree hstored
  | error e =>
    show Added k client dest nextHop place table fib fib
    cases hstored : k.stores dest.ipPrefix with
    | none => exact .refused hstored
    | some stored =>
      -- The kernel has a route for it, or it would have been added.
      by_cases hfree : fib.occupied (client.newRoute table dest.ipPrefix stored nextHop) = false
      · have hok : client.addRoute k vni dest nextHop place fib = .ok (fib.insert place _ hfree) :=
          (NetlinkClient.addRoute_eq_ok hmap).mpr ⟨stored, hstored, hfree, rfl⟩
        rw [hadd] at hok
        cases hok
      · exact .keptOut hstored (Bool.not_eq_false _ ▸ hfree)

/-- A call is made for a VNI with a table. -/
theorem step_add (h : step k client s (.add (vni, dest, nextHop) place) = some s') :
    ∃ table, client.config.vniTableMap.lookup vni = some table ∧
      s'.active = insert (vni, dest, nextHop) s.active ∧
      Added k client dest nextHop place table s.fib s'.fib := by
  rw [step] at h
  obtain ⟨hcalled, hs'⟩ := Option.ite_none_left_eq_some.mp h
  rw [not_or, Option.isNone_iff_eq_none, ← Ne, Option.ne_none_iff_exists'] at hcalled
  obtain ⟨⟨table, hmap⟩, -⟩ := hcalled
  cases hs'
  exact ⟨table, hmap, rfl, added_addRoute hmap s.fib⟩

/-- The inversion of a removal: the route was active, its VNI has a table, and what the client
takes for it is erased there. -/
theorem step_remove (h : step k client s (.remove (vni, dest, nextHop)) = some s') :
    ∃ table, client.config.vniTableMap.lookup vni = some table ∧
      (vni, dest, nextHop) ∈ s.active ∧ s'.active = s.active.erase (vni, dest, nextHop) ∧
      s'.fib = s.fib.erase (hits k table dest.ipPrefix) := by
  rw [step] at h
  obtain ⟨hcalled, hs'⟩ := Option.ite_none_left_eq_some.mp h
  rw [not_or, not_not, Option.isNone_iff_eq_none, ← Ne, Option.ne_none_iff_exists'] at hcalled
  obtain ⟨⟨table, hmap⟩, hactive⟩ := hcalled
  cases hs'
  exact ⟨table, hmap, hactive, rfl, by rw [NetlinkClient.removeRoute_eq hmap]; rfl⟩

/-! ### The routes that are mirrored -/

/-- What the kernel stores for a prefix is the network of the prefix. -/
theorem network_of_stores {stored : IpNet} (h : k.stores net = some stored) :
    k.network net = stored := by
  rw [Kernel.network, h]
  rfl

/-- An active route belongs to one table and destination. -/
theorem MapsTo.unique {route : RouteKey} {table' : UInt32} {net' : IpNet}
    (h : MapsTo k client route table net) (h' : MapsTo k client route table' net') :
    table = table' ∧ net = net' :=
  ⟨Option.some.inj (h.table_eq.symm.trans h'.table_eq), h.net_eq.symm.trans h'.net_eq⟩

/-- A MetalBond route of the kernel is at its own table and destination. -/
theorem occupies_self (h : r.protocol = metalbondRtProto) : Occupies r r.table r.dest :=
  ⟨h, rfl, rfl⟩

/-- A route of a VNI with a table belongs to the kernel's table for it and the destination that the
kernel stores. -/
theorem mapsTo_network (hmap : client.config.vniTableMap.lookup vni = some table) :
    MapsTo k client (vni, dest, nextHop) (kernelTable table) (k.network dest.ipPrefix) :=
  ⟨by rw [hmap]; rfl, rfl⟩

/-- After an addition that has what it needs, the kernel has a route for the destination, and the
others as before. -/
theorem Added.routes {fib' : Fib} (h : Added k client dest nextHop place table s.fib fib')
    (hkeeps : KeepsAddition k client s (vni, dest, nextHop) table) :
    ∃ stored, k.stores dest.ipPrefix = some stored ∧
      (∀ r ∈ fib'.routes,
        r ∈ s.fib.routes ∨ r = client.newRoute table dest.ipPrefix stored nextHop) ∧
      (∀ r ∈ s.fib.routes, r ∈ fib'.routes) ∧
      ∃ r ∈ fib'.routes, Occupies r (kernelTable table) stored := by
  obtain ⟨stored, hstored, hpresent⟩ := hkeeps
  refine ⟨stored, hstored, ?_⟩
  cases h with
  | refused hnone => rw [hstored] at hnone; cases hnone
  | @keptOut stored' hstored' hoccupied =>
    cases hstored.symm.trans hstored'
    exact ⟨fun _ => Or.inl, fun _ hr => hr, hpresent hoccupied⟩
  | @inserted stored' hfree hstored' =>
    cases hstored.symm.trans hstored'
    exact ⟨fun r hr => ((mem_insert hfree).mp hr).symm,
      fun r hr => (mem_insert hfree).mpr (.inr hr),
      _, (mem_insert hfree).mpr (.inl rfl), rfl, rfl, rfl⟩

/-- An addition that has what it needs is mirrored. -/
theorem Mirrors.add {fib' : Fib} (h : Mirrors k client s)
    (hmap : client.config.vniTableMap.lookup vni = some table)
    (hadded : Added k client dest nextHop place table s.fib fib')
    (hkeeps : KeepsAddition k client s (vni, dest, nextHop) table) :
    Mirrors k client ⟨fib', insert (vni, dest, nextHop) s.active⟩ := by
  obtain ⟨stored, hstored, hback, hkept, r, hr, hoccupies⟩ := hadded.routes hkeeps
  have hnew : MapsTo k client (vni, dest, nextHop) (kernelTable table) stored :=
    network_of_stores hstored ▸ mapsTo_network hmap
  refine ⟨fun table' net' => ⟨?_, ?_⟩, ?_⟩
  · rintro ⟨r', hr', hoccupies'⟩
    rcases hback r' hr' with hr' | rfl
    · obtain ⟨route, hroute, hmaps⟩ := (h.installed_iff table' net').mp ⟨r', hr', hoccupies'⟩
      exact ⟨route, Finset.mem_insert_of_mem hroute, hmaps⟩
    · obtain ⟨-, rfl, rfl⟩ := hoccupies'
      exact ⟨_, Finset.mem_insert_self .., hnew⟩
  · rintro ⟨route, hroute, hmaps⟩
    rcases Finset.mem_insert.mp hroute with rfl | hroute
    · obtain ⟨rfl, rfl⟩ := hnew.unique hmaps
      exact ⟨r, hr, hoccupies⟩
    · obtain ⟨r', hr', hoccupies'⟩ := (h.installed_iff table' net').mpr ⟨route, hroute, hmaps⟩
      exact ⟨r', hkept r' hr', hoccupies'⟩
  · intro r' hr' hprotocol
    rcases hback r' hr' with hr' | rfl
    · obtain ⟨route, hroute, hmaps⟩ := h.gateway_eq r' hr' hprotocol
      exact ⟨route, Finset.mem_insert_of_mem hroute, hmaps⟩
    · exact ⟨_, Finset.mem_insert_self .., hnew, rfl⟩

/-- Without what it needs, an addition is not mirrored: a destination that is refused is not in the
kernel, and a route that keeps the new one out has to be one of MetalBond. -/
theorem Mirrors.keepsAddition {fib' : Fib} (hstored : Stored k s.fib)
    (hmap : client.config.vniTableMap.lookup vni = some table)
    (hadded : Added k client dest nextHop place table s.fib fib')
    (h' : Mirrors k client ⟨fib', insert (vni, dest, nextHop) s.active⟩) :
    KeepsAddition k client s (vni, dest, nextHop) table := by
  obtain ⟨r, hr, hoccupies⟩ := (h'.installed_iff (kernelTable table) (k.network dest.ipPrefix)).mpr
    ⟨_, Finset.mem_insert_self .., mapsTo_network hmap⟩
  cases hadded with
  | refused hnone =>
    have hsome := (hstored r hr hoccupies.protocol_eq).1
    rw [hoccupies.dest_eq, Kernel.network, hnone, Option.getD_none, hnone] at hsome
    cases hsome
  | keptOut hsome _ =>
    rw [network_of_stores hsome] at hoccupies
    exact ⟨_, hsome, fun _ => ⟨r, hr, hoccupies⟩⟩
  | inserted hfree hsome =>
    refine ⟨_, hsome, fun hoccupied => ?_⟩
    rw [hfree] at hoccupied
    cases hoccupied

section
variable {found : KernelRoute}

/-- What a removal hits is a MetalBond route at the destination of the removed one. -/
theorem occupies_of_find (hstored : Stored k fib)
    (hfound : fib.routes.find? (hits k table net) = some found) :
    found ∈ fib.routes ∧ Occupies found found.table (k.network net) := by
  obtain ⟨-, hprotocol, hdest, -⟩ := hits_iff.mp (NetlinkClient.eraseP_of_find? hfound).1
  have hmem : found ∈ fib.routes := List.mem_of_find?_eq_some hfound
  have hnetwork : k.network net = found.dest := by
    rw [← hdest]
    exact network_of_stores (hstored found hmem hprotocol).1
  exact ⟨hmem, hprotocol, rfl, hnetwork.symm⟩

/-- After a mirrored removal, the route that was hit is gone, and no other active route belongs to
it. -/
theorem Mirrors.alone_of_erase (h : Mirrors k client s) (hstored : Stored k s.fib)
    (hroute : MapsTo k client (vni, dest, nextHop) table (k.network dest.ipPrefix))
    (hfound : s.fib.routes.find? (hits k table dest.ipPrefix) = some found)
    (h' : Mirrors k client ⟨s.fib.erase (hits k table dest.ipPrefix),
      s.active.erase (vni, dest, nextHop)⟩) :
    found.table = table ∧ ∀ other ∈ s.active.erase (vni, dest, nextHop),
      ¬ MapsTo k client other table (k.network dest.ipPrefix) := by
  obtain ⟨hmem, hprotocol, -, hdest⟩ := occupies_of_find hstored hfound
  rw [← hdest]
  have hfree : ∀ other ∈ s.active.erase (vni, dest, nextHop),
      ¬ MapsTo k client other found.table found.dest := by
    intro other hother hmaps
    obtain ⟨r, hr, hoccupies⟩ := (h'.installed_iff _ _).mpr ⟨other, hother, hmaps⟩
    obtain ⟨hr, hne⟩ := (mem_erase hfound hprotocol).mp hr
    exact hne (hoccupies.unique (occupies_self hprotocol) hr hmem)
  have htable : found.table = table := by
    by_contra hne
    obtain ⟨other, hother, hmaps, -⟩ := h.gateway_eq found hmem hprotocol
    refine hfree other (Finset.mem_erase.mpr ⟨?_, hother⟩) hmaps
    rintro rfl
    exact hne (hmaps.unique hroute).1
  exact ⟨htable, htable ▸ hfree⟩

/-- The removal of the only active route that belongs to what it hits is mirrored. -/
theorem Mirrors.erase (h : Mirrors k client s) (hstored : Stored k s.fib)
    (hroute : MapsTo k client (vni, dest, nextHop) table (k.network dest.ipPrefix))
    (hfound : s.fib.routes.find? (hits k table dest.ipPrefix) = some found)
    (htable : found.table = table)
    (halone : ∀ other ∈ s.active.erase (vni, dest, nextHop),
      ¬ MapsTo k client other table (k.network dest.ipPrefix)) :
    Mirrors k client ⟨s.fib.erase (hits k table dest.ipPrefix),
      s.active.erase (vni, dest, nextHop)⟩ := by
  obtain ⟨hmem, hprotocol, -, hdest⟩ := occupies_of_find hstored hfound
  rw [← hdest] at halone hroute
  -- What belongs to another table or destination is active as before.
  have hother : ∀ {r route}, r ∈ s.fib.routes → r ≠ found → r.protocol = metalbondRtProto →
      route ∈ s.active → MapsTo k client route r.table r.dest →
      route ∈ s.active.erase (vni, dest, nextHop) := by
    intro r route hr hne hr' hactive hmaps
    refine Finset.mem_erase.mpr ⟨?_, hactive⟩
    rintro rfl
    obtain ⟨hrtable, hrdest⟩ := hmaps.unique hroute
    exact hne (Occupies.unique ⟨hr', hrtable, hrdest⟩ ⟨hprotocol, htable, rfl⟩ hr hmem)
  refine ⟨fun table' net' => ⟨?_, ?_⟩, ?_⟩
  · rintro ⟨r, hr, hoccupies⟩
    obtain ⟨hr, hne⟩ := (mem_erase hfound hprotocol).mp hr
    obtain ⟨route, hactive, hmaps⟩ := (h.installed_iff table' net').mp ⟨r, hr, hoccupies⟩
    obtain ⟨hr', rfl, rfl⟩ := hoccupies
    exact ⟨route, hother hr hne hr' hactive hmaps, hmaps⟩
  · rintro ⟨route, hactive, hmaps⟩
    obtain ⟨r, hr, hoccupies⟩ :=
      (h.installed_iff table' net').mpr ⟨route, Finset.mem_of_mem_erase hactive, hmaps⟩
    refine ⟨r, (mem_erase hfound hprotocol).mpr ⟨hr, ?_⟩, hoccupies⟩
    rintro rfl
    obtain ⟨-, rfl, rfl⟩ := hoccupies
    exact halone route hactive (htable ▸ hmaps)
  · intro r hr hr'
    obtain ⟨hr, hne⟩ := (mem_erase hfound hprotocol).mp hr
    obtain ⟨route, hactive, hmaps, hgateway⟩ := h.gateway_eq r hr hr'
    exact ⟨route, hother hr hne hr' hactive hmaps, hmaps, hgateway⟩

/-- A removal that hits a route of the kernel. What is mirrored afterwards is that no other active
route belongs to it. -/
theorem mirrors_erase_iff (h : Mirrors k client s) (hstored : Stored k s.fib)
    (hroute : MapsTo k client (vni, dest, nextHop) table (k.network dest.ipPrefix))
    (hfound : s.fib.routes.find? (hits k table dest.ipPrefix) = some found) :
    Mirrors k client ⟨s.fib.erase (hits k table dest.ipPrefix),
        s.active.erase (vni, dest, nextHop)⟩ ↔
      found.table = table ∧ ∀ other ∈ s.active.erase (vni, dest, nextHop),
        ¬ MapsTo k client other table (k.network dest.ipPrefix) :=
  ⟨h.alone_of_erase hstored hroute hfound,
    fun ⟨htable, halone⟩ => h.erase hstored hroute hfound htable halone⟩

end

/-- What a removal hits is shown by the kernel, and is not in a table with the id 0. -/
theorem shows_of_find {found : KernelRoute} (hstored : Stored k fib)
    (hfound : fib.routes.find? (hits k table net) = some found) : table ≠ 0 ∧ k.Shows net := by
  have hhit : hits k table net found = true := (NetlinkClient.eraseP_of_find? hfound).1
  obtain ⟨-, hprotocol, hdest, hdumps⟩ := hits_iff.mp hhit
  obtain ⟨hsame, hne⟩ := hstored found (List.mem_of_find?_eq_some hfound) hprotocol
  exact ⟨NetlinkClient.table_ne_zero_of_hits hhit hne, hdest ▸ hsame, hdumps⟩

/-- The removal of an active route hits one of the kernel if it is shown. -/
theorem find_ne_none (h : Mirrors k client s) (hactive : (vni, dest, nextHop) ∈ s.active)
    (hroute : MapsTo k client (vni, dest, nextHop) table (k.network dest.ipPrefix))
    (hshows : k.Shows dest.ipPrefix) :
    s.fib.routes.find? (hits k table dest.ipPrefix) ≠ none := by
  intro hnone
  rw [network_of_stores hshows.1] at hroute
  obtain ⟨r, hr, hprotocol, htable, hdest⟩ := (h.installed_iff table dest.ipPrefix).mpr
    ⟨_, hactive, hroute⟩
  exact List.find?_eq_none.mp hnone r hr
    (hits_iff.mpr ⟨Or.inl htable, hprotocol, hdest, hshows.2⟩)

/-- A removal that hits nothing. What is mirrored afterwards is that the route that stays has the
gateway of another active one. -/
theorem mirrors_kept_iff (h : Mirrors k client s) (hactive : (vni, dest, nextHop) ∈ s.active)
    (hroute : MapsTo k client (vni, dest, nextHop) table (k.network dest.ipPrefix)) :
    Mirrors k client ⟨s.fib, s.active.erase (vni, dest, nextHop)⟩ ↔
      ∃ other ∈ s.active.erase (vni, dest, nextHop),
        MapsTo k client other table (k.network dest.ipPrefix) ∧
          ∃ r ∈ s.fib.routes, Occupies r table (k.network dest.ipPrefix) ∧
            r.gateway = gateway other.2.1.ipPrefix other.2.2 := by
  constructor
  · intro h'
    obtain ⟨r, hr, hoccupies⟩ := (h.installed_iff _ _).mpr ⟨_, hactive, hroute⟩
    obtain ⟨other, hother, hmaps, hgateway⟩ := h'.gateway_eq r hr hoccupies.protocol_eq
    rw [hoccupies.table_eq, hoccupies.dest_eq] at hmaps
    exact ⟨other, hother, hmaps, r, hr, hoccupies, hgateway⟩
  · rintro ⟨other, hother, hmaps, r, hr, hoccupies, hgateway⟩
    refine ⟨fun table' net' => ⟨?_, ?_⟩, ?_⟩
    · intro hinstalled
      obtain ⟨route, hroute', hmaps'⟩ := (h.installed_iff table' net').mp hinstalled
      by_cases hsame : route = (vni, dest, nextHop)
      · subst hsame
        obtain ⟨rfl, rfl⟩ := hroute.unique hmaps'
        exact ⟨other, hother, hmaps⟩
      · exact ⟨route, Finset.mem_erase.mpr ⟨hsame, hroute'⟩, hmaps'⟩
    · rintro ⟨route, hroute', hmaps'⟩
      exact (h.installed_iff table' net').mpr ⟨route, Finset.mem_of_mem_erase hroute', hmaps'⟩
    · intro r' hr' hprotocol
      obtain ⟨route, hroute', hmaps', hgateway'⟩ := h.gateway_eq r' hr' hprotocol
      by_cases hsame : route = (vni, dest, nextHop)
      · -- It is the route that stays, which has the gateway of the other one.
        subst hsame
        obtain ⟨htable, hnet⟩ := hmaps'.unique hroute
        cases hoccupies.unique ⟨hprotocol, htable, hnet⟩ hr hr'
        exact ⟨other, hother, htable ▸ hnet ▸ hmaps, hgateway⟩
      · exact ⟨route, Finset.mem_erase.mpr ⟨hsame, hroute'⟩, hmaps', hgateway'⟩

/-! ### All calls -/

/-- A removal is mirrored exactly if it has what it needs. Whether it hits a route is whether the
kernel shows the destination, in the table of the VNI. -/
theorem mirrors_removal_iff (h : Mirrors k client s) (hstored : Stored k s.fib)
    (hactive : (vni, dest, nextHop) ∈ s.active)
    (hmap : client.config.vniTableMap.lookup vni = some table) :
    Mirrors k client ⟨s.fib.erase (hits k table dest.ipPrefix),
        s.active.erase (vni, dest, nextHop)⟩ ↔
      KeepsRemoval k client s (vni, dest, nextHop) table := by
  have hroute : MapsTo k client (vni, dest, nextHop) (kernelTable table)
    (k.network dest.ipPrefix) := mapsTo_network hmap
  rw [KeepsRemoval]
  cases hfound : s.fib.routes.find? (hits k table dest.ipPrefix) with
  | some found =>
    have hshows : table ≠ 0 ∧ k.Shows dest.ipPrefix := shows_of_find hstored hfound
    rw [NetlinkClient.kernelTable_eq_self_iff.mpr hshows.1] at hroute
    rw [mirrors_erase_iff h hstored hroute hfound, network_of_stores hshows.2.1, if_pos hshows]
    refine and_congr_left fun _ => ⟨fun htable found' hfound' => ?_, fun hok => hok found rfl⟩
    cases hfound'
    exact htable
  | none =>
    have hhidden : ¬ (table ≠ 0 ∧ k.Shows dest.ipPrefix) := by
      rintro ⟨hne, hshows⟩
      rw [NetlinkClient.kernelTable_eq_self_iff.mpr hne] at hroute
      exact find_ne_none h hactive hroute hshows hfound
    rw [NetlinkClient.erase_of_find?_eq_none hfound, mirrors_kept_iff h hactive hroute,
      if_neg hhidden]

/-- A call is mirrored exactly if it has what it needs. -/
theorem mirrors_step_iff {call : Call} (h : Mirrors k client s) (hstored : Stored k s.fib)
    (hs : step k client s call = some s') : Mirrors k client s' ↔ Keeps k client s call := by
  obtain ⟨fib', active'⟩ := s'
  cases call with
  | add route place =>
    obtain ⟨vni, dest, nextHop⟩ := route
    obtain ⟨table, hmap, rfl, hadded⟩ := step_add hs
    simp only [Keeps, hmap, Option.mem_some_iff, forall_eq']
    exact ⟨fun h' => h'.keepsAddition hstored hmap hadded, fun hok => h.add hmap hadded hok⟩
  | remove route =>
    obtain ⟨vni, dest, nextHop⟩ := route
    obtain ⟨table, hmap, hactive, rfl, rfl⟩ := step_remove hs
    simp only [Keeps, hmap, Option.mem_some_iff, forall_eq']
    exact mirrors_removal_iff h hstored hactive hmap

/-- No call puts a MetalBond route where the kernel would not store it. -/
theorem stored_step {call : Call} (h : Stored k s.fib) (hs : step k client s call = some s') :
    Stored k s'.fib := by
  cases call with
  | add route place =>
    obtain ⟨vni, dest, nextHop⟩ := route
    obtain ⟨table, -, -, hadded⟩ := step_add hs
    generalize s'.fib = fib' at hadded ⊢
    cases hadded with
    | refused _ => exact h
    | keptOut _ _ => exact h
    | inserted hfree hstored =>
      intro r hr hprotocol
      rcases (mem_insert hfree).mp hr with rfl | hr
      · exact ⟨k.stores_stored hstored, NetlinkClient.kernelTable_ne_zero table⟩
      · exact h r hr hprotocol
  | remove route =>
    obtain ⟨vni, dest, nextHop⟩ := route
    obtain ⟨table, -, -, -, hfib⟩ := step_remove hs
    rw [hfib]
    exact fun r hr hprotocol => h r (List.mem_of_mem_eraseP hr) hprotocol

/-- **The kernel mirrors the active routes.** Let a handler begin without MetalBond routes in the
kernel. After each of its calls the kernel mirrors its active routes if and only if each call has
what it needs. -/
theorem mirrors_iff (k : Kernel) (client : NetlinkClient) (fib : Fib)
    (hnone : ∀ r ∈ fib.routes, r.protocol ≠ metalbondRtProto) {calls : List Call} {s : Calls}
    (hrun : (lts k client fib).Run calls s) :
    (lts k client fib).Always (Mirrors k client) calls ↔
      (lts k client fib).Throughout (Keeps k client) calls := by
  refine Lts.always_iff_throughout (Q := fun s => Mirrors k client s ∧ Stored k s.fib)
    ⟨⟨fun table net => iff_of_false ?_ ?_, ?_⟩, ?_⟩ (fun _ _ _ h => h.1) ?_ ?_ hrun
  · rintro ⟨r, hr, hoccupies⟩
    exact hnone r hr hoccupies.protocol_eq
  · rintro ⟨route, hroute, -⟩
    cases hroute
  · exact fun r hr hprotocol => absurd hprotocol (hnone r hr)
  · exact fun r hr hprotocol => absurd hprotocol (hnone r hr)
  · exact fun _ _ _ _ _ h hok hs => ⟨(mirrors_step_iff h.1 h.2 hs).mpr hok, stored_step h.2 hs⟩
  · exact fun _ _ _ _ _ h hs h' => (mirrors_step_iff h.1 h.2 hs).mp h'

/-- Two routes to one destination, and the first one is withdrawn. -/
def sharedDestination : List Call :=
  [.add (⟨100⟩, makeDest6 0 64, makeHop 1) 0, .add (⟨100⟩, makeDest6 0 64, makeHop 2) 0,
    .remove (⟨100⟩, makeDest6 0 64, makeHop 1)]

/-- Two routes to different destinations, and the first one is withdrawn. -/
def ownDestination : List Call :=
  [.add (⟨100⟩, makeDest6 0 64, makeHop 1) 0, .add (⟨100⟩, makeDest6 0 48, makeHop 2) 1,
    .remove (⟨100⟩, makeDest6 0 64, makeHop 1)]

/-- The mirror where the withdrawn route has a destination of its own, so that its removal finds no
other route. -/
theorem mirrors_ownDestination :
    ∃ s, (lts linux table100 ⟨[], .nil⟩).Run ownDestination s ∧
      (lts linux table100 ⟨[], .nil⟩).Always (Mirrors linux table100) ownDestination := by
  have hrun : (lts linux table100 ⟨[], .nil⟩).Run ownDestination _ := Lts.Run.of_exec (by decide)
  exact ⟨_, hrun, (mirrors_iff linux table100 ⟨[], .nil⟩ (by simp) hrun).mpr
    (Lts.throughout_of_check (by decide))⟩

/-- After the run `sharedDestination`, the second route is active, but the kernel has none. -/
theorem not_mirrors_sharedDestination :
    (¬ ∀ (k : Kernel) (client : NetlinkClient) (fib : Fib) (calls : List Call) (s : Calls),
      (∀ r ∈ fib.routes, r.protocol ≠ metalbondRtProto) → (lts k client fib).Run calls s →
      Mirrors k client s) ∧
    ∃ s, (lts linux table100 ⟨[], .nil⟩).Run sharedDestination s ∧
      (⟨100⟩, makeDest6 0 64, makeHop 2) ∈ s.active ∧ s.fib.routes = [] := by
  have hrun : (lts linux table100 ⟨[], .nil⟩).Run sharedDestination _ :=
    Lts.Run.of_exec (by decide)
  refine ⟨?_, _, hrun, by decide, by decide⟩
  intro h
  have hactive : (⟨100⟩, makeDest6 0 64, makeHop 2) ∈
      (((lts linux table100 ⟨[], .nil⟩).exec sharedDestination).get (by decide)).active := by decide
  have hmirrors := h linux table100 ⟨[], .nil⟩ sharedDestination _ (by simp) hrun
  obtain ⟨r, hr, -⟩ := (hmirrors.installed_iff 100 (makeDest6 0 64).ipPrefix).mpr
    ⟨_, hactive, ⟨by decide, by decide⟩⟩
  have hnone : (((lts linux table100 ⟨[], .nil⟩).exec sharedDestination).get
      (by decide)).fib.routes = [] := by decide
  rw [hnone] at hr
  cases hr

end Calls

end RustBond.Netlink
