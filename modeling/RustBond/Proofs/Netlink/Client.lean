import RustBond.Proofs.Netlink.Tables

/-!
# `RustBond.Proofs.Netlink.Client`: what a call does to the routes of the kernel

One lemma for each call. `addRoute_eq_ok`: the kernel has one route more, for the table that it
takes for the one of the VNI, and the destination as it stores it. `removeRoute_eq`: the first
route that the call hits is gone (`hits_iff`). The table is that of the VNI or one that is taken
for it, and the destination is as the caller has it, not as the kernel stores it. For a VNI with
table 0 a removal hits nothing: the kernel has its routes in the main table, and a dump says so
(`table_ne_zero_of_hits`).
-/

set_option autoImplicit false

namespace RustBond.Netlink

/-- The kernel stores the destination as it is, and shows it in a dump. -/
def Kernel.Shows (k : Kernel) (net : IpNet) : Prop :=
  k.stores net = some net ∧ k.dumpsDest net = true

instance (k : Kernel) (net : IpNet) : Decidable (k.Shows net) := inferInstanceAs (Decidable (_ ∧ _))

namespace NetlinkClient

variable {k : Kernel} {client : NetlinkClient} {vni : Vni} {dest : Destination} {nextHop : NextHop}
  {table : UInt32} {net : IpNet} {place : Nat} {fib fib' : Fib} {r : KernelRoute}

/-- The gateway of a new route. -/
def gateway (net : IpNet) (nextHop : NextHop) : Option Ipv6Addr :=
  match net with
  | .v4 _ => none
  | .v6 _ => some nextHop.targetAddress

/-- The route that `add_route` asks for, with the destination that the kernel stores. -/
def newRoute (client : NetlinkClient) (table : UInt32) (net stored : IpNet) (nextHop : NextHop) :
    KernelRoute where
  table := kernelTable table
  protocol := metalbondRtProto
  dest := stored
  tos := 0
  priority := defaultPriority stored
  gateway := gateway net nextHop
  outputInterface := some client.linkIndex

/-- The request of `add_route`. -/
def request (client : NetlinkClient) (table : UInt32) (net : IpNet) (nextHop : NextHop) :
    RouteMessage :=
  match net with
  | .v4 net => client.requestV4 net.addr net.prefixLen table
  | .v6 net => client.requestV6 net.addr net.prefixLen nextHop.targetAddress table

/-- A table id that does not fit in a byte goes into an attribute. -/
theorem tableId_of_large (h : 255 < table) (route : RouteMessage) :
    route.tableId table = route.push (.table table) := if_pos h

/-- A table id that fits in a byte goes into the header. -/
theorem tableId_of_byte (h : ¬ 255 < table) (route : RouteMessage) :
    route.tableId table = { route with header.table := table.toUInt8 } := if_neg h

/-- The kernel reads the destination of the caller in the request. -/
theorem dest_request : (client.request table net nextHop).dest = some net := by
  cases net with
  | v4 net =>
    suffices h : (client.request table (.v4 net) nextHop).dest
        = IpNet.new (.v4 net.addr) net.prefixLen from h.trans (dif_pos net.prefixLen_le)
    rw [request, requestV4]
    by_cases hlarge : 255 < table
    · rw [tableId_of_large hlarge]; rfl
    · rw [tableId_of_byte hlarge]; rfl
  | v6 net =>
    suffices h : (client.request table (.v6 net) nextHop).dest
        = IpNet.new (.v6 net.addr) net.prefixLen from h.trans (dif_pos net.prefixLen_le)
    rw [request, requestV6]
    by_cases hlarge : 255 < table
    · rw [tableId_of_large hlarge]; rfl
    · rw [tableId_of_byte hlarge]; rfl

/-- The kernel reads the table of the VNI in it, whether or not the id is a byte. The request has
neither a type of service nor a priority. -/
theorem toRoute_request (stored : IpNet) :
    (client.request table net nextHop).toRoute stored =
      client.newRoute table net stored nextHop := by
  by_cases hlarge : 255 < table
  · cases net with
    | v4 net => rw [request, requestV4, tableId_of_large hlarge]; rfl
    | v6 net => rw [request, requestV6, tableId_of_large hlarge]; rfl
  · have hbyte : table.toUInt8.toUInt32 = table := by
      rw [UInt32.lt_iff_toNat_lt] at hlarge
      have hle : table.toNat ≤ 255 := Nat.not_lt.mp hlarge
      rw [← UInt32.toNat_inj, UInt8.toNat_toUInt32, UInt32.toNat_toUInt8]
      omega
    suffices h : (client.request table net nextHop).toRoute stored =
        { client.newRoute table net stored nextHop with
          table := kernelTable table.toUInt8.toUInt32 } by
      rw [h, hbyte]
      rfl
    cases net with
    | v4 net => rw [request, requestV4, tableId_of_byte hlarge]; rfl
    | v6 net => rw [request, requestV6, tableId_of_byte hlarge]; rfl

/-- With a table for the VNI, the call is the request. -/
theorem addRoute_eq_newRoute (k : Kernel) (dest : Destination) (nextHop : NextHop) (place : Nat)
    (fib : Fib) (hmap : client.config.vniTableMap.lookup vni = some table) :
    ∃ text : Errno → Error, client.addRoute k vni dest nextHop place fib =
      (k.newRoute fib place (client.request table dest.ipPrefix nextHop)).mapError text := by
  have htable : client.table vni = .ok table := by rw [NetlinkClient.table, hmap]
  rw [addRoute, htable]
  cases hnet : dest.ipPrefix with
  | v4 net => exact ⟨_, rfl⟩
  | v6 net => exact ⟨_, rfl⟩

/-- An addition succeeds if the kernel stores the destination, and no route of the table keeps the
new one out. It adds the route to the others. -/
theorem addRoute_eq_ok (hmap : client.config.vniTableMap.lookup vni = some table) :
    client.addRoute k vni dest nextHop place fib = .ok fib' ↔
      ∃ stored, k.stores dest.ipPrefix = some stored ∧
        ∃ h : fib.occupied (client.newRoute table dest.ipPrefix stored nextHop) = false,
          fib' = fib.insert place (client.newRoute table dest.ipPrefix stored nextHop) h := by
  obtain ⟨text, hcall⟩ := addRoute_eq_newRoute k dest nextHop place fib hmap
  rw [hcall, Kernel.newRoute, dest_request, Option.bind_some]
  cases hstored : k.stores dest.ipPrefix with
  | none => simp [Except.mapError]
  | some stored =>
    simp only [toRoute_request]
    by_cases hfree : fib.occupied (client.newRoute table dest.ipPrefix stored nextHop) = false
    · rw [dif_pos hfree]
      constructor
      · intro h
        cases h
        exact ⟨stored, rfl, hfree, rfl⟩
      · rintro ⟨_, hsome, _, rfl⟩
        cases hsome
        rfl
    · rw [dif_neg hfree]
      refine iff_of_false (fun h => by cases h) ?_
      rintro ⟨_, hsome, h, -⟩
      cases hsome
      exact hfree h

/-- An inserted route is added to the table, wherever it is put. -/
theorem mem_insert {new : KernelRoute} (hfree : fib.occupied new = false) :
    r ∈ (fib.insert place new hfree).routes ↔ r = new ∨ r ∈ fib.routes := by
  show r ∈ fib.routes.take place ++ new :: fib.routes.drop place ↔ _
  have hsplit := List.mem_append (a := r) (s := fib.routes.take place)
    (t := fib.routes.drop place)
  rw [List.take_append_drop] at hsplit
  rw [List.mem_append, List.mem_cons, or_left_comm, ← hsplit]

/-! ### Removals -/

/-- A removal takes this route for its own. -/
def hits (k : Kernel) (table : UInt32) (net : IpNet) (r : KernelRoute) : Bool :=
  (k.message r).header.addressFamily == familyOf net &&
    (matchesTable table (k.message r) && matchesProtocol (k.message r) &&
      matchesDest (addressOf net) net.prefixLen (k.message r))

/-- The route of the kernel that a removal finds. -/
def findDest (k : Kernel) (table : UInt32) (net : IpNet) (fib : Fib) : Option RouteMessage :=
  findRoute (addressOf net) net.prefixLen table (k.dump fib (familyOf net))

/-- The find over the listed messages is a find in the kernel's own table, for the routes that the
client takes for its own. -/
theorem findDest_eq (k : Kernel) (table : UInt32) (net : IpNet) (fib : Fib) :
    findDest k table net fib = (fib.routes.find? (hits k table net)).map k.message := by
  rw [findDest, findRoute, Kernel.dump, List.find?_filter, List.find?_map]
  refine congrArg (fun p => (fib.routes.find? p).map k.message) (funext fun r => ?_)
  show decide (_ ∧ _) = (_ && _)
  rw [Bool.decide_and, Bool.decide_eq_true, Bool.decide_eq_true]

/-- The destination is there as the caller has it, and the kernel shows it. -/
theorem matchesDest_message :
    matchesDest (addressOf net) net.prefixLen (k.message r) = true ↔
      r.dest = net ∧ k.dumpsDest net = true := by
  have hattr : (k.message r).attributes.any (· == .destination (addressOf net)) = true ↔
      k.dumpsDest r.dest = true ∧ addressOf net = addressOf r.dest := by
    cases hdumps : k.dumpsDest r.dest with
    | true => simpa [Kernel.message, hdumps] using eq_comm
    | false => simp [Kernel.message, hdumps]
  rw [matchesDest, Bool.and_eq_true, hattr, beq_iff_eq]
  constructor
  · rintro ⟨⟨hdumps, haddr⟩, hlen⟩
    have hdest : r.dest = net := eq_of_addressOf haddr.symm hlen
    exact ⟨hdest, hdest ▸ hdumps⟩
  · rintro ⟨hdest, hdumps⟩
    exact ⟨⟨hdest ▸ hdumps, by rw [hdest]⟩, by rw [← hdest]; rfl⟩

/-- A removal hits a MetalBond route in the table, or in one that is taken for it, whose
destination is that of the caller, if the kernel shows it. -/
theorem hits_iff : hits k table net r = true ↔
    (r.table = table ∨ Aliases table r.table) ∧ r.protocol = metalbondRtProto ∧ r.dest = net ∧
      k.dumpsDest net = true := by
  rw [hits, Bool.and_eq_true, Bool.and_eq_true, Bool.and_eq_true, matchesDest_message,
    matchesTable_iff (fromKernel_message k r), realTable_message, beq_iff_eq, matchesProtocol,
    beq_iff_eq]
  constructor
  · rintro ⟨-, ⟨htable, hprotocol⟩, hdest⟩
    exact ⟨htable, hprotocol, hdest⟩
  · rintro ⟨htable, hprotocol, hdest, hdumps⟩
    exact ⟨congrArg familyOf hdest, ⟨htable, hprotocol⟩, hdest, hdumps⟩

/-- The kernel keeps the id of a table, if it is not `RT_TABLE_UNSPEC`. -/
theorem kernelTable_eq_self_iff : kernelTable table = table ↔ table ≠ 0 := by
  unfold kernelTable
  split
  · rename_i hzero
    rw [hzero]
    decide
  · rename_i hne
    exact iff_of_true rfl hne

/-- Whatever the id in the request is, the route is not in a table with the id 0. -/
theorem kernelTable_ne_zero (table : UInt32) : kernelTable table ≠ 0 := by
  unfold kernelTable
  split
  · decide
  · rename_i hne
    exact hne

/-- A removal for table 0 hits no route of another one: no other table is taken for it. -/
theorem table_ne_zero_of_hits (hhit : hits k table net r = true) (hr : r.table ≠ 0) :
    table ≠ 0 := by
  rintro rfl
  obtain ⟨htable, -⟩ := hits_iff.mp hhit
  rcases htable with hzero | ⟨-, ⟨-, hbyte⟩ | ⟨-, hcompat⟩⟩
  · exact hr hzero
  · exact hr (UInt32.toNat_inj.mp hbyte)
  · cases hcompat

/-- Routes with one message are hit together. -/
theorem hits_congr {r' : KernelRoute} (h : k.message r = k.message r') :
    hits k table net r = hits k table net r' := by
  rw [hits, hits, h]

/-- What is found and what is erased is the same element. -/
theorem eraseP_of_find? {α : Type} {p : α → Bool} {a : α} {l : List α} (h : l.find? p = some a) :
    p a = true ∧ ∃ before after, l = before ++ a :: after ∧ (∀ b ∈ before, ¬ p b = true) ∧
      l.eraseP p = before ++ after := by
  obtain ⟨ha, before, after, rfl, hbefore⟩ := List.find?_eq_some_iff_append.mp h
  have hmiss : ∀ b ∈ before, ¬ p b = true := by
    intro b hb hpb
    have hnot := hbefore b hb
    rw [hpb] at hnot
    cases hnot
  exact ⟨ha, before, after, rfl, hmiss, by
    rw [List.eraseP_append_right _ hmiss, List.eraseP_cons_of_pos ha]⟩

/-- The first route that is hit is the first one with its message. -/
theorem eraseP_message {found : KernelRoute} {routes : List KernelRoute}
    (hfound : routes.find? (hits k table net) = some found) :
    routes.eraseP (fun r => k.message r == k.message found) =
      routes.eraseP (hits k table net) := by
  obtain ⟨hhit, before, after, hroutes, hmiss, herase⟩ := eraseP_of_find? hfound
  have hother : ∀ r ∈ before, ¬ (k.message r == k.message found) = true := by
    intro r hr heq
    exact hmiss r hr ((hits_congr (beq_iff_eq.mp heq)).trans hhit)
  rw [herase, hroutes, List.eraseP_append_right _ hother]
  exact congrArg (before ++ ·) (List.eraseP_cons_of_pos (beq_self_eq_true (k.message found)))

/-- Erasing what is not there changes nothing. -/
theorem erase_of_find?_eq_none {p : KernelRoute → Bool} (h : fib.routes.find? p = none) :
    fib.erase p = fib := by
  have hroutes : fib.routes.eraseP p = fib.routes :=
    List.eraseP_of_forall_not fun r hr hp => List.find?_eq_none.mp h r hr hp
  obtain ⟨routes, hunique⟩ := fib
  simp only [Fib.erase, Fib.mk.injEq]
  exact hroutes

/-- `remove_route` always returns `Ok`. It deletes the first route that it takes for its own, if
there is one. -/
theorem removeFound_eq (net : IpNet) (shown : String) :
    removeFound k (familyOf net) (addressOf net) shown net.prefixLen table fib =
      .ok (fib.erase (hits k table net)) := by
  have hfind := findDest_eq k table net fib
  rw [findDest] at hfind
  rw [removeFound, hfind]
  cases hfound : fib.routes.find? (hits k table net) with
  | none =>
    rw [erase_of_find?_eq_none hfound]
    rfl
  | some found =>
    have hany : fib.routes.any (fun r => k.message r == k.message found) = true :=
      List.any_eq_true.mpr ⟨found, List.mem_of_find?_eq_some hfound, beq_self_eq_true _⟩
    have herase : fib.erase (fun r => k.message r == k.message found) =
        fib.erase (hits k table net) := by
      simp only [Fib.erase, Fib.mk.injEq]
      exact eraseP_message hfound
    show (k.delRoute fib (k.message found)).mapError _ = _
    rw [Kernel.delRoute, if_pos hany, herase]
    rfl

/-- A removal succeeds, whether or not there is a route that it hits. -/
theorem removeRoute_eq (hmap : client.config.vniTableMap.lookup vni = some table) :
    client.removeRoute k vni dest nextHop fib = .ok (fib.erase (hits k table dest.ipPrefix)) := by
  have htable : client.table vni = .ok table := by rw [NetlinkClient.table, hmap]
  rw [removeRoute, htable]
  cases hnet : dest.ipPrefix with
  | v4 net => exact removeFound_eq (.v4 net) net.addr.display
  | v6 net => exact removeFound_eq (.v6 net) net.addr.display

/-- A client with VNI 100 in table 100. -/
def table100 : NetlinkClient := ⟨⟨Finmap.singleton ⟨100⟩ 100⟩, 7⟩

/-- The prefix `2001:db8::n/len`. -/
def makeDest6 (n len : UInt8) (h : len ≤ 128 := by decide) : Destination :=
  ⟨.v6 ⟨(makeHop n).targetAddress, len, h⟩⟩

end NetlinkClient

end RustBond.Netlink
