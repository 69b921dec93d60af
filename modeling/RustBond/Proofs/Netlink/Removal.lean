import RustBond.Proofs.Netlink.Client

/-!
# `RustBond.Proofs.Netlink.Removal`: removing what was added

A removal looks for the table and the destination of the caller. So they have to be what a dump
shows of the route that was added. The kernel takes the main table for table 0, cuts the host bits
of an IPv6 prefix off, and does not show a prefix of length zero. `undone_iff` shows that these are
the cases in which an addition that succeeds cannot be undone. Then the route stays, and the caller
gets no error.
-/

set_option autoImplicit false

namespace RustBond.Netlink.NetlinkClient

/-- If the addition succeeds, then the removal finds the new route, and leaves the routes that were
there before. -/
def Undone (k : Kernel) (client : NetlinkClient) (vni : Vni) (dest : Destination)
    (nextHop : NextHop) (place : Nat) (fib : Fib) (table : UInt32) : Prop :=
  ∀ fib', client.addRoute k vni dest nextHop place fib = .ok fib' →
    (∃ r ∈ fib'.routes, r ∉ fib.routes ∧
      findDest k table dest.ipPrefix fib' = some (k.message r)) ∧
    client.removeRoute k vni dest nextHop fib' = .ok fib

/-- The kernel refuses the addition: it does not store the destination, or a route that is there
keeps the new one out. -/
def Refused (k : Kernel) (client : NetlinkClient) (dest : Destination) (nextHop : NextHop)
    (fib : Fib) (table : UInt32) : Prop :=
  ∀ stored ∈ k.stores dest.ipPrefix,
    fib.occupied (client.newRoute table dest.ipPrefix stored nextHop) = true

/-- A table and a prefix that `linux` shows as they are. -/
def Removable (table : UInt32) (net : IpNet) : Prop :=
  table ≠ 0 ∧ net.prefixLen ≠ 0 ∧ IpNet.trunc net = net

instance (table : UInt32) (net : IpNet) : Decidable (Removable table net) :=
  inferInstanceAs (Decidable (_ ∧ _))

variable {k : Kernel} {client : NetlinkClient} {vni : Vni} {dest : Destination} {nextHop : NextHop}
  {table : UInt32} {net stored : IpNet} {place : Nat} {fib : Fib} {r : KernelRoute}

/-- No other table is taken for one whose id is below 252. -/
theorem not_aliases (htable : table < 252) (real : UInt32) : ¬ Aliases table real := by
  rw [UInt32.lt_iff_toNat_lt] at htable
  have hlt : table.toNat < 252 := htable
  rintro ⟨hne, ⟨-, hbyte⟩ | ⟨-, hcompat⟩⟩
  · rw [Nat.mod_eq_of_lt (by omega)] at hbyte
    exact hne (UInt32.toNat_inj.mp hbyte)
  · omega

/-- A new route is hit exactly if the kernel stores it in the table and with the destination that
the caller has, and shows it. -/
theorem hits_newRoute : hits k table net (client.newRoute table net stored nextHop) = true ↔
    table ≠ 0 ∧ stored = net ∧ k.dumpsDest net = true := by
  constructor
  · intro hhit
    obtain ⟨-, -, hdest, hdumps⟩ := hits_iff.mp hhit
    exact ⟨table_ne_zero_of_hits hhit (kernelTable_ne_zero table), hdest, hdumps⟩
  · rintro ⟨hne, hdest, hdumps⟩
    exact hits_iff.mpr ⟨Or.inl (kernelTable_eq_self_iff.mpr hne), rfl, hdest, hdumps⟩

/-- Where no route is hit, the removal takes away a new route that is, and nothing else. -/
theorem erase_insert (hmiss : ∀ r ∈ fib.routes, hits k table net r = false)
    (hfree : fib.occupied r = false) :
    (fib.insert place r hfree).erase (hits k table net) = fib ↔ hits k table net r = true := by
  constructor
  · intro hsame
    by_contra hnot
    -- Nothing is hit, so the new route is still there.
    have hkept : (fib.insert place r hfree).erase (hits k table net) =
        fib.insert place r hfree := by
      refine erase_of_find?_eq_none (List.find?_eq_none.mpr fun r' hr' => ?_)
      rcases (mem_insert hfree).mp hr' with rfl | hr'
      · exact hnot
      · rw [hmiss r' hr']
        exact Bool.false_ne_true
    have hnew : r ∈ (fib.insert place r hfree).routes := (mem_insert hfree).mpr (Or.inl rfl)
    rw [← hkept, hsame] at hnew
    exact Fib.free_of_occupied hfree r hnew rfl ⟨rfl, rfl⟩
  · intro hhit
    have hbefore : ∀ r ∈ fib.routes.take place, ¬ hits k table net r = true := by
      intro r hr
      rw [hmiss r (List.mem_of_mem_take hr)]
      exact Bool.false_ne_true
    obtain ⟨routes, hunique⟩ := fib
    simp only [Fib.erase, Fib.insert, Fib.mk.injEq]
    rw [List.eraseP_append_right _ hbefore, List.eraseP_cons_of_pos hhit, List.take_append_drop]

/-- The new route is found if it is hit. -/
theorem find_insert (hmiss : ∀ r ∈ fib.routes, hits k table net r = false)
    (hfree : fib.occupied r = false) (hhit : hits k table net r = true) :
    findDest k table net (fib.insert place r hfree) = some (k.message r) := by
  rw [findDest_eq, Option.map_eq_some_iff]
  refine ⟨r, List.find?_eq_some_iff_append.mpr
    ⟨hhit, fib.routes.take place, fib.routes.drop place, rfl, ?_⟩, rfl⟩
  intro r' hr'
  rw [hmiss r' (List.mem_of_mem_take hr')]
  rfl

/-- Where no route is hit, an addition can be undone if it is refused, or if the kernel stores the
table and the destination as they are, and shows them. -/
theorem undone_iff_shows (hmap : client.config.vniTableMap.lookup vni = some table)
    (hmiss : ∀ r ∈ fib.routes, hits k table dest.ipPrefix r = false) :
    Undone k client vni dest nextHop place fib table ↔
      Refused k client dest nextHop fib table ∨ table ≠ 0 ∧ k.Shows dest.ipPrefix := by
  constructor
  · intro h
    by_cases hrefused : Refused k client dest nextHop fib table
    · exact Or.inl hrefused
    · obtain ⟨stored, hstored, hfree⟩ : ∃ stored ∈ k.stores dest.ipPrefix,
          fib.occupied (client.newRoute table dest.ipPrefix stored nextHop) = false := by
        simpa [Refused] using hrefused
      -- The addition succeeds, so the removal has to hit the new route.
      obtain ⟨-, hremove⟩ := h _ ((addRoute_eq_ok hmap).mpr ⟨stored, hstored, hfree, rfl⟩)
      rw [removeRoute_eq hmap] at hremove
      obtain ⟨hne, hsame, hdumps⟩ :=
        hits_newRoute.mp ((erase_insert hmiss hfree).mp (Except.ok.inj hremove))
      exact Or.inr ⟨hne, hsame ▸ hstored, hdumps⟩
  · intro h fib' hadd
    obtain ⟨stored, hstored, hfree, rfl⟩ := (addRoute_eq_ok hmap).mp hadd
    rcases h with hrefused | ⟨hne, hsame, hdumps⟩
    · rw [hrefused stored hstored] at hfree
      cases hfree
    · have hhit : hits k table dest.ipPrefix
          (client.newRoute table dest.ipPrefix stored nextHop) = true :=
        hits_newRoute.mpr ⟨hne, Option.some.inj (hstored.symm.trans hsame), hdumps⟩
      refine ⟨⟨client.newRoute table dest.ipPrefix stored nextHop, by simp [Fib.insert], ?_,
        find_insert hmiss hfree hhit⟩, ?_⟩
      · intro hold
        rw [hmiss _ hold] at hhit
        cases hhit
      · rw [removeRoute_eq hmap, (erase_insert hmiss hfree).mpr hhit]

/-- What `linux` stores and shows as it is: a prefix without host bits whose length is not zero. -/
theorem shows_linux_iff : linux.Shows net ↔ net.prefixLen ≠ 0 ∧ IpNet.trunc net = net := by
  have hshown : linux.dumpsDest net = true ↔ net.prefixLen ≠ 0 := bne_iff_ne
  rw [Kernel.Shows, hshown, and_comm]
  refine and_congr_right fun _ => ?_
  cases net with
  | v4 net =>
    show (if IpNet.trunc (.v4 net) = .v4 net then some (IpNet.v4 net) else none) = _ ↔ _
    exact ⟨fun h => (Option.ite_none_right_eq_some.mp h).1, fun h => if_pos h⟩
  | v6 net => exact Option.some_inj

/-- **Removing what was added.** Let a VNI have a table below 252 without a MetalBond route for the
prefix. An addition can be undone if and only if the kernel refuses it, or the table is not 0 and
the prefix has no host bits and not length zero. -/
theorem undone_iff (client : NetlinkClient) (vni : Vni) (dest : Destination) (nextHop : NextHop)
    (place : Nat) (fib : Fib) (table : UInt32)
    (hmap : client.config.vniTableMap.lookup vni = some table) (htable : table < 252)
    (hnone : ∀ r ∈ fib.routes, r.protocol = metalbondRtProto → r.table = table →
      IpNet.trunc r.dest ≠ IpNet.trunc dest.ipPrefix) :
    Undone linux client vni dest nextHop place fib table ↔
      Refused linux client dest nextHop fib table ∨ Removable table dest.ipPrefix := by
  rw [Removable, ← shows_linux_iff]
  refine undone_iff_shows hmap ?_
  intro r hr
  rw [← Bool.not_eq_true, hits_iff]
  rintro ⟨hmatches, hprotocol, hdest, -⟩
  refine hnone r hr hprotocol (hmatches.resolve_right (not_aliases htable _)) ?_
  rw [hdest]

/-- The condition on an IPv6 network in an ordinary table. -/
theorem undone_subnet :
    Undone linux table100 ⟨100⟩ (makeDest6 0 64) (makeHop 1) 0 ⟨[], .nil⟩ 100 :=
  (undone_iff table100 ⟨100⟩ (makeDest6 0 64) (makeHop 1) 0 ⟨[], .nil⟩ 100 (by decide) (by decide)
    (by simp)).mpr (Or.inr (by decide))

/-- A client with VNI 100 in table 0. -/
def table0 : NetlinkClient := ⟨⟨Finmap.singleton ⟨100⟩ 0⟩, 7⟩

/-- The routes to `2001:db8::1/64` and to `0.0.0.0/0` are added, but not removed. Nor is the route
to `2001:db8::/64` for table 0. -/
theorem not_undone :
    (¬ ∀ (client : NetlinkClient) (vni : Vni) (dest : Destination) (nextHop : NextHop)
      (place : Nat) (fib : Fib) (table : UInt32),
      client.config.vniTableMap.lookup vni = some table → table < 252 →
      (∀ r ∈ fib.routes, r.protocol = metalbondRtProto → r.table = table →
        IpNet.trunc r.dest ≠ IpNet.trunc dest.ipPrefix) →
      Undone linux client vni dest nextHop place fib table) ∧
    ¬ Undone linux table100 ⟨100⟩ (.fromIpv4 ⟨#v[0, 0, 0, 0]⟩ 0) (makeHop 1) 0 ⟨[], .nil⟩ 100 ∧
    ¬ Undone linux table0 ⟨100⟩ (makeDest6 0 64) (makeHop 1) 0 ⟨[], .nil⟩ 0 := by
  -- Without a route in the kernel, what is stored is not refused.
  have hundone : ∀ {client table dest stored}, linux.stores dest.ipPrefix = some stored →
      client.config.vniTableMap.lookup ⟨100⟩ = some table →
      Undone linux client ⟨100⟩ dest (makeHop 1) 0 ⟨[], .nil⟩ table →
      Removable table dest.ipPrefix := by
    intro client table dest stored hstored hmap h
    rcases (undone_iff_shows hmap (by simp)).mp h with hrefused | hshows
    · cases hrefused stored hstored
    · exact ⟨hshows.1, shows_linux_iff.mp hshows.2⟩
  refine ⟨?_, ?_, ?_⟩
  · intro h
    have hremovable := hundone (by rfl) (by decide) (h table100 ⟨100⟩ (makeDest6 1 64) (makeHop 1) 0
      ⟨[], .nil⟩ 100 (by decide) (by decide) (by simp))
    exact absurd hremovable (by decide)
  · intro h
    have hstored : linux.stores (.v4 ⟨⟨#v[0, 0, 0, 0]⟩, 0, by decide⟩) =
        some (.v4 ⟨⟨#v[0, 0, 0, 0]⟩, 0, by decide⟩) := by decide
    exact absurd (hundone hstored (by decide) h) (by decide)
  · intro h
    exact absurd (hundone (by rfl) (by decide) h) (by decide)

end RustBond.Netlink.NetlinkClient
