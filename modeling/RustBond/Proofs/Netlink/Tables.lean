import RustBond.Netlink.Client

/-!
# `RustBond.Proofs.Netlink.Tables`: routes in other tables

A route in a dump is taken for one of the table `id` if its attribute says so, or if the byte in
its header is the last byte of `id`. So there are other tables with a match (`Aliases`): the one
whose id is the last byte of `id`, and if this byte is `RT_TABLE_COMPAT`, all whose id is not a
byte (`matchesTable_iff`).

`staysInside_iff` shows what follows. The cleanup of a table and the removal of a route stay in
the table if and only if there is no MetalBond route in another one with a match. But nothing is
missed: the cleanup at the start leaves no MetalBond route in the tables of the VNIs
(`cleanupStaleRoutes_clears`).
-/

set_option autoImplicit false

namespace RustBond.Netlink

/-- A message as the kernel makes it: the byte in the header and the attribute belong to one
table. -/
structure FromKernel (route : RouteMessage) : Prop where
  header_eq : route.header.table =
    if route.realTable < 256 then route.realTable.toUInt8 else rtTableCompat
  attribute_eq : ∀ id, .table id ∈ route.attributes → id = route.realTable

/-- The table `real` is another one than `id`, but its routes look like routes of `id`. -/
def Aliases (id real : UInt32) : Prop :=
  real ≠ id ∧ (real < 256 ∧ real.toNat = id.toNat % 256 ∨ 256 ≤ real ∧ id.toNat % 256 = 252)

instance (id real : UInt32) : Decidable (Aliases id real) := inferInstanceAs (Decidable (_ ∧ _))

/-- What is deleted for a table is in the table. -/
structure StaysInside (table : UInt32) (routes : List RouteMessage) : Prop where
  cleanup : toDelete table routes =
    routes.filter fun route => route.realTable == table && matchesProtocol route
  remove : ∀ dest prefixLen route,
    findRoute dest prefixLen table routes = some route → route.realTable = table

variable {table id real : UInt32} {route : RouteMessage} {routes : List RouteMessage}

/-- A byte is the table id cut to 8 bits exactly if it is the id modulo 256. -/
theorem toUInt8_eq_iff {b : UInt8} : b = id.toUInt8 ↔ b.toNat = id.toNat % 256 := by
  rw [← UInt8.toNat_inj, UInt32.toNat_toUInt8]

/-- The byte of a table in the header. -/
theorem compat_eq_iff :
    (if real < 256 then real.toUInt8 else rtTableCompat) = id.toUInt8 ↔
      (real < 256 ∧ real.toNat = id.toNat % 256) ∨ (256 ≤ real ∧ id.toNat % 256 = 252) := by
  rw [toUInt8_eq_iff]
  split
  · rename_i hbyte
    have hlt : real.toNat < 256 := UInt32.lt_iff_toNat_lt.mp hbyte
    rw [UInt32.toNat_toUInt8, Nat.mod_eq_of_lt hlt]
    constructor
    · exact fun h => Or.inl ⟨hbyte, h⟩
    · rintro (⟨-, h⟩ | ⟨hle, -⟩)
      · exact h
      · exact absurd hbyte (UInt32.not_lt.mpr hle)
  · rename_i hlarge
    constructor
    · exact fun h => Or.inr ⟨UInt32.not_lt.mp hlarge, h.symm⟩
    · rintro (⟨hbyte, -⟩ | ⟨-, h⟩)
      · exact absurd hbyte hlarge
      · exact h.symm

/-- An id that is not a byte is the one of an attribute. -/
theorem table_mem_attributes (h : 256 ≤ route.realTable) :
    .table route.realTable ∈ route.attributes := by
  unfold RouteMessage.realTable at h ⊢
  cases hattr : route.attributes.findSome? RouteAttribute.tableId with
  | none =>
    rw [hattr] at h
    have hlt : route.header.table.toUInt32 < 256 := by
      rw [UInt32.lt_iff_toNat_lt, UInt8.toNat_toUInt32]
      exact route.header.table.toNat_lt
    exact absurd hlt (UInt32.not_lt.mpr h)
  | some t =>
    obtain ⟨attr, hmem, hsome⟩ := List.exists_of_findSome?_eq_some hattr
    cases attr with
    | table t' => cases hsome; exact hmem
    | _ => cases hsome

/-- The comparison of the source: the table is the real one, or another with the same byte. -/
theorem matchesTable_iff (h : FromKernel route) :
    matchesTable table route = true ↔ route.realTable = table ∨ Aliases table route.realTable := by
  have hheader : (route.header.table == table.toUInt8) = true ↔
      (route.realTable < 256 ∧ route.realTable.toNat = table.toNat % 256) ∨
        (256 ≤ route.realTable ∧ table.toNat % 256 = 252) := by
    rw [beq_iff_eq, h.header_eq, compat_eq_iff]
  unfold matchesTable
  rw [Bool.or_eq_true, hheader]
  constructor
  · rintro (hbyte | hattr)
    · by_cases hreal : route.realTable = table
      · exact Or.inl hreal
      · exact Or.inr ⟨hreal, hbyte⟩
    · obtain ⟨attr, hmem, heq⟩ := List.any_eq_true.mp hattr
      rw [beq_iff_eq] at heq
      exact Or.inl (h.attribute_eq table (heq ▸ hmem)).symm
  · rintro (hreal | halias)
    · by_cases hbyte : route.realTable < 256
      · refine Or.inl (Or.inl ⟨hbyte, ?_⟩)
        have hlt : route.realTable.toNat < 256 := UInt32.lt_iff_toNat_lt.mp hbyte
        rw [← hreal, Nat.mod_eq_of_lt hlt]
      · refine Or.inr (List.any_eq_true.mpr ⟨_, table_mem_attributes (UInt32.not_lt.mp hbyte), ?_⟩)
        rw [hreal, beq_self_eq_true]
    · exact Or.inl halias.2

/-- What is deleted for a table is every listed route that has its table byte and the protocol of
MetalBond. -/
theorem mem_toDelete : route ∈ toDelete table routes ↔
    route ∈ routes ∧ matchesTable table route = true ∧ matchesProtocol route = true := by
  rw [toDelete, List.mem_filter, Bool.and_eq_true]

/-- The route that `remove_route` finds is a listed one with the table byte, the protocol and the
destination. -/
theorem findRoute_eq_some {dest : RouteAddress} {prefixLen : UInt8}
    (h : findRoute dest prefixLen table routes = some route) :
    route ∈ routes ∧ matchesTable table route = true ∧ matchesProtocol route = true ∧
      matchesDest dest prefixLen route = true := by
  have hmatches := List.find?_some h
  rw [Bool.and_eq_true, Bool.and_eq_true] at hmatches
  exact ⟨List.mem_of_find?_eq_some h, hmatches.1.1, hmatches.1.2, hmatches.2⟩

/-- **Routes in other tables.** For a dump of the kernel, the cleanup of a table deletes exactly
the MetalBond routes in it, and the removal of a route deletes none in another table, if and only
if no MetalBond route of the dump is in a table that is taken for it. -/
theorem staysInside_iff (table : UInt32) (routes : List RouteMessage)
    (hkernel : ∀ route ∈ routes, FromKernel route) :
    StaysInside table routes ↔
      ∀ route ∈ routes, matchesProtocol route = true → ¬ Aliases table route.realTable := by
  constructor
  · intro h route hroute hprotocol halias
    have hdeleted : route ∈ toDelete table routes := mem_toDelete.mpr
      ⟨hroute, (matchesTable_iff (hkernel route hroute)).mpr (Or.inr halias), hprotocol⟩
    rw [h.cleanup, List.mem_filter, Bool.and_eq_true, beq_iff_eq] at hdeleted
    exact halias.1 hdeleted.2.1
  · intro h
    -- Among the MetalBond routes, only those in the table match it.
    have htable : ∀ route ∈ routes, matchesProtocol route = true →
        (matchesTable table route = true ↔ route.realTable = table) := by
      intro route hroute hprotocol
      rw [matchesTable_iff (hkernel route hroute), or_iff_left (h route hroute hprotocol)]
    refine ⟨List.filter_congr fun route hroute => ?_, ?_⟩
    · rw [Bool.eq_iff_iff, Bool.and_eq_true, Bool.and_eq_true, beq_iff_eq]
      exact and_congr_left (htable route hroute)
    · intro dest prefixLen route hfound
      obtain ⟨hroute, hmatches, hprotocol, -⟩ := findRoute_eq_some hfound
      exact (htable route hroute hprotocol).mp hmatches

/-! ### The routes of the kernel -/

variable (k : Kernel)

/-- The message of a stored route says which table it is stored in, in the header or in the
attribute. -/
@[simp] theorem realTable_message (route : KernelRoute) :
    (k.message route).realTable = route.table := rfl

/-- What the kernel writes about the table in a message is consistent: the attribute is its id, and
none of the others says anything about it. -/
theorem fromKernel_message (route : KernelRoute) : FromKernel (k.message route) := by
  refine ⟨rfl, ?_⟩
  intro id hmem
  rcases List.mem_cons.mp hmem with heq | hmem
  · cases heq
    rfl
  · simp only [List.mem_append] at hmem
    rcases hmem with ((hmem | hmem) | hmem) | hmem
    · split at hmem
      · cases List.mem_singleton.mp hmem
      · cases hmem
    · split at hmem
      · cases hmem
      · cases List.mem_singleton.mp hmem
    · simp at hmem
    · simp at hmem

/-- Every listed route is one that the kernel writes. -/
theorem fromKernel_dump (fib : Fib) (family : AddressFamily) :
    ∀ route ∈ k.dump fib family, FromKernel route := by
  intro route hroute
  obtain ⟨r, -, rfl⟩ := List.mem_map.mp (List.mem_filter.mp hroute).1
  exact fromKernel_message k r

/-- MetalBond routes in the tables 100 and 300, and a route of another protocol in table 100. -/
def mixedTables : Fib where
  routes :=
    [⟨100, metalbondRtProto, (makeDest 1).ipPrefix, 0, 0, none, some 7⟩,
      ⟨300, metalbondRtProto, (makeDest 1).ipPrefix, 0, 0, none, some 7⟩,
      ⟨100, rtprotStatic, (makeDest 2).ipPrefix, 0, 0, none, some 7⟩]
  unique := by decide

/-- Table 100 below 252 is safe, with a table 300 of the same low byte besides it. -/
theorem staysInside_mixedTables : StaysInside 100 (linux.dump mixedTables .inet) :=
  (staysInside_iff 100 _ (fromKernel_dump linux mixedTables .inet)).mpr (by decide)

/-- The cleanup of table 356 deletes the route in table 100, and so does the removal of a route
in table 356. That of table 252 deletes the one in table 300. -/
theorem not_staysInside :
    (¬ ∀ (table : UInt32) (routes : List RouteMessage),
      (∀ route ∈ routes, FromKernel route) → StaysInside table routes) ∧
    toDelete 356 (linux.dump mixedTables .inet) = (linux.dump mixedTables .inet).take 1 ∧
    findRoute (.inet ⟨#v[10, 0, 1, 0]⟩) 24 356 (linux.dump mixedTables .inet) =
      (linux.dump mixedTables .inet)[0]? ∧
    toDelete 252 (linux.dump mixedTables .inet) =
      ((linux.dump mixedTables .inet).drop 1).take 1 := by
  refine ⟨?_, by decide, by decide, by decide⟩
  intro h
  exact absurd (h 356 _ (fromKernel_dump linux mixedTables .inet)).cleanup (by decide)

/-! ### The cleanup of the kernel -/

namespace NetlinkClient

/-- The cleanup of a table and an address family deletes this route. -/
def cleans (table : UInt32) (family : AddressFamily) (route : KernelRoute) : Bool :=
  (k.message route).header.addressFamily == family &&
    (matchesTable table (k.message route) && matchesProtocol (k.message route))

variable {k : Kernel} {family : AddressFamily}

/-- What is deleted for a table is what the cleanup selects in the kernel. -/
theorem toDelete_dump (fib : Fib) :
    toDelete table (k.dump fib family) =
      (fib.routes.filter (cleans k table family)).map k.message := by
  rw [toDelete, Kernel.dump, List.filter_filter, List.filter_map]
  refine congrArg (List.map k.message) (List.filter_congr fun r _ => ?_)
  rw [cleans, Bool.and_comm]
  rfl

/-- The deletions of a cleanup, where the routes before `rest` have been gone through. -/
theorem routes_foldl_delRoute (rest : List KernelRoute) :
    ∀ (fib : Fib) (kept : List KernelRoute), fib.routes = kept ++ rest →
      (∀ r ∈ kept, cleans k table family r = false) →
      (((rest.filter (cleans k table family)).map k.message).foldl
          (fun fib route => ((k.delRoute fib route).toOption).getD fib) fib).routes =
        kept ++ rest.filter fun r => !cleans k table family r := by
  induction rest with
  | nil => exact fun _ _ hroutes _ => hroutes
  | cons r rest ih =>
    intro fib kept hroutes hkept
    cases hcleans : cleans k table family r with
    | false =>
      rw [List.filter_cons_of_neg (by simp [hcleans]), List.filter_cons_of_pos (by simp [hcleans])]
      have hnext := ih fib (kept ++ [r]) (by rw [hroutes, List.append_assoc]; rfl) (by
        intro r' hr'
        rcases List.mem_append.mp hr' with hr' | hr'
        · exact hkept r' hr'
        · rw [List.mem_singleton.mp hr', hcleans])
      rw [hnext, List.append_assoc]
      rfl
    | true =>
      -- No route that is kept has the message of this one, so this one is deleted.
      have hother : ∀ r' ∈ kept, ¬ (k.message r' == k.message r) = true := by
        intro r' hr' heq
        have hkeep := hkept r' hr'
        rw [cleans, beq_iff_eq.mp heq] at hkeep
        rw [cleans, hkeep] at hcleans
        cases hcleans
      have hany : fib.routes.any (fun r' => k.message r' == k.message r) = true := by
        rw [hroutes]
        exact List.any_eq_true.mpr ⟨r, by simp, beq_self_eq_true _⟩
      rw [List.filter_cons_of_pos (by simp [hcleans]), List.filter_cons_of_neg (by simp [hcleans]),
        List.map_cons, List.foldl_cons, Kernel.delRoute, if_pos hany]
      refine ih _ kept ?_ hkept
      show fib.routes.eraseP _ = kept ++ rest
      rw [hroutes, List.eraseP_append_right _ hother]
      exact congrArg (kept ++ ·) (List.eraseP_cons_of_pos (beq_self_eq_true (k.message r)))

/-- The cleanup of a table keeps the routes that it does not select, and only those. -/
theorem routes_cleanupRoutesForTable (fib : Fib) :
    (cleanupRoutesForTable k table family fib).routes =
      fib.routes.filter fun r => !cleans k table family r := by
  rw [cleanupRoutesForTable, toDelete_dump]
  exact routes_foldl_delRoute fib.routes fib [] rfl (by simp)

/-- The cleanup of a table leaves no MetalBond route of the family in it. -/
theorem cleans_of_table {r : KernelRoute} (hprotocol : r.protocol = metalbondRtProto) :
    cleans k r.table (k.message r).header.addressFamily r = true := by
  rw [cleans, beq_self_eq_true, Bool.true_and, Bool.and_eq_true]
  exact ⟨(matchesTable_iff (fromKernel_message k r)).mpr (Or.inl rfl), beq_iff_eq.mpr hprotocol⟩

/-- After the cleanup at the start, there is no MetalBond route in any of the tables. -/
theorem cleanupStaleRoutes_clears (entries : List (Vni × UInt32)) (fib : Fib) :
    ∀ r ∈ (cleanupStaleRoutes k entries fib).routes, r.protocol = metalbondRtProto →
      ∀ entry ∈ entries, r.table ≠ entry.2 := by
  induction entries using List.reverseRecOn with
  | nil => intro r _ _ entry hentry; cases hentry
  | append_singleton entries last ih =>
    intro r hr hprotocol
    rw [cleanupStaleRoutes, List.foldl_append, List.foldl_cons, List.foldl_nil,
      routes_cleanupRoutesForTable, List.mem_filter, routes_cleanupRoutesForTable,
      List.mem_filter] at hr
    obtain ⟨⟨hbefore, hinet⟩, hinet6⟩ := hr
    intro entry hentry htable
    rcases List.mem_append.mp hentry with hentry | hentry
    · exact ih r hbefore hprotocol entry hentry htable
    · -- The route is of one of the two families.
      rw [List.mem_singleton.mp hentry] at htable
      have hcleans := cleans_of_table (k := k) hprotocol
      rw [htable] at hcleans
      cases hfamily : (k.message r).header.addressFamily with
      | inet => rw [hfamily] at hcleans; rw [hcleans] at hinet; cases hinet
      | inet6 => rw [hfamily] at hcleans; rw [hcleans] at hinet6; cases hinet6

end NetlinkClient

end RustBond.Netlink
