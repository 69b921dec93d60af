import RustBond.Proofs.Proto
import RustBond.Wire.Format

/-!
# `RustBond.Proofs.Wire.Conversions`: what the conversions accept and return

A conversion from the protobuf types returns a value exactly if the narrowed fields carry it
(`Destination.tryFrom_eq_ok`, `NextHop.tryFrom_eq_ok`), and fields carry some value exactly if
they are in the ranges of the format (`documented_iff`). The other direction writes fields that
carry the value (`carries_toProto`), up to a target VNI of 0.
-/

set_option autoImplicit false

namespace RustBond

/-! ### Results -/

/-- A conversion made of two steps succeeds exactly if both do, the second on what the first
returns. With this lemma the `?` of the source is taken apart. -/
theorem bind_eq_ok {α β : Type} {x : Except Error α} {f : α → Except Error β} {b : β} :
    x >>= f = .ok b ↔ ∃ a, x = .ok a ∧ f a = .ok b := by
  cases x with
  | error e => simp [bind, Except.bind]
  | ok a => simp [bind, Except.bind]

/-- `ok_or` succeeds exactly on a value that is there. -/
@[simp] theorem okOr_eq_ok {α : Type} {e : Error} {value : Option α} {a : α} :
    okOr e value = .ok a ↔ value = some a := by
  cases value with
  | none => simp [okOr]
  | some b => simp [okOr]

/-- A result that is returned without a check is the value itself. -/
theorem pure_eq_ok {α : Type} {a b : α} : (pure a : Except Error α) = .ok b ↔ a = b :=
  Except.ok.injEq a b ▸ Iff.rfl

/-- A slice converts to an array of `n` bytes exactly if it is that array's bytes. -/
theorem tryIntoArray_eq_some {n : Nat} {bytes : List UInt8} {v : Vector UInt8 n} :
    tryIntoArray n bytes = some v ↔ v.toList = bytes := by
  unfold tryIntoArray
  constructor
  · intro h
    split at h
    · cases h
      rfl
    · cases h
  · rintro rfl
    rw [dif_pos (by simp)]
    rfl

/-- There is an array of `n` bytes for a slice exactly if the slice has `n` bytes. -/
theorem exists_toList_eq {n : Nat} {bytes : List UInt8} :
    (∃ v : Vector UInt8 n, v.toList = bytes) ↔ bytes.length = n := by
  constructor
  · rintro ⟨v, rfl⟩
    simp
  · rintro rfl
    exact ⟨⟨bytes.toArray, by simp⟩, rfl⟩

/-! ### Enumerations -/

/-- A number converts to an IP version exactly if it is the number of that version. -/
theorem Proto.IpVersion.tryFrom_eq_some {v : Int32} {version : Proto.IpVersion} :
    Proto.IpVersion.tryFrom v = some version ↔ v = version.toI32 := by
  unfold Proto.IpVersion.tryFrom Proto.IpVersion.toI32
  cases version with
  | iPv4 => grind
  | iPv6 => grind

/-- A number converts to an action exactly if it is the number of that action. -/
theorem Proto.Action.tryFrom_eq_some {v : Int32} {action : Proto.Action} :
    Proto.Action.tryFrom v = some action ↔ v = action.toI32 := by
  unfold Proto.Action.tryFrom Proto.Action.toI32
  cases action with
  | add => grind
  | remove => grind

/-- A number converts to a type of next hop exactly if it is the number of that type. -/
theorem Proto.NextHopType.tryFrom_eq_some {v : Int32} {t : Proto.NextHopType} :
    Proto.NextHopType.tryFrom v = some t ↔ v = t.toI32 := by
  unfold Proto.NextHopType.tryFrom Proto.NextHopType.toI32
  cases t with
  | standard => grind
  | nat => grind
  | loadbalancerTarget => grind

/-- The actions of the program and those of the format correspond one to one. -/
theorem Action.ofProto_eq {v : Proto.Action} {action : Action} :
    Action.ofProto v = action ↔ v = action.toProto := by
  cases v with
  | add => cases action <;> simp [ofProto, toProto]
  | remove => cases action <;> simp [ofProto, toProto]

/-- The types of next hop in the program and in the format correspond one to one. -/
theorem NextHopType.ofProto_eq {v : Proto.NextHopType} {t : NextHopType} :
    NextHopType.ofProto v = t ↔ v = t.toProto := by
  cases v with
  | standard => cases t <;> simp [ofProto, toProto]
  | nat => cases t <;> simp [ofProto, toProto]
  | loadbalancerTarget => cases t <;> simp [ofProto, toProto]

/-- An action is read from the number that it is written as, and from no other. -/
theorem Action.tryFrom_eq_some {v : Int32} {action : Action} :
    (Proto.Action.tryFrom v).map Action.ofProto = some action ↔ v = action.toProto.toI32 := by
  simp only [Option.map_eq_some_iff, Proto.Action.tryFrom_eq_some, Action.ofProto_eq,
    exists_eq_right]

/-- A type of next hop is read from the number that it is written as, and from no other. -/
theorem NextHopType.tryFrom_eq_some {v : Int32} {t : NextHopType} :
    (Proto.NextHopType.tryFrom v).map NextHopType.ofProto = some t ↔ v = t.toProto.toI32 := by
  simp only [Option.map_eq_some_iff, Proto.NextHopType.tryFrom_eq_some, NextHopType.ofProto_eq,
    exists_eq_right]

/-- The actions that have a name are 0 and 1. -/
theorem Action.exists_toI32 {v : Int32} :
    (∃ action : Action, action.toProto.toI32 = v) ↔ v = 0 ∨ v = 1 := by
  constructor
  · rintro ⟨action, rfl⟩
    cases action with
    | add => exact .inl rfl
    | remove => exact .inr rfl
  · rintro (rfl | rfl)
    · exact ⟨.add, rfl⟩
    · exact ⟨.remove, rfl⟩

/-- The next hop types that have a name are 0, 1 and 2. -/
theorem NextHopType.exists_toI32 {v : Int32} :
    (∃ t : NextHopType, t.toProto.toI32 = v) ↔ 0 ≤ v.toInt ∧ v.toInt ≤ 2 := by
  constructor
  · rintro ⟨t, rfl⟩
    cases t with
    | standard => decide
    | nat => decide
    | loadBalancerTarget => decide
  · rintro ⟨hlow, hhigh⟩
    have hcases : v.toInt = 0 ∨ v.toInt = 1 ∨ v.toInt = 2 := by omega
    rcases hcases with h | h | h
    · exact ⟨.standard, (Int32.toInt_inj.mp h).symm⟩
    · exact ⟨.nat, (Int32.toInt_inj.mp h).symm⟩
    · exact ⟨.loadBalancerTarget, (Int32.toInt_inj.mp h).symm⟩

/-! ### Destinations -/

/-- An IPv4 network is constructed from exactly its own address and its own prefix length, so this
fails only where there is no such network. -/
theorem IpNet.new_v4_eq_some {addr : Ipv4Addr} {prefixLen : UInt8} {net : IpNet} :
    IpNet.new (.v4 addr) prefixLen = some net ↔
      ∃ net4 : Ipv4Net, net = .v4 net4 ∧ net4.addr = addr ∧ net4.prefixLen = prefixLen := by
  simp only [IpNet.new]
  constructor
  · intro h
    split at h
    · cases h
      exact ⟨_, rfl, rfl, rfl⟩
    · cases h
  · rintro ⟨net4, rfl, rfl, rfl⟩
    exact dif_pos net4.prefixLen_le

/-- The same for IPv6, where the prefix length goes up to 128. -/
theorem IpNet.new_v6_eq_some {addr : Ipv6Addr} {prefixLen : UInt8} {net : IpNet} :
    IpNet.new (.v6 addr) prefixLen = some net ↔
      ∃ net6 : Ipv6Net, net = .v6 net6 ∧ net6.addr = addr ∧ net6.prefixLen = prefixLen := by
  simp only [IpNet.new]
  constructor
  · intro h
    split at h
    · cases h
      exact ⟨_, rfl, rfl, rfl⟩
    · cases h
  · rintro ⟨net6, rfl, rfl, rfl⟩
    exact dif_pos net6.prefixLen_le

/-- `as u8` keeps the number modulo 256. -/
theorem eq_toUInt8_iff {n : UInt32} {v : UInt8} :
    v = n.toUInt8 ↔ v.toNat = (n % 256).toNat := by
  rw [← UInt8.toNat_inj, UInt32.toNat_toUInt8, UInt32.toNat_mod]
  rfl

/-- `as u16` keeps the number modulo 65536. -/
theorem eq_toUInt16_iff {n : UInt32} {v : UInt16} :
    v = n.toUInt16 ↔ v.toNat = (n % 65536).toNat := by
  rw [← UInt16.toNat_inj, UInt32.toNat_toUInt16, UInt32.toNat_mod]
  rfl

/-- The address has the version and the bytes of the fields. -/
def Destination.HasAddr (d : Proto.Destination) (ip : IpAddr) : Prop :=
  match ip with
  | .v4 addr => d.ipVersion = Proto.IpVersion.iPv4.toI32 ∧ addr.octets.toList = d.ipPrefix
  | .v6 addr => d.ipVersion = Proto.IpVersion.iPv6.toI32 ∧ addr.octets.toList = d.ipPrefix

/-- The address of a destination is read from the bytes exactly if version and length of the
prefix fit to each other. -/
theorem Destination.tryFromAddr_eq_ok {d : Proto.Destination} {ip : IpAddr} :
    Destination.tryFromAddr d = .ok ip ↔ HasAddr d ip := by
  unfold tryFromAddr
  cases hversion : Proto.IpVersion.tryFrom d.ipVersion with
  | none =>
    -- No address has a version without a name.
    have hne : ∀ v : Proto.IpVersion, d.ipVersion ≠ v.toI32 := by
      intro v hv
      rw [Proto.IpVersion.tryFrom_eq_some.mpr hv] at hversion
      cases hversion
    cases ip with
    | v4 addr => simp [HasAddr, hne]
    | v6 addr => simp [HasAddr, hne]
  | some version =>
    have hnumber := Proto.IpVersion.tryFrom_eq_some.mp hversion
    cases version with
    | iPv4 =>
      simp only [bind_eq_ok, okOr_eq_ok, tryIntoArray_eq_some, pure_eq_ok]
      constructor
      · rintro ⟨octets, hoctets, rfl⟩
        exact ⟨hnumber, hoctets⟩
      · intro h
        cases ip with
        | v4 addr => exact ⟨addr.octets, h.2, rfl⟩
        | v6 addr => exact absurd (hnumber.symm.trans h.1) (by decide)
    | iPv6 =>
      simp only [bind_eq_ok, okOr_eq_ok, tryIntoArray_eq_some, pure_eq_ok]
      constructor
      · rintro ⟨octets, hoctets, rfl⟩
        exact ⟨hnumber, hoctets⟩
      · intro h
        cases ip with
        | v4 addr => exact absurd (hnumber.symm.trans h.1) (by decide)
        | v6 addr => exact ⟨addr.octets, h.2, rfl⟩

/-- The code accepts a destination with the value that it carries once it is narrowed. -/
theorem Destination.tryFrom_eq_ok {d : Proto.Destination} {x : Destination} :
    Destination.tryFrom d = .ok x ↔ d.narrow.Carries x := by
  unfold Destination.tryFrom
  simp only [bind_eq_ok, okOr_eq_ok, pure_eq_ok, tryFromAddr_eq_ok]
  constructor
  · rintro ⟨ip, haddr, net, hnet, rfl⟩
    cases ip with
    | v4 addr =>
      -- `IpNet::new` sees the length as a `u8`.
      obtain ⟨net4, rfl, rfl, hlength⟩ := IpNet.new_v4_eq_some.mp hnet
      exact ⟨haddr.1, haddr.2, eq_toUInt8_iff.mp hlength⟩
    | v6 addr =>
      obtain ⟨net6, rfl, rfl, hlength⟩ := IpNet.new_v6_eq_some.mp hnet
      exact ⟨haddr.1, haddr.2, eq_toUInt8_iff.mp hlength⟩
  · obtain ⟨net⟩ := x
    intro h
    cases net with
    | v4 net4 =>
      obtain ⟨hversion, hoctets, hlength⟩ := h
      have hnet := IpNet.new_v4_eq_some.mpr ⟨net4, rfl, rfl, eq_toUInt8_iff.mpr hlength⟩
      exact ⟨.v4 net4.addr, ⟨hversion, hoctets⟩, _, hnet, rfl⟩
    | v6 net6 =>
      obtain ⟨hversion, hoctets, hlength⟩ := h
      have hnet := IpNet.new_v6_eq_some.mpr ⟨net6, rfl, rfl, eq_toUInt8_iff.mpr hlength⟩
      exact ⟨.v6 net6.addr, ⟨hversion, hoctets⟩, _, hnet, rfl⟩

/-- The fields that are written for a destination carry it. -/
theorem Destination.carries_toProto (x : Destination) : x.toProto.Carries x := by
  obtain ⟨net⟩ := x
  cases net with
  | v4 net4 => exact ⟨rfl, rfl, (UInt8.toNat_toUInt32 _).symm⟩
  | v6 net6 => exact ⟨rfl, rfl, (UInt8.toNat_toUInt32 _).symm⟩

/-- A destination that the program writes already has a prefix length of 8 bits. -/
theorem Destination.narrow_toProto (x : Destination) : x.toProto.narrow = x.toProto := by
  unfold Proto.Destination.narrow toProto
  rw [UInt8.toUInt32_mod_256]

/-- Reading undoes writing. -/
theorem Destination.tryFrom_toProto (x : Destination) : Destination.tryFrom x.toProto = .ok x := by
  rw [tryFrom_eq_ok, narrow_toProto]
  exact carries_toProto x

/-- A destination that the program writes has a named version and at most 16 bytes of address,
which is what its encoding relies on. -/
theorem Destination.small_toProto (x : Destination) : x.toProto.Small := by
  obtain ⟨net⟩ := x
  cases net with
  | v4 net4 =>
    have hversion : 0 ≤ Proto.IpVersion.iPv4.toI32.toInt := by decide
    exact ⟨hversion, by simp [toProto]⟩
  | v6 net6 =>
    have hversion : 0 ≤ Proto.IpVersion.iPv6.toI32.toInt := by decide
    exact ⟨hversion, by simp [toProto]⟩

/-- A length that is admissible for some prefix is not changed by `as u8`. -/
theorem toNat_ofNat_prefixLength {length : UInt32} (h : length.toNat ≤ 128) :
    (UInt8.ofNat length.toNat).toNat = length.toNat := by
  rw [UInt8.toNat_ofNat']
  omega

/-- The documented destinations are those that some destination of the program stands for. -/
theorem Proto.Destination.documented_iff {d : Proto.Destination} :
    d.Documented ↔ ∃ x, d.Carries x := by
  constructor
  · rintro (⟨hversion, hprefix, hlength⟩ | ⟨hversion, hprefix, hlength⟩)
    · obtain ⟨octets, hoctets⟩ := exists_toList_eq.mpr hprefix
      have hnarrow := toNat_ofNat_prefixLength (Nat.le_trans hlength (by decide))
      have hle : UInt8.ofNat d.prefixLength.toNat ≤ 32 := by
        rw [UInt8.le_iff_toNat_le, hnarrow]
        exact hlength
      exact ⟨⟨.v4 ⟨⟨octets⟩, _, hle⟩⟩, hversion, hoctets, hnarrow⟩
    · obtain ⟨octets, hoctets⟩ := exists_toList_eq.mpr hprefix
      have hnarrow := toNat_ofNat_prefixLength hlength
      have hle : UInt8.ofNat d.prefixLength.toNat ≤ 128 := by
        rw [UInt8.le_iff_toNat_le, hnarrow]
        exact hlength
      exact ⟨⟨.v6 ⟨⟨octets⟩, _, hle⟩⟩, hversion, hoctets, hnarrow⟩
  · rintro ⟨⟨net⟩, h⟩
    cases net with
    | v4 net4 =>
      obtain ⟨hversion, hoctets, hlength⟩ := h
      -- The bound is a field of the prefix.
      have hle := UInt8.le_iff_toNat_le.mp net4.prefixLen_le
      refine .inl ⟨hversion, exists_toList_eq.mp ⟨_, hoctets⟩, ?_⟩
      rw [← hlength]
      exact hle
    | v6 net6 =>
      obtain ⟨hversion, hoctets, hlength⟩ := h
      have hle := UInt8.le_iff_toNat_le.mp net6.prefixLen_le
      refine .inr ⟨hversion, exists_toList_eq.mp ⟨_, hoctets⟩, ?_⟩
      rw [← hlength]
      exact hle

/-! ### Next hops -/

/-- The code accepts a next hop with the value that it carries once it is narrowed. -/
theorem NextHop.tryFrom_eq_ok {n : Proto.NextHop} {x : NextHop} :
    NextHop.tryFrom n = .ok x ↔ n.narrow.Carries x := by
  unfold NextHop.tryFrom
  simp only [bind_eq_ok, okOr_eq_ok, pure_eq_ok, tryIntoArray_eq_some, NextHopType.tryFrom_eq_some]
  constructor
  · rintro ⟨octets, hoctets, t, ht, rfl⟩
    refine ⟨hoctets, ?_, ht.symm, eq_toUInt16_iff.mp rfl, eq_toUInt16_iff.mp rfl⟩
    exact ite_not _ _ _
  · intro h
    refine ⟨x.targetAddress.octets, h.targetAddress, x.hopType, h.hopType.symm, ?_⟩
    have hvni : x.targetVni = if n.targetVni = 0 then none else some n.targetVni := h.targetVni
    rw [← eq_toUInt16_iff.mpr h.natPortRangeFrom, ← eq_toUInt16_iff.mpr h.natPortRangeTo, ite_not,
      ← hvni]

/-- What is written for a next hop carries the normalised next hop: a target VNI of `Some(0)` is
written as the default value. -/
theorem NextHop.carries_toProto (x : NextHop) : x.toProto.Carries x.normalise where
  targetAddress := rfl
  targetVni := by
    unfold toProto normalise
    cases x.targetVni with
    | none => rfl
    | some vni => simp
  hopType := rfl
  natPortRangeFrom := (UInt16.toNat_toUInt32 _).symm
  natPortRangeTo := (UInt16.toNat_toUInt32 _).symm

/-- A next hop that the program writes already has ports of 16 bits. -/
theorem NextHop.narrow_toProto (x : NextHop) : x.toProto.narrow = x.toProto := by
  unfold Proto.NextHop.narrow toProto
  rw [UInt16.toUInt32_mod_65536, UInt16.toUInt32_mod_65536]

/-- Reading undoes writing, up to a target VNI of 0. -/
theorem NextHop.tryFrom_toProto (x : NextHop) :
    NextHop.tryFrom x.toProto = .ok x.normalise := by
  rw [tryFrom_eq_ok, narrow_toProto]
  exact carries_toProto x

/-- A next hop that the program writes has a named type and 16 bytes of address. -/
theorem NextHop.small_toProto (x : NextHop) : x.toProto.Small where
  targetAddress := by simp [toProto]
  hopType := (NextHopType.exists_toI32.mp ⟨x.hopType, rfl⟩).1

/-- The documented next hops are those that some next hop of the program stands for. -/
theorem Proto.NextHop.documented_iff {n : Proto.NextHop} :
    n.Documented ↔ ∃ x, n.Carries x := by
  constructor
  · intro h
    obtain ⟨octets, hoctets⟩ := exists_toList_eq.mpr h.targetAddress
    obtain ⟨t, ht⟩ := NextHopType.exists_toI32.mpr h.hopType
    have hfrom := h.natPortRangeFrom
    have hto := h.natPortRangeTo
    refine ⟨⟨⟨octets⟩, _, t, .ofNat n.natPortRangeFrom.toNat, .ofNat n.natPortRangeTo.toNat⟩,
      hoctets, rfl, ht, ?_, ?_⟩
    · rw [UInt16.toNat_ofNat']
      omega
    · rw [UInt16.toNat_ofNat']
      omega
  · rintro ⟨x, h⟩
    -- Ports of 16 bits are below 65536.
    have hfrom := x.natPortRangeFrom.toNat_lt
    have hto := x.natPortRangeTo.toNat_lt
    refine ⟨exists_toList_eq.mp ⟨_, h.targetAddress⟩, NextHopType.exists_toI32.mp ⟨_, h.hopType⟩,
      ?_, ?_⟩
    · rw [← h.natPortRangeFrom]
      omega
    · rw [← h.natPortRangeTo]
      omega

end RustBond
