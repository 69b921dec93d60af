import RustBond.Proto

/-!
# `RustBond.Proofs.Proto`: the messages survive their encoding

For each message type, the fields that are written for a message are read back to it
(`fields_read`), so decoding undoes encoding (`decode_fields`). The enumerations are those
that have a name: they are not negative.

The embedded messages of an update must be short enough for their length to fit in a field.
They are (`length_fields_le`), and with them the whole update.
-/

set_option autoImplicit false

namespace RustBond.Proto

open Proto3

/-! ### Values -/

/-- A 32-bit value is read back from the number that is written for it. -/
theorem readUint32_toNat (v : UInt32) : readUint32 v.toNat = some v := by
  unfold readUint32
  rw [if_pos v.toNat_lt]
  exact congrArg some (UInt32.ofNat_toNat ..)

/-- A value whose number is the default 0 is the default value. -/
theorem uint32_eq_zero {v : UInt32} (h : v.toNat = 0) : v = 0 := UInt32.toNat_inj.mp h

/-- A flag is read back from the number that is written for it. -/
theorem readBool_toNat (b : Bool) : readBool b.toNat = some b := by
  cases b with
  | false => rfl
  | true => rfl

/-- An enumeration value that has a name is not negative. -/
theorem int32_of_nonneg {v : Int32} (h : 0 ≤ v.toInt) : int32 v = v.toInt.toNat := by
  have hlt := v.toInt_lt
  unfold int32
  omega

/-- The number of an enumeration is read back if it is not negative. A negative one would be
sign-extended to 64 bits. -/
theorem readEnumeration_int32 {v : Int32} (h : 0 ≤ v.toInt) :
    readEnumeration (int32 v) = some v := by
  have hlt := v.toInt_lt
  rw [int32_of_nonneg h]
  unfold readEnumeration
  rw [if_pos (by omega)]
  refine congrArg some (Int32.toInt_inj.mp ?_)
  rw [Int32.toInt_ofNat_of_lt (by omega)]
  omega

/-- An enumeration with the number 0 is not written, and 0 is what it has by default. -/
theorem int32_eq_zero {v : Int32} (h : 0 ≤ v.toInt) (hzero : int32 v = 0) : v = 0 := by
  rw [int32_of_nonneg h] at hzero
  refine Int32.toInt_inj.mp ?_
  have h0 : (0 : Int32).toInt = 0 := rfl
  omega

/-- Every enumeration fits in a varint, sign-extended or not. -/
theorem int32_lt (v : Int32) : int32 v < 2 ^ 64 := by
  unfold int32
  omega

/-! ### Messages -/

/-- Two lists of valid fields make a valid list. -/
theorem valid_append {fs fs' : List Field} (h : ∀ f ∈ fs, f.Valid) (h' : ∀ f ∈ fs', f.Valid) :
    ∀ f ∈ fs ++ fs', f.Valid := by
  intro f hf
  rcases List.mem_append.mp hf with hl | hr
  · exact h f hl
  · exact h' f hr

/-- A 32-bit value is a valid field under every number that the format allows. -/
theorem valid_uint32 {number : Nat} (hpos : 0 < number) (hlt : number < 2 ^ 29) (v : UInt32) :
    ∀ f ∈ scalar number v.toNat, f.Valid :=
  valid_scalar hpos hlt (by have h := v.toNat_lt; omega)

/-- A HELLO survives its encoding. -/
theorem Hello.decode_fields (h : Hello) : Hello.decode (encodeFields h.fields) = some h := by
  have hvalid : ∀ f ∈ h.fields, f.Valid := by
    refine valid_append (valid_uint32 (by decide) (by decide) _) ?_
    refine valid_scalar (by decide) (by decide) ?_
    have hlt := h.isServer.toNat_lt
    omega
  -- The fields are read in order, each on top of those before it.
  have hinterval : (scalar 1 h.keepaliveInterval.toNat).foldlM read ⟨0, false⟩
      = some ⟨h.keepaliveInterval, false⟩ := by
    refine read_scalar ?_ fun hzero => by rw [uint32_eq_zero hzero]
    simp [read, readUint32_toNat]
  have hserver : (scalar 2 h.isServer.toNat).foldlM read ⟨h.keepaliveInterval, false⟩ = some h := by
    refine read_scalar ?_ fun hzero => ?_
    · simp [read, readBool_toNat]
    · cases hb : h.isServer with
      | false => rw [← hb]
      | true => rw [hb] at hzero; cases hzero
  unfold decode
  rw [decodeFields_encodeFields hvalid, Option.bind_some, fields, List.foldlM_append, hinterval]
  exact hserver

/-- A subscription survives its encoding. -/
theorem Subscription.decode_fields (s : Subscription) :
    Subscription.decode (encodeFields s.fields) = some s := by
  have hvalid : ∀ f ∈ s.fields, f.Valid := valid_uint32 (by decide) (by decide) _
  unfold decode
  rw [decodeFields_encodeFields hvalid, Option.bind_some, fields]
  refine read_scalar ?_ fun hzero => by rw [← uint32_eq_zero hzero]
  simp [read, readUint32_toNat]

/-- The destination comes from an address: its IP version has a name, and its prefix is short. -/
structure Destination.Small (d : Destination) : Prop where
  ipVersion : 0 ≤ d.ipVersion.toInt
  ipPrefix : d.ipPrefix.length ≤ 16

structure NextHop.Small (n : NextHop) : Prop where
  targetAddress : n.targetAddress.length ≤ 16
  hopType : 0 ≤ n.hopType.toInt

/-- A small destination survives its encoding. -/
theorem Destination.decode_fields {d : Destination} (h : d.Small) :
    Destination.decode (encodeFields d.fields) = some d := by
  have hprefix := h.ipPrefix
  have hvalid : ∀ f ∈ d.fields, f.Valid := by
    refine valid_append (valid_append ?_ ?_) (valid_uint32 (by decide) (by decide) _)
    · exact valid_scalar (by decide) (by decide) (int32_lt _)
    · exact valid_blob (by decide) (by decide) (by omega)
  -- Field by field. A default is not written, and it is what is there already.
  have hversion : (scalar 1 (int32 d.ipVersion)).foldlM read ⟨0, [], 0⟩
      = some ⟨d.ipVersion, [], 0⟩ := by
    refine read_scalar ?_ fun hzero => by rw [int32_eq_zero h.ipVersion hzero]
    simp [read, readEnumeration_int32 h.ipVersion]
  have haddress : (blob 2 d.ipPrefix).foldlM read ⟨d.ipVersion, [], 0⟩
      = some ⟨d.ipVersion, d.ipPrefix, 0⟩ := by
    refine read_blob rfl fun hempty => by rw [hempty]
  have hlength : (scalar 3 d.prefixLength.toNat).foldlM read ⟨d.ipVersion, d.ipPrefix, 0⟩
      = some d := by
    refine read_scalar ?_ fun hzero => by rw [← uint32_eq_zero hzero]
    simp [read, readUint32_toNat]
  unfold decode
  rw [decodeFields_encodeFields hvalid, Option.bind_some, fields, List.foldlM_append,
    List.foldlM_append, hversion]
  show ((blob 2 d.ipPrefix).foldlM read ⟨d.ipVersion, [], 0⟩).bind _ = _
  rw [haddress]
  exact hlength

/-- A small next hop survives its encoding. -/
theorem NextHop.decode_fields {n : NextHop} (h : n.Small) :
    NextHop.decode (encodeFields n.fields) = some n := by
  have htarget := h.targetAddress
  have hvalid : ∀ f ∈ n.fields, f.Valid := by
    refine valid_append (valid_append (valid_append (valid_append ?_ ?_) ?_) ?_) ?_
    · exact valid_blob (by decide) (by decide) (by omega)
    · exact valid_uint32 (by decide) (by decide) _
    · exact valid_scalar (by decide) (by decide) (int32_lt _)
    · exact valid_uint32 (by decide) (by decide) _
    · exact valid_uint32 (by decide) (by decide) _
  -- Again field by field.
  have haddress : (blob 1 n.targetAddress).foldlM read ⟨[], 0, 0, 0, 0⟩
      = some ⟨n.targetAddress, 0, 0, 0, 0⟩ := by
    refine read_blob rfl fun hempty => by rw [hempty]
  have hvni : (scalar 2 n.targetVni.toNat).foldlM read ⟨n.targetAddress, 0, 0, 0, 0⟩
      = some ⟨n.targetAddress, n.targetVni, 0, 0, 0⟩ := by
    refine read_scalar ?_ fun hzero => by rw [uint32_eq_zero hzero]
    simp [read, readUint32_toNat]
  have htype : (scalar 3 (int32 n.hopType)).foldlM read ⟨n.targetAddress, n.targetVni, 0, 0, 0⟩
      = some ⟨n.targetAddress, n.targetVni, n.hopType, 0, 0⟩ := by
    refine read_scalar ?_ fun hzero => by rw [int32_eq_zero h.hopType hzero]
    simp [read, readEnumeration_int32 h.hopType]
  have hfrom : (scalar 4 n.natPortRangeFrom.toNat).foldlM read
      ⟨n.targetAddress, n.targetVni, n.hopType, 0, 0⟩
      = some ⟨n.targetAddress, n.targetVni, n.hopType, n.natPortRangeFrom, 0⟩ := by
    refine read_scalar ?_ fun hzero => by rw [uint32_eq_zero hzero]
    simp [read, readUint32_toNat]
  have hto : (scalar 5 n.natPortRangeTo.toNat).foldlM read
      ⟨n.targetAddress, n.targetVni, n.hopType, n.natPortRangeFrom, 0⟩ = some n := by
    refine read_scalar ?_ fun hzero => by rw [← uint32_eq_zero hzero]
    simp [read, readUint32_toNat]
  unfold decode
  rw [decodeFields_encodeFields hvalid, Option.bind_some, fields]
  simp only [List.foldlM_append, haddress, hvni, htype, hfrom, hto, Option.bind_eq_bind,
    Option.bind_some]

/-! ### Lengths -/

/-- A 32-bit value takes up at most 6 bytes with its tag. -/
theorem length_uint32_le {number : Nat} (hnumber : number < 16) (v : UInt32) :
    (encodeFields (scalar number v.toNat)).length ≤ 6 := by
  refine length_scalar_le (k := 4) hnumber ?_
  have hlt := v.toNat_lt
  omega

/-- An enumeration takes up at most 6 bytes with its tag if it is not negative. -/
theorem length_enumeration_le {number : Nat} (hnumber : number < 16) {v : Int32}
    (h : 0 ≤ v.toInt) : (encodeFields (scalar number (int32 v))).length ≤ 6 := by
  refine length_scalar_le (k := 4) hnumber ?_
  have hlt := v.toInt_lt
  rw [int32_of_nonneg h]
  omega

/-- The encoding of a small destination has at most 30 bytes, so its length fits in one byte. -/
theorem Destination.length_fields_le {d : Destination} (h : d.Small) :
    (encodeFields d.fields).length ≤ 30 := by
  have hprefix := h.ipPrefix
  have hversion : (encodeFields (scalar 1 (int32 d.ipVersion))).length ≤ 6 :=
    length_enumeration_le (by decide) h.ipVersion
  have haddress : (encodeFields (blob 2 d.ipPrefix)).length ≤ d.ipPrefix.length + 2 :=
    length_blob_le (by decide) (by omega)
  have hlength : (encodeFields (scalar 3 d.prefixLength.toNat)).length ≤ 6 :=
    length_uint32_le (by decide) d.prefixLength
  simp only [fields, encodeFields_append, List.length_append]
  omega

/-- The encoding of a small next hop has at most 42 bytes, so its length fits in one byte. -/
theorem NextHop.length_fields_le {n : NextHop} (h : n.Small) :
    (encodeFields n.fields).length ≤ 42 := by
  have htarget := h.targetAddress
  have haddress : (encodeFields (blob 1 n.targetAddress)).length ≤ n.targetAddress.length + 2 :=
    length_blob_le (by decide) (by omega)
  have hvni : (encodeFields (scalar 2 n.targetVni.toNat)).length ≤ 6 :=
    length_uint32_le (by decide) n.targetVni
  have htype : (encodeFields (scalar 3 (int32 n.hopType))).length ≤ 6 :=
    length_enumeration_le (by decide) h.hopType
  have hfrom : (encodeFields (scalar 4 n.natPortRangeFrom.toNat)).length ≤ 6 :=
    length_uint32_le (by decide) n.natPortRangeFrom
  have hto : (encodeFields (scalar 5 n.natPortRangeTo.toNat)).length ≤ 6 :=
    length_uint32_le (by decide) n.natPortRangeTo
  simp only [fields, encodeFields_append, List.length_append]
  omega

/-- The parts of the update come from addresses. -/
structure Update.Small (u : Update) : Prop where
  action : 0 ≤ u.action.toInt
  destination : ∀ d ∈ u.destination, d.Small
  nextHop : ∀ n ∈ u.nextHop, n.Small

/-- The encoding of a small update has at most 88 bytes, far below the limit of a frame. -/
theorem Update.length_fields_le {u : Update} (h : u.Small) :
    (encodeFields u.fields).length ≤ 88 := by
  have haction : (encodeFields (scalar 1 (int32 u.action))).length ≤ 6 :=
    length_enumeration_le (by decide) h.action
  have hvni : (encodeFields (scalar 2 u.vni.toNat)).length ≤ 6 :=
    length_uint32_le (by decide) u.vni
  -- An embedded message has two bytes in front of it.
  have hdestination : (encodeFields (embedded 3
      (u.destination.map fun d => encodeFields d.fields))).length ≤ 32 := by
    cases hd : u.destination with
    | none => exact Nat.zero_le _
    | some d =>
      have hsmall := Destination.length_fields_le (h.destination d hd)
      have hlength : (encodeFields (embedded 3 (some (encodeFields d.fields)))).length
          ≤ (encodeFields d.fields).length + 2 := length_embedded_le (by decide) (by omega)
      simp only [Option.map_some]
      omega
  have hnextHop : (encodeFields (embedded 4
      (u.nextHop.map fun n => encodeFields n.fields))).length ≤ 44 := by
    cases hn : u.nextHop with
    | none => exact Nat.zero_le _
    | some n =>
      have hsmall := NextHop.length_fields_le (h.nextHop n hn)
      have hlength : (encodeFields (embedded 4 (some (encodeFields n.fields)))).length
          ≤ (encodeFields n.fields).length + 2 := length_embedded_le (by decide) (by omega)
      simp only [Option.map_some]
      omega
  simp only [fields, encodeFields_append, List.length_append]
  omega

/-- The encoding of a HELLO has at most 8 bytes. -/
theorem Hello.length_fields_le (h : Hello) : (encodeFields h.fields).length ≤ 8 := by
  have hinterval : (encodeFields (scalar 1 h.keepaliveInterval.toNat)).length ≤ 6 :=
    length_uint32_le (by decide) h.keepaliveInterval
  have hserver : (encodeFields (scalar 2 h.isServer.toNat)).length ≤ 2 := by
    refine length_scalar_le (k := 0) (by decide) ?_
    have hlt := h.isServer.toNat_lt
    omega
  simp only [fields, encodeFields_append, List.length_append]
  omega

/-- The encoding of a subscription has at most 6 bytes. -/
theorem Subscription.length_fields_le (s : Subscription) : (encodeFields s.fields).length ≤ 6 :=
  length_uint32_le (by decide) s.vni

/-- A small update survives its encoding. Its embedded messages are read back from their own
bytes. -/
theorem Update.decode_fields {u : Update} (h : u.Small) :
    Update.decode (encodeFields u.fields) = some u := by
  have hvalid : ∀ f ∈ u.fields, f.Valid := by
    refine valid_append (valid_append (valid_append ?_ ?_) ?_) ?_
    · exact valid_scalar (by decide) (by decide) (int32_lt _)
    · exact valid_uint32 (by decide) (by decide) _
    · refine valid_embedded (by decide) (by decide) fun b hb => ?_
      obtain ⟨d, hd, rfl⟩ := Option.map_eq_some_iff.mp hb
      have hlength := Destination.length_fields_le (h.destination d hd)
      omega
    · refine valid_embedded (by decide) (by decide) fun b hb => ?_
      obtain ⟨n, hn, rfl⟩ := Option.map_eq_some_iff.mp hb
      have hlength := NextHop.length_fields_le (h.nextHop n hn)
      omega
  have haction : (scalar 1 (int32 u.action)).foldlM read ⟨0, 0, none, none⟩
      = some ⟨u.action, 0, none, none⟩ := by
    refine read_scalar ?_ fun hzero => by rw [int32_eq_zero h.action hzero]
    simp [read, readEnumeration_int32 h.action]
  have hvni : (scalar 2 u.vni.toNat).foldlM read ⟨u.action, 0, none, none⟩
      = some ⟨u.action, u.vni, none, none⟩ := by
    refine read_scalar ?_ fun hzero => by rw [uint32_eq_zero hzero]
    simp [read, readUint32_toNat]
  -- The embedded messages are decoded by the lemmas above.
  have hdestination : (embedded 3 (u.destination.map fun d => encodeFields d.fields)).foldlM read
      ⟨u.action, u.vni, none, none⟩ = some ⟨u.action, u.vni, u.destination, none⟩ := by
    refine read_embedded ?_ fun hnone => by rw [Option.map_eq_none_iff.mp hnone]
    intro b hb
    obtain ⟨d, hd, rfl⟩ := Option.map_eq_some_iff.mp hb
    simp [read, Destination.decode_fields (h.destination d hd), hd]
  have hnextHop : (embedded 4 (u.nextHop.map fun n => encodeFields n.fields)).foldlM read
      ⟨u.action, u.vni, u.destination, none⟩ = some u := by
    refine read_embedded ?_ fun hnone => by rw [← Option.map_eq_none_iff.mp hnone]
    intro b hb
    obtain ⟨n, hn, rfl⟩ := Option.map_eq_some_iff.mp hb
    have hupdate : (⟨u.action, u.vni, u.destination, some n⟩ : Update) = u := by rw [← hn]
    simpa [read, NextHop.decode_fields (h.nextHop n hn)] using hupdate
  unfold decode
  rw [decodeFields_encodeFields hvalid, Option.bind_some, fields]
  simp only [List.foldlM_append, haction, hvni, hdestination, hnextHop, Option.bind_eq_bind,
    Option.bind_some]

end RustBond.Proto
