import RustBond.Proofs.Wire.Codec

/-!
# `RustBond.Proofs.Wire.Accepted`: the accepted frames against the format

A payload is in the ranges of the format exactly if it carries some message (`documented_iff`).
Decoding works on the narrowed payload, so it accepts everything that the format admits, and
returns its values. It accepts more than that: a payload that is too long, and a prefix length
or a port whose low bits are in range. `exact_iff` says that there is nothing else.

The library is any at all.
-/

set_option autoImplicit false

namespace RustBond

/-! ### Narrowing -/

/-- A documented update fits in the program's types. -/
theorem Proto.Update.Documented.fits {u : Proto.Update} (h : u.Documented) : u.Fits where
  prefixLength := by
    intro d hd
    obtain ⟨d', hd', hdocumented⟩ := h.destination
    rw [hd'] at hd
    cases hd
    -- Both bounds are below 256.
    rcases hdocumented with ⟨-, -, hlength⟩ | ⟨-, -, hlength⟩
    · omega
    · omega
  natPortRangeFrom := by
    intro n hn
    obtain ⟨n', hn', hdocumented⟩ := h.nextHop
    rw [hn'] at hn
    cases hn
    exact hdocumented.natPortRangeFrom
  natPortRangeTo := by
    intro n hn
    obtain ⟨n', hn', hdocumented⟩ := h.nextHop
    rw [hn'] at hn
    cases hn
    exact hdocumented.natPortRangeTo

/-- A value below the modulus is its own remainder. -/
theorem mod_eq_self {v k : UInt32} (h : v.toNat < k.toNat) : v % k = v := by
  rw [← UInt32.toNat_inj, UInt32.toNat_mod]
  exact Nat.mod_eq_of_lt h

/-- Narrowing changes nothing if the numbers fit. -/
theorem Proto.Update.Fits.narrow_eq {u : Proto.Update} (h : u.Fits) : u.narrow = u := by
  have hdestination : u.destination.map Proto.Destination.narrow = u.destination := by
    cases hd : u.destination with
    | none => rfl
    | some d =>
      have hlength : d.prefixLength.toNat < (256 : UInt32).toNat :=
        Nat.lt_succ_of_le (h.prefixLength d hd)
      rw [Option.map_some, Proto.Destination.narrow, mod_eq_self hlength]
  have hnextHop : u.nextHop.map Proto.NextHop.narrow = u.nextHop := by
    cases hn : u.nextHop with
    | none => rfl
    | some n =>
      have hfrom : n.natPortRangeFrom.toNat < (65536 : UInt32).toNat :=
        Nat.lt_succ_of_le (h.natPortRangeFrom n hn)
      have hto : n.natPortRangeTo.toNat < (65536 : UInt32).toNat :=
        Nat.lt_succ_of_le (h.natPortRangeTo n hn)
      rw [Option.map_some, Proto.NextHop.narrow, mod_eq_self hfrom, mod_eq_self hto]
  unfold narrow
  rw [hdestination, hnextHop]

/-! ### Documented payloads -/

/-- The documented updates are those that some update of the program stands for. -/
theorem Proto.Update.documented_iff {u : Proto.Update} :
    u.Documented ↔ ∃ m : Message, m.messageType = .update ∧ u.Carries m := by
  constructor
  · intro h
    -- Each field in its range is the value of some field of a message.
    obtain ⟨action, haction⟩ := Action.exists_toI32.mpr h.action
    obtain ⟨d, hd, hdocumented⟩ := h.destination
    obtain ⟨destination, hdestination⟩ := Proto.Destination.documented_iff.mp hdocumented
    obtain ⟨n, hn, hdocumented'⟩ := h.nextHop
    obtain ⟨nextHop, hnextHop⟩ := Proto.NextHop.documented_iff.mp hdocumented'
    exact ⟨.update action ⟨u.vni⟩ destination nextHop, rfl, haction, rfl,
      ⟨d, hd, hdestination⟩, n, hn, hnextHop⟩
  · rintro ⟨m, -, h⟩
    cases m with
    | update action vni destination nextHop =>
      obtain ⟨haction, -, ⟨d, hd, hdestination⟩, n, hn, hnextHop⟩ := h
      exact ⟨Action.exists_toI32.mp ⟨_, haction⟩,
        ⟨d, hd, Proto.Destination.documented_iff.mpr ⟨_, hdestination⟩⟩,
        ⟨n, hn, Proto.NextHop.documented_iff.mpr ⟨_, hnextHop⟩⟩⟩
    | _ => cases h

namespace Message

variable {p : Prost} {b payload : List UInt8} {t : MessageType} {m : Message}

/-- A payload is in the ranges of the format exactly if it carries a message of its type. -/
theorem documented_iff :
    Documented p t payload ↔ ∃ m : Message, m.messageType = t ∧ Carries p payload m := by
  cases t with
  | hello =>
    constructor
    · rintro ⟨h, hdecode⟩
      exact ⟨.hello h.keepaliveInterval h.isServer, rfl, hdecode⟩
    · rintro ⟨m, htype, hcarries⟩
      cases m with
      | hello => exact ⟨_, hcarries⟩
      | _ => cases htype
  | keepalive => exact ⟨fun _ => ⟨.keepalive, rfl, trivial⟩, fun _ => trivial⟩
  | subscribe =>
    constructor
    · rintro ⟨s, hdecode⟩
      exact ⟨.subscribe ⟨s.vni⟩, rfl, hdecode⟩
    · rintro ⟨m, htype, hcarries⟩
      cases m with
      | subscribe => exact ⟨_, hcarries⟩
      | _ => cases htype
  | unsubscribe =>
    constructor
    · rintro ⟨s, hdecode⟩
      exact ⟨.unsubscribe ⟨s.vni⟩, rfl, hdecode⟩
    · rintro ⟨m, htype, hcarries⟩
      cases m with
      | unsubscribe => exact ⟨_, hcarries⟩
      | _ => cases htype
  | update =>
    constructor
    · rintro ⟨u, hdecode, hdocumented⟩
      obtain ⟨m, htype, hcarries⟩ := Proto.Update.documented_iff.mp hdocumented
      cases m with
      | update action vni destination nextHop =>
        exact ⟨.update action vni destination nextHop, rfl, u, hdecode, hcarries⟩
      | _ => cases htype
    · rintro ⟨m, htype, hcarries⟩
      cases m with
      | update =>
        obtain ⟨u, hdecode, hcarries⟩ := hcarries
        exact ⟨u, hdecode, Proto.Update.documented_iff.mpr ⟨_, rfl, hcarries⟩⟩
      | _ => cases htype

/-- For a payload whose numbers fit, it does not matter that they are narrowed. -/
theorem carries_narrow (h : m.messageType = .update → ∀ u ∈ p.decodeUpdate payload, u.Fits) :
    Carries p.narrow payload m ↔ Carries p payload m := by
  cases m with
  | update =>
    have heq : p.narrow.decodeUpdate payload = p.decodeUpdate payload := by
      show (p.decodeUpdate payload).map Proto.Update.narrow = _
      cases hdecode : p.decodeUpdate payload with
      | none => rfl
      | some u => exact congrArg some (h rfl u hdecode).narrow_eq
    unfold Carries
    simp only [heq]
  | _ => rfl

/-- The numbers of a payload in the format fit. -/
theorem fits_of_documented (h : Documented p t payload) :
    t = .update → ∀ u ∈ p.decodeUpdate payload, u.Fits := by
  rintro rfl u hu
  obtain ⟨u', hdecode, hdocumented⟩ := h
  rw [hdecode] at hu
  cases hu
  exact hdocumented.fits

/-- A frame whose payload carries a message of its type is decoded. -/
theorem decode_of_carries (hbegins : Begins b t payload) (htype : m.messageType = t)
    (hcarries : Carries p.narrow payload m) : ∃ r, decode p b = .ok r :=
  ⟨_, decode_eq_ok.mpr ⟨payload, htype ▸ hbegins, rfl, hcarries⟩⟩

/-- Everything in the format is accepted. -/
theorem decode_of_inFormat (h : InFormat p b) : ∃ r, decode p b = .ok r := by
  obtain ⟨t, payload, hbegins, -, hdocumented⟩ := h
  obtain ⟨m, rfl, hcarries⟩ := documented_iff.mp hdocumented
  have hfits := fits_of_documented hdocumented
  exact decode_of_carries hbegins rfl ((carries_narrow hfits).mpr hcarries)

/-- Decoding accepts the format and returns its values exactly where no limit is exceeded. -/
theorem exact_iff (p : Prost) (b : List UInt8) : Exact p b ↔ WithinLimits p b := by
  constructor
  · intro h t payload hbegins hnarrow
    obtain ⟨m, htype, hcarries⟩ := documented_iff.mp hnarrow
    obtain ⟨t', payload', hbegins', hlength, hdocumented⟩ :=
      h.accepts.mp (decode_of_carries hbegins htype hcarries)
    -- There is only one frame at the beginning.
    obtain ⟨rfl, rfl⟩ := hbegins.unique hbegins'
    exact ⟨hlength, fits_of_documented hdocumented⟩
  · intro h
    have hvalues : ∀ m n, decode p b = .ok (m, n) →
        ∃ payload, Begins b m.messageType payload ∧ payload.length ≤ maxPayloadSize ∧
          n = headerSize + payload.length ∧ Carries p payload m := by
      intro m n hdecode
      obtain ⟨payload, hbegins, hn, hcarries⟩ := decode_eq_ok.mp hdecode
      obtain ⟨hlength, hfits⟩ := h _ _ hbegins (documented_iff.mpr ⟨m, rfl, hcarries⟩)
      exact ⟨payload, hbegins, hlength, hn, (carries_narrow hfits).mp hcarries⟩
    refine ⟨⟨?_, decode_of_inFormat⟩, fun m n hdecode => ?_⟩
    · rintro ⟨⟨m, n⟩, hdecode⟩
      obtain ⟨payload, hbegins, hlength, -, hcarries⟩ := hvalues m n hdecode
      exact ⟨m.messageType, payload, hbegins, hlength, documented_iff.mpr ⟨m, rfl, hcarries⟩⟩
    · obtain ⟨payload, hbegins, -, hn, hcarries⟩ := hvalues m n hdecode
      exact ⟨payload, hbegins, hn, hcarries⟩

/-- An update that adds `10.0.1.0` with the prefix length 280. -/
def widePrefix : List UInt8 :=
  [1, 0, 33, 5,
    0x10, 100,
    0x1a, 9, 0x12, 4, 10, 0, 1, 0, 0x18, 0x98, 2,
    0x22, 18, 0x0a, 16, 0x20, 0x01, 0x0d, 0xb8, 0, 0, 0, 0, 0, 0, 0, 0, 0, 0, 0, 1]

/-- It is accepted, as an update on `10.0.1.0/24`. -/
theorem widePrefix_accepted :
    decode .strict widePrefix = .ok (.update .add ⟨100⟩ (makeDest 1) (makeHop 1), 37) ∧
      ¬ Exact .strict widePrefix := by
  have hdecode : decode .strict widePrefix
      = .ok (.update .add ⟨100⟩ (makeDest 1) (makeHop 1), 37) := by rfl
  refine ⟨hdecode, fun h => ?_⟩
  obtain ⟨payload, hbegins, -, u, hu, hcarries⟩ := h.values _ _ hdecode
  have hframe : Begins widePrefix .update (widePrefix.drop 4) := ⟨0, 33, [], rfl, rfl⟩
  obtain ⟨-, rfl⟩ := hframe.unique hbegins
  have hread : Prost.strict.decodeUpdate (widePrefix.drop 4)
      = some ⟨0, 100, some ⟨0, [10, 0, 1, 0], 280⟩, some (makeHop 1).toProto⟩ := by rfl
  rw [hread] at hu
  cases hu
  obtain ⟨-, -, ⟨d, hd, hdestination⟩, -⟩ := hcarries
  cases hd
  exact absurd hdestination.2.2 (by decide)

end Message

end RustBond
