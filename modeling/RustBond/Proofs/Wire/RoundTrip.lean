import RustBond.Proofs.Wire.Codec

/-!
# `RustBond.Proofs.Wire.RoundTrip`: decoding undoes encoding

Every message is encoded to a frame whose payload carries it, up to a target VNI of 0
(`encode_begins`). The payload is far shorter than the limit, so encoding never fails. What
follows the frame does not matter to decoding (`decode_encode`).

The library is any that follows the standard (`Prost.Standard`).
-/

set_option autoImplicit false

namespace RustBond

/-- What has been on the way once stays as it is when it goes on. -/
theorem NextHop.normalise_normalise (n : NextHop) : n.normalise.normalise = n.normalise := by
  by_cases hzero : n.targetVni = some 0
  · simp [normalise, hzero]
  · simp [normalise, hzero]

/-- A route that has been decoded once stays as it is. -/
theorem RouteKey.normalise_normalise (r : RouteKey) : r.normalise.normalise = r.normalise := by
  rw [normalise, normalise, NextHop.normalise_normalise]

/-- No route has the target VNI 0 once it has been on the way. -/
theorem RouteKey.targetVni_normalise (r : RouteKey) : r.normalise.2.2.targetVni ≠ some 0 := by
  show (if r.2.2.targetVni = some 0 then none else r.2.2.targetVni) ≠ some 0
  split
  · exact nofun
  · rename_i hne
    exact hne

/-- A route without the target VNI 0 is as it is on both sides. -/
theorem RouteKey.normalise_eq_self {r : RouteKey} (h : r.2.2.targetVni ≠ some 0) :
    r.normalise = r := by
  obtain ⟨vni, destination, nextHop⟩ := r
  rw [normalise, NextHop.normalise, if_neg h]

namespace Message

/-- The proto message of an update. -/
def protoUpdate (action : Action) (vni : Vni) (destination : Destination) (nextHop : NextHop) :
    Proto.Update :=
  ⟨action.toProto.toI32, vni.id, some destination.toProto, some nextHop.toProto⟩

section
variable (action : Action) (vni : Vni) (destination : Destination) (nextHop : NextHop)

/-- An update of the program is small enough for its encoding. -/
theorem small_protoUpdate : (protoUpdate action vni destination nextHop).Small where
  action := by
    show 0 ≤ action.toProto.toI32.toInt
    cases action with
    | add => decide
    | remove => decide
  destination := by
    intro d hd
    cases hd
    exact destination.small_toProto
  nextHop := by
    intro n hn
    cases hn
    exact nextHop.small_toProto

/-- Its numbers come from the widths of the program. -/
theorem narrow_protoUpdate : (protoUpdate action vni destination nextHop).narrow
    = protoUpdate action vni destination nextHop := by
  unfold Proto.Update.narrow protoUpdate
  rw [Option.map_some, Option.map_some, Destination.narrow_toProto, NextHop.narrow_toProto]

/-- What is written for an update carries the update with its normalised next hop. -/
theorem carries_protoUpdate : (protoUpdate action vni destination nextHop).Carries
    (update action vni destination nextHop.normalise) :=
  ⟨rfl, rfl, ⟨_, rfl, destination.carries_toProto⟩, _, rfl, nextHop.carries_toProto⟩

end

variable {p : Prost}

/-- The payload of a message carries it, up to a target VNI of 0, and is short. -/
theorem encodePayload_eq_ok (hp : p.Standard) (m : Message) :
    ∃ payload, m.encodePayload p = .ok payload ∧ payload.length ≤ 88 ∧
      Carries p.narrow payload m.normalise := by
  cases m with
  | hello keepaliveInterval isServer =>
    refine ⟨_, rfl, ?_, ?_⟩
    · rw [hp.encodeHello]
      exact Nat.le_trans (Proto.Hello.length_fields_le _) (by decide)
    · rw [hp.encodeHello]
      exact hp.decodeHello _ _ (Proto.Hello.decode_fields _)
  | keepalive => exact ⟨[], rfl, Nat.zero_le _, trivial⟩
  | subscribe | unsubscribe =>
    -- Both have the payload of a `Subscription`.
    refine ⟨_, rfl, ?_, ?_⟩
    · rw [hp.encodeSubscription]
      exact Nat.le_trans (Proto.Subscription.length_fields_le _) (by decide)
    · rw [hp.encodeSubscription]
      exact hp.decodeSubscription _ _ (Proto.Subscription.decode_fields _)
  | update action vni destination nextHop =>
    have hsmall := small_protoUpdate action vni destination nextHop
    refine ⟨p.encodeUpdate (protoUpdate action vni destination nextHop), rfl, ?_, ?_⟩
    · rw [hp.encodeUpdate]
      exact Proto.Update.length_fields_le hsmall
    · refine ⟨protoUpdate action vni destination nextHop, ?_, carries_protoUpdate ..⟩
      have hdecode := hp.decodeUpdate _ _ (Proto.Update.decode_fields hsmall)
      rw [hp.encodeUpdate]
      show (p.decodeUpdate _).map Proto.Update.narrow = _
      rw [hdecode, Option.map_some, narrow_protoUpdate]

/-- The two bytes of the header hold the length. -/
theorem length_header {n : Nat} (h : n ≤ maxPayloadSize) :
    256 * (UInt8.ofNat (n >>> 8)).toNat + (UInt8.ofNat (n &&& 0xFF)).toNat = n := by
  unfold maxPayloadSize at h
  have hlow : n &&& 0xFF = n % 256 := Nat.and_two_pow_sub_one_eq_mod n 8
  rw [hlow, Nat.shiftRight_eq_div_pow, UInt8.toNat_ofNat', UInt8.toNat_ofNat']
  omega

/-- Encoding returns a frame of the message. -/
theorem encode_begins (hp : p.Standard) (m : Message) :
    ∃ payload b, m.encodePayload p = .ok payload ∧ payload.length ≤ maxPayloadSize ∧
      m.encode p = .ok b ∧ b.length = headerSize + payload.length ∧
      Begins b m.messageType payload ∧ Carries p.narrow payload m.normalise := by
  obtain ⟨payload, hpayload, hlength, hcarries⟩ := encodePayload_eq_ok hp m
  have hmax : payload.length ≤ maxPayloadSize := Nat.le_trans hlength (by decide)
  refine ⟨payload, 1 :: .ofNat (payload.length >>> 8) :: .ofNat (payload.length &&& 0xFF) ::
    m.messageType.toU8 :: payload, hpayload, hmax, ?_, ?_, ?_, hcarries⟩
  · unfold encode
    rw [hpayload]
    exact if_neg (Nat.not_lt.mpr hmax)
  · simp [headerSize]
    omega
  · exact ⟨_, _, [], by rw [List.append_nil], length_header hmax⟩

/-- A message keeps its type on the way. -/
theorem messageType_normalise (m : Message) : m.normalise.messageType = m.messageType := by
  cases m with
  | _ => rfl

/-- What is decoded from the frame of a message, whatever follows it. -/
theorem decode_frame {m : Message} {payload b : List UInt8}
    (hlength : b.length = headerSize + payload.length) (hbegins : Begins b m.messageType payload)
    (hcarries : Carries p.narrow payload m.normalise) (t : List UInt8) :
    decode p (b ++ t) = .ok (m.normalise, b.length) := by
  rw [← messageType_normalise] at hbegins
  exact decode_eq_ok.mpr ⟨payload, hbegins.append t, hlength, hcarries⟩

/-- Every message has a frame, and a buffer that begins with the frame is decoded to the
normalised message, whatever follows. -/
theorem exists_frame (hp : p.Standard) (m : Message) :
    ∃ b, m.encode p = .ok b ∧ b ≠ [] ∧ ∀ t, decode p (b ++ t) = .ok (m.normalise, b.length) := by
  obtain ⟨payload, b, -, -, hencode, hlength, hbegins, hcarries⟩ := encode_begins hp m
  refine ⟨b, hencode, ?_, decode_frame hlength hbegins hcarries⟩
  rw [← List.length_pos_iff, hlength]
  exact Nat.add_pos_left (by decide) _

/-- Whatever follows a frame, it is decoded to its message. -/
theorem decode_encode (p : Prost) (hp : p.Standard) (m : Message) (t : List UInt8) :
    ∃ payload b, m.encodePayload p = .ok payload ∧ payload.length ≤ maxPayloadSize ∧
      m.encode p = .ok b ∧ decode p (b ++ t) = .ok (m.normalise, b.length) := by
  obtain ⟨payload, b, hpayload, hmax, hencode, hlength, hbegins, hcarries⟩ := encode_begins hp m
  exact ⟨payload, b, hpayload, hmax, hencode, decode_frame hlength hbegins hcarries t⟩

/-- An update with a target VNI of 0, and two bytes after it. -/
theorem decode_encode_update :
    ∃ payload b,
      encodePayload .strict
        (.update .add ⟨100⟩ (makeDest 1) { makeHop 1 with targetVni := some 0 }) = .ok payload ∧
      payload.length ≤ maxPayloadSize ∧
      encode .strict (.update .add ⟨100⟩ (makeDest 1) { makeHop 1 with targetVni := some 0 })
        = .ok b ∧
      decode .strict (b ++ [1, 2]) = .ok (.update .add ⟨100⟩ (makeDest 1) (makeHop 1), b.length) :=
  decode_encode .strict Prost.standard_strict _ [1, 2]

end Message

end RustBond
