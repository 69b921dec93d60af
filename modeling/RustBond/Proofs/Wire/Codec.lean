import RustBond.Proofs.Wire.Conversions

/-!
# `RustBond.Proofs.Wire.Codec`: what decoding accepts and returns

`decode_eq_ok` says it all: decoding returns a message exactly if the bytes begin with a frame
of its type whose payload, with its numbers narrowed, carries it. Bytes that begin with a frame
do so whatever follows (`Begins.append`), and with one frame only (`Begins.unique`).
-/

set_option autoImplicit false

namespace RustBond

/-! ### Payloads -/

/-- A byte converts to a message type exactly if it is the number of that type. -/
theorem MessageType.tryFrom_eq_ok {v : UInt8} {t : MessageType} :
    MessageType.tryFrom v = .ok t ↔ v = t.toU8 := by
  constructor
  · intro h
    unfold tryFrom at h
    split at h <;> cases h <;> rfl
  · rintro rfl
    cases t <;> rfl

/-- The message types have different numbers. -/
theorem MessageType.toU8_injective {t t' : MessageType} (h : t.toU8 = t'.toU8) : t = t' := by
  have hok := tryFrom_eq_ok.mpr h
  rw [tryFrom_eq_ok.mpr rfl] at hok
  exact Except.ok.inj hok

namespace Message

/-- An update is accepted exactly if the message carries its narrowed values. The narrowing is
that of the casts to `u8` and `u16`. -/
theorem ofProtoUpdate_eq_ok {u : Proto.Update} {m : Message} :
    ofProtoUpdate u = .ok m ↔ u.narrow.Carries m := by
  unfold ofProtoUpdate
  simp only [bind_eq_ok, okOr_eq_ok, pure_eq_ok, Action.tryFrom_eq_some, Destination.tryFrom_eq_ok,
    NextHop.tryFrom_eq_ok]
  constructor
  · rintro ⟨action, haction, d, hd, destination, hdestination, n, hn, nextHop, hnextHop, rfl⟩
    -- The conversions see the fields as they are, but their values only narrowed.
    have hnarrow : u.narrow.destination = some d.narrow := congrArg (Option.map _) hd
    have hnarrow' : u.narrow.nextHop = some n.narrow := congrArg (Option.map _) hn
    exact ⟨haction.symm, rfl, ⟨_, hnarrow, hdestination⟩, _, hnarrow', hnextHop⟩
  · intro h
    cases m with
    | update action vni destination nextHop =>
      obtain ⟨haction, hvni, ⟨d, hd, hdestination⟩, n, hn, hnextHop⟩ := h
      obtain ⟨d, hsome, rfl⟩ := Option.map_eq_some_iff.mp hd
      obtain ⟨n, hsome', rfl⟩ := Option.map_eq_some_iff.mp hn
      have hid : (⟨u.vni⟩ : Vni) = vni := congrArg Vni.mk hvni.symm
      exact ⟨action, haction.symm, d, hsome, destination, hdestination, n, hsome', nextHop,
        hnextHop, by rw [hid]⟩
    | _ => cases h

/-- A payload is accepted for a message type exactly if it carries the values of a message of that
type, as far as the casts let them through. -/
theorem decodePayload_eq_ok {p : Prost} {t : MessageType} {payload : List UInt8} {m : Message} :
    decodePayload p t payload = .ok m ↔ m.messageType = t ∧ Carries p.narrow payload m := by
  cases t with
  | hello =>
    simp only [decodePayload, bind_eq_ok, okOr_eq_ok, pure_eq_ok]
    constructor
    · rintro ⟨h, hdecode, rfl⟩
      exact ⟨rfl, hdecode⟩
    · rintro ⟨htype, hcarries⟩
      cases m with
      | hello => exact ⟨_, hcarries, rfl⟩
      | _ => cases htype
  | keepalive =>
    constructor
    · intro h
      cases h
      exact ⟨rfl, trivial⟩
    · rintro ⟨htype, -⟩
      cases m with
      | keepalive => rfl
      | _ => cases htype
  | subscribe =>
    simp only [decodePayload, bind_eq_ok, okOr_eq_ok, pure_eq_ok]
    constructor
    · rintro ⟨s, hdecode, rfl⟩
      exact ⟨rfl, hdecode⟩
    · rintro ⟨htype, hcarries⟩
      cases m with
      | subscribe => exact ⟨_, hcarries, rfl⟩
      | _ => cases htype
  | unsubscribe =>
    simp only [decodePayload, bind_eq_ok, okOr_eq_ok, pure_eq_ok]
    constructor
    · rintro ⟨s, hdecode, rfl⟩
      exact ⟨rfl, hdecode⟩
    · rintro ⟨htype, hcarries⟩
      cases m with
      | unsubscribe => exact ⟨_, hcarries, rfl⟩
      | _ => cases htype
  | update =>
    simp only [decodePayload, bind_eq_ok, okOr_eq_ok, ofProtoUpdate_eq_ok]
    constructor
    · rintro ⟨u, hdecode, hcarries⟩
      cases m with
      | update =>
        exact ⟨rfl, u.narrow, congrArg (Option.map _) hdecode, hcarries⟩
      | _ => cases hcarries
    · rintro ⟨htype, hcarries⟩
      cases m with
      | update =>
        obtain ⟨v, hdecode, hcarries⟩ := hcarries
        obtain ⟨u, hsome, rfl⟩ := Option.map_eq_some_iff.mp hdecode
        exact ⟨u, hsome, hcarries⟩
      | _ => cases htype

/-! ### Frames -/

/-- The two bytes of the length are read with the high one first. -/
theorem payloadLen_eq (high low : UInt8) :
    (high.toNat <<< 8) ||| low.toNat = 256 * high.toNat + low.toNat := by
  have hlow : low.toNat < 2 ^ 8 := low.toNat_lt
  rw [← Nat.shiftLeft_add_eq_or_of_lt hlow, Nat.shiftLeft_eq, Nat.mul_comm]

/-- What the bytes begin with does not change when more of them arrive. -/
theorem Begins.append {b : List UInt8} {t : MessageType} {payload : List UInt8}
    (h : Begins b t payload) (suffix : List UInt8) : Begins (b ++ suffix) t payload := by
  obtain ⟨high, low, rest, rfl, hlength⟩ := h
  exact ⟨high, low, rest ++ suffix, by simp, hlength⟩

/-- The length in the header says where the payload ends. -/
theorem Begins.unique {b : List UInt8} {t t' : MessageType} {payload payload' : List UInt8}
    (h : Begins b t payload) (h' : Begins b t' payload') : t = t' ∧ payload = payload' := by
  obtain ⟨high, low, rest, rfl, hlength⟩ := h
  obtain ⟨high', low', rest', heq, hlength'⟩ := h'
  simp only [List.cons.injEq, true_and] at heq
  obtain ⟨rfl, rfl, htype, happend⟩ := heq
  exact ⟨MessageType.toU8_injective htype,
    (List.append_inj happend (hlength.symm.trans hlength')).1⟩

/-- A message takes up the header and its payload. -/
theorem Begins.length_le {b : List UInt8} {t : MessageType} {payload : List UInt8}
    (h : Begins b t payload) : headerSize + payload.length ≤ b.length := by
  obtain ⟨high, low, rest, rfl, hlength⟩ := h
  simp [headerSize]
  omega

/-- If the bytes begin with a frame, the rest of decoding is about its payload. -/
theorem Begins.decode_eq {p : Prost} {b : List UInt8} {t : MessageType} {payload : List UInt8}
    (h : Begins b t payload) :
    decode p b = (decodePayload p t payload).map fun m => (m, headerSize + payload.length) := by
  obtain ⟨high, low, rest, rfl, hlength⟩ := h
  have htype : MessageType.tryFrom t.toU8 = .ok t := MessageType.tryFrom_eq_ok.mpr rfl
  have hcomplete : ¬ (payload ++ rest).length < payload.length := by
    rw [List.length_append]
    omega
  simp only [decode, protocolVersion, ne_eq, not_true_eq_false, if_false, payloadLen_eq, hlength,
    htype]
  show (if (payload ++ rest).length < payload.length then _ else _) = _
  rw [if_neg hcomplete, List.take_left]
  rfl

/-- What decoding accepts begins with a frame. -/
theorem begins_of_decode {p : Prost} {b : List UInt8} {r : Message × Nat}
    (h : decode p b = .ok r) : ∃ t payload, Begins b t payload := by
  match b with
  | version :: high :: low :: msgType :: rest =>
    simp only [decode] at h
    split at h
    · cases h
    · rename_i hversion
      obtain ⟨t, htype, h⟩ := bind_eq_ok.mp h
      split at h
      · cases h
      · rename_i hcomplete
        -- The checks that have passed are the fields of the header.
        rw [MessageType.tryFrom_eq_ok.mp htype, not_not.mp hversion]
        rw [payloadLen_eq] at hcomplete
        refine ⟨t, rest.take (256 * high.toNat + low.toNat), high, low,
          rest.drop (256 * high.toNat + low.toNat), ?_, ?_⟩
        · rw [List.take_append_drop]
          rfl
        · rw [List.length_take]
          omega
  | [] => cases h
  | [_] => cases h
  | [_, _] => cases h
  | [_, _, _] => cases h

/-- Decoding returns a message exactly if the bytes begin with a frame that carries it, with its
numbers narrowed. -/
theorem decode_eq_ok {p : Prost} {b : List UInt8} {m : Message} {n : Nat} :
    decode p b = .ok (m, n) ↔
      ∃ payload, Begins b m.messageType payload ∧ n = headerSize + payload.length ∧
        Carries p.narrow payload m := by
  -- The number of bytes is a function of the payload.
  have hmap : ∀ {x : Except Error Message} {k : Nat},
      (x.map fun m => (m, k)) = .ok (m, n) ↔ x = .ok m ∧ n = k := by
    intro x k
    cases x with
    | error e => simp [Except.map]
    | ok a => simp [Except.map, eq_comm]
  constructor
  · intro h
    obtain ⟨t, payload, hbegins⟩ := begins_of_decode h
    rw [hbegins.decode_eq, hmap, decodePayload_eq_ok] at h
    obtain ⟨⟨rfl, hcarries⟩, hn⟩ := h
    exact ⟨payload, hbegins, hn, hcarries⟩
  · rintro ⟨payload, hbegins, hn, hcarries⟩
    rw [hbegins.decode_eq, hmap, decodePayload_eq_ok]
    exact ⟨⟨rfl, hcarries⟩, hn⟩

end Message

end RustBond
