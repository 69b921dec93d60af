import RustBond.Proofs.Wire.RoundTrip
import RustBond.Wire.Framing

/-!
# `RustBond.Proofs.Wire.Framing`: reassembly does not depend on segmentation

What is decoded from a buffer is decoded from any extension of it, unless the error is one of
the two that mean an incomplete message (`decode_stable`). So the loop over a buffer can be cut
anywhere: to process a buffer and then what is left of it with more bytes is to process the
longer buffer (`process_append`). With it reading chunk after chunk is reading their
concatenation at once (`readChunks_eq`).

The loop terminates as a decoded message is never empty (`exists_process`). `process` is its
result.
-/

set_option autoImplicit false

namespace RustBond

/-! ### Decoding an extended buffer -/

/-- The error for a short header asks for more bytes. -/
theorem needsMore_tooShort : Error.needsMore (.protocol "message too short") = true := by
  have hinfix : "too short".toList <:+: "message too short".toList :=
    ⟨"message ".toList, [], by simp⟩
  rw [Error.needsMore, String.contains_string_iff.mpr hinfix, Bool.true_or]

/-- The error for a short payload asks for more bytes. -/
theorem needsMore_truncated : Error.needsMore (.protocol "message truncated") = true := by
  have hinfix : "truncated".toList <:+: "message truncated".toList :=
    ⟨"message ".toList, [], by simp⟩
  rw [Error.needsMore, String.contains_string_iff.mpr hinfix, Bool.or_true]

namespace Message

variable {p : Prost}

/-- Either the message is incomplete, and the error says so, or more bytes change nothing. -/
theorem decode_stable (p : Prost) (b : List UInt8) :
    (∃ e, decode p b = .error e ∧ e.needsMore = true) ∨ ∀ t, decode p (b ++ t) = decode p b := by
  match b with
  | version :: high :: low :: msgType :: rest =>
    by_cases hversion : version ≠ protocolVersion
    · -- The version is checked before anything else is.
      refine .inr fun t => ?_
      simp only [List.cons_append, decode, if_pos hversion]
    · cases htype : MessageType.tryFrom msgType with
      | error e =>
        -- The type is checked before the length is.
        refine .inr fun t => ?_
        simp only [List.cons_append, decode, if_neg hversion, htype]
        rfl
      | ok ty =>
        by_cases hlength : rest.length < (high.toNat <<< 8) ||| low.toNat
        · refine .inl ⟨_, ?_, needsMore_truncated⟩
          simp only [decode, if_neg hversion, htype]
          exact if_pos hlength
        · -- The payload is complete, so what follows it is not looked at.
          refine .inr fun t => ?_
          have hbegins : Begins (version :: high :: low :: msgType :: rest) ty
              (rest.take (256 * high.toNat + low.toNat)) := by
            rw [payloadLen_eq] at hlength
            rw [MessageType.tryFrom_eq_ok.mp htype, not_not.mp hversion]
            refine ⟨high, low, rest.drop (256 * high.toNat + low.toNat), ?_, ?_⟩
            · rw [List.take_append_drop]
              rfl
            · rw [List.length_take]
              omega
          rw [hbegins.decode_eq, (hbegins.append t).decode_eq]
  | [] => exact .inl ⟨_, rfl, needsMore_tooShort⟩
  | [_] => exact .inl ⟨_, rfl, needsMore_tooShort⟩
  | [_, _] => exact .inl ⟨_, rfl, needsMore_tooShort⟩
  | [_, _, _] => exact .inl ⟨_, rfl, needsMore_tooShort⟩

/-- A decoded message does not depend on what follows it in the buffer. -/
theorem decode_append_of_ok {b : List UInt8} {r : Message × Nat} (h : decode p b = .ok r)
    (t : List UInt8) : decode p (b ++ t) = .ok r := by
  rcases decode_stable p b with ⟨e, herror, -⟩ | hstable
  · rw [h] at herror
    cases herror
  · rw [hstable, h]

/-- An error that is not for want of bytes is final: no more bytes can mend it. -/
theorem decode_append_of_error {b : List UInt8} {e : Error} (h : decode p b = .error e)
    (hfatal : e.needsMore = false) (t : List UInt8) : decode p (b ++ t) = .error e := by
  rcases decode_stable p b with ⟨e', herror, hmore⟩ | hstable
  · rw [h] at herror
    cases herror
    rw [hfatal] at hmore
    cases hmore
  · rw [hstable, h]

/-- A decoded message takes some bytes, and no more than there are. -/
theorem consumed_bounds {b : List UInt8} {m : Message} {n : Nat} (h : decode p b = .ok (m, n)) :
    0 < n ∧ n ≤ b.length := by
  obtain ⟨payload, hbegins, rfl, -⟩ := decode_eq_ok.mp h
  exact ⟨Nat.add_pos_left (by decide) _, hbegins.length_le⟩

/-- Each decoded message makes the buffer shorter, so the loop over the buffer ends. -/
theorem length_drop_lt {b : List UInt8} {m : Message} {n : Nat} (h : decode p b = .ok (m, n)) :
    (b.drop n).length < b.length := by
  have hbounds := consumed_bounds h
  rw [List.length_drop]
  omega

end Message

namespace Framing

/-! ### The loop -/

section
variable {S : Type} {p : Prost} {handle : S → Message → S × Option Error} {s s' : S}
  {b : List UInt8} {m : Message} {n : Nat} {e : Error}

variable (p handle) in
/-- The rounds of the loop: induction over what they leave in the buffer. -/
theorem rounds {motive : S → List UInt8 → Prop}
    (nil : ∀ s, motive s [])
    (next : ∀ s b m n s', Message.decode p b = .ok (m, n) → handle s m = (s', none) →
      motive s' (b.drop n) → motive s b)
    (stop : ∀ s b m n s' e, Message.decode p b = .ok (m, n) → handle s m = (s', some e) →
      motive s b)
    (wait : ∀ s b e, b ≠ [] → Message.decode p b = .error e → e.needsMore = true → motive s b)
    (fail : ∀ s b e, b ≠ [] → Message.decode p b = .error e → e.needsMore = false → motive s b)
    (s : S) (b : List UInt8) : motive s b := by
  induction hn : b.length using Nat.strongRecOn generalizing s b with
  | ind n ih =>
    subst hn
    by_cases hempty : b = []
    · rw [hempty]
      exact nil s
    · cases hdecode : Message.decode p b with
      | ok r =>
        cases hhandle : handle s r.1 with
        | mk s' error =>
          cases error with
          | none =>
            -- A decoded message takes at least a byte, so the rest is shorter.
            have hrest := ih _ (Message.length_drop_lt hdecode) s' (b.drop r.2) rfl
            exact next s b r.1 r.2 s' hdecode hhandle hrest
          | some e => exact stop s b r.1 r.2 s' e hdecode hhandle
      | error e =>
        cases hmore : e.needsMore with
        | true => exact wait s b e hempty hdecode hmore
        | false => exact fail s b e hempty hdecode hmore

/-- An empty buffer leaves the loop with nothing left over. -/
theorem processBuffer_nil (fuel : Nat) (s : S) :
    processBuffer p handle (fuel + 1) s [] = some (s, .ok []) := by
  rw [processBuffer, if_pos rfl]

/-- A message is decoded from some bytes only. -/
theorem ne_nil_of_decode (h : Message.decode p b = .ok (m, n)) : b ≠ [] := by
  rintro rfl
  cases h

/-- A decoded and handled message is taken off the buffer, and the loop goes on. -/
theorem processBuffer_next (fuel : Nat) (hdecode : Message.decode p b = .ok (m, n))
    (hhandle : handle s m = (s', none)) :
    processBuffer p handle (fuel + 1) s b = processBuffer p handle fuel s' (b.drop n) := by
  rw [processBuffer, if_neg (ne_nil_of_decode hdecode)]
  simp only [hdecode, hhandle]

/-- An error of the handler ends the loop with that error. -/
theorem processBuffer_stop (fuel : Nat) (hdecode : Message.decode p b = .ok (m, n))
    (hhandle : handle s m = (s', some e)) :
    processBuffer p handle (fuel + 1) s b = some (s', .error e) := by
  rw [processBuffer, if_neg (ne_nil_of_decode hdecode)]
  simp only [hdecode, hhandle]

/-- An incomplete message ends the loop, and its bytes are kept for the next read. -/
theorem processBuffer_wait (fuel : Nat) (hempty : b ≠ []) (hdecode : Message.decode p b = .error e)
    (hmore : e.needsMore = true) :
    processBuffer p handle (fuel + 1) s b = some (s, .ok b) := by
  rw [processBuffer, if_neg hempty]
  simp only [hdecode, hmore, if_true]

/-- Bytes that are no message end the loop with their error. -/
theorem processBuffer_fail (fuel : Nat) (hempty : b ≠ []) (hdecode : Message.decode p b = .error e)
    (hfatal : e.needsMore = false) :
    processBuffer p handle (fuel + 1) s b = some (s, .error e) := by
  rw [processBuffer, if_neg hempty]
  simp only [hdecode, hfatal, Bool.false_eq_true, if_false]

/-- The loop terminates: with more rounds than there are bytes, it has a result, and always the
same. -/
theorem exists_process (p : Prost) (handle : S → Message → S × Option Error) (s : S)
    (b : List UInt8) :
    ∃ r, ∀ fuel, b.length < fuel → processBuffer p handle fuel s b = some r := by
  -- Every case has at least one round.
  have hsucc : ∀ {k fuel : Nat}, k < fuel → ∃ fuel', fuel = fuel' + 1 ∧ k ≤ fuel' := by
    intro k fuel h
    cases fuel with
    | zero => cases h
    | succ fuel' => exact ⟨fuel', rfl, Nat.le_of_lt_succ h⟩
  induction s, b using rounds p handle with
  | nil s =>
    refine ⟨(s, .ok []), fun fuel hfuel => ?_⟩
    obtain ⟨fuel', rfl, -⟩ := hsucc hfuel
    exact processBuffer_nil fuel' s
  | next s b m n s' hdecode hhandle ih =>
    obtain ⟨r, hr⟩ := ih
    refine ⟨r, fun fuel hfuel => ?_⟩
    obtain ⟨fuel', rfl, hle⟩ := hsucc hfuel
    rw [processBuffer_next fuel' hdecode hhandle]
    exact hr fuel' (Nat.lt_of_lt_of_le (Message.length_drop_lt hdecode) hle)
  | stop s b m n s' e hdecode hhandle =>
    refine ⟨(s', .error e), fun fuel hfuel => ?_⟩
    obtain ⟨fuel', rfl, -⟩ := hsucc hfuel
    exact processBuffer_stop fuel' hdecode hhandle
  | wait s b e hempty hdecode hmore =>
    refine ⟨(s, .ok b), fun fuel hfuel => ?_⟩
    obtain ⟨fuel', rfl, -⟩ := hsucc hfuel
    exact processBuffer_wait fuel' hempty hdecode hmore
  | fail s b e hempty hdecode hfatal =>
    refine ⟨(s, .error e), fun fuel hfuel => ?_⟩
    obtain ⟨fuel', rfl, -⟩ := hsucc hfuel
    exact processBuffer_fail fuel' hempty hdecode hfatal

/-- What the loop makes of a buffer. -/
def process (p : Prost) (handle : S → Message → S × Option Error) (s : S) (b : List UInt8) :
    S × Except Error (List UInt8) :=
  (processBuffer p handle (b.length + 1) s b).getD (s, .ok b)

/-- With more fuel than bytes the loop comes to its end, so the result does not depend on the
fuel. -/
theorem processBuffer_eq (p : Prost) (handle : S → Message → S × Option Error) (s : S)
    {b : List UInt8} {fuel : Nat} (h : b.length < fuel) :
    processBuffer p handle fuel s b = some (process p handle s b) := by
  obtain ⟨r, hr⟩ := exists_process p handle s b
  unfold process
  rw [hr fuel h, hr (b.length + 1) (Nat.lt_succ_self _)]
  rfl

/-- `process` on an empty buffer. -/
theorem process_nil (s : S) : process p handle s [] = (s, .ok []) := by
  unfold process
  rw [processBuffer_nil]
  rfl

/-- `process` on a buffer whose first message is handled. -/
theorem process_next (hdecode : Message.decode p b = .ok (m, n))
    (hhandle : handle s m = (s', none)) :
    process p handle s b = process p handle s' (b.drop n) := by
  have hrest := processBuffer_eq p handle s' (Message.length_drop_lt hdecode)
  unfold process at hrest ⊢
  rw [processBuffer_next _ hdecode hhandle, hrest]
  rfl

/-- `process` on a buffer whose first message the handler refuses. -/
theorem process_stop (hdecode : Message.decode p b = .ok (m, n))
    (hhandle : handle s m = (s', some e)) : process p handle s b = (s', .error e) := by
  unfold process
  rw [processBuffer_stop _ hdecode hhandle]
  rfl

/-- `process` on the beginning of a message. -/
theorem process_wait (hempty : b ≠ []) (hdecode : Message.decode p b = .error e)
    (hmore : e.needsMore = true) : process p handle s b = (s, .ok b) := by
  unfold process
  rw [processBuffer_wait _ hempty hdecode hmore]
  rfl

/-- `process` on bytes that are no message. -/
theorem process_fail (hempty : b ≠ []) (hdecode : Message.decode p b = .error e)
    (hfatal : e.needsMore = false) : process p handle s b = (s, .error e) := by
  unfold process
  rw [processBuffer_fail _ hempty hdecode hfatal]
  rfl

/-- The loop can be cut: more bytes are processed after what is left of the buffer, unless the
connection has ended. -/
theorem process_append (s : S) (b t : List UInt8) :
    process p handle s (b ++ t) =
      match process p handle s b with
      | (s', .ok rest) => process p handle s' (rest ++ t)
      | (s', .error e) => (s', .error e) := by
  induction s, b using rounds p handle with
  | nil s =>
    simp only [process_nil, List.nil_append]
  | next s b m n s' hdecode hhandle ih =>
    have hbounds := Message.consumed_bounds hdecode
    rw [process_next hdecode hhandle,
      process_next (Message.decode_append_of_ok hdecode t) hhandle,
      List.drop_append_of_le_length hbounds.2, ih]
  | stop s b m n s' e hdecode hhandle =>
    -- The connection ends with this message, and the rest is not looked at.
    rw [process_stop hdecode hhandle,
      process_stop (Message.decode_append_of_ok hdecode t) hhandle]
  | wait s b e hempty hdecode hmore => rw [process_wait hempty hdecode hmore]
  | fail s b e hempty hdecode hfatal =>
    rw [process_fail hempty hdecode hfatal,
      process_fail (fun h => hempty (List.append_eq_nil_iff.mp h).1)
        (Message.decode_append_of_error hdecode hfatal t) hfatal]

/-- What is left in the buffer is left again. -/
theorem process_rest {rest : List UInt8} (h : process p handle s b = (s', .ok rest)) :
    process p handle s' rest = (s', .ok rest) := by
  induction s, b using rounds p handle with
  | nil s =>
    rw [process_nil] at h
    cases h
    exact process_nil _
  | next s b m n s'' hdecode hhandle ih =>
    rw [process_next hdecode hhandle] at h
    exact ih h
  | stop s b m n s'' e hdecode hhandle =>
    rw [process_stop hdecode hhandle] at h
    cases h
  | wait s b e hempty hdecode hmore =>
    rw [process_wait hempty hdecode hmore] at h
    cases h
    exact process_wait hempty hdecode hmore
  | fail s b e hempty hdecode hfatal =>
    rw [process_fail hempty hdecode hfatal] at h
    cases h

/-- Reading chunks is reading their concatenation. `b` is what is left of earlier reads. -/
theorem readChunks_eq (chunks : List (List UInt8)) (h : process p handle s b = (s, .ok b)) :
    readChunks p handle s (.ok b) chunks = some (process p handle s (b ++ chunks.flatten)) := by
  induction chunks generalizing s b with
  | nil => rw [readChunks, List.flatten_nil, List.append_nil, h]
  | cons chunk chunks ih =>
    have hread : readChunk p handle s b chunk = some (process p handle s (b ++ chunk)) :=
      processBuffer_eq p handle s (Nat.lt_succ_self _)
    rw [readChunks, hread, Option.bind_some, List.flatten_cons, ← List.append_assoc,
      process_append s (b ++ chunk)]
    cases hprocess : process p handle s (b ++ chunk) with
    | mk s' ended =>
      cases ended with
      | ok rest => exact ih (process_rest hprocess)
      | error e => rw [readChunks]

end

/-! ### Streams of messages -/

/-- Processing frames hands on their messages in order. -/
theorem process_frames {p : Prost} (side : Side) (before : List Message)
    {frames : List (List UInt8)} {ms : List Message}
    (h : List.Forall₂ (Message.IsFrame p) frames ms) :
    process p (side.handle collect) before frames.flatten = (before ++ ms, .ok []) := by
  induction h generalizing before with
  | nil => rw [List.flatten_nil, process_nil, List.append_nil]
  | @cons b m frames ms hframe _ ih =>
    -- Collecting never ends the connection.
    have hhandle : side.handle collect before m = (before ++ [m], none) := by
      cases side with
      | client => rfl
      | server => rfl
    rw [List.flatten_cons, process_next (Message.decode_append_of_ok hframe _) hhandle,
      List.drop_left, ih, List.append_assoc, List.singleton_append]

/-- Every list of messages has frames. -/
theorem exists_frames {p : Prost} (hp : p.Standard) (ms : List Message) :
    ∃ frames, ms.mapM (Message.encode p) = .ok frames ∧
      List.Forall₂ (Message.IsFrame p) frames (ms.map Message.normalise) := by
  induction ms with
  | nil => exact ⟨[], rfl, .nil⟩
  | cons m ms ih =>
    obtain ⟨frames, hframes, hforall⟩ := ih
    obtain ⟨b, hencode, -, hdecode⟩ := Message.exists_frame hp m
    refine ⟨b :: frames, ?_, .cons ?_ hforall⟩
    · rw [List.mapM_cons, hencode]
      show (do let bs ← ms.mapM (Message.encode p); return b :: bs : Except Error _) = _
      rw [hframes]
      rfl
    · have hframe := hdecode []
      rwa [List.append_nil] at hframe

/-- On both sides, reading terminates on every chunk, does not depend on how the stream is cut
into chunks, and hands on the messages that were sent. -/
theorem readChunks_segmentation (p : Prost) (hp : p.Standard) (side : Side) {S : Type}
    (handleMessage : S → Message → S × Except Error Unit) :
    (∀ s msgBuf, ∃ r, ∀ fuel, msgBuf.length < fuel →
      processBuffer p (side.handle handleMessage) fuel s msgBuf = some r) ∧
    (∀ s (chunks chunks' : List (List UInt8)), chunks.flatten = chunks'.flatten →
      ∃ r, readChunks p (side.handle handleMessage) s (.ok []) chunks = some r ∧
        readChunks p (side.handle handleMessage) s (.ok []) chunks' = some r) ∧
    ∀ ms : List Message, ∃ frames, ms.mapM (Message.encode p) = .ok frames ∧
      ∀ chunks : List (List UInt8), chunks.flatten = frames.flatten →
        readChunks p (side.handle collect) [] (.ok []) chunks
          = some (ms.map Message.normalise, .ok []) := by
  refine ⟨exists_process p _, fun s chunks chunks' hflatten => ?_, fun ms => ?_⟩
  · refine ⟨_, readChunks_eq chunks (process_nil s), ?_⟩
    rw [hflatten]
    exact readChunks_eq chunks' (process_nil s)
  · obtain ⟨frames, hframes, hforall⟩ := exists_frames hp ms
    refine ⟨frames, hframes, fun chunks hflatten => ?_⟩
    rw [readChunks_eq chunks (process_nil []), List.nil_append, hflatten,
      process_frames side [] hforall, List.nil_append]

/-- A KEEPALIVE and a SUBSCRIBE, cut in the header of each of them. -/
theorem readChunks_twoCuts :
    ∃ r, readChunks .strict (Side.server.handle collect) [] (.ok [])
        [[1, 0], [0, 2, 1, 0, 2], [3, 8, 100]] = some r ∧
      readChunks .strict (Side.server.handle collect) [] (.ok [])
        [[1, 0, 0, 2, 1, 0, 2, 3, 8, 100]] = some r :=
  (readChunks_segmentation .strict Prost.standard_strict .server collect).2.1 [] _ _ rfl

end Framing

end RustBond
