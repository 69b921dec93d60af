import RustBond.Keepalive

/-!
# `RustBond.Proofs.Keepalive`: an interval of zero

Both sides negotiate the same durations (`negotiate_comm`), and no interval makes them overflow
(`negotiate_eq`). But nothing keeps an interval of zero out. It is the default of the field, and
the configuration of the server does not exclude it either. Then the timeout is zero as well. So
the handshake most likely fails. If the KEEPALIVE is there at once, then it succeeds, and the task
of the client panics, with a state that stays established (`start_eq_panicked`).

`safe_iff` shows that this is all that can go wrong.
-/

set_option autoImplicit false

namespace RustBond.Keepalive

/-- What the two sides rely on, for a client and a server that advertise these intervals. -/
structure Safe (client server : UInt32) : Prop where
  agree : negotiate client server = negotiate server client
  fits : (negotiate client server).isSome ∧ (negotiate server client).isSome
  starts : ∀ arrival reply state, start .client client server arrival reply ≠ .panicked state
  serves : ∀ arrival reply state, handlePeer server client arrival reply ≠ .panicked state
  longer : ∀ c ∈ negotiate client server, ∀ s ∈ negotiate server client,
    c.keepaliveDuration.asNanos < c.keepaliveTimeout.asNanos ∧
      c.keepaliveDuration.asNanos < s.keepaliveTimeout.asNanos

variable {own other : UInt32} {arrival : Nat} {reply : Except Error Message}

/-- The smaller of the two intervals does not depend on the side. -/
theorem min_intervals_comm (own other : UInt32) : min own other = min other own := by
  rw [UInt32.min_def, UInt32.min_def]
  split <;> split <;> grind

/-- The two sides negotiate the same. -/
theorem negotiate_comm (own other : UInt32) : negotiate own other = negotiate other own := by
  unfold negotiate
  rw [min_intervals_comm]

/-- The durations fit, and the timeout is two and a half times the period. -/
theorem negotiate_eq (own other : UInt32) :
    ∃ n, negotiate own other = some n ∧
      n.keepaliveDuration.asNanos = (min own other).toNat * 1000000000 ∧
      n.keepaliveTimeout.asNanos = (min own other).toNat * 1000000000 * 5 / 2 := by
  have hlt : (min own other).toNat < 2 ^ 32 := (min own other).toNat_lt
  have hsecs : (Duration.fromSecs (min own other).toUInt64).asNanos
      = (min own other).toNat * 1000000000 := by
    rw [Duration.asNanos_fromSecs, UInt32.toNat_toUInt64]
  -- Five times an interval of 32 bits is far below the seconds of a duration.
  have hfits : (Duration.fromSecs (min own other).toUInt64).asNanos * (5 : UInt32).toNat
      < 18446744073709551616 * 1000000000 := by
    have hfive : (5 : UInt32).toNat = 5 := rfl
    rw [hsecs, hfive]
    omega
  obtain ⟨product, hproduct⟩ := Option.isSome_iff_exists.mp (Duration.checkedMul_isSome.mpr hfits)
  obtain ⟨timeout, htimeout⟩ : ∃ timeout, product.checkedDiv 2 = some timeout :=
    Option.isSome_iff_exists.mp (Duration.checkedDiv_isSome.mpr (by decide))
  refine ⟨⟨Duration.fromSecs (min own other).toUInt64, timeout⟩, ?_, hsecs, ?_⟩
  · simp [negotiate, hproduct, htimeout]
  · rw [Duration.asNanos_of_checkedDiv htimeout, Duration.asNanos_of_checkedMul hproduct, hsecs]
    rfl

/-- A KEEPALIVE arrives in time for a timeout of zero only if it is there at once. -/
theorem receiveMessageWithTimeout_eq_ok {duration : Duration} {msg : Message} :
    receiveMessageWithTimeout duration arrival reply = .ok msg ↔
      arrival ≤ duration.asNanos ∧ reply = .ok msg := by
  unfold receiveMessageWithTimeout
  split
  · rename_i hle
    exact ⟨fun h => ⟨hle, h⟩, fun h => h.2⟩
  · rename_i hlt
    exact iff_of_false (by simp) fun h => hlt h.1

/-- There is no interval for a period of zero, where tokio panics. -/
theorem interval_eq_none {period : Duration} : interval period = none ↔ period.asNanos = 0 := by
  unfold interval
  split
  · exact iff_of_false (by simp) (by omega)
  · exact iff_of_true rfl (by omega)

/-- Only the client creates an interval when it enters its loop, so only the client panics, and
its state says that it is established then. -/
theorem enterLoop_eq_panicked {side : Side} {n : Negotiated} {state : ConnectionState} :
    enterLoop side n = .panicked state ↔
      side = .client ∧ n.keepaliveDuration.asNanos = 0 ∧ state = .established := by
  cases side with
  | server =>
    refine iff_of_false (fun h => by cases h) ?_
    rintro ⟨h, -⟩
    cases h
  | client =>
    rw [← interval_eq_none]
    show (interval n.keepaliveDuration).elim _ _ = _ ↔ _
    cases interval n.keepaliveDuration with
    | none => simp [eq_comm]
    | some period => simp

/-- A task panics exactly if it is the client's, the interval is zero and the KEEPALIVE is there at
once. The state that the client has published is established. -/
theorem start_eq_panicked {side : Side} {state : ConnectionState} :
    start side own other arrival reply = .panicked state ↔
      side = .client ∧ min own other = 0 ∧ arrival = 0 ∧ reply = .ok .keepalive ∧
        state = .established := by
  obtain ⟨n, hn, hduration, htimeout⟩ := negotiate_eq own other
  have hzero : n.keepaliveDuration.asNanos = 0 ↔ min own other = 0 := by
    rw [hduration, ← UInt32.toNat_inj, UInt32.toNat_zero]
    omega
  have harrival : min own other = 0 → (arrival ≤ n.keepaliveTimeout.asNanos ↔ arrival = 0) := by
    intro hmin
    rw [htimeout, hmin]
    simp
  rw [start, hn]
  show received side n _ = _ ↔ _
  cases hreceive : receiveMessageWithTimeout n.keepaliveTimeout arrival reply with
  | error error =>
    refine iff_of_false (fun h => by cases h) ?_
    rintro ⟨-, hmin, hnow, hreply, -⟩
    have hok := receiveMessageWithTimeout_eq_ok.mpr ⟨(harrival hmin).mpr hnow, hreply⟩
    rw [hreceive] at hok
    cases hok
  | ok msg =>
    obtain ⟨hle, rfl⟩ := receiveMessageWithTimeout_eq_ok.mp hreceive
    rw [received]
    split
    · rename_i hkeepalive
      rw [enterLoop_eq_panicked, hzero, hkeepalive]
      constructor
      · rintro ⟨hside, hmin, hstate⟩
        exact ⟨hside, hmin, (harrival hmin).mp hle, rfl, hstate⟩
      · rintro ⟨hside, hmin, -, -, hstate⟩
        exact ⟨hside, hmin, hstate⟩
    · rename_i hother
      refine iff_of_false (fun h => by cases h) ?_
      rintro ⟨-, -, -, hmsg, -⟩
      exact hother (Except.ok.inj hmsg)

/-- The client of the handshake without a clock gets to its main loop exactly if its timer does
not panic. -/
theorem startsLoop_iff {n : Negotiated} (h : negotiate own other = some n) :
    Handshake.startsLoop .client (min own other) = true ↔ interval n.keepaliveDuration ≠ none := by
  obtain ⟨n', hn', hduration, -⟩ := negotiate_eq own other
  rw [h] at hn'
  cases hn'
  rw [Ne, interval_eq_none, hduration, Handshake.startsLoop, bne_iff_ne, Ne, ← UInt32.toNat_inj,
    UInt32.toNat_zero]
  omega

/-- The negotiated interval is zero exactly if one of the two is. -/
theorem min_eq_zero : min own other = 0 ↔ own = 0 ∨ other = 0 := by
  rw [UInt32.min_def]
  split <;> grind

/-- **An interval of zero.** The client and the server can rely on what they negotiate if and only
if neither of them advertises zero. -/
theorem safe_iff (client server : UInt32) : Safe client server ↔ client ≠ 0 ∧ server ≠ 0 := by
  rw [← not_or, ← min_eq_zero]
  obtain ⟨n, hn, hduration, htimeout⟩ := negotiate_eq client server
  constructor
  · intro h hmin
    exact h.starts 0 (.ok .keepalive) .established
      (start_eq_panicked.mpr ⟨rfl, hmin, rfl, rfl, rfl⟩)
  · intro hmin
    have hpositive : 0 < (min client server).toNat := by
      rw [Nat.pos_iff_ne_zero, Ne, ← UInt32.toNat_zero, UInt32.toNat_inj]
      exact hmin
    have hlonger : n.keepaliveDuration.asNanos < n.keepaliveTimeout.asNanos := by
      rw [hduration, htimeout]
      omega
    refine ⟨negotiate_comm client server, ?_, ?_, ?_, ?_⟩
    · rw [← negotiate_comm client server, hn]
      exact ⟨rfl, rfl⟩
    · intro arrival reply state h
      exact hmin (start_eq_panicked.mp h).2.1
    · intro arrival reply state h
      cases (start_eq_panicked.mp h).1
    · rw [← negotiate_comm client server, hn]
      intro c hc s hs
      cases hc
      cases hs
      exact ⟨hlonger, hlonger⟩

/-- A server advertises zero, and its KEEPALIVE is there at once. -/
theorem runConnection_panics :
    (¬ ∀ client server : UInt32, Safe client server) ∧
      runConnection 0 0 (.ok .keepalive) = .panicked .established := by
  refine ⟨?_, start_eq_panicked.mpr ⟨rfl, rfl, rfl, rfl, rfl⟩⟩
  intro h
  exact (h defaultKeepaliveInterval 0).starts 0 (.ok .keepalive) .established
    (start_eq_panicked.mpr ⟨rfl, rfl, rfl, rfl, rfl⟩)

end RustBond.Keepalive
