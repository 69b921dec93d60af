import Mathlib.Data.Nat.Basic

/-!
# `RustBond.Lib.Duration`: spans of time

`std::time::Duration` is a number of whole seconds, of 64 bits, and a rest below one second in
nanoseconds. An operation computes on the two parts, and fails where the seconds overflow.
`asNanos` is the number that a duration stands for, and each operation has one lemma, which
says what it computes on this number.
-/

set_option autoImplicit false

/-- A span of time. -/
structure Duration where
  secs : Nat
  nanos : Nat
  secs_lt : secs < 18446744073709551616
  nanos_lt : nanos < 1000000000
deriving DecidableEq

namespace Duration

/-- The number of nanoseconds. -/
def asNanos (d : Duration) : Nat := d.secs * 1000000000 + d.nanos

def fromSecs (secs : UInt64) : Duration := ⟨secs.toNat, 0, secs.toNat_lt, by decide⟩

/-- The seconds of a product: those that the nanoseconds make up count too. -/
def mulSecs (d : Duration) (rhs : Nat) : Nat := d.secs * rhs + d.nanos * rhs / 1000000000

/-- `checked_mul`. `none` stands for an overflow. -/
def checkedMul (d : Duration) (rhs : UInt32) : Option Duration :=
  if h : d.mulSecs rhs.toNat < 18446744073709551616 then
    some ⟨d.mulSecs rhs.toNat, d.nanos * rhs.toNat % 1000000000, h, Nat.mod_lt _ (by decide)⟩
  else none

/-- The nanoseconds of a quotient: those of the rest of the seconds count too. -/
def divNanos (d : Duration) (rhs : Nat) : Nat :=
  d.nanos / rhs + (d.secs % rhs * 1000000000 + d.nanos % rhs) / rhs

/-- The nanoseconds of a quotient, without the intermediate carry: what is left of the seconds is
divided together with the nanoseconds. -/
theorem divNanos_eq (d : Duration) {rhs : Nat} (h : 0 < rhs) :
    d.divNanos rhs = (d.secs % rhs * 1000000000 + d.nanos) / rhs := by
  have hnanos : d.secs % rhs * 1000000000 + d.nanos
      = (d.secs % rhs * 1000000000 + d.nanos % rhs) + d.nanos / rhs * rhs := by
    rw [Nat.add_assoc, Nat.mul_comm (d.nanos / rhs), Nat.mod_add_div]
  rw [divNanos, hnanos, Nat.add_mul_div_right _ _ h, Nat.add_comm]

/-- The nanoseconds of a quotient are less than a second, so the result is well formed. -/
theorem divNanos_lt (d : Duration) {rhs : Nat} (h : 0 < rhs) : d.divNanos rhs < 1000000000 := by
  rw [divNanos_eq d h, Nat.div_lt_iff_lt_mul h]
  have hrest : d.secs % rhs + 1 ≤ rhs := Nat.mod_lt _ h
  calc d.secs % rhs * 1000000000 + d.nanos
      < d.secs % rhs * 1000000000 + 1000000000 := Nat.add_lt_add_left d.nanos_lt _
    _ = (d.secs % rhs + 1) * 1000000000 := (Nat.succ_mul ..).symm
    _ ≤ rhs * 1000000000 := Nat.mul_le_mul_right _ hrest
    _ = 1000000000 * rhs := Nat.mul_comm ..

/-- `checked_div`. `none` stands for a division by zero. -/
def checkedDiv (d : Duration) (rhs : UInt32) : Option Duration :=
  if h : 0 < rhs.toNat then
    some ⟨d.secs / rhs.toNat, d.divNanos rhs.toNat,
      Nat.lt_of_le_of_lt (Nat.div_le_self ..) d.secs_lt, d.divNanos_lt h⟩
  else none

/-- Whole seconds have no nanoseconds besides. -/
@[simp] theorem asNanos_fromSecs (secs : UInt64) :
    (fromSecs secs).asNanos = secs.toNat * 1000000000 := Nat.add_zero _

/-- The product has the nanoseconds of the exact product: what the nanoseconds carry is in the
seconds. -/
theorem asNanos_mul (d : Duration) (rhs : Nat) :
    d.asNanos * rhs = d.mulSecs rhs * 1000000000 + d.nanos * rhs % 1000000000 := by
  rw [asNanos, mulSecs, Nat.add_mul, Nat.mul_right_comm, Nat.add_mul, Nat.add_assoc,
    Nat.div_add_mod']

/-- A product that does not overflow is exact. -/
theorem asNanos_of_checkedMul {d e : Duration} {rhs : UInt32} (h : d.checkedMul rhs = some e) :
    e.asNanos = d.asNanos * rhs.toNat := by
  unfold checkedMul at h
  split at h
  · cases h
    exact (asNanos_mul d rhs.toNat).symm
  · cases h

/-- A product fits unless its seconds overflow. -/
theorem checkedMul_isSome {d : Duration} {rhs : UInt32} :
    (d.checkedMul rhs).isSome ↔ d.asNanos * rhs.toNat < 18446744073709551616 * 1000000000 := by
  have hrest : d.nanos * rhs.toNat % 1000000000 < 1000000000 := Nat.mod_lt _ (by decide)
  rw [asNanos_mul]
  unfold checkedMul
  split
  · exact iff_of_true rfl (by omega)
  · exact iff_of_false (by simp) (by omega)

/-- A quotient is exact but for the fraction of a nanosecond. -/
theorem asNanos_of_checkedDiv {d e : Duration} {rhs : UInt32} (h : d.checkedDiv rhs = some e) :
    e.asNanos = d.asNanos / rhs.toNat := by
  unfold checkedDiv at h
  split at h
  · rename_i hpos
    cases h
    -- The seconds are the quotient and a rest, and the rest goes to the nanoseconds.
    have hsecs : d.asNanos = (d.secs % rhs.toNat * 1000000000 + d.nanos)
        + rhs.toNat * (d.secs / rhs.toNat * 1000000000) := by
      rw [asNanos, ← Nat.mul_assoc, Nat.add_right_comm, ← Nat.add_mul, Nat.mod_add_div]
    rw [hsecs, Nat.add_mul_div_left _ _ hpos, ← divNanos_eq d hpos, Nat.add_comm]
    rfl
  · cases h

/-- A duration can be divided by every number but zero. -/
theorem checkedDiv_isSome {d : Duration} {rhs : UInt32} :
    (d.checkedDiv rhs).isSome ↔ 0 < rhs.toNat := by
  unfold checkedDiv
  split
  · rename_i hpos
    exact iff_of_true rfl hpos
  · rename_i hzero
    exact iff_of_false (by simp) hzero

end Duration
