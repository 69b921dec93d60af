import Mathlib.Data.List.Basic
import Mathlib.Logic.Relation

/-!
# `RustBond.Lib.Duplex`: two tasks on a connection of bounded buffers

A connection has two ends, and a bounded first-in-first-out buffer in each direction. At each
end there is one task. It writes or it reads, and while a write is in progress it does nothing
else: the write blocks until the last byte fits into the outgoing buffer.

* `Deadlocked`: both ends are in a write, and both buffers are full. There is no step
  (`step_of_deadlocked`).
* `Doomed`: both ends are in a write of more bytes than there is room for. Nobody reads, so it
  stays like this (`doomed_of_step`), and once the bytes that fit are taken the two ends are
  deadlocked (`doomed_iff_deadlock`).
* A connection becomes doomed by one kind of step only: an end begins a write that does not
  fit, while the other end is in a write that does not fit (`Overcommits`).
-/

set_option autoImplicit false

variable {B : Type} {cap l r : Nat}

/-- One end: the bytes in its outgoing buffer, and what is left of the write in progress. -/
structure DuplexEnd (B : Type) (cap : Nat) where
  buffer : List B
  writing : List B
  fits : buffer.length ≤ cap

namespace DuplexEnd

def idle : DuplexEnd B cap := ⟨[], [], Nat.zero_le _⟩

def room (w : DuplexEnd B cap) : Nat := cap - w.buffer.length

/-- A write begins. There is only one at a time. -/
def write (w : DuplexEnd B cap) (bytes : List B) : Option (DuplexEnd B cap) :=
  if w.writing = [] then some { w with writing := bytes } else none

/-- The buffer takes the next `n` bytes of the write in progress. -/
def push (w : DuplexEnd B cap) (n : Nat) : Option (DuplexEnd B cap) :=
  if h : 0 < n ∧ n ≤ w.writing.length ∧ n ≤ w.room then
    some
      { buffer := w.buffer ++ w.writing.take n
        writing := w.writing.drop n
        fits := by
          have hfits := w.fits
          have hroom := h.2.2
          unfold room at hroom
          rw [List.length_append, List.length_take]
          omega }
  else none

/-- The other end takes `n` bytes out of the buffer. -/
def drain (w : DuplexEnd B cap) (n : Nat) : Option (DuplexEnd B cap) :=
  if 0 < n ∧ n ≤ w.buffer.length then
    some
      { w with
        buffer := w.buffer.drop n
        fits := by
          have hfits := w.fits
          rw [List.length_drop]
          omega }
  else none

/-- The write waits for room. -/
def Blocked (w : DuplexEnd B cap) : Prop := w.writing ≠ [] ∧ w.buffer.length = cap

/-- The write does not fit. -/
def Stuck (w : DuplexEnd B cap) : Prop := w.room < w.writing.length

instance (w : DuplexEnd B cap) : Decidable w.Blocked := instDecidableAnd

instance (w : DuplexEnd B cap) : Decidable w.Stuck := Nat.decLt _ _

variable {w w' : DuplexEnd B cap}

/-- The room of a buffer and what is in it make up its capacity. -/
theorem room_eq (w : DuplexEnd B cap) : w.room + w.buffer.length = cap :=
  Nat.sub_add_cancel w.fits

/-- A write that waits for room does not fit. -/
theorem Blocked.stuck (h : w.Blocked) : w.Stuck := by
  have hroom := w.room_eq
  have hpos := List.length_pos_iff.mpr h.1
  have hfull := h.2
  unfold Stuck
  omega

/-- A write that does not fit has something to write. -/
theorem Stuck.writing_ne_nil (h : w.Stuck) : w.writing ≠ [] :=
  List.length_pos_iff.mp (Nat.zero_lt_of_lt h)

/-- A write begins when there is none in progress. -/
theorem write_eq_some {bytes : List B} (h : w.write bytes = some w') :
    w.writing = [] ∧ w' = { w with writing := bytes } := by
  unfold write at h
  split at h
  · rename_i hnil
    cases h
    exact ⟨hnil, rfl⟩
  · cases h

/-- What the buffer takes is taken from its room. -/
theorem push_eq_some {n : Nat} (h : w.push n = some w') :
    0 < n ∧ w.writing.length = w'.writing.length + n ∧ w.room = w'.room + n := by
  unfold push at h
  split at h
  · rename_i hn
    cases h
    have hroom := hn.2.2
    have htake : min n w.writing.length = n := Nat.min_eq_left hn.2.1
    unfold room at hroom ⊢
    simp only [List.length_drop, List.length_append, List.length_take, htake]
    exact ⟨hn.1, by omega, by omega⟩
  · cases h

/-- A write that does not fit still does not after the buffer has taken some of it. -/
theorem stuck_of_push {n : Nat} (h : w.push n = some w') : w'.Stuck ↔ w.Stuck := by
  obtain ⟨-, hwriting, hroom⟩ := push_eq_some h
  unfold Stuck
  omega

/-- A buffer takes as much as there is room for. -/
theorem exists_push_blocked (h : w.Stuck) :
    w.Blocked ∨ ∃ w', w.push w.room = some w' ∧ w'.Blocked := by
  have heq := w.room_eq
  by_cases hroom : w.room = 0
  · exact .inl ⟨h.writing_ne_nil, by omega⟩
  · have hpush : 0 < w.room ∧ w.room ≤ w.writing.length ∧ w.room ≤ w.room :=
      ⟨Nat.pos_of_ne_zero hroom, Nat.le_of_lt h, Nat.le_refl _⟩
    refine .inr ⟨_, dif_pos hpush, ?_, ?_⟩
    · rw [← List.length_pos_iff, List.length_drop]
      exact Nat.sub_pos_of_lt h
    · rw [List.length_append, List.length_take, Nat.min_eq_left hpush.2.1]
      omega

end DuplexEnd

structure Duplex (B : Type) (l r : Nat) where
  left : DuplexEnd B l
  right : DuplexEnd B r

namespace Duplex

/-- What the task at one end does, or what its outgoing buffer does. -/
inductive Op (B : Type) where
  | write (bytes : List B)
  | push (n : Nat)
  | read (n : Nat)
deriving DecidableEq

inductive Label (B : Type) where
  | left (op : Op B)
  | right (op : Op B)
deriving DecidableEq

def idle : Duplex B l r := ⟨.idle, .idle⟩

def swap (d : Duplex B l r) : Duplex B r l := ⟨d.right, d.left⟩

def stepLeft (d : Duplex B l r) (op : Op B) : Option (Duplex B l r) :=
  match op with
  | .write bytes => (d.left.write bytes).map fun w => { d with left := w }
  | .push n => (d.left.push n).map fun w => { d with left := w }
  | .read n =>
    -- The task reads only when it does not write.
    if d.left.writing = [] then (d.right.drain n).map fun w => { d with right := w } else none

def step (d : Duplex B l r) (label : Label B) : Option (Duplex B l r) :=
  match label with
  | .left op => d.stepLeft op
  | .right op => (d.swap.stepLeft op).map swap

def Deadlocked (d : Duplex B l r) : Prop := d.left.Blocked ∧ d.right.Blocked

def Doomed (d : Duplex B l r) : Prop := d.left.Stuck ∧ d.right.Stuck

instance (d : Duplex B l r) : Decidable d.Deadlocked := instDecidableAnd

instance (d : Duplex B l r) : Decidable d.Doomed := instDecidableAnd

/-- The left end begins a write that does not fit, while the right end is in one. -/
def OvercommitsLeft (d : Duplex B l r) (op : Op B) : Prop :=
  match op with
  | .write bytes => d.left.room < bytes.length ∧ d.right.Stuck
  | .push _ => False
  | .read _ => False

def Overcommits (d : Duplex B l r) (label : Label B) : Prop :=
  match label with
  | .left op => d.OvercommitsLeft op
  | .right op => d.swap.OvercommitsLeft op

instance (d : Duplex B l r) (op : Op B) : Decidable (d.OvercommitsLeft op) :=
  match op with
  | .write _ => instDecidableAnd
  | .push _ => instDecidableFalse
  | .read _ => instDecidableFalse

instance (d : Duplex B l r) (label : Label B) : Decidable (d.Overcommits label) :=
  match label with
  | .left op => inferInstanceAs (Decidable (d.OvercommitsLeft op))
  | .right op => inferInstanceAs (Decidable (d.swap.OvercommitsLeft op))

/-- A buffer takes some bytes. -/
inductive Pushes (d d' : Duplex B l r) : Prop
  | left (n : Nat) : d.step (.left (.push n)) = some d' → Pushes d d'
  | right (n : Nat) : d.step (.right (.push n)) = some d' → Pushes d d'

variable {d d' : Duplex B l r} {label : Label B}

/-- It does not matter which end is called the left one. -/
theorem doomed_swap : d.swap.Doomed ↔ d.Doomed := and_comm

/-- Two ends that write nothing are not doomed. -/
theorem doomed_idle : ¬ (idle : Duplex B l r).Doomed :=
  fun h => h.1.writing_ne_nil rfl

/-- A deadlock is a doomed state whose buffers are full. -/
theorem Deadlocked.doomed (h : d.Deadlocked) : d.Doomed := ⟨h.1.stuck, h.2.stuck⟩

/-- A step of the right end is one of the left end of the swapped pipe, so each result is proved
for one end. -/
theorem step_right_eq_some {op : Op B} (h : d.step (.right op) = some d') :
    d.swap.stepLeft op = some d'.swap := by
  obtain ⟨d₁, hstep, rfl⟩ := Option.map_eq_some_iff.mp h
  exact hstep

/-- A step at the left end dooms the connection only if it begins a write that does not fit, and
the right end is in one. -/
theorem doomed_of_stepLeft {op : Op B} (h : d.stepLeft op = some d') :
    d'.Doomed ↔ d.Doomed ∨ d.OvercommitsLeft op := by
  cases op with
  | write bytes =>
    obtain ⟨w, hwrite, rfl⟩ := Option.map_eq_some_iff.mp h
    obtain ⟨hidle, rfl⟩ := DuplexEnd.write_eq_some hwrite
    have hnot : ¬ d.Doomed := fun hdoomed => hdoomed.1.writing_ne_nil hidle
    rw [or_iff_right hnot]
    exact Iff.rfl
  | push n =>
    obtain ⟨w, hpush, rfl⟩ := Option.map_eq_some_iff.mp h
    simp only [OvercommitsLeft, or_false]
    exact and_congr_left' (DuplexEnd.stuck_of_push hpush)
  | read n =>
    simp only [stepLeft] at h
    split at h
    · rename_i hidle
      obtain ⟨w, hdrain, rfl⟩ := Option.map_eq_some_iff.mp h
      -- The reader is not in a write, neither before nor after.
      simp only [OvercommitsLeft, or_false]
      constructor
      · exact fun hdoomed => absurd hidle hdoomed.1.writing_ne_nil
      · exact fun hdoomed => absurd hidle hdoomed.1.writing_ne_nil
    · cases h

/-- The connection is doomed after a step exactly if it was before, or the step overcommits. -/
theorem doomed_of_step (h : d.step label = some d') :
    d'.Doomed ↔ d.Doomed ∨ d.Overcommits label := by
  cases label with
  | left op => exact doomed_of_stepLeft h
  | right op =>
    rw [← doomed_swap, doomed_of_stepLeft (step_right_eq_some h), doomed_swap]
    rfl

/-- Moving bytes into a buffer takes as much from the write as from the room, so it neither dooms
nor saves the ends. -/
theorem doomed_of_pushes (h : Pushes d d') : d'.Doomed ↔ d.Doomed := by
  cases h with
  | left n hstep =>
    rw [doomed_of_step hstep]
    exact or_iff_left id
  | right n hstep =>
    rw [doomed_of_step hstep]
    exact or_iff_left id

/-- The same for any number of moves: this is how a doomed state runs into its deadlock. -/
theorem doomed_of_reflTransGen (h : Relation.ReflTransGen Pushes d d') :
    d'.Doomed ↔ d.Doomed := by
  induction h with
  | refl => exact Iff.rfl
  | tail _ hpush ih => exact (doomed_of_pushes hpush).trans ih

/-- A doomed connection is one that is deadlocked once the buffers have taken what fits. -/
theorem doomed_iff_deadlock :
    d.Doomed ↔ ∃ d', Relation.ReflTransGen Pushes d d' ∧ d'.Deadlocked := by
  constructor
  · intro h
    -- First the left buffer is filled, then the right one.
    have hleft : ∃ d₁ : Duplex B l r,
        Relation.ReflTransGen Pushes d d₁ ∧ d₁.left.Blocked ∧ d₁.right = d.right := by
      rcases DuplexEnd.exists_push_blocked h.1 with hblocked | ⟨w, hpush, hblocked⟩
      · exact ⟨d, .refl, hblocked, rfl⟩
      · have hstep : d.step (.left (.push d.left.room)) = some { d with left := w } :=
          congrArg (Option.map _) hpush
        exact ⟨_, .single (.left _ hstep), hblocked, rfl⟩
    obtain ⟨d₁, hpushes, hblocked, hright⟩ := hleft
    have hstuck : d₁.right.Stuck := hright ▸ h.2
    rcases DuplexEnd.exists_push_blocked hstuck with hblocked' | ⟨w, hpush, hblocked'⟩
    · exact ⟨d₁, hpushes, hblocked, hblocked'⟩
    · have hleftStep : d₁.swap.stepLeft (.push d₁.right.room)
          = some (swap { d₁ with right := w }) := congrArg (Option.map _) hpush
      have hstep : d₁.step (.right (.push d₁.right.room)) = some { d₁ with right := w } :=
        congrArg (Option.map swap) hleftStep
      exact ⟨_, hpushes.tail (.right _ hstep), hblocked, hblocked'⟩
  · rintro ⟨d', hpushes, hdeadlocked⟩
    exact (doomed_of_reflTransGen hpushes).mp hdeadlocked.doomed

/-- In a deadlock the left end can do nothing. It is in a write, so it neither reads nor begins
another one, and its buffer is full. -/
theorem stepLeft_of_deadlocked (h : d.Deadlocked) (op : Op B) : d.stepLeft op = none := by
  cases op with
  | write bytes =>
    have hwrite : d.left.write bytes = none := if_neg h.1.1
    exact congrArg (Option.map _) hwrite
  | push n =>
    have hpush : d.left.push n = none := by
      refine dif_neg fun hn => ?_
      have hroom := d.left.room_eq
      have hfull := h.1.2
      omega
    exact congrArg (Option.map _) hpush
  | read n => exact if_neg h.1.1

/-- A deadlocked connection has no step. -/
theorem step_of_deadlocked (h : d.Deadlocked) (label : Label B) : d.step label = none := by
  cases label with
  | left op => exact stepLeft_of_deadlocked h op
  | right op =>
    have hleft : d.swap.stepLeft op = none := stepLeft_of_deadlocked ⟨h.2, h.1⟩ op
    exact congrArg (Option.map swap) hleft

end Duplex
