import RustBond.Server.Deadline

/-!
# `RustBond.Proofs.Server.Deadline`: outgoing updates hide a silent peer

The sleep is made anew in every iteration. So a batch of updates moves the deadline, although it
says nothing about the peer. `bounded_iff` shows when the deadline stays within twice the timeout
after the last read: as long as every batch is written within the timeout after it. Then the loop
does not run any longer without a read either, as the sleep that ends too late ends it
(`timeout_of_sleep`).

Otherwise nothing bounds it. Batches that follow each other faster than the timeout keep the loop
from looking at the peer for ever (`starved`).
-/

set_option autoImplicit false

namespace RustBond.Deadline

/-- The deadline is at most twice the timeout after the last read, and the loop has not run any
longer. -/
structure Bounded (keepaliveTimeout : Nat) (x : Deadline) : Prop where
  deadline_le : x.deadline ≤ x.lastReceived + 2 * keepaliveTimeout
  now_le : x.now ≤ x.lastReceived + 2 * keepaliveTimeout

/-- A batch is written within the timeout after the last read. -/
def Prompt (keepaliveTimeout : Nat) (x : Deadline) (l : Nat × Branch) : Prop :=
  l.2 = .batch true → l.1 ≤ x.lastReceived + keepaliveTimeout

instance (keepaliveTimeout : Nat) (x : Deadline) (l : Nat × Branch) :
    Decidable (Prompt keepaliveTimeout x l) := inferInstanceAs (Decidable (_ → _))

variable {keepaliveTimeout start : Nat} {x x' : Deadline} {l : Nat × Branch}
  {ls : List (Nat × Branch)}

/-- What an iteration that ends at `time` does to the clock. -/
inductive Moves (keepaliveTimeout : Nat) (x x' : Deadline) (l : Nat × Branch) : Prop
  | sent : l.2 = .batch true → x'.lastReceived = x.lastReceived →
      x'.deadline = l.1 + keepaliveTimeout → x'.result = none → Moves keepaliveTimeout x x' l
  | slept : l.2 = .sleep → l.1 = x.deadline → l.1 ≤ x.lastReceived + keepaliveTimeout →
      x'.lastReceived = x.lastReceived → x'.deadline = l.1 + keepaliveTimeout →
      x'.result = none → Moves keepaliveTimeout x x' l
  | received (error : Option Error) : l.2 = .read (.bytes error) → x'.lastReceived = l.1 →
      x'.deadline = (if error.isSome then x.deadline else l.1 + keepaliveTimeout) →
      x'.result = error.map .error → Moves keepaliveTimeout x x' l
  | timedOut : l.2 = .sleep → l.1 = x.deadline → x.lastReceived + keepaliveTimeout < l.1 →
      x'.lastReceived = x.lastReceived → x'.deadline = x.deadline →
      x'.result = some (.error .timeout) → Moves keepaliveTimeout x x' l
  | left : l.2 ≠ .batch true → l.2 ≠ .sleep → x'.lastReceived = x.lastReceived →
      x'.deadline = x.deadline → x'.result ≠ none → Moves keepaliveTimeout x x' l

/-- A step is taken in a running loop, before the deadline. -/
theorem step_eq_some (h : step keepaliveTimeout x l = some x') :
    x.result = none ∧ x.now ≤ l.1 ∧ l.1 ≤ x.deadline ∧ x'.now = l.1 ∧
      Moves keepaliveTimeout x x' l := by
  obtain ⟨time, b⟩ := l
  unfold step at h
  split at h
  · cases h
  · rename_i henabled
    simp only [not_or, Bool.not_eq_true, Option.isSome_eq_false_iff, Option.isNone_iff_eq_none,
      Nat.not_lt] at henabled
    obtain ⟨hrunning, hnow, hdeadline⟩ := henabled
    refine ⟨hrunning, hnow, hdeadline, ?_⟩
    cases b with
    | shutdown => cases h; exact ⟨rfl, .left (by simp) (by simp) rfl rfl (by simp [leave])⟩
    | batch written =>
      cases written with
      | true => cases h; exact ⟨rfl, .sent rfl rfl rfl hrunning⟩
      | false => cases h; exact ⟨rfl, .left (by simp) (by simp) rfl rfl (by simp [leave])⟩
    | read result =>
      cases result with
      | closed => cases h; exact ⟨rfl, .left (by simp) (by simp) rfl rfl (by simp [leave])⟩
      | failed => cases h; exact ⟨rfl, .left (by simp) (by simp) rfl rfl (by simp [leave])⟩
      | bytes error =>
        cases error with
        | none => cases h; exact ⟨rfl, .received none rfl rfl rfl hrunning⟩
        | some error => cases h; exact ⟨rfl, .received (some error) rfl rfl rfl rfl⟩
    | sleep =>
      simp only [branch] at h
      split at h
      · cases h
      · rename_i hready
        have htime : time = x.deadline := by omega
        split at h
        · rename_i hlate
          have hafter : x.lastReceived + keepaliveTimeout < time := Nat.add_lt_of_lt_sub' hlate
          cases h
          exact ⟨rfl, .timedOut rfl htime hafter rfl rfl rfl⟩
        · rename_i hintime
          have hwithin : time ≤ x.lastReceived + keepaliveTimeout := by
            have hle : time - x.lastReceived ≤ keepaliveTimeout := Nat.not_lt.mp hintime
            omega
          cases h
          exact ⟨rfl, .slept rfl htime hwithin rfl rfl hrunning⟩

/-- A prompt step keeps the bound. -/
theorem Bounded.step (h : Bounded keepaliveTimeout x) (hordered : x.lastReceived ≤ x.now)
    (hok : Prompt keepaliveTimeout x l) (hstep : Deadline.step keepaliveTimeout x l = some x') :
    Bounded keepaliveTimeout x' := by
  obtain ⟨-, hnow, hbefore, hnow', hmoves⟩ := step_eq_some hstep
  have hbounded := h.deadline_le
  cases hmoves with
  | sent hbatch hlast hdeadline _ =>
    have hprompt := hok hbatch
    exact ⟨by omega, by omega⟩
  | slept _ _ hwithin hlast hdeadline _ => exact ⟨by omega, by omega⟩
  | received error _ hlast hdeadline _ =>
    refine ⟨?_, by omega⟩
    rw [hdeadline]
    split
    · omega
    · omega
  | timedOut _ _ _ hlast hdeadline _ => exact ⟨by omega, by omega⟩
  | left _ _ hlast hdeadline _ => exact ⟨by omega, by omega⟩

/-- Nothing has been received later than now. -/
theorem lastReceived_le_now (hrun : (lts keepaliveTimeout start).Run ls x) :
    x.lastReceived ≤ x.now := by
  refine hrun.invariant (P := fun x => x.lastReceived ≤ x.now) (Nat.le_refl start) ?_
  intro _ x l x' _ h hstep
  obtain ⟨-, hnow, -, hnow', hmoves⟩ := step_eq_some hstep
  rw [hnow']
  cases hmoves with
  | received error _ hlast _ _ => exact Nat.le_of_eq hlast
  | sent _ hlast _ _ => exact hlast ▸ Nat.le_trans h hnow
  | slept _ _ _ hlast _ _ => exact hlast ▸ Nat.le_trans h hnow
  | timedOut _ _ _ hlast _ _ => exact hlast ▸ Nat.le_trans h hnow
  | left _ _ hlast _ _ => exact hlast ▸ Nat.le_trans h hnow

/-- **The deadline of a silent peer.** In a run of the main loop, the deadline is never later than
twice the timeout after the last read, and neither is the end of an iteration, if and only if no
batch is written later than the timeout after the last read. -/
theorem bounded_iff (hrun : (lts keepaliveTimeout start).Run ls x) :
    (lts keepaliveTimeout start).Always (Bounded keepaliveTimeout) ls ↔
      (lts keepaliveTimeout start).Throughout (Prompt keepaliveTimeout) ls := by
  refine Lts.always_iff_throughout (Q := Bounded keepaliveTimeout) ?_ ?_ ?_ ?_ hrun
  · refine ⟨?_, Nat.le_add_right ..⟩
    show start + keepaliveTimeout ≤ start + 2 * keepaliveTimeout
    omega
  · exact fun _ _ _ h => h
  · exact fun _ _ _ _ hrun h hok hstep => h.step (lastReceived_le_now hrun) hok hstep
  · intro _ x l x' _ _ hstep h' hbatch
    obtain ⟨-, -, -, -, hmoves⟩ := step_eq_some hstep
    have hbounded := h'.deadline_le
    cases hmoves with
    | sent _ hlast hdeadline _ => omega
    | slept hsleep _ _ _ _ _ => rw [hbatch] at hsleep; cases hsleep
    | received error hread _ _ _ => rw [hbatch] at hread; cases hread
    | timedOut hsleep _ _ _ _ _ => rw [hbatch] at hsleep; cases hsleep
    | left hother _ _ _ _ => exact absurd hbatch hother

/-- A sleep that ends later than the timeout after the last read ends the loop. -/
theorem timeout_of_sleep (hlate : x.lastReceived + keepaliveTimeout < x.deadline)
    (hsleep : l.2 = .sleep) (hstep : step keepaliveTimeout x l = some x') :
    x'.result = some (.error .timeout) := by
  obtain ⟨-, -, -, -, hmoves⟩ := step_eq_some hstep
  cases hmoves with
  | sent hbatch _ _ _ => rw [hsleep] at hbatch; cases hbatch
  | slept _ htime hwithin _ _ _ => omega
  | received error hread _ _ _ => rw [hsleep] at hread; cases hread
  | timedOut _ _ _ _ _ hresult => exact hresult
  | left _ hother _ _ _ => exact absurd hsleep hother

/-- Outgoing batches alone keep the main loop running for any time, without a look at the peer. -/
theorem starved (hpositive : 0 < keepaliveTimeout) (start n : Nat) :
    ∃ ls x, (lts keepaliveTimeout start).Run ls x ∧ (∀ l ∈ ls, l.2 = .batch true) ∧
      x.lastReceived = start ∧ x.result = none ∧ start + n ≤ x.now := by
  -- The sleep of every iteration is a whole one.
  suffices h : ∃ ls x, (lts keepaliveTimeout start).Run ls x ∧ (∀ l ∈ ls, l.2 = .batch true) ∧
      x = ⟨start + n, start, start + n + keepaliveTimeout, none⟩ by
    obtain ⟨ls, x, hrun, hbatches, rfl⟩ := h
    exact ⟨ls, _, hrun, hbatches, rfl, rfl, Nat.le_refl _⟩
  induction n with
  | zero => exact ⟨[], _, Lts.Run.nil, by simp, rfl⟩
  | succ n ih =>
    obtain ⟨ls, x, hrun, hbatches, rfl⟩ := ih
    refine ⟨ls ++ [(start + (n + 1), .batch true)], _, hrun.snoc ?_, ?_, rfl⟩
    · show step _ _ _ = _
      rw [step, if_neg]
      · rfl
      · simp only [Option.isSome_none, Bool.false_eq_true, false_or, not_or, Nat.not_lt]
        omega
    · intro l hl
      rcases List.mem_append.mp hl with hl | hl
      · exact hbatches l hl
      · rw [List.mem_singleton.mp hl]

/-- A timeout of 12.5 seconds, and batches after 10 and 20 seconds: the deadline is after 32.5
seconds, although nothing has been received. -/
theorem not_bounded :
    ¬ ∀ (keepaliveTimeout start : Nat) (ls : List (Nat × Branch)) (x : Deadline),
      0 < keepaliveTimeout → (lts keepaliveTimeout start).Run ls x →
      x.deadline ≤ x.lastReceived + 2 * keepaliveTimeout := by
  intro h
  have hrun : (lts 12500000000 0).Run
      [(10000000000, .batch true), (20000000000, .batch true)] _ := Lts.Run.of_exec (by decide)
  exact absurd (h _ _ _ _ (by decide) hrun) (by decide)

/-- A batch after 10 seconds, and one after 20 with a read between them. -/
theorem bounded_afterRead :
    ∃ x, (lts 12500000000 0).Run [(10000000000, .batch true), (15000000000, .read (.bytes none)),
        (20000000000, .batch true)] x ∧
      (lts 12500000000 0).Always (Bounded 12500000000) [(10000000000, .batch true),
        (15000000000, .read (.bytes none)), (20000000000, .batch true)] := by
  have hrun : (lts 12500000000 0).Run [(10000000000, .batch true),
    (15000000000, .read (.bytes none)), (20000000000, .batch true)] _ :=
    Lts.Run.of_exec (by decide)
  exact ⟨_, hrun, (bounded_iff hrun).mpr (Lts.throughout_of_check (by decide))⟩

end RustBond.Deadline
