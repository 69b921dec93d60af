import RustBond.Lib.Inevitable
import RustBond.Lib.Projection

/-!
# `RustBond.Lib.Watch`: waiting for a condition on watched values

A transition system publishes values, each through a channel that keeps the latest one and the
number of sends. A task waits for a condition on them (`Check`). It reads one value after another,
and then either returns, or sleeps until there is a channel with a send that it does not know of.
Of all such channels it learns of one, and reads all values again.

Between two reads the system goes on, so the values that are read need not be there at the same
time. `verdict_of_asleep` shows that this does no harm to a task that sleeps: the condition does
not hold then. `moments_of_returned` says what a result means, and `inevitable_settled` that the
task returns or sleeps once the system stands still.
-/

set_option autoImplicit false

/-- A loop over values, and what it leads to. The task goes on waiting for `none`. -/
structure Check (V F R : Type) where
  start : F
  look : F → V → F
  verdict : F → Option R

namespace Check

variable {V F R : Type} (check : Check V F R)

/-- The verdict on a list of values. -/
def judge (values : List V) : Option R := check.verdict (values.foldl check.look check.start)

end Check

/-- Where the task is. -/
inductive WatchPhase (I F R : Type) where
  | idle
  | checking (receivers rest : List I) (flags : F)
  | selecting (receivers : List I)
  | returned (result : R)

/-- A system whose values are watched, and the task that waits. -/
structure Watch (S I F R : Type) where
  system : S
  /-- The number of sends on a channel. -/
  version : I → Nat
  /-- The sends that the task knows of. -/
  seen : I → Nat
  phase : WatchPhase I F R

inductive WatchLabel (L I : Type) where
  | system (l : L)
  /-- The value is sent again. -/
  | resend (i : I)
  | wait (receivers : List I)
  | look
  | changed (i : I)

namespace Watch

variable {S L I V F R : Type} [DecidableEq I] [DecidableEq V]

section
variable (T : Lts S L) (obs : S → I → V) (check : Check V F R) (valid : List I → Prop)
  [DecidablePred valid]

def step (w : Watch S I F R) (l : WatchLabel L I) : Option (Watch S I F R) :=
  match l with
  | .system l =>
    (T.step w.system l).map fun s =>
      { w with
        system := s
        version := fun i => if obs s i = obs w.system i then w.version i else w.version i + 1 }
  | .resend i => some { w with version := Function.update w.version i (w.version i + 1) }
  | .wait receivers =>
    match w.phase with
    | .idle | .returned _ =>
      if valid receivers then
        some { w with seen := fun _ => 0, phase := .checking receivers receivers check.start }
      else none
    | .checking _ _ _ | .selecting _ => none
  | .look =>
    match w.phase with
    | .checking receivers (i :: rest) flags =>
      some { w with phase := .checking receivers rest (check.look flags (obs w.system i)) }
    | .checking receivers [] flags =>
      match check.verdict flags with
      | some result => some { w with phase := .returned result }
      | none => some { w with phase := .selecting receivers }
    | .idle | .selecting _ | .returned _ => none
  | .changed i =>
    match w.phase with
    | .selecting receivers =>
      if i ∈ receivers ∧ w.version i ≠ w.seen i then
        some { w with
          seen := Function.update w.seen i (w.version i)
          phase := .checking receivers receivers check.start }
      else none
    | .idle | .checking _ _ _ | .returned _ => none

/-- A task that does not wait yet. -/
def init : Watch S I F R where
  system := T.init
  version := fun _ => 0
  seen := fun _ => 0
  phase := .idle

def lts : Lts (Watch S I F R) (WatchLabel L I) := ⟨init T, step T obs check valid⟩

end

/-- The task makes the step. -/
def isOwn (l : WatchLabel L I) : Bool :=
  match l with
  | .look => true
  | .changed _ => true
  | .system _ | .resend _ | .wait _ => false

/-- The task knows of all sends, and sleeps. -/
structure Asleep (w : Watch S I F R) (receivers : List I) : Prop where
  selecting : w.phase = .selecting receivers
  seen : ∀ i ∈ receivers, w.version i = w.seen i

/-- The task waits. -/
def Waiting (w : Watch S I F R) : Prop :=
  match w.phase with
  | .checking _ _ _ | .selecting _ => True
  | .idle | .returned _ => False

section
variable (T : Lts S L) (obs : S → I → V) (check : Check V F R) (valid : List I → Prop)
  [DecidablePred valid]

/-- There was a moment during the last wait at which the value was `v`. -/
def Moment (ls : List (WatchLabel L I)) (i : I) (v : V) : Prop :=
  ∃ before after w, ls = before ++ after ∧ (lts T obs check valid).Run before w ∧ w.Waiting ∧
    (∀ receivers, .wait receivers ∉ after) ∧ obs w.system i = v

/-- What has been read. A value that the task knows all sends of is still there. -/
def Read (ls : List (WatchLabel L I)) (w : Watch S I F R) (readings : List (I × V)) : Prop :=
  ∀ p ∈ readings, Moment T obs check valid ls p.1 p.2 ∧
    (w.version p.1 = w.seen p.1 → p.2 = obs w.system p.1)

/-- The readings of the task. -/
def Current (ls : List (WatchLabel L I)) (w : Watch S I F R) : Prop :=
  match w.phase with
  | .idle => True
  | .checking receivers rest flags => ∃ readings : List (I × V),
    valid receivers ∧ receivers = readings.map Prod.fst ++ rest ∧
      flags = (readings.map Prod.snd).foldl check.look check.start ∧
      Read T obs check valid ls w readings
  | .selecting receivers => ∃ readings : List (I × V),
    valid receivers ∧ receivers = readings.map Prod.fst ∧
      check.judge (readings.map Prod.snd) = none ∧ Read T obs check valid ls w readings
  | .returned result => ∃ readings : List (I × V),
    valid (readings.map Prod.fst) ∧ check.judge (readings.map Prod.snd) = some result ∧
      ∀ p ∈ readings, Moment T obs check valid ls p.1 p.2

end

section
variable {T : Lts S L} {obs : S → I → V} {check : Check V F R} {valid : List I → Prop}
  [DecidablePred valid] {w w' : Watch S I F R} {ls : List (WatchLabel L I)}
  {l : WatchLabel L I}

/-- What a step does. -/
inductive Moves (T : Lts S L) (obs : S → I → V) (check : Check V F R) (valid : List I → Prop)
    (w w' : Watch S I F R) : WatchLabel L I → Prop
  | system {l : L} {s : S} (hs : T.step w.system l = some s)
      (hw' : w' = { w with
        system := s
        version := fun i =>
          if obs s i = obs w.system i then w.version i else w.version i + 1 }) :
      Moves T obs check valid w w' (.system l)
  | resend {i : I}
      (hw' : w' = { w with version := Function.update w.version i (w.version i + 1) }) :
      Moves T obs check valid w w' (.resend i)
  | wait {receivers : List I} (hvalid : valid receivers)
      (hw' : w' = { w with
        seen := fun _ => 0
        phase := .checking receivers receivers check.start }) :
      Moves T obs check valid w w' (.wait receivers)
  | looked {receivers rest : List I} {i : I} {flags : F}
      (hphase : w.phase = .checking receivers (i :: rest) flags)
      (hw' : w' = { w with
        phase := .checking receivers rest (check.look flags (obs w.system i)) }) :
      Moves T obs check valid w w' .look
  | returned {receivers : List I} {flags : F} {result : R}
      (hphase : w.phase = .checking receivers [] flags)
      (hverdict : check.verdict flags = some result)
      (hw' : w' = { w with phase := .returned result }) : Moves T obs check valid w w' .look
  | slept {receivers : List I} {flags : F} (hphase : w.phase = .checking receivers [] flags)
      (hverdict : check.verdict flags = none)
      (hw' : w' = { w with phase := .selecting receivers }) : Moves T obs check valid w w' .look
  | changed {receivers : List I} {i : I} (hphase : w.phase = .selecting receivers)
      (hmem : i ∈ receivers) (hnew : w.version i ≠ w.seen i)
      (hw' : w' = { w with
        seen := Function.update w.seen i (w.version i)
        phase := .checking receivers receivers check.start }) :
      Moves T obs check valid w w' (.changed i)

/-- The inversion of a step, for both parties. -/
theorem moves_of_step (hs : (lts T obs check valid).step w l = some w') :
    Moves T obs check valid w w' l := by
  cases l with
  | system l =>
    obtain ⟨s, hstep, heq⟩ := Option.map_eq_some_iff.mp hs
    exact .system hstep heq.symm
  | resend i =>
    cases hs
    exact .resend rfl
  | wait receivers =>
    simp only [lts, step] at hs
    split at hs
    · obtain ⟨hvalid, heq⟩ := Option.ite_none_right_eq_some.mp hs
      cases heq
      exact .wait hvalid rfl
    · obtain ⟨hvalid, heq⟩ := Option.ite_none_right_eq_some.mp hs
      cases heq
      exact .wait hvalid rfl
    · cases hs
    · cases hs
  | look =>
    simp only [lts, step] at hs
    split at hs
    · rename_i hphase
      cases hs
      exact .looked hphase rfl
    · rename_i hphase
      split at hs
      · rename_i hverdict
        cases hs
        exact .returned hphase hverdict rfl
      · rename_i hverdict
        cases hs
        exact .slept hphase hverdict rfl
    all_goals cases hs
  | changed i =>
    simp only [lts, step] at hs
    split at hs
    · rename_i hphase
      obtain ⟨⟨hmem, hnew⟩, heq⟩ := Option.ite_none_right_eq_some.mp hs
      cases heq
      exact .changed hphase hmem hnew rfl
    all_goals cases hs

/-- The system is a part of the whole. -/
theorem partOf_system : T.PartOf (lts T obs check valid) system fun l =>
    match l with
    | .system l => some l
    | _ => none := by
  refine ⟨rfl, ?_⟩
  intro w l w' hs
  cases moves_of_step hs with
  | system hstep hw' => exact hw' ▸ .inr ⟨_, rfl, hstep⟩
  | resend hw' | wait _ hw' | looked _ hw' | returned _ _ hw' | slept _ _ hw' | changed _ _ _ hw' =>
    exact hw' ▸ .inl ⟨rfl, rfl⟩

/-- A task never knows of more sends than there are. -/
theorem seen_le (hrun : (lts T obs check valid).Run ls w) (i : I) : w.seen i ≤ w.version i := by
  have hinit : ∀ i : I, (init T : Watch S I F R).seen i ≤ (init T : Watch S I F R).version i :=
    fun _ => Nat.le_refl 0
  refine Lts.Run.invariant (P := fun w : Watch S I F R => ∀ i, w.seen i ≤ w.version i) hinit ?_
    hrun i
  intro _ w l w' _ h hs i
  have hi := h i
  cases moves_of_step hs with
  | system _ hw' =>
    subst hw'
    simp only
    split <;> omega
  | @resend j hw' =>
    subst hw'
    by_cases hj : i = j
    · subst hj
      simp
      omega
    · simpa [Function.update_of_ne hj] using hi
  | wait _ hw' => exact hw' ▸ Nat.zero_le _
  | looked _ hw' | returned _ _ hw' | slept _ _ hw' => exact hw' ▸ hi
  | @changed _ j _ _ _ hw' =>
    subst hw'
    by_cases hj : i = j
    · subst hj
      simp
    · simpa [Function.update_of_ne hj] using hi

/-- A moment of the last wait is still one after a further step, unless this begins another wait.
-/
theorem Moment.snoc {i : I} {v : V} (h : Moment T obs check valid ls i v)
    (hl : ∀ receivers, l ≠ .wait receivers) : Moment T obs check valid (ls ++ [l]) i v := by
  obtain ⟨before, after, w, rfl, hrun, hwaiting, hnone, hv⟩ := h
  refine ⟨before, after ++ [l], w, by rw [List.append_assoc], hrun, hwaiting, ?_, hv⟩
  intro receivers hmem
  rcases List.mem_append.mp hmem with hmem | hmem
  · exact hnone receivers hmem
  · exact hl receivers (List.mem_singleton.mp hmem).symm

/-- What is there now is there at a moment of the wait. -/
theorem moment_now (hrun : (lts T obs check valid).Run ls w) (hwaiting : w.Waiting) (i : I) :
    Moment T obs check valid ls i (obs w.system i) :=
  ⟨ls, [], w, (List.append_nil ls).symm, hrun, hwaiting, by simp, rfl⟩

/-- A step of the system is a send wherever it changes a value. So the readings stay current. -/
theorem Read.system {readings : List (I × V)} {l : L} {s : S}
    (hrun : (lts T obs check valid).Run ls w)
    (h : Read T obs check valid ls w readings) :
    Read T obs check valid (ls ++ [.system l])
      { w with
        system := s
        version := fun i =>
          if obs s i = obs w.system i then w.version i else w.version i + 1 } readings := by
  intro p hp
  obtain ⟨hmoment, hcurrent⟩ := h p hp
  refine ⟨hmoment.snoc (by simp), ?_⟩
  intro hseen
  have hle := seen_le hrun p.1
  simp only at hseen ⊢
  split at hseen
  · rename_i hsame
    rw [hcurrent hseen, hsame]
  · omega

/-- A send makes the channel's value one that the task does not know all sends of, so nothing has
to hold of the old reading any more. -/
theorem Read.resend {readings : List (I × V)} {i : I} (hrun : (lts T obs check valid).Run ls w)
    (h : Read T obs check valid ls w readings) :
    Read T obs check valid (ls ++ [.resend i])
      { w with version := Function.update w.version i (w.version i + 1) } readings := by
  intro p hp
  obtain ⟨hmoment, hcurrent⟩ := h p hp
  refine ⟨hmoment.snoc (by simp), ?_⟩
  intro hseen
  have hle := seen_le hrun p.1
  by_cases hi : p.1 = i
  · subst hi
    simp only [Function.update_self] at hseen
    omega
  · simp only [Function.update_of_ne hi] at hseen
    exact hcurrent hseen

/-- In every run, the flags of a waiting task come from readings at moments of its own wait. -/
theorem current_of_run (hrun : (lts T obs check valid).Run ls w) :
    Current T obs check valid ls w := by
  induction hrun with
  | nil => trivial
  | @snoc ls w w' l hrun hs ih =>
    cases moves_of_step hs with
    | system _ hw' =>
      subst hw'
      unfold Current at ih ⊢
      simp only
      split at ih
      · trivial
      · obtain ⟨readings, hvalid, hreceivers, hflags, hread⟩ := ih
        exact ⟨readings, hvalid, hreceivers, hflags, hread.system hrun⟩
      · obtain ⟨readings, hvalid, hreceivers, hverdict, hread⟩ := ih
        exact ⟨readings, hvalid, hreceivers, hverdict, hread.system hrun⟩
      · obtain ⟨readings, hvalid, hverdict, hmoments⟩ := ih
        exact ⟨readings, hvalid, hverdict, fun p hp => (hmoments p hp).snoc (by simp)⟩
    | resend hw' =>
      subst hw'
      unfold Current at ih ⊢
      simp only
      split at ih
      · trivial
      · obtain ⟨readings, hvalid, hreceivers, hflags, hread⟩ := ih
        exact ⟨readings, hvalid, hreceivers, hflags, hread.resend hrun⟩
      · obtain ⟨readings, hvalid, hreceivers, hverdict, hread⟩ := ih
        exact ⟨readings, hvalid, hreceivers, hverdict, hread.resend hrun⟩
      · obtain ⟨readings, hvalid, hverdict, hmoments⟩ := ih
        exact ⟨readings, hvalid, hverdict, fun p hp => (hmoments p hp).snoc (by simp)⟩
    | wait hvalid hw' => exact hw' ▸ ⟨[], hvalid, rfl, rfl, by simp [Read]⟩
    | @looked receivers rest i flags hphase hw' =>
      rw [Current, hphase] at ih
      obtain ⟨readings, hvalid, hreceivers, hflags, hread⟩ := ih
      subst hw'
      refine ⟨readings ++ [(i, obs w.system i)], hvalid, by simp [hreceivers], by simp [hflags], ?_⟩
      intro p hp
      rcases List.mem_append.mp hp with hp | hp
      · exact ⟨(hread p hp).1.snoc (by simp), (hread p hp).2⟩
      · cases List.mem_singleton.mp hp
        exact ⟨(moment_now hrun (by simp [Waiting, hphase]) i).snoc (by simp), fun _ => rfl⟩
    | returned hphase hverdict hw' =>
      rw [Current, hphase] at ih
      obtain ⟨readings, hvalid, hreceivers, hflags, hread⟩ := ih
      rw [List.append_nil] at hreceivers
      subst hw'
      exact ⟨readings, hreceivers ▸ hvalid, by rw [Check.judge, ← hflags, hverdict],
        fun p hp => (hread p hp).1.snoc (by simp)⟩
    | slept hphase hverdict hw' =>
      rw [Current, hphase] at ih
      obtain ⟨readings, hvalid, hreceivers, hflags, hread⟩ := ih
      rw [List.append_nil] at hreceivers
      subst hw'
      exact ⟨readings, hvalid, hreceivers, by rw [Check.judge, ← hflags, hverdict],
        fun p hp => ⟨(hread p hp).1.snoc (by simp), (hread p hp).2⟩⟩
    | changed hphase hmem hnew hw' =>
      rw [Current, hphase] at ih
      obtain ⟨readings, hvalid, -⟩ := ih
      exact hw' ▸ ⟨[], hvalid, rfl, rfl, by simp [Read]⟩

/-- **No lost wakeup.** While the task sleeps, the condition does not hold for the values that are
there. -/
theorem verdict_of_asleep {receivers : List I} (hrun : (lts T obs check valid).Run ls w)
    (h : w.Asleep receivers) :
    valid receivers ∧ check.judge (receivers.map (obs w.system)) = none := by
  have hcurrent := current_of_run hrun
  rw [Current, h.selecting] at hcurrent
  obtain ⟨readings, hvalid, rfl, hverdict, hread⟩ := hcurrent
  refine ⟨hvalid, ?_⟩
  -- What the task has read is still there.
  have hsame : (readings.map Prod.fst).map (obs w.system) = readings.map Prod.snd := by
    rw [List.map_map]
    refine List.map_congr_left fun p hp => ?_
    exact ((hread p hp).2 (h.seen p.1 (List.mem_map_of_mem hp))).symm
  rw [hsame, hverdict]

/-- A result is the verdict on values each of which was there at a moment of the wait. -/
theorem moments_of_returned {result : R} (hrun : (lts T obs check valid).Run ls w)
    (h : w.phase = .returned result) :
    ∃ readings : List (I × V), valid (readings.map Prod.fst) ∧
      check.judge (readings.map Prod.snd) = some result ∧
      ∀ p ∈ readings, Moment T obs check valid ls p.1 p.2 := by
  have hcurrent := current_of_run hrun
  rwa [Current, h] at hcurrent

/-! ### The task comes to rest -/

/-- The channels that have a send the task does not know of. -/
def news (w : Watch S I F R) (receivers : List I) : Nat :=
  receivers.countP fun i => w.version i ≠ w.seen i

/-- The reads that are left. Every send that the task learns of costs one more round. -/
def rounds (w : Watch S I F R) : Nat :=
  match w.phase with
  | .idle | .returned _ => 0
  | .checking receivers rest _ => w.news receivers * (receivers.length + 2) + rest.length + 1
  | .selecting receivers => w.news receivers * (receivers.length + 2)

/-- Reading a channel with a new send leaves less news. -/
theorem news_lt {receivers : List I} {i : I} (hmem : i ∈ receivers)
    (hnew : w.version i ≠ w.seen i) (phase : WatchPhase I F R) :
    ({ w with seen := Function.update w.seen i (w.version i), phase := phase } :
      Watch S I F R).news receivers < w.news receivers := by
  -- The other receivers are counted as before.
  have hle : ∀ l : List I,
      l.countP (fun j => w.version j ≠ Function.update w.seen i (w.version i) j)
        ≤ l.countP fun j => w.version j ≠ w.seen j := by
    intro l
    refine List.countP_mono_left fun j _ hj => ?_
    by_cases hji : j = i
    · simp [hji] at hj
    · simpa [Function.update_of_ne hji] using hj
  obtain ⟨before, after, rfl⟩ := List.append_of_mem hmem
  have hbefore := hle before
  have hafter := hle after
  simp only [news, List.countP_append, List.countP_cons, Function.update_self, ne_eq,
    not_true_eq_false, decide_false, Bool.false_eq_true, if_false, hnew, not_false_eq_true,
    decide_true, if_true] at hbefore hafter ⊢
  omega

/-- Each step of the waiting task brings it nearer to its rest. A round that begins again has one
send less to learn of. -/
theorem rounds_lt (hown : isOwn l = true) (hs : (lts T obs check valid).step w l = some w') :
    w'.rounds < w.rounds := by
  cases moves_of_step hs with
  | system | resend | wait => cases hown
  | looked hphase hw' =>
    subst hw'
    simp only [rounds, hphase, news, List.length_cons]
    omega
  | returned hphase _ hw' =>
    subst hw'
    simp only [rounds, hphase]
    omega
  | slept hphase _ hw' =>
    subst hw'
    simp only [rounds, hphase, news, List.length_nil]
    omega
  | @changed receivers i hphase hmem hnew hw' =>
    have hlt := news_lt hmem hnew (.checking receivers receivers check.start)
    have hmul := Nat.mul_le_mul_right (receivers.length + 2) hlt
    subst hw'
    rw [Nat.succ_mul] at hmul
    simp only [rounds, hphase]
    omega

/-- The task has returned, does not wait, or sleeps. -/
def Settled (w : Watch S I F R) : Prop :=
  match w.phase with
  | .idle | .returned _ => True
  | .checking _ _ _ => False
  | .selecting receivers => w.Asleep receivers

omit [DecidableEq I] in
/-- A task that stands still has returned, or sleeps, or has not begun. -/
theorem Settled.cases (h : w.Settled) :
    w.phase = .idle ∨ (∃ result, w.phase = .returned result) ∨
      ∃ receivers, w.Asleep receivers := by
  unfold Settled at h
  split at h
  · rename_i hphase
    exact .inl hphase
  · rename_i result hphase
    exact .inr (.inl ⟨result, hphase⟩)
  · cases h
  · rename_i receivers _
    exact .inr (.inr ⟨receivers, h⟩)

/-- A waiting task inevitably returns or falls asleep, whatever the system does in between. -/
theorem inevitable_settled (hrun : (lts T obs check valid).Run ls w) :
    (lts T obs check valid).Inevitable (fun l => isOwn l = true)
      (fun ls w => (lts T obs check valid).Run ls w ∧ w.Settled) ls w := by
  refine Lts.Run.inevitable rounds ?_ ?_ hrun
  · exact fun _ _ _ _ _ hown hs => rounds_lt hown hs
  · intro ls w hrun hquiet
    refine ⟨hrun, ?_⟩
    unfold Settled
    split
    · trivial
    · trivial
    · rename_i receivers rest flags hphase
      -- The loop goes on, or ends with a verdict.
      have hlook := hquiet .look rfl
      simp only [lts, step, hphase] at hlook
      cases rest with
      | nil =>
        simp only at hlook
        split at hlook
        · cases hlook
        · cases hlook
      | cons => cases hlook
    · rename_i receivers hphase
      refine ⟨hphase, ?_⟩
      intro i hmem
      by_contra hnew
      have hchanged := hquiet (.changed i) rfl
      simp only [lts, step, hphase] at hchanged
      rw [if_pos ⟨hmem, hnew⟩] at hchanged
      cases hchanged

end

end Watch
