import RustBond.Link
import RustBond.Proofs.Wire.RoundTrip

/-!
# `RustBond.Proofs.Link`: when the two ends deadlock

Every step of the tasks is a step of the connection or does not touch it (`step_io`). So the
rules of `Lib/Duplex.lean` apply: `never_deadlocked_iff` says that a run is free of deadlocks
exactly if no task begins a write that does not fit into its outgoing buffer while the other
task is inside a write that does not fit either.

Nothing in the code prevents this. With large tables it happens when the client announces its
routes again, and the server answers the first of its subscriptions in the meantime
(`deadlock_of_tables`).
-/

set_option autoImplicit false

namespace RustBond.Link

variable {capClient capServer : Nat} {p : Prost}

/-- What a label does at the connection. -/
def io (p : Prost) (x : Link capClient capServer) (label : Label) :
    Option (Duplex.Label UInt8) :=
  match label with
  | .push .client n => some (.left (.push n))
  | .push .server n => some (.right (.push n))
  | .clientNext => x.clientTodo.head?.map fun data => .left (.write data)
  | .tick => some (.left (.write (Message.frame p .keepalive)))
  | .command cmd =>
    (Connection.commandMessage cmd).map fun msg => .left (.write (msg.frame p))
  | .clientRead n => some (.left (.read n))
  | .serverRead n => some (.right (.read n))
  | .process _ => none
  | .serverNext => x.serverTodo.head?.map fun data => .right (.write data)
  | .batch msgs => some (.right (.write (msgs.flatMap (Message.frame p))))

/-- The step begins a write that does not fit, while the other side is in a write that does not
fit. -/
def Overcommits (p : Prost) (x : Link capClient capServer) (label : Label) : Prop :=
  match io p x label with
  | some l => x.pipes.Overcommits l
  | none => False

instance (x : Link capClient capServer) (label : Label) : Decidable (Overcommits p x label) :=
  match h : io p x label with
  | some l => decidable_of_iff (x.pipes.Overcommits l) (by rw [Overcommits, h])
  | none => .isFalse (by rw [Overcommits, h]; exact id)

/-- The buffers take bytes, and nothing else happens. -/
def Settles (p : Prost) : Link capClient capServer → Link capClient capServer → Prop :=
  Relation.ReflTransGen fun x x' => ∃ side n, step p x (.push side n) = some x'

/-- A step of the link that moves bytes is a step of its pipes. -/
theorem map_pipes {x x' : Link capClient capServer} {l : Duplex.Label UInt8}
    {f : Duplex UInt8 capClient capServer → Link capClient capServer}
    (hf : ∀ d, (f d).pipes = d) (h : (x.pipes.step l).map f = some x') :
    x.pipes.step l = some x'.pipes := by
  obtain ⟨d, hd, rfl⟩ := Option.map_eq_some_iff.mp h
  rw [hf, hd]

/-- A step of the tasks is a step of the connection, or leaves it as it is. Then the server is
not in a write. -/
theorem step_io {x x' : Link capClient capServer} {label : Label}
    (h : step p x label = some x') :
    match io p x label with
    | some l => x.pipes.step l = some x'.pipes
    | none => x'.pipes = x.pipes ∧ x.pipes.right.writing = [] := by
  cases label with
  | push side n =>
    cases side with
    | client => exact map_pipes (fun _ => rfl) h
    | server => exact map_pipes (fun _ => rfl) h
  | clientNext =>
    simp only [step] at h
    cases htodo : x.clientTodo with
    | nil => rw [htodo] at h; cases h
    | cons data todo =>
      rw [htodo] at h
      simp only [io, htodo, List.head?_cons, Option.map_some]
      exact map_pipes (fun _ => rfl) h
  | command cmd =>
    simp only [step] at h
    cases hmsg : Connection.commandMessage cmd with
    | none => rw [hmsg] at h; cases h
    | some msg =>
      rw [hmsg] at h
      simp only [io, hmsg, Option.map_some]
      simp only at h
      split at h
      · exact map_pipes (fun _ => rfl) h
      · cases h
  | process routes =>
    show x'.pipes = x.pipes ∧ x.pipes.right.writing = []
    simp only [step] at h
    split at h
    · rename_i hidle
      refine ⟨?_, hidle.2.1⟩
      -- None of the branches of the loop touches the connection.
      unfold processNext at h
      split at h
      · cases h
        rfl
      · split at h
        · cases h
          rfl
        · split at h
          · cases h
            rfl
          · cases h
    · cases h
  | serverNext =>
    simp only [step] at h
    cases htodo : x.serverTodo with
    | nil => rw [htodo] at h; cases h
    | cons data todo =>
      rw [htodo] at h
      simp only [io, htodo, List.head?_cons, Option.map_some]
      exact map_pipes (fun _ => rfl) h
  | tick | clientRead | serverRead | batch =>
    simp only [step] at h
    split at h
    · exact map_pipes (fun _ => rfl) h
    · cases h

/-- The link is doomed after a step if it was so before, or if the step overcommits it. -/
theorem doomed_step {x x' : Link capClient capServer} {label : Label}
    (h : step p x label = some x') :
    x'.pipes.Doomed ↔ x.pipes.Doomed ∨ Overcommits p x label := by
  have hio := step_io h
  unfold Overcommits
  cases hl : io p x label with
  | some l =>
    rw [hl] at hio
    exact Duplex.doomed_of_step hio
  | none =>
    rw [hl] at hio
    simp only at hio
    simp only [hio.1, or_false]

/-- A deadlock is final: neither of the two tasks has a step. -/
theorem step_of_deadlocked {x : Link capClient capServer} (h : x.Deadlocked) (label : Label) :
    step p x label = none := by
  cases hstep : step p x label with
  | none => rfl
  | some x' =>
    have hio := step_io hstep
    cases hl : io p x label with
    | some l =>
      rw [hl] at hio
      have hstuck : x.pipes.step l = some x'.pipes := hio
      rw [Duplex.step_of_deadlocked h l] at hstuck
      cases hstuck
    | none =>
      rw [hl] at hio
      exact absurd hio.2 h.2.1

/-- The connection is doomed exactly if it settles to a deadlock. -/
theorem doomed_iff_settles {x : Link capClient capServer} :
    x.pipes.Doomed ↔ ∃ x', Settles p x x' ∧ x'.Deadlocked := by
  constructor
  · intro h
    obtain ⟨d', hpushes, hdeadlocked⟩ := Duplex.doomed_iff_deadlock.mp h
    refine ⟨{ x with pipes := d' }, ?_, hdeadlocked⟩
    -- The tasks stay where they are while the buffers take bytes.
    refine Relation.ReflTransGen.lift (fun d => { x with pipes := d }) (fun d d₁ hpush => ?_)
      _ _ hpushes
    cases hpush with
    | left n hstep => exact ⟨.client, n, by simp only [step, hstep, Option.map_some]⟩
    | right n hstep => exact ⟨.server, n, by simp only [step, hstep, Option.map_some]⟩
  · rintro ⟨x', hsettles, hdeadlocked⟩
    refine Duplex.doomed_iff_deadlock.mpr ⟨x'.pipes, ?_, hdeadlocked⟩
    refine Relation.ReflTransGen.lift Link.pipes (fun y y' hpush => ?_) _ _ hsettles
    obtain ⟨side, n, hstep⟩ := hpush
    have hio := step_io hstep
    cases side with
    | client => exact .left n hio
    | server => exact .right n hio

/-- A run has no deadlock, neither in one of its states nor where one of them settles, exactly if
no step of it overcommits. -/
theorem never_deadlocked_iff (p : Prost) (subs : List Vni) (routes : List (Vni × Route))
    {labels : List Label} {x : Link capClient capServer} (hrun : (lts p subs routes).Run labels x) :
    (lts p subs routes).Always
        (fun x : Link capClient capServer => ∀ x', Settles p x x' → ¬ x'.Deadlocked) labels ↔
      (lts p subs routes).Throughout
        (fun (x : Link capClient capServer) label => ¬ Overcommits p x label) labels := by
  refine Lts.always_iff_throughout (Q := fun x => ¬ x.pipes.Doomed) Duplex.doomed_idle ?_ ?_ ?_ hrun
  · intro _ x _ hdoomed x' hsettles hdeadlocked
    exact hdoomed (doomed_iff_settles.mpr ⟨x', hsettles, hdeadlocked⟩)
  · intro _ x label x' _ hdoomed hok hstep
    rw [doomed_step hstep]
    exact not_or.mpr ⟨hdoomed, hok⟩
  · intro _ x label x' _ _ hstep hsettled hovercommits
    have hdoomed := (doomed_step hstep).mpr (.inr hovercommits)
    obtain ⟨x'', hsettles, hdeadlocked⟩ := doomed_iff_settles.mp hdoomed
    exact hsettled x'' hsettles hdeadlocked

/-- Both sides send a route, and nothing waits. -/
theorem never_deadlocked_small :
    (lts .strict [⟨100⟩] [(⟨100⟩, ⟨makeDest 3, makeHop 3⟩)] : Lts (Link 40 40) Label).Always
      (fun x => ∀ x', Settles .strict x x' → ¬ x'.Deadlocked)
      [.clientNext, .push .client 6, .serverRead 6, .process [(makeDest 1, makeHop 1)],
        .serverNext, .clientNext, .push .server 36, .push .client 36] :=
  (never_deadlocked_iff .strict [⟨100⟩] [(⟨100⟩, ⟨makeDest 3, makeHop 3⟩)]
    (Lts.Run.of_exec (by decide))).mpr (Lts.throughout_of_check (by decide))

/-- The client announces two routes again while the server answers its subscription with two
routes. Each of the two buffers takes a route and four bytes. -/
def crossing : List Label :=
  [ .clientNext, .push .client 6, .serverRead 6,
    .process [(makeDest 1, makeHop 1), (makeDest 2, makeHop 2)],
    .serverNext, .push .server 36, .serverNext, .push .server 4,
    .clientNext, .push .client 36, .clientNext, .push .client 4 ]

/-- Each side waits for the other one to read. -/
theorem deadlock_of_tables :
    ∃ x, (lts .strict [⟨100⟩]
        [(⟨100⟩, ⟨makeDest 3, makeHop 3⟩), (⟨100⟩, ⟨makeDest 4, makeHop 4⟩)] :
        Lts (Link 40 40) Label).Run crossing x ∧
      x.Deadlocked ∧ ∀ label, step .strict x label = none := by
  refine ⟨_, Lts.Run.of_exec (by decide), ?_, ?_⟩
  · decide
  · exact step_of_deadlocked (by decide)

end RustBond.Link
