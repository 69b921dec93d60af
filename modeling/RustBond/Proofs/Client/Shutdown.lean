import Mathlib.Algebra.BigOperators.Group.Finset.Basic
import Mathlib.Data.Prod.Lex
import RustBond.Lib.Inevitable
import RustBond.Proofs.Client.Waiting

/-!
# `RustBond.Proofs.Client.Shutdown`: a client that is shut down comes to its end

`shutdown` puts its command at the end of every channel, behind what is there. A task may lose
commands on the way to it, but not this one (`Doomed`).

What keeps a task away from its channel ends after finitely many steps, whether the network answers
or fails. Three things could go on for ever: the ticks of the timer and the incoming messages in the
main loop, and attempts to connect after one another that fail before a command is looked at. The
`select!` of the source chooses between these and a command that is there, so they are not among the
steps that are counted on (`ClientLabel.isProgress`). Any number of them may come before. A write
does not wait for the server here: a task that is stuck in one does not look at its channel.

The rank of a client is what its calls have still to visit, then the commands in the channels, and
then the way of each task to its next command. Every step that is counted on lowers it, whether the
client is shut down or not. Where no such step is left, a client that was shut down has no task that
has not returned (`shutdown_closes`).
-/

set_option autoImplicit false

namespace RustBond

/-- The task gets on by the action: towards its main loop, or to its next command. -/
def TaskAction.isProgress (action : TaskAction) : Bool :=
  match action with
  | .keepalive | .receive _ | .retryElapsed => false
  | .connectFailed | .helloSent | .helloReceived | .established _ | .resubscribe | .collect _
  | .reannounce | .enterLoop | .command | .commandFailed | .connectionEnded | .clear
  | .retryCommand => true

def ClientLabel.isProgress (l : ClientLabel) : Bool :=
  match l with
  | .call _ _ => false
  | .check | .enqueue | .finish => true
  | .task _ action => action.isProgress

namespace PeerTask

/-- How far the task is from its next command, without what it repeats. -/
def stage (t : PeerTask) : Nat :=
  match t.phase with
  | .connecting =>
    match t.state with
    | .connecting => 8
    | .helloSent => 7
    | _ => 6
  | .resubscribing _ => 5
  | .reannouncing _ => 4
  | .running => 3
  | .ended => 2
  | .retrying => 1
  | .closed => 0

/-- The messages that the task has still to repeat. -/
def repeats (t : PeerTask) : Nat :=
  match t.phase with
  | .resubscribing rest => rest.length
  | .reannouncing rest => rest.length
  | .connecting | .running | .ended | .retrying | .closed => 0

/-- The task takes a command, or comes closer to the next one. -/
theorem progress_of_act {announced : RouteTable} {t t' : PeerTask} {action : TaskAction}
    (hprogress : action.isProgress = true) (h : t.act announced action = some t') :
    t'.commands.length < t.commands.length ∨
      t'.commands = t.commands ∧
        (t'.stage < t.stage ∨ t'.stage = t.stage ∧ t'.repeats < t.repeats) := by
  cases action with
  | keepalive | receive | retryElapsed => cases hprogress
  | connectFailed =>
    obtain ⟨⟨hphase, hstate⟩, heq⟩ := Option.ite_none_right_eq_some.mp h
    cases heq
    exact .inr ⟨rfl, .inl (by simp [stage, hphase, hstate])⟩
  | helloSent =>
    obtain ⟨⟨hphase, hstate⟩, heq⟩ := Option.ite_none_right_eq_some.mp h
    cases heq
    exact .inr ⟨rfl, .inl (by simp [stage, hphase, hstate])⟩
  | helloReceived =>
    obtain ⟨⟨hphase, hstate⟩, heq⟩ := Option.ite_none_right_eq_some.mp h
    cases heq
    exact .inr ⟨rfl, .inl (by simp [stage, hphase, hstate])⟩
  | established subs =>
    obtain ⟨⟨hphase, hstate, -⟩, heq⟩ := Option.ite_none_right_eq_some.mp h
    cases heq
    exact .inr ⟨rfl, .inl (by simp [stage, hphase, hstate])⟩
  | resubscribe =>
    simp only [act] at h
    split at h
    · rename_i vni rest hphase
      cases h
      exact .inr ⟨rfl, .inr ⟨by simp [stage, hphase], by simp [repeats, hphase]⟩⟩
    · cases h
  | collect routes =>
    obtain ⟨⟨hphase, -⟩, heq⟩ := Option.ite_none_right_eq_some.mp h
    cases heq
    exact .inr ⟨rfl, .inl (by simp [stage, hphase])⟩
  | reannounce =>
    simp only [act] at h
    split at h
    · rename_i vni route rest hphase
      cases h
      exact .inr ⟨rfl, .inr ⟨by simp [stage, hphase], by simp [repeats, hphase]⟩⟩
    · cases h
  | enterLoop =>
    obtain ⟨hphase, heq⟩ := Option.ite_none_right_eq_some.mp h
    cases heq
    exact .inr ⟨rfl, .inl (by simp [stage, hphase])⟩
  | command =>
    simp only [act] at h
    split at h
    · rename_i cmd rest hphase hcommands
      rw [hcommands]
      split at h
      · cases h
        exact .inl (Nat.lt_succ_self _)
      · cases h
        exact .inl (Nat.lt_succ_self _)
    · cases h
  | commandFailed =>
    simp only [act] at h
    split at h
    · rename_i cmd rest hphase hcommands
      rw [hcommands]
      split at h
      · cases h
        exact .inl (Nat.lt_succ_self _)
      · cases h
    · cases h
  | connectionEnded =>
    cases hphase : t.phase with
    | connecting =>
      simp only [act, hphase, Option.some.injEq] at h
      subst h
      refine .inr ⟨rfl, .inl ?_⟩
      simp only [stage, hphase]
      split
      · omega
      · omega
      · omega
    | resubscribing | reannouncing | running =>
      simp only [act, hphase, Option.some.injEq] at h
      subst h
      exact .inr ⟨rfl, .inl (by simp [stage, hphase])⟩
    | ended | retrying | closed =>
      simp only [act, hphase] at h
      cases h
  | clear =>
    obtain ⟨hphase, heq⟩ := Option.ite_none_right_eq_some.mp h
    cases heq
    exact .inr ⟨rfl, .inl (by simp [stage, hphase])⟩
  | retryCommand =>
    simp only [act] at h
    split at h
    · rename_i rest hphase hcommands
      cases h
      rw [hcommands]
      exact .inl (Nat.lt_succ_self _)
    · rename_i cmd rest _ hphase hcommands
      cases h
      rw [hcommands]
      exact .inl (Nat.lt_succ_self _)
    · cases h

/-- A task with a command goes on until it has returned. -/
theorem exists_progress (announced : RouteTable) {t : PeerTask} (hopen : t.phase ≠ .closed)
    (hcommands : t.commands ≠ []) :
    ∃ action : TaskAction, action.isProgress = true ∧ (t.act announced action).isSome := by
  cases hphase : t.phase with
  | connecting | resubscribing | reannouncing | running =>
    refine ⟨.connectionEnded, rfl, ?_⟩
    simp [act, hphase]
  | ended =>
    refine ⟨.clear, rfl, ?_⟩
    simp [act, hphase]
  | retrying =>
    obtain ⟨cmd, rest, hcmd⟩ := List.exists_cons_of_ne_nil hcommands
    refine ⟨.retryCommand, rfl, ?_⟩
    cases cmd with
    | shutdown | subscribe | unsubscribe | sendUpdate => simp [act, hphase, hcmd]
  | closed => exact absurd hphase hopen

/-- The task has returned, or will find the shutdown command in its channel. -/
def Doomed (t : PeerTask) : Prop := t.phase = .closed ∨ .shutdown ∈ t.commands

/-- A task that has the shutdown command in its channel keeps it until it takes it, and returns when
it does. The other commands before it may get lost. -/
theorem doomed_act {announced : RouteTable} {t t' : PeerTask} {action : TaskAction}
    (hdoomed : t.Doomed) (h : t.act announced action = some t') : t'.Doomed := by
  rcases hdoomed with hclosed | hmem
  · exact absurd hclosed (phase_ne_closed h)
  · cases action with
    | connectFailed | helloSent | helloReceived | established | collect | enterLoop | keepalive
    | receive | clear | retryElapsed =>
      obtain ⟨-, heq⟩ := Option.ite_none_right_eq_some.mp h
      cases heq
      exact .inr hmem
    | resubscribe | reannounce =>
      simp only [act] at h
      split at h
      · cases h
        exact .inr hmem
      · cases h
    | connectionEnded =>
      simp only [act] at h
      split at h
      all_goals cases h
      all_goals exact .inr hmem
    | command =>
      simp only [act] at h
      split at h
      · rename_i cmd rest hphase hcommands
        rw [hcommands] at hmem
        split at h
        · rename_i msg hmsg
          cases h
          rcases List.mem_cons.mp hmem with rfl | hrest
          · cases hmsg
          · exact .inr hrest
        · cases h
          exact .inl rfl
      · cases h
    | commandFailed =>
      simp only [act] at h
      split at h
      · rename_i cmd rest hphase hcommands
        rw [hcommands] at hmem
        split at h
        · rename_i hsome
          cases h
          rcases List.mem_cons.mp hmem with rfl | hrest
          · cases hsome
          · exact .inr hrest
        · cases h
      · cases h
    | retryCommand =>
      simp only [act] at h
      split at h
      · cases h
        exact .inl rfl
      · rename_i cmd rest hother hphase hcommands
        cases h
        rw [hcommands] at hmem
        rcases List.mem_cons.mp hmem with rfl | hrest
        · exact absurd rfl hother
        · exact .inr hrest
      · cases h

/-- A task that has returned has published that it is closed. -/
theorem state_act {announced : RouteTable} {t t' : PeerTask} {action : TaskAction}
    (h : t.act announced action = some t') (hclosed : t'.phase = .closed) : t'.state = .closed := by
  cases action with
  | connectFailed | helloSent | helloReceived | established | collect | enterLoop | keepalive
  | receive | clear | retryElapsed =>
    have hopen := phase_ne_closed h
    obtain ⟨-, heq⟩ := Option.ite_none_right_eq_some.mp h
    cases heq
    first | exact absurd hclosed hopen | cases hclosed
  | resubscribe | reannounce | command | commandFailed | connectionEnded | retryCommand =>
    simp only [act] at h
    grind

end PeerTask

namespace Client

variable {servers : Nat} {x x' : Client} {l : ClientLabel}

/-! ### What is left to do -/

/-- What the active call has still to do: it looks at a peer, sends to it, and returns at last. -/
def visits (x : Client) : Nat :=
  match x.active with
  | none => 0
  | some a => 2 * a.rest.length + (if a.checked then 0 else 1) + 1

/-- The sum over the peers. -/
def total (servers : Nat) (f : PeerTask → Nat) (x : Client) : Nat :=
  ∑ n ∈ Finset.range servers, f (x.peers ⟨n⟩)

/-- The commands that wait in the channels. -/
def queued (servers : Nat) (x : Client) : Nat := x.total servers fun t => t.commands.length

/-- What is left to do, first what leads to more of the rest. -/
def rank (servers : Nat) (x : Client) : Nat ×ₗ Nat ×ₗ Nat ×ₗ Nat :=
  toLex (x.visits, toLex (x.queued servers,
    toLex (x.total servers PeerTask.stage, x.total servers PeerTask.repeats)))

/-- The rank is lexicographic, so a step may add to a later component if it takes from an earlier
one. -/
theorem rank_lt_iff : x'.rank servers < x.rank servers ↔
    x'.visits < x.visits ∨ x'.visits = x.visits ∧
      (x'.queued servers < x.queued servers ∨ x'.queued servers = x.queued servers ∧
        (x'.total servers PeerTask.stage < x.total servers PeerTask.stage ∨
          x'.total servers PeerTask.stage = x.total servers PeerTask.stage ∧
            x'.total servers PeerTask.repeats < x.total servers PeerTask.repeats)) := by
  simp only [rank, Prod.Lex.toLex_lt_toLex]

/-- When one task acts, the sum changes by what this task has changed. -/
theorem total_update {s : ServerId} (hserver : s.id < servers) (t : PeerTask) (f : PeerTask → Nat) :
    ({ x with peers := Function.update x.peers s t } : Client).total servers f + f (x.peers s)
      = x.total servers f + f t := by
  obtain ⟨i⟩ := s
  have hmem : i ∈ Finset.range servers := Finset.mem_range.mpr hserver
  unfold total
  rw [← Finset.add_sum_erase _ _ hmem, ← Finset.add_sum_erase _ (fun n => f (x.peers ⟨n⟩)) hmem]
  have hothers : ∑ n ∈ (Finset.range servers).erase i, f (Function.update x.peers ⟨i⟩ t ⟨n⟩)
      = ∑ n ∈ (Finset.range servers).erase i, f (x.peers ⟨n⟩) := by
    refine Finset.sum_congr rfl fun n hn => ?_
    have hne : (⟨n⟩ : ServerId) ≠ ⟨i⟩ := by
      intro heq
      exact (Finset.mem_erase.mp hn).1 (ServerId.mk.inj heq)
    rw [Function.update_of_ne hne]
  rw [hothers]
  simp only [Function.update_self]
  omega

/-- Every step that is counted on lowers the rank. A call comes closer to its end, and a task to its
next command. -/
theorem rank_lt (hprogress : l.isProgress = true) (hs : (lts servers).step x l = some x') :
    x'.rank servers < x.rank servers := by
  rw [rank_lt_iff]
  cases l with
  | call => cases hprogress
  | check =>
    obtain ⟨call, s, rest, sentAny, hactive, -, ⟨-, rfl⟩ | ⟨-, rfl⟩⟩ := check_eq_some hs
    · exact .inl (by simp [visits, hactive])
    · exact .inl (by simp [visits, hactive])
  | enqueue =>
    obtain ⟨call, s, rest, checked, sentAny, hactive, -, ⟨-, rfl⟩ | ⟨-, -, rfl⟩⟩ :=
      enqueue_eq_some hs
    · refine .inl ?_
      simp only [visits, hactive, List.length_cons]
      split <;> omega
    · refine .inl ?_
      simp only [visits, hactive, List.length_cons]
      split <;> omega
  | finish =>
    obtain ⟨call, checked, sentAny, hactive, rfl⟩ := finish_eq_some hs
    exact .inl (by simp [visits, hactive])
  | task s action =>
    obtain ⟨hserver, t, hact, rfl⟩ := task_eq_some hs
    have hcommands := total_update (x := x) hserver t fun t => t.commands.length
    have hstage := total_update (x := x) hserver t PeerTask.stage
    have hrepeats := total_update (x := x) hserver t PeerTask.repeats
    refine .inr ⟨rfl, ?_⟩
    simp only [queued]
    rcases PeerTask.progress_of_act hprogress hact with hless | ⟨hsame, hless | ⟨hsame', hless⟩⟩
    · exact .inl (by omega)
    · rw [hsame] at hcommands
      exact .inr ⟨by omega, .inl (by omega)⟩
    · rw [hsame] at hcommands
      exact .inr ⟨by omega, .inr ⟨by omega, by omega⟩⟩

/-! ### Shutting down -/

/-- What holds of a client that was shut down. The call is under way or has returned, and every task
that it has been to will find its command. -/
inductive ShuttingDown (servers : Nat) (x : Client) : Prop
  | calling {rest : List ServerId} {sentAny : Bool}
      (hactive : x.active = some ⟨.shutdown, rest, false, sentAny⟩)
      (hrest : ∀ s ∈ rest, s.id < servers)
      (hdoomed : ∀ s : ServerId, s.id < servers → s ∉ rest → (x.peers s).Doomed)
  | returned (hactive : x.active = none) (hlog : .returned .shutdown none ∈ x.log)
      (hdoomed : ∀ s : ServerId, s.id < servers → (x.peers s).Doomed)

/-- The client's tasks have returned, and the call before them. -/
structure ShutDown (servers : Nat) (x : Client) : Prop where
  active : x.active = none
  returned : .returned .shutdown none ∈ x.log
  closed : ∀ s : ServerId, s.id < servers → (x.peers s).phase = .closed ∧ x.published s = .closed

/-- After `shutdown` there is no other call, since it takes the client. -/
theorem not_shutdown_of_call {call : ClientCall} {order : List ServerId}
    (hs : (lts servers).step x (.call call order) = some x') : .called .shutdown ∉ x.log := by
  obtain ⟨hguard, -⟩ := Option.ite_none_right_eq_some.mp hs
  exact hguard.2.1

/-- The log only grows. -/
theorem called_step {call : ClientCall} (hs : (lts servers).step x l = some x')
    (hcalled : .called call ∈ x.log) : .called call ∈ x'.log := by
  cases l with
  | call call order =>
    obtain ⟨-, -, -, ⟨-, hlog⟩ | ⟨e, rfl, -⟩⟩ := call_eq_some hs
    · rw [hlog]
      exact List.mem_append_left _ hcalled
    · exact List.mem_append_left _ hcalled
  | check =>
    obtain ⟨-, -, -, -, -, -, ⟨-, rfl⟩ | ⟨-, rfl⟩⟩ := check_eq_some hs
    · exact hcalled
    · exact hcalled
  | enqueue =>
    obtain ⟨-, -, -, -, -, -, -, ⟨-, rfl⟩ | ⟨-, -, rfl⟩⟩ := enqueue_eq_some hs
    · exact hcalled
    · exact hcalled
  | finish =>
    obtain ⟨-, -, -, -, rfl⟩ := finish_eq_some hs
    exact List.mem_append_left _ hcalled
  | task s action =>
    obtain ⟨-, t, -, rfl⟩ := task_eq_some hs
    exact hcalled

/-- Every step keeps a client shutting down, and only the call of `shutdown` leads to this. It has
to visit all servers, and no other call follows it. -/
theorem shuttingDown_step (h : .called .shutdown ∈ x.log → ShuttingDown servers x)
    (hs : (lts servers).step x l = some x') (hcalled : .called .shutdown ∈ x'.log) :
    ShuttingDown servers x' := by
  cases l with
  | call call order =>
    have hfirst := not_shutdown_of_call hs
    obtain ⟨-, horder, -, ⟨hactive, hlog⟩ | ⟨e, rfl, hlocks⟩⟩ := call_eq_some hs
    · have hcall : call = .shutdown := by simpa [hlog, hfirst, eq_comm] using hcalled
      subst hcall
      refine .calling hactive (fun s hs => (mem_order horder).mp hs) fun s hserver hnot => ?_
      exact absurd ((mem_order horder).mpr hserver) hnot
    · have hcall : call = .shutdown := by simpa [hfirst, eq_comm] using hcalled
      subst hcall
      cases hlocks
  | check =>
    obtain ⟨call, s, rest, sentAny, hactive, hneeds, hx'⟩ := check_eq_some hs
    have hlog : x'.log = x.log := by
      rcases hx' with ⟨-, rfl⟩ | ⟨-, rfl⟩
      · rfl
      · rfl
    -- `shutdown` does not look at the states of the peers.
    cases h (hlog ▸ hcalled) with
    | calling hactive' =>
      cases hactive.symm.trans hactive'
      cases hneeds
    | returned hnone => cases hactive.symm.trans hnone
  | enqueue =>
    obtain ⟨call, s, rest, checked, sentAny, hactive, -, ⟨hclosed, rfl⟩ | ⟨-, -, rfl⟩⟩ :=
      enqueue_eq_some hs
    · cases h hcalled with
      | calling hactive' hrest hdoomed =>
        cases hactive.symm.trans hactive'
        refine .calling rfl (fun s' hs' => hrest s' (List.mem_cons_of_mem _ hs')) ?_
        intro s' hserver hnot
        by_cases heq : s' = s
        · subst heq
          exact .inl hclosed
        · exact hdoomed s' hserver fun hmem => (List.mem_cons.mp hmem).elim heq hnot
      | returned hnone => cases hactive.symm.trans hnone
    · cases h hcalled with
      | calling hactive' hrest hdoomed =>
        cases hactive.symm.trans hactive'
        refine .calling rfl (fun s' hs' => hrest s' (List.mem_cons_of_mem _ hs')) ?_
        intro s' hserver hnot
        show (Function.update x.peers s _ s').Doomed
        by_cases heq : s' = s
        · subst heq
          rw [Function.update_self]
          exact .inr (List.mem_append_right _ List.mem_cons_self)
        · rw [Function.update_of_ne heq]
          exact hdoomed s' hserver fun hmem => (List.mem_cons.mp hmem).elim heq hnot
      | returned hnone => cases hactive.symm.trans hnone
  | finish =>
    obtain ⟨call, checked, sentAny, hactive, rfl⟩ := finish_eq_some hs
    have hcalled' : .called .shutdown ∈ x.log := by simpa using hcalled
    cases h hcalled' with
    | calling hactive' _ hdoomed =>
      cases hactive.symm.trans hactive'
      refine .returned rfl ?_ fun s hserver => hdoomed s hserver List.not_mem_nil
      exact List.mem_append_right _ List.mem_cons_self
    | returned hnone => cases hactive.symm.trans hnone
  | task s action =>
    obtain ⟨-, t, hact, rfl⟩ := task_eq_some hs
    have hstays : ∀ s' : ServerId, (x.peers s').Doomed →
        (Function.update x.peers s t s').Doomed := by
      intro s' hdoomed
      by_cases heq : s' = s
      · subst heq
        rw [Function.update_self]
        exact PeerTask.doomed_act hdoomed hact
      · rw [Function.update_of_ne heq]
        exact hdoomed
    cases h hcalled with
    | calling hactive hrest hdoomed =>
      exact .calling hactive hrest fun s' hserver hnot => hstays s' (hdoomed s' hserver hnot)
    | returned hactive hlog hdoomed =>
      exact .returned hactive hlog fun s' hserver => hstays s' (hdoomed s' hserver)

/-- In every reachable state, a client whose `shutdown` was called is shutting down. -/
theorem shuttingDown_of_run {ls : List ClientLabel} (hrun : (lts servers).Run ls x) :
    .called .shutdown ∈ x.log → ShuttingDown servers x := by
  refine hrun.invariant (P := fun x => .called .shutdown ∈ x.log → ShuttingDown servers x) ?_
    fun _ _ _ _ _ h hs => shuttingDown_step h hs
  intro hcalled
  cases hcalled

/-- A task that has returned has published that it is closed, in every reachable state. -/
theorem published_of_run {ls : List ClientLabel} (hrun : (lts servers).Run ls x) (s : ServerId) :
    (x.peers s).phase = .closed → x.published s = .closed := by
  refine hrun.invariant (P := fun x => (x.peers s).phase = .closed → x.published s = .closed) ?_ ?_
  · intro hclosed
    cases hclosed
  · intro _ x l x' _ h hs hclosed
    by_cases hl : ∃ action, l = .task s action
    · obtain ⟨action, rfl⟩ := hl
      exact PeerTask.state_act (act_of_step hs) hclosed
    · rcases peer_of_step (s := s) hs (fun action heq => hl ⟨action, heq⟩) with hp | ⟨a, -, hp⟩
      · rw [published, hp]
        rw [hp] at hclosed
        exact h hclosed
      · rw [published, hp]
        rw [hp] at hclosed
        exact h hclosed

/-- Where no step is left that is counted on, a client that is shutting down is shut down. A full
channel holds nobody up, since it has a command in it. -/
theorem shutDown_of_quiet {ls : List ClientLabel} (hrun : (lts servers).Run ls x)
    (h : ShuttingDown servers x)
    (hquiet : (lts servers).Quiet (fun l => l.isProgress = true) x) : ShutDown servers x := by
  -- A task with a command could go on.
  have hreturned : ∀ s : ServerId, s.id < servers → (x.peers s).commands ≠ [] →
      (x.peers s).phase = .closed := by
    intro s hserver hcommands
    by_contra hopen
    obtain ⟨action, hprogress, hact⟩ :=
      PeerTask.exists_progress x.announcedRoutes hopen hcommands
    have hnone := hquiet (.task s action) hprogress
    simp only [lts, step, task, if_pos hserver, Option.map_eq_none_iff] at hnone
    rw [hnone] at hact
    cases hact
  cases h with
  | @calling rest sentAny hactive hrest hdoomed =>
    exfalso
    cases rest with
    | nil =>
      have hnone := hquiet .finish rfl
      simp [lts, step, finish, hactive] at hnone
    | cons s rest =>
      have hnone := hquiet .enqueue rfl
      simp only [lts, step, enqueue, hactive, ClientCall.needsEstablished, if_true] at hnone
      split at hnone
      · cases hnone
      · rename_i hopen
        split at hnone
        · cases hnone
        · rename_i hfull
          refine hopen (hreturned s (hrest s List.mem_cons_self) ?_)
          rintro hempty
          exact hfull (by simp [hempty, commandCapacity])
  | returned hactive hlog hdoomed =>
    refine ⟨hactive, hlog, fun s hserver => ?_⟩
    have hclosed : (x.peers s).phase = .closed := by
      rcases hdoomed s hserver with hclosed | hmem
      · exact hclosed
      · exact hreturned s hserver (List.ne_nil_of_mem hmem)
    exact ⟨hclosed, published_of_run hrun s hclosed⟩

/-- The client has subscribed at its first server when it is shut down, and the command still waits
in the channel there. The second server could not be reached. -/
def shutDownEarly : List ClientLabel :=
  connects ⟨0⟩ [] ++
    [ .task ⟨1⟩ .connectFailed, .call (.subscribe ⟨100⟩) [⟨0⟩, ⟨1⟩], .check, .enqueue, .check,
      .finish, .call .shutdown [⟨1⟩, ⟨0⟩] ]

end Client

end RustBond
