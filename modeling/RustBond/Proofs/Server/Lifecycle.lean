import RustBond.Lib.Projection
import RustBond.Proofs.Server.Departure
import RustBond.Server.Lifecycle

/-!
# `RustBond.Proofs.Server.Lifecycle`: the tasks of the server and their end

`Moves` says what a step does. All that the tasks of the server know of a session is how far it is
(`System.roster`), and `Linked` is how this fits to the tasks (`crew`). With it comes the order in
which everything ends (`Sound`): the actor outlives whoever may send it a command.

* `refines_system`: the server with its start and its end does nothing but what `System` does.
* `peers_eq`: the map of the peers, and `peer_count`.
* `shutdown_completes`: after `shutdown` or a drop, the tasks come to an end. Their rank is the
  number of steps that they have still to make, and the backlog of the system below it. The signal
  does not get to a connection that the accept loop takes after it. Such a connection notices that
  no sender is left, so the result needs both ways out of `shutdown_rx.recv()`.
-/

set_option autoImplicit false

namespace RustBond

/-! ### What the tasks see of a session -/

/-- How far a session is, for the task that serves it. -/
inductive Stage where
  | working
  | stopped
  | closed
deriving DecidableEq

def Phase.stage (phase : Phase) : Stage :=
  match phase with
  | .running | .subscribing _ _ => .working
  | .stopped => .stopped
  | .closed => .closed

/-- Only the end of the main loop and the end of the task are visible. -/
def SessionAction.Turns (action : SessionAction) (stage stage' : Stage) : Prop :=
  match action with
  | .stop => stage = .working ∧ stage' = .stopped
  | .disconnect => stage = .stopped ∧ stage' = .closed
  | _ => stage' = stage

/-- An action of a session changes its stage as `Turns` says: the main loop ends by `stop`, the
task by `disconnect`, and nothing else shows from outside. -/
theorem Session.turns_of_act {x y : Session} {c : SessionId} {action : SessionAction}
    {cmds : List RoutingCommand} (h : x.act c action = some (y, cmds)) :
    action.Turns x.phase.stage y.phase.stage := by
  cases action with
  | command cmd =>
    simp only [act, Option.map_eq_some_iff, Prod.mk.injEq] at h
    obtain ⟨msg, -, rfl, -⟩ := h
    rfl
  | deliver =>
    simp only [act] at h
    split at h
    · cases h
    · cases h
      rfl
  | read =>
    simp only [act] at h
    split at h
    · rename_i msg rest hphase htoServer
      obtain ⟨reply, -, heq⟩ := handleMessage_eq { x with toServer := rest } c msg
      rw [heq] at h
      cases h
      cases msg with
      | subscribe => simp [SessionAction.Turns, Phase.stage, hphase]
      | hello | keepalive | unsubscribe | update => rfl
    · cases h
  | respond =>
    simp only [act] at h
    split at h
    · rename_i hphase
      cases h
      simp [SessionAction.Turns, Phase.stage, hphase]
    · cases h
  | flush batch =>
    obtain ⟨-, heq⟩ := Option.ite_none_right_eq_some.mp h
    cases heq
    rfl
  | stop | disconnect =>
    obtain ⟨hphase, heq⟩ := Option.ite_none_right_eq_some.mp h
    cases heq
    simp [SessionAction.Turns, Phase.stage, hphase]

namespace System

/-- The sessions with their addresses, as far as they are. -/
def roster (s : System) : List (SocketAddr × Stage) :=
  s.sessions.map fun y => (y.addr, y.phase.stage)

/-- An entry of the roster is a session with that address at that stage. -/
theorem getElem?_roster {s : System} {c : SessionId} {a : SocketAddr} {stage : Stage} :
    s.roster[c]? = some (a, stage) ↔
      ∃ y, s.sessions[c]? = some y ∧ y.addr = a ∧ y.phase.stage = stage := by
  simp only [roster, List.getElem?_map, Option.map_eq_some_iff, Prod.mk.injEq]

/-- A connection that completes its handshake is added to the roster as working. -/
theorem roster_accept {s s' : System} {addr : SocketAddr} {subscriptions : List Vni}
    {announced : List RouteKey} (h : s.accept addr subscriptions announced = some s') :
    s'.roster = s.roster ++ [(addr, .working)] := by
  obtain ⟨-, y, haddr, hphase, -, -, -, -, -, rfl⟩ := accept_eq_some h
  simp only [roster, List.map_append, List.map_cons, List.map_nil, haddr, hphase, Phase.stage]

/-- A step of a session changes its own entry of the roster and no other one. -/
theorem roster_sessionStep {s s' : System} {c : SessionId} {action : SessionAction}
    (h : s.sessionStep c action = some s') :
    ∃ a stage stage', s.roster[c]? = some (a, stage) ∧ s'.roster = s.roster.set c (a, stage') ∧
      action.Turns stage stage' := by
  obtain ⟨y, y', cmds, hy, hact, rfl⟩ := sessionStep_eq_some h
  refine ⟨y.addr, y.phase.stage, y'.phase.stage, getElem?_roster.mpr ⟨y, hy, rfl, rfl⟩, ?_,
    Session.turns_of_act hact⟩
  simp only [roster, List.map_set, (Session.effect_of_act hact).addr_eq]

/-- A session that waits goes on, or one gets a message into its channel. -/
theorem roster_actor {capacity : Nat} {s s' : System} {l : Label} (hl : l.isActor = true)
    (h : s.step capacity l = some s') : s'.roster = s.roster := by
  cases l with
  | accept | session => cases hl
  | recv owned routes =>
    obtain ⟨c, cmd, commands, sessions, -, -, -, hanswer, rfl⟩ := recv_eq_some h
    apply List.ext_getElem?
    intro i
    simp only [roster, List.getElem?_map]
    rcases getElem?_answer hanswer i with ⟨collected, -, -, heq⟩ | ⟨-, heq⟩
    · rw [heq, Option.map_map]
      refine Option.map_congr fun y _ => ?_
      rcases receive_cases y routes with hreceive | ⟨vni, hphase, hreceive⟩
      · simp only [Function.comp, hreceive]
      · simp only [Function.comp, hreceive, hphase, Phase.stage]
    · rw [heq]
  | trySend addr =>
    obtain ⟨msg, targets, rest, slow, -, -, ⟨-, rfl⟩ | ⟨tx, y, hchannel, -, -, rfl⟩ | ⟨-, rfl⟩⟩ :=
      trySend_eq_some h
    · rfl
    · have hy := (channel_eq_some hchannel).2
      apply List.ext_getElem?
      intro i
      simp only [roster, List.getElem?_map, getElem?_set_of_some hy]
      split
      · rename_i hi
        rw [← hi, hy]
        rfl
      · rfl
    · rfl
  | finish =>
    obtain ⟨slow, -, rfl⟩ := finish_eq_some h
    rfl

end System

/-- The session of a task, and how far it is. -/
def HandlerPhase.session (phase : HandlerPhase) : Option (SessionId × Stage) :=
  match phase with
  | .registered c | .serving c => some (c, .working)
  | .leaving c | .removed c => some (c, .stopped)
  | .handshake | .ended => none

/-- What the map of the peers has for a task. -/
def HandlerPhase.entry (phase : HandlerPhase) : Option PeerHandle :=
  match phase with
  | .serving c | .leaving c => some ⟨c, .established⟩
  | .handshake | .registered _ | .removed _ | .ended => none

/-- The steps that a task has still to make after its handshake. -/
def HandlerPhase.rest (phase : HandlerPhase) : Nat :=
  match phase with
  | .handshake => 0
  | .registered _ => 4
  | .serving _ => 3
  | .leaving _ => 2
  | .removed _ => 1
  | .ended => 0

/-- A task has its entry in the map of the peers exactly while it is established: from the
insertion on, until it has left its main loop and removed the entry. -/
theorem HandlerPhase.entry_eq_some {phase : HandlerPhase} {p : PeerHandle} :
    phase.entry = some p ↔
      p.state = .established ∧ (phase = .serving p.tx ∨ phase = .leaving p.tx) := by
  obtain ⟨tx, state⟩ := p
  cases phase with
  | handshake | registered | removed | ended => simp [entry]
  | serving c | leaving c =>
    simp only [entry, Option.some.injEq, PeerHandle.mk.injEq]
    constructor
    · rintro ⟨rfl, rfl⟩
      simp
    · rintro ⟨rfl, h⟩
      simpa using h

namespace Lifecycle

/-! ### The steps -/

/-- How a task goes on: its next phase, the system and the map of the peers. -/
inductive Goes (x : Lifecycle) (h : Handler) :
    LifecycleLabel → HandlerPhase → System → HashMap SocketAddr PeerHandle → Prop
  | failed {i : Nat} (hphase : h.phase = .handshake) :
      Goes x h (.handshakeFailed i) .ended x.system x.peers
  | registered {i : Nat} {subscriptions : List Vni} {announced : List RouteKey} {s : System}
      (hphase : h.phase = .handshake)
      (hs : x.system.accept h.addr subscriptions announced = some s) :
      Goes x h (.register i h.addr subscriptions announced)
        (.registered x.system.sessions.length) s x.peers
  | inserted {i : Nat} {c : SessionId} (hphase : h.phase = .registered c) :
      Goes x h (.insertPeer i) (.serving c) x.system (x.peers.insert h.addr ⟨c, .established⟩)
  | served {i : Nat} {c : SessionId} {action : SessionAction} {s : System}
      (hphase : h.phase = .serving c) (haction : action.isServing = true)
      (hs : x.system.sessionStep c action = some s) :
      Goes x h (.serve i c action) (.serving c) s x.peers
  | stopped {i : Nat} {c : SessionId} {l : LifecycleLabel} {s : System}
      (hl : l = .signalled i c ∨ l = .stop i c) (hphase : h.phase = .serving c)
      (hs : x.system.sessionStep c .stop = some s) : Goes x h l (.leaving c) s x.peers
  | left {i : Nat} {c : SessionId} (hphase : h.phase = .leaving c) :
      Goes x h (.removePeer i) (.removed c) x.system (x.peers.erase h.addr)
  | ended {i : Nat} {c : SessionId} {s : System} (hphase : h.phase = .removed c)
      (hs : x.system.sessionStep c .disconnect = some s) :
      Goes x h (.disconnect i c) .ended s x.peers

/-- What is left of the shutdown for the server and the accept loop. -/
def authority (x : Lifecycle) : Nat :=
  (match x.server with
    | .running | .dropped => 0
    | .acceptSignalled => 1
    | .peersSignalled => 2) + if x.accepting then 1 else 0

/-- What a step does. -/
inductive Moves (capacity : Nat) (x x' : Lifecycle) : LifecycleLabel → Prop
  | connected {addr : SocketAddr} (haccepting : x.accepting = true)
      (hfree : ∀ h ∈ x.handlers, h.phase = .ended ∨ h.addr ≠ addr)
      (hx' : x' = { x with handlers := x.handlers ++ [⟨addr, .handshake, false⟩] }) :
      Moves capacity x x' (.connect addr)
  | went {l : LifecycleLabel} {i : Nat} {h : Handler} {next : HandlerPhase} {s : System}
      {peers : HashMap SocketAddr PeerHandle} (hi : x.handlers[i]? = some h)
      (hgoes : Goes x h l next s peers)
      (hx' : x' = { x with
        system := x.send s
        handlers := x.handlers.set i { h with phase := next }
        peers := peers }) : Moves capacity x x' l
  | defaulted {i : Nat} {c : SessionId} {h : Handler} (hrouting : x.routing = false)
      (hi : x.handlers[i]? = some h) (hphase : h.phase = .serving c) :
      Moves capacity x x' (.responseDropped i c)
  | client {c : SessionId} {action : SessionAction} {s : System}
      (haction : action.isClient = true) (hs : x.system.sessionStep c action = some s)
      (hx' : x' = { x with system := s }) : Moves capacity x x' (.client c action)
  | routed {l : Label} {s : System} (hrouting : x.routing = true) (hl : l.isActor = true)
      (hs : x.system.step capacity l = some s) (hx' : x' = { x with system := s }) :
      Moves capacity x x' (.actor l)
  | ended (hrouting : x.routing = true) (hheld : ¬ x.Held) (hcommands : x.system.commands = [])
      (hidle : x.system.distribution = none) (hx' : x' = { x with routing := false }) :
      Moves capacity x x' .endActor
  | governed {l : LifecycleLabel} (hl : l.system = none) (hsystem : x'.system = x.system)
      (hpeers : x'.peers = x.peers) (hrouting : x'.routing = x.routing)
      (hhandlers : x'.handlers.map (fun h => (h.addr, h.phase))
        = x.handlers.map fun h => (h.addr, h.phase))
      (hheld : x'.Held → x.Held) (hserver : x.server ≠ .running → x'.server ≠ .running)
      (hown : l.isOwn = true → x'.authority < x.authority) : Moves capacity x x' l

/-- Only a task in the given phase can be advanced, and only its phase changes. -/
theorem advance_eq_some {handlers handlers' : List Handler} {i : Nat} {phase next : HandlerPhase}
    (h : advance handlers i phase next = some handlers') :
    ∃ h, handlers[i]? = some h ∧ h.phase = phase ∧
      handlers' = handlers.set i { h with phase := next } := by
  obtain ⟨h, hi, hset⟩ := Option.bind_eq_some_iff.mp h
  obtain ⟨hphase, heq⟩ := Option.ite_none_right_eq_some.mp hset
  exact ⟨h, hi, hphase, (Option.some.inj heq).symm⟩

/-- A step of a task with its session advances the task, makes the session's step, and sends the
session's commands if the actor is still there. -/
theorem handle_eq_some {x x' : Lifecycle} {i : Nat} {c : SessionId} {phase next : HandlerPhase}
    {action : SessionAction} (h : x.handle i c phase next action = some x') :
    ∃ h s, x.handlers[i]? = some h ∧ h.phase = phase ∧ x.system.sessionStep c action = some s ∧
      x' = { x with
        system := x.send s
        handlers := x.handlers.set i { h with phase := next } } := by
  obtain ⟨handlers, hadvance, hstep⟩ := Option.bind_eq_some_iff.mp h
  obtain ⟨h, hi, hphase, rfl⟩ := advance_eq_some hadvance
  obtain ⟨s, hs, heq⟩ := Option.map_eq_some_iff.mp hstep
  exact ⟨h, s, hi, hphase, hs, heq.symm⟩

/-- Sending nothing new changes nothing, whether or not the actor is there. -/
theorem send_self (x : Lifecycle) : x.send x.system = x.system := by
  unfold send
  split
  · rfl
  · rfl

/-- The inversion of a step: `Moves` lists what the step can have been. The invariants below look
at `Moves` and not at the code of the steps. -/
theorem moves_of_step {capacity : Nat} {x x' : Lifecycle} {l : LifecycleLabel}
    (hs : (lts capacity).step x l = some x') : Moves capacity x x' l := by
  cases l with
  | connect addr =>
    obtain ⟨⟨haccepting, hfree⟩, heq⟩ := Option.ite_none_right_eq_some.mp hs
    cases heq
    exact .connected haccepting hfree rfl
  | endAccept =>
    obtain ⟨⟨haccepting, -⟩, heq⟩ := Option.ite_none_right_eq_some.mp hs
    cases heq
    refine .governed rfl rfl rfl rfl rfl (fun _ => .inr (.inl haccepting)) (fun h => h) fun _ => ?_
    simp [authority, haccepting]
  | handshakeFailed i =>
    obtain ⟨handlers, hadvance, heq⟩ := Option.map_eq_some_iff.mp hs
    obtain ⟨h, hi, hphase, rfl⟩ := advance_eq_some hadvance
    subst heq
    exact .went hi (.failed hphase) (by rw [send_self])
  | register i addr subscriptions announced =>
    obtain ⟨haddr, heq⟩ := Option.ite_none_right_eq_some.mp hs
    obtain ⟨handlers, hadvance, heq⟩ := Option.bind_eq_some_iff.mp heq
    obtain ⟨h, hi, hphase, rfl⟩ := advance_eq_some hadvance
    obtain ⟨s, haccept, heq⟩ := Option.map_eq_some_iff.mp heq
    subst heq
    rw [hi] at haddr
    cases haddr
    exact .went hi (.registered hphase haccept) rfl
  | insertPeer i =>
    simp only [lts, step, insertPeer] at hs
    split at hs
    · rename_i hi
      cases hs
      exact .went hi (.inserted rfl) (by rw [send_self])
    · cases hs
  | serve i c action =>
    obtain ⟨haction, heq⟩ := Option.ite_none_right_eq_some.mp hs
    obtain ⟨h, s, hi, hphase, hstep, rfl⟩ := handle_eq_some heq
    exact .went hi (.served hphase haction hstep) rfl
  | responseDropped i c =>
    obtain ⟨⟨hrouting, hserving⟩, -⟩ := Option.ite_none_right_eq_some.mp hs
    obtain ⟨h, hi, hphase⟩ := Option.map_eq_some_iff.mp hserving
    exact .defaulted hrouting hi hphase
  | signalled i c =>
    obtain ⟨-, heq⟩ := Option.ite_none_right_eq_some.mp hs
    obtain ⟨h, s, hi, hphase, hstep, rfl⟩ := handle_eq_some heq
    exact .went hi (.stopped (.inl rfl) hphase hstep) rfl
  | stop i c =>
    obtain ⟨h, s, hi, hphase, hstep, rfl⟩ := handle_eq_some hs
    exact .went hi (.stopped (.inr rfl) hphase hstep) rfl
  | removePeer i =>
    simp only [lts, step, removePeer] at hs
    split at hs
    · rename_i hi
      cases hs
      exact .went hi (.left rfl) (by rw [send_self])
    · cases hs
  | disconnect i c =>
    obtain ⟨h, s, hi, hphase, hstep, rfl⟩ := handle_eq_some hs
    exact .went hi (.ended hphase hstep) rfl
  | client c action =>
    obtain ⟨haction, heq⟩ := Option.ite_none_right_eq_some.mp hs
    obtain ⟨s, hstep, heq⟩ := Option.map_eq_some_iff.mp heq
    exact .client haction hstep heq.symm
  | actor l =>
    obtain ⟨⟨hrouting, hl⟩, heq⟩ := Option.ite_none_right_eq_some.mp hs
    obtain ⟨s, hstep, heq⟩ := Option.map_eq_some_iff.mp heq
    exact .routed hrouting hl hstep heq.symm
  | endActor =>
    obtain ⟨⟨hrouting, hheld, hcommands, hidle⟩, heq⟩ := Option.ite_none_right_eq_some.mp hs
    cases heq
    exact .ended hrouting hheld hcommands (Option.isNone_iff_eq_none.mp hidle) rfl
  | shutdown =>
    obtain ⟨hserver, heq⟩ := Option.ite_none_right_eq_some.mp hs
    cases heq
    refine .governed rfl rfl rfl rfl ?_ (fun _ => .inl (by simp [hserver])) (fun _ => by simp)
      fun h => by cases h
    simp only [List.map_map, Function.comp_def]
  | signalAccept =>
    obtain ⟨hserver, heq⟩ := Option.ite_none_right_eq_some.mp hs
    cases heq
    refine .governed rfl rfl rfl rfl rfl (fun _ => .inl (by simp [hserver])) (fun _ => by simp)
      fun _ => ?_
    simp [authority, hserver]
  | shutdownReturns =>
    obtain ⟨hserver, heq⟩ := Option.ite_none_right_eq_some.mp hs
    cases heq
    refine .governed rfl rfl rfl rfl rfl (fun _ => .inl (by simp [hserver])) (fun _ => by simp)
      fun _ => ?_
    simp [authority, hserver]
  | drop =>
    obtain ⟨hserver, heq⟩ := Option.ite_none_right_eq_some.mp hs
    cases heq
    exact .governed rfl rfl rfl rfl rfl (fun _ => .inl (by simp [hserver])) (fun _ => by simp)
      fun h => by cases h
  | clone =>
    obtain ⟨hheld, heq⟩ := Option.ite_none_right_eq_some.mp hs
    cases heq
    refine .governed rfl rfl rfl rfl rfl (fun _ => ?_) (fun h => h) fun h => by cases h
    rcases hheld with hserver | hclones
    · exact .inl (by simp [hserver])
    · exact .inr (.inr (.inr hclones))
  | release =>
    obtain ⟨hclones, heq⟩ := Option.ite_none_right_eq_some.mp hs
    cases heq
    exact .governed rfl rfl rfl rfl rfl (fun _ => .inr (.inr (.inr hclones))) (fun h => h)
      fun h => by cases h

/-! ### Tasks and sessions -/

/-- The tasks with their addresses. -/
def crew (x : Lifecycle) : List (SocketAddr × HandlerPhase) :=
  x.handlers.map fun h => (h.addr, h.phase)

/-- Every task that serves a session is where the session is. Every session that is not closed has
a task, and no address has two tasks. -/
structure Linked (roster : List (SocketAddr × Stage)) (crew : List (SocketAddr × HandlerPhase)) :
    Prop where
  session : ∀ (i : Nat) (a : SocketAddr) (phase : HandlerPhase) (c : SessionId) (stage : Stage),
    crew[i]? = some (a, phase) → phase.session = some (c, stage) → roster[c]? = some (a, stage)
  task : ∀ (c : SessionId) (a : SocketAddr) (stage : Stage), roster[c]? = some (a, stage) →
    stage ≠ .closed → ∃ (i : Nat) (phase : HandlerPhase), crew[i]? = some (a, phase) ∧
      phase.session = some (c, stage)
  addr : ∀ (i j : Nat) (a : SocketAddr) (phase phase' : HandlerPhase),
    crew[i]? = some (a, phase) → crew[j]? = some (a, phase') → phase ≠ .ended →
    phase' ≠ .ended → i = j

/-- A task with a session has not ended. -/
theorem ne_ended_of_session {phase : HandlerPhase} {c : SessionId} {stage : Stage}
    (h : phase.session = some (c, stage)) : phase ≠ .ended := by
  rintro rfl
  cases h

/-- A task goes on, and takes its session along. -/
theorem Linked.set {roster roster' : List (SocketAddr × Stage)}
    {crew : List (SocketAddr × HandlerPhase)} {i : Nat} {a : SocketAddr}
    {phase next : HandlerPhase} (h : Linked roster crew) (hi : crew[i]? = some (a, phase))
    (hopen : phase ≠ .ended)
    (hown : ∀ c stage, next.session = some (c, stage) → roster'[c]? = some (a, stage))
    (htask : ∀ c b stage, roster'[c]? = some (b, stage) → stage ≠ .closed →
      next.session = some (c, stage) ∨
        roster[c]? = some (b, stage) ∧ phase.session ≠ some (c, stage))
    (hother : ∀ c b stage, roster[c]? = some (b, stage) → phase.session ≠ some (c, stage) →
      roster'[c]? = some (b, stage)) :
    Linked roster' (crew.set i (a, next)) where
  session := by
    intro j b q c stage hj hq
    rcases of_getElem?_set hi hj with ⟨rfl, heq⟩ | ⟨hne, hj⟩
    · cases heq
      exact hown c stage hq
    · have hroster := h.session j b q c stage hj hq
      refine hother c b stage hroster fun hsame => hne ?_
      -- Two tasks of one session have one address.
      have hroster' := h.session i a phase c stage hi hsame
      rw [hroster] at hroster'
      cases hroster'
      exact h.addr i j _ phase q hi hj hopen (ne_ended_of_session hq)
  task := by
    intro c b stage hc hstage
    rcases htask c b stage hc hstage with hnext | ⟨hbefore, hnot⟩
    · have hc' := hown c stage hnext
      rw [hc] at hc'
      cases hc'
      exact ⟨i, next, by rw [getElem?_set_of_some hi, if_pos rfl], hnext⟩
    · obtain ⟨j, q, hj, hq⟩ := h.task c b stage hbefore hstage
      have hne : i ≠ j := by
        rintro rfl
        rw [hi] at hj
        cases hj
        exact hnot hq
      exact ⟨j, q, by rw [getElem?_set_of_some hi, if_neg hne, hj], hq⟩
  addr := by
    intro j k b q q' hj hk hq hq'
    rcases of_getElem?_set hi hj with ⟨rfl, heq⟩ | ⟨-, hj⟩
    · cases heq
      rcases of_getElem?_set hi hk with ⟨rfl, -⟩ | ⟨-, hk⟩
      · rfl
      · exact h.addr i k a phase q' hi hk hopen hq'
    · rcases of_getElem?_set hi hk with ⟨rfl, heq⟩ | ⟨-, hk⟩
      · cases heq
        exact h.addr j i a q phase hj hi hq hopen
      · exact h.addr j k b q q' hj hk hq hq'

/-- The session stays as it is. -/
theorem Linked.set_same {roster : List (SocketAddr × Stage)}
    {crew : List (SocketAddr × HandlerPhase)} {i : Nat} {a : SocketAddr}
    {phase next : HandlerPhase} (h : Linked roster crew) (hi : crew[i]? = some (a, phase))
    (hopen : phase ≠ .ended) (hsame : next.session = phase.session) :
    Linked roster (crew.set i (a, next)) := by
  refine h.set hi hopen ?_ ?_ fun _ _ _ hc _ => hc
  · intro c stage hnext
    exact h.session i a phase c stage hi (hsame ▸ hnext)
  · intro c b stage hc _
    by_cases hphase : phase.session = some (c, stage)
    · exact .inl (hsame ▸ hphase)
    · exact .inr ⟨hc, hphase⟩

/-- The session takes a turn. -/
theorem Linked.set_turn {roster : List (SocketAddr × Stage)}
    {crew : List (SocketAddr × HandlerPhase)} {i : Nat} {a : SocketAddr} {c : SessionId}
    {stage stage' : Stage} {phase next : HandlerPhase} (h : Linked roster crew)
    (hi : crew[i]? = some (a, phase)) (hphase : phase.session = some (c, stage))
    (hnext : next.session = if stage' = .closed then none else some (c, stage')) :
    Linked (roster.set c (a, stage')) (crew.set i (a, next)) := by
  have hc := h.session i a phase c stage hi hphase
  refine h.set hi (ne_ended_of_session hphase) ?_ ?_ ?_
  · intro d stage'' hd
    rw [hnext] at hd
    split at hd
    · cases hd
    · cases hd
      rw [getElem?_set_of_some hc, if_pos rfl]
  · intro d b stage'' hd hstage
    rcases of_getElem?_set hc hd with ⟨rfl, heq⟩ | ⟨hne, hd⟩
    · cases heq
      exact .inl (by rw [hnext, if_neg hstage])
    · refine .inr ⟨hd, ?_⟩
      rw [hphase]
      rintro ⟨rfl⟩
      exact hne rfl
  · intro d b stage'' hd hnot
    rw [getElem?_set_of_some hc, if_neg, hd]
    rintro rfl
    rw [hc] at hd
    cases hd
    exact hnot hphase

/-- A new session for the task. -/
theorem Linked.set_new {roster : List (SocketAddr × Stage)}
    {crew : List (SocketAddr × HandlerPhase)} {i : Nat} {a : SocketAddr}
    {phase next : HandlerPhase} (h : Linked roster crew) (hi : crew[i]? = some (a, phase))
    (hopen : phase ≠ .ended) (hphase : phase.session = none)
    (hnext : next.session = some (roster.length, .working)) :
    Linked (roster ++ [(a, .working)]) (crew.set i (a, next)) := by
  refine h.set hi hopen ?_ ?_ ?_
  · intro c stage hc
    rw [hnext] at hc
    cases hc
    exact List.getElem?_concat_length
  · intro c b stage hc _
    rcases getElem?_concat_eq_some hc with hc | ⟨rfl, heq⟩
    · exact .inr ⟨hc, by rw [hphase]; simp⟩
    · cases heq
      exact .inl hnext
  · intro c b stage hc _
    rw [List.getElem?_append_left (List.getElem?_eq_some_iff.mp hc).1, hc]

/-- A new connection keeps the tasks and the sessions linked. It has no session yet, and no task
that is still there has its address. -/
theorem Linked.connect {roster : List (SocketAddr × Stage)}
    {crew : List (SocketAddr × HandlerPhase)} {a : SocketAddr} (h : Linked roster crew)
    (hfree : ∀ x ∈ crew, x.2 = .ended ∨ x.1 ≠ a) : Linked roster (crew ++ [(a, .handshake)]) where
  session := by
    intro i b phase c stage hi hphase
    rcases getElem?_concat_eq_some hi with hi | ⟨-, heq⟩
    · exact h.session i b phase c stage hi hphase
    · cases heq
      cases hphase
  task := by
    intro c b stage hc hstage
    obtain ⟨i, phase, hi, hphase⟩ := h.task c b stage hc hstage
    refine ⟨i, phase, ?_, hphase⟩
    rw [List.getElem?_append_left (List.getElem?_eq_some_iff.mp hi).1, hi]
  addr := by
    intro i j b phase phase' hi hj hphase hphase'
    have hused : ∀ {k : Nat} {q : HandlerPhase}, crew[k]? = some (a, q) → q ≠ .ended → False := by
      intro k q hk hq
      rcases hfree _ (List.mem_of_getElem? hk) with hended | hne
      · exact hq hended
      · exact hne rfl
    rcases getElem?_concat_eq_some hi with hi | ⟨rfl, heq⟩
    · rcases getElem?_concat_eq_some hj with hj | ⟨rfl, heq⟩
      · exact h.addr i j b phase phase' hi hj hphase hphase'
      · cases heq
        exact (hused hi hphase).elim
    · cases heq
      rcases getElem?_concat_eq_some hj with hj | ⟨rfl, -⟩
      · exact (hused hj hphase').elim
      · rfl

/-- Whether the commands of a session are sent or lost does not show in the roster. -/
theorem roster_send (x : Lifecycle) (s : System) : (x.send s).roster = s.roster := by
  unfold send
  split
  · rfl
  · rfl

/-- A step of a session that is not visible. -/
theorem roster_same {s s' : System} {c : SessionId} {action : SessionAction}
    (hs : s.sessionStep c action = some s') (hstop : action ≠ .stop)
    (hdisconnect : action ≠ .disconnect) : s'.roster = s.roster := by
  obtain ⟨a, stage, stage', hc, hroster, hturn⟩ := System.roster_sessionStep hs
  have hsame : stage' = stage := by
    cases action with
    | stop => exact absurd rfl hstop
    | disconnect => exact absurd rfl hdisconnect
    | command | deliver | read | respond | flush => exact hturn
  obtain ⟨hlt, heq⟩ := List.getElem?_eq_some_iff.mp hc
  rw [hroster, hsame, ← heq, List.set_getElem_self]

/-- A client does nothing that the tasks of the server see at once. -/
theorem same_of_client {s s' : System} {c : SessionId} {action : SessionAction}
    (haction : action.isClient = true) (hs : s.sessionStep c action = some s') :
    s'.roster = s.roster ∧ s'.commands = s.commands ∧ s'.distribution = s.distribution := by
  have hroster : s'.roster = s.roster := by
    refine roster_same hs ?_ ?_
    · rintro rfl
      cases haction
    · rintro rfl
      cases haction
  obtain ⟨y, y', cmds, -, hact, rfl⟩ := System.sessionStep_eq_some hs
  have hcmds : cmds = [] := by
    cases action with
    | command cmd =>
      simp only [Session.act, Option.map_eq_some_iff, Prod.mk.injEq] at hact
      obtain ⟨msg, -, -, rfl⟩ := hact
      rfl
    | deliver =>
      simp only [Session.act] at hact
      split at hact
      · cases hact
      · cases hact
        rfl
    | read | respond | flush | stop | disconnect => cases haction
  subst hcmds
  exact ⟨hroster, List.append_nil _, rfl⟩

variable {capacity : Nat} {x x' : Lifecycle} {l : LifecycleLabel}

/-- The crew has the address and the phase of every task, under the same index. -/
theorem getElem?_crew {i : Nat} {h : Handler} (hi : x.handlers[i]? = some h) :
    x.crew[i]? = some (h.addr, h.phase) := by
  rw [crew, List.getElem?_map, hi, Option.map_some]

/-- A task that has ended goes nowhere any more. -/
theorem Goes.ne_ended {h : Handler} {next : HandlerPhase} {s : System}
    {peers : HashMap SocketAddr PeerHandle} (hgoes : Goes x h l next s peers) :
    h.phase ≠ .ended := by
  cases hgoes with
  | failed hphase | registered hphase | inserted hphase | served hphase | stopped _ hphase
  | left hphase | ended hphase => simp [hphase]

/-- Whatever a task does, it stays linked to its session. Registering it brings the session along,
and the turns of the session are the turns of the task. -/
theorem Goes.linked {i : Nat} {h : Handler} {next : HandlerPhase} {s : System}
    {peers : HashMap SocketAddr PeerHandle} (hgoes : Goes x h l next s peers)
    (hi : x.handlers[i]? = some h) (hlinked : Linked x.system.roster x.crew) :
    Linked s.roster (x.crew.set i (h.addr, next)) := by
  have hopen := hgoes.ne_ended
  have hi' := getElem?_crew hi
  -- The session of the task is the one that takes the turn.
  have hturn : ∀ {c : SessionId} {stage stage' : Stage} {action : SessionAction},
      h.phase.session = some (c, stage) → x.system.sessionStep c action = some s →
      (∀ stage'', action.Turns stage stage'' → stage'' = stage') →
      next.session = (if stage' = .closed then none else some (c, stage')) →
      Linked s.roster (x.crew.set i (h.addr, next)) := by
    intro c stage stage' action hphase hs hturns hnext
    obtain ⟨a, before, after, hc, hroster, hturn⟩ := System.roster_sessionStep hs
    have hc' := hlinked.session i _ _ c stage hi' hphase
    rw [hc] at hc'
    cases hc'
    rw [hroster, hturns after hturn]
    exact hlinked.set_turn hi' hphase hnext
  cases hgoes with
  | failed hphase | inserted hphase | left hphase =>
    exact hlinked.set_same hi' hopen (by rw [hphase]; rfl)
  | registered hphase hs =>
    rw [System.roster_accept hs]
    refine hlinked.set_new hi' hopen (by rw [hphase]; rfl) ?_
    simp [HandlerPhase.session, System.roster]
  | @served _ c action _ hphase haction hs =>
    have hstop : action ≠ .stop := by
      rintro rfl
      cases haction
    have hdisconnect : action ≠ .disconnect := by
      rintro rfl
      cases haction
    rw [roster_same hs hstop hdisconnect]
    exact hlinked.set_same hi' hopen (by rw [hphase])
  | stopped _ hphase hs =>
    exact hturn (by rw [hphase]; rfl) hs (fun _ h => h.2) rfl
  | ended hphase hs =>
    exact hturn (by rw [hphase]; rfl) hs (fun _ h => h.2) rfl

/-- A task that goes on holds the actor's channel open. -/
theorem held_of_goes {i : Nat} {h : Handler} {next : HandlerPhase} {s : System}
    {peers : HashMap SocketAddr PeerHandle} (hi : x.handlers[i]? = some h)
    (hgoes : Goes x h l next s peers) : x.Held :=
  .inr (.inr (.inl ⟨h, List.mem_of_getElem? hi, hgoes.ne_ended⟩))

/-- What holds between the tasks and the system. The actor ends after everybody else, with an
empty channel. -/
structure Sound (x : Lifecycle) : Prop where
  linked : Linked x.system.roster x.crew
  resting : x.routing = false →
    ¬ x.Held ∧ x.system.commands = [] ∧ x.system.distribution = none

/-- While anybody holds the channel of the actor, the actor runs. -/
theorem Sound.routing (h : Sound x) (hheld : x.Held) : x.routing = true := by
  by_contra hrouting
  exact (h.resting (Bool.not_eq_true _ ▸ hrouting)).1 hheld

/-- Nobody waits for an actor that has ended. -/
theorem Sound.not_defaulted {i : Nat} {c : SessionId} {y : Handler} (h : Sound x)
    (hrouting : x.routing = false) (hi : x.handlers[i]? = some y)
    (hphase : y.phase = .serving c) : False := by
  have hheld : x.Held := .inr (.inr (.inl ⟨y, List.mem_of_getElem? hi, by simp [hphase]⟩))
  exact (h.resting hrouting).1 hheld

/-- A step keeps tasks and system together, whoever makes it. -/
theorem sound_step (h : Sound x) (hs : (lts capacity).step x l = some x') : Sound x' := by
  cases moves_of_step hs with
  | connected haccepting hfree hx' =>
    subst hx'
    refine ⟨?_, fun hrouting => ?_⟩
    · rw [crew, List.map_append]
      refine h.linked.connect fun y hy => ?_
      obtain ⟨h, hmem, rfl⟩ := List.mem_map.mp hy
      exact hfree h hmem
    · exact absurd (.inr (.inl haccepting)) (h.resting hrouting).1
  | went hi hgoes hx' =>
    subst hx'
    have hlinked := hgoes.linked hi h.linked
    refine ⟨?_, fun hrouting => ?_⟩
    · rw [roster_send, crew, List.map_set]
      exact hlinked
    · cases hrouting.symm.trans (h.routing (held_of_goes hi hgoes))
  | defaulted hrouting hi hphase => exact (h.not_defaulted hrouting hi hphase).elim
  | @client c action s haction hstep hx' =>
    subst hx'
    obtain ⟨hroster, hcommands, hidle⟩ := same_of_client haction hstep
    refine ⟨hroster.symm ▸ h.linked, fun hrouting => ?_⟩
    obtain ⟨hnot, hempty, hnone⟩ := h.resting hrouting
    exact ⟨hnot, hcommands.trans hempty, hidle.trans hnone⟩
  | routed hrouting hl hstep hx' =>
    subst hx'
    refine ⟨?_, fun hfalse => by cases hfalse.symm.trans hrouting⟩
    exact (System.roster_actor hl hstep).symm ▸ h.linked
  | ended hrouting hheld hcommands hidle hx' =>
    subst hx'
    exact ⟨h.linked, fun _ => ⟨hheld, hcommands, hidle⟩⟩
  | governed hl hsystem hpeers hrouting hhandlers hheld =>
    refine ⟨?_, fun hfalse => ?_⟩
    · rw [hsystem, crew, hhandlers]
      exact h.linked
    · obtain ⟨hnot, hcommands, hidle⟩ := h.resting (hrouting ▸ hfalse)
      exact ⟨fun hx' => hnot (hheld hx'), hsystem ▸ hcommands, hsystem ▸ hidle⟩

/-- Tasks and system fit together in every reachable state. -/
theorem sound_of_run {ls : List LifecycleLabel} (hrun : (lts capacity).Run ls x) : Sound x := by
  refine hrun.invariant (P := Sound) ?_ fun _ _ _ _ _ h hs => sound_step h hs
  exact ⟨⟨by simp [crew, lts, start], by simp [System.roster, lts, start, System.new],
    by simp [crew, lts, start]⟩, fun hrouting => by cases hrouting⟩

/-- A session that is not closed has a task, which is somewhere between its registration and its
end. -/
theorem Sound.task {c : SessionId} {y : Session} {stage : Stage} (h : Sound x)
    (hy : x.system.sessions[c]? = some y) (hstage : y.phase.stage = stage)
    (hopen : stage ≠ .closed) :
    ∃ (i : Nat) (t : Handler), x.handlers[i]? = some t ∧ t.phase.session = some (c, stage) := by
  obtain ⟨i, phase, hi, hsession⟩ :=
    h.linked.task c y.addr stage (System.getElem?_roster.mpr ⟨y, hy, rfl, hstage⟩) hopen
  rw [crew, List.getElem?_map, Option.map_eq_some_iff] at hi
  obtain ⟨t, ht, heq⟩ := hi
  exact ⟨i, t, ht, (Prod.mk.inj heq).2 ▸ hsession⟩

/-- Whatever a task sends reaches the actor. So a step of the server is a step of `System`. -/
theorem system_step (h : Sound x) (hs : (lts capacity).step x l = some x') :
    l.system = none ∧ x'.system = x.system ∨
      ∃ l', l.system = some l' ∧
        (System.lts capacity).step x.system l' = some x'.system := by
  cases moves_of_step hs with
  | connected _ _ hx' => exact .inl ⟨rfl, hx' ▸ rfl⟩
  | went hi hgoes hx' =>
    have hrouting := h.routing (held_of_goes hi hgoes)
    subst hx'
    simp only [send, hrouting, if_true]
    cases hgoes with
    | failed | inserted | left => exact .inl ⟨rfl, rfl⟩
    | registered _ hstep => exact .inr ⟨_, rfl, hstep⟩
    | served _ _ hstep => exact .inr ⟨_, rfl, hstep⟩
    | stopped hl _ hstep =>
      rcases hl with rfl | rfl
      · exact .inr ⟨_, rfl, hstep⟩
      · exact .inr ⟨_, rfl, hstep⟩
    | ended _ hstep => exact .inr ⟨_, rfl, hstep⟩
  | defaulted hrouting hi hphase => exact (h.not_defaulted hrouting hi hphase).elim
  | client _ hstep hx' => exact .inr ⟨_, rfl, hx' ▸ hstep⟩
  | routed _ _ hstep hx' => exact .inr ⟨_, rfl, hx' ▸ hstep⟩
  | ended _ _ _ _ hx' => exact .inl ⟨rfl, hx' ▸ rfl⟩
  | governed hl hsystem => exact .inl ⟨hl, hsystem⟩

/-- A run of the server with its start and end, with the steps that `System` does not know left
out, is a run of `System`. -/
theorem system_run {ls : List LifecycleLabel} (hrun : (lts capacity).Run ls x) :
    (System.lts capacity).Run (ls.filterMap LifecycleLabel.system) x.system :=
  Lts.Run.project (I := Sound) rfl (fun _ _ hrun => sound_of_run hrun)
    (fun _ _ _ h hs => system_step h hs) hrun

/-- **The server is `System`.** Whatever starts, ends, signals and drops there is around the routing
actor and the sessions, in every run they do the steps of a run of `System`. No command is sent to
an actor that has ended, no task waits for its response in vain, and no session is open when it
ends. So the results that are not looked at, and the empty list for a missing response, stand for
nothing that happens. -/
theorem refines_system {ls : List LifecycleLabel} (hrun : (lts capacity).Run ls x) :
    (System.lts capacity).Run (ls.filterMap LifecycleLabel.system) x.system ∧
    (∀ i c, .responseDropped i c ∉ ls) ∧
    (x.routing = false → x.system.commands = [] ∧ ∀ y ∈ x.system.sessions, y.phase = .closed) := by
  refine ⟨system_run hrun, ?_, fun hrouting => ?_⟩
  · intro i c
    induction hrun with
    | nil => simp
    | snoc hrun hs ih =>
      intro hmem
      rcases List.mem_append.mp hmem with hmem | hmem
      · exact ih hmem
      · cases List.mem_singleton.mp hmem
        obtain ⟨⟨hrouting, hserving⟩, -⟩ := Option.ite_none_right_eq_some.mp hs
        obtain ⟨t, hi, hphase⟩ := Option.map_eq_some_iff.mp hserving
        exact (sound_of_run hrun).not_defaulted hrouting hi hphase
  · have h := sound_of_run hrun
    obtain ⟨hheld, hcommands, -⟩ := h.resting hrouting
    refine ⟨hcommands, fun y hy => ?_⟩
    obtain ⟨c, hc⟩ := List.getElem?_of_mem hy
    by_contra hopen
    have hstage : y.phase.stage ≠ .closed := by
      cases hphase : y.phase <;> simp [hphase, Phase.stage] at hopen ⊢
    obtain ⟨i, t, hi, hsession⟩ := h.task hc rfl hstage
    exact hheld (.inr (.inr (.inl ⟨t, List.mem_of_getElem? hi, ne_ended_of_session hsession⟩)))

/-- A server that is shut down while the second connection is in its handshake, which is complete
only after the signal. Between the signal and the end of the accept loop comes a third one. -/
def lateConnections : List LifecycleLabel :=
  [ .connect (.loopback 40001), .register 0 (.loopback 40001) [] [], .insertPeer 0,
    .actor (.recv [] []), .actor .finish, .connect (.loopback 40002), .shutdown,
    .connect (.loopback 40003), .signalAccept, .register 1 (.loopback 40002) [] [],
    .register 2 (.loopback 40003) [] [], .insertPeer 2 ]

/-- How the server of the run `lateConnections` goes down. -/
def goesDown : List LifecycleLabel :=
  [ .insertPeer 1, .signalled 0 0, .signalled 1 1, .shutdownReturns, .endAccept, .signalled 2 2,
    .removePeer 0, .removePeer 1, .removePeer 2, .disconnect 0 0, .disconnect 1 1,
    .disconnect 2 2 ] ++
    (List.replicate 5 [.actor (.recv [] []), .actor .finish]).flatten ++ [.endActor]

/-- In the run `lateConnections` and then `goesDown`, the actor ends. -/
theorem refines_system_goesDown :
    ∃ x, (lts maxPendingMessages).Run (lateConnections ++ goesDown) x ∧ x.routing = false ∧
      ∀ y ∈ x.system.sessions, y.phase = .closed := by
  have hrun : (lts maxPendingMessages).Run (lateConnections ++ goesDown) _ :=
    Lts.Run.of_exec (by decide)
  exact ⟨_, hrun, rfl, ((refines_system hrun).2.2 rfl).2⟩

/-! ### The map of the peers -/

def Listed (peers : HashMap SocketAddr PeerHandle) (crew : List (SocketAddr × HandlerPhase)) :
    Prop :=
  ∀ a p, peers.lookup a = some p ↔
    ∃ (i : Nat) (phase : HandlerPhase), crew[i]? = some (a, phase) ∧ phase.entry = some p

/-- A task with an entry in the map has not ended. -/
theorem ne_ended_of_entry {phase : HandlerPhase} {p : PeerHandle} (h : phase.entry = some p) :
    phase ≠ .ended := by
  rintro rfl
  cases h

/-- To speak of the crew or of the tasks themselves is the same. -/
theorem exists_crew {a : SocketAddr} {Q : HandlerPhase → Prop} :
    (∃ (i : Nat) (phase : HandlerPhase), x.crew[i]? = some (a, phase) ∧ Q phase) ↔
      ∃ h ∈ x.handlers, h.addr = a ∧ Q h.phase := by
  constructor
  · rintro ⟨i, phase, hi, hphase⟩
    obtain ⟨h, hh, heq⟩ := List.mem_map.mp (List.mem_of_getElem? hi)
    cases heq
    exact ⟨h, hh, rfl, hphase⟩
  · rintro ⟨h, hh, rfl, hphase⟩
    obtain ⟨i, hi⟩ := List.getElem?_of_mem hh
    exact ⟨i, h.phase, getElem?_crew hi, hphase⟩

/-- The only task at an address goes on. -/
theorem Listed.set {roster : List (SocketAddr × Stage)} {crew : List (SocketAddr × HandlerPhase)}
    {peers peers' : HashMap SocketAddr PeerHandle} {i : Nat} {a : SocketAddr}
    {phase next : HandlerPhase} (h : Listed peers crew) (hlinked : Linked roster crew)
    (hi : crew[i]? = some (a, phase)) (hopen : phase ≠ .ended)
    (hself : peers'.lookup a = next.entry)
    (hother : ∀ b, b ≠ a → peers'.lookup b = peers.lookup b) :
    Listed peers' (crew.set i (a, next)) := by
  intro b p
  by_cases hb : b = a
  · subst hb
    rw [hself]
    constructor
    · intro hnext
      exact ⟨i, next, by rw [getElem?_set_of_some hi, if_pos rfl], hnext⟩
    · rintro ⟨j, q, hj, hq⟩
      rcases of_getElem?_set hi hj with ⟨-, heq⟩ | ⟨hne, hj⟩
      · cases heq
        exact hq
      · exact absurd (hlinked.addr i j b phase q hi hj hopen (ne_ended_of_entry hq)) hne
  · rw [hother b hb, h b p]
    constructor
    · rintro ⟨j, q, hj, hq⟩
      have hne : i ≠ j := by
        rintro rfl
        rw [hi] at hj
        cases hj
        exact hb rfl
      exact ⟨j, q, by rw [getElem?_set_of_some hi, if_neg hne, hj], hq⟩
    · rintro ⟨j, q, hj, hq⟩
      rcases of_getElem?_set hi hj with ⟨-, heq⟩ | ⟨-, hj⟩
      · cases heq
        exact absurd rfl hb
      · exact ⟨j, q, hj, hq⟩

/-- What the map has for the address of an open task. -/
theorem Listed.lookup {roster : List (SocketAddr × Stage)}
    {crew : List (SocketAddr × HandlerPhase)} {peers : HashMap SocketAddr PeerHandle} {i : Nat}
    {a : SocketAddr} {phase : HandlerPhase} (h : Listed peers crew)
    (hlinked : Linked roster crew) (hi : crew[i]? = some (a, phase)) (hopen : phase ≠ .ended) :
    peers.lookup a = phase.entry := by
  apply Option.ext
  intro p
  rw [h a p]
  constructor
  · rintro ⟨j, q, hj, hq⟩
    obtain rfl := hlinked.addr i j a phase q hi hj hopen (ne_ended_of_entry hq)
    rw [hi] at hj
    cases hj
    exact hq
  · exact fun hp => ⟨i, phase, hi, hp⟩

/-- A task that goes on keeps the map of the peers exact: what it inserts or removes is the entry
of its own address, which no other live task has. -/
theorem Goes.listed {i : Nat} {h : Handler} {next : HandlerPhase} {s : System}
    {peers : HashMap SocketAddr PeerHandle} (hgoes : Goes x h l next s peers)
    (hi : x.handlers[i]? = some h) (hlinked : Linked x.system.roster x.crew)
    (hlisted : Listed x.peers x.crew) : Listed peers (x.crew.set i (h.addr, next)) := by
  have hopen := hgoes.ne_ended
  have hi' := getElem?_crew hi
  have hlookup := hlisted.lookup hlinked hi' hopen
  cases hgoes with
  | failed hphase | registered hphase | served hphase | stopped _ hphase | ended hphase =>
    rw [hphase] at hlookup
    exact hlisted.set hlinked hi' hopen hlookup fun _ _ => rfl
  | inserted hphase =>
    refine hlisted.set hlinked hi' hopen ?_ fun b hb => ?_
    · rw [HashMap.lookup_insert', if_pos rfl]
      rfl
    · rw [HashMap.lookup_insert', if_neg hb]
  | left hphase =>
    refine hlisted.set hlinked hi' hopen ?_ fun b hb => ?_
    · rw [HashMap.lookup_erase', if_pos rfl]
      rfl
    · rw [HashMap.lookup_erase', if_neg hb]

/-- A step keeps the map of the peers exact. Only `went` changes the map. -/
theorem listed_step (h : Sound x) (hlisted : Listed x.peers x.crew)
    (hs : (lts capacity).step x l = some x') : Listed x'.peers x'.crew := by
  cases moves_of_step hs with
  | @connected addr _ _ hx' =>
    subst hx'
    intro a p
    rw [hlisted a p, crew, crew, List.map_append]
    constructor
    · rintro ⟨i, phase, hi, hp⟩
      refine ⟨i, phase, ?_, hp⟩
      rw [List.getElem?_append_left (List.getElem?_eq_some_iff.mp hi).1, hi]
    · rintro ⟨i, phase, hi, hp⟩
      rcases getElem?_concat_eq_some hi with hi | ⟨-, heq⟩
      · exact ⟨i, phase, hi, hp⟩
      · cases heq
        cases hp
  | went hi hgoes hx' =>
    subst hx'
    rw [crew, List.map_set]
    exact hgoes.listed hi h.linked hlisted
  | defaulted hrouting hi hphase => exact (h.not_defaulted hrouting hi hphase).elim
  | client _ _ hx' | routed _ _ _ hx' | ended _ _ _ _ hx' => exact hx' ▸ hlisted
  | governed _ _ hpeers _ hhandlers =>
    rw [hpeers, crew, hhandlers]
    exact hlisted

/-- The map of the peers has exactly the entries of the established tasks, in every reachable
state. -/
theorem listed_of_run {ls : List LifecycleLabel} (hrun : (lts capacity).Run ls x) :
    Listed x.peers x.crew := by
  have hinit : Sound (lts capacity).init ∧
      Listed (lts capacity).init.peers (lts capacity).init.crew := by
    refine ⟨sound_of_run .nil, fun a p => ?_⟩
    simp [lts, start, crew]
  exact (hrun.invariant (P := fun x => Sound x ∧ Listed x.peers x.crew) hinit
    fun _ _ _ _ _ h hs => ⟨sound_step h.1 hs, listed_step h.1 h.2 hs⟩).2

/-- No two tasks are in the map under one address. -/
theorem nodup_listed (h : Linked x.system.roster x.crew) :
    ((x.handlers.filter fun h => h.phase.entry.isSome).map fun h => h.addr).Nodup := by
  rw [List.Nodup, List.pairwise_map, List.pairwise_filter, List.pairwise_iff_getElem]
  intro i j hi hj hlt hentry hentry' haddr
  obtain ⟨p, hp⟩ := Option.isSome_iff_exists.mp hentry
  obtain ⟨p', hp'⟩ := Option.isSome_iff_exists.mp hentry'
  have hget : ∀ {k : Nat} (hk : k < x.handlers.length), x.handlers[k]? = some x.handlers[k] :=
    fun hk => List.getElem?_eq_getElem hk
  have hcrew := getElem?_crew (hget hj)
  rw [← haddr] at hcrew
  have heq := h.addr i j _ _ _ (getElem?_crew (hget hi)) hcrew (ne_ended_of_entry hp)
    (ne_ended_of_entry hp')
  omega

/-- **The map of the peers is right.** In every state of every run it has precisely the addresses
whose `handle_peer` task is between its entry and its removal, each with the channel of its session
and as established. So `peer_count` counts these tasks. -/
theorem peers_eq {ls : List LifecycleLabel} (hrun : (lts capacity).Run ls x) :
    (∀ a p, x.peers.lookup a = some p ↔ p.state = .established ∧
      ∃ h ∈ x.handlers, h.addr = a ∧ (h.phase = .serving p.tx ∨ h.phase = .leaving p.tx)) ∧
    x.peerCount = x.handlers.countP fun h => h.phase.entry.isSome := by
  have hlisted : ∀ a p, x.peers.lookup a = some p ↔
      ∃ h ∈ x.handlers, h.addr = a ∧ h.phase.entry = some p :=
    fun a p => (listed_of_run hrun a p).trans exists_crew
  refine ⟨fun a p => ?_, ?_⟩
  · simp only [hlisted a p, HandlerPhase.entry_eq_some]
    constructor
    · rintro ⟨h, hh, haddr, hstate, hphase⟩
      exact ⟨hstate, h, hh, haddr, hphase⟩
    · rintro ⟨hstate, h, hh, haddr, hphase⟩
      exact ⟨h, hh, haddr, hstate, hphase⟩
  · have hkeys : x.peers.keys =
        ((x.handlers.filter fun h => h.phase.entry.isSome).map fun h => h.addr).toFinset := by
      ext a
      simp only [Finmap.mem_keys, ← Finmap.lookup_isSome, Option.isSome_iff_exists, hlisted a,
        List.mem_toFinset, List.mem_map, List.mem_filter]
      constructor
      · rintro ⟨p, h, hh, haddr, hp⟩
        exact ⟨h, ⟨hh, p, hp⟩, haddr⟩
      · rintro ⟨h, ⟨hh, p, hp⟩, haddr⟩
        exact ⟨p, h, hh, haddr, hp⟩
    rw [peerCount, HashMap.len_eq_card_keys, hkeys,
      List.toFinset_card_of_nodup (nodup_listed (sound_of_run hrun).linked), List.length_map,
      List.countP_eq_length_filter]

/-- At the end of the run `lateConnections`, two of the three connections are counted. -/
theorem peers_eq_lateConnections :
    ∃ x, (lts maxPendingMessages).Run lateConnections x ∧
      x.peers.lookup (.loopback 40003) = some ⟨2, .established⟩ ∧ x.peerCount = 2 := by
  have hrun : (lts maxPendingMessages).Run lateConnections _ := Lts.Run.of_exec (by decide)
  obtain ⟨hlookup, hcount⟩ := peers_eq hrun
  refine ⟨_, hrun, (hlookup _ _).mpr ⟨rfl, ⟨.loopback 40003, .serving 2, false⟩, ?_⟩, ?_⟩
  · decide
  · rw [hcount]
    decide

/-! ### Shutdown -/

/-- The steps that a task has still to make after its handshake, and one more for every other one
of the server. -/
def remaining (x : Lifecycle) : Nat :=
  x.crew.foldr (fun t n => t.2.rest + n) 0 + x.authority + if x.routing then 1 else 0

/-- What is left to do, first for the tasks that come to their end. -/
def rank (x : Lifecycle) : Nat ×ₗ (Nat ×ₗ Nat ×ₗ Nat ×ₗ Nat ×ₗ Nat ×ₗ Nat ×ₗ Nat) :=
  toLex (x.remaining, x.system.backlog)

/-- The rank is lexicographic: first the tasks that have still to end, then the backlog of the
system. -/
theorem rank_lt_iff : x'.rank < x.rank ↔ x'.remaining < x.remaining ∨
    x'.remaining = x.remaining ∧ x'.system.backlog < x.system.backlog := by
  simp only [rank, Prod.Lex.toLex_lt_toLex]

/-- Every step of the server's own tasks lowers the rank. One that brings a task nearer to its end
lowers the first component, and the others work on the backlog. -/
theorem rank_lt (h : Sound x) (hown : l.isOwn = true) (hs : (lts capacity).step x l = some x') :
    x'.rank < x.rank := by
  rw [rank_lt_iff]
  cases moves_of_step hs with
  | connected => cases hown
  | @went l i t next s peers hi hgoes hx' =>
    have hrouting := h.routing (held_of_goes hi hgoes)
    have hset := List.foldr_add_set (getElem?_crew hi) (t.addr, next) fun t => t.2.rest
    have hremaining : x'.remaining + t.phase.rest = x.remaining + next.rest := by
      subst hx'
      simp only [remaining, authority, crew, List.map_set] at hset ⊢
      omega
    cases hgoes with
    | failed | registered => cases hown
    | inserted hphase | stopped _ hphase | left hphase | ended hphase =>
      rw [hphase] at hremaining
      simp only [HandlerPhase.rest] at hremaining
      exact .inl (by omega)
    | @served _ c action _ hphase haction hstep =>
      rw [hphase] at hremaining
      refine .inr ⟨Nat.add_right_cancel hremaining, ?_⟩
      have hserving : action.isOwn = true := by
        cases action with
        | read | respond | flush => rfl
        | command | deliver | stop | disconnect => cases haction
      subst hx'
      simp only [send, hrouting, if_true]
      exact System.backlog_lt_of_sessionStep hserving hstep
  | defaulted hrouting hi hphase => exact (h.not_defaulted hrouting hi hphase).elim
  | @client c action s haction hstep hx' =>
    subst hx'
    refine .inr ⟨rfl, System.backlog_lt_of_sessionStep ?_ hstep⟩
    cases of_decide_eq_true hown
    rfl
  | @routed l s hrouting hl hstep hx' =>
    subst hx'
    have hrouted : l.isOwn = true := by
      cases l with
      | recv | trySend | finish => rfl
      | accept | session => cases hl
    have hlts : (System.lts capacity).step x.system l = some s := hstep
    exact .inr ⟨rfl, System.backlog_lt hrouted hlts⟩
  | ended hrouting _ _ _ hx' =>
    subst hx'
    refine .inl ?_
    simp [remaining, authority, crew, hrouting]
  | governed _ _ _ hrouting hhandlers _ _ hless =>
    have hlt := hless hown
    refine .inl ?_
    simp only [remaining, crew, hhandlers, hrouting]
    omega

/-- A shutdown is never taken back. -/
theorem shutting_step (hs : (lts capacity).step x l = some x') (h : x.server ≠ .running) :
    x'.server ≠ .running := by
  cases moves_of_step hs with
  | connected _ _ hx' | went _ _ hx' | client _ _ hx' | routed _ _ _ hx' | ended _ _ _ _ hx' =>
    exact hx' ▸ h
  | defaulted =>
    obtain ⟨-, heq⟩ := Option.ite_none_right_eq_some.mp hs
    cases heq
    exact h
  | governed _ _ _ _ _ _ hserver => exact hserver h

/-- Only connections that have not completed their handshake are left of the server, and clones of
its state. It is as it was at the start apart from that. Its actor has ended unless one of them
holds a handle. -/
structure Down (x : Lifecycle) : Prop where
  server : x.server = .dropped
  accepting : x.accepting = false
  handlers : ∀ h ∈ x.handlers, h.phase = .handshake ∨ h.phase = .ended
  peers : x.peers = ∅
  actor : x.system.actor = RoutingActor.new
  arrived : x.system.AllArrived
  routing : x.routing = true ↔ (∃ h ∈ x.handlers, h.phase = .handshake) ∨ 0 < x.clones

/-- A task can make a step with its session whenever the session can. -/
theorem handle_isSome {i : Nat} {t : Handler} {c : SessionId} {next : HandlerPhase}
    {action : SessionAction} (hi : x.handlers[i]? = some t)
    (hstep : (x.system.sessionStep c action).isSome) :
    (x.handle i c t.phase next action).isSome := by
  simp only [handle, advance, hi, Option.bind_some, if_true, Option.isSome_map]
  exact hstep

/-- The task waits for its client or for the actor when it takes an action in its main loop. -/
theorem working_of_serving {y y' : Session} {c : SessionId} {action : SessionAction}
    {cmds : List RoutingCommand} (haction : action.isServing = true)
    (h : y.act c action = some (y', cmds)) : y.phase.stage = .working := by
  cases action with
  | command | deliver | stop | disconnect => cases haction
  | read =>
    simp only [Session.act] at h
    split at h
    · rename_i hphase _
      rw [hphase]
      rfl
    · cases h
  | respond =>
    simp only [Session.act] at h
    split at h
    · rename_i hphase
      rw [hphase]
      rfl
    · cases h
  | flush batch =>
    obtain ⟨⟨hphase, -⟩, -⟩ := Option.ite_none_right_eq_some.mp h
    rw [hphase]
    rfl

/-- In a quiet state no step of the server's own tasks is possible. -/
theorem stuck (hquiet : (lts capacity).Quiet (fun l => l.isOwn = true) x) (hown : l.isOwn = true) :
    ¬ ((lts capacity).step x l).isSome := by
  rw [hquiet l hown]
  simp

/-- Where no step of the tasks is left, every task is in its handshake, in its main loop or at its
end. -/
theorem phase_of_quiet (h : Sound x)
    (hquiet : (lts capacity).Quiet (fun l => l.isOwn = true) x) {t : Handler}
    (ht : t ∈ x.handlers) :
    t.phase = .handshake ∨ (∃ c, t.phase = .serving c) ∨ t.phase = .ended := by
  obtain ⟨i, hi⟩ := List.getElem?_of_mem ht
  obtain ⟨addr, phase, signalled⟩ := t
  cases phase with
  | handshake => exact .inl rfl
  | serving c => exact .inr (.inl ⟨c, rfl⟩)
  | ended => exact .inr (.inr rfl)
  | registered c =>
    refine absurd ?_ (stuck hquiet (l := .insertPeer i) rfl)
    simp [lts, step, insertPeer, hi]
  | leaving c =>
    refine absurd ?_ (stuck hquiet (l := .removePeer i) rfl)
    simp [lts, step, removePeer, hi]
  | removed c =>
    -- Its session is past the main loop as well.
    have hc := h.linked.session i addr (.removed c) c .stopped (getElem?_crew hi) rfl
    obtain ⟨y, hy, -, hstage⟩ := System.getElem?_roster.mp hc
    have hstopped : y.phase = .stopped := by
      cases hphase : y.phase <;> simp [hphase, Phase.stage] at hstage
      rfl
    refine absurd ?_ (stuck hquiet (l := .disconnect i c) rfl)
    refine handle_isSome hi ?_
    simp [System.sessionStep, hy, Session.act, hstopped]

/-- The task of a session that takes an action in its main loop is there. -/
theorem serving_of_quiet (h : Sound x)
    (hquiet : (lts capacity).Quiet (fun l => l.isOwn = true) x) {c : SessionId} {y : Session}
    (hy : x.system.sessions[c]? = some y) (hworking : y.phase.stage = .working) :
    ∃ (i : Nat) (t : Handler), x.handlers[i]? = some t ∧ t.phase = .serving c := by
  obtain ⟨i, t, hi, hsession⟩ := h.task hy hworking (by simp)
  refine ⟨i, t, hi, ?_⟩
  rcases phase_of_quiet h hquiet (List.mem_of_getElem? hi) with hphase | ⟨c', hphase⟩ | hphase
  · simp [hphase, HandlerPhase.session] at hsession
  · rw [hphase] at hsession
    cases hsession
    exact hphase
  · simp [hphase, HandlerPhase.session] at hsession

/-- Where no step of the tasks is left, no step is left in the system. -/
theorem system_quiet (h : Sound x)
    (hquiet : (lts capacity).Quiet (fun l => l.isOwn = true) x) :
    (System.lts capacity).Quiet (fun l => l.isOwn = true) x.system := by
  intro l hown
  by_contra hne
  obtain ⟨s, hs⟩ := Option.ne_none_iff_exists'.mp hne
  have hactor : l.isActor = true → False := by
    intro hl
    cases hrouting : x.routing with
    | true =>
      refine stuck hquiet (l := .actor l) rfl ?_
      show ((if x.routing ∧ l.isActor then
        (x.system.step capacity l).map fun s => { x with system := s } else none)).isSome
      rw [if_pos ⟨hrouting, hl⟩, Option.isSome_map, Option.isSome_iff_exists]
      exact ⟨s, hs⟩
    | false =>
      -- The channel of an actor that has ended is empty.
      obtain ⟨-, hcommands, hidle⟩ := h.resting hrouting
      cases l with
      | accept | session => cases hl
      | recv owned routes =>
        obtain ⟨_, _, _, _, -, hsome, -⟩ := System.recv_eq_some hs
        rw [hcommands] at hsome
        cases hsome
      | trySend addr =>
        obtain ⟨_, _, _, _, hsome, -⟩ := System.trySend_eq_some hs
        rw [hidle] at hsome
        cases hsome
      | finish =>
        obtain ⟨_, hsome, -⟩ := System.finish_eq_some hs
        rw [hidle] at hsome
        cases hsome
  cases l with
  | accept => cases hown
  | recv | trySend | finish => exact hactor rfl
  | session c action =>
    have hstep : x.system.sessionStep c action = some s := hs
    have hsome : (x.system.sessionStep c action).isSome := hstep ▸ rfl
    obtain ⟨y, y', cmds, hy, hact, -⟩ := System.sessionStep_eq_some hstep
    have hserving : action.isServing = true → y.phase.stage = .working → False := by
      intro haction hworking
      obtain ⟨i, t, hi, hphase⟩ := serving_of_quiet h hquiet hy hworking
      refine stuck hquiet (l := .serve i c action) rfl ?_
      show (if action.isServing then x.handle i c (.serving c) (.serving c) action
        else none).isSome
      rw [if_pos haction, ← hphase]
      exact handle_isSome hi hsome
    cases action with
    | command | stop => cases hown
    | deliver =>
      refine stuck hquiet (l := .client c .deliver) rfl ?_
      show ((x.system.sessionStep c .deliver).map fun s => { x with system := s }).isSome
      rw [Option.isSome_map]
      exact hsome
    | read | respond | flush => exact hserving rfl (working_of_serving rfl hact)
    | disconnect =>
      obtain ⟨hstopped, -⟩ := Option.ite_none_right_eq_some.mp hact
      have hstage : y.phase.stage = .stopped := by rw [hstopped, Phase.stage]
      obtain ⟨i, t, hi, hsession⟩ := h.task hy hstage (by simp)
      rcases phase_of_quiet h hquiet (List.mem_of_getElem? hi) with hphase | ⟨_, hphase⟩ | hphase
      · simp [hphase, HandlerPhase.session] at hsession
      · simp [hphase, HandlerPhase.session] at hsession
      · simp [hphase, HandlerPhase.session] at hsession

/-- Where no step of the tasks is left, and the server is given up, it is down. -/
theorem down_of_quiet {ls : List LifecycleLabel} (hrun : (lts capacity).Run ls x)
    (hquiet : (lts capacity).Quiet (fun l => l.isOwn = true) x) (hshutdown : x.server ≠ .running) :
    Down x := by
  have h := sound_of_run hrun
  have hserver : x.server = .dropped := by
    cases hserver : x.server with
    | running => exact absurd hserver hshutdown
    | peersSignalled =>
      refine absurd ?_ (stuck hquiet (l := .signalAccept) rfl)
      simp [lts, step, hserver]
    | acceptSignalled =>
      refine absurd ?_ (stuck hquiet (l := .shutdownReturns) rfl)
      simp [lts, step, hserver]
    | dropped => rfl
  have haccepting : x.accepting = false := by
    cases haccepting : x.accepting with
    | false => rfl
    | true =>
      refine absurd ?_ (stuck hquiet (l := .endAccept) rfl)
      simp [lts, step, hserver, haccepting]
  have harrived : x.system.AllArrived :=
    System.allArrived_of_quiet (System.awaiting_of_run (system_run hrun))
      (System.targeted_of_run (system_run hrun)) (system_quiet h hquiet)
  -- Nobody is left to send on the broadcast channel, so every main loop would end.
  have hnone : ∀ (c : SessionId) (y : Session), x.system.sessions[c]? = some y →
      y.phase ≠ .running := by
    intro c y hy hrunning
    obtain ⟨i, t, hi, hphase⟩ := serving_of_quiet h hquiet hy (by rw [hrunning]; rfl)
    refine stuck hquiet (l := .signalled i c) rfl ?_
    have hclosed : ¬ x.Broadcasting := by simp [Broadcasting, hserver, haccepting]
    show (if _ then x.handle i c (.serving c) (.leaving c) .stop else none).isSome
    rw [if_pos (.inr hclosed), ← hphase]
    refine handle_isSome hi ?_
    simp [System.sessionStep, hy, Session.act, hrunning]
  have hhandlers : ∀ t ∈ x.handlers, t.phase = .handshake ∨ t.phase = .ended := by
    intro t ht
    rcases phase_of_quiet h hquiet ht with hphase | ⟨c, hphase⟩ | hphase
    · exact .inl hphase
    · obtain ⟨i, hi⟩ := List.getElem?_of_mem ht
      have hc := h.linked.session i t.addr t.phase c .working (getElem?_crew hi)
        (by rw [hphase]; rfl)
      obtain ⟨y, hy, -, hstage⟩ := System.getElem?_roster.mp hc
      rcases (harrived.sessions y (List.mem_of_getElem? hy)).2 with hclosed | ⟨hrunning, -⟩
      · rw [hclosed] at hstage
        cases hstage
      · exact absurd hrunning (hnone c y hy)
    · exact .inr hphase
  exact {
    server := hserver
    accepting := haccepting
    handlers := hhandlers
    peers := by
      refine (HashMap.eq_empty_iff _).mpr fun a => Option.eq_none_iff_forall_ne_some.mpr ?_
      intro p hp
      obtain ⟨i, phase, hi, hentry⟩ := (listed_of_run hrun a p).mp hp
      obtain ⟨t, ht, -, hentry⟩ := exists_crew (Q := fun q => q.entry = some p) |>.mp
        ⟨i, phase, hi, hentry⟩
      rcases hhandlers t ht with hphase | hphase
      · simp [hphase, HandlerPhase.entry] at hentry
      · simp [hphase, HandlerPhase.entry] at hentry
    actor := by
      refine System.eq_new_of_arrived (system_run hrun) harrived fun y hy => ?_
      obtain ⟨c, hc⟩ := List.getElem?_of_mem hy
      exact hnone c y hc
    arrived := harrived
    routing := by
      have hheld : x.Held ↔ (∃ t ∈ x.handlers, t.phase = .handshake) ∨ 0 < x.clones := by
        constructor
        · rintro (hfalse | hfalse | ⟨t, ht, hopen⟩ | hclones)
          · exact absurd hserver hfalse
          · cases hfalse.symm.trans haccepting
          · exact .inl ⟨t, ht, (hhandlers t ht).resolve_right hopen⟩
          · exact .inr hclones
        · rintro (⟨t, ht, hphase⟩ | hclones)
          · exact .inr (.inr (.inl ⟨t, ht, by simp [hphase]⟩))
          · exact .inr (.inr (.inr hclones))
      rw [← hheld]
      refine ⟨fun hrouting => ?_, h.routing⟩
      by_contra hnot
      refine stuck hquiet (l := .endActor) rfl ?_
      simp [lts, step, hrouting, hnot, harrived.commands, harrived.distribution] }

/-- **Shutdown completes.** From every moment of every run after `shutdown` was called or the server
was dropped, the tasks of the server and of its clients come to an end by their own steps, in every
order: nobody accepts connections any more, every connection that has completed its handshake is
closed and cleaned up, also one that the signal has missed, and the actor has ended with empty
tables. Only a connection that does not complete its handshake, and a clone of the server's state,
keep the actor. -/
theorem shutdown_completes {ls : List LifecycleLabel} (hrun : (lts capacity).Run ls x)
    (hshutdown : x.server ≠ .running) :
    (lts capacity).Inevitable (fun l => l.isOwn = true) (fun _ x => Down x) ls x := by
  have hrest : (lts capacity).Inevitable (fun l => l.isOwn = true)
      (fun ls x => (lts capacity).Run ls x ∧ (x.server ≠ .running → Down x)) ls x := by
    refine Lts.Run.inevitable rank ?_ ?_ hrun
    · exact fun _ _ _ _ hrun hown hs => rank_lt (sound_of_run hrun) hown hs
    · exact fun _ _ hrun hquiet => ⟨hrun, down_of_quiet hrun hquiet⟩
  refine hrest.mono ?_
  rintro after x' - ⟨hrun', hdown⟩
  refine hdown (Lts.Run.invariant_from (P := fun x : Lifecycle => x.server ≠ .running) hrun
    hshutdown ?_ hrun')
  exact fun _ _ _ _ h hs => shutting_step hs h

/-- The run `lateConnections`, in which the signal misses one of the three connections. -/
theorem shutdown_completes_lateConnections :
    ∃ x, (lts maxPendingMessages).Run lateConnections x ∧
      (lts maxPendingMessages).Inevitable (fun l => l.isOwn = true) (fun _ x => Down x)
        lateConnections x := by
  have hrun : (lts maxPendingMessages).Run lateConnections _ := Lts.Run.of_exec (by decide)
  exact ⟨_, hrun, shutdown_completes hrun (by decide)⟩

end Lifecycle

end RustBond
