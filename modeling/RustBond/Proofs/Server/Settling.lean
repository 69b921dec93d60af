import Mathlib.Data.Prod.Lex
import RustBond.Lib.Inevitable
import RustBond.Proofs.Server.Convergence

/-!
# `RustBond.Proofs.Server.Settling`: the server comes to rest

When no connection opens or breaks and no client is given a command, the tasks of the server
and of its clients go on with what is on its way. `Label.isOwn` are these steps.

There is no end to them in sight by counting messages. A message that a session reads may make
the actor offer an update to every subscriber, or collect a snapshot of any size. But the work
moves in one direction: from the clients' streams to the actor's commands, from there to the
responses and the distribution, to the peers' channels, to the streams back and to the clients.
`System.backlog` orders the queues this way, and every step of the tasks' own lowers it
(`backlog_lt`), whatever it adds to the queues further down.

Where no such step is left, every queue is empty (`allArrived_of_quiet`): the actor always takes the
next command, nobody waits for an answer that does not come, and no delivery is stuck.
`every_run_converges` puts the two together with what a client holds once everything has arrived.
-/

set_option autoImplicit false

namespace RustBond

/-- An action by which something that is there already moves on. -/
def SessionAction.isOwn (action : SessionAction) : Bool :=
  match action with
  | .deliver | .read | .respond | .flush _ | .disconnect => true
  | .command _ | .stop => false

/-- The tasks make the step on their own. The others are up to the network and the users. -/
def Label.isOwn (l : Label) : Bool :=
  match l with
  | .session _ action => action.isOwn
  | .recv _ _ | .trySend _ | .finish => true
  | .accept _ _ _ => false

namespace Session

/-- One for a session that has still to send its `PeerDisconnected`. -/
def leaving (x : Session) : Nat := if x.phase = .stopped then 1 else 0

/-- One for a session with a response to write. -/
def answered (x : Session) : Nat :=
  match x.phase with
  | .subscribing _ (some _) => 1
  | _ => 0

/-- What moves on at a session. It leaves, or it takes a message from its client, or it sends
the actor nothing and something gets nearer to the client. -/
theorem progress_of_act {x y : Session} {c : SessionId} {action : SessionAction}
    {cmds : List RoutingCommand} (hown : action.isOwn = true)
    (h : x.act c action = some (y, cmds)) :
    y.leaving < x.leaving ∨
      y.leaving = x.leaving ∧ y.toServer.length < x.toServer.length ∨
      y.leaving = x.leaving ∧ y.toServer = x.toServer ∧ cmds = [] ∧
        (y.answered < x.answered ∨ y.answered = x.answered ∧
          (y.rx.length < x.rx.length ∨
            y.rx.length = x.rx.length ∧ y.toClient.length < x.toClient.length)) := by
  cases action with
  | command cmd => cases hown
  | stop => cases hown
  | deliver =>
    simp only [act] at h
    split at h
    · cases h
    · rename_i msg rest hstream
      cases h
      refine Or.inr (Or.inr ⟨rfl, rfl, rfl, Or.inr ⟨rfl, Or.inr ⟨rfl, ?_⟩⟩⟩)
      rw [hstream]
      exact Nat.lt_succ_self _
  | read =>
    simp only [act] at h
    split at h
    · rename_i msg rest hphase hstream
      obtain ⟨reply, -, heq⟩ := handleMessage_eq { x with toServer := rest } c msg
      rw [heq] at h
      cases h
      refine Or.inr (Or.inl ⟨?_, ?_⟩)
      · -- The session goes on, or it begins to wait.
        cases msg with
        | subscribe => simp [leaving, hphase]
        | hello | keepalive | unsubscribe | update => rfl
      · rw [hstream]
        exact Nat.lt_succ_self _
    · cases h
  | respond =>
    simp only [act] at h
    split at h
    · rename_i vni routes hphase
      cases h
      refine Or.inr (Or.inr ⟨by simp [leaving, hphase], rfl, rfl, Or.inl ?_⟩)
      simp [answered, hphase]
    · cases h
  | flush batch =>
    simp only [act] at h
    split at h
    · rename_i hguard
      cases h
      refine Or.inr (Or.inr ⟨rfl, rfl, rfl, Or.inr ⟨rfl, Or.inl ?_⟩⟩)
      rw [List.length_drop]
      omega
    · cases h
  | disconnect =>
    simp only [act] at h
    split at h
    · rename_i hphase
      cases h
      exact Or.inl (by simp [leaving, hphase])
    · cases h

end Session

namespace System

/-- The sum over the sessions. -/
def total (f : Session → Nat) (sessions : List Session) : Nat :=
  sessions.foldr (fun x n => f x + n) 0

/-- The `try_send` calls that the actor has still to make, and one for the end of the
distribution. -/
def undelivered (distribution : Option Distribution) : Nat :=
  match distribution with
  | none => 0
  | some d => 1 + d.deliveries.foldr (fun e n => e.targets.card + n) 0

/-- What is left to do, first what leads to more of the rest. -/
def backlog (s : System) : Nat ×ₗ Nat ×ₗ Nat ×ₗ Nat ×ₗ Nat ×ₗ Nat ×ₗ Nat :=
  toLex (total Session.leaving s.sessions,
    toLex (total (fun x => x.toServer.length) s.sessions,
      toLex (s.commands.length,
        toLex (undelivered s.distribution,
          toLex (total Session.answered s.sessions,
            toLex (total (fun x => x.rx.length) s.sessions,
              total (fun x => x.toClient.length) s.sessions))))))

/-- The backlog is lexicographic, so a step may add to a later component if it takes from an
earlier one. -/
theorem backlog_lt_iff (s s' : System) : s'.backlog < s.backlog ↔
    total Session.leaving s'.sessions < total Session.leaving s.sessions ∨
    total Session.leaving s'.sessions = total Session.leaving s.sessions ∧
      (total (fun x => x.toServer.length) s'.sessions
          < total (fun x => x.toServer.length) s.sessions ∨
      total (fun x => x.toServer.length) s'.sessions
          = total (fun x => x.toServer.length) s.sessions ∧
        (s'.commands.length < s.commands.length ∨ s'.commands.length = s.commands.length ∧
          (undelivered s'.distribution < undelivered s.distribution ∨
          undelivered s'.distribution = undelivered s.distribution ∧
            (total Session.answered s'.sessions < total Session.answered s.sessions ∨
            total Session.answered s'.sessions = total Session.answered s.sessions ∧
              (total (fun x => x.rx.length) s'.sessions
                  < total (fun x => x.rx.length) s.sessions ∨
              total (fun x => x.rx.length) s'.sessions
                  = total (fun x => x.rx.length) s.sessions ∧
                total (fun x => x.toClient.length) s'.sessions
                  < total (fun x => x.toClient.length) s.sessions))))) := by
  simp only [backlog, Prod.Lex.toLex_lt_toLex]

/-- When a session is replaced, the total changes by what the session has changed. -/
theorem total_set {sessions : List Session} {c : SessionId} {x : Session}
    (hx : sessions[c]? = some x) (y : Session) (f : Session → Nat) :
    total f (sessions.set c y) + f x = total f sessions + f y :=
  List.foldr_add_set hx y f

/-- An answer of the actor changes no total of something that receiving a snapshot does not
change. -/
theorem total_answer {sessions sessions' : List Session} {reply : Reply}
    {routes : List (Destination × NextHop)} (h : answer sessions reply routes = some sessions')
    {f : Session → Nat} (hf : ∀ x routes, f (Session.receive x routes) = f x) :
    total f sessions' = total f sessions := by
  have hmap : sessions'.map f = sessions.map f := by
    apply List.ext_getElem?
    intro i
    rw [List.getElem?_map, List.getElem?_map]
    rcases getElem?_answer h i with ⟨collected, -, -, heq⟩ | ⟨-, heq⟩
    · rw [heq, Option.map_map]
      exact Option.map_congr fun x _ => hf x routes
    · rw [heq]
  have hfold : ∀ l, total f l = (l.map f).foldr (fun n m => n + m) 0 :=
    fun _ => List.foldr_map.symm
  rw [hfold, hfold, hmap]

/-- A message that is offered to one more target leaves fewer to offer. -/
theorem undelivered_consume {msg : Message} {targets : HashSet SocketAddr} {addr : SocketAddr}
    (hmem : addr ∈ targets) (rest : List Delivery) (slow slow' : HashSet SocketAddr) :
    undelivered (some ⟨Distribution.consume msg (targets.erase addr) rest, slow'⟩)
      < undelivered (some ⟨⟨msg, targets⟩ :: rest, slow⟩) := by
  have hcard : (targets.erase addr).card < targets.card := Finset.card_erase_lt_of_mem hmem
  simp only [undelivered, Distribution.consume, List.foldr_cons]
  split
  · omega
  · simp only [List.foldr_cons]
    omega

/-- An action of a session's own lowers the backlog. -/
theorem backlog_lt_of_sessionStep {s s' : System} {c : SessionId} {action : SessionAction}
    (hown : action.isOwn = true) (hs : s.sessionStep c action = some s') :
    s'.backlog < s.backlog := by
  obtain ⟨x, y, cmds, hx, hact, rfl⟩ := sessionStep_eq_some hs
  have hleaving := total_set hx y Session.leaving
  have htoServer := total_set hx y fun x => x.toServer.length
  have hanswered := total_set hx y Session.answered
  have hrx := total_set hx y fun x => x.rx.length
  have htoClient := total_set hx y fun x => x.toClient.length
  rw [backlog_lt_iff]
  dsimp only at htoServer hrx htoClient ⊢
  rcases Session.progress_of_act hown hact with
    hleft | ⟨hsame, htook⟩ | ⟨hsame, hstream, rfl, hmoved⟩
  · exact Or.inl (by omega)
  · exact Or.inr ⟨by omega, Or.inl (by omega)⟩
  · rw [hstream] at htoServer
    refine Or.inr ⟨by omega, Or.inr ⟨by omega, Or.inr ⟨?_, Or.inr ⟨rfl, by omega⟩⟩⟩⟩
    rw [List.map_nil, List.append_nil]

/-- Every step of the tasks' own lowers the backlog. -/
theorem backlog_lt {capacity : Nat} {s s' : System} {l : Label} (hown : l.isOwn = true)
    (hs : (lts capacity).step s l = some s') : s'.backlog < s.backlog := by
  cases l with
  | accept => cases hown
  | session c action => exact backlog_lt_of_sessionStep hown hs
  | recv owned routes =>
    obtain ⟨c, cmd, commands, sessions, -, hcommands, -, hanswer, rfl⟩ := recv_eq_some hs
    rw [backlog_lt_iff]
    refine Or.inr ⟨total_answer hanswer ?_, Or.inr ⟨total_answer hanswer ?_, Or.inl ?_⟩⟩
    · intro x routes
      rcases receive_cases x routes with hreceive | ⟨vni, hphase, hreceive⟩
      · rw [hreceive]
      · simp [hreceive, Session.leaving, hphase]
    · intro x routes
      rcases receive_cases x routes with hreceive | ⟨vni, -, hreceive⟩
      · rw [hreceive]
      · rw [hreceive]
    · rw [hcommands]
      exact Nat.lt_succ_self _
  | trySend addr =>
    obtain ⟨msg, targets, rest, slow, hdist, hmem,
        ⟨-, rfl⟩ | ⟨tx, x, hchannel, -, -, rfl⟩ | ⟨-, rfl⟩⟩
      := trySend_eq_some hs
    · rw [backlog_lt_iff, hdist]
      exact Or.inr ⟨rfl, Or.inr ⟨rfl, Or.inr ⟨rfl, Or.inl (undelivered_consume hmem rest _ _)⟩⟩⟩
    · have hx := (channel_eq_some hchannel).2
      have hleaving := total_set hx { x with rx := x.rx ++ [msg] } Session.leaving
      have htoServer := total_set hx { x with rx := x.rx ++ [msg] } fun x => x.toServer.length
      rw [backlog_lt_iff, hdist]
      exact Or.inr ⟨Nat.add_right_cancel hleaving, Or.inr ⟨Nat.add_right_cancel htoServer,
        Or.inr ⟨rfl, Or.inl (undelivered_consume hmem rest _ _)⟩⟩⟩
    · rw [backlog_lt_iff, hdist]
      exact Or.inr ⟨rfl, Or.inr ⟨rfl, Or.inr ⟨rfl, Or.inl (undelivered_consume hmem rest _ _)⟩⟩⟩
  | finish =>
    obtain ⟨slow, hdist, rfl⟩ := finish_eq_some hs
    rw [backlog_lt_iff, hdist]
    exact Or.inr ⟨rfl, Or.inr ⟨rfl, Or.inr ⟨rfl, Or.inl (Nat.zero_lt_one)⟩⟩⟩

/-! ### Where no step is left -/

/-- Every queue of the system is empty. The sessions that are not at their end are in their main
loops. -/
structure AllArrived (s : System) : Prop where
  commands : s.commands = []
  distribution : s.distribution = none
  sessions : ∀ x ∈ s.sessions, x.toClient = [] ∧
    (x.phase = .closed ∨ x.phase = .running ∧ x.toServer = [] ∧ x.rx = [])

/-- A delivery that the actor is in the middle of has targets. -/
def Targeted (s : System) : Prop :=
  ∀ d, s.distribution = some d → ∀ e ∈ d.deliveries, e.targets ≠ ∅

/-- A delivery is dropped with its last target, so those that are left have some. -/
theorem targeted_consume_ne {msg : Message} {targets : HashSet SocketAddr} {rest : List Delivery}
    (h : ∀ e ∈ rest, e.targets ≠ ∅) :
    ∀ e ∈ Distribution.consume msg targets rest, e.targets ≠ ∅ := by
  intro e hmem
  unfold Distribution.consume at hmem
  split at hmem
  · exact h e hmem
  · rename_i hne
    rcases List.mem_cons.mp hmem with rfl | hrest
    · exact hne
    · exact h e hrest

/-- A step leaves no delivery without targets. -/
theorem targeted_step {capacity : Nat} {s s' : System} {l : Label} (h : Targeted s)
    (hs : (lts capacity).step s l = some s') : Targeted s' := by
  cases l with
  | accept addr subscriptions announced =>
    obtain ⟨-, x, -, -, -, -, -, -, -, rfl⟩ := accept_eq_some hs
    exact h
  | session c action =>
    obtain ⟨x, x', cmds, -, -, rfl⟩ := sessionStep_eq_some hs
    exact h
  | recv owned routes =>
    obtain ⟨c, cmd, commands, sessions, -, -, -, -, rfl⟩ := recv_eq_some hs
    intro d hd e hmem
    cases hd
    exact of_decide_eq_true (List.mem_filter.mp hmem).2
  | trySend addr =>
    obtain ⟨msg, targets, rest, slow, hdist, -, hcases⟩ := trySend_eq_some hs
    have hconsume : ∀ (s'' : System) (slow' : HashSet SocketAddr), s''.distribution
        = some ⟨Distribution.consume msg (targets.erase addr) rest, slow'⟩ → Targeted s'' := by
      intro s'' slow' hdist' d hd
      rw [hdist'] at hd
      cases hd
      exact targeted_consume_ne fun e hmem => h _ hdist e (List.mem_cons_of_mem _ hmem)
    rcases hcases with ⟨-, rfl⟩ | ⟨tx, x, -, -, -, rfl⟩ | ⟨-, rfl⟩
    · exact hconsume _ _ rfl
    · exact hconsume _ _ rfl
    · exact hconsume _ _ rfl
  | finish =>
    obtain ⟨slow, -, rfl⟩ := finish_eq_some hs
    intro d hd
    cases hd

/-- In every reachable state the actor has a target for what it is distributing. It never stands
before a delivery for nobody. -/
theorem targeted_of_run {capacity : Nat} {ls : List Label} {s : System}
    (hrun : (lts capacity).Run ls s) : Targeted s := by
  refine Lts.Run.invariant ?_ (fun _ _ _ _ _ h hs => targeted_step h hs) hrun
  intro d hd
  cases hd

/-- The actor can take a command whenever it is between two of them. -/
theorem recv_enabled {s : System} (hidle : s.distribution = none) {e : Event}
    {commands : List Event} (hcommands : s.commands = e :: commands) :
    ∃ owned routes, (s.recv owned routes).isSome := by
  obtain ⟨c, cmd⟩ := e
  -- Any order of the collected routes is one in which the actor may iterate.
  obtain ⟨owned, howned⟩ : ∃ owned : List RouteKey,
      (owned : Multiset RouteKey) = s.actor.collectedRoutes cmd := Quot.exists_rep _
  have hanswer : ∃ routes, (answer s.sessions (s.actor.handle cmd owned).reply routes).isSome := by
    cases hreply : (s.actor.handle cmd owned).reply with
    | nothing => exact ⟨[], rfl⟩
    | stats => exact ⟨[], rfl⟩
    | routes responseTx collected =>
      obtain ⟨routes, hroutes⟩ : ∃ routes : List (Destination × NextHop),
          (routes : Multiset (Destination × NextHop)) = collected := Quot.exists_rep _
      refine ⟨routes, ?_⟩
      simp only [answer]
      rw [if_pos hroutes]
      rfl
  obtain ⟨routes, hroutes⟩ := hanswer
  refine ⟨owned, routes, ?_⟩
  simp only [recv, hidle, hcommands]
  rw [if_pos howned, Option.isSome_map]
  exact hroutes

/-- The actor can go on with a distribution. -/
theorem distribute_enabled (capacity : Nat) {s : System} (ht : Targeted s) {d : Distribution}
    (hd : s.distribution = some d) :
    (∃ addr, (s.trySend capacity addr).isSome) ∨ s.finish.isSome := by
  obtain ⟨deliveries, slow⟩ := d
  cases deliveries with
  | nil =>
    refine Or.inr ?_
    simp only [finish, hd]
    rfl
  | cons e rest =>
    obtain ⟨msg, targets⟩ := e
    have hne : targets ≠ ∅ := ht _ hd _ List.mem_cons_self
    obtain ⟨addr, hmem⟩ := Finset.nonempty_iff_ne_empty.mpr hne
    refine Or.inl ⟨addr, ?_⟩
    simp only [trySend, hd, if_pos hmem]
    -- Whatever it finds, it goes on.
    split
    · rfl
    · split
      · rfl
      · split
        · rfl
        · rfl


/-- A session that waits for nobody can go on with anything that it has not finished. -/
theorem act_enabled {x : Session} (c : SessionId) (hwaits : ∀ vni, x.phase ≠ .subscribing vni none)
    (hbusy : ¬ (x.toClient = [] ∧ (x.phase = .closed ∨
      x.phase = .running ∧ x.toServer = [] ∧ x.rx = []))) :
    ∃ action : SessionAction, action.isOwn = true ∧ (x.act c action).isSome := by
  by_cases htoClient : x.toClient = []
  · cases hphase : x.phase with
    | running =>
      by_cases htoServer : x.toServer = []
      · -- Something waits in the channel.
        have hrx : x.rx ≠ [] := fun hrx => hbusy ⟨htoClient, Or.inr ⟨hphase, htoServer, hrx⟩⟩
        refine ⟨.flush 1, rfl, ?_⟩
        simp only [Session.act]
        rw [if_pos ⟨hphase, Nat.one_pos, by decide, List.length_pos_iff.mpr hrx⟩]
        rfl
      · obtain ⟨msg, rest, hstream⟩ := List.exists_cons_of_ne_nil htoServer
        refine ⟨.read, rfl, ?_⟩
        simp only [Session.act, hphase, hstream]
        rfl
    | subscribing vni response =>
      cases response with
      | none => exact absurd hphase (hwaits vni)
      | some routes =>
        refine ⟨.respond, rfl, ?_⟩
        simp only [Session.act, hphase]
        rfl
    | stopped =>
      refine ⟨.disconnect, rfl, ?_⟩
      simp only [Session.act]
      rw [if_pos hphase]
      rfl
    | closed => exact absurd ⟨htoClient, Or.inl hphase⟩ hbusy
  · obtain ⟨msg, rest, hstream⟩ := List.exists_cons_of_ne_nil htoClient
    refine ⟨.deliver, rfl, ?_⟩
    simp only [Session.act, hstream]
    rfl

/-- Where no step of the tasks' own is left, everything has arrived. -/
theorem allArrived_of_quiet {capacity : Nat} {s : System} (ha : Awaiting s) (ht : Targeted s)
    (hquiet : (lts capacity).Quiet (fun l => l.isOwn = true) s) : AllArrived s := by
  have hstuck : ∀ l, l.isOwn = true → ¬ ((lts capacity).step s l).isSome := by
    intro l hown hsome
    rw [hquiet l hown] at hsome
    cases hsome
  have hidle : s.distribution = none := by
    cases hd : s.distribution with
    | none => rfl
    | some d =>
      rcases distribute_enabled capacity ht hd with ⟨addr, hsend⟩ | hfinish
      · exact absurd hsend (hstuck (.trySend addr) rfl)
      · exact absurd hfinish (hstuck .finish rfl)
  have hcommands : s.commands = [] := by
    cases hc : s.commands with
    | nil => rfl
    | cons e commands =>
      obtain ⟨owned, routes, hrecv⟩ := recv_enabled hidle hc
      exact absurd hrecv (hstuck (.recv owned routes) rfl)
  refine ⟨hcommands, hidle, ?_⟩
  intro x hmem
  obtain ⟨c, hx⟩ := List.getElem?_of_mem hmem
  -- The subscribe command of a session that waits would still be in the actor's channel.
  have hwaits : ∀ vni, x.phase ≠ .subscribing vni none := by
    intro vni hphase
    have hawaited := ha c x hx
    rw [hcommands, Session.awaited, hphase] at hawaited
    cases hawaited
  by_contra hbusy
  obtain ⟨action, hown, hact⟩ := act_enabled c hwaits hbusy
  refine hstuck (.session c action) hown ?_
  show (s.sessionStep c action).isSome
  simp only [sessionStep, hx, Option.isSome_map]
  exact hact

/-- **Whatever is going on, the server comes to rest**: with the steps of the tasks' own, and
whichever of them are taken first. -/
theorem inevitable_allArrived {capacity : Nat} {ls : List Label} {s : System}
    (hrun : (lts capacity).Run ls s) :
    (lts capacity).Inevitable (fun l => l.isOwn = true)
      (fun ls s => (lts capacity).Run ls s ∧ AllArrived s) ls s := by
  refine Lts.Run.inevitable backlog (fun _ _ _ _ _ hown hs => backlog_lt hown hs) ?_ hrun
  intro ls s hrun hquiet
  exact ⟨hrun, allArrived_of_quiet (awaiting_of_run hrun) (targeted_of_run hrun) hquiet⟩

/-! ### What the clients hold at rest -/

/-- The most recent update on the route is an add, and its session is still connected. -/
def Announced (s : System) (r : RouteKey) : Prop :=
  ∃ c x, Event.latest s.processed r = some (c, .add) ∧ s.sessions[c]? = some x ∧
    x.phase ≠ .closed

/-- The server stores what is announced. -/
theorem mem_routes_iff_announced {capacity : Nat} {ls : List Label} {s : System}
    (hrun : (lts capacity).Run ls s) (hrest : AllArrived s) (r : RouteKey) :
    r ∈ s.actor.routes ↔ s.Announced r := by
  obtain ⟨turns, hturns, hevents, hd⟩ := exists_turns hrun
  have hslow : s.slowConsumers = ∅ := by rw [slowConsumers, hrest.distribution]
  rw [hslow, RoutingActor.removeSlowConsumers_empty] at hturns
  rw [RoutingActor.mem_routes_iff_of_run hturns (hevents ▸ hd), hevents]
  -- The actor has taken every command, so its history knows who is connected.
  have hhistory : s.history = s.processed := by rw [history, hrest.commands, List.append_nil]
  have hholder := (wired_of_run hrun).holder
  rw [hhistory] at hholder
  constructor
  · rintro ⟨c, a, hlatest, hc⟩
    obtain ⟨x, hx, -, hopen⟩ := (hholder a c).mp hc
    exact ⟨c, x, hlatest, hx, hopen⟩
  · rintro ⟨c, x, hlatest, hx, hopen⟩
    exact ⟨c, x.addr, hlatest, (hholder x.addr c).mpr ⟨x, hx, rfl, hopen⟩⟩

/-- The actor has taken the subscribe command of a client once everything has arrived, and
remembers it unless the client unsubscribes. -/
theorem subscribed_of_sent {capacity : Nat} {ls : List Label} {s : System}
    (hrun : (lts capacity).Run ls s) (hrest : AllArrived s) {c : SessionId} {x : Session}
    (hx : s.sessions[c]? = some x) (htoServer : x.toServer = []) {v : Vni}
    (hsub : .subscribe v ∈ x.sent) (hnever : .unsubscribe v ∉ x.sent) :
    Event.subscribed s.processed c v = true := by
  have hw := wired_of_run hrun
  have ht := traced_of_run hrun
  have hhistory : s.history = s.processed := by rw [history, hrest.commands, List.append_nil]
  refine Event.subscribed_of_mem ⟨x.addr, c, ?_⟩ ?_
  · -- All that was sent has been read.
    obtain ⟨read, hsent, htrace⟩ := ht c x hx
    rw [htoServer, List.append_nil] at hsent
    have hmem : (c, RoutingCommand.subscribe x.addr v c) ∈ Event.ofSession s.history c := by
      rw [htrace, Session.trace]
      refine List.mem_append_left _ (List.mem_cons_of_mem _ (List.mem_map.mpr ⟨_, ?_, rfl⟩))
      exact List.mem_filterMap.mpr ⟨.subscribe v, hsent ▸ hsub, rfl⟩
    rw [hhistory] at hmem
    exact (List.mem_filter.mp hmem).1
  · intro addr hmem
    obtain ⟨y, hy, hsent⟩ := ht.sent_of_unsubscribe hw (hhistory ▸ hmem)
    rw [hx] at hy
    cases hy
    exact hnever hsent

/-- The server is at rest. If no channel has overflowed, then every connected client that has
subscribed to a VNI and never unsubscribed holds precisely the announced routes of the VNI, as
far as the most recent update is not its own. -/
structure Converged (capacity : Nat) (ls : List Label) (s : System) : Prop where
  arrived : AllArrived s
  received : (lts capacity).Throughout (NoOverflow capacity) ls →
    ∀ (c : SessionId) (x : Session) (v : Vni), s.sessions[c]? = some x → x.phase ≠ .closed →
      .subscribe v ∈ x.sent → .unsubscribe v ∉ x.sent →
      ∀ r : RouteKey, r.1 = v → (∀ action, Event.latest s.processed r ≠ some (c, action)) →
        (r ∈ x.client.receivedRoutes ↔ s.Announced r)

/-- When everything has arrived, the server has converged. The results on runs at rest give what
its clients hold. -/
theorem converged_of_allArrived {capacity : Nat} {ls : List Label} {s : System}
    (hrun : (lts capacity).Run ls s) (hrest : AllArrived s) : Converged capacity ls s := by
  refine ⟨hrest, ?_⟩
  intro hroom c x v hx hopen hsub hnever r hv hother
  obtain ⟨htoClient, hclosed | ⟨hphase, htoServer, hrx⟩⟩ :=
    hrest.sessions x (List.mem_of_getElem? hx)
  · exact absurd hclosed hopen
  have hsettled : s.Settled x := ⟨hrest.distribution, hphase, htoServer, hrx, htoClient⟩
  have hsubscribed := subscribed_of_sent hrun hrest hx htoServer hsub hnever
  have hnever' : NeverUnsubscribes s c v := by
    intro y hy
    rw [hx] at hy
    cases hy
    exact hnever
  have hstays : (c, .unsubscribe x.addr v) ∉ s.commands := by
    rw [hrest.commands]
    exact List.not_mem_nil
  have hsync := ((steady_of_run hrun hroom c v) hnever').2
  rw [hsync.received_iff hx hsettled hsubscribed hstays hv hother,
    mem_routes_iff_announced hrun hrest]

end System

end RustBond
