import RustBond.Proofs.Server.Ownership
import RustBond.Server.System

/-!
# `RustBond.Proofs.Server.System`: what a step of the system can do

First come the inversion lemmas, one for each kind of step. The later proofs use them and do
not unfold the steps. `Wired` is the invariant that connects the system with the results on
the actor alone: the commands of all sessions, taken and waiting, form a disciplined history,
and the open sessions are the holders of the addresses.
-/

set_option autoImplicit false

namespace RustBond

/-- A list with an entry replaced, where the entry is known to be there: no bound has to be
carried along. -/
theorem getElem?_set_of_some {A : Type} {l : List A} {i : Nat} {x : A} (h : l[i]? = some x)
    (y : A) (j : Nat) : (l.set i y)[j]? = if i = j then some y else l[j]? := by
  rw [List.getElem?_set]
  have hlt : i < l.length := (List.getElem?_eq_some_iff.mp h).1
  simp [hlt]

/-- An entry of the changed list is the new one, or an old one elsewhere. -/
theorem of_getElem?_set {A : Type} {l : List A} {i j : Nat} {x x' y : A} (h : l[i]? = some x)
    (hset : (l.set i x')[j]? = some y) : i = j ∧ x' = y ∨ i ≠ j ∧ l[j]? = some y := by
  rw [getElem?_set_of_some h] at hset
  split at hset
  · rename_i heq
    exact Or.inl ⟨heq, Option.some.inj hset⟩
  · rename_i hne
    exact Or.inr ⟨hne, hset⟩

/-- An entry of a list with one more element at the end is an old one or the new one. -/
theorem getElem?_concat_eq_some {A : Type} {l : List A} {x y : A} {i : Nat}
    (h : (l ++ [x])[i]? = some y) : l[i]? = some y ∨ i = l.length ∧ y = x := by
  rw [List.getElem?_append] at h
  split at h
  · exact Or.inl h
  · rename_i hge
    rw [List.getElem?_singleton] at h
    split at h
    · rename_i hzero
      refine Or.inr ⟨?_, (Option.some.inj h).symm⟩
      exact Nat.le_antisymm (Nat.sub_eq_zero_iff_le.mp hzero) (Nat.le_of_not_lt hge)
    · cases h

/-- The command that `handle_peer` sends to the actor for a message of its client. -/
def Message.command (addr : SocketAddr) (c : SessionId) (msg : Message) : Option RoutingCommand :=
  match msg with
  | .hello _ _ => none
  | .keepalive => none
  | .subscribe vni => some (.subscribe addr vni c)
  | .unsubscribe vni => some (.unsubscribe addr vni)
  | .update action vni destination nextHop => some (.update addr action vni destination nextHop)

namespace Session

/-- The routes of a response that `handle_subscribe` has not written yet. -/
def unwritten (x : Session) : List Message :=
  match x.phase with
  | .subscribing vni (some routes) => snapshotMessages vni routes
  | _ => []

/-- The server's `handle_message` turns a subscribe into a wait, and does nothing but send
the command and write a reply without updates for the other messages. -/
theorem handleMessage_eq (x : Session) (c : SessionId) (msg : Message) :
    ∃ reply, edits reply = [] ∧
      x.handleMessage c msg =
        ({ x with
            phase := match msg with
              | .subscribe vni => .subscribing vni none
              | _ => x.phase
            toClient := x.toClient ++ reply }, (msg.command x.addr c).toList) := by
  cases msg with
  | keepalive => exact ⟨[.keepalive], rfl, rfl⟩
  | hello | subscribe | unsubscribe | update =>
    refine ⟨[], rfl, ?_⟩
    rw [List.append_nil]
    rfl

/-- The effect of an action, as far as the server's view of the session and the commands to
the actor go. -/
inductive Effect (x : Session) (c : SessionId) (x' : Session) :
    SessionAction → List RoutingCommand → Prop
  /-- The client wrote a message. -/
  | wrote {cmd : PeerCommand} {msg : Message} (hmsg : Connection.commandMessage cmd = some msg)
      (haddr : x'.addr = x.addr) (hphase : x'.phase = x.phase)
      (htoServer : x'.toServer = x.toServer ++ [msg]) (hsent : x'.sent = x.sent ++ [msg]) :
      Effect x c x' (.command cmd) []
  /-- The server read a message. -/
  | took {msg : Message} {rest : List Message} (htoServer : x.toServer = msg :: rest)
      (haddr : x'.addr = x.addr) (hrunning : x.phase = .running)
      (hphase : x'.phase = match msg with
        | .subscribe vni => .subscribing vni none
        | _ => .running)
      (htoServer' : x'.toServer = rest) (hsent : x'.sent = x.sent) :
      Effect x c x' .read (msg.command x.addr c).toList
  /-- A step towards the client, or the end of the main loop. -/
  | moved {action : SessionAction} (haddr : x'.addr = x.addr)
      (hphase : x'.phase = x.phase ∨
        (∃ vni routes, x.phase = .subscribing vni (some routes)) ∧ x'.phase = .running ∨
        x.phase = .running ∧ x'.phase = .stopped)
      (htoServer : x'.toServer = x.toServer) (hsent : x'.sent = x.sent) :
      Effect x c x' action []
  /-- The task ended. -/
  | left (haddr : x'.addr = x.addr) (hstopped : x.phase = .stopped) (hphase : x'.phase = .closed)
      (htoServer : x'.toServer = x.toServer) (hsent : x'.sent = x.sent) :
      Effect x c x' .disconnect [.peerDisconnected x.addr]

/-- The inversion of `act`: the actions of a session have the effects that `Effect` lists. The
step lemmas below look at these and not at the code. -/
theorem effect_of_act {x x' : Session} {c : SessionId} {action : SessionAction}
    {cmds : List RoutingCommand} (h : x.act c action = some (x', cmds)) :
    Effect x c x' action cmds := by
  cases action with
  | command cmd =>
    simp only [act, Option.map_eq_some_iff, Prod.mk.injEq] at h
    obtain ⟨msg, hmsg, rfl, rfl⟩ := h
    exact .wrote hmsg rfl rfl rfl rfl
  | deliver =>
    simp only [act] at h
    split at h
    · cases h
    · cases h
      exact .moved rfl (Or.inl rfl) rfl rfl
  | read =>
    simp only [act] at h
    split at h
    · rename_i msg rest hphase htoServer
      obtain ⟨reply, -, heq⟩ := handleMessage_eq { x with toServer := rest } c msg
      rw [heq] at h
      cases h
      refine .took htoServer rfl hphase ?_ rfl rfl
      cases msg with
      | subscribe => rfl
      | hello | keepalive | unsubscribe | update => exact hphase
    · cases h
  | respond =>
    simp only [act] at h
    split at h
    · rename_i vni routes hphase
      cases h
      exact .moved rfl (Or.inr (Or.inl ⟨⟨vni, routes, hphase⟩, rfl⟩)) rfl rfl
    · cases h
  | flush batch =>
    simp only [act] at h
    split at h
    · cases h
      exact .moved rfl (Or.inl rfl) rfl rfl
    · cases h
  | stop =>
    simp only [act] at h
    split at h
    · rename_i hphase
      cases h
      exact .moved rfl (Or.inr (Or.inr ⟨hphase, rfl⟩)) rfl rfl
    · cases h
  | disconnect =>
    simp only [act] at h
    split at h
    · rename_i hphase
      cases h
      exact .left rfl hphase rfl rfl rfl
    · cases h

/-- A session whose task has ended stays so. -/
theorem Effect.open_of_open {x x' : Session} {c : SessionId} {action : SessionAction}
    {cmds : List RoutingCommand} (h : Effect x c x' action cmds)
    (hopen : x'.phase ≠ .closed) : x.phase ≠ .closed := by
  cases h with
  | wrote hmsg haddr hphase htoServer hsent => exact hphase ▸ hopen
  | took htoServer haddr hrunning hphase htoServer' hsent => simp [hrunning]
  | moved haddr hphase htoServer hsent =>
    rcases hphase with hphase | ⟨⟨vni, routes, hphase⟩, -⟩ | ⟨hphase, -⟩
    · exact hphase ▸ hopen
    · simp [hphase]
    · simp [hphase]
  | left haddr hstopped hphase htoServer hsent => simp [hstopped]

/-- A session keeps its address. -/
theorem Effect.addr_eq {x x' : Session} {c : SessionId} {action : SessionAction}
    {cmds : List RoutingCommand} (h : Effect x c x' action cmds) : x'.addr = x.addr := by
  cases h with
  | wrote hmsg haddr => exact haddr
  | took htoServer haddr => exact haddr
  | moved haddr => exact haddr
  | left haddr => exact haddr

/-- Everything that is on the way to the client, in the order in which it will arrive. -/
def way (x : Session) : List Message := x.toClient ++ x.unwritten ++ x.rx

/-- The effect of an action, as far as the client and what is on the way to it go. -/
inductive Passes (x y : Session) : SessionAction → Prop
  /-- The client took a command. -/
  | commanded {cmd : PeerCommand} (hclient : y.client = (x.client.handleCommand cmd).1)
      (hway : edits y.way = edits x.way) : Passes x y (.command cmd)
  /-- The client handled the first message on the stream. -/
  | delivered {msg : Message} (hmsg : x.toClient.head? = some msg)
      (hclient : y.client = (x.client.handleMessage msg).1)
      (hway : edits x.way = edits [msg] ++ edits y.way) : Passes x y .deliver
  /-- Messages moved along, and none got lost. -/
  | moved {action : SessionAction} (hne : action ≠ .deliver) (hclient : y.client = x.client)
      (hway : edits y.way = edits x.way) : Passes x y action
  /-- The channel was closed, and what was in it got lost. -/
  | closed (hphase : y.phase = .closed) (hclient : y.client = x.client)
      (hway : edits y.way ⊆ edits x.way) : Passes x y .disconnect

/-- The inversion of `act` once more, for what happens to the messages on their way to the client.
-/
theorem passes_of_act {x y : Session} {c : SessionId} {action : SessionAction}
    {cmds : List RoutingCommand} (h : x.act c action = some (y, cmds)) : x.Passes y action := by
  cases action with
  | command cmd =>
    simp only [act, Option.map_eq_some_iff, Prod.mk.injEq] at h
    obtain ⟨msg, -, rfl, -⟩ := h
    exact .commanded rfl rfl
  | deliver =>
    simp only [act] at h
    split at h
    · cases h
    · rename_i msg rest hstream
      cases h
      refine .delivered (by rw [hstream]; rfl) rfl ?_
      unfold way
      rw [hstream, List.cons_append, List.cons_append, edits_cons]
      rfl
  | read =>
    simp only [act] at h
    split at h
    · rename_i msg rest hphase _
      obtain ⟨reply, hreply, heq⟩ := handleMessage_eq { x with toServer := rest } c msg
      rw [heq] at h
      cases h
      refine .moved (by simp) rfl ?_
      -- Neither before nor after the step is a response waiting to be written.
      cases msg with
      | subscribe vni => simp [way, unwritten, hphase, hreply]
      | hello | keepalive | unsubscribe | update => simp [way, unwritten, hphase, hreply]
    · cases h
  | respond =>
    simp only [act] at h
    split at h
    · rename_i vni routes hphase
      cases h
      exact .moved (by simp) rfl (by simp [way, unwritten, hphase])
    · cases h
  | flush batch =>
    simp only [act] at h
    split at h
    · rename_i hguard
      cases h
      -- The batch is the front of the queue, and the stream ends where the queue begins.
      have hsplit : edits (x.rx.take batch) ++ edits (x.rx.drop batch) = edits x.rx := by
        rw [← edits_append, List.take_append_drop]
      exact .moved (by simp) rfl (by simp [way, unwritten, hguard.1, ← hsplit])
    · cases h
  | stop =>
    simp only [act] at h
    split at h
    · rename_i hphase
      cases h
      exact .moved (by simp) rfl (by simp [way, unwritten, hphase])
    · cases h
  | disconnect =>
    simp only [act] at h
    split at h
    · rename_i hphase
      cases h
      exact .closed rfl rfl (by simp [way, unwritten, hphase])
    · cases h

end Session

namespace System

/-! ### The steps -/

/-- Accepting a connection takes an address that no open session has, and adds a fresh session
with the greeting of its client on the stream. -/
theorem accept_eq_some {s s' : System} {addr : SocketAddr} {subscriptions : List Vni}
    {announced : List RouteKey} (h : s.accept addr subscriptions announced = some s') :
    (∀ x ∈ s.sessions, x.phase = .closed ∨ x.addr ≠ addr) ∧
      ∃ x : Session, x.addr = addr ∧ x.phase = .running ∧ x.rx = [] ∧ x.toClient = [] ∧
        x.toServer = greeting subscriptions announced ∧ x.sent = x.toServer ∧
        x.client = ⟨subscriptions.toFinset, RouteTable.new⟩ ∧
        s' = { s with
          commands := s.commands ++ [(s.sessions.length, .peerConnected addr s.sessions.length)]
          sessions := s.sessions ++ [x] } := by
  simp only [accept] at h
  split at h
  · rename_i hfree
    exact ⟨hfree, _, rfl, rfl, rfl, rfl, rfl, rfl, rfl, (Option.some.inj h).symm⟩
  · cases h

/-- A step of a session replaces the session and sends its commands to the actor. -/
theorem sessionStep_eq_some {s s' : System} {c : SessionId} {action : SessionAction}
    (h : s.sessionStep c action = some s') :
    ∃ x x' cmds, s.sessions[c]? = some x ∧ x.act c action = some (x', cmds) ∧
      s' = { s with
        commands := s.commands ++ cmds.map fun cmd => (c, cmd)
        sessions := s.sessions.set c x' } := by
  simp only [sessionStep] at h
  split at h
  · cases h
  · rename_i x hx
    obtain ⟨⟨x', cmds⟩, hact, heq⟩ := Option.map_eq_some_iff.mp h
    exact ⟨x, x', cmds, hx, hact, heq.symm⟩

/-- The actor's reply reaches the session it is for, and no other one. -/
theorem getElem?_answer {sessions sessions' : List Session} {reply : Reply}
    {routes : List (Destination × NextHop)} (h : answer sessions reply routes = some sessions')
    (c : SessionId) :
    (∃ collected, reply = .routes c collected ∧
        (routes : Multiset (Destination × NextHop)) = collected ∧
        sessions'[c]? = sessions[c]?.map fun x => x.receive routes) ∨
      (∀ collected, reply ≠ .routes c collected) ∧ sessions'[c]? = sessions[c]? := by
  cases reply with
  | nothing =>
    cases h
    exact Or.inr ⟨fun collected hreply => by (cases hreply), rfl⟩
  | stats =>
    cases h
    exact Or.inr ⟨fun collected hreply => by (cases hreply), rfl⟩
  | routes responseTx collected =>
    simp only [answer] at h
    split at h
    · rename_i hroutes
      cases h
      by_cases hc : responseTx = c
      · subst hc
        exact Or.inl ⟨collected, rfl, hroutes, List.getElem?_modify_eq _ _ _⟩
      · -- The response goes to another session.
        refine Or.inr ⟨?_, List.getElem?_modify_ne _ _ hc⟩
        intro collected' hreply
        cases hreply
        exact hc rfl
    · cases h

/-- A response reaches a session that waits for one. -/
theorem receive_cases (x : Session) (routes : List (Destination × NextHop)) :
    x.receive routes = x ∨ ∃ vni, x.phase = .subscribing vni none ∧
      x.receive routes = { x with phase := .subscribing vni (some routes) } := by
  unfold Session.receive
  split
  · rename_i vni hphase
    exact Or.inr ⟨vni, hphase, rfl⟩
  · exact Or.inl rfl

/-- The actor takes the first command when it is idle. The order of the collected routes is
arbitrary, but they are those of the table. -/
theorem recv_eq_some {s s' : System} {owned : List RouteKey}
    {routes : List (Destination × NextHop)} (h : s.recv owned routes = some s') :
    ∃ c cmd commands sessions, s.distribution = none ∧ s.commands = (c, cmd) :: commands ∧
      (owned : Multiset RouteKey) = s.actor.collectedRoutes cmd ∧
      answer s.sessions (s.actor.handle cmd owned).reply routes = some sessions ∧
      s' = { actor := (s.actor.handle cmd owned).actor
             distribution :=
              some ⟨(s.actor.handle cmd owned).deliveries.filter fun d => d.targets ≠ ∅, ∅⟩
             commands := commands
             processed := s.processed ++ [(c, cmd)]
             sessions := sessions } := by
  simp only [recv] at h
  split at h
  · rename_i c cmd commands hidle hcommands
    split at h
    · rename_i howned
      obtain ⟨sessions, hanswer, heq⟩ := Option.map_eq_some_iff.mp h
      exact ⟨c, cmd, commands, sessions, hidle, hcommands, howned, hanswer, heq.symm⟩
    · cases h
  · cases h

/-- A `try_send` passes the peer over, puts the message into its channel, or finds the
channel full. -/
theorem trySend_eq_some {capacity : Nat} {s s' : System} {addr : SocketAddr}
    (h : s.trySend capacity addr = some s') :
    ∃ msg targets rest slow, s.distribution = some ⟨⟨msg, targets⟩ :: rest, slow⟩ ∧
      addr ∈ targets ∧
      (((∀ tx x, s.channel addr = some (tx, x) → x.phase = .closed) ∧
          s' = { s with
            distribution := some ⟨Distribution.consume msg (targets.erase addr) rest, slow⟩ }) ∨
        (∃ tx x, s.channel addr = some (tx, x) ∧ x.phase ≠ .closed ∧ x.rx.length < capacity ∧
          s' = { s with
            distribution := some ⟨Distribution.consume msg (targets.erase addr) rest, slow⟩
            sessions := s.sessions.set tx { x with rx := x.rx ++ [msg] } }) ∨
        (s.Full capacity addr ∧
          s' = { s with
            distribution :=
              some ⟨Distribution.consume msg (targets.erase addr) rest, insert addr slow⟩ })) := by
  simp only [trySend] at h
  split at h
  · rename_i msg targets rest slow hdist
    split at h
    · rename_i hmem
      refine ⟨msg, targets, rest, slow, hdist, hmem, ?_⟩
      split at h
      · -- The peer has no channel any more.
        rename_i hnone
        refine Or.inl ⟨?_, (Option.some.inj h).symm⟩
        intro tx x hsome
        rw [hnone] at hsome
        cases hsome
      · rename_i tx x hsome
        split at h
        · -- The receiver of the channel is gone.
          rename_i hclosed
          refine Or.inl ⟨?_, (Option.some.inj h).symm⟩
          intro tx' x' hsome'
          rw [hsome] at hsome'
          cases hsome'
          exact hclosed
        · rename_i hopen
          split at h
          · rename_i hroom
            exact Or.inr (Or.inl ⟨tx, x, hsome, hopen, hroom, (Option.some.inj h).symm⟩)
          · rename_i hfull
            exact Or.inr (Or.inr ⟨⟨tx, x, hsome, hopen, Nat.le_of_not_lt hfull⟩,
              (Option.some.inj h).symm⟩)
    · cases h
  · cases h

/-- A distribution is finished when no target is left. Then the slow consumers are removed. -/
theorem finish_eq_some {s s' : System} (h : s.finish = some s') :
    ∃ slow, s.distribution = some ⟨[], slow⟩ ∧
      s' = { s with actor := s.actor.removeSlowConsumers slow, distribution := none } := by
  simp only [finish] at h
  split at h
  · rename_i slow hdist
    exact ⟨slow, hdist, (Option.some.inj h).symm⟩
  · cases h

/-- The channel at an address belongs to the session whose handle is registered there. -/
theorem channel_eq_some {s : System} {addr : SocketAddr} {tx : SessionId} {x : Session}
    (h : s.channel addr = some (tx, x)) :
    s.actor.peers.lookup addr = some tx ∧ s.sessions[tx]? = some x := by
  simp only [channel, Option.bind_eq_some_iff, Option.map_eq_some_iff, Prod.mk.injEq] at h
  obtain ⟨tx', hpeers, x', hx, rfl, rfl⟩ := h
  exact ⟨hpeers, hx⟩

/-! ### The commands of all sessions -/

/-- The commands that the sessions have sent, taken and waiting. -/
def history (s : System) : List Event := s.processed ++ s.commands

/-- The session `c` is at the address `a` and has not sent its `PeerDisconnected`. -/
def IsOpen (sessions : List Session) (c : SessionId) (a : SocketAddr) : Prop :=
  ∃ x, sessions[c]? = some x ∧ x.addr = a ∧ x.phase ≠ .closed

/-- The commands of all sessions form a disciplined history, and the open sessions are the
holders of the addresses. -/
structure Wired (s : System) : Prop where
  disciplined : Event.Disciplined s.history
  holder : ∀ a c, Event.holder s.history a = some c ↔ IsOpen s.sessions c a
  known : ∀ e ∈ s.history, e.1 < s.sessions.length

/-- The next command of the actor is allowed after those that it has taken. -/
theorem Wired.allowed {s : System} (h : Wired s) {e : Event} {commands : List Event}
    (hcommands : s.commands = e :: commands) : Event.Allowed s.processed e := by
  have hd := h.disciplined
  rw [history, hcommands] at hd
  exact History.Obeys.at hd

/-- What matters for `Wired` stays the same. -/
theorem Wired.of_eq {s s' : System} (h : Wired s) (hhistory : s'.history = s.history)
    (hlength : s'.sessions.length = s.sessions.length)
    (hopen : ∀ c a, IsOpen s'.sessions c a ↔ IsOpen s.sessions c a) : Wired s' where
  disciplined := hhistory ▸ h.disciplined
  holder a c := by rw [hhistory, h.holder, hopen]
  known := by rw [hhistory, hlength]; exact h.known

/-- A step that appends one allowed command to the history. -/
theorem Wired.of_send {s s' : System} (h : Wired s) {e : Event}
    (hhistory : s'.history = s.history ++ [e]) (hallowed : Event.Allowed s.history e)
    (hlength : s.sessions.length ≤ s'.sessions.length) (hknown : e.1 < s'.sessions.length)
    (hholder : ∀ a c, Event.holder (s.history ++ [e]) a = some c ↔ IsOpen s'.sessions c a) :
    Wired s' where
  disciplined := by
    rw [hhistory, Event.disciplined_snoc]
    exact ⟨h.disciplined, hallowed⟩
  holder a c := by rw [hhistory, hholder]
  known := by
    intro e' hmem
    rw [hhistory, List.mem_append, List.mem_singleton] at hmem
    rcases hmem with hold | rfl
    · exact Nat.lt_of_lt_of_le (h.known e' hold) hlength
    · exact hknown

/-- A step of a session that neither closes it nor moves it leaves the open sessions as they are.
-/
theorem isOpen_set {sessions : List Session} {c : SessionId} {x x' : Session}
    (hx : sessions[c]? = some x) (haddr : x'.addr = x.addr)
    (hphase : x'.phase = .closed ↔ x.phase = .closed) (c' : SessionId) (a : SocketAddr) :
    IsOpen (sessions.set c x') c' a ↔ IsOpen sessions c' a := by
  unfold IsOpen
  rw [getElem?_set_of_some hx]
  split
  · rename_i heq
    subst heq
    simp [hx, haddr, hphase]
  · exact Iff.rfl

/-- An answer of the actor opens and closes no session. -/
theorem isOpen_answer {sessions sessions' : List Session} {reply : Reply}
    {routes : List (Destination × NextHop)} (h : answer sessions reply routes = some sessions')
    (c : SessionId) (a : SocketAddr) : IsOpen sessions' c a ↔ IsOpen sessions c a := by
  unfold IsOpen
  rcases getElem?_answer h c with ⟨collected, -, -, heq⟩ | ⟨-, heq⟩
  · rw [heq]
    cases sessions[c]? with
    | none => simp
    | some x =>
      rcases receive_cases x routes with hreceive | ⟨vni, hphase, hreceive⟩
      · simp [hreceive]
      · simp [hreceive, hphase]
  · rw [heq]

/-- An answer of the actor adds and removes no session. -/
theorem length_answer {sessions sessions' : List Session} {reply : Reply}
    {routes : List (Destination × NextHop)} (h : answer sessions reply routes = some sessions') :
    sessions'.length = sessions.length := by
  cases reply with
  | nothing =>
    cases h
    rfl
  | stats =>
    cases h
    rfl
  | routes responseTx collected =>
    simp only [answer] at h
    split at h
    · cases h
      exact List.length_modify _ _ _
    · cases h

/-- A new session is open, and the other ones are as before. -/
theorem isOpen_append (sessions : List Session) (x : Session) (hopen : x.phase ≠ .closed)
    (c : SessionId) (a : SocketAddr) :
    IsOpen (sessions ++ [x]) c a ↔
      IsOpen sessions c a ∨ c = sessions.length ∧ x.addr = a := by
  unfold IsOpen
  rw [List.getElem?_append]
  split
  · rename_i hlt
    have hne : c ≠ sessions.length := Nat.ne_of_lt hlt
    simp [hne]
  · rename_i hge
    have hnone : sessions[c]? = none := List.getElem?_eq_none (Nat.le_of_not_lt hge)
    -- Past the old sessions there is only the new one.
    rw [hnone]
    by_cases hc : c = sessions.length
    · simp [hc, hopen]
    · have hpos : c - sessions.length ≠ 0 :=
        Nat.sub_ne_zero_of_lt (Nat.lt_of_le_of_ne (Nat.le_of_not_lt hge) (Ne.symm hc))
      simp [hc, hpos]

/-- At the start there are no commands and no sessions, so the history is disciplined. -/
theorem wired_new : Wired new where
  disciplined := History.obeys_nil _
  holder a c := by
    constructor
    · intro h
      cases h
    · rintro ⟨x, hx, -⟩
      cases hx
  known := by
    intro e hmem
    cases hmem

/-- A command of an open session other than its last one is allowed, and moves nobody. -/
theorem wired_command {s : System} (h : Wired s) {c : SessionId} {x : Session}
    (hx : s.sessions[c]? = some x) (hopen : x.phase ≠ .closed) {msg : Message}
    {cmd : RoutingCommand} (hcmd : msg.command x.addr c = some cmd) :
    Event.Allowed s.history (c, cmd) ∧
      ∀ a, Event.holder (s.history ++ [(c, cmd)]) a = Event.holder s.history a := by
  have hholder : Event.holder s.history x.addr = some c := (h.holder _ _).mpr ⟨x, hx, rfl, hopen⟩
  cases msg with
  | hello => cases hcmd
  | keepalive => cases hcmd
  | subscribe vni =>
    cases hcmd
    exact ⟨⟨hholder, rfl⟩, fun a => Event.holder_snoc _ _ a⟩
  | unsubscribe vni =>
    cases hcmd
    exact ⟨hholder, fun a => Event.holder_snoc _ _ a⟩
  | update action vni destination nextHop =>
    cases hcmd
    exact ⟨hholder, fun a => Event.holder_snoc _ _ a⟩

/-- A new connection keeps the history disciplined: its address is free, so it holds it from its
`PeerConnected` on. -/
theorem wired_accept {s s' : System} {addr : SocketAddr} {subscriptions : List Vni}
    {announced : List RouteKey} (h : Wired s)
    (hs : s.accept addr subscriptions announced = some s') : Wired s' := by
  obtain ⟨hfree, x, haddr, hphase, -, -, -, -, -, rfl⟩ := accept_eq_some hs
  have hopen : x.phase ≠ .closed := by
    intro hclosed
    rw [hphase] at hclosed
    cases hclosed
  -- No open session is at the address, so the history has no holder for it.
  have hnobody : ∀ c, ¬ IsOpen s.sessions c addr := by
    rintro c ⟨y, hy, hya, hyopen⟩
    rcases hfree y (List.mem_of_getElem? hy) with hclosed | hne
    · exact hyopen hclosed
    · exact hne hya
  have hnone : Event.holder s.history addr = none := by
    cases hholder : Event.holder s.history addr with
    | none => rfl
    | some c => exact absurd ((h.holder addr c).mp hholder) (hnobody c)
  refine h.of_send (List.append_assoc _ _ _).symm ⟨hnone, rfl, ?_⟩ ?_ ?_ ?_
  · intro e hmem
    exact Nat.ne_of_lt (h.known e hmem)
  · exact (List.length_append ▸ Nat.le_add_right _ _ :
      s.sessions.length ≤ (s.sessions ++ [x]).length)
  · show s.sessions.length < (s.sessions ++ [x]).length
    rw [List.length_append, List.length_singleton]
    exact Nat.lt_succ_self _
  · intro a c
    show _ ↔ IsOpen (s.sessions ++ [x]) c a
    rw [Event.holder_snoc, isOpen_append _ _ hopen, ← h.holder]
    simp only [Event.holderStep, haddr]
    split
    · rename_i heq
      subst heq
      rw [hnone]
      simp [eq_comm]
    · rename_i hne
      simp [hne]

/-- A session that has ended holds its address no longer, and everybody else keeps theirs. -/
theorem holder_left {s : System} (h : Wired s) {c : SessionId} {x x' : Session}
    (hx : s.sessions[c]? = some x) (hholder : Event.holder s.history x.addr = some c)
    (hphase : x'.phase = .closed) (a : SocketAddr) (c' : SessionId) :
    Event.holder (s.history ++ [(c, .peerDisconnected x.addr)]) a = some c' ↔
      IsOpen (s.sessions.set c x') c' a := by
  rw [Event.holder_snoc]
  simp only [Event.holderStep]
  unfold IsOpen
  rw [getElem?_set_of_some hx]
  by_cases hc : c = c'
  · -- The session never held another address.
    subst hc
    simp only [if_true, Option.some.injEq, exists_eq_left', hphase, ne_eq, not_true_eq_false,
      and_false, iff_false]
    split
    · simp
    · rename_i hne
      intro ha
      exact hne (Event.holder_injective h.disciplined hholder ha)
  · rw [if_neg hc]
    split
    · rename_i heq
      subst heq
      simp only [reduceCtorEq, false_iff]
      intro hopen'
      -- Nobody else could hold the address before.
      have hholder' := (h.holder x.addr c').mpr hopen'
      rw [hholder] at hholder'
      exact hc (Option.some.inj hholder')
    · exact h.holder a c'

/-- A step of a session keeps the history disciplined. What it sends is sent under its own address
while it is open, and `PeerDisconnected` is the last of it. -/
theorem wired_sessionStep {s s' : System} {c : SessionId} {action : SessionAction} (h : Wired s)
    (hs : s.sessionStep c action = some s') : Wired s' := by
  obtain ⟨x, x', cmds, hx, hact, rfl⟩ := sessionStep_eq_some hs
  have hlength : (s.sessions.set c x').length = s.sessions.length := List.length_set
  have hlt : c < s.sessions.length := (List.getElem?_eq_some_iff.mp hx).1
  -- A step that sends no command and closes nothing.
  have hquiet : x'.addr = x.addr → (x'.phase = .closed ↔ x.phase = .closed) → cmds = [] →
      Wired { s with
        commands := s.commands ++ cmds.map fun cmd => (c, cmd)
        sessions := s.sessions.set c x' } := by
    rintro haddr hphase rfl
    refine h.of_eq ?_ hlength (isOpen_set hx haddr hphase)
    simp [history]
  cases Session.effect_of_act hact with
  | wrote hmsg haddr hphase htoServer hsent => exact hquiet haddr (by rw [hphase]) rfl
  | moved haddr hphase htoServer hsent =>
    refine hquiet haddr ?_ rfl
    -- The phase may change, but not to or from `closed`.
    rcases hphase with hphase | ⟨⟨vni, routes, hphase⟩, hphase'⟩ | ⟨hphase, hphase'⟩
    · rw [hphase]
    · simp [hphase, hphase']
    · simp [hphase, hphase']
  | @took msg rest htoServer haddr hrunning hphase htoServer' hsent =>
    have hopen : x.phase ≠ .closed := by simp [hrunning]
    have hopen' : x'.phase ≠ .closed := by
      rw [hphase]
      cases msg with
      | subscribe => simp
      | hello | keepalive | unsubscribe | update => simp
    have hclosed : x'.phase = .closed ↔ x.phase = .closed := by simp [hopen, hopen']
    cases hcmd : msg.command x.addr c with
    | none =>
      rw [hcmd] at hquiet
      exact hquiet haddr hclosed rfl
    | some cmd =>
      obtain ⟨hallowed, hholder⟩ := wired_command h hx hopen hcmd
      rw [Option.toList_some, List.map_singleton]
      refine h.of_send (List.append_assoc _ _ _).symm hallowed (Nat.le_of_eq hlength.symm) ?_ ?_
      · exact Nat.lt_of_lt_of_eq hlt hlength.symm
      · intro a c'
        rw [hholder, h.holder]
        exact (isOpen_set hx haddr hclosed c' a).symm
  | left haddr hstopped hphase htoServer hsent =>
    have hopen : x.phase ≠ .closed := by simp [hstopped]
    have hholder : Event.holder s.history x.addr = some c :=
      (h.holder _ _).mpr ⟨x, hx, rfl, hopen⟩
    rw [List.map_singleton]
    refine h.of_send (List.append_assoc _ _ _).symm hholder (Nat.le_of_eq hlength.symm) ?_ ?_
    · exact Nat.lt_of_lt_of_eq hlt hlength.symm
    · exact holder_left h hx hholder hphase

/-- Every step keeps the sessions and the commands fitting together. -/
theorem wired_step {capacity : Nat} {s s' : System} {l : Label} (h : Wired s)
    (hs : (lts capacity).step s l = some s') : Wired s' := by
  cases l with
  | accept addr subscriptions announced => exact wired_accept h hs
  | session c action => exact wired_sessionStep h hs
  | recv owned routes =>
    obtain ⟨c, cmd, commands, sessions, -, hcommands, -, hanswer, rfl⟩ := recv_eq_some hs
    refine h.of_eq ?_ (length_answer hanswer) (isOpen_answer hanswer)
    -- The command moves from the waiting ones to the processed ones.
    show s.processed ++ [(c, cmd)] ++ commands = s.history
    rw [history, hcommands, List.append_assoc, List.singleton_append]
  | trySend addr =>
    obtain ⟨msg, targets, rest, slow, -, -, ⟨-, rfl⟩ | ⟨tx, x, hchannel, -, -, rfl⟩ | ⟨-, rfl⟩⟩ :=
      trySend_eq_some hs
    · exact h.of_eq rfl rfl fun _ _ => Iff.rfl
    · exact h.of_eq rfl List.length_set (isOpen_set (channel_eq_some hchannel).2 rfl Iff.rfl)
    · exact h.of_eq rfl rfl fun _ _ => Iff.rfl
  | finish =>
    obtain ⟨slow, -, rfl⟩ := finish_eq_some hs
    exact h.of_eq rfl rfl fun _ _ => Iff.rfl

/-- In every run the commands form a disciplined history. The results about disciplined histories
apply to the server by this theorem. -/
theorem wired_of_run {capacity : Nat} {ls : List Label} {s : System}
    (hrun : (lts capacity).Run ls s) : Wired s :=
  Lts.Run.invariant wired_new (fun _ _ _ _ _ h hs => wired_step h hs) hrun

end System

end RustBond
