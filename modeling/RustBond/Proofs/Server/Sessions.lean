import RustBond.Proofs.Server.System

/-!
# `RustBond.Proofs.Server.Sessions`: the sessions and their commands

Three invariants of every run of the system:

* `Awaiting`: a session waits in `handle_subscribe` exactly while its subscribe command
  waits in the actor's channel, so the actor's response finds it waiting;
* `Traced`: a session has sent to the actor what its client has written and the server has
  read, between one `PeerConnected` and at most one `PeerDisconnected`;
* `Turned`: the actor inside the system makes the runs of `RoutingActor.system`, so that the
  results on the actor alone apply to it (`exists_turns`).
-/

set_option autoImplicit false

namespace RustBond

namespace Event

def isSubscribe (e : Event) : Bool :=
  match e.2 with
  | .subscribe _ _ _ => true
  | _ => false

/-- The subscribe commands of the session `c` among some commands. -/
def subscribesOf (h : List Event) (c : SessionId) : List Event :=
  (ofSession h c).filter isSubscribe

/-- The commands of a session in two histories, one after the other. -/
theorem ofSession_append (h h' : List Event) (c : SessionId) :
    ofSession (h ++ h') c = ofSession h c ++ ofSession h' c :=
  List.filter_append _ _

/-- The commands that one session sends together. -/
theorem ofSession_map (c c' : SessionId) (cmds : List RoutingCommand) :
    ofSession (cmds.map fun cmd => (c, cmd)) c'
      = if c = c' then cmds.map fun cmd => (c, cmd) else [] := by
  unfold ofSession
  split
  · rename_i heq
    refine List.filter_eq_self.mpr ?_
    intro e hmem
    obtain ⟨cmd, -, rfl⟩ := List.mem_map.mp hmem
    simpa using heq
  · rename_i hne
    refine List.filter_eq_nil_iff.mpr ?_
    intro e hmem
    obtain ⟨cmd, -, rfl⟩ := List.mem_map.mp hmem
    simpa using hne

/-- A session that a history does not know has sent nothing in it. -/
theorem ofSession_of_known {h : List Event} {n : Nat} (hknown : ∀ e ∈ h, e.1 < n) :
    ofSession h n = [] := by
  refine List.filter_eq_nil_iff.mpr ?_
  intro e hmem
  simpa using Nat.ne_of_lt (hknown e hmem)

/-- The subscribe commands of a session in two histories, one after the other. -/
theorem subscribesOf_append (h h' : List Event) (c : SessionId) :
    subscribesOf (h ++ h') c = subscribesOf h c ++ subscribesOf h' c := by
  unfold subscribesOf
  rw [ofSession_append, List.filter_append]

/-- The first command of a history counts if it is a subscribe command of the session. -/
theorem subscribesOf_cons (e : Event) (h : List Event) (c : SessionId) :
    subscribesOf (e :: h) c
      = if e.1 = c ∧ e.isSubscribe then e :: subscribesOf h c else subscribesOf h c := by
  unfold subscribesOf ofSession
  rw [List.filter_cons]
  by_cases hc : e.1 = c
  · by_cases hsub : e.isSubscribe = true
    · simp [hc, hsub]
    · simp [hc, hsub]
  · simp [hc]

end Event

namespace Session

/-- The subscribe command that the session waits for the actor to take. -/
def awaited (x : Session) (c : SessionId) : List Event :=
  match x.phase with
  | .subscribing vni none => [(c, .subscribe x.addr vni c)]
  | _ => []

/-- The commands of a session whose server has read the messages `read`. -/
def trace (x : Session) (c : SessionId) (read : List Message) : List Event :=
  ((c, .peerConnected x.addr c) ::
    (read.filterMap fun msg => msg.command x.addr c).map fun cmd => (c, cmd))
    ++ if x.phase = .closed then [(c, .peerDisconnected x.addr)] else []

/-- The trace of a session depends on its address and on whether it has ended. -/
theorem trace_congr {x x' : Session} (haddr : x'.addr = x.addr)
    (hphase : x'.phase = .closed ↔ x.phase = .closed) (c : SessionId) (read : List Message) :
    x'.trace c read = x.trace c read := by
  simp only [trace, haddr, hphase]

end Session

namespace System

/-- A session waits for the actor exactly while its subscribe command waits in the actor's
channel. -/
def Awaiting (s : System) : Prop :=
  ∀ c x, s.sessions[c]? = some x → Event.subscribesOf s.commands c = x.awaited c

/-- A step of a session keeps the correspondence: a session begins to wait as it sends its
subscribe command. -/
theorem awaiting_sessionStep {s s' : System} {c : SessionId} {action : SessionAction}
    (h : Awaiting s) (hs : s.sessionStep c action = some s') : Awaiting s' := by
  obtain ⟨x, x', cmds, hx, hact, rfl⟩ := sessionStep_eq_some hs
  intro c' y hy
  show Event.subscribesOf (s.commands ++ cmds.map fun cmd => (c, cmd)) c' = y.awaited c'
  rw [Event.subscribesOf_append]
  unfold Event.subscribesOf
  rw [Event.ofSession_map]
  rcases of_getElem?_set hx hy with ⟨rfl, rfl⟩ | ⟨hne, hy'⟩
  · rw [if_pos rfl]
    have hbefore : Event.subscribesOf s.commands c = x.awaited c := h c x hx
    unfold Event.subscribesOf at hbefore
    rw [hbefore]
    -- Reading a subscribe is the only action that begins to wait, and it sends the command.
    cases Session.effect_of_act hact with
    | wrote hmsg haddr hphase htoServer hsent =>
      simp [Session.awaited, haddr, hphase]
    | moved haddr hphase htoServer hsent =>
      rcases hphase with hphase | ⟨⟨vni, routes, hphase⟩, hphase'⟩ | ⟨hphase, hphase'⟩
      · simp [Session.awaited, haddr, hphase]
      · simp [Session.awaited, hphase, hphase']
      · simp [Session.awaited, hphase, hphase']
    | @took msg rest htoServer haddr hrunning hphase htoServer' hsent =>
      cases msg with
      | subscribe vni =>
        simp [Session.awaited, hrunning, hphase, haddr, Message.command, Event.isSubscribe]
      | hello | keepalive | unsubscribe | update =>
        simp [Session.awaited, hrunning, hphase, Message.command, Event.isSubscribe]
    | left haddr hstopped hphase htoServer hsent =>
      simp [Session.awaited, hstopped, hphase, Event.isSubscribe]
  · rw [if_neg hne, List.filter_nil, List.append_nil]
    exact h c' y hy'

/-- The actor ends the wait of the session whose subscribe command it takes, and of no other one.
-/
theorem awaiting_recv {s s' : System} {owned : List RouteKey}
    {routes : List (Destination × NextHop)} (hw : Wired s) (h : Awaiting s)
    (hs : s.recv owned routes = some s') : Awaiting s' := by
  obtain ⟨c, cmd, commands, sessions, -, hcommands, -, hanswer, rfl⟩ := recv_eq_some hs
  have hallowed : Event.Allowed s.processed (c, cmd) := hw.allowed hcommands
  intro c' y hy
  have hy' : sessions[c']? = some y := hy
  show Event.subscribesOf commands c' = y.awaited c'
  rcases getElem?_answer hanswer c' with ⟨collected, hreply, -, heq⟩ | ⟨hreply, heq⟩
  · -- The command is a subscribe of this session, and the only one that waits.
    rw [heq, Option.map_eq_some_iff] at hy'
    obtain ⟨x, hx, rfl⟩ := hy'
    have hbefore := h c' x hx
    rw [hcommands, Event.subscribesOf_cons] at hbefore
    cases cmd with
    | subscribe addr vni responseTx =>
      have htx : responseTx = c := hallowed.2
      have hc : c = c' := by
        have hreply' : Reply.routes responseTx (s.actor.handleSubscribe addr vni).2
          = .routes c' collected := hreply
        cases hreply'
        exact htx.symm
      rw [if_pos ⟨hc, rfl⟩] at hbefore
      rcases receive_cases x routes with hreceive | ⟨vni', hphase, hreceive⟩
      · -- A session that does not wait would have no subscribe command in the channel.
        exfalso
        unfold Session.awaited at hbefore
        split at hbefore
        · rename_i vni' hphase
          unfold Session.receive at hreceive
          rw [hphase] at hreceive
          have hphases := congrArg Session.phase hreceive
          rw [hphase] at hphases
          cases hphases
        · cases hbefore
      · rw [hreceive]
        unfold Session.awaited at hbefore ⊢
        rw [hphase] at hbefore
        exact (List.cons.inj hbefore).2
    | peerConnected | peerDisconnected | unsubscribe | update | getStats => cases hreply
  · rw [heq] at hy'
    have hbefore := h c' y hy'
    rw [hcommands, Event.subscribesOf_cons, if_neg] at hbefore
    · exact hbefore
    · -- A subscribe command is answered to the session that has sent it.
      rintro ⟨hc, hsub⟩
      cases cmd with
      | subscribe addr vni responseTx =>
        have htx : responseTx = c := hallowed.2
        have hreply' : (s.actor.handle (.subscribe addr vni responseTx) owned).reply
            = .routes responseTx (s.actor.handleSubscribe addr vni).2 := rfl
        exact hreply _ (hreply'.trans (by rw [htx, ← show c = c' from hc]))
      | peerConnected | peerDisconnected | unsubscribe | update | getStats => cases hsub

/-- Every step keeps waiting sessions and waiting subscribe commands in correspondence. -/
theorem awaiting_step {capacity : Nat} {s s' : System} {l : Label} (hw : Wired s)
    (h : Awaiting s) (hs : (lts capacity).step s l = some s') : Awaiting s' := by
  cases l with
  | accept addr subscriptions announced =>
    obtain ⟨-, x, -, hphase, -, -, -, -, -, rfl⟩ := accept_eq_some hs
    intro c y hy
    show Event.subscribesOf (s.commands ++ [_]) c = y.awaited c
    have hnew : Event.subscribesOf [(s.sessions.length,
        .peerConnected addr s.sessions.length)] c = [] := by
      rw [Event.subscribesOf_cons, if_neg (fun h' => by cases h'.2)]
      rfl
    rw [Event.subscribesOf_append, hnew, List.append_nil]
    rcases getElem?_concat_eq_some hy with hy' | ⟨hlast, rfl⟩
    · exact h c y hy'
    · have hnone : Event.ofSession s.commands c = [] := by
        rw [hlast]
        refine Event.ofSession_of_known ?_
        intro e hmem
        exact hw.known e (List.mem_append_right _ hmem)
      simp [Event.subscribesOf, hnone, Session.awaited, hphase]
  | session c action => exact awaiting_sessionStep h hs
  | recv owned routes => exact awaiting_recv hw h hs
  | trySend addr =>
    obtain ⟨msg, targets, rest, slow, -, -, ⟨-, rfl⟩ | ⟨tx, x, hchannel, -, -, rfl⟩ | ⟨-, rfl⟩⟩ :=
      trySend_eq_some hs
    · exact h
    · intro c y hy
      have hx := (channel_eq_some hchannel).2
      rcases of_getElem?_set hx hy with ⟨rfl, rfl⟩ | ⟨-, hy'⟩
      · exact h tx x hx
      · exact h c y hy'
    · exact h
  | finish =>
    obtain ⟨slow, -, rfl⟩ := finish_eq_some hs
    exact h

/-- In every reachable state, a session waits exactly for its own subscribe command. The answer of
the actor therefore finds the session that has asked. -/
theorem awaiting_of_run {capacity : Nat} {ls : List Label} {s : System}
    (hrun : (lts capacity).Run ls s) : Awaiting s := by
  refine Lts.Run.invariant ?_ (fun _ _ _ _ hr h hs => awaiting_step (wired_of_run hr) h hs) hrun
  intro c x hx
  cases hx

/-! ### What a step does to one session -/

/-- What a step does to the session `c`, which is `y` afterwards. -/
inductive Fate (s s' : System) (c : SessionId) (y : Session) : Label → Prop
  /-- The session is new. -/
  | accepted {addr : SocketAddr} {subscriptions : List Vni} {announced : List RouteKey}
      (hc : c = s.sessions.length) (haddr : y.addr = addr) (hphase : y.phase = .running)
      (hrx : y.rx = []) (htoClient : y.toClient = [])
      (hclient : y.client = ⟨subscriptions.toFinset, RouteTable.new⟩)
      (hsent : y.sent = y.toServer) : Fate s s' c y (.accept addr subscriptions announced)
  /-- The session made the step. -/
  | acted {x : Session} {action : SessionAction} {cmds : List RoutingCommand}
      (hx : s.sessions[c]? = some x) (hact : x.act c action = some (y, cmds))
      (hcommands : s'.commands = s.commands ++ cmds.map fun cmd => (c, cmd)) :
      Fate s s' c y (.session c action)
  /-- The actor answered the session's subscribe command. -/
  | answered {x : Session} {owned : List RouteKey} {routes : List (Destination × NextHop)}
      (hx : s.sessions[c]? = some x) (hy : y = x.receive routes)
      (hreply : ∃ addr vni e, s.commands.head? = some (e, .subscribe addr vni c) ∧
        (routes : Multiset (Destination × NextHop)) = (s.actor.handleSubscribe addr vni).2) :
      Fate s s' c y (.recv owned routes)
  /-- The actor put a message into the session's channel. -/
  | offered {x : Session} {addr : SocketAddr} {msg : Message} (hx : s.sessions[c]? = some x)
      (hy : y = { x with rx := x.rx ++ [msg] }) : Fate s s' c y (.trySend addr)
  /-- The session did not take part. -/
  | kept {l : Label} (hx : s.sessions[c]? = some y) (hother : ∀ action, l ≠ .session c action) :
      Fate s s' c y l

/-- The inversion of a step for one session. What happens to a session in a run is proved by cases
on its fate. -/
theorem fate_of_step {capacity : Nat} {s s' : System} {l : Label}
    (hs : (lts capacity).step s l = some s') {c : SessionId} {y : Session}
    (hy : s'.sessions[c]? = some y) : Fate s s' c y l := by
  cases l with
  | accept addr subscriptions announced =>
    obtain ⟨-, x, haddr, hphase, hrx, htoClient, htoServer, hsent, hclient, rfl⟩ :=
      accept_eq_some hs
    rcases getElem?_concat_eq_some hy with hy' | ⟨hlast, rfl⟩
    · exact .kept hy' fun action h => by cases h
    · exact .accepted hlast haddr hphase hrx htoClient hclient hsent
  | session c' action =>
    obtain ⟨x, x', cmds, hx, hact, rfl⟩ := sessionStep_eq_some hs
    rcases of_getElem?_set hx hy with ⟨rfl, rfl⟩ | ⟨hne, hy'⟩
    · exact .acted hx hact rfl
    · refine .kept hy' ?_
      intro action' h
      cases h
      exact hne rfl
  | recv owned routes =>
    obtain ⟨e, cmd, commands, sessions, -, hcommands, -, hanswer, rfl⟩ := recv_eq_some hs
    have hy' : sessions[c]? = some y := hy
    -- Only a subscribe has an answer for a session.
    rcases getElem?_answer hanswer c with ⟨collected, hreply, hroutes, heq⟩ | ⟨-, heq⟩
    · rw [heq, Option.map_eq_some_iff] at hy'
      obtain ⟨x, hx, rfl⟩ := hy'
      cases cmd with
      | subscribe addr vni responseTx =>
        cases hreply
        exact .answered hx rfl ⟨addr, vni, e, by rw [hcommands]; rfl, hroutes⟩
      | peerConnected | peerDisconnected | unsubscribe | update | getStats => cases hreply
    · rw [heq] at hy'
      exact .kept hy' fun action h => by cases h
  | trySend addr =>
    obtain ⟨msg, targets, rest, slow, -, -, ⟨-, rfl⟩ | ⟨tx, x, hchannel, -, -, rfl⟩ | ⟨-, rfl⟩⟩ :=
      trySend_eq_some hs
    · exact .kept hy fun action h => by cases h
    · have hx := (channel_eq_some hchannel).2
      rcases of_getElem?_set hx hy with ⟨rfl, rfl⟩ | ⟨-, hy'⟩
      · exact .offered hx rfl
      · exact .kept hy' fun action h => by cases h
    · exact .kept hy fun action h => by cases h
  | finish =>
    obtain ⟨slow, -, rfl⟩ := finish_eq_some hs
    exact .kept hy fun action h => by cases h

/-- Sessions are never removed. -/
theorem length_sessions_le {capacity : Nat} {s s' : System} {l : Label}
    (hs : (lts capacity).step s l = some s') : s.sessions.length ≤ s'.sessions.length := by
  cases l with
  | accept addr subscriptions announced =>
    obtain ⟨-, x, -, -, -, -, -, -, -, rfl⟩ := accept_eq_some hs
    show s.sessions.length ≤ (s.sessions ++ [x]).length
    simp
  | session c action =>
    obtain ⟨x, x', cmds, -, -, rfl⟩ := sessionStep_eq_some hs
    show s.sessions.length ≤ (s.sessions.set c x').length
    simp
  | recv owned routes =>
    obtain ⟨c, cmd, commands, sessions, -, -, -, hanswer, rfl⟩ := recv_eq_some hs
    exact (length_answer hanswer).ge
  | trySend addr =>
    obtain ⟨msg, targets, rest, slow, -, -, ⟨-, rfl⟩ | ⟨tx, x, -, -, -, rfl⟩ | ⟨-, rfl⟩⟩ :=
      trySend_eq_some hs
    · exact Nat.le_refl _
    · show s.sessions.length ≤ (s.sessions.set tx { x with rx := x.rx ++ [msg] }).length
      simp
    · exact Nat.le_refl _
  | finish =>
    obtain ⟨slow, -, rfl⟩ := finish_eq_some hs
    exact Nat.le_refl _

/-- A session stays at its address, and what its client has written stays written. -/
theorem stays_of_step {capacity : Nat} {s s' : System} {l : Label}
    (hs : (lts capacity).step s l = some s') {c : SessionId} {x : Session}
    (hx : s.sessions[c]? = some x) :
    ∃ y, s'.sessions[c]? = some y ∧ y.addr = x.addr ∧ x.sent ⊆ y.sent := by
  have hlt : c < s.sessions.length := (List.getElem?_eq_some_iff.mp hx).1
  obtain ⟨y, hy⟩ : ∃ y, s'.sessions[c]? = some y :=
    ⟨_, List.getElem?_eq_getElem (Nat.lt_of_lt_of_le hlt (length_sessions_le hs))⟩
  refine ⟨y, hy, ?_⟩
  -- The session is not new, because it was there before.
  cases fate_of_step hs hy with
  | accepted hc => exact absurd hc (Nat.ne_of_lt hlt)
  | acted hx' hact =>
    rw [hx] at hx'
    cases hx'
    have heffect := Session.effect_of_act hact
    refine ⟨heffect.addr_eq, ?_⟩
    cases heffect with
    | wrote hmsg haddr hphase htoServer hsent => exact hsent ▸ List.subset_append_left _ _
    | took htoServer haddr hrunning hphase htoServer' hsent => exact hsent ▸ List.Subset.refl _
    | moved haddr hphase htoServer hsent => exact hsent ▸ List.Subset.refl _
    | left haddr hstopped hphase htoServer hsent => exact hsent ▸ List.Subset.refl _
  | @answered x' owned routes hx' hy' hreply =>
    rw [hx] at hx'
    cases hx'
    rcases receive_cases x routes with hreceive | ⟨vni, -, hreceive⟩
    · rw [hy', hreceive]
      exact ⟨rfl, List.Subset.refl _⟩
    · rw [hy', hreceive]
      exact ⟨rfl, List.Subset.refl _⟩
  | offered hx' hy' =>
    rw [hx] at hx'
    cases hx'
    rw [hy']
    exact ⟨rfl, List.Subset.refl _⟩
  | kept hx' hother =>
    rw [hx] at hx'
    cases hx'
    exact ⟨rfl, List.Subset.refl _⟩

/-- A step appends to the history the commands of the session that acts. -/
theorem ofSession_history_step {capacity : Nat} {s s' : System} {l : Label}
    (hs : (lts capacity).step s l = some s') {c : SessionId} (hc : c < s.sessions.length)
    (hother : ∀ action, l ≠ .session c action) :
    Event.ofSession s'.history c = Event.ofSession s.history c := by
  cases l with
  | accept addr subscriptions announced =>
    obtain ⟨-, x, -, -, -, -, -, -, -, rfl⟩ := accept_eq_some hs
    show Event.ofSession (s.processed ++ (s.commands ++ [_])) c = _
    rw [← List.append_assoc, Event.ofSession_append]
    have hnew : Event.ofSession [(s.sessions.length,
        .peerConnected addr s.sessions.length)] c = [] := by
      simp [Event.ofSession, Nat.ne_of_gt hc]
    rw [hnew, List.append_nil]
    rfl
  | session c' action =>
    obtain ⟨x, x', cmds, -, -, rfl⟩ := sessionStep_eq_some hs
    have hne : c' ≠ c := by
      intro heq
      exact hother action (by rw [heq])
    show Event.ofSession (s.processed ++ (s.commands ++ _)) c = _
    rw [← List.append_assoc, Event.ofSession_append, Event.ofSession_map, if_neg hne,
      List.append_nil]
    rfl
  | recv owned routes =>
    obtain ⟨e, cmd, commands, sessions, -, hcommands, -, -, rfl⟩ := recv_eq_some hs
    show Event.ofSession (s.processed ++ [(e, cmd)] ++ commands) c = _
    -- The command moves from the channel to the processed ones.
    rw [history, hcommands, List.append_assoc, List.singleton_append]
  | trySend addr =>
    obtain ⟨msg, targets, rest, slow, -, -, ⟨-, rfl⟩ | ⟨tx, x, -, -, -, rfl⟩ | ⟨-, rfl⟩⟩ :=
      trySend_eq_some hs
    · rfl
    · rfl
    · rfl
  | finish =>
    obtain ⟨slow, -, rfl⟩ := finish_eq_some hs
    rfl

/-- A session has sent to the actor what its client has written and the server has read. -/
def Traced (s : System) : Prop :=
  ∀ c x, s.sessions[c]? = some x →
    ∃ read, x.sent = read ++ x.toServer ∧ Event.ofSession s.history c = x.trace c read

/-- A step keeps the trace of every session: what the session reads becomes a command, and what it
has sent before stays. -/
theorem traced_step {capacity : Nat} {s s' : System} {l : Label} (hw : Wired s) (h : Traced s)
    (hs : (lts capacity).step s l = some s') : Traced s' := by
  intro c y hy
  have hlt : ∀ {x : Session}, s.sessions[c]? = some x → c < s.sessions.length :=
    fun hx => (List.getElem?_eq_some_iff.mp hx).1
  cases fate_of_step hs hy with
  | @accepted addr subscriptions announced hc haddr hphase hrx htoClient hclient hsent =>
    obtain ⟨-, x, -, -, -, -, -, -, -, rfl⟩ := accept_eq_some hs
    refine ⟨[], hsent, ?_⟩
    show Event.ofSession (s.processed ++ (s.commands ++ [_])) c = _
    rw [← List.append_assoc, Event.ofSession_append, hc]
    have hnone : Event.ofSession (s.processed ++ s.commands) s.sessions.length = [] :=
      Event.ofSession_of_known hw.known
    rw [hnone]
    simp [Event.ofSession, Session.trace, hphase, haddr]
  | @acted x action cmds hx hact hcommands =>
    obtain ⟨read, hsent, htrace⟩ := h c x hx
    have hprocessed : s'.processed = s.processed := by
      obtain ⟨_, _, _, -, -, rfl⟩ := sessionStep_eq_some hs
      rfl
    have hhistory : Event.ofSession s'.history c
        = x.trace c read ++ cmds.map fun cmd => (c, cmd) := by
      rw [history, hprocessed, hcommands, ← List.append_assoc, Event.ofSession_append,
        Event.ofSession_map, if_pos rfl, ← htrace]
      rfl
    rw [hhistory]
    cases Session.effect_of_act hact with
    | wrote hmsg haddr hphase htoServer hsent' =>
      refine ⟨read, ?_, ?_⟩
      · rw [hsent', hsent, htoServer, List.append_assoc]
      · rw [Session.trace_congr haddr (by rw [hphase])]
        simp
    | moved haddr hphase htoServer hsent' =>
      refine ⟨read, by rw [hsent', hsent, htoServer], ?_⟩
      rw [List.map_nil, List.append_nil, Session.trace_congr haddr]
      rcases hphase with hphase | ⟨⟨vni, routes, hphase⟩, hphase'⟩ | ⟨hphase, hphase'⟩
      · rw [hphase]
      · simp [hphase, hphase']
      · simp [hphase, hphase']
    | @took msg rest htoServer haddr hrunning hphase htoServer' hsent' =>
      refine ⟨read ++ [msg], ?_, ?_⟩
      · rw [hsent', hsent, htoServer, htoServer', List.append_assoc, List.singleton_append]
      · have hopen : y.phase ≠ .closed := by
          rw [hphase]
          cases msg with
          | subscribe => simp
          | hello | keepalive | unsubscribe | update => simp
        cases hcmd : msg.command x.addr c with
        | none => simp [Session.trace, hrunning, hopen, haddr, hcmd]
        | some cmd => simp [Session.trace, hrunning, hopen, haddr, hcmd]
    | left haddr hstopped hphase htoServer hsent' =>
      refine ⟨read, by rw [hsent', hsent, htoServer], ?_⟩
      simp [Session.trace, hstopped, hphase, haddr]
  | @answered x owned routes hx hy' hreply =>
    obtain ⟨read, hsent, htrace⟩ := h c x hx
    rw [ofSession_history_step hs (hlt hx) (fun action heq => by cases heq), htrace, hy']
    rcases receive_cases x routes with hreceive | ⟨vni, hphase, hreceive⟩
    · rw [hreceive]
      exact ⟨read, hsent, rfl⟩
    · rw [hreceive]
      refine ⟨read, hsent, (Session.trace_congr ?_ ?_ c read).symm⟩
      · rfl
      · simp [hphase]
  | @offered x addr msg hx hy' =>
    obtain ⟨read, hsent, htrace⟩ := h c x hx
    rw [ofSession_history_step hs (hlt hx) (fun action heq => by cases heq), htrace, hy']
    exact ⟨read, hsent, (Session.trace_congr rfl Iff.rfl c read).symm⟩
  | kept hx hother =>
    obtain ⟨read, hsent, htrace⟩ := h c y hx
    exact ⟨read, hsent, by rw [ofSession_history_step hs (hlt hx) hother, htrace]⟩

/-- In every reachable state, what a session has sent to the actor follows from what its client
has written and the server has read. -/
theorem traced_of_run {capacity : Nat} {ls : List Label} {s : System}
    (hrun : (lts capacity).Run ls s) : Traced s := by
  refine Lts.Run.invariant ?_ (fun _ _ _ _ hr h hs => traced_step (wired_of_run hr) h hs) hrun
  intro c x hx
  cases hx

/-- Between its first and its last command, a session sends commands for messages that its
client has written. -/
theorem Traced.of_mem {s : System} (hw : Wired s) (ht : Traced s) {c : SessionId}
    {cmd : RoutingCommand} (hmem : (c, cmd) ∈ s.history) :
    ∃ x, s.sessions[c]? = some x ∧
      (cmd = .peerConnected x.addr c ∨ cmd = .peerDisconnected x.addr ∨
        ∃ msg ∈ x.sent, msg.command x.addr c = some cmd) := by
  obtain ⟨x, hx⟩ : ∃ x, s.sessions[c]? = some x :=
    ⟨_, List.getElem?_eq_getElem (hw.known _ hmem)⟩
  obtain ⟨read, hsent, htrace⟩ := ht c x hx
  refine ⟨x, hx, ?_⟩
  have hown : (c, cmd) ∈ Event.ofSession s.history c := List.mem_filter.mpr ⟨hmem, by simp⟩
  rw [htrace, Session.trace, List.mem_append, List.mem_cons] at hown
  rcases hown with (hfirst | hread) | hlast
  · exact Or.inl (Prod.mk.inj hfirst).2
  · obtain ⟨cmd', hcmd, heq⟩ := List.mem_map.mp hread
    cases heq
    obtain ⟨msg, hmsg, hcommand⟩ := List.mem_filterMap.mp hcmd
    exact Or.inr (Or.inr ⟨msg, hsent ▸ List.mem_append_left _ hmsg, hcommand⟩)
  · split at hlast
    · exact Or.inr (Or.inl (Prod.mk.inj (List.mem_singleton.mp hlast)).2)
    · cases hlast

/-- An update command comes from an update message of the session's client. -/
theorem Traced.sent_of_update {s : System} (hw : Wired s) (ht : Traced s) {c : SessionId}
    {addr : SocketAddr} {action : Action} {vni : Vni} {destination : Destination}
    {nextHop : NextHop} (hmem : (c, .update addr action vni destination nextHop) ∈ s.history) :
    ∃ x, s.sessions[c]? = some x ∧ x.addr = addr ∧
      .update action vni destination nextHop ∈ x.sent := by
  obtain ⟨x, hx, hconnect | hdisconnect | ⟨msg, hmsg, hcommand⟩⟩ := ht.of_mem hw hmem
  · cases hconnect
  · cases hdisconnect
  · cases msg with
    | update =>
      cases hcommand
      exact ⟨x, hx, rfl, hmsg⟩
    | hello | keepalive | subscribe | unsubscribe => cases hcommand

/-- An unsubscribe command comes from an unsubscribe message of the session's client. -/
theorem Traced.sent_of_unsubscribe {s : System} (hw : Wired s) (ht : Traced s) {c : SessionId}
    {addr : SocketAddr} {vni : Vni} (hmem : (c, .unsubscribe addr vni) ∈ s.history) :
    ∃ x, s.sessions[c]? = some x ∧ .unsubscribe vni ∈ x.sent := by
  obtain ⟨x, hx, hconnect | hdisconnect | ⟨msg, hmsg, hcommand⟩⟩ := ht.of_mem hw hmem
  · cases hconnect
  · cases hdisconnect
  · cases msg with
    | unsubscribe =>
      cases hcommand
      exact ⟨x, hx, hmsg⟩
    | hello | keepalive | subscribe | update => cases hcommand

/-! ### What a step does to the actor -/

/-- The slow consumers of the distribution that the actor is in the middle of. -/
def slowConsumers (s : System) : HashSet SocketAddr :=
  match s.distribution with
  | none => ∅
  | some d => d.slowConsumers

/-- What a step does to the actor's tables and to the commands that the actor has taken. -/
inductive ActorFate (s s' : System) : Label → Prop
  /-- The actor did not take part, or only offered a message. -/
  | kept {l : Label} (hrecv : l.isRecv = false) (hactor : s'.actor = s.actor)
      (hprocessed : s'.processed = s.processed) : ActorFate s s' l
  /-- The actor took a command. -/
  | took {owned : List RouteKey} {routes : List (Destination × NextHop)} {e : Event}
      {commands : List Event} (hcommands : s.commands = e :: commands)
      (hactor : s'.actor = (s.actor.handle e.2 owned).actor)
      (hprocessed : s'.processed = s.processed ++ [e]) : ActorFate s s' (.recv owned routes)
  /-- The actor dropped the slow consumers. -/
  | dropped (hactor : s'.actor = s.actor.removeSlowConsumers s.slowConsumers)
      (hprocessed : s'.processed = s.processed) : ActorFate s s' .finish

/-- The inversion of a step for the actor's tables. -/
theorem actorFate_of_step {capacity : Nat} {s s' : System} {l : Label}
    (hs : (lts capacity).step s l = some s') : ActorFate s s' l := by
  cases l with
  | accept addr subscriptions announced =>
    obtain ⟨-, x, -, -, -, -, -, -, -, rfl⟩ := accept_eq_some hs
    exact .kept rfl rfl rfl
  | session c action =>
    obtain ⟨x, x', cmds, -, -, rfl⟩ := sessionStep_eq_some hs
    exact .kept rfl rfl rfl
  | recv owned routes =>
    obtain ⟨c, cmd, commands, sessions, -, hcommands, -, -, rfl⟩ := recv_eq_some hs
    exact .took hcommands rfl rfl
  | trySend addr =>
    obtain ⟨msg, targets, rest, slow, -, -, ⟨-, rfl⟩ | ⟨tx, x, -, -, -, rfl⟩ | ⟨-, rfl⟩⟩ :=
      trySend_eq_some hs
    · exact .kept rfl rfl rfl
    · exact .kept rfl rfl rfl
    · exact .kept rfl rfl rfl
  | finish =>
    obtain ⟨slow, hdist, rfl⟩ := finish_eq_some hs
    have hslow : s.slowConsumers = slow := by rw [slowConsumers, hdist]
    refine .dropped ?_ rfl
    rw [hslow]

/-- Only taking a command changes the commands that the actor has taken. -/
theorem processed_step {capacity : Nat} {s s' : System} {l : Label}
    (hs : (lts capacity).step s l = some s') :
    s'.processed = s.processed ∨ ∃ e commands, l.isRecv = true ∧ s.commands = e :: commands ∧
      s'.processed = s.processed ++ [e] := by
  cases actorFate_of_step hs with
  | kept _ _ hprocessed => exact Or.inl hprocessed
  | took hcommands _ hprocessed => exact Or.inr ⟨_, _, rfl, hcommands, hprocessed⟩
  | dropped _ hprocessed => exact Or.inl hprocessed

/-- The actor takes the commands that were waiting. -/
theorem mem_history_of_processed {capacity : Nat} {s s' : System} {l : Label}
    (hs : (lts capacity).step s l = some s') {e : Event} (hmem : e ∈ s'.processed) :
    e ∈ s.history := by
  rcases processed_step hs with hsame | ⟨e', commands, -, hcommands, hgrows⟩
  · exact List.mem_append_left _ (hsame ▸ hmem)
  · rw [hgrows, List.mem_append, List.mem_singleton] at hmem
    rcases hmem with hold | rfl
    · exact List.mem_append_left _ hold
    · rw [history, hcommands]
      exact List.mem_append_right _ List.mem_cons_self

/-- The command that the actor takes is the next one of what it has processed. -/
theorem processed_of_recv {capacity : Nat} {s s' : System} {l : Label}
    (hs : (lts capacity).step s l = some s') (hrecv : l.isRecv = true) {e : Event}
    {commands : List Event} (hcommands : s.commands = e :: commands) :
    s'.processed = s.processed ++ [e] := by
  cases actorFate_of_step hs with
  | kept hnot =>
    rw [hrecv] at hnot
    cases hnot
  | took hcommands' _ hprocessed =>
    rw [hcommands] at hcommands'
    cases hcommands'
    exact hprocessed
  | dropped => cases hrecv

/-! ### The actor's own runs -/

/-- The addresses that some delivery still has to come to. -/
def targeted (deliveries : List Delivery) (a : SocketAddr) : Prop :=
  ∃ d ∈ deliveries, a ∈ d.targets

/-- Taking one target away targets nobody new. -/
theorem targeted_consume {msg : Message} {targets : HashSet SocketAddr} {rest : List Delivery}
    {addr a : SocketAddr}
    (h : targeted (Distribution.consume msg (targets.erase addr) rest) a) :
    targeted (⟨msg, targets⟩ :: rest) a := by
  obtain ⟨d, hmem, ha⟩ := h
  unfold Distribution.consume at hmem
  split at hmem
  · exact ⟨d, List.mem_cons_of_mem _ hmem, ha⟩
  · rcases List.mem_cons.mp hmem with rfl | hrest
    · exact ⟨_, List.mem_cons_self, Finset.mem_of_mem_erase ha⟩
    · exact ⟨d, List.mem_cons_of_mem _ hrest, ha⟩

/-- The peers that are still to be offered a message are the registered ones among the targets. -/
theorem mem_offered {s : RoutingActor} {deliveries : List Delivery} {a : SocketAddr} :
    a ∈ s.offered deliveries ↔ a ∈ s.peers ∧ targeted deliveries a := by
  unfold targeted
  induction deliveries with
  | nil => simp [RoutingActor.offered]
  | cons d deliveries ih =>
    have hcons : s.offered (d :: deliveries)
        = (d.targets.filter fun addr => addr ∈ s.peers) ∪ s.offered deliveries := rfl
    rw [hcons, Finset.mem_union, Finset.mem_filter, ih]
    simp only [List.mem_cons, exists_eq_or_imp]
    tauto

/-- The actor has made complete turns, and if it is in the middle of a distribution, it has
begun one more turn, in which it has found the given slow consumers. -/
inductive Turned (s : System) : Prop
  | idle {turns : List Turn} (hidle : s.distribution = none)
      (hrun : RoutingActor.system.Run turns s.actor)
      (hevents : turns.map Turn.event = s.processed)
  | distributing {turns : List Turn} {s₀ : RoutingActor} {c : SessionId} {cmd : RoutingCommand}
      {owned : List RouteKey} {d : Distribution} (hbusy : s.distribution = some d)
      (hrun : RoutingActor.system.Run turns s₀)
      (hevents : turns.map Turn.event ++ [(c, cmd)] = s.processed)
      (howned : (owned : Multiset RouteKey) = s₀.collectedRoutes cmd)
      (hactor : s.actor = (s₀.handle cmd owned).actor)
      (htargets : ∀ a, targeted d.deliveries a → targeted (s₀.handle cmd owned).deliveries a)
      (hslow : d.slowConsumers ⊆ s.actor.offered (s₀.handle cmd owned).deliveries)

/-- The turn that is in progress could end now. -/
theorem Turned.exists_turns {s : System} (h : Turned s) :
    ∃ turns, RoutingActor.system.Run turns (s.actor.removeSlowConsumers s.slowConsumers) ∧
      turns.map Turn.event = s.processed := by
  cases h with
  | @idle turns hidle hrun hevents =>
    have hsame : s.actor.removeSlowConsumers s.slowConsumers = s.actor := by
      have hnone : s.slowConsumers = ∅ := by rw [slowConsumers, hidle]
      rw [hnone]
      exact RoutingActor.removeSlowConsumers_empty s.actor
    rw [hsame]
    exact ⟨turns, hrun, hevents⟩
  | @distributing turns s₀ c cmd owned d hbusy hrun hevents howned hactor htargets hslow =>
    have hslow' : s.slowConsumers = d.slowConsumers := by rw [slowConsumers, hbusy]
    rw [hactor] at hslow
    refine ⟨turns ++ [⟨c, cmd, owned, d.slowConsumers⟩], hrun.snoc ?_, ?_⟩
    · rw [RoutingActor.turn_eq_some_iff, hslow', hactor]
      exact ⟨howned, hslow, rfl⟩
    · rw [List.map_append, ← hevents]
      rfl

/-- A step keeps the history of the actor's own states in order. -/
theorem turned_step {capacity : Nat} {s s' : System} {l : Label} (h : Turned s)
    (hs : (lts capacity).step s l = some s') : Turned s' := by
  -- A step that leaves the actor alone.
  have hframe : ∀ s'' : System, s''.actor = s.actor → s''.distribution = s.distribution →
      s''.processed = s.processed → Turned s'' := by
    intro s'' hactor' hdist hprocessed
    cases h with
    | idle hidle hrun hevents =>
      exact .idle (hdist.trans hidle) (hactor' ▸ hrun) (hevents.trans hprocessed.symm)
    | distributing hbusy hrun hevents howned hactor htargets hslow =>
      exact .distributing (hdist.trans hbusy) hrun (hevents.trans hprocessed.symm) howned
        (hactor'.trans hactor) htargets (hactor' ▸ hslow)
  -- A `try_send` of the distribution in progress.
  have hsend : ∀ (s'' : System) (addr : SocketAddr) (msg : Message)
      (targets : HashSet SocketAddr) (rest : List Delivery) (slow slow' : HashSet SocketAddr),
      s.distribution = some ⟨⟨msg, targets⟩ :: rest, slow⟩ → s''.actor = s.actor →
      s''.processed = s.processed →
      s''.distribution = some ⟨Distribution.consume msg (targets.erase addr) rest, slow'⟩ →
      (∀ a ∈ slow', a ∈ slow ∨ a ∈ s.actor.peers ∧ targeted (⟨msg, targets⟩ :: rest) a) →
      Turned s'' := by
    intro s'' addr msg targets rest slow slow' hdist hactor' hprocessed hdist' hslow'
    cases h with
    | idle hidle => rw [hidle] at hdist; cases hdist
    | distributing hbusy hrun hevents howned hactor htargets hslow =>
      rw [hbusy] at hdist
      cases hdist
      refine .distributing hdist' hrun (hevents.trans hprocessed.symm) howned
        (hactor'.trans hactor) ?_ ?_
      · intro a ha
        exact htargets a (targeted_consume ha)
      · intro a ha
        rw [hactor']
        rcases hslow' a ha with hold | ⟨hpeer, htarget⟩
        · exact hslow hold
        · exact mem_offered.mpr ⟨hpeer, htargets a htarget⟩
  cases l with
  | accept addr subscriptions announced =>
    obtain ⟨-, x, -, -, -, -, -, -, -, rfl⟩ := accept_eq_some hs
    exact hframe _ rfl rfl rfl
  | session c action =>
    obtain ⟨x, x', cmds, -, -, rfl⟩ := sessionStep_eq_some hs
    exact hframe _ rfl rfl rfl
  | recv owned routes =>
    obtain ⟨c, cmd, commands, sessions, hidle, -, howned, -, rfl⟩ := recv_eq_some hs
    cases h with
    | idle _ hrun hevents =>
      refine .distributing rfl hrun (by rw [hevents]) howned rfl ?_ (Finset.empty_subset _)
      rintro a ⟨d, hmem, ha⟩
      exact ⟨d, (List.mem_filter.mp hmem).1, ha⟩
    | distributing hbusy =>
      rw [hidle] at hbusy
      cases hbusy
  | trySend addr =>
    obtain ⟨msg, targets, rest, slow, hdist, hmem, hcases⟩ := trySend_eq_some hs
    rcases hcases with ⟨-, rfl⟩ | ⟨tx, x, -, -, -, rfl⟩ | ⟨hfull, rfl⟩
    · exact hsend _ addr msg targets rest slow slow hdist rfl rfl rfl fun a ha => Or.inl ha
    · exact hsend _ addr msg targets rest slow slow hdist rfl rfl rfl fun a ha => Or.inl ha
    · refine hsend _ addr msg targets rest slow (insert addr slow) hdist rfl rfl rfl ?_
      intro a ha
      rcases Finset.mem_insert.mp ha with rfl | hold
      · obtain ⟨tx, x, hchannel, -, -⟩ := hfull
        refine Or.inr ⟨?_, ⟨msg, targets⟩, List.mem_cons_self, hmem⟩
        exact Finmap.mem_of_lookup_eq_some (channel_eq_some hchannel).1
      · exact Or.inl hold
  | finish =>
    obtain ⟨slow, hdist, rfl⟩ := finish_eq_some hs
    have hturns := h.exists_turns
    have hslow : s.slowConsumers = slow := by rw [slowConsumers, hdist]
    rw [hslow] at hturns
    obtain ⟨turns, hrun, hevents⟩ := hturns
    exact .idle rfl hrun hevents

/-- In every run, the states that the actor has been in follow each other by its turns. -/
theorem turned_of_run {capacity : Nat} {ls : List Label} {s : System}
    (hrun : (lts capacity).Run ls s) : Turned s :=
  Lts.Run.invariant (.idle rfl .nil rfl) (fun _ _ _ _ _ h hs => turned_step h hs) hrun

/-- **The system contains the actor.** At any moment of any run, what the actor holds is
what a run of the actor alone leads to, with the same commands and with the slow consumers
found so far. The commands it has taken are disciplined. -/
theorem exists_turns {capacity : Nat} {ls : List Label} {s : System}
    (hrun : (lts capacity).Run ls s) :
    ∃ turns, RoutingActor.system.Run turns (s.actor.removeSlowConsumers s.slowConsumers) ∧
      turns.map Turn.event = s.processed ∧ Event.Disciplined s.processed := by
  obtain ⟨turns, hturns, hevents⟩ := (turned_of_run hrun).exists_turns
  exact ⟨turns, hturns, hevents, (wired_of_run hrun).disciplined.of_append⟩

end System

end RustBond
