import RustBond.Proofs.Server.Stream

/-!
# `RustBond.Proofs.Server.InSync`: a subscriber's stream leads to the actor's routes

A change of the routes of a VNI reaches a subscriber on two ways. The actor's response to a
subscribe command is written straight to the stream. Later changes wait in the peer's
channel and are written when `handle_peer` drains it. `WillHold` replays what is on the way
of one session in the order in which the client will see it, and `InSync` states that with
what the distribution in progress adds, this replay leads to the actor's routes.

`inSync_step` shows that every step keeps a session in sync, provided that no `try_send`
finds a full channel, and that nothing about the VNI is on the way when the actor takes a
subscribe command of a session that is not subscribed (`ClearAtSubscribe`). A repeated
subscribe command needs no such condition: its response may overtake the messages in the
channel, because it inserts what they lead to (`EditLog.after_snapshot`).

A route whose most recent update came from the session itself is left out. The server does
not tell a peer about its own updates.
-/

set_option autoImplicit false

namespace RustBond

open EditLog (After)

/-- The client will hold `r` once it has handled everything that is written, or waits in
`handle_subscribe` or in the channel to be written. -/
def Session.WillHold (x : Session) (r : RouteKey) : Prop :=
  After r (r ∈ x.client.receivedRoutes) (edits (x.toClient ++ x.unwritten ++ x.rx))

/-- The client has received no route of the VNI, and no update on it is on the way. -/
def Session.Clear (x : Session) (v : Vni) : Prop :=
  x.client.receivedRoutes.getRoutesByVni v = 0 ∧ ∀ e ∈ edits (x.toClient ++ x.rx), e.target.1 ≠ v

instance (x : Session) (v : Vni) : Decidable (x.Clear v) :=
  inferInstanceAs (Decidable (_ ∧ _))

namespace Session

/-- A client that is clear of a VNI holds no route of it. -/
theorem Clear.not_mem {x : Session} {v : Vni} (h : x.Clear v) {r : RouteKey} (hv : r.1 = v) :
    r ∉ x.client.receivedRoutes := by
  intro hmem
  have hroute : (⟨r.2.1, r.2.2⟩ : Route) ∈ x.client.receivedRoutes.getRoutesByVni v := by
    rw [RouteTable.mem_getRoutesByVni, ← hv]
    exact hmem
  rw [h.1] at hroute
  exact absurd hroute (Multiset.notMem_zero _)

/-- An action of an open session keeps what its client will hold, except for the
`Unsubscribe` command, which drops the routes of its VNI. -/
theorem willHold_act {x x' : Session} {c : SessionId} {action : SessionAction}
    {cmds : List RoutingCommand} (h : x.act c action = some (x', cmds)) {r : RouteKey}
    (hopen : x'.phase ≠ .closed) (hkeep : action ≠ .command (.unsubscribe r.1)) :
    x'.WillHold r ↔ x.WillHold r := by
  show After r _ (edits x'.way) ↔ After r _ (edits x.way)
  cases passes_of_act h with
  | @commanded cmd hclient hsame =>
    have hreceived : (r ∈ x'.client.receivedRoutes) = (r ∈ x.client.receivedRoutes) := by
      have hcmd : cmd ≠ .unsubscribe r.1 := fun heq => hkeep (by rw [heq])
      rw [hclient, Connection.mem_handleCommand]
      simp [hcmd]
    rw [hreceived, hsame]
  | @delivered msg hmsg hclient hsplit =>
    have hreceived : (r ∈ x'.client.receivedRoutes)
        = After r (r ∈ x.client.receivedRoutes) (edits [msg]) := by
      rw [hclient]
      exact propext (Connection.mem_handleMessage _ _ _)
    -- The message moves from the way into the table.
    rw [hreceived, hsplit, EditLog.after_append]
  | moved _ hclient hsame => rw [hclient, hsame]
  | closed hphase => exact absurd hphase hopen

/-- An unsubscribe message stays on its way to the actor until it is the actor's command. -/
theorem unsubscribe_act {x x' : Session} {c : SessionId} {action : SessionAction}
    {cmds : List RoutingCommand} (h : x.act c action = some (x', cmds)) {v : Vni}
    (hgoing : .unsubscribe v ∈ x.toServer ∨ action = .command (.unsubscribe v)) :
    .unsubscribe v ∈ x'.toServer ∨ .unsubscribe x.addr v ∈ cmds := by
  rcases hgoing with hmem | rfl
  · cases effect_of_act h with
    | wrote hmsg haddr hphase htoServer hsent =>
      exact Or.inl (htoServer ▸ List.mem_append_left _ hmem)
    | moved haddr hphase htoServer hsent => exact Or.inl (htoServer ▸ hmem)
    | left haddr hstopped hphase htoServer hsent => exact Or.inl (htoServer ▸ hmem)
    | @took msg rest htoServer haddr hrunning hphase htoServer' hsent =>
      rw [htoServer, List.mem_cons] at hmem
      -- The message that is read becomes a command.
      rcases hmem with rfl | hrest
      · exact Or.inr List.mem_cons_self
      · exact Or.inl (htoServer' ▸ hrest)
  · -- The client writes the message with this action.
    simp only [act, Option.map_eq_some_iff, Prod.mk.injEq] at h
    obtain ⟨msg, hmsg, rfl, -⟩ := h
    cases hmsg
    exact Or.inl (List.mem_append_right _ List.mem_cons_self)

end Session

namespace System

/-- No `try_send` of the step finds a full channel. -/
def NoOverflow (capacity : Nat) (s : System) (l : Label) : Prop :=
  match l with
  | .trySend addr => ¬ s.Full capacity addr
  | _ => True

instance (capacity : Nat) (s : System) (addr : SocketAddr) : Decidable (s.Full capacity addr) :=
  match h : s.channel addr with
  | none => isFalse fun ⟨_, _, hsome, _⟩ => by rw [h] at hsome; cases hsome
  | some (tx, x) =>
    decidable_of_iff (x.phase ≠ .closed ∧ capacity ≤ x.rx.length) (by simp [Full, h])

instance (capacity : Nat) (s : System) : (l : Label) → Decidable (s.NoOverflow capacity l)
  | .trySend addr => inferInstanceAs (Decidable (¬ s.Full capacity addr))
  | .accept _ _ _ => inferInstanceAs (Decidable True)
  | .session _ _ => inferInstanceAs (Decidable True)
  | .recv _ _ => inferInstanceAs (Decidable True)
  | .finish => inferInstanceAs (Decidable True)

/-- As long as no channel has been full, the actor's channels and subscriptions are what its
history says. -/
structure Lossless (s : System) : Prop where
  peers : ∀ a, s.actor.peers.lookup a = Event.holder s.processed a
  subscribers : ∀ a v, decide (a ∈ s.actor.subscribers v) = Event.subscriber s.processed a v
  slow : s.slowConsumers = ∅

/-- A step that finds no full channel loses nothing. -/
theorem lossless_step {capacity : Nat} {s s' : System} {l : Label} (hw : Wired s)
    (h : Lossless s) (hroom : s.NoOverflow capacity l)
    (hs : (lts capacity).step s l = some s') : Lossless s' := by
  cases l with
  | accept addr subscriptions announced =>
    obtain ⟨-, x, -, -, -, -, -, -, -, rfl⟩ := accept_eq_some hs
    exact ⟨h.peers, h.subscribers, h.slow⟩
  | session c action =>
    obtain ⟨x, x', cmds, -, -, rfl⟩ := sessionStep_eq_some hs
    exact ⟨h.peers, h.subscribers, h.slow⟩
  | recv owned routes =>
    obtain ⟨c, cmd, commands, sessions, -, hcommands, -, -, rfl⟩ := recv_eq_some hs
    have hallowed : Event.Allowed s.processed (c, cmd) := hw.allowed hcommands
    refine ⟨?_, ?_, rfl⟩
    · intro a
      show (s.actor.handle cmd owned).actor.peers.lookup a
        = Event.holder (s.processed ++ [(c, cmd)]) a
      rw [Event.holder_snoc, ← h.peers a]
      refine RoutingActor.lookup_peers_handle (e := (c, cmd)) owned ?_ a
      rintro addr tx rfl
      exact hallowed.2.1
    · intro a v
      show decide (a ∈ (s.actor.handle cmd owned).actor.subscribers v)
        = Event.subscriber (s.processed ++ [(c, cmd)]) a v
      rw [Event.subscriber_snoc, ← h.subscribers a v]
      exact RoutingActor.mem_subscribers_handle s.actor (c, cmd) owned a v
  | trySend addr =>
    obtain ⟨msg, targets, rest, slow, hdist, -, ⟨-, rfl⟩ | ⟨tx, x, -, -, -, rfl⟩ | ⟨hfull, -⟩⟩ :=
      trySend_eq_some hs
    · have hslow : slow = ∅ := by simpa [slowConsumers, hdist] using h.slow
      exact ⟨h.peers, h.subscribers, hslow⟩
    · have hslow : slow = ∅ := by simpa [slowConsumers, hdist] using h.slow
      exact ⟨h.peers, h.subscribers, hslow⟩
    · -- This is the only place where the actor would get a slow consumer.
      exact absurd hfull hroom
  | finish =>
    obtain ⟨slow, hdist, rfl⟩ := finish_eq_some hs
    have hslow : slow = ∅ := by simpa [slowConsumers, hdist] using h.slow
    subst hslow
    rw [RoutingActor.removeSlowConsumers_empty]
    exact ⟨h.peers, h.subscribers, rfl⟩

/-- In a run without full channels nothing is lost. -/
theorem lossless_of_run {capacity : Nat} {ls : List Label} {s : System}
    (hrun : (lts capacity).Run ls s)
    (hroom : (lts capacity).Throughout (NoOverflow capacity) ls) : Lossless s := by
  refine Lts.Run.invariant_of_throughout ?_
    (fun _ _ _ _ hr h hok hs => lossless_step (wired_of_run hr) h hok hs) hrun hroom
  exact ⟨fun a => Finmap.lookup_empty a, fun a v => by
    show decide (a ∈ RoutingActor.new.subscribers v) = false
    simp [RoutingActor.subscribers, RoutingActor.new], rfl⟩

/-- An `Unsubscribe` of the session is on its way to the actor. -/
def Unsubscribing (s : System) (c : SessionId) (x : Session) (v : Vni) : Prop :=
  .unsubscribe v ∈ x.toServer ∨ (c, .unsubscribe x.addr v) ∈ s.commands

/-- An open session that is subscribed to `v` and has not asked to leave it is on the way to
the actor's routes of `v`, as far as the most recent update is not its own. -/
def InSync (s : System) (c : SessionId) (v : Vni) : Prop :=
  ∀ x, s.sessions[c]? = some x → x.phase ≠ .closed → Event.subscribed s.processed c v = true →
    ¬ s.Unsubscribing c x v → ∀ r : RouteKey, r.1 = v →
    (∀ action, Event.latest s.processed r ≠ some (c, action)) →
    (After r (x.WillHold r) (edits (s.toCome c x)) ↔ r ∈ s.actor.routes)

/-- When the actor takes a subscribe command for `v` of the session `c`, which is not
subscribed to `v`, nothing about `v` is at the client or on its way. -/
def ClearAtSubscribe (c : SessionId) (v : Vni) (s : System) (l : Label) : Prop :=
  l.isRecv = true → ∀ e ∈ s.commands.head?, e.subscribes c v = true →
    Event.subscribed s.processed c v = false → ∀ x ∈ s.sessions[c]?, x.Clear v

instance (c : SessionId) (v : Vni) (s : System) (l : Label) :
    Decidable (s.ClearAtSubscribe c v l) :=
  inferInstanceAs (Decidable (_ → _))

/-! ### The step of the invariant -/

/-- A session's own step keeps it in sync. -/
theorem inSync_sessionStep {s s' : System} {c c' : SessionId} {v : Vni} {action : SessionAction}
    (h : InSync s c v) (hs : s.sessionStep c' action = some s') : InSync s' c v := by
  obtain ⟨x, x', cmds, hx, hact, rfl⟩ := sessionStep_eq_some hs
  intro y hy hopen hsub hunsub r hv hother
  rcases of_getElem?_set hx hy with ⟨rfl, rfl⟩ | ⟨-, hy'⟩
  · have heffect := Session.effect_of_act hact
    have haddr : x'.addr = x.addr := heffect.addr_eq
    have hgoing : ¬ (.unsubscribe v ∈ x.toServer ∨ action = .command (.unsubscribe v)) := by
      intro hgoing
      rcases Session.unsubscribe_act hact hgoing with hmem | hmem
      · exact hunsub (Or.inl hmem)
      · refine hunsub (Or.inr (List.mem_append_right _ ?_))
        rw [haddr]
        exact List.mem_map.mpr ⟨_, hmem, rfl⟩
    obtain ⟨hnot, hkeep⟩ := not_or.mp hgoing
    -- The session was not leaving the VNI before either.
    have hbefore : ¬ s.Unsubscribing c' x v := by
      rintro (hmem | hmem)
      · exact hnot hmem
      · exact hunsub (Or.inr (List.mem_append_left _ (haddr ▸ hmem)))
    have hsync := h x hx (heffect.open_of_open hopen) hsub hbefore r hv hother
    have hwill : x'.WillHold r = x.WillHold r :=
      propext (Session.willHold_act hact hopen (hv ▸ hkeep))
    have hcome : toCome { s with
        commands := s.commands ++ cmds.map fun cmd => (c', cmd)
        sessions := s.sessions.set c' x' } c' x' = s.toCome c' x := toCome_congr rfl rfl haddr
    rw [hwill, hcome]
    exact hsync
  · have hunsub' : ¬ s.Unsubscribing c y v := by
      rintro (hmem | hmem)
      · exact hunsub (Or.inl hmem)
      · exact hunsub (Or.inr (List.mem_append_left _ hmem))
    exact h y hy' hopen hsub hunsub' r hv hother

/-- A `try_send` moves a message from the distribution into the channel. -/
theorem inSync_trySend {capacity : Nat} {s s' : System} {c : SessionId} {v : Vni}
    {addr : SocketAddr} (hw : Wired s) (hl : Lossless s) (h : InSync s c v)
    (hroom : ¬ s.Full capacity addr) (hs : s.trySend capacity addr = some s') :
    InSync s' c v := by
  obtain ⟨msg, targets, rest, slow, hdist, hmem, hcases⟩ := trySend_eq_some hs
  -- What is still to come to an open session that is not at the other end of the channel.
  have hskip : ∀ s'' : System, ∀ y : Session, s''.actor = s.actor →
      s''.distribution = some ⟨Distribution.consume msg (targets.erase addr) rest, slow⟩ →
      (s.actor.peers.lookup y.addr = some c → y.addr ≠ addr) →
      s''.toCome c y = s.toCome c y := by
    intro s'' y hactor hdist' hne
    simp only [toCome, hdist, hdist', hactor]
    split
    · rename_i hpeer
      rw [offeredTo_consume, if_neg (hne hpeer)]
    · rfl
  intro y hy hopen hsub hunsub r hv hother
  rcases hcases with ⟨hpassed, rfl⟩ | ⟨tx, x, hchannel, hopenx, -, rfl⟩ | ⟨hfull, -⟩
  · have hsame : toCome { s with
        distribution := some ⟨Distribution.consume msg (targets.erase addr) rest, slow⟩ } c y
        = s.toCome c y := by
      refine hskip _ y rfl rfl ?_
      -- An open session with a channel is not passed over.
      rintro hpeer rfl
      have hy' : s.sessions[c]? = some y := hy
      have hchannel : s.channel y.addr = some (c, y) := by simp [channel, hpeer, hy']
      exact hopen (hpassed c y hchannel)
    rw [hsame]
    exact h y hy hopen hsub hunsub r hv hother
  · obtain ⟨hpeer, hx⟩ := channel_eq_some hchannel
    rcases of_getElem?_set hx hy with ⟨rfl, rfl⟩ | ⟨hne, hy'⟩
    · have hsync := h x hx hopenx hsub hunsub r hv hother
      -- The channel's address is the session's own.
      have haddr : addr = x.addr := by
        have hsent := Event.exists_mem_of_subscribed hsub
        have hholder := holder_of_open hw hx hopenx hsent
        rw [hl.peers] at hpeer
        exact Event.holder_injective hw.disciplined.of_append hpeer hholder
      subst haddr
      have hbefore : s.toCome tx x = msg :: RoutingActor.offeredTo x.addr rest := by
        simp [toCome, hdist, hpeer, RoutingActor.offeredTo, hmem]
      rw [hbefore, edits_cons, EditLog.after_append] at hsync
      have hafter : toCome { s with
          distribution := some ⟨Distribution.consume msg (targets.erase x.addr) rest, slow⟩
          sessions := s.sessions.set tx { x with rx := x.rx ++ [msg] } } tx
            { x with rx := x.rx ++ [msg] } = RoutingActor.offeredTo x.addr rest := by
        simp [toCome, hpeer, offeredTo_consume]
      have hwill : Session.WillHold { x with rx := x.rx ++ [msg] } r
          = After r (x.WillHold r) (edits [msg]) := by
        show After r _ (edits (x.toClient ++ x.unwritten ++ (x.rx ++ [msg]))) = _
        rw [← List.append_assoc, edits_append, EditLog.after_append]
        rfl
      rw [hafter, hwill]
      exact hsync
    · have hsame : toCome { s with
          distribution := some ⟨Distribution.consume msg (targets.erase addr) rest, slow⟩
          sessions := s.sessions.set tx { x with rx := x.rx ++ [msg] } } c y
          = s.toCome c y := by
        refine hskip _ y rfl rfl ?_
        rintro hpeer' rfl
        rw [hpeer] at hpeer'
        exact hne (Option.some.inj hpeer')
      rw [hsame]
      exact h y hy' hopen hsub hunsub r hv hother
  · exact absurd hfull hroom

/-- The actor's response puts a session in sync, or keeps it. -/
theorem inSync_answer {s : System} {c : SessionId} {v vni : Vni} {x : Session}
    (addr : SocketAddr) {routes : List (Destination × NextHop)}
    (hroutes : (routes : Multiset (Destination × NextHop)) = (s.actor.handleSubscribe addr vni).2)
    (hphase : x.phase = .subscribing vni none) {r : RouteKey} (hv : r.1 = v)
    (hsync : Event.subscribed s.processed c v = true → (x.WillHold r ↔ r ∈ s.actor.routes))
    (hclear : vni = v → Event.subscribed s.processed c v = false → x.Clear v)
    (hsub : vni ≠ v → Event.subscribed s.processed c v = true) :
    Session.WillHold { x with phase := .subscribing vni (some routes) } r
      ↔ r ∈ s.actor.routes := by
  have hwill : Session.WillHold { x with phase := .subscribing vni (some routes) } r
      = After r (r ∈ x.client.receivedRoutes) (edits x.toClient
          ++ (routes.map fun route => (vni, route.1, route.2)).map .insert ++ edits x.rx) := by
    show After r _ (edits (x.toClient ++ snapshotMessages vni routes ++ x.rx)) = _
    rw [edits_append, edits_append, edits_snapshotMessages]
  have hwill' : x.WillHold r
      = After r (r ∈ x.client.receivedRoutes) (edits x.toClient ++ edits x.rx) := by
    show After r _ (edits (x.toClient ++ x.unwritten ++ x.rx)) = _
    have hnone : x.unwritten = [] := by simp [Session.unwritten, hphase]
    rw [hnone, List.append_nil, edits_append]
  rw [hwill]
  by_cases hvni : vni = v
  · -- The copy holds exactly the stored routes of the VNI.
    have hcopy : r ∈ (routes.map fun route => (vni, route.1, route.2)) ↔ r ∈ s.actor.routes := by
      have hmem : ∀ route : Destination × NextHop,
          route ∈ routes ↔ (vni, route.1, route.2) ∈ s.actor.routes := by
        intro route
        rw [← RoutingActor.mem_handleSubscribe_snd s.actor addr vni, ← hroutes, Multiset.mem_coe]
      obtain ⟨v', destination, nextHop⟩ := r
      have hv' : v' = vni := hv.trans hvni.symm
      subst hv'
      rw [← hmem (destination, nextHop), List.mem_map]
      constructor
      · rintro ⟨route, hroute, heq⟩
        cases heq
        exact hroute
      · intro hroute
        exact ⟨_, hroute, rfl⟩
    cases hbefore : Event.subscribed s.processed c v with
    | true =>
      have hlog := hsync hbefore
      rw [hwill'] at hlog
      exact EditLog.after_snapshot hlog hcopy
    | false =>
      have hclear' := hclear hvni hbefore
      have huntouched : ∀ e ∈ edits x.toClient ++ edits x.rx, e.target ≠ r := by
        intro e hmem heq
        rw [← edits_append] at hmem
        exact hclear'.2 e hmem (by rw [heq, hv])
      rw [EditLog.after_copy (hclear'.not_mem hv)
        (fun e hmem => huntouched e (List.mem_append_left _ hmem))
        (fun e hmem => huntouched e (List.mem_append_right _ hmem))]
      exact hcopy
  · -- The response is about another VNI.
    have hskip : ∀ e ∈ (routes.map fun route => (vni, route.1, route.2)).map Edit.insert,
        e.target ≠ r := by
      intro e hmem heq
      obtain ⟨k, hk, rfl⟩ := List.mem_map.mp hmem
      obtain ⟨route, -, rfl⟩ := List.mem_map.mp hk
      have hvni' : vni = r.1 := congrArg Prod.fst heq
      exact hvni (hvni'.trans hv)
    rw [EditLog.after_skip hskip, ← hwill']
    exact hsync (hsub hvni)

/-- Between two commands nothing is to come, so what a session in sync will hold is what the
actor holds. -/
theorem InSync.willHold_iff {s : System} {c : SessionId} {v : Vni} (h : InSync s c v)
    (hidle : s.distribution = none) {x : Session} (hx : s.sessions[c]? = some x)
    (hopen : x.phase ≠ .closed) (hsub : Event.subscribed s.processed c v = true)
    (hunsub : ¬ s.Unsubscribing c x v) {r : RouteKey} (hv : r.1 = v)
    (hother : ∀ action, Event.latest s.processed r ≠ some (c, action)) :
    x.WillHold r ↔ r ∈ s.actor.routes := by
  have hsync := h x hx hopen hsub hunsub r hv hother
  have hnone : s.toCome c x = [] := by simp [toCome, hidle]
  rwa [hnone, edits_nil, EditLog.after_nil] at hsync

/-- The actor takes a command other than the session's unsubscribe. -/
theorem not_unsubscribing_before {s s' : System} {c : SessionId} {x : Session} {v : Vni}
    {e : Event} (hcommands : s.commands = e :: s'.commands)
    (hhead : e ≠ (c, .unsubscribe x.addr v)) (h : ¬ s'.Unsubscribing c x v) :
    ¬ s.Unsubscribing c x v := by
  rintro (hmem | hmem)
  · exact h (Or.inl hmem)
  · rw [hcommands, List.mem_cons] at hmem
    rcases hmem with heq | htail
    · exact hhead heq.symm
    · exact h (Or.inr htail)

/-- A subscriber that keeps its address is told what the command of another peer does to a
route. -/
theorem told_of_subscribed {s : System} {e : Event} {owned : List RouteKey} {c : SessionId}
    {a : SocketAddr} {r : RouteKey} {start : Prop} (hw : Wired s) (hl : Lossless s)
    (hallowed : Event.Allowed s.processed e)
    (howned : (owned : Multiset RouteKey) = s.actor.collectedRoutes e.2)
    (hholder : Event.holder s.processed a = some c)
    (hholder' : Event.holder (s.processed ++ [e]) a = some c)
    (hsub : Event.subscribed s.processed c r.1 = true)
    (hother : ∀ action, Event.latest (s.processed ++ [e]) r ≠ some (c, action))
    (hbelief : (∀ addr action, e.2 ≠ .update addr action r.1 r.2.1 r.2.2) →
      (start ↔ r ∈ s.actor.routes)) :
    After r start (edits (RoutingActor.offeredTo a (s.actor.handle e.2 owned).deliveries))
      ↔ r ∈ (s.actor.handle e.2 owned).actor.routes := by
  have hmember : a ∈ s.actor.subscribers r.1 := by
    have hsubscriber : Event.subscriber s.processed a r.1 = true :=
      (Event.subscriber_iff hw.disciplined.of_append _ _).mpr ⟨c, hholder, hsub⟩
    rw [← hl.subscribers, decide_eq_true_iff] at hsubscriber
    exact hsubscriber
  obtain ⟨c₀, cmd⟩ := e
  have hleaves : cmd ≠ .peerDisconnected a := by
    rintro rfl
    rw [Event.holder_snoc] at hholder'
    simp [Event.holderStep] at hholder'
  -- An update of its own would be the most recent one.
  have hown : ∀ action, cmd ≠ .update a action r.1 r.2.1 r.2.2 := by
    rintro action rfl
    have hsender : Event.holder s.processed a = some c₀ := hallowed
    rw [hholder] at hsender
    cases hsender
    refine hother action ?_
    rw [Event.latest_snoc]
    simp [Event.latestStep]
  exact RoutingActor.after_offeredTo_handle (e := (c₀, cmd)) howned hmember hleaves hown start
    hbelief

/-- The session's own subscribe command puts it in sync, or keeps it. -/
theorem inSync_subscribe {s s' : System} {c : SessionId} {v vni : Vni} {addr : SocketAddr}
    {owned : List RouteKey} {routes : List (Destination × NextHop)} {x : Session}
    (ha : Awaiting s) (h : InSync s c v)
    (hclear : s.ClearAtSubscribe c v (.recv owned routes)) (hidle : s.distribution = none)
    (hcommands : s.commands = (c, .subscribe addr vni c) :: s'.commands)
    (hx : s.sessions[c]? = some x)
    (hroutes : (routes : Multiset (Destination × NextHop)) = (s.actor.handleSubscribe addr vni).2)
    (hsub : Event.subscribed (s.processed ++ [(c, .subscribe addr vni c)]) c v = true)
    (hunsub : ¬ s'.Unsubscribing c x v) {r : RouteKey} (hv : r.1 = v)
    (hother : ∀ action,
      Event.latest (s.processed ++ [(c, .subscribe addr vni c)]) r ≠ some (c, action)) :
    (x.receive routes).WillHold r ↔ r ∈ s.actor.routes := by
  have hphase : x.phase = .subscribing vni none := subscribing_of_head ha hx hcommands
  have hreceive : x.receive routes = { x with phase := .subscribing vni (some routes) } := by
    unfold Session.receive
    rw [hphase]
  have hlatest : ∀ action, Event.latest s.processed r ≠ some (c, action) := by
    intro action
    rw [← Event.latest_snoc_of_ne (e := (c, .subscribe addr vni c))
      (fun addr' action' heq => by cases heq)]
    exact hother action
  rw [hreceive]
  -- Either the session was in sync already, or nothing on the VNI is on its way.
  refine inSync_answer (c := c) addr hroutes hphase hv ?_ ?_ ?_
  · intro hbefore
    have hunsub' : ¬ s.Unsubscribing c x v :=
      not_unsubscribing_before hcommands (fun heq => by cases heq) hunsub
    exact h.willHold_iff hidle hx (by simp [hphase]) hbefore hunsub' hv hlatest
  · intro hvni hbefore
    refine hclear rfl (c, .subscribe addr vni c) (by rw [hcommands]; rfl) ?_ hbefore x hx
    simp [Event.subscribes, hvni]
  · intro hvni
    refine (Event.subscribed_of_snoc hsub ?_).1
    intro addr' tx heq
    cases heq
    exact hvni rfl

/-- A command that the actor takes keeps a session in sync. -/
theorem inSync_recv {s s' : System} {c : SessionId} {v : Vni} {owned : List RouteKey}
    {routes : List (Destination × NextHop)} (hw : Wired s) (hw' : Wired s') (ha : Awaiting s)
    (hl : Lossless s) (hl' : Lossless s') (h : InSync s c v)
    (hclear : s.ClearAtSubscribe c v (.recv owned routes))
    (hs : s.recv owned routes = some s') : InSync s' c v := by
  obtain ⟨c₀, cmd, commands, sessions, hidle, hcommands, howned, hanswer, rfl⟩ := recv_eq_some hs
  have hallowed : Event.Allowed s.processed (c₀, cmd) := hw.allowed hcommands
  intro y hy hopen hsub hunsub r hv hother
  have hy' : sessions[c]? = some y := hy
  have hsub' : Event.subscribed (s.processed ++ [(c₀, cmd)]) c v = true := hsub
  have hother' : ∀ action, Event.latest (s.processed ++ [(c₀, cmd)]) r ≠ some (c, action) := hother
  rcases getElem?_answer hanswer c with ⟨collected, hreply, hroutes, heq⟩ | ⟨hreply, heq⟩
  · -- The command is a subscribe command of the session itself.
    rw [heq, Option.map_eq_some_iff] at hy'
    obtain ⟨x, hx, rfl⟩ := hy'
    cases cmd with
    | subscribe addr vni responseTx =>
      cases hreply
      have htx : c = c₀ := hallowed.2
      subst htx
      have hunsub' : ¬ Unsubscribing (System.mk (s.actor.handleSubscribe addr vni).1
          (some ⟨[], ∅⟩) commands (s.processed ++ [(c, .subscribe addr vni c)])
          sessions) c x v := by
        rcases receive_cases x routes with hreceive | ⟨vni', -, hreceive⟩
        · rwa [hreceive] at hunsub
        · rwa [hreceive] at hunsub
      have hdone : toCome (System.mk (s.actor.handleSubscribe addr vni).1 (some ⟨[], ∅⟩) commands
          (s.processed ++ [(c, .subscribe addr vni c)]) sessions) c (x.receive routes) = [] := by
        simp [toCome, RoutingActor.offeredTo]
      show After r _ (edits (toCome (System.mk (s.actor.handleSubscribe addr vni).1 (some ⟨[], ∅⟩)
        commands (s.processed ++ [(c, .subscribe addr vni c)]) sessions) c
          (x.receive routes))) ↔ r ∈ s.actor.routes
      rw [hdone]
      exact inSync_subscribe ha h hclear hidle hcommands hx hroutes hsub' hunsub' hv hother'
    | peerConnected | peerDisconnected | unsubscribe | update | getStats => cases hreply
  · rw [heq] at hy'
    -- The command does not subscribe the session, which was subscribed before.
    have hnot : ∀ addr tx, (c₀, cmd) ≠ (c, .subscribe addr v tx) := by
      intro addr tx heq'
      cases heq'
      have htx : tx = c := hallowed.2
      subst htx
      exact hreply (s.actor.handleSubscribe addr v).2 rfl
    obtain ⟨hbefore, hstays⟩ := Event.subscribed_of_snoc hsub' hnot
    have hsent := Event.exists_mem_of_subscribed hbefore
    have hholder : Event.holder s.processed y.addr = some c := holder_of_open hw hy' hopen hsent
    have hholder' : Event.holder (s.processed ++ [(c₀, cmd)]) y.addr = some c := by
      refine holder_of_open hw' hy hopen ?_
      obtain ⟨e, hmem, he⟩ := hsent
      exact ⟨e, List.mem_append_left _ hmem, he⟩
    have hunsub' : ¬ s.Unsubscribing c y v :=
      not_unsubscribing_before hcommands (hstays y.addr) hunsub
    -- What the session believes matters if the command is no update on the route.
    have hbelief : (∀ addr action, cmd ≠ .update addr action r.1 r.2.1 r.2.2) →
        (y.WillHold r ↔ r ∈ s.actor.routes) := by
      intro hne
      refine h.willHold_iff hidle hy' hopen hbefore hunsub' hv ?_
      intro action
      rw [← Event.latest_snoc_of_ne (e := (c₀, cmd)) hne]
      exact hother' action
    have hpeer : (s.actor.handle cmd owned).actor.peers.lookup y.addr = some c :=
      (hl'.peers y.addr).trans hholder'
    have hcome : toCome (System.mk (s.actor.handle cmd owned).actor
        (some ⟨(s.actor.handle cmd owned).deliveries.filter fun d => d.targets ≠ ∅, ∅⟩) commands
        (s.processed ++ [(c₀, cmd)]) sessions) c y
        = RoutingActor.offeredTo y.addr (s.actor.handle cmd owned).deliveries := by
      simp only [toCome, hpeer, if_true, RoutingActor.offeredTo_filter]
    rw [hcome]
    exact told_of_subscribed hw hl hallowed howned hholder hholder' (hv ▸ hbefore) hother' hbelief

/-- Every step that overflows no channel and subscribes a session only when nothing about
the VNI is on its way keeps the session in sync. -/
theorem inSync_step {capacity : Nat} {s s' : System} {l : Label} {c : SessionId} {v : Vni}
    (hw : Wired s) (ha : Awaiting s) (hl : Lossless s) (h : InSync s c v)
    (hroom : s.NoOverflow capacity l) (hclear : s.ClearAtSubscribe c v l)
    (hs : (lts capacity).step s l = some s') : InSync s' c v := by
  have hw' : Wired s' := wired_step hw hs
  have hl' : Lossless s' := lossless_step hw hl hroom hs
  cases l with
  | accept addr subscriptions announced =>
    obtain ⟨-, x, -, -, -, -, -, -, -, rfl⟩ := accept_eq_some hs
    intro y hy hopen hsub hunsub r hv hother
    rcases getElem?_concat_eq_some hy with hy' | ⟨hlast, -⟩
    · refine h y hy' hopen hsub ?_ r hv hother
      rintro (hmem | hmem)
      · exact hunsub (Or.inl hmem)
      · exact hunsub (Or.inr (List.mem_append_left _ hmem))
    · -- The new session has sent nothing that the actor could have taken.
      obtain ⟨e, hmem, he⟩ := Event.exists_mem_of_subscribed hsub
      have hknown : e.1 < s.sessions.length := hw.known e (List.mem_append_left _ hmem)
      rw [he, hlast] at hknown
      exact absurd hknown (Nat.lt_irrefl _)
  | session c' action => exact inSync_sessionStep h hs
  | recv owned routes => exact inSync_recv hw hw' ha hl hl' h hclear hs
  | trySend addr => exact inSync_trySend hw hl h hroom hs
  | finish =>
    obtain ⟨slow, hdist, rfl⟩ := finish_eq_some hs
    intro y hy hopen hsub hunsub r hv hother
    have hsync := h y hy hopen hsub hunsub r hv hother
    have hnone : s.toCome c y = [] := by simp [toCome, hdist, RoutingActor.offeredTo]
    rw [hnone] at hsync
    exact hsync

/-- In a run without full channels, a session that is clear of the VNI whenever it subscribes is
in sync. -/
theorem inSync_of_run {capacity : Nat} {ls : List Label} {s : System}
    (hrun : (lts capacity).Run ls s)
    (hroom : (lts capacity).Throughout (NoOverflow capacity) ls) {c : SessionId} {v : Vni}
    (hclear : (lts capacity).Throughout (ClearAtSubscribe c v) ls) : InSync s c v := by
  refine Lts.Run.invariant_of_throughout (P := fun s => InSync s c v) ?_ ?_ hrun
    ((hroom.and hclear).and (hroom.always_before lossless_of_run))
  · intro x hx
    cases hx
  · rintro ls s l s' hr h ⟨⟨hroom', hclear'⟩, hl⟩ hs
    exact inSync_step (wired_of_run hr) (awaiting_of_run hr) hl h hroom' hclear' hs

end System

end RustBond
