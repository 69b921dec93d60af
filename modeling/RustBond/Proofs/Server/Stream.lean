import RustBond.Proofs.Server.Sessions

/-!
# `RustBond.Proofs.Server.Stream`: what is on the way to a client

The messages on the way to the client of a session are those on the stream, those that
`handle_subscribe` or `handle_peer` still has to write, and those that the distribution in
progress still brings (`toCome`). `freeOf_step` is the rule for statements that some kind of
edit is not among them: it is enough to look at what the actor produces when it takes a
command, in its response (`hsnap`) and in its deliveries (`htold`).

`Bounded` holds in every run, full channels or not: the actor has a channel only for the
holder of an address, and only subscribers in its subscriptions.
-/

set_option autoImplicit false

namespace RustBond

/-- A snapshot inserts the routes it lists. -/
theorem edits_snapshotMessages (vni : Vni) (routes : List (Destination × NextHop)) :
    edits (snapshotMessages vni routes)
      = (routes.map fun route => (vni, route.1, route.2)).map .insert := by
  rw [List.map_map]
  exact edits_map (fun _ => rfl) routes

namespace RoutingActor

/-- A peer is offered updates of the VNIs that it is subscribed to. -/
theorem mem_subscribers_of_offeredTo {s : RoutingActor} {e : Event} {owned : List RouteKey}
    {a : SocketAddr} {edit : Edit RouteKey}
    (hedit : edit ∈ edits (offeredTo a (s.handle e.2 owned).deliveries)) :
    a ∈ s.subscribers edit.target.1 := by
  obtain ⟨msg, hmsg, hkind⟩ := mem_edits.mp hedit
  obtain ⟨c, cmd⟩ := e
  cases cmd with
  | peerConnected | subscribe | unsubscribe | getStats => cases hmsg
  | peerDisconnected addr =>
    have hmsg' : msg ∈ offeredTo a ((s.unregister addr).withdrawOwned owned).2 := hmsg
    rw [offeredTo_withdrawOwned, List.mem_map] at hmsg'
    obtain ⟨r, hr, rfl⟩ := hmsg'
    cases hkind
    -- A subscriber that is left when the peer is gone was one before.
    have hmember := (List.mem_filter.mp hr).2
    rw [decide_eq_true_iff, mem_subscribers_unregister] at hmember
    exact hmember.1
  | update fromAddr action vni destination nextHop =>
    have hmsg' : msg ∈ offeredTo a
        (s.handleUpdate fromAddr action vni destination nextHop).2 := hmsg
    rw [offeredTo_handleUpdate] at hmsg'
    split at hmsg'
    · rename_i hmember
      rw [List.mem_singleton] at hmsg'
      subst hmsg'
      rw [Message.target_of_update hkind]
      exact hmember.1
    · cases hmsg'

end RoutingActor

namespace System

/-- The messages that the distribution in progress still brings to the session `c`. -/
def toCome (s : System) (c : SessionId) (x : Session) : List Message :=
  match s.distribution with
  | none => []
  | some d =>
    if s.actor.peers.lookup x.addr = some c then RoutingActor.offeredTo x.addr d.deliveries
    else []

/-- Everything on the way of the session has arrived, and the actor is between two
commands. -/
def Settled (s : System) (x : Session) : Prop :=
  s.distribution = none ∧ x.phase = .running ∧ x.toServer = [] ∧ x.rx = [] ∧ x.toClient = []

/-- While the actor distributes, what is still to come for a session is what it will offer to the
session's address. -/
theorem toCome_of_some {s : System} {d : Distribution} (h : s.distribution = some d)
    (c : SessionId) (x : Session) :
    s.toCome c x = if s.actor.peers.lookup x.addr = some c
      then RoutingActor.offeredTo x.addr d.deliveries else [] := by
  unfold toCome
  rw [h]

/-- What is still to come does not depend on the sessions' tasks. -/
theorem toCome_congr {s s' : System} (hdist : s'.distribution = s.distribution)
    (hactor : s'.actor = s.actor) {c : SessionId} {x y : Session} (haddr : y.addr = x.addr) :
    s'.toCome c y = s.toCome c x := by
  unfold toCome
  rw [hdist, hactor, haddr]

/-- An offered message is no longer to come for the address that it was offered to, and the others
have it still to come. -/
theorem offeredTo_consume (a addr : SocketAddr) (msg : Message) (targets : HashSet SocketAddr)
    (rest : List Delivery) :
    RoutingActor.offeredTo a (Distribution.consume msg (targets.erase addr) rest)
      = if a = addr then RoutingActor.offeredTo a rest
        else RoutingActor.offeredTo a (⟨msg, targets⟩ :: rest) := by
  have hconsume : RoutingActor.offeredTo a (Distribution.consume msg (targets.erase addr) rest)
      = RoutingActor.offeredTo a (⟨msg, targets.erase addr⟩ :: rest) := by
    unfold Distribution.consume
    split
    · -- A delivery without targets is removed.
      rename_i hempty
      simp [RoutingActor.offeredTo, hempty]
    · rfl
  rw [hconsume]
  split
  · rename_i heq
    simp [RoutingActor.offeredTo, heq]
  · rename_i hne
    by_cases hmem : a ∈ targets
    · simp [RoutingActor.offeredTo, hne, hmem]
    · simp [RoutingActor.offeredTo, hmem]

/-- An open session that has sent a command holds its address in the actor's history. -/
theorem holder_of_open {s : System} (hw : Wired s) {c : SessionId} {x : Session}
    (hx : s.sessions[c]? = some x) (hopen : x.phase ≠ .closed)
    (hsent : ∃ e ∈ s.processed, e.1 = c) : Event.holder s.processed x.addr = some c := by
  have hholder : Event.holder s.history x.addr = some c := (hw.holder _ _).mpr ⟨x, hx, rfl, hopen⟩
  exact Event.holder_of_append hw.disciplined hholder hsent

/-- The session whose subscribe command is next waits for the actor's response. -/
theorem subscribing_of_head {s : System} (ha : Awaiting s) {c : SessionId} {x : Session}
    (hx : s.sessions[c]? = some x) {addr : SocketAddr} {vni : Vni} {tx : SessionId}
    {commands : List Event} (hcommands : s.commands = (c, .subscribe addr vni tx) :: commands) :
    x.phase = .subscribing vni none := by
  have hwaiting := ha c x hx
  rw [hcommands, Event.subscribesOf_cons, if_pos ⟨rfl, rfl⟩] at hwaiting
  unfold Session.awaited at hwaiting
  split at hwaiting
  · rename_i vni' hphase
    have hhead := (List.cons.inj hwaiting).1
    cases hhead
    exact hphase
  · cases hwaiting

/-- The actor has a channel only for the holder of an address, and only subscribers in its
subscriptions. It may have dropped some of them. -/
structure Bounded (s : System) : Prop where
  peers : ∀ a c, s.actor.peers.lookup a = some c → Event.holder s.processed a = some c
  subscribers : ∀ a v, a ∈ s.actor.subscribers v → Event.subscriber s.processed a v = true

/-- A step keeps the actor's tables within what its history says: it only drops entries on its own
account. -/
theorem bounded_step {capacity : Nat} {s s' : System} {l : Label} (hw : Wired s)
    (h : Bounded s) (hs : (lts capacity).step s l = some s') : Bounded s' := by
  cases actorFate_of_step hs with
  | kept _ hactor hprocessed =>
    constructor
    · rw [hactor, hprocessed]
      exact h.peers
    · rw [hactor, hprocessed]
      exact h.subscribers
  | @took owned routes e commands hcommands hactor hprocessed =>
    have hallowed : Event.Allowed s.processed e := hw.allowed hcommands
    -- A session registers its own channel.
    have hown : ∀ addr tx, e.2 = .peerConnected addr tx → tx = e.1 := by
      obtain ⟨c, cmd⟩ := e
      rintro addr tx rfl
      exact hallowed.2.1
    -- The history makes the step of the tables, and knew at least as much before it.
    constructor
    · intro a c hpeer
      rw [hactor, RoutingActor.lookup_peers_handle owned hown] at hpeer
      rw [hprocessed, Event.holder_snoc]
      exact Event.holderStep_mono (h.peers a c) hpeer
    · intro a v hmember
      rw [hactor] at hmember
      have hstep := RoutingActor.mem_subscribers_handle s.actor e owned a v
      rw [decide_eq_true hmember] at hstep
      rw [hprocessed, Event.subscriber_snoc]
      refine Event.subscriberStep_mono ?_ hstep.symm
      intro hdec
      exact h.subscribers a v (of_decide_eq_true hdec)
  | dropped hactor hprocessed =>
    -- Dropping slow consumers only makes both tables smaller.
    constructor
    · intro a c hpeer
      rw [hactor, RoutingActor.lookup_peers_removeSlowConsumers] at hpeer
      split at hpeer
      · cases hpeer
      · rw [hprocessed]
        exact h.peers a c hpeer
    · intro a v hmember
      rw [hactor, RoutingActor.mem_subscribers_removeSlowConsumers] at hmember
      rw [hprocessed]
      exact h.subscribers a v hmember.1

/-- In every reachable state, a channel of the actor is that of the holder of its address, and a
subscriber is one that has subscribed. -/
theorem bounded_of_run {capacity : Nat} {ls : List Label} {s : System}
    (hrun : (lts capacity).Run ls s) : Bounded s := by
  refine Lts.Run.invariant ⟨?_, ?_⟩
    (fun _ _ _ _ hr h hs => bounded_step (wired_of_run hr) h hs) hrun
  · intro a c hpeer
    have hnone : (∅ : HashMap SocketAddr SessionId).lookup a = some c := hpeer
    rw [Finmap.lookup_empty] at hnone
    cases hnone
  · intro a v hmember
    simp [lts, new, RoutingActor.subscribers, RoutingActor.new] at hmember

/-- An open session at the other end of a channel is the one at the channel's address. -/
theorem addr_of_channel {s : System} (hw : Wired s) (hb : Bounded s) {addr : SocketAddr}
    {tx : SessionId} {x : Session} (hchannel : s.channel addr = some (tx, x))
    (hopen : x.phase ≠ .closed) : x.addr = addr := by
  obtain ⟨hpeer, hx⟩ := channel_eq_some hchannel
  have hholder : Event.holder s.processed addr = some tx := hb.peers addr tx hpeer
  have hown : Event.holder s.processed x.addr = some tx :=
    holder_of_open hw hx hopen (Event.exists_mem_of_holder hholder)
  exact Event.holder_injective hw.disciplined.of_append hown hholder

end System

/-! ### Statements that something is not on the way -/

/-- No edit of the kind `Q` is on the way to the client, and the client has received no
route that such an edit would have inserted. -/
def Session.Free (x : Session) (Q : Edit RouteKey → Prop) : Prop :=
  (∀ r, Q (.insert r) → r ∉ x.client.receivedRoutes) ∧
    ∀ e ∈ edits (x.toClient ++ x.unwritten ++ x.rx), ¬ Q e

/-- No action of a session brings anything new on the way. -/
theorem Session.free_act {x x' : Session} {c : SessionId} {action : SessionAction}
    {cmds : List RoutingCommand} (h : x.act c action = some (x', cmds))
    {Q : Edit RouteKey → Prop} (hfree : x.Free Q) : x'.Free Q := by
  obtain ⟨hreceived, hway⟩ := hfree
  have hway' : ∀ e ∈ edits x.way, ¬ Q e := hway
  cases passes_of_act h with
  | commanded hclient hsame =>
    refine ⟨?_, fun e hmem => hway' e (hsame ▸ hmem)⟩
    intro r hr hmem
    rw [hclient] at hmem
    exact hreceived r hr ((Connection.mem_handleCommand _ _ r).mp hmem).1
  | @delivered msg hmsg hclient hsplit =>
    rw [hsplit] at hway'
    refine ⟨?_, fun e hmem => hway' e (List.mem_append_right _ hmem)⟩
    intro r hr hmem
    rw [hclient, Connection.mem_handleMessage] at hmem
    -- If the message is about the route at all, it does not insert it.
    refine hreceived r hr (EditLog.of_after_of_not_insert ?_ hmem)
    intro hinsert
    exact hway' (.insert r) (List.mem_append_left _ hinsert) hr
  | moved _ hclient hsame =>
    exact ⟨fun r hr => hclient ▸ hreceived r hr, fun e hmem => hway' e (hsame ▸ hmem)⟩
  | closed _ hclient hless =>
    exact ⟨fun r hr => hclient ▸ hreceived r hr, fun e hmem => hway' e (hless hmem)⟩

/-- The actor's response is on the way as soon as the session has it. -/
theorem Session.free_receive {x : Session} {vni : Vni} {routes : List (Destination × NextHop)}
    {Q : Edit RouteKey → Prop} (hfree : x.Free Q) (hphase : x.phase = .subscribing vni none)
    (hroutes : ∀ route ∈ routes, ¬ Q (.insert (vni, route.1, route.2))) :
    Session.Free { x with phase := .subscribing vni (some routes) } Q := by
  obtain ⟨hreceived, hway⟩ := hfree
  refine ⟨hreceived, ?_⟩
  intro e hmem
  have hmem' : e ∈ edits (x.toClient ++ snapshotMessages vni routes ++ x.rx) := hmem
  have hnone : x.unwritten = [] := by simp [Session.unwritten, hphase]
  rw [hnone, List.append_nil, edits_append] at hway
  rw [edits_append, edits_append, edits_snapshotMessages, List.mem_append,
    List.mem_append] at hmem'
  -- The snapshot stands between what is written and what waits in the channel.
  rcases hmem' with (hstream | hcopy) | hqueue
  · exact hway e (List.mem_append_left _ hstream)
  · obtain ⟨r, hr, rfl⟩ := List.mem_map.mp hcopy
    obtain ⟨route, hroute, rfl⟩ := List.mem_map.mp hr
    exact hroutes route hroute
  · exact hway e (List.mem_append_right _ hqueue)

/-- A message in the channel is on the way. -/
theorem Session.free_push {x : Session} {msg : Message} {Q : Edit RouteKey → Prop}
    (hfree : x.Free Q) (hmsg : ∀ e ∈ edits [msg], ¬ Q e) :
    Session.Free { x with rx := x.rx ++ [msg] } Q := by
  obtain ⟨hreceived, hway⟩ := hfree
  refine ⟨hreceived, ?_⟩
  intro e hmem
  have hmem' : e ∈ edits (x.toClient ++ x.unwritten ++ (x.rx ++ [msg])) := hmem
  rw [← List.append_assoc, edits_append, List.mem_append] at hmem'
  rcases hmem' with hold | hnew
  · exact hway e hold
  · exact hmsg e hnew

namespace System

/-- No edit of the kind `Q` is on the way to the client of the session `c`. -/
def FreeOf (s : System) (c : SessionId) (Q : Edit RouteKey → Prop) : Prop :=
  ∀ x, s.sessions[c]? = some x → x.Free Q ∧ ∀ e ∈ edits (s.toCome c x), ¬ Q e

/-- A new session starts with nothing on its way. -/
theorem freeOf_accept {s s' : System} {c : SessionId} {Q : Edit RouteKey → Prop}
    {addr : SocketAddr} {subscriptions : List Vni} {announced : List RouteKey} (hw : Wired s)
    (hb : Bounded s) (h : FreeOf s c Q)
    (hs : s.accept addr subscriptions announced = some s') : FreeOf s' c Q := by
  obtain ⟨-, x, -, hphase, hrx, htoClient, -, -, hclient, rfl⟩ := accept_eq_some hs
  intro y hy
  rcases getElem?_concat_eq_some hy with hy' | ⟨hlast, rfl⟩
  · exact h y hy'
  · refine ⟨⟨?_, ?_⟩, ?_⟩
    · intro r _ hmem
      rw [hclient] at hmem
      exact RouteTable.not_mem_new r hmem
    · simp [htoClient, hrx, Session.unwritten, hphase]
    · -- The actor does not know the session yet.
      have hstranger : ∀ a, s.actor.peers.lookup a ≠ some c := by
        intro a hpeer
        obtain ⟨e, hmem, he⟩ := Event.exists_mem_of_holder (hb.peers a c hpeer)
        have hknown : e.1 < s.sessions.length := hw.known e (List.mem_append_left _ hmem)
        rw [he, hlast] at hknown
        exact Nat.lt_irrefl _ hknown
      have hnone : s.toCome c y = [] := by
        unfold toCome
        split
        · rfl
        · exact if_neg (hstranger y.addr)
      intro e hmem
      have hmem' : e ∈ edits (s.toCome c y) := hmem
      rw [hnone] at hmem'
      cases hmem'

/-- The step of the actor that can break freedom from an edit. It does not if neither the snapshot
nor the updates of the command have the edit. -/
theorem freeOf_recv {s s' : System} {c : SessionId} {Q : Edit RouteKey → Prop}
    {owned : List RouteKey} {routes : List (Destination × NextHop)} (hw : Wired s)
    (ha : Awaiting s) (h : FreeOf s c Q) (hs : s.recv owned routes = some s')
    (hsnap : ∀ addr vni commands, s.commands = (c, .subscribe addr vni c) :: commands →
      ∀ r ∈ s.actor.routes, r.1 = vni → ¬ Q (.insert r))
    (htold : ∀ e commands x, s.commands = e :: commands →
      (owned : Multiset RouteKey) = s.actor.collectedRoutes e.2 → s.sessions[c]? = some x →
      s'.actor.peers.lookup x.addr = some c →
      ∀ edit ∈ edits (RoutingActor.offeredTo x.addr (s.actor.handle e.2 owned).deliveries),
        ¬ Q edit) :
    FreeOf s' c Q := by
  obtain ⟨c₀, cmd, commands, sessions, -, hcommands, howned, hanswer, rfl⟩ := recv_eq_some hs
  intro y hy
  have hy' : sessions[c]? = some y := hy
  -- What the distribution that begins will bring.
  have hcome : ∀ x, s.sessions[c]? = some x → y.addr = x.addr → ∀ e ∈ edits (toCome
      (System.mk (s.actor.handle cmd owned).actor
        (some ⟨(s.actor.handle cmd owned).deliveries.filter fun d => d.targets ≠ ∅, ∅⟩) commands
        (s.processed ++ [(c₀, cmd)]) sessions) c y), ¬ Q e := by
    intro x hx haddr e hmem
    rw [toCome_of_some rfl, RoutingActor.offeredTo_filter, haddr] at hmem
    split at hmem
    · rename_i hpeer
      exact htold (c₀, cmd) commands x hcommands howned hx hpeer e hmem
    · cases hmem
  rcases getElem?_answer hanswer c with ⟨collected, hreply, hroutes, heq⟩ | ⟨-, heq⟩
  · rw [heq, Option.map_eq_some_iff] at hy'
    obtain ⟨x, hx, rfl⟩ := hy'
    cases cmd with
    | subscribe addr vni responseTx =>
      cases hreply
      have hallowed : Event.Allowed s.processed (c₀, .subscribe addr vni c) := hw.allowed hcommands
      have htx : c = c₀ := hallowed.2
      subst htx
      have hphase : x.phase = .subscribing vni none := subscribing_of_head ha hx hcommands
      have hreceive : x.receive routes = { x with phase := .subscribing vni (some routes) } := by
        unfold Session.receive
        rw [hphase]
      refine ⟨?_, hcome x hx (by rw [hreceive])⟩
      rw [hreceive]
      -- The response lists stored routes of the VNI that the session subscribes to.
      refine Session.free_receive (h x hx).1 hphase ?_
      intro route hroute
      refine hsnap addr vni commands hcommands _ ?_ rfl
      rw [← Multiset.mem_coe, hroutes] at hroute
      exact (RoutingActor.mem_handleSubscribe_snd s.actor addr vni route).mp hroute
    | peerConnected | peerDisconnected | unsubscribe | update | getStats => cases hreply
  · rw [heq] at hy'
    exact ⟨(h y hy').1, hcome y hy' rfl⟩

/-- An offer moves a message from what is to come into the channel, so it keeps freedom from an
edit. -/
theorem freeOf_trySend {capacity : Nat} {s s' : System} {c : SessionId}
    {Q : Edit RouteKey → Prop} {addr : SocketAddr} (hw : Wired s) (hb : Bounded s)
    (h : FreeOf s c Q) (hs : s.trySend capacity addr = some s') : FreeOf s' c Q := by
  obtain ⟨msg, targets, rest, slow, hdist, hmem, hcases⟩ := trySend_eq_some hs
  intro y hy
  -- What is still to come gets less.
  have hcome : ∀ (s'' : System) (x : Session) (slow' : HashSet SocketAddr),
      s.sessions[c]? = some x → y.addr = x.addr → s''.actor = s.actor →
      s''.distribution = some ⟨Distribution.consume msg (targets.erase addr) rest, slow'⟩ →
      ∀ e ∈ edits (s''.toCome c y), ¬ Q e := by
    intro s'' x slow' hx haddr hactor hdist' e hedit
    refine (h x hx).2 e ?_
    obtain ⟨m, hm, hkind⟩ := mem_edits.mp hedit
    refine mem_edits.mpr ⟨m, ?_, hkind⟩
    rw [toCome_of_some hdist', hactor, haddr] at hm
    rw [toCome_of_some hdist]
    split at hm
    · rename_i hpeer
      rw [if_pos hpeer]
      rw [offeredTo_consume] at hm
      split at hm
      · unfold RoutingActor.offeredTo at hm ⊢
        rw [List.filter_cons]
        split
        · exact List.mem_cons_of_mem _ hm
        · exact hm
      · exact hm
    · cases hm
  rcases hcases with ⟨-, rfl⟩ | ⟨tx, x, hchannel, hopen, -, rfl⟩ | ⟨-, rfl⟩
  · exact ⟨(h y hy).1, hcome _ y slow hy rfl rfl rfl⟩
  · obtain ⟨hpeer, hx⟩ := channel_eq_some hchannel
    rcases of_getElem?_set hx hy with ⟨rfl, rfl⟩ | ⟨-, hy'⟩
    · obtain ⟨hfree, hbefore⟩ := h x hx
      refine ⟨Session.free_push hfree ?_, hcome _ x slow hx rfl rfl rfl⟩
      -- The message was still to come.
      intro e hnew
      refine hbefore e ?_
      have haddr : x.addr = addr := addr_of_channel hw hb hchannel hopen
      have hcame : s.toCome tx x = msg :: RoutingActor.offeredTo x.addr rest := by
        subst haddr
        simp [toCome, hdist, hpeer, RoutingActor.offeredTo, hmem]
      rw [hcame, edits_cons]
      exact List.mem_append_left _ hnew
    · exact ⟨(h y hy').1, hcome _ y slow hy' rfl rfl rfl⟩
  · exact ⟨(h y hy).1, hcome _ y (insert addr slow) hy rfl rfl rfl⟩

/-- A kind of edit comes on the way to a client only when the actor takes a command: in the
response to a subscribe command of the session, or in a delivery to it. -/
theorem freeOf_step {capacity : Nat} {s s' : System} {l : Label} {c : SessionId}
    {Q : Edit RouteKey → Prop} (hw : Wired s) (ha : Awaiting s) (hb : Bounded s)
    (h : FreeOf s c Q)
    (hs : (lts capacity).step s l = some s')
    (hsnap : ∀ addr vni commands, l.isRecv = true →
      s.commands = (c, .subscribe addr vni c) :: commands →
      ∀ r ∈ s.actor.routes, r.1 = vni → ¬ Q (.insert r))
    (htold : ∀ owned routes e commands x, l = .recv owned routes → s.commands = e :: commands →
      (owned : Multiset RouteKey) = s.actor.collectedRoutes e.2 → s.sessions[c]? = some x →
      s'.actor.peers.lookup x.addr = some c →
      ∀ edit ∈ edits (RoutingActor.offeredTo x.addr (s.actor.handle e.2 owned).deliveries),
        ¬ Q edit) :
    FreeOf s' c Q := by
  cases l with
  | accept addr subscriptions announced => exact freeOf_accept hw hb h hs
  | session c' action =>
    obtain ⟨x, x', cmds, hx, hact, rfl⟩ := sessionStep_eq_some hs
    intro y hy
    rcases of_getElem?_set hx hy with ⟨rfl, rfl⟩ | ⟨-, hy'⟩
    · obtain ⟨hfree, hcome⟩ := h x hx
      -- What is to come depends on the address only.
      refine ⟨Session.free_act hact hfree, ?_⟩
      intro e hmem
      refine hcome e ?_
      rw [← toCome_congr rfl rfl (Session.effect_of_act hact).addr_eq]
      exact hmem
    · exact h y hy'
  | recv owned routes =>
    refine freeOf_recv hw ha h hs ?_ ?_
    · intro addr vni commands
      exact hsnap addr vni commands rfl
    · intro e commands x
      exact htold owned routes e commands x rfl
  | trySend addr => exact freeOf_trySend hw hb h hs
  | finish =>
    obtain ⟨slow, -, rfl⟩ := finish_eq_some hs
    intro y hy
    refine ⟨(h y hy).1, ?_⟩
    intro e hmem
    cases hmem

end System

end RustBond
