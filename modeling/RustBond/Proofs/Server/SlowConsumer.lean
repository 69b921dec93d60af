import RustBond.Proofs.Server.Stream

/-!
# `RustBond.Proofs.Server.SlowConsumer`: peers whose channel is full

When a `try_send` finds a full channel, the actor drops the peer's channel and its
subscriptions. The comments of the source say that the peer is disconnected and will
reconnect and get a full sync. But the `handle_peer` task of the peer is not told. It holds a
sender of its own channel, so its `rx.recv()` does not end, and its main loop goes on.

`Served` states what a connected subscriber can rely on: its session is in `peers` and in the
subscriptions. `always_served_iff` shows that a run keeps this precisely if it never drops a
slow consumer whose main loop is still running. The run `overflowing` breaks it, for channels
of capacity 1.
-/

set_option autoImplicit false

namespace RustBond

/-- The main loop of the session is still running. -/
def Session.Looping (x : Session) : Prop := x.phase ≠ .stopped ∧ x.phase ≠ .closed

instance (x : Session) : Decidable x.Looping := inferInstanceAs (Decidable (_ ∧ _))

namespace System

/-- Every running session whose last word about `v` that the actor has taken is a subscribe
is in `peers` and in the subscriptions of `v`. -/
def Served (s : System) : Prop :=
  ∀ c x v, s.sessions[c]? = some x → x.Looping → Event.subscribed s.processed c v = true →
    s.actor.peers.lookup x.addr = some c ∧ x.addr ∈ s.actor.subscribers v

/-- If the step drops the slow consumers, then none of them has a running main loop. -/
def SparesLoops (s : System) (l : Label) : Prop :=
  match l with
  | .finish => ∀ a ∈ s.slowConsumers, ∀ tx ∈ s.channel a, ¬ tx.2.Looping
  | _ => True

instance (s : System) : (l : Label) → Decidable (s.SparesLoops l)
  | .finish => inferInstanceAs (Decidable (∀ a ∈ s.slowConsumers, _))
  | .accept _ _ _ => inferInstanceAs (Decidable True)
  | .session _ _ => inferInstanceAs (Decidable True)
  | .recv _ _ => inferInstanceAs (Decidable True)
  | .trySend _ => inferInstanceAs (Decidable True)

/-- Every running session that the actor has heard of is in `peers` and in the subscriptions
of the VNIs that it is subscribed to. -/
def Registered (s : System) : Prop :=
  ∀ c x, s.sessions[c]? = some x → x.Looping → Event.holder s.processed x.addr = some c →
    s.actor.peers.lookup x.addr = some c ∧
      ∀ v, Event.subscribed s.processed c v = true → x.addr ∈ s.actor.subscribers v

/-- A session that is registered at the actor is served. -/
theorem Registered.served {s : System} (hw : Wired s) (h : Registered s) : Served s := by
  intro c x v hx hloop hsub
  have hholder : Event.holder s.processed x.addr = some c :=
    holder_of_open hw hx hloop.2 (Event.exists_mem_of_subscribed hsub)
  obtain ⟨hpeer, hmember⟩ := h c x hx hloop hholder
  exact ⟨hpeer, hmember v hsub⟩

/-- A session with a running main loop is new, or its main loop was running before. -/
theorem looping_before {capacity : Nat} {s s' : System} {l : Label}
    (hs : (lts capacity).step s l = some s') {c : SessionId} {y : Session}
    (hy : s'.sessions[c]? = some y) (hloop : y.Looping) :
    c = s.sessions.length ∨ ∃ x, s.sessions[c]? = some x ∧ x.addr = y.addr ∧ x.Looping := by
  cases fate_of_step hs hy with
  | accepted hc => exact Or.inl hc
  | @acted x action cmds hx hact hcommands =>
    have heffect := Session.effect_of_act hact
    refine Or.inr ⟨x, hx, heffect.addr_eq.symm, ?_⟩
    cases heffect with
    | wrote hmsg haddr hphase htoServer hsent =>
      unfold Session.Looping at hloop ⊢
      rwa [hphase] at hloop
    | took htoServer haddr hrunning hphase htoServer' hsent => simp [Session.Looping, hrunning]
    | moved haddr hphase htoServer hsent =>
      -- An action that ends the main loop finds it running.
      rcases hphase with hphase | ⟨⟨vni, routes, hphase⟩, -⟩ | ⟨hphase, -⟩
      · unfold Session.Looping at hloop ⊢
        rwa [hphase] at hloop
      · simp [Session.Looping, hphase]
      · simp [Session.Looping, hphase]
    | left haddr hstopped hphase htoServer hsent => exact absurd hphase hloop.2
  | @answered x owned routes hx hy' hreply =>
    refine Or.inr ⟨x, hx, ?_, ?_⟩
    · rcases receive_cases x routes with hreceive | ⟨vni, hphase, hreceive⟩
      · rw [hy', hreceive]
      · rw [hy', hreceive]
    · rcases receive_cases x routes with hreceive | ⟨vni, hphase, hreceive⟩
      · rwa [hy', hreceive] at hloop
      · simp [Session.Looping, hphase]
  | @offered x addr msg hx hy' =>
    subst hy'
    exact Or.inr ⟨x, hx, rfl, hloop⟩
  | kept hx hother => exact Or.inr ⟨y, hx, rfl, hloop⟩

/-- A command that the actor takes keeps the running sessions registered. -/
theorem registered_recv {s : System} {e : Event} {owned : List RouteKey}
    (hd : Event.Disciplined (s.processed ++ [e])) {a : SocketAddr} {c : SessionId}
    (h : Event.holder s.processed a = some c → s.actor.peers.lookup a = some c ∧
      ∀ v, Event.subscribed s.processed c v = true → a ∈ s.actor.subscribers v)
    (hholder : Event.holder (s.processed ++ [e]) a = some c) :
    (s.actor.handle e.2 owned).actor.peers.lookup a = some c ∧
      ∀ v, Event.subscribed (s.processed ++ [e]) c v = true →
        a ∈ (s.actor.handle e.2 owned).actor.subscribers v := by
  obtain ⟨hd₀, hallowed⟩ := Event.disciplined_snoc.mp hd
  have htx : ∀ addr tx, e.2 = .peerConnected addr tx → tx = e.1 := by
    intro addr tx heq
    obtain ⟨c₀, cmd⟩ := e
    cases heq
    exact hallowed.2.1
  -- The session held the address before, or it connects with this command.
  have hbefore : Event.holder s.processed a = some c ∨ ∃ tx, e.2 = .peerConnected a tx :=
    Event.holder_of_snoc hholder
  refine ⟨?_, ?_⟩
  · rw [RoutingActor.lookup_peers_handle owned htx]
    rw [Event.holder_snoc] at hholder
    rcases hbefore with hheld | ⟨tx, hconnect⟩
    · rw [(h hheld).1]
      rwa [hheld] at hholder
    · obtain ⟨c₀, cmd⟩ := e
      cases hconnect
      simpa [Event.holderStep] using hholder
  · intro v hsub
    have hsubscriber : Event.subscriber (s.processed ++ [e]) a v = true :=
      (Event.subscriber_iff hd a v).mpr ⟨c, hholder, hsub⟩
    rw [Event.subscriber_snoc] at hsubscriber
    have hmember := RoutingActor.mem_subscribers_handle s.actor e owned a v
    -- An address that was subscribed before is in the actor's table.
    have hold : Event.subscriber s.processed a v = true → a ∈ s.actor.subscribers v := by
      intro hsub₀
      obtain ⟨c', hheld', hsub'⟩ := (Event.subscriber_iff hd₀ a v).mp hsub₀
      rcases hbefore with hheld | ⟨tx, hconnect⟩
      · rw [hheld] at hheld'
        cases hheld'
        exact (h hheld).2 v hsub'
      · obtain ⟨c₀, cmd⟩ := e
        cases hconnect
        obtain ⟨hfree, -, -⟩ := hallowed
        rw [hfree] at hheld'
        cases hheld'
    have hstep : Event.subscriberStep a v (decide (a ∈ s.actor.subscribers v)) e = true :=
      Event.subscriberStep_mono (fun hsub₀ => decide_eq_true (hold hsub₀)) hsubscriber
    rw [hstep] at hmember
    exact of_decide_eq_true hmember

/-- A step that spares the running sessions keeps them registered. -/
theorem registered_step {capacity : Nat} {s s' : System} {l : Label} (hw : Wired s)
    (h : Registered s) (hok : s.SparesLoops l) (hs : (lts capacity).step s l = some s') :
    Registered s' := by
  have hw' : Wired s' := wired_step hw hs
  intro c y hy hloop hholder
  -- The actor has heard of the session, so the session is not new.
  have hne : c ≠ s.sessions.length := by
    obtain ⟨e, hmem, he⟩ := Event.exists_mem_of_holder hholder
    rw [← he]
    exact Nat.ne_of_lt (hw.known e (mem_history_of_processed hs hmem))
  obtain ⟨x, hx, haddr, hloopx⟩ := (looping_before hs hy hloop).resolve_left hne
  rw [← haddr] at hholder ⊢
  cases actorFate_of_step hs with
  | kept _ hactor hprocessed =>
    rw [hactor, hprocessed]
    rw [hprocessed] at hholder
    exact h c x hx hloopx hholder
  | took hcommands hactor hprocessed =>
    have hd := hw'.disciplined.of_append
    rw [hprocessed] at hd hholder
    rw [hactor, hprocessed]
    exact registered_recv hd (h c x hx hloopx) hholder
  | dropped hactor hprocessed =>
    rw [hprocessed] at hholder
    obtain ⟨hpeer, hmember⟩ := h c x hx hloopx hholder
    have hspared : x.addr ∉ s.slowConsumers := by
      intro hslow
      refine hok x.addr hslow (c, x) ?_ hloopx
      simp [channel, hpeer, hx]
    rw [hactor, hprocessed]
    refine ⟨?_, ?_⟩
    · rw [RoutingActor.lookup_peers_removeSlowConsumers, if_neg hspared]
      exact hpeer
    · intro v hsub
      exact (RoutingActor.mem_subscribers_removeSlowConsumers _ _ _ _).mpr
        ⟨hmember v hsub, hspared⟩

/-- What a handler offers, it offers to peers that stay subscribed to something. -/
theorem exists_subscribed_of_targeted {s : RoutingActor} {cmd : RoutingCommand}
    {owned : List RouteKey} {a : SocketAddr} (h : targeted (s.handle cmd owned).deliveries a) :
    ∃ v, a ∈ (s.handle cmd owned).actor.subscribers v := by
  obtain ⟨d, hmem, ha⟩ := h
  cases cmd with
  | peerConnected | subscribe | unsubscribe | getStats => cases hmem
  | peerDisconnected addr =>
    have hmem' : d ∈ ((s.unregister addr).withdrawOwned owned).2 := hmem
    rw [RoutingActor.withdrawOwned_deliveries, List.mem_filterMap] at hmem'
    obtain ⟨r, -, hd⟩ := hmem'
    obtain ⟨subs, hsubs, rfl⟩ := Option.map_eq_some_iff.mp hd
    -- The loop takes its targets from the subscriptions that are left.
    refine ⟨r.1, ?_⟩
    show a ∈ ((s.unregister addr).withdrawOwned owned).1.subscribers r.1
    rw [RoutingActor.subscribers_withdrawOwned, RoutingActor.subscribers_of_lookup hsubs]
    exact ha
  | update fromAddr action vni destination nextHop =>
    have hmem' : d ∈ (s.handleUpdate fromAddr action vni destination nextHop).2 := hmem
    rw [RoutingActor.handleUpdate_snd, List.mem_map] at hmem'
    obtain ⟨subs, hsubs, rfl⟩ := hmem'
    have hlookup : s.subscriptions.lookup vni = some subs := Option.mem_toList.mp hsubs
    refine ⟨vni, ?_⟩
    show a ∈ (s.handleUpdate fromAddr action vni destination nextHop).1.subscribers vni
    rw [RoutingActor.subscribers_handleUpdate, RoutingActor.subscribers_of_lookup hlookup]
    exact (Finset.mem_filter.mp ha).1

/-- A step that drops a running session leaves it cut off. -/
theorem sparesLoops_of_served {capacity : Nat} {s s' : System} {l : Label} (hw : Wired s)
    (hb : Bounded s) (ht : Turned s) (hs : (lts capacity).step s l = some s')
    (hserved : Served s') : s.SparesLoops l := by
  cases l with
  | finish =>
    obtain ⟨slow, hdist, rfl⟩ := finish_eq_some hs
    rintro a ha ⟨c, x⟩ hchannel hloop
    have hmem : a ∈ slow := by simpa [slowConsumers, hdist] using ha
    obtain ⟨hpeer, hx⟩ := channel_eq_some hchannel
    have haddr : x.addr = a := addr_of_channel hw hb hchannel hloop.2
    -- The peer was offered something, so its session is subscribed.
    obtain ⟨v, hmember⟩ : ∃ v, a ∈ s.actor.subscribers v := by
      cases ht with
      | idle hidle => rw [hidle] at hdist; cases hdist
      | distributing hbusy hrun hevents howned hactor htargets hslow =>
        rw [hdist] at hbusy
        cases hbusy
        rw [hactor]
        exact exists_subscribed_of_targeted (mem_offered.mp (hslow hmem)).2
    obtain ⟨c', hholder, hsub⟩ :=
      (Event.subscriber_iff hw.disciplined.of_append a v).mp (hb.subscribers a v hmember)
    rw [hb.peers a c hpeer] at hholder
    cases hholder
    have hstill := (hserved c x v hx hloop hsub).1
    have hgone : (s.actor.removeSlowConsumers slow).peers.lookup x.addr = some c := hstill
    rw [RoutingActor.lookup_peers_removeSlowConsumers, haddr, if_pos hmem] at hgone
    cases hgone
  | accept | session | recv | trySend => trivial

/-- **When subscribers stay served.** In every state of a run, each running session whose last
word about a VNI is a subscribe is in `peers` and in the subscriptions of the VNI, precisely
if the run never drops a slow consumer whose main loop is still running. -/
theorem always_served_iff {capacity : Nat} {ls : List Label} {s : System}
    (hrun : (lts capacity).Run ls s) :
    (lts capacity).Always Served ls ↔ (lts capacity).Throughout SparesLoops ls := by
  refine Lts.always_iff_throughout (Q := Registered) ?_ ?_ ?_ ?_ hrun
  · intro c x hx
    cases hx
  · intro ls s hr h
    exact h.served (wired_of_run hr)
  · intro ls s l s' hr h hok hs
    exact registered_step (wired_of_run hr) h hok hs
  · intro ls s l s' hr _ hs hserved
    exact sparesLoops_of_served (wired_of_run hr) (bounded_of_run hr) (turned_of_run hr) hs hserved

/-- The client at port 40001 subscribes to VNI 100 and does not read. The client at port 40002
announces two routes of it, which is one more than the channel takes. -/
def overflowing : List Label :=
  let announce (n : UInt8) : Label :=
    .session 1 (.command (.sendUpdate (.update .add ⟨100⟩ (makeDest n) (makeHop n))))
  [ .accept (.loopback 40001) [] [], .recv [] [], .finish,
    .accept (.loopback 40002) [] [], .recv [] [], .finish,
    .session 0 (.command (.subscribe ⟨100⟩)), .session 0 .read, .recv [] [], .finish,
    .session 0 .respond,
    announce 1, .session 1 .read, .recv [] [], .trySend (.loopback 40001), .finish,
    announce 2, .session 1 .read, .recv [] [], .trySend (.loopback 40001), .finish ]

/-- A slow consumer is cut off although its main loop is still running. -/
theorem cut_off :
    ¬ ∀ (capacity : Nat), 0 < capacity → ∀ (ls : List Label) (s : System),
      (lts capacity).Run ls s → Served s := by
  intro h
  have hrun : (lts 1).Run overflowing _ := Lts.Run.of_exec (by decide)
  have hserved := h 1 Nat.one_pos overflowing _ hrun 0 _ ⟨100⟩
    (Option.some_get (by decide)).symm (by decide) (by decide)
  revert hserved
  decide

/-- The run `overflowing`, but the task of the subscriber leaves its main loop before the second
update comes. -/
def overflowingStopped : List Label :=
  overflowing.take 18 ++ .session 0 .stop :: overflowing.drop 18

/-- The subscriber of the run `overflowingStopped` is dropped as a slow consumer, but nobody who is
in a main loop is. -/
theorem always_served_overflowingStopped :
    (∃ s, (lts 1).Run overflowingStopped s ∧ s.actor.peers.lookup (.loopback 40001) = none) ∧
      (lts 1).Always Served overflowingStopped := by
  have hrun : (lts 1).Run overflowingStopped _ := Lts.Run.of_exec (by decide)
  exact ⟨⟨_, hrun, by decide⟩,
    (always_served_iff hrun).mpr (Lts.throughout_of_check (by decide))⟩

end System

end RustBond
