import RustBond.Proofs.Server.Settling
import RustBond.Proofs.Server.SubscriptionTable

/-!
# `RustBond.Proofs.Server.Departure`: when every peer has left

The actor's tables have no entry of their own. Once the last peer has disconnected, they are what
they were before the first one came (`eq_new_of_nobody`). This is so although a peer may leave
routes that another one has announced as well, and although the loop over `slow_consumers` leaves
VNIs without a subscriber in `subscriptions`. The last disconnect finds no other peer registered,
so it drops nobody, and its own clean-up removes the empty sets.

`leaves_nothing` is about the server. When every main loop has come to its end, for whatever
reason, the clean-up that follows leads there, in every order in which the tasks may do it.
-/

set_option autoImplicit false

namespace RustBond

/-- A table without a route is a new one. -/
theorem RouteTable.eq_new_of_empty {t : RouteTable} (h : ∀ r, r ∉ t) : t = RouteTable.new := by
  obtain ⟨routes, hnoEmpty⟩ := t
  have hroutes : routes = ∅ := by
    rw [HashMap.eq_empty_iff]
    intro vni
    cases hvni : routes.lookup vni with
    | none => rfl
    | some vniRoutes =>
      exfalso
      obtain ⟨hne, hhops⟩ := hnoEmpty vni vniRoutes hvni
      -- The inner map has an entry, and the entry a next hop.
      refine hne ((HashMap.eq_empty_iff _).mpr fun dest => ?_)
      cases hdest : vniRoutes.lookup dest with
      | none => rfl
      | some hops =>
        obtain ⟨hop, hhop⟩ := Finset.nonempty_iff_ne_empty.mpr (hhops dest hops hdest)
        refine absurd ?_ (h (vni, dest, hop))
        rw [mem_iff]
        exact ⟨vniRoutes, hops, hvni, hdest, hhop⟩
  subst hroutes
  rfl

namespace RoutingActor

variable {turns : List Turn} {s : RoutingActor}

/-- Every subscriber of the actor is one in its history. -/
theorem subscriber_of_run (hrun : system.Run turns s) {a : SocketAddr} {v : Vni}
    (h : a ∈ s.subscribers v) : Event.subscriber (turns.map Turn.event) a v = true := by
  induction hrun with
  | nil => simp [system, subscribers, new] at h
  | @snoc turns s s' t _ hstep ih =>
    obtain ⟨-, -, rfl⟩ := turn_eq_some_iff.mp hstep
    obtain ⟨hmember, -⟩ := (mem_subscribers_removeSlowConsumers _ _ _ _).mp h
    have hhandle := mem_subscribers_handle s t.event t.owned a v
    rw [show t.event.2 = t.cmd from rfl, decide_eq_true hmember] at hhandle
    rw [List.map_append, List.map_singleton, Event.subscriber_snoc]
    exact Event.subscriberStep_mono (fun hdec => ih (of_decide_eq_true hdec)) hhandle.symm

/-- The disconnect of the last peer finds nobody in `peers`. -/
theorem slow_eq_empty_of_nobody {s' : RoutingActor} {t : Turn} (hrun : system.Run turns s)
    (hstep : system.step s t = some s')
    (hnobody : ∀ a, Event.holder ((turns ++ [t]).map Turn.event) a = none) : t.slow = ∅ := by
  obtain ⟨-, hslow, -⟩ := turn_eq_some_iff.mp hstep
  refine Finset.eq_empty_of_forall_notMem fun a ha => ?_
  obtain ⟨hpeer, -⟩ := System.mem_offered.mp (hslow ha)
  have hpeer' := (mem_peers_handle t.event t.owned a).mp hpeer
  -- A registered address has a holder, before the command and after it.
  have hstays : (Event.holderStep a (Event.holder (turns.map Turn.event) a) t.event).isSome := by
    refine Option.isSome_iff_exists.mpr ?_
    cases hlookup : s.peers.lookup a with
    | none =>
      rw [hlookup] at hpeer'
      obtain ⟨c, hc⟩ := Option.isSome_iff_exists.mp hpeer'
      exact ⟨c, Event.holderStep_mono (fun h => by cases h) hc⟩
    | some tx =>
      have hmem : a ∈ s.peers := Finmap.mem_of_lookup_eq_some hlookup
      obtain ⟨c, hc⟩ := Option.isSome_iff_exists.mp ((mem_peers_of_run hrun a).mp hmem).1
      rw [hc]
      rw [hlookup] at hpeer'
      obtain ⟨cmd, hcmd⟩ : ∃ cmd, t.event = (t.session, cmd) := ⟨t.cmd, rfl⟩
      rw [hcmd] at hpeer' ⊢
      cases cmd with
      | peerConnected addr tx' =>
        simp only [Event.holderStep]
        split
        · exact ⟨_, rfl⟩
        · exact ⟨c, rfl⟩
      | peerDisconnected addr =>
        simp only [Event.holderStep] at hpeer' ⊢
        split at hpeer'
        · cases hpeer'
        · rename_i hne
          exact ⟨c, if_neg hne⟩
      | subscribe | unsubscribe | update | getStats => exact ⟨c, rfl⟩
  have hnone := hnobody a
  rw [List.map_append, List.map_singleton, Event.holder_snoc] at hnone
  rw [hnone] at hstays
  cases hstays

/-- Without an open session, no VNI is left in the table. -/
theorem noEmpty_of_nobody (hrun : system.Run turns s)
    (hd : Event.Disciplined (turns.map Turn.event))
    (hnobody : ∀ a, Event.holder (turns.map Turn.event) a = none) :
    ∀ v subs, s.subscriptions.lookup v = some subs → subs ≠ ∅ := by
  induction hrun with
  | nil =>
    intro v subs hsubs
    cases (Finmap.lookup_empty v).symm.trans hsubs
  | @snoc turns s s' t hrun hstep ih =>
    have hslow := slow_eq_empty_of_nobody hrun hstep hnobody
    obtain ⟨-, rfl⟩ := turn_of_fast hstep hslow
    rw [List.map_append, List.map_singleton] at hd
    obtain ⟨hd₀, hallowed⟩ := Event.disciplined_snoc.mp hd
    rw [List.map_append, List.map_singleton] at hnobody
    simp only [Event.holder_snoc] at hnobody
    obtain ⟨c, cmd, owned, slow⟩ := t
    cases cmd with
    | peerConnected addr tx =>
      -- The new session is open.
      have hopen := hnobody addr
      simp [Turn.event, Event.holderStep] at hopen
    | peerDisconnected addr =>
      intro v subs hsubs
      have hunregister : ((s.unregister addr).withdrawOwned owned).1.subscriptions.lookup v
          = some subs := hsubs
      rw [withdrawOwned_subscriptions] at hunregister
      exact unregister_noEmpty s addr v subs hunregister
    | subscribe addr vni responseTx =>
      have hopen : Event.holder (turns.map Turn.event) addr = some c := hallowed.1
      cases hopen.symm.trans (hnobody addr)
    | unsubscribe addr vni =>
      have hopen : Event.holder (turns.map Turn.event) addr = some c := hallowed
      cases hopen.symm.trans (hnobody addr)
    | update addr action vni destination nextHop =>
      have hopen : Event.holder (turns.map Turn.event) addr = some c := hallowed
      cases hopen.symm.trans (hnobody addr)
    | getStats => exact ih hd₀ hnobody

/-- Without an open session, the actor is as it was at the start. -/
theorem eq_new_of_nobody (hrun : system.Run turns s)
    (hd : Event.Disciplined (turns.map Turn.event))
    (hnobody : ∀ a, Event.holder (turns.map Turn.event) a = none) : s = new := by
  have hroutes : s.routes = RouteTable.new := by
    refine RouteTable.eq_new_of_empty fun r hmem => ?_
    obtain ⟨c, a, -, hc⟩ := (mem_routes_iff_of_run hrun hd r).mp hmem
    cases (hnobody a).symm.trans hc
  have howners : s.routeOwners = ∅ := by
    refine (HashMap.eq_empty_iff _).mpr fun r => ?_
    cases howner : s.routeOwners.lookup r with
    | none => rfl
    | some a =>
      obtain ⟨c, hc, -⟩ := (lookup_routeOwners_iff_of_run hrun hd r a).mp howner
      cases (hnobody a).symm.trans hc
  have hsubscriptions : s.subscriptions = ∅ := by
    refine (HashMap.eq_empty_iff _).mpr fun v => ?_
    cases hsubs : s.subscriptions.lookup v with
    | none => rfl
    | some subs =>
      -- The set has a member, and the member is an open session.
      have hne := noEmpty_of_nobody hrun hd hnobody v subs hsubs
      obtain ⟨a, ha⟩ := Finset.nonempty_iff_ne_empty.mpr hne
      have hmember : a ∈ s.subscribers v := by
        rw [subscribers_of_lookup hsubs]
        exact ha
      obtain ⟨c, hc, -⟩ := (Event.subscriber_iff hd a v).mp (subscriber_of_run hrun hmember)
      cases (hnobody a).symm.trans hc
  have hpeers : s.peers = ∅ := by
    refine (HashMap.eq_empty_iff _).mpr fun a => ?_
    cases hpeer : s.peers.lookup a with
    | none => rfl
    | some tx =>
      have hopen := ((mem_peers_of_run hrun a).mp (Finmap.mem_of_lookup_eq_some hpeer)).1
      rw [hnobody a] at hopen
      cases hopen
  obtain ⟨routes, routeOwners, subscriptions, peers⟩ := s
  cases hroutes
  cases howners
  cases hsubscriptions
  cases hpeers
  rfl

end RoutingActor

namespace System

/-- A session past its main loop does not come back. -/
theorem left_of_own {capacity : Nat} {s s' : System} {l : Label} (hown : l.isOwn = true)
    (hs : (lts capacity).step s l = some s')
    (hleft : ∀ x ∈ s.sessions, x.phase = .stopped ∨ x.phase = .closed) :
    ∀ x ∈ s'.sessions, x.phase = .stopped ∨ x.phase = .closed := by
  intro y hmem
  obtain ⟨c, hy⟩ := List.getElem?_of_mem hmem
  have hbefore : ∀ x, s.sessions[c]? = some x → x.phase = .stopped ∨ x.phase = .closed :=
    fun x hx => hleft x (List.mem_of_getElem? hx)
  cases fate_of_step hs hy with
  | accepted => cases hown
  | @acted x action cmds hx hact hcommands =>
    have hphase := hbefore x hx
    cases Session.effect_of_act hact with
    | wrote hmsg haddr hsame => rwa [hsame]
    | took htoServer haddr hrunning => simp [hrunning] at hphase
    | moved haddr hmoved =>
      rcases hmoved with hsame | ⟨⟨vni, routes, hsubscribing⟩, -⟩ | ⟨-, hstopped⟩
      · rwa [hsame]
      · simp [hsubscribing] at hphase
      · exact Or.inl hstopped
    | left haddr hstopped hclosed => exact Or.inr hclosed
  | @answered x owned routes hx hy' hreply =>
    have hphase := hbefore x hx
    rcases receive_cases x routes with hreceive | ⟨vni, hsubscribing, -⟩
    · rwa [hy', hreceive]
    · simp [hsubscribing] at hphase
  | @offered x addr msg hx hy' =>
    subst hy'
    exact hbefore x hx
  | kept hx => exact hbefore y hx

/-- Where everything has arrived and no session is left, the actor is as it was at the start. -/
theorem eq_new_of_arrived {capacity : Nat} {ls : List Label} {s : System}
    (hrun : (lts capacity).Run ls s) (harrived : AllArrived s)
    (hnone : ∀ x ∈ s.sessions, x.phase ≠ .running) : s.actor = RoutingActor.new := by
  obtain ⟨turns, hturns, hevents, hd⟩ := exists_turns hrun
  have hslow : s.slowConsumers = ∅ := by rw [slowConsumers, harrived.distribution]
  rw [hslow, RoutingActor.removeSlowConsumers_empty] at hturns
  refine RoutingActor.eq_new_of_nobody hturns (hevents ▸ hd) fun a => ?_
  rw [hevents]
  cases hholder : Event.holder s.processed a with
  | none => rfl
  | some c =>
    -- A holder would be a session that is not closed.
    have hhistory : s.history = s.processed := by
      rw [history, harrived.commands, List.append_nil]
    obtain ⟨x, hx, -, hopen⟩ := ((wired_of_run hrun).holder a c).mp (hhistory ▸ hholder)
    obtain ⟨-, hclosed | ⟨hrunning, -⟩⟩ := harrived.sessions x (List.mem_of_getElem? hx)
    · exact absurd hclosed hopen
    · exact absurd hrunning (hnone x (List.mem_of_getElem? hx))

/-- **A server that everybody has left is as good as new.** When every main loop has come to its
end, the tasks of the server go on until nothing of any peer is left, and no state that a peer
has brought about stays behind: the actor's tables are those of a new server. -/
theorem leaves_nothing {capacity : Nat} {ls : List Label} {s : System}
    (hrun : (lts capacity).Run ls s)
    (hleft : ∀ x ∈ s.sessions, x.phase = .stopped ∨ x.phase = .closed) :
    (lts capacity).Inevitable (fun l => l.isOwn = true)
      (fun _ s => s.actor = RoutingActor.new ∧ AllArrived s) ls s := by
  refine (inevitable_allArrived hrun).mono ?_
  rintro after s' hafter ⟨hrun', harrived⟩
  have hleft' : ∀ x ∈ s'.sessions, x.phase = .stopped ∨ x.phase = .closed :=
    Lts.Run.invariant_from hrun hleft
      (fun _ _ _ hmem h hs => left_of_own (hafter _ hmem) hs h) hrun'
  refine ⟨eq_new_of_arrived hrun' harrived fun x hmem hrunning => ?_, harrived⟩
  rcases hleft' x hmem with hstopped | hclosed
  · cases hrunning.symm.trans hstopped
  · cases hrunning.symm.trans hclosed

/-- The run `announcedLater`, after which both main loops stop while a route is stored. -/
theorem leaves_nothing_announcedLater :
    ∃ s, (lts maxPendingMessages).Run (announcedLater ++ [.session 0 .stop, .session 1 .stop]) s ∧
      (lts maxPendingMessages).Inevitable (fun l => l.isOwn = true)
        (fun _ s => s.actor = RoutingActor.new ∧ AllArrived s)
        (announcedLater ++ [.session 0 .stop, .session 1 .stop]) s := by
  have hrun : (lts maxPendingMessages).Run
      (announcedLater ++ [.session 0 .stop, .session 1 .stop]) _ := Lts.Run.of_exec (by decide)
  exact ⟨_, hrun, leaves_nothing hrun (by decide)⟩

end System

end RustBond
