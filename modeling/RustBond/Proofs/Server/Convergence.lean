import RustBond.Proofs.Server.InSync

/-!
# `RustBond.Proofs.Server.Convergence`: what a subscriber ends up with

Two results on runs in which no channel overflows, at a moment at which everything on the
way of a session has arrived (`Settled`):

* `received_iff_stored` is about a session that has subscribed to a VNI and never
  unsubscribed. Its client holds a route of the VNI exactly if the actor does, whichever of
  the two ways the route came on. Routes that the session itself updated last are left out.
* `received_iff_stored_of_clear` is about a session that unsubscribes and subscribes again.
  It ends up with the actor's routes if nothing about the VNI is at the client or on its way
  when the actor takes the new subscribe command.

The condition of the second result is needed. `handle_unsubscribe` leaves the updates of the
old subscription in the peer's channel and on the stream, while the snapshot of the new one
bypasses the channel. A stale update then arrives after the newer snapshot
(`stale_update_survives`).
-/

set_option autoImplicit false

namespace RustBond.System

/-- In sync and settled, the client holds what the actor holds. -/
theorem InSync.received_iff {s : System} {c : SessionId} {v : Vni} (h : InSync s c v)
    {x : Session} (hx : s.sessions[c]? = some x) (hsettled : s.Settled x)
    (hsub : Event.subscribed s.processed c v = true)
    (hstays : (c, .unsubscribe x.addr v) ∉ s.commands) {r : RouteKey} (hv : r.1 = v)
    (hother : ∀ action, Event.latest s.processed r ≠ some (c, action)) :
    r ∈ x.client.receivedRoutes ↔ r ∈ s.actor.routes := by
  obtain ⟨hidle, hphase, htoServer, hrx, htoClient⟩ := hsettled
  have hopen : x.phase ≠ .closed := by simp [hphase]
  have hunsub : ¬ s.Unsubscribing c x v := by
    rintro (hmem | hmem)
    · rw [htoServer] at hmem
      cases hmem
    · exact hstays hmem
  have hwill : x.WillHold r = (r ∈ x.client.receivedRoutes) := by
    simp [Session.WillHold, htoClient, hrx, Session.unwritten, hphase]
  rw [← hwill]
  exact h.willHold_iff hidle hx hopen hsub hunsub hv hother

/-! ### A session that never unsubscribes -/

/-- The client has not written an unsubscribe for `v`. -/
def NeverUnsubscribes (s : System) (c : SessionId) (v : Vni) : Prop :=
  ∀ x, s.sessions[c]? = some x → .unsubscribe v ∉ x.sent

/-- A session that never unsubscribes has not done so before. -/
theorem neverUnsubscribes_before {capacity : Nat} {s s' : System} {l : Label}
    (hs : (lts capacity).step s l = some s') {c : SessionId} {v : Vni}
    (h : NeverUnsubscribes s' c v) : NeverUnsubscribes s c v := by
  intro x hx hmem
  obtain ⟨y, hy, -, hsub⟩ := stays_of_step hs hx
  exact h y hy (hsub hmem)

/-- A message that is written is the only reason for a command of its session. -/
theorem not_mem_history_of_never {s : System} (hw : Wired s) (ht : Traced s) {c : SessionId}
    {v : Vni} (h : NeverUnsubscribes s c v) (addr : SocketAddr) :
    (c, .unsubscribe addr v) ∉ s.history := by
  intro hmem
  obtain ⟨x, hx, hsent⟩ := ht.sent_of_unsubscribe hw hmem
  exact h x hx hsent

/-- Nothing about `v` is on the way of a session that is clear of it. -/
theorem clear_of_freeOf {s : System} {c : SessionId} {v : Vni} {x : Session}
    (h : s.FreeOf c fun e => e.target.1 = v) (hx : s.sessions[c]? = some x) : x.Clear v := by
  obtain ⟨⟨hreceived, hway⟩, -⟩ := h x hx
  refine ⟨Multiset.eq_zero_of_forall_notMem ?_, ?_⟩
  · intro route hmem
    rw [RouteTable.mem_getRoutesByVni] at hmem
    exact hreceived _ rfl hmem
  · intro e hmem
    refine hway e ?_
    rw [edits_append, List.mem_append] at hmem
    rw [edits_append, edits_append, List.mem_append, List.mem_append]
    rcases hmem with hstream | hqueue
    · exact Or.inl (Or.inl hstream)
    · exact Or.inr hqueue

/-- As long as a client has not unsubscribed from `v`, nothing about `v` is on its way before
it is subscribed, and it is in sync afterwards. -/
def Steady (s : System) (c : SessionId) (v : Vni) : Prop :=
  NeverUnsubscribes s c v →
    (Event.subscribed s.processed c v = false → s.FreeOf c fun e => e.target.1 = v) ∧ InSync s c v

/-- A step that finds no full channel keeps a session steady. -/
theorem steady_step {capacity : Nat} {s s' : System} {l : Label} {c : SessionId} {v : Vni}
    (hw : Wired s) (ha : Awaiting s) (ht : Traced s) (hb : Bounded s) (hl : Lossless s)
    (h : Steady s c v) (hroom : s.NoOverflow capacity l)
    (hs : (lts capacity).step s l = some s') : Steady s' c v := by
  intro hnever'
  have hnever : NeverUnsubscribes s c v := neverUnsubscribes_before hs hnever'
  have hno := not_mem_history_of_never hw ht hnever
  obtain ⟨hfree, hsync⟩ := h hnever
  have hb' : Bounded s' := bounded_step hw hb hs
  have hclear : s.ClearAtSubscribe c v l := by
    intro _ e _ _ hunsubscribed x hx
    exact clear_of_freeOf (hfree hunsubscribed) hx
  refine ⟨?_, inSync_step hw ha hl hsync hroom hclear hs⟩
  intro hunsubscribed'
  have hunsubscribed : Event.subscribed s.processed c v = false := by
    cases hsub : Event.subscribed s.processed c v with
    | false => rfl
    | true =>
      have hstays : Event.subscribed s'.processed c v = true := by
        rcases processed_step hs with hsame | ⟨e, commands, -, hcommands, hgrows⟩
        · rw [hsame]
          exact hsub
        · rw [hgrows]
          refine Event.subscribed_snoc_of_ne hsub ?_
          intro addr heq
          refine hno addr (List.mem_append_right _ ?_)
          rw [hcommands, ← heq]
          exact List.mem_cons_self
      rw [hstays] at hunsubscribed'
      cases hunsubscribed'
  refine freeOf_step hw ha hb (hfree hunsubscribed) hs ?_ ?_
  · -- A response for `v` would subscribe the session.
    intro addr vni commands hrecv hcommands r _ hvni hv
    have hv' : vni = v := hvni.symm.trans hv
    rw [processed_of_recv hs hrecv hcommands, Event.subscribed_snoc, hv'] at hunsubscribed'
    simp [Event.subscribedStep] at hunsubscribed'
  · -- A delivery for `v` would go to a subscriber.
    intro owned routes e commands x hl' hcommands howned hx hpeer edit hmem hv
    have hmember := RoutingActor.mem_subscribers_of_offeredTo hmem
    have hv' : edit.target.1 = v := hv
    rw [hv'] at hmember
    obtain ⟨c', hholder, hsub'⟩ :=
      (Event.subscriber_iff hw.disciplined.of_append _ _).mp (hb.subscribers _ _ hmember)
    have hholder' := hb'.peers _ _ hpeer
    rw [processed_of_recv hs (by rw [hl']; rfl) hcommands] at hholder'
    -- A command that connects a session delivers nothing.
    have hsame : Event.holder s.processed x.addr = some c := by
      rcases Event.holder_of_snoc hholder' with hheld | ⟨tx, hconnect⟩
      · exact hheld
      · rw [hconnect] at hmem
        cases hmem
    rw [hsame] at hholder
    cases hholder
    rw [hunsubscribed] at hsub'
    cases hsub'

/-- In a run without full channels every session is steady. -/
theorem steady_of_run {capacity : Nat} {ls : List Label} {s : System}
    (hrun : (lts capacity).Run ls s)
    (hroom : (lts capacity).Throughout (NoOverflow capacity) ls) (c : SessionId) (v : Vni) :
    Steady s c v := by
  refine Lts.Run.invariant_of_throughout (P := fun s => Steady s c v) ?_ ?_ hrun
    (hroom.and (hroom.always_before lossless_of_run))
  · intro _
    refine ⟨?_, ?_⟩
    · intro _ x hx
      cases hx
    · intro x hx
      cases hx
  · intro ls s l s' hr h hok hs
    exact steady_step (wired_of_run hr) (awaiting_of_run hr) (traced_of_run hr)
      (bounded_of_run hr) hok.2 h hok.1 hs

/-- **Incremental distribution agrees with a fresh snapshot.** Consider a run in which no
channel overflows, and a session whose client has subscribed to `v`, once or several times,
and never unsubscribed. Once everything on the way has arrived, the client and the actor
agree on every route of `v` whose most recent update came from another session. A removal by
a disconnect counts as a change by the session that is disconnected, which is the one that
sent the most recent update. -/
theorem received_iff_stored {capacity : Nat} {ls : List Label} {s : System}
    (hrun : (lts capacity).Run ls s)
    (hroom : (lts capacity).Throughout (NoOverflow capacity) ls) {c : SessionId} {x : Session}
    (hx : s.sessions[c]? = some x) {v : Vni} (hsub : .subscribe v ∈ x.sent)
    (hnever : .unsubscribe v ∉ x.sent) (hsettled : s.Settled x) {r : RouteKey} (hv : r.1 = v)
    (hother : ∀ action, Event.latest s.processed r ≠ some (c, action)) :
    r ∈ x.client.receivedRoutes ↔ r ∈ s.actor.routes := by
  have hw := wired_of_run hrun
  have ht := traced_of_run hrun
  have hnever' : NeverUnsubscribes s c v := by
    intro x' hx'
    rw [hx] at hx'
    cases hx'
    exact hnever
  have hno := not_mem_history_of_never hw ht hnever'
  -- The server has read all that was sent, so the actor has taken the subscribe command.
  have hsubscribed : Event.subscribed s.processed c v = true := by
    refine Event.subscribed_of_mem ⟨x.addr, c, ?_⟩
      fun addr hmem => hno addr (List.mem_append_left _ hmem)
    obtain ⟨-, hphase, htoServer, -, -⟩ := hsettled
    obtain ⟨read, hsent, htrace⟩ := ht c x hx
    rw [htoServer, List.append_nil] at hsent
    have hmem : (c, RoutingCommand.subscribe x.addr v c) ∈ Event.ofSession s.history c := by
      rw [htrace, Session.trace]
      refine List.mem_append_left _ (List.mem_cons_of_mem _ (List.mem_map.mpr ⟨_, ?_, rfl⟩))
      exact List.mem_filterMap.mpr ⟨.subscribe v, hsent ▸ hsub, rfl⟩
    rw [history, Event.ofSession_append, List.mem_append] at hmem
    rcases hmem with htaken | hwaiting
    · exact (List.mem_filter.mp htaken).1
    · have hnone : Event.subscribesOf s.commands c = [] := by
        rw [awaiting_of_run hrun c x hx]
        simp [Session.awaited, hphase]
      have hone : (c, RoutingCommand.subscribe x.addr v c) ∈ Event.subscribesOf s.commands c :=
        List.mem_filter.mpr ⟨hwaiting, rfl⟩
      rw [hnone] at hone
      cases hone
  have hsync := ((steady_of_run hrun hroom c v) hnever').2
  exact hsync.received_iff hx hsettled hsubscribed
    (fun hmem => hno x.addr (List.mem_append_right _ hmem)) hv hother

/-- A client at port 40001 subscribes to VNI 100. Later a client at port 40002 announces a
route of the VNI, which waits in the channel, is written and delivered. -/
def announcedLater : List Label :=
  [ .accept (.loopback 40001) [] [], .recv [] [], .finish,
    .accept (.loopback 40002) [] [], .recv [] [], .finish,
    .session 0 (.command (.subscribe ⟨100⟩)), .session 0 .read, .recv [] [], .finish,
    .session 0 .respond,
    .session 1 (.command (.sendUpdate (.update .add ⟨100⟩ (makeDest 1) (makeHop 1)))),
    .session 1 .read, .recv [] [], .trySend (.loopback 40001), .finish,
    .session 0 (.flush 1), .session 0 .deliver ]

/-- The first client of the run `announcedLater` has received the stored route. -/
theorem received_iff_stored_announcedLater :
    ∃ s x, (lts maxPendingMessages).Run announcedLater s ∧ s.sessions[0]? = some x ∧
      (⟨100⟩, makeDest 1, makeHop 1) ∈ x.client.receivedRoutes := by
  have hrun : (lts maxPendingMessages).Run announcedLater _ := Lts.Run.of_exec (by decide)
  have hroom : (lts maxPendingMessages).Throughout (NoOverflow maxPendingMessages)
      announcedLater := Lts.throughout_of_check (by decide)
  refine ⟨_, _, hrun, (Option.some_get (by decide)).symm, ?_⟩
  refine (received_iff_stored hrun hroom (Option.some_get (by decide)).symm (v := ⟨100⟩)
    (by decide) (by decide) ?_ rfl ?_).mpr (by decide)
  · exact ⟨by decide, by decide, by decide, by decide, by decide⟩
  · intro action
    cases action with
    | add => decide
    | remove => decide

/-! ### A session that subscribes again -/

/-- **Resubscribing resynchronises, if nothing stale is left.** Consider a run in which no
channel overflows, and a session that sends no update on `v` and whose last word about `v` is
a subscribe. Suppose that whenever the actor takes a subscribe command of the session that
is not subscribed to `v`, nothing about `v` is at its client or on its way. Once everything
on the way has arrived, the client holds exactly the routes of `v` that the actor holds. -/
theorem received_iff_stored_of_clear {capacity : Nat} {ls : List Label} {s : System}
    (hrun : (lts capacity).Run ls s)
    (hroom : (lts capacity).Throughout (NoOverflow capacity) ls) {c : SessionId} {v : Vni}
    (hclear : (lts capacity).Throughout (ClearAtSubscribe c v) ls) {x : Session}
    (hx : s.sessions[c]? = some x)
    (hsilent : ∀ e ∈ edits x.sent, e.target.1 ≠ v)
    (hsub : Event.subscribed s.processed c v = true) (hsettled : s.Settled x)
    (hcommands : s.commands = []) (r : RouteKey) (hv : r.1 = v) :
    r ∈ x.client.receivedRoutes ↔ r ∈ s.actor.routes := by
  have hsync : InSync s c v := inSync_of_run hrun hroom hclear
  have hother : ∀ action, Event.latest s.processed r ≠ some (c, action) := by
    -- An update of its own would be a message that its client has sent.
    intro action hlatest
    obtain ⟨addr, hmem⟩ := Event.mem_of_latest hlatest
    obtain ⟨x', hx', -, hsent⟩ := (traced_of_run hrun).sent_of_update (wired_of_run hrun)
      (List.mem_append_left _ hmem)
    rw [hx] at hx'
    cases hx'
    cases action with
    | add => exact hsilent _ (mem_edits.mpr ⟨_, hsent, rfl⟩) hv
    | remove => exact hsilent _ (mem_edits.mpr ⟨_, hsent, rfl⟩) hv
  have hstays : (c, .unsubscribe x.addr v) ∉ s.commands := by
    rw [hcommands]
    exact List.not_mem_nil
  exact hsync.received_iff hx hsettled hsub hstays hv hother

/-- The run `announcedLater`, after which the first client leaves the VNI and comes back. -/
def backAgain : List Label :=
  announcedLater ++
  [ .session 0 (.command (.unsubscribe ⟨100⟩)), .session 0 .read, .recv [] [], .finish,
    .session 0 (.command (.subscribe ⟨100⟩)), .session 0 .read,
    .recv [] [(makeDest 1, makeHop 1)], .finish, .session 0 .respond, .session 0 .deliver ]

/-- The first client of the run `backAgain` has the stored route again. -/
theorem received_iff_stored_backAgain :
    ∃ s x, (lts maxPendingMessages).Run backAgain s ∧ s.sessions[0]? = some x ∧
      (⟨100⟩, makeDest 1, makeHop 1) ∈ x.client.receivedRoutes := by
  have hrun : (lts maxPendingMessages).Run backAgain _ := Lts.Run.of_exec (by decide)
  have hroom : (lts maxPendingMessages).Throughout (NoOverflow maxPendingMessages) backAgain :=
    Lts.throughout_of_check (by decide)
  have hclear : (lts maxPendingMessages).Throughout (ClearAtSubscribe 0 ⟨100⟩) backAgain :=
    Lts.throughout_of_check (by decide)
  refine ⟨_, _, hrun, (Option.some_get (by decide)).symm, ?_⟩
  refine (received_iff_stored_of_clear hrun hroom hclear (Option.some_get (by decide)).symm
    (by decide) (by decide) ?_ (by decide) _ rfl).mpr (by decide)
  exact ⟨by decide, by decide, by decide, by decide, by decide⟩

/-- The first client subscribes to VNI 100, and the second one announces a route of it. While
the update waits in the channel, the first client unsubscribes, the second one withdraws the
route, and the first one subscribes again. The new snapshot is empty. -/
def staleUpdate : List Label :=
  [ .accept (.loopback 40001) [] [], .recv [] [], .finish,
    .accept (.loopback 40002) [] [], .recv [] [], .finish,
    .session 0 (.command (.subscribe ⟨100⟩)), .session 0 .read, .recv [] [], .finish,
    .session 0 .respond,
    .session 1 (.command (.sendUpdate (.update .add ⟨100⟩ (makeDest 1) (makeHop 1)))),
    .session 1 .read, .recv [] [], .trySend (.loopback 40001), .finish,
    .session 0 (.command (.unsubscribe ⟨100⟩)), .session 0 .read, .recv [] [], .finish,
    .session 1 (.command (.sendUpdate (.update .remove ⟨100⟩ (makeDest 1) (makeHop 1)))),
    .session 1 .read, .recv [] [], .finish,
    .session 0 (.command (.subscribe ⟨100⟩)), .session 0 .read, .recv [] [], .finish,
    .session 0 .respond, .session 0 (.flush 1), .session 0 .deliver ]

/-- Without the condition, an update of the old subscription survives the new snapshot. -/
theorem stale_update_survives :
    ¬ ∀ (ls : List Label) (s : System), (lts maxPendingMessages).Run ls s →
      (lts maxPendingMessages).Throughout (NoOverflow maxPendingMessages) ls →
      ∀ (c : SessionId) (v : Vni) (x : Session), s.sessions[c]? = some x →
        (∀ e ∈ edits x.sent, e.target.1 ≠ v) →
        Event.subscribed s.processed c v = true → s.Settled x → s.commands = [] →
        ∀ r : RouteKey, r.1 = v → (r ∈ x.client.receivedRoutes ↔ r ∈ s.actor.routes) := by
  intro h
  have hrun : (lts maxPendingMessages).Run staleUpdate _ := Lts.Run.of_exec (by decide)
  have hroom : (lts maxPendingMessages).Throughout (NoOverflow maxPendingMessages)
      staleUpdate := Lts.throughout_of_check (by decide)
  have hstale := h staleUpdate _ hrun hroom 0 ⟨100⟩ _ (Option.some_get (by decide)).symm
    (by decide) (by decide) ⟨by decide, by decide, by decide, by decide, by decide⟩ (by decide)
    (⟨100⟩, makeDest 1, makeHop 1) rfl
  revert hstale
  decide

end RustBond.System
