import RustBond.Proofs.Server.Ownership
import RustBond.Proofs.Server.Stream

/-!
# `RustBond.Proofs.Server.Echo`: a peer's own routes

`handle_update` distributes an update to all subscribers except its sender. The snapshot of
`handle_subscribe` has no such exception: it lists every stored route of the VNI, those that
the subscriber itself announced included.

`no_echo_iff` makes this precise. A run of the actor never sends a peer an announcement of a
route that the peer owns, if and only if no peer ever subscribes to a VNI of which it owns a
route. In such runs of the whole system, a client never holds a route that only it
announces. In the run `echoed` it does, and it keeps the route after its own withdrawal,
which the server does not send back to it.
-/

set_option autoImplicit false

namespace RustBond

/-- The messages add a route exactly if one of them is the update that announces it. -/
theorem insert_mem_edits {msgs : List Message} {r : RouteKey} :
    .insert r ∈ edits msgs ↔ .update .add r.1 r.2.1 r.2.2 ∈ msgs := by
  rw [mem_edits]
  constructor
  · rintro ⟨msg, hmsg, hedit⟩
    cases msg with
    | update action vni destination nextHop =>
      cases action with
      | add =>
        cases hedit
        exact hmsg
      | remove => cases hedit
    | hello | keepalive | subscribe | unsubscribe => cases hedit
  · intro hmsg
    exact ⟨_, hmsg, rfl⟩

namespace RoutingActor

/-- The command does not subscribe a peer to a VNI of which the peer owns a route. -/
def OwnsNothing (s : RoutingActor) (cmd : RoutingCommand) : Prop :=
  match cmd with
  | .subscribe addr vni _ => ∀ r ∈ s.ownedRoutes addr, r.1 ≠ vni
  | _ => True

instance (s : RoutingActor) : (cmd : RoutingCommand) → Decidable (s.OwnsNothing cmd)
  | .subscribe addr vni _ => inferInstanceAs (Decidable (∀ r ∈ s.ownedRoutes addr, r.1 ≠ vni))
  | .peerConnected _ _ => inferInstanceAs (Decidable True)
  | .peerDisconnected _ => inferInstanceAs (Decidable True)
  | .unsubscribe _ _ => inferInstanceAs (Decidable True)
  | .update _ _ _ _ _ => inferInstanceAs (Decidable True)
  | .getStats => inferInstanceAs (Decidable True)

/-- Neither the deliveries of the command nor its snapshot announce a route to its recorded
owner. -/
def NoEcho (s : RoutingActor) (cmd : RoutingCommand) (owned : List RouteKey) : Prop :=
  (∀ (a : SocketAddr) (r : RouteKey),
    .update .add r.1 r.2.1 r.2.2 ∈ offeredTo a (s.handle cmd owned).deliveries →
      (s.handle cmd owned).actor.routeOwners.lookup r ≠ some a) ∧
  ∀ addr vni responseTx, cmd = .subscribe addr vni responseTx →
    ∀ route ∈ (s.handleSubscribe addr vni).2,
      (s.handle cmd owned).actor.routeOwners.lookup (vni, route.1, route.2) ≠ some addr

/-- An announcement is offered only to peers other than the one it comes from. -/
theorem update_of_add_offered {s : RoutingActor} {cmd : RoutingCommand} {owned : List RouteKey}
    {a : SocketAddr} {r : RouteKey}
    (h : .update .add r.1 r.2.1 r.2.2 ∈ offeredTo a (s.handle cmd owned).deliveries) :
    ∃ fromAddr, cmd = .update fromAddr .add r.1 r.2.1 r.2.2 ∧ a ≠ fromAddr := by
  cases cmd with
  | peerConnected | subscribe | unsubscribe | getStats => cases h
  | peerDisconnected addr =>
    -- A disconnect delivers removals.
    have h' : .update .add r.1 r.2.1 r.2.2 ∈
        offeredTo a ((s.unregister addr).withdrawOwned owned).2 := h
    rw [offeredTo_withdrawOwned, List.mem_map] at h'
    obtain ⟨r', -, hmsg⟩ := h'
    cases hmsg
  | update fromAddr action vni destination nextHop =>
    have h' : .update .add r.1 r.2.1 r.2.2 ∈
        offeredTo a (s.handleUpdate fromAddr action vni destination nextHop).2 := h
    rw [offeredTo_handleUpdate] at h'
    split at h'
    · rename_i htarget
      rw [List.mem_singleton] at h'
      cases h'
      exact ⟨fromAddr, rfl, htarget.2⟩
    · cases h'

/-- The incremental path never echoes. The snapshot does exactly if the subscriber owns a
route of the VNI. -/
theorem noEcho_iff {s : RoutingActor} (hstored : s.Stored) (cmd : RoutingCommand)
    (owned : List RouteKey) : s.NoEcho cmd owned ↔ s.OwnsNothing cmd := by
  have hincremental : ∀ (a : SocketAddr) (r : RouteKey),
      .update .add r.1 r.2.1 r.2.2 ∈ offeredTo a (s.handle cmd owned).deliveries →
        (s.handle cmd owned).actor.routeOwners.lookup r ≠ some a := by
    intro a r hmsg howner
    obtain ⟨fromAddr, rfl, hne⟩ := update_of_add_offered hmsg
    have hrecorded : (s.handle (.update fromAddr .add r.1 r.2.1 r.2.2)
        owned).actor.routeOwners.lookup r = some fromAddr := by
      show (s.handleUpdate fromAddr .add r.1 r.2.1 r.2.2).1.routeOwners.lookup r = some fromAddr
      rw [handleUpdate_fst]
      exact Finmap.lookup_insert _
    rw [hrecorded] at howner
    exact hne (Option.some.inj howner).symm
  unfold NoEcho
  rw [and_iff_right hincremental]
  cases cmd with
  | subscribe addr vni responseTx =>
    constructor
    · intro h r hr hv
      rw [mem_ownedRoutes] at hr
      -- A route with an owner is stored, so the snapshot lists it.
      have hmem : r ∈ s.routes := (hstored r).mpr (by rw [hr]; rfl)
      have hlisted : (r.2.1, r.2.2) ∈ (s.handleSubscribe addr vni).2 := by
        rw [mem_handleSubscribe_snd, ← hv]
        exact hmem
      refine h addr vni responseTx rfl _ hlisted ?_
      rw [← hv]
      exact hr
    · intro h addr' vni' responseTx' heq route _ howner
      cases heq
      exact h _ ((mem_ownedRoutes s addr _).mpr howner) rfl
  | peerConnected | peerDisconnected | unsubscribe | update | getStats =>
    refine iff_of_true ?_ trivial
    intro addr vni responseTx heq
    cases heq

end RoutingActor

namespace System

/-- If the actor takes a subscribe command, then the subscriber owns no route of the VNI. -/
def OwnsNothingAtSubscribe (s : System) (l : Label) : Prop :=
  l.isRecv = true → ∀ e ∈ s.commands.head?, s.actor.OwnsNothing e.2

instance (s : System) (l : Label) : Decidable (s.OwnsNothingAtSubscribe l) :=
  inferInstanceAs (Decidable (_ → _))

/-- No client but the one of the session `c` announces `r`. -/
def SoleAnnouncer (s : System) (c : SessionId) (r : RouteKey) : Prop :=
  ∀ c' x, s.sessions[c']? = some x → .update .add r.1 r.2.1 r.2.2 ∈ x.sent → c' = c

/-- Whoever is the only announcer of a route has been so before. -/
theorem soleAnnouncer_before {capacity : Nat} {s s' : System} {l : Label}
    (hs : (lts capacity).step s l = some s') {c : SessionId} {r : RouteKey}
    (h : SoleAnnouncer s' c r) : SoleAnnouncer s c r := by
  intro c' x hx hmem
  obtain ⟨y, hy, -, hsub⟩ := stays_of_step hs hx
  exact h c' y hy (hsub hmem)

/-- The announcements that reach the actor are those of the sole announcer. -/
theorem SoleAnnouncer.session_eq {s : System} (hw : Wired s) (ht : Traced s) {c : SessionId}
    {r : RouteKey} (h : SoleAnnouncer s c r) {c' : SessionId} {addr : SocketAddr}
    (hmem : (c', .update addr .add r.1 r.2.1 r.2.2) ∈ s.history) : c' = c := by
  obtain ⟨x, hx, -, hsent⟩ := ht.sent_of_update hw hmem
  exact h c' x hx hsent

/-- A stored route belongs to its sole announcer. -/
theorem SoleAnnouncer.owner_eq {capacity : Nat} {ls : List Label} {s : System}
    (hrun : (lts capacity).Run ls s) {c : SessionId} {r : RouteKey} (h : SoleAnnouncer s c r)
    {a : SocketAddr} (ha : Event.holder s.processed a = some c) (hr : r ∈ s.actor.routes) :
    s.actor.routeOwners.lookup r = some a := by
  obtain ⟨turns, hturns, hevents, hd⟩ := exists_turns hrun
  rw [← hevents] at hd ha
  -- Dropping slow consumers leaves the route tables alone.
  have hr' : r ∈ (s.actor.removeSlowConsumers s.slowConsumers).routes := hr
  obtain ⟨c', a', hlatest, -⟩ := (RoutingActor.mem_routes_iff_of_run hturns hd r).mp hr'
  have hsole : c' = c := by
    obtain ⟨addr, hmem⟩ := Event.mem_of_latest hlatest
    rw [hevents] at hmem
    exact h.session_eq (wired_of_run hrun) (traced_of_run hrun) (List.mem_append_left _ hmem)
  rw [hsole] at hlatest
  exact (RoutingActor.lookup_routeOwners_iff_of_run hturns hd r a).mpr ⟨c, ha, hlatest⟩

/-- A step in which nobody subscribes to a VNI with own routes brings the sole announcer of
a route no announcement of it. -/
theorem freeOf_add_step {capacity : Nat} {ls : List Label} {s s' : System} {l : Label}
    (hrun : (lts capacity).Run ls s) {c : SessionId} {r : RouteKey}
    (h : SoleAnnouncer s c r → s.FreeOf c (· = .insert r)) (hok : s.OwnsNothingAtSubscribe l)
    (hs : (lts capacity).step s l = some s') :
    SoleAnnouncer s' c r → s'.FreeOf c (· = .insert r) := by
  intro hsole'
  have hsole : SoleAnnouncer s c r := soleAnnouncer_before hs hsole'
  have hw : Wired s := wired_of_run hrun
  have ht : Traced s := traced_of_run hrun
  refine freeOf_step hw (awaiting_of_run hrun) (bounded_of_run hrun) (h hsole) hs ?_ ?_
  · -- The snapshot for the session leaves out the route, as the session owns it.
    intro addr vni commands hrecv hcommands r' hr' hv heq
    cases heq
    have hholder : Event.holder s.processed addr = some c := (hw.allowed hcommands).1
    have howner := hsole.owner_eq hrun hholder hr'
    have hnothing := hok hrecv (c, .subscribe addr vni c) (by rw [hcommands]; rfl)
    exact hnothing r ((RoutingActor.mem_ownedRoutes _ _ _).mpr howner) hv
  · -- The deliveries of the session's own announcement leave out the session.
    intro owned routes e commands x _ hcommands _ hx _ edit hedit heq
    subst heq
    obtain ⟨fromAddr, hcmd, hne⟩ := RoutingActor.update_of_add_offered (insert_mem_edits.mp hedit)
    obtain ⟨c', cmd⟩ := e
    cases hcmd
    have hmem : (c', .update fromAddr .add r.1 r.2.1 r.2.2) ∈ s.history := by
      rw [history, hcommands]
      exact List.mem_append_right _ List.mem_cons_self
    have hc : c' = c := hsole.session_eq hw ht hmem
    subst hc
    obtain ⟨x', hx', haddr, -⟩ := ht.sent_of_update hw hmem
    rw [hx] at hx'
    cases hx'
    exact hne haddr

/-- In a run in which nobody subscribes while it owns routes of the VNI, the only announcer of a
route never gets it back. -/
theorem freeOf_add_of_run {capacity : Nat} {ls : List Label} {s : System}
    (hrun : (lts capacity).Run ls s)
    (hok : (lts capacity).Throughout OwnsNothingAtSubscribe ls) (c : SessionId) (r : RouteKey) :
    SoleAnnouncer s c r → s.FreeOf c (· = .insert r) := by
  refine Lts.Run.invariant_of_throughout
    (P := fun s => SoleAnnouncer s c r → s.FreeOf c (· = .insert r)) ?_ ?_ hrun hok
  · intro _ x hx
    cases hx
  · intro ls s l s' hr h hstep hs
    exact freeOf_add_step hr h hstep hs

/-- The client at port 40001 announces a route of VNI 100, subscribes to the VNI and
withdraws the route. -/
def echoed : List Label :=
  let update (action : Action) : Label :=
    .session 0 (.command (.sendUpdate (.update action ⟨100⟩ (makeDest 1) (makeHop 1))))
  [ .accept (.loopback 40001) [] [], .recv [] [], .finish,
    update .add, .session 0 .read, .recv [] [], .finish,
    .session 0 (.command (.subscribe ⟨100⟩)), .session 0 .read,
    .recv [] [(makeDest 1, makeHop 1)], .finish, .session 0 .respond,
    update .remove, .session 0 .read, .recv [] [], .finish, .session 0 .deliver ]

/-- The commands that the actor takes in the run `echoed`. -/
def echoedTurns : List Turn :=
  let turn (cmd : RoutingCommand) : Turn := ⟨0, cmd, [], ∅⟩
  [ turn (.peerConnected (.loopback 40001) 0),
    turn (.update (.loopback 40001) .add ⟨100⟩ (makeDest 1) (makeHop 1)),
    turn (.subscribe (.loopback 40001) ⟨100⟩ 0) ]

/-- The client at port 40001 subscribes first and announces the route afterwards. -/
def announcedAfterSubscribe : List Label :=
  [ .accept (.loopback 40001) [] [], .recv [] [], .finish,
    .session 0 (.command (.subscribe ⟨100⟩)), .session 0 .read, .recv [] [], .finish,
    .session 0 .respond,
    .session 0 (.command (.sendUpdate (.update .add ⟨100⟩ (makeDest 1) (makeHop 1)))),
    .session 0 .read, .recv [] [], .finish ]

end System

end RustBond
