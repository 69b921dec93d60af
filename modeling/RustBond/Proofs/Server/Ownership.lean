import RustBond.Proofs.Server.History
import RustBond.Proofs.Server.Routing

/-!
# `RustBond.Proofs.Server.Ownership`: which routes the server holds

`owner_eq_of_run` shows that the actor refines the reading of its history: after any run the
owner of a route is `Event.owner` of the commands taken so far, and a route is stored
exactly when it has an owner. Slow consumers do not matter here, as their removal touches
the subscriptions and the channels only.

For runs whose commands come from `handle_peer` tasks, the owner is the session that sent
the most recent update on the route, as long as it is open and the update is an add. Two
consequences:

* `no_orphan_routes`: the two tables have the same routes, and every owner is an open
  session whose add is the most recent update on the route;
* `announced_route_missing_iff`: a route that an open session announces is missing exactly
  when another session sent the most recent update on it, and has withdrawn the route or
  closed.

A route has one owner. So an announcement is lost when another session announces the same
route later and then withdraws it or disconnects (`announced_route_lost`).
-/

set_option autoImplicit false

namespace RustBond.RoutingActor

/-- What a turn of the actor does. -/
theorem turn_eq_some_iff {s s' : RoutingActor} {t : Turn} :
    system.step s t = some s' ↔
      (t.owned : Multiset RouteKey) = s.collectedRoutes t.cmd ∧
      t.slow ⊆ (s.handle t.cmd t.owned).actor.offered (s.handle t.cmd t.owned).deliveries ∧
      s' = (s.handle t.cmd t.owned).actor.removeSlowConsumers t.slow := by
  show s.turn t = some s' ↔ _
  simp only [turn]
  split
  · rename_i h
    simp only [h.1, h.2, true_and, Option.some.injEq, eq_comm]
  · rename_i h
    simp only [reduceCtorEq, false_iff]
    exact fun h' => h ⟨h'.1, h'.2.1⟩

/-- Without slow consumers, a turn ends with what the handler leaves. -/
theorem turn_of_fast {s s' : RoutingActor} {t : Turn}
    (hstep : system.step s t = some s') (hfast : t.slow = ∅) :
    (t.owned : Multiset RouteKey) = s.collectedRoutes t.cmd ∧
      s' = (s.handle t.cmd t.owned).actor := by
  obtain ⟨hord, -, rfl⟩ := turn_eq_some_iff.mp hstep
  rw [hfast]
  exact ⟨hord, removeSlowConsumers_empty _⟩

/-- The actor refines the reading of its history. -/
theorem owner_eq_of_run {turns : List Turn} {s : RoutingActor} (hrun : system.Run turns s) :
    s.Stored ∧ ∀ r, s.routeOwners.lookup r = Event.owner (turns.map Turn.event) r := by
  induction hrun with
  | nil =>
    refine ⟨fun r => ?_, fun r => ?_⟩
    · show r ∈ RouteTable.new ↔ (Finmap.lookup r ∅).isSome
      simp
    · exact Finmap.lookup_empty r
  | @snoc turns s s' t _ hstep ih =>
    obtain ⟨hstored, howner⟩ := ih
    obtain ⟨hord, -, rfl⟩ := turn_eq_some_iff.mp hstep
    refine ⟨stored_handle (e := t.event) hord hstored, fun r => ?_⟩
    rw [List.map_append, List.map_singleton, Event.owner_snoc, ← howner r]
    exact lookup_routeOwners_handle (e := t.event) hord r

/-- The owner of a stored route, in terms of the sessions. -/
theorem lookup_routeOwners_iff_of_run {turns : List Turn} {s : RoutingActor}
    (hrun : system.Run turns s) (hd : Event.Disciplined (turns.map Turn.event)) (r : RouteKey)
    (a : SocketAddr) :
    s.routeOwners.lookup r = some a ↔
      ∃ c, Event.holder (turns.map Turn.event) a = some c ∧
        Event.latest (turns.map Turn.event) r = some (c, .add) := by
  rw [(owner_eq_of_run hrun).2 r]
  exact Event.owner_eq_some_iff hd r a

/-- A route is stored exactly when the most recent update on it is an add of a session that
is still open. -/
theorem mem_routes_iff_of_run {turns : List Turn} {s : RoutingActor} (hrun : system.Run turns s)
    (hd : Event.Disciplined (turns.map Turn.event)) (r : RouteKey) :
    r ∈ s.routes ↔ ∃ c a, Event.latest (turns.map Turn.event) r = some (c, .add) ∧
      Event.holder (turns.map Turn.event) a = some c := by
  rw [(owner_eq_of_run hrun).1 r, Option.isSome_iff_exists]
  constructor
  · rintro ⟨a, ha⟩
    obtain ⟨c, hc, hl⟩ := (lookup_routeOwners_iff_of_run hrun hd r a).mp ha
    exact ⟨c, a, hl, hc⟩
  · rintro ⟨c, a, hl, hc⟩
    exact ⟨a, (lookup_routeOwners_iff_of_run hrun hd r a).mpr ⟨c, hc, hl⟩⟩

/-- **No orphan routes.** In every state that a run of `handle_peer` commands reaches, the
stored triples are the keys of `route_owners`, so the two numbers of `route_stats` agree.
The owner of a stored route is the address of an open session that sent the most recent
update on the route, and this update is an add. An address without an open session, as
after its `PeerDisconnected`, owns nothing. The turns may drop slow consumers. -/
theorem no_orphan_routes {turns : List Turn} {s : RoutingActor} (hrun : system.Run turns s)
    (hd : Event.Disciplined (turns.map Turn.event)) :
    s.routes.triples = s.routeOwners.keys ∧
    s.routes.len = s.routeOwners.len ∧
    (∀ r a, s.routeOwners.lookup r = some a →
      ∃ c, Event.holder (turns.map Turn.event) a = some c ∧
        Event.latest (turns.map Turn.event) r = some (c, .add)) ∧
    (∀ a, Event.holder (turns.map Turn.event) a = none →
      ∀ r, s.routeOwners.lookup r ≠ some a) := by
  have htriples : s.routes.triples = s.routeOwners.keys := by
    ext r
    rw [RouteTable.mem_triples, (owner_eq_of_run hrun).1 r, Finmap.mem_keys, Finmap.lookup_isSome]
  refine ⟨htriples, ?_, fun r a => (lookup_routeOwners_iff_of_run hrun hd r a).mp, ?_⟩
  · rw [RouteTable.len_eq_card_triples, htriples, HashMap.len_eq_card_keys]
  · intro a hfree r howner
    -- An owner is an address that some session holds.
    obtain ⟨c, hc, -⟩ := (lookup_routeOwners_iff_of_run hrun hd r a).mp howner
    rw [hfree] at hc
    cases hc

/-- Two sessions announce the route `100#10.0.1.0/24@2001:db8::1`, and the second one
withdraws it again. -/
def contested : List Turn :=
  let turn (c : SessionId) (cmd : RoutingCommand) : Turn := ⟨c, cmd, [], ∅⟩
  [ turn 1 (.peerConnected (.loopback 40001) 1),
    turn 2 (.peerConnected (.loopback 40002) 2),
    turn 1 (.update (.loopback 40001) .add ⟨100⟩ (makeDest 1) (makeHop 1)),
    turn 2 (.update (.loopback 40002) .add ⟨100⟩ (makeDest 1) (makeHop 1)),
    turn 2 (.update (.loopback 40002) .remove ⟨100⟩ (makeDest 1) (makeHop 1)) ]

/-- The two tables of the run `contested` at the moment before the withdrawal. -/
theorem no_orphan_routes_contested :
    ∃ s, system.Run (contested.take 4) s ∧ s.routes.triples = s.routeOwners.keys := by
  have hrun : system.Run (contested.take 4) _ := Lts.Run.of_exec (by decide)
  exact ⟨_, hrun, (no_orphan_routes hrun (by decide)).1⟩

/-- An open session's announcement is not enough for a route to be stored, although every
session only withdraws what it has itself announced. -/
theorem announced_route_lost :
    ¬ ∀ (turns : List Turn) (s : RoutingActor), system.Run turns s →
      Event.Disciplined (turns.map Turn.event) →
      History.Obeys Event.WithdrawsOwn (turns.map Turn.event) →
      ∀ (a : SocketAddr) (c : SessionId) (r : RouteKey),
        Event.holder (turns.map Turn.event) a = some c →
        Event.latestBy (turns.map Turn.event) c r = some .add → r ∈ s.routes := by
  intro h
  have hlost := h contested _ (Lts.Run.of_exec (by decide)) (by decide) (by decide)
    (.loopback 40001) 1 (⟨100⟩, makeDest 1, makeHop 1) (by decide) (by decide)
  revert hlost
  decide

/-- **What the server keeps of an announcement.** Let an open session's most recent update
on `r` be an add. Then `r` is missing exactly when another session sent the most recent
update on `r`, and this session withdrew `r` or is no longer open. -/
theorem announced_route_missing_iff {turns : List Turn} {s : RoutingActor}
    (hrun : system.Run turns s) (hd : Event.Disciplined (turns.map Turn.event))
    {a : SocketAddr} {c : SessionId} {r : RouteKey}
    (hopen : Event.holder (turns.map Turn.event) a = some c)
    (hadd : Event.latestBy (turns.map Turn.event) c r = some .add) :
    r ∉ s.routes ↔ ∃ c' action, c' ≠ c ∧
      Event.latest (turns.map Turn.event) r = some (c', action) ∧
      (action = .remove ∨ ∀ a', Event.holder (turns.map Turn.event) a' ≠ some c') := by
  rw [mem_routes_iff_of_run hrun hd]
  constructor
  · intro hmissing
    obtain ⟨c', action, hl⟩ := Event.exists_latest_of_latestBy hadd
    refine ⟨c', action, ?_, hl, ?_⟩
    · -- The session's own update is an add, and the session is open.
      rintro rfl
      have haction : action = .add :=
        Option.some.inj ((Event.latestBy_of_latest hl).symm.trans hadd)
      exact hmissing ⟨c', a, haction ▸ hl, hopen⟩
    · cases action with
      | remove => exact Or.inl rfl
      | add => exact Or.inr fun a' ha' => hmissing ⟨c', a', hl, ha'⟩
  · rintro ⟨c', action, -, hl, hgone⟩ ⟨c'', a', hl', ha'⟩
    -- The most recent update decides, and it is one of an open session that adds.
    rw [hl] at hl'
    cases hl'
    rcases hgone with hremove | hclosed
    · cases hremove
    · exact hclosed a' ha'

/-- The statement for the announcement of session 1 in the run `contested`. -/
theorem announced_route_missing_contested :
    ∃ s, system.Run contested s ∧ (⟨100⟩, makeDest 1, makeHop 1) ∉ s.routes := by
  have hrun : system.Run contested _ := Lts.Run.of_exec (by decide)
  have hopen : Event.holder (contested.map Turn.event) (.loopback 40001) = some 1 := by decide
  have hlast : Event.latest (contested.map Turn.event) (⟨100⟩, makeDest 1, makeHop 1)
      = some (2, .remove) := by decide
  exact ⟨_, hrun, (announced_route_missing_iff hrun (by decide) hopen (by decide)).mpr
    ⟨2, .remove, by decide, hlast, Or.inl rfl⟩⟩

end RustBond.RoutingActor
