import RustBond.Proofs.Server.Ownership

/-!
# `RustBond.Proofs.Server.Withdrawals`: how routes leave the server

There are two ways. The disconnect of a peer withdraws the routes that it owns, and nothing
else (`disconnect_exact`). An `Update(Remove, r)` withdraws `r` whoever sends it: the handler
does not look at `route_owners`, as the handler of a disconnect does. So a peer can withdraw what
it never announced (`withdrawal_obeyed`).
-/

set_option autoImplicit false

namespace RustBond.RoutingActor

variable {s s' : RoutingActor} {turns : List Turn} {c : SessionId} {a : SocketAddr}
  {owned : List RouteKey}

/-- The messages that a turn offers to the channel of `b`. -/
def offersTo (b : SocketAddr) (out : Outcome) : List Message :=
  if b ∈ out.actor.peers then offeredTo b out.deliveries else []

/-- The withdrawal of a route, as its subscribers get it. -/
def withdrawal (r : RouteKey) : Message := .update .remove r.1 r.2.1 r.2.2

/-- The withdrawals of different routes are different. -/
theorem withdrawal_injective : Function.Injective withdrawal := by
  rintro ⟨v, d, n⟩ ⟨v', d', n'⟩ h
  cases h
  rfl

/-! ### The disconnect of a peer -/

/-- What the disconnect of the peer `a` does, from the state `s` to the state `s'`. -/
structure CleansUp (a : SocketAddr) (s s' : RoutingActor) (out : Outcome) : Prop where
  /-- The routes of the peer go, and the others stay. -/
  routes : ∀ r, r ∈ s'.routes ↔ r ∈ s.routes ∧ s.routeOwners.lookup r ≠ some a
  owners : ∀ r, s'.routeOwners.lookup r
    = if s.routeOwners.lookup r = some a then none else s.routeOwners.lookup r
  peers : ∀ b, s'.peers.lookup b = if b = a then none else s.peers.lookup b
  subscribers : ∀ v b, b ∈ s'.subscribers v ↔ b ∈ s.subscribers v ∧ b ≠ a
  /-- No VNI is left without a subscriber. -/
  noEmpty : ∀ v subs, s'.subscriptions.lookup v = some subs → subs ≠ ∅
  /-- Nothing is offered twice. -/
  nodup : ∀ b, (offersTo b out).Nodup
  /-- The registered subscribers are offered the withdrawals, and nothing else is offered. -/
  offered : ∀ b msg, msg ∈ offersTo b out ↔
    b ∈ s'.peers ∧ ∃ r, msg = withdrawal r ∧ r ∈ s.routes ∧ r ∉ s'.routes ∧ b ∈ s'.subscribers r.1

/-- A disconnect leaves the routes of the other owners. -/
theorem mem_routes_peerDisconnected
    (hord : (owned : Multiset RouteKey) = s.collectedRoutes (.peerDisconnected a)) (r : RouteKey) :
    r ∈ ((s.unregister a).withdrawOwned owned).1.routes ↔
      r ∈ s.routes ∧ s.routeOwners.lookup r ≠ some a := by
  rw [mem_routes_withdrawOwned, mem_owned_iff hord, unregister_routes]

/-- The routes that leave the table are the collected ones, when the owned routes are stored. -/
theorem mem_owned_iff_withdrawn (hstored : s.Stored)
    (hord : (owned : Multiset RouteKey) = s.collectedRoutes (.peerDisconnected a)) (r : RouteKey) :
    r ∈ owned ↔ r ∈ s.routes ∧ r ∉ ((s.unregister a).withdrawOwned owned).1.routes := by
  rw [mem_routes_peerDisconnected hord, mem_owned_iff hord, hstored r]
  constructor
  · intro h
    rw [h]
    exact ⟨rfl, fun hstay => hstay.2 rfl⟩
  · rintro ⟨hsome, hnot⟩
    by_contra h
    exact hnot ⟨hsome, h⟩

/-- A registered peer is offered the withdrawals of the collected routes that it subscribes to. -/
theorem offersTo_peerDisconnected (b : SocketAddr) :
    offersTo b (s.handle (.peerDisconnected a) owned)
      = if b ∈ ((s.unregister a).withdrawOwned owned).1.peers then
          (owned.filter fun r => b ∈ (s.unregister a).subscribers r.1).map withdrawal
        else [] := by
  show (if b ∈ ((s.unregister a).withdrawOwned owned).1.peers then
    offeredTo b ((s.unregister a).withdrawOwned owned).2 else []) = _
  rw [offeredTo_withdrawOwned]
  rfl

/-- A disconnect offers no withdrawal twice to an address. -/
theorem nodup_offersTo_peerDisconnected (hnodup : owned.Nodup) (b : SocketAddr) :
    (offersTo b (s.handle (.peerDisconnected a) owned)).Nodup := by
  rw [offersTo_peerDisconnected]
  split
  · exact (hnodup.filter _).map withdrawal_injective
  · exact List.nodup_nil

/-- A disconnect offers an address the withdrawals of the owned routes that it is subscribed to,
and nothing else. -/
theorem mem_offersTo_peerDisconnected (b : SocketAddr) (msg : Message) :
    msg ∈ offersTo b (s.handle (.peerDisconnected a) owned) ↔
      b ∈ ((s.unregister a).withdrawOwned owned).1.peers ∧
        ∃ r ∈ owned, msg = withdrawal r ∧ b ∈ (s.unregister a).subscribers r.1 := by
  rw [offersTo_peerDisconnected]
  split
  · rename_i hregistered
    rw [List.mem_map]
    constructor
    · rintro ⟨r, hr, rfl⟩
      obtain ⟨hin, hsub⟩ := List.mem_filter.mp hr
      exact ⟨hregistered, r, hin, rfl, of_decide_eq_true hsub⟩
    · rintro ⟨-, r, hin, rfl, hsub⟩
      exact ⟨r, List.mem_filter.mpr ⟨hin, decide_eq_true hsub⟩, rfl⟩
  · rename_i hunregistered
    simp [hunregistered]

/-- **The clean-up after a disconnect is exact.** In every state that the actor reaches, the owner
of a route is the address that announced it last. When no channel is full, the disconnect of `a`
withdraws the routes that `a` owns, each once at every registered subscriber, and drops the
registration and the subscriptions of `a`. All the rest stays. -/
theorem disconnect_exact (hrun : system.Run turns s)
    (hstep : system.step s ⟨c, .peerDisconnected a, owned, ∅⟩ = some s') :
    (∀ r, s.routeOwners.lookup r = Event.owner (turns.map Turn.event) r) ∧
      CleansUp a s s' (s.handle (.peerDisconnected a) owned) := by
  obtain ⟨hstored, howner⟩ := owner_eq_of_run hrun
  obtain ⟨hord, rfl⟩ := turn_of_fast hstep rfl
  refine ⟨howner, ?_⟩
  exact {
    routes := mem_routes_peerDisconnected hord
    owners := fun r => by
      show ((s.unregister a).withdrawOwned owned).1.routeOwners.lookup r = _
      simp only [lookup_routeOwners_withdrawOwned, mem_owned_iff hord, unregister_routeOwners]
    peers := fun b => by
      show ((s.unregister a).withdrawOwned owned).1.peers.lookup b = _
      rw [withdrawOwned_peers]
      exact HashMap.lookup_erase' s.peers a b
    subscribers := fun v b => by
      show b ∈ ((s.unregister a).withdrawOwned owned).1.subscribers v ↔ _
      rw [subscribers_withdrawOwned, mem_subscribers_unregister, ne_comm]
    noEmpty := fun v subs h => by
      have h' : ((s.unregister a).withdrawOwned owned).1.subscriptions.lookup v = some subs := h
      rw [withdrawOwned_subscriptions] at h'
      exact unregister_noEmpty s a v subs h'
    nodup := nodup_offersTo_peerDisconnected (nodup_owned hord)
    offered := fun b msg => by
      rw [mem_offersTo_peerDisconnected]
      refine and_congr_right fun _ => exists_congr fun r => ?_
      rw [mem_owned_iff_withdrawn hstored hord r, ← subscribers_withdrawOwned]
      show (_ ∧ _) ∧ msg = withdrawal r ∧ _ ↔ _
      exact ⟨fun ⟨⟨hin, hout⟩, hmsg, hsub⟩ => ⟨hmsg, hin, hout, hsub⟩,
        fun ⟨hmsg, hin, hout, hsub⟩ => ⟨⟨hin, hout⟩, hmsg, hsub⟩⟩ }

/-- Two peers announce a route each, and the first one subscribes. -/
def twoOwners : List Turn :=
  let turn (c : SessionId) (cmd : RoutingCommand) : Turn := ⟨c, cmd, [], ∅⟩
  [ turn 1 (.peerConnected (.loopback 40001) 1),
    turn 2 (.peerConnected (.loopback 40002) 2),
    turn 1 (.subscribe (.loopback 40001) ⟨100⟩ 1),
    turn 1 (.update (.loopback 40001) .add ⟨100⟩ (makeDest 1) (makeHop 1)),
    turn 2 (.update (.loopback 40002) .add ⟨100⟩ (makeDest 2) (makeHop 1)) ]

/-- The second peer of the run `twoOwners` leaves. The first one is told so. -/
theorem disconnect_exact_twoOwners :
    ∃ s s', system.Run twoOwners s ∧
      system.step s ⟨2, .peerDisconnected (.loopback 40002),
        [(⟨100⟩, makeDest 2, makeHop 1)], ∅⟩ = some s' ∧
      (⟨100⟩, makeDest 1, makeHop 1) ∈ s'.routes ∧
      CleansUp (.loopback 40002) s s'
        (s.handle (.peerDisconnected (.loopback 40002)) [(⟨100⟩, makeDest 2, makeHop 1)]) := by
  have hrun : system.Run twoOwners _ := Lts.Run.of_exec (by decide)
  have hstep : system.step ((system.exec twoOwners).get (by decide))
      ⟨2, .peerDisconnected (.loopback 40002), [(⟨100⟩, makeDest 2, makeHop 1)], ∅⟩ = some _ :=
    (Option.some_get (by decide)).symm
  exact ⟨_, _, hrun, hstep, by decide, (disconnect_exact hrun hstep).2⟩

/-! ### The withdrawal of a route by a peer -/

/-- The withdrawal of `r` changes no table, and nobody is told of it. -/
def Ignores (r : RouteKey) (s s' : RoutingActor) (out : Outcome) : Prop :=
  s'.routes = s.routes ∧ s'.routeOwners = s.routeOwners ∧ ∀ b, withdrawal r ∉ offersTo b out

/-- **A withdrawal is obeyed, whoever sends it.** The route and its owner go, and every other
registered subscriber is offered the withdrawal. -/
theorem withdrawal_obeyed {r : RouteKey} {slow : HashSet SocketAddr} (hstored : r ∈ s.routes)
    (hstep : system.step s ⟨c, .update a .remove r.1 r.2.1 r.2.2, owned, slow⟩ = some s') :
    ¬ Ignores r s s' (s.handle (.update a .remove r.1 r.2.1 r.2.2) owned) ∧
      r ∉ s'.routes ∧ s'.routeOwners.lookup r = none ∧
      ∀ b ∈ s.subscribers r.1, b ≠ a → b ∈ s.peers →
        offersTo b (s.handle (.update a .remove r.1 r.2.1 r.2.2) owned) = [withdrawal r] := by
  obtain ⟨-, -, rfl⟩ := turn_eq_some_iff.mp hstep
  -- The removal of slow consumers leaves the route tables alone.
  have hroutes : r ∉ (s.updateTables a .remove r.1 r.2.1 r.2.2).routes := by
    simp [updateTables]
  have howner : (s.updateTables a .remove r.1 r.2.1 r.2.2).routeOwners.lookup r = none :=
    Finmap.lookup_erase r s.routeOwners
  rw [← handleUpdate_fst] at hroutes howner
  refine ⟨fun hignores => ?_, hroutes, howner, fun b hsub hne hpeer => ?_⟩
  · have hsame : (s.handleUpdate a .remove r.1 r.2.1 r.2.2).1.routes = s.routes := hignores.1
    rw [hsame] at hroutes
    exact hroutes hstored
  · have hregistered : b ∈ (s.handleUpdate a .remove r.1 r.2.1 r.2.2).1.peers := by
      rw [handleUpdate_fst, (updateTables_frame ..).1]
      exact hpeer
    show (if b ∈ (s.handleUpdate a .remove r.1 r.2.1 r.2.2).1.peers then
      offeredTo b (s.handleUpdate a .remove r.1 r.2.1 r.2.2).2 else []) = _
    rw [if_pos hregistered, offeredTo_handleUpdate, if_pos ⟨hsub, hne⟩]
    rfl

/-- The second peer of the run `twoOwners` withdraws the route of the first one. -/
def foreignWithdrawal : Turn :=
  ⟨2, .update (.loopback 40002) .remove ⟨100⟩ (makeDest 1) (makeHop 1), [], ∅⟩

/-- The route of the first peer is gone after the step `foreignWithdrawal`. -/
theorem withdrawal_obeyed_foreign :
    ∃ s s', system.Run twoOwners s ∧ system.step s foreignWithdrawal = some s' ∧
      (⟨100⟩, makeDest 1, makeHop 1) ∉ s'.routes := by
  have hrun : system.Run twoOwners _ := Lts.Run.of_exec (by decide)
  have hstep : system.step ((system.exec twoOwners).get (by decide)) foreignWithdrawal = some _ :=
    (Option.some_get (by decide)).symm
  exact ⟨_, _, hrun, hstep,
    (withdrawal_obeyed (r := (⟨100⟩, makeDest 1, makeHop 1)) (by decide) hstep).2.1⟩

/-- A peer that has never announced a route can withdraw it. -/
theorem foreign_withdrawal_not_ignored :
    ¬ ∀ (turns : List Turn) (s s' : RoutingActor), system.Run turns s →
      Event.Disciplined (turns.map Turn.event) →
      ∀ (b : SocketAddr) (c : SessionId) (r : RouteKey) (slow : HashSet SocketAddr),
        Event.holder (turns.map Turn.event) b = some c → r ∈ s.routes →
        (c, .update b .add r.1 r.2.1 r.2.2) ∉ turns.map Turn.event →
        system.step s ⟨c, .update b .remove r.1 r.2.1 r.2.2, [], slow⟩ = some s' →
        Ignores r s s' (s.handle (.update b .remove r.1 r.2.1 r.2.2) []) := by
  intro h
  have hrun : system.Run twoOwners _ := Lts.Run.of_exec (by decide)
  have hstep : system.step ((system.exec twoOwners).get (by decide)) foreignWithdrawal = some _ :=
    (Option.some_get (by decide)).symm
  have hignores := h twoOwners _ _ hrun (by decide) (.loopback 40002) 2
    (⟨100⟩, makeDest 1, makeHop 1) ∅ (by decide) (by decide) (by decide) hstep
  have hstored : (⟨100⟩, makeDest 1, makeHop 1) ∈
      ((system.exec twoOwners).get (by decide)).routes := by decide
  exact ne_of_mem_of_not_mem' hstored (by decide) hignores.1.symm

end RustBond.RoutingActor
