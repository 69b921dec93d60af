import RustBond.Proofs.Server.Ownership
import RustBond.Server.System

/-!
# `RustBond.Proofs.Server.SubscriptionTable`: the form of `subscriptions`

`WellFormed` is what the handlers of a subscribe, an unsubscribe and a disconnect keep: no VNI
has an empty set of subscribers, and every subscriber is registered in `peers`. Two things
break it. Both begin with a full channel.

* The loop over `slow_consumers` takes the addresses out of the sets, but leaves an empty set
  in the table. The handlers of an unsubscribe and of a disconnect remove it.
* A dropped session goes on, and the handler of its next subscribe does not ask whether the
  session is still registered.

`always_wellFormed_iff` shows that nothing else does. `mem_peers_of_run` says which sessions are
registered, in terms of the history.

The channels of the source take 50000 messages. `exists_malformed` shows that no capacity
protects the table: two clients bring the server into a state with both defects.
-/

set_option autoImplicit false

namespace RustBond

namespace Turn

/-- The effect of a turn on whether the channel of `a` is dropped. -/
def droppedStep (a : SocketAddr) (dropped : Bool) (t : Turn) : Bool :=
  match t.cmd with
  | .peerConnected addr _ => if addr = a then false else dropped
  | _ => dropped || decide (a ∈ t.slow)

/-- Whether the channel of `a` has been found full since a session last connected from `a`. -/
def dropped (turns : List Turn) (a : SocketAddr) : Bool :=
  History.fold (droppedStep a) false turns

/-- Whether an address has been dropped changes turn by turn. -/
@[simp] theorem dropped_snoc (turns : List Turn) (t : Turn) (a : SocketAddr) :
    dropped (turns ++ [t]) a = droppedStep a (dropped turns a) t :=
  History.fold_snoc ..

end Turn

namespace RoutingActor

variable {s s' : RoutingActor} {turns : List Turn} {t : Turn} {cmd : RoutingCommand}
  {owned : List RouteKey} {slow : HashSet SocketAddr}

/-- The subscription table is well formed. -/
structure WellFormed (s : RoutingActor) : Prop where
  /-- No VNI is left without a subscriber. -/
  noEmpty : ∀ v subs, s.subscriptions.lookup v = some subs → subs ≠ ∅
  /-- Every subscriber is registered. -/
  registered : ∀ v, ∀ a ∈ s.subscribers v, a ∈ s.peers

/-- A subscribe comes from an open session that has not been dropped. -/
def StaysRegistered (past : List Turn) (t : Turn) : Prop :=
  match t.cmd with
  | .subscribe addr _ _ =>
    (Event.holder (past.map Turn.event) addr).isSome ∧ Turn.dropped past addr = false
  | _ => True

/-- The subscribers of `v` that the command does not disconnect. -/
def staying (s : RoutingActor) (cmd : RoutingCommand) (v : Vni) : HashSet SocketAddr :=
  (s.subscribers v).filter fun a => cmd ≠ .peerDisconnected a

/-- A VNI with a subscriber that stays has one whose channel is not full. -/
def KeepsVnis (s : RoutingActor) (t : Turn) : Prop :=
  ∀ v ∈ s.subscriptions.keys,
    (s.staying t.cmd v).Nonempty → (s.staying t.cmd v \ t.slow).Nonempty

instance (past : List Turn) : (t : Turn) → Decidable (StaysRegistered past t)
  | ⟨_, .subscribe addr _ _, _, _⟩ =>
    inferInstanceAs (Decidable (_ ∧ Turn.dropped past addr = false))
  | ⟨_, .peerConnected _ _, _, _⟩ => inferInstanceAs (Decidable True)
  | ⟨_, .peerDisconnected _, _, _⟩ => inferInstanceAs (Decidable True)
  | ⟨_, .unsubscribe _ _, _, _⟩ => inferInstanceAs (Decidable True)
  | ⟨_, .update _ _ _ _ _, _, _⟩ => inferInstanceAs (Decidable True)
  | ⟨_, .getStats, _, _⟩ => inferInstanceAs (Decidable True)

instance (s : RoutingActor) (t : Turn) : Decidable (s.KeepsVnis t) :=
  inferInstanceAs (Decidable (∀ v ∈ s.subscriptions.keys, _))

/-! ### What a turn does to the table -/

/-- The slow consumers leave the map of the peers. -/
theorem mem_peers_removeSlowConsumers {a : SocketAddr} :
    a ∈ (s.removeSlowConsumers slow).peers ↔ a ∈ s.peers ∧ a ∉ slow := by
  rw [← Finmap.lookup_isSome, lookup_peers_removeSlowConsumers, ← Finmap.lookup_isSome]
  by_cases ha : a ∈ slow
  · simp [ha]
  · simp [ha]

/-- A VNI with a subscriber has an entry. -/
theorem mem_keys_of_mem_subscribers {v : Vni} {a : SocketAddr} (h : a ∈ s.subscribers v) :
    v ∈ s.subscriptions.keys := by
  rw [Finmap.mem_keys, ← Finmap.lookup_isSome]
  unfold subscribers at h
  cases hsubs : s.subscriptions.lookup v with
  | none => simp [hsubs] at h
  | some subs => rfl

/-- A disconnect keeps the table well formed: it takes the address out of every VNI and drops the
VNIs that this leaves empty. -/
theorem WellFormed.handlePeerDisconnected (h : s.WellFormed) (addr : SocketAddr)
    (owned : List RouteKey) : (s.handlePeerDisconnected addr owned).1.WellFormed := by
  unfold RoutingActor.handlePeerDisconnected
  refine ⟨fun v subs hsubs => ?_, fun v a ha => ?_⟩
  · rw [withdrawOwned_subscriptions] at hsubs
    exact unregister_noEmpty s addr v subs hsubs
  · rw [subscribers_withdrawOwned] at ha
    obtain ⟨hmem, hne⟩ := (mem_subscribers_unregister s addr a v).mp ha
    rw [withdrawOwned_peers]
    exact Finmap.mem_erase.mpr ⟨Ne.symm hne, h.registered v a hmem⟩

/-- The handler of a subscribe takes any address. -/
theorem WellFormed.handleSubscribe (h : s.WellFormed) {addr : SocketAddr} (vni : Vni)
    (haddr : addr ∈ s.peers) : (s.handleSubscribe addr vni).1.WellFormed := by
  refine ⟨fun v subs hsubs => ?_, fun v a ha => ?_⟩
  · have hinsert : (s.subscriptions.insert vni
        (insert addr ((s.subscriptions.lookup vni).getD ∅))).lookup v = some subs := hsubs
    rw [HashMap.lookup_insert'] at hinsert
    split at hinsert
    · cases hinsert
      exact Finset.insert_ne_empty addr _
    · exact h.noEmpty v subs hinsert
  · rcases (mem_subscribers_handleSubscribe s addr vni a v).mp ha with ⟨rfl, -⟩ | hmem
    · exact haddr
    · exact h.registered v a hmem

/-- An unsubscription keeps the table well formed, since it drops a VNI that it leaves empty. -/
theorem WellFormed.handleUnsubscribe (h : s.WellFormed) (addr : SocketAddr) (vni : Vni) :
    (s.handleUnsubscribe addr vni).WellFormed := by
  refine ⟨fun v subs hsubs => ?_, fun v a ha => ?_⟩
  · unfold RoutingActor.handleUnsubscribe at hsubs
    split at hsubs
    · exact h.noEmpty v subs hsubs
    · -- An entry that has become empty goes.
      simp only at hsubs
      split at hsubs
      · rw [HashMap.lookup_erase'] at hsubs
        split at hsubs
        · cases hsubs
        · exact h.noEmpty v subs hsubs
      · rename_i hne
        rw [HashMap.lookup_insert'] at hsubs
        split at hsubs
        · cases hsubs
          exact hne
        · exact h.noEmpty v subs hsubs
  · rw [(handleUnsubscribe_routes s addr vni).2.2]
    exact h.registered v a ((mem_subscribers_handleUnsubscribe s addr vni a v).mp ha).1

/-- An update does not touch the table. -/
theorem WellFormed.handleUpdate (h : s.WellFormed) (fromAddr : SocketAddr) (action : Action)
    (vni : Vni) (destination : Destination) (nextHop : NextHop) :
    (s.handleUpdate fromAddr action vni destination nextHop).1.WellFormed := by
  obtain ⟨hpeers, hsubs⟩ := updateTables_frame s fromAddr action vni destination nextHop
  refine ⟨fun v subs hlookup => ?_, fun v a ha => ?_⟩
  · rw [handleUpdate_fst, hsubs] at hlookup
    exact h.noEmpty v subs hlookup
  · rw [subscribers_handleUpdate] at ha
    rw [handleUpdate_fst, hpeers]
    exact h.registered v a ha

/-- Every handler keeps the table well formed, if a subscribe comes from a registered session. -/
theorem WellFormed.handle (h : s.WellFormed)
    (hcmd : ∀ addr vni tx, cmd = .subscribe addr vni tx → addr ∈ s.peers) :
    (s.handle cmd owned).actor.WellFormed := by
  cases cmd with
  | peerConnected addr tx =>
    refine ⟨h.noEmpty, fun v a ha => ?_⟩
    show a ∈ s.peers.insert addr tx
    exact Finmap.mem_insert.mpr (Or.inr (h.registered v a ha))
  | peerDisconnected addr => exact h.handlePeerDisconnected addr owned
  | subscribe addr vni tx => exact h.handleSubscribe vni (hcmd addr vni tx rfl)
  | unsubscribe addr vni => exact h.handleUnsubscribe addr vni
  | update fromAddr action vni destination nextHop =>
    exact h.handleUpdate fromAddr action vni destination nextHop
  | getStats => exact h

/-- The handler of a subscribe keeps the table well formed only if the session is registered. -/
theorem WellFormed.mem_peers_of_subscribe {addr : SocketAddr} {vni : Vni} {tx : SessionId}
    (h : (s.handle (.subscribe addr vni tx) owned).actor.WellFormed) : addr ∈ s.peers :=
  h.registered vni addr
    ((mem_subscribers_handleSubscribe s addr vni addr vni).mpr (Or.inl ⟨rfl, rfl⟩))

/-- The loop over the slow consumers keeps the table well formed if every VNI keeps a
subscriber. -/
theorem wellFormed_removeSlowConsumers_iff (h : s.WellFormed) :
    (s.removeSlowConsumers slow).WellFormed ↔
      ∀ v, (s.subscribers v).Nonempty → (s.subscribers v \ slow).Nonempty := by
  have hlookup : ∀ v, (s.removeSlowConsumers slow).subscriptions.lookup v
      = (s.subscriptions.lookup v).map fun subs => subs \ slow :=
    fun v => HashMap.lookup_mapValues s.subscriptions _ v
  constructor
  · rintro h' v ⟨a, ha⟩
    cases hsubs : s.subscriptions.lookup v with
    | none => simp [subscribers, hsubs] at ha
    | some subs =>
      rw [subscribers_of_lookup hsubs]
      refine Finset.nonempty_iff_ne_empty.mpr (h'.noEmpty v _ ?_)
      rw [hlookup, hsubs]
      rfl
  · intro hkeeps
    refine ⟨fun v subs' hsubs' => ?_, fun v a ha => ?_⟩
    · rw [hlookup, Option.map_eq_some_iff] at hsubs'
      obtain ⟨subs, hsubs, rfl⟩ := hsubs'
      have hkept := hkeeps v
      rw [subscribers_of_lookup hsubs] at hkept
      exact (hkept (Finset.nonempty_iff_ne_empty.mpr (h.noEmpty v subs hsubs))).ne_empty
    · obtain ⟨hmem, hfast⟩ := (mem_subscribers_removeSlowConsumers s slow a v).mp ha
      exact mem_peers_removeSlowConsumers.mpr ⟨h.registered v a hmem, hfast⟩

/-- Only the handlers of an update and of a disconnect offer anything, so only they can find a
full channel. -/
theorem slow_eq_empty_or (hstep : system.step s t = some s') :
    t.slow = ∅ ∨ (∀ addr vni tx, t.cmd ≠ .subscribe addr vni tx) ∧
      ∀ v, (s.handle t.cmd t.owned).actor.subscribers v = s.staying t.cmd v := by
  obtain ⟨-, hslow, -⟩ := turn_eq_some_iff.mp hstep
  obtain ⟨c, cmd, owned, slow⟩ := t
  cases cmd with
  | peerConnected | subscribe | unsubscribe | getStats =>
    exact Or.inl (Finset.subset_empty.mp hslow)
  | peerDisconnected addr =>
    refine Or.inr ⟨nofun, fun v => ?_⟩
    show ((s.unregister addr).withdrawOwned owned).1.subscribers v = _
    ext a
    rw [subscribers_withdrawOwned, mem_subscribers_unregister]
    simp [staying]
  | update fromAddr action vni destination nextHop =>
    refine Or.inr ⟨nofun, fun v => ?_⟩
    show (s.handleUpdate fromAddr action vni destination nextHop).1.subscribers v = _
    rw [subscribers_handleUpdate]
    simp [staying]

/-- The condition can be read over all VNIs, as one without an entry has no subscribers. -/
theorem keepsVnis_iff :
    s.KeepsVnis t ↔
      ∀ v, (s.staying t.cmd v).Nonempty → (s.staying t.cmd v \ t.slow).Nonempty := by
  constructor
  · rintro h v ⟨a, ha⟩
    exact h v (mem_keys_of_mem_subscribers (Finset.mem_filter.mp ha).1) ⟨a, ha⟩
  · exact fun h v _ => h v

/-- When a turn keeps the table well formed. -/
theorem wellFormed_step_iff (h : s.WellFormed) (hstep : system.step s t = some s') :
    s'.WellFormed ↔
      (∀ addr vni tx, t.cmd = .subscribe addr vni tx → addr ∈ s.peers) ∧ s.KeepsVnis t := by
  rw [keepsVnis_iff]
  rcases slow_eq_empty_or hstep with hfast | ⟨hcmd, hstaying⟩
  · obtain ⟨-, rfl⟩ := turn_of_fast hstep hfast
    simp only [hfast, Finset.sdiff_empty, imp_self, implies_true, and_true]
    constructor
    · intro h' addr vni tx heq
      rw [heq] at h'
      exact h'.mem_peers_of_subscribe
    · exact h.handle
  · obtain ⟨-, -, rfl⟩ := turn_eq_some_iff.mp hstep
    have hnone : ∀ addr vni tx, t.cmd = .subscribe addr vni tx → addr ∈ s.peers :=
      fun addr vni tx heq => absurd heq (hcmd addr vni tx)
    rw [wellFormed_removeSlowConsumers_iff (h.handle hnone)]
    simp only [hstaying]
    exact (and_iff_right hnone).symm

/-! ### Which sessions are registered -/

/-- A command changes the connected peers as it changes the holders of the addresses. -/
theorem mem_peers_handle (e : Event) (owned : List RouteKey) (a : SocketAddr) :
    a ∈ (s.handle e.2 owned).actor.peers ↔
      (Event.holderStep a (s.peers.lookup a) e).isSome := by
  obtain ⟨c, cmd⟩ := e
  cases cmd with
  | peerConnected addr tx =>
    show a ∈ s.peers.insert addr tx ↔ _
    rw [Finmap.mem_insert, ← Finmap.lookup_isSome]
    by_cases haddr : addr = a
    · simp [Event.holderStep, haddr]
    · simp [Event.holderStep, haddr, Ne.symm haddr]
  | peerDisconnected | subscribe | unsubscribe | update | getStats =>
    rw [← Finmap.lookup_isSome, lookup_peers_handle owned fun _ _ heq => by cases heq]

/-- A turn keeps the two readings of a registration in step, as no channel is found full when a
session connects. -/
theorem registered_step {a : SocketAddr} {peer holder : Option SessionId} {dropped : Bool}
    (h : peer.isSome ↔ holder.isSome ∧ dropped = false)
    (hfast : ∀ addr tx, t.cmd = .peerConnected addr tx → t.slow = ∅) :
    (Event.holderStep a peer t.event).isSome ∧ a ∉ t.slow ↔
      (Event.holderStep a holder t.event).isSome ∧ Turn.droppedStep a dropped t = false := by
  obtain ⟨c, cmd, owned, slow⟩ := t
  cases cmd with
  | peerConnected addr tx =>
    obtain rfl : slow = ∅ := hfast addr tx rfl
    by_cases haddr : addr = a
    · simp [Turn.event, Turn.droppedStep, Event.holderStep, haddr]
    · simp [Turn.event, Turn.droppedStep, Event.holderStep, haddr, h]
  | peerDisconnected addr =>
    by_cases haddr : addr = a
    · simp [Turn.event, Event.holderStep, haddr]
    · simp [Turn.event, Turn.droppedStep, Event.holderStep, haddr, h, and_assoc]
  | subscribe | unsubscribe | update | getStats =>
    simp [Turn.event, Turn.droppedStep, Event.holderStep, h, and_assoc]

/-- The actor has a channel for the address of an open session, unless it has dropped it. -/
theorem mem_peers_of_run (hrun : system.Run turns s) (a : SocketAddr) :
    a ∈ s.peers ↔
      (Event.holder (turns.map Turn.event) a).isSome ∧ Turn.dropped turns a = false := by
  induction hrun with
  | nil => exact iff_of_false Finmap.notMem_empty (by simp [Event.holder, History.fold])
  | @snoc turns s s' t _ hstep ih =>
    obtain ⟨-, hslow, rfl⟩ := turn_eq_some_iff.mp hstep
    have hfast : ∀ addr tx, t.cmd = .peerConnected addr tx → t.slow = ∅ := by
      intro addr tx hcmd
      rw [hcmd] at hslow
      exact Finset.subset_empty.mp hslow
    have hhandle : a ∈ (s.handle t.cmd t.owned).actor.peers ↔
        (Event.holderStep a (s.peers.lookup a) t.event).isSome :=
      mem_peers_handle t.event t.owned a
    rw [mem_peers_removeSlowConsumers, hhandle, List.map_append, List.map_singleton,
      Event.holder_snoc, Turn.dropped_snoc]
    rw [← Finmap.lookup_isSome] at ih
    exact registered_step ih hfast

/-- What `StaysRegistered` says of the state in which the subscribe is taken. -/
theorem throughout_registered_iff (hrun : system.Run turns s) :
    system.Throughout
        (fun s t => ∀ addr vni tx, t.cmd = .subscribe addr vni tx → addr ∈ s.peers) turns ↔
      History.Obeys StaysRegistered turns := by
  induction hrun with
  | nil => exact iff_of_true (Lts.throughout_nil _) (History.obeys_nil _)
  | @snoc turns s s' t hrun hstep ih =>
    rw [Lts.throughout_snoc hrun, History.obeys_snoc, ih]
    refine and_congr_right fun _ => ?_
    obtain ⟨c, cmd, owned, slow⟩ := t
    cases cmd with
    | subscribe addr vni tx =>
      refine Iff.trans ⟨fun h => h addr vni tx rfl, ?_⟩ (mem_peers_of_run hrun addr)
      rintro h _ _ _ ⟨⟩
      exact h
    | peerConnected | peerDisconnected | unsubscribe | update | getStats =>
      exact iff_of_true nofun trivial

/-- **When the subscription table stays well formed.** In every state of a run, each VNI in the
table has a subscriber and each subscriber is registered, exactly if no dropped session
subscribes before it has reconnected, and no turn finds the channels of all subscribers that a
VNI would keep full. -/
theorem always_wellFormed_iff (hrun : system.Run turns s) :
    system.Always WellFormed turns ↔
      History.Obeys StaysRegistered turns ∧ system.Throughout KeepsVnis turns := by
  have hnew : WellFormed system.init := by
    refine ⟨fun v subs h => ?_, fun v a h => ?_⟩
    · have hempty : (∅ : HashMap Vni (HashSet SocketAddr)).lookup v = some subs := h
      rw [Finmap.lookup_empty] at hempty
      cases hempty
    · have hempty : a ∈ ((∅ : HashMap Vni (HashSet SocketAddr)).lookup v).getD ∅ := h
      rw [Finmap.lookup_empty] at hempty
      cases hempty
  rw [Lts.always_iff_throughout hnew (fun _ _ _ h => h)
    (fun _ _ _ _ _ h hok hstep => (wellFormed_step_iff h hstep).mpr hok)
    (fun _ _ _ _ _ h hstep h' => (wellFormed_step_iff h hstep).mp h') hrun,
    ← throughout_registered_iff hrun]
  exact ⟨fun h => ⟨h.mono fun _ _ hok => hok.1, h.mono fun _ _ hok => hok.2⟩,
    fun h => h.1.and h.2⟩

/-- The peers at the ports 40001 and 40003 subscribe to VNI 100. An update finds the channel of the
first one full. The first one reconnects and subscribes again. -/
def crowded : List Turn :=
  let turn (c : SessionId) (cmd : RoutingCommand) : Turn := ⟨c, cmd, [], ∅⟩
  [ turn 1 (.peerConnected (.loopback 40001) 1),
    turn 2 (.peerConnected (.loopback 40002) 2),
    turn 3 (.peerConnected (.loopback 40003) 3),
    turn 1 (.subscribe (.loopback 40001) ⟨100⟩ 1),
    turn 3 (.subscribe (.loopback 40003) ⟨100⟩ 3),
    turn 2 (.update (.loopback 40002) .add ⟨100⟩ (makeDest 1) (makeHop 1)),
    ⟨2, .update (.loopback 40002) .add ⟨100⟩ (makeDest 2) (makeHop 1), [], {.loopback 40001}⟩,
    turn 1 (.peerDisconnected (.loopback 40001)),
    turn 4 (.peerConnected (.loopback 40001) 4),
    turn 4 (.subscribe (.loopback 40001) ⟨100⟩ 4) ]

/-- The table stays well formed when one of two subscribers is dropped for its full channel, and
comes back to subscribe again. -/
theorem always_wellFormed_crowded : system.Always WellFormed crowded := by
  have hrun : system.Run crowded _ := Lts.Run.of_exec (by decide)
  exact (always_wellFormed_iff hrun).mpr ⟨by decide, Lts.throughout_of_check (by decide)⟩

/-- The peer at port 40001 is the only subscriber of VNI 100, and its channel takes one message.
The second update finds it full. The session of the peer goes on and subscribes to VNI 200. -/
def emptied : List Turn :=
  let turn (c : SessionId) (cmd : RoutingCommand) : Turn := ⟨c, cmd, [], ∅⟩
  [ turn 1 (.peerConnected (.loopback 40001) 1),
    turn 2 (.peerConnected (.loopback 40002) 2),
    turn 1 (.subscribe (.loopback 40001) ⟨100⟩ 1),
    turn 2 (.update (.loopback 40002) .add ⟨100⟩ (makeDest 1) (makeHop 1)),
    ⟨2, .update (.loopback 40002) .add ⟨100⟩ (makeDest 2) (makeHop 1), [], {.loopback 40001}⟩,
    turn 1 (.subscribe (.loopback 40001) ⟨200⟩ 1) ]

/-- Neither half of `WellFormed` holds in every state that disciplined sessions lead to. -/
theorem not_wellFormed :
    (¬ ∀ (turns : List Turn) (s : RoutingActor), system.Run turns s →
      Event.Disciplined (turns.map Turn.event) →
      ∀ v subs, s.subscriptions.lookup v = some subs → subs ≠ ∅) ∧
    ¬ ∀ (turns : List Turn) (s : RoutingActor), system.Run turns s →
      Event.Disciplined (turns.map Turn.event) → ∀ v, ∀ a ∈ s.subscribers v, a ∈ s.peers := by
  have hrun : system.Run emptied _ := Lts.Run.of_exec (by decide)
  refine ⟨fun h => ?_, fun h => ?_⟩
  · exact h emptied _ hrun (by decide) ⟨100⟩ ∅ (by decide) rfl
  · have hpeer := h emptied _ hrun (by decide) ⟨200⟩ (.loopback 40001) (by decide)
    revert hpeer
    decide

end RoutingActor

namespace System

variable {capacity n : Nat} {s : System} {ls : List Label} {msg : Message}

/-- The session is in its main loop, and nothing is on the way to it. -/
structure AtRest (addr : SocketAddr) (x : Session) : Prop where
  addr_eq : x.addr = addr
  phase_eq : x.phase = .running
  toServer_eq : x.toServer = []

/-- Two sessions are at rest. `n` messages wait in the channel of the first one. -/
structure Quiet (n : Nat) (s : System) : Prop where
  commands_eq : s.commands = []
  sessions_eq : ∃ x y, s.sessions = [x, y] ∧ AtRest (.loopback 40001) x ∧ x.rx.length = n ∧
    AtRest (.loopback 40002) y

/-- The first session is the only subscriber of VNI 100. -/
structure Sole (actor : RoutingActor) : Prop where
  subscribed : actor.subscriptions.lookup ⟨100⟩ = some {.loopback 40001}
  registered : actor.peers.lookup (.loopback 40001) = some 0

/-- The two sessions, one of them subscribed, can be reached with empty channels. -/
theorem exists_empty :
    ∃ ls s, (lts capacity).Run ls s ∧ s.distribution = none ∧ Quiet 0 s ∧ Sole s.actor := by
  have hrun : (lts capacity).Run
      [ .accept (.loopback 40001) [] [], .recv [] [], .finish,
        .accept (.loopback 40002) [] [], .recv [] [], .finish,
        .session 0 (.command (.subscribe ⟨100⟩)), .session 0 .read, .recv [] [], .finish,
        .session 0 .respond ] _ := Lts.Run.of_exec rfl
  exact ⟨_, _, hrun, rfl, ⟨rfl, _, _, rfl, ⟨rfl, rfl, rfl⟩, rfl, rfl, rfl, rfl⟩, rfl, rfl⟩

/-- The second session sends an update, and the actor is about to tell the first one. -/
theorem exists_distributing (hrun : (lts capacity).Run ls s) (hidle : s.distribution = none)
    (hquiet : Quiet n s) (hsole : Sole s.actor) (action : Action) :
    ∃ ls' s', (lts capacity).Run ls' s' ∧ s'.distribution
        = some ⟨[⟨.update action ⟨100⟩ (makeDest 1) (makeHop 1), {.loopback 40001}⟩], ∅⟩ ∧
      Quiet n s' ∧ Sole s'.actor := by
  obtain ⟨actor, distribution, commands, processed, sessions⟩ := s
  obtain ⟨hcommands, x, ⟨_, _, rx, _, toClient, client, sent⟩, hsessions, hx, hlength,
    ⟨rfl, rfl, rfl⟩⟩ := hquiet
  obtain rfl : distribution = none := hidle
  obtain rfl : commands = [] := hcommands
  obtain rfl : sessions = _ := hsessions
  have hsend := hrun.snoc
    (l := .session 1 (.command (.sendUpdate (.update action ⟨100⟩ (makeDest 1) (makeHop 1))))) rfl
  have hread := hsend.snoc (l := .session 1 .read) rfl
  have hrecv := hread.snoc (l := .recv [] []) rfl
  refine ⟨_, _, hrecv, ?_, ⟨rfl, x, _, rfl, hx, hlength, rfl, rfl, rfl⟩, ?_⟩
  · have hdeliveries :
        (actor.handleUpdate (.loopback 40002) action ⟨100⟩ (makeDest 1) (makeHop 1)).2
          = [⟨.update action ⟨100⟩ (makeDest 1) (makeHop 1), {.loopback 40001}⟩] := by
      rw [RoutingActor.handleUpdate_snd, hsole.subscribed]
      rfl
    simp [RoutingActor.handle, hdeliveries]
  · show Sole (actor.handleUpdate (.loopback 40002) action ⟨100⟩ (makeDest 1) (makeHop 1)).1
    obtain ⟨hpeers, hsubs⟩ := RoutingActor.updateTables_frame actor (.loopback 40002) action ⟨100⟩
      (makeDest 1) (makeHop 1)
    rw [RoutingActor.handleUpdate_fst]
    exact ⟨hsubs ▸ hsole.subscribed, hpeers ▸ hsole.registered⟩

/-- The channel has room for the update. -/
theorem exists_queued (hrun : (lts capacity).Run ls s)
    (hdist : s.distribution = some ⟨[⟨msg, {.loopback 40001}⟩], ∅⟩) (hquiet : Quiet n s)
    (hsole : Sole s.actor) (hroom : n < capacity) :
    ∃ ls' s', (lts capacity).Run ls' s' ∧ s'.distribution = none ∧ Quiet (n + 1) s' ∧
      Sole s'.actor := by
  obtain ⟨actor, distribution, commands, processed, sessions⟩ := s
  obtain ⟨hcommands, x, y, hsessions, ⟨haddr, hphase, hempty⟩, rfl, hy⟩ := hquiet
  obtain rfl : distribution = _ := hdist
  obtain rfl : sessions = _ := hsessions
  have hoffer : (lts capacity).step
        ⟨actor, some ⟨[⟨msg, {.loopback 40001}⟩], ∅⟩, commands, processed, [x, y]⟩
        (.trySend (.loopback 40001))
      = some ⟨actor, some ⟨[], ∅⟩, commands, processed, [{ x with rx := x.rx ++ [msg] }, y]⟩ := by
    simp [lts, step, trySend, channel, hsole.registered, hphase, hroom, Distribution.consume]
  have hend := (hrun.snoc hoffer).snoc (l := .finish) rfl
  refine ⟨_, _, hend, rfl, ⟨hcommands, _, y, rfl, ⟨haddr, hphase, hempty⟩, ?_, hy⟩, ?_⟩
  · exact List.length_append
  · rw [RoutingActor.removeSlowConsumers_empty]
    exact hsole

/-- The channel is full, so the first session is dropped. -/
theorem exists_dropped (hrun : (lts capacity).Run ls s)
    (hdist : s.distribution = some ⟨[⟨msg, {.loopback 40001}⟩], ∅⟩) (hquiet : Quiet capacity s)
    (hsole : Sole s.actor) :
    ∃ ls' s', (lts capacity).Run ls' s' ∧ s'.distribution = none ∧ Quiet capacity s' ∧
      s'.actor = s.actor.removeSlowConsumers {.loopback 40001} := by
  obtain ⟨actor, distribution, commands, processed, sessions⟩ := s
  obtain ⟨hcommands, x, y, hsessions, hx, hfull, hy⟩ := hquiet
  obtain rfl : distribution = _ := hdist
  obtain rfl : sessions = _ := hsessions
  have hoffer : (lts capacity).step
        ⟨actor, some ⟨[⟨msg, {.loopback 40001}⟩], ∅⟩, commands, processed, [x, y]⟩
        (.trySend (.loopback 40001))
      = some ⟨actor, some ⟨[], {.loopback 40001}⟩, commands, processed, [x, y]⟩ := by
    simp [lts, step, trySend, channel, hsole.registered, hx.phase_eq, hfull, Distribution.consume]
  have hend := (hrun.snoc hoffer).snoc (l := .finish) rfl
  exact ⟨_, _, hend, rfl, ⟨hcommands, x, y, rfl, hx, hfull, hy⟩, rfl⟩

/-- The second session announces and withdraws a route in turn, until the channel is full. -/
theorem exists_filled (n : Nat) (hn : n ≤ capacity) :
    ∃ ls s, (lts capacity).Run ls s ∧ s.distribution = none ∧ Quiet n s ∧ Sole s.actor := by
  induction n with
  | zero => exact exists_empty
  | succ n ih =>
    obtain ⟨_, _, hrun, hidle, hquiet, hsole⟩ := ih (Nat.le_of_succ_le hn)
    obtain ⟨_, _, hrun, hdist, hquiet, hsole⟩ :=
      exists_distributing hrun hidle hquiet hsole (if n % 2 = 0 then .add else .remove)
    exact exists_queued hrun hdist hquiet hsole hn

/-- An idle actor takes a subscribe command. -/
theorem exists_taken {addr : SocketAddr} {vni : Vni} {c tx : SessionId} {rest : List Event}
    (hrun : (lts capacity).Run ls s) (hidle : s.distribution = none)
    (hcommands : s.commands = (c, .subscribe addr vni tx) :: rest) :
    ∃ ls' s', (lts capacity).Run ls' s' ∧ s'.distribution = none ∧
      s'.actor = (s.actor.handleSubscribe addr vni).1 := by
  -- The actor collects the stored routes of the VNI in some order.
  obtain ⟨routes, hroutes⟩ := Quot.exists_rep (s.actor.handleSubscribe addr vni).2
  have hrecv : (lts capacity).step s (.recv [] routes) = some
      { actor := (s.actor.handleSubscribe addr vni).1
        distribution := some ⟨[], ∅⟩
        commands := rest
        processed := s.processed ++ [(c, .subscribe addr vni tx)]
        sessions := s.sessions.modify tx fun x => x.receive routes } := by
    have hreply : (routes : Multiset (Destination × NextHop))
        = (s.actor.handleSubscribe addr vni).2 := hroutes
    simp [lts, step, recv, hidle, hcommands, RoutingActor.handle, RoutingActor.collectedRoutes,
      answer, hreply]
  have hend := (hrun.snoc hrecv).snoc (l := .finish) rfl
  exact ⟨_, _, hend, rfl, RoutingActor.removeSlowConsumers_empty _⟩

/-- The first session subscribes to a VNI. -/
theorem exists_subscribed (hrun : (lts capacity).Run ls s) (hidle : s.distribution = none)
    (hquiet : Quiet n s) (vni : Vni) :
    ∃ ls' s', (lts capacity).Run ls' s' ∧ s'.distribution = none ∧
      s'.actor = (s.actor.handleSubscribe (.loopback 40001) vni).1 := by
  obtain ⟨actor, distribution, commands, processed, sessions⟩ := s
  obtain ⟨hcommands, ⟨_, _, rx, _, toClient, client, sent⟩, y, hsessions, ⟨rfl, rfl, rfl⟩, -⟩ :=
    hquiet
  obtain rfl : commands = [] := hcommands
  obtain rfl : sessions = _ := hsessions
  have hsend := hrun.snoc (l := .session 0 (.command (.subscribe vni))) rfl
  have hread : (lts capacity).Run _
      ⟨actor, distribution, [(0, .subscribe (.loopback 40001) vni 0)], processed, _⟩ :=
    hsend.snoc (l := .session 0 .read) rfl
  have htaken := exists_taken hread hidle rfl
  exact htaken

/-- **No capacity protects the table.** The client at port 40001 is the only subscriber of VNI 100
and does not read. The client at port 40002 sends updates on the VNI, one more than the channel
takes. Then the first client subscribes to VNI 200. -/
theorem exists_malformed (capacity : Nat) :
    ∃ ls s, (lts capacity).Run ls s ∧ s.distribution = none ∧
      s.actor.subscriptions.lookup ⟨100⟩ = some ∅ ∧
      .loopback 40001 ∈ s.actor.subscribers ⟨200⟩ ∧ .loopback 40001 ∉ s.actor.peers := by
  obtain ⟨_, _, hrun, hidle, hquiet, hsole⟩ := exists_filled capacity le_rfl
  obtain ⟨_, s, hrun, hdist, hquiet, hsole⟩ :=
    exists_distributing hrun hidle hquiet hsole (if capacity % 2 = 0 then .add else .remove)
  obtain ⟨_, s₁, hrun, hidle, hquiet, hdropped⟩ := exists_dropped hrun hdist hquiet hsole
  obtain ⟨ls, s₂, hrun, hidle, hsubscribed⟩ := exists_subscribed hrun hidle hquiet ⟨200⟩
  refine ⟨ls, s₂, hrun, hidle, ?_, ?_, ?_⟩
  · have hother : s₂.actor.subscriptions.lookup ⟨100⟩
        = s₁.actor.subscriptions.lookup ⟨100⟩ := by
      rw [hsubscribed]
      exact Finmap.lookup_insert_of_ne _ (by decide)
    have hlookup : s₁.actor.subscriptions.lookup ⟨100⟩
        = (s.actor.subscriptions.lookup ⟨100⟩).map fun subs => subs \ {.loopback 40001} := by
      rw [hdropped]
      exact HashMap.lookup_mapValues ..
    rw [hother, hlookup, hsole.subscribed]
    rfl
  · rw [hsubscribed]
    exact (RoutingActor.mem_subscribers_handleSubscribe ..).mpr (Or.inl ⟨rfl, rfl⟩)
  · have hpeers : s₂.actor.peers = s₁.actor.peers := by
      rw [hsubscribed]
      rfl
    rw [hpeers, hdropped, RoutingActor.mem_peers_removeSlowConsumers]
    simp

end System

end RustBond
