import Mathlib.Data.List.Forall2
import RustBond.Proofs.Server.Ownership

/-!
# `RustBond.Proofs.Server.Isolation`: VNIs do not interfere

An observer of the VNI `v` sees the commands on `v` and those that open and close a peer
(`Turn.concerning`). Two runs of the actor that look the same to it agree in all that there is
to see of `v`: the routes, their owners and the subscribers in the end, the snapshots that were
returned, and the updates that were offered to each peer (`same_of_concerning`).

The proof is by unwinding. A foreign command leaves the view of `v` as it is, and shows nothing
(`foreign_turn`). A command that is seen does the same to equal views (`seen_turn`). Only the
order in which a disconnect withdraws its routes is not determined by the view.

No channel is full in these runs. The removal of a slow consumer takes away the subscriptions to
all VNIs, whatever the VNI of the message that did not fit.
-/

set_option autoImplicit false

namespace RustBond

/-- The command is about the VNI, or about a peer and so about all VNIs. -/
def RoutingCommand.concerns (v : Vni) (cmd : RoutingCommand) : Bool :=
  match cmd with
  | .peerConnected _ _ => true
  | .peerDisconnected _ => true
  | .subscribe _ vni _ => decide (vni = v)
  | .unsubscribe _ vni => decide (vni = v)
  | .update _ _ vni _ _ => decide (vni = v)
  | .getStats => false

/-- What an observer of the VNI sees of a turn. -/
def Turn.concerning (v : Vni) (t : Turn) : Option RoutingCommand :=
  if t.cmd.concerns v then some t.cmd else none

/-- The message is an update on a route of the VNI. -/
def Message.isOn (v : Vni) (m : Message) : Bool :=
  match m with
  | .update _ vni _ _ => decide (vni = v)
  | _ => false

namespace RoutingActor

/-- The turns with their outcomes. -/
def outcomes : RoutingActor → List Turn → List (Turn × Outcome)
  | _, [] => []
  | s, t :: turns =>
    (t, s.handle t.cmd t.owned) ::
      outcomes ((s.handle t.cmd t.owned).actor.removeSlowConsumers t.slow) turns

/-- The snapshot of the VNI that a turn returns, with the channel it is returned on. -/
def snapshotOn (v : Vni) (x : Turn × Outcome) :
    Option (SessionId × Finset (Destination × NextHop)) :=
  match x.1.cmd, x.2.reply with
  | .subscribe _ vni _, .routes responseTx routes =>
    if vni = v then some (responseTx, routes.toFinset) else none
  | _, _ => none

/-- The snapshots of the VNI, in order. -/
def snapshots (v : Vni) (turns : List Turn) :
    List (SessionId × Finset (Destination × NextHop)) :=
  (new.outcomes turns).filterMap (snapshotOn v)

/-- The updates on the VNI that a turn offers to the address `a`, if it has a channel. -/
def offersOn (v : Vni) (a : SocketAddr) (out : Outcome) : List Message :=
  if a ∈ out.actor.peers then (offeredTo a out.deliveries).filter (Message.isOn v) else []

/-- The updates on the VNI that are offered to the address `a`, in order, those of one turn
together. -/
def offers (v : Vni) (a : SocketAddr) (turns : List Turn) : List (List Message) :=
  ((new.outcomes turns).map fun x => offersOn v a x.2).filter fun msgs => msgs ≠ []

/-- The two states agree in all that there is of the VNI, and in the channels. -/
structure SameView (v : Vni) (s s' : RoutingActor) : Prop where
  routes : ∀ destination nextHop,
    (v, destination, nextHop) ∈ s.routes ↔ (v, destination, nextHop) ∈ s'.routes
  owners : ∀ destination nextHop, s.routeOwners.lookup (v, destination, nextHop)
    = s'.routeOwners.lookup (v, destination, nextHop)
  subscribers : s.subscribers v = s'.subscribers v
  peers : s.peers = s'.peers

variable {v : Vni} {s s' : RoutingActor} {t t' : Turn}

/-! ### Turns of a run -/

/-- One more turn adds its own outcome, computed in the state that the run has reached. -/
theorem outcomes_snoc {turns : List Turn} {s₀ : RoutingActor}
    (h : turns.foldlM system.step s₀ = some s) (t : Turn) :
    s₀.outcomes (turns ++ [t]) = s₀.outcomes turns ++ [(t, s.handle t.cmd t.owned)] := by
  induction turns generalizing s₀ with
  | nil =>
    cases h
    rfl
  | cons t₀ turns ih =>
    rw [List.foldlM_cons, Option.bind_eq_bind, Option.bind_eq_some_iff] at h
    obtain ⟨s₁, hstep, hrest⟩ := h
    obtain ⟨-, -, rfl⟩ := turn_eq_some_iff.mp hstep
    rw [List.cons_append, outcomes, ih hrest]
    rfl

/-- The same for runs from the start. -/
theorem outcomes_of_run {turns : List Turn} (hrun : system.Run turns s) (t : Turn) :
    new.outcomes (turns ++ [t]) = new.outcomes turns ++ [(t, s.handle t.cmd t.owned)] :=
  outcomes_snoc ((Lts.run_iff_exec turns s).mp hrun) t

/-- The command as an event of the session that owns the channel in it. -/
def eventOf (cmd : RoutingCommand) : Event :=
  match cmd with
  | .peerConnected addr tx => (tx, .peerConnected addr tx)
  | cmd => (0, cmd)

/-- The command of an event is the command it was made for. -/
theorem eventOf_snd (cmd : RoutingCommand) : (eventOf cmd).2 = cmd := by
  cases cmd with
  | _ => rfl

/-- A peer connects with the channel of its own session. -/
theorem eventOf_fst {cmd : RoutingCommand} {addr : SocketAddr} {tx : SessionId}
    (h : (eventOf cmd).2 = .peerConnected addr tx) : tx = (eventOf cmd).1 := by
  cases cmd with
  | peerConnected => cases h; rfl
  | _ => cases h

/-- The tables after a turn make the steps of the history. -/
theorem tables_of_turn (hstep : system.step s t = some s') (hfast : t.slow = ∅) :
    (∀ r, s'.routeOwners.lookup r
        = Event.ownerStep r (s.routeOwners.lookup r) (eventOf t.cmd)) ∧
      (∀ a v, decide (a ∈ s'.subscribers v)
        = Event.subscriberStep a v (decide (a ∈ s.subscribers v)) (eventOf t.cmd)) ∧
      ∀ a, s'.peers.lookup a = Event.holderStep a (s.peers.lookup a) (eventOf t.cmd) := by
  obtain ⟨hord, rfl⟩ := turn_of_fast hstep hfast
  have hcmd := eventOf_snd t.cmd
  rw [← hcmd] at hord
  refine ⟨fun r => ?_, fun a v => ?_, fun a => ?_⟩
  · rw [← lookup_routeOwners_handle hord, hcmd]
  · rw [← mem_subscribers_handle s (eventOf t.cmd) t.owned, hcmd]
  · rw [← lookup_peers_handle t.owned (fun _ _ h => eventOf_fst h), hcmd]

/-- The views agree if the owners, the subscribers and the channels do. The routes are those
with an owner. -/
theorem sameView_of_owners (hstored : s.Stored) (hstored' : s'.Stored)
    (howners : ∀ destination nextHop, s.routeOwners.lookup (v, destination, nextHop)
      = s'.routeOwners.lookup (v, destination, nextHop))
    (hsubscribers : ∀ a, decide (a ∈ s.subscribers v) = decide (a ∈ s'.subscribers v))
    (hpeers : ∀ a, s.peers.lookup a = s'.peers.lookup a) : SameView v s s' where
  routes destination nextHop := by rw [hstored, hstored', howners]
  owners := howners
  subscribers := Finset.ext fun a => decide_eq_decide.mp (hsubscribers a)
  peers := Finmap.ext_lookup hpeers

/-- What looks the same from the one state looks the same from the other. -/
theorem SameView.symm (h : SameView v s s') : SameView v s' s where
  routes destination nextHop := (h.routes destination nextHop).symm
  owners destination nextHop := (h.owners destination nextHop).symm
  subscribers := h.subscribers.symm
  peers := h.peers.symm

/-- The view of a VNI can be compared along several states. -/
theorem SameView.trans {s'' : RoutingActor} (h : SameView v s s') (h' : SameView v s' s'') :
    SameView v s s'' where
  routes destination nextHop := (h.routes destination nextHop).trans (h'.routes destination nextHop)
  owners destination nextHop := (h.owners destination nextHop).trans (h'.owners destination nextHop)
  subscribers := h.subscribers.trans h'.subscribers
  peers := h.peers.trans h'.peers

/-! ### Foreign commands -/

/-- The steps of the history at a foreign command do not touch the VNI. -/
theorem steps_of_foreign {cmd : RoutingCommand} (hforeign : cmd.concerns v = false) :
    (∀ o destination nextHop, Event.ownerStep (v, destination, nextHop) o (eventOf cmd) = o) ∧
      (∀ a b, Event.subscriberStep a v b (eventOf cmd) = b) ∧
      ∀ a o, Event.holderStep a o (eventOf cmd) = o := by
  cases cmd with
  | peerConnected addr tx => cases hforeign
  | peerDisconnected addr => cases hforeign
  | subscribe addr vni responseTx =>
    have hne : vni ≠ v := of_decide_eq_false hforeign
    exact ⟨fun _ _ _ => rfl, fun a b => if_neg fun h => hne h.2, fun _ _ => rfl⟩
  | unsubscribe addr vni =>
    have hne : vni ≠ v := of_decide_eq_false hforeign
    exact ⟨fun _ _ _ => rfl, fun a b => if_neg fun h => hne h.2, fun _ _ => rfl⟩
  | update fromAddr action vni destination nextHop =>
    have hne : vni ≠ v := of_decide_eq_false hforeign
    refine ⟨fun o d n => ?_, fun _ _ => rfl, fun _ _ => rfl⟩
    -- The key of the update has another VNI.
    have hkey : (vni, destination, nextHop) ≠ (v, d, n) := fun h => hne (congrArg Prod.fst h)
    cases action with
    | add => exact if_neg hkey
    | remove => exact if_neg hkey
  | getStats => exact ⟨fun _ _ _ => rfl, fun _ _ => rfl, fun _ _ => rfl⟩

/-- A foreign command offers no update on the VNI. -/
theorem offersOn_of_foreign (s : RoutingActor) {cmd : RoutingCommand} (owned : List RouteKey)
    (hforeign : cmd.concerns v = false) (a : SocketAddr) :
    offersOn v a (s.handle cmd owned) = [] := by
  have hoffered : (offeredTo a (s.handle cmd owned).deliveries).filter (Message.isOn v) = [] := by
    cases cmd with
    | peerConnected addr tx => cases hforeign
    | peerDisconnected addr => cases hforeign
    | subscribe addr vni responseTx => rfl
    | unsubscribe addr vni => rfl
    | update fromAddr action vni destination nextHop =>
      show (offeredTo a (s.handleUpdate fromAddr action vni destination nextHop).2).filter _ = []
      have hother : Message.isOn v (.update action vni destination nextHop) = false := hforeign
      -- The only message that is offered is the update itself.
      rw [offeredTo_handleUpdate]
      split
      · rw [List.filter_cons_of_neg (by rw [hother]; exact Bool.false_ne_true), List.filter_nil]
      · rfl
    | getStats => rfl
  unfold offersOn
  rw [hoffered, ite_self]

/-- A turn on another VNI returns no snapshot of this one. -/
theorem snapshotOn_of_foreign (s : RoutingActor) (t : Turn) (hforeign : t.cmd.concerns v = false) :
    snapshotOn v (t, s.handle t.cmd t.owned) = none := by
  obtain ⟨session, cmd, owned, slow⟩ := t
  cases cmd with
  | subscribe addr vni responseTx => exact if_neg (of_decide_eq_false hforeign)
  | _ => rfl

/-- A foreign command leaves the view as it is, and shows nothing. -/
theorem foreign_turn {turns : List Turn} (hrun : system.Run turns s)
    (hstep : system.step s t = some s') (hfast : t.slow = ∅)
    (hforeign : t.concerning v = none) :
    SameView v s s' ∧ snapshots v (turns ++ [t]) = snapshots v turns ∧
      ∀ a, offers v a (turns ++ [t]) = offers v a turns := by
  have hcmd : t.cmd.concerns v = false := by
    unfold Turn.concerning at hforeign
    simpa using hforeign
  obtain ⟨howners, hsubscribers, hpeers⟩ := tables_of_turn hstep hfast
  obtain ⟨howner, hsubscriber, hholder⟩ := steps_of_foreign hcmd
  refine ⟨?_, ?_, fun a => ?_⟩
  · refine sameView_of_owners (owner_eq_of_run hrun).1 (owner_eq_of_run (hrun.snoc hstep)).1
      (fun d n => ?_) (fun a => ?_) (fun a => ?_)
    · rw [howners, howner]
    · rw [hsubscribers, hsubscriber]
    · rw [hpeers, hholder]
  · unfold snapshots
    rw [outcomes_of_run hrun, List.filterMap_append,
      List.filterMap_cons_none (snapshotOn_of_foreign s t hcmd), List.filterMap_nil,
      List.append_nil]
  · unfold offers
    rw [outcomes_of_run hrun, List.map_append, List.filter_append, List.map_singleton,
      offersOn_of_foreign s t.owned hcmd]
    simp

/-! ### Commands that are seen -/

/-- The removals that a disconnect offers on the VNI: those of the routes of the VNI that the
address owns, if `a` is another subscriber. -/
theorem withdrawals_on (s : RoutingActor) (addr : SocketAddr) (owned : List RouteKey)
    (a : SocketAddr) :
    (offeredTo a ((s.unregister addr).withdrawOwned owned).2).filter (Message.isOn v)
      = (owned.filter fun r => decide (r.1 = v ∧ a ∈ s.subscribers v ∧ addr ≠ a)).map
          fun r => .update .remove r.1 r.2.1 r.2.2 := by
  rw [offeredTo_withdrawOwned, List.filter_map, List.filter_filter]
  refine congrArg _ (List.filter_congr fun r _ => ?_)
  simp only [Function.comp, Message.isOn, mem_subscribers_unregister, Bool.decide_and]
  by_cases hr : r.1 = v
  · simp [hr]
  · simp [hr]

/-- A disconnect withdraws the same routes of the VNI, in some order. -/
theorem perm_withdrawals (h : SameView v s s') {addr : SocketAddr} {owned owned' : List RouteKey}
    (hord : (owned : Multiset RouteKey) = s.collectedRoutes (.peerDisconnected addr))
    (hord' : (owned' : Multiset RouteKey) = s'.collectedRoutes (.peerDisconnected addr))
    (a : SocketAddr) :
    ((offeredTo a ((s.unregister addr).withdrawOwned owned).2).filter (Message.isOn v)).Perm
      ((offeredTo a ((s'.unregister addr).withdrawOwned owned').2).filter (Message.isOn v)) := by
  have hnodup := nodup_owned hord
  have hnodup' := nodup_owned hord'
  rw [withdrawals_on, withdrawals_on, h.subscribers]
  refine List.Perm.map _ ((List.perm_ext_iff_of_nodup (hnodup.filter _) (hnodup'.filter _)).mpr ?_)
  rintro ⟨vni, destination, nextHop⟩
  simp only [List.mem_filter, mem_owned_iff hord, mem_owned_iff hord', decide_eq_true_eq]
  -- Only the routes of the VNI are left, and on these the owners agree.
  constructor
  · rintro ⟨howner, rfl, hsub⟩
    exact ⟨h.owners destination nextHop ▸ howner, rfl, hsub⟩
  · rintro ⟨howner, rfl, hsub⟩
    exact ⟨(h.owners destination nextHop).symm ▸ howner, rfl, hsub⟩

/-- What a command that is seen offers on the VNI, up to the order of the removals. -/
theorem perm_offeredTo (h : SameView v s s') {cmd : RoutingCommand} {owned owned' : List RouteKey}
    (hseen : cmd.concerns v = true) (hord : (owned : Multiset RouteKey) = s.collectedRoutes cmd)
    (hord' : (owned' : Multiset RouteKey) = s'.collectedRoutes cmd) (a : SocketAddr) :
    ((offeredTo a (s.handle cmd owned).deliveries).filter (Message.isOn v)).Perm
      ((offeredTo a (s'.handle cmd owned').deliveries).filter (Message.isOn v)) := by
  cases cmd with
  | peerConnected addr tx => exact .refl _
  | peerDisconnected addr => exact perm_withdrawals h hord hord' a
  | subscribe addr vni responseTx => exact .refl _
  | unsubscribe addr vni => exact .refl _
  | update fromAddr action vni destination nextHop =>
    have hvni : vni = v := of_decide_eq_true hseen
    subst hvni
    show ((offeredTo a (s.handleUpdate fromAddr action vni destination nextHop).2).filter _).Perm
      ((offeredTo a (s'.handleUpdate fromAddr action vni destination nextHop).2).filter _)
    rw [offeredTo_handleUpdate, offeredTo_handleUpdate, h.subscribers]
  | getStats => exact .refl _

/-- In states that look the same, a command on the VNI is answered by the same snapshot. -/
theorem snapshotOn_eq (h : SameView v s s') (hseen : t.cmd.concerns v = true)
    (hsame : t.cmd = t'.cmd) :
    snapshotOn v (t, s.handle t.cmd t.owned) = snapshotOn v (t', s'.handle t'.cmd t'.owned) := by
  obtain ⟨session, cmd, owned, slow⟩ := t
  obtain ⟨session', cmd', owned', slow'⟩ := t'
  cases hsame
  cases cmd with
  | subscribe addr vni responseTx =>
    have hvni : vni = v := of_decide_eq_true hseen
    subst hvni
    -- A snapshot is compared as a set, and the views have the same routes.
    have hroutes : (s.handleSubscribe addr vni).2.toFinset
        = (s'.handleSubscribe addr vni).2.toFinset := by
      ext route
      rw [Multiset.mem_toFinset, Multiset.mem_toFinset, mem_handleSubscribe_snd,
        mem_handleSubscribe_snd, h.routes]
    show (if vni = vni then some (responseTx, (s.handleSubscribe addr vni).2.toFinset) else none)
      = if vni = vni then some (responseTx, (s'.handleSubscribe addr vni).2.toFinset) else none
    rw [hroutes]
  | _ => rfl

/-- A command that is seen does the same to equal views, and shows the same. -/
theorem seen_turn {turns turns' : List Turn} {u u' : RoutingActor} {cmd : RoutingCommand}
    (hrun : system.Run turns s) (hrun' : system.Run turns' s') (hstep : system.step s t = some u)
    (hstep' : system.step s' t' = some u') (hfast : t.slow = ∅) (hfast' : t'.slow = ∅)
    (hcmd : t.concerning v = some cmd) (hcmd' : t'.concerning v = some cmd)
    (h : SameView v s s') :
    SameView v u u' ∧
      snapshotOn v (t, s.handle t.cmd t.owned) = snapshotOn v (t', s'.handle t'.cmd t'.owned) ∧
      ∀ a, (offersOn v a (s.handle t.cmd t.owned)).Perm
        (offersOn v a (s'.handle t'.cmd t'.owned)) := by
  have hseen : t.cmd.concerns v = true ∧ t.cmd = cmd := by
    unfold Turn.concerning at hcmd
    simpa using hcmd
  have hseen' : t'.cmd.concerns v = true ∧ t'.cmd = cmd := by
    unfold Turn.concerning at hcmd'
    simpa using hcmd'
  have hsame : t.cmd = t'.cmd := hseen.2.trans hseen'.2.symm
  obtain ⟨hord, hu⟩ := turn_of_fast hstep hfast
  obtain ⟨hord', hu'⟩ := turn_of_fast hstep' hfast'
  -- Both tables make the same step, from equal views.
  have hview : SameView v u u' := by
    obtain ⟨howners, hsubscribers, hpeers⟩ := tables_of_turn hstep hfast
    obtain ⟨howners', hsubscribers', hpeers'⟩ := tables_of_turn hstep' hfast'
    refine sameView_of_owners (owner_eq_of_run (hrun.snoc hstep)).1
      (owner_eq_of_run (hrun'.snoc hstep')).1 (fun d n => ?_) (fun a => ?_) (fun a => ?_)
    · rw [howners, howners', h.owners, hsame]
    · rw [hsubscribers, hsubscribers', h.subscribers, hsame]
    · rw [hpeers, hpeers', h.peers, hsame]
  refine ⟨hview, snapshotOn_eq h hseen.1 hsame, fun a => ?_⟩
  have hoffered := perm_offeredTo h hseen'.1 (hsame ▸ hord) hord' a
  unfold offersOn
  rw [← hu, ← hu', hview.peers, hsame]
  split
  · exact hoffered
  · exact .refl _

/-! ### Two runs -/

/-- What two runs agree in. -/
structure SameOn (v : Vni) (turns : List Turn) (s : RoutingActor) (turns' : List Turn)
    (s' : RoutingActor) : Prop where
  view : SameView v s s'
  snapshots : snapshots v turns = snapshots v turns'
  offers : ∀ a, List.Forall₂ List.Perm (offers v a turns) (offers v a turns')

/-- One more turn adds what it offers, unless that is nothing. -/
theorem offers_snoc {turns : List Turn} (hrun : system.Run turns s) (t : Turn) (a : SocketAddr) :
    offers v a (turns ++ [t]) = offers v a turns ++
      [offersOn v a (s.handle t.cmd t.owned)].filter fun msgs => msgs ≠ [] := by
  unfold offers
  rw [outcomes_of_run hrun, List.map_append, List.filter_append, List.map_singleton]

/-- Two turns that offer the same in different orders are both listed or both left out. -/
theorem forall₂_filter_singleton {msgs msgs' : List Message} (h : msgs.Perm msgs') :
    List.Forall₂ List.Perm ([msgs].filter fun msgs => msgs ≠ [])
      ([msgs'].filter fun msgs => msgs ≠ []) := by
  by_cases hempty : msgs = []
  · have hempty' : msgs' = [] := by rwa [hempty, List.nil_perm] at h
    rw [hempty, hempty']
    exact .nil
  · have hempty' : msgs' ≠ [] := by
      rintro rfl
      exact hempty (List.perm_nil.mp h)
    simp [hempty, hempty', h]

/-- No turn finds a full channel. -/
def Fast (turns : List Turn) : Prop := ∀ t ∈ turns, t.slow = ∅

/-- A run without full channels is one up to its last turn. -/
theorem Fast.snoc_inv {turns : List Turn} {t : Turn} (h : Fast (turns ++ [t])) :
    Fast turns ∧ t.slow = ∅ :=
  ⟨fun t' ht' => h t' (List.mem_append_left _ ht'),
    h t (List.mem_append_right _ List.mem_cons_self)⟩

/-- **VNIs do not interfere.** Two runs without slow consumers that look the same to an observer
of a VNI agree in the routes, the owners and the subscribers of the VNI, in the snapshots of it
that were returned, and in the updates on it that were offered to each peer. Only the removals
that one disconnect offers may come in another order. -/
theorem same_of_concerning {v : Vni} {turns turns' : List Turn} {s s' : RoutingActor}
    (hrun : system.Run turns s) (hrun' : system.Run turns' s') (hfast : Fast turns)
    (hfast' : Fast turns')
    (hsame : turns.filterMap (Turn.concerning v) = turns'.filterMap (Turn.concerning v)) :
    SameOn v turns s turns' s' := by
  have hunwind : Fast turns → Fast turns' → SameOn v turns s turns' s' := by
    refine hrun.unwind (Q := fun turns s turns' s' => Fast turns → Fast turns' →
      SameOn v turns s turns' s') ?_ ?_ ?_ ?_ hrun' hsame
    · intro _ _
      exact ⟨⟨fun _ _ => Iff.rfl, fun _ _ => rfl, rfl, rfl⟩, rfl, fun _ => .nil⟩
    · intro turns turns' s s' t u hr _ hstep hlow ih hf hf'
      obtain ⟨hf, hslow⟩ := hf.snoc_inv
      obtain ⟨hview, hsnapshots, hoffers⟩ := foreign_turn hr hstep hslow hlow
      have h := ih hf hf'
      refine ⟨hview.symm.trans h.view, hsnapshots.trans h.snapshots, fun a => ?_⟩
      rw [hoffers]
      exact h.offers a
    · intro turns turns' s s' t u _ hr' hstep hlow ih hf hf'
      obtain ⟨hf', hslow⟩ := hf'.snoc_inv
      obtain ⟨hview, hsnapshots, hoffers⟩ := foreign_turn hr' hstep hslow hlow
      have h := ih hf hf'
      refine ⟨h.view.trans hview, h.snapshots.trans hsnapshots.symm, fun a => ?_⟩
      rw [hoffers]
      exact h.offers a
    · intro turns turns' s s' t t' u u' cmd hr hr' hstep hstep' hlow hlow' ih hf hf'
      obtain ⟨hf, hslow⟩ := hf.snoc_inv
      obtain ⟨hf', hslow'⟩ := hf'.snoc_inv
      have h := ih hf hf'
      obtain ⟨hview, hsnapshot, hoffers⟩ :=
        seen_turn hr hr' hstep hstep' hslow hslow' hlow hlow' h.view
      refine ⟨hview, ?_, fun a => ?_⟩
      · have hbefore := h.snapshots
        unfold snapshots at hbefore ⊢
        rw [outcomes_of_run hr, outcomes_of_run hr', List.filterMap_append, List.filterMap_append,
          hbefore]
        exact congrArg _ (by simp only [List.filterMap_cons, hsnapshot, List.filterMap_nil])
      · rw [offers_snoc hr, offers_snoc hr']
        exact List.rel_append (h.offers a) (forall₂_filter_singleton (hoffers a))
  exact hunwind hfast hfast'

/-- A peer subscribes to the VNI 100, and another one adds a route to it. -/
def quiet : List Turn :=
  let turn (c : SessionId) (cmd : RoutingCommand) : Turn := ⟨c, cmd, [], ∅⟩
  [ turn 1 (.peerConnected (.loopback 40001) 1),
    turn 2 (.peerConnected (.loopback 40002) 2),
    turn 1 (.subscribe (.loopback 40001) ⟨100⟩ 1),
    turn 2 (.update (.loopback 40002) .add ⟨100⟩ (makeDest 1) (makeHop 1)) ]

/-- The same, with commands on the VNI 200 in between. -/
def busy : List Turn :=
  let turn (c : SessionId) (cmd : RoutingCommand) : Turn := ⟨c, cmd, [], ∅⟩
  [ turn 1 (.peerConnected (.loopback 40001) 1),
    turn 2 (.peerConnected (.loopback 40002) 2),
    turn 2 (.update (.loopback 40002) .add ⟨200⟩ (makeDest 1) (makeHop 1)),
    turn 1 (.subscribe (.loopback 40001) ⟨100⟩ 1),
    turn 1 (.subscribe (.loopback 40001) ⟨200⟩ 1),
    turn 2 (.update (.loopback 40002) .remove ⟨200⟩ (makeDest 1) (makeHop 1)),
    turn 2 (.update (.loopback 40002) .add ⟨100⟩ (makeDest 1) (makeHop 1)) ]

/-- The theorem on a run with and without some traffic on VNI 200: the observer of VNI 100 sees no
difference. -/
theorem same_of_concerning_busy :
    ∃ s s', system.Run quiet s ∧ system.Run busy s' ∧ SameOn ⟨100⟩ quiet s busy s' := by
  have hrun : system.Run quiet _ := Lts.Run.of_exec (by decide)
  have hrun' : system.Run busy _ := Lts.Run.of_exec (by decide)
  have hfast : Fast quiet := by
    unfold Fast
    decide
  have hfast' : Fast busy := by
    unfold Fast
    decide
  exact ⟨_, _, hrun, hrun', same_of_concerning hrun hrun' hfast hfast' (by decide)⟩

end RoutingActor

end RustBond
