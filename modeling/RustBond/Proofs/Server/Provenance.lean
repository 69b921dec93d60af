import RustBond.Proofs.Server.Convergence

/-!
# `RustBond.Proofs.Server.Provenance`: where the routes come from

Every edit that is anywhere in the system has been written by a client, or is the removal of a
route that a client has added. `Within` says that all edits of a state are of some kind. A step
keeps it if what it writes is of the kind (`within_step`). The removals that the actor makes up for
a peer that has left are the reason why the kind must have the removal of a route with its addition.
-/

set_option autoImplicit false

namespace RustBond

/-- The command for a message carries the message's edit. -/
theorem Message.edit_of_command {msg : Message} {addr : SocketAddr} {c : SessionId}
    {cmd : RoutingCommand} (h : msg.command addr c = some cmd) : cmd.edit = msg.edit := by
  cases msg with
  | hello | keepalive => cases h
  | subscribe | unsubscribe =>
    cases h
    rfl
  | update action vni destination nextHop =>
    cases h
    cases action with
    | add => rfl
    | remove => rfl

/-- The edit that an update asks for. -/
def Action.edit (action : Action) (r : RouteKey) : Edit RouteKey :=
  match action with
  | .add => .insert r
  | .remove => .erase r

/-- An edit stands for one message. -/
theorem edit_mem_edits {msgs : List Message} {action : Action} {r : RouteKey} :
    action.edit r ∈ edits msgs ↔ .update action r.1 r.2.1 r.2.2 ∈ msgs := by
  rw [mem_edits]
  constructor
  · rintro ⟨m, hm, hedit⟩
    cases m with
    | hello | keepalive | subscribe | unsubscribe => cases hedit
    | update action' vni destination nextHop =>
      cases action with
      | add =>
        cases action' with
        | add =>
          cases hedit
          exact hm
        | remove => cases hedit
      | remove =>
        cases action' with
        | add => cases hedit
        | remove =>
          cases hedit
          exact hm
  · intro hm
    refine ⟨_, hm, ?_⟩
    cases action with
    | add => rfl
    | remove => rfl

namespace RoutingActor

variable {Good : Edit RouteKey → Prop} {s : RoutingActor} {cmd : RoutingCommand}
  {owned : List RouteKey}

/-- The actor owns the routes that it has been told of. -/
theorem within_owners (hord : (owned : Multiset RouteKey) = s.collectedRoutes cmd)
    (howners : ∀ r a, s.routeOwners.lookup r = some a → Good (.insert r))
    (hcmd : ∀ e ∈ cmd.edit, Good e) (r : RouteKey) (a : SocketAddr)
    (h : (s.handle cmd owned).actor.routeOwners.lookup r = some a) : Good (.insert r) := by
  have hstep := lookup_routeOwners_handle (e := ((0 : SessionId), cmd)) hord r
  rw [h] at hstep
  cases cmd with
  | peerConnected | subscribe | unsubscribe | getStats => exact howners r a hstep.symm
  | peerDisconnected addr =>
    simp only [Event.ownerStep] at hstep
    split at hstep
    · cases hstep
    · exact howners r a hstep.symm
  | update addr action vni destination nextHop =>
    cases action with
    | add =>
      simp only [Event.ownerStep] at hstep
      split at hstep
      · rename_i heq
        exact heq ▸ hcmd _ rfl
      · exact howners r a hstep.symm
    | remove =>
      simp only [Event.ownerStep] at hstep
      split at hstep
      · cases hstep
      · exact howners r a hstep.symm

/-- The actor distributes what it is told, and the removals of routes that it owns. -/
theorem within_deliveries (hclosed : ∀ r, Good (.insert r) → Good (.erase r))
    (hord : (owned : Multiset RouteKey) = s.collectedRoutes cmd)
    (howners : ∀ r a, s.routeOwners.lookup r = some a → Good (.insert r))
    (hcmd : ∀ e ∈ cmd.edit, Good e) :
    ∀ d ∈ (s.handle cmd owned).deliveries, ∀ e ∈ d.msg.edit, Good e := by
  intro d hd e he
  cases cmd with
  | peerConnected | subscribe | unsubscribe | getStats => cases hd
  | peerDisconnected addr =>
    have hmem : d ∈ ((s.unregister addr).withdrawOwned owned).2 := hd
    rw [withdrawOwned_deliveries, List.mem_filterMap] at hmem
    obtain ⟨r, hr, hmap⟩ := hmem
    obtain ⟨subs, -, rfl⟩ := Option.map_eq_some_iff.mp hmap
    cases he
    exact hclosed r (howners r addr ((mem_owned_iff hord r).mp hr))
  | update addr action vni destination nextHop =>
    have hmem : d ∈ (s.handleUpdate addr action vni destination nextHop).2 := hd
    rw [handleUpdate_snd, List.mem_map] at hmem
    obtain ⟨subs, -, rfl⟩ := hmem
    refine hcmd e ?_
    cases action with
    | add => exact he
    | remove => exact he

end RoutingActor

namespace System

/-- All edits of a state are of the kind. -/
structure Within (Good : Edit RouteKey → Prop) (s : System) : Prop where
  stored : s.actor.Stored
  owners : ∀ r a, s.actor.routeOwners.lookup r = some a → Good (.insert r)
  commands : ∀ e ∈ s.commands, ∀ d ∈ e.2.edit, Good d
  toServer : ∀ x ∈ s.sessions, ∀ e ∈ edits x.toServer, Good e
  free : ∀ c, FreeOf s c fun e => ¬ Good e

/-- What the step makes a client write is of the kind. -/
def WritesWithin (Good : Edit RouteKey → Prop) (l : Label) : Prop :=
  match l with
  | .accept _ subscriptions announced => ∀ e ∈ edits (greeting subscriptions announced), Good e
  | .session _ (.command cmd) => ∀ m, Connection.commandMessage cmd = some m → ∀ e ∈ m.edit, Good e
  | _ => True

variable {Good Good' : Edit RouteKey → Prop} {capacity : Nat} {s s' : System} {l : Label}

/-- A state within one kind is within every wider one. -/
theorem Within.mono (h : Within Good s) (himp : ∀ e, Good e → Good' e) : Within Good' s where
  stored := h.stored
  owners r a hr := himp _ (h.owners r a hr)
  commands e he d hd := himp d (h.commands e he d hd)
  toServer x hx e he := himp e (h.toServer x hx e he)
  free c x hx := by
    obtain ⟨⟨hreceived, hway⟩, hcome⟩ := h.free c x hx
    exact ⟨⟨fun r hr => hreceived r (mt (himp _) hr),
        fun e he hbad => hway e he (mt (himp e) hbad)⟩,
      fun e he hbad => hcome e he (mt (himp e) hbad)⟩

/-- A route in the table is of the kind. -/
theorem Within.routes (h : Within Good s) {r : RouteKey} (hr : r ∈ s.actor.routes) :
    Good (.insert r) := by
  obtain ⟨a, ha⟩ := Option.isSome_iff_exists.mp ((h.stored r).mp hr)
  exact h.owners r a ha

/-- A client holds routes of the kind only. -/
theorem Within.received (h : Within Good s) {c : SessionId} {x : Session}
    (hx : s.sessions[c]? = some x) {r : RouteKey} (hr : r ∈ x.client.receivedRoutes) :
    Good (.insert r) := by
  by_contra hbad
  exact (h.free c x hx).1.1 r hbad hr

/-- What is on its way to a client is of the kind. -/
theorem Within.way (h : Within Good s) {c : SessionId} {x : Session}
    (hx : s.sessions[c]? = some x) {e : Edit RouteKey} (he : e ∈ edits x.way) : Good e := by
  by_contra hbad
  exact (h.free c x hx).1.2 e he hbad

/-- A session tells the actor of the edits that it has read, and of no others. -/
theorem within_act {x y : Session} {c : SessionId} {action : SessionAction}
    {cmds : List RoutingCommand} (h : ∀ e ∈ edits x.toServer, Good e)
    (hwrites : WritesWithin Good (.session c action)) (hact : x.act c action = some (y, cmds)) :
    (∀ e ∈ edits y.toServer, Good e) ∧ ∀ cmd ∈ cmds, ∀ e ∈ cmd.edit, Good e := by
  cases Session.effect_of_act hact with
  | wrote hmsg haddr hphase htoServer hsent =>
    refine ⟨fun e he => ?_, fun cmd hcmd => by cases hcmd⟩
    rw [htoServer, edits_append, List.mem_append] at he
    rcases he with he | he
    · exact h e he
    · obtain ⟨m, hm, hedit⟩ := mem_edits.mp he
      cases List.mem_singleton.mp hm
      exact hwrites _ hmsg e hedit
  | took htook haddr hrunning hphase hrest hsent =>
    rw [htook] at h
    refine ⟨fun e he => h e ?_, fun cmd hcmd e he => ?_⟩
    · rw [edits_cons, List.mem_append, ← hrest]
      exact .inr he
    · rw [Message.edit_of_command (Option.mem_toList.mp hcmd)] at he
      exact h e (mem_edits.mpr ⟨_, List.mem_cons_self, he⟩)
  | moved haddr hphase htoServer =>
    exact ⟨fun e he => h e (htoServer ▸ he), fun cmd hcmd => by cases hcmd⟩
  | left haddr hstopped hphase htoServer =>
    refine ⟨fun e he => h e (htoServer ▸ he), fun cmd hcmd e he => ?_⟩
    cases List.mem_singleton.mp hcmd
    cases he

/-- A step keeps the state within a kind of edits, provided that what it makes a client write is
of that kind. The kind must allow the withdrawal of what it allows to add, since the server
withdraws the routes of a client that leaves. -/
theorem within_step (hclosed : ∀ r, Good (.insert r) → Good (.erase r)) {ls : List Label}
    (hrun : (lts capacity).Run ls s) (h : Within Good s) (hwrites : WritesWithin Good l)
    (hs : (lts capacity).step s l = some s') : Within Good s' := by
  have hcmd : ∀ {e : Event} {commands : List Event}, s.commands = e :: commands →
      ∀ d ∈ e.2.edit, Good d := fun hcommands => h.commands _ (hcommands ▸ List.mem_cons_self)
  have hfree : ∀ c, FreeOf s' c fun e => ¬ Good e := by
    intro c
    refine freeOf_step (wired_of_run hrun) (awaiting_of_run hrun) (bounded_of_run hrun) (h.free c)
      hs ?_ ?_
    · exact fun _ _ _ _ _ r hr _ => not_not_intro (h.routes hr)
    · intro owned routes e commands x _ hcommands hord _ _ edit hedit
      obtain ⟨m, hm, hkind⟩ := mem_edits.mp hedit
      obtain ⟨d, hd, rfl⟩ := List.mem_map.mp hm
      exact not_not_intro (RoutingActor.within_deliveries hclosed hord h.owners (hcmd hcommands) d
        (List.mem_filter.mp hd).1 edit hkind)
  cases l with
  | accept addr subscriptions announced =>
    obtain ⟨-, x, -, -, -, -, htoServer, -, -, rfl⟩ := accept_eq_some hs
    refine ⟨h.stored, h.owners, ?_, ?_, hfree⟩
    · intro e he d hd
      rcases List.mem_append.mp he with he | he
      · exact h.commands e he d hd
      · cases List.mem_singleton.mp he
        cases hd
    · intro y hy
      rcases List.mem_append.mp hy with hy | hy
      · exact h.toServer y hy
      · cases List.mem_singleton.mp hy
        rw [htoServer]
        exact hwrites
  | session c action =>
    obtain ⟨x, y, cmds, hx, hact, rfl⟩ := sessionStep_eq_some hs
    obtain ⟨hstream, hcmds⟩ := within_act (h.toServer x (List.mem_of_getElem? hx)) hwrites hact
    refine ⟨h.stored, h.owners, ?_, ?_, hfree⟩
    · intro e he d hd
      rcases List.mem_append.mp he with he | he
      · exact h.commands e he d hd
      · obtain ⟨cmd, hmem, rfl⟩ := List.mem_map.mp he
        exact hcmds cmd hmem d hd
    · intro z hz
      rcases List.mem_or_eq_of_mem_set hz with hz | rfl
      · exact h.toServer z hz
      · exact hstream
  | recv owned routes =>
    obtain ⟨c, cmd, commands, sessions, -, hcommands, hord, hanswer, rfl⟩ := recv_eq_some hs
    refine ⟨RoutingActor.stored_handle (e := (c, cmd)) hord h.stored,
      RoutingActor.within_owners hord h.owners (hcmd hcommands), ?_, ?_, hfree⟩
    · exact fun e he => h.commands e (hcommands ▸ List.mem_cons_of_mem _ he)
    · intro y hy
      obtain ⟨i, hi⟩ := List.getElem?_of_mem hy
      rcases getElem?_answer hanswer i with ⟨collected, -, -, heq⟩ | ⟨-, heq⟩
      · rw [heq, Option.map_eq_some_iff] at hi
        obtain ⟨x, hx, rfl⟩ := hi
        have hstream := h.toServer x (List.mem_of_getElem? hx)
        rcases receive_cases x routes with hreceive | ⟨vni, -, hreceive⟩
        · rw [hreceive]
          exact hstream
        · rw [hreceive]
          exact hstream
      · exact h.toServer y (List.mem_of_getElem? (heq ▸ hi))
  | trySend addr =>
    obtain ⟨msg, targets, rest, slow, -, -, ⟨-, rfl⟩ | ⟨tx, x, hchannel, -, -, rfl⟩ | ⟨-, rfl⟩⟩ :=
      trySend_eq_some hs
    · exact ⟨h.stored, h.owners, h.commands, h.toServer, hfree⟩
    · refine ⟨h.stored, h.owners, h.commands, fun y hy => ?_, hfree⟩
      rcases List.mem_or_eq_of_mem_set hy with hy | rfl
      · exact h.toServer y hy
      · exact h.toServer x (List.mem_of_getElem? (channel_eq_some hchannel).2)
    · exact ⟨h.stored, h.owners, h.commands, h.toServer, hfree⟩
  | finish =>
    obtain ⟨slow, -, rfl⟩ := finish_eq_some hs
    exact ⟨h.stored, h.owners, h.commands, h.toServer, hfree⟩

/-- At the start there are no edits at all. -/
theorem within_new : Within Good new where
  stored := by
    intro r
    simp [new, RoutingActor.new]
  owners := by
    intro r a h
    simp [new, RoutingActor.new] at h
  commands := by simp [new]
  toServer := by simp [new]
  free := by
    intro c x hx
    simp [new] at hx

/-- A client has written the edit, or the addition that it undoes. -/
def Written (s : System) (e : Edit RouteKey) : Prop :=
  ∃ x ∈ s.sessions, e ∈ edits x.sent ∨ .insert e.target ∈ edits x.sent

/-- What has been written stays written. -/
theorem written_step {e : Edit RouteKey} (hs : (lts capacity).step s l = some s')
    (h : Written s e) : Written s' e := by
  obtain ⟨x, hx, hsent⟩ := h
  obtain ⟨c, hc⟩ := List.getElem?_of_mem hx
  obtain ⟨y, hy, -, hsubset⟩ := stays_of_step hs hc
  have hedits : ∀ {e}, e ∈ edits x.sent → e ∈ edits y.sent := by
    intro e he
    obtain ⟨m, hm, hedit⟩ := mem_edits.mp he
    exact mem_edits.mpr ⟨m, hsubset hm, hedit⟩
  exact ⟨y, List.mem_of_getElem? hy, hsent.imp hedits hedits⟩

/-- What a step makes a client write is written. -/
theorem writes_written (hs : (lts capacity).step s l = some s') : WritesWithin (Written s') l := by
  cases l with
  | accept addr subscriptions announced =>
    obtain ⟨-, x, -, -, -, -, htoServer, hsent, -, rfl⟩ := accept_eq_some hs
    intro e he
    refine ⟨x, List.mem_append_right _ (List.mem_singleton_self x), .inl ?_⟩
    rw [hsent, htoServer]
    exact he
  | session c action =>
    cases action with
    | command cmd =>
      intro m hm e he
      obtain ⟨x, y, cmds, hx, hact, rfl⟩ := sessionStep_eq_some hs
      simp only [Session.act, hm, Option.map_some, Option.some.injEq, Prod.mk.injEq] at hact
      obtain ⟨rfl, -⟩ := hact
      refine ⟨_, List.mem_of_getElem? (getElem?_set_of_some hx _ c ▸ if_pos rfl), .inl ?_⟩
      exact mem_edits.mpr ⟨m, List.mem_append_right _ (List.mem_singleton_self m), he⟩
    | deliver | read | respond | flush | stop | disconnect => trivial
  | recv | trySend | finish => trivial

/-- Everything in a reachable state has been written by some client, or undoes what has been. -/
theorem within_of_run {ls : List Label} (hrun : (lts capacity).Run ls s) :
    Within (Written s) s := by
  induction hrun with
  | nil => exact within_new
  | snoc hrun hs ih =>
    refine within_step ?_ hrun (ih.mono fun e => written_step hs) (writes_written hs) hs
    rintro r ⟨x, hx, hsent⟩
    exact ⟨x, hx, .inr (hsent.elim id id)⟩

/-- In every run, whatever is lost, dropped, answered late or withdrawn for somebody who has left: a
route that the server stores, and a route that a client has received, was announced by a client, as
the server decodes it. An update on the way to a client was written by a client, or it is the
removal of a route that was announced. -/
theorem provenance_of_run {ls : List Label} (hrun : (lts capacity).Run ls s) :
    (∀ r : RouteKey, r ∈ s.actor.routes →
      ∃ y ∈ s.sessions, .update .add r.1 r.2.1 r.2.2 ∈ y.sent) ∧
    ∀ (c : SessionId) (x : Session), s.sessions[c]? = some x →
      (∀ r : RouteKey, r ∈ x.client.receivedRoutes →
        ∃ y ∈ s.sessions, .update .add r.1 r.2.1 r.2.2 ∈ y.sent) ∧
      ∀ (action : Action) (r : RouteKey), .update action r.1 r.2.1 r.2.2 ∈ x.way →
        ∃ y ∈ s.sessions, .update action r.1 r.2.1 r.2.2 ∈ y.sent ∨
          .update .add r.1 r.2.1 r.2.2 ∈ y.sent := by
  have h := within_of_run hrun
  have hroute : ∀ {r : RouteKey}, Written s (.insert r) →
      ∃ y ∈ s.sessions, .update .add r.1 r.2.1 r.2.2 ∈ y.sent := by
    rintro r ⟨y, hy, hsent⟩
    exact ⟨y, hy, edit_mem_edits.mp (hsent.elim id id)⟩
  refine ⟨fun r hr => hroute (h.routes hr), fun c x hx => ⟨?_, ?_⟩⟩
  · exact fun r hr => hroute (h.received hx hr)
  · intro action r hway
    obtain ⟨y, hy, hsent⟩ := h.way hx (edit_mem_edits.mpr hway)
    refine ⟨y, hy, hsent.imp edit_mem_edits.mp fun hinsert => ?_⟩
    have htarget : (action.edit r).target = r := by
      cases action with
      | add => rfl
      | remove => rfl
    rw [htarget] at hinsert
    exact edit_mem_edits.mp hinsert

end System

end RustBond
