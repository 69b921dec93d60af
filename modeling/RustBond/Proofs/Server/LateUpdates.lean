import RustBond.Proofs.Server.Sessions

/-!
# `RustBond.Proofs.Server.LateUpdates`: updates that arrive after an unsubscribe

A peer task removes the routes of a VNI as soon as it has written the unsubscribe message.
Updates that the server sent before it reads the message are still in flight then, and
`handle_message` accepts every update, whatever the client is subscribed to.

`always_onlySubscribed_iff` shows that a client holds only routes of VNIs that it is
subscribed to, in all states of a run, precisely if it never handles an announcement for
another VNI. In the run `late`, it does.
-/

set_option autoImplicit false

namespace RustBond

namespace Connection

/-- Every VNI in the received routes is subscribed. -/
def OnlySubscribed (c : Connection) : Prop :=
  ∀ v ∈ c.receivedRoutes.getVnis, v ∈ c.subscriptions

instance (c : Connection) : Decidable c.OnlySubscribed :=
  inferInstanceAs (Decidable (∀ v ∈ c.receivedRoutes.getVnis, _))

/-- If the message announces a route, then its VNI is subscribed. -/
def Expects (c : Connection) (msg : Message) : Prop :=
  match msg with
  | .update .add vni _ _ => vni ∈ c.subscriptions
  | _ => True

instance (c : Connection) : (msg : Message) → Decidable (c.Expects msg)
  | .update .add vni _ _ => inferInstanceAs (Decidable (vni ∈ c.subscriptions))
  | .update .remove _ _ _ => inferInstanceAs (Decidable True)
  | .hello _ _ => inferInstanceAs (Decidable True)
  | .keepalive => inferInstanceAs (Decidable True)
  | .subscribe _ => inferInstanceAs (Decidable True)
  | .unsubscribe _ => inferInstanceAs (Decidable True)

/-- The condition over the listed routes is one over all routes. -/
theorem onlySubscribed_iff (c : Connection) :
    c.OnlySubscribed ↔ ∀ r ∈ c.receivedRoutes, r.1 ∈ c.subscriptions := by
  unfold OnlySubscribed
  constructor
  · intro h r hr
    exact h r.1 ((RouteTable.mem_getVnis _ _).mpr ⟨r.2.1, r.2.2, hr⟩)
  · intro h v hv
    obtain ⟨destination, nextHop, hmem⟩ := (RouteTable.mem_getVnis _ _).mp hv
    exact h _ hmem

/-- An unsubscribe drops the routes together with the subscription. -/
theorem onlySubscribed_handleCommand {c : Connection} (h : c.OnlySubscribed)
    (cmd : PeerCommand) : (c.handleCommand cmd).1.OnlySubscribed := by
  rw [onlySubscribed_iff] at h ⊢
  intro r hr
  rw [mem_handleCommand] at hr
  obtain ⟨hmem, hcmd⟩ := hr
  have hsub : r.1 ∈ c.subscriptions := h r hmem
  cases cmd with
  | subscribe vni => exact Finset.mem_insert_of_mem hsub
  | unsubscribe vni =>
    refine Finset.mem_erase.mpr ⟨?_, hsub⟩
    intro heq
    exact hcmd (by rw [heq])
  | sendUpdate msg => exact hsub
  | shutdown => exact hsub

/-- Only an unexpected announcement brings a route of another VNI. -/
theorem onlySubscribed_handleMessage {c : Connection} (h : c.OnlySubscribed) (msg : Message) :
    (c.handleMessage msg).1.OnlySubscribed ↔ c.Expects msg := by
  rw [onlySubscribed_iff] at h ⊢
  rw [handleMessage_subscriptions]
  cases msg with
  | hello | keepalive | subscribe | unsubscribe => exact iff_of_true h trivial
  | update action vni destination nextHop =>
    cases action with
    | add =>
      have hmem : ∀ r, r ∈ (c.handleMessage (.update .add vni destination nextHop)).1.receivedRoutes
          ↔ r = (vni, destination, nextHop) ∨ r ∈ c.receivedRoutes :=
        fun r => RouteTable.mem_addNextHop _ _ _ _ r
      constructor
      · -- The announced route itself is among the received ones.
        intro hall
        exact hall (vni, destination, nextHop) ((hmem _).mpr (Or.inl rfl))
      · intro hexpected r hr
        rcases (hmem r).mp hr with rfl | hold
        · exact hexpected
        · exact h r hold
    | remove =>
      refine iff_of_true ?_ trivial
      intro r hr
      exact h r ((RouteTable.mem_removeNextHop _ _ _ _ r).mp hr).2

/-- The task calls `add_route` only for what the message announces. -/
theorem expects_of_addRoute {c : Connection} {msg : Message} (h : c.Expects msg) {vni : Vni}
    {route : Route} (hcall : .addRoute vni route ∈ (c.handleMessage msg).2) :
    vni ∈ c.subscriptions := by
  cases msg with
  | hello | keepalive | subscribe | unsubscribe => cases hcall
  | update action vni' destination nextHop =>
    cases action with
    | add =>
      simp only [handleMessage] at hcall
      split at hcall
      · rw [List.mem_singleton] at hcall
        cases hcall
        exact h
      · cases hcall
    | remove =>
      simp only [handleMessage] at hcall
      split at hcall
      · rw [List.mem_singleton] at hcall
        cases hcall
      · cases hcall

end Connection

namespace System

/-- Every client holds only routes of VNIs that it is subscribed to. -/
def OnlySubscribed (s : System) : Prop :=
  ∀ (c : SessionId) (x : Session), s.sessions[c]? = some x → x.client.OnlySubscribed

/-- If the step delivers a message, then its client expects it. -/
def DeliversExpected (s : System) (l : Label) : Prop :=
  match l with
  | .session c .deliver =>
    ∀ x ∈ s.sessions[c]?, ∀ msg ∈ x.toClient.head?, x.client.Expects msg
  | _ => True

/-- If the client calls `add_route` for a message, then it is subscribed to the VNI. -/
def CallsSubscribed (s : System) (l : Label) : Prop :=
  match l with
  | .session c .deliver =>
    ∀ x ∈ s.sessions[c]?, ∀ msg ∈ x.toClient.head?, ∀ vni route,
      .addRoute vni route ∈ (x.client.handleMessage msg).2 → vni ∈ x.client.subscriptions
  | _ => True

instance (s : System) : (l : Label) → Decidable (s.DeliversExpected l)
  | .session c .deliver => inferInstanceAs (Decidable (∀ x ∈ s.sessions[c]?, _))
  | .session _ (.command _) => inferInstanceAs (Decidable True)
  | .session _ .read => inferInstanceAs (Decidable True)
  | .session _ .respond => inferInstanceAs (Decidable True)
  | .session _ (.flush _) => inferInstanceAs (Decidable True)
  | .session _ .stop => inferInstanceAs (Decidable True)
  | .session _ .disconnect => inferInstanceAs (Decidable True)
  | .accept _ _ _ => inferInstanceAs (Decidable True)
  | .recv _ _ => inferInstanceAs (Decidable True)
  | .trySend _ => inferInstanceAs (Decidable True)
  | .finish => inferInstanceAs (Decidable True)

/-- A step that delivers expected routes only leaves a client within its subscriptions. -/
theorem onlySubscribed_step {capacity : Nat} {s s' : System} {l : Label}
    (h : OnlySubscribed s) (hok : s.DeliversExpected l)
    (hs : (lts capacity).step s l = some s') : OnlySubscribed s' := by
  intro c y hy
  cases fate_of_step hs hy with
  | accepted _ _ _ _ _ hclient =>
    -- The client starts with no received routes.
    rw [Connection.onlySubscribed_iff, hclient]
    intro r hr
    exact absurd hr (RouteTable.not_mem_new r)
  | @acted x action cmds hx hact =>
    have hbefore : x.client.OnlySubscribed := h c x hx
    cases Session.passes_of_act hact with
    | @commanded cmd hclient =>
      rw [hclient]
      exact Connection.onlySubscribed_handleCommand hbefore cmd
    | @delivered msg hmsg hclient =>
      rw [hclient]
      exact (Connection.onlySubscribed_handleMessage hbefore msg).mpr (hok x hx msg hmsg)
    | moved _ hclient => exact hclient ▸ hbefore
    | closed _ hclient => exact hclient ▸ hbefore
  | @answered x owned routes hx hy' =>
    rcases receive_cases x routes with hreceive | ⟨vni, -, hreceive⟩
    · rw [hy', hreceive]
      exact h c x hx
    · rw [hy', hreceive]
      exact h c x hx
  | @offered x addr msg hx hy' =>
    rw [hy']
    exact h c x hx
  | kept hx => exact h c y hx

/-- A step that delivers an unexpected announcement brings a route of another VNI. -/
theorem deliversExpected_of_onlySubscribed {capacity : Nat} {s s' : System} {l : Label}
    (h : OnlySubscribed s) (hs : (lts capacity).step s l = some s') (h' : OnlySubscribed s') :
    s.DeliversExpected l := by
  cases l with
  | session c action =>
    cases action with
    | deliver =>
      intro x hx msg hmsg
      obtain ⟨x₀, y, cmds, hx₀, hact, rfl⟩ := sessionStep_eq_some hs
      have hsame : x₀ = x := Option.some.inj (hx₀.symm.trans hx)
      subst hsame
      have hy : (s.sessions.set c y)[c]? = some y := by
        rw [getElem?_set_of_some hx₀, if_pos rfl]
      cases Session.passes_of_act hact with
      | delivered hmsg' hclient =>
        cases hmsg.symm.trans hmsg'
        -- The message has brought no route of another VNI.
        refine (Connection.onlySubscribed_handleMessage (h c x₀ hx₀) msg).mp ?_
        rw [← hclient]
        exact h' c y hy
      | moved hne => exact absurd rfl hne
    | command | read | respond | flush | stop | disconnect => trivial
  | accept | recv | trySend | finish => trivial

/-- **When an unsubscribed VNI stays empty.** In every state of a run, every client holds
only routes of VNIs that it is subscribed to, precisely if no client ever handles an
announcement for another VNI. Such a run calls `add_route` for subscribed VNIs only. -/
theorem always_onlySubscribed_iff {capacity : Nat} {ls : List Label} {s : System}
    (hrun : (lts capacity).Run ls s) :
    ((lts capacity).Always OnlySubscribed ls ↔ (lts capacity).Throughout DeliversExpected ls) ∧
      ((lts capacity).Throughout DeliversExpected ls →
        (lts capacity).Throughout CallsSubscribed ls) := by
  constructor
  · refine Lts.always_iff_throughout (Q := OnlySubscribed) ?_ ?_ ?_ ?_ hrun
    · intro c x hx
      cases hx
    · intro _ _ _ h
      exact h
    · intro _ _ _ _ _ h hok hs
      exact onlySubscribed_step h hok hs
    · intro _ _ _ _ _ h hs h'
      exact deliversExpected_of_onlySubscribed h hs h'
  · refine Lts.Throughout.mono ?_
    intro s l hok
    cases l with
    | session c action =>
      cases action with
      | deliver =>
        intro x hx msg hmsg vni route hcall
        exact Connection.expects_of_addRoute (hok x hx msg hmsg) hcall
      | command | read | respond | flush | stop | disconnect => trivial
    | accept | recv | trySend | finish => trivial

/-- The first client subscribes to VNI 100, the second one announces a route of it. The first
client unsubscribes while the update is in flight. -/
def late : List Label :=
  [ .accept (.loopback 40001) [] [], .recv [] [], .finish,
    .accept (.loopback 40002) [] [], .recv [] [], .finish,
    .session 0 (.command (.subscribe ⟨100⟩)), .session 0 .read, .recv [] [], .finish,
    .session 0 .respond,
    .session 1 (.command (.sendUpdate (.update .add ⟨100⟩ (makeDest 1) (makeHop 1)))),
    .session 1 .read, .recv [] [], .trySend (.loopback 40001), .finish, .session 0 (.flush 1),
    .session 0 (.command (.unsubscribe ⟨100⟩)), .session 0 .deliver ]

/-- A late update brings back a route of a VNI that the client has left. -/
theorem late_update_slips_in :
    ¬ ∀ (ls : List Label) (s : System), (lts maxPendingMessages).Run ls s →
      (lts maxPendingMessages).Always OnlySubscribed ls := by
  intro h
  have hrun : (lts maxPendingMessages).Run late _ := Lts.Run.of_exec (by decide)
  have hlate := (h late _ hrun).last hrun 0 _ (Option.some_get (by decide)).symm
  revert hlate
  decide

/-- The first client handles the update of the run `late` before it unsubscribes. -/
def inTime : List Label :=
  late.take 17 ++ [.session 0 .deliver, .session 0 (.command (.unsubscribe ⟨100⟩))]

/-- In the run `inTime` the first client receives a route, and holds routes of subscribed VNIs only
throughout. -/
theorem always_onlySubscribed_inTime :
    (∃ s x, (lts maxPendingMessages).Run (inTime.take 18) s ∧ s.sessions[0]? = some x ∧
      (⟨100⟩, makeDest 1, makeHop 1) ∈ x.client.receivedRoutes) ∧
      (lts maxPendingMessages).Always OnlySubscribed inTime := by
  have hreceived : (lts maxPendingMessages).Run (inTime.take 18) _ := Lts.Run.of_exec (by decide)
  have hrun : (lts maxPendingMessages).Run inTime _ := Lts.Run.of_exec (by decide)
  exact ⟨⟨_, _, hreceived, (Option.some_get (by decide)).symm, by decide⟩,
    (always_onlySubscribed_iff hrun).1.mpr (Lts.throughout_of_check (by decide))⟩

end System

end RustBond
