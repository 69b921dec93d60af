import RustBond.Client.PeerTask
import RustBond.Lib.EditLog
import RustBond.Proofs.Peer

/-!
# `RustBond.Proofs.Client.PeerTask`: what a peer task does with its commands

`effect_of_act` is the inversion of an action. It names what later proofs need: the phase,
the subscriptions, the command channel and what is sent.

Two facts follow about the subscriptions of a task:

* `Told`: everything in the task's own set is sent on the session, or still to be sent while
  the task repeats its subscriptions (`told_act`);
* `Intends`: the own set after the commands in the channel. An action keeps it, if the task
  does not lose a command (`intends_iff_of_act`). Only a lost subscribe can end an intention
  (`intends_act`), and only a lost unsubscribe can bring one back (`not_intends_act`).
-/

set_option autoImplicit false

namespace RustBond

open EditLog (After)

/-- The task has no connection that it could write to. -/
def TaskPhase.Offline (phase : TaskPhase) : Prop :=
  phase = .connecting ∨ phase = .ended ∨ phase = .retrying

/-- The session is established, and its initial subscriptions are repeated. -/
def TaskPhase.Resubscribed (phase : TaskPhase) : Prop :=
  match phase with
  | .resubscribing rest => rest = []
  | .reannouncing _ => True
  | .running => True
  | _ => False

instance : (phase : TaskPhase) → Decidable phase.Resubscribed
  | .resubscribing rest => inferInstanceAs (Decidable (rest = []))
  | .reannouncing _ => inferInstanceAs (Decidable True)
  | .running => inferInstanceAs (Decidable True)
  | .connecting => inferInstanceAs (Decidable False)
  | .ended => inferInstanceAs (Decidable False)
  | .retrying => inferInstanceAs (Decidable False)
  | .closed => inferInstanceAs (Decidable False)

namespace PeerTask

/-- The subscriptions that the task repeats when it is connected again. -/
def subscriptions (t : PeerTask) : HashSet Vni := t.connection.subscriptions

/-- What an action does. -/
inductive Effect (announced : RouteTable) (t t' : PeerTask) : TaskAction → Prop
  /-- The handshake is complete. -/
  | connected {subs : List Vni} (hbefore : t.phase = .connecting)
      (hsubs : (subs : Multiset Vni) = t.subscriptions.val)
      (hphase : t'.phase = .resubscribing subs)
      (hsubscriptions : t'.subscriptions = t.subscriptions) (hcommands : t'.commands = t.commands)
      (hsent : t'.sent = []) : Effect announced t t' (.established subs)
  /-- The task repeats a subscription. -/
  | resubscribed {vni : Vni} {rest : List Vni} (hbefore : t.phase = .resubscribing (vni :: rest))
      (hphase : t'.phase = .resubscribing rest)
      (hsubscriptions : t'.subscriptions = t.subscriptions) (hcommands : t'.commands = t.commands)
      (hsent : t'.sent = t.sent ++ [.subscribe vni]) : Effect announced t t' .resubscribe
  /-- The task lists the announced routes. -/
  | collected {routes : List (Vni × Route)} (hbefore : t.phase = .resubscribing [])
      (hroutes : (routes : Multiset (Vni × Route)) = announced.getAllRoutes)
      (hphase : t'.phase = .reannouncing routes)
      (hsubscriptions : t'.subscriptions = t.subscriptions) (hcommands : t'.commands = t.commands)
      (hsent : t'.sent = t.sent) : Effect announced t t' (.collect routes)
  /-- The task repeats an announcement. -/
  | reannounced {vni : Vni} {route : Route} {rest : List (Vni × Route)}
      (hbefore : t.phase = .reannouncing ((vni, route) :: rest))
      (hphase : t'.phase = .reannouncing rest) (hsubscriptions : t'.subscriptions = t.subscriptions)
      (hcommands : t'.commands = t.commands)
      (hsent : t'.sent = t.sent ++ [.update .add vni route.destination route.nextHop]) :
      Effect announced t t' .reannounce
  /-- The task enters the main loop. -/
  | entered (hbefore : t.phase = .reannouncing []) (hphase : t'.phase = .running)
      (hsubscriptions : t'.subscriptions = t.subscriptions) (hcommands : t'.commands = t.commands)
      (hsent : t'.sent = t.sent) : Effect announced t t' .enterLoop
  /-- The main loop sends a keepalive or handles a message. -/
  | idled {action : TaskAction} (hbefore : t.phase = .running) (hphase : t'.phase = .running)
      (hsubscriptions : t'.subscriptions = t.subscriptions) (hcommands : t'.commands = t.commands)
      (hsent : t'.sent = t.sent ∨ t'.sent = t.sent ++ [.keepalive]) : Effect announced t t' action
  /-- The main loop takes a command. -/
  | commanded {cmd : PeerCommand} {rest : List PeerCommand} {msg : Message}
      (hbefore : t.phase = .running) (htaken : t.commands = cmd :: rest)
      (hmsg : Connection.commandMessage cmd = some msg) (hphase : t'.phase = .running)
      (hconnection : t'.connection = (t.connection.handleCommand cmd).1)
      (hcommands : t'.commands = rest) (hsent : t'.sent = t.sent ++ [msg]) :
      Effect announced t t' .command
  /-- A command is lost. -/
  | dropped {action : TaskAction} {cmd : PeerCommand} {rest : List PeerCommand}
      (haction : action = .commandFailed ∨ action = .retryCommand) (hopen : t.phase ≠ .closed)
      (htaken : t.commands = cmd :: rest) (hphase : t'.phase.Offline)
      (hsubscriptions : t'.subscriptions = t.subscriptions) (hcommands : t'.commands = rest) :
      Effect announced t t' action
  /-- The connection comes or goes. -/
  | offline {action : TaskAction} (hopen : t.phase ≠ .closed) (hphase : t'.phase.Offline)
      (hsubscriptions : t'.subscriptions = t.subscriptions) (hcommands : t'.commands = t.commands) :
      Effect announced t t' action
  /-- The task takes a shutdown command and returns. -/
  | closed {action : TaskAction} (hphase : t'.phase = .closed) : Effect announced t t' action

/-- The inversion of `act`: the actions of a peer task have the effects that `Effect` lists. The
invariants of the task look at these and not at the code. -/
theorem effect_of_act {announced : RouteTable} {t t' : PeerTask} {action : TaskAction}
    (h : t.act announced action = some t') : Effect announced t t' action := by
  cases action with
  | connectFailed =>
    simp only [act] at h
    split at h
    · rename_i hguard
      cases h
      exact .offline (by simp [hguard.1]) (Or.inr (Or.inr rfl)) rfl rfl
    · cases h
  | helloSent =>
    simp only [act] at h
    split at h
    · rename_i hguard
      cases h
      -- The state is published, and the phase stays `connecting`.
      exact .offline (by simp [hguard.1]) (Or.inl hguard.1) rfl rfl
    · cases h
  | helloReceived =>
    simp only [act] at h
    split at h
    · rename_i hguard
      cases h
      exact .offline (by simp [hguard.1]) (Or.inl hguard.1) rfl rfl
    · cases h
  | established subs =>
    simp only [act] at h
    split at h
    · rename_i hguard
      cases h
      exact .connected hguard.1 hguard.2.2 rfl rfl rfl rfl
    · cases h
  | resubscribe =>
    simp only [act] at h
    split at h
    · rename_i vni rest hphase
      cases h
      exact .resubscribed hphase rfl rfl rfl rfl
    · cases h
  | collect routes =>
    simp only [act] at h
    split at h
    · rename_i hguard
      cases h
      exact .collected hguard.1 hguard.2 rfl rfl rfl rfl
    · cases h
  | reannounce =>
    simp only [act] at h
    split at h
    · rename_i vni route rest hphase
      cases h
      exact .reannounced hphase rfl rfl rfl rfl
    · cases h
  | enterLoop =>
    simp only [act] at h
    split at h
    · rename_i hphase
      cases h
      exact .entered hphase rfl rfl rfl rfl
    · cases h
  | keepalive =>
    simp only [act] at h
    split at h
    · rename_i hphase
      cases h
      exact .idled hphase hphase rfl rfl (Or.inr rfl)
    · cases h
  | receive msg =>
    simp only [act] at h
    split at h
    · rename_i hphase
      cases h
      exact .idled hphase hphase (Connection.handleMessage_subscriptions _ _) rfl (Or.inl rfl)
    · cases h
  | command =>
    simp only [act] at h
    split at h
    · rename_i cmd rest hphase hcommands
      split at h
      · rename_i msg hmsg
        cases h
        exact .commanded hphase hcommands hmsg hphase rfl rfl rfl
      · cases h
        -- The command is a shutdown.
        exact .closed rfl
    · cases h
  | commandFailed =>
    simp only [act] at h
    split at h
    · rename_i cmd rest hphase hcommands
      split at h
      · cases h
        -- The write fails and the connection ends, but the command is gone.
        exact .dropped (Or.inl rfl) (by simp [hphase]) hcommands (Or.inr (Or.inl rfl)) rfl rfl
      · cases h
    · cases h
  | connectionEnded =>
    cases hphase : t.phase with
    | connecting | resubscribing | reannouncing | running =>
      simp only [act, hphase, Option.some.injEq] at h
      subst h
      exact .offline (by simp [hphase]) (Or.inr (Or.inl rfl)) rfl rfl
    | ended | retrying | closed =>
      simp only [act, hphase] at h
      cases h
  | clear =>
    simp only [act] at h
    split at h
    · rename_i hphase
      cases h
      exact .offline (by simp [hphase]) (Or.inr (Or.inr rfl)) rfl rfl
    · cases h
  | retryCommand =>
    simp only [act] at h
    split at h
    · cases h
      exact .closed rfl
    · rename_i cmd rest _ hphase hcommands
      cases h
      -- The wait is over, whatever the command was.
      exact .dropped (Or.inr rfl) (by simp [hphase]) hcommands (Or.inl rfl) rfl rfl
    · cases h
  | retryElapsed =>
    simp only [act] at h
    split at h
    · rename_i hphase
      cases h
      exact .offline (by simp [hphase]) (Or.inl rfl) rfl rfl
    · cases h

/-- A task that has returned does nothing. -/
theorem phase_ne_closed {announced : RouteTable} {t t' : PeerTask} {action : TaskAction}
    (h : t.act announced action = some t') : t.phase ≠ .closed := by
  intro hclosed
  cases action <;> simp [act, hclosed] at h

/-- An action that ends outside of a session writes nothing. -/
theorem sent_of_act {announced : RouteTable} {t t' : PeerTask} {action : TaskAction}
    (h : t.act announced action = some t') (hphase : t'.phase.Offline ∨ t'.phase = .closed) :
    t'.sent = t.sent := by
  cases action with
  | connectFailed | helloSent | helloReceived | collect | enterLoop | receive | clear
  | retryElapsed =>
    simp only [act] at h
    split at h
    · cases h
      rfl
    · cases h
  | established | resubscribe | reannounce =>
    -- These are the phases of a session.
    simp only [act] at h
    split at h
    · cases h
      simp [TaskPhase.Offline] at hphase
    · cases h
  | keepalive =>
    simp only [act] at h
    split at h
    · rename_i hrunning
      cases h
      simp [TaskPhase.Offline, hrunning] at hphase
    · cases h
  | command =>
    simp only [act] at h
    split at h
    · rename_i hrunning hcommands
      split at h
      · cases h
        simp [TaskPhase.Offline, hrunning] at hphase
      · cases h
        rfl
    · cases h
  | commandFailed =>
    simp only [act] at h
    split at h
    · split at h
      · cases h
        rfl
      · cases h
    · cases h
  | retryCommand =>
    simp only [act] at h
    split at h
    · cases h
      rfl
    · cases h
      rfl
    · cases h
  | connectionEnded =>
    cases hbefore : t.phase with
    | connecting | resubscribing | reannouncing | running =>
      simp only [act, hbefore, Option.some.injEq] at h
      rw [← h]
    | ended | retrying | closed =>
      simp only [act, hbefore] at h
      cases h

/-! ### What the session has been told -/

/-- Every subscription of the task is sent on the session, or among those to be repeated. -/
def Told (t : PeerTask) : Prop :=
  match t.phase with
  | .resubscribing rest => ∀ v ∈ t.subscriptions, .subscribe v ∈ t.sent ∨ v ∈ rest
  | .reannouncing _ => ∀ v ∈ t.subscriptions, .subscribe v ∈ t.sent
  | .running => ∀ v ∈ t.subscriptions, .subscribe v ∈ t.sent
  | _ => True

/-- Without a session there is nothing to tell. -/
theorem told_of_offline {t : PeerTask} (h : t.phase.Offline) : t.Told := by
  unfold Told
  rcases h with h | h | h
  · rw [h]; trivial
  · rw [h]; trivial
  · rw [h]; trivial

/-- In the main loop, everything must have been sent. -/
theorem told_of_running {t : PeerTask} (hphase : t.phase = .running)
    (h : ∀ v ∈ t.subscriptions, .subscribe v ∈ t.sent) : t.Told := by
  unfold Told
  rw [hphase]
  exact h

/-- A task in its main loop has sent all its subscriptions. -/
theorem Told.of_running {t : PeerTask} (h : t.Told) (hphase : t.phase = .running) :
    ∀ v ∈ t.subscriptions, .subscribe v ∈ t.sent := by
  unfold Told at h
  rw [hphase] at h
  exact h

/-- A task that has repeated its subscriptions has sent them all, even while it still repeats its
routes. -/
theorem Told.of_resubscribed {t : PeerTask} (h : t.Told) (hphase : t.phase.Resubscribed) :
    ∀ v ∈ t.subscriptions, .subscribe v ∈ t.sent := by
  unfold Told at h
  cases heq : t.phase with
  | resubscribing rest =>
    rw [heq] at h hphase
    have hnone : rest = [] := hphase
    intro v hv
    rcases h v hv with hsent | hrest
    · exact hsent
    · rw [hnone] at hrest
      cases hrest
  | reannouncing rest =>
    rw [heq] at h
    exact h
  | running =>
    rw [heq] at h
    exact h
  | connecting | ended | retrying | closed =>
    rw [heq] at hphase
    cases hphase

/-- A task tells its server every subscription that it has, in whatever order it connects, takes
commands and fails. -/
theorem told_act {announced : RouteTable} {t t' : PeerTask} {action : TaskAction} (h : t.Told)
    (hact : t.act announced action = some t') : t'.Told := by
  cases effect_of_act hact with
  | @connected subs hbefore hsubs hphase hsubscriptions hcommands hsent =>
    unfold Told
    rw [hphase, hsubscriptions]
    intro v hv
    -- Nothing is sent yet, and all subscriptions are to be repeated.
    refine Or.inr ?_
    rw [← Multiset.mem_coe, hsubs]
    exact hv
  | @resubscribed vni rest hbefore hphase hsubscriptions hcommands hsent =>
    unfold Told at h ⊢
    rw [hbefore] at h
    rw [hphase, hsubscriptions, hsent]
    intro v hv
    -- The VNI that is sent leaves the list of those to be repeated.
    rcases h v hv with hsent' | hrest
    · exact Or.inl (List.mem_append_left _ hsent')
    · rcases List.mem_cons.mp hrest with rfl | hrest'
      · exact Or.inl (List.mem_append_right _ List.mem_cons_self)
      · exact Or.inr hrest'
  | collected hbefore hroutes hphase hsubscriptions hcommands hsent =>
    unfold Told at h ⊢
    rw [hbefore] at h
    rw [hphase, hsubscriptions, hsent]
    intro v hv
    rcases h v hv with hsent' | hnone
    · exact hsent'
    · cases hnone
  | reannounced hbefore hphase hsubscriptions hcommands hsent =>
    unfold Told at h ⊢
    rw [hbefore] at h
    rw [hphase, hsubscriptions, hsent]
    intro v hv
    exact List.mem_append_left _ (h v hv)
  | entered hbefore hphase hsubscriptions hcommands hsent =>
    refine told_of_running hphase ?_
    unfold Told at h
    rw [hbefore] at h
    rw [hsubscriptions, hsent]
    exact h
  | idled hbefore hphase hsubscriptions hcommands hsent =>
    refine told_of_running hphase ?_
    rw [hsubscriptions]
    intro v hv
    have hbefore' := h.of_running hbefore v hv
    rcases hsent with hsent | hsent
    · rw [hsent]
      exact hbefore'
    · rw [hsent]
      exact List.mem_append_left _ hbefore'
  | @commanded cmd rest msg hbefore htaken hmsg hphase hconnection hcommands hsent =>
    refine told_of_running hphase ?_
    intro v hv
    rw [hsent, List.mem_append]
    have hv' : v ∈ (t.connection.handleCommand cmd).1.subscriptions := by
      rw [← hconnection]
      exact hv
    -- Only a subscribe command adds a VNI, and its message is the one that is written.
    cases cmd with
    | subscribe vni =>
      cases hmsg
      rcases Finset.mem_insert.mp hv' with rfl | hold
      · exact Or.inr List.mem_cons_self
      · exact Or.inl (h.of_running hbefore v hold)
    | unsubscribe vni => exact Or.inl (h.of_running hbefore v (Finset.mem_erase.mp hv').2)
    | sendUpdate msg' => exact Or.inl (h.of_running hbefore v hv')
    | shutdown => cases hmsg
  | dropped haction hopen htaken hphase => exact told_of_offline hphase
  | offline hopen hphase => exact told_of_offline hphase
  | closed hphase =>
    unfold Told
    rw [hphase]
    trivial

end PeerTask

/-! ### What the commands in the channel lead to -/

/-- A command as an edit of the subscriptions. -/
def PeerCommand.edit (cmd : PeerCommand) : Option (Edit Vni) :=
  match cmd with
  | .subscribe vni => some (.insert vni)
  | .unsubscribe vni => some (.erase vni)
  | _ => none

/-- Only a `subscribe` command asks for a VNI. -/
theorem PeerCommand.eq_subscribe {cmd : PeerCommand} {v : Vni} (h : cmd.edit = some (.insert v)) :
    cmd = .subscribe v := by
  cases cmd with
  | subscribe vni =>
    cases h
    rfl
  | unsubscribe | sendUpdate | shutdown => cases h

/-- Only an `unsubscribe` command ends a subscription. -/
theorem PeerCommand.eq_unsubscribe {cmd : PeerCommand} {v : Vni} (h : cmd.edit = some (.erase v)) :
    cmd = .unsubscribe v := by
  cases cmd with
  | unsubscribe vni =>
    cases h
    rfl
  | subscribe | sendUpdate | shutdown => cases h

/-- The commands of a channel as an edit log. -/
def subscriptionEdits (cmds : List PeerCommand) : List (Edit Vni) := cmds.filterMap PeerCommand.edit

/-- The commands of two channels, one after the other, make the edits of the one and then those of
the other. -/
@[simp] theorem subscriptionEdits_append (cmds cmds' : List PeerCommand) :
    subscriptionEdits (cmds ++ cmds') = subscriptionEdits cmds ++ subscriptionEdits cmds' :=
  List.filterMap_append

/-- The first command makes its own edit before the others make theirs. -/
theorem subscriptionEdits_cons (cmd : PeerCommand) (cmds : List PeerCommand) :
    subscriptionEdits (cmd :: cmds) = subscriptionEdits [cmd] ++ subscriptionEdits cmds := by
  rw [← subscriptionEdits_append, List.singleton_append]

/-- The subscriptions after a command. -/
theorem mem_subscriptions_handleCommand (c : Connection) (cmd : PeerCommand) (v : Vni) :
    v ∈ (c.handleCommand cmd).1.subscriptions ↔
      After v (v ∈ c.subscriptions) (subscriptionEdits [cmd]) := by
  cases cmd with
  | subscribe vni =>
    have hone : subscriptionEdits [.subscribe vni] = [.insert vni] := rfl
    show v ∈ insert vni c.subscriptions ↔ _
    rw [hone, EditLog.after_insert, Finset.mem_insert]
  | unsubscribe vni =>
    have hone : subscriptionEdits [.unsubscribe vni] = [.erase vni] := rfl
    show v ∈ c.subscriptions.erase vni ↔ _
    rw [hone, EditLog.after_erase, Finset.mem_erase]
  | sendUpdate msg => exact Iff.rfl
  | shutdown => exact Iff.rfl

namespace PeerTask

/-- Once the task has taken the commands in its channel, `v` is among its subscriptions. -/
def Intends (t : PeerTask) (v : Vni) : Prop :=
  After v (v ∈ t.subscriptions) (subscriptionEdits t.commands)

instance (t : PeerTask) (v : Vni) : Decidable (t.Intends v) :=
  inferInstanceAs (Decidable (After v (v ∈ t.subscriptions) _))

/-- What a task intends is decided by its subscriptions and its channel alone. -/
theorem intends_congr {t t' : PeerTask} (v : Vni)
    (hsubscriptions : t'.subscriptions = t.subscriptions) (hcommands : t'.commands = t.commands) :
    t'.Intends v ↔ t.Intends v := by
  unfold Intends
  rw [hsubscriptions, hcommands]

/-- A command at the end of the channel. -/
theorem intends_push (t : PeerTask) (cmd : PeerCommand) (v : Vni) :
    Intends { t with commands := t.commands ++ [cmd] } v ↔
      After v (t.Intends v) (subscriptionEdits [cmd]) := by
  unfold Intends
  show After v (v ∈ t.subscriptions) (subscriptionEdits (t.commands ++ [cmd])) ↔ _
  rw [subscriptionEdits_append, EditLog.after_append]

/-- An action keeps the intention, or it loses a command. Then the own set and the rest of the
channel decide. -/
theorem intends_iff_of_act {announced : RouteTable} {t t' : PeerTask} {action : TaskAction}
    (v : Vni) (hact : t.act announced action = some t') (hopen : t'.phase ≠ .closed) :
    (t'.Intends v ↔ t.Intends v) ∨
      ((action = .commandFailed ∨ action = .retryCommand) ∧
        ∃ cmd rest, t.commands = cmd :: rest ∧
          (t'.Intends v ↔ After v (v ∈ t.subscriptions) (subscriptionEdits rest))) := by
  cases effect_of_act hact with
  | connected hbefore hsubs hphase hsubscriptions hcommands =>
    exact Or.inl (intends_congr v hsubscriptions hcommands)
  | resubscribed hbefore hphase hsubscriptions hcommands =>
    exact Or.inl (intends_congr v hsubscriptions hcommands)
  | collected hbefore hroutes hphase hsubscriptions hcommands =>
    exact Or.inl (intends_congr v hsubscriptions hcommands)
  | reannounced hbefore hphase hsubscriptions hcommands =>
    exact Or.inl (intends_congr v hsubscriptions hcommands)
  | entered hbefore hphase hsubscriptions hcommands =>
    exact Or.inl (intends_congr v hsubscriptions hcommands)
  | idled hbefore hphase hsubscriptions hcommands =>
    exact Or.inl (intends_congr v hsubscriptions hcommands)
  | offline hopen' hphase hsubscriptions hcommands =>
    exact Or.inl (intends_congr v hsubscriptions hcommands)
  | @commanded cmd rest msg hbefore htaken hmsg hphase hconnection hcommands hsent =>
    -- The command moves from the channel into the set.
    have hmem : (v ∈ t'.subscriptions)
        = After v (v ∈ t.subscriptions) (subscriptionEdits [cmd]) := by
      unfold subscriptions
      rw [hconnection]
      exact propext (mem_subscriptions_handleCommand t.connection cmd v)
    refine Or.inl ?_
    unfold Intends
    rw [htaken, subscriptionEdits_cons, EditLog.after_append, hcommands, hmem]
  | @dropped _ cmd rest haction _ htaken hphase hsubscriptions hcommands =>
    refine Or.inr ⟨haction, cmd, rest, htaken, ?_⟩
    unfold Intends
    rw [hsubscriptions, hcommands]
  | closed hphase => exact absurd hphase hopen

/-- An action that does not lose a subscribe command for `v` keeps the intention. -/
theorem intends_act {announced : RouteTable} {t t' : PeerTask} {action : TaskAction} {v : Vni}
    (h : t.Intends v) (hact : t.act announced action = some t') (hopen : t'.phase ≠ .closed)
    (hkeeps : action = .commandFailed ∨ action = .retryCommand →
      t.commands.head? = some (.subscribe v) →
      After v (v ∈ t.subscriptions) (subscriptionEdits t.commands.tail)) : t'.Intends v := by
  obtain hkept | ⟨haction, cmd, rest, htaken, hlost⟩ := intends_iff_of_act v hact hopen
  · exact hkept.mpr h
  · rw [hlost]
    unfold Intends at h
    rw [htaken, subscriptionEdits_cons, EditLog.after_append] at h
    by_cases hcmd : cmd = .subscribe v
    · -- Another insertion follows, or the own set has `v`.
      have hrest := hkeeps haction (by rw [htaken, hcmd]; rfl)
      rw [htaken] at hrest
      exact hrest
    · -- Without the insertion of `v`, the own set is the better start.
      refine h.mono (EditLog.of_after_of_not_insert ?_)
      intro hmem
      obtain ⟨cmd', hcmd', hedit⟩ := List.mem_filterMap.mp hmem
      rw [List.mem_singleton.mp hcmd'] at hedit
      exact hcmd (PeerCommand.eq_subscribe hedit)

/-- An action that does not lose an unsubscribe command for `v` does not bring the intention
back. -/
theorem not_intends_act {announced : RouteTable} {t t' : PeerTask} {action : TaskAction} {v : Vni}
    (h : ¬ t.Intends v) (hact : t.act announced action = some t') (hopen : t'.phase ≠ .closed)
    (hkeeps : action = .commandFailed ∨ action = .retryCommand →
      t.commands.head? = some (.unsubscribe v) →
      ¬ After v (v ∈ t.subscriptions) (subscriptionEdits t.commands.tail)) : ¬ t'.Intends v := by
  obtain hkept | ⟨haction, cmd, rest, htaken, hlost⟩ := intends_iff_of_act v hact hopen
  · rwa [hkept]
  · rw [hlost]
    by_cases hcmd : cmd = .unsubscribe v
    · have hrest := hkeeps haction (by rw [htaken, hcmd]; rfl)
      rw [htaken] at hrest
      exact hrest
    · -- Without the erasure of `v`, the lost command could only have added to the own set.
      intro hafter
      refine h ?_
      unfold Intends
      rw [htaken, subscriptionEdits_cons, EditLog.after_append]
      refine hafter.mono (EditLog.after_of_of_not_erase ?_)
      intro hmem
      obtain ⟨cmd', hcmd', hedit⟩ := List.mem_filterMap.mp hmem
      rw [List.mem_singleton.mp hcmd'] at hedit
      exact hcmd (PeerCommand.eq_unsubscribe hedit)

end PeerTask

end RustBond
