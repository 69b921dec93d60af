import RustBond.Proofs.Client.Client
import RustBond.Proofs.Client.PeerTask

/-!
# `RustBond.Proofs.Client.Announcements`: which announcements reach a server

The routes that a client announces are in a table that its peer tasks share. A task repeats
this table on every new session, before it takes commands. Between the two, the calls
`announce` and `withdraw` keep the session up to date with commands. `withdraw` sends its
command to every peer, and `announce` only to those that are established.

So a command can wait in the channel of a peer that is not connected. A `Remove` that waits
there is harmless as long as its route stays withdrawn. It is not once the route is announced
again: the new announcement passes over the peer, the task repeats the table when it is
connected, and then it takes the old `Remove`.

`replay_eq_announced` shows that this is the only way to go wrong. In a run in which no task
lists the routes while such a stale `Remove` waits in its channel (`KeepsAnnounced`), what a
session has sent amounts to the table whenever its channel is empty. The invariant is
`Announces`. It speaks of one peer and one route, and leaves the route out while a call on it
has still to reach the peer (`Pending`).
-/

set_option autoImplicit false

namespace RustBond

open EditLog (After)

/-! ### What a stream of updates amounts to -/

/-- The routes that a server has after the updates of one session: `Add` inserts a route and
`Remove` erases it. -/
def replay (msgs : List Message) : HashSet RouteKey :=
  msgs.foldl (fun routes msg =>
    match msg with
    | .update .add vni destination nextHop => insert (vni, destination, nextHop) routes
    | .update .remove vni destination nextHop => routes.erase (vni, destination, nextHop)
    | _ => routes) ∅

/-- A replay of the messages leaves exactly the routes whose last edit is an insertion. -/
theorem mem_replay {msgs : List Message} {r : RouteKey} :
    r ∈ replay msgs ↔ After r False (edits msgs) := by
  unfold replay
  induction msgs using List.reverseRecOn with
  | nil => simp
  | append_singleton msgs msg ih =>
    -- A stream ends with its last message, and so does an edit log.
    rw [List.foldl_append, List.foldl_cons, List.foldl_nil, edits_append, EditLog.after_append,
      ← ih]
    cases msg with
    | hello | keepalive | subscribe | unsubscribe => exact Iff.rfl
    | update action vni destination nextHop =>
      cases action with
      | add =>
        show _ ↔ After r _ [.insert (vni, destination, nextHop)]
        rw [EditLog.after_insert, Finset.mem_insert]
      | remove =>
        show _ ↔ After r _ [.erase (vni, destination, nextHop)]
        rw [EditLog.after_erase, Finset.mem_erase]

/-- What the commands of a channel will tell the server about routes. -/
def announcementEdits (cmds : List PeerCommand) : List (Edit RouteKey) :=
  edits (cmds.filterMap Connection.commandMessage)

/-- The commands of two channels, one after the other, make the edits of the one and then those of
the other. -/
theorem announcementEdits_append (cmds cmds' : List PeerCommand) :
    announcementEdits (cmds ++ cmds') = announcementEdits cmds ++ announcementEdits cmds' := by
  unfold announcementEdits
  rw [List.filterMap_append, edits_append]

/-- The first command makes its own edits before the others make theirs. -/
theorem announcementEdits_cons (cmd : PeerCommand) (cmds : List PeerCommand) :
    announcementEdits (cmd :: cmds) = announcementEdits [cmd] ++ announcementEdits cmds := by
  rw [← announcementEdits_append, List.singleton_append]

/-- A command makes the edits of the message that is written for it. -/
theorem announcementEdits_singleton {cmd : PeerCommand} {msg : Message}
    (h : Connection.commandMessage cmd = some msg) : announcementEdits [cmd] = edits [msg] := by
  unfold announcementEdits
  rw [List.filterMap_cons_some h, List.filterMap_nil]

/-- A command that leaves the channel takes no later edit with it. -/
theorem last_of_taken {cmd : PeerCommand} {rest : List PeerCommand} {r : RouteKey} {b : Bool}
    (h : EditLog.last r (announcementEdits rest) = some b) :
    EditLog.last r (announcementEdits (cmd :: rest)) = some b := by
  rw [announcementEdits_cons, EditLog.last_append, h, Option.some_or]

/-- The session is established. -/
def TaskPhase.Live (phase : TaskPhase) : Prop :=
  match phase with
  | .resubscribing _ => True
  | .reannouncing _ => True
  | .running => True
  | _ => False

/-- The task lists the announced routes, to repeat them. -/
def TaskAction.listsRoutes (action : TaskAction) : Bool :=
  match action with
  | .collect _ => true
  | _ => false

/-- The announcements that a session has still to repeat, once the task has listed them. -/
def TaskPhase.unrepeated (phase : TaskPhase) : Option (List RouteKey) :=
  match phase with
  | .reannouncing rest => some (rest.map fun e => (e.1, e.2.destination, e.2.nextHop))
  | .running => some []
  | _ => none

/-- Without a session there is no list of routes to repeat. -/
theorem TaskPhase.unrepeated_of_offline {phase : TaskPhase} (h : phase.Offline) :
    phase.unrepeated = none := by
  rcases h with rfl | rfl | rfl
  · rfl
  · rfl
  · rfl

/-- A list of routes is repeated in a live session only. -/
theorem TaskPhase.live_of_unrepeated {phase : TaskPhase} {rest : List RouteKey}
    (h : rest ∈ phase.unrepeated) : phase.Live := by
  cases phase with
  | reannouncing | running => trivial
  | connecting | resubscribing | ended | retrying | closed => cases h

namespace PeerTask

variable {announced : RouteTable} {t t' : PeerTask} {action : TaskAction} {r : RouteKey}

/-- An established session is published as such, and says nothing of routes before it has
repeated the subscriptions. -/
structure Fresh (t : PeerTask) : Prop where
  state : t.phase.Live → t.state = .established
  sent : ∀ rest, t.phase = .resubscribing rest → edits t.sent = []

/-- What the task has told and is going to tell its server of `r` is that it is announced, if
`p` holds, and that it is not, otherwise. -/
structure Tells (t : PeerTask) (r : RouteKey) (p : Prop) : Prop where
  /-- No announcement of another state waits in the channel. -/
  pushed : EditLog.last r (announcementEdits t.commands) = some true → p
  session : ∀ rest ∈ t.phase.unrepeated,
    (After r False (edits t.sent ++ rest.map .insert ++ announcementEdits t.commands) ↔ p)

/-- A new task has no session, so it has said nothing too early. -/
theorem fresh_new : Fresh new := ⟨fun h => h.elim, fun _ h => by cases h⟩

/-- A task says nothing of routes until it has repeated its subscriptions, whatever it does. -/
theorem fresh_act (h : t.Fresh) (hact : t.act announced action = some t') : t'.Fresh := by
  cases action with
  | established subs =>
    simp only [act] at hact
    split at hact
    · cases hact
      exact ⟨fun _ => rfl, fun _ _ => rfl⟩
    · cases hact
  | resubscribe =>
    simp only [act] at hact
    split at hact
    · rename_i vni rest hphase
      cases hact
      refine ⟨fun _ => h.state (by rw [hphase]; trivial), fun _ _ => ?_⟩
      show edits (t.sent ++ [.subscribe vni]) = []
      rw [edits_append, h.sent _ hphase]
      rfl
    · cases hact
  | collect routes =>
    simp only [act] at hact
    split at hact
    · rename_i hguard
      cases hact
      exact ⟨fun _ => h.state (by rw [hguard.1]; trivial), fun _ hphase => by cases hphase⟩
    · cases hact
  | reannounce =>
    simp only [act] at hact
    split at hact
    · rename_i vni route rest hphase
      cases hact
      exact ⟨fun _ => h.state (by rw [hphase]; trivial), fun _ hphase' => by cases hphase'⟩
    · cases hact
  | enterLoop =>
    simp only [act] at hact
    split at hact
    · rename_i hphase
      cases hact
      exact ⟨fun _ => h.state (by rw [hphase]; trivial), fun _ hphase' => by cases hphase'⟩
    · cases hact
  | keepalive | receive =>
    -- The main loop is past the phase that `sent` speaks of.
    simp only [act] at hact
    split at hact
    · rename_i hphase
      cases hact
      refine ⟨h.state, fun rest hphase' => ?_⟩
      cases hphase.symm.trans hphase'
    · cases hact
  | command =>
    simp only [act] at hact
    split at hact
    · rename_i cmd rest hphase hcommands
      split at hact
      · cases hact
        refine ⟨h.state, fun rest hphase' => ?_⟩
        cases hphase.symm.trans hphase'
      · cases hact
        exact ⟨fun hlive => hlive.elim, fun _ hphase' => by cases hphase'⟩
    · cases hact
  | helloSent | helloReceived =>
    -- There is no session before the handshake is complete.
    simp only [act] at hact
    split at hact
    · rename_i hguard
      cases hact
      refine ⟨fun hlive => ?_, fun rest hphase' => ?_⟩
      · have hlive' : t.phase.Live := hlive
        rw [hguard.1] at hlive'
        exact hlive'.elim
      · cases hguard.1.symm.trans hphase'
    · cases hact
  | connectFailed | clear | retryElapsed =>
    -- From here on there is no session after the action.
    simp only [act] at hact
    split at hact
    · cases hact
      exact ⟨fun hlive => hlive.elim, fun _ hphase' => by cases hphase'⟩
    · cases hact
  | commandFailed =>
    simp only [act] at hact
    split at hact
    · split at hact
      · cases hact
        exact ⟨fun hlive => hlive.elim, fun _ hphase' => by cases hphase'⟩
      · cases hact
    · cases hact
  | retryCommand =>
    simp only [act] at hact
    split at hact
    · cases hact
      exact ⟨fun hlive => hlive.elim, fun _ hphase' => by cases hphase'⟩
    · cases hact
      exact ⟨fun hlive => hlive.elim, fun _ hphase' => by cases hphase'⟩
    · cases hact
  | connectionEnded =>
    cases hphase : t.phase with
    | connecting | resubscribing | reannouncing | running =>
      simp only [act, hphase, Option.some.injEq] at hact
      subst hact
      exact ⟨fun hlive => hlive.elim, fun _ hphase' => by cases hphase'⟩
    | ended | retrying | closed =>
      simp only [act, hphase] at hact
      cases hact

/-- A task that has no list to repeat tells nothing but what is in its channel, which must not
announce a withdrawn route at the end. -/
theorem Tells.of_offline {p : Prop} (hphase : t.phase.unrepeated = none)
    (hpushed : EditLog.last r (announcementEdits t.commands) = some true → p) : t.Tells r p := by
  refine ⟨hpushed, ?_⟩
  intro rest hrest
  rw [hphase] at hrest
  cases hrest

/-- What a task says of a route does not depend on how far it has come in saying it. -/
theorem Tells.of_stream {p : Prop} {rest rest' : List RouteKey} (h : t.Tells r p)
    (hphase : t.phase.unrepeated = some rest) (hphase' : t'.phase.unrepeated = some rest')
    (hstream : edits t'.sent ++ rest'.map .insert ++ announcementEdits t'.commands
      = edits t.sent ++ rest.map .insert ++ announcementEdits t.commands)
    (hpushed : EditLog.last r (announcementEdits t'.commands) = some true → p) :
    t'.Tells r p := by
  refine ⟨hpushed, ?_⟩
  intro rest'' hrest
  rw [hphase'] at hrest
  cases hrest
  rw [hstream]
  exact h.session rest hphase

/-- An action keeps what the task says of a route, if the task does not list the announced
routes while a stale `Remove` waits in its channel. -/
theorem tells_act (h : t.Tells r (r ∈ announced)) (hfresh : t.Fresh)
    (hact : t.act announced action = some t') (hopen : t'.phase ≠ .closed)
    (hstale : ∀ routes, action = .collect routes →
      EditLog.last r (announcementEdits t.commands) = some false → r ∉ announced) :
    t'.Tells r (r ∈ announced) := by
  cases effect_of_act hact with
  | connected hbefore hsubs hphase hsubscriptions hcommands hsent =>
    exact Tells.of_offline (by rw [hphase]; rfl) (by rw [hcommands]; exact h.pushed)
  | resubscribed hbefore hphase hsubscriptions hcommands hsent =>
    exact Tells.of_offline (by rw [hphase]; rfl) (by rw [hcommands]; exact h.pushed)
  | @collected routes hbefore hroutes hphase hsubscriptions hcommands hsent =>
    refine ⟨by rw [hcommands]; exact h.pushed, ?_⟩
    intro rest hrest
    rw [hphase] at hrest
    cases hrest
    have hmem : r ∈ routes.map (fun e => (e.1, e.2.destination, e.2.nextHop)) ↔ r ∈ announced := by
      rw [List.mem_map]
      constructor
      · rintro ⟨⟨vni, route⟩, hmem, rfl⟩
        rw [← Multiset.mem_coe, hroutes] at hmem
        exact (RouteTable.mem_getAllRoutes announced vni route).mp hmem
      · intro hr
        refine ⟨(r.1, ⟨r.2.1, r.2.2⟩), ?_, rfl⟩
        rw [← Multiset.mem_coe, hroutes]
        exact (RouteTable.mem_getAllRoutes announced r.1 ⟨r.2.1, r.2.2⟩).mpr hr
    rw [hsent, hfresh.sent _ hbefore, hcommands, List.nil_append, EditLog.after_append]
    unfold After
    rw [EditLog.last_map_insert]
    -- The last command on `r` decides, or the list of the routes if there is none.
    cases hlast : EditLog.last r (announcementEdits t.commands) with
    | none =>
      by_cases hr : r ∈ announced
      · simp [hmem.mpr hr, hr]
      · simp [mt hmem.mp hr, hr]
    | some b =>
      cases b with
      | true => simp [h.pushed hlast]
      | false => simp [hstale routes rfl hlast]
  | @reannounced vni route rest hbefore hphase hsubscriptions hcommands hsent =>
    refine h.of_stream (by rw [hbefore]; rfl) (by rw [hphase]; rfl) ?_
      (by rw [hcommands]; exact h.pushed)
    rw [hsent, hcommands, edits_append]
    simp [edits, Message.edit]
  | entered hbefore hphase hsubscriptions hcommands hsent =>
    refine h.of_stream (by rw [hbefore]; rfl) (by rw [hphase]; rfl) ?_
      (by rw [hcommands]; exact h.pushed)
    rw [hsent, hcommands]
    rfl
  | idled hbefore hphase hsubscriptions hcommands hsent =>
    refine h.of_stream (by rw [hbefore]; rfl) (by rw [hphase]; rfl) ?_
      (by rw [hcommands]; exact h.pushed)
    rcases hsent with hsent | hsent
    · rw [hsent, hcommands]
    · rw [hsent, hcommands, edits_append]
      simp [edits, Message.edit]
  | @commanded cmd rest msg hbefore htaken hmsg hphase hconnection hcommands hsent =>
    refine h.of_stream (by rw [hbefore]; rfl) (by rw [hphase]; rfl) ?_ ?_
    · -- The message moves from the channel to the session.
      rw [hsent, hcommands, htaken, announcementEdits_cons, announcementEdits_singleton hmsg,
        edits_append]
      simp
    · intro hlast
      refine h.pushed ?_
      rw [htaken]
      exact last_of_taken (hcommands ▸ hlast)
  | dropped haction hopen' htaken hphase hsubscriptions hcommands =>
    refine Tells.of_offline (TaskPhase.unrepeated_of_offline hphase) fun hlast => h.pushed ?_
    rw [htaken]
    exact last_of_taken (hcommands ▸ hlast)
  | offline hopen' hphase hsubscriptions hcommands =>
    exact Tells.of_offline (TaskPhase.unrepeated_of_offline hphase)
      (by rw [hcommands]; exact h.pushed)
  | closed hphase => exact absurd hphase hopen

end PeerTask

namespace ClientCall

/-- The route that a call announces or withdraws. -/
def route (call : ClientCall) : Option RouteKey :=
  match call with
  | .announce vni destination nextHop => some (vni, destination, nextHop)
  | .withdraw vni destination nextHop => some (vni, destination, nextHop)
  | _ => none

/-- The command of a call says something of its own route only. -/
theorem target_command_ne {call : ClientCall} {r : RouteKey} (h : call.route ≠ some r)
    {e : Edit RouteKey} (he : e ∈ announcementEdits [call.command]) : e.target ≠ r := by
  intro heq
  obtain ⟨msg, hmsg, hedit⟩ := mem_edits.mp he
  obtain ⟨cmd, hcmd, hwrite⟩ := List.mem_filterMap.mp hmsg
  rw [List.mem_singleton.mp hcmd] at hwrite
  refine h ?_
  cases call with
  | announce vni destination nextHop =>
    cases hwrite
    rw [← heq, Message.target_of_update hedit]
    rfl
  | withdraw vni destination nextHop =>
    cases hwrite
    rw [← heq, Message.target_of_update hedit]
    rfl
  | subscribe vni =>
    cases hwrite
    cases hedit
  | unsubscribe vni =>
    cases hwrite
    cases hedit
  | shutdown => cases hwrite

/-- A command that is not about the route leaves the route's last word to the others. -/
theorem last_command_eq_none {call : ClientCall} {r : RouteKey} (h : call.route ≠ some r) :
    EditLog.last r (announcementEdits [call.command]) = none :=
  EditLog.last_eq_none fun _ he => target_command_ne h he

/-- A command about the route has the last word on it. -/
theorem last_command_isSome {call : ClientCall} {r : RouteKey} (h : call.route = some r) :
    ∃ b, EditLog.last r (announcementEdits [call.command]) = some b := by
  cases call with
  | announce vni destination nextHop =>
    cases h
    exact ⟨true, by simp [announcementEdits, Connection.commandMessage, command, edits,
      Message.edit, EditLog.last, Edit.target, Edit.inserts]⟩
  | withdraw vni destination nextHop =>
    cases h
    exact ⟨false, by simp [announcementEdits, Connection.commandMessage, command, edits,
      Message.edit, EditLog.last, Edit.target, Edit.inserts]⟩
  | subscribe | unsubscribe | shutdown => cases h

end ClientCall

namespace PeerTask

variable {t : PeerTask} {call : ClientCall} {r : RouteKey} {p : Prop}

/-- The command of a call on `r` is the last word on it, whatever the task says before. -/
theorem tells_push (hroute : call.route = some r)
    (hcalling : ∀ b, EditLog.last r (announcementEdits [call.command]) = some b → (b = true ↔ p)) :
    Tells { t with commands := t.commands ++ [call.command] } r p := by
  obtain ⟨b, hb⟩ := ClientCall.last_command_isSome hroute
  have hlast : ∀ log : List (Edit RouteKey),
      EditLog.last r (log ++ announcementEdits (t.commands ++ [call.command])) = some b := by
    intro log
    rw [announcementEdits_append, ← List.append_assoc, EditLog.last_append, hb, Option.some_or]
  refine ⟨?_, ?_⟩
  · intro htrue
    have hb' : some b = some true := (hlast []).symm.trans htrue
    exact (hcalling b hb).mp (Option.some.inj hb')
  · intro rest _
    unfold After
    rw [hlast]
    exact hcalling b hb

/-- The command of another call says nothing of `r`. -/
theorem tells_push_of_ne (hroute : call.route ≠ some r) (h : t.Tells r p) :
    Tells { t with commands := t.commands ++ [call.command] } r p := by
  have hnone := ClientCall.last_command_eq_none hroute
  refine ⟨?_, ?_⟩
  · intro hlast
    refine h.pushed ?_
    have hlast' : EditLog.last r (announcementEdits (t.commands ++ [call.command])) = some true :=
      hlast
    rwa [announcementEdits_append, EditLog.last_append, hnone, Option.none_or] at hlast'
  · intro rest hrest
    show After r False (edits t.sent ++ rest.map .insert ++
      announcementEdits (t.commands ++ [call.command])) ↔ p
    rw [announcementEdits_append, ← List.append_assoc, EditLog.after_append]
    unfold After
    rw [hnone]
    exact h.session rest hrest

end PeerTask

namespace Client

variable {servers : Nat} {x x' : Client} {s : ServerId} {r : RouteKey}

/-- A call that announces or withdraws `r` has still to reach the server. -/
def Pending (x : Client) (s : ServerId) (r : RouteKey) : Prop :=
  ∃ a ∈ x.active, a.call.route = some r ∧ s ∈ a.rest

instance (x : Client) (s : ServerId) (r : RouteKey) : Decidable (x.Pending s r) :=
  inferInstanceAs (Decidable (∃ a ∈ x.active, a.call.route = some r ∧ s ∈ a.rest))

/-- If the peer task lists the announced routes, then no `Remove` is the last word of its
channel on one of them. A route that a call has still to send to the peer does not count. -/
def KeepsAnnounced (s : ServerId) (x : Client) (l : ClientLabel) : Prop :=
  match l with
  | .task server action =>
    server = s → action.listsRoutes = true → ∀ r,
      EditLog.last r (announcementEdits (x.peers s).commands) = some false →
        r ∈ x.announcedRoutes → x.Pending s r
  | _ => True

instance (s : ServerId) (x : Client) : (l : ClientLabel) → Decidable (x.KeepsAnnounced s l)
  | .task server action =>
    -- Only a route that a command is about can have a last command.
    decidable_of_iff (server = s → action.listsRoutes = true →
        ∀ r ∈ (announcementEdits (x.peers s).commands).map Edit.target,
          EditLog.last r (announcementEdits (x.peers s).commands) = some false →
          r ∈ x.announcedRoutes → x.Pending s r)
      ⟨fun h heq hlists r hlast => h heq hlists r (EditLog.mem_target_of_last hlast) hlast,
        fun h heq hlists r _ => h heq hlists r⟩
  | .call _ _ => inferInstanceAs (Decidable True)
  | .check => inferInstanceAs (Decidable True)
  | .enqueue => inferInstanceAs (Decidable True)
  | .finish => inferInstanceAs (Decidable True)

/-- What the peer says of `r` is what the client says, unless a call on `r` has still to reach
the peer. -/
structure Announces (s : ServerId) (r : RouteKey) (x : Client) : Prop where
  fresh : (x.peers s).Fresh
  tells : (x.peers s).phase ≠ .closed → ¬ x.Pending s r →
    (x.peers s).Tells r (r ∈ x.announcedRoutes)
  /-- The table has the effect of the active call already. -/
  calling : ∀ a ∈ x.active, ∀ b, EditLog.last r (announcementEdits [a.call.command]) = some b →
    (b = true ↔ r ∈ x.announcedRoutes)

/-- A new client announces nothing, and no peer says anything else. -/
theorem announces_new : Announces s r new where
  fresh := PeerTask.fresh_new
  tells := by
    intro _ _
    refine PeerTask.Tells.of_offline rfl fun hlast => ?_
    cases hlast
  calling := by
    intro a ha
    cases ha

/-- What a call does to the table of announced routes, if it is not rejected. -/
theorem enter_eq_ok {call : ClientCall} (h : x.enter call = .ok x') :
    x'.peers = x.peers ∧ ∀ r, r ∈ x'.announcedRoutes ↔
      After r (r ∈ x.announcedRoutes) (announcementEdits [call.command]) := by
  cases call with
  | subscribe | unsubscribe | shutdown =>
    cases h
    exact ⟨rfl, fun _ => Iff.rfl⟩
  | announce vni destination nextHop =>
    -- A route that is announced already is rejected.
    by_cases hknown : x.announcedRoutes.nextHopExists vni destination nextHop = true
    · simp only [enter, hknown, if_true] at h
      cases h
    · simp only [enter, hknown] at h
      cases h
      refine ⟨rfl, fun r => ?_⟩
      show r ∈ (x.announcedRoutes.addNextHop vni destination nextHop).1
        ↔ After r _ [.insert (vni, destination, nextHop)]
      rw [RouteTable.mem_addNextHop, EditLog.after_insert]
  | withdraw vni destination nextHop =>
    -- A route that is not announced is rejected.
    by_cases hknown : x.announcedRoutes.nextHopExists vni destination nextHop = true
    · simp only [enter, hknown, if_true] at h
      cases h
      refine ⟨rfl, fun r => ?_⟩
      show r ∈ (x.announcedRoutes.removeNextHop vni destination nextHop).1
        ↔ After r _ [.erase (vni, destination, nextHop)]
      rw [RouteTable.mem_removeNextHop, EditLog.after_erase]
    · simp only [enter, hknown] at h
      cases h

/-- A call that is accepted edits the table as its command edits the server's, and becomes the
active one. A call that is refused does neither. -/
theorem announced_of_call {call : ClientCall} {order : List ServerId}
    (h : (lts servers).step x (.call call order) = some x') :
    (x'.active = some ⟨call, order, false, false⟩ ∧ ∀ r, r ∈ x'.announcedRoutes ↔
        After r (r ∈ x.announcedRoutes) (announcementEdits [call.command])) ∨
      (x'.active = none ∧ x'.announcedRoutes = x.announcedRoutes) := by
  simp only [lts, step, begin] at h
  split at h
  · rename_i hguard
    split at h
    · cases h
      exact Or.inr ⟨hguard.1, rfl⟩
    · rename_i y henter
      cases h
      exact Or.inl ⟨rfl, (enter_eq_ok henter).2⟩
  · cases h

/-- A step that leaves the peer and the table as they are, and takes no call on `r` past the
peer. -/
theorem Announces.of_unconcerned (h : Announces s r x) (hpeer : x'.peers s = x.peers s)
    (htable : x'.announcedRoutes = x.announcedRoutes)
    (hpending : (x.peers s).phase ≠ .closed → x.Pending s r → x'.Pending s r)
    (hactive : ∀ a ∈ x'.active, ∃ b ∈ x.active, b.call = a.call) : Announces s r x' where
  fresh := by
    rw [hpeer]
    exact h.fresh
  tells := by
    intro hopen hquiet
    rw [hpeer] at hopen ⊢
    rw [htable]
    exact h.tells hopen fun hbefore => hquiet (hpending hopen hbefore)
  calling := by
    intro a ha
    obtain ⟨b, hb, hcall⟩ := hactive a ha
    rw [htable, ← hcall]
    exact h.calling b hb

/-- The start of a call keeps the peer in agreement with the client: the table changes at once,
and with it the call becomes pending at the peer. -/
theorem announces_call {call : ClientCall} {order : List ServerId} (hserver : s.id < servers)
    (h : Announces s r x) (hs : (lts servers).step x (.call call order) = some x') :
    Announces s r x' := by
  obtain ⟨hidle, horder, hpeers, -⟩ := call_eq_some hs
  have hquiet : ¬ x.Pending s r := by
    rintro ⟨a, ha, -⟩
    rw [hidle] at ha
    cases ha
  rcases announced_of_call hs with ⟨hactive, htable⟩ | ⟨hactive, htable⟩
  · refine ⟨by rw [hpeers]; exact h.fresh, ?_, ?_⟩
    · intro hopen hpending
      rw [hpeers] at hopen ⊢
      have hroute : call.route ≠ some r := by
        intro heq
        exact hpending ⟨_, hactive, heq, (mem_order horder).mpr hserver⟩
      -- The table has the same to say about the routes of other calls.
      have hsame : r ∈ x'.announcedRoutes ↔ r ∈ x.announcedRoutes := by
        rw [htable]
        unfold After
        rw [ClientCall.last_command_eq_none hroute]
      rw [hsame]
      exact h.tells hopen hquiet
    · intro a ha b hlast
      rw [hactive] at ha
      cases ha
      rw [htable]
      unfold After
      rw [hlast]
  · -- The call is rejected.
    refine h.of_unconcerned (by rw [hpeers]) htable (fun _ hpending => absurd hpending hquiet) ?_
    intro a ha
    rw [hactive] at ha
    cases ha

/-- A call passes over a peer that is not established, so no session is concerned. -/
theorem announces_check (h : Announces s r x) (hs : (lts servers).step x .check = some x') :
    Announces s r x' := by
  obtain ⟨call, s₀, rest, sentAny, hactive, hneeds, ⟨-, rfl⟩ | ⟨hstate, rfl⟩⟩ := check_eq_some hs
  · refine h.of_unconcerned rfl rfl ?_ fun a ha => ⟨_, hactive, by cases ha; rfl⟩
    rintro - ⟨a, ha, hroute, hmem⟩
    cases hactive.symm.trans ha
    exact ⟨_, rfl, hroute, hmem⟩
  · by_cases hskipped : call.route = some r ∧ s = s₀
    · obtain ⟨hroute, rfl⟩ := hskipped
      refine ⟨h.fresh, ?_, ?_⟩
      · intro hopen hpending
        -- The call is an announcement, and the table has the route.
        have hr : r ∈ x.announcedRoutes := by
          obtain ⟨b, hb⟩ := ClientCall.last_command_isSome hroute
          refine (h.calling _ hactive b hb).mp ?_
          cases call with
          | announce vni destination nextHop =>
            cases hroute
            simpa [announcementEdits, Connection.commandMessage, ClientCall.command, edits,
              Message.edit, EditLog.last, Edit.target, Edit.inserts] using hb.symm
          | subscribe => cases hroute
          | unsubscribe | withdraw | shutdown => cases hneeds
        refine PeerTask.Tells.of_offline ?_ fun _ => hr
        cases hphase : (x.peers s).phase.unrepeated with
        | none => rfl
        | some rest' =>
          exact absurd (h.fresh.state (TaskPhase.live_of_unrepeated hphase)) hstate
      · intro a ha
        cases ha
        have hcalling := h.calling _ hactive
        exact hcalling
    · refine h.of_unconcerned rfl rfl ?_ fun a ha => ⟨_, hactive, by cases ha; rfl⟩
      rintro - ⟨a, ha, hroute, hmem⟩
      cases hactive.symm.trans ha
      refine ⟨_, rfl, hroute, (List.mem_cons.mp hmem).resolve_left fun heq => ?_⟩
      exact hskipped ⟨hroute, heq⟩

/-- Sending the command to a peer ends what is pending there: from now on the command at the end
of the channel speaks for the call. -/
theorem announces_enqueue (h : Announces s r x)
    (hs : (lts servers).step x .enqueue = some x') : Announces s r x' := by
  obtain ⟨call, s₀, rest, checked, sentAny, hactive, -, ⟨hclosed, rfl⟩ | ⟨hopen₀, -, rfl⟩⟩ :=
    enqueue_eq_some hs
  · -- The task has returned, and nothing is said of it any more.
    refine h.of_unconcerned rfl rfl ?_ fun a ha => ⟨_, hactive, by cases ha; rfl⟩
    rintro hopen ⟨a, ha, hroute, hmem⟩
    cases hactive.symm.trans ha
    refine ⟨_, rfl, hroute, (List.mem_cons.mp hmem).resolve_left ?_⟩
    rintro rfl
    exact hopen hclosed
  · by_cases hs₀ : s = s₀
    · subst hs₀
      refine ⟨?_, ?_, ?_⟩
      · show PeerTask.Fresh (Function.update x.peers s _ s)
        rw [Function.update_self]
        exact ⟨h.fresh.state, h.fresh.sent⟩
      · intro _ hpending
        show PeerTask.Tells (Function.update x.peers s _ s) r _
        rw [Function.update_self]
        -- The command is the last word on its own route, and no word on any other.
        by_cases hroute : call.route = some r
        · exact PeerTask.tells_push hroute (h.calling _ hactive)
        · refine PeerTask.tells_push_of_ne hroute (h.tells hopen₀ ?_)
          rintro ⟨a, ha, hroute', -⟩
          cases hactive.symm.trans ha
          exact hroute hroute'
      · intro a ha
        cases ha
        have hcalling := h.calling _ hactive
        exact hcalling
    · refine h.of_unconcerned (Function.update_of_ne hs₀ _ x.peers) rfl ?_
        fun a ha => ⟨_, hactive, by cases ha; rfl⟩
      rintro - ⟨a, ha, hroute, hmem⟩
      cases hactive.symm.trans ha
      exact ⟨_, rfl, hroute, List.mem_of_ne_of_mem hs₀ hmem⟩

/-- A call that has sent to all peers has nothing pending, so its end changes nothing. -/
theorem announces_finish (h : Announces s r x)
    (hs : (lts servers).step x .finish = some x') : Announces s r x' := by
  obtain ⟨call, checked, sentAny, hactive, rfl⟩ := finish_eq_some hs
  refine h.of_unconcerned rfl rfl ?_ fun a ha => by cases ha
  rintro - ⟨a, ha, -, hmem⟩
  cases hactive.symm.trans ha
  cases hmem

/-- An action of the peer task keeps what the peer says. The only dangerous one lists the
announced routes while a withdrawal waits in the channel, which `KeepsAnnounced` excludes. -/
theorem announces_task {server : ServerId} {action : TaskAction} (h : Announces s r x)
    (hok : KeepsAnnounced s x (.task server action))
    (hs : (lts servers).step x (.task server action) = some x') : Announces s r x' := by
  obtain ⟨-, t, hact, rfl⟩ := task_eq_some hs
  by_cases hserver : s = server
  · subst hserver
    refine ⟨?_, ?_, h.calling⟩
    · show PeerTask.Fresh (Function.update x.peers s t s)
      rw [Function.update_self]
      exact PeerTask.fresh_act h.fresh hact
    · intro hopen hpending
      have hopen' : (Function.update x.peers s t s).phase ≠ .closed := hopen
      show PeerTask.Tells (Function.update x.peers s t s) r _
      rw [Function.update_self] at hopen' ⊢
      refine PeerTask.tells_act (h.tells (PeerTask.phase_ne_closed hact) hpending) h.fresh hact
        hopen' ?_
      rintro routes rfl hlast hr
      exact hpending (hok rfl rfl r hlast hr)
  · exact h.of_unconcerned (Function.update_of_ne hserver t x.peers) rfl (fun _ => id)
      fun a ha => ⟨a, ha, rfl⟩

/-- Every step that meets the condition keeps the peer in agreement with the client. -/
theorem announces_step {l : ClientLabel} (hserver : s.id < servers) (h : Announces s r x)
    (hok : KeepsAnnounced s x l) (hs : (lts servers).step x l = some x') : Announces s r x' := by
  cases l with
  | call call order => exact announces_call hserver h hs
  | check => exact announces_check h hs
  | enqueue => exact announces_enqueue h hs
  | finish => exact announces_finish h hs
  | task server action => exact announces_task h hok hs

/-- **Announcements survive reconnects.** Consider a run in which the peer task never lists the
announced routes while a stale `Remove` waits in its channel. Whenever the session is
established, the routes are repeated, the command channel is empty and no call has still to
reach the peer, the updates that the session has sent amount to the table of announced
routes. -/
theorem replay_eq_announced {ls : List ClientLabel} (hrun : (lts servers).Run ls x)
    (hok : (lts servers).Throughout (KeepsAnnounced s) ls) (hserver : s.id < servers)
    (hphase : (x.peers s).phase = .running) (hcommands : (x.peers s).commands = [])
    (hquiet : ∀ a ∈ x.active, s ∉ a.rest) :
    replay (x.peers s).sent = x.announcedRoutes.triples := by
  ext r
  have h : Announces s r x := by
    refine Lts.Run.invariant_of_throughout (P := Announces s r) announces_new ?_ hrun hok
    intro _ _ _ _ _ h hstep hs
    exact announces_step hserver h hstep hs
  have hpending : ¬ x.Pending s r := by
    rintro ⟨a, ha, -, hmem⟩
    exact hquiet a ha hmem
  have htells := h.tells (by rw [hphase]; intro heq; cases heq) hpending
  have hsession := htells.session [] (by rw [hphase]; rfl)
  rw [hcommands] at hsession
  rw [mem_replay, RouteTable.mem_triples, ← hsession]
  simp [announcementEdits]

/-- A client announces a route in an established session, and loses the connection to its server
for a while. -/
def announcedAndReconnected : List ClientLabel :=
  connects ⟨0⟩ [] ++
    [ .call (.announce ⟨100⟩ (makeDest 1) (makeHop 1)) [⟨0⟩], .check, .enqueue, .finish,
      .task ⟨0⟩ .command ] ++
    disconnects ⟨0⟩ ++
    [ .task ⟨0⟩ .retryElapsed, .task ⟨0⟩ .helloSent, .task ⟨0⟩ .helloReceived,
      .task ⟨0⟩ (.established []), .task ⟨0⟩ (.collect [(⟨100⟩, ⟨makeDest 1, makeHop 1⟩)]),
      .task ⟨0⟩ .reannounce, .task ⟨0⟩ .enterLoop ]

/-- On the new connection of the run `announcedAndReconnected`, the route is announced again. -/
theorem replay_eq_announced_reconnected :
    ∃ x, (lts 1).Run announcedAndReconnected x ∧
      (⟨100⟩, makeDest 1, makeHop 1) ∈ x.announcedRoutes ∧
      replay (x.peers ⟨0⟩).sent = x.announcedRoutes.triples := by
  have hrun : (lts 1).Run announcedAndReconnected _ := Lts.Run.of_exec (by decide)
  have hok : (lts 1).Throughout (KeepsAnnounced ⟨0⟩) announcedAndReconnected :=
    Lts.throughout_of_check (by decide)
  exact ⟨_, hrun, by decide,
    replay_eq_announced hrun hok (by decide) (by decide) (by decide) (by decide)⟩

/-- A client announces a route, withdraws it and announces it again while only the second of its
two servers is established. Then the first one is reached. -/
def announcedAgain : List ClientLabel :=
  connects ⟨1⟩ [] ++
    [ .call (.announce ⟨100⟩ (makeDest 1) (makeHop 1)) [⟨0⟩, ⟨1⟩], .check, .check, .enqueue,
      .finish,
      .call (.withdraw ⟨100⟩ (makeDest 1) (makeHop 1)) [⟨0⟩, ⟨1⟩], .enqueue, .enqueue, .finish,
      .call (.announce ⟨100⟩ (makeDest 1) (makeHop 1)) [⟨0⟩, ⟨1⟩], .check, .check, .enqueue,
      .finish,
      .task ⟨0⟩ .helloSent, .task ⟨0⟩ .helloReceived, .task ⟨0⟩ (.established []),
      .task ⟨0⟩ (.collect [(⟨100⟩, ⟨makeDest 1, makeHop 1⟩)]), .task ⟨0⟩ .reannounce,
      .task ⟨0⟩ .enterLoop, .task ⟨0⟩ .command ]

/-- The first server of the run `announcedAgain` is told that the route is withdrawn, although
the client announces it. -/
theorem announcement_undone :
    ¬ ∀ (servers : Nat) (ls : List ClientLabel) (x : Client), (lts servers).Run ls x →
      ∀ (s : ServerId), s.id < servers → (x.peers s).state = .established →
        (x.peers s).phase = .running → (x.peers s).commands = [] → x.active = none →
        replay (x.peers s).sent = x.announcedRoutes.triples := by
  intro h
  have hrun : (lts 2).Run announcedAgain _ := Lts.Run.of_exec (by decide)
  have heq := h 2 announcedAgain _ hrun ⟨0⟩ (by decide) (by decide) (by decide) (by decide)
    (by decide)
  have hiff := Finset.ext_iff.mp heq (⟨100⟩, makeDest 1, makeHop 1)
  rw [RouteTable.mem_triples] at hiff
  revert hiff
  decide

end Client

end RustBond
