import RustBond.Proofs.Client.Client
import RustBond.Proofs.Client.PeerTask

/-!
# `RustBond.Proofs.Client.Unsubscriptions`: whether an unsubscription lasts

A peer task repeats the VNIs in its own set on every new connection, so an unsubscription
lasts if it takes the VNI out of this set. The task does so when the main loop has written the
message for the command. It does not when the write fails, and it does not when it takes the
command while it waits to retry. In both cases the command is gone and the set is as before.

`durable_and_handled_iff` is the exact statement. In a run, unsubscriptions last and every
command has an effect if and only if no peer task loses a command that would have had one
(`KeepsCommands`). Two invariants carry the proof.

* Up to the moment at which the channel is empty: a peer that has been sent the unsubscription
  does not intend the VNI (`Renouncing`).
* From this moment on: the VNI is neither in the own set nor on its way to it
  (`PeerTask.Without`), so no new session asks for it (`PeerTask.Silent`).

`resubscribed` is a run in which the client is unsubscribed and the server is told otherwise.
-/

set_option autoImplicit false

namespace RustBond

open EditLog (After)

namespace PeerTask

variable {announced : RouteTable} {t t' : PeerTask} {action : TaskAction} {v : Vni}

/-! ### Commands that are taken from the channel -/

/-- The command has had its effect: its message is written, or the own set is as it asks. -/
def Handled (cmd : PeerCommand) (t t' : PeerTask) : Prop :=
  (∃ msg ∈ Connection.commandMessage cmd, t'.sent = t.sent ++ [msg]) ∨
    match cmd with
    | .subscribe vni => vni ∈ t'.subscriptions
    | .unsubscribe vni => vni ∉ t'.subscriptions
    | .sendUpdate _ => False
    | .shutdown => t'.phase = .closed

/-- The command would change nothing, so it may be lost. -/
def Idle (cmd : PeerCommand) (t : PeerTask) : Prop :=
  match cmd with
  | .subscribe vni => vni ∈ t.subscriptions
  | .unsubscribe vni => vni ∉ t.subscriptions
  | .sendUpdate _ => False
  | .shutdown => True

instance : (cmd : PeerCommand) → (t : PeerTask) → Decidable (Idle cmd t)
  | .subscribe vni, t => inferInstanceAs (Decidable (vni ∈ t.subscriptions))
  | .unsubscribe vni, t => inferInstanceAs (Decidable (vni ∉ t.subscriptions))
  | .sendUpdate _, _ => inferInstanceAs (Decidable False)
  | .shutdown, _ => inferInstanceAs (Decidable True)

/-- What can become of a command that an action takes from the channel. -/
theorem taken_of_act {cmd : PeerCommand} (h : t.act announced action = some t')
    (htaken : t.commands = cmd :: t'.commands) :
    (∃ msg, action = .command ∧ Connection.commandMessage cmd = some msg ∧
        t'.sent = t.sent ++ [msg]) ∨
      (cmd = .shutdown ∧ t'.phase = .closed) ∨
      ((action = .commandFailed ∨ action = .retryCommand) ∧ cmd ≠ .shutdown ∧
        t'.sent = t.sent ∧ t'.subscriptions = t.subscriptions) := by
  -- An action that takes no command leaves the channel as it was.
  have hkept : t'.commands ≠ t.commands := by
    intro heq
    rw [heq] at htaken
    exact List.cons_ne_self _ _ htaken.symm
  cases action with
  | command =>
    simp only [act] at h
    split at h
    · rename_i cmd' rest hphase hcommands
      have hcmd : cmd' = cmd := by
        rw [hcommands] at htaken
        exact (List.cons.inj htaken).1
      subst hcmd
      split at h
      · rename_i msg hmsg
        cases h
        exact Or.inl ⟨msg, rfl, hmsg, rfl⟩
      · rename_i hmsg
        cases h
        cases cmd' with
        | shutdown => exact Or.inr (Or.inl ⟨rfl, rfl⟩)
        | subscribe | unsubscribe | sendUpdate => cases hmsg
    · cases h
  | commandFailed =>
    simp only [act] at h
    split at h
    · rename_i cmd' rest hphase hcommands
      have hcmd : cmd' = cmd := by
        rw [hcommands] at htaken
        exact (List.cons.inj htaken).1
      subst hcmd
      split at h
      · rename_i hmsg
        cases h
        refine Or.inr (Or.inr ⟨Or.inl rfl, ?_, rfl, rfl⟩)
        rintro rfl
        cases hmsg
      · cases h
    · cases h
  | retryCommand =>
    simp only [act] at h
    split at h
    · rename_i rest hphase hcommands
      cases h
      rw [hcommands] at htaken
      exact Or.inr (Or.inl ⟨(List.cons.inj htaken).1.symm, rfl⟩)
    · rename_i cmd' rest hnot hphase hcommands
      cases h
      rw [hcommands] at htaken
      have hcmd : cmd' = cmd := (List.cons.inj htaken).1
      refine Or.inr (Or.inr ⟨Or.inr rfl, ?_, rfl, rfl⟩)
      rintro rfl
      exact hnot hcmd
    · cases h
  | connectionEnded =>
    refine absurd ?_ hkept
    cases hphase : t.phase with
    | connecting | resubscribing | reannouncing | running =>
      simp only [act, hphase, Option.some.injEq] at h
      rw [← h]
    | ended | retrying | closed =>
      simp only [act, hphase] at h
      cases h
  | connectFailed | helloSent | helloReceived | established | resubscribe | collect | reannounce
  | enterLoop | keepalive | receive | clear | retryElapsed =>
    refine absurd ?_ hkept
    simp only [act] at h
    split at h
    · cases h
      rfl
    · cases h

/-- A lost command leaves what is sent and the own set as they were. -/
theorem lost_of_act {cmd : PeerCommand} {rest : List PeerCommand}
    (h : t.act announced action = some t')
    (haction : action = .commandFailed ∨ action = .retryCommand)
    (hcommands : t.commands = cmd :: rest) : t.commands = cmd :: t'.commands := by
  -- Both actions take the first command.
  rcases haction with rfl | rfl
  · simp only [act] at h
    split at h
    · rename_i cmd' rest' hphase hcommands'
      split at h
      · cases h
        rw [hcommands'] at hcommands ⊢
        rw [(List.cons.inj hcommands).1]
      · cases h
    · cases h
  · simp only [act] at h
    split at h
    · rename_i rest' hphase hcommands'
      cases h
      rw [hcommands'] at hcommands ⊢
      rw [(List.cons.inj hcommands).1]
    · rename_i cmd' rest' hnot hphase hcommands'
      cases h
      rw [hcommands'] at hcommands ⊢
      rw [(List.cons.inj hcommands).1]
    · cases h

/-- A taken command has its effect, if it is not lost or would have changed nothing. -/
theorem handled_iff {cmd : PeerCommand} (h : t.act announced action = some t')
    (htaken : t.commands = cmd :: t'.commands) :
    Handled cmd t t' ↔
      (action = .commandFailed ∨ action = .retryCommand → Idle cmd t) := by
  rcases taken_of_act h htaken with ⟨msg, rfl, hmsg, hsent⟩ | ⟨rfl, hphase⟩ |
    ⟨haction, hne, hsent, hsubscriptions⟩
  · refine iff_of_true (Or.inl ⟨msg, hmsg, hsent⟩) ?_
    rintro (hlost | hlost)
    · cases hlost
    · cases hlost
  · exact iff_of_true (Or.inr hphase) fun _ => trivial
  · -- Nothing is written for a lost command, so only the own set can show an effect.
    have hunsent : ¬ ∃ msg ∈ Connection.commandMessage cmd, t'.sent = t.sent ++ [msg] := by
      rintro ⟨msg, -, hmsg⟩
      rw [hsent] at hmsg
      simp at hmsg
    unfold Handled Idle
    rw [or_iff_right hunsent, hsubscriptions, forall_prop_of_true haction]
    cases cmd with
    | subscribe | unsubscribe | sendUpdate => exact Iff.rfl
    | shutdown => exact absurd rfl hne

/-! ### After the channel was empty -/

/-- The task does not have `v` in its own set, and no command asks for it. -/
def Without (t : PeerTask) (v : Vni) : Prop :=
  v ∉ t.subscriptions ∧ ∀ cmd ∈ t.commands, Connection.commandMessage cmd ≠ some (.subscribe v)

/-- The session has not asked for `v`, and does not go on to repeat it. -/
def Silent (t : PeerTask) (v : Vni) : Prop :=
  .subscribe v ∉ t.sent ∧ ∀ rest, t.phase = .resubscribing rest → v ∉ rest

/-- A task without the VNI stays without it, as nothing in its channel brings it back. -/
theorem without_act (h : t.Without v) (hact : t.act announced action = some t')
    (hopen : t'.phase ≠ .closed) : t'.Without v := by
  obtain ⟨hown, hchannel⟩ := h
  unfold Without
  cases effect_of_act hact with
  | connected hbefore hsubs hphase hsubscriptions hcommands
  | resubscribed hbefore hphase hsubscriptions hcommands
  | collected hbefore hroutes hphase hsubscriptions hcommands
  | reannounced hbefore hphase hsubscriptions hcommands
  | entered hbefore hphase hsubscriptions hcommands
  | idled hbefore hphase hsubscriptions hcommands
  | offline hopen' hphase hsubscriptions hcommands =>
    rw [hsubscriptions, hcommands]
    exact ⟨hown, hchannel⟩
  | dropped haction hopen' htaken hphase hsubscriptions hcommands =>
    rw [hsubscriptions, hcommands]
    rw [htaken] at hchannel
    exact ⟨hown, fun cmd hmem => hchannel cmd (List.mem_cons_of_mem _ hmem)⟩
  | @commanded cmd rest msg hbefore htaken hmsg hphase hconnection hcommands hsent =>
    -- The command is not a subscribe command for `v`, so the own set does not get `v`.
    rw [htaken] at hchannel
    rw [hcommands]
    refine ⟨?_, fun cmd hmem => hchannel cmd (List.mem_cons_of_mem _ hmem)⟩
    intro hmem
    have hafter : v ∈ (t.connection.handleCommand cmd).1.subscriptions := by
      rw [← hconnection]
      exact hmem
    rw [mem_subscriptions_handleCommand] at hafter
    refine hown (EditLog.of_after_of_not_insert ?_ hafter)
    intro hedit
    obtain ⟨cmd', hcmd', hcmdEdit⟩ := List.mem_filterMap.mp hedit
    rw [List.mem_singleton.mp hcmd'] at hcmdEdit
    refine hchannel cmd List.mem_cons_self ?_
    rw [PeerCommand.eq_subscribe hcmdEdit]
    rfl
  | closed hphase => exact absurd hphase hopen

/-- A session that is established now is silent. -/
theorem silent_established {subs : List Vni} (h : v ∉ t.subscriptions)
    (hact : t.act announced (.established subs) = some t') : t'.Silent v := by
  simp only [act] at hact
  split at hact
  · rename_i hguard
    cases hact
    refine ⟨List.not_mem_nil, ?_⟩
    intro rest hphase hmem
    cases hphase
    refine h ?_
    unfold subscriptions
    rw [← Finset.mem_val, ← hguard.2.2]
    exact hmem
  · cases hact

/-- A task that writes nothing stays silent, unless it begins to repeat its subscriptions. -/
theorem Silent.of_sent_eq (h : t.Silent v) (hsent : t'.sent = t.sent)
    (hphase : ∀ rest, t'.phase ≠ .resubscribing rest) : t'.Silent v :=
  ⟨hsent ▸ h.1, fun rest heq => absurd heq (hphase rest)⟩

/-- The end of a session writes nothing and repeats nothing. -/
theorem Silent.of_offline (h : t.Silent v) (hsent : t'.sent = t.sent) (hphase : t'.phase.Offline) :
    t'.Silent v := by
  refine h.of_sent_eq hsent ?_
  rcases hphase with heq | heq | heq
  · simp [heq]
  · simp [heq]
  · simp [heq]

/-- A task that writes something other than the subscription stays silent. -/
theorem Silent.of_sent_append {msg : Message} (h : t.Silent v) (hsent : t'.sent = t.sent ++ [msg])
    (hmsg : msg ≠ .subscribe v) (hphase : ∀ rest, t'.phase ≠ .resubscribing rest) :
    t'.Silent v := by
  refine ⟨?_, fun rest heq => absurd heq (hphase rest)⟩
  rw [hsent, List.mem_append, not_or, List.mem_singleton]
  exact ⟨h.1, hmsg.symm⟩

/-- A task that is without `v` says nothing of it on a silent session. -/
theorem silent_act (h : t.Silent v) (hwithout : t.Without v)
    (hact : t.act announced action = some t') : t'.Silent v := by
  cases effect_of_act hact with
  | connected => exact silent_established hwithout.1 hact
  | @resubscribed vni rest hbefore hphase hsubscriptions hcommands hsent =>
    have hnot : v ∉ vni :: rest := h.2 _ hbefore
    rw [List.mem_cons, not_or] at hnot
    refine ⟨?_, ?_⟩
    · rw [hsent, List.mem_append, not_or, List.mem_singleton]
      exact ⟨h.1, fun heq => hnot.1 (Message.subscribe.inj heq)⟩
    · intro rest' hphase'
      cases hphase.symm.trans hphase'
      exact hnot.2
  | collected hbefore hroutes hphase hsubscriptions hcommands hsent
  | entered hbefore hphase hsubscriptions hcommands hsent =>
    exact h.of_sent_eq hsent (by simp [hphase])
  | reannounced hbefore hphase hsubscriptions hcommands hsent =>
    exact h.of_sent_append hsent (by simp) (by simp [hphase])
  | idled hbefore hphase hsubscriptions hcommands hsent =>
    rcases hsent with hsent | hsent
    · exact h.of_sent_eq hsent (by simp [hphase])
    · exact h.of_sent_append hsent (by simp) (by simp [hphase])
  | @commanded cmd rest msg hbefore htaken hmsg hphase hconnection hcommands hsent =>
    refine h.of_sent_append hsent ?_ (by simp [hphase])
    rintro rfl
    exact hwithout.2 cmd (htaken ▸ List.mem_cons_self) hmsg
  | dropped haction hopen htaken hphase =>
    exact h.of_offline (sent_of_act hact (.inl hphase)) hphase
  | offline hopen hphase => exact h.of_offline (sent_of_act hact (.inl hphase)) hphase
  | closed hphase => exact h.of_sent_eq (sent_of_act hact (.inr hphase)) (by simp [hphase])

end PeerTask

/-! ### Up to the moment at which the channel is empty -/

/-- A call event as an edit of the VNIs that the client has asked for. -/
def CallEvent.request (e : CallEvent) : Option (Edit Vni) :=
  match e with
  | .called (.subscribe vni) => some (.insert vni)
  | .returned (.unsubscribe vni) none => some (.erase vni)
  | _ => none

/-- The calls of a client as an edit log. -/
def requests (log : List CallEvent) : List (Edit Vni) := log.filterMap CallEvent.request

/-- The requests of a log with one more event. -/
theorem requests_snoc (log : List CallEvent) (e : CallEvent) :
    requests (log ++ [e]) = requests log ++ e.request.toList := by
  unfold requests
  rw [List.filterMap_append]
  cases h : e.request with
  | none => simp [h]
  | some edit => simp [h]

namespace Client

/-- `unsubscribe` has returned `Ok` for `v`, and `subscribe` has not been called for `v`
since. -/
def Unsubscribed (x : Client) (v : Vni) : Prop := EditLog.last v (requests x.log) = some false

instance (x : Client) (v : Vni) : Decidable (x.Unsubscribed v) :=
  inferInstanceAs (Decidable (EditLog.last v (requests x.log) = some false))

/-- The client is unsubscribed, or it is about to be and has already visited the server. -/
def Renounces (x : Client) (s : ServerId) (v : Vni) : Prop :=
  x.Unsubscribed v ∨ ∃ a ∈ x.active, a.call = .unsubscribe v ∧ s ∉ a.rest

/-- The step loses no unsubscription of `v` that the peer still needs. -/
def KeepsUnsubscribe (s : ServerId) (v : Vni) (x : Client) (l : ClientLabel) : Prop :=
  match l with
  | .task server action =>
    server = s → action = .commandFailed ∨ action = .retryCommand →
      (x.peers s).commands.head? = some (.unsubscribe v) → x.Renounces s v →
      v ∈ (x.peers s).subscriptions →
      ¬ After v True (subscriptionEdits (x.peers s).commands.tail)
  | _ => True

/-- A peer that the client has renounced `v` to does not intend it. -/
structure Renouncing (s : ServerId) (v : Vni) (x : Client) : Prop where
  intends : (x.peers s).phase ≠ .closed → x.Renounces s v → ¬ (x.peers s).Intends v
  calling : ∀ a ∈ x.active, a.call = .subscribe v → ¬ x.Unsubscribed v

variable {servers : Nat} {x x' : Client} {s : ServerId} {v : Vni}

/-- A new client has not unsubscribed anything. -/
theorem renouncing_new : Renouncing s v new where
  intends := by
    rintro - (hleft | ⟨a, hactive, -⟩)
    · cases hleft
    · cases hactive
  calling := by
    intro a hactive
    cases hactive

/-- A call for another VNI, and a part of a call that is not the one that counts, change
nothing about `v`. -/
theorem unsubscribed_congr {e : CallEvent} (hlog : x'.log = x.log ++ [e])
    (h : ∀ edit ∈ e.request, edit.target ≠ v) : x'.Unsubscribed v ↔ x.Unsubscribed v := by
  unfold Unsubscribed
  rw [hlog, requests_snoc, EditLog.last_append, EditLog.last_eq_none, Option.none_or]
  intro edit hmem
  exact h edit (Option.mem_toList.mp hmem)

/-- A call that is rejected changes nothing either. -/
theorem unsubscribed_rejected {call : ClientCall} {e : Error} (hlocks : call.locksRoutes = true)
    (hlog : x'.log = x.log ++ [.called call, .returned call (some e)]) :
    x'.Unsubscribed v ↔ x.Unsubscribed v := by
  have hnone : requests x'.log = requests x.log := by
    rw [hlog]
    unfold requests
    cases call with
    | announce | withdraw => simp [CallEvent.request]
    | subscribe | unsubscribe | shutdown => cases hlocks
  unfold Unsubscribed
  rw [hnone]

/-- A step that leaves the peer as it is and renounces nothing more. -/
theorem Renouncing.of_unconcerned (h : Renouncing s v x) (hpeer : x'.peers s = x.peers s)
    (hrenounces : (x.peers s).phase ≠ .closed → x'.Renounces s v → x.Renounces s v)
    (hactive : ∀ a ∈ x'.active, ∃ b ∈ x.active, b.call = a.call)
    (hleft : x'.Unsubscribed v → x.Unsubscribed v) : Renouncing s v x' where
  intends := by
    intro hopen hrenounce
    rw [hpeer] at hopen ⊢
    exact h.intends hopen (hrenounces hopen hrenounce)
  calling := by
    intro a ha hcall hleft'
    obtain ⟨b, hb, hsame⟩ := hactive a ha
    exact h.calling b hb (hsame.trans hcall) (hleft hleft')

/-- The start of a call does not bring the VNI back. A subscription is a new request, and an
unsubscription has still to get to the peers. -/
theorem renouncing_call {call : ClientCall} {order : List ServerId} (hserver : s.id < servers)
    (h : Renouncing s v x) (hs : (lts servers).step x (.call call order) = some x') :
    Renouncing s v x' := by
  obtain ⟨hidle, horder, hpeers, ⟨hactive, hlog⟩ | ⟨e, rfl, hlocks⟩⟩ := call_eq_some hs
  · -- No peer has been visited, so the call itself renounces nothing yet.
    have hleft : x'.Renounces s v → x'.Unsubscribed v := by
      rintro (hleft | ⟨a, ha, -, hvisited⟩)
      · exact hleft
      · rw [hactive] at ha
        cases ha
        exact absurd ((mem_order horder).mpr hserver) hvisited
    by_cases hcall : call = .subscribe v
    · have hnot : ¬ x'.Unsubscribed v := by
        unfold Unsubscribed
        rw [hlog, requests_snoc, EditLog.last_append, hcall]
        simp [CallEvent.request, EditLog.last, Edit.target, Edit.inserts]
      exact ⟨fun _ hrenounce => absurd (hleft hrenounce) hnot, fun _ _ _ => hnot⟩
    · have hsame : x'.Unsubscribed v ↔ x.Unsubscribed v := by
        refine unsubscribed_congr hlog ?_
        intro edit hedit
        cases call with
        | subscribe vni =>
          cases hedit
          exact fun heq => hcall (congrArg _ heq)
        | unsubscribe | announce | withdraw | shutdown => cases hedit
      refine ⟨?_, ?_⟩
      · intro hopen hrenounce
        rw [hpeers] at hopen ⊢
        exact h.intends hopen (Or.inl (hsame.mp (hleft hrenounce)))
      · intro a ha hcall'
        rw [hactive] at ha
        cases ha
        exact absurd hcall' hcall
  · have hsame : Unsubscribed { x with
        log := x.log ++ [.called call, .returned call (some e)] } v ↔ x.Unsubscribed v :=
      unsubscribed_rejected hlocks rfl
    refine h.of_unconcerned rfl ?_ (fun a ha => ⟨a, ha, rfl⟩) hsame.mp
    rintro - (hleft | hvisited)
    · exact Or.inl (hsame.mp hleft)
    · exact Or.inr hvisited

/-- A call that goes on renounces what it renounced before to the peers that it has not just
visited. -/
theorem Renounces.of_rest {a b : ActiveCall} (h : x'.Renounces s v) (hactive : x.active = some a)
    (hactive' : x'.active = some b) (hlog : x'.log = x.log) (hcall : b.call = a.call)
    (hrest : s ∈ a.rest → s ∈ b.rest) : x.Renounces s v := by
  rcases h with hleft | ⟨b', hb, hcall', hvisited⟩
  · unfold Unsubscribed at hleft
    rw [hlog] at hleft
    exact Or.inl hleft
  · cases hactive'.symm.trans hb
    exact Or.inr ⟨a, hactive, hcall ▸ hcall', fun hmem => hvisited (hrest hmem)⟩

/-- The check for an established connection changes no peer. -/
theorem renouncing_check (h : Renouncing s v x) (hs : (lts servers).step x .check = some x') :
    Renouncing s v x' := by
  obtain ⟨call, s₀, rest, sentAny, hactive, hneeds, ⟨-, rfl⟩ | ⟨-, rfl⟩⟩ := check_eq_some hs
  · refine h.of_unconcerned rfl ?_ (fun a ha => ⟨_, hactive, by cases ha; rfl⟩) id
    exact fun _ hrenounce => hrenounce.of_rest hactive rfl rfl rfl id
  · refine h.of_unconcerned rfl ?_ (fun a ha => ⟨_, hactive, by cases ha; rfl⟩) id
    rintro - (hleft | ⟨a, ha, hcall, -⟩)
    · exact Or.inl hleft
    · -- An unsubscribe passes over no peer.
      cases ha
      have hcall' : call = .unsubscribe v := hcall
      rw [hcall'] at hneeds
      cases hneeds

/-- A command that reaches the peer decides what it intends: an unsubscription ends it, and a
subscription is one that the client has asked for. -/
theorem renouncing_enqueue (h : Renouncing s v x)
    (hs : (lts servers).step x .enqueue = some x') : Renouncing s v x' := by
  obtain ⟨call, s₀, rest, checked, sentAny, hactive, -, ⟨hclosed, rfl⟩ | ⟨hopen₀, -, rfl⟩⟩ :=
    enqueue_eq_some hs
  · refine h.of_unconcerned rfl ?_ (fun a ha => ⟨_, hactive, by cases ha; rfl⟩) id
    intro hopen hrenounce
    have hne : s ≠ s₀ := by
      rintro rfl
      exact hopen hclosed
    exact hrenounce.of_rest hactive rfl rfl rfl fun hmem =>
      List.mem_of_ne_of_mem hne hmem
  · by_cases hs₀ : s = s₀
    · subst hs₀
      refine ⟨?_, ?_⟩
      · intro hopen hrenounce
        show ¬ PeerTask.Intends (Function.update x.peers s _ s) v
        rw [Function.update_self, PeerTask.intends_push]
        by_cases hcall : call = .unsubscribe v
        · have hone : subscriptionEdits [call.command] = [.erase v] := by rw [hcall]; rfl
          rw [hone, EditLog.after_erase]
          exact fun hafter => hafter.1 rfl
        · -- The client is unsubscribed already, and is not subscribing again.
          have hleft : x.Unsubscribed v := by
            rcases hrenounce with hleft | ⟨a, ha, hcall', -⟩
            · exact hleft
            · cases ha
              exact absurd hcall' hcall
          intro hafter
          refine h.intends hopen₀ (Or.inl hleft) (EditLog.of_after_of_not_insert ?_ hafter)
          intro hmem
          obtain ⟨cmd, hcmd, hedit⟩ := List.mem_filterMap.mp hmem
          rw [List.mem_singleton.mp hcmd] at hedit
          have hsubscribe : call = .subscribe v := by
            have heq := PeerCommand.eq_subscribe hedit
            cases call with
            | subscribe vni =>
              cases heq
              rfl
            | unsubscribe | announce | withdraw | shutdown => cases heq
          exact h.calling _ hactive hsubscribe hleft
      · intro a ha hcall
        cases ha
        exact h.calling _ hactive hcall
    · refine h.of_unconcerned (Function.update_of_ne hs₀ _ x.peers) ?_
        (fun a ha => ⟨_, hactive, by cases ha; rfl⟩) id
      exact fun _ hrenounce => hrenounce.of_rest hactive rfl rfl rfl fun hmem =>
        List.mem_of_ne_of_mem hs₀ hmem

/-- An unsubscription that returns has reached every peer, so all of them have renounced the VNI.
-/
theorem renouncing_finish (h : Renouncing s v x)
    (hs : (lts servers).step x .finish = some x') : Renouncing s v x' := by
  obtain ⟨call, checked, sentAny, hactive, rfl⟩ := finish_eq_some hs
  by_cases hcall : call = .unsubscribe v
  · -- It is here that the client becomes unsubscribed, and every peer has been visited.
    refine ⟨?_, fun a ha => by cases ha⟩
    rintro hopen -
    exact h.intends hopen (Or.inr ⟨_, hactive, hcall, List.not_mem_nil⟩)
  · have hsame : ∀ e, Unsubscribed { x with
        active := none, log := x.log ++ [.returned call e] } v ↔ x.Unsubscribed v := by
      intro e
      refine unsubscribed_congr rfl ?_
      intro edit hedit
      cases call with
      | unsubscribe vni =>
        cases e with
        | none =>
          cases hedit
          exact fun heq => hcall (congrArg _ heq)
        | some e => cases hedit
      | subscribe | announce | withdraw | shutdown => cases hedit
    refine h.of_unconcerned rfl ?_ (fun a ha => by cases ha) (hsame _).mp
    rintro - (hleft | ⟨a, ha, -⟩)
    · exact Or.inl ((hsame _).mp hleft)
    · cases ha

/-- A task that loses no unsubscription that it needs does not come to intend the VNI again. -/
theorem renouncing_task {server : ServerId} {action : TaskAction} (h : Renouncing s v x)
    (hok : KeepsUnsubscribe s v x (.task server action))
    (hs : (lts servers).step x (.task server action) = some x') : Renouncing s v x' := by
  obtain ⟨-, t, hact, rfl⟩ := task_eq_some hs
  by_cases hserver : s = server
  · subst hserver
    refine ⟨?_, h.calling⟩
    intro hopen hrenounce
    have hopen' : (Function.update x.peers s t s).phase ≠ .closed := hopen
    show ¬ PeerTask.Intends (Function.update x.peers s t s) v
    rw [Function.update_self] at hopen' ⊢
    have hbefore : ¬ (x.peers s).Intends v :=
      h.intends (PeerTask.phase_ne_closed hact) hrenounce
    refine PeerTask.not_intends_act hbefore hact hopen' ?_
    intro haction hhead
    by_cases hmem : v ∈ (x.peers s).subscriptions
    · intro hafter
      exact hok rfl haction hhead hrenounce hmem (hafter.mono fun _ => trivial)
    · -- The own set is without `v` already, with the command or without it.
      intro hafter
      refine hbefore ?_
      unfold PeerTask.Intends
      obtain ⟨rest, hcommands⟩ := List.head?_eq_some_iff.mp hhead
      rw [hcommands, subscriptionEdits_cons, EditLog.after_append]
      rw [hcommands] at hafter
      exact hafter.mono fun hstart => absurd hstart hmem
  · exact h.of_unconcerned (Function.update_of_ne hserver t x.peers) (fun _ => id)
      (fun a ha => ⟨a, ha, rfl⟩) id

/-- Every step that meets the condition keeps the peer from intending what the client has
renounced. -/
theorem renouncing_step {l : ClientLabel} (hserver : s.id < servers) (h : Renouncing s v x)
    (hok : KeepsUnsubscribe s v x l) (hs : (lts servers).step x l = some x') :
    Renouncing s v x' := by
  cases l with
  | call call order => exact renouncing_call hserver h hs
  | check => exact renouncing_check h hs
  | enqueue => exact renouncing_enqueue h hs
  | finish => exact renouncing_finish h hs
  | task server action => exact renouncing_task h hok hs

/-! ### From the moment at which the channel is empty -/

/-- The peer is without `v`, and the client is not subscribing to it. -/
structure Apart (s : ServerId) (v : Vni) (x : Client) : Prop where
  without : (x.peers s).phase ≠ .closed → (x.peers s).Without v
  calling : ∀ a ∈ x.active, a.call ≠ .subscribe v

/-- A label other than an action of the peer task leaves the task as it was, but for a
command at the end of its channel. -/
theorem peer_of_step {l : ClientLabel} (hs : (lts servers).step x l = some x')
    (hl : ∀ action, l ≠ .task s action) :
    x'.peers s = x.peers s ∨ ∃ a ∈ x.active, x'.peers s =
      { x.peers s with commands := (x.peers s).commands ++ [a.call.command] } := by
  cases l with
  | call call order =>
    obtain ⟨-, -, hpeers, -⟩ := call_eq_some hs
    exact Or.inl (by rw [hpeers])
  | check =>
    obtain ⟨call, s₀, rest, sentAny, hactive, -, ⟨-, rfl⟩ | ⟨-, rfl⟩⟩ := check_eq_some hs
    · exact Or.inl rfl
    · exact Or.inl rfl
  | enqueue =>
    obtain ⟨call, s₀, rest, checked, sentAny, hactive, -, ⟨-, rfl⟩ | ⟨-, -, rfl⟩⟩ :=
      enqueue_eq_some hs
    · exact Or.inl rfl
    · -- A command goes to the next peer of the call only.
      by_cases hs₀ : s = s₀
      · subst hs₀
        exact Or.inr ⟨_, hactive, Function.update_self ..⟩
      · exact Or.inl (Function.update_of_ne hs₀ ..)
  | finish =>
    obtain ⟨call, checked, sentAny, hactive, rfl⟩ := finish_eq_some hs
    exact Or.inl rfl
  | task server action =>
    obtain ⟨-, t, -, rfl⟩ := task_eq_some hs
    have hne : s ≠ server := by
      rintro rfl
      exact hl action rfl
    exact Or.inl (Function.update_of_ne hne ..)

/-- A call that goes on keeps being the same call. -/
theorem active_of_step {l : ClientLabel} (hs : (lts servers).step x l = some x')
    {a : ActiveCall} (ha : a ∈ x'.active) :
    (∃ b ∈ x.active, b.call = a.call) ∨ ∃ order, l = .call a.call order := by
  cases l with
  | call call order =>
    obtain ⟨-, -, -, ⟨hactive, -⟩ | ⟨e, rfl, -⟩⟩ := call_eq_some hs
    · rw [hactive] at ha
      cases ha
      exact Or.inr ⟨order, rfl⟩
    · exact Or.inl ⟨a, ha, rfl⟩
  | check =>
    obtain ⟨call, s₀, rest, sentAny, hactive, -, ⟨-, rfl⟩ | ⟨-, rfl⟩⟩ := check_eq_some hs
    · cases ha
      exact Or.inl ⟨_, hactive, rfl⟩
    · cases ha
      exact Or.inl ⟨_, hactive, rfl⟩
  | enqueue =>
    obtain ⟨call, s₀, rest, checked, sentAny, hactive, -, ⟨-, rfl⟩ | ⟨-, -, rfl⟩⟩ :=
      enqueue_eq_some hs
    · cases ha
      exact Or.inl ⟨_, hactive, rfl⟩
    · cases ha
      exact Or.inl ⟨_, hactive, rfl⟩
  | finish =>
    obtain ⟨call, checked, sentAny, hactive, rfl⟩ := finish_eq_some hs
    cases ha
  | task server action =>
    obtain ⟨-, t, -, rfl⟩ := task_eq_some hs
    exact Or.inl ⟨a, ha, rfl⟩

/-- Only a subscribe call sends a subscribe message. -/
theorem command_ne_subscribe {call : ClientCall} (h : call ≠ .subscribe v) :
    Connection.commandMessage call.command ≠ some (.subscribe v) := by
  cases call with
  | subscribe vni =>
    intro heq
    cases heq
    exact h rfl
  | unsubscribe | announce | withdraw | shutdown => intro heq; cases heq

/-- While the client does not subscribe to the VNI, a peer that is without it stays so. -/
theorem apart_step {l : ClientLabel} (h : Apart s v x)
    (hl : ∀ order, l ≠ .call (.subscribe v) order) (hs : (lts servers).step x l = some x') :
    Apart s v x' := by
  refine ⟨?_, ?_⟩
  · intro hopen
    by_cases htask : ∃ action, l = .task s action
    · obtain ⟨action, rfl⟩ := htask
      obtain ⟨-, t, hact, rfl⟩ := task_eq_some hs
      have hopen' : (Function.update x.peers s t s).phase ≠ .closed := hopen
      show PeerTask.Without (Function.update x.peers s t s) v
      rw [Function.update_self] at hopen' ⊢
      exact PeerTask.without_act (h.without (PeerTask.phase_ne_closed hact)) hact hopen'
    · -- What the client sends is not a subscribe command for `v` either.
      rcases peer_of_step hs (fun action heq => htask ⟨action, heq⟩) with hpeer | ⟨a, ha, hpeer⟩
      · rw [hpeer] at hopen ⊢
        exact h.without hopen
      · rw [hpeer] at hopen ⊢
        obtain ⟨hown, hchannel⟩ := h.without hopen
        refine ⟨hown, ?_⟩
        intro cmd hcmd
        rcases List.mem_append.mp hcmd with hold | hnew
        · exact hchannel cmd hold
        · rw [List.mem_singleton.mp hnew]
          exact command_ne_subscribe (h.calling a ha)
  · intro a ha hcall
    rcases active_of_step hs ha with ⟨b, hb, hcall'⟩ | ⟨order, hlabel⟩
    · exact h.calling b hb (hcall'.trans hcall)
    · exact hl order (hcall ▸ hlabel)

/-- A session that is established now is silent. -/
theorem silent_start {subs : List Vni} (h : Apart s v x)
    (hs : (lts servers).step x (.task s (.established subs)) = some x') :
    (x'.peers s).Silent v := by
  obtain ⟨-, t, hact, rfl⟩ := task_eq_some hs
  show PeerTask.Silent (Function.update x.peers s t s) v
  rw [Function.update_self]
  exact PeerTask.silent_established (h.without (PeerTask.phase_ne_closed hact)).1 hact

/-- While the client does not subscribe to the VNI, a silent session stays silent. -/
theorem silent_step {l : ClientLabel} (h : Apart s v x) (hsilent : (x.peers s).Silent v)
    (hs : (lts servers).step x l = some x') : (x'.peers s).Silent v := by
  by_cases htask : ∃ action, l = .task s action
  · obtain ⟨action, rfl⟩ := htask
    obtain ⟨-, t, hact, rfl⟩ := task_eq_some hs
    show PeerTask.Silent (Function.update x.peers s t s) v
    rw [Function.update_self]
    exact PeerTask.silent_act hsilent (h.without (PeerTask.phase_ne_closed hact)) hact
  · rcases peer_of_step hs (fun action heq => htask ⟨action, heq⟩) with hpeer | ⟨a, -, hpeer⟩
    · rw [hpeer]
      exact hsilent
    · rw [hpeer]
      exact hsilent

/-- **An unsubscription lasts if no peer loses it.** Suppose that `unsubscribe` has returned
`Ok` for `v` and that the channel of a peer is empty, after a run in which the peer has lost no
unsubscription of `v` that it needed. If the client does not subscribe to `v` again, then no
session that the peer establishes from then on asks for `v`. -/
theorem unsubscribe_lasts {before after : List ClientLabel} {x₀ : Client}
    (hbefore : (lts servers).Run before x₀) (hrun : (lts servers).Run (before ++ after) x)
    (hok : (lts servers).Throughout (KeepsUnsubscribe s v) before) (hserver : s.id < servers)
    (hleft : x₀.Unsubscribed v) (hempty : (x₀.peers s).commands = [])
    (hlater : ∀ order, .call (.subscribe v) order ∉ after)
    (hsession : ∃ subs, .task s (.established subs) ∈ after) :
    .subscribe v ∉ (x.peers s).sent := by
  have hrenouncing : Renouncing s v x₀ := by
    refine Lts.Run.invariant_of_throughout (P := Renouncing s v) renouncing_new ?_ hbefore hok
    intro _ _ _ _ _ h hstep hs
    exact renouncing_step hserver h hstep hs
  have hapart₀ : Apart s v x₀ := by
    refine ⟨?_, ?_⟩
    · intro hopen
      have hintends := hrenouncing.intends hopen (Or.inl hleft)
      unfold PeerTask.Intends at hintends
      rw [hempty] at hintends
      refine ⟨hintends, ?_⟩
      intro cmd hcmd
      rw [hempty] at hcmd
      cases hcmd
    · intro a ha hcall
      exact hrenouncing.calling a ha hcall hleft
  -- Cut the run where the session is established.
  obtain ⟨subs, hmem⟩ := hsession
  obtain ⟨waiting, session, rfl⟩ := List.append_of_mem hmem
  have hcut : before ++ (waiting ++ .task s (.established subs) :: session)
      = (before ++ waiting ++ [.task s (.established subs)]) ++ session := by simp
  rw [hcut] at hrun
  obtain ⟨x₂, hrun₂⟩ := hrun.of_append
  obtain ⟨x₁, hrun₁, hs⟩ := hrun₂.snoc_inv
  have hapart₁ : Apart s v x₁ := by
    refine hbefore.invariant_from hapart₀ ?_ hrun₁
    intro _ _ _ hl h hstep
    refine apart_step h ?_ hstep
    rintro order rfl
    exact hlater order (List.mem_append_left _ hl)
  have hsilent₂ : (x₂.peers s).Silent v := silent_start hapart₁ hs
  have hapart₂ : Apart s v x₂ := apart_step hapart₁ (fun order heq => by cases heq) hs
  have hend : Apart s v x ∧ (x.peers s).Silent v := by
    refine hrun₂.invariant_from (P := fun x => Apart s v x ∧ (x.peers s).Silent v)
      ⟨hapart₂, hsilent₂⟩ ?_ hrun
    intro _ _ _ hl h hstep
    refine ⟨apart_step h.1 ?_ hstep, silent_step h.1 h.2 hstep⟩
    rintro order rfl
    exact hlater order (List.mem_append_right _ (List.mem_cons_of_mem _ hl))
  exact hend.2.1

/-! ### The exact condition -/

/-- In a run: once `unsubscribe` has returned `Ok` for `v` and the channel of a peer is empty,
and as long as the client does not subscribe to `v` again, no session that the peer establishes
asks for `v`. -/
def UnsubscribeLasts (servers : Nat) (ls : List ClientLabel) : Prop :=
  ∀ before after rest x₀ x, ls = before ++ after ++ rest → (lts servers).Run before x₀ →
    (lts servers).Run (before ++ after) x → ∀ (s : ServerId) (v : Vni), s.id < servers →
      x₀.Unsubscribed v → (x₀.peers s).commands = [] →
      (∀ order, .call (.subscribe v) order ∉ after) →
      (∃ subs, .task s (.established subs) ∈ after) → .subscribe v ∉ (x.peers s).sent

/-- Every command that the step takes from a channel has its effect. -/
def HandlesCommands (servers : Nat) (x : Client) (l : ClientLabel) : Prop :=
  ∀ x', (lts servers).step x l = some x' → ∀ (s : ServerId) (cmd : PeerCommand),
    (x.peers s).commands = cmd :: (x'.peers s).commands →
      PeerTask.Handled cmd (x.peers s) (x'.peers s)

/-- The step loses no command that would have an effect. A command is lost when the peer task
takes it while it waits to retry, or fails to write its message. -/
def KeepsCommands (x : Client) (l : ClientLabel) : Prop :=
  match l with
  | .task s action =>
    action = .commandFailed ∨ action = .retryCommand →
      ∀ cmd ∈ (x.peers s).commands.head?, PeerTask.Idle cmd (x.peers s)
  | _ => True

instance (x : Client) : (l : ClientLabel) → Decidable (x.KeepsCommands l)
  | .task s action => inferInstanceAs (Decidable (action = .commandFailed ∨ action = .retryCommand →
      ∀ cmd ∈ (x.peers s).commands.head?, PeerTask.Idle cmd (x.peers s)))
  | .call _ _ => inferInstanceAs (Decidable True)
  | .check => inferInstanceAs (Decidable True)
  | .enqueue => inferInstanceAs (Decidable True)
  | .finish => inferInstanceAs (Decidable True)

/-- The inversion of a step of the peer task. -/
theorem act_of_step {action : TaskAction} (hs : (lts servers).step x (.task s action) = some x') :
    (x.peers s).act x.announcedRoutes action = some (x'.peers s) := by
  obtain ⟨-, t, hact, rfl⟩ := task_eq_some hs
  show _ = some (Function.update x.peers s t s)
  rw [Function.update_self]
  exact hact

/-- The condition on the step and what it says of the state after it come to the same, since a
command is taken in these two ways only if it is lost. -/
theorem handlesCommands_iff {l : ClientLabel} (hs : (lts servers).step x l = some x') :
    HandlesCommands servers x l ↔ KeepsCommands x l := by
  -- A command that disappears from a channel has been taken by the task.
  have htask : ∀ s cmd, (x.peers s).commands = cmd :: (x'.peers s).commands →
      ∃ action, l = .task s action := by
    intro s cmd htaken
    by_contra hnot
    rcases peer_of_step (s := s) hs (fun action heq => hnot ⟨action, heq⟩) with hp | ⟨a, -, hp⟩
    · rw [hp] at htaken
      exact List.cons_ne_self _ _ htaken.symm
    · have hlength := congrArg List.length htaken
      rw [hp] at hlength
      simp at hlength
      omega
  constructor
  · intro h
    cases l with
    | task s action =>
      have hact := act_of_step hs
      intro haction cmd hhead
      obtain ⟨rest, hcommands⟩ := List.head?_eq_some_iff.mp hhead
      have htaken : (x.peers s).commands = cmd :: (x'.peers s).commands :=
        PeerTask.lost_of_act hact haction hcommands
      exact (PeerTask.handled_iff hact htaken).mp (h x' hs s cmd htaken) haction
    | call | check | enqueue | finish => trivial
  · intro h x'' hs' s cmd htaken
    cases hs.symm.trans hs'
    obtain ⟨action, rfl⟩ := htask s cmd htaken
    refine (PeerTask.handled_iff (act_of_step hs) htaken).mpr fun haction => h haction cmd ?_
    rw [htaken]
    rfl

/-- A lost command that would change nothing is no loss of an unsubscription. -/
theorem keepsUnsubscribe_of_keepsCommands {l : ClientLabel} (h : KeepsCommands x l) :
    KeepsUnsubscribe s v x l := by
  cases l with
  | task server action =>
    rintro rfl haction hhead - hmem
    exact absurd hmem (h haction _ hhead)
  | call | check | enqueue | finish => trivial

/-- **Unsubscriptions last and commands are handled, exactly if no command is lost that would
have an effect.** -/
theorem durable_and_handled_iff {ls : List ClientLabel} (hrun : (lts servers).Run ls x) :
    UnsubscribeLasts servers ls ∧ (lts servers).Throughout (HandlesCommands servers) ls ↔
      (lts servers).Throughout KeepsCommands ls := by
  have hsteps : (lts servers).Throughout (HandlesCommands servers) ls ↔
      (lts servers).Throughout KeepsCommands ls := by
    -- Every label of the run is enabled where it stands.
    have henabled : ∀ before l after y, ls = before ++ l :: after → (lts servers).Run before y →
        ∃ y', (lts servers).step y l = some y' := by
      rintro before l after y rfl hy
      have hsplit : before ++ l :: after = (before ++ [l]) ++ after := by simp
      rw [hsplit] at hrun
      obtain ⟨y', hy'⟩ := hrun.of_append
      obtain ⟨z, hz, hs⟩ := hy'.snoc_inv
      cases hz.unique hy
      exact ⟨y', hs⟩
    constructor
    · intro h before l after y heq hy
      obtain ⟨y', hs⟩ := henabled before l after y heq hy
      exact (handlesCommands_iff hs).mp (h before l after y heq hy)
    · intro h before l after y heq hy
      obtain ⟨y', hs⟩ := henabled before l after y heq hy
      exact (handlesCommands_iff hs).mpr (h before l after y heq hy)
  rw [hsteps, and_iff_right_iff_imp]
  rintro hok before after rest x₀ y rfl hbefore hy s v hserver hleft hempty hlater hsession
  refine unsubscribe_lasts hbefore hy ?_ hserver hleft hempty hlater hsession
  intro before' l after' z heq hz
  refine keepsUnsubscribe_of_keepsCommands (hok before' l (after' ++ after ++ rest) z ?_ hz)
  rw [heq]
  simp

/-- A client unsubscribes from VNI 100 in an established session, and the session is lost
afterwards. -/
def unsubscribedInTime : List ClientLabel :=
  connects ⟨0⟩ [] ++
    [.call (.subscribe ⟨100⟩) [⟨0⟩], .check, .enqueue, .finish, .task ⟨0⟩ .command] ++
    [.call (.unsubscribe ⟨100⟩) [⟨0⟩], .enqueue, .finish, .task ⟨0⟩ .command] ++
    disconnects ⟨0⟩ ++ [.task ⟨0⟩ .retryElapsed] ++ connects ⟨0⟩ []

/-- In the run `unsubscribedInTime`, the unsubscription lasts. -/
theorem durable_in_time :
    (∃ x, (lts 1).Run unsubscribedInTime x) ∧ UnsubscribeLasts 1 unsubscribedInTime ∧
      (lts 1).Throughout (HandlesCommands 1) unsubscribedInTime := by
  have hrun : (lts 1).Run unsubscribedInTime _ := Lts.Run.of_exec (by decide)
  have hok : (lts 1).Throughout KeepsCommands unsubscribedInTime :=
    Lts.throughout_of_check (by decide)
  exact ⟨⟨_, hrun⟩, (durable_and_handled_iff hrun).mpr hok⟩

/-- A client unsubscribes from VNI 100 while its peer task waits to retry, and the task takes
the command. -/
def unsubscribedWhileRetrying : List ClientLabel :=
  connects ⟨0⟩ [] ++
    [.call (.subscribe ⟨100⟩) [⟨0⟩], .check, .enqueue, .finish, .task ⟨0⟩ .command] ++
    disconnects ⟨0⟩ ++
    [.call (.unsubscribe ⟨100⟩) [⟨0⟩], .enqueue, .finish, .task ⟨0⟩ .retryCommand]

/-- When the peer connects after the run `unsubscribedWhileRetrying`, the new session
subscribes to the VNI that the client has unsubscribed from. The lost command is the reason. -/
theorem unsubscription_lost :
    ¬ (∀ (servers : Nat) (ls : List ClientLabel) (x : Client), (lts servers).Run ls x →
        UnsubscribeLasts servers ls) ∧
      ¬ (∀ (servers : Nat) (ls : List ClientLabel) (x : Client), (lts servers).Run ls x →
        (lts servers).Throughout (HandlesCommands servers) ls) := by
  have hrun : (lts 1).Run (unsubscribedWhileRetrying ++ connects ⟨0⟩ [⟨100⟩]) _ :=
    Lts.Run.of_exec (by decide)
  refine ⟨?_, ?_⟩
  · -- The new session repeats the subscription.
    intro h
    have hbefore : (lts 1).Run unsubscribedWhileRetrying _ := Lts.Run.of_exec (by decide)
    have hlater : ∀ order, ClientLabel.call (.subscribe ⟨100⟩) order ∉ connects ⟨0⟩ [⟨100⟩] := by
      simp [connects]
    have hnot := h 1 _ _ hrun unsubscribedWhileRetrying (connects ⟨0⟩ [⟨100⟩]) [] _ _
      (by simp) hbefore hrun ⟨0⟩ ⟨100⟩ (by decide) (by decide) (by decide) hlater
      ⟨[⟨100⟩], by decide⟩
    revert hnot
    decide
  · -- The command that the retry wait takes has no effect.
    intro h
    have hlabels : unsubscribedWhileRetrying ++ connects ⟨0⟩ [⟨100⟩]
        = unsubscribedWhileRetrying.dropLast ++ .task ⟨0⟩ .retryCommand :: connects ⟨0⟩ [⟨100⟩] :=
      rfl
    have hbefore : (lts 1).Run unsubscribedWhileRetrying.dropLast _ :=
      Lts.Run.of_exec (by decide)
    have hlost := (handlesCommands_iff (Option.some_get (by decide)).symm).mp
      (h 1 _ _ hrun _ _ _ _ hlabels hbefore)
    have hidle := hlost (Or.inr rfl) (.unsubscribe ⟨100⟩) (by decide)
    revert hidle
    decide

end Client

end RustBond
