import RustBond.Client.Concurrent
import RustBond.Proofs.Client.Announcements
import RustBond.Proofs.Server.Ownership
import RustBond.Proofs.Wire.Identity

/-!
# `RustBond.Proofs.Client.Concurrent`: overlapping calls and the server's table

A call of `announce` or `withdraw` changes the table of announced routes in one step, and tells
the peers of it later. What counts for a route at a server is the last update on it that was
put into the channel, and what counts for the table is the last call on it that took the lock.
Two calls on the same route can do these things in different orders.

The server knows a route by its key, which is what it reads off the wire (`RouteKey.normalise`).
Routes that are alike have one key, so a call on one of them is a call on the other for the server.

`owned_iff_announced` is the consequence for the server. If every call that is the last one to
tell a server of its key still agrees with the table (`Agrees`), then the server has exactly
the keys of the announced routes once it has processed everything, and these are the announced
routes unless one of them has the target VNI 0. `always_settled_iff` shows that the condition is
exact, and `agrees_of_inOrder` that it holds if the calls on one key tell each server of it in the
order in which they took the lock, and no two routes that are announced are alike (`InOrder`).

In the run `announcedAndWithdrawn 1 0` a route is announced and withdrawn, and the server keeps
it.
-/

set_option autoImplicit false

namespace RustBond

open EditLog (After)

/-- An action in the main loop moves updates from the channel to the session. -/
theorem PeerTask.stream_act {announced : RouteTable} {t t' : PeerTask} {action : TaskAction}
    (hkeeps : action.keepsSession = true) (h : t.act announced action = some t') :
    edits t'.sent ++ announcementEdits t'.commands
      = edits t.sent ++ announcementEdits t.commands := by
  cases action with
  | keepalive =>
    simp only [act] at h
    split at h
    · cases h
      simp [edits, Message.edit]
    · cases h
  | receive msg =>
    simp only [act] at h
    split at h
    · cases h
      rfl
    · cases h
  | command =>
    simp only [act] at h
    split at h
    · rename_i cmd rest hphase hcommands
      -- The first command of the channel becomes the last message of the session.
      rw [hcommands, announcementEdits_cons]
      split at h
      · rename_i msg hmsg
        cases h
        rw [announcementEdits_singleton hmsg, edits_append, List.append_assoc]
      · rename_i hmsg
        cases h
        simp [announcementEdits, hmsg]
    · cases h
  | _ => cases hkeeps

/-! ### What the server makes of the updates of one session -/

namespace Event

/-- The updates of a history as an edit log. -/
def updates (h : List Event) : List (Edit RouteKey) := h.filterMap fun e => e.2.edit

/-- The updates of a history with one more event. -/
theorem updates_snoc (h : List Event) (e : Event) :
    updates (h ++ [e]) = updates h ++ e.2.edit.toList := by
  unfold updates
  rw [List.filterMap_append]
  cases he : e.2.edit with
  | none => simp [he]
  | some edit => simp [he]

/-- The most recent update on a route is an add if and only if it is the last edit of the
route, and inserts it. -/
theorem latest_add_iff (h : List Event) (r : RouteKey) :
    (latest h r).map Prod.snd = some .add ↔ EditLog.last r (updates h) = some true := by
  induction h using List.reverseRecOn with
  | nil => simp [updates]
  | append_singleton h e ih =>
    rw [latest_snoc, updates_snoc, EditLog.last_append]
    obtain ⟨c, cmd⟩ := e
    cases cmd with
    | update fromAddr action vni destination nextHop =>
      -- An update on another route leaves both sides as they were.
      by_cases hr : (vni, destination, nextHop) = r
      · cases action with
        | add => simp [latestStep, hr, RoutingCommand.edit, EditLog.last, Edit.target, Edit.inserts]
        | remove =>
          simp [latestStep, hr, RoutingCommand.edit, EditLog.last, Edit.target, Edit.inserts]
      · cases action with
        | add => simpa [latestStep, hr, RoutingCommand.edit, EditLog.last, Edit.target] using ih
        | remove => simpa [latestStep, hr, RoutingCommand.edit, EditLog.last, Edit.target] using ih
    | peerConnected | peerDisconnected | subscribe | unsubscribe | getStats =>
      simpa [latestStep, RoutingCommand.edit] using ih

end Event

/-- The routes that the server has from a session are those that the updates of the session
amount to, if no other session touches them. -/
theorem RoutingActor.owned_iff_replay {turns : List Turn} {actor : RoutingActor}
    (hactor : RoutingActor.system.Run turns actor) (hd : Event.Disciplined (turns.map Turn.event))
    {a : SocketAddr} {c : SessionId} (hopen : Event.holder (turns.map Turn.event) a = some c)
    {sent : List Message}
    (hsent : Event.updates (Event.ofSession (turns.map Turn.event) c) = edits sent)
    (halone : ∀ e ∈ turns.map Turn.event, ∀ edit ∈ e.2.edit,
      edit.target ∈ (edits sent).map Edit.target → e.1 = c) (r : RouteKey) :
    actor.routeOwners.lookup r = some a ↔ r ∈ replay sent := by
  rw [mem_replay, EditLog.after_false_iff, ← hsent, ← Event.latest_add_iff]
  show _ ↔ Event.latestBy _ c r = some .add
  rw [lookup_routeOwners_iff_of_run hactor hd]
  constructor
  · rintro ⟨c', hholder, hlatest⟩
    cases hopen.symm.trans hholder
    exact Event.latestBy_of_latest hlatest
  · intro hown
    obtain ⟨c', action, hlatest⟩ := Event.exists_latest_of_latestBy hown
    obtain ⟨addr, he⟩ := Event.mem_of_latest hlatest
    -- So an update on the route is the latest one of its session, and of all sessions.
    have hmem : r ∈ (edits sent).map Edit.target := by
      refine EditLog.mem_target_of_last (b := true) ?_
      rw [← hsent, ← Event.latest_add_iff]
      exact hown
    have hc : c' = c := by
      cases action with
      | add => exact halone _ he _ rfl hmem
      | remove => exact halone _ he _ rfl hmem
    subst hc
    have haction : action = .add :=
      Option.some.inj ((Event.latestBy_of_latest hlatest).symm.trans hown)
    exact ⟨c', hopen, haction ▸ hlatest⟩

/-! ### What the server reads -/

/-- The edits as the server reads them, which are on the keys of the routes. -/
def keyEdits (log : List (Edit RouteKey)) : List (Edit RouteKey) :=
  log.map (Edit.map RouteKey.normalise)

/-- The key of an edit does not depend on the edits around it. -/
theorem keyEdits_append (log log' : List (Edit RouteKey)) :
    keyEdits (log ++ log') = keyEdits log ++ keyEdits log' := List.map_append

/-- Reading the messages and taking the keys is the same. -/
theorem edits_normalise (msgs : List Message) :
    edits (msgs.map Message.normalise) = keyEdits (edits msgs) := by
  unfold edits keyEdits
  rw [List.filterMap_map, List.map_filterMap]
  refine List.filterMap_congr fun m _ => ?_
  cases m with
  | hello | keepalive | subscribe | unsubscribe => rfl
  | update action vni destination nextHop =>
    cases action with
    | add | remove => rfl

namespace ClientCall

variable {call : ClientCall} {k : RouteKey}

/-- The key under which the server knows the route of a call. -/
def key (call : ClientCall) : Option RouteKey := call.route.map RouteKey.normalise

/-- The command of a call says something of its own key only. -/
theorem key_target_ne (h : call.key ≠ some k) :
    ∀ e ∈ keyEdits (announcementEdits [call.command]), e.target ≠ k := by
  intro e he heq
  obtain ⟨e', he', rfl⟩ := List.mem_map.mp he
  refine target_command_ne (r := e'.target) (fun hroute => h ?_) he' rfl
  rw [key, hroute, Option.map_some, ← heq, Edit.target_map]

/-- What the command of a call has to say of its key. -/
theorem key_last_isSome (h : call.key = some k) :
    ∃ b, EditLog.last k (keyEdits (announcementEdits [call.command])) = some b := by
  cases call with
  | announce vni destination nextHop =>
    cases h
    exact ⟨true, if_pos rfl⟩
  | withdraw vni destination nextHop =>
    cases h
    exact ⟨false, if_pos rfl⟩
  | subscribe | unsubscribe | shutdown => cases h

end ClientCall

namespace ConcurrentClient

/-- What the server will have read of routes once the channel is empty. -/
def stream (x : ConcurrentClient) (s : ServerId) : List (Edit RouteKey) :=
  keyEdits (edits (x.client.peers s).sent ++ announcementEdits (x.client.peers s).commands)

/-- A route with this key is announced. -/
def Held (x : ConcurrentClient) (k : RouteKey) : Prop :=
  ∃ r ∈ x.client.announcedRoutes, r.normalise = k

/-- Only a key without the target VNI 0 is one, and it is that of the route itself, or of the one
with this target VNI. -/
theorem held_iff {x : ConcurrentClient} {k : RouteKey} : x.Held k ↔
    k.normalise = k ∧ (k ∈ x.client.announcedRoutes ∨ k.2.2.targetVni = none ∧
      (k.1, k.2.1, { k.2.2 with targetVni := some 0 }) ∈ x.client.announcedRoutes) := by
  constructor
  · rintro ⟨r, hr, rfl⟩
    refine ⟨RouteKey.normalise_normalise r, ?_⟩
    obtain ⟨vni, destination, nextHop⟩ := r
    by_cases hzero : nextHop.targetVni = some 0
    · refine Or.inr ⟨?_, ?_⟩
      · simp [RouteKey.normalise, NextHop.normalise, hzero]
      · simpa [RouteKey.normalise, NextHop.normalise, ← hzero] using hr
    · refine Or.inl ?_
      simpa [RouteKey.normalise, NextHop.normalise, hzero] using hr
  · rintro ⟨hkey, hr | ⟨hnone, hr⟩⟩
    · exact ⟨k, hr, hkey⟩
    · refine ⟨_, hr, ?_⟩
      obtain ⟨vni, destination, nextHop⟩ := k
      obtain ⟨target, targetVni, hopType, portFrom, portTo⟩ := nextHop
      cases hnone
      rfl

instance (x : ConcurrentClient) (k : RouteKey) : Decidable (x.Held k) :=
  decidable_of_iff _ held_iff.symm

variable {servers : Nat} {x x' : ConcurrentClient} {s : ServerId} {r k : RouteKey}

/-! ### What each step does -/

/-- The inversion of the first half of a call. Either the call is refused and nothing changes, or
it edits the table and joins the others, with every peer still to be told. -/
theorem call_eq_some {call : ClientCall} {order : List ServerId}
    (h : (lts servers).step x (.call call order) = some x') :
    x' = x ∨
      (x'.calls = x.calls ++ [⟨call, order⟩] ∧
        (order : Multiset ServerId) = (Multiset.range servers).map ServerId.mk ∧
        (∀ s, x'.stream s = x.stream s) ∧
        ∀ r, r ∈ x'.client.announcedRoutes ↔
          After r (r ∈ x.client.announcedRoutes) (announcementEdits [call.command])) := by
  simp only [lts, step, begin] at h
  split at h
  · rename_i hguard
    split at h
    · exact Or.inl (Option.some.inj h).symm
    · rename_i client henter
      cases h
      obtain ⟨hpeers, htable⟩ := Client.enter_eq_ok henter
      refine Or.inr ⟨rfl, hguard.2, fun s => ?_, htable⟩
      unfold stream
      rw [hpeers]
  · cases h

/-- The inversion of one send: the call tells one more peer, at the end of that peer's channel. No
other peer hears of it. -/
theorem enqueue_eq_some {i : Nat} (h : (lts servers).step x (.enqueue i) = some x') :
    ∃ call s rest, x.calls[i]? = some ⟨call, s :: rest⟩ ∧
      x'.calls = x.calls.set i ⟨call, rest⟩ ∧
      x'.client.announcedRoutes = x.client.announcedRoutes ∧
      x'.stream s = x.stream s ++ keyEdits (announcementEdits [call.command]) ∧
      ∀ s', s' ≠ s → x'.stream s' = x.stream s' := by
  simp only [lts, step, enqueue] at h
  split at h
  · rename_i call s rest hcall
    split at h
    · cases h
      refine ⟨call, s, rest, hcall, rfl, rfl, ?_, ?_⟩
      · simp [stream, announcementEdits_append, keyEdits_append]
      · intro s' hne
        simp [stream, Function.update_of_ne hne]
    · cases h
  · cases h

/-- The inversion of the end of a call: it has told everybody. -/
theorem finish_eq_some {i : Nat} (h : (lts servers).step x (.finish i) = some x') :
    ∃ call, x.calls[i]? = some ⟨call, []⟩ ∧ x' = { x with calls := x.calls.eraseIdx i } := by
  simp only [lts, step, finish] at h
  split at h
  · rename_i call hcall
    exact ⟨call, hcall, (Option.some.inj h).symm⟩
  · cases h

/-- A peer task touches neither the calls nor the table. Since no command is lost, what is on its
stream stays the same as well. -/
theorem task_eq_some {server : ServerId} {action : TaskAction}
    (h : (lts servers).step x (.task server action) = some x') :
    x'.calls = x.calls ∧ x'.client.announcedRoutes = x.client.announcedRoutes ∧
      ∀ s, x'.stream s = x.stream s := by
  simp only [lts, step, task] at h
  split at h
  · rename_i hkeeps
    obtain ⟨client, hclient, rfl⟩ := Option.map_eq_some_iff.mp h
    have hstep : (Client.lts servers).step x.client (.task server action) = some client := hclient
    obtain ⟨-, t, hact, rfl⟩ := Client.task_eq_some hstep
    refine ⟨rfl, rfl, fun s => ?_⟩
    show keyEdits (edits (Function.update x.client.peers server t s).sent
      ++ announcementEdits (Function.update x.client.peers server t s).commands) = _
    by_cases hs : s = server
    · subst hs
      rw [Function.update_self]
      exact congrArg keyEdits (PeerTask.stream_act hkeeps hact)
    · rw [Function.update_of_ne hs]
      rfl
  · cases h

/-! ### When the last word on a route agrees with the table -/

/-- The calls have still to send to peers of the client, and to none of them twice. -/
def Simple (servers : Nat) (x : ConcurrentClient) : Prop :=
  ∀ c ∈ x.calls, c.rest.Nodup ∧ ∀ s ∈ c.rest, s.id < servers

/-- A call on a route with the key has still to send to the server. -/
def Pending (x : ConcurrentClient) (s : ServerId) (k : RouteKey) : Prop :=
  ∃ c ∈ x.calls, c.call.key = some k ∧ s ∈ c.rest

/-- Unless a call on the key has still to send to the server, the server will have been told
whether a route with it is announced. -/
def Settled (x : ConcurrentClient) (s : ServerId) (k : RouteKey) : Prop :=
  ¬ x.Pending s k → (After k False (x.stream s) ↔ x.Held k)

/-- If a call is the last one that has to send to a peer what became of its key, then the table
still agrees with the call: it has a route with the key after an announcement, and none after a
withdrawal. -/
def Agrees (x : ConcurrentClient) (l : ConcurrentLabel) : Prop :=
  match l with
  | .enqueue i => ∀ c ∈ x.calls[i]?, ∀ s ∈ c.rest.head?, ∀ k ∈ c.call.key,
      (∀ c' ∈ x.calls.eraseIdx i, c'.call.key = some k → s ∉ c'.rest) →
        (After k False (keyEdits (announcementEdits [c.call.command])) ↔ x.Held k)
  | _ => True

/-- A call gets to no peer twice. -/
theorem nodup_order {order : List ServerId}
    (h : (order : Multiset ServerId) = (Multiset.range servers).map ServerId.mk) :
    order.Nodup := by
  rw [← Multiset.coe_nodup, h]
  exact (Multiset.nodup_range servers).map fun a b hab => ServerId.mk.inj hab

/-- There are no calls at the start. -/
theorem simple_new : Simple servers new := by
  intro c hc
  cases hc

/-- Calls stay simple, since each of them has less and less to send. -/
theorem simple_step {l : ConcurrentLabel} (h : x.Simple servers)
    (hs : (lts servers).step x l = some x') : x'.Simple servers := by
  unfold Simple at h ⊢
  cases l with
  | call call order =>
    obtain rfl | ⟨hcalls, horder, -⟩ := call_eq_some hs
    · exact h
    · rw [hcalls]
      intro c hc
      rcases List.mem_append.mp hc with hold | hnew
      · exact h c hold
      · rw [List.mem_singleton.mp hnew]
        exact ⟨nodup_order horder, fun s hs => (Client.mem_order horder).mp hs⟩
  | enqueue i =>
    obtain ⟨call, s, rest, hcall, hcalls, -⟩ := enqueue_eq_some hs
    rw [hcalls]
    intro c hc
    -- Only the `i`-th call changes, and it has one peer less before it.
    rcases List.mem_or_eq_of_mem_set hc with hold | rfl
    · exact h c hold
    · obtain ⟨hnodup, hpeers⟩ := h _ (List.mem_of_getElem? hcall)
      exact ⟨(List.nodup_cons.mp hnodup).2, fun s hs => hpeers s (List.mem_cons_of_mem _ hs)⟩
  | finish i =>
    obtain ⟨call, hcall, rfl⟩ := finish_eq_some hs
    exact fun c hc => h c (List.mem_of_mem_eraseIdx hc)
  | task server action =>
    obtain ⟨hcalls, -⟩ := task_eq_some hs
    rw [hcalls]
    exact h

/-- A call on the key that is not the `i`-th one is still there when the `i`-th one goes on. -/
theorem pending_set {i : Nat} {call : ClientCall} {rest rest' : List ServerId}
    (hcall : x.calls[i]? = some ⟨call, rest⟩) (hcalls : x'.calls = x.calls.set i ⟨call, rest'⟩) :
    x'.Pending s k ↔ (call.key = some k ∧ s ∈ rest') ∨
      ∃ c ∈ x.calls.eraseIdx i, c.call.key = some k ∧ s ∈ c.rest := by
  obtain ⟨hi, -⟩ := List.getElem?_eq_some_iff.mp hcall
  unfold Pending
  rw [hcalls]
  constructor
  · rintro ⟨c, hc, hroute, hmem⟩
    obtain ⟨j, hj⟩ := List.mem_iff_getElem?.mp hc
    -- The `i`-th call is the only one that has changed.
    by_cases hij : i = j
    · subst hij
      rw [List.getElem?_set_self hi] at hj
      cases hj
      exact Or.inl ⟨hroute, hmem⟩
    · rw [List.getElem?_set_ne hij] at hj
      exact Or.inr ⟨c, List.mem_eraseIdx_iff_getElem?.mpr ⟨j, Ne.symm hij, hj⟩, hroute, hmem⟩
  · rintro (⟨hroute, hmem⟩ | ⟨c, hc, hroute, hmem⟩)
    · exact ⟨_, List.mem_set hi _, hroute, hmem⟩
    · obtain ⟨j, hij, hj⟩ := List.mem_eraseIdx_iff_getElem?.mp hc
      refine ⟨c, List.mem_iff_getElem?.mpr ⟨j, ?_⟩, hroute, hmem⟩
      rw [List.getElem?_set_ne (Ne.symm hij)]
      exact hj

/-- What is pending at a peer is pending in the call that makes the step or in another one. -/
theorem pending_iff {i : Nat} {call : ClientCall} {rest : List ServerId}
    (hcall : x.calls[i]? = some ⟨call, rest⟩) :
    x.Pending s k ↔ (call.key = some k ∧ s ∈ rest) ∨
      ∃ c ∈ x.calls.eraseIdx i, c.call.key = some k ∧ s ∈ c.rest := by
  refine pending_set hcall ?_
  obtain ⟨hi, heq⟩ := List.getElem?_eq_some_iff.mp hcall
  rw [← heq, List.set_getElem_self]

/-- At the start no route is announced and no server has been told of one. -/
theorem settled_new : Settled new s k := by
  intro _
  show After k False [] ↔ _
  rw [EditLog.after_nil, false_iff]
  rintro ⟨r, hr, -⟩
  exact absurd hr (by simp [new, Client.new])

/-- What a step puts into the channel decides, if nobody has anything to add. -/
theorem after_push {call : ClientCall} {p : Prop} {log : List (Edit RouteKey)}
    (hkey : call.key = some k) :
    (After k False (log ++ keyEdits (announcementEdits [call.command])) ↔ p) ↔
      (After k False (keyEdits (announcementEdits [call.command])) ↔ p) := by
  obtain ⟨b, hb⟩ := ClientCall.key_last_isSome hkey
  unfold After
  rw [EditLog.last_append, hb, Option.some_or]

/-- The command of a call on another key is no news of this one. -/
theorem after_push_of_ne {call : ClientCall} {start : Prop} {log : List (Edit RouteKey)}
    (hkey : call.key ≠ some k) :
    After k start (log ++ keyEdits (announcementEdits [call.command])) = After k start log := by
  rw [EditLog.after_append, EditLog.after_of_untouched (ClientCall.key_target_ne hkey)]

/-- A call on another key takes no route with this one from the table and adds none. -/
theorem held_of_ne {call : ClientCall} (hkey : call.key ≠ some k)
    (htable : ∀ r, r ∈ x'.client.announcedRoutes ↔
      After r (r ∈ x.client.announcedRoutes) (announcementEdits [call.command])) :
    x'.Held k ↔ x.Held k := by
  refine exists_congr fun r => and_congr_left fun hr => ?_
  have hroute : call.route ≠ some r := by
    intro heq
    refine hkey ?_
    rw [ClientCall.key, heq, Option.map_some, hr]
  rw [htable, EditLog.after_of_untouched fun e => ClientCall.target_command_ne hroute]

/-- A send to `s` is settled if it agrees with the table. -/
theorem settled_enqueue {i : Nat} (h : Settled x s k) (hok : Agrees x (.enqueue i))
    (hs : (lts servers).step x (.enqueue i) = some x') : Settled x' s k := by
  obtain ⟨call, s₀, rest, hcall, hcalls, htable, hstream, hothers⟩ := enqueue_eq_some hs
  have hbefore := pending_iff (s := s) (k := k) hcall
  have hafter := pending_set (s := s) (k := k) hcall hcalls
  intro hquiet
  rw [hafter, not_or] at hquiet
  rw [Held, htable]
  by_cases hs₀ : s = s₀
  · subst hs₀
    rw [hstream]
    by_cases hkey : call.key = some k
    · rw [after_push hkey]
      refine hok _ hcall s rfl k hkey ?_
      intro c hc hkey' hmem
      exact hquiet.2 ⟨c, hc, hkey', hmem⟩
    · rw [after_push_of_ne hkey]
      refine h ?_
      rw [hbefore, not_or]
      exact ⟨fun hpending => hkey hpending.1, hquiet.2⟩
  · -- The call sends to another server, so it has `s` before it still.
    rw [hothers s hs₀]
    refine h ?_
    rw [hbefore, not_or]
    refine ⟨fun hpending => hquiet.1 ⟨hpending.1, ?_⟩, hquiet.2⟩
    exact List.mem_of_ne_of_mem hs₀ hpending.2

/-- One step keeps the peer settled, provided that the call that sends the last word agrees with
the table. -/
theorem settled_step {l : ConcurrentLabel} (hserver : s.id < servers) (h : Settled x s k)
    (hok : Agrees x l) (hs : (lts servers).step x l = some x') : Settled x' s k := by
  cases l with
  | call call order =>
    obtain rfl | ⟨hcalls, horder, hstream, htable⟩ := call_eq_some hs
    · exact h
    · intro hquiet
      -- A call on the key would have `s` before it now.
      have hkey : call.key ≠ some k := by
        intro heq
        refine hquiet ⟨⟨call, order⟩, ?_, heq, (Client.mem_order horder).mpr hserver⟩
        rw [hcalls]
        exact List.mem_append_right _ List.mem_cons_self
      have hbefore : ¬ x.Pending s k := by
        rintro ⟨c, hc, hpending⟩
        refine hquiet ⟨c, ?_, hpending⟩
        rw [hcalls]
        exact List.mem_append_left _ hc
      rw [hstream, held_of_ne hkey htable]
      exact h hbefore
  | enqueue i => exact settled_enqueue h hok hs
  | finish i =>
    obtain ⟨call, hcall, rfl⟩ := finish_eq_some hs
    intro hquiet
    refine h ?_
    rw [pending_iff hcall, not_or]
    refine ⟨fun hpending => ?_, ?_⟩
    · cases hpending.2
    · exact hquiet
  | task server action =>
    obtain ⟨hcalls, htable, hstream⟩ := task_eq_some hs
    intro hquiet
    rw [hstream, Held, htable]
    refine h ?_
    unfold Pending at hquiet ⊢
    rwa [hcalls] at hquiet

/-- A send to a peer that leaves the peer settled agrees with the table. -/
theorem agrees_of_settled {l : ConcurrentLabel} (hsimple : x.Simple servers)
    (hs : (lts servers).step x l = some x')
    (h : ∀ s k, s.id < servers → Settled x' s k) : Agrees x l := by
  cases l with
  | enqueue i =>
    obtain ⟨call, s₀, rest, hcall, hcalls, htable, hstream, -⟩ := enqueue_eq_some hs
    obtain ⟨hnodup, hpeers⟩ := hsimple _ (List.mem_of_getElem? hcall)
    intro c hc s hs₀ k hkey halone
    cases hcall.symm.trans hc
    cases hs₀
    -- The call is the last one on the key that had the peer before it.
    have hquiet : ¬ x'.Pending s₀ k := by
      rw [pending_set hcall hcalls, not_or]
      refine ⟨fun hpending => (List.nodup_cons.mp hnodup).1 hpending.2, ?_⟩
      rintro ⟨c, hc, hkey', hmem⟩
      exact halone c hc hkey' hmem
    have hsettled := h s₀ k (hpeers s₀ List.mem_cons_self) hquiet
    rw [Held, htable, hstream] at hsettled
    exact (after_push hkey).mp hsettled
  | call | finish | task => trivial

/-- **When the servers are told what the table says.** In a run, every server for which no call
on a key is in progress will have been told whether a route with the key is announced, in every
state, if and only if every call that is the last to tell a server of its key agrees with the
table at that moment. -/
theorem always_settled_iff {ls : List ConcurrentLabel} (hrun : (lts servers).Run ls x) :
    (lts servers).Always (fun x => ∀ s k, s.id < servers → Settled x s k) ls ↔
      (lts servers).Throughout Agrees ls := by
  refine Lts.always_iff_throughout
    (Q := fun x => x.Simple servers ∧ ∀ s k, s.id < servers → Settled x s k)
    ⟨simple_new, fun _ _ _ => settled_new⟩ (fun _ _ _ h => h.2) ?_ ?_ hrun
  · rintro ls y l y' - ⟨hsimple, hsettled⟩ hok hs
    refine ⟨simple_step hsimple hs, fun s k hserver => ?_⟩
    exact settled_step hserver (hsettled s k hserver) hok hs
  · rintro ls y l y' - ⟨hsimple, -⟩ hs hafter
    exact agrees_of_settled hsimple hs hafter

/-! ### When the calls of one route stay in order -/

/-- No route that is announced is alike to the one of a call that takes the lock. A call that sends
to a peer has been overtaken by no call on its key: those that took the lock before it have sent to
the peer already. -/
def InOrder (x : ConcurrentClient) (l : ConcurrentLabel) : Prop :=
  match l with
  | .call call _ =>
    ∀ r ∈ call.route, ∀ r' ∈ x.client.announcedRoutes, ¬ RouteKey.Alike r r'
  | .enqueue i => ∀ c ∈ x.calls[i]?, ∀ s ∈ c.rest.head?, ∀ c' ∈ x.calls.take i,
      c'.call.key = c.call.key → s ∉ c'.rest
  | _ => True

/-- A call does to the keys of the announced routes what its command says, if none of them is alike
to its own route. Otherwise a withdrawal would leave the key. -/
theorem held_call {call : ClientCall}
    (hapart : ∀ r ∈ call.route, ∀ r' ∈ x.client.announcedRoutes, ¬ RouteKey.Alike r r')
    (htable : ∀ r, r ∈ x'.client.announcedRoutes ↔
      After r (r ∈ x.client.announcedRoutes) (announcementEdits [call.command])) :
    x'.Held k ↔ After k (x.Held k) (keyEdits (announcementEdits [call.command])) := by
  by_cases hkey : call.key = some k
  · cases call with
    | subscribe | unsubscribe | shutdown => cases hkey
    | announce vni destination nextHop =>
      cases hkey
      refine iff_of_true ⟨(vni, destination, nextHop), (htable _).mpr ?_, rfl⟩ ?_
      · exact (EditLog.after_insert _ _ _).mpr (Or.inl rfl)
      · exact (EditLog.after_insert _ _ _).mpr (Or.inl rfl)
    | withdraw vni destination nextHop =>
      cases hkey
      refine iff_of_false ?_ fun hafter => ((EditLog.after_erase _ _ _).mp hafter).1 rfl
      rintro ⟨r, hr, hsame⟩
      obtain ⟨hne, hbefore⟩ := (EditLog.after_erase _ _ _).mp ((htable r).mp hr)
      exact hapart _ rfl r hbefore
        (RouteKey.alike_iff_normalise.mpr ⟨Ne.symm hne, hsame.symm⟩)
  · rw [held_of_ne hkey htable, EditLog.after_of_untouched (ClientCall.key_target_ne hkey)]

/-- What the calls have still to tell the server, in the order of the lock. -/
def waiting (s : ServerId) (calls : List RouteCall) : List (Edit RouteKey) :=
  calls.flatMap fun c =>
    if s ∈ c.rest then keyEdits (announcementEdits [c.call.command]) else []

/-- The calls of two lists have still to tell the edits of both. -/
theorem waiting_append (calls calls' : List RouteCall) :
    waiting s (calls ++ calls') = waiting s calls ++ waiting s calls' :=
  List.flatMap_append

/-- The first call has still to tell its edits before those of the others, unless it has told
them. -/
theorem waiting_cons (c : RouteCall) (calls : List RouteCall) :
    waiting s (c :: calls)
      = (if s ∈ c.rest then keyEdits (announcementEdits [c.call.command]) else [])
        ++ waiting s calls :=
  List.flatMap_cons

/-- Calls on other keys have nothing to say of this one. -/
theorem waiting_untouched {calls : List RouteCall}
    (h : ∀ c ∈ calls, c.call.key = some k → s ∉ c.rest) :
    ∀ e ∈ waiting s calls, e.target ≠ k := by
  intro e he
  obtain ⟨c, hc, hmem⟩ := List.mem_flatMap.mp he
  split at hmem
  · rename_i hs
    rintro rfl
    refine h c hc ?_ hs
    by_contra hkey
    exact ClientCall.key_target_ne hkey e hmem rfl
  · cases hmem

/-- What is on its way to the server and what the calls have still to add amounts to the keys of
the table. -/
def Tracks (servers : Nat) (x : ConcurrentClient) : Prop :=
  ∀ s k, s.id < servers → (After k False (x.stream s ++ waiting s x.calls) ↔ x.Held k)

/-- A list splits at each of its entries. -/
theorem split_at {calls : List RouteCall} {i : Nat} {c : RouteCall} (h : calls[i]? = some c) :
    calls = calls.take i ++ c :: calls.drop (i + 1) := by
  obtain ⟨hi, heq⟩ := List.getElem?_eq_some_iff.mp h
  rw [← heq, List.cons_getElem_drop_succ, List.take_append_drop]

/-- With the calls in the order of the lock, a step only moves edits from those that are waiting
to those on the stream, or adds one to the table and to the waiting ones at once. -/
theorem tracks_step {l : ConcurrentLabel} (hsimple : x.Simple servers) (h : x.Tracks servers)
    (hok : InOrder x l) (hs : (lts servers).step x l = some x') : x'.Tracks servers := by
  intro s k hserver
  cases l with
  | call call order =>
    obtain rfl | ⟨hcalls, horder, hstream, htable⟩ := call_eq_some hs
    · exact h s k hserver
    · -- The call has all the peers before it.
      rw [hcalls, waiting_append, waiting_cons, if_pos ((Client.mem_order horder).mpr hserver),
        hstream, held_call hok htable, ← List.append_assoc, EditLog.after_append]
      have hbefore := propext (h s k hserver)
      rw [hbefore]
      exact Iff.of_eq (by rw [waiting, List.flatMap_nil, List.append_nil])
  | enqueue i =>
    obtain ⟨call, s₀, rest, hcall, hcalls, htable, hstream, hothers⟩ := enqueue_eq_some hs
    obtain ⟨hi, -⟩ := List.getElem?_eq_some_iff.mp hcall
    have hbefore := h s k hserver
    rw [split_at hcall, waiting_append, waiting_cons] at hbefore
    rw [Held, htable, hcalls, List.set_eq_take_append_cons_drop, if_pos hi, waiting_append,
      waiting_cons]
    by_cases hs₀ : s = s₀
    · subst hs₀
      have hnot : s ∉ rest := (List.nodup_cons.mp (hsimple _ (List.mem_of_getElem? hcall)).1).1
      rw [if_pos List.mem_cons_self] at hbefore
      rw [hstream, if_neg hnot, List.nil_append]
      by_cases hkey : call.key = some k
      · -- No earlier call has anything to say of the key, so the command may go before it.
        have huntouched : ∀ e ∈ waiting s (x.calls.take i), e.target ≠ k :=
          waiting_untouched fun c hc hckey => hok _ hcall s rfl c hc (hckey.trans hkey.symm)
        rw [← List.append_assoc, EditLog.after_skip huntouched] at hbefore
        rw [← List.append_assoc, EditLog.after_skip huntouched, List.append_assoc]
        exact hbefore
      · have huntouched := ClientCall.key_target_ne hkey
        rw [← List.append_assoc, ← List.append_assoc, EditLog.after_skip huntouched,
          List.append_assoc] at hbefore
        rw [EditLog.after_skip huntouched]
        exact hbefore
    · have hsame : s ∈ s₀ :: rest ↔ s ∈ rest :=
        ⟨List.mem_of_ne_of_mem hs₀, List.mem_cons_of_mem _⟩
      rw [hothers s hs₀]
      simp only [hsame] at hbefore
      exact hbefore
  | finish i =>
    obtain ⟨call, hcall, rfl⟩ := finish_eq_some hs
    have hbefore := h s k hserver
    rw [split_at hcall, waiting_append, waiting_cons, if_neg List.not_mem_nil, List.nil_append,
      ← waiting_append] at hbefore
    show After k False (x.stream s ++ waiting s (x.calls.eraseIdx i)) ↔ _
    rw [List.eraseIdx_eq_take_drop_succ]
    exact hbefore
  | task server action =>
    obtain ⟨hcalls, htable, hstream⟩ := task_eq_some hs
    rw [hcalls, hstream, Held, htable]
    exact h s k hserver

/-- A call that is the last one with something to say of its key, and that has been overtaken by
none, agrees with the table. -/
theorem agrees_of_tracks {l : ConcurrentLabel} (hsimple : x.Simple servers) (h : x.Tracks servers) :
    Agrees x l := by
  cases l with
  | enqueue i =>
    intro c hc s hs k hkey halone
    obtain ⟨rest, hrest⟩ := List.head?_eq_some_iff.mp hs
    have hmem : s ∈ c.rest := by
      rw [hrest]
      exact List.mem_cons_self
    have htracks := h s k ((hsimple c (List.mem_of_getElem? hc)).2 s hmem)
    rw [List.eraseIdx_eq_take_drop_succ] at halone
    rw [split_at hc, waiting_append, waiting_cons, if_pos hmem, ← List.append_assoc,
      ← List.append_assoc, EditLog.after_append,
      EditLog.after_of_untouched (waiting_untouched fun c' hc' => halone c'
        (List.mem_append_right _ hc'))] at htracks
    exact (after_push hkey).mp htracks
  | call | finish | task => trivial

/-- Calls on one key that tell each server of it in the order of the lock agree with the table, as
long as no two announced routes are alike. -/
theorem agrees_of_inOrder {ls : List ConcurrentLabel}
    (hok : (lts servers).Throughout InOrder ls) : (lts servers).Throughout Agrees ls := by
  have htracks : (lts servers).Throughout
      (fun x _ => x.Simple servers ∧ x.Tracks servers) ls := by
    refine hok.always_before fun hrun hok => ?_
    refine Lts.Run.invariant_of_throughout
      (P := fun x => x.Simple servers ∧ x.Tracks servers) ⟨simple_new, ?_⟩ ?_ hrun hok
    · intro s k _
      refine settled_new (s := s) ?_
      rintro ⟨c, hc, -⟩
      cases hc
    · rintro ls y l y' - ⟨hsimple, htracks⟩ hstep hs
      exact ⟨simple_step hsimple hs, tracks_step hsimple htracks hstep hs⟩
  exact htracks.mono fun _ _ h => agrees_of_tracks h.1 h.2

/-! ### The server's table -/

/-- **Overlapping calls and the server's table.** Consider a run of overlapping calls in which
every call that is the last one to tell a server of its key agrees with the table. Suppose that
all calls have returned, and that the server has read and processed everything that the client has
sent it, with no other session touching these routes. Then the routes that the server has from
the client are the keys of the announced ones, and so they are the announced ones if and only if
none of these has the target VNI 0. -/
theorem owned_iff_announced {ls : List ConcurrentLabel} (hrun : (lts servers).Run ls x)
    (hok : (lts servers).Throughout Agrees ls) (hreturned : x.calls = []) (hserver : s.id < servers)
    (hcommands : (x.client.peers s).commands = []) {p : Prost} (hp : p.Standard)
    {received : List Message}
    (hreceived : (x.client.peers s).sent.mapM (Message.transmit p) = .ok received)
    {turns : List Turn} {actor : RoutingActor}
    (hactor : RoutingActor.system.Run turns actor) (hd : Event.Disciplined (turns.map Turn.event))
    {a : SocketAddr} {c : SessionId} (hopen : Event.holder (turns.map Turn.event) a = some c)
    (hprocessed : Event.updates (Event.ofSession (turns.map Turn.event) c) = edits received)
    (halone : ∀ e ∈ turns.map Turn.event, ∀ edit ∈ e.2.edit,
      edit.target ∈ (edits received).map Edit.target → e.1 = c) :
    (∀ k, k ∈ actor.routes ∧ actor.routeOwners.lookup k = some a ↔ x.Held k) ∧
      ((∀ r, r ∈ actor.routes ∧ actor.routeOwners.lookup r = some a ↔
          r ∈ x.client.announcedRoutes) ↔
        ∀ r ∈ x.client.announcedRoutes, r.2.2.targetVni ≠ some 0) := by
  have hkeys : ∀ k, k ∈ actor.routes ∧ actor.routeOwners.lookup k = some a ↔ x.Held k := by
    intro k
    have hsettled : Settled x s k :=
      (always_settled_iff hrun).mpr hok ls [] x (List.append_nil ls).symm hrun s k hserver
    have hquiet : ¬ x.Pending s k := by
      rintro ⟨call, hcall, -⟩
      rw [hreturned] at hcall
      cases hcall
    have hstream : x.stream s = edits received := by
      rw [Message.mapM_transmit hp] at hreceived
      rw [← Except.ok.inj hreceived, edits_normalise, stream, hcommands]
      exact congrArg keyEdits (List.append_nil _)
    rw [← hsettled hquiet, hstream, ← mem_replay,
      ← RoutingActor.owned_iff_replay hactor hd hopen hprocessed halone k, and_iff_right_iff_imp]
    -- Only stored routes have an owner.
    intro howner
    rw [(RoutingActor.owner_eq_of_run hactor).1 k, howner]
    rfl
  refine ⟨hkeys, ?_⟩
  constructor
  · intro hsame r hr hzero
    -- The server has the route, so it is a key.
    obtain ⟨r', -, rfl⟩ := (hkeys r).mp ((hsame r).mpr hr)
    exact RouteKey.targetVni_normalise r' hzero
  · intro hplain r
    rw [hkeys r]
    constructor
    · rintro ⟨r', hr', rfl⟩
      rwa [RouteKey.normalise_eq_self (hplain r' hr')]
    · intro hr
      exact ⟨r, hr, RouteKey.normalise_eq_self (hplain r hr)⟩

instance (x : ConcurrentClient) : (l : ConcurrentLabel) → Decidable (x.Agrees l)
  | .enqueue i => inferInstanceAs (Decidable (∀ c ∈ x.calls[i]?, ∀ s ∈ c.rest.head?,
      ∀ k ∈ c.call.key, (∀ c' ∈ x.calls.eraseIdx i, c'.call.key = some k → s ∉ c'.rest) →
        (After k False (keyEdits (announcementEdits [c.call.command])) ↔ x.Held k)))
  | .call _ _ => inferInstanceAs (Decidable True)
  | .finish _ => inferInstanceAs (Decidable True)
  | .task _ _ => inferInstanceAs (Decidable True)

/-- One task announces a route and another one withdraws it, before the first one has told the
server of it. The calls send their commands in the given order. -/
def announcedAndWithdrawn (first second : Nat) : List ConcurrentLabel :=
  [ .call (.announce ⟨100⟩ (makeDest 1) (makeHop 1)) [⟨0⟩],
    .call (.withdraw ⟨100⟩ (makeDest 1) (makeHop 1)) [⟨0⟩],
    .enqueue first, .enqueue second, .finish 1, .finish 0, .task ⟨0⟩ .command,
    .task ⟨0⟩ .command ]

/-- The run `announcedAndWithdrawn`, and two more routes that differ in the target VNI. The calls
overlap, and the second one is the first to send. -/
def keptAfterwards : List ConcurrentLabel :=
  announcedAndWithdrawn 0 1 ++
  [ .call (.announce ⟨100⟩ (makeDest 1) (makeHop 1)) [⟨0⟩],
    .call (.announce ⟨100⟩ (makeDest 1) { makeHop 1 with targetVni := some 5 }) [⟨0⟩],
    .enqueue 1, .enqueue 0, .finish 1, .finish 0, .task ⟨0⟩ .command, .task ⟨0⟩ .command ]

/-- The server processes updates on routes to the destination of the run
`announcedAndWithdrawn`. -/
def processed (updates : List (Action × NextHop)) : List Turn :=
  ⟨1, .peerConnected (.loopback 40001) 1, [], ∅⟩ ::
    updates.map fun u => ⟨1, .update (.loopback 40001) u.1 ⟨100⟩ (makeDest 1) u.2, [], ∅⟩

/-- The updates of the run `keptAfterwards`. -/
def keptUpdates : List (Action × NextHop) :=
  [(.add, makeHop 1), (.remove, makeHop 1), (.add, { makeHop 1 with targetVni := some 5 }),
    (.add, makeHop 1)]

/-- If the commands are sent in the order of the lock, the server ends up without the route that
is withdrawn, and with both routes that are announced after it. -/
theorem owned_iff_announced_inOrder :
    ∃ x actor, (lts 1).Run keptAfterwards x ∧
      RoutingActor.system.Run (processed keptUpdates) actor ∧
      (⟨100⟩, makeDest 1, makeHop 1) ∈ x.client.announcedRoutes ∧
      ∀ r, r ∈ actor.routes ∧ actor.routeOwners.lookup r = some (.loopback 40001) ↔
        r ∈ x.client.announcedRoutes := by
  have hrun : (lts 1).Run keptAfterwards _ := Lts.Run.of_exec (by decide)
  have hactor : RoutingActor.system.Run (processed keptUpdates) _ := Lts.Run.of_exec (by decide)
  have hok : (lts 1).Throughout Agrees keptAfterwards := Lts.throughout_of_check (by decide)
  refine ⟨_, _, hrun, hactor, by decide, ?_⟩
  obtain ⟨hkeys, hsame⟩ := owned_iff_announced hrun hok (s := ⟨0⟩) (by decide) (by decide)
    (by decide) Prost.standard_strict (Message.mapM_transmit Prost.standard_strict _) hactor
    (by decide) (a := .loopback 40001) (c := 1) (by decide) (by decide) (by decide)
  refine hsame.mpr ?_
  simp only [← RouteTable.mem_triples]
  decide

/-- If the withdrawal overtakes the announcement, the server keeps a route that the client no
longer announces. -/
theorem route_kept_overtaken :
    ¬ ∀ (servers : Nat) (ls : List ConcurrentLabel) (x : ConcurrentClient),
      (lts servers).Run ls x → x.calls = [] → ∀ (s : ServerId), s.id < servers →
        (x.client.peers s).commands = [] → ∀ (received : List Message),
        (x.client.peers s).sent.mapM (Message.transmit .strict) = .ok received →
        ∀ (turns : List Turn) (actor : RoutingActor), RoutingActor.system.Run turns actor →
          Event.Disciplined (turns.map Turn.event) → ∀ (a : SocketAddr) (c : SessionId),
            Event.holder (turns.map Turn.event) a = some c →
            Event.updates (Event.ofSession (turns.map Turn.event) c) = edits received →
            (∀ e ∈ turns.map Turn.event, ∀ edit ∈ e.2.edit,
              edit.target ∈ (edits received).map Edit.target → e.1 = c) →
            ∀ r, r ∈ actor.routes ∧ actor.routeOwners.lookup r = some a ↔
              r ∈ x.client.announcedRoutes := by
  intro h
  have hrun : (lts 1).Run (announcedAndWithdrawn 1 0) _ := Lts.Run.of_exec (by decide)
  have hactor : RoutingActor.system.Run (processed [(.remove, makeHop 1), (.add, makeHop 1)]) _ :=
    Lts.Run.of_exec (by decide)
  -- The server has the route, and the client does not announce it.
  have hiff := h 1 _ _ hrun (by decide) ⟨0⟩ (by decide) (by decide) _
    (Message.mapM_transmit Prost.standard_strict _) _ _ hactor (by decide)
    (.loopback 40001) 1 (by decide) (by decide) (by decide) (⟨100⟩, makeDest 1, makeHop 1)
  revert hiff
  decide

end ConcurrentClient

end RustBond
