import RustBond.Proofs.Client.Client
import RustBond.Proofs.Client.PeerTask

/-!
# `RustBond.Proofs.Client.Subscriptions`: which subscriptions reach a server

A client wishes the VNIs for which `subscribe` has returned `Ok` and which it has not
unsubscribed since (`Wishes`). A wish reaches a server if the peer task keeps it in its own
set or in its channel, because the task repeats its own set when it is connected again.

`subscribe_sent` shows that this works in every run in which no peer misses a subscribe
command (`KeepsWishes`). There are two ways to miss one. `subscribe` passes over a peer that
is not established, and a peer task loses a command that it takes while it waits to retry or
whose message it fails to write. The shared set of subscriptions would make up for it, as the
shared table of announced routes does for announcements, but nothing ever reads that set.
The run `lateServer` shows a server that never hears of a subscription.
-/

set_option autoImplicit false

namespace RustBond

open EditLog (After)

/-- The VNI of a subscribe command. -/
def PeerCommand.subscribed (cmd : PeerCommand) : Option Vni :=
  match cmd with
  | .subscribe vni => some vni
  | _ => none

/-- A call event as an edit of the wished VNIs. -/
def CallEvent.wish (e : CallEvent) : Option (Edit Vni) :=
  match e with
  | .returned (.subscribe vni) none => some (.insert vni)
  | .called (.unsubscribe vni) => some (.erase vni)
  | _ => none

/-- The calls of a client as an edit log. -/
def wishes (log : List CallEvent) : List (Edit Vni) := log.filterMap CallEvent.wish

/-- The wishes of a log with one more event. -/
theorem wishes_snoc (log : List CallEvent) (e : CallEvent) :
    wishes (log ++ [e]) = wishes log ++ e.wish.toList := by
  unfold wishes
  rw [List.filterMap_append]
  cases h : e.wish with
  | none => simp [h]
  | some edit => simp [h]

namespace Client

/-- `subscribe` has returned `Ok` for `v`, and `v` has not been unsubscribed since. -/
def Wishes (x : Client) (v : Vni) : Prop := EditLog.last v (wishes x.log) = some true

instance (x : Client) (v : Vni) : Decidable (x.Wishes v) :=
  inferInstanceAs (Decidable (EditLog.last v (wishes x.log) = some true))

/-- The client wishes `v`, or it is about to and has already visited the server. -/
def Wants (x : Client) (s : ServerId) (v : Vni) : Prop :=
  x.Wishes v ∨ ∃ a ∈ x.active, a.call = .subscribe v ∧ s ∉ a.rest

instance (x : Client) (s : ServerId) (v : Vni) : Decidable (x.Wants s v) :=
  inferInstanceAs (Decidable (x.Wishes v ∨ ∃ a ∈ x.active, a.call = .subscribe v ∧ s ∉ a.rest))

/-- The next peer of an active `subscribe` is established, or the subscription is on its way
to it anyway. -/
def KeepsChecked (x : Client) : Prop :=
  ∀ a ∈ x.active, ∀ s ∈ a.rest.head?, ∀ v ∈ a.call.command.subscribed,
    (x.peers s).state ≠ .established → (x.peers s).phase ≠ .closed → (x.peers s).Intends v

/-- If the peer task is about to take a subscribe command that the client wants, then the
subscription is on its way without this command too. -/
def KeepsLost (x : Client) (s : ServerId) : Prop :=
  ∀ cmd ∈ (x.peers s).commands.head?, ∀ v ∈ cmd.subscribed, x.Wants s v →
    After v (v ∈ (x.peers s).subscriptions) (subscriptionEdits (x.peers s).commands.tail)

/-- The step makes no peer miss a subscribe command. -/
def KeepsWishes (x : Client) (l : ClientLabel) : Prop :=
  match l with
  | .check => x.KeepsChecked
  | .task s action => action = .commandFailed ∨ action = .retryCommand → x.KeepsLost s
  | _ => True

instance (x : Client) : Decidable x.KeepsChecked :=
  inferInstanceAs (Decidable (∀ a ∈ x.active, ∀ s ∈ a.rest.head?, ∀ v ∈ a.call.command.subscribed,
    (x.peers s).state ≠ .established → (x.peers s).phase ≠ .closed → (x.peers s).Intends v))

instance (x : Client) (s : ServerId) : Decidable (x.KeepsLost s) :=
  inferInstanceAs (Decidable (∀ cmd ∈ (x.peers s).commands.head?, ∀ v ∈ cmd.subscribed,
    x.Wants s v → After v (v ∈ (x.peers s).subscriptions) _))

instance (x : Client) : (l : ClientLabel) → Decidable (x.KeepsWishes l)
  | .check => inferInstanceAs (Decidable x.KeepsChecked)
  | .task s action =>
    inferInstanceAs (Decidable (action = .commandFailed ∨ action = .retryCommand → x.KeepsLost s))
  | .call _ _ => inferInstanceAs (Decidable True)
  | .enqueue => inferInstanceAs (Decidable True)
  | .finish => inferInstanceAs (Decidable True)

/-- The peers intend what the client wants, and have told it to their servers. -/
structure Reaches (servers : Nat) (x : Client) : Prop where
  intends : ∀ s v, s.id < servers → (x.peers s).phase ≠ .closed → x.Wants s v →
    (x.peers s).Intends v
  told : ∀ s, (x.peers s).Told
  leaving : ∀ a ∈ x.active, ∀ v, a.call = .unsubscribe v → ¬ x.Wishes v

variable {servers : Nat} {x x' : Client}

/-- A new client wants nothing, and its peers have nothing to tell. -/
theorem reaches_new : Reaches servers new where
  intends := by
    rintro s v - - (hwish | ⟨a, hactive, -⟩)
    · cases hwish
    · cases hactive
  told := fun _ => trivial
  leaving := by
    intro a hactive
    cases hactive

/-- A call that begins wishes nothing new. An unsubscribe ends a wish. -/
theorem reaches_call {call : ClientCall} {order : List ServerId} (h : x.Reaches servers)
    (hs : (lts servers).step x (.call call order) = some x') : x'.Reaches servers := by
  obtain ⟨hidle, horder, hpeers, ⟨hactive, hlog⟩ | ⟨e, rfl, hlocks⟩⟩ := call_eq_some hs
  · -- No peer has been visited, so only wishes count.
    have hwishes : ∀ v, x'.Wishes v → x.Wishes v ∧ call ≠ .unsubscribe v := by
      intro v hv
      unfold Wishes at hv ⊢
      rw [hlog, wishes_snoc] at hv
      cases call with
      | unsubscribe vni =>
        rw [EditLog.last_append] at hv
        by_cases heq : vni = v
        · simp [CallEvent.wish, EditLog.last, Edit.target, Edit.inserts, heq] at hv
        · refine ⟨?_, by simpa using heq⟩
          simpa [CallEvent.wish, EditLog.last, Edit.target, heq] using hv
      | subscribe vni => simpa [CallEvent.wish] using hv
      | announce vni destination nextHop => simpa [CallEvent.wish] using hv
      | withdraw vni destination nextHop => simpa [CallEvent.wish] using hv
      | shutdown => simpa [CallEvent.wish] using hv
    refine ⟨?_, by rw [hpeers]; exact h.told, ?_⟩
    · rintro s v hserver hopen (hwish | ⟨a, ha, -, hvisited⟩)
      · rw [hpeers] at hopen ⊢
        exact h.intends s v hserver hopen (Or.inl (hwishes v hwish).1)
      · rw [hactive] at ha
        cases ha
        exact absurd ((mem_order horder).mpr hserver) hvisited
    · intro a ha v hcall hwish
      rw [hactive] at ha
      cases ha
      exact (hwishes v hwish).2 hcall
  · -- A call that is rejected is no wish at all.
    have hsame : wishes (x.log ++ [.called call, .returned call (some e)]) = wishes x.log := by
      have hsplit : x.log ++ [.called call, .returned call (some e)]
          = x.log ++ [.called call] ++ [.returned call (some e)] := by simp
      rw [hsplit, wishes_snoc, wishes_snoc]
      cases call with
      | announce vni destination nextHop => simp [CallEvent.wish]
      | withdraw vni destination nextHop => simp [CallEvent.wish]
      | subscribe | unsubscribe | shutdown => cases hlocks
    have hwishes : ∀ v, Wishes { x with
        log := x.log ++ [.called call, .returned call (some e)] } v ↔ x.Wishes v := by
      intro v
      unfold Wishes
      rw [hsame]
    refine ⟨?_, h.told, ?_⟩
    · rintro s v hserver hopen (hwish | hvisited)
      · exact h.intends s v hserver hopen (Or.inl ((hwishes v).mp hwish))
      · exact h.intends s v hserver hopen (Or.inr hvisited)
    · intro a ha v hcall hwish
      exact h.leaving a ha v hcall ((hwishes v).mp hwish)

/-- A call that goes on wants what it wanted before of the peers that it has not just
visited. -/
theorem Wants.of_rest {a b : ActiveCall} {s : ServerId} {v : Vni} (h : x'.Wants s v)
    (hactive : x.active = some a) (hactive' : x'.active = some b) (hlog : x'.log = x.log)
    (hcall : b.call = a.call) (hrest : s ∈ a.rest → s ∈ b.rest) : x.Wants s v := by
  rcases h with hwish | ⟨b', hb, hcall', hvisited⟩
  · unfold Wishes at hwish
    rw [hlog] at hwish
    exact Or.inl hwish
  · cases hactive'.symm.trans hb
    exact Or.inr ⟨a, hactive, hcall ▸ hcall', fun hmem => hvisited (hrest hmem)⟩

/-- The check refuses the call or lets it go on. If it lets it go on, the condition says that the
peer that is skipped does not miss anything. -/
theorem reaches_check (h : x.Reaches servers) (hok : x.KeepsChecked)
    (hs : (lts servers).step x .check = some x') : x'.Reaches servers := by
  obtain ⟨call, s₀, rest, sentAny, hactive, -, ⟨-, rfl⟩ | ⟨hstate, rfl⟩⟩ := check_eq_some hs
  · refine ⟨?_, h.told, ?_⟩
    · intro s v hserver hopen hwant
      exact h.intends s v hserver hopen (hwant.of_rest hactive rfl rfl rfl id)
    · intro a ha v hcall
      cases ha
      exact h.leaving _ hactive v hcall
  · refine ⟨?_, h.told, ?_⟩
    · intro s v hserver hopen hwant
      by_cases hs₀ : s = s₀
      · -- The peer that the call passes over.
        subst hs₀
        rcases hwant with hwish | ⟨a, ha, hcall, -⟩
        · exact h.intends s v hserver hopen (Or.inl hwish)
        · cases ha
          have hcall' : call = .subscribe v := hcall
          exact hok _ hactive s rfl v (by rw [hcall']; rfl) hstate hopen
      · exact h.intends s v hserver hopen
          (hwant.of_rest hactive rfl rfl rfl (List.mem_of_ne_of_mem hs₀))
    · intro a ha v hcall
      cases ha
      exact h.leaving _ hactive v hcall

/-- The command of a call brings its peer to intend what the call wants of it. -/
theorem intends_enqueue {call : ClientCall} {s₀ : ServerId} {rest : List ServerId}
    {checked : Bool} {sentAny : Bool} (h : x.Reaches servers)
    (hactive : x.active = some ⟨call, s₀ :: rest, checked, sentAny⟩)
    (hserver : s₀.id < servers) (hopen : (x.peers s₀).phase ≠ .closed) {v : Vni}
    (hwant : x.Wishes v ∨ call = .subscribe v) :
    After v ((x.peers s₀).Intends v) (subscriptionEdits [call.command]) := by
  -- What the peer intended before.
  have hbefore : call ≠ .subscribe v → (x.peers s₀).Intends v := by
    intro hcall
    exact h.intends s₀ v hserver hopen (Or.inl (hwant.resolve_right hcall))
  cases call with
  | subscribe vni =>
    have hone : subscriptionEdits [(ClientCall.subscribe vni).command] = [.insert vni] := rfl
    rw [hone, EditLog.after_insert]
    by_cases hv : v = vni
    · exact Or.inl hv
    · exact Or.inr (hbefore fun heq => hv (ClientCall.subscribe.inj heq).symm)
  | unsubscribe vni =>
    have hone : subscriptionEdits [(ClientCall.unsubscribe vni).command] = [.erase vni] := rfl
    have hwish : x.Wishes v := hwant.resolve_right fun heq => by cases heq
    rw [hone, EditLog.after_erase]
    refine ⟨?_, hbefore fun heq => by cases heq⟩
    rintro rfl
    exact h.leaving _ hactive v rfl hwish
  | announce vni destination nextHop => exact hbefore fun heq => by cases heq
  | withdraw vni destination nextHop => exact hbefore fun heq => by cases heq
  | shutdown => exact hbefore fun heq => by cases heq

/-- A `subscribe` command at the end of the channel makes the peer intend the VNI. Another command
concerns other VNIs, or a wish that has ended. -/
theorem reaches_enqueue (h : x.Reaches servers)
    (hs : (lts servers).step x .enqueue = some x') : x'.Reaches servers := by
  obtain ⟨call, s₀, rest, checked, sentAny, hactive, -, ⟨hclosed, rfl⟩ | ⟨hopen₀, -, rfl⟩⟩ :=
    enqueue_eq_some hs
  · refine ⟨?_, h.told, ?_⟩
    · -- The task has returned.
      intro s v hserver hopen hwant
      have hne : s ≠ s₀ := by
        rintro rfl
        exact hopen hclosed
      exact h.intends s v hserver hopen
        (hwant.of_rest hactive rfl rfl rfl (List.mem_of_ne_of_mem hne))
    · intro a ha v hcall
      cases ha
      exact h.leaving _ hactive v hcall
  · refine ⟨?_, ?_, ?_⟩
    · intro s v hserver hopen hwant
      by_cases hs₀ : s = s₀
      · subst hs₀
        show PeerTask.Intends (Function.update x.peers s _ s) v
        rw [Function.update_self, PeerTask.intends_push]
        -- The command is the last one in the channel.
        refine intends_enqueue h hactive hserver hopen₀ ?_
        rcases hwant with hwish | ⟨a, ha, hcall, -⟩
        · exact Or.inl hwish
        · cases ha
          exact Or.inr hcall
      · have hopen' : (Function.update x.peers s₀ _ s).phase ≠ .closed := hopen
        show PeerTask.Intends (Function.update x.peers s₀ _ s) v
        rw [Function.update_of_ne hs₀] at hopen' ⊢
        exact h.intends s v hserver hopen'
          (hwant.of_rest hactive rfl rfl rfl (List.mem_of_ne_of_mem hs₀))
    · intro s
      by_cases hs₀ : s = s₀
      · subst hs₀
        show PeerTask.Told (Function.update x.peers s _ s)
        rw [Function.update_self]
        exact h.told s
      · show PeerTask.Told (Function.update x.peers s₀ _ s)
        rw [Function.update_of_ne hs₀]
        exact h.told s
    · intro a ha v hcall
      cases ha
      exact h.leaving _ hactive v hcall

/-- A call that ends has reached all its peers. -/
theorem reaches_finish (h : x.Reaches servers)
    (hs : (lts servers).step x .finish = some x') : x'.Reaches servers := by
  obtain ⟨call, checked, sentAny, hactive, rfl⟩ := finish_eq_some hs
  refine ⟨?_, h.told, ?_⟩
  · rintro s v hserver hopen (hwish | ⟨a, ha, -⟩)
    · -- A new wish has been passed on to every peer.
      refine h.intends s v hserver hopen ?_
      by_cases hcall : call = .subscribe v
      · exact Or.inr ⟨_, hactive, hcall, List.not_mem_nil⟩
      · refine Or.inl ?_
        unfold Wishes at hwish ⊢
        rw [wishes_snoc] at hwish
        cases call with
        | subscribe vni =>
          have hne : vni ≠ v := fun heq => hcall (by rw [heq])
          rw [EditLog.last_append] at hwish
          cases hresult : (if (ClientCall.subscribe vni).needsEstablished && !sentAny then
              some Error.notEstablished else none) with
          | none =>
            rw [hresult] at hwish
            simpa [CallEvent.wish, EditLog.last, Edit.target, hne] using hwish
          | some e =>
            rw [hresult] at hwish
            simpa [CallEvent.wish] using hwish
        | unsubscribe vni => simpa [CallEvent.wish] using hwish
        | announce vni destination nextHop => simpa [CallEvent.wish] using hwish
        | withdraw vni destination nextHop => simpa [CallEvent.wish] using hwish
        | shutdown => simpa [CallEvent.wish] using hwish
    · cases ha
  · intro a ha
    cases ha

/-- An action of a peer task that loses no wanted command keeps what the peer intends. -/
theorem reaches_task {s₀ : ServerId} {action : TaskAction} (h : x.Reaches servers)
    (hok : x.KeepsWishes (.task s₀ action))
    (hs : (lts servers).step x (.task s₀ action) = some x') : x'.Reaches servers := by
  obtain ⟨-, t, hact, rfl⟩ := task_eq_some hs
  refine ⟨?_, ?_, h.leaving⟩
  · intro s v hserver hopen hwant
    by_cases hs₀ : s = s₀
    · subst hs₀
      have hopen' : (Function.update x.peers s t s).phase ≠ .closed := hopen
      show PeerTask.Intends (Function.update x.peers s t s) v
      rw [Function.update_self] at hopen' ⊢
      have hbefore : (x.peers s).Intends v :=
        h.intends s v hserver (PeerTask.phase_ne_closed hact) hwant
      -- A lost command does no harm, by the condition on the step.
      refine PeerTask.intends_act hbefore hact hopen' ?_
      intro haction hhead
      exact hok haction _ hhead v rfl hwant
    · have hopen' : (Function.update x.peers s₀ t s).phase ≠ .closed := hopen
      show PeerTask.Intends (Function.update x.peers s₀ t s) v
      rw [Function.update_of_ne hs₀] at hopen' ⊢
      exact h.intends s v hserver hopen' hwant
  · intro s
    by_cases hs₀ : s = s₀
    · subst hs₀
      show PeerTask.Told (Function.update x.peers s t s)
      rw [Function.update_self]
      exact PeerTask.told_act (h.told s) hact
    · show PeerTask.Told (Function.update x.peers s₀ t s)
      rw [Function.update_of_ne hs₀]
      exact h.told s

/-- Every step that meets the condition keeps the wishes of the client on their way to all peers.
-/
theorem reaches_step {l : ClientLabel} (h : x.Reaches servers) (hok : x.KeepsWishes l)
    (hs : (lts servers).step x l = some x') : x'.Reaches servers := by
  cases l with
  | call call order => exact reaches_call h hs
  | check => exact reaches_check h hok hs
  | enqueue => exact reaches_enqueue h hs
  | finish => exact reaches_finish h hs
  | task server action => exact reaches_task h hok hs

/-- **When a subscription reaches a server.** Consider a run in which no peer misses a
subscribe command. Whenever a session is established, its initial subscriptions are repeated
and its command channel is empty, the task has sent a subscribe message on the session for
every VNI that the client wishes. -/
theorem subscribe_sent {ls : List ClientLabel} (hrun : (lts servers).Run ls x)
    (hok : (lts servers).Throughout KeepsWishes ls) {s : ServerId} (hserver : s.id < servers)
    (hsession : (x.peers s).phase.Resubscribed) (hcommands : (x.peers s).commands = []) {v : Vni}
    (hwish : x.Wishes v) : .subscribe v ∈ (x.peers s).sent := by
  have h : x.Reaches servers := by
    refine Lts.Run.invariant_of_throughout (P := fun x => x.Reaches servers) reaches_new ?_ hrun hok
    intro _ _ _ _ _ h hstep hs
    exact reaches_step h hstep hs
  have hopen : (x.peers s).phase ≠ .closed := by
    intro hclosed
    rw [hclosed] at hsession
    exact hsession
  have hintends : (x.peers s).Intends v := h.intends s v hserver hopen (Or.inl hwish)
  -- The channel is empty, so the own set has the VNI already.
  have hmem : v ∈ (x.peers s).subscriptions := by
    unfold PeerTask.Intends at hintends
    rw [hcommands] at hintends
    exact hintends
  exact (h.told s).of_resubscribed hsession v hmem

/-- A client subscribes to VNI 100 while only the first of its two servers is established.
The second one is reached later. -/
def lateServer : List ClientLabel :=
  connects ⟨0⟩ [] ++ [.call (.subscribe ⟨100⟩) [⟨0⟩, ⟨1⟩], .check, .enqueue, .check, .finish] ++
    connects ⟨1⟩ []

/-- The second server of the run `lateServer` never hears of the subscription, although
`subscribe` has returned `Ok`. -/
theorem subscription_missed :
    ¬ ∀ (servers : Nat) (ls : List ClientLabel) (x : Client), (lts servers).Run ls x →
      ∀ (s : ServerId), s.id < servers → (x.peers s).state = .established →
        (x.peers s).phase.Resubscribed → (x.peers s).commands = [] →
        ∀ v : Vni, x.Wishes v → .subscribe v ∈ (x.peers s).sent := by
  intro h
  have hrun : (lts 2).Run lateServer _ := Lts.Run.of_exec (by decide)
  have hsent := h 2 lateServer _ hrun ⟨1⟩ (by decide) (by decide) (by decide) (by decide) ⟨100⟩
    (by decide)
  revert hsent
  decide

/-- A client subscribes to VNI 100 while its two servers are established, and loses the
connection to the first one. -/
def reconnected : List ClientLabel :=
  connects ⟨0⟩ [] ++ connects ⟨1⟩ [] ++
    [ .call (.subscribe ⟨100⟩) [⟨0⟩, ⟨1⟩], .check, .enqueue, .check, .enqueue, .finish,
      .task ⟨0⟩ .command, .task ⟨1⟩ .command,
      .task ⟨0⟩ .connectionEnded, .task ⟨0⟩ .clear, .task ⟨0⟩ .retryElapsed ] ++
    connects ⟨0⟩ [⟨100⟩]

/-- On the new connection of the run `reconnected`, the subscription is sent again. -/
theorem subscribe_sent_reconnected :
    ∃ x, (lts 2).Run reconnected x ∧ .subscribe ⟨100⟩ ∈ (x.peers ⟨0⟩).sent := by
  have hrun : (lts 2).Run reconnected _ := Lts.Run.of_exec (by decide)
  have hok : (lts 2).Throughout KeepsWishes reconnected := Lts.throughout_of_check (by decide)
  exact ⟨_, hrun, subscribe_sent hrun hok (by decide) (by decide) (by decide) (by decide)⟩

end Client

end RustBond
