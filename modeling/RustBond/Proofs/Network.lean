import Mathlib.Algebra.Order.BigOperators.Group.Finset
import Mathlib.Algebra.Order.Monoid.Prod
import RustBond.Lib.Projection
import RustBond.Network
import RustBond.Proofs.Client.Views
import RustBond.Proofs.Server.Settling

/-!
# `RustBond.Proofs.Network`: from the announcements to the user's handler

The servers and the receiving side of the client are parts of the network (`partOf_server`,
`partOf_inbound`), so the results on their runs hold here. `Linked` ties them together: at the end
of a connection, the server's view of the client is the state of its peer task.

Every step that the tasks make on their own is a step of one server, and lowers its backlog. So the
sum of the backlogs is a rank of the network, and where it can no longer fall, all servers are at
rest.
-/

set_option autoImplicit false

namespace RustBond.Network

variable {capacity count : Nat} {n n' : Network} {ls : List Label} {server : ServerId}
  {c : SessionId}

/-! ### The parts -/

/-- The step of a server. -/
def Label.at (server : ServerId) (l : Label) : Option RustBond.Label :=
  match l with
  | .server i l => if i = server then some l else none
  | .connect i addr subscriptions announced =>
    if i = server then some (.accept addr subscriptions announced) else none
  | .deliver i c _ _ => if i = server then some (.session c .deliver) else none
  | .command i c cmd _ => if i = server then some (.session c (.command cmd)) else none
  | .disconnect _ _ => none

/-- The event at the client. -/
def Label.event (l : Label) : Option Inbound.Label :=
  match l with
  | .deliver i _ msg calls => some ⟨i, .message msg, calls⟩
  | .command i _ cmd calls => some ⟨i, .command cmd, calls⟩
  | .disconnect i calls => some ⟨i, .disconnect, calls⟩
  | .server _ _ | .connect _ _ _ _ => none

/-- The inversion of a step between a server and the client: the server's session and the client's
tables make it together. -/
theorem clientStep_eq_some {action : SessionAction} {event : PeerEvent} {calls : List HandlerCall}
    (h : n.clientStep capacity server c action event calls = some n') :
    ∃ s inbound, System.step capacity (n.servers server) (.session c action) = some s ∧
      n.inbound.handleEvent server event calls = some inbound ∧
      n' = { n with servers := Function.update n.servers server s, inbound := inbound } := by
  simp only [clientStep, Option.bind_eq_bind, Option.bind_eq_some_iff, Option.pure_def,
    Option.some.injEq] at h
  obtain ⟨s, hs, inbound, hinbound, heq⟩ := h
  exact ⟨s, inbound, hs, hinbound, heq.symm⟩

/-- What a step does. -/
inductive Moves (capacity count : Nat) (n n' : Network) : Label → Prop
  | server {i : ServerId} {l : RustBond.Label} {s : System} (hi : i.id < count)
      (hother : ∀ c ∈ n.session i, isClientStep c l = false)
      (hs : (System.lts capacity).step (n.servers i) l = some s)
      (hn' : n' = { n with servers := Function.update n.servers i s }) :
      Moves capacity count n n' (.server i l)
  | connect {i : ServerId} {addr : SocketAddr} {subscriptions : List Vni}
      {announced : List RouteKey} {s : System} (hi : i.id < count) (hfree : n.session i = none)
      (hsubs : (subscriptions : Multiset Vni) = (n.inbound.connections i).subscriptions.val)
      (hs : (System.lts capacity).step (n.servers i) (.accept addr subscriptions announced)
        = some s)
      (hn' : n' = { n with
        servers := Function.update n.servers i s
        session := Function.update n.session i (some (n.servers i).sessions.length) }) :
      Moves capacity count n n' (.connect i addr subscriptions announced)
  | deliver {i : ServerId} {c : SessionId} {msg : Message} {calls : List HandlerCall} {s : System}
      {inbound : Inbound} (hsession : n.session i = some c)
      (hnext : next (n.servers i) c = some msg)
      (hs : (System.lts capacity).step (n.servers i) (.session c .deliver) = some s)
      (hinbound : n.inbound.handleEvent i (.message msg) calls = some inbound)
      (hn' : n' = { n with servers := Function.update n.servers i s, inbound := inbound }) :
      Moves capacity count n n' (.deliver i c msg calls)
  | command {i : ServerId} {c : SessionId} {cmd : PeerCommand} {calls : List HandlerCall}
      {s : System} {inbound : Inbound} (hsession : n.session i = some c)
      (hs : (System.lts capacity).step (n.servers i) (.session c (.command cmd)) = some s)
      (hinbound : n.inbound.handleEvent i (.command cmd) calls = some inbound)
      (hn' : n' = { n with servers := Function.update n.servers i s, inbound := inbound }) :
      Moves capacity count n n' (.command i c cmd calls)
  | disconnect {i : ServerId} {calls : List HandlerCall} {inbound : Inbound}
      (hinbound : n.inbound.handleEvent i .disconnect calls = some inbound)
      (hn' : n' = { n with session := Function.update n.session i none, inbound := inbound }) :
      Moves capacity count n n' (.disconnect i calls)

/-- The inversion of a step of the network. -/
theorem moves_of_step {l : Label} (hs : (lts capacity count).step n l = some n') :
    Moves capacity count n n' l := by
  cases l with
  | server i l =>
    obtain ⟨⟨hi, hother⟩, h⟩ := Option.ite_none_right_eq_some.mp hs
    obtain ⟨s, hstep, heq⟩ := Option.map_eq_some_iff.mp h
    exact .server hi hother hstep heq.symm
  | connect i addr subscriptions announced =>
    obtain ⟨⟨hi, hfree, hsubs⟩, h⟩ := Option.ite_none_right_eq_some.mp hs
    obtain ⟨s, hstep, heq⟩ := Option.map_eq_some_iff.mp h
    exact .connect hi hfree hsubs hstep heq.symm
  | deliver i c msg calls =>
    obtain ⟨⟨hsession, hnext⟩, h⟩ := Option.ite_none_right_eq_some.mp hs
    obtain ⟨s, inbound, hstep, hinbound, heq⟩ := clientStep_eq_some h
    exact .deliver hsession hnext hstep hinbound heq
  | command i c cmd calls =>
    obtain ⟨hsession, h⟩ := Option.ite_none_right_eq_some.mp hs
    obtain ⟨s, inbound, hstep, hinbound, heq⟩ := clientStep_eq_some h
    exact .command hsession hstep hinbound heq
  | disconnect i calls =>
    obtain ⟨-, h⟩ := Option.ite_none_right_eq_some.mp hs
    obtain ⟨inbound, hinbound, heq⟩ := Option.map_eq_some_iff.mp h
    exact .disconnect hinbound heq.symm

/-- Every server is a part of the network. -/
theorem partOf_server (capacity count : Nat) (server : ServerId) :
    (System.lts capacity).PartOf (lts capacity count) (fun n => n.servers server)
      (Label.at server) := by
  refine ⟨rfl, ?_⟩
  -- A step of one server leaves the others alone.
  have hpart : ∀ (n : Network) (i : ServerId) (l : RustBond.Label) (s : System),
      System.step capacity (n.servers i) l = some s →
      (if i = server then some l else none) = none ∧
          Function.update n.servers i s server = n.servers server ∨
        ∃ l', (if i = server then some l else none) = some l' ∧
          (System.lts capacity).step (n.servers server) l'
            = some (Function.update n.servers i s server) := by
    intro n i l s hstep
    by_cases hi : i = server
    · subst hi
      exact Or.inr ⟨l, if_pos rfl, by rw [Function.update_self]; exact hstep⟩
    · exact Or.inl ⟨if_neg hi, Function.update_of_ne (Ne.symm hi) _ _⟩
  intro n l n' hs
  cases moves_of_step hs with
  | @server i l s _ _ hstep hn' => exact hn' ▸ hpart n i l s hstep
  | connect _ _ _ hstep hn' => exact hn' ▸ hpart n _ _ _ hstep
  | deliver _ _ hstep _ hn' => exact hn' ▸ hpart n _ _ _ hstep
  | command _ hstep _ hn' => exact hn' ▸ hpart n _ _ _ hstep
  | disconnect _ hn' => exact hn' ▸ Or.inl ⟨rfl, rfl⟩

/-- The receiving side of the client is a part of the network. -/
theorem partOf_inbound (capacity count : Nat) :
    Inbound.lts.PartOf (lts capacity count) inbound Label.event := by
  refine ⟨rfl, ?_⟩
  intro n l n' hs
  cases moves_of_step hs with
  | server _ _ _ hn' => exact hn' ▸ Or.inl ⟨rfl, rfl⟩
  | connect _ _ _ _ hn' => exact hn' ▸ Or.inl ⟨rfl, rfl⟩
  | deliver _ _ _ hinbound hn' => exact hn' ▸ Or.inr ⟨_, rfl, hinbound⟩
  | command _ _ hinbound hn' => exact hn' ▸ Or.inr ⟨_, rfl, hinbound⟩
  | disconnect hinbound hn' => exact hn' ▸ Or.inr ⟨_, rfl, hinbound⟩

/-! ### The client's sessions -/

/-- The client at the other end of a session, as the peer task knows it. A peer task without a
session has no received routes. -/
structure Linked (n : Network) : Prop where
  connected : ∀ i c, n.session i = some c →
    ∃ x, (n.servers i).sessions[c]? = some x ∧ x.client = n.inbound.connections i
  apart : ∀ i, n.session i = none → (n.inbound.connections i).receivedRoutes = RouteTable.new

/-- The steps of the others leave the client of a session alone. -/
theorem client_of_other {s s' : System} {l : RustBond.Label} {x : Session}
    (hs : (System.lts capacity).step s l = some s') (hother : isClientStep c l = false)
    (hx : s.sessions[c]? = some x) :
    ∃ y, s'.sessions[c]? = some y ∧ y.client = x.client := by
  obtain ⟨y, hy, -, -⟩ := System.stays_of_step hs hx
  refine ⟨y, hy, ?_⟩
  cases System.fate_of_step hs hy with
  | accepted hc =>
    have hlt : c < s.sessions.length := (List.getElem?_eq_some_iff.mp hx).1
    exact absurd hc (Nat.ne_of_lt hlt)
  | @acted x' action cmds hx' hact hcommands =>
    rw [hx] at hx'
    cases hx'
    cases Session.passes_of_act hact with
    | commanded => simp [isClientStep] at hother
    | delivered => simp [isClientStep] at hother
    | moved _ hclient => exact hclient
    | closed _ hclient => exact hclient
  | @answered x' owned routes hx' hy' hreply =>
    rw [hx] at hx'
    cases hx'
    rcases System.receive_cases x routes with hreceive | ⟨vni, -, hreceive⟩
    · rw [hy', hreceive]
    · rw [hy', hreceive]
  | @offered x' addr msg hx' hy' =>
    rw [hx] at hx'
    cases hx'
    rw [hy']
  | kept hx' =>
    rw [hx] at hx'
    cases hx'
    rfl

/-- What an action of its client does to a session. -/
theorem client_of_act {s s' : System} {x : Session} {action : SessionAction}
    (hs : (System.lts capacity).step s (.session c action) = some s')
    (hx : s.sessions[c]? = some x) :
    ∃ y cmds, s'.sessions[c]? = some y ∧ x.act c action = some (y, cmds) := by
  obtain ⟨x', y, cmds, hx', hact, rfl⟩ := System.sessionStep_eq_some hs
  rw [hx] at hx'
  cases hx'
  exact ⟨y, cmds, by rw [getElem?_set_of_some hx, if_pos rfl], hact⟩

/-- A step keeps what the client holds of each server and what the server's session holds of it
the same. -/
theorem linked_step {l : Label} (h : Linked n) (hs : (lts capacity count).step n l = some n') :
    Linked n' := by
  cases moves_of_step hs with
  | @server i l s _ hother hstep hn' =>
    subst hn'
    refine ⟨fun j c hc => ?_, h.apart⟩
    obtain ⟨x, hx, hclient⟩ := h.connected j c hc
    by_cases hj : j = i
    · subst hj
      obtain ⟨y, hy, hsame⟩ := client_of_other hstep (hother c hc) hx
      exact ⟨y, by simpa using hy, hsame.trans hclient⟩
    · exact ⟨x, by simpa [Function.update_of_ne hj] using hx, hclient⟩
  | @connect i addr subscriptions announced s _ hfree hsubs hstep hn' =>
    subst hn'
    refine ⟨fun j c hc => ?_, fun j hj => ?_⟩
    · by_cases hji : j = i
      · subst hji
        simp only [Function.update_self, Option.some.injEq] at hc ⊢
        subst hc
        obtain ⟨-, x, -, -, -, -, -, -, hclient, rfl⟩ := System.accept_eq_some hstep
        refine ⟨x, List.getElem?_concat_length, ?_⟩
        -- A connection begins with the subscriptions of the peer task and without routes.
        have hset : subscriptions.toFinset = (n.inbound.connections j).subscriptions := by
          ext v
          rw [List.mem_toFinset, ← Finset.mem_val, ← hsubs, Multiset.mem_coe]
        rw [hclient, hset, ← h.apart j hfree]
      · simp only [Function.update_of_ne hji] at hc ⊢
        exact h.connected j c hc
    · by_cases hji : j = i
      · subst hji
        simp at hj
      · simp only [Function.update_of_ne hji] at hj
        exact h.apart j hj
  | @deliver i c msg calls s inbound hsession hnext hstep hinbound hn' =>
    subst hn'
    obtain ⟨x, hx, hclient⟩ := h.connected i c hsession
    obtain ⟨y, cmds, hy, hact⟩ := client_of_act hstep hx
    obtain ⟨-, hconnections, -, -⟩ := Inbound.handleEvent_eq_some hinbound
    refine ⟨fun j c' hc' => ?_, fun j hj => ?_⟩
    · by_cases hji : j = i
      · subst hji
        rw [hsession] at hc'
        cases hc'
        refine ⟨y, by simpa using hy, ?_⟩
        simp only [hconnections, Function.update_self, ← hclient]
        simp only [next, hx, Option.bind_some] at hnext
        cases Session.passes_of_act hact with
        | delivered hmsg hclient' =>
          rw [hnext] at hmsg
          cases hmsg
          exact hclient'
        | moved hne => exact absurd rfl hne
      · simp only [hconnections, Function.update_of_ne hji]
        exact h.connected j c' hc'
    · have hji : j ≠ i := by
        rintro rfl
        rw [hsession] at hj
        cases hj
      simp only [hconnections, Function.update_of_ne hji]
      exact h.apart j hj
  | @command i c cmd calls s inbound hsession hstep hinbound hn' =>
    subst hn'
    obtain ⟨x, hx, hclient⟩ := h.connected i c hsession
    obtain ⟨y, cmds, hy, hact⟩ := client_of_act hstep hx
    obtain ⟨-, hconnections, -, -⟩ := Inbound.handleEvent_eq_some hinbound
    refine ⟨fun j c' hc' => ?_, fun j hj => ?_⟩
    · by_cases hji : j = i
      · subst hji
        rw [hsession] at hc'
        cases hc'
        refine ⟨y, by simpa using hy, ?_⟩
        simp only [hconnections, Function.update_self, ← hclient]
        simp only [Session.act, Option.map_eq_some_iff, Prod.mk.injEq] at hact
        obtain ⟨msg, -, rfl, -⟩ := hact
        rfl
      · simp only [hconnections, Function.update_of_ne hji]
        exact h.connected j c' hc'
    · have hji : j ≠ i := by
        rintro rfl
        rw [hsession] at hj
        cases hj
      simp only [hconnections, Function.update_of_ne hji]
      exact h.apart j hj
  | @disconnect i calls inbound hinbound hn' =>
    subst hn'
    obtain ⟨-, hconnections, -, -⟩ := Inbound.handleEvent_eq_some hinbound
    refine ⟨fun j c hc => ?_, fun j hj => ?_⟩
    · by_cases hji : j = i
      · subst hji
        simp at hc
      · simp only [Function.update_of_ne hji] at hc
        simp only [hconnections, Function.update_of_ne hji]
        exact h.connected j c hc
    · by_cases hji : j = i
      · subst hji
        simp only [hconnections, Function.update_self]
        rfl
      · simp only [Function.update_of_ne hji] at hj
        simp only [hconnections, Function.update_of_ne hji]
        exact h.apart j hj

/-- The client and its sessions fit together in every reachable state. -/
theorem linked_of_run (hrun : (lts capacity count).Run ls n) : Linked n := by
  refine Lts.Run.invariant ⟨?_, ?_⟩ (fun _ _ _ _ _ h hs => linked_step h hs) hrun
  · intro i c hc
    cases hc
  · exact fun i _ => rfl

/-- The client has sessions with its own servers only. -/
theorem session_lt (hrun : (lts capacity count).Run ls n) (i : ServerId) (c : SessionId)
    (hc : n.session i = some c) : i.id < count := by
  refine Lts.Run.invariant (P := fun n => ∀ i c, n.session i = some c → i.id < count) ?_ ?_
    hrun i c hc
  · intro i c hc
    cases hc
  · intro _ n l n' _ h hs i c hc
    cases moves_of_step hs with
    | server _ _ _ hn' | deliver _ _ _ _ hn' | command _ _ _ hn' =>
      exact h i c (by rwa [hn'] at hc)
    | @connect j _ _ _ _ hj _ _ _ hn' =>
      subst hn'
      by_cases hi : i = j
      · exact hi ▸ hj
      · exact h i c (by simpa [Function.update_of_ne hi] using hc)
    | @disconnect j _ _ _ hn' =>
      subst hn'
      by_cases hi : i = j
      · simp [hi] at hc
      · exact h i c (by simpa [Function.update_of_ne hi] using hc)

/-! ### Where the network comes to -/

/-- The tasks make the step on their own. -/
def Label.isOwn (l : Label) : Bool :=
  match l with
  | .server _ l => l.isOwn
  | .deliver _ _ _ _ => true
  | .connect _ _ _ _ | .command _ _ _ _ | .disconnect _ _ => false

/-- No `try_send` of the step finds a full channel. -/
def NoOverflow (capacity : Nat) (n : Network) (l : Label) : Prop :=
  ∀ i, ∀ l' ∈ l.at i, System.NoOverflow capacity (n.servers i) l'

/-- Every step of the tasks' own is one at a server, and lowers its backlog. -/
theorem backlog_lt {l : Label} (hown : l.isOwn = true)
    (hs : (lts capacity count).step n l = some n')
    (hwithin : ∀ i c, n.session i = some c → i.id < count) :
    ∃ i : ServerId, i.id < count ∧ (n'.servers i).backlog < (n.servers i).backlog ∧
      ∀ j, j ≠ i → n'.servers j = n.servers j := by
  cases moves_of_step hs with
  | @server i l s hi _ hstep hn' =>
    refine ⟨i, hi, ?_, fun j hj => by rw [hn']; exact Function.update_of_ne hj _ _⟩
    rw [hn']
    show (Function.update n.servers i s i).backlog < _
    rw [Function.update_self]
    exact System.backlog_lt hown hstep
  | @deliver i c _ _ s _ hsession _ hstep _ hn' =>
    refine ⟨i, hwithin i c hsession, ?_,
      fun j hj => by rw [hn']; exact Function.update_of_ne hj _ _⟩
    rw [hn']
    show (Function.update n.servers i s i).backlog < _
    rw [Function.update_self]
    exact System.backlog_lt rfl hstep
  | connect | command | disconnect => cases hown

/-- Where no step of the network's own is left, none is left at any server. -/
theorem quiet_server (hlinked : Linked n)
    (hquiet : (lts capacity count).Quiet (fun l => l.isOwn = true) n) {i : ServerId}
    (hi : i.id < count) :
    (System.lts capacity).Quiet (fun l => l.isOwn = true) (n.servers i) := by
  intro l hown
  cases hs : (System.lts capacity).step (n.servers i) l with
  | none => rfl
  | some s =>
    exfalso
    by_cases hother : ∀ c ∈ n.session i, isClientStep c l = false
    · have hstuck := hquiet (.server i l) hown
      have hstep : (lts capacity count).step n (.server i l)
          = some { n with servers := Function.update n.servers i s } := by
        show (if i.id < count ∧ ∀ c ∈ n.session i, isClientStep c l = false then _ else none) = _
        rw [if_pos ⟨hi, hother⟩]
        exact Option.map_eq_some_iff.mpr ⟨s, hs, rfl⟩
      rw [hstep] at hstuck
      cases hstuck
    · -- The client could handle its next message.
      push Not at hother
      obtain ⟨c, hsession, hclient⟩ := hother
      have hl : l = .session c .deliver := by
        cases l with
        | session c' action =>
          cases action with
          | deliver =>
            have hc : c' = c := by simpa [isClientStep] using hclient
            rw [hc]
          | command => cases hown
          | read | respond | flush | stop | disconnect => simp [isClientStep] at hclient
        | accept | recv | trySend | finish => simp [isClientStep] at hclient
      subst hl
      obtain ⟨x, hx, -⟩ := hlinked.connected i c hsession
      obtain ⟨y, cmds, -, hact⟩ := client_of_act hs hx
      obtain ⟨msg, hnext⟩ : ∃ msg, next (n.servers i) c = some msg := by
        cases Session.passes_of_act hact with
        | @delivered msg hmsg => exact ⟨msg, by simp [next, hx, hmsg]⟩
        | moved hne => exact absurd rfl hne
      obtain ⟨calls, hcalls⟩ : ∃ calls : List HandlerCall, (calls : Multiset HandlerCall)
          = ((n.inbound.connections i).handleEvent (.message msg)).2 := Quot.exists_rep _
      have hstuck := hquiet (.deliver i c msg calls) rfl
      have hstep : ((lts capacity count).step n (.deliver i c msg calls)).isSome := by
        show (if n.session i = some c ∧ next (n.servers i) c = some msg then _ else none).isSome
        rw [if_pos ⟨hsession, hnext⟩]
        have hs' : System.step capacity (n.servers i) (.session c .deliver) = some s := hs
        simp only [clientStep, hs', Inbound.handleEvent, hcalls, if_true]
        rfl
      rw [hstuck] at hstep
      cases hstep

/-- The client of the session is connected and subscribed to the VNI of the route, and the most
recent update on the route is not its own. -/
structure Follows (s : System) (c : SessionId) (r : RouteKey) : Prop where
  session : ∃ x, s.sessions[c]? = some x ∧ x.phase ≠ .closed ∧ .subscribe r.1 ∈ x.sent ∧
    .unsubscribe r.1 ∉ x.sent
  other : ∀ action, Event.latest s.processed r ≠ some (c, action)

/-- All servers are at rest. If no channel has overflowed, then the servers that the tracker knows
for a route are those at which it is announced, and the user's handler has the route if there is
one. This is about routes that the client's sessions follow. -/
structure Converged (capacity count : Nat) (ls : List Label) (n : Network) : Prop where
  arrived : ∀ i : ServerId, i.id < count → (n.servers i).AllArrived
  origins : (lts capacity count).Throughout (NoOverflow capacity) ls → ∀ i c r,
    n.session i = some c → Follows (n.servers i) c r →
      (i ∈ n.inbound.origins.origins r ↔ (n.servers i).Announced r)
  handler : (lts capacity count).Throughout (NoOverflow capacity) ls → ∀ r,
    (∀ i c, n.session i = some c → Follows (n.servers i) c r) →
      (EditLog.last r (callEdits n.inbound.calls) = some true ↔
        ∃ i, (n.session i).isSome ∧ (n.servers i).Announced r)

/-- When everything has arrived at every server, the client has converged. -/
theorem converged_of_arrived (hrun : (lts capacity count).Run ls n)
    (harrived : ∀ i : ServerId, i.id < count → (n.servers i).AllArrived) :
    Converged capacity count ls n := by
  have hlinked := linked_of_run hrun
  have hagrees := Inbound.agrees_of_run ((partOf_inbound capacity count).run hrun)
  have horigins : (lts capacity count).Throughout (NoOverflow capacity) ls → ∀ i c r,
      n.session i = some c → Follows (n.servers i) c r →
        (i ∈ n.inbound.origins.origins r ↔ (n.servers i).Announced r) := by
    intro hroom i c r hsession hfollows
    obtain ⟨x, hx, hopen, hsub, hnever⟩ := hfollows.session
    obtain ⟨y, hy, hclient⟩ := hlinked.connected i c hsession
    rw [hx] at hy
    cases hy
    have hpart := partOf_server capacity count i
    have hroom' : (System.lts capacity).Throughout (System.NoOverflow capacity)
        (ls.filterMap (Label.at i)) := hpart.throughout hrun (hroom.mono fun _ _ h => h i)
    rw [hagrees.origins, ← hclient]
    exact (System.converged_of_allArrived (hpart.run hrun)
      (harrived i (session_lt hrun i c hsession))).received hroom' c x r.1 hx hopen hsub hnever r
      rfl hfollows.other
  refine ⟨harrived, horigins, ?_⟩
  intro hroom r hfollows
  rw [← EditLog.after_false_iff, (hagrees.mirrors r).2, ← Finset.nonempty_iff_ne_empty]
  constructor
  · rintro ⟨i, hi⟩
    cases hsession : n.session i with
    | none =>
      -- Without a session, the peer task holds nothing.
      rw [hagrees.origins, hlinked.apart i hsession] at hi
      exact absurd hi (RouteTable.not_mem_new r)
    | some c =>
      exact ⟨i, by simp [hsession], (horigins hroom i c r hsession (hfollows i c hsession)).mp hi⟩
  · rintro ⟨i, hsome, hannounced⟩
    obtain ⟨c, hsession⟩ := Option.isSome_iff_exists.mp hsome
    exact ⟨i, (horigins hroom i c r hsession (hfollows i c hsession)).mpr hannounced⟩

/-- Server 1 has the session of the client at hand and that of a client at port 40002. The route of
the latter is on the stream to the former. -/
def announcedToUs : List Label :=
  [ .connect ⟨1⟩ (.loopback 40001) [] [], .server ⟨1⟩ (.recv [] []), .server ⟨1⟩ .finish,
    .server ⟨1⟩ (.accept (.loopback 40002) [] []), .server ⟨1⟩ (.recv [] []),
    .server ⟨1⟩ .finish,
    .command ⟨1⟩ 0 (.subscribe ⟨100⟩) [], .server ⟨1⟩ (.session 0 .read),
    .server ⟨1⟩ (.recv [] []), .server ⟨1⟩ .finish, .server ⟨1⟩ (.session 0 .respond),
    .server ⟨1⟩
      (.session 1 (.command (.sendUpdate (.update .add ⟨100⟩ (makeDest 1) (makeHop 1))))),
    .server ⟨1⟩ (.session 1 .read), .server ⟨1⟩ (.recv [] []),
    .server ⟨1⟩ (.trySend (.loopback 40001)), .server ⟨1⟩ .finish,
    .server ⟨1⟩ (.session 0 (.flush 1)) ]

end RustBond.Network
