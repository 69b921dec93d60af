import RustBond.Lib.Inevitable
import RustBond.Proofs.Server.Streams

/-!
# `RustBond.Proofs.Server.Arrival`: what is on the streams arrives

`every_run_converges` for streams of bytes. A step over bytes is one over messages or reads some
bytes, so the backlog of the messages and the number of bytes that nobody has read rank the states
(`unread_lt`). Where no step over bytes is left, none over messages is (`exists_own`): whoever waits
for a message that is on the way can decode it, or read some more of it.
-/

set_option autoImplicit false

namespace RustBond

/-- What the session can do without its streams depends on its phase and its channel. -/
theorem Session.isSome_act_task {x y : Session} {c : SessionId} {action : SessionAction}
    (hkind : action.isTask = true) (hphase : x.phase = y.phase) (hrx : x.rx = y.rx) :
    (x.act c action).isSome = (y.act c action).isSome := by
  cases action with
  | command | deliver | read => cases hkind
  | respond =>
    simp only [act, hphase]
    split
    · rfl
    · rfl
  | flush batch =>
    simp only [act, hphase, hrx]
    split
    · rfl
    · rfl
  | stop | disconnect =>
    simp only [act, hphase]
    split
    · rfl
    · rfl

/-- The tasks make the step on their own. TCP has delivered what they read. -/
def StreamLabel.isOwn (l : StreamLabel) : Bool :=
  match l with
  | .accept _ _ _ | .command _ _ => false
  | .task _ action => action.isOwn
  | .readServer _ _ | .handleServer _ | .failServer _ | .readClient _ _ | .handleClient _
  | .failClient _ | .actor _ => true

namespace Streams

variable {p : Prost} {capacity : Nat} {x x' : Streams} {s s' : System} {c : SessionId}

/-- The bytes that nobody has read. -/
def unread (x : Streams) : Nat :=
  x.wires.foldr (fun w n => w.toServer.length + w.toClient.length + n) 0

/-- A read that takes bytes off a stream leaves fewer of them unread. -/
theorem unread_set {v v' : Wire} (hv : x.wires[c]? = some v)
    (hlt : v'.toServer.length + v'.toClient.length < v.toServer.length + v.toClient.length) :
    ({ x with wires := x.wires.set c v' } : Streams).unread < x.unread := by
  have hset := List.foldr_add_set hv v' fun w => w.toServer.length + w.toClient.length
  show (x.wires.set c v').foldr _ 0 < x.wires.foldr _ 0
  omega

/-- A step that is none over messages reads some bytes. -/
theorem unread_lt {l : StreamLabel} (h : Carries p x s) (hnone : l.message = none)
    (hs : (lts p capacity).step x l = some x') : x'.unread < x.unread := by
  cases l with
  | accept | command | handleServer | handleClient | task | actor => cases hnone
  | readServer c n =>
    obtain ⟨w, hw, hread⟩ := Option.bind_eq_some_iff.mp hs
    split at hread
    · rename_i hguard
      obtain ⟨-, hpos, -, hle⟩ := hguard
      cases hread
      refine unread_set hw ?_
      show (w.toServer.drop n).length + w.toClient.length < _
      rw [List.length_drop]
      omega
    · cases hread
  | readClient c n =>
    obtain ⟨w, hw, hread⟩ := Option.bind_eq_some_iff.mp hs
    split at hread
    · rename_i hguard
      obtain ⟨hpos, -, hle⟩ := hguard
      cases hread
      refine unread_set hw ?_
      show w.toServer.length + (w.toClient.drop n).length < _
      rw [List.length_drop]
      omega
    · cases hread
  | failServer c =>
    have hnever := failServer_eq_none h c
    rw [show x.failServer p c = some x' from hs] at hnever
    cases hnever
  | failClient c =>
    have hnever := failClient_eq_none h c
    rw [show x.failClient p c = some x' from hs] at hnever
    cases hnever

/-- What the tasks do over bytes, they do over messages. -/
theorem isOwn_message {l : StreamLabel} {l' : Label} (hown : l.isOwn = true)
    (hl : l.message = some l') (hs : (lts p capacity).step x l = some x') : l'.isOwn = true := by
  cases l with
  | accept | command => cases hown
  | readServer | readClient | failServer | failClient => cases hl
  | handleServer | handleClient =>
    cases hl
    rfl
  | task c action =>
    cases hl
    exact hown
  | actor l =>
    cases hl
    cases l' with
    | recv | trySend | finish => rfl
    | accept | session => cases hs

/-! ### What is enabled -/

/-- A session that can act on what it has decoded can act over bytes. -/
theorem isSome_act {a : Session} {action : SessionAction} {tS tC : List Message}
    (ha : x.system.sessions[c]? = some a)
    (hact : (({ a with toServer := tS, toClient := tC } : Session).act c action).isSome) :
    (x.act p c tS tC action).isSome := by
  obtain ⟨⟨y, cmds⟩, hy⟩ := Option.isSome_iff_exists.mp hact
  have hload : (x.system.load c tS tC).sessions[c]?
      = some { a with toServer := tS, toClient := tC } := by
    rw [System.getElem?_load, ha, Option.map_some, if_pos rfl]
  have hlt : c < (x.system.load c tS tC).sessions.length := (List.getElem?_eq_some_iff.mp hload).1
  rw [act, System.sessionStep, hload]
  show (((Session.act _ c action).map _).bind _).isSome
  rw [hy, Option.map_some, Option.bind_some]
  show (((x.system.load c tS tC).sessions.set c y)[c]?.map _).isSome
  rw [List.getElem?_set_self hlt]
  rfl

/-- Where a step of the tasks' own is possible over messages, one is possible over bytes. -/
theorem exists_own {l : Label} (hown : l.isOwn = true) (h : Carries p x s)
    (hs : ((System.lts capacity).step s l).isSome) :
    ∃ l' : StreamLabel, l'.isOwn = true ∧ ((lts p capacity).step x l').isSome := by
  obtain ⟨hlength, toServer, toClient, rfl, hframed⟩ := h
  have hactor : l.isActor = true →
      ∃ l' : StreamLabel, l'.isOwn = true ∧ ((lts p capacity).step x l').isSome := by
    intro hkind
    refine ⟨.actor l, rfl, ?_⟩
    have hstep : ((x.system.fill toServer toClient).step capacity l).isSome := hs
    rw [System.step_fill hkind, Option.isSome_map] at hstep
    show (if l.isActor then (x.system.step capacity l).map _ else none).isSome
    rw [if_pos hkind, Option.isSome_map]
    exact hstep
  cases l with
  | accept => cases hown
  | recv | trySend | finish => exact hactor rfl
  | session c action =>
    obtain ⟨s', hs'⟩ := Option.isSome_iff_exists.mp hs
    obtain ⟨b, y, cmds, hb, hact, -⟩ := System.sessionStep_eq_some hs'
    rw [System.getElem?_fill, Option.map_eq_some_iff] at hb
    obtain ⟨a, ha, rfl⟩ := hb
    obtain ⟨w, hw⟩ : ∃ w, x.wires[c]? = some w := by
      have hlt : c < x.wires.length := hlength ▸ (List.getElem?_eq_some_iff.mp ha).1
      exact ⟨_, List.getElem?_eq_getElem hlt⟩
    obtain ⟨hserver, hclient⟩ := hframed c w hw
    have htask : action.isTask = true →
        ∃ l' : StreamLabel, l'.isOwn = true ∧ ((lts p capacity).step x l').isSome := by
      intro hkind
      refine ⟨.task c action, hown, ?_⟩
      show (if action.isTask then x.act p c [] [] action else none).isSome
      rw [if_pos hkind]
      have hsame : (({ a with toServer := [], toClient := [] } : Session).act c action).isSome
          = ((a.fill (toServer c) (toClient c)).act c action).isSome :=
        Session.isSome_act_task hkind rfl rfl
      refine isSome_act ha ?_
      rw [hsame, hact]
      rfl
    cases action with
    | command | stop => cases hown
    | deliver =>
      simp only [Session.act] at hact
      split at hact
      · cases hact
      · rename_i m rest hstream
        have hfirst : toClient c = m :: rest := hstream
        rw [hfirst] at hclient
        rcases hclient.progress with ⟨n, hdecode⟩ | hmore
        · refine ⟨.handleClient c, rfl, ?_⟩
          show (x.handleClient p c).isSome
          rw [handleClient, hw, Option.bind_some, hdecode]
          exact isSome_act ha rfl
        · refine ⟨.readClient c 1, rfl, ?_⟩
          show (x.readClient c 1).isSome
          have hpos : 0 < w.toClient.length := List.length_pos_iff.mpr hmore
          rw [readClient, hw, Option.bind_some, if_pos ⟨by omega, by decide, hpos⟩]
          rfl
    | read =>
      simp only [Session.act] at hact
      split at hact
      · rename_i m rest hphase hstream
        have hfirst : toServer c = m :: rest := hstream
        have hrunning : a.phase = .running := hphase
        rw [hfirst] at hserver
        rcases hserver.progress with ⟨n, hdecode⟩ | hmore
        · refine ⟨.handleServer c, rfl, ?_⟩
          show (x.handleServer p c).isSome
          rw [handleServer, hw, Option.bind_some, hdecode]
          refine isSome_act ha ?_
          simp only [Session.act, hrunning]
          rfl
        · refine ⟨.readServer c 1, rfl, ?_⟩
          show (x.readServer c 1).isSome
          have hpos : 0 < w.toServer.length := List.length_pos_iff.mpr hmore
          have hmain : x.Running c := by
            show (x.system.sessions[c]?.map _) = _
            rw [ha, Option.map_some, hrunning]
          rw [readServer, hw, Option.bind_some, if_pos ⟨hmain, by omega, by decide, hpos⟩]
          rfl
      · cases hact
    | respond | flush | disconnect => exact htask rfl

/-- Where no step is left, everything has arrived. -/
theorem allArrived_of_quiet {ls : List Label} (hrun : (System.lts capacity).Run ls s)
    (h : Carries p x s) (hquiet : (lts p capacity).Quiet (fun l => l.isOwn = true) x) :
    s.AllArrived := by
  have hquiet' : (System.lts capacity).Quiet (fun l => l.isOwn = true) s := by
    intro l hown
    by_contra hne
    obtain ⟨l', hown', hstep⟩ := exists_own hown h (Option.isSome_iff_ne_none.mpr hne)
    rw [hquiet l' hown'] at hstep
    cases hstep
  exact System.allArrived_of_quiet (System.awaiting_of_run hrun) (System.targeted_of_run hrun)
    hquiet'

/-! ### Convergence -/

/-- The actor finds room in the channel. -/
def NoOverflow (capacity : Nat) (x : Streams) (l : StreamLabel) : Prop :=
  match l with
  | .actor l => System.NoOverflow capacity x.system l
  | _ => True

/-- The server is at rest, and no byte is left for a session that is open. If no channel has
overflowed, then every connected client that has subscribed to a VNI and never unsubscribed holds
precisely the announced routes of the VNI, as far as the most recent update is not its own. -/
structure Converged (p : Prost) (capacity : Nat) (ls : List StreamLabel) (x : Streams) : Prop where
  actor : x.system.commands = [] ∧ x.system.distribution = none
  arrived : ∀ (c : SessionId) (y : Session) (w : Wire), x.system.sessions[c]? = some y →
    x.wires[c]? = some w → w.toClient = [] ∧ w.clientBuf = [] ∧
      (y.phase = .closed ∨
        y.phase = .running ∧ y.rx = [] ∧ w.toServer = [] ∧ w.serverBuf = [])
  received : (lts p capacity).Throughout (NoOverflow capacity) ls →
    ∀ (c : SessionId) (y : Session) (v : Vni), x.system.sessions[c]? = some y →
      y.phase ≠ .closed → .subscribe v ∈ y.sent → .unsubscribe v ∉ y.sent →
      ∀ r : RouteKey, r.1 = v →
        (∀ action, Event.latest x.system.processed r ≠ some (c, action)) →
        (r ∈ y.client.receivedRoutes ↔ x.system.Announced r)

/-- Whether a route is announced does not depend on what is on the streams. -/
theorem announced_fill {toServer toClient : SessionId → List Message} {s : System}
    {r : RouteKey} : (s.fill toServer toClient).Announced r ↔ s.Announced r := by
  unfold System.Announced
  simp only [System.getElem?_fill, Option.map_eq_some_iff]
  constructor
  · rintro ⟨c, _, hlatest, ⟨y, hy, rfl⟩, hopen⟩
    exact ⟨c, y, hlatest, hy, hopen⟩
  · rintro ⟨c, y, hlatest, hy, hopen⟩
    exact ⟨c, _, hlatest, ⟨y, hy, rfl⟩, hopen⟩

/-- A message without an edit is among the normalised ones exactly if it is among the written
ones. -/
theorem mem_map_normalise {m : Message} (hedit : m.edit = none) {msgs : List Message} :
    m ∈ msgs.map Message.normalise ↔ m ∈ msgs := by
  rw [List.mem_map]
  constructor
  · rintro ⟨m', hm', rfl⟩
    cases m' with
    | hello | keepalive | subscribe | unsubscribe => exact hm'
    | update action =>
      cases action with
      | add | remove => cases hedit
  · intro hm
    refine ⟨m, hm, Message.normalise_of_plain fun e he => ?_⟩
    rw [hedit] at he
    cases he

/-- A run over messages finds room where the one over bytes does. -/
theorem noOverflow_message (hp : p.Standard) {ls : List StreamLabel}
    (hrun : (lts p capacity).Run ls x)
    (hroom : (lts p capacity).Throughout (NoOverflow capacity) ls) :
    (System.lts capacity).Throughout (System.NoOverflow capacity)
      (ls.filterMap StreamLabel.message) := by
  refine Lts.Run.throughout_of_related (R := Carries p) ?_ ?_ hrun hroom
  · intro ls x hrun
    obtain ⟨s, hrun', hcarries, -⟩ := carries_of_run hp hrun
    exact ⟨s, hrun', hcarries⟩
  · rintro x _ l ⟨-, toServer, toClient, rfl, -⟩ hok l' hl'
    cases l' with
    | accept | session | recv | finish => trivial
    | trySend addr =>
      cases l with
      | actor l =>
        cases hl'
        exact mt System.full_fill.mp hok
      | accept | command | readServer | handleServer | failServer | readClient | handleClient
      | failClient | task => cases hl'

/-- A server over bytes has converged when the one over messages has. -/
theorem converged_of_allArrived (hp : p.Standard) {ls : List StreamLabel}
    (hrun : (lts p capacity).Run ls x)
    (hrun' : (System.lts capacity).Run (ls.filterMap StreamLabel.message) s)
    (h : Carries p x s) (hrest : s.AllArrived) : Converged p capacity ls x := by
  have hreceived := (System.converged_of_allArrived hrun' hrest).received
  obtain ⟨hlength, toServer, toClient, rfl, hframed⟩ := h
  have hsession : ∀ {c : SessionId} {y : Session}, x.system.sessions[c]? = some y →
      (x.system.fill toServer toClient).sessions[c]?
        = some (y.fill (toServer c) (toClient c)) := by
    intro c y hy
    rw [System.getElem?_fill, hy, Option.map_some]
  refine ⟨⟨hrest.commands, hrest.distribution⟩, ?_, ?_⟩
  · intro c y w hy hw
    obtain ⟨htoClient, hphase⟩ := hrest.sessions _ (List.mem_of_getElem? (hsession hy))
    obtain ⟨hserver, hclient⟩ := hframed c w hw
    have hnone : toClient c = [] := htoClient
    rw [hnone] at hclient
    obtain ⟨hbuf, hstream⟩ := List.append_eq_nil_iff.mp hclient.eq_nil
    refine ⟨hstream, hbuf, hphase.imp id fun ⟨hrunning, htoServer, hrx⟩ => ?_⟩
    have hnone' : toServer c = [] := htoServer
    rw [hnone'] at hserver
    obtain ⟨hbuf', hstream'⟩ := List.append_eq_nil_iff.mp hserver.eq_nil
    exact ⟨hrunning, hrx, hstream', hbuf'⟩
  · intro hroom c y v hy hopen hsub hnever r hv hother
    have hannounced : (x.system.fill toServer toClient).Announced r ↔ x.system.Announced r :=
      announced_fill
    rw [← hannounced]
    refine hreceived (noOverflow_message hp hrun hroom) c _ v (hsession hy) hopen ?_ ?_ r hv hother
    · exact (mem_map_normalise rfl).mpr hsub
    · exact mt (mem_map_normalise rfl).mp hnever

end Streams

end RustBond
