import RustBond.Lib.Projection
import RustBond.Proofs.Server.Provenance
import RustBond.Proofs.Server.Settling
import RustBond.Proofs.Wire.Framing
import RustBond.Server.Streams

/-!
# `RustBond.Proofs.Server.Streams`: bytes or messages, it makes no difference

`Streams` is a refinement of `System`. However TCP cuts the streams, what is in a buffer and what is
still to be read are complete frames when they are put together (`Carries`), so a state stands for
one with messages. A step of the actor does the same to both (`step_fill`). So does a step of a
session that has decoded what it needs (`Session.act_fill`). A read does nothing to the messages.

The one thing that a message may lose on the way is a target VNI of 0. It loses it on the way to the
server, so nothing that the server writes has one (`Session.Plain`).
-/

set_option autoImplicit false

namespace RustBond

/-! ### Frames -/

namespace Message

variable {p : Prost} {b b' buf rest : List UInt8} {m : Message} {msgs msgs' : List Message}

/-- No bytes are no messages. -/
theorem Framed.nil : Framed p [] [] := ⟨[], .nil, rfl⟩

/-- Frames that are put behind frames give frames, of the messages one after the other. -/
theorem Framed.append (h : Framed p b msgs) (h' : Framed p b' msgs') :
    Framed p (b ++ b') (msgs ++ msgs') := by
  obtain ⟨frames, hframes, rfl⟩ := h
  obtain ⟨frames', hframes', rfl⟩ := h'
  exact ⟨frames ++ frames', List.rel_append hframes hframes', List.flatten_append⟩

/-- What is written is decoded to the normalised messages. -/
theorem framed_encodeAll (hp : p.Standard) (msgs : List Message) :
    Framed p (encodeAll p msgs) (msgs.map normalise) := by
  induction msgs with
  | nil => exact .nil
  | cons m msgs ih =>
    obtain ⟨b, hencode, -, hdecode⟩ := exists_frame hp m
    have hframe : m.frame p = b := by rw [frame, hencode]
    have hone : Framed p b [m.normalise] := by
      refine ⟨[b], .cons ?_ .nil, List.append_nil b⟩
      have hdecode' := hdecode []
      rwa [List.append_nil] at hdecode'
    rw [encodeAll, List.flatMap_cons, hframe]
    exact hone.append ih

/-- A decoded message is the first one, and the other frames follow it. -/
theorem Framed.decode_ok {n : Nat} (h : Framed p (buf ++ rest) msgs)
    (hdecode : decode p buf = .ok (m, n)) :
    ∃ msgs', msgs = m :: msgs' ∧ Framed p (buf.drop n ++ rest) msgs' := by
  obtain ⟨frames, hframes, hflatten⟩ := h
  have hall := decode_append_of_ok hdecode rest
  rw [← hflatten] at hall
  cases hframes with
  | nil => cases hall
  | @cons frame m' frames msgs' hframe hframes =>
    rw [List.flatten_cons, decode_append_of_ok hframe] at hall
    cases hall
    refine ⟨msgs', rfl, frames, hframes, ?_⟩
    have hle : frame.length ≤ buf.length := (consumed_bounds hdecode).2
    rw [← List.drop_append_of_le_length hle, ← hflatten, List.flatten_cons, List.drop_left]

/-- Where no message can be decoded, the next frame is incomplete. -/
theorem Framed.decode_error {e : Error} (h : Framed p (buf ++ rest) msgs)
    (hdecode : decode p buf = .error e) : buf = [] ∨ e.needsMore = true := by
  obtain ⟨frames, hframes, hflatten⟩ := h
  cases hmore : e.needsMore with
  | true => exact .inr rfl
  | false =>
    have hall := decode_append_of_error hdecode hmore rest
    rw [← hflatten] at hall
    cases hframes with
    | nil => exact .inl (List.append_eq_nil_iff.mp hflatten.symm).1
    | cons hframe hframes =>
      rw [List.flatten_cons, decode_append_of_ok hframe] at hall
      cases hall

/-- The first message can be decoded, or some of its bytes are still to be read. -/
theorem Framed.progress (h : Framed p (buf ++ rest) (m :: msgs)) :
    (∃ n, decode p buf = .ok (m, n)) ∨ rest ≠ [] := by
  by_cases hrest : rest = []
  · obtain ⟨frames, hframes, hflatten⟩ := h
    cases hframes with
    | @cons frame _ frames _ hframe hframes =>
      refine .inl ⟨frame.length, ?_⟩
      rw [hrest, List.append_nil, List.flatten_cons] at hflatten
      rw [← hflatten]
      exact decode_append_of_ok hframe _
  · exact .inr hrest

/-- Complete frames of no messages are no bytes at all. -/
theorem Framed.eq_nil (h : Framed p b []) : b = [] := by
  obtain ⟨frames, hframes, rfl⟩ := h
  cases hframes
  rfl

end Message

/-! ### Steps of the actor -/

namespace System

variable {capacity : Nat} {s s' : System} {toServer toClient : SessionId → List Message}

/-- Filling the streams changes each session by itself. -/
@[simp] theorem getElem?_fill (s : System) (toServer toClient : SessionId → List Message)
    (c : SessionId) : (s.fill toServer toClient).sessions[c]?
      = s.sessions[c]?.map fun x => x.fill (toServer c) (toClient c) :=
  List.getElem?_mapIdx

/-- A session receives its snapshot in the same way whatever is on its streams. -/
theorem receive_fill (x : Session) (tS tC : List Message)
    (routes : List (Destination × NextHop)) :
    (x.fill tS tC).receive routes = (x.receive routes).fill tS tC := by
  cases hphase : x.phase with
  | running | stopped | closed => simp [Session.receive, Session.fill, hphase]
  | subscribing vni response =>
    cases response with
    | none => simp [Session.receive, Session.fill, hphase]
    | some _ => simp [Session.receive, Session.fill, hphase]

/-- An answer of the actor goes to its session whatever is on the streams. This holds for every
change `f` of the sessions that `receive` does not see. -/
theorem answer_fill (sessions : List Session) (reply : Reply)
    (routes : List (Destination × NextHop)) (f : SessionId → Session → Session)
    (hf : ∀ c x, (f c x).receive routes = f c (x.receive routes)) :
    answer (sessions.mapIdx f) reply routes
      = (answer sessions reply routes).map fun sessions => sessions.mapIdx f := by
  cases reply with
  | nothing | stats => rfl
  | routes responseTx collected =>
    simp only [answer]
    split
    · rw [Option.map_some]
      congr 1
      refine List.ext_getElem? fun c => ?_
      rw [List.getElem?_modify, List.getElem?_mapIdx, List.getElem?_mapIdx, List.getElem?_modify]
      cases sessions[c]? with
      | none => rfl
      | some x =>
        by_cases hc : responseTx = c
        · simp [hc, hf]
        · simp [hc]
    · rfl

/-- The channel that an address leads to is the same with filled streams. -/
theorem channel_fill (s : System) (addr : SocketAddr) :
    (s.fill toServer toClient).channel addr
      = (s.channel addr).map fun (tx, x) => (tx, x.fill (toServer tx) (toClient tx)) := by
  show ((s.actor.peers.lookup addr).bind fun tx => _) = _
  unfold channel
  cases s.actor.peers.lookup addr with
  | none => rfl
  | some tx =>
    rw [Option.bind_some, Option.bind_some, getElem?_fill, Option.map_map, Option.map_map]
    rfl

/-- Whether a channel is full does not depend on the streams. -/
theorem full_fill {addr : SocketAddr} :
    (s.fill toServer toClient).Full capacity addr ↔ s.Full capacity addr := by
  unfold Full
  rw [channel_fill]
  cases s.channel addr with
  | none => simp
  | some found =>
    obtain ⟨tx, x⟩ := found
    simp [Session.fill]

/-- The actor's `try_send` commutes with filling the streams, the slow consumer included. -/
theorem trySend_fill (capacity : Nat) (s : System) (addr : SocketAddr)
    (toServer toClient : SessionId → List Message) :
    (s.fill toServer toClient).trySend capacity addr
      = (s.trySend capacity addr).map fun s => s.fill toServer toClient := by
  have hdistribution : (s.fill toServer toClient).distribution = s.distribution := rfl
  simp only [trySend, hdistribution, channel_fill]
  split
  · split
    · cases s.channel addr with
      | none => rfl
      | some found =>
        obtain ⟨tx, x⟩ := found
        simp only [Option.map_some]
        by_cases hclosed : x.phase = .closed
        · simp [fill, Session.fill, hclosed]
        · by_cases hroom : x.rx.length < capacity
          · simp [fill, Session.fill, hclosed, hroom, List.mapIdx_set]
          · simp [fill, Session.fill, hclosed, hroom]
    · rfl
  · rfl

/-- The actor takes the same command, and answers it in the same way, with filled streams. -/
theorem recv_fill (s : System) (owned : List RouteKey) (routes : List (Destination × NextHop))
    (toServer toClient : SessionId → List Message) :
    (s.fill toServer toClient).recv owned routes
      = (s.recv owned routes).map fun s => s.fill toServer toClient := by
  have hdistribution : (s.fill toServer toClient).distribution = s.distribution := rfl
  have hcommands : (s.fill toServer toClient).commands = s.commands := rfl
  have hsessions : (s.fill toServer toClient).sessions
      = s.sessions.mapIdx fun c x => x.fill (toServer c) (toClient c) := rfl
  have hactor : (s.fill toServer toClient).actor = s.actor := rfl
  simp only [recv, hdistribution, hcommands, hsessions, hactor]
  split
  · split
    · rw [answer_fill _ _ _ (fun c x => x.fill (toServer c) (toClient c))
        fun c x => receive_fill x _ _ routes, Option.map_map, Option.map_map]
      rfl
    · rfl
  · rfl

/-- The end of a distribution commutes with filling the streams. -/
theorem finish_fill (s : System) (toServer toClient : SessionId → List Message) :
    (s.fill toServer toClient).finish = s.finish.map fun s => s.fill toServer toClient := by
  have hdistribution : (s.fill toServer toClient).distribution = s.distribution := rfl
  simp only [finish, hdistribution]
  split
  · rfl
  · rfl

/-- The actor neither adds nor removes a session. -/
theorem length_of_actor {l : Label} (hl : l.isActor = true) (hs : s.step capacity l = some s') :
    s'.sessions.length = s.sessions.length := by
  cases l with
  | recv owned routes =>
    obtain ⟨c, cmd, commands, sessions, -, -, -, hanswer, rfl⟩ := recv_eq_some hs
    exact length_answer hanswer
  | trySend addr =>
    obtain ⟨msg, targets, rest, slow, -, -, ⟨-, rfl⟩ | ⟨tx, x, -, -, -, rfl⟩ | ⟨-, rfl⟩⟩ :=
      trySend_eq_some hs
    · rfl
    · exact List.length_set ..
    · rfl
  | finish =>
    obtain ⟨slow, -, rfl⟩ := finish_eq_some hs
    rfl
  | accept | session => cases hl

/-- The actor does not look at the streams. -/
theorem step_fill {l : Label} (hl : l.isActor = true) :
    (s.fill toServer toClient).step capacity l
      = (s.step capacity l).map fun s => s.fill toServer toClient := by
  cases l with
  | recv owned routes => exact recv_fill s owned routes _ _
  | trySend addr => exact trySend_fill capacity s addr _ _
  | finish => exact finish_fill s _ _
  | accept | session => cases hl

end System

/-! ### Normal messages -/

/-- The edit is of a route as it is decoded. -/
def Plain (e : Edit RouteKey) : Prop := e.target.normalise = e.target

/-- A message as it is decoded is about a plain route. -/
theorem Message.plain_normalise (m : Message) : ∀ e ∈ m.normalise.edit, Plain e := by
  intro e he
  cases m with
  | hello | keepalive | subscribe | unsubscribe => cases he
  | update action vni destination nextHop =>
    unfold Plain
    rw [Message.target_of_update he, RouteKey.normalise, NextHop.normalise_normalise]

/-- A message with a plain edit stays as it is on the way. -/
theorem Message.normalise_of_plain {m : Message} (h : ∀ e ∈ m.edit, Plain e) :
    m.normalise = m := by
  cases m with
  | hello | keepalive | subscribe | unsubscribe => rfl
  | update action vni destination nextHop =>
    have hplain : nextHop.normalise = nextHop := by
      cases action with
      | add => exact congrArg (fun r : RouteKey => r.2.2) (h _ rfl)
      | remove => exact congrArg (fun r : RouteKey => r.2.2) (h _ rfl)
    rw [Message.normalise, hplain]

/-- The message for a normalised command is the command's message as it is decoded. -/
theorem Connection.commandMessage_normalise (cmd : PeerCommand) :
    commandMessage cmd.normalise = (commandMessage cmd).map Message.normalise := by
  cases cmd with
  | subscribe | unsubscribe | sendUpdate | shutdown => rfl

/-- What a command does to the client's own tables does not depend on how the route is written. -/
theorem Connection.handleCommand_normalise (client : Connection) (cmd : PeerCommand) :
    client.handleCommand cmd.normalise = client.handleCommand cmd := by
  cases cmd with
  | subscribe | unsubscribe | sendUpdate | shutdown => rfl

/-- The greeting of a client whose routes are normalised is its greeting as it is decoded. -/
theorem greeting_normalise (subscriptions : List Vni) (announced : List RouteKey) :
    System.greeting subscriptions (announced.map RouteKey.normalise)
      = (System.greeting subscriptions announced).map Message.normalise := by
  simp only [System.greeting, List.map_append, List.map_map]
  rfl

/-! ### Steps of a session -/

/-- A function that fixes every element fixes the list. -/
theorem map_eq_self {A : Type} {f : A → A} {l : List A} (h : ∀ x ∈ l, f x = x) : l.map f = l := by
  rw [List.map_congr_left h, List.map_id']

namespace Session

variable {a y : Session} {c : SessionId} {action : SessionAction} {cmds : List RoutingCommand}
  {tS tC : List Message}

/-- What the session decodes for the action. -/
inductive Loads : SessionAction → List Message → List Message → Prop
  | read (m : Message) : Loads .read [m] []
  | deliver (m : Message) : Loads .deliver [] [m]
  | other (action : SessionAction) : Loads action [] []

/-- With what it decodes on its streams, the session does what it does with all messages there. They
lose what has been decoded, and gain what has been written. -/
theorem act_fill (hloads : Loads action tS tC)
    (hplain : ∀ m ∈ a.unwritten ++ a.rx, m.normalise = m)
    (hact : ({ a with toServer := tS, toClient := tC } : Session).act c action = some (y, cmds))
    (rS rC : List Message) :
    (a.fill (tS ++ rS) (tC ++ rC)).act c action.normalise
      = some (y.fill (rS ++ y.toServer.map Message.normalise)
          (rC ++ y.toClient.map Message.normalise), cmds) := by
  cases hloads with
  | read m =>
    simp only [act] at hact
    split at hact
    · rename_i m' rest hphase hstream
      have hphase' : a.phase = .running := hphase
      cases hstream
      cases m with
      | hello | keepalive | subscribe | unsubscribe | update =>
        cases hact
        simp [SessionAction.normalise, act, fill, hphase', handleMessage, Message.normalise]
    · cases hact
  | deliver m =>
    cases hact
    simp [SessionAction.normalise, act, fill]
  | other action =>
    cases action with
    | command cmd =>
      simp only [act, Option.map_eq_some_iff, Prod.mk.injEq] at hact
      obtain ⟨msg, hmsg, rfl, rfl⟩ := hact
      simp [SessionAction.normalise, act, fill, Connection.commandMessage_normalise, hmsg,
        Connection.handleCommand_normalise]
    | read =>
      simp only [act] at hact
      split at hact
      · rename_i hstream
        cases hstream
      · cases hact
    | deliver => cases hact
    | respond =>
      simp only [act] at hact
      split at hact
      · rename_i vni routes hphase
        have hphase' : a.phase = .subscribing vni (some routes) := hphase
        have hunwritten : a.unwritten = snapshotMessages vni routes := by
          rw [unwritten, hphase']
        have hsnapshot : (snapshotMessages vni routes).map Message.normalise
            = snapshotMessages vni routes :=
          map_eq_self fun m hm => hplain m (List.mem_append_left _ (hunwritten ▸ hm))
        cases hact
        simp [SessionAction.normalise, act, fill, hphase', hsnapshot]
      · cases hact
    | flush batch =>
      simp only [act] at hact
      split at hact
      · rename_i hguard
        have hbatch : (a.rx.take batch).map Message.normalise = a.rx.take batch :=
          map_eq_self fun m hm => hplain m (List.mem_append_right _ (List.mem_of_mem_take hm))
        cases hact
        refine (if_pos hguard).trans ?_
        simp [fill, hbatch]
      · cases hact
    | stop =>
      simp only [act] at hact
      split at hact
      · rename_i hphase
        cases hact
        simp [SessionAction.normalise, act, fill, hphase]
      · cases hact
    | disconnect =>
      simp only [act] at hact
      split at hact
      · rename_i hphase
        cases hact
        simp [SessionAction.normalise, act, fill, hphase]
      · cases hact

end Session

namespace System

variable {s s' : System} {c : SessionId} {tS tC rS rC : List Message}
  {toServer toClient : SessionId → List Message}

/-- Loading gives one session its decoded messages and leaves the others alone. -/
theorem getElem?_load (s : System) (c i : SessionId) (tS tC : List Message) :
    (s.load c tS tC).sessions[i]? = s.sessions[i]?.map fun x =>
      if c = i then { x with toServer := tS, toClient := tC } else x := by
  show (s.sessions.modify c _)[i]? = _
  rw [List.getElem?_modify]
  cases s.sessions[i]? with
  | none => rfl
  | some x => rfl

/-- What is on the streams is replaced. -/
theorem fill_load (s : System) (c : SessionId) (tS tC : List Message)
    (toServer toClient : SessionId → List Message) :
    (s.load c tS tC).fill toServer toClient = s.fill toServer toClient := by
  have hsessions : (s.load c tS tC).sessions.mapIdx (fun i x => x.fill (toServer i) (toClient i))
      = s.sessions.mapIdx fun i x => x.fill (toServer i) (toClient i) := by
    refine List.ext_getElem? fun i => ?_
    rw [List.getElem?_mapIdx, List.getElem?_mapIdx, getElem?_load, Option.map_map]
    congr 1
    funext x
    by_cases hc : c = i
    · simp [hc, Session.fill]
    · simp [hc]
  show ({ s with sessions := _ } : System) = { s with sessions := _ }
  rw [hsessions]

/-- A change of one session, and of what is on its streams. -/
theorem set_fill (sessions : List Session) (c : SessionId) (y : Session) (rS rC : List Message)
    (toServer toClient : SessionId → List Message) :
    (sessions.mapIdx fun i x => x.fill (toServer i) (toClient i)).set c (y.fill rS rC)
      = (sessions.set c y).mapIdx fun i x => x.fill (Function.update toServer c rS i)
        (Function.update toClient c rC i) := by
  refine List.ext_getElem? fun i => ?_
  rw [List.mapIdx_set, List.getElem?_set, List.getElem?_set]
  by_cases hc : c = i
  · subst hc
    simp
  · rw [if_neg hc, if_neg hc, List.getElem?_mapIdx, List.getElem?_mapIdx]
    simp only [Function.update_of_ne (Ne.symm hc)]

/-- A step of a session that has decoded what it needs is a step of the session with all messages
on its streams: the decoded ones come off the front, and what it writes arrives normalised at the
end. -/
theorem sessionStep_fill {action : SessionAction} (hloads : Session.Loads action tS tC)
    (hplain : ∀ a, s.sessions[c]? = some a → ∀ m ∈ a.unwritten ++ a.rx, m.normalise = m)
    (htoServer : toServer c = tS ++ rS) (htoClient : toClient c = tC ++ rC)
    (hs : (s.load c tS tC).sessionStep c action = some s') :
    ∃ y, s'.sessions[c]? = some y ∧ s'.sessions.length = s.sessions.length ∧
      (s.fill toServer toClient).sessionStep c action.normalise
        = some (s'.fill (Function.update toServer c (rS ++ y.toServer.map Message.normalise))
          (Function.update toClient c (rC ++ y.toClient.map Message.normalise))) := by
  obtain ⟨a', y, cmds, ha', hact, rfl⟩ := sessionStep_eq_some hs
  rw [getElem?_load, Option.map_eq_some_iff] at ha'
  obtain ⟨a, ha, rfl⟩ := ha'
  rw [if_pos rfl] at hact
  have hlt : c < s.sessions.length := (List.getElem?_eq_some_iff.mp ha).1
  have hlength : (s.load c tS tC).sessions.length = s.sessions.length := List.length_modify ..
  refine ⟨y, ?_, ?_, ?_⟩
  · show ((s.load c tS tC).sessions.set c y)[c]? = some y
    rw [List.getElem?_set_self (hlength ▸ hlt)]
  · show ((s.load c tS tC).sessions.set c y).length = _
    rw [List.length_set, hlength]
  · have hfill := Session.act_fill hloads (hplain a ha) hact rS rC
    have hsession : (s.fill toServer toClient).sessions[c]?
        = some (a.fill (tS ++ rS) (tC ++ rC)) := by
      rw [getElem?_fill, ha, Option.map_some, htoServer, htoClient]
    rw [sessionStep, hsession]
    show (Session.act _ c action.normalise).map _ = _
    rw [hfill, Option.map_some, ← fill_load s c tS tC]
    show some ({ s with commands := _, sessions := _ } : System)
      = some { s with commands := _, sessions := _ }
    rw [← set_fill _ c y]
    rfl

/-- A connection accepted with loaded streams is the one accepted with filled ones. Its stream to
the server holds its greeting as it is decoded. -/
theorem accept_fill {addr : SocketAddr} {subscriptions : List Vni} {announced : List RouteKey}
    (hs : s.accept addr subscriptions announced = some s') :
    (s.fill toServer toClient).accept addr subscriptions (announced.map RouteKey.normalise)
      = some (s'.fill
          (Function.update toServer s.sessions.length
            ((greeting subscriptions announced).map Message.normalise))
          (Function.update toClient s.sessions.length [])) := by
  have hlength : (s.fill toServer toClient).sessions.length = s.sessions.length :=
    List.length_mapIdx
  have hsessions : (s.fill toServer toClient).sessions
      = s.sessions.mapIdx fun i x => x.fill
        (Function.update toServer s.sessions.length
          ((greeting subscriptions announced).map Message.normalise) i)
        (Function.update toClient s.sessions.length [] i) := by
    refine List.ext_getElem? fun i => ?_
    rw [getElem?_fill, List.getElem?_mapIdx]
    -- The streams of the sessions that are there stay as they are.
    by_cases hi : i = s.sessions.length
    · rw [hi, List.getElem?_eq_none (Nat.le_refl _), Option.map_none, Option.map_none]
    · rw [Function.update_of_ne hi, Function.update_of_ne hi]
  simp only [accept] at hs
  split at hs
  · rename_i hfree
    have hfree' : ∀ x ∈ (s.fill toServer toClient).sessions,
        x.phase = .closed ∨ x.addr ≠ addr := by
      intro x hx
      obtain ⟨i, hi, rfl⟩ := List.mem_mapIdx.mp hx
      exact hfree s.sessions[i] (List.getElem_mem hi)
    cases hs
    rw [accept, if_pos hfree', hlength, hsessions, greeting_normalise]
    show some ({ s with commands := _, sessions := _ } : System)
      = some { s with commands := _, sessions := List.mapIdx _ _ }
    rw [List.mapIdx_append, List.mapIdx_singleton]
    simp only [Session.fill, Nat.zero_add, Function.update_self]
    rfl
  · cases hs

end System

namespace Streams

variable {p : Prost} {capacity : Nat} {x x' : Streams} {s s' : System} {c : SessionId}

/-- Nothing has a target VNI of 0 any more once the server has it. -/
theorem plain_of_within {toServer toClient : SessionId → List Message}
    (h : System.Within Plain (x.system.fill toServer toClient)) (c : SessionId) (a : Session)
    (ha : x.system.sessions[c]? = some a) : ∀ m ∈ a.unwritten ++ a.rx, m.normalise = m := by
  intro m hm
  have hsession : (x.system.fill toServer toClient).sessions[c]?
      = some (a.fill (toServer c) (toClient c)) := by
    rw [System.getElem?_fill, ha, Option.map_some]
  refine Message.normalise_of_plain fun e he => h.way hsession (mem_edits.mpr ⟨m, ?_, he⟩)
  show m ∈ (toClient c ++ a.unwritten) ++ a.rx
  rw [List.append_assoc]
  exact List.mem_append_right _ hm

/-- What an action does to the bytes. The messages `rS` and `rC` are those of the bytes that are
left when the session has decoded what it needs. -/
theorem carries_act (hp : p.Standard) {action : SessionAction} {tS tC rS rC : List Message}
    {toServer toClient : SessionId → List Message} {wires : List Wire}
    (hlength : wires.length = x.system.sessions.length)
    (hframed : ∀ i w, wires[i]? = some w →
      Message.Framed p (w.serverBuf ++ w.toServer) (Function.update toServer c rS i) ∧
        Message.Framed p (w.clientBuf ++ w.toClient) (Function.update toClient c rC i))
    (hloads : Session.Loads action tS tC)
    (htoServer : toServer c = tS ++ rS) (htoClient : toClient c = tC ++ rC)
    (hwithin : System.Within Plain (x.system.fill toServer toClient))
    (hact : ({ x with wires := wires } : Streams).act p c tS tC action = some x') :
    ∃ s', (x.system.fill toServer toClient).sessionStep c action.normalise = some s' ∧
      Carries p x' s' := by
  obtain ⟨s, hs, hmap⟩ := Option.bind_eq_some_iff.mp hact
  obtain ⟨y, hy, rfl⟩ := Option.map_eq_some_iff.mp hmap
  obtain ⟨y', hy', hlength', hfill⟩ :=
    System.sessionStep_fill hloads (plain_of_within hwithin c) htoServer htoClient hs
  rw [hy] at hy'
  cases hy'
  refine ⟨_, hfill, ?_, _, _, (System.fill_load s c [] [] _ _).symm, fun i w hw => ?_⟩
  · show (wires.modify c _).length = (s.sessions.modify c _).length
    rw [List.length_modify, List.length_modify, hlength, hlength']
  · have hmodify : (wires.modify c fun w => { w with
        toServer := w.toServer ++ encodeAll p y.toServer
        toClient := w.toClient ++ encodeAll p y.toClient })[i]? = some w := hw
    rw [List.getElem?_modify] at hmodify
    obtain ⟨v, hv, rfl⟩ := Option.map_eq_some_iff.mp hmodify
    obtain ⟨hserver, hclient⟩ := hframed i v hv
    by_cases hc : c = i
    · subst hc
      rw [Function.update_self] at hserver hclient ⊢
      rw [Function.update_self, if_pos rfl, ← List.append_assoc, ← List.append_assoc]
      exact ⟨hserver.append (Message.framed_encodeAll hp _),
        hclient.append (Message.framed_encodeAll hp _)⟩
    · rw [Function.update_of_ne (Ne.symm hc)] at hserver hclient ⊢
      rw [Function.update_of_ne (Ne.symm hc), if_neg hc]
      exact ⟨hserver, hclient⟩

/-- A session that has nothing to decode. -/
theorem carries_task (hp : p.Standard) {action : SessionAction} (h : Carries p x s)
    (hwithin : s.Within Plain) (hact : x.act p c [] [] action = some x') :
    ∃ s', s.sessionStep c action.normalise = some s' ∧ Carries p x' s' := by
  obtain ⟨hlength, toServer, toClient, rfl, hframed⟩ := h
  refine carries_act hp hlength ?_ (.other action) (List.nil_append _).symm
    (List.nil_append _).symm hwithin hact
  rw [Function.update_eq_self, Function.update_eq_self]
  exact hframed

/-- Accepting a connection is the same over bytes: the client's greeting is framed on a fresh
wire. -/
theorem carries_accept (hp : p.Standard) {addr : SocketAddr} {subscriptions : List Vni}
    {announced : List RouteKey} (h : Carries p x s)
    (hs : x.accept p addr subscriptions announced = some x') :
    ∃ s', s.accept addr subscriptions (announced.map RouteKey.normalise) = some s' ∧
      Carries p x' s' := by
  obtain ⟨hlength, toServer, toClient, rfl, hframed⟩ := h
  obtain ⟨t, ht, rfl⟩ := Option.map_eq_some_iff.mp hs
  have hsessions : t.sessions.length = x.system.sessions.length + 1 := by
    obtain ⟨-, y, -, -, -, -, -, -, -, rfl⟩ := System.accept_eq_some ht
    exact List.length_append
  refine ⟨_, System.accept_fill ht, ?_, _, _, (System.fill_load t _ [] [] _ _).symm,
    fun i w hw => ?_⟩
  · show (x.wires ++ [_]).length = (t.sessions.modify _ _).length
    rw [List.length_append, List.length_modify, hlength, hsessions]
    rfl
  · rcases getElem?_concat_eq_some hw with hw | ⟨rfl, rfl⟩
    · have hlt : i < x.wires.length := (List.getElem?_eq_some_iff.mp hw).1
      have hi : i ≠ x.system.sessions.length := hlength ▸ Nat.ne_of_lt hlt
      rw [Function.update_of_ne hi, Function.update_of_ne hi]
      exact hframed i w hw
    · rw [hlength, Function.update_self, Function.update_self]
      exact ⟨Message.framed_encodeAll hp _, .nil⟩

/-- The wire of one session is replaced, and the messages on it are. -/
theorem framed_set {i : SessionId} {v v' : Wire} {rS rC : List Message}
    {toServer toClient : SessionId → List Message}
    (hframed : ∀ j w, x.wires[j]? = some w →
      Message.Framed p (w.serverBuf ++ w.toServer) (toServer j) ∧
        Message.Framed p (w.clientBuf ++ w.toClient) (toClient j))
    (hv : x.wires[i]? = some v) (hserver : Message.Framed p (v'.serverBuf ++ v'.toServer) rS)
    (hclient : Message.Framed p (v'.clientBuf ++ v'.toClient) rC) (j : SessionId) (w : Wire)
    (hw : (x.wires.set i v')[j]? = some w) :
    Message.Framed p (w.serverBuf ++ w.toServer) (Function.update toServer i rS j) ∧
      Message.Framed p (w.clientBuf ++ w.toClient) (Function.update toClient i rC j) := by
  rcases of_getElem?_set hv hw with ⟨rfl, rfl⟩ | ⟨hne, hw⟩
  · rw [Function.update_self, Function.update_self]
    exact ⟨hserver, hclient⟩
  · rw [Function.update_of_ne (Ne.symm hne), Function.update_of_ne (Ne.symm hne)]
    exact hframed j w hw

/-- Reading changes what is in the buffer and what is still to come, but not what they are
together. -/
theorem carries_read {i : SessionId} {v v' : Wire} (h : Carries p x s) (hv : x.wires[i]? = some v)
    (hserver : v'.serverBuf ++ v'.toServer = v.serverBuf ++ v.toServer)
    (hclient : v'.clientBuf ++ v'.toClient = v.clientBuf ++ v.toClient) :
    Carries p { x with wires := x.wires.set i v' } s := by
  obtain ⟨hlength, toServer, toClient, rfl, hframed⟩ := h
  refine ⟨(List.length_set ..).trans hlength, toServer, toClient, rfl, ?_⟩
  obtain ⟨hS, hC⟩ := hframed i v hv
  have hset := framed_set hframed hv (hserver ▸ hS) (hclient ▸ hC)
  rw [Function.update_eq_self, Function.update_eq_self] at hset
  exact hset

/-- A message that the server decodes and handles is the next one of the session's stream. -/
theorem carries_handleServer (hp : p.Standard) (h : Carries p x s) (hwithin : s.Within Plain)
    (hs : x.handleServer p c = some x') :
    ∃ s', s.sessionStep c .read = some s' ∧ Carries p x' s' := by
  obtain ⟨hlength, toServer, toClient, rfl, hframed⟩ := h
  obtain ⟨w, hw, hdecode⟩ := Option.bind_eq_some_iff.mp hs
  split at hdecode
  · rename_i msg n hok
    obtain ⟨hserver, hclient⟩ := hframed c w hw
    obtain ⟨msgs, hmsgs, hrest⟩ := hserver.decode_ok hok
    refine carries_act hp ((List.length_set ..).trans hlength) ?_ (.read msg) hmsgs
      (List.nil_append _).symm hwithin hdecode
    exact framed_set hframed hw hrest hclient
  · cases hdecode

/-- A message that the client decodes and handles is the next one of its stream. -/
theorem carries_handleClient (hp : p.Standard) (h : Carries p x s) (hwithin : s.Within Plain)
    (hs : x.handleClient p c = some x') :
    ∃ s', s.sessionStep c .deliver = some s' ∧ Carries p x' s' := by
  obtain ⟨hlength, toServer, toClient, rfl, hframed⟩ := h
  obtain ⟨w, hw, hdecode⟩ := Option.bind_eq_some_iff.mp hs
  split at hdecode
  · rename_i msg n hok
    obtain ⟨hserver, hclient⟩ := hframed c w hw
    obtain ⟨msgs, hmsgs, hrest⟩ := hclient.decode_ok hok
    refine carries_act hp ((List.length_set ..).trans hlength) ?_ (.deliver msg)
      (List.nil_append _).symm hmsgs hwithin hdecode
    exact framed_set hframed hw hserver hrest
  · cases hdecode

/-- An undecodable message is never met. -/
theorem failServer_eq_none (h : Carries p x s) (c : SessionId) : x.failServer p c = none := by
  obtain ⟨-, toServer, toClient, -, hframed⟩ := h
  rw [failServer]
  cases hw : x.wires[c]? with
  | none => rfl
  | some w =>
    rw [Option.bind_some]
    cases hdecode : Message.decode p w.serverBuf with
    | ok r => rfl
    | error e => exact if_pos ((hframed c w hw).1.decode_error hdecode)

/-- The client does not meet an undecodable message either. -/
theorem failClient_eq_none (h : Carries p x s) (c : SessionId) : x.failClient p c = none := by
  obtain ⟨-, toServer, toClient, -, hframed⟩ := h
  rw [failClient]
  cases hw : x.wires[c]? with
  | none => rfl
  | some w =>
    rw [Option.bind_some]
    cases hdecode : Message.decode p w.clientBuf with
    | ok r => rfl
    | error e => exact if_pos ((hframed c w hw).2.decode_error hdecode)

/-- What a step makes a client write is plain when it is decoded. -/
theorem plain_writes {l : StreamLabel} {l' : Label} (hl : l.message = some l')
    (hs : (lts p capacity).step x l = some x') : System.WritesWithin Plain l' := by
  have hmap : ∀ {msgs : List Message}, ∀ e ∈ edits (msgs.map Message.normalise), Plain e := by
    intro msgs e he
    obtain ⟨m', hm', hedit⟩ := mem_edits.mp he
    obtain ⟨m, -, rfl⟩ := List.mem_map.mp hm'
    exact m.plain_normalise e hedit
  cases l with
  | accept addr subscriptions announced =>
    cases hl
    show ∀ e ∈ edits (System.greeting _ _), Plain e
    rw [greeting_normalise]
    exact hmap
  | command c cmd =>
    cases hl
    intro m hm e he
    rw [Connection.commandMessage_normalise, Option.map_eq_some_iff] at hm
    obtain ⟨msg, -, rfl⟩ := hm
    exact msg.plain_normalise e he
  | handleServer | handleClient =>
    cases hl
    trivial
  | task c action =>
    cases hl
    cases action with
    | command cmd => cases hs
    | deliver | read | respond | flush | stop | disconnect => trivial
  | actor l =>
    cases hl
    cases l' with
    | recv | trySend | finish => trivial
    | accept | session => cases hs
  | readServer | readClient | failServer | failClient => cases hl

/-- The simulation. -/
theorem carries_step (hp : p.Standard) {l : StreamLabel} (h : Carries p x s)
    (hwithin : s.Within Plain) (hs : (lts p capacity).step x l = some x') :
    l.message = none ∧ Carries p x' s ∨
      ∃ l' s', l.message = some l' ∧ (System.lts capacity).step s l' = some s' ∧
        Carries p x' s' := by
  cases l with
  | accept addr subscriptions announced =>
    obtain ⟨s', hstep, hcarries⟩ := carries_accept hp h hs
    exact .inr ⟨_, s', rfl, hstep, hcarries⟩
  | command c cmd =>
    obtain ⟨s', hstep, hcarries⟩ := carries_task hp h hwithin hs
    exact .inr ⟨_, s', rfl, hstep, hcarries⟩
  | readServer c n =>
    obtain ⟨w, hw, hread⟩ := Option.bind_eq_some_iff.mp hs
    split at hread
    · cases hread
      refine .inl ⟨rfl, carries_read h hw ?_ rfl⟩
      rw [List.append_assoc, List.take_append_drop]
    · cases hread
  | handleServer c =>
    obtain ⟨s', hstep, hcarries⟩ := carries_handleServer hp h hwithin hs
    exact .inr ⟨_, s', rfl, hstep, hcarries⟩
  | failServer c =>
    have hnone := failServer_eq_none h c
    rw [show x.failServer p c = some x' from hs] at hnone
    cases hnone
  | readClient c n =>
    obtain ⟨w, hw, hread⟩ := Option.bind_eq_some_iff.mp hs
    split at hread
    · cases hread
      refine .inl ⟨rfl, carries_read h hw rfl ?_⟩
      rw [List.append_assoc, List.take_append_drop]
    · cases hread
  | handleClient c =>
    obtain ⟨s', hstep, hcarries⟩ := carries_handleClient hp h hwithin hs
    exact .inr ⟨_, s', rfl, hstep, hcarries⟩
  | failClient c =>
    have hnone := failClient_eq_none h c
    rw [show x.failClient p c = some x' from hs] at hnone
    cases hnone
  | task c action =>
    have htask : (if action.isTask then x.act p c [] [] action else none) = some x' := hs
    split at htask
    · rename_i hkind
      obtain ⟨s', hstep, hcarries⟩ := carries_task hp h hwithin htask
      have haction : action.normalise = action := by
        cases action with
        | command => cases hkind
        | deliver | read | respond | flush | stop | disconnect => rfl
      rw [haction] at hstep
      exact .inr ⟨_, s', rfl, hstep, hcarries⟩
    · cases htask
  | actor l =>
    have hactor : (if l.isActor then
        (x.system.step capacity l).map fun s => { x with system := s } else none) = some x' := hs
    split at hactor
    · rename_i hkind
      obtain ⟨t, ht, rfl⟩ := Option.map_eq_some_iff.mp hactor
      obtain ⟨hlength, toServer, toClient, rfl, hframed⟩ := h
      refine .inr ⟨l, t.fill toServer toClient, rfl, ?_, ?_, toServer, toClient, rfl, hframed⟩
      · exact (System.step_fill hkind).trans (by rw [ht, Option.map_some])
      · rw [System.length_of_actor hkind ht]
        exact hlength
    · cases hactor

/-- At the start there are no bytes and no messages. -/
theorem carries_new : Carries p new System.new :=
  ⟨rfl, fun _ => [], fun _ => [], rfl, fun _ _ hw => by cases hw⟩

/-- A run over bytes is a run over messages. -/
theorem carries_of_run (hp : p.Standard) {ls : List StreamLabel}
    (hrun : (lts p capacity).Run ls x) :
    ∃ s, (System.lts capacity).Run (ls.filterMap StreamLabel.message) s ∧
      Carries p x s ∧ s.Within Plain := by
  refine Lts.Run.simulate (R := fun x s => Carries p x s ∧ s.Within Plain)
    ⟨carries_new, System.within_new⟩ ?_ hrun
  rintro ls x l x' s - hrun' ⟨hcarries, hwithin⟩ hs
  rcases carries_step hp hcarries hwithin hs with ⟨hnone, hsame⟩ | ⟨l', s', hl, hstep, hcarries'⟩
  · exact .inl ⟨hnone, hsame, hwithin⟩
  · exact .inr ⟨l', s', hl, hstep, hcarries',
      System.within_step (fun _ h => h) hrun' hwithin (plain_writes hl hs) hstep⟩

/-- **The cuts of TCP do not matter.** In every run over streams of bytes, however the reads cut
them, the server and its clients do what they do in a run of `System` over messages, with the
messages as they are decoded. What is in a buffer and what is still to be read are always complete
frames when they are put together. So no connection ends because its bytes are not understood. -/
theorem bytes_refine (hp : p.Standard) {ls : List StreamLabel}
    (hrun : (lts p capacity).Run ls x) :
    (∃ s, (System.lts capacity).Run (ls.filterMap StreamLabel.message) s ∧ Carries p x s) ∧
      ∀ c, .failServer c ∉ ls ∧ .failClient c ∉ ls := by
  obtain ⟨s, hrun', hcarries, -⟩ := carries_of_run hp hrun
  refine ⟨⟨s, hrun', hcarries⟩, fun c => ?_⟩
  clear hrun' hcarries s
  induction hrun with
  | nil => exact ⟨List.not_mem_nil, List.not_mem_nil⟩
  | @snoc ls x x' l hrun hs ih =>
    obtain ⟨s, -, hcarries, -⟩ := carries_of_run hp hrun
    have hserver : l ≠ .failServer c := by
      rintro rfl
      have hnone := failServer_eq_none hcarries c
      rw [show x.failServer p c = some x' from hs] at hnone
      cases hnone
    have hclient : l ≠ .failClient c := by
      rintro rfl
      have hnone := failClient_eq_none hcarries c
      rw [show x.failClient p c = some x' from hs] at hnone
      cases hnone
    simp [ih.1, ih.2, hserver.symm, hclient.symm]

/-- A client subscribes to VNI 100. The server reads the message in two pieces, the first of which
ends in the header, and the client reads nothing yet. -/
def subscribedInPieces : List StreamLabel :=
  [ .accept (.loopback 40001) [⟨100⟩] [], .actor (.recv [] []), .actor .finish,
    .readServer 0 3, .readServer 0 3, .handleServer 0, .actor (.recv [] []), .actor .finish,
    .task 0 .respond ]

/-- The refinement on a message that arrives in two reads, the header split from its payload. -/
theorem bytes_refine_subscribedInPieces :
    ∃ x s, (lts .strict maxPendingMessages).Run subscribedInPieces x ∧ Carries .strict x s := by
  have hrun : (lts .strict maxPendingMessages).Run subscribedInPieces _ :=
    Lts.Run.of_exec (by decide)
  obtain ⟨s, -, hcarries⟩ := (bytes_refine Prost.standard_strict hrun).1
  exact ⟨_, s, hrun, hcarries⟩

/-! ### Where the routes come from -/

/-- A client has written an update on a route that the server decodes as `r`. -/
def Wrote (x : Streams) (action : Action) (r : RouteKey) : Prop :=
  ∃ y ∈ x.system.sessions, ∃ r' : RouteKey,
    .update action r'.1 r'.2.1 r'.2.2 ∈ y.sent ∧ r'.normalise = r

/-- A write that the system over messages knows of is one of the system over bytes, with the route
as it is decoded. -/
theorem wrote_of_fill {toServer toClient : SessionId → List Message} {action : Action}
    {r : RouteKey} {a : Session} (ha : a ∈ (x.system.fill toServer toClient).sessions)
    (hsent : .update action r.1 r.2.1 r.2.2 ∈ a.sent) : x.Wrote action r := by
  obtain ⟨i, hi, rfl⟩ := List.mem_mapIdx.mp ha
  obtain ⟨m, hm, heq⟩ := List.mem_map.mp hsent
  refine ⟨x.system.sessions[i], List.getElem_mem hi, ?_⟩
  cases m with
  | hello | keepalive | subscribe | unsubscribe => cases heq
  | update action' vni destination nextHop =>
    obtain ⟨vni', destination', nextHop'⟩ := r
    cases heq
    exact ⟨(_, _, nextHop), hm, rfl⟩

/-- **Nothing is invented.** In every run over bytes, whatever is lost, dropped, answered late or
withdrawn for somebody who has left: a route that the server stores, and a route that a client has
received, is one that a client has announced, as the other side decodes it. An update on the way to
a client was written by a client, or it is the removal of a route that was announced. -/
theorem nothing_invented (hp : p.Standard) {ls : List StreamLabel}
    (hrun : (lts p capacity).Run ls x) :
    (∀ r : RouteKey, r ∈ x.system.actor.routes → x.Wrote .add r) ∧
    ∀ (c : SessionId) (y : Session) (w : Wire), x.system.sessions[c]? = some y →
      x.wires[c]? = some w →
      (∀ r : RouteKey, r ∈ y.client.receivedRoutes → x.Wrote .add r) ∧
      ∃ msgs, Message.Framed p (w.clientBuf ++ w.toClient) msgs ∧
        ∀ (action : Action) (r : RouteKey),
          .update action r.1 r.2.1 r.2.2 ∈ msgs ++ y.unwritten ++ y.rx →
            x.Wrote action r ∨ x.Wrote .add r := by
  obtain ⟨s, hrun', ⟨-, toServer, toClient, rfl, hframed⟩, -⟩ := carries_of_run hp hrun
  obtain ⟨hroutes, hsessions⟩ := System.provenance_of_run hrun'
  constructor
  · intro r hr
    obtain ⟨a, ha, hsent⟩ := hroutes r hr
    exact wrote_of_fill ha hsent
  · intro c y w hy hw
    have hfill : (x.system.fill toServer toClient).sessions[c]?
        = some (y.fill (toServer c) (toClient c)) := by
      rw [System.getElem?_fill, hy, Option.map_some]
    obtain ⟨hreceived, hway⟩ := hsessions c _ hfill
    refine ⟨fun r hr => ?_, toClient c, (hframed c w hw).2, fun action r hupdate => ?_⟩
    · obtain ⟨a, ha, hsent⟩ := hreceived r hr
      exact wrote_of_fill ha hsent
    · obtain ⟨a, ha, hsent⟩ := hway action r hupdate
      exact hsent.imp (wrote_of_fill ha) (wrote_of_fill ha)

/-- The client of `subscribedInPieces` is there when another one announces a route whose target VNI
is 0. The server reads the update in two pieces and passes it on. -/
def announcedZero : List StreamLabel :=
  subscribedInPieces ++
  [ .accept (.loopback 40002) [] [(⟨100⟩, makeDest 1, { makeHop 1 with targetVni := some 0 })],
    .actor (.recv [] []), .actor .finish, .readServer 1 20, .readServer 1 16, .handleServer 1,
    .actor (.recv [] []), .actor (.trySend (.loopback 40001)), .actor .finish, .task 0 (.flush 1),
    .readClient 0 36, .handleClient 0 ]

/-- The first client receives the route without a target VNI, and it is the one that the second
client has announced. -/
theorem nothing_invented_announcedZero :
    ∃ x, (lts .strict maxPendingMessages).Run announcedZero x ∧
      (⟨100⟩, makeDest 1, makeHop 1) ∈ x.system.actor.routes ∧
      x.Wrote .add (⟨100⟩, makeDest 1, makeHop 1) := by
  have hrun : (lts .strict maxPendingMessages).Run announcedZero _ := Lts.Run.of_exec (by decide)
  have hreceived := ((nothing_invented Prost.standard_strict hrun).2 0 _ _ rfl rfl).1
  exact ⟨_, hrun, by decide, hreceived _ (by decide)⟩

end Streams

end RustBond
