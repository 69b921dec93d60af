import RustBond.Link
import RustBond.Wire.Format

/-!
# `RustBond.Server.Streams`: the server with streams of bytes

The system of `Server/System.lean`, with what is really between a server and its clients: two
streams of bytes for each connection, and at the end of each of them a buffer (`msg_buf`). Nothing
but bytes is on its way here. The streams of the sessions in `system` are empty between two steps.

* A write encodes its messages and appends the bytes to the stream (`act`). A batch is one write.
* A read returns some of the bytes, at least one and at most as many as its buffer holds. How many
  they are is up to TCP, so the label says it.
* A round of the loop over `msg_buf` decodes the first message and handles it (`handleServer`,
  `handleClient`). Where there is no complete message, the loop waits for the next read.
* Any other error ends the connection (`failServer`, `failClient`).

As in `System`, a connection starts when its handshake is complete. Both buffers are empty then, and
nothing that follows the handshake has been read with it. In the source the loop over `msg_buf` goes
on as long as it can before the main loop looks at anything else. Here other actions may come
between two of its rounds. The streams have room for everything. `Link` is about a connection whose
buffers have not.
-/

set_option autoImplicit false

namespace RustBond

/-- The two streams of a connection, and the buffers at their ends. -/
structure Wire where
  toServer : List UInt8
  serverBuf : List UInt8
  toClient : List UInt8
  clientBuf : List UInt8

structure Streams where
  system : System
  /-- The streams of the connections. The position is the `SessionId`. -/
  wires : List Wire

inductive StreamLabel where
  | accept (addr : SocketAddr) (subscriptions : List Vni) (announced : List RouteKey)
  | command (c : SessionId) (cmd : PeerCommand)
  /-- A read of the server returns `n` bytes. -/
  | readServer (c : SessionId) (n : Nat)
  | handleServer (c : SessionId)
  | failServer (c : SessionId)
  | readClient (c : SessionId) (n : Nat)
  | handleClient (c : SessionId)
  | failClient (c : SessionId)
  /-- Another action of the `handle_peer` task. -/
  | task (c : SessionId) (action : SessionAction)
  | actor (l : Label)

/-- The actions of the `handle_peer` task apart from reading. -/
def SessionAction.isTask (action : SessionAction) : Bool :=
  match action with
  | .respond | .flush _ | .stop | .disconnect => true
  | .command _ | .deliver | .read => false

/-- The bytes of a batch. -/
def encodeAll (p : Prost) (msgs : List Message) : List UInt8 := msgs.flatMap (Message.frame p)

/-- The system with these messages on the streams of a session. -/
def System.load (s : System) (c : SessionId) (toServer toClient : List Message) : System :=
  { s with
    sessions := s.sessions.modify c fun y => { y with toServer := toServer, toClient := toClient } }

namespace Streams

def new : Streams := ⟨System.new, []⟩

variable (p : Prost)

/-- An action of a session that has decoded the messages `toServer` and `toClient`. What it writes
goes to the streams. -/
def act (x : Streams) (c : SessionId) (toServer toClient : List Message)
    (action : SessionAction) : Option Streams :=
  ((x.system.load c toServer toClient).sessionStep c action).bind fun s =>
    s.sessions[c]?.map fun y =>
      { system := s.load c [] []
        wires := x.wires.modify c fun w =>
          { w with
            toServer := w.toServer ++ encodeAll p y.toServer
            toClient := w.toClient ++ encodeAll p y.toClient } }

def accept (x : Streams) (addr : SocketAddr) (subscriptions : List Vni)
    (announced : List RouteKey) : Option Streams :=
  (x.system.accept addr subscriptions announced).map fun s =>
    { system := s.load x.system.sessions.length [] []
      wires := x.wires ++
        [⟨encodeAll p (System.greeting subscriptions announced), [], [], []⟩] }

/-- The main loop of the session waits for something to happen. -/
def Running (x : Streams) (c : SessionId) : Prop :=
  (x.system.sessions[c]?.map fun y => y.phase) = some .running

instance (x : Streams) (c : SessionId) : Decidable (x.Running c) :=
  inferInstanceAs (Decidable (_ = _))

def readServer (x : Streams) (c : SessionId) (n : Nat) : Option Streams :=
  x.wires[c]?.bind fun w =>
    if x.Running c ∧ 0 < n ∧ n ≤ readBufSize ∧ n ≤ w.toServer.length then
      some { x with
        wires := x.wires.set c { w with
          toServer := w.toServer.drop n
          serverBuf := w.serverBuf ++ w.toServer.take n } }
    else none

def handleServer (x : Streams) (c : SessionId) : Option Streams :=
  x.wires[c]?.bind fun w =>
    match Message.decode p w.serverBuf with
    | .ok (msg, consumed) =>
      act p { x with wires := x.wires.set c { w with serverBuf := w.serverBuf.drop consumed } }
        c [msg] [] .read
    | .error _ => none

def failServer (x : Streams) (c : SessionId) : Option Streams :=
  x.wires[c]?.bind fun w =>
    match Message.decode p w.serverBuf with
    | .ok _ => none
    | .error e => if w.serverBuf = [] ∨ e.needsMore then none else act p x c [] [] .stop

def readClient (x : Streams) (c : SessionId) (n : Nat) : Option Streams :=
  x.wires[c]?.bind fun w =>
    if 0 < n ∧ n ≤ readBufSize ∧ n ≤ w.toClient.length then
      some { x with
        wires := x.wires.set c { w with
          toClient := w.toClient.drop n
          clientBuf := w.clientBuf ++ w.toClient.take n } }
    else none

def handleClient (x : Streams) (c : SessionId) : Option Streams :=
  x.wires[c]?.bind fun w =>
    match Message.decode p w.clientBuf with
    | .ok (msg, consumed) =>
      act p { x with wires := x.wires.set c { w with clientBuf := w.clientBuf.drop consumed } }
        c [] [msg] .deliver
    | .error _ => none

/-- The client leaves its main loop, and what is on the way to it is lost. -/
def failClient (x : Streams) (c : SessionId) : Option Streams :=
  x.wires[c]?.bind fun w =>
    match Message.decode p w.clientBuf with
    | .ok _ => none
    | .error e =>
      if w.clientBuf = [] ∨ e.needsMore then none
      else some { x with wires := x.wires.set c { w with toClient := [], clientBuf := [] } }

def step (capacity : Nat) (x : Streams) (l : StreamLabel) : Option Streams :=
  match l with
  | .accept addr subscriptions announced => x.accept p addr subscriptions announced
  | .command c cmd => x.act p c [] [] (.command cmd)
  | .readServer c n => x.readServer c n
  | .handleServer c => x.handleServer p c
  | .failServer c => x.failServer p c
  | .readClient c n => x.readClient c n
  | .handleClient c => x.handleClient p c
  | .failClient c => x.failClient p c
  | .task c action => if action.isTask then x.act p c [] [] action else none
  | .actor l =>
    if l.isActor then (x.system.step capacity l).map fun s => { x with system := s } else none

/-- The server and its clients over streams of bytes. -/
def lts (capacity : Nat) : Lts Streams StreamLabel := ⟨new, step p capacity⟩

end Streams

/-! ### What the bytes stand for -/

/-- The bytes are one frame after another, of these messages. -/
def Message.Framed (p : Prost) (b : List UInt8) (msgs : List Message) : Prop :=
  ∃ frames, List.Forall₂ (Message.IsFrame p) frames msgs ∧ frames.flatten = b

/-- The command with the message that the other side decodes. -/
def PeerCommand.normalise (cmd : PeerCommand) : PeerCommand :=
  match cmd with
  | .sendUpdate msg => .sendUpdate msg.normalise
  | .subscribe vni => .subscribe vni
  | .unsubscribe vni => .unsubscribe vni
  | .shutdown => .shutdown

def SessionAction.normalise (action : SessionAction) : SessionAction :=
  match action with
  | .command cmd => .command cmd.normalise
  | .deliver => .deliver
  | .read => .read
  | .respond => .respond
  | .flush batch => .flush batch
  | .stop => .stop
  | .disconnect => .disconnect

/-- What a step is in `System`. Bytes that are read are nothing there. -/
def StreamLabel.message (l : StreamLabel) : Option Label :=
  match l with
  | .accept addr subscriptions announced =>
    some (.accept addr subscriptions (announced.map RouteKey.normalise))
  | .command c cmd => some (.session c (.command cmd.normalise))
  | .handleServer c => some (.session c .read)
  | .handleClient c => some (.session c .deliver)
  | .task c action => some (.session c action)
  | .actor l => some l
  | .readServer _ _ | .readClient _ _ | .failServer _ | .failClient _ => none

/-- The session with messages on its streams. What its client has written is what the server
decodes of it. -/
def Session.fill (x : Session) (toServer toClient : List Message) : Session :=
  { x with toServer := toServer, toClient := toClient, sent := x.sent.map Message.normalise }

def System.fill (s : System) (toServer toClient : SessionId → List Message) : System :=
  { s with sessions := s.sessions.mapIdx fun c x => x.fill (toServer c) (toClient c) }

/-- `s` is the state with the messages in place of their bytes. For every connection the bytes in
the buffer and those on the stream, taken together, are complete frames. -/
def Streams.Carries (p : Prost) (x : Streams) (s : System) : Prop :=
  x.wires.length = x.system.sessions.length ∧
    ∃ toServer toClient, s = x.system.fill toServer toClient ∧
      ∀ c w, x.wires[c]? = some w →
        Message.Framed p (w.serverBuf ++ w.toServer) (toServer c) ∧
          Message.Framed p (w.clientBuf ++ w.toClient) (toClient c)

end RustBond
