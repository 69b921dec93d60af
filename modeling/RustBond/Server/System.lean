import RustBond.Peer
import RustBond.Server.History

/-!
# `RustBond.Server.System`: the server with its sessions and their clients

The routing actor of `Server/Routing.lean` together with everything that takes part in a
distribution: the actor's command channel, the `handle_peer` task of each connection, the
bounded channel on which the actor sends to this task, the two directions of the TCP stream,
and the main loop of the client at the other end.

A step is one action of one task, so a run is any interleaving of the tasks:

* the `handle_peer` task of a session reads one message (`read`), writes the routes that
  `handle_subscribe` was waiting for (`respond`), writes a batch from its channel (`flush`),
  leaves its main loop (`stop`, for every reason there is) and at last sends
  `PeerDisconnected` (`disconnect`);
* the client takes one command (`command`) or handles one message (`deliver`);
* the actor takes a command and edits its tables (`recv`), makes one `try_send` after another
  (`trySend`) and drops the slow consumers (`finish`).

A connection enters the system when its handshake is complete (`accept`). Its client has
then repeated its subscriptions and announcements, and starts with no received routes, as
`peer_task` clears them between two connections. A write to a broken connection is a `stop`.
The actor's command channel has no bound here. A sender that waits for room in the source is
a sender that has not made its step. `GetStats` changes nothing and does not occur.

The streams carry messages, as the other side decodes them. A client that announces a target VNI
of 0 is one that announces none here. `Server/Streams.lean` has the bytes, and shows that the two
agree. The streams have room for everything, so a write does not wait for the peer to read; `Link`
is about a connection whose buffers are full. An address is taken again only when the `handle_peer`
task that served it has ended.

Two components record what has happened and influence nothing: `processed` lists the
commands that the actor has taken, and `sent` the messages that a client has written.
-/

set_option autoImplicit false

namespace RustBond

/-- Maximum pending messages per peer. -/
def maxPendingMessages : Nat := 50000

/-- The batch limit of the outgoing branch of `handle_peer`. -/
def batchLimit : Nat := 1000

/-- Where the `handle_peer` task of a session is. -/
inductive Phase where
  /-- In its main loop. -/
  | running
  /-- In `handle_subscribe`, waiting for the actor or with the actor's response. -/
  | subscribing (vni : Vni) (response : Option (List (Destination × NextHop)))
  /-- Past its main loop, before it sends `PeerDisconnected`. -/
  | stopped
  /-- At its end. Its channel is closed. -/
  | closed
deriving DecidableEq

/-- A connection, from the completed handshake on. -/
structure Session where
  addr : SocketAddr
  phase : Phase
  /-- The bounded channel from the actor. -/
  rx : List Message
  /-- What the client has written and the server has not read. -/
  toServer : List Message
  /-- What the server has written and the client has not read. -/
  toClient : List Message
  client : Connection
  /-- Everything the client has written. -/
  sent : List Message

/-- An action of the `handle_peer` task of a session or of its client. -/
inductive SessionAction where
  | command (cmd : PeerCommand)
  | deliver
  | read
  | respond
  | flush (batch : Nat)
  | stop
  | disconnect
deriving DecidableEq

/-- The routes of a VNI as the update messages that announce them. -/
def snapshotMessages (vni : Vni) (routes : List (Destination × NextHop)) : List Message :=
  routes.map fun route => .update .add vni route.1 route.2

namespace Session

/-- `handle_message` of the server: what it writes, where it continues, and the command that
it sends to the actor. -/
def handleMessage (x : Session) (c : SessionId) (msg : Message) : Session × List RoutingCommand :=
  match msg with
  | .hello _ _ => (x, [])
  | .keepalive => ({ x with toClient := x.toClient ++ [.keepalive] }, [])
  | .subscribe vni =>
    ({ x with phase := .subscribing vni none }, [.subscribe x.addr vni c])
  | .unsubscribe vni => (x, [.unsubscribe x.addr vni])
  | .update action vni destination nextHop =>
    (x, [.update x.addr action vni destination nextHop])

/-- One action of the session `c`, with the commands that it sends to the actor. -/
def act (x : Session) (c : SessionId) (action : SessionAction) :
    Option (Session × List RoutingCommand) :=
  match action with
  | .command cmd =>
    (Connection.commandMessage cmd).map fun msg =>
      ({ x with
          toServer := x.toServer ++ [msg]
          client := (x.client.handleCommand cmd).1
          sent := x.sent ++ [msg] }, [])
  | .deliver =>
    match x.toClient with
    | [] => none
    | msg :: rest =>
      some ({ x with toClient := rest, client := (x.client.handleMessage msg).1 }, [])
  | .read =>
    match x.phase, x.toServer with
    | .running, msg :: rest => some ({ x with toServer := rest }.handleMessage c msg)
    | _, _ => none
  | .respond =>
    match x.phase with
    | .subscribing vni (some routes) =>
      some ({ x with
        phase := .running
        toClient := x.toClient ++ snapshotMessages vni routes }, [])
    | _ => none
  | .flush batch =>
    if x.phase = .running ∧ 0 < batch ∧ batch ≤ batchLimit ∧ batch ≤ x.rx.length then
      some ({ x with
        rx := x.rx.drop batch
        toClient := x.toClient ++ x.rx.take batch }, [])
    else none
  | .stop => if x.phase = .running then some ({ x with phase := .stopped }, []) else none
  | .disconnect =>
    if x.phase = .stopped then
      some ({ x with phase := .closed, rx := [] }, [.peerDisconnected x.addr])
    else none

/-- The response of the actor arrives on the oneshot channel of `handle_subscribe`. -/
def receive (x : Session) (routes : List (Destination × NextHop)) : Session :=
  match x.phase with
  | .subscribing vni none => { x with phase := .subscribing vni (some routes) }
  | _ => x

end Session

/-- What is left of the distribution loop of a handler: the deliveries still to make, each
with the targets still to come, and the slow consumers found so far. -/
structure Distribution where
  deliveries : List Delivery
  slowConsumers : HashSet SocketAddr

/-- The deliveries that are left when the first one has only `targets` to come. -/
def Distribution.consume (msg : Message) (targets : HashSet SocketAddr)
    (rest : List Delivery) : List Delivery :=
  if targets = ∅ then rest else ⟨msg, targets⟩ :: rest

structure System where
  actor : RoutingActor
  /-- The distribution that the actor is in the middle of. -/
  distribution : Option Distribution
  /-- The actor's command channel. -/
  commands : List Event
  /-- The commands that the actor has taken. -/
  processed : List Event
  /-- The accepted connections. The position is the `SessionId`. -/
  sessions : List Session

/-- The label of a step: which task acts, and what its environment decides. -/
inductive Label where
  | accept (addr : SocketAddr) (subscriptions : List Vni) (announced : List RouteKey)
  | session (c : SessionId) (action : SessionAction)
  | recv (owned : List RouteKey) (routes : List (Destination × NextHop))
  | trySend (addr : SocketAddr)
  | finish

/-- The actor takes a command. -/
def Label.isRecv (l : Label) : Bool :=
  match l with
  | .recv _ _ => true
  | _ => false

/-- The routing actor makes the step. -/
def Label.isActor (l : Label) : Bool :=
  match l with
  | .recv _ _ | .trySend _ | .finish => true
  | .accept _ _ _ | .session _ _ => false

namespace System

def new : System := ⟨RoutingActor.new, none, [], [], []⟩

/-- The messages by which a client repeats its subscriptions and announcements. -/
def greeting (subscriptions : List Vni) (announced : List RouteKey) : List Message :=
  (subscriptions.map fun vni => .subscribe vni)
    ++ announced.map fun r => .update .add r.1 r.2.1 r.2.2

/-- A connection from an address that no other open connection has. -/
def accept (s : System) (addr : SocketAddr) (subscriptions : List Vni)
    (announced : List RouteKey) : Option System :=
  if ∀ x ∈ s.sessions, x.phase = .closed ∨ x.addr ≠ addr then
    some { s with
      commands := s.commands ++ [(s.sessions.length, .peerConnected addr s.sessions.length)]
      sessions := s.sessions ++
        [{ addr := addr
           phase := .running
           rx := []
           toServer := greeting subscriptions announced
           toClient := []
           client := ⟨subscriptions.toFinset, RouteTable.new⟩
           sent := greeting subscriptions announced }] }
  else none

/-- An action of one session. Its commands go to the end of the actor's channel. -/
def sessionStep (s : System) (c : SessionId) (action : SessionAction) : Option System :=
  match s.sessions[c]? with
  | none => none
  | some x =>
    (x.act c action).map fun (x', cmds) =>
      { s with
        commands := s.commands ++ cmds.map fun cmd => (c, cmd)
        sessions := s.sessions.set c x' }

/-- The sessions after the actor's reply. `routes` is the reply in the order in which the
actor collected it. -/
def answer (sessions : List Session) (reply : Reply) (routes : List (Destination × NextHop)) :
    Option (List Session) :=
  match reply with
  | .routes responseTx collected =>
    if (routes : Multiset (Destination × NextHop)) = collected then
      some (sessions.modify responseTx fun x => x.receive routes)
    else none
  | _ => some sessions

/-- The actor takes the next command, edits its tables and replies. -/
def recv (s : System) (owned : List RouteKey) (routes : List (Destination × NextHop)) :
    Option System :=
  match s.distribution, s.commands with
  | none, (c, cmd) :: commands =>
    let out := s.actor.handle cmd owned
    if (owned : Multiset RouteKey) = s.actor.collectedRoutes cmd then
      (answer s.sessions out.reply routes).map fun sessions =>
        { actor := out.actor
          distribution := some ⟨out.deliveries.filter fun d => d.targets ≠ ∅, ∅⟩
          commands := commands
          processed := s.processed ++ [(c, cmd)]
          sessions := sessions }
    else none
  | _, _ => none

/-- The session at the other end of the channel that the actor has for `addr`. -/
def channel (s : System) (addr : SocketAddr) : Option (SessionId × Session) :=
  (s.actor.peers.lookup addr).bind fun tx => s.sessions[tx]?.map fun x => (tx, x)

/-- A `try_send` to `addr` returns `Full`. -/
def Full (capacity : Nat) (s : System) (addr : SocketAddr) : Prop :=
  ∃ tx x, s.channel addr = some (tx, x) ∧ x.phase ≠ .closed ∧ capacity ≤ x.rx.length

/-- The actor offers the message at hand to `addr`. A peer without a channel and a closed
channel are passed over. -/
def trySend (capacity : Nat) (s : System) (addr : SocketAddr) : Option System :=
  match s.distribution with
  | some ⟨⟨msg, targets⟩ :: rest, slow⟩ =>
    if addr ∈ targets then
      let deliveries := Distribution.consume msg (targets.erase addr) rest
      match s.channel addr with
      | none => some { s with distribution := some ⟨deliveries, slow⟩ }
      | some (tx, x) =>
        if x.phase = .closed then some { s with distribution := some ⟨deliveries, slow⟩ }
        else if x.rx.length < capacity then
          some { s with
            distribution := some ⟨deliveries, slow⟩
            sessions := s.sessions.set tx { x with rx := x.rx ++ [msg] } }
        else some { s with distribution := some ⟨deliveries, insert addr slow⟩ }
    else none
  | _ => none

/-- The actor drops the slow consumers and is ready for the next command. -/
def finish (s : System) : Option System :=
  match s.distribution with
  | some ⟨[], slow⟩ =>
    some { s with actor := s.actor.removeSlowConsumers slow, distribution := none }
  | _ => none

def step (capacity : Nat) (s : System) (l : Label) : Option System :=
  match l with
  | .accept addr subscriptions announced => s.accept addr subscriptions announced
  | .session c action => s.sessionStep c action
  | .recv owned routes => s.recv owned routes
  | .trySend addr => s.trySend capacity addr
  | .finish => s.finish

/-- The server and its clients, for channels of the given capacity. -/
def lts (capacity : Nat) : Lts System Label := ⟨new, step capacity⟩

end System

end RustBond
