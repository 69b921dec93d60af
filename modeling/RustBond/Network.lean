import RustBond.Client.Inbound
import RustBond.Server.System

/-!
# `RustBond.Network`: a client and all of its servers

A client with several servers, from the servers' actors to the calls of the user's handler. Each
server is a `System`, with sessions of any number of clients. One of its sessions may be the one
of the client at hand, whose receiving side is an `Inbound`: the received routes of the peer task
of each server, and the tracker that the tasks share.

`System` carries the state of the client at the other end of each session. For the session of the
client at hand, this is the state of its peer task, so the two move together: when the peer task
handles a message (`deliver`) or a command (`command`), it also makes its calls on its handler.

A peer task makes its calls in the step in which it handles the message, so no other task of the
client is in the handler meanwhile. `Interleaved` is about what happens otherwise.

A peer task that has lost its connection clears its received routes (`disconnect`), and may
connect again (`connect`), with the subscriptions that it has kept. The server learns of the loss
in its own time. Until then, the old session is one more session of the server.
-/

set_option autoImplicit false

namespace RustBond

structure Network where
  servers : ServerId → System
  /-- The session of the client's peer task, while it is connected. -/
  session : ServerId → Option SessionId
  inbound : Inbound

namespace Network

inductive Label where
  /-- Everything at a server that does not involve the client. -/
  | server (server : ServerId) (l : RustBond.Label)
  | connect (server : ServerId) (addr : SocketAddr) (subscriptions : List Vni)
      (announced : List RouteKey)
  | deliver (server : ServerId) (c : SessionId) (msg : Message) (calls : List HandlerCall)
  | command (server : ServerId) (c : SessionId) (cmd : PeerCommand) (calls : List HandlerCall)
  | disconnect (server : ServerId) (calls : List HandlerCall)

def new : Network := ⟨fun _ => System.new, fun _ => none, Inbound.new⟩

/-- The step is one of the client of this session. -/
def isClientStep (c : SessionId) (l : RustBond.Label) : Bool :=
  match l with
  | .session c' (.command _) => c' = c
  | .session c' .deliver => c' = c
  | _ => false

/-- A step of the client's session at a server, together with the event at its peer task. -/
def clientStep (capacity : Nat) (n : Network) (server : ServerId) (c : SessionId)
    (action : SessionAction) (event : PeerEvent) (calls : List HandlerCall) : Option Network := do
  let s ← System.step capacity (n.servers server) (.session c action)
  let inbound ← n.inbound.handleEvent server event calls
  return { n with servers := Function.update n.servers server s, inbound := inbound }

/-- The first message on the stream to the client of a session. -/
def next (s : System) (c : SessionId) : Option Message :=
  s.sessions[c]?.bind fun x => x.toClient.head?

def step (capacity count : Nat) (n : Network) (l : Label) : Option Network :=
  match l with
  | .server server l =>
    if server.id < count ∧ ∀ c ∈ n.session server, isClientStep c l = false then
      (System.step capacity (n.servers server) l).map fun s =>
        { n with servers := Function.update n.servers server s }
    else none
  | .connect server addr subscriptions announced =>
    if server.id < count ∧ n.session server = none ∧
        (subscriptions : Multiset Vni) = (n.inbound.connections server).subscriptions.val then
      (System.step capacity (n.servers server) (.accept addr subscriptions announced)).map fun s =>
        { n with
          servers := Function.update n.servers server s
          session := Function.update n.session server
            (some (n.servers server).sessions.length) }
    else none
  | .deliver server c msg calls =>
    if n.session server = some c ∧ next (n.servers server) c = some msg then
      n.clientStep capacity server c .deliver (.message msg) calls
    else none
  | .command server c cmd calls =>
    if n.session server = some c then
      n.clientStep capacity server c (.command cmd) (.command cmd) calls
    else none
  | .disconnect server calls =>
    if (n.session server).isSome then
      (n.inbound.handleEvent server .disconnect calls).map fun inbound =>
        { n with session := Function.update n.session server none, inbound := inbound }
    else none

/-- A client of the given number of servers, whose channels have the given capacity. -/
def lts (capacity count : Nat) : Lts Network Label := ⟨new, step capacity count⟩

end Network

end RustBond
