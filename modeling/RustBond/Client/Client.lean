import RustBond.Client.Origins
import RustBond.Client.PeerTask
import RustBond.Error
import RustBond.Lib.Lts

/-!
# `RustBond.Client.Client`: the client's calls and its peer tasks

The translation of the calls of `MetalBondClient` in `src/client.rs` that go out to the
servers, together with the peer tasks that take their commands.

A call has three parts. It updates the client's shared state under a lock, and may return an
error at this point (`enter`). Then it visits one peer after another, in the order of the
iteration over `peers`: `subscribe` and `announce` look at the state of the peer first
(`check`), and every call that goes on sends the peer a command (`enqueue`), for which it
waits until there is room in the channel. At last it returns (`finish`). In between, any of
the peer tasks may act, so a peer can lose its connection between `check` and `enqueue`.

Calls do not overlap in this system. `announce` and `withdraw` wait for the write lock on the
announced routes, which no peer task holds for reading then. After `shutdown`, which consumes
the client, there is no other call.

`log` records the calls and what they returned. It influences nothing.
-/

set_option autoImplicit false

namespace RustBond

/-- The capacity of the command channel of a peer. -/
def commandCapacity : Nat := 256

inductive ClientCall where
  | subscribe (vni : Vni)
  | unsubscribe (vni : Vni)
  | announce (vni : Vni) (destination : Destination) (nextHop : NextHop)
  | withdraw (vni : Vni) (destination : Destination) (nextHop : NextHop)
  | shutdown
deriving DecidableEq

namespace ClientCall

/-- The command for each peer. -/
def command (call : ClientCall) : PeerCommand :=
  match call with
  | .subscribe vni => .subscribe vni
  | .unsubscribe vni => .unsubscribe vni
  | .announce vni destination nextHop => .sendUpdate (.update .add vni destination nextHop)
  | .withdraw vni destination nextHop => .sendUpdate (.update .remove vni destination nextHop)
  | .shutdown => .shutdown

/-- Whether the call passes over peers that are not established, and is an error if it has
reached none. -/
def needsEstablished (call : ClientCall) : Bool :=
  match call with
  | .subscribe _ => true
  | .announce _ _ _ => true
  | _ => false

/-- Whether the call takes the write lock on the announced routes. -/
def locksRoutes (call : ClientCall) : Bool :=
  match call with
  | .announce _ _ _ => true
  | .withdraw _ _ _ => true
  | _ => false

end ClientCall

/-- A call that visits the peers. -/
structure ActiveCall where
  call : ClientCall
  /-- The peers that are still to be visited. -/
  rest : List ServerId
  /-- The first of them has been found established. -/
  checked : Bool
  sentAny : Bool
deriving DecidableEq

inductive CallEvent where
  | called (call : ClientCall)
  /-- `none` stands for `Ok(())`. -/
  | returned (call : ClientCall) (error : Option Error)
deriving DecidableEq

structure Client where
  /-- `ClientSharedState::subscriptions` -/
  subscriptions : HashSet Vni
  announcedRoutes : RouteTable
  peers : ServerId → PeerTask
  active : Option ActiveCall
  log : List CallEvent

inductive ClientLabel where
  | call (call : ClientCall) (order : List ServerId)
  | check
  | enqueue
  | finish
  | task (server : ServerId) (action : TaskAction)
deriving DecidableEq

namespace Client

def new : Client :=
  { subscriptions := ∅
    announcedRoutes := RouteTable.new
    peers := fun _ => PeerTask.new
    active := none
    log := [] }

/-- What a call does under the lock of the shared state. -/
def enter (x : Client) (call : ClientCall) : Except Error Client :=
  match call with
  | .subscribe vni => .ok { x with subscriptions := insert vni x.subscriptions }
  | .unsubscribe vni => .ok { x with subscriptions := x.subscriptions.erase vni }
  | .announce vni destination nextHop =>
    if x.announcedRoutes.nextHopExists vni destination nextHop then .error .routeAlreadyAnnounced
    else .ok { x with
      announcedRoutes := (x.announcedRoutes.addNextHop vni destination nextHop).1 }
  | .withdraw vni destination nextHop =>
    if x.announcedRoutes.nextHopExists vni destination nextHop then
      .ok { x with announcedRoutes := (x.announcedRoutes.removeNextHop vni destination nextHop).1 }
    else .error .routeNotFound
  | .shutdown => .ok x

/-- A call begins. `order` is the order of the iteration over the `servers` peers. -/
def begin (servers : Nat) (x : Client) (call : ClientCall) (order : List ServerId) :
    Option Client :=
  if x.active = none ∧ .called .shutdown ∉ x.log ∧
      (order : Multiset ServerId) = (Multiset.range servers).map ServerId.mk ∧
      (call.locksRoutes = true → ∀ s ∈ order, (x.peers s).phase.holdsRoutes = false) then
    match x.enter call with
    | .error e => some { x with log := x.log ++ [.called call, .returned call (some e)] }
    | .ok x' =>
      some { x' with
        active := some ⟨call, order, false, false⟩
        log := x.log ++ [.called call] }
  else none

/-- The active call looks at the state of the next peer. -/
def check (x : Client) : Option Client :=
  match x.active with
  | some ⟨call, s :: rest, false, sentAny⟩ =>
    if call.needsEstablished then
      if (x.peers s).state = .established then
        some { x with active := some ⟨call, s :: rest, true, sentAny⟩ }
      else some { x with active := some ⟨call, rest, false, sentAny⟩ }
    else none
  | _ => none

/-- The active call sends its command to the next peer. This fails if the task of the peer has
returned, and waits if the channel is full. -/
def enqueue (x : Client) : Option Client :=
  match x.active with
  | some ⟨call, s :: rest, checked, sentAny⟩ =>
    if call.needsEstablished = checked then
      if (x.peers s).phase = .closed then
        some { x with active := some ⟨call, rest, false, sentAny⟩ }
      else if (x.peers s).commands.length < commandCapacity then
        some { x with
          peers := Function.update x.peers s
            { x.peers s with commands := (x.peers s).commands ++ [call.command] }
          active := some ⟨call, rest, false, true⟩ }
      else none
    else none
  | _ => none

/-- The active call returns. -/
def finish (x : Client) : Option Client :=
  match x.active with
  | some ⟨call, [], _, sentAny⟩ =>
    let error : Option Error :=
      if call.needsEstablished && !sentAny then some .notEstablished else none
    some { x with active := none, log := x.log ++ [.returned call error] }
  | _ => none

/-- An action of the peer task for `server`. -/
def task (servers : Nat) (x : Client) (server : ServerId) (action : TaskAction) :
    Option Client :=
  if server.id < servers then
    ((x.peers server).act x.announcedRoutes action).map fun t =>
      { x with peers := Function.update x.peers server t }
  else none

def step (servers : Nat) (x : Client) (l : ClientLabel) : Option Client :=
  match l with
  | .call call order => x.begin servers call order
  | .check => x.check
  | .enqueue => x.enqueue
  | .finish => x.finish
  | .task server action => x.task servers server action

/-- A client with the given number of servers. -/
def lts (servers : Nat) : Lts Client ClientLabel := ⟨new, step servers⟩

end Client

end RustBond
