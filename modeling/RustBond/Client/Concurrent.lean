import RustBond.Client.Client

/-!
# `RustBond.Client.Concurrent`: calls of `announce` and `withdraw` that overlap

`MetalBondClient` is shared between tasks, and each of them may call `announce` or `withdraw`.
The write lock on the announced routes makes the check and the update of the table one step.
It is released before the call goes on to its peers, and each of these sends is a step of its
own. So the commands of two calls can be in a channel in the other order.

The sessions are established in this system, and stay so. A call then finds every peer
established and its task alive. Calls that are rejected return at once.
-/

set_option autoImplicit false

namespace RustBond

/-- A call of `announce` or `withdraw` that has updated the table. -/
structure RouteCall where
  call : ClientCall
  /-- The peers that it has still to send to. -/
  rest : List ServerId
deriving DecidableEq

structure ConcurrentClient where
  client : Client
  /-- The calls that have not returned, in the order in which they took the lock. -/
  calls : List RouteCall

inductive ConcurrentLabel where
  | call (call : ClientCall) (order : List ServerId)
  | enqueue (i : Nat)
  | finish (i : Nat)
  | task (server : ServerId) (action : TaskAction)
deriving DecidableEq

/-- A peer task that has just entered its main loop, with nothing to repeat. -/
def PeerTask.established : PeerTask :=
  { PeerTask.new with
    state := .established
    phase := .running }

/-- The actions of a task in its main loop that keep the session. -/
def TaskAction.keepsSession (action : TaskAction) : Bool :=
  match action with
  | .keepalive => true
  | .receive _ => true
  | .command => true
  | _ => false

namespace ConcurrentClient

def new : ConcurrentClient :=
  { client := { Client.new with peers := fun _ => PeerTask.established }
    calls := [] }

/-- A call takes the lock, checks the table and updates it. -/
def begin (servers : Nat) (x : ConcurrentClient) (call : ClientCall) (order : List ServerId) :
    Option ConcurrentClient :=
  if call.locksRoutes ∧ (order : Multiset ServerId) = (Multiset.range servers).map ServerId.mk then
    match x.client.enter call with
    | .error _ => some x
    | .ok client => some { client := client, calls := x.calls ++ [⟨call, order⟩] }
  else none

/-- The `i`-th call sends its command to its next peer. It waits if the channel is full. -/
def enqueue (x : ConcurrentClient) (i : Nat) : Option ConcurrentClient :=
  match x.calls[i]? with
  | some ⟨call, s :: rest⟩ =>
    if (x.client.peers s).commands.length < commandCapacity then
      some {
        client := { x.client with
          peers := Function.update x.client.peers s
            { x.client.peers s with
              commands := (x.client.peers s).commands ++ [call.command] } }
        calls := x.calls.set i ⟨call, rest⟩ }
    else none
  | _ => none

/-- The `i`-th call returns. -/
def finish (x : ConcurrentClient) (i : Nat) : Option ConcurrentClient :=
  match x.calls[i]? with
  | some ⟨_, []⟩ => some { x with calls := x.calls.eraseIdx i }
  | _ => none

/-- An action of the peer task for `server` in its main loop. -/
def task (servers : Nat) (x : ConcurrentClient) (server : ServerId) (action : TaskAction) :
    Option ConcurrentClient :=
  if action.keepsSession then
    (x.client.task servers server action).map fun client => { x with client := client }
  else none

def step (servers : Nat) (x : ConcurrentClient) (l : ConcurrentLabel) : Option ConcurrentClient :=
  match l with
  | .call call order => x.begin servers call order
  | .enqueue i => x.enqueue i
  | .finish i => x.finish i
  | .task server action => x.task servers server action

/-- A client with the given number of servers, to all of which it is connected. -/
def lts (servers : Nat) : Lts ConcurrentClient ConcurrentLabel := ⟨new, step servers⟩

end ConcurrentClient

end RustBond
