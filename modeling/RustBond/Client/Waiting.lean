import RustBond.Client.Client
import RustBond.Lib.Watch

/-!
# `RustBond.Client.Waiting`: the state of a client and the wait for it

`state`, `is_established` and `connected_count` of `MetalBondClient` in `src/client.rs`, and
`wait_any_established` and `wait_all_established`. Every peer publishes its state on a watch
channel. The queries read all channels once. The waits read them in a loop, and sleep in a
`select_all` on their changes between two rounds.

A wait has receivers of its own, which know of no send yet. So its first sleep ends at once if a
state has ever been sent. It borrows the client, whose peers own the senders. So no sender is
dropped, `changed` does not fail, and what the loops do in that case is left out.
-/

set_option autoImplicit false

namespace RustBond

inductive ClientState where
  | disconnected
  | partiallyConnected (connected total : Nat)
  | fullyConnected
  | closed
deriving DecidableEq

namespace Client

/-- The servers of a client, in some order. -/
def serverIds (servers : Nat) : List ServerId := (List.range servers).map ServerId.mk

/-- The state that a peer has published. -/
def published (x : Client) (server : ServerId) : ConnectionState := (x.peers server).state

def connectedCount (servers : Nat) (x : Client) : Nat :=
  (serverIds servers).countP fun s => x.published s == .established

def isEstablished (servers : Nat) (x : Client) : Bool :=
  (serverIds servers).any fun s => x.published s == .established

/-- The two variables of the loop in `state`. -/
structure StateFlags where
  connected : Nat
  anyClosed : Bool

/-- A turn of the loop in `state`. -/
def StateFlags.count (flags : StateFlags) (state : ConnectionState) : StateFlags :=
  match state with
  | .established => { flags with connected := flags.connected + 1 }
  | .closed => { flags with anyClosed := true }
  | _ => flags

def state (servers : Nat) (x : Client) : ClientState :=
  let flags : StateFlags :=
    (serverIds servers).foldl (fun flags s => flags.count (x.published s)) ⟨0, false⟩
  if flags.anyClosed && flags.connected == 0 then .closed
  else if flags.connected = 0 then .disconnected
  else if flags.connected = servers then .fullyConnected
  else .partiallyConnected flags.connected servers

/-! ### Waiting -/

structure AnyFlags where
  anyEstablished : Bool
  allClosed : Bool

/-- One round of `wait_any_established`. -/
def anyCheck : Check ConnectionState AnyFlags (Except Error Unit) where
  start := ⟨false, true⟩
  look flags state :=
    match state with
    | .established => ⟨true, false⟩
    | .closed => flags
    | _ => { flags with allClosed := false }
  verdict flags :=
    if flags.anyEstablished then some (.ok ())
    else if flags.allClosed then some (.error .closed)
    else none

structure AllFlags where
  allEstablished : Bool
  anyClosed : Bool

/-- One round of `wait_all_established`. -/
def allCheck : Check ConnectionState AllFlags (Except Error Unit) where
  start := ⟨true, false⟩
  look flags state :=
    match state with
    | .established => flags
    | .closed => { flags with anyClosed := true }
    | _ => { flags with allEstablished := false }
  verdict flags :=
    if flags.allEstablished && !flags.anyClosed then some (.ok ())
    else if flags.anyClosed then some (.error .closed)
    else none

/-- The receivers of a wait are those of all peers. -/
def AreReceivers (servers : Nat) (receivers : List ServerId) : Prop :=
  (receivers : Multiset ServerId) = (Multiset.range servers).map ServerId.mk

instance (servers : Nat) : DecidablePred (AreReceivers servers) := fun receivers =>
  inferInstanceAs (Decidable ((receivers : Multiset ServerId) = _))

/-- A client, and a task that calls `wait_any_established`. -/
def waitAnyEstablished (servers : Nat) :
    Lts (Watch Client ServerId AnyFlags (Except Error Unit)) (WatchLabel ClientLabel ServerId) :=
  Watch.lts (lts servers) published anyCheck (AreReceivers servers)

/-- A client, and a task that calls `wait_all_established`. -/
def waitAllEstablished (servers : Nat) :
    Lts (Watch Client ServerId AllFlags (Except Error Unit)) (WatchLabel ClientLabel ServerId) :=
  Watch.lts (lts servers) published allCheck (AreReceivers servers)

end Client

end RustBond
