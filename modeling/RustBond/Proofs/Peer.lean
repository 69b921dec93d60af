import RustBond.Lib.EditLog
import RustBond.Peer
import RustBond.Proofs.Route

/-!
# `RustBond.Proofs.Peer`: what one message or command does to the received routes

An update message is an edit of the set of received routes (`Message.edit`), and every other
message is none. So a stream of messages is an edit log (`edits`), and the routes that a
client will have received once it has handled a stream are `EditLog.After` of this log
(`mem_handleMessage` is the step).
-/

set_option autoImplicit false

namespace RustBond

/-- The edit of the received routes that a message asks for. -/
def Message.edit (msg : Message) : Option (Edit RouteKey) :=
  match msg with
  | .update .add vni destination nextHop => some (.insert (vni, destination, nextHop))
  | .update .remove vni destination nextHop => some (.erase (vni, destination, nextHop))
  | _ => none

/-- A stream of messages as an edit log. -/
def edits (msgs : List Message) : List (Edit RouteKey) := msgs.filterMap Message.edit

/-- No messages make no edits. -/
@[simp] theorem edits_nil : edits [] = [] := rfl

/-- The edits of two lists of messages, one after the other. -/
@[simp] theorem edits_append (msgs msgs' : List Message) :
    edits (msgs ++ msgs') = edits msgs ++ edits msgs' :=
  List.filterMap_append

/-- The first message makes its edit before the others. -/
theorem edits_cons (msg : Message) (msgs : List Message) :
    edits (msg :: msgs) = edits [msg] ++ edits msgs := by
  rw [← edits_append, List.singleton_append]

/-- An edit is made by a message that carries it. -/
theorem mem_edits {msgs : List Message} {e : Edit RouteKey} :
    e ∈ edits msgs ↔ ∃ msg ∈ msgs, msg.edit = some e :=
  List.mem_filterMap

/-- A list of updates that are written for the elements of a list. -/
theorem edits_map {A : Type} {f : A → Message} {g : A → Edit RouteKey}
    (h : ∀ a, (f a).edit = some (g a)) (l : List A) : edits (l.map f) = l.map g := by
  have hfun : Message.edit ∘ f = some ∘ g := funext h
  unfold edits
  rw [List.filterMap_map, hfun, List.filterMap_eq_map]

/-- An update is about its own route, whatever its action. -/
theorem Message.target_of_update {action : Action} {vni : Vni} {destination : Destination}
    {nextHop : NextHop} {e : Edit RouteKey}
    (h : (Message.update action vni destination nextHop).edit = some e) :
    e.target = (vni, destination, nextHop) := by
  cases action with
  | add =>
    cases h
    rfl
  | remove =>
    cases h
    rfl

namespace Connection

/-- The received routes after a message. -/
theorem mem_handleMessage (c : Connection) (msg : Message) (r : RouteKey) :
    r ∈ (c.handleMessage msg).1.receivedRoutes
      ↔ EditLog.After r (r ∈ c.receivedRoutes) (edits [msg]) := by
  cases msg with
  | hello | keepalive | subscribe | unsubscribe => exact Iff.rfl
  | update action vni destination nextHop =>
    cases action with
    | add =>
      show r ∈ (c.receivedRoutes.addNextHop vni destination nextHop).1
        ↔ EditLog.After r _ [.insert (vni, destination, nextHop)]
      rw [RouteTable.mem_addNextHop, EditLog.after_insert]
    | remove =>
      show r ∈ (c.receivedRoutes.removeNextHop vni destination nextHop).1
        ↔ EditLog.After r _ [.erase (vni, destination, nextHop)]
      rw [RouteTable.mem_removeNextHop, EditLog.after_erase]

/-- A message of the server does not change what the client has subscribed to. -/
@[simp] theorem handleMessage_subscriptions (c : Connection) (msg : Message) :
    (c.handleMessage msg).1.subscriptions = c.subscriptions := by
  cases msg with
  | hello | keepalive | subscribe | unsubscribe => rfl
  | update action vni destination nextHop =>
    cases action with
    | add => rfl
    | remove => rfl

/-- The received routes after a command: an `Unsubscribe` drops those of its VNI. -/
theorem mem_handleCommand (c : Connection) (cmd : PeerCommand) (r : RouteKey) :
    r ∈ (c.handleCommand cmd).1.receivedRoutes
      ↔ r ∈ c.receivedRoutes ∧ cmd ≠ .unsubscribe r.1 := by
  cases cmd with
  | subscribe vni => simp [handleCommand]
  | unsubscribe vni =>
    show r ∈ (c.receivedRoutes.removeVni vni).1 ↔ _
    simp [@eq_comm _ vni, and_comm]
  | sendUpdate msg => simp [handleCommand]
  | shutdown => simp [handleCommand]

end Connection

end RustBond
