import RustBond.Client.Client
import RustBond.Proofs.Route
import RustBond.Proofs.Server.Routing
import RustBond.Proofs.Wire.RoundTrip

/-!
# `RustBond.Proofs.Wire.Identity`: routes on the two sides of the wire

The client and the server both identify a route by its triple. The server does so after a trip
over the wire, which makes a target VNI of 0 the same as none. The routes that a client has
announced stay apart at the server, and can be withdrawn one by one, exactly if no two of them
differ in nothing but that (`keepsRoutes_iff`).
-/

set_option autoImplicit false

namespace RustBond

/-- What the other side reads of a message. -/
def Message.transmit (p : Prost) (m : Message) : Except Error Message := do
  let b ← m.encode p
  let (m', _) ← Message.decode p b
  return m'

/-- The key under which the server sees a route that a client announces. -/
def RouteKey.received (p : Prost) (r : RouteKey) : Option RouteKey :=
  match Message.transmit p (.update .add r.1 r.2.1 r.2.2) with
  | .ok (.update _ vni destination nextHop) => some (vni, destination, nextHop)
  | _ => none

/-- The tables of the server after it has read an update of the client at `addr`. -/
def RoutingActor.receive (p : Prost) (s : RoutingActor) (addr : SocketAddr) (m : Message) :
    Option RoutingActor :=
  match Message.transmit p m with
  | .ok (.update action vni destination nextHop) =>
    some (s.handleUpdate addr action vni destination nextHop).1
  | _ => none

/-- The routes differ, but only in that one has the target VNI 0 and the other has none. -/
structure RouteKey.Alike (r r' : RouteKey) : Prop where
  vni : r.1 = r'.1
  destination : r.2.1 = r'.2.1
  nextHop : { r.2.2 with targetVni := r'.2.2.targetVni } = r'.2.2
  targetVni : r.2.2.targetVni = none ∧ r'.2.2.targetVni = some 0 ∨
    r.2.2.targetVni = some 0 ∧ r'.2.2.targetVni = none

/-- The routes that the client announces are different ones at the server as well, and a server
that holds them all loses the one that the client withdraws and no other. -/
structure Client.KeepsRoutes (p : Prost) (x : Client) : Prop where
  distinct : ∀ r ∈ x.announcedRoutes, ∀ r' ∈ x.announcedRoutes, r ≠ r' →
    r.received p ≠ r'.received p
  withdraw : ∀ (s : RoutingActor) (addr : SocketAddr) (vni : Vni) (destination : Destination)
    (nextHop : NextHop) (x' : Client),
    (∀ r ∈ x.announcedRoutes, ∃ k ∈ r.received p, k ∈ s.routes) →
    x.enter (.withdraw vni destination nextHop) = .ok x' →
    ∃ s', s.receive p addr (.update .remove vni destination nextHop) = some s' ∧
      (∀ k, k ∈ s'.routes ↔
        k ∈ s.routes ∧ some k ≠ RouteKey.received p (vni, destination, nextHop)) ∧
      ∀ r ∈ x'.announcedRoutes, ∃ k ∈ r.received p, k ∈ s'.routes

variable {p : Prost}

/-- The wire normalises a message and does nothing else to it. -/
theorem Message.transmit_eq (hp : p.Standard) (m : Message) :
    m.transmit p = .ok m.normalise := by
  obtain ⟨b, hencode, -, hframe⟩ := exists_frame hp m
  have hdecode := hframe []
  rw [List.append_nil] at hdecode
  unfold transmit
  rw [hencode]
  show (do let (m', _) ← decode p b; return m' : Except Error Message) = _
  rw [hdecode]
  rfl

/-- What the other side reads of a sequence of messages. -/
theorem Message.mapM_transmit (hp : p.Standard) (msgs : List Message) :
    msgs.mapM (Message.transmit p) = .ok (msgs.map Message.normalise) := by
  have hpure : Message.transmit p = fun m => pure m.normalise := funext (Message.transmit_eq hp)
  rw [hpure, List.mapM_pure]
  rfl

/-- The server decodes a route with its normalised next hop. -/
theorem RouteKey.received_eq (hp : p.Standard) (r : RouteKey) :
    RouteKey.received p r = some (r.1, r.2.1, r.2.2.normalise) := by
  unfold received
  rw [Message.transmit_eq hp]
  rfl

/-- The actor enters the normalised route into its tables. -/
theorem RoutingActor.receive_eq (hp : p.Standard) (s : RoutingActor) (addr : SocketAddr)
    (action : Action) (vni : Vni) (destination : Destination) (nextHop : NextHop) :
    s.receive p addr (.update action vni destination nextHop)
      = some (s.updateTables addr action vni destination nextHop.normalise) := by
  unfold receive
  rw [Message.transmit_eq hp]
  exact congrArg some (handleUpdate_fst ..)

/-- Normalising takes two next hops to one only if they differ in nothing but a target VNI of
0. -/
theorem NextHop.normalise_eq_iff {n n' : NextHop} :
    n.normalise = n'.normalise ↔
      n = n' ∨ ({ n with targetVni := n'.targetVni } = n' ∧
        (n.targetVni = none ∧ n'.targetVni = some 0 ∨
          n.targetVni = some 0 ∧ n'.targetVni = none)) := by
  obtain ⟨target, vni, hopType, portFrom, portTo⟩ := n
  obtain ⟨target', vni', hopType', portFrom', portTo'⟩ := n'
  simp only [normalise, NextHop.mk.injEq]
  grind

/-- Two routes are alike if they differ in nothing but `None` and `Some(0)` as the target VNI. -/
theorem RouteKey.alike_iff {r r' : RouteKey} :
    RouteKey.Alike r r' ↔ r ≠ r' ∧ r.1 = r'.1 ∧ r.2.1 = r'.2.1 ∧
      r.2.2.normalise = r'.2.2.normalise := by
  obtain ⟨vni, destination, nextHop⟩ := r
  obtain ⟨vni', destination', nextHop'⟩ := r'
  rw [NextHop.normalise_eq_iff]
  constructor
  · intro h
    refine ⟨fun heq => ?_, h.vni, h.destination, .inr ⟨h.nextHop, h.targetVni⟩⟩
    -- Two equal routes can not have two target VNIs.
    have hvni : nextHop.targetVni = nextHop'.targetVni := by
      cases heq
      rfl
    have hcases := h.targetVni
    simp only [hvni] at hcases
    rcases hcases with ⟨hnone, hzero⟩ | ⟨hzero, hnone⟩
    · rw [hnone] at hzero
      cases hzero
    · rw [hnone] at hzero
      cases hzero
  · rintro ⟨hne, rfl, rfl, rfl | ⟨hnextHop, hvni⟩⟩
    · exact absurd rfl hne
    · exact ⟨rfl, rfl, hnextHop, hvni⟩

/-- Two routes are alike if they have one key at the server. -/
theorem RouteKey.alike_iff_normalise {r r' : RouteKey} :
    RouteKey.Alike r r' ↔ r ≠ r' ∧ r.normalise = r'.normalise := by
  rw [alike_iff, normalise, normalise, Prod.mk.injEq, Prod.mk.injEq]

/-- Two routes are the same for the server exactly if they agree after normalisation. -/
theorem RouteKey.received_eq_iff (hp : p.Standard) {r r' : RouteKey} :
    RouteKey.received p r = RouteKey.received p r' ↔
      r.1 = r'.1 ∧ r.2.1 = r'.2.1 ∧ r.2.2.normalise = r'.2.2.normalise := by
  rw [received_eq hp, received_eq hp, Option.some.injEq, Prod.mk.injEq, Prod.mk.injEq]

/-- A call to `withdraw` that goes on takes the route from the table. -/
theorem Client.enter_withdraw {x x' : Client} {vni : Vni} {destination : Destination}
    {nextHop : NextHop} (h : x.enter (.withdraw vni destination nextHop) = .ok x') :
    (vni, destination, nextHop) ∈ x.announcedRoutes ∧
      ∀ r, r ∈ x'.announcedRoutes ↔ r ≠ (vni, destination, nextHop) ∧ r ∈ x.announcedRoutes := by
  unfold enter at h
  simp only at h
  split at h
  · rename_i hknown
    cases h
    exact ⟨hknown, fun r => RouteTable.mem_removeNextHop ..⟩
  · cases h

/-- The routes of the client keep their identity exactly if no two of them are alike. -/
theorem Client.keepsRoutes_iff (p : Prost) (hp : p.Standard) (x : Client) :
    x.KeepsRoutes p ↔
      ∀ r ∈ x.announcedRoutes, ∀ r' ∈ x.announcedRoutes, ¬ RouteKey.Alike r r' := by
  constructor
  · intro h r hr r' hr' halike
    obtain ⟨hne, hsame⟩ := RouteKey.alike_iff.mp halike
    exact h.distinct r hr r' hr' hne ((RouteKey.received_eq_iff hp).mpr hsame)
  · intro h
    have hdistinct : ∀ r ∈ x.announcedRoutes, ∀ r' ∈ x.announcedRoutes, r ≠ r' →
        RouteKey.received p r ≠ RouteKey.received p r' := by
      intro r hr r' hr' hne heq
      exact h r hr r' hr' (RouteKey.alike_iff.mpr ⟨hne, (RouteKey.received_eq_iff hp).mp heq⟩)
    refine ⟨hdistinct, ?_⟩
    intro s addr vni destination nextHop x' hheld henter
    obtain ⟨hknown, hleft⟩ := enter_withdraw henter
    refine ⟨_, RoutingActor.receive_eq hp .., ?_⟩
    -- The server removes the key that it decodes, and no other one.
    have hroutes : ∀ k, k ∈ (s.updateTables addr .remove vni destination nextHop.normalise).routes ↔
        k ∈ s.routes ∧ some k ≠ RouteKey.received p (vni, destination, nextHop) := by
      intro k
      rw [RouteKey.received_eq hp]
      show k ∈ (s.routes.removeNextHop vni destination nextHop.normalise).1 ↔ _
      simp [and_comm]
    refine ⟨hroutes, fun r hr => ?_⟩
    obtain ⟨hne, hannounced⟩ := (hleft r).mp hr
    obtain ⟨k, hk, hstored⟩ := hheld r hannounced
    refine ⟨k, hk, (hroutes k).mpr ⟨hstored, ?_⟩⟩
    -- Another announced route has another key.
    rw [← Option.mem_def.mp hk]
    exact hdistinct r hannounced _ hknown hne

/-- The client that announces these routes. -/
def Client.announcing (routes : List RouteKey) : Client :=
  { Client.new with
    announcedRoutes := routes.foldl (fun t r => (t.addNextHop r.1 r.2.1 r.2.2).1) RouteTable.new }

/-- A client may announce two routes that differ in nothing but the target VNI, as long as it is
not 0 in one of them and none in the other. -/
theorem Client.keepsRoutes_targetVni :
    ∃ x : Client, (⟨100⟩, makeDest 1, makeHop 1) ∈ x.announcedRoutes ∧
      (⟨100⟩, makeDest 1, { makeHop 1 with targetVni := some 1 }) ∈ x.announcedRoutes ∧
      x.KeepsRoutes .strict := by
  refine ⟨Client.announcing [(⟨100⟩, makeDest 1, makeHop 1),
    (⟨100⟩, makeDest 1, { makeHop 1 with targetVni := some 1 })], by decide, by decide, ?_⟩
  refine (Client.keepsRoutes_iff .strict Prost.standard_strict _).mpr ?_
  simp only [← RouteTable.mem_triples, RouteKey.alike_iff_normalise]
  decide

/-- The client accepts a second route with the target VNI 0, which the server takes for the
first one. -/
theorem Client.alike_announced :
    ∃ x x', Client.new.enter (.announce ⟨100⟩ (makeDest 1) (makeHop 1)) = .ok x ∧
      x.enter (.announce ⟨100⟩ (makeDest 1) { makeHop 1 with targetVni := some 0 }) = .ok x' ∧
      ¬ x'.KeepsRoutes .strict := by
  refine ⟨_, _, rfl, rfl, fun h => ?_⟩
  refine h.distinct (⟨100⟩, makeDest 1, makeHop 1) ?_
    (⟨100⟩, makeDest 1, { makeHop 1 with targetVni := some 0 }) ?_ (by decide) ?_
  · simp
  · simp
  · rw [RouteKey.received_eq Prost.standard_strict, RouteKey.received_eq Prost.standard_strict]
    rfl

end RustBond
