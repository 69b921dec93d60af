import RustBond.Client.Client

/-!
# `RustBond.Proofs.Client.Client`: what each step of a client does

One inversion lemma for each label of `Client.lts`. They name the guard of the step and the
state after it, so that no later proof unfolds the steps.
-/

set_option autoImplicit false

namespace RustBond.Client

variable {servers : Nat} {x x' : Client}

/-- A call goes through the servers in any order, but it gets to all of them, and to nobody else. -/
theorem mem_order {order : List ServerId} {s : ServerId}
    (horder : (order : Multiset ServerId) = (Multiset.range servers).map ServerId.mk) :
    s ∈ order ↔ s.id < servers := by
  rw [← Multiset.mem_coe, horder, Multiset.mem_map]
  constructor
  · rintro ⟨n, hn, rfl⟩
    exact Multiset.mem_range.mp hn
  · intro hserver
    exact ⟨s.id, Multiset.mem_range.mpr hserver, rfl⟩

/-- A call that begins visits the peers next, or it is rejected and leaves the shared state
as it was. Only `announce` and `withdraw` can be rejected. -/
theorem call_eq_some {call : ClientCall} {order : List ServerId}
    (h : (lts servers).step x (.call call order) = some x') :
    x.active = none ∧
      (order : Multiset ServerId) = (Multiset.range servers).map ServerId.mk ∧
      x'.peers = x.peers ∧
      ((x'.active = some ⟨call, order, false, false⟩ ∧ x'.log = x.log ++ [.called call]) ∨
        ∃ e, x' = { x with log := x.log ++ [.called call, .returned call (some e)] } ∧
          call.locksRoutes = true) := by
  simp only [lts, step, begin] at h
  split at h
  · rename_i hguard
    refine ⟨hguard.1, hguard.2.2.1, ?_⟩
    cases call with
    | subscribe vni =>
      cases h
      exact ⟨rfl, Or.inl ⟨rfl, rfl⟩⟩
    | unsubscribe vni =>
      cases h
      exact ⟨rfl, Or.inl ⟨rfl, rfl⟩⟩
    | announce vni destination nextHop =>
      -- `RouteAlreadyAnnounced`.
      by_cases hknown : x.announcedRoutes.nextHopExists vni destination nextHop = true
      · simp only [enter, hknown, if_true] at h
        cases h
        exact ⟨rfl, Or.inr ⟨_, rfl, rfl⟩⟩
      · simp only [enter, hknown] at h
        cases h
        exact ⟨rfl, Or.inl ⟨rfl, rfl⟩⟩
    | withdraw vni destination nextHop =>
      -- `RouteNotFound`.
      by_cases hknown : x.announcedRoutes.nextHopExists vni destination nextHop = true
      · simp only [enter, hknown, if_true] at h
        cases h
        exact ⟨rfl, Or.inl ⟨rfl, rfl⟩⟩
      · simp only [enter, hknown] at h
        cases h
        exact ⟨rfl, Or.inr ⟨_, rfl, rfl⟩⟩
    | shutdown =>
      cases h
      exact ⟨rfl, Or.inl ⟨rfl, rfl⟩⟩
  · cases h

/-- A call that looks at the state of a peer goes on to send to it, or passes over it. -/
theorem check_eq_some (h : (lts servers).step x .check = some x') :
    ∃ call s rest sentAny, x.active = some ⟨call, s :: rest, false, sentAny⟩ ∧
      call.needsEstablished = true ∧
      (((x.peers s).state = .established ∧
          x' = { x with active := some ⟨call, s :: rest, true, sentAny⟩ }) ∨
        ((x.peers s).state ≠ .established ∧
          x' = { x with active := some ⟨call, rest, false, sentAny⟩ })) := by
  simp only [lts, step, check] at h
  split at h
  · rename_i call s rest sentAny hactive
    split at h
    · rename_i hneeds
      refine ⟨call, s, rest, sentAny, hactive, hneeds, ?_⟩
      split at h
      · rename_i hstate
        exact Or.inl ⟨hstate, (Option.some.inj h).symm⟩
      · rename_i hstate
        exact Or.inr ⟨hstate, (Option.some.inj h).symm⟩
    · cases h
  · cases h

/-- A call that sends to a peer puts its command at the end of the channel, or finds that the
task has returned. -/
theorem enqueue_eq_some (h : (lts servers).step x .enqueue = some x') :
    ∃ call s rest checked sentAny, x.active = some ⟨call, s :: rest, checked, sentAny⟩ ∧
      call.needsEstablished = checked ∧
      (((x.peers s).phase = .closed ∧
          x' = { x with active := some ⟨call, rest, false, sentAny⟩ }) ∨
        ((x.peers s).phase ≠ .closed ∧ (x.peers s).commands.length < commandCapacity ∧
          x' = { x with
            peers := Function.update x.peers s
              { x.peers s with commands := (x.peers s).commands ++ [call.command] }
            active := some ⟨call, rest, false, true⟩ })) := by
  simp only [lts, step, enqueue] at h
  split at h
  · rename_i call s rest checked sentAny hactive
    split at h
    · rename_i hneeds
      refine ⟨call, s, rest, checked, sentAny, hactive, hneeds, ?_⟩
      split at h
      · -- The receiver of the channel is gone.
        rename_i hclosed
        exact Or.inl ⟨hclosed, (Option.some.inj h).symm⟩
      · rename_i hopen
        split at h
        · rename_i hroom
          exact Or.inr ⟨hopen, hroom, (Option.some.inj h).symm⟩
        · cases h
    · cases h
  · cases h

/-- A call that has visited all peers returns. -/
theorem finish_eq_some (h : (lts servers).step x .finish = some x') :
    ∃ call checked sentAny, x.active = some ⟨call, [], checked, sentAny⟩ ∧
      x' = { x with
        active := none
        log := x.log ++ [.returned call
          (if call.needsEstablished && !sentAny then some .notEstablished else none)] } := by
  simp only [lts, step, finish] at h
  split at h
  · rename_i call checked sentAny hactive
    exact ⟨call, checked, sentAny, hactive, (Option.some.inj h).symm⟩
  · cases h

/-- The inversion of a task's step: it changes its own peer alone. -/
theorem task_eq_some {server : ServerId} {action : TaskAction}
    (h : (lts servers).step x (.task server action) = some x') :
    server.id < servers ∧ ∃ t, (x.peers server).act x.announcedRoutes action = some t ∧
      x' = { x with peers := Function.update x.peers server t } := by
  simp only [lts, step, task] at h
  split at h
  · rename_i hserver
    obtain ⟨t, hact, rfl⟩ := Option.map_eq_some_iff.mp h
    exact ⟨hserver, t, hact, rfl⟩
  · cases h

/-- The steps by which a peer task gets from the handshake into its main loop, when it has the
given subscriptions and the client announces nothing. -/
def connects (s : ServerId) (subs : List Vni) : List ClientLabel :=
  [.task s .helloSent, .task s .helloReceived, .task s (.established subs)] ++
    subs.map (fun _ => .task s .resubscribe) ++ [.task s (.collect []), .task s .enterLoop]

/-- The steps by which a peer task loses its connection and starts to wait. -/
def disconnects (s : ServerId) : List ClientLabel := [.task s .connectionEnded, .task s .clear]

end RustBond.Client
