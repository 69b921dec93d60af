import RustBond.Client.Inbound
import RustBond.Proofs.Client.Origins

/-!
# `RustBond.Proofs.Client.Interleaving`: peer tasks side by side

A call on a `DeduplicatingHandler` updates the tracker under its lock and calls the user's
handler after the lock is released. Between the two, other tasks run. So the calls of the
user's handler may come in another order than the updates of the tracker that ask for them.

What the handler has been told and what it is still to be told always mirrors the tracker
(`mirrors_step`), as long as the calls on each route come in the order of the updates
(`InOrder`). Then the handler's view is right whenever no call is half done
(`added_iff_tracked`). In the run `overtaken` the second server announces a route just when
the first one withdraws it, and the handler ends without the route.
-/

set_option autoImplicit false

namespace RustBond

/-- The tracker is mirrored by any calls that are the same on each route. -/
theorem RouteOriginTracker.Mirrors.of_flags {t : RouteOriginTracker}
    {calls calls' : List HandlerCall} (h : t.Mirrors calls)
    (heq : ∀ r, EditLog.flags r (callEdits calls') = EditLog.flags r (callEdits calls)) :
    t.Mirrors calls' := by
  intro r
  rw [EditLog.after_false_iff, EditLog.last_eq_getLast?, heq r, ← EditLog.last_eq_getLast?,
    ← EditLog.after_false_iff]
  exact h r

namespace Interleaved

/-- If the step calls the user's handler, then no call on the same route with an earlier
update of the tracker is still to be made. -/
def InOrder (x : Interleaved) (l : Label) : Prop :=
  match l with
  | .callback server =>
    ∀ p ∈ x.pending.find? fun p => p.1 = server,
      ∀ q ∈ x.pending.takeWhile fun q => q.1 ≠ server, q.2.key ≠ p.2.key
  | _ => True

instance (x : Interleaved) : (l : Label) → Decidable (x.InOrder l)
  | .callback server =>
    inferInstanceAs (Decidable (∀ p ∈ x.pending.find? fun p => p.1 = server,
      ∀ q ∈ x.pending.takeWhile fun q => q.1 ≠ server, q.2.key ≠ p.2.key))
  | .event _ _ _ => inferInstanceAs (Decidable True)
  | .update _ => inferInstanceAs (Decidable True)

/-- The calls of the user's handler, made and still to be made, in the order of the
updates of the tracker. -/
def expected (x : Interleaved) : List HandlerCall := x.calls ++ x.pending.map Prod.snd

/-- An event only leaves its calls to the peer task. Neither the tracker nor the handler sees them
yet. -/
theorem event_eq_some {x x' : Interleaved} {server : ServerId} {event : PeerEvent}
    {calls : List HandlerCall} (h : lts.step x (.event server event calls) = some x') :
    x'.origins = x.origins ∧ x'.calls = x.calls ∧ x'.pending = x.pending := by
  simp only [lts, step] at h
  split at h
  · cases h
    exact ⟨rfl, rfl, rfl⟩
  · cases h

/-- An update of the tracker. The calls that it asks for are still to be made. -/
theorem update_eq_some {x x' : Interleaved} {server : ServerId}
    (h : lts.step x (.update server) = some x') :
    ∃ c, x'.origins = (DeduplicatingHandler.call server x.origins c).1 ∧ x'.calls = x.calls ∧
      x'.pending = x.pending ++
        (DeduplicatingHandler.call server x.origins c).2.map fun call => (server, call) := by
  simp only [lts, step] at h
  split at h
  · cases h
  · rename_i c rest _
    split at h
    · cases h
    · cases h
      exact ⟨c, rfl, rfl, rfl⟩

/-- A task makes its first call that is still to be made, whatever the other tasks have still to
make. -/
theorem callback_eq_some {x x' : Interleaved} {server : ServerId}
    (h : lts.step x (.callback server) = some x') :
    ∃ before p after, x.pending = before ++ p :: after ∧
      (x.pending.find? fun p => p.1 = server) = some p ∧
      (x.pending.takeWhile fun q => q.1 ≠ server) = before ∧
      x'.origins = x.origins ∧ x'.calls = x.calls ++ [p.2] ∧ x'.pending = before ++ after := by
  simp only [lts, step, Option.map_eq_some_iff] at h
  obtain ⟨p, hfind, rfl⟩ := h
  -- The oldest pending call of the server is the one that is made.
  obtain ⟨hp, before, after, hsplit, hbefore⟩ := List.find?_eq_some_iff_append.mp hfind
  refine ⟨before, p, after, hsplit, hfind, ?_, rfl, rfl, ?_⟩
  · rw [hsplit, List.takeWhile_append_of_pos, List.takeWhile_cons_of_neg, List.append_nil]
    · simpa using hp
    · intro q hq
      simpa using hbefore q hq
  · show (x.pending.eraseP fun p => p.1 = server) = before ++ after
    have hothers : ∀ q ∈ before, ¬ decide (q.1 = server) = true := by
      intro q hq
      simpa using hbefore q hq
    rw [hsplit, List.eraseP_append_right _ hothers, List.eraseP_cons, hp]
    rfl

/-- A step keeps the expected calls in step with the tracker, if it does not call the user's
handler out of order. -/
theorem mirrors_step {x x' : Interleaved} {l : Label} (h : x.origins.Mirrors x.expected)
    (hok : x.InOrder l) (hs : lts.step x l = some x') : x'.origins.Mirrors x'.expected := by
  unfold expected at h ⊢
  cases l with
  | event server event calls =>
    obtain ⟨horigins, hcalls, hpending⟩ := event_eq_some hs
    rw [horigins, hcalls, hpending]
    exact h
  | update server =>
    obtain ⟨c, horigins, hcalls, hpending⟩ := update_eq_some hs
    have hsame : ∀ calls : List HandlerCall,
        (calls.map fun call => (server, call)).map Prod.snd = calls := by
      intro calls
      rw [List.map_map]
      exact List.map_id calls
    rw [horigins, hcalls, hpending, List.map_append, hsame, ← List.append_assoc]
    exact RouteOriginTracker.mirrors_call h server c
  | callback server =>
    obtain ⟨before, p, after, hsplit, hfind, hbefore, horigins, hcalls, hpending⟩ :=
      callback_eq_some hs
    have hfirst : ∀ q ∈ before, q.2.key ≠ p.2.key := by
      have hinorder := hok p hfind
      rw [hbefore] at hinorder
      exact hinorder
    rw [horigins]
    refine h.of_flags ?_
    intro r
    -- The call moves over calls on other routes.
    have hmove : EditLog.flags r (callEdits ([p.2] ++ before.map Prod.snd))
        = EditLog.flags r (callEdits (before.map Prod.snd ++ [p.2])) := by
      rw [callEdits_append, callEdits_append]
      refine EditLog.flags_comm ?_ r
      intro e he
      obtain ⟨c, hc, rfl⟩ := List.mem_map.mp he
      obtain ⟨q, hq, rfl⟩ := List.mem_map.mp hc
      rw [HandlerCall.target_edit, HandlerCall.target_edit]
      exact hfirst q hq
    have hcalls' : x'.calls ++ x'.pending.map Prod.snd
        = x.calls ++ ([p.2] ++ before.map Prod.snd) ++ after.map Prod.snd := by
      simp [hcalls, hpending]
    have hexpected : x.calls ++ x.pending.map Prod.snd
        = x.calls ++ (before.map Prod.snd ++ [p.2]) ++ after.map Prod.snd := by
      simp [hsplit]
    rw [hcalls', hexpected]
    simp only [callEdits_append, EditLog.flags_append] at hmove ⊢
    rw [hmove]

/-- **When the handler's view is right.** Consider a run of any number of peer tasks in which
no call of the user's handler overtakes an earlier one on the same route. Whenever no call is
half done, the handler has a route exactly if the tracker has it. -/
theorem added_iff_tracked {ls : List Label} {x : Interleaved} (hrun : lts.Run ls x)
    (hok : lts.Throughout InOrder ls) (hidle : ∀ server, ¬ x.HalfDone server) (r : RouteKey) :
    EditLog.last r (callEdits x.calls) = some true ↔
      ∃ servers, x.origins.getServers r.1 r.2.1 r.2.2 = some servers ∧ servers ≠ ∅ := by
  have hmirrors : x.origins.Mirrors x.expected := by
    refine Lts.Run.invariant_of_throughout (P := fun x => x.origins.Mirrors x.expected)
      RouteOriginTracker.mirrors_new ?_ hrun hok
    intro _ _ _ _ _ h hstep hs
    exact mirrors_step h hstep hs
  -- Then all the expected calls have been made.
  have hnone : x.pending = [] := by
    refine List.eq_nil_iff_forall_not_mem.mpr ?_
    intro p hp
    exact hidle p.1 ⟨p, hp, rfl⟩
  have hexpected : x.expected = x.calls := by
    rw [expected, hnone, List.map_nil, List.append_nil]
  rw [hexpected] at hmirrors
  rw [← EditLog.after_false_iff, (hmirrors r).2]
  exact x.origins.origins_ne_empty_iff r

/-- The first server announces a route and withdraws it. The second one announces it right
after the withdrawal has emptied the origin set. `late` is the order in which the two tasks
then call the user's handler. -/
def handover (late : List Label) : List Label :=
  let r : Route := ⟨makeDest 1, makeHop 1⟩
  let update (action : Action) : PeerEvent :=
    .message (.update action ⟨100⟩ r.destination r.nextHop)
  [ .event ⟨0⟩ (update .add) [.addRoute ⟨100⟩ r], .update ⟨0⟩, .callback ⟨0⟩,
    .event ⟨0⟩ (update .remove) [.removeRoute ⟨100⟩ r], .update ⟨0⟩,
    .event ⟨1⟩ (update .add) [.addRoute ⟨100⟩ r], .update ⟨1⟩ ] ++ late

/-- The call of the second task overtakes the one of the first. -/
def overtaken : List Label := handover [.callback ⟨1⟩, .callback ⟨0⟩]

/-- A handler that is called out of order ends without a route that the tracker has. -/
theorem callback_overtakes :
    ¬ ∀ (ls : List Label) (x : Interleaved), lts.Run ls x → (∀ server, ¬ x.HalfDone server) →
      ∀ r : RouteKey, EditLog.last r (callEdits x.calls) = some true ↔
        ∃ servers, x.origins.getServers r.1 r.2.1 r.2.2 = some servers ∧ servers ≠ ∅ := by
  intro h
  have hrun : lts.Run overtaken _ := Lts.Run.of_exec (by decide)
  have hidle : ∀ server, ¬ Interleaved.HalfDone ((lts.exec overtaken).get (by decide)) server := by
    rintro server ⟨p, hp, -⟩
    revert hp
    decide +revert
  have htracked := (h overtaken _ hrun hidle (⟨100⟩, makeDest 1, makeHop 1)).mpr
    ⟨{⟨1⟩}, by decide, by decide⟩
  revert htracked
  decide

/-- When the calls come in order, the handler has the route. -/
theorem added_iff_tracked_handover :
    ∃ x, lts.Run (handover [.callback ⟨0⟩, .callback ⟨1⟩]) x ∧
      EditLog.last (⟨100⟩, makeDest 1, makeHop 1) (callEdits x.calls) = some true := by
  have hrun : lts.Run (handover [.callback ⟨0⟩, .callback ⟨1⟩]) _ := Lts.Run.of_exec (by decide)
  have hok : lts.Throughout InOrder (handover [.callback ⟨0⟩, .callback ⟨1⟩]) :=
    Lts.throughout_of_check (by decide)
  refine ⟨_, hrun, (added_iff_tracked hrun hok ?_ _).mpr ⟨{⟨1⟩}, by decide, by decide⟩⟩
  rintro server ⟨p, hp, -⟩
  revert hp
  decide +revert

end Interleaved

end RustBond
