import RustBond.Lib.History
import RustBond.Proofs.Client.Origins

/-!
# `RustBond.Proofs.Client.ServerRemoval`: the bulk removal of a server

`remove_server` goes over the tracker once. `removeOrigins` withdraws one route after another
instead, in any order. As no stored origin set is empty, the origin sets determine the tracker
(`ext_origins`), and a route has its server as its only origin exactly if a withdrawal of it
removes the route. So both ways lead to the same tracker and ask for the same calls
(`removeServer_eq_withdrawals`).
-/

set_option autoImplicit false

namespace RustBond

/-- A method that changes the tracker. -/
inductive TrackerOp where
  | addOrigin (r : RouteKey) (server : ServerId)
  | removeOrigin (r : RouteKey) (server : ServerId)
  | removeServer (server : ServerId)
deriving DecidableEq

namespace RouteOriginTracker

variable {t : RouteOriginTracker} {server : ServerId}

def apply (t : RouteOriginTracker) (op : TrackerOp) : RouteOriginTracker :=
  match op with
  | .addOrigin r server => (t.addOrigin r.1 r.2.1 r.2.2 server).1
  | .removeOrigin r server => (t.removeOrigin r.1 r.2.1 r.2.2 server).1
  | .removeServer server => (t.removeServer server).1

/-- A new tracker after a sequence of calls. -/
def after (ops : List TrackerOp) : RouteOriginTracker := History.fold apply new ops

/-- The stored routes. -/
def stored (t : RouteOriginTracker) : Multiset RouteKey := t.inner.keys.val

/-- Withdraws one route after another. Returns the tracker, and the routes for which
`remove_origin` returned true. -/
def removeOrigins (server : ServerId) :
    RouteOriginTracker → List RouteKey → RouteOriginTracker × List RouteKey
  | t, [] => (t, [])
  | t, r :: order =>
    let (t', last) := t.removeOrigin r.1 r.2.1 r.2.2 server
    let (t'', removed) := removeOrigins server t' order
    (t'', if last then r :: removed else removed)

/-- The same withdrawals through the handler of the server. Returns the calls of the user's
handler. -/
def removeRoutes (server : ServerId) :
    RouteOriginTracker → List RouteKey → RouteOriginTracker × List HandlerCall
  | t, [] => (t, [])
  | t, r :: order =>
    let (t', calls) := DeduplicatingHandler.removeRoute server t r.1 ⟨r.2.1, r.2.2⟩
    let (t'', calls') := removeRoutes server t' order
    (t'', calls ++ calls')

/-! ### The tracker and its origin sets -/

/-- The map has an entry for a route exactly if it has an origin, and the entry is the origin set.
-/
theorem lookup_eq (t : RouteOriginTracker) (r : RouteKey) :
    t.inner.lookup r = if t.origins r = ∅ then none else some (t.origins r) := by
  unfold origins
  cases h : t.inner.lookup r with
  | none => simp
  | some servers =>
    have hne : servers ≠ ∅ := t.noEmpty r servers h
    simp [hne]

/-- Trackers with the same origins are the same. -/
theorem ext_origins {t t' : RouteOriginTracker} (h : ∀ r, t.origins r = t'.origins r) :
    t = t' := by
  have hinner : t.inner = t'.inner := Finmap.ext_lookup fun r => by
    rw [lookup_eq, lookup_eq, h r]
  cases t
  cases t'
  cases hinner
  rfl

/-- The stored routes are those with an origin. -/
theorem mem_stored (t : RouteOriginTracker) (r : RouteKey) : r ∈ t.stored ↔ t.origins r ≠ ∅ := by
  show r ∈ t.inner.keys ↔ _
  rw [Finmap.mem_keys, ← Finmap.lookup_isSome, lookup_eq]
  split
  · rename_i h
    simp [h]
  · rename_i h
    simp [h]

/-! ### `remove_server` -/

/-- `remove_server` takes the server out of every origin set. -/
theorem origins_removeServer (t : RouteOriginTracker) (server : ServerId) (r : RouteKey) :
    (t.removeServer server).1.origins r = (t.origins r).erase server := by
  show (((t.inner.mapValues fun servers => servers.erase server).retain
    fun _ servers => decide (servers ≠ ∅)).lookup r).getD ∅ = _
  rw [HashMap.lookup_retain, HashMap.lookup_mapValues]
  unfold origins
  cases t.inner.lookup r with
  | none => rfl
  | some servers =>
    by_cases hempty : servers.erase server = ∅
    · simp [Option.filter, hempty]
    · simp [Option.filter, hempty]

/-- `remove_server` lists no route twice. -/
theorem nodup_removeServer (t : RouteOriginTracker) (server : ServerId) :
    (t.removeServer server).2.Nodup :=
  Multiset.nodup_of_le (Multiset.map_le_map (Multiset.filter_le _ _))
    (Multiset.nodup_keys.mpr (t.inner.mapValues fun servers => servers.erase server).nodupKeys)

/-- `remove_server` lists the routes that had no other origin. -/
theorem mem_removeServer (t : RouteOriginTracker) (server : ServerId) (r : RouteKey) :
    r ∈ (t.removeServer server).2 ↔ t.origins r = {server} := by
  have hentry : r ∈ (t.removeServer server).2 ↔
      (t.inner.mapValues fun servers => servers.erase server).lookup r = some ∅ := by
    simp only [removeServer, Multiset.mem_map, Multiset.mem_filter]
    rw [Finmap.lookup_eq_some_iff]
    constructor
    · rintro ⟨⟨r', servers⟩, ⟨hmem, rfl⟩, rfl⟩
      exact hmem
    · intro hmem
      exact ⟨⟨r, ∅⟩, ⟨hmem, rfl⟩, rfl⟩
  -- An origin set that is not empty becomes empty exactly if it has no other server.
  rw [hentry, HashMap.lookup_mapValues, lookup_eq]
  by_cases hempty : t.origins r = ∅
  · simp [hempty]
  · simp [hempty, Finset.erase_eq_empty_iff]

/-! ### One withdrawal after another -/

/-- A withdrawal removes the last origin exactly if the server is the only one. -/
theorem removeOrigin_last (t : RouteOriginTracker) (r : RouteKey) (server : ServerId) :
    (t.removeOrigin r.1 r.2.1 r.2.2 server).2 = decide (t.origins r = {server}) := by
  rw [removeOrigin_flag]
  by_cases hempty : t.origins r = ∅
  · simp [hempty]
  · simp [hempty, Finset.erase_eq_empty_iff]

/-- Withdrawals of the routes of a list take the server out of the origin sets of these routes. -/
theorem origins_removeOrigins (t : RouteOriginTracker) (server : ServerId) (order : List RouteKey)
    (r : RouteKey) :
    (removeOrigins server t order).1.origins r
      = if r ∈ order then (t.origins r).erase server else t.origins r := by
  induction order generalizing t with
  | nil => simp [removeOrigins]
  | cons r' order ih =>
    show (removeOrigins server (t.removeOrigin r'.1 r'.2.1 r'.2.2 server).1 order).1.origins r = _
    rw [ih, origins_removeOrigin]
    by_cases hr : r' = r
    · simp [hr]
    · simp [hr, Ne.symm hr]

/-- A route is withdrawn once, so what the other withdrawals do is not seen. -/
theorem removeOrigins_snd {order : List RouteKey} (hnodup : order.Nodup) :
    (removeOrigins server t order).2 = order.filter fun r => decide (t.origins r = {server}) := by
  induction order generalizing t with
  | nil => rfl
  | cons r order ih =>
    obtain ⟨hnew, hnodup'⟩ := List.nodup_cons.mp hnodup
    have hrest : (removeOrigins server (t.removeOrigin r.1 r.2.1 r.2.2 server).1 order).2
        = order.filter fun r' => decide (t.origins r' = {server}) := by
      rw [ih hnodup']
      refine List.filter_congr fun r' hmem => ?_
      have hne : r ≠ r' := fun h => hnew (h ▸ hmem)
      rw [origins_removeOrigin, if_neg hne]
    show (if (t.removeOrigin r.1 r.2.1 r.2.2 server).2 then
        r :: (removeOrigins server (t.removeOrigin r.1 r.2.1 r.2.2 server).1 order).2
      else (removeOrigins server (t.removeOrigin r.1 r.2.1 r.2.2 server).1 order).2) = _
    rw [removeOrigin_last, hrest, List.filter_cons]

/-- The calls are those on the routes that are removed. -/
theorem removeRoutes_snd (t : RouteOriginTracker) (server : ServerId) (order : List RouteKey) :
    (removeRoutes server t order).2
      = (removeOrigins server t order).2.map fun r => .removeRoute r.1 ⟨r.2.1, r.2.2⟩ := by
  induction order generalizing t with
  | nil => rfl
  | cons r order ih =>
    show (if (t.removeOrigin r.1 r.2.1 r.2.2 server).2 then _ else _) ++
      (removeRoutes server (t.removeOrigin r.1 r.2.1 r.2.2 server).1 order).2
      = List.map _ (if (t.removeOrigin r.1 r.2.1 r.2.2 server).2 then r :: _ else _)
    rw [ih]
    cases (t.removeOrigin r.1 r.2.1 r.2.2 server).2 with
    | false => rfl
    | true => rfl

/-! ### Both ways -/

/-- **The bulk removal of a server.** After any sequence of calls no stored origin set is empty,
and `remove_server` leaves the tracker that one withdrawal of every stored route leaves, in any
order. It returns, each once, the routes for which a withdrawal would have returned true, and
these are the routes with no other origin. The other origins stay. The user's handler gets the
same calls. -/
theorem removeServer_eq_withdrawals (ops : List TrackerOp) (server : ServerId)
    (order : List RouteKey) (horder : (order : Multiset RouteKey) = (after ops).stored) :
    (∀ r servers, (after ops).inner.lookup r = some servers → servers ≠ ∅) ∧
      ((after ops).removeServer server).1 = (removeOrigins server (after ops) order).1 ∧
      ((after ops).removeServer server).2 = (removeOrigins server (after ops) order).2 ∧
      ((after ops).removeServer server).2.Nodup ∧
      (∀ r, r ∈ ((after ops).removeServer server).2 ↔ (after ops).origins r = {server}) ∧
      (∀ r, ((after ops).removeServer server).1.origins r
        = ((after ops).origins r).erase server) ∧
      ((after ops).removeServerRoutes server).2.1 = (removeRoutes server (after ops) order).2 := by
  have hnodup : order.Nodup := by
    rw [← Multiset.coe_nodup, horder]
    exact (after ops).inner.keys.nodup
  have hmem : ∀ r, r ∈ order ↔ (after ops).origins r ≠ ∅ := fun r => by
    rw [← mem_stored, ← horder, Multiset.mem_coe]
  have hremoved : ((after ops).removeServer server).2
      = ((removeOrigins server (after ops) order).2 : Multiset RouteKey) := by
    rw [removeOrigins_snd hnodup]
    refine (Multiset.Nodup.ext (nodup_removeServer _ server)
      (Multiset.coe_nodup.mpr (hnodup.filter _))).mpr fun r => ?_
    rw [mem_removeServer, Multiset.mem_coe, List.mem_filter, hmem, decide_eq_true_iff]
    refine ⟨fun h => ⟨?_, h⟩, fun h => h.2⟩
    rw [h]
    exact Finset.singleton_ne_empty server
  refine ⟨(after ops).noEmpty, ext_origins fun r => ?_, hremoved, nodup_removeServer _ server,
    mem_removeServer _ server, origins_removeServer _ server, ?_⟩
  · -- A route that is not stored has no origin to lose.
    rw [origins_removeServer, origins_removeOrigins]
    split
    · rfl
    · rename_i hnot
      rw [not_not.mp fun h => hnot ((hmem r).mpr h)]
      rfl
  · show (((after ops).removeServer server).2.map _ : Multiset HandlerCall) = _
    rw [hremoved, removeRoutes_snd, Multiset.map_coe]

/-- Two servers announce a route, and the first of them announces another one. -/
def twoServers : List TrackerOp :=
  [ .addOrigin (⟨100⟩, makeDest 1, makeHop 1) ⟨0⟩,
    .addOrigin (⟨100⟩, makeDest 1, makeHop 1) ⟨1⟩,
    .addOrigin (⟨100⟩, makeDest 2, makeHop 1) ⟨0⟩ ]

/-- Of the routes of `twoServers`, only the second one is removed with its server. -/
theorem removeServer_eq_withdrawals_twoServers :
    ((after twoServers).removeServer ⟨0⟩).2
      = (removeOrigins ⟨0⟩ (after twoServers)
          [(⟨100⟩, makeDest 1, makeHop 1), (⟨100⟩, makeDest 2, makeHop 1)]).2 ∧
    (removeOrigins ⟨0⟩ (after twoServers)
      [(⟨100⟩, makeDest 1, makeHop 1), (⟨100⟩, makeDest 2, makeHop 1)]).2
      = [(⟨100⟩, makeDest 2, makeHop 1)] :=
  ⟨(removeServer_eq_withdrawals twoServers ⟨0⟩ _ (by decide)).2.2.1, by decide⟩

end RouteOriginTracker

end RustBond
