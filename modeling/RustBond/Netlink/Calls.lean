import RustBond.Lib.Lts
import RustBond.Netlink.Client

/-!
# `RustBond.Netlink.Calls`: the calls of a handler

A handler gets each route once when it is added and once when it is removed, and calls
`add_route` and `remove_route` of its `NetlinkClient` then. The routes that it has are `active`.
It does not look at what a call returns: the handler of the example client only prints an error.

Between the calls, nothing else changes the routes of the kernel.
-/

set_option autoImplicit false

namespace RustBond.Netlink

structure Calls where
  fib : Fib
  active : HashSet RouteKey

namespace Calls

inductive Call where
  | add (route : RouteKey) (place : Nat)
  | remove (route : RouteKey)

/-- A call. `none` where a handler does not make it, or the VNI has no table. -/
def step (k : Kernel) (client : NetlinkClient) (s : Calls) (call : Call) : Option Calls :=
  match call with
  | .add (vni, dest, nextHop) place =>
    if (client.config.vniTableMap.lookup vni).isNone ∨ (vni, dest, nextHop) ∈ s.active then none
    else some
      { fib := ((client.addRoute k vni dest nextHop place s.fib).toOption).getD s.fib
        active := insert (vni, dest, nextHop) s.active }
  | .remove (vni, dest, nextHop) =>
    if (client.config.vniTableMap.lookup vni).isNone ∨ (vni, dest, nextHop) ∉ s.active then none
    else some
      { fib := ((client.removeRoute k vni dest nextHop s.fib).toOption).getD s.fib
        active := s.active.erase (vni, dest, nextHop) }

/-- A handler that begins with these routes in the kernel. -/
def lts (k : Kernel) (client : NetlinkClient) (fib : Fib) : Lts Calls Call where
  init := ⟨fib, ∅⟩
  step := step k client

end Calls

end RustBond.Netlink
