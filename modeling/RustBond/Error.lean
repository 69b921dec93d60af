import Mathlib.Init

/-!
# `RustBond.Error`: the errors of the library

The variants of `Error` in `src/error.rs`. What the libraries below report with an error is
left out.
-/

set_option autoImplicit false

namespace RustBond

inductive Error where
  | connection
  | protocol (text : String)
  | encoding
  | notEstablished
  | closed
  | timeout
  | connectionTimeout
  | alreadySubscribed (vni : UInt32)
  | notSubscribed (vni : UInt32)
  | routeAlreadyAnnounced
  | routeNotFound
  | netlink (text : String)
  | netlinkConnection
deriving DecidableEq

end RustBond
