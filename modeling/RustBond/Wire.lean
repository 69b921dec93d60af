import RustBond.Types

/-!
# `RustBond.Wire`: the messages of the protocol

The `Message` type of `src/wire.rs`. A stream between client and server is modelled as the
list of messages on it.
-/

set_option autoImplicit false

namespace RustBond

/-- A MetalBond message. -/
inductive Message where
  | hello (keepaliveInterval : UInt32) (isServer : Bool)
  | keepalive
  | subscribe (vni : Vni)
  | unsubscribe (vni : Vni)
  | update (action : Action) (vni : Vni) (destination : Destination) (nextHop : NextHop)
deriving DecidableEq

end RustBond
