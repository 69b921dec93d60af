import RustBond.Proofs.Server.Ownership
import RustBond.Proofs.Server.Convergence
import RustBond.Proofs.Server.SlowConsumer
import RustBond.Proofs.Server.Echo
import RustBond.Proofs.Server.LateUpdates
import RustBond.Proofs.Server.Isolation
import RustBond.Proofs.Server.Withdrawals
import RustBond.Proofs.Server.SubscriptionTable
import RustBond.Proofs.Server.Deadline
import RustBond.Proofs.Client.Inbound
import RustBond.Proofs.Client.Interleaving
import RustBond.Proofs.Client.ServerRemoval
import RustBond.Proofs.Client.Subscriptions
import RustBond.Proofs.Client.Unsubscriptions
import RustBond.Proofs.Client.Announcements
import RustBond.Proofs.Client.Concurrent
import RustBond.Proofs.Client.FailedAnnounce
import RustBond.Proofs.Link
import RustBond.Proofs.Triples
import RustBond.Proofs.Keepalive
import RustBond.Proofs.Proto
import RustBond.Proofs.Wire.RoundTrip
import RustBond.Proofs.Wire.Accepted
import RustBond.Proofs.Wire.Identity
import RustBond.Proofs.Wire.Framing
import RustBond.Proofs.Wire.Handshake
import RustBond.Proofs.Netlink.Tables
import RustBond.Proofs.Netlink.Removal
import RustBond.Proofs.Netlink.Mirror
import RustBond.Proofs.Server.Settling
import RustBond.Proofs.Server.Departure
import RustBond.Proofs.Network
import RustBond.Proofs.Client.Views
import RustBond.Clocks
import RustBond.Proofs.Clocks
import RustBond.Client.Waiting
import RustBond.Proofs.Client.Waiting
import RustBond.Proofs.Client.Shutdown
import RustBond.Proofs.Server.Lifecycle
import RustBond.Proofs.Server.Provenance
import RustBond.Server.Streams
import RustBond.Proofs.Server.Streams
import RustBond.Proofs.Server.Arrival
