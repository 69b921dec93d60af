import RustBond.Clocks
import RustBond.Proofs.Keepalive
import RustBond.Proofs.Server.Deadline

/-!
# `RustBond.Proofs.Clocks`: which delays the keepalives survive

`survives_iff` shows that neither side gives the other one up as long as every delay is shorter
than the interval, and that a delay of a whole interval is too long. The timeout is two and a half
times the interval, but the server only answers. So two delays pass between a KEEPALIVE and its
answer, and the client looks at the time only when it ticks.

`Kept` is the invariant. It says for each side what keeps its timer from ending: a piece that it
will read before, or one on its way to the other side, which answers it (`Answered`, `Covered`,
`Heard`). `Ordered` says which pieces there are at which progress of the two sides.

Without a bound on the delays, the client still gives a silent server up in time (`gives_up`). The
server does not do so for a client (`Deadline.starved`).
-/

set_option autoImplicit false

namespace RustBond.Clocks

open Keepalive (Negotiated negotiate interval)

variable {client server : UInt32} {s s' : Clocks} {ls : List (Nat × Action)} {time : Nat}
  {packet : Packet} {piece : Piece} {split : Nat}

/-! ### What a side does -/

/-- Every packet of a written frame carries the time of the write; it is either the frame's last
piece or one of the meaningless bytes before it. -/
theorem of_mem_frame (h : packet ∈ frame time split piece) :
    packet.sentAt = time ∧ (packet.piece = .bytes ∨ packet.piece = piece) := by
  rcases List.mem_append.mp h with h | h
  · cases List.eq_of_mem_replicate h
    exact ⟨rfl, .inl rfl⟩
  · cases List.mem_singleton.mp h
    exact ⟨rfl, .inr rfl⟩

/-- However a frame is cut, its last piece goes out with it: this is the packet on which the
reader decodes the message. -/
theorem mem_frame (time split : Nat) (piece : Piece) : ⟨piece, time⟩ ∈ frame time split piece :=
  List.mem_append_right _ List.mem_cons_self

/-- Ending a connection writes the end of the stream and nothing else. -/
theorem mem_closing : packet ∈ closing time ↔ packet = ⟨.fin, time⟩ := List.mem_singleton

/-- A step of the client: its phases before and after, the piece that it reads, and what it
writes. -/
inductive ClientMoves (client : UInt32) (time : Nat) :
    ClientPhase → Option Piece → ClientPhase → List Packet → Prop
  | hello (split : Nat) :
    ClientMoves client time .connected none .awaitingHello (frame time split (.hello client))
  | negotiated {advertised : UInt32} {n : Negotiated} (split : Nat)
      (hn : negotiate client advertised = some n) :
    ClientMoves client time .awaitingHello (some (.hello advertised))
      (.awaitingKeepalive n (time + n.keepaliveTimeout.asNanos)) (frame time split .keepalive)
  | established {n : Negotiated} {deadline : Nat} :
    ClientMoves client time (.awaitingKeepalive n deadline) (some .keepalive)
      (.looping n time time) []
  | received {n : Negotiated} {last next : Nat} {piece : Piece} (hpiece : piece ≠ .fin) :
    ClientMoves client time (.looping n last next) (some piece) (.looping n time next) []
  | ticked {n : Negotiated} {last : Nat} (split : Nat)
      (hlast : time ≤ last + n.keepaliveTimeout.asNanos) :
    ClientMoves client time (.looping n last time) none
      (.looping n last (time + n.keepaliveDuration.asNanos)) (frame time split .keepalive)
  | wrote {n : Negotiated} {last next : Nat} :
    ClientMoves client time (.looping n last next) none (.looping n last next) [⟨.bytes, time⟩]
  | left {phase : ClientPhase} {piece : Option Piece} (hphase : phase.isLeft = false)
      (hread : phase = .connected → piece = none) :
    ClientMoves client time phase piece (.left false) (closing time)
  | unanswered {n : Negotiated} :
    ClientMoves client time (.awaitingKeepalive n time) none (.left true) (closing time)
  | timedOut {n : Negotiated} {last : Nat} (hlast : last + n.keepaliveTimeout.asNanos < time) :
    ClientMoves client time (.looping n last time) none (.left true) (closing time)

/-- The client's answer to a HELLO is one of its moves: a HELLO of its own and the wait for the
KEEPALIVE, or the end of the connection. -/
theorem clientHello_moves (client : UInt32) (time split : Nat) (piece : Piece) :
    ClientMoves client time .awaitingHello (some piece) (clientHello client time split piece).1
      (clientHello client time split piece).2 := by
  cases piece with
  | keepalive | bytes | fin => exact .left rfl (by simp)
  | hello advertised =>
    simp only [clientHello]
    cases hn : negotiate client advertised with
    | none => exact .left rfl (by simp)
    | some n => exact .negotiated split hn

/-- In the second half of the handshake the client either enters its main loop, with both clocks
set to the present, or leaves. -/
theorem clientKeepalive_moves (client : UInt32) (time : Nat) (n : Negotiated) (deadline : Nat)
    (piece : Piece) :
    ClientMoves client time (.awaitingKeepalive n deadline) (some piece)
      (clientKeepalive time n piece).1 (clientKeepalive time n piece).2 := by
  cases piece with
  | hello | bytes | fin => exact .left rfl (by simp)
  | keepalive =>
    simp only [clientKeepalive]
    cases interval n.keepaliveDuration with
    | none => exact .left rfl (by simp)
    | some _ => exact .established

/-- Each read of the client, in whatever phase it happens, is one of the moves that `ClientMoves`
lists. Together with `clientTimer_moves` this is all the proofs below use of the client's code. -/
theorem clientRead_moves {phase phase' : ClientPhase} {sent : List Packet}
    (h : clientRead client time split phase piece = some (phase', sent)) :
    ClientMoves client time phase (some piece) phase' sent := by
  cases phase with
  | connected => cases h
  | left => cases h
  | awaitingHello =>
    have heq : clientHello client time split piece = (phase', sent) := Option.some.inj h
    have hmoves := clientHello_moves client time split piece
    rwa [heq] at hmoves
  | awaitingKeepalive n deadline =>
    have heq : clientKeepalive time n piece = (phase', sent) := Option.some.inj h
    have hmoves := clientKeepalive_moves client time n deadline piece
    rwa [heq] at hmoves
  | looping n last next =>
    cases piece with
    | fin => cases h; exact .left rfl (by simp)
    | hello | bytes | keepalive => cases h; exact .received (by simp)

/-- The client's ticks and timeouts are moves as well: they read nothing. -/
theorem clientTimer_moves {phase phase' : ClientPhase} {sent : List Packet}
    (h : clientTimer time split phase = some (phase', sent)) :
    ClientMoves client time phase none phase' sent := by
  cases phase with
  | connected | awaitingHello | left => cases h
  | awaitingKeepalive n deadline =>
    obtain ⟨rfl, heq⟩ := Option.ite_none_right_eq_some.mp h
    cases heq
    exact .unanswered
  | looping n last next =>
    obtain ⟨rfl, heq⟩ := Option.ite_none_right_eq_some.mp h
    split at heq
    · rename_i hlate
      cases heq
      exact .timedOut (Nat.add_lt_of_lt_sub' hlate)
    · rename_i hintime
      cases heq
      exact .ticked split (by omega)

/-- A step of the server. -/
inductive ServerMoves (server : UInt32) (time : Nat) :
    ServerPhase → Option Piece → ServerPhase → List Packet → Prop
  | negotiated {advertised : UInt32} {n : Negotiated} (split : Nat)
      (hn : negotiate server advertised = some n) :
    ServerMoves server time .awaitingHello (some (.hello advertised))
      (.awaitingKeepalive n (time + n.keepaliveTimeout.asNanos)) (frame time split (.hello server))
  | established {n : Negotiated} {deadline : Nat} (split : Nat) :
    ServerMoves server time (.awaitingKeepalive n deadline) (some .keepalive)
      (.looping n (Deadline.new time n.keepaliveTimeout.asNanos)) (frame time split .keepalive)
  | answered {n : Negotiated} {clock clock' : Deadline} (split : Nat)
      (hclock : clock'.lastReceived = time) :
    ServerMoves server time (.looping n clock) (some .keepalive) (.looping n clock')
      (frame time split .keepalive)
  | received {n : Negotiated} {clock clock' : Deadline} {piece : Piece} (hpiece : piece ≠ .fin)
      (hkeepalive : piece ≠ .keepalive) (hclock : clock'.lastReceived = time) :
    ServerMoves server time (.looping n clock) (some piece) (.looping n clock') []
  | passed {n : Negotiated} {clock clock' : Deadline} {sent : List Packet}
      (hsent : ∀ packet ∈ sent, packet = ⟨.bytes, time⟩)
      (hclock : clock'.lastReceived = clock.lastReceived) :
    ServerMoves server time (.looping n clock) none (.looping n clock') sent
  | left {phase : ServerPhase} {piece : Option Piece} (hphase : phase.isLeft = false) :
    ServerMoves server time phase piece (.left false) (closing time)
  | unanswered {n : Negotiated} :
    ServerMoves server time (.awaitingKeepalive n time) none (.left true) (closing time)
  | timedOut {n : Negotiated} {clock : Deadline}
      (hclock : clock.lastReceived + n.keepaliveTimeout.asNanos < time) :
    ServerMoves server time (.looping n clock) none (.left true) (closing time)

/-- The server's answer to the client's HELLO: its own HELLO and a KEEPALIVE, or the end of the
connection. -/
theorem serverHello_moves (server : UInt32) (time split : Nat) (piece : Piece) :
    ServerMoves server time .awaitingHello (some piece) (serverHello server time split piece).1
      (serverHello server time split piece).2 := by
  cases piece with
  | keepalive | bytes | fin => exact .left rfl
  | hello advertised =>
    simp only [serverHello]
    cases hn : negotiate server advertised with
    | none => exact .left rfl
    | some n => exact .negotiated split hn

section
variable {n : Negotiated} {clock : Deadline} {phase' : ServerPhase} {sent sent' : List Packet}

/-- An iteration is one of a running loop. -/
theorem serverBranch_eq_some {branch : Branch}
    (h : serverBranch n clock time branch sent = some (phase', sent')) :
    clock.result = none ∧ ∃ clock',
      { clock with now := time }.branch n.keepaliveTimeout.asNanos branch = some clock' ∧
      (match clock'.result with
        | none => (.looping n clock', sent)
        | some (.error .timeout) => (.left true, closing time)
        | some _ => (.left false, closing time)) = (phase', sent') := by
  obtain ⟨clock', hstep, heq⟩ := Option.map_eq_some_iff.mp h
  obtain ⟨hrunning, hbranch⟩ := Option.ite_none_left_eq_some.mp hstep
  exact ⟨by simpa using fun h => hrunning (.inl h), clock', hbranch, heq⟩

/-- A closed stream ends the server's main loop without a timeout. -/
theorem serverBranch_closed
    (h : serverBranch n clock time (.read .closed) sent = some (phase', sent')) :
    phase' = .left false ∧ sent' = closing time := by
  obtain ⟨-, clock', hbranch, heq⟩ := serverBranch_eq_some h
  cases hbranch
  cases heq
  exact ⟨rfl, rfl⟩

/-- A read of bytes alone, with no message completed, still counts as something received:
`last_received` is set before the decoding. -/
theorem serverBranch_bytes
    (h : serverBranch n clock time (.read (.bytes none)) sent = some (phase', sent')) :
    ∃ clock', clock'.lastReceived = time ∧ phase' = .looping n clock' ∧ sent' = sent := by
  obtain ⟨hrunning, clock', hbranch, heq⟩ := serverBranch_eq_some h
  cases hbranch
  simp only [Deadline.next, hrunning] at heq
  obtain ⟨hphase, hsent⟩ := Prod.mk.inj heq
  refine ⟨_, ?_, hphase.symm, hsent.symm⟩
  rfl

/-- Writing a batch of updates leaves `last_received` as it was, so the other traffic cannot keep
a silent client alive. -/
theorem serverBranch_batch
    (h : serverBranch n clock time (.batch true) sent = some (phase', sent')) :
    ∃ clock', clock'.lastReceived = clock.lastReceived ∧ phase' = .looping n clock' ∧
      sent' = sent := by
  obtain ⟨hrunning, clock', hbranch, heq⟩ := serverBranch_eq_some h
  cases hbranch
  simp only [Deadline.next, hrunning] at heq
  obtain ⟨hphase, hsent⟩ := Prod.mk.inj heq
  refine ⟨_, ?_, hphase.symm, hsent.symm⟩
  rfl

/-- The sleep of the `select!` either finds the client alive and goes on, or finds it silent for
longer than the timeout and ends the connection. -/
theorem serverBranch_sleep
    (h : serverBranch n clock time .sleep sent = some (phase', sent')) :
    (∃ clock', clock'.lastReceived = clock.lastReceived ∧ phase' = .looping n clock' ∧
      sent' = sent) ∨
    (clock.lastReceived + n.keepaliveTimeout.asNanos < time ∧ phase' = .left true ∧
      sent' = closing time) := by
  obtain ⟨hrunning, clock', hbranch, heq⟩ := serverBranch_eq_some h
  obtain ⟨-, hbranch⟩ := Option.ite_none_left_eq_some.mp hbranch
  split at hbranch
  · rename_i hlate
    cases hbranch
    cases heq
    exact .inr ⟨Nat.add_lt_of_lt_sub' hlate, rfl, rfl⟩
  · cases hbranch
    simp only [Deadline.next, hrunning] at heq
    obtain ⟨hphase, hsent⟩ := Prod.mk.inj heq
    refine .inl ⟨_, ?_, hphase.symm, hsent.symm⟩
    rfl

/-- Each read of the server, in whatever phase it happens, is one of the moves that `ServerMoves`
lists. -/
theorem serverRead_moves {phase : ServerPhase}
    (h : serverRead server time split phase piece = some (phase', sent')) :
    ServerMoves server time phase (some piece) phase' sent' := by
  cases phase with
  | left => cases h
  | awaitingHello =>
    have heq : serverHello server time split piece = (phase', sent') := Option.some.inj h
    have hmoves := serverHello_moves server time split piece
    rwa [heq] at hmoves
  | awaitingKeepalive n deadline =>
    cases piece with
    | keepalive => cases h; exact .established split
    | hello | bytes | fin => cases h; exact .left rfl
  | looping n clock =>
    cases piece with
    | fin =>
      obtain ⟨rfl, rfl⟩ := serverBranch_closed h
      exact .left rfl
    | hello | bytes =>
      obtain ⟨clock', hclock, rfl, rfl⟩ := serverBranch_bytes h
      exact .received (by simp) (by simp) hclock
    | keepalive =>
      obtain ⟨clock', hclock, rfl, rfl⟩ := serverBranch_bytes h
      exact .answered split hclock

/-- The server's handshake timeout and its re-armed sleep are moves that read nothing. -/
theorem serverTimer_moves {phase : ServerPhase}
    (h : serverTimer time phase = some (phase', sent')) :
    ServerMoves server time phase none phase' sent' := by
  cases phase with
  | awaitingHello | left => cases h
  | awaitingKeepalive n deadline =>
    obtain ⟨rfl, heq⟩ := Option.ite_none_right_eq_some.mp h
    cases heq
    exact .unanswered
  | looping n clock =>
    obtain ⟨clock', hclock, rfl, rfl⟩ | ⟨hlate, rfl, rfl⟩ := serverBranch_sleep h
    · exact .passed (by simp) hclock
    · exact .timedOut hlate

/-- Writing a batch of updates is a move of the server that reads nothing and sends only
meaningless bytes. -/
theorem serverWrite_moves {phase : ServerPhase}
    (h : serverWrite time phase = some (phase', sent')) :
    ServerMoves server time phase none phase' sent' := by
  cases phase with
  | awaitingHello | awaitingKeepalive | left => cases h
  | looping n clock =>
    obtain ⟨clock', hclock, rfl, rfl⟩ := serverBranch_batch h
    exact .passed (by simp) hclock

end

/-! ### A step -/

/-- What a step does: one side moves, and reads the first piece of the stream to it or none. -/
inductive Moves (client server : UInt32) (s s' : Clocks) (time : Nat) : Prop
  | client {phase' : ClientPhase} (read : Option Packet) {rest sent : List Packet}
      (hread : s.toClient = read.toList ++ rest)
      (hmoves : ClientMoves client time s.client (read.map Packet.piece) phase' sent)
      (hs' : s' = ⟨time, phase', s.server, s.toServer ++ sent, rest⟩) :
      Moves client server s s' time
  | server {phase' : ServerPhase} (read : Option Packet) {rest sent : List Packet}
      (hread : s.toServer = read.toList ++ rest)
      (hmoves : ServerMoves server time s.server (read.map Packet.piece) phase' sent)
      (hs' : s' = ⟨time, s.client, phase', rest, s.toClient ++ sent⟩) :
      Moves client server s s' time

/-- The inversion of `step`: a step happens on time, and it is a move of the client or a move of
the server. Each invariant below is proved from this by cases. -/
theorem moves_of_step {l : Nat × Action} (h : step client server s l = some s') :
    s.OnTime l.1 ∧ Moves client server s s' l.1 := by
  obtain ⟨time, action⟩ := l
  obtain ⟨hontime, hmap⟩ := Option.ite_none_right_eq_some.mp h
  obtain ⟨s'', hact, rfl⟩ := Option.map_eq_some_iff.mp hmap
  refine ⟨hontime, ?_⟩
  -- A step that reads nothing.
  have hclient : ∀ {result : Option (ClientPhase × List Packet)},
      (∀ phase' sent, result = some (phase', sent) →
        ClientMoves client time s.client none phase' sent) →
      s.ofClient result = some s'' →
      Moves client server s { s'' with now := time } time := by
    intro result hmoves h
    obtain ⟨⟨phase', sent⟩, hresult, rfl⟩ := Option.map_eq_some_iff.mp h
    exact .client none rfl (hmoves phase' sent hresult) rfl
  have hserver : ∀ {result : Option (ServerPhase × List Packet)},
      (∀ phase' sent, result = some (phase', sent) →
        ServerMoves server time s.server none phase' sent) →
      s.ofServer result = some s'' →
      Moves client server s { s'' with now := time } time := by
    intro result hmoves h
    obtain ⟨⟨phase', sent⟩, hresult, rfl⟩ := Option.map_eq_some_iff.mp h
    exact .server none rfl (hmoves phase' sent hresult) rfl
  cases action with
  | hello split =>
    simp only [act] at hact
    split at hact
    · rename_i hphase
      refine hclient ?_ hact
      intro phase' sent heq
      cases heq
      rw [hphase]
      exact .hello split
    · cases hact
  | clientRead split =>
    simp only [act] at hact
    split at hact
    · cases hact
    · rename_i packet rest hstream
      obtain ⟨⟨phase', sent⟩, hresult, rfl⟩ := Option.map_eq_some_iff.mp hact
      exact .client (some packet) hstream (clientRead_moves hresult) rfl
  | clientTimer split => exact hclient (fun _ _ => clientTimer_moves) hact
  | clientWrite =>
    refine hclient ?_ hact
    intro phase' sent heq
    revert heq
    cases s.client with
    | connected | awaitingHello | awaitingKeepalive | left => intro heq; cases heq
    | looping => intro heq; cases heq; exact .wrote
  | clientLeave =>
    obtain ⟨hleft, hact⟩ := Option.ite_none_left_eq_some.mp hact
    refine hclient ?_ hact
    intro phase' sent heq
    cases heq
    exact .left (by simpa using hleft) (by simp)
  | serverRead split =>
    simp only [act] at hact
    split at hact
    · cases hact
    · rename_i packet rest hstream
      obtain ⟨⟨phase', sent⟩, hresult, rfl⟩ := Option.map_eq_some_iff.mp hact
      exact .server (some packet) hstream (serverRead_moves hresult) rfl
  | serverTimer => exact hserver (fun _ _ => serverTimer_moves) hact
  | serverWrite => exact hserver (fun _ _ => serverWrite_moves) hact
  | serverLeave =>
    obtain ⟨hleft, hact⟩ := Option.ite_none_left_eq_some.mp hact
    refine hserver ?_ hact
    intro phase' sent heq
    cases heq
    exact .left (by simpa using hleft)

/-! ### What keeps the timers from ending -/

/-- The interval that the sides negotiate. -/
def period (client server : UInt32) : Nat := (min client server).toNat * 1000000000

/-- The durations for this period. -/
structure Agreed (period : Nat) (n : Negotiated) : Prop where
  duration : n.keepaliveDuration.asNanos = period
  timeout : n.keepaliveTimeout.asNanos = period * 5 / 2

/-- What the client negotiates from the two intervals is agreed with the server's period. -/
theorem agreed_client {n : Negotiated} (h : negotiate client server = some n) :
    Agreed (period client server) n := by
  obtain ⟨n', hn', hduration, htimeout⟩ := Keepalive.negotiate_eq client server
  rw [h] at hn'
  cases hn'
  exact ⟨hduration, htimeout⟩

/-- What the server negotiates agrees with the same period, the minimum being symmetric. -/
theorem agreed_server {n : Negotiated} (h : negotiate server client = some n) :
    Agreed (period client server) n :=
  agreed_client (by rwa [Keepalive.negotiate_comm])

/-- How far a side has come. -/
def ClientPhase.progress (phase : ClientPhase) : Nat :=
  match phase with
  | .connected => 0
  | .awaitingHello => 1
  | .awaitingKeepalive _ _ => 2
  | .looping _ _ _ => 3
  | .left _ => 4

def ServerPhase.progress (phase : ServerPhase) : Nat :=
  match phase with
  | .awaitingHello => 1
  | .awaitingKeepalive _ _ => 2
  | .looping _ _ => 3
  | .left _ => 4

section
variable {phase phase' : ClientPhase} {read : Option Piece} {sent : List Packet}

/-- A move of the client writes now. -/
theorem ClientMoves.sentAt (h : ClientMoves client time phase read phase' sent) :
    ∀ packet ∈ sent, packet.sentAt = time := by
  intro packet hpacket
  cases h with
  | hello | negotiated | ticked => exact (of_mem_frame hpacket).1
  | established | received => cases hpacket
  | wrote => rw [List.mem_singleton.mp hpacket]
  | left | unanswered | timedOut => rw [mem_closing.mp hpacket]

/-- The only HELLO a client ever writes carries its own interval. -/
theorem ClientMoves.sent_hello (h : ClientMoves client time phase read phase' sent) :
    ∀ packet ∈ sent, ∀ i, packet.piece = .hello i → i = client := by
  intro packet hpacket i hi
  cases h with
  | hello =>
    have hpiece := (of_mem_frame hpacket).2
    simpa [hi, eq_comm] using hpiece
  | negotiated | ticked =>
    have hpiece := (of_mem_frame hpacket).2
    simp [hi] at hpiece
  | established | received => cases hpacket
  | wrote => simp [List.mem_singleton.mp hpacket] at hi
  | left | unanswered | timedOut => simp [mem_closing.mp hpacket] at hi

/-- The client writes a KEEPALIVE from its main loop on and not before. -/
theorem ClientMoves.sent_keepalive (h : ClientMoves client time phase read phase' sent) :
    ∀ packet ∈ sent, packet.piece = .keepalive → 2 ≤ phase'.progress := by
  intro packet hpacket hkeepalive
  cases h with
  | hello =>
    have hpiece := (of_mem_frame hpacket).2
    simp [hkeepalive] at hpiece
  | negotiated | established | received | ticked | wrote | left | unanswered | timedOut =>
    simp [ClientPhase.progress]

/-- A step goes on, but not from the end. -/
theorem ClientMoves.progress (h : ClientMoves client time phase read phase' sent) :
    phase.progress ≤ phase'.progress ∧ phase.progress < 4 ∧ 0 < phase'.progress := by
  cases h with
  | @left phase _ hphase _ =>
    cases phase with
    | left => cases hphase
    | connected | awaitingHello | awaitingKeepalive | looping => simp [ClientPhase.progress]
  | hello | negotiated | established | received | ticked | wrote | unanswered | timedOut =>
    simp [ClientPhase.progress]

/-- The HELLO and the KEEPALIVE of the server are read. -/
theorem ClientMoves.reads (h : ClientMoves client time phase read phase' sent) :
    (phase'.progress = 2 → ∃ i, read = some (.hello i)) ∧
      (phase'.progress = 3 → phase.progress = 3 ∨ read = some .keepalive) := by
  cases h with
  | hello | negotiated | established | received | ticked | wrote | left | unanswered
  | timedOut => simp [ClientPhase.progress]

/-- The client leaves with the end of its stream, and at the end of the other one. -/
theorem ClientMoves.fin (h : ClientMoves client time phase read phase' sent) :
    (phase'.progress = 4 → ⟨.fin, time⟩ ∈ sent) ∧ (read = some .fin → phase'.progress = 4) := by
  cases h with
  | hello | negotiated | established | ticked | wrote => simp [ClientPhase.progress]
  | received hpiece => simp [ClientPhase.progress, hpiece]
  | left | unanswered | timedOut => simp [ClientPhase.progress, closing]

end

section
variable {phase phase' : ServerPhase} {read : Option Piece} {sent : List Packet}

/-- A move of the server writes now. -/
theorem ServerMoves.sentAt (h : ServerMoves server time phase read phase' sent) :
    ∀ packet ∈ sent, packet.sentAt = time := by
  intro packet hpacket
  cases h with
  | negotiated | established | answered => exact (of_mem_frame hpacket).1
  | received => cases hpacket
  | passed hsent _ => rw [hsent packet hpacket]
  | left | unanswered | timedOut => rw [mem_closing.mp hpacket]

/-- The only HELLO a server ever writes carries its own interval. -/
theorem ServerMoves.sent_hello (h : ServerMoves server time phase read phase' sent) :
    ∀ packet ∈ sent, ∀ i, packet.piece = .hello i → i = server := by
  intro packet hpacket i hi
  cases h with
  | negotiated =>
    have hpiece := (of_mem_frame hpacket).2
    simpa [hi, eq_comm] using hpiece
  | established | answered =>
    have hpiece := (of_mem_frame hpacket).2
    simp [hi] at hpiece
  | received => cases hpacket
  | passed hsent _ => simp [hsent packet hpacket] at hi
  | left | unanswered | timedOut => simp [mem_closing.mp hpacket] at hi

/-- The server writes a KEEPALIVE once it has sent its HELLO and not before. -/
theorem ServerMoves.sent_keepalive (h : ServerMoves server time phase read phase' sent) :
    ∀ packet ∈ sent, packet.piece = .keepalive → 3 ≤ phase'.progress := by
  intro packet hpacket hkeepalive
  cases h with
  | negotiated =>
    have hpiece := (of_mem_frame hpacket).2
    simp [hkeepalive] at hpiece
  | established | answered | received | passed | left | unanswered | timedOut =>
    simp [ServerPhase.progress]

/-- A move of the server starts before it has left and never takes it back to the wait for a
HELLO. -/
theorem ServerMoves.progress (h : ServerMoves server time phase read phase' sent) :
    phase.progress < 4 ∧ 1 < phase'.progress ∧
      (phase'.progress = 2 → phase.progress = 1) := by
  cases h with
  | @left phase _ hphase =>
    cases phase with
    | left => cases hphase
    | awaitingHello | awaitingKeepalive | looping => simp [ServerPhase.progress]
  | negotiated | established | answered | received | passed | unanswered | timedOut =>
    simp [ServerPhase.progress]

/-- The server is in its main loop only after it has read a KEEPALIVE. -/
theorem ServerMoves.reads (h : ServerMoves server time phase read phase' sent) :
    phase'.progress = 3 → phase.progress = 3 ∨ read = some .keepalive := by
  cases h with
  | negotiated | established | answered | received | passed | left | unanswered | timedOut =>
    simp [ServerPhase.progress]

/-- A server that leaves writes the end of its stream, and one that reads the end leaves. -/
theorem ServerMoves.fin (h : ServerMoves server time phase read phase' sent) :
    (phase'.progress = 4 → ⟨.fin, time⟩ ∈ sent) ∧ (read = some .fin → phase'.progress = 4) := by
  cases h with
  | negotiated | established | answered | passed => simp [ServerPhase.progress]
  | received hpiece => simp [ServerPhase.progress, hpiece]
  | left | unanswered | timedOut => simp [ServerPhase.progress, closing]

end

/-- The progress of the sides and the pieces between them fit together. -/
structure Ordered (client server : UInt32) (s : Clocks) : Prop where
  stampedServer : ∀ packet ∈ s.toServer, packet.sentAt ≤ s.now
  stampedClient : ∀ packet ∈ s.toClient, packet.sentAt ≤ s.now
  helloServer : ∀ packet ∈ s.toServer, ∀ i, packet.piece = .hello i → i = client
  helloClient : ∀ packet ∈ s.toClient, ∀ i, packet.piece = .hello i → i = server
  silent : s.client.progress = 0 → s.toServer = []
  early : s.client.progress ≤ 1 → ∀ packet ∈ s.toServer, packet.piece ≠ .keepalive
  unheard : s.server.progress = 1 →
    s.toClient = [] ∧ s.client.progress ≠ 2 ∧ s.client.progress ≠ 3
  unanswered : s.server.progress = 2 →
    s.client.progress ≠ 3 ∧ ∀ packet ∈ s.toClient, packet.piece ≠ .keepalive
  heard : s.server.progress = 3 → 2 ≤ s.client.progress
  clientLeft : s.client.progress = 4 →
    s.server.progress = 4 ∨ ∃ packet ∈ s.toServer, packet.piece = .fin
  serverLeft : s.server.progress = 4 →
    s.client.progress = 4 ∨ ∃ packet ∈ s.toClient, packet.piece = .fin

/-- Before the first step nothing is in flight and both parties wait, so the order holds
trivially. -/
theorem ordered_init : Ordered client server init := by
  constructor <;> simp [init, ClientPhase.progress, ServerPhase.progress]

/-- What is left of a stream is on it. -/
theorem mem_of_mem_rest {read : Option Packet} {rest stream : List Packet}
    (hread : stream = read.toList ++ rest) (h : packet ∈ rest) : packet ∈ stream :=
  hread ▸ List.mem_append_right _ h

/-- A packet on a stream is read or left. -/
theorem read_or_rest {read : Option Packet} {rest stream : List Packet}
    (hread : stream = read.toList ++ rest) (h : packet ∈ stream) :
    read = some packet ∨ packet ∈ rest := by
  rw [hread] at h
  exact (List.mem_append.mp h).imp_left fun h => Option.mem_toList.mp h

/-- A move of the client keeps the order: the packet it reads comes off the front of its stream,
what it writes is appended to the server's with the present time. -/
theorem ordered_client {phase' : ClientPhase} {read : Option Packet} {rest sent : List Packet}
    (h : Ordered client server s) (htime : s.now ≤ time)
    (hread : s.toClient = read.toList ++ rest)
    (hmoves : ClientMoves client time s.client (read.map Packet.piece) phase' sent) :
    Ordered client server ⟨time, phase', s.server, s.toServer ++ sent, rest⟩ := by
  obtain ⟨hle, hrunning, hpos⟩ := hmoves.progress
  refine
    { stampedServer := ?_, stampedClient := ?_, helloServer := ?_, helloClient := ?_,
      silent := ?_, early := ?_, unheard := ?_, unanswered := ?_, heard := ?_,
      clientLeft := ?_, serverLeft := ?_ }
  · intro packet hpacket
    rcases List.mem_append.mp hpacket with hpacket | hpacket
    · exact Nat.le_trans (h.stampedServer packet hpacket) htime
    · exact Nat.le_of_eq (hmoves.sentAt packet hpacket)
  · intro packet hpacket
    exact Nat.le_trans (h.stampedClient packet (mem_of_mem_rest hread hpacket)) htime
  · intro packet hpacket
    rcases List.mem_append.mp hpacket with hpacket | hpacket
    · exact h.helloServer packet hpacket
    · exact hmoves.sent_hello packet hpacket
  · exact fun packet hpacket => h.helloClient packet (mem_of_mem_rest hread hpacket)
  · intro hzero
    simp only at hzero
    omega
  · intro hearly packet hpacket hkeepalive
    rcases List.mem_append.mp hpacket with hpacket | hpacket
    · exact h.early (Nat.le_trans hle hearly) packet hpacket hkeepalive
    · have hlate := hmoves.sent_keepalive packet hpacket hkeepalive
      simp only at hearly
      omega
  · intro hserver
    obtain ⟨hempty, htwo, hthree⟩ := h.unheard hserver
    obtain ⟨hnone, hrest⟩ := List.append_eq_nil_iff.mp (hread ▸ hempty)
    have hread' : read = none := Option.toList_eq_nil_iff.mp hnone
    refine ⟨hrest, ?_, ?_⟩
    · intro hphase
      obtain ⟨i, hi⟩ := hmoves.reads.1 hphase
      simp [hread'] at hi
    · intro hphase
      rcases hmoves.reads.2 hphase with hloop | hi
      · exact hthree hloop
      · simp [hread'] at hi
  · intro hserver
    obtain ⟨hthree, hnone⟩ := h.unanswered hserver
    refine ⟨?_, fun packet hpacket => hnone packet (mem_of_mem_rest hread hpacket)⟩
    intro hphase
    rcases hmoves.reads.2 hphase with hloop | hi
    · exact hthree hloop
    · obtain ⟨packet, rfl, hpiece⟩ := Option.map_eq_some_iff.mp hi
      exact hnone packet (by simp [hread]) hpiece
  · exact fun hserver => Nat.le_trans (h.heard hserver) hle
  · exact fun hphase => .inr ⟨_, List.mem_append_right _ (hmoves.fin.1 hphase), rfl⟩
  · intro hserver
    rcases h.serverLeft hserver with hclient | ⟨packet, hpacket, hfin⟩
    · omega
    · rcases read_or_rest hread hpacket with hi | hrest
      · exact .inl (hmoves.fin.2 (by simp [hi, hfin]))
      · exact .inr ⟨packet, hrest, hfin⟩

/-- A move of the server keeps the order, for the same reasons with the streams exchanged. -/
theorem ordered_server {phase' : ServerPhase} {read : Option Packet} {rest sent : List Packet}
    (h : Ordered client server s) (htime : s.now ≤ time)
    (hread : s.toServer = read.toList ++ rest)
    (hmoves : ServerMoves server time s.server (read.map Packet.piece) phase' sent) :
    Ordered client server ⟨time, s.client, phase', rest, s.toClient ++ sent⟩ := by
  obtain ⟨hrunning, hpos, hback⟩ := hmoves.progress
  refine
    { stampedServer := ?_, stampedClient := ?_, helloServer := ?_, helloClient := ?_,
      silent := ?_, early := ?_, unheard := ?_, unanswered := ?_, heard := ?_,
      clientLeft := ?_, serverLeft := ?_ }
  · intro packet hpacket
    exact Nat.le_trans (h.stampedServer packet (mem_of_mem_rest hread hpacket)) htime
  · intro packet hpacket
    rcases List.mem_append.mp hpacket with hpacket | hpacket
    · exact Nat.le_trans (h.stampedClient packet hpacket) htime
    · exact Nat.le_of_eq (hmoves.sentAt packet hpacket)
  · exact fun packet hpacket => h.helloServer packet (mem_of_mem_rest hread hpacket)
  · intro packet hpacket
    rcases List.mem_append.mp hpacket with hpacket | hpacket
    · exact h.helloClient packet hpacket
    · exact hmoves.sent_hello packet hpacket
  · exact fun hclient => (List.append_eq_nil_iff.mp (hread ▸ h.silent hclient)).2
  · exact fun hclient packet hpacket => h.early hclient packet (mem_of_mem_rest hread hpacket)
  · intro hserver
    simp only at hserver
    omega
  · intro hserver
    obtain ⟨hempty, -, hthree⟩ := h.unheard (hback hserver)
    refine ⟨hthree, ?_⟩
    intro packet hpacket hkeepalive
    rw [hempty, List.nil_append] at hpacket
    have hlate := hmoves.sent_keepalive packet hpacket hkeepalive
    simp only at hserver
    omega
  · intro hserver
    rcases hmoves.reads hserver with hloop | hi
    · exact h.heard hloop
    · obtain ⟨packet, rfl, hpiece⟩ := Option.map_eq_some_iff.mp hi
      by_contra hearly
      exact h.early (by simp only at hearly; omega) packet (by simp [hread]) hpiece
  · intro hclient
    rcases h.clientLeft hclient with hserver | ⟨packet, hpacket, hfin⟩
    · omega
    · rcases read_or_rest hread hpacket with hi | hrest
      · exact .inl (hmoves.fin.2 (by simp [hi, hfin]))
      · exact .inr ⟨packet, hrest, hfin⟩
  · exact fun hphase => .inr ⟨_, List.mem_append_right _ (hmoves.fin.1 hphase), rfl⟩

/-- The timer ends after the answer has been read. Either it is on its way, or the other side sends
it when it reads what is on its way there. -/
def Answered (latency deadline : Nat) (ready : Prop) (toMe toPeer : List Packet) : Prop :=
  (∃ packet ∈ toMe, packet.sentAt + latency < deadline) ∨
    (ready ∧ ∃ packet ∈ toPeer, packet.sentAt + 2 * latency < deadline)

/-- Something is read within `bound` before the next tick of the client: it has been, or it is the
answer to the KEEPALIVE that was sent so long before, or it is on its way. -/
def Covered (period latency : Nat) (server : ServerPhase) (toServer toClient : List Packet)
    (last next bound : Nat) : Prop :=
  next ≤ last + bound ∨
  (server.progress = 3 ∧
    ∃ packet ∈ toServer, packet.piece = .keepalive ∧ packet.sentAt + bound = next) ∨
  ∃ packet ∈ toClient, packet.sentAt + bound + latency < next + 2 * period ∧
    (packet.piece = .fin ∨ next ≤ packet.sentAt + bound)

/-- The client keeps its connection. -/
def ClientOk (period latency : Nat) (s : Clocks) : Prop :=
  match s.client with
  | .awaitingKeepalive n deadline => Agreed period n ∧
    Answered latency deadline (s.server.progress = 2) s.toClient s.toServer
  | .looping n last next => Agreed period n ∧ last ≤ s.now ∧
    Covered period latency s.server s.toServer s.toClient last next period ∧
    Covered period latency s.server s.toServer s.toClient last next (2 * period)
  | .connected | .awaitingHello => True
  | .left timedOut => timedOut = false

/-- The server, which has received something at `last`, hears of the client again. -/
def Heard (period latency : Nat) (s : Clocks) (last : Nat) : Prop :=
  match s.client with
  | .awaitingKeepalive _ _ => ∃ packet ∈ s.toClient, packet.sentAt ≤ last
  | .looping _ _ next => next ≤ last + 2 * period ∧
    (next ≤ last + period ∨
      ∃ packet ∈ s.toServer, packet.piece = .keepalive ∧ packet.sentAt + period = next)
  | .left _ => ∃ packet ∈ s.toServer, packet.sentAt + latency ≤ last + 2 * period
  | .connected | .awaitingHello => True

/-- The server keeps its connection. -/
def ServerOk (period latency : Nat) (s : Clocks) : Prop :=
  match s.server with
  | .awaitingKeepalive n deadline => Agreed period n ∧
    Answered latency deadline (s.client.progress = 1) s.toServer s.toClient
  | .looping n clock => Agreed period n ∧ clock.lastReceived ≤ s.now ∧
    Heard period latency s clock.lastReceived
  | .awaitingHello => True
  | .left timedOut => timedOut = false

/-! ### Steps of the client -/

section
variable {period latency : Nat} {phase' : ClientPhase} {read : Option Packet}
  {rest sent : List Packet}

/-- After a tick in time, the next tick is covered by what the last one was covered by, and by the
KEEPALIVE that was sent. -/
theorem covered_tick {now last : Nat} {serverPhase : ServerPhase} {toServer toClient : List Packet}
    (split : Nat) (hlatency : latency < period) (htime : now ≤ time)
    (hcovered : Covered period latency serverPhase toServer toClient last time period)
    (hserver : serverPhase.progress = 3 ∨
      ∃ packet ∈ toClient, packet.piece = .fin ∧ packet.sentAt ≤ now) :
    Covered period latency serverPhase (toServer ++ frame time split .keepalive) toClient last
        (time + period) period ∧
      Covered period latency serverPhase (toServer ++ frame time split .keepalive) toClient last
        (time + period) (2 * period) := by
  constructor
  · rcases hserver with hloop | ⟨packet, hpacket, hfin, hsent⟩
    · exact .inr (.inl ⟨hloop, _, List.mem_append_right _ (mem_frame ..), rfl, rfl⟩)
    · exact .inr (.inr ⟨packet, hpacket, by omega, .inl hfin⟩)
  · rcases hcovered with hread | ⟨hloop, packet, hpacket, hkeepalive, hsent⟩ |
      ⟨packet, hpacket, hlt, hpiece⟩
    · exact .inl (by omega)
    · exact .inr (.inl ⟨hloop, packet, List.mem_append_left _ hpacket, hkeepalive, by omega⟩)
    · exact .inr (.inr ⟨packet, hpacket, by omega, hpiece.imp_right fun _ => by omega⟩)

/-- What a read leaves covered. -/
theorem covered_read {now last next bound : Nat} {serverPhase : ServerPhase} {packet : Packet}
    {toServer : List Packet} (htime : now ≤ time) (hpiece : packet.piece ≠ .fin)
    (hsent : packet.sentAt ≤ now) (hlast : last ≤ now)
    (h : Covered period latency serverPhase toServer (packet :: rest) last next bound) :
    Covered period latency serverPhase toServer rest time next bound := by
  rcases h with hread | hkeepalive | ⟨packet', hpacket', hlt, hpiece'⟩
  · exact .inl (by omega)
  · exact .inr (.inl hkeepalive)
  · rcases List.mem_cons.mp hpacket' with rfl | hrest
    · have hnext := hpiece'.resolve_left hpiece
      exact .inl (by omega)
    · exact .inr (.inr ⟨packet', hrest, hlt, hpiece'⟩)

/-- More packets behind the ones on their way to the server take nothing away from a promise that
already covers the deadline. -/
theorem Covered.write {last next bound : Nat} {serverPhase : ServerPhase}
    {toServer toClient : List Packet} (sent : List Packet)
    (h : Covered period latency serverPhase toServer toClient last next bound) :
    Covered period latency serverPhase (toServer ++ sent) toClient last next bound := by
  rcases h with hread | ⟨hloop, packet, hpacket, hkeepalive⟩ | hanswer
  · exact .inl hread
  · exact .inr (.inl ⟨hloop, packet, List.mem_append_left _ hpacket, hkeepalive⟩)
  · exact .inr (.inr hanswer)

/-- The client's own move keeps the client's promise. When it reads a KEEPALIVE it renews
`last_received`, when it writes one the answer is due two latencies later, and the tick that would
end the connection finds that promise kept. -/
theorem clientOk_client (hlatency : latency < Clocks.period client server)
    (h : Ordered client server s) (hontime : s.OnTime time)
    (hprompt : ∀ packet ∈ s.toClient, time ≤ packet.sentAt + latency)
    (hpromptServer : s.server.progress < 4 → ∀ packet ∈ s.toServer,
      time ≤ packet.sentAt + latency)
    (hok : ClientOk (Clocks.period client server) latency s)
    (hread : s.toClient = read.toList ++ rest)
    (hmoves : ClientMoves client time s.client (read.map Packet.piece) phase' sent) :
    ClientOk (Clocks.period client server) latency
      ⟨time, phase', s.server, s.toServer ++ sent, rest⟩ := by
  obtain ⟨now, phase, serverPhase, toServer, toClient⟩ := s
  obtain ⟨htime : now ≤ time, -⟩ := hontime
  have hserver : serverPhase.progress = 1 ∨ serverPhase.progress = 2 ∨ serverPhase.progress = 3 ∨
      serverPhase.progress = 4 := by cases serverPhase <;> simp [ServerPhase.progress]
  simp only at hread hprompt hpromptServer hmoves
  generalize hpiece : read.map Packet.piece = piece at hmoves
  cases hmoves with
  | hello => trivial
  | left => rfl
  | @negotiated advertised n split hn =>
    obtain ⟨packet, rfl, hhello⟩ := Option.map_eq_some_iff.mp hpiece
    have hpacket : packet ∈ toClient := by simp [hread]
    -- The HELLO tells the interval of the server.
    have hadvertised : advertised = server := h.helloClient packet hpacket advertised hhello
    have hagreed := agreed_client (hadvertised ▸ hn)
    have htimeout := hagreed.timeout
    refine ⟨hagreed, ?_⟩
    rcases hserver with hone | htwo | hthree | hfour
    · have hempty : toClient = [] := (h.unheard hone).1
      simp [hempty] at hpacket
    · exact .inr ⟨htwo, _, List.mem_append_right _ (mem_frame ..), by
        show time + 2 * latency < _
        omega⟩
    · have hheard := h.heard hthree
      simp [ClientPhase.progress] at hheard
    · rcases h.serverLeft hfour with hleft | ⟨last, hlast, hfin⟩
      · simp [ClientPhase.progress] at hleft
      · have hsent := h.stampedClient last hlast
        rcases read_or_rest hread hlast with heq | hrest
        · cases heq
          simp [hhello] at hfin
        · exact .inl ⟨last, hrest, by simp only at hsent; omega⟩
  | established =>
    exact ⟨hok.1, Nat.le_refl time, .inl (Nat.le_add_right ..), .inl (Nat.le_add_right ..)⟩
  | @received n last next _ hnotfin =>
    obtain ⟨packet, rfl, rfl⟩ := Option.map_eq_some_iff.mp hpiece
    obtain ⟨hagreed, hlast, hone, htwo⟩ := hok
    have hsent := h.stampedClient packet (by simp [hread])
    simp only [Option.toList_some, List.singleton_append] at hread
    subst hread
    rw [List.append_nil]
    exact ⟨hagreed, Nat.le_refl time, covered_read htime hnotfin hsent hlast hone,
      covered_read htime hnotfin hsent hlast htwo⟩
  | @ticked n last split hintime =>
    have hnone := Option.map_eq_none_iff.mp hpiece
    obtain ⟨hagreed, hlast, hone, -⟩ := hok
    have hserver' : serverPhase.progress = 3 ∨
        ∃ packet ∈ toClient, packet.piece = .fin ∧ packet.sentAt ≤ now := by
      rcases hserver with hone | htwo | hthree | hfour
      · exact absurd rfl (h.unheard hone).2.2
      · exact absurd rfl (h.unanswered htwo).1
      · exact .inl hthree
      · rcases h.serverLeft hfour with hleft | ⟨packet, hpacket, hfin⟩
        · simp [ClientPhase.progress] at hleft
        · exact .inr ⟨packet, hpacket, hfin, h.stampedClient packet hpacket⟩
    have hcovered := covered_tick split hlatency htime hone hserver'
    subst hnone
    cases hread
    refine ⟨hagreed, Nat.le_trans hlast htime, ?_⟩
    rw [hagreed.duration]
    exact hcovered
  | wrote =>
    have hnone := Option.map_eq_none_iff.mp hpiece
    obtain ⟨hagreed, hlast, hone, htwo⟩ := hok
    subst hnone
    cases hread
    exact ⟨hagreed, Nat.le_trans hlast htime, hone.write _, htwo.write _⟩
  | unanswered =>
    -- The answer would have been read before.
    rcases hok.2 with ⟨packet, hpacket, hlt⟩ | ⟨htwo, packet, hpacket, hlt⟩
    · have hread := hprompt packet hpacket
      omega
    · have hread := hpromptServer (by simp only at htwo; omega) packet hpacket
      omega
  | @timedOut n last hlate =>
    obtain ⟨hagreed, hlast, -, htwo⟩ := hok
    have htimeout := hagreed.timeout
    rcases htwo with hread | ⟨hthree, packet, hpacket, -, hsent⟩ | ⟨packet, hpacket, hlt, -⟩
    · omega
    · have hread := hpromptServer (by simp only at hthree; omega) packet hpacket
      omega
    · have hread := hprompt packet hpacket
      omega

/-- What the server waits for is on its way, whatever the client does. -/
theorem serverOk_client (hlatency : latency < Clocks.period client server)
    (h : Ordered client server s) (hontime : s.OnTime time)
    (hprompt : ∀ packet ∈ s.toClient, time ≤ packet.sentAt + latency)
    (hpromptServer : s.server.progress < 4 → ∀ packet ∈ s.toServer,
      time ≤ packet.sentAt + latency)
    (hclient : ClientOk (Clocks.period client server) latency s)
    (hok : ServerOk (Clocks.period client server) latency s)
    (hread : s.toClient = read.toList ++ rest)
    (hmoves : ClientMoves client time s.client (read.map Packet.piece) phase' sent) :
    ServerOk (Clocks.period client server) latency
      ⟨time, phase', s.server, s.toServer ++ sent, rest⟩ := by
  obtain ⟨now, phase, serverPhase, toServer, toClient⟩ := s
  obtain ⟨htime : now ≤ time, hdue, -⟩ := hontime
  simp only at hread hprompt hpromptServer hmoves
  generalize read.map Packet.piece = piece at hmoves
  cases serverPhase with
  | awaitingHello => trivial
  | left => exact hok
  | awaitingKeepalive n deadline =>
    obtain ⟨hagreed, ⟨packet, hpacket, hlt⟩ | ⟨hphase, packet, hpacket, hlt⟩⟩ := hok
    · exact ⟨hagreed, .inl ⟨packet, List.mem_append_left _ hpacket, hlt⟩⟩
    · -- The client answers a HELLO, or its stream ends.
      have hsoon : time + latency < deadline := by
        have hlate := hprompt packet hpacket
        omega
      refine ⟨hagreed, .inl ?_⟩
      cases hmoves with
      | negotiated split _ =>
        exact ⟨_, List.mem_append_right _ (mem_frame ..), hsoon⟩
      | left => exact ⟨_, List.mem_append_right _ (mem_closing.mpr rfl), hsoon⟩
      | hello | established | received | ticked | wrote | unanswered | timedOut =>
        simp [ClientPhase.progress] at hphase
  | looping n clock =>
    obtain ⟨hagreed, hlast, hheard⟩ := hok
    refine ⟨hagreed, Nat.le_trans hlast htime, ?_⟩
    have hprogress : 2 ≤ phase.progress := h.heard rfl
    -- The end of the stream is as good as a KEEPALIVE.
    have hleave : ∃ packet ∈ toServer ++ closing time, packet.sentAt + latency
        ≤ clock.lastReceived + 2 * Clocks.period client server := by
      cases phase with
      | connected | awaitingHello => simp [ClientPhase.progress] at hprogress
      | left =>
        obtain ⟨packet, hpacket, hle⟩ := hheard
        exact ⟨packet, List.mem_append_left _ hpacket, hle⟩
      | awaitingKeepalive =>
        obtain ⟨packet, hpacket, hle⟩ := hheard
        have hlate := hprompt packet hpacket
        exact ⟨_, List.mem_append_right _ (mem_closing.mpr rfl), by
          show time + latency ≤ _
          omega⟩
      | looping _ _ next =>
        have hnext : time ≤ next := hdue next rfl
        obtain ⟨htwo, hone | ⟨packet, hpacket, -, hsent⟩⟩ := hheard
        · exact ⟨_, List.mem_append_right _ (mem_closing.mpr rfl), by
            show time + latency ≤ _
            omega⟩
        · exact ⟨packet, List.mem_append_left _ hpacket, by omega⟩
    cases hmoves with
    | hello | negotiated => simp [ClientPhase.progress] at hprogress
    | left | unanswered | timedOut => exact hleave
    | established =>
      obtain ⟨packet, hpacket, hle⟩ := hheard
      have hlate := hprompt packet hpacket
      exact ⟨by omega, .inl (by omega)⟩
    | received =>
      rw [List.append_nil]
      exact hheard
    | @ticked n' _ split _ =>
      -- The last KEEPALIVE has been read, as it was sent more than the latency before.
      have hone : time ≤ clock.lastReceived + Clocks.period client server := by
        rcases hheard.2 with hone | ⟨packet, hpacket, -, hsent⟩
        · exact hone
        · have hlate := hpromptServer (Nat.lt_succ_self 3) packet hpacket
          omega
      have hduration : n'.keepaliveDuration.asNanos = Clocks.period client server :=
        hclient.1.duration
      refine ⟨?_, .inr ⟨_, List.mem_append_right _ (mem_frame ..), rfl, ?_⟩⟩
      · omega
      · rw [hduration]
    | wrote =>
      obtain ⟨htwo, hone⟩ := hheard
      refine ⟨htwo, hone.imp_right ?_⟩
      rintro ⟨packet, hpacket, hpiece⟩
      exact ⟨packet, List.mem_append_left _ hpacket, hpiece⟩

end

/-! ### Steps of the server -/

section
variable {latency : Nat} {phase' : ServerPhase} {read : Option Packet} {rest sent : List Packet}

/-- The server has the KEEPALIVE still before it, has answered it, or has left. -/
theorem covered_server {period now last next bound : Nat} {phase : ServerPhase}
    {piece : Option Piece} {toServer toClient : List Packet} (hlatency : latency < period)
    (htime : now ≤ time) (hstamped : ∀ packet ∈ toServer, packet.sentAt ≤ now)
    (hprompt : ∀ packet ∈ toServer, time ≤ packet.sentAt + latency)
    (hread : toServer = read.toList ++ rest) (hpiece : read.map Packet.piece = piece)
    (hmoves : ServerMoves server time phase piece phase' sent)
    (h : Covered period latency phase toServer toClient last next bound) :
    Covered period latency phase' rest (toClient ++ sent) last next bound := by
  rcases h with hdone | ⟨hloop, packet, hpacket, hkeepalive, hsent⟩ | ⟨packet, hpacket, hanswer⟩
  · exact .inl hdone
  · have hbefore := hstamped packet hpacket
    have hsoon := hprompt packet hpacket
    cases hmoves with
    | negotiated | established | unanswered => simp [ServerPhase.progress] at hloop
    | left | timedOut =>
      refine .inr (.inr ⟨_, List.mem_append_right _ (mem_closing.mpr rfl), ?_, .inl rfl⟩)
      show time + bound + latency < _
      omega
    | answered split _ =>
      refine .inr (.inr ⟨_, List.mem_append_right _ (mem_frame ..), ?_, .inr ?_⟩)
      · show time + bound + latency < _
        omega
      · show next ≤ time + bound
        omega
    | received hnotfin hother _ =>
      rcases read_or_rest hread hpacket with rfl | hrest
      · cases hpiece
        exact absurd hkeepalive hother
      · exact .inr (.inl ⟨rfl, packet, hrest, hkeepalive, hsent⟩)
    | passed =>
      rcases read_or_rest hread hpacket with rfl | hrest
      · cases hpiece
      · exact .inr (.inl ⟨rfl, packet, hrest, hkeepalive, hsent⟩)
  · exact .inr (.inr ⟨packet, List.mem_append_left _ hpacket, hanswer⟩)

/-- What the client waits for is on its way, whatever the server does. -/
theorem clientOk_server (hlatency : latency < Clocks.period client server)
    (h : Ordered client server s) (hontime : s.OnTime time)
    (hprompt : ∀ packet ∈ s.toServer, time ≤ packet.sentAt + latency)
    (hok : ClientOk (Clocks.period client server) latency s)
    (hread : s.toServer = read.toList ++ rest)
    (hmoves : ServerMoves server time s.server (read.map Packet.piece) phase' sent) :
    ClientOk (Clocks.period client server) latency
      ⟨time, s.client, phase', rest, s.toClient ++ sent⟩ := by
  obtain ⟨now, phase, serverPhase, toServer, toClient⟩ := s
  obtain ⟨htime : now ≤ time, -⟩ := hontime
  simp only at hread hprompt hmoves
  generalize hpiece : read.map Packet.piece = piece at hmoves
  cases phase with
  | connected | awaitingHello => trivial
  | left => exact hok
  | awaitingKeepalive n deadline =>
    obtain ⟨hagreed, ⟨packet, hpacket, hlt⟩ | ⟨hphase, packet, hpacket, hlt⟩⟩ := hok
    · exact ⟨hagreed, .inl ⟨packet, List.mem_append_left _ hpacket, hlt⟩⟩
    · have hsoon : time + latency < deadline := by
        have hlate := hprompt packet hpacket
        omega
      refine ⟨hagreed, .inl ?_⟩
      cases hmoves with
      | established split => exact ⟨_, List.mem_append_right _ (mem_frame ..), hsoon⟩
      | left | unanswered => exact ⟨_, List.mem_append_right _ (mem_closing.mpr rfl), hsoon⟩
      | negotiated | answered | received | passed | timedOut =>
        simp [ServerPhase.progress] at hphase
  | looping n last next =>
    obtain ⟨hagreed, hlast, hone, htwo⟩ := hok
    exact ⟨hagreed, Nat.le_trans hlast htime,
      covered_server hlatency htime h.stampedServer hprompt hread hpiece hmoves hone,
      covered_server hlatency htime h.stampedServer hprompt hread hpiece hmoves htwo⟩

/-- A read tells the server that the client is there. -/
theorem heard_read {packet : Packet} {last : Nat} (hlatency : latency < Clocks.period client server)
    (h : Ordered client server s) (htime : s.now ≤ time) (hrunning : s.server.progress < 4)
    (hread : s.toServer = packet :: rest) (hnotfin : packet.piece ≠ .fin) (hlast : last ≤ s.now)
    (hheard : Heard (Clocks.period client server) latency s last) :
    Heard (Clocks.period client server) latency
      ⟨time, s.client, phase', rest, s.toClient ++ sent⟩ time := by
  obtain ⟨now, phase, serverPhase, toServer, toClient⟩ := s
  simp only at hread htime hrunning hlast
  cases phase with
  | connected | awaitingHello => trivial
  | awaitingKeepalive =>
    obtain ⟨packet', hpacket', hle⟩ := hheard
    exact ⟨packet', List.mem_append_left _ hpacket', by omega⟩
  | looping _ _ next =>
    obtain ⟨htwo, hone⟩ := hheard
    refine ⟨by omega, ?_⟩
    rcases hone with hone | ⟨packet', hpacket', hkeepalive, hsent⟩
    · exact .inl (by omega)
    · have hbefore : packet'.sentAt ≤ now := h.stampedServer packet' hpacket'
      rcases List.mem_cons.mp (hread ▸ hpacket') with rfl | hrest
      · exact .inl (by omega)
      · exact .inr ⟨packet', hrest, hkeepalive, hsent⟩
  | left =>
    -- The end of the stream is still to be read.
    rcases h.clientLeft rfl with hleft | ⟨packet', hpacket', hfin⟩
    · simp only at hleft
      omega
    · have hbefore : packet'.sentAt ≤ now := h.stampedServer packet' hpacket'
      rcases List.mem_cons.mp (hread ▸ hpacket') with rfl | hrest
      · exact absurd hfin hnotfin
      · exact ⟨packet', hrest, by omega⟩

/-- The server's own move keeps the server's promise: whatever it reads renews the deadline, and
its sleep finds the client's last KEEPALIVE within the timeout. -/
theorem serverOk_server (hlatency : latency < Clocks.period client server)
    (h : Ordered client server s) (hontime : s.OnTime time)
    (hprompt : ∀ packet ∈ s.toServer, time ≤ packet.sentAt + latency)
    (hpromptClient : s.client.progress < 4 → ∀ packet ∈ s.toClient,
      time ≤ packet.sentAt + latency)
    (hok : ServerOk (Clocks.period client server) latency s)
    (hread : s.toServer = read.toList ++ rest)
    (hmoves : ServerMoves server time s.server (read.map Packet.piece) phase' sent) :
    ServerOk (Clocks.period client server) latency
      ⟨time, s.client, phase', rest, s.toClient ++ sent⟩ := by
  obtain ⟨now, phase, serverPhase, toServer, toClient⟩ := s
  obtain ⟨htime : now ≤ time, hdue, -⟩ := hontime
  simp only at hread hprompt hpromptClient hmoves
  generalize hpiece : read.map Packet.piece = piece at hmoves
  cases hmoves with
  | left => rfl
  | @negotiated advertised n split hn =>
    obtain ⟨packet, rfl, hhello⟩ := Option.map_eq_some_iff.mp hpiece
    have hpacket : packet ∈ toServer := by simp [hread]
    have hadvertised : advertised = client := h.helloServer packet hpacket advertised hhello
    have hagreed := agreed_server (hadvertised ▸ hn)
    have htimeout := hagreed.timeout
    obtain ⟨-, htwo, hthree⟩ := h.unheard rfl
    refine ⟨hagreed, ?_⟩
    cases phase with
    | connected =>
      have hempty : toServer = [] := h.silent rfl
      simp [hempty] at hpacket
    | awaitingHello =>
      exact .inr ⟨rfl, _, List.mem_append_right _ (mem_frame ..), by
        show time + 2 * latency < _
        omega⟩
    | awaitingKeepalive => exact absurd rfl htwo
    | looping => exact absurd rfl hthree
    | left =>
      rcases h.clientLeft rfl with hleft | ⟨last, hlast, hfin⟩
      · simp [ServerPhase.progress] at hleft
      · have hsent : last.sentAt ≤ now := h.stampedServer last hlast
        rcases read_or_rest hread hlast with heq | hrest
        · cases heq
          simp [hhello] at hfin
        · exact .inl ⟨last, hrest, by omega⟩
  | @established n deadline split =>
    obtain ⟨packet, rfl, hkeepalive⟩ := Option.map_eq_some_iff.mp hpiece
    have hpacket : packet ∈ toServer := by simp [hread]
    refine ⟨hok.1, Nat.le_refl time, ?_⟩
    cases phase with
    | connected | awaitingHello => trivial
    | awaitingKeepalive => exact ⟨_, List.mem_append_right _ (mem_frame ..), Nat.le_refl time⟩
    | looping => exact absurd rfl (h.unanswered rfl).1
    | left =>
      rcases h.clientLeft rfl with hleft | ⟨last, hlast, hfin⟩
      · simp [ServerPhase.progress] at hleft
      · have hsent : last.sentAt ≤ now := h.stampedServer last hlast
        rcases read_or_rest hread hlast with heq | hrest
        · cases heq
          simp [hkeepalive] at hfin
        · refine ⟨last, hrest, ?_⟩
          show last.sentAt + latency ≤ time + 2 * Clocks.period client server
          omega
  | @answered n clock clock' split hclock =>
    obtain ⟨packet, rfl, hkeepalive⟩ := Option.map_eq_some_iff.mp hpiece
    obtain ⟨hagreed, hlast, hheard⟩ := hok
    refine ⟨hagreed, Nat.le_of_eq hclock, ?_⟩
    rw [hclock]
    exact heard_read hlatency h htime (Nat.lt_succ_self 3) hread (by simp [hkeepalive]) hlast hheard
  | @received n clock clock' _ hnotfin hother hclock =>
    obtain ⟨packet, rfl, rfl⟩ := Option.map_eq_some_iff.mp hpiece
    obtain ⟨hagreed, hlast, hheard⟩ := hok
    refine ⟨hagreed, Nat.le_of_eq hclock, ?_⟩
    rw [hclock]
    exact heard_read hlatency h htime (Nat.lt_succ_self 3) hread hnotfin hlast hheard
  | @passed n clock clock' sent hsent hclock =>
    have hnone := Option.map_eq_none_iff.mp hpiece
    obtain ⟨hagreed, hlast, hheard⟩ := hok
    subst hnone
    cases hread
    refine ⟨hagreed, by rw [hclock]; exact Nat.le_trans hlast htime, ?_⟩
    rw [hclock]
    cases phase with
    | connected | awaitingHello => trivial
    | looping | left => exact hheard
    | awaitingKeepalive =>
      obtain ⟨packet, hpacket, hle⟩ := hheard
      exact ⟨packet, List.mem_append_left _ hpacket, hle⟩
  | unanswered =>
    rcases hok.2 with ⟨packet, hpacket, hlt⟩ | ⟨hone, packet, hpacket, hlt⟩
    · have hlate := hprompt packet hpacket
      omega
    · have hlate := hpromptClient (by simp only at hone; omega) packet hpacket
      omega
  | @timedOut n clock hclock =>
    obtain ⟨hagreed, hlast, hheard⟩ := hok
    have htimeout := hagreed.timeout
    have hprogress : 2 ≤ phase.progress := h.heard rfl
    cases phase with
    | connected | awaitingHello => simp [ClientPhase.progress] at hprogress
    | awaitingKeepalive =>
      obtain ⟨packet, hpacket, hle⟩ := hheard
      have hlate := hpromptClient (by simp [ClientPhase.progress]) packet hpacket
      omega
    | looping _ _ next =>
      have hnext : time ≤ next := hdue next rfl
      have htwo := hheard.1
      omega
    | left =>
      obtain ⟨packet, hpacket, hle⟩ := hheard
      have hlate := hprompt packet hpacket
      omega

end

/-! ### Runs -/

/-- For the client, having left is the last of the numbered phases. -/
theorem isLeft_client {phase : ClientPhase} : phase.isLeft = false ↔ phase.progress < 4 := by
  cases phase <;> simp [ClientPhase.isLeft, ClientPhase.progress]

/-- For the server, having left is the last of the numbered phases. -/
theorem isLeft_server {phase : ServerPhase} : phase.isLeft = false ↔ phase.progress < 4 := by
  cases phase <;> simp [ServerPhase.isLeft, ServerPhase.progress]

/-- The invariant of the prompt runs. -/
structure Kept (client server : UInt32) (latency : Nat) (s : Clocks) : Prop where
  ordered : Ordered client server s
  clientOk : ClientOk (period client server) latency s
  serverOk : ServerOk (period client server) latency s

/-- A step on time keeps the order and both promises, whichever party makes it. -/
theorem kept_step {latency : Nat} {l : Nat × Action} (hlatency : latency < period client server)
    (h : Kept client server latency s) (hprompt : Prompt latency s l)
    (hs : step client server s l = some s') : Kept client server latency s' := by
  obtain ⟨hontime, hmoves⟩ := moves_of_step hs
  obtain ⟨hserver, hclient⟩ := hprompt
  rw [isLeft_server] at hserver
  rw [isLeft_client] at hclient
  cases hmoves with
  | client _ hread hmoves hs' =>
    subst hs'
    have hprompt := hclient hmoves.progress.2.1
    exact ⟨ordered_client h.ordered hontime.1 hread hmoves,
      clientOk_client hlatency h.ordered hontime hprompt hserver h.clientOk hread hmoves,
      serverOk_client hlatency h.ordered hontime hprompt hserver h.clientOk h.serverOk hread hmoves⟩
  | server _ hread hmoves hs' =>
    subst hs'
    have hprompt := hserver hmoves.progress.1
    exact ⟨ordered_server h.ordered hontime.1 hread hmoves,
      clientOk_server hlatency h.ordered hontime hprompt h.clientOk hread hmoves,
      serverOk_server hlatency h.ordered hontime hprompt hclient h.serverOk hread hmoves⟩

/-- In a run where every packet is read within the latency, order and promises hold in every
state. -/
theorem kept_of_run {latency : Nat} (hlatency : latency < period client server)
    (hrun : (lts client server).Run ls s)
    (hprompt : (lts client server).Throughout (Prompt latency) ls) :
    Kept client server latency s := by
  have hinit : Kept client server latency init := ⟨ordered_init, trivial, trivial⟩
  have hstep : ∀ ls s l s', (lts client server).Run ls s → Kept client server latency s →
      Prompt latency s l → step client server s l = some s' → Kept client server latency s' :=
    fun _ _ _ _ _ h hok hs => kept_step hlatency h hok hs
  exact hrun.invariant_of_throughout hinit hstep hprompt

/-- Kept promises mean that neither party has left for want of a KEEPALIVE. -/
theorem Kept.not_timedOut {latency : Nat} (h : Kept client server latency s) : ¬ s.TimedOut := by
  obtain ⟨-, hclient, hserver⟩ := h
  rintro (htimedOut | htimedOut)
  · rw [ClientOk, htimedOut] at hclient
    cases hclient
  · rw [ServerOk, htimedOut] at hserver
    cases hserver

/-! ### A delay of a whole interval -/

/-- A prompt run to this state. -/
def Promptly (client server : UInt32) (latency : Nat) (s : Clocks) : Prop :=
  ∃ ls, (lts client server).Run ls s ∧ (lts client server).Throughout (Prompt latency) ls

/-- With nothing in flight, nothing is late. -/
theorem promptly_init (client server : UInt32) (latency : Nat) :
    Promptly client server latency init :=
  ⟨[], .nil, Lts.throughout_nil _⟩

/-- A prompt step by either party leaves only packets that the other may still read in time: the
old ones were looked at when the step was made, the new ones carry its time. -/
theorem Promptly.step {latency : Nat} {clientPhase : ClientPhase} {serverPhase : ServerPhase}
    {toServer toClient : List Packet} (h : Promptly client server latency s) (l : Nat × Action)
    (hontime : s.OnTime l.1)
    (hprompt : ∀ packet ∈ s.toServer ++ s.toClient, l.1 ≤ packet.sentAt + latency)
    (hact : s.act client server l.1 l.2
      = some ⟨s.now, clientPhase, serverPhase, toServer, toClient⟩) :
    Promptly client server latency ⟨l.1, clientPhase, serverPhase, toServer, toClient⟩ := by
  obtain ⟨ls, hrun, hthrough⟩ := h
  have hstep : (lts client server).step s l
      = some ⟨l.1, clientPhase, serverPhase, toServer, toClient⟩ := by
    show (if s.OnTime l.1 then (s.act client server l.1 l.2).map _ else none) = _
    rw [if_pos hontime, hact]
    rfl
  refine ⟨ls ++ [l], hrun.snoc hstep, (Lts.throughout_snoc hrun).mpr ⟨hthrough, ?_, ?_⟩⟩
  · exact fun _ packet hpacket => hprompt packet (List.mem_append_left _ hpacket)
  · exact fun _ packet hpacket => hprompt packet (List.mem_append_right _ hpacket)

section
variable {n n' : Negotiated}

/-- The two sides get to their main loops at once. -/
theorem promptly_established (latency : Nat) (hn : negotiate client server = some n)
    (hn' : negotiate server client = some n') (hpositive : 0 < period client server) :
    Promptly client server latency ⟨0, .looping n 0 0,
      .looping n' (Deadline.new 0 n'.keepaliveTimeout.asNanos), [], []⟩ := by
  have hinterval : interval n.keepaliveDuration ≠ none := by
    rw [Ne, Keepalive.interval_eq_none, (agreed_client hn).duration]
    omega
  obtain ⟨d, hd⟩ := Option.ne_none_iff_exists'.mp hinterval
  have h : Promptly client server latency
      ⟨0, .awaitingHello, .awaitingHello, [⟨.hello client, 0⟩], []⟩ :=
    (promptly_init client server latency).step (0, .hello 0) (by decide) (by simp [init]) rfl
  have h : Promptly client server latency ⟨0, .awaitingHello,
      .awaitingKeepalive n' (0 + n'.keepaliveTimeout.asNanos), [], [⟨.hello server, 0⟩]⟩ :=
    h.step (0, .serverRead 0) (by simp [OnTime, ClientPhase.due, ServerPhase.due]) (by simp)
      (by simp [act, frame, ofServer, serverRead, serverHello, hn'])
  have h : Promptly client server latency ⟨0,
      .awaitingKeepalive n (0 + n.keepaliveTimeout.asNanos),
      .awaitingKeepalive n' (0 + n'.keepaliveTimeout.asNanos), [⟨.keepalive, 0⟩], []⟩ :=
    h.step (0, .clientRead 0) (by simp [OnTime, ClientPhase.due, ServerPhase.due]) (by simp)
      (by simp [act, frame, ofClient, Clocks.clientRead, clientHello, hn])
  have h : Promptly client server latency ⟨0,
      .awaitingKeepalive n (0 + n.keepaliveTimeout.asNanos),
      .looping n' (Deadline.new 0 n'.keepaliveTimeout.asNanos), [], [⟨.keepalive, 0⟩]⟩ :=
    h.step (0, .serverRead 0) (by simp [OnTime, ClientPhase.due, ServerPhase.due]) (by simp) rfl
  exact h.step (0, .clientRead 0) (by simp [OnTime, ClientPhase.due, ServerPhase.due]) (by simp)
    (by simp [act, ofClient, Clocks.clientRead, clientKeepalive, hd])

/-- With a delay of a whole interval, the answer to a KEEPALIVE is read when the timer of the client
ends for the third time after the last read. -/
theorem promptly_timedOut {latency : Nat} (hn : negotiate client server = some n)
    (hn' : negotiate server client = some n') (hpositive : 0 < period client server)
    (hlatency : period client server ≤ latency) :
    ∃ s, Promptly client server latency s ∧ s.TimedOut := by
  have h := promptly_established latency hn hn' hpositive
  obtain ⟨hduration, htimeout⟩ := agreed_client hn
  have htimeout' := (agreed_server hn').timeout
  generalize period client server = period at *
  have h : Promptly client server latency ⟨0, .looping n 0 period,
      .looping n' (Deadline.new 0 n'.keepaliveTimeout.asNanos), [⟨.keepalive, 0⟩], []⟩ :=
    h.step (0, .clientTimer 0) (by simp [OnTime, ClientPhase.due, ServerPhase.due, Deadline.new])
      (by simp) (by simp [act, frame, ofClient, Clocks.clientTimer, hduration])
  have h : Promptly client server latency ⟨0, .looping n 0 period,
      .looping n' (Deadline.new 0 n'.keepaliveTimeout.asNanos), [], [⟨.keepalive, 0⟩]⟩ :=
    h.step (0, .serverRead 0) (by simp [OnTime, ClientPhase.due, ServerPhase.due, Deadline.new])
      (by simp)
      (by simp [act, frame, ofServer, Clocks.serverRead, serverBranch, Deadline.step, Deadline.new,
        Deadline.branch, Deadline.next])
  have h : Promptly client server latency ⟨0, .looping n 0 period,
      .looping n' (Deadline.new 0 n'.keepaliveTimeout.asNanos), [], []⟩ :=
    h.step (0, .clientRead 0) (by simp [OnTime, ClientPhase.due, ServerPhase.due, Deadline.new])
      (by simp) rfl
  have h : Promptly client server latency ⟨period, .looping n 0 (period + period),
      .looping n' (Deadline.new 0 n'.keepaliveTimeout.asNanos), [⟨.keepalive, period⟩], []⟩ := by
    refine h.step (period, .clientTimer 0) ?_ (by simp) ?_
    · simp only [OnTime, ClientPhase.due, ServerPhase.due, Deadline.new, Option.mem_def,
        Option.some.injEq, forall_eq']
      omega
    · simp only [act, frame, ofClient, Clocks.clientTimer, if_true, hduration]
      rw [if_neg (by omega)]
      rfl
  -- The server reads the KEEPALIVE when the next one is due.
  have h : Promptly client server latency ⟨period + period, .looping n 0 (period + period),
      .looping n' (Deadline.new (period + period) n'.keepaliveTimeout.asNanos), [],
      [⟨.keepalive, period + period⟩]⟩ := by
    refine h.step (period + period, .serverRead 0) ?_ ?_ ?_
    · simp only [OnTime, ClientPhase.due, ServerPhase.due, Deadline.new, Option.mem_def,
        Option.some.injEq, forall_eq']
      omega
    · simp
      omega
    · simp only [act, frame, ofServer, Clocks.serverRead, serverBranch, Deadline.step,
        Deadline.new, Option.isSome_none, Bool.false_eq_true, false_or]
      rw [if_neg (by omega)]
      rfl
  have h : Promptly client server latency ⟨period + period,
      .looping n 0 (period + period + period),
      .looping n' (Deadline.new (period + period) n'.keepaliveTimeout.asNanos),
      [⟨.keepalive, period + period⟩], [⟨.keepalive, period + period⟩]⟩ := by
    refine h.step (period + period, .clientTimer 0) ?_ (by simp) ?_
    · simp only [OnTime, ClientPhase.due, ServerPhase.due, Deadline.new, Option.mem_def,
        Option.some.injEq, forall_eq']
      omega
    · simp only [act, frame, ofClient, Clocks.clientTimer, if_true, hduration]
      rw [if_neg (by omega)]
      rfl
  have h : Promptly client server latency ⟨period + period + period, .left true,
      .looping n' (Deadline.new (period + period) n'.keepaliveTimeout.asNanos),
      [⟨.keepalive, period + period⟩] ++ closing (period + period + period),
      [⟨.keepalive, period + period⟩]⟩ := by
    refine h.step (period + period + period, .clientTimer 0) ?_ ?_ ?_
    · simp only [OnTime, ClientPhase.due, ServerPhase.due, Deadline.new, Option.mem_def,
        Option.some.injEq, forall_eq']
      omega
    · simp
      omega
    · simp only [act, ofClient, Clocks.clientTimer, if_true]
      rw [if_pos (by omega)]
      rfl
  exact ⟨_, h, .inl rfl⟩

/-- With an interval of zero, the server does not wait for the KEEPALIVE at all. -/
theorem promptly_unanswered (latency : Nat) (hn' : negotiate server client = some n')
    (hzero : period client server = 0) :
    ∃ s, Promptly client server latency s ∧ s.TimedOut := by
  have htimeout := (agreed_server hn').timeout
  have h : Promptly client server latency
      ⟨0, .awaitingHello, .awaitingHello, [⟨.hello client, 0⟩], []⟩ :=
    (promptly_init client server latency).step (0, .hello 0) (by decide) (by simp [init]) rfl
  have h : Promptly client server latency ⟨0, .awaitingHello,
      .awaitingKeepalive n' (0 + n'.keepaliveTimeout.asNanos), [], [⟨.hello server, 0⟩]⟩ :=
    h.step (0, .serverRead 0) (by simp [OnTime, ClientPhase.due, ServerPhase.due]) (by simp)
      (by simp [act, frame, ofServer, serverRead, serverHello, hn'])
  have h : Promptly client server latency ⟨0, .awaitingHello, .left true, [],
      [⟨.hello server, 0⟩] ++ closing 0⟩ := by
    refine h.step (0, .serverTimer) (by simp [OnTime, ClientPhase.due, ServerPhase.due])
      (by simp) ?_
    simp only [act, ofServer, Clocks.serverTimer]
    rw [if_pos (by omega)]
    rfl
  exact ⟨_, h, .inr rfl⟩

end

/-- **Which delays the keepalives survive.** Take a client and a server that advertise any
intervals. In every run in which everything is read within `latency` of its writing, neither side
times out, if and only if `latency` is shorter than the smaller interval. -/
theorem survives_iff (client server : UInt32) (latency : Nat) :
    (∀ ls s, (lts client server).Run ls s →
      (lts client server).Throughout (Prompt latency) ls → ¬ s.TimedOut) ↔
      latency < (min client server).toNat * 1000000000 := by
  constructor
  · intro h
    by_contra hlong
    obtain ⟨n, hn, -⟩ := Keepalive.negotiate_eq client server
    have hn' : negotiate server client = some n := by rwa [Keepalive.negotiate_comm]
    have hslow : ∃ s, Promptly client server latency s ∧ s.TimedOut := by
      rcases Nat.eq_zero_or_pos (period client server) with hzero | hpositive
      · exact promptly_unanswered latency hn' hzero
      · exact promptly_timedOut hn hn' hpositive (Nat.le_of_not_lt hlong)
    obtain ⟨s, ⟨ls, hrun, hprompt⟩, htimedOut⟩ := hslow
    exact h ls s hrun hprompt htimedOut
  · intro hlatency ls s hrun hprompt
    exact (kept_of_run hlatency hrun hprompt).not_timedOut

/-! ### A silent server -/

/-- The client looks at a server from which it has read nothing for the timeout, at the next tick at
the latest. -/
def Watched (client server : UInt32) (s : Clocks) : Prop :=
  match s.client with
  | .awaitingKeepalive n _ => Agreed (period client server) n
  | .looping n last next => Agreed (period client server) n ∧ s.now ≤ next ∧
    next ≤ last + period client server * 7 / 2 ∧ last ≤ s.now
  | .connected | .awaitingHello | .left _ => True

/-- No step makes a party wait longer than its watch allows: either it has heard something since,
or its next look at the clock is due by then. -/
theorem watched_step {l : Nat × Action} (hordered : Ordered client server s)
    (h : Watched client server s) (hs : step client server s l = some s') :
    Watched client server s' := by
  obtain ⟨⟨htime, hdue, -⟩, hmoves⟩ := moves_of_step hs
  obtain ⟨now, phase, serverPhase, toServer, toClient⟩ := s
  simp only at htime hdue
  cases hmoves with
  | server _ hread hmoves hs' =>
    subst hs'
    cases phase with
    | connected | awaitingHello | left => trivial
    | awaitingKeepalive => exact h
    | looping n last next =>
      obtain ⟨hagreed, -, hnext, hlast⟩ := h
      exact ⟨hagreed, hdue next rfl, hnext, Nat.le_trans hlast htime⟩
  | @client phase' read rest sent hread hmoves hs' =>
    subst hs'
    simp only at hread hmoves
    generalize hpiece : read.map Packet.piece = piece at hmoves
    cases hmoves with
    | hello | left | unanswered | timedOut => trivial
    | negotiated split hn =>
      obtain ⟨packet, rfl, hhello⟩ := Option.map_eq_some_iff.mp hpiece
      have hadvertised := hordered.helloClient packet (by simp [hread]) _ hhello
      exact agreed_client (hadvertised ▸ hn)
    | established => exact ⟨h, Nat.le_refl _, Nat.le_add_right .., Nat.le_refl _⟩
    | received =>
      obtain ⟨hagreed, -, hnext, hlast⟩ := h
      refine ⟨hagreed, hdue _ rfl, ?_, Nat.le_refl _⟩
      simp only at hlast
      omega
    | ticked split hintime =>
      obtain ⟨hagreed, -, -, hlast⟩ := h
      have hduration := hagreed.duration
      have htimeout := hagreed.timeout
      refine ⟨hagreed, Nat.le_add_right .., ?_, Nat.le_trans hlast htime⟩
      omega
    | wrote =>
      obtain ⟨hagreed, -, hnext, hlast⟩ := h
      exact ⟨hagreed, hdue _ rfl, hnext, Nat.le_trans hlast htime⟩

/-- The order holds in every state of every run, prompt or not. -/
theorem ordered_of_run (hrun : (lts client server).Run ls s) : Ordered client server s := by
  refine hrun.invariant (P := Ordered client server) ordered_init ?_
  intro _ s l s' _ h hs
  obtain ⟨hontime, hmoves⟩ := moves_of_step hs
  cases hmoves with
  | client _ hread hmoves hs' => exact hs' ▸ ordered_client h hontime.1 hread hmoves
  | server _ hread hmoves hs' => exact hs' ▸ ordered_server h hontime.1 hread hmoves

/-- **A silent server is given up.** In every run, whatever the delays, the main loop of the client
goes on for three and a half intervals at most after the last read. -/
theorem gives_up {n : Negotiated} {last next : Nat} (hrun : (lts client server).Run ls s)
    (hclient : s.client = .looping n last next) :
    s.now ≤ last + (min client server).toNat * 1000000000 * 7 / 2 := by
  have hwatched : Watched client server s := by
    have hinit : Watched client server init := trivial
    refine hrun.invariant hinit ?_
    exact fun _ _ _ _ hrun h hs => watched_step (ordered_of_run hrun) h hs
  rw [Watched, hclient] at hwatched
  exact Nat.le_trans hwatched.2.1 hwatched.2.2.1

/-- The two sides have an interval of 5 seconds, and the client reads nothing in its main loop. It
ticks for the third time after 10 seconds, with the next tick after 15. -/
def silentServer : List (Nat × Action) :=
  [(0, .hello 0), (0, .serverRead 0), (0, .clientRead 0), (0, .serverRead 0), (0, .clientRead 0),
    (0, .clientTimer 0), (5000000000, .clientTimer 0), (10000000000, .clientTimer 0)]

/-- The bound at work on a server that never answers: after two missed ticks the client is still
in its main loop, 10 seconds after it has last heard something, which is within the 17.5. -/
theorem gives_up_silentServer :
    ∃ s n last next, (lts 5 5).Run silentServer s ∧ s.client = .looping n last next ∧
      s.now = 10000000000 ∧ s.now ≤ last + 17500000000 := by
  have hrun : (lts 5 5).Run silentServer _ := Lts.Run.of_exec (by decide)
  exact ⟨_, _, _, _, hrun, rfl, rfl, gives_up hrun rfl⟩

end RustBond.Clocks
