import RustBond.Proofs.Wire.Framing
import RustBond.Wire.Handshake

/-!
# `RustBond.Proofs.Wire.Handshake`: the handshake depends on segmentation

The handshake decodes what its first two reads return (`handshake_eq_ok`). If they return more
than a HELLO and a KEEPALIVE, the main loop misses the rest, and if they return less, there is
no session. So `reaches_iff` leaves one way to cut the stream: after the HELLO and after the
KEEPALIVE (`cutsFor_iff`). What follows may be cut anywhere, by the reassembly of the main loop.

A KEEPALIVE with a payload is accepted too, although no side sends one. If the end of it is a
KEEPALIVE again, the first read may end before this (`CutsFor`).
-/

set_option autoImplicit false

namespace RustBond.Handshake

open Framing

/-- The handshake ends with the interval that the other side advertises, and the main loop gets
every byte after the KEEPALIVE and hands on the messages. -/
def Reaches (p : Prost) (side : Side) (keepaliveInterval advertised : UInt32)
    (frames : List (List UInt8)) (ms : List Message) (reads : List (List UInt8)) : Prop :=
  ∃ e, session p side keepaliveInterval (side.handle collect) [] reads
      = .ok (e, some (ms, .ok [])) ∧
    e.advertised = advertised ∧ e.reads.flatten = frames.flatten

/-- The first read returns the HELLO, and the second the KEEPALIVE. The first may go on into the
KEEPALIVE if the rest of it begins with a KEEPALIVE. -/
def CutsFor (hello keepalive : List UInt8) (reads : List (List UInt8)) : Prop :=
  ∃ head tail rest, reads = (hello ++ head) :: tail :: rest ∧ head ++ tail = keepalive ∧
    ∃ payload, Message.Begins tail .keepalive payload

variable {p : Prost} {side : Side} {keepaliveInterval : UInt32} {reads rest : List (List UInt8)}

/-- Nothing is decoded from a read that returns no bytes, whether or not it is looked at. -/
theorem decode_read_eq_ok {α : Type} {x : Except Error α} {f : Message × Nat → Except Error α}
    {a : α} (hx : x ≠ .ok a) :
    (if (read reads).1 = [] then x else Message.decode p (read reads).1 >>= f) = .ok a ↔
      ∃ bytes m n, reads = bytes :: (read reads).2 ∧ Message.decode p bytes = .ok (m, n) ∧
        f (m, n) = .ok a := by
  cases reads with
  | nil => simp [read, hx]
  | cons bytes reads =>
    show (if bytes = [] then x else Message.decode p bytes >>= f) = .ok a ↔ _
    split
    · rename_i hempty
      refine iff_of_false hx ?_
      rintro ⟨_, m, n, h, hdecode, -⟩
      cases h
      rw [hempty] at hdecode
      cases hdecode
    · rw [bind_eq_ok]
      constructor
      · rintro ⟨⟨m, n⟩, hdecode, hf⟩
        exact ⟨bytes, m, n, rfl, hdecode, hf⟩
      · rintro ⟨_, m, n, h, hdecode, hf⟩
        cases h
        exact ⟨(m, n), hdecode, hf⟩

/-- The server receives a HELLO exactly if the bytes of its first read begin with one. -/
theorem receiveHello_eq_ok {i : UInt32} {isServer : Bool} :
    receiveHello p reads = .ok (some (i, isServer), rest) ↔
      ∃ bytes n, reads = bytes :: rest ∧ Message.decode p bytes = .ok (.hello i isServer, n) := by
  refine (decode_read_eq_ok fun h => by cases h).trans ?_
  constructor
  · rintro ⟨bytes, msg, n, hreads, hdecode, h⟩
    cases msg with
    | hello => cases h; exact ⟨bytes, n, hreads, hdecode⟩
    | _ => cases h
  · rintro ⟨bytes, n, rfl, hdecode⟩
    exact ⟨bytes, _, n, rfl, hdecode, rfl⟩

/-- A message is received exactly if the bytes of one read begin with it. What follows it in the
read is dropped. -/
theorem receiveMessageWithTimeout_eq_ok {msg : Message} :
    receiveMessageWithTimeout p reads = .ok (msg, rest) ↔
      ∃ bytes n, reads = bytes :: rest ∧ Message.decode p bytes = .ok (msg, n) := by
  refine (decode_read_eq_ok fun h => by cases h).trans ?_
  constructor
  · rintro ⟨bytes, _, n, hreads, hdecode, h⟩
    cases h
    exact ⟨bytes, n, hreads, hdecode⟩
  · rintro ⟨bytes, n, rfl, hdecode⟩
    exact ⟨bytes, _, n, rfl, hdecode, rfl⟩

/-- The handshake succeeds if a HELLO is at the beginning of the first read, and a KEEPALIVE at
the beginning of the second. -/
theorem handshake_eq_ok {e : Established} :
    handshake p side keepaliveInterval reads = .ok e ↔
      ∃ first second n n' isServer, reads = first :: second :: e.reads ∧
        Message.decode p first = .ok (.hello e.advertised isServer, n) ∧
        Message.decode p second = .ok (.keepalive, n') ∧
        e.negotiated = min keepaliveInterval e.advertised := by
  unfold handshake
  simp only [bind_eq_ok]
  constructor
  · rintro ⟨⟨hello, left⟩, hhello, h⟩
    cases hello with
    | none => cases h
    | some hello =>
      obtain ⟨⟨msg, left'⟩, hmsg, hlast⟩ := bind_eq_ok.mp h
      obtain ⟨first, n, rfl, hfirst⟩ := receiveHello_eq_ok.mp hhello
      obtain ⟨second, n', rfl, hsecond⟩ := receiveMessageWithTimeout_eq_ok.mp hmsg
      -- Any other message is an error.
      by_cases hkeepalive : msg = .keepalive
      · subst hkeepalive
        cases hlast
        exact ⟨first, second, n, n', hello.2, rfl, hfirst, hsecond, rfl⟩
      · rw [if_neg hkeepalive] at hlast
        cases hlast
  · rintro ⟨first, second, n, n', isServer, rfl, hfirst, hsecond, hnegotiated⟩
    refine ⟨_, receiveHello_eq_ok.mpr ⟨first, n, rfl, hfirst⟩, ?_⟩
    refine bind_eq_ok.mpr ⟨_, receiveMessageWithTimeout_eq_ok.mpr ⟨second, n', rfl, hsecond⟩, ?_⟩
    obtain ⟨advertised, negotiated, left⟩ := e
    have hmin : negotiated = min keepaliveInterval advertised := hnegotiated
    subst hmin
    exact if_pos rfl

/-- A session goes on to its loop exactly if the handshake succeeds and the loop starts. -/
theorem session_eq_ok {S : Type} {handle : S → Message → S × Option Error} {s : S}
    {e : Established} {r : S × Except Error (List UInt8)} :
    session p side keepaliveInterval handle s reads = .ok (e, some r) ↔
      handshake p side keepaliveInterval reads = .ok e ∧
        startsLoop side e.negotiated = true ∧ readChunks p handle s (.ok []) e.reads = some r := by
  unfold session
  simp only [bind_eq_ok]
  constructor
  · rintro ⟨e', hhandshake, h⟩
    split at h
    · rename_i hstarts
      obtain ⟨rfl, hread⟩ := Prod.mk.inj (pure_eq_ok.mp h)
      exact ⟨hhandshake, hstarts, hread⟩
    · cases h
  · rintro ⟨hhandshake, hstarts, hread⟩
    refine ⟨e, hhandshake, ?_⟩
    rw [if_pos hstarts, hread]
    rfl

/-- A KEEPALIVE is decoded exactly if the bytes begin with one, whatever its payload. -/
theorem decode_eq_keepalive {b : List UInt8} :
    (∃ n, Message.decode p b = .ok (.keepalive, n)) ↔
      ∃ payload, Message.Begins b .keepalive payload := by
  constructor
  · rintro ⟨n, hdecode⟩
    obtain ⟨payload, hbegins, -, -⟩ := Message.decode_eq_ok.mp hdecode
    exact ⟨payload, hbegins⟩
  · rintro ⟨payload, hbegins⟩
    exact ⟨_, Message.decode_eq_ok.mpr ⟨payload, hbegins, rfl, trivial⟩⟩

/-- If the first read is decoded, then it holds the whole HELLO. -/
theorem prefix_of_decode {hello first second rest : List UInt8} {m : Message} {r : Message × Nat}
    (hhello : Message.IsFrame p hello m) (hfirst : Message.decode p first = .ok r)
    (happend : first ++ second = hello ++ rest) : hello <+: first := by
  have hwhole := Message.decode_append_of_ok hfirst second
  rw [happend, Message.decode_append_of_ok hhello rest] at hwhole
  cases hwhole
  exact List.prefix_of_prefix_length_le ⟨rest, rfl⟩ ⟨second, happend⟩
    (Message.consumed_bounds hfirst).2

/-- The handshake and the main loop do their work exactly if the first read returns the HELLO and
the second the KEEPALIVE, and the interval is not zero for the client. -/
theorem reaches_iff (p : Prost) (side : Side) (keepaliveInterval advertised : UInt32)
    (isServer : Bool) (ms : List Message) (hello keepalive : List UInt8)
    (frames : List (List UInt8)) (hhello : Message.IsFrame p hello (.hello advertised isServer))
    (hkeepalive : Message.IsFrame p keepalive .keepalive)
    (hframes : List.Forall₂ (Message.IsFrame p) frames ms) (reads : List (List UInt8))
    (hstream : reads.flatten = hello ++ keepalive ++ frames.flatten) :
    Reaches p side keepaliveInterval advertised frames ms reads ↔
      CutsFor hello keepalive reads ∧
        startsLoop side (min keepaliveInterval advertised) = true := by
  constructor
  · rintro ⟨e, hsession, rfl, hrest⟩
    obtain ⟨hhandshake, hstarts, -⟩ := session_eq_ok.mp hsession
    obtain ⟨first, second, n, n', isServer', hreads, hfirst, hsecond, hnegotiated⟩ :=
      handshake_eq_ok.mp hhandshake
    -- The main loop gets all that follows the two frames, so the reads are the two frames.
    have happend : first ++ second = hello ++ keepalive := by
      rw [hreads, List.flatten_cons, List.flatten_cons, hrest, ← List.append_assoc] at hstream
      exact List.append_cancel_right hstream
    obtain ⟨head, rfl⟩ := prefix_of_decode hhello hfirst happend
    rw [List.append_assoc] at happend
    exact ⟨⟨head, second, e.reads, hreads, List.append_cancel_left happend,
      decode_eq_keepalive.mp ⟨n', hsecond⟩⟩, hnegotiated ▸ hstarts⟩
  · rintro ⟨⟨head, tail, rest, rfl, rfl, hbegins⟩, hstarts⟩
    have hrest : rest.flatten = frames.flatten := by
      rw [List.flatten_cons, List.flatten_cons, ← List.append_assoc, List.append_assoc hello]
        at hstream
      exact List.append_cancel_left hstream
    obtain ⟨n, htail⟩ := decode_eq_keepalive.mpr hbegins
    refine ⟨⟨advertised, min keepaliveInterval advertised, rest⟩,
      session_eq_ok.mpr ⟨?_, hstarts, ?_⟩, rfl, hrest⟩
    · exact handshake_eq_ok.mpr ⟨hello ++ head, tail, _, n, isServer, rfl,
        Message.decode_append_of_ok hhello head, htail, rfl⟩
    · rw [readChunks_eq rest (process_nil []), List.nil_append, hrest,
        process_frames side [] hframes, List.nil_append]

/-- A HELLO, a KEEPALIVE, and a SUBSCRIBE that is cut in the header. -/
theorem reaches_afterCut :
    Reaches .strict .server 10 5 [[1, 0, 2, 3, 8, 100]] [.subscribe ⟨100⟩]
      [[1, 0, 2, 1, 8, 5], [1, 0, 0, 2], [1, 0], [2, 3, 8, 100]] :=
  (reaches_iff .strict .server 10 5 false [.subscribe ⟨100⟩] [1, 0, 2, 1, 8, 5] [1, 0, 0, 2]
    [[1, 0, 2, 3, 8, 100]] rfl rfl (.cons rfl .nil) _ rfl).mpr
      ⟨⟨[], _, _, rfl, rfl, [], 0, 0, [], rfl, rfl⟩, rfl⟩

/-- A KEEPALIVE as both sides send it leaves no choice. -/
theorem cutsFor_iff {hello keepalive : List UInt8}
    (hkeepalive : Message.keepalive.encode p = .ok keepalive) :
    CutsFor hello keepalive reads ↔ ∃ rest, reads = hello :: keepalive :: rest := by
  cases hkeepalive
  constructor
  · rintro ⟨head, tail, rest, rfl, happend, payload, hbegins⟩
    -- The tail has a header, and the KEEPALIVE is not longer than that.
    have htail := hbegins.length_le
    have htotal := congrArg List.length happend
    rw [List.length_append] at htotal
    have hhead : head = [] := List.eq_nil_of_length_eq_zero (by
      simp only [headerSize] at htail
      simp at htotal
      omega)
    subst hhead
    exact ⟨rest, by rw [List.append_nil, ← happend]; rfl⟩
  · rintro ⟨rest, rfl⟩
    exact ⟨[], _, rest, by rw [List.append_nil], rfl, [], 0, 0, [], rfl, rfl⟩

/-- A stream as it is sent, with the HELLO cut before its last byte: there is no session. And
with the SUBSCRIBE in one read with the KEEPALIVE: it is lost. An interval of zero, cut as it
should be: the client does not get to its main loop. -/
theorem not_reaches_otherwise :
    (Message.hello 5 false).encode .strict = .ok [1, 0, 2, 1, 8, 5] ∧
      Message.keepalive.encode .strict = .ok [1, 0, 0, 2] ∧
      (Message.subscribe ⟨100⟩).encode .strict = .ok [1, 0, 2, 3, 8, 100] ∧
      ¬ Reaches .strict .server 10 5 [[1, 0, 2, 3, 8, 100]] [.subscribe ⟨100⟩]
        [[1, 0, 2, 1, 8], [5], [1, 0, 0, 2], [1, 0, 2, 3, 8, 100]] ∧
      ¬ Reaches .strict .server 10 5 [[1, 0, 2, 3, 8, 100]] [.subscribe ⟨100⟩]
        [[1, 0, 2, 1, 8, 5], [1, 0, 0, 2, 1, 0, 2, 3, 8, 100]] ∧
      (Message.hello 0 true).encode .strict = .ok [1, 0, 2, 1, 16, 1] ∧
      ¬ Reaches .strict .client 5 0 [] [] [[1, 0, 2, 1, 16, 1], [1, 0, 0, 2]] := by
  refine ⟨rfl, rfl, rfl, ?_, ?_, rfl, ?_⟩
  · rintro ⟨e, hsession, -, -⟩
    -- The first read is decoded before the second one is made.
    have hfailed : handshake .strict .server 10
        [[1, 0, 2, 1, 8], [5], [1, 0, 0, 2], [1, 0, 2, 3, 8, 100]]
        = .error (.protocol "message truncated") := by rfl
    have hhandshake := (session_eq_ok.mp hsession).1
    rw [hfailed] at hhandshake
    cases hhandshake
  · rintro ⟨e, hsession, -, hrest⟩
    -- The second read is decoded once, and the rest of it is dropped.
    have hlost : handshake .strict .server 10
        [[1, 0, 2, 1, 8, 5], [1, 0, 0, 2, 1, 0, 2, 3, 8, 100]] = .ok ⟨5, 5, []⟩ := by rfl
    have hhandshake := (session_eq_ok.mp hsession).1
    rw [hlost] at hhandshake
    cases hhandshake
    cases hrest
  · rintro ⟨e, hsession, -, -⟩
    have hzero : handshake .strict .client 5 [[1, 0, 2, 1, 16, 1], [1, 0, 0, 2]]
        = .ok ⟨0, 0, []⟩ := by rfl
    obtain ⟨hhandshake, hstarts, -⟩ := session_eq_ok.mp hsession
    rw [hzero] at hhandshake
    cases hhandshake
    cases hstarts

end RustBond.Handshake
