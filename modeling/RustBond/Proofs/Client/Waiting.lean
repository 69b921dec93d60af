import RustBond.Client.Waiting
import RustBond.Proofs.Client.Unsubscriptions

/-!
# `RustBond.Proofs.Client.Waiting`: what the waits return, and when they sleep

`wait_any_returns` and `wait_all_returns` say what the result of a wait means. The states are read
one after another while the peers go on, so a wait for all servers may return although they were
never connected at the same time. A closed peer stays closed, so `Err(Closed)` is still true later.

`wait_any_settles` and `wait_all_settles` say that a wait does not miss what it waits for. It
sleeps only while the condition is false in the states that the peers have now, although it has
read them at different times, and learns of only one change when it wakes up.
-/

set_option autoImplicit false

namespace RustBond

/-! ### The end of a peer task -/

namespace PeerTask

/-- A task publishes that it is closed with its last action. -/
theorem closes_act {announced : RouteTable} {t t' : PeerTask} {action : TaskAction}
    (h : t.act announced action = some t') :
    t'.state = .closed → t.state = .closed ∨ t'.phase = .closed := by
  intro hclosed
  cases action with
  | connectFailed | helloSent | helloReceived | established | collect | enterLoop | keepalive
  | receive | clear | retryElapsed =>
    obtain ⟨-, heq⟩ := Option.ite_none_right_eq_some.mp h
    cases heq
    first | exact .inl hclosed | cases hclosed
  | resubscribe | reannounce | command | commandFailed | connectionEnded | retryCommand =>
    simp only [act] at h
    grind

end PeerTask

namespace Client

variable {servers : Nat}

/-- `wait_any_established` returns as soon as one peer is established, and gives up when all of
them are closed. -/
theorem judge_any (values : List ConnectionState) :
    anyCheck.judge values =
      if .established ∈ values then some (.ok ())
      else if ∀ v ∈ values, v = .closed then some (.error .closed)
      else none := by
  have hfold : ∀ flags : AnyFlags, values.foldl anyCheck.look flags
      = ⟨flags.anyEstablished || decide (.established ∈ values),
        flags.allClosed && decide (∀ v ∈ values, v = .closed)⟩ := by
    induction values with
    | nil => simp
    | cons v values ih =>
      intro flags
      rw [List.foldl_cons, ih]
      cases v <;> simp [anyCheck]
  rw [Check.judge, hfold]
  simp [anyCheck]

/-- `wait_all_established` returns when every peer is established, and gives up as soon as one of
them is closed. -/
theorem judge_all (values : List ConnectionState) :
    allCheck.judge values =
      if ∀ v ∈ values, v = .established then some (.ok ())
      else if .closed ∈ values then some (.error .closed)
      else none := by
  have hfold : ∀ flags : AllFlags, values.foldl allCheck.look flags
      = ⟨flags.allEstablished && decide (∀ v ∈ values, v = .established ∨ v = .closed),
        flags.anyClosed || decide (.closed ∈ values)⟩ := by
    induction values with
    | nil => simp
    | cons v values ih =>
      intro flags
      rw [List.foldl_cons, ih]
      cases v <;> simp [allCheck]
  rw [Check.judge, hfold]
  by_cases hclosed : .closed ∈ values
  · -- A closed peer is not established.
    have hnot : ¬ ∀ v ∈ values, v = ConnectionState.established := by
      intro hall
      cases hall _ hclosed
    simp [allCheck, hclosed, hnot]
  · have hor : (∀ v ∈ values, v = ConnectionState.established ∨ v = .closed) ↔
        ∀ v ∈ values, v = ConnectionState.established := by
      refine forall₂_congr fun v hv => or_iff_left ?_
      rintro rfl
      exact hclosed hv
    simp [allCheck, hclosed, hor]

/-! ### Closed for ever -/

/-- A peer that has published that it is closed is at the end of its task. -/
def Sealed (x : Client) : Prop := ∀ s, x.published s = .closed → (x.peers s).phase = .closed

/-- A peer that has published that it is closed stays at its end. -/
theorem sealed_step {x x' : Client} {l : ClientLabel} (h : x.Sealed)
    (hs : (lts servers).step x l = some x') : x'.Sealed := by
  intro s hclosed
  by_cases hl : ∃ action, l = .task s action
  · obtain ⟨action, rfl⟩ := hl
    have hact := act_of_step hs
    rcases PeerTask.closes_act hact hclosed with hbefore | hphase
    · exact absurd (h s hbefore) (PeerTask.phase_ne_closed hact)
    · exact hphase
  · rcases peer_of_step (s := s) hs (fun action heq => hl ⟨action, heq⟩) with hp | ⟨a, -, hp⟩
    · rw [published, hp] at hclosed
      rw [hp]
      exact h s hclosed
    · rw [published, hp] at hclosed
      rw [hp]
      exact h s hclosed

/-- A peer publishes that it is closed only at the end of its task, in every reachable state. -/
theorem sealed_of_run {ls : List ClientLabel} {x : Client} (hrun : (lts servers).Run ls x) :
    x.Sealed := by
  refine hrun.invariant (P := Sealed) ?_ fun _ _ _ _ _ h hs => sealed_step h hs
  intro s hclosed
  cases hclosed

/-- A closed peer stays closed. -/
theorem closed_step {x x' : Client} {l : ClientLabel} {s : ServerId} (h : x.Sealed)
    (hclosed : x.published s = .closed) (hs : (lts servers).step x l = some x') :
    x'.published s = .closed := by
  by_cases hl : ∃ action, l = .task s action
  · obtain ⟨action, rfl⟩ := hl
    exact absurd (h s hclosed) (PeerTask.phase_ne_closed (act_of_step hs))
  · rcases peer_of_step (s := s) hs (fun action heq => hl ⟨action, heq⟩) with hp | ⟨a, -, hp⟩
    · rw [published, hp]
      exact hclosed
    · rw [published, hp]
      exact hclosed

section
variable {F : Type} {check : Check ConnectionState F (Except Error Unit)}
  {ls : List (WatchLabel ClientLabel ServerId)} {w : Watch Client ServerId F (Except Error Unit)}
  {s : ServerId}

/-- What was closed at a moment of the wait is closed now. -/
theorem closed_of_moment
    (hrun : (Watch.lts (lts servers) published check (AreReceivers servers)).Run ls w)
    (h : Watch.Moment (lts servers) published check (AreReceivers servers) ls s .closed) :
    w.system.published s = .closed := by
  obtain ⟨before, after, w₀, rfl, hbefore, -, -, hclosed⟩ := h
  have hsealed : ∀ {ls w},
      (Watch.lts (lts servers) published check (AreReceivers servers)).Run ls w →
      w.system.Sealed := fun hrun => sealed_of_run (Watch.partOf_system.run hrun)
  have hboth : w.system.Sealed ∧ w.system.published s = .closed := by
    refine Lts.Run.invariant_from (P := fun w => w.system.Sealed ∧ w.system.published s = .closed)
      hbefore ⟨hsealed hbefore, hclosed⟩ ?_ hrun
    rintro w l w' - ⟨hseal, hclosed⟩ hs
    cases Watch.moves_of_step hs with
    | system hstep hw' =>
      subst hw'
      exact ⟨sealed_step hseal hstep, closed_step hseal hclosed hstep⟩
    | resend hw' | wait _ hw' | looked _ hw' | returned _ _ hw' | slept _ _ hw'
    | changed _ _ _ hw' => exact hw' ▸ ⟨hseal, hclosed⟩
  exact hboth.2

end

/-! ### What the waits return -/

/-- The waiting task has a receiver for every server. -/
theorem mem_receivers {receivers : List ServerId} (h : AreReceivers servers receivers)
    {s : ServerId} : s ∈ receivers ↔ s.id < servers := by
  rw [← Multiset.mem_coe, h, Multiset.mem_map]
  constructor
  · rintro ⟨i, hi, rfl⟩
    exact Multiset.mem_range.mp hi
  · exact fun hs => ⟨s.id, Multiset.mem_range.mpr hs, rfl⟩

/-- **What `wait_any_established` returns.** After `Ok`, some server was established at a moment of
the wait. After an error, which is `Closed`, all servers are closed, for ever. -/
theorem wait_any_returns {ls : List (WatchLabel ClientLabel ServerId)}
    {w : Watch Client ServerId AnyFlags (Except Error Unit)} {result : Except Error Unit}
    (hrun : (waitAnyEstablished servers).Run ls w) (hreturned : w.phase = .returned result) :
    (result = .ok () ∧ ∃ s : ServerId, s.id < servers ∧
      Watch.Moment (lts servers) published anyCheck (AreReceivers servers) ls s .established) ∨
    (result = .error .closed ∧
      ∀ s : ServerId, s.id < servers → w.system.published s = .closed) := by
  obtain ⟨readings, hvalid, hverdict, hmoments⟩ := Watch.moments_of_returned hrun hreturned
  rw [judge_any] at hverdict
  split at hverdict
  · rename_i hmem
    obtain ⟨p, hp, hestablished⟩ := List.mem_map.mp hmem
    refine .inl ⟨(Option.some.inj hverdict).symm, p.1, ?_, ?_⟩
    · exact (mem_receivers hvalid).mp (List.mem_map_of_mem hp)
    · exact hestablished ▸ hmoments p hp
  · split at hverdict
    · rename_i hall
      refine .inr ⟨(Option.some.inj hverdict).symm, fun s hs => ?_⟩
      obtain ⟨p, hp, rfl⟩ := List.mem_map.mp ((mem_receivers hvalid).mpr hs)
      have hmoment := hmoments p hp
      rw [hall p.2 (List.mem_map_of_mem hp)] at hmoment
      exact closed_of_moment hrun hmoment
    · cases hverdict

/-- **What `wait_all_established` returns.** After `Ok`, every server was established at a moment
of the wait, though not necessarily at the same one. After an error, which is `Closed`, some server
is closed, for ever. -/
theorem wait_all_returns {ls : List (WatchLabel ClientLabel ServerId)}
    {w : Watch Client ServerId AllFlags (Except Error Unit)} {result : Except Error Unit}
    (hrun : (waitAllEstablished servers).Run ls w) (hreturned : w.phase = .returned result) :
    (result = .ok () ∧ ∀ s : ServerId, s.id < servers →
      Watch.Moment (lts servers) published allCheck (AreReceivers servers) ls s .established) ∨
    (result = .error .closed ∧
      ∃ s : ServerId, s.id < servers ∧ w.system.published s = .closed) := by
  obtain ⟨readings, hvalid, hverdict, hmoments⟩ := Watch.moments_of_returned hrun hreturned
  rw [judge_all] at hverdict
  split at hverdict
  · rename_i hall
    refine .inl ⟨(Option.some.inj hverdict).symm, fun s hs => ?_⟩
    obtain ⟨p, hp, rfl⟩ := List.mem_map.mp ((mem_receivers hvalid).mpr hs)
    have hmoment := hmoments p hp
    rwa [hall p.2 (List.mem_map_of_mem hp)] at hmoment
  · split at hverdict
    · rename_i hmem
      obtain ⟨p, hp, hclosed⟩ := List.mem_map.mp hmem
      refine .inr ⟨(Option.some.inj hverdict).symm, p.1, ?_, ?_⟩
      · exact (mem_receivers hvalid).mp (List.mem_map_of_mem hp)
      · exact closed_of_moment hrun (hclosed ▸ hmoments p hp)
    · cases hverdict

/-- A wait for both servers of a client. The first one is reached after it fell asleep for the
first time, the second one after it fell asleep again. -/
def oneByOne : List (WatchLabel ClientLabel ServerId) :=
  let round : List (WatchLabel ClientLabel ServerId) := [.look, .look, .look]
  [.wait [⟨1⟩, ⟨0⟩]] ++ round ++ (connects ⟨0⟩ []).map .system ++ [.changed ⟨0⟩] ++ round ++
    (connects ⟨1⟩ []).map .system ++ [.changed ⟨1⟩] ++ round

/-- With its second round, `wait_any_established` returns in the run `oneByOne`. -/
theorem wait_any_returns_oneByOne :
    ∃ w, (waitAnyEstablished 2).Run (oneByOne.take 13) w ∧ w.phase = .returned (.ok ()) ∧
      ∃ s : ServerId, s.id < 2 ∧ Watch.Moment (lts 2) published anyCheck (AreReceivers 2)
        (oneByOne.take 13) s .established := by
  have hrun : (waitAnyEstablished 2).Run (oneByOne.take 13) _ := Lts.Run.of_exec (by decide)
  rcases wait_any_returns hrun rfl with ⟨-, hmoment⟩ | ⟨herror, -⟩
  · exact ⟨_, hrun, rfl, hmoment⟩
  · cases herror

/-- With its third round, `wait_all_established` returns in the run `oneByOne`. -/
theorem wait_all_returns_oneByOne :
    ∃ w, (waitAllEstablished 2).Run oneByOne w ∧ w.phase = .returned (.ok ()) ∧
      ∀ s : ServerId, s.id < 2 → Watch.Moment (lts 2) published allCheck (AreReceivers 2)
        oneByOne s .established := by
  have hrun : (waitAllEstablished 2).Run oneByOne _ := Lts.Run.of_exec (by decide)
  rcases wait_all_returns hrun rfl with ⟨-, hmoment⟩ | ⟨herror, -⟩
  · exact ⟨_, hrun, rfl, hmoment⟩
  · cases herror

/-! ### When the waits sleep -/

/-- The servers are those with a number below `servers`. -/
theorem mem_serverIds {s : ServerId} : s ∈ serverIds servers ↔ s.id < servers := by
  rw [serverIds, List.mem_map]
  constructor
  · rintro ⟨i, hi, rfl⟩
    exact List.mem_range.mp hi
  · exact fun hs => ⟨s.id, List.mem_range.mpr hs, rfl⟩

/-- Each server is listed once. -/
theorem length_serverIds : (serverIds servers).length = servers := by
  rw [serverIds, List.length_map, List.length_range]

/-- No connection is counted exactly if no peer is established. -/
theorem connectedCount_eq_zero {x : Client} : x.connectedCount servers = 0 ↔
    ∀ s : ServerId, s.id < servers → x.published s ≠ .established := by
  simp only [connectedCount, List.countP_eq_zero, mem_serverIds, beq_iff_eq, ne_eq]

/-- Some connection is missing in the count exactly if some peer is not established. -/
theorem connectedCount_lt {x : Client} : x.connectedCount servers < servers ↔
    ∃ s : ServerId, s.id < servers ∧ x.published s ≠ .established := by
  have hle : x.connectedCount servers ≤ servers :=
    Nat.le_trans List.countP_le_length length_serverIds.le
  have hall : x.connectedCount servers = servers ↔
      ∀ s : ServerId, s.id < servers → x.published s = .established := by
    have hcount := List.countP_eq_length (p := fun s => x.published s == .established)
      (l := serverIds servers)
    rw [length_serverIds] at hcount
    simp only [mem_serverIds, beq_iff_eq] at hcount
    exact hcount
  rw [Nat.lt_iff_le_and_ne, and_iff_right hle, Ne, hall]
  push Not
  rfl

/-- `is_established` asks for one connection at least. -/
theorem isEstablished_eq {x : Client} :
    x.isEstablished servers = decide (0 < x.connectedCount servers) := by
  rw [isEstablished, connectedCount, Bool.eq_iff_iff, decide_eq_true_iff, List.any_eq_true,
    List.countP_pos_iff]

/-- One published value changes the flags that the loop computes in this way. -/
theorem count_eq (flags : StateFlags) (v : ConnectionState) : flags.count v
    = ⟨flags.connected + (if v == .established then 1 else 0),
      flags.anyClosed || v == .closed⟩ := by
  obtain ⟨connected, anyClosed⟩ := flags
  cases anyClosed <;> cases v <;> rfl

/-- `state` by the number of connected servers. -/
theorem state_eq (servers : Nat) (x : Client) : x.state servers =
    if x.connectedCount servers = 0 then
      if (serverIds servers).any fun s => x.published s == .closed then .closed else .disconnected
    else if x.connectedCount servers = servers then .fullyConnected
    else .partiallyConnected (x.connectedCount servers) servers := by
  have hfold : ∀ (l : List ServerId) (flags : StateFlags),
      l.foldl (fun flags s => flags.count (x.published s)) flags
        = ⟨flags.connected + l.countP fun s => x.published s == .established,
          flags.anyClosed || l.any fun s => x.published s == .closed⟩ := by
    intro l
    induction l with
    | nil => simp
    | cons s l ih =>
      intro flags
      rw [List.foldl_cons, ih, count_eq, List.countP_cons, List.any_cons, Bool.or_assoc,
        Nat.add_right_comm, Nat.add_assoc]
  simp only [state, hfold, Nat.zero_add, Bool.false_or]
  rw [← connectedCount]
  by_cases hzero : x.connectedCount servers = 0
  · simp [hzero]
  · simp [hzero]

/-- No server is connected, and some server may still be. -/
structure NoneYet (servers : Nat) (x : Client) : Prop where
  isEstablished : x.isEstablished servers = false
  connectedCount : x.connectedCount servers = 0
  state : x.state servers = .disconnected ∨ x.state servers = .closed
  hope : ∃ s : ServerId, s.id < servers ∧ x.published s ≠ .closed

/-- Some server is not connected, and all of them may still be. -/
structure NotAllYet (servers : Nat) (x : Client) : Prop where
  connectedCount : x.connectedCount servers < servers
  state : x.state servers = .disconnected ∨
    x.state servers = .partiallyConnected (x.connectedCount servers) servers
  hope : ∀ s : ServerId, s.id < servers → x.published s ≠ .closed

/-- While the check of `wait_any_established` on the current values does not decide, no server is
connected, and some server may still be. -/
theorem noneYet_of_judge {x : Client} {receivers : List ServerId}
    (hreceivers : AreReceivers servers receivers)
    (h : anyCheck.judge (receivers.map x.published) = none) : x.NoneYet servers := by
  rw [judge_any] at h
  split_ifs at h with hestablished hclosed
  have hcount : x.connectedCount servers = 0 := by
    refine connectedCount_eq_zero.mpr fun s hs heq => hestablished ?_
    exact heq ▸ List.mem_map_of_mem ((mem_receivers hreceivers).mpr hs)
  have hstate := state_eq servers x
  rw [if_pos hcount] at hstate
  push Not at hclosed
  obtain ⟨v, hv, hne⟩ := hclosed
  obtain ⟨s, hs, rfl⟩ := List.mem_map.mp hv
  exact {
    isEstablished := by simp [isEstablished_eq, hcount]
    connectedCount := hcount
    state := by
      rw [hstate]
      split
      · exact .inr rfl
      · exact .inl rfl
    hope := ⟨s, (mem_receivers hreceivers).mp hs, hne⟩ }

/-- While the check of `wait_all_established` on the current values does not decide, some server is
not connected, and all of them may still be. -/
theorem notAllYet_of_judge {x : Client} {receivers : List ServerId}
    (hreceivers : AreReceivers servers receivers)
    (h : allCheck.judge (receivers.map x.published) = none) : x.NotAllYet servers := by
  rw [judge_all] at h
  split_ifs at h with hestablished hclosed
  push Not at hestablished
  obtain ⟨v, hv, hne⟩ := hestablished
  obtain ⟨s, hs, rfl⟩ := List.mem_map.mp hv
  have hlt : x.connectedCount servers < servers :=
    connectedCount_lt.mpr ⟨s, (mem_receivers hreceivers).mp hs, hne⟩
  have hopen : ∀ s : ServerId, s.id < servers → x.published s ≠ .closed := by
    intro s hs heq
    exact hclosed (heq ▸ List.mem_map_of_mem ((mem_receivers hreceivers).mpr hs))
  have hnone : ¬ ((serverIds servers).any fun s => x.published s == .closed) = true := by
    rw [List.any_eq_true]
    rintro ⟨s, hs, heq⟩
    exact hopen s (mem_serverIds.mp hs) (beq_iff_eq.mp heq)
  have hstate := state_eq servers x
  rw [if_neg hnone, if_neg hlt.ne] at hstate
  exact {
    connectedCount := hlt
    state := by
      rw [hstate]
      split
      · exact .inl rfl
      · exact .inr rfl
    hope := hopen }

/-- **`wait_any_established` does not sleep through a connection.** From every point of every run,
the wait returns or falls asleep once the peers stand still. While it sleeps, no server is
connected, and the queries say so. -/
theorem wait_any_settles {ls : List (WatchLabel ClientLabel ServerId)}
    {w : Watch Client ServerId AnyFlags (Except Error Unit)}
    (hrun : (waitAnyEstablished servers).Run ls w) :
    (waitAnyEstablished servers).Inevitable (fun l => Watch.isOwn l = true) (fun _ w =>
      w.phase = .idle ∨ (∃ result, w.phase = .returned result) ∨
      ∃ receivers, w.Asleep receivers ∧ w.system.NoneYet servers) ls w := by
  refine Lts.Inevitable.mono (Watch.inevitable_settled hrun) ?_
  intro after w' _ h
  rcases h.2.cases with hidle | hreturned | ⟨receivers, hasleep⟩
  · exact .inl hidle
  · exact .inr (.inl hreturned)
  · obtain ⟨hreceivers, hnone⟩ := Watch.verdict_of_asleep h.1 hasleep
    exact .inr (.inr ⟨receivers, hasleep, noneYet_of_judge hreceivers hnone⟩)

/-- When the first server of the run `oneByOne` is reached, `wait_any_established` settles. -/
theorem wait_any_settles_oneByOne :
    ∃ w, (waitAnyEstablished 2).Run (oneByOne.take 9) w ∧
      (waitAnyEstablished 2).Inevitable (fun l => Watch.isOwn l = true) (fun _ w =>
        w.phase = .idle ∨ (∃ result, w.phase = .returned result) ∨
        ∃ receivers, w.Asleep receivers ∧ w.system.NoneYet 2) (oneByOne.take 9) w := by
  have hrun : (waitAnyEstablished 2).Run (oneByOne.take 9) _ := Lts.Run.of_exec (by decide)
  exact ⟨_, hrun, wait_any_settles hrun⟩

/-- **`wait_all_established` does not sleep through the last connection, or a closed one.** -/
theorem wait_all_settles {ls : List (WatchLabel ClientLabel ServerId)}
    {w : Watch Client ServerId AllFlags (Except Error Unit)}
    (hrun : (waitAllEstablished servers).Run ls w) :
    (waitAllEstablished servers).Inevitable (fun l => Watch.isOwn l = true) (fun _ w =>
      w.phase = .idle ∨ (∃ result, w.phase = .returned result) ∨
      ∃ receivers, w.Asleep receivers ∧ w.system.NotAllYet servers) ls w := by
  refine Lts.Inevitable.mono (Watch.inevitable_settled hrun) ?_
  intro after w' _ h
  rcases h.2.cases with hidle | hreturned | ⟨receivers, hasleep⟩
  · exact .inl hidle
  · exact .inr (.inl hreturned)
  · obtain ⟨hreceivers, hnone⟩ := Watch.verdict_of_asleep h.1 hasleep
    exact .inr (.inr ⟨receivers, hasleep, notAllYet_of_judge hreceivers hnone⟩)

/-- When the first server of the run `oneByOne` is reached, `wait_all_established` settles. -/
theorem wait_all_settles_oneByOne :
    ∃ w, (waitAllEstablished 2).Run (oneByOne.take 9) w ∧
      (waitAllEstablished 2).Inevitable (fun l => Watch.isOwn l = true) (fun _ w =>
        w.phase = .idle ∨ (∃ result, w.phase = .returned result) ∨
        ∃ receivers, w.Asleep receivers ∧ w.system.NotAllYet 2) (oneByOne.take 9) w := by
  have hrun : (waitAllEstablished 2).Run (oneByOne.take 9) _ := Lts.Run.of_exec (by decide)
  exact ⟨_, hrun, wait_all_settles hrun⟩

end Client

end RustBond
