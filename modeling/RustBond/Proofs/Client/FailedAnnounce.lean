import RustBond.Proofs.Client.Client
import RustBond.Proofs.Route

/-!
# `RustBond.Proofs.Client.FailedAnnounce`: what a failed announcement leaves behind

`announce` updates the table of announced routes before it knows whether any peer takes the
update. `Follows` describes a call from any state of the client: while the call is active, and
after it has returned, the table has the route, and the call returns `NotEstablished` exactly if
no command has been put into a channel. So a call that fails leaves the table as it was only if
the route was announced before (`failed_announce_iff`).
-/

set_option autoImplicit false

namespace RustBond

/-- The label is the beginning of a call. -/
def ClientLabel.isCall (l : ClientLabel) : Bool :=
  match l with
  | .call _ _ => true
  | _ => false

namespace Client

variable {servers : Nat} {x y y' x' : Client} {vni : Vni} {destination : Destination}
  {nextHop : NextHop}

/-- The step does not put the command of the active call into the channel of a running task. -/
def TakesNothing (y : Client) (l : ClientLabel) : Prop :=
  l = .enqueue → ∀ a ∈ y.active, ∀ s ∈ a.rest.head?, (y.peers s).phase = .closed

instance (y : Client) (l : ClientLabel) : Decidable (TakesNothing y l) :=
  inferInstanceAs (Decidable (l = .enqueue → ∀ a ∈ y.active, ∀ s ∈ a.rest.head?, _))

/-- Where the client is after `announce` has begun in the state `x`. `taken` says whether a peer
has taken the command. -/
inductive Follows (x : Client) (vni : Vni) (destination : Destination) (nextHop : NextHop)
    (taken : Prop) (y : Client) : Prop
  | rejected (hknown : (vni, destination, nextHop) ∈ x.announcedRoutes)
      (hactive : y.active = none) (htable : y.announcedRoutes = x.announcedRoutes)
      (hlog : y.log = x.log ++ [.called (.announce vni destination nextHop),
        .returned (.announce vni destination nextHop) (some .routeAlreadyAnnounced)])
  | visiting (rest : List ServerId) (checked sentAny : Bool)
      (hnew : (vni, destination, nextHop) ∉ x.announcedRoutes)
      (hactive : y.active = some ⟨.announce vni destination nextHop, rest, checked, sentAny⟩)
      (htable : y.announcedRoutes = (x.announcedRoutes.addNextHop vni destination nextHop).1)
      (hlog : y.log = x.log ++ [.called (.announce vni destination nextHop)])
      (htaken : sentAny = true ↔ taken)
  | returned (error : Option Error) (hnew : (vni, destination, nextHop) ∉ x.announcedRoutes)
      (hactive : y.active = none)
      (htable : y.announcedRoutes = (x.announcedRoutes.addNextHop vni destination nextHop).1)
      (hlog : y.log = x.log ++ [.called (.announce vni destination nextHop),
        .returned (.announce vni destination nextHop) error])
      (htaken : error = none ↔ taken)

/-- Right after `announce` has begun, the route is rejected, or it is in the table and no peer has
taken the command yet. -/
theorem follows_call {order : List ServerId} {taken : Prop} (hnone : ¬ taken)
    (h : (lts servers).step x (.call (.announce vni destination nextHop) order) = some y) :
    Follows x vni destination nextHop taken y := by
  simp only [lts, step, begin] at h
  split at h
  · rename_i hguard
    by_cases hknown : x.announcedRoutes.nextHopExists vni destination nextHop = true
    · simp only [enter, hknown, if_true] at h
      cases h
      exact .rejected hknown hguard.1 rfl rfl
    · simp only [enter, hknown] at h
      cases h
      exact .visiting order false false hknown rfl rfl rfl (by simpa using hnone)
  · cases h

/-- While a call is active, it is the announcement, and the table has the route already. -/
theorem Follows.of_active {taken : Prop} {call : ClientCall} {rest : List ServerId}
    {checked sentAny : Bool} (h : Follows x vni destination nextHop taken y)
    (hactive : y.active = some ⟨call, rest, checked, sentAny⟩) :
    (vni, destination, nextHop) ∉ x.announcedRoutes ∧ call = .announce vni destination nextHop ∧
      y.announcedRoutes = (x.announcedRoutes.addNextHop vni destination nextHop).1 ∧
      y.log = x.log ++ [.called (.announce vni destination nextHop)] ∧
      (sentAny = true ↔ taken) := by
  cases h with
  | rejected _ hidle | returned _ _ hidle =>
    rw [hidle] at hactive
    cases hactive
  | visiting _ _ _ hnew hvisiting htable hlog htaken =>
    rw [hvisiting] at hactive
    cases hactive
    exact ⟨hnew, rfl, htable, hlog, htaken⟩

/-- What the rest of the run does. A step that puts the command into a channel makes `taken`
true. -/
theorem follows_step {l : ClientLabel} {taken : Prop}
    (h : Follows x vni destination nextHop taken y) (hcall : l.isCall = false)
    (hs : (lts servers).step y l = some y') :
    Follows x vni destination nextHop (taken ∨ ¬ TakesNothing y l) y' := by
  -- Only an `enqueue` can put a command into a channel.
  have hnothing : l ≠ .enqueue → (taken ∨ ¬ TakesNothing y l ↔ taken) := fun hl =>
    or_iff_left (not_not.mpr fun heq => absurd heq hl)
  cases l with
  | call call order => cases hcall
  | check =>
    rw [hnothing (by simp)]
    obtain ⟨call, s, rest, sentAny, hactive, -, h'⟩ := check_eq_some hs
    obtain ⟨hnew, rfl, htable, hlog, htaken⟩ := h.of_active hactive
    rcases h' with ⟨-, rfl⟩ | ⟨-, rfl⟩
    · exact .visiting _ _ _ hnew rfl htable hlog htaken
    · exact .visiting _ _ _ hnew rfl htable hlog htaken
  | enqueue =>
    obtain ⟨call, s, rest, checked, sentAny, hactive, -, h'⟩ := enqueue_eq_some hs
    obtain ⟨hnew, rfl, htable, hlog, htaken⟩ := h.of_active hactive
    have htakes : TakesNothing y .enqueue ↔ (y.peers s).phase = .closed := by
      simp [TakesNothing, hactive]
    rw [htakes]
    rcases h' with ⟨hclosed, rfl⟩ | ⟨hopen, -, rfl⟩
    · exact .visiting _ _ _ hnew rfl htable hlog (by simpa [hclosed] using htaken)
    · exact .visiting _ _ _ hnew rfl htable hlog (by simp [hopen])
  | finish =>
    rw [hnothing (by simp)]
    obtain ⟨call, checked, sentAny, hactive, rfl⟩ := finish_eq_some hs
    obtain ⟨hnew, rfl, htable, hlog, htaken⟩ := h.of_active hactive
    refine .returned (if !sentAny then some .notEstablished else none) hnew rfl htable ?_ ?_
    · rw [hlog, List.append_assoc]
      rfl
    · rw [← htaken]
      cases sentAny with
      | false => simp
      | true => simp
  | task server action =>
    rw [hnothing (by simp)]
    -- A task changes neither the table nor the call.
    obtain ⟨-, t, -, rfl⟩ := task_eq_some hs
    cases h with
    | rejected hknown hidle htable hlog => exact .rejected hknown hidle htable hlog
    | visiting _ _ _ hnew hvisiting htable hlog htaken =>
      exact .visiting _ _ _ hnew hvisiting htable hlog htaken
    | returned _ hnew hidle htable hlog htaken => exact .returned _ hnew hidle htable hlog htaken

/-- A run that begins with `announce`, and goes on without another call. -/
theorem follows_of_run {order : List ServerId} {rest : List ClientLabel}
    (hrun : ((lts servers).startAt x).Run
      (.call (.announce vni destination nextHop) order :: rest) y)
    (hrest : ∀ l ∈ rest, l.isCall = false) :
    Follows x vni destination nextHop
      (¬ ((lts servers).startAt x).Throughout TakesNothing
        (.call (.announce vni destination nextHop) order :: rest)) y := by
  induction rest using List.reverseRecOn generalizing y with
  | nil =>
    rw [← List.nil_append [_]] at hrun
    obtain ⟨x₀, hnil, hstep⟩ := hrun.snoc_inv
    cases hnil.unique Lts.Run.nil
    refine follows_call ?_ hstep
    rw [not_not]
    exact (Lts.throughout_snoc Lts.Run.nil).mpr ⟨Lts.throughout_nil _, fun h => by cases h⟩
  | append_singleton rest l ih =>
    rw [← List.cons_append] at hrun ⊢
    obtain ⟨y₀, hrun₀, hstep⟩ := hrun.snoc_inv
    rw [Lts.throughout_snoc hrun₀, not_and_or]
    exact follows_step (ih hrun₀ fun l' h => hrest l' (List.mem_append_left _ h))
      (hrest l (List.mem_append_right _ List.mem_cons_self)) hstep

/-- **What a failed announcement leaves behind.** Let `announce` begin in any state of the client
and return, with a peer task taking a step at any time. It leaves the table as it was whenever it
fails, if and only if the route was announced before or a peer has taken the command. -/
theorem failed_announce_iff {order : List ServerId} {rest : List ClientLabel}
    {error : Option Error}
    (hrun : ((lts servers).startAt x).Run
      (.call (.announce vni destination nextHop) order :: rest) x')
    (hrest : ∀ l ∈ rest, l.isCall = false)
    (hlog : x'.log = x.log ++ [.called (.announce vni destination nextHop),
      .returned (.announce vni destination nextHop) error]) :
    (error ≠ none → x'.announcedRoutes = x.announcedRoutes) ↔
      (vni, destination, nextHop) ∈ x.announcedRoutes ∨
        ¬ ((lts servers).startAt x).Throughout TakesNothing
          (.call (.announce vni destination nextHop) order :: rest) := by
  cases follows_of_run hrun hrest with
  | rejected hknown _ htable => exact iff_of_true (fun _ => htable) (Or.inl hknown)
  | visiting _ _ _ _ _ _ hactive =>
    rw [hactive] at hlog
    simp at hlog
  | returned error' hnew _ htable hreturned htaken =>
    rw [hreturned] at hlog
    have herror : error' = error := by simpa using hlog
    subst herror
    rw [← htaken, or_iff_right hnew]
    constructor
    · -- The route is in the table, and was not.
      intro hsame
      by_contra herror
      refine hnew ?_
      rw [← hsame herror, htable]
      exact (RouteTable.mem_addNextHop ..).mpr (Or.inl rfl)
    · intro hnone hsome
      exact absurd hnone hsome

/-- The announcement of a route in an established session. -/
def announcedOnce : List ClientLabel :=
  connects ⟨0⟩ [] ++
    [.call (.announce ⟨100⟩ (makeDest 1) (makeHop 1)) [⟨0⟩], .check, .enqueue, .finish]

/-- After the run `announcedOnce`, the same call fails and changes nothing. -/
theorem failed_announce_twice :
    ∃ x x', (lts 1).Run announcedOnce x ∧
      ((lts 1).startAt x).Run [.call (.announce ⟨100⟩ (makeDest 1) (makeHop 1)) [⟨0⟩]] x' ∧
      (⟨100⟩, makeDest 1, makeHop 1) ∈ x.announcedRoutes ∧
      x'.announcedRoutes = x.announcedRoutes := by
  have hrun : (lts 1).Run announcedOnce _ := Lts.Run.of_exec (by decide)
  have hcall : ((lts 1).startAt (((lts 1).exec announcedOnce).get (by decide))).Run
    [.call (.announce ⟨100⟩ (makeDest 1) (makeHop 1)) [⟨0⟩]] _ := Lts.Run.of_exec (by decide)
  have hfails : some Error.routeAlreadyAnnounced ≠ none := by decide
  exact ⟨_, _, hrun, hcall, by decide,
    (failed_announce_iff hcall (by decide) (by decide)).mpr (Or.inl (by decide)) hfails⟩

/-- A client announces a route while no peer is established, and tries again. Then its server is
reached. -/
def announcedUnconnected : List ClientLabel :=
  [.call (.announce ⟨100⟩ (makeDest 1) (makeHop 1)) [⟨0⟩], .check, .finish,
    .call (.announce ⟨100⟩ (makeDest 1) (makeHop 1)) [⟨0⟩],
    .task ⟨0⟩ .helloSent, .task ⟨0⟩ .helloReceived, .task ⟨0⟩ (.established []),
    .task ⟨0⟩ (.collect [(⟨100⟩, ⟨makeDest 1, makeHop 1⟩)]), .task ⟨0⟩ .reannounce]

/-- The first call of the run `announcedUnconnected` fails, and the route stays. So the second
call is rejected, and the session announces the route. -/
theorem failed_announce_kept :
    (¬ ∀ (servers : Nat) (x x' : Client) (vni : Vni) (destination : Destination)
      (nextHop : NextHop) (order : List ServerId) (rest : List ClientLabel) (error : Error),
      ((lts servers).startAt x).Run
        (.call (.announce vni destination nextHop) order :: rest) x' →
      (∀ l ∈ rest, l.isCall = false) →
      x'.log = x.log ++ [.called (.announce vni destination nextHop),
        .returned (.announce vni destination nextHop) (some error)] →
      x'.announcedRoutes = x.announcedRoutes) ∧
    ∃ x, (lts 1).Run announcedUnconnected x ∧
      .returned (.announce ⟨100⟩ (makeDest 1) (makeHop 1)) (some .routeAlreadyAnnounced) ∈ x.log ∧
      (x.peers ⟨0⟩).sent = [.update .add ⟨100⟩ (makeDest 1) (makeHop 1)] := by
  constructor
  · intro h
    have hrun : ((lts 1).startAt new).Run (announcedUnconnected.take 3) _ :=
      Lts.Run.of_exec (by decide)
    have hkept : (⟨100⟩, makeDest 1, makeHop 1) ∈
        (((lts 1).exec (announcedUnconnected.take 3)).get (by decide)).announcedRoutes := by decide
    have hsame := h 1 new _ ⟨100⟩ (makeDest 1) (makeHop 1) [⟨0⟩] [.check, .finish] .notEstablished
      hrun (by decide) (by decide)
    exact ne_of_mem_of_not_mem' hkept (by decide) hsame
  · have hrun : (lts 1).Run announcedUnconnected _ := Lts.Run.of_exec (by decide)
    exact ⟨_, hrun, by decide, by decide⟩

end Client

end RustBond
