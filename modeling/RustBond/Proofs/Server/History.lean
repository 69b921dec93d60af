import Mathlib.Data.List.Induction
import RustBond.Server.History

/-!
# `RustBond.Proofs.Server.History`: facts about disciplined histories

`owner` reads a history by addresses, as the actor does, while `holder` and `latest` read it
by sessions. `owner_eq_some_iff` connects the two readings for a disciplined history: an
address owns a route exactly when the session that holds it sent the most recent update on
the route, and this update is an add. `subscriber_iff` does the same for the subscriptions.
The proofs rest on two facts. A session holds at most one address (`holder_injective`), and a
session that connects has sent nothing before.
-/

set_option autoImplicit false

namespace RustBond.Event

/-- A disciplined history is extended by the events that are allowed after it. -/
theorem disciplined_snoc {h : List Event} {e : Event} :
    Disciplined (h ++ [e]) ↔ Disciplined h ∧ Allowed h e :=
  History.obeys_snoc Allowed h e

/-- At the start nobody holds an address. -/
@[simp] theorem holder_nil (a : SocketAddr) : holder [] a = none := rfl

/-- The holder of an address changes event by event. -/
@[simp] theorem holder_snoc (h : List Event) (e : Event) (a : SocketAddr) :
    holder (h ++ [e]) a = holderStep a (holder h a) e :=
  History.fold_snoc _ _ h e

/-- At the start there is no update on any route. -/
@[simp] theorem latest_nil (r : RouteKey) : latest [] r = none := rfl

/-- The latest update on a route changes event by event. -/
@[simp] theorem latest_snoc (h : List Event) (e : Event) (r : RouteKey) :
    latest (h ++ [e]) r = latestStep r (latest h r) e :=
  History.fold_snoc _ _ h e

/-- At the start no route has an owner. -/
@[simp] theorem owner_nil (r : RouteKey) : owner [] r = none := rfl

/-- The owner of a route changes event by event. -/
@[simp] theorem owner_snoc (h : List Event) (e : Event) (r : RouteKey) :
    owner (h ++ [e]) r = ownerStep r (owner h r) e :=
  History.fold_snoc _ _ h e

/-- If an event leaves `c` at the address, then it does so for every holder before it that
knows as much of `c`. -/
theorem holderStep_mono {a : SocketAddr} {e : Event} {c : SessionId}
    {holder holder' : Option SessionId} (himp : holder = some c → holder' = some c)
    (hstep : holderStep a holder e = some c) : holderStep a holder' e = some c := by
  obtain ⟨c₀, cmd⟩ := e
  cases cmd with
  | peerConnected addr tx =>
    simp only [holderStep] at hstep ⊢
    split at hstep
    · rename_i heq
      rw [if_pos heq]
      exact hstep
    · rename_i hne
      rw [if_neg hne]
      exact himp hstep
  | peerDisconnected addr =>
    simp only [holderStep] at hstep ⊢
    split at hstep
    · cases hstep
    · rename_i hne
      rw [if_neg hne]
      exact himp hstep
  | subscribe | unsubscribe | update | getStats => exact himp hstep

/-- The holder of an address after an event held it before, or connects with this event. -/
theorem holder_of_snoc {h : List Event} {e : Event} {a : SocketAddr} {c : SessionId}
    (hholder : holder (h ++ [e]) a = some c) :
    holder h a = some c ∨ ∃ tx, e.2 = .peerConnected a tx := by
  rw [holder_snoc] at hholder
  obtain ⟨c₀, cmd⟩ := e
  cases cmd with
  | peerConnected addr tx =>
    simp only [holderStep] at hholder
    split at hholder
    · rename_i heq
      exact Or.inr ⟨tx, by rw [heq]⟩
    · exact Or.inl hholder
  | peerDisconnected addr =>
    simp only [holderStep] at hholder
    split at hholder
    · cases hholder
    · exact Or.inl hholder
  | subscribe | unsubscribe | update | getStats => exact Or.inl hholder

/-- The events of a session are collected one by one. -/
theorem ofSession_snoc (h : List Event) (e : Event) (c : SessionId) :
    ofSession (h ++ [e]) c = if e.1 = c then ofSession h c ++ [e] else ofSession h c := by
  by_cases he : e.1 = c
  · simp [ofSession, he]
  · simp [ofSession, he]

/-- The most recent update of a session, after one more event. -/
theorem latestBy_snoc (h : List Event) (e : Event) (c : SessionId) (r : RouteKey) :
    latestBy (h ++ [e]) c r
      = if e.1 = c then (latestStep r (latest (ofSession h c) r) e).map Prod.snd
        else latestBy h c r := by
  unfold latestBy
  rw [ofSession_snoc]
  split
  · rw [latest_snoc]
  · rfl

/-- A session holds a route's most recent update in its own history as well. -/
theorem latestBy_of_latest {h : List Event} {r : RouteKey} {c : SessionId} {action : Action}
    (hl : latest h r = some (c, action)) : latestBy h c r = some action := by
  induction h using List.reverseRecOn with
  | nil => cases hl
  | append_singleton h e ih =>
    rw [latestBy_snoc]
    rw [latest_snoc] at hl
    obtain ⟨c', cmd⟩ := e
    cases cmd with
    | update fromAddr action' vni destination nextHop =>
      simp only [latestStep] at hl ⊢
      split at hl
      · rename_i hr
        cases hl
        simp [hr]
      · -- Another route. Whoever sent the command, nothing has changed.
        rename_i hr
        rw [if_neg hr]
        split
        · exact ih hl
        · exact ih hl
    | peerConnected | peerDisconnected | subscribe | unsubscribe | getStats =>
      split
      · exact ih hl
      · exact ih hl

/-- A route that some session has updated has a most recent update. -/
theorem exists_latest_of_latestBy {h : List Event} {r : RouteKey} {c : SessionId}
    {action : Action} (hl : latestBy h c r = some action) :
    ∃ c' action', latest h r = some (c', action') := by
  induction h using List.reverseRecOn with
  | nil => cases hl
  | append_singleton h e ih =>
    rw [latestBy_snoc] at hl
    rw [latest_snoc]
    obtain ⟨c', cmd⟩ := e
    cases cmd with
    | update fromAddr action' vni destination nextHop =>
      simp only [latestStep] at hl ⊢
      split
      · exact ⟨c', action', rfl⟩
      · rename_i hne
        simp only [hne, if_false] at hl
        split at hl
        · exact ih hl
        · exact ih hl
    | peerConnected | peerDisconnected | subscribe | unsubscribe | getStats =>
      split at hl
      · exact ih hl
      · exact ih hl

/-- A session that holds an address has sent a command. -/
theorem exists_mem_of_holder {h : List Event} {a : SocketAddr} {c : SessionId}
    (hc : holder h a = some c) : ∃ e ∈ h, e.1 = c := by
  induction h using List.reverseRecOn with
  | nil => cases hc
  | append_singleton h e ih =>
    -- What is true of an older command stays true.
    have hold : holder h a = some c → ∃ e' ∈ h ++ [e], e'.1 = c := fun hc' => by
      obtain ⟨e', hmem, heq⟩ := ih hc'
      exact ⟨e', List.mem_append_left _ hmem, heq⟩
    rw [holder_snoc] at hc
    obtain ⟨c', cmd⟩ := e
    cases cmd with
    | peerConnected addr tx =>
      simp only [holderStep] at hc
      split at hc
      · exact ⟨(c', .peerConnected addr tx), by simp, Option.some.inj hc⟩
      · exact hold hc
    | peerDisconnected addr =>
      simp only [holderStep] at hc
      split at hc
      · cases hc
      · exact hold hc
    | subscribe | unsubscribe | update | getStats => exact hold hc

/-- The most recent update on a route is a command of the history. -/
theorem mem_of_latest {h : List Event} {r : RouteKey} {c : SessionId} {action : Action}
    (hl : latest h r = some (c, action)) :
    ∃ addr, (c, .update addr action r.1 r.2.1 r.2.2) ∈ h := by
  induction h using List.reverseRecOn with
  | nil => cases hl
  | append_singleton h e ih =>
    have hold : latest h r = some (c, action) →
        ∃ addr, (c, .update addr action r.1 r.2.1 r.2.2) ∈ h ++ [e] := by
      intro hl'
      obtain ⟨addr, hmem⟩ := ih hl'
      exact ⟨addr, List.mem_append_left _ hmem⟩
    rw [latest_snoc] at hl
    obtain ⟨c', cmd⟩ := e
    cases cmd with
    | update fromAddr action' vni destination nextHop =>
      simp only [latestStep] at hl
      split at hl
      · rename_i hr
        cases hl
        cases hr
        exact ⟨fromAddr, List.mem_append_right _ (List.mem_singleton_self _)⟩
      · exact hold hl
    | peerConnected | peerDisconnected | subscribe | unsubscribe | getStats => exact hold hl

/-- A session whose update is the most recent one has sent a command. -/
theorem exists_mem_of_latest {h : List Event} {r : RouteKey} {c : SessionId} {action : Action}
    (hl : latest h r = some (c, action)) : ∃ e ∈ h, e.1 = c := by
  obtain ⟨addr, hmem⟩ := mem_of_latest hl
  exact ⟨_, hmem, rfl⟩

/-- A session holds at most one address. -/
theorem holder_injective {h : List Event} (hd : Disciplined h) {a a' : SocketAddr}
    {c : SessionId} (ha : holder h a = some c) (ha' : holder h a' = some c) : a = a' := by
  induction h using List.reverseRecOn with
  | nil => cases ha
  | append_singleton h e ih =>
    obtain ⟨hdh, hallowed⟩ := disciplined_snoc.mp hd
    rw [holder_snoc] at ha ha'
    obtain ⟨c', cmd⟩ := e
    cases cmd with
    | peerConnected addr tx =>
      -- A session that connects holds nothing before, because it has sent nothing.
      obtain ⟨-, -, hfresh⟩ := hallowed
      have hne : ∀ b, holder h b = some c → c' ≠ c := fun b hb heq => by
        obtain ⟨e', hmem, he'⟩ := exists_mem_of_holder hb
        exact hfresh e' hmem (he'.trans heq.symm)
      simp only [holderStep] at ha ha'
      split at ha <;> split at ha'
      · simp_all
      · exact absurd (Option.some.inj ha) (hne a' ha')
      · exact absurd (Option.some.inj ha') (hne a ha)
      · exact ih hdh ha ha'
    | peerDisconnected addr =>
      simp only [holderStep] at ha ha'
      split at ha
      · cases ha
      · split at ha'
        · cases ha'
        · exact ih hdh ha ha'
    | subscribe | unsubscribe | update | getStats => exact ih hdh ha ha'

/-- Two addresses are held by two sessions. -/
theorem ne_of_holder {h : List Event} (hd : Disciplined h) {a a' : SocketAddr} {c c' : SessionId}
    (ha : holder h a = some c) (ha' : holder h a' = some c') (hne : a ≠ a') : c ≠ c' := by
  rintro rfl
  exact hne (holder_injective hd ha ha')

/-- An address owns a route exactly when the session that holds it sent the most recent
update on the route, and this update is an add. -/
theorem owner_eq_some_iff {h : List Event} (hd : Disciplined h) (r : RouteKey)
    (a : SocketAddr) :
    owner h r = some a ↔ ∃ c, holder h a = some c ∧ latest h r = some (c, .add) := by
  induction h using List.reverseRecOn generalizing a with
  | nil => simp
  | append_singleton h e ih =>
    obtain ⟨hdh, hallowed⟩ := disciplined_snoc.mp hd
    have ih := ih hdh
    rw [owner_snoc, holder_snoc, latest_snoc]
    obtain ⟨c', cmd⟩ := e
    cases cmd with
    | peerConnected addr tx =>
      obtain ⟨hfree, -, hfresh⟩ := hallowed
      show owner h r = some a ↔ ∃ c,
        (if addr = a then some c' else holder h a) = some c ∧ latest h r = some (c, .add)
      rw [ih a]
      split
      · -- Nobody held the address, and the new session has sent no update yet.
        rename_i haddr
        subst haddr
        constructor
        · rintro ⟨c, hc, -⟩
          rw [hfree] at hc
          cases hc
        · rintro ⟨c, hc, hl⟩
          obtain ⟨e', hmem, he'⟩ := exists_mem_of_latest hl
          exact absurd (he'.trans (Option.some.inj hc).symm) (hfresh e' hmem)
      · exact Iff.rfl
    | peerDisconnected addr =>
      show (if owner h r = some addr then none else owner h r) = some a ↔ ∃ c,
        (if addr = a then none else holder h a) = some c ∧ latest h r = some (c, .add)
      by_cases haddr : addr = a
      · subst haddr
        by_cases how : owner h r = some addr
        · simp [how]
        · simp [how]
      · rw [if_neg haddr, ← ih a]
        by_cases how : owner h r = some addr
        · simp [how, haddr]
        · simp [how]
    | update fromAddr action vni destination nextHop =>
      -- `hallowed`: the sender holds the address it sends from.
      by_cases hr : (vni, destination, nextHop) = r
      · cases action with
        | add =>
          simp only [ownerStep, holderStep, latestStep, hr, if_true, Option.some.injEq,
            Prod.mk.injEq, and_true]
          constructor
          · rintro rfl
            exact ⟨c', hallowed, rfl⟩
          · rintro ⟨c, hc, rfl⟩
            exact holder_injective hdh hallowed hc
        | remove => simp [ownerStep, latestStep, hr]
      · cases action with
        | add => simpa [ownerStep, holderStep, latestStep, hr] using ih a
        | remove => simpa [ownerStep, holderStep, latestStep, hr] using ih a
    | subscribe | unsubscribe | getStats => exact ih a

/-- At the start nobody is subscribed. -/
@[simp] theorem subscriber_nil (a : SocketAddr) (v : Vni) : subscriber [] a v = false := rfl

/-- The subscriptions of an address change event by event. -/
@[simp] theorem subscriber_snoc (h : List Event) (e : Event) (a : SocketAddr) (v : Vni) :
    subscriber (h ++ [e]) a v = subscriberStep a v (subscriber h a v) e :=
  History.fold_snoc _ _ h e

/-- If an event leaves the address subscribed, then it does so whatever more was subscribed
before it. -/
theorem subscriberStep_mono {a : SocketAddr} {v : Vni} {e : Event} {sub sub' : Bool}
    (himp : sub = true → sub' = true) (hstep : subscriberStep a v sub e = true) :
    subscriberStep a v sub' e = true := by
  obtain ⟨c, cmd⟩ := e
  cases cmd with
  | subscribe addr vni responseTx =>
    simp only [subscriberStep] at hstep ⊢
    split at hstep
    · rename_i heq
      rw [if_pos heq]
    · rename_i hne
      rw [if_neg hne]
      exact himp hstep
  | unsubscribe addr vni =>
    simp only [subscriberStep] at hstep ⊢
    split at hstep
    · cases hstep
    · rename_i hne
      rw [if_neg hne]
      exact himp hstep
  | peerDisconnected addr =>
    simp only [subscriberStep] at hstep ⊢
    split at hstep
    · cases hstep
    · rename_i hne
      rw [if_neg hne]
      exact himp hstep
  | peerConnected | update | getStats => exact himp hstep

/-- The subscriptions of a session change with its own events only. -/
theorem subscribed_snoc (h : List Event) (e : Event) (c : SessionId) (v : Vni) :
    subscribed (h ++ [e]) c v
      = if e.1 = c then subscribedStep v (subscribed h c v) e else subscribed h c v := by
  unfold subscribed
  rw [ofSession_snoc]
  split
  · exact History.fold_snoc _ _ _ e
  · rfl

/-- A session that has sent nothing is not subscribed. -/
theorem subscribed_of_fresh {h : List Event} {c : SessionId} (hfresh : ∀ e ∈ h, e.1 ≠ c)
    (v : Vni) : subscribed h c v = false := by
  have hnone : ofSession h c = [] := by
    refine List.filter_eq_nil_iff.mpr ?_
    intro e hmem
    simpa using hfresh e hmem
  rw [subscribed, hnone]
  rfl

/-- An address is subscribed exactly when the session that holds it is. -/
theorem subscriber_iff {h : List Event} (hd : Disciplined h) (a : SocketAddr) (v : Vni) :
    subscriber h a v = true ↔ ∃ c, holder h a = some c ∧ subscribed h c v = true := by
  induction h using List.reverseRecOn with
  | nil => simp
  | append_singleton h e ih =>
    obtain ⟨hdh, hallowed⟩ := disciplined_snoc.mp hd
    have ih := ih hdh
    rw [subscriber_snoc, holder_snoc]
    simp only [subscribed_snoc]
    obtain ⟨c', cmd⟩ := e
    cases cmd with
    | peerConnected addr tx =>
      obtain ⟨hfree, -, hfresh⟩ := hallowed
      simp only [subscriberStep, holderStep, subscribedStep, ite_self]
      rw [ih]
      split
      · -- Nobody held the address, and the new session has not subscribed yet.
        rename_i haddr
        rw [← haddr, hfree]
        have hnot : subscribed h c' v = false := subscribed_of_fresh hfresh v
        simp [hnot]
      · exact Iff.rfl
    | peerDisconnected addr =>
      simp only [subscriberStep, holderStep, subscribedStep, ite_self]
      by_cases haddr : addr = a
      · -- Without a holder, nobody is subscribed.
        simp [haddr]
      · simpa [haddr] using ih
    | subscribe addr vni responseTx =>
      have hsender : holder h addr = some c' := hallowed.1
      simp only [subscriberStep, holderStep, subscribedStep]
      by_cases haddr : addr = a
      · subst haddr
        rw [hsender] at ih ⊢
        by_cases hv : vni = v
        · simp [hv]
        · simpa [hv] using ih
      · -- The session that holds the other address has sent nothing.
        rw [if_neg (fun h' => haddr h'.1), ih]
        refine exists_congr fun c => and_congr_right fun hc => ?_
        rw [if_neg (ne_of_holder hdh hsender hc haddr)]
    | unsubscribe addr vni =>
      have hsender : holder h addr = some c' := hallowed
      simp only [subscriberStep, holderStep, subscribedStep]
      by_cases haddr : addr = a
      · subst haddr
        rw [hsender] at ih ⊢
        by_cases hv : vni = v
        · simp [hv]
        · simpa [hv] using ih
      · rw [if_neg (fun h' => haddr h'.1), ih]
        refine exists_congr fun c => and_congr_right fun hc => ?_
        rw [if_neg (ne_of_holder hdh hsender hc haddr)]
    | update | getStats =>
      simpa only [subscriberStep, holderStep, subscribedStep, ite_self] using ih

/-- The holder of an address has held it since its first command. -/
theorem holder_of_append {h h' : List Event} (hd : Disciplined (h ++ h')) {a : SocketAddr}
    {c : SessionId} (hc : holder (h ++ h') a = some c) (hsent : ∃ e ∈ h, e.1 = c) :
    holder h a = some c := by
  induction h' using List.reverseRecOn with
  | nil => simpa using hc
  | append_singleton h' e ih =>
    rw [← List.append_assoc] at hd hc
    obtain ⟨hdh, hallowed⟩ := disciplined_snoc.mp hd
    rw [holder_snoc] at hc
    obtain ⟨c', cmd⟩ := e
    cases cmd with
    | peerConnected addr tx =>
      obtain ⟨-, -, hfresh⟩ := hallowed
      simp only [holderStep] at hc
      split at hc
      · -- The session would connect after it has sent a command.
        obtain ⟨e, hmem, he⟩ := hsent
        have heq : c' = c := Option.some.inj hc
        exact absurd (he.trans heq.symm) (hfresh e (List.mem_append_left _ hmem))
      · exact ih hdh hc
    | peerDisconnected addr =>
      simp only [holderStep] at hc
      split at hc
      · cases hc
      · exact ih hdh hc
    | subscribe | unsubscribe | update | getStats => exact ih hdh hc

/-- A subscribed session has sent a subscribe command. -/
theorem exists_mem_of_subscribed {h : List Event} {c : SessionId} {v : Vni}
    (hsub : subscribed h c v = true) : ∃ e ∈ h, e.1 = c := by
  by_contra hnone
  have hfresh : ∀ e ∈ h, e.1 ≠ c := fun e hmem heq => hnone ⟨e, hmem, heq⟩
  rw [subscribed_of_fresh hfresh] at hsub
  cases hsub

/-- Only an unsubscribe command of the session ends its subscription. -/
theorem subscribed_snoc_of_ne {h : List Event} {e : Event} {c : SessionId} {v : Vni}
    (hsub : subscribed h c v = true) (hnot : ∀ addr, e ≠ (c, .unsubscribe addr v)) :
    subscribed (h ++ [e]) c v = true := by
  rw [subscribed_snoc]
  split
  · rename_i hc
    obtain ⟨c', cmd⟩ := e
    cases cmd with
    | subscribe addr vni responseTx =>
      simp only [subscribedStep]
      split
      · rfl
      · exact hsub
    | unsubscribe addr vni =>
      simp only [subscribedStep]
      split
      · rename_i hv
        subst hv
        have hc' : c' = c := hc
        exact absurd (by rw [hc']) (hnot addr)
      · exact hsub
    | peerConnected | peerDisconnected | update | getStats => exact hsub
  · exact hsub

/-- A session that has subscribed and never unsubscribed is subscribed. -/
theorem subscribed_of_mem {h : List Event} {c : SessionId} {v : Vni}
    (hmem : ∃ addr tx, (c, .subscribe addr v tx) ∈ h)
    (hnever : ∀ addr, (c, .unsubscribe addr v) ∉ h) : subscribed h c v = true := by
  induction h using List.reverseRecOn with
  | nil =>
    obtain ⟨addr, tx, hmem⟩ := hmem
    cases hmem
  | append_singleton h e ih =>
    have hnever' : ∀ addr, (c, .unsubscribe addr v) ∉ h :=
      fun addr hold => hnever addr (List.mem_append_left _ hold)
    have hnot : ∀ addr, e ≠ (c, .unsubscribe addr v) := by
      intro addr heq
      exact hnever addr (heq ▸ List.mem_append_right _ (List.mem_singleton_self e))
    obtain ⟨addr, tx, hmem⟩ := hmem
    -- The subscribe command is an older one, or the last one.
    rcases List.mem_append.mp hmem with hold | hnew
    · exact subscribed_snoc_of_ne (ih ⟨addr, tx, hold⟩ hnever') hnot
    · rw [List.mem_singleton] at hnew
      subst hnew
      rw [subscribed_snoc]
      simp [subscribedStep]

/-- A command that leaves its session subscribed either subscribes it, or finds it
subscribed and does not end that. -/
theorem subscribed_of_snoc {h : List Event} {e : Event} {c : SessionId} {v : Vni}
    (hsub : subscribed (h ++ [e]) c v = true)
    (hnot : ∀ addr tx, e ≠ (c, .subscribe addr v tx)) :
    subscribed h c v = true ∧ ∀ addr, e ≠ (c, .unsubscribe addr v) := by
  rw [subscribed_snoc] at hsub
  split at hsub
  · rename_i hc
    obtain ⟨c', cmd⟩ := e
    have hc' : c' = c := hc
    subst hc'
    cases cmd with
    | subscribe addr vni responseTx =>
      simp only [subscribedStep] at hsub
      split at hsub
      · rename_i hv
        subst hv
        exact absurd rfl (hnot addr responseTx)
      · exact ⟨hsub, fun addr' heq => by cases heq⟩
    | unsubscribe addr vni =>
      simp only [subscribedStep] at hsub
      split at hsub
      · cases hsub
      · rename_i hv
        refine ⟨hsub, ?_⟩
        intro addr' heq
        cases heq
        exact hv rfl
    | peerConnected | peerDisconnected | update | getStats =>
      exact ⟨hsub, fun addr' heq => by cases heq⟩
  · rename_i hc
    -- The command is one of another session.
    refine ⟨hsub, ?_⟩
    intro addr heq
    exact hc (by rw [heq])

/-- A command that is no update on a route keeps the most recent update on it. -/
theorem latest_snoc_of_ne {h : List Event} {e : Event} {r : RouteKey}
    (hne : ∀ addr action, e.2 ≠ .update addr action r.1 r.2.1 r.2.2) :
    latest (h ++ [e]) r = latest h r := by
  rw [latest_snoc]
  obtain ⟨c, cmd⟩ := e
  cases cmd with
  | update fromAddr action vni destination nextHop =>
    simp only [latestStep]
    refine if_neg ?_
    rintro rfl
    exact hne fromAddr action rfl
  | peerConnected | peerDisconnected | subscribe | unsubscribe | getStats => rfl

end RustBond.Event
