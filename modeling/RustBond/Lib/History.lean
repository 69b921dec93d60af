import Mathlib.Init

/-!
# `RustBond.Lib.History`: histories and their rules

A history is a list of events, oldest first. A rule `ok past e` says when the event `e` may
follow the history `past`. `History.Obeys ok h` states that every event of `h` follows the
events before it by the rule. Such a predicate is closed under prefixes, and the last event
can be split off (`obeys_snoc`), which is the step of every induction over a history.

`History.fold f b h` is what an observer with state `b` and transition `f` has recorded
after `h`.
-/

set_option autoImplicit false

namespace History

variable {E B : Type}

/-- `es` follows `past` by the rule. -/
def ObeysFrom (ok : List E → E → Prop) : List E → List E → Prop
  | _, [] => True
  | past, e :: es => ok past e ∧ ObeysFrom ok (past ++ [e]) es

/-- Every event follows the events before it by the rule. -/
def Obeys (ok : List E → E → Prop) (h : List E) : Prop := ObeysFrom ok [] h

instance decidableObeysFrom (ok : List E → E → Prop) [∀ past e, Decidable (ok past e)] :
    (past es : List E) → Decidable (ObeysFrom ok past es)
  | _, [] => inferInstanceAs (Decidable True)
  | past, e :: es =>
    haveI := decidableObeysFrom ok (past ++ [e]) es
    inferInstanceAs (Decidable (ok past e ∧ ObeysFrom ok (past ++ [e]) es))

instance (ok : List E → E → Prop) [∀ past e, Decidable (ok past e)] (h : List E) :
    Decidable (Obeys ok h) :=
  decidableObeysFrom ok [] h

/-- Obedience of two histories, one after the other: the second one continues the past of the
first. -/
theorem obeysFrom_append (ok : List E → E → Prop) (past h h' : List E) :
    ObeysFrom ok past (h ++ h') ↔ ObeysFrom ok past h ∧ ObeysFrom ok (past ++ h) h' := by
  induction h generalizing past with
  | nil => simp [ObeysFrom]
  | cons e h ih =>
    simp only [List.cons_append, ObeysFrom, ih, and_assoc, List.append_assoc, List.nil_append]

/-- The step of an induction over a history. -/
theorem obeys_snoc (ok : List E → E → Prop) (h : List E) (e : E) :
    Obeys ok (h ++ [e]) ↔ Obeys ok h ∧ ok h e := by
  unfold Obeys
  rw [obeysFrom_append]
  simp [ObeysFrom]

/-- There is nothing to obey in an empty history. -/
theorem obeys_nil (ok : List E → E → Prop) : Obeys ok [] := trivial

/-- Every prefix of a lawful history is lawful. -/
theorem Obeys.of_append {ok : List E → E → Prop} {h h' : List E} (hh : Obeys ok (h ++ h')) :
    Obeys ok h :=
  ((obeysFrom_append ok [] h h').mp hh).1

/-- An event inside a lawful history follows the events before it by the rule. -/
theorem Obeys.at {ok : List E → E → Prop} {before after : List E} {e : E}
    (hh : Obeys ok (before ++ e :: after)) : ok before e := by
  have h := ((obeysFrom_append ok [] before (e :: after)).mp hh).2
  rw [List.nil_append] at h
  exact h.1

/-- What an observer has recorded after a history. -/
def fold (f : B → E → B) (b : B) (h : List E) : B := h.foldl f b

/-- A fold takes the last event last. -/
@[simp] theorem fold_snoc (f : B → E → B) (b : B) (h : List E) (e : E) :
    fold f b (h ++ [e]) = f (fold f b h) e := by
  simp [fold]

end History
