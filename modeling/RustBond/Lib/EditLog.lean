import Mathlib.Data.List.Basic

/-!
# `RustBond.Lib.EditLog`: sets maintained by a log of edits

An edit inserts one element into a set or erases one. Only the last edit on an element
decides whether the element is in the set after a log (`EditLog.After`), so logs are
compared element by element:

* `after_append` splits a log;
* `after_of_untouched` and `after_skip` drop what has no edit on the element;
* `alternates_flags_snoc` is the step of an induction that shows that the edits on an
  element are insertions and erasures by turns;
* `after_snapshot` is the reason why a full copy may overtake a log. A log that leads to
  a set still leads to it when insertions of exactly the members of that set are put in
  front of any of its parts.
-/

set_option autoImplicit false

/-- An edit of a set. -/
inductive Edit (A : Type) where
  | insert (a : A)
  | erase (a : A)
deriving DecidableEq

/-- The element that an edit is about. -/
def Edit.target {A : Type} : Edit A → A
  | .insert a => a
  | .erase a => a

/-- Whether an edit leaves its element in the set. -/
def Edit.inserts {A : Type} : Edit A → Bool
  | .insert _ => true
  | .erase _ => false

/-- The edit on the image of its element. -/
def Edit.map {A B : Type} (f : A → B) : Edit A → Edit B
  | .insert a => .insert (f a)
  | .erase a => .erase (f a)

/-- A mapped edit is an edit of the mapped element. -/
@[simp] theorem Edit.target_map {A B : Type} (f : A → B) (e : Edit A) :
    (e.map f).target = f e.target := by
  cases e with
  | insert | erase => rfl

namespace EditLog

variable {A : Type} [DecidableEq A]

/-- What the last edit on `a` did. `none` means that the log does not touch `a`. -/
def last (a : A) : List (Edit A) → Option Bool
  | [] => none
  | e :: log => (last a log).or (if e.target = a then some e.inserts else none)

/-- Whether `a` is in the set after the log, when `start` tells whether it was before. -/
def After (a : A) (start : Prop) (log : List (Edit A)) : Prop :=
  match last a log with
  | some b => b = true
  | none => start

instance decidableAfter (a : A) (start : Prop) [Decidable start] (log : List (Edit A)) :
    Decidable (After a start log) :=
  match h : last a log with
  | some b => decidable_of_iff (b = true) (by rw [After, h])
  | none => decidable_of_iff start (by rw [After, h])

/-- An empty log says nothing of an element. -/
@[simp] theorem last_nil (a : A) : last a [] = none := rfl

/-- An empty log leaves everything as it was. -/
@[simp] theorem after_nil (a : A) (start : Prop) : After a start [] = start := rfl

/-- An element that was not there is there after the log exactly if its last edit is an insertion.
-/
theorem after_false_iff (a : A) (log : List (Edit A)) :
    After a False log ↔ last a log = some true := by
  unfold After
  cases last a log with
  | none => simp
  | some b => simp

/-- The last word is in the second log if that has one. -/
theorem last_append (a : A) (log log' : List (Edit A)) :
    last a (log ++ log') = (last a log').or (last a log) := by
  induction log with
  | nil => rw [List.nil_append, last_nil, Option.or_none]
  | cons e log ih => rw [List.cons_append, last, last, ih, Option.or_assoc]

/-- A log acts in two parts. -/
theorem after_append (a : A) (start : Prop) (log log' : List (Edit A)) :
    After a start (log ++ log') = After a (After a start log) log' := by
  unfold After
  rw [last_append]
  cases last a log' with
  | none => rfl
  | some b => rfl

/-- One edit decides its own element and keeps the others. -/
theorem after_singleton (a : A) (start : Prop) (e : Edit A) :
    After a start [e] = if e.target = a then e.inserts = true else start := by
  unfold After
  by_cases h : e.target = a
  · simp [last, h]
  · simp [last, h]

/-- After an insertion the element is there, and the others are as before. -/
theorem after_insert (a b : A) (start : Prop) :
    After a start [.insert b] ↔ a = b ∨ start := by
  rw [after_singleton]
  by_cases h : b = a
  · simp [h, Edit.target, Edit.inserts]
  · simp [h, Edit.target, Ne.symm h]

/-- After an erasure the element is gone, and the others are as before. -/
theorem after_erase (a b : A) (start : Prop) :
    After a start [.erase b] ↔ a ≠ b ∧ start := by
  rw [after_singleton]
  by_cases h : b = a
  · simp [h, Edit.target, Edit.inserts]
  · simp [h, Edit.target, Ne.symm h]

/-- A log has its effect edit by edit. -/
theorem after_cons (a : A) (start : Prop) (e : Edit A) (log : List (Edit A)) :
    After a start (e :: log) = After a (After a start [e]) log := by
  rw [← after_append, List.singleton_append]

/-- A log that never names an element says nothing of it. -/
theorem last_eq_none {a : A} {log : List (Edit A)} (h : ∀ e ∈ log, e.target ≠ a) :
    last a log = none := by
  induction log with
  | nil => rfl
  | cons e log ih =>
    have htail : last a log = none := ih fun e' he' => h e' (List.mem_cons_of_mem _ he')
    rw [last, htail, Option.none_or, if_neg (h e List.mem_cons_self)]

/-- An element is there after the log all the more if it was there before. -/
theorem After.mono {a : A} {start start' : Prop} {log : List (Edit A)} (himp : start → start')
    (h : After a start log) : After a start' log := by
  unfold After at h ⊢
  cases hlast : last a log with
  | none =>
    rw [hlast] at h
    exact himp h
  | some b =>
    rw [hlast] at h
    exact h

/-- A log that does not insert an element does not bring it into the set. -/
theorem of_after_of_not_insert {a : A} {start : Prop} {log : List (Edit A)}
    (hnot : .insert a ∉ log) (h : After a start log) : start := by
  induction log generalizing start with
  | nil => exact h
  | cons e log ih =>
    rw [after_cons] at h
    have hfirst : After a start [e] := ih (fun hmem => hnot (List.mem_cons_of_mem _ hmem)) h
    rw [after_singleton] at hfirst
    split at hfirst
    · -- An edit that leaves `a` in the set is the insertion of `a`.
      rename_i htarget
      cases e with
      | insert b =>
        have heq : b = a := htarget
        exact absurd List.mem_cons_self (heq ▸ hnot)
      | erase b => cases hfirst
    · exact hfirst

/-- Only an edit on an element can be the last one on it. -/
theorem mem_target_of_last {a : A} {log : List (Edit A)} {b : Bool} (h : last a log = some b) :
    a ∈ log.map Edit.target := by
  by_contra hnot
  have hnone : last a log = none := by
    refine last_eq_none fun e he heq => hnot ?_
    rw [← heq]
    exact List.mem_map_of_mem he
  rw [hnone] at h
  cases h

/-- A log that does not erase an element leaves it in the set. -/
theorem after_of_of_not_erase {a : A} {start : Prop} {log : List (Edit A)}
    (hnot : .erase a ∉ log) (h : start) : After a start log := by
  induction log generalizing start with
  | nil => exact h
  | cons e log ih =>
    rw [after_cons]
    refine ih (fun hmem => hnot (List.mem_cons_of_mem _ hmem)) ?_
    rw [after_singleton]
    split
    · rename_i htarget
      cases e with
      | insert b => rfl
      | erase b =>
        have heq : b = a := htarget
        exact absurd List.mem_cons_self (heq ▸ hnot)
    · exact h

/-- A log that does not touch an element keeps it as it was. -/
theorem after_of_untouched {a : A} {log : List (Edit A)} (h : ∀ e ∈ log, e.target ≠ a)
    (start : Prop) : After a start log = start := by
  unfold After
  rw [last_eq_none h]

/-- A part of a log that does not touch an element may be left out. -/
theorem after_skip {a : A} {middle : List (Edit A)} (h : ∀ e ∈ middle, e.target ≠ a)
    (start : Prop) (log log' : List (Edit A)) :
    After a start (log ++ middle ++ log') = After a start (log ++ log') := by
  rw [after_append, after_append, after_of_untouched h, ← after_append]

/-- A copy that is inserted as a whole has the last word on its own elements. -/
theorem last_map_insert (a : A) (copy : List A) :
    last a (copy.map .insert) = if a ∈ copy then some true else none := by
  induction copy with
  | nil => rfl
  | cons b copy ih =>
    rw [List.map_cons, last, ih]
    by_cases hmem : a ∈ copy
    · simp [hmem]
    · simp [hmem, Edit.target, Edit.inserts, @eq_comm _ b]

/-- Erasing a list of elements. -/
theorem after_map_erase (a : A) (start : Prop) (gone : List A) :
    After a start (gone.map .erase) ↔ start ∧ a ∉ gone := by
  induction gone generalizing start with
  | nil => simp
  | cons b gone ih =>
    rw [List.map_cons, after_cons, ih, after_erase, List.mem_cons, not_or]
    constructor
    · rintro ⟨⟨hne, hstart⟩, hnot⟩
      exact ⟨hstart, hne, hnot⟩
    · rintro ⟨hstart, hne, hnot⟩
      exact ⟨⟨hne, hstart⟩, hnot⟩

/-- A copy of the final set may overtake any part of the log that leads to it. -/
theorem after_snapshot {a : A} {start goal : Prop} {log log' : List (Edit A)} {copy : List A}
    (hlog : After a start (log ++ log') ↔ goal) (hcopy : a ∈ copy ↔ goal) :
    After a start (log ++ copy.map .insert ++ log') ↔ goal := by
  rw [after_append] at hlog ⊢
  rw [after_append]
  unfold After at hlog ⊢
  cases hlast : last a log' with
  | some b =>
    -- The rest of the log decides, whatever came before it.
    rw [hlast] at hlog
    exact hlog
  | none =>
    rw [hlast] at hlog
    rw [last_map_insert]
    by_cases hmem : a ∈ copy
    · simp [hmem, hcopy.mp hmem]
    · simpa [hmem] using hlog

/-- A copy that nothing else touches is all there is. -/
theorem after_copy {a : A} {start : Prop} {log log' : List (Edit A)} {copy : List A}
    (hstart : ¬start) (hlog : ∀ e ∈ log, e.target ≠ a) (hlog' : ∀ e ∈ log', e.target ≠ a) :
    After a start (log ++ copy.map .insert ++ log') ↔ a ∈ copy := by
  rw [after_append, after_of_untouched hlog', after_append, after_of_untouched hlog]
  unfold After
  rw [last_map_insert]
  by_cases hmem : a ∈ copy
  · simp [hmem]
  · simp [hmem, hstart]

/-! ### Edits by turns -/

/-- The edits on `a`, oldest first, as whether they insert it. -/
def flags (a : A) (log : List (Edit A)) : List Bool :=
  (log.filter fun e => e.target = a).map Edit.inserts

/-- The list is `b, !b, b, !b, …`. -/
def Alternates : Bool → List Bool → Prop
  | _, [] => True
  | b, b' :: flags => b' = b ∧ Alternates (!b) flags

/-- The last word is the last flag. -/
theorem last_eq_getLast? (a : A) (log : List (Edit A)) : last a log = (flags a log).getLast? := by
  induction log with
  | nil => rfl
  | cons e log ih =>
    rw [last, ih]
    unfold flags
    by_cases h : e.target = a
    · rw [List.filter_cons_of_pos (by simpa using h), List.map_cons, List.getLast?_cons, if_pos h]
      cases (List.map Edit.inserts (List.filter (fun e => e.target = a) log)).getLast? with
      | none => rfl
      | some b => rfl
    · rw [List.filter_cons_of_neg (by simpa using h), if_neg h, Option.or_none]

/-- The flags of two logs, one after the other. -/
theorem flags_append (a : A) (log log' : List (Edit A)) :
    flags a (log ++ log') = flags a log ++ flags a log' := by
  unfold flags
  rw [List.filter_append, List.map_append]

/-- An edit may move over edits of other elements. -/
theorem flags_comm {e : Edit A} {log : List (Edit A)} (h : ∀ e' ∈ log, e'.target ≠ e.target)
    (a : A) : flags a ([e] ++ log) = flags a (log ++ [e]) := by
  rw [flags_append, flags_append]
  by_cases ha : e.target = a
  · have hnone : flags a log = [] := by
      unfold flags
      rw [List.filter_eq_nil_iff.mpr, List.map_nil]
      intro e' he'
      simpa [← ha] using h e' he'
    rw [hnone, List.append_nil, List.nil_append]
  · have hnone : flags a [e] = [] := by simp [flags, ha]
    rw [hnone, List.append_nil, List.nil_append]

/-- The list goes on with the opposite of its last element. -/
theorem alternates_snoc (b b' : Bool) (flags : List Bool) :
    Alternates b (flags ++ [b']) ↔
      Alternates b flags ∧ b' = (flags.getLast?.map not).getD b := by
  induction flags generalizing b with
  | nil => simp [Alternates]
  | cons c flags ih =>
    rw [List.cons_append, Alternates, Alternates, ih, List.getLast?_cons, and_assoc]
    refine and_congr_right fun hc => and_congr_right fun _ => ?_
    subst hc
    cases flags.getLast? with
    | none => rfl
    | some d => rfl

/-- The next edit on `a` has to change whether `a` is in the set. -/
theorem alternates_flags_snoc (a : A) (log : List (Edit A)) (e : Edit A) :
    Alternates true (flags a (log ++ [e])) ↔
      Alternates true (flags a log) ∧
        (e.target = a → (e.inserts = true ↔ ¬ After a False log)) := by
  rw [flags_append]
  by_cases h : e.target = a
  · have hone : flags a [e] = [e.inserts] := by simp [flags, h]
    rw [hone, alternates_snoc, ← last_eq_getLast?]
    unfold After
    cases last a log with
    | none => simp [h]
    | some b => cases b <;> simp [h]
  · have hnone : flags a [e] = [] := by simp [flags, h]
    rw [hnone, List.append_nil]
    simp [h]

end EditLog
