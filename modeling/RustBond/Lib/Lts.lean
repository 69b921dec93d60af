import Mathlib.Data.List.Induction

/-!
# `RustBond.Lib.Lts`: runs of a labelled transition system

A system is an initial state and a partial step function. The label of a step names
everything the environment decides, so the step itself is a function and a run can be
evaluated (`Lts.exec`).

* `Run.invariant` is the induction rule: what the initial state has and every step keeps
  holds in every reached state.
* `Run.invariant_of_throughout` is the same rule for the runs whose steps all meet a
  condition, and `Run.invariant_from` for what follows a state of a run.
* `Run.unwind` compares two runs that agree on the labels that an observer sees.
* `always_iff_throughout` is the exactness rule. Let `Q` be an invariant of the steps that
  meet `ok`, stronger than `P`, and let a step from a `Q` state that does not meet `ok`
  break `P`. Then `P` holds in every state of a run if and only if every step of the run
  meets `ok`.
-/

set_option autoImplicit false

/-- An initial state and a partial step function. -/
structure Lts (S L : Type) where
  /-- The state every run starts in. -/
  init : S
  /-- One step. `none` means that the label is not enabled. -/
  step : S → L → Option S

namespace Lts

variable {S L : Type} (T : Lts S L)

/-- The same system, started in another state. -/
def startAt (T : Lts S L) (s : S) : Lts S L := ⟨s, T.step⟩

/-- `T.Run ls s`: the labels `ls`, oldest first, lead from the initial state to `s`. -/
inductive Run : List L → S → Prop
  | nil : Run [] T.init
  | snoc {ls : List L} {s s' : S} {l : L} :
      Run ls s → T.step s l = some s' → Run (ls ++ [l]) s'

/-- The state that the labels `ls` lead to, if every one of them is enabled in turn. -/
def exec (ls : List L) : Option S := ls.foldlM T.step T.init

/-- Every step of `ls` meets `ok` in the state it is taken from. -/
def Throughout (ok : S → L → Prop) (ls : List L) : Prop :=
  ∀ before l after s, ls = before ++ l :: after → T.Run before s → ok s l

/-- The test of `Throughout` along the states that the labels `ls` lead through from `s`. -/
def check (ok : S → L → Bool) : S → List L → Bool
  | _, [] => true
  | s, l :: ls =>
    ok s l && match T.step s l with
      | none => true
      | some s' => check ok s' ls

/-- Every state that `ls` passes through, the last one included, satisfies `P`. -/
def Always (P : S → Prop) (ls : List L) : Prop :=
  ∀ before after s, ls = before ++ after → T.Run before s → P s

variable {T}

/-- The last label is executed last. -/
theorem exec_snoc (ls : List L) (l : L) :
    T.exec (ls ++ [l]) = (T.exec ls).bind fun s => T.step s l := by
  unfold exec
  rw [List.foldlM_append]
  cases ls.foldlM T.step T.init with
  | none => rfl
  | some s => simp

/-- A state is reached by the labels exactly if executing them gives the state. -/
theorem run_iff_exec (ls : List L) (s : S) : T.Run ls s ↔ T.exec ls = some s := by
  constructor
  · intro h
    induction h with
    | nil => rfl
    | snoc _ hstep ih => rw [exec_snoc, ih, Option.bind_some, hstep]
  · induction ls using List.reverseRecOn generalizing s with
    | nil =>
      intro h
      cases h
      exact Run.nil
    | append_singleton ls l ih =>
      intro h
      rw [exec_snoc, Option.bind_eq_some_iff] at h
      obtain ⟨s₀, hs₀, hstep⟩ := h
      exact Run.snoc (ih s₀ hs₀) hstep

/-- The labels determine the state that a run reaches. -/
theorem Run.unique {ls : List L} {s s' : S} (h : T.Run ls s) (h' : T.Run ls s') : s = s' := by
  rw [run_iff_exec] at h h'
  exact Option.some.inj (h.symm.trans h')

/-- An executable list of labels is a run. With this lemma `decide` shows that a given list is
one. -/
theorem Run.of_exec {ls : List L} (h : (T.exec ls).isSome) : T.Run ls ((T.exec ls).get h) := by
  rw [run_iff_exec]
  exact (Option.some_get h).symm

/-- A run ends with its last step. -/
theorem Run.snoc_inv {ls : List L} {l : L} {s' : S} (h : T.Run (ls ++ [l]) s') :
    ∃ s, T.Run ls s ∧ T.step s l = some s' := by
  rw [run_iff_exec, exec_snoc, Option.bind_eq_some_iff] at h
  obtain ⟨s, hs, hstep⟩ := h
  exact ⟨s, (run_iff_exec ls s).mpr hs, hstep⟩

/-- A run has passed through a state after each of its labels. -/
theorem Run.of_append {before after : List L} {s : S} (h : T.Run (before ++ after) s) :
    ∃ s₀, T.Run before s₀ := by
  induction after using List.reverseRecOn generalizing s with
  | nil => exact ⟨s, by rwa [List.append_nil] at h⟩
  | append_singleton after l ih =>
    rw [← List.append_assoc] at h
    obtain ⟨s₁, hrun, -⟩ := h.snoc_inv
    exact ih hrun

/-- A run whose test succeeds meets `ok` throughout. -/
theorem throughout_of_check {ok : S → L → Prop} [∀ s l, Decidable (ok s l)] {ls : List L}
    (h : T.check (fun s l => decide (ok s l)) T.init ls = true) : T.Throughout ok ls := by
  -- The test continues from whatever state a prefix of the labels leads to.
  have hsuffix : ∀ before after s, ls = before ++ after → T.Run before s →
      T.check (fun s l => decide (ok s l)) s after = true := by
    intro before
    induction before using List.reverseRecOn with
    | nil =>
      intro after s heq hrun
      cases hrun.unique Run.nil
      rw [List.nil_append] at heq
      exact heq ▸ h
    | append_singleton before l ih =>
      intro after s heq hrun
      obtain ⟨s₀, hrun₀, hstep⟩ := hrun.snoc_inv
      have hcheck := ih (l :: after) s₀ (by simpa using heq) hrun₀
      rw [check, hstep, Bool.and_eq_true] at hcheck
      exact hcheck.2
  intro before l after s heq hrun
  have hcheck := hsuffix before (l :: after) s heq hrun
  rw [check, Bool.and_eq_true, decide_eq_true_iff] at hcheck
  exact hcheck.1

/-- What holds throughout a run holds throughout what comes before its last step. -/
theorem Throughout.before {ok : S → L → Prop} {ls : List L} {l : L}
    (h : T.Throughout ok (ls ++ [l])) : T.Throughout ok ls := by
  intro before l' after s heq hrun
  exact h before l' (after ++ [l]) s (by simp [heq]) hrun

/-- What holds throughout a run holds of its last step, in the state before it. -/
theorem Throughout.last {ok : S → L → Prop} {ls : List L} {l : L} {s : S}
    (h : T.Throughout ok (ls ++ [l])) (hrun : T.Run ls s) : ok s l :=
  h ls l [] s rfl hrun

/-- The last step is one more to meet `ok`. -/
theorem throughout_snoc {ok : S → L → Prop} {ls : List L} {l : L} {s : S} (hrun : T.Run ls s) :
    T.Throughout ok (ls ++ [l]) ↔ T.Throughout ok ls ∧ ok s l := by
  constructor
  · exact fun h => ⟨h.before, h.last hrun⟩
  · rintro ⟨h, hok⟩ before l' after s' heq hr
    rcases List.eq_nil_or_concat after with rfl | ⟨after', l'', rfl⟩
    · -- The last step of the run.
      obtain ⟨rfl, hl⟩ := List.append_inj' heq rfl
      cases hl
      cases hr.unique hrun
      exact hok
    · have hassoc : ls ++ [l] = (before ++ l' :: after') ++ [l''] := by simpa using heq
      exact h before l' after' s' (List.append_inj' hassoc rfl).1 hr

/-- A run without steps meets every condition. -/
theorem throughout_nil (ok : S → L → Prop) : T.Throughout ok [] := by
  intro before l after s heq
  simp at heq

/-- A weaker condition holds throughout as well. -/
theorem Throughout.mono {ok ok' : S → L → Prop} {ls : List L}
    (himp : ∀ s l, ok s l → ok' s l) (h : T.Throughout ok ls) : T.Throughout ok' ls :=
  fun before l after s heq hrun => himp s l (h before l after s heq hrun)

/-- Conditions that agree in every state that is reached agree on every run. -/
theorem throughout_congr {ok ok' : S → L → Prop} {ls : List L}
    (h : ∀ before s l, T.Run before s → (ok s l ↔ ok' s l)) :
    T.Throughout ok ls ↔ T.Throughout ok' ls := by
  constructor
  · intro hok before l after s heq hrun
    exact (h before s l hrun).mp (hok before l after s heq hrun)
  · intro hok before l after s heq hrun
    exact (h before s l hrun).mpr (hok before l after s heq hrun)

/-- Two conditions that hold throughout hold together. -/
theorem Throughout.and {ok ok' : S → L → Prop} {ls : List L} (h : T.Throughout ok ls)
    (h' : T.Throughout ok' ls) : T.Throughout (fun s l => ok s l ∧ ok' s l) ls :=
  fun before l after s heq hrun =>
    ⟨h before l after s heq hrun, h' before l after s heq hrun⟩

/-- The induction rule. The step premise may use that the state is reached by a run. -/
theorem Run.invariant {P : S → Prop} (hinit : P T.init)
    (hstep : ∀ ls s l s', T.Run ls s → P s → T.step s l = some s' → P s')
    {ls : List L} {s : S} (hrun : T.Run ls s) : P s := by
  induction hrun with
  | nil => exact hinit
  | snoc hrun hs ih => exact hstep _ _ _ _ hrun ih hs

/-- The induction rule from a state in the middle of a run. -/
theorem Run.invariant_from {P : S → Prop} {before after : List L} {s₀ s : S}
    (hbefore : T.Run before s₀) (hinit : P s₀)
    (hstep : ∀ s l s', l ∈ after → P s → T.step s l = some s' → P s')
    (hrun : T.Run (before ++ after) s) : P s := by
  induction after using List.reverseRecOn generalizing s with
  | nil =>
    rw [List.append_nil] at hrun
    cases hrun.unique hbefore
    exact hinit
  | append_singleton after l ih =>
    rw [← List.append_assoc] at hrun
    obtain ⟨s₁, hrun₁, hs⟩ := hrun.snoc_inv
    have h₁ : P s₁ := ih (fun s l s' hl => hstep s l s' (List.mem_append_left _ hl)) hrun₁
    exact hstep s₁ l s (List.mem_append_right _ List.mem_cons_self) h₁ hs

/-- The induction rule for the runs whose steps all meet `ok`. -/
theorem Run.invariant_of_throughout {P : S → Prop} {ok : S → L → Prop} (hinit : P T.init)
    (hstep : ∀ ls s l s', T.Run ls s → P s → ok s l → T.step s l = some s' → P s')
    {ls : List L} {s : S} (hrun : T.Run ls s) (hok : T.Throughout ok ls) : P s := by
  induction hrun with
  | nil => exact hinit
  | snoc hrun hs ih => exact hstep _ _ _ _ hrun (ih hok.before) (hok.last hrun) hs

/-- The unwinding rule for two runs. `low` is what an observer sees of a label. What the two
empty runs have, a hidden step of either run keeps, and two steps keep that look the same, is
had by all runs that look the same. -/
theorem Run.unwind {O : Type} {low : L → Option O} {Q : List L → S → List L → S → Prop}
    (hinit : Q [] T.init [] T.init)
    (hleft : ∀ {ls ls' s s' l t}, T.Run ls s → T.Run ls' s' → T.step s l = some t →
      low l = none → Q ls s ls' s' → Q (ls ++ [l]) t ls' s')
    (hright : ∀ {ls ls' s s' l t}, T.Run ls s → T.Run ls' s' → T.step s' l = some t →
      low l = none → Q ls s ls' s' → Q ls s (ls' ++ [l]) t)
    (hboth : ∀ {ls ls' s s' l l' t t' o}, T.Run ls s → T.Run ls' s' → T.step s l = some t →
      T.step s' l' = some t' → low l = some o → low l' = some o → Q ls s ls' s' →
      Q (ls ++ [l]) t (ls' ++ [l']) t')
    {ls ls' : List L} {s s' : S} (h : T.Run ls s) (h' : T.Run ls' s')
    (hlow : ls.filterMap low = ls'.filterMap low) : Q ls s ls' s' := by
  induction h generalizing ls' s' with
  | nil =>
    induction h' with
    | nil => exact hinit
    | @snoc ls' s' t' l' hrun' hs' ih' =>
      -- The observer sees nothing of the other run.
      rw [List.filterMap_append, List.filterMap_nil] at hlow
      obtain ⟨hbefore, hlast⟩ := List.append_eq_nil_iff.mp hlow.symm
      have hnone : low l' = none := by
        cases hl : low l' with
        | none => rfl
        | some o => simp [hl] at hlast
      exact hright Run.nil hrun' hs' hnone (ih' (by rw [hbefore, List.filterMap_nil]))
  | @snoc ls s t l hrun hs ih =>
    cases hl : low l with
    | none =>
      have hsame : ls.filterMap low = ls'.filterMap low := by
        rw [← hlow, List.filterMap_append, List.filterMap_cons_none hl, List.filterMap_nil,
          List.append_nil]
      exact hleft hrun h' hs hl (ih h' hsame)
    | some o =>
      rw [List.filterMap_append, List.filterMap_cons_some hl, List.filterMap_nil] at hlow
      -- The other run ends with hidden steps after one that looks the same.
      induction h' with
      | nil => simp at hlow
      | @snoc ls' s' t' l' hrun' hs' ih' =>
        rw [List.filterMap_append] at hlow
        cases hl' : low l' with
        | none =>
          rw [List.filterMap_cons_none hl', List.filterMap_nil, List.append_nil] at hlow
          exact hright (hrun.snoc hs) hrun' hs' hl' (ih' hlow)
        | some o' =>
          rw [List.filterMap_cons_some hl', List.filterMap_nil] at hlow
          obtain ⟨hbefore, hlast⟩ := List.append_inj' hlow rfl
          cases hlast
          exact hboth hrun hrun' hs hs' hl hl' (ih hrun' hbefore)

/-- What always holds in a run always holds in what comes before its last step. -/
theorem Always.before {P : S → Prop} {ls : List L} {l : L} (h : T.Always P (ls ++ [l])) :
    T.Always P ls := by
  intro before after s heq hrun
  exact h before (after ++ [l]) s (by simp [heq]) hrun

/-- What always holds in a run holds in the state that it reaches. -/
theorem Always.last {P : S → Prop} {ls : List L} {s : S} (h : T.Always P ls)
    (hrun : T.Run ls s) : P s :=
  h ls [] s (List.append_nil ls).symm hrun

/-- What holds at the end of every run that meets `ok` holds in all of its states. -/
theorem Throughout.always {P : S → Prop} {ok : S → L → Prop} {ls : List L}
    (h : T.Throughout ok ls)
    (hend : ∀ ls s, T.Run ls s → T.Throughout ok ls → P s) : T.Always P ls := by
  intro before after s heq hrun
  refine hend before s hrun ?_
  intro before' l after' s' heq' hrun'
  exact h before' l (after' ++ after) s' (by rw [heq, heq']; simp) hrun'

/-- What holds at the end of every run that meets `ok` holds before each of its steps. -/
theorem Throughout.always_before {P : S → Prop} {ok : S → L → Prop} {ls : List L}
    (h : T.Throughout ok ls)
    (hend : ∀ {ls s}, T.Run ls s → T.Throughout ok ls → P s) : T.Throughout (fun s _ => P s) ls :=
  fun before l after s heq hrun => h.always (fun _ _ => hend) before (l :: after) s heq hrun

/-- The exactness rule. `Q` carries the induction: the steps that meet `ok` keep it, it
implies `P`, and from a `Q` state only a step that meets `ok` leads to a `P` state. -/
theorem always_iff_throughout {P Q : S → Prop} {ok : S → L → Prop} (hinit : Q T.init)
    (himp : ∀ ls s, T.Run ls s → Q s → P s)
    (hkeep : ∀ ls s l s', T.Run ls s → Q s → ok s l → T.step s l = some s' → Q s')
    (hbreak : ∀ ls s l s', T.Run ls s → Q s → T.step s l = some s' → P s' → ok s l)
    {ls : List L} {s : S} (hrun : T.Run ls s) : T.Always P ls ↔ T.Throughout ok ls := by
  have hQ : ∀ ls s, T.Run ls s → T.Throughout ok ls → Q s := fun _ _ hr hok =>
    Run.invariant_of_throughout hinit hkeep hr hok
  constructor
  · intro h
    induction hrun with
    | nil => exact throughout_nil ok
    | @snoc ls s s' l hrun hs ih =>
      have hthrough : T.Throughout ok ls := ih h.before
      have hok : ok s l := hbreak ls s l s' hrun (hQ ls s hrun hthrough) hs (h.last (hrun.snoc hs))
      exact (throughout_snoc hrun).mpr ⟨hthrough, hok⟩
  · intro h
    exact h.always fun ls s hr hok => himp ls s hr (hQ ls s hr hok)

end Lts
