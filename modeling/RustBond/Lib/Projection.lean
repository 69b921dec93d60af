import RustBond.Lib.Lts

/-!
# `RustBond.Lib.Projection`: simulation, and the parts of a system

A system may contain another one: a component of its state, which moves by the steps of the
other system or not at all (`PartOf`). Which of the two it is, and by which label, must be
visible in the label of the whole.

Then a run of the whole contains a run of the part (`PartOf.run`), so that all results on the
runs of the part hold in the whole. `Run.project` asks no more of a step than it does in the states
of an invariant of the whole, and `PartOf.throughout` is about a condition on the steps.

Both are cases of a simulation (`Run.simulate`), where the state of the other system need not be a
component, and the labels of one system name those of the other.
-/

set_option autoImplicit false

namespace Lts

variable {S L S' L' : Type}

/-- `U` is a part of `T`. Its state is `part s`, and at the label `l` it makes the step `own l`, if
it moves at all. -/
structure PartOf (U : Lts S' L') (T : Lts S L) (part : S → S') (own : L → Option L') : Prop where
  init : part T.init = U.init
  step : ∀ s l s', T.step s l = some s' →
    own l = none ∧ part s' = part s ∨ ∃ l', own l = some l' ∧ U.step (part s) l' = some (part s')

variable {U : Lts S' L'} {T : Lts S L} {part : S → S'} {own : L → Option L'}

/-- The rule of forward simulation. `R` says in which state the second system is. -/
theorem Run.simulate {R : S → S' → Prop} (hinit : R T.init U.init)
    (hstep : ∀ ls s l s' u, T.Run ls s → U.Run (ls.filterMap own) u → R s u →
      T.step s l = some s' → own l = none ∧ R s' u ∨
        ∃ l' u', own l = some l' ∧ U.step u l' = some u' ∧ R s' u')
    {ls : List L} {s : S} (hrun : T.Run ls s) :
    ∃ u, U.Run (ls.filterMap own) u ∧ R s u := by
  induction hrun with
  | nil => exact ⟨U.init, .nil, hinit⟩
  | @snoc ls s s' l hrun hs ih =>
    obtain ⟨u, hrun', hrelated⟩ := ih
    rw [List.filterMap_append]
    rcases hstep ls s l s' u hrun hrun' hrelated hs with ⟨hnone, hsame⟩ | ⟨l', u', hsome, hu, h⟩
    · rw [List.filterMap_cons_none hnone, List.filterMap_nil, List.append_nil]
      exact ⟨u, hrun', hsame⟩
    · rw [List.filterMap_cons_some hsome, List.filterMap_nil]
      exact ⟨u', hrun'.snoc hu, h⟩

/-- A condition that every step of the first system meets in the second one. -/
theorem Run.throughout_of_related {R : S → S' → Prop}
    (hrelated : ∀ ls s, T.Run ls s → ∃ u, U.Run (ls.filterMap own) u ∧ R s u)
    {ok : S → L → Prop} {ok' : S' → L' → Prop}
    (himp : ∀ s u l, R s u → ok s l → ∀ l' ∈ own l, ok' u l')
    {ls : List L} {s : S} (hrun : T.Run ls s) (hok : T.Throughout ok ls) :
    U.Throughout ok' (ls.filterMap own) := by
  induction hrun with
  | nil => exact throughout_nil ok'
  | @snoc ls s s' l hrun hs ih =>
    obtain ⟨hbefore, hlast⟩ := (throughout_snoc hrun).mp hok
    obtain ⟨u, hrun', hrelation⟩ := hrelated ls s hrun
    rw [List.filterMap_append]
    cases hl : own l with
    | none =>
      rw [List.filterMap_cons_none hl, List.filterMap_nil, List.append_nil]
      exact ih hbefore
    | some l' =>
      rw [List.filterMap_cons_some hl, List.filterMap_nil]
      exact (throughout_snoc hrun').mpr ⟨ih hbefore, himp s u l hrelation hlast l' hl⟩

/-- The labels of the part lead where the part is. It is enough that the steps from the states
of an invariant are steps of the part. -/
theorem Run.project {I : S → Prop} (hinit : part T.init = U.init)
    (hinv : ∀ ls s, T.Run ls s → I s)
    (hstep : ∀ s l s', I s → T.step s l = some s' → own l = none ∧ part s' = part s ∨
      ∃ l', own l = some l' ∧ U.step (part s) l' = some (part s'))
    {ls : List L} {s : S} (hrun : T.Run ls s) : U.Run (ls.filterMap own) (part s) := by
  obtain ⟨u, hrun', rfl⟩ : ∃ u, U.Run (ls.filterMap own) u ∧ part s = u := by
    refine Run.simulate (R := fun s u => part s = u) hinit ?_ hrun
    rintro ls s l s' u hrun - rfl hs
    rcases hstep s l s' (hinv ls s hrun) hs with ⟨hnone, hsame⟩ | ⟨l', hsome, hu⟩
    · exact .inl ⟨hnone, hsame⟩
    · exact .inr ⟨l', part s', hsome, hu, rfl⟩
  exact hrun'

namespace PartOf

/-- The labels of the part lead where the part is. -/
theorem run (h : PartOf U T part own) {ls : List L} {s : S} (hrun : T.Run ls s) :
    U.Run (ls.filterMap own) (part s) :=
  Run.project (I := fun _ => True) h.init (fun _ _ _ => trivial)
    (fun s l s' _ => h.step s l s') hrun

/-- A condition that every step of the whole meets for the part. -/
theorem throughout (h : PartOf U T part own) {ok : S' → L' → Prop} {ls : List L} {s : S}
    (hrun : T.Run ls s) (hok : T.Throughout (fun s l => ∀ l' ∈ own l, ok (part s) l') ls) :
    U.Throughout ok (ls.filterMap own) := by
  refine Run.throughout_of_related (R := fun s u => part s = u) ?_ ?_ hrun hok
  · exact fun ls s hrun => ⟨part s, h.run hrun, rfl⟩
  · rintro s u l rfl hs
    exact hs

end PartOf

end Lts
