import Mathlib.Order.WellFounded
import RustBond.Lib.Lts

/-!
# `RustBond.Lib.Inevitable`: what the rest of a run comes to

Some labels of a transition system are its own doing (`own`), the others are up to somebody
else. `Inevitable` says where a run gets to with labels of the first kind alone: whichever of
them are taken, and in whichever order, after finitely many steps the run has `P`, and it does
not get stuck before. No fairness is assumed.

`Run.inevitable` is the rule for it. Give every state a rank that every step of the system's own
lowers, in any well-founded order, and show `P` where no such step is left. The rank may also be a
relation (`Run.inevitable_of_ranked`), for a system that is ranked by another one that it simulates.
-/

set_option autoImplicit false

/-- A change of one entry changes a sum by what it changes at this entry. Ranks may be such sums. -/
theorem List.foldr_add_set {A : Type} {l : List A} {i : Nat} {x : A} (h : l[i]? = some x) (y : A)
    (f : A → Nat) : (l.set i y).foldr (fun z n => f z + n) 0 + f x
      = l.foldr (fun z n => f z + n) 0 + f y := by
  induction l generalizing i with
  | nil => cases h
  | cons z l ih =>
    cases i with
    | zero =>
      cases h
      simp only [List.set_cons_zero, List.foldr_cons]
      omega
    | succ i =>
      have hrest := ih (i := i) h
      simp only [List.set_cons_succ, List.foldr_cons]
      omega

namespace Lts

variable {S L : Type} {T : Lts S L}

/-- No step with a label of `own` is left. -/
def Quiet (T : Lts S L) (own : L → Prop) (s : S) : Prop := ∀ l, own l → T.step s l = none

/-- However the run `ls` to the state `s` goes on with labels of `own`, it comes to a run that
has `P`. -/
inductive Inevitable (T : Lts S L) (own : L → Prop) (P : List L → S → Prop) : List L → S → Prop
  | now {ls : List L} {s : S} (h : P ls s) : Inevitable T own P ls s
  | next {ls : List L} {s : S} (henabled : ¬ T.Quiet own s)
      (h : ∀ l s', own l → T.step s l = some s' → Inevitable T own P (ls ++ [l]) s') :
      Inevitable T own P ls s

/-- The rank rule, for a rank that need not be a function of the state. -/
theorem Run.inevitable_of_ranked {R : Type} [Preorder R] [WellFoundedLT R] {own : L → Prop}
    {P : List L → S → Prop} (ranked : List L → S → R → Prop)
    (hlower : ∀ ls s r l s', T.Run ls s → ranked ls s r → own l → T.step s l = some s' →
      ∃ r' < r, ranked (ls ++ [l]) s' r')
    (hquiet : ∀ ls s r, T.Run ls s → ranked ls s r → T.Quiet own s → P ls s)
    {ls : List L} {s : S} {r : R} (hrun : T.Run ls s) (hr : ranked ls s r) :
    T.Inevitable own P ls s := by
  induction r using WellFoundedLT.induction generalizing ls s with
  | ind r ih =>
    by_cases hend : T.Quiet own s
    · exact .now (hquiet ls s r hrun hr hend)
    · refine .next hend ?_
      intro l s' hown hs
      obtain ⟨r', hlt, hr'⟩ := hlower ls s r l s' hrun hr hown hs
      exact ih r' hlt (hrun.snoc hs) hr'

/-- The rank rule. -/
theorem Run.inevitable {R : Type} [Preorder R] [WellFoundedLT R] {own : L → Prop}
    {P : List L → S → Prop} (rank : S → R)
    (hlower : ∀ ls s l s', T.Run ls s → own l → T.step s l = some s' → rank s' < rank s)
    (hquiet : ∀ ls s, T.Run ls s → T.Quiet own s → P ls s)
    {ls : List L} {s : S} (hrun : T.Run ls s) : T.Inevitable own P ls s := by
  refine hrun.inevitable_of_ranked (fun _ s r => rank s = r) ?_ ?_ rfl
  · intro ls s r l s' hrun hr hown hs
    exact ⟨rank s', hr ▸ hlower ls s l s' hrun hown hs, rfl⟩
  · exact fun ls s _ hrun _ => hquiet ls s hrun

/-- What every run that has `P` has too is just as inevitable. The rest of the run consists of
labels of `own`. -/
theorem Inevitable.mono {own : L → Prop} {P Q : List L → S → Prop} {ls : List L} {s : S}
    (h : T.Inevitable own P ls s)
    (himp : ∀ after s', (∀ l ∈ after, own l) → P (ls ++ after) s' → Q (ls ++ after) s') :
    T.Inevitable own Q ls s := by
  induction h with
  | @now ls s hP =>
    have hQ : Q (ls ++ []) s := himp [] s (by simp) (by rwa [List.append_nil])
    exact .now (by rwa [List.append_nil] at hQ)
  | @next ls s henabled _ ih =>
    refine .next henabled ?_
    intro l s' hown hs
    refine ih l s' hown hs ?_
    intro after s'' hafter hP
    rw [List.append_assoc] at hP ⊢
    refine himp ([l] ++ after) s'' ?_ hP
    intro l' hmem
    rcases List.mem_cons.mp hmem with rfl | hrest
    · exact hown
    · exact hafter l' hrest

end Lts
