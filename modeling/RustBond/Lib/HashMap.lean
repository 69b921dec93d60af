import Mathlib.Data.Finmap
import Mathlib.Data.Finset.Card
import Mathlib.Data.Multiset.Bind

/-!
# `RustBond.Lib.HashMap`: hash maps and hash sets with an unspecified iteration order

`HashMap K V` is Mathlib's `Finmap` and `HashSet T` is Mathlib's `Finset`. Both are
quotients, so nothing computed from them depends on the order in which a hash table
yields its entries. Code that collects such an iteration into a vector returns a
`Multiset` here; code whose later effect depends on the order takes a list and requires
that its multiset is the collected one.

The module adds the three bulk operations that `Finmap` does not have:

* `retain` keeps the entries a predicate accepts;
* `mapValues` rewrites every value (`for v in map.values_mut()`);
* `len` counts the entries.

Every operation comes with its `lookup` lemma. Two maps with the same lookups are equal
(`Finmap.ext_lookup`), so these lemmas are all that later proofs need.
-/

set_option autoImplicit false

/-- A finite map with an unspecified iteration order. -/
abbrev HashMap (K V : Type) : Type := Finmap fun _ : K => V

/-- A finite set with an unspecified iteration order. -/
abbrev HashSet (T : Type) : Type := Finset T

namespace HashMap

variable {K V W : Type}

/-- The number of entries. -/
def len (m : HashMap K V) : Nat := Multiset.card m.entries

/-- `len` is the number of the keys. -/
theorem len_eq_card_keys (m : HashMap K V) : m.len = m.keys.card := by
  show Multiset.card m.entries = Multiset.card (m.entries.map Sigma.fst)
  rw [Multiset.card_map]

/-- Keeps the entries that `p` accepts. -/
def retain (m : HashMap K V) (p : K → V → Bool) : HashMap K V where
  entries := m.entries.filter fun e => p e.1 e.2
  nodupKeys := by
    rw [← Multiset.nodup_keys]
    exact Multiset.nodup_of_le (Multiset.map_le_map (Multiset.filter_le _ _))
      (Multiset.nodup_keys.mpr m.nodupKeys)

/-- Rewrites every value with `f`. The keys stay. -/
def mapValues (m : HashMap K V) (f : V → W) : HashMap K W where
  entries := m.entries.map fun e => ⟨e.1, f e.2⟩
  nodupKeys := by
    rw [← Multiset.nodup_keys]
    show ((m.entries.map _).map Sigma.fst).Nodup
    rw [Multiset.map_map]
    exact Multiset.nodup_keys.mpr m.nodupKeys

/-- Collecting a nested iteration yields nothing twice, when each inner collection has no
duplicates and its elements determine the key they come from. -/
theorem nodup_bind_entries {B : Type} (m : HashMap K V) (f : K → V → Multiset B)
    (hnodup : ∀ k v, (f k v).Nodup)
    (hkey : ∀ k v k' v' b, b ∈ f k v → b ∈ f k' v' → k = k') :
    (m.entries.bind fun e => f e.1 e.2).Nodup := by
  rw [Multiset.nodup_bind]
  refine ⟨fun e _ => hnodup e.1 e.2, m.entries.toList, (Multiset.coe_toList _).symm, ?_⟩
  have hkeys : (m.entries.toList.map Sigma.fst).Nodup := by
    rw [← Multiset.coe_nodup, ← Multiset.map_coe, Multiset.coe_toList]
    exact Multiset.nodup_keys.mpr m.nodupKeys
  refine (List.pairwise_map.mp hkeys).imp fun {e e'} hne => ?_
  exact Multiset.disjoint_left.mpr fun hb hb' => hne (hkey _ _ _ _ _ hb hb')

variable [DecidableEq K]

/-- `retain` keeps the entries that the predicate keeps. -/
theorem lookup_retain (m : HashMap K V) (p : K → V → Bool) (k : K) :
    (m.retain p).lookup k = (m.lookup k).filter (p k) := by
  ext v
  rw [Finmap.lookup_eq_some_iff, Option.filter_eq_some_iff, Finmap.lookup_eq_some_iff]
  show (⟨k, v⟩ : Sigma fun _ : K => V) ∈ m.entries.filter _ ↔ _
  rw [Multiset.mem_filter]

/-- The values are mapped under their keys. -/
theorem lookup_mapValues (m : HashMap K V) (f : V → W) (k : K) :
    (m.mapValues f).lookup k = (m.lookup k).map f := by
  ext v
  rw [Finmap.lookup_eq_some_iff, Option.map_eq_some_iff]
  show (⟨k, v⟩ : Sigma fun _ : K => W) ∈ m.entries.map _ ↔ _
  rw [Multiset.mem_map]
  constructor
  · rintro ⟨⟨k', w⟩, hmem, heq⟩
    cases heq
    exact ⟨w, Finmap.lookup_eq_some_iff.mpr hmem, rfl⟩
  · rintro ⟨w, hw, rfl⟩
    exact ⟨⟨k, w⟩, Finmap.lookup_eq_some_iff.mp hw, rfl⟩

/-- `lookup` after `insert`, at any key. -/
theorem lookup_insert' (m : HashMap K V) (k k' : K) (v : V) :
    (m.insert k v).lookup k' = if k' = k then some v else m.lookup k' := by
  split
  · subst k'
    exact Finmap.lookup_insert m
  · rename_i h
    exact Finmap.lookup_insert_of_ne m h

/-- `lookup` after `erase`, at any key. -/
theorem lookup_erase' (m : HashMap K V) (k k' : K) :
    (m.erase k).lookup k' = if k' = k then none else m.lookup k' := by
  split
  · subst k'
    exact Finmap.lookup_erase k m
  · rename_i h
    exact Finmap.lookup_erase_ne h

/-- A map without entries is the empty map. -/
theorem eq_empty_iff (m : HashMap K V) : m = ∅ ↔ ∀ k, m.lookup k = none := by
  constructor
  · rintro rfl k
    exact Finmap.lookup_empty k
  · intro h
    exact Finmap.ext_lookup fun k => by rw [h k, Finmap.lookup_empty]

/-- A map with an entry is not empty. -/
theorem ne_empty_of_lookup {m : HashMap K V} {k : K} {v : V} (h : m.lookup k = some v) :
    m ≠ ∅ := by
  rintro rfl
  rw [Finmap.lookup_empty] at h
  cases h

end HashMap
