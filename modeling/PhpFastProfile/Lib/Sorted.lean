import PhpFastProfile.Lib.Tally
import Mathlib.Data.List.Sort

/-!
# Sorted entries of a map

Draining a hash map yields its entries in any order; sorting them by key hides
that order.  Since no two entries share a key, what is left depends only on what
the map holds.

## Main definitions

* `KeyOrder κ` — a total order on keys, as a comparison.
* `AList.sortedEntries ord order m` — drain `m` in the order `order`, sort by key.

## Main results

* `AList.pairwise_sortedEntries` — the keys ascend strictly.
* `AList.sortedEntries_congr` — maps that hold the same have the same sorted entries.
* `AList.Counts.sortedEntries_eq` — so two counts of one list up to order have them too.
-/

/-- A total order on keys. -/
structure KeyOrder (κ : Type*) where
  le : κ → κ → Bool
  total : ∀ a b, (le a b || le b a) = true
  trans : ∀ a b c, le a b = true → le b c = true → le a c = true
  antisymm : ∀ a b, le a b = true → le b a = true → a = b

namespace AList

variable {κ ν : Type*} (ord : KeyOrder κ)

/-- The entries of `m`, drained in the order `order` and sorted by key. -/
def sortedEntries (order : IterOrder (Sigma fun _ : κ => ν)) (m : AList fun _ : κ => ν) :
    List (Sigma fun _ : κ => ν) :=
  (order.run m.entries).mergeSort fun a b => ord.le a.1 b.1

theorem sortedEntries_perm (order : IterOrder (Sigma fun _ : κ => ν)) (m : AList fun _ : κ => ν) :
    (sortedEntries ord order m).Perm m.entries :=
  (List.mergeSort_perm _ _).trans (order.perm _)

/-- **The keys ascend strictly.** -/
theorem pairwise_sortedEntries (order : IterOrder (Sigma fun _ : κ => ν))
    (m : AList fun _ : κ => ν) :
    (sortedEntries ord order m).Pairwise fun a b => ord.le a.1 b.1 = true ∧ a.1 ≠ b.1 := by
  have hsorted : (sortedEntries ord order m).Pairwise fun a b => ord.le a.1 b.1 = true :=
    List.pairwise_mergeSort (fun a b c => ord.trans a.1 b.1 c.1) (fun a b => ord.total a.1 b.1) _
  have hnodup : (m.entries.map Sigma.fst).Nodup := m.nodupKeys
  have hdistinct : ((sortedEntries ord order m).map Sigma.fst).Nodup :=
    ((sortedEntries_perm ord order m).map _).nodup_iff.mpr hnodup
  exact hsorted.and (List.pairwise_map.mp hdistinct)

/-- **The sorted entries depend only on what the map holds.** -/
theorem sortedEntries_congr [DecidableEq κ] {m m' : AList fun _ : κ => ν}
    (h : ∀ k, m.lookup k = m'.lookup k) (order order' : IterOrder (Sigma fun _ : κ => ν)) :
    sortedEntries ord order m = sortedEntries ord order' m' := by
  have hsame := entries_perm_of_lookup_eq h
  have hperm : (sortedEntries ord order m).Perm (sortedEntries ord order' m') :=
    ((sortedEntries_perm ord order m).trans hsame).trans (sortedEntries_perm ord order' m').symm
  -- of two entries that precede each other, the keys would be equal and distinct
  refine hperm.eq_of_pairwise ?_ (pairwise_sortedEntries ord order m)
    (pairwise_sortedEntries ord order' m')
  intro a b _ _ hab hba
  exact absurd (ord.antisymm a.1 b.1 hab.1 hba.1) hab.2

/-- Two counts of one list up to order hold the same. -/
theorem Counts.lookup_eq [DecidableEq κ] [AddMonoidWithOne ν] {m m' : AList fun _ : κ => ν}
    {l l' : List κ} (h : Counts m l) (h' : Counts m' l') (hperm : l.Perm l') (k : κ) :
    m.lookup k = m'.lookup k := by
  rw [h k, h' k, hperm.count_eq]
  simp only [hperm.mem_iff]

theorem Counts.sortedEntries_eq [DecidableEq κ] [AddMonoidWithOne ν] {m m' : AList fun _ : κ => ν}
    {l l' : List κ} (h : Counts m l) (h' : Counts m' l') (hperm : l.Perm l')
    (order order' : IterOrder (Sigma fun _ : κ => ν)) :
    sortedEntries ord order m = sortedEntries ord order' m' :=
  sortedEntries_congr ord (h.lookup_eq h' hperm) order order'

end AList
