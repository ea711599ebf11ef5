import Mathlib.Data.List.AList
import Mathlib.Data.List.Count
import Mathlib.Algebra.BigOperators.Group.List.Basic
import Mathlib.Algebra.Ring.Nat
import Mathlib.Algebra.Ring.Int.Defs
import Mathlib.Data.Int.Cast.Basic

/-!
# Counting maps

A map from keys to counts is built by bumping one key at a time.  `Counts m l`
says that `m` holds, for every key occurring in `l`, its number of occurrences,
and has no other key; bumping a key extends `l` by it.  Reading such a map back
as a list with multiplicity (`expand`) gives `l` again up to order, so whatever
is summed over the entries of the map is counted over `l`.

## Main definitions

* `AList.upsert k d f m` — apply `f` to the value under `k`, starting from `d`.
* `AList.bump k m` — add one to the count of `k`.
* `AList.Counts m l` — `m` counts the occurrences in `l`.
* `AList.IterOrder` — an unspecified iteration order: any permutation.
* `AList.expand w es` — the keys of the entries `es`, each repeated `w` of its value.

## Main results

* `AList.Counts.bump` — bumping `k` counts one more occurrence of `k`.
* `AList.Counts.expand_perm` — the expansion of a count of `l` is a permutation of `l`.
* `AList.sum_filter_replicate` — summing the weights of the members that satisfy
  `p` counts the members of the expansion that satisfy `p`.
-/

namespace AList

variable {κ ν : Type*} [DecidableEq κ]

/-- Apply `f` to the value under `k`, or to `d` when there is none. -/
def upsert (k : κ) (d : ν) (f : ν → ν) (m : AList fun _ : κ => ν) : AList fun _ : κ => ν :=
  m.insert k (f ((m.lookup k).getD d))

theorem lookup_upsert (k k' : κ) (d : ν) (f : ν → ν) (m : AList fun _ : κ => ν) :
    (m.upsert k d f).lookup k' =
      if k' = k then some (f ((m.lookup k).getD d)) else m.lookup k' := by
  unfold upsert
  split
  · next h => rw [h, lookup_insert]
  · next h => rw [lookup_insert_ne h]

/-- Maps that hold the same have the same entries, in some order. -/
theorem entries_perm_of_lookup_eq {m m' : AList fun _ : κ => ν}
    (h : ∀ k, m.lookup k = m'.lookup k) : m.entries.Perm m'.entries := by
  apply List.lookup_ext m.nodupKeys m'.nodupKeys
  intro k v
  have hk : m.entries.dlookup k = m'.entries.dlookup k := h k
  rw [hk]

/-- Add one to the count of `k`. -/
def bump [Zero ν] [One ν] [Add ν] (k : κ) (m : AList fun _ : κ => ν) : AList fun _ : κ => ν :=
  m.upsert k 0 (· + 1)

/-- The order in which a hash map yields its entries: any permutation of them. -/
structure IterOrder (α : Type*) where
  run : List α → List α
  perm : ∀ es, (run es).Perm es

/-- Every permutation is a possible order. -/
theorem IterOrder.exists_run_eq {α : Type*} {es es' : List α} (h : es'.Perm es) :
    ∃ order : IterOrder α, order.run es = es' := by
  classical
  refine ⟨⟨fun l => if l = es then es' else l, fun l => ?_⟩, if_pos rfl⟩
  split
  · next hl => exact hl ▸ h
  · exact List.Perm.refl l

/-! ### Maps that count a list -/

/-- `m` holds the number of occurrences of every member of `l`, and no other key. -/
def Counts [AddMonoidWithOne ν] (m : AList fun _ : κ => ν) (l : List κ) : Prop :=
  ∀ k, m.lookup k = if k ∈ l then some (l.count k : ν) else none

theorem counts_empty [AddMonoidWithOne ν] : Counts (∅ : AList fun _ : κ => ν) [] := by
  intro k
  simp

/-- Bumping `k` counts one more occurrence of `k`. -/
theorem Counts.bump [AddMonoidWithOne ν] {m : AList fun _ : κ => ν} {l : List κ}
    (h : Counts m l) (k : κ) : Counts (m.bump k) (l ++ [k]) := by
  intro k'
  rw [AList.bump, AList.lookup_upsert, List.count_append]
  by_cases hk : k' = k
  · subst hk
    have hold : (m.lookup k').getD 0 = (l.count k' : ν) := by
      rw [h k']
      split
      · rfl
      · next hn => simp [List.count_eq_zero.mpr hn]
    simp [hold]
  · have hne : [k].count k' = 0 := by simp [Ne.symm hk]
    rw [if_neg hk, h k', hne, Nat.add_zero]
    simp [hk]

/-- A map that counts a list counts every permutation of it. -/
theorem Counts.perm [AddMonoidWithOne ν] {m : AList fun _ : κ => ν} {l l' : List κ}
    (h : Counts m l) (hl : l.Perm l') : Counts m l' := by
  intro k
  rw [h k, hl.count_eq]
  simp only [hl.mem_iff]

/-- A count read with default zero is the number of occurrences. -/
theorem Counts.getD [AddMonoidWithOne ν] {m : AList fun _ : κ => ν} {l : List κ}
    (h : Counts m l) (k : κ) : (m.lookup k).getD 0 = (l.count k : ν) := by
  rw [h k]
  split
  · rfl
  · next hn => simp [List.count_eq_zero.mpr hn]

/-- Every entry is the positive count of a member. -/
theorem Counts.pos_of_lookup [AddMonoidWithOne ν] {m : AList fun _ : κ => ν} {l : List κ}
    (h : Counts m l) {k : κ} {v : ν} (hk : m.lookup k = some v) :
    k ∈ l ∧ ∃ n : ℕ, 1 ≤ n ∧ v = n := by
  rw [h k] at hk
  split at hk
  · next hin => exact ⟨hin, l.count k, List.count_pos_iff.mpr hin, (Option.some.inj hk).symm⟩
  · simp at hk

/-! ### Reading a counting map back -/

/-- The keys of the entries, each repeated as often as `w` of its value says. -/
def expand (w : ν → ℕ) (es : List (Sigma fun _ : κ => ν)) : List κ :=
  es.flatMap fun e => List.replicate (w e.2) e.1

section Entries

omit [DecidableEq κ]

@[simp] theorem expand_nil (w : ν → ℕ) : expand w ([] : List (Sigma fun _ : κ => ν)) = [] := rfl

@[simp] theorem expand_cons (w : ν → ℕ) (e : Sigma fun _ : κ => ν)
    (es : List (Sigma fun _ : κ => ν)) :
    expand w (e :: es) = List.replicate (w e.2) e.1 ++ expand w es := rfl

theorem expand_perm {w : ν → ℕ} {es es' : List (Sigma fun _ : κ => ν)} (h : es.Perm es') :
    (expand w es).Perm (expand w es') :=
  h.flatMap_right _

/-- Summing the weights of the members that `g` maps into `p` counts the images
in `p` among all images, each repeated by its weight. -/
theorem sum_filter_replicate {α β : Type*} (w : α → ℕ) (g : α → β) (p : β → Bool) (l : List α) :
    ((l.filter fun a => p (g a)).map w).sum
      = (l.flatMap fun a => List.replicate (w a) (g a)).countP p := by
  induction l with
  | nil => rfl
  | cons a l ih =>
    rw [List.flatMap_cons, List.countP_append, ← ih, List.countP_replicate]
    cases hp : p (g a) <;> simp [hp]

/-- The values of the entries add up to the length of the expansion. -/
theorem length_expand (w : ν → ℕ) (es : List (Sigma fun _ : κ => ν)) :
    (expand w es).length = (es.map fun e => w e.2).sum := by
  rw [expand, List.length_flatMap]
  simp

end Entries

theorem count_expand_of_notMem {w : ν → ℕ} {k : κ} : ∀ {es : List (Sigma fun _ : κ => ν)},
    k ∉ es.map Sigma.fst → (expand w es).count k = 0 := by
  intro es
  induction es with
  | nil => intro _; rfl
  | cons e es ih =>
    intro hk
    rw [List.map_cons, List.mem_cons, not_or] at hk
    rw [expand_cons, List.count_append, ih hk.2, List.count_replicate]
    simp [Ne.symm hk.1]

/-- The multiplicity of a key in the expansion is the weight of its value. -/
theorem count_expand (w : ν → ℕ) (k : κ) : ∀ (m : AList fun _ : κ => ν),
    (expand w m.entries).count k = ((m.lookup k).map w).getD 0 := by
  rintro ⟨es, hes⟩
  rw [AList.lookup]
  induction es with
  | nil => rfl
  | cons e es ih =>
    obtain ⟨a, v⟩ := e
    rw [List.nodupKeys_cons] at hes
    rw [expand_cons, List.count_append, List.count_replicate]
    by_cases hk : a = k
    · -- the other entries have other keys
      subst hk
      rw [count_expand_of_notMem hes.1]
      simp [List.dlookup_cons_eq]
    · have hk' : k ≠ (⟨a, v⟩ : Sigma fun _ : κ => ν).1 := Ne.symm hk
      rw [List.dlookup_cons_ne _ _ hk']
      simpa [hk] using ih hes.2

/-- Expanding a map that counts `l` gives `l` up to order. -/
theorem Counts.expand_perm [AddMonoidWithOne ν] {w : ν → ℕ} (hw : ∀ n : ℕ, w (n : ν) = n)
    {m : AList fun _ : κ => ν} {l : List κ} (h : Counts m l) : (expand w m.entries).Perm l := by
  rw [List.perm_iff_count]
  intro k
  rw [count_expand, h k]
  split
  · simp [hw]
  · next hn => simp [List.count_eq_zero.mpr hn]

end AList
