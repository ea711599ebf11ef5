import Mathlib.Data.List.Sort
import Mathlib.Data.List.Perm.Basic

/-!
# The entries with the largest keys

Sorting by a key, largest first, and cutting the list off gives entries such that no
other has a larger key.  Which of several entries with one key come first, and which
are cut off, depends on the list that is sorted: only if no two share a key does a
permutation of the list make no difference.

## Main definitions

* `TopBy.sortDesc key l` — a stable sort, largest key first.
* `TopBy.IsTop key limit l top` — `top` are `limit` entries of `l` with the largest keys.

## Main results

* `TopBy.isTop_take_sortDesc` — the sorted list, cut off, is such a list.
* `TopBy.take_sortDesc_eq_iff` — when all permutations give the same.
-/

namespace TopBy

variable {α : Type*} (key : α → ℕ)

/-- Stable sorting by descending key. -/
def sortDesc (l : List α) : List α := l.mergeSort fun a b => decide (key b ≤ key a)

theorem sortDesc_perm (l : List α) : (sortDesc key l).Perm l := List.mergeSort_perm _ _

theorem le_trans_desc (a b c : α) (hab : decide (key b ≤ key a) = true)
    (hbc : decide (key c ≤ key b) = true) : decide (key c ≤ key a) = true := by
  simp only [decide_eq_true_eq] at hab hbc ⊢
  omega

theorem le_total_desc (a b : α) : (decide (key b ≤ key a) || decide (key a ≤ key b)) = true := by
  simp only [Bool.or_eq_true, decide_eq_true_eq]
  omega

theorem pairwise_sortDesc (l : List α) : (sortDesc key l).Pairwise fun a b => key b ≤ key a :=
  (List.pairwise_mergeSort (le_trans_desc key) (le_total_desc key) l).imp fun h => by simpa using h

/-! ### Cutting off -/

/-- At most `limit` entries of `l`, largest key first, and the others have no larger key. -/
structure IsTop (limit : ℕ) (l top : List α) : Prop where
  length_eq : top.length = min limit l.length
  sorted : top.Pairwise fun a b => key b ≤ key a
  omitted : ∃ rest, (top ++ rest).Perm l ∧ ∀ a ∈ top, ∀ b ∈ rest, key b ≤ key a

/-- **The sorted list, cut off, has the largest keys.** -/
theorem isTop_take_sortDesc {l l' : List α} (h : l'.Perm l) (limit : ℕ) :
    IsTop key limit l ((sortDesc key l').take limit) where
  length_eq := by rw [List.length_take, (sortDesc_perm key l').length_eq, h.length_eq]
  sorted := (pairwise_sortDesc key l').sublist (List.take_sublist _ _)
  omitted := by
    have hsorted := pairwise_sortDesc key l'
    rw [← List.take_append_drop limit (sortDesc key l'), List.pairwise_append] at hsorted
    refine ⟨(sortDesc key l').drop limit, ?_, hsorted.2.2⟩
    rw [List.take_append_drop]
    exact (sortDesc_perm key l').trans h

/-! ### Ties -/

/-- In a list without repetitions, two entries stand in one order only. -/
theorem not_pair_swap_sublist {a b : α} {l : List α} (hl : l.Nodup) (hab : [a, b].Sublist l) :
    ¬ [b, a].Sublist l := by
  induction l with
  | nil => cases hab
  | cons c l ih =>
    obtain ⟨hc, hl⟩ := List.nodup_cons.mp hl
    intro hba
    rcases List.sublist_cons_iff.mp hab with htail | ⟨r, hr, hb⟩
    · rcases List.sublist_cons_iff.mp hba with hba | ⟨r, hr, ha⟩
      · exact ih hl htail hba
      · -- `b` is the head, and it is in the tail
        obtain ⟨rfl, rfl⟩ := List.cons_eq_cons.mp hr
        exact hc (htail.subset (List.mem_cons_of_mem a List.mem_cons_self))
    · obtain ⟨rfl, rfl⟩ := List.cons_eq_cons.mp hr
      rcases List.sublist_cons_iff.mp hba with hba | ⟨r, hr, ha⟩
      · exact hc (hba.subset (by simp))
      · obtain ⟨rfl, -⟩ := List.cons_eq_cons.mp hr
        exact hc (hb.subset (by simp))

/-- The sort is stable: entries with one key stay in their order. -/
theorem pair_sublist_sortDesc {a b : α} {l : List α} (hkey : key a = key b)
    (h : [a, b].Sublist l) : [a, b].Sublist (sortDesc key l) :=
  List.pair_sublist_mergeSort (le_trans_desc key) (le_total_desc key) (by simp [hkey]) h

/-- **All permutations of a list give the same exactly if no two entries share a key.** -/
theorem take_sortDesc_eq_iff [DecidableEq α] {l : List α} (hl : l.Nodup) :
    (∀ l₁ l₂, l₁.Perm l → l₂.Perm l → ∀ limit,
      (sortDesc key l₁).take limit = (sortDesc key l₂).take limit) ↔
    ∀ a ∈ l, ∀ b ∈ l, key a = key b → a = b := by
  constructor
  · intro h a ha b hb hkey
    by_contra hne
    -- the two come in either order when they are sorted from the front of a list
    have hb' : b ∈ l.erase a := (List.mem_erase_of_ne (Ne.symm hne)).mpr hb
    have hperm : (a :: b :: (l.erase a).erase b).Perm l :=
      ((List.perm_cons_erase hb').symm.cons a).trans (List.perm_cons_erase ha).symm
    have hswap : (b :: a :: (l.erase a).erase b).Perm l := (List.Perm.swap a b _).trans hperm
    have hsame : sortDesc key (a :: b :: (l.erase a).erase b) =
        sortDesc key (b :: a :: (l.erase a).erase b) := by
      have htake := h _ _ hperm hswap l.length
      have hlen := ((sortDesc_perm key _).trans hperm).length_eq
      have hlen' := ((sortDesc_perm key _).trans hswap).length_eq
      rwa [List.take_of_length_le hlen.le, List.take_of_length_le hlen'.le] at htake
    have hnodup := ((sortDesc_perm key _).trans hperm).nodup_iff.mpr hl
    have hab := pair_sublist_sortDesc key hkey
      (List.prefix_append [a, b] ((l.erase a).erase b)).sublist
    have hba := pair_sublist_sortDesc key hkey.symm
      (List.prefix_append [b, a] ((l.erase a).erase b)).sublist
    simp only [List.cons_append, List.nil_append] at hab hba
    rw [← hsame] at hba
    exact not_pair_swap_sublist hnodup hab hba
  · intro h l₁ l₂ h₁ h₂ limit
    have hperm : (sortDesc key l₁).Perm (sortDesc key l₂) :=
      (((sortDesc_perm key l₁).trans h₁).trans h₂.symm).trans (sortDesc_perm key l₂).symm
    have hmem : ∀ a ∈ sortDesc key l₁, a ∈ l := fun a ha =>
      ((sortDesc_perm key l₁).trans h₁).mem_iff.mp ha
    have heq := hperm.eq_of_pairwise
      (fun a b ha hb hab hba =>
        h a (hmem a ha) b (hmem b (hperm.mem_iff.mpr hb)) (le_antisymm hba hab))
      (pairwise_sortDesc key l₁) (pairwise_sortDesc key l₂)
    rw [heq]

end TopBy
