import Mathlib.Data.List.Count
import Mathlib.Algebra.BigOperators.Group.List.Basic
import Mathlib.Algebra.Ring.Nat
import Mathlib.Data.List.Induction

/-!
# Terminated pieces

A format that ends every piece with a terminator is read back by splitting at the
terminators.  The pieces come out as they went in if none of them contains one;
otherwise there are more of them.

## Main definitions

* `Terminated.terminate c pieces` — the pieces, each followed by `c`.
* `Terminated.splitTerminator c s` — the pieces of `s`, as `str::split_terminator` has them.
* `Terminated.Closed c s` — nothing follows the last terminator of `s`.

## Main results

* `Terminated.splitTerminator_terminate` — pieces without a terminator are read back.
* `Terminated.terminate_splitTerminator` — a closed list is its pieces.
* `Terminated.length_splitTerminator` — it has a piece for every terminator.
-/

namespace Terminated

variable {α : Type*}

/-- The pieces, each followed by the terminator. -/
def terminate (c : α) (pieces : List (List α)) : List α := pieces.flatMap fun p => p ++ [c]

@[simp] theorem terminate_nil (c : α) : terminate c [] = [] := rfl

@[simp] theorem terminate_cons (c : α) (p : List α) (ps : List (List α)) :
    terminate c (p :: ps) = p ++ c :: terminate c ps := by
  simp [terminate]

@[simp] theorem terminate_append (c : α) (ps qs : List (List α)) :
    terminate c (ps ++ qs) = terminate c ps ++ terminate c qs := by
  simp [terminate]

/-- The members are those of the pieces, and the terminator. -/
theorem mem_terminate {c a : α} {pieces : List (List α)} :
    a ∈ terminate c pieces ↔ (∃ p ∈ pieces, a ∈ p) ∨ a = c ∧ pieces ≠ [] := by
  induction pieces with
  | nil => simp
  | cons p ps ih =>
    rw [terminate_cons, List.mem_append, List.mem_cons, ih]
    by_cases ha : a = c <;> simp [ha]

theorem length_terminate (c : α) (pieces : List (List α)) :
    (terminate c pieces).length = (pieces.map fun p => p.length + 1).sum := by
  induction pieces with
  | nil => rfl
  | cons p ps ih =>
    rw [terminate_cons, List.length_append, List.length_cons, ih, List.map_cons, List.sum_cons]
    omega

/-- Nothing follows the last terminator. -/
def Closed (c : α) (s : List α) : Prop := ∀ a ∈ s.getLast?, a = c

theorem closed_nil (c : α) : Closed c [] := nofun

theorem closed_append_singleton (c : α) (s : List α) : Closed c (s ++ [c]) := by
  intro a ha
  simpa using ha.symm

theorem closed_terminate (c : α) (pieces : List (List α)) : Closed c (terminate c pieces) := by
  induction pieces using List.reverseRecOn with
  | nil => exact closed_nil c
  | append_singleton ps p _ =>
    have hsnoc : terminate c (ps ++ [p]) = (terminate c ps ++ p) ++ [c] := by simp
    rw [hsnoc]
    exact closed_append_singleton c _

/-- The rest of a closed list is closed. -/
theorem Closed.of_cons {c a : α} {s : List α} (h : Closed c (a :: s)) : Closed c s := by
  intro b hb
  apply h
  rw [List.getLast?_cons, hb]
  rfl

theorem Closed.ne_nil_of_cons {c a : α} {s : List α} (h : Closed c (a :: s)) (ha : a ≠ c) :
    s ≠ [] := by
  rintro rfl
  exact ha (h a rfl)

variable [DecidableEq α]

/-- The pieces between the terminators.  What follows the last one is a piece
only if it is not empty. -/
def splitTerminator (c : α) : List α → List (List α)
  | [] => []
  | a :: s =>
    if a = c then [] :: splitTerminator c s
    else
      match splitTerminator c s with
      | [] => [[a]]
      | p :: ps => (a :: p) :: ps

example : splitTerminator 0 [1, 2, 0, 0, 3] = [[1, 2], [], [3]] := by decide

@[simp] theorem splitTerminator_nil (c : α) : splitTerminator c ([] : List α) = [] := rfl

@[simp] theorem splitTerminator_cons_self (c : α) (s : List α) :
    splitTerminator c (c :: s) = [] :: splitTerminator c s := by
  rw [splitTerminator, if_pos rfl]

theorem splitTerminator_cons_of_ne {c a : α} (ha : a ≠ c) {s p : List α} {ps : List (List α)}
    (h : splitTerminator c s = p :: ps) : splitTerminator c (a :: s) = (a :: p) :: ps := by
  rw [splitTerminator, if_neg ha, h]

theorem splitTerminator_ne_nil {c : α} {s : List α} (h : s ≠ []) : splitTerminator c s ≠ [] := by
  cases s with
  | nil => exact absurd rfl h
  | cons a s =>
    rw [splitTerminator]
    split
    · simp
    · split <;> simp

/-! ### Reading pieces back -/

/-- A piece without a terminator is read from the front of anything. -/
theorem splitTerminator_append_cons {c : α} {p : List α} (hp : c ∉ p) (s : List α) :
    splitTerminator c (p ++ c :: s) = p :: splitTerminator c s := by
  induction p with
  | nil => simp
  | cons a p ih =>
    rw [List.mem_cons, not_or] at hp
    exact splitTerminator_cons_of_ne (Ne.symm hp.1) (ih hp.2)

/-- **Pieces without a terminator are read back.** -/
theorem splitTerminator_terminate {c : α} {pieces : List (List α)} (h : ∀ p ∈ pieces, c ∉ p) :
    splitTerminator c (terminate c pieces) = pieces := by
  induction pieces with
  | nil => rfl
  | cons p ps ih =>
    rw [terminate_cons, splitTerminator_append_cons (h p List.mem_cons_self),
      ih fun q hq => h q (List.mem_cons_of_mem p hq)]

/-! ### Closed lists -/

/-- The pieces of a closed list are followed by those of the rest. -/
theorem splitTerminator_append {c : α} {s : List α} (h : Closed c s) (t : List α) :
    splitTerminator c (s ++ t) = splitTerminator c s ++ splitTerminator c t := by
  induction s with
  | nil => rfl
  | cons a s ih =>
    by_cases ha : a = c
    · subst ha
      rw [List.cons_append, splitTerminator_cons_self, splitTerminator_cons_self, ih h.of_cons,
        List.cons_append]
    · -- the piece that `a` begins ends within `s`
      obtain ⟨p, ps, hs⟩ :=
        List.exists_cons_of_ne_nil (splitTerminator_ne_nil (c := c) (h.ne_nil_of_cons ha))
      have hst : splitTerminator c (s ++ t) = p :: (ps ++ splitTerminator c t) := by
        rw [ih h.of_cons, hs, List.cons_append]
      rw [List.cons_append, splitTerminator_cons_of_ne ha hst, splitTerminator_cons_of_ne ha hs,
        List.cons_append]

/-- **A closed list is its pieces, each with its terminator.** -/
theorem terminate_splitTerminator {c : α} {s : List α} (h : Closed c s) :
    terminate c (splitTerminator c s) = s := by
  induction s with
  | nil => rfl
  | cons a s ih =>
    by_cases ha : a = c
    · subst ha
      rw [splitTerminator_cons_self, terminate_cons, ih h.of_cons, List.nil_append]
    · obtain ⟨p, ps, hs⟩ :=
        List.exists_cons_of_ne_nil (splitTerminator_ne_nil (c := c) (h.ne_nil_of_cons ha))
      have hrest := ih h.of_cons
      rw [hs, terminate_cons] at hrest
      rw [splitTerminator_cons_of_ne ha hs, terminate_cons, List.cons_append, hrest]

/-- **A closed list has a piece for every terminator.** -/
theorem length_splitTerminator {c : α} {s : List α} (h : Closed c s) :
    (splitTerminator c s).length = s.count c := by
  induction s with
  | nil => rfl
  | cons a s ih =>
    by_cases ha : a = c
    · subst ha
      rw [splitTerminator_cons_self, List.length_cons, ih h.of_cons, List.count_cons_self]
    · obtain ⟨p, ps, hs⟩ :=
        List.exists_cons_of_ne_nil (splitTerminator_ne_nil (c := c) (h.ne_nil_of_cons ha))
      rw [splitTerminator_cons_of_ne ha hs, List.count_cons_of_ne ha, ← ih h.of_cons, hs]
      rfl

/-- The lengths of the pieces, with their terminators, add up to that of the list. -/
theorem sum_length_splitTerminator {c : α} {s : List α} (h : Closed c s) :
    ((splitTerminator c s).map fun p => p.length + 1).sum = s.length := by
  rw [← length_terminate c, terminate_splitTerminator h]

/-- The terminators of terminated pieces are one for each piece and those within. -/
theorem count_terminate (c : α) (pieces : List (List α)) :
    (terminate c pieces).count c = pieces.length + (pieces.map fun p => p.count c).sum := by
  induction pieces with
  | nil => rfl
  | cons p ps ih =>
    rw [terminate_cons, List.count_append, List.count_cons_self, ih, List.map_cons, List.sum_cons,
      List.length_cons]
    omega

end Terminated
