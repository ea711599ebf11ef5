import Mathlib.Data.List.Basic
import Mathlib.Data.Nat.Notation

/-!
# Deadlines that move on

A loop is paced by a deadline.  In each round it checks the clock, no sooner than
the deadline, and moves the deadline on: by a period at least, and far enough that
the check is no more than `slack` periods later.  Such a loop neither runs ahead of
its period nor catches up for a stall.

## Main definitions

* `Paced` — the checks of the rounds so far, and the deadline after them.

## Main results

* `Paced.check_ge` — **no check comes before its place in the period.**
* `Paced.checks_apart` — **any `m` rounds take all but `slack + 1` of `m` periods.**
-/

/-- The rounds of a loop that is paced from `start` on, with the clock readings of
their checks and the deadline after them. -/
inductive Paced (period slack start : ℕ) : List ℕ → ℕ → Prop
  | init : Paced period slack start [] start
  | round {checks : List ℕ} {next check next' : ℕ} (h : Paced period slack start checks next)
    (hcheck : next ≤ check) (hnext : next + period ≤ next')
    (hslack : check ≤ next' + slack * period) :
    Paced period slack start (checks ++ [check]) next'

namespace Paced

variable {period slack start next : ℕ} {checks : List ℕ}

/-- A reading is one of the earlier ones or the last one. -/
theorem getElem?_concat {l : List ℕ} {x k c : ℕ} (h : (l ++ [x])[k]? = some c) :
    (k < l.length ∧ l[k]? = some c) ∨ (k = l.length ∧ c = x) := by
  obtain ⟨hlt, hc⟩ := List.getElem?_eq_some_iff.mp h
  rw [List.length_append, List.length_singleton] at hlt
  rcases Nat.lt_or_ge k l.length with hk | hk
  · rw [List.getElem?_append_left hk] at h
    exact Or.inl ⟨hk, h⟩
  · obtain rfl : k = l.length := by omega
    rw [List.getElem?_concat_length] at h
    exact Or.inr ⟨rfl, (Option.some.inj h).symm⟩

/-- The deadline has moved on by a period for each round. -/
theorem deadline_ge (h : Paced period slack start checks next) :
    start + checks.length * period ≤ next := by
  induction h with
  | init => simp
  | round h hcheck hnext hslack ih =>
    rw [List.length_append, List.length_singleton, Nat.succ_mul]
    omega

/-- **No check comes before its place in the period.** -/
theorem check_ge (h : Paced period slack start checks next) {k c : ℕ} (hk : checks[k]? = some c) :
    start + k * period ≤ c := by
  induction h with
  | init => simp at hk
  | round h hcheck hnext hslack ih =>
    rcases getElem?_concat hk with ⟨-, hk⟩ | ⟨rfl, rfl⟩
    · exact ih hk
    · exact Nat.le_trans h.deadline_ge hcheck

/-- After a check the deadline moves on by a period for each later round. -/
theorem deadline_apart (h : Paced period slack start checks next) {k c : ℕ}
    (hk : checks[k]? = some c) :
    c + (checks.length - k) * period ≤ next + (slack + 1) * period := by
  induction h with
  | init => simp at hk
  | @round checks next check next' h hcheck hnext hslack ih =>
    rw [List.length_append, List.length_singleton, Nat.succ_mul]
    rcases getElem?_concat hk with ⟨hlt, hk⟩ | ⟨rfl, rfl⟩
    · have hearlier := ih hk
      rw [Nat.succ_mul] at hearlier
      have hlater : (checks.length + 1 - k) * period = (checks.length - k) * period + period := by
        rw [Nat.sub_add_comm (Nat.le_of_lt hlt), Nat.succ_mul]
      omega
    · rw [Nat.add_sub_cancel_left, Nat.one_mul]
      omega

/-- **Any `m` rounds take all but `slack + 1` of `m` periods**: no stall is made up for. -/
theorem checks_apart (h : Paced period slack start checks next) {k m c c' : ℕ}
    (hk : checks[k]? = some c) (hm : checks[k + m]? = some c') :
    c + m * period ≤ c' + (slack + 1) * period := by
  induction h with
  | init => simp at hk
  | @round checks next check next' h hcheck hnext hslack ih =>
    rcases getElem?_concat hm with ⟨hlt, hm⟩ | ⟨hlen, rfl⟩
    · rcases getElem?_concat hk with ⟨-, hk⟩ | ⟨rfl, -⟩
      · exact ih hk hm
      · omega
    · rcases getElem?_concat hk with ⟨hlt, hk⟩ | ⟨rfl, rfl⟩
      · -- the last check comes at the deadline or later
        have hdeadline := h.deadline_apart hk
        rw [show checks.length - k = m by omega] at hdeadline
        omega
      · obtain rfl : m = 0 := by omega
        omega

end Paced
