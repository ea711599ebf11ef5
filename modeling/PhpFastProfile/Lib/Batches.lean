import Mathlib.Data.List.Basic
import Mathlib.Data.Nat.Notation

/-!
# Batches that a clock closes

Items are collected as they come.  The first that comes when a gap has gone by since the last
batch was done with closes the next one, and is in it.  A batch takes time of its own.

## Main definitions

* `Batched` — how items are cut into batches, and which of them wait.

## Main results

* `Batched.length_mul_le` — **no time has more batches than gaps.**
-/

/-- From `last` on, the items are cut into these batches, and the last ones still wait.  An
item comes at `came`, and if it closes a batch this is done with at `done`. -/
inductive Batched {α : Type*} (gap : ℕ) (came done : α → ℕ) :
    ℕ → List (List α) → List α → Prop
  | waits {last : ℕ} {waiting : List α}
      (hearly : ∀ x ∈ waiting, last ≤ came x ∧ came x < last + gap) :
      Batched gap came done last [] waiting
  | closed {last : ℕ} {early waiting : List α} {x : α} {batches : List (List α)}
      (hearly : ∀ y ∈ early, last ≤ came y ∧ came y < last + gap)
      (hlate : last + gap ≤ came x) (hdone : came x ≤ done x)
      (h : Batched gap came done (done x) batches waiting) :
      Batched gap came done last ((early ++ [x]) :: batches) waiting

namespace Batched

variable {α : Type*} {gap last stop : ℕ} {came done : α → ℕ} {batches : List (List α)}
  {waiting : List α}

/-- **No time has more batches than gaps.** -/
theorem length_mul_le (h : Batched gap came done last batches waiting) (hlast : last ≤ stop)
    (hstop : ∀ x ∈ batches.flatten, done x ≤ stop) : last + batches.length * gap ≤ stop := by
  induction h with
  | waits hearly => simpa using hlast
  | @closed last early waiting x batches hearly hlate hdone h ih =>
    have hx : done x ≤ stop := hstop x (by simp)
    have hrest := ih hx fun y hy => hstop y (by simp [List.mem_flatten.mp hy])
    rw [List.length_cons, Nat.succ_mul]
    omega

end Batched
