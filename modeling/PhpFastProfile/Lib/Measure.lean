import Mathlib.Algebra.BigOperators.Ring.Finset
import PhpFastProfile.Lib.Run

/-!
# Runs that come to an end

The actions of a system are its own or those of its surroundings.  Where every own action takes
something off a measure, and nothing adds to it, a run has no more of them than the measure says.

## Main results

* `sum_map_set`, `sum_update` — a sum after the change of one summand.
* `Run.length_own_le` — **the own actions of a run are paid for by the measure.**
-/

namespace Measure

/-! ### Sums of which one summand changes -/

/-- A summand of a list is exchanged. -/
theorem sum_map_set {α : Type*} (f : α → ℕ) {l : List α} {i : ℕ} {x : α} (hx : l[i]? = some x)
    (x' : α) : ((l.set i x').map f).sum + f x = (l.map f).sum + f x' := by
  induction l generalizing i with
  | nil => cases hx
  | cons y l ih =>
    cases i with
    | zero =>
      obtain rfl := Option.some.inj hx
      rw [List.set_cons_zero, List.map_cons, List.map_cons, List.sum_cons, List.sum_cons]
      omega
    | succ i =>
      have hrest := ih (i := i) hx
      rw [List.set_cons_succ, List.map_cons, List.map_cons, List.sum_cons, List.sum_cons]
      omega

/-- A function is updated at one of the summands. -/
theorem sum_update {ι β : Type*} [DecidableEq ι] (f : ι → β) (g : β → ℕ) {s : Finset ι} {i : ι}
    (hi : i ∈ s) (b : β) :
    ∑ j ∈ s, g (Function.update f i b j) + g (f i) = ∑ j ∈ s, g (f j) + g b := by
  have hold := Finset.add_sum_erase s (fun j => g (f j)) hi
  have hnew := Finset.add_sum_erase s (fun j => g (Function.update f i b j)) hi
  have hrest : ∑ j ∈ s.erase i, g (Function.update f i b j) = ∑ j ∈ s.erase i, g (f j) := by
    refine Finset.sum_congr rfl fun j hj => ?_
    rw [Function.update_of_ne (Finset.ne_of_mem_erase hj)]
  rw [Function.update_self] at hnew
  omega

end Measure

namespace Run

/-! ### Runs -/

variable {σ α : Type*} {step : σ → α → Option σ} {P : σ → Prop} {own : α → Bool} {μ : σ → ℕ}

/-- **The own actions of a run are paid for by the measure.** -/
theorem length_own_le (hinv : ∀ s a s', P s → step s a = some s' → P s')
    (hown : ∀ s a s', P s → step s a = some s' → own a = true → μ s' + 1 ≤ μ s)
    (hother : ∀ s a s', P s → step s a = some s' → own a = false → μ s' ≤ μ s) {as : List α}
    {s s' : σ} (hs : P s) (h : exec step s as = some s') :
    (as.filter own).length + μ s' ≤ μ s := by
  refine (exec_trace (P := fun as s' => P s' ∧ (as.filter own).length + μ s' ≤ μ s)
    ⟨hs, by simp⟩ ?_ h).2
  rintro as m a s' - ⟨hm, ih⟩ hstep
  refine ⟨hinv m a s' hm hstep, ?_⟩
  rw [List.filter_append, List.length_append]
  cases ha : own a with
  | true =>
    have hless := hown m a s' hm hstep ha
    rw [List.filter_cons_of_pos ha, List.filter_nil, List.length_singleton]
    omega
  | false =>
    have hle := hother m a s' hm hstep ha
    rw [List.filter_cons_of_neg (by simp [ha]), List.filter_nil, List.length_nil]
    omega

end Run
