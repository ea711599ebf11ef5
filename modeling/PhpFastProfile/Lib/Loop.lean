import Mathlib.Data.Nat.Notation
import Mathlib.Logic.Basic
import Mathlib.Tactic.ByContra

/-!
# Loops that return early

`firstFrom f i n` runs `f i`, `f (i + 1)`, … for `n` rounds and stops with the
first result, or with the first error.  Which round that is depends only on the
rounds before it.

## Main definitions

* `Loop.firstFrom f i n` — the loop.
* `Loop.stopAt f n` — the round it stops at.

## Main results

* `Loop.firstFrom_eq_round` — the loop returns what its first stopping round returns.
* `Loop.firstFrom_eq_some_iff` — when the loop returns a result.
* `Loop.firstFrom_eq_stopAt` — the loop, by the round it stops at.
* `Loop.firstFrom_eq_find?` — a loop over the elements of a list finds the first one.
-/

namespace Loop

variable {ε α : Type}

/-- Run `f i`, …, `f (i + n - 1)` up to the first result. -/
def firstFrom (f : ℕ → Except ε (Option α)) : ℕ → ℕ → Except ε (Option α)
  | _, 0 => .ok none
  | i, n + 1 =>
    match f i with
    | .error e => .error e
    | .ok (some a) => .ok (some a)
    | .ok none => firstFrom f (i + 1) n

variable {f : ℕ → Except ε (Option α)}

/-- Without a result in any round there is none. -/
theorem firstFrom_eq_none : ∀ {n i : ℕ}, (∀ k < n, f (i + k) = .ok none) →
    firstFrom f i n = .ok none := by
  intro n
  induction n with
  | zero => intro i _; rfl
  | succ n ih =>
    intro i h
    have hfirst : f i = .ok none := h 0 (Nat.succ_pos n)
    rw [firstFrom, hfirst]
    refine ih fun k hk => ?_
    rw [Nat.add_assoc, Nat.add_comm 1 k]
    exact h (k + 1) (by omega)

/-- **The loop returns what its first stopping round returns.** -/
theorem firstFrom_eq_round : ∀ {n i k : ℕ}, k < n → (∀ j < k, f (i + j) = .ok none) →
    f (i + k) ≠ .ok none → firstFrom f i n = f (i + k) := by
  intro n
  induction n with
  | zero => intro i k hk; exact absurd hk (Nat.not_lt_zero k)
  | succ n ih =>
    intro i k hk hbefore hstop
    cases k with
    | zero =>
      rw [Nat.add_zero] at hstop ⊢
      rw [firstFrom]
      cases hf : f i with
      | error e => rfl
      | ok r =>
        cases r with
        | some a => rfl
        | none => exact absurd hf hstop
    | succ k =>
      have hfirst : f i = .ok none := hbefore 0 (Nat.succ_pos k)
      rw [← Nat.add_assoc, Nat.add_right_comm] at hstop ⊢
      rw [firstFrom, hfirst]
      refine ih (by omega) (fun j hj => ?_) hstop
      rw [Nat.add_assoc, Nat.add_comm 1 j]
      exact hbefore (j + 1) (by omega)

/-- The loop returns a result when some round does and all before it go on. -/
theorem firstFrom_eq_some_iff : ∀ {n i : ℕ} {a : α}, firstFrom f i n = .ok (some a) ↔
    ∃ k < n, (∀ j < k, f (i + j) = .ok none) ∧ f (i + k) = .ok (some a) := by
  intro n
  induction n with
  | zero => intro i a; simp [firstFrom]
  | succ n ih =>
    intro i a
    constructor
    · intro h
      rw [firstFrom] at h
      cases hf : f i with
      | error e => rw [hf] at h; exact absurd h (by simp)
      | ok r =>
        cases r with
        | some b =>
          rw [hf] at h
          exact ⟨0, Nat.succ_pos n, fun j hj => absurd hj (Nat.not_lt_zero j), hf.trans h⟩
        | none =>
          rw [hf] at h
          obtain ⟨k, hk, hbefore, hround⟩ := ih.mp h
          refine ⟨k + 1, by omega, fun j hj => ?_, ?_⟩
          · cases j with
            | zero => exact hf
            | succ j =>
              have := hbefore j (by omega)
              rwa [Nat.add_assoc, Nat.add_comm 1 j] at this
          · rwa [Nat.add_assoc, Nat.add_comm 1 k] at hround
    · rintro ⟨k, hk, hbefore, hround⟩
      rw [firstFrom_eq_round hk hbefore (by rw [hround]; simp), hround]

/-- An error of the loop is one of a round. -/
theorem firstFrom_ne_error {e : ε} (h : ∀ k, f k ≠ .error e) : ∀ (n i : ℕ),
    firstFrom f i n ≠ .error e := by
  intro n
  induction n with
  | zero => intro i; simp [firstFrom]
  | succ n ih =>
    intro i
    rw [firstFrom]
    cases hf : f i with
    | error e' =>
      intro he
      exact h i (hf.trans (congrArg Except.error (Except.error.inj he)))
    | ok r =>
      cases r with
      | none => exact ih (i + 1)
      | some a => simp

/-- A loop whose rounds stop at the elements that `p` holds for finds the first one. -/
theorem firstFrom_eq_find? {β : Type} {p : β → Bool} {g : β → α} {l : List β} {i : ℕ}
    (h : ∀ k b, l[k]? = some b → f (i + k) = .ok (if p b then some (g b) else none)) :
    firstFrom f i l.length = .ok ((l.find? p).map g) := by
  induction l generalizing i with
  | nil => rfl
  | cons b l ih =>
    have hfirst : f i = .ok (if p b then some (g b) else none) := h 0 b rfl
    rw [List.length_cons, firstFrom, hfirst]
    cases hp : p b with
    | true => simp [hp]
    | false =>
      rw [List.find?_cons_of_neg (by simp [hp])]
      refine ih fun k b' hb' => ?_
      rw [Nat.add_assoc, Nat.add_comm 1 k]
      exact h (k + 1) b' hb'

/-- The loop does not go on behind a round that ends like this. -/
def stops : Except ε (Option α) → Bool
  | .ok none => false
  | _ => true

theorem stops_iff {r : Except ε (Option α)} : stops r = true ↔ r ≠ .ok none := by
  cases r with
  | error e => simp [stops]
  | ok a => cases a <;> simp [stops]

/-- The round at which a loop of `n` rounds stops. -/
def stopAt (f : ℕ → Except ε (Option α)) (n : ℕ) : Option ℕ :=
  (List.range n).find? fun i => stops (f i)

theorem stopAt_eq_some_iff {n k : ℕ} :
    stopAt f n = some k ↔ k < n ∧ (∀ j < k, f j = .ok none) ∧ f k ≠ .ok none := by
  have hgoes : ∀ j, (!stops (f j)) = true ↔ f j = .ok none := by
    intro j
    rw [Bool.not_eq_true', ← Bool.not_eq_true, stops_iff, not_not]
  unfold stopAt
  simp only [List.find?_range_eq_some, List.mem_range, stops_iff, hgoes]
  exact and_rotate

/-- **The loop returns what the round it stops at returns**, and nothing if there is none. -/
theorem firstFrom_eq_stopAt (n : ℕ) :
    firstFrom f 0 n = match stopAt f n with
      | none => .ok none
      | some k => f k := by
  cases hstop : stopAt f n with
  | none =>
    refine firstFrom_eq_none fun k hk => ?_
    have hgoes := List.find?_eq_none.mp hstop k (List.mem_range.mpr hk)
    rw [stops_iff, not_not] at hgoes
    rw [Nat.zero_add]
    exact hgoes
  | some k =>
    obtain ⟨hk, hbefore, hround⟩ := stopAt_eq_some_iff.mp hstop
    have hfirst := firstFrom_eq_round (f := f) (i := 0) hk
      (fun j hj => by rw [Nat.zero_add]; exact hbefore j hj) (by rw [Nat.zero_add]; exact hround)
    rw [hfirst, Nat.zero_add]

/-- A stricter loop stops at the same round exactly if it stops where the other one does. -/
theorem stopAt_eq_iff {ε' α' : Type} {g : ℕ → Except ε' (Option α')}
    (h : ∀ k, g k ≠ .ok none → f k ≠ .ok none) {n : ℕ} :
    stopAt f n = stopAt g n ↔ ∀ k, stopAt f n = some k → g k ≠ .ok none := by
  constructor
  · intro heq k hk
    exact (stopAt_eq_some_iff.mp (heq ▸ hk)).2.2
  · intro hg
    cases hstop : stopAt f n with
    | none =>
      symm
      rw [stopAt, List.find?_eq_none]
      intro k hk hround
      have hfstops := List.find?_eq_none.mp hstop k hk
      exact hfstops (stops_iff.mpr (h k (stops_iff.mp hround)))
    | some k =>
      obtain ⟨hk, hbefore, -⟩ := stopAt_eq_some_iff.mp hstop
      refine (stopAt_eq_some_iff.mpr ⟨hk, fun j hj => ?_, hg k hstop⟩).symm
      by_contra hround
      exact h j hround (hbefore j hj)

end Loop
