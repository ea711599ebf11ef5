import Mathlib.Algebra.Ring.Nat
import Mathlib.Data.List.Basic

/-!
# Loading bytes from a partial memory

A memory is a partial map from natural addresses to cells.  `load m a n` reads
the `n` cells from `a` on and fails when one of them is missing, so a load is
determined by the cells it covers, and the parts of a load are loads again.

## Main definitions

* `load m a n` — the `n` cells from `a` on.
* `leNat bs` — the little-endian number with the bytes `bs`.

## Main results

* `load_eq_some_iff` — a load reads exactly the cells it covers.
* `load_window` — a part of a load is the load of that part.
-/

namespace Bytes

variable {β : Type*}

/-- The `n` cells from `a` on, when all of them are there. -/
def load (m : ℕ → Option β) : ℕ → ℕ → Option (List β)
  | _, 0 => some []
  | a, n + 1 => (m a).bind fun b => (load m (a + 1) n).map (b :: ·)

@[simp] theorem load_zero (m : ℕ → Option β) (a : ℕ) : load m a 0 = some [] := rfl

theorem load_succ (m : ℕ → Option β) (a n : ℕ) :
    load m a (n + 1) = (m a).bind fun b => (load m (a + 1) n).map (b :: ·) := rfl

theorem length_load {m : ℕ → Option β} : ∀ {n a : ℕ} {bs : List β},
    load m a n = some bs → bs.length = n := by
  intro n
  induction n with
  | zero =>
    intro a bs h
    obtain rfl : [] = bs := Option.some.inj h
    rfl
  | succ n ih =>
    intro a bs h
    rw [load_succ, Option.bind_eq_some_iff] at h
    obtain ⟨b, -, h⟩ := h
    obtain ⟨bs', hload, rfl⟩ := Option.map_eq_some_iff.mp h
    rw [List.length_cons, ih hload]

/-- **A load reads exactly the cells it covers.** -/
theorem load_eq_some_iff {m : ℕ → Option β} : ∀ {n a : ℕ} {bs : List β},
    load m a n = some bs ↔ bs.length = n ∧ ∀ i < n, m (a + i) = bs[i]? := by
  intro n
  induction n with
  | zero =>
    intro a bs
    rw [load_zero, Option.some.injEq, List.length_eq_zero_iff]
    constructor
    · rintro rfl
      exact ⟨rfl, fun i hi => absurd hi (Nat.not_lt_zero i)⟩
    · rintro ⟨rfl, -⟩
      rfl
  | succ n ih =>
    intro a bs
    rw [load_succ, Option.bind_eq_some_iff]
    constructor
    · rintro ⟨b, hb, h⟩
      obtain ⟨bs', hload, rfl⟩ := Option.map_eq_some_iff.mp h
      obtain ⟨hlen, hcells⟩ := ih.mp hload
      refine ⟨by rw [List.length_cons, hlen], fun i hi => ?_⟩
      cases i with
      | zero => exact hb
      | succ i =>
        rw [List.getElem?_cons_succ, ← hcells i (by omega)]
        congr 1
        omega
    · rintro ⟨hlen, hcells⟩
      cases bs with
      | nil => simp at hlen
      | cons b bs =>
        refine ⟨b, hcells 0 (by omega), ?_⟩
        have hload : load m (a + 1) n = some bs := by
          refine ih.mpr ⟨by simpa using hlen, fun i hi => ?_⟩
          rw [← List.getElem?_cons_succ (a := b), ← hcells (i + 1) (by omega)]
          congr 1
          omega
        rw [hload]
        rfl

/-- **A part of a load is the load of that part.** -/
theorem load_window {m : ℕ → Option β} {a n : ℕ} {bs : List β} (h : load m a n = some bs)
    {i k : ℕ} (hik : i + k ≤ n) : load m (a + i) k = some ((bs.drop i).take k) := by
  obtain ⟨hlen, hcells⟩ := load_eq_some_iff.mp h
  refine load_eq_some_iff.mpr ⟨?_, fun j hj => ?_⟩
  · rw [List.length_take, List.length_drop, hlen]
    omega
  · rw [Nat.add_assoc, hcells (i + j) (by omega), List.getElem?_take_of_lt hj,
      List.getElem?_drop]

/-- The little-endian number with the given bytes. -/
def leNat : List UInt8 → ℕ
  | [] => 0
  | b :: bs => b.toNat + 256 * leNat bs

end Bytes
