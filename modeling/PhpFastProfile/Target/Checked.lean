import PhpFastProfile.HashTable

/-!
# Computations with overflow checks

A build with overflow checks does what a release build does until an addition of
addresses overflows, and then panics.  So whether a sequence of reads panics is
settled read by read, with the values the release build reads.

## Main definitions

* `Build.checked` — the profile with overflow checks.
* `Fits a k` — the sum of two addresses is an address.
* `Tracks x y` — `x` panics or does what `y` does.

## Main results

* `noPanic_bind_iff` — two steps panic in the first or, after it, in the second.
* `Tracks.bind`, `Tracks.firstFrom` — tracking composes.
* `noPanic_firstFrom_iff` — which round of a loop panics.
-/

namespace PhpFastProfile

/-- The profile with overflow checks. -/
def Build.checked : Build := ⟨true⟩

/-- The sum is an address. -/
def Fits (a k : UInt64) : Prop := a.toNat + k.toNat < 2 ^ 64

instance (a k : UInt64) : Decidable (Fits a k) := inferInstanceAs (Decidable (_ < _))

theorem checked_add (a k : UInt64) :
    Build.checked.add a k = if Fits a k then .ok (a + k) else .error .panic := by
  unfold Build.add
  by_cases h : Fits a k
  · rw [if_pos h, if_neg fun hover => Nat.not_le.mpr h hover.2]
  · rw [if_neg h, if_pos ⟨rfl, Nat.le_of_not_lt h⟩]

@[simp] theorem fits_zero (a : UInt64) : Fits a 0 := a.toNat_lt

/-- A smaller offset fits too. -/
theorem Fits.mono {a k k' : UInt64} (h : Fits a k) (hle : k'.toNat ≤ k.toNat) : Fits a k' :=
  Nat.lt_of_le_of_lt (Nat.add_le_add_left hle _) h

/-! ### Panics step by step -/

section Steps

variable {α β : Type} {x y : Outcome α}

theorem noPanic_bind_iff {f : α → Outcome β} :
    NoPanic (x >>= f) ↔ NoPanic x ∧ ∀ a, x = .ok a → NoPanic (f a) := by
  cases x with
  | ok a => simp [noPanic_ok]
  | error s =>
    show NoPanic (.error s) ↔ _
    simp [NoPanic]

/-- Handing a value on does not panic. -/
theorem noPanic_map_iff {f : α → β} : NoPanic (do let a ← x; return f a) ↔ NoPanic x := by
  rw [noPanic_bind_iff]
  exact and_iff_left fun a _ => noPanic_ok (f a)

theorem noPanic_ite_iff {p : Prop} [Decidable p] :
    NoPanic (if p then x else y) ↔ (p → NoPanic x) ∧ (¬ p → NoPanic y) := by
  by_cases h : p <;> simp [h]

/-- Leaving early does not panic. -/
theorem noPanic_unless_iff {p : Prop} [Decidable p] {a : α} :
    NoPanic (if p then pure a else x) ↔ (¬ p → NoPanic x) := by
  rw [noPanic_ite_iff]
  exact and_iff_right fun _ => noPanic_ok a

theorem noPanic_when_iff {p : Prop} [Decidable p] {a : α} :
    NoPanic (if p then x else pure a) ↔ (p → NoPanic x) := by
  rw [noPanic_ite_iff]
  exact and_iff_left fun _ => noPanic_ok a

theorem noPanic_unwrapOr_iff {d : α} : NoPanic (Outcome.unwrapOr x d) ↔ NoPanic x := by
  refine ⟨fun h hx => ?_, fun h => noPanic_unwrapOr h d⟩
  rw [hx] at h
  exact h rfl

/-- Where the default has a property, the value has it when what is read has it. -/
theorem forall_unwrapOr_iff (hx : NoPanic x) {d : α} {P : α → Prop} (hd : P d) :
    (∀ a, Outcome.unwrapOr x d = .ok a → P a) ↔ ∀ a, x = .ok a → P a := by
  rw [hx.unwrapOr]
  cases x with
  | ok a => rfl
  | error s => exact iff_of_true (fun a ha => Except.ok.inj ha ▸ hd) fun a ha => by cases ha

theorem noPanic_attempt_iff : NoPanic (attempt x : Outcome (Option α)) ↔ NoPanic x := by
  refine ⟨fun h hx => ?_, fun h => ?_⟩
  · rw [hx] at h
    exact h rfl
  · rw [attempt_eq h]
    exact noPanic_ok _

/-- An addition panics when it overflows. -/
theorem noPanic_add_bind {a k : UInt64} {f : UInt64 → Outcome β} :
    NoPanic (Build.checked.add a k >>= f) ↔ Fits a k ∧ NoPanic (f (a + k)) := by
  rw [checked_add]
  by_cases h : Fits a k
  · simp [h]
  · rw [if_neg h]
    refine iff_of_false (fun hno => hno rfl) fun hno => h hno.1

/-- A read does not panic. -/
theorem noPanic_readU64_bind {rem : Remote} {a : UInt64} {f : UInt64 → Outcome β} :
    NoPanic (rem.readU64 a >>= f) ↔ ∀ v, rem.readU64 a = .ok v → NoPanic (f v) := by
  rw [noPanic_bind_iff]
  exact and_iff_right (rem.noPanic_readU64 a)

theorem noPanic_readU32_bind {rem : Remote} {a : UInt64} {f : UInt32 → Outcome β} :
    NoPanic (rem.readU32 a >>= f) ↔ ∀ v, rem.readU32 a = .ok v → NoPanic (f v) := by
  rw [noPanic_bind_iff]
  exact and_iff_right (rem.noPanic_readU32 a)

end Steps

/-! ### Tracking -/

/-- `x` panics or does what `y` does. -/
def Tracks {α : Type} (x y : Outcome α) : Prop := NoPanic x → x = y

section Tracking

variable {α β : Type} {x y : Outcome α}

theorem Tracks.refl (x : Outcome α) : Tracks x x := fun _ => rfl

theorem Tracks.add (a k : UInt64) : Tracks (Build.checked.add a k) (Build.release.add a k) := by
  rw [checked_add, Build.release_add]
  by_cases h : Fits a k
  · rw [if_pos h]
    exact Tracks.refl _
  · rw [if_neg h]
    exact fun hno => absurd rfl hno

theorem Tracks.bind {f g : α → Outcome β} (h : Tracks x y) (hf : ∀ a, Tracks (f a) (g a)) :
    Tracks (x >>= f) (y >>= g) := by
  intro hno
  obtain ⟨hx, hrest⟩ := noPanic_bind_iff.mp hno
  obtain rfl := h hx
  cases x with
  | ok a => exact hf a (hrest a rfl)
  | error s => rfl

theorem Tracks.ite {p : Prop} [Decidable p] {x' y' : Outcome α} (h : Tracks x y)
    (h' : Tracks x' y') : Tracks (if p then x else x') (if p then y else y') := by
  split
  · exact h
  · exact h'

theorem Tracks.unwrapOr (h : Tracks x y) (d : α) :
    Tracks (Outcome.unwrapOr x d) (Outcome.unwrapOr y d) :=
  fun hno => by rw [h (noPanic_unwrapOr_iff.mp hno)]

theorem Tracks.attempt (h : Tracks x y) :
    Tracks (attempt x : Outcome (Option α)) (PhpFastProfile.attempt y) :=
  fun hno => by rw [h (noPanic_attempt_iff.mp hno)]

/-- After a step without a panic the values are those that are tracked. -/
theorem Tracks.noPanic_bind_iff {f : α → Outcome β} (h : Tracks x y) :
    NoPanic (x >>= f) ↔ NoPanic x ∧ ∀ a, y = .ok a → NoPanic (f a) := by
  rw [PhpFastProfile.noPanic_bind_iff]
  refine and_congr_right fun hx => ?_
  rw [h hx]

/-- A step whose value does not decide whether the rest panics. -/
theorem Tracks.noPanic_step_iff {f : α → Outcome β} {P : Prop} (h : Tracks x y)
    (hf : ∀ a, NoPanic (f a) ↔ P) :
    NoPanic (x >>= f) ↔ NoPanic x ∧ ((∃ a, y = .ok a) → P) := by
  rw [h.noPanic_bind_iff, forall_exists_index]
  simp only [hf]

/-- After a step whose error is caught. -/
theorem Tracks.noPanic_attempt_bind {k : Option α → Outcome β} (h : Tracks x y)
    (hk : NoPanic (k none)) :
    NoPanic (PhpFastProfile.attempt x >>= k) ↔
      NoPanic x ∧ ∀ a, y = .ok a → NoPanic (k (some a)) := by
  rw [h.attempt.noPanic_bind_iff, noPanic_attempt_iff]
  refine and_congr_right fun _ => ?_
  cases y with
  | ok a =>
    constructor
    · rintro hno b ⟨⟩
      exact hno _ rfl
    · rintro hno b ⟨⟩
      exact hno _ rfl
  | error s =>
    refine iff_of_true (fun r hr => ?_) fun a ha => by cases ha
    cases s with
    | panic => cases hr
    | err e =>
      cases hr
      exact hk

/-- A step whose value does not decide whether the rest returns. -/
theorem exists_bind_eq_ok_iff {f : α → Outcome β} {P : Prop}
    (hf : ∀ a, (∃ b, f a = .ok b) ↔ P) :
    (∃ b, x >>= f = .ok b) ↔ (∃ a, x = .ok a) ∧ P := by
  constructor
  · rintro ⟨b, hb⟩
    obtain ⟨a, ha, hb⟩ := bind_eq_ok.mp hb
    exact ⟨⟨a, ha⟩, (hf a).mp ⟨b, hb⟩⟩
  · rintro ⟨⟨a, ha⟩, hP⟩
    obtain ⟨b, hb⟩ := (hf a).mpr hP
    exact ⟨b, bind_eq_ok.mpr ⟨a, ha, hb⟩⟩

variable {f g : ℕ → Outcome (Option α)}

/-- The first round of a loop does not panic when the loop does not. -/
theorem noPanic_of_firstFrom {n i : ℕ} (h : NoPanic (Loop.firstFrom f i (n + 1))) :
    NoPanic (f i) := by
  intro hpanic
  rw [Loop.firstFrom, hpanic] at h
  exact h rfl

theorem Tracks.firstFrom (h : ∀ i, Tracks (f i) (g i)) :
    ∀ n i, Tracks (Loop.firstFrom f i n) (Loop.firstFrom g i n) := by
  intro n
  induction n with
  | zero => intro i; exact Tracks.refl _
  | succ n ih =>
    intro i hno
    have hfi := h i (noPanic_of_firstFrom hno)
    rw [Loop.firstFrom] at hno
    rw [Loop.firstFrom, Loop.firstFrom, ← hfi]
    cases hf : f i with
    | error s => rfl
    | ok r =>
      rw [hf] at hno
      cases r with
      | some a => rfl
      | none => exact ih (i + 1) hno

/-- **A loop panics in the first round that panics, if it gets there.** -/
theorem noPanic_firstFrom_iff (h : ∀ i, Tracks (f i) (g i)) : ∀ {n i : ℕ},
    NoPanic (Loop.firstFrom f i n) ↔
      ∀ k < n, (∀ j < k, g (i + j) = .ok none) → NoPanic (f (i + k)) := by
  intro n
  induction n with
  | zero => intro i; simp [Loop.firstFrom, noPanic_ok]
  | succ n ih =>
    intro i
    constructor
    · intro hno k hk hbefore
      cases k with
      | zero => exact noPanic_of_firstFrom hno
      | succ k =>
        have hfirst : f i = .ok none :=
          (h i (noPanic_of_firstFrom hno)).trans (hbefore 0 (Nat.succ_pos k))
        rw [Loop.firstFrom, hfirst] at hno
        rw [← Nat.add_assoc, Nat.add_right_comm]
        refine ih.mp hno k (by omega) fun j hj => ?_
        rw [Nat.add_assoc, Nat.add_comm 1 j]
        exact hbefore (j + 1) (by omega)
    · intro hall
      have hfi : NoPanic (f i) := hall 0 (Nat.succ_pos n) fun j hj => absurd hj (Nat.not_lt_zero j)
      rw [Loop.firstFrom]
      cases hf : f i with
      | error s => rwa [hf] at hfi
      | ok r =>
        cases r with
        | some a => exact noPanic_ok _
        | none =>
          refine ih.mpr fun k hk hbefore => ?_
          rw [Nat.add_assoc, Nat.add_comm 1 k]
          refine hall (k + 1) (by omega) fun j hj => ?_
          cases j with
          | zero => exact (h i hfi).symm.trans hf
          | succ j =>
            have hj' := hbefore j (by omega)
            rwa [Nat.add_assoc, Nat.add_comm 1 j] at hj'

end Tracking
end PhpFastProfile
