import Mathlib.Data.Nat.Digits.Defs
import Mathlib.Tactic.Positivity
import Mathlib.Tactic.Ring
import PhpFastProfile.Lib.Fields

/-!
# Hexadecimal numbers

What `u64::from_str_radix` accepts in base 16, and the number it is read as.

## Main definitions

* `Text.IsHex digits n` — the digits, of either case, stand for `n`.

## Main results

* `Text.fromStrRadix16_eq_ok_iff` — **digits that fit are accepted, with a sign or without.**
-/

namespace Text

/-- `Display` of `ParseIntError`. -/
def ParseIntError.display : ParseIntError → String
  | .empty => "cannot parse integer from empty string"
  | .invalidDigit => "invalid digit found in string"
  | .posOverflow => "number too large to fit in target type"

/-- The number that hexadecimal digits stand for, with the last one for the units. -/
def hexValue (digits : List Char) : Option ℕ :=
  (digits.mapM toDigit16).map fun ds => Nat.ofDigits 16 ds.reverse

/-- There are digits, and they stand for `n`. -/
def IsHex (digits : List Char) (n : ℕ) : Prop := digits ≠ [] ∧ hexValue digits = some n

example : IsHex "1fF".toList 0x1ff := ⟨by decide, by decide⟩

/-- Reading on from `result`: the digits are read as long as the number fits. -/
theorem readDigits16_eq_ok_iff {digits : List Char} : ∀ {result n : ℕ}, result < 2 ^ 64 →
    (readDigits16 result digits = .ok n ↔ ∃ ds, digits.mapM toDigit16 = some ds ∧
      n = result * 16 ^ ds.length + Nat.ofDigits 16 ds.reverse ∧ n < 2 ^ 64) := by
  induction digits with
  | nil =>
    intro result n hresult
    simp only [readDigits16, Except.ok.injEq, List.mapM_nil]
    constructor
    · rintro rfl
      exact ⟨[], rfl, by simp, hresult⟩
    · rintro ⟨ds, hds, rfl, -⟩
      obtain rfl := Option.some.inj hds
      simp
  | cons c digits ih =>
    intro result n hresult
    rw [readDigits16, List.mapM_cons]
    cases hc : toDigit16 c with
    | none => simp
    | some x =>
      have hvalue : ∀ ds : List ℕ,
          result * 16 ^ (x :: ds).length + Nat.ofDigits 16 (x :: ds).reverse =
          (result * 16 + x) * 16 ^ ds.length + Nat.ofDigits 16 ds.reverse := by
        intro ds
        rw [List.reverse_cons, Nat.ofDigits_append, Nat.ofDigits_singleton, List.length_reverse,
          List.length_cons]
        ring
      have hcons : ∀ ds, (do return x :: (← digits.mapM toDigit16)) = some ds ↔
          ∃ ds', digits.mapM toDigit16 = some ds' ∧ x :: ds' = ds := by
        intro ds
        simp [Option.bind_eq_some_iff]
      show (if result * 16 + x < 2 ^ 64 then _ else _) = _ ↔
        ∃ ds, (do return x :: (← digits.mapM toDigit16)) = some ds ∧ _
      by_cases hfits : result * 16 + x < 2 ^ 64
      · rw [if_pos hfits, ih hfits]
        constructor
        · rintro ⟨ds, hds, hn, hlt⟩
          exact ⟨x :: ds, (hcons _).mpr ⟨ds, hds, rfl⟩, by rw [hvalue, hn], hlt⟩
        · rintro ⟨ds, hds, hn, hlt⟩
          obtain ⟨ds', hds', rfl⟩ := (hcons ds).mp hds
          exact ⟨ds', hds', by rw [← hvalue, hn], hlt⟩
      · rw [if_neg hfits]
        constructor
        · intro h
          cases h
        · rintro ⟨ds, hds, hn, hlt⟩
          obtain ⟨ds', hds', rfl⟩ := (hcons ds).mp hds
          -- more digits make the number no smaller
          have hpow : result * 16 + x ≤ (result * 16 + x) * 16 ^ ds'.length :=
            Nat.le_mul_of_pos_right _ (by positivity)
          rw [hvalue] at hn
          omega

theorem hexValue_eq_some_iff {digits : List Char} {n : UInt64} :
    hexValue digits = some n.toNat ↔ readDigits16 0 digits = .ok n.toNat := by
  rw [readDigits16_eq_ok_iff (by decide), hexValue, Option.map_eq_some_iff]
  constructor
  · rintro ⟨ds, hds, hn⟩
    exact ⟨ds, hds, by rw [hn, Nat.zero_mul, Nat.zero_add], n.toNat_lt⟩
  · rintro ⟨ds, hds, hn, -⟩
    exact ⟨ds, hds, by rw [hn, Nat.zero_mul, Nat.zero_add]⟩

theorem read_eq_ok_iff {digits : List Char} {n : UInt64} :
    (readDigits16 0 digits).map UInt64.ofNat = .ok n ↔ hexValue digits = some n.toNat := by
  rw [hexValue_eq_some_iff]
  cases h : readDigits16 0 digits with
  | error e => simp [Except.map]
  | ok m =>
    obtain ⟨-, -, -, hlt⟩ := (readDigits16_eq_ok_iff (by decide)).mp h
    simp only [Except.map, Except.ok.injEq]
    rw [← UInt64.toNat_inj, UInt64.toNat_ofNat_of_lt' hlt]

/-- A text with a character that is no digit stands for nothing. -/
theorem not_isHex {c : Char} (h : toDigit16 c = none) {digits : List Char} (hc : c ∈ digits)
    (n : ℕ) :
    ¬ IsHex digits n := by
  rintro ⟨-, hvalue⟩
  obtain ⟨ds, hds, -⟩ := Option.map_eq_some_iff.mp hvalue
  obtain ⟨before, after, rfl⟩ := List.append_of_mem hc
  rw [List.mapM_append, List.mapM_cons, h] at hds
  cases hbefore : before.mapM toDigit16 <;> rw [hbefore] at hds <;> cases hds

/-- **Digits that fit are accepted, with a plus sign or without.** -/
theorem fromStrRadix16_eq_ok_iff {s : List Char} {n : UInt64} : fromStrRadix16 s = .ok n ↔
    IsHex s n.toNat ∨ ∃ digits, s = '+' :: digits ∧ IsHex digits n.toNat := by
  have hplus : ∀ s, ¬ IsHex ('+' :: s) n.toNat := fun s =>
    not_isHex (by decide) List.mem_cons_self _
  unfold fromStrRadix16
  split
  · simp [IsHex]
  · constructor
    · intro h
      cases h
    · rintro (h | ⟨digits, hs, h⟩)
      · exact absurd h (hplus [])
      · exact absurd (List.cons.inj hs).2.symm h.1
  · next digits hne =>
    rw [read_eq_ok_iff]
    constructor
    · exact fun h => .inr ⟨digits, rfl, fun hnil => hne (by rw [hnil]), h⟩
    · rintro (h | ⟨digits', hs, h⟩)
      · exact absurd h (hplus digits)
      · rw [(List.cons.inj hs).2]
        exact h.2
  · next hnil _ hplus =>
    rw [read_eq_ok_iff]
    constructor
    · exact fun h => .inl ⟨fun hs => hnil hs, h⟩
    · rintro (h | ⟨digits, hs, -⟩)
      · exact h.2
      · exact absurd hs (hplus digits)

end Text
