import PhpFastProfile.Offsets
import Mathlib.Tactic.IntervalCases

/-!
# Version literals

`looksLikePhpVersion` recognises `8.<minor>.<patch>` by splitting on dots and
`pick` chooses a layout by comparing the first three characters.  On an accepted
string the three characters are `8.` and the first digit of the minor, so the
two agree exactly when that digit already is the minor, or is too large for any
layout.

## Main definitions

* `looksLikePhpVersion` — the recogniser.
* `minorDigits`, `minorNumber` — the minor of a version string.
* `AgreesOnMinor env s` — the layout picked for `s` is that of its minor.
* `FirstDigitDecides s` — the first digit of the minor settles it.

## Main results

* `pickBase_of_toList` — what `pick` sees of an accepted string.
* `agreesOnMinor_iff` — when recogniser and layout choice agree.
-/

namespace PhpFastProfile

/-- A part of a version: one to three bytes, all of them ASCII digits.  Each
character outside ASCII has a byte that is no digit. -/
def isVersionPart (part : List Char) : Bool :=
  1 ≤ part.length && part.length ≤ 3 && part.all Char.isDigit

/-- `looks_like_php_version`: `8`, and two parts of one to three digits. -/
def looksLikePhpVersion (s : String) : Bool :=
  match s.toList.splitOn '.' with
  | [major, minor, patch] => major == ['8'] && isVersionPart minor && isVersionPart patch
  | _ => false

/-- The digits between the dots. -/
def minorDigits (s : String) : List Char := (s.toList.splitOn '.').getD 1 []

/-- The minor as a decimal number. -/
def minorNumber (s : String) : ℕ := Nat.ofDigitChars 10 (minorDigits s) 0

/-- A layout is picked exactly for the minors 0 to 5, and it is labelled with
the minor. -/
def AgreesOnMinor (env : Env) (s : String) : Prop :=
  ((pick env s).isSome ↔ minorNumber s ≤ 5) ∧
    ∀ layout, pick env s = some layout → layout.label = "8." ++ toString (minorNumber s)

/-- The minor is a single digit, or starts with a digit above 5, or is written
with zeros only. -/
def FirstDigitDecides (s : String) : Prop :=
  (minorDigits s).length = 1 ∨ (minorDigits s).head?.any (fun d => '5'.toNat < d.toNat) = true ∨
    (minorDigits s).all (fun d => d = '0') = true

instance (s : String) : Decidable (FirstDigitDecides s) :=
  inferInstanceAs (Decidable (_ ∨ _ ∨ _))

/-! ### Decimal numbers -/

/-- A decimal number is at least its first digit's share. -/
theorem ofDigitChars_cons_ten (d : Char) (ds : List Char) :
    Nat.ofDigitChars 10 (d :: ds) 0
      = 10 ^ ds.length * (d.toNat - 48) + Nat.ofDigitChars 10 ds 0 := by
  rw [Nat.ofDigitChars_cons, Nat.ofDigitChars_eq_ofDigitChars_zero]
  simp

/-- The value of a digit is below ten. -/
theorem toNat_of_isDigit {d : Char} (h : d.isDigit = true) : 48 ≤ d.toNat ∧ d.toNat ≤ 57 := by
  simp only [Char.isDigit, Bool.and_eq_true, decide_eq_true_eq] at h
  exact ⟨h.1, h.2⟩

theorem eq_of_toNat {c d : Char} (h : c.toNat = d.toNat) : c = d := by
  rw [← Char.ofNat_toNat c, ← Char.ofNat_toNat d, h]

/-- A decimal number is zero only when all its digits are. -/
theorem eq_zero_of_ofDigitChars : ∀ (ds : List Char), (∀ d ∈ ds, d.isDigit = true) →
    Nat.ofDigitChars 10 ds 0 = 0 → ∀ d ∈ ds, d = '0' := by
  intro ds
  induction ds with
  | nil => intro _ _ d hd; simp at hd
  | cons d ds ih =>
    intro hdigit hzero c hc
    rw [ofDigitChars_cons_ten] at hzero
    obtain ⟨hmul, hrest⟩ := Nat.add_eq_zero_iff.mp hzero
    rcases List.mem_cons.mp hc with rfl | hc
    · have hpow : 10 ^ ds.length ≠ 0 := Nat.ne_of_gt (Nat.pow_pos (by omega))
      have hval : c.toNat - 48 = 0 := (Nat.mul_eq_zero.mp hmul).resolve_left hpow
      have hle := (toNat_of_isDigit (hdigit c (List.mem_cons_self ..))).1
      exact eq_of_toNat (show c.toNat = 48 by omega)
    · exact ih (fun d hd => hdigit d (List.mem_cons_of_mem _ hd)) hrest c hc

/-- A number of several digits equals its first digit only when it is zero. -/
theorem ofDigitChars_eq_head_iff {d : Char} {ds : List Char}
    (hdigit : ∀ c ∈ d :: ds, c.isDigit = true) :
    Nat.ofDigitChars 10 (d :: ds) 0 = d.toNat - 48 ↔ ds = [] ∨ ∀ c ∈ d :: ds, c = '0' := by
  constructor
  · intro h
    by_cases hds : ds = []
    · exact Or.inl hds
    · refine Or.inr (eq_zero_of_ofDigitChars _ hdigit ?_)
      rw [ofDigitChars_cons_ten] at h ⊢
      -- with a second digit the number is at least ten times the first
      have hten : 10 ^ 1 ≤ 10 ^ ds.length :=
        Nat.pow_le_pow_right (by omega) (List.length_pos_iff.mpr hds)
      have hmul : 10 * (d.toNat - 48) ≤ 10 ^ ds.length * (d.toNat - 48) :=
        Nat.mul_le_mul_right _ hten
      omega
  · rintro (rfl | h)
    · rw [ofDigitChars_cons_ten]
      simp
    · have hrep : d :: ds = List.replicate (ds.length + 1) '0' :=
        List.eq_replicate_of_mem h
      obtain rfl : d = '0' := h d (List.mem_cons_self ..)
      rw [hrep, Nat.ofDigitChars_replicate_zero]
      rfl

/-! ### What `pick` sees -/

/-- An accepted string is `8.`, its minor, a dot and its patch. -/
theorem toList_of_looksLike {s : String} (h : looksLikePhpVersion s = true) :
    ∃ d ds patch, minorDigits s = d :: ds ∧ s.toList = '8' :: '.' :: d :: (ds ++ '.' :: patch) ∧
      ∀ c ∈ d :: ds, c.isDigit = true := by
  unfold looksLikePhpVersion at h
  split at h
  · next major minor patch hsplit =>
    simp only [Bool.and_eq_true, beq_iff_eq] at h
    obtain ⟨⟨rfl, hminor⟩, -⟩ := h
    -- the parts joined by dots are the string again
    have hjoin : ['.'].intercalate (s.toList.splitOn '.') = s.toList :=
      List.intercalate_splitOn '.'
    rw [hsplit] at hjoin
    simp only [isVersionPart, Bool.and_eq_true, decide_eq_true_eq, List.all_eq_true] at hminor
    cases minor with
    | nil => simp at hminor
    | cons d ds =>
      refine ⟨d, ds, patch, by rw [minorDigits, hsplit]; rfl, ?_, hminor.2⟩
      rw [← hjoin]
      simp [List.intercalate]
  · exact absurd h (by simp)

/-- The layout of a minor's first digit. -/
def digitLayout (d : Char) : Option VersionLayout :=
  if d = '0' then some layout8_0
  else if d = '1' then some layout8_1
  else if d = '2' then some layout8_2
  else if d = '3' then some layout8_3
  else if d = '4' then some layout8_4
  else if d = '5' then some layout8_5
  else none

/-- **The layout picked for an accepted string is that of the first digit of its
minor.** -/
theorem pickBase_of_toList {s : String} {d : Char} {cs : List Char}
    (h : s.toList = '8' :: '.' :: d :: cs) : pickBase s = digitLayout d := by
  have hstart : ∀ c : Char, (['8', '.', c].isPrefixOf s.toList = true) ↔ d = c := by
    intro c
    rw [h]
    simp only [List.isPrefixOf, beq_self_eq_true, Bool.true_and, Bool.and_true, beq_iff_eq]
    exact eq_comm
  unfold pickBase digitLayout startsWith
  simp only [show "8.0".toList = ['8', '.', '0'] from rfl,
    show "8.1".toList = ['8', '.', '1'] from rfl, show "8.2".toList = ['8', '.', '2'] from rfl,
    show "8.3".toList = ['8', '.', '3'] from rfl, show "8.4".toList = ['8', '.', '4'] from rfl,
    show "8.5".toList = ['8', '.', '5'] from rfl, hstart]

/-- A digit up to 5 has the layout it labels, a larger one none. -/
theorem digitLayout_cases {d : Char} (h : d.isDigit = true) :
    (d.toNat - 48 ≤ 5 ∧
        (digitLayout d).map VersionLayout.label = some ("8." ++ toString (d.toNat - 48))) ∨
      (5 < d.toNat - 48 ∧ digitLayout d = none) := by
  obtain ⟨hlow, hhigh⟩ := toNat_of_isDigit h
  have hd : d = Char.ofNat d.toNat := (Char.ofNat_toNat d).symm
  -- there are only ten digits
  generalize d.toNat = n at hd hlow hhigh
  subst hd
  interval_cases n <;> decide

theorem toString_nat_inj {a b : ℕ} (h : toString a = toString b) : a = b := by
  have hlist : (toString a).toList = (toString b).toList := congrArg String.toList h
  have hdigits : Nat.toDigits 10 a = Nat.toDigits 10 b := by
    simpa only [Nat.toString_eq_repr, Nat.toList_repr] using hlist
  calc a = Nat.ofDigitChars 10 (Nat.toDigits 10 a) 0 := Nat.ofDigitChars_ten_toDigits.symm
    _ = Nat.ofDigitChars 10 (Nat.toDigits 10 b) 0 := by rw [hdigits]
    _ = b := Nat.ofDigitChars_ten_toDigits

/-! ### Agreement -/

/-- **Recogniser and layout choice agree on the minor of an accepted string
exactly when its first digit decides it**: `pick` looks no further. -/
theorem agreesOnMinor_iff (env : Env) (s : String) (h : looksLikePhpVersion s = true) :
    AgreesOnMinor env s ↔ FirstDigitDecides s := by
  obtain ⟨d, ds, patch, hminor, hlist, hdigit⟩ := toList_of_looksLike h
  have hnum : minorNumber s = Nat.ofDigitChars 10 (d :: ds) 0 := by rw [minorNumber, hminor]
  have hpick : pick env s = (digitLayout d).map env.override := by
    rw [pick, pickBase_of_toList hlist]
  rw [AgreesOnMinor, FirstDigitDecides, hminor, hnum, hpick]
  rcases digitLayout_cases (hdigit d (List.mem_cons_self ..)) with
    ⟨hval, hlabel⟩ | ⟨hval, hnone⟩
  · -- a layout is picked, labelled with the first digit
    obtain ⟨layout, hlayout, hlabel⟩ := Option.map_eq_some_iff.mp hlabel
    have hiff := ofDigitChars_eq_head_iff hdigit
    simp only [hlayout, Option.map_some, Option.isSome_some, true_iff, Option.some.injEq,
      forall_eq', Env.override_label, hlabel]
    constructor
    · rintro ⟨-, heq⟩
      have hsame := toString_nat_inj ((String.append_right_inj _).mp heq)
      rcases hiff.mp hsame.symm with rfl | hzero
      · exact Or.inl rfl
      · exact Or.inr (Or.inr (by simpa using hzero))
    · rintro (hlen | hgt | hzero)
      · have hds : ds = [] := by simpa using hlen
        rw [hiff.mpr (Or.inl hds)]
        exact ⟨hval, rfl⟩
      · have hgt' : '5'.toNat < d.toNat := by simpa using hgt
        have hfive : '5'.toNat = 53 := rfl
        omega
      · rw [hiff.mpr (Or.inr (by simpa using hzero))]
        exact ⟨hval, rfl⟩
  · -- no layout is picked, and the minor is at least its first digit
    have hbig : 5 < Nat.ofDigitChars 10 (d :: ds) 0 := by
      have hpow : 1 ≤ 10 ^ ds.length := Nat.pow_pos (by omega)
      have hmul : 1 * (d.toNat - 48) ≤ 10 ^ ds.length * (d.toNat - 48) :=
        Nat.mul_le_mul_right _ hpow
      rw [ofDigitChars_cons_ten]
      omega
    have hleft : ¬ Nat.ofDigitChars 10 (d :: ds) 0 ≤ 5 := by omega
    have hfive : 53 < d.toNat := by omega
    simp only [hnone, Option.map_none, Option.isSome_none, hleft]
    simp [hfive]

/-- `8.30.1` is given the layout of 8.3 although its minor is 30, and `8.7.0` is
rightly given none. -/
theorem agreesOnMinor_iff_8_30_1 :
    ¬ AgreesOnMinor ⟨none, none⟩ "8.30.1" ∧ AgreesOnMinor ⟨none, none⟩ "8.7.0" :=
  ⟨fun h => absurd ((agreesOnMinor_iff ⟨none, none⟩ "8.30.1" (by decide)).mp h) (by decide),
    (agreesOnMinor_iff ⟨none, none⟩ "8.7.0" (by decide)).mpr (Or.inl (by decide))⟩

/-- **Version detection and layout choice disagree**: `8.10.0` is a version the
scan accepts, and it is given the offsets of 8.1. -/
theorem not_agreesOnMinor_8_10_0 : ¬ ∀ env s, looksLikePhpVersion s = true →
    AgreesOnMinor env s := by
  intro h
  obtain ⟨hiff, -⟩ := h ⟨none, none⟩ "8.10.0" (by decide)
  exact absurd (hiff.mp (by decide)) (by decide)

end PhpFastProfile
