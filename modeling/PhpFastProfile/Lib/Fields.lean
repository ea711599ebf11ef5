import PhpFastProfile.Lib.Text
import Mathlib.Data.Nat.Digits.Defs

/-!
# Fields of a line

More of Rust's `str` on lists of characters: splitting a line into fields and reading
hexadecimal numbers.

## Main definitions

* `Text.splitn n p` — the parts between characters that satisfy `p`, at most `n` of them.
* `Text.splitFirst c` — the two parts around the first `c`.
* `Text.fromStrRadix16` — the number that hexadecimal digits stand for.
* `Text.hexPad width n` — a number in hexadecimal, padded with zeros.

## Main results

* `Text.splitn_append_cons` — a field without a separator is split off.
* `Text.fromStrRadix16_hexPad` — a number is read back from its digits.
-/

namespace Text

/-! ### Fields -/

/-- `str::splitn`: the last of the `n` parts is not split any further. -/
def splitn (p : Char → Bool) : ℕ → List Char → List (List Char)
  | 0, _ => []
  | 1, s => [s]
  | n + 2, s =>
    match s.dropWhile fun c => !p c with
    | [] => [s]
    | _ :: rest => (s.takeWhile fun c => !p c) :: splitn p (n + 1) rest

example : splitn isWhitespace 2 "a  b c".toList = ["a".toList, " b c".toList] := by decide

/-- A field without a separator is split off. -/
theorem splitn_append_cons {p : Char → Bool} {field : List Char}
    (hfield : ∀ c ∈ field, p c = false) {c : Char} (hc : p c = true) (n : ℕ) (s : List Char) :
    splitn p (n + 2) (field ++ c :: s) = field :: splitn p (n + 1) s := by
  have hall : ∀ d ∈ field, (!p d) = true := fun d hd => by simp [hfield d hd]
  rw [splitn, List.dropWhile_append_of_pos hall, List.takeWhile_append_of_pos hall,
    List.dropWhile_cons_of_neg (by simp [hc]), List.takeWhile_cons_of_neg (by simp [hc])]
  simp

/-- The last field is not split off. -/
theorem splitn_eq_singleton {p : Char → Bool} {field : List Char}
    (hfield : ∀ c ∈ field, p c = false) (n : ℕ) : splitn p (n + 1) field = [field] := by
  have hall : ∀ d ∈ field, (!p d) = true := fun d hd => by simp [hfield d hd]
  cases n with
  | zero => rfl
  | succ n => rw [splitn, List.dropWhile_eq_nil_iff.mpr hall]

/-- `str::split_once` with a character. -/
def splitFirst (c : Char) (s : List Char) : Option (List Char × List Char) :=
  match s.dropWhile fun d => d ≠ c with
  | [] => none
  | _ :: rest => some (s.takeWhile fun d => d ≠ c, rest)

theorem splitFirst_append_cons {c : Char} {before : List Char} (h : c ∉ before)
    (after : List Char) : splitFirst c (before ++ c :: after) = some (before, after) := by
  have hall : ∀ d ∈ before, decide (d ≠ c) = true := by
    intro d hd
    simp only [decide_eq_true_eq]
    rintro rfl
    exact h hd
  rw [splitFirst, List.dropWhile_append_of_pos hall, List.takeWhile_append_of_pos hall,
    List.dropWhile_cons_of_neg (by simp), List.takeWhile_cons_of_neg (by simp)]
  simp

/-- Padding before a text that neither begins nor ends in whitespace is trimmed. -/
theorem trim_replicate_append (n : ℕ) {s : List Char} (h : Trimmed s) :
    trim (List.replicate n ' ' ++ s) = s := by
  have hpad : ∀ c ∈ List.replicate n ' ', isWhitespace c = true := by
    intro c hc
    rw [(List.mem_replicate.mp hc).2]
    rfl
  have hstart : s.dropWhile isWhitespace = s := by
    cases s with
    | nil => rfl
    | cons c s => exact List.dropWhile_cons_of_neg (by simp [h.1 c rfl])
  rw [trim, List.dropWhile_append_of_pos hpad, hstart, List.rdropWhile_eq_self_iff]
  intro hne
  simp [h.2 _ (List.getLast?_eq_some_getLast hne)]

/-! ### Hexadecimal numbers -/

/-- `std::num::IntErrorKind`, as far as `from_str_radix` on an unsigned type returns it. -/
inductive ParseIntError where
  | empty
  | invalidDigit
  | posOverflow
  deriving DecidableEq, Repr

/-- `char::to_digit(16)`. -/
def toDigit16 (c : Char) : Option ℕ :=
  if '0' ≤ c ∧ c ≤ '9' then some (c.toNat - '0'.toNat)
  else if 'a' ≤ c ∧ c ≤ 'f' then some (c.toNat - 'a'.toNat + 10)
  else if 'A' ≤ c ∧ c ≤ 'F' then some (c.toNat - 'A'.toNat + 10)
  else none

/-- The loop of `u64::from_str_radix`, with `result` read so far. -/
def readDigits16 (result : ℕ) : List Char → Except ParseIntError ℕ
  | [] => .ok result
  | c :: digits =>
    match toDigit16 c with
    | none => .error .invalidDigit
    | some x =>
      if result * 16 + x < 2 ^ 64 then readDigits16 (result * 16 + x) digits
      else .error .posOverflow

/-- `u64::from_str_radix(s, 16)`. -/
def fromStrRadix16 (s : List Char) : Except ParseIntError UInt64 :=
  match s with
  | [] => .error .empty
  | ['+'] => .error .invalidDigit
  | '+' :: digits => (readDigits16 0 digits).map UInt64.ofNat
  | digits => (readDigits16 0 digits).map UInt64.ofNat

/-- A number in lower-case hexadecimal, with zeros before it up to `width` digits. -/
def hexPad (width n : ℕ) : List Char :=
  List.replicate (width - (Nat.toDigits 16 n).length) '0' ++ Nat.toDigits 16 n

example : hexPad 8 0x1000 = "00001000".toList := by decide

theorem toDigit16_digitChar {d : ℕ} (h : d < 16) : toDigit16 (Nat.digitChar d) = some d := by
  have hall : ∀ d < 16, toDigit16 (Nat.digitChar d) = some d := by decide
  exact hall d h

/-- Reading one digit more. -/
theorem readDigits16_concat {result n d : ℕ} {digits : List Char} (hd : d < 16)
    (h : readDigits16 result digits = .ok n) (hlt : n * 16 + d < 2 ^ 64) :
    readDigits16 result (digits ++ [Nat.digitChar d]) = .ok (n * 16 + d) := by
  induction digits generalizing result with
  | nil =>
    obtain rfl : result = n := Except.ok.inj h
    simp only [List.nil_append, readDigits16, toDigit16_digitChar hd, if_pos hlt]
  | cons c digits ih =>
    rw [readDigits16] at h
    rw [List.cons_append, readDigits16]
    split at h
    · cases h
    · split at h
      · next hfit => simp only [if_pos hfit]; exact ih h
      · cases h

theorem readDigits16_toDigits {n : ℕ} (h : n < 2 ^ 64) :
    readDigits16 0 (Nat.toDigits 16 n) = .ok n := by
  induction n using Nat.strongRecOn with
  | ind n ih =>
    by_cases hlt : n < 16
    · have hempty : readDigits16 0 [] = .ok 0 := rfl
      have hone := readDigits16_concat hlt hempty (by omega)
      rw [Nat.toDigits_of_lt_base hlt]
      simpa using hone
    · have hle : 16 ≤ n := by omega
      have hstep := readDigits16_concat (Nat.mod_lt n (by decide))
        (ih (n / 16) (by omega) (by omega)) (by omega)
      rw [Nat.toDigits_of_base_le (by decide) hle, hstep, Nat.div_add_mod' n 16]

theorem readDigits16_replicate (k : ℕ) (digits : List Char) :
    readDigits16 0 (List.replicate k '0' ++ digits) = readDigits16 0 digits := by
  induction k with
  | zero => rfl
  | succ k ih =>
    have hzero : toDigit16 '0' = some 0 := rfl
    rw [List.replicate_succ, List.cons_append, readDigits16, hzero]
    simpa using ih

/-- The digits of a number are hexadecimal digits. -/
theorem mem_toDigits16 {c : Char} {n : ℕ} (h : c ∈ Nat.toDigits 16 n) :
    ∃ d < 16, c = Nat.digitChar d := by
  induction n using Nat.strongRecOn with
  | ind n ih =>
    rw [Nat.toDigits_eq_if (by decide)] at h
    split at h
    · next hlt => exact ⟨n, hlt, List.mem_singleton.mp h⟩
    · rcases List.mem_append.mp h with h | h
      · exact ih (n / 16) (by omega) h
      · exact ⟨n % 16, Nat.mod_lt n (by decide), List.mem_singleton.mp h⟩

theorem mem_hexPad {c : Char} {width n : ℕ} (h : c ∈ hexPad width n) :
    ∃ d < 16, c = Nat.digitChar d := by
  rcases List.mem_append.mp h with h | h
  · exact ⟨0, by decide, (List.mem_replicate.mp h).2⟩
  · exact mem_toDigits16 h

theorem hexPad_ne_nil (width n : ℕ) : hexPad width n ≠ [] := by
  simp [hexPad, Nat.toDigits_ne_nil]

/-- A property that all hexadecimal digits have. -/
theorem forall_mem_hexPad {P : Char → Prop} (h : ∀ d < 16, P (Nat.digitChar d)) (width n : ℕ) :
    ∀ c ∈ hexPad width n, P c := by
  intro c hc
  obtain ⟨d, hd, rfl⟩ := mem_hexPad hc
  exact h d hd

/-- **A number is read back from its digits.** -/
theorem fromStrRadix16_hexPad (width : ℕ) (n : UInt64) :
    fromStrRadix16 (hexPad width n.toNat) = .ok n := by
  have hread : readDigits16 0 (hexPad width n.toNat) = .ok n.toNat := by
    rw [hexPad, readDigits16_replicate, readDigits16_toDigits n.toNat_lt]
  have hplus : '+' ∉ hexPad width n.toNat := fun h =>
    forall_mem_hexPad (P := fun c => c ≠ '+') (by decide) width n.toNat '+' h rfl
  unfold fromStrRadix16
  split
  · next h => exact absurd h (hexPad_ne_nil _ _)
  · next h => exact absurd (h ▸ List.mem_cons_self) hplus
  · next h => exact absurd (h ▸ List.mem_cons_self) hplus
  · rw [hread]
    exact congrArg Except.ok (UInt64.ofNat_toNat)

end Text
