import Mathlib.Data.List.Infix
import Mathlib.Data.List.DropRight

/-!
# Text

Operations of Rust's `str` on lists of characters.

## Main definitions

* `Text.trim` — the text without the whitespace around it.
* `Text.lines` — its lines.
* `Text.contains` — whether a pattern occurs in it.
* `Text.afterLast` — what follows the last occurrence of a pattern.
* `Text.splitLast` — the two parts around the last occurrence of a character.
* `Text.parseI32` — the number a text stands for.

## Main results

* `Text.trim_infix`, `Text.infix_trim_iff` — what is left is a part of the text, and which parts
  are left.
* `Text.afterLast_eq_none_iff`, `Text.afterLast_eq_nil_iff` — when the pattern does not
  occur, and when nothing follows it.
* `Text.mem_of_mem_splitOn` — what the parts of a text are made of.
-/

namespace Text

/-! ### Whitespace -/

/-- The Unicode property `White_Space`. -/
def isWhitespace (c : Char) : Bool :=
  let n := c.toNat
  (0x09 ≤ n && n ≤ 0x0D) || n = 0x20 || n = 0x85 || n = 0xA0 || n = 0x1680 ||
    (0x2000 ≤ n && n ≤ 0x200A) || n = 0x2028 || n = 0x2029 || n = 0x202F || n = 0x205F || n = 0x3000

/-- `str::trim`. -/
def trim (s : List Char) : List Char := (s.dropWhile isWhitespace).rdropWhile isWhitespace

example : trim " php-fpm: pool www\n".toList = "php-fpm: pool www".toList := by decide

/-- **What is left is a part of the text.** -/
theorem trim_infix (s : List Char) : trim s <:+: s :=
  (List.rdropWhile_prefix _ _).isInfix.trans (List.dropWhile_suffix _).isInfix

/-- A text between two characters that are no whitespace is left as it is. -/
theorem trim_eq_self {c d : Char} (hc : isWhitespace c = false) (hd : isWhitespace d = false)
    (s : List Char) : trim (c :: (s ++ [d])) = c :: (s ++ [d]) := by
  have hstart : (c :: (s ++ [d])).dropWhile isWhitespace = c :: (s ++ [d]) :=
    List.dropWhile_cons_of_neg (by simp [hc])
  rw [trim, hstart, ← List.cons_append]
  exact List.rdropWhile_concat_neg _ _ _ (by simp [hd])

/-- The text neither begins nor ends in whitespace. -/
def Trimmed (s : List Char) : Prop :=
  (∀ c ∈ s.head?, isWhitespace c = false) ∧ ∀ c ∈ s.getLast?, isWhitespace c = false

instance (s : List Char) : Decidable (Trimmed s) :=
  decidable_of_iff
    ((s.head?.all fun c => !isWhitespace c) ∧ s.getLast?.all fun c => !isWhitespace c) (by
      simp [Trimmed, Option.all_eq_true])

/-- A part that begins with no dropped character is not dropped. -/
theorem infix_dropWhile {p : Char → Bool} {part s : List Char} (h : part <:+: s)
    (hfirst : ∀ c ∈ part.head?, p c = false) : part <:+: s.dropWhile p := by
  obtain ⟨before, after, rfl⟩ := h
  induction before with
  | nil =>
    cases part with
    | nil => exact List.nil_infix
    | cons c part =>
      rw [List.nil_append, List.cons_append, List.dropWhile_cons_of_neg (by simp [hfirst c rfl])]
      exact (List.prefix_append (c :: part) after).isInfix
  | cons c before ih =>
    cases hc : p c with
    | true =>
      rw [List.cons_append, List.cons_append, List.dropWhile_cons_of_pos hc]
      exact ih
    | false =>
      rw [List.cons_append, List.cons_append, List.dropWhile_cons_of_neg (by simp [hc])]
      exact ⟨c :: before, after, rfl⟩

/-- **Trimming a text takes no trimmed part away.** -/
theorem infix_trim_iff {part s : List Char} (h : Trimmed part) :
    part <:+: trim s ↔ part <:+: s := by
  have hpart := trim_infix s
  refine ⟨fun hin => hin.trans hpart, fun hin => ?_⟩
  have hstart := infix_dropWhile hin h.1
  -- from the end the same
  have hend := infix_dropWhile (List.reverse_infix.mpr hstart) (by simpa using h.2)
  rw [trim, List.rdropWhile]
  simpa using List.reverse_infix.mpr hend

/-! ### Lines -/

/-- The lines of `s`, the first of which has begun with the characters of `begun`,
the last one first.  A line that a newline ends loses a carriage return. -/
def linesFrom (begun : List Char) : List Char → List (List Char)
  | [] => if begun.isEmpty then [] else [begun.reverse]
  | c :: s =>
    if c = '\n' then
      (if begun.head? = some '\r' then begun.tail else begun).reverse :: linesFrom [] s
    else linesFrom (c :: begun) s

/-- `str::lines`. -/
def lines (s : List Char) : List (List Char) := linesFrom [] s

example : lines "a\r\n\nb".toList = ["a".toList, [], "b".toList] := by decide

theorem linesFrom_append {l : List Char} (hnewline : '\n' ∉ l) (begun s : List Char) :
    linesFrom begun (l ++ '\n' :: s) = linesFrom (l.reverse ++ begun) ('\n' :: s) := by
  induction l generalizing begun with
  | nil => rfl
  | cons c l ih =>
    rw [List.mem_cons, not_or] at hnewline
    rw [List.cons_append, linesFrom, if_neg (Ne.symm hnewline.1), ih hnewline.2]
    simp

/-- A line without a newline and without a carriage return at its end is read first. -/
theorem lines_append_newline {l : List Char} (hnewline : '\n' ∉ l)
    (hreturn : l.getLast? ≠ some '\r') (s : List Char) : lines (l ++ '\n' :: s) = l :: lines s := by
  rw [lines, linesFrom_append hnewline, List.append_nil, linesFrom, if_pos rfl,
    List.head?_reverse, if_neg hreturn, List.reverse_reverse, lines]

/-! ### Searching -/

/-- `pattern` occurs in `s`. -/
def contains (s pattern : List Char) : Bool := decide (pattern <:+: s)

/-- What follows the last occurrence of the pattern. -/
def afterLast (pattern : List Char) : List Char → Option (List Char)
  | [] => if pattern.isEmpty then some [] else none
  | c :: s =>
    match afterLast pattern s with
    | some rest => some rest
    | none => if pattern <+: c :: s then some ((c :: s).drop pattern.length) else none

example : afterLast "/docker/".toList "/docker/a/docker/b".toList = some "b".toList := by decide

/-- The text has no last occurrence when it has none. -/
theorem afterLast_eq_none_iff {pattern s : List Char} :
    afterLast pattern s = none ↔ ¬ pattern <:+: s := by
  induction s with
  | nil => cases pattern <;> simp [afterLast]
  | cons c s ih =>
    rw [afterLast, List.infix_cons_iff]
    cases h : afterLast pattern s with
    | some rest =>
      have hin : pattern <:+: s := by
        by_contra hno
        rw [ih.mpr hno] at h
        cases h
      simp [hin]
    | none => simp [ih.mp h]

/-- What follows the last occurrence follows an occurrence, and no occurrence is
followed by less. -/
theorem append_of_afterLast {pattern s rest : List Char} (h : afterLast pattern s = some rest) :
    (pattern ++ rest) <:+ s ∧ ∀ rest', (pattern ++ rest') <:+ s → rest.length ≤ rest'.length := by
  induction s with
  | nil =>
    cases pattern with
    | nil =>
      obtain rfl : [] = rest := by simpa [afterLast] using h
      simp
    | cons p pattern => simp [afterLast] at h
  | cons c s ih =>
    rw [afterLast] at h
    split at h
    · next rest' hs =>
      obtain rfl := Option.some.inj h
      obtain ⟨hsuffix, hleast⟩ := ih hs
      refine ⟨hsuffix.trans (List.suffix_cons c s), fun rest'' hrest => ?_⟩
      rcases List.suffix_cons_iff.mp hrest with heq | hrest
      · -- an occurrence at the very start is followed by more than any other
        have hlength := hsuffix.length_le
        have hlength' := congrArg List.length heq
        simp only [List.length_append, List.length_cons] at hlength hlength'
        omega
      · exact hleast rest'' hrest
    · next hs =>
      split at h
      · next hprefix =>
        obtain rfl := Option.some.inj h
        obtain ⟨rest', hrest'⟩ := hprefix
        rw [← hrest', List.drop_left]
        refine ⟨List.suffix_rfl, fun rest'' hrest => ?_⟩
        rw [hrest'] at hrest
        rcases List.suffix_cons_iff.mp hrest with heq | hrest
        · rw [← hrest'] at heq
          rw [List.append_cancel_left heq]
        · exact absurd ((List.prefix_append _ _).isInfix.trans hrest.isInfix)
            (afterLast_eq_none_iff.mp hs)
      · cases h

/-- Nothing follows the last occurrence when the text ends with the pattern. -/
theorem afterLast_eq_nil_iff {pattern s : List Char} :
    afterLast pattern s = some [] ↔ pattern <:+ s := by
  constructor
  · intro h
    simpa using (append_of_afterLast h).1
  · intro h
    cases hs : afterLast pattern s with
    | none => exact absurd h.isInfix (afterLast_eq_none_iff.mp hs)
    | some rest =>
      have hle := (append_of_afterLast hs).2 [] (by simpa using h)
      rw [List.length_eq_zero_iff.mp (Nat.le_zero.mp hle)]

/-! ### Parts of a text -/

/-- The parts around the last `c`. -/
def splitLast (c : Char) : List Char → Option (List Char × List Char)
  | [] => none
  | d :: s =>
    match splitLast c s with
    | some (before, after) => some (d :: before, after)
    | none => if d = c then some ([], s) else none

theorem splitLast_eq_none {c : Char} {s : List Char} (h : c ∉ s) : splitLast c s = none := by
  induction s with
  | nil => rfl
  | cons d s ih =>
    rw [List.mem_cons, not_or] at h
    rw [splitLast, ih h.2]
    exact if_neg (Ne.symm h.1)

theorem splitLast_append {c : Char} {before after : List Char} (h : c ∉ after) :
    splitLast c (before ++ c :: after) = some (before, after) := by
  induction before with
  | nil => rw [List.nil_append, splitLast, splitLast_eq_none h, if_pos rfl]
  | cons d before ih => rw [List.cons_append, splitLast, ih]

theorem append_of_splitLast {c : Char} {s before after : List Char}
    (h : splitLast c s = some (before, after)) : s = before ++ c :: after := by
  induction s generalizing before with
  | nil => cases h
  | cons d s ih =>
    rw [splitLast] at h
    split at h
    · next hs =>
      obtain ⟨rfl, rfl⟩ : _ ∧ _ := by simpa using h
      rw [ih hs, List.cons_append]
    · split at h
      · next heq =>
        obtain ⟨rfl, rfl⟩ : _ ∧ _ := by simpa using h
        rw [heq, List.nil_append]
      · cases h

/-- A part of a text consists of characters of it, and not of the one it was split at. -/
theorem mem_of_mem_splitOn {c d : Char} {s part : List Char} (hpart : part ∈ s.splitOn c)
    (hd : d ∈ part) : d ∈ s ∧ d ≠ c := by
  induction s generalizing part with
  | nil =>
    obtain rfl : part = [] := by simpa using hpart
    cases hd
  | cons e s ih =>
    rw [List.splitOn_cons_eq_if_modifyHead] at hpart
    obtain ⟨first, others, hsplit⟩ := List.exists_cons_of_ne_nil (List.splitOn_ne_nil c s)
    rw [hsplit] at ih hpart
    have hin : part ∈ first :: others → d ∈ e :: s ∧ d ≠ c := by
      intro h
      obtain ⟨hs, hne⟩ := ih h hd
      exact ⟨List.mem_cons_of_mem e hs, hne⟩
    by_cases he : e = c
    · rw [if_pos (beq_iff_eq.mpr he)] at hpart
      rcases List.mem_cons.mp hpart with rfl | hpart
      · cases hd
      · exact hin hpart
    · -- the character joins the first part
      rw [if_neg (by simpa using he), List.modifyHead_cons] at hpart
      rcases List.mem_cons.mp hpart with rfl | hpart
      · rcases List.mem_cons.mp hd with rfl | hd
        · exact ⟨List.mem_cons_self, he⟩
        · obtain ⟨hs, hne⟩ := ih List.mem_cons_self hd
          exact ⟨List.mem_cons_of_mem e hs, hne⟩
      · exact hin (List.mem_cons_of_mem first hpart)

/-! ### Numbers -/

theorem isWhitespace_of_isDigit {c : Char} (h : c.isDigit = true) : isWhitespace c = false := by
  have hrange : 48 ≤ c.toNat ∧ c.toNat ≤ 57 := by
    simpa [Char.isDigit, UInt32.le_iff_toNat_le] using h
  simp only [isWhitespace, Bool.or_eq_false_iff, Bool.and_eq_false_iff, decide_eq_false_iff_not]
  omega

/-- Only digits are in a decimal number. -/
theorem not_mem_toDigits {c : Char} (hc : c.isDigit = false) (n : ℕ) : c ∉ Nat.toDigits 10 n := by
  intro hmem
  rw [Nat.isDigit_of_mem_toDigits (by decide) le_rfl hmem] at hc
  cases hc

/-- `str::parse::<i32>`: an optional sign, then decimal digits, within the range. -/
def parseI32 (s : List Char) : Option ℤ :=
  let (negative, digits) := match s with
    | '+' :: cs => (false, cs)
    | '-' :: cs => (true, cs)
    | cs => (false, cs)
  let n := Nat.ofDigitChars 10 digits 0
  let value : ℤ := if negative then -n else n
  if digits ≠ [] ∧ digits.all Char.isDigit ∧ -2147483648 ≤ value ∧ value ≤ 2147483647 then
    some value
  else none

example : parseI32 "-2147483648".toList = some (-2147483648) := by decide

end Text
