import PhpFastProfile.Sampler
import Mathlib.Data.List.Infix

/-!
# The leaf filter against the printed names

The outputs print a frame as `Class::method` or as the bare function.  The leaf
filter does not compare with the printed name: it splits a flag at its first
`::` and compares the parts.  The two agree on a frame unless a `::` comes
before the separator of its printed name, which is so for a closure that is
named after the method it was declared in.

## Main definitions

* `Frame.isSpelled` — the comparison of one frame with one flag.
* `Frame.SeparatedFirst` — the first `::` of the printed name is its separator.

## Main results

* `splitOnce_eq_some_iff`, `splitOnce_eq_none_iff` — what splitting at the first `::` returns.
* `leafIsAny_iff_printed` — when the filter drops what prints as one of the flags.
-/

namespace PhpFastProfile

/-! ### Splitting at the first separator -/

/-- The separator of the printed names. -/
def colons : List Char := [':', ':']

theorem colons_infix_cons_iff {c : Char} {s : List Char} :
    colons <:+: c :: s ↔ (c = ':' ∧ s.head? = some ':') ∨ colons <:+: s := by
  rw [List.infix_cons_iff]
  cases s with
  | nil => simp [colons]
  | cons d s =>
    have hhead : colons <+: c :: d :: s ↔ c = ':' ∧ d = ':' := by
      simp only [colons, List.cons_prefix_cons, List.nil_prefix, and_true, @eq_comm _ ':']
    rw [hhead, List.head?_cons, Option.some.injEq]

/-- A text without the separator is not split. -/
theorem splitOnce_eq_none_iff {s : List Char} : splitOnce s = none ↔ ¬ colons <:+: s := by
  induction s using splitOnce.induct with
  | case1 => simp [splitOnce, colons]
  | case2 rest => simp [splitOnce, colons_infix_cons_iff]
  | case3 c rest hne ih =>
    have hhere : ¬ (c = ':' ∧ rest.head? = some ':') := by
      intro ⟨hc, hrest⟩
      obtain ⟨tail, rfl⟩ := List.head?_eq_some_iff.mp hrest
      exact hne tail hc rfl
    rw [splitOnce, Option.map_eq_none_iff, ih, colons_infix_cons_iff]
    · simp [hhere]
    · exact hne

/-- A separator at the start is the first one, so that nothing comes before it. -/
theorem eq_nil_of_colons_start {rest a b : List Char}
    (heq : ':' :: ':' :: rest = a ++ colons ++ b) (hfirst : ¬ colons <:+: a ++ [':']) : a = [] := by
  match a with
  | [] => rfl
  | [c] =>
    obtain ⟨rfl, -⟩ : ':' = c ∧ _ := by simpa [colons] using heq
    exact absurd (List.infix_refl _) hfirst
  | c :: d :: a =>
    obtain ⟨rfl, rfl, -⟩ : ':' = c ∧ ':' = d ∧ _ := by simpa [colons] using heq
    exact absurd ⟨[], a ++ [':'], rfl⟩ hfirst

/-- **A text is split at its first separator.** -/
theorem splitOnce_eq_some_iff {s a b : List Char} :
    splitOnce s = some (a, b) ↔ s = a ++ colons ++ b ∧ ¬ colons <:+: a ++ [':'] := by
  induction s using splitOnce.induct generalizing a with
  | case1 => simp [splitOnce, colons]
  | case2 rest =>
    cases a with
    | nil =>
      have hsingle : ¬ [':', ':'] <:+: [':'] := by decide
      simp only [splitOnce, colons, List.nil_append, List.cons_append, List.cons.injEq, true_and,
        Option.some.injEq, Prod.mk.injEq, hsingle, not_false_eq_true, and_true]
    | cons c a =>
      have hlate : ¬ (':' :: ':' :: rest = c :: a ++ colons ++ b ∧
          ¬ colons <:+: c :: a ++ [':']) := by
        intro ⟨heq, hfirst⟩
        cases eq_nil_of_colons_start heq hfirst
      simpa [splitOnce] using hlate
  | case3 c rest hne ih =>
    rw [splitOnce, Option.map_eq_some_iff]
    · cases a with
      | nil =>
        have hstart : ¬ c :: rest = [] ++ colons ++ b := by
          intro heq
          obtain ⟨rfl, rfl⟩ : c = ':' ∧ rest = ':' :: b := by simpa [colons] using heq
          exact hne b rfl rfl
        constructor
        · intro ⟨x, _, heq⟩
          simp at heq
        · intro ⟨heq, _⟩
          exact absurd heq hstart
      | cons d a =>
        constructor
        · intro ⟨x, hx, heq⟩
          obtain ⟨x₁, x₂⟩ := x
          obtain ⟨⟨rfl, rfl⟩, rfl⟩ : (c = d ∧ x₁ = a) ∧ x₂ = b := by simpa using heq
          obtain ⟨rfl, hfirst⟩ := ih.mp hx
          refine ⟨rfl, ?_⟩
          rw [List.cons_append, colons_infix_cons_iff]
          intro hin
          rcases hin with ⟨hc, hhead⟩ | hin
          · cases x₁ with
            | nil => exact hne (':' :: x₂) hc rfl
            | cons e x₁ =>
              obtain rfl : e = ':' := by simpa using hhead
              exact hne (x₁ ++ colons ++ x₂) hc rfl
          · exact hfirst hin
        · intro ⟨heq, hfirst⟩
          obtain ⟨rfl, rfl⟩ : c = d ∧ rest = a ++ colons ++ b := by simpa using heq
          have hrest : ¬ colons <:+: a ++ [':'] := fun hin =>
            hfirst (hin.trans (List.suffix_cons _ _).isInfix)
          exact ⟨(a, b), ih.mpr ⟨rfl, hrest⟩, rfl⟩
    · exact hne

/-! ### One frame and one flag -/

/-- The comparison `leaf_is_any` makes of the leaf with one of `names`. -/
def Frame.isSpelled (leaf : Frame) (name : String) : Bool :=
  match leaf.className, splitOnce name.toList with
  | some c, some (c', f) => c.toList == c' && leaf.function.toList == f
  | none, none => leaf.function == name
  | _, _ => false

/-- The first `::` of the printed name is its separator: the one between class
and method, or none. -/
def Frame.SeparatedFirst (f : Frame) : Prop :=
  match f.className with
  | some c => ¬ colons <:+: c.toList ++ [':']
  | none => ¬ colons <:+: f.function.toList

/-- A flag spells a frame when it is the printed name, and splits where this was joined. -/
theorem Frame.isSpelled_iff {leaf : Frame} {name : String} :
    leaf.isSpelled name = true ↔ name = leaf.name ∧ leaf.SeparatedFirst := by
  cases hclass : leaf.className with
  | none =>
    simp only [isSpelled, SeparatedFirst, Frame.name, hclass]
    cases hsplit : splitOnce name.toList with
    | none =>
      have hfree := splitOnce_eq_none_iff.mp hsplit
      simp only [beq_iff_eq]
      constructor
      · rintro rfl
        exact ⟨rfl, hfree⟩
      · intro h
        exact h.1.symm
    | some x =>
      have hfree : ¬ ¬ colons <:+: name.toList := by
        rw [← splitOnce_eq_none_iff, hsplit]
        simp
      simp only [Bool.false_eq_true, false_iff, not_and]
      rintro rfl
      exact hfree
  | some c =>
    have hname : name = c ++ "::" ++ leaf.function ↔
        name.toList = c.toList ++ colons ++ leaf.function.toList := by
      rw [← String.toList_inj, String.toList_append, String.toList_append]
      rfl
    simp only [isSpelled, SeparatedFirst, Frame.name, hclass]
    rw [hname, ← splitOnce_eq_some_iff]
    cases splitOnce name.toList with
    | none => simp
    | some x =>
      obtain ⟨x₁, x₂⟩ := x
      simp only [Bool.and_eq_true, beq_iff_eq, Option.some.injEq, Prod.mk.injEq,
        @eq_comm _ x₁, @eq_comm _ x₂]

/-! ### The filter -/

theorem leafIsAny_cons (leaf : Frame) (frames : List Frame) (names : List String) :
    leafIsAny (leaf :: frames) names = names.any leaf.isSpelled := rfl

theorem leafIsAny_cons_iff {leaf : Frame} {frames : List Frame} {names : List String} :
    leafIsAny (leaf :: frames) names = true ↔ leaf.name ∈ names ∧ leaf.SeparatedFirst := by
  rw [leafIsAny_cons, List.any_eq_true]
  constructor
  · intro ⟨name, hmem, hspelled⟩
    obtain ⟨rfl, hfirst⟩ := Frame.isSpelled_iff.mp hspelled
    exact ⟨hmem, hfirst⟩
  · intro ⟨hmem, hfirst⟩
    exact ⟨leaf.name, hmem, Frame.isSpelled_iff.mpr ⟨rfl, hfirst⟩⟩

/-- The filter drops exactly the stacks whose innermost frame prints as one of `names`. -/
def DropsPrinted (frames : List Frame) (names : List String) : Prop :=
  leafIsAny frames names = true ↔ ∃ leaf, frames.head? = some leaf ∧ leaf.name ∈ names

/-- **The filter drops what prints as one of the flags** exactly if no leaf that
does has an earlier `::` in its printed name. -/
theorem leafIsAny_iff_printed (frames : List Frame) (names : List String) :
    DropsPrinted frames names ↔
      ∀ leaf, frames.head? = some leaf → leaf.name ∈ names → leaf.SeparatedFirst := by
  cases frames with
  | nil => simp [DropsPrinted, leafIsAny]
  | cons leaf frames =>
    rw [DropsPrinted, leafIsAny_cons_iff]
    simp

/-- A closure outside any class carries the method it was declared in, so that
its printed name is split: the flag that repeats it does not drop it. -/
theorem leafIsAny_closure :
    ¬ DropsPrinted [⟨"\x7bclosure:Foo::bar():12\x7d", none, some "/srv/app.php", 12⟩]
      ["\x7bclosure:Foo::bar():12\x7d"] := by
  intro h
  have hkept : ¬ leafIsAny [⟨"\x7bclosure:Foo::bar():12\x7d", none, some "/srv/app.php", 12⟩]
      ["\x7bclosure:Foo::bar():12\x7d"] = true := by decide
  exact hkept (h.mpr ⟨_, rfl, List.mem_cons_self⟩)

end PhpFastProfile
