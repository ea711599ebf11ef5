import PhpFastProfile.Frame
import PhpFastProfile.Lib.Tally
import Mathlib.Data.List.Count

/-!
# The live table

`Aggregator` keeps, for every function name, the number of stacks it was the
leaf of (exclusive) and the number of stacks it occurred in (inclusive, once per
stack however often it recurs).

The counters are unbounded here, where the source has `u64`: no run records `2 ^ 64` stacks.

## Main definitions

* `Aggregator.record` — fold one stack into the table.
* `RowsCount rows sts` — the rows count the name lists `sts`.

## Main results

* `lookup_record` — what recording a stack does to each row.
* `rowsCount_record` — the rows keep counting what was recorded.
-/

namespace PhpFastProfile

/-- The counters of one row, `tui::Counts`. -/
structure RowCounts where
  exclusive : ℕ
  inclusive : ℕ
  deriving DecidableEq, Repr, Inhabited

/-- A reading of the monotonic clock, in nanoseconds. -/
abbrev Instant := ℕ

/-- `Aggregator`: the rows by function name. -/
structure Aggregator where
  rows : AList fun _ : String => RowCounts
  samples : ℕ
  started : Option Instant

/-- `qualified_name`. -/
def qualifiedName (f : Frame) : String := f.name

namespace Aggregator

/-- `Aggregator::new`. -/
def new : Aggregator := { rows := ∅, samples := 0, started := none }

/-- The inclusive loop of `record`: every distinct function picks up one. -/
def recordInclusive (seen : AList fun _ : String => Unit)
    (rows : AList fun _ : String => RowCounts) : List Frame → AList fun _ : String => RowCounts
  | [] => rows
  | f :: fs =>
    let k := qualifiedName f
    if (seen.lookup k).isNone then
      recordInclusive (seen.insert k ())
        (rows.upsert k ⟨0, 0⟩ fun c => { c with inclusive := c.inclusive + 1 }) fs
    else
      recordInclusive (seen.insert k ()) rows fs

/-- `record`, with the reading of the clock. -/
def record (a : Aggregator) (now : Instant) (frames : List Frame) : Aggregator :=
  let a := if a.started.isNone then { a with started := some now } else a
  match frames with
  | [] => a
  | leaf :: _ =>
    let rows := a.rows.upsert (qualifiedName leaf) ⟨0, 0⟩ fun c =>
      { c with exclusive := c.exclusive + 1 }
    { a with samples := a.samples + 1, rows := recordInclusive ∅ rows frames }

/-- `reset`, with the reading of the clock. -/
def reset (_a : Aggregator) (now : Instant) : Aggregator :=
  { rows := ∅, samples := 0, started := some now }

/-! ### One stack -/

/-- The inclusive loop adds one to every name of the stack not seen before. -/
theorem lookup_recordInclusive (f : String) : ∀ (frames : List Frame)
    (seen : AList fun _ : String => Unit) (rows : AList fun _ : String => RowCounts),
    (recordInclusive seen rows frames).lookup f
      = if f ∈ frames.map qualifiedName ∧ seen.lookup f = none then
          some { (rows.lookup f).getD ⟨0, 0⟩ with
            inclusive := ((rows.lookup f).getD ⟨0, 0⟩).inclusive + 1 }
        else rows.lookup f := by
  intro frames
  induction frames with
  | nil => intro seen rows; simp [recordInclusive]
  | cons g gs ih =>
    intro seen rows
    rw [recordInclusive]
    by_cases hg : f = qualifiedName g
    · subst hg
      split
      · next hs =>
        have hnone : seen.lookup (qualifiedName g) = none := by simpa using hs
        rw [ih, AList.lookup_insert, AList.lookup_upsert]
        simp [hnone]
      · next hs =>
        have hsome : seen.lookup (qualifiedName g) ≠ none := by simpa using hs
        rw [ih, AList.lookup_insert]
        simp [hsome]
    · have hmem : (f ∈ (g :: gs).map qualifiedName) ↔ f ∈ gs.map qualifiedName := by
        rw [List.map_cons, List.mem_cons]
        exact or_iff_right hg
      simp only [hmem]
      split
      · rw [ih, AList.lookup_insert_ne hg, AList.lookup_upsert, if_neg hg]
      · rw [ih, AList.lookup_insert_ne hg]

theorem samples_record (a : Aggregator) (now : Instant) {frames : List Frame}
    (h : frames ≠ []) : (a.record now frames).samples = a.samples + 1 := by
  cases frames with
  | nil => exact absurd rfl h
  | cons leaf fs => cases hs : a.started <;> simp [record, hs]

/-- **What recording a stack does to each row**: a name of the stack gains one
inclusive count, and one exclusive count when it is the leaf. -/
theorem lookup_record (a : Aggregator) (now : Instant) (frames : List Frame) (f : String) :
    (a.record now frames).rows.lookup f
      = if f ∈ frames.map qualifiedName then
          some ⟨((a.rows.lookup f).getD ⟨0, 0⟩).exclusive
              + (if (frames.map qualifiedName).head? = some f then 1 else 0),
            ((a.rows.lookup f).getD ⟨0, 0⟩).inclusive + 1⟩
        else a.rows.lookup f := by
  cases frames with
  | nil => cases hs : a.started <;> simp [record, hs]
  | cons leaf fs =>
    have hrows : (a.record now (leaf :: fs)).rows = recordInclusive ∅
        (a.rows.upsert (qualifiedName leaf) ⟨0, 0⟩ fun c =>
          { c with exclusive := c.exclusive + 1 }) (leaf :: fs) := by
      cases hs : a.started <;> simp [record, hs]
    rw [hrows, lookup_recordInclusive, AList.lookup_upsert]
    by_cases hf : f = qualifiedName leaf
    · subst hf
      simp
    · have hf' : qualifiedName leaf ≠ f := Ne.symm hf
      simp [hf, hf']

/-! ### Any number of stacks -/

/-- The rows count the name lists `sts`: a row exists exactly for the names that
occur, with the number of lists it heads and the number of lists it occurs in. -/
def RowsCount (rows : AList fun _ : String => RowCounts) (sts : List (List String)) : Prop :=
  ∀ f, rows.lookup f = if ∃ st ∈ sts, f ∈ st then
    some ⟨sts.countP fun st => st.head? = some f, sts.countP fun st => f ∈ st⟩ else none

theorem rowsCount_empty : RowsCount ∅ [] := by
  intro f
  simp

/-- Rows that count some lists count every permutation of them. -/
theorem RowsCount.perm {rows : AList fun _ : String => RowCounts} {sts sts' : List (List String)}
    (h : RowsCount rows sts) (hperm : sts.Perm sts') : RowsCount rows sts' := by
  intro f
  rw [h f, hperm.countP_eq, hperm.countP_eq]
  simp only [hperm.mem_iff]

/-- A row read with default zero holds the two counts. -/
theorem RowsCount.getD {rows : AList fun _ : String => RowCounts} {sts : List (List String)}
    (h : RowsCount rows sts) (f : String) : (rows.lookup f).getD ⟨0, 0⟩
      = ⟨sts.countP fun st => st.head? = some f, sts.countP fun st => f ∈ st⟩ := by
  rw [h f]
  split
  · rfl
  · next hn =>
    have hin : sts.countP (fun st => decide (f ∈ st)) = 0 := by
      rw [List.countP_eq_zero]
      intro st hst hf
      exact hn ⟨st, hst, by simpa using hf⟩
    have hex : sts.countP (fun st => decide (st.head? = some f)) = 0 := by
      rw [List.countP_eq_zero]
      intro st hst hf
      exact hn ⟨st, hst, List.mem_of_head? (by simpa using hf)⟩
    rw [hin, hex]
    rfl

/-- Recording a stack counts its names. -/
theorem rowsCount_record {a : Aggregator} {sts : List (List String)} (h : RowsCount a.rows sts)
    (now : Instant) (frames : List Frame) :
    RowsCount (a.record now frames).rows (sts ++ [frames.map qualifiedName]) := by
  intro f
  rw [lookup_record, h.getD f, List.countP_append, List.countP_append]
  by_cases hf : f ∈ frames.map qualifiedName
  · have hex : ∃ st ∈ sts ++ [frames.map qualifiedName], f ∈ st :=
      ⟨frames.map qualifiedName, by simp, hf⟩
    simp only [List.countP_singleton, decide_eq_true_eq, hf, hex, if_true]
  · have hhead : ¬ (frames.map qualifiedName).head? = some f := fun he =>
      hf (List.mem_of_head? he)
    have hiff : (∃ st ∈ sts ++ [frames.map qualifiedName], f ∈ st) ↔ ∃ st ∈ sts, f ∈ st := by
      simp only [List.mem_append, List.mem_singleton]
      constructor
      · rintro ⟨st, hst | rfl, hin⟩
        · exact ⟨st, hst, hin⟩
        · exact absurd hin hf
      · rintro ⟨st, hst, hin⟩
        exact ⟨st, Or.inl hst, hin⟩
    rw [if_neg hf, h f]
    simp only [hiff, List.countP_singleton, decide_eq_true_eq, hf, hhead, if_false, Nat.add_zero]

end Aggregator
end PhpFastProfile
