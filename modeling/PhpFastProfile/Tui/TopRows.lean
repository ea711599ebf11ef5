import PhpFastProfile.Lib.TopBy
import PhpFastProfile.Tui
import Mathlib.Data.List.Induction

/-!
# The rows on the screen

The live table is recorded into and reset in any order; what it holds at any time are
the counts of the stacks since the last reset (`Tabulates`).  `topRows` takes the rows
out of the map in whatever order the map yields, sorts them by one of the counts alone
and cuts the list off.  Rows with equal counts therefore come in the order of the map.

## Main definitions

* `Aggregator.topRows` — the rows that are shown.
* `Aggregator.Op`, `run` — a history of `record` and `reset` calls.
* `Aggregator.sinceReset` — the stacks recorded since the last reset.
* `Aggregator.Tabulates` — the table of these stacks.
* `Aggregator.Stable` — what is shown depends only on what was recorded.

## Main results

* `Aggregator.tabulates_run` — **after every history, the table is that of the stacks.**
* `Aggregator.stable_iff` — when the table is stable.
-/

namespace PhpFastProfile

/-- The count the rows are sorted by. -/
def RowCounts.sortKey (byInclusive : Bool) (c : RowCounts) : ℕ :=
  if byInclusive then c.inclusive else c.exclusive

namespace Aggregator

/-- A row: a name with its counts. -/
abbrev RowEntry := Sigma fun _ : String => RowCounts

/-- `top_rows`: the highest rows, by inclusive or exclusive count. -/
def topRows (order : AList.IterOrder RowEntry) (a : Aggregator) (byInclusive : Bool)
    (limit : ℕ) : List RowEntry :=
  (TopBy.sortDesc (fun row => row.2.sortKey byInclusive) (order.run a.rows.entries)).take limit

/-! ### Histories -/

/-- A call, with the reading of the clock. -/
inductive Op
  | record (now : Instant) (frames : List Frame)
  | reset (now : Instant)

/-- The table after a call. -/
def step (a : Aggregator) : Op → Aggregator
  | .record now frames => a.record now frames
  | .reset now => a.reset now

/-- The table after a sequence of calls. -/
def run (ops : List Op) : Aggregator := ops.foldl step new

/-- The stacks since the last reset, after one more call. -/
def keep (sts : List (List Frame)) : Op → List (List Frame)
  | .record _ frames => if frames.isEmpty then sts else sts ++ [frames]
  | .reset _ => []

/-- The stacks with frames that were recorded since the last reset. -/
def sinceReset (ops : List Op) : List (List Frame) := ops.foldl keep []

/-- The rendered names of a stack, leaf first. -/
def renderedNames (frames : List Frame) : List String := frames.map qualifiedName

/-! ### What the table holds -/

/-- The table of the stacks `sts`. -/
structure Tabulates (a : Aggregator) (sts : List (List Frame)) : Prop where
  samples_eq : a.samples = sts.length
  /-- A row exists exactly for the names that occur, with the number of stacks that
  the name is the leaf of and the number of those it occurs in. -/
  rows_eq : RowsCount a.rows (sts.map renderedNames)
  bounds : ∀ f c, a.rows.lookup f = some c → c.exclusive ≤ c.inclusive ∧ c.inclusive ≤ a.samples
  sum_exclusive : (a.rows.entries.map fun row => row.2.exclusive).sum = a.samples
  topRows_isTop : ∀ order byInclusive limit,
    TopBy.IsTop (fun row : RowEntry => row.2.sortKey byInclusive) limit a.rows.entries
      (a.topRows order byInclusive limit)

/-- What one call keeps: the samples and the rows count the stacks. -/
theorem counts_step {a : Aggregator} {sts : List (List Frame)} (op : Op)
    (hsamples : a.samples = sts.length) (hrows : RowsCount a.rows (sts.map renderedNames)) :
    (a.step op).samples = (keep sts op).length ∧
      RowsCount (a.step op).rows ((keep sts op).map renderedNames) := by
  cases op with
  | reset now => exact ⟨rfl, rowsCount_empty⟩
  | record now frames =>
    rw [step, keep]
    cases frames with
    | nil =>
      -- only the clock is read
      have hsame : (a.record now []).samples = a.samples ∧ (a.record now []).rows = a.rows := by
        cases hs : a.started <;> simp [record, hs]
      rw [hsame.1, hsame.2]
      exact ⟨hsamples, hrows⟩
    | cons leaf fs =>
      constructor
      · rw [samples_record a now (List.cons_ne_nil leaf fs), hsamples]
        simp
      · have hrec := rowsCount_record hrows now (leaf :: fs)
        simpa [renderedNames] using hrec

theorem counts_run (ops : List Op) : (run ops).samples = (sinceReset ops).length ∧
    RowsCount (run ops).rows ((sinceReset ops).map renderedNames) := by
  induction ops using List.reverseRecOn with
  | nil => exact ⟨rfl, rowsCount_empty⟩
  | append_singleton ops op ih =>
    have hrun : run (ops ++ [op]) = (run ops).step op := by simp [run]
    have hkeep : sinceReset (ops ++ [op]) = keep (sinceReset ops) op := by simp [sinceReset]
    rw [hrun, hkeep]
    exact counts_step op ih.1 ih.2

/-- No stack without frames is kept. -/
theorem ne_nil_of_mem_sinceReset (ops : List Op) : ∀ frames ∈ sinceReset ops, frames ≠ [] := by
  induction ops using List.reverseRecOn with
  | nil => simp [sinceReset]
  | append_singleton ops op ih =>
    have hkeep : sinceReset (ops ++ [op]) = keep (sinceReset ops) op := by simp [sinceReset]
    rw [hkeep]
    cases op with
    | reset now => simp [keep]
    | record now frames =>
      rw [keep]
      split
      · exact ih
      · next hne =>
        intro st hst
        rcases List.mem_append.mp hst with hst | hst
        · exact ih st hst
        · obtain rfl := List.mem_singleton.mp hst
          simpa using hne

/-- A name is the leaf of a stack only if it occurs in it. -/
theorem RowsCount.bounds {rows : AList fun _ : String => RowCounts} {sts : List (List String)}
    (h : RowsCount rows sts) {f : String} {c : RowCounts} (hf : rows.lookup f = some c) :
    c.exclusive ≤ c.inclusive ∧ c.inclusive ≤ sts.length := by
  have hc := h.getD f
  rw [hf, Option.getD_some] at hc
  rw [hc]
  refine ⟨List.countP_mono_left fun st _ hhead => ?_, List.countP_le_length⟩
  simp only [decide_eq_true_eq] at hhead ⊢
  exact List.mem_of_head? hhead

/-- The rows' exclusive counts, spread out, are the leaves of the stacks. -/
theorem RowsCount.expand_exclusive {rows : AList fun _ : String => RowCounts}
    {sts : List (List String)} (h : RowsCount rows sts) :
    (AList.expand RowCounts.exclusive rows.entries).Perm (sts.filterMap List.head?) := by
  rw [List.perm_iff_count]
  intro f
  have hleaves : (sts.filterMap List.head?).count f = sts.countP fun st => st.head? = some f := by
    rw [List.count, List.countP_filterMap]
    refine List.countP_congr fun st _ => ?_
    cases st <;> simp
  have hrow : ((rows.lookup f).map RowCounts.exclusive).getD 0 =
      ((rows.lookup f).getD ⟨0, 0⟩).exclusive := by
    cases rows.lookup f <;> rfl
  rw [AList.count_expand, hrow, h.getD f, hleaves]

/-- Every stack with frames is counted in the row of its leaf. -/
theorem RowsCount.sum_exclusive {rows : AList fun _ : String => RowCounts}
    {sts : List (List String)} (h : RowsCount rows sts) (hne : ∀ st ∈ sts, st ≠ []) :
    (rows.entries.map fun row => row.2.exclusive).sum = sts.length := by
  have hleaves : (sts.filterMap List.head?).length = sts.length := by
    rw [List.length_filterMap_eq_countP, List.countP_eq_length]
    intro st hst
    cases st with
    | nil => exact absurd rfl (hne [] hst)
    | cons leaf st => rfl
  rw [← AList.length_expand, h.expand_exclusive.length_eq, hleaves]

/-- **After every history of calls, the table is that of the stacks with frames
recorded since the last reset.** -/
theorem tabulates_run (ops : List Op) : Tabulates (run ops) (sinceReset ops) := by
  obtain ⟨hsamples, hrows⟩ := counts_run ops
  have hne : ∀ st ∈ (sinceReset ops).map renderedNames, st ≠ [] := by
    intro st hst
    obtain ⟨frames, hframes, rfl⟩ := List.mem_map.mp hst
    simpa [renderedNames] using ne_nil_of_mem_sinceReset ops frames hframes
  exact
    { samples_eq := hsamples
      rows_eq := hrows
      bounds := fun f c hf => by simpa [hsamples] using hrows.bounds hf
      sum_exclusive := by simpa [hsamples] using hrows.sum_exclusive hne
      topRows_isTop := fun order byInclusive limit =>
        TopBy.isTop_take_sortDesc _ (order.perm _) limit }

/-! ### What is shown -/

/-- What `topRows` shows after the recording of `xs` depends only on the stacks of `xs`,
up to order, and not on how a map iterates. -/
def Stable (byInclusive : Bool) (xs : List (Instant × List Frame)) : Prop :=
  ∀ xs' : List (Instant × List Frame), (xs'.map Prod.snd).Perm (xs.map Prod.snd) →
    ∀ order order' limit,
    (run (xs.map fun x => .record x.1 x.2)).topRows order byInclusive limit =
      (run (xs'.map fun x => .record x.1 x.2)).topRows order' byInclusive limit

/-- The number of stacks a name occurs in, or is the leaf of. -/
def stackCount (byInclusive : Bool) (sts : List (List String)) (f : String) : ℕ :=
  if byInclusive then sts.countP fun st => f ∈ st else sts.countP fun st => st.head? = some f

/-- No two names that occur in the stacks have equal counts. -/
def NoTies (byInclusive : Bool) (sts : List (List String)) : Prop :=
  ∀ f g, (∃ st ∈ sts, f ∈ st) → (∃ st ∈ sts, g ∈ st) →
    stackCount byInclusive sts f = stackCount byInclusive sts g → f = g

theorem nodup_rows (rows : AList fun _ : String => RowCounts) : rows.entries.Nodup :=
  rows.nodupKeys.nodup

/-- Recording stacks, also those without frames, counts their names. -/
theorem rowsCount_records (xs : List (Instant × List Frame)) :
    RowsCount (run (xs.map fun x => .record x.1 x.2)).rows
      (xs.map fun x => renderedNames x.2) := by
  induction xs using List.reverseRecOn with
  | nil => exact rowsCount_empty
  | append_singleton xs x ih =>
    rw [run, List.map_append, List.foldl_append, List.map_append]
    exact rowsCount_record ih x.1 x.2

/-- The rows that count permuted stacks are the same, in some order. -/
theorem RowsCount.entries_perm {rows rows' : AList fun _ : String => RowCounts}
    {sts sts' : List (List String)} (h : RowsCount rows sts) (h' : RowsCount rows' sts')
    (hperm : sts'.Perm sts) : rows'.entries.Perm rows.entries := by
  apply AList.entries_perm_of_lookup_eq
  intro f
  rw [h f, h' f, hperm.countP_eq, hperm.countP_eq]
  simp only [hperm.mem_iff]

/-- A row holds the counts of its name. -/
theorem RowsCount.sortKey_eq {rows : AList fun _ : String => RowCounts}
    {sts : List (List String)} (h : RowsCount rows sts) {row : RowEntry}
    (hrow : row ∈ rows.entries) (byInclusive : Bool) :
    (∃ st ∈ sts, row.1 ∈ st) ∧ row.2.sortKey byInclusive = stackCount byInclusive sts row.1 := by
  have hlookup : rows.lookup row.1 = some row.2 := AList.mem_lookup_iff.mpr hrow
  rw [h row.1] at hlookup
  split at hlookup
  · next hin =>
    refine ⟨hin, ?_⟩
    rw [← Option.some.inj hlookup]
    rfl
  · cases hlookup

/-- The rows have distinct keys when no two names tie. -/
theorem RowsCount.distinct_iff_noTies {rows : AList fun _ : String => RowCounts}
    {sts : List (List String)} (h : RowsCount rows sts) (byInclusive : Bool) :
    (∀ a ∈ rows.entries, ∀ b ∈ rows.entries,
      a.2.sortKey byInclusive = b.2.sortKey byInclusive → a = b) ↔ NoTies byInclusive sts := by
  have hentry : ∀ f, (∃ st ∈ sts, f ∈ st) → ∃ c, (⟨f, c⟩ : RowEntry) ∈ rows.entries := by
    intro f hf
    have hlookup := h f
    rw [if_pos hf] at hlookup
    exact ⟨_, AList.mem_lookup_iff.mp hlookup⟩
  constructor
  · intro hdistinct f g hf hg htie
    obtain ⟨c, hc⟩ := hentry f hf
    obtain ⟨d, hd⟩ := hentry g hg
    have hkeys : c.sortKey byInclusive = d.sortKey byInclusive := by
      rw [(h.sortKey_eq hc byInclusive).2, (h.sortKey_eq hd byInclusive).2, htie]
    exact congrArg Sigma.fst (hdistinct _ hc _ hd hkeys)
  · intro hties a ha b hb hkeys
    obtain ⟨hina, hkeya⟩ := h.sortKey_eq ha byInclusive
    obtain ⟨hinb, hkeyb⟩ := h.sortKey_eq hb byInclusive
    have hname : a.1 = b.1 := hties _ _ hina hinb (by rw [← hkeya, ← hkeyb, hkeys])
    exact rows.nodupKeys.eq_of_fst_eq ha hb hname

theorem stable_of_noTies {byInclusive : Bool} {xs : List (Instant × List Frame)}
    (h : NoTies byInclusive (xs.map fun x => renderedNames x.2)) : Stable byInclusive xs := by
  have hrows := rowsCount_records xs
  rw [← hrows.distinct_iff_noTies byInclusive, ← TopBy.take_sortDesc_eq_iff _ (nodup_rows _)] at h
  intro xs' hperm order order' limit
  have hperm' : (xs'.map fun x => renderedNames x.2).Perm (xs.map fun x => renderedNames x.2) := by
    simpa [Function.comp_def] using hperm.map renderedNames
  exact h _ _ (order.perm _)
    ((order'.perm _).trans (hrows.entries_perm (rowsCount_records xs') hperm')) limit

/-- Rows that tie come out in either order, already for one sequence of stacks. -/
theorem noTies_of_stable {byInclusive : Bool} {xs : List (Instant × List Frame)}
    (h : Stable byInclusive xs) : NoTies byInclusive (xs.map fun x => renderedNames x.2) := by
  rw [← (rowsCount_records xs).distinct_iff_noTies byInclusive,
    ← TopBy.take_sortDesc_eq_iff _ (nodup_rows _)]
  intro l₁ l₂ h₁ h₂ limit
  obtain ⟨order, rfl⟩ := AList.IterOrder.exists_run_eq h₁
  obtain ⟨order', rfl⟩ := AList.IterOrder.exists_run_eq h₂
  exact h xs (List.Perm.refl _) order order' limit

/-- **The live table is stable exactly if no two names have equal counts.** -/
theorem stable_iff (byInclusive : Bool) (xs : List (Instant × List Frame)) :
    Stable byInclusive xs ↔ NoTies byInclusive (xs.map fun x => renderedNames x.2) :=
  ⟨noTies_of_stable, stable_of_noTies⟩

/-- The functions on a common call path occur in the same stacks. -/
theorem not_stable_path :
    ¬ Stable true [(0, [⟨"query", some "Db", none, 3⟩, ⟨"main", none, none, 9⟩])] := by
  intro h
  have hsame : "Db::query" = "main" :=
    noTies_of_stable h "Db::query" "main" ⟨_, List.mem_singleton_self _, by decide⟩
      ⟨_, List.mem_singleton_self _, by decide⟩ (by decide)
  exact absurd hsame (by decide)

end Aggregator
end PhpFastProfile
