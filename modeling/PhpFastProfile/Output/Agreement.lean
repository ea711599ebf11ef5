import PhpFastProfile.Output.PprofExport
import PhpFastProfile.Output.Sinks
import PhpFastProfile.Tui
import Mathlib.Algebra.BigOperators.Ring.Finset

/-!
# The three aggregating outputs agree

`PprofSink`, `FoldedSink` and the live table's `Aggregator` fold the same
samples into an interned profile, a map of joined stacks and a table of names.
Each of them is shown to count the list of recorded name lists (`folded_counts`,
`rowsCount_recordAll`, `total_eq_countP`), and two outputs that count one list
agree wherever they answer the same question.

## Main definitions

* `Recorded` — a sample a sampler passes on.
* `Profile.total q` — the values of the samples whose names satisfy `q`, summed.

## Main results

* `total_eq_countP` — a message's totals count the accounted stacks.
* `outputs_agree` — the three outputs give the same numbers.
-/

namespace PhpFastProfile

/-- A sample the samplers pass on, with the reading of the clock the live table
would take: they drop samples without frames. -/
structure Recorded where
  now : Instant
  frames : List Frame
  info : SampleMeta
  nonempty : frames ≠ []

namespace Recorded

/-- The names of the stack, leaf first. -/
def names (x : Recorded) : List String := x.frames.map Frame.name

end Recorded

/-! ### What each output has recorded -/

/-- The samples go to the pprof sink, one after the other. -/
def PprofSink.recordAll (sink : PprofSink) (xs : List Recorded) : PprofSink :=
  xs.foldl (fun sink x => sink.writeSample x.frames x.info) sink

/-- The samples go to the folded sink. -/
def FoldedSink.recordAll (sink : FoldedSink) (xs : List Recorded) : FoldedSink :=
  xs.foldl (fun sink x => sink.writeSample x.frames x.info) sink

/-- The samples go to the live table. -/
def Aggregator.recordAll (a : Aggregator) (xs : List Recorded) : Aggregator :=
  xs.foldl (fun a x => a.record x.now x.frames) a

/-- The joined key of a list of names, leaf first. -/
def joinNames (names : List String) : String := ";".intercalate names.reverse

theorem foldedKey_eq (frames : List Frame) :
    FoldedSink.foldedKey frames = joinNames (frames.map Frame.name) := by
  rw [FoldedSink.foldedKey, joinNames, List.map_reverse]

theorem FoldedSink.recordAll_concat (sink : FoldedSink) (xs : List Recorded) (x : Recorded) :
    sink.recordAll (xs ++ [x]) = (sink.recordAll xs).writeSample x.frames x.info := by
  simp [recordAll]

theorem Aggregator.recordAll_concat (a : Aggregator) (xs : List Recorded) (x : Recorded) :
    a.recordAll (xs ++ [x]) = (a.recordAll xs).record x.now x.frames := by
  simp [recordAll]

/-- The folded counts count the joined keys. -/
theorem FoldedSink.folded_counts (xs : List Recorded) :
    AList.Counts (FoldedSink.new.recordAll xs).counts (xs.map fun x => joinNames x.names) := by
  induction xs using List.reverseRecOn with
  | nil => exact AList.counts_empty
  | append_singleton xs x ih =>
    have hne : x.frames.isEmpty = false := by simpa using x.nonempty
    have hkey : FoldedSink.foldedKey x.frames = joinNames x.names := foldedKey_eq x.frames
    rw [recordAll_concat, List.map_append, writeSample, hne]
    change AList.Counts ((FoldedSink.new.recordAll xs).counts.bump (foldedKey x.frames)) _
    rw [hkey]
    exact ih.bump _

/-- The rows count the name lists. -/
theorem Aggregator.rowsCount_recordAll (xs : List Recorded) :
    RowsCount (Aggregator.new.recordAll xs).rows (xs.map Recorded.names) := by
  induction xs using List.reverseRecOn with
  | nil => exact rowsCount_empty
  | append_singleton xs x ih =>
    rw [recordAll_concat, List.map_append]
    exact rowsCount_record ih x.now x.frames

theorem Aggregator.samples_recordAll (xs : List Recorded) :
    (Aggregator.new.recordAll xs).samples = xs.length := by
  induction xs using List.reverseRecOn with
  | nil => rfl
  | append_singleton xs x ih =>
    rw [recordAll_concat, samples_record _ _ x.nonempty, ih, List.length_append]
    rfl

/-- The builder of the pprof sink accounts for the recorded stacks. -/
theorem PprofSink.accounted_recordAll (start : ℤ) (xs : List Recorded) :
    ((PprofSink.new start).recordAll xs).builder.Tables ∧
      ((PprofSink.new start).recordAll xs).builder.Accounted
        (xs.map fun x => x.frames.map Frame.key) := by
  induction xs using List.reverseRecOn with
  | nil => exact ⟨PprofBuilder.tables_new start, PprofBuilder.accounted_new start⟩
  | append_singleton xs x ih =>
    have hcons : (PprofSink.new start).recordAll (xs ++ [x])
        = ((PprofSink.new start).recordAll xs).writeSample x.frames x.info := by
      simp [recordAll]
    rw [hcons, List.map_append]
    exact ⟨PprofBuilder.tables_step ih.1 (.add x.frames),
      PprofBuilder.accounted_add ih.1 ih.2 x.frames⟩

/-! ### Totals of a message -/

/-- The names of the stack a sample stands for, leaf first. -/
def Profile.sampleNames (p : Profile) (s : Sample) : Option (List String) :=
  (p.resolveSample s).map fun st => st.map Prod.fst

/-- The sum of `value[0]` over the samples whose names satisfy `q`. -/
def Profile.total (p : Profile) (q : List String → Bool) : ℤ :=
  ((p.sample.filter fun s => (p.sampleNames s).any q).map fun s => s.value.headD 0).sum

/-- The names a stack of keys has are those of its frames. -/
theorem map_fst_key (frames : List Frame) :
    (frames.map Frame.key).map Prod.fst = frames.map Frame.name := by
  rw [List.map_map]
  rfl

/-- A positive value is the weight it has. -/
theorem Sample.headD_value {s : Sample} (h : ∃ c, s.value = [c] ∧ 1 ≤ c) :
    s.value.headD 0 = (s.weight : ℤ) := by
  obtain ⟨c, hc, hpos⟩ := h
  have hnonneg : 0 ≤ c := by omega
  rw [Sample.weight, hc]
  exact (Int.toNat_of_nonneg hnonneg).symm

/-- A message with positive values totals what its resolved samples count. -/
theorem Profile.total_eq_countP_resolved {p : Profile}
    (hval : ∀ s ∈ p.sample, ∃ c, s.value = [c] ∧ 1 ≤ c) (q : List String → Bool) :
    p.total q = (p.resolved.countP fun st => (st.map fun st => st.map Prod.fst).any q : ℕ) := by
  rw [Profile.total, Profile.resolved, ← AList.sum_filter_replicate Sample.weight p.resolveSample,
    Nat.cast_list_sum, List.map_map]
  simp only [Profile.sampleNames]
  exact congrArg List.sum (List.map_congr_left fun s hs =>
    Sample.headD_value (hval s (List.mem_of_mem_filter hs)))

/-- **A message's totals count the accounted stacks.** -/
theorem PprofBuilder.total_eq_countP {b : PprofBuilder} (h : b.Tables)
    {sts : List (List FrameKey)} (ha : b.Accounted sts) (order : DrainOrder) (now : ℤ)
    (q : List String → Bool) :
    (b.buildProfile order now).1.total q = (sts.countP fun st => q (st.map Prod.fst) : ℕ) := by
  obtain ⟨hperm, -, hval⟩ := buildProfile_resolves h ha order now
  rw [Profile.total_eq_countP_resolved hval, hperm.countP_eq, List.countP_map]
  rfl

/-- The values of a message add up to the number of accounted stacks. -/
theorem PprofBuilder.sum_value_eq_length {b : PprofBuilder} (h : b.Tables)
    {sts : List (List FrameKey)} (ha : b.Accounted sts) (order : DrainOrder) (now : ℤ) :
    ((b.buildProfile order now).1.sample.map fun s => s.value.headD 0).sum = (sts.length : ℤ) := by
  obtain ⟨hperm, -, hval⟩ := buildProfile_resolves h ha order now
  have hlen : (b.buildProfile order now).1.resolved.length = sts.length := by
    rw [hperm.length_eq, List.length_map]
  rw [← hlen, Profile.resolved, List.length_flatMap, Nat.cast_list_sum, List.map_map]
  refine congrArg List.sum (List.map_congr_left fun s hs => ?_)
  rw [Sample.headD_value (hval s hs)]
  simp

/-! ### Agreement -/

/-- The message `PprofSink::finish` hands to the encoder. -/
def PprofSink.profile (sink : PprofSink) (order : PprofBuilder.DrainOrder) (now : ℤ) : Profile :=
  (sink.builder.buildProfile order now).1

/-- The three outputs answer the same questions with the same numbers, on `n`
samples. -/
structure OutputsAgree (p : Profile) (folded : FoldedSink) (agg : Aggregator) (n : ℕ) : Prop where
  folded_eq : ∀ k, p.total (fun names => joinNames names == k) = (folded.counts.lookup k).getD 0
  exclusive_eq : ∀ f, p.total (fun names => decide (names.head? = some f))
    = ((agg.rows.lookup f).getD ⟨0, 0⟩).exclusive
  inclusive_eq : ∀ f, p.total (fun names => decide (f ∈ names))
    = ((agg.rows.lookup f).getD ⟨0, 0⟩).inclusive
  samples_eq : agg.samples = n
  folded_sum : (folded.counts.entries.map Sigma.snd).sum = n
  value_sum : (p.sample.map fun s => s.value.headD 0).sum = n

/-- **The three aggregating outputs agree** on every sequence of samples, for
every order in which the pprof builder drains its samples. -/
theorem outputs_agree (start : ℤ) (xs : List Recorded) (order : PprofBuilder.DrainOrder)
    (now : ℤ) :
    OutputsAgree (((PprofSink.new start).recordAll xs).profile order now)
      (FoldedSink.new.recordAll xs) (Aggregator.new.recordAll xs) xs.length := by
  -- all three are compared with the recorded samples themselves
  obtain ⟨htables, hacc⟩ := PprofSink.accounted_recordAll start xs
  have hfolded := FoldedSink.folded_counts xs
  have hrows := Aggregator.rowsCount_recordAll xs
  have htotal : ∀ q : List String → Bool,
      (((PprofSink.new start).recordAll xs).profile order now).total q
        = (xs.countP fun x => q x.names : ℕ) := by
    intro q
    rw [PprofSink.profile, PprofBuilder.total_eq_countP htables hacc, List.countP_map]
    simp only [Function.comp_def, map_fst_key, Recorded.names]
  exact
    { folded_eq := by
        intro k
        rw [htotal, hfolded.getD k, List.count, List.countP_map]
        rfl
      exclusive_eq := by
        intro f
        rw [htotal, hrows.getD f]
        simp only [List.countP_map, Function.comp_def]
      inclusive_eq := by
        intro f
        rw [htotal, hrows.getD f]
        simp only [List.countP_map, Function.comp_def]
      samples_eq := Aggregator.samples_recordAll xs
      folded_sum := by
        change (((FoldedSink.new.recordAll xs).counts.entries).map fun e => id e.2).sum = _
        rw [← AList.length_expand id, (hfolded.expand_perm fun _ => rfl).length_eq,
          List.length_map]
      value_sum := by
        rw [PprofSink.profile, PprofBuilder.sum_value_eq_length htables hacc, List.length_map] }

end PhpFastProfile
