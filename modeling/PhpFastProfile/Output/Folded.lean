import PhpFastProfile.Output.Agreement
import PhpFastProfile.Lib.Sorted
import PhpFastProfile.Lib.Utf8

/-!
# What the folded output writes

`FoldedSink::finish` drains its map in whatever order the map yields, sorts the
entries by key and writes a line for each.  The map counts the joined keys of
the samples that have frames, so that the text depends on these samples only,
and not on their order.

## Main definitions

* `FoldedSink.finish` — drain, sort, write.
* `byteOrder` — strings compared byte by byte.
* `FoldedSink.writeAll` — a sequence of `write_sample` calls.

## Main results

* `FoldedSink.writeAll_counts` — the map counts the keys of the samples with frames.
* `FoldedSink.finish_eq_of_perm` — what is written depends only on these samples up to order.
-/

namespace PhpFastProfile

/-! ### The order of the keys -/

/-- The bytes of a `String`. -/
def keyBytes (s : String) : List UInt8 := Utf8.encode s.toList

theorem keyBytes_injective : Function.Injective keyBytes := by
  intro a b h
  have hbytes : a.toByteArray = b.toByteArray := by
    rw [← Utf8.toByteArray_encode, ← Utf8.toByteArray_encode]
    exact congrArg List.toByteArray h
  exact String.toByteArray_inj.mp hbytes

/-- `a.cmp(b)` on strings: the bytes decide. -/
def byteOrder : KeyOrder String where
  le := fun a b => decide (keyBytes a ≤ keyBytes b)
  total := by
    intro a b
    rw [Bool.or_eq_true, decide_eq_true_eq, decide_eq_true_eq]
    exact List.le_total _ _
  trans := by
    intro a b c hab hbc
    rw [decide_eq_true_eq] at hab hbc ⊢
    exact List.le_trans hab hbc
  antisymm := by
    intro a b hab hba
    rw [decide_eq_true_eq] at hab hba
    exact keyBytes_injective (List.le_antisymm hab hba)

theorem keyBytes_lt_of_le_of_ne {a b : String} (hle : byteOrder.le a b = true) (hne : a ≠ b) :
    keyBytes a < keyBytes b := by
  by_contra hnot
  have hback : byteOrder.le b a = true := decide_eq_true hnot
  exact hne (byteOrder.antisymm a b hle hback)

namespace FoldedSink

/-! ### Finishing -/

/-- One entry as `writeln!(self.w, "{k} {v}")` writes it. -/
def line (e : Sigma fun _ : String => ℕ) : String := e.1 ++ " " ++ toString e.2 ++ "\n"

/-- The lines of the entries, written behind `w`. -/
def writeLines (w : String) (entries : List (Sigma fun _ : String => ℕ)) : String :=
  entries.foldl (fun w e => w ++ line e) w

/-- The entries in the order they are written. -/
def entries (order : AList.IterOrder (Sigma fun _ : String => ℕ)) (sink : FoldedSink) :
    List (Sigma fun _ : String => ℕ) :=
  AList.sortedEntries byteOrder order sink.counts

/-- `finish`: the map is left empty. -/
def finish (order : AList.IterOrder (Sigma fun _ : String => ℕ)) (sink : FoldedSink) :
    FoldedSink :=
  { w := writeLines sink.w (sink.entries order), counts := ∅ }

/-! ### A sequence of calls -/

/-- The sink after a sequence of calls. -/
def writeAll (sink : FoldedSink) (calls : List (List Frame × SampleMeta)) : FoldedSink :=
  calls.foldl (fun sink call => sink.writeSample call.1 call.2) sink

/-- The stacks of the calls that have frames. -/
def stacksOf (calls : List (List Frame × SampleMeta)) : List (List Frame) :=
  (calls.map Prod.fst).filter fun frames => !frames.isEmpty

theorem writeAll_concat (sink : FoldedSink) (calls : List (List Frame × SampleMeta))
    (call : List Frame × SampleMeta) :
    sink.writeAll (calls ++ [call]) = (sink.writeAll calls).writeSample call.1 call.2 := by
  simp [writeAll]

theorem stacksOf_concat (calls : List (List Frame × SampleMeta))
    (call : List Frame × SampleMeta) :
    stacksOf (calls ++ [call]) =
      stacksOf calls ++ if call.1.isEmpty then [] else [call.1] := by
  rw [stacksOf, List.map_append, List.filter_append]
  cases h : call.1.isEmpty <;> simp [stacksOf, h]

theorem writeSample_of_isEmpty {sink : FoldedSink} {frames : List Frame} {info : SampleMeta}
    (h : frames.isEmpty = true) : sink.writeSample frames info = sink := by
  rw [writeSample, if_pos h]

theorem writeSample_of_nonempty {sink : FoldedSink} {frames : List Frame} {info : SampleMeta}
    (h : frames.isEmpty = false) :
    sink.writeSample frames info = { sink with counts := sink.counts.bump (foldedKey frames) } := by
  rw [writeSample, h]
  rfl

/-- A sample is counted, not written. -/
theorem writeSample_w (sink : FoldedSink) (frames : List Frame) (info : SampleMeta) :
    (sink.writeSample frames info).w = sink.w := by
  unfold writeSample
  split <;> rfl

theorem writeAll_w (calls : List (List Frame × SampleMeta)) : (new.writeAll calls).w = "" := by
  induction calls using List.reverseRecOn with
  | nil => rfl
  | append_singleton calls call ih => rw [writeAll_concat, writeSample_w, ih]

/-- **The map counts the keys of the samples that have frames.** -/
theorem writeAll_counts (calls : List (List Frame × SampleMeta)) :
    AList.Counts (new.writeAll calls).counts ((stacksOf calls).map foldedKey) := by
  induction calls using List.reverseRecOn with
  | nil => exact AList.counts_empty
  | append_singleton calls call ih =>
    rw [writeAll_concat, stacksOf_concat]
    cases hempty : call.1.isEmpty with
    | true =>
      rw [writeSample_of_isEmpty hempty]
      simpa using ih
    | false =>
      rw [writeSample_of_nonempty hempty, List.map_append]
      exact ih.bump _

/-! ### What is written -/

/-- The counts of the entries add up to the number of samples with frames. -/
theorem sum_entries (order : AList.IterOrder (Sigma fun _ : String => ℕ))
    (calls : List (List Frame × SampleMeta)) :
    (((new.writeAll calls).entries order).map Sigma.snd).sum = (stacksOf calls).length := by
  have hperm : ((new.writeAll calls).entries order).Perm (new.writeAll calls).counts.entries :=
    AList.sortedEntries_perm byteOrder order _
  have hexpand := (writeAll_counts calls).expand_perm (w := id) fun _ => rfl
  calc (((new.writeAll calls).entries order).map Sigma.snd).sum
      = ((new.writeAll calls).counts.entries.map Sigma.snd).sum := (hperm.map _).sum_eq
    _ = (AList.expand id (new.writeAll calls).counts.entries).length :=
      (AList.length_expand id _).symm
    _ = (stacksOf calls).length := by rw [hexpand.length_eq, List.length_map]

/-- **What is written depends only on the samples with frames, up to order**, and
not on how the map iterates.  The keys of its lines ascend in byte order, each
occurs once, and the counts add up to the number of these samples. -/
theorem finish_eq_of_perm (calls calls' : List (List Frame × SampleMeta))
    (h : (stacksOf calls).Perm (stacksOf calls'))
    (order order' : AList.IterOrder (Sigma fun _ : String => ℕ)) :
    ∃ rows : List (Sigma fun _ : String => ℕ),
      ((new.writeAll calls).finish order).w = writeLines "" rows ∧
      ((new.writeAll calls').finish order').w = writeLines "" rows ∧
      rows.Pairwise (fun a b => keyBytes a.1 < keyBytes b.1) ∧
      (rows.map Sigma.fst).Nodup ∧
      (rows.map Sigma.snd).sum = (stacksOf calls).length := by
  have hsame : (new.writeAll calls).entries order = (new.writeAll calls').entries order' :=
    (writeAll_counts calls).sortedEntries_eq byteOrder (writeAll_counts calls') (h.map _) order
      order'
  have hsorted := AList.pairwise_sortedEntries byteOrder order (new.writeAll calls).counts
  refine ⟨(new.writeAll calls).entries order, ?_, ?_, ?_, ?_, sum_entries order calls⟩
  · rw [finish, writeAll_w]
  · rw [finish, writeAll_w, hsame]
  · exact hsorted.imp fun hab => keyBytes_lt_of_le_of_ne hab.1 hab.2
  · exact List.pairwise_map.mpr (hsorted.imp And.right)

/-- Two orders of three calls, one without frames, and two orders of the map. -/
theorem finish_eq_of_perm_reversed :
    ∃ rows : List (Sigma fun _ : String => ℕ),
      ((new.writeAll [([⟨"b", none, none, 1⟩], ⟨none, none⟩), ([], ⟨none, none⟩),
        ([⟨"a", some "A", none, 2⟩], ⟨none, none⟩)]).finish ⟨id, fun _ => .rfl⟩).w
          = writeLines "" rows ∧
      ((new.writeAll [([⟨"a", some "A", none, 2⟩], ⟨some "/", none⟩),
        ([⟨"b", none, none, 1⟩], ⟨none, none⟩)]).finish ⟨List.reverse, List.reverse_perm⟩).w
          = writeLines "" rows ∧
      rows.Pairwise (fun a b => keyBytes a.1 < keyBytes b.1) ∧
      (rows.map Sigma.fst).Nodup ∧
      (rows.map Sigma.snd).sum = 2 :=
  finish_eq_of_perm
    [([⟨"b", none, none, 1⟩], ⟨none, none⟩), ([], ⟨none, none⟩),
      ([⟨"a", some "A", none, 2⟩], ⟨none, none⟩)]
    [([⟨"a", some "A", none, 2⟩], ⟨some "/", none⟩), ([⟨"b", none, none, 1⟩], ⟨none, none⟩)]
    (List.Perm.swap _ _ []) ⟨id, fun _ => .rfl⟩ ⟨List.reverse, List.reverse_perm⟩

end FoldedSink
end PhpFastProfile
