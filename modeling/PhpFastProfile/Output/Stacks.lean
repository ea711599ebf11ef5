import PhpFastProfile.Lib.Terminated
import PhpFastProfile.Lib.Text
import PhpFastProfile.Output.Sinks
import Mathlib.Data.List.Forall2

/-!
# The stacks output

`StacksSink` writes one frame per line, its position first, and a blank line after
every sample; the request comes before the frames, in lines that begin with `#`.
Nothing is escaped.  A newline inside a string therefore ends a line, and one at the
end of the URI makes the blank line that separates two samples.

## Main definitions

* `StacksSink.writeSample` — the text of one sample.
* `StacksSink.readRecords` — the output, split at blank lines.
* `IsRecord` — the lines of a record are those of a sample.
* `StacksSink.Framed` — one record for each sample, in order.

## Main results

* `StacksSink.readRecords_of_clean` — what is read back when no string has a newline.
* `StacksSink.framed_iff` — **the output is framed exactly then.**
-/

namespace PhpFastProfile

open Terminated

/-- `render_frame`. -/
def renderFrame (f : Frame) : String :=
  f.name ++ " " ++ f.file.getD "<unknown>" ++ ":" ++ toString f.line.toNat

/-- `StacksSink`, with the text written so far to a writer that does not fail. -/
structure StacksSink where
  w : String

namespace StacksSink

/-- The sink `make_sink` builds. -/
def new : StacksSink := { w := "" }

/-- The loop over the frames, from the `i`-th on. -/
def writeFrames (w : String) (i : ℕ) : List Frame → String
  | [] => w
  | f :: fs => writeFrames (w ++ toString i ++ " " ++ renderFrame f ++ "\n") (i + 1) fs

/-- `StacksSink::write_sample`: the request, a line for each frame, and an empty line. -/
def writeSample (sink : StacksSink) (frames : List Frame) (info : SampleMeta) : StacksSink :=
  let w := match info.requestUri with
    | some uri => sink.w ++ "# request_uri = " ++ uri ++ "\n"
    | none => sink.w
  let w := match info.requestMethod with
    | some m => w ++ "# request_method = " ++ m ++ "\n"
    | none => w
  { w := writeFrames w 0 frames ++ "\n" }

/-- The sink after a sequence of calls. -/
def writeAll (sink : StacksSink) (calls : List (List Frame × SampleMeta)) : StacksSink :=
  calls.foldl (fun sink call => sink.writeSample call.1 call.2) sink

end StacksSink

/-! ### The lines of a sample -/

/-- The line of the frame at position `i`. -/
def frameLine (i : ℕ) (f : Frame) : List Char :=
  Nat.toDigits 10 i ++ ' ' :: (renderFrame f).toList

/-- The lines of the frames, numbered from `i`. -/
def frameLines (i : ℕ) : List Frame → List (List Char)
  | [] => []
  | f :: fs => frameLine i f :: frameLines (i + 1) fs

/-- The lines of the request. -/
def requestLines (info : SampleMeta) : List (List Char) :=
  (info.requestUri.toList.map fun uri => "# request_uri = ".toList ++ uri.toList) ++
    info.requestMethod.toList.map fun m => "# request_method = ".toList ++ m.toList

/-- The lines that one `write_sample` call writes before the blank line. -/
def sampleLines (call : List Frame × SampleMeta) : List (List Char) :=
  requestLines call.2 ++ frameLines 0 call.1

/-- What the lines of a sample begin with: the request, if it is there, and then the
positions of the frames. -/
def lineLabels (call : List Frame × SampleMeta) : List (List Char) :=
  (call.2.requestUri.toList.map fun _ => "# request_uri = ".toList) ++
    (call.2.requestMethod.toList.map fun _ => "# request_method = ".toList) ++
    (List.range call.1.length).map fun i => Nat.toDigits 10 i ++ [' ']

/-- There is exactly one line for each label, and it begins with it. -/
def IsRecord (call : List Frame × SampleMeta) (record : List (List Char)) : Prop :=
  List.Forall₂ (· <+: ·) (lineLabels call) record

theorem frameLines_labels (i : ℕ) (frames : List Frame) :
    List.Forall₂ (· <+: ·) ((List.range' i frames.length).map fun i => Nat.toDigits 10 i ++ [' '])
      (frameLines i frames) := by
  induction frames generalizing i with
  | nil => exact List.Forall₂.nil
  | cons f fs ih =>
    have hhead : Nat.toDigits 10 i ++ [' '] <+: frameLine i f :=
      ⟨(renderFrame f).toList, by simp [frameLine]⟩
    rw [List.length_cons, List.range'_succ, List.map_cons, frameLines]
    exact List.Forall₂.cons hhead (ih (i + 1))

/-- The lines that are written are those of a record. -/
theorem isRecord_sampleLines (call : List Frame × SampleMeta) :
    IsRecord call (sampleLines call) := by
  have hrequest : ∀ (label : List Char) (text : Option String),
      List.Forall₂ (· <+: ·) (text.toList.map fun _ => label)
        (text.toList.map fun s => label ++ s.toList) := by
    intro label text
    cases text with
    | none => exact List.Forall₂.nil
    | some s => exact List.Forall₂.cons (List.prefix_append _ _) List.Forall₂.nil
  have hframes := frameLines_labels 0 call.1
  rw [← List.range_eq_range'] at hframes
  exact List.rel_append (List.rel_append (hrequest _ _) (hrequest _ _)) hframes

theorem nil_notMem_sampleLines (call : List Frame × SampleMeta) : [] ∉ sampleLines call := by
  have hframes : ∀ (frames : List Frame) (i : ℕ), [] ∉ frameLines i frames := by
    intro frames
    induction frames with
    | nil => intro i; simp [frameLines]
    | cons f fs ih => intro i; simp [frameLines, frameLine, ih]
  unfold sampleLines requestLines
  cases call.2.requestUri <;> cases call.2.requestMethod <;> simp [hframes]

/-! ### What is written -/

namespace StacksSink

theorem toList_writeFrames (w : String) (i : ℕ) (frames : List Frame) :
    (writeFrames w i frames).toList = w.toList ++ terminate '\n' (frameLines i frames) := by
  induction frames generalizing w i with
  | nil => simp [writeFrames, frameLines]
  | cons f fs ih =>
    rw [writeFrames, ih, frameLines, terminate_cons]
    simp [frameLine, Nat.toString_eq_repr]

/-- A call appends the lines of the sample and a blank one. -/
theorem toList_writeSample (sink : StacksSink) (frames : List Frame) (info : SampleMeta) :
    (sink.writeSample frames info).w.toList =
      sink.w.toList ++ terminate '\n' (sampleLines (frames, info) ++ [[]]) := by
  rw [writeSample, sampleLines, terminate_append, terminate_append]
  cases hu : info.requestUri <;> cases hm : info.requestMethod <;>
    simp [toList_writeFrames, requestLines, hu, hm]

/-- **The text is the lines of the samples, each sample followed by a blank line.** -/
theorem toList_writeAll (calls : List (List Frame × SampleMeta)) :
    (new.writeAll calls).w.toList = terminate '\n' (terminate [] (calls.map sampleLines)) := by
  induction calls using List.reverseRecOn with
  | nil => rfl
  | append_singleton calls call ih =>
    have hsnoc : new.writeAll (calls ++ [call]) =
        (new.writeAll calls).writeSample call.1 call.2 := by
      simp [writeAll]
    rw [hsnoc, toList_writeSample, ih, List.map_append, terminate_append [], terminate_append '\n']
    simp

/-! ### Reading it back -/

/-- The lines of the output, split at blank lines. -/
def readRecords (w : String) : List (List (List Char)) :=
  splitTerminator [] (splitTerminator '\n' w.toList)

/-- Splitting at blank lines gives exactly one record for each call, in order. -/
def Framed (calls : List (List Frame × SampleMeta)) : Prop :=
  List.Forall₂ IsRecord calls (readRecords (new.writeAll calls).w)

/-- The strings of a sample that the target holds. -/
def targetStrings (call : List Frame × SampleMeta) : List String :=
  call.2.requestUri.toList ++ call.2.requestMethod.toList ++
    call.1.flatMap fun f => f.className.toList ++ f.function :: f.file.toList

/-- No string of the sample has a newline. -/
def Clean (call : List Frame × SampleMeta) : Prop :=
  ∀ s ∈ targetStrings call, '\n' ∉ s.toList

theorem newline_mem_frameLine {i : ℕ} {f : Frame} : '\n' ∈ frameLine i f ↔
    ∃ s ∈ f.className.toList ++ f.function :: f.file.toList, '\n' ∈ s.toList := by
  have hdigits : ∀ n, '\n' ∉ Nat.toDigits 10 n := Text.not_mem_toDigits rfl
  rw [frameLine, renderFrame, Frame.name]
  cases f.className <;> cases f.file <;>
    simp [Nat.toString_eq_repr, hdigits]

theorem newline_mem_frameLines (i : ℕ) (frames : List Frame) :
    (∃ l ∈ frameLines i frames, '\n' ∈ l) ↔ ∃ s ∈ frames.flatMap fun f =>
      f.className.toList ++ f.function :: f.file.toList, '\n' ∈ s.toList := by
  induction frames generalizing i with
  | nil => simp [frameLines]
  | cons f fs ih =>
    rw [frameLines, List.exists_mem_cons_iff, newline_mem_frameLine, ih, List.flatMap_cons]
    simp only [List.mem_append, or_and_right, exists_or]

/-- A sample is clean when no line it is written on has a newline. -/
theorem clean_iff {call : List Frame × SampleMeta} :
    Clean call ↔ ∀ l ∈ sampleLines call, '\n' ∉ l := by
  have hrequest : (∃ l ∈ requestLines call.2, '\n' ∈ l) ↔
      ∃ s ∈ call.2.requestUri.toList ++ call.2.requestMethod.toList, '\n' ∈ s.toList := by
    rw [requestLines]
    cases call.2.requestUri <;> cases call.2.requestMethod <;> simp
  have hlines : (∃ l ∈ sampleLines call, '\n' ∈ l) ↔
      ∃ s ∈ targetStrings call, '\n' ∈ s.toList := by
    have hframes := newline_mem_frameLines 0 call.1
    unfold sampleLines targetStrings
    simp only [List.mem_append, or_and_right, exists_or] at hrequest hframes ⊢
    rw [hrequest, hframes]
  unfold Clean
  simpa using (not_congr hlines).symm

/-- **What is read back when no string has a newline**: the lines that were written. -/
theorem readRecords_of_clean {calls : List (List Frame × SampleMeta)}
    (h : ∀ call ∈ calls, Clean call) :
    readRecords (new.writeAll calls).w = calls.map sampleLines := by
  have hnonempty : ∀ record ∈ calls.map sampleLines, [] ∉ record := by
    intro record hrecord
    obtain ⟨call, -, rfl⟩ := List.mem_map.mp hrecord
    exact nil_notMem_sampleLines call
  have hline : ∀ l ∈ terminate [] (calls.map sampleLines), '\n' ∉ l := by
    intro l hl
    rcases mem_terminate.mp hl with ⟨record, hrecord, hin⟩ | ⟨rfl, -⟩
    · obtain ⟨call, hcall, rfl⟩ := List.mem_map.mp hrecord
      exact clean_iff.mp (h call hcall) l hin
    · simp
  rw [readRecords, toList_writeAll, splitTerminator_terminate hline,
    splitTerminator_terminate hnonempty]

theorem framed_of_clean {calls : List (List Frame × SampleMeta)}
    (h : ∀ call ∈ calls, Clean call) : Framed calls := by
  rw [Framed, readRecords_of_clean h, List.forall₂_map_right_iff, List.forall₂_same]
  exact fun call _ => isRecord_sampleLines call

/-- The lines of the output end with a blank one. -/
theorem closed_lines (calls : List (List Frame × SampleMeta)) :
    Closed [] (splitTerminator '\n' (new.writeAll calls).w.toList) := by
  induction calls using List.reverseRecOn with
  | nil => exact closed_nil []
  | append_singleton calls call _ =>
    have hsnoc : (new.writeAll (calls ++ [call])).w.toList =
        terminate '\n' (terminate [] (calls.map sampleLines) ++ sampleLines call) ++ ['\n'] := by
      rw [toList_writeAll]
      simp
    rw [hsnoc, splitTerminator_append (closed_terminate '\n' _)]
    exact closed_append_singleton [] _

/-- Framed output has a newline for every line of a record and for every blank one. -/
theorem count_newline_of_framed {calls : List (List Frame × SampleMeta)} (h : Framed calls) :
    (new.writeAll calls).w.toList.count '\n' =
      (calls.map fun call => (sampleLines call).length + 1).sum := by
  have hclosed : Closed '\n' (new.writeAll calls).w.toList := by
    rw [toList_writeAll]
    exact closed_terminate '\n' _
  have hlengths : (readRecords (new.writeAll calls).w).map (fun record => record.length + 1) =
      calls.map fun call => (sampleLines call).length + 1 := by
    rw [← List.forall₂_eq_eq_eq, List.forall₂_map_left_iff, List.forall₂_map_right_iff]
    refine h.flip.imp fun record call hrecord => ?_
    rw [← hrecord.length_eq, (isRecord_sampleLines call).length_eq]
  calc (new.writeAll calls).w.toList.count '\n'
      = (splitTerminator '\n' (new.writeAll calls).w.toList).length :=
        (length_splitTerminator hclosed).symm
    _ = ((readRecords (new.writeAll calls).w).map fun record => record.length + 1).sum :=
        (sum_length_splitTerminator (closed_lines calls)).symm
    _ = (calls.map fun call => (sampleLines call).length + 1).sum := by rw [hlengths]

theorem clean_of_framed {calls : List (List Frame × SampleMeta)} (h : Framed calls) :
    ∀ call ∈ calls, Clean call := by
  have hcount := count_newline_of_framed h
  -- the lines and the blank ones account for all newlines, so that none is left within a line
  rw [toList_writeAll, count_terminate, length_terminate, List.map_map] at hcount
  have hzero : ((terminate [] (calls.map sampleLines)).map fun l => l.count '\n').sum = 0 := by
    simp only [Function.comp_def] at hcount
    omega
  intro call hcall
  rw [clean_iff]
  intro l hl
  have hmem : l ∈ terminate [] (calls.map sampleLines) :=
    mem_terminate.mpr (Or.inl ⟨sampleLines call, List.mem_map_of_mem hcall, hl⟩)
  have hcount := List.sum_eq_zero_iff_forall_eq_nat.mp hzero _ (List.mem_map_of_mem hmem)
  exact List.count_eq_zero.mp hcount

/-- **The output has one record for each sample, in order, exactly if no string of a
sample has a newline.** -/
theorem framed_iff (calls : List (List Frame × SampleMeta)) :
    Framed calls ↔ ∀ call ∈ calls, Clean call :=
  ⟨clean_of_framed, framed_of_clean⟩

/-- A URI with a blank line in it adds a record and a frame line to one sample. -/
theorem not_framed_uri :
    ¬ Framed [([⟨"main", none, some "/index.php", 3⟩], ⟨some "/\n\n0 forged /x.php:1", none⟩)] := by
  intro h
  have hclean := clean_of_framed h _ (List.mem_singleton_self _)
  exact hclean "/\n\n0 forged /x.php:1" (by simp [targetStrings]) (by decide)

end StacksSink
end PhpFastProfile
