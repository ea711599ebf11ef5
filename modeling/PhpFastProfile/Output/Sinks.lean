import PhpFastProfile.Output.PprofSink

/-!
# The sinks

A sink is handed every accepted sample.  `FoldedSink` counts samples under their
root-first, semicolon-joined names; `PprofSink` folds them into a `PprofBuilder`.

The counts are unbounded here, where the source has `u64`: no run writes `2 ^ 64` samples.
-/

namespace PhpFastProfile

/-- What is known of the request of a sample. -/
structure SampleMeta where
  requestUri : Option String
  requestMethod : Option String
  deriving DecidableEq, Repr, Inhabited

/-! ### Folded stacks -/

/-- `FoldedSink`, with the text written so far. -/
structure FoldedSink where
  w : String
  counts : AList fun _ : String => ℕ

namespace FoldedSink

/-- The sink `make_sink` builds. -/
def new : FoldedSink := { w := "", counts := ∅ }

/-- The key of a sample: folded stacks are root-first. -/
def foldedKey (frames : List Frame) : String :=
  ";".intercalate (frames.reverse.map Frame.name)

/-- `FoldedSink::write_sample`: the stack is counted, unless it is empty. -/
def writeSample (sink : FoldedSink) (frames : List Frame) (_meta : SampleMeta) : FoldedSink :=
  if frames.isEmpty then sink
  else { sink with counts := sink.counts.bump (foldedKey frames) }

end FoldedSink

/-! ### pprof -/

/-- `PprofSink`: its profile is the one `take_gzipped` builds in `finish`. -/
structure PprofSink where
  builder : PprofBuilder

namespace PprofSink

/-- The sink `make_sink` builds, with the reading of the clock. -/
def new (now : ℤ) : PprofSink := { builder := PprofBuilder.new now }

/-- `PprofSink::write_sample`. -/
def writeSample (sink : PprofSink) (frames : List Frame) (_meta : SampleMeta) : PprofSink :=
  { sink with builder := sink.builder.add frames }

end PprofSink
end PhpFastProfile
