import PhpFastProfile.Frame
import PhpFastProfile.Lib.Intern
import PhpFastProfile.Lib.Tally

/-!
# The pprof builder

`PprofBuilder` folds captured stacks into a pprof v3 profile: names and files
are interned into a string table, (name, file) pairs into functions, (function,
line) pairs into locations, and a stack is counted under its list of location
ids.  `takeGzipped` moves the tables into a `Profile` message, encodes it and
resets the builder for the next window.

Table lengths and counts are unbounded here: a table of `2 ^ 63` rows does not
fit in memory, so the casts to `i64` and `u64` are the identity.

## Main definitions

* `Profile` and its parts — the messages of `proto/profile.proto`.
* `PprofBuilder`, `intern`, `functionId`, `locationId`, `add` — the builder.
* `buildProfile` — the part of `take_gzipped` before the encoder runs.
* `takeGzipped` — the whole of it, with the encoder and gzip as parameters.
* `Op`, `run` — sequences of `add` and `take_gzipped` calls.
-/

namespace PhpFastProfile

/-! ### The messages of `proto/profile.proto` -/

/-- What the values of a sample count, and in which unit. -/
structure ValueType where
  type : ℤ
  unit : ℤ
  deriving DecidableEq, Repr

/-- A label of a sample; this profiler writes none. -/
structure Label where
  key : ℤ
  str : ℤ
  num : ℤ
  numUnit : ℤ
  deriving DecidableEq, Repr

/-- A stack by its locations, innermost first, and its values. -/
structure Sample where
  locationId : List ℕ
  value : List ℤ
  label : List Label
  deriving DecidableEq, Repr

/-- A mapped binary; this profiler writes none. -/
structure Mapping where
  id : ℕ
  memoryStart : ℕ
  memoryLimit : ℕ
  fileOffset : ℕ
  filename : ℤ
  buildId : ℤ
  hasFunctions : Bool
  hasFilenames : Bool
  hasLineNumbers : Bool
  hasInlineFrames : Bool
  deriving DecidableEq, Repr

/-- A line of a function. -/
structure Line where
  functionId : ℕ
  line : ℤ
  deriving DecidableEq, Repr

/-- A place in the program. -/
structure Location where
  id : ℕ
  mappingId : ℕ
  address : ℕ
  line : List Line
  isFolded : Bool
  deriving DecidableEq, Repr

/-- The message `Function`; the plain name is Lean's own. -/
structure FunctionMsg where
  id : ℕ
  name : ℤ
  systemName : ℤ
  filename : ℤ
  startLine : ℤ
  deriving DecidableEq, Repr

/-- A profile message. -/
structure Profile where
  sampleType : List ValueType
  sample : List Sample
  mapping : List Mapping
  location : List Location
  function : List FunctionMsg
  stringTable : List String
  dropFrames : ℤ
  keepFrames : ℤ
  timeNanos : ℤ
  durationNanos : ℤ
  periodType : Option ValueType
  period : ℤ
  comment : List ℤ
  defaultSampleType : ℤ
  deriving DecidableEq, Repr

/-! ### The three tables -/

open Intern

/-- Strings are numbered from `0` and stored as they are. -/
def stringScheme : Scheme String ℤ String where
  mkId n := n
  mkRow _ s := s
  mkId_injective _ _ h := Int.ofNat.inj h
  mkRow_injective _ _ _ h := h

/-- Functions are numbered from `1`, keyed by name and file. -/
def functionScheme : Scheme (ℤ × ℤ) ℕ FunctionMsg where
  mkId n := n + 1
  mkRow id key :=
    { id, name := key.1, systemName := key.1, filename := key.2, startLine := 0 }
  mkId_injective := Nat.succ_injective
  mkRow_injective _ _ _ h :=
    Prod.ext (congrArg FunctionMsg.name h) (congrArg FunctionMsg.filename h)

/-- Locations are numbered from `1`, keyed by function and line. -/
def locationScheme : Scheme (ℕ × ℤ) ℕ Location where
  mkId n := n + 1
  mkRow id key :=
    { id, mappingId := 0, address := 0, line := [⟨key.1, key.2⟩], isFolded := false }
  mkId_injective := Nat.succ_injective
  mkRow_injective _ _ _ h := by simpa [Prod.ext_iff] using h

/-- `PprofBuilder`. -/
structure PprofBuilder where
  strings : List String
  stringIdx : AList fun _ : String => ℤ
  functions : List FunctionMsg
  functionKey : AList fun _ : ℤ × ℤ => ℕ
  locations : List Location
  locationKey : AList fun _ : ℕ × ℤ => ℕ
  samples : AList fun _ : List ℕ => ℤ
  /-- Start of the current accumulation window, unix nanos. -/
  windowStartNanos : ℤ

namespace PprofBuilder

/-- `intern`: the index of a string in the table, which is extended if need be. -/
def intern (b : PprofBuilder) (s : String) : ℤ × PprofBuilder :=
  let (i, strings, stringIdx) := internRow stringScheme s b.strings b.stringIdx
  (i, { b with strings, stringIdx })

/-- `function_id`: the number of a function, which is added if need be. -/
def functionId (b : PprofBuilder) (name filename : ℤ) : ℕ × PprofBuilder :=
  let (id, functions, functionKey) :=
    internRow functionScheme (name, filename) b.functions b.functionKey
  (id, { b with functions, functionKey })

/-- `location_id`: the number of a location, which is added if need be. -/
def locationId (b : PprofBuilder) (functionId : ℕ) (line : ℤ) : ℕ × PprofBuilder :=
  let (id, locations, locationKey) :=
    internRow locationScheme (functionId, line) b.locations b.locationKey
  (id, { b with locations, locationKey })

/-- `PprofBuilder::new`, with the reading of the clock. -/
def new (now : ℤ) : PprofBuilder :=
  let b : PprofBuilder :=
    { strings := [], stringIdx := ∅, functions := [], functionKey := ∅, locations := [],
      locationKey := ∅, samples := ∅, windowStartNanos := now }
  (b.intern "").2

/-- `is_empty`: no stack has been counted since the last drain. -/
def isEmpty (b : PprofBuilder) : Bool := b.samples.entries.isEmpty

/-! ### Adding a stack -/

/-- The body of the loop of `add`: the location of one frame. -/
def frameLocation (b : PprofBuilder) (f : Frame) : ℕ × PprofBuilder :=
  let (nameIdx, b) := b.intern f.name
  let (fileIdx, b) := b.intern (f.file.getD "")
  let (fid, b) := b.functionId nameIdx fileIdx
  b.locationId fid f.line.toNat

/-- The loop of `add`: the locations of the frames, leaf first. -/
def frameLocations (b : PprofBuilder) : List Frame → List ℕ × PprofBuilder
  | [] => ([], b)
  | f :: fs =>
    let (lid, b) := b.frameLocation f
    let (lids, b) := b.frameLocations fs
    (lid :: lids, b)

/-- `add`: a stack is counted under its locations. -/
def add (b : PprofBuilder) (frames : List Frame) : PprofBuilder :=
  let (locationIds, b) := b.frameLocations frames
  { b with samples := b.samples.bump locationIds }

/-! ### Taking a window -/

/-- The order in which the drained samples come. -/
abbrev DrainOrder := AList.IterOrder (Sigma fun _ : List ℕ => ℤ)

/-- `take_gzipped` up to the encoder: the message, and the builder with the
samples drained and the three tables moved out. -/
def buildProfile (b : PprofBuilder) (order : DrainOrder) (now : ℤ) : Profile × PprofBuilder :=
  let (samplesUnit, b) := b.intern "count"
  let (samplesType, b) := b.intern "samples"
  let sample := (order.run b.samples.entries).map fun e =>
    { locationId := e.1, value := [e.2], label := [] }
  let start := b.windowStartNanos
  let profile : Profile :=
    { sampleType := [{ type := samplesType, unit := samplesUnit }]
      sample
      mapping := []
      location := b.locations
      function := b.functions
      stringTable := b.strings
      dropFrames := 0
      keepFrames := 0
      timeNanos := start
      durationNanos := max (now - start) 0
      periodType := none
      period := 0
      comment := []
      defaultSampleType := 0 }
  (profile, { b with samples := ∅, locations := [], functions := [], strings := [] })

/-- `take_gzipped`.  `encode` stands for prost's encoder and `gzip` for writing
to and finishing the `GzEncoder`; either may fail, and an early return leaves the
index maps as they were. -/
def takeGzipped {ε : Type} (b : PprofBuilder) (order : DrainOrder) (now : ℤ)
    (encode : Profile → Except ε (List UInt8)) (gzip : List UInt8 → Except ε (List UInt8)) :
    Except ε (List UInt8 × ℤ × ℤ) × PprofBuilder :=
  let start := b.windowStartNanos
  let (profile, b) := b.buildProfile order now
  match encode profile with
  | .error e => (.error e, b)
  | .ok buf =>
    match gzip buf with
    | .error e => (.error e, b)
    | .ok gzipped =>
      let b := { b with stringIdx := ∅, functionKey := ∅, locationKey := ∅ }
      let b := (b.intern "").2
      (.ok (gzipped, start, now), { b with windowStartNanos := now })

/-! ### Runs -/

/-- An encoder that never fails, as encoding into a `Vec` and gzipping into a
`Vec` do. -/
def infallible {α β : Type} (f : α → β) (a : α) : Except Empty β := .ok (f a)

/-- One call on the builder; a call of `take_gzipped` comes with the bytes its
encoder and gzip produce. -/
inductive Op
  | add (frames : List Frame)
  | takeGzipped (order : DrainOrder) (now : ℤ) (encode : Profile → List UInt8)
      (gzip : List UInt8 → List UInt8)

/-- The builder after one call. -/
def step (b : PprofBuilder) : Op → PprofBuilder
  | .add frames => b.add frames
  | .takeGzipped order now encode gzip =>
    (b.takeGzipped order now (infallible encode) (infallible gzip)).2

/-- The builder after a sequence of calls on a new one. -/
def run (start : ℤ) (ops : List Op) : PprofBuilder := ops.foldl step (new start)

end PprofBuilder
end PhpFastProfile
