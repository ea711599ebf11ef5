import PhpFastProfile.Frame
import PhpFastProfile.Offsets
import PhpFastProfile.Remote
import PhpFastProfile.Lib.Loop
import PhpFastProfile.Lib.Memo
import PhpFastProfile.Lib.Utf8

/-!
# Reading Zend structures

The readers of `zend.rs`.  A frame costs two fixed-size reads plus up to three
strings; a `StackWalker` keeps the strings it has read.  `readFrameWith` is the
frame reader over any way of reading strings: the walker's cached one gives
`readFrame`, and `readZendString` itself gives a reader without a cache.

## Main definitions

* `readZendString` — a `zend_string`, cut at 4096 bytes.
* `StackWalker`, `readZstringCached`, `readFrame` — the cached reader.
* `htGetString` — the string under a key of a hash table.
-/

namespace PhpFastProfile

/-- The longest string that is read. -/
def MAX_STR_LEN : ℕ := 4096

/-- Bytes fetched of `zend_execute_data`. -/
def EX_BUF : ℕ := 64

/-- Bytes fetched of `zend_function`. -/
def FUNC_BUF : ℕ := 192

/-- Catch an error, but not a panic: `match … { Ok(a) => …, Err(_) => … }`. -/
def attempt {m : Type → Type} [Monad m] [MonadExceptOf Stop m] {α : Type} (x : m α) :
    m (Option α) :=
  tryCatch (do let a ← x; pure (some a)) fun
    | .err _ => pure none
    | .panic => throw .panic

/-! ### Strings and frames -/

/-- `read_zend_string`: the text of a string, cut at the limit. -/
def readZendString (bd : Build) (rem : Remote) (addr : UInt64) : Outcome String := do
  let len ← rem.readU64 (← bd.add addr zstr.LEN)
  let len := min len.toNat MAX_STR_LEN
  if len = 0 then return ""
  let bytes ← rem.readVec (← bd.add addr zstr.VAL) len
  return Utf8.fromUtf8Lossy bytes

/-- `current_execute_data`: the record of the innermost call. -/
def currentExecuteData (bd : Build) (rem : Remote) (egAddr : UInt64) (layout : VersionLayout) :
    Outcome UInt64 := do
  rem.readU64 (← bd.add egAddr layout.egCurrentExecuteData)

/-! The three strings `StackWalker::new` allocates once. -/

/-- The name of top-level code. -/
def internMain : String := "{main}"
/-- The file of internal functions. -/
def internInternal : String := "<internal>"
/-- What stands for a function that is not known. -/
def internUnknown : String := "<unknown>"

section ReadFrame

variable {m : Type → Type} [Monad m] [MonadLiftT (Except Stop) m] (readString : UInt64 → m String)
  (bd : Build) (rem : Remote)

/-- The function name of a frame; top-level code has none. -/
def readName (namePtr : UInt64) : m String :=
  if namePtr = 0 then pure internMain else readString namePtr

/-- The class of a frame, from the `scope` of its function. -/
def readClass (scopePtr : UInt64) : m (Option String) := do
  if scopePtr = 0 then return none
  let classNamePtr ← rem.readU64 (← bd.add scopePtr ce.NAME)
  if classNamePtr = 0 then return none
  let name ← readString classNamePtr
  return some name

/-- The file of a user function. -/
def readFile (filePtr : UInt64) : m (Option String) := do
  if filePtr = 0 then return none
  let file ← readString filePtr
  return some file

/-- The line of the current opline, zero when there is none to read. -/
def oplineLine (oplinePtr : UInt64) : Outcome UInt32 :=
  if oplinePtr ≠ 0 then
    Outcome.unwrapOr (do rem.readU32 (← bd.add oplinePtr op.LINENO)) 0
  else pure 0

/-- The line of the current opline, or the line the function starts on. -/
def readLine (oplinePtr : UInt64) (funcBuf : List UInt8) (layout : VersionLayout) :
    Outcome UInt32 := do
  let line ← oplineLine bd rem oplinePtr
  if line = 0 then sliceU32 funcBuf layout.opArrayLineStart else pure line

/-- `read_frame`, given how to read a string. -/
def readFrameWith (exAddr : UInt64) (layout : VersionLayout) : m (Frame × UInt64) := do
  let exBuf ← rem.readArray EX_BUF exAddr
  let oplinePtr ← sliceU64 exBuf ex.OPLINE
  let funcPtr ← sliceU64 exBuf ex.FUNC
  let prev ← sliceU64 exBuf ex.PREV_EXECUTE_DATA
  if funcPtr = 0 then
    return ({ function := internUnknown, className := none, file := none, line := 0 }, prev)
  let funcBuf ← rem.readArray FUNC_BUF funcPtr
  let ftype ← byteAt funcBuf func.TYPE
  let namePtr ← sliceU64 funcBuf func.FUNCTION_NAME
  let scopePtr ← sliceU64 funcBuf func.SCOPE
  let function ← readName readString namePtr
  let className ← readClass readString bd rem scopePtr
  if ftype = func.TYPE_USER then
    let filePtr ← sliceU64 funcBuf layout.opArrayFilename
    let file ← readFile readString filePtr
    let line ← readLine bd rem oplinePtr funcBuf layout
    return ({ function, className, file, line }, prev)
  else if ftype = func.TYPE_INTERNAL then
    return ({ function, className, file := some internInternal, line := 0 }, prev)
  else
    return ({ function, className, file := none, line := 0 }, prev)

end ReadFrame

/-! ### The walker -/

/-- The walker of stacks, with the strings it has read. -/
structure StackWalker where
  stringCache : AList fun _ : UInt64 => String

namespace StackWalker

/-- `StackWalker::new`. -/
def new : StackWalker := { stringCache := ∅ }

/-- Bound on the number of cached strings. -/
def CACHE_BOUND : ℕ := 8192

/-- `read_zstring_cached`: the string at an address, read once and kept while there is room. -/
def readZstringCached (bd : Build) (rem : Remote) (addr : UInt64) :
    EStateM Stop StackWalker String := fun w =>
  match w.stringCache.lookup addr with
  | some s => .ok s w
  | none =>
    match readZendString bd rem addr with
    | .error e => .error e w
    | .ok s =>
      if w.stringCache.entries.length < CACHE_BOUND then
        .ok s { w with stringCache := w.stringCache.insert addr s }
      else .ok s w

/-- `read_frame`: the frame of a record, and the record of its caller. -/
def readFrame (bd : Build) (rem : Remote) (exAddr : UInt64) (layout : VersionLayout) :
    EStateM Stop StackWalker (Frame × UInt64) :=
  readFrameWith (readZstringCached bd rem) bd rem exAddr layout

end StackWalker

/-! ### Hash tables -/

/-- How many buckets a scan looks at. -/
def MAX_BUCKETS : ℕ := 4096

section HashTable

variable (bd : Build) (rem : Remote)

/-- The string a bucket with the wanted key and the type tag `tag` holds. -/
def htValue (b : UInt64) (tag : UInt8) : Outcome (Option String) := do
  if tag = zval.IS_REFERENCE then
    let refPtr ← rem.readU64 (← bd.add (← bd.add b bucket.VAL) zval.VALUE)
    if refPtr = 0 then return none
    let innerType ← Outcome.unwrapOr
      (do rem.readU32 (← bd.add (← bd.add refPtr 16) zval.TYPE_INFO)) 0
    if innerType.toUInt8 = zval.IS_STRING then
      let s ← rem.readU64 (← bd.add (← bd.add refPtr 16) zval.VALUE)
      return some (← readZendString bd rem s)
    -- any other inner tag falls through to the last line of the loop
    return none
  if tag = zval.IS_STRING then
    let s ← rem.readU64 (← bd.add (← bd.add b bucket.VAL) zval.VALUE)
    return some (← readZendString bd rem s)
  return none

/-- One round of the scan: `none` continues with the next bucket. -/
def htRound (wantKey : String) (b : UInt64) : Outcome (Option (Option String)) := do
  let typeInfo ← Outcome.unwrapOr
    (do rem.readU32 (← bd.add (← bd.add b bucket.VAL) zval.TYPE_INFO)) 0
  let tag := typeInfo.toUInt8
  if tag = zval.IS_UNDEF then return none
  let keyPtr ← Outcome.unwrapOr (do rem.readU64 (← bd.add b bucket.KEY)) 0
  if keyPtr = 0 then return none
  match ← attempt (readZendString bd rem keyPtr) with
  | none => return none
  | some key =>
    if key ≠ wantKey then return none
    return some (← htValue bd rem b tag)

/-- The scan of a bucket array: a round for each of the first 4096 buckets. -/
def scanBuckets (round : UInt64 → Outcome (Option (Option String))) (arData : UInt64)
    (nUsed : UInt32) : Outcome (Option String) := do
  let found ← Loop.firstFrom
    (fun i => do round (← bd.add arData (UInt64.ofNat i * bucket.SIZE)))
    0 (min nUsed.toNat MAX_BUCKETS)
  return found.join

/-- `ht_get_string`: the string under a key. -/
def htGetString (htAddr : UInt64) (wantKey : String) : Outcome (Option String) := do
  let nUsed ← rem.readU32 (← bd.add htAddr ht.N_NUM_USED)
  let arData ← rem.readU64 (← bd.add htAddr ht.AR_DATA)
  if arData = 0 ∨ nUsed = 0 then return none
  scanBuckets bd (htRound bd rem wantKey) arData nUsed

end HashTable
end PhpFastProfile
