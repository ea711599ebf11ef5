import PhpFastProfile.Zend

/-!
# The target process

`captureStack` walks the chain of execute-data records from the one that is
currently running; `requestVar` looks a key up in the `$_SERVER` array, which it
finds in the global symbol table.

## Main definitions

* `Target.captureStack` — the frames of the running stack, leaf first.
* `Target.requestVar` — the string under a key of `$_SERVER`.
-/

namespace PhpFastProfile

/-- What `Target` knows once it is attached: where the executor globals are, and
the layout of its PHP version. -/
structure Target where
  executorGlobals : UInt64
  layout : VersionLayout

namespace Target

/-! ### Stacks -/

section CaptureStack

variable {m : Type → Type} [Monad m] [MonadLiftT (Except Stop) m] [MonadExceptOf Stop m]

/-- The loop of `capture_stack`, for at most `fuel` more frames: it stops at a
null pointer and at the first frame that cannot be read. -/
def walkFrames (readFrame : UInt64 → m (Frame × UInt64)) : ℕ → UInt64 → m (List Frame)
  | 0, _ => pure []
  | fuel + 1, ex => do
    if ex = 0 then return []
    match ← attempt (readFrame ex) with
    | none => return []
    | some (frame, prev) =>
      let frames ← walkFrames readFrame fuel prev
      return frame :: frames

/-- `capture_stack`, given how to read a string. -/
def captureStackWith (readString : UInt64 → m String) (bd : Build) (rem : Remote) (t : Target)
    (maxDepth : ℕ) : m (List Frame) := do
  let ex ← currentExecuteData bd rem t.executorGlobals t.layout
  walkFrames (fun ex => readFrameWith readString bd rem ex t.layout) maxDepth ex

end CaptureStack

/-- `capture_stack`: the frames from the innermost call on, at most `maxDepth` of them. -/
def captureStack (bd : Build) (rem : Remote) (t : Target) (maxDepth : ℕ) :
    EStateM Stop StackWalker (List Frame) := do
  let ex ← currentExecuteData bd rem t.executorGlobals t.layout
  walkFrames (fun ex => StackWalker.readFrame bd rem ex t.layout) maxDepth ex

/-! ### `$_SERVER` -/

section RequestVar

variable (bd : Build) (rem : Remote)

/-- The address of the `$_SERVER` array, from the symbol-table bucket `b`: `none`
when the bucket holds something else. -/
def serverArray (b : UInt64) : Outcome (Option UInt64) := do
  let typeInfo ← rem.readU32 (← bd.add (← bd.add b bucket.VAL) zval.TYPE_INFO)
  let tag := typeInfo.toUInt8
  if tag = zval.IS_REFERENCE then
    let r ← rem.readU64 (← bd.add (← bd.add b bucket.VAL) zval.VALUE)
    return some (← rem.readU64 (← bd.add (← bd.add r 16) zval.VALUE))
  if tag = zval.IS_ARRAY then
    return some (← rem.readU64 (← bd.add (← bd.add b bucket.VAL) zval.VALUE))
  return none

/-- One round of the symbol-table scan: `none` continues with the next bucket. -/
def symbolRound (key : String) (b : UInt64) : Outcome (Option (Option String)) := do
  let keyPtr ← Outcome.unwrapOr (do rem.readU64 (← bd.add b bucket.KEY)) 0
  if keyPtr = 0 then return none
  match ← attempt (readZendString bd rem keyPtr) with
  | none => return none
  | some k =>
    if k ≠ "_SERVER" then return none
    match ← serverArray bd rem b with
    | none => return some none
    | some arrayPtr =>
      if arrayPtr = 0 then return some none
      return some (← htGetString bd rem arrayPtr key)

/-- `request_var_impl`: the search for `$_SERVER` in the symbol table, and for the key in it. -/
def requestVarImpl (t : Target) (key : String) : Outcome (Option String) := do
  let symbolTable ← bd.add t.executorGlobals t.layout.egSymbolTable
  let nUsed ← rem.readU32 (← bd.add symbolTable ht.N_NUM_USED)
  let arData ← rem.readU64 (← bd.add symbolTable ht.AR_DATA)
  if arData = 0 then return none
  scanBuckets bd (symbolRound bd rem key) arData nUsed

/-- `request_var`: an error counts as an absent key. -/
def requestVar (t : Target) (key : String) : Outcome (Option String) := do
  let found ← attempt (requestVarImpl bd rem t key)
  return found.join

end RequestVar

end Target
end PhpFastProfile
