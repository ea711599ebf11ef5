import PhpFastProfile.Zend.StringCache

/-!
# Batched and field-by-field frame reads

`readFrame` fetches 64 bytes of the execute data and 192 bytes of the function
and slices the fields out of these windows.  `readFrameFields` fetches each field
a frame needs on its own, and nothing else.  Where both windows can be read the
two agree in every outcome (`readFrame_eq_fields`); where one of them cannot,
the batched reader fails, also when all the fields a frame needs are there.

## Main definitions

* `readFrameFields` — the field-by-field reader.
* `WindowsReadable rem exAddr` — the two windows of a frame can be read.

## Main results

* `fieldU64_eq_slice` — a field of a window is the field in memory.
* `readFrame_fields` — **how the two readers compare.**
-/

namespace PhpFastProfile

open Memo

/-! ### Fields -/

section Fields

variable (bd : Build) (rem : Remote)

/-- The eight-byte field at `off` of the structure at `base`. -/
def fieldU64 (base off : UInt64) : Outcome UInt64 := do rem.readU64 (← bd.add base off)

/-- The four-byte field at `off` of the structure at `base`. -/
def fieldU32 (base off : UInt64) : Outcome UInt32 := do rem.readU32 (← bd.add base off)

/-- The byte at `off` of the structure at `base`. -/
def fieldU8 (base off : UInt64) : Outcome UInt8 := do
  byteAt (← rem.read (← bd.add base off) 1) 0

/-- The line of a user frame, from the opline or from the function. -/
def lineFields (oplinePtr funcPtr : UInt64) (layout : VersionLayout) : Outcome UInt32 := do
  let line ← oplineLine bd rem oplinePtr
  if line = 0 then fieldU32 bd rem funcPtr layout.opArrayLineStart else pure line

/-- A frame, from the fields it needs. -/
def readFrameFields (exAddr : UInt64) (layout : VersionLayout) : Outcome (Frame × UInt64) := do
  let oplinePtr ← fieldU64 bd rem exAddr ex.OPLINE
  let funcPtr ← fieldU64 bd rem exAddr ex.FUNC
  let prev ← fieldU64 bd rem exAddr ex.PREV_EXECUTE_DATA
  if funcPtr = 0 then
    return ({ function := internUnknown, className := none, file := none, line := 0 }, prev)
  let ftype ← fieldU8 bd rem funcPtr func.TYPE
  let namePtr ← fieldU64 bd rem funcPtr func.FUNCTION_NAME
  let scopePtr ← fieldU64 bd rem funcPtr func.SCOPE
  let function ← readName (readZendString bd rem) namePtr
  let className ← readClass (readZendString bd rem) bd rem scopePtr
  if ftype = func.TYPE_USER then
    let filePtr ← fieldU64 bd rem funcPtr layout.opArrayFilename
    let file ← readFile (readZendString bd rem) filePtr
    let line ← lineFields bd rem oplinePtr funcPtr layout
    return ({ function, className, file, line }, prev)
  else if ftype = func.TYPE_INTERNAL then
    return ({ function, className, file := some internInternal, line := 0 }, prev)
  else
    return ({ function, className, file := none, line := 0 }, prev)

end Fields

/-- The 64 bytes at the execute data can be read, and so can the 192 bytes at its
function when it has one. -/
def WindowsReadable (rem : Remote) (exAddr : UInt64) : Prop :=
  ∃ exBuf, rem.read exAddr EX_BUF = .ok exBuf ∧
    ∀ funcPtr, sliceU64 exBuf ex.FUNC = .ok funcPtr → funcPtr ≠ 0 →
      ∃ funcBuf, rem.read funcPtr FUNC_BUF = .ok funcBuf

/-! ### Fields of a window -/

section Window

variable {rem : Remote} {base : UInt64} {len : ℕ} {buf : List UInt8} (bd : Build) (off : UInt64)

/-- A field of a window is the field in memory. -/
theorem fieldU64_eq_slice (h : rem.read base len = .ok buf) (hoff : off.toNat + 8 ≤ len) :
    ∃ v, fieldU64 bd rem base off = .ok v ∧ sliceU64 buf off = .ok v := by
  obtain ⟨hadd, hread⟩ := Remote.read_window h hoff (by omega) bd
  refine ⟨_, ?_, if_pos (by rw [Remote.length_read h]; exact hoff)⟩
  simp only [fieldU64, hadd, Remote.readU64, hread, bind, Except.bind]
  rfl

theorem fieldU32_eq_slice (h : rem.read base len = .ok buf) (hoff : off.toNat + 4 ≤ len) :
    ∃ v, fieldU32 bd rem base off = .ok v ∧ sliceU32 buf off = .ok v := by
  obtain ⟨hadd, hread⟩ := Remote.read_window h hoff (by omega) bd
  refine ⟨_, ?_, if_pos (by rw [Remote.length_read h]; exact hoff)⟩
  simp only [fieldU32, hadd, Remote.readU32, hread, bind, Except.bind]
  rfl

theorem fieldU8_eq_byteAt (h : rem.read base len = .ok buf) (hoff : off.toNat + 1 ≤ len) :
    ∃ v, fieldU8 bd rem base off = .ok v ∧ byteAt buf off = .ok v := by
  obtain ⟨hadd, hread⟩ := Remote.read_window h hoff (by omega) bd
  have hlt : off.toNat < buf.length := by rw [Remote.length_read h]; omega
  have hget : buf[off.toNat]? = some buf[off.toNat] := List.getElem?_eq_getElem hlt
  refine ⟨buf[off.toNat], ?_, by simp only [byteAt, hget]⟩
  simp only [fieldU8, hadd, hread, bind, Except.bind]
  have hfirst : ((buf.drop off.toNat).take 1)[(0 : UInt64).toNat]? = some buf[off.toNat] := by
    rw [← hget]
    simp
  simp only [byteAt, hfirst]

end Window

/-! ### The two readers -/

section Compare

variable {bd : Build} {rem : Remote} {exAddr : UInt64} {layout : VersionLayout}

/-- **Where both windows can be read, slicing a frame out of them and fetching its
fields one by one come to the same.** -/
theorem readFrameWith_eq_fields (hfile : layout.opArrayFilename.toNat + 8 ≤ FUNC_BUF)
    (hline : layout.opArrayLineStart.toNat + 4 ≤ FUNC_BUF) (hwin : WindowsReadable rem exAddr) :
    (readFrameWith (readZendString bd rem) bd rem exAddr layout : Outcome (Frame × UInt64))
      = readFrameFields bd rem exAddr layout := by
  obtain ⟨exBuf, hex, hfunc⟩ := hwin
  -- the fields of the first window
  obtain ⟨oplinePtr, hopline, hopline'⟩ := fieldU64_eq_slice bd ex.OPLINE hex (by decide)
  obtain ⟨funcPtr, hptr, hptr'⟩ := fieldU64_eq_slice bd ex.FUNC hex (by decide)
  obtain ⟨prev, hprev, hprev'⟩ := fieldU64_eq_slice bd ex.PREV_EXECUTE_DATA hex (by decide)
  unfold readFrameWith readFrameFields
  simp only [liftM, monadLift_self, Remote.readArray, hex, hopline, hopline', hptr, hptr', hprev,
    hprev', bind, Except.bind]
  by_cases hnull : funcPtr = 0
  · rw [if_pos hnull, if_pos hnull]
  · rw [if_neg hnull, if_neg hnull]
    obtain ⟨funcBuf, hbuf⟩ := hfunc funcPtr hptr' hnull
    -- and those of the second, whether the frame needs them or not
    obtain ⟨ftype, htype, htype'⟩ := fieldU8_eq_byteAt bd func.TYPE hbuf (by decide)
    obtain ⟨namePtr, hname, hname'⟩ := fieldU64_eq_slice bd func.FUNCTION_NAME hbuf (by decide)
    obtain ⟨scopePtr, hscope, hscope'⟩ := fieldU64_eq_slice bd func.SCOPE hbuf (by decide)
    obtain ⟨filePtr, hfptr, hfptr'⟩ := fieldU64_eq_slice bd layout.opArrayFilename hbuf hfile
    obtain ⟨start, hstart, hstart'⟩ := fieldU32_eq_slice bd layout.opArrayLineStart hbuf hline
    have hsame : readLine bd rem oplinePtr funcBuf layout
        = lineFields bd rem oplinePtr funcPtr layout := by
      unfold readLine lineFields
      rw [hstart, hstart']
    simp only [hbuf, htype, htype', hname, hname', hscope, hscope', hfptr, hfptr', hsame]

/-- Where one of the two windows cannot be read, the batched reader reports an error. -/
theorem readFrameWith_of_not_windows {read : UInt64 → Outcome String}
    (hwin : ¬ WindowsReadable rem exAddr) :
    ∃ e, (readFrameWith read bd rem exAddr layout : Outcome (Frame × UInt64))
      = .error (.err e) := by
  unfold readFrameWith
  cases hex : rem.read exAddr EX_BUF with
  | error s =>
    obtain ⟨e, rfl⟩ := Remote.read_eq_error hex
    refine ⟨e, ?_⟩
    simp only [liftM, monadLift_self, Remote.readArray, hex, bind, Except.bind]
  | ok exBuf =>
    obtain ⟨oplinePtr, -, hopline⟩ := fieldU64_eq_slice bd ex.OPLINE hex (by decide)
    obtain ⟨funcPtr, -, hptr⟩ := fieldU64_eq_slice bd ex.FUNC hex (by decide)
    obtain ⟨prev, -, hprev⟩ := fieldU64_eq_slice bd ex.PREV_EXECUTE_DATA hex (by decide)
    -- the function is there, and its window is what is missing
    have hnull : funcPtr ≠ 0 := by
      rintro rfl
      refine hwin ⟨exBuf, hex, fun ptr hp hne => ?_⟩
      rw [hptr] at hp
      exact absurd (Except.ok.inj hp).symm hne
    cases hbuf : rem.read funcPtr FUNC_BUF with
    | ok funcBuf =>
      refine absurd ⟨exBuf, hex, fun ptr hp _ => ⟨funcBuf, ?_⟩⟩ hwin
      rw [hptr] at hp
      rw [← Except.ok.inj hp]
      exact hbuf
    | error s =>
      obtain ⟨e, rfl⟩ := Remote.read_eq_error hbuf
      refine ⟨e, ?_⟩
      simp only [liftM, monadLift_self, Remote.readArray, hex, hopline, hptr, hprev, hnull, hbuf,
        if_false, bind, Except.bind]

end Compare

/-- The walker's reader with an empty cache reads every string afresh. -/
theorem outcome_readFrame_new (bd : Build) (rem : Remote) (exAddr : UInt64)
    (layout : VersionLayout) :
    outcome (StackWalker.readFrame bd rem exAddr layout StackWalker.new)
      = readFrameWith (readZendString bd rem) bd rem exAddr layout := by
  obtain ⟨hout, -⟩ := StackWalker.readFrame_agrees ∅ bd rem exAddr layout StackWalker.new
    (Grown.refl (Nat.zero_le _))
  rw [hout, overlay_empty]

/-- **How the batched reader compares with the field-by-field reader**, for every
layout that is picked and with an empty cache: with both windows readable the two
have the same outcome, otherwise the batched reader reports an error; so whatever
frame it returns is the frame the field-by-field reader returns. -/
theorem readFrame_fields (bd : Build) (rem : Remote) (exAddr : UInt64) (env : Env)
    (version : String) (layout : VersionLayout) (hpick : pick env version = some layout) :
    let r := outcome (StackWalker.readFrame bd rem exAddr layout StackWalker.new)
    (WindowsReadable rem exAddr → r = readFrameFields bd rem exAddr layout) ∧
      (¬ WindowsReadable rem exAddr → ∃ e, r = .error (.err e)) ∧
      ∀ p, r = .ok p → readFrameFields bd rem exAddr layout = .ok p := by
  intro r
  obtain ⟨hfile, hline⟩ := pick_opArray_le hpick
  have hr : r = readFrameWith (readZendString bd rem) bd rem exAddr layout :=
    outcome_readFrame_new bd rem exAddr layout
  have hsame : WindowsReadable rem exAddr → r = readFrameFields bd rem exAddr layout :=
    fun hwin => hr.trans (readFrameWith_eq_fields hfile hline hwin)
  have hfail : ¬ WindowsReadable rem exAddr → ∃ e, r = .error (.err e) := by
    intro hwin
    rw [hr]
    exact readFrameWith_of_not_windows hwin
  refine ⟨hsame, hfail, fun p hp => ?_⟩
  by_cases hwin : WindowsReadable rem exAddr
  · rw [← hsame hwin, hp]
  · obtain ⟨e, he⟩ := hfail hwin
    rw [hp] at he
    exact absurd he (by simp)

/-- On the memory of `namedCall` both readers give the frame. -/
theorem readFrame_fields_namedCall :
    readFrameFields .release (namedCall 0x61) 0x400 layout8_3
      = .ok (⟨"a", none, some "<internal>", 0⟩, 0) :=
  (readFrame_fields .release (namedCall 0x61) 0x400 ⟨none, none⟩ "8.3.1" layout8_3 (by decide)).2.2
    _ (by decide +kernel)

/-- The memory of `namedCall` with the function moved to `0x7E8`, the last 24 bytes
that are mapped. -/
def callAtTheEdge : Remote :=
  (Remote.zeroExcept [(0x418, 0xE8), (0x419, 0x07), (0x7E8, 1), (0x7F1, 0x06), (0x610, 1),
    (0x618, 0x61)]).below 0x800

/-- **The batched reader loses frames that the field-by-field reader has**: the
fields of this internal function can all be read, the bytes after it cannot. -/
theorem readFrame_callAtTheEdge :
    outcome (StackWalker.readFrame .release callAtTheEdge 0x400 layout8_3 StackWalker.new)
        = .error (.err (.shortRead 0x7E8 24 192)) ∧
      readFrameFields .release callAtTheEdge 0x400 layout8_3
        = .ok (⟨"a", none, some "<internal>", 0⟩, 0) := by
  decide +kernel

end PhpFastProfile
