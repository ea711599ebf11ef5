import PhpFastProfile.Target.Room
import PhpFastProfile.Zend.FieldReader

/-!
# Addresses that overflow

A frame is read behind up to seven pointers: those of two windows, which are fetched
whole and cannot wrap, and those of three strings, the class and the opline, to which
field offsets are added.  A stack is read frame by frame, as far as the frames can be
read.  Together with the lookup in `$_SERVER` this says which memories make the sampler
panic in a build with overflow checks.  The slices of the two windows are always in
bounds.

## Main definitions

* `FrameFits`, `ChainFits` — the pointers of a frame and of a chain of frames.
* `StackFits` — the pointers `capture_stack` follows.
* `restOfFrame` — what is read behind the two windows.

## Main results

* `readFrameWith_cases` — what reading a frame comes to.
* `noPanic_captureStack_iff` — when `capture_stack` does not panic.
* `overflow_iff` — **no address overflows exactly when the pointers leave room.**
* `overflow_panics` — a class pointer that panics.
-/

namespace PhpFastProfile

open Memo

/-! ### The fields of a frame -/

/-- The word in the field at `off` of the structure at `base`. -/
def wordOf (rem : Remote) (base off : UInt64) : UInt64 :=
  (fieldU64 .release rem base off).toOption.getD 0

/-- The byte in the field at `off` of the structure at `base`. -/
def byteOf (rem : Remote) (base off : UInt64) : UInt8 :=
  (fieldU8 .release rem base off).toOption.getD 0

section Slices

variable {rem : Remote} {base : UInt64} {len : ℕ} {buf : List UInt8} (off : UInt64)

theorem sliceU64_window (h : rem.read base len = .ok buf) (hoff : off.toNat + 8 ≤ len) :
    sliceU64 buf off = .ok (wordOf rem base off) := by
  obtain ⟨v, hv, hslice⟩ := fieldU64_eq_slice .release off h hoff
  rw [hslice, wordOf, hv]
  rfl

theorem byteAt_window (h : rem.read base len = .ok buf) (hoff : off.toNat + 1 ≤ len) :
    byteAt buf off = .ok (byteOf rem base off) := by
  obtain ⟨v, hv, hbyte⟩ := fieldU8_eq_byteAt .release off h hoff
  rw [hbyte, byteOf, hv]
  rfl

end Slices

section Frames

variable (c : AList fun _ : UInt64 => String) (rem : Remote)

/-- The string at `a`, where there is one and it is not cached, has room. -/
def TextFits (a : UInt64) : Prop := a ≠ 0 → c.lookup a = none → StringFits rem a

/-- The string at `a`, where there is one and it is not cached, can be read. -/
def TextReads (a : UInt64) : Prop := a ≠ 0 → c.lookup a = none → StringReads rem a

/-- The class at `scope`, where there is one, has room for its name. -/
def ClassFits (scope : UInt64) : Prop :=
  scope ≠ 0 → Fits scope ce.NAME ∧
    ∀ name, rem.readU64 (scope + ce.NAME) = .ok name → TextFits c rem name

/-- The name of the class at `scope`, where there is one, can be read. -/
def ClassReads (scope : UInt64) : Prop :=
  scope ≠ 0 → ∃ name, rem.readU64 (scope + ce.NAME) = .ok name ∧ TextReads c rem name

/-- The function at `f`, called at `opline`, leaves room for its name, its class, its
file and its line, each as far as the ones before it can be read. -/
def FunctionFits (layout : VersionLayout) (f opline : UInt64) : Prop :=
  TextFits c rem (wordOf rem f func.FUNCTION_NAME) ∧
  (TextReads c rem (wordOf rem f func.FUNCTION_NAME) →
    ClassFits c rem (wordOf rem f func.SCOPE) ∧
    (ClassReads c rem (wordOf rem f func.SCOPE) → byteOf rem f func.TYPE = func.TYPE_USER →
      TextFits c rem (wordOf rem f layout.opArrayFilename) ∧
      (TextReads c rem (wordOf rem f layout.opArrayFilename) →
        opline ≠ 0 → Fits opline op.LINENO)))

/-- The strings of the function at `f` can be read. -/
def FunctionReads (layout : VersionLayout) (f : UInt64) : Prop :=
  TextReads c rem (wordOf rem f func.FUNCTION_NAME) ∧
  ClassReads c rem (wordOf rem f func.SCOPE) ∧
  (byteOf rem f func.TYPE = func.TYPE_USER → TextReads c rem (wordOf rem f layout.opArrayFilename))

/-- The frame at `exAddr` leaves room, where its windows can be read. -/
def FrameFits (layout : VersionLayout) (exAddr : UInt64) : Prop :=
  WindowsReadable rem exAddr → wordOf rem exAddr ex.FUNC ≠ 0 →
    FunctionFits c rem layout (wordOf rem exAddr ex.FUNC) (wordOf rem exAddr ex.OPLINE)

/-- The frame at `exAddr` can be read. -/
def FrameReads (layout : VersionLayout) (exAddr : UInt64) : Prop :=
  WindowsReadable rem exAddr ∧
    (wordOf rem exAddr ex.FUNC ≠ 0 → FunctionReads c rem layout (wordOf rem exAddr ex.FUNC))

/-- The frames from `exAddr` on leave room, as far as a walk of `n` frames gets. -/
def ChainFits (layout : VersionLayout) : ℕ → UInt64 → Prop
  | 0, _ => True
  | n + 1, exAddr =>
    exAddr ≠ 0 → FrameFits c rem layout exAddr ∧
      (FrameReads c rem layout exAddr →
        ChainFits layout n (wordOf rem exAddr ex.PREV_EXECUTE_DATA))

/-- The pointers `capture_stack` follows leave room. -/
def StackFits (t : Target) (maxDepth : ℕ) : Prop :=
  Fits t.executorGlobals t.layout.egCurrentExecuteData ∧
    ∀ exAddr, rem.readU64 (t.executorGlobals + t.layout.egCurrentExecuteData) = .ok exAddr →
      ChainFits c rem t.layout maxDepth exAddr

end Frames

/-! ### Strings, classes and lines -/

section Strings

variable (c : AList fun _ : UInt64 => String) (rem : Remote)

/-- How the walker reads a string in a build with overflow checks. -/
abbrev checkedText : UInt64 → Outcome String := overlay c (readZendString .checked rem)

/-- How it reads one in a release build. -/
abbrev releaseText : UInt64 → Outcome String := overlay c (readZendString .release rem)

theorem tracks_text (a : UInt64) : Tracks (checkedText c rem a) (releaseText c rem a) := by
  unfold checkedText releaseText overlay
  cases c.lookup a with
  | some s => exact Tracks.refl _
  | none => exact tracks_readZendString rem a

theorem noPanic_text_iff {a : UInt64} :
    NoPanic (checkedText c rem a) ↔ (c.lookup a = none → StringFits rem a) := by
  unfold checkedText overlay
  cases c.lookup a with
  | some s => simp [noPanic_ok]
  | none => simp [noPanic_readZendString_iff]

theorem text_eq_ok_iff {a : UInt64} :
    (∃ s, releaseText c rem a = .ok s) ↔ (c.lookup a = none → StringReads rem a) := by
  unfold releaseText overlay
  cases c.lookup a with
  | some s => simp
  | none => simp [readZendString_eq_ok_iff]

variable {c rem} {a : UInt64}

theorem tracks_readName :
    Tracks (readName (checkedText c rem) a) (readName (releaseText c rem) a) :=
  Tracks.ite (Tracks.refl _) (tracks_text c rem a)

theorem noPanic_readName_iff : NoPanic (readName (checkedText c rem) a) ↔ TextFits c rem a := by
  unfold readName TextFits
  rw [noPanic_unless_iff, noPanic_text_iff]

theorem readName_eq_ok_iff :
    (∃ s, readName (releaseText c rem) a = .ok s) ↔ TextReads c rem a := by
  unfold readName TextReads
  by_cases hnull : a = 0
  · simp [hnull]
  · simp [hnull, text_eq_ok_iff]

theorem tracks_readFile :
    Tracks (readFile (checkedText c rem) a) (readFile (releaseText c rem) a) :=
  Tracks.ite (Tracks.refl _) ((tracks_text c rem a).bind fun _ => Tracks.refl _)

theorem noPanic_readFile_iff : NoPanic (readFile (checkedText c rem) a) ↔ TextFits c rem a := by
  unfold readFile TextFits
  rw [noPanic_unless_iff, noPanic_map_iff, noPanic_text_iff]

theorem readFile_eq_ok_iff :
    (∃ s, readFile (releaseText c rem) a = .ok s) ↔ TextReads c rem a := by
  unfold readFile TextReads
  by_cases hnull : a = 0
  · simp [hnull]
  · rw [if_neg hnull, imp_iff_right hnull, exists_bind_eq_ok_iff (P := True), text_eq_ok_iff]
    · exact and_iff_left trivial
    · intro s
      exact iff_of_true ⟨some s, rfl⟩ trivial

theorem tracks_readClass :
    Tracks (readClass (checkedText c rem) .checked rem a)
      (readClass (releaseText c rem) .release rem a) := by
  refine Tracks.ite (Tracks.refl _) ((Tracks.add _ _).bind fun b => ?_)
  refine (Tracks.refl (rem.readU64 b)).bind fun name => Tracks.ite (Tracks.refl _) ?_
  exact (tracks_text c rem name).bind fun _ => Tracks.refl _

theorem noPanic_readClass_iff :
    NoPanic (readClass (checkedText c rem) .checked rem a) ↔ ClassFits c rem a := by
  unfold readClass ClassFits
  simp only [liftM, monadLift_self]
  rw [noPanic_unless_iff, noPanic_add_bind, noPanic_readU64_bind]
  refine imp_congr_right fun _ => and_congr_right fun _ => forall₂_congr fun name _ => ?_
  exact noPanic_readFile_iff

theorem readClass_eq_ok_iff :
    (∃ s, readClass (releaseText c rem) .release rem a = .ok s) ↔ ClassReads c rem a := by
  unfold readClass ClassReads
  simp only [liftM, monadLift_self, Build.release_add, ok_bind]
  by_cases hnull : a = 0
  · simp [hnull]
  · rw [if_neg hnull, imp_iff_right hnull]
    constructor
    · rintro ⟨s, h⟩
      obtain ⟨name, hname, h⟩ := bind_eq_ok.mp h
      exact ⟨name, hname, readFile_eq_ok_iff.mp ⟨s, h⟩⟩
    · rintro ⟨name, hname, h⟩
      obtain ⟨s, hs⟩ := readFile_eq_ok_iff.mpr h
      exact ⟨s, bind_eq_ok.mpr ⟨name, hname, hs⟩⟩

variable {layout : VersionLayout} {opline : UInt64} {funcBuf : List UInt8} {start : UInt32}

theorem tracks_readLine :
    Tracks (readLine .checked rem opline funcBuf layout)
      (readLine .release rem opline funcBuf layout) := by
  refine Tracks.bind (Tracks.ite (Tracks.unwrapOr ?_ _) (Tracks.refl _)) fun line => Tracks.refl _
  exact (Tracks.add _ _).bind fun b => Tracks.refl _

theorem noPanic_readLine_iff (hstart : sliceU32 funcBuf layout.opArrayLineStart = .ok start) :
    NoPanic (readLine .checked rem opline funcBuf layout) ↔
      (opline ≠ 0 → Fits opline op.LINENO) := by
  have hrest : ∀ line : UInt32, NoPanic
      (if line = 0 then sliceU32 funcBuf layout.opArrayLineStart else pure line) := fun line =>
    noPanic_ite (by rw [hstart]; exact noPanic_ok _) (noPanic_ok _)
  unfold readLine oplineLine
  rw [noPanic_bind_iff, and_iff_left fun line _ => hrest line, noPanic_when_iff]
  refine imp_congr_right fun _ => ?_
  rw [noPanic_unwrapOr_iff, noPanic_add_bind, and_iff_left (rem.noPanic_readU32 _)]

theorem readLine_eq_ok (rem : Remote) (opline : UInt64)
    (hstart : sliceU32 funcBuf layout.opArrayLineStart = .ok start) :
    ∃ line, readLine .release rem opline funcBuf layout = .ok line := by
  have hopline : NoPanic (rem.readU32 (opline + op.LINENO)) := rem.noPanic_readU32 _
  have hrest : ∀ line : UInt32, ∃ line',
      (if line = 0 then sliceU32 funcBuf layout.opArrayLineStart else pure line) = .ok line' := by
    intro line
    by_cases hzero : line = 0
    · exact ⟨start, by rw [if_pos hzero, hstart]⟩
    · exact ⟨line, by rw [if_neg hzero]; rfl⟩
  unfold readLine oplineLine
  simp only [Build.release_add, ok_bind, hopline.unwrapOr]
  by_cases hnull : opline ≠ 0
  · rw [if_pos hnull]
    exact hrest _
  · rw [if_neg hnull]
    exact hrest 0

end Strings

/-! ### Frames -/

section Frame

variable (read : UInt64 → Outcome String) (bd : Build) (rem : Remote)

/-- The rest of a frame behind its two windows, when its function is at `f`. -/
def restOfFrame (exAddr f : UInt64) (layout : VersionLayout) (funcBuf : List UInt8) :
    Outcome (Frame × UInt64) := do
  let prev := wordOf rem exAddr ex.PREV_EXECUTE_DATA
  let function ← readName read (wordOf rem f func.FUNCTION_NAME)
  let className ← readClass read bd rem (wordOf rem f func.SCOPE)
  if byteOf rem f func.TYPE = func.TYPE_USER then
    let file ← readFile read (wordOf rem f layout.opArrayFilename)
    let line ← readLine bd rem (wordOf rem exAddr ex.OPLINE) funcBuf layout
    return ({ function, className, file, line }, prev)
  else if byteOf rem f func.TYPE = func.TYPE_INTERNAL then
    return ({ function, className, file := some internInternal, line := 0 }, prev)
  else
    return ({ function, className, file := none, line := 0 }, prev)

/-- **What reading a frame comes to**: an error where a window cannot be read, a frame
without a function, or what is read behind the two windows. -/
theorem readFrameWith_cases (exAddr : UInt64) {layout : VersionLayout}
    (hfile : layout.opArrayFilename.toNat + 8 ≤ FUNC_BUF)
    (hline : layout.opArrayLineStart.toNat + 4 ≤ FUNC_BUF) :
    (¬ WindowsReadable rem exAddr ∧
      ∃ e, readFrameWith read bd rem exAddr layout = (.error (.err e) : Outcome _)) ∨
    (WindowsReadable rem exAddr ∧ wordOf rem exAddr ex.FUNC = 0 ∧
      readFrameWith read bd rem exAddr layout = (.ok (⟨internUnknown, none, none, 0⟩,
        wordOf rem exAddr ex.PREV_EXECUTE_DATA) : Outcome _)) ∨
    (WindowsReadable rem exAddr ∧ wordOf rem exAddr ex.FUNC ≠ 0 ∧
      ∃ funcBuf start, sliceU32 funcBuf layout.opArrayLineStart = .ok start ∧
        readFrameWith read bd rem exAddr layout
          = restOfFrame read bd rem exAddr (wordOf rem exAddr ex.FUNC) layout funcBuf) := by
  by_cases hwin : WindowsReadable rem exAddr
  swap
  · exact Or.inl ⟨hwin, readFrameWith_of_not_windows hwin⟩
  have hwin' := hwin
  obtain ⟨exBuf, hex, hbuf⟩ := hwin'
  have hopline := sliceU64_window ex.OPLINE hex (by decide)
  have hptr := sliceU64_window ex.FUNC hex (by decide)
  have hprev := sliceU64_window ex.PREV_EXECUTE_DATA hex (by decide)
  right
  by_cases hfunc : wordOf rem exAddr ex.FUNC = 0
  · refine Or.inl ⟨hwin, hfunc, ?_⟩
    unfold readFrameWith
    simp only [liftM, monadLift_self, Remote.readArray, hex, hopline, hptr, hprev, ok_bind, hfunc]
    rfl
  · obtain ⟨funcBuf, hbuf⟩ := hbuf _ hptr hfunc
    obtain ⟨start, -, hstart⟩ := fieldU32_eq_slice bd layout.opArrayLineStart hbuf hline
    refine Or.inr ⟨hwin, hfunc, funcBuf, start, hstart, ?_⟩
    -- the fields of the second window
    have htype := byteAt_window func.TYPE hbuf (by decide)
    have hname := sliceU64_window func.FUNCTION_NAME hbuf (by decide)
    have hscope := sliceU64_window func.SCOPE hbuf (by decide)
    have hfptr := sliceU64_window layout.opArrayFilename hbuf hfile
    unfold readFrameWith restOfFrame
    simp only [liftM, monadLift_self, Remote.readArray, hex, hopline, hptr, hprev, ok_bind,
      if_neg hfunc, hbuf, htype, hname, hscope, hfptr]

end Frame

section Walk

variable {c : AList fun _ : UInt64 => String} {rem : Remote} {layout : VersionLayout}
  (hfile : layout.opArrayFilename.toNat + 8 ≤ FUNC_BUF)
  (hline : layout.opArrayLineStart.toNat + 4 ≤ FUNC_BUF)

theorem tracks_readFrameWith (exAddr : UInt64) :
    Tracks (readFrameWith (checkedText c rem) .checked rem exAddr layout : Outcome _)
      (readFrameWith (releaseText c rem) .release rem exAddr layout) := by
  unfold readFrameWith
  simp only [liftM, monadLift_self]
  refine (Tracks.refl _).bind fun exBuf => (Tracks.refl _).bind fun oplinePtr => ?_
  refine (Tracks.refl _).bind fun funcPtr => (Tracks.refl _).bind fun prev => ?_
  refine Tracks.ite (Tracks.refl _) ((Tracks.refl _).bind fun funcBuf => ?_)
  refine (Tracks.refl _).bind fun ftype => (Tracks.refl _).bind fun namePtr => ?_
  refine (Tracks.refl _).bind fun scopePtr => tracks_readName.bind fun function => ?_
  refine tracks_readClass.bind fun className => Tracks.ite ?_ (Tracks.refl _)
  refine (Tracks.refl _).bind fun filePtr => tracks_readFile.bind fun file => ?_
  exact tracks_readLine.bind fun line => Tracks.refl _

include hfile hline

/-- **A frame panics exactly when one of its pointers leaves no room.** -/
theorem noPanic_readFrameWith_iff {exAddr : UInt64} :
    NoPanic (readFrameWith (checkedText c rem) .checked rem exAddr layout : Outcome _) ↔
      FrameFits c rem layout exAddr := by
  unfold FrameFits
  rcases readFrameWith_cases (checkedText c rem) .checked rem exAddr hfile hline with
    ⟨hwin, e, heq⟩ | ⟨hwin, hfunc, heq⟩ | ⟨hwin, hfunc, funcBuf, start, hstart, heq⟩
  · rw [heq]
    exact iff_of_true (by simp [NoPanic]) fun h => absurd h hwin
  · rw [heq]
    exact iff_of_true (noPanic_ok _) fun _ h => absurd hfunc h
  · rw [heq, imp_iff_right hwin, imp_iff_right hfunc]
    unfold restOfFrame FunctionFits
    -- name, class, file and line, each with what is left to do behind it
    rw [tracks_readName.noPanic_step_iff fun function => ?_, noPanic_readName_iff,
      readName_eq_ok_iff]
    rw [tracks_readClass.noPanic_step_iff fun className => ?_, noPanic_readClass_iff,
      readClass_eq_ok_iff]
    by_cases huser : byteOf rem (wordOf rem exAddr ex.FUNC) func.TYPE = func.TYPE_USER
    · rw [if_pos huser, imp_iff_right huser]
      rw [tracks_readFile.noPanic_step_iff fun file => ?_, noPanic_readFile_iff,
        readFile_eq_ok_iff]
      rw [noPanic_map_iff, noPanic_readLine_iff hstart]
    · rw [if_neg huser]
      exact iff_of_true (noPanic_ite (noPanic_ok _) (noPanic_ok _)) fun h => absurd h huser

/-- A frame is returned exactly when its windows and its strings can be read. -/
theorem readFrameWith_eq_ok_iff {exAddr : UInt64} :
    (∃ p, (readFrameWith (releaseText c rem) .release rem exAddr layout : Outcome _) = .ok p) ↔
      FrameReads c rem layout exAddr := by
  unfold FrameReads
  rcases readFrameWith_cases (releaseText c rem) .release rem exAddr hfile hline with
    ⟨hwin, e, heq⟩ | ⟨hwin, hfunc, heq⟩ | ⟨hwin, hfunc, funcBuf, start, hstart, heq⟩
  · rw [heq]
    exact iff_of_false (by simp) fun h => hwin h.1
  · rw [heq]
    exact iff_of_true ⟨_, rfl⟩ ⟨hwin, fun h => absurd hfunc h⟩
  · obtain ⟨line, hline⟩ := readLine_eq_ok rem (wordOf rem exAddr ex.OPLINE) hstart
    rw [heq, and_iff_right hwin, imp_iff_right hfunc]
    unfold restOfFrame FunctionReads
    rw [exists_bind_eq_ok_iff fun function => ?_, readName_eq_ok_iff]
    rw [exists_bind_eq_ok_iff fun className => ?_, readClass_eq_ok_iff]
    by_cases huser : byteOf rem (wordOf rem exAddr ex.FUNC) func.TYPE = func.TYPE_USER
    · rw [if_pos huser, imp_iff_right huser]
      rw [exists_bind_eq_ok_iff (P := True) fun file => ?_, and_iff_left trivial,
        readFile_eq_ok_iff]
      exact iff_of_true ⟨_, bind_eq_ok.mpr ⟨line, hline, rfl⟩⟩ trivial
    · rw [if_neg huser]
      refine iff_of_true ?_ fun h => absurd h huser
      split
      · exact ⟨_, rfl⟩
      · exact ⟨_, rfl⟩

/-- A frame that is returned comes with the pointer to the one before it. -/
theorem prev_of_readFrameWith {exAddr : UInt64} {p : Frame × UInt64}
    (h : readFrameWith (releaseText c rem) .release rem exAddr layout = .ok p) :
    p.2 = wordOf rem exAddr ex.PREV_EXECUTE_DATA := by
  rcases readFrameWith_cases (releaseText c rem) .release rem exAddr hfile hline with
    ⟨-, e, heq⟩ | ⟨-, -, heq⟩ | ⟨-, -, funcBuf, start, -, heq⟩
  · rw [heq] at h
    cases h
  · rw [heq] at h
    rw [← Except.ok.inj h]
  · rw [heq] at h
    obtain ⟨function, -, h⟩ := bind_eq_ok.mp h
    obtain ⟨className, -, h⟩ := bind_eq_ok.mp h
    split at h
    · obtain ⟨file, -, h⟩ := bind_eq_ok.mp h
      obtain ⟨line, -, h⟩ := bind_eq_ok.mp h
      rw [← Except.ok.inj h]
    · split at h
      · rw [← Except.ok.inj h]
      · rw [← Except.ok.inj h]

/-- **A walk panics at the first frame without room, if it gets there.** -/
theorem noPanic_walkFrames_iff : ∀ {n : ℕ} {exAddr : UInt64},
    NoPanic (Target.walkFrames (fun exAddr =>
        (readFrameWith (checkedText c rem) .checked rem exAddr layout : Outcome _)) n exAddr) ↔
      ChainFits c rem layout n exAddr := by
  intro n
  induction n with
  | zero => intro exAddr; exact iff_of_true (noPanic_ok _) trivial
  | succ n ih =>
    intro exAddr
    unfold Target.walkFrames ChainFits
    rw [noPanic_unless_iff]
    refine imp_congr_right fun _ => ?_
    refine ((tracks_readFrameWith exAddr).noPanic_attempt_bind ?_).trans ?_
    · exact noPanic_ok []
    rw [noPanic_readFrameWith_iff hfile hline]
    refine and_congr_right fun _ => ?_
    rw [← readFrameWith_eq_ok_iff hfile hline, forall_exists_index]
    refine forall₂_congr fun p hp => ?_
    rw [noPanic_map_iff, ih, prev_of_readFrameWith hfile hline hp]

end Walk

/-! ### Stacks -/

/-- A walker reads a stack as one without a cache does that takes the cached strings as
they are, whatever the size of the cache. -/
theorem outcome_captureStack (bd : Build) (rem : Remote) (t : Target) (maxDepth : ℕ)
    (w : StackWalker) :
    outcome (t.captureStack bd rem maxDepth w) =
      t.captureStackWith (overlay w.stringCache (readZendString bd rem)) bd rem maxDepth := by
  have hread := StackWalker.readZstringCached_agrees_of_le w.stringCache bd rem
    (Nat.le_max_left StackWalker.CACHE_BOUND w.stringCache.entries.length)
  exact (captureStackWith_agrees hread bd rem t maxDepth w (Grown.refl (Nat.le_max_right _ _))).1

/-- **`capture_stack` does not panic exactly when the pointers it follows leave room.** -/
theorem noPanic_captureStack_iff {rem : Remote} {t : Target} {maxDepth : ℕ} {w : StackWalker}
    (hfile : t.layout.opArrayFilename.toNat + 8 ≤ FUNC_BUF)
    (hline : t.layout.opArrayLineStart.toNat + 4 ≤ FUNC_BUF) :
    NoPanic (outcome (t.captureStack .checked rem maxDepth w)) ↔
      StackFits w.stringCache rem t maxDepth := by
  rw [outcome_captureStack]
  unfold Target.captureStackWith currentExecuteData StackFits
  simp only [liftM, monadLift_self, bind_assoc]
  rw [noPanic_add_bind, noPanic_readU64_bind]
  refine and_congr_right fun _ => forall₂_congr fun exAddr _ => ?_
  exact noPanic_walkFrames_iff hfile hline

/-- **When the sampler's reads do not panic with overflow checks**: whatever the memory,
the executor globals, the picked layout, the depth, the key and the cached strings, the
two calls return or report an error exactly when every pointer they follow leaves room
for the fields that are read behind it. -/
theorem overflow_iff (rem : Remote) (executorGlobals : UInt64) (env : Env) (version : String)
    (layout : VersionLayout) (hpick : pick env version = some layout) (maxDepth : ℕ) (key : String)
    (w : StackWalker) :
    let t : Target := ⟨executorGlobals, layout⟩
    NoPanic (outcome (t.captureStack .checked rem maxDepth w)) ∧
        NoPanic (t.requestVar .checked rem key) ↔
      StackFits w.stringCache rem t maxDepth ∧ RequestFits rem t key := by
  intro t
  obtain ⟨hfile, hline⟩ := pick_opArray_le hpick
  rw [noPanic_captureStack_iff hfile hline, noPanic_requestVar_iff]

/-- The pointers in the memory of `namedCall` leave room, in the stack and in the empty
symbol table. -/
theorem overflow_iff_namedCall :
    let t : Target := ⟨0, layout8_3⟩
    StackFits ∅ (namedCall 0x61) t 100 ∧ RequestFits (namedCall 0x61) t "REQUEST_URI" :=
  (overflow_iff (namedCall 0x61) 0 ⟨none, none⟩ "8.3.1" layout8_3 (by decide) 100 "REQUEST_URI"
    .new).mp (by unfold NoPanic; decide +kernel)

/-- The memory of `namedCall` where the function has a class, at the last address. -/
def classAtTheEnd : Remote :=
  Remote.zeroExcept [(489, 0x04), (0x419, 0x05), (0x500, 1), (0x509, 0x06), (0x610, 1),
    (0x618, 0x61), (0x510, 0xFF), (0x511, 0xFF), (0x512, 0xFF), (0x513, 0xFF), (0x514, 0xFF),
    (0x515, 0xFF), (0x516, 0xFF), (0x517, 0xFF)]

/-- **A class pointer that panics**: the offset of the name does not fit behind it.  In a
release build the sum wraps around to an address that is read. -/
theorem overflow_panics :
    let t : Target := ⟨0, layout8_3⟩
    outcome (t.captureStack .checked classAtTheEnd 100 .new) = .error .panic ∧
      outcome (t.captureStack .release classAtTheEnd 100 .new)
        = .ok [⟨"a", none, some "<internal>", 0⟩] := by
  decide +kernel

end PhpFastProfile
