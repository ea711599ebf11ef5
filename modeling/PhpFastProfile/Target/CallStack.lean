import PhpFastProfile.Target.Overflow
import PhpFastProfile.HashTable.Encoding

/-!
# Encoded call stacks

What PHP executes is a stack of calls, each of a function with its class, its code and
the line it has got to.  In memory this is a chain of execute-data records that ends with
a null pointer.  `capture_stack` reads the calls off it again, one frame for each, as many
as the depth allows.  It does so also through a cache, as long as the strings in the cache
are those in memory.

PHP lays out no more than the fields of its records.  The walk reads windows of a fixed
size around them, and where a window reaches into memory that cannot be read it stops;
that it does not is a hypothesis of its own.

## Main definitions

* `PhpCall`, `PhpCall.frame` — a call, and the frame that shows it.
* `StackAt rem layout ex calls` — the memory holds the calls, the innermost at `ex`.
* `RunsAt rem t calls` — these are the calls the target executes.
* `Target.WindowsOpen rem t n` — the windows of the first `n` records can be read.
* `ReadsTexts rem read` — `read` reads the strings of the memory.

## Main results

* `CallAt.readFrame_eq` — one record is read as one frame.
* `captureStack_decodes` — **`capture_stack` returns the calls that are executed.**
-/

namespace PhpFastProfile

open Memo

/-! ### Calls -/

/-- The code of a function. -/
inductive PhpCode where
  /-- A PHP function, with its file and the line it starts on. -/
  | user (file : Option (List UInt8)) (lineStart : UInt32)
  | internal
  /-- Neither of the two, with its tag. -/
  | other (tag : UInt8) (ne_user : tag ≠ func.TYPE_USER) (ne_internal : tag ≠ func.TYPE_INTERNAL)

/-- A function of PHP. -/
structure PhpFunction where
  /-- The bytes of its name; top-level code has none. -/
  name : Option (List UInt8)
  /-- Its class, which has a name unless it is damaged. -/
  scope : Option (Option (List UInt8))
  code : PhpCode

/-- A call that is being executed. -/
structure PhpCall where
  function : Option PhpFunction
  /-- The line of the instruction it has got to, where that can be read. -/
  line : Option UInt32

/-- A string as it is shown: at most 4096 bytes of it. -/
def shown (bytes : List UInt8) : String := Utf8.fromUtf8Lossy (bytes.take MAX_STR_LEN)

namespace PhpCall

/-- The line that is shown for a PHP function. -/
def userLine (line : Option UInt32) (lineStart : UInt32) : UInt32 :=
  if line.getD 0 = 0 then lineStart else line.getD 0

/-- The frame that shows a call of the function. -/
def functionFrame (f : PhpFunction) (line : Option UInt32) : Frame where
  function := (f.name.map shown).getD internMain
  className := f.scope.join.map shown
  file :=
    match f.code with
    | .user file _ => file.map shown
    | .internal => some internInternal
    | .other _ _ _ => none
  line :=
    match f.code with
    | .user _ lineStart => userLine line lineStart
    | .internal | .other _ _ _ => 0

/-- The frame that shows a call. -/
def frame (c : PhpCall) : Frame :=
  match c.function with
  | none => ⟨internUnknown, none, none, 0⟩
  | some f => functionFrame f c.line

end PhpCall

/-! ### Their encoding -/

section Encoding

variable (rem : Remote) (texts : Set UInt64) (layout : VersionLayout)

/-- The pointer `p` is null, or to a string with these bytes that is among the `texts`. -/
def TextAt (p : UInt64) : Option (List UInt8) → Prop
  | none => p = 0
  | some bytes => p ≠ 0 ∧ p ∈ texts ∧ StringAt rem p bytes

/-- The pointer `p` is null, or to a class whose name is this one. -/
def ScopeAt (p : UInt64) : Option (Option (List UInt8)) → Prop
  | none => p = 0
  | some name => p ≠ 0 ∧ ∃ q, rem.readU64 (p + ce.NAME) = .ok q ∧ TextAt rem texts q name

/-- The function at `f` has this code. -/
def CodeAt (f : UInt64) : PhpCode → Prop
  | .user file lineStart => fieldU8 .release rem f func.TYPE = .ok func.TYPE_USER ∧
    (∃ p, rem.readU64 (f + layout.opArrayFilename) = .ok p ∧ TextAt rem texts p file) ∧
    rem.readU32 (f + layout.opArrayLineStart) = .ok lineStart
  | .internal => fieldU8 .release rem f func.TYPE = .ok func.TYPE_INTERNAL
  | .other tag _ _ => fieldU8 .release rem f func.TYPE = .ok tag

/-- The memory holds the function at `f`. -/
structure FunctionAt (f : UInt64) (fn : PhpFunction) : Prop where
  name : ∃ p, rem.readU64 (f + func.FUNCTION_NAME) = .ok p ∧ TextAt rem texts p fn.name
  scope : ∃ p, rem.readU64 (f + func.SCOPE) = .ok p ∧ ScopeAt rem texts p fn.scope
  code : CodeAt rem texts layout f fn.code

/-- The instruction at `opline` is on this line; there is none to read at a null pointer,
nor where the memory cannot be read. -/
def LineAt (opline : UInt64) : Option UInt32 → Prop
  | none => opline = 0 ∨ ∃ e, rem.readU32 (opline + op.LINENO) = .error e
  | some line => opline ≠ 0 ∧ rem.readU32 (opline + op.LINENO) = .ok line

/-- The record at `exAddr` is of the call `c`, and the record of its caller is at `prev`. -/
structure CallAt (exAddr prev : UInt64) (c : PhpCall) : Prop where
  opline : ∃ p, rem.readU64 (exAddr + ex.OPLINE) = .ok p ∧ LineAt rem p c.line
  function : ∃ f, rem.readU64 (exAddr + ex.FUNC) = .ok f ∧
    match c.function with
    | none => f = 0
    | some fn => f ≠ 0 ∧ FunctionAt rem texts layout f fn
  prev : rem.readU64 (exAddr + ex.PREV_EXECUTE_DATA) = .ok prev

/-- The calls are in memory, the innermost at `exAddr`, and behind the last of them is a
null pointer. -/
def StackAt (exAddr : UInt64) : List PhpCall → Prop
  | [] => exAddr = 0
  | c :: calls => exAddr ≠ 0 ∧ ∃ prev, CallAt rem texts layout exAddr prev c ∧ StackAt prev calls

/-- The target executes these calls, the innermost first. -/
def RunsAt (t : Target) (calls : List PhpCall) : Prop :=
  ∃ exAddr, rem.readU64 (t.executorGlobals + t.layout.egCurrentExecuteData) = .ok exAddr ∧
    StackAt rem texts t.layout exAddr calls

/-- The windows of the first `n` records of the chain can be read: the 64 bytes of each, and
the 192 bytes of its function. -/
def ChainOpen (rem : Remote) : ℕ → UInt64 → Prop
  | 0, _ => True
  | n + 1, exAddr => exAddr = 0 ∨ (WindowsReadable rem exAddr ∧
      ∀ prev, rem.readU64 (exAddr + ex.PREV_EXECUTE_DATA) = .ok prev → ChainOpen rem n prev)

/-- The windows of the first `n` records of the target can be read. -/
def Target.WindowsOpen (rem : Remote) (t : Target) (n : ℕ) : Prop :=
  ∀ exAddr, rem.readU64 (t.executorGlobals + t.layout.egCurrentExecuteData) = .ok exAddr →
    ChainOpen rem n exAddr

/-- From a walker of `I`, the strings among the `texts` are read as they are. -/
def ReadsTexts (I : StackWalker → Prop) (read : UInt64 → EStateM Stop StackWalker String) : Prop :=
  ∀ p ∈ texts, ∀ bytes, StringAt rem p bytes → Agrees I (read p) (.ok (shown bytes))

end Encoding

/-! ### Reading one record -/

section Reading

variable {rem : Remote} {texts : Set UInt64} {layout : VersionLayout} {I : StackWalker → Prop}
  {read : UInt64 → EStateM Stop StackWalker String}

theorem attempt_agrees_ok {α : Type} {x : EStateM Stop StackWalker α} {a : α}
    (h : Agrees I x (.ok a)) : Agrees I (attempt x) (.ok (some a)) :=
  attempt_agrees h

section Texts

variable (hread : ReadsTexts rem texts I read)

include hread

theorem TextAt.readName_agrees {p : UInt64} {name : Option (List UInt8)}
    (h : TextAt rem texts p name) :
    Agrees I (readName read p) (.ok ((name.map shown).getD internMain)) := by
  cases name with
  | none =>
    rw [readName, if_pos (show p = 0 from h)]
    exact Agrees.pure _
  | some bytes =>
    obtain ⟨hne, hmem, htext⟩ := h
    rw [readName, if_neg hne]
    exact hread p hmem bytes htext

theorem TextAt.readFile_agrees {p : UInt64} {file : Option (List UInt8)}
    (h : TextAt rem texts p file) : Agrees I (readFile read p) (.ok (file.map shown)) := by
  cases file with
  | none =>
    rw [readFile, if_pos (show p = 0 from h)]
    exact Agrees.pure _
  | some bytes =>
    obtain ⟨hne, hmem, htext⟩ := h
    rw [readFile, if_neg hne]
    exact (hread p hmem bytes htext).bind_ok (Agrees.pure _)

/-- A class is read like a file, one pointer further on. -/
theorem ScopeAt.readClass_agrees {p : UInt64} {scope : Option (Option (List UInt8))}
    (h : ScopeAt rem texts p scope) :
    Agrees I (readClass read .release rem p) (.ok (scope.join.map shown)) := by
  unfold readClass
  cases scope with
  | none =>
    rw [if_pos (show p = 0 from h)]
    exact Agrees.pure _
  | some name =>
    obtain ⟨hne, q, hq, htext⟩ := h
    rw [if_neg hne]
    refine (Agrees.liftM_eq (Build.release_add _ _)).bind_ok ?_
    exact (Agrees.liftM_eq hq).bind_ok (htext.readFile_agrees hread)

end Texts

/-- The line of a PHP function. -/
theorem LineAt.readLine_eq {opline : UInt64} {line : Option UInt32} (h : LineAt rem opline line)
    {funcBuf : List UInt8} {lineStart : UInt32}
    (hstart : sliceU32 funcBuf layout.opArrayLineStart = .ok lineStart) :
    readLine .release rem opline funcBuf layout = .ok (PhpCall.userLine line lineStart) := by
  have hline : oplineLine .release rem opline = .ok (line.getD 0) := by
    unfold oplineLine
    simp only [Build.release_add, ok_bind]
    cases line with
    | none =>
      rcases h with rfl | ⟨e, he⟩
      · rfl
      · rw [(rem.noPanic_readU32 _).unwrapOr, he]
        split <;> rfl
    | some line =>
      rw [if_pos h.1, h.2]
      rfl
  rw [readLine, hline, ok_bind, PhpCall.userLine, hstart]
  split <;> rfl

/-- A field of a window is the one in memory. -/
theorem sliceU64_eq {base off v : UInt64} {len : ℕ} {buf : List UInt8}
    (h : rem.read base len = .ok buf) (hoff : off.toNat + 8 ≤ len)
    (hv : rem.readU64 (base + off) = .ok v) : sliceU64 buf off = .ok v := by
  obtain ⟨v', hv', hslice⟩ := fieldU64_eq_slice .release off h hoff
  rw [hslice, ← hv', ← hv]
  rfl

section Record

variable (hread : ReadsTexts rem texts I read)
  (hfile : layout.opArrayFilename.toNat + 8 ≤ FUNC_BUF)
  (hline : layout.opArrayLineStart.toNat + 4 ≤ FUNC_BUF)

include hread hfile hline

/-- **One record is read as one frame**, and the pointer to the record of its caller. -/
theorem CallAt.readFrame_agrees {exAddr prev : UInt64} {c : PhpCall}
    (h : CallAt rem texts layout exAddr prev c) (hwin : WindowsReadable rem exAddr) :
    Agrees I (readFrameWith read .release rem exAddr layout) (.ok (c.frame, prev)) := by
  obtain ⟨exBuf, hex, hfunc⟩ := hwin
  obtain ⟨opline, hopline, hlineAt⟩ := h.opline
  obtain ⟨f, hf, hfn⟩ := h.function
  unfold readFrameWith PhpCall.frame
  refine (Agrees.liftM_eq hex).bind_ok ?_
  refine (Agrees.liftM_eq (sliceU64_eq hex (by decide) hopline)).bind_ok ?_
  refine (Agrees.liftM_eq (sliceU64_eq hex (by decide) hf)).bind_ok ?_
  refine (Agrees.liftM_eq (sliceU64_eq hex (by decide) h.prev)).bind_ok ?_
  cases hc : c.function with
  | none =>
    rw [hc] at hfn
    rw [if_pos hfn]
    exact Agrees.pure _
  | some fn =>
    rw [hc] at hfn
    obtain ⟨hne, ⟨p, hp, hname⟩, ⟨q, hq, hscope⟩, hcode⟩ := hfn
    obtain ⟨funcBuf, hbuf⟩ := hfunc f (sliceU64_eq hex (by decide) hf) hne
    obtain ⟨tag, htag, htag'⟩ := fieldU8_eq_byteAt .release func.TYPE hbuf (by decide)
    rw [if_neg hne]
    refine (Agrees.liftM_eq hbuf).bind_ok ((Agrees.liftM_eq htag').bind_ok ?_)
    refine (Agrees.liftM_eq (sliceU64_eq hbuf (by decide) hp)).bind_ok ?_
    refine (Agrees.liftM_eq (sliceU64_eq hbuf (by decide) hq)).bind_ok ?_
    refine (hname.readName_agrees hread).bind_ok ((hscope.readClass_agrees hread).bind_ok ?_)
    obtain ⟨name, scope, code⟩ := fn
    cases code with
    | user file lineStart =>
      obtain ⟨htype, ⟨r, hr, htext⟩, hstart⟩ := hcode
      obtain ⟨v, hv, hslice⟩ := fieldU32_eq_slice .release layout.opArrayLineStart hbuf hline
      have hsame : fieldU32 .release rem f layout.opArrayLineStart = .ok lineStart := hstart
      obtain rfl := Except.ok.inj (hv.symm.trans hsame)
      rw [if_pos (Except.ok.inj (htag.symm.trans htype))]
      refine (Agrees.liftM_eq (sliceU64_eq hbuf hfile hr)).bind_ok ?_
      refine (htext.readFile_agrees hread).bind_ok ?_
      exact (Agrees.liftM_eq (hlineAt.readLine_eq hslice)).bind_ok (Agrees.pure _)
    | internal =>
      obtain rfl := Except.ok.inj (htag.symm.trans hcode)
      rw [if_neg (by decide), if_pos rfl]
      exact Agrees.pure _
    | other tag' ne_user ne_internal =>
      obtain rfl := Except.ok.inj (htag.symm.trans hcode)
      rw [if_neg ne_user, if_neg ne_internal]
      exact Agrees.pure _

/-- **The walk returns the calls**, as many as the depth allows. -/
theorem StackAt.walkFrames_agrees (n : ℕ) {exAddr : UInt64} {calls : List PhpCall}
    (h : StackAt rem texts layout exAddr calls) (hwin : ChainOpen rem n exAddr) :
    Agrees I (Target.walkFrames (fun ex => readFrameWith read .release rem ex layout) n exAddr)
      (.ok ((calls.take n).map PhpCall.frame)) := by
  induction n generalizing exAddr calls with
  | zero => exact Agrees.pure _
  | succ n ih =>
    rw [Target.walkFrames]
    cases calls with
    | nil =>
      rw [if_pos (show exAddr = 0 from h)]
      exact Agrees.pure _
    | cons c calls =>
      obtain ⟨hne, prev, hcall, hrest⟩ := h
      obtain ⟨hopen, hnext⟩ := hwin.resolve_left hne
      rw [if_neg hne]
      refine (attempt_agrees_ok (hcall.readFrame_agrees hread hfile hline hopen)).bind_ok ?_
      exact (ih hrest (hnext prev hcall.prev)).bind_ok (Agrees.pure _)

end Record

/-- **`capture_stack` returns the calls**, with every walker that reads their strings as
they are. -/
theorem RunsAt.captureStack_agrees {t : Target} {calls : List PhpCall}
    (h : RunsAt rem texts t calls)
    (hread : ReadsTexts rem texts I (StackWalker.readZstringCached .release rem))
    (hfile : t.layout.opArrayFilename.toNat + 8 ≤ FUNC_BUF)
    (hline : t.layout.opArrayLineStart.toNat + 4 ≤ FUNC_BUF) {maxDepth : ℕ}
    (hwin : t.WindowsOpen rem maxDepth) :
    Agrees I (t.captureStack .release rem maxDepth)
      (.ok ((calls.take maxDepth).map PhpCall.frame)) := by
  obtain ⟨exAddr, hcurrent, hstack⟩ := h
  have hex : currentExecuteData .release rem t.executorGlobals t.layout = .ok exAddr := by
    rw [currentExecuteData, Build.release_add, ok_bind]
    exact hcurrent
  exact (Agrees.liftM_eq hex).bind_ok
    (hstack.walkFrames_agrees hread hfile hline maxDepth (hwin exAddr hcurrent))

end Reading

/-! ### The walker -/

/-- A cached read keeps what is known of the entries, where the string is one of those
known, and the entry for its address as well. -/
theorem readZstringCached_agrees_of_entries {P : UInt64 → String → Prop} {rem : Remote}
    {p : UInt64} {s : String} (hs : readZendString .release rem p = .ok s) (hp : P p s)
    (hsame : ∀ s', P p s' → s' = s) :
    Agrees (fun w : StackWalker => ∀ q s', w.stringCache.lookup q = some s' → P q s')
      (StackWalker.readZstringCached .release rem p) (.ok s) := by
  intro w hw
  unfold StackWalker.readZstringCached
  cases hlookup : w.stringCache.lookup p with
  | some s' =>
    rw [hsame s' (hw p s' hlookup)]
    exact ⟨rfl, hw⟩
  | none =>
    rw [hs]
    dsimp only
    split
    · refine ⟨rfl, fun q s' hq => ?_⟩
      by_cases hne : q = p
      · subst hne
        obtain rfl := Option.some.inj ((AList.lookup_insert _).symm.trans hq)
        exact hp
      · exact hw q s' ((AList.lookup_insert_ne hne).symm.trans hq)
    · exact ⟨rfl, hw⟩

/-- What a cache may hold for these strings. -/
def Current (rem : Remote) (texts : Set UInt64) (p : UInt64) (s : String) : Prop :=
  p ∈ texts → ∀ bytes, StringAt rem p bytes → s = shown bytes

theorem readsTexts_current (rem : Remote) (texts : Set UInt64) :
    ReadsTexts rem texts (fun w => ∀ p s, w.stringCache.lookup p = some s → Current rem texts p s)
      (StackWalker.readZstringCached .release rem) := by
  intro p hmem bytes h
  refine readZstringCached_agrees_of_entries h.read_eq (fun _ bytes' h' => ?_) fun s' hs' =>
    hs' hmem bytes h
  exact Except.ok.inj (h.read_eq.symm.trans h'.read_eq)

/-- A script `f` that has called the method `C::a`, with its globals at `0x403110`. -/
def methodCall : Remote :=
  Remote.zeroExcept [(0x4032F9, 0x04), (0x401, 0x09), (0x419, 0x05), (0x431, 0x07), (0x500, 2),
    (0x509, 0x06), (0x510, 0x50), (0x511, 0x06), (0x590, 0x80), (0x591, 0x06), (0x598, 5),
    (0x610, 1), (0x618, 0x61), (0x658, 0xA0), (0x659, 0x06), (0x690, 1), (0x698, 0x66), (0x6B0, 1),
    (0x6B8, 0x43), (0x719, 0x08), (0x800, 2), (0x890, 0x80), (0x891, 0x06), (0x898, 1), (0x918, 7)]

/-- A method that top-level code has called. -/
def methodCalls : List PhpCall :=
  [⟨some ⟨some [0x61], some (some [0x43]), .user (some [0x66]) 5⟩, some 7⟩,
    ⟨some ⟨none, none, .user (some [0x66]) 1⟩, none⟩]

theorem runsAt_methodCall :
    RunsAt methodCall {0x600, 0x680, 0x6A0} ⟨0x403110, layout8_3⟩ methodCalls := by
  have hfile : TextAt methodCall {0x600, 0x680, 0x6A0} 0x680 (some [0x66]) :=
    ⟨by decide, .inr (.inl rfl), by decide, rfl, rfl⟩
  have hmethod : FunctionAt methodCall {0x600, 0x680, 0x6A0} layout8_3 0x500
      ⟨some [0x61], some (some [0x43]), .user (some [0x66]) 5⟩ :=
    { name := ⟨0x600, rfl, by decide, .inl rfl, by decide, rfl, rfl⟩
      scope := ⟨0x650, rfl, by decide, 0x6A0, rfl, by decide, .inr (.inr rfl), by decide, rfl, rfl⟩
      code := ⟨rfl, ⟨0x680, rfl, hfile⟩, rfl⟩ }
  have hscript : FunctionAt methodCall {0x600, 0x680, 0x6A0} layout8_3 0x800
      ⟨none, none, .user (some [0x66]) 1⟩ :=
    { name := ⟨0, rfl, rfl⟩
      scope := ⟨0, rfl, rfl⟩
      code := ⟨rfl, ⟨0x680, rfl, hfile⟩, rfl⟩ }
  refine ⟨0x400, rfl, by decide, 0x700, ?_, by decide, 0, ?_, rfl⟩
  · exact ⟨⟨0x900, rfl, by decide, rfl⟩, ⟨0x500, rfl, by decide, hmethod⟩, rfl⟩
  · exact ⟨⟨0, rfl, Or.inl rfl⟩, ⟨0x800, rfl, by decide, hscript⟩, rfl⟩

/-- All of this memory can be read. -/
theorem windowsReadable_zeroExcept {cells : List (ℕ × UInt8)} {exAddr f : UInt64}
    (hex : exAddr.toNat + EX_BUF ≤ 2 ^ 64)
    (hf : (Remote.zeroExcept cells).readU64 (exAddr + ex.FUNC) = .ok f)
    (hfunc : f.toNat + FUNC_BUF ≤ 2 ^ 64) : WindowsReadable (Remote.zeroExcept cells) exAddr := by
  obtain ⟨buf, hbuf⟩ := Remote.exists_read_zeroExcept cells hex
  refine ⟨buf, hbuf, fun ptr hptr _ => ?_⟩
  obtain rfl := Except.ok.inj (hptr.symm.trans (sliceU64_eq hbuf (by decide) hf))
  exact Remote.exists_read_zeroExcept cells hfunc

theorem windowsOpen_methodCall (n : ℕ) :
    Target.WindowsOpen methodCall ⟨0x403110, layout8_3⟩ n := by
  rintro exAddr hex
  obtain rfl : 0x400 = exAddr := Except.ok.inj hex
  cases n with
  | zero => trivial
  | succ n =>
    refine Or.inr ⟨windowsReadable_zeroExcept (f := 0x500) (by decide) rfl (by decide), ?_⟩
    rintro prev hprev
    obtain rfl : 0x700 = prev := Except.ok.inj hprev
    cases n with
    | zero => trivial
    | succ n =>
      refine Or.inr ⟨windowsReadable_zeroExcept (f := 0x800) (by decide) rfl (by decide), ?_⟩
      rintro prev hprev
      obtain rfl : 0 = prev := Except.ok.inj hprev
      cases n with
      | zero => trivial
      | succ n => exact Or.inl rfl

end PhpFastProfile
