import PhpFastProfile.Target.Overflow
import Mathlib.Data.Seq.Basic

/-!
# The chain of frames

The execute-data records of a process form a chain through their `prev` pointers,
which can be of any length and can come back to where it was: the memory is read while
the target runs.  `capture_stack` returns the first frames of this chain, as many as
the depth allows; a null pointer ends the chain, and so does a frame that cannot be
read.

## Main definitions

* `link` — the frame at an address, and the pointer to the one before.
* `frameChain` — the frames behind a pointer, which need not come to an end.
* `pointer`, `WalksChain` — the chain and the walk, pointer by pointer.

## Main results

* `walkFrames_eq_take` — the walk takes the first frames of the chain.
* `captureStack_chain` — **every walker that has only read one memory returns the
  chain of that memory, and a smaller depth a smaller part of it.**
-/

namespace PhpFastProfile

open Memo Stream'

/-! ### Reading a frame in a release build -/

section Release

variable (rem : Remote) {layout : VersionLayout}

theorem noPanic_readName (namePtr : UInt64) :
    NoPanic (readName (readZendString .release rem) namePtr) :=
  noPanic_ite (noPanic_ok _) (noPanic_readZendString rem namePtr)

theorem noPanic_readFile (filePtr : UInt64) :
    NoPanic (readFile (readZendString .release rem) filePtr) :=
  noPanic_ite (noPanic_ok _) <|
    noPanic_bind (noPanic_readZendString rem filePtr) fun _ => noPanic_ok _

theorem noPanic_readClass (scopePtr : UInt64) :
    NoPanic (readClass (readZendString .release rem) .release rem scopePtr) := by
  unfold readClass
  simp only [liftM, monadLift_self, Build.release_add, ok_bind]
  apply noPanic_ite (noPanic_ok _)
  apply noPanic_bind (rem.noPanic_readU64 _)
  intro classNamePtr
  exact noPanic_readFile rem classNamePtr

/-- Reading a frame reports an error, or returns it. -/
theorem noPanic_readFrame (hfile : layout.opArrayFilename.toNat + 8 ≤ FUNC_BUF)
    (hline : layout.opArrayLineStart.toNat + 4 ≤ FUNC_BUF) (exAddr : UInt64) :
    NoPanic (readFrameWith (readZendString .release rem) .release rem exAddr layout) := by
  rcases readFrameWith_cases (readZendString .release rem) .release rem exAddr hfile hline with
    ⟨-, e, heq⟩ | ⟨-, -, heq⟩ | ⟨-, -, funcBuf, start, hstart, heq⟩
  · rw [heq]
    simp [NoPanic]
  · rw [heq]
    exact noPanic_ok _
  · rw [heq, restOfFrame]
    refine noPanic_bind (noPanic_readName rem _) fun function => ?_
    refine noPanic_bind (noPanic_readClass rem _) fun className => noPanic_ite ?_ ?_
    · refine noPanic_bind (noPanic_readFile rem _) fun file => ?_
      obtain ⟨line, hread⟩ := readLine_eq_ok rem (wordOf rem exAddr ex.OPLINE) hstart
      rw [hread]
      exact noPanic_ok _
    · exact noPanic_ite (noPanic_ok _) (noPanic_ok _)

end Release

/-! ### The chain -/

namespace Target

variable (rem : Remote) (layout : VersionLayout)

/-- The frame at an address and the pointer to the one before it: none at a null
pointer, and none where the frame cannot be read. -/
def link (ex : UInt64) : Option (Frame × UInt64) :=
  if ex = 0 then none
  else (readFrameWith (readZendString .release rem) .release rem ex layout : Outcome _).toOption

/-- The frames behind a pointer. -/
def frameChain (ex : UInt64) : Seq Frame := .corec (link rem layout) ex

/-- The pointer to frame `i` of the chain, `none` when the chain has ended before. -/
def pointer (ex : UInt64) : ℕ → Option UInt64
  | 0 => some ex
  | i + 1 => (pointer ex i).bind fun ex => (link rem layout ex).map Prod.snd

/-- Frame `i` of the chain. -/
def frameAt (ex : UInt64) (i : ℕ) : Option Frame :=
  (pointer rem layout ex i).bind fun ex => (link rem layout ex).map Prod.fst

variable {rem layout}

/-- The chain goes on behind its first frame. -/
theorem pointer_succ (ex : UInt64) (i : ℕ) :
    pointer rem layout ex (i + 1) =
      (link rem layout ex).bind fun p => pointer rem layout p.2 i := by
  induction i with
  | zero => cases hlink : link rem layout ex <;> simp [pointer, hlink]
  | succ i ih =>
    rw [pointer, ih, Option.bind_assoc]
    rfl

/-- The sequence of the frames has frame `i` at `i`. -/
theorem get?_frameChain (ex : UInt64) (i : ℕ) :
    (frameChain rem layout ex).get? i = frameAt rem layout ex i := by
  induction i generalizing ex with
  | zero =>
    unfold frameChain frameAt pointer
    cases hlink : link rem layout ex with
    | none => simp [Seq.corec_nil _ _ hlink, hlink]
    | some p => simp [Seq.corec_cons hlink, hlink]
  | succ i ih =>
    unfold frameChain frameAt at ih ⊢
    rw [pointer_succ]
    cases hlink : link rem layout ex with
    | none => simp [Seq.corec_nil _ _ hlink]
    | some p => simpa [Seq.corec_cons hlink] using ih p.2

/-- **The walk takes the first frames of the chain.** -/
theorem walkFrames_eq_take (hfile : layout.opArrayFilename.toNat + 8 ≤ FUNC_BUF)
    (hline : layout.opArrayLineStart.toNat + 4 ≤ FUNC_BUF) (n : ℕ) (ex : UInt64) :
    walkFrames (fun ex =>
        (readFrameWith (readZendString .release rem) .release rem ex layout : Outcome _)) n ex =
      .ok ((frameChain rem layout ex).take n) := by
  induction n generalizing ex with
  | zero => rfl
  | succ n ih =>
    rw [walkFrames, attempt_eq (noPanic_readFrame rem hfile hline ex)]
    by_cases hnull : ex = 0
    · have hlink : link rem layout ex = none := if_pos hnull
      rw [if_pos hnull, frameChain, Seq.corec_nil _ _ hlink, Seq.take_nil]
      rfl
    · rw [if_neg hnull, ok_bind]
      cases hread : (readFrameWith (readZendString .release rem) .release rem ex layout :
          Outcome _).toOption with
      | none =>
        have hlink : link rem layout ex = none := (if_neg hnull).trans hread
        rw [frameChain, Seq.corec_nil _ _ hlink, Seq.take_nil]
        rfl
      | some p =>
        have hlink : link rem layout ex = some (p.1, p.2) := (if_neg hnull).trans hread
        rw [frameChain, Seq.corec_cons hlink, Seq.take_succ_cons]
        dsimp only
        rw [ih]
        rfl

end Target

/-! ### The walk of a walker -/

/-- What `capture_stack` returns for the chain of a memory: an error exactly where the
current execute data cannot be read, and else at most `maxDepth` frames, which are
those of the chain. -/
structure WalksChain (rem : Remote) (t : Target) (maxDepth : ℕ) (r : Outcome (List Frame)) :
    Prop where
  fails_iff : (∃ e, r = .error (.err e)) ↔
    ∃ e, rem.readU64 (t.executorGlobals + t.layout.egCurrentExecuteData) = .error e
  returns : ∀ ex, rem.readU64 (t.executorGlobals + t.layout.egCurrentExecuteData) = .ok ex →
    ∃ frames, r = .ok frames ∧ frames.length ≤ maxDepth ∧
      ∀ i, frames[i]? = if i < maxDepth then Target.frameAt rem t.layout ex i else none

/-- The links of the chain are what `read_frame` returns, with the cache of a walker that
has read no other memory. -/
theorem link_eq_readFrame {rem : Remote} {w : StackWalker} (hw : StackWalker.Over ∅ .release rem w)
    {layout : VersionLayout} {ex : UInt64} (hne : ex ≠ 0) :
    Target.link rem layout ex =
      (outcome (StackWalker.readFrame .release rem ex layout w)).toOption := by
  rw [(StackWalker.readFrame_agrees ∅ .release rem ex layout w hw).1, overlay_empty, Target.link,
    if_neg hne]

section Walker

variable {rem : Remote} {t : Target} (hfile : t.layout.opArrayFilename.toNat + 8 ≤ FUNC_BUF)
  (hline : t.layout.opArrayLineStart.toNat + 4 ≤ FUNC_BUF)

include hfile hline

/-- A walker that has read no other memory takes the first frames of the chain. -/
theorem outcome_captureStack_over {w : StackWalker} (hw : StackWalker.Over ∅ .release rem w)
    (maxDepth : ℕ) :
    outcome (t.captureStack .release rem maxDepth w) =
      (rem.readU64 (t.executorGlobals + t.layout.egCurrentExecuteData)).map fun ex =>
        (Target.frameChain rem t.layout ex).take maxDepth := by
  rw [(captureStack_agrees ∅ .release rem t maxDepth w hw).1, overlay_empty,
    Target.captureStackWith, currentExecuteData, Build.release_add, ok_bind]
  cases rem.readU64 (t.executorGlobals + t.layout.egCurrentExecuteData) with
  | error e => rfl
  | ok ex => exact Target.walkFrames_eq_take hfile hline maxDepth ex

theorem walksChain_of_over {w : StackWalker} (hw : StackWalker.Over ∅ .release rem w)
    (maxDepth : ℕ) :
    WalksChain rem t maxDepth (outcome (t.captureStack .release rem maxDepth w)) := by
  rw [outcome_captureStack_over hfile hline hw]
  cases hread : rem.readU64 (t.executorGlobals + t.layout.egCurrentExecuteData) with
  | error s =>
    obtain ⟨e, rfl⟩ := (rem.noPanic_readU64 _).eq_err hread
    exact ⟨by simp [hread, Except.map], fun ex hex => by simp [hread] at hex⟩
  | ok ex =>
    refine ⟨by simp [hread, Except.map], fun ex' hex => ?_⟩
    have heq : ex = ex' := Except.ok.inj (hread.symm.trans hex)
    subst heq
    refine ⟨_, rfl, Seq.length_take_le, fun i => ?_⟩
    rw [Seq.getElem?_take, Target.get?_frameChain]

/-- A smaller depth returns the first frames of what a greater one returns, whichever
walkers of that memory make the calls. -/
theorem captureStack_take {w w' : StackWalker} (hw : StackWalker.Over ∅ .release rem w)
    (hw' : StackWalker.Over ∅ .release rem w') {d d' : ℕ} (hd : d ≤ d') :
    outcome (t.captureStack .release rem d w) =
      (outcome (t.captureStack .release rem d' w')).map fun frames =>
        frames.take (min d frames.length) := by
  rw [outcome_captureStack_over hfile hline hw, outcome_captureStack_over hfile hline hw']
  cases rem.readU64 (t.executorGlobals + t.layout.egCurrentExecuteData) with
  | error e => rfl
  | ok ex =>
    apply congrArg Except.ok
    dsimp only
    rw [← List.take_eq_take_min]
    apply List.ext_getElem?
    intro i
    rw [List.getElem?_take, Seq.getElem?_take, Seq.getElem?_take]
    by_cases hi : i < d
    · rw [if_pos hi, if_pos hi, if_pos (hi.trans_le hd)]
    · rw [if_neg hi, if_neg hi]

end Walker

/-- **The stack walk**: after any calls on one memory, the stack is the chain of that
memory, link by link what `read_frame` returns, cut at the depth; and of two depths the
smaller one returns the first frames of what the greater one returns, whether it is called
before or after. -/
theorem captureStack_chain (rem : Remote) (executorGlobals : UInt64) (env : Env) (version : String)
    (layout : VersionLayout) (hpick : pick env version = some layout) (calls : List Call)
    (d d' : ℕ) (hd : d ≤ d') :
    let t : Target := ⟨executorGlobals, layout⟩
    let w := (Call.runAll .release rem calls .new).2
    let shallow := t.captureStack .release rem d
    let deep := t.captureStack .release rem d'
    WalksChain rem t d (outcome (shallow w)) ∧
      (∀ ex, ex ≠ 0 → Target.link rem layout ex =
        (outcome (StackWalker.readFrame .release rem ex layout w)).toOption) ∧
      outcome (shallow w) = (outcome (deep (finalState (shallow w)))).map (fun frames =>
        frames.take (min d frames.length)) ∧
      outcome (shallow (finalState (deep w))) = (outcome (deep w)).map (fun frames =>
        frames.take (min d frames.length)) := by
  intro t w shallow deep
  obtain ⟨hfile, hline⟩ := pick_opArray_le hpick
  have hw : StackWalker.Over ∅ .release rem w :=
    (Call.runAll_agrees .release rem calls .new (Grown.refl (Nat.zero_le _))).2
  have hnext : ∀ maxDepth, StackWalker.Over ∅ .release rem
      (finalState (t.captureStack .release rem maxDepth w)) := fun maxDepth =>
    (captureStack_agrees ∅ .release rem t maxDepth w hw).2
  exact ⟨walksChain_of_over hfile hline hw d, fun ex hne => link_eq_readFrame hw hne,
    captureStack_take hfile hline hw (hnext d) hd, captureStack_take hfile hline (hnext d') hw hd⟩

/-- A call of the function `a` that is its own caller. -/
def ownCaller : Remote :=
  Remote.zeroExcept [(489, 0x04), (0x419, 0x05), (0x431, 0x04), (0x500, 1), (0x509, 0x06),
    (0x610, 1), (0x618, 0x61)]

/-- The walk of an endless chain stops at the depth, also behind a deeper one. -/
theorem captureStack_chain_ownCaller :
    let t : Target := ⟨0, layout8_3⟩
    WalksChain ownCaller t 2 (outcome (t.captureStack .release ownCaller 2 .new)) ∧
      outcome (t.captureStack .release ownCaller 2
          (finalState (t.captureStack .release ownCaller 3 .new)))
        = .ok [⟨"a", none, some "<internal>", 0⟩, ⟨"a", none, some "<internal>", 0⟩] := by
  intro t
  have h := captureStack_chain ownCaller 0 ⟨none, none⟩ "8.3.1" layout8_3 (by decide) [] 2 3
    (by decide)
  exact ⟨h.1, h.2.2.2.trans (by decide +kernel)⟩

end PhpFastProfile
