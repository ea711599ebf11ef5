import PhpFastProfile.Target
import Mathlib.Data.List.Induction

/-!
# The string cache of the walker

The walker reads every string through one cache, and everything else as a
reader without a cache would.  So a call agrees with the cacheless call that
takes the cached strings as they are (`captureStack_agrees`), for as long as the
memory does not change.  A walker that has only ever seen one memory holds the
strings of that memory and is transparent; one that is carried over to a changed
memory keeps answering with the strings it has read before.

## Main definitions

* `StackWalker.Over c bd rem` — the walkers that can come from the cache `c`.
* `Call`, `Call.runAll`, `Call.fresh` — calls on a walker, and without a cache.
* `walkerAfter` — the walker after samples of a changing memory.

## Main results

* `readFrameWith_agrees`, `captureStackWith_agrees` — reading strings the same
  way gives the same frames.
* `runAll_eq_fresh` — **on a fixed memory the cache is transparent.**
* `captureStack_walkerAfter` — what a walker returns after samples of other memories.
* `captureStack_stale` — a name that the memory no longer holds.
-/

namespace PhpFastProfile

open Memo

/-! ### Frames depend on how strings are read -/

section Agreement

variable {I : StackWalker → Prop}

theorem attempt_agrees {α : Type} {x : EStateM Stop StackWalker α} {y : Outcome α}
    (h : Agrees I x y) : Agrees I (attempt x) (attempt y) := by
  refine Agrees.tryCatch (h.bind fun a => Agrees.pure _) fun e => ?_
  cases e with
  | err e => exact Agrees.pure _
  | panic => exact Agrees.throw _

variable {read : UInt64 → EStateM Stop StackWalker String} {read' : UInt64 → Outcome String}
  (h : ∀ addr, Agrees I (read addr) (read' addr)) (bd : Build) (rem : Remote)

include h

theorem readName_agrees (namePtr : UInt64) :
    Agrees I (readName read namePtr) (readName read' namePtr) :=
  Agrees.ite (Agrees.pure _) (h _)

theorem readClass_agrees (scopePtr : UInt64) :
    Agrees I (readClass read bd rem scopePtr) (readClass read' bd rem scopePtr) := by
  refine Agrees.ite (Agrees.pure _) (Agrees.bind (Agrees.liftM _) fun a => ?_)
  refine Agrees.bind (Agrees.liftM _) fun classNamePtr => ?_
  exact Agrees.ite (Agrees.pure _) ((h _).bind fun _ => Agrees.pure _)

theorem readFile_agrees (filePtr : UInt64) :
    Agrees I (readFile read filePtr) (readFile read' filePtr) :=
  Agrees.ite (Agrees.pure _) ((h _).bind fun _ => Agrees.pure _)

/-- Reading strings the same way gives the same frame. -/
theorem readFrameWith_agrees (exAddr : UInt64) (layout : VersionLayout) :
    Agrees I (readFrameWith read bd rem exAddr layout)
      (readFrameWith read' bd rem exAddr layout) := by
  refine Agrees.bind (Agrees.liftM _) fun exBuf => ?_
  refine Agrees.bind (Agrees.liftM _) fun oplinePtr => ?_
  refine Agrees.bind (Agrees.liftM _) fun funcPtr => ?_
  refine Agrees.bind (Agrees.liftM _) fun prev => Agrees.ite (Agrees.pure _) ?_
  -- the function is not null; only its names, class and file go through the cache
  refine Agrees.bind (Agrees.liftM _) fun funcBuf => ?_
  refine Agrees.bind (Agrees.liftM _) fun ftype => ?_
  refine Agrees.bind (Agrees.liftM _) fun namePtr => ?_
  refine Agrees.bind (Agrees.liftM _) fun scopePtr => ?_
  refine (readName_agrees h namePtr).bind fun function => ?_
  refine (readClass_agrees h bd rem scopePtr).bind fun className => Agrees.ite ?_ ?_
  · refine Agrees.bind (Agrees.liftM _) fun filePtr => ?_
    refine (readFile_agrees h filePtr).bind fun file => ?_
    exact Agrees.bind (Agrees.liftM _) fun line => Agrees.pure _
  · exact Agrees.ite (Agrees.pure _) (Agrees.pure _)

theorem walkFrames_agrees (layout : VersionLayout) : ∀ (fuel : ℕ) (ex : UInt64),
    Agrees I (Target.walkFrames (fun ex => readFrameWith read bd rem ex layout) fuel ex)
      (Target.walkFrames (fun ex => readFrameWith read' bd rem ex layout) fuel ex) := by
  intro fuel
  induction fuel with
  | zero => intro ex; exact Agrees.pure _
  | succ fuel ih =>
    intro ex
    apply Agrees.ite (Agrees.pure _)
    refine (attempt_agrees (readFrameWith_agrees h bd rem ex layout)).bind fun r => ?_
    cases r with
    -- a frame that cannot be read ends both walks
    | none => exact Agrees.pure _
    | some p => exact (ih p.2).bind fun frames => Agrees.pure _

/-- Reading strings the same way gives the same stack. -/
theorem captureStackWith_agrees (t : Target) (maxDepth : ℕ) :
    Agrees I (Target.captureStackWith read bd rem t maxDepth)
      (Target.captureStackWith read' bd rem t maxDepth) :=
  Agrees.bind (Agrees.liftM _) fun ex => walkFrames_agrees h bd rem t.layout maxDepth ex

end Agreement

/-! ### The walker's cache -/

namespace StackWalker

/-- The walkers that can come out of one with the cache `c`, on a memory `rem`
that does not change. -/
def Over (c : AList fun _ : UInt64 => String) (bd : Build) (rem : Remote) (w : StackWalker) :
    Prop :=
  Grown c (readZendString bd rem) CACHE_BOUND w.stringCache

/-- The walker's string reader is the memoised one, on its only field. -/
theorem readZstringCached_eq (bd : Build) (rem : Remote) (addr : UInt64) (w : StackWalker) :
    outcome (readZstringCached bd rem addr w)
        = outcome (cached CACHE_BOUND (readZendString bd rem) addr w.stringCache) ∧
      (finalState (readZstringCached bd rem addr w)).stringCache
        = finalState (cached CACHE_BOUND (readZendString bd rem) addr w.stringCache) := by
  unfold readZstringCached cached
  cases w.stringCache.lookup addr with
  | some s => exact ⟨rfl, rfl⟩
  | none =>
    cases readZendString bd rem addr with
    | error e => exact ⟨rfl, rfl⟩
    | ok s =>
      -- a full cache hands the string on without keeping it
      by_cases hlt : w.stringCache.entries.length < CACHE_BOUND
      · simp only [hlt, if_true]
        exact ⟨rfl, rfl⟩
      · simp only [hlt, if_false]
        exact ⟨rfl, rfl⟩

/-- **A cached string read takes the strings of the cache as they are**, also out of
a cache that is already over the bound. -/
theorem readZstringCached_agrees_of_le (c : AList fun _ : UInt64 => String) (bd : Build)
    (rem : Remote) {n : ℕ} (hn : CACHE_BOUND ≤ n) (addr : UInt64) :
    Agrees (fun w => Grown c (readZendString bd rem) n w.stringCache)
      (readZstringCached bd rem addr) (overlay c (readZendString bd rem) addr) := by
  intro w hw
  obtain ⟨hout, hstate⟩ := readZstringCached_eq bd rem addr w
  obtain ⟨hagree, hgrown⟩ := cached_agrees c (readZendString bd rem) hn addr
    w.stringCache hw
  refine ⟨hout.trans hagree, ?_⟩
  show Grown _ _ _ (finalState (readZstringCached bd rem addr w)).stringCache
  rw [hstate]
  exact hgrown

theorem readZstringCached_agrees (c : AList fun _ : UInt64 => String) (bd : Build) (rem : Remote)
    (addr : UInt64) :
    Agrees (Over c bd rem) (readZstringCached bd rem addr)
      (overlay c (readZendString bd rem) addr) :=
  readZstringCached_agrees_of_le c bd rem le_rfl addr

theorem readFrame_agrees (c : AList fun _ : UInt64 => String) (bd : Build) (rem : Remote)
    (exAddr : UInt64) (layout : VersionLayout) :
    Agrees (Over c bd rem) (readFrame bd rem exAddr layout)
      (readFrameWith (overlay c (readZendString bd rem)) bd rem exAddr layout) :=
  readFrameWith_agrees (readZstringCached_agrees c bd rem) bd rem exAddr layout

end StackWalker

/-- **`capture_stack` sees the cached strings as they are and the rest of the
memory as it is.** -/
theorem captureStack_agrees (c : AList fun _ : UInt64 => String) (bd : Build) (rem : Remote)
    (t : Target) (maxDepth : ℕ) :
    Agrees (StackWalker.Over c bd rem) (t.captureStack bd rem maxDepth)
      (Target.captureStackWith (overlay c (readZendString bd rem)) bd rem t maxDepth) :=
  captureStackWith_agrees (StackWalker.readZstringCached_agrees c bd rem) bd rem t maxDepth

/-! ### Calls on one memory -/

/-- A call on a walker. -/
inductive Call where
  | captureStack (t : Target) (maxDepth : ℕ)
  | readFrame (exAddr : UInt64) (layout : VersionLayout)

/-- What a call returns. -/
inductive Reply where
  | frames (fs : List Frame)
  | frame (f : Frame) (prev : UInt64)
  deriving DecidableEq, Repr

namespace Call

variable (bd : Build) (rem : Remote)

/-- The call on a walker. -/
def run : Call → EStateM Stop StackWalker Reply
  | .captureStack t maxDepth => do return .frames (← t.captureStack bd rem maxDepth)
  | .readFrame exAddr layout => do
    let p ← StackWalker.readFrame bd rem exAddr layout
    return .frame p.1 p.2

/-- The call on a walker that reads every string afresh. -/
def fresh : Call → Outcome Reply
  | .captureStack t maxDepth => do
    return .frames (← Target.captureStackWith (readZendString bd rem) bd rem t maxDepth)
  | .readFrame exAddr layout => do
    let p ← readFrameWith (readZendString bd rem) bd rem exAddr layout
    return .frame p.1 p.2

theorem run_agrees (call : Call) :
    Agrees (StackWalker.Over ∅ bd rem) (call.run bd rem) (call.fresh bd rem) := by
  cases call with
  | captureStack t maxDepth =>
    have h := captureStack_agrees ∅ bd rem t maxDepth
    rw [overlay_empty] at h
    exact h.bind fun _ => Agrees.pure _
  | readFrame exAddr layout =>
    have h := StackWalker.readFrame_agrees ∅ bd rem exAddr layout
    rw [overlay_empty] at h
    exact h.bind fun _ => Agrees.pure _

/-- Make the calls one after the other, each with the walker the last one left. -/
def runAll : List Call → StackWalker → List (Outcome Reply) × StackWalker
  | [], w => ([], w)
  | call :: calls, w =>
    let r := call.run bd rem w
    let rest := runAll calls (finalState r)
    (outcome r :: rest.1, rest.2)

theorem runAll_agrees : ∀ (calls : List Call) (w : StackWalker), StackWalker.Over ∅ bd rem w →
    (runAll bd rem calls w).1 = calls.map (fresh bd rem) ∧
      StackWalker.Over ∅ bd rem (runAll bd rem calls w).2 := by
  intro calls
  induction calls with
  | nil => intro w hw; exact ⟨rfl, hw⟩
  | cons call calls ih =>
    intro w hw
    obtain ⟨hout, hstate⟩ := run_agrees bd rem call w hw
    obtain ⟨houts, hlast⟩ := ih _ hstate
    refine ⟨?_, hlast⟩
    change outcome (call.run bd rem w) :: (runAll bd rem calls _).1 = _
    rw [hout, houts, List.map_cons]

end Call

/-- **On a fixed memory the cache is transparent**: any sequence of calls on a new
walker returns what a walker without a cache returns, errors included; the cache
holds nothing but what `read_zend_string` returns, nothing where that fails, and
at most 8192 strings. -/
theorem runAll_eq_fresh (bd : Build) (rem : Remote) (calls : List Call) :
    let r := Call.runAll bd rem calls StackWalker.new
    r.1 = calls.map (Call.fresh bd rem) ∧
      (∀ addr s, r.2.stringCache.lookup addr = some s → readZendString bd rem addr = .ok s) ∧
      (∀ addr e, readZendString bd rem addr = .error e → r.2.stringCache.lookup addr = none) ∧
      r.2.stringCache.entries.length ≤ 8192 := by
  intro r
  obtain ⟨hout, hover⟩ := Call.runAll_agrees bd rem calls StackWalker.new
    (Grown.refl (Nat.zero_le _))
  have hsound : ∀ addr s, r.2.stringCache.lookup addr = some s →
      readZendString bd rem addr = .ok s := fun addr s hs =>
    (hover.entry hs).resolve_left fun h => absurd h (by simp)
  refine ⟨hout, hsound, fun addr e he => ?_, hover.size_le⟩
  cases hs : r.2.stringCache.lookup addr with
  | none => rfl
  | some s => rw [hsound addr s hs] at he; exact absurd he (by simp)

/-! ### Samples of a changing memory -/

/-- The walker after one sample of every snapshot. -/
def walkerAfter (bd : Build) (t : Target) (maxDepth : ℕ) (snapshots : List Remote) : StackWalker :=
  snapshots.foldl (fun w rem => finalState (t.captureStack bd rem maxDepth w)) StackWalker.new

/-- Every cached string is one that a snapshot held at its address. -/
theorem walkerAfter_cache (bd : Build) (t : Target) (maxDepth : ℕ) (snapshots : List Remote) :
    (walkerAfter bd t maxDepth snapshots).stringCache.entries.length ≤ StackWalker.CACHE_BOUND ∧
      ∀ addr s, (walkerAfter bd t maxDepth snapshots).stringCache.lookup addr = some s →
        ∃ rem ∈ snapshots, readZendString bd rem addr = .ok s := by
  induction snapshots using List.reverseRecOn with
  | nil =>
    exact ⟨Nat.zero_le _, fun addr s hs => absurd hs (by simp [walkerAfter, StackWalker.new])⟩
  | append_singleton snapshots rem ih =>
    obtain ⟨hsize, hheld⟩ := ih
    have hstep : walkerAfter bd t maxDepth (snapshots ++ [rem]) = finalState
        (t.captureStack bd rem maxDepth (walkerAfter bd t maxDepth snapshots)) := by
      simp [walkerAfter]
    obtain ⟨-, hover⟩ := captureStack_agrees (walkerAfter bd t maxDepth snapshots).stringCache
      bd rem t maxDepth (walkerAfter bd t maxDepth snapshots) (Grown.refl hsize)
    rw [hstep]
    refine ⟨hover.size_le, fun addr s hs => ?_⟩
    -- the entry was there before the last sample, or that sample has read it
    rcases hover.entry hs with hold | hnew
    · obtain ⟨rem', hmem, hread⟩ := hheld addr s hold
      exact ⟨rem', List.mem_append_left _ hmem, hread⟩
    · exact ⟨rem, by simp, hnew⟩

/-- **What a carried walker returns on a snapshot.**  It is the stack of that
snapshot with the cached strings taken as they are; every one of them is a string
that an earlier snapshot held at that address; and where the snapshot still holds
them all, it is the stack a new walker returns. -/
theorem captureStack_walkerAfter (bd : Build) (t : Target) (maxDepth : ℕ)
    (snapshots : List Remote) (rem : Remote) :
    let w := walkerAfter bd t maxDepth snapshots
    outcome (t.captureStack bd rem maxDepth w)
        = Target.captureStackWith (overlay w.stringCache (readZendString bd rem)) bd rem t
          maxDepth ∧
      (∀ addr s, w.stringCache.lookup addr = some s →
        ∃ rem' ∈ snapshots, readZendString bd rem' addr = .ok s) ∧
      ((∀ addr s, w.stringCache.lookup addr = some s → readZendString bd rem addr = .ok s) →
        outcome (t.captureStack bd rem maxDepth w)
          = outcome (t.captureStack bd rem maxDepth StackWalker.new)) := by
  intro w
  obtain ⟨hsize, hheld⟩ := walkerAfter_cache bd t maxDepth snapshots
  obtain ⟨hout, -⟩ := captureStack_agrees w.stringCache bd rem t maxDepth w (Grown.refl hsize)
  refine ⟨hout, hheld, fun hsame => ?_⟩
  obtain ⟨hnew, -⟩ := captureStack_agrees ∅ bd rem t maxDepth StackWalker.new
    (Grown.refl (Nat.zero_le _))
  rw [hout, hnew, overlay_eq_self hsame, overlay_empty]

/-- A running call of an internal function named by the one byte `c`: the
execute data is at `0x400`, the function at `0x500` and its name at `0x600`. -/
def namedCall (c : UInt8) : Remote :=
  Remote.zeroExcept [(489, 0x04), (0x419, 0x05), (0x500, 1), (0x509, 0x06), (0x610, 1), (0x618, c)]

/-- **Names can be stale**: when the name of the running function changes from
`a` to `b` in place, the carried walker still calls it `a`. -/
theorem captureStack_stale :
    let t : Target := ⟨0, layout8_3⟩
    outcome (t.captureStack .release (namedCall 0x62) 1
        (walkerAfter .release t 1 [namedCall 0x61]))
        = .ok [⟨"a", none, some "<internal>", 0⟩] ∧
      outcome (t.captureStack .release (namedCall 0x62) 1 StackWalker.new)
        = .ok [⟨"b", none, some "<internal>", 0⟩] := by
  decide +kernel

end PhpFastProfile
