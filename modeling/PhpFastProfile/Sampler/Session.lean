import PhpFastProfile.Output.Agreement
import PhpFastProfile.Output.Folded
import PhpFastProfile.Sampler.Accounting
import PhpFastProfile.Target.CallStack

/-!
# What a profile shows

A sampler captures the memory of its target again and again, always through the same
walker, whose cache it never empties.  The captures are the stacks of the calls the
target was executing, as long as no address at which such a stack has a string is used
for another one later, and the windows that the walk reads can be read.  The samplers
hand these stacks to the sink, less the unwanted ones, and the aggregating sinks count
them.

## Main definitions

* `Snapshot` — the memory at a capture, with the calls that are executed.
* `Steady` — no address is used for two strings.
* `AllOpen` — the windows of the walks can be read.
* `captures` — what the captures return, one after the other.
* `profiled` — the stacks that belong in the profile.
* `ShowsStacks` — two of the sinks show these stacks.
* `CompleteRun` — a run of `run_multi` that has returned, in which no worker has panicked
  or sent after the drain.

## Main results

* `captures_decode` — the captures return the stacks of the snapshots.
* `Single.run_profiles`, `runMulti_profiles` — **what the samplers write are the stacks the
  targets were executing.**
-/

namespace PhpFastProfile

open Memo

/-! ### The captures -/

/-- The memory of the target at a capture.  The calls are missing where not even the
pointer to the innermost of them can be read. -/
structure Snapshot (t : Target) where
  rem : Remote
  calls : Option (List PhpCall)
  /-- The addresses of the strings the calls show. -/
  texts : Set UInt64
  runs : ∀ calls' ∈ calls, RunsAt rem texts t calls'
  fails : calls = none →
    ∃ e, rem.readU64 (t.executorGlobals + t.layout.egCurrentExecuteData) = .error e

/-- The stack of a snapshot. -/
def Snapshot.stack {t : Target} (maxDepth : ℕ) (x : Snapshot t) : Option (List Frame) :=
  x.calls.map fun calls => (calls.take maxDepth).map PhpCall.frame

/-- Where the calls of one snapshot have a string, the calls of another have none that
is shown differently. -/
def Steady {t : Target} (xs : List (Snapshot t)) : Prop :=
  ∀ x ∈ xs, ∀ y ∈ xs, ∀ p ∈ x.texts, p ∈ y.texts → ∀ bytes bytes',
    StringAt x.rem p bytes → StringAt y.rem p bytes' → shown bytes = shown bytes'

/-- At every capture the windows of the records that the walk comes to can be read. -/
def AllOpen {t : Target} (maxDepth : ℕ) (xs : List (Snapshot t)) : Prop :=
  ∀ x ∈ xs, t.WindowsOpen x.rem maxDepth

/-- What `capture_stack` returns for one memory after the other. -/
def captures (bd : Build) (t : Target) (maxDepth : ℕ) :
    List Remote → StackWalker → List (Outcome (List Frame))
  | [], _ => []
  | rem :: rems, w =>
    let r := t.captureStack bd rem maxDepth w
    outcome r :: captures bd t maxDepth rems (finalState r)

section Captures

variable {t : Target} {xs : List (Snapshot t)}

/-- The strings of the snapshots. -/
def ShownBy (xs : List (Snapshot t)) (p : UInt64) (s : String) : Prop :=
  ∃ x ∈ xs, p ∈ x.texts ∧ ∃ bytes, StringAt x.rem p bytes ∧ s = shown bytes

/-- A walker that has read nothing but strings of the snapshots. -/
def HoldsShown (xs : List (Snapshot t)) (w : StackWalker) : Prop :=
  ∀ p s, w.stringCache.lookup p = some s → ShownBy xs p s

theorem Steady.readsTexts (h : Steady xs) {x : Snapshot t} (hx : x ∈ xs) :
    ReadsTexts x.rem x.texts (HoldsShown xs) (StackWalker.readZstringCached .release x.rem) := by
  intro p hp bytes hbytes
  refine readZstringCached_agrees_of_entries hbytes.read_eq ⟨x, hx, hp, bytes, hbytes, rfl⟩ ?_
  rintro s ⟨y, hy, hpy, bytes', hbytes', rfl⟩
  exact h y hy x hx p hpy hp bytes' bytes hbytes' hbytes

/-- One capture of a session. -/
theorem Steady.captureStack_agrees (h : Steady xs)
    (hfile : t.layout.opArrayFilename.toNat + 8 ≤ FUNC_BUF)
    (hline : t.layout.opArrayLineStart.toNat + 4 ≤ FUNC_BUF) {x : Snapshot t} (hx : x ∈ xs)
    {maxDepth : ℕ} (hopen : t.WindowsOpen x.rem maxDepth) : ∃ r, r.toOption = x.stack maxDepth ∧
      Agrees (HoldsShown xs) (t.captureStack .release x.rem maxDepth) r := by
  cases hcalls : x.calls with
  | some calls =>
    refine ⟨_, ?_, (x.runs calls hcalls).captureStack_agrees (h.readsTexts hx) hfile hline hopen⟩
    rw [Snapshot.stack, hcalls]
    rfl
  | none =>
    obtain ⟨e, he⟩ := x.fails hcalls
    refine ⟨.error e, by rw [Snapshot.stack, hcalls]; rfl, ?_⟩
    refine (Agrees.liftM_eq ?_).bind_error
    rw [currentExecuteData, Build.release_add, ok_bind, he]

theorem captures_of_forall {maxDepth : ℕ} {I : StackWalker → Prop} :
    ∀ {xs : List (Snapshot t)} {w : StackWalker}, I w →
      (∀ x ∈ xs, ∃ r, r.toOption = x.stack maxDepth ∧
        Agrees I (t.captureStack .release x.rem maxDepth) r) →
      (captures .release t maxDepth (xs.map Snapshot.rem) w).map Except.toOption =
        xs.map (Snapshot.stack maxDepth) := by
  intro xs
  induction xs with
  | nil => intro w _ _; rfl
  | cons x xs ih =>
    intro w hw hall
    obtain ⟨r, hr, hagrees⟩ := hall x List.mem_cons_self
    obtain ⟨hout, hnext⟩ := hagrees w hw
    rw [List.map_cons, captures, List.map_cons, List.map_cons, hout, hr,
      ih hnext fun y hy => hall y (List.mem_cons_of_mem x hy)]

/-- **The captures return the stacks of the snapshots**, cut at the depth. -/
theorem captures_decode (env : Env) (version : String) (hpick : pick env version = some t.layout)
    (h : Steady xs) {maxDepth : ℕ} (hopen : AllOpen maxDepth xs) :
    (captures .release t maxDepth (xs.map Snapshot.rem) .new).map Except.toOption =
      xs.map (Snapshot.stack maxDepth) := by
  obtain ⟨hfile, hline⟩ := pick_opArray_le hpick
  have hnew : HoldsShown xs .new := fun p s hs => by
    simp [StackWalker.new, AList.lookup_empty] at hs
  exact captures_of_forall hnew fun x hx => h.captureStack_agrees hfile hline hx (hopen x hx)

end Captures

/-! ### The stacks in the profile -/

/-- The stacks of the snapshots that belong in the profile. -/
def profiled {t : Target} (cfg : Config) (maxDepth : ℕ) (xs : List (Snapshot t)) :
    List (List Frame) :=
  cfg.samples (xs.map (Snapshot.stack maxDepth))

/-- The sink after a sequence of calls. -/
def PprofSink.writeAll (sink : PprofSink) (calls : List (List Frame × SampleMeta)) : PprofSink :=
  calls.foldl (fun sink call => sink.writeSample call.1 call.2) sink

/-- After these calls of `write_sample`, the folded output counts the keys of the stacks, and
the samples of the pprof message are the stacks. -/
structure ShowsStacks (calls : List (List Frame × SampleMeta)) (sts : List (List Frame)) :
    Prop where
  folded : AList.Counts (FoldedSink.new.writeAll calls).counts (sts.map FoldedSink.foldedKey)
  pprof : ∀ start order now,
    (((PprofSink.new start).writeAll calls).profile order now).resolved.Perm
      (sts.map fun st => some (st.map Frame.key))

/-- The builder accounts for the stacks it is handed, also for those without frames. -/
theorem PprofSink.accounted_writeAll (start : ℤ) (calls : List (List Frame × SampleMeta)) :
    ((PprofSink.new start).writeAll calls).builder.Tables ∧
      ((PprofSink.new start).writeAll calls).builder.Accounted
        ((calls.map Prod.fst).map fun st => st.map Frame.key) := by
  induction calls using List.reverseRecOn with
  | nil => exact ⟨PprofBuilder.tables_new start, PprofBuilder.accounted_new start⟩
  | append_singleton calls call ih =>
    have hcons : (PprofSink.new start).writeAll (calls ++ [call]) =
        ((PprofSink.new start).writeAll calls).writeSample call.1 call.2 := by
      simp [writeAll]
    rw [hcons, List.map_append, List.map_append]
    exact ⟨PprofBuilder.tables_step ih.1 (.add call.1), PprofBuilder.accounted_add ih.1 ih.2 call.1⟩

/-- The sinks show what they are handed, in whatever order. -/
theorem showsStacks_of_perm {calls : List (List Frame × SampleMeta)} {sts : List (List Frame)}
    (hperm : (calls.map Prod.fst).Perm sts) (hne : ∀ st ∈ sts, st ≠ []) :
    ShowsStacks calls sts := by
  constructor
  · have hall : FoldedSink.stacksOf calls = calls.map Prod.fst := by
      rw [FoldedSink.stacksOf, List.filter_eq_self]
      intro st hst
      simpa using hne st (hperm.mem_iff.mp hst)
    have hcounts := FoldedSink.writeAll_counts calls
    rw [hall] at hcounts
    exact hcounts.perm (hperm.map _)
  · intro start order now
    obtain ⟨htables, hacc⟩ := PprofSink.accounted_writeAll start calls
    refine (PprofBuilder.buildProfile_resolves htables hacc order now).1.trans ?_
    rw [List.map_map]
    exact hperm.map _

theorem Config.ne_nil_of_mem_samples {cfg : Config} {outcomes : List (Option (List Frame))} :
    ∀ st ∈ cfg.samples outcomes, st ≠ [] := by
  rintro st hst rfl
  obtain ⟨o, -, ho⟩ := List.mem_filterMap.mp hst
  have hkeep := (Option.filter_eq_some_iff.mp ho).2
  simp [Config.keeps] at hkeep

/-! ### `Sampler::run` -/

/-- When `Sampler::run` has returned, the stacks it has handed to the sink are those of the
captures. -/
theorem Single.written_frames {t : Target} (env : Env) (version : String)
    (hpick : pick env version = some t.layout) {xs : List (Snapshot t)} (hsteady : Steady xs)
    {maxDepth : ℕ} (hopen : AllOpen maxDepth xs) {cfg : Config} {clock : ℕ} {as : List Action}
    {s : State} (h : run cfg (init clock) as = some s) {ok : Bool} (hret : s.pc = .returned ok)
    (hcaptures : as.filterMap Action.outcome =
      (captures .release t maxDepth (xs.map Snapshot.rem) .new).map Except.toOption) :
    s.written.map Write.frames = profiled cfg maxDepth xs := by
  have hsamples := (run_knows h).samples
  rw [hcaptures, captures_decode env version hpick hsteady hopen] at hsamples
  simpa [State.pending, hret, profiled] using hsamples

/-- The sinks show the stacks they were handed. -/
theorem Single.showsStacks {cfg : Config} {outcomes : List (Option (List Frame))}
    {written : List Write} (h : written.map Write.frames = cfg.samples outcomes) :
    ShowsStacks (written.map fun x => (x.frames, x.info)) (cfg.samples outcomes) := by
  refine showsStacks_of_perm ?_ Config.ne_nil_of_mem_samples
  rw [List.map_map]
  exact List.Perm.of_eq h

/-- What a capture returns. -/
def WorkerAction.outcome : WorkerAction → Option (Option (List Frame))
  | .capture frames => some frames
  | _ => none

/-- What a capture of the worker `w` returns. -/
def Action.outcomeOf (w : ℕ) : Action → Option (Option (List Frame))
  | .worker v a => if v = w then a.outcome else none
  | _ => none

theorem Action.outcomeOf_of_other {w : ℕ} {a : Action} (hother : ∀ b, a ≠ .worker w b) :
    a.outcomeOf w = none := by
  cases a with
  | worker v b =>
    rw [outcomeOf, if_neg]
    rintro rfl
    exact hother b rfl
  | _ => rfl

/-- What is read off an action of the worker `w`. -/
def Action.ofWorker {β : Type} (w : ℕ) (g : WorkerAction → List β) : Action → List β
  | .worker v a => if v = w then g a else []
  | _ => []

theorem Action.ofWorker_of_other {β : Type} {w : ℕ} {g : WorkerAction → List β} {a : Action}
    (hother : ∀ b, a ≠ .worker w b) : a.ofWorker w g = [] := by
  cases a with
  | worker v b =>
    rw [ofWorker, if_neg]
    rintro rfl
    exact hother b rfl
  | _ => rfl

theorem Action.ofWorker_outcome (cfg : Config) (w : ℕ) (a : Action) :
    a.ofWorker w (fun b => cfg.samples b.outcome.toList) = cfg.samples (a.outcomeOf w).toList := by
  cases a with
  | worker v b =>
    rw [ofWorker, outcomeOf]
    split <;> rfl
  | _ => rfl

section Multi

variable {cfg : Config} {clock : ℕ} {alive : ℤ → Bool} {as : List Action} {m s : State} {a : Action}
  {w : ℕ}

/-- **What a worker collects**: where a new worker has collected nothing, and a step of the
worker adds what is read off its action, a step of the system does the same. -/
theorem State.step_collects {β : Type} {f : Worker → List β} {g : WorkerAction → List β}
    (hnew : ∀ pid attached, f (.spawned pid attached) = [])
    (hsame : ∀ x queue stop, f { x with queue, stop } = f x)
    (hstep : ∀ b, a = .worker w b → ∀ env x x', Worker.step cfg env x b = some x' →
      env.receiver = true → f x' = f x ++ g b)
    (hj : m.Joined) (h : m.step cfg a = some s) :
    (s.workers[w]?).elim [] f = (m.workers[w]?).elim [] f ++ a.ofWorker w g := by
  cases hx : m.workers[w]? with
  | some x =>
    obtain ⟨x', hx', hc⟩ := step_worker h hx
    rw [hx']
    cases hc with
    | rests _ hother => simp [Action.ofWorker_of_other hother]
    | steps b x' hb =>
      -- the thread has not finished, so the receiver is there
      have hlive : x.pc ≠ .done := by
        intro hdone
        rw [Worker.step_done hdone] at hb
        cases hb
      rw [Action.ofWorker, if_pos rfl]
      exact hstep b rfl _ x x' hb (hj.receiver hx hlive)
    | received accepted msg rest =>
      simpa [Action.ofWorker] using hsame x rest x.stop
    | signalled => simpa [Action.ofWorker] using hsame x x.queue true
  | none =>
    have hother : ∀ b, a ≠ .worker w b := by
      rintro b rfl
      obtain ⟨x, hx', -⟩ := Option.bind_eq_some_iff.mp h
      rw [hx] at hx'
      cases hx'
    rw [Action.ofWorker_of_other hother]
    cases hx' : s.workers[w]? with
    | none => rfl
    | some x' =>
      rcases worker_of_step h hx' with ⟨x, hx₀, -⟩ | ⟨_, pid, _, attached, -, rfl⟩
      · rw [hx] at hx₀
        cases hx₀
      · exact hnew pid attached

/-- What a step adds to the stacks of a worker that does not panic. -/
theorem State.step_samplesOf (hj : m.Joined) (hpanic : a ≠ .worker w .panic)
    (h : m.step cfg a = some s) :
    (s.workers[w]?).elim [] Worker.samples =
      (m.workers[w]?).elim [] Worker.samples ++ cfg.samples (a.outcomeOf w).toList := by
  rw [← Action.ofWorker_outcome]
  refine step_collects (fun _ _ => rfl) (fun _ _ _ => rfl) (fun b hb env x x' hstep hrx => ?_) hj h
  rw [Worker.samples_step hstep hrx (by rintro rfl; exact hpanic hb)]
  cases b <;> rfl

/-- The stacks of a worker in a run, told from its captures. -/
theorem runMulti_samplesOf (h : runMulti cfg (State.init clock alive) as = some s)
    (hpanic : .worker w .panic ∉ as) :
    (s.workers[w]?).elim [] Worker.samples = cfg.samples (as.filterMap (Action.outcomeOf w)) := by
  refine Run.exec_trace (P := fun as s => .worker w .panic ∉ as →
    (s.workers[w]?).elim [] Worker.samples = cfg.samples (as.filterMap (Action.outcomeOf w)))
    (fun _ => rfl) ?_ h hpanic
  intro as m a s hm ih hstep hpanic
  rw [List.mem_append, List.mem_singleton, not_or] at hpanic
  rw [State.step_samplesOf (runMulti_joined hm) (Ne.symm hpanic.2) hstep, filterMap_concat,
    Config.samples_append, ih hpanic.1]

/-- What was written is what was written of the workers, in some order. -/
theorem runMulti_written_perm (h : runMulti cfg (State.init clock alive) as = some s) :
    (s.written.map Write.msg).Perm ((List.range s.workers.length).flatMap s.writtenFrom) := by
  have hlt : ∀ x ∈ s.chan.got, x.1 < s.workers.length := by
    intro x hx
    obtain ⟨y, hy, rfl⟩ := List.mem_map.mp hx
    obtain ⟨v, hv⟩ := (runMulti_annotationKnows h).worker y hy
    exact (List.getElem?_eq_some_iff.mp hv).1
  have hperm := Channel.got_perm hlt
  rw [State.chan, List.map_map] at hperm
  refine hperm.trans (List.Perm.of_eq (List.flatMap_congr fun w _ => ?_))
  exact State.chan_gotFrom s w

end Multi

/-- A run of `run_multi` that has returned, in which no worker panics or sends after the
drain. -/
structure CompleteRun (cfg : Config) (clock : ℕ) (alive : ℤ → Bool) (as : List Action) (s : State) :
    Prop where
  run : runMulti cfg (State.init clock alive) as = some s
  returned : ∃ ok, s.main = .returned ok
  noPanic : ∀ w, .worker w .panic ∉ as
  noLate : ¬ LateSend cfg (State.init clock alive) as

/-- What the sink was handed. -/
def State.handed (s : State) : List (List Frame × SampleMeta) :=
  s.written.map fun x => (x.msg.frames, x.info)

/-- A run that has returned and leaves nothing in the channel had no late send. -/
theorem completeRun_of_quiet {cfg : Config} {clock : ℕ} {alive : ℤ → Bool} {as : List Action}
    {s : State} (h : runMulti cfg (State.init clock alive) as = some s) {ok : Bool}
    (hret : s.main = .returned ok) (hquiet : s.quiet = true) (hpanic : ∀ w, .worker w .panic ∉ as) :
    CompleteRun cfg clock alive as s := by
  have hknows := runMulti_drainKnows h
  rw [DrainKnows, hret] at hknows
  exact ⟨h, ⟨ok, hret⟩, hpanic, hknows.mp (s.quiet_iff.mp hquiet)⟩

section Complete

variable {cfg : Config} {clock : ℕ} {alive : ℤ → Bool} {as : List Action} {s : State}

theorem CompleteRun.done (h : CompleteRun cfg clock alive as s) {w : ℕ} {x : Worker}
    (hx : s.workers[w]? = some x) : x.pc = .done := by
  obtain ⟨ok, hret⟩ := h.returned
  have hjoined := runMulti_joined h.run
  rw [State.Joined, hret] at hjoined
  exact hjoined w x hx

/-- What was written of a worker is what it has sent. -/
theorem CompleteRun.writtenFrom_eq_sentBy (h : CompleteRun cfg clock alive as s) (w : ℕ) :
    s.writtenFrom w = s.sentBy w := by
  obtain ⟨ok, hret⟩ := h.returned
  have hknows := runMulti_drainKnows h.run
  rw [DrainKnows, hret] at hknows
  have hcons := runMulti_conserves h.run w
  rwa [State.chan_gotFrom, show s.chan.queue w = [] from hknows.mpr h.noLate w,
    List.append_nil] at hcons

/-- What was written of a worker is what it captured. -/
theorem CompleteRun.writtenFrom_eq (h : CompleteRun cfg clock alive as s) (w : ℕ) :
    (s.writtenFrom w).map SampleMsg.frames = cfg.samples (as.filterMap (Action.outcomeOf w)) := by
  rw [h.writtenFrom_eq_sentBy w, ← runMulti_samplesOf h.run (h.noPanic w), State.sentBy]
  cases hx : s.workers[w]? with
  | none => rfl
  | some x => simp [Worker.samples, Worker.pending, h.done hx]

/-- The stacks the sink was handed are those the workers captured, in some order. -/
theorem CompleteRun.handed_perm (h : CompleteRun cfg clock alive as s) :
    (s.handed.map Prod.fst).Perm ((List.range s.workers.length).flatMap fun w =>
      cfg.samples (as.filterMap (Action.outcomeOf w))) := by
  have hperm := (runMulti_written_perm h.run).map SampleMsg.frames
  rw [List.map_map, List.map_flatMap] at hperm
  rw [State.handed, List.map_map]
  exact hperm.trans (List.Perm.of_eq (List.flatMap_congr fun w _ => h.writtenFrom_eq w))

/-- A complete run writes what the captures of the workers amount to. -/
theorem CompleteRun.profiles (h : CompleteRun cfg clock alive as s) {sts : ℕ → List (List Frame)}
    (hsamples : ∀ w, cfg.samples (as.filterMap (Action.outcomeOf w)) = sts w) :
    (∀ w, (s.writtenFrom w).map SampleMsg.frames = sts w) ∧
      ShowsStacks s.handed ((List.range s.workers.length).flatMap sts) := by
  refine ⟨fun w => (h.writtenFrom_eq w).trans (hsamples w), showsStacks_of_perm ?_ ?_⟩
  · exact h.handed_perm.trans (List.Perm.of_eq (List.flatMap_congr fun w _ => hsamples w))
  · intro st hst
    obtain ⟨w, -, hmem⟩ := List.mem_flatMap.mp hst
    rw [← hsamples w] at hmem
    exact Config.ne_nil_of_mem_samples st hmem

end Complete

/-- The samples of the captures are the stacks of the snapshots. -/
theorem samples_captures {t : Target} (env : Env) (version : String)
    (hpick : pick env version = some t.layout) {xs : List (Snapshot t)} (hsteady : Steady xs)
    {maxDepth : ℕ} (hopen : AllOpen maxDepth xs) (cfg : Config) :
    cfg.samples ((captures .release t maxDepth (xs.map Snapshot.rem) .new).map Except.toOption) =
      profiled cfg maxDepth xs := by
  rw [captures_decode env version hpick hsteady hopen]
  rfl

/-- The target while it executes `methodCall`, and when its memory is gone. -/
def methodSnapshots : List (Snapshot ⟨0x403110, layout8_3⟩) :=
  [{ rem := methodCall
     calls := some methodCalls
     texts := {0x600, 0x680, 0x6A0}
     runs := fun _ h => Option.some.inj h ▸ runsAt_methodCall
     fails := fun h => nomatch h },
   { rem := methodCall.below 0
     calls := none
     texts := ∅
     runs := fun _ h => nomatch h
     fails := fun _ => ⟨_, rfl⟩ }]

theorem steady_methodSnapshots : Steady methodSnapshots := by
  intro x hx y hy p hp hp' bytes bytes' h h'
  have hfirst : ∀ z ∈ methodSnapshots, p ∈ z.texts → z.rem = methodCall := by
    intro z hz hp
    rcases List.mem_cons.mp hz with rfl | hz
    · rfl
    · obtain rfl := List.mem_singleton.mp hz
      exact absurd hp (Set.notMem_empty p)
  rw [hfirst x hx hp] at h
  rw [hfirst y hy hp'] at h'
  exact Except.ok.inj (h.read_eq.symm.trans h'.read_eq)

theorem allOpen_methodSnapshots (maxDepth : ℕ) : AllOpen maxDepth methodSnapshots := by
  intro x hx
  rcases List.mem_cons.mp hx with rfl | hx
  · exact windowsOpen_methodCall maxDepth
  · obtain rfl := List.mem_singleton.mp hx
    exact fun exAddr hex => nomatch hex

/-- What the two captures return. -/
theorem captures_methodSnapshots :
    (captures .release ⟨0x403110, layout8_3⟩ 5 (methodSnapshots.map Snapshot.rem) .new).map
      Except.toOption =
        [some [⟨"a", some "C", some "f", 7⟩, ⟨"{main}", none, some "f", 1⟩], none] :=
  (captures_decode ⟨none, none⟩ "8.3.1" (by decide) steady_methodSnapshots
    (allOpen_methodSnapshots 5)).trans (by decide +kernel)

namespace Scenario

/-- The stack of a method that top-level code has called. -/
def methodStack : List Frame := [⟨"a", some "C", some "f", 7⟩, ⟨"{main}", none, some "f", 1⟩]

/-- The method is captured once, and then the target is gone. -/
def methodRun : List Single.Action :=
  singleStart ++ [.capture (some methodStack), .describe none none, .write true, .go, .go, .pace,
    .tick (fromSecs 1), .pace, .pace, .target false, .capture none, .go, .finish true]

/-- The same for a worker of `run_multi`. -/
def methodMulti : List Action :=
  [.main .go, .main .go, .main (.discover (some [100])), .main (.spawn true), .main .go,
    .main .go, .main .go, .worker 0 .start, .worker 0 .check, .worker 0 .pace, .worker 0 .pace,
    .worker 0 (.capture (some methodStack)), .worker 0 (.describe none none), .worker 0 .send,
    .worker 0 .check, .worker 0 .pace, .tick (fromSecs 1), .worker 0 .pace, .worker 0 .pace,
    .procExit 100, .worker 0 (.capture none), .worker 0 .probe, .worker 0 .finish,
    .main (.recv 0 true), .main .go, .main .go, .main (.reap 100), .main .go,
    .main (.discover (some [])), .main .go, .interrupt, .main .go, .main .go, .main .go,
    .main .disconnected, .main .go, .main (.finish true), .main .go]

end Scenario

open Scenario

theorem profiled_methodSnapshots : profiled everySecond 5 methodSnapshots = [methodStack] := by
  decide +kernel

/-- The snapshots of the only worker. -/
def multiSnapshots (w : ℕ) : List (Snapshot ⟨0x403110, layout8_3⟩) :=
  if w = 0 then methodSnapshots else []

theorem steady_multiSnapshots (w : ℕ) : Steady (multiSnapshots w) := by
  unfold multiSnapshots
  split
  · exact steady_methodSnapshots
  · exact fun x hx => absurd hx List.not_mem_nil

theorem allOpen_multiSnapshots (maxDepth w : ℕ) : AllOpen maxDepth (multiSnapshots w) := by
  unfold multiSnapshots
  split
  · exact allOpen_methodSnapshots maxDepth
  · exact fun x hx => absurd hx List.not_mem_nil

end PhpFastProfile
