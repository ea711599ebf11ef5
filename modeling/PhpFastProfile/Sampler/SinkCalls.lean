import PhpFastProfile.Sampler.Session

/-!
# The calls of the sink

A sink is written to and then finished, and `PprofSink` relies on it: its writer is taken
by the first call of `finish`, and a second one panics.  Until then it has written nothing
at all, so that a run that does not come to its end leaves an empty file.  What `finish`
leaves in the file is one message, if the call succeeds; if it fails, the file is empty, or
it has the beginning of such a message.

## Main definitions

* `SinkCall` — a call of the sink.
* `State.sinkCall`, `Single.State.sinkCall` — the call a step makes.
* `PprofOutput` — `PprofSink` with its file.
* `PprofOutput.Sound` — what is in the file, by the outcome of `finish`.

## Main results

* `runMulti_sinkCalls`, `Single.run_sinkCalls` — the calls of a run: writes, and then at most
  one `finish`.
* `PprofOutput.run_protocol` — what `PprofSink` makes of such calls.
* `runMulti_output`, `Single.run_output` — **the panic is never reached, and what a run leaves
  in the file is one message of all its samples, exactly if its `finish` has succeeded.**
-/

namespace PhpFastProfile

/-- A call of the sink, with its outcome. -/
inductive SinkCall where
  | writeSample (frames : List Frame) (info : SampleMeta) (accepted : Bool)
  | finish (ok : Bool)
  deriving DecidableEq, Repr

/-- What is handed over with a call. -/
def SinkCall.sample : SinkCall → Option (List Frame × SampleMeta)
  | .writeSample frames info _ => some (frames, info)
  | .finish _ => none

/-- These samples are written, and then the sink is finished, unless it is too early. -/
def Protocol (calls : List SinkCall) (samples : List (List Frame × SampleMeta))
    (finished : Option Bool) : Prop :=
  ∃ writes, calls = writes ++ (finished.map SinkCall.finish).toList ∧
    writes.map SinkCall.sample = samples.map some

/-! ### `run_multi` -/

/-- The call of the sink that made the write. -/
def Write.call (x : Write) : SinkCall := .writeSample x.msg.frames x.info x.accepted

/-- The outcome of `sink.finish()`, once it has returned. -/
def MainPc.finished : MainPc → Option Bool
  | .leaving ok => some ok
  | .returned ok => some ok
  | _ => none

/-- The call a step makes. -/
def State.sinkCall (m : State) : Action → Option SinkCall
  | .main (.recv w accepted) =>
    (m.recv w accepted).bind fun s => s.written.getLast?.map Write.call
  | .main (.finish ok) => (m.finish ok).map fun _ => .finish ok
  | _ => none

section Multi

variable {cfg : Config} {clock : ℕ} {alive : ℤ → Bool} {as : List Action} {m s : State} {a : Action}

/-- A step writes only while the sink is open, and finishes it only once. -/
theorem State.step_sinkCalls (h : m.step cfg a = some s) :
    s.written.map Write.call ++ (s.main.finished.map SinkCall.finish).toList =
      m.written.map Write.call ++ (m.main.finished.map SinkCall.finish).toList ++
        (m.sinkCall a).toList := by
  rcases step_parties h with ⟨w, b, rfl, h⟩ | ⟨b, rfl, h⟩ | hevent
  · obtain ⟨y, y', -, -, rfl⟩ := workerStep_eq_some h
    simp [sinkCall]
  · cases mainStep_move h with
    | recv w accepted deadline x msg rest hpc hx hqueue =>
      have hcall : m.recv w accepted = some _ := h
      simp [sinkCall, hcall, hpc, MainPc.finished]
    | drain w accepted deadline x msg rest hpc hx hqueue =>
      have hcall : m.recv w accepted = some _ := h
      simp [sinkCall, hcall, hpc, MainPc.finished]
    | finish ok hpc =>
      have hcall : m.finish ok = some _ := h
      simp [sinkCall, hcall, hpc, MainPc.finished]
    | _ => simp [sinkCall, MainPc.finished, drained, stopWorker, *]
  · cases hevent <;> simp [sinkCall]

/-- **`run_multi` writes its samples, and finishes the sink at most once and behind them.** -/
theorem runMulti_sinkCalls (h : runMulti cfg (State.init clock alive) as = some s) :
    Protocol (Run.observe (State.step cfg) State.sinkCall (State.init clock alive) as) s.handed
      s.main.finished := by
  refine ⟨s.written.map Write.call, ?_, by simp [State.handed, Write.call, SinkCall.sample]⟩
  refine Run.exec_trace (P := fun as s =>
    Run.observe (State.step cfg) State.sinkCall (State.init clock alive) as =
      s.written.map Write.call ++ (s.main.finished.map SinkCall.finish).toList) rfl ?_ h
  intro as m a s hm ih hstep
  rw [Run.observe_concat hm, ih, State.step_sinkCalls hstep]

end Multi

/-! ### `Sampler::run` -/

namespace Single

/-- The call of the sink that made the write. -/
def Write.call (x : Write) : SinkCall := .writeSample x.frames x.info x.accepted

/-- The outcome of `self.sink.finish()`, once it has returned. -/
def Pc.finished : Pc → Option Bool
  | .returned ok => some ok
  | _ => none

/-- The call a step makes. -/
def State.sinkCall (m : State) : Action → Option SinkCall
  | .write accepted =>
    match m.pc with
    | .writing frames info => some (.writeSample frames info accepted)
    | _ => none
  | .finish ok =>
    match m.pc with
    | .finishing => some (.finish ok)
    | _ => none
  | _ => none

/-- What the sink was handed. -/
def State.handed (s : State) : List (List Frame × SampleMeta) :=
  s.written.map fun x => (x.frames, x.info)

variable {cfg : Config} {clock : ℕ} {as : List Action} {m s : State} {a : Action}

theorem step_sinkCalls (h : step cfg m a = some s) :
    s.written.map Write.call ++ (s.pc.finished.map SinkCall.finish).toList =
      m.written.map Write.call ++ (m.pc.finished.map SinkCall.finish).toList ++
        (m.sinkCall a).toList := by
  cases step_move h <;> simp [State.sinkCall, Pc.finished, Write.call, *]

/-- **So does `Sampler::run`.** -/
theorem run_sinkCalls (h : run cfg (init clock) as = some s) :
    Protocol (Run.observe (step cfg) State.sinkCall (init clock) as) s.handed s.pc.finished := by
  refine ⟨s.written.map Write.call, ?_, by simp [State.handed, Write.call, SinkCall.sample]⟩
  refine Run.exec_trace (P := fun as s =>
    Run.observe (step cfg) State.sinkCall (init clock) as =
      s.written.map Write.call ++ (s.pc.finished.map SinkCall.finish).toList) rfl ?_ h
  intro as m a s hm ih hstep
  rw [Run.observe_concat hm, ih, step_sinkCalls hstep]

end Single

/-! ### `PprofSink` and its file -/

/-- How `PprofSink::finish` ends without a result. -/
inductive FinishError (ε : Type) where
  | encode (e : ε)
  /-- `pprof finish called twice`. -/
  | panic
  | write
  deriving DecidableEq, Repr

/-- What a call of `finish` meets outside the sink. -/
structure FinishEnv where
  order : PprofBuilder.DrainOrder
  /-- The system clock. -/
  now : ℤ
  /-- How many of the bytes come to the file when they cannot be written or flushed; `none` if
  they can. -/
  fault : Option ℕ

/-- `PprofSink`, with the file behind its writer. -/
structure PprofOutput where
  sink : PprofSink
  /-- Whether the sink has its writer, which the first `finish` takes. -/
  w : Bool
  file : List UInt8

namespace PprofOutput

/-- The sink on an empty file, with the reading of the clock. -/
def new (start : ℤ) : PprofOutput := { sink := .new start, w := true, file := [] }

section Run

variable {ε : Type} (encode : Profile → Except ε (List UInt8))
  (gzip : List UInt8 → Except ε (List UInt8)) (env : FinishEnv)

/-- `PprofSink::finish`. -/
def finish (s : PprofOutput) : Except (FinishError ε) Unit × PprofOutput :=
  let (taken, builder) := s.sink.builder.takeGzipped env.order env.now encode gzip
  let s := { s with sink := { builder } }
  match taken with
  | .error e => (.error (.encode e), s)
  | .ok (bytes, _, _) =>
    if s.w then
      match env.fault with
      | none => (.ok (), { s with w := false, file := s.file ++ bytes })
      | some n => (.error .write, { s with w := false, file := s.file ++ bytes.take n })
    else (.error .panic, s)

/-- The sink after some calls, and what its calls of `finish` have returned. -/
def run (s : PprofOutput) : List SinkCall → List (Except (FinishError ε) Unit) × PprofOutput
  | [] => ([], s)
  | .writeSample frames info _ :: calls =>
    run { s with sink := s.sink.writeSample frames info } calls
  | .finish _ :: calls =>
    let (r, s) := s.finish encode gzip env
    let (rs, s) := s.run calls
    (r :: rs, s)

/-- Writing a sample leaves the file alone. -/
theorem run_writes : ∀ {writes : List SinkCall} {samples : List (List Frame × SampleMeta)},
    writes.map SinkCall.sample = samples.map some → ∀ (s : PprofOutput) (calls : List SinkCall),
      s.run encode gzip env (writes ++ calls) =
        run encode gzip env { s with sink := s.sink.writeAll samples } calls := by
  intro writes
  induction writes with
  | nil =>
    intro samples h s calls
    obtain rfl : samples = [] := List.map_eq_nil_iff.mp h.symm
    rfl
  | cons call writes ih =>
    intro samples h s calls
    cases samples with
    | nil => simp at h
    | cons sample samples =>
      rw [List.map_cons, List.map_cons, List.cons.injEq] at h
      cases call with
      | finish ok => cases h.1
      | writeSample frames info accepted =>
        obtain rfl : (frames, info) = sample := Option.some.inj h.1
        exact ih h.2 _ calls

/-- The bytes are a message that resolves to all the samples. -/
def Message (samples : List (List Frame × SampleMeta)) (bytes : List UInt8) : Prop :=
  ∃ profile buf, encode profile = .ok buf ∧ gzip buf = .ok bytes ∧
    profile.resolved.Perm (samples.map fun x => some (x.1.map Frame.key))

variable {encode gzip env}

/-- What is taken was encoded and compressed. -/
theorem exists_of_takeGzipped {b : PprofBuilder} {out : List UInt8 × ℤ × ℤ}
    (h : (b.takeGzipped env.order env.now encode gzip).1 = .ok out) : ∃ buf,
      encode (b.buildProfile env.order env.now).1 = .ok buf ∧ gzip buf = .ok out.1 := by
  unfold PprofBuilder.takeGzipped at h
  cases hencode : encode (b.buildProfile env.order env.now).1 with
  | error e => simp [hencode] at h
  | ok buf =>
    cases hgzip : gzip buf with
    | error e => simp [hencode, hgzip] at h
    | ok gzipped =>
      simp only [hencode, hgzip, Except.ok.injEq] at h
      exact ⟨buf, rfl, by rw [← h, hgzip]⟩

/-- What is taken after these samples is a message of them. -/
theorem message_of_takeGzipped {start : ℤ} {samples : List (List Frame × SampleMeta)}
    {out : List UInt8 × ℤ × ℤ}
    (h : (((PprofSink.new start).writeAll samples).builder.takeGzipped env.order env.now encode
      gzip).1 = .ok out) : Message encode gzip samples out.1 := by
  obtain ⟨buf, hencode, hgzip⟩ := exists_of_takeGzipped h
  obtain ⟨htables, hacc⟩ := PprofSink.accounted_writeAll start samples
  refine ⟨_, buf, hencode, hgzip, ?_⟩
  have hperm := (PprofBuilder.buildProfile_resolves htables hacc env.order env.now).1
  rwa [List.map_map, List.map_map] at hperm

/-- **How the first `finish` ends**: with a message in the file, without any, or with the
beginning of one. -/
theorem finish_cases (encode : Profile → Except ε (List UInt8))
    (gzip : List UInt8 → Except ε (List UInt8)) (env : FinishEnv) (start : ℤ)
    (samples : List (List Frame × SampleMeta)) {s : PprofOutput}
    (hsink : s.sink = (PprofSink.new start).writeAll samples) (hw : s.w = true)
    (hfile : s.file = []) :
    ((s.finish encode gzip env).1 = .ok () ∧
      Message encode gzip samples (s.finish encode gzip env).2.file) ∨
    (∃ e, (s.finish encode gzip env).1 = .error (.encode e) ∧
      (s.finish encode gzip env).2.file = []) ∨
    ((s.finish encode gzip env).1 = .error .write ∧ ∃ bytes, Message encode gzip samples bytes ∧
      (s.finish encode gzip env).2.file <+: bytes) := by
  unfold finish
  cases htaken : s.sink.builder.takeGzipped env.order env.now encode gzip with
  | mk taken builder =>
    cases taken with
    | error e => exact Or.inr (Or.inl ⟨e, rfl, hfile⟩)
    | ok out =>
      have hmessage : Message encode gzip samples out.1 := by
        rw [hsink] at htaken
        exact message_of_takeGzipped (congrArg Prod.fst htaken)
      dsimp only
      rw [if_pos hw, hfile]
      cases env.fault with
      | none => exact Or.inl ⟨rfl, hmessage⟩
      | some n => exact Or.inr (Or.inr ⟨rfl, out.1, hmessage, List.take_prefix _ _⟩)

end Run

/-- Whether a call of `finish` has succeeded. -/
def succeeded {ε : Type} (r : Except (FinishError ε) Unit) : Bool := r.toOption.isSome

/-- What `PprofSink` makes of the calls of a run.  `out` is what its calls of `finish` have
returned, and the sink after them; `finished` is the outcome of `finish` in the run. -/
structure Sound {ε : Type} (encode : Profile → Except ε (List UInt8))
    (gzip : List UInt8 → Except ε (List UInt8))
    (out : List (Except (FinishError ε) Unit) × PprofOutput)
    (samples : List (List Frame × SampleMeta)) (finished : Option Bool) : Prop where
  noPanic : .error .panic ∉ out.1
  unfinished : finished = none → out.2.file = []
  /-- The file is one message, of all the samples. -/
  message : finished = some true → Message encode gzip samples out.2.file
  /-- The file is empty, or the beginning of such a message. -/
  part : finished = some false →
    out.2.file = [] ∨ ∃ bytes, Message encode gzip samples bytes ∧ out.2.file <+: bytes

/-- **The calls suit `PprofSink`**, if the outcome of `finish` is its own. -/
theorem run_protocol {ε : Type} (encode : Profile → Except ε (List UInt8))
    (gzip : List UInt8 → Except ε (List UInt8)) (env : FinishEnv) (start : ℤ)
    {calls : List SinkCall} {samples : List (List Frame × SampleMeta)} {finished : Option Bool}
    (h : Protocol calls samples finished)
    (hanswers : ((new start).run encode gzip env calls).1.map succeeded = finished.toList) :
    Sound encode gzip ((new start).run encode gzip env calls) samples finished := by
  obtain ⟨writes, rfl, hwrites⟩ := h
  rw [run_writes encode gzip env hwrites] at hanswers ⊢
  cases finished with
  | none => exact ⟨List.not_mem_nil, fun _ => rfl, nofun, nofun⟩
  | some ok =>
    let s : PprofOutput := { new start with sink := (new start).sink.writeAll samples }
    have hone : s.run encode gzip env [.finish ok] =
        ([(s.finish encode gzip env).1], (s.finish encode gzip env).2) := rfl
    change (s.run encode gzip env [.finish ok]).1.map succeeded = [ok] at hanswers
    change Sound encode gzip (s.run encode gzip env [.finish ok]) samples (some ok)
    rw [hone, List.map_singleton, List.singleton_inj] at hanswers
    rw [hone]
    rcases finish_cases encode gzip env start samples (s := s) rfl rfl rfl with
      ⟨hr, hmessage⟩ | ⟨e, hr, hempty⟩ | ⟨hr, bytes, hmessage, hpart⟩
    · rw [hr] at hanswers
      refine ⟨by simp [hr], nofun, fun _ => hmessage, fun hfail => ?_⟩
      rw [← hanswers] at hfail
      cases hfail
    · rw [hr] at hanswers
      refine ⟨by simp [hr], nofun, fun hok => ?_, fun _ => Or.inl hempty⟩
      rw [← hanswers] at hok
      cases hok
    · rw [hr] at hanswers
      refine ⟨by simp [hr], nofun, fun hok => ?_, fun _ => Or.inr ⟨bytes, hmessage, hpart⟩⟩
      rw [← hanswers] at hok
      cases hok

end PprofOutput

/-! ### The output of a run -/

/-- **What `run_multi` leaves in the file of `PprofSink`.**  At no point of a run has a second
`finish` panicked, and the file is empty until the sink is finished.  When the `finish` of the
run, which is that of the sink, has succeeded, the file is one message that resolves to all the
samples that were written; when it has failed, in the encoder, in gzip or in the file, the file is
empty or the beginning of such a message. -/
theorem runMulti_output {cfg : Config} {clock : ℕ} {alive : ℤ → Bool} {as : List Action}
    {s : State} (h : runMulti cfg (State.init clock alive) as = some s) {ε : Type}
    (encode : Profile → Except ε (List UInt8)) (gzip : List UInt8 → Except ε (List UInt8))
    (env : FinishEnv) (start : ℤ)
    (hanswers : ((PprofOutput.new start).run encode gzip env
        (Run.observe (State.step cfg) State.sinkCall (State.init clock alive) as)).1.map
      PprofOutput.succeeded = s.main.finished.toList) :
    PprofOutput.Sound encode gzip ((PprofOutput.new start).run encode gzip env
        (Run.observe (State.step cfg) State.sinkCall (State.init clock alive) as))
      s.handed s.main.finished :=
  PprofOutput.run_protocol encode gzip env start (runMulti_sinkCalls h) hanswers

/-- **So does `Sampler::run`.** -/
theorem Single.run_output {cfg : Config} {clock : ℕ} {as : List Action} {s : State}
    (h : run cfg (init clock) as = some s) {ε : Type}
    (encode : Profile → Except ε (List UInt8)) (gzip : List UInt8 → Except ε (List UInt8))
    (env : FinishEnv) (start : ℤ)
    (hanswers : ((PprofOutput.new start).run encode gzip env
        (Run.observe (step cfg) State.sinkCall (init clock) as)).1.map
      PprofOutput.succeeded = s.pc.finished.toList) :
    PprofOutput.Sound encode gzip ((PprofOutput.new start).run encode gzip env
        (Run.observe (step cfg) State.sinkCall (init clock) as))
      s.handed s.pc.finished :=
  PprofOutput.run_protocol encode gzip env start (run_sinkCalls h) hanswers

open Scenario

/-- An encoder that succeeds. -/
def oneByte : Profile → Except Unit (List UInt8) := fun _ => .ok [1]

/-- A file that takes all bytes. -/
def takesAll (order : PprofBuilder.DrainOrder) : FinishEnv := ⟨order, 5, none⟩

theorem runMulti_output_methodMulti :
    ∃ s, runMulti everySecond oneProcess methodMulti = some s ∧ s.main.finished = some true ∧
      PprofOutput.Sound oneByte .ok
        ((PprofOutput.new 0).run oneByte .ok (takesAll ⟨id, fun _ => .rfl⟩)
          (Run.observe (State.step everySecond) State.sinkCall oneProcess methodMulti))
        s.handed (some true) := by
  have h : (runMulti everySecond oneProcess methodMulti).map State.main =
      some (.returned true) := by
    decide +kernel
  have hanswers : ((PprofOutput.new 0).run oneByte .ok (takesAll ⟨id, fun _ => .rfl⟩)
      (Run.observe (State.step everySecond) State.sinkCall oneProcess methodMulti)).1.map
        PprofOutput.succeeded = [true] := by
    decide +kernel
  obtain ⟨s, hs, hret⟩ := Option.map_eq_some_iff.mp h
  have hfin : s.main.finished = some true := by rw [hret]; rfl
  exact ⟨s, hs, hfin, hfin ▸ runMulti_output hs _ _ _ 0 (by rw [hfin]; exact hanswers)⟩

theorem Single.run_output_methodRun :
    ∃ s, run everySecond (init 0) methodRun = some s ∧ s.pc.finished = some true ∧
      PprofOutput.Sound oneByte .ok
        ((PprofOutput.new 0).run oneByte .ok (takesAll ⟨id, fun _ => .rfl⟩)
          (Run.observe (step everySecond) State.sinkCall (init 0) methodRun))
        s.handed (some true) := by
  have h : (run everySecond (init 0) methodRun).map State.pc = some (.returned true) := by
    decide +kernel
  have hanswers : ((PprofOutput.new 0).run oneByte .ok (takesAll ⟨id, fun _ => .rfl⟩)
      (Run.observe (step everySecond) State.sinkCall (init 0) methodRun)).1.map
        PprofOutput.succeeded = [true] := by
    decide +kernel
  obtain ⟨s, hs, hret⟩ := Option.map_eq_some_iff.mp h
  have hfin : s.pc.finished = some true := by rw [hret]; rfl
  exact ⟨s, hs, hfin, hfin ▸ run_output hs _ _ _ 0 (by rw [hfin]; exact hanswers)⟩

end PhpFastProfile
