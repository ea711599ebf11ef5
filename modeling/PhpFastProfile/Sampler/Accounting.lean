import PhpFastProfile.Sampler.Annotation
import PhpFastProfile.Sampler.RunSingle
import PhpFastProfile.Sampler.WorkerTable

/-!
# What the two samplers count

`Sampler::run` and `run_multi` filter and write the same stacks.  They count them in
different places: the one counts what `sample_once` returns as `Ok`, which an empty
or dropped stack is and a failed write is not; the other counts what it receives,
which a failed write is and a dropped stack is not.

## Main definitions

* `Config.samples`, `Config.dropped` — the stacks to be written, and how many are not.
* `Single.Knows`, `MultiKnows` — what each sampler has written and counted.

## Main results

* `Single.run_knows`, `runMulti_knows` — a run of each sampler, told from its outcomes.
* `accounting_iff` — **both write the same stacks, and both count what was accepted
  exactly when no stack is dropped and no write fails.**
* `accounting_not` — two runs with the same outcomes that both count wrongly.
-/

namespace PhpFastProfile

/-! ### Outcomes -/

/-- The stack is handed to the sink. -/
def Config.keeps (cfg : Config) (frames : List Frame) : Bool :=
  !(frames.isEmpty || leafIsAny frames cfg.dropLeaf)

/-- The stacks to be written of what the captures return; `none` is an error. -/
def Config.samples (cfg : Config) (outcomes : List (Option (List Frame))) : List (List Frame) :=
  outcomes.filterMap (Option.filter cfg.keeps)

/-- How many of the stacks are not written. -/
def Config.dropped (cfg : Config) (outcomes : List (Option (List Frame))) : ℕ :=
  outcomes.countP fun o => o.any fun frames => !cfg.keeps frames

section Outcomes

variable (cfg : Config) (outcomes outcomes' : List (Option (List Frame)))

@[simp] theorem Config.samples_nil : cfg.samples [] = [] := rfl

@[simp] theorem Config.dropped_nil : cfg.dropped [] = 0 := rfl

@[simp] theorem Config.samples_append :
    cfg.samples (outcomes ++ outcomes') = cfg.samples outcomes ++ cfg.samples outcomes' :=
  List.filterMap_append

@[simp] theorem Config.dropped_append :
    cfg.dropped (outcomes ++ outcomes') = cfg.dropped outcomes + cfg.dropped outcomes' :=
  List.countP_append

@[simp] theorem Config.samples_none : cfg.samples [none] = [] := rfl

@[simp] theorem Config.dropped_none : cfg.dropped [none] = 0 := rfl

theorem Config.samples_some (frames : List Frame) :
    cfg.samples [some frames] = if cfg.keeps frames then [frames] else [] := by
  cases hkeep : cfg.keeps frames <;> simp [samples, Option.filter, hkeep]

theorem Config.dropped_some (frames : List Frame) :
    cfg.dropped [some frames] = if cfg.keeps frames then 0 else 1 := by
  cases hkeep : cfg.keeps frames <;> simp [dropped, hkeep]

theorem Config.dropped_eq_zero_iff :
    cfg.dropped outcomes = 0 ↔ ∀ frames, some frames ∈ outcomes → cfg.keeps frames = true := by
  unfold dropped
  rw [List.countP_eq_zero]
  constructor
  · intro h frames hmem
    simpa using h (some frames) hmem
  · intro h o ho
    cases o with
    | none => simp
    | some frames => simp [h frames ho]

end Outcomes

/-- What is read off a run comes off its last action at the end. -/
theorem filterMap_concat {α β : Type} (f : α → Option β) (as : List α) (a : α) :
    (as ++ [a]).filterMap f = as.filterMap f ++ (f a).toList := by
  rw [List.filterMap_append]
  cases h : f a <;> simp [h]

/-! ### `Sampler::run` -/

namespace Single

/-- What a capture returns. -/
def Action.outcome : Action → Option (Option (List Frame))
  | .capture frames => some frames
  | _ => none

/-- What the sink returns for a write. -/
def Action.result : Action → Option Bool
  | .write accepted => some accepted
  | _ => none

/-- The stack that is on its way to the sink. -/
def State.pending (s : State) : List (List Frame) :=
  match s.pc with
  | .describing frames => [frames]
  | .writing frames _ => [frames]
  | _ => []

/-- What `Sampler::run` has written and counted, told from the outcomes so far. -/
structure Knows (cfg : Config) (as : List Action) (s : State) : Prop where
  samples : s.written.map Write.frames ++ s.pending = cfg.samples (as.filterMap Action.outcome)
  results : s.written.map Write.accepted = as.filterMap Action.result
  taken : s.taken = cfg.dropped (as.filterMap Action.outcome) + s.written.countP Write.accepted

/-- What a step adds: some writes, of the stack on its way or of none. -/
theorem Knows.concat {cfg : Config} {as : List Action} {m s : State} {a : Action}
    (hm : Knows cfg as m) (ws : List Write) (hwritten : s.written = m.written ++ ws)
    (hpending : ws.map Write.frames ++ s.pending = m.pending ++ cfg.samples a.outcome.toList)
    (hresult : ws.map Write.accepted = a.result.toList)
    (htaken : s.taken = m.taken + (cfg.dropped a.outcome.toList + ws.countP Write.accepted)) :
    Knows cfg (as ++ [a]) s := by
  constructor
  · rw [hwritten, List.map_append, List.append_assoc, hpending, filterMap_concat,
      Config.samples_append, ← hm.samples, List.append_assoc]
  · rw [hwritten, List.map_append, hresult, filterMap_concat, hm.results]
  · rw [hwritten, List.countP_append, filterMap_concat, Config.dropped_append, htaken, hm.taken]
    omega

theorem knows_step {cfg : Config} {as : List Action} {m s : State} {a : Action}
    (hm : Knows cfg as m) (h : step cfg m a = some s) : Knows cfg (as ++ [a]) s := by
  cases step_move h with
  | drops frames hpc hdrop =>
    -- counted, and not written
    have hkeep : cfg.keeps frames = false := by rw [Config.keeps, hdrop, Bool.not_true]
    refine hm.concat [] (by simp) ?_ rfl ?_
    · simp [State.pending, hpc, Action.outcome, Config.samples_some, hkeep]
    · simp [Action.outcome, Config.dropped_some, hkeep]
  | captures frames hpc hkeep =>
    have hkeep : cfg.keeps frames = true := by rw [Config.keeps, hkeep, Bool.not_false]
    refine hm.concat [] (by simp) ?_ rfl ?_
    · simp [State.pending, hpc, Action.outcome, Config.samples_some, hkeep]
    · simp [Action.outcome, Config.dropped_some, hkeep]
  | writes frames info hpc =>
    refine hm.concat [⟨frames, info, true⟩] rfl ?_ rfl ?_
    · simp [State.pending, hpc, Action.outcome]
    · simp [Action.outcome]
  | writeFails frames info hpc =>
    -- written, and not counted
    refine hm.concat [⟨frames, info, false⟩] rfl ?_ rfl ?_
    · simp [State.pending, hpc, Action.outcome]
    · simp [Action.outcome]
  | captureFails hpc =>
    exact hm.concat [] (by simp) (by simp [State.pending, hpc, Action.outcome]) rfl rfl
  | tick | interrupt | target =>
    exact hm.concat [] (by simp) (by simp [State.pending, Action.outcome]) rfl rfl
  | describes uri method frames hpc =>
    exact hm.concat [] (by simp) (by simp [State.pending, hpc, Action.outcome]) rfl rfl
  | finish ok hpc =>
    exact hm.concat [] (by simp) (by simp [State.pending, hpc, Action.outcome]) rfl rfl
  | paces p p' next hpc | paced p next hpc =>
    exact hm.concat [] (by simp) (by simp [State.pending, hpc, Action.outcome]) rfl rfl
  | start hpc | time hpc | stopped hpc | goesOn hpc | expired hpc | waits hpc | alive hpc
  | gone hpc =>
    exact hm.concat [] (by simp) (by simp [State.pending, hpc, Action.outcome]) rfl rfl

/-- **A run of `Sampler::run`, told from its outcomes.** -/
theorem run_knows {cfg : Config} {clock : ℕ} {as : List Action} {s : State}
    (h : run cfg (init clock) as = some s) : Knows cfg as s :=
  Run.exec_trace (P := Knows cfg) ⟨rfl, rfl, rfl⟩ (fun _ _ _ _ _ hm hstep => knows_step hm hstep) h

end Single

/-! ### `run_multi` with one worker -/

/-- What a capture of the worker 0 returns. -/
def Action.outcome : Action → Option (Option (List Frame))
  | .worker 0 (.capture frames) => some frames
  | _ => none

/-- What the sink returns for a write. -/
def Action.result : Action → Option Bool
  | .main (.recv _ accepted) => some accepted
  | _ => none

/-- The stack that is on its way to the channel. -/
def Worker.pending (x : Worker) : List (List Frame) :=
  match x.pc with
  | .describing frames => [frames]
  | .sending msg => [msg.frames]
  | _ => []

/-- The stacks a worker has sent or is about to send. -/
def Worker.samples (x : Worker) : List (List Frame) := x.sent.map SampleMsg.frames ++ x.pending

/-- A step of a worker that finds the receiver and does not panic. -/
theorem Worker.samples_step {cfg : Config} {env : Surroundings} {x x' : Worker} {b : WorkerAction}
    (h : x.step cfg env b = some x') (hrx : env.receiver = true) (hpanic : b ≠ .panic) :
    x'.samples = x.samples ++ cfg.samples ((Action.worker 0 b).outcome.toList) := by
  unfold Worker.samples Worker.pending
  cases step_move h with
  | captureFails hpc => simp [hpc, Action.outcome]
  | drops frames hpc hdrop =>
    have hkeep : cfg.keeps frames = false := by simp only [Config.keeps, hdrop, Bool.not_true]
    simp [hpc, Action.outcome, Config.samples_some, hkeep]
  | captures frames hpc hkeep =>
    have hkeep : cfg.keeps frames = true := by simp only [Config.keeps, hkeep, Bool.not_false]
    simp [hpc, Action.outcome, Config.samples_some, hkeep]
  | sendFails msg hpc hno =>
    rw [hrx] at hno
    cases hno
  | panics hpc => exact absurd rfl hpanic
  | sends msg hpc => simp [hpc, Action.outcome]
  | describes uri method frames hpc => simp [hpc, Action.outcome]
  | paces p p' next hpc | paced p next hpc => simp [hpc, Action.outcome]
  | start hpc | stopped hpc | goesOn hpc | alive hpc | gone hpc | finish hpc =>
    simp [hpc, Action.outcome]

/-- What `run_multi` has sent, written and counted, told from the outcomes of its
worker 0 so far. -/
structure MultiKnows (cfg : Config) (as : List Action) (s : State) : Prop where
  samples : (s.workers[0]?).elim [] Worker.samples = cfg.samples (as.filterMap Action.outcome)
  results : s.written.map Write.accepted = as.filterMap Action.result
  taken : s.taken = s.written.length

section Multi

variable {cfg : Config} {clock : ℕ} {alive : ℤ → Bool} {as : List Action} {m s : State} {a : Action}

/-- Every receipt is written and counted. -/
theorem State.step_results (h : m.step cfg a = some s) :
    s.written.map Write.accepted = m.written.map Write.accepted ++ a.result.toList ∧
      s.taken + m.written.length = m.taken + s.written.length := by
  rcases step_parties h with ⟨w, b, rfl, h⟩ | ⟨b, rfl, h⟩ | hevent
  · obtain ⟨y, y', -, -, rfl⟩ := State.workerStep_eq_some h
    exact ⟨(List.append_nil _).symm, rfl⟩
  · cases mainStep_move h with
    | recv w accepted deadline v msg rest => simp [Action.result]; omega
    | drain w accepted deadline v msg rest => simp [Action.result]; omega
    | _ => exact ⟨(List.append_nil _).symm, rfl⟩
  · cases hevent <;> exact ⟨(List.append_nil _).symm, rfl⟩

theorem Action.outcome_of_other (hother : ∀ b, a ≠ .worker 0 b) : a.outcome = none := by
  unfold Action.outcome
  split
  · exact absurd rfl (hother _)
  · rfl

/-- What a step adds to the stacks of the worker 0. -/
theorem State.step_samples (hj : m.Joined) (hpanic : a ≠ .worker 0 .panic)
    (h : m.step cfg a = some s) :
    (s.workers[0]?).elim [] Worker.samples =
      (m.workers[0]?).elim [] Worker.samples ++ cfg.samples a.outcome.toList := by
  cases hx : m.workers[0]? with
  | some x =>
    obtain ⟨x', hx', hc⟩ := step_worker h hx
    rw [hx']
    cases hc with
    | rests _ hother => simp [Action.outcome_of_other hother]
    | steps b x' hstep =>
      -- the thread has not finished, so the receiver is there
      have hlive : x.pc ≠ .done := by
        intro hdone
        rw [Worker.step_done hdone] at hstep
        cases hstep
      exact Worker.samples_step hstep (hj.receiver hx hlive) (by rintro rfl; exact hpanic rfl)
    | received => simp [Action.outcome, Worker.samples, Worker.pending]
    | signalled => simp [Action.outcome, Worker.samples, Worker.pending]
  | none =>
    have hother : ∀ b, a ≠ .worker 0 b := by
      rintro b rfl
      obtain ⟨x, hx', -⟩ := Option.bind_eq_some_iff.mp h
      rw [hx] at hx'
      cases hx'
    rw [Action.outcome_of_other hother]
    cases hx' : s.workers[0]? with
    | none => rfl
    | some x' =>
      -- a new worker has captured nothing
      rcases worker_of_step h hx' with ⟨x, hx₀, -⟩ | ⟨_, pid, _, attached, -, rfl⟩
      · rw [hx] at hx₀
        cases hx₀
      · rfl

/-- **A run of `run_multi`, told from the outcomes of its worker 0**, if this worker
does not panic. -/
theorem runMulti_knows (h : runMulti cfg (State.init clock alive) as = some s)
    (hpanic : .worker 0 .panic ∉ as) : MultiKnows cfg as s := by
  refine Run.exec_trace (P := fun as s => .worker 0 .panic ∉ as → MultiKnows cfg as s)
    (fun _ => ⟨rfl, rfl, rfl⟩) ?_ h hpanic
  intro as m a s hm ih hstep hpanic
  rw [List.mem_append, List.mem_singleton, not_or] at hpanic
  obtain ⟨hsamples, hresults, htaken⟩ := ih hpanic.1
  obtain ⟨hresult, hcount⟩ := State.step_results hstep
  constructor
  · rw [State.step_samples (runMulti_joined hm) (Ne.symm hpanic.2) hstep, filterMap_concat,
      Config.samples_append, hsamples]
  · rw [hresult, filterMap_concat, hresults]
  · omega

/-- When `run_multi` has returned and everything its only worker sent was received,
the stacks it has written are those of the outcomes. -/
theorem runMulti_written (h : runMulti cfg (State.init clock alive) as = some s)
    (hret : s.main = .returned true) (hone : s.workers.length = 1) (hall : s.waiting 0 = [])
    (hpanic : .worker 0 .panic ∉ as) :
    s.written.map (fun x => x.msg.frames) = cfg.samples (as.filterMap Action.outcome) := by
  have hknows := (runMulti_knows h hpanic).samples
  obtain ⟨x, hx⟩ : ∃ x, s.workers[0]? = some x := ⟨_, List.getElem?_eq_getElem (by omega)⟩
  have hdone : x.pc = .done := by
    have hjoined := runMulti_joined h
    rw [State.Joined, hret] at hjoined
    exact hjoined 0 x hx
  -- every write is from the worker 0
  have hfrom : s.writtenFrom 0 = s.written.map Write.msg := by
    unfold State.writtenFrom
    rw [List.filter_eq_self.mpr]
    intro y hy
    obtain ⟨v, hv⟩ := (runMulti_annotationKnows h).worker y hy
    obtain ⟨hlt, -⟩ := List.getElem?_eq_some_iff.mp hv
    exact decide_eq_true (by omega)
  have hsent : s.writtenFrom 0 = x.sent := by
    have hcons := runMulti_conserves h 0
    rw [State.chan_gotFrom, State.chan_sent_eq hx] at hcons
    rw [← hcons, show s.chan.queue 0 = [] from hall, List.append_nil]
  rw [hx] at hknows
  simp only [Option.elim_some, Worker.samples, Worker.pending, hdone, List.append_nil] at hknows
  rw [← hknows, ← hsent, hfrom, List.map_map]
  rfl

end Multi

/-! ### The two samplers side by side -/

section Both

variable {cfg : Config} {outcomes : List (Option (List Frame))} {results : List Bool}

/-- **Accounting.**  Fed with the same outcomes and the same results of the sink, a
complete run of `Sampler::run` and one of `run_multi` with a single worker hand the
same stacks to the sink in the same order; and both report the number of accepted
stacks exactly when no stack is empty or dropped and no write fails. -/
theorem accounting_iff {clock₁ : ℕ} {as₁ : List Single.Action} {s₁ : Single.State}
    (h₁ : Single.run cfg (Single.init clock₁) as₁ = some s₁) (hret₁ : s₁.pc = .returned true)
    (houtcomes₁ : as₁.filterMap Single.Action.outcome = outcomes)
    (hresults₁ : as₁.filterMap Single.Action.result = results)
    {clock₂ : ℕ} {alive : ℤ → Bool} {as₂ : List Action} {s₂ : State}
    (h₂ : runMulti cfg (State.init clock₂ alive) as₂ = some s₂) (hret₂ : s₂.main = .returned true)
    (houtcomes₂ : as₂.filterMap Action.outcome = outcomes)
    (hresults₂ : as₂.filterMap Action.result = results)
    (hone : s₂.workers.length = 1) (hall : s₂.waiting 0 = []) (hpanic : .worker 0 .panic ∉ as₂) :
    s₁.written.map Single.Write.frames = s₂.written.map (fun x => x.msg.frames) ∧
    (s₁.taken = s₁.written.countP Single.Write.accepted ∧
        s₂.taken = s₂.written.countP Write.accepted ↔
      (∀ frames, some frames ∈ outcomes → cfg.keeps frames = true) ∧
        ∀ accepted ∈ results, accepted = true) := by
  subst houtcomes₁ hresults₁
  obtain ⟨hsamples₁, -, htaken₁⟩ := Single.run_knows h₁
  obtain ⟨-, haccepted₂, htaken₂⟩ := runMulti_knows h₂ hpanic
  constructor
  · rw [runMulti_written h₂ hret₂ hone hall hpanic, houtcomes₂, ← hsamples₁]
    simp [Single.State.pending, hret₁]
  · have hdropped : s₁.taken = s₁.written.countP Single.Write.accepted ↔
        ∀ frames, some frames ∈ as₁.filterMap Single.Action.outcome → cfg.keeps frames = true := by
      rw [← Config.dropped_eq_zero_iff, htaken₁]
      omega
    have hfailed : s₂.taken = s₂.written.countP Write.accepted ↔
        ∀ accepted ∈ as₁.filterMap Single.Action.result, accepted = true := by
      rw [← hresults₂, ← haccepted₂, htaken₂, eq_comm, List.countP_eq_length]
      simp
    rw [hdropped, hfailed]

end Both

namespace Scenario

/-- `Sampler::run` up to its first capture. -/
def singleStart : List Single.Action := [.go, .go, .go, .go, .pace, .pace]

/-- One sample, and then the profiler is stopped. -/
def singleSample : List Single.Action :=
  singleStart ++ [.capture (some job), .describe none none, .write true, .interrupt, .go,
    .finish true]

/-- An empty stack, then a sample the sink does not accept. -/
def singleFails : List Single.Action :=
  singleStart ++ [.capture (some []), .go, .go, .pace, .tick (fromSecs 1), .pace, .pace,
    .capture (some job), .describe none none, .write false, .go, .interrupt, .go, .finish true]

/-- The same for a worker of `run_multi`. -/
def multiFails : List Action :=
  [.main .go, .main .go, .main (.discover (some [100])), .main (.spawn true), .main .go,
    .main .go, .main .go, .worker 0 .start, .worker 0 .check, .worker 0 .pace, .worker 0 .pace,
    .worker 0 (.capture (some [])), .worker 0 .check, .worker 0 .pace, .tick (fromSecs 1),
    .worker 0 .pace, .worker 0 .pace, .worker 0 (.capture (some job)),
    .worker 0 (.describe none none), .worker 0 .send, .main (.recv 0 false), .main .go, .main .go,
    .main (.reap 100), .main .go, .main (.discover none)] ++ shutDown ++
    [.worker 0 .check, .worker 0 .finish, .main .disconnected] ++ leave

end Scenario

open Scenario

theorem accounting_iff_oneSample :
    ∃ s₁ s₂, Single.run everySecond (Single.init 0) singleSample = some s₁ ∧
      runMulti everySecond oneProcess cleanRun = some s₂ ∧
      s₁.written.map Single.Write.frames = s₂.written.map (fun x => x.msg.frames) ∧
      (s₁.taken = s₁.written.countP Single.Write.accepted ∧
          s₂.taken = s₂.written.countP Write.accepted ↔
        (∀ frames, some frames ∈ [some job] → everySecond.keeps frames = true) ∧
          ∀ accepted ∈ [true], accepted = true) := by
  have h₁ : (Single.run everySecond (Single.init 0) singleSample).map Single.State.pc =
      some (.returned true) := by
    decide +kernel
  have h₂ : (runMulti everySecond oneProcess cleanRun).map (fun s =>
      (s.main, s.workers.length, s.waiting 0)) = some (.returned true, 1, []) := by
    decide +kernel
  obtain ⟨s₁, hs₁, hret₁⟩ := Option.map_eq_some_iff.mp h₁
  obtain ⟨s₂, hs₂, heq⟩ := Option.map_eq_some_iff.mp h₂
  obtain ⟨hret₂, hone, hall⟩ : _ ∧ _ ∧ _ := by simpa only [Prod.mk.injEq] using heq
  exact ⟨s₁, s₂, hs₁, hs₂, accounting_iff hs₁ hret₁ rfl rfl hs₂ hret₂ rfl rfl hone hall
    (by decide)⟩

/-- Two complete runs fed with an empty stack and then with a stack the sink does not
accept: each reports one sample, and none was accepted. -/
theorem accounting_not :
    singleFails.filterMap Single.Action.outcome = multiFails.filterMap Action.outcome ∧
    singleFails.filterMap Single.Action.result = multiFails.filterMap Action.result ∧
    ∃ s₁ s₂, Single.run everySecond (Single.init 0) singleFails = some s₁ ∧
      runMulti everySecond oneProcess multiFails = some s₂ ∧
      s₁.pc = .returned true ∧ s₂.main = .returned true ∧ s₂.waiting 0 = [] ∧
      s₁.taken = 1 ∧ s₁.written.countP Single.Write.accepted = 0 ∧
      s₂.taken = 1 ∧ s₂.written.countP Write.accepted = 0 := by
  have h₁ : (Single.run everySecond (Single.init 0) singleFails).map (fun s =>
      (s.pc, s.taken, s.written.countP Single.Write.accepted)) = some (.returned true, 1, 0) := by
    decide +kernel
  have h₂ : (runMulti everySecond oneProcess multiFails).map (fun s =>
      (s.main, s.waiting 0, s.taken, s.written.countP Write.accepted)) =
      some (.returned true, [], 1, 0) := by
    decide +kernel
  obtain ⟨s₁, hs₁, heq₁⟩ := Option.map_eq_some_iff.mp h₁
  obtain ⟨s₂, hs₂, heq₂⟩ := Option.map_eq_some_iff.mp h₂
  obtain ⟨hpc, htaken₁, hcount₁⟩ : _ ∧ _ ∧ _ := by simpa only [Prod.mk.injEq] using heq₁
  obtain ⟨hmain, hwaiting, htaken₂, hcount₂⟩ : _ ∧ _ ∧ _ ∧ _ := by
    simpa only [Prod.mk.injEq] using heq₂
  exact ⟨rfl, rfl, s₁, s₂, hs₁, hs₂, hpc, hmain, hwaiting, htaken₁, hcount₁, htaken₂, hcount₂⟩

end PhpFastProfile
