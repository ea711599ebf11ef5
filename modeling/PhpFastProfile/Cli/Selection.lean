import PhpFastProfile.Cli.ThisContainer
import PhpFastProfile.Sampler.Annotation

/-!
# Who is sampled

`run_multi` is told by its arguments which processes it may look at.  It passes from the
arguments to a filter, from the filter to the pids of a scan, from these to workers, and
from the workers to the samples that are written.  No sample gets there by another way.

A pid is all that is passed on: who has it when it is attached to is not looked at again.
A container id that is empty restricts nothing, so the control group of the profiler must not
leave the name of its container blank.

## Main definitions

* `AskedFor args own fs pid` — the process of that pid is one the arguments ask for.
* `FoundIn` — a scan of the run has seen that.

## Main results

* `scanStep_selects` — a step takes pids from scans only.
* `runMulti_selected` — **every sample that is written is of a pid that a scan before it
  has selected.**
-/

namespace PhpFastProfile

/-- The container id the scans are restricted to. -/
def Args.container (args : Args) (own : Option (List UInt8)) : Option String :=
  if args.thisContainer then selfCgroupId own else none

/-- The process has an entry in `/proc`, its name contains the needle of `-P`, its command
line the one of `--cmdline`, and with `--this-container` the control group that was read for it
contains the profiler's own container id, which is not empty. -/
structure AskedFor (args : Args) (own : Option (List UInt8)) (fs : ProcFs) (pid : ℤ) : Prop where
  listed : ∃ pids ∈ fs.pids, pid ∈ pids
  name : ∀ n ∈ args.pgrep, ∃ t ∈ readTrim (fs.comm pid), n.toList <:+: t
  cmdline : ∀ n ∈ args.cmdline, ∃ t ∈ readCmdline (fs.cmdline pid), n.toList <:+: t
  container : args.thisContainer = true → SharesContainer own (some fs) pid

/-- A scan of the run has found the pid. -/
def FoundIn (filter : ProcessFilter) (steps : List (Action × ProcFs)) (pid : ℤ) : Prop :=
  ∃ found fs, (Action.main (.discover (some found)), fs) ∈ steps ∧
    Answers filter fs (some found) ∧ pid ∈ found

section Steps

variable {cfg : Config} {filter : ProcessFilter} {steps : List (Action × ProcFs)} {m s : Scanning}
  {a : Action × ProcFs} {pid : ℤ}

theorem FoundIn.append (h : FoundIn filter steps pid) (more : List (Action × ProcFs)) :
    FoundIn filter (steps ++ more) pid := by
  obtain ⟨found, fs, hmem, hanswers, hpid⟩ := h
  exact ⟨found, fs, List.mem_append_left _ hmem, hanswers, hpid⟩

theorem scanStep_state (h : scanStep cfg filter m a = some s) :
    m.state.step cfg a.1 = some s.state := by
  rcases scanStep_cases h with ⟨_, _, _, hstep, _⟩ | ⟨_, hstep, _⟩ <;> exact hstep

/-- What the scans read is no part of a run of `run_multi`. -/
theorem runMulti_of_scanStep {s₀ : State}
    (h : Run.exec (scanStep cfg filter) ⟨s₀, none⟩ steps = some m) :
    runMulti cfg s₀ (steps.map Prod.fst) = some m.state := by
  refine Run.exec_trace (P := fun steps m => runMulti cfg s₀ (steps.map Prod.fst) = some m.state)
    rfl ?_ h
  intro steps m a s _ ih hstep
  rw [List.map_append]
  exact Run.exec_concat.mpr ⟨m.state, ih, scanStep_state hstep⟩

/-- The pids that are passed on have been selected. -/
structure Selects (filter : ProcessFilter) (steps : List (Action × ProcFs)) (s : State) : Prop where
  todo : ∀ first todo, s.main = .spawning first todo → ∀ pid ∈ todo, FoundIn filter steps pid
  worker : ∀ (w : ℕ) (x : Worker), s.workers[w]? = some x → FoundIn filter steps x.pid
  written : ∀ x ∈ s.written, FoundIn filter steps x.msg.pid

/-- **A step takes pids from a scan**, from those that wait for a worker, or from a worker. -/
theorem scanStep_selects (hs : Selects filter steps m.state)
    (hlabel : ∀ (w : ℕ) (x : Worker), m.state.workers[w]? = some x → x.Labelled)
    (h : scanStep cfg filter m a = some s) : Selects filter (steps ++ [a]) s.state := by
  have hstep := scanStep_state h
  constructor
  · intro first todo hmain pid hpid
    rcases scanStep_cases h with ⟨found, ha, hanswers, hstep, -⟩ | ⟨hno, hstep, -⟩
    · rw [ha] at hstep
      obtain rfl := todo_of_discover hstep hmain
      refine ⟨todo, a.2, List.mem_append_right _ ?_, hanswers, hpid⟩
      rw [← ha]
      exact List.mem_singleton_self a
    · obtain ⟨todo', hpc, hsub⟩ := todo_of_step hstep hno hmain
      exact (hs.todo first todo' hpc pid (hsub pid hpid)).append _
  · intro w x hx
    rcases State.worker_of_step hstep hx with ⟨y, hy, hc⟩ | ⟨first, pid, todo, attached, hhire, rfl⟩
    · rw [hc.same.1]
      exact (hs.worker w y hy).append _
    · exact (hs.todo first (pid :: todo) hhire.main pid List.mem_cons_self).append _
  · intro x hx
    rcases State.step_written hstep with ⟨hwritten, -⟩ |
      ⟨w, accepted, v, msg, rest, info, -, hv, hqueue, hwritten, -⟩
    · rw [hwritten] at hx
      exact (hs.written x hx).append _
    · rw [hwritten] at hx
      rcases List.mem_append.mp hx with hx | hx
      · exact (hs.written x hx).append _
      · obtain rfl := List.mem_singleton.mp hx
        have hpid : msg.pid = v.pid := (hlabel w v hv).queue msg (by rw [hqueue]; exact .head _)
        rw [show (Write.mk w msg info accepted).msg.pid = v.pid from hpid]
        exact (hs.worker w v hv).append _

theorem runMulti_selects {clock : ℕ} {alive : ℤ → Bool}
    (h : Run.exec (scanStep cfg filter) ⟨State.init clock alive, none⟩ steps = some m) :
    Selects filter steps m.state := by
  refine Run.exec_trace (P := fun steps m => Selects filter steps m.state) ?_ ?_ h
  · constructor
    · intro first todo hmain
      cases hmain
    · intro w x hx
      cases hx
    · intro x hx
      cases hx
  · intro steps m a s hm ih hstep
    exact scanStep_selects ih (runMulti_labelled (runMulti_of_scanStep hm)) hstep

end Steps

/-- The filter `run_multi` is started with. -/
theorem Cli.filter_of_run {args : Args} {own : Option (List UInt8)} {filter : ProcessFilter}
    (h : Cli.run args own = .multi filter) : filter = args.filter (args.container own) ∧
      (args.thisContainer = true → selfCgroupId own ≠ none) := by
  unfold Cli.run runTop at h
  unfold Args.container
  by_cases hformat : args.format = .top
  · rw [if_pos hformat] at h
    cases hpid : args.pid <;> rw [hpid] at h
    · dsimp only at h
      split at h <;> cases h
    · cases h
  · rw [if_neg hformat] at h
    cases hpid : args.pid <;> rw [hpid] at h
    · dsimp only at h
      split at h
      · split at h
        · next hthis =>
          cases hid : selfCgroupId own <;> rw [hid] at h
          · cases h
          · rw [if_pos hthis]
            exact ⟨(Launch.multi.inj h).symm, by simp⟩
        · next hthis =>
          rw [if_neg hthis]
          exact ⟨(Launch.multi.inj h).symm, fun hyes => absurd hyes hthis⟩
      · cases h
    · cases h

/-- **Every sample that `run_multi` writes is of a pid that an earlier scan has selected**: as
the scan read `/proc`, the process of that pid had what the arguments ask for. -/
theorem runMulti_selected {args : Args} {own : Option (List UInt8)} {filter : ProcessFilter}
    (hlaunch : Cli.run args own = .multi filter)
    (hblank : args.thisContainer = true → ∀ line ∈ containerLine own, ¬ BlankName line)
    {clock : ℕ} {alive : ℤ → Bool}
    {steps : List (Action × ProcFs)} {m : Scanning}
    (h : Run.exec (scanStep args.config filter) ⟨State.init clock alive, none⟩ steps = some m) :
    ∀ x ∈ m.state.written, ∃ found fs, (Action.main (.discover (some found)), fs) ∈ steps ∧
      x.msg.pid ∈ found ∧ AskedFor args own fs x.msg.pid := by
  intro x hx
  obtain ⟨rfl, hcontainer⟩ := Cli.filter_of_run hlaunch
  obtain ⟨found, fs, hmem, hanswers, hpid⟩ := (runMulti_selects h).written x hx
  have hfound : discover (args.filter (args.container own)) fs = some found.toFinset :=
    hanswers.symm
  obtain ⟨hlisted, hmatches⟩ := (mem_discover hfound).mp (List.mem_toFinset.mpr hpid)
  obtain ⟨hname, hcmdline, -⟩ := matches_eq_some_true_iff.mp hmatches
  refine ⟨found, fs, hmem, hpid, hlisted, hname, hcmdline, fun hthis => ?_⟩
  obtain ⟨id, hid⟩ := Option.ne_none_iff_exists'.mp (hcontainer hthis)
  have hne : id ≠ "" := by
    rintro rfl
    obtain ⟨line, hline, hempty⟩ := selfCgroupId_eq_empty_iff.mp hid
    exact hblank hthis line hline hempty
  rw [Args.container, if_pos hthis, hid] at hanswers
  exact sharesContainer_of_answers hid hne hanswers hpid

/-! ### A pool in a container -/

/-- A control group of Docker. -/
def dockerCgroup : Option (List UInt8) :=
  some (Utf8.encode "0::/system.slice/docker-1f2e.scope\n".toList)

/-- A process table whose only process fits and is in that container. -/
def dockerFs (args : Args) : ProcFs := { fittingFs args with cgroup := fun _ => dockerCgroup }

theorem selfCgroupId_dockerCgroup : selfCgroupId dockerCgroup = some "1f2e" := by
  rw [selfCgroupId, readToString, dockerCgroup, Option.bind_some, Utf8.fromUtf8_encode]
  decide

/-- A scan for the container finds the process. -/
theorem answers_dockerFs (args : Args) :
    Answers (args.filter (some "1f2e")) (dockerFs args) (some [42]) := by
  have hpids : (dockerFs args).pids = some [42] := pids_fittingFs args
  have hall : ∀ pid, (dockerFs args).matches pid (args.filter (some "1f2e")) = some true := by
    intro pid
    have hfits : (fittingFs args).matches pid (args.filter none) = some true :=
      matches_fittingFs args (by simp) pid
    obtain ⟨hname, hcmdline, -⟩ := matches_eq_some_true_iff.mp hfits
    refine matches_eq_some_true_iff.mpr ⟨hname, hcmdline, ?_⟩
    intro id hid
    obtain rfl := Option.some.inj hid
    show _ <:+: (readTrim dockerCgroup).getD []
    rw [readTrim, readToString, dockerCgroup, Option.bind_some, Utf8.fromUtf8_encode]
    decide
  simp [Answers, discover, hpids, hall]

/-- One sample of the first worker. -/
def poolSteps : List Action :=
  [.main (.spawn true), .main .go, .main .go, .main .go, .worker 0 .start, .worker 0 .check,
    .worker 0 .pace, .worker 0 .pace, .worker 0 (.capture (some [⟨"f", none, none, 1⟩])),
    .worker 0 (.describe none none), .worker 0 .send, .main (.recv 0 true)]

theorem runMulti_selected_pool :
    ∃ (steps : List (Action × ProcFs)) (m : Scanning),
      m.state.written.map (fun x => x.msg.pid) = [42] ∧
      ∀ x ∈ m.state.written, ∃ found fs, (Action.main (.discover (some found)), fs) ∈ steps ∧
        x.msg.pid ∈ found ∧ AskedFor (sidecarArgs .folded) dockerCgroup fs x.msg.pid := by
  let args := sidecarArgs .folded
  let filter := args.filter (some "1f2e")
  let step := scanStep args.config filter
  let fs := dockerFs args
  let s₁ : State := { State.init 0 fun _ => true with main := .discovering }
  let s₂ : Scanning := ⟨{ s₁ with main := .spawning true [42] }, some fs⟩
  have hanswers : Answers filter fs (some [42]) := answers_dockerFs args
  have hscan : step ⟨s₁, none⟩ (.main (.discover (some [42])), fs) = some s₂ := by
    show scanStep _ _ _ _ = _
    rw [scanStep, if_pos hanswers]
    rfl
  have hstart : Run.exec step ⟨State.init 0 fun _ => true, none⟩
      ([(.main .go, fs), (.main .go, fs)] ++ [(.main (.discover (some [42])), fs)]) = some s₂ :=
    Run.exec_concat.mpr ⟨⟨s₁, none⟩, rfl, hscan⟩
  have hrest : (Run.exec step s₂ (poolSteps.map fun a => (a, fs))).map
      (fun m => m.state.written.map fun x => x.msg.pid) = some [42] := rfl
  obtain ⟨m, hm, hpids⟩ := Option.map_eq_some_iff.mp hrest
  have hrun : Run.exec step ⟨State.init 0 fun _ => true, none⟩
      (([(.main .go, fs), (.main .go, fs)] ++ [(.main (.discover (some [42])), fs)]) ++
        poolSteps.map fun a => (a, fs)) = some m := by
    rw [Run.exec_append, hstart]
    exact hm
  have hlaunch : Cli.run args dockerCgroup = .multi filter := by
    rw [Cli.run_thisContainer rfl (Or.inl rfl), selfCgroupId_dockerCgroup]
    rfl
  refine ⟨_, m, hpids, runMulti_selected hlaunch ?_ hrun⟩
  intro _ line hline hblank
  have hempty := selfCgroupId_eq_empty_iff.mpr ⟨line, hline, hblank⟩
  rw [selfCgroupId_dockerCgroup] at hempty
  exact absurd hempty (by decide)

end PhpFastProfile
