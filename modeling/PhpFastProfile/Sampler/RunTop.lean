import PhpFastProfile.Sampler
import PhpFastProfile.Lib.Run

/-!
# The sampling threads of `run_top`

The live display samples every process in a thread of its own, as `run_multi` does.
Here the threads attach themselves, share one stop flag and send the frames alone.
A state holds the clock, the pids in `/proc`, the stop flag, whether the display
still reads the channel, and the threads.

## Main definitions

* `Top.Sampler`, `Top.Sampler.step` — a sampling thread.
* `Top.step` — one step of the threads or of what surrounds them.
* `Top.run` — a run.

## Main results

* `Top.pids_of_run` — the threads stay those that were started.
-/

namespace PhpFastProfile
namespace Top

/-- Where a sampling thread is. -/
inductive Pc where
  /-- Before `Target::attach` returns. -/
  | attaching
  /-- `Target::attach` has failed, and the thread is finished. -/
  | unattached
  /-- Before `let mut next = Instant::now()`. -/
  | starting
  /-- Before the load of the stop flag. -/
  | checking
  | pacing (p : Pace)
  | capturing
  | sending (frames : List Frame)
  /-- The capture failed: before the look at `/proc/PID/status`. -/
  | probing
  | done
  deriving DecidableEq, Repr

/-- A sampling thread. -/
structure Sampler where
  pid : ℤ
  pc : Pc
  next : ℕ
  /-- What `tx.send` has accepted, in order. -/
  sent : List (List Frame)
  deriving DecidableEq, Repr

/-- What a sampling thread does next, with what it is told by the target. -/
inductive SamplerAction where
  | attach (ok : Bool)
  | start
  | check
  | pace
  /-- `capture_stack` returns; `none` is an error. -/
  | capture (frames : Option (List Frame))
  | send
  | probe
  /-- Reading the target panics, which ends the thread. -/
  | panic
  deriving DecidableEq, Repr

/-- The state of `run_top`: the processes around it and its sampling threads. -/
structure State where
  clock : ℕ
  /-- The pids in `/proc`. -/
  pidExists : ℤ → Bool
  stop : Bool
  /-- Whether `tui::run` still holds the receiver. -/
  receiver : Bool
  samplers : List Sampler

/-- What happens next. -/
inductive Action where
  | tick (d : ℕ)
  /-- A signal, or the thread that waits for the duration. -/
  | interrupt
  | process (pid : ℤ) (present : Bool)
  /-- `tui::run` returns. -/
  | quit
  | sampler (i : ℕ) (a : SamplerAction)
  deriving DecidableEq, Repr

/-- The thread `spawn_sampler` starts. -/
def Sampler.spawned (pid : ℤ) : Sampler := { pid, pc := .attaching, next := 0, sent := [] }

/-- The states in which the threads for `pids` have been started. -/
def init (clock : ℕ) (present : ℤ → Bool) (pids : List ℤ) : State where
  clock
  pidExists := present
  stop := false
  receiver := true
  samplers := pids.map Sampler.spawned

/-- One step of the thread `spawn_sampler` starts. -/
def Sampler.step (cfg : Config) (s : State) (x : Sampler) (a : SamplerAction) : Option Sampler :=
  match a, x.pc with
  | .attach ok, .attaching => some { x with pc := if ok then .starting else .unattached }
  | .start, .starting => some { x with next := s.clock, pc := .checking }
  | .check, .checking => some { x with pc := if s.stop then .done else .pacing .timing }
  | .pace, .pacing p =>
    (p.step cfg.interval s.clock x.next).map fun y =>
      { x with pc := (y.1.map .pacing).getD .capturing, next := y.2 }
  | .capture none, .capturing => some { x with pc := .probing }
  | .capture (some frames), .capturing =>
    some { x with
      pc := if !frames.isEmpty && !leafIsAny frames cfg.dropLeaf then .sending frames
        else .checking }
  | .send, .sending frames =>
    if s.receiver then some { x with pc := .checking, sent := x.sent ++ [frames] }
    else some { x with pc := .done }
  | .probe, .probing => some { x with pc := if s.pidExists x.pid then .checking else .done }
  | .panic, .attaching => some { x with pc := .unattached }
  | .panic, .capturing => some { x with pc := .done }
  | _, _ => none

/-- One step of `run_top` once its threads are started. -/
def step (cfg : Config) (s : State) : Action → Option State
  | .tick d => some { s with clock := s.clock + d }
  | .interrupt => some { s with stop := true }
  | .process pid present =>
    some { s with pidExists := fun p => if p = pid then present else s.pidExists p }
  | .quit => some { s with receiver := false }
  | .sampler i a =>
    (s.samplers[i]?).bind fun x =>
      (x.step cfg s a).map fun x' => { s with samplers := s.samplers.set i x' }

/-- A run of `run_top` once its threads are started. -/
def run (cfg : Config) (s : State) (as : List Action) : Option State :=
  Run.exec (step cfg) s as

theorem Sampler.pid_of_step {cfg : Config} {s : State} {x x' : Sampler} {a : SamplerAction}
    (h : x.step cfg s a = some x') : x'.pid = x.pid := by
  unfold Sampler.step at h
  split at h
  case h_4 =>
    obtain ⟨y, -, rfl⟩ := Option.map_eq_some_iff.mp h
    rfl
  case h_7 =>
    split at h <;> exact Option.some.inj h ▸ rfl
  case h_11 => cases h
  all_goals exact Option.some.inj h ▸ rfl

theorem pids_of_step {cfg : Config} {s s' : State} {a : Action} (h : step cfg s a = some s') :
    s'.samplers.map Sampler.pid = s.samplers.map Sampler.pid := by
  cases a with
  | sampler i a =>
    obtain ⟨x, hx, h⟩ := Option.bind_eq_some_iff.mp h
    obtain ⟨x', hstep, rfl⟩ := Option.map_eq_some_iff.mp h
    obtain ⟨hlt, rfl⟩ := List.getElem?_eq_some_iff.mp hx
    rw [List.map_set, Sampler.pid_of_step hstep, ← List.getElem_map Sampler.pid,
      List.set_getElem_self]
    simpa using hlt
  | _ =>
    obtain rfl := Option.some.inj h
    rfl

/-- **The threads stay those that were started.** -/
theorem pids_of_run {cfg : Config} {clock : ℕ} {present : ℤ → Bool} {pids : List ℤ}
    {as : List Action} {s : State} (h : run cfg (init clock present pids) as = some s) :
    s.samplers.map Sampler.pid = pids := by
  refine Run.invariant (P := fun s : State => s.samplers.map Sampler.pid = pids)
    (fun m a m' hm hstep => (pids_of_step hstep).trans hm) ?_ h
  show (pids.map Sampler.spawned).map Sampler.pid = pids
  rw [List.map_map]
  exact List.map_id pids

end Top
end PhpFastProfile
