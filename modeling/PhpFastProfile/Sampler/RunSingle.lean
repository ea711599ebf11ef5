import PhpFastProfile.Sampler
import PhpFastProfile.Lib.Run

/-!
# `Sampler::run`

The profiler of a single process samples, filters, writes and counts in one
thread.  A state holds the clock, whether the pid of the target is in `/proc`, the
stop flag and that thread; a step is one action of the thread or of what surrounds
it.  A capture that fails and a write that fails are both errors of `sample_once`;
every other outcome of it counts as a sample.

## Main definitions

* `Single.Pc` — where the thread is.
* `Single.step` — one step.
* `Single.Move` — the moves of the thread.
* `Single.run` — a run.

## Main results

* `Single.step_move` — every step is a move.
-/

namespace PhpFastProfile
namespace Single

/-- Where `Sampler::run` is. -/
inductive Pc where
  /-- Before `let start = Instant::now()`. -/
  | starting
  /-- Before `let mut next = Instant::now()`. -/
  | timing
  /-- At the top of the loop. -/
  | checkingStop
  | checkingDuration
  | pacing (p : Pace)
  /-- In `sample_once`, before `capture_stack` returns. -/
  | capturing
  /-- Before the two calls of `request_var`, if they are wanted. -/
  | describing (frames : List Frame)
  | writing (frames : List Frame) (info : SampleMeta)
  /-- `sample_once` has failed: before the look at `/proc/PID/status`. -/
  | probing
  /-- Before `self.sink.finish()`. -/
  | finishing
  | returned (finished : Bool)
  deriving DecidableEq, Repr

/-- One call of `sink.write_sample`. -/
structure Write where
  frames : List Frame
  info : SampleMeta
  accepted : Bool
  deriving DecidableEq, Repr

/-- The state of `Sampler::run`, with its target. -/
structure State where
  clock : ℕ
  /-- Whether the pid of the target is in `/proc`. -/
  pidExists : Bool
  stop : Bool
  start : ℕ
  next : ℕ
  pc : Pc
  written : List Write
  taken : ℕ
  errors : ℕ
  deriving DecidableEq, Repr

/-- What happens next. -/
inductive Action where
  | tick (d : ℕ)
  /-- SIGINT or SIGTERM reaches the profiler. -/
  | interrupt
  /-- The pid of the target comes or goes. -/
  | target (present : Bool)
  /-- The next instruction, where it does not depend on anybody else. -/
  | go
  | pace
  /-- `capture_stack` returns; `none` is an error. -/
  | capture (frames : Option (List Frame))
  /-- `request_var` returns the URI and the method. -/
  | describe (uri method : Option String)
  | write (accepted : Bool)
  | finish (ok : Bool)
  deriving DecidableEq, Repr

/-- The states `Sampler::run` starts in. -/
def init (clock : ℕ) : State where
  clock
  pidExists := true
  stop := false
  start := 0
  next := 0
  pc := .starting
  written := []
  taken := 0
  errors := 0

/-- The instructions of the thread that do not depend on anybody else. -/
def go (cfg : Config) (s : State) : Option State :=
  match s.pc with
  | .starting => some { s with start := s.clock, pc := .timing }
  | .timing => some { s with next := s.clock, pc := .checkingStop }
  | .checkingStop => some { s with pc := if s.stop then .finishing else .checkingDuration }
  | .checkingDuration =>
    some { s with
      pc := if ∃ d ∈ cfg.duration, d ≤ s.clock - s.start then .finishing else .pacing .timing }
  -- a target that is gone ends the run
  | .probing => some { s with pc := if s.pidExists then .checkingStop else .finishing }
  | _ => none

/-- One step of `Sampler::run` and of what surrounds it. -/
def step (cfg : Config) (s : State) (a : Action) : Option State :=
  match a, s.pc with
  | .tick d, _ => some { s with clock := s.clock + d }
  | .interrupt, _ => some { s with stop := true }
  | .target present, _ => some { s with pidExists := present }
  | .go, _ => go cfg s
  | .pace, .pacing p =>
    (p.step cfg.interval s.clock s.next).map fun x =>
      { s with pc := (x.1.map .pacing).getD .capturing, next := x.2 }
  | .capture none, .capturing => some { s with errors := s.errors + 1, pc := .probing }
  | .capture (some frames), .capturing =>
    -- an empty or unwanted stack is `Ok` too
    if frames.isEmpty || leafIsAny frames cfg.dropLeaf then
      some { s with taken := s.taken + 1, pc := .checkingStop }
    else some { s with pc := .describing frames }
  | .describe uri method, .describing frames =>
    some { s with pc := .writing frames (Worker.describe cfg uri method) }
  | .write true, .writing frames info =>
    some { s with
      written := s.written ++ [{ frames, info, accepted := true }]
      taken := s.taken + 1
      pc := .checkingStop }
  | .write false, .writing frames info =>
    some { s with
      written := s.written ++ [{ frames, info, accepted := false }]
      errors := s.errors + 1
      pc := .probing }
  | .finish ok, .finishing => some { s with pc := .returned ok }
  | _, _ => none

/-- The moves of the thread and of what surrounds it, each with what it has seen. -/
inductive Move (cfg : Config) (s : State) : Action → State → Prop
  | tick (d : ℕ) : Move cfg s (.tick d) { s with clock := s.clock + d }
  | interrupt : Move cfg s .interrupt { s with stop := true }
  | target (present : Bool) : Move cfg s (.target present) { s with pidExists := present }
  | start (hpc : s.pc = .starting) : Move cfg s .go { s with start := s.clock, pc := .timing }
  | time (hpc : s.pc = .timing) : Move cfg s .go { s with next := s.clock, pc := .checkingStop }
  | stopped (hpc : s.pc = .checkingStop) (hstop : s.stop = true) :
    Move cfg s .go { s with pc := .finishing }
  | goesOn (hpc : s.pc = .checkingStop) (hstop : s.stop = false) :
    Move cfg s .go { s with pc := .checkingDuration }
  | expired (hpc : s.pc = .checkingDuration) : Move cfg s .go { s with pc := .finishing }
  | waits (hpc : s.pc = .checkingDuration) : Move cfg s .go { s with pc := .pacing .timing }
  | paces (p p' : Pace) (next : ℕ) (hpc : s.pc = .pacing p)
    (hpace : p.step cfg.interval s.clock s.next = some (some p', next)) :
    Move cfg s .pace { s with pc := .pacing p', next }
  | paced (p : Pace) (next : ℕ) (hpc : s.pc = .pacing p)
    (hpace : p.step cfg.interval s.clock s.next = some (none, next)) :
    Move cfg s .pace { s with pc := .capturing, next }
  | captureFails (hpc : s.pc = .capturing) :
    Move cfg s (.capture none) { s with errors := s.errors + 1, pc := .probing }
  | drops (frames : List Frame) (hpc : s.pc = .capturing)
    (hdrop : (frames.isEmpty || leafIsAny frames cfg.dropLeaf) = true) :
    Move cfg s (.capture (some frames)) { s with taken := s.taken + 1, pc := .checkingStop }
  | captures (frames : List Frame) (hpc : s.pc = .capturing)
    (hkeep : (frames.isEmpty || leafIsAny frames cfg.dropLeaf) = false) :
    Move cfg s (.capture (some frames)) { s with pc := .describing frames }
  | describes (uri method : Option String) (frames : List Frame) (hpc : s.pc = .describing frames) :
    Move cfg s (.describe uri method)
      { s with pc := .writing frames (Worker.describe cfg uri method) }
  | writes (frames : List Frame) (info : SampleMeta) (hpc : s.pc = .writing frames info) :
    Move cfg s (.write true) { s with
      written := s.written ++ [{ frames, info, accepted := true }]
      taken := s.taken + 1
      pc := .checkingStop }
  | writeFails (frames : List Frame) (info : SampleMeta) (hpc : s.pc = .writing frames info) :
    Move cfg s (.write false) { s with
      written := s.written ++ [{ frames, info, accepted := false }]
      errors := s.errors + 1
      pc := .probing }
  | alive (hpc : s.pc = .probing) (hpid : s.pidExists = true) :
    Move cfg s .go { s with pc := .checkingStop }
  | gone (hpc : s.pc = .probing) (hpid : s.pidExists = false) :
    Move cfg s .go { s with pc := .finishing }
  | finish (ok : Bool) (hpc : s.pc = .finishing) :
    Move cfg s (.finish ok) { s with pc := .returned ok }

section Moves

variable {cfg : Config} {s s' : State} {a : Action}

theorem move_of_go (h : go cfg s = some s') : Move cfg s .go s' := by
  unfold go at h
  split at h
  case h_1 hpc => exact Option.some.inj h ▸ .start hpc
  case h_2 hpc => exact Option.some.inj h ▸ .time hpc
  case h_3 hpc =>
    obtain rfl := Option.some.inj h
    split
    · next hstop => exact .stopped hpc hstop
    · next hstop => exact .goesOn hpc (by simpa using hstop)
  case h_4 hpc =>
    obtain rfl := Option.some.inj h
    split
    · exact .expired hpc
    · exact .waits hpc
  case h_5 hpc =>
    obtain rfl := Option.some.inj h
    split
    · next hpid => exact .alive hpc hpid
    · next hpid => exact .gone hpc (by simpa using hpid)
  case h_6 => cases h

/-- **Every step is one of the moves.** -/
theorem step_move (h : step cfg s a = some s') : Move cfg s a s' := by
  unfold step at h
  split at h
  case h_1 d => exact Option.some.inj h ▸ .tick d
  case h_2 => exact Option.some.inj h ▸ .interrupt
  case h_3 present => exact Option.some.inj h ▸ .target present
  case h_4 => exact move_of_go h
  case h_5 p hpc =>
    obtain ⟨⟨p', next⟩, hpace, rfl⟩ := Option.map_eq_some_iff.mp h
    cases p' with
    | none => exact .paced p next hpc hpace
    | some p' => exact .paces p p' next hpc hpace
  case h_6 hpc => exact Option.some.inj h ▸ .captureFails hpc
  case h_7 frames hpc =>
    split at h
    · next hdrop => exact Option.some.inj h ▸ .drops frames hpc hdrop
    · next hkeep => exact Option.some.inj h ▸ .captures frames hpc (by simpa using hkeep)
  case h_8 uri method frames hpc => exact Option.some.inj h ▸ .describes uri method frames hpc
  case h_9 frames info hpc => exact Option.some.inj h ▸ .writes frames info hpc
  case h_10 frames info hpc => exact Option.some.inj h ▸ .writeFails frames info hpc
  case h_11 ok hpc => exact Option.some.inj h ▸ .finish ok hpc
  case h_12 => cases h

end Moves

/-- A run of `Sampler::run`. -/
def run (cfg : Config) (s : State) (as : List Action) : Option State :=
  Run.exec (step cfg) s as

end Single
end PhpFastProfile
