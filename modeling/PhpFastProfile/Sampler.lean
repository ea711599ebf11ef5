import PhpFastProfile.Output.Sinks

/-!
# The sampling worker

`run_multi` gives every target process a thread of its own.  The thread paces
itself, captures a stack, drops the stacks nobody wants and sends the others to
the main thread.  Its program is cut at every point where another thread, the
clock or the target can interfere, so that a step of `Worker.step` is what
happens between two of these points.

Instants and durations are numbers of nanoseconds.

## Main definitions

* `leafIsAny` — the `--drop-leaf` filter.
* `Pace` — where a sampling loop is between its stop check and its capture.
* `Worker`, `Worker.step` — the worker thread of `run_multi`.
* `Worker.Move` — what a worker can do.

## Main results

* `Worker.step_move` — every step is a move.
* `Worker.step_cases` — a step of the thread either keeps what was sent or sends one message.
-/

namespace PhpFastProfile

/-- `Duration::from_millis`. -/
def fromMillis (n : ℕ) : ℕ := n * 1000000

/-- `Duration::from_secs`. -/
def fromSecs (n : ℕ) : ℕ := n * 1000000000

/-! ### The leaf filter -/

/-- `str::split_once("::")` on the characters of a string. -/
def splitOnce : List Char → Option (List Char × List Char)
  | [] => none
  | ':' :: ':' :: rest => some ([], rest)
  | c :: rest => (splitOnce rest).map fun x => (c :: x.1, x.2)

/-- `leaf_is_any`: the innermost frame renders as one of `names`. -/
def leafIsAny (frames : List Frame) (names : List String) : Bool :=
  match frames.head? with
  | none => false
  | some leaf =>
    names.any fun name =>
      match leaf.className, splitOnce name.toList with
      | some c, some (c', f) => c.toList == c' && leaf.function.toList == f
      | none, none => leaf.function == name
      | _, _ => false

example :
    leafIsAny [⟨"start", some "Swoole\\Server", none, 0⟩] ["Swoole\\Server::start"] = true := by
  decide

/-! ### Pacing -/

/-- The three sampling loops pace themselves with the same instructions. -/
inductive Pace where
  /-- Before `let now = Instant::now()`. -/
  | timing
  /-- In `thread::sleep(next - now)`. -/
  | sleeping
  /-- Before `next += interval` and the pacing check. -/
  | advancing
  /-- Before `next = Instant::now() + interval`. -/
  | snapping
  deriving DecidableEq, Repr

/-- One step of the pacing at the time `clock`, with the new deadline.  No new
position means that the capture comes next. -/
def Pace.step (interval clock next : ℕ) : Pace → Option (Option Pace × ℕ)
  | .timing => some (some (if clock < next then .sleeping else .advancing), next)
  | .sleeping => if next ≤ clock then some (some .advancing, next) else none
  | .advancing =>
    some (if next + interval + interval * 4 < clock then some .snapping else none, next + interval)
  | .snapping => some (none, clock + interval)

/-! ### The worker thread -/

/-- The arguments of `run_multi`, less what only `Target::attach` and
`build_sink` read. -/
structure Config where
  interval : ℕ
  duration : Option ℕ
  rediscoverSecs : ℕ
  requestInfo : Bool
  dropLeaf : List String

/-- The message that a worker sends for a sample. -/
structure SampleMsg where
  pid : ℤ
  frames : List Frame
  /-- The field `meta`. -/
  info : SampleMeta
  deriving DecidableEq, Repr, Inhabited

/-- Where a worker thread is. -/
inductive WorkerPc where
  /-- Before `let mut next = Instant::now()`. -/
  | starting
  /-- Before the load of the stop flag. -/
  | checking
  | pacing (p : Pace)
  | capturing
  /-- The capture failed: before the look at `/proc/PID/status`. -/
  | probing
  /-- Before the two calls of `request_var`, if they are wanted. -/
  | describing (frames : List Frame)
  | sending (msg : SampleMsg)
  /-- Out of the loop; the thread still owns its sender. -/
  | exiting
  /-- The thread is finished and its sender is dropped. -/
  | done
  deriving DecidableEq, Repr

/-- A worker thread with what it shares: its stop flag and its sender. -/
structure Worker where
  pid : ℤ
  /-- The process instance its `Target` was attached to. -/
  attached : ℕ
  stop : Bool
  pc : WorkerPc
  next : ℕ
  /-- The messages `tx.send` has accepted, in order. -/
  sent : List SampleMsg
  /-- Those of them the receiver has not taken yet. -/
  queue : List SampleMsg
  deriving DecidableEq, Repr

/-- What a worker does next, with what it is told by the target. -/
inductive WorkerAction where
  | start
  | check
  | pace
  /-- `capture_stack` returns; `none` is an error. -/
  | capture (frames : Option (List Frame))
  | probe
  /-- `request_var` returns the URI and the method. -/
  | describe (uri method : Option String)
  | send
  /-- Reading the target panics, which ends the thread. -/
  | panic
  | finish
  deriving DecidableEq, Repr

/-- The thread `spawn_worker` starts. -/
def Worker.spawned (pid : ℤ) (attached : ℕ) : Worker :=
  { pid, attached, stop := false, pc := .starting, next := 0, sent := [], queue := [] }

/-- What the other parties show a worker: the time, whether its pid is in
`/proc`, and whether the receiver still exists. -/
structure Surroundings where
  clock : ℕ
  pidExists : Bool
  receiver : Bool

namespace Worker

/-- The description of a sample. -/
def describe (cfg : Config) (uri method : Option String) : SampleMeta :=
  if cfg.requestInfo then { requestUri := uri, requestMethod := method }
  else { requestUri := none, requestMethod := none }

/-- One step of the thread `spawn_worker` starts. -/
def step (cfg : Config) (env : Surroundings) (w : Worker) (a : WorkerAction) : Option Worker :=
  match a, w.pc with
  | .start, .starting => some { w with next := env.clock, pc := .checking }
  | .check, .checking => some { w with pc := if w.stop then .exiting else .pacing .timing }
  | .pace, .pacing p =>
    (p.step cfg.interval env.clock w.next).map fun x =>
      { w with pc := (x.1.map .pacing).getD .capturing, next := x.2 }
  | .capture none, .capturing => some { w with pc := .probing }
  | .capture (some frames), .capturing =>
    some { w with
      pc := if frames.isEmpty || leafIsAny frames cfg.dropLeaf then .checking
        else .describing frames }
  | .probe, .probing => some { w with pc := if env.pidExists then .checking else .exiting }
  | .describe uri method, .describing frames =>
    some { w with pc := .sending { pid := w.pid, frames, info := describe cfg uri method } }
  | .send, .sending msg =>
    -- a send fails only when the receiver is gone
    if env.receiver then
      some { w with pc := .checking, sent := w.sent ++ [msg], queue := w.queue ++ [msg] }
    else some { w with pc := .exiting }
  | .panic, .capturing => some { w with pc := .exiting }
  | .panic, .describing _ => some { w with pc := .exiting }
  | .finish, .exiting => some { w with pc := .done }
  | _, _ => none

/-- What a worker can do, and what it has seen then. -/
inductive Move (cfg : Config) (env : Surroundings) (w : Worker) : WorkerAction → Worker → Prop
  | start (hpc : w.pc = .starting) :
    Move cfg env w .start { w with next := env.clock, pc := .checking }
  | stopped (hpc : w.pc = .checking) (hstop : w.stop = true) :
    Move cfg env w .check { w with pc := .exiting }
  | goesOn (hpc : w.pc = .checking) (hstop : w.stop = false) :
    Move cfg env w .check { w with pc := .pacing .timing }
  | paces (p p' : Pace) (next : ℕ) (hpc : w.pc = .pacing p)
    (hpace : p.step cfg.interval env.clock w.next = some (some p', next)) :
    Move cfg env w .pace { w with pc := .pacing p', next }
  | paced (p : Pace) (next : ℕ) (hpc : w.pc = .pacing p)
    (hpace : p.step cfg.interval env.clock w.next = some (none, next)) :
    Move cfg env w .pace { w with pc := .capturing, next }
  | captureFails (hpc : w.pc = .capturing) :
    Move cfg env w (.capture none) { w with pc := .probing }
  | drops (frames : List Frame) (hpc : w.pc = .capturing)
    (hdrop : (frames.isEmpty || leafIsAny frames cfg.dropLeaf) = true) :
    Move cfg env w (.capture (some frames)) { w with pc := .checking }
  | captures (frames : List Frame) (hpc : w.pc = .capturing)
    (hkeep : (frames.isEmpty || leafIsAny frames cfg.dropLeaf) = false) :
    Move cfg env w (.capture (some frames)) { w with pc := .describing frames }
  | alive (hpc : w.pc = .probing) (hpid : env.pidExists = true) :
    Move cfg env w .probe { w with pc := .checking }
  | gone (hpc : w.pc = .probing) (hpid : env.pidExists = false) :
    Move cfg env w .probe { w with pc := .exiting }
  | describes (uri method : Option String) (frames : List Frame) (hpc : w.pc = .describing frames) :
    Move cfg env w (.describe uri method)
      { w with pc := .sending { pid := w.pid, frames, info := describe cfg uri method } }
  | sends (msg : SampleMsg) (hpc : w.pc = .sending msg) (hrx : env.receiver = true) :
    Move cfg env w .send
      { w with pc := .checking, sent := w.sent ++ [msg], queue := w.queue ++ [msg] }
  | sendFails (msg : SampleMsg) (hpc : w.pc = .sending msg) (hrx : env.receiver = false) :
    Move cfg env w .send { w with pc := .exiting }
  | panics (hpc : w.pc = .capturing ∨ ∃ frames, w.pc = .describing frames) :
    Move cfg env w .panic { w with pc := .exiting }
  | finish (hpc : w.pc = .exiting) : Move cfg env w .finish { w with pc := .done }

variable {cfg : Config} {env : Surroundings} {w w' : Worker} {a : WorkerAction}

/-- **Every step of a worker is one of its moves.** -/
theorem step_move (h : w.step cfg env a = some w') : Move cfg env w a w' := by
  unfold step at h
  split at h
  case h_1 hpc => exact Option.some.inj h ▸ .start hpc
  case h_2 hpc =>
    obtain rfl := Option.some.inj h
    by_cases hstop : w.stop = true
    · rw [if_pos hstop]
      exact .stopped hpc hstop
    · rw [if_neg hstop]
      exact .goesOn hpc (by simpa using hstop)
  case h_3 p hpc =>
    obtain ⟨⟨p', next⟩, hpace, rfl⟩ := Option.map_eq_some_iff.mp h
    cases p' with
    | none => exact .paced p next hpc hpace
    | some p' => exact .paces p p' next hpc hpace
  case h_4 hpc => exact Option.some.inj h ▸ .captureFails hpc
  case h_5 frames hpc =>
    obtain rfl := Option.some.inj h
    cases hdrop : frames.isEmpty || leafIsAny frames cfg.dropLeaf with
    | true => exact .drops frames hpc hdrop
    | false => exact .captures frames hpc hdrop
  case h_6 hpc =>
    obtain rfl := Option.some.inj h
    cases hpid : env.pidExists with
    | true => exact .alive hpc hpid
    | false => exact .gone hpc hpid
  case h_7 uri method frames hpc => exact Option.some.inj h ▸ .describes uri method frames hpc
  case h_8 msg hpc =>
    cases hrx : env.receiver with
    | true =>
      rw [if_pos hrx] at h
      exact Option.some.inj h ▸ .sends msg hpc hrx
    | false =>
      rw [if_neg (by simp [hrx])] at h
      exact Option.some.inj h ▸ .sendFails msg hpc hrx
  case h_9 hpc => exact Option.some.inj h ▸ .panics (Or.inl hpc)
  case h_10 frames hpc => exact Option.some.inj h ▸ .panics (Or.inr ⟨frames, hpc⟩)
  case h_11 hpc => exact Option.some.inj h ▸ .finish hpc
  case h_12 => cases h

/-- A step sends one message, or it leaves what was sent alone. -/
theorem step_cases (h : w.step cfg env a = some w') :
    (w'.sent = w.sent ∧ w'.queue = w.queue ∧ ¬ (a = .send ∧ env.receiver = true)) ∨
    ∃ msg, a = .send ∧ env.receiver = true ∧ w.pc = .sending msg ∧
      w'.sent = w.sent ++ [msg] ∧ w'.queue = w.queue ++ [msg] := by
  cases step_move h with
  | sends msg hpc hrx => exact Or.inr ⟨msg, rfl, hrx, hpc, rfl, rfl⟩
  | sendFails msg hpc hrx => exact Or.inl ⟨rfl, rfl, by simp [hrx]⟩
  | _ => exact Or.inl ⟨rfl, rfl, by simp⟩

/-- A finished thread takes no step. -/
theorem step_done (h : w.pc = .done) : w.step cfg env a = none := by
  unfold step
  rw [h]
  cases a with
  | capture frames => cases frames <;> rfl
  | _ => rfl

end Worker
end PhpFastProfile
