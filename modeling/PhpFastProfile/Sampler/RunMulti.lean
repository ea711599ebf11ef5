import PhpFastProfile.Sampler
import PhpFastProfile.Lib.Run
import Mathlib.Data.List.AList
import Mathlib.Logic.Function.Basic

/-!
# `run_multi`

The main thread discovers processes, gives each a worker, writes what the workers
send and rediscovers on a timer, until it is stopped; then it signals the
workers, drops its sender, drains the channel, joins the threads and finishes the
sink.  A state holds the clock, the processes of the system, the stop flag, all
workers ever started and the main thread.  A step is one action of one of these
parties, and a run is any list of actions each of which can happen where it
stands.

The channel keeps one queue for each sender: the receiver takes the oldest
message of any sender, and gives up on a deadline only when nothing waits.

## Main definitions

* `MainPc` — where the main thread is.
* `State`, `State.init` — a state of the whole system and the states it starts in.
* `State.step` — one step of any party.
* `State.Move` — the moves of the main thread.
* `State.Event` — what happens around the profiler.
* `runMulti` — a run.

## Main results

* `State.mainStep_move` — what the main thread can do, and what it has seen then.
* `State.step_parties`, `State.step_cases` — which party a step belongs to.
-/

namespace PhpFastProfile

/-- Where the main thread is. -/
inductive MainPc where
  /-- Before `let start = Instant::now()`. -/
  | starting
  /-- Before `let mut next_rediscover = Instant::now()`. -/
  | timing
  /-- Before the initial `discover::discover`. -/
  | discovering
  /-- In the loop over the pids a scan has found, the first scan or a later one. -/
  | spawning (first : Bool) (todo : List ℤ)
  /-- At the top of the event loop. -/
  | checkingStop
  | checkingDuration
  /-- In `rx.recv_timeout` until the deadline. -/
  | receiving (deadline : ℕ)
  /-- Before `Instant::now() >= next_rediscover`. -/
  | polling
  /-- Before `next_rediscover = Instant::now() + rediscover_every`. -/
  | arming
  /-- In `workers.retain`. -/
  | reaping (todo : List ℤ)
  | rediscovering
  /-- Storing the stop flags of the workers. -/
  | signalling (todo : List ℤ)
  /-- Before `drop(tx)`. -/
  | dropping
  /-- In `rx.recv_timeout` of the teardown, until the deadline. -/
  | draining (deadline : ℕ)
  | joining (todo : List ℕ)
  /-- Before `sink.finish()`. -/
  | finishing
  /-- The sink is finished, with or without an error; the receiver still exists. -/
  | leaving (finished : Bool)
  | returned (finished : Bool)
  /-- The initial discovery failed, and `run_multi` has returned its error. -/
  | failed
  deriving DecidableEq, Repr

/-- One call of `sink.write_sample`: the message, whose frames are written, and
the description it is written with. -/
structure Write where
  worker : ℕ
  msg : SampleMsg
  info : SampleMeta
  accepted : Bool
  deriving DecidableEq, Repr

/-- The state of `run_multi`: the processes around it, its workers, and its main thread. -/
structure State where
  clock : ℕ
  /-- The processes of the system: the instance running under a pid. -/
  procs : ℤ → Option ℕ
  nextInstance : ℕ
  stop : Bool
  /-- Every worker ever started, in order. -/
  workers : List Worker
  /-- The map `workers`: the worker in charge of a pid. -/
  table : AList fun _ : ℤ => ℕ
  start : ℕ
  nextRediscover : ℕ
  /-- Whether the main thread still holds `tx`. -/
  tx : Bool
  main : MainPc
  written : List Write
  taken : ℕ

/-- What the main thread does next, with what it is told from outside. -/
inductive MainAction where
  /-- The next instruction, where it does not depend on anybody else. -/
  | go
  /-- `discover::discover` returns; `none` is an error. -/
  | discover (found : Option (List ℤ))
  /-- The next pid found is given a worker, unless it has one: `Target::attach` and
  `thread::Builder::spawn` succeed, or one of them fails. -/
  | spawn (ok : Bool)
  /-- A message of a worker is received and written. -/
  | recv (w : ℕ) (accepted : Bool)
  | timeout
  | disconnected
  /-- `retain` visits a pid. -/
  | reap (pid : ℤ)
  | signal (pid : ℤ)
  | join (w : ℕ)
  | finish (ok : Bool)
  deriving DecidableEq, Repr

/-- What happens next. -/
inductive Action where
  | tick (d : ℕ)
  /-- SIGINT or SIGTERM reaches the profiler. -/
  | interrupt
  | procStart (pid : ℤ)
  | procExit (pid : ℤ)
  | worker (w : ℕ) (a : WorkerAction)
  | main (a : MainAction)
  deriving DecidableEq, Repr

/-- The description a message of the event loop is written with: its URI tells
which worker it is from. -/
def SampleMsg.annotated (msg : SampleMsg) : SampleMeta :=
  { msg.info with
    requestUri := msg.info.requestUri.map fun u => "[pid " ++ toString msg.pid ++ "] " ++ u }

namespace State

/-- The states `run_multi` starts in: some processes exist. -/
def init (clock : ℕ) (alive : ℤ → Bool) : State where
  clock
  procs := fun pid => if alive pid then some 0 else none
  nextInstance := 1
  stop := false
  workers := []
  table := ∅
  start := 0
  nextRediscover := 0
  tx := true
  main := .starting
  written := []
  taken := 0

/-- The receiver lives until `run_multi` returns. -/
def receiver (s : State) : Bool :=
  match s.main with
  | .returned _ => false
  | .failed => false
  | _ => true

/-- No message waits in the channel. -/
def quiet (s : State) : Bool := s.workers.all fun w => w.queue.isEmpty

/-- No sender is left. -/
def hungUp (s : State) : Bool := !s.tx && s.workers.all fun w => w.pc = .done

/-- `JoinHandle::is_finished`. -/
def isFinished (s : State) (w : ℕ) : Bool := (s.workers[w]?).any fun x => x.pc = .done

/-- What the worker `w` can see. -/
def surroundings (s : State) (w : Worker) : Surroundings where
  clock := s.clock
  pidExists := (s.procs w.pid).isSome
  receiver := s.receiver

/-! ### Steps of the main thread -/

/-- The instructions of the main thread that do not depend on anybody else. -/
def go (cfg : Config) (s : State) : Option State :=
  match s.main with
  | .starting => some { s with start := s.clock, main := .timing }
  | .timing => some { s with nextRediscover := s.clock, main := .discovering }
  | .spawning _ [] => some { s with main := .checkingStop }
  | .checkingStop =>
    some { s with main := if s.stop then .signalling s.table.keys else .checkingDuration }
  | .checkingDuration =>
    some { s with
      main := if ∃ d ∈ cfg.duration, d ≤ s.clock - s.start then .signalling s.table.keys
        else .receiving (s.clock + fromMillis 50) }
  | .polling =>
    some { s with main := if s.nextRediscover ≤ s.clock then .arming else .checkingStop }
  | .arming =>
    some { s with
      nextRediscover := s.clock + fromSecs (max cfg.rediscoverSecs 1)
      main := .reaping s.table.keys }
  | .reaping [] => some { s with main := .rediscovering }
  | .signalling [] => some { s with main := .dropping }
  -- the senders of the workers are still there
  | .dropping => some { s with tx := false, main := .draining (s.clock + fromMillis 100) }
  | .joining [] => some { s with main := .finishing }
  | .leaving ok => some { s with main := .returned ok }
  | _ => none

/-- A scan returns a set of pids, in any order. -/
def discover (s : State) (found : Option (List ℤ)) : Option State :=
  match s.main, found with
  | .discovering, none => some { s with main := .failed }
  | .discovering, some pids =>
    if pids.Nodup then some { s with main := .spawning true pids } else none
  -- a later scan that fails is logged and skipped
  | .rediscovering, none => some { s with main := .checkingStop }
  | .rediscovering, some pids =>
    if pids.Nodup then some { s with main := .spawning false pids } else none
  | _, _ => none

/-- `spawn_worker` and the insertion into the map; a later scan leaves the pids
alone that have a worker. -/
def spawn (s : State) (ok : Bool) : Option State :=
  match s.main with
  | .spawning first (pid :: todo) =>
    let rest := { s with main := .spawning first todo }
    if !first && (s.table.lookup pid).isSome then some rest
    else if ok then
      -- `Target::attach` needs the process
      (s.procs pid).map fun attached =>
        { rest with
          workers := s.workers ++ [Worker.spawned pid attached]
          table := s.table.insert pid s.workers.length }
    else some rest
  | _ => none

/-- The oldest message of the worker `w` is written with `info`, and the main
thread goes on at `pc`. -/
def take (s : State) (w : ℕ) (info : SampleMsg → SampleMeta) (accepted : Bool) (pc : MainPc) :
    Option State :=
  (s.workers[w]?).bind fun x =>
    match x.queue with
    | [] => none
    | msg :: rest =>
      some { s with
        workers := s.workers.set w { x with queue := rest }
        written := s.written ++ [{ worker := w, msg, info := info msg, accepted }]
        taken := s.taken + 1
        main := pc }

/-- `rx.recv_timeout` returns a message.  Only the event loop annotates it. -/
def recv (s : State) (w : ℕ) (accepted : Bool) : Option State :=
  match s.main with
  | .receiving _ => s.take w SampleMsg.annotated accepted .polling
  -- the gap of 100 ms starts anew with every message
  | .draining _ => s.take w SampleMsg.info accepted (.draining (s.clock + fromMillis 100))
  | _ => none

/-- The map `workers`, emptied for the joins. -/
def drained (s : State) : State :=
  { s with table := ∅, main := .joining (s.table.entries.map Sigma.snd) }

/-- `rx.recv_timeout` returns `Timeout`. -/
def timeout (s : State) : Option State :=
  match s.main with
  | .receiving deadline =>
    if deadline ≤ s.clock ∧ s.quiet then some { s with main := .polling } else none
  | .draining deadline => if deadline ≤ s.clock ∧ s.quiet then some s.drained else none
  | _ => none

/-- `rx.recv_timeout` returns `Disconnected`. -/
def disconnected (s : State) : Option State :=
  match s.main with
  | .receiving _ =>
    if s.hungUp ∧ s.quiet then some { s with main := .signalling s.table.keys } else none
  | .draining _ => if s.hungUp ∧ s.quiet then some s.drained else none
  | _ => none

/-- `retain` drops the entry of a pid whose worker has finished. -/
def reap (s : State) (pid : ℤ) : Option State :=
  match s.main with
  | .reaping todo =>
    if pid ∈ todo then
      some { s with
        -- the thread is forgotten here without a join
        table := if (s.table.lookup pid).any s.isFinished then s.table.erase pid else s.table
        main := .reaping (todo.erase pid) }
    else none
  | _ => none

/-- Set the stop flag of the worker `w`. -/
def stopWorker (s : State) (w : ℕ) : State :=
  { s with workers := s.workers.modify w fun x => { x with stop := true } }

/-- The next worker of the table, in any order, is told to stop. -/
def signal (s : State) (pid : ℤ) : Option State :=
  match s.main with
  | .signalling todo =>
    if pid ∈ todo then
      (s.table.lookup pid).map fun w =>
        { s.stopWorker w with main := .signalling (todo.erase pid) }
    else none
  | _ => none

/-- `h.join.join()` returns once the thread has finished. -/
def join (s : State) (w : ℕ) : Option State :=
  match s.main with
  | .joining todo =>
    if w ∈ todo ∧ s.isFinished w then some { s with main := .joining (todo.erase w) } else none
  | _ => none

/-- `sink.finish()` returns. -/
def finish (s : State) (ok : Bool) : Option State :=
  match s.main with
  | .finishing => some { s with main := .leaving ok }
  | _ => none

/-- A step of the main thread. -/
def mainStep (cfg : Config) (s : State) : MainAction → Option State
  | .go => s.go cfg
  | .discover found => s.discover found
  | .spawn ok => s.spawn ok
  | .recv w accepted => s.recv w accepted
  | .timeout => s.timeout
  | .disconnected => s.disconnected
  | .reap pid => s.reap pid
  | .signal pid => s.signal pid
  | .join w => s.join w
  | .finish ok => s.finish ok

/-! ### What the main thread can do -/

/-- The moves of the main thread, each with what it has seen. -/
inductive Move (cfg : Config) (s : State) : MainAction → State → Prop
  | start (hpc : s.main = .starting) : Move cfg s .go { s with start := s.clock, main := .timing }
  | time (hpc : s.main = .timing) :
    Move cfg s .go { s with nextRediscover := s.clock, main := .discovering }
  | spawned (first : Bool) (hpc : s.main = .spawning first []) :
    Move cfg s .go { s with main := .checkingStop }
  | stopped (hpc : s.main = .checkingStop) (hstop : s.stop = true) :
    Move cfg s .go { s with main := .signalling s.table.keys }
  | goesOn (hpc : s.main = .checkingStop) (hstop : s.stop = false) :
    Move cfg s .go { s with main := .checkingDuration }
  | expired (hpc : s.main = .checkingDuration) (d : ℕ) (hd : cfg.duration = some d)
    (hle : d ≤ s.clock - s.start) : Move cfg s .go { s with main := .signalling s.table.keys }
  | waits (hpc : s.main = .checkingDuration)
    (hlt : ∀ d, cfg.duration = some d → s.clock - s.start < d) :
    Move cfg s .go { s with main := .receiving (s.clock + fromMillis 50) }
  | due (hpc : s.main = .polling) (hle : s.nextRediscover ≤ s.clock) :
    Move cfg s .go { s with main := .arming }
  | notDue (hpc : s.main = .polling) (hlt : s.clock < s.nextRediscover) :
    Move cfg s .go { s with main := .checkingStop }
  | arm (hpc : s.main = .arming) :
    Move cfg s .go { s with
      nextRediscover := s.clock + fromSecs (max cfg.rediscoverSecs 1)
      main := .reaping s.table.keys }
  | reaped (hpc : s.main = .reaping []) : Move cfg s .go { s with main := .rediscovering }
  | signalled (hpc : s.main = .signalling []) : Move cfg s .go { s with main := .dropping }
  | drop (hpc : s.main = .dropping) :
    Move cfg s .go { s with tx := false, main := .draining (s.clock + fromMillis 100) }
  | joined (hpc : s.main = .joining []) : Move cfg s .go { s with main := .finishing }
  | leave (ok : Bool) (hpc : s.main = .leaving ok) : Move cfg s .go { s with main := .returned ok }
  | discoverFails (hpc : s.main = .discovering) :
    Move cfg s (.discover none) { s with main := .failed }
  | discover (pids : List ℤ) (hpc : s.main = .discovering) (hnodup : pids.Nodup) :
    Move cfg s (.discover (some pids)) { s with main := .spawning true pids }
  | rediscoverFails (hpc : s.main = .rediscovering) :
    Move cfg s (.discover none) { s with main := .checkingStop }
  | rediscover (pids : List ℤ) (hpc : s.main = .rediscovering) (hnodup : pids.Nodup) :
    Move cfg s (.discover (some pids)) { s with main := .spawning false pids }
  | keep (ok : Bool) (pid : ℤ) (todo : List ℤ) (hpc : s.main = .spawning false (pid :: todo))
    (hhas : (s.table.lookup pid).isSome = true) :
    Move cfg s (.spawn ok) { s with main := .spawning false todo }
  | spawnFails (first : Bool) (pid : ℤ) (todo : List ℤ)
    (hpc : s.main = .spawning first (pid :: todo))
    (hnew : first = true ∨ s.table.lookup pid = none) :
    Move cfg s (.spawn false) { s with main := .spawning first todo }
  | spawn (first : Bool) (pid : ℤ) (todo : List ℤ) (attached : ℕ)
    (hpc : s.main = .spawning first (pid :: todo))
    (hnew : first = true ∨ s.table.lookup pid = none) (hproc : s.procs pid = some attached) :
    Move cfg s (.spawn true) { s with
      workers := s.workers ++ [Worker.spawned pid attached]
      table := s.table.insert pid s.workers.length
      main := .spawning first todo }
  | recv (w : ℕ) (accepted : Bool) (deadline : ℕ) (x : Worker) (msg : SampleMsg)
    (rest : List SampleMsg) (hpc : s.main = .receiving deadline) (hx : s.workers[w]? = some x)
    (hqueue : x.queue = msg :: rest) :
    Move cfg s (.recv w accepted) { s with
      workers := s.workers.set w { x with queue := rest }
      written := s.written ++ [{ worker := w, msg, info := msg.annotated, accepted }]
      taken := s.taken + 1
      main := .polling }
  | drain (w : ℕ) (accepted : Bool) (deadline : ℕ) (x : Worker) (msg : SampleMsg)
    (rest : List SampleMsg) (hpc : s.main = .draining deadline) (hx : s.workers[w]? = some x)
    (hqueue : x.queue = msg :: rest) :
    Move cfg s (.recv w accepted) { s with
      workers := s.workers.set w { x with queue := rest }
      written := s.written ++ [{ worker := w, msg, info := msg.info, accepted }]
      taken := s.taken + 1
      main := .draining (s.clock + fromMillis 100) }
  | timeout (deadline : ℕ) (hpc : s.main = .receiving deadline) (hle : deadline ≤ s.clock)
    (hquiet : s.quiet = true) : Move cfg s .timeout { s with main := .polling }
  | hangUp (deadline : ℕ) (hpc : s.main = .receiving deadline) (hup : s.hungUp = true)
    (hquiet : s.quiet = true) :
    Move cfg s .disconnected { s with main := .signalling s.table.keys }
  | drainTimeout (deadline : ℕ) (hpc : s.main = .draining deadline) (hle : deadline ≤ s.clock)
    (hquiet : s.quiet = true) : Move cfg s .timeout s.drained
  | drainHangUp (deadline : ℕ) (hpc : s.main = .draining deadline) (hup : s.hungUp = true)
    (hquiet : s.quiet = true) : Move cfg s .disconnected s.drained
  | reap (pid : ℤ) (todo : List ℤ) (hpc : s.main = .reaping todo) (hmem : pid ∈ todo) :
    Move cfg s (.reap pid) { s with
      table := if (s.table.lookup pid).any s.isFinished then s.table.erase pid else s.table
      main := .reaping (todo.erase pid) }
  | signal (pid : ℤ) (todo : List ℤ) (w : ℕ) (hpc : s.main = .signalling todo) (hmem : pid ∈ todo)
    (hw : s.table.lookup pid = some w) :
    Move cfg s (.signal pid) { s.stopWorker w with main := .signalling (todo.erase pid) }
  | join (w : ℕ) (todo : List ℕ) (hpc : s.main = .joining todo) (hmem : w ∈ todo)
    (hdone : s.isFinished w = true) :
    Move cfg s (.join w) { s with main := .joining (todo.erase w) }
  | finish (ok : Bool) (hpc : s.main = .finishing) :
    Move cfg s (.finish ok) { s with main := .leaving ok }

section Moves

variable {cfg : Config} {s s' : State}

theorem move_of_go (h : s.go cfg = some s') : Move cfg s .go s' := by
  unfold go at h
  split at h
  case h_1 hpc => exact Option.some.inj h ▸ .start hpc
  case h_2 hpc => exact Option.some.inj h ▸ .time hpc
  case h_3 first hpc => exact Option.some.inj h ▸ .spawned first hpc
  case h_4 hpc =>
    obtain rfl := Option.some.inj h
    by_cases hstop : s.stop = true
    · rw [if_pos hstop]
      exact .stopped hpc hstop
    · rw [if_neg hstop]
      exact .goesOn hpc (by simpa using hstop)
  case h_5 hpc =>
    obtain rfl := Option.some.inj h
    split
    · next hexp =>
      obtain ⟨d, hd, hle⟩ := hexp
      exact .expired hpc d hd hle
    · next hgo =>
      refine .waits hpc fun d hd => ?_
      by_contra hle
      exact hgo ⟨d, hd, Nat.le_of_not_lt hle⟩
  case h_6 hpc =>
    obtain rfl := Option.some.inj h
    split
    · next hle => exact .due hpc hle
    · next hlt => exact .notDue hpc (Nat.lt_of_not_le hlt)
  case h_7 hpc => exact Option.some.inj h ▸ .arm hpc
  case h_8 hpc => exact Option.some.inj h ▸ .reaped hpc
  case h_9 hpc => exact Option.some.inj h ▸ .signalled hpc
  case h_10 hpc => exact Option.some.inj h ▸ .drop hpc
  case h_11 hpc => exact Option.some.inj h ▸ .joined hpc
  case h_12 ok hpc => exact Option.some.inj h ▸ .leave ok hpc
  case h_13 => cases h

theorem move_of_discover {found : Option (List ℤ)} (h : s.discover found = some s') :
    Move cfg s (.discover found) s' := by
  unfold State.discover at h
  split at h
  case h_1 _ hpc => exact Option.some.inj h ▸ .discoverFails hpc
  case h_2 pids hpc =>
    split at h
    · next hnodup => exact Option.some.inj h ▸ .discover pids hpc hnodup
    · cases h
  case h_3 _ hpc => exact Option.some.inj h ▸ .rediscoverFails hpc
  case h_4 pids hpc =>
    split at h
    · next hnodup => exact Option.some.inj h ▸ .rediscover pids hpc hnodup
    · cases h
  case h_5 => cases h

theorem move_of_spawn {ok : Bool} (h : s.spawn ok = some s') : Move cfg s (.spawn ok) s' := by
  unfold State.spawn at h
  split at h
  case h_2 => cases h
  case h_1 first pid todo hpc =>
    dsimp only at h
    by_cases hhas : (!first && (s.table.lookup pid).isSome) = true
    · rw [if_pos hhas] at h
      obtain ⟨rfl, hsome⟩ : first = false ∧ (s.table.lookup pid).isSome = true := by
        simpa using hhas
      exact Option.some.inj h ▸ .keep ok pid todo hpc hsome
    · have hnew : first = true ∨ s.table.lookup pid = none := by
        cases first with
        | true => exact Or.inl rfl
        | false => exact Or.inr (by simpa using hhas)
      rw [if_neg hhas] at h
      cases ok with
      | false => exact Option.some.inj h ▸ .spawnFails first pid todo hpc hnew
      | true =>
        obtain ⟨attached, hproc, rfl⟩ := Option.map_eq_some_iff.mp h
        exact .spawn first pid todo attached hpc hnew hproc

theorem move_of_recv {w : ℕ} {accepted : Bool} (h : s.recv w accepted = some s') :
    Move cfg s (.recv w accepted) s' := by
  have htake : ∀ {info pc}, s.take w info accepted pc = some s' →
      ∃ x msg rest, s.workers[w]? = some x ∧ x.queue = msg :: rest ∧
        s' = { s with
          workers := s.workers.set w { x with queue := rest }
          written := s.written ++ [{ worker := w, msg, info := info msg, accepted }]
          taken := s.taken + 1
          main := pc } := by
    intro info pc ht
    obtain ⟨x, hx, ht⟩ := Option.bind_eq_some_iff.mp ht
    split at ht
    · cases ht
    · next msg rest hqueue => exact ⟨x, msg, rest, hx, hqueue, (Option.some.inj ht).symm⟩
  unfold State.recv at h
  split at h
  case h_1 deadline hpc =>
    obtain ⟨x, msg, rest, hx, hqueue, rfl⟩ := htake h
    exact .recv w accepted deadline x msg rest hpc hx hqueue
  case h_2 deadline hpc =>
    obtain ⟨x, msg, rest, hx, hqueue, rfl⟩ := htake h
    exact .drain w accepted deadline x msg rest hpc hx hqueue
  case h_3 => cases h

theorem move_of_timeout (h : s.timeout = some s') : Move cfg s .timeout s' := by
  unfold State.timeout at h
  split at h
  case h_1 deadline hpc =>
    split at h
    · next hend => exact Option.some.inj h ▸ .timeout deadline hpc hend.1 hend.2
    · cases h
  case h_2 deadline hpc =>
    split at h
    · next hend => exact Option.some.inj h ▸ .drainTimeout deadline hpc hend.1 hend.2
    · cases h
  case h_3 => cases h

theorem move_of_disconnected (h : s.disconnected = some s') : Move cfg s .disconnected s' := by
  unfold State.disconnected at h
  split at h
  case h_1 deadline hpc =>
    split at h
    · next hend => exact Option.some.inj h ▸ .hangUp deadline hpc hend.1 hend.2
    · cases h
  case h_2 deadline hpc =>
    split at h
    · next hend => exact Option.some.inj h ▸ .drainHangUp deadline hpc hend.1 hend.2
    · cases h
  case h_3 => cases h

/-- **Every step of the main thread is one of its moves.** -/
theorem mainStep_move {a : MainAction} (h : s.mainStep cfg a = some s') : Move cfg s a s' := by
  cases a with
  | go => exact move_of_go h
  | discover found => exact move_of_discover h
  | spawn ok => exact move_of_spawn h
  | recv w accepted => exact move_of_recv h
  | timeout => exact move_of_timeout h
  | disconnected => exact move_of_disconnected h
  | reap pid =>
    change s.reap pid = some s' at h
    unfold State.reap at h
    split at h
    case h_1 todo hpc =>
      split at h
      · next hmem => exact Option.some.inj h ▸ .reap pid todo hpc hmem
      · cases h
    case h_2 => cases h
  | signal pid =>
    change s.signal pid = some s' at h
    unfold State.signal at h
    split at h
    case h_1 todo hpc =>
      split at h
      · next hmem =>
        obtain ⟨w, hw, rfl⟩ := Option.map_eq_some_iff.mp h
        exact .signal pid todo w hpc hmem hw
      · cases h
    case h_2 => cases h
  | join w =>
    change s.join w = some s' at h
    unfold State.join at h
    split at h
    case h_1 todo hpc =>
      split at h
      · next hjoin => exact Option.some.inj h ▸ .join w todo hpc hjoin.1 hjoin.2
      · cases h
    case h_2 => cases h
  | finish ok =>
    change s.finish ok = some s' at h
    unfold State.finish at h
    split at h
    case h_1 hpc => exact Option.some.inj h ▸ .finish ok hpc
    case h_2 => cases h

end Moves

/-! ### Steps of the system -/

/-- A step of the worker `w`. -/
def workerStep (cfg : Config) (s : State) (w : ℕ) (a : WorkerAction) : Option State :=
  (s.workers[w]?).bind fun x =>
    (x.step cfg (s.surroundings x) a).map fun x' => { s with workers := s.workers.set w x' }

/-- A step of the system; `none` where the action cannot happen. -/
def step (cfg : Config) (s : State) : Action → Option State
  | .tick d => some { s with clock := s.clock + d }
  | .interrupt => some { s with stop := true }
  | .procStart pid =>
    if s.procs pid = none then
      some { s with
        procs := Function.update s.procs pid (some s.nextInstance)
        nextInstance := s.nextInstance + 1 }
    else none
  | .procExit pid =>
    if s.procs pid = none then none
    else some { s with procs := Function.update s.procs pid none }
  | .worker w a => s.workerStep cfg w a
  | .main a => s.mainStep cfg a

/-- What happens around the profiler. -/
inductive Event (s : State) : Action → State → Prop
  | tick (d : ℕ) : Event s (.tick d) { s with clock := s.clock + d }
  | interrupt : Event s .interrupt { s with stop := true }
  | procStart (pid : ℤ) (hfree : s.procs pid = none) : Event s (.procStart pid) { s with
      procs := Function.update s.procs pid (some s.nextInstance)
      nextInstance := s.nextInstance + 1 }
  | procExit (pid : ℤ) (hproc : s.procs pid ≠ none) :
    Event s (.procExit pid) { s with procs := Function.update s.procs pid none }

/-- A step of a worker changes that worker. -/
theorem workerStep_eq_some {cfg : Config} {s s' : State} {w : ℕ} {a : WorkerAction}
    (h : s.workerStep cfg w a = some s') : ∃ x x', s.workers[w]? = some x ∧
      x.step cfg (s.surroundings x) a = some x' ∧
        s' = { s with workers := s.workers.set w x' } := by
  obtain ⟨x, hx, h⟩ := Option.bind_eq_some_iff.mp h
  obtain ⟨x', hstep, rfl⟩ := Option.map_eq_some_iff.mp h
  exact ⟨x, x', hx, hstep, rfl⟩

/-- A step is one of a worker, one of the main thread, or an event around them. -/
theorem step_parties {cfg : Config} {s s' : State} {a : Action} (h : s.step cfg a = some s') :
    (∃ w b, a = .worker w b ∧ s.workerStep cfg w b = some s') ∨
    (∃ b, a = .main b ∧ s.mainStep cfg b = some s') ∨ s.Event a s' := by
  cases a with
  | worker w b => exact Or.inl ⟨w, b, rfl, h⟩
  | main b => exact Or.inr (Or.inl ⟨b, rfl, h⟩)
  | tick d => exact Or.inr (Or.inr (Option.some.inj h ▸ .tick d))
  | interrupt => exact Or.inr (Or.inr (Option.some.inj h ▸ .interrupt))
  | procStart pid =>
    simp only [step] at h
    split at h
    · next hfree => exact Or.inr (Or.inr (Option.some.inj h ▸ .procStart pid hfree))
    · cases h
  | procExit pid =>
    simp only [step] at h
    split at h
    · cases h
    · next hproc => exact Or.inr (Or.inr (Option.some.inj h ▸ .procExit pid hproc))

/-- A step is one of a worker, one of the main thread, or one that touches neither. -/
theorem step_cases {cfg : Config} {s s' : State} {a : Action} (h : s.step cfg a = some s') :
    (∃ w b, a = .worker w b ∧ s.workerStep cfg w b = some s') ∨
    (∃ b, a = .main b ∧ s.mainStep cfg b = some s') ∨
    ((∀ w b, a ≠ .worker w b) ∧ s'.workers = s.workers ∧ s'.written = s.written ∧
      s'.main = s.main) := by
  rcases step_parties h with hworker | hmain | hevent
  · exact Or.inl hworker
  · exact Or.inr (Or.inl hmain)
  · cases hevent <;> exact Or.inr (Or.inr ⟨by simp, rfl, rfl, rfl⟩)

/-- Only a tick moves the clock. -/
theorem step_clock {cfg : Config} {s s' : State} {a : Action} (h : s.step cfg a = some s') :
    s'.clock = s.clock ∨ ∃ d, a = .tick d ∧ s'.clock = s.clock + d := by
  rcases step_parties h with ⟨w, b, rfl, h⟩ | ⟨b, rfl, h⟩ | hevent
  · obtain ⟨y, y', -, -, rfl⟩ := State.workerStep_eq_some h
    exact Or.inl rfl
  · cases mainStep_move h <;> exact Or.inl rfl
  · cases hevent with
    | tick d => exact Or.inr ⟨d, rfl, rfl⟩
    | _ => exact Or.inl rfl

theorem clock_le {cfg : Config} {s s' : State} {a : Action} (h : s.step cfg a = some s') :
    s.clock ≤ s'.clock := by
  rcases step_clock h with hc | ⟨d, -, hc⟩ <;> omega

end State

/-- A run of `run_multi`: the state after the actions, if each of them could happen. -/
def runMulti (cfg : Config) (s : State) (as : List Action) : Option State :=
  Run.exec (State.step cfg) s as

end PhpFastProfile
