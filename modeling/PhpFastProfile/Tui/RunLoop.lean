import PhpFastProfile.Sampler.RunTop
import PhpFastProfile.Tui.TopRows

/-!
# `tui::run`

The live display runs in the main thread of `run_top`.  It takes over the terminal, and
then goes round in a loop: it reads everything that is in the channel, draws the table if
the last drawing is long enough ago, and waits for a key for at most 50 ms.  A state holds
the sampling threads, what waits in the channel of each, and the display; a step is one of
a thread, of what surrounds them, or of the display.

The log is not in the program.  It tells what the display has done, in order.

## Main definitions

* `Live.Pc` — where the display is.
* `Live.State`, `Live.step` — the system and its steps.
* `Live.Move` — the moves of the display.
* `Live.run` — a run.

## Main results

* `Live.displayStep_move` — every step of the display is a move.
-/

namespace PhpFastProfile
namespace Live

/-- The ends of `run_loop`. -/
inductive LoopEnd where
  | stopped
  /-- The key `q` or Esc. -/
  | quit
  | disconnected
  /-- The terminal reports an error. -/
  | failed
  deriving DecidableEq, Repr

/-- Where `tui::run` is. -/
inductive Pc where
  /-- Before `enable_raw_mode()`. -/
  | enabling
  /-- Before `execute!(stdout, EnterAlternateScreen)`. -/
  | entering
  /-- Before `Terminal::new(backend)`. -/
  | opening
  /-- In `run_loop`, before `Instant::now() - tick`. -/
  | starting
  /-- At the top of the loop. -/
  | checkingStop
  /-- Before `rx.try_recv()`. -/
  | receiving
  /-- Before `last_draw.elapsed()`. -/
  | timing
  | drawing
  /-- Before `last_draw = Instant::now()`. -/
  | stamping
  /-- In `event::poll`, until the deadline. -/
  | polling (deadline : ℕ)
  /-- Before `event::read()`. -/
  | reading
  /-- `run_loop` has returned: before `disable_raw_mode()`. -/
  | disabling (e : LoopEnd)
  /-- Before `execute!(terminal.backend_mut(), LeaveAlternateScreen)`. -/
  | leaving (e : LoopEnd)
  /-- Before `terminal.show_cursor()`. -/
  | showing (e : LoopEnd)
  | returned (e : LoopEnd)
  /-- One of the first three calls has failed, and `tui::run` has returned its error. -/
  | unopened
  deriving DecidableEq, Repr

/-- `KeyCode`, as far as the loop tells them apart. -/
inductive KeyCode where
  | q
  | esc
  | i
  | r
  | other
  deriving DecidableEq, Repr

/-- `Event`: a key, and whether its kind is `Press`. -/
inductive Event where
  | key (code : KeyCode) (press : Bool)
  | other
  deriving DecidableEq, Repr

/-- What `draw` shows: the total in the header, and the rows in the order it sorts by, on an
area of this height. -/
structure Drawn where
  clock : ℕ
  height : ℕ
  total : ℕ
  byInclusive : Bool
  rows : List Aggregator.RowEntry

/-- What the display has done. -/
inductive Entry where
  /-- A stack of the thread `i` is recorded. -/
  | recorded (i : ℕ) (now : Instant) (frames : List Frame)
  | toggled
  | reset (now : Instant)
  | drew (x : Drawn)

/-- The state of `tui::run`, with the threads that send to it. -/
structure State where
  top : Top.State
  /-- What each thread has sent and the display has not received. -/
  queue : ℕ → List (List Frame)
  pc : Pc
  agg : Aggregator
  byInclusive : Bool
  lastDraw : ℤ
  /-- Whether the terminal is in raw mode. -/
  raw : Bool
  /-- Whether the terminal shows the alternate screen. -/
  alternate : Bool
  log : List Entry

/-- What the display does next, with what it is told from outside. -/
inductive DisplayAction where
  /-- The next instruction, where it does not depend on anybody else. -/
  | go
  | enable (ok : Bool)
  | enter (ok : Bool)
  | openTerminal (ok : Bool)
  /-- `rx.try_recv()` returns a stack of the thread `i`. -/
  | recv (i : ℕ)
  /-- It returns `Empty`. -/
  | empty
  /-- It returns `Disconnected`. -/
  | disconnected
  /-- `draw` is done: the table is `height` lines high, and the map was iterated in this order. -/
  | draw (order : AList.IterOrder Aggregator.RowEntry) (height : ℕ)
  | drawFails
  /-- `event::poll` returns whether there is an event; `none` is an error. -/
  | poll (ready : Option Bool)
  /-- `event::read` returns; `none` is an error. -/
  | read (e : Option Event)
  | disable (ok : Bool)
  | leave (ok : Bool)
  | showCursor

/-- What happens next. -/
inductive Action where
  | top (a : Top.Action)
  | display (a : DisplayAction)

/-- `tick`: the argument of `tui::run`. -/
def TICK : ℕ := fromMillis 250

/-- The states in which the threads for `pids` have been started. -/
def init (clock : ℕ) (present : ℤ → Bool) (pids : List ℤ) : State where
  top := Top.init clock present pids
  queue := fun _ => []
  pc := .enabling
  agg := .new
  byInclusive := true
  lastDraw := 0
  raw := false
  alternate := false
  log := []

namespace State

/-! ### Steps of the threads -/

/-- `tx.send(frames)` puts the frames into the channel while somebody holds the receiver. -/
def enqueue (s : State) (i : ℕ) (x : Top.Sampler) : Top.SamplerAction → ℕ → List (List Frame)
  | .send =>
    match x.pc with
    | .sending frames =>
      if s.top.receiver then Function.update s.queue i (s.queue i ++ [frames]) else s.queue
    | _ => s.queue
  | _ => s.queue

/-- A step of the thread `i`. -/
def samplerStep (cfg : Config) (s : State) (i : ℕ) (a : Top.SamplerAction) : Option State :=
  (s.top.samplers[i]?).bind fun x =>
    (x.step cfg s.top a).map fun x' =>
      { s with
        top := { s.top with samplers := s.top.samplers.set i x' }
        queue := s.enqueue i x a }

/-! ### Steps of the display -/

/-- No stack waits in the channel. -/
def quiet (s : State) : Bool :=
  (List.range s.top.samplers.length).all fun i => (s.queue i).isEmpty

/-- No sender is left: `run_top` has dropped its own, and the threads are finished. -/
def hungUp (s : State) : Bool :=
  s.top.samplers.all fun x => x.pc = .done || x.pc = .unattached

/-- The display goes on at `pc` without the receiver. -/
def close (s : State) (pc : Pc) : State :=
  { s with top := { s.top with receiver := false }, pc }

/-- What `draw` shows. -/
def drawn (s : State) (order : AList.IterOrder Aggregator.RowEntry) (height : ℕ) : Drawn where
  clock := s.top.clock
  height
  total := max s.agg.samples 1
  byInclusive := s.byInclusive
  -- the borders of the block
  rows := s.agg.topRows order s.byInclusive (height - 2)

/-- The instructions of the display that do not depend on anybody else. -/
def go (s : State) : Option State :=
  match s.pc with
  | .starting => some { s with lastDraw := s.top.clock - TICK, pc := .checkingStop }
  | .checkingStop =>
    some (if s.top.stop then s.close (.disabling .stopped) else { s with pc := .receiving })
  | .timing =>
    some { s with
      pc := if TICK ≤ s.top.clock - s.lastDraw then .drawing
        else .polling (s.top.clock + fromMillis 50) }
  | .stamping =>
    some { s with lastDraw := s.top.clock, pc := .polling (s.top.clock + fromMillis 50) }
  | _ => none

/-- The `match` on the key. -/
def handle (s : State) : Event → State
  | .key .q true => s.close (.disabling .quit)
  | .key .esc true => s.close (.disabling .quit)
  | .key .i true =>
    { s with byInclusive := !s.byInclusive, log := s.log ++ [.toggled], pc := .checkingStop }
  | .key .r true =>
    { s with
      agg := s.agg.reset s.top.clock
      log := s.log ++ [.reset s.top.clock]
      pc := .checkingStop }
  | _ => { s with pc := .checkingStop }

/-- One step of `tui::run`. -/
def displayStep (s : State) (a : DisplayAction) : Option State :=
  match a, s.pc with
  | .go, _ => s.go
  | .enable true, .enabling => some { s with raw := true, pc := .entering }
  | .enable false, .enabling => some (s.close .unopened)
  | .enter true, .entering => some { s with alternate := true, pc := .opening }
  | .enter false, .entering => some (s.close .unopened)
  | .openTerminal true, .opening => some { s with pc := .starting }
  | .openTerminal false, .opening => some (s.close .unopened)
  | .recv i, .receiving =>
    match s.queue i with
    | [] => none
    | frames :: rest =>
      some { s with
        queue := Function.update s.queue i rest
        agg := s.agg.record s.top.clock frames
        log := s.log ++ [.recorded i s.top.clock frames] }
  | .empty, .receiving => if s.quiet ∧ ¬ s.hungUp then some { s with pc := .timing } else none
  | .disconnected, .receiving =>
    if s.quiet ∧ s.hungUp then some (s.close (.disabling .disconnected)) else none
  | .draw order height, .drawing =>
    some { s with log := s.log ++ [.drew (s.drawn order height)], pc := .stamping }
  | .drawFails, .drawing => some (s.close (.disabling .failed))
  | .poll none, .polling _ => some (s.close (.disabling .failed))
  | .poll (some true), .polling _ => some { s with pc := .reading }
  | .poll (some false), .polling deadline =>
    if deadline ≤ s.top.clock then some { s with pc := .checkingStop } else none
  | .read none, .reading => some (s.close (.disabling .failed))
  | .read (some e), .reading => some (s.handle e)
  -- the errors of these three are dropped
  | .disable ok, .disabling e => some { s with raw := s.raw && !ok, pc := .leaving e }
  | .leave ok, .leaving e => some { s with alternate := s.alternate && !ok, pc := .showing e }
  | .showCursor, .showing e => some { s with pc := .returned e }
  | _, _ => none

end State

/-! ### Steps of the system -/

/-- A step of the system; `none` where the action cannot happen. -/
def step (cfg : Config) (s : State) : Action → Option State
  | .top (.sampler i a) => s.samplerStep cfg i a
  -- the display returns with steps of its own
  | .top .quit => none
  | .top a => (Top.step cfg s.top a).map fun top => { s with top }
  | .display a => s.displayStep a

/-- A run of `run_top` once its threads are started. -/
def run (cfg : Config) (s : State) (as : List Action) : Option State :=
  Run.exec (step cfg) s as

/-! ### What the display can do -/

/-- The moves of the display, each with what it has seen. -/
inductive Move (s : State) : DisplayAction → State → Prop
  | enable (hpc : s.pc = .enabling) : Move s (.enable true) { s with raw := true, pc := .entering }
  | enableFails (hpc : s.pc = .enabling) : Move s (.enable false) (s.close .unopened)
  | enter (hpc : s.pc = .entering) :
    Move s (.enter true) { s with alternate := true, pc := .opening }
  | enterFails (hpc : s.pc = .entering) : Move s (.enter false) (s.close .unopened)
  | openTerminal (hpc : s.pc = .opening) : Move s (.openTerminal true) { s with pc := .starting }
  | openFails (hpc : s.pc = .opening) : Move s (.openTerminal false) (s.close .unopened)
  | start (hpc : s.pc = .starting) :
    Move s .go { s with lastDraw := s.top.clock - TICK, pc := .checkingStop }
  | stopped (hpc : s.pc = .checkingStop) (hstop : s.top.stop = true) :
    Move s .go (s.close (.disabling .stopped))
  | goesOn (hpc : s.pc = .checkingStop) (hstop : s.top.stop = false) :
    Move s .go { s with pc := .receiving }
  | recv (i : ℕ) (frames : List Frame) (rest : List (List Frame)) (hpc : s.pc = .receiving)
    (hqueue : s.queue i = frames :: rest) : Move s (.recv i) { s with
      queue := Function.update s.queue i rest
      agg := s.agg.record s.top.clock frames
      log := s.log ++ [.recorded i s.top.clock frames] }
  | empty (hpc : s.pc = .receiving) (hquiet : s.quiet = true) (hup : s.hungUp = false) :
    Move s .empty { s with pc := .timing }
  | disconnected (hpc : s.pc = .receiving) (hquiet : s.quiet = true) (hup : s.hungUp = true) :
    Move s .disconnected (s.close (.disabling .disconnected))
  | due (hpc : s.pc = .timing) (hle : (TICK : ℤ) ≤ s.top.clock - s.lastDraw) :
    Move s .go { s with pc := .drawing }
  | notDue (hpc : s.pc = .timing) :
    Move s .go { s with pc := .polling (s.top.clock + fromMillis 50) }
  | draw (order : AList.IterOrder Aggregator.RowEntry) (height : ℕ) (hpc : s.pc = .drawing) :
    Move s (.draw order height)
      { s with log := s.log ++ [.drew (s.drawn order height)], pc := .stamping }
  | drawFails (hpc : s.pc = .drawing) : Move s .drawFails (s.close (.disabling .failed))
  | stamp (hpc : s.pc = .stamping) :
    Move s .go { s with lastDraw := s.top.clock, pc := .polling (s.top.clock + fromMillis 50) }
  | pollFails (deadline : ℕ) (hpc : s.pc = .polling deadline) :
    Move s (.poll none) (s.close (.disabling .failed))
  | ready (deadline : ℕ) (hpc : s.pc = .polling deadline) :
    Move s (.poll (some true)) { s with pc := .reading }
  | timeout (deadline : ℕ) (hpc : s.pc = .polling deadline) (hle : deadline ≤ s.top.clock) :
    Move s (.poll (some false)) { s with pc := .checkingStop }
  | readFails (hpc : s.pc = .reading) : Move s (.read none) (s.close (.disabling .failed))
  | quit (e : Event) (hpc : s.pc = .reading) (he : e = .key .q true ∨ e = .key .esc true) :
    Move s (.read (some e)) (s.close (.disabling .quit))
  | toggle (hpc : s.pc = .reading) : Move s (.read (some (.key .i true)))
      { s with byInclusive := !s.byInclusive, log := s.log ++ [.toggled], pc := .checkingStop }
  | reset (hpc : s.pc = .reading) : Move s (.read (some (.key .r true))) { s with
      agg := s.agg.reset s.top.clock
      log := s.log ++ [.reset s.top.clock]
      pc := .checkingStop }
  | ignore (e : Event) (hpc : s.pc = .reading) :
    Move s (.read (some e)) { s with pc := .checkingStop }
  | disable (ok : Bool) (e : LoopEnd) (hpc : s.pc = .disabling e) :
    Move s (.disable ok) { s with raw := s.raw && !ok, pc := .leaving e }
  | leave (ok : Bool) (e : LoopEnd) (hpc : s.pc = .leaving e) :
    Move s (.leave ok) { s with alternate := s.alternate && !ok, pc := .showing e }
  | showCursor (e : LoopEnd) (hpc : s.pc = .showing e) :
    Move s .showCursor { s with pc := .returned e }

section Moves

variable {s s' : State}

theorem move_of_go (h : s.go = some s') : Move s .go s' := by
  unfold State.go at h
  split at h
  case h_1 hpc => exact Option.some.inj h ▸ .start hpc
  case h_2 hpc =>
    obtain rfl := Option.some.inj h
    split
    · next hstop => exact .stopped hpc hstop
    · next hstop => exact .goesOn hpc (by simpa using hstop)
  case h_3 hpc =>
    obtain rfl := Option.some.inj h
    split
    · next hle => exact .due hpc hle
    · exact .notDue hpc
  case h_4 hpc => exact Option.some.inj h ▸ .stamp hpc
  case h_5 => cases h

theorem move_of_handle (e : Event) (hpc : s.pc = .reading) :
    Move s (.read (some e)) (s.handle e) := by
  unfold State.handle
  split
  · exact .quit _ hpc (Or.inl rfl)
  · exact .quit _ hpc (Or.inr rfl)
  · exact .toggle hpc
  · exact .reset hpc
  · exact .ignore e hpc

/-- **Every step of the display is one of its moves.** -/
theorem displayStep_move {a : DisplayAction} (h : s.displayStep a = some s') : Move s a s' := by
  unfold State.displayStep at h
  split at h
  case h_1 => exact move_of_go h
  case h_2 hpc => exact Option.some.inj h ▸ .enable hpc
  case h_3 hpc => exact Option.some.inj h ▸ .enableFails hpc
  case h_4 hpc => exact Option.some.inj h ▸ .enter hpc
  case h_5 hpc => exact Option.some.inj h ▸ .enterFails hpc
  case h_6 hpc => exact Option.some.inj h ▸ .openTerminal hpc
  case h_7 hpc => exact Option.some.inj h ▸ .openFails hpc
  case h_8 i hpc =>
    split at h
    · cases h
    · next frames rest hqueue => exact Option.some.inj h ▸ .recv i frames rest hpc hqueue
  case h_9 hpc =>
    split at h
    · next hif => exact Option.some.inj h ▸ .empty hpc hif.1 (by simpa using hif.2)
    · cases h
  case h_10 hpc =>
    split at h
    · next hif => exact Option.some.inj h ▸ .disconnected hpc hif.1 hif.2
    · cases h
  case h_11 order height hpc => exact Option.some.inj h ▸ .draw order height hpc
  case h_12 hpc => exact Option.some.inj h ▸ .drawFails hpc
  case h_13 deadline hpc => exact Option.some.inj h ▸ .pollFails deadline hpc
  case h_14 deadline hpc => exact Option.some.inj h ▸ .ready deadline hpc
  case h_15 deadline hpc =>
    split at h
    · next hle => exact Option.some.inj h ▸ .timeout deadline hpc hle
    · cases h
  case h_16 hpc => exact Option.some.inj h ▸ .readFails hpc
  case h_17 e hpc => exact Option.some.inj h ▸ move_of_handle e hpc
  case h_18 ok e hpc => exact Option.some.inj h ▸ .disable ok e hpc
  case h_19 ok e hpc => exact Option.some.inj h ▸ .leave ok e hpc
  case h_20 e hpc => exact Option.some.inj h ▸ .showCursor e hpc
  case h_21 => cases h

end Moves

end Live
end PhpFastProfile
