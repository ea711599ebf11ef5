import PhpFastProfile.Lib.Ptrace
import PhpFastProfile.Lib.Run

/-!
# `with_attached_task`

To read the thread pointer of a target thread the profiler attaches to it, polls
`waitpid` until the thread has stopped, runs a closure on it and detaches.  The
loop takes the first stop for the one the attach has asked for, and three of its
four exits detach whatever the thread is doing.

A state holds the clock, the thread and the point the function has reached; the
steps of the thread, of other processes and of the function interleave freely.

## Main definitions

* `TracerPc` — where `with_attached_task` is.
* `AttachedTask.step` — one step of any party.
* `AttachedTask.LetsGo` — the thread is gone, stopped by the attach, or was never attached to.

## Main results

* `AttachedTask.move_of_step` — what a step can do, and what was seen then.
* `AttachedTask.reachable_move` — the invariant of the function.
* `withAttachedTask_harmless_iff` — **the target is unharmed exactly when it is let go
  from the stop of the attach itself.**
* `withAttachedTask_freezes` — runs that freeze the target and that leave it traced.
-/

namespace PhpFastProfile

open Ptrace

/-- The errors `with_attached_task` returns. -/
inductive TaskError where
  | attach
  | timedOut
  | unexpectedStatus
  | waitpid
  /-- The error of the closure. -/
  | closure
  deriving DecidableEq, Repr

/-- Where `with_attached_task` is. -/
inductive TracerPc (α : Type) where
  | attaching
  /-- Before `Instant::now() + Duration::from_secs(2)`. -/
  | arming
  /-- Before `waitpid`. -/
  | polling (deadline : ℕ)
  /-- The thread is still running: before `Instant::now() >= deadline`. -/
  | checking (deadline : ℕ)
  /-- In `thread::sleep`, at least until `wake`. -/
  | sleeping (deadline wake : ℕ)
  /-- In the closure. -/
  | running
  | detaching (result : Except TaskError α)
  | returned (result : Except TaskError α)
  deriving DecidableEq

/-- The function has not returned. -/
def TracerPc.active {α : Type} : TracerPc α → Bool
  | .returned _ => false
  | _ => true

/-- The function at work on a thread. -/
structure AttachedTask (α : Type) where
  clock : ℕ
  tracee : Tracee
  tracer : TracerPc α

/-- What happens next. -/
inductive TaskAction (α : Type) where
  | tick (d : ℕ)
  | tracee (e : Event)
  /-- `ptrace::attach` returns. -/
  | attach (ok : Bool)
  /-- The next instruction, where it does not depend on anybody else. -/
  | go
  /-- `waitpid` returns, with an error or with the state of the thread. -/
  | wait (failed : Bool)
  /-- The closure returns; `none` is an error. -/
  | closure (r : Option α)

namespace AttachedTask

variable {α : Type}

/-- The thread is running, with some signals in its queue, when the function is called. -/
def init (clock : ℕ) (queued : List ℕ) : AttachedTask α where
  clock
  tracee := .untouched queued
  tracer := .attaching

/-! ### Steps -/

/-- `ptrace::attach` returns. -/
def attach (s : AttachedTask α) (ok : Bool) : Option (AttachedTask α) :=
  match s.tracer, ok with
  | .attaching, false => some { s with tracer := .returned (.error .attach) }
  | .attaching, true => s.tracee.attach.map fun t => { s with tracee := t, tracer := .arming }
  | _, _ => none

/-- The next instruction: the deadline, the sleep and the detach. -/
def go (s : AttachedTask α) : Option (AttachedTask α) :=
  match s.tracer with
  | .arming => some { s with tracer := .polling (s.clock + 2000000000) }
  | .checking deadline =>
    some { s with
      tracer := if deadline ≤ s.clock then .detaching (.error .timedOut)
        else .sleeping deadline (s.clock + 2000000) }
  | .sleeping deadline wake =>
    if wake ≤ s.clock then some { s with tracer := .polling deadline } else none
  | .detaching result =>
    -- the result of the call is ignored
    some { s with tracee := s.tracee.detach, tracer := .returned result }
  | _ => none

/-- `waitpid` returns. -/
def wait (s : AttachedTask α) (failed : Bool) : Option (AttachedTask α) :=
  match s.tracer with
  | .polling deadline =>
    some { s with
      tracer :=
        if failed then .detaching (.error .waitpid)
        else
          match s.tracee.wait with
          | .stillAlive => .checking deadline
          | .stopped _ => .running
          | .exited => .detaching (.error .unexpectedStatus) }
  | _ => none

/-- The closure returns. -/
def closure (s : AttachedTask α) (r : Option α) : Option (AttachedTask α) :=
  match s.tracer with
  | .running => some { s with tracer := .detaching (r.elim (.error .closure) .ok) }
  | _ => none

/-- A step of the thread or of its tracer; `none` where the action cannot happen. -/
def step (s : AttachedTask α) : TaskAction α → Option (AttachedTask α)
  | .tick d => some { s with clock := s.clock + d }
  | .tracee e => (s.tracee.step e).map fun t => { s with tracee := t }
  | .attach ok => s.attach ok
  | .go => s.go
  | .wait failed => s.wait failed
  | .closure r => s.closure r

/-- What can happen, and what was seen then. -/
inductive Move (s : AttachedTask α) : AttachedTask α → Prop
  | tick (d : ℕ) : Move s { s with clock := s.clock + d }
  | tracee (e : Event) (t : Tracee) (ht : s.tracee.step e = some t) :
    Move s { s with tracee := t }
  | attachFails (hpc : s.tracer = .attaching) :
    Move s { s with tracer := .returned (.error .attach) }
  | attach (t : Tracee) (hpc : s.tracer = .attaching) (ht : s.tracee.attach = some t) :
    Move s { s with tracee := t, tracer := .arming }
  | arm (hpc : s.tracer = .arming) : Move s { s with tracer := .polling (s.clock + 2000000000) }
  | expired (deadline : ℕ) (hpc : s.tracer = .checking deadline) (hle : deadline ≤ s.clock) :
    Move s { s with tracer := .detaching (.error .timedOut) }
  | sleeps (deadline : ℕ) (hpc : s.tracer = .checking deadline) (hlt : s.clock < deadline) :
    Move s { s with tracer := .sleeping deadline (s.clock + 2000000) }
  | wakes (deadline wake : ℕ) (hpc : s.tracer = .sleeping deadline wake) (hle : wake ≤ s.clock) :
    Move s { s with tracer := .polling deadline }
  | detach (result : Except TaskError α) (hpc : s.tracer = .detaching result) :
    Move s { s with tracee := s.tracee.detach, tracer := .returned result }
  | waitFails (deadline : ℕ) (hpc : s.tracer = .polling deadline) :
    Move s { s with tracer := .detaching (.error .waitpid) }
  | stillAlive (deadline : ℕ) (hpc : s.tracer = .polling deadline) :
    Move s { s with tracer := .checking deadline }
  | seesStop (deadline : ℕ) (sig : Signal) (hpc : s.tracer = .polling deadline)
    (hphase : s.tracee.phase = .stopped sig) : Move s { s with tracer := .running }
  | seesExit (deadline : ℕ) (hpc : s.tracer = .polling deadline) :
    Move s { s with tracer := .detaching (.error .unexpectedStatus) }
  | closure (r : Option α) (hpc : s.tracer = .running) :
    Move s { s with tracer := .detaching (r.elim (.error .closure) .ok) }

section Moves

variable {s s' : AttachedTask α}

theorem move_of_attach {ok : Bool} (h : s.attach ok = some s') : Move s s' := by
  unfold attach at h
  split at h
  case h_1 hpc => exact Option.some.inj h ▸ .attachFails hpc
  case h_2 hpc =>
    obtain ⟨t, ht, rfl⟩ := Option.map_eq_some_iff.mp h
    exact .attach t hpc ht
  case h_3 => cases h

theorem move_of_go (h : s.go = some s') : Move s s' := by
  unfold go at h
  split at h
  case h_1 hpc => exact Option.some.inj h ▸ .arm hpc
  case h_2 deadline hpc =>
    obtain rfl := Option.some.inj h
    split
    · next hle => exact .expired deadline hpc hle
    · next hlt => exact .sleeps deadline hpc (Nat.lt_of_not_le hlt)
  case h_3 deadline wake hpc =>
    split at h
    · next hle => exact Option.some.inj h ▸ .wakes deadline wake hpc hle
    · cases h
  case h_4 result hpc => exact Option.some.inj h ▸ .detach result hpc
  case h_5 => cases h

theorem move_of_wait {failed : Bool} (h : s.wait failed = some s') : Move s s' := by
  unfold wait at h
  split at h
  case h_2 => cases h
  case h_1 deadline hpc =>
    obtain rfl := Option.some.inj h
    cases failed with
    | true => exact .waitFails deadline hpc
    | false =>
      -- `waitpid` reports the phase of the thread
      unfold Tracee.wait
      cases hphase : s.tracee.phase with
      | running => exact .stillAlive deadline hpc
      | frozen => exact .stillAlive deadline hpc
      | stopped sig => exact .seesStop deadline sig hpc hphase
      | exited => exact .seesExit deadline hpc

theorem move_of_closure {r : Option α} (h : s.closure r = some s') : Move s s' := by
  unfold closure at h
  split at h
  case h_1 hpc => exact Option.some.inj h ▸ .closure r hpc
  case h_2 => cases h

/-- **Every step is one of the moves.** -/
theorem move_of_step {a : TaskAction α} (h : s.step a = some s') : Move s s' := by
  cases a with
  | tick d => exact Option.some.inj h ▸ .tick d
  | tracee e =>
    obtain ⟨t, ht, rfl⟩ := Option.map_eq_some_iff.mp h
    exact .tracee e t ht
  | attach ok => exact move_of_attach h
  | go => exact move_of_go h
  | wait failed => exact move_of_wait h
  | closure r => exact move_of_closure h

end Moves

/-! ### The invariant -/

/-- What the function can rely on before it has returned: the thread is fresh until
it is attached to, and it does not run while the closure does. -/
structure Reachable (s : AttachedTask α) : Prop where
  fresh : s.tracer = .attaching → s.tracee.Fresh
  attached : s.tracer ≠ .attaching → s.tracer.active = true → s.tracee.Attached
  closure : s.tracer = .running → s.tracee.phase ≠ .running

/-- The thread is let go from the stop of the attach, or there is nothing to let go. -/
def LetsGo (s : AttachedTask α) : Prop :=
  s.tracer = .attaching ∨ s.tracee.phase = .exited ∨ s.tracee.phase = .stopped .attachStop

theorem reachable_init (clock : ℕ) (queued : List ℕ) :
    (init clock queued : AttachedTask α).Reachable :=
  ⟨fun _ => Tracee.fresh_untouched queued, fun h => absurd rfl h, by rintro ⟨⟩⟩

/-- A stopped thread does not start to run by itself. -/
theorem phase_ne_running {t t' : Tracee} {e : Event} (h : t.step e = some t')
    (hne : t.phase ≠ .running) : t'.phase ≠ .running := by
  rcases Tracee.step_cases h with ⟨n, -, rfl⟩ | ⟨s, hrun, -, -⟩ | ⟨-, rfl⟩
  · exact hne
  · exact absurd hrun hne
  · simp

/-- The function goes on from `pc` without a call that changes the thread. -/
theorem Reachable.move {s s' : AttachedTask α} {pc : TracerPc α} (hs : s.Reachable)
    (hpc : s.tracer = pc) (hne : pc ≠ .attaching) (hact : pc.active = true)
    (ht : s'.tracee = s.tracee) (hne' : s'.tracer ≠ .attaching)
    (hrun : s'.tracer = .running → s.tracee.phase ≠ .running) : s'.Reachable where
  fresh h := absurd h hne'
  attached _ _ := by
    rw [ht]
    exact hs.attached (hpc ▸ hne) (hpc ▸ hact)
  closure h := by
    rw [ht]
    exact hrun h

/-- **The invariant survives every step** but the return. -/
theorem reachable_move {s s' : AttachedTask α} (hs : s.Reachable) (h : Move s s')
    (hact : s'.tracer.active = true) : s'.Reachable := by
  cases h with
  | tick d => exact ⟨hs.fresh, hs.attached, hs.closure⟩
  | tracee e t ht =>
    exact ⟨fun hpc => (hs.fresh hpc).step ht, fun hpc hact => (hs.attached hpc hact).step ht,
      fun hpc => phase_ne_running ht (hs.closure hpc)⟩
  | attach t hpc ht => exact ⟨nofun, fun _ _ => (hs.fresh hpc).attach ht, nofun⟩
  | seesStop deadline sig hpc hphase =>
    -- the closure starts only when the thread was seen to have stopped
    exact hs.move hpc nofun rfl rfl nofun fun _ => by simp [hphase]
  | attachFails hpc => cases hact
  | detach result hpc => cases hact
  | sleeps deadline hpc => exact hs.move hpc nofun rfl rfl nofun nofun
  | wakes deadline wake hpc => exact hs.move hpc nofun rfl rfl nofun nofun
  | closure r hpc => exact hs.move hpc nofun rfl rfl nofun nofun
  | expired deadline hpc => exact hs.move hpc nofun rfl rfl nofun nofun
  | arm hpc => exact hs.move hpc nofun rfl rfl nofun nofun
  | waitFails deadline hpc | stillAlive deadline hpc | seesExit deadline hpc =>
    exact hs.move hpc nofun rfl rfl nofun nofun

/-- The function returns from a failed attach or with its detach. -/
theorem returns_cases {s s' : AttachedTask α} (h : Move s s') (hact : s.tracer.active = true)
    (hret : s'.tracer.active = false) :
    (s.tracer = .attaching ∧ s'.tracee = s.tracee) ∨
    (∃ result, s.tracer = .detaching result ∧ s'.tracee = s.tracee.detach) := by
  cases h with
  | attachFails hpc => exact Or.inl ⟨hpc, rfl⟩
  | detach result hpc => exact Or.inr ⟨result, hpc, rfl⟩
  | tick d => exact absurd hact (by simp [hret])
  | tracee e t ht => exact absurd hact (by simp [hret])
  | _ => cases hret

/-- Once the function has returned, only the thread goes on. -/
theorem move_returned {s s' : AttachedTask α} (h : Move s s') (hret : s.tracer.active = false) :
    s'.tracer.active = false ∧
      (s'.tracee = s.tracee ∨ ∃ e, s.tracee.step e = some s'.tracee) := by
  have hno : ∀ {pc : TracerPc α}, s.tracer = pc → pc.active = true → False := by
    intro pc hpc hact
    rw [hpc, hact] at hret
    cases hret
  cases h with
  | tick d => exact ⟨hret, Or.inl rfl⟩
  | tracee e t ht => exact ⟨hret, Or.inr ⟨e, ht⟩⟩
  | wakes deadline wake hpc => exact (hno hpc rfl).elim
  | arm hpc | attachFails hpc | attach _ hpc | expired _ hpc | sleeps _ hpc | detach _ hpc
  | waitFails _ hpc | stillAlive _ hpc | seesStop _ _ hpc | seesExit _ hpc | closure _ hpc =>
    exact (hno hpc rfl).elim

/-- A thread that was let go unharmed stays unharmed. -/
theorem harmless_step {s s' : AttachedTask α} {a : TaskAction α}
    (hs : s.tracer.active = false ∧ s.tracee.Harmless) (h : s.step a = some s') :
    s'.tracer.active = false ∧ s'.tracee.Harmless := by
  obtain ⟨hret, ht | ⟨e, he⟩⟩ := move_returned (move_of_step h) hs.1
  · exact ⟨hret, ht ▸ hs.2⟩
  · exact ⟨hret, hs.2.step he⟩

/-! ### Runs -/

/-- The closure is running, and so is the thread. -/
def ClosureOnRunning (s : AttachedTask α) (_ : TaskAction α) : Prop :=
  s.tracer = .running ∧ s.tracee.phase = .running

section Runs

variable {clock : ℕ} {queued : List ℕ} {as : List (TaskAction α)}
  {s : AttachedTask α}

/-- Up to its return the function keeps its invariant. -/
theorem reachable_run (h : Run.exec step (init clock queued) as = some s)
    (hact : s.tracer.active = true) : s.Reachable := by
  refine Run.invariant (P := fun s : AttachedTask α => s.tracer.active = true → s.Reachable)
    ?_ (fun _ => reachable_init clock queued) h hact
  intro s a s' hs hstep hact'
  -- the function does not come back to life, so it was active before the step
  have hact : s.tracer.active = true := by
    by_contra hret
    have hret' := (move_returned (move_of_step hstep) (by simpa using hret)).1
    simp [hret'] at hact'
  exact reachable_move (hs hact) (move_of_step hstep) hact'

/-- **The closure runs only on a thread that does not.** -/
theorem closure_only_stopped :
    ¬ Run.Occurs step (init clock queued : AttachedTask α) as ClosureOnRunning := by
  rintro ⟨pre, a, post, m, -, hm, hpc, hrun⟩
  have hact : m.tracer.active = true := by rw [hpc]; rfl
  exact (reachable_run hm hact).closure hpc hrun

end Runs

end AttachedTask

open AttachedTask

variable {α : Type} {clock : ℕ} {queued : List ℕ} {as : List (TaskAction α)} {a : TaskAction α}
  {m s : AttachedTask α}

/-- **No harm to the target.**  When the function returns, the closure has only run
while the thread was stopped, and the thread is untraced, running, without the
SIGSTOP of the attach and with no other signal lost, exactly when it was let go from
the stop of the attach (or never attached to, or is gone).  It then stays so. -/
theorem withAttachedTask_harmless_iff (hm : Run.exec step (init clock queued) as = some m)
    (hact : m.tracer.active = true) (hs : m.step a = some s) (hret : s.tracer.active = false) :
    ((s.tracee.Harmless ∧
        ¬ Run.Occurs step (init clock queued : AttachedTask α) (as ++ [a]) ClosureOnRunning) ↔
      m.LetsGo) ∧
    (m.LetsGo → ∀ bs s', Run.exec step s bs = some s' → s'.tracee.Harmless) := by
  have hreach := reachable_run hm hact
  have hiff : s.tracee.Harmless ↔ m.LetsGo := by
    rcases returns_cases (move_of_step hs) hact hret with ⟨hpc, ht⟩ | ⟨result, hpc, ht⟩
    · -- the attach has failed, and the thread is as it was
      rw [ht]
      exact iff_of_true (hreach.fresh hpc).harmless (Or.inl hpc)
    · -- every other return is a detach of a thread that was attached to
      have hattached : m.tracee.Attached := hreach.attached (by simp [hpc]) hact
      rw [ht, hattached.detach_iff]
      unfold LetsGo
      simp [hpc]
  refine ⟨⟨fun h => hiff.mp h.1, fun h => ⟨hiff.mpr h, closure_only_stopped⟩⟩,
    fun hgo bs s' hbs => ?_⟩
  exact (Run.invariant (P := fun s : AttachedTask α => s.tracer.active = false ∧ s.tracee.Harmless)
    (fun _ _ _ h hstep => harmless_step h hstep) ⟨hret, hiff.mpr hgo⟩ hbs).2

namespace Scenario

/-- The thread stops for the attach, and the closure reads a register. -/
def plainRun : List (TaskAction ℕ) :=
  [.attach true, .go, .tracee (.take .attachStop), .wait false, .closure (some 7)]

/-- SIGUSR1 is in the queue, and the thread takes it first. -/
def signalRun : List (TaskAction ℕ) :=
  [.attach true, .go, .tracee (.take (.other 10)), .wait false, .closure (some 7), .go,
    .tracee (.take .attachStop)]

/-- The thread does not take a signal before the deadline. -/
def slowRun : List (TaskAction ℕ) :=
  [.attach true, .go, .wait false, .go, .tick 2000000000, .go, .wait false, .go, .go]

end Scenario

open Scenario

theorem withAttachedTask_harmless_plainRun :
    ∃ m s, Run.exec step (init 0 []) plainRun = some m ∧ m.step .go = some s ∧
      ((s.tracee.Harmless ∧
          ¬ Run.Occurs step (init 0 [] : AttachedTask ℕ) (plainRun ++ [.go]) ClosureOnRunning) ↔
        m.LetsGo) := by
  have h : ((Run.exec step (init 0 []) plainRun).map fun m => m.tracer)
      = some (.detaching (.ok 7)) := by
    decide +kernel
  obtain ⟨m, hm, hpc⟩ := Option.map_eq_some_iff.mp h
  have hact : m.tracer.active = true := by
    rw [hpc]
    rfl
  have hs : m.step .go =
      some { m with tracee := m.tracee.detach, tracer := .returned (.ok 7) } := by
    show m.go = _
    unfold AttachedTask.go
    rw [hpc]
  exact ⟨m, _, hm, hs, (withAttachedTask_harmless_iff hm hact hs rfl).1⟩

/-- A run that drops a signal and freezes the target, and a run that leaves it traced. -/
theorem withAttachedTask_freezes :
    (∃ s, Run.exec step (init 0 [10]) signalRun = some s ∧ s.tracer = .returned (.ok 7) ∧
      s.tracee.phase = .frozen ∧ s.tracee.delivered = [] ∧ s.tracee.pending = []) ∧
    (∃ s, Run.exec step (init 0 []) slowRun = some s ∧
      s.tracer = .returned (.error .timedOut) ∧ s.tracee.traced = true) := by
  have hsignal : (Run.exec step (init 0 [10]) signalRun).any (fun s =>
      s.tracer = .returned (.ok 7) ∧ s.tracee.phase = .frozen ∧ s.tracee.delivered = [] ∧
        s.tracee.pending = []) = true := by
    decide +kernel
  have hslow : (Run.exec step (init 0 []) slowRun).any (fun s =>
      s.tracer = .returned (.error .timedOut) ∧ s.tracee.traced = true) = true := by
    decide +kernel
  obtain ⟨s, hs, hfacts⟩ := (Option.any_eq_true _ _).mp hsignal
  obtain ⟨u, hu, hleft⟩ := (Option.any_eq_true _ _).mp hslow
  exact ⟨⟨s, hs, of_decide_eq_true hfacts⟩, ⟨u, hu, of_decide_eq_true hleft⟩⟩

end PhpFastProfile
