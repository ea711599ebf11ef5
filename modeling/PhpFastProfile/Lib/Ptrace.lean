import Mathlib.Data.List.Count

/-!
# A thread under `ptrace`

The tracee's side of `ptrace(2)` on Linux, for a tracer that attaches, waits and
detaches.  Attaching queues a SIGSTOP.  A traced thread stops at every signal it
takes from its queue, the order being its own, and `waitpid` reports the signal.
Detaching works on a stopped tracee only: it resumes the thread and drops the
signal it was stopped with.  The SIGSTOP of an attach that is still queued when
the thread is resumed untraced stops its whole thread group.

## Main definitions

* `Ptrace.Tracee`, `Ptrace.Tracee.step` — a thread and what it does by itself.
* `Tracee.attach`, `Tracee.detach`, `Tracee.wait` — the tracer's calls.
* `Tracee.Harmless` — untraced and running, with no signal lost.

## Main results

* `Tracee.Fresh.attach` — attaching puts exactly one SIGSTOP on the way.
* `Tracee.Attached.step` — it stays on the way as long as the thread is traced.
* `Tracee.Attached.detach_iff` — **detaching is harmless exactly from the stop of the
  attach itself**, or when the thread is gone.
* `Tracee.Harmless.step` — a harmless thread stays harmless.
-/

namespace Ptrace

/-- A queued signal: the SIGSTOP of the attach, or any signal somebody else sent. -/
inductive Signal where
  | attachStop
  | other (n : ℕ)
  deriving DecidableEq, Repr

/-- What a thread is doing, as its tracer sees it. -/
inductive Phase where
  | running
  /-- In a ptrace-stop, with the signal that is reported. -/
  | stopped (s : Signal)
  /-- The thread group is stopped by the SIGSTOP of the attach. -/
  | frozen
  | exited
  deriving DecidableEq, Repr

/-- A thread, with its signals. -/
structure Tracee where
  traced : Bool
  phase : Phase
  pending : List Signal
  /-- The signals others have sent, and what became of them. -/
  sent : List ℕ
  delivered : List ℕ
  discarded : List ℕ
  deriving DecidableEq, Repr

/-- What happens to a thread besides the calls of the tracer. -/
inductive Event where
  /-- Somebody sends a signal. -/
  | arrive (n : ℕ)
  /-- The thread takes a signal from its queue. -/
  | take (s : Signal)
  | exit
  deriving DecidableEq, Repr

/-- What `waitpid` with `WNOHANG` reports. -/
inductive WaitStatus where
  | stillAlive
  | stopped (s : Signal)
  | exited
  deriving DecidableEq, Repr

namespace Tracee

/-- A running thread with some signals in its queue. -/
def untouched (queued : List ℕ) : Tracee where
  traced := false
  phase := .running
  pending := queued.map .other
  sent := queued
  delivered := []
  discarded := []

/-- What a running thread does with a signal. -/
def receive (t : Tracee) (s : Signal) : Tracee :=
  if t.traced then { t with phase := .stopped s }
  else
    match s with
    | .attachStop => { t with phase := .frozen }
    | .other n => { t with delivered := t.delivered ++ [n] }

/-- What happens to a thread in one step; `none` where the event cannot happen. -/
def step (t : Tracee) : Event → Option Tracee
  | .arrive n =>
    if t.phase = .exited then none
    else some { t with sent := t.sent ++ [n], pending := t.pending ++ [.other n] }
  | .take s =>
    if t.phase = .running ∧ s ∈ t.pending then
      some (receive { t with pending := t.pending.erase s } s)
    else none
  | .exit => if t.phase = .exited then none else some { t with phase := .exited }

/-- `PTRACE_ATTACH`, where it succeeds. -/
def attach (t : Tracee) : Option Tracee :=
  if t.traced = true ∨ t.phase = .exited then none
  else some { t with traced := true, pending := t.pending ++ [.attachStop] }

/-- `PTRACE_DETACH` with no signal; on a tracee that is not stopped it fails. -/
def detach (t : Tracee) : Tracee :=
  match t.phase with
  | .stopped .attachStop => { t with traced := false, phase := .running }
  | .stopped (.other n) =>
    { t with traced := false, phase := .running, discarded := t.discarded ++ [n] }
  | _ => t

/-- `waitpid` with `WNOHANG`. -/
def wait (t : Tracee) : WaitStatus :=
  match t.phase with
  | .running => .stillAlive
  | .frozen => .stillAlive
  | .stopped s => .stopped s
  | .exited => .exited

/-! ### Where the signals are -/

/-- Whether the thread is stopped with `s`, as a number. -/
def held (t : Tracee) (s : Signal) : ℕ := if t.phase = .stopped s then 1 else 0

/-- Every signal others have sent is delivered, queued, the reported one or lost. -/
def Accounted (t : Tracee) : Prop :=
  ∀ n, t.sent.count n =
    t.delivered.count n + t.pending.count (.other n) + t.held (.other n) + t.discarded.count n

/-- A thread nobody has attached to. -/
structure Fresh (t : Tracee) : Prop where
  untraced : t.traced = false
  phase : t.phase = .running ∨ t.phase = .exited
  noStop : .attachStop ∉ t.pending
  keeps : t.discarded = []
  accounted : t.Accounted

/-- A traced thread that has not been let go: it is gone, or the SIGSTOP of the
attach is queued or the signal it is stopped with. -/
structure Attached (t : Tracee) : Prop where
  traced : t.traced = true
  notFrozen : t.phase ≠ .frozen
  keeps : t.discarded = []
  accounted : t.phase ≠ .exited → t.Accounted
  oneStop : t.phase ≠ .exited → t.pending.count .attachStop + t.held .attachStop = 1

/-- Not traced, not stopped, nothing left of the attach, and every other signal
delivered or about to be. -/
def Harmless (t : Tracee) : Prop :=
  t.phase = .exited ∨
    (t.traced = false ∧ t.phase = .running ∧ .attachStop ∉ t.pending ∧
      ∀ n, t.sent.count n = t.delivered.count n + t.pending.count (.other n))

theorem fresh_untouched (queued : List ℕ) : (untouched queued).Fresh where
  untraced := rfl
  phase := Or.inl rfl
  noStop := by simp [untouched]
  keeps := rfl
  accounted := by
    intro n
    have hcount : (queued.map Signal.other).count (.other n) = queued.count n :=
      List.count_map_of_injective queued Signal.other (fun _ _ h => Signal.other.inj h) n
    simp [untouched, held, hcount]

theorem held_eq_zero {t : Tracee} {s : Signal} (h : ∀ s', t.phase ≠ .stopped s') : t.held s = 0 :=
  if_neg (h s)

theorem Fresh.harmless {t : Tracee} (h : t.Fresh) : t.Harmless := by
  rcases h.phase with hrun | hex
  · refine Or.inr ⟨h.untraced, hrun, h.noStop, fun n => ?_⟩
    have hn := h.accounted n
    rw [h.keeps, held_eq_zero (by simp [hrun])] at hn
    simpa using hn
  · exact Or.inl hex

/-! ### Steps -/

/-- Taking a signal from the queue moves one occurrence of it. -/
theorem count_erase_of_mem {l : List Signal} {s : Signal} (h : s ∈ l) (s' : Signal) :
    (l.erase s).count s' + (if s = s' then 1 else 0) = l.count s' := by
  by_cases hs : s = s'
  · subst hs
    have hpos := List.count_pos_iff.mpr h
    rw [List.count_erase_self, if_pos rfl]
    omega
  · rw [List.count_erase_of_ne (Ne.symm hs), if_neg hs, Nat.add_zero]

/-- What a step does. -/
theorem step_cases {t t' : Tracee} {e : Event} (h : t.step e = some t') :
    (∃ n, t.phase ≠ .exited ∧
      t' = { t with sent := t.sent ++ [n], pending := t.pending ++ [.other n] }) ∨
    (∃ s, t.phase = .running ∧ s ∈ t.pending ∧
      t' = receive { t with pending := t.pending.erase s } s) ∨
    (t.phase ≠ .exited ∧ t' = { t with phase := .exited }) := by
  cases e with
  | arrive n =>
    simp only [step] at h
    split at h
    · cases h
    · next hex => exact Or.inl ⟨n, hex, (Option.some.inj h).symm⟩
  | take s =>
    simp only [step] at h
    split at h
    · next hs => exact Or.inr (Or.inl ⟨s, hs.1, hs.2, (Option.some.inj h).symm⟩)
    · cases h
  | exit =>
    simp only [step] at h
    split at h
    · cases h
    · next hex => exact Or.inr (Or.inr ⟨hex, (Option.some.inj h).symm⟩)

/-- One more signal is sent and queued. -/
theorem Accounted.arrive {t : Tracee} (h : t.Accounted) (n : ℕ) :
    Accounted { t with sent := t.sent ++ [n], pending := t.pending ++ [.other n] } := by
  intro k
  have hk := h k
  have hcount : [Signal.other n].count (.other k) = [n].count k := by
    rw [List.count_singleton, List.count_singleton]
    simp
  show (t.sent ++ [n]).count k =
    t.delivered.count k + (t.pending ++ [Signal.other n]).count (.other k)
    + t.held (.other k) + t.discarded.count k
  rw [List.count_append, List.count_append, hcount]
  omega

/-- A signal taken by an untraced thread is delivered. -/
theorem Accounted.deliver {t : Tracee} (h : t.Accounted) {n : ℕ} (hn : .other n ∈ t.pending) :
    Accounted { t with
      pending := t.pending.erase (.other n)
      delivered := t.delivered ++ [n] } := by
  intro k
  have hk := h k
  have herase := count_erase_of_mem hn (.other k)
  have hcount : [n].count k = if Signal.other n = .other k then 1 else 0 := by
    rw [List.count_singleton]
    simp
  show t.sent.count k = (t.delivered ++ [n]).count k + (t.pending.erase (.other n)).count (.other k)
    + t.held (.other k) + t.discarded.count k
  rw [List.count_append, hcount]
  omega

theorem Fresh.step {t t' : Tracee} {e : Event} (h : t.Fresh) (hs : t.step e = some t') :
    t'.Fresh := by
  rcases step_cases hs with ⟨n, -, rfl⟩ | ⟨s, hrun, hmem, rfl⟩ | ⟨hex, rfl⟩
  · exact ⟨h.untraced, h.phase, by simp [h.noStop], h.keeps, h.accounted.arrive n⟩
  · unfold receive
    rw [if_neg (by simp [h.untraced])]
    cases s with
    -- nobody has attached, so there is no SIGSTOP of an attach to take
    | attachStop => exact absurd hmem h.noStop
    | other n =>
      refine ⟨h.untraced, h.phase, fun hm => h.noStop (List.mem_of_mem_erase hm), h.keeps, ?_⟩
      exact h.accounted.deliver hmem
  · have hrun : t.phase = .running := h.phase.resolve_right hex
    refine ⟨h.untraced, Or.inr rfl, h.noStop, h.keeps, fun n => ?_⟩
    have hn := h.accounted n
    rw [held_eq_zero (by simp [hrun])] at hn
    simpa [held] using hn

theorem Fresh.attach {t t' : Tracee} (h : t.Fresh) (ha : t.attach = some t') : t'.Attached := by
  unfold Tracee.attach at ha
  split at ha
  · cases ha
  · next hno =>
    obtain rfl := Option.some.inj ha
    have hrun : t.phase = .running := h.phase.resolve_right fun hex => hno (Or.inr hex)
    refine ⟨rfl, by simp [hrun], h.keeps, fun _ n => ?_, fun _ => ?_⟩
    · have hn := h.accounted n
      show t.sent.count n = t.delivered.count n
        + (t.pending ++ [Signal.attachStop]).count (.other n) + t.held (.other n)
        + t.discarded.count n
      simpa [List.count_append] using hn
    · show (t.pending ++ [Signal.attachStop]).count .attachStop + t.held .attachStop = 1
      rw [held_eq_zero (by simp [hrun]), List.count_append, List.count_eq_zero.mpr h.noStop]
      rfl

theorem Attached.step {t t' : Tracee} {e : Event} (h : t.Attached) (hs : t.step e = some t') :
    t'.Attached := by
  rcases step_cases hs with ⟨n, hex, rfl⟩ | ⟨s, hrun, hmem, rfl⟩ | ⟨hex, rfl⟩
  · refine ⟨h.traced, h.notFrozen, h.keeps, fun _ => (h.accounted hex).arrive n, fun _ => ?_⟩
    have hone := h.oneStop hex
    show (t.pending ++ [Signal.other n]).count .attachStop + t.held .attachStop = 1
    simpa [List.count_append] using hone
  · have hex : t.phase ≠ .exited := by simp [hrun]
    have hheld : ∀ s', t.held s' = 0 := fun s' => held_eq_zero (by simp [hrun])
    -- the signal moves from the queue to the stop
    have hmove : ∀ s', (t.pending.erase s).count s' + (if s = s' then 1 else 0)
        = t.pending.count s' := count_erase_of_mem hmem
    unfold receive
    rw [if_pos (by exact h.traced)]
    refine ⟨h.traced, by simp, h.keeps, fun _ n => ?_, fun _ => ?_⟩
    · have hn := h.accounted hex n
      have hm := hmove (.other n)
      rw [hheld] at hn
      show t.sent.count n = t.delivered.count n + (t.pending.erase s).count (.other n)
        + (if Phase.stopped s = .stopped (.other n) then 1 else 0) + t.discarded.count n
      simp only [Phase.stopped.injEq]
      omega
    · have hone := h.oneStop hex
      have hm := hmove .attachStop
      rw [hheld] at hone
      show (t.pending.erase s).count .attachStop
        + (if Phase.stopped s = .stopped .attachStop then 1 else 0) = 1
      simp only [Phase.stopped.injEq]
      omega
  · exact ⟨h.traced, by simp, h.keeps, fun h' => absurd rfl h', fun h' => absurd rfl h'⟩

theorem Harmless.step {t t' : Tracee} {e : Event} (h : t.Harmless) (hs : t.step e = some t') :
    t'.Harmless := by
  rcases h with hex | ⟨huntraced, hrun, hno, hall⟩
  · rcases step_cases hs with ⟨n, hex', -⟩ | ⟨s, hrun, -, -⟩ | ⟨hex', -⟩
    · exact absurd hex hex'
    · rw [hex] at hrun
      cases hrun
    · exact absurd hex hex'
  · -- on a running thread the accounts have nothing reported and nothing lost
    have hacc : Accounted { t with discarded := [] } := by
      intro n
      have hn := hall n
      rw [held_eq_zero (by simp [hrun])]
      simpa using hn
    rcases step_cases hs with ⟨n, -, rfl⟩ | ⟨s, -, hmem, rfl⟩ | ⟨-, rfl⟩
    · refine Or.inr ⟨huntraced, hrun, by simp [hno], fun k => ?_⟩
      have hk := hacc.arrive n k
      rw [held_eq_zero (by simp [hrun])] at hk
      simpa using hk
    · unfold receive
      rw [if_neg (by simp [huntraced])]
      cases s with
      | attachStop => exact absurd hmem hno
      | other n =>
        refine Or.inr ⟨huntraced, hrun, fun hm => hno (List.mem_of_mem_erase hm), fun k => ?_⟩
        have hk := hacc.deliver hmem k
        rw [held_eq_zero (by simp [hrun])] at hk
        simpa using hk
    · exact Or.inl rfl

/-- **Letting a traced thread go is harmless exactly when it is gone or stopped by
the SIGSTOP of the attach.** -/
theorem Attached.detach_iff {t : Tracee} (h : t.Attached) :
    t.detach.Harmless ↔ t.phase = .exited ∨ t.phase = .stopped .attachStop := by
  unfold detach
  split
  case h_1 hphase =>
    -- the one SIGSTOP of the attach has been taken, and none is queued
    have hex : t.phase ≠ .exited := by simp [hphase]
    have hone := h.oneStop hex
    have hheld : t.held .attachStop = 1 := if_pos hphase
    refine iff_of_true (Or.inr ⟨rfl, rfl, ?_, fun n => ?_⟩) (Or.inr hphase)
    · apply List.count_eq_zero.mp
      show t.pending.count .attachStop = 0
      omega
    · have hn := h.accounted hex n
      have hother : t.held (.other n) = 0 := if_neg (by simp [hphase])
      rw [hother, h.keeps] at hn
      simpa using hn
  case h_2 n hphase =>
    -- the SIGSTOP of the attach is still queued
    have hex : t.phase ≠ .exited := by simp [hphase]
    have hone := h.oneStop hex
    have hheld : t.held .attachStop = 0 := if_neg (by simp [hphase])
    refine iff_of_false ?_ (by simp [hphase])
    rintro (hbad | ⟨-, -, hno, -⟩)
    · cases hbad
    · have hzero : t.pending.count .attachStop = 0 := List.count_eq_zero.mpr hno
      omega
  case h_3 hstop hother =>
    -- the call fails and the thread stays traced
    constructor
    · rintro (hex | ⟨huntraced, -⟩)
      · exact Or.inl hex
      · rw [h.traced] at huntraced
        cases huntraced
    · rintro (hex | hphase)
      · exact Or.inl hex
      · exact absurd hphase hstop

end Tracee
end Ptrace
