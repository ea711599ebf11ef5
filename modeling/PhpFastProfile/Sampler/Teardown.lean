import PhpFastProfile.Lib.Measure
import PhpFastProfile.Sampler.WorkerTable

/-!
# How `run_multi` comes to its end

Before the main thread drops its sender it has set the stop flag of every worker that is still
there.  Such a worker may be anywhere in its loop, in a sleep or before a capture, and a sample
it is about to take is still taken and sent.  But it does not come round again.  So what is left
to be done is bounded: the steps of the workers, one receipt for each message, and the joins.
The main thread waits for nobody who waits for it.

## Main definitions

* `Worker.work`, `State.work` — how much is left to be done at most.
* `State.Warned` — the workers that are left have their stop flag set, or will have.

## Main results

* `State.canStep_of_warned` — the profiler is never stuck.
* `State.work_step` — a step of the teardown takes something off the work.
* `runMulti_ends` — **the profiler is never stuck, and its teardown ends within its work.**
-/

namespace PhpFastProfile

/-- An action of the profiler's own threads. -/
def Action.own : Action → Bool
  | .worker _ _ => true
  | .main _ => true
  | _ => false

/-! ### A step of the pacing -/

theorem Pace.step_cases {interval clock next next' : ℕ} {p : Pace} {p' : Option Pace}
    (h : p.step interval clock next = some (p', next')) :
    (p = .timing ∧ next' = next ∧
      (clock < next ∧ p' = some .sleeping ∨ next ≤ clock ∧ p' = some .advancing)) ∨
    (p = .sleeping ∧ next' = next ∧ next ≤ clock ∧ p' = some .advancing) ∨
    (p = .advancing ∧ next' = next + interval ∧ (p' = some .snapping ∨ p' = none)) ∨
    (p = .snapping ∧ next' = clock + interval ∧ p' = none) := by
  cases p with
  | timing =>
    obtain ⟨rfl, rfl⟩ := Prod.mk.inj (Option.some.inj h)
    refine .inl ⟨rfl, rfl, ?_⟩
    by_cases hlt : clock < next
    · exact .inl ⟨hlt, by rw [if_pos hlt]⟩
    · exact .inr ⟨Nat.le_of_not_lt hlt, by rw [if_neg hlt]⟩
  | sleeping =>
    simp only [step] at h
    split at h
    · next hle =>
      obtain ⟨rfl, rfl⟩ := Prod.mk.inj (Option.some.inj h)
      exact .inr (.inl ⟨rfl, rfl, hle, rfl⟩)
    · cases h
  | advancing =>
    obtain ⟨rfl, rfl⟩ := Prod.mk.inj (Option.some.inj h)
    refine .inr (.inr (.inl ⟨rfl, rfl, ?_⟩))
    split
    · exact .inl rfl
    · exact .inr rfl
  | snapping =>
    obtain ⟨rfl, rfl⟩ := Prod.mk.inj (Option.some.inj h)
    exact .inr (.inr (.inr ⟨rfl, rfl, rfl⟩))

/-! ### A worker that was told to stop -/

/-- The steps to the end of the thread, and one for the receipt of what is sent on the way. -/
def Pace.left : Pace → ℕ
  | .timing => 10
  | .sleeping => 9
  | .advancing => 8
  | .snapping => 7

/-- The steps of a worker to its end, once it has been told to stop. -/
def WorkerPc.left : WorkerPc → ℕ
  | .starting => 3
  | .checking => 2
  | .pacing p => p.left
  | .capturing => 6
  | .probing => 3
  | .describing _ => 5
  | .sending _ => 4
  | .exiting => 1
  | .done => 0

namespace Worker

/-- These steps, and the messages it has in the channel. -/
def work (x : Worker) : ℕ := x.pc.left + x.queue.length

variable {cfg : Config} {env : Surroundings} {x x' : Worker} {a : WorkerAction}

theorem lt_left_pace (p : Pace) : 6 < p.left := by
  cases p <;> decide

theorem left_pace_lt {interval clock next next' : ℕ} {p p' : Pace}
    (h : p.step interval clock next = some (some p', next')) : p'.left < p.left := by
  rcases Pace.step_cases h with ⟨rfl, -, ⟨-, hp⟩ | ⟨-, hp⟩⟩ | ⟨rfl, -, -, hp⟩ |
    ⟨rfl, -, hp | hp⟩ | ⟨rfl, -, hp⟩ <;> cases hp <;> decide

theorem work_of_left (hleft : x'.pc.left + 1 ≤ x.pc.left) (hqueue : x'.queue = x.queue) :
    x'.work + 1 ≤ x.work := by
  rw [work, work, hqueue]
  omega

/-- **A worker that was told to stop comes closer to its end with every step.** -/
theorem work_step (hstop : x.stop = true) (h : x.step cfg env a = some x') :
    x'.work + 1 ≤ x.work ∧ x'.stop = true := by
  cases step_move h with
  | goesOn hpc hgo =>
    rw [hstop] at hgo
    cases hgo
  | paces p p' next hpc hpace =>
    refine ⟨work_of_left ?_ rfl, hstop⟩
    rw [hpc]
    exact left_pace_lt hpace
  | paced p next hpc hpace =>
    refine ⟨work_of_left ?_ rfl, hstop⟩
    rw [hpc]
    exact lt_left_pace p
  | sends msg hpc =>
    -- the message is still to be received
    refine ⟨?_, hstop⟩
    simp only [work, hpc, WorkerPc.left, List.length_append, List.length_singleton]
    omega
  | panics hpc =>
    refine ⟨work_of_left ?_ rfl, hstop⟩
    rcases hpc with hpc | ⟨frames, hpc⟩ <;> simp [hpc, WorkerPc.left]
  | _ => exact ⟨work_of_left (by simp [WorkerPc.left, *]) rfl, hstop⟩

/-- A worker that has not finished can go on, if need be after a sleep. -/
theorem exists_step (cfg : Config) (hlive : x.pc ≠ .done) (clock : ℕ) :
    ∃ d b, ∀ env : Surroundings, env.clock = clock + d → (x.step cfg env b).isSome = true := by
  cases hpc : x.pc with
  | starting => exact ⟨0, .start, fun env _ => by simp [step, hpc]⟩
  | checking => exact ⟨0, .check, fun env _ => by simp [step, hpc]⟩
  | pacing p =>
    refine ⟨x.next, .pace, fun env henv => ?_⟩
    have hlate : x.next ≤ env.clock := by omega
    cases p <;> simp [step, hpc, Pace.step, hlate]
  | capturing => exact ⟨0, .capture none, fun env _ => by simp [step, hpc]⟩
  | probing => exact ⟨0, .probe, fun env _ => by simp [step, hpc]⟩
  | describing frames => exact ⟨0, .describe none none, fun env _ => by simp [step, hpc]⟩
  | sending msg =>
    refine ⟨0, .send, fun env _ => ?_⟩
    cases hrx : env.receiver <;> simp [step, hpc, hrx]
  | exiting => exact ⟨0, .finish, fun env _ => by simp [step, hpc]⟩
  | done => exact absurd hpc hlive

end Worker

/-! ### The stop flags -/

/-- The main thread has signalled the workers. -/
def MainPc.down : MainPc → Bool
  | .dropping => true
  | .draining _ => true
  | pc => pc.pastDrain

namespace State

/-- The workers that are left have their stop flag set, or the main thread is about to set
it. -/
def Warned (s : State) : Prop :=
  match s.main with
  | .signalling todo => (∀ pid ∈ todo, (s.table.lookup pid).isSome = true) ∧
    ∀ (w : ℕ) (x : Worker), s.workers[w]? = some x → x.pc ≠ .done → x.stop = true ∨ x.pid ∈ todo
  | .joining todo => (∀ w ∈ todo, w < s.workers.length) ∧
    ∀ (w : ℕ) (x : Worker), s.workers[w]? = some x → x.pc ≠ .done → x.stop = true
  | .dropping | .draining _ =>
    ∀ (w : ℕ) (x : Worker), s.workers[w]? = some x → x.pc ≠ .done → x.stop = true
  | _ => True

section Steps

variable {cfg : Config} {s s' : State} {a : Action}

theorem Change.stop {w : ℕ} {x x' : Worker} (hc : Change cfg s w x a x') (hstop : x.stop = true) :
    x'.stop = true := by
  cases hc with
  | rests => exact hstop
  | steps b _ h => exact (Worker.work_step hstop h).2
  | received => exact hstop
  | signalled => rfl

theorem Change.live {w : ℕ} {x x' : Worker} (hc : Change cfg s w x a x') (h : x'.pc ≠ .done) :
    x.pc ≠ .done := fun hx => h (hc.done hx)

/-- A step that leaves the main thread and the table alone. -/
theorem warned_stay (hs : s.Warned) (hmain : s'.main = s.main) (htable : s'.table = s.table)
    (hlen : s'.workers.length = s.workers.length)
    (hold : ∀ w x', s'.workers[w]? = some x' → ∃ x,
      s.workers[w]? = some x ∧ Change cfg s w x a x') : s'.Warned := by
  unfold Warned at hs ⊢
  rw [hmain]
  split at hs
  · refine ⟨by rw [htable]; exact hs.1, fun w x' hx' hlive => ?_⟩
    obtain ⟨x, hx, hc⟩ := hold w x' hx'
    rcases hs.2 w x hx (hc.live hlive) with hstop | hpid
    · exact .inl (hc.stop hstop)
    · rw [hc.same.1]
      exact .inr hpid
  · refine ⟨by rw [hlen]; exact hs.1, fun w x' hx' hlive => ?_⟩
    obtain ⟨x, hx, hc⟩ := hold w x' hx'
    exact hc.stop (hs.2 w x hx (hc.live hlive))
  · intro w x' hx' hlive
    obtain ⟨x, hx, hc⟩ := hold w x' hx'
    exact hc.stop (hs w x hx (hc.live hlive))
  · intro w x' hx' hlive
    obtain ⟨x, hx, hc⟩ := hold w x' hx'
    exact hc.stop (hs w x hx (hc.live hlive))
  · trivial

/-- At first every worker that is left is in charge of a pid, and this is still to be
signalled. -/
theorem warned_signalling (ht : s.TableInv) (hpast : s.main.pastDrain = false) :
    ({ s with main := .signalling s.table.keys } : State).Warned := by
  refine ⟨fun pid hpid => AList.lookup_isSome.mpr hpid, fun w x hx hlive => .inr ?_⟩
  exact AList.lookup_isSome.mp (by rw [ht.charge hpast w x hx hlive]; rfl)

/-- The threads that are joined exist. -/
theorem warned_drained (ht : s.TableInv) (hs : ∀ (w : ℕ) (x : Worker), s.workers[w]? = some x →
    x.pc ≠ .done → x.stop = true) : s.drained.Warned := by
  refine ⟨fun w hw => ?_, hs⟩
  obtain ⟨⟨pid, v⟩, hmem, rfl⟩ := List.mem_map.mp hw
  obtain ⟨x, hx, -⟩ := ht.entry pid v (AList.mem_lookup_iff.mpr hmem)
  exact (List.getElem?_eq_some_iff.mp hx).1

theorem warned_step (ht : s.TableInv) (hs : s.Warned) (h : s.step cfg a = some s') :
    s'.Warned := by
  have hold : a ≠ .main (.spawn true) → ∀ w x', s'.workers[w]? = some x' → ∃ x,
      s.workers[w]? = some x ∧ Change cfg s w x a x' := by
    intro hno w x' hx'
    rcases worker_of_step h hx' with hold | ⟨_, _, _, _, hhire, -⟩
    · exact hold
    · exact absurd hhire.action hno
  rcases step_parties h with ⟨v, b, rfl, hw⟩ | ⟨b, rfl, hm⟩ | hevent
  · obtain ⟨y, y', hy, -, rfl⟩ := workerStep_eq_some hw
    exact warned_stay hs rfl rfl List.length_set (hold (by simp))
  · cases mainStep_move hm with
    | stopped hpc => exact warned_signalling ht (by rw [hpc]; rfl)
    | expired hpc => exact warned_signalling ht (by rw [hpc]; rfl)
    | hangUp deadline hpc => exact warned_signalling ht (by rw [hpc]; rfl)
    | signal pid todo v hpc hmem hv =>
      rw [Warned, hpc] at hs
      refine ⟨fun p hp => hs.1 p (List.mem_of_mem_erase hp), fun w x' hx' hlive => ?_⟩
      obtain ⟨x, hx, hc⟩ := hold (by simp) w x' hx'
      rcases hs.2 w x hx (hc.live hlive) with hstop | hpid
      · exact .inl (hc.stop hstop)
      · rw [hc.same.1]
        by_cases heq : x.pid = pid
        · -- the worker in charge of the pid is the one that is told to stop
          have hcharge := ht.charge (by rw [hpc]; rfl) w x hx (hc.live hlive)
          obtain rfl : v = w := Option.some.inj (hv.symm.trans (heq ▸ hcharge))
          have hmodify : (s.stopWorker v).workers[v]? = some { x with stop := true } := by
            simp [stopWorker, hx]
          obtain rfl := Option.some.inj (hmodify.symm.trans hx')
          exact .inl rfl
        · exact .inr ((List.mem_erase_of_ne heq).mpr hpid)
    | signalled hpc =>
      rw [Warned, hpc] at hs
      exact fun w x hx hlive => (hs.2 w x hx hlive).resolve_right List.not_mem_nil
    | drop hpc =>
      rw [Warned, hpc] at hs
      exact hs
    | drain v accepted deadline y msg rest hpc hy hqueue =>
      rw [Warned, hpc] at hs
      intro w x' hx' hlive
      obtain ⟨x, hx, hc⟩ := hold (by simp) w x' hx'
      exact hc.stop (hs w x hx (hc.live hlive))
    | drainTimeout deadline hpc =>
      rw [Warned, hpc] at hs
      exact warned_drained ht hs
    | drainHangUp deadline hpc =>
      rw [Warned, hpc] at hs
      exact warned_drained ht hs
    | join w todo hpc hmem hdone =>
      rw [Warned, hpc] at hs
      exact ⟨fun v hv => hs.1 v (List.mem_of_mem_erase hv), hs.2⟩
    | _ => trivial
  · cases hevent <;> exact warned_stay hs rfl rfl rfl (hold (by simp))

/-! ### The work that is left -/

/-- The steps of the main thread, without the receipts. -/
def mainLeft (s : State) : ℕ :=
  match s.main with
  | .dropping => s.table.entries.length + 5
  | .draining _ => s.table.entries.length + 4
  | .joining todo => todo.length + 3
  | .finishing => 2
  | .leaving _ => 1
  | _ => 0

/-- What is left to be done once the workers have been signalled. -/
def work (s : State) : ℕ := (s.workers.map Worker.work).sum + s.mainLeft

/-- The invariants of the teardown. -/
structure Down (s : State) : Prop where
  table : s.TableInv
  joined : s.Joined
  warned : s.Warned
  down : s.main.down = true

/-- A worker that still takes a step has been told to stop. -/
theorem Down.stop (hs : s.Down) {w : ℕ} {x : Worker} (hx : s.workers[w]? = some x)
    (hlive : x.pc ≠ .done) : x.stop = true := by
  have hwarned := hs.warned
  have hjoined := hs.joined
  have hdown := hs.down
  unfold Warned at hwarned
  unfold Joined at hjoined
  cases hpc : s.main <;> rw [hpc] at hwarned hjoined hdown
  case dropping => exact hwarned w x hx hlive
  case draining => exact hwarned w x hx hlive
  case joining => exact hwarned.2 w x hx hlive
  case finishing => exact absurd (hjoined w x hx) hlive
  case leaving => exact absurd (hjoined w x hx) hlive
  case returned => exact absurd (hjoined w x hx) hlive
  all_goals cases hdown

theorem work_of_left (hworkers : s'.workers = s.workers) (hleft : s'.mainLeft + 1 ≤ s.mainLeft) :
    s'.work + 1 ≤ s.work := by
  rw [work, work, hworkers]
  omega

/-- **A step of the teardown takes something off the work**, unless it is one of the
surroundings, and then it adds nothing. -/
theorem work_step (hs : s.Down) (h : s.step cfg a = some s') :
    (s'.work + if a.own = true then 1 else 0) ≤ s.work ∧ s'.main.down = true := by
  have hdown := hs.down
  rcases step_parties h with ⟨w, b, rfl, hw⟩ | ⟨b, rfl, hm⟩ | hevent
  · obtain ⟨x, x', hx, hstep, rfl⟩ := workerStep_eq_some hw
    have hlive : x.pc ≠ .done := by
      intro hdone
      rw [Worker.step_done hdone] at hstep
      cases hstep
    have hless := (Worker.work_step (hs.stop hx hlive) hstep).1
    have hsum := Measure.sum_map_set Worker.work hx x'
    refine ⟨?_, hdown⟩
    show ((s.workers.set w x').map Worker.work).sum + s.mainLeft + 1 ≤
      (s.workers.map Worker.work).sum + s.mainLeft
    omega
  · cases mainStep_move hm with
    | drain w accepted deadline x msg rest hpc hx hqueue =>
      have hsum := Measure.sum_map_set Worker.work hx { x with queue := rest }
      have hone : x.work = ({ x with queue := rest } : Worker).work + 1 := by
        show x.pc.left + x.queue.length = x.pc.left + rest.length + 1
        rw [hqueue, List.length_cons]
        omega
      refine ⟨?_, rfl⟩
      show ((s.workers.set w _).map Worker.work).sum + (s.table.entries.length + 4) + 1 ≤ s.work
      rw [work, mainLeft, hpc]
      dsimp only
      omega
    | join w todo hpc hmem =>
      refine ⟨work_of_left rfl ?_, rfl⟩
      rw [mainLeft, mainLeft, hpc]
      dsimp only
      rw [List.length_erase_of_mem hmem]
      have hpos := List.length_pos_of_mem hmem
      omega
    | drop hpc => exact ⟨work_of_left rfl (by simp [mainLeft, hpc]), rfl⟩
    | drainTimeout deadline hpc =>
      exact ⟨work_of_left rfl (by simp [mainLeft, drained, hpc]), rfl⟩
    | drainHangUp deadline hpc =>
      exact ⟨work_of_left rfl (by simp [mainLeft, drained, hpc]), rfl⟩
    | joined hpc => exact ⟨work_of_left rfl (by simp [mainLeft, hpc]), rfl⟩
    | finish ok hpc => exact ⟨work_of_left rfl (by simp [mainLeft, hpc]), rfl⟩
    | leave ok hpc => exact ⟨work_of_left rfl (by simp [mainLeft, hpc]), rfl⟩
    | _ => simp_all [MainPc.down, MainPc.pastDrain]
  · cases hevent <;> exact ⟨le_refl _, hdown⟩

theorem down_step (hs : s.Down) (h : s.step cfg a = some s') : s'.Down :=
  ⟨tableInv_step hs.table h, joined_step hs.table hs.joined h, warned_step hs.table hs.warned h,
    (work_step hs h).2⟩

/-! ### Progress -/

/-- Some time later. -/
def after (s : State) (d : ℕ) : State := { s with clock := s.clock + d }

/-- An own action can happen, if need be after a wait. -/
def CanStep (cfg : Config) (s : State) : Prop :=
  ∃ d a, a.own = true ∧ ((s.after d).step cfg a).isSome = true

theorem canStep_main {b : MainAction} (d : ℕ) (h : ((s.after d).mainStep cfg b).isSome = true) :
    s.CanStep cfg := ⟨d, .main b, rfl, h⟩

/-- A worker that has not finished can go on. -/
theorem canStep_worker {w : ℕ} {x : Worker} (hx : s.workers[w]? = some x) (hlive : x.pc ≠ .done) :
    s.CanStep cfg := by
  obtain ⟨d, b, hstep⟩ := Worker.exists_step cfg hlive s.clock
  obtain ⟨x', hx'⟩ := Option.isSome_iff_exists.mp (hstep ((s.after d).surroundings x) rfl)
  refine ⟨d, .worker w b, rfl, ?_⟩
  show ((s.workers[w]?).bind fun x =>
    (x.step cfg ((s.after d).surroundings x) b).map _).isSome = true
  rw [hx, Option.bind_some, hx']
  rfl

/-- A message waits, or none does. -/
theorem quiet_or (s : State) : s.quiet = true ∨
    ∃ (w : ℕ) (x : Worker) (msg : SampleMsg) (rest : List SampleMsg),
      s.workers[w]? = some x ∧ x.queue = msg :: rest := by
  by_cases hquiet : s.quiet = true
  · exact .inl hquiet
  · obtain ⟨x, hmem, hx⟩ : ∃ x ∈ s.workers, x.queue ≠ [] := by simpa [quiet] using hquiet
    obtain ⟨w, hw⟩ := List.getElem?_of_mem hmem
    obtain ⟨msg, rest, hqueue⟩ := List.exists_cons_of_ne_nil hx
    exact .inr ⟨w, x, msg, rest, hw, hqueue⟩

/-- `rx.recv_timeout` returns, if need be after the wait. -/
theorem canStep_recv {deadline : ℕ}
    (hpc : s.main = .receiving deadline ∨ s.main = .draining deadline) : s.CanStep cfg := by
  rcases s.quiet_or with hquiet | ⟨w, x, msg, rest, hx, hqueue⟩
  · refine canStep_main (b := .timeout) deadline ?_
    have hquiet : (s.after deadline).quiet = true := hquiet
    have hlate : deadline ≤ (s.after deadline).clock := Nat.le_add_left ..
    rcases hpc with hpc | hpc
    · have hpc : (s.after deadline).main = .receiving deadline := hpc
      simp [mainStep, timeout, hpc, hlate, hquiet]
    · have hpc : (s.after deadline).main = .draining deadline := hpc
      simp [mainStep, timeout, hpc, hlate, hquiet]
  · refine canStep_main (b := .recv w true) 0 ?_
    have hx : (s.after 0).workers[w]? = some x := hx
    rcases hpc with hpc | hpc
    · have hpc : (s.after 0).main = .receiving deadline := hpc
      simp [mainStep, recv, take, hpc, hx, hqueue]
    · have hpc : (s.after 0).main = .draining deadline := hpc
      simp [mainStep, recv, take, hpc, hx, hqueue]

/-- **The profiler is never stuck** before `run_multi` returns. -/
theorem canStep_of_warned (cfg : Config) (hs : s.Warned) (hret : ∀ ok, s.main ≠ .returned ok)
    (hfailed : s.main ≠ .failed) : s.CanStep cfg := by
  have hgo : ((s.after 0).go cfg).isSome = true → s.CanStep cfg := canStep_main (b := .go) 0
  cases hpc : s.main with
  | returned ok => exact absurd hpc (hret ok)
  | failed => exact absurd hpc hfailed
  | receiving deadline => exact canStep_recv (.inl hpc)
  | draining deadline => exact canStep_recv (.inr hpc)
  | discovering =>
    exact canStep_main (b := .discover none) 0 (by simp [mainStep, discover, after, hpc])
  | rediscovering =>
    exact canStep_main (b := .discover none) 0 (by simp [mainStep, discover, after, hpc])
  | finishing => exact canStep_main (b := .finish true) 0 (by simp [mainStep, finish, after, hpc])
  | spawning first todo =>
    cases todo with
    | nil => exact hgo (by simp [go, after, hpc])
    | cons pid todo =>
      refine canStep_main (b := .spawn false) 0 ?_
      simp only [mainStep, spawn, after, hpc]
      split <;> rfl
  | reaping todo =>
    cases todo with
    | nil => exact hgo (by simp [go, after, hpc])
    | cons pid todo =>
      exact canStep_main (b := .reap pid) 0 (by simp [mainStep, reap, after, hpc])
  | signalling todo =>
    cases todo with
    | nil => exact hgo (by simp [go, after, hpc])
    | cons pid todo =>
      rw [Warned, hpc] at hs
      obtain ⟨w, hw⟩ := Option.isSome_iff_exists.mp (hs.1 pid List.mem_cons_self)
      exact canStep_main (b := .signal pid) 0 (by simp [mainStep, signal, after, hpc, hw])
  | joining todo =>
    cases todo with
    | nil => exact hgo (by simp [go, after, hpc])
    | cons w todo =>
      rw [Warned, hpc] at hs
      obtain ⟨x, hx⟩ : ∃ x, s.workers[w]? = some x :=
        ⟨_, List.getElem?_eq_getElem (hs.1 w List.mem_cons_self)⟩
      by_cases hdone : x.pc = .done
      · have hfin : (s.after 0).isFinished w = true := (isFinished_iff hx).mpr hdone
        have hpc : (s.after 0).main = .joining (w :: todo) := hpc
        exact canStep_main (b := .join w) 0 (by simp [mainStep, join, hpc, hfin])
      · exact canStep_worker hx hdone
  | _ => exact hgo (by simp [go, after, hpc])

end Steps

end State

/-! ### Runs -/

section Runs

variable {cfg : Config} {clock : ℕ} {alive : ℤ → Bool} {as : List Action} {s : State}

theorem runMulti_warned (h : runMulti cfg (State.init clock alive) as = some s) :
    s.TableInv ∧ s.Warned := by
  refine Run.invariant (P := fun s => s.TableInv ∧ s.Warned) ?_ ⟨?_, trivial⟩ h
  · intro m a s' hm hstep
    exact ⟨State.tableInv_step hm.1 hstep, State.warned_step hm.1 hm.2 hstep⟩
  · exact State.tableInv_init clock alive

/-- **How `run_multi` ends.**  In no state it reaches is the profiler stuck: it has returned, or
one of its threads can go on, at most after a wait.  Once the workers have been signalled, no
continuation has more steps of its threads than the work that is left, whatever the workers
were doing, whatever happens around them and in whatever order. -/
theorem runMulti_ends (h : runMulti cfg (State.init clock alive) as = some s) :
    ((∃ ok, s.main = .returned ok) ∨ s.main = .failed ∨ s.CanStep cfg) ∧
      (s.main.down = true → ∀ bs s', Run.exec (State.step cfg) s bs = some s' →
        (bs.filter Action.own).length + s'.work ≤ s.work) := by
  obtain ⟨htable, hwarned⟩ := runMulti_warned h
  constructor
  · by_cases hret : ∃ ok, s.main = .returned ok
    · exact .inl hret
    · by_cases hfailed : s.main = .failed
      · exact .inr (.inl hfailed)
      · exact .inr (.inr (State.canStep_of_warned cfg hwarned
          (fun ok hok => hret ⟨ok, hok⟩) hfailed))
  · intro hdown bs s' hrest
    have hs : s.Down := ⟨htable, runMulti_joined h, hwarned, hdown⟩
    refine Run.length_own_le (P := State.Down) (fun _ _ _ => State.down_step) ?_ ?_ hs hrest
    · intro m a m' hm hstep ha
      simpa [ha] using (State.work_step hm hstep).1
    · intro m a m' hm hstep ha
      simpa [ha] using (State.work_step hm hstep).1

end Runs

namespace Scenario

/-- The only worker is told to stop before it has begun. -/
def signalled : List Action :=
  [.main .go, .main .go, .main (.discover (some [100])), .main (.spawn true), .main .go, .interrupt,
    .main .go, .main (.signal 100), .main .go]

end Scenario

open Scenario

theorem runMulti_ends_signalled : ∃ s, runMulti everySecond oneProcess signalled = some s ∧
    s.CanStep everySecond ∧ ∀ bs s', Run.exec (State.step everySecond) s bs = some s' →
      (bs.filter Action.own).length + s'.work ≤ 9 := by
  have h : (runMulti everySecond oneProcess signalled).map (fun s => (s.main, s.work)) =
      some (.dropping, 9) := by rfl
  obtain ⟨s, hs, heq⟩ := Option.map_eq_some_iff.mp h
  obtain ⟨hmain, hwork⟩ : _ ∧ _ := by simpa only [Prod.mk.injEq] using heq
  obtain ⟨hstep, hends⟩ := runMulti_ends hs
  rw [hmain, hwork] at hends
  simp only [hmain, reduceCtorEq, exists_const, false_or] at hstep
  exact ⟨s, hs, hstep, hends rfl⟩

end PhpFastProfile
