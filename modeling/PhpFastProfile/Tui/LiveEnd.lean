import PhpFastProfile.Sampler.Teardown
import PhpFastProfile.Tui.LiveTable

/-!
# How the live display comes to its end

The display looks at the stop flag at the top of its loop only.  Before it comes there again it
reads whatever is in the channel, while the threads may still put something into it, draws, and
waits for a key.  But each thread sends at most one more stack before it sees the flag, so the
reading ends, and the wait is no longer than 50 ms.

## Main definitions

* `Top.Pc.left`, `Pc.ahead` — the steps of a thread and of the display to their ends, at most.
* `State.work` — how much is left to be done at most, once the stop flag is set.
* `Polled` — the display does not wait longer than 50 ms.

## Main results

* `exists_displayStep` — the display waits for nobody but the clock.
* `work_step` — after the stop flag is set, every step takes something off the work.
* `run_ends` — **the live display is never stuck, and ends after the stop flag is set.**
-/

namespace PhpFastProfile

/-! ### A thread that was told to stop -/

namespace Top

/-- The steps to the end of the thread, and one for the receipt of what it sends on the way. -/
def Pc.left : Pc → ℕ
  | .attaching => 3
  | .starting => 2
  | .checking => 1
  | .pacing p => p.left
  | .capturing => 4
  | .sending _ => 3
  | .probing => 2
  | .unattached => 0
  | .done => 0

section Steps

variable {cfg : Config} {t : State} {x x' : Sampler} {a : SamplerAction}

/-- A step that sends nothing. -/
theorem Sampler.left_of_lt (hsent : x'.sent = x.sent) (hlt : x'.pc.left < x.pc.left) :
    x'.pc.left + x'.sent.length + 1 ≤ x.pc.left + x.sent.length := by
  rw [hsent]
  omega

/-- **A thread that was told to stop comes closer to its end with every step**, also when it
sends a stack. -/
theorem Sampler.left_step (hstop : t.stop = true) (h : x.step cfg t a = some x') :
    x'.pc.left + x'.sent.length + 1 ≤ x.pc.left + x.sent.length := by
  unfold Sampler.step at h
  split at h
  case h_1 ok hpc =>
    obtain rfl := Option.some.inj h
    exact left_of_lt rfl (by cases ok <;> simp [hpc, Pc.left])
  case h_3 hpc =>
    obtain rfl := Option.some.inj h
    exact left_of_lt rfl (by simp [hpc, hstop, Pc.left])
  case h_4 p hpc =>
    obtain ⟨⟨p', next'⟩, hpace, rfl⟩ := Option.map_eq_some_iff.mp h
    refine left_of_lt rfl ?_
    rw [hpc]
    cases p' with
    | none => exact (by decide : 4 < 6).trans (Worker.lt_left_pace p)
    | some p' => exact Worker.left_pace_lt hpace
  case h_6 frames hpc =>
    obtain rfl := Option.some.inj h
    exact left_of_lt rfl (by dsimp only; split <;> simp [hpc, Pc.left])
  case h_7 frames hpc =>
    -- the stack is still to be received
    split at h <;> obtain rfl := Option.some.inj h
    · simp only [hpc, Pc.left, List.length_append, List.length_singleton]
      omega
    · exact left_of_lt rfl (by simp [hpc, Pc.left])
  case h_8 hpc =>
    obtain rfl := Option.some.inj h
    exact left_of_lt rfl (by dsimp only; split <;> simp [hpc, Pc.left])
  case h_11 => cases h
  all_goals
    obtain rfl := Option.some.inj h
    exact left_of_lt rfl (by simp [Pc.left, *])

/-- A thread that has not finished can go on, if need be after a sleep. -/
theorem Sampler.exists_step (cfg : Config) (hdone : x.pc ≠ .done) (hattached : x.pc ≠ .unattached)
    (clock : ℕ) : ∃ d b, ∀ t : State, t.clock = clock + d → (x.step cfg t b).isSome = true := by
  cases hpc : x.pc with
  | attaching => exact ⟨0, .attach true, fun t _ => by simp [step, hpc]⟩
  | unattached => exact absurd hpc hattached
  | starting => exact ⟨0, .start, fun t _ => by simp [step, hpc]⟩
  | checking => exact ⟨0, .check, fun t _ => by simp [step, hpc]⟩
  | pacing p =>
    refine ⟨x.next, .pace, fun t ht => ?_⟩
    have hlate : x.next ≤ t.clock := by omega
    cases p <;> simp [step, hpc, Pace.step, hlate]
  | capturing => exact ⟨0, .capture none, fun t _ => by simp [step, hpc]⟩
  | sending frames =>
    refine ⟨0, .send, fun t _ => ?_⟩
    cases hrx : t.receiver <;> simp [step, hpc, hrx]
  | probing => exact ⟨0, .probe, fun t _ => by simp [step, hpc]⟩
  | done => exact absurd hpc hdone

end Steps

end Top

namespace Live

/-- An action of the threads or of the display. -/
def Action.own : Action → Bool
  | .display _ => true
  | .top (.sampler _ _) => true
  | _ => false

/-! ### The work that is left -/

/-- The steps of the display to its end, without the receipts. -/
def Pc.ahead : Pc → ℕ
  | .receiving => 10
  | .timing => 9
  | .enabling => 8
  | .drawing => 8
  | .entering => 7
  | .stamping => 7
  | .opening => 6
  | .polling _ => 6
  | .starting => 5
  | .reading => 5
  | .checkingStop => 4
  | .disabling _ => 3
  | .leaving _ => 2
  | .showing _ => 1
  | .returned _ => 0
  | .unopened => 0

/-- The stacks in the channel. -/
def State.waiting (s : State) : ℕ :=
  ∑ i ∈ Finset.range s.top.samplers.length, (s.queue i).length

/-- What is left to be done once the stop flag is set. -/
def State.work (s : State) : ℕ :=
  (s.top.samplers.map fun x => x.pc.left).sum + s.waiting + s.pc.ahead

section Steps

variable {cfg : Config} {m s : State} {a : Action}

/-- The stop flag stays set. -/
theorem stop_step (hstop : m.top.stop = true) (h : step cfg m a = some s) :
    s.top.stop = true := by
  cases a with
  | display b => cases displayStep_move h <;> exact hstop
  | top b =>
    cases b with
    | sampler i b =>
      obtain ⟨x, -, h⟩ := Option.bind_eq_some_iff.mp h
      obtain ⟨x', -, rfl⟩ := Option.map_eq_some_iff.mp h
      exact hstop
    | quit => cases h
    | interrupt =>
      obtain rfl := Option.some.inj h
      rfl
    | _ =>
      obtain rfl := Option.some.inj h
      exact hstop

theorem work_of_ahead (hsamplers : s.top.samplers = m.top.samplers) (hqueue : s.queue = m.queue)
    (hahead : s.pc.ahead + 1 ≤ m.pc.ahead) : s.work + 1 ≤ m.work := by
  rw [State.work, State.work, State.waiting, State.waiting, hsamplers, hqueue]
  omega

theorem work_move {b : DisplayAction} (hstop : m.top.stop = true) (hc : m.chan.Conserved)
    (h : Move m b s) : s.work + 1 ≤ m.work := by
  cases h with
  | goesOn hpc hgo =>
    rw [hstop] at hgo
    cases hgo
  | recv i frames rest hpc hqueue =>
    -- a stack less in the channel, and the display stays where it is
    have hi : i < m.top.samplers.length := by
      by_contra hnot
      rw [queue_eq_nil hc (Nat.le_of_not_lt hnot)] at hqueue
      cases hqueue
    have hsum := Measure.sum_update m.queue List.length (Finset.mem_range.mpr hi) rest
    rw [hqueue, List.length_cons] at hsum
    simp only [State.work, State.waiting]
    omega
  | _ => exact work_of_ahead rfl rfl (by simp [Pc.ahead, State.close, *])

/-- **After the stop flag is set, every step takes something off the work**, unless it is one of
the surroundings, and then it adds nothing. -/
theorem work_step (hstop : m.top.stop = true) (hc : m.chan.Conserved)
    (h : step cfg m a = some s) : (s.work + if a.own = true then 1 else 0) ≤ m.work := by
  rcases step_parties h with ⟨b, rfl, hmove⟩ | ⟨i, b, x, x', rfl, hx, hstep, rfl⟩ |
    ⟨b, top, rfl, hother, rfl, hsamplers, -⟩
  · exact work_move hstop hc hmove
  · have hless := Top.Sampler.left_step hstop hstep
    have hlefts := Measure.sum_map_set (fun y : Top.Sampler => y.pc.left) hx x'
    have hi := Finset.mem_range.mpr (List.getElem?_eq_some_iff.mp hx).1
    simp only [State.work, State.waiting, List.length_set, Action.own, if_true]
    rcases samplerStep_sent (i := i) hstep with ⟨hsent, hqueue⟩ | ⟨frames, hsent, hqueue⟩
    · rw [hqueue]
      rw [hsent] at hless
      omega
    · have hsum := Measure.sum_update m.queue List.length hi (m.queue i ++ [frames])
      rw [List.length_append, List.length_singleton] at hsum
      rw [hqueue]
      rw [hsent, List.length_append, List.length_singleton] at hless
      omega
  · have hno : (Action.top b).own = false := by
      cases b with
      | sampler i c => exact absurd rfl (hother i c)
      | _ => rfl
    simp only [State.work, State.waiting, hsamplers, hno, Bool.false_eq_true, if_false, add_zero]
    exact le_rfl

/-! ### Progress -/

/-- The display does not wait for a key longer than 50 ms. -/
def Polled (s : State) : Prop :=
  ∀ deadline, s.pc = .polling deadline → deadline ≤ s.top.clock + fromMillis 50

theorem polled_step (hm : Polled m) (h : step cfg m a = some s) : Polled s := by
  rcases step_parties h with ⟨b, -, hmove⟩ | ⟨i, b, x, x', -, -, -, rfl⟩ |
    ⟨b, top, -, -, rfl, -, -, hclock⟩
  · cases hmove with
    | notDue hpc =>
      rintro deadline ⟨rfl⟩
      exact le_rfl
    | stamp hpc =>
      rintro deadline ⟨rfl⟩
      exact le_rfl
    | recv i frames rest hpc => exact fun deadline hs => by simp [hpc] at hs
    | _ => exact fun deadline hs => by simp [State.close] at hs
  · exact hm
  · exact fun deadline hs => (hm deadline hs).trans (Nat.add_le_add_right hclock _)

end Steps

section Progress

variable {s : State}

/-- Some time later. -/
def State.after (s : State) (d : ℕ) : State :=
  { s with top := { s.top with clock := s.top.clock + d } }

/-- A stack waits, or none does. -/
theorem quiet_or (s : State) :
    s.quiet = true ∨ ∃ i frames rest, s.queue i = frames :: rest := by
  by_cases hquiet : s.quiet = true
  · exact .inl hquiet
  · obtain ⟨i, -, hi⟩ : ∃ i < s.top.samplers.length, s.queue i ≠ [] := by
      simpa [State.quiet] using hquiet
    obtain ⟨frames, rest, hqueue⟩ := List.exists_cons_of_ne_nil hi
    exact .inr ⟨i, frames, rest, hqueue⟩

/-- `rx.try_recv()` returns at once. -/
theorem exists_tryRecv (hpc : s.pc = .receiving) :
    ∃ b, ((s.after 0).displayStep b).isSome = true := by
  have hpc : (s.after 0).pc = .receiving := hpc
  rcases quiet_or (s.after 0) with hquiet | ⟨i, frames, rest, hqueue⟩
  · cases hup : (s.after 0).hungUp with
    | true => exact ⟨.disconnected, by simp [State.displayStep, hpc, hquiet, hup]⟩
    | false => exact ⟨.empty, by simp [State.displayStep, hpc, hquiet, hup]⟩
  · exact ⟨.recv i, by simp [State.displayStep, hpc, hqueue]⟩

/-- **The display waits for nobody but the clock.** -/
theorem exists_displayStep (hs : Polled s) (hret : s.pc.hasReturned = false) :
    ∃ d ≤ fromMillis 50, ∃ b, ((s.after d).displayStep b).isSome = true := by
  have hnow : (∃ b, ((s.after 0).displayStep b).isSome = true) →
      ∃ d ≤ fromMillis 50, ∃ b, ((s.after d).displayStep b).isSome = true :=
    fun hb => ⟨0, Nat.zero_le _, hb⟩
  cases hpc : s.pc with
  | enabling => exact hnow ⟨.enable true, by simp [State.displayStep, State.after, hpc]⟩
  | entering => exact hnow ⟨.enter true, by simp [State.displayStep, State.after, hpc]⟩
  | opening => exact hnow ⟨.openTerminal true, by simp [State.displayStep, State.after, hpc]⟩
  | receiving => exact hnow (exists_tryRecv hpc)
  | drawing => exact hnow ⟨.drawFails, by simp [State.displayStep, State.after, hpc]⟩
  | polling deadline =>
    have hle := hs deadline hpc
    refine ⟨deadline - s.top.clock, by omega, .poll (some false), ?_⟩
    have hlate : deadline ≤ s.top.clock + (deadline - s.top.clock) := by omega
    simp [State.displayStep, State.after, hpc, hlate]
  | reading => exact hnow ⟨.read none, by simp [State.displayStep, State.after, hpc]⟩
  | disabling e => exact hnow ⟨.disable true, by simp [State.displayStep, State.after, hpc]⟩
  | leaving e => exact hnow ⟨.leave true, by simp [State.displayStep, State.after, hpc]⟩
  | showing e => exact hnow ⟨.showCursor, by simp [State.displayStep, State.after, hpc]⟩
  | returned e =>
    rw [hpc] at hret
    cases hret
  | unopened =>
    rw [hpc] at hret
    cases hret
  | _ => exact hnow ⟨.go, by simp [State.displayStep, State.go, State.after, hpc]⟩

/-- A thread that has not finished can go on, whatever the display does. -/
theorem exists_samplerStep (cfg : Config) {i : ℕ} {x : Top.Sampler}
    (hx : s.top.samplers[i]? = some x) (hdone : x.pc ≠ .done) (hattached : x.pc ≠ .unattached) :
    ∃ d b, ((s.after d).samplerStep cfg i b).isSome = true := by
  obtain ⟨d, b, hstep⟩ := x.exists_step cfg hdone hattached s.top.clock
  obtain ⟨x', hx'⟩ := Option.isSome_iff_exists.mp (hstep (s.after d).top rfl)
  refine ⟨d, b, ?_⟩
  show ((s.top.samplers[i]?).bind fun x => (x.step cfg (s.after d).top b).map _).isSome = true
  rw [hx, Option.bind_some, hx']
  rfl

end Progress

/-! ### Runs -/

section Ends

variable {cfg : Config} {clock : ℕ} {present : ℤ → Bool} {pids : List ℤ} {as : List Action}
  {s : State}

theorem run_polled (h : run cfg (init clock present pids) as = some s) : Polled s :=
  Run.invariant (P := Polled) (fun _ _ _ hm hstep => polled_step hm hstep)
    (fun deadline hs => by simp [init] at hs) h

/-- **How the live display ends.**  In no state it reaches is it stuck: the display has returned
or can go on within 50 ms, and so can every thread that has not finished, after its sleep.
Once the stop flag is set, no continuation has more steps of the threads and the display than
the work that is left, whatever is in the channel, whatever the keys and the terminal do, and in
whatever order. -/
theorem run_ends (h : run cfg (init clock present pids) as = some s) :
    (s.pc.hasReturned = true ∨
      ∃ d ≤ fromMillis 50, ∃ b, ((s.after d).displayStep b).isSome = true) ∧
    (∀ i x, s.top.samplers[i]? = some x → x.pc = .done ∨ x.pc = .unattached ∨
      ∃ d b, ((s.after d).samplerStep cfg i b).isSome = true) ∧
    (s.top.stop = true → ∀ bs s', Run.exec (step cfg) s bs = some s' →
      (bs.filter Action.own).length + s'.work ≤ s.work) := by
  refine ⟨?_, fun i x hx => ?_, fun hstop bs s' hrest => ?_⟩
  · cases hret : s.pc.hasReturned with
    | true => exact .inl rfl
    | false => exact .inr (exists_displayStep (run_polled h) hret)
  · by_cases hdone : x.pc = .done
    · exact .inl hdone
    · by_cases hattached : x.pc = .unattached
      · exact .inr (.inl hattached)
      · exact .inr (.inr (exists_samplerStep cfg hx hdone hattached))
  · refine Run.length_own_le (P := fun m => m.top.stop = true ∧ m.chan.Conserved) ?_ ?_ ?_
      ⟨hstop, run_conserves h⟩ hrest
    · exact fun m a m' hm hstep =>
        ⟨stop_step hm.1 hstep, (step_chan hstep).conserved hm.2⟩
    · intro m a m' hm hstep ha
      simpa [ha] using work_step hm.1 hm.2 hstep
    · intro m a m' hm hstep ha
      simpa [ha] using work_step hm.1 hm.2 hstep

end Ends

open Scenario

/-- The stop flag is set while a stack waits in the channel. -/
theorem run_ends_interrupted :
    ∃ s, run everySecond (init 0 (fun _ => true) [100]) (opened ++ sends ++ [.top .interrupt]) =
        some s ∧
      (∃ d ≤ fromMillis 50, ∃ b, ((s.after d).displayStep b).isSome = true) ∧
      ∀ bs s', Run.exec (step everySecond) s bs = some s' →
        (bs.filter Action.own).length + s'.work ≤ 12 := by
  have h : (run everySecond (init 0 (fun _ => true) [100])
      (opened ++ sends ++ [.top .interrupt])).map
        (fun s => (s.pc.hasReturned, s.top.stop, s.work)) = some (false, true, 12) := rfl
  obtain ⟨s, hs, heq⟩ := Option.map_eq_some_iff.mp h
  obtain ⟨hret, hstop, hwork⟩ : _ ∧ _ ∧ _ := by simpa only [Prod.mk.injEq] using heq
  obtain ⟨hdisplay, -, hends⟩ := run_ends hs
  rw [hret, hwork] at *
  exact ⟨s, hs, hdisplay.resolve_left (by simp), hends hstop⟩

end Live
end PhpFastProfile
