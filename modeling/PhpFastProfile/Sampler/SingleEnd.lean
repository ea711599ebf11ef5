import PhpFastProfile.Sampler.SinkCalls
import PhpFastProfile.Sampler.Teardown

/-!
# How `Sampler::run` comes to its end

`Sampler::run` looks at the stop flag and at the duration at the top of its loop.  The flag ends
the run there at the latest in the next round.  The duration ends it because the deadline of the
pacing moves on by an interval in each round, while the deadline is never more than an interval
ahead of the clock: a round begins only as long as the deadline is within the duration and an
interval.

## Main definitions

* `Pc.left` — the steps to the end, once the stop flag is set.
* `State.rounds`, `State.work` — the rounds and steps that fit into the duration.
* `Due` — where the deadline is.

## Main results

* `left_step`, `work_step` — every step of the thread takes something off.
* `Single.run_returns` — **`Sampler::run` is never stuck, and ends after the signal and after the
  duration.**
-/

namespace PhpFastProfile
namespace Single

/-- An action of the thread. -/
def Action.own : Action → Bool
  | .tick _ => false
  | .interrupt => false
  | .target _ => false
  | _ => true

/-! ### The stop flag -/

/-- The steps to the end once the stop flag is set. -/
def Pc.left : Pc → ℕ
  | .checkingDuration => 11
  | .pacing p => p.left
  | .capturing => 6
  | .describing _ => 5
  | .writing _ _ => 4
  | .starting => 4
  | .timing => 3
  | .probing => 3
  | .checkingStop => 2
  | .finishing => 1
  | .returned _ => 0

section Steps

variable {cfg : Config} {m s : State} {a : Action}

/-- **After the stop flag is set, every step of the thread brings it closer to its end.** -/
theorem left_step (hstop : m.stop = true) (h : step cfg m a = some s) :
    (s.pc.left + if a.own = true then 1 else 0) ≤ m.pc.left ∧ s.stop = true := by
  cases step_move h with
  | goesOn hpc hgo =>
    rw [hstop] at hgo
    cases hgo
  | paces p p' next hpc hpace =>
    refine ⟨?_, hstop⟩
    rw [hpc]
    exact Worker.left_pace_lt hpace
  | paced p next hpc hpace =>
    refine ⟨?_, hstop⟩
    rw [hpc]
    exact Worker.lt_left_pace p
  | tick | target => exact ⟨le_rfl, hstop⟩
  | interrupt => exact ⟨le_rfl, rfl⟩
  | _ => exact ⟨by simp [Pc.left, Pace.left, Action.own, *], hstop⟩

/-! ### The duration -/

/-- The pacing has not moved the deadline on yet. -/
def Pc.waits : Pc → Bool
  | .pacing .timing => true
  | .pacing .sleeping => true
  | .pacing .advancing => true
  | _ => false

/-- **Where the deadline is**: an interval ahead of the clock at most, and within the duration and
an interval when a round begins. -/
structure Due (cfg : Config) (s : State) : Prop where
  started : s.pc = .timing → s.start ≤ s.clock
  next_le : s.next ≤ s.clock + cfg.interval
  due : s.pc = .pacing .advancing → s.next ≤ s.clock
  ahead : ∀ d ∈ cfg.duration, s.pc.waits = true → s.next < s.start + d + cfg.interval

/-- A step that leaves the deadline alone and does not begin a round. -/
theorem Due.same (hm : Due cfg m) (hclock : m.clock ≤ s.clock)
    (hstart : s.pc = .timing → s.start ≤ s.clock) (hnext : s.next = m.next)
    (hpc : s.pc.waits = true → s.pc = m.pc ∧ s.start = m.start) : Due cfg s := by
  refine ⟨hstart, by rw [hnext]; exact hm.next_le.trans (Nat.add_le_add_right hclock _), ?_, ?_⟩
  · intro hadv
    obtain ⟨hsame, -⟩ := hpc (by rw [hadv]; rfl)
    rw [hnext]
    exact (hm.due (hsame ▸ hadv)).trans hclock
  · intro d hd hwaits
    obtain ⟨hsame, hst⟩ := hpc hwaits
    rw [hnext, hst]
    exact hm.ahead d hd (hsame ▸ hwaits)

/-- A round begins before the duration is over. -/
theorem lt_of_waits (h : step cfg m .go = some s) (hpc : m.pc = .checkingDuration)
    (hs : s.pc = .pacing .timing) {d : ℕ} (hd : d ∈ cfg.duration) : m.clock < m.start + d := by
  simp only [step, go, hpc] at h
  obtain rfl := Option.some.inj h
  by_contra hnot
  rw [if_pos ⟨d, hd, by omega⟩] at hs
  cases hs

theorem due_step (hm : Due cfg m) (h : step cfg m a = some s) : Due cfg s := by
  have hmove := step_move h
  have hnext := hm.next_le
  cases hmove with
  | tick d =>
    refine hm.same (Nat.le_add_right _ d) (fun hpc => ?_) rfl fun _ => ⟨rfl, rfl⟩
    exact (hm.started hpc).trans (Nat.le_add_right _ d)
  | interrupt | target => exact hm.same le_rfl hm.started rfl fun _ => ⟨rfl, rfl⟩
  | start hpc => exact hm.same le_rfl (fun _ => le_rfl) rfl nofun
  | time hpc => exact ⟨nofun, Nat.le_add_right _ _, nofun, nofun⟩
  | waits hpc =>
    refine ⟨nofun, hnext, nofun, fun d hd _ => ?_⟩
    have hlt := lt_of_waits h hpc rfl hd
    show m.next < m.start + d + cfg.interval
    omega
  | paces p p' next hpc hpace =>
    rcases Pace.step_cases hpace with ⟨rfl, rfl, ⟨-, hp⟩ | ⟨hle, hp⟩⟩ | ⟨rfl, rfl, hle, hp⟩ |
      ⟨rfl, rfl, hp | hp⟩ | ⟨-, -, hp⟩ <;> cases hp
    · exact ⟨nofun, hnext, nofun, fun d hd _ => hm.ahead d hd (by rw [hpc]; rfl)⟩
    · exact ⟨nofun, hnext, fun _ => hle, fun d hd _ => hm.ahead d hd (by rw [hpc]; rfl)⟩
    · exact ⟨nofun, hnext, fun _ => hle, fun d hd _ => hm.ahead d hd (by rw [hpc]; rfl)⟩
    · exact ⟨nofun, Nat.add_le_add_right (hm.due hpc) _, nofun, nofun⟩
  | paced p next hpc hpace =>
    rcases Pace.step_cases hpace with ⟨-, -, ⟨-, hp⟩ | ⟨-, hp⟩⟩ | ⟨-, -, -, hp⟩ |
      ⟨rfl, rfl, hp⟩ | ⟨rfl, rfl, -⟩
    · cases hp
    · cases hp
    · cases hp
    · exact ⟨nofun, Nat.add_le_add_right (hm.due hpc) _, nofun, nofun⟩
    · exact ⟨nofun, le_rfl, nofun, nofun⟩
  | _ => exact hm.same le_rfl nofun rfl nofun

/-! ### The work that is left -/

/-- The rounds that fit into what is left of the duration `d`. -/
def State.rounds (cfg : Config) (d : ℕ) (s : State) : ℕ :=
  match s.pc with
  | .starting | .timing => (d + 2 * cfg.interval - 1) / cfg.interval
  | _ => (s.start + d + 2 * cfg.interval - 1 - s.next) / cfg.interval

/-- Where the thread is in its round, counted from the end.  A round begins where the deadline
moves on. -/
def Pc.place : Pc → ℕ
  | .pacing .snapping => 11
  | .capturing => 10
  | .describing _ => 9
  | .writing _ _ => 8
  | .starting => 8
  | .timing => 7
  | .probing => 7
  | .checkingStop => 6
  | .checkingDuration => 5
  | .pacing .timing => 4
  | .pacing .sleeping => 3
  | .pacing .advancing => 2
  | .finishing => 1
  | .returned _ => 0

/-- The steps of the thread that fit into the duration `d`. -/
def State.work (cfg : Config) (d : ℕ) (s : State) : ℕ := 12 * s.rounds cfg d + s.pc.place

theorem work_of_place {d : ℕ} (hrounds : s.rounds cfg d ≤ m.rounds cfg d)
    (hplace : s.pc.place + 1 ≤ m.pc.place) : s.work cfg d + 1 ≤ m.work cfg d := by
  unfold State.work
  omega

/-- The deadline moves on by an interval. -/
theorem rounds_advance {limit next interval : ℕ} (hpos : 0 < interval)
    (hlt : next < limit + interval) :
    (limit + 2 * interval - 1 - (next + interval)) / interval + 1 ≤
      (limit + 2 * interval - 1 - next) / interval := by
  have hdiv := Nat.div_eq_sub_div (a := limit + 2 * interval - 1 - next) hpos (by omega)
  rw [hdiv, show limit + 2 * interval - 1 - (next + interval) =
    limit + 2 * interval - 1 - next - interval by omega]

/-- **Every step of the thread takes something off the work**, and nothing else adds to it. -/
theorem work_step {d : ℕ} (hd : d ∈ cfg.duration) (hpos : 0 < cfg.interval) (hm : Due cfg m)
    (h : step cfg m a = some s) :
    (s.work cfg d + if a.own = true then 1 else 0) ≤ m.work cfg d := by
  cases step_move h with
  | tick | interrupt | target => exact le_rfl
  | time hpc =>
    have hstarted := hm.started hpc
    refine work_of_place ?_ (by simp [Pc.place, hpc])
    rw [State.rounds, State.rounds, hpc]
    exact Nat.div_le_div_right (by dsimp only; omega)
  | paces p p' next hpc hpace =>
    rcases Pace.step_cases hpace with ⟨rfl, rfl, ⟨-, hp⟩ | ⟨-, hp⟩⟩ | ⟨rfl, rfl, -, hp⟩ |
      ⟨rfl, rfl, hp | hp⟩ | ⟨-, -, hp⟩ <;> cases hp
    · exact work_of_place (by simp [State.rounds, hpc]) (by simp [Pc.place, hpc])
    · exact work_of_place (by simp [State.rounds, hpc]) (by simp [Pc.place, hpc])
    · exact work_of_place (by simp [State.rounds, hpc]) (by simp [Pc.place, hpc])
    · -- a round less, and the whole of it ahead
      have hless := rounds_advance hpos (hm.ahead d hd (by rw [hpc]; rfl))
      simp only [State.work, State.rounds, Pc.place, hpc, Action.own, if_true]
      omega
  | paced p next hpc hpace =>
    rcases Pace.step_cases hpace with ⟨-, -, ⟨-, hp⟩ | ⟨-, hp⟩⟩ | ⟨-, -, -, hp⟩ |
      ⟨rfl, rfl, hp⟩ | ⟨rfl, rfl, -⟩
    · cases hp
    · cases hp
    · cases hp
    · have hless := rounds_advance hpos (hm.ahead d hd (by rw [hpc]; rfl))
      simp only [State.work, State.rounds, Pc.place, hpc, Action.own, if_true]
      omega
    · have hnext := hm.next_le
      refine work_of_place ?_ (by simp [Pc.place, hpc])
      rw [State.rounds, State.rounds, hpc]
      exact Nat.div_le_div_right (by dsimp only; omega)
  | _ => exact work_of_place (by simp [State.rounds, *]) (by simp [Pc.place, *])

/-! ### Progress -/

/-- Some time later. -/
def State.after (s : State) (d : ℕ) : State := { s with clock := s.clock + d }

/-- The thread can go on, if need be after a wait. -/
theorem exists_step (cfg : Config) (s : State) (hret : ∀ ok, s.pc ≠ .returned ok) :
    ∃ d b, b.own = true ∧ (step cfg (s.after d) b).isSome = true := by
  cases hpc : s.pc with
  | returned ok => exact absurd hpc (hret ok)
  | pacing p =>
    refine ⟨s.next, .pace, rfl, ?_⟩
    have hlate : s.next ≤ s.clock + s.next := Nat.le_add_left ..
    cases p <;> simp [step, State.after, hpc, Pace.step, hlate]
  | capturing => exact ⟨0, .capture none, rfl, by simp [step, State.after, hpc]⟩
  | describing frames => exact ⟨0, .describe none none, rfl, by simp [step, State.after, hpc]⟩
  | writing frames info => exact ⟨0, .write true, rfl, by simp [step, State.after, hpc]⟩
  | finishing => exact ⟨0, .finish true, rfl, by simp [step, State.after, hpc]⟩
  | _ => exact ⟨0, .go, rfl, by simp [step, go, State.after, hpc]⟩

end Steps

/-! ### Runs -/

section Ends

variable {cfg : Config} {clock : ℕ} {as : List Action} {s : State}

theorem due_init (cfg : Config) (clock : ℕ) : Due cfg (init clock) :=
  ⟨nofun, Nat.zero_le _, nofun, nofun⟩

/-- **How `Sampler::run` ends.**  In no state it reaches is it stuck: it has returned or can go
on, at most after a wait.  Once the stop flag is set, it takes eleven more steps at most; and
with a duration, the whole run has no more steps of the thread than twelve for each interval that
fits into it and for two more. -/
theorem run_returns (h : run cfg (init clock) as = some s) :
    ((∃ ok, s.pc = .returned ok) ∨
      ∃ d b, b.own = true ∧ (step cfg (s.after d) b).isSome = true) ∧
    (s.stop = true → ∀ bs s', run cfg s bs = some s' → (bs.filter Action.own).length ≤ 11) ∧
    ∀ d ∈ cfg.duration, 0 < cfg.interval →
      (as.filter Action.own).length ≤ 12 * (d / cfg.interval + 2) + 8 := by
  refine ⟨?_, fun hstop bs s' hrest => ?_, fun d hd hpos => ?_⟩
  · by_cases hret : ∃ ok, s.pc = .returned ok
    · exact .inl hret
    · exact .inr (exists_step cfg s fun ok hok => hret ⟨ok, hok⟩)
  · have hle : (bs.filter Action.own).length + s'.pc.left ≤ s.pc.left := by
      refine Run.length_own_le (P := fun m : State => m.stop = true) (μ := fun m => m.pc.left)
        (fun m a m' hm hstep => (left_step hm hstep).2) ?_ ?_ hstop hrest
      · intro m a m' hm hstep ha
        simpa [ha] using (left_step hm hstep).1
      · intro m a m' hm hstep ha
        simpa [ha] using (left_step hm hstep).1
    have hleft : s.pc.left ≤ 11 := by
      cases s.pc with
      | pacing p => cases p <;> decide
      | _ => simp [Pc.left]
    omega
  · have hle : (as.filter Action.own).length + s.work cfg d ≤ (init clock).work cfg d := by
      refine Run.length_own_le (P := Due cfg) (fun m a m' hm hstep => due_step hm hstep) ?_ ?_
        (due_init cfg clock) h
      · intro m a m' hm hstep ha
        simpa [ha] using work_step hd hpos hm hstep
      · intro m a m' hm hstep ha
        simpa [ha] using work_step hd hpos hm hstep
    have hrounds : (d + 2 * cfg.interval - 1) / cfg.interval ≤ d / cfg.interval + 2 := by
      refine (Nat.div_le_div_right (Nat.sub_le _ 1)).trans ?_
      rw [Nat.add_mul_div_right _ _ hpos]
    have hwork : (init clock).work cfg d = 12 * ((d + 2 * cfg.interval - 1) / cfg.interval) + 8 :=
      rfl
    omega

end Ends

open Scenario

/-- As `everySecond`, for one second. -/
def oneSecond : Config := { everySecond with duration := some (fromSecs 1) }

/-- Two rounds fit into the second. -/
def expiredRun : List Action :=
  singleStart ++ [.capture none, .go, .go, .go, .pace, .tick (fromSecs 1), .pace, .pace,
    .capture (some job), .describe none none, .write true, .go, .go, .finish true]

theorem run_returns_expired : ∃ s, run oneSecond (init 0) expiredRun = some s ∧
    s.pc = .returned true ∧ s.taken = 1 ∧ (expiredRun.filter Action.own).length ≤ 44 := by
  have h : (run oneSecond (init 0) expiredRun).map (fun s => (s.pc, s.taken)) =
      some (.returned true, 1) := rfl
  obtain ⟨s, hs, heq⟩ := Option.map_eq_some_iff.mp h
  obtain ⟨hret, htaken⟩ : _ ∧ _ := by simpa only [Prod.mk.injEq] using heq
  exact ⟨s, hs, hret, htaken, (run_returns hs).2.2 (fromSecs 1) rfl (by decide)⟩

end Single
end PhpFastProfile
