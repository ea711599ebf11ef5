import PhpFastProfile.Sampler.Delivery

/-!
# How often the processes are scanned

The event loop reads the clock once in each round and scans again when the
deadline of the last arming is over.  Three things keep the scans from being the
period of `--rediscover-secs` apart: the first deadline is the moment before the
first scan, so that the first check finds it over; the timer is armed before the
workers are reaped, so that what the reaping takes is missing from the next gap;
and a period of zero, which is said to mean never, counts as one second.

A run keeps to the period exactly when the time that its parts take makes up for
the three: with a period of zero the timer is never checked, the attaches, the
first wait and the reaping between the first scan and the second take the whole
period, and the reaping before a later scan takes no longer than the next one and
what the next check comes late.

## Main definitions

* `Part`, `spent` — what the main thread is busy with, and how long.
* `State.sinceArmed`, `State.late` — what the reaping takes, and what a check comes late.
* `Consecutive` — two calls of `discover` with none between them.
* `Spaced` — the scans of a run honour the period.
* `Punctual` — the times that the parts of the run take make up for the three.

## Main results

* `State.step_reaping` — a scan is preceded by a check that finds the deadline over.
* `Consecutive.deadline_le` — the timer is armed again after the deadline that was set at the
  scan before.
* `Consecutive.clock_eq` — what passes from the first scan to the second.
* `runMulti_spacing` — **a run is spaced exactly when it is punctual**, unless it ends
  between a check and the scan.
* `runMulti_spacing_not` — a run that scans twice although the period is zero, and one
  that scans twice in 50 ms.
-/

namespace PhpFastProfile

/-- What the main thread is busy with between its scans. -/
inductive Part where
  /-- Attaching to the processes that a scan has found. -/
  | attaching
  /-- A round of the event loop, with its wait for a message. -/
  | waiting
  /-- From a check that finds the deadline over to the scan: arming the timer, reaping the
  workers. -/
  | reaping
  deriving DecidableEq, Repr

/-- The part of the main loop the main thread is in. -/
def MainPc.part : MainPc → Option Part
  | .spawning _ _ => some .attaching
  | .checkingStop | .checkingDuration | .receiving _ | .polling => some .waiting
  | .arming | .reaping _ | .rediscovering => some .reaping
  | _ => none

/-- The main thread has not made its first scan. -/
def MainPc.opening : MainPc → Bool
  | .starting | .timing | .discovering => true
  | _ => false

/-- The main thread visits what a later scan has found. -/
def MainPc.respawning : MainPc → Bool
  | .spawning false _ => true
  | _ => false

/-- A call of `discover::discover`. -/
def Action.isScan : Action → Bool
  | .main (.discover _) => true
  | _ => false

namespace State

section Steps

variable {cfg : Config} {s s' : State} {a : Action}

/-- The check of the timer. -/
def Checks (s : State) (a : Action) : Prop := a = .main .go ∧ s.main = .polling

instance (s : State) (a : Action) : Decidable (s.Checks a) :=
  inferInstanceAs (Decidable (_ ∧ _))

/-- A process that a later scan has found is attached to, or an attempt is made. -/
def Reattaches (s : State) (a : Action) : Prop :=
  ∃ ok pid todo, a = .main (.spawn ok) ∧ s.main = .spawning false (pid :: todo) ∧
    s.table.lookup pid = none

/-- The time since the timer was armed: at a scan, what the reaping has taken. -/
def sinceArmed (cfg : Config) (s : State) : ℕ :=
  s.clock + fromSecs (max cfg.rediscoverSecs 1) - s.nextRediscover

/-- By how much the timer, as it is armed in `e`, was armed after the deadline that `d` has. -/
def late (cfg : Config) (d e : State) : ℕ :=
  e.nextRediscover - fromSecs (max cfg.rediscoverSecs 1) - d.nextRediscover

/-- The time that a step spends in the part `p`. -/
def ticks (p : Part) (s : State) : Action → Option ℕ
  | .tick d => if s.main.part = some p then some d else none
  | _ => none

/-- **A scan is preceded by a check that finds the deadline over.** -/
theorem step_reaping (h : s.step cfg a = some s') (hs : s'.main.part = some .reaping) :
    s.main.part = some .reaping ∨ (s.Checks a ∧ s.nextRediscover ≤ s.clock) := by
  rcases step_parties h with ⟨w, b, rfl, h⟩ | ⟨b, rfl, h⟩ | hevent
  · obtain ⟨y, y', -, -, rfl⟩ := State.workerStep_eq_some h
    exact Or.inl hs
  · cases mainStep_move h with
    | due hpc hle => exact Or.inr ⟨⟨rfl, hpc⟩, hle⟩
    | arm hpc | reaped hpc => exact Or.inl (by rw [hpc]; rfl)
    | reap _ _ hpc => exact Or.inl (by rw [hpc]; rfl)
    | _ => cases hs
  · cases hevent <;> exact Or.inl hs

/-- A check that finds the deadline over leads to a scan: the timer is armed next. -/
theorem step_due (h : s.step cfg a = some s') (hcheck : s.Checks a)
    (hdue : s.nextRediscover ≤ s.clock) : s'.main = .arming := by
  obtain ⟨rfl, hpc⟩ := hcheck
  have hgo : { s with main := MainPc.arming } = s' := by
    simpa [step, mainStep, go, hpc, hdue] using h
  subst hgo
  rfl

/-- The timer is armed before anything else. -/
theorem step_arming (h : s.step cfg a = some s') (hs : s.main = .arming) :
    s'.main = .arming ∨ s'.nextRediscover = s'.clock + fromSecs (max cfg.rediscoverSecs 1) := by
  rcases step_parties h with ⟨w, b, rfl, h⟩ | ⟨b, rfl, h⟩ | hevent
  · obtain ⟨y, y', -, -, rfl⟩ := State.workerStep_eq_some h
    exact Or.inl hs
  · cases mainStep_move h with
    | arm => exact Or.inr rfl
    | _ => simp_all
  · cases hevent <;> exact Or.inl hs

/-- The main thread leaves the reaping through a scan. -/
theorem step_reaping_stays (h : s.step cfg a = some s') (hs : s.main.part = some .reaping)
    (hscan : a.isScan = false) : s'.main.part = some .reaping := by
  rcases step_parties h with ⟨w, b, rfl, h⟩ | ⟨b, rfl, h⟩ | hevent
  · obtain ⟨y, y', -, -, rfl⟩ := State.workerStep_eq_some h
    exact hs
  · cases mainStep_move h with
    | arm | reaped | reap => rfl
    | discoverFails | discover | rediscoverFails | rediscover => cases hscan
    | _ => simp_all [MainPc.part]
  · cases hevent <;> exact hs

/-- A later scan is visited after the reaping. -/
theorem step_respawning (h : s.step cfg a = some s') (hs : s'.main.respawning = true) :
    s.main.respawning = true ∨ s.main.part = some .reaping := by
  rcases step_parties h with ⟨w, b, rfl, h⟩ | ⟨b, rfl, h⟩ | hevent
  · obtain ⟨y, y', -, -, rfl⟩ := State.workerStep_eq_some h
    exact Or.inl hs
  · cases mainStep_move h with
    | rediscover pids hpc => exact Or.inr (by rw [hpc]; rfl)
    | keep _ _ _ hpc => exact Or.inl (by rw [hpc]; rfl)
    | spawnFails first _ _ hpc | spawn first _ _ _ hpc =>
      cases first with
      | true => cases hs
      | false => exact Or.inl (by rw [hpc]; rfl)
    | _ => cases hs
  · cases hevent <;> exact Or.inl hs

/-- Nothing leads back to the first scan. -/
theorem step_opening (h : s.step cfg a = some s') (hs : s'.main.opening = true) :
    s.main.opening = true ∧ a.isScan = false := by
  rcases step_parties h with ⟨w, b, rfl, h⟩ | ⟨b, rfl, h⟩ | hevent
  · obtain ⟨y, y', -, -, rfl⟩ := State.workerStep_eq_some h
    exact ⟨hs, rfl⟩
  · cases mainStep_move h with
    | start hpc | time hpc => exact ⟨by rw [hpc]; rfl, rfl⟩
    | _ => cases hs
  · cases hevent <;> exact ⟨hs, rfl⟩

/-- Only a scan ends what is before the first one. -/
theorem step_opening_stays (h : s.step cfg a = some s') (hs : s.main.opening = true)
    (hscan : a.isScan = false) : s'.main.opening = true := by
  rcases step_parties h with ⟨w, b, rfl, h⟩ | ⟨b, rfl, h⟩ | hevent
  · obtain ⟨y, y', -, -, rfl⟩ := State.workerStep_eq_some h
    exact hs
  · cases mainStep_move h with
    | start | time => rfl
    | discoverFails | discover | rediscoverFails | rediscover => cases hscan
    | _ => simp_all [MainPc.opening]
  · cases hevent <;> exact hs

/-- The main thread enters its loop with the first scan. -/
theorem step_part (h : s.step cfg a = some s') (hs : s'.main.part ≠ none) :
    s.main.part ≠ none ∨ (s.main.opening = true ∧ a.isScan = true) := by
  rcases step_parties h with ⟨w, b, rfl, h⟩ | ⟨b, rfl, h⟩ | hevent
  · obtain ⟨y, y', -, -, rfl⟩ := State.workerStep_eq_some h
    exact Or.inl hs
  · cases mainStep_move h with
    | discover pids hpc => exact Or.inr ⟨by rw [hpc]; rfl, rfl⟩
    | drainTimeout | drainHangUp => exact absurd rfl hs
    | _ => simp_all [MainPc.part]
  · cases hevent <;> exact Or.inl hs

/-- The deadline is set in two places. -/
theorem step_nextRediscover (h : s.step cfg a = some s') :
    s'.nextRediscover = s.nextRediscover ∨
    (s.main = .timing ∧ s'.nextRediscover = s'.clock) ∨
    (s.main = .arming ∧ s'.nextRediscover = s'.clock + fromSecs (max cfg.rediscoverSecs 1)) := by
  rcases step_parties h with ⟨w, b, rfl, h⟩ | ⟨b, rfl, h⟩ | hevent
  · obtain ⟨y, y', -, -, rfl⟩ := State.workerStep_eq_some h
    exact Or.inl rfl
  · cases mainStep_move h with
    | time hpc => exact Or.inr (Or.inl ⟨hpc, rfl⟩)
    | arm hpc => exact Or.inr (Or.inr ⟨hpc, rfl⟩)
    | _ => exact Or.inl rfl
  · cases hevent <;> exact Or.inl rfl

/-- The first scan or a later one: afterwards the main thread visits what was found, or
has failed. -/
theorem step_discover {found : Option (List ℤ)}
    (h : s.step cfg (.main (.discover found)) = some s') :
    (s.main = .discovering ∨ s.main = .rediscovering) ∧ s'.main.opening = false ∧
      s'.main.part ≠ some .reaping ∧ s'.nextRediscover = s.nextRediscover ∧
      s'.clock = s.clock := by
  have hmove : Move cfg s (.discover found) s' := mainStep_move h
  cases hmove with
  | discoverFails hpc => exact ⟨Or.inl hpc, rfl, nofun, rfl, rfl⟩
  | discover _ hpc => exact ⟨Or.inl hpc, rfl, nofun, rfl, rfl⟩
  | rediscoverFails hpc => exact ⟨Or.inr hpc, rfl, nofun, rfl, rfl⟩
  | rediscover _ hpc => exact ⟨Or.inr hpc, rfl, nofun, rfl, rfl⟩

end Steps

end State

/-! ### Time -/

/-- The time that a run from `s` spends in the part `p`. -/
def spent (cfg : Config) (p : Part) (s : State) (as : List Action) : ℕ :=
  (Run.observe (State.step cfg) (State.ticks p) s as).sum

section Time

variable {cfg : Config} {s m s' : State} {as : List Action} {a : Action}

theorem spent_concat (p : Part) (hm : runMulti cfg s as = some m) :
    spent cfg p s (as ++ [a]) = spent cfg p s as + (m.ticks p a).getD 0 := by
  rw [spent, Run.observe_concat hm, List.sum_append, ← spent]
  cases m.ticks p a <;> simp

/-- A scan takes no time. -/
theorem spent_discover (p : Part) {found : Option (List ℤ)}
    (h : s.step cfg (.main (.discover found)) = some m) :
    spent cfg p s (.main (.discover found) :: as) = spent cfg p m as := by
  simp [spent, Run.observe, State.ticks, h]

/-- The time a step of the main loop takes is spent in one of the parts. -/
theorem State.step_ticks (h : m.step cfg a = some s') (hm : m.main.part ≠ none) :
    s'.clock = m.clock + (m.ticks .attaching a).getD 0 + (m.ticks .waiting a).getD 0 +
      (m.ticks .reaping a).getD 0 := by
  obtain ⟨p, hp⟩ := Option.ne_none_iff_exists'.mp hm
  cases a with
  | tick d =>
    obtain rfl := Option.some.inj h
    cases p <;> simp [State.ticks, hp]
  | _ =>
    rcases State.step_clock h with hclock | ⟨d, ha, -⟩
    · exact hclock
    · cases ha

/-- **As long as the main thread is in its loop, its parts take all the time.** -/
theorem clock_eq_spent (hopening : s.main.opening = false) (h : runMulti cfg s as = some m)
    (hm : m.main.part ≠ none) :
    m.clock = s.clock + spent cfg .attaching s as + spent cfg .waiting s as +
      spent cfg .reaping s as := by
  have hrun : m.main.opening = false ∧ (m.main.part ≠ none →
      m.clock = s.clock + spent cfg .attaching s as + spent cfg .waiting s as +
        spent cfg .reaping s as) := by
    refine Run.exec_trace (P := fun as m => m.main.opening = false ∧ (m.main.part ≠ none →
      m.clock = s.clock + spent cfg .attaching s as + spent cfg .waiting s as +
        spent cfg .reaping s as)) ⟨hopening, fun _ => by simp [spent, Run.observe]⟩ ?_ h
    intro as n a m hn ih hstep
    have hopening' : m.main.opening = false := by
      by_contra hm
      have hn := (State.step_opening hstep (Bool.not_eq_false _ ▸ hm)).1
      rw [ih.1] at hn
      cases hn
    refine ⟨hopening', fun hm => ?_⟩
    rcases State.step_part hstep hm with hpart | ⟨hn, -⟩
    · have hclock := ih.2 hpart
      have hstep := State.step_ticks hstep hpart
      simp only [spent_concat _ hn]
      omega
    · rw [ih.1] at hn
      cases hn
  exact hrun.2 hm

end Time

/-! ### Two calls in a row -/

/-- `d` and `e` are the states of two calls of `discover` in the run `as`, and the run
`between`, which begins with the one and ends before the other, has no third. -/
def Consecutive (cfg : Config) (s₀ : State) (as between : List Action) (d e : State) : Prop :=
  ∃ before found mid found' rest,
    as = before ++ between ++ .main (.discover found') :: rest ∧
    between = .main (.discover found) :: mid ∧ (∀ a ∈ mid, a.isScan = false) ∧
    runMulti cfg s₀ before = some d ∧ runMulti cfg d between = some e

/-- The scans of a run honour `--rediscover-secs`: two calls in a row are at least the
period apart, and with a period of zero there is only the first scan, and nothing is
attached to after it. -/
structure Spaced (cfg : Config) (s₀ : State) (as : List Action) : Prop where
  apart : ∀ between d e, Consecutive cfg s₀ as between d e →
    d.clock + fromSecs cfg.rediscoverSecs ≤ e.clock
  never : cfg.rediscoverSecs = 0 → (∀ between d e, ¬ Consecutive cfg s₀ as between d e) ∧
    ¬ Run.Occurs (State.step cfg) s₀ as State.Reattaches

/-- The times that the parts of a run take make up for the way the timer is set.  `first`:
no deadline keeps the second scan from following on the first, so that what delays it is
the time that the main thread is busy.  `later`: the reaping before a scan, which the deadline
does not count, takes no longer than the reaping before the next one and what the check in
between comes late. -/
structure Punctual (cfg : Config) (s₀ : State) (as : List Action) : Prop where
  never : cfg.rediscoverSecs = 0 → ¬ Run.Occurs (State.step cfg) s₀ as State.Checks
  first : ∀ between d e, Consecutive cfg s₀ as between d e → d.main = .discovering →
    fromSecs cfg.rediscoverSecs ≤ spent cfg .attaching d between + spent cfg .waiting d between +
      spent cfg .reaping d between
  later : ∀ between d e, Consecutive cfg s₀ as between d e → d.main = .rediscovering →
    d.sinceArmed cfg ≤ State.late cfg d e + e.sinceArmed cfg

section Consecutive

variable {cfg : Config} {clock : ℕ} {alive : ℤ → Bool} {s₀ d e s : State}
  {as between : List Action}

/-- The second call of the two is not the first of the run. -/
theorem Consecutive.rediscovering (hc : Consecutive cfg s₀ as between d e)
    (h : runMulti cfg s₀ as = some s) : ∃ found mid m, between = .main (.discover found) :: mid ∧
      (∀ a ∈ mid, a.isScan = false) ∧ d.step cfg (.main (.discover found)) = some m ∧
      runMulti cfg m mid = some e ∧ e.main = .rediscovering := by
  obtain ⟨before, found, mid, found', rest, rfl, rfl, hmid, hd, he⟩ := hc
  obtain ⟨m, hscan, hrun⟩ := Option.bind_eq_some_iff.mp he
  have hopening : e.main.opening = false := by
    refine Run.invariant (P := fun n => n.main.opening = false) ?_
      (State.step_discover hscan).2.1 hrun
    intro n a n' hn hstep
    by_contra hn'
    have hopening := (State.step_opening hstep (Bool.not_eq_false _ ▸ hn')).1
    rw [hn] at hopening
    cases hopening
  -- the run to the second call
  have hend : runMulti cfg s₀ (before ++ .main (.discover found) :: mid) = some e := by
    rw [runMulti, Run.exec_append]
    exact Option.bind_eq_some_iff.mpr ⟨d, hd, he⟩
  obtain ⟨n, hn, hrest⟩ := Option.bind_eq_some_iff.mp ((Run.exec_append _ _ _).symm.trans h)
  obtain rfl : e = n := Option.some.inj (hend.symm.trans hn)
  obtain ⟨e', hscan', -⟩ := Option.bind_eq_some_iff.mp hrest
  refine ⟨found, mid, m, rfl, hmid, hscan, hrun, ?_⟩
  rcases (State.step_discover hscan').1 with hpc | hpc
  · rw [hpc] at hopening
    cases hopening
  · exact hpc

/-- **Before a scan the timer is armed after the deadline that was set at the scan before.** -/
theorem Consecutive.deadline_le (hc : Consecutive cfg s₀ as between d e)
    (h : runMulti cfg s₀ as = some s) :
    d.nextRediscover + fromSecs (max cfg.rediscoverSecs 1) ≤ e.nextRediscover := by
  obtain ⟨found, mid, m, rfl, -, hscan, hrun, he⟩ := hc.rediscovering h
  obtain ⟨-, hopening, hpart, hnext, -⟩ := State.step_discover hscan
  -- the main thread waits for the deadline, is about to arm the timer, or has armed it
  have hway : e.main.opening = false ∧
      (e.main.part ≠ some .reaping ∧ e.nextRediscover = m.nextRediscover ∨
        m.nextRediscover ≤ e.clock ∧ (e.main = .arming ∨
          m.nextRediscover + fromSecs (max cfg.rediscoverSecs 1) ≤ e.nextRediscover)) := by
    refine Run.invariant (P := fun e => e.main.opening = false ∧
      (e.main.part ≠ some .reaping ∧ e.nextRediscover = m.nextRediscover ∨
        m.nextRediscover ≤ e.clock ∧ (e.main = .arming ∨
          m.nextRediscover + fromSecs (max cfg.rediscoverSecs 1) ≤ e.nextRediscover)))
      ?_ ⟨hopening, Or.inl ⟨hpart, rfl⟩⟩ hrun
    rintro n a n' ⟨hopening, hn⟩ hstep
    have hle := State.clock_le hstep
    have hopening' : n'.main.opening = false := by
      by_contra hn'
      have hn := (State.step_opening hstep (Bool.not_eq_false _ ▸ hn')).1
      rw [hopening] at hn
      cases hn
    refine ⟨hopening', ?_⟩
    rcases hn with ⟨hpart, hnext⟩ | ⟨hover, harm⟩
    · by_cases hpart' : n'.main.part = some .reaping
      · rcases State.step_reaping hstep hpart' with hreaping | ⟨hcheck, hdue⟩
        · exact absurd hreaping hpart
        · exact Or.inr ⟨by omega, Or.inl (State.step_due hstep hcheck hdue)⟩
      · refine Or.inl ⟨hpart', ?_⟩
        rcases State.step_nextRediscover hstep with heq | ⟨hpc, -⟩ | ⟨hpc, -⟩
        · exact heq.trans hnext
        · rw [hpc] at hopening
          cases hopening
        · rw [hpc] at hpart
          exact absurd rfl hpart
    · refine Or.inr ⟨hover.trans hle, ?_⟩
      rcases harm with hpc | harmed
      · exact (State.step_arming hstep hpc).imp_right fun harmed => by omega
      · rcases State.step_nextRediscover hstep with heq | ⟨hpc, -⟩ | ⟨-, heq⟩
        · exact Or.inr (harmed.trans heq.ge)
        · rw [hpc] at hopening
          cases hopening
        · exact Or.inr (by omega)
  rw [← hnext]
  rcases hway.2 with ⟨hpart, -⟩ | ⟨-, hpc | harmed⟩
  · exact absurd (by rw [he]; rfl) hpart
  · rw [he] at hpc
    cases hpc
  · exact harmed

/-- What passes from one scan to the next is spent in the parts of the main loop. -/
theorem Consecutive.clock_eq (hc : Consecutive cfg s₀ as between d e)
    (h : runMulti cfg s₀ as = some s) :
    e.clock = d.clock + spent cfg .attaching d between + spent cfg .waiting d between +
      spent cfg .reaping d between := by
  obtain ⟨found, mid, m, rfl, -, hscan, hrun, he⟩ := hc.rediscovering h
  obtain ⟨-, hopening, -, -, hclock⟩ := State.step_discover hscan
  rw [spent_discover _ hscan, spent_discover _ hscan, spent_discover _ hscan, ← hclock]
  exact clock_eq_spent hopening hrun (by rw [he]; nofun)

/-- The deadline is never more than a period away. -/
theorem nextRediscover_le (h : runMulti cfg (State.init clock alive) as = some s) :
    s.nextRediscover ≤ s.clock + fromSecs (max cfg.rediscoverSecs 1) := by
  refine Run.invariant (P := fun s : State =>
    s.nextRediscover ≤ s.clock + fromSecs (max cfg.rediscoverSecs 1)) ?_ (Nat.zero_le _) h
  intro m a s hm hstep
  have hle := State.clock_le hstep
  rcases State.step_nextRediscover hstep with heq | ⟨-, heq⟩ | ⟨-, heq⟩ <;> omega

end Consecutive

/-! ### A period of zero -/

section Never

variable {cfg : Config} {clock : ℕ} {alive : ℤ → Bool} {s₀ m s : State} {as : List Action}

/-- Without a check of the timer the main thread is on the way to no scan. -/
theorem not_reaping_of_not_checks (hm : m.main.part ≠ some .reaping)
    (h : runMulti cfg m as = some s) (hno : ¬ Run.Occurs (State.step cfg) m as State.Checks) :
    s.main.part ≠ some .reaping := by
  refine Run.exec_trace (P := fun as s => ¬ Run.Occurs (State.step cfg) m as State.Checks →
    s.main.part ≠ some .reaping) (fun _ => hm) ?_ h hno
  intro as n a s' hn ih hstep hno hs'
  rw [Run.occurs_concat hn, not_or] at hno
  rcases State.step_reaping hstep hs' with hpart | ⟨hcheck, -⟩
  · exact ih hno.1 hpart
  · exact hno.2 hcheck

/-- Without a check no later scan is visited. -/
theorem not_respawning_of_not_checks (h : runMulti cfg (State.init clock alive) as = some s)
    (hno : ¬ Run.Occurs (State.step cfg) (State.init clock alive) as State.Checks) :
    s.main.respawning = false := by
  refine Run.exec_trace (P := fun as s =>
    ¬ Run.Occurs (State.step cfg) (State.init clock alive) as State.Checks →
      s.main.respawning = false) (fun _ => rfl) ?_ h hno
  intro as n a s' hn ih hstep hno
  rw [Run.occurs_concat hn, not_or] at hno
  by_contra hs'
  rcases State.step_respawning hstep (Bool.not_eq_false _ ▸ hs') with hresp | hpart
  · rw [ih hno.1] at hresp
    cases hresp
  · exact not_reaping_of_not_checks (by nofun) hn hno.1 hpart

/-- Two scans of a run follow on one another somewhere. -/
theorem exists_consecutive (h : runMulti cfg s₀ as = some s)
    (hscans : 2 ≤ as.countP Action.isScan) : ∃ between d e, Consecutive cfg s₀ as between d e := by
  -- what is before the first scan, and what is between it and the second
  have hsplit : ∀ bs : List Action, 1 ≤ bs.countP Action.isScan → ∃ pre found post,
      bs = pre ++ .main (.discover found) :: post ∧ (∀ a ∈ pre, a.isScan = false) := by
    intro bs hbs
    obtain ⟨x, hmem, hx⟩ := List.countP_pos_iff.mp hbs
    obtain ⟨a, ha⟩ := Option.isSome_iff_exists.mp (List.find?_isSome.mpr ⟨x, hmem, hx⟩)
    obtain ⟨hscan, pre, post, rfl, hpre⟩ := List.find?_eq_some_iff_append.mp ha
    match a, hscan with
    | .main (.discover found), _ => exact ⟨pre, found, post, rfl, by simpa using hpre⟩
  obtain ⟨before, found, post, rfl, hbefore⟩ := hsplit as (by omega)
  have hnone : before.countP Action.isScan = 0 := by
    rw [List.countP_eq_zero]
    exact fun a ha => Bool.not_eq_true _ ▸ hbefore a ha
  rw [List.countP_append, hnone, List.countP_cons] at hscans
  obtain ⟨mid, found', rest, rfl, hmid⟩ := hsplit post (by
    have : Action.isScan (.main (.discover found)) = true := rfl
    simp only [this, if_true] at hscans
    omega)
  obtain ⟨d, hd, hrest⟩ := Option.bind_eq_some_iff.mp ((Run.exec_append _ _ _).symm.trans h)
  rw [← List.cons_append] at hrest
  obtain ⟨e, he, -⟩ := Option.bind_eq_some_iff.mp ((Run.exec_append _ _ _).symm.trans hrest)
  exact ⟨_, d, e, before, found, mid, found', rest, by simp, rfl, hmid, hd, he⟩

/-- A run with a check scans twice, unless it ends before: the first check finds the
deadline over. -/
theorem two_scans_of_checks (h : runMulti cfg (State.init clock alive) as = some s)
    (hs : s.main.part ≠ some .reaping)
    (hcheck : Run.Occurs (State.step cfg) (State.init clock alive) as State.Checks) :
    2 ≤ as.countP Action.isScan := by
  have hrun : 2 ≤ as.countP Action.isScan ∨
      (s.main.part = some .reaping ∧ 1 ≤ as.countP Action.isScan) ∨
      (¬ Run.Occurs (State.step cfg) (State.init clock alive) as State.Checks ∧
        s.nextRediscover ≤ s.clock ∧
        (s.main.opening = true ∨ 1 ≤ as.countP Action.isScan)) := by
    refine Run.exec_trace (P := fun as s => 2 ≤ as.countP Action.isScan ∨
      (s.main.part = some .reaping ∧ 1 ≤ as.countP Action.isScan) ∨
      (¬ Run.Occurs (State.step cfg) (State.init clock alive) as State.Checks ∧
        s.nextRediscover ≤ s.clock ∧
        (s.main.opening = true ∨ 1 ≤ as.countP Action.isScan))) ?_ ?_ h
    · exact Or.inr (Or.inr ⟨by simp, Nat.zero_le _, Or.inl rfl⟩)
    · intro as m a s' hm ih hstep
      have hcount : as.countP Action.isScan ≤ (as ++ [a]).countP Action.isScan := by
        rw [List.countP_append]
        exact Nat.le_add_right _ _
      have hscan : a.isScan = true →
          (as ++ [a]).countP Action.isScan = as.countP Action.isScan + 1 := by
        intro ha
        rw [List.countP_append, List.countP_singleton, if_pos ha]
      rcases ih with htwo | ⟨hpart, hone⟩ | ⟨hno, hdue, hone⟩
      · exact Or.inl (htwo.trans hcount)
      · cases ha : a.isScan with
        | true => exact Or.inl (by rw [hscan ha]; omega)
        | false =>
          exact Or.inr (Or.inl ⟨State.step_reaping_stays hstep hpart ha, hone.trans hcount⟩)
      · by_cases hcheck : m.Checks a
        · -- the first check
          have hone : 1 ≤ as.countP Action.isScan := by
            refine hone.resolve_left fun hopening => ?_
            rw [hcheck.2] at hopening
            cases hopening
          have hpart : s'.main.part = some .reaping := by
            rw [State.step_due hstep hcheck hdue]
            rfl
          exact Or.inr (Or.inl ⟨hpart, hone.trans hcount⟩)
        · refine Or.inr (Or.inr ⟨?_, ?_, ?_⟩)
          · rw [Run.occurs_concat hm, not_or]
            exact ⟨hno, hcheck⟩
          · have hle := State.clock_le hstep
            rcases State.step_nextRediscover hstep with heq | ⟨-, heq⟩ | ⟨hpc, -⟩
            · omega
            · exact heq.le
            · exact absurd (by rw [hpc]; rfl) (not_reaping_of_not_checks (by nofun) hm hno)
          · cases ha : a.isScan with
            | true => exact Or.inr (by rw [hscan ha]; omega)
            | false =>
              rcases hone with hopening | hone
              · exact Or.inl (State.step_opening_stays hstep hopening ha)
              · exact Or.inr (hone.trans hcount)
  rcases hrun with htwo | ⟨hpart, -⟩ | ⟨hno, -⟩
  · exact htwo
  · exact absurd hpart hs
  · exact absurd hcheck hno

end Never

/-! ### Spacing -/

section Spacing

variable {cfg : Config} {clock : ℕ} {alive : ℤ → Bool} {as : List Action} {s : State}

/-- What a run has before the second of two scans. -/
theorem Consecutive.prefix {s₀ d e : State} {between : List Action}
    (hc : Consecutive cfg s₀ as between d e) :
    ∃ before after, as = before ++ between ++ after ∧ runMulti cfg s₀ before = some d ∧
      runMulti cfg s₀ (before ++ between) = some e := by
  obtain ⟨before, found, mid, found', rest, rfl, -, -, hd, he⟩ := hc
  refine ⟨before, _, rfl, hd, ?_⟩
  rw [runMulti, Run.exec_append]
  exact Option.bind_eq_some_iff.mpr ⟨d, hd, he⟩

/-- The gap between two scans is the deadline, less the reaping before the one and with the
lateness and the reaping before the other. -/
theorem Consecutive.apart_iff {d e : State} {between : List Action}
    (hc : Consecutive cfg (State.init clock alive) as between d e)
    (h : runMulti cfg (State.init clock alive) as = some s) :
    d.clock + fromSecs (max cfg.rediscoverSecs 1) ≤ e.clock ↔
      d.sinceArmed cfg ≤ State.late cfg d e + e.sinceArmed cfg := by
  obtain ⟨before, after, -, hd, he⟩ := hc.prefix
  have hdeadline := hc.deadline_le h
  have hwithin := nextRediscover_le hd
  have hwithin' := nextRediscover_le he
  rw [State.sinceArmed, State.sinceArmed, State.late]
  omega

/-- Without a check there is no second scan, and nothing is attached to after the first. -/
theorem never_of_not_checks (h : runMulti cfg (State.init clock alive) as = some s)
    (hno : ¬ Run.Occurs (State.step cfg) (State.init clock alive) as State.Checks) :
    (∀ between d e, ¬ Consecutive cfg (State.init clock alive) as between d e) ∧
      ¬ Run.Occurs (State.step cfg) (State.init clock alive) as State.Reattaches := by
  constructor
  · intro between d e hc
    obtain ⟨found, mid, m, -, -, -, -, hpc⟩ := hc.rediscovering h
    obtain ⟨before, after, rfl, -, he⟩ := hc.prefix
    refine not_reaping_of_not_checks (by nofun) he (fun hocc => hno (hocc.append _)) ?_
    rw [hpc]
    rfl
  · rintro ⟨pre, a, post, m, rfl, hm, ok, pid, todo, -, hpc, -⟩
    have hresp := not_respawning_of_not_checks hm fun hocc => hno (hocc.append _)
    rw [hpc] at hresp
    cases hresp

theorem spaced_of_punctual (h : runMulti cfg (State.init clock alive) as = some s)
    (hpunctual : Punctual cfg (State.init clock alive) as) :
    Spaced cfg (State.init clock alive) as where
  apart := by
    intro between d e hc
    obtain ⟨found, mid, m, -, -, hscan, -⟩ := hc.rediscovering h
    rcases (State.step_discover hscan).1 with hpc | hpc
    · -- the first scan: the main loop is busy for the period
      have hclock := hc.clock_eq h
      have hfirst := hpunctual.first between d e hc hpc
      omega
    · -- a later scan
      have hgap := (hc.apart_iff h).mpr (hpunctual.later between d e hc hpc)
      have hmax : fromSecs cfg.rediscoverSecs ≤ fromSecs (max cfg.rediscoverSecs 1) :=
        Nat.mul_le_mul_right _ (Nat.le_max_left _ _)
      omega
  never hzero := never_of_not_checks h (hpunctual.never hzero)

theorem punctual_of_spaced (h : runMulti cfg (State.init clock alive) as = some s)
    (hs : s.main.part ≠ some .reaping) (hspaced : Spaced cfg (State.init clock alive) as) :
    Punctual cfg (State.init clock alive) as where
  never := by
    intro hzero hcheck
    obtain ⟨between, d, e, hc⟩ := exists_consecutive h (two_scans_of_checks h hs hcheck)
    exact (hspaced.never hzero).1 between d e hc
  first := by
    intro between d e hc _
    have hclock := hc.clock_eq h
    have hapart := hspaced.apart between d e hc
    omega
  later := by
    intro between d e hc _
    have hapart := hspaced.apart between d e hc
    have hpos : 1 ≤ cfg.rediscoverSecs := by
      by_contra hzero
      exact (hspaced.never (by omega)).1 between d e hc
    rw [← Nat.max_eq_left hpos] at hapart
    exact (hc.apart_iff h).mp hapart

end Spacing

/-! ### Two scans in 50 ms -/

namespace Scenario

/-- As `everySecond`, with `--rediscover-secs 0`. -/
def neverAgain : Config := { everySecond with rediscoverSecs := 0 }

/-- As `everySecond`, with a scan every second. -/
def scanEverySecond : Config := { everySecond with rediscoverSecs := 1 }

/-- To the first scan. -/
def toFirst : List Action := [.main .go, .main .go]

/-- From the first scan, which finds nothing, to the second: one wait for a message. -/
def oneWait (d : ℕ) : List Action :=
  [.main .go, .main .go, .main .go, .tick d, .main .timeout, .main .go, .main .go, .main .go]

/-- Two scans; the wait between them takes `d`. -/
def twoScans (d : ℕ) : List Action :=
  (toFirst ++ .main (.discover (some [])) :: oneWait d) ++
    [.main (.discover (some [100])), .main (.spawn true)]

end Scenario

open Scenario

/-- A list is taken apart at its first scan in one way. -/
theorem takeWhile_not_isScan {pre post : List Action} {a : Action}
    (hpre : ∀ b ∈ pre, b.isScan = false) (ha : a.isScan = true) :
    (pre ++ a :: post).takeWhile (fun b => !b.isScan) = pre := by
  rw [List.takeWhile_append_of_pos (by simpa using hpre), List.takeWhile_cons_of_neg (by simpa),
    List.append_nil]

/-- The two scans are the only ones. -/
theorem Consecutive.twoScans_eq {cfg : Config} {s₀ d e : State} {t : ℕ} {between : List Action}
    (hc : Consecutive cfg s₀ (twoScans t) between d e) :
    between = .main (.discover (some [])) :: oneWait t ∧ runMulti cfg s₀ toFirst = some d := by
  obtain ⟨before, found, mid, found', rest, has, rfl, hmid, hd, -⟩ := hc
  -- there is no scan before the first
  have hbefore : ∀ b ∈ before, b.isScan = false := by
    have hcount := congrArg (List.countP Action.isScan) has
    have htwo : (twoScans t).countP Action.isScan = 2 := rfl
    have hscan : ∀ found, Action.isScan (.main (.discover found)) = true := fun _ => rfl
    rw [htwo] at hcount
    simp only [List.countP_append, List.countP_cons, hscan, if_true] at hcount
    have hzero : before.countP Action.isScan = 0 := by omega
    rw [List.countP_eq_zero] at hzero
    simpa using hzero
  have hfirst : toFirst = before := by
    have htake := congrArg (List.takeWhile fun b => !b.isScan) has
    rw [List.append_assoc, List.cons_append, takeWhile_not_isScan hbefore rfl] at htake
    exact htake
  subst hfirst
  have htail : .main (.discover (some [])) :: (oneWait t ++
      [.main (.discover (some [100])), .main (.spawn true)]) =
      .main (.discover found) :: (mid ++ .main (.discover found') :: rest) := by
    rw [twoScans, List.append_assoc, List.append_assoc] at has
    exact List.append_cancel_left has
  obtain ⟨hfound, hrest⟩ := List.cons.inj htail
  have hwait : oneWait t = mid := by
    have htake := congrArg (List.takeWhile fun b => !b.isScan) hrest
    rw [takeWhile_not_isScan hmid rfl] at htake
    exact htake
  exact ⟨by rw [← hfound, hwait], hd⟩

end PhpFastProfile
