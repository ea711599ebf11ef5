import PhpFastProfile.Lib.Pacing
import PhpFastProfile.Sampler.RunSingle
import PhpFastProfile.Sampler.RunTop
import PhpFastProfile.Sampler.Workers

/-!
# The pace of the sampling loops

The three sampling loops read the clock, sleep until their deadline, move it on by
the interval and, when they find themselves more than four intervals behind it,
set it one interval ahead of the clock.  Only then do they call `capture_stack`, once.
What a loop shows of this is the same in all three, whatever happens around it: it is a
paced loop with a slack of four.

## Main definitions

* `Stage`, `Pacer`, `PaceMove` — what a loop shows of its pacing, and how it changes.
* `PacedLoop` — a system with a paced loop in it, with its readings of the clock.
* `PacingBound` — what the readings keep.

## Main results

* `Pace.keeps_step` — a step of the pacing keeps the readings paced.
* `PacedLoop.bound` — the readings of a paced loop keep their bounds in every run.
* `pacing_bound` — **the sampling loops do not run ahead, and do not catch up.**
-/

namespace PhpFastProfile

/-- Where a sampling loop stands. -/
inductive Stage where
  | pacing (p : Pace)
  /-- In `capture_stack`. -/
  | capturing
  /-- After the return of `capture_stack`, or before its first call. -/
  | between
  /-- Out of the loop. -/
  | over
  deriving DecidableEq, Repr

/-- What a loop shows of its pacing: where it stands, and its deadline. -/
structure Pacer where
  stage : Stage
  next : ℕ

/-- What an action is to a loop. -/
inductive Mark where
  /-- A step of the pacing. -/
  | pace
  /-- The return of `capture_stack`. -/
  | capture
  | other
  deriving DecidableEq, Repr

/-- How a loop changes at the time `clock`; `none` stands for a loop that has no deadline
yet. -/
inductive PaceMove (interval clock : ℕ) : Mark → Option Pacer → Option Pacer → Prop
  | idle (v : Option Pacer) : PaceMove interval clock .other v v
  | begins : PaceMove interval clock .other none (some ⟨.between, clock⟩)
  | enters (next : ℕ) :
    PaceMove interval clock .other (some ⟨.between, next⟩) (some ⟨.pacing .timing, next⟩)
  | paces (p p' : Pace) (next next' : ℕ) (h : p.step interval clock next = some (some p', next')) :
    PaceMove interval clock .pace (some ⟨.pacing p, next⟩) (some ⟨.pacing p', next'⟩)
  | paced (p : Pace) (next next' : ℕ) (h : p.step interval clock next = some (none, next')) :
    PaceMove interval clock .pace (some ⟨.pacing p, next⟩) (some ⟨.capturing, next'⟩)
  | returns (next : ℕ) :
    PaceMove interval clock .capture (some ⟨.capturing, next⟩) (some ⟨.between, next⟩)
  /-- The loop is left, also with a panic. -/
  | leaves (stage : Stage) (next : ℕ) (hstage : stage = .between ∨ stage = .capturing) :
    PaceMove interval clock .other (some ⟨stage, next⟩) (some ⟨.over, next⟩)

/-! ### One round -/

/-- Every later reading comes after an earlier one of its own. -/
def Follows (earlier later : List ℕ) : Prop :=
  ∀ k t : ℕ, later[k]? = some t → ∃ c : ℕ, earlier[k]? = some c ∧ c ≤ t

/-- A later reading is made, no sooner than its earlier one. -/
theorem Follows.later {clock : ℕ} {earlier later : List ℕ} (h : Follows earlier later)
    {c : ℕ} (hc : earlier[later.length]? = some c) (hle : c ≤ clock) :
    Follows earlier (later ++ [clock]) := by
  intro k t ht
  rcases Paced.getElem?_concat ht with ⟨-, ht⟩ | ⟨rfl, rfl⟩
  · exact h k t ht
  · exact ⟨c, hc, hle⟩

theorem Follows.earlier {earlier later : List ℕ} (h : Follows earlier later) (c : ℕ) :
    Follows (earlier ++ [c]) later := by
  intro k t ht
  obtain ⟨c', hc', hle⟩ := h k t ht
  obtain ⟨hlt, -⟩ := List.getElem?_eq_some_iff.mp hc'
  exact ⟨c', by rw [List.getElem?_append_left hlt, hc'], hle⟩

/-- The readings of a loop that began at `start`: a check for each capture, and paced
checks up to the one the loop is just acting on. -/
structure Pacer.Keeps (interval start clock : ℕ) (v : Pacer) (checks captures : List ℕ) : Prop where
  checked : Follows checks captures
  paced : v.stage ≠ .pacing .snapping →
    checks.length = captures.length ∧ Paced interval 4 start checks v.next
  due : v.stage = .pacing .advancing → v.next ≤ clock
  late : v.stage = .pacing .snapping → ∃ earlier check next, checks = earlier ++ [check] ∧
    earlier.length = captures.length ∧ Paced interval 4 start earlier next ∧ next ≤ check ∧
    check ≤ clock

/-- The calls of `capture_stack` and their returns: one call for each, and one more that has
not returned. -/
structure Pacer.Calls (clock : ℕ) (v : Pacer) (captures returns : List ℕ) : Prop where
  returned : Follows captures returns
  inside : v.stage = .capturing → captures.length = returns.length + 1 ∧
    ∃ t, captures[returns.length]? = some t ∧ t ≤ clock
  outside : v.stage ≠ .capturing → v.stage ≠ .over → captures.length = returns.length

/-- The pacing ends: after the last check a capture begins. -/
theorem Pacer.Keeps.begins {interval start clock next check : ℕ} {earlier captures : List ℕ}
    (hchecked : Follows (earlier ++ [check]) captures) (hlen : earlier.length = captures.length)
    (hle : check ≤ clock) (hpaced : Paced interval 4 start (earlier ++ [check]) next) :
    Pacer.Keeps interval start clock ⟨.capturing, next⟩ (earlier ++ [check])
      (captures ++ [clock]) := by
  refine ⟨hchecked.later (c := check) ?_ hle, fun _ => ⟨?_, hpaced⟩, nofun, nofun⟩
  · rw [← hlen, List.getElem?_concat_length]
  · rw [List.length_append, List.length_append, hlen, List.length_singleton,
      List.length_singleton]

/-- Time passes. -/
theorem Pacer.Keeps.tick {interval start clock clock' : ℕ} {v : Pacer} {checks captures : List ℕ}
    (h : v.Keeps interval start clock checks captures) (hle : clock ≤ clock') :
    v.Keeps interval start clock' checks captures := by
  refine ⟨h.checked, h.paced, fun hstage => (h.due hstage).trans hle, fun hstage => ?_⟩
  obtain ⟨earlier, check, next, hchecks, hlen, hpaced, hcheck, hclock⟩ := h.late hstage
  exact ⟨earlier, check, next, hchecks, hlen, hpaced, hcheck, hclock.trans hle⟩

/-- The loop goes to another place that is none of the pacing, or to its beginning. -/
theorem Pacer.Keeps.moves {interval start clock next : ℕ} {stage stage' : Stage}
    {checks captures : List ℕ} (h : Pacer.Keeps interval start clock ⟨stage, next⟩ checks captures)
    (hstage : ∀ p, stage ≠ .pacing p)
    (hstage' : stage' ≠ .pacing .advancing ∧ stage' ≠ .pacing .snapping) :
    Pacer.Keeps interval start clock ⟨stage', next⟩ checks captures :=
  ⟨h.checked, fun _ => h.paced (hstage .snapping), fun heq => absurd heq hstage'.1,
    fun heq => absurd heq hstage'.2⟩

/-- Time passes. -/
theorem Pacer.Calls.tick {clock clock' : ℕ} {v : Pacer} {captures returns : List ℕ}
    (h : v.Calls clock captures returns) (hle : clock ≤ clock') :
    v.Calls clock' captures returns := by
  refine ⟨h.returned, fun hstage => ?_, h.outside⟩
  obtain ⟨hlen, t, ht, hclock⟩ := h.inside hstage
  exact ⟨hlen, t, ht, hclock.trans hle⟩

/-- The loop neither calls `capture_stack` nor returns from it. -/
theorem Pacer.Calls.moves {clock : ℕ} {v v' : Pacer} {captures returns : List ℕ}
    (h : v.Calls clock captures returns) (hout : v'.stage ≠ .capturing)
    (hin : v'.stage ≠ .over → v.stage ≠ .capturing ∧ v.stage ≠ .over) :
    v'.Calls clock captures returns :=
  ⟨h.returned, fun hstage => absurd hstage hout,
    fun _ hover => h.outside (hin hover).1 (hin hover).2⟩

/-- `capture_stack` is called. -/
theorem Pacer.Calls.calls {clock next next' : ℕ} {p : Pace} {captures returns : List ℕ}
    (h : Pacer.Calls clock ⟨.pacing p, next⟩ captures returns) :
    Pacer.Calls clock ⟨.capturing, next'⟩ (captures ++ [clock]) returns := by
  have hlen : captures.length = returns.length := h.outside nofun nofun
  refine ⟨h.returned.earlier clock, fun _ => ⟨?_, clock, ?_, le_rfl⟩, fun hout => absurd rfl hout⟩
  · rw [List.length_append, hlen, List.length_singleton]
  · rw [← hlen, List.getElem?_concat_length]

/-- `capture_stack` returns. -/
theorem Pacer.Calls.returns {clock next : ℕ} {captures returns : List ℕ}
    (h : Pacer.Calls clock ⟨.capturing, next⟩ captures returns) :
    Pacer.Calls clock ⟨.between, next⟩ captures (returns ++ [clock]) := by
  obtain ⟨hlen, t, ht, hle⟩ := h.inside rfl
  refine ⟨h.returned.later ht hle, nofun, fun _ _ => ?_⟩
  rw [hlen, List.length_append, List.length_singleton]

/-- **A step of the pacing keeps the readings paced.**  The check of the clock is the
step from `advancing`, and a capture begins where the pacing ends. -/
theorem Pace.keeps_step {interval start clock next next' : ℕ} {p : Pace} {p' : Option Pace}
    {checks captures : List ℕ} (h : p.step interval clock next = some (p', next'))
    (hk : Pacer.Keeps interval start clock ⟨.pacing p, next⟩ checks captures) :
    Pacer.Keeps interval start clock ⟨(p'.map .pacing).getD .capturing, next'⟩
      (checks ++ if p = .advancing then [clock] else [])
      (captures ++ if p' = none then [clock] else []) := by
  cases p with
  | timing =>
    obtain ⟨rfl, rfl⟩ := Prod.mk.inj (Option.some.inj h)
    obtain ⟨hlen, hpaced⟩ := hk.paced nofun
    simp only [reduceCtorEq, if_false, List.append_nil]
    refine ⟨hk.checked, fun _ => ⟨hlen, hpaced⟩, fun hpos => ?_, fun hpos => ?_⟩
    · -- the loop does not sleep when the deadline is over
      by_contra hlt
      rw [if_pos (Nat.lt_of_not_le hlt)] at hpos
      cases hpos
    · split at hpos <;> cases hpos
  | sleeping =>
    simp only [Pace.step] at h
    split at h
    · next hle =>
      obtain ⟨rfl, rfl⟩ := Prod.mk.inj (Option.some.inj h)
      obtain ⟨hlen, hpaced⟩ := hk.paced nofun
      simp only [reduceCtorEq, if_false, List.append_nil]
      exact ⟨hk.checked, fun _ => ⟨hlen, hpaced⟩, fun _ => hle, nofun⟩
    · cases h
  | advancing =>
    obtain ⟨hp', rfl⟩ := Prod.mk.inj (Option.some.inj h)
    obtain ⟨hlen, hpaced⟩ := hk.paced nofun
    have hdue : next ≤ clock := hk.due rfl
    have hchecked := hk.checked.earlier clock
    by_cases hlate : next + interval + interval * 4 < clock
    · -- too late: the deadline is set anew in the next step
      rw [if_pos hlate] at hp'
      subst hp'
      simp only [reduceCtorEq, if_false, if_true, List.append_nil]
      exact ⟨hchecked, fun hpos => absurd rfl hpos, nofun,
        fun _ => ⟨checks, clock, next, rfl, hlen, hpaced, hdue, le_rfl⟩⟩
    · rw [if_neg hlate] at hp'
      subst hp'
      simp only [if_true]
      apply Pacer.Keeps.begins hchecked hlen le_rfl
      apply hpaced.round hdue le_rfl
      show clock ≤ next + interval + 4 * interval
      omega
  | snapping =>
    obtain ⟨rfl, rfl⟩ := Prod.mk.inj (Option.some.inj h)
    obtain ⟨earlier, check, next₀, rfl, hlen, hpaced, hcheck, hclock⟩ := hk.late rfl
    simp only [reduceCtorEq, if_false, if_true, List.append_nil]
    apply Pacer.Keeps.begins hk.checked hlen hclock
    show Paced interval 4 start _ (clock + interval)
    exact hpaced.round hcheck (by omega) (by omega)

/-! ### Loops -/

/-- A system with a paced loop in it. -/
structure PacedLoop (σ α : Type) where
  step : σ → α → Option σ
  clock : σ → ℕ
  /-- What the loop shows of its pacing; nothing before it has set its deadline. -/
  view : σ → Option Pacer
  /-- What an action is to the loop. -/
  mark : α → Mark

namespace PacedLoop

variable {σ α : Type}

/-- The clock reading the deadline is initialised with. -/
def begins (L : PacedLoop σ α) (s : σ) (a : α) : Option ℕ :=
  match L.view s, (L.step s a).bind L.view with
  | none, some _ => some (L.clock s)
  | _, _ => none

/-- The clock reading that is compared with `next + interval * 4`. -/
def checks (L : PacedLoop σ α) (s : σ) (a : α) : Option ℕ :=
  match L.mark a, L.view s with
  | .pace, some ⟨.pacing .advancing, _⟩ => some (L.clock s)
  | _, _ => none

/-- Whether the loop is in `capture_stack`. -/
def inside (v : Option Pacer) : Bool := v.any fun v => v.stage = .capturing

/-- The time at which `capture_stack` is called. -/
def captures (L : PacedLoop σ α) (s : σ) (a : α) : Option ℕ :=
  if !inside (L.view s) && inside ((L.step s a).bind L.view) then some (L.clock s) else none

/-- The time at which `capture_stack` returns. -/
def returns (L : PacedLoop σ α) (s : σ) (a : α) : Option ℕ :=
  if L.mark a = .capture then some (L.clock s) else none

/-- The loop paces itself: its steps are moves of the pacing. -/
structure Paces (L : PacedLoop σ α) (interval : ℕ) : Prop where
  clock_le : ∀ {s a s'}, L.step s a = some s' → L.clock s ≤ L.clock s'
  move : ∀ {s a s'}, L.step s a = some s' →
    PaceMove interval (L.clock s) (L.mark a) (L.view s) (L.view s')

end PacedLoop

/-- What the clock readings of a paced loop keep: the one it began with, those of its
checks, and those at which it calls `capture_stack` and at which these calls return. -/
structure PacingBound (interval : ℕ) (begins checks captures returns : List ℕ) : Prop where
  /-- A loop begins once, before its first check. -/
  begun : begins.length ≤ 1 ∧ (checks ≠ [] → begins ≠ [])
  /-- Each capture comes after a check of its own, and one check at most is ahead. -/
  paired : Follows checks captures ∧ checks.length ≤ captures.length + 1
  /-- Each return is that of a call of its own. -/
  returned : Follows captures returns
  /-- The `k`-th capture begins no sooner than `k` intervals after the start. -/
  captures : ∀ start ∈ begins, ∀ k t : ℕ, captures[k]? = some t → start + k * interval ≤ t
  /-- The checks of captures `k` and `k + m` are at least `m - 5` intervals apart. -/
  checks : ∀ k m c c' : ℕ, 1 ≤ m → checks[k]? = some c → checks[k + m]? = some c' →
    c + m * interval ≤ c' + 5 * interval

/-- The readings of a loop that keeps its pace are bounded. -/
theorem Pacer.Keeps.bound {interval start clock : ℕ} {v : Pacer} {checks captures returns : List ℕ}
    (h : v.Keeps interval start clock checks captures) (hcalls : v.Calls clock captures returns) :
    PacingBound interval [start] checks captures returns := by
  -- on the way to a late deadline, the last check is not yet paced
  have hpaced : ∃ next, Paced interval 4 start checks next ∧
      checks.length ≤ captures.length + 1 := by
    by_cases hstage : v.stage = .pacing .snapping
    · obtain ⟨earlier, check, next, rfl, hlen, hpaced, hcheck, -⟩ := h.late hstage
      refine ⟨_, hpaced.round hcheck (Nat.add_le_add_right hcheck interval) (by omega), ?_⟩
      rw [List.length_append, List.length_singleton]
      omega
    · obtain ⟨hlen, hpaced⟩ := h.paced hstage
      exact ⟨_, hpaced, by omega⟩
  obtain ⟨next, hpaced, hlen⟩ := hpaced
  refine ⟨⟨le_rfl, fun _ => by simp⟩, ⟨h.checked, hlen⟩, hcalls.returned, ?_, ?_⟩
  · intro s hs k t ht
    obtain rfl := List.mem_singleton.mp hs
    obtain ⟨c, hc, hle⟩ := h.checked k t ht
    exact (hpaced.check_ge hc).trans hle
  · intro k m c c' _ hc hc'
    exact hpaced.checks_apart hc hc'

namespace PacedLoop

variable {σ α : Type} {L : PacedLoop σ α} {interval : ℕ}

/-- What a run of a paced loop knows: nothing before it has begun, then readings that
keep the pace. -/
def Knows (interval : ℕ) (clock : ℕ) (view : Option Pacer)
    (begins checks captures returns : List ℕ) : Prop :=
  match view with
  | none => begins = [] ∧ checks = [] ∧ captures = [] ∧ returns = []
  | some v => ∃ start, begins = [start] ∧ v.Keeps interval start clock checks captures ∧
    v.Calls clock captures returns

theorem knows_step (hL : L.Paces interval) {s s' : σ} {a : α}
    {begins checks captures returns : List ℕ} (h : L.step s a = some s')
    (hk : Knows interval (L.clock s) (L.view s) begins checks captures returns) :
    Knows interval (L.clock s') (L.view s') (begins ++ (L.begins s a).toList)
      (checks ++ (L.checks s a).toList) (captures ++ (L.captures s a).toList)
      (returns ++ (L.returns s a).toList) := by
  have hle := hL.clock_le h
  have hmove := hL.move h
  unfold PacedLoop.begins PacedLoop.checks PacedLoop.captures PacedLoop.returns
  rw [h, Option.bind_some]
  revert hmove hk
  generalize L.view s = v, L.view s' = v', L.mark a = mark
  intro hk hmove
  cases hmove with
  | idle =>
    cases v with
    | none => simpa [Knows, inside] using hk
    | some v =>
      obtain ⟨start, rfl, hkeeps, hcalls⟩ := hk
      refine ⟨start, by simp, ?_, ?_⟩
      · simpa [inside] using hkeeps.tick hle
      · simpa [inside] using hcalls.tick hle
  | begins =>
    obtain ⟨rfl, rfl, rfl, rfl⟩ := hk
    refine ⟨L.clock s, rfl, ?_, ?_⟩
    · exact ⟨nofun, fun _ => ⟨rfl, .init⟩, nofun, nofun⟩
    · exact ⟨nofun, nofun, fun _ _ => rfl⟩
  | enters next =>
    obtain ⟨start, rfl, hkeeps, hcalls⟩ := hk
    have hkeeps' : Pacer.Keeps interval start (L.clock s) ⟨.pacing .timing, next⟩ checks captures :=
      hkeeps.moves nofun ⟨nofun, nofun⟩
    have hcalls' : Pacer.Calls (L.clock s) ⟨.pacing .timing, next⟩ captures returns :=
      hcalls.moves nofun fun _ => ⟨nofun, nofun⟩
    exact ⟨start, by simp, by simpa [inside] using hkeeps'.tick hle,
      by simpa [inside] using hcalls'.tick hle⟩
  | paces p p' next next' hp =>
    obtain ⟨start, rfl, hkeeps, hcalls⟩ := hk
    have hkeeps' := (Pace.keeps_step hp hkeeps).tick hle
    have hcalls' : Pacer.Calls (L.clock s) ⟨.pacing p', next'⟩ captures returns :=
      hcalls.moves nofun fun _ => ⟨nofun, nofun⟩
    exact ⟨start, by simp, by cases p <;> simpa [inside] using hkeeps',
      by simpa [inside] using hcalls'.tick hle⟩
  | paced p next next' hp =>
    obtain ⟨start, rfl, hkeeps, hcalls⟩ := hk
    have hkeeps' := (Pace.keeps_step hp hkeeps).tick hle
    have hcalls' : Pacer.Calls (L.clock s) ⟨.capturing, next'⟩ (captures ++ [L.clock s]) returns :=
      hcalls.calls
    exact ⟨start, by simp, by cases p <;> simpa [inside] using hkeeps',
      by simpa [inside] using hcalls'.tick hle⟩
  | returns next =>
    obtain ⟨start, rfl, hkeeps, hcalls⟩ := hk
    have hkeeps' : Pacer.Keeps interval start (L.clock s) ⟨.between, next⟩ checks captures :=
      hkeeps.moves nofun ⟨nofun, nofun⟩
    exact ⟨start, by simp, by simpa [inside] using hkeeps'.tick hle,
      by simpa [inside] using hcalls.returns.tick hle⟩
  | leaves stage next hstage =>
    obtain ⟨start, rfl, hkeeps, hcalls⟩ := hk
    have hnone : ∀ p, stage ≠ .pacing p := by
      rintro p rfl
      rcases hstage with h | h <;> cases h
    have hkeeps' : Pacer.Keeps interval start (L.clock s) ⟨.over, next⟩ checks captures :=
      hkeeps.moves hnone ⟨nofun, nofun⟩
    have hcalls' : Pacer.Calls (L.clock s) ⟨.over, next⟩ captures returns :=
      hcalls.moves nofun fun hover => absurd rfl hover
    exact ⟨start, by simp, by simpa [inside] using hkeeps'.tick hle,
      by simpa [inside] using hcalls'.tick hle⟩

/-- **The readings of a paced loop keep their bounds in every run.** -/
theorem bound (hL : L.Paces interval) {s₀ : σ} (hs₀ : L.view s₀ = none) {as : List α} {s : σ}
    (h : Run.exec L.step s₀ as = some s) :
    PacingBound interval (Run.observe L.step L.begins s₀ as) (Run.observe L.step L.checks s₀ as)
      (Run.observe L.step L.captures s₀ as) (Run.observe L.step L.returns s₀ as) := by
  have hknows : Knows interval (L.clock s) (L.view s) (Run.observe L.step L.begins s₀ as)
      (Run.observe L.step L.checks s₀ as) (Run.observe L.step L.captures s₀ as)
      (Run.observe L.step L.returns s₀ as) := by
    refine Run.exec_trace (P := fun as s => Knows interval (L.clock s) (L.view s)
      (Run.observe L.step L.begins s₀ as) (Run.observe L.step L.checks s₀ as)
      (Run.observe L.step L.captures s₀ as) (Run.observe L.step L.returns s₀ as)) ?_ ?_ h
    · rw [hs₀]
      exact ⟨rfl, rfl, rfl, rfl⟩
    · intro as m a s' hm ih hstep
      rw [Run.observe_concat hm, Run.observe_concat hm, Run.observe_concat hm,
        Run.observe_concat hm]
      exact knows_step hL hstep ih
  cases hview : L.view s with
  | none =>
    rw [hview] at hknows
    obtain ⟨hbegins, hchecks, hcaptures, hreturns⟩ := hknows
    rw [hbegins, hchecks, hcaptures, hreturns]
    exact ⟨by simp, ⟨nofun, by simp⟩, nofun, by simp, by simp⟩
  | some v =>
    rw [hview] at hknows
    obtain ⟨start, hbegins, hkeeps, hcalls⟩ := hknows
    rw [hbegins]
    exact hkeeps.bound hcalls

end PacedLoop

/-! ### The loop of `Sampler::run` -/

namespace Single

/-- What `Sampler::run` shows of its pacing. -/
def State.pacer (s : State) : Option Pacer :=
  match s.pc with
  | .starting | .timing => none
  | .pacing p => some ⟨.pacing p, s.next⟩
  | .capturing => some ⟨.capturing, s.next⟩
  | .finishing | .returned _ => some ⟨.over, s.next⟩
  | .checkingStop | .checkingDuration | .describing _ | .writing _ _ | .probing =>
    some ⟨.between, s.next⟩

/-- What an action is to the loop. -/
def Action.mark : Action → Mark
  | .pace => .pace
  | .capture _ => .capture
  | _ => .other

/-- The loop of `Sampler::run`. -/
def loop (cfg : Config) : PacedLoop State Action where
  step := step cfg
  clock := State.clock
  view := State.pacer
  mark := Action.mark

theorem loop_paces (cfg : Config) : (loop cfg).Paces cfg.interval where
  clock_le := by
    intro s a s' h
    cases step_move h with
    | tick d => exact Nat.le_add_right s.clock d
    | _ => exact le_rfl
  move := by
    intro s a s' h
    show PaceMove cfg.interval s.clock a.mark s.pacer s'.pacer
    cases step_move h with
    | tick | interrupt | target => exact .idle s.pacer
    | time hpc =>
      rw [State.pacer, hpc]
      exact .begins
    | waits hpc =>
      rw [State.pacer, hpc]
      exact .enters s.next
    | paces p p' next hpc hpace =>
      rw [State.pacer, hpc]
      exact .paces p p' s.next next hpace
    | paced p next hpc hpace =>
      rw [State.pacer, hpc]
      exact .paced p s.next next hpace
    | captureFails hpc =>
      rw [State.pacer, hpc]
      exact .returns s.next
    | drops frames hpc | captures frames hpc =>
      rw [State.pacer, hpc]
      exact .returns s.next
    | stopped hpc | expired hpc | gone hpc =>
      rw [State.pacer, hpc]
      exact .leaves .between s.next (.inl rfl)
    | writes frames info hpc | writeFails frames info hpc | describes _ _ frames hpc =>
      rw [State.pacer, hpc]
      exact .idle _
    | finish ok hpc =>
      rw [State.pacer, hpc]
      exact .idle _
    | start hpc | goesOn hpc | alive hpc =>
      rw [State.pacer, hpc]
      exact .idle _

end Single

/-! ### The loops of `run_top` -/

namespace Top

/-- What a sampling thread of `run_top` shows of its pacing. -/
def Sampler.pacer (x : Sampler) : Option Pacer :=
  match x.pc with
  | .attaching | .unattached | .starting => none
  | .pacing p => some ⟨.pacing p, x.next⟩
  | .capturing => some ⟨.capturing, x.next⟩
  | .done => some ⟨.over, x.next⟩
  | .checking | .sending _ | .probing => some ⟨.between, x.next⟩

/-- What an action is to the loop of the thread. -/
def SamplerAction.mark : SamplerAction → Mark
  | .pace => .pace
  | .capture _ => .capture
  | _ => .other

/-- A step of a thread is a move of its pacing. -/
theorem Sampler.step_paces {cfg : Config} {s : State} {x x' : Sampler} {a : SamplerAction}
    (h : x.step cfg s a = some x') :
    PaceMove cfg.interval s.clock a.mark x.pacer x'.pacer := by
  unfold Sampler.step at h
  split at h
  case h_1 ok hpc =>
    obtain rfl := Option.some.inj h
    rw [pacer, hpc]
    cases ok <;> exact .idle _
  case h_2 hpc =>
    obtain rfl := Option.some.inj h
    rw [pacer, hpc]
    exact .begins
  case h_3 hpc =>
    obtain rfl := Option.some.inj h
    rw [pacer, hpc]
    cases hstop : s.stop with
    | true => exact .leaves .between x.next (.inl rfl)
    | false => exact .enters x.next
  case h_4 p hpc =>
    obtain ⟨⟨p', next⟩, hpace, rfl⟩ := Option.map_eq_some_iff.mp h
    rw [pacer, hpc]
    cases p' with
    | none => exact .paced p x.next next hpace
    | some p' => exact .paces p p' x.next next hpace
  case h_5 hpc =>
    obtain rfl := Option.some.inj h
    rw [pacer, hpc]
    exact .returns x.next
  case h_6 frames hpc =>
    obtain rfl := Option.some.inj h
    rw [pacer, hpc]
    cases hkeep : !frames.isEmpty && !leafIsAny frames cfg.dropLeaf <;>
      simpa [pacer, hkeep, SamplerAction.mark] using PaceMove.returns x.next
  case h_7 frames hpc =>
    rw [pacer, hpc]
    split at h
    · exact Option.some.inj h ▸ .idle _
    · exact Option.some.inj h ▸ .leaves .between x.next (.inl rfl)
  case h_8 hpc =>
    obtain rfl := Option.some.inj h
    rw [pacer, hpc]
    cases hpid : s.pidExists x.pid with
    | true =>
      simpa [pacer, hpid, SamplerAction.mark] using
        PaceMove.idle (some (Pacer.mk .between x.next))
    | false =>
      simpa [pacer, hpid, SamplerAction.mark] using
        PaceMove.leaves .between x.next (.inl rfl)
  case h_9 hpc =>
    obtain rfl := Option.some.inj h
    rw [pacer, hpc]
    exact .idle _
  case h_10 hpc =>
    obtain rfl := Option.some.inj h
    rw [pacer, hpc]
    exact .leaves .capturing x.next (.inr rfl)
  case h_11 => cases h

/-- What an action is to the loop of the thread `i`. -/
def Action.mark (i : ℕ) : Action → Mark
  | .sampler j a => if j = i then a.mark else .other
  | _ => .other

/-- The loop of the thread `i`. -/
def loop (cfg : Config) (i : ℕ) : PacedLoop State Action where
  step := step cfg
  clock := State.clock
  view s := (s.samplers[i]?).bind Sampler.pacer
  mark := Action.mark i

theorem loop_paces (cfg : Config) (i : ℕ) : (loop cfg i).Paces cfg.interval where
  clock_le := by
    intro s a s' h
    change step cfg s a = some s' at h
    cases a with
    | tick d => exact Option.some.inj h ▸ Nat.le_add_right s.clock d
    | sampler j b =>
      obtain ⟨x, -, h⟩ := Option.bind_eq_some_iff.mp h
      obtain ⟨x', -, rfl⟩ := Option.map_eq_some_iff.mp h
      exact le_rfl
    | _ => exact Option.some.inj h ▸ le_rfl
  move := by
    intro s a s' h
    change step cfg s a = some s' at h
    cases a with
    | sampler j b =>
      obtain ⟨x, hx, h⟩ := Option.bind_eq_some_iff.mp h
      obtain ⟨x', hstep, rfl⟩ := Option.map_eq_some_iff.mp h
      show PaceMove cfg.interval s.clock (if j = i then b.mark else .other)
        ((s.samplers[i]?).bind Sampler.pacer) (((s.samplers.set j x')[i]?).bind Sampler.pacer)
      by_cases hji : j = i
      · subst hji
        obtain ⟨hlt, -⟩ := List.getElem?_eq_some_iff.mp hx
        rw [if_pos rfl, List.getElem?_set_self hlt, hx]
        exact Sampler.step_paces hstep
      · rw [if_neg hji, List.getElem?_set_ne hji]
        exact .idle _
    | _ => exact Option.some.inj h ▸ .idle ((s.samplers[i]?).bind Sampler.pacer)

end Top

/-! ### The loops of the workers of `run_multi` -/

/-- What a worker of `run_multi` shows of its pacing. -/
def Worker.pacer (x : Worker) : Option Pacer :=
  match x.pc with
  | .starting => none
  | .pacing p => some ⟨.pacing p, x.next⟩
  | .capturing => some ⟨.capturing, x.next⟩
  | .exiting | .done => some ⟨.over, x.next⟩
  | .checking | .probing | .describing _ | .sending _ => some ⟨.between, x.next⟩

/-- What an action is to the loop of the worker. -/
def WorkerAction.mark : WorkerAction → Mark
  | .pace => .pace
  | .capture _ => .capture
  | _ => .other

/-- A step of a worker is a move of its pacing. -/
theorem Worker.step_paces {cfg : Config} {env : Surroundings} {x x' : Worker} {a : WorkerAction}
    (h : x.step cfg env a = some x') :
    PaceMove cfg.interval env.clock a.mark x.pacer x'.pacer := by
  cases step_move h with
  | start hpc =>
    rw [pacer, hpc]
    exact .begins
  | goesOn hpc =>
    rw [pacer, hpc]
    exact .enters x.next
  | paces p p' next hpc hpace =>
    rw [pacer, hpc]
    exact .paces p p' x.next next hpace
  | paced p next hpc hpace =>
    rw [pacer, hpc]
    exact .paced p x.next next hpace
  | captureFails hpc =>
    rw [pacer, hpc]
    exact .returns x.next
  | drops frames hpc | captures frames hpc =>
    rw [pacer, hpc]
    exact .returns x.next
  | panics hpc =>
    rcases hpc with hpc | ⟨frames, hpc⟩
    · rw [pacer, hpc]
      exact .leaves .capturing x.next (.inr rfl)
    · rw [pacer, hpc]
      exact .leaves .between x.next (.inl rfl)
  | describes _ _ frames hpc =>
    rw [pacer, hpc]
    exact .idle _
  | sends msg hpc =>
    rw [pacer, hpc]
    exact .idle _
  | sendFails msg hpc =>
    rw [pacer, hpc]
    exact .leaves .between x.next (.inl rfl)
  | stopped hpc | gone hpc =>
    rw [pacer, hpc]
    exact .leaves .between x.next (.inl rfl)
  | alive hpc | finish hpc =>
    rw [pacer, hpc]
    exact .idle _

/-- What an action is to the loop of the worker `w`. -/
def Action.mark (w : ℕ) : Action → Mark
  | .worker v a => if v = w then a.mark else .other
  | _ => .other

theorem Action.mark_of_other {w : ℕ} {a : Action} (hother : ∀ b, a ≠ .worker w b) :
    a.mark w = .other := by
  cases a with
  | worker v b =>
    rw [mark, if_neg]
    rintro rfl
    exact hother b rfl
  | _ => rfl

/-- The loop of the worker `w`. -/
def State.loop (cfg : Config) (w : ℕ) : PacedLoop State Action where
  step := State.step cfg
  clock := State.clock
  view s := (s.workers[w]?).bind Worker.pacer
  mark := Action.mark w

theorem State.loop_paces (cfg : Config) (w : ℕ) : (State.loop cfg w).Paces cfg.interval where
  clock_le := State.clock_le
  move := by
    intro s a s' h
    change s.step cfg a = some s' at h
    show PaceMove cfg.interval s.clock (a.mark w)
      ((s.workers[w]?).bind Worker.pacer) ((s'.workers[w]?).bind Worker.pacer)
    cases hx : s.workers[w]? with
    | some x =>
      obtain ⟨x', hx', hc⟩ := step_worker h hx
      rw [hx']
      cases hc with
      | rests _ hother =>
        rw [Action.mark_of_other hother]
        exact .idle x.pacer
      | steps b x' hstep =>
        have hpaces : PaceMove cfg.interval s.clock b.mark x.pacer x'.pacer :=
          Worker.step_paces hstep
        simpa [Action.mark] using hpaces
      | received => exact .idle x.pacer
      | signalled => exact .idle x.pacer
    | none =>
      have hother : ∀ b, a ≠ .worker w b := by
        rintro b rfl
        obtain ⟨x, hx', -⟩ := Option.bind_eq_some_iff.mp h
        rw [hx] at hx'
        cases hx'
      rw [Action.mark_of_other hother]
      cases hx' : s'.workers[w]? with
      | none => exact .idle none
      | some x' =>
        -- a new worker has no deadline yet
        rcases worker_of_step h hx' with ⟨x, hx₀, -⟩ | ⟨first, pid, todo, attached, -, rfl⟩
        · rw [hx] at hx₀
          cases hx₀
        · exact .idle none

/-- **Pacing.**  In every run of `Sampler::run`, of every thread of `run_top` and of
every worker of `run_multi`, each call of `capture_stack` has a pacing of its own; the
calls do not run ahead of the interval and the pacing checks do not catch up for a stall. -/
theorem pacing_bound (cfg : Config) :
    (∀ clock as s, Single.run cfg (Single.init clock) as = some s →
      PacingBound cfg.interval
        (Run.observe (Single.step cfg) (Single.loop cfg).begins (Single.init clock) as)
        (Run.observe (Single.step cfg) (Single.loop cfg).checks (Single.init clock) as)
        (Run.observe (Single.step cfg) (Single.loop cfg).captures (Single.init clock) as)
        (Run.observe (Single.step cfg) (Single.loop cfg).returns (Single.init clock) as)) ∧
    (∀ clock present pids as s, Top.run cfg (Top.init clock present pids) as = some s → ∀ i,
      PacingBound cfg.interval
        (Run.observe (Top.step cfg) (Top.loop cfg i).begins (Top.init clock present pids) as)
        (Run.observe (Top.step cfg) (Top.loop cfg i).checks (Top.init clock present pids) as)
        (Run.observe (Top.step cfg) (Top.loop cfg i).captures (Top.init clock present pids) as)
        (Run.observe (Top.step cfg) (Top.loop cfg i).returns (Top.init clock present pids) as)) ∧
    (∀ clock alive as s, runMulti cfg (State.init clock alive) as = some s → ∀ w,
      PacingBound cfg.interval
        (Run.observe (State.step cfg) (State.loop cfg w).begins (State.init clock alive) as)
        (Run.observe (State.step cfg) (State.loop cfg w).checks (State.init clock alive) as)
        (Run.observe (State.step cfg) (State.loop cfg w).captures (State.init clock alive) as)
        (Run.observe (State.step cfg) (State.loop cfg w).returns (State.init clock alive) as)) := by
  refine ⟨fun clock as s h => ?_, fun clock present pids as s h i => ?_,
    fun clock alive as s h w => ?_⟩
  · exact PacedLoop.bound (Single.loop_paces cfg) rfl h
  · refine PacedLoop.bound (Top.loop_paces cfg i) ?_ h
    show ((pids.map Top.Sampler.spawned)[i]?).bind Top.Sampler.pacer = none
    rw [List.getElem?_map]
    cases pids[i]? <;> rfl
  · exact PacedLoop.bound (State.loop_paces cfg w) rfl h

end PhpFastProfile
