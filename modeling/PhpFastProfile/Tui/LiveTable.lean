import PhpFastProfile.Sampler.Delivery
import PhpFastProfile.Tui.RunLoop

/-!
# What the live display shows

The display receives stacks, draws, and reacts to keys, in whatever order the threads, the
clock and the user bring about.  Every drawing is of the stacks received since the last
reset, and no two drawings are closer than the tick.  Nothing is lost on the way from the
threads; when the display ends because they have hung up, everything they sent has been
recorded.

## Main definitions

* `shownStacks`, `sortsInclusive` — the stacks of a log since the last reset, and the sort mode.
* `Drawn.Shows` — a drawing is of these stacks.
* `State.chan` — the channel of a state.

## Main results

* `run_draws` — **every drawing shows the stacks received since the last reset.**
* `run_records` — **what is received is what is sent, all of it after a hang-up.**
* `run_restores` — when the terminal is not restored.
-/

namespace PhpFastProfile
namespace Live

/-! ### The log -/

/-- The call of the aggregator that the entry records. -/
def Entry.op : Entry → Option Aggregator.Op
  | .recorded _ now frames => some (.record now frames)
  | .reset now => some (.reset now)
  | _ => none

/-- A stack with the thread it is from. -/
def Entry.got : Entry → Option (ℕ × List Frame)
  | .recorded i _ frames => some (i, frames)
  | _ => none

/-- The clock of a draw. -/
def Entry.drawnAt : Entry → Option ℕ
  | .drew x => some x.clock
  | _ => none

/-- The entry is a change of the sort order. -/
def Entry.toggles : Entry → Bool
  | .toggled => true
  | _ => false

/-- The calls on the table. -/
def ops (log : List Entry) : List Aggregator.Op := log.filterMap Entry.op

/-- The stacks received since the last reset. -/
def shownStacks (log : List Entry) : List (List Frame) := Aggregator.sinceReset (ops log)

/-- The rows are sorted by the inclusive counts at first, and again after every second toggle. -/
def sortsInclusive (log : List Entry) : Bool := log.countP Entry.toggles % 2 == 0

/-- The drawing shows the stacks of the log: of the rows that count them, as many of the
highest as the area has lines between its borders. -/
structure Drawn.Shows (x : Drawn) (log : List Entry) : Prop where
  /-- An empty table counts as one sample. -/
  total : x.total = max (shownStacks log).length 1
  mode : x.byInclusive = sortsInclusive log
  rows : ∃ rows, Aggregator.RowsCount rows ((shownStacks log).map Aggregator.renderedNames) ∧
    TopBy.IsTop (fun row : Aggregator.RowEntry => row.2.sortKey x.byInclusive) (x.height - 2)
      rows.entries x.rows

/-- The clock at a drawing, and the height of its area. -/
def Entry.area : Entry → Option (ℕ × ℕ)
  | .drew x => some (x.clock, x.height)
  | _ => none

/-- The same, told from the action. -/
def State.area (s : State) : Action → Option (ℕ × ℕ)
  | .display (.draw _ height) => some (s.top.clock, height)
  | _ => none

theorem ops_concat (log : List Entry) (e : Entry) : ops (log ++ [e]) = ops log ++ e.op.toList := by
  rw [ops, List.filterMap_append]
  cases h : e.op <;> simp [ops, h]

theorem sortsInclusive_concat (log : List Entry) (e : Entry) :
    sortsInclusive (log ++ [e]) = (sortsInclusive log ^^ e.toggles) := by
  unfold sortsInclusive
  rw [List.countP_append]
  cases h : e.toggles
  · simp [h]
  · have hone : [e].countP Entry.toggles = 1 := by simp [h]
    rw [hone]
    rcases Nat.mod_two_eq_zero_or_one (log.countP Entry.toggles) with hm | hm <;>
      simp [Nat.add_mod, hm]

/-! ### The table -/

/-- What the display holds and has drawn, told from the log. -/
structure Told (s : State) : Prop where
  agg : s.agg = Aggregator.run (ops s.log)
  mode : s.byInclusive = sortsInclusive s.log
  draws : ∀ log x, log ++ [.drew x] <+: s.log → x.Shows log

/-- A step that writes nothing. -/
theorem Told.same {m s : State} (h : Told m) (hagg : s.agg = m.agg)
    (hmode : s.byInclusive = m.byInclusive) (hlog : s.log = m.log) : Told s :=
  ⟨by rw [hagg, hlog, h.agg], by rw [hmode, hlog, h.mode], by rw [hlog]; exact h.draws⟩

/-- A step that writes one entry. -/
theorem Told.concat {m s : State} (h : Told m) (e : Entry) (hlog : s.log = m.log ++ [e])
    (hagg : s.agg = e.op.toList.foldl Aggregator.step m.agg)
    (hmode : s.byInclusive = (m.byInclusive ^^ e.toggles))
    (hdraw : ∀ x, e = .drew x → x.Shows m.log) : Told s := by
  refine ⟨?_, by rw [hmode, hlog, sortsInclusive_concat, h.mode], ?_⟩
  · rw [hagg, hlog, ops_concat, h.agg, Aggregator.run, Aggregator.run, List.foldl_append]
  · intro log x hpre
    rw [hlog, List.prefix_concat_iff] at hpre
    rcases hpre with heq | hpre
    · obtain ⟨rfl, he⟩ := List.append_inj' heq rfl
      exact hdraw x (List.singleton_inj.mp he).symm
    · exact h.draws log x hpre

/-- A drawing shows what the display holds. -/
theorem Told.shows {m : State} (h : Told m) (order : AList.IterOrder Aggregator.RowEntry)
    (height : ℕ) : (m.drawn order height).Shows m.log := by
  obtain ⟨hsamples, hrows⟩ := Aggregator.counts_run (ops m.log)
  refine ⟨?_, h.mode, (Aggregator.run (ops m.log)).rows, hrows, ?_⟩
  · change max m.agg.samples 1 = _
    rw [h.agg, hsamples]
    rfl
  · change TopBy.IsTop _ _ _ (m.agg.topRows order m.byInclusive (height - 2))
    rw [h.agg]
    exact TopBy.isTop_take_sortDesc _ (order.perm _) _

/-! ### Steps -/

/-- A step is a move of the display, a step of a thread, or one that touches neither. -/
theorem step_parties {cfg : Config} {m s : State} {a : Action} (h : step cfg m a = some s) :
    (∃ b, a = .display b ∧ Move m b s) ∨
    (∃ i b x x', a = .top (.sampler i b) ∧ m.top.samplers[i]? = some x ∧
      x.step cfg m.top b = some x' ∧
      s = { m with
        top := { m.top with samplers := m.top.samplers.set i x' }
        queue := m.enqueue i x b }) ∨
    (∃ b top, a = .top b ∧ (∀ i b', b ≠ .sampler i b') ∧ s = { m with top } ∧
      top.samplers = m.top.samplers ∧ top.receiver = m.top.receiver ∧
      m.top.clock ≤ top.clock) := by
  cases a with
  | display b => exact Or.inl ⟨b, rfl, displayStep_move h⟩
  | top b =>
    cases b with
    | sampler i b =>
      obtain ⟨x, hx, h⟩ := Option.bind_eq_some_iff.mp h
      obtain ⟨x', hstep, rfl⟩ := Option.map_eq_some_iff.mp h
      exact Or.inr (Or.inl ⟨i, b, x, x', rfl, hx, hstep, rfl⟩)
    | quit => cases h
    | tick d =>
      obtain rfl := Option.some.inj h
      exact Or.inr (Or.inr ⟨.tick d, _, rfl, by simp, rfl, rfl, rfl, Nat.le_add_right _ d⟩)
    | interrupt =>
      obtain rfl := Option.some.inj h
      exact Or.inr (Or.inr ⟨.interrupt, _, rfl, by simp, rfl, rfl, rfl, le_rfl⟩)
    | process pid present =>
      obtain rfl := Option.some.inj h
      exact Or.inr (Or.inr ⟨.process pid present, _, rfl, by simp, rfl, rfl, rfl, le_rfl⟩)

theorem told_move {m s : State} {a : DisplayAction} (hm : Told m) (h : Move m a s) : Told s := by
  cases h with
  | recv i frames rest hpc hqueue =>
    exact hm.concat (.recorded i m.top.clock frames) rfl rfl (by simp [Entry.toggles]) (by simp)
  | draw order height hpc =>
    refine hm.concat (.drew (m.drawn order height)) rfl rfl (by simp [Entry.toggles]) ?_
    rintro x ⟨rfl⟩
    exact hm.shows order height
  | toggle hpc => exact hm.concat .toggled rfl rfl (by simp [Entry.toggles]) (by simp)
  | reset hpc => exact hm.concat (.reset m.top.clock) rfl rfl (by simp [Entry.toggles]) (by simp)
  | _ => exact hm.same rfl rfl rfl

theorem told_step {cfg : Config} {m s : State} {a : Action} (hm : Told m)
    (h : step cfg m a = some s) : Told s := by
  rcases step_parties h with ⟨b, -, hmove⟩ | ⟨i, b, x, x', -, -, -, rfl⟩ |
    ⟨b, top, -, -, rfl, -⟩
  · exact told_move hm hmove
  · exact hm.same rfl rfl rfl
  · exact hm.same rfl rfl rfl

/-! ### The tick -/

/-- Before the loop. -/
def Pc.before : Pc → Bool
  | .enabling => true
  | .entering => true
  | .opening => true
  | .starting => true
  | _ => false

/-- The readings of the clock at the drawings. -/
def draws (log : List Entry) : List ℕ := log.filterMap Entry.drawnAt

theorem draws_concat (log : List Entry) (e : Entry) :
    draws (log ++ [e]) = draws log ++ e.drawnAt.toList := by
  rw [draws, List.filterMap_append]
  cases h : e.drawnAt <;> simp [draws, h]

/-- The drawings are a tick apart, and the next one will be as well. -/
structure Spaced (s : State) : Prop where
  apart : (draws s.log).Pairwise fun a b => a + TICK ≤ b
  past : ∀ a ∈ draws s.log, a ≤ s.top.clock ∧ (s.pc ≠ .stamping → (a : ℤ) ≤ s.lastDraw)
  fresh : s.pc.before = true → draws s.log = []
  due : s.pc = .drawing → s.lastDraw + TICK ≤ s.top.clock

/-- A step that neither draws nor comes to draw. -/
theorem Spaced.same {m s : State} (h : Spaced m) (hdraws : draws s.log = draws m.log)
    (hclock : m.top.clock ≤ s.top.clock)
    (hlast : s.lastDraw = m.lastDraw) (hpc : m.pc = .stamping → s.pc = .stamping)
    (hbefore : s.pc.before = true → m.pc.before = true)
    (hdue : s.pc = .drawing → m.pc = .drawing) : Spaced s := by
  refine ⟨by rw [hdraws]; exact h.apart, fun a ha => ?_, fun hb => ?_, fun hd => ?_⟩
  · rw [hdraws] at ha
    obtain ⟨hle, hle'⟩ := h.past a ha
    refine ⟨hle.trans hclock, fun hne => ?_⟩
    rw [hlast]
    exact hle' fun hm => hne (hpc hm)
  · rw [hdraws]
    exact h.fresh (hbefore hb)
  · rw [hlast]
    have := h.due (hdue hd)
    omega

theorem spaced_move {m s : State} {a : DisplayAction} (hm : Spaced m) (h : Move m a s) :
    Spaced s := by
  cases h with
  | draw order height hpc =>
    have hlog : draws (m.log ++ [.drew (m.drawn order height)]) = draws m.log ++ [m.top.clock] :=
      draws_concat _ _
    have hdue := hm.due hpc
    refine ⟨?_, fun a ha => ?_, by simp [Pc.before], by simp⟩
    · rw [hlog, List.pairwise_append]
      refine ⟨hm.apart, List.pairwise_singleton _ _, fun a ha b hb => ?_⟩
      obtain rfl := List.mem_singleton.mp hb
      have := (hm.past a ha).2 (by simp [hpc])
      omega
    · rw [hlog, List.mem_append, List.mem_singleton] at ha
      refine ⟨?_, by simp⟩
      rcases ha with ha | rfl
      · exact (hm.past a ha).1
      · exact le_rfl
  | due hpc hle =>
    refine ⟨hm.apart, fun a ha => ?_, by simp [Pc.before], fun _ => by dsimp only; omega⟩
    obtain ⟨hclock, hlast⟩ := hm.past a ha
    exact ⟨hclock, fun _ => hlast (by simp [hpc])⟩
  | stamp hpc =>
    refine ⟨hm.apart, fun a ha => ?_, by simp [Pc.before], by simp⟩
    obtain ⟨hclock, -⟩ := hm.past a ha
    exact ⟨hclock, fun _ => by dsimp only; omega⟩
  | start hpc =>
    have hnone : draws m.log = [] := hm.fresh (by rw [hpc]; rfl)
    refine ⟨hm.apart, fun a ha => ?_, by simp [Pc.before], by simp⟩
    rw [show draws _ = [] from hnone] at ha
    cases ha
  | recv i frames rest hpc hqueue =>
    refine hm.same ?_ le_rfl rfl (by simp [hpc]) (by simp [hpc, Pc.before]) (by simp [hpc])
    exact (draws_concat _ _).trans (List.append_nil _)
  | toggle hpc | reset hpc =>
    refine hm.same ?_ le_rfl rfl (by simp [hpc]) (by simp [Pc.before]) (by simp)
    exact (draws_concat _ _).trans (List.append_nil _)
  | enable hpc | enter hpc | openTerminal hpc =>
    exact hm.same rfl le_rfl rfl (by simp [hpc]) (by simp [hpc, Pc.before]) (by simp)
  | enableFails hpc | enterFails hpc | openFails hpc | stopped hpc | goesOn hpc | empty hpc
  | disconnected hpc | notDue hpc | drawFails hpc | pollFails deadline hpc | ready deadline hpc
  | timeout deadline hpc | readFails hpc | quit e hpc | ignore e hpc | disable ok e hpc
  | leave ok e hpc | showCursor e hpc =>
    exact hm.same rfl le_rfl rfl (by simp [hpc]) (by simp [State.close, Pc.before])
      (by simp [State.close])

theorem spaced_step {cfg : Config} {m s : State} {a : Action} (hm : Spaced m)
    (h : step cfg m a = some s) : Spaced s := by
  rcases step_parties h with ⟨b, -, hmove⟩ | ⟨i, b, x, x', -, -, -, rfl⟩ |
    ⟨b, top, -, -, rfl, -, -, hclock⟩
  · exact spaced_move hm hmove
  · exact hm.same rfl le_rfl rfl id id id
  · exact hm.same rfl hclock rfl id id id

/-- An action that draws is logged, and no other. -/
theorem step_area {cfg : Config} {m s : State} {a : Action} (h : step cfg m a = some s) :
    s.log.filterMap Entry.area = m.log.filterMap Entry.area ++ (m.area a).toList := by
  rcases step_parties h with ⟨b, rfl, hmove⟩ | ⟨i, b, x, x', rfl, -, -, rfl⟩ |
    ⟨b, top, rfl, -, rfl, -⟩
  · cases hmove with
    | draw | recv | toggle | reset =>
      dsimp only
      rw [List.filterMap_append]
      rfl
    | _ => exact (List.append_nil _).symm
  · exact (List.append_nil _).symm
  · exact (List.append_nil _).symm

section Draws

variable {cfg : Config} {clock : ℕ} {present : ℤ → Bool} {pids : List ℤ} {as : List Action}
  {s : State}

theorem run_told (h : run cfg (init clock present pids) as = some s) : Told s := by
  refine Run.invariant (P := Told) (fun _ _ _ hm hstep => told_step hm hstep) ⟨rfl, rfl, ?_⟩ h
  intro log x hpre
  simp [init] at hpre

theorem run_spaced (h : run cfg (init clock present pids) as = some s) : Spaced s := by
  refine Run.invariant (P := Spaced) (fun _ _ _ hm hstep => spaced_step hm hstep) ?_ h
  exact ⟨List.Pairwise.nil, by simp [init, draws], fun _ => rfl, by simp [init]⟩

theorem run_area (h : run cfg (init clock present pids) as = some s) :
    s.log.filterMap Entry.area =
      Run.observe (step cfg) State.area (init clock present pids) as := by
  refine Run.exec_trace (P := fun as s => s.log.filterMap Entry.area =
    Run.observe (step cfg) State.area (init clock present pids) as) rfl ?_ h
  intro as m a s hm ih hstep
  rw [step_area hstep, ih, Run.observe_concat hm]

end Draws

/-! ### The channel -/

/-- What the thread `i` has sent. -/
def State.sentBy (s : State) (i : ℕ) : List (List Frame) :=
  (s.top.samplers[i]?).elim [] Top.Sampler.sent

/-- The channel of a state: an entry of the log stands for the receipt of its stack. -/
def State.chan (s : State) : Channel (List Frame) where
  sent := s.sentBy
  queue := s.queue
  got := s.log.filterMap Entry.got

/-- A step of a thread sends one stack, or it leaves the channel alone. -/
theorem samplerStep_sent {cfg : Config} {s : State} {i : ℕ} {x x' : Top.Sampler}
    {a : Top.SamplerAction} (h : x.step cfg s.top a = some x') :
    (x'.sent = x.sent ∧ s.enqueue i x a = s.queue) ∨
    ∃ frames, x'.sent = x.sent ++ [frames] ∧
      s.enqueue i x a = Function.update s.queue i (s.queue i ++ [frames]) := by
  unfold Top.Sampler.step at h
  split at h
  case h_4 =>
    obtain ⟨y, -, rfl⟩ := Option.map_eq_some_iff.mp h
    exact Or.inl ⟨rfl, rfl⟩
  case h_7 frames hpc =>
    split at h
    · next hrx =>
      refine Or.inr ⟨frames, Option.some.inj h ▸ rfl, ?_⟩
      simp [State.enqueue, hpc, hrx]
    · next hrx =>
      refine Or.inl ⟨Option.some.inj h ▸ rfl, ?_⟩
      simp [State.enqueue, hpc, hrx]
  case h_11 => cases h
  all_goals exact Or.inl ⟨Option.some.inj h ▸ rfl, rfl⟩

theorem step_chan {cfg : Config} {m s : State} {a : Action} (h : step cfg m a = some s) :
    Channel.Step m.chan s.chan := by
  rcases step_parties h with ⟨b, -, hmove⟩ | ⟨i, b, x, x', -, hx, hstep, rfl⟩ |
    ⟨b, top, -, -, rfl, hsamplers, -⟩
  · cases hmove with
    | recv i frames rest hpc hqueue =>
      have hchan := Channel.Step.recv (c := m.chan) i frames rest hqueue
      have hsame : m.chan.recv i frames rest = State.chan { m with
          queue := Function.update m.queue i rest
          agg := m.agg.record m.top.clock frames
          log := m.log ++ [.recorded i m.top.clock frames] } := by
        unfold Channel.recv State.chan
        rw [List.filterMap_append]
        rfl
      rwa [hsame] at hchan
    | draw order height hpc | toggle hpc | reset hpc =>
      unfold State.chan
      rw [List.filterMap_append]
      simp only [Entry.got, List.filterMap_cons, List.filterMap_nil, List.append_nil]
      exact Channel.Step.idle
    | _ => exact Channel.Step.idle
  · have hset : State.sentBy { m with
        top := { m.top with samplers := m.top.samplers.set i x' }
        queue := m.enqueue i x b } = Function.update m.sentBy i x'.sent :=
      PhpFastProfile.State.elim_set hx x' [] Top.Sampler.sent
    have hold : m.sentBy i = x.sent := by
      unfold State.sentBy
      rw [hx]
      rfl
    unfold State.chan
    rw [hset]
    rcases samplerStep_sent (i := i) hstep with ⟨hsent, hqueue⟩ | ⟨frames, hsent, hqueue⟩
    · rw [hsent, ← hold, Function.update_eq_self, hqueue]
      exact Channel.Step.idle
    · rw [hsent, ← hold, hqueue]
      exact Channel.Step.send i frames
  · have hsame : State.chan { m with top } = m.chan := by
      unfold State.chan State.sentBy
      rw [hsamplers]
    rw [hsame]
    exact Channel.Step.idle

/-! ### The hang-up -/

/-- `run_loop` has seen that the threads have hung up. -/
def Pc.hungUp : Pc → Bool
  | .disabling e => e = .disconnected
  | .leaving e => e = .disconnected
  | .showing e => e = .disconnected
  | .returned e => e = .disconnected
  | _ => false

/-- A finished thread takes no step. -/
theorem samplerStep_finished {cfg : Config} {t : Top.State} {x : Top.Sampler}
    {a : Top.SamplerAction}
    (h : (x.pc = .done || x.pc = .unattached) = true) : x.step cfg t a = none := by
  have hpc : x.pc = .done ∨ x.pc = .unattached := by simpa using h
  unfold Top.Sampler.step
  rcases hpc with hpc | hpc <;> rw [hpc]
  · cases a with
    | capture frames => cases frames <;> rfl
    | _ => rfl
  · cases a with
    | capture frames => cases frames <;> rfl
    | _ => rfl

/-- Behind the hang-up the threads are finished, and nothing is in the channel. -/
def Drained (s : State) : Prop :=
  s.pc.hungUp = true → s.hungUp = true ∧ s.quiet = true

theorem drained_move {m s : State} {a : DisplayAction} (hm : Drained m) (h : Move m a s) :
    Drained s := by
  cases h with
  | disconnected hpc hquiet hup => exact fun _ => ⟨hup, hquiet⟩
  | disable ok e hpc => exact fun hs => hm (by rw [hpc]; exact hs)
  | leave ok e hpc => exact fun hs => hm (by rw [hpc]; exact hs)
  | showCursor e hpc => exact fun hs => hm (by rw [hpc]; exact hs)
  | recv i frames rest hpc => exact fun hs => by simp [Pc.hungUp, hpc] at hs
  | _ => exact fun hs => by simp [Pc.hungUp, State.close] at hs

theorem drained_step {cfg : Config} {m s : State} {a : Action} (hm : Drained m)
    (h : step cfg m a = some s) : Drained s := by
  rcases step_parties h with ⟨b, -, hmove⟩ | ⟨i, b, x, x', -, hx, hstep, rfl⟩ |
    ⟨b, top, -, -, rfl, hsamplers, -⟩
  · exact drained_move hm hmove
  · intro hs
    have hdone := List.all_eq_true.mp (hm hs).1 x (List.mem_of_getElem? hx)
    rw [samplerStep_finished hdone] at hstep
    cases hstep
  · intro hs
    have hdone := hm hs
    unfold State.hungUp State.quiet at hdone ⊢
    rw [hsamplers]
    exact hdone

section Records

variable {cfg : Config} {clock : ℕ} {present : ℤ → Bool} {pids : List ℤ} {as : List Action}
  {s : State}

theorem run_conserves (h : run cfg (init clock present pids) as = some s) : s.chan.Conserved := by
  refine Run.invariant (P := fun s : State => s.chan.Conserved)
    (fun _ _ _ hm hstep => (step_chan hstep).conserved hm) (fun i => ?_) h
  change [] = ((pids.map Top.Sampler.spawned)[i]?).elim [] Top.Sampler.sent
  rw [List.getElem?_map]
  cases pids[i]? <;> rfl

theorem run_drained (h : run cfg (init clock present pids) as = some s) : Drained s :=
  Run.invariant (P := Drained) (fun _ _ _ hm hstep => drained_step hm hstep)
    (fun hs => by simp [init, Pc.hungUp] at hs) h

/-- Nothing is sent by a thread that does not exist. -/
theorem queue_eq_nil (hc : s.chan.Conserved) {i : ℕ} (hi : s.top.samplers.length ≤ i) :
    s.queue i = [] := by
  have hnone : s.sentBy i = [] := by
    unfold State.sentBy
    rw [List.getElem?_eq_none hi]
    rfl
  have hsent : s.chan.gotFrom i ++ s.queue i = s.sentBy i := hc i
  rw [hnone] at hsent
  exact (List.append_eq_nil_iff.mp hsent).2

/-- Nothing waits when the channel is quiet. -/
theorem queue_of_quiet (hc : s.chan.Conserved) (hquiet : s.quiet = true) (i : ℕ) :
    s.queue i = [] := by
  by_cases hi : i < s.top.samplers.length
  · simpa using List.all_eq_true.mp hquiet i (List.mem_range.mpr hi)
  · exact queue_eq_nil hc (Nat.le_of_not_lt hi)

/-- **What the display records of a thread is what the thread sends, in order, and the rest of
it waits in the channel**; and what it has recorded is what the table holds.  When the display
has ended because the threads have hung up, they are all finished, and nothing is left. -/
theorem run_records (h : run cfg (init clock present pids) as = some s) :
    (∀ i, s.chan.gotFrom i ++ s.queue i = s.sentBy i) ∧ s.agg = Aggregator.run (ops s.log) ∧
      (s.pc.hungUp = true → s.hungUp = true ∧ ∀ i, s.chan.gotFrom i = s.sentBy i) := by
  have hc := run_conserves h
  refine ⟨hc, (run_told h).agg, fun hend => ?_⟩
  obtain ⟨hup, hquiet⟩ := run_drained h hend
  exact ⟨hup, hc.delivered_iff.mpr (queue_of_quiet hc hquiet)⟩

end Records

/-! ### The terminal -/

/-- A call of the display fails somewhere in the run. -/
def Fails (as : List Action) (a : DisplayAction) : Prop := .display a ∈ as

/-- Whether the terminal is in raw mode, told from the calls that have failed. -/
def RawAt (as : List Action) : Pc → Prop
  | .enabling => False
  | .unopened => Fails as (.enter false) ∨ Fails as (.openTerminal false)
  | .leaving _ => Fails as (.disable false)
  | .showing _ => Fails as (.disable false)
  | .returned _ => Fails as (.disable false)
  | _ => True

/-- Whether it shows the alternate screen. -/
def AlternateAt (as : List Action) : Pc → Prop
  | .enabling => False
  | .entering => False
  | .unopened => Fails as (.openTerminal false)
  | .showing _ => Fails as (.leave false)
  | .returned _ => Fails as (.leave false)
  | _ => True

/-- `disable_raw_mode()` has been called. -/
def Pc.disabled : Pc → Bool
  | .leaving _ => true
  | .showing _ => true
  | .returned _ => true
  | _ => false

/-- `LeaveAlternateScreen` has been written. -/
def Pc.left : Pc → Bool
  | .showing _ => true
  | .returned _ => true
  | _ => false

/-- What a run knows of the terminal. -/
structure TerminalTold (as : List Action) (s : State) : Prop where
  raw : s.raw = true ↔ RawAt as s.pc
  alternate : s.alternate = true ↔ AlternateAt as s.pc
  enter : Fails as (.enter false) → s.pc = .unopened
  openTerminal : Fails as (.openTerminal false) → s.pc = .unopened
  disable : Fails as (.disable false) → s.pc.disabled = true
  leave : Fails as (.leave false) → s.pc.left = true

theorem fails_concat (as : List Action) (a : Action) (b : DisplayAction) :
    Fails (as ++ [a]) b ↔ Fails as b ∨ .display b = a := by
  unfold Fails
  rw [List.mem_append, List.mem_singleton]

/-- The terminal is taken over and not given back: in the loop, and just before and after it. -/
def Pc.inLoop : Pc → Bool
  | .starting => true
  | .checkingStop => true
  | .receiving => true
  | .timing => true
  | .drawing => true
  | .stamping => true
  | .polling _ => true
  | .reading => true
  | .disabling _ => true
  | _ => false

/-- In the loop everything is on, and no call has failed. -/
theorem terminalTold_inLoop {as : List Action} {s : State} (hpc : s.pc.inLoop = true) :
    TerminalTold as s ↔ s.raw = true ∧ s.alternate = true ∧ ¬ Fails as (.enter false) ∧
      ¬ Fails as (.openTerminal false) ∧ ¬ Fails as (.disable false) ∧
        ¬ Fails as (.leave false) := by
  have hplace : (RawAt as s.pc ↔ True) ∧ (AlternateAt as s.pc ↔ True) ∧ s.pc ≠ .unopened ∧
      s.pc.disabled = false ∧ s.pc.left = false := by
    revert hpc
    cases s.pc <;> simp [Pc.inLoop, RawAt, AlternateAt, Pc.disabled, Pc.left]
  obtain ⟨hraw, halt, hopened, hdisabled, hleft⟩ := hplace
  constructor
  · intro hm
    refine ⟨hm.raw.mpr (hraw.mpr trivial), hm.alternate.mpr (halt.mpr trivial),
      fun h => hopened (hm.enter h), fun h => hopened (hm.openTerminal h), fun h => ?_, fun h => ?_⟩
    · rw [hm.disable h] at hdisabled
      cases hdisabled
    · rw [hm.leave h] at hleft
      cases hleft
  · rintro ⟨hon, hon', henter, hopen, hdisable, hleave⟩
    exact ⟨iff_of_true hon (hraw.mpr trivial), iff_of_true hon' (halt.mpr trivial),
      fun h => absurd h henter, fun h => absurd h hopen, fun h => absurd h hdisable,
      fun h => absurd h hleave⟩

/-- A move of the loop changes nothing about the terminal. -/
theorem TerminalTold.loops {as : List Action} {m s : State} {a : DisplayAction}
    (hm : TerminalTold as m) (hpc : m.pc.inLoop = true) (hpc' : s.pc.inLoop = true)
    (hraw : s.raw = m.raw) (halt : s.alternate = m.alternate)
    (ha : a ≠ .enter false ∧ a ≠ .openTerminal false ∧ a ≠ .disable false ∧ a ≠ .leave false) :
    TerminalTold (as ++ [.display a]) s := by
  have hkeep : ∀ b, a ≠ b → (Fails (as ++ [.display a]) b ↔ Fails as b) := by
    intro b hne
    rw [fails_concat]
    exact or_iff_left fun heq => hne (Action.display.inj heq).symm
  rw [terminalTold_inLoop hpc] at hm
  rw [terminalTold_inLoop hpc', hraw, halt, hkeep _ ha.1, hkeep _ ha.2.1, hkeep _ ha.2.2.1,
    hkeep _ ha.2.2.2]
  exact hm

theorem terminalTold_move {as : List Action} {m s : State} {a : DisplayAction}
    (hm : TerminalTold as m) (h : Move m a s) : TerminalTold (as ++ [.display a]) s := by
  have hloop : m.pc.inLoop = true → s.pc.inLoop = true → s.raw = m.raw →
      s.alternate = m.alternate →
      a ≠ .enter false ∧ a ≠ .openTerminal false ∧ a ≠ .disable false ∧ a ≠ .leave false →
      TerminalTold (as ++ [.display a]) s :=
    fun hpc hpc' hraw halt ha => hm.loops hpc hpc' hraw halt ha
  cases h with
  | enable hpc | enableFails hpc | enter hpc | enterFails hpc | openTerminal hpc | openFails hpc
  | disable ok e hpc | leave ok e hpc | showCursor e hpc =>
    -- the calls that take the terminal over and give it back
    obtain ⟨hraw, halt, henter, hopen, hdisable, hleave⟩ := hm
    constructor <;>
      simp_all [fails_concat, RawAt, AlternateAt, Pc.disabled, Pc.left, State.close]
  | recv i frames rest hpc =>
    exact hloop (by rw [hpc]; rfl) (by dsimp only; rw [hpc]; rfl) rfl rfl (by simp)
  | start hpc | stopped hpc | goesOn hpc | empty hpc | disconnected hpc | due hpc | notDue hpc
  | draw order height hpc | drawFails hpc | stamp hpc | pollFails deadline hpc | ready deadline hpc
  | timeout deadline hpc | readFails hpc | quit e hpc | toggle hpc | reset hpc | ignore e hpc =>
    exact hloop (by rw [hpc]; rfl) rfl rfl rfl (by simp)

theorem terminalTold_step {cfg : Config} {as : List Action} {m s : State} {a : Action}
    (hm : TerminalTold as m) (h : step cfg m a = some s) : TerminalTold (as ++ [a]) s := by
  have hother : ∀ b, (∀ c, a ≠ .display c) → (Fails (as ++ [a]) b ↔ Fails as b) := by
    intro b hne
    rw [fails_concat]
    exact or_iff_left fun heq => hne b heq.symm
  have hsame : s.raw = m.raw → s.alternate = m.alternate → s.pc = m.pc → (∀ c, a ≠ .display c) →
      TerminalTold (as ++ [a]) s := by
    intro hraw halt hpc hne
    obtain ⟨hraw', halt', henter, hopen, hdisable, hleave⟩ := hm
    constructor <;> rw [hpc]
    · rw [hraw, hraw']
      cases m.pc <;> simp [RawAt, hother _ hne]
    · rw [halt, halt']
      cases m.pc <;> simp [AlternateAt, hother _ hne]
    · exact fun hf => henter ((hother _ hne).mp hf)
    · exact fun hf => hopen ((hother _ hne).mp hf)
    · exact fun hf => hdisable ((hother _ hne).mp hf)
    · exact fun hf => hleave ((hother _ hne).mp hf)
  rcases step_parties h with ⟨b, rfl, hmove⟩ | ⟨i, b, x, x', rfl, -, -, rfl⟩ |
    ⟨b, top, rfl, -, rfl, -⟩
  · exact terminalTold_move hm hmove
  · exact hsame rfl rfl rfl (by simp)
  · exact hsame rfl rfl rfl (by simp)

/-- `tui::run` has returned. -/
def Pc.hasReturned : Pc → Bool
  | .returned _ => true
  | .unopened => true
  | _ => false

/-- **When the terminal is not restored.**  `tui::run` leaves the terminal in raw mode exactly
when the alternate screen or the backend could not be set up, or raw mode could not be
disabled; and it leaves the alternate screen on when the backend could not be set up, or the
screen could not be left. -/
theorem run_restores {cfg : Config} {clock : ℕ} {present : ℤ → Bool} {pids : List ℤ}
    {as : List Action} {s : State} (h : run cfg (init clock present pids) as = some s)
    (hret : s.pc.hasReturned = true) :
    (s.raw = true ↔
        Fails as (.enter false) ∨ Fails as (.openTerminal false) ∨ Fails as (.disable false)) ∧
      (s.alternate = true ↔ Fails as (.openTerminal false) ∨ Fails as (.leave false)) := by
  have htold : TerminalTold as s := by
    refine Run.exec_trace (P := TerminalTold) ?_
      (fun _ _ _ _ _ hm hstep => terminalTold_step hm hstep) h
    constructor <;> simp [init, RawAt, AlternateAt, Fails]
  obtain ⟨hraw, halt, henter, hopen, hdisable, hleave⟩ := htold
  cases hpc : s.pc with
  | unopened =>
    simp only [hpc, Pc.disabled, Pc.left, Bool.false_eq_true, imp_false]
      at hraw halt hdisable hleave
    rw [hraw, halt]
    simp [RawAt, AlternateAt, hdisable, hleave]
  | returned e =>
    simp only [hpc, reduceCtorEq, imp_false] at hraw halt henter hopen
    rw [hraw, halt]
    simp [RawAt, AlternateAt, henter, hopen]
  | _ =>
    rw [hpc] at hret
    cases hret

/-! ### One process -/

open Scenario

/-- The map is iterated as it is. -/
def inOrder : AList.IterOrder Aggregator.RowEntry := ⟨id, fun _ => .rfl⟩

/-- The display has opened the terminal. -/
def opened : List Action :=
  [.display (.enable true), .display (.enter true), .display (.openTerminal true), .display .go,
    .display .go]

/-- The thread attaches itself and sends one stack. -/
def sends : List Action :=
  [.attach true, .start, .check, .pace, .pace, .capture (some job), .send].map
    fun a => .top (.sampler 0 a)

/-- The stack is drawn by either count. -/
def drawnTwice : List Action :=
  [.recv 0, .empty, .go, .draw inOrder 10, .go, .poll (some true),
    .read (some (.key .i true))].map Action.display ++ [.top (.tick (fromMillis 250))] ++
  [.go, .empty, .go, .draw inOrder 10, .go, .poll (some true), .read (some .other)].map
    Action.display

/-- The process is gone, and the thread finds out. -/
def ends : List Action :=
  [.top (.sampler 0 .check), .top (.sampler 0 .pace), .top (.tick (fromSecs 1)),
    .top (.sampler 0 .pace), .top (.sampler 0 .pace), .top (.process 100 false),
    .top (.sampler 0 (.capture none)), .top (.sampler 0 .probe)]

/-- A session that ends by itself. -/
def watched : List Action :=
  opened ++ sends ++ drawnTwice ++ ends ++
    [.go, .disconnected, .disable true, .leave true, .showCursor].map Action.display

/-- The alternate screen cannot be entered. -/
def unopened : List Action := [.display (.enable true), .display (.enter false)]

theorem run_watched : ∃ s, run everySecond (init 0 (fun _ => true) [100]) watched = some s ∧
    s.pc = .returned .disconnected ∧ draws s.log = [0, fromMillis 250] ∧ s.sentBy 0 = [job] ∧
    s.raw = false := by
  have h : (run everySecond (init 0 (fun _ => true) [100]) watched).map
      (fun s => (s.pc, draws s.log, s.sentBy 0, s.raw)) =
      some (.returned .disconnected, [0, fromMillis 250], [job], false) := by
    decide +kernel
  obtain ⟨s, hs, heq⟩ := Option.map_eq_some_iff.mp h
  obtain ⟨hpc, hdraws, hsent, hraw⟩ : _ ∧ _ ∧ _ ∧ _ := by simpa only [Prod.mk.injEq] using heq
  exact ⟨s, hs, hpc, hdraws, hsent, hraw⟩

theorem run_records_watched :
    ∃ s, run everySecond (init 0 (fun _ => true) [100]) watched = some s ∧
      s.chan.gotFrom 0 = [job] := by
  obtain ⟨s, hs, hpc, -, hsent, -⟩ := run_watched
  have hall := ((run_records hs).2.2 (by rw [hpc]; rfl)).2 0
  exact ⟨s, hs, hall.trans hsent⟩

/-- Raw mode stays on when the alternate screen cannot be entered. -/
theorem run_restores_unopened :
    ∃ s, run everySecond (init 0 (fun _ => true) [100]) unopened = some s ∧
      s.pc = .unopened ∧ s.raw = true := by
  have h : (run everySecond (init 0 (fun _ => true) [100]) unopened).map State.pc =
      some .unopened := rfl
  obtain ⟨s, hs, hpc⟩ := Option.map_eq_some_iff.mp h
  refine ⟨s, hs, hpc, (run_restores hs (by rw [hpc]; rfl)).1.mpr (Or.inl ?_)⟩
  exact List.mem_cons_of_mem _ List.mem_cons_self

end Live
end PhpFastProfile
