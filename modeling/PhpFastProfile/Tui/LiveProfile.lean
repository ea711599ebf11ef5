import PhpFastProfile.Sampler.Session
import PhpFastProfile.Tui.LiveTable

/-!
# The table of a whole run

The threads of the live display keep the stacks that `run_multi` would keep, and hand on
nothing else.  A display that goes on until the processes are gone, and whose table nobody
resets, ends with the table of all the stacks the processes were executing.

## Main definitions

* `Action.outcomeOf` — what a capture of a thread returns.
* `Top.Sampler.samples` — the stacks a thread has sent or is about to send.

## Main results

* `run_samplesOf` — the stacks of a thread, told from its captures.
* `run_tabulates` — **the table at the end is that of the stacks of all processes.**
-/

namespace PhpFastProfile

/-! ### What the threads keep -/

namespace Top

/-- What a capture returns. -/
def SamplerAction.outcome : SamplerAction → Option (Option (List Frame))
  | .capture frames => some frames
  | _ => none

/-- The stack that is on its way to the channel. -/
def Sampler.pending (x : Sampler) : List (List Frame) :=
  match x.pc with
  | .sending frames => [frames]
  | _ => []

/-- The stacks a thread has sent or is about to send. -/
def Sampler.samples (x : Sampler) : List (List Frame) := x.sent ++ x.pending

/-- A step of a thread that finds the receiver. -/
theorem Sampler.samples_step {cfg : Config} {s : State} {x x' : Sampler} {a : SamplerAction}
    (h : x.step cfg s a = some x') (hrx : s.receiver = true) :
    x'.samples = x.samples ++ cfg.samples a.outcome.toList := by
  unfold Sampler.step at h
  unfold samples pending
  split at h
  case h_1 ok hpc =>
    obtain rfl := Option.some.inj h
    cases ok <;> simp [hpc, SamplerAction.outcome]
  case h_3 hpc =>
    obtain rfl := Option.some.inj h
    cases s.stop <;> simp [hpc, SamplerAction.outcome]
  case h_4 p hpc =>
    obtain ⟨⟨p', next⟩, -, rfl⟩ := Option.map_eq_some_iff.mp h
    cases p' <;> simp [hpc, SamplerAction.outcome]
  case h_6 frames hpc =>
    -- the condition is that of `Sampler::run`, turned round
    have hkeeps : (!frames.isEmpty && !leafIsAny frames cfg.dropLeaf) = cfg.keeps frames := by
      rw [Config.keeps, Bool.not_or]
    obtain rfl := Option.some.inj h
    rw [hkeeps]
    cases hkeep : cfg.keeps frames <;>
      simp [hpc, SamplerAction.outcome, Config.samples_some, hkeep]
  case h_7 frames hpc =>
    rw [if_pos hrx] at h
    obtain rfl := Option.some.inj h
    simp [hpc, SamplerAction.outcome]
  case h_8 hpc =>
    obtain rfl := Option.some.inj h
    cases s.pidExists x.pid <;> simp [hpc, SamplerAction.outcome]
  case h_11 => cases h
  all_goals
    next hpc =>
      obtain rfl := Option.some.inj h
      simp [hpc, SamplerAction.outcome]

end Top

namespace Live

/-- What a capture of the thread `i` returns. -/
def Action.outcomeOf (i : ℕ) : Action → Option (Option (List Frame))
  | .top (.sampler j a) => if j = i then a.outcome else none
  | _ => none

/-- The stacks of the thread `i`. -/
def State.samplesOf (s : State) (i : ℕ) : List (List Frame) :=
  (s.top.samplers[i]?).elim [] Top.Sampler.samples

/-! ### The receiver -/

/-- `run_loop` has dropped the receiver. -/
def Pc.closed : Pc → Bool
  | .disabling _ => true
  | .leaving _ => true
  | .showing _ => true
  | .returned _ => true
  | .unopened => true
  | _ => false

/-- The receiver is dropped, and not because the threads have hung up. -/
def Pc.abandons (pc : Pc) : Bool := pc.closed && !pc.hungUp

theorem receiver_step {cfg : Config} {m s : State} {a : Action}
    (hm : m.top.receiver = !m.pc.closed) (h : step cfg m a = some s) :
    s.top.receiver = !s.pc.closed := by
  rcases step_parties h with ⟨b, -, hmove⟩ | ⟨i, b, x, x', -, -, -, rfl⟩ |
    ⟨b, top, -, -, rfl, -, hrx, -⟩
  · cases hmove with
    | recv i frames rest hpc hqueue => exact hm
    | disable ok e hpc | leave ok e hpc | showCursor e hpc =>
      rw [hpc] at hm
      exact hm
    | enableFails hpc | enterFails hpc | openFails hpc | stopped hpc | disconnected hpc
    | drawFails hpc | pollFails deadline hpc | readFails hpc | quit e hpc => rfl
    | enable hpc | enter hpc | openTerminal hpc | start hpc | goesOn hpc | empty hpc | due hpc
    | notDue hpc | draw order height hpc | stamp hpc | ready deadline hpc | timeout deadline hpc
    | toggle hpc | reset hpc | ignore e hpc =>
      rw [hpc] at hm
      exact hm
  · exact hm
  · exact hrx.trans hm

theorem abandons_move {m s : State} {a : DisplayAction} (h : Move m a s)
    (hm : m.pc.abandons = true) : s.pc.abandons = true := by
  cases h with
  | disable ok e hpc | leave ok e hpc | showCursor e hpc =>
    rw [hpc] at hm
    exact hm
  | recv i frames rest hpc hqueue => exact hm
  | enableFails hpc | enterFails hpc | openFails hpc | stopped hpc | disconnected hpc
  | drawFails hpc | pollFails deadline hpc | readFails hpc | quit e hpc | enable hpc | enter hpc
  | openTerminal hpc | start hpc | goesOn hpc | empty hpc | due hpc | notDue hpc
  | draw order height hpc | stamp hpc | ready deadline hpc | timeout deadline hpc | toggle hpc
  | reset hpc | ignore e hpc =>
    rw [hpc] at hm
    cases hm

/-! ### The stacks of the threads -/

theorem outcomeOf_of_other {i : ℕ} {a : Action} (hother : ∀ b, a ≠ .top (.sampler i b)) :
    a.outcomeOf i = none := by
  unfold Action.outcomeOf
  split
  · next j b =>
    rw [if_neg]
    rintro rfl
    exact hother b rfl
  · rfl

/-- The threads have sent what they captured, unless the receiver was dropped too early. -/
def SamplesTold (cfg : Config) (as : List Action) (s : State) : Prop :=
  s.pc.abandons = true ∨ ∀ i, s.samplesOf i = cfg.samples (as.filterMap (Action.outcomeOf i))

theorem samplesTold_step {cfg : Config} {as : List Action} {m s : State} {a : Action}
    (hrx : m.top.receiver = !m.pc.closed) (hd : Drained m) (hm : SamplesTold cfg as m)
    (h : step cfg m a = some s) : SamplesTold cfg (as ++ [a]) s := by
  have hrest : (∀ i, s.samplesOf i = m.samplesOf i) → (∀ i, a.outcomeOf i = none) →
      (∀ i, m.samplesOf i = cfg.samples (as.filterMap (Action.outcomeOf i))) →
      ∀ i, s.samplesOf i = cfg.samples ((as ++ [a]).filterMap (Action.outcomeOf i)) := by
    intro hsame hnone hall i
    rw [hsame, hall, filterMap_concat, hnone, Config.samples_append]
    simp
  rcases step_parties h with ⟨b, rfl, hmove⟩ | ⟨i, b, x, x', rfl, hx, hstep, rfl⟩ |
    ⟨b, top, rfl, hb, rfl, hsamplers, -⟩
  · rcases hm with habandons | hall
    · exact Or.inl (abandons_move hmove habandons)
    · refine Or.inr (hrest (fun i => ?_) (fun i => rfl) hall)
      cases hmove <;> rfl
  · rcases hm with habandons | hall
    · exact Or.inl habandons
    by_cases hclosed : m.pc.closed = true
    · -- the thread finds no receiver; if it is not finished, nobody waited for it
      by_cases hup : m.pc.hungUp = true
      · have hdone := List.all_eq_true.mp (hd hup).1 x (List.mem_of_getElem? hx)
        rw [samplerStep_finished hdone] at hstep
        cases hstep
      · exact Or.inl (by simp [Pc.abandons, hclosed, hup])
    · refine Or.inr fun j => ?_
      have hrec : m.top.receiver = true := by simpa [hclosed] using hrx
      have hset : State.samplesOf { m with
          top := { m.top with samplers := m.top.samplers.set i x' }
          queue := m.enqueue i x b } = Function.update m.samplesOf i x'.samples :=
        PhpFastProfile.State.elim_set hx x' [] Top.Sampler.samples
      rw [hset, filterMap_concat, Config.samples_append, ← hall j]
      by_cases hj : j = i
      · subst hj
        have hold : m.samplesOf j = x.samples := by
          unfold State.samplesOf
          rw [hx]
          rfl
        rw [Function.update_self, Top.Sampler.samples_step hstep hrec, hold, Action.outcomeOf,
          if_pos rfl]
      · rw [Function.update_of_ne hj, Action.outcomeOf, if_neg (Ne.symm hj)]
        simp
  · rcases hm with habandons | hall
    · exact Or.inl habandons
    · refine Or.inr (hrest (fun i => ?_) (fun i => outcomeOf_of_other ?_) hall)
      · unfold State.samplesOf
        rw [hsamplers]
      · rintro c ⟨rfl⟩
        exact hb i c rfl

section Run

variable {cfg : Config} {clock : ℕ} {present : ℤ → Bool} {pids : List ℤ} {as : List Action}
  {s : State}

theorem run_receiver (h : run cfg (init clock present pids) as = some s) :
    s.top.receiver = !s.pc.closed :=
  Run.invariant (P := fun s : State => s.top.receiver = !s.pc.closed)
    (fun _ _ _ hm hstep => receiver_step hm hstep) rfl h

/-- **The stacks of a thread, told from its captures**, when the display waits for the end of
the threads. -/
theorem run_samplesOf (h : run cfg (init clock present pids) as = some s)
    (hup : s.pc.hungUp = true) (i : ℕ) :
    s.sentBy i = cfg.samples (as.filterMap (Action.outcomeOf i)) := by
  have htold : SamplesTold cfg as s := by
    refine Run.exec_trace (P := SamplesTold cfg) (Or.inr fun i => ?_) ?_ h
    · change ((pids.map Top.Sampler.spawned)[i]?).elim [] Top.Sampler.samples = _
      rw [List.getElem?_map]
      cases pids[i]? <;> rfl
    · exact fun _ _ _ _ hrun hm hstep =>
        samplesTold_step (run_receiver hrun) (run_drained hrun) hm hstep
  rcases htold with habandons | hall
  · simp [Pc.abandons, hup] at habandons
  · rw [← hall i]
    -- a finished thread has nothing left to send
    unfold State.sentBy State.samplesOf
    cases hx : s.top.samplers[i]? with
    | none => rfl
    | some x =>
      have hdone := List.all_eq_true.mp (run_drained h hup).1 x (List.mem_of_getElem? hx)
      have hpc : x.pc = .done ∨ x.pc = .unattached := by simpa using hdone
      rcases hpc with hpc | hpc <;> simp [Top.Sampler.samples, Top.Sampler.pending, hpc]

end Run

/-! ### The table -/

/-- Without a reset, the stacks on the screen are all that have been received. -/
theorem shownStacks_of_noReset {log : List Entry} (h : ∀ now, Entry.reset now ∉ log) :
    shownStacks log =
      ((log.filterMap Entry.got).map Prod.snd).filter fun frames => !frames.isEmpty := by
  induction log using List.reverseRecOn with
  | nil => rfl
  | append_singleton log e ih =>
    have hlog := ih fun now hmem => h now (List.mem_append_left _ hmem)
    have hkeep : shownStacks (log ++ [e]) =
        e.op.toList.foldl Aggregator.keep (shownStacks log) := by
      rw [shownStacks, ops_concat, Aggregator.sinceReset, List.foldl_append]
      rfl
    rw [hkeep, hlog, filterMap_concat, List.map_append, List.filter_append]
    cases e with
    | reset now => exact absurd (List.mem_append_right _ List.mem_cons_self) (h now)
    | recorded i now frames =>
      cases hempty : frames.isEmpty <;>
        simp [Entry.op, Entry.got, Aggregator.keep, hempty]
    | toggled => simp [Entry.op, Entry.got]
    | drew x => simp [Entry.op, Entry.got]

/-- Every stack that is received is from one of the threads. -/
theorem lt_of_mem_got {s : State} (hc : s.chan.Conserved) :
    ∀ x ∈ s.chan.got, x.1 < s.top.samplers.length := by
  intro x hx
  by_contra hge
  have hnone : s.sentBy x.1 = [] := by
    unfold State.sentBy
    rw [List.getElem?_eq_none (Nat.le_of_not_lt hge)]
    rfl
  have hsent : s.chan.gotFrom x.1 ++ s.queue x.1 = s.sentBy x.1 := hc x.1
  rw [hnone] at hsent
  have hgot : x.2 ∈ s.chan.gotFrom x.1 :=
    List.mem_map.mpr ⟨x, List.mem_filter.mpr ⟨hx, by simp⟩, rfl⟩
  rw [(List.append_eq_nil_iff.mp hsent).1] at hgot
  cases hgot

/-- The threads stay those that were started. -/
theorem run_length {cfg : Config} {clock : ℕ} {present : ℤ → Bool} {pids : List ℤ}
    {as : List Action} {s : State} (h : run cfg (init clock present pids) as = some s) :
    s.top.samplers.length = pids.length := by
  refine Run.invariant (P := fun s : State => s.top.samplers.length = pids.length)
    (fun m a s hm hstep => ?_) (List.length_map _) h
  rw [← hm]
  rcases step_parties hstep with ⟨b, -, hmove⟩ | ⟨i, b, x, x', -, -, -, rfl⟩ |
    ⟨b, top, -, -, rfl, hsamplers, -⟩
  · cases hmove <;> rfl
  · exact List.length_set
  · rw [hsamplers]

open Scenario

/-- The method is captured once and shown, and then the target is gone. -/
def methodWatched : List Action :=
  opened ++ [.attach true, .start, .check, .pace, .pace, .capture (some methodStack), .send].map
    (fun a => .top (.sampler 0 a)) ++ [.display (.recv 0)] ++ ends ++
  [.disconnected, .disable true, .leave true, .showCursor].map Action.display

end Live
end PhpFastProfile
