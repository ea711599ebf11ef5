import PhpFastProfile.Sampler.RunMulti

/-!
# One worker in a run

Seen from one worker, a step of the system is a step of its own thread, the
receipt of its oldest message, the setting of its stop flag, or nothing.  Workers
keep their numbers, and a new one is started only where a scan has found its pid.

## Main definitions

* `State.Change` — what a step of the system does to one worker.
* `State.Hires` — a step starts a worker.

## Main results

* `State.step_worker` — every worker there is survives a step, with a change.
* `State.worker_of_step` — every worker after a step was there before or is new.
* `runMulti_workers` — what a worker starts with and every change keeps holds of every
  worker of a run.
-/

namespace PhpFastProfile
namespace State

/-- What a step of the system does to the worker `w`. -/
inductive Change (cfg : Config) (s : State) (w : ℕ) (x : Worker) : Action → Worker → Prop
  | rests (a : Action) (hother : ∀ b, a ≠ .worker w b) : Change cfg s w x a x
  | steps (b : WorkerAction) (x' : Worker) (h : x.step cfg (s.surroundings x) b = some x') :
    Change cfg s w x (.worker w b) x'
  | received (accepted : Bool) (msg : SampleMsg) (rest : List SampleMsg)
    (hqueue : x.queue = msg :: rest) :
    Change cfg s w x (.main (.recv w accepted)) { x with queue := rest }
  | signalled (pid : ℤ) (todo : List ℤ) (hpc : s.main = .signalling todo) :
    Change cfg s w x (.main (.signal pid)) { x with stop := true }

/-- The step `a` starts the worker `w` for `pid`, attached to the instance that runs there. -/
structure Hires (s s' : State) (a : Action) (w : ℕ) (first : Bool) (pid : ℤ) (todo : List ℤ)
    (attached : ℕ) : Prop where
  action : a = .main (.spawn true)
  main : s.main = .spawning first (pid :: todo)
  free : first = true ∨ s.table.lookup pid = none
  proc : s.procs pid = some attached
  index : w = s.workers.length
  workers : s'.workers = s.workers ++ [Worker.spawned pid attached]
  table : s'.table = s.table.insert pid s.workers.length
  rest : s'.main = .spawning first todo

section Steps

variable {cfg : Config} {s s' : State} {w : ℕ} {x x' : Worker} {a : Action}

/-- The four things a step can do to the list of workers. -/
theorem step_workers (h : s.step cfg a = some s') :
    ((∀ v b, a ≠ .worker v b) ∧ s'.workers = s.workers) ∨
    (∃ v y y', s.workers[v]? = some y ∧ s'.workers = s.workers.set v y' ∧ Change cfg s v y a y' ∧
      ∀ u b, a = .worker u b → u = v) ∨
    (∃ v pid todo, a = .main (.signal pid) ∧ s.main = .signalling todo ∧
      s'.workers = (s.stopWorker v).workers) ∨
    (∃ first pid todo attached, Hires s s' a s.workers.length first pid todo attached) := by
  rcases step_cases h with ⟨v, b, rfl, h⟩ | ⟨b, rfl, h⟩ | ⟨hother, hw, -, -⟩
  · obtain ⟨y, y', hy, hstep, rfl⟩ := State.workerStep_eq_some h
    refine Or.inr (Or.inl ⟨v, y, y', hy, rfl, .steps b y' hstep, ?_⟩)
    intro u c huc
    exact (Action.worker.inj huc).1.symm
  · have hmain : ∀ v c, Action.main b ≠ .worker v c := by simp
    cases mainStep_move h with
    | spawn first pid todo attached hpc hnew hproc =>
      exact Or.inr (Or.inr (Or.inr ⟨first, pid, todo, attached,
        ⟨rfl, hpc, hnew, hproc, rfl, rfl, rfl, rfl⟩⟩))
    | recv v accepted deadline y msg rest hpc hy hqueue =>
      exact Or.inr (Or.inl ⟨v, y, _, hy, rfl, .received accepted msg rest hqueue, by simp⟩)
    | drain v accepted deadline y msg rest hpc hy hqueue =>
      exact Or.inr (Or.inl ⟨v, y, _, hy, rfl, .received accepted msg rest hqueue, by simp⟩)
    | signal pid todo v hpc hmem hv =>
      exact Or.inr (Or.inr (Or.inl ⟨v, pid, todo, rfl, hpc, rfl⟩))
    | _ => exact Or.inl ⟨hmain, rfl⟩
  · exact Or.inl ⟨hother, hw⟩

/-- A change of the worker `v`, seen from any worker. -/
theorem change_set {v : ℕ} {y y' : Worker} (hy : s.workers[v]? = some y)
    (hw : s'.workers = s.workers.set v y') (hc : Change cfg s v y a y')
    (huniq : ∀ u b, a = .worker u b → u = v) (hx : s.workers[w]? = some x) :
    ∃ x', s'.workers[w]? = some x' ∧ Change cfg s w x a x' := by
  obtain ⟨hlt, -⟩ := List.getElem?_eq_some_iff.mp hy
  rw [hw, List.getElem?_set]
  by_cases hvw : v = w
  · subst hvw
    obtain rfl : x = y := Option.some.inj (hx.symm.trans hy)
    exact ⟨y', by simp [hlt], hc⟩
  · rw [if_neg hvw]
    exact ⟨x, hx, .rests a fun b hb => hvw (huniq w b hb).symm⟩

/-- **Every worker there is survives a step, with a change.** -/
theorem step_worker (h : s.step cfg a = some s') (hx : s.workers[w]? = some x) :
    ∃ x', s'.workers[w]? = some x' ∧ Change cfg s w x a x' := by
  rcases step_workers h with ⟨hother, hw⟩ | ⟨v, y, y', hy, hw, hc, huniq⟩ |
    ⟨v, pid, todo, rfl, hpc, hw⟩ | ⟨first, pid, todo, attached, hhire⟩
  · exact ⟨x, by rw [hw, hx], .rests a (hother w)⟩
  · exact change_set hy hw hc huniq hx
  · rw [hw]
    unfold stopWorker
    rw [List.getElem?_modify, hx]
    by_cases hvw : v = w
    · exact ⟨{ x with stop := true }, by simp [hvw], .signalled pid todo hpc⟩
    · exact ⟨x, by simp [hvw], .rests _ (by simp)⟩
  · obtain ⟨hlt, -⟩ := List.getElem?_eq_some_iff.mp hx
    refine ⟨x, ?_, .rests a (by simp [hhire.action])⟩
    rw [hhire.workers, List.getElem?_append_left hlt, hx]

/-- **Every worker after a step was there before or is new.** -/
theorem worker_of_step (h : s.step cfg a = some s') (hx' : s'.workers[w]? = some x') :
    (∃ x, s.workers[w]? = some x ∧ Change cfg s w x a x') ∨
    ∃ first pid todo attached, Hires s s' a w first pid todo attached ∧
      x' = Worker.spawned pid attached := by
  cases hx : s.workers[w]? with
  | some x =>
    obtain ⟨y, hy, hc⟩ := step_worker h hx
    obtain rfl : y = x' := Option.some.inj (hy.symm.trans hx')
    exact Or.inl ⟨x, rfl, hc⟩
  | none =>
    have hle : s.workers.length ≤ w := List.getElem?_eq_none_iff.mp hx
    have hsame : s'.workers.length = s.workers.length → False := by
      intro hlen
      rw [List.getElem?_eq_none (by omega)] at hx'
      cases hx'
    rcases step_workers h with ⟨-, hw⟩ | ⟨v, y, y', -, hw, -, -⟩ |
      ⟨v, pid, todo, -, -, hw⟩ | ⟨first, pid, todo, attached, hhire⟩
    · exact (hsame (by rw [hw])).elim
    · exact (hsame (by rw [hw, List.length_set])).elim
    · exact (hsame (by rw [hw]; exact List.length_modify _ _ _)).elim
    · -- only the last worker is new
      have hlt := (List.getElem?_eq_some_iff.mp hx').1
      rw [hhire.workers, List.length_append, List.length_singleton] at hlt
      obtain rfl : w = s.workers.length := by omega
      rw [hhire.workers, List.getElem?_concat_length] at hx'
      exact Or.inr ⟨first, pid, todo, attached, hhire, (Option.some.inj hx').symm⟩

/-- A change keeps the pid and the process instance of a worker. -/
theorem Change.same (h : Change cfg s w x a x') : x'.pid = x.pid ∧ x'.attached = x.attached := by
  cases h with
  | rests => exact ⟨rfl, rfl⟩
  | steps b _ h =>
    cases Worker.step_move h <;> exact ⟨rfl, rfl⟩
  | received => exact ⟨rfl, rfl⟩
  | signalled => exact ⟨rfl, rfl⟩

end Steps

end State

/-- **What a new worker has and every change keeps holds of every worker of a run.** -/
theorem runMulti_workers {cfg : Config} {clock : ℕ} {alive : ℤ → Bool} {P : Worker → Prop}
    (hspawn : ∀ pid attached, P (Worker.spawned pid attached))
    (hchange : ∀ s w x a x', P x → State.Change cfg s w x a x' → P x')
    {as : List Action} {s : State} (h : runMulti cfg (State.init clock alive) as = some s) :
    ∀ (w : ℕ) (x : Worker), s.workers[w]? = some x → P x := by
  refine Run.invariant (P := fun s : State => ∀ (w : ℕ) (x : Worker), s.workers[w]? = some x → P x)
    ?_ (by simp [State.init]) h
  intro m a s' hm hstep w x' hx'
  rcases State.worker_of_step hstep hx' with ⟨x, hx, hc⟩ | ⟨_, pid, _, attached, -, rfl⟩
  · exact hchange m w x a x' (hm w x hx) hc
  · exact hspawn pid attached

end PhpFastProfile
