import PhpFastProfile.Sampler.Delivery
import PhpFastProfile.Sampler.Workers

/-!
# The worker table

`run_multi` keeps a table of its workers by pid.  Instances of processes are
numbered, so that a process and its successor under the same pid are told apart;
the table cannot tell them apart.

## Main definitions

* `TableInv` — every thread that has not finished is in charge of its pid, alone.
* `Numbered` — the numbers of the instances are not used again.
* `Newest` — the entry of a pid is of the last of its instances that had a worker.
* `Worker.Left` — a worker is out of its loop.
* `VisitedAt` — the visit of a pid in a scan.
* `State.Serves`, `State.Fresh` — an instance has a worker; the entry of a pid is not stale.

## Main results

* `runMulti_tableInv` — at most one worker of a pid has not finished.
* `runMulti_joined` — when `run_multi` returns, every thread has finished.
* `scan_visits` — a scan visits every pid it has found.
* `runMulti_serves_iff` — **a scan leaves an instance without a worker exactly when
  the entry of its pid is stale, or the worker panics before the scan is over.**
* `runMulti_serves_not` — a run in which a pid is used again.
-/

namespace PhpFastProfile

/-- The worker is out of its loop. -/
def Worker.Left (x : Worker) : Prop := x.pc = .exiting ∨ x.pc = .done

namespace State

/-! ### Process instances -/

/-- The numbers of the instances are not used again. -/
structure Numbered (s : State) : Prop where
  procs : ∀ pid inst, s.procs pid = some inst → inst < s.nextInstance
  workers : ∀ (w : ℕ) (x : Worker), s.workers[w]? = some x → x.attached < s.nextInstance

section Steps

variable {cfg : Config} {s s' : State} {a : Action}

/-- What a step does to the processes. -/
theorem step_procs (h : s.step cfg a = some s') :
    (s'.procs = s.procs ∧ s'.nextInstance = s.nextInstance) ∨
    (∃ pid, s'.procs = Function.update s.procs pid (some s.nextInstance) ∧
      s'.nextInstance = s.nextInstance + 1) ∨
    (∃ pid, s'.procs = Function.update s.procs pid none ∧ s'.nextInstance = s.nextInstance) := by
  rcases step_parties h with ⟨w, b, rfl, h⟩ | ⟨b, rfl, h⟩ | hevent
  · obtain ⟨y, y', -, -, rfl⟩ := State.workerStep_eq_some h
    exact Or.inl ⟨rfl, rfl⟩
  · cases mainStep_move h <;> exact Or.inl ⟨rfl, rfl⟩
  · cases hevent with
    | tick d => exact Or.inl ⟨rfl, rfl⟩
    | interrupt => exact Or.inl ⟨rfl, rfl⟩
    | procStart pid => exact Or.inr (Or.inl ⟨pid, rfl, rfl⟩)
    | procExit pid => exact Or.inr (Or.inr ⟨pid, rfl, rfl⟩)

theorem nextInstance_le (h : s.step cfg a = some s') : s.nextInstance ≤ s'.nextInstance := by
  rcases step_procs h with ⟨-, hn⟩ | ⟨pid, -, hn⟩ | ⟨pid, -, hn⟩ <;> omega

/-- **An instance that is gone does not come back.** -/
theorem alive_of_step (h : s.step cfg a = some s') {pid : ℤ} {inst : ℕ}
    (hlt : inst < s.nextInstance) (halive : s'.procs pid = some inst) :
    s.procs pid = some inst := by
  rcases step_procs h with ⟨hp, -⟩ | ⟨p, hp, -⟩ | ⟨p, hp, -⟩
  · rwa [hp] at halive
  · rw [hp, Function.update_apply] at halive
    split at halive
    · -- the number of a new process is new
      obtain rfl := Option.some.inj halive
      omega
    · exact halive
  · rw [hp, Function.update_apply] at halive
    split at halive
    · cases halive
    · exact halive

theorem numbered_step (hs : s.Numbered) (h : s.step cfg a = some s') : s'.Numbered := by
  have hle := nextInstance_le h
  constructor
  · intro pid inst hinst
    rcases step_procs h with ⟨hp, hn⟩ | ⟨p, hp, hn⟩ | ⟨p, hp, hn⟩
    · rw [hp] at hinst
      rw [hn]
      exact hs.procs pid inst hinst
    · rw [hp, Function.update_apply] at hinst
      split at hinst
      · obtain rfl := Option.some.inj hinst
        omega
      · exact (hs.procs pid inst hinst).trans_le hle
    · rw [hp, Function.update_apply] at hinst
      split at hinst
      · cases hinst
      · exact (hs.procs pid inst hinst).trans_le hle
  · intro w x' hx'
    rcases worker_of_step h hx' with ⟨x, hx, hc⟩ | ⟨_, pid, _, attached, hhire, rfl⟩
    · rw [hc.same.2]
      exact (hs.workers w x hx).trans_le hle
    · exact (hs.procs pid attached hhire.proc).trans_le hle

/-! ### One worker for each pid -/

/-- Every thread that has not finished is in charge of its pid, alone. -/
structure TableInv (s : State) : Prop where
  charge : s.main.pastDrain = false → ∀ (w : ℕ) (x : Worker), s.workers[w]? = some x →
    x.pc ≠ .done → s.table.lookup x.pid = some w
  entry : ∀ pid w, s.table.lookup pid = some w → ∃ x, s.workers[w]? = some x ∧ x.pid = pid
  one : ∀ (v w : ℕ) (x y : Worker), s.workers[v]? = some x → s.workers[w]? = some y →
    x.pc ≠ .done → y.pc ≠ .done → x.pid = y.pid → v = w
  /-- The first scan finds the table empty. -/
  early : s.main = .starting ∨ s.main = .timing ∨ s.main = .discovering → s.table = ∅
  first : ∀ todo, s.main = .spawning true todo →
    todo.Nodup ∧ ∀ pid ∈ todo, s.table.lookup pid = none

/-- What a step does to the table, until the joins. -/
theorem step_table (h : s.step cfg a = some s') :
    (s'.table = s.table ∧ (s'.main.pastDrain = false → s.main.pastDrain = false)) ∨
    (∃ w first pid todo attached, Hires s s' a w first pid todo attached) ∨
    (∃ pid w, s.table.lookup pid = some w ∧ s.isFinished w = true ∧
      s'.table = s.table.erase pid ∧ s'.workers = s.workers ∧ s.main.pastDrain = false ∧
      ∃ todo, s'.main = .reaping todo) ∨
    (s'.table = ∅ ∧ ∃ todo, s'.main = .joining todo) := by
  rcases step_parties h with ⟨w, b, rfl, h⟩ | ⟨b, rfl, h⟩ | hevent
  · obtain ⟨y, y', -, -, rfl⟩ := State.workerStep_eq_some h
    exact Or.inl ⟨rfl, id⟩
  · cases mainStep_move h with
    | spawn first pid todo attached hpc hnew hproc =>
      exact Or.inr (Or.inl ⟨_, first, pid, todo, attached,
        ⟨rfl, hpc, hnew, hproc, rfl, rfl, rfl, rfl⟩⟩)
    | reap pid todo hpc hmem =>
      have hpast : s.main.pastDrain = false := by rw [hpc]; rfl
      by_cases hl : (s.table.lookup pid).any s.isFinished = true
      · obtain ⟨w, hw, hdone⟩ := (Option.any_eq_true _ _).mp hl
        exact Or.inr (Or.inr (Or.inl ⟨pid, w, hw, hdone, if_pos hl, rfl, hpast, _, rfl⟩))
      · exact Or.inl ⟨if_neg hl, fun _ => hpast⟩
    | drainTimeout deadline hpc hle hquiet => exact Or.inr (Or.inr (Or.inr ⟨rfl, _, rfl⟩))
    | drainHangUp deadline hpc hup hquiet => exact Or.inr (Or.inr (Or.inr ⟨rfl, _, rfl⟩))
    | joined hpc => exact Or.inl ⟨rfl, nofun⟩
    | leave ok hpc => exact Or.inl ⟨rfl, nofun⟩
    | join w todo hpc => exact Or.inl ⟨rfl, nofun⟩
    | finish ok hpc => exact Or.inl ⟨rfl, nofun⟩
    | _ => exact Or.inl ⟨rfl, fun _ => by simp only [MainPc.pastDrain, *]⟩
  · cases hevent <;> exact Or.inl ⟨rfl, id⟩

/-- Before the first scan there is no table yet. -/
theorem step_early (h : s.step cfg a = some s')
    (he : s'.main = .starting ∨ s'.main = .timing ∨ s'.main = .discovering) :
    (s.main = .starting ∨ s.main = .timing ∨ s.main = .discovering) ∧ s'.table = s.table := by
  rcases step_parties h with ⟨w, b, rfl, h⟩ | ⟨b, rfl, h⟩ | hevent
  · obtain ⟨y, y', -, -, rfl⟩ := State.workerStep_eq_some h
    exact ⟨he, rfl⟩
  · cases mainStep_move h with
    | start hpc => exact ⟨Or.inl hpc, rfl⟩
    | time hpc => exact ⟨Or.inr (Or.inl hpc), rfl⟩
    | _ => rcases he with he | he | he <;> cases he
  · cases hevent <;> exact ⟨he, rfl⟩

/-- How the first scan comes to a list of pids. -/
theorem step_first (h : s.step cfg a = some s') {todo : List ℤ}
    (hf : s'.main = .spawning true todo) :
    (s.main = .discovering ∧ todo.Nodup ∧ s'.table = s.table) ∨
    (s.main = .spawning true todo ∧ s'.table = s.table) ∨
    ∃ pid, s.main = .spawning true (pid :: todo) ∧
      (s'.table = s.table ∨ ∃ w, s'.table = s.table.insert pid w) := by
  rcases step_parties h with ⟨w, b, rfl, h⟩ | ⟨b, rfl, h⟩ | hevent
  · obtain ⟨y, y', -, -, rfl⟩ := State.workerStep_eq_some h
    exact Or.inr (Or.inl ⟨hf, rfl⟩)
  · cases mainStep_move h with
    | discover pids hpc hnodup =>
      obtain ⟨-, rfl⟩ := MainPc.spawning.inj hf
      exact Or.inl ⟨hpc, hnodup, rfl⟩
    | spawnFails first pid rest hpc hnew =>
      obtain ⟨rfl, rfl⟩ := MainPc.spawning.inj hf
      exact Or.inr (Or.inr ⟨pid, hpc, Or.inl rfl⟩)
    | spawn first pid rest attached hpc hnew hproc =>
      obtain ⟨rfl, rfl⟩ := MainPc.spawning.inj hf
      exact Or.inr (Or.inr ⟨pid, hpc, Or.inr ⟨_, rfl⟩⟩)
    | _ => cases hf
  · cases hevent <;> exact Or.inr (Or.inl ⟨hf, rfl⟩)

theorem Change.done {w : ℕ} {x x' : Worker} (hc : Change cfg s w x a x') (hx : x.pc = .done) :
    x'.pc = .done := by
  cases hc with
  | rests => exact hx
  | steps b _ h =>
    rw [Worker.step_done hx] at h
    cases h
  | received => exact hx
  | signalled => exact hx

/-- A worker is started only for a pid that has no entry. -/
theorem Hires.lookup_eq_none {w : ℕ} {first : Bool} {pid : ℤ} {todo : List ℤ} {attached : ℕ}
    (hs : s.TableInv) (hh : Hires s s' a w first pid todo attached) :
    s.table.lookup pid = none := by
  rcases hh.free with rfl | hnone
  · exact (hs.first (pid :: todo) hh.main).2 pid List.mem_cons_self
  · exact hnone

theorem isFinished_iff {w : ℕ} {x : Worker} (hx : s.workers[w]? = some x) :
    s.isFinished w = true ↔ x.pc = .done := by
  simp [isFinished, hx]

theorem charge_step (hs : s.TableInv) (h : s.step cfg a = some s')
    (hp : s'.main.pastDrain = false) {w : ℕ} {x' : Worker} (hx' : s'.workers[w]? = some x')
    (hlive : x'.pc ≠ .done) : s'.table.lookup x'.pid = some w := by
  rcases worker_of_step h hx' with ⟨x, hx, hc⟩ | ⟨first, pid, todo, attached, hhire, rfl⟩
  · have hlivex : x.pc ≠ .done := fun hdone => hlive (hc.done hdone)
    rw [hc.same.1]
    rcases step_table h with ⟨htable, hpast⟩ | ⟨v, first, pid, todo, attached, hhire⟩ |
      ⟨pid, v, hv, hfin, htable, -, hpast, -⟩ | ⟨-, todo, hjoin⟩
    · rw [htable]
      exact hs.charge (hpast hp) w x hx hlivex
    · have hpast : s.main.pastDrain = false := by rw [hhire.main]; rfl
      have hlook := hs.charge hpast w x hx hlivex
      rw [hhire.table, AList.lookup_insert_ne, hlook]
      -- the new pid had no entry
      intro heq
      rw [heq, hhire.lookup_eq_none hs] at hlook
      cases hlook
    · have hlook := hs.charge hpast w x hx hlivex
      rw [htable, AList.lookup_erase_ne, hlook]
      -- only finished threads are reaped
      intro heq
      rw [heq, hv] at hlook
      obtain rfl := Option.some.inj hlook
      exact hlivex ((isFinished_iff hx).mp hfin)
    · rw [hjoin] at hp
      cases hp
  · rw [hhire.table, hhire.index]
    exact AList.lookup_insert _

theorem entry_step (hs : s.TableInv) (h : s.step cfg a = some s') {pid : ℤ} {w : ℕ}
    (hw : s'.table.lookup pid = some w) : ∃ x, s'.workers[w]? = some x ∧ x.pid = pid := by
  have hold : s.table.lookup pid = some w → ∃ x, s'.workers[w]? = some x ∧ x.pid = pid := by
    intro hlook
    obtain ⟨x, hx, rfl⟩ := hs.entry pid w hlook
    obtain ⟨x', hx', hc⟩ := step_worker h hx
    exact ⟨x', hx', hc.same.1⟩
  rcases step_table h with ⟨htable, -⟩ | ⟨v, first, p, todo, attached, hhire⟩ |
    ⟨p, v, -, -, htable, -, -, -⟩ | ⟨htable, -⟩
  · exact hold (htable ▸ hw)
  · by_cases hpid : pid = p
    · subst hpid
      rw [hhire.table, AList.lookup_insert] at hw
      obtain rfl := Option.some.inj hw
      exact ⟨Worker.spawned pid attached, by rw [hhire.workers]; simp, rfl⟩
    · rw [hhire.table, AList.lookup_insert_ne hpid] at hw
      exact hold hw
  · by_cases hpid : pid = p
    · rw [htable, hpid, AList.lookup_erase] at hw
      cases hw
    · rw [htable, AList.lookup_erase_ne hpid] at hw
      exact hold hw
  · rw [htable, AList.lookup_empty] at hw
    cases hw

theorem one_step (hs : s.TableInv) (h : s.step cfg a = some s') {v w : ℕ} {x' y' : Worker}
    (hx' : s'.workers[v]? = some x') (hy' : s'.workers[w]? = some y') (hxlive : x'.pc ≠ .done)
    (hylive : y'.pc ≠ .done) (hpid : x'.pid = y'.pid) : v = w := by
  -- a new worker has no living predecessor
  have hnew : ∀ {u : ℕ} {z z' : Worker} {n first pid todo attached},
      Hires s s' a n first pid todo attached → s.workers[u]? = some z → Change cfg s u z a z' →
      z'.pc ≠ .done → z'.pid = pid → False := by
    intro u z z' n first pid todo attached hhire hz hc hzlive hzpid
    have hpast : s.main.pastDrain = false := by rw [hhire.main]; rfl
    have hlook := hs.charge hpast u z hz fun hdone => hzlive (hc.done hdone)
    rw [← hc.same.1, hzpid, hhire.lookup_eq_none hs] at hlook
    cases hlook
  rcases worker_of_step h hx' with ⟨x, hx, hcx⟩ | ⟨first, pid, todo, attached, hhire, rfl⟩
  · rcases worker_of_step h hy' with ⟨y, hy, hcy⟩ | ⟨first, pid, todo, attached, hhire, rfl⟩
    · refine hs.one v w x y hx hy (fun hdone => hxlive (hcx.done hdone))
        (fun hdone => hylive (hcy.done hdone)) ?_
      rw [← hcx.same.1, ← hcy.same.1, hpid]
    · exact (hnew hhire hx hcx hxlive hpid).elim
  · rcases worker_of_step h hy' with ⟨y, hy, hcy⟩ | ⟨_, _, _, _, hhire', rfl⟩
    · exact (hnew hhire hy hcy hylive hpid.symm).elim
    · rw [hhire.index, hhire'.index]

/-- **The table keeps its invariant.** -/
theorem tableInv_step (hs : s.TableInv) (h : s.step cfg a = some s') : s'.TableInv := by
  refine ⟨fun hp w x' hx' hlive => charge_step hs h hp hx' hlive,
    fun pid w hw => entry_step hs h hw,
    fun v w x' y' hx' hy' => one_step hs h hx' hy', ?_, ?_⟩
  · intro he
    obtain ⟨he, htable⟩ := step_early h he
    rw [htable, hs.early he]
  · intro todo hf
    rcases step_first h hf with ⟨hpc, hnodup, htable⟩ | ⟨hpc, htable⟩ | ⟨pid, hpc, htable⟩
    · rw [htable, hs.early (Or.inr (Or.inr hpc))]
      exact ⟨hnodup, fun pid _ => AList.lookup_empty pid⟩
    · rw [htable]
      exact hs.first todo hpc
    · obtain ⟨hnodup, hnone⟩ := hs.first _ hpc
      refine ⟨(List.nodup_cons.mp hnodup).2, fun p hp => ?_⟩
      have hlook := hnone p (List.mem_cons_of_mem _ hp)
      rcases htable with htable | ⟨w, htable⟩
      · rw [htable, hlook]
      · rw [htable, AList.lookup_insert_ne, hlook]
        rintro rfl
        exact (List.nodup_cons.mp hnodup).1 hp

/-! ### Instances that follow each other -/

/-- The workers of a pid were attached to its instances in their order: none to a later one
than that which runs, and none to a later one than the worker in charge. -/
structure Newest (s : State) : Prop where
  running : ∀ (w : ℕ) (x : Worker) (inst : ℕ), s.workers[w]? = some x →
    s.procs x.pid = some inst → x.attached ≤ inst
  entry : ∀ (w : ℕ) (x : Worker), s.workers[w]? = some x → s.table.lookup x.pid = some w →
    ∀ (u : ℕ) (y : Worker), s.workers[u]? = some y → y.pid = x.pid → y.attached ≤ x.attached

theorem running_step (hn : s.Numbered) (hs : s.Newest) (h : s.step cfg a = some s') {w : ℕ}
    {x' : Worker} {inst : ℕ} (hx' : s'.workers[w]? = some x')
    (hproc : s'.procs x'.pid = some inst) : x'.attached ≤ inst := by
  rcases worker_of_step h hx' with ⟨x, hx, hc⟩ | ⟨first, pid, todo, attached, hhire, rfl⟩
  · rw [hc.same.1] at hproc
    rw [hc.same.2]
    rcases Nat.lt_or_ge inst s.nextInstance with hlt | hge
    · exact hs.running w x inst hx (alive_of_step h hlt hproc)
    · exact (hn.workers w x hx).le.trans hge
  · -- the instance it was attached to runs
    rcases Nat.lt_or_ge inst s.nextInstance with hlt | hge
    · have hold := alive_of_step h hlt hproc
      exact (Option.some.inj (hhire.proc.symm.trans hold)).le
    · exact (hn.procs _ _ hhire.proc).le.trans hge

/-- An entry that is there after a step without a new worker was there before it. -/
theorem lookup_of_step (h : s.step cfg a = some s')
    (hno : ∀ n first pid todo attached, ¬ Hires s s' a n first pid todo attached) {pid : ℤ} {w : ℕ}
    (hw : s'.table.lookup pid = some w) : s.table.lookup pid = some w := by
  rcases step_table h with ⟨htable, -⟩ | ⟨n, first, p, todo, attached, hhire⟩ |
    ⟨p, n, -, -, htable, -, -, -⟩ | ⟨htable, -⟩
  · exact htable ▸ hw
  · exact absurd hhire (hno n first p todo attached)
  · by_cases hpid : pid = p
    · rw [htable, hpid, AList.lookup_erase] at hw
      cases hw
    · rwa [htable, AList.lookup_erase_ne hpid] at hw
  · rw [htable, AList.lookup_empty] at hw
    cases hw

theorem newest_step (hn : s.Numbered) (hs : s.Newest) (h : s.step cfg a = some s') :
    s'.Newest := by
  refine ⟨fun w x' inst hx' hproc => running_step hn hs h hx' hproc, ?_⟩
  intro w x' hx' hw u y' hy' hpid
  by_cases hhires : ∃ n first pid todo attached, Hires s s' a n first pid todo attached
  · obtain ⟨n, first, pid, todo, attached, hhire⟩ := hhires
    by_cases hnew : x'.pid = pid
    · -- the new worker is in charge, and attached to the instance that runs
      have hlast : s'.workers[s.workers.length]? = some (Worker.spawned pid attached) := by
        rw [hhire.workers, List.getElem?_concat_length]
      rw [hnew, hhire.table, AList.lookup_insert] at hw
      obtain rfl := Option.some.inj hw
      obtain rfl := Option.some.inj (hlast.symm.trans hx')
      rcases worker_of_step h hy' with ⟨y, hy, hc⟩ | ⟨_, _, _, _, hhire', rfl⟩
      · rw [hc.same.2]
        exact hs.running u y attached hy (by rw [← hc.same.1, hpid]; exact hhire.proc)
      · rw [hhire'.index, hlast] at hy'
        rw [Option.some.inj hy']
    · rw [hhire.table, AList.lookup_insert_ne hnew] at hw
      rcases worker_of_step h hx' with ⟨x, hx, hc⟩ | ⟨_, _, _, _, hhire', rfl⟩
      · rcases worker_of_step h hy' with ⟨y, hy, hcy⟩ | ⟨_, _, _, _, hhire', rfl⟩
        · rw [hc.same.2, hcy.same.2]
          rw [hc.same.1] at hw
          exact hs.entry w x hx hw u y hy (by rw [← hcy.same.1, hpid, hc.same.1])
        · rw [hhire'.index, hhire.workers, List.getElem?_concat_length] at hy'
          rw [← Option.some.inj hy'] at hpid
          exact absurd hpid.symm hnew
      · rw [hhire'.index, hhire.workers, List.getElem?_concat_length] at hx'
        exact absurd (by rw [← Option.some.inj hx']; rfl) hnew
  · have hno : ∀ n first pid todo attached, ¬ Hires s s' a n first pid todo attached :=
      fun n first pid todo attached hhire => hhires ⟨n, first, pid, todo, attached, hhire⟩
    have hold := lookup_of_step h hno hw
    rcases worker_of_step h hx' with ⟨x, hx, hc⟩ | ⟨_, _, _, _, hhire, rfl⟩
    · rcases worker_of_step h hy' with ⟨y, hy, hcy⟩ | ⟨_, _, _, _, hhire, rfl⟩
      · rw [hc.same.2, hcy.same.2]
        rw [hc.same.1] at hold
        exact hs.entry w x hx hold u y hy (by rw [← hcy.same.1, hpid, hc.same.1])
      · exact (hno _ _ _ _ _ hhire).elim
    · exact (hno _ _ _ _ _ hhire).elim

/-! ### When a worker leaves its loop -/

/-- No worker is told to stop before the teardown. -/
def Untold (s : State) : Prop :=
  s.main.tearingDown = false → s.main ≠ .failed → ∀ (w : ℕ) (x : Worker),
    s.workers[w]? = some x → x.stop = false

/-- A worker of this pid panics. -/
def PanicsFor (pid : ℤ) (s : State) (a : Action) : Prop :=
  ∃ w x, a = .worker w .panic ∧ s.workers[w]? = some x ∧ x.pid = pid

/-- The teardown and the failure of the first scan are final. -/
theorem step_sampling (h : s.step cfg a = some s') (ht : s'.main.tearingDown = false)
    (hf : s'.main ≠ .failed) : s.main.tearingDown = false ∧ s.main ≠ .failed := by
  rcases step_parties h with ⟨w, b, rfl, h⟩ | ⟨b, rfl, h⟩ | hevent
  · obtain ⟨y, y', -, -, rfl⟩ := State.workerStep_eq_some h
    exact ⟨ht, hf⟩
  · have hmove := mainStep_move h
    constructor
    · by_contra hs
      have := ((move_effect hmove).2 (by simpa using hs)).1
      simp [ht] at this
    · intro hs
      cases hmove <;> simp_all
  · cases hevent <;> exact ⟨ht, hf⟩

theorem receiver_of_sampling (ht : s.main.tearingDown = false) (hf : s.main ≠ .failed) :
    s.receiver = true := by
  unfold receiver
  split
  · next hpc =>
    rw [hpc] at ht
    cases ht
  · next hpc => exact absurd hpc hf
  · rfl

theorem untold_step (hs : s.Untold) (h : s.step cfg a = some s') : s'.Untold := by
  intro ht' hf' w x' hx'
  obtain ⟨ht, hf⟩ := step_sampling h ht' hf'
  rcases worker_of_step h hx' with ⟨x, hx, hc⟩ | ⟨first, pid, todo, attached, hhire, rfl⟩
  · have hstop : x.stop = false := hs ht hf w x hx
    cases hc with
    | rests => exact hstop
    | received => exact hstop
    | signalled pid todo hpc =>
      rw [hpc] at ht
      cases ht
    | steps b _ hb => cases Worker.step_move hb <;> exact hstop
  · rfl

/-- A worker that has left its loop does not come back. -/
theorem Change.left {w : ℕ} {x x' : Worker} (hc : Change cfg s w x a x') (hx : x.Left) :
    x'.Left := by
  cases hc with
  | rests => exact hx
  | received => exact hx
  | signalled => exact hx
  | steps b _ h =>
    rcases hx with hx | hx
    · cases Worker.step_move h <;> simp_all [Worker.Left]
    · rw [Worker.step_done hx] at h
      cases h

/-- **A worker leaves its loop only when its process is gone, or with a panic**, until it is
told to stop. -/
theorem Change.stays {w : ℕ} {x x' : Worker} (hs : s.Untold) (ht : s.main.tearingDown = false)
    (hf : s.main ≠ .failed) (hx : s.workers[w]? = some x) (hc : Change cfg s w x a x')
    (hno : a ≠ .worker w .panic) (halive : s.procs x.pid = some x.attached) (hin : ¬ x.Left) :
    ¬ x'.Left := by
  have hstop : x.stop = false := hs ht hf w x hx
  cases hc with
  | rests => exact hin
  | received => exact hin
  | signalled => exact hin
  | steps b _ h =>
    cases Worker.step_move h with
    | stopped hpc htold =>
      rw [hstop] at htold
      cases htold
    | gone hpc hpid => simp [surroundings, halive] at hpid
    | sendFails msg hpc hrx =>
      have hreceiver : s.receiver = true := receiver_of_sampling ht hf
      rw [show (s.surroundings x).receiver = s.receiver from rfl, hreceiver] at hrx
      cases hrx
    | panics hpc => exact absurd rfl hno
    | finish hpc => exact absurd (Or.inl hpc) hin
    | _ => rintro (hpc | hpc) <;> cases hpc

end Steps
end State

theorem State.tableInv_init (clock : ℕ) (alive : ℤ → Bool) : (State.init clock alive).TableInv where
  charge := by simp [State.init]
  entry := by simp [State.init]
  one := by simp [State.init]
  early := fun _ => rfl
  first := nofun

theorem State.numbered_init (clock : ℕ) (alive : ℤ → Bool) : (State.init clock alive).Numbered where
  procs := by
    intro pid inst hinst
    simp only [State.init] at hinst ⊢
    split at hinst
    · obtain rfl := Option.some.inj hinst
      exact Nat.one_pos
    · cases hinst
  workers := by simp [State.init]

/-! ### The joins -/

namespace State

/-- Every thread that has not finished is still to be joined, and when `run_multi`
returns there is none. -/
def Joined (s : State) : Prop :=
  match s.main with
  | .joining todo => ∀ (w : ℕ) (x : Worker), s.workers[w]? = some x → x.pc ≠ .done → w ∈ todo
  | .finishing | .leaving _ | .returned _ | .failed =>
    ∀ (w : ℕ) (x : Worker), s.workers[w]? = some x → x.pc = .done
  | _ => True

section Steps

variable {cfg : Config} {s s' : State} {a : Action}

/-- The joins begin with every thread in charge of a pid. -/
theorem joined_drained (hs : s.TableInv) (hpast : s.main.pastDrain = false) :
    s.drained.Joined := by
  intro w x hx hlive
  have hlook := hs.charge hpast w x hx hlive
  exact List.mem_map.mpr ⟨⟨x.pid, w⟩, AList.mem_lookup_iff.mp hlook, rfl⟩

/-- A step that leaves the main thread where it is. -/
theorem joined_stay (cfg : Config) (a : Action) (hs : s.Joined) (hmain : s'.main = s.main)
    (hold : ∀ w x', s'.workers[w]? = some x' → ∃ x,
      s.workers[w]? = some x ∧ Change cfg s w x a x') : s'.Joined := by
  unfold Joined at hs ⊢
  rw [hmain]
  split at hs
  · next todo hpc =>
    intro w x' hx' hlive
    obtain ⟨x, hx, hc⟩ := hold w x' hx'
    exact hs w x hx fun hdone => hlive (hc.done hdone)
  all_goals try trivial
  all_goals
    intro w x' hx'
    obtain ⟨x, hx, hc⟩ := hold w x' hx'
    exact hc.done (hs w x hx)

theorem joined_step (ht : s.TableInv) (hs : s.Joined) (h : s.step cfg a = some s') :
    s'.Joined := by
  have hstay : s'.main = s.main → _ → s'.Joined := joined_stay cfg a hs
  rcases step_parties h with ⟨v, b, rfl, hw⟩ | ⟨b, rfl, hm⟩ | hevent
  · refine hstay ?_ fun w x' hx' => ?_
    · obtain ⟨y, y', -, -, rfl⟩ := State.workerStep_eq_some hw
      rfl
    · rcases worker_of_step h hx' with hold | ⟨_, _, _, _, hhire, -⟩
      · exact hold
      · cases hhire.action
  · cases mainStep_move hm with
    | drainTimeout deadline hpc => exact joined_drained ht (by rw [hpc]; rfl)
    | drainHangUp deadline hpc => exact joined_drained ht (by rw [hpc]; rfl)
    | join w todo hpc hmem hdone =>
      rw [Joined, hpc] at hs
      intro v x hx hlive
      have hv := hs v x hx hlive
      refine (List.mem_erase_of_ne ?_).mpr hv
      rintro rfl
      exact hlive ((isFinished_iff hx).mp hdone)
    | joined hpc =>
      rw [Joined, hpc] at hs
      intro w x hx
      by_contra hlive
      exact absurd (hs w x hx hlive) List.not_mem_nil
    | discoverFails hpc =>
      -- before the first scan there is no worker
      intro w x hx
      by_contra hlive
      have hlook := ht.charge (by rw [hpc]; rfl) w x hx hlive
      rw [ht.early (Or.inr (Or.inr hpc)), AList.lookup_empty] at hlook
      cases hlook
    | finish ok hpc => rwa [Joined, hpc] at hs
    | leave ok hpc => rwa [Joined, hpc] at hs
    | _ => trivial
  · cases hevent <;>
      exact hstay rfl fun w x' hx' => ⟨x', hx', .rests _ (by simp)⟩

/-- A thread that has not finished finds the receiver. -/
theorem Joined.receiver (hs : s.Joined) {w : ℕ} {x : Worker} (hx : s.workers[w]? = some x)
    (hlive : x.pc ≠ .done) : s.receiver = true := by
  unfold State.receiver
  split
  · next hpc =>
    rw [Joined, hpc] at hs
    exact absurd (hs w x hx) hlive
  · next hpc =>
    rw [Joined, hpc] at hs
    exact absurd (hs w x hx) hlive
  · rfl

end Steps
end State

/-- **When `run_multi` returns, every thread has finished.** -/
theorem runMulti_joined {cfg : Config} {clock : ℕ} {alive : ℤ → Bool} {as : List Action}
    {s : State} (h : runMulti cfg (State.init clock alive) as = some s) : s.Joined := by
  refine (Run.invariant (P := fun s => s.TableInv ∧ s.Joined) ?_ ⟨?_, trivial⟩ h).2
  · intro m a s' hm hstep
    exact ⟨State.tableInv_step hm.1 hstep, State.joined_step hm.1 hm.2 hstep⟩
  · exact State.tableInv_init clock alive

/-! ### Scans -/

namespace State

/-- An instance has a worker: one that was attached to it, and that goes on as long
as the instance does. -/
def Serves (s : State) (pid : ℤ) (inst : ℕ) : Prop :=
  ∃ (w : ℕ) (x : Worker), s.workers[w]? = some x ∧ x.pid = pid ∧ x.attached = inst ∧
    (s.procs pid = some inst → ¬ x.Left)

/-- If the pid has an entry, its worker was attached to the instance, and is in its loop
where the instance `lives` on. -/
def Fresh (s : State) (pid : ℤ) (inst : ℕ) (lives : Prop) : Prop :=
  ∀ w, s.table.lookup pid = some w → ∀ x, s.workers[w]? = some x →
    x.attached = inst ∧ (lives → ¬ x.Left)

/-- Since `v`, in the loop over the pids, the worker `w` has been in charge of `pid`
and no other worker of `pid` was started. -/
structure Kept (v : State) (pid : ℤ) (w inst : ℕ) (s : State) : Prop where
  main : ∃ first todo, s.main = .spawning first todo
  lookup : s.table.lookup pid = some w
  worker : ∃ x, s.workers[w]? = some x ∧ x.pid = pid ∧ x.attached = inst
  old : ∀ (u : ℕ) (y : Worker), s.workers[u]? = some y → y.pid = pid →
    ∃ y₀, v.workers[u]? = some y₀ ∧ y₀.pid = pid ∧ y₀.attached = y.attached

section Steps

variable {cfg : Config} {s s' : State} {a : Action}

/-- A step of the loop over the pids: the next pid is visited, or the loop stays
where it is. -/
theorem step_spawning (h : s.step cfg a = some s') {first : Bool} {todo : List ℤ}
    (hpc : s.main = .spawning first todo) (hgo : a ≠ .main .go) :
    (s'.main = .spawning first todo ∧ s'.table = s.table) ∨
    ∃ pid rest ok, todo = pid :: rest ∧ a = .main (.spawn ok) ∧ s'.main = .spawning first rest := by
  rcases step_parties h with ⟨w, b, rfl, h⟩ | ⟨b, rfl, h⟩ | hevent
  · obtain ⟨y, y', -, -, rfl⟩ := State.workerStep_eq_some h
    exact Or.inl ⟨hpc, rfl⟩
  · cases mainStep_move h with
    | keep ok pid rest hpc' hhas =>
      obtain ⟨rfl, rfl⟩ := MainPc.spawning.inj (hpc.symm.trans hpc')
      exact Or.inr ⟨pid, rest, ok, rfl, rfl, rfl⟩
    | spawnFails first' pid rest hpc' hnew =>
      obtain ⟨rfl, rfl⟩ := MainPc.spawning.inj (hpc.symm.trans hpc')
      exact Or.inr ⟨pid, rest, false, rfl, rfl, rfl⟩
    | spawn first' pid rest attached hpc' hnew hproc =>
      obtain ⟨rfl, rfl⟩ := MainPc.spawning.inj (hpc.symm.trans hpc')
      exact Or.inr ⟨pid, rest, true, rfl, rfl, rfl⟩
    | spawned => exact absurd rfl hgo
    | _ => simp_all
  · cases hevent <;> exact Or.inl ⟨hpc, rfl⟩

/-- An entry survives the loop over the pids. -/
theorem kept_step {v : State} {pid : ℤ} {w inst : ℕ} (hs : s.TableInv) (hk : Kept v pid w inst s)
    (hgo : a ≠ .main .go) (h : s.step cfg a = some s') : Kept v pid w inst s' := by
  obtain ⟨first, todo, hpc⟩ := hk.main
  -- a new worker is one of another pid
  have hother : ∀ {u first p rest attached}, Hires s s' a u first p rest attached → pid ≠ p := by
    rintro u first p rest attached hhire rfl
    have hlook := hk.lookup
    rw [hhire.lookup_eq_none hs] at hlook
    cases hlook
  refine ⟨?_, ?_, ?_, ?_⟩
  · rcases step_spawning h hpc hgo with ⟨hmain, -⟩ | ⟨p, rest, ok, -, -, hmain⟩
    · exact ⟨first, todo, hmain⟩
    · exact ⟨first, rest, hmain⟩
  · rcases step_table h with ⟨htable, -⟩ | ⟨u, first', p, rest, attached, hhire⟩ |
      ⟨p, u, -, -, -, -, -, rest, hreap⟩ | ⟨-, rest, hjoin⟩
    · rw [htable, hk.lookup]
    · rw [hhire.table, AList.lookup_insert_ne (hother hhire), hk.lookup]
    · rcases step_spawning h hpc hgo with ⟨hmain, -⟩ | ⟨p, rest, ok, -, -, hmain⟩ <;>
        rw [hreap] at hmain <;> cases hmain
    · rcases step_spawning h hpc hgo with ⟨hmain, -⟩ | ⟨p, rest, ok, -, -, hmain⟩ <;>
        rw [hjoin] at hmain <;> cases hmain
  · obtain ⟨x, hx, hpid, hatt⟩ := hk.worker
    obtain ⟨x', hx', hc⟩ := step_worker h hx
    exact ⟨x', hx', hc.same.1.trans hpid, hc.same.2.trans hatt⟩
  · intro u y' hy' hpid
    rcases worker_of_step h hy' with ⟨y, hy, hc⟩ | ⟨first', p, rest, attached, hhire, rfl⟩
    · rw [hc.same.1] at hpid
      rw [hc.same.2]
      exact hk.old u y hy hpid
    · exact absurd hpid.symm (hother hhire)

/-- A visit that could attach leaves a worker in charge of the pid: the one it had,
or a new one. -/
theorem kept_of_visit (hs : s.TableInv) (h : s.step cfg (.main (.spawn true)) = some s')
    {first : Bool} {pid : ℤ} {todo : List ℤ} (hpc : s.main = .spawning first (pid :: todo))
    {inst : ℕ} (hproc : s.procs pid = some inst) :
    (s.table.lookup pid = none ∧ s'.workers[s.workers.length]? = some (.spawned pid inst) ∧
      Kept s' pid s.workers.length inst s') ∨
    ∃ w x, s.table.lookup pid = some w ∧ s.workers[w]? = some x ∧ s'.workers = s.workers ∧
      Kept s' pid w x.attached s' := by
  have hmove : Move cfg s (.spawn true) s' := mainStep_move h
  cases hmove with
  | keep ok p rest hpc' hhas =>
    obtain ⟨rfl, hcons⟩ := MainPc.spawning.inj (hpc.symm.trans hpc')
    obtain ⟨rfl, rfl⟩ := List.cons.inj hcons
    obtain ⟨w, hw⟩ := Option.isSome_iff_exists.mp hhas
    obtain ⟨x, hx, hpid⟩ := hs.entry pid w hw
    exact Or.inr ⟨w, x, hw, hx, rfl, ⟨⟨false, todo, rfl⟩, hw, ⟨x, hx, hpid, rfl⟩,
      fun u y hy hpid => ⟨y, hy, hpid, rfl⟩⟩⟩
  | spawn first' p rest attached hpc' hnew hproc' =>
    obtain ⟨rfl, hcons⟩ := MainPc.spawning.inj (hpc.symm.trans hpc')
    obtain ⟨rfl, rfl⟩ := List.cons.inj hcons
    obtain rfl := Option.some.inj (hproc.symm.trans hproc')
    refine Or.inl ⟨?_, by simp, ⟨first, todo, rfl⟩, AList.lookup_insert _,
      ⟨Worker.spawned pid inst, by simp, rfl, rfl⟩, fun u y hy hpid => ⟨y, hy, hpid, rfl⟩⟩
    rcases hnew with rfl | hnone
    · exact (hs.first _ hpc).2 pid List.mem_cons_self
    · exact hnone

end Steps
end State

/-! ### Runs -/

section Runs

variable {cfg : Config} {clock : ℕ} {alive : ℤ → Bool} {as : List Action} {s : State}

/-- **At most one worker of a pid has not finished.** -/
theorem runMulti_tableInv (h : runMulti cfg (State.init clock alive) as = some s) : s.TableInv :=
  Run.invariant (fun _ _ _ hs hstep => State.tableInv_step hs hstep)
    (State.tableInv_init clock alive) h

theorem runMulti_numbered (h : runMulti cfg (State.init clock alive) as = some s) : s.Numbered :=
  Run.invariant (fun _ _ _ hs hstep => State.numbered_step hs hstep)
    (State.numbered_init clock alive) h

theorem runMulti_newest (h : runMulti cfg (State.init clock alive) as = some s) : s.Newest := by
  refine (Run.invariant (P := fun s : State => s.Numbered ∧ s.Newest)
    (fun m a s' hm hstep => ⟨State.numbered_step hm.1 hstep,
      State.newest_step hm.1 hm.2 hstep⟩) ⟨State.numbered_init clock alive, ?_⟩ h).2
  constructor <;> simp [State.init]

theorem runMulti_untold (h : runMulti cfg (State.init clock alive) as = some s) : s.Untold := by
  refine Run.invariant (fun _ _ _ hs hstep => State.untold_step hs hstep) ?_ h
  intro _ _ w x hx
  simp [State.init] at hx

/-- After the steps `before`, the steps `mid` of a scan visit `pid` in the state `v`, and `rest`
is what they do then: `ok` tells whether `Target::attach` succeeds there. -/
def VisitedAt (cfg : Config) (s₀ : State) (before mid : List Action) (pid : ℤ) (ok : Bool)
    (v : State) (rest : List Action) : Prop :=
  ∃ mid₁ first todo, mid = mid₁ ++ .main (.spawn ok) :: rest ∧
    runMulti cfg s₀ (before ++ mid₁) = some v ∧ v.main = .spawning first (pid :: todo)

/-- A visit stays a visit when the run goes on. -/
theorem VisitedAt.append {s₀ v : State} {before mid rest : List Action} {pid : ℤ} {ok : Bool}
    (h : VisitedAt cfg s₀ before mid pid ok v rest) (a : Action) :
    VisitedAt cfg s₀ before (mid ++ [a]) pid ok v (rest ++ [a]) := by
  obtain ⟨mid₁, first, todo, rfl, hv, hpc⟩ := h
  exact ⟨mid₁, first, todo, by simp, hv, hpc⟩

/-- **A scan visits every pid it has found.** -/
theorem scan_visits {s₀ d : State} {before mid : List Action} {first : Bool} {pids : List ℤ}
    (hd : runMulti cfg s₀ before = some d) (hpc : d.main = .spawning first pids)
    (hmid : runMulti cfg d mid = some s) (hgo : .main .go ∉ mid)
    (hend : ∃ first, s.main = .spawning first []) :
    ∀ pid ∈ pids, ∃ ok v rest, VisitedAt cfg s₀ before mid pid ok v rest := by
  -- on the way, a pid is still to be visited or has been
  have hway : .main .go ∉ mid → ∃ todo, s.main = .spawning first todo ∧
      ∀ pid ∈ pids, pid ∈ todo ∨ ∃ ok v rest, VisitedAt cfg s₀ before mid pid ok v rest := by
    refine Run.exec_trace (P := fun mid s => .main .go ∉ mid →
      ∃ todo, s.main = .spawning first todo ∧ ∀ pid ∈ pids, pid ∈ todo ∨
        ∃ ok v rest, VisitedAt cfg s₀ before mid pid ok v rest) ?_ ?_ hmid
    · exact fun _ => ⟨pids, hpc, fun pid hpid => Or.inl hpid⟩
    · intro mid m a s' hm ih hstep hgo
      rw [List.mem_append, List.mem_singleton, not_or] at hgo
      obtain ⟨todo, hmain, hvisits⟩ := ih hgo.1
      rcases State.step_spawning hstep hmain (Ne.symm hgo.2) with
        ⟨hmain', -⟩ | ⟨p, rest, ok, rfl, rfl, hmain'⟩
      · refine ⟨todo, hmain', fun pid hpid => ?_⟩
        rcases hvisits pid hpid with htodo | ⟨ok, v, rest, hv⟩
        · exact Or.inl htodo
        · exact Or.inr ⟨ok, v, rest ++ [a], hv.append a⟩
      · refine ⟨rest, hmain', fun pid hpid => ?_⟩
        rcases hvisits pid hpid with htodo | ⟨ok', v, rest', hv⟩
        · rcases List.mem_cons.mp htodo with rfl | hrest
          · have hrun : runMulti cfg s₀ (before ++ mid) = some m := by
              unfold runMulti at hd ⊢
              rw [Run.exec_append, hd]
              exact hm
            exact Or.inr ⟨ok, m, [], mid, first, rest, rfl, hrun, hmain⟩
          · exact Or.inl hrest
        · exact Or.inr ⟨ok', v, rest' ++ [_], hv.append _⟩
  obtain ⟨todo, hmain, hvisits⟩ := hway hgo
  obtain ⟨first', hmain'⟩ := hend
  obtain ⟨-, rfl⟩ := MainPc.spawning.inj (hmain.symm.trans hmain')
  intro pid hpid
  exact (hvisits pid hpid).resolve_left (by simp)

/-- An entry survives the rest of the loop over the pids. -/
theorem kept_run {v v' : State} {pid : ℤ} {w inst : ℕ} (ht : v'.TableInv)
    (hk : State.Kept v pid w inst v') (hgo : .main .go ∉ as) (h : runMulti cfg v' as = some s) :
    State.Kept v pid w inst s := by
  have hgo' : ∀ a ∈ as, a ≠ .main .go := fun a ha heq => hgo (heq ▸ ha)
  refine (Run.invariant_of_forall (P := fun s => s.TableInv ∧ State.Kept v pid w inst s)
    (Q := fun a => a ≠ .main .go) ?_ hgo' ⟨ht, hk⟩ h).2
  intro m a m' hne hm hstep
  exact ⟨State.tableInv_step hm.1 hstep, State.kept_step hm.1 hm.2 hne hstep⟩

/-- The worker in charge stays in its loop until its process is gone, unless it panics. -/
theorem kept_stays {v v' : State} {pid : ℤ} {w inst : ℕ} (ht : v'.TableInv) (hu : v'.Untold)
    (hk : State.Kept v pid w inst v')
    (hin : v'.procs pid = some inst → ∀ x, v'.workers[w]? = some x → ¬ x.Left)
    (hinst : inst < v'.nextInstance) (hgo : .main .go ∉ as) (h : runMulti cfg v' as = some s)
    (hno : ¬ Run.Occurs (State.step cfg) v' as (State.PanicsFor pid))
    (halive : s.procs pid = some inst) : ∀ x, s.workers[w]? = some x → ¬ x.Left := by
  have hway : .main .go ∉ as → ¬ Run.Occurs (State.step cfg) v' as (State.PanicsFor pid) →
      s.TableInv ∧ s.Untold ∧ State.Kept v pid w inst s ∧ inst < s.nextInstance ∧
        (s.procs pid = some inst → ∀ x, s.workers[w]? = some x → ¬ x.Left) := by
    refine Run.exec_trace (P := fun as s => .main .go ∉ as →
      ¬ Run.Occurs (State.step cfg) v' as (State.PanicsFor pid) →
      s.TableInv ∧ s.Untold ∧ State.Kept v pid w inst s ∧ inst < s.nextInstance ∧
        (s.procs pid = some inst → ∀ x, s.workers[w]? = some x → ¬ x.Left)) ?_ ?_ h
    · exact fun _ _ => ⟨ht, hu, hk, hinst, hin⟩
    · intro as m a s' hm ih hstep hgo hno
      rw [List.mem_append, List.mem_singleton, not_or] at hgo
      rw [Run.occurs_concat hm, not_or] at hno
      obtain ⟨htm, hum, hkm, hinstm, hinm⟩ := ih hgo.1 hno.1
      refine ⟨State.tableInv_step htm hstep, State.untold_step hum hstep,
        State.kept_step htm hkm (Ne.symm hgo.2) hstep,
        hinstm.trans_le (State.nextInstance_le hstep), ?_⟩
      intro halive' x' hx'
      have hproc : m.procs pid = some inst := State.alive_of_step hstep hinstm halive'
      obtain ⟨x, hx, hpid, hatt⟩ := hkm.worker
      obtain ⟨y, hy, hc⟩ := State.step_worker hstep hx
      obtain rfl : y = x' := Option.some.inj (hy.symm.trans hx')
      obtain ⟨first, todo, hmain⟩ := hkm.main
      refine hc.stays hum (by rw [hmain]; rfl) (by rw [hmain]; nofun) hx ?_
        (by rw [hpid, hatt, hproc])
        (hinm hproc x hx)
      rintro rfl
      exact hno.2 ⟨w, x, rfl, hx, hpid⟩
  exact (hway hgo hno).2.2.2.2 halive

/-- The worker in charge has left its loop if it had before, or if a worker of its pid has
panicked: that was itself. -/
theorem kept_left {v v' : State} {pid : ℤ} {w inst : ℕ} (ht : v'.TableInv)
    (hk : State.Kept v pid w inst v') (hgo : .main .go ∉ as) (h : runMulti cfg v' as = some s)
    (hleft : (∃ x, v'.workers[w]? = some x ∧ x.Left) ∨
      Run.Occurs (State.step cfg) v' as (State.PanicsFor pid)) :
    ∃ x, s.workers[w]? = some x ∧ x.Left := by
  have hway : .main .go ∉ as → ((∃ x, v'.workers[w]? = some x ∧ x.Left) ∨
      Run.Occurs (State.step cfg) v' as (State.PanicsFor pid)) →
        ∃ x, s.workers[w]? = some x ∧ x.Left := by
    refine Run.exec_trace (P := fun as s => .main .go ∉ as →
      ((∃ x, v'.workers[w]? = some x ∧ x.Left) ∨
        Run.Occurs (State.step cfg) v' as (State.PanicsFor pid)) →
          ∃ x, s.workers[w]? = some x ∧ x.Left) ?_ ?_ h
    · intro _ hleft
      exact hleft.resolve_right (Run.not_occurs_nil _ _)
    · intro as m a s' hm ih hstep hgo hleft
      rw [List.mem_append, List.mem_singleton, not_or] at hgo
      rw [Run.occurs_concat hm, ← or_assoc] at hleft
      rcases hleft with hearlier | ⟨u, y, rfl, hy, hpid⟩
      · obtain ⟨x, hx, hxleft⟩ := ih hgo.1 hearlier
        obtain ⟨x', hx', hc⟩ := State.step_worker hstep hx
        exact ⟨x', hx', hc.left hxleft⟩
      · -- a thread that has not finished is the one in charge
        have hkm := kept_run ht hk hgo.1 hm
        have htm : m.TableInv := Run.invariant (fun _ _ _ hs => State.tableInv_step hs) ht hm
        obtain ⟨first, todo, hmain⟩ := hkm.main
        obtain ⟨z, z', hz, hpanic, rfl⟩ := State.workerStep_eq_some hstep
        obtain rfl : y = z := Option.some.inj (hy.symm.trans hz)
        have hlive : y.pc ≠ .done := by
          intro hdone
          rw [Worker.step_done hdone] at hpanic
          cases hpanic
        have hlook := htm.charge (by rw [hmain]; rfl) u y hy hlive
        rw [hpid, hkm.lookup] at hlook
        obtain rfl := Option.some.inj hlook
        obtain ⟨hlt, -⟩ := List.getElem?_eq_some_iff.mp hy
        refine ⟨z', List.getElem?_set_self hlt, ?_⟩
        cases Worker.step_move hpanic with
        | panics hpc => exact Or.inl rfl
  exact hway hgo hleft

/-- The worker in charge serves the instance it was attached to, if it stays in its loop. -/
theorem serves_of_kept {v v' : State} {pid : ℤ} {w inst : ℕ} (ht : v'.TableInv) (hu : v'.Untold)
    (hk : State.Kept v pid w inst v')
    (hin : s.procs pid = some inst → ∀ x, v'.workers[w]? = some x → ¬ x.Left)
    (hinst : inst < v'.nextInstance) (hgo : .main .go ∉ as) (h : runMulti cfg v' as = some s)
    (hno : s.procs pid = some inst →
      ¬ Run.Occurs (State.step cfg) v' as (State.PanicsFor pid)) : s.Serves pid inst := by
  obtain ⟨x, hx, hpid, hatt⟩ := (kept_run ht hk hgo h).worker
  exact ⟨w, x, hx, hpid, hatt, fun halive => kept_stays ht hu hk (fun _ => hin halive) hinst hgo h
    (hno halive) halive x hx⟩

/-- A worker of the pid that is in its loop is the one in charge. -/
theorem not_left_of_serves {v : State} {pid : ℤ} {w inst inst' : ℕ} (hs : s.TableInv)
    (hk : State.Kept v pid w inst' s) (hserved : s.Serves pid inst)
    (halive : s.procs pid = some inst) : ¬ ∃ x, s.workers[w]? = some x ∧ x.Left := by
  rintro ⟨x, hx, hleft⟩
  obtain ⟨u, y, hy, hypid, -, hstay⟩ := hserved
  obtain ⟨first, todo, hmain⟩ := hk.main
  have hlook := hs.charge (by rw [hmain]; rfl) u y hy fun hdone => hstay halive (Or.inr hdone)
  rw [hypid, hk.lookup] at hlook
  obtain rfl := Option.some.inj hlook
  obtain rfl := Option.some.inj (hx.symm.trans hy)
  exact hstay halive hleft

/-- **What a visit is worth at the end of its scan.**  The instance that runs under
the pid then has a worker exactly when the entry of the pid was not stale, and, if the
instance runs on, the worker does not panic in the rest of the scan. -/
theorem visit_serves_iff {before mid rest : List Action} {pid : ℤ} {v : State}
    (h : runMulti cfg (State.init clock alive) (before ++ mid) = some s)
    (hgo : .main .go ∉ mid)
    (hv : VisitedAt cfg (State.init clock alive) before mid pid true v rest) {inst : ℕ}
    (hproc : v.procs pid = some inst) :
    s.Serves pid inst ↔ v.Fresh pid inst (s.procs pid = some inst) ∧
      (s.procs pid = some inst → ¬ Run.Occurs (State.step cfg) v (.main (.spawn true) :: rest)
        (State.PanicsFor pid)) := by
  obtain ⟨mid₁, first, todo, rfl, hrun, hpc⟩ := hv
  have hcat : before ++ (mid₁ ++ .main (.spawn true) :: rest)
      = (before ++ mid₁) ++ (.main (.spawn true) :: rest) := by simp
  rw [hcat] at h
  obtain ⟨v₁, hv₁, hrest⟩ := Option.bind_eq_some_iff.mp ((Run.exec_append _ _ _).symm.trans h)
  obtain rfl : v = v₁ := Option.some.inj (hrun.symm.trans hv₁)
  obtain ⟨v', hvisit, hrest⟩ := Option.bind_eq_some_iff.mp hrest
  have hrun' : runMulti cfg (State.init clock alive) (before ++ mid₁ ++ [.main (.spawn true)]) =
      some v' := Run.exec_concat.mpr ⟨v, hrun, hvisit⟩
  have htable : v.TableInv := runMulti_tableInv hrun
  have htable' : v'.TableInv := runMulti_tableInv hrun'
  have hgo' : .main .go ∉ rest := fun hmem => hgo (by simp [hmem])
  -- the visit itself is no panic
  have hpanics : Run.Occurs (State.step cfg) v (.main (.spawn true) :: rest)
      (State.PanicsFor pid) ↔ Run.Occurs (State.step cfg) v' rest (State.PanicsFor pid) := by
    rw [Run.occurs_cons]
    constructor
    · rintro (⟨w, x, hact, -⟩ | ⟨m, hm, hocc⟩)
      · cases hact
      · obtain rfl : v' = m := Option.some.inj (hvisit.symm.trans hm)
        exact hocc
    · exact fun hocc => Or.inr ⟨v', hvisit, hocc⟩
  rw [hpanics]
  have hinst : inst < v'.nextInstance :=
    ((runMulti_numbered hrun).procs pid inst hproc).trans_le (State.nextInstance_le hvisit)
  have hserves : ∀ {w : ℕ}, State.Kept v' pid w inst v' →
      (s.procs pid = some inst → ∀ x, v'.workers[w]? = some x → ¬ x.Left) →
      (s.procs pid = some inst → ¬ Run.Occurs (State.step cfg) v' rest (State.PanicsFor pid)) →
      s.Serves pid inst := fun hk hin hno =>
    serves_of_kept htable' (runMulti_untold hrun') hk hin hinst hgo' hrest hno
  -- a worker in charge that has left its loop serves nobody
  have hstays : ∀ {w inst' : ℕ}, State.Kept v' pid w inst' v' → s.Serves pid inst →
      s.procs pid = some inst → ((∃ x, v'.workers[w]? = some x ∧ x.Left) ∨
        Run.Occurs (State.step cfg) v' rest (State.PanicsFor pid)) → False :=
    fun hk hserved halive hleft => not_left_of_serves (runMulti_tableInv h)
      (kept_run htable' hk hgo' hrest) hserved halive (kept_left htable' hk hgo' hrest hleft)
  rcases State.kept_of_visit htable hvisit hpc hproc with ⟨hnone, hnew, hk⟩ |
    ⟨w, x, hw, hx, hworkers, hk⟩
  · -- a new worker
    constructor
    · intro hserved
      refine ⟨fun u hu => ?_, fun halive hocc => ?_⟩
      · rw [hnone] at hu
        cases hu
      · exact hstays hk hserved halive (Or.inr hocc)
    · rintro ⟨-, hno⟩
      refine hserves hk (fun _ y hy => ?_) hno
      rw [hnew] at hy
      obtain rfl := Option.some.inj hy
      rintro (hpc | hpc) <;> cases hpc
  · constructor
    · intro hserved
      refine ⟨fun w' hw' x' hx' => ?_, fun halive hocc => ?_⟩
      · obtain rfl := Option.some.inj (hw.symm.trans hw')
        obtain rfl := Option.some.inj (hx.symm.trans hx')
        have hpid : x.pid = pid := by
          obtain ⟨z, hz, hzpid⟩ := htable.entry pid w hw
          rw [Option.some.inj (hx.symm.trans hz), hzpid]
        refine ⟨?_, fun halive hleft => ?_⟩
        · -- the worker of the instance is none before the one in charge
          obtain ⟨u, y, hy, hypid, hyatt, -⟩ := hserved
          obtain ⟨y₀, hy₀, hpid₀, hatt₀⟩ := (kept_run htable' hk hgo' hrest).old u y hy hypid
          rw [hworkers] at hy₀
          have hnewest := runMulti_newest hrun
          have hle := hnewest.running w x inst hx (by rw [hpid, hproc])
          have hge := hnewest.entry w x hx (by rw [hpid, hw]) u y₀ hy₀ (hpid₀.trans hpid.symm)
          omega
        · exact hstays hk hserved halive (Or.inl ⟨x, by rw [hworkers, hx], hleft⟩)
      · exact hstays hk hserved halive (Or.inr hocc)
    · rintro ⟨hfresh, hno⟩
      obtain ⟨hatt, hin⟩ := hfresh w hw x hx
      rw [hatt] at hk
      refine hserves hk (fun halive y hy => ?_) hno
      rw [hworkers, hx] at hy
      exact Option.some.inj hy ▸ hin halive

/-- **The worker table.**  In every run, at most one worker of a pid has not finished.
At the end of every scan, every pid found has been visited, and where `Target::attach`
succeeds the instance that runs under the pid has a worker attached to it exactly when the
entry of the pid was not stale and, if the instance runs on, no worker of the pid has panicked
since the visit. -/
theorem runMulti_serves_iff (h : runMulti cfg (State.init clock alive) as = some s) :
    (∀ (v w : ℕ) (x y : Worker), s.workers[v]? = some x → s.workers[w]? = some y →
      x.pc ≠ .done → y.pc ≠ .done → x.pid = y.pid → v = w) ∧
    (∀ before mid pids, as = (before ++ [.main (.discover (some pids))]) ++ mid →
        .main .go ∉ mid → (∃ first, s.main = .spawning first []) →
        ∀ pid ∈ pids, ∃ ok v rest, VisitedAt cfg (State.init clock alive)
            (before ++ [.main (.discover (some pids))]) mid pid ok v rest ∧
          (ok = true → ∀ inst, v.procs pid = some inst →
            (s.Serves pid inst ↔ v.Fresh pid inst (s.procs pid = some inst) ∧
              (s.procs pid = some inst → ¬ Run.Occurs (State.step cfg) v
                (.main (.spawn true) :: rest) (State.PanicsFor pid))))) := by
  refine ⟨(runMulti_tableInv h).one, ?_⟩
  rintro before mid pids rfl hgo hend pid hpid
  obtain ⟨d, hd, hmid⟩ := Option.bind_eq_some_iff.mp ((Run.exec_append _ _ _).symm.trans h)
  obtain ⟨m, -, hdiscover⟩ := Run.exec_concat.mp hd
  have hpc : ∃ first, d.main = .spawning first pids := by
    have hmove : State.Move cfg m (.discover (some pids)) d := State.mainStep_move hdiscover
    cases hmove with
    | discover _ hpc => exact ⟨true, rfl⟩
    | rediscover _ hpc => exact ⟨false, rfl⟩
  obtain ⟨first, hpc⟩ := hpc
  obtain ⟨ok, v, rest, hv⟩ := scan_visits hd hpc hmid hgo hend pid hpid
  refine ⟨ok, v, rest, hv, ?_⟩
  rintro rfl inst hproc
  exact visit_serves_iff h hgo hv hproc

end Runs

/-! ### A pid that is used again -/

namespace Scenario

/-- The worker of the process 100 starts; the process exits, another one gets its
pid, and the next scan begins. -/
def pidReused : List Action :=
  [.main .go, .main .go, .main (.discover (some [100])), .main (.spawn true), .main .go,
    .worker 0 .start, .procExit 100, .procStart 100, .main .go, .main .go,
    .tick (fromMillis 50), .main .timeout, .main .go, .main .go, .main (.reap 100), .main .go,
    .main (.discover (some [100]))]

/-- The first scan alone. -/
def firstScan : List Action :=
  ([.main .go, .main .go] ++ [.main (.discover (some [100]))]) ++ [.main (.spawn true)]

end Scenario

open Scenario

theorem runMulti_serves_iff_firstScan :
    ∃ s, runMulti everySecond oneProcess firstScan = some s ∧
      ∃ ok v rest, VisitedAt everySecond oneProcess
          ([.main .go, .main .go] ++ [.main (.discover (some [100]))]) [.main (.spawn true)]
          100 ok v rest ∧
        (ok = true → ∀ inst, v.procs 100 = some inst →
          (s.Serves 100 inst ↔ v.Fresh 100 inst (s.procs 100 = some inst) ∧
            (s.procs 100 = some inst → ¬ Run.Occurs (State.step everySecond) v
              (.main (.spawn true) :: rest) (State.PanicsFor 100)))) := by
  have h : (runMulti everySecond oneProcess firstScan).map State.main =
      some (.spawning true []) := by
    decide +kernel
  obtain ⟨s, hs, hmain⟩ := Option.map_eq_some_iff.mp h
  exact ⟨s, hs, (runMulti_serves_iff hs).2 _ _ _ rfl (by decide) ⟨true, hmain⟩ 100 (by simp)⟩

/-- A run in which a scan finds a process, could attach to it, and leaves it without
a worker of its own: the pid still has the worker of its predecessor. -/
theorem runMulti_serves_not :
    ∃ v s, runMulti everySecond oneProcess pidReused = some v ∧
      v.main = .spawning false [100] ∧ v.procs 100 = some 1 ∧
      v.step everySecond (.main (.spawn true)) = some s ∧
      s.main = .spawning false [] ∧ s.procs 100 = some 1 ∧ ¬ s.Serves 100 1 := by
  have hbefore : (runMulti everySecond oneProcess pidReused).map (fun v => (v.main, v.procs 100)) =
      some (.spawning false [100], some 1) := by
    decide +kernel
  have hafter : (runMulti everySecond oneProcess (pidReused ++ [.main (.spawn true)])).map
      (fun s => (s.main, s.procs 100, s.workers.map Worker.attached)) =
      some (.spawning false [], some 1, [0]) := by
    decide +kernel
  obtain ⟨v, hv, heq⟩ := Option.map_eq_some_iff.mp hbefore
  obtain ⟨hmain, hproc⟩ : _ ∧ _ := by simpa only [Prod.mk.injEq] using heq
  obtain ⟨s, hs, heq⟩ := Option.map_eq_some_iff.mp hafter
  obtain ⟨hmain', hproc', hattached⟩ : _ ∧ _ ∧ _ := by simpa only [Prod.mk.injEq] using heq
  obtain ⟨m, hm, hvisit⟩ := Run.exec_concat.mp hs
  obtain rfl : v = m := Option.some.inj (hv.symm.trans hm)
  refine ⟨v, s, hv, hmain, hproc, hvisit, hmain', hproc', ?_⟩
  rintro ⟨w, x, hx, -, hatt, -⟩
  have hmem : x.attached ∈ s.workers.map Worker.attached :=
    List.mem_map_of_mem (List.mem_of_getElem? hx)
  rw [hattached, hatt] at hmem
  simp at hmem

end PhpFastProfile
