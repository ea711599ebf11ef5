import PhpFastProfile.Sampler.Delivery
import PhpFastProfile.Sampler.Workers

/-!
# Whose sample is it

The event loop puts the pid of the worker in front of the URI of a request, so
that the samples of different workers can be told apart in the output.  The drain
of the teardown writes what it receives as it is.

## Main definitions

* `Write.CarriesPid` — a message is written with its worker's pid in front of its URI.
* `UriDrained` — in the run, the drain receives a message with a URI.

## Main results

* `runMulti_labelled` — every message carries the pid of the worker it is from.
* `runMulti_annotates_iff` — **every URI carries its pid exactly when none is drained.**
* `runMulti_annotates_not` — a run that writes a URI without a pid.
-/

namespace PhpFastProfile

/-! ### Messages carry their pid -/

/-- What a worker sends carries its pid. -/
structure Worker.Labelled (x : Worker) : Prop where
  sending : ∀ msg, x.pc = .sending msg → msg.pid = x.pid
  queue : ∀ msg ∈ x.queue, msg.pid = x.pid

theorem Worker.labelled_spawned (pid : ℤ) (attached : ℕ) :
    (Worker.spawned pid attached).Labelled :=
  ⟨nofun, nofun⟩

theorem Worker.labelled_step {cfg : Config} {env : Surroundings} {x x' : Worker}
    {a : WorkerAction} (hx : x.Labelled) (h : x.step cfg env a = some x') : x'.Labelled := by
  cases step_move h with
  | describes uri method frames hpc =>
    refine ⟨fun msg hmsg => ?_, hx.queue⟩
    obtain rfl := WorkerPc.sending.inj hmsg
    rfl
  | sends msg hpc hrx =>
    refine ⟨nofun, fun m hm => ?_⟩
    rcases List.mem_append.mp hm with hm | hm
    · exact hx.queue m hm
    · obtain rfl := List.mem_singleton.mp hm
      exact hx.sending m hpc
  | _ => exact ⟨nofun, hx.queue⟩

theorem State.Change.labelled {cfg : Config} {s : State} {w : ℕ} {x x' : Worker} {a : Action}
    (hx : x.Labelled) (h : Change cfg s w x a x') : x'.Labelled := by
  cases h with
  | rests => exact hx
  | steps b _ h => exact Worker.labelled_step hx h
  | received accepted msg rest hqueue =>
    refine ⟨hx.sending, fun m hm => hx.queue m ?_⟩
    rw [hqueue]
    exact List.mem_cons_of_mem _ hm
  | signalled => exact ⟨hx.sending, hx.queue⟩

section Runs

variable {cfg : Config} {clock : ℕ} {alive : ℤ → Bool} {as : List Action} {s : State}

/-- **Every message that waits carries the pid of the worker it is from.** -/
theorem runMulti_labelled (h : runMulti cfg (State.init clock alive) as = some s) :
    ∀ (w : ℕ) (x : Worker), s.workers[w]? = some x → x.Labelled :=
  runMulti_workers Worker.labelled_spawned (fun _ _ _ _ _ hx hc => hc.labelled hx) h

/-! ### What is written -/

/-- The message is from the worker `p`, and it is written with `[pid p] ` in front
of its URI and otherwise unchanged. -/
structure Write.CarriesPid (x : Write) (p : ℤ) : Prop where
  pid : x.msg.pid = p
  uri : x.info.requestUri = x.msg.info.requestUri.map fun u => "[pid " ++ toString p ++ "] " ++ u
  method : x.info.requestMethod = x.msg.info.requestMethod

/-- Every write carries the pid of the worker it is from. -/
def State.Annotates (s : State) : Prop :=
  ∀ x ∈ s.written, ∃ v, s.workers[x.worker]? = some v ∧ x.CarriesPid v.pid

/-- The drain of the teardown receives a message with a URI. -/
def State.DrainsUri (s : State) (a : Action) : Prop :=
  (∃ deadline, s.main = .draining deadline) ∧
  ∃ w accepted v msg rest, a = .main (.recv w accepted) ∧ s.workers[w]? = some v ∧
    v.queue = msg :: rest ∧ msg.info.requestUri ≠ none

/-- Somewhere in the run the drain receives a message with a URI. -/
def UriDrained (cfg : Config) (s : State) (as : List Action) : Prop :=
  Run.Occurs (State.step cfg) s as State.DrainsUri

theorem annotation_ne (p : ℤ) (u : String) : "[pid " ++ toString p ++ "] " ++ u ≠ u := by
  intro h
  have hlen := congrArg String.length h
  simp only [String.length_append] at hlen
  have hpos : 0 < "[pid ".length := by decide
  omega

theorem SampleMsg.annotated_carriesPid {msg : SampleMsg} {p : ℤ} (hp : msg.pid = p) (w : ℕ)
    (accepted : Bool) : (Write.mk w msg msg.annotated accepted).CarriesPid p := by
  subst hp
  exact ⟨rfl, rfl, rfl⟩

/-- A message written as it is carries its pid only if it has no URI. -/
theorem SampleMsg.info_carriesPid_iff {msg : SampleMsg} {p : ℤ} (hp : msg.pid = p) (w : ℕ)
    (accepted : Bool) :
    (Write.mk w msg msg.info accepted).CarriesPid p ↔ msg.info.requestUri = none := by
  constructor
  · rintro ⟨-, huri, -⟩
    cases hu : msg.info.requestUri with
    | none => rfl
    | some u =>
      simp only [hu, Option.map_some, Option.some.injEq] at huri
      exact absurd huri.symm (annotation_ne p u)
  · intro hu
    refine ⟨hp, ?_, rfl⟩
    simp only [hu, Option.map_none]

/-- What a step writes: nothing, or the oldest message of a worker. -/
theorem State.step_written {m : State} {a : Action} (h : m.step cfg a = some s) :
    (s.written = m.written ∧ ¬ m.DrainsUri a) ∨
    ∃ w accepted v msg rest info, a = .main (.recv w accepted) ∧ m.workers[w]? = some v ∧
      v.queue = msg :: rest ∧ s.written = m.written ++ [⟨w, msg, info, accepted⟩] ∧
      ((info = msg.annotated ∧ ∃ deadline, m.main = .receiving deadline) ∨
        (info = msg.info ∧ ∃ deadline, m.main = .draining deadline)) := by
  have hno : ∀ {b}, (∀ w accepted, b ≠ Action.main (.recv w accepted)) → ¬ m.DrainsUri b := by
    rintro b hb ⟨-, w, accepted, -, -, -, rfl, -⟩
    exact hb w accepted rfl
  rcases step_parties h with ⟨w, b, rfl, h⟩ | ⟨b, rfl, h⟩ | hevent
  · obtain ⟨y, y', -, -, rfl⟩ := State.workerStep_eq_some h
    exact Or.inl ⟨rfl, hno (by simp)⟩
  · cases mainStep_move h with
    | recv w accepted deadline v msg rest hpc hv hqueue =>
      exact Or.inr ⟨w, accepted, v, msg, rest, _, rfl, hv, hqueue, rfl,
        Or.inl ⟨rfl, deadline, hpc⟩⟩
    | drain w accepted deadline v msg rest hpc hv hqueue =>
      exact Or.inr ⟨w, accepted, v, msg, rest, _, rfl, hv, hqueue, rfl,
        Or.inr ⟨rfl, deadline, hpc⟩⟩
    | _ => exact Or.inl ⟨rfl, hno (by simp)⟩
  · cases hevent <;> exact Or.inl ⟨rfl, hno (by simp)⟩

/-- What was written before a step carries its pid exactly when it still does. -/
theorem State.carriesPid_step {m : State} {a : Action} (h : m.step cfg a = some s) (x : Write)
    {v : Worker} (hv : m.workers[x.worker]? = some v) :
    (∃ v', s.workers[x.worker]? = some v' ∧ x.CarriesPid v'.pid) ↔ x.CarriesPid v.pid := by
  obtain ⟨v', hv', hc⟩ := step_worker h hv
  rw [← hc.same.1]
  constructor
  · rintro ⟨u, hu, hcarries⟩
    obtain rfl : u = v' := Option.some.inj (hu.symm.trans hv')
    exact hcarries
  · exact fun hcarries => ⟨v', hv', hcarries⟩

/-- A message that is received is written with its pid exactly when no URI is drained. -/
theorem State.carriesPid_recv_iff {m : State} {w : ℕ} {accepted : Bool} {v : Worker}
    {msg : SampleMsg} {rest : List SampleMsg} {info : SampleMeta} (hv : m.workers[w]? = some v)
    (hqueue : v.queue = msg :: rest) (hp : msg.pid = v.pid)
    (hinfo : (info = msg.annotated ∧ ∃ deadline, m.main = .receiving deadline) ∨
      (info = msg.info ∧ ∃ deadline, m.main = .draining deadline)) :
    (Write.mk w msg info accepted).CarriesPid v.pid ↔
      ¬ m.DrainsUri (.main (.recv w accepted)) := by
  rcases hinfo with ⟨rfl, deadline, hpc⟩ | ⟨rfl, deadline, hpc⟩
  · -- the event loop annotates
    have hno : ¬ m.DrainsUri (.main (.recv w accepted)) := by
      rintro ⟨⟨d, hd⟩, -⟩
      rw [hpc] at hd
      cases hd
    exact iff_of_true (SampleMsg.annotated_carriesPid hp w accepted) hno
  · rw [SampleMsg.info_carriesPid_iff hp w accepted]
    constructor
    · rintro huri ⟨-, u, b, y, msg', rest', heq, hy, hqueue', hne⟩
      obtain ⟨rfl, -⟩ := MainAction.recv.inj (Action.main.inj heq)
      obtain rfl : v = y := Option.some.inj (hv.symm.trans hy)
      obtain ⟨rfl, -⟩ := List.cons.inj (hqueue.symm.trans hqueue')
      exact hne huri
    · intro hno
      by_contra hne
      exact hno ⟨⟨deadline, hpc⟩, w, accepted, v, msg, rest, rfl, hv, hqueue, hne⟩

/-- What a run knows: every write is from a worker there is, and it carries the
pid of its worker if no URI was drained. -/
structure AnnotationKnows (cfg : Config) (s₀ : State) (as : List Action) (s : State) : Prop where
  worker : ∀ x ∈ s.written, ∃ v, s.workers[x.worker]? = some v
  annotates : s.Annotates ↔ ¬ UriDrained cfg s₀ as

theorem annotationKnows_step {s₀ m : State} {a : Action} (hm : runMulti cfg s₀ as = some m)
    (hlabel : ∀ (w : ℕ) (x : Worker), m.workers[w]? = some x → x.Labelled)
    (hk : AnnotationKnows cfg s₀ as m) (h : m.step cfg a = some s) :
    AnnotationKnows cfg s₀ (as ++ [a]) s := by
  have hdrained : UriDrained cfg s₀ (as ++ [a]) ↔ UriDrained cfg s₀ as ∨ m.DrainsUri a :=
    Run.occurs_concat hm
  -- the earlier writes
  have hold : (∀ x ∈ m.written, ∃ v, s.workers[x.worker]? = some v ∧ x.CarriesPid v.pid) ↔
      ¬ UriDrained cfg s₀ as := by
    rw [← hk.annotates]
    unfold State.Annotates
    refine forall₂_congr fun x hx => ?_
    obtain ⟨v, hv⟩ := hk.worker x hx
    rw [State.carriesPid_step h x hv]
    exact ⟨fun hc => ⟨v, hv, hc⟩, fun ⟨u, hu, hc⟩ => Option.some.inj (hu.symm.trans hv) ▸ hc⟩
  have hworker : ∀ x ∈ m.written, ∃ v, s.workers[x.worker]? = some v := by
    intro x hx
    obtain ⟨v, hv⟩ := hk.worker x hx
    obtain ⟨v', hv', -⟩ := State.step_worker h hv
    exact ⟨v', hv'⟩
  rcases State.step_written h with ⟨hwritten, hno⟩ |
    ⟨w, accepted, v, msg, rest, info, rfl, hv, hqueue, hwritten, hinfo⟩
  · refine ⟨by rw [hwritten]; exact hworker, ?_⟩
    unfold State.Annotates
    rw [hwritten, hold, hdrained]
    simp [hno]
  · have hp : msg.pid = v.pid := (hlabel w v hv).queue msg (by rw [hqueue]; exact .head _)
    obtain ⟨v', hv', -⟩ := State.step_worker h hv
    have hnew : (∃ v', s.workers[w]? = some v' ∧
        (Write.mk w msg info accepted).CarriesPid v'.pid) ↔
        ¬ m.DrainsUri (.main (.recv w accepted)) :=
      (State.carriesPid_step h ⟨w, msg, info, accepted⟩ hv).trans
        (State.carriesPid_recv_iff hv hqueue hp hinfo)
    constructor
    · intro x hx
      rw [hwritten] at hx
      rcases List.mem_append.mp hx with hx | hx
      · exact hworker x hx
      · obtain rfl := List.mem_singleton.mp hx
        exact ⟨v', hv'⟩
    · have hsplit : s.Annotates ↔
          (∀ x ∈ m.written, ∃ v, s.workers[x.worker]? = some v ∧ x.CarriesPid v.pid) ∧
          ∃ v', s.workers[w]? = some v' ∧ (Write.mk w msg info accepted).CarriesPid v'.pid := by
        unfold State.Annotates
        rw [hwritten]
        simp only [List.mem_append, List.mem_singleton, or_imp, forall_and, forall_eq]
      rw [hsplit, hold, hnew, hdrained, not_or]

theorem runMulti_annotationKnows (h : runMulti cfg (State.init clock alive) as = some s) :
    AnnotationKnows cfg (State.init clock alive) as s := by
  refine Run.exec_trace (P := AnnotationKnows cfg (State.init clock alive)) ?_ ?_ h
  · constructor
    · intro x hx
      cases hx
    · simp [State.Annotates, UriDrained, State.init]
  · intro as m a s' hm hk hstep
    exact annotationKnows_step hm (runMulti_labelled hm) hk hstep

/-- **Annotation.**  In every run, every message written so far carries the pid of
the worker it is from, and is otherwise unchanged, exactly when the drain of the
teardown has received no message with a URI. -/
theorem runMulti_annotates_iff (h : runMulti cfg (State.init clock alive) as = some s) :
    (∀ x ∈ s.written, ∃ v, s.workers[x.worker]? = some v ∧ x.CarriesPid v.pid) ↔
      ¬ UriDrained cfg (State.init clock alive) as :=
  (runMulti_annotationKnows h).annotates

/-! ### A URI without a pid -/

namespace Scenario

/-- As `everySecond`, with the description of the request. -/
def withRequests : Config := { everySecond with requestInfo := true }

/-- One iteration of the worker during a request to `/a`. -/
def oneRequest : List Action :=
  [.worker 0 .check, .worker 0 .pace, .worker 0 .pace, .worker 0 (.capture (some job)),
    .worker 0 (.describe (some "/a") (some "GET")), .worker 0 .send]

/-- The worker starts, and sends a sample. -/
def firstRequest : List Action :=
  [.main .go, .main .go, .main (.discover (some [100])), .main (.spawn true), .main .go,
    .main .go, .main .go, .worker 0 .start] ++ oneRequest

/-- The sample is written, and then the profiler is stopped. -/
def writtenFirst : List Action :=
  firstRequest ++ [.main (.recv 0 true), .main .go, .main .go, .main (.reap 100), .main .go,
    .main (.discover none)] ++ shutDown

/-- The sample is sent, but the profiler is stopped before it is received. -/
def drainedLast : List Action :=
  [.main .go, .main .go, .main (.discover (some [100])), .main (.spawn true), .main .go,
    .worker 0 .start] ++ oneRequest ++ shutDown ++ [.main (.recv 0 true)]

end Scenario

end Runs

open Scenario

theorem runMulti_annotates_iff_writtenFirst :
    ∃ s, runMulti withRequests oneProcess writtenFirst = some s ∧
      s.written = [⟨0, ⟨100, job, ⟨some "/a", some "GET"⟩⟩,
        ⟨some "[pid 100] /a", some "GET"⟩, true⟩] ∧
      ((∀ x ∈ s.written, ∃ v, s.workers[x.worker]? = some v ∧ x.CarriesPid v.pid) ↔
        ¬ UriDrained withRequests oneProcess writtenFirst) := by
  have h : (runMulti withRequests oneProcess writtenFirst).map State.written =
      some [⟨0, ⟨100, job, ⟨some "/a", some "GET"⟩⟩,
        ⟨some "[pid 100] /a", some "GET"⟩, true⟩] := by
    decide +kernel
  obtain ⟨s, hs, hwritten⟩ := Option.map_eq_some_iff.mp h
  exact ⟨s, hs, hwritten, runMulti_annotates_iff hs⟩

/-- A run that hands the sink a URI without the pid. -/
theorem runMulti_annotates_not :
    ∃ s, runMulti withRequests oneProcess drainedLast = some s ∧
      ∃ x ∈ s.written, ∃ v, s.workers[x.worker]? = some v ∧ v.pid = 100 ∧
        x.msg.info.requestUri = some "/a" ∧ x.info.requestUri = some "/a" ∧
        ¬ x.CarriesPid v.pid := by
  have h : (runMulti withRequests oneProcess drainedLast).map (fun s =>
      (s.written, (s.workers[0]?).map Worker.pid)) =
      some ([⟨0, ⟨100, job, ⟨some "/a", some "GET"⟩⟩, ⟨some "/a", some "GET"⟩, true⟩],
        some 100) := by
    decide +kernel
  obtain ⟨s, hs, heq⟩ := Option.map_eq_some_iff.mp h
  obtain ⟨hwritten, hpid⟩ : _ ∧ _ := by simpa only [Prod.mk.injEq] using heq
  obtain ⟨v, hv, hpid⟩ := Option.map_eq_some_iff.mp hpid
  refine ⟨s, hs, _, by rw [hwritten]; exact .head _, v, hv, hpid, rfl, rfl, ?_⟩
  rintro ⟨-, huri, -⟩
  rw [hpid] at huri
  exact absurd huri (by decide +kernel)

end PhpFastProfile
