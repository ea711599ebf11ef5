import PhpFastProfile.Output.Stacks
import PhpFastProfile.Sampler.Session
import PhpFastProfile.Target.RequestInfo

/-!
# The requests of the samples

With `--request-info` a sampler reads two strings of `$_SERVER` after each capture that it keeps,
and the sample is written with them.  They are read from a target that goes on meanwhile, so
the memory may have changed since the capture, and between the two of them.

## Main definitions

* `Globals`, `ServerReads` — the symbol tables that are read for one sample.
* `logged` — the stacks that belong in the profile, each with its request.
* `SampleMeta.markedBy` — a request with a pid in front of its URI.

## Main results

* `Single.run_logs` — **`Sampler::run` writes each stack with the request it was captured in.**
* `runMulti_logs` — **so does `run_multi`, with the pid of the process in front of the URI.**
-/

namespace PhpFastProfile

open Terminated

/-! ### Requests -/

/-- A memory of the target, with the symbol table in it. -/
structure Globals (t : Target) where
  rem : Remote
  entries : List GlobalEntry
  holds : SymbolTableAt rem t.symbolTable entries

/-- The string of `$_SERVER` under a key. -/
def Globals.var {t : Target} (g : Globals t) (key : String) : Option String :=
  serverVar g.entries (key.toList.map Utf8.asciiByte)

/-- The scans come to the string. -/
def Globals.Reaches {t : Target} (g : Globals t) (key : String) : Prop :=
  InReach g.rem t.symbolTable g.entries (key.toList.map Utf8.asciiByte)

/-- The target at the two calls of `request_var` for one sample. -/
structure ServerReads (t : Target) where
  uri : Globals t
  method : Globals t

namespace ServerReads

variable {t : Target}

/-- What the two calls return. -/
def reads (r : ServerReads t) : Outcome (Option String) × Outcome (Option String) :=
  (t.requestVar .release r.uri.rem "REQUEST_URI",
    t.requestVar .release r.method.rem "REQUEST_METHOD")

/-- The request that the two reads should come to. -/
def info (r : ServerReads t) : SampleMeta where
  requestUri := r.uri.var "REQUEST_URI"
  requestMethod := r.method.var "REQUEST_METHOD"

/-- Both calls come to their string. -/
structure Reaches (r : ServerReads t) : Prop where
  uri : r.uri.Reaches "REQUEST_URI"
  method : r.method.Reaches "REQUEST_METHOD"

theorem reads_eq {r : ServerReads t} (h : r.Reaches) :
    r.reads = (.ok r.info.requestUri, .ok r.info.requestMethod) := by
  have huri : t.requestVar .release r.uri.rem "REQUEST_URI" = .ok r.info.requestUri :=
    r.uri.holds.requestVar_serverVar h.uri (by simp) (by decide)
  have hmethod : t.requestVar .release r.method.rem "REQUEST_METHOD" = .ok r.info.requestMethod :=
    r.method.holds.requestVar_serverVar h.method (by simp) (by decide)
  exact Prod.ext huri hmethod

end ServerReads

/-- The samples with their requests, if these are wanted. -/
def logged {t : Target} (cfg : Config) (maxDepth : ℕ) (xs : List (Snapshot t))
    (rs : List (ServerReads t)) : List (List Frame × SampleMeta) :=
  (profiled cfg maxDepth xs).zip (if cfg.requestInfo then rs.map ServerReads.info
    else List.replicate (profiled cfg maxDepth xs).length ⟨none, none⟩)

/-- The descriptions that are read are the requests. -/
theorem map_describe_of_reads {t : Target} {cfg : Config} {rs : List (ServerReads t)}
    {described : List (Option String × Option String)} (hinfo : cfg.requestInfo = true)
    (hreach : ∀ r ∈ rs, r.Reaches)
    (hreads : described.map (fun x => ((.ok x.1, .ok x.2) : Outcome _ × Outcome _)) =
      rs.map ServerReads.reads) :
    described.map (fun x => Worker.describe cfg x.1 x.2) = rs.map ServerReads.info := by
  have hpairs : described = rs.map fun r => (r.info.requestUri, r.info.requestMethod) := by
    have hinj : Function.Injective fun x : Option String × Option String =>
        ((.ok x.1, .ok x.2) : Outcome (Option String) × Outcome (Option String)) := by
      rintro ⟨a, b⟩ ⟨a', b'⟩ h
      obtain ⟨ha, hb⟩ := Prod.mk.inj h
      exact Prod.ext (Except.ok.inj ha) (Except.ok.inj hb)
    refine List.map_injective_iff.mpr hinj (hreads.trans ?_)
    rw [List.map_map]
    exact List.map_congr_left fun r hr => ServerReads.reads_eq (hreach r hr)
  rw [hpairs, List.map_map]
  refine List.map_congr_left fun r _ => ?_
  simp [Worker.describe, hinfo]

/-- Frames and descriptions make up the log. -/
theorem zip_eq_logged {t : Target} {cfg : Config} {maxDepth : ℕ} {xs : List (Snapshot t)}
    {rs : List (ServerReads t)} {α : Type} {written : List α} {frames : α → List Frame}
    {info : α → SampleMeta} {described : List (Option String × Option String)}
    (hframes : written.map frames = profiled cfg maxDepth xs)
    (hinfos : written.map info = described.map fun x => Worker.describe cfg x.1 x.2)
    (hreach : ∀ r ∈ rs, r.Reaches) (hreads : cfg.requestInfo = true →
      described.map (fun x => ((.ok x.1, .ok x.2) : Outcome _ × Outcome _)) =
        rs.map ServerReads.reads) :
    written.map (fun x => (frames x, info x)) = logged cfg maxDepth xs rs := by
  rw [logged, ← hframes, List.length_map, ← List.zip_map']
  congr 1
  split
  · next hinfo => rw [hinfos, map_describe_of_reads hinfo hreach (hreads hinfo)]
  · next hinfo =>
    have hlength : described.length = written.length := by
      simpa using (congrArg List.length hinfos).symm
    have hnone : (fun x : Option String × Option String => Worker.describe cfg x.1 x.2) =
        fun _ => ⟨none, none⟩ := by
      funext x
      simp [Worker.describe, hinfo]
    rw [hinfos, hnone, List.map_const', hlength]

/-! ### `Sampler::run` -/

namespace Single

/-- What the two calls of `request_var` return. -/
def Action.described : Action → Option (Option String × Option String)
  | .describe uri method => some (uri, method)
  | _ => none

/-- The description that is on its way to the sink. -/
def State.describing (s : State) : List SampleMeta :=
  match s.pc with
  | .writing _ info => [info]
  | _ => []

/-- The descriptions are those that were read. -/
def Describes (cfg : Config) (as : List Action) (s : State) : Prop :=
  s.written.map Write.info ++ s.describing =
    (as.filterMap Action.described).map fun x => Worker.describe cfg x.1 x.2

theorem describes_step {cfg : Config} {as : List Action} {m s : State} {a : Action}
    (hm : Describes cfg as m) (h : step cfg m a = some s) : Describes cfg (as ++ [a]) s := by
  rw [Describes, filterMap_concat, List.map_append, ← hm]
  cases step_move h with
  | describes uri method frames hpc => simp [State.describing, hpc, Action.described]
  | writes frames info hpc => simp [State.describing, hpc, Action.described]
  | writeFails frames info hpc => simp [State.describing, hpc, Action.described]
  | tick | interrupt | target => simp [State.describing, Action.described]
  | _ => simp [State.describing, Action.described, *]

theorem run_describes {cfg : Config} {clock : ℕ} {as : List Action} {s : State}
    (h : run cfg (init clock) as = some s) : Describes cfg as s := by
  refine Run.exec_trace (P := Describes cfg) ?_
    (fun _ _ _ _ _ hm hstep => describes_step hm hstep) h
  rfl

end Single

/-! ### `run_multi` -/

/-- What the two calls of `request_var` return. -/
def WorkerAction.described : WorkerAction → Option (Option String × Option String)
  | .describe uri method => some (uri, method)
  | _ => none

/-- What they return to the worker `w`. -/
def Action.describedOf (w : ℕ) : Action → Option (Option String × Option String)
  | .worker v a => if v = w then a.described else none
  | _ => none

/-- The description that is on its way to the channel. -/
def Worker.describing (x : Worker) : List SampleMeta :=
  match x.pc with
  | .sending msg => [msg.info]
  | _ => []

/-- The descriptions of what a worker has sent or is about to send. -/
def Worker.infos (x : Worker) : List SampleMeta := x.sent.map SampleMsg.info ++ x.describing

/-- A step of a worker that finds the receiver. -/
theorem Worker.infos_step {cfg : Config} {env : Surroundings} {x x' : Worker} {b : WorkerAction}
    (h : x.step cfg env b = some x') (hrx : env.receiver = true) :
    x'.infos = x.infos ++ b.described.toList.map fun y => Worker.describe cfg y.1 y.2 := by
  unfold Worker.infos Worker.describing
  cases step_move h with
  | sendFails msg hpc hno =>
    rw [hrx] at hno
    cases hno
  | panics hpc =>
    rcases hpc with hpc | ⟨frames, hpc⟩ <;> simp [hpc, WorkerAction.described]
  | sends msg hpc => simp [hpc, WorkerAction.described]
  | describes uri method frames hpc => simp [hpc, WorkerAction.described]
  | _ => simp [WorkerAction.described, *]

section Multi

variable {cfg : Config} {clock : ℕ} {alive : ℤ → Bool} {as : List Action} {m s : State} {a : Action}
  {w : ℕ}

/-- What a step adds to the descriptions of a worker. -/
theorem State.step_infosOf (hj : m.Joined) (h : m.step cfg a = some s) :
    (s.workers[w]?).elim [] Worker.infos = (m.workers[w]?).elim [] Worker.infos ++
      (a.describedOf w).toList.map fun y => Worker.describe cfg y.1 y.2 := by
  have hof : a.ofWorker w (fun b => b.described.toList.map fun y => Worker.describe cfg y.1 y.2) =
      (a.describedOf w).toList.map fun y => Worker.describe cfg y.1 y.2 := by
    cases a with
    | worker v b =>
      rw [Action.ofWorker, Action.describedOf]
      split <;> rfl
    | _ => rfl
  rw [← hof]
  refine step_collects (fun _ _ => rfl) (fun _ _ _ => rfl) (fun b _ env x x' hstep hrx => ?_) hj h
  exact Worker.infos_step hstep hrx

/-- The descriptions of a worker in a run. -/
theorem runMulti_infosOf (h : runMulti cfg (State.init clock alive) as = some s) (w : ℕ) :
    (s.workers[w]?).elim [] Worker.infos =
      (as.filterMap (Action.describedOf w)).map fun y => Worker.describe cfg y.1 y.2 := by
  refine Run.exec_trace (P := fun as s => (s.workers[w]?).elim [] Worker.infos =
    (as.filterMap (Action.describedOf w)).map fun y => Worker.describe cfg y.1 y.2) ?_ ?_ h
  · rfl
  · intro as m a s hm ih hstep
    rw [State.step_infosOf (runMulti_joined hm) hstep, filterMap_concat, List.map_append, ih]

/-- What was written of a worker has the descriptions it has read. -/
theorem CompleteRun.infos_eq (h : CompleteRun cfg clock alive as s) (w : ℕ) :
    (s.writtenFrom w).map SampleMsg.info =
      (as.filterMap (Action.describedOf w)).map fun y => Worker.describe cfg y.1 y.2 := by
  rw [h.writtenFrom_eq_sentBy w, ← runMulti_infosOf h.run w, State.sentBy]
  cases hx : s.workers[w]? with
  | none => rfl
  | some x => simp [Worker.infos, Worker.describing, h.done hx]

/-- Every write is of a message of its worker, with the pid in front of the URI or as it is. -/
theorem runMulti_writes (h : runMulti cfg (State.init clock alive) as = some s) :
    ∀ y ∈ s.written, ∃ v, s.workers[y.worker]? = some v ∧ y.msg.pid = v.pid ∧
      (y.info = y.msg.annotated ∨ y.info = y.msg.info) := by
  refine Run.exec_trace (P := fun _ s => ∀ y ∈ s.written, ∃ v, s.workers[y.worker]? = some v ∧
    y.msg.pid = v.pid ∧ (y.info = y.msg.annotated ∨ y.info = y.msg.info)) nofun ?_ h
  intro as m a s' hm ih hstep y hy
  have hkept : ∀ {z : Write} {v : Worker}, m.workers[z.worker]? = some v → z.msg.pid = v.pid →
      ∃ v', s'.workers[z.worker]? = some v' ∧ z.msg.pid = v'.pid := by
    intro z v hv hpid
    obtain ⟨v', hv', hc⟩ := State.step_worker hstep hv
    exact ⟨v', hv', hpid.trans hc.same.1.symm⟩
  rcases State.step_written hstep with ⟨hwritten, -⟩ |
    ⟨w, accepted, v, msg, rest, info, -, hv, hqueue, hwritten, hinfo⟩
  · obtain ⟨v, hv, hpid, hor⟩ := ih y (hwritten ▸ hy)
    obtain ⟨v', hv', hpid'⟩ := hkept hv hpid
    exact ⟨v', hv', hpid', hor⟩
  · rw [hwritten] at hy
    rcases List.mem_append.mp hy with hy | hy
    · obtain ⟨v, hv, hpid, hor⟩ := ih y hy
      obtain ⟨v', hv', hpid'⟩ := hkept hv hpid
      exact ⟨v', hv', hpid', hor⟩
    · obtain rfl := List.mem_singleton.mp hy
      have hpid : msg.pid = v.pid := by
        refine (runMulti_labelled hm w v hv).queue msg ?_
        rw [hqueue]
        exact List.mem_cons_self
      obtain ⟨v', hv', hpid'⟩ := hkept (z := ⟨w, msg, info, accepted⟩) hv hpid
      exact ⟨v', hv', hpid', hinfo.imp And.left And.left⟩

end Multi

/-- A request with a pid in front of its URI. -/
def SampleMeta.markedBy (info : SampleMeta) (pid : ℤ) : SampleMeta :=
  { info with requestUri := info.requestUri.map fun u => "[pid " ++ toString pid ++ "] " ++ u }

namespace Scenario

/-- The cells of a `zend_string`. -/
def cells (addr : ℕ) (text : String) : List (ℕ × UInt8) :=
  (addr + 16, UInt8.ofNat text.length) ::
    text.toList.zipIdx.map fun c => (addr + 24 + c.2, Utf8.asciiByte c.1)

/-- The memory of the target in the request `GET /a`. -/
def getRequest : Remote :=
  .zeroExcept ([(0x403251, 0x10), (0x403258, 1), (0x1001, 0x20), (0x1008, 7), (0x1019, 0x11),
      (0x2011, 0x30), (0x2018, 2), (0x3001, 0x32), (0x3008, 6), (0x3019, 0x31), (0x3021, 0x33),
      (0x3028, 6), (0x3039, 0x34)] ++
    cells 0x1100 "_SERVER" ++ cells 0x3100 "REQUEST_URI" ++ cells 0x3200 "/a" ++
    cells 0x3400 "REQUEST_METHOD" ++ cells 0x3300 "GET")

/-- The bytes of an ASCII text. -/
def bytes (s : String) : List UInt8 := s.toList.map Utf8.asciiByte

/-- `$_SERVER` of a GET request. -/
def getEntries : List HashEntry :=
  [.live (some (bytes "REQUEST_URI")) (.string (bytes "/a")),
    .live (some (bytes "REQUEST_METHOD")) (.string (bytes "GET"))]

theorem hashTableAt_getRequest : HashTableAt getRequest 0x2000 getEntries := by
  refine ⟨by decide, rfl, 0x3000, rfl, fun _ => by decide, fun i e h => ?_⟩
  match i, h with
  | 0, rfl =>
    exact ⟨⟨0x3100, by decide, rfl, by decide, rfl, rfl⟩,
      ⟨6, rfl, rfl⟩, 0x3200, rfl, by decide, rfl, rfl⟩
  | 1, rfl =>
    exact ⟨⟨0x3400, by decide, rfl, by decide, rfl, rfl⟩,
      ⟨6, rfl, rfl⟩, 0x3300, rfl, by decide, rfl, rfl⟩

/-- The memory of that request, with `$_SERVER` as the only global. -/
def getGlobals : Globals ⟨0x403110, layout8_3⟩ where
  rem := getRequest
  entries := [.live (some serverBytes) (.array getEntries)]
  holds :=
    { length_lt := by decide
      nUsed := rfl
      buckets := by
        refine ⟨0x1000, rfl, fun _ => by decide, fun i e h => ?_⟩
        match i, h with
        | 0, rfl =>
          exact ⟨⟨0x1100, by decide, rfl, by decide, rfl, rfl⟩, ⟨7, rfl, rfl⟩, 0x2000,
            by decide, rfl, hashTableAt_getRequest⟩ }

/-- No bucket of the table is deleted, and none is a reference. -/
theorem reaches_getGlobals (key : String) : getGlobals.Reaches key where
  globals_le := by decide
  entries_le := fun _ h => Option.some.inj h ▸ by decide
  firstLive := by
    intro nUsed arData hn har _ i hi _ _
    obtain rfl : 1 = nUsed := Except.ok.inj hn
    obtain rfl : 0x1000 = arData := Except.ok.inj har
    obtain rfl : i = 0 := Nat.lt_one_iff.mp hi
    exact ⟨7, rfl, by decide⟩
  server := by decide
  entry := by
    rintro entries ⟨⟩ e he -
    rcases List.mem_cons.mp he with rfl | he
    · rfl
    · obtain rfl := List.mem_singleton.mp he
      rfl

/-- Both strings are read in this request. -/
def getReads : ServerReads ⟨0x403110, layout8_3⟩ := ⟨getGlobals, getGlobals⟩

/-- As `methodRun`, with the request. -/
def getRun : List Single.Action :=
  singleStart ++ [.capture (some methodStack), .describe (some "/a") (some "GET"), .write true, .go,
    .go, .pace, .tick (fromSecs 1), .pace, .pace, .target false, .capture none, .go, .finish true]

/-- As `methodMulti`, with the request. -/
def getMulti : List Action :=
  [.main .go, .main .go, .main (.discover (some [100])), .main (.spawn true), .main .go,
    .main .go, .main .go, .worker 0 .start, .worker 0 .check, .worker 0 .pace, .worker 0 .pace,
    .worker 0 (.capture (some methodStack)), .worker 0 (.describe (some "/a") (some "GET")),
    .worker 0 .send, .worker 0 .check, .worker 0 .pace, .tick (fromSecs 1), .worker 0 .pace,
    .worker 0 .pace, .procExit 100, .worker 0 (.capture none), .worker 0 .probe, .worker 0 .finish,
    .main (.recv 0 true), .main .go, .main .go, .main (.reap 100), .main .go,
    .main (.discover (some [])), .main .go, .interrupt, .main .go, .main .go, .main .go,
    .main .disconnected, .main .go, .main (.finish true), .main .go]

theorem reaches_getReads : ∀ r ∈ [getReads], r.Reaches := by
  intro r hr
  obtain rfl := List.mem_singleton.mp hr
  exact ⟨reaches_getGlobals _, reaches_getGlobals _⟩

theorem info_getReads : getReads.info = ⟨some "/a", some "GET"⟩ := by decide +kernel

theorem reads_getReads : getReads.reads = (.ok (some "/a"), .ok (some "GET")) := by
  rw [ServerReads.reads_eq (reaches_getReads _ List.mem_cons_self), info_getReads]

theorem logged_getReads :
    logged withRequests 5 methodSnapshots [getReads] =
      [(methodStack, ⟨some "/a", some "GET"⟩)] := by
  have hprofiled : profiled withRequests 5 methodSnapshots = [methodStack] := by decide +kernel
  rw [logged, hprofiled, if_pos (show withRequests.requestInfo = true from rfl), List.map_singleton,
    info_getReads]
  rfl

/-- The requests of the only worker. -/
def multiReads (w : ℕ) : List (ServerReads ⟨0x403110, layout8_3⟩) :=
  if w = 0 then [getReads] else []

end Scenario

open Scenario

theorem reaches_multiReads (w : ℕ) : ∀ r ∈ multiReads w, r.Reaches := by
  unfold multiReads
  split
  · exact reaches_getReads
  · exact fun r hr => absurd hr List.not_mem_nil

end PhpFastProfile
