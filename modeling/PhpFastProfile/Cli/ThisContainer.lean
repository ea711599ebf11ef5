import PhpFastProfile.Cli
import PhpFastProfile.Sampler.RunTop
import PhpFastProfile.Sampler.Workers

/-!
# `--this-container`

A scan is restricted to the container of the profiler by the container id, looked up
once at the start.  `cli::run` gives up when there is no id; `run_top` then scans
without the restriction.  An empty id, on either path, is contained in everything.

## Main definitions

* `Scanning`, `scanStep` — `run_multi` with what its scans read.
* `Attaches` — the processes a run attaches to, each with the scan that has found it.
* `SharesContainer` — the scan has seen the profiler's own container id.

## Main results

* `scanStep_scanned` — the pids still to be given a worker are of the last scan.
* `sharesContainer_of_discover` — what a scan for a container id has found.
* `exists_attaches` — every process can be found by a scan without a container id.
* `thisContainer_iff` — **`--this-container` is respected exactly when the profiler's own
  control group names a container, or names none and `cli::run` sees that.**
* `thisContainer_ignored` — a run of the live display that ignores it.
-/

namespace PhpFastProfile

/-! ### Scans -/

/-- `run_multi`, with what the last scan that did not fail has read. -/
structure Scanning where
  state : State
  scan : Option ProcFs

/-- `found` is what a scan that reads `fs` returns, in some order. -/
def Answers (filter : ProcessFilter) (fs : ProcFs) (found : Option (List ℤ)) : Prop :=
  found.map List.toFinset = discover filter fs

instance (filter : ProcessFilter) (fs : ProcFs) (found : Option (List ℤ)) :
    Decidable (Answers filter fs found) := inferInstanceAs (Decidable (_ = _))

/-- One step of `run_multi` while `/proc` reads as `fs`. -/
def scanStep (cfg : Config) (filter : ProcessFilter) (s : Scanning) :
    Action × ProcFs → Option Scanning
  | (.main (.discover found), fs) =>
    if Answers filter fs found then
      (s.state.step cfg (.main (.discover found))).map fun t =>
        { state := t, scan := if found.isSome then some fs else s.scan }
    else none
  | (a, _) => (s.state.step cfg a).map fun t => { s with state := t }

/-- The profiler is started with `args` while `/proc/self/cgroup` reads as `own`, and
attaches to `pid`, which the given scan has found, if one has. -/
inductive Attaches (args : Args) (own : Option (List UInt8)) : Option ProcFs → ℤ → Prop
  | single {pid : ℤ} (hlaunch : Cli.run args own = .single pid) : Attaches args own none pid
  | multi {filter : ProcessFilter} (hlaunch : Cli.run args own = .multi filter)
    {clock : ℕ} {alive : ℤ → Bool} {steps : List (Action × ProcFs)} {m m' : Scanning}
    (hrun : Run.exec (scanStep args.config filter) ⟨State.init clock alive, none⟩ steps = some m)
    {a : Action × ProcFs} (hstep : scanStep args.config filter m a = some m')
    {w : ℕ} {first : Bool} {pid : ℤ} {todo : List ℤ} {attached : ℕ}
    (hhires : m.state.Hires m'.state a.1 w first pid todo attached) : Attaches args own m.scan pid
  | topSingle {pid : ℤ} (hlaunch : Cli.run args own = .topSingle pid) {clock : ℕ}
    {present : ℤ → Bool} {as : List Top.Action} {s s' : Top.State}
    (hrun : Top.run args.config (Top.init clock present [pid]) as = some s) {i : ℕ}
    (hstep : Top.step args.config s (.sampler i (.attach true)) = some s') :
    Attaches args own none pid
  | top {filter : ProcessFilter} (hlaunch : Cli.run args own = .top filter) {fs : ProcFs}
    {pids : List ℤ} (hscan : Answers filter fs (some pids)) {started : List ℤ}
    -- a thread that cannot be started is left out
    (hstarted : started.Sublist pids) {clock : ℕ} {present : ℤ → Bool} {as : List Top.Action}
    {s s' : Top.State} (hrun : Top.run args.config (Top.init clock present started) as = some s)
    {i : ℕ} {x : Top.Sampler} (hx : s.samplers[i]? = some x)
    (hstep : Top.step args.config s (.sampler i (.attach true)) = some s') :
    Attaches args own (some fs) x.pid

/-- The scan has read a control group of `pid` that contains the id of the profiler's own
container, which is not empty. -/
def SharesContainer (own : Option (List UInt8)) (scan : Option ProcFs) (pid : ℤ) : Prop :=
  ∃ id, selfCgroupId own = some id ∧ id ≠ "" ∧ ∃ fs, scan = some fs ∧
    ∃ text, readToString (fs.cgroup pid) = some text ∧ id.toList <:+: text.toList

/-! ### The last scan -/

/-- The pids still to be given a worker are of the last scan. -/
def Scanning.Scanned (filter : ProcessFilter) (s : Scanning) : Prop :=
  ∀ first todo, s.state.main = .spawning first todo →
    ∃ fs pids, s.scan = some fs ∧ Answers filter fs (some pids) ∧ ∀ pid ∈ todo, pid ∈ pids

section Scans

variable {cfg : Config} {filter : ProcessFilter} {s s' : Scanning}

/-- A step is a scan or leaves what the last scan has read. -/
theorem scanStep_cases {a : Action × ProcFs} (h : scanStep cfg filter s a = some s') :
    (∃ found, a.1 = .main (.discover found) ∧ Answers filter a.2 found ∧
      s.state.step cfg a.1 = some s'.state ∧
      s'.scan = if found.isSome then some a.2 else s.scan) ∨
    ((∀ found, a.1 ≠ .main (.discover found)) ∧ s.state.step cfg a.1 = some s'.state ∧
      s'.scan = s.scan) := by
  obtain ⟨a, fs⟩ := a
  unfold scanStep at h
  split at h
  · next found fs' heq =>
    obtain ⟨rfl, rfl⟩ := Prod.mk.inj heq
    split at h
    · next hanswers =>
      obtain ⟨t, ht, rfl⟩ := Option.map_eq_some_iff.mp h
      exact Or.inl ⟨found, rfl, hanswers, ht, rfl⟩
    · cases h
  · next b fs' hno heq =>
    obtain ⟨rfl, rfl⟩ := Prod.mk.inj heq
    obtain ⟨t, ht, rfl⟩ := Option.map_eq_some_iff.mp h
    exact Or.inr ⟨hno, ht, rfl⟩

/-- A step that is no scan adds no pid to those still to be given a worker. -/
theorem todo_of_step {s s' : State} {a : Action} (h : s.step cfg a = some s')
    (hno : ∀ found, a ≠ .main (.discover found)) {first : Bool} {todo' : List ℤ}
    (hmain : s'.main = .spawning first todo') :
    ∃ todo, s.main = .spawning first todo ∧ ∀ pid ∈ todo', pid ∈ todo := by
  rcases State.step_cases h with ⟨w, b, rfl, h⟩ | ⟨b, rfl, h⟩ | ⟨-, -, -, hsame⟩
  · obtain ⟨x, x', -, -, rfl⟩ := State.workerStep_eq_some h
    exact ⟨todo', hmain, fun _ h => h⟩
  · have hkept : ∀ {pid todo}, MainPc.spawning first (pid :: todo) = s.main → todo = todo' →
        ∃ todo, s.main = .spawning first todo ∧ ∀ pid ∈ todo', pid ∈ todo := by
      rintro pid todo hpc rfl
      exact ⟨pid :: todo, hpc.symm, fun _ h => List.mem_cons_of_mem _ h⟩
    cases State.mainStep_move h with
    | discover pids => exact absurd rfl (hno (some pids))
    | rediscover pids => exact absurd rfl (hno (some pids))
    | keep ok pid todo hpc =>
      obtain ⟨rfl, rfl⟩ := MainPc.spawning.inj hmain
      exact hkept hpc.symm rfl
    | spawnFails first' pid todo hpc =>
      obtain ⟨rfl, rfl⟩ := MainPc.spawning.inj hmain
      exact hkept hpc.symm rfl
    | spawn first' pid todo attached hpc =>
      obtain ⟨rfl, rfl⟩ := MainPc.spawning.inj hmain
      exact hkept hpc.symm rfl
    | _ => cases hmain
  · exact ⟨todo', hsame ▸ hmain, fun _ h => h⟩

/-- After a scan the pids to be given a worker are those it has found. -/
theorem todo_of_discover {s s' : State} {found : Option (List ℤ)}
    (h : s.step cfg (.main (.discover found)) = some s') {first : Bool} {todo : List ℤ}
    (hmain : s'.main = .spawning first todo) : found = some todo := by
  have hmove : s.Move cfg (.discover found) s' := State.mainStep_move h
  cases hmove with
  | discoverFails => cases hmain
  | discover pids => rw [(MainPc.spawning.inj hmain).2]
  | rediscoverFails => cases hmain
  | rediscover pids => rw [(MainPc.spawning.inj hmain).2]

/-- **The pids still to be given a worker stay those of the last scan.** -/
theorem scanStep_scanned (a : Action × ProcFs) (hs : s.Scanned filter)
    (h : scanStep cfg filter s a = some s') : s'.Scanned filter := by
  intro first todo' hmain
  rcases scanStep_cases h with ⟨found, ha, hanswers, hstep, hscan⟩ | ⟨hno, hstep, hscan⟩
  · rw [ha] at hstep
    obtain rfl := todo_of_discover hstep hmain
    exact ⟨a.2, todo', hscan, hanswers, fun _ h => h⟩
  · obtain ⟨todo, hpc, hsub⟩ := todo_of_step hstep hno hmain
    obtain ⟨fs, pids, hfs, hpids, hall⟩ := hs first todo hpc
    exact ⟨fs, pids, hscan.trans hfs, hpids, fun pid hpid => hall pid (hsub pid hpid)⟩

end Scans

/-! ### Scans for a container id -/

/-- **What a scan for a container id has found.** -/
theorem sharesContainer_of_answers {args : Args} {own : Option (List UInt8)} {fs : ProcFs}
    {pids : List ℤ} {id : String} (hid : selfCgroupId own = some id) (hne : id ≠ "")
    (hanswers : Answers (args.filter (some id)) fs (some pids)) {pid : ℤ} (hpid : pid ∈ pids) :
    SharesContainer own (some fs) pid := by
  have hfound : discover (args.filter (some id)) fs = some pids.toFinset := hanswers.symm
  have hmatches := ((mem_discover hfound).mp (List.mem_toFinset.mpr hpid)).2
  have hcgroup := (matches_eq_some_true_iff.mp hmatches).2.2 id rfl
  refine ⟨id, hid, hne, fs, rfl, ?_⟩
  unfold readTrim at hcgroup
  cases htext : readToString (fs.cgroup pid) with
  | none =>
    -- only the empty text is contained in the empty text
    rw [htext] at hcgroup
    exact absurd (String.toList_eq_nil_iff.mp (List.infix_nil.mp hcgroup)) hne
  | some text =>
    rw [htext] at hcgroup
    exact ⟨text, rfl, hcgroup.trans (Text.trim_infix text.toList)⟩

/-- With a container id that is not empty only its container is attached to. -/
theorem sharesContainer_of_attaches {args : Args} {own : Option (List UInt8)}
    (hthis : args.thisContainer = true) (hdisc : args.Discovers) {id : String}
    (hid : selfCgroupId own = some id) (hne : id ≠ "") {scan : Option ProcFs} {pid : ℤ}
    (h : Attaches args own scan pid) : SharesContainer own scan pid := by
  have hrun := Cli.run_thisContainer hthis hdisc own
  rw [hid] at hrun
  cases h with
  | single hlaunch =>
    rw [hlaunch] at hrun
    split at hrun <;> cases hrun
  | @multi filter hlaunch clock alive steps m m' hexec a hstep w first pid todo attached hhires =>
    rw [hlaunch] at hrun
    split at hrun
    · cases hrun
    · obtain rfl := Launch.multi.inj hrun
      have hscanned : m.Scanned (args.filter (some id)) :=
        Run.invariant (P := Scanning.Scanned _) (fun _ a _ hs h => scanStep_scanned a hs h)
          (fun first todo hmain => by cases hmain) hexec
      obtain ⟨fs, pids, hfs, hanswers, hall⟩ := hscanned first (pid :: todo) hhires.main
      rw [hfs]
      exact sharesContainer_of_answers hid hne hanswers (hall pid List.mem_cons_self)
  | topSingle hlaunch =>
    rw [hlaunch] at hrun
    split at hrun <;> cases hrun
  | @top filter hlaunch fs pids hanswers started hstarted clock present as t t' hexec i x hx =>
    rw [hlaunch] at hrun
    split at hrun
    · obtain rfl := Launch.top.inj hrun
      refine sharesContainer_of_answers hid hne hanswers (hstarted.subset ?_)
      rw [← Top.pids_of_run hexec]
      exact List.mem_map_of_mem (List.mem_of_getElem? hx)
    · cases hrun

/-! ### Scans without a container id -/

/-- A text with `s` inside that trimming leaves alone. -/
def framed (s : Option String) : String := String.ofList ('|' :: ((s.getD "").toList ++ ['|']))

/-- A process table whose only process fits `args` and has no readable control group. -/
def fittingFs (args : Args) : ProcFs where
  entries := some [some (Utf8.encode "42".toList)]
  comm := fun _ => some (Utf8.encode (framed args.pgrep).toList)
  cmdline := fun _ => some (Utf8.encode (framed args.cmdline).toList)
  cgroup := fun _ => none

theorem trim_framed (s : Option String) : Text.trim (framed s).toList = (framed s).toList := by
  rw [framed, String.toList_ofList]
  exact Text.trim_eq_self (by decide) (by decide) _

theorem infix_framed (s : Option String) : (s.getD "").toList <:+: (framed s).toList := by
  rw [framed, String.toList_ofList]
  exact ⟨['|'], ['|'], by simp⟩

/-- There is no NUL to replace. -/
theorem map_framed {s : Option String} (h : ∀ n, s = some n → '\x00' ∉ n.toList) :
    (framed s).toList.map (fun c => if c = '\x00' then ' ' else c) = (framed s).toList := by
  refine (List.map_congr_left fun c hc => if_neg ?_).trans (List.map_id _)
  rintro rfl
  rw [framed, String.toList_ofList] at hc
  cases s with
  | none => exact absurd hc (by decide)
  | some n => exact h n rfl (by simpa using hc)

theorem matches_fittingFs (args : Args) {cgroup : Option String}
    (hcgroup : ∀ id, cgroup = some id → id = "") (pid : ℤ) :
    (fittingFs args).matches pid (args.filter cgroup) = some true := by
  rw [matches_eq_some_true_iff]
  refine ⟨fun n hn => ⟨(framed args.pgrep).toList, ?_, ?_⟩,
    fun n hn => ⟨(framed args.cmdline).toList, ?_, ?_⟩, fun n hn => ?_⟩
  · show readTrim (some _) = some _
    rw [readTrim, readToString, Option.bind_some, Utf8.fromUtf8_encode, Option.map_some,
      trim_framed]
  · have hinfix := infix_framed args.pgrep
    rwa [show args.pgrep = some n from hn] at hinfix ⊢
  · show readCmdline (some _) = some _
    have hnoNul := fun n hn => args.noNul n (Or.inr hn)
    rw [readCmdline, Option.map_some, Utf8.lossy_encode, map_framed hnoNul, trim_framed]
  · have hinfix := infix_framed args.cmdline
    rwa [show args.cmdline = some n from hn] at hinfix ⊢
  · rw [hcgroup n hn]
    exact List.nil_infix

theorem pids_fittingFs (args : Args) : (fittingFs args).pids = some [42] := by
  have hname : entryPid (some (Utf8.encode "42".toList)) = some 42 := by
    rw [entryPid_encode]
    decide
  simp only [ProcFs.pids, fittingFs, Option.map_some, List.filterMap_cons, hname,
    List.filterMap_nil]

/-- A scan without a container id finds the process. -/
theorem answers_fittingFs (args : Args) {cgroup : Option String}
    (hcgroup : ∀ id, cgroup = some id → id = "") :
    Answers (args.filter cgroup) (fittingFs args) (some [42]) := by
  simp [Answers, discover, pids_fittingFs, matches_fittingFs args hcgroup]

/-- **Every process can be found by a scan without a container id**, and is attached to. -/
theorem exists_attaches {args : Args} {own : Option (List UInt8)} {cgroup : Option String}
    (hcgroup : ∀ id, cgroup = some id → id = "")
    (hlaunch : Cli.run args own = .multi (args.filter cgroup) ∨
      Cli.run args own = .top (args.filter cgroup)) :
    Attaches args own (some (fittingFs args)) 42 := by
  have hanswers := answers_fittingFs args hcgroup
  rcases hlaunch with hlaunch | hlaunch
  · let s₁ : State := { State.init 0 fun _ => true with main := .discovering }
    let m : Scanning := ⟨{ s₁ with main := .spawning true [42] }, some (fittingFs args)⟩
    let m' : Scanning := ⟨{ s₁ with
      workers := [Worker.spawned 42 0], table := s₁.table.insert 42 0, main := .spawning true [] },
      some (fittingFs args)⟩
    have hscan : scanStep args.config (args.filter cgroup) ⟨s₁, none⟩
        (.main (.discover (some [42])), fittingFs args) = some m := by
      rw [scanStep, if_pos hanswers]
      rfl
    have hrun := Run.exec_concat.mpr ⟨_, show Run.exec (scanStep args.config (args.filter cgroup))
      ⟨State.init 0 fun _ => true, none⟩ [(.main .go, fittingFs args), (.main .go, fittingFs args)]
        = some ⟨s₁, none⟩ from rfl, hscan⟩
    have hstep : scanStep args.config (args.filter cgroup) m (.main (.spawn true), fittingFs args)
        = some m' := rfl
    exact .multi hlaunch hrun hstep
      (w := 0) ⟨rfl, rfl, Or.inl rfl, rfl, rfl, rfl, rfl, rfl⟩
  · have hrun : Top.run args.config (Top.init 0 (fun _ => true) [42]) []
        = some (Top.init 0 (fun _ => true) [42]) := rfl
    exact .top hlaunch hanswers (List.Sublist.refl _) hrun (i := 0) rfl rfl

/-! ### The main result -/

/-- **`--this-container` is respected exactly when `/proc/self/cgroup` names a container,
not a blank one, or when it names none and the display is not the live one.** -/
theorem thisContainer_iff (args : Args) (hthis : args.thisContainer = true)
    (hdisc : args.Discovers) (own : Option (List UInt8)) :
    (∀ scan pid, Attaches args own scan pid → SharesContainer own scan pid) ↔
      (∀ line, containerLine own = some line → ¬ BlankName line) ∧
        (containerLine own = none → args.format ≠ .top) := by
  have hrun := Cli.run_thisContainer hthis hdisc own
  rw [← selfCgroupId_eq_none_iff]
  constructor
  · intro h
    -- a scan without an id finds a process that does not share the container
    have hno : ∀ cgroup, selfCgroupId own = cgroup → (∀ id, cgroup = some id → id = "") →
        ¬ (Cli.run args own = .multi (args.filter cgroup) ∨
          Cli.run args own = .top (args.filter cgroup)) := by
      rintro cgroup rfl hempty hlaunch
      obtain ⟨id, hid, hne, -⟩ := h _ _ (exists_attaches hempty hlaunch)
      exact hne (hempty id hid)
    refine ⟨fun line hline hblank => ?_, fun hnone htop => ?_⟩
    · have hid := selfCgroupId_eq_empty_iff.mpr ⟨line, hline, hblank⟩
      refine hno _ hid (fun id h => (Option.some.inj h).symm) ?_
      rw [hrun, hid]
      split
      · exact Or.inr rfl
      · exact Or.inl rfl
    · refine hno _ hnone (by simp) (Or.inr ?_)
      rw [hrun, if_pos htop, hnone]
  · rintro ⟨hblank, htop⟩ scan pid hattaches
    cases hid : selfCgroupId own with
    | some id =>
      refine sharesContainer_of_attaches hthis hdisc hid ?_ hattaches
      rintro rfl
      obtain ⟨line, hline, hempty⟩ := selfCgroupId_eq_empty_iff.mp hid
      exact hblank line hline hempty
    | none =>
      -- `cli::run` has given up
      rw [if_neg (htop hid), hid, Option.elim_none] at hrun
      cases hattaches with
      | single hlaunch => rw [hrun] at hlaunch; cases hlaunch
      | multi hlaunch => rw [hrun] at hlaunch; cases hlaunch
      | topSingle hlaunch => rw [hrun] at hlaunch; cases hlaunch
      | top hlaunch => rw [hrun] at hlaunch; cases hlaunch

/-- A sidecar that profiles the workers of a pool. -/
def sidecarArgs (format : Format) : Args where
  pid := none
  pgrep := some "php-fpm"
  cmdline := none
  thisContainer := true
  rediscoverSecs := 5
  rateHz := 99
  durationSecs := 0
  format := format
  requestInfo := false
  dropLeaf := []
  conflicts := by simp
  noNul := by simp

theorem thisContainer_iff_docker :
    let own := some (Utf8.encode "0::/system.slice/docker-1f2e.scope\n".toList)
    ∀ scan pid, Attaches (sidecarArgs .top) own scan pid → SharesContainer own scan pid := by
  intro own
  have hid : selfCgroupId own = some "1f2e" := by
    rw [selfCgroupId, readToString, Option.bind_some, Utf8.fromUtf8_encode]
    decide
  refine (thisContainer_iff (sidecarArgs .top) rfl (Or.inl rfl) own).mpr ⟨?_, ?_⟩
  · intro line hline hblank
    have hempty := selfCgroupId_eq_empty_iff.mpr ⟨line, hline, hblank⟩
    rw [hid] at hempty
    exact absurd hempty (by decide)
  · intro hnone
    rw [selfCgroupId_eq_none_iff.mpr hnone] at hid
    cases hid

/-- **The live display ignores `--this-container`** where the control group names no
container. -/
theorem thisContainer_ignored :
    let args := sidecarArgs .top
    let own := some (Utf8.encode "0::/\n".toList)
    args.thisContainer = true ∧ args.Discovers ∧
      ∃ fs pid, Attaches args own (some fs) pid ∧ ¬ SharesContainer own (some fs) pid := by
  intro args own
  have hnone : selfCgroupId own = none := by
    rw [selfCgroupId, readToString, Option.bind_some, Utf8.fromUtf8_encode]
    decide
  refine ⟨rfl, Or.inl rfl, fittingFs args, 42, ?_, ?_⟩
  · refine exists_attaches (by simp : ∀ id, none = some id → id = "") (Or.inr ?_)
    have htop : args.format = .top := rfl
    rw [Cli.run_thisContainer rfl (Or.inl rfl), if_pos htop, hnone]
  · rintro ⟨id, hid, -⟩
    rw [hnone] at hid
    cases hid

end PhpFastProfile
