import PhpFastProfile.Discover
import PhpFastProfile.Sampler

/-!
# The command line

`Cli.run` decides from the arguments what is started: the sampler of one process,
`run_multi` with a filter, or the live display.  The sink that `run_multi` is going
to write to is not looked at here.

## Main definitions

* `Args` — the arguments.
* `Launch` — what is started.
* `Cli.run` — the dispatch, with `runTop` for the live display.
-/

namespace PhpFastProfile

/-- The output formats of `--format`. -/
inductive Format where
  | stacks
  | folded
  | pprof
  | top
  deriving DecidableEq, Repr

/-- The arguments, less what only `Target::attach` and `build_sink` read. -/
structure Args where
  pid : Option ℤ
  pgrep : Option String
  cmdline : Option String
  thisContainer : Bool
  rediscoverSecs : ℕ
  rateHz : ℕ
  durationSecs : ℕ
  format : Format
  requestInfo : Bool
  dropLeaf : List String
  /-- `--pid` conflicts with `--pgrep` and `--cmdline`. -/
  conflicts : pid ≠ none → pgrep = none ∧ cmdline = none
  /-- The arguments of a program hold no NUL. -/
  noNul : ∀ needle, pgrep = some needle ∨ cmdline = some needle → '\x00' ∉ needle.toList

/-- `-P` or `--cmdline` is given. -/
def Args.Discovers (args : Args) : Prop := args.pgrep.isSome ∨ args.cmdline.isSome

instance (args : Args) : Decidable args.Discovers := inferInstanceAs (Decidable (_ ∨ _))

/-- What the arguments say about sampling. -/
def Args.config (args : Args) : Config where
  interval := 1000000000 / max args.rateHz 1
  duration := if args.durationSecs = 0 then none else some (fromSecs args.durationSecs)
  rediscoverSecs := args.rediscoverSecs
  requestInfo := args.requestInfo
  dropLeaf := args.dropLeaf

/-- What the arguments say about which processes to look for. -/
def Args.filter (args : Args) (cgroup : Option String) : ProcessFilter where
  name := args.pgrep
  cmdline := args.cmdline
  cgroup := cgroup

/-- What is started. -/
inductive Launch where
  /-- Nothing: an error is returned. -/
  | failed
  /-- `Sampler::attach` and `Sampler::run`. -/
  | single (pid : ℤ)
  /-- `run_multi`. -/
  | multi (filter : ProcessFilter)
  /-- The live display of one process. -/
  | topSingle (pid : ℤ)
  /-- The live display of the processes a scan finds. -/
  | top (filter : ProcessFilter)

/-- `run_top` up to its scan, where `own` is what reading `/proc/self/cgroup` returns. -/
def runTop (args : Args) (own : Option (List UInt8)) : Launch :=
  match args.pid with
  | some pid => .topSingle pid
  | none =>
    if args.Discovers then
      .top (args.filter (if args.thisContainer then selfCgroupId own else none))
    else .failed

/-- `cli::run`. -/
def Cli.run (args : Args) (own : Option (List UInt8)) : Launch :=
  if args.format = .top then runTop args own
  else
    match args.pid with
    | some pid => .single pid
    | none =>
      if args.Discovers then
        if args.thisContainer then
          match selfCgroupId own with
          | some id => .multi (args.filter (some id))
          -- `--this-container` is set but there is no container
          | none => .failed
        else .multi (args.filter none)
      else .failed

/-- Where processes are to be discovered no pid is given. -/
theorem Args.pid_eq_none {args : Args} (h : args.Discovers) : args.pid = none := by
  by_contra hpid
  obtain ⟨hpgrep, hcmdline⟩ := args.conflicts hpid
  rcases h with h | h
  · rw [hpgrep] at h
    cases h
  · rw [hcmdline] at h
    cases h

/-- **What `--this-container` starts.** -/
theorem Cli.run_thisContainer {args : Args} (hthis : args.thisContainer = true)
    (hdisc : args.Discovers) (own : Option (List UInt8)) :
    Cli.run args own =
      if args.format = .top then .top (args.filter (selfCgroupId own))
      else (selfCgroupId own).elim .failed fun id => .multi (args.filter (some id)) := by
  unfold Cli.run runTop
  rw [args.pid_eq_none hdisc]
  cases selfCgroupId own <;> simp [hthis, hdisc]

end PhpFastProfile
