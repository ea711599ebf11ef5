import PhpFastProfile.Lib.Text
import PhpFastProfile.Lib.Utf8
import Mathlib.Data.Finset.Dedup

/-!
# Process discovery

`discover` reads `/proc` once and returns the pids whose name, command line and
control group contain the wanted parts.  `selfCgroupId` cuts the container id of
the profiler itself out of its own control group.

## Main definitions

* `ProcFs` — what the reads of one scan return.
* `ProcessFilter`, `discover` — the scan.
* `selfCgroupId` — the container id of the profiler.
* `containerLine`, `BlankName` — the line the id is taken from, and when it is empty.

## Main results

* `matches_eq_some_true_iff` — what a match has seen.
* `mem_discover` — which pids a scan returns.
* `selfCgroupId_eq_none_iff`, `selfCgroupId_eq_empty_iff` — when there is no id, and when
  it is empty.
-/

namespace PhpFastProfile

/-! ### Reading `/proc` -/

/-- What the reads of one scan return; a read that fails gives `none`. -/
structure ProcFs where
  /-- The names in `/proc`. -/
  entries : Option (List (Option (List UInt8)))
  comm : ℤ → Option (List UInt8)
  cmdline : ℤ → Option (List UInt8)
  cgroup : ℤ → Option (List UInt8)

/-- `fs::read_to_string`, given what reading the file returns. -/
def readToString (file : Option (List UInt8)) : Option String := file.bind Utf8.fromUtf8

/-- `read_trim`, given what reading the file returns. -/
def readTrim (file : Option (List UInt8)) : Option (List Char) :=
  (readToString file).map fun s => Text.trim s.toList

/-- `read_cmdline`, given what reading the file returns: the arguments, with a space for a NUL. -/
def readCmdline (file : Option (List UInt8)) : Option (List Char) :=
  file.map fun raw =>
    Text.trim ((Utf8.lossy raw).map fun c => if c = '\x00' then ' ' else c)

/-- The pid that an entry of `/proc` is named after; an entry that cannot be read is `none`. -/
def entryPid (name : Option (List UInt8)) : Option ℤ :=
  (name.bind Utf8.fromUtf8).bind fun s => Text.parseI32 s.toList

theorem entryPid_encode (s : String) :
    entryPid (some (Utf8.encode s.toList)) = Text.parseI32 s.toList := by
  rw [entryPid, Option.bind_some, Utf8.fromUtf8_encode, Option.bind_some]

/-! ### The scan -/

/-- What a process must have in its name, command line and control group. -/
structure ProcessFilter where
  /-- Substring matched against `/proc/PID/comm`. -/
  name : Option String
  /-- Substring matched against `/proc/PID/cmdline`. -/
  cmdline : Option String
  /-- Substring matched against `/proc/PID/cgroup`. -/
  cgroup : Option String

/-- One of the three blocks of `matches`: the text is looked at only if there is a
needle, and `rest` only if the text contains it. -/
def checkNeedle (needle : Option String) (text : Option (List Char)) (rest : Option Bool) :
    Option Bool :=
  match needle with
  | none => rest
  | some needle => text.bind fun t => if Text.contains t needle.toList then rest else some false

/-- `matches`; an error is `none`. -/
def ProcFs.matches (fs : ProcFs) (pid : ℤ) (f : ProcessFilter) : Option Bool :=
  checkNeedle f.name (readTrim (fs.comm pid)) <|
    checkNeedle f.cmdline (readCmdline (fs.cmdline pid)) <|
      -- a control group that cannot be read counts as empty
      checkNeedle f.cgroup (some ((readTrim (fs.cgroup pid)).getD [])) (some true)

/-- The pids `/proc` lists. -/
def ProcFs.pids (fs : ProcFs) : Option (List ℤ) :=
  fs.entries.map fun entries => entries.filterMap entryPid

/-- `discover`: the pids that a scan of `/proc` returns, or nothing when `/proc` cannot be read. -/
def discover (f : ProcessFilter) (fs : ProcFs) : Option (Finset ℤ) :=
  fs.pids.map fun pids => (pids.filter fun pid => (fs.matches pid f).getD false).toFinset

theorem checkNeedle_eq_some_true_iff {needle : Option String} {text : Option (List Char)}
    {rest : Option Bool} : checkNeedle needle text rest = some true ↔
      (∀ n ∈ needle, ∃ t ∈ text, n.toList <:+: t) ∧ rest = some true := by
  cases needle with
  | none => simp [checkNeedle]
  | some n =>
    cases text with
    | none => simp [checkNeedle]
    | some t =>
      by_cases h : n.toList <:+: t <;> simp [checkNeedle, Text.contains, h]

/-- **What a match has seen.** -/
theorem matches_eq_some_true_iff {fs : ProcFs} {pid : ℤ} {f : ProcessFilter} :
    fs.matches pid f = some true ↔
      (∀ n ∈ f.name, ∃ t ∈ readTrim (fs.comm pid), n.toList <:+: t) ∧
      (∀ n ∈ f.cmdline, ∃ t ∈ readCmdline (fs.cmdline pid), n.toList <:+: t) ∧
      ∀ n ∈ f.cgroup, n.toList <:+: (readTrim (fs.cgroup pid)).getD [] := by
  simp [ProcFs.matches, checkNeedle_eq_some_true_iff]

theorem mem_discover {fs : ProcFs} {f : ProcessFilter} {found : Finset ℤ} {pid : ℤ}
    (h : discover f fs = some found) : pid ∈ found ↔
      (∃ pids ∈ fs.pids, pid ∈ pids) ∧ fs.matches pid f = some true := by
  obtain ⟨pids, hpids, rfl⟩ := Option.map_eq_some_iff.mp h
  have hgetD : ∀ o : Option Bool, o.getD false = true ↔ o = some true := by
    rintro (_ | _ | _) <;> simp
  simp [hpids, hgetD]

/-! ### The container of the profiler -/

/-- The path of a line of `/proc/self/cgroup`: what follows the last colon. -/
def cgroupPath (line : List Char) : List Char := (Text.afterLast [':'] line).getD line

/-- What a round of the loop of `self_cgroup_id` returns, if it returns. -/
def containerName (line : List Char) : Option (List Char) :=
  match Text.afterLast "docker-".toList (cgroupPath line) with
  | some after => some (after.takeWhile fun c => c ≠ '.')
  | none => (Text.afterLast "/docker/".toList (cgroupPath line)).map fun after => after.take 64

/-- `self_cgroup_id`, given what reading `/proc/self/cgroup` returns. -/
def selfCgroupId (own : Option (List UInt8)) : Option String :=
  (readToString own).bind fun cg =>
    ((Text.lines cg.toList).findSome? containerName).map String.ofList

/-- The line names a container. -/
def NamesContainer (line : List Char) : Prop :=
  "docker-".toList <:+: cgroupPath line ∨ "/docker/".toList <:+: cgroupPath line

instance (line : List Char) : Decidable (NamesContainer line) :=
  inferInstanceAs (Decidable (_ ∨ _))

/-- The first line of `/proc/self/cgroup` that names a container. -/
def containerLine (own : Option (List UInt8)) : Option (List Char) :=
  (readToString own).bind fun cg => (Text.lines cg.toList).find? fun line => NamesContainer line

/-- The line names a container with an empty name: its path ends with `docker-` or
`/docker/`, or the last `docker-` of it stands before a dot. -/
def BlankName (line : List Char) : Prop :=
  match Text.afterLast "docker-".toList (cgroupPath line) with
  | some after => ∀ c ∈ after.head?, c = '.'
  | none => "/docker/".toList <:+ cgroupPath line

instance (line : List Char) : Decidable (BlankName line) :=
  match h : Text.afterLast "docker-".toList (cgroupPath line) with
  | some [] => isTrue (by rw [BlankName, h]; nofun)
  | some (c :: _) => decidable_of_iff (c = '.') (by rw [BlankName, h]; simp)
  | none => decidable_of_iff ("/docker/".toList <:+ cgroupPath line) (by rw [BlankName, h])

theorem containerName_eq_none_iff {line : List Char} :
    containerName line = none ↔ ¬ NamesContainer line := by
  unfold containerName NamesContainer
  split
  · next after h =>
    have hin : "docker-".toList <:+: cgroupPath line := by
      by_contra hno
      rw [Text.afterLast_eq_none_iff.mpr hno] at h
      cases h
    exact iff_of_false (by simp) fun hno => hno (Or.inl hin)
  · next h =>
    rw [Option.map_eq_none_iff, Text.afterLast_eq_none_iff, not_or]
    exact ⟨fun hno => ⟨Text.afterLast_eq_none_iff.mp h, hno⟩, fun hno => hno.2⟩

theorem containerName_eq_nil_iff {line : List Char} (h : NamesContainer line) :
    containerName line = some [] ↔ BlankName line := by
  unfold containerName BlankName
  split
  · next after hafter =>
    rw [Option.some.injEq]
    cases after with
    | nil => simp
    | cons c after => simp [List.takeWhile_cons]
  · next hnone =>
    have hin := h.resolve_left (Text.afterLast_eq_none_iff.mp hnone)
    rw [← Text.afterLast_eq_nil_iff]
    cases hs : Text.afterLast "/docker/".toList (cgroupPath line) with
    | none => exact absurd hin (Text.afterLast_eq_none_iff.mp hs)
    | some after => simp

/-- The first round of the loop that returns is the one of the first such line. -/
theorem findSome?_containerName (lines : List (List Char)) :
    lines.findSome? containerName =
      (lines.find? fun line => NamesContainer line).bind containerName := by
  induction lines with
  | nil => rfl
  | cons line lines ih =>
    rw [List.findSome?_cons, List.find?_cons]
    by_cases h : NamesContainer line
    · obtain ⟨name, hname⟩ :=
        Option.ne_none_iff_exists'.mp (mt containerName_eq_none_iff.mp (by simpa))
      simp [h, hname]
    · simp [h, containerName_eq_none_iff.mpr h, ih]

/-- The id comes from the first line that names a container. -/
theorem selfCgroupId_eq (own : Option (List UInt8)) :
    selfCgroupId own =
      (containerLine own).bind fun line => (containerName line).map String.ofList := by
  unfold selfCgroupId containerLine
  cases readToString own with
  | none => rfl
  | some cg =>
    simp only [Option.bind_some, findSome?_containerName]
    cases (Text.lines cg.toList).find? fun line => NamesContainer line <;> rfl

theorem namesContainer_of_containerLine {own : Option (List UInt8)} {line : List Char}
    (h : containerLine own = some line) : NamesContainer line := by
  obtain ⟨cg, -, hfind⟩ := Option.bind_eq_some_iff.mp h
  simpa using List.find?_some hfind

/-- There is no id when no line names a container. -/
theorem selfCgroupId_eq_none_iff {own : Option (List UInt8)} :
    selfCgroupId own = none ↔ containerLine own = none := by
  rw [selfCgroupId_eq]
  cases h : containerLine own with
  | none => simp
  | some line =>
    have hname := containerName_eq_none_iff.not_left.mpr (namesContainer_of_containerLine h)
    simpa using hname

/-- The id is empty when the first line that names a container leaves its name blank. -/
theorem selfCgroupId_eq_empty_iff {own : Option (List UInt8)} :
    selfCgroupId own = some "" ↔ ∃ line ∈ containerLine own, BlankName line := by
  rw [selfCgroupId_eq]
  cases h : containerLine own with
  | none => simp
  | some line =>
    have hempty : ∀ cs, String.ofList cs = "" ↔ cs = [] := by
      intro cs
      rw [← String.toList_inj, String.toList_ofList]
      rfl
    simp [hempty, ← containerName_eq_nil_iff (namesContainer_of_containerLine h)]

end PhpFastProfile
