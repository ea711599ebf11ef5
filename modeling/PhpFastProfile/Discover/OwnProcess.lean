import PhpFastProfile.Discover

/-!
# The profiler's own process

The scan does not leave the profiler out.  A needle given with `--cmdline` is part of
the command line the profiler was started with, so that its own entry passes that
check, and whether the scan returns it is up to the other two.

## Main definitions

* `Selected` — the pids that meet the conditions of a filter.
* `argvBytes` — what `/proc/PID/cmdline` shows of the arguments of a process.

## Main results

* `mem_discover_iff_selected` — the scan returns exactly these pids.
* `needle_infix_readCmdline` — a needle is part of the profiler's own command line.
* `discover_selects` — **the scan, and what it says of the profiler itself.**
* `discover_itself` — a scan for `php` that returns the profiler.
-/

namespace PhpFastProfile

/-- `/proc` lists the pid. -/
def ProcFs.Lists (fs : ProcFs) (pid : ℤ) : Prop := ∃ pids ∈ fs.pids, pid ∈ pids

/-- The needle, if there is one, occurs in the text, which can be read. -/
def Occurring (needle : Option String) (text : Option (List Char)) : Prop :=
  ∀ n ∈ needle, ∃ t ∈ text, n.toList <:+: t

/-- `/proc` lists the pid, and it meets the conditions that are set. -/
structure Selected (f : ProcessFilter) (fs : ProcFs) (pid : ℤ) : Prop where
  listed : fs.Lists pid
  name : Occurring f.name (readTrim (fs.comm pid))
  cmdline : Occurring f.cmdline (readCmdline (fs.cmdline pid))
  cgroup : Occurring f.cgroup (readTrim (fs.cgroup pid))

/-- A container id that is not empty does not occur in a control group that cannot be read. -/
theorem occurring_iff_getD {id : Option String} (hid : id ≠ some "") (text : Option (List Char)) :
    Occurring id text ↔ ∀ n ∈ id, n.toList <:+: text.getD [] := by
  refine forall₂_congr fun n hn => ?_
  have hne : n.toList ≠ [] := by
    rw [← String.toList_empty, Ne, String.toList_inj]
    rintro rfl
    exact hid hn
  cases text with
  | none => simp [hne]
  | some t => simp

/-- A scan of a `/proc` that can be listed returns. -/
theorem exists_discover (f : ProcessFilter) {fs : ProcFs} (hproc : fs.entries ≠ none) :
    ∃ found, discover f fs = some found := by
  obtain ⟨entries, hentries⟩ := Option.ne_none_iff_exists'.mp hproc
  rw [discover, ProcFs.pids, hentries]
  exact ⟨_, rfl⟩

/-- **The scan returns exactly the selected pids.** -/
theorem mem_discover_iff_selected {f : ProcessFilter} {fs : ProcFs} {found : Finset ℤ}
    (hid : f.cgroup ≠ some "") (h : discover f fs = some found) (pid : ℤ) :
    pid ∈ found ↔ Selected f fs pid := by
  rw [mem_discover h, matches_eq_some_true_iff, ← occurring_iff_getD hid]
  exact ⟨fun ⟨hlisted, hname, hcmdline, hcgroup⟩ => ⟨hlisted, hname, hcmdline, hcgroup⟩,
    fun hsel => ⟨hsel.listed, hsel.name, hsel.cmdline, hsel.cgroup⟩⟩

/-! ### The own command line -/

/-- What `/proc/PID/cmdline` shows: the arguments, each followed by a NUL. -/
def argvBytes (argv : List String) : List UInt8 :=
  argv.flatMap fun arg => Utf8.encode arg.toList ++ [0]

theorem lossy_argvBytes (argv : List String) :
    Utf8.lossy (argvBytes argv) = argv.flatMap fun arg => arg.toList ++ ['\x00'] := by
  have hencode : argvBytes argv = Utf8.encode (argv.flatMap fun arg => arg.toList ++ ['\x00']) := by
    have hnul : String.utf8EncodeChar '\x00' = [0] := rfl
    simp [argvBytes, Utf8.encode, List.flatMap_assoc, hnul]
  rw [hencode, Utf8.lossy_encode]

/-- **A needle within an argument is part of the command line that is searched.** -/
theorem needle_infix_readCmdline {argv : List String} {arg : String} (harg : arg ∈ argv)
    {needle : List Char} (hnul : '\x00' ∉ needle) (htrimmed : Text.Trimmed needle)
    (hin : needle <:+: arg.toList) :
    ∃ t ∈ readCmdline (some (argvBytes argv)), needle <:+: t := by
  refine ⟨_, rfl, ?_⟩
  rw [Text.infix_trim_iff htrimmed, lossy_argvBytes]
  obtain ⟨before, after, rfl⟩ := List.append_of_mem harg
  have hargs : needle <:+: (before ++ arg :: after).flatMap fun arg => arg.toList ++ ['\x00'] := by
    rw [List.flatMap_append, List.flatMap_cons]
    exact hin.trans ((List.infix_append' [] _ _).trans (List.infix_append' _ _ _))
  -- the needle has no NUL that would be replaced
  have hsame : needle.map (fun c => if c = '\x00' then ' ' else c) = needle := by
    conv_rhs => rw [← List.map_id needle]
    refine List.map_congr_left fun c hc => if_neg ?_
    rintro rfl
    exact hnul hc
  rw [← hsame]
  exact hargs.map _

/-- The profiler runs as `own`, was started with `argv`, and `/proc` shows it; the
needle of `--cmdline`, if there is one, is the end of one of its arguments. -/
structure StartedWith (f : ProcessFilter) (fs : ProcFs) (own : ℤ) (argv : List String) : Prop where
  cmdline : fs.cmdline own = some (argvBytes argv)
  noNul : ∀ n ∈ f.cmdline, '\x00' ∉ n.toList
  needle : ∀ n ∈ f.cmdline, ∃ arg ∈ argv, n.toList <:+ arg.toList

/-- **The scan returns exactly the selected pids**, the profiler's own not excepted:
unless the needle of `--cmdline` begins or ends in whitespace, that one is returned if
its name and its control group meet the conditions. -/
theorem discover_selects {f : ProcessFilter} {fs : ProcFs} (hproc : fs.entries ≠ none)
    (hid : f.cgroup ≠ some "") {own : ℤ} {argv : List String} (hown : StartedWith f fs own argv) :
    ∃ found, discover f fs = some found ∧ (∀ pid, pid ∈ found ↔ Selected f fs pid) ∧
      ((∀ n ∈ f.cmdline, Text.Trimmed n.toList) → (own ∈ found ↔ fs.Lists own ∧
        Occurring f.name (readTrim (fs.comm own)) ∧
          Occurring f.cgroup (readTrim (fs.cgroup own)))) := by
  obtain ⟨found, h⟩ := exists_discover f hproc
  have hselected := mem_discover_iff_selected hid h
  refine ⟨found, h, hselected, fun htrimmed => ?_⟩
  have hcmdline : Occurring f.cmdline (readCmdline (fs.cmdline own)) := by
    intro n hn
    obtain ⟨arg, harg, hsuffix⟩ := hown.needle n hn
    rw [hown.cmdline]
    exact needle_infix_readCmdline harg (hown.noNul n hn) (htrimmed n hn) hsuffix.isInfix
  rw [hselected own]
  exact ⟨fun hsel => ⟨hsel.listed, hsel.name, hsel.cgroup⟩,
    fun ⟨hlisted, hname, hcgroup⟩ => ⟨hlisted, hname, hcmdline, hcgroup⟩⟩

/-! ### A scan that returns the profiler -/

/-- A PHP worker and the profiler, started as `pfp --cmdline php`. -/
def phpAndItself : ProcFs where
  entries := some [some (Utf8.encode "7".toList), some (Utf8.encode "42".toList)]
  comm pid := some (Utf8.encode (if pid = 42 then "pfp\n" else "php-fpm8.3\n").toList)
  cmdline pid := some (argvBytes (if pid = 42 then ["pfp", "--cmdline", "php"] else ["php-fpm8.3"]))
  cgroup _ := some (Utf8.encode "0::/\n".toList)

theorem startedWith_phpAndItself :
    StartedWith ⟨none, some "php", none⟩ phpAndItself 42 ["pfp", "--cmdline", "php"] where
  cmdline := rfl
  noNul := by
    rintro n ⟨⟩
    decide
  needle := by
    rintro n ⟨⟩
    exact ⟨"php", by simp, List.suffix_rfl⟩

/-- The scan for `php` returns the profiler. -/
theorem discover_itself :
    StartedWith ⟨none, some "php", none⟩ phpAndItself 42 ["pfp", "--cmdline", "php"] ∧
      ¬ ∃ found, discover ⟨none, some "php", none⟩ phpAndItself = some found ∧
        ∀ pid, pid ∈ found ↔ pid ≠ 42 ∧ Selected ⟨none, some "php", none⟩ phpAndItself pid := by
  refine ⟨startedWith_phpAndItself, ?_⟩
  rintro ⟨found, h, hall⟩
  have hnone : ∀ text, Occurring none text := nofun
  have hlisted : phpAndItself.Lists 42 :=
    ⟨_, rfl, List.mem_filterMap.mpr ⟨some (Utf8.encode "42".toList), List.mem_cons_of_mem _
      (List.mem_singleton_self _), by rw [entryPid_encode]; decide⟩⟩
  have hcmdline : Occurring (some "php") (readCmdline (phpAndItself.cmdline 42)) := by
    rintro n ⟨⟩
    have harg : "php" ∈ ["pfp", "--cmdline", "php"] := by simp
    exact needle_infix_readCmdline harg (by decide) (by decide) List.infix_rfl
  have hfound : (42 : ℤ) ∈ found :=
    (mem_discover_iff_selected (by simp) h 42).mpr ⟨hlisted, hnone _, hcmdline, hnone _⟩
  exact ((hall 42).mp hfound).1 rfl

/-- The same scan, with the command line of the profiler. -/
theorem discover_selects_php :
    ∃ found, discover ⟨none, some "php", none⟩ phpAndItself = some found ∧
      (∀ pid, pid ∈ found ↔ Selected ⟨none, some "php", none⟩ phpAndItself pid) ∧
      ((∀ n ∈ some "php", Text.Trimmed n.toList) → (42 ∈ found ↔ phpAndItself.Lists 42 ∧
        Occurring none (readTrim (phpAndItself.comm 42)) ∧
        Occurring none (readTrim (phpAndItself.cgroup 42)))) :=
  discover_selects (by simp [phpAndItself]) (by simp) startedWith_phpAndItself

end PhpFastProfile
