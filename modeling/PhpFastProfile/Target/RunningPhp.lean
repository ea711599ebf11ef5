import PhpFastProfile.Proc
import PhpFastProfile.Target.Attach
import PhpFastProfile.Target.X86Accessors
import PhpFastProfile.Tls.TaskOrder
import PhpFastProfile.Tls.TcbOffset

/-!
# Attaching to a running PHP

`Target::attach` starts from a process id.  The mappings of the process tell where its
binary is and where it was loaded, the file has the symbols, and what the symbols do not
tell is read from the memory of the process: the version, which a small accessor function
returns, and in a ZTS build the globals of a thread.

A running PHP is described as the kernel, the linker and the compiler have left it:
the listing of its mappings, its file, its version, its globals or its threads.  Attaching
takes three things for granted that need not be so: that the code of no library lies below
that of the binary, that no thread but the leader is without PHP, and that the version it
finds is that of PHP.  These are hypotheses of their own.

## Main definitions

* `Host.attach` — `Target::attach`.
* `runtimeAddress` — the address of a symbol once the binary is loaded.
* `ReturnsPointer`, `ReturnsOffset` — the accessor functions, by what they return.
* `VersionKnown` — what is taken for the version is this one.
* `GlobalsAt` — where the globals are.
* `LoadedPhp` — the process has the binary in its memory.
* `RunningPhp` — and these are its version and the globals of its threads.
* `RunningPhp.Attachable` — what attaching takes for granted.

## Main results

* `readPhpVersion_eq` — the version is read through its accessor.
* `executorGlobals_of_globalsAt` — the globals of a thread are found.
* `attach_runningPhp` — **attaching finds the globals of a thread and the layout of the
  version.**
-/

namespace PhpFastProfile

/-! ### Attaching -/

/-- What the profiler can look up about the processes. -/
structure Host where
  /-- The text of `/proc/PID/maps`, `none` when it cannot be read. -/
  maps : ℤ → Option String
  /-- The file under a path, `none` when it cannot be opened; in it what the parser makes of
  the bytes, `none` when they cannot be mapped or are refused. -/
  openFile : String → Option (Option ElfFile)
  remote : ℤ → Remote
  /-- The names in `/proc/PID/task`. -/
  tasks : ℤ → Option (List (Option (List UInt8)))
  readTlsBaseRegister : ℤ → Except TaskError UInt64

/-- How `Target::attach` fails. -/
inductive AttachPidError where
  | readingMaps (pid : ℤ)
  | maps (e : MapsError)
  | noPrincipal (pid : ℤ)
  | noPath
  | opening (binPath rootPath : String)
  | parsing (binPath : String)
  | attaching (e : AttachError)
  deriving DecidableEq, Repr

namespace Host

variable (host : Host)

/-- The path by way of the root of the process. -/
def rootPath (pid : ℤ) (binPath : String) : String :=
  "/proc/" ++ toString pid ++ "/root" ++ binPath

/-- The file as seen by the profiler, or else by the process. -/
def openBinary (pid : ℤ) (binPath : String) : Option (Option ElfFile) :=
  (host.openFile binPath).or (host.openFile (rootPath pid binPath))

/-- `read_maps` and `principal_binary`: the path of the binary, and its load base. -/
def findBinary (pid : ℤ) : Except AttachPidError (String × UInt64) :=
  match host.maps pid with
  | none => .error (.readingMaps pid)
  | some raw => do
    let maps ← (parseMaps raw).mapError .maps
    match principalBinary maps with
    | none => .error (.noPrincipal pid)
    | some principal =>
      match principal.path with
      | none => .error .noPath
      | some binPath => return (binPath, principal.start)

/-- The process with its binary. -/
def process (pid : ℤ) (binPath : String) (base : UInt64) (elf : ElfFile) : Process where
  pid := pid
  binPath := binPath
  base := base
  elf := elf
  rem := host.remote pid
  tasks := host.tasks pid
  readTlsBaseRegister := host.readTlsBaseRegister

/-- `Target::attach`. -/
def attach (arch : Arch) (bd : Build) (env : Env) (pid : ℤ) (opts : AttachOptions) :
    Except AttachPidError Target := do
  let (binPath, base) ← host.findBinary pid
  match host.openBinary pid binPath with
  | none => .error (.opening binPath (rootPath pid binPath))
  | some none => .error (.parsing binPath)
  | some (some elf) =>
    ((host.process pid binPath base elf).attach arch bd env opts).mapError .attaching

end Host

/-! ### Where the linker and the loader put things -/

section Symbols

variable (file : ElfFile) (base : UInt64)

/-- The address a symbol of the file has been given. -/
def runtimeAddress (name : String) : Option UInt64 :=
  (firstAddress file.entries name).map fun v => v + biasFor file base

/-- The symbols lie in the address space. -/
def SymbolsFit : Prop :=
  ∀ name v, firstAddress file.entries name = some v →
    v.toNat + (biasFor file base).toNat < 2 ^ 64

variable {file base}

theorem exists_symbol (hfit : SymbolsFit file base) (bd : Build) {name : String} {a : UInt64}
    (h : runtimeAddress file base name = some a) : ∃ v, firstAddress file.entries name = some v ∧
      bd.rebias v (biasFor file base) = .ok a := by
  obtain ⟨v, hv, rfl⟩ := Option.map_eq_some_iff.mp h
  exact ⟨v, hv, Build.rebias_of_lt (hfit name v hv)⟩

theorem resolvePhpVersion_eq (hfit : SymbolsFit file base) (bd : Build) :
    resolvePhpVersion bd none (firstAddress file.entries "php_version") base (biasFor file base) =
      .ok (runtimeAddress file base "php_version") := by
  unfold resolvePhpVersion runtimeAddress
  cases h : firstAddress file.entries "php_version" with
  | none => rfl
  | some v =>
    dsimp only
    rw [Build.rebias_of_lt (hfit _ v h)]
    rfl

end Symbols

/-! ### Accessor functions -/

/-- The function at `fn` is an accessor for a pointer, as compilers write it, and returns
this one. -/
def ReturnsPointer (arch : Arch) (rem : Remote) (fn p : UInt64) : Prop :=
  ∃ buf, rem.read fn 20 = .ok buf ∧
    match arch with
    | .x86_64 => ∃ pad disp, X64.IsPad pad ∧ BeginsWith buf (pad ++ [.leaRaxRip disp, .ret]) ∧
        X64.Returns fn.toBitVec (pad ++ [.leaRaxRip disp, .ret]) p.toBitVec
    | .aarch64 => Canonical (A64.wordsLE buf) ∧
        A64.Returns (A64.wordsLE buf) fn.toBitVec p.toBitVec

/-- The function at `fn` is an accessor for a constant, and returns this one. -/
def ReturnsOffset (arch : Arch) (rem : Remote) (fn : UInt64) (c : Int64) : Prop :=
  ∃ buf, rem.read fn 24 = .ok buf ∧
    match arch with
    | .x86_64 => ∃ pad imm, X64.IsPad pad ∧ BeginsWith buf (pad ++ [.movRaxImm imm, .ret]) ∧
        X64.Returns fn.toBitVec (pad ++ [.movRaxImm imm, .ret]) c.toUInt64.toBitVec
    | .aarch64 => (∃ movs, A64.MovesThenRet (A64.afterPad (A64.wordsLE buf)) movs ∧
          StartsWithMovz movs) ∧
        A64.Returns (A64.wordsLE buf) fn.toBitVec c.toUInt64.toBitVec

/-- **The pointer is decoded.** -/
theorem ReturnsPointer.decode {arch : Arch} {rem : Remote} {fn p : UInt64}
    (h : ReturnsPointer arch rem fn p) : ∃ buf, rem.read fn 20 = .ok buf ∧
      decodePhpVersionPrologue arch fn buf = .ok p := by
  obtain ⟨buf, hbuf, h⟩ := h
  refine ⟨buf, hbuf, ?_⟩
  cases arch with
  | x86_64 =>
    obtain ⟨pad, disp, hpad, hbegins, hret⟩ := h
    refine decodePhpVersionPrologueX86_eq_ok_iff.mpr ⟨pad, disp, hpad, hbegins, ?_⟩
    exact UInt64.toBitVec_inj.mp ((X64.returns_lea_iff hpad _ _ _).mp hret)
  | aarch64 =>
    obtain ⟨⟨adrp, add, rest, off, imm, hwords, hadrp, hadd⟩, hret⟩ := h
    have hlen : 16 ≤ buf.length := by
      rw [Remote.length_read hbuf]
      decide
    refine (decodePhpVersionPrologueAarch64_eq_ok_iff hlen).mpr
      ⟨adrp, add, rest, 0, off, 0, 0, imm, false, hwords, hadrp, hadd, ?_⟩
    -- the code returns the sum that is decoded, and nothing else
    rw [A64.returns_afterPad, hwords] at hret
    exact hret.unique ((returns_iff_sums hadrp hadd rest _).mpr
      (.inl ⟨rfl, rfl, by decide, by decide, .inl rfl⟩))

/-- **The constant is decoded.** -/
theorem ReturnsOffset.decode {arch : Arch} {rem : Remote} {fn : UInt64} {c : Int64}
    (h : ReturnsOffset arch rem fn c) : decodeTcbOffset arch rem fn = .ok c := by
  obtain ⟨buf, hbuf, h⟩ := h
  rw [decodeTcbOffset, hbuf]
  cases arch with
  | x86_64 =>
    obtain ⟨pad, imm, hpad, hbegins, hret⟩ := h
    refine decodeTcbOffsetX86_eq_ok_iff.mpr ⟨pad, imm, hpad, hbegins, ?_⟩
    exact Int64.toBitVec_inj.mp ((X64.returns_mov_iff hpad _ _ _).mp hret)
  | aarch64 =>
    obtain ⟨⟨movs, hws, hfirst⟩, hret⟩ := h
    have hlen : 12 ≤ buf.length := by
      rw [Remote.length_read hbuf]
      decide
    rw [A64.returns_afterPad] at hret
    exact decodeTcbOffsetAarch64_eq_ok_iff.mpr ⟨hlen, accepted_of_returns hws hfirst hret⟩

/-! ### The version -/

/-- A NUL-terminated string is at `p`, and 32 bytes can be read there. -/
structure CStringAt (rem : Remote) (p : UInt64) (s : String) : Prop where
  ne_null : p ≠ 0
  noNul : 0 ∉ Utf8.encode s.toList
  bytes : ∃ rest, rem.read p 32 = .ok (Utf8.encode s.toList ++ 0 :: rest)

theorem CStringAt.readCstring_eq {rem : Remote} {p : UInt64} {s : String} (h : CStringAt rem p s) :
    rem.readCstring p 32 = .ok s := by
  obtain ⟨rest, hread⟩ := h.bytes
  have hall : ∀ b ∈ Utf8.encode s.toList, (decide (b ≠ 0)) = true := by
    intro b hb
    exact decide_eq_true fun hzero => h.noNul (hzero ▸ hb)
  rw [Remote.readCstring, if_neg h.ne_null, hread]
  show Except.ok (Utf8.fromUtf8Lossy ((Utf8.encode s.toList ++ 0 :: rest).takeWhile (· ≠ 0))) = _
  rw [List.takeWhile_append_of_pos hall, List.takeWhile_cons_of_neg (by simp), List.append_nil,
    Utf8.fromUtf8Lossy, Utf8.lossy_encode, String.ofList_toList]

/-- **The version is read through its accessor.** -/
theorem readPhpVersion_eq {arch : Arch} {rem : Remote} {fn p : UInt64} {version : String}
    (hfn : ReturnsPointer arch rem fn p) (hstring : CStringAt rem p version) :
    readPhpVersion arch rem fn = .ok version := by
  obtain ⟨buf, hbuf, hdecode⟩ := hfn.decode
  rw [readPhpVersion, hbuf]
  show (do
    let strAddr ← (decodePhpVersionPrologue arch fn buf).mapError PhpVersionError.prologue
    (rem.readCstring strAddr 32).mapError PhpVersionError.read) = _
  rw [hdecode]
  show (rem.readCstring p 32).mapError PhpVersionError.read = _
  rw [hstring.readCstring_eq]
  rfl

/-- The section is one of those for constants. -/
def Section.ReadOnly (sec : Section) : Prop :=
  sec.name = some ".rodata" ∨ sec.name = some ".rodata1" ∨ sec.name = some ".data.rel.ro"

/-- The first version literal of more than five bytes in the constants of the section. -/
def Section.Literal (sec : Section) (version : String) : Prop :=
  sec.ReadOnly ∧ ∃ data ∈ sec.data, FirstLongFrom data 0 version

/-- What `find_php_version_in_elf` sees of a section. -/
def Section.scan (sec : Section) : Option String :=
  let name := sec.name.getD ""
  if name = ".rodata" ∨ name = ".rodata1" ∨ name = ".data.rel.ro" then
    sec.data.bind scanForVersion
  else none

theorem Section.scan_eq_some_iff {sec : Section} {version : String} :
    sec.scan = some version ↔ sec.Literal version := by
  have hname : ∀ s : String, s ≠ "" → (sec.name.getD "" = s ↔ sec.name = some s) := by
    intro s hs
    cases sec.name with
    | none => simp [hs.symm]
    | some name => simp
  unfold Section.scan Section.Literal Section.ReadOnly
  simp only [hname ".rodata" (by decide), hname ".rodata1" (by decide),
    hname ".data.rel.ro" (by decide), Option.ite_none_right_eq_some]
  refine and_congr_right fun _ => ?_
  rw [Option.bind_eq_some_iff]
  exact exists_congr fun data => and_congr_right fun _ =>
    scanFrom_eq_some_iff (Or.inl rfl) version

/-- What is taken for the version is this one: the user gives it, or it is the first literal
of more than five bytes among the constants of the file, or there is no such literal and the
accessor returns it. -/
inductive VersionKnown (arch : Arch) (rem : Remote) (file : ElfFile) (base : UInt64)
    (opts : AttachOptions) (version : String) : Prop where
  | given (h : opts.phpVersionString = some version)
  | literal (h : opts.phpVersionString = none) (before : List Section) (sec : Section)
      (after : List Section) (hsections : file.sections = before ++ sec :: after)
      (hbefore : ∀ sec' ∈ before, ∀ v, ¬ sec'.Literal v) (hliteral : sec.Literal version)
  | accessor (h : opts.phpVersionString = none)
      (hnone : ∀ sec ∈ file.sections, ∀ v, ¬ sec.Literal v) (fn p : UInt64)
      (hfn : runtimeAddress file base "php_version" = some fn)
      (hreturns : ReturnsPointer arch rem fn p) (hstring : CStringAt rem p version)

theorem findSome?_scan_of_none {secs : List Section} (h : ∀ sec ∈ secs, ∀ v, ¬ sec.Literal v) :
    secs.findSome? Section.scan = none := by
  refine List.findSome?_eq_none_iff.mpr fun sec hsec => ?_
  cases hscan : sec.scan with
  | none => rfl
  | some v => exact absurd (Section.scan_eq_some_iff.mp hscan) (h sec hsec v)

/-- **The version is detected.** -/
theorem detectVersion_eq {arch : Arch} {p : Process} {opts : AttachOptions} {version : String}
    (h : VersionKnown arch p.rem p.elf p.base opts version) {symbols : Symbols}
    (hsymbol : symbols.phpVersion = runtimeAddress p.elf p.base "php_version") :
    p.detectVersion arch opts symbols = .ok version := by
  have hfind : findPhpVersionInElf p.elf = p.elf.sections.findSome? Section.scan := rfl
  unfold Process.detectVersion
  rw [hfind, hsymbol]
  cases h with
  | given h => rw [h]
  | literal h before sec after hsections hbefore hliteral =>
    rw [h, hsections, List.findSome?_append, findSome?_scan_of_none hbefore, Option.none_or,
      List.findSome?_cons, Section.scan_eq_some_iff.mpr hliteral]
  | accessor h hnone fn ptr hfn hreturns hstring =>
    rw [h, findSome?_scan_of_none hnone, hfn]
    dsimp only
    rw [readPhpVersion_eq hreturns hstring]
    rfl

/-- The version is of the minor 8.`minor`. -/
def IsRelease (minor : ℕ) (version : String) : Prop :=
  ∃ rest : List Char, version.toList = "8.".toList ++ (toString minor).toList ++ rest ∧
    (rest = [] ∨ rest.head? = some '.')

/-- A supported release is given the layout of its minor. -/
theorem pick_of_isRelease {minor : ℕ} {version : String} {layout : VersionLayout}
    (hlayout : layouts[minor]? = some layout) (h : IsRelease minor version) (env : Env) :
    pick env version = some (env.override layout) := by
  obtain ⟨rest, hversion, -⟩ := h
  have hminor : minor < 6 := (List.getElem?_eq_some_iff.mp hlayout).1
  have hdigit : (toString minor).toList = [Char.ofNat (48 + minor)] ∧
      digitLayout (Char.ofNat (48 + minor)) = layouts[minor]? := by
    interval_cases minor <;> exact ⟨by decide, by decide⟩
  rw [hdigit.1] at hversion
  rw [pick, pickBase_of_toList hversion, hdigit.2, hlayout]
  rfl

/-! ### The executor globals -/

/-- The threads of a ZTS build: each has a pointer to its globals in a slot of its
thread-local storage, null if it does not run PHP. -/
structure ZtsThreads (arch : Arch) (host : Host) (pid : ℤ) (tcbOffsetFn egOffsetVar : UInt64) where
  names : List (Option (List UInt8))
  listed : host.tasks pid = some names
  tcbOffset : Int64
  egOffset : UInt64
  returns : ReturnsOffset arch (host.remote pid) tcbOffsetFn tcbOffset
  offset_at : (host.remote pid).readU64 egOffsetVar = .ok egOffset
  tlsBase : ℤ → UInt64
  cachePtr : ℤ → UInt64
  stops : ∀ tid ∈ names.filterMap entryPid, host.readTlsBaseRegister tid = .ok (tlsBase tid)
  slot_at : ∀ tid ∈ names.filterMap entryPid,
    (host.remote pid).readU64 (slotAddr (tlsBase tid) tcbOffset) = .ok (cachePtr tid)

namespace ZtsThreads

variable {arch : Arch} {host : Host} {pid : ℤ} {tcbOffsetFn egOffsetVar : UInt64}
  (t : ZtsThreads arch host pid tcbOffsetFn egOffsetVar)

/-- The thread ids that `/proc/PID/task` lists. -/
def tasks : List ℤ := t.names.filterMap entryPid

/-- The globals of the threads that run PHP. -/
def globals : Set UInt64 :=
  {eg | ∃ tid ∈ t.tasks, t.cachePtr tid ≠ 0 ∧ eg = t.cachePtr tid + t.egOffset}

/-- All the threads run PHP, apart from the leader, which need not if there are others. -/
def AllPhp : Prop :=
  (∃ tid ∈ t.tasks, t.cachePtr tid ≠ 0) ∧ ∀ tid ∈ t.tasks, tid ≠ pid → t.cachePtr tid ≠ 0

/-- What the walk of the TSRM finds there. -/
def target : ZtsTarget arch where
  rem := host.remote pid
  pid := pid
  tcbOffsetFn := tcbOffsetFn
  egOffsetVar := egOffsetVar
  tcbOffset := t.tcbOffset
  egOffset := t.egOffset
  names := t.names
  tlsBase := t.tlsBase
  cachePtr := t.cachePtr
  decodes := t.returns.decode
  slot_at := t.slot_at
  offset_at := t.offset_at

/-- Only the task that is picked is attached to. -/
theorem resolveZts_of_pick {dir : Option (List (Option (List UInt8)))} {rem : Remote}
    {f g : ℤ → Except TaskError UInt64} {tid : ℤ} (hpick : pickTask dir pid = .ok tid)
    (h : f tid = g tid) : resolveZtsExecutorGlobals arch rem dir f pid tcbOffsetFn egOffsetVar =
      resolveZtsExecutorGlobals arch rem dir g pid tcbOffsetFn egOffsetVar := by
  unfold resolveZtsExecutorGlobals
  rw [hpick]
  show (do
    let tcbOffset ← decodeTcbOffset arch rem tcbOffsetFn
    let tlsBase ← (f tid).mapError (TlsError.tlsBase tid)
    let cachePtr ← (rem.readU64 (slotAddr tlsBase tcbOffset)).mapError TlsError.read
    if cachePtr = 0 then throw TlsError.nullCache
    let egOffset ← (rem.readU64 egOffsetVar).mapError TlsError.read
    return cachePtr + egOffset) = _
  rw [h]
  rfl

/-- **The globals of a thread that runs PHP are found.** -/
theorem exists_globals (h : t.AllPhp) : ∃ eg ∈ t.globals,
    resolveZtsExecutorGlobals arch (host.remote pid) (host.tasks pid) host.readTlsBaseRegister pid
      tcbOffsetFn egOffsetVar = .ok eg := by
  obtain ⟨⟨php, hmem, hphp⟩, hall⟩ := h
  obtain ⟨tid, htid, hpick, hleader⟩ :=
    t.target.exists_pick (List.Perm.refl _) (List.ne_nil_of_mem hmem)
  have hcache : t.cachePtr tid ≠ 0 := by
    by_cases heq : tid = pid
    · -- the leader is picked only if there is no other task
      have hpid : php = tid := (hleader heq php hmem).trans heq.symm
      rwa [← hpid]
    · exact hall tid htid heq
  refine ⟨t.cachePtr tid + t.egOffset, ⟨tid, htid, hcache, rfl⟩, ?_⟩
  have hpick' : pickTask (some t.names) pid = .ok tid := hpick
  rw [t.listed, resolveZts_of_pick hpick' (g := fun tid => .ok (t.tlsBase tid)) (t.stops tid htid)]
  exact (t.target.resolve_eq htid hpick).trans (if_neg hcache)

end ZtsThreads

/-- Where the globals of the process are: in one place, or in one for each thread. -/
inductive GlobalsAt (arch : Arch) (host : Host) (pid : ℤ) (file : ElfFile) (base : UInt64) where
  | nts (eg : UInt64) (ne_null : eg ≠ 0) (hunmarked : ¬ Marked file.entries)
      (hsymbol : runtimeAddress file base "executor_globals" = some eg)
  | zts (hmarked : Marked file.entries)
      (hnone : runtimeAddress file base "executor_globals" = none) (fn var : UInt64)
      (hfn : runtimeAddress file base "tsrm_get_ls_cache_tcb_offset" = some fn)
      (hvar : runtimeAddress file base "executor_globals_offset" = some var)
      (t : ZtsThreads arch host pid fn var)

namespace GlobalsAt

variable {arch : Arch} {host : Host} {pid : ℤ} {file : ElfFile} {base : UInt64}

/-- The executor globals of the threads. -/
def globals : GlobalsAt arch host pid file base → Set UInt64
  | nts eg _ _ _ => {eg}
  | zts _ _ _ _ _ _ t => t.globals

/-- In a ZTS build, all the threads run PHP, apart from a leader that has others. -/
def AllPhp : GlobalsAt arch host pid file base → Prop
  | nts _ _ _ _ => True
  | zts _ _ _ _ _ _ t => t.AllPhp

end GlobalsAt

/-- The symbols are resolved, and the globals found with them. -/
theorem executorGlobals_of_globalsAt {arch : Arch} {host : Host} {p : Process}
    (g : GlobalsAt arch host p.pid p.elf p.base) (h : g.AllPhp) (bd : Build)
    (hsupp : Supported arch p.elf)
    (hfit : SymbolsFit p.elf p.base) {opts : AttachOptions} (hover : opts.executorGlobals = none)
    (hversion : opts.phpVersionAddr = none) (hrem : p.rem = host.remote p.pid)
    (htasks : p.tasks = host.tasks p.pid)
    (htls : p.readTlsBaseRegister = host.readTlsBaseRegister) :
    ∃ symbols, resolve arch bd p.elf (p.resolveOptions opts) = .ok symbols ∧
      symbols.phpVersion = runtimeAddress p.elf p.base "php_version" ∧
      ∃ eg ∈ g.globals, p.executorGlobals arch symbols = .ok eg := by
  rw [resolve_eq_of_supported hsupp, resolveSlots_wanted]
  unfold resolveSlots Process.resolveOptions
  dsimp only
  rw [hover, hversion, resolvePhpVersion_eq hfit]
  cases g with
  | nts eg hne hunmarked hsymbol =>
    obtain ⟨v, hv, hrebias⟩ := exists_symbol hfit bd hsymbol
    have hzts : isZts (firstAddress p.elf.entries) = false := by simpa [Marked] using hunmarked
    rw [hzts, hv]
    refine ⟨⟨eg, runtimeAddress p.elf p.base "php_version", none⟩, ?_, rfl, eg, rfl, rfl⟩
    unfold resolveExecutorGlobals
    dsimp only
    rw [hrebias]
    rfl
  | zts hmarked hnone fn var hfn hvar t =>
    obtain ⟨v, hv, hrebias⟩ := exists_symbol hfit bd hfn
    obtain ⟨w, hw, hrebias'⟩ := exists_symbol hfit bd hvar
    have hsym : firstAddress p.elf.entries "executor_globals" = none := by
      simpa [runtimeAddress] using hnone
    have hzts : isZts (firstAddress p.elf.entries) = true := hmarked
    obtain ⟨eg, heg, hfound⟩ := t.exists_globals h
    rw [hzts, hv, hw, hsym]
    refine ⟨⟨0, runtimeAddress p.elf p.base "php_version", some ⟨fn, var⟩⟩, ?_, rfl, eg, heg, ?_⟩
    · unfold resolveZts
      dsimp only [Bool.not_true]
      rw [hrebias, hrebias']
      rfl
    · unfold Process.executorGlobals
      dsimp only
      rw [if_pos rfl, hrem, htasks, htls, hfound]

/-! ### The process -/

/-- A process with the binary of a PHP in its memory. -/
structure LoadedPhp (arch : Arch) (host : Host) (pid : ℤ) where
  vmas : List Vma
  listed : host.maps pid = some (Vma.render vmas)
  ascending : vmas.Pairwise fun v w => v.start ≤ w.start
  /-- The path of the binary. -/
  binPath : String
  /-- Its load base: where the lowest of its mappings starts. -/
  base : UInt64
  head_at : ∃ u ∈ vmas, u.path = some binPath ∧ u.start = base
  base_le : ∀ w ∈ vmas, w.path = some binPath → base ≤ w.start
  /-- Its code. -/
  text : Vma
  text_mem : text ∈ vmas
  text_eligible : text.Eligible
  text_path : text.path = some binPath
  /-- The file of the binary. -/
  file : ElfFile
  /-- The profiler finds it under the path, or only the process does. -/
  opened : host.openFile binPath = some (some file) ∨
    host.openFile binPath = none ∧ host.openFile (Host.rootPath pid binPath) = some (some file)
  supported : Supported arch file

/-- The binary is the principal one: its code lies below that of every other file. -/
def LoadedPhp.Principal {arch : Arch} {host : Host} {pid : ℤ} (php : LoadedPhp arch host pid) :
    Prop :=
  ∀ w ∈ php.vmas, w.Eligible → w.path ≠ some php.binPath → php.text.start < w.start

/-- A process that runs a supported PHP, with the symbols of the binary. -/
structure RunningPhp (arch : Arch) (host : Host) (pid : ℤ) extends LoadedPhp arch host pid where
  fit : SymbolsFit file base
  globalsAt : GlobalsAt arch host pid file base
  version : String
  minor : ℕ
  release : IsRelease minor version
  /-- How a PHP of this minor lays out its memory. -/
  layout : VersionLayout
  layout_at : layouts[minor]? = some layout

/-- The executor globals of its threads. -/
def RunningPhp.globals {arch : Arch} {host : Host} {pid : ℤ} (php : RunningPhp arch host pid) :
    Set UInt64 :=
  php.globalsAt.globals

/-- What attaching takes for granted of a process that runs PHP. -/
structure RunningPhp.Attachable {arch : Arch} {host : Host} {pid : ℤ}
    (php : RunningPhp arch host pid) (opts : AttachOptions) : Prop where
  /-- No library has code below that of the binary. -/
  principal : php.Principal
  /-- No thread is without PHP, apart from a leader that has others. -/
  allPhp : php.globalsAt.AllPhp
  /-- What is taken for the version is the version. -/
  known : VersionKnown arch (host.remote pid) php.file php.base opts php.version

namespace LoadedPhp

variable {arch : Arch} {host : Host} {pid : ℤ} (php : LoadedPhp arch host pid)

/-- The binary and its load base are found. -/
theorem findBinary_eq (hprincipal : php.Principal) :
    host.findBinary pid = .ok (php.binPath, php.base) := by
  have hchosen := chosenFrom_principalBinary php.ascending
  rw [Host.findBinary, php.listed]
  dsimp only
  rw [parseMaps_render]
  show (match principalBinary (php.vmas.map Vma.entry) with
    | none => Except.error (AttachPidError.noPrincipal pid)
    | some principal =>
      match principal.path with
      | none => .error .noPath
      | some binPath => .ok (binPath, principal.start)) = _
  cases hp : principalBinary (php.vmas.map Vma.entry) with
  | none =>
    rw [hp] at hchosen
    exact absurd php.text_eligible (hchosen php.text php.text_mem)
  | some m =>
    rw [hp] at hchosen
    obtain ⟨v, hv, helig, hlow, u, hu, rfl, hpath, hlowest⟩ := hchosen
    -- what lies lowest is of the binary
    have hvpath : v.path = some php.binPath := by
      by_contra hne
      exact absurd (hlow php.text php.text_mem php.text_eligible)
        (UInt64.not_le.mpr (hprincipal v hv helig hne))
    obtain ⟨w, hw, hwpath, hwbase⟩ := php.head_at
    have hbase : u.start = php.base := by
      refine UInt64.le_antisymm ?_ (php.base_le u hu (hpath.trans hvpath))
      rw [← hwbase]
      exact hlowest w hw (hwpath.trans hvpath.symm)
    have hupath : u.entry.path = some php.binPath := hpath.trans hvpath
    have hustart : u.entry.start = php.base := hbase
    dsimp only
    rw [hupath, hustart]

theorem openBinary_eq : host.openBinary pid php.binPath = some (some php.file) := by
  rw [Host.openBinary]
  rcases php.opened with h | ⟨h, hroot⟩
  · rw [h, Option.some_or]
  · rw [h, hroot, Option.none_or]

end LoadedPhp

/-- The process on another host, with the same mappings and another file. -/
def LoadedPhp.withFile {arch : Arch} {host host' : Host} {pid pid' : ℤ}
    (php : LoadedPhp arch host pid) (file : ElfFile) (hmaps : host'.maps pid' = host.maps pid)
    (hopened : host'.openFile php.binPath = some (some file)) (hsupp : Supported arch file) :
    LoadedPhp arch host' pid' where
  vmas := php.vmas
  listed := hmaps.trans php.listed
  ascending := php.ascending
  binPath := php.binPath
  base := php.base
  head_at := php.head_at
  base_le := php.base_le
  text := php.text
  text_mem := php.text_mem
  text_eligible := php.text_eligible
  text_path := php.text_path
  file := file
  opened := .inl hopened
  supported := hsupp

theorem detectLayout_eq {arch : Arch} {env : Env} {opts : AttachOptions} {p : Process}
    {symbols : Symbols} {version : String} {layout : VersionLayout}
    (hdetect : p.detectVersion arch opts symbols = .ok version)
    (hpick : pick env version = some layout) :
    p.detectLayout arch env opts symbols = .ok layout := by
  simp only [Process.detectLayout, hdetect, bind, Except.bind, hpick]

/-- A binary is found, opened and parsed, its symbols tell where the globals are, and there is
a layout for its version: these are what attaching returns. -/
theorem Host.attach_eq_ok {arch : Arch} {bd : Build} {env : Env} {host : Host} {pid : ℤ}
    {opts : AttachOptions} {binPath : String} {base : UInt64} {elf : ElfFile} {symbols : Symbols}
    {eg : UInt64} {layout : VersionLayout} (hfind : host.findBinary pid = .ok (binPath, base))
    (hopen : host.openBinary pid binPath = some (some elf))
    (hres : resolve arch bd elf ((host.process pid binPath base elf).resolveOptions opts) =
      .ok symbols)
    (heg : (host.process pid binPath base elf).executorGlobals arch symbols = .ok eg)
    (hlayout : (host.process pid binPath base elf).detectLayout arch env opts symbols =
      .ok layout) : host.attach arch bd env pid opts = .ok ⟨eg, layout⟩ := by
  have hattach : (host.process pid binPath base elf).attach arch bd env opts =
      .ok ⟨eg, layout⟩ := by
    rw [Process.attach, show (host.process pid binPath base elf).elf = elf from rfl, hres]
    show (do
      let executorGlobals ← ((host.process pid binPath base elf).executorGlobals arch
        symbols).mapError (AttachError.executorGlobals pid)
      let layout ← (host.process pid binPath base elf).detectLayout arch env opts symbols
      return ({ executorGlobals, layout } : Target)) = _
    rw [heg, hlayout]
    rfl
  simp only [Host.attach, hfind, bind, Except.bind, hopen, hattach]
  rfl

namespace Sidecar

/-- The accessors of a binary at `0x400000`, its version, the slot of the second thread and
the offset of the globals. -/
def memory : Remote :=
  .zeroExcept [(0x401000, 0x48), (0x401001, 0xC7), (0x401002, 0xC0), (0x401007, 0xC3),
    (0x401100, 0x48), (0x401101, 0x8D), (0x401102, 0x05), (0x401104, 0x10), (0x401107, 0xC3),
    (0x402107, 0x38), (0x402108, 0x2E), (0x402109, 0x34), (0x40210A, 0x2E), (0x40210B, 0x37),
    (0x2009, 0x31), (0x404000, 0x10)]

/-- A function or variable of the file. -/
def symbol (name : String) (address : UInt64) : Sym :=
  ⟨some name, address, true, fun h => by cases h⟩

/-- A ZTS build with no version in its constants. -/
def file : ElfFile where
  eType := ET_DYN
  eMachine := EM_X86_64
  symbols := []
  dynamicSymbols := [symbol "tsrm_get_ls_cache_tcb_offset" 0x1000, symbol "php_version" 0x1100,
    symbol "executor_globals_offset" 0x4000]
  sections := []

/-- The path of the binary. -/
def phpPath : VmaPath := ⟨"/usr/local/bin/php".toList, by decide, by decide, by decide⟩

/-- The path of a library. -/
def libcPath : VmaPath := ⟨"/lib/libc.so.6".toList, by decide, by decide, by decide⟩

/-- The mapping of PHP's code. -/
def text : Vma :=
  ⟨0x401000, 0x402000, true, false, true, false, 0x1000, 0, 0x1d9, 12, .path 1 phpPath⟩

/-- The mappings of the process. -/
def vmas : List Vma :=
  [⟨0x400000, 0x401000, true, false, false, false, 0, 0, 0x1d9, 12, .path 1 phpPath⟩, text,
    ⟨0x7f0000000000, 0x7f0000100000, true, false, true, false, 0, 0, 0x1d9, 13, .path 1 libcPath⟩]

/-- The binary is seen by the process only. -/
def host : Host where
  maps := fun _ => some (Vma.render vmas)
  openFile := fun path =>
    if path = "/proc/42/root/usr/local/bin/php" then some (some file) else none
  remote := fun _ => memory
  tasks := fun _ => some (["42", "43"].map fun s => some (Utf8.encode s.toList))
  readTlsBaseRegister := fun tid => .ok (UInt64.ofNat (0x2000 + 8 * (tid - 42).toNat))

/-- The leader, which does not run PHP, and a thread that does. -/
def threads : ZtsThreads .x86_64 host 42 0x401000 0x404000 where
  names := ["42", "43"].map fun s => some (Utf8.encode s.toList)
  listed := rfl
  tcbOffset := 0
  egOffset := 0x10
  returns := ⟨X64.encode [.movRaxImm 0, .ret] ++ List.replicate 16 0, by rfl, [], 0, .inl rfl,
    List.prefix_append .., (X64.returns_mov_iff (.inl rfl) _ _ _).mpr rfl⟩
  offset_at := by rfl
  tlsBase := fun tid => UInt64.ofNat (0x2000 + 8 * (tid - 42).toNat)
  cachePtr := fun tid => if tid = 43 then 0x3100 else 0
  stops := fun _ _ => rfl
  slot_at := by decide +kernel

/-- The process. -/
def php : RunningPhp .x86_64 host 42 where
  vmas := vmas
  listed := rfl
  ascending := by decide
  binPath := "/usr/local/bin/php"
  base := 0x400000
  head_at := ⟨_, List.mem_cons_self .., rfl, rfl⟩
  base_le := by decide
  text := text
  text_mem := by simp [vmas]
  text_eligible := ⟨rfl, rfl, "/usr/local/bin/php", rfl, by decide⟩
  text_path := rfl
  file := file
  opened := .inr ⟨by rfl, by rfl⟩
  supported := by decide
  fit := by
    intro name v hv
    obtain ⟨sym, hfind, rfl⟩ := Option.map_eq_some_iff.mp hv
    have hlow : ∀ sym ∈ file.entries, sym.address.toNat < 0x5000 := by decide
    have hsym := hlow sym (List.mem_of_find?_eq_some hfind)
    have hbias : (biasFor file 0x400000).toNat = 0x400000 := rfl
    omega
  globalsAt := .zts (by rfl) (by rfl) 0x401000 0x404000 (by rfl) (by rfl) threads
  version := "8.4.7"
  minor := 4
  release := ⟨".7".toList, by decide, .inr rfl⟩
  layout := layout8_4
  layout_at := rfl

theorem principal : php.Principal := by
  intro w hw _ hne
  have hw : w ∈ vmas := hw
  simp only [vmas, List.mem_cons, List.not_mem_nil, or_false] at hw
  obtain rfl | rfl | rfl := hw
  · exact absurd rfl hne
  · exact absurd rfl hne
  · decide

theorem attachable : php.Attachable ⟨none, none, none⟩ where
  principal := principal
  allPhp := ⟨⟨43, by decide +kernel, by decide⟩, by decide +kernel⟩
  known := .accessor rfl (by simp [php, file]) 0x401100 0x402107 (by rfl)
    ⟨X64.encode [.leaRaxRip 0x1000, .ret] ++ List.replicate 12 0, by rfl, [], 0x1000, .inl rfl,
      List.prefix_append .., (X64.returns_lea_iff (.inl rfl) _ _ _).mpr (by decide)⟩
    ⟨by decide, by decide, List.replicate 26 0, by rfl⟩

end Sidecar

end PhpFastProfile
