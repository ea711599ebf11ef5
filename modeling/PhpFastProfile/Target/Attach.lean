import PhpFastProfile.Symbols.Resolve
import PhpFastProfile.Target.PhpVersion
import PhpFastProfile.Target

/-!
# Attaching to a process

`attach` resolves the symbols of the binary, walks the TSRM of a ZTS build whose
executor globals are still unknown, and determines the PHP version and with it the
layout.

An address for the executor globals can be given on the command line.  It is used,
whatever the symbols and without walking the TSRM, unless the binary looks like a ZTS
build and one of the two symbols for that walk is missing: then `resolve` fails before
it gets to the address.

## Main definitions

* `Process` — what `attach` finds out about the target.
* `Process.attach` — the executor globals and the layout.
* `OverrideHonoured` — an address from the command line is where the globals are read.

## Main results

* `overrideHonoured_iff` — when that is so.
-/

namespace PhpFastProfile

/-- What the user has given for the attach. -/
structure AttachOptions where
  executorGlobals : Option UInt64
  phpVersionAddr : Option UInt64
  phpVersionString : Option String

/-- How `attach` fails. -/
inductive AttachError where
  | resolving (binPath : String) (e : ResolveError)
  | executorGlobals (pid : ℤ) (e : TlsError)
  | phpVersion (e : PhpVersionError)
  | noVersion
  | unsupportedVersion (phpVersion : String)
  deriving DecidableEq, Repr

/-- A process with its principal binary, which is mapped at `base`. -/
structure Process where
  pid : ℤ
  binPath : String
  base : UInt64
  elf : ElfFile
  rem : Remote
  /-- The names in `/proc/PID/task`, `none` when they cannot be listed. -/
  tasks : Option (List (Option (List UInt8)))
  readTlsBaseRegister : ℤ → Except TaskError UInt64

namespace Process

variable (arch : Arch) (bd : Build) (env : Env) (p : Process) (opts : AttachOptions)

/-- What `resolve` is told for the process. -/
def resolveOptions : ResolveOptions where
  loadBase := p.base
  executorGlobalsOverride := opts.executorGlobals
  phpVersionOverride := opts.phpVersionAddr
  allowStripped := opts.executorGlobals.isSome || opts.phpVersionString.isSome
  label := p.binPath

/-- The executor globals: by way of the TSRM if `resolve` has left them open. -/
def executorGlobals (symbols : Symbols) : Except TlsError UInt64 :=
  match symbols.zts with
  | some zts =>
    if symbols.executorGlobals = 0 then
      resolveZtsExecutorGlobals arch p.rem p.tasks p.readTlsBaseRegister p.pid zts.tcbOffsetFn
        zts.egOffsetVar
    else .ok symbols.executorGlobals
  | none => .ok symbols.executorGlobals

/-- The version: as given, as found in the binary, or as the accessor returns it. -/
def detectVersion (symbols : Symbols) : Except AttachError String :=
  match opts.phpVersionString, findPhpVersionInElf p.elf, symbols.phpVersion with
  | some s, _, _ => .ok s
  | none, some version, _ => .ok version
  | none, none, some addr => (readPhpVersion arch p.rem addr).mapError .phpVersion
  | none, none, none => .error .noVersion

/-- The layout of the version that is detected. -/
def detectLayout (symbols : Symbols) : Except AttachError VersionLayout := do
  let phpVersion ← p.detectVersion arch opts symbols
  match pick env phpVersion with
  | some layout => .ok layout
  | none => .error (.unsupportedVersion phpVersion)

/-- `Target::attach`, for a binary that was parsed. -/
def attach : Except AttachError Target := do
  let symbols ← (resolve arch bd p.elf (p.resolveOptions opts)).mapError (.resolving p.binPath)
  let executorGlobals ← (p.executorGlobals arch symbols).mapError (.executorGlobals p.pid)
  let layout ← p.detectLayout arch env opts symbols
  return { executorGlobals, layout }

end Process

/-! ### Resolving with an override -/

/-- The symbols that the bias is added to when `executor_globals` is overridden. -/
def rebasedNames : List String :=
  ["php_version", "tsrm_get_ls_cache_tcb_offset", "executor_globals_offset"]

/-- The additions of the bias to a symbol, and of the load base to an override, stay
below `2^64`. -/
structure AdditionsFit (file : ElfFile) (opts : ResolveOptions) : Prop where
  symbols : ∀ name ∈ rebasedNames, ∀ v ∈ firstAddress file.entries name,
    v.toNat + (biasFor file opts.loadBase).toNat < 2 ^ 64
  executorGlobals : ∀ a ∈ opts.executorGlobalsOverride, a < opts.loadBase →
    a.toNat + opts.loadBase.toNat < 2 ^ 64
  phpVersion : ∀ a ∈ opts.phpVersionOverride, a < opts.loadBase →
    a.toNat + opts.loadBase.toNat < 2 ^ 64

theorem applyOverride_of_fit {bd : Build} {addr loadBase : UInt64}
    (h : addr < loadBase → addr.toNat + loadBase.toNat < 2 ^ 64) :
    applyOverride bd addr loadBase = .ok (overridden addr loadBase) := by
  unfold applyOverride overridden
  by_cases hle : loadBase ≤ addr
  · rw [if_pos hle, if_pos hle]
  · rw [if_neg hle, if_neg hle, Build.rebias_of_lt (h (UInt64.not_le.mp hle))]

section Resolve

variable (bd : Build) {file : ElfFile} {opts : ResolveOptions}

/-- The symbols that the TSRM walk needs are there if the build looks like a ZTS build. -/
def ZtsComplete (file : ElfFile) : Prop :=
  Marked file.entries → Occurs file.entries "tsrm_get_ls_cache_tcb_offset" ∧
    Occurs file.entries "executor_globals_offset"

instance (file : ElfFile) : Decidable (ZtsComplete file) :=
  inferInstanceAs (Decidable ((_ = true) → (_ = true) ∧ (_ = true)))

theorem AdditionsFit.rebias (hfit : AdditionsFit file opts) {name : String}
    (hname : name ∈ rebasedNames) {v : UInt64} (h : firstAddress file.entries name = some v) :
    bd.rebias v (biasFor file opts.loadBase) = .ok (v + biasFor file opts.loadBase) :=
  Build.rebias_of_lt (hfit.symbols name hname v h)

/-- The version is no obstacle. -/
theorem resolvePhpVersion_of_fit (hfit : AdditionsFit file opts) :
    ∃ version, resolvePhpVersion bd opts.phpVersionOverride
      (firstAddress file.entries "php_version") opts.loadBase (biasFor file opts.loadBase) =
        .ok version := by
  unfold resolvePhpVersion
  cases hopt : opts.phpVersionOverride with
  | some addr =>
    dsimp only
    rw [applyOverride_of_fit (hfit.phpVersion addr hopt)]
    exact ⟨_, rfl⟩
  | none =>
    cases hsym : firstAddress file.entries "php_version" with
    | some rel =>
      dsimp only
      rw [hfit.rebias bd (by decide) hsym]
      exact ⟨_, rfl⟩
    | none => exact ⟨_, rfl⟩

/-- Nor is the ZTS part, if it is complete. -/
theorem resolveZts_of_complete (hfit : AdditionsFit file opts) (h : ZtsComplete file) :
    ∃ zts, resolveZts bd (firstAddress file.entries "tsrm_get_ls_cache_tcb_offset")
      (firstAddress file.entries "executor_globals_offset") (isZts (firstAddress file.entries))
      (biasFor file opts.loadBase) opts.label = .ok zts := by
  unfold resolveZts
  cases hmarked : isZts (firstAddress file.entries) with
  | false => exact ⟨none, rfl⟩
  | true =>
    obtain ⟨htcb, hvar⟩ := h hmarked
    obtain ⟨tcb, htcb⟩ := Option.isSome_iff_exists.mp htcb
    obtain ⟨var, hvar⟩ := Option.isSome_iff_exists.mp hvar
    rw [htcb, hvar]
    dsimp only [Bool.not_true]
    rw [hfit.rebias bd (by decide) htcb, hfit.rebias bd (by decide) hvar]
    exact ⟨_, rfl⟩

/-- An incomplete ZTS part ends the matter. -/
theorem resolveZts_of_not_complete {bias : UInt64} {label : String} (h : ¬ ZtsComplete file) :
    resolveZts bd (firstAddress file.entries "tsrm_get_ls_cache_tcb_offset")
      (firstAddress file.entries "executor_globals_offset") (isZts (firstAddress file.entries))
      bias label = .error (.ztsStripped label) := by
  obtain ⟨hmarked, hmissing⟩ := Classical.not_imp.mp h
  have hzts : isZts (firstAddress file.entries) = true := hmarked
  unfold resolveZts
  rw [hzts]
  cases htcb : firstAddress file.entries "tsrm_get_ls_cache_tcb_offset" with
  | none => rfl
  | some tcb =>
    cases hvar : firstAddress file.entries "executor_globals_offset" with
    | none => rfl
    | some var => exact absurd ⟨by simp [Occurs, htcb], by simp [Occurs, hvar]⟩ hmissing

/-- **With an override, the symbols resolve** exactly if the ZTS part is complete. -/
theorem resolveSlots_override_iff {a : UInt64} (ha : opts.executorGlobalsOverride = some a)
    (hfit : AdditionsFit file opts) :
    (∃ s, resolveSlots bd (firstAddress file.entries) (biasFor file opts.loadBase) opts = .ok s ∧
      s.executorGlobals = overridden a opts.loadBase) ↔ ZtsComplete file := by
  constructor
  · intro ⟨s, hs, _⟩
    by_contra hmissing
    rw [resolveSlots, resolveZts_of_not_complete bd hmissing] at hs
    cases hs
  · intro hcomplete
    obtain ⟨zts, hzts⟩ := resolveZts_of_complete bd hfit hcomplete
    obtain ⟨version, hversion⟩ := resolvePhpVersion_of_fit bd hfit
    have heg : resolveExecutorGlobals bd opts.executorGlobalsOverride
        (firstAddress file.entries "executor_globals") (isZts (firstAddress file.entries))
        opts.allowStripped opts.label opts.loadBase (biasFor file opts.loadBase) =
          .ok (overridden a opts.loadBase) := by
      rw [ha]
      exact applyOverride_of_fit (hfit.executorGlobals a ha)
    refine ⟨⟨overridden a opts.loadBase, version, zts⟩, ?_, rfl⟩
    rw [resolveSlots, hzts, heg, hversion]
    rfl

end Resolve

/-! ### Attaching with an override -/

/-- The symbols resolve with `eg` for the executor globals, and whatever walking the TSRM
would give, attaching reads them there as soon as the version is detected. -/
def OverrideHonoured (arch : Arch) (bd : Build) (env : Env) (p : Process) (opts : AttachOptions)
    (eg : UInt64) : Prop :=
  ∃ symbols, resolve arch bd p.elf (p.resolveOptions opts) = .ok symbols ∧
    symbols.executorGlobals = eg ∧
    ∀ tasks readTlsBaseRegister,
      Process.attach arch bd env { p with tasks, readTlsBaseRegister } opts =
        (p.detectLayout arch env opts symbols).map fun layout => ⟨eg, layout⟩

/-- The TSRM is walked for a null pointer only. -/
theorem executorGlobals_of_ne_zero {arch : Arch} {p : Process} {symbols : Symbols}
    (h : symbols.executorGlobals ≠ 0) :
    p.executorGlobals arch symbols = .ok symbols.executorGlobals := by
  unfold Process.executorGlobals
  cases symbols.zts with
  | none => rfl
  | some zts => exact if_neg h

theorem attach_of_ne_zero {arch : Arch} {bd : Build} (env : Env) (p : Process)
    {opts : AttachOptions} {symbols : Symbols}
    (hres : resolve arch bd p.elf (p.resolveOptions opts) = .ok symbols)
    (h : symbols.executorGlobals ≠ 0) :
    p.attach arch bd env opts = (p.detectLayout arch env opts symbols).map fun layout =>
      ⟨symbols.executorGlobals, layout⟩ := by
  rw [Process.attach, hres]
  show (do
    let executorGlobals ← (p.executorGlobals arch symbols).mapError
      (AttachError.executorGlobals p.pid)
    let layout ← p.detectLayout arch env opts symbols
    return ({ executorGlobals, layout } : Target)) = _
  rw [executorGlobals_of_ne_zero h]
  cases p.detectLayout arch env opts symbols <;> rfl

/-- **An address from the command line is honoured** exactly if the binary does not look
like a ZTS build, or has both symbols for the walk that is then not made. -/
theorem overrideHonoured_iff (arch : Arch) (bd : Build) (env : Env) (p : Process)
    (opts : AttachOptions) (a : UInt64) (hsupp : Supported arch p.elf)
    (ha : opts.executorGlobals = some a) (hfit : AdditionsFit p.elf (p.resolveOptions opts))
    (hne : overridden a p.base ≠ 0) :
    OverrideHonoured arch bd env p opts (overridden a p.base) ↔ ZtsComplete p.elf := by
  have ha' : (p.resolveOptions opts).executorGlobalsOverride = some a := ha
  rw [← resolveSlots_override_iff bd ha' hfit, ← resolveSlots_wanted,
    ← resolve_eq_of_supported hsupp]
  constructor
  · intro ⟨symbols, hres, heg, _⟩
    exact ⟨symbols, hres, heg⟩
  · intro ⟨symbols, hres, heg⟩
    have heg' : symbols.executorGlobals = overridden a p.base := heg
    refine ⟨symbols, hres, heg', fun tasks readTlsBaseRegister => ?_⟩
    rw [attach_of_ne_zero env { p with tasks, readTlsBaseRegister } hres (heg' ▸ hne), heg']
    rfl

/-- A process of a ZTS build that has kept the given names. -/
def ztsProcess (names : List String) : Process where
  pid := 7
  binPath := "/usr/local/bin/php"
  base := 0x555500000000
  elf :=
    { eType := ET_DYN, eMachine := EM_X86_64, symbols := [], sections := []
      dynamicSymbols := names.map fun name => ⟨some name, 0x4000, true, fun h => by cases h⟩ }
  rem := .zeroExcept []
  tasks := none
  readTlsBaseRegister := fun _ => .error .attach

/-- An address and a version are given. -/
def overrideOptions : AttachOptions := ⟨some 0x1000, none, some "8.3.0"⟩

theorem additionsFit_ztsProcess (names : List String) :
    AdditionsFit (ztsProcess names).elf ((ztsProcess names).resolveOptions overrideOptions) where
  symbols := by
    intro name _ v hv
    obtain ⟨sym, hfind, rfl⟩ := Option.map_eq_some_iff.mp hv
    have hmem := List.mem_of_find?_eq_some hfind
    obtain ⟨n, _, rfl⟩ := List.mem_map.mp hmem
    have hsum : (0x4000 : UInt64).toNat + (0x555500000000 : UInt64).toNat < 2 ^ 64 := by decide
    exact hsum
  executorGlobals := by
    intro a ha _
    cases ha
    have hsum : (0x1000 : UInt64).toNat + (0x555500000000 : UInt64).toNat < 2 ^ 64 := by decide
    exact hsum
  phpVersion := by
    intro a ha
    cases ha

theorem overrideHonoured_iff_complete :
    OverrideHonoured .x86_64 .release ⟨none, none⟩
      (ztsProcess ["tsrm_get_ls_cache_tcb_offset", "executor_globals_offset"]) overrideOptions
      0x555500001000 :=
  (overrideHonoured_iff _ _ _ _ overrideOptions 0x1000 (by decide) rfl
    (additionsFit_ztsProcess _) (by decide)).mpr (by decide)

/-- **An address that is not honoured**: it is given, and `resolve` fails for a symbol that
is not needed with it. -/
theorem not_overrideHonoured_stripped :
    let p := ztsProcess ["tsrm_get_ls_cache"]
    Supported .x86_64 p.elf ∧ AdditionsFit p.elf (p.resolveOptions overrideOptions) ∧
      overridden 0x1000 p.base = 0x555500001000 ∧
      resolve .x86_64 .release p.elf (p.resolveOptions overrideOptions) =
        .error (.ztsStripped "/usr/local/bin/php") ∧
      ¬ OverrideHonoured .x86_64 .release ⟨none, none⟩ p overrideOptions 0x555500001000 := by
  intro p
  have herr : resolve .x86_64 .release p.elf (p.resolveOptions overrideOptions) =
      .error (.ztsStripped "/usr/local/bin/php") := by decide
  refine ⟨by decide, additionsFit_ztsProcess _, by decide, herr, ?_⟩
  intro ⟨symbols, hres, _⟩
  rw [herr] at hres
  cases hres

end PhpFastProfile
