import PhpFastProfile.Symbols.VersionScan
import PhpFastProfile.Remote
import PhpFastProfile.Tls
import Mathlib.Logic.Function.Basic

/-!
# Resolving the symbols

`resolve` looks five names up in the two symbol tables of the binary, decides
from them whether it is a ZTS build, and adds the bias of the mapping.  An
address given on the command line takes the place of a symbol.

The first entry of a name counts, whether the binary defines the symbol or only
imports it.  An import has the value zero and so an address at the load base.

## Main definitions

* `Sym`, `ElfFile` — what the parser yields.
* `wanted` — the value of the first entry of each name.
* `resolve` — the addresses.

## Main results

* `wanted_eq_firstAddress` — the scan of the tables is a search for the first entry.
* `resolve_eq_of_supported` — resolving is refusing the header or adding the bias to
  what was found.
-/

namespace PhpFastProfile

/-! ### The file -/

/-- The `e_type` of an executable with fixed addresses. -/
def ET_EXEC : UInt16 := 2
/-- The `e_type` of a position-independent one. -/
def ET_DYN : UInt16 := 3
/-- The `e_machine` of x86-64. -/
def EM_X86_64 : UInt16 := 62
/-- The `e_machine` of AArch64. -/
def EM_AARCH64 : UInt16 := 183

/-- An entry of a symbol table. -/
structure Sym where
  /-- `sym.name()`, `none` when it is an error. -/
  name : Option String
  address : UInt64
  defined : Bool
  /-- An import has no address. -/
  address_of_import : defined = false → address = 0

/-- A section, as the parser of the file presents it. -/
structure Section where
  /-- `section.name()`, `none` when it is an error. -/
  name : Option String
  /-- `section.data()`, `none` when it is an error. -/
  data : Option (List UInt8)

/-- A file the parser accepts. -/
structure ElfFile where
  eType : UInt16
  eMachine : UInt16
  symbols : List Sym
  dynamicSymbols : List Sym
  sections : List Section

/-- `find_php_version_in_elf`, on the parsed file. -/
def findPhpVersionInElf (file : ElfFile) : Option String :=
  file.sections.findSome? fun sec =>
    let name := sec.name.getD ""
    if name = ".rodata" ∨ name = ".rodata1" ∨ name = ".data.rel.ro" then
      sec.data.bind scanForVersion
    else none

/-! ### The resolved addresses -/

/-- What the walk of the TSRM starts from: the accessor of the cache, and the variable with the
offset. -/
structure Zts where
  tcbOffsetFn : UInt64
  egOffsetVar : UInt64
  deriving DecidableEq, Repr

/-- The addresses that `resolve` has found, in the process. -/
structure Symbols where
  /-- Zero when it has to be found by way of `zts`. -/
  executorGlobals : UInt64
  phpVersion : Option UInt64
  zts : Option Zts
  deriving DecidableEq, Repr

/-- `ResolveOptions`: what `resolve` is told besides the file. -/
structure ResolveOptions where
  loadBase : UInt64
  executorGlobalsOverride : Option UInt64
  phpVersionOverride : Option UInt64
  allowStripped : Bool
  label : String

/-- The errors of `resolve`, with what their texts show. -/
inductive ResolveError where
  | unsupportedType (eType : UInt16)
  | machine (label : String) (eMachine expected : UInt16)
  | ztsStripped (label : String)
  | noExecutorGlobals (label : String) (allowStripped : Bool)
  /-- An addition overflowed in a build that checks it. -/
  | panic
  deriving DecidableEq, Repr

/-- Addition of an offset to a base. -/
def Build.rebias (bd : Build) (a b : UInt64) : Except ResolveError UInt64 :=
  (bd.add a b).mapError fun _ => .panic

@[simp] theorem Build.release_rebias (a b : UInt64) : Build.release.rebias a b = .ok (a + b) := rfl

theorem Build.rebias_of_lt {bd : Build} {a b : UInt64} (h : a.toNat + b.toNat < 2 ^ 64) :
    bd.rebias a b = .ok (a + b) := by
  unfold Build.rebias Build.add
  rw [if_neg fun hover => Nat.not_le.mpr h hover.2]
  rfl

/-! ### The scan of the tables -/

/-- The symbols that `resolve` looks for. -/
def wantedNames : List String :=
  ["executor_globals", "php_version", "tsrm_get_ls_cache", "tsrm_get_ls_cache_tcb_offset",
    "executor_globals_offset"]

/-- The closure `scan`: the first entry of a wanted name fills its slot. -/
def scan (slots : String → Option UInt64) (sym : Sym) : String → Option UInt64 :=
  match sym.name with
  | none => slots
  | some name =>
    if name ∈ wantedNames ∧ (slots name).isNone then
      Function.update slots name (some sym.address)
    else slots

/-- The map `wanted` after both tables. -/
def wanted (file : ElfFile) : String → Option UInt64 :=
  file.dynamicSymbols.foldl scan (file.symbols.foldl scan fun _ => none)

/-- The entries in the order they are scanned. -/
def ElfFile.entries (file : ElfFile) : List Sym := file.symbols ++ file.dynamicSymbols

/-- The value of the first entry of a name. -/
def firstAddress (syms : List Sym) (name : String) : Option UInt64 :=
  (syms.find? fun sym => sym.name = some name).map Sym.address

theorem scan_apply {name : String} (hname : name ∈ wantedNames) (slots : String → Option UInt64)
    (sym : Sym) : scan slots sym name =
      (slots name).or (if sym.name = some name then some sym.address else none) := by
  unfold scan
  cases hsym : sym.name with
  | none => simp
  | some other =>
    dsimp only
    by_cases heq : other = name
    · subst heq
      cases hslot : slots other <;> simp [hname, hslot]
    · have hne : name ≠ other := Ne.symm heq
      split <;> simp [heq, hne]

theorem foldl_scan {name : String} (hname : name ∈ wantedNames) (syms : List Sym)
    (slots : String → Option UInt64) :
    syms.foldl scan slots name = (slots name).or (firstAddress syms name) := by
  induction syms generalizing slots with
  | nil => simp [firstAddress]
  | cons sym syms ih =>
    rw [List.foldl_cons, ih, scan_apply hname, Option.or_assoc, firstAddress, firstAddress,
      List.find?_cons]
    by_cases h : sym.name = some name <;> simp [h]

/-- **The scan finds the first entry of each name.** -/
theorem wanted_eq_firstAddress {name : String} (hname : name ∈ wantedNames) (file : ElfFile) :
    wanted file name = firstAddress file.entries name := by
  rw [wanted, foldl_scan hname, foldl_scan hname, Option.none_or, firstAddress, firstAddress,
    firstAddress, ElfFile.entries, List.find?_append, Option.map_or]

/-- A table has an entry of the name. -/
def Occurs (syms : List Sym) (name : String) : Prop := (firstAddress syms name).isSome = true

theorem not_occurs_iff {syms : List Sym} {name : String} :
    ¬ Occurs syms name ↔ firstAddress syms name = none := by
  rw [Occurs, Bool.not_eq_true, Option.isSome_eq_false_iff, Option.isNone_iff_eq_none]

/-! ### The dispatch -/

/-- `apply_override`: an address below the load base is one of the file. -/
def applyOverride (bd : Build) (addr loadBase : UInt64) : Except ResolveError UInt64 :=
  if loadBase ≤ addr then .ok addr else bd.rebias addr loadBase

/-- The address an override stands for. -/
def overridden (addr loadBase : UInt64) : UInt64 :=
  if loadBase ≤ addr then addr else addr + loadBase

/-- `resolve_zts`: the part of a thread-safe build, which needs both of its symbols. -/
def resolveZts (bd : Build) (tcbOffsetFn egOffsetVar : Option UInt64) (isZts : Bool)
    (bias : UInt64) (label : String) : Except ResolveError (Option Zts) :=
  if !isZts then .ok none
  else
    match tcbOffsetFn, egOffsetVar with
    | some tcb, some eg => do
      let tcbOffsetFn ← bd.rebias tcb bias
      let egOffsetVar ← bd.rebias eg bias
      return some { tcbOffsetFn, egOffsetVar }
    | _, _ => .error (.ztsStripped label)

/-- `resolve_executor_globals`: an override, the symbol, or zero for a thread-safe build. -/
def resolveExecutorGlobals (bd : Build) (overrideAddr symAddr : Option UInt64)
    (isZts allowStripped : Bool) (label : String) (loadBase bias : UInt64) :
    Except ResolveError UInt64 :=
  match overrideAddr, symAddr with
  | some addr, _ => applyOverride bd addr loadBase
  | none, some rel => bd.rebias rel bias
  | none, none => if isZts then .ok 0 else .error (.noExecutorGlobals label allowStripped)

/-- The address of `php_version`: an override or the symbol, if there is one. -/
def resolvePhpVersion (bd : Build) (overrideAddr symAddr : Option UInt64)
    (loadBase bias : UInt64) : Except ResolveError (Option UInt64) :=
  match overrideAddr, symAddr with
  | some addr, _ => some <$> applyOverride bd addr loadBase
  | none, some rel => some <$> bd.rebias rel bias
  | none, none => .ok none

/-- The marker symbols of a ZTS build. -/
def isZts (slots : String → Option UInt64) : Bool :=
  (slots "tsrm_get_ls_cache").isSome || (slots "executor_globals_offset").isSome

/-- The entries look like those of a ZTS build. -/
def Marked (syms : List Sym) : Prop := isZts (firstAddress syms) = true

/-- `resolve` from the end of the scan on. -/
def resolveSlots (bd : Build) (slots : String → Option UInt64) (bias : UInt64)
    (opts : ResolveOptions) : Except ResolveError Symbols := do
  let zts ← resolveZts bd (slots "tsrm_get_ls_cache_tcb_offset") (slots "executor_globals_offset")
    (isZts slots) bias opts.label
  let executorGlobals ← resolveExecutorGlobals bd opts.executorGlobalsOverride
    (slots "executor_globals") (isZts slots) opts.allowStripped opts.label opts.loadBase bias
  let phpVersion ← resolvePhpVersion bd opts.phpVersionOverride (slots "php_version")
    opts.loadBase bias
  return { executorGlobals, phpVersion, zts }

/-- The dispatch sees the first entries. -/
theorem resolveSlots_wanted (bd : Build) (file : ElfFile) (bias : UInt64) (opts : ResolveOptions) :
    resolveSlots bd (wanted file) bias opts =
      resolveSlots bd (firstAddress file.entries) bias opts := by
  have hslot : ∀ name ∈ wantedNames, wanted file name = firstAddress file.entries name :=
    fun name hname => wanted_eq_firstAddress hname file
  have hzts : isZts (wanted file) = isZts (firstAddress file.entries) := by
    rw [isZts, isZts, hslot _ (by decide), hslot _ (by decide)]
  rw [resolveSlots, resolveSlots, hzts, hslot "tsrm_get_ls_cache_tcb_offset" (by decide),
    hslot "executor_globals_offset" (by decide), hslot "executor_globals" (by decide),
    hslot "php_version" (by decide)]

/-- The bias of the mapping, by the type of the file. -/
def biasOf (file : ElfFile) (opts : ResolveOptions) : Except ResolveError UInt64 :=
  if file.eType = ET_DYN then .ok opts.loadBase
  else if file.eType = ET_EXEC then .ok 0
  else .error (.unsupportedType file.eType)

/-- The machine the profiler is built for. -/
def expectedMachine : Arch → UInt16
  | .x86_64 => EM_X86_64
  | .aarch64 => EM_AARCH64

/-- The file must be for the machine the profiler is built for. -/
def checkMachine (arch : Arch) (file : ElfFile) (opts : ResolveOptions) :
    Except ResolveError Unit :=
  if file.eMachine ≠ expectedMachine arch then
    .error (.machine opts.label file.eMachine (expectedMachine arch))
  else .ok ()

/-- `resolve`, on a file that was parsed. -/
def resolve (arch : Arch) (bd : Build) (file : ElfFile) (opts : ResolveOptions) :
    Except ResolveError Symbols := do
  let bias ← biasOf file opts
  checkMachine arch file opts
  resolveSlots bd (wanted file) bias opts

/-! ### The header -/

/-- The type and the machine of the file are supported. -/
def Supported (arch : Arch) (file : ElfFile) : Prop :=
  (file.eType = ET_DYN ∨ file.eType = ET_EXEC) ∧ file.eMachine = expectedMachine arch

instance (arch : Arch) (file : ElfFile) : Decidable (Supported arch file) :=
  inferInstanceAs (Decidable (_ ∧ _))

/-- The bias of a supported file. -/
def biasFor (file : ElfFile) (loadBase : UInt64) : UInt64 :=
  if file.eType = ET_DYN then loadBase else 0

/-- A supported header leaves the dispatch. -/
theorem resolve_eq_of_supported {arch : Arch} {bd : Build} {file : ElfFile} {opts : ResolveOptions}
    (h : Supported arch file) :
    resolve arch bd file opts =
      resolveSlots bd (wanted file) (biasFor file opts.loadBase) opts := by
  have hbias : biasOf file opts = .ok (biasFor file opts.loadBase) := by
    unfold biasOf biasFor
    rcases h.1 with htype | htype
    · rw [if_pos htype, if_pos htype]
    · rw [htype]
      rfl
  have hmachine : checkMachine arch file opts = .ok () := by
    unfold checkMachine
    rw [if_neg (not_not.mpr h.2)]
  rw [resolve, hbias, hmachine]
  rfl

/-- Any other is refused, whatever the tables hold. -/
theorem resolve_of_not_supported {arch : Arch} {bd : Build} {file file' : ElfFile}
    {opts : ResolveOptions} (htype : file'.eType = file.eType)
    (hmachine : file'.eMachine = file.eMachine) (h : ¬ Supported arch file) :
    resolve arch bd file opts = resolve arch bd file' opts := by
  have hbias : biasOf file' opts = biasOf file opts := by
    unfold biasOf
    rw [htype]
  have hcheck : checkMachine arch file' opts = checkMachine arch file opts := by
    unfold checkMachine
    rw [hmachine]
  rw [resolve, resolve, hbias, hcheck]
  cases hb : biasOf file opts with
  | error e => rfl
  | ok bias =>
    cases hm : checkMachine arch file opts with
    | error e => rfl
    | ok u =>
      exfalso
      apply h
      unfold biasOf at hb
      unfold checkMachine at hm
      constructor
      · by_contra hno
        rw [not_or] at hno
        rw [if_neg hno.1, if_neg hno.2] at hb
        cases hb
      · by_contra hno
        rw [if_pos hno] at hm
        cases hm

end PhpFastProfile
