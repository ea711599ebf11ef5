import PhpFastProfile.Symbols.Resolve

/-!
# Imports among the symbols

A symbol that the binary imports has an entry in its tables too, with the value
zero.  `resolve` takes the first entry of a name without asking whether it is a
definition.  Its result is that for the definitions alone exactly if the imports
neither decide about the build nor stand before a definition that is used.

## Main definitions

* `ElfFile.definedOnly` — the file without its imports.
* `ImportsHarmless` — the condition on the entries and the options.

## Main results

* `resolve_definedOnly_iff` — when the imports make no difference.
-/

namespace PhpFastProfile

namespace ElfFile

/-- The entries that are definitions. -/
def definitions (file : ElfFile) : List Sym := file.entries.filter Sym.defined

/-- The file without its imports. -/
def definedOnly (file : ElfFile) : ElfFile :=
  { file with
    symbols := file.symbols.filter Sym.defined
    dynamicSymbols := file.dynamicSymbols.filter Sym.defined }

theorem entries_definedOnly (file : ElfFile) : file.definedOnly.entries = file.definitions :=
  (List.filter_append _ _).symm

end ElfFile

/-! ### First entries and first definitions -/

/-- What a slot holds for all entries, `x`, and for the definitions alone, `x'`. -/
structure Refined (x x' : Option UInt64) : Prop where
  isSome : x'.isSome = true → x.isSome = true
  import_zero : x' = none → x = none ∨ x = some 0

/-- Without an entry there is no definition. -/
theorem Refined.eq_none {x' : Option UInt64} (h : Refined none x') : x' = none := by
  cases x' with
  | none => rfl
  | some v => cases h.isSome rfl

theorem refined_firstAddress (syms : List Sym) (name : String) :
    Refined (firstAddress syms name) (firstAddress (syms.filter Sym.defined) name) := by
  induction syms with
  | nil => exact ⟨fun h => h, fun _ => .inl rfl⟩
  | cons sym syms ih =>
    by_cases hname : sym.name = some name
    · have hfirst : firstAddress (sym :: syms) name = some sym.address := by
        simp [firstAddress, hname]
      rw [hfirst]
      cases hdef : sym.defined with
      | true =>
        have hfirst' : firstAddress ((sym :: syms).filter Sym.defined) name = some sym.address := by
          simp [firstAddress, hname, hdef]
        rw [hfirst']
        exact ⟨fun h => h, fun h => .inl h⟩
      | false => exact ⟨fun _ => rfl, fun _ => .inr (congrArg some (sym.address_of_import hdef))⟩
    · have hskip : ∀ l : List Sym, firstAddress (sym :: l) name = firstAddress l name := by
        intro l
        simp [firstAddress, hname]
      rw [hskip]
      cases hdef : sym.defined with
      | true =>
        rw [List.filter_cons_of_pos hdef, hskip]
        exact ih
      | false =>
        rw [List.filter_cons_of_neg (by simp [hdef])]
        exact ih

/-! ### The dispatch in a release build -/

theorem applyOverride_release (addr loadBase : UInt64) :
    applyOverride .release addr loadBase = .ok (overridden addr loadBase) := by
  unfold applyOverride overridden
  split <;> rfl

/-- The address of `php_version` in a release build. -/
def phpVersionAddr (overrideAddr symAddr : Option UInt64) (loadBase bias : UInt64) :
    Option UInt64 :=
  match overrideAddr with
  | some addr => some (overridden addr loadBase)
  | none => symAddr.map (· + bias)

theorem resolvePhpVersion_release (overrideAddr symAddr : Option UInt64) (loadBase bias : UInt64) :
    resolvePhpVersion .release overrideAddr symAddr loadBase bias =
      .ok (phpVersionAddr overrideAddr symAddr loadBase bias) := by
  unfold resolvePhpVersion phpVersionAddr
  cases overrideAddr with
  | some addr =>
    dsimp only
    rw [applyOverride_release]
    rfl
  | none => cases symAddr <;> rfl

section Slots

variable {slots slots' : String → Option UInt64} {bias : UInt64} {opts : ResolveOptions}

/-- Without markers there is no ZTS part. -/
theorem resolveSlots_of_not_zts (h : isZts slots = false) :
    resolveSlots .release slots bias opts =
      (resolveExecutorGlobals .release opts.executorGlobalsOverride (slots "executor_globals") false
        opts.allowStripped opts.label opts.loadBase bias).map fun eg =>
          ⟨eg, phpVersionAddr opts.phpVersionOverride (slots "php_version") opts.loadBase bias,
            none⟩ := by
  rw [resolveSlots, h, resolvePhpVersion_release]
  cases resolveExecutorGlobals .release opts.executorGlobalsOverride (slots "executor_globals")
    false opts.allowStripped opts.label opts.loadBase bias <;> rfl

/-- The executor globals of a ZTS build. -/
def ztsExecutorGlobals (overrideAddr symAddr : Option UInt64) (loadBase bias : UInt64) : UInt64 :=
  match overrideAddr with
  | some addr => overridden addr loadBase
  | none => (symAddr.map (· + bias)).getD 0

/-- The symbols of a ZTS build, which needs both of its parts. -/
def ztsSymbols (tcbOffsetFn egOffsetVar : Option UInt64) (eg : UInt64) (version : Option UInt64)
    (bias : UInt64) (label : String) : Except ResolveError Symbols :=
  match tcbOffsetFn, egOffsetVar with
  | some tcb, some var => .ok ⟨eg, version, some ⟨tcb + bias, var + bias⟩⟩
  | _, _ => .error (.ztsStripped label)

theorem resolveSlots_of_zts (h : isZts slots = true) :
    resolveSlots .release slots bias opts =
      ztsSymbols (slots "tsrm_get_ls_cache_tcb_offset") (slots "executor_globals_offset")
        (ztsExecutorGlobals opts.executorGlobalsOverride (slots "executor_globals") opts.loadBase
          bias)
        (phpVersionAddr opts.phpVersionOverride (slots "php_version") opts.loadBase bias) bias
        opts.label := by
  have heg : resolveExecutorGlobals .release opts.executorGlobalsOverride (slots "executor_globals")
      true opts.allowStripped opts.label opts.loadBase bias =
        .ok (ztsExecutorGlobals opts.executorGlobalsOverride (slots "executor_globals")
          opts.loadBase bias) := by
    unfold resolveExecutorGlobals ztsExecutorGlobals
    cases opts.executorGlobalsOverride with
    | some addr => exact applyOverride_release addr opts.loadBase
    | none => cases slots "executor_globals" <;> rfl
  rw [resolveSlots, h, heg, resolvePhpVersion_release]
  cases slots "tsrm_get_ls_cache_tcb_offset" with
  | none => rfl
  | some tcb => cases slots "executor_globals_offset" <;> rfl

end Slots

/-! ### When a slot makes no difference -/

theorem map_add_inj {x x' : Option UInt64} {bias : UInt64} :
    x.map (· + bias) = x'.map (· + bias) ↔ x = x' :=
  (Option.map_injective fun _ _ h => (UInt64.add_left_inj bias).mp h).eq_iff

theorem phpVersionAddr_eq_iff {overrideAddr x x' : Option UInt64} {loadBase bias : UInt64} :
    phpVersionAddr overrideAddr x loadBase bias = phpVersionAddr overrideAddr x' loadBase bias ↔
      overrideAddr.isSome = true ∨ x = x' := by
  cases overrideAddr with
  | some addr => simp [phpVersionAddr]
  | none => simpa [phpVersionAddr] using map_add_inj

theorem ztsExecutorGlobals_eq_iff {overrideAddr x x' : Option UInt64} {loadBase bias : UInt64}
    (h : Refined x x') :
    ztsExecutorGlobals overrideAddr x loadBase bias =
        ztsExecutorGlobals overrideAddr x' loadBase bias ↔
      overrideAddr.isSome = true ∨ x = x' ∨ (x' = none ∧ bias = 0) := by
  cases overrideAddr with
  | some addr => simp [ztsExecutorGlobals]
  | none =>
    cases x with
    | none => simp [h.eq_none]
    | some v =>
      cases x' with
      | none =>
        have hv : v = 0 := by simpa using h.import_zero rfl
        simp [ztsExecutorGlobals, hv]
      | some v' => simp [ztsExecutorGlobals]

theorem ntsExecutorGlobals_eq_iff {overrideAddr x x' : Option UInt64} {allowStripped : Bool}
    {label : String} {loadBase bias : UInt64} {y y' : Option UInt64} (h : Refined x x') :
    (resolveExecutorGlobals .release overrideAddr x false allowStripped label loadBase bias).map
        (fun eg => (⟨eg, y, none⟩ : Symbols)) =
      (resolveExecutorGlobals .release overrideAddr x' false allowStripped label loadBase bias).map
        (fun eg => ⟨eg, y', none⟩) ↔
      (overrideAddr = none ∧ x = none) ∨ ((overrideAddr.isSome = true ∨ x = x') ∧ y = y') := by
  cases overrideAddr with
  | some addr =>
    simp [resolveExecutorGlobals, applyOverride_release, Except.map]
  | none =>
    cases x with
    | none => simp [h.eq_none, resolveExecutorGlobals, Except.map]
    | some v =>
      cases x' with
      | none => simp [resolveExecutorGlobals, Except.map]
      | some v' => simp [resolveExecutorGlobals, Except.map]

theorem ztsSymbols_eq_iff {t t' o o' : Option UInt64} {eg eg' : UInt64} {y y' : Option UInt64}
    {bias : UInt64} {label : String} (ht : Refined t t') (ho : Refined o o') :
    ztsSymbols t o eg y bias label = ztsSymbols t' o' eg' y' bias label ↔
      (t = none ∨ o = none) ∨ (t = t' ∧ o = o') ∧ eg = eg' ∧ y = y' := by
  cases t with
  | none => simp [ztsSymbols, ht.eq_none]
  | some v =>
    cases o with
    | none => cases t' <;> simp [ztsSymbols, ho.eq_none]
    | some w =>
      cases t' with
      | none => simp [ztsSymbols]
      | some v' =>
        cases o' with
        | none => simp [ztsSymbols]
        | some w' =>
          simp [ztsSymbols]
          tauto

/-! ### The condition -/

/-- The first entry of the name counts as its first definition does. -/
def SameSlot (file : ElfFile) (name : String) : Prop :=
  firstAddress file.entries name = firstAddress file.definitions name

/-- The imports do not decide about the build.  In a ZTS build, one of the two
symbols it needs has no entry at all, or both slots are those of definitions.
And unless there is nothing to find, the executor globals and the version have a
definition first, or an address from the command line; an import for the executor
globals of a ZTS build is none at bias zero. -/
def ImportsHarmless (file : ElfFile) (opts : ResolveOptions) : Prop :=
  (Marked file.entries → Marked file.definitions) ∧
  ((Marked file.entries ∧ (¬ Occurs file.entries "tsrm_get_ls_cache_tcb_offset" ∨
      ¬ Occurs file.entries "executor_globals_offset")) ∨
    (Marked file.entries → SameSlot file "tsrm_get_ls_cache_tcb_offset" ∧
      SameSlot file "executor_globals_offset") ∧
    ((¬ Marked file.entries ∧ opts.executorGlobalsOverride = none ∧
        ¬ Occurs file.entries "executor_globals") ∨
      (opts.executorGlobalsOverride.isSome = true ∨ SameSlot file "executor_globals" ∨
        (Marked file.entries ∧ ¬ Occurs file.definitions "executor_globals" ∧
          biasFor file opts.loadBase = 0)) ∧
      (opts.phpVersionOverride.isSome = true ∨ SameSlot file "php_version")))

theorem refined_entries (file : ElfFile) (name : String) :
    Refined (firstAddress file.entries name) (firstAddress file.definitions name) :=
  refined_firstAddress file.entries name

theorem marked_of_definitions {file : ElfFile} (h : Marked file.definitions) :
    Marked file.entries := by
  unfold Marked isZts at h ⊢
  rw [Bool.or_eq_true] at h ⊢
  exact h.imp (refined_entries file _).isSome (refined_entries file _).isSome

/-- Without markers, the executor globals and the version decide. -/
theorem resolveSlots_eq_iff_of_not_marked {file : ElfFile} {opts : ResolveOptions} {bias : UInt64}
    (h : ¬ Marked file.entries) :
    resolveSlots .release (firstAddress file.entries) bias opts =
        resolveSlots .release (firstAddress file.definitions) bias opts ↔
      (opts.executorGlobalsOverride = none ∧ ¬ Occurs file.entries "executor_globals") ∨
        (opts.executorGlobalsOverride.isSome = true ∨ SameSlot file "executor_globals") ∧
          (opts.phpVersionOverride.isSome = true ∨ SameSlot file "php_version") := by
  have h' : ¬ Marked file.definitions := fun h' => h (marked_of_definitions h')
  rw [resolveSlots_of_not_zts (Bool.eq_false_iff.mpr h),
    resolveSlots_of_not_zts (Bool.eq_false_iff.mpr h'),
    ntsExecutorGlobals_eq_iff (refined_entries file _), phpVersionAddr_eq_iff, not_occurs_iff]
  rfl

/-- With markers on both sides, the two parts of the ZTS build decide as well. -/
theorem resolveSlots_eq_iff_of_marked {file : ElfFile} {opts : ResolveOptions} {bias : UInt64}
    (h : Marked file.entries) (h' : Marked file.definitions) :
    resolveSlots .release (firstAddress file.entries) bias opts =
        resolveSlots .release (firstAddress file.definitions) bias opts ↔
      (¬ Occurs file.entries "tsrm_get_ls_cache_tcb_offset" ∨
          ¬ Occurs file.entries "executor_globals_offset") ∨
        (SameSlot file "tsrm_get_ls_cache_tcb_offset" ∧ SameSlot file "executor_globals_offset") ∧
          (opts.executorGlobalsOverride.isSome = true ∨ SameSlot file "executor_globals" ∨
            (¬ Occurs file.definitions "executor_globals" ∧ bias = 0)) ∧
          (opts.phpVersionOverride.isSome = true ∨ SameSlot file "php_version") := by
  rw [resolveSlots_of_zts h, resolveSlots_of_zts h',
    ztsSymbols_eq_iff (refined_entries file _) (refined_entries file _),
    ztsExecutorGlobals_eq_iff (refined_entries file _), phpVersionAddr_eq_iff, not_occurs_iff,
    not_occurs_iff, not_occurs_iff]
  rfl

/-- A ZTS build is told apart from another. -/
theorem resolveSlots_ne_of_marked {file : ElfFile} {opts : ResolveOptions} {bias : UInt64}
    (h : Marked file.entries) (h' : ¬ Marked file.definitions) :
    resolveSlots .release (firstAddress file.entries) bias opts ≠
      resolveSlots .release (firstAddress file.definitions) bias opts := by
  rw [resolveSlots_of_zts h, resolveSlots_of_not_zts (Bool.eq_false_iff.mpr h')]
  -- the two differ in `zts`, or in the error
  unfold ztsSymbols resolveExecutorGlobals
  cases opts.executorGlobalsOverride with
  | some addr =>
    dsimp only
    rw [applyOverride_release]
    split <;> simp [Except.map]
  | none => cases firstAddress file.definitions "executor_globals" <;> split <;> simp [Except.map]

/-- Without its imports, the file is resolved by its first definitions. -/
theorem resolve_definedOnly_of_supported {arch : Arch} {bd : Build} {file : ElfFile}
    {opts : ResolveOptions} (h : Supported arch file) :
    resolve arch bd file.definedOnly opts =
      resolveSlots bd (firstAddress file.definitions) (biasFor file opts.loadBase) opts := by
  have h' : Supported arch file.definedOnly := h
  rw [resolve_eq_of_supported h', resolveSlots_wanted, ElfFile.entries_definedOnly]
  rfl

/-- **The imports make no difference** exactly if the header is refused or they are
harmless. -/
theorem resolve_definedOnly_iff (arch : Arch) (file : ElfFile) (opts : ResolveOptions) :
    resolve arch .release file opts = resolve arch .release file.definedOnly opts ↔
      ¬ Supported arch file ∨ ImportsHarmless file opts := by
  by_cases hsupp : Supported arch file
  · rw [resolve_eq_of_supported hsupp, resolve_definedOnly_of_supported hsupp,
      resolveSlots_wanted, ImportsHarmless]
    by_cases h : Marked file.entries
    · by_cases h' : Marked file.definitions
      · rw [resolveSlots_eq_iff_of_marked h h']
        simp [hsupp, h, h']
      · simp [hsupp, h, h', resolveSlots_ne_of_marked h h']
    · rw [resolveSlots_eq_iff_of_not_marked h]
      simp [hsupp, h]
  · have hsame : resolve arch .release file opts = resolve arch .release file.definedOnly opts :=
      resolve_of_not_supported rfl rfl hsupp
    exact ⟨fun _ => .inl hsupp, fun _ => hsame⟩

/-- A position-independent executable that imports the executor globals. -/
def importingFile : ElfFile where
  eType := ET_DYN
  eMachine := EM_X86_64
  symbols := []
  dynamicSymbols := [⟨some "executor_globals", 0, false, fun _ => rfl⟩]
  sections := []

/-- They are read at the load base, though the binary does not have them. -/
theorem resolve_importingFile :
    resolve .x86_64 .release importingFile ⟨0x555500000000, none, none, false, "php"⟩ =
        .ok ⟨0x555500000000, none, none⟩ ∧
      resolve .x86_64 .release importingFile.definedOnly
          ⟨0x555500000000, none, none, false, "php"⟩ =
        .error (.noExecutorGlobals "php" false) :=
  ⟨by decide, by decide⟩

end PhpFastProfile
