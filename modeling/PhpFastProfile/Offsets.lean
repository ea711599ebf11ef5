import Mathlib.Algebra.Ring.Nat

/-!
# Zend struct offsets

Offsets of the fields the profiler reads, for NTS PHP on x86_64 Linux.  The leaf
structs have kept their layout, so their offsets are plain constants; what moves
between minor versions is collected in a `VersionLayout`, which `pick` chooses by
the prefix of the version string and then overrides from two environment
variables.

## Main definitions

* `VersionLayout`, `layout8_0` … `layout8_5` — the per-version offsets.
* `pick` — the layout of a version string.
* `ex`, `func`, `op`, `zstr`, `ce`, `ht`, `bucket`, `zval` — the stable offsets.

## Main results

* `pick_eq_some` — a picked layout is one of the six up to its two `EG` offsets.
-/

namespace PhpFastProfile

/-! ### Layouts -/

/-- The offsets that differ between the versions of PHP. -/
structure VersionLayout where
  label : String
  egCurrentExecuteData : UInt64
  egSymbolTable : UInt64
  opArrayFilename : UInt64
  opArrayLineStart : UInt64
  deriving DecidableEq, Repr

/-- PHP 8.0. -/
def layout8_0 : VersionLayout := ⟨"8.0", 488, 304, 144, 152⟩
/-- PHP 8.1. -/
def layout8_1 : VersionLayout := ⟨"8.1", 488, 304, 144, 152⟩
/-- PHP 8.2. -/
def layout8_2 : VersionLayout := ⟨"8.2", 488, 304, 152, 160⟩
/-- PHP 8.3. -/
def layout8_3 : VersionLayout := ⟨"8.3", 488, 304, 144, 152⟩
/-- PHP 8.4. -/
def layout8_4 : VersionLayout := ⟨"8.4", 488, 304, 168, 176⟩
/-- PHP 8.5. -/
def layout8_5 : VersionLayout := ⟨"8.5", 512, 304, 168, 176⟩

/-! ### Environment overrides -/

/-- What `env::var` gives for the two override variables: `none` when the
variable is unset or not Unicode. -/
structure Env where
  egCurrentExecuteData : Option String
  egSymbolTable : Option String

/-- `str::parse::<u64>`: an optional `+`, then decimal digits, below `2 ^ 64`. -/
def parseU64 (s : String) : Option UInt64 :=
  let digits := match s.toList with
    | '+' :: cs => cs
    | cs => cs
  let n := Nat.ofDigitChars 10 digits 0
  if digits ≠ [] ∧ digits.all Char.isDigit ∧ n < 2 ^ 64 then some (UInt64.ofNat n) else none

/-- The two `if let Ok(v) = env::var(..)` blocks of `pick`. -/
def Env.override (env : Env) (base : VersionLayout) : VersionLayout :=
  let base := match env.egCurrentExecuteData.bind parseU64 with
    | some n => { base with egCurrentExecuteData := n }
    | none => base
  match env.egSymbolTable.bind parseU64 with
  | some n => { base with egSymbolTable := n }
  | none => base

/-- `str::starts_with`. -/
def startsWith (s p : String) : Bool := p.toList.isPrefixOf s.toList

/-- The chain of prefix tests of `pick`. -/
def pickBase (phpVersion : String) : Option VersionLayout :=
  if startsWith phpVersion "8.0" then some layout8_0
  else if startsWith phpVersion "8.1" then some layout8_1
  else if startsWith phpVersion "8.2" then some layout8_2
  else if startsWith phpVersion "8.3" then some layout8_3
  else if startsWith phpVersion "8.4" then some layout8_4
  else if startsWith phpVersion "8.5" then some layout8_5
  else none

/-- `pick`: the layout for a version, with the overrides of the environment. -/
def pick (env : Env) (phpVersion : String) : Option VersionLayout :=
  (pickBase phpVersion).map env.override

/-! ### Stable offsets -/

namespace ex
/-- The instruction the call has got to, `opline`. -/
def OPLINE : UInt64 := 0
/-- The function that is called, `func`. -/
def FUNC : UInt64 := 24
/-- The caller, `prev_execute_data`. -/
def PREV_EXECUTE_DATA : UInt64 := 48
end ex

namespace func
/-- The type byte of a function. -/
def TYPE : UInt64 := 0
/-- A function of the interpreter. -/
def TYPE_INTERNAL : UInt8 := 1
/-- A function of a script. -/
def TYPE_USER : UInt8 := 2
/-- The name, `function_name`. -/
def FUNCTION_NAME : UInt64 := 8
/-- The class, `scope`. -/
def SCOPE : UInt64 := 16
end func

namespace op
/-- The line of an instruction, `lineno`. -/
def LINENO : UInt64 := 24
end op

namespace zstr
/-- The length of a string, `len`. -/
def LEN : UInt64 := 16
/-- Where its bytes begin, `val`. -/
def VAL : UInt64 := 24
end zstr

namespace ce
/-- The name of a class, `name`. -/
def NAME : UInt64 := 8
end ce

namespace ht
/-- The buckets, `arData`. -/
def AR_DATA : UInt64 := 16
/-- How many buckets are in use, `nNumUsed`. -/
def N_NUM_USED : UInt64 := 24
end ht

namespace bucket
/-- The distance of two buckets. -/
def SIZE : UInt64 := 32
/-- The value in a bucket, `val`. -/
def VAL : UInt64 := 0
/-- The key of a bucket, `key`. -/
def KEY : UInt64 := 24
end bucket

namespace zval
/-- The value itself, `value`. -/
def VALUE : UInt64 := 0
/-- Its type, `type_info`. -/
def TYPE_INFO : UInt64 := 8
/-- The tag of an empty slot. -/
def IS_UNDEF : UInt8 := 0
/-- The tag of a string. -/
def IS_STRING : UInt8 := 6
/-- The tag of an array. -/
def IS_ARRAY : UInt8 := 7
/-- The tag of a reference. -/
def IS_REFERENCE : UInt8 := 10
end zval

/-! ### What `pick` returns -/

@[simp] theorem Env.override_label (env : Env) (base : VersionLayout) :
    (env.override base).label = base.label := by
  unfold Env.override
  cases env.egCurrentExecuteData.bind parseU64 <;> cases env.egSymbolTable.bind parseU64 <;> rfl

@[simp] theorem Env.override_opArrayFilename (env : Env) (base : VersionLayout) :
    (env.override base).opArrayFilename = base.opArrayFilename := by
  unfold Env.override
  cases env.egCurrentExecuteData.bind parseU64 <;> cases env.egSymbolTable.bind parseU64 <;> rfl

@[simp] theorem Env.override_opArrayLineStart (env : Env) (base : VersionLayout) :
    (env.override base).opArrayLineStart = base.opArrayLineStart := by
  unfold Env.override
  cases env.egCurrentExecuteData.bind parseU64 <;> cases env.egSymbolTable.bind parseU64 <;> rfl

/-- The layouts `pick` chooses from. -/
def layouts : List VersionLayout :=
  [layout8_0, layout8_1, layout8_2, layout8_3, layout8_4, layout8_5]

theorem pickBase_mem {phpVersion : String} {base : VersionLayout}
    (h : pickBase phpVersion = some base) : base ∈ layouts := by
  unfold pickBase at h
  -- one goal for each prefix, and one for a version with none of them
  repeat' split at h
  all_goals first
    | (obtain rfl := Option.some.inj h; decide)
    | exact absurd h (by simp)

/-- A picked layout is one of the six up to its two `EG` offsets. -/
theorem pick_eq_some {env : Env} {phpVersion : String} {layout : VersionLayout}
    (h : pick env phpVersion = some layout) : ∃ base ∈ layouts, layout = env.override base := by
  obtain ⟨base, hbase, rfl⟩ := Option.map_eq_some_iff.mp h
  exact ⟨base, pickBase_mem hbase, rfl⟩

theorem layouts_opArray_le : ∀ base ∈ layouts,
    base.opArrayFilename.toNat + 8 ≤ 192 ∧ base.opArrayLineStart.toNat + 4 ≤ 192 := by
  decide

/-- **Whatever the version and the environment, the fields of the op array that
are read lie within the 192 bytes fetched of it.** -/
theorem pick_opArray_le {env : Env} {phpVersion : String} {layout : VersionLayout}
    (h : pick env phpVersion = some layout) :
    layout.opArrayFilename.toNat + 8 ≤ 192 ∧ layout.opArrayLineStart.toNat + 4 ≤ 192 := by
  obtain ⟨base, hbase, rfl⟩ := pick_eq_some h
  rw [Env.override_opArrayFilename, Env.override_opArrayLineStart]
  exact layouts_opArray_le base hbase

end PhpFastProfile
