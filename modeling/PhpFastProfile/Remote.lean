import PhpFastProfile.Lib.Bytes

/-!
# Reading the target's memory

`Remote` is the target's memory as one call sees it: a partial map from 64-bit
addresses to bytes.  A read fails as a whole when any of its bytes is missing.
Rust code stops in one of two ways, by returning an error or by panicking; `?`
and `unwrap_or` see only the errors.  Address arithmetic panics on overflow in a
build with overflow checks and wraps in a release build, so the computations
that add addresses take the build as an argument.

## Main definitions

* `Outcome` — a value, an error or a panic.
* `Build` — whether additions are checked for overflow.
* `Remote.read`, `Remote.readU64`, `Remote.readU32` — the reads of `remote.rs`.
* `sliceU64`, `sliceU32`, `byteAt` — the reads from a buffer.
-/

namespace PhpFastProfile

open Bytes

/-! ### Outcomes -/

/-- The two errors of `Remote::read`. -/
inductive ReadError where
  | fault (addr : UInt64) (len : ℕ)
  | shortRead (addr : UInt64) (got len : ℕ)
  deriving DecidableEq, Repr, Inhabited

/-- How a computation stops without a value. -/
inductive Stop where
  | err (e : ReadError)
  | panic
  deriving DecidableEq, Repr, Inhabited

/-- The result of a computation that fails or panics. -/
abbrev Outcome (α : Type) := Except Stop α

/-- `Result::unwrap_or`. -/
def Outcome.unwrapOr {α : Type} (x : Outcome α) (d : α) : Outcome α :=
  match x with
  | .ok a => .ok a
  | .error (.err _) => .ok d
  | .error .panic => .error .panic

/-- `Result::ok` followed by `Option::flatten`. -/
def Outcome.flat {α : Type} (x : Outcome (Option α)) : Option α :=
  match x with
  | .ok a => a
  | .error _ => none

/-- The build profile, as far as arithmetic depends on it. -/
structure Build where
  overflowChecks : Bool
  deriving DecidableEq, Repr

/-- The profile the program is released with. -/
def Build.release : Build := ⟨false⟩

/-- Addition of addresses. -/
def Build.add (bd : Build) (a b : UInt64) : Outcome UInt64 :=
  if bd.overflowChecks ∧ 2 ^ 64 ≤ a.toNat + b.toNat then .error .panic else .ok (a + b)

@[simp] theorem Build.release_add (a b : UInt64) : Build.release.add a b = .ok (a + b) := rfl

/-! ### Memory reads -/

/-- The target's memory. -/
structure Remote where
  byte : UInt64 → Option UInt8

namespace Remote

/-- The byte at a natural address; there is none from `2 ^ 64` on. -/
def cell (rem : Remote) (a : ℕ) : Option UInt8 :=
  if a < 2 ^ 64 then rem.byte (UInt64.ofNat a) else none

/-- A readable memory of zeros, with other bytes at the given addresses. -/
def zeroExcept (cells : List (ℕ × UInt8)) : Remote :=
  ⟨fun a => some ((cells.lookup a.toNat).getD 0)⟩

/-- The memory below `limit`. -/
def below (rem : Remote) (limit : ℕ) : Remote :=
  ⟨fun a => if a.toNat < limit then rem.byte a else none⟩

/-- How many of the `n` bytes from `a` on come before the first missing one. -/
def readable (rem : Remote) : ℕ → ℕ → ℕ
  | _, 0 => 0
  | a, n + 1 => if (rem.cell a).isSome then rem.readable (a + 1) n + 1 else 0

/-- The error of a read that fails: `process_vm_readv` reports how much it got,
or a fault when it got nothing. -/
def readError (rem : Remote) (addr : UInt64) (len : ℕ) : ReadError :=
  match rem.readable addr.toNat len with
  | 0 => .fault addr len
  | got => .shortRead addr got len

/-- `Remote::read` into a buffer of `len` bytes. -/
def read (rem : Remote) (addr : UInt64) (len : ℕ) : Outcome (List UInt8) :=
  match load rem.cell addr.toNat len with
  | some bs => .ok bs
  | none => .error (.err (rem.readError addr len))

/-- `read_u64`, little-endian. -/
def readU64 (rem : Remote) (addr : UInt64) : Outcome UInt64 := do
  let buf ← rem.read addr 8
  return UInt64.ofNat (leNat buf)

/-- `read_u32`, little-endian. -/
def readU32 (rem : Remote) (addr : UInt64) : Outcome UInt32 := do
  let buf ← rem.read addr 4
  return UInt32.ofNat (leNat buf)

/-- `Remote::read_array` for a buffer of `n` bytes. -/
def readArray (rem : Remote) (n : ℕ) (addr : UInt64) : Outcome (List UInt8) := rem.read addr n

/-- `read_vec`. -/
def readVec (rem : Remote) (addr : UInt64) (len : ℕ) : Outcome (List UInt8) := rem.read addr len

end Remote

/-! ### Buffer reads -/

/-- `zend::read_u64`: the slice panics when it does not fit the buffer. -/
def sliceU64 (buf : List UInt8) (off : UInt64) : Outcome UInt64 :=
  if off.toNat + 8 ≤ buf.length then
    .ok (UInt64.ofNat (leNat ((buf.drop off.toNat).take 8)))
  else .error .panic

/-- `zend::read_u32`. -/
def sliceU32 (buf : List UInt8) (off : UInt64) : Outcome UInt32 :=
  if off.toNat + 4 ≤ buf.length then
    .ok (UInt32.ofNat (leNat ((buf.drop off.toNat).take 4)))
  else .error .panic

/-- Indexing a buffer. -/
def byteAt (buf : List UInt8) (off : UInt64) : Outcome UInt8 :=
  match buf[off.toNat]? with
  | some b => .ok b
  | none => .error .panic

@[simp] theorem ok_bind {α β : Type} (a : α) (f : α → Outcome β) :
    (.ok a : Outcome α) >>= f = f a := rfl

@[simp] theorem pure_eq_ok {α : Type} (a : α) : (pure a : Outcome α) = .ok a := rfl

theorem bind_eq_ok {α β : Type} {x : Outcome α} {f : α → Outcome β} {b : β} :
    x >>= f = .ok b ↔ ∃ a, x = .ok a ∧ f a = .ok b := by
  cases x with
  | ok a => simp [bind, Except.bind]
  | error s => simp [bind, Except.bind]

/-! ### Computations that do not panic -/

/-- The computation returns or reports an error. -/
def NoPanic {α : Type} (x : Outcome α) : Prop := x ≠ .error .panic

section NoPanic

variable {α β : Type}

theorem noPanic_ok (a : α) : NoPanic (.ok a : Outcome α) := by simp [NoPanic]

theorem noPanic_bind {x : Outcome α} {f : α → Outcome β} (hx : NoPanic x)
    (hf : ∀ a, NoPanic (f a)) : NoPanic (x >>= f) := by
  cases x with
  | ok a => exact hf a
  | error s =>
    intro h
    exact hx (congrArg Except.error (Except.error.inj h))

theorem noPanic_ite {p : Prop} [Decidable p] {x y : Outcome α} (hx : NoPanic x)
    (hy : NoPanic y) : NoPanic (if p then x else y) := by
  split
  · exact hx
  · exact hy

/-- What does not panic and fails reports an error. -/
theorem NoPanic.eq_err {x : Outcome α} (hx : NoPanic x) {s : Stop} (h : x = .error s) :
    ∃ e, s = .err e := by
  cases s with
  | err e => exact ⟨e, rfl⟩
  | panic => exact absurd h hx

/-- A default for what does not panic always gives a value. -/
theorem NoPanic.unwrapOr {x : Outcome α} (hx : NoPanic x) (d : α) :
    Outcome.unwrapOr x d = .ok (x.toOption.getD d) := by
  cases hxs : x with
  | ok a => rfl
  | error s =>
    obtain ⟨e, rfl⟩ := hx.eq_err hxs
    rfl

theorem noPanic_unwrapOr {x : Outcome α} (hx : NoPanic x) (d : α) :
    NoPanic (Outcome.unwrapOr x d) := by
  rw [hx.unwrapOr]
  exact noPanic_ok _

end NoPanic

/-! ### Windows -/

namespace Remote

theorem read_eq_ok_iff {rem : Remote} {addr : UInt64} {len : ℕ} {buf : List UInt8} :
    rem.read addr len = .ok buf ↔ load rem.cell addr.toNat len = some buf := by
  unfold read
  cases load rem.cell addr.toNat len with
  | none => simp
  | some bs => simp

/-- A memory of zeros can be read everywhere. -/
theorem exists_read_zeroExcept (cells : List (ℕ × UInt8)) {addr : UInt64} {len : ℕ}
    (h : addr.toNat + len ≤ 2 ^ 64) : ∃ buf, (zeroExcept cells).read addr len = .ok buf := by
  refine ⟨(List.range len).map fun i => (cells.lookup (addr.toNat + i)).getD 0,
    read_eq_ok_iff.mpr (load_eq_some_iff.mpr ⟨by simp, fun i hi => ?_⟩)⟩
  have hlt : addr.toNat + i < 2 ^ 64 := by omega
  rw [cell, if_pos hlt, List.getElem?_map, List.getElem?_range hi]
  show some ((cells.lookup (UInt64.ofNat (addr.toNat + i)).toNat).getD 0) = _
  rw [UInt64.toNat_ofNat_of_lt' hlt]
  rfl

/-- A read that fails reports an error. -/
theorem read_eq_error {rem : Remote} {addr : UInt64} {len : ℕ} {s : Stop}
    (h : rem.read addr len = .error s) : ∃ e, s = .err e := by
  unfold read at h
  cases hload : load rem.cell addr.toNat len with
  | none => rw [hload] at h; exact ⟨_, (Except.error.inj h).symm⟩
  | some bs => rw [hload] at h; simp at h

theorem noPanic_read (rem : Remote) (addr : UInt64) (len : ℕ) : NoPanic (rem.read addr len) := by
  intro h
  obtain ⟨e, he⟩ := read_eq_error h
  exact absurd he (by simp)

theorem noPanic_readU64 (rem : Remote) (addr : UInt64) : NoPanic (rem.readU64 addr) :=
  noPanic_bind (noPanic_read rem addr 8) fun _ => noPanic_ok _

theorem noPanic_readU32 (rem : Remote) (addr : UInt64) : NoPanic (rem.readU32 addr) :=
  noPanic_bind (noPanic_read rem addr 4) fun _ => noPanic_ok _

theorem length_read {rem : Remote} {addr : UInt64} {len : ℕ} {buf : List UInt8}
    (h : rem.read addr len = .ok buf) : buf.length = len :=
  length_load (read_eq_ok_iff.mp h)

/-- The beginning of what can be read can be read. -/
theorem read_take {rem : Remote} {addr : UInt64} {len k : ℕ} {buf : List UInt8}
    (h : rem.read addr len = .ok buf) (hk : k ≤ len) : rem.read addr k = .ok (buf.take k) := by
  rw [read_eq_ok_iff]
  exact load_window (i := 0) (read_eq_ok_iff.mp h) (by omega)

/-- What can be read lies below `2 ^ 64`. -/
theorem add_le_of_read {rem : Remote} {addr : UInt64} {len : ℕ} {buf : List UInt8}
    (h : rem.read addr len = .ok buf) : addr.toNat + len ≤ 2 ^ 64 := by
  have haddr : addr.toNat < 2 ^ 64 := addr.toNat_lt
  cases len with
  | zero => omega
  | succ n =>
    obtain ⟨hlen, hcells⟩ := load_eq_some_iff.mp (read_eq_ok_iff.mp h)
    have hlast := hcells n (Nat.lt_succ_self n)
    have hsome : buf[n]? ≠ none := by
      rw [ne_eq, List.getElem?_eq_none_iff]
      omega
    -- otherwise the last byte would lie past the end of the address space
    by_contra hover
    have hnone : rem.cell (addr.toNat + n) = none := if_neg (by omega)
    exact hsome (hlast.symm.trans hnone)

/-- **A part of what can be read can be read, at an address that does not wrap.** -/
theorem read_window {rem : Remote} {addr off : UInt64} {len k : ℕ} {buf : List UInt8}
    (h : rem.read addr len = .ok buf) (hk : off.toNat + k ≤ len) (hpos : 0 < k) (bd : Build) :
    bd.add addr off = .ok (addr + off) ∧
      rem.read (addr + off) k = .ok ((buf.drop off.toNat).take k) := by
  have hle := add_le_of_read h
  have hsum : (addr + off).toNat = addr.toNat + off.toNat := by
    rw [UInt64.toNat_add, Nat.mod_eq_of_lt (by omega)]
  refine ⟨?_, ?_⟩
  · unfold Build.add
    rw [if_neg (by omega)]
  · rw [read_eq_ok_iff, hsum]
    exact load_window (read_eq_ok_iff.mp h) hk

end Remote

end PhpFastProfile
