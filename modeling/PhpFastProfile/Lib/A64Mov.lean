import PhpFastProfile.Lib.A64
import Mathlib.Data.List.Induction

/-!
# Constants built by moves

`MOVZ` clears a register and writes one of its four half-words, `MOVK` writes a
half-word and keeps the others.  A sequence of them that starts with a `MOVZ`
leaves a constant, whatever the register held.

## Main definitions

* `half c j` — the half-word of `c` at position `j`.
* `Mov`, `Mov.applyAll` — moves to `x0`, and what they make of it.
* `MovesThenRet` — code that starts with some moves and a return.

## Main results

* `half_shiftLeft`, `half_insert`, `eq_of_half` — constants are built half-word by half-word.
* `Mov.applyAll_eq` — the constant a `MOVZ` and some `MOVK` build.
* `MovesThenRet.run_eq` — such code returns what its moves make of `x0`.
-/

namespace A64

/-! ### Constants by half-words -/

/-- The half-word of `c` at position `j`. -/
def half (c : BitVec 64) (j : BitVec 2) : BitVec 16 := c.extractLsb' (shiftOf j) 16

theorem shiftOf_lt (j : BitVec 2) : shiftOf j + 16 ≤ 64 := by
  have hj := j.isLt
  unfold shiftOf
  omega

/-- The bits of two half-words do not meet. -/
theorem shiftOf_apart {j k : BitVec 2} (h : j ≠ k) :
    shiftOf j + 16 ≤ shiftOf k ∨ shiftOf k + 16 ≤ shiftOf j := by
  have hne : j.toNat ≠ k.toNat := fun heq => h (BitVec.toNat_inj.mp heq)
  unfold shiftOf
  omega

/-- **A constant is determined by its half-words.** -/
theorem eq_of_half {a b : BitVec 64} (h : ∀ j, half a j = half b j) : a = b := by
  apply BitVec.eq_of_getLsbD_eq
  intro i hi
  have hj := congrArg (fun x : BitVec 16 => x.getLsbD (i % 16)) (h (BitVec.ofNat 2 (i / 16)))
  have hplace : shiftOf (BitVec.ofNat 2 (i / 16)) + i % 16 = i := by
    rw [shiftOf, BitVec.toNat_ofNat]
    omega
  have hlow : i % 16 < 16 := Nat.mod_lt _ (by decide)
  simpa [half, hplace, hlow] using hj

theorem half_shiftLeft (imm : BitVec 16) (hw j : BitVec 2) :
    half (imm.setWidth 64 <<< shiftOf hw) j = if j = hw then imm else 0#16 := by
  have hplace := shiftOf_lt j
  apply BitVec.eq_of_getLsbD_eq
  intro i hi
  have hin : shiftOf j + i < 64 := by omega
  by_cases h : j = hw
  · subst h
    simp [half, hi, hin]
  · have hapart := shiftOf_apart h
    rw [if_neg h]
    simp only [half, BitVec.getLsbD_extractLsb', BitVec.getLsbD_shiftLeft, BitVec.getLsbD_setWidth,
      hi, hin, decide_true, Bool.true_and]
    by_cases hlow : shiftOf j + i < shiftOf hw
    · simp [hlow]
    · have hhigh : imm.getLsbD (shiftOf j + i - shiftOf hw) = false :=
        BitVec.getLsbD_of_ge _ _ (by omega)
      simp [hhigh]

theorem half_mask (hw j : BitVec 2) :
    half (~~~(0xFFFF#64 <<< shiftOf hw)) j = if j = hw then 0#16 else BitVec.allOnes 16 := by
  have hmask : 0xFFFF#64 = (BitVec.allOnes 16).setWidth 64 := by decide
  have hnot : ∀ x : BitVec 64, half (~~~x) j = ~~~(half x j) := by
    intro x
    have hplace := shiftOf_lt j
    apply BitVec.eq_of_getLsbD_eq
    intro i hi
    have hin : shiftOf j + i < 64 := by omega
    simp [half, hi, hin]
  rw [hnot, hmask, half_shiftLeft]
  split <;> simp

theorem half_or (a b : BitVec 64) (j : BitVec 2) : half (a ||| b) j = half a j ||| half b j := by
  apply BitVec.eq_of_getLsbD_eq
  intro i hi
  simp [half, hi]

theorem half_and (a b : BitVec 64) (j : BitVec 2) : half (a &&& b) j = half a j &&& half b j := by
  apply BitVec.eq_of_getLsbD_eq
  intro i hi
  simp [half, hi]

/-- **Inserting a half-word** changes this one only. -/
theorem half_insert (x : BitVec 64) (imm : BitVec 16) (hw j : BitVec 2) :
    half ((x &&& ~~~(0xFFFF#64 <<< shiftOf hw)) ||| imm.setWidth 64 <<< shiftOf hw) j =
      if j = hw then imm else half x j := by
  rw [half_or, half_and, half_mask, half_shiftLeft]
  split
  · rw [BitVec.and_zero, BitVec.zero_or]
  · rw [BitVec.and_allOnes, BitVec.or_zero]

/-! ### Moves -/

/-- A `MOVZ`, or a `MOVK` when `keep`. -/
structure Mov where
  keep : Bool
  imm : BitVec 16
  hw : BitVec 2
  deriving DecidableEq, Repr

namespace Mov

/-- The move as an instruction that writes `x0`. -/
def instr (m : Mov) : Instr := if m.keep then .movk 0 m.imm m.hw else .movz 0 m.imm m.hw

/-- What it makes of `x0`. -/
def apply (m : Mov) (x : BitVec 64) : BitVec 64 :=
  if m.keep then (x &&& ~~~(0xFFFF#64 <<< shiftOf m.hw)) ||| m.imm.setWidth 64 <<< shiftOf m.hw
  else m.imm.setWidth 64 <<< shiftOf m.hw

theorem reg_step (m : Mov) (s : State) (q : BitVec 5) :
    (step m.instr s).reg q = if q = 0 then m.apply (s.reg 0) else s.reg q := by
  obtain ⟨keep, imm, hw⟩ := m
  cases keep <;> simp [instr, apply, step, reg_setReg]

theorem instr_ne_ret (m : Mov) (rn : BitVec 5) : m.instr ≠ .ret rn := by
  obtain ⟨keep, imm, hw⟩ := m
  cases keep <;> simp [instr]

theorem instr_injective {m m' : Mov} (h : m.instr = m'.instr) : m = m' := by
  obtain ⟨keep, imm, hw⟩ := m
  obtain ⟨keep', imm', hw'⟩ := m'
  cases keep <;> cases keep' <;> simp_all [instr]

/-- The half-words after a move. -/
theorem half_apply (m : Mov) (x : BitVec 64) (j : BitVec 2) :
    half (m.apply x) j = if j = m.hw then m.imm else if m.keep then half x j else 0#16 := by
  obtain ⟨keep, imm, hw⟩ := m
  cases keep with
  | true => exact half_insert x imm hw j
  | false => exact half_shiftLeft imm hw j

/-- What some moves make of `x0`. -/
def applyAll (movs : List Mov) (x : BitVec 64) : BitVec 64 := movs.foldl (fun x m => m.apply x) x

/-- The last immediate written to a half-word, if any. -/
def written (movs : List Mov) (j : BitVec 2) : Option (BitVec 16) :=
  (movs.reverse.find? fun m => m.hw = j).map Mov.imm

/-- Moves that keep what they do not write. -/
theorem half_applyAll {movs : List Mov} (h : ∀ m ∈ movs, m.keep = true) (x : BitVec 64)
    (j : BitVec 2) : half (applyAll movs x) j = (written movs j).getD (half x j) := by
  induction movs using List.reverseRecOn with
  | nil => rfl
  | append_singleton movs m ih =>
    have ih := ih fun m' hm' => h m' (List.mem_append_left _ hm')
    have hkeep := h m (List.mem_append_right _ (List.mem_singleton_self m))
    rw [applyAll, List.foldl_append, written, List.reverse_append]
    change half (m.apply (applyAll movs x)) j =
      ((((m :: movs.reverse).find? fun m => m.hw = j).map Mov.imm)).getD (half x j)
    rw [half_apply, hkeep, if_pos rfl, ih, List.find?_cons, written]
    by_cases hj : j = m.hw
    · simp [hj]
    · simp [hj, Ne.symm hj]

/-- **A `MOVZ` and some `MOVK` build the constant with the half-words they write.** -/
theorem applyAll_eq {m : Mov} {movs : List Mov} (hm : m.keep = false)
    (hmovs : ∀ m' ∈ movs, m'.keep = true) {c : BitVec 64}
    (hc : ∀ j, half c j = (written (m :: movs) j).getD 0) (x : BitVec 64) :
    applyAll (m :: movs) x = c := by
  apply eq_of_half
  intro j
  rw [hc j, applyAll, List.foldl_cons]
  change half (applyAll movs (m.apply x)) j = _
  rw [half_applyAll hmovs, half_apply, hm, written, written, List.reverse_cons, List.find?_append]
  cases movs.reverse.find? fun m => m.hw = j with
  | some m' => rfl
  | none =>
    by_cases hj : j = m.hw
    · simp [hj]
    · simp [hj, Ne.symm hj]

end Mov

/-- The code starts with these moves to `x0` and a return. -/
inductive MovesThenRet : List (BitVec 32) → List Mov → Prop
  | ret (ws : List (BitVec 32)) : MovesThenRet (0xD65F03C0#32 :: ws) []
  | mov {w : BitVec 32} {ws : List (BitVec 32)} {m : Mov} {movs : List Mov}
      (hw : decode w = some m.instr) (hws : MovesThenRet ws movs) :
      MovesThenRet (w :: ws) (m :: movs)

theorem MovesThenRet.append {ws : List (BitVec 32)} {movs : List Mov}
    (h : ws.map decode = movs.map fun m => some m.instr) (rest : List (BitVec 32)) :
    MovesThenRet (ws ++ 0xD65F03C0#32 :: rest) movs := by
  induction ws generalizing movs with
  | nil =>
    obtain rfl : movs = [] := by simpa using h.symm
    exact .ret rest
  | cons w ws ih =>
    cases movs with
    | nil => cases h
    | cons m movs =>
      obtain ⟨hw, hws⟩ := List.cons.inj h
      exact .mov hw (ih hws)

/-- **Such code returns what its moves make of `x0`.** -/
theorem MovesThenRet.run_eq {ws : List (BitVec 32)} {movs : List Mov} (h : MovesThenRet ws movs)
    (s : State) : ∃ s', run ws s = some s' ∧ s'.pc = s.reg 30 ∧
      s'.reg 0 = Mov.applyAll movs (s.reg 0) := by
  induction h generalizing s with
  | ret ws => exact ⟨_, run_ret decode_ret ws s, rfl, rfl⟩
  | @mov w ws m movs hw hws ih =>
    obtain ⟨s', hs', hlink, hzero⟩ := ih (step m.instr s)
    refine ⟨s', ?_, ?_, ?_⟩
    · rw [run_cons hw m.instr_ne_ret, hs']
    · rw [hlink, m.reg_step, if_neg (by decide)]
    · rw [hzero, m.reg_step, if_pos rfl]
      rfl

end A64
