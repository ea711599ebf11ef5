import PhpFastProfile.Lib.Bytes

/-!
# A fragment of A64

The instructions that load a constant into a register and return: the hints that
serve as landing pads, `ADRP`, `ADD (immediate)`, `MOVZ`, `MOVK` and `RET`, in
their 64-bit forms.  Register number 31 is the zero register for all of them but
`ADD`, where it is the stack pointer.  Code is a list of words, executed one
after the other until a return.

## Main definitions

* `State`, `Instr`, `decode`, `step` — the machine.
* `run` — straight-line execution up to the first return.
* `Returns code pc v` — started at `pc`, the code returns to its caller with `x0 = v`.
* `afterPad` — code without its landing pad.
* `wordsLE`, `bytesLE` — the words of a buffer, the bytes of a word.

## Main results

* `decode_cases` — what a word can be decoded to.
* `run_cons` — one instruction, then the rest.
* `returns_afterPad` — a landing pad does nothing.
* `field_eq`, `signExtend_eq_or` — fields and immediates by shifts and masks.
-/

namespace A64

/-! ### The machine -/

/-- The registers that the instructions below use. -/
structure State where
  x : Fin 31 → BitVec 64
  sp : BitVec 64
  pc : BitVec 64

/-- Register `r`, where 31 reads as zero. -/
def State.reg (s : State) (r : BitVec 5) : BitVec 64 :=
  if h : r.toNat < 31 then s.x ⟨r.toNat, h⟩ else 0

/-- Register `r`, where 31 is the stack pointer. -/
def State.regSp (s : State) (r : BitVec 5) : BitVec 64 :=
  if h : r.toNat < 31 then s.x ⟨r.toNat, h⟩ else s.sp

/-- Writing register `r`, where a write to 31 is dropped. -/
def State.setReg (s : State) (r : BitVec 5) (v : BitVec 64) : State :=
  if r.toNat < 31 then { s with x := fun i => if i = r.toNat then v else s.x i } else s

/-- Writing register `r`, where 31 is the stack pointer. -/
def State.setRegSp (s : State) (r : BitVec 5) (v : BitVec 64) : State :=
  if r.toNat < 31 then s.setReg r v else { s with sp := v }

/-- On to the next instruction. -/
def State.next (s : State) : State := { s with pc := s.pc + 4 }

/-- The instructions of the accessors. -/
inductive Instr where
  | hint
  | adrp (rd : BitVec 5) (imm : BitVec 21)
  /-- `ADD Xd|SP, Xn|SP, #imm, LSL #0` or, when `shifted`, `LSL #12`. -/
  | addImm (rd rn : BitVec 5) (imm : BitVec 12) (shifted : Bool)
  | movz (rd : BitVec 5) (imm : BitVec 16) (hw : BitVec 2)
  | movk (rd : BitVec 5) (imm : BitVec 16) (hw : BitVec 2)
  | ret (rn : BitVec 5)
  deriving DecidableEq, Repr

/-- The instruction that a word encodes, if it is one of these. -/
def decode (w : BitVec 32) : Option Instr :=
  let rd := w.extractLsb' 0 5
  let rn := w.extractLsb' 5 5
  if w &&& 0xFFFFFF1F#32 = 0xD503241F#32 then some .hint
  else if w &&& 0x9F000000#32 = 0x90000000#32 then
    some (.adrp rd (w.extractLsb' 5 19 ++ w.extractLsb' 29 2))
  else if w &&& 0xFF800000#32 = 0x91000000#32 then
    some (.addImm rd rn (w.extractLsb' 10 12) (w.getLsbD 22))
  else if w &&& 0xFF800000#32 = 0xD2800000#32 then
    some (.movz rd (w.extractLsb' 5 16) (w.extractLsb' 21 2))
  else if w &&& 0xFF800000#32 = 0xF2800000#32 then
    some (.movk rd (w.extractLsb' 5 16) (w.extractLsb' 21 2))
  else if w &&& 0xFFFFFC1F#32 = 0xD65F0000#32 then some (.ret rn)
  else none

/-- The place of half-word `hw`. -/
def shiftOf (hw : BitVec 2) : ℕ := 16 * hw.toNat

/-- What an instruction does to the registers. -/
def step : Instr → State → State
  | .hint, s => s.next
  | .adrp rd imm, s => (s.setReg rd ((s.pc &&& ~~~0xFFF#64) + imm.signExtend 64 <<< 12)).next
  | .addImm rd rn imm shifted, s =>
    (s.setRegSp rd (s.regSp rn + imm.setWidth 64 <<< if shifted then 12 else 0)).next
  | .movz rd imm hw, s => (s.setReg rd (imm.setWidth 64 <<< shiftOf hw)).next
  | .movk rd imm hw, s =>
    (s.setReg rd ((s.reg rd &&& ~~~(0xFFFF#64 <<< shiftOf hw)) |||
      imm.setWidth 64 <<< shiftOf hw)).next
  | .ret rn, s => { s with pc := s.reg rn }

/-- Execution of the words, the first of which is at the program counter, up to
the first return. -/
def run : List (BitVec 32) → State → Option State
  | [], _ => none
  | w :: ws, s =>
    match decode w with
    | none => none
    | some (.ret rn) => some (step (.ret rn) s)
    | some i => run ws (step i s)

/-- Started at `pc` in any state, the code returns to the address in `x30`, with
`v` in `x0`. -/
def Returns (code : List (BitVec 32)) (pc v : BitVec 64) : Prop :=
  ∀ s : State, s.pc = pc → ∃ s', run code s = some s' ∧ s'.pc = s.reg 30 ∧ s'.reg 0 = v

/-- Code returns one value. -/
theorem Returns.unique {code : List (BitVec 32)} {pc v v' : BitVec 64} (h : Returns code pc v)
    (h' : Returns code pc v') : v = v' := by
  obtain ⟨s, hs, -, hv⟩ := h ⟨fun _ => 0, 0, pc⟩ rfl
  obtain ⟨s', hs', -, hv'⟩ := h' ⟨fun _ => 0, 0, pc⟩ rfl
  obtain rfl : s = s' := Option.some.inj (hs.symm.trans hs')
  exact hv.symm.trans hv'

/-- The instructions behind a landing pad, if the code starts with one. -/
def afterPad : List (BitVec 32) → List (BitVec 32)
  | [] => []
  | w :: ws => if decode w = some .hint then ws else w :: ws

/-- The address of the first of them, for code at `pc`. -/
def pcAfterPad (pc : BitVec 64) : List (BitVec 32) → BitVec 64
  | [] => pc
  | w :: _ => if decode w = some .hint then pc + 4 else pc

/-- The words of a buffer. -/
def wordsLE : List UInt8 → List (BitVec 32)
  | b₀ :: b₁ :: b₂ :: b₃ :: rest => BitVec.ofNat 32 (Bytes.leNat [b₀, b₁, b₂, b₃]) :: wordsLE rest
  | _ => []

/-- The bytes of a word. -/
def bytesLE (w : BitVec 32) : List UInt8 :=
  [⟨w.extractLsb' 0 8⟩, ⟨w.extractLsb' 8 8⟩, ⟨w.extractLsb' 16 8⟩, ⟨w.extractLsb' 24 8⟩]

/-! ### Words and bytes -/

theorem wordsLE_of_le {buf : List UInt8} (h : 4 ≤ buf.length) :
    wordsLE buf = BitVec.ofNat 32 (Bytes.leNat (buf.take 4)) :: wordsLE (buf.drop 4) := by
  match buf with
  | _ :: _ :: _ :: _ :: _ => rfl
  | [] | [_] | [_, _] | [_, _, _] => simp at h

/-- The word with the bytes of a word is this word. -/
theorem leNat_bytesLE (w : BitVec 32) : BitVec.ofNat 32 (Bytes.leNat (bytesLE w)) = w := by
  apply BitVec.eq_of_toNat_eq
  have hw := w.isLt
  simp only [bytesLE, Bytes.leNat, UInt8.toNat, BitVec.extractLsb'_toNat, BitVec.toNat_ofNat,
    Nat.shiftRight_eq_div_pow]
  omega

/-- **The words of the bytes of some words are these words.** -/
theorem wordsLE_flatMap (ws : List (BitVec 32)) (rest : List UInt8) :
    wordsLE (ws.flatMap bytesLE ++ rest) = ws ++ wordsLE rest := by
  induction ws with
  | nil => rfl
  | cons w ws ih =>
    have hlen : 4 ≤ ((w :: ws).flatMap bytesLE ++ rest).length := by
      simp [bytesLE]
    rw [wordsLE_of_le hlen]
    change BitVec.ofNat 32 (Bytes.leNat (bytesLE w)) :: wordsLE (ws.flatMap bytesLE ++ rest) = _
    rw [leNat_bytesLE, ih, List.cons_append]

/-! ### Registers -/

section Registers

variable (s : State) (r q : BitVec 5) (v : BitVec 64)

@[simp] theorem pc_setReg : (s.setReg r v).pc = s.pc := by
  unfold State.setReg
  split <;> rfl

@[simp] theorem pc_next : s.next.pc = s.pc + 4 := rfl

@[simp] theorem reg_next : s.next.reg q = s.reg q := rfl

@[simp] theorem regSp_next : s.next.regSp q = s.regSp q := rfl

theorem toNat_lt_iff : r.toNat < 31 ↔ r ≠ 31#5 := by
  have hr := r.isLt
  rw [ne_eq, ← BitVec.toNat_inj]
  simp only [BitVec.toNat_ofNat]
  omega

theorem reg_setReg : (s.setReg r v).reg q = if q = r ∧ r ≠ 31#5 then v else s.reg q := by
  by_cases hr : r = 31#5
  · subst hr
    simp [State.setReg]
  · have hlt := (toNat_lt_iff r).mpr hr
    rw [State.setReg, if_pos hlt]
    by_cases hq : q = r
    · subst hq
      simp [State.reg, hlt, hr]
    · have hne : q.toNat ≠ r.toNat := fun h => hq (BitVec.toNat_inj.mp h)
      simp [State.reg, hq, hne]

theorem regSp_setReg : (s.setReg r v).regSp q = if q = r ∧ r ≠ 31#5 then v else s.regSp q := by
  by_cases hr : r = 31#5
  · subst hr
    simp [State.setReg]
  · have hlt := (toNat_lt_iff r).mpr hr
    rw [State.setReg, if_pos hlt]
    by_cases hq : q = r
    · subst hq
      simp [State.regSp, hlt, hr]
    · have hne : q.toNat ≠ r.toNat := fun h => hq (BitVec.toNat_inj.mp h)
      simp [State.regSp, hq, hne]

theorem reg_setRegSp : (s.setRegSp r v).reg q = if q = r ∧ r ≠ 31#5 then v else s.reg q := by
  unfold State.setRegSp
  split
  · exact reg_setReg s r q v
  · next hr =>
    have hr : r = 31#5 := by
      by_contra hne
      exact hr ((toNat_lt_iff r).mpr hne)
    subst hr
    simp [State.reg]

end Registers

/-! ### Runs -/

/-- **One instruction, then the rest.** -/
theorem run_cons {w : BitVec 32} {i : Instr} (h : decode w = some i) (hi : ∀ rn, i ≠ .ret rn)
    (ws : List (BitVec 32)) (s : State) : run (w :: ws) s = run ws (step i s) := by
  rw [run, h]
  cases i with
  | ret rn => exact absurd rfl (hi rn)
  | hint => rfl
  | adrp rd imm => rfl
  | addImm rd rn imm shifted => rfl
  | movz rd imm hw => rfl
  | movk rd imm hw => rfl

theorem run_ret {w : BitVec 32} {rn : BitVec 5} (h : decode w = some (.ret rn))
    (ws : List (BitVec 32)) (s : State) : run (w :: ws) s = some (step (.ret rn) s) := by
  rw [run, h]

/-- **A landing pad does nothing.** -/
theorem returns_afterPad (ws : List (BitVec 32)) (pc v : BitVec 64) :
    Returns ws pc v ↔ Returns (afterPad ws) (pcAfterPad pc ws) v := by
  cases ws with
  | nil => rfl
  | cons w ws =>
    by_cases hpad : decode w = some .hint
    · rw [afterPad, if_pos hpad, pcAfterPad, if_pos hpad]
      constructor
      · intro h s hpc
        have hback : State.next { s with pc := pc } = s := by
          rw [State.next, ← hpc]
        obtain ⟨s', hs', hret⟩ := h { s with pc := pc } rfl
        rw [run_cons hpad (by simp), step, hback] at hs'
        exact ⟨s', hs', hret⟩
      · intro h s hpc
        rw [run_cons hpad (by simp)]
        exact h s.next (by rw [pc_next, hpc])
    · rw [afterPad, if_neg hpad, pcAfterPad, if_neg hpad]

/-! ### Decoding -/

/-- Two patterns that disagree on a bit both of them fix exclude each other. -/
theorem and_ne_of_and_eq {w m m' v v' : BitVec 32} (h : w &&& m = v)
    (hne : v &&& m' ≠ v' &&& m) : w &&& m' ≠ v' := by
  intro h'
  apply hne
  rw [← h, ← h', BitVec.and_assoc, BitVec.and_assoc, BitVec.and_comm m]

section Decode

variable {w : BitVec 32}

theorem decode_hint (h : w &&& 0xFFFFFF1F#32 = 0xD503241F#32) : decode w = some .hint := by
  rw [decode, if_pos h]

theorem decode_adrp (h : w &&& 0x9F000000#32 = 0x90000000#32) :
    decode w = some (.adrp (w.extractLsb' 0 5) (w.extractLsb' 5 19 ++ w.extractLsb' 29 2)) := by
  rw [decode, if_neg (and_ne_of_and_eq h (by decide)), if_pos h]

theorem decode_addImm (h : w &&& 0xFF800000#32 = 0x91000000#32) :
    decode w = some (.addImm (w.extractLsb' 0 5) (w.extractLsb' 5 5) (w.extractLsb' 10 12)
      (w.getLsbD 22)) := by
  rw [decode, if_neg (and_ne_of_and_eq h (by decide)), if_neg (and_ne_of_and_eq h (by decide)),
    if_pos h]

theorem decode_movz (h : w &&& 0xFF800000#32 = 0xD2800000#32) :
    decode w = some (.movz (w.extractLsb' 0 5) (w.extractLsb' 5 16) (w.extractLsb' 21 2)) := by
  rw [decode, if_neg (and_ne_of_and_eq h (by decide)), if_neg (and_ne_of_and_eq h (by decide)),
    if_neg (and_ne_of_and_eq h (by decide)), if_pos h]

theorem decode_movk (h : w &&& 0xFF800000#32 = 0xF2800000#32) :
    decode w = some (.movk (w.extractLsb' 0 5) (w.extractLsb' 5 16) (w.extractLsb' 21 2)) := by
  rw [decode, if_neg (and_ne_of_and_eq h (by decide)), if_neg (and_ne_of_and_eq h (by decide)),
    if_neg (and_ne_of_and_eq h (by decide)), if_neg (and_ne_of_and_eq h (by decide)), if_pos h]

theorem decode_ret : decode 0xD65F03C0#32 = some (.ret 30) := by decide

/-- What a word can be decoded to. -/
theorem decode_cases {i : Instr} (h : decode w = some i) :
    (w &&& 0xFFFFFF1F#32 = 0xD503241F#32 ∧ i = .hint) ∨
    (w &&& 0x9F000000#32 = 0x90000000#32 ∧
      i = .adrp (w.extractLsb' 0 5) (w.extractLsb' 5 19 ++ w.extractLsb' 29 2)) ∨
    (w &&& 0xFF800000#32 = 0x91000000#32 ∧
      i = .addImm (w.extractLsb' 0 5) (w.extractLsb' 5 5) (w.extractLsb' 10 12)
        (w.getLsbD 22)) ∨
    (w &&& 0xFF800000#32 = 0xD2800000#32 ∧
      i = .movz (w.extractLsb' 0 5) (w.extractLsb' 5 16) (w.extractLsb' 21 2)) ∨
    (w &&& 0xFF800000#32 = 0xF2800000#32 ∧
      i = .movk (w.extractLsb' 0 5) (w.extractLsb' 5 16) (w.extractLsb' 21 2)) ∨
    (w &&& 0xFFFFFC1F#32 = 0xD65F0000#32 ∧ i = .ret (w.extractLsb' 5 5)) := by
  unfold decode at h
  dsimp only at h
  split_ifs at h with h₁ h₂ h₃ h₄ h₅ h₆
  · exact .inl ⟨h₁, (Option.some.inj h).symm⟩
  · exact .inr (.inl ⟨h₂, (Option.some.inj h).symm⟩)
  · exact .inr (.inr (.inl ⟨h₃, (Option.some.inj h).symm⟩))
  · exact .inr (.inr (.inr (.inl ⟨h₄, (Option.some.inj h).symm⟩)))
  · exact .inr (.inr (.inr (.inr (.inl ⟨h₅, (Option.some.inj h).symm⟩))))
  · exact .inr (.inr (.inr (.inr (.inr ⟨h₆, (Option.some.inj h).symm⟩))))

theorem decode_eq_hint_iff : decode w = some .hint ↔ w &&& 0xFFFFFF1F#32 = 0xD503241F#32 := by
  constructor
  · intro h
    rcases decode_cases h with ⟨h, -⟩ | ⟨-, h⟩ | ⟨-, h⟩ | ⟨-, h⟩ | ⟨-, h⟩ | ⟨-, h⟩
    · exact h
    all_goals cases h
  · exact decode_hint

theorem decode_eq_adrp {rd : BitVec 5} {imm : BitVec 21} (h : decode w = some (.adrp rd imm)) :
    w &&& 0x9F000000#32 = 0x90000000#32 ∧ rd = w.extractLsb' 0 5 ∧
      imm = w.extractLsb' 5 19 ++ w.extractLsb' 29 2 := by
  rcases decode_cases h with ⟨-, h⟩ | ⟨hw, h⟩ | ⟨-, h⟩ | ⟨-, h⟩ | ⟨-, h⟩ | ⟨-, h⟩
  · cases h
  · obtain ⟨hrd, himm⟩ := Instr.adrp.inj h
    exact ⟨hw, hrd, himm⟩
  all_goals cases h

theorem decode_eq_addImm {rd rn : BitVec 5} {imm : BitVec 12} {shifted : Bool}
    (h : decode w = some (.addImm rd rn imm shifted)) :
    w &&& 0xFF800000#32 = 0x91000000#32 ∧ rd = w.extractLsb' 0 5 ∧ rn = w.extractLsb' 5 5 ∧
      imm = w.extractLsb' 10 12 ∧ shifted = w.getLsbD 22 := by
  rcases decode_cases h with ⟨-, h⟩ | ⟨-, h⟩ | ⟨hw, h⟩ | ⟨-, h⟩ | ⟨-, h⟩ | ⟨-, h⟩
  · cases h
  · cases h
  · obtain ⟨hrd, hrn, himm, hshifted⟩ := Instr.addImm.inj h
    exact ⟨hw, hrd, hrn, himm, hshifted⟩
  all_goals cases h

theorem decode_eq_movz {rd : BitVec 5} {imm : BitVec 16} {hw : BitVec 2}
    (h : decode w = some (.movz rd imm hw)) :
    w &&& 0xFF800000#32 = 0xD2800000#32 ∧ rd = w.extractLsb' 0 5 ∧ imm = w.extractLsb' 5 16 ∧
      hw = w.extractLsb' 21 2 := by
  rcases decode_cases h with ⟨-, h⟩ | ⟨-, h⟩ | ⟨-, h⟩ | ⟨hm, h⟩ | ⟨-, h⟩ | ⟨-, h⟩
  · cases h
  · cases h
  · cases h
  · obtain ⟨hrd, himm, hhw⟩ := Instr.movz.inj h
    exact ⟨hm, hrd, himm, hhw⟩
  all_goals cases h

theorem decode_eq_movk {rd : BitVec 5} {imm : BitVec 16} {hw : BitVec 2}
    (h : decode w = some (.movk rd imm hw)) :
    w &&& 0xFF800000#32 = 0xF2800000#32 ∧ rd = w.extractLsb' 0 5 ∧ imm = w.extractLsb' 5 16 ∧
      hw = w.extractLsb' 21 2 := by
  rcases decode_cases h with ⟨-, h⟩ | ⟨-, h⟩ | ⟨-, h⟩ | ⟨-, h⟩ | ⟨hm, h⟩ | ⟨-, h⟩
  · cases h
  · cases h
  · cases h
  · cases h
  · obtain ⟨hrd, himm, hhw⟩ := Instr.movk.inj h
    exact ⟨hm, hrd, himm, hhw⟩
  · cases h

end Decode

/-! ### Fields -/

/-- A field of a word, by shift and mask. -/
theorem field_eq (w : BitVec 32) (k n : ℕ) :
    ((w >>> k) &&& (BitVec.allOnes n).setWidth 32).setWidth 64 =
      (w.extractLsb' k n).setWidth 64 := by
  apply BitVec.eq_of_getLsbD_eq
  intro i hi
  by_cases h : k + i < 32
  · have h₁ : i < 32 := by omega
    have h₂ : k + i < 64 := by omega
    simp [hi, h₁, h₂, Bool.and_comm]
  · have hw : w.getLsbD (k + i) = false := BitVec.getLsbD_of_ge w (k + i) (by omega)
    simp [hi, hw]

/-- Sign extension by a test of the sign bit and a mask. -/
theorem signExtend_eq_or {n : ℕ} (x : BitVec n) :
    x.signExtend 64 =
      if x.msb then x.setWidth 64 ||| ~~~((BitVec.allOnes n).setWidth 64) else x.setWidth 64 := by
  apply BitVec.eq_of_getLsbD_eq
  intro i hi
  rw [BitVec.getLsbD_signExtend]
  by_cases h : i < n
  · cases x.msb <;> simp [hi, h]
  · have hx : x.getLsbD i = false := BitVec.getLsbD_of_ge x i (by omega)
    cases x.msb <;> simp [hi, h, hx]

end A64
