import PhpFastProfile.Lib.A64

/-!
# A fragment of x86-64

The instructions of an accessor that returns an address or a constant: `ENDBR64`, `LEA`
of an address relative to the instruction pointer, `MOV` of a sign-extended immediate,
both into `rax`, and `RET`.  Code is a list of instructions of different lengths,
executed one after the other until a return.

## Main definitions

* `Instr`, `encode` — the instructions and their bytes.
* `State`, `step`, `run` — straight-line execution up to the first return.
* `Returns pc code v` — started at `pc`, the code returns to its caller with `rax = v`.

## Main results

* `returns_lea_iff`, `returns_mov_iff` — what the two kinds of accessor return.
* `bytesLE_ofNat_leNat` — four bytes are those of the word they spell.
-/

namespace X64

/-- The instructions of the accessors. -/
inductive Instr where
  | endbr64
  /-- `LEA RAX, [RIP + disp32]`. -/
  | leaRaxRip (disp : BitVec 32)
  /-- `MOV RAX, imm32`, encoded `REX.W C7 /0`. -/
  | movRaxImm (imm : BitVec 32)
  | ret
  deriving DecidableEq, Repr

/-- The bytes of an instruction. -/
def Instr.encode : Instr → List UInt8
  | .endbr64 => [0xF3, 0x0F, 0x1E, 0xFA]
  | .leaRaxRip disp => [0x48, 0x8D, 0x05] ++ A64.bytesLE disp
  | .movRaxImm imm => [0x48, 0xC7, 0xC0] ++ A64.bytesLE imm
  | .ret => [0xC3]

/-- The bytes of a piece of code. -/
def encode (code : List Instr) : List UInt8 := code.flatMap Instr.encode

/-! ### The machine -/

/-- The registers that the instructions use. -/
structure State where
  rax : BitVec 64
  rip : BitVec 64

/-- The address of the instruction after `i`. -/
def State.next (s : State) (i : Instr) : BitVec 64 := s.rip + BitVec.ofNat 64 i.encode.length

/-- One instruction other than a return. -/
def step (s : State) (i : Instr) : State :=
  match i with
  | .leaRaxRip disp => { rax := s.next i + disp.signExtend 64, rip := s.next i }
  | .movRaxImm imm => { rax := imm.signExtend 64, rip := s.next i }
  | .endbr64 | .ret => { s with rip := s.next i }

/-- The state at the first return. -/
def run (s : State) : List Instr → Option State
  | [] => none
  | .ret :: _ => some s
  | i :: code => run (step s i) code

/-- Started at `pc`, the code returns to its caller with `rax = v`. -/
def Returns (pc : BitVec 64) (code : List Instr) (v : BitVec 64) : Prop :=
  ∀ rax, (run ⟨rax, pc⟩ code).map State.rax = some v

/-- A landing pad, where indirect branches are tracked. -/
def IsPad (pad : List Instr) : Prop := pad = [] ∨ pad = [.endbr64]

theorem returns_lea_iff {pad : List Instr} (hpad : IsPad pad) (pc : BitVec 64) (disp : BitVec 32)
    (v : BitVec 64) : Returns pc (pad ++ [.leaRaxRip disp, .ret]) v ↔
      v = pc + BitVec.ofNat 64 (encode (pad ++ [.leaRaxRip disp])).length + disp.signExtend 64 := by
  rcases hpad with rfl | rfl
  · simp [Returns, run, step, State.next, encode, Instr.encode, A64.bytesLE, eq_comm]
  · simp [Returns, run, step, State.next, encode, Instr.encode, A64.bytesLE, eq_comm,
      BitVec.add_assoc]

theorem returns_mov_iff {pad : List Instr} (hpad : IsPad pad) (pc : BitVec 64) (imm : BitVec 32)
    (v : BitVec 64) : Returns pc (pad ++ [.movRaxImm imm, .ret]) v ↔ v = imm.signExtend 64 := by
  rcases hpad with rfl | rfl
  · simp [Returns, run, step, eq_comm]
  · simp [Returns, run, step, eq_comm]

/-! ### Words -/

theorem length_bytesLE (w : BitVec 32) : (A64.bytesLE w).length = 4 := rfl

/-- Four bytes are those of the word they spell. -/
theorem bytesLE_ofNat_leNat (b₀ b₁ b₂ b₃ : UInt8) :
    A64.bytesLE (BitVec.ofNat 32 (Bytes.leNat [b₀, b₁, b₂, b₃])) = [b₀, b₁, b₂, b₃] := by
  have h₀ := b₀.toBitVec.isLt
  have h₁ := b₁.toBitVec.isLt
  have h₂ := b₂.toBitVec.isLt
  have h₃ := b₃.toBitVec.isLt
  have hbyte : ∀ {w : BitVec 8} {b : UInt8}, w.toNat = b.toBitVec.toNat → (⟨w⟩ : UInt8) = b :=
    fun h => UInt8.toBitVec_inj.mp (BitVec.eq_of_toNat_eq h)
  simp only [A64.bytesLE, Bytes.leNat, UInt8.toNat, List.cons.injEq, and_true]
  refine ⟨hbyte ?_, hbyte ?_, hbyte ?_, hbyte ?_⟩ <;>
    (simp only [BitVec.extractLsb'_toNat, BitVec.toNat_ofNat, Nat.shiftRight_eq_div_pow]; omega)

end X64
