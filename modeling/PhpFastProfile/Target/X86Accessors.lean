import PhpFastProfile.Lib.X64
import PhpFastProfile.Target.PhpVersion

/-!
# The accessors on x86_64

On x86_64 both decoders match the bytes of one instruction and a return, after an
optional landing pad.  They accept a buffer exactly if it begins with such code, and
what they return is what the code does.  No index is out of bounds, whatever the
length of the buffer.

## Main definitions

* `BeginsWith` — the buffer begins with some code.
* `decodePhpVersionPrologueX86Indexed`, `decodeTcbOffsetX86Indexed` — the decoders with
  index operations that may panic.

## Main results

* `decodePhpVersionPrologueX86_eq_ok_iff`, `decodeTcbOffsetX86_eq_ok_iff` — what is accepted.
* `decodePhpVersionPrologueX86_sound`, `decodeTcbOffsetX86_sound` — it is what the code returns.
* `decodePhpVersionPrologueX86Indexed_eq`, `decodeTcbOffsetX86Indexed_eq` — no index panics.
* `x86_accessors_exact` — **both decoders are exact, and neither panics.**
-/

namespace PhpFastProfile

open X64

/-- The buffer begins with the bytes of the code. -/
def BeginsWith (buf : List UInt8) (code : List Instr) : Prop := encode code <+: buf

/-- The number of bytes of the landing pad. -/
def padLength (buf : List UInt8) : ℕ := if buf.take 4 = ENDBR64 then 4 else 0

/-! ### The landing pad -/

/-- What the decoders skip is a landing pad. -/
theorem exists_pad (buf : List UInt8) : ∃ pad, IsPad pad ∧ (encode pad).length = padLength buf ∧
    buf = encode pad ++ buf.drop (padLength buf) := by
  unfold padLength
  split
  · next h =>
    refine ⟨[.endbr64], Or.inr rfl, rfl, ?_⟩
    have hpad : encode [.endbr64] = buf.take 4 := h.symm
    rw [hpad, List.take_append_drop]
  · exact ⟨[], Or.inl rfl, rfl, rfl⟩

/-- A landing pad before other code is what they skip. -/
theorem padLength_append {pad : List Instr} (hpad : IsPad pad) {s : List UInt8}
    (hs : s.head? = some 0x48) : padLength (encode pad ++ s) = (encode pad).length := by
  rcases hpad with rfl | rfl
  · refine if_neg fun h => ?_
    have hhead : (s.take 4).head? = some 0xF3 := by
      rw [show s.take 4 = ENDBR64 from h]
      rfl
    rw [List.head?_take, if_neg (by decide), hs] at hhead
    cases hhead
  · rfl

theorem drop_padLength_append {pad : List Instr} (hpad : IsPad pad) {s : List UInt8}
    (hs : s.head? = some 0x48) : (encode pad ++ s).drop (padLength (encode pad ++ s)) = s := by
  rw [padLength_append hpad hs, List.drop_left]

/-- Eight bytes are there. -/
theorem exists_eight {s : List UInt8} (h : 8 ≤ s.length) : ∃ b₀ b₁ b₂ b₃ b₄ b₅ b₆ b₇ rest,
    s = b₀ :: b₁ :: b₂ :: b₃ :: b₄ :: b₅ :: b₆ :: b₇ :: rest := by
  match s, h with
  | b₀ :: b₁ :: b₂ :: b₃ :: b₄ :: b₅ :: b₆ :: b₇ :: rest, _ =>
    exact ⟨b₀, b₁, b₂, b₃, b₄, b₅, b₆, b₇, rest, rfl⟩

theorem leU32_bytesLE (w : BitVec 32) : leU32 (A64.bytesLE w) = ⟨w⟩ :=
  UInt32.toBitVec_inj.mp (A64.leNat_bytesLE w)

theorem bytesLE_leU32 (b₀ b₁ b₂ b₃ : UInt8) :
    A64.bytesLE (leU32 [b₀, b₁, b₂, b₃]).toBitVec = [b₀, b₁, b₂, b₃] :=
  bytesLE_ofNat_leNat b₀ b₁ b₂ b₃

/-! ### `php_version` -/

/-- The address of the instruction after the `lea`. -/
def afterLea (fnAddr : UInt64) (pad : List Instr) (disp : BitVec 32) : UInt64 :=
  fnAddr + UInt64.ofNat (encode (pad ++ [.leaRaxRip disp])).length

/-- The decoder, in terms of the landing pad. -/
theorem decodePhpVersionPrologueX86_eq (fnAddr : UInt64) (buf : List UInt8) :
    decodePhpVersionPrologueX86 fnAddr buf =
      let lea := buf.drop (padLength buf)
      if lea.length < 8 ∨ lea.take 3 ≠ [0x48, 0x8D, 0x05] ∨ lea[7]? ≠ some 0xC3 then
        .error (.notRecognized buf)
      else .ok (fnAddr + UInt64.ofNat (padLength buf + 7) +
        (leU32 ((lea.drop 3).take 4)).toInt32.toInt64.toUInt64) := by
  have haddr : ∀ (off : ℕ) (disp : Int64), (fnAddr.toInt64 + Int64.ofNat off + 7 + disp).toUInt64 =
      fnAddr + UInt64.ofNat (off + 7) + disp.toUInt64 := by
    intro off disp
    rw [Int64.add_assoc fnAddr.toInt64, UInt64.ofNat_add]
    rfl
  unfold decodePhpVersionPrologueX86 padLength
  simp only [haddr]

/-- Code with a `lea` is decoded. -/
theorem decodePhpVersionPrologueX86_encode (fnAddr : UInt64) {pad : List Instr} (hpad : IsPad pad)
    (disp : BitVec 32) (rest : List UInt8) :
    decodePhpVersionPrologueX86 fnAddr (encode (pad ++ [.leaRaxRip disp, .ret]) ++ rest) =
      .ok (afterLea fnAddr pad disp + ⟨disp.signExtend 64⟩) := by
  have hbuf : encode (pad ++ [.leaRaxRip disp, .ret]) ++ rest =
      encode pad ++ (0x48 :: 0x8D :: 0x05 :: (A64.bytesLE disp ++ 0xC3 :: rest)) := by
    simp [encode, Instr.encode]
  have hlength : (encode (pad ++ [.leaRaxRip disp])).length = (encode pad).length + 7 := by
    simp [encode, Instr.encode, length_bytesLE]
  rw [hbuf, decodePhpVersionPrologueX86_eq, drop_padLength_append hpad rfl,
    padLength_append hpad rfl, afterLea, hlength]
  have htake : (A64.bytesLE disp ++ 0xC3 :: rest).take 4 = A64.bytesLE disp := rfl
  simp only [List.drop_succ_cons, List.drop_zero, htake, leU32_bytesLE]
  rw [if_neg]
  · rfl
  · rintro (hlt | hne | hne)
    · simp only [List.length_cons, List.length_append, length_bytesLE] at hlt
      omega
    · exact hne rfl
    · exact hne rfl

/-- What is decoded is such code. -/
theorem encode_of_decodePhpVersionPrologueX86 {fnAddr : UInt64} {buf : List UInt8} {a : UInt64}
    (h : decodePhpVersionPrologueX86 fnAddr buf = .ok a) :
    ∃ pad disp, IsPad pad ∧ BeginsWith buf (pad ++ [.leaRaxRip disp, .ret]) := by
  obtain ⟨pad, hpad, -, hbuf⟩ := exists_pad buf
  rw [decodePhpVersionPrologueX86_eq] at h
  dsimp only at h
  split at h
  · cases h
  · next hshape =>
    rw [not_or, not_or, not_lt, not_not, not_not] at hshape
    obtain ⟨hlen, hop, hret⟩ := hshape
    obtain ⟨b₀, b₁, b₂, b₃, b₄, b₅, b₆, b₇, rest, hlea⟩ := exists_eight hlen
    rw [hlea] at hop hret hbuf
    obtain ⟨rfl, rfl, rfl⟩ : b₀ = 0x48 ∧ b₁ = 0x8D ∧ b₂ = 0x05 := by simpa using hop
    obtain rfl : b₇ = 0xC3 := by simpa using hret
    refine ⟨pad, (leU32 [b₃, b₄, b₅, b₆]).toBitVec, hpad, rest, ?_⟩
    conv_rhs => rw [hbuf]
    simp [encode, Instr.encode, bytesLE_leU32]

/-- **Exactly the buffers that begin with a `lea` and a return are accepted.** -/
theorem decodePhpVersionPrologueX86_eq_ok_iff {fnAddr : UInt64} {buf : List UInt8} {a : UInt64} :
    decodePhpVersionPrologueX86 fnAddr buf = .ok a ↔ ∃ pad disp, IsPad pad ∧
      BeginsWith buf (pad ++ [.leaRaxRip disp, .ret]) ∧
      a = afterLea fnAddr pad disp + ⟨disp.signExtend 64⟩ := by
  constructor
  · intro h
    obtain ⟨pad, disp, hpad, rest, rfl⟩ := encode_of_decodePhpVersionPrologueX86 h
    rw [decodePhpVersionPrologueX86_encode fnAddr hpad] at h
    exact ⟨pad, disp, hpad, ⟨rest, rfl⟩, (Except.ok.inj h).symm⟩
  · rintro ⟨pad, disp, hpad, ⟨rest, rfl⟩, rfl⟩
    exact decodePhpVersionPrologueX86_encode fnAddr hpad disp rest

/-- **What is decoded is what the code returns.** -/
theorem decodePhpVersionPrologueX86_sound {fnAddr : UInt64} {buf : List UInt8} {a : UInt64}
    (h : decodePhpVersionPrologueX86 fnAddr buf = .ok a) :
    ∃ code, BeginsWith buf code ∧ Returns fnAddr.toBitVec code a.toBitVec := by
  obtain ⟨pad, disp, hpad, hbegins, rfl⟩ := decodePhpVersionPrologueX86_eq_ok_iff.mp h
  refine ⟨_, hbegins, (returns_lea_iff hpad _ _ _).mpr ?_⟩
  rfl

/-! ### `tsrm_get_ls_cache_tcb_offset` -/

/-- The decoder, in terms of the landing pad. -/
theorem decodeTcbOffsetX86_eq (buf : List UInt8) :
    decodeTcbOffsetX86 buf =
      let s := buf.drop (padLength buf)
      if buf.length < padLength buf + 8 then .error (.short buf)
      else if s[0]? = some 0x48 ∧ s[1]? = some 0xC7 ∧ s[2]? = some 0xC0 ∧ s[7]? = some 0xC3 then
        .ok (leU32 ((s.drop 3).take 4)).toInt32.toInt64
      else .error (.notMovRet buf) := rfl

/-- Code with a `mov` is decoded. -/
theorem decodeTcbOffsetX86_encode {pad : List Instr} (hpad : IsPad pad) (imm : BitVec 32)
    (rest : List UInt8) :
    decodeTcbOffsetX86 (encode (pad ++ [.movRaxImm imm, .ret]) ++ rest) =
      .ok (Int64.ofBitVec (imm.signExtend 64)) := by
  have hbuf : encode (pad ++ [.movRaxImm imm, .ret]) ++ rest =
      encode pad ++ (0x48 :: 0xC7 :: 0xC0 :: (A64.bytesLE imm ++ 0xC3 :: rest)) := by
    simp [encode, Instr.encode]
  rw [hbuf, decodeTcbOffsetX86_eq, drop_padLength_append hpad rfl, padLength_append hpad rfl]
  have htake : (A64.bytesLE imm ++ 0xC3 :: rest).take 4 = A64.bytesLE imm := rfl
  dsimp only
  rw [if_neg, if_pos ⟨rfl, rfl, rfl, rfl⟩]
  · simp only [List.drop_succ_cons, List.drop_zero, htake, leU32_bytesLE]
    rfl
  · simp only [List.length_cons, List.length_append, length_bytesLE]
    omega

/-- What is decoded is such code. -/
theorem encode_of_decodeTcbOffsetX86 {buf : List UInt8} {v : Int64}
    (h : decodeTcbOffsetX86 buf = .ok v) :
    ∃ pad imm, IsPad pad ∧ BeginsWith buf (pad ++ [.movRaxImm imm, .ret]) := by
  obtain ⟨pad, hpad, hlength, hbuf⟩ := exists_pad buf
  rw [decodeTcbOffsetX86_eq] at h
  dsimp only at h
  split at h
  · cases h
  · next hlen =>
    split at h
    · next hop =>
      have hlen : 8 ≤ (buf.drop (padLength buf)).length := by
        rw [List.length_drop]
        omega
      obtain ⟨b₀, b₁, b₂, b₃, b₄, b₅, b₆, b₇, rest, hmov⟩ := exists_eight hlen
      rw [hmov] at hop hbuf
      obtain ⟨rfl, rfl, rfl, rfl⟩ : b₀ = 0x48 ∧ b₁ = 0xC7 ∧ b₂ = 0xC0 ∧ b₇ = 0xC3 := by
        simpa using hop
      refine ⟨pad, (leU32 [b₃, b₄, b₅, b₆]).toBitVec, hpad, rest, ?_⟩
      conv_rhs => rw [hbuf]
      simp [encode, Instr.encode, bytesLE_leU32]
    · cases h

/-- **Exactly the buffers that begin with a `mov` and a return are accepted.** -/
theorem decodeTcbOffsetX86_eq_ok_iff {buf : List UInt8} {v : Int64} :
    decodeTcbOffsetX86 buf = .ok v ↔ ∃ pad imm, IsPad pad ∧
      BeginsWith buf (pad ++ [.movRaxImm imm, .ret]) ∧ v = Int64.ofBitVec (imm.signExtend 64) := by
  constructor
  · intro h
    obtain ⟨pad, imm, hpad, rest, rfl⟩ := encode_of_decodeTcbOffsetX86 h
    rw [decodeTcbOffsetX86_encode hpad] at h
    exact ⟨pad, imm, hpad, ⟨rest, rfl⟩, (Except.ok.inj h).symm⟩
  · rintro ⟨pad, imm, hpad, ⟨rest, rfl⟩, rfl⟩
    exact decodeTcbOffsetX86_encode hpad imm rest

/-- **What is decoded is what the code returns**, wherever it is. -/
theorem decodeTcbOffsetX86_sound {buf : List UInt8} {v : Int64}
    (h : decodeTcbOffsetX86 buf = .ok v) (pc : BitVec 64) :
    ∃ code, BeginsWith buf code ∧ Returns pc code v.toBitVec := by
  obtain ⟨pad, imm, hpad, hbegins, rfl⟩ := decodeTcbOffsetX86_eq_ok_iff.mp h
  exact ⟨_, hbegins, (returns_mov_iff hpad _ _ _).mpr rfl⟩

/-! ### No index is out of bounds -/

/-- `&buf[..k]`, which panics behind the end. -/
def sliceTo (buf : List UInt8) (k : ℕ) : Option (List UInt8) :=
  if k ≤ buf.length then some (buf.take k) else none

/-- `&buf[k..]`. -/
def sliceFrom (buf : List UInt8) (k : ℕ) : Option (List UInt8) :=
  if k ≤ buf.length then some (buf.drop k) else none

/-- `s[i] == b && …`, where nothing is read after the first byte that differs. -/
def matchesAt (s : List UInt8) : List (ℕ × UInt8) → Option Bool
  | [] => some true
  | (i, b) :: rest => do if (← s[i]?) = b then matchesAt s rest else return false

/-- The offset of the first instruction after the landing pad. -/
def padOffsetIndexed (buf : List UInt8) : Option ℕ :=
  if buf.length ≥ 4 then do return if (← sliceTo buf 4) = ENDBR64 then 4 else 0
  else some 0

/-- `i32::from_le_bytes([s[3], s[4], s[5], s[6]]) as i64`. -/
def imm32Indexed (s : List UInt8) : Option Int64 := do
  return (leU32 [← s[3]?, ← s[4]?, ← s[5]?, ← s[6]?]).toInt32.toInt64

/-- `decode_php_version_prologue` on x86_64, without a value where an index panics. -/
def decodePhpVersionPrologueX86Indexed (fnAddr : UInt64) (buf : List UInt8) :
    Option (Except PrologueError UInt64) := do
  let leaOff ← padOffsetIndexed buf
  let lea ← sliceFrom buf leaOff
  if lea.length < 8 then return .error (.notRecognized buf)
  else if (← sliceTo lea 3) ≠ [0x48, 0x8D, 0x05] then return .error (.notRecognized buf)
  else if (← lea[7]?) ≠ 0xC3 then return .error (.notRecognized buf)
  else
    let disp ← imm32Indexed lea
    let nextInsn := fnAddr.toInt64 + Int64.ofNat leaOff + 7
    return .ok (nextInsn + disp).toUInt64

/-- `decode_tcb_offset_bytes` on x86_64, without a value where an index panics. -/
def decodeTcbOffsetX86Indexed (buf : List UInt8) : Option (Except TlsError Int64) := do
  let off ← padOffsetIndexed buf
  if buf.length < off + 8 then return .error (.short buf)
  else
    let s ← sliceFrom buf off
    if ← matchesAt s [(0, 0x48), (1, 0xC7), (2, 0xC0), (7, 0xC3)] then
      return .ok (← imm32Indexed s)
    else return .error (.notMovRet buf)

theorem four_le_length {buf : List UInt8} (h : buf.take 4 = ENDBR64) : 4 ≤ buf.length := by
  have hlen : (buf.take 4).length = 4 := by
    rw [h]
    rfl
  rw [List.length_take] at hlen
  omega

theorem padLength_le_length (buf : List UInt8) : padLength buf ≤ buf.length := by
  unfold padLength
  split
  · next h => exact four_le_length h
  · exact Nat.zero_le _

theorem sliceFrom_padLength (buf : List UInt8) :
    sliceFrom buf (padLength buf) = some (buf.drop (padLength buf)) :=
  if_pos (padLength_le_length buf)

theorem padOffsetIndexed_eq (buf : List UInt8) : padOffsetIndexed buf = some (padLength buf) := by
  unfold padOffsetIndexed
  split
  · next h =>
    rw [sliceTo, if_pos h]
    rfl
  · next h => rw [padLength, if_neg fun heq => h (four_le_length heq)]

theorem imm32Indexed_eq {s : List UInt8} (h : 8 ≤ s.length) :
    imm32Indexed s = some (leU32 ((s.drop 3).take 4)).toInt32.toInt64 := by
  obtain ⟨b₀, b₁, b₂, b₃, b₄, b₅, b₆, b₇, rest, rfl⟩ := exists_eight h
  rfl

/-- Bytes that are there are compared without a panic. -/
theorem matchesAt_eq {s : List UInt8} {l : List (ℕ × UInt8)} (h : ∀ p ∈ l, p.1 < s.length) :
    matchesAt s l = some (decide (∀ p ∈ l, s[p.1]? = some p.2)) := by
  induction l with
  | nil => simp [matchesAt]
  | cons p rest ih =>
    obtain ⟨hp, hrest⟩ := List.forall_mem_cons.mp h
    rw [matchesAt, List.getElem?_eq_getElem hp]
    by_cases heq : s[p.1] = p.2
    · simp [heq, ih hrest, List.getElem?_eq_getElem hp]
    · simp [heq, List.getElem?_eq_getElem hp]

/-- `decode_php_version_prologue` indexes no buffer out of its bounds. -/
theorem decodePhpVersionPrologueX86Indexed_eq (fnAddr : UInt64) (buf : List UInt8) :
    decodePhpVersionPrologueX86Indexed fnAddr buf =
      some (decodePhpVersionPrologueX86 fnAddr buf) := by
  have hpad : (if buf.take 4 = ENDBR64 then 4 else 0) = padLength buf := rfl
  simp only [decodePhpVersionPrologueX86Indexed, padOffsetIndexed_eq, Option.bind_eq_bind,
    Option.bind_some, sliceFrom_padLength, decodePhpVersionPrologueX86, hpad]
  by_cases hlen : (buf.drop (padLength buf)).length < 8
  · rw [if_pos hlen, if_pos (Or.inl hlen)]
    rfl
  · rw [if_neg hlen]
    obtain ⟨b₀, b₁, b₂, b₃, b₄, b₅, b₆, b₇, rest, hlea⟩ := exists_eight (not_lt.mp hlen)
    have hto : sliceTo (buf.drop (padLength buf)) 3 = some [b₀, b₁, b₂] := by
      rw [hlea]
      exact if_pos (by simp)
    have hret : (buf.drop (padLength buf))[7]? = some b₇ := by
      rw [hlea]
      rfl
    have htake : (buf.drop (padLength buf)).take 3 = [b₀, b₁, b₂] := by
      rw [hlea]
      rfl
    simp only [hto, hret, htake, hlen, imm32Indexed_eq (not_lt.mp hlen), Option.bind_some, ne_eq,
      Option.some.injEq, false_or]
    by_cases hop : [b₀, b₁, b₂] = [0x48, 0x8D, 0x05]
    · by_cases hlast : b₇ = 0xC3
      · simp only [hop, hlast, not_true_eq_false, or_self, if_false]
        rfl
      · simp only [hop, hlast, not_true_eq_false, not_false_eq_true, false_or, if_true, if_false]
        rfl
    · simp only [hop, not_false_eq_true, true_or, if_true]
      rfl

/-- Nor does `decode_tcb_offset_bytes`. -/
theorem decodeTcbOffsetX86Indexed_eq (buf : List UInt8) :
    decodeTcbOffsetX86Indexed buf = some (decodeTcbOffsetX86 buf) := by
  rw [decodeTcbOffsetX86Indexed, padOffsetIndexed_eq, decodeTcbOffsetX86_eq]
  simp only [Option.bind_eq_bind, Option.bind_some, sliceFrom_padLength]
  split
  · rfl
  · next hlen =>
    have hlen : 8 ≤ (buf.drop (padLength buf)).length := by
      rw [List.length_drop]
      omega
    have hindex : ∀ p ∈ [(0, (0x48 : UInt8)), (1, 0xC7), (2, 0xC0), (7, 0xC3)],
        p.1 < (buf.drop (padLength buf)).length := by
      intro p hp
      have h8 : p.1 < 8 := by
        revert p
        decide
      omega
    rw [matchesAt_eq hindex, Option.bind_some, imm32Indexed_eq hlen, Option.bind_some]
    simp only [List.forall_mem_cons, List.not_mem_nil, IsEmpty.forall_iff, implies_true, and_true,
      decide_eq_true_eq]
    split
    · rfl
    · rfl

/-! ### The decoders are exact -/

/-- The displacement is read back. -/
theorem exists_decodePhpVersionPrologueX86 (fnAddr : UInt64) {pad : List Instr} (hpad : IsPad pad)
    (disp : BitVec 32) (rest : List UInt8) : ∃ a,
    decodePhpVersionPrologueX86 fnAddr (encode (pad ++ [.leaRaxRip disp, .ret]) ++ rest) = .ok a ∧
      (a - afterLea fnAddr pad disp).toInt64.toInt = disp.toInt := by
  refine ⟨_, decodePhpVersionPrologueX86_encode fnAddr hpad disp rest, ?_⟩
  have hsub : afterLea fnAddr pad disp + ⟨disp.signExtend 64⟩ - afterLea fnAddr pad disp =
      ⟨disp.signExtend 64⟩ := by
    rw [UInt64.add_comm, UInt64.add_sub_cancel]
  rw [hsub]
  exact BitVec.toInt_signExtend_of_le (by decide)

/-- The immediate is read back. -/
theorem exists_decodeTcbOffsetX86 {pad : List Instr} (hpad : IsPad pad) (imm : BitVec 32)
    (rest : List UInt8) : ∃ v,
    decodeTcbOffsetX86 (encode (pad ++ [.movRaxImm imm, .ret]) ++ rest) = .ok v ∧
      v.toInt = imm.toInt :=
  ⟨_, decodeTcbOffsetX86_encode hpad imm rest, BitVec.toInt_signExtend_of_le (by decide)⟩

/-- **Both decoders are exact, and neither panics**: each accepts the buffers that begin
with its accessor and no other, decodes what that accessor returns, and reads back every
displacement and every immediate. -/
theorem x86_accessors_exact (fnAddr : UInt64) (buf : List UInt8) :
    ((∀ a, decodePhpVersionPrologueX86 fnAddr buf = .ok a ↔ ∃ pad disp, IsPad pad ∧
        BeginsWith buf (pad ++ [.leaRaxRip disp, .ret]) ∧
        a = afterLea fnAddr pad disp + ⟨disp.signExtend 64⟩) ∧
      ∀ v, decodeTcbOffsetX86 buf = .ok v ↔ ∃ pad imm, IsPad pad ∧
        BeginsWith buf (pad ++ [.movRaxImm imm, .ret]) ∧ v = Int64.ofBitVec (imm.signExtend 64)) ∧
    ((∀ a, decodePhpVersionPrologueX86 fnAddr buf = .ok a →
        ∃ code, BeginsWith buf code ∧ Returns fnAddr.toBitVec code a.toBitVec) ∧
      ∀ v, decodeTcbOffsetX86 buf = .ok v →
        ∃ code, BeginsWith buf code ∧ Returns fnAddr.toBitVec code v.toBitVec) ∧
    (decodePhpVersionPrologueX86Indexed fnAddr buf =
        some (decodePhpVersionPrologueX86 fnAddr buf) ∧
      decodeTcbOffsetX86Indexed buf = some (decodeTcbOffsetX86 buf)) ∧
    ∀ pad, IsPad pad → ∀ w : BitVec 32,
      (∃ a, decodePhpVersionPrologueX86 fnAddr (encode (pad ++ [.leaRaxRip w, .ret]) ++ buf) =
          .ok a ∧ (a - afterLea fnAddr pad w).toInt64.toInt = w.toInt) ∧
      ∃ v, decodeTcbOffsetX86 (encode (pad ++ [.movRaxImm w, .ret]) ++ buf) = .ok v ∧
        v.toInt = w.toInt := by
  refine ⟨⟨fun a => ?_, fun v => ?_⟩, ⟨fun a h => ?_, fun v h => ?_⟩, ⟨?_, ?_⟩,
    fun pad hpad w => ⟨?_, ?_⟩⟩
  · exact decodePhpVersionPrologueX86_eq_ok_iff
  · exact decodeTcbOffsetX86_eq_ok_iff
  · exact decodePhpVersionPrologueX86_sound h
  · exact decodeTcbOffsetX86_sound h fnAddr.toBitVec
  · exact decodePhpVersionPrologueX86Indexed_eq fnAddr buf
  · exact decodeTcbOffsetX86Indexed_eq buf
  · exact exists_decodePhpVersionPrologueX86 fnAddr hpad w buf
  · exact exists_decodeTcbOffsetX86 hpad w buf

end PhpFastProfile
