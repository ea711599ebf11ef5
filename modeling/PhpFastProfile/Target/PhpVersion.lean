import PhpFastProfile.Lib.A64
import PhpFastProfile.Lib.Utf8
import PhpFastProfile.Tls.TcbOffset

/-!
# The `php_version` accessor

`php_version()` returns the address of a string constant.  The string is found by
decoding the accessor: on aarch64 an `ADRP` and an `ADD` of the page offset, on
x86_64 one `lea`.  The aarch64 decoder looks at the classes of the instructions
and at their immediates, but neither at their registers nor at the shift of the
`ADD`, so that it is right for the code a compiler emits and for little else.

## Main definitions

* `decodePhpVersionPrologue` — the address the accessor returns.
* `readPhpVersion` — the string there.
* `PrologueSound` — what is decoded is what the code returns.
* `Sums` — the registers and the shift with which `ADRP` and `ADD` add up in `x0`.

## Main results

* `returns_iff_sums` — the three instructions return the sum of the immediates
  exactly with such registers.
* `prologueSound_iff` — the decoder is sound exactly on these.
-/

namespace PhpFastProfile

open Bytes

/-- The errors of `decode_php_version_prologue`, with what their texts show. -/
inductive PrologueError where
  | notRecognized (buf : List UInt8)
  | short (len : ℕ)
  | shortAfterBti (len : ℕ)
  | notAdrp (adrp : UInt32) (buf : List UInt8)
  | notAddImm (add : UInt32)
  | notRet (ret : UInt32)
  deriving DecidableEq, Repr

/-! ### The decoders -/

/-- `decode_php_version_prologue` on x86_64. -/
def decodePhpVersionPrologueX86 (fnAddr : UInt64) (buf : List UInt8) :
    Except PrologueError UInt64 :=
  let leaOff := if buf.take 4 = ENDBR64 then 4 else 0
  let lea := buf.drop leaOff
  if lea.length < 8 ∨ lea.take 3 ≠ [0x48, 0x8D, 0x05] ∨ lea[7]? ≠ some 0xC3 then
    .error (.notRecognized buf)
  else
    let disp := (leU32 ((lea.drop 3).take 4)).toInt32.toInt64
    let nextInsn := fnAddr.toInt64 + Int64.ofNat leaOff + 7
    .ok (nextInsn + disp).toUInt64

/-- Sign extension from 21 bits. -/
def signExtend21 (imm : UInt64) : UInt64 :=
  if imm &&& ((1 : UInt64) <<< 20) ≠ 0 then imm ||| ~~~(((1 : UInt64) <<< 21) - 1) else imm

/-- The page an `ADRP` at `adrpPc` forms: its immediate comes in two parts. -/
def adrpPage (adrpPc : UInt64) (adrp : UInt32) : UInt64 :=
  let immlo := ((adrp >>> 29) &&& 0x3).toUInt64
  let immhi := ((adrp >>> 5) &&& 0x7FFFF).toUInt64
  let imm := signExtend21 ((immhi <<< 2) ||| immlo)
  (adrpPc &&& ~~~(0xFFF : UInt64)) + (imm <<< 12)

/-- The immediate of an `ADD`. -/
def addImm12 (add : UInt32) : UInt64 := ((add >>> 10) &&& 0xFFF).toUInt64

/-- The checks on the three words of the accessor, and the address. -/
def decodeAdrpAdd (adrpPc : UInt64) (buf : List UInt8) (adrp add ret : UInt32) :
    Except PrologueError UInt64 :=
  if adrp &&& 0x9F000000 ≠ 0x90000000 then .error (.notAdrp adrp buf)
  -- bit 22, the shift of the immediate, is not covered
  else if add &&& 0xFF800000 ≠ 0x91000000 then .error (.notAddImm add)
  else if ret ≠ 0xD65F03C0 then .error (.notRet ret)
  else .ok (adrpPage adrpPc adrp + addImm12 add)

/-- `decode_php_version_prologue` on aarch64. -/
def decodePhpVersionPrologueAarch64 (fnAddr : UInt64) (buf : List UInt8) :
    Except PrologueError UInt64 :=
  if buf.length < 16 then .error (.short buf.length)
  else
    -- an optional landing pad
    let first := leU32 (buf.take 4)
    let prologueOff := if first &&& 0xFFFFFF1F = 0xD503241F then 4 else 0
    if buf.length < prologueOff + 12 then .error (.shortAfterBti buf.length)
    else
      let p := buf.drop prologueOff
      decodeAdrpAdd (fnAddr + UInt64.ofNat prologueOff) buf (leU32 (p.take 4))
        (leU32 ((p.drop 4).take 4)) (leU32 ((p.drop 8).take 4))

/-- `decode_php_version_prologue`: the address that the accessor returns. -/
def decodePhpVersionPrologue : Arch → UInt64 → List UInt8 → Except PrologueError UInt64
  | .x86_64 => decodePhpVersionPrologueX86
  | .aarch64 => decodePhpVersionPrologueAarch64

/-- `Remote::read_cstring`: the bytes before the first NUL, of at most `max`. -/
def Remote.readCstring (rem : Remote) (addr : UInt64) (max : ℕ) : Outcome String :=
  if addr = 0 then .ok ""
  else do
    let buf ← rem.read addr max
    return Utf8.fromUtf8Lossy (buf.takeWhile (· ≠ 0))

/-- How `read_php_version` fails. -/
inductive PhpVersionError where
  | prologue (e : PrologueError)
  | read (s : Stop)
  deriving DecidableEq, Repr

/-- `read_php_version`: the string that the accessor returns, read from the process. -/
def readPhpVersion (arch : Arch) (rem : Remote) (fnAddr : UInt64) :
    Except PhpVersionError String := do
  let buf ← (rem.read fnAddr 20).mapError .read
  let strAddr ← (decodePhpVersionPrologue arch fnAddr buf).mapError .prologue
  (rem.readCstring strAddr 32).mapError .read


/-! ### The words of a buffer -/

/-- The word at an offset. -/
def wordAt (buf : List UInt8) (off : ℕ) : UInt32 := leU32 ((buf.drop off).take 4)

theorem wordsLE_drop {buf : List UInt8} {off : ℕ} (h : off + 4 ≤ buf.length) :
    A64.wordsLE (buf.drop off) = (wordAt buf off).toBitVec :: A64.wordsLE (buf.drop (off + 4)) := by
  have hlen : 4 ≤ (buf.drop off).length := by
    rw [List.length_drop]
    omega
  rw [A64.wordsLE_of_le hlen, List.drop_drop]
  rfl

/-! ### What is decoded -/

theorem toBitVec_addImm12 (add : UInt32) :
    (addImm12 add).toBitVec = (add.toBitVec.extractLsb' 10 12).setWidth 64 :=
  A64.field_eq add.toBitVec 10 12

/-- The two parts of the immediate, put together. -/
theorem immhi_or_immlo (hi : BitVec 19) (lo : BitVec 2) :
    (hi.setWidth 64 <<< 2) ||| lo.setWidth 64 = (hi ++ lo).setWidth 64 := by
  apply BitVec.eq_of_getLsbD_eq
  intro i hlt
  rw [BitVec.getLsbD_or, BitVec.getLsbD_shiftLeft, BitVec.getLsbD_setWidth,
    BitVec.getLsbD_setWidth, BitVec.getLsbD_setWidth, BitVec.getLsbD_append]
  by_cases h : i < 2
  · simp [hlt, h]
  · have hlo : lo.getLsbD i = false := BitVec.getLsbD_of_ge lo i (by omega)
    have hlt' : i - 2 < 64 := by omega
    simp [hlt, hlt', h, hlo]

/-- The test of the sign bit. -/
theorem and_signBit (v : BitVec 21) :
    v.setWidth 64 &&& 0x100000#64 ≠ 0#64 ↔ v.msb = true := by
  have hpow : 0x100000#64 = BitVec.twoPow 64 20 := by decide
  have hbit : v.setWidth 64 &&& 0x100000#64 = if v.msb then 0x100000#64 else 0#64 := by
    rw [hpow, BitVec.and_twoPow]
    simp [BitVec.msb_eq_getLsbD_last]
  rw [hbit]
  cases v.msb <;> simp

theorem toBitVec_signExtend21 {imm : UInt64} {v : BitVec 21} (h : imm.toBitVec = v.setWidth 64) :
    (signExtend21 imm).toBitVec = v.signExtend 64 := by
  have hsign : imm &&& ((1 : UInt64) <<< 20) ≠ 0 ↔ v.msb = true := by
    rw [← and_signBit, ← h, ne_eq, ← UInt64.toBitVec_inj]
    rfl
  have hones : (BitVec.allOnes 21).setWidth 64 = 0x1FFFFF#64 := by decide
  rw [A64.signExtend_eq_or, hones, ← h, signExtend21]
  by_cases hneg : v.msb = true
  · rw [if_pos (hsign.mpr hneg), if_pos hneg]
    rfl
  · rw [if_neg (mt hsign.mp hneg), if_neg hneg]

/-- The address of the page, as `ADRP` computes it. -/
theorem toBitVec_adrpPage (pc : UInt64) (adrp : UInt32) :
    (adrpPage pc adrp).toBitVec = (pc.toBitVec &&& ~~~0xFFF#64) +
      (adrp.toBitVec.extractLsb' 5 19 ++ adrp.toBitVec.extractLsb' 29 2).signExtend 64 <<< 12 := by
  have hhi : ((adrp >>> 5) &&& 0x7FFFF).toUInt64.toBitVec =
      (adrp.toBitVec.extractLsb' 5 19).setWidth 64 := A64.field_eq adrp.toBitVec 5 19
  have hlo : ((adrp >>> 29) &&& 0x3).toUInt64.toBitVec =
      (adrp.toBitVec.extractLsb' 29 2).setWidth 64 := A64.field_eq adrp.toBitVec 29 2
  have himm : ((((adrp >>> 5) &&& 0x7FFFF).toUInt64 <<< 2) |||
      ((adrp >>> 29) &&& 0x3).toUInt64 : UInt64).toBitVec =
        (adrp.toBitVec.extractLsb' 5 19 ++ adrp.toBitVec.extractLsb' 29 2).setWidth 64 := by
    rw [← immhi_or_immlo, ← hhi, ← hlo]
    rfl
  rw [← toBitVec_signExtend21 himm]
  rfl

/-! ### What the code returns -/

/-- The registers and the shift with which an `ADRP` to `rd`, an `ADD` of `imm` to
`rd'` from `rn` and a return leave the sum of the page and `imm` in `x0`, and the
return address alone. -/
def Sums (rd rd' rn : BitVec 5) (imm : BitVec 12) (shifted : Bool) : Prop :=
  (rd' = 0 ∧ rn = rd ∧ rd ≠ 30 ∧ rd ≠ 31 ∧ (shifted = false ∨ imm = 0)) ∨
    (rd' ≠ 0 ∧ rd = 0 ∧ imm = 0 ∧ (rd' = 30 → rn = 30))

/-- A shifted immediate is the immediate only if it is zero. -/
theorem shiftLeft_eq_self_iff {imm : BitVec 12} {shifted : Bool} :
    (imm.setWidth 64 <<< if shifted then 12 else 0) = imm.setWidth 64 ↔
      shifted = false ∨ imm = 0 := by
  cases shifted with
  | false => simp
  | true =>
    have himm := imm.isLt
    rw [← BitVec.toNat_inj, ← BitVec.toNat_inj]
    simp only [if_true, BitVec.toNat_shiftLeft, BitVec.toNat_setWidth, Nat.shiftLeft_eq]
    simp
    omega

/-- The page an `ADRP` at `pc` with the immediate `off` forms. -/
def pageOf (pc : BitVec 64) (off : BitVec 21) : BitVec 64 :=
  (pc &&& ~~~0xFFF#64) + off.signExtend 64 <<< 12

section Accessor

variable {adrp add : BitVec 32} {rd rd' rn : BitVec 5} {off : BitVec 21} {imm : BitVec 12}
  {shifted : Bool}

theorem run_accessor (hadrp : A64.decode adrp = some (.adrp rd off))
    (hadd : A64.decode add = some (.addImm rd' rn imm shifted)) (rest : List (BitVec 32))
    (s : A64.State) :
    A64.run (adrp :: add :: 0xD65F03C0#32 :: rest) s =
      some (A64.step (.ret 30)
        (A64.step (.addImm rd' rn imm shifted) (A64.step (.adrp rd off) s))) := by
  rw [A64.run_cons hadrp (by simp), A64.run_cons hadd (by simp), A64.run_ret A64.decode_ret]

/-- The registers before the return. -/
theorem reg_accessor (s : A64.State) (q : BitVec 5) :
    (A64.step (.addImm rd' rn imm shifted) (A64.step (.adrp rd off) s)).reg q =
      if q = rd' ∧ rd' ≠ 31#5 then
        (if rn = rd ∧ rd ≠ 31#5 then pageOf s.pc off else s.regSp rn) +
          imm.setWidth 64 <<< (if shifted then 12 else 0)
      else if q = rd ∧ rd ≠ 31#5 then pageOf s.pc off else s.reg q := by
  simp only [A64.step, A64.reg_next, A64.regSp_next, A64.reg_setRegSp, A64.regSp_setReg,
    A64.reg_setReg]
  rfl

/-- A state with `a` in `x30` and `b` in every other register. -/
def probe (pc a b : BitVec 64) : A64.State where
  x := fun i => if i = 30 then a else b
  sp := b
  pc := pc

theorem reg_probe_link (pc a b : BitVec 64) : (probe pc a b).reg 30 = a := rfl

theorem reg_probe_zero (pc a b : BitVec 64) : (probe pc a b).reg 0 = b := rfl

theorem regSp_probe (pc a b : BitVec 64) (q : BitVec 5) :
    (probe pc a b).regSp q = if q = 30 then a else b := by
  by_cases hq : q = 30
  · subst hq
    rfl
  · have hne : q.toNat ≠ 30 := fun h => hq (BitVec.toNat_inj.mp h)
    rw [if_neg hq]
    unfold A64.State.regSp
    split
    · next hlt =>
      have hi : (⟨q.toNat, hlt⟩ : Fin 31) ≠ 30 := fun h => hne (Fin.mk.inj_iff.mp h)
      exact if_neg hi
    · rfl

theorem returns_accessor_iff (hadrp : A64.decode adrp = some (.adrp rd off))
    (hadd : A64.decode add = some (.addImm rd' rn imm shifted)) (rest : List (BitVec 32))
    (pc v : BitVec 64) :
    A64.Returns (adrp :: add :: 0xD65F03C0#32 :: rest) pc v ↔
      ∀ s : A64.State, s.pc = pc →
        (A64.step (.addImm rd' rn imm shifted) (A64.step (.adrp rd off) s)).reg 30 = s.reg 30 ∧
        (A64.step (.addImm rd' rn imm shifted) (A64.step (.adrp rd off) s)).reg 0 = v := by
  constructor
  · intro h s hpc
    obtain ⟨s', hs', hlink, hzero⟩ := h s hpc
    rw [run_accessor hadrp hadd] at hs'
    obtain rfl := Option.some.inj hs'
    exact ⟨hlink, hzero⟩
  · intro h s hpc
    exact ⟨_, run_accessor hadrp hadd rest s, h s hpc⟩

theorem reg_link_of_sums (s : A64.State) (h : Sums rd rd' rn imm shifted) :
    (A64.step (.addImm rd' rn imm shifted) (A64.step (.adrp rd off) s)).reg 30 = s.reg 30 := by
  rw [reg_accessor]
  rcases h with ⟨rfl, rfl, hlink, -, -⟩ | ⟨hrd', rfl, rfl, hlink⟩
  · rw [if_neg (by decide), if_neg fun h => hlink h.1.symm]
  · by_cases h30 : rd' = 30
    · -- an addition of nothing to the return address
      obtain rfl := hlink h30
      subst h30
      rw [if_pos (by decide), if_neg (by decide)]
      simp [A64.State.regSp, A64.State.reg]
    · rw [if_neg fun h => h30 h.1.symm, if_neg (by decide)]

theorem reg_zero_of_sums (s : A64.State) (h : Sums rd rd' rn imm shifted) :
    (A64.step (.addImm rd' rn imm shifted) (A64.step (.adrp rd off) s)).reg 0 =
      pageOf s.pc off + imm.setWidth 64 := by
  rw [reg_accessor]
  rcases h with ⟨rfl, rfl, -, hrd, hshift⟩ | ⟨hrd', rfl, rfl, -⟩
  · rw [if_pos (by decide), if_pos ⟨rfl, hrd⟩, shiftLeft_eq_self_iff.mpr hshift]
  · rw [if_neg fun h => hrd' h.1.symm, if_pos (by decide)]
    simp

/-- The code keeps the return address of every probing state, and returns the sum. -/
def SumsProbes (rd rd' rn : BitVec 5) (imm : BitVec 12) (shifted : Bool) (pc : BitVec 64)
    (off : BitVec 21) : Prop :=
  ∀ a b : BitVec 64,
    (A64.step (.addImm rd' rn imm shifted) (A64.step (.adrp rd off) (probe pc a b))).reg 30 = a ∧
    (A64.step (.addImm rd' rn imm shifted) (A64.step (.adrp rd off) (probe pc a b))).reg 0 =
      pageOf pc off + imm.setWidth 64

/-- An `ADD` to `x0` forms the sum. -/
theorem sums_of_probes_zero {pc : BitVec 64} (h : SumsProbes rd 0 rn imm shifted pc off) :
    Sums rd 0 rn imm shifted := by
  have hne : (0 : BitVec 64) ≠ 1 := by decide
  have hpc : ∀ a b, (probe pc a b).pc = pc := fun _ _ => rfl
  simp only [SumsProbes, reg_accessor, reg_probe_link, reg_probe_zero, regSp_probe, hpc] at h
  have hlink : ∀ a : BitVec 64, (if 30 = rd ∧ rd ≠ 31#5 then pageOf pc off else a) = a := by
    intro a
    have ha := (h a 0).1
    rwa [if_neg (by decide)] at ha
  have hzero : ∀ a : BitVec 64,
      (if rn = rd ∧ rd ≠ 31#5 then pageOf pc off else a) +
        imm.setWidth 64 <<< (if shifted then 12 else 0) = pageOf pc off + imm.setWidth 64 := by
    intro a
    have ha := (h a a).2
    rwa [if_pos (by decide), ite_self] at ha
  by_cases hrn : rn = rd ∧ rd ≠ 31#5
  · refine .inl ⟨rfl, hrn.1, ?_, hrn.2, ?_⟩
    · intro hrd
      have h0 := hlink 0
      have h1 := hlink 1
      rw [if_pos ⟨hrd.symm, hrn.2⟩] at h0 h1
      exact hne (h0.symm.trans h1)
    · have hsum := hzero 0
      rw [if_pos hrn] at hsum
      exact shiftLeft_eq_self_iff.mp ((BitVec.add_right_inj _).mp hsum)
  · have hsum := (hzero 0).trans (hzero 1).symm
    rw [if_neg hrn, if_neg hrn] at hsum
    exact absurd ((BitVec.add_left_inj _).mp hsum) hne

/-- With an `ADD` to another register, `x0` has the page or what it had before. -/
theorem sums_of_probes_ne {pc : BitVec 64} (hrd' : rd' ≠ 0)
    (h : SumsProbes rd rd' rn imm shifted pc off) : Sums rd rd' rn imm shifted := by
  have hne : (0 : BitVec 64) ≠ 1 := by decide
  have hpc : ∀ a b, (probe pc a b).pc = pc := fun _ _ => rfl
  simp only [SumsProbes, reg_accessor, reg_probe_link, reg_probe_zero, regSp_probe, hpc] at h
  have hzero : ∀ b : BitVec 64,
      (if 0 = rd ∧ rd ≠ 31#5 then pageOf pc off else b) = pageOf pc off + imm.setWidth 64 := by
    intro b
    have hb := (h 0 b).2
    rwa [if_neg fun h => hrd' h.1.symm] at hb
  by_cases hrd : rd = 0
  · have himm : imm = 0 := by
      have hpage := hzero 0
      rw [if_pos ⟨hrd.symm, by rw [hrd]; decide⟩] at hpage
      have hnat := congrArg BitVec.toNat (BitVec.self_eq_add_right.mp hpage)
      have hlt := imm.isLt
      apply BitVec.eq_of_toNat_eq
      rw [BitVec.toNat_setWidth, Nat.mod_eq_of_lt (by omega)] at hnat
      exact hnat
    refine .inr ⟨hrd', hrd, himm, ?_⟩
    intro h30
    by_contra hrn
    have hlink : ∀ a : BitVec 64,
        (if rn = rd ∧ rd ≠ 31#5 then pageOf pc off else 0) +
          imm.setWidth 64 <<< (if shifted then 12 else 0) = a := by
      intro a
      have ha := (h a 0).1
      rwa [if_pos ⟨h30.symm, by rw [h30]; decide⟩, if_neg hrn] at ha
    exact hne ((hlink 0).symm.trans (hlink 1))
  · have hsum := (hzero 0).trans (hzero 1).symm
    rw [if_neg fun h => hrd h.1.symm, if_neg fun h => hrd h.1.symm] at hsum
    exact absurd hsum hne

/-- What the code does in every probing state decides about its registers. -/
theorem sums_of_probes {pc : BitVec 64} (h : SumsProbes rd rd' rn imm shifted pc off) :
    Sums rd rd' rn imm shifted := by
  by_cases hrd' : rd' = 0
  · subst hrd'
    exact sums_of_probes_zero h
  · exact sums_of_probes_ne hrd' h

/-- **The three instructions return the sum of their immediates** exactly with the
registers and the shift for it. -/
theorem returns_iff_sums (hadrp : A64.decode adrp = some (.adrp rd off))
    (hadd : A64.decode add = some (.addImm rd' rn imm shifted)) (rest : List (BitVec 32))
    (pc : BitVec 64) :
    A64.Returns (adrp :: add :: 0xD65F03C0#32 :: rest) pc (pageOf pc off + imm.setWidth 64) ↔
      Sums rd rd' rn imm shifted := by
  rw [returns_accessor_iff hadrp hadd]
  constructor
  · intro h
    exact sums_of_probes fun a b => h (probe pc a b) rfl
  · rintro h s rfl
    exact ⟨reg_link_of_sums s h, reg_zero_of_sums s h⟩

end Accessor

/-! ### The decoder -/

theorem decodeAdrpAdd_eq_ok_iff {pc a : UInt64} {buf : List UInt8} {adrp add ret : UInt32} :
    decodeAdrpAdd pc buf adrp add ret = .ok a ↔
      adrp &&& 0x9F000000 = 0x90000000 ∧ add &&& 0xFF800000 = 0x91000000 ∧ ret = 0xD65F03C0 ∧
        a = adrpPage pc adrp + addImm12 add := by
  unfold decodeAdrpAdd
  split
  · next h => simp [h]
  · next h₁ =>
    split
    · next h => simp [h]
    · next h₂ =>
      split
      · next h => simp [h]
      · next h₃ =>
        rw [not_not] at h₁ h₂ h₃
        simp [h₁, h₂, h₃, eq_comm]

/-- The words the decoder looks at. -/
theorem exists_words {buf : List UInt8} (h : 16 ≤ buf.length) (fnAddr : UInt64) :
    ∃ (pc : UInt64) (adrp add ret : UInt32) (rest : List (BitVec 32)),
      decodePhpVersionPrologueAarch64 fnAddr buf = decodeAdrpAdd pc buf adrp add ret ∧
      A64.pcAfterPad fnAddr.toBitVec (A64.wordsLE buf) = pc.toBitVec ∧
      A64.afterPad (A64.wordsLE buf) = adrp.toBitVec :: add.toBitVec :: ret.toBitVec :: rest := by
  have hwords : A64.wordsLE buf = (wordAt buf 0).toBitVec :: A64.wordsLE (buf.drop 4) :=
    A64.wordsLE_of_le (by omega)
  have hword : ∀ off, off + 4 ≤ 16 → A64.wordsLE (buf.drop off) =
      (wordAt buf off).toBitVec :: A64.wordsLE (buf.drop (off + 4)) :=
    fun off hoff => wordsLE_drop (by omega)
  have hdrop : ∀ i j, leU32 (((buf.drop i).drop j).take 4) = wordAt buf (i + j) := by
    intro i j
    rw [List.drop_drop, wordAt]
  rw [decodePhpVersionPrologueAarch64, if_neg (by omega), hwords]
  dsimp only
  by_cases hpad : wordAt buf 0 &&& 0xFFFFFF1F = 0xD503241F
  · have hfirst : leU32 (buf.take 4) &&& 0xFFFFFF1F = 0xD503241F := hpad
    rw [if_pos hfirst, if_neg (by omega), A64.afterPad, A64.pcAfterPad, if_pos (isPad_iff.mpr hpad),
      if_pos (isPad_iff.mpr hpad), hdrop, hdrop, hword 4 (by decide), hword 8 (by decide),
      hword 12 (by decide)]
    exact ⟨_, _, _, _, _, rfl, rfl, rfl⟩
  · have hfirst : ¬ leU32 (buf.take 4) &&& 0xFFFFFF1F = 0xD503241F := hpad
    have hnot : ¬ A64.decode (wordAt buf 0).toBitVec = some .hint := fun h => hpad (isPad_iff.mp h)
    rw [if_neg hfirst, if_neg (by omega), A64.afterPad, A64.pcAfterPad, if_neg hnot, if_neg hnot,
      hdrop,
      hdrop, hword 4 (by decide), hword 8 (by decide)]
    exact ⟨_, _, _, _, _, rfl, by simp, rfl⟩

/-- What the decoder accepts, and the address it returns. -/
theorem decodePhpVersionPrologueAarch64_eq_ok_iff {buf : List UInt8} (h : 16 ≤ buf.length)
    {fnAddr a : UInt64} :
    decodePhpVersionPrologueAarch64 fnAddr buf = .ok a ↔
      ∃ adrp add rest rd off rd' rn imm shifted,
        A64.afterPad (A64.wordsLE buf) = adrp :: add :: 0xD65F03C0#32 :: rest ∧
        A64.decode adrp = some (.adrp rd off) ∧
        A64.decode add = some (.addImm rd' rn imm shifted) ∧
        a.toBitVec =
          pageOf (A64.pcAfterPad fnAddr.toBitVec (A64.wordsLE buf)) off + imm.setWidth 64 := by
  obtain ⟨pc, adrp, add, ret, rest, hdecode, hpc, hwords⟩ := exists_words h fnAddr
  rw [hdecode, decodeAdrpAdd_eq_ok_iff, hpc, hwords]
  have hsum : (adrpPage pc adrp + addImm12 add).toBitVec =
      pageOf pc.toBitVec (adrp.toBitVec.extractLsb' 5 19 ++ adrp.toBitVec.extractLsb' 29 2) +
        (add.toBitVec.extractLsb' 10 12).setWidth 64 := by
    rw [UInt64.toBitVec_add, toBitVec_adrpPage, toBitVec_addImm12, pageOf]
  constructor
  · intro ⟨hadrp, hadd, hret, ha⟩
    refine ⟨adrp.toBitVec, add.toBitVec, rest, _, _, _, _, _, _, ?_,
      A64.decode_adrp (UInt32.toBitVec_inj.mpr hadrp),
      A64.decode_addImm (UInt32.toBitVec_inj.mpr hadd),
      ha ▸ hsum⟩
    rw [hret]
    rfl
  · intro ⟨adrp', add', rest', rd, off, rd', rn, imm, shifted, heq, hadrp, hadd, ha⟩
    obtain ⟨rfl, rfl, hret, -⟩ : adrp.toBitVec = adrp' ∧ add.toBitVec = add' ∧
        ret.toBitVec = 0xD65F03C0#32 ∧ rest = rest' := by simpa using heq
    obtain ⟨hmask, -, rfl⟩ := A64.decode_eq_adrp hadrp
    obtain ⟨hmask', -, -, rfl, -⟩ := A64.decode_eq_addImm hadd
    refine ⟨UInt32.toBitVec_inj.mp hmask, UInt32.toBitVec_inj.mp hmask',
      UInt32.toBitVec_inj.mp hret, ?_⟩
    rw [← UInt64.toBitVec_inj, hsum, ha]

/-- `[BTI] ADRP x0 / ADD x0, x0, #imm / RET`. -/
def Canonical (ws : List (BitVec 32)) : Prop :=
  ∃ adrp add rest off imm, A64.afterPad ws = adrp :: add :: 0xD65F03C0#32 :: rest ∧
    A64.decode adrp = some (.adrp 0 off) ∧ A64.decode add = some (.addImm 0 0 imm false)

/-- What is decoded is what the code returns, and the canonical code is decoded. -/
structure PrologueSound (fnAddr : UInt64) (buf : List UInt8) : Prop where
  sound : ∀ a, decodePhpVersionPrologueAarch64 fnAddr buf = .ok a →
    A64.Returns (A64.wordsLE buf) fnAddr.toBitVec a.toBitVec
  accepted : Canonical (A64.wordsLE buf) →
    ∃ a, decodePhpVersionPrologueAarch64 fnAddr buf = .ok a

theorem sums_of_sound {fnAddr : UInt64} {buf : List UInt8} (h : 16 ≤ buf.length)
    (hsound : PrologueSound fnAddr buf) {adrp add : BitVec 32} {rest : List (BitVec 32)}
    {rd rd' rn : BitVec 5} {off : BitVec 21} {imm : BitVec 12} {shifted : Bool}
    (hwords : A64.afterPad (A64.wordsLE buf) = adrp :: add :: 0xD65F03C0#32 :: rest)
    (hadrp : A64.decode adrp = some (.adrp rd off))
    (hadd : A64.decode add = some (.addImm rd' rn imm shifted)) : Sums rd rd' rn imm shifted := by
  have hok : decodePhpVersionPrologueAarch64 fnAddr buf =
      .ok ⟨pageOf (A64.pcAfterPad fnAddr.toBitVec (A64.wordsLE buf)) off + imm.setWidth 64⟩ :=
    (decodePhpVersionPrologueAarch64_eq_ok_iff h).mpr
      ⟨adrp, add, rest, rd, off, rd', rn, imm, shifted, hwords, hadrp, hadd, rfl⟩
  have hret := hsound.sound _ hok
  rw [A64.returns_afterPad, hwords] at hret
  exact (returns_iff_sums hadrp hadd rest _).mp hret

/-- **The decoder is sound exactly when the registers and the shift**, which it does
not look at, are the right ones. -/
theorem prologueSound_iff (fnAddr : UInt64) (buf : List UInt8) (h : 16 ≤ buf.length) :
    PrologueSound fnAddr buf ↔
      ∀ adrp add rest rd off rd' rn imm shifted,
        A64.afterPad (A64.wordsLE buf) = adrp :: add :: 0xD65F03C0#32 :: rest →
        A64.decode adrp = some (.adrp rd off) →
        A64.decode add = some (.addImm rd' rn imm shifted) → Sums rd rd' rn imm shifted := by
  constructor
  · intro hsound adrp add rest rd off rd' rn imm shifted hwords hadrp hadd
    exact sums_of_sound h hsound hwords hadrp hadd
  · intro hsums
    constructor
    · intro a hok
      obtain ⟨adrp, add, rest, rd, off, rd', rn, imm, shifted, hwords, hadrp, hadd, ha⟩ :=
        (decodePhpVersionPrologueAarch64_eq_ok_iff h).mp hok
      rw [A64.returns_afterPad, hwords, ha]
      exact (returns_iff_sums hadrp hadd rest _).mpr
        (hsums adrp add rest rd off rd' rn imm shifted hwords hadrp hadd)
    · intro ⟨adrp, add, rest, off, imm, hwords, hadrp, hadd⟩
      exact ⟨⟨pageOf (A64.pcAfterPad fnAddr.toBitVec (A64.wordsLE buf)) off + imm.setWidth 64⟩,
        (decodePhpVersionPrologueAarch64_eq_ok_iff h).mpr
          ⟨adrp, add, rest, 0, off, 0, 0, imm, false, hwords, hadrp, hadd, rfl⟩⟩

/-- `bti c; adrp x0, ...; add x0, x0, #0xc38; ret`. -/
theorem prologueSound_bti : PrologueSound 0xAAAAB0321000
    [0x5F, 0x24, 0x03, 0xD5, 0xE0, 0x24, 0x00, 0xD0, 0x00, 0xE0, 0x30, 0x91,
      0xC0, 0x03, 0x5F, 0xD6, 0x1F, 0x20, 0x03, 0xD5] := by
  refine (prologueSound_iff _ _ (by decide)).mpr ?_
  intro adrp add rest rd off rd' rn imm shifted hwords hadrp hadd
  have hbuf : A64.afterPad (A64.wordsLE [0x5F, 0x24, 0x03, 0xD5, 0xE0, 0x24, 0x00, 0xD0,
      0x00, 0xE0, 0x30, 0x91, 0xC0, 0x03, 0x5F, 0xD6, 0x1F, 0x20, 0x03, 0xD5]) =
        [0xD00024E0#32, 0x9130E000#32, 0xD65F03C0#32, 0xD503201F#32] := by decide
  rw [hbuf] at hwords
  obtain ⟨rfl, rfl, -⟩ : 0xD00024E0#32 = adrp ∧ 0x9130E000#32 = add ∧ _ := by
    simpa using hwords
  have hadrp' : A64.decode 0xD00024E0#32 = some (.adrp 0 (0x49E#21)) := by decide
  have hadd' : A64.decode 0x9130E000#32 = some (.addImm 0 0 0xC38#12 false) := by decide
  rw [hadrp'] at hadrp
  rw [hadd'] at hadd
  obtain ⟨rfl, -⟩ := A64.Instr.adrp.inj (Option.some.inj hadrp)
  obtain ⟨rfl, rfl, -, rfl⟩ := A64.Instr.addImm.inj (Option.some.inj hadd)
  exact .inl ⟨rfl, rfl, by decide, by decide, .inl rfl⟩

/-- `adrp x0, ...; add x0, x0, #1, lsl #12; ret` returns the next page, and is
decoded to the second byte of this one. -/
theorem not_prologueSound_shifted : ¬ PrologueSound 0xAAAAB0321000
    [0x00, 0x00, 0x00, 0x90, 0x00, 0x04, 0x40, 0x91, 0xC0, 0x03, 0x5F, 0xD6,
      0x1F, 0x20, 0x03, 0xD5, 0x1F, 0x20, 0x03, 0xD5] := by
  intro hsound
  have hwords : A64.afterPad (A64.wordsLE [0x00, 0x00, 0x00, 0x90, 0x00, 0x04, 0x40, 0x91,
      0xC0, 0x03, 0x5F, 0xD6, 0x1F, 0x20, 0x03, 0xD5, 0x1F, 0x20, 0x03, 0xD5]) =
        [0x90000000#32, 0x91400400#32, 0xD65F03C0#32, 0xD503201F#32, 0xD503201F#32] := by decide
  have hadrp : A64.decode 0x90000000#32 = some (.adrp 0 0) := by decide
  have hadd : A64.decode 0x91400400#32 = some (.addImm 0 0 1 true) := by decide
  have hsums : Sums 0 0 0 1 true := sums_of_sound (by decide) hsound hwords hadrp hadd
  exact absurd hsums (by unfold Sums; decide)

end PhpFastProfile
