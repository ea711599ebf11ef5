import PhpFastProfile.Lib.A64Mov
import PhpFastProfile.Tls

/-!
# The `tcb_offset` accessor on aarch64

The decoder executes the moves of the accessor on a number of its own.  That
number is what the moves make of `x0`, so that the decoder accepts exactly the
code that starts with a `MOVZ` to `x0`, goes on with moves to `x0` and returns,
and its result is what this code returns.

## Main definitions

* `Accepted` — code of moves and a return, with what it makes of a number.
* `LoadsConst` — an optional landing pad, a `MOVZ` and up to three `MOVK` for a constant.

## Main results

* `decodeMovs_eq_ok_iff` — what the loop accepts, and what it returns.
* `decodeTcbOffset_exact` — the decoder is exact, and decodes every constant.
-/

namespace PhpFastProfile

open Bytes A64

/-! ### One move -/

/-- The move of a word. -/
def movOf (keep : Bool) (w : UInt32) : Mov where
  keep := keep
  imm := w.toBitVec.extractLsb' 5 16
  hw := w.toBitVec.extractLsb' 21 2

theorem toBitVec_shiftLeft_hw {a b : UInt64} {hw : BitVec 2} (h : b.toBitVec = hw.setWidth 64) :
    (a <<< (b * 16)).toBitVec = a.toBitVec <<< shiftOf hw := by
  rw [UInt64.toBitVec_shiftLeft, UInt64.toBitVec_mul, h, BitVec.shiftLeft_eq', shiftOf]
  congr 1
  have hlt := hw.isLt
  simp
  omega

/-- The two ways the loop goes on are what the move makes of `x0`. -/
theorem toBitVec_movz (w : UInt32) (x : BitVec 64) :
    (((w >>> 5) &&& 0xFFFF).toUInt64 <<< (((w >>> 21) &&& 0x3).toUInt64 * 16)).toBitVec =
      (movOf false w).apply x := by
  have himm : ((w >>> 5) &&& 0xFFFF).toUInt64.toBitVec =
      (w.toBitVec.extractLsb' 5 16).setWidth 64 := field_eq w.toBitVec 5 16
  have hhw : ((w >>> 21) &&& 0x3).toUInt64.toBitVec =
      (w.toBitVec.extractLsb' 21 2).setWidth 64 := field_eq w.toBitVec 21 2
  rw [toBitVec_shiftLeft_hw hhw, himm]
  rfl

theorem toBitVec_movk (w : UInt32) (imm : UInt64) :
    ((imm &&& ~~~((0xFFFF : UInt64) <<< (((w >>> 21) &&& 0x3).toUInt64 * 16))) |||
      ((w >>> 5) &&& 0xFFFF).toUInt64 <<< (((w >>> 21) &&& 0x3).toUInt64 * 16)).toBitVec =
        (movOf true w).apply imm.toBitVec := by
  have hmask : ((0xFFFF : UInt64) <<< (((w >>> 21) &&& 0x3).toUInt64 * 16)).toBitVec =
      0xFFFF#64 <<< shiftOf (w.toBitVec.extractLsb' 21 2) :=
    toBitVec_shiftLeft_hw (field_eq w.toBitVec 21 2)
  rw [UInt64.toBitVec_or, UInt64.toBitVec_and, UInt64.toBitVec_not, hmask, toBitVec_movz w 0]
  rfl

/-- The register field. -/
theorem rd_eq_zero_iff (w : UInt32) : w.toBitVec.extractLsb' 0 5 = 0 ↔ w &&& 0x1F = 0 := by
  have hfield : (w.toBitVec &&& 0x1F#32).setWidth 64 = (w.toBitVec.extractLsb' 0 5).setWidth 64 :=
    field_eq w.toBitVec 0 5
  have hnat := congrArg BitVec.toNat hfield
  have hlt := (w.toBitVec &&& 0x1F#32).isLt
  have hlt' := (w.toBitVec.extractLsb' 0 5).isLt
  rw [BitVec.toNat_setWidth, BitVec.toNat_setWidth, Nat.mod_eq_of_lt (by omega),
    Nat.mod_eq_of_lt (by omega)] at hnat
  rw [← UInt32.toBitVec_inj, UInt32.toBitVec_and, ← BitVec.toNat_inj, ← BitVec.toNat_inj]
  change _ ↔ (w.toBitVec &&& 0x1F#32).toNat = 0
  rw [hnat]
  rfl

theorem decode_movz_iff {w : UInt32} {m : Mov} (hm : m.keep = false) :
    decode w.toBitVec = some m.instr ↔
      w &&& 0xFF800000 = 0xD2800000 ∧ w &&& 0x1F = 0 ∧ m = movOf false w := by
  obtain ⟨keep, imm, hw⟩ := m
  obtain rfl : keep = false := hm
  rw [← rd_eq_zero_iff]
  constructor
  · intro h
    obtain ⟨hmask, hrd, rfl, rfl⟩ := decode_eq_movz h
    exact ⟨UInt32.toBitVec_inj.mp hmask, hrd.symm, rfl⟩
  · intro ⟨hmask, hrd, heq⟩
    rw [decode_movz (UInt32.toBitVec_inj.mpr hmask), hrd, heq]
    rfl

theorem decode_movk_iff {w : UInt32} {m : Mov} (hm : m.keep = true) :
    decode w.toBitVec = some m.instr ↔
      w &&& 0xFF800000 = 0xF2800000 ∧ w &&& 0x1F = 0 ∧ m = movOf true w := by
  obtain ⟨keep, imm, hw⟩ := m
  obtain rfl : keep = true := hm
  rw [← rd_eq_zero_iff]
  constructor
  · intro h
    obtain ⟨hmask, hrd, rfl, rfl⟩ := decode_eq_movk h
    exact ⟨UInt32.toBitVec_inj.mp hmask, hrd.symm, rfl⟩
  · intro ⟨hmask, hrd, heq⟩
    rw [decode_movk (UInt32.toBitVec_inj.mpr hmask), hrd, heq]
    rfl

/-! ### The loop -/

/-- The first move clears the register. -/
def StartsWithMovz (movs : List Mov) : Prop := movs.head?.map Mov.keep = some false

/-- The code is moves and a return, starts with a `MOVZ` unless one came before, and
makes `v` of `imm`. -/
def Accepted (ws : List (BitVec 32)) (consumedMovz : Bool) (imm v : BitVec 64) : Prop :=
  ∃ movs, MovesThenRet ws movs ∧ (consumedMovz = false → StartsWithMovz movs) ∧
    v = Mov.applyAll movs imm

section Accepted

variable {w : BitVec 32} {ws : List (BitVec 32)} {consumedMovz : Bool} {imm v : BitVec 64}

theorem not_accepted_nil : ¬ Accepted [] consumedMovz imm v := by
  intro ⟨movs, h, _⟩
  cases h

theorem accepted_ret_iff :
    Accepted (0xD65F03C0#32 :: ws) consumedMovz imm v ↔ consumedMovz = true ∧ v = imm := by
  constructor
  · intro ⟨movs, h, hfirst, hv⟩
    cases h with
    | ret ws =>
      cases consumedMovz with
      | true => exact ⟨rfl, hv⟩
      | false => cases hfirst rfl
    | @mov _ _ m movs hw hws =>
      rw [decode_ret] at hw
      exact absurd (Option.some.inj hw).symm (m.instr_ne_ret 30)
  · intro ⟨hcz, hv⟩
    refine ⟨[], .ret ws, ?_, hv⟩
    intro hno
    rw [hcz] at hno
    cases hno

/-- One move, then the rest. -/
theorem accepted_mov_iff {m : Mov} (hw : decode w = some m.instr) :
    Accepted (w :: ws) consumedMovz imm v ↔
      (consumedMovz = false → m.keep = false) ∧ Accepted ws true (m.apply imm) v := by
  constructor
  · intro ⟨movs, h, hfirst, hv⟩
    cases h with
    | ret ws =>
      rw [decode_ret] at hw
      exact absurd (Option.some.inj hw).symm (m.instr_ne_ret 30)
    | @mov _ _ m' movs hw' hws =>
      obtain rfl : m = m' := Mov.instr_injective (Option.some.inj (hw.symm.trans hw'))
      exact ⟨fun hcz => Option.some.inj (hfirst hcz), movs, hws, by simp, hv⟩
  · intro ⟨hkeep, movs, hws, _, hv⟩
    exact ⟨m :: movs, .mov hw hws, fun hcz => congrArg some (hkeep hcz), hv⟩

theorem not_accepted_of_no_mov (hret : w ≠ 0xD65F03C0#32)
    (hno : ∀ m : Mov, decode w ≠ some m.instr) :
    ¬ Accepted (w :: ws) consumedMovz imm v := by
  intro ⟨movs, h, _⟩
  cases h with
  | ret ws => exact hret rfl
  | mov hw hws => exact hno _ hw

end Accepted

/-- A word that is a move is one of the two the loop looks for. -/
theorem mov_of_decode {w : UInt32} {m : Mov} (h : decode w.toBitVec = some m.instr) :
    (w &&& 0xFF800000 = 0xD2800000 ∨ w &&& 0xFF800000 = 0xF2800000) ∧ w &&& 0x1F = 0 := by
  cases hm : m.keep with
  | false =>
    obtain ⟨hmask, hrd, -⟩ := (decode_movz_iff hm).mp h
    exact ⟨.inl hmask, hrd⟩
  | true =>
    obtain ⟨hmask, hrd, -⟩ := (decode_movk_iff hm).mp h
    exact ⟨.inr hmask, hrd⟩

theorem wordsLE_of_short {buf : List UInt8}
    (h : ∀ b₀ b₁ b₂ b₃ rest, buf = b₀ :: b₁ :: b₂ :: b₃ :: rest → False) : wordsLE buf = [] := by
  match buf with
  | [] | [_] | [_, _] | [_, _, _] => rfl
  | b₀ :: b₁ :: b₂ :: b₃ :: rest => exact (h b₀ b₁ b₂ b₃ rest rfl).elim

/-- **What the loop accepts, and what it returns**, from the number `imm` on. -/
theorem decodeMovs_eq_ok_iff {off : ℕ} {imm : UInt64} {consumedMovz : Bool} {buf : List UInt8}
    {v : Int64} :
    decodeMovs off imm consumedMovz buf = .ok v ↔
      Accepted (wordsLE buf) consumedMovz imm.toBitVec v.toUInt64.toBitVec := by
  fun_induction decodeMovs off imm consumedMovz buf with
  | case1 off imm cz b₀ b₁ b₂ b₃ rest w hret hcz =>
    change _ ↔ Accepted (w.toBitVec :: wordsLE rest) _ _ _
    rw [hret]
    simp only [reduceCtorEq, false_iff]
    intro h
    rw [(accepted_ret_iff.mp h).1] at hcz
    cases hcz
  | case2 off imm cz b₀ b₁ b₂ b₃ rest w hret hcz =>
    change _ ↔ Accepted (w.toBitVec :: wordsLE rest) _ _ _
    have hcz : cz = true := by simpa using hcz
    have hv : v.toUInt64.toBitVec = imm.toBitVec ↔ imm.toInt64 = v := by
      rw [UInt64.toBitVec_inj]
      constructor
      · intro h
        rw [← h, Int64.toInt64_toUInt64]
      · intro h
        rw [← h, UInt64.toUInt64_toInt64]
    rw [hret, Except.ok.injEq]
    exact (hv.symm.trans (and_iff_right hcz).symm).trans accepted_ret_iff.symm
  | case3 off imm cz b₀ b₁ b₂ b₃ rest w hret isMovz isMovk hmov hrd =>
    change _ ↔ Accepted (w.toBitVec :: wordsLE rest) _ _ _
    simp only [reduceCtorEq, false_iff]
    exact not_accepted_of_no_mov (mt UInt32.toBitVec_inj.mp hret)
      fun m hm => hrd (mov_of_decode hm).2
  | case4 off imm cz b₀ b₁ b₂ b₃ rest w hret isMovz isMovk hmov hrd shift chunk hz ih =>
    change _ ↔ Accepted (w.toBitVec :: wordsLE rest) _ _ _
    have hw : decode w.toBitVec = some (movOf false w).instr :=
      (decode_movz_iff rfl).mpr ⟨of_decide_eq_true hz, not_not.mp hrd, rfl⟩
    rw [accepted_mov_iff hw, ih, toBitVec_movz w imm.toBitVec]
    exact (and_iff_right fun _ => rfl).symm
  | case5 off imm cz b₀ b₁ b₂ b₃ rest w hret isMovz isMovk hmov hrd hz hcz =>
    change _ ↔ Accepted (w.toBitVec :: wordsLE rest) _ _ _
    have hk : isMovk = true := by simpa [hz] using hmov
    have hw : decode w.toBitVec = some (movOf true w).instr :=
      (decode_movk_iff rfl).mpr ⟨of_decide_eq_true hk, not_not.mp hrd, rfl⟩
    rw [accepted_mov_iff hw]
    simp only [reduceCtorEq, false_iff]
    intro ⟨hkeep, _⟩
    cases hkeep (by simpa using hcz)
  | case6 off imm cz b₀ b₁ b₂ b₃ rest w hret isMovz isMovk hmov hrd shift chunk hz hcz ih =>
    change _ ↔ Accepted (w.toBitVec :: wordsLE rest) _ _ _
    have hk : isMovk = true := by simpa [hz] using hmov
    have hcz : cz = true := by simpa using hcz
    have hw : decode w.toBitVec = some (movOf true w).instr :=
      (decode_movk_iff rfl).mpr ⟨of_decide_eq_true hk, not_not.mp hrd, rfl⟩
    rw [accepted_mov_iff hw, ih, toBitVec_movk w imm]
    refine (and_iff_right ?_).symm
    intro hno
    rw [hcz] at hno
    cases hno
  | case7 off imm cz b₀ b₁ b₂ b₃ rest w hret isMovz isMovk hmov =>
    change _ ↔ Accepted (w.toBitVec :: wordsLE rest) _ _ _
    simp only [reduceCtorEq, false_iff]
    apply not_accepted_of_no_mov (mt UInt32.toBitVec_inj.mp hret)
    intro m hm
    apply hmov
    rw [Bool.or_eq_true]
    exact (mov_of_decode hm).1.imp (fun h => decide_eq_true h) (fun h => decide_eq_true h)
  | case8 buf off imm cz hshort =>
    rw [wordsLE_of_short hshort]
    simp only [reduceCtorEq, false_iff]
    exact not_accepted_nil

/-! ### The accessor -/

theorem isPad_iff {w : UInt32} :
    decode w.toBitVec = some .hint ↔ w &&& 0xFFFFFF1F = 0xD503241F := by
  rw [decode_eq_hint_iff, ← UInt32.toBitVec_inj]
  rfl

theorem decodeTcbOffsetAarch64_eq_ok_iff {buf : List UInt8} {v : Int64} :
    decodeTcbOffsetAarch64 buf = .ok v ↔
      12 ≤ buf.length ∧ Accepted (afterPad (wordsLE buf)) false 0 v.toUInt64.toBitVec := by
  unfold decodeTcbOffsetAarch64
  split
  · next hshort =>
    simp only [reduceCtorEq, false_iff]
    omega
  · next hlen =>
    have hwords : wordsLE buf = (leU32 (buf.take 4)).toBitVec :: wordsLE (buf.drop 4) :=
      wordsLE_of_le (by omega)
    by_cases hpad : leU32 (buf.take 4) &&& 0xFFFFFF1F = 0xD503241F
    · dsimp only
      rw [if_pos hpad, if_neg (by omega), decodeMovs_eq_ok_iff, hwords, afterPad,
        if_pos (isPad_iff.mpr hpad)]
      exact (and_iff_right (by omega)).symm
    · dsimp only
      rw [if_neg hpad, if_neg (by omega), decodeMovs_eq_ok_iff, List.drop_zero, hwords, afterPad,
        if_neg (mt isPad_iff.mp hpad)]
      exact (and_iff_right (by omega)).symm

/-- A `MOVZ` forgets what the register held. -/
theorem applyAll_of_movz {movs : List Mov} (h : StartsWithMovz movs) (x y : BitVec 64) :
    Mov.applyAll movs x = Mov.applyAll movs y := by
  cases movs with
  | nil => cases h
  | cons m movs =>
    have hm : m.keep = false := Option.some.inj h
    have hfirst : m.apply x = m.apply y := by
      simp [Mov.apply, hm]
    simp only [Mov.applyAll, List.foldl_cons, hfirst]

/-- **Accepted code returns the number.** -/
theorem Accepted.returns {ws : List (BitVec 32)} {v : BitVec 64} (h : Accepted ws false 0 v)
    (pc : BitVec 64) : Returns ws pc v := by
  obtain ⟨movs, hws, hfirst, hv⟩ := h
  intro s _
  obtain ⟨s', hs', hlink, hzero⟩ := hws.run_eq s
  exact ⟨s', hs', hlink, hzero.trans ((applyAll_of_movz (hfirst rfl) _ 0).trans hv.symm)⟩

/-- Code of this form that returns a number is accepted with it. -/
theorem accepted_of_returns {ws : List (BitVec 32)} {movs : List Mov} {pc v : BitVec 64}
    (hws : MovesThenRet ws movs) (hfirst : StartsWithMovz movs) (h : Returns ws pc v) :
    Accepted ws false 0 v := by
  obtain ⟨s', hs', -, hv⟩ := h ⟨fun _ => 0, 0, pc⟩ rfl
  obtain ⟨s'', hs'', -, hzero⟩ := hws.run_eq ⟨fun _ => 0, 0, pc⟩
  obtain rfl : s' = s'' := Option.some.inj (hs'.symm.trans hs'')
  exact ⟨movs, hws, fun _ => hfirst, hv.symm.trans (hzero.trans (applyAll_of_movz hfirst _ 0))⟩

/-- `[BTI]`, a `MOVZ` to `x0`, up to three `MOVK` and a return, which write the
half-words of `c`. -/
def LoadsConst (code : List (BitVec 32)) (c : BitVec 64) : Prop :=
  ∃ (pad ws : List (BitVec 32)) (m : Mov) (movs : List Mov),
    code = pad ++ ws ++ [0xD65F03C0#32] ∧
    (pad = [] ∨ ∃ w, pad = [w] ∧ decode w = some .hint) ∧
    ws.map decode = (m :: movs).map (fun m => some m.instr) ∧
    m.keep = false ∧ (∀ m' ∈ movs, m'.keep = true) ∧ movs.length ≤ 3 ∧
    ∀ j, half c j = (Mov.written (m :: movs) j).getD 0

/-- Such code fits the window that is read. -/
theorem LoadsConst.length_le {code : List (BitVec 32)} {c : BitVec 64} (h : LoadsConst code c) :
    code.length ≤ 6 := by
  obtain ⟨pad, ws, m, movs, rfl, hpad, hws, -, -, hlen, -⟩ := h
  have hws := congrArg List.length hws
  simp only [List.length_map, List.length_cons] at hws
  have hpad : pad.length ≤ 1 := by
    rcases hpad with rfl | ⟨w, rfl, -⟩ <;> simp
  simp only [List.length_append, List.length_cons, List.length_nil]
  omega

/-- Such code is accepted, with whatever behind it. -/
theorem LoadsConst.accepted {code : List (BitVec 32)} {c : BitVec 64} (h : LoadsConst code c)
    (rest : List (BitVec 32)) : Accepted (afterPad (code ++ rest)) false 0 c := by
  obtain ⟨pad, ws, m, movs, rfl, hpad, hws, hm, hmovs, -, hc⟩ := h
  have hafter : afterPad (pad ++ ws ++ [0xD65F03C0#32] ++ rest) = ws ++ 0xD65F03C0#32 :: rest := by
    rw [List.append_assoc, List.append_assoc]
    rcases hpad with rfl | ⟨w, rfl, hw⟩
    · cases ws with
      | nil => cases hws
      | cons w ws =>
        have hw : decode w ≠ some .hint := by
          rw [(List.cons.inj hws).1]
          obtain ⟨keep, imm, hw⟩ := m
          cases keep <;> simp [Mov.instr]
        exact if_neg hw
    · exact if_pos hw
  rw [hafter]
  exact ⟨m :: movs, .append hws rest, fun _ => congrArg some hm,
    (Mov.applyAll_eq hm hmovs hc 0).symm⟩

/-- **The decoder is exact.**  It accepts the code that starts with a `MOVZ` to
`x0`, goes on with moves to `x0` and returns, all within the buffer, and its result
is what this code returns.  So it returns every constant that is loaded in this way. -/
theorem decodeTcbOffset_exact :
    (∀ (buf : List UInt8) (v : Int64), decodeTcbOffsetAarch64 buf = .ok v ↔
      12 ≤ buf.length ∧
      (∃ movs, MovesThenRet (afterPad (wordsLE buf)) movs ∧ StartsWithMovz movs) ∧
      ∀ pc, Returns (wordsLE buf) pc v.toUInt64.toBitVec) ∧
    ∀ (rem : Remote) (fnAddr c : UInt64) (code : List (BitVec 32)) (buf : List UInt8),
      LoadsConst code c.toBitVec →
      rem.read fnAddr (4 * code.length) = .ok (code.flatMap bytesLE) →
      rem.read fnAddr 24 = .ok buf →
      decodeTcbOffset .aarch64 rem fnAddr = .ok c.toInt64 := by
  constructor
  · intro buf v
    rw [decodeTcbOffsetAarch64_eq_ok_iff]
    constructor
    · intro ⟨hlen, h⟩
      have ⟨movs, hws, hfirst, _⟩ := h
      refine ⟨hlen, ⟨movs, hws, hfirst rfl⟩, ?_⟩
      intro pc
      rw [returns_afterPad]
      exact h.returns _
    · intro ⟨hlen, ⟨movs, hws, hfirst⟩, hret⟩
      have hret := (returns_afterPad _ _ _).mp (hret 0)
      exact ⟨hlen, accepted_of_returns hws hfirst hret⟩
  · intro rem fnAddr c code buf hcode hbytes hwindow
    have hlen := hcode.length_le
    -- the code is what the window starts with
    have hstart : code.flatMap bytesLE = buf.take (4 * code.length) := by
      have hpart := load_window (i := 0) (k := 4 * code.length)
        (Remote.read_eq_ok_iff.mp hwindow) (by omega)
      exact Option.some.inj ((Remote.read_eq_ok_iff.mp hbytes).symm.trans hpart)
    have hbuf : wordsLE buf = code ++ wordsLE (buf.drop (4 * code.length)) := by
      rw [← wordsLE_flatMap, hstart, List.take_append_drop]
    have hok : decodeTcbOffsetAarch64 buf = .ok c.toInt64 := by
      rw [decodeTcbOffsetAarch64_eq_ok_iff, hbuf, UInt64.toUInt64_toInt64,
        Remote.length_read hwindow]
      exact ⟨by decide, hcode.accepted _⟩
    rw [decodeTcbOffset, hwindow]
    exact hok

-- a landing pad and all four half-words, the highest second: 24 bytes
example : decodeTcbOffsetAarch64 [0x5F, 0x24, 0x03, 0xD5, 0x00, 0xFE, 0x9F, 0xD2,
    0xE0, 0xFF, 0xFF, 0xF2, 0xE0, 0xFF, 0xBF, 0xF2, 0xE0, 0xFF, 0xDF, 0xF2,
    0xC0, 0x03, 0x5F, 0xD6] = .ok (-16) := by
  decide

end PhpFastProfile
