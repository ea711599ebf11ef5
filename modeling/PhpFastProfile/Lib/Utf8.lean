import Mathlib.Data.Nat.Notation
import Mathlib.Data.List.Basic

/-!
# Decoding UTF-8

`fromUtf8` decodes the bytes of a string and nothing else.  `fromUtf8Lossy` decodes
any bytes and puts one replacement character in place of every maximal ill-formed
part: the longest prefix of a well-formed sequence that is there, or a single byte
when not even that.

## Main definitions

* `Utf8.fromUtf8` — the string with these bytes.
* `Utf8.lossy` — the characters of a byte list.
* `Utf8.fromUtf8Lossy` — the string they make up.
* `Utf8.encode` — the bytes of some characters.

## Main results

* `Utf8.fromUtf8_eq_some_iff` — the string decoded is the one with these bytes.
* `Utf8.toByteArray_ascii` — the bytes of an ASCII string are its characters.
* `Utf8.lossy_encode` — **what was encoded is decoded, with nothing replaced.**
* `Utf8.lossy_eq_iff_of_ascii` — only its own bytes are decoded to an ASCII string.
-/

namespace Utf8

/-- The replacement character. -/
def replacement : Char := '\uFFFD'

/-- A continuation byte. -/
def isCont (b : UInt8) : Bool := 0x80 ≤ b && b ≤ 0xBF

/-- The six low bits of a continuation byte. -/
def low6 (b : UInt8) : ℕ := b.toNat % 64

/-- `b` may follow the first byte `b₀` of a sequence of three. -/
def isSecondOf3 (b₀ b : UInt8) : Bool :=
  if b₀ = 0xE0 then 0xA0 ≤ b && b ≤ 0xBF
  else if b₀ = 0xED then 0x80 ≤ b && b ≤ 0x9F
  else isCont b

/-- `b` may follow the first byte `b₀` of a sequence of four. -/
def isSecondOf4 (b₀ b : UInt8) : Bool :=
  if b₀ = 0xF0 then 0x90 ≤ b && b ≤ 0xBF
  else if b₀ = 0xF4 then 0x80 ≤ b && b ≤ 0x8F
  else isCont b

/-- The characters of a byte list, ill-formed parts replaced. -/
def lossy : List UInt8 → List Char
  | [] => []
  | b₀ :: rest =>
    if b₀ < 0x80 then Char.ofNat b₀.toNat :: lossy rest
    else if 0xC2 ≤ b₀ && b₀ ≤ 0xDF then
      match rest with
      | [] => [replacement]
      | b₁ :: rest₁ =>
        if isCont b₁ then Char.ofNat (b₀.toNat % 32 * 64 + low6 b₁) :: lossy rest₁
        else replacement :: lossy (b₁ :: rest₁)
    else if 0xE0 ≤ b₀ && b₀ ≤ 0xEF then
      match rest with
      | [] => [replacement]
      | b₁ :: rest₁ =>
        if isSecondOf3 b₀ b₁ then
          match rest₁ with
          | [] => [replacement]
          | b₂ :: rest₂ =>
            if isCont b₂ then
              Char.ofNat (b₀.toNat % 16 * 4096 + low6 b₁ * 64 + low6 b₂) :: lossy rest₂
            else replacement :: lossy (b₂ :: rest₂)
        else replacement :: lossy (b₁ :: rest₁)
    else if 0xF0 ≤ b₀ && b₀ ≤ 0xF4 then
      match rest with
      | [] => [replacement]
      | b₁ :: rest₁ =>
        if isSecondOf4 b₀ b₁ then
          match rest₁ with
          | [] => [replacement]
          | b₂ :: rest₂ =>
            if isCont b₂ then
              match rest₂ with
              | [] => [replacement]
              | b₃ :: rest₃ =>
                if isCont b₃ then
                  Char.ofNat (b₀.toNat % 8 * 262144 + low6 b₁ * 4096 + low6 b₂ * 64 + low6 b₃)
                    :: lossy rest₃
                else replacement :: lossy (b₃ :: rest₃)
            else replacement :: lossy (b₂ :: rest₂)
        else replacement :: lossy (b₁ :: rest₁)
    else replacement :: lossy rest

/-- The string of a byte list, ill-formed parts replaced. -/
def fromUtf8Lossy (bs : List UInt8) : String := String.ofList (lossy bs)

example : fromUtf8Lossy [0x61, 0xE2, 0x82, 0xAC, 0xE2, 0x82, 0x62] = "a€\uFFFDb" := by decide

/-! ### Strict decoding -/

/-- The string with these bytes. -/
def fromUtf8 (bs : List UInt8) : Option String := String.fromUTF8? bs.toByteArray

/-- **The string decoded is the one with these bytes.** -/
theorem fromUtf8_eq_some_iff {bs : List UInt8} {s : String} :
    fromUtf8 bs = some s ↔ s.toByteArray = bs.toByteArray := by
  unfold fromUtf8 String.fromUTF8?
  constructor
  · intro h
    split at h
    · exact Option.some.inj h ▸ rfl
    · cases h
  · intro h
    have hvalid : bs.toByteArray.IsValidUTF8 := h ▸ s.isValidUTF8
    rw [dif_pos hvalid, Option.some.injEq]
    exact String.toByteArray_inj.mp h.symm

theorem toNat_ofNat {n : ℕ} (h : n.isValidChar) : (Char.ofNat n).toNat = n := by
  rw [Char.ofNat, dif_pos h]
  rfl

/-- The byte of an ASCII character. -/
def asciiByte (c : Char) : UInt8 := UInt8.ofNat c.toNat

theorem toNat_asciiByte {c : Char} (h : c.toNat < 128) : (asciiByte c).toNat = c.toNat := by
  rw [asciiByte, UInt8.toNat_ofNat', Nat.mod_eq_of_lt (by omega)]

/-- The character of an ASCII byte has that byte. -/
theorem asciiByte_ofNat {b : UInt8} (h : b < 128) : asciiByte (Char.ofNat b.toNat) = b := by
  have hb : b.toNat < 128 := h
  rw [asciiByte, toNat_ofNat (Or.inl (by omega)), UInt8.ofNat_toNat]

theorem utf8EncodeChar_ascii {c : Char} (h : c.toNat < 128) :
    String.utf8EncodeChar c = [asciiByte c] := by
  have hle : c.val.toNat ≤ 127 := Nat.le_of_lt_succ h
  unfold String.utf8EncodeChar
  rw [if_pos hle]
  rfl

/-- **The bytes of an ASCII string are its characters.** -/
theorem toByteArray_ascii {s : String} (h : ∀ c ∈ s.toList, c.toNat < 128) :
    s.toByteArray = (s.toList.map asciiByte).toByteArray := by
  rw [← String.utf8Encode_toList]
  unfold List.utf8Encode
  congr 1
  generalize s.toList = cs at h
  induction cs with
  | nil => rfl
  | cons c cs ih =>
    rw [List.flatMap_cons, utf8EncodeChar_ascii (h c List.mem_cons_self),
      ih fun d hd => h d (List.mem_cons_of_mem _ hd)]
    rfl

/-! ### Encoding -/

/-- The bytes of some characters. -/
def encode (cs : List Char) : List UInt8 := cs.flatMap String.utf8EncodeChar

theorem toByteArray_encode (s : String) : (encode s.toList).toByteArray = s.toByteArray :=
  String.utf8Encode_toList

/-- **What was encoded is decoded.** -/
theorem fromUtf8_encode (s : String) : fromUtf8 (encode s.toList) = some s :=
  fromUtf8_eq_some_iff.mpr (toByteArray_encode s).symm

/-! ### Decoding what was encoded -/

section Sequences

variable {b₀ b₁ b₂ b₃ : UInt8} {rest : List UInt8}

theorem isCont_iff {b : UInt8} : isCont b = true ↔ 0x80 ≤ b.toNat ∧ b.toNat ≤ 0xBF := by
  simp [isCont, UInt8.le_iff_toNat_le]

theorem isSecondOf3_iff : isSecondOf3 b₀ b₁ = true ↔
    (0x80 ≤ b₁.toNat ∧ b₁.toNat ≤ 0xBF) ∧
      (b₀.toNat = 0xE0 → 0xA0 ≤ b₁.toNat) ∧ (b₀.toNat = 0xED → b₁.toNat ≤ 0x9F) := by
  unfold isSecondOf3
  simp only [← UInt8.toNat_inj]
  split
  · next h =>
    simp [h, UInt8.le_iff_toNat_le]
    omega
  · split
    · next h =>
      simp [h, UInt8.le_iff_toNat_le]
      omega
    · next h h' =>
      have h : b₀.toNat ≠ 0xE0 := h
      have h' : b₀.toNat ≠ 0xED := h'
      rw [isCont_iff]
      omega

theorem isSecondOf4_iff : isSecondOf4 b₀ b₁ = true ↔
    (0x80 ≤ b₁.toNat ∧ b₁.toNat ≤ 0xBF) ∧
      (b₀.toNat = 0xF0 → 0x90 ≤ b₁.toNat) ∧ (b₀.toNat = 0xF4 → b₁.toNat ≤ 0x8F) := by
  unfold isSecondOf4
  simp only [← UInt8.toNat_inj]
  split
  · next h =>
    simp [h, UInt8.le_iff_toNat_le]
    omega
  · split
    · next h =>
      simp [h, UInt8.le_iff_toNat_le]
      omega
    · next h h' =>
      have h : b₀.toNat ≠ 0xF0 := h
      have h' : b₀.toNat ≠ 0xF4 := h'
      rw [isCont_iff]
      omega

theorem lossy_one (h : b₀.toNat < 0x80) :
    lossy (b₀ :: rest) = Char.ofNat b₀.toNat :: lossy rest := by
  rw [lossy.eq_def]
  exact if_pos (UInt8.lt_iff_toNat_lt.mpr h)

theorem lossy_two (hlow : 0xC2 ≤ b₀.toNat) (hhigh : b₀.toNat ≤ 0xDF) (h₁ : isCont b₁ = true) :
    lossy (b₀ :: b₁ :: rest) = Char.ofNat (b₀.toNat % 32 * 64 + low6 b₁) :: lossy rest := by
  rw [lossy.eq_def]
  simp only [UInt8.lt_iff_toNat_lt, UInt8.le_iff_toNat_le, Bool.and_eq_true, decide_eq_true_eq]
  rw [if_neg (Nat.not_lt.mpr (Nat.le_trans (by decide) hlow)), if_pos ⟨hlow, hhigh⟩, if_pos h₁]

theorem lossy_three (hlow : 0xE0 ≤ b₀.toNat) (hhigh : b₀.toNat ≤ 0xEF)
    (h₁ : isSecondOf3 b₀ b₁ = true) (h₂ : isCont b₂ = true) :
    lossy (b₀ :: b₁ :: b₂ :: rest) =
      Char.ofNat (b₀.toNat % 16 * 4096 + low6 b₁ * 64 + low6 b₂) :: lossy rest := by
  rw [lossy.eq_def]
  simp only [UInt8.lt_iff_toNat_lt, UInt8.le_iff_toNat_le, Bool.and_eq_true, decide_eq_true_eq]
  rw [if_neg (Nat.not_lt.mpr (Nat.le_trans (by decide) hlow)),
    if_neg fun h => absurd (Nat.le_trans hlow h.2) (by decide), if_pos ⟨hlow, hhigh⟩, if_pos h₁,
    if_pos h₂]

theorem lossy_four (hlow : 0xF0 ≤ b₀.toNat) (hhigh : b₀.toNat ≤ 0xF4)
    (h₁ : isSecondOf4 b₀ b₁ = true) (h₂ : isCont b₂ = true) (h₃ : isCont b₃ = true) :
    lossy (b₀ :: b₁ :: b₂ :: b₃ :: rest) =
      Char.ofNat (b₀.toNat % 8 * 262144 + low6 b₁ * 4096 + low6 b₂ * 64 + low6 b₃) ::
        lossy rest := by
  rw [lossy.eq_def]
  simp only [UInt8.lt_iff_toNat_lt, UInt8.le_iff_toNat_le, Bool.and_eq_true, decide_eq_true_eq]
  rw [if_neg (Nat.not_lt.mpr (Nat.le_trans (by decide) hlow)),
    if_neg fun h => absurd (Nat.le_trans hlow h.2) (by decide),
    if_neg fun h => absurd (Nat.le_trans hlow h.2) (by decide), if_pos ⟨hlow, hhigh⟩, if_pos h₁,
    if_pos h₂, if_pos h₃]

end Sequences

/-- The bytes of a character are read back as this character. -/
theorem lossy_utf8EncodeChar (c : Char) (rest : List UInt8) :
    lossy (String.utf8EncodeChar c ++ rest) = c :: lossy rest := by
  have hvalid : c.toNat < 0xD800 ∨ 0xDFFF < c.toNat ∧ c.toNat < 0x110000 := c.valid
  have hval : c.val.toNat = c.toNat := rfl
  have hchar : ∀ {n}, n = c.toNat → Char.ofNat n = c := fun h => h ▸ Char.ofNat_toNat c
  -- bytes are compared as numbers
  have hbyte : ∀ {n}, n < 256 → (UInt8.ofNat n).toNat = n := by
    intro n hn
    rw [UInt8.toNat_ofNat']
    omega
  have hcont : ∀ n, isCont (UInt8.ofNat (n % 64 + 128)) = true := by
    intro n
    rw [isCont_iff, hbyte (by omega)]
    omega
  have hlow : ∀ n, low6 (UInt8.ofNat (n % 64 + 128)) = n % 64 := by
    intro n
    rw [low6, hbyte (by omega)]
    omega
  unfold String.utf8EncodeChar
  rw [hval]
  dsimp only
  split_ifs with h1 h2 h3 <;> simp only [List.cons_append, List.nil_append]
  · have h0 := hbyte (n := c.toNat) (by omega)
    refine (lossy_one (by omega)).trans ?_
    rw [hchar h0]
  · have h0 := hbyte (n := c.toNat / 64 % 32 + 192) (by omega)
    refine (lossy_two (by omega) (by omega) (hcont _)).trans ?_
    rw [hlow, h0, hchar (by omega)]
  · have h0 := hbyte (n := c.toNat / 4096 % 16 + 224) (by omega)
    have h₁ := hbyte (n := c.toNat / 64 % 64 + 128) (by omega)
    refine (lossy_three (by omega) (by omega) ?_ (hcont _)).trans ?_
    · -- neither an overlong sequence nor a surrogate
      rw [isSecondOf3_iff, h0, h₁]
      omega
    · rw [hlow, hlow, h0, hchar (by omega)]
  · have h0 := hbyte (n := c.toNat / 262144 % 8 + 240) (by omega)
    have h₁ := hbyte (n := c.toNat / 4096 % 64 + 128) (by omega)
    refine (lossy_four (by omega) (by omega) ?_ (hcont _) (hcont _)).trans ?_
    · rw [isSecondOf4_iff, h0, h₁]
      omega
    · rw [hlow, hlow, hlow, h0, hchar (by omega)]

/-- **What was encoded is decoded, with nothing replaced.** -/
theorem lossy_encode (cs : List Char) : lossy (encode cs) = cs := by
  induction cs with
  | nil => rfl
  | cons c cs ih =>
    rw [encode, List.flatMap_cons, lossy_utf8EncodeChar]
    exact congrArg (c :: ·) ih

/-! ### ASCII characters -/

/-- The characters do not start with an ASCII one. -/
def StartsHigh (cs : List Char) : Prop := ∃ c cs', cs = c :: cs' ∧ 128 ≤ c.toNat

theorem startsHigh_replacement (cs : List Char) : StartsHigh (replacement :: cs) :=
  ⟨replacement, cs, rfl, by decide⟩

theorem startsHigh_ofNat {n : ℕ} (hn : 128 ≤ n) (hv : n.isValidChar) (cs : List Char) :
    StartsHigh (Char.ofNat n :: cs) :=
  ⟨Char.ofNat n, cs, rfl, by rw [toNat_ofNat hv]; exact hn⟩

/-- A byte that is not ASCII is decoded, with what follows it, to no ASCII character. -/
theorem startsHigh_lossy {bs : List UInt8} (hne : bs ≠ []) (h : ∀ b ∈ bs.head?, 0x80 ≤ b.toNat) :
    StartsHigh (lossy bs) := by
  fun_cases lossy bs with
  | case1 => exact absurd rfl hne
  | case2 b₀ rest hlow =>
    have hhigh : 0x80 ≤ b₀.toNat := h b₀ rfl
    exact absurd (UInt8.lt_iff_toNat_lt.mp hlow) (Nat.not_lt.mpr hhigh)
  | case4 b₀ _ hrange b₁ rest =>
    simp only [UInt8.le_iff_toNat_le, Bool.and_eq_true, decide_eq_true_eq] at hrange
    have hrange : 0xC2 ≤ b₀.toNat ∧ b₀.toNat ≤ 0xDF := hrange
    apply startsHigh_ofNat
    · omega
    · simp only [low6, Nat.isValidChar]
      omega
  | case8 b₀ _ _ hrange b₁ hsecond b₂ rest =>
    simp only [UInt8.le_iff_toNat_le, Bool.and_eq_true, decide_eq_true_eq] at hrange
    have hrange : 0xE0 ≤ b₀.toNat ∧ b₀.toNat ≤ 0xEF := hrange
    rw [isSecondOf3_iff] at hsecond
    apply startsHigh_ofNat
    · simp only [low6]
      omega
    · -- no surrogate
      simp only [low6, Nat.isValidChar]
      omega
  | case14 b₀ _ _ _ hrange b₁ hsecond b₂ _ b₃ rest =>
    simp only [UInt8.le_iff_toNat_le, Bool.and_eq_true, decide_eq_true_eq] at hrange
    have hrange : 0xF0 ≤ b₀.toNat ∧ b₀.toNat ≤ 0xF4 := hrange
    rw [isSecondOf4_iff] at hsecond
    apply startsHigh_ofNat
    · simp only [low6]
      omega
    · simp only [low6, Nat.isValidChar]
      omega
  | _ => exact startsHigh_replacement _

/-- A byte is decoded to an ASCII character if it is its byte. -/
theorem ofNat_eq_iff_asciiByte {b : UInt8} {c : Char} (hb : b.toNat < 128) (hc : c.toNat < 128) :
    Char.ofNat b.toNat = c ↔ b = asciiByte c := by
  constructor
  · intro h
    rw [← h, asciiByte_ofNat (UInt8.lt_iff_toNat_lt.mpr hb)]
  · intro h
    rw [h, toNat_asciiByte hc, Char.ofNat_toNat]

/-- **Bytes are decoded to ASCII characters only if they are these characters.** -/
theorem lossy_eq_iff_of_ascii {cs : List Char} (hcs : ∀ c ∈ cs, c.toNat < 128) {bs : List UInt8} :
    lossy bs = cs ↔ bs = cs.map asciiByte := by
  induction bs generalizing cs with
  | nil => cases cs <;> simp [lossy]
  | cons b bs ih =>
    by_cases hb : b.toNat < 0x80
    · rw [lossy_one hb]
      cases cs with
      | nil => simp
      | cons c cs =>
        rw [List.map_cons, List.cons_eq_cons, List.cons_eq_cons,
          ofNat_eq_iff_asciiByte hb (hcs c List.mem_cons_self),
          ih fun d hd => hcs d (List.mem_cons_of_mem _ hd)]
    · have hhigh : ∀ b' ∈ (b :: bs).head?, 0x80 ≤ b'.toNat := by
        intro b' hb'
        cases hb'
        exact Nat.not_lt.mp hb
      obtain ⟨c, cs', hlossy, hc⟩ := startsHigh_lossy (by simp) hhigh
      rw [hlossy]
      constructor
      · intro h
        subst h
        exact absurd (hcs c List.mem_cons_self) (by omega)
      · intro h
        exfalso
        cases cs with
        | nil => cases h
        | cons d cs =>
          have hd : d.toNat < 128 := hcs d List.mem_cons_self
          apply hb
          rw [List.map_cons, List.cons_eq_cons] at h
          rw [h.1, asciiByte, UInt8.toNat_ofNat']
          omega

end Utf8
