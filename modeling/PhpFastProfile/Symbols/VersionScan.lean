import PhpFastProfile.Symbols
import PhpFastProfile.Lib.Utf8

/-!
# The scan for a version literal

`scanForVersion` walks the runs of a read-only section that end with a NUL and
returns the first that is a version.  Runs of five bytes are passed over unread,
although the shortest versions have five.

## Main definitions

* `scanForVersion` — the scan.
* `RunAt` — where the runs of the data are.
* `IsLiteral`, `FirstLiteral` — the version literals, and the first of them.

## Main results

* `accepts_iff` — the recogniser accepts exactly the literals.
* `scanFrom_eq_some_iff` — what the loop returns from the start of a run on.
* `scanForVersion_exact_iff` — **the scan finds the first literal exactly when it is
  longer than five bytes.**
* `scanForVersion_misses` — data whose literal is not found.
-/

namespace PhpFastProfile

/-! ### The scan -/

/-- `data[i..end]`. -/
def slice (data : List UInt8) (i stop : ℕ) : List UInt8 := (data.drop i).take (stop - i)

/-- The bytes are the string `s`, and it looks like a version. -/
def acceptsVersion (bs : List UInt8) : Option String :=
  (Utf8.fromUtf8 bs).filter looksLikePhpVersion

/-- The loop of `scan_for_version` from the offset `i` on. -/
def scanFrom (data : List UInt8) (i : ℕ) : Option String :=
  if i < data.length then
    match (data.drop i).findIdx? fun b => b = 0 with
    -- the last run has no NUL
    | none => none
    | some p =>
      if i + 5 < i + p then
        match acceptsVersion (slice data i (i + p)) with
        | some s => some s
        | none => scanFrom data (i + p + 1)
      else scanFrom data (i + p + 1)
  else none
termination_by data.length - i

/-- `scan_for_version`: the first run of printable bytes that is long enough and looks like a
version. -/
def scanForVersion (data : List UInt8) : Option String := scanFrom data 0

/-! ### Runs and literals -/

/-- A run starts at the beginning or just after a NUL. -/
def RunStart (data : List UInt8) (i : ℕ) : Prop := i = 0 ∨ ∃ k, i = k + 1 ∧ data[k]? = some 0

/-- A maximal run of the data that a NUL ends, from `i` to just before `stop`. -/
structure RunAt (data : List UInt8) (i stop : ℕ) : Prop where
  start : RunStart data i
  le : i ≤ stop
  nul : data[stop]? = some 0
  inside : ∀ j, i ≤ j → j < stop → data[j]? ≠ some 0

/-- One to three ASCII digits. -/
def IsDigits (ds : List UInt8) : Prop :=
  1 ≤ ds.length ∧ ds.length ≤ 3 ∧ ∀ d ∈ ds, 0x30 ≤ d ∧ d ≤ 0x39

/-- `8.<1 to 3 digits>.<1 to 3 digits>`. -/
def IsLiteral (bs : List UInt8) : Prop :=
  ∃ minor patch, IsDigits minor ∧ IsDigits patch ∧ bs = 0x38 :: 0x2E :: (minor ++ 0x2E :: patch)

/-- The run from `i` to `stop` is the version literal `v`. -/
structure LiteralAt (data : List UInt8) (i stop : ℕ) (v : String) : Prop where
  run : RunAt data i stop
  literal : IsLiteral (slice data i stop)
  bytes : v.toByteArray = (slice data i stop).toByteArray

/-- The first run that is a version literal is `v`. -/
def FirstLiteral (data : List UInt8) (v : String) : Prop :=
  ∃ i stop, LiteralAt data i stop v ∧ ∀ i' stop' v', LiteralAt data i' stop' v' → i ≤ i'

/-! ### The recogniser -/

/-- The recogniser accepts `8.`, a part, a dot and a part. -/
theorem looksLikePhpVersion_iff (s : String) : looksLikePhpVersion s = true ↔
    ∃ minor patch, isVersionPart minor = true ∧ isVersionPart patch = true ∧
      s.toList = '8' :: '.' :: (minor ++ '.' :: patch) := by
  unfold looksLikePhpVersion
  constructor
  · intro h
    split at h
    · next major minor patch hsplit =>
      simp only [Bool.and_eq_true, beq_iff_eq] at h
      obtain ⟨⟨rfl, hminor⟩, hpatch⟩ := h
      refine ⟨minor, patch, hminor, hpatch, ?_⟩
      have hjoin : ['.'].intercalate (s.toList.splitOn '.') = s.toList :=
        List.intercalate_splitOn '.'
      rw [← hjoin, hsplit]
      simp [List.intercalate]
    · cases h
  · rintro ⟨minor, patch, hminor, hpatch, hlist⟩
    -- digits are no dots, so the splits are at the two dots
    have hdots : ∀ {part}, isVersionPart part = true → '.' ∉ part := by
      intro part hpart hmem
      simp only [isVersionPart, Bool.and_eq_true, List.all_eq_true] at hpart
      exact absurd (hpart.2 '.' hmem) (by decide)
    have hsplit : s.toList.splitOn '.' = [['8'], minor, patch] := by
      have hjoin : s.toList = ['.'].intercalate [['8'], minor, patch] := by
        rw [hlist]
        simp [List.intercalate]
      rw [hjoin]
      refine List.splitOn_intercalate '.' ?_ (by simp)
      intro part hpart
      simp only [List.mem_cons, List.not_mem_nil, or_false] at hpart
      rcases hpart with rfl | rfl | rfl
      · decide
      · exact hdots hminor
      · exact hdots hpatch
    rw [hsplit]
    simp [hminor, hpatch]

/-- The character of a byte. -/
def charOf (b : UInt8) : Char := Char.ofNat b.toNat

theorem isDigits_of_isVersionPart {part : List Char} (h : isVersionPart part = true) :
    IsDigits (part.map Utf8.asciiByte) := by
  simp only [isVersionPart, Bool.and_eq_true, decide_eq_true_eq, List.all_eq_true] at h
  obtain ⟨⟨hlow, hhigh⟩, hdigit⟩ := h
  refine ⟨by rwa [List.length_map], by rwa [List.length_map], fun d hd => ?_⟩
  obtain ⟨c, hc, rfl⟩ := List.mem_map.mp hd
  obtain ⟨hge, hle⟩ := toNat_of_isDigit (hdigit c hc)
  rw [UInt8.le_iff_toNat_le, UInt8.le_iff_toNat_le, Utf8.toNat_asciiByte (by omega)]
  exact ⟨hge, hle⟩

theorem isVersionPart_of_isDigits {ds : List UInt8} (h : IsDigits ds) :
    isVersionPart (ds.map charOf) = true := by
  obtain ⟨hlow, hhigh, hdigit⟩ := h
  simp only [isVersionPart, Bool.and_eq_true, decide_eq_true_eq, List.all_eq_true,
    List.length_map]
  refine ⟨⟨hlow, hhigh⟩, fun c hc => ?_⟩
  obtain ⟨d, hd, rfl⟩ := List.mem_map.mp hc
  obtain ⟨hge, hle⟩ := hdigit d hd
  rw [UInt8.le_iff_toNat_le] at hge hle
  have hd : d.toNat ≤ 57 := hle
  have hchar : (charOf d).toNat = d.toNat := Utf8.toNat_ofNat (Or.inl (by omega))
  rw [Char.isDigit_iff_toNat, hchar]
  exact ⟨hge, hle⟩

/-- The characters of a version are ASCII. -/
theorem ascii_of_version {minor patch : List Char} (hminor : isVersionPart minor = true)
    (hpatch : isVersionPart patch = true) :
    ∀ c ∈ '8' :: '.' :: (minor ++ '.' :: patch), c.toNat < 128 := by
  have hpart : ∀ {part}, isVersionPart part = true → ∀ c ∈ part, c.toNat < 128 := by
    intro part h c hc
    simp only [isVersionPart, Bool.and_eq_true, List.all_eq_true] at h
    have := (toNat_of_isDigit (h.2 c hc)).2
    omega
  intro c hc
  simp only [List.mem_cons, List.mem_append] at hc
  rcases hc with rfl | rfl | hc | rfl | hc
  · decide
  · decide
  · exact hpart hminor c hc
  · decide
  · exact hpart hpatch c hc

/-- A literal is made of ASCII bytes. -/
theorem IsLiteral.ascii {bs : List UInt8} (h : IsLiteral bs) : ∀ b ∈ bs, b < 128 := by
  obtain ⟨minor, patch, hminor, hpatch, rfl⟩ := h
  have hpart : ∀ {ds}, IsDigits ds → ∀ d ∈ ds, d < 128 := by
    intro ds hds d hd
    have hle := (hds.2.2 d hd).2
    rw [UInt8.le_iff_toNat_le] at hle
    rw [UInt8.lt_iff_toNat_lt]
    exact Nat.lt_of_le_of_lt hle (by decide)
  intro b hb
  simp only [List.mem_cons, List.mem_append] at hb
  rcases hb with rfl | rfl | hb | rfl | hb
  · decide
  · decide
  · exact hpart hminor b hb
  · decide
  · exact hpart hpatch b hb

/-- **The recogniser accepts exactly the literals.** -/
theorem accepts_iff {bs : List UInt8} {v : String} :
    acceptsVersion bs = some v ↔ IsLiteral bs ∧ v.toByteArray = bs.toByteArray := by
  unfold acceptsVersion
  rw [Option.filter_eq_some_iff, Utf8.fromUtf8_eq_some_iff, looksLikePhpVersion_iff]
  constructor
  · rintro ⟨hbytes, minor, patch, hminor, hpatch, hlist⟩
    refine ⟨?_, hbytes⟩
    have hascii : ∀ c ∈ v.toList, c.toNat < 128 := hlist ▸ ascii_of_version hminor hpatch
    rw [Utf8.toByteArray_ascii hascii, List.toByteArray_inj] at hbytes
    refine ⟨minor.map Utf8.asciiByte, patch.map Utf8.asciiByte, isDigits_of_isVersionPart hminor,
      isDigits_of_isVersionPart hpatch, ?_⟩
    rw [← hbytes, hlist]
    simp only [List.map_cons, List.map_append]
    rfl
  · rintro ⟨hliteral, hbytes⟩
    refine ⟨hbytes, ?_⟩
    -- the string of these bytes, character by character
    have hchars : ((bs.map charOf).map Utf8.asciiByte) = bs := by
      rw [List.map_map]
      exact (List.map_congr_left fun b hb => Utf8.asciiByte_ofNat (hliteral.ascii b hb)).trans
        (List.map_id bs)
    have hascii : ∀ c ∈ (String.ofList (bs.map charOf)).toList, c.toNat < 128 := by
      rw [String.toList_ofList]
      intro c hc
      obtain ⟨b, hb, rfl⟩ := List.mem_map.mp hc
      have hlt : b.toNat < 128 := hliteral.ascii b hb
      rw [charOf, Utf8.toNat_ofNat (Or.inl (by omega))]
      exact hlt
    have hv : v = String.ofList (bs.map charOf) := by
      rw [← String.toByteArray_inj, hbytes, Utf8.toByteArray_ascii hascii, String.toList_ofList,
        hchars]
    obtain ⟨minor, patch, hminor, hpatch, hshape⟩ := hliteral
    refine ⟨minor.map charOf, patch.map charOf, isVersionPart_of_isDigits hminor,
      isVersionPart_of_isDigits hpatch, ?_⟩
    rw [hv, String.toList_ofList, hshape]
    simp only [List.map_cons, List.map_append]
    rfl

/-! ### The loop -/

/-- The run that starts at `i` ends at the next NUL. -/
theorem findIdx_drop_eq_some_iff {data : List UInt8} {i p : ℕ} :
    ((data.drop i).findIdx? fun b => b = 0) = some p ↔
      data[i + p]? = some 0 ∧ ∀ j, i ≤ j → j < i + p → data[j]? ≠ some 0 := by
  rw [List.findIdx?_eq_some_iff_getElem]
  constructor
  · rintro ⟨hp, hnul, hbefore⟩
    have hget : (data.drop i)[p]? = some 0 := by
      rw [List.getElem?_eq_getElem hp, of_decide_eq_true hnul]
    rw [List.getElem?_drop] at hget
    refine ⟨hget, fun j hij hjp hj => ?_⟩
    obtain ⟨hlt, hj⟩ := List.getElem?_eq_some_iff.mp hj
    have hno := hbefore (j - i) (by omega)
    rw [List.getElem_drop] at hno
    simp only [Nat.add_sub_cancel' hij] at hno
    exact hno (decide_eq_true hj)
  · rintro ⟨hnul, hbefore⟩
    rw [← List.getElem?_drop] at hnul
    obtain ⟨hp, hnul⟩ := List.getElem?_eq_some_iff.mp hnul
    refine ⟨hp, decide_eq_true hnul, fun j hjp hj => ?_⟩
    have hget : (data.drop i)[j]? = some 0 := by
      rw [List.getElem?_eq_getElem (by omega), of_decide_eq_true hj]
    rw [List.getElem?_drop] at hget
    exact hbefore (i + j) (by omega) (by omega) hget

/-- Two runs are the same or one comes after the other. -/
theorem RunAt.lt_of_lt {data : List UInt8} {i stop i' stop' : ℕ} (h : RunAt data i stop)
    (h' : RunAt data i' stop') (hlt : i < i') : stop < i' := by
  rcases h'.start with rfl | ⟨k, rfl, hk⟩
  · omega
  · -- the NUL before the second run is not inside the first
    by_contra hle
    exact h.inside k (by omega) (by omega) hk

theorem RunAt.stop_unique {data : List UInt8} {i stop stop' : ℕ} (h : RunAt data i stop)
    (h' : RunAt data i stop') : stop = stop' := by
  rcases Nat.lt_trichotomy stop stop' with hlt | heq | hlt
  · exact absurd h.nul (h'.inside stop h.le hlt)
  · exact heq
  · exact absurd h'.nul (h.inside stop' h'.le hlt)

theorem length_slice {data : List UInt8} {i stop : ℕ} (h : RunAt data i stop) :
    (slice data i stop).length = stop - i := by
  obtain ⟨hlt, -⟩ := List.getElem?_eq_some_iff.mp h.nul
  rw [slice, List.length_take, List.length_drop]
  omega

/-- The first run from `i` on that is a literal longer than five bytes is `v`. -/
def FirstLongFrom (data : List UInt8) (i : ℕ) (v : String) : Prop :=
  ∃ a stop, i ≤ a ∧ LiteralAt data a stop v ∧ a + 5 < stop ∧
    ∀ a' stop' v', i ≤ a' → LiteralAt data a' stop' v' → a' + 5 < stop' → a ≤ a'

/-- A run that is no long literal can be left out. -/
theorem firstLongFrom_next {data : List UInt8} {i stop : ℕ} (h : RunAt data i stop)
    (hno : ∀ v, LiteralAt data i stop v → ¬ i + 5 < stop) (v : String) :
    FirstLongFrom data (stop + 1) v ↔ FirstLongFrom data i v := by
  -- a long literal from `i` on starts after this run
  have hafter : ∀ {a stop' v'}, i ≤ a → LiteralAt data a stop' v' → a + 5 < stop' →
      stop + 1 ≤ a := by
    intro a stop' v' hle hlit hlong
    rcases Nat.lt_or_ge i a with hlt | hge
    · exact h.lt_of_lt hlit.run hlt
    · obtain rfl : a = i := by omega
      obtain rfl := h.stop_unique hlit.run
      exact absurd hlong (hno v' hlit)
  have hle := h.le
  constructor
  · rintro ⟨a, stop', hle', hlit, hlong, hfirst⟩
    exact ⟨a, stop', by omega, hlit, hlong, fun a' s' v' hi hl hlg =>
      hfirst a' s' v' (hafter hi hl hlg) hl hlg⟩
  · rintro ⟨a, stop', hle', hlit, hlong, hfirst⟩
    exact ⟨a, stop', hafter hle' hlit hlong, hlit, hlong, fun a' s' v' hi hl hlg =>
      hfirst a' s' v' (by omega) hl hlg⟩

/-- The run that the next NUL ends. -/
theorem RunStart.runAt {data : List UInt8} {i p : ℕ} (h : RunStart data i)
    (hp : ((data.drop i).findIdx? fun b => b = 0) = some p) : RunAt data i (i + p) := by
  obtain ⟨hnul, hinside⟩ := findIdx_drop_eq_some_iff.mp hp
  exact ⟨h, Nat.le_add_right i p, hnul, hinside⟩

/-- **What the loop returns from the start of a run on**: the first literal that is
longer than five bytes. -/
theorem scanFrom_eq_some_iff {data : List UInt8} {i : ℕ} (hstart : RunStart data i) (v : String) :
    scanFrom data i = some v ↔ FirstLongFrom data i v := by
  fun_induction scanFrom data i with
  | case1 i hlt hnone =>
    -- no NUL is left
    simp only [reduceCtorEq, false_iff]
    rintro ⟨a, stop, hle, hlit, -, -⟩
    have hmem : (0 : UInt8) ∈ data.drop i := by
      have hnul := hlit.run.nul
      have := hlit.run.le
      rw [show stop = i + (stop - i) by omega, ← List.getElem?_drop] at hnul
      exact List.mem_of_getElem? hnul
    have hno := List.findIdx?_eq_none_iff.mp hnone 0 hmem
    simp at hno
  | case2 i hlt p hp hlong s hs =>
    have hrun : RunAt data i (i + p) := hstart.runAt hp
    obtain ⟨hliteral, hbytes⟩ := accepts_iff.mp hs
    have hlit : LiteralAt data i (i + p) s := ⟨hrun, hliteral, hbytes⟩
    rw [Option.some.injEq]
    constructor
    · rintro rfl
      exact ⟨i, i + p, le_rfl, hlit, hlong, fun a' _ _ hle _ _ => hle⟩
    · rintro ⟨a, stop, hle, hlit', hlong', hfirst⟩
      obtain rfl : a = i := Nat.le_antisymm (hfirst i (i + p) s le_rfl hlit hlong) hle
      obtain rfl := hrun.stop_unique hlit'.run
      exact String.toByteArray_inj.mp (hbytes.trans hlit'.bytes.symm)
  | case3 i hlt p hp hlong hs ih =>
    have hrun : RunAt data i (i + p) := hstart.runAt hp
    rw [ih (Or.inr ⟨i + p, rfl, hrun.nul⟩)]
    refine firstLongFrom_next hrun (fun v' hlit => ?_) v
    rw [accepts_iff.mpr ⟨hlit.literal, hlit.bytes⟩] at hs
    cases hs
  | case4 i hlt p hp hshort ih =>
    have hrun : RunAt data i (i + p) := hstart.runAt hp
    rw [ih (Or.inr ⟨i + p, rfl, hrun.nul⟩)]
    exact firstLongFrom_next hrun (fun v' _ => hshort) v
  | case5 i hge =>
    simp only [reduceCtorEq, false_iff]
    rintro ⟨a, stop, hle, hlit, -, -⟩
    obtain ⟨hlt, -⟩ := List.getElem?_eq_some_iff.mp hlit.run.nul
    have := hlit.run.le
    omega

/-- Where there is a literal there is a first one. -/
theorem LiteralAt.exists_first {data : List UInt8} {i stop : ℕ} {v : String}
    (h : LiteralAt data i stop v) : ∃ a stop' v', LiteralAt data a stop' v' ∧
      ∀ b stop'' v'', LiteralAt data b stop'' v'' → a ≤ b := by
  classical
  have hex : ∃ a stop' v', LiteralAt data a stop' v' := ⟨i, stop, v, h⟩
  obtain ⟨stop', v', hlit⟩ := Nat.find_spec hex
  exact ⟨Nat.find hex, stop', v', hlit, fun b stop'' v'' hb =>
    Nat.find_min' hex ⟨stop'', v'', hb⟩⟩

/-- **The scan finds exactly the first version literal, if there is one, exactly when
it is longer than five bytes.** -/
theorem scanForVersion_exact_iff (data : List UInt8) :
    (∀ v, scanForVersion data = some v ↔ FirstLiteral data v) ↔
      ∀ v, FirstLiteral data v → 5 < v.utf8ByteSize := by
  have hsize : ∀ {i stop v}, LiteralAt data i stop v → v.utf8ByteSize = stop - i := by
    intro i stop v h
    rw [← String.size_toByteArray, h.bytes, List.size_toByteArray, length_slice h.run]
  have hscan : ∀ v, scanForVersion data = some v ↔ FirstLongFrom data 0 v :=
    fun v => scanFrom_eq_some_iff (Or.inl rfl) v
  constructor
  · intro h v hv
    obtain ⟨a, stop, -, hlit, hlong, -⟩ := (hscan v).mp ((h v).mpr hv)
    rw [hsize hlit]
    omega
  · intro h v
    rw [hscan]
    constructor
    · rintro ⟨a, stop, -, hlit, hlong, hfirst⟩
      -- the first literal is long, so the first long one is not after it
      obtain ⟨b, stop', w, hlit', hfirst'⟩ := hlit.exists_first
      have hsize' := h w ⟨b, stop', hlit', hfirst'⟩
      rw [hsize hlit'] at hsize'
      have hab : a ≤ b := hfirst b stop' w (Nat.zero_le b) hlit' (by omega)
      refine ⟨a, stop, hlit, fun a' s' v' hlit'' => ?_⟩
      exact Nat.le_trans hab (hfirst' a' s' v' hlit'')
    · rintro ⟨a, stop, hlit, hfirst⟩
      have hlong := h v ⟨a, stop, hlit, hfirst⟩
      rw [hsize hlit] at hlong
      exact ⟨a, stop, Nat.zero_le a, hlit, by omega, fun a' s' v' _ hl _ => hfirst a' s' v' hl⟩

/-- **The literal `8.0.0` is not found.** -/
theorem scanForVersion_misses :
    ∃ data : List UInt8, FirstLiteral data "8.0.0" ∧ scanForVersion data = none := by
  refine ⟨[0x38, 0x2E, 0x30, 0x2E, 0x30, 0x00], ⟨0, 5, ⟨⟨Or.inl rfl, by decide, rfl, ?_⟩, ?_, ?_⟩,
    fun i' _ _ _ => Nat.zero_le i'⟩, ?_⟩
  · decide
  · exact ⟨[0x30], [0x30], ⟨by decide, by decide, by simp⟩, ⟨by decide, by decide, by simp⟩, rfl⟩
  · decide
  · simp [scanForVersion, scanFrom, List.findIdx?_cons]

end PhpFastProfile
