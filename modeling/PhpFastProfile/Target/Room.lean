import PhpFastProfile.Target.Checked

/-!
# Pointers that leave no room

The readers add field offsets to pointers they have copied from the target, with the
plain `+`.  A pointer close to the end of the address space overflows the sum, which
panics in a build with overflow checks.  Here is what the memory has to be like for
this not to happen to a string, to a hash table and to the lookup in `$_SERVER`: every
pointer that is followed leaves room for the fields that are read behind it.

## Main definitions

* `StringFits`, `TableFits` — the pointers behind a string and behind a hash table.
* `ScanFits` — the buckets of an array, up to the one a scan settles on.
* `RequestFits` — the pointers `request_var` follows.

## Main results

* `noPanic_readZendString_iff`, `noPanic_htGetString_iff` — when the readers do not panic.
* `noPanic_scanBuckets_iff` — a scan panics at the first bucket without room.
* `noPanic_requestVar_iff` — when `request_var` does not panic.
-/

namespace PhpFastProfile

/-! ### Strings -/

/-- The string at `a` has room for its length and, unless it is empty, for its text. -/
def StringFits (rem : Remote) (a : UInt64) : Prop :=
  Fits a zstr.LEN ∧ ∀ len, rem.readU64 (a + zstr.LEN) = .ok len → len ≠ 0 → Fits a zstr.VAL

/-- The string at `a` can be read. -/
def StringReads (rem : Remote) (a : UInt64) : Prop :=
  ∃ len, rem.readU64 (a + zstr.LEN) = .ok len ∧
    (len ≠ 0 → ∃ bytes, rem.readVec (a + zstr.VAL) (min len.toNat MAX_STR_LEN) = .ok bytes)

section Strings

variable {rem : Remote} {a : UInt64}

theorem cut_eq_zero_iff {len : UInt64} : min len.toNat MAX_STR_LEN = 0 ↔ len = 0 := by
  rw [← UInt64.toNat_inj]
  show min len.toNat 4096 = 0 ↔ len.toNat = 0
  omega

theorem tracks_readZendString (rem : Remote) (a : UInt64) :
    Tracks (readZendString .checked rem a) (readZendString .release rem a) := by
  unfold readZendString
  refine (Tracks.add _ _).bind fun b => (Tracks.refl _).bind fun len => ?_
  refine Tracks.ite (Tracks.refl _) ((Tracks.add _ _).bind fun b => Tracks.refl _)

theorem noPanic_readZendString_iff :
    NoPanic (readZendString .checked rem a) ↔ StringFits rem a := by
  unfold readZendString StringFits
  rw [noPanic_add_bind, noPanic_readU64_bind]
  refine and_congr_right fun _ => forall₂_congr fun len _ => ?_
  have htext : NoPanic (do
      let bytes ← rem.readVec (a + zstr.VAL) (min len.toNat MAX_STR_LEN)
      return Utf8.fromUtf8Lossy bytes : Outcome String) :=
    noPanic_bind (rem.noPanic_read _ _) fun bytes => noPanic_ok _
  rw [noPanic_unless_iff, cut_eq_zero_iff, noPanic_add_bind, and_iff_left htext]

theorem readZendString_eq_ok_iff :
    (∃ s, readZendString .release rem a = .ok s) ↔ StringReads rem a := by
  unfold readZendString StringReads
  simp only [Build.release_add, ok_bind]
  constructor
  · rintro ⟨s, h⟩
    obtain ⟨len, hlen, h⟩ := bind_eq_ok.mp h
    refine ⟨len, hlen, fun hne => ?_⟩
    rw [if_neg (mt cut_eq_zero_iff.mp hne)] at h
    obtain ⟨bytes, hbytes, -⟩ := bind_eq_ok.mp h
    exact ⟨bytes, hbytes⟩
  · rintro ⟨len, hlen, hbytes⟩
    by_cases hne : len = 0
    · exact ⟨"", bind_eq_ok.mpr ⟨len, hlen, if_pos (cut_eq_zero_iff.mpr hne)⟩⟩
    · obtain ⟨bytes, hbytes⟩ := hbytes hne
      refine ⟨Utf8.fromUtf8Lossy bytes, bind_eq_ok.mpr ⟨len, hlen, ?_⟩⟩
      rw [if_neg (mt cut_eq_zero_iff.mp hne), hbytes]
      rfl

end Strings

/-! ### Hash tables -/

/-- The string that the word at `a` points to has room. -/
def PointeeFits (rem : Remote) (a : UInt64) : Prop :=
  ∀ p, rem.readU64 a = .ok p → StringFits rem p

/-- The key of the bucket has room. -/
def KeyFits (rem : Remote) (b : UInt64) : Prop :=
  Fits b bucket.KEY ∧ ∀ keyPtr, rem.readU64 (b + bucket.KEY) = .ok keyPtr → keyPtr ≠ 0 →
    StringFits rem keyPtr

/-- What `ht_get_string` takes for the value of a reference has room. -/
def ReferenceFits (rem : Remote) (r : UInt64) : Prop :=
  Fits r 16 ∧ Fits (r + 16) zval.TYPE_INFO ∧
    ∀ innerType, rem.readU32 (r + 16 + zval.TYPE_INFO) = .ok innerType →
      innerType.toUInt8 = zval.IS_STRING → PointeeFits rem (r + 16 + zval.VALUE)

/-- The value of the bucket has room, when its tag is `tag`. -/
def ValueFits (rem : Remote) (b : UInt64) (tag : UInt8) : Prop :=
  (tag = zval.IS_REFERENCE → ∀ r, rem.readU64 (b + bucket.VAL + zval.VALUE) = .ok r → r ≠ 0 →
    ReferenceFits rem r) ∧
  (tag = zval.IS_STRING → PointeeFits rem (b + bucket.VAL + zval.VALUE))

/-- The bucket has room for its tag and, unless it is a tombstone, for its key and,
under the wanted key, for its value. -/
def EntryFits (rem : Remote) (key : String) (b : UInt64) : Prop :=
  Fits (b + bucket.VAL) zval.TYPE_INFO ∧
    ∀ typeInfo, rem.readU32 (b + bucket.VAL + zval.TYPE_INFO) = .ok typeInfo →
      typeInfo.toUInt8 ≠ zval.IS_UNDEF →
        KeyFits rem b ∧ (bucketKey rem b = some key → ValueFits rem b typeInfo.toUInt8)

/-- The buckets of an array have room, up to the first that is not passed over. -/
def ScanFits (arData : UInt64) (nUsed : UInt32) (passes fits : UInt64 → Prop) : Prop :=
  ∀ i < min nUsed.toNat MAX_BUCKETS,
    (∀ j < i, passes (arData + UInt64.ofNat j * bucket.SIZE)) →
      arData.toNat + i * 32 < 2 ^ 64 ∧ fits (arData + UInt64.ofNat i * bucket.SIZE)

/-- The hash table at `addr` has room, as far as the scan for `key` gets. -/
def TableFits (rem : Remote) (addr : UInt64) (key : String) : Prop :=
  Fits addr ht.N_NUM_USED ∧
    ∀ nUsed, rem.readU32 (addr + ht.N_NUM_USED) = .ok nUsed →
      ∀ arData, rem.readU64 (addr + ht.AR_DATA) = .ok arData → arData ≠ 0 →
        ScanFits arData nUsed (fun b => liveKey rem b ≠ some key) (EntryFits rem key)

section Tables

variable {rem : Remote} {key : String} {b : UInt64}

/-- Following a string pointer. -/
theorem noPanic_pointee_iff {a : UInt64} :
    NoPanic (do let p ← rem.readU64 a; return some (← readZendString .checked rem p) : Outcome _) ↔
      PointeeFits rem a := by
  rw [noPanic_readU64_bind]
  refine forall₂_congr fun p _ => ?_
  rw [noPanic_map_iff, noPanic_readZendString_iff]

/-- The bucket's value is at offset zero, and so is the word in it. -/
theorem noPanic_value_bind {β : Type} {a off : UInt64} {f : UInt64 → Outcome β}
    (hoff : Fits a off) :
    NoPanic (do let x ← Build.checked.add a off; let y ← Build.checked.add x zval.VALUE; f y) ↔
      NoPanic (f (a + off + zval.VALUE)) := by
  rw [noPanic_add_bind, noPanic_add_bind, and_iff_right hoff]
  exact and_iff_right (fits_zero _)

theorem noPanic_htValue_iff {tag : UInt8} :
    NoPanic (htValue .checked rem b tag) ↔ ValueFits rem b tag := by
  have hval : Fits b bucket.VAL := fits_zero b
  unfold htValue ValueFits
  rw [noPanic_ite_iff, noPanic_value_bind hval, noPanic_readU64_bind]
  refine and_congr (imp_congr_right fun _ => forall₂_congr fun r _ => ?_) ?_
  · rw [noPanic_unless_iff]
    refine imp_congr_right fun _ => ?_
    unfold ReferenceFits
    have htype : Tracks
        (do rem.readU32 (← Build.checked.add (← Build.checked.add r 16) zval.TYPE_INFO) :
          Outcome UInt32)
        (rem.readU32 (r + 16 + zval.TYPE_INFO)) :=
      (Tracks.add _ _).bind fun _ => (Tracks.add _ _).bind fun _ => Tracks.refl _
    rw [(htype.unwrapOr 0).noPanic_bind_iff, noPanic_unwrapOr_iff, noPanic_add_bind,
      noPanic_add_bind, and_iff_left (rem.noPanic_readU32 _), and_assoc]
    refine and_congr_right fun hfits => and_congr_right fun _ => ?_
    -- an unreadable type word counts as zero, which is not the string tag
    rw [forall_unwrapOr_iff (rem.noPanic_readU32 _)
      (noPanic_when_iff.mpr fun htag => absurd htag (by decide))]
    refine forall₂_congr fun innerType _ => ?_
    rw [noPanic_when_iff, noPanic_value_bind hfits, noPanic_pointee_iff]
  · -- the tag of a string is not the one of a reference
    rw [noPanic_when_iff, noPanic_value_bind hval, noPanic_pointee_iff]
    constructor
    · rintro h rfl
      exact h (by decide) rfl
    · exact fun h _ => h

theorem tracks_htValue (rem : Remote) (b : UInt64) (tag : UInt8) :
    Tracks (htValue .checked rem b tag) (htValue .release rem b tag) := by
  have hstring : ∀ a off, Tracks
      (do let p ← rem.readU64 (← Build.checked.add (← Build.checked.add a off) zval.VALUE)
          return some (← readZendString .checked rem p) : Outcome _)
      (do let p ← rem.readU64 (← Build.release.add (← Build.release.add a off) zval.VALUE)
          return some (← readZendString .release rem p)) := fun a off =>
    (Tracks.add _ _).bind fun _ => (Tracks.add _ _).bind fun _ => (Tracks.refl _).bind fun p =>
      (tracks_readZendString rem p).bind fun _ => Tracks.refl _
  unfold htValue
  refine Tracks.ite ?_ (Tracks.ite (hstring _ _) (Tracks.refl _))
  refine (Tracks.add _ _).bind fun _ => (Tracks.add _ _).bind fun _ => ?_
  refine (Tracks.refl _).bind fun refPtr => Tracks.ite (Tracks.refl _) ?_
  refine (Tracks.unwrapOr ?_ _).bind fun innerType => Tracks.ite (hstring _ _) (Tracks.refl _)
  exact (Tracks.add _ _).bind fun _ => (Tracks.add _ _).bind fun _ => Tracks.refl _

/-- The part of a round that the two scans share: `found` runs when the key of the bucket
is the wanted one. -/
theorem noPanic_keyRound_iff {found : Outcome (Option (Option String))} :
    NoPanic (do
      let keyPtr ← Outcome.unwrapOr (do rem.readU64 (← Build.checked.add b bucket.KEY)) 0
      if keyPtr = 0 then return none
      match ← attempt (readZendString .checked rem keyPtr) with
      | none => return none
      | some k => if k ≠ key then return none else found) ↔
    KeyFits rem b ∧ (bucketKey rem b = some key → NoPanic found) := by
  have hptr : Tracks (do rem.readU64 (← Build.checked.add b bucket.KEY) : Outcome UInt64)
      (rem.readU64 (b + bucket.KEY)) := (Tracks.add _ _).bind fun _ => Tracks.refl _
  unfold KeyFits
  rw [(hptr.unwrapOr 0).noPanic_bind_iff, noPanic_unwrapOr_iff, noPanic_add_bind,
    and_iff_left (rem.noPanic_readU64 _), and_assoc]
  refine and_congr_right fun _ => ?_
  rw [forall_unwrapOr_iff (rem.noPanic_readU64 _)
    (noPanic_unless_iff.mpr fun hne => absurd rfl hne)]
  cases hread : rem.readU64 (b + bucket.KEY) with
  | error e => simp [bucketKey, hread]
  | ok keyPtr =>
    by_cases hnull : keyPtr = 0
    · simp [bucketKey, hread, hnull, noPanic_ok]
    · have hkey : bucketKey rem b = (readZendString .release rem keyPtr).toOption := by
        simp [bucketKey, hread, hnull]
      rw [hkey]
      simp only [Except.ok.injEq, forall_eq', hnull, if_false, ne_eq, not_false_eq_true,
        forall_const]
      rw [(tracks_readZendString rem keyPtr).noPanic_attempt_bind ?_, noPanic_readZendString_iff]
      · refine and_congr_right fun _ => ?_
        cases readZendString .release rem keyPtr with
        | error e => simp [Except.toOption]
        | ok k => by_cases hk : k = key <;> simp [Except.toOption, hk, noPanic_ok]
      · exact noPanic_ok none

theorem tracks_htRound (rem : Remote) (key : String) (b : UInt64) :
    Tracks (htRound .checked rem key b) (htRound .release rem key b) := by
  unfold htRound
  refine (Tracks.unwrapOr ?_ _).bind fun typeInfo => Tracks.ite (Tracks.refl _) ?_
  · exact (Tracks.add _ _).bind fun _ => (Tracks.add _ _).bind fun _ => Tracks.refl _
  refine (Tracks.unwrapOr ?_ _).bind fun keyPtr => Tracks.ite (Tracks.refl _) ?_
  · exact (Tracks.add _ _).bind fun _ => Tracks.refl _
  refine (tracks_readZendString rem keyPtr).attempt.bind fun k => ?_
  cases k with
  | none => exact Tracks.refl _
  | some k =>
    refine Tracks.ite (Tracks.refl _) ((tracks_htValue rem b _).bind fun _ => Tracks.refl _)

theorem noPanic_htRound_iff : NoPanic (htRound .checked rem key b) ↔ EntryFits rem key b := by
  have htype : Tracks
      (do rem.readU32 (← Build.checked.add (← Build.checked.add b bucket.VAL) zval.TYPE_INFO) :
        Outcome UInt32)
      (rem.readU32 (b + bucket.VAL + zval.TYPE_INFO)) :=
    (Tracks.add _ _).bind fun _ => (Tracks.add _ _).bind fun _ => Tracks.refl _
  have hval : Fits b bucket.VAL := fits_zero b
  unfold htRound EntryFits
  rw [(htype.unwrapOr 0).noPanic_bind_iff, noPanic_unwrapOr_iff, noPanic_add_bind,
    noPanic_add_bind, and_iff_left (rem.noPanic_readU32 _), and_iff_right hval]
  refine and_congr_right fun _ => ?_
  -- an unreadable type word counts as zero, the tag of a tombstone
  rw [forall_unwrapOr_iff (rem.noPanic_readU32 _)
    (noPanic_unless_iff.mpr fun htag => absurd (by decide) htag)]
  refine forall₂_congr fun typeInfo _ => ?_
  rw [noPanic_unless_iff]
  refine imp_congr_right fun _ => noPanic_keyRound_iff.trans ?_
  refine and_congr_right fun _ => imp_congr_right fun _ => ?_
  rw [noPanic_map_iff, noPanic_htValue_iff]

/-- The offset of a bucket does not overflow itself. -/
theorem toNat_bucketOffset {i : ℕ} (h : i < MAX_BUCKETS) :
    (UInt64.ofNat i * bucket.SIZE).toNat = i * 32 := by
  have hi : i < 4096 := h
  rw [UInt64.toNat_mul, UInt64.toNat_ofNat']
  show i % 2 ^ 64 * 32 % 2 ^ 64 = i * 32
  omega

section Scan

variable {round round' : UInt64 → Outcome (Option (Option String))}
  (h : ∀ b, Tracks (round b) (round' b))

include h

theorem tracks_scanBuckets (arData : UInt64) (nUsed : UInt32) :
    Tracks (scanBuckets .checked round arData nUsed)
      (scanBuckets .release round' arData nUsed) := by
  unfold scanBuckets
  refine Tracks.bind (Tracks.firstFrom (fun i => ?_) _ _) fun found => Tracks.refl _
  exact (Tracks.add _ _).bind fun b => h b

/-- **A scan panics at the first bucket without room, if it gets there.** -/
theorem noPanic_scanBuckets_iff {passes fits : UInt64 → Prop}
    (hpasses : ∀ b, round' b = .ok none ↔ passes b) (hfits : ∀ b, NoPanic (round b) ↔ fits b)
    {arData : UInt64} {nUsed : UInt32} :
    NoPanic (scanBuckets .checked round arData nUsed) ↔ ScanFits arData nUsed passes fits := by
  have htracks : ∀ i : ℕ, Tracks
      (do round (← Build.checked.add arData (UInt64.ofNat i * bucket.SIZE)))
      (round' (arData + UInt64.ofNat i * bucket.SIZE)) :=
    fun i => (Tracks.add _ _).bind fun b => h b
  unfold scanBuckets ScanFits
  rw [noPanic_map_iff, noPanic_firstFrom_iff htracks]
  simp only [Nat.zero_add, hpasses, noPanic_add_bind, hfits]
  refine forall₂_congr fun i hi => imp_congr_right fun _ => and_congr_left fun _ => ?_
  rw [Fits, toNat_bucketOffset (by omega)]

end Scan

theorem tracks_htGetString (rem : Remote) (addr : UInt64) (key : String) :
    Tracks (htGetString .checked rem addr key) (htGetString .release rem addr key) := by
  unfold htGetString
  refine (Tracks.add _ _).bind fun _ => (Tracks.refl _).bind fun nUsed => ?_
  refine (Tracks.add _ _).bind fun _ => (Tracks.refl _).bind fun arData => ?_
  exact Tracks.ite (Tracks.refl _) (tracks_scanBuckets (tracks_htRound rem key) _ _)

theorem noPanic_htGetString_iff {addr : UInt64} :
    NoPanic (htGetString .checked rem addr key) ↔ TableFits rem addr key := by
  unfold htGetString TableFits
  rw [noPanic_add_bind, noPanic_readU32_bind]
  refine and_congr_right fun hfits => forall₂_congr fun nUsed _ => ?_
  -- the array pointer comes before the number of buckets
  have hdata : Fits addr ht.AR_DATA := hfits.mono (by decide)
  rw [noPanic_add_bind, and_iff_right hdata, noPanic_readU64_bind]
  refine forall₂_congr fun arData _ => ?_
  rw [noPanic_unless_iff, noPanic_scanBuckets_iff (tracks_htRound rem key)
    (fun _ => htRound_eq_none_iff) fun _ => noPanic_htRound_iff, not_or]
  constructor
  · intro h hdata i hi
    exact h ⟨hdata, by rintro rfl; exact absurd hi (Nat.not_lt_zero i)⟩ i hi
  · exact fun h hne => h hne.1

end Tables

/-! ### `$_SERVER` -/

/-- The value of the `_SERVER` entry has room, as far as the scan for `key` gets. -/
def ServerFits (rem : Remote) (key : String) (b : UInt64) : Prop :=
  ∀ typeInfo, rem.readU32 (b + bucket.VAL + zval.TYPE_INFO) = .ok typeInfo →
    (typeInfo.toUInt8 = zval.IS_REFERENCE → ∀ r, rem.readU64 (b + bucket.VAL + zval.VALUE) = .ok r →
      Fits r 16 ∧ ∀ p, rem.readU64 (r + 16 + zval.VALUE) = .ok p → p ≠ 0 → TableFits rem p key) ∧
    (typeInfo.toUInt8 = zval.IS_ARRAY → ∀ p, rem.readU64 (b + bucket.VAL + zval.VALUE) = .ok p →
      p ≠ 0 → TableFits rem p key)

/-- The pointers `request_var` follows leave room. -/
def RequestFits (rem : Remote) (t : Target) (key : String) : Prop :=
  Fits t.executorGlobals t.layout.egSymbolTable ∧
  Fits (t.executorGlobals + t.layout.egSymbolTable) ht.N_NUM_USED ∧
  ∀ nUsed, rem.readU32 (t.executorGlobals + t.layout.egSymbolTable + ht.N_NUM_USED) = .ok nUsed →
    ∀ arData,
      rem.readU64 (t.executorGlobals + t.layout.egSymbolTable + ht.AR_DATA) = .ok arData →
      arData ≠ 0 → ScanFits arData nUsed (fun b => bucketKey rem b ≠ some "_SERVER") fun b =>
        KeyFits rem b ∧ (bucketKey rem b = some "_SERVER" → ServerFits rem key b)

section Request

variable {rem : Remote} {key : String} {b : UInt64}

theorem tracks_serverArray (rem : Remote) (b : UInt64) :
    Tracks (Target.serverArray .checked rem b) (Target.serverArray .release rem b) := by
  unfold Target.serverArray
  refine (Tracks.add _ _).bind fun _ => (Tracks.add _ _).bind fun _ => ?_
  refine (Tracks.refl _).bind fun typeInfo => Tracks.ite ?_ (Tracks.ite ?_ (Tracks.refl _))
  · refine (Tracks.add _ _).bind fun _ => (Tracks.add _ _).bind fun _ => ?_
    refine (Tracks.refl _).bind fun r => ?_
    exact (Tracks.add _ _).bind fun _ => (Tracks.add _ _).bind fun _ => Tracks.refl _
  · exact (Tracks.add _ _).bind fun _ => (Tracks.add _ _).bind fun _ => Tracks.refl _

theorem tracks_symbolRound (rem : Remote) (key : String) (b : UInt64) :
    Tracks (Target.symbolRound .checked rem key b) (Target.symbolRound .release rem key b) := by
  unfold Target.symbolRound
  refine (Tracks.unwrapOr ?_ _).bind fun keyPtr => Tracks.ite (Tracks.refl _) ?_
  · exact (Tracks.add _ _).bind fun _ => Tracks.refl _
  refine (tracks_readZendString rem keyPtr).attempt.bind fun k => ?_
  cases k with
  | none => exact Tracks.refl _
  | some k =>
    refine Tracks.ite (Tracks.refl _) ((tracks_serverArray rem b).bind fun array => ?_)
    cases array with
    | none => exact Tracks.refl _
    | some p =>
      apply Tracks.ite (Tracks.refl _)
      exact (tracks_htGetString rem p key).bind fun _ => Tracks.refl _

/-- The lookup in the array that the word at `a` points to. -/
theorem noPanic_array_iff {a : UInt64} :
    NoPanic (do
      let p ← rem.readU64 a
      if p = 0 then return some none
      return some (← htGetString .checked rem p key) : Outcome (Option (Option String))) ↔
    ∀ p, rem.readU64 a = .ok p → p ≠ 0 → TableFits rem p key := by
  rw [noPanic_readU64_bind]
  refine forall₂_congr fun p _ => ?_
  rw [noPanic_unless_iff, noPanic_map_iff, noPanic_htGetString_iff]

/-- The lookup from the value of the `_SERVER` entry on. -/
theorem noPanic_server_iff (hkey : Fits b bucket.KEY) :
    NoPanic (do
      match ← Target.serverArray .checked rem b with
      | none => return some none
      | some arrayPtr =>
        if arrayPtr = 0 then return some none
        return some (← htGetString .checked rem arrayPtr key) : Outcome (Option (Option String))) ↔
    ServerFits rem key b := by
  have hval : Fits b bucket.VAL := fits_zero b
  have htype : Fits (b + bucket.VAL) zval.TYPE_INFO := by
    have hzero : b + bucket.VAL = b := UInt64.add_zero b
    rw [hzero]
    exact hkey.mono (by decide)
  unfold Target.serverArray ServerFits
  rw [bind_assoc, noPanic_add_bind, and_iff_right hval, bind_assoc, noPanic_add_bind,
    and_iff_right htype, bind_assoc, noPanic_readU32_bind]
  refine forall₂_congr fun typeInfo _ => ?_
  by_cases href : typeInfo.toUInt8 = zval.IS_REFERENCE
  · have harr : typeInfo.toUInt8 ≠ zval.IS_ARRAY := by
      rw [href]
      decide
    rw [if_pos href, imp_iff_right href, and_iff_left fun h => absurd h harr]
    simp only [bind_assoc, pure_bind]
    rw [noPanic_value_bind hval, noPanic_readU64_bind]
    refine forall₂_congr fun r _ => ?_
    rw [noPanic_add_bind]
    refine and_congr_right fun _ => ?_
    have hinner : Fits (r + 16) zval.VALUE := fits_zero _
    rw [noPanic_add_bind, and_iff_right hinner]
    exact noPanic_array_iff
  · rw [if_neg href, and_iff_right fun h => absurd h href]
    by_cases harr : typeInfo.toUInt8 = zval.IS_ARRAY
    · rw [if_pos harr, imp_iff_right harr]
      simp only [bind_assoc, pure_bind]
      rw [noPanic_value_bind hval]
      exact noPanic_array_iff
    · rw [if_neg harr]
      exact iff_of_true (noPanic_ok _) fun h => absurd h harr

theorem noPanic_symbolRound_iff : NoPanic (Target.symbolRound .checked rem key b) ↔
    KeyFits rem b ∧ (bucketKey rem b = some "_SERVER" → ServerFits rem key b) := by
  refine noPanic_keyRound_iff.trans ?_
  exact and_congr_right fun hkey => imp_congr_right fun _ => noPanic_server_iff hkey.1

/-- A round goes on exactly when its bucket is not called `_SERVER`. -/
theorem symbolRound_eq_none_iff : Target.symbolRound .release rem key b = .ok none ↔
    bucketKey rem b ≠ some "_SERVER" := by
  rw [symbolRound_eq]
  by_cases hkey : bucketKey rem b = some "_SERVER"
  · rw [if_pos hkey]
    refine iff_of_false (fun h => ?_) fun hne => hne hkey
    obtain ⟨array, -, h⟩ := bind_eq_ok.mp h
    cases array with
    | none => cases h
    | some p =>
      by_cases hnull : p = 0
      · rw [hnull] at h
        cases h
      · simp only [hnull, if_false] at h
        obtain ⟨v, -, h⟩ := bind_eq_ok.mp h
        cases h
  · rw [if_neg hkey]
    exact iff_of_true rfl hkey

/-- **`request_var` does not panic exactly when the pointers it follows leave room.** -/
theorem noPanic_requestVar_iff {t : Target} :
    NoPanic (t.requestVar .checked rem key) ↔ RequestFits rem t key := by
  unfold Target.requestVar Target.requestVarImpl RequestFits
  rw [noPanic_map_iff, noPanic_attempt_iff, noPanic_add_bind, noPanic_add_bind,
    noPanic_readU32_bind]
  refine and_congr_right fun _ => and_congr_right fun hfits => forall₂_congr fun nUsed _ => ?_
  have hdata : Fits (t.executorGlobals + t.layout.egSymbolTable) ht.AR_DATA :=
    hfits.mono (by decide)
  rw [noPanic_add_bind, and_iff_right hdata, noPanic_readU64_bind]
  refine forall₂_congr fun arData _ => ?_
  rw [noPanic_unless_iff]
  refine imp_congr_right fun _ => noPanic_scanBuckets_iff (tracks_symbolRound rem key)
    (fun _ => symbolRound_eq_none_iff) fun _ => noPanic_symbolRound_iff

end Request

end PhpFastProfile
