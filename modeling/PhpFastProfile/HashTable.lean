import PhpFastProfile.Target

/-!
# Hash tables in memory

What the two bucket scans see of a hash table.  A scan only asks for the key of
a bucket and, at the bucket it settles on, for the value; the table itself is
described by the list of its buckets.  Everything here is about the release
build, where address arithmetic wraps and nothing in a scan panics.

## Main definitions

* `bucketKey`, `liveKey` — the key a bucket reads as, and that of a live bucket.
* `Zval`, `Bucket`, `TableAt rem addr bs` — the memory holds the buckets `bs`.
* `Holds rem addr key s` — the table at `addr` holds the string `s` under `key`.

## Main results

* `htRound_eq`, `symbolRound_eq` — what one round of each scan does.
* `htGetString_eq_some_iff` — **`ht_get_string` returns the string the table holds.**
-/

namespace PhpFastProfile

/-! ### Nothing panics in a release build -/

section Release

variable (rem : Remote)

theorem attempt_eq {α : Type} {x : Outcome α} (hx : NoPanic x) :
    (attempt x : Outcome (Option α)) = .ok x.toOption := by
  cases hxs : x with
  | ok a => rfl
  | error s =>
    obtain ⟨e, rfl⟩ := hx.eq_err hxs
    rfl

theorem noPanic_readZendString (addr : UInt64) : NoPanic (readZendString .release rem addr) := by
  unfold readZendString
  simp only [Build.release_add, ok_bind]
  refine noPanic_bind (rem.noPanic_readU64 _) fun len => noPanic_ite (noPanic_ok _) ?_
  exact noPanic_bind (rem.noPanic_read _ _) fun bytes => noPanic_ok _

theorem noPanic_htValue (b : UInt64) (tag : UInt8) : NoPanic (htValue .release rem b tag) := by
  have hstr : ∀ addr, NoPanic
      (do let p ← rem.readU64 addr; return some (← readZendString .release rem p) : Outcome _) :=
    fun addr => noPanic_bind (rem.noPanic_readU64 _) fun p =>
      noPanic_bind (noPanic_readZendString rem p) fun v => noPanic_ok _
  unfold htValue
  simp only [Build.release_add, ok_bind]
  refine noPanic_ite ?_ (noPanic_ite (hstr _) (noPanic_ok _))
  refine noPanic_bind (rem.noPanic_readU64 _) fun refPtr => noPanic_ite (noPanic_ok _) ?_
  refine noPanic_bind (noPanic_unwrapOr (rem.noPanic_readU32 _) _) fun innerType => ?_
  exact noPanic_ite (hstr _) (noPanic_ok _)

end Release

/-! ### Buckets -/

/-- The key a bucket reads as: none when its key pointer is null, or when the
pointer or the string cannot be read. -/
def bucketKey (rem : Remote) (b : UInt64) : Option String :=
  match rem.readU64 (b + bucket.KEY) with
  | .error _ => none
  | .ok keyPtr => if keyPtr = 0 then none else (readZendString .release rem keyPtr).toOption

/-- The key of a live bucket. -/
def liveKey (rem : Remote) (b : UInt64) : Option String :=
  match rem.readU32 (b + bucket.VAL + zval.TYPE_INFO) with
  | .error _ => none
  | .ok typeInfo => if typeInfo.toUInt8 = zval.IS_UNDEF then none else bucketKey rem b

/-- A `zval`: the value word and the type word, whose low byte is the tag. -/
structure Zval where
  value : UInt64
  typeInfo : UInt32
  deriving DecidableEq, Repr

/-- The type tag: the low byte of `type_info`. -/
def Zval.tag (z : Zval) : UInt8 := z.typeInfo.toUInt8

/-- The memory holds the zval at `addr`. -/
def ZvalAt (rem : Remote) (addr : UInt64) (z : Zval) : Prop :=
  rem.readU64 (addr + zval.VALUE) = .ok z.value ∧
    rem.readU32 (addr + zval.TYPE_INFO) = .ok z.typeInfo

/-- A memory holds one zval at an address. -/
theorem ZvalAt.unique {rem : Remote} {addr : UInt64} {z z' : Zval} (h : ZvalAt rem addr z)
    (h' : ZvalAt rem addr z') : z = z' := by
  obtain ⟨value, typeInfo⟩ := z
  obtain ⟨value', typeInfo'⟩ := z'
  obtain rfl : value = value' := Except.ok.inj (h.1.symm.trans h'.1)
  obtain rfl : typeInfo = typeInfo' := Except.ok.inj (h.2.symm.trans h'.2)
  rfl

/-- The zval is a string that reads as `s`. -/
def TextOf (rem : Remote) (z : Zval) (s : String) : Prop :=
  z.tag = zval.IS_STRING ∧ readZendString .release rem z.value = .ok s

/-- The zval that stands 16 bytes into the reference at `r` is a string that
reads as `s`. -/
def InnerText (rem : Remote) (r : UInt64) (s : String) : Prop :=
  ∃ z, ZvalAt rem (r + 16) z ∧ TextOf rem z s

/-- The value of the bucket at `b` is taken for the string `s`. -/
def BucketText (rem : Remote) (b : UInt64) (s : String) : Prop :=
  ∃ z, ZvalAt rem (b + bucket.VAL) z ∧
    (TextOf rem z s ∨ z.tag = zval.IS_REFERENCE ∧ z.value ≠ 0 ∧ InnerText rem z.value s)

/-- The table at `addr` holds the string `s` under `key`: the first live bucket
with that key among the first 4096 does. -/
def Holds (rem : Remote) (addr : UInt64) (key s : String) : Prop :=
  ∃ nUsed arData, rem.readU32 (addr + ht.N_NUM_USED) = .ok nUsed ∧
    rem.readU64 (addr + ht.AR_DATA) = .ok arData ∧ arData ≠ 0 ∧
    ∃ i < min nUsed.toNat MAX_BUCKETS,
      (∀ j < i, liveKey rem (arData + UInt64.ofNat j * bucket.SIZE) ≠ some key) ∧
      liveKey rem (arData + UInt64.ofNat i * bucket.SIZE) = some key ∧
      BucketText rem (arData + UInt64.ofNat i * bucket.SIZE) s

/-! ### The rounds of the two scans -/

section Rounds

variable {rem : Remote} {key : String} {b : UInt64}

/-- Following a string pointer. -/
theorem readString_eq_some_iff {addr : UInt64} {s : String} :
    (do let p ← rem.readU64 addr; return some (← readZendString .release rem p) : Outcome _)
        = .ok (some s) ↔
      ∃ p, rem.readU64 addr = .ok p ∧ readZendString .release rem p = .ok s := by
  constructor
  · intro h
    obtain ⟨p, hp, h⟩ := bind_eq_ok.mp h
    obtain ⟨t, ht, h⟩ := bind_eq_ok.mp h
    exact ⟨p, hp, ht.trans (congrArg Except.ok (Option.some.inj (Except.ok.inj h)))⟩
  · rintro ⟨p, hp, hs⟩
    exact bind_eq_ok.mpr ⟨p, hp, bind_eq_ok.mpr ⟨s, hs, rfl⟩⟩

/-- The zval a reference is taken to hold. -/
theorem innerText_iff {r : UInt64} {s : String} :
    (∃ innerType, rem.readU32 (r + 16 + zval.TYPE_INFO) = .ok innerType ∧
        innerType.toUInt8 = zval.IS_STRING ∧ ∃ p, rem.readU64 (r + 16 + zval.VALUE) = .ok p ∧
          readZendString .release rem p = .ok s) ↔ InnerText rem r s := by
  constructor
  · rintro ⟨innerType, htype, htag, p, hp, hs⟩
    exact ⟨⟨p, innerType⟩, ⟨hp, htype⟩, htag, hs⟩
  · rintro ⟨z, ⟨hp, htype⟩, htag, hs⟩
    exact ⟨z.typeInfo, htype, htag, z.value, hp, hs⟩

/-- The string of a reference. -/
theorem htValue_reference {s : String} :
    htValue .release rem b zval.IS_REFERENCE = .ok (some s) ↔
      ∃ r, rem.readU64 (b + bucket.VAL + zval.VALUE) = .ok r ∧ r ≠ 0 ∧ InnerText rem r s := by
  unfold htValue
  rw [if_pos rfl]
  simp only [Build.release_add, ok_bind, (rem.noPanic_readU32 _).unwrapOr]
  constructor
  · intro h
    obtain ⟨r, hr, h⟩ := bind_eq_ok.mp h
    refine ⟨r, hr, ?_⟩
    split at h
    · exact absurd (Except.ok.inj h) (by simp)
    · next hnull =>
      refine ⟨hnull, innerText_iff.mp ?_⟩
      change (if _ then _ else _) = _ at h
      split at h
      · next htag =>
        -- an unreadable inner type counts as zero, which is not the string tag
        cases htype : rem.readU32 (r + 16 + zval.TYPE_INFO) with
        | error e =>
          rw [htype] at htag
          exact absurd (show (0 : UInt32).toUInt8 = zval.IS_STRING from htag) (by decide)
        | ok innerType =>
          rw [htype] at htag
          exact ⟨innerType, rfl, htag, readString_eq_some_iff.mp h⟩
      · exact absurd (Except.ok.inj h) (by simp)
  · rintro ⟨r, hr, hnull, hinner⟩
    obtain ⟨innerType, htype, htag, hstr⟩ := innerText_iff.mpr hinner
    refine bind_eq_ok.mpr ⟨r, hr, ?_⟩
    rw [if_neg hnull, htype]
    change (if _ then _ else _) = _
    rw [if_pos (by exact htag)]
    exact readString_eq_some_iff.mpr hstr

/-- The string of a bucket is what its value is taken for. -/
theorem htValue_eq_some_iff {typeInfo : UInt32} {s : String}
    (ht : rem.readU32 (b + bucket.VAL + zval.TYPE_INFO) = .ok typeInfo) :
    htValue .release rem b typeInfo.toUInt8 = .ok (some s) ↔ BucketText rem b s := by
  -- the type word of the bucket is the one the round has read
  have hz : ∀ z, ZvalAt rem (b + bucket.VAL) z → z.typeInfo = typeInfo := by
    rintro z ⟨-, hz⟩
    rw [ht] at hz
    exact (Except.ok.inj hz).symm
  by_cases href : typeInfo.toUInt8 = zval.IS_REFERENCE
  · rw [href, htValue_reference]
    constructor
    · rintro ⟨r, hr, hnull, hinner⟩
      exact ⟨⟨r, typeInfo⟩, ⟨hr, ht⟩, Or.inr ⟨href, hnull, hinner⟩⟩
    · rintro ⟨z, hzat, ⟨htag, -⟩ | ⟨-, hnull, hinner⟩⟩
      · rw [Zval.tag, hz z hzat, href] at htag
        exact absurd htag (by decide)
      · exact ⟨z.value, hzat.1, hnull, hinner⟩
  · unfold htValue
    rw [if_neg href]
    by_cases hstr : typeInfo.toUInt8 = zval.IS_STRING
    · rw [if_pos hstr]
      refine readString_eq_some_iff.trans ?_
      constructor
      · rintro ⟨p, hp, hs⟩
        exact ⟨⟨p, typeInfo⟩, ⟨hp, ht⟩, Or.inl ⟨hstr, hs⟩⟩
      · rintro ⟨z, hzat, ⟨-, hs⟩ | ⟨htag, -⟩⟩
        · exact ⟨z.value, hzat.1, hs⟩
        · rw [Zval.tag, hz z hzat] at htag
          exact absurd htag href
    · rw [if_neg hstr]
      constructor
      · intro h
        exact absurd (Except.ok.inj h) (by simp)
      · rintro ⟨z, hzat, ⟨htag, -⟩ | ⟨htag, -⟩⟩
        · rw [Zval.tag, hz z hzat] at htag
          exact absurd htag hstr
        · rw [Zval.tag, hz z hzat] at htag
          exact absurd htag href

/-- The continuation of a scan after the key pointer: `found` runs when the key is
the wanted one. -/
theorem keyRound_eq {found : Outcome (Option (Option String))} :
    (do
      let keyPtr ← Outcome.unwrapOr (do rem.readU64 (← Build.release.add b bucket.KEY)) 0
      if keyPtr = 0 then return none
      match ← attempt (readZendString .release rem keyPtr) with
      | none => return none
      | some k => if k ≠ key then return none else found) =
    if bucketKey rem b = some key then found else .ok none := by
  simp only [Build.release_add, ok_bind, (rem.noPanic_readU64 _).unwrapOr]
  cases hptr : rem.readU64 (b + bucket.KEY) with
  -- an unreadable key pointer counts as null
  | error e => simp [bucketKey, hptr, Except.toOption]
  | ok keyPtr =>
    by_cases hnull : keyPtr = 0
    · simp [bucketKey, hptr, hnull, Except.toOption]
    · rw [attempt_eq (noPanic_readZendString rem _)]
      cases hkey : readZendString .release rem keyPtr with
      | error e => simp [bucketKey, hptr, hnull, hkey, Except.toOption]
      | ok k =>
        by_cases hk : k = key
        · simp [bucketKey, hptr, hnull, hkey, hk, Except.toOption]
        · simp [bucketKey, hptr, hnull, hkey, hk, Except.toOption]

/-- **A round of `ht_get_string`** settles on a bucket that is live under the key. -/
theorem htRound_eq : htRound .release rem key b =
    if liveKey rem b = some key then do
      let typeInfo ← rem.readU32 (b + bucket.VAL + zval.TYPE_INFO)
      return some (← htValue .release rem b typeInfo.toUInt8)
    else .ok none := by
  unfold htRound
  simp only [Build.release_add, ok_bind, (rem.noPanic_readU32 _).unwrapOr]
  cases htype : rem.readU32 (b + bucket.VAL + zval.TYPE_INFO) with
  | error e =>
    -- an unreadable type word counts as zero, the tag of a tombstone
    have hnone : liveKey rem b ≠ some key := by simp [liveKey, htype]
    rw [if_neg hnone]
    change (if (0 : UInt32).toUInt8 = zval.IS_UNDEF then _ else _) = _
    rw [if_pos (by decide)]
    rfl
  | ok typeInfo =>
    change (if typeInfo.toUInt8 = zval.IS_UNDEF then _ else _) = _
    by_cases hundef : typeInfo.toUInt8 = zval.IS_UNDEF
    · have hnone : liveKey rem b ≠ some key := by simp [liveKey, htype, hundef]
      rw [if_pos hundef, if_neg hnone]
      rfl
    · have hkey : liveKey rem b = bucketKey rem b := by
        simp only [liveKey, htype, hundef, if_false]
      rw [if_neg hundef, hkey]
      exact keyRound_eq

/-- **A round of the symbol-table scan** settles on a bucket that is called
`_SERVER`, live or not. -/
theorem symbolRound_eq : Target.symbolRound .release rem key b =
    if bucketKey rem b = some "_SERVER" then do
      match ← Target.serverArray .release rem b with
      | none => return some none
      | some arrayPtr =>
        if arrayPtr = 0 then return some none
        return some (← htGetString .release rem arrayPtr key)
    else .ok none :=
  keyRound_eq

end Rounds

/-! ### Whole scans -/

section Scans

variable {rem : Remote} {key : String}

/-- A scan returns a string when its first round that does not go on does. -/
theorem scanBuckets_eq_some_iff {round : UInt64 → Outcome (Option (Option String))}
    {arData : UInt64} {nUsed : UInt32} {s : String} :
    scanBuckets .release round arData nUsed = .ok (some s) ↔
      ∃ i < min nUsed.toNat MAX_BUCKETS,
        (∀ j < i, round (arData + UInt64.ofNat j * bucket.SIZE) = .ok none) ∧
        round (arData + UInt64.ofNat i * bucket.SIZE) = .ok (some (some s)) := by
  unfold scanBuckets
  simp only [Build.release_add, ok_bind]
  constructor
  · intro h
    obtain ⟨found, hfound, h⟩ := bind_eq_ok.mp h
    obtain rfl : found = some (some s) := Option.join_eq_some_iff.mp (Except.ok.inj h)
    obtain ⟨i, hi, hbefore, hround⟩ := Loop.firstFrom_eq_some_iff.mp hfound
    simp only [Nat.zero_add] at hbefore hround
    exact ⟨i, hi, hbefore, hround⟩
  · rintro ⟨i, hi, hbefore, hround⟩
    refine bind_eq_ok.mpr ⟨some (some s), Loop.firstFrom_eq_some_iff.mpr ⟨i, hi, ?_, ?_⟩, rfl⟩
    · simpa only [Nat.zero_add] using hbefore
    · simpa only [Nat.zero_add] using hround

/-- A round goes on exactly when its bucket is not live under the key. -/
theorem htRound_eq_none_iff {b : UInt64} :
    htRound .release rem key b = .ok none ↔ liveKey rem b ≠ some key := by
  rw [htRound_eq]
  by_cases hlive : liveKey rem b = some key
  · rw [if_pos hlive]
    refine ⟨fun h => ?_, fun h => absurd hlive h⟩
    obtain ⟨typeInfo, -, h⟩ := bind_eq_ok.mp h
    obtain ⟨v, -, h⟩ := bind_eq_ok.mp h
    exact absurd (Except.ok.inj h) (by simp)
  · rw [if_neg hlive]
    exact ⟨fun _ => hlive, fun _ => rfl⟩

/-- A round returns a string when its bucket is live under the key and its value
is taken for that string. -/
theorem htRound_eq_some_iff {b : UInt64} {s : String} :
    htRound .release rem key b = .ok (some (some s)) ↔
      liveKey rem b = some key ∧ BucketText rem b s := by
  rw [htRound_eq]
  by_cases hlive : liveKey rem b = some key
  · rw [if_pos hlive]
    constructor
    · intro h
      obtain ⟨typeInfo, htype, h⟩ := bind_eq_ok.mp h
      obtain ⟨v, hv, h⟩ := bind_eq_ok.mp h
      obtain rfl : v = some s := Option.some.inj (Except.ok.inj h)
      exact ⟨hlive, (htValue_eq_some_iff htype).mp hv⟩
    · rintro ⟨-, htext⟩
      obtain ⟨z, hz, -⟩ := id htext
      exact bind_eq_ok.mpr ⟨z.typeInfo, hz.2, bind_eq_ok.mpr
        ⟨some s, (htValue_eq_some_iff hz.2).mpr htext, rfl⟩⟩
  · rw [if_neg hlive]
    exact ⟨fun h => absurd (Except.ok.inj h) (by simp), fun h => absurd h.1 hlive⟩

/-- **`ht_get_string` returns the string the table holds under the key.** -/
theorem htGetString_eq_some_iff {addr : UInt64} {s : String} :
    htGetString .release rem addr key = .ok (some s) ↔ Holds rem addr key s := by
  unfold htGetString
  simp only [Build.release_add, ok_bind]
  constructor
  · intro h
    obtain ⟨nUsed, hn, h⟩ := bind_eq_ok.mp h
    obtain ⟨arData, har, h⟩ := bind_eq_ok.mp h
    split at h
    · exact absurd (Except.ok.inj h) (by simp)
    · next hnull =>
      obtain ⟨i, hi, hbefore, hround⟩ := scanBuckets_eq_some_iff.mp h
      obtain ⟨hlive, htext⟩ := htRound_eq_some_iff.mp hround
      exact ⟨nUsed, arData, hn, har, fun h0 => hnull (Or.inl h0), i, hi,
        fun j hj => htRound_eq_none_iff.mp (hbefore j hj), hlive, htext⟩
  · rintro ⟨nUsed, arData, hn, har, hnull, i, hi, hbefore, hlive, htext⟩
    refine bind_eq_ok.mpr ⟨nUsed, hn, bind_eq_ok.mpr ⟨arData, har, ?_⟩⟩
    -- with no slot in use there would be no `i`
    have hused : nUsed ≠ 0 := by
      rintro rfl
      have : min (0 : UInt32).toNat MAX_BUCKETS = 0 := rfl
      omega
    rw [if_neg (by rintro (h | h); exacts [hnull h, hused h])]
    exact scanBuckets_eq_some_iff.mpr ⟨i, hi, fun j hj => htRound_eq_none_iff.mpr (hbefore j hj),
      htRound_eq_some_iff.mpr ⟨hlive, htext⟩⟩

/-- A scan does not panic when its rounds do not. -/
theorem noPanic_scanBuckets {round : UInt64 → Outcome (Option (Option String))}
    (h : ∀ b, NoPanic (round b)) (arData : UInt64) (nUsed : UInt32) :
    NoPanic (scanBuckets .release round arData nUsed) :=
  noPanic_bind (Loop.firstFrom_ne_error (fun _ => h _) _ _) fun _ => noPanic_ok _

theorem noPanic_htRound (rem : Remote) (key : String) (b : UInt64) :
    NoPanic (htRound .release rem key b) := by
  rw [htRound_eq]
  refine noPanic_ite (noPanic_bind (rem.noPanic_readU32 _) fun typeInfo => ?_) (noPanic_ok _)
  exact noPanic_bind (noPanic_htValue rem b _) fun v => noPanic_ok _

theorem noPanic_htGetString (rem : Remote) (addr : UInt64) (key : String) :
    NoPanic (htGetString .release rem addr key) := by
  unfold htGetString
  simp only [Build.release_add, ok_bind]
  refine noPanic_bind (rem.noPanic_readU32 _) fun n =>
    noPanic_bind (rem.noPanic_readU64 _) fun ar => ?_
  exact noPanic_ite (noPanic_ok _) (noPanic_scanBuckets (noPanic_htRound rem key) _ _)

end Scans
end PhpFastProfile
