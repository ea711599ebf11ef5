import PhpFastProfile.HashTable

/-!
# Encoded hash tables

A hash table is a list of entries in the order they were made: some deleted, some with
an integer key, the others with the bytes of their key.  Looking a key up means finding
the first entry under it, and following it where it is a reference.  `ht_get_string`
does so on the bytes of the table: it skips the tombstones, and of the keys that are too
long to be the wanted one it need not see more than it reads.  What it makes of a
reference is another matter, so the entries under the key must be none.

## Main definitions

* `HashEntry`, `lookup` — the entries, and the string under a key.
* `HashTableAt rem addr entries` — the memory holds the table at `addr`.

## Main results

* `htGetString_decodes` — **`ht_get_string` looks the key up in the encoded table.**
-/

namespace PhpFastProfile

/-! ### Tables -/

/-- A value of an entry. -/
inductive HashValue where
  | string (bytes : List UInt8)
  /-- A reference, with the string it refers to if it refers to one. -/
  | reference (target : Option (List UInt8))
  /-- A value of another type, with its tag. -/
  | other (tag : UInt8) (ne_undef : tag ≠ zval.IS_UNDEF) (ne_string : tag ≠ zval.IS_STRING)
      (ne_reference : tag ≠ zval.IS_REFERENCE)

/-- An entry of a hash table, in the order of the buckets. -/
inductive HashEntry where
  | tombstone
  /-- A live entry, with the bytes of its key unless that is an integer. -/
  | live (key : Option (List UInt8)) (value : HashValue)

namespace HashEntry

/-- The entry is live and under the key. -/
def isUnder (key : List UInt8) : HashEntry → Bool
  | .live (some bytes) _ => bytes = key
  | _ => false

/-- The entry is live and its value is a reference. -/
def isReference : HashEntry → Bool
  | .live _ (.reference _) => true
  | _ => false

/-- The string of an entry, at most 4096 bytes of it. -/
def text : HashEntry → Option String
  | .live _ (.string bytes) => some (Utf8.fromUtf8Lossy (bytes.take MAX_STR_LEN))
  | .live _ (.reference target) =>
    target.map fun bytes => Utf8.fromUtf8Lossy (bytes.take MAX_STR_LEN)
  | _ => none

end HashEntry

/-- The string the table has under a key: none if the first entry under it is no string,
and none if there is no entry under it. -/
def lookup (entries : List HashEntry) (key : List UInt8) : Option String :=
  (entries.find? (HashEntry.isUnder key)).bind HashEntry.text

/-- The entries under other keys do not matter. -/
theorem lookup_filter (entries : List HashEntry) (key : List UInt8) :
    lookup (entries.filter (HashEntry.isUnder key)) key = lookup entries key := by
  unfold lookup
  rw [List.find?_filter]
  simp

/-! ### Their encoding -/

section Encoding

variable (rem : Remote)

/-- The memory holds at `p` a `zend_string` with these bytes. -/
structure StringAt (p : UInt64) (bytes : List UInt8) : Prop where
  length_lt : bytes.length < 2 ^ 64
  len : rem.readU64 (p + zstr.LEN) = .ok (UInt64.ofNat bytes.length)
  val : rem.read (p + zstr.VAL) bytes.length = .ok bytes

/-- The key of the bucket at `b`: a pointer to its bytes, or null. -/
def KeyAt (b : UInt64) : Option (List UInt8) → Prop
  | none => rem.readU64 (b + bucket.KEY) = .ok 0
  | some bytes => ∃ p ≠ 0, rem.readU64 (b + bucket.KEY) = .ok p ∧ StringAt rem p bytes

/-- The tag of the bucket at `b`. -/
def TagAt (b : UInt64) (tag : UInt8) : Prop :=
  ∃ typeInfo, rem.readU32 (b + bucket.VAL + zval.TYPE_INFO) = .ok typeInfo ∧
    typeInfo.toUInt8 = tag

/-- The string that the reference at `r` refers to: its zval is behind the 8 bytes of the
header. -/
def ReferentAt (r : UInt64) (bytes : List UInt8) : Prop :=
  (∃ typeInfo, rem.readU32 (r + 8 + zval.TYPE_INFO) = .ok typeInfo ∧
    typeInfo.toUInt8 = zval.IS_STRING) ∧
  ∃ p, rem.readU64 (r + 8 + zval.VALUE) = .ok p ∧ StringAt rem p bytes

/-- The value of the bucket at `b`. -/
def ValueAt (b : UInt64) : HashValue → Prop
  | .string bytes => TagAt rem b zval.IS_STRING ∧
    ∃ p, rem.readU64 (b + bucket.VAL + zval.VALUE) = .ok p ∧ StringAt rem p bytes
  | .reference target => TagAt rem b zval.IS_REFERENCE ∧ ∀ bytes ∈ target,
    ∃ r, rem.readU64 (b + bucket.VAL + zval.VALUE) = .ok r ∧ ReferentAt rem r bytes
  | .other tag _ _ _ => TagAt rem b tag

/-- The bucket at `b`; the key pointer of a tombstone can be any word. -/
def EntryAt (b : UInt64) : HashEntry → Prop
  | .tombstone => TagAt rem b zval.IS_UNDEF
  | .live key value => KeyAt rem b key ∧ ValueAt rem b value

/-- The memory holds at `addr` a table with these entries. -/
structure HashTableAt (addr : UInt64) (entries : List HashEntry) : Prop where
  length_lt : entries.length < 2 ^ 32
  nUsed : rem.readU32 (addr + ht.N_NUM_USED) = .ok (UInt32.ofNat entries.length)
  buckets : ∃ arData, rem.readU64 (addr + ht.AR_DATA) = .ok arData ∧
    (entries ≠ [] → arData ≠ 0) ∧
    ∀ i e, entries[i]? = some e → EntryAt rem (arData + UInt64.ofNat i * bucket.SIZE) e

end Encoding

/-! ### Reading them -/

section Decoding

variable {rem : Remote} {b p : UInt64} {bytes : List UInt8} {key : String}

/-- A string is read up to 4096 bytes. -/
theorem StringAt.read_eq (h : StringAt rem p bytes) :
    readZendString .release rem p = .ok (Utf8.fromUtf8Lossy (bytes.take MAX_STR_LEN)) := by
  have hlen : (UInt64.ofNat bytes.length).toNat = bytes.length :=
    UInt64.toNat_ofNat_of_lt' h.length_lt
  unfold readZendString
  simp only [Build.release_add, ok_bind, h.len, hlen]
  by_cases hzero : min bytes.length MAX_STR_LEN = 0
  · have hnil : bytes = [] := by
      have : MAX_STR_LEN = 4096 := rfl
      exact List.length_eq_zero_iff.mp (by omega)
    rw [if_pos hzero, hnil]
    rfl
  · have hread : rem.read (p + zstr.VAL) (min bytes.length MAX_STR_LEN) =
        .ok (bytes.take (min bytes.length MAX_STR_LEN)) :=
      Remote.read_take h.val (Nat.min_le_left _ _)
    rw [Nat.min_comm, ← List.take_eq_take_min] at hread
    rw [if_neg hzero, Remote.readVec, Nat.min_comm, hread]
    rfl

/-- **A key reads as an ASCII string only if it has its bytes**, though a longer one is
not read to its end. -/
theorem fromUtf8Lossy_take_eq_iff (hascii : ∀ c ∈ key.toList, c.toNat < 128)
    (hkey : key.length < MAX_STR_LEN) :
    Utf8.fromUtf8Lossy (bytes.take MAX_STR_LEN) = key ↔ bytes = key.toList.map Utf8.asciiByte := by
  have hcut : bytes.take MAX_STR_LEN = key.toList.map Utf8.asciiByte ↔
      bytes = key.toList.map Utf8.asciiByte := by
    have hlen : (key.toList.map Utf8.asciiByte).length < MAX_STR_LEN := by
      rw [List.length_map]
      exact hkey
    constructor
    · intro h
      have hshort : bytes.length < MAX_STR_LEN := by
        have hle := congrArg List.length h
        rw [List.length_take] at hle
        omega
      rwa [List.take_of_length_le (Nat.le_of_lt hshort)] at h
    · intro h
      rw [h, List.take_of_length_le (Nat.le_of_lt hlen)]
  rw [← hcut, ← Utf8.lossy_eq_iff_of_ascii hascii, Utf8.fromUtf8Lossy, ← String.toList_inj,
    String.toList_ofList]

/-- The key of an encoded entry. -/
theorem KeyAt.bucketKey_eq {k : Option (List UInt8)} (h : KeyAt rem b k) :
    bucketKey rem b = k.map fun bytes => Utf8.fromUtf8Lossy (bytes.take MAX_STR_LEN) := by
  unfold bucketKey
  cases k with
  | none =>
    rw [show rem.readU64 (b + bucket.KEY) = .ok 0 from h]
    rfl
  | some bytes =>
    obtain ⟨p, hp, hread, hstr⟩ := h
    rw [hread]
    dsimp only
    rw [if_neg hp, hstr.read_eq]
    rfl

/-- The tag of a live value. -/
theorem ValueAt.tag {value : HashValue} (h : ValueAt rem b value) :
    ∃ tag ≠ zval.IS_UNDEF, TagAt rem b tag := by
  cases value with
  | string bytes => exact ⟨zval.IS_STRING, by decide, h.1⟩
  | reference target => exact ⟨zval.IS_REFERENCE, by decide, h.1⟩
  | other tag ne_undef => exact ⟨tag, ne_undef, h⟩

/-- **A bucket is live under the wanted key exactly if its entry is under its bytes.** -/
theorem EntryAt.liveKey_iff {e : HashEntry} (h : EntryAt rem b e)
    (hascii : ∀ c ∈ key.toList, c.toNat < 128) (hkey : key.length < MAX_STR_LEN) :
    liveKey rem b = some key ↔ e.isUnder (key.toList.map Utf8.asciiByte) = true := by
  cases e with
  | tombstone =>
    obtain ⟨typeInfo, htype, htag⟩ := h
    simp [liveKey, htype, htag, HashEntry.isUnder]
  | live k value =>
    obtain ⟨tag, htag, typeInfo, htype, rfl⟩ := h.2.tag
    have hlive : liveKey rem b = bucketKey rem b := by
      simp only [liveKey, htype, htag, if_false]
    rw [hlive, KeyAt.bucketKey_eq h.1]
    cases k with
    | none => simp [HashEntry.isUnder]
    | some bytes =>
      rw [Option.map_some, Option.some.injEq, fromUtf8Lossy_take_eq_iff hascii hkey]
      simp [HashEntry.isUnder]

/-- The string of a live entry that is no reference. -/
theorem ValueAt.htValue_eq {k : Option (List UInt8)} {value : HashValue} {typeInfo : UInt32}
    (h : ValueAt rem b value) (hplain : (HashEntry.live k value).isReference = false)
    (htype : rem.readU32 (b + bucket.VAL + zval.TYPE_INFO) = .ok typeInfo) :
    htValue .release rem b typeInfo.toUInt8 = .ok (HashEntry.live k value).text := by
  have htag : ∀ tag, TagAt rem b tag → typeInfo.toUInt8 = tag := by
    intro tag h
    obtain ⟨typeInfo', htype', rfl⟩ := h
    rw [Except.ok.inj (htype.symm.trans htype')]
  cases value with
  | string bytes =>
    obtain ⟨hstring, p, hread, hstr⟩ := h
    rw [htag _ hstring, htValue, if_neg (by decide), if_pos rfl]
    simp only [Build.release_add, ok_bind, hread, hstr.read_eq]
    rfl
  | reference target => cases hplain
  | other tag ne_undef ne_string ne_reference =>
    rw [htag _ h, htValue, if_neg ne_reference, if_neg ne_string]
    rfl

/-- **A round** stops at the entries under the key. -/
theorem EntryAt.htRound_eq {e : HashEntry} (h : EntryAt rem b e)
    (hplain : e.isUnder (key.toList.map Utf8.asciiByte) = true → e.isReference = false)
    (hascii : ∀ c ∈ key.toList, c.toNat < 128) (hkey : key.length < MAX_STR_LEN) :
    htRound .release rem key b =
      .ok (if e.isUnder (key.toList.map Utf8.asciiByte) then some e.text else none) := by
  rw [PhpFastProfile.htRound_eq]
  by_cases hunder : e.isUnder (key.toList.map Utf8.asciiByte) = true
  · rw [if_pos hunder, if_pos ((h.liveKey_iff hascii hkey).mpr hunder)]
    cases e with
    | tombstone => cases hunder
    | live k value =>
      obtain ⟨tag, -, typeInfo, htype, -⟩ := h.2.tag
      rw [htype, ok_bind, h.2.htValue_eq (hplain hunder) htype]
      rfl
  · rw [if_neg hunder, if_neg fun hlive => hunder ((h.liveKey_iff hascii hkey).mp hlive)]

/-- A table that the memory holds is looked up in. -/
theorem HashTableAt.getString_eq {addr : UInt64} {entries : List HashEntry}
    (h : HashTableAt rem addr entries) (hlen : entries.length ≤ MAX_BUCKETS)
    (hplain : ∀ e ∈ entries, e.isUnder (key.toList.map Utf8.asciiByte) = true →
      e.isReference = false)
    (hascii : ∀ c ∈ key.toList, c.toNat < 128) (hkey : key.length < MAX_STR_LEN) :
    htGetString .release rem addr key = .ok (lookup entries (key.toList.map Utf8.asciiByte)) := by
  obtain ⟨arData, har, hnull, hentry⟩ := h.buckets
  have hused : (UInt32.ofNat entries.length).toNat = entries.length :=
    UInt32.toNat_ofNat_of_lt' h.length_lt
  unfold htGetString
  simp only [Build.release_add, ok_bind, h.nUsed, har]
  by_cases hempty : entries = []
  · rw [if_pos (Or.inr (by rw [hempty]; rfl)), hempty]
    rfl
  · have hpos : 0 < entries.length := List.length_pos_iff.mpr hempty
    have hne : ¬ (arData = 0 ∨ UInt32.ofNat entries.length = 0) := by
      rintro (h0 | h0)
      · exact hnull hempty h0
      · rw [h0] at hused
        exact absurd hused (Nat.ne_of_lt hpos)
    rw [if_neg hne, scanBuckets, hused, Nat.min_eq_left hlen]
    simp only [Build.release_add, ok_bind]
    rw [Loop.firstFrom_eq_find? (p := HashEntry.isUnder (key.toList.map Utf8.asciiByte))
      (g := HashEntry.text) fun i e hi => ?_]
    · unfold lookup
      cases entries.find? (HashEntry.isUnder (key.toList.map Utf8.asciiByte)) with
      | none => rfl
      | some e => rfl
    · rw [Nat.zero_add]
      exact (hentry i e hi).htRound_eq (hplain e (List.mem_of_getElem? hi)) hascii hkey

end Decoding

/-- **`ht_get_string` looks the key up**: for every table of at most 4096 buckets that the
memory holds and every ASCII key that no reference is under.  The tombstones and the entries
under other keys do not matter. -/
theorem htGetString_decodes (rem : Remote) (addr : UInt64) (key : String)
    (entries : List HashEntry) (hascii : ∀ c ∈ key.toList, c.toNat < 128)
    (hkey : key.length < MAX_STR_LEN) (hlen : entries.length ≤ MAX_BUCKETS)
    (hplain : ∀ e ∈ entries, e.isUnder (key.toList.map Utf8.asciiByte) = true →
      e.isReference = false)
    (h : HashTableAt rem addr entries) :
    let bytes := key.toList.map Utf8.asciiByte
    htGetString .release rem addr key = .ok (lookup entries bytes) ∧
      lookup entries bytes = lookup (entries.filter (HashEntry.isUnder bytes)) bytes := by
  intro bytes
  exact ⟨h.getString_eq hlen hplain hascii hkey, (lookup_filter entries bytes).symm⟩

/-- A table of a tombstone that was called `A`, an integer key and a string under `A`. -/
def threeBuckets : Remote :=
  Remote.zeroExcept [(0x118, 3), (0x111, 0x02), (0x219, 0x04), (0x228, 4), (0x241, 0x05),
    (0x248, 6), (0x259, 0x04), (0x410, 1), (0x418, 0x41), (0x510, 1), (0x518, 0x78)]

theorem htGetString_decodes_threeBuckets :
    htGetString .release threeBuckets 0x100 "A" = .ok (some "x") := by
  have hnull : KeyAt threeBuckets 0x220 none := by
    unfold KeyAt
    decide
  have hkey : KeyAt threeBuckets 0x240 (some [0x41]) :=
    ⟨0x400, by decide, by decide, by decide, by decide, by decide⟩
  have hvalue : ValueAt threeBuckets 0x240 (.string [0x78]) :=
    ⟨⟨6, by decide, by decide⟩, 0x500, by decide, by decide, by decide, by decide⟩
  have hbuckets : ∀ i e, [.tombstone, .live none (.other 4 (by decide) (by decide) (by decide)),
      .live (some [0x41]) (.string [0x78])][i]? = some e →
        EntryAt threeBuckets (0x200 + UInt64.ofNat i * bucket.SIZE) e := by
    intro i e h
    match i, h with
    | 0, rfl => exact ⟨0, by decide, by decide⟩
    | 1, rfl => exact ⟨hnull, 4, by decide, by decide⟩
    | 2, rfl => exact ⟨hkey, hvalue⟩
  exact (htGetString_decodes threeBuckets 0x100 "A" _ (by simp) (by decide) (by decide)
    (by simp [HashEntry.isReference])
    ⟨by decide, by decide, 0x200, by decide, fun _ => by decide, hbuckets⟩).1

end PhpFastProfile
