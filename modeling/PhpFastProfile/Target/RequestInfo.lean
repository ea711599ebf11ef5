import PhpFastProfile.HashTable.Encoding
import PhpFastProfile.Target.ServerScan

/-!
# Encoded `$_SERVER`

The global symbol table is a hash table whose entries are variables; the entry of
`_SERVER` is an array, which is a hash table of its own.  Both have deleted buckets and
references among their entries.  `request_var` finds the string in the one through the
other, where no deleted bucket hides the variable and the two entries it goes through are
no references.

## Main definitions

* `GlobalEntry`, `serverArray`, `serverVar` — the symbol table, and a string of `$_SERVER`.
* `SymbolTableAt rem addr globals` — the memory holds the table at `addr`.
* `InReach rem addr globals key` — the scans come to the string under the key.

## Main results

* `GlobalEntryAt.isServer_iff` — which buckets read as called `_SERVER`.
* `requestVar_decodes` — **`request_var` reads the string out of both tables.**
-/

namespace PhpFastProfile

/-! ### The symbol table -/

/-- A global variable. -/
inductive GlobalValue where
  | array (entries : List HashEntry)
  /-- A reference, with the array it refers to if it refers to one. -/
  | reference (target : Option (List HashEntry))
  | other (tag : UInt8) (ne_undef : tag ≠ zval.IS_UNDEF) (ne_array : tag ≠ zval.IS_ARRAY)
      (ne_reference : tag ≠ zval.IS_REFERENCE)

/-- An entry of the symbol table, in the order of the buckets. -/
inductive GlobalEntry where
  | tombstone
  | live (name : Option (List UInt8)) (value : GlobalValue)

/-- The bytes of `_SERVER`. -/
def serverBytes : List UInt8 := "_SERVER".toList.map Utf8.asciiByte

namespace GlobalEntry

/-- The entry is live and called `_SERVER`. -/
def isServer : GlobalEntry → Bool
  | .live (some bytes) _ => bytes = serverBytes
  | _ => false

/-- The entry is live and its value is a reference. -/
def isReference : GlobalEntry → Bool
  | .live _ (.reference _) => true
  | _ => false

/-- The entries, where the variable is an array. -/
def array : GlobalEntry → Option (List HashEntry)
  | .live _ (.array entries) => some entries
  | .live _ (.reference target) => target
  | _ => none

end GlobalEntry

/-- The array `$_SERVER`, where it exists. -/
def serverArray (globals : List GlobalEntry) : Option (List HashEntry) :=
  (globals.find? GlobalEntry.isServer).bind GlobalEntry.array

/-- The string that `$_SERVER` has under a key, where both exist. -/
def serverVar (globals : List GlobalEntry) (key : List UInt8) : Option String :=
  (serverArray globals).bind fun entries => lookup entries key

/-! ### Its encoding -/

section Encoding

variable (rem : Remote)

/-- The value of the bucket at `b`; what a reference refers to is behind the 8 bytes of its
header. -/
def GlobalValueAt (b : UInt64) : GlobalValue → Prop
  | .array entries => TagAt rem b zval.IS_ARRAY ∧
    ∃ p ≠ 0, rem.readU64 (b + bucket.VAL + zval.VALUE) = .ok p ∧ HashTableAt rem p entries
  | .reference target => TagAt rem b zval.IS_REFERENCE ∧ ∀ entries ∈ target,
    ∃ r, rem.readU64 (b + bucket.VAL + zval.VALUE) = .ok r ∧
      (∃ typeInfo, rem.readU32 (r + 8 + zval.TYPE_INFO) = .ok typeInfo ∧
        typeInfo.toUInt8 = zval.IS_ARRAY) ∧
      ∃ p ≠ 0, rem.readU64 (r + 8 + zval.VALUE) = .ok p ∧ HashTableAt rem p entries
  | .other tag _ _ _ => TagAt rem b tag

/-- The bucket at `b`; the key pointer of a tombstone can be any word. -/
def GlobalEntryAt (b : UInt64) : GlobalEntry → Prop
  | .tombstone => TagAt rem b zval.IS_UNDEF
  | .live name value => KeyAt rem b name ∧ GlobalValueAt rem b value

/-- The memory holds at `addr` a symbol table with these entries. -/
structure SymbolTableAt (addr : UInt64) (globals : List GlobalEntry) : Prop where
  length_lt : globals.length < 2 ^ 32
  nUsed : rem.readU32 (addr + ht.N_NUM_USED) = .ok (UInt32.ofNat globals.length)
  buckets : ∃ arData, rem.readU64 (addr + ht.AR_DATA) = .ok arData ∧
    (globals ≠ [] → arData ≠ 0) ∧
    ∀ i e, globals[i]? = some e → GlobalEntryAt rem (slot arData i) e

/-- The scans come to the string under a key: they see all buckets, no deleted bucket that
was called `_SERVER` is before the variable, and neither the variable nor the entry under
the key is a reference. -/
structure InReach (addr : UInt64) (globals : List GlobalEntry) (key : List UInt8) : Prop where
  globals_le : globals.length ≤ MAX_BUCKETS
  entries_le : ∀ entries ∈ serverArray globals, entries.length ≤ MAX_BUCKETS
  firstLive : FirstLive rem addr "_SERVER"
  server : ∀ e ∈ globals, e.isServer = true → e.isReference = false
  entry : ∀ entries ∈ serverArray globals, ∀ e ∈ entries, e.isUnder key = true →
    e.isReference = false

end Encoding

/-! ### Reading it -/

section Decoding

variable {rem : Remote} {key : String}

/-- The array of the bucket. -/
theorem GlobalValueAt.serverRound {b : UInt64} {value : GlobalValue} {name : Option (List UInt8)}
    (h : GlobalValueAt rem b value) (hplain : (GlobalEntry.live name value).isReference = false)
    (hlen : ∀ entries ∈ (GlobalEntry.live name value).array, entries.length ≤ MAX_BUCKETS)
    (hentry : ∀ entries ∈ (GlobalEntry.live name value).array, ∀ e ∈ entries,
      e.isUnder (key.toList.map Utf8.asciiByte) = true → e.isReference = false)
    (hascii : ∀ c ∈ key.toList, c.toNat < 128) (hkey : key.length < MAX_STR_LEN) :
    (do
      match ← Target.serverArray .release rem b with
      | none => return some none
      | some arrayPtr =>
        if arrayPtr = 0 then return some none
        return some (← htGetString .release rem arrayPtr key)) =
      .ok (some ((GlobalEntry.live name value).array.bind fun entries =>
        lookup entries (key.toList.map Utf8.asciiByte))) := by
  unfold Target.serverArray
  cases value with
  | array entries =>
    obtain ⟨⟨typeInfo, htype, htag⟩, p, hne, hp, htable⟩ := h
    have hstring := htable.getString_eq (hlen entries rfl) (hentry entries rfl) hascii hkey
    simp only [Build.release_add, ok_bind, htype, htag, hp, if_neg hne, hstring,
      show ¬ zval.IS_ARRAY = zval.IS_REFERENCE by decide, if_false, if_true, pure_eq_ok]
    rfl
  | reference target => cases hplain
  | other tag ne_undef ne_array ne_reference =>
    obtain ⟨typeInfo, htype, rfl⟩ := h
    simp only [Build.release_add, ok_bind, htype, if_neg ne_array, if_neg ne_reference, pure_eq_ok]
    rfl

/-- A name reads as `_SERVER` only if it has its bytes. -/
theorem reads_server_iff {bytes : List UInt8} :
    Utf8.fromUtf8Lossy (bytes.take MAX_STR_LEN) = "_SERVER" ↔ bytes = serverBytes :=
  fromUtf8Lossy_take_eq_iff (by simp) (by decide)

/-- The bucket of a live entry reads as called `_SERVER` exactly if it is. -/
theorem GlobalEntryAt.isServer_iff {b : UInt64} {name : Option (List UInt8)} {value : GlobalValue}
    (h : GlobalEntryAt rem b (.live name value)) : bucketKey rem b = some "_SERVER" ↔
      (GlobalEntry.live name value).isServer = true := by
  rw [h.1.bucketKey_eq]
  cases name with
  | none => simp [GlobalEntry.isServer]
  | some bytes =>
    rw [Option.map_some, Option.some.injEq, reads_server_iff]
    exact decide_eq_true_iff.symm

/-- A live bucket is one of a live entry. -/
theorem GlobalEntryAt.exists_live {b : UInt64} {e : GlobalEntry} (h : GlobalEntryAt rem b e)
    (hlive : LiveAt rem b) : ∃ name value, e = .live name value := by
  cases e with
  | live name value => exact ⟨name, value, rfl⟩
  | tombstone =>
    obtain ⟨typeInfo, htype, htag⟩ := h
    obtain ⟨typeInfo', htype', hne⟩ := hlive
    obtain rfl := Except.ok.inj (htype.symm.trans htype')
    exact absurd htag hne

/-- **The scan of the symbol table stops at the entry of `_SERVER`.** -/
theorem find?_isServer (key : String) {arData : UInt64} {globals : List GlobalEntry} {n : ℕ}
    (hentry : ∀ i e, globals[i]? = some e → GlobalEntryAt rem (slot arData i) e)
    (hn : globals.length = n)
    (hfirst : ∀ i < n, (∀ j < i, bucketKey rem (slot arData j) ≠ some "_SERVER") →
      bucketKey rem (slot arData i) = some "_SERVER" → LiveAt rem (slot arData i)) :
    match Loop.stopAt (fun i => Target.symbolRound .release rem key (slot arData i)) n with
    | none => globals.find? GlobalEntry.isServer = none
    | some i => ∃ name value, globals.find? GlobalEntry.isServer = some (.live name value) ∧
        GlobalEntryAt rem (slot arData i) (.live name value) ∧
        bucketKey rem (slot arData i) = some "_SERVER" := by
  subst hn
  -- an entry whose bucket is not called `_SERVER` is not the variable
  have hother : ∀ i e, globals[i]? = some e →
      bucketKey rem (slot arData i) ≠ some "_SERVER" → ¬ e.isServer = true := by
    intro i e hi hkey hserver
    have he := hentry i e hi
    cases e with
    | tombstone => cases hserver
    | live name value => exact hkey (he.isServer_iff.mpr hserver)
  cases hstop : Loop.stopAt (fun i => Target.symbolRound .release rem key (slot arData i))
      globals.length with
  | none =>
    dsimp only
    rw [List.find?_eq_none]
    intro e he
    obtain ⟨i, hi⟩ := List.mem_iff_getElem?.mp he
    refine hother i e hi fun hkey => ?_
    have hgoes := List.find?_eq_none.mp hstop i
      (List.mem_range.mpr (List.getElem?_eq_some_iff.mp hi).1)
    rw [Loop.stops_iff, ne_eq, symbolRound_eq_none_iff, not_not] at hgoes
    exact hgoes hkey
  | some i =>
    obtain ⟨hi, hbefore, hkey⟩ := Loop.stopAt_eq_some_iff.mp hstop
    rw [ne_eq, symbolRound_eq_none_iff, not_not] at hkey
    have hbefore : ∀ j < i, bucketKey rem (slot arData j) ≠ some "_SERVER" :=
      fun j hj => symbolRound_eq_none_iff.mp (hbefore j hj)
    have he := hentry i globals[i] (List.getElem?_eq_getElem hi)
    obtain ⟨name, value, heq⟩ := he.exists_live (hfirst i hi hbefore hkey)
    rw [heq] at he
    refine ⟨name, value, ?_, he, hkey⟩
    rw [← heq, List.find?_eq_some_iff_getElem]
    refine ⟨by rw [heq]; exact he.isServer_iff.mp hkey, i, hi, rfl, fun j hj => ?_⟩
    have hnot := hother j globals[j] (List.getElem?_eq_getElem _) (hbefore j hj)
    simpa using hnot

end Decoding

/-- What `request_var` reads off a symbol table. -/
theorem SymbolTableAt.requestVar_serverVar {rem : Remote} {t : Target} {key : String}
    {globals : List GlobalEntry} (h : SymbolTableAt rem t.symbolTable globals)
    (hreach : InReach rem t.symbolTable globals (key.toList.map Utf8.asciiByte))
    (hascii : ∀ c ∈ key.toList, c.toNat < 128) (hkey : key.length < MAX_STR_LEN) :
    t.requestVar .release rem key = .ok (serverVar globals (key.toList.map Utf8.asciiByte)) := by
  obtain ⟨arData, har, hnull, hentry⟩ := h.buckets
  have hused : (UInt32.ofNat globals.length).toNat = globals.length :=
    UInt32.toNat_ofNat_of_lt' h.length_lt
  have himpl : t.requestVarImpl .release rem key =
      .ok (serverVar globals (key.toList.map Utf8.asciiByte)) := by
    unfold Target.requestVarImpl
    have htable : t.executorGlobals + t.layout.egSymbolTable = t.symbolTable := rfl
    simp only [Build.release_add, ok_bind, htable, h.nUsed, har]
    by_cases hzero : arData = 0
    · have hnil : globals = [] := by
        by_contra hne
        exact hnull hne hzero
      rw [if_pos hzero, hnil]
      rfl
    · rw [if_neg hzero, scanBuckets_eq_stopAt, hused, Nat.min_eq_left hreach.globals_le]
      have hfirst : ∀ i < globals.length,
          (∀ j < i, bucketKey rem (slot arData j) ≠ some "_SERVER") →
          bucketKey rem (slot arData i) = some "_SERVER" → LiveAt rem (slot arData i) := by
        intro i hi
        refine hreach.firstLive _ arData h.nUsed har hzero i ?_
        rwa [hused, Nat.min_eq_left hreach.globals_le]
      have hfind := find?_isServer key hentry rfl hfirst
      cases hstop : Loop.stopAt (fun i => Target.symbolRound .release rem key (slot arData i))
          globals.length with
      | none =>
        rw [hstop] at hfind
        rw [serverVar, serverArray, show globals.find? GlobalEntry.isServer = none from hfind]
        rfl
      | some i =>
        rw [hstop] at hfind
        obtain ⟨name, value, hfind, he, hserver⟩ := hfind
        have hplain := hreach.server _ (List.mem_of_find?_eq_some hfind)
          (he.isServer_iff.mp hserver)
        have harray : serverArray globals = (GlobalEntry.live name value).array := by
          rw [serverArray, hfind]
          rfl
        have hround : Target.symbolRound .release rem key (slot arData i) =
            .ok (some (serverVar globals (key.toList.map Utf8.asciiByte))) := by
          rw [symbolRound_eq, if_pos hserver, serverVar, harray]
          exact he.2.serverRound hplain (fun entries hmem =>
            hreach.entries_le entries (harray.trans hmem)) (fun entries hmem =>
            hreach.entry entries (harray.trans hmem)) hascii hkey
        dsimp only
        rw [hround]
        rfl
  rw [requestVar_eq, himpl]
  rfl

end PhpFastProfile
