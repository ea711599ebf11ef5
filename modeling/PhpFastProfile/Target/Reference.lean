import PhpFastProfile.HashTable

/-!
# References in `$_SERVER`

PHP stores a value that has been taken by reference in a `zend_reference`: an
8-byte header and then the value.  `requestVar` looks for the value 16 bytes into
the reference instead of 8, both for the `$_SERVER` array itself and for the
entry of a key.  So replacing a value by a reference to it keeps the result
exactly when the scans never get to the value, or when what stands 8 bytes too
far happens to read the same.

## Main definitions

* `TableAt rem addr bs` — the memory holds a hash table with the buckets `bs`.
* `Encodes` — a global symbol table with a live `_SERVER` entry.
* `ServerReplaced`, `EntryReplaced` — two memories that differ by a reference.

## Main results

* `requestVar_eq_iff` — when two memories give the same result.
* `requestVar_reference_iff` — **when a reference leaves the result unchanged.**
-/

namespace PhpFastProfile

/-! ### Encoded tables -/

/-- A bucket: its value, and what its key pointer reads as. -/
structure Bucket where
  val : Zval
  key : Option String
  deriving DecidableEq, Repr

/-- The bucket holds a value; a tombstone does not. -/
def Bucket.Live (b : Bucket) : Prop := b.val.tag ≠ zval.IS_UNDEF

/-- The memory holds the bucket at `addr`. -/
def BucketAt (rem : Remote) (addr : UInt64) (b : Bucket) : Prop :=
  ZvalAt rem (addr + bucket.VAL) b.val ∧ bucketKey rem addr = b.key

/-- The address of the `i`-th bucket of the array at `arData`. -/
def slot (arData : UInt64) (i : ℕ) : UInt64 := arData + UInt64.ofNat i * bucket.SIZE

/-- The memory holds at `addr` a hash table whose bucket array is at `arData` and
has the buckets `bs`. -/
structure TableAt (rem : Remote) (addr arData : UInt64) (bs : List Bucket) : Prop where
  length_lt : bs.length < 2 ^ 32
  nUsed : rem.readU32 (addr + ht.N_NUM_USED) = .ok (UInt32.ofNat bs.length)
  arData_at : rem.readU64 (addr + ht.AR_DATA) = .ok arData
  arData_ne : arData ≠ 0
  bucket_at : ∀ i b, bs[i]? = some b → BucketAt rem (slot arData i) b

section Table

variable {rem : Remote} {addr arData : UInt64} {bs : List Bucket}

/-- The number of buckets a scan of the table looks at. -/
theorem TableAt.scanned (h : TableAt rem addr arData bs) :
    min (UInt32.ofNat bs.length).toNat MAX_BUCKETS = min bs.length MAX_BUCKETS := by
  rw [UInt32.toNat_ofNat_of_lt' h.length_lt]

theorem BucketAt.liveKey_eq {b : Bucket} (h : BucketAt rem addr b) :
    liveKey rem addr = if b.val.tag = zval.IS_UNDEF then none else b.key := by
  obtain ⟨⟨-, htype⟩, hkey⟩ := h
  simp only [liveKey, htype, Zval.tag, hkey]
  rfl

end Table

/-- The address of `EG.symbol_table`. -/
def Target.symbolTable (t : Target) : UInt64 := t.executorGlobals + t.layout.egSymbolTable

/-- The memory holds the buckets `symbols` as the global symbol table; the `i`-th
is the one live bucket called `_SERVER`, and its value is `server`. -/
structure Encodes (rem : Remote) (t : Target) (arData : UInt64) (symbols : List Bucket) (i : ℕ)
    (server : Zval) : Prop where
  table : TableAt rem t.symbolTable arData symbols
  entry : symbols[i]? = some ⟨server, some "_SERVER"⟩
  unique : ∀ j b, symbols[j]? = some b → b.key = some "_SERVER" → b.Live → j = i

/-- The scan of the symbol table gets to its `i`-th bucket: it is among the first
4096, and no tombstone before it is called `_SERVER`. -/
def Reached (symbols : List Bucket) (i : ℕ) : Prop :=
  i < MAX_BUCKETS ∧ ∀ j < i, ∀ b, symbols[j]? = some b → b.key ≠ some "_SERVER"

/-! ### The symbol-table scan -/

section Scan

variable {rem : Remote} {t : Target} {arData : UInt64} {symbols : List Bucket} {i : ℕ}
  {server : Zval} {key : String}

/-- What the lookup does once it has found the `_SERVER` value. -/
def serverLookup (rem : Remote) (key : String) (server : Zval) : Outcome (Option String) :=
  if server.tag = zval.IS_REFERENCE then do
    let arrayPtr ← rem.readU64 (server.value + 16 + zval.VALUE)
    if arrayPtr = 0 then return none
    htGetString .release rem arrayPtr key
  else if server.tag = zval.IS_ARRAY then
    if server.value = 0 then .ok none else htGetString .release rem server.value key
  else .ok none

/-- The array a bucket of the symbol table leads to. -/
theorem serverArray_eq {b : UInt64} (hb : ZvalAt rem (b + bucket.VAL) server) :
    Target.serverArray .release rem b =
      if server.tag = zval.IS_REFERENCE then do
        return some (← rem.readU64 (server.value + 16 + zval.VALUE))
      else if server.tag = zval.IS_ARRAY then .ok (some server.value)
      else .ok none := by
  obtain ⟨hvalue, htype⟩ := hb
  unfold Target.serverArray
  simp only [Build.release_add, ok_bind, htype, hvalue]
  rfl

/-- The round at a bucket called `_SERVER` returns what the lookup finds. -/
theorem symbolRound_server {b : UInt64} (hb : BucketAt rem b ⟨server, some "_SERVER"⟩) :
    Target.symbolRound .release rem key b = do return some (← serverLookup rem key server) := by
  obtain ⟨hz, hkey⟩ := hb
  rw [symbolRound_eq, if_pos hkey, serverArray_eq hz]
  unfold serverLookup
  by_cases href : server.tag = zval.IS_REFERENCE
  · rw [if_pos href, if_pos href]
    cases rem.readU64 (server.value + 16 + zval.VALUE) with
    | error e => rfl
    | ok arrayPtr =>
      by_cases hnull : arrayPtr = 0
      · simp [hnull]
      · simp [hnull]
  · rw [if_neg href, if_neg href]
    by_cases harr : server.tag = zval.IS_ARRAY
    · by_cases hnull : server.value = 0
      · simp [harr, hnull]
      · simp [harr, hnull]
    · simp [harr]

/-- A bucket with another key is passed over. -/
theorem symbolRound_other {b : UInt64} {sym : Bucket} (hb : BucketAt rem b sym)
    (hkey : sym.key ≠ some "_SERVER") : Target.symbolRound .release rem key b = .ok none := by
  rw [symbolRound_eq, hb.2, if_neg hkey]

/-- A tombstone called `_SERVER` ends the lookup. -/
theorem serverLookup_undef (hundef : server.tag = zval.IS_UNDEF) :
    serverLookup rem key server = .ok none := by
  unfold serverLookup
  rw [hundef, if_neg (by decide), if_neg (by decide)]

/-- The lookup, with the table read. -/
theorem requestVarImpl_eq (h : Encodes rem t arData symbols i server) :
    t.requestVarImpl .release rem key = do
      let found ← Loop.firstFrom
        (fun j => Target.symbolRound .release rem key (slot arData j)) 0
        (min symbols.length MAX_BUCKETS)
      return found.join := by
  unfold Target.requestVarImpl scanBuckets
  have hsym : t.executorGlobals + t.layout.egSymbolTable = t.symbolTable := rfl
  simp only [Build.release_add, ok_bind, hsym, h.table.nUsed, h.table.arData_at,
    h.table.arData_ne, if_false, h.table.scanned]
  rfl

/-- The buckets of an encoded table the scan looks at are there. -/
theorem Encodes.round_other (h : Encodes rem t arData symbols i server) {j : ℕ}
    (hj : j < symbols.length) (hkey : ∀ b, symbols[j]? = some b → b.key ≠ some "_SERVER") :
    Target.symbolRound .release rem key (slot arData j) = .ok none := by
  have hget : symbols[j]? = some symbols[j] := List.getElem?_eq_getElem hj
  exact symbolRound_other (h.table.bucket_at j _ hget) (hkey _ hget)

/-- A round at a bucket called `_SERVER` is the last one. -/
theorem symbolRound_server_ne {b : UInt64} (hb : BucketAt rem b ⟨server, some "_SERVER"⟩) :
    Target.symbolRound .release rem key b ≠ .ok none := by
  rw [symbolRound_server hb]
  cases serverLookup rem key server <;> simp [bind, Except.bind]

/-- **A lookup that gets to `_SERVER` returns what it finds there.** -/
theorem requestVarImpl_of_reached (key : String) (h : Encodes rem t arData symbols i server)
    (hr : Reached symbols i) :
    t.requestVarImpl .release rem key = serverLookup rem key server := by
  obtain ⟨hlt, hbefore⟩ := hr
  have hi : i < symbols.length := (List.getElem?_eq_some_iff.mp h.entry).1
  have hb : BucketAt rem (slot arData i) ⟨server, some "_SERVER"⟩ := h.table.bucket_at i _ h.entry
  -- the rounds before the `i`-th go on, and the `i`-th does not
  have hstop : Loop.stopAt (fun j => Target.symbolRound .release rem key (slot arData j))
      (min symbols.length MAX_BUCKETS) = some i :=
    Loop.stopAt_eq_some_iff.mpr ⟨by omega, fun j hj => h.round_other (by omega) (hbefore j hj),
      symbolRound_server_ne hb⟩
  rw [requestVarImpl_eq h, Loop.firstFrom_eq_stopAt, hstop]
  dsimp only
  rw [symbolRound_server hb]
  cases serverLookup rem key server <;> rfl

/-- **A lookup that does not get to `_SERVER` finds nothing.** -/
theorem requestVarImpl_of_not_reached (key : String) (h : Encodes rem t arData symbols i server)
    (hr : ¬ Reached symbols i) : t.requestVarImpl .release rem key = .ok none := by
  rw [requestVarImpl_eq h, Loop.firstFrom_eq_stopAt]
  cases hstop : Loop.stopAt (fun j => Target.symbolRound .release rem key (slot arData j))
      (min symbols.length MAX_BUCKETS) with
  | none => rfl
  | some k =>
    -- the scan ends at a bucket called `_SERVER`, which is a tombstone
    obtain ⟨hk, hbefore, hround⟩ := Loop.stopAt_eq_some_iff.mp hstop
    obtain ⟨⟨val, name⟩, hget⟩ : ∃ b, symbols[k]? = some b :=
      ⟨_, List.getElem?_eq_getElem (by omega)⟩
    have hb := h.table.bucket_at k _ hget
    obtain rfl : name = some "_SERVER" := by
      by_contra hname
      exact hround (symbolRound_other hb hname)
    have hdead : val.tag = zval.IS_UNDEF := by
      by_contra hlive
      obtain rfl : k = i := h.unique k _ hget rfl hlive
      refine hr ⟨by omega, fun j hj b hbj hname => ?_⟩
      obtain ⟨val', name'⟩ := b
      obtain rfl : name' = some "_SERVER" := hname
      exact symbolRound_server_ne (h.table.bucket_at j _ hbj) (hbefore j hj)
    dsimp only
    rw [symbolRound_server hb, serverLookup_undef hdead]
    rfl

theorem noPanic_serverArray (rem : Remote) (b : UInt64) :
    NoPanic (Target.serverArray .release rem b) := by
  unfold Target.serverArray
  simp only [Build.release_add, ok_bind]
  refine noPanic_bind (rem.noPanic_readU32 _) fun typeInfo => noPanic_ite ?_ (noPanic_ite ?_ ?_)
  · refine noPanic_bind (rem.noPanic_readU64 _) fun r => ?_
    exact noPanic_bind (rem.noPanic_readU64 _) fun p => noPanic_ok _
  · exact noPanic_bind (rem.noPanic_readU64 _) fun p => noPanic_ok _
  · exact noPanic_ok _

theorem noPanic_symbolRound (rem : Remote) (key : String) (b : UInt64) :
    NoPanic (Target.symbolRound .release rem key b) := by
  rw [symbolRound_eq]
  refine noPanic_ite (noPanic_bind (noPanic_serverArray rem b) fun found => ?_) (noPanic_ok _)
  cases found with
  | none => exact noPanic_ok _
  | some p =>
    have hget : NoPanic (htGetString .release rem p key) := noPanic_htGetString rem p key
    exact noPanic_ite (noPanic_ok _) (noPanic_bind hget fun v => noPanic_ok _)

theorem noPanic_requestVarImpl (rem : Remote) (t : Target) (key : String) :
    NoPanic (t.requestVarImpl .release rem key) := by
  unfold Target.requestVarImpl
  simp only [Build.release_add, ok_bind]
  refine noPanic_bind (rem.noPanic_readU32 _) fun n => ?_
  refine noPanic_bind (rem.noPanic_readU64 _) fun ar => noPanic_ite (noPanic_ok _) ?_
  exact noPanic_scanBuckets (noPanic_symbolRound rem key) _ _

/-- `request_var` finds a string when its scan returns one. -/
theorem requestVar_eq (rem : Remote) (t : Target) (key : String) :
    t.requestVar .release rem key = .ok (t.requestVarImpl .release rem key).flat := by
  unfold Target.requestVar
  rw [attempt_eq (noPanic_requestVarImpl rem t key)]
  cases t.requestVarImpl .release rem key <;> rfl

/-- Two lookups have the same result when they return the same strings. -/
theorem requestVar_eq_iff {rem rem' : Remote} {t : Target} {key : String} :
    t.requestVar .release rem' key = t.requestVar .release rem key ↔
      ∀ s, t.requestVarImpl .release rem' key = .ok (some s) ↔
        t.requestVarImpl .release rem key = .ok (some s) := by
  have hflat : ∀ (x : Outcome (Option String)) (s : String),
      x.flat = some s ↔ x = .ok (some s) := by
    intro x s
    cases x <;> simp [Outcome.flat]
  rw [requestVar_eq, requestVar_eq, Except.ok.injEq, Option.ext_iff]
  simp only [hflat]

end Scan

/-! ### What the lookup finds -/

section Lookup

variable {rem : Remote} {key s : String} {server : Zval}

/-- The word that stands 16 bytes into the reference at `r`, taken for a pointer,
leads to a table that holds `s` under `key`. -/
def ArrayText (rem : Remote) (r : UInt64) (key s : String) : Prop :=
  ∃ p, rem.readU64 (r + 16 + zval.VALUE) = .ok p ∧ p ≠ 0 ∧ Holds rem p key s

/-- With an array, the lookup finds what the array holds. -/
theorem serverLookup_array (harr : server.tag = zval.IS_ARRAY) (hne : server.value ≠ 0) :
    serverLookup rem key server = .ok (some s) ↔ Holds rem server.value key s := by
  unfold serverLookup
  rw [harr, if_neg (by decide), if_pos rfl, if_neg hne]
  exact htGetString_eq_some_iff

/-- With a reference, the lookup takes the word 16 bytes into it for the array. -/
theorem serverLookup_reference (href : server.tag = zval.IS_REFERENCE) :
    serverLookup rem key server = .ok (some s) ↔ ArrayText rem server.value key s := by
  unfold serverLookup
  rw [href, if_pos rfl]
  constructor
  · intro h
    obtain ⟨p, hp, h⟩ := bind_eq_ok.mp h
    split at h
    · exact absurd (Except.ok.inj h) (by simp)
    · next hne => exact ⟨p, hp, hne, htGetString_eq_some_iff.mp h⟩
  · rintro ⟨p, hp, hne, hholds⟩
    refine bind_eq_ok.mpr ⟨p, hp, ?_⟩
    rw [if_neg hne]
    exact htGetString_eq_some_iff.mpr hholds

/-- What an encoded table holds under the key of its `j`-th bucket, the first live
one with that key. -/
theorem holds_iff_of_first {addr arData : UInt64} {entries : List Bucket} {j : ℕ} {z : Zval}
    (h : TableAt rem addr arData entries) (hj : entries[j]? = some ⟨z, some key⟩)
    (hlive : z.tag ≠ zval.IS_UNDEF)
    (hfirst : ∀ k < j, ∀ b, entries[k]? = some b → b.key = some key → ¬ b.Live) :
    Holds rem addr key s ↔ j < MAX_BUCKETS ∧ BucketText rem (slot arData j) s := by
  have hlen : j < entries.length := (List.getElem?_eq_some_iff.mp hj).1
  have hkey : liveKey rem (slot arData j) = some key := by
    rw [(h.bucket_at j _ hj).liveKey_eq, if_neg hlive]
  have hbefore : ∀ k < j, liveKey rem (slot arData k) ≠ some key := by
    intro k hk
    have hget : entries[k]? = some entries[k] := List.getElem?_eq_getElem (by omega)
    rw [(h.bucket_at k _ hget).liveKey_eq]
    split
    · simp
    · next hundef => exact fun hsame => hfirst k hk _ hget hsame hundef
  constructor
  · rintro ⟨nUsed, arData', hn, har, -, i, hi, hbefore', hkey', htext⟩
    obtain rfl : arData = arData' := Except.ok.inj (h.arData_at.symm.trans har)
    -- the first live bucket under the key is the `j`-th
    rcases Nat.lt_trichotomy i j with hlt | rfl | hgt
    · exact absurd hkey' (hbefore i hlt)
    · exact ⟨by omega, htext⟩
    · exact absurd hkey (hbefore' j hgt)
  · rintro ⟨hmax, htext⟩
    refine ⟨_, arData, h.nUsed, h.arData_at, h.arData_ne, j, ?_, hbefore, hkey, htext⟩
    rw [h.scanned]
    omega

/-- The value of an encoded bucket, when it is no reference. -/
theorem bucketText_iff_of_plain {b : UInt64} {z : Zval} (h : ZvalAt rem (b + bucket.VAL) z)
    (hplain : z.tag ≠ zval.IS_REFERENCE) : BucketText rem b s ↔ TextOf rem z s := by
  constructor
  · rintro ⟨z', hz', htext⟩
    obtain rfl := hz'.unique h
    rcases htext with htext | ⟨href, -⟩
    · exact htext
    · exact absurd href hplain
  · intro htext
    exact ⟨z, h, Or.inl htext⟩

/-- The value of an encoded bucket that is a reference. -/
theorem bucketText_iff_of_reference {b : UInt64} {z : Zval} (h : ZvalAt rem (b + bucket.VAL) z)
    (href : z.tag = zval.IS_REFERENCE) (hne : z.value ≠ 0) :
    BucketText rem b s ↔ InnerText rem z.value s := by
  constructor
  · rintro ⟨z', hz', htext⟩
    obtain rfl := hz'.unique h
    rcases htext with ⟨htag, -⟩ | ⟨-, -, hinner⟩
    · exact absurd (htag.symm.trans href) (by decide)
    · exact hinner
  · intro hinner
    exact ⟨z, h, Or.inr ⟨href, hne, hinner⟩⟩

end Lookup

/-! ### Replacing a value by a reference to it -/

/-- The memory `rem` has the array `server` under `_SERVER`; `rem'` has there the
zval `ref`, a reference to a `zend_reference` that holds `server`. -/
structure ServerReplaced (rem rem' : Remote) (t : Target) (arData : UInt64)
    (symbols : List Bucket) (i : ℕ) (server : Zval) (entriesAt : UInt64) (entries : List Bucket)
    (ref : Zval) : Prop where
  before : Encodes rem t arData symbols i server
  after : Encodes rem' t arData (symbols.set i ⟨ref, some "_SERVER"⟩) i ref
  array : server.tag = zval.IS_ARRAY
  array_ne : server.value ≠ 0
  table : TableAt rem server.value entriesAt entries
  table_after : TableAt rem' server.value entriesAt entries
  reference : ref.tag = zval.IS_REFERENCE
  held : ZvalAt rem' (ref.value + 8) server

/-- Both memories have the array `server` under `_SERVER`; where the table in `rem`
has the value `z` under `key`, at its `j`-th bucket, the one in `rem'` has the zval
`ref`, a reference to a `zend_reference` that holds `z`.  References do not nest. -/
structure EntryReplaced (rem rem' : Remote) (t : Target) (key : String) (arData : UInt64)
    (symbols : List Bucket) (i : ℕ) (server : Zval) (entriesAt : UInt64) (entries : List Bucket)
    (j : ℕ) (z ref : Zval) : Prop where
  before : Encodes rem t arData symbols i server
  after : Encodes rem' t arData symbols i server
  array : server.tag = zval.IS_ARRAY
  array_ne : server.value ≠ 0
  table : TableAt rem server.value entriesAt entries
  table_after : TableAt rem' server.value entriesAt (entries.set j ⟨ref, some key⟩)
  entry : entries[j]? = some ⟨z, some key⟩
  live : z.tag ≠ zval.IS_UNDEF
  first : ∀ k < j, ∀ b, entries[k]? = some b → b.key = some key → ¬ b.Live
  plain : z.tag ≠ zval.IS_REFERENCE
  reference : ref.tag = zval.IS_REFERENCE
  reference_ne : ref.value ≠ 0
  held : ZvalAt rem' (ref.value + 8) z

theorem reached_set {symbols : List Bucket} {i : ℕ} {b : Bucket} :
    Reached (symbols.set i b) i ↔ Reached symbols i := by
  have hsame : ∀ j < i, (symbols.set i b)[j]? = symbols[j]? := fun j hj =>
    List.getElem?_set_ne (by omega)
  constructor
  · rintro ⟨hlt, h⟩
    exact ⟨hlt, fun j hj b' hb' => h j hj b' (by rw [hsame j hj, hb'])⟩
  · rintro ⟨hlt, h⟩
    exact ⟨hlt, fun j hj b' hb' => h j hj b' (by rw [← hsame j hj, hb'])⟩

/-- A reference in place of the array. -/
theorem requestVar_server_iff {rem rem' : Remote} {t : Target} {arData : UInt64}
    {symbols : List Bucket} {i : ℕ} {server : Zval} {entriesAt : UInt64} {entries : List Bucket}
    {ref : Zval} (key : String)
    (h : ServerReplaced rem rem' t arData symbols i server entriesAt entries ref) :
    t.requestVar .release rem' key = t.requestVar .release rem key ↔
      ¬ Reached symbols i ∨
        ∀ s, ArrayText rem' ref.value key s ↔ Holds rem server.value key s := by
  rw [requestVar_eq_iff]
  by_cases hr : Reached symbols i
  · have hbefore := requestVarImpl_of_reached key h.before hr
    have hafter := requestVarImpl_of_reached key h.after (reached_set.mpr hr)
    simp only [hbefore, hafter, serverLookup_array h.array h.array_ne,
      serverLookup_reference h.reference, hr, not_true_eq_false, false_or]
  · -- the value is never looked at
    have hbefore := requestVarImpl_of_not_reached key h.before hr
    have hafter := requestVarImpl_of_not_reached key h.after (mt reached_set.mp hr)
    simp only [hbefore, hafter, hr, not_false_eq_true, true_or, implies_true]

/-- A reference in place of the value of the key. -/
theorem requestVar_entry_iff {rem rem' : Remote} {t : Target} {key : String} {arData : UInt64}
    {symbols : List Bucket} {i : ℕ} {server : Zval} {entriesAt : UInt64} {entries : List Bucket}
    {j : ℕ} {z ref : Zval}
    (h : EntryReplaced rem rem' t key arData symbols i server entriesAt entries j z ref) :
    t.requestVar .release rem' key = t.requestVar .release rem key ↔
      ¬ Reached symbols i ∨ MAX_BUCKETS ≤ j ∨
        ∀ s, InnerText rem' ref.value s ↔ TextOf rem z s := by
  have hj : j < entries.length := (List.getElem?_eq_some_iff.mp h.entry).1
  have hentry : (entries.set j ⟨ref, some key⟩)[j]? = some ⟨ref, some key⟩ := by
    rw [List.getElem?_set_self hj]
  have hfirst : ∀ k < j, ∀ b, (entries.set j ⟨ref, some key⟩)[k]? = some b →
      b.key = some key → ¬ b.Live := by
    intro k hk b hb
    rw [List.getElem?_set_ne (by omega)] at hb
    exact h.first k hk b hb
  have hlive : ref.tag ≠ zval.IS_UNDEF := by rw [h.reference]; decide
  rw [requestVar_eq_iff]
  by_cases hr : Reached symbols i
  · have hbefore := requestVarImpl_of_reached key h.before hr
    have hafter := requestVarImpl_of_reached key h.after hr
    simp only [hbefore, hafter, serverLookup_array h.array h.array_ne,
      holds_iff_of_first h.table h.entry h.live h.first,
      holds_iff_of_first h.table_after hentry hlive hfirst,
      bucketText_iff_of_plain (h.table.bucket_at j _ h.entry).1 h.plain,
      bucketText_iff_of_reference (h.table_after.bucket_at j _ hentry).1 h.reference
        h.reference_ne, hr, not_true_eq_false, false_or]
    -- the entry itself may lie behind the last slot that is looked at
    by_cases hmax : j < MAX_BUCKETS
    · have hnot : ¬ MAX_BUCKETS ≤ j := by omega
      simp only [hmax, hnot, true_and, false_or]
    · have hle : MAX_BUCKETS ≤ j := by omega
      simp only [hmax, hle, false_and, true_or, implies_true]
  · have hbefore := requestVarImpl_of_not_reached key h.before hr
    have hafter := requestVarImpl_of_not_reached key h.after hr
    simp only [hbefore, hafter, hr, not_false_eq_true, true_or, implies_true]

/-- **When a reference in `$_SERVER` leaves the result unchanged**: exactly when the
scans do not get to the replaced value, or when what stands 16 bytes into the
reference reads the same as the value 8 bytes into it. -/
theorem requestVar_reference_iff (rem rem' : Remote) (t : Target) (key : String) :
    (∀ arData symbols i server entriesAt entries ref,
      ServerReplaced rem rem' t arData symbols i server entriesAt entries ref →
        (t.requestVar .release rem' key = t.requestVar .release rem key ↔
          ¬ Reached symbols i ∨
            ∀ s, ArrayText rem' ref.value key s ↔ Holds rem server.value key s)) ∧
    (∀ arData symbols i server entriesAt entries j z ref,
      EntryReplaced rem rem' t key arData symbols i server entriesAt entries j z ref →
        (t.requestVar .release rem' key = t.requestVar .release rem key ↔
          ¬ Reached symbols i ∨ MAX_BUCKETS ≤ j ∨
            ∀ s, InnerText rem' ref.value s ↔ TextOf rem z s)) :=
  ⟨fun _ _ _ _ _ _ _ h => requestVar_server_iff key h,
    fun _ _ _ _ _ _ _ _ _ h => requestVar_entry_iff h⟩

/-! ### A `$_SERVER` with one entry -/

section OneEntry

/-- A symbol table at `0x130` with one bucket at `0x1000`, called `_SERVER`; a table
at `0x2000` with one bucket at `0x3000`, called `A`; and a string `v` at `0x3200`.
The values of the two buckets are left out. -/
def oneEntry : List (ℕ × UInt8) :=
  [(0x148, 1), (0x141, 0x10), (0x1019, 0x11), (0x1110, 7), (0x1118, 0x5F), (0x1119, 0x53),
    (0x111A, 0x45), (0x111B, 0x52), (0x111C, 0x56), (0x111D, 0x45), (0x111E, 0x52),
    (0x2018, 1), (0x2011, 0x30), (0x3019, 0x31), (0x3110, 1), (0x3118, 0x41),
    (0x3210, 1), (0x3218, 0x76)]

/-- `_SERVER` is the array, `A` is the string. -/
def direct : Remote :=
  .zeroExcept ([(0x1001, 0x20), (0x1008, 7), (0x3001, 0x32), (0x3008, 6)] ++ oneEntry)

/-- `_SERVER` is a reference at `0x4000` to the array, `A` is the string. -/
def serverByReference : Remote :=
  .zeroExcept ([(0x1001, 0x40), (0x1008, 10), (0x4009, 0x20), (0x4010, 7), (0x3001, 0x32),
    (0x3008, 6)] ++ oneEntry)

/-- `_SERVER` is the array, `A` is a reference at `0x4000` to the string. -/
def entryByReference : Remote :=
  .zeroExcept ([(0x1001, 0x20), (0x1008, 7), (0x3001, 0x40), (0x3008, 10), (0x4009, 0x32),
    (0x4010, 6)] ++ oneEntry)

/-- The target with that memory. -/
def oneEntryTarget : Target := ⟨0, layout8_3⟩

/-- A table with one bucket. -/
theorem tableAt_single {rem : Remote} {addr arData : UInt64} {b : Bucket}
    (hn : rem.readU32 (addr + ht.N_NUM_USED) = .ok 1)
    (har : rem.readU64 (addr + ht.AR_DATA) = .ok arData) (hne : arData ≠ 0)
    (hb : BucketAt rem (slot arData 0) b) : TableAt rem addr arData [b] where
  length_lt := by simp
  nUsed := hn
  arData_at := har
  arData_ne := hne
  bucket_at := by
    intro i b' hb'
    cases i with
    | zero =>
      obtain rfl : b = b' := by simpa using hb'
      exact hb
    | succ i => simp at hb'

/-- One bucket called `_SERVER` is the only one. -/
theorem encodes_single {rem : Remote} {t : Target} {arData : UInt64} {server : Zval}
    (h : TableAt rem t.symbolTable arData [⟨server, some "_SERVER"⟩]) :
    Encodes rem t arData [⟨server, some "_SERVER"⟩] 0 server where
  table := h
  entry := rfl
  unique := by
    intro j b hb _ _
    cases j with
    | zero => rfl
    | succ j => simp at hb

theorem serverReplaced_oneEntry : ServerReplaced direct serverByReference oneEntryTarget 0x1000
    [⟨⟨0x2000, 7⟩, some "_SERVER"⟩] 0 ⟨0x2000, 7⟩ 0x3000 [⟨⟨0x3200, 6⟩, some "A"⟩]
    ⟨0x4000, 10⟩ where
  before := encodes_single (tableAt_single (by decide +kernel) (by decide +kernel) (by decide)
    ⟨⟨by decide +kernel, by decide +kernel⟩, by decide +kernel⟩)
  after := encodes_single (tableAt_single (by decide +kernel) (by decide +kernel) (by decide)
    ⟨⟨by decide +kernel, by decide +kernel⟩, by decide +kernel⟩)
  array := by decide
  array_ne := by decide
  table := tableAt_single (by decide +kernel) (by decide +kernel) (by decide)
    ⟨⟨by decide +kernel, by decide +kernel⟩, by decide +kernel⟩
  table_after := tableAt_single (by decide +kernel) (by decide +kernel) (by decide)
    ⟨⟨by decide +kernel, by decide +kernel⟩, by decide +kernel⟩
  reference := by decide
  held := ⟨by decide +kernel, by decide +kernel⟩

theorem entryReplaced_oneEntry : EntryReplaced direct entryByReference oneEntryTarget "A" 0x1000
    [⟨⟨0x2000, 7⟩, some "_SERVER"⟩] 0 ⟨0x2000, 7⟩ 0x3000 [⟨⟨0x3200, 6⟩, some "A"⟩] 0
    ⟨0x3200, 6⟩ ⟨0x4000, 10⟩ where
  before := encodes_single (tableAt_single (by decide +kernel) (by decide +kernel) (by decide)
    ⟨⟨by decide +kernel, by decide +kernel⟩, by decide +kernel⟩)
  after := encodes_single (tableAt_single (by decide +kernel) (by decide +kernel) (by decide)
    ⟨⟨by decide +kernel, by decide +kernel⟩, by decide +kernel⟩)
  array := by decide
  array_ne := by decide
  table := tableAt_single (by decide +kernel) (by decide +kernel) (by decide)
    ⟨⟨by decide +kernel, by decide +kernel⟩, by decide +kernel⟩
  table_after := tableAt_single (by decide +kernel) (by decide +kernel) (by decide)
    ⟨⟨by decide +kernel, by decide +kernel⟩, by decide +kernel⟩
  entry := rfl
  live := by decide
  first := fun k hk => absurd hk (Nat.not_lt_zero k)
  plain := by decide
  reference := by decide
  reference_ne := by decide
  held := ⟨by decide +kernel, by decide +kernel⟩

/-- **A reference loses the value**: `A` is found in `direct`, and neither when
`_SERVER` is a reference to the same array nor when the entry is a reference to the
same string. -/
theorem requestVar_reference_lost :
    ServerReplaced direct serverByReference oneEntryTarget 0x1000
        [⟨⟨0x2000, 7⟩, some "_SERVER"⟩] 0 ⟨0x2000, 7⟩ 0x3000 [⟨⟨0x3200, 6⟩, some "A"⟩]
        ⟨0x4000, 10⟩ ∧
      EntryReplaced direct entryByReference oneEntryTarget "A" 0x1000
        [⟨⟨0x2000, 7⟩, some "_SERVER"⟩] 0 ⟨0x2000, 7⟩ 0x3000 [⟨⟨0x3200, 6⟩, some "A"⟩] 0
        ⟨0x3200, 6⟩ ⟨0x4000, 10⟩ ∧
      oneEntryTarget.requestVar .release direct "A" = .ok (some "v") ∧
      oneEntryTarget.requestVar .release serverByReference "A" = .ok none ∧
      oneEntryTarget.requestVar .release entryByReference "A" = .ok none :=
  ⟨serverReplaced_oneEntry, entryReplaced_oneEntry, by decide +kernel, by decide +kernel,
    by decide +kernel⟩

/-- A key that is not there is not there behind a reference either, and the two
readings of the reference to `v` differ. -/
theorem requestVar_reference_oneEntry :
    (∀ s, ArrayText serverByReference 0x4000 "B" s ↔ Holds direct 0x2000 "B" s) ∧
      ¬ ∀ s, InnerText entryByReference 0x4000 s ↔ TextOf direct ⟨0x3200, 6⟩ s := by
  have hreached : ∀ b : Bucket, Reached [b] 0 := fun b =>
    ⟨by decide, fun j hj => absurd hj (Nat.not_lt_zero j)⟩
  constructor
  · have h := ((requestVar_reference_iff direct serverByReference oneEntryTarget "B").1
      _ _ _ _ _ _ _ serverReplaced_oneEntry).mp (by decide +kernel)
    exact h.resolve_left (fun hn => hn (hreached _))
  · intro hsame
    have h := ((requestVar_reference_iff direct entryByReference oneEntryTarget "A").2
      _ _ _ _ _ _ _ _ _ entryReplaced_oneEntry).mpr (Or.inr (Or.inr hsame))
    exact absurd h (by decide +kernel)

end OneEntry

end PhpFastProfile
