import PhpFastProfile.Target.Room
import PhpFastProfile.Target.Reference

/-!
# The two scans of a bucket array

`request_var_impl` looks for `_SERVER` in the symbol table with a scan of its own, which
reads the key of a bucket before its type: a deleted entry is taken for one that is
there.  `ht_get_string` skips deleted entries.  So on one table and for one key the two
settle on different buckets as soon as the first bucket with that key is not live.

## Main definitions

* `settled` — the bucket a scan settles on.
* `FirstLive` — the first bucket with the key is live.

## Main results

* `requestVarImpl_eq_settled`, `htGetString_eq_settled` — both scans return what the
  round at that bucket returns.
* `serverBucket_eq_iff` — **when the two scans settle on the same bucket.**
-/

namespace PhpFastProfile

/-- The round of a scan at bucket `i` is the one at its address. -/
theorem scanBuckets_eq_stopAt (round : UInt64 → Outcome (Option (Option String)))
    (arData : UInt64) (nUsed : UInt32) :
    scanBuckets .release round arData nUsed =
      match Loop.stopAt (fun i => round (slot arData i)) (min nUsed.toNat MAX_BUCKETS) with
      | none => .ok none
      | some i => do return (← round (slot arData i)).join := by
  unfold scanBuckets
  simp only [Build.release_add, ok_bind]
  change (do
    let found ← Loop.firstFrom (fun i => round (slot arData i)) 0 (min nUsed.toNat MAX_BUCKETS)
    return found.join) = _
  rw [Loop.firstFrom_eq_stopAt]
  cases Loop.stopAt (fun i => round (slot arData i)) (min nUsed.toNat MAX_BUCKETS) <;> rfl

section Settled

variable (rem : Remote) (round : UInt64 → Outcome (Option (Option String)))

/-- The bucket on which a scan of the table at `addr` settles, `none` if there is none. -/
def settled (addr : UInt64) : Option ℕ :=
  match rem.readU32 (addr + ht.N_NUM_USED), rem.readU64 (addr + ht.AR_DATA) with
  | .ok nUsed, .ok arData =>
    if arData = 0 then none
    else Loop.stopAt (fun i => round (slot arData i)) (min nUsed.toNat MAX_BUCKETS)
  | _, _ => none

/-- The round at the bucket a scan has settled on. -/
def settledRound (addr : UInt64) : Outcome (Option String) := do
  let _ ← rem.readU32 (addr + ht.N_NUM_USED)
  let arData ← rem.readU64 (addr + ht.AR_DATA)
  match settled rem round addr with
  | none => return none
  | some i => return (← round (slot arData i)).join

end Settled

variable {rem : Remote} {addr arData : UInt64} {nUsed : UInt32} {key : String}

theorem settled_of_ok {round : UInt64 → Outcome (Option (Option String))}
    (hn : rem.readU32 (addr + ht.N_NUM_USED) = .ok nUsed)
    (har : rem.readU64 (addr + ht.AR_DATA) = .ok arData) :
    settled rem round addr = if arData = 0 then none
      else Loop.stopAt (fun i => round (slot arData i)) (min nUsed.toNat MAX_BUCKETS) := by
  rw [settled, hn, har]

/-- The round at that bucket returns what the scan returns. -/
theorem settledRound_eq (round : UInt64 → Outcome (Option (Option String))) :
    settledRound rem round addr = (do
      let nUsed ← rem.readU32 (addr + ht.N_NUM_USED)
      let arData ← rem.readU64 (addr + ht.AR_DATA)
      if arData = 0 then return none
      scanBuckets .release round arData nUsed) := by
  unfold settledRound
  cases hn : rem.readU32 (addr + ht.N_NUM_USED) with
  | error s => rfl
  | ok nUsed =>
    cases har : rem.readU64 (addr + ht.AR_DATA) with
    | error s => rfl
    | ok arData =>
      simp only [ok_bind, settled_of_ok hn har, scanBuckets_eq_stopAt]
      by_cases hnull : arData = 0
      · rw [if_pos hnull, if_pos hnull]
      · rw [if_neg hnull, if_neg hnull]
        rfl

/-- **The scan of the symbol table returns what the round at its bucket returns.** -/
theorem requestVarImpl_eq_settled (t : Target) :
    t.requestVarImpl .release rem key =
      settledRound rem (Target.symbolRound .release rem key) t.symbolTable := by
  rw [settledRound_eq]
  rfl

/-- **So does the scan of `ht_get_string`.** -/
theorem htGetString_eq_settled :
    htGetString .release rem addr key = settledRound rem (htRound .release rem key) addr := by
  rw [settledRound_eq]
  unfold htGetString
  simp only [Build.release_add, ok_bind]
  refine bind_congr fun nUsed => bind_congr fun arData => ?_
  by_cases hnull : arData = 0
  · rw [if_pos (Or.inl hnull), if_pos hnull]
  · rw [if_neg hnull]
    by_cases hzero : nUsed = 0
    · -- no round is made
      rw [if_pos (Or.inr hzero), hzero]
      rfl
    · rw [if_neg (not_or.mpr ⟨hnull, hzero⟩)]

/-! ### The bucket of `_SERVER` -/

/-- The bucket the scan of `request_var_impl` settles on. -/
def Target.serverBucket (rem : Remote) (t : Target) (key : String) : Option ℕ :=
  settled rem (symbolRound .release rem key) t.symbolTable

/-- The bucket the scan of `ht_get_string` settles on. -/
def htBucket (rem : Remote) (addr : UInt64) (key : String) : Option ℕ :=
  settled rem (htRound .release rem key) addr

/-- The bucket at `b` has a type word that can be read, and is no tombstone. -/
def LiveAt (rem : Remote) (b : UInt64) : Prop :=
  ∃ typeInfo, rem.readU32 (b + bucket.VAL + zval.TYPE_INFO) = .ok typeInfo ∧
    typeInfo.toUInt8 ≠ zval.IS_UNDEF

/-- Of the buckets the table at `addr` is scanned for, the first that reads as called
`key` is live, if there is one. -/
def FirstLive (rem : Remote) (addr : UInt64) (key : String) : Prop :=
  ∀ nUsed arData, rem.readU32 (addr + ht.N_NUM_USED) = .ok nUsed →
    rem.readU64 (addr + ht.AR_DATA) = .ok arData → arData ≠ 0 →
    ∀ i < min nUsed.toNat MAX_BUCKETS,
      (∀ j < i, bucketKey rem (slot arData j) ≠ some key) →
      bucketKey rem (slot arData i) = some key → LiveAt rem (slot arData i)

/-- A bucket is live under a key if it is live and reads as called that. -/
theorem liveKey_eq_some_iff {b : UInt64} :
    liveKey rem b = some key ↔ LiveAt rem b ∧ bucketKey rem b = some key := by
  unfold liveKey LiveAt
  cases rem.readU32 (b + bucket.VAL + zval.TYPE_INFO) with
  | error s => simp
  | ok typeInfo => by_cases hundef : typeInfo.toUInt8 = zval.IS_UNDEF <;> simp [hundef]

/-- **The two scans settle on the same bucket** exactly if the first bucket called
`_SERVER` is live, or there is none. -/
theorem serverBucket_eq_iff (rem : Remote) (t : Target) (key : String) :
    t.serverBucket rem key = htBucket rem t.symbolTable "_SERVER" ↔
      FirstLive rem t.symbolTable "_SERVER" := by
  unfold Target.serverBucket htBucket FirstLive
  cases hn : rem.readU32 (t.symbolTable + ht.N_NUM_USED) with
  | error s => simp [settled, hn]
  | ok nUsed =>
    cases har : rem.readU64 (t.symbolTable + ht.AR_DATA) with
    | error s => simp [settled, hn, har]
    | ok arData =>
      rw [settled_of_ok hn har, settled_of_ok hn har]
      by_cases hnull : arData = 0
      · simp [hnull]
      · -- a round of `ht_get_string` stops at no more buckets than one of the other scan
        have hstrict : ∀ i, htRound .release rem "_SERVER" (slot arData i) ≠ .ok none →
            Target.symbolRound .release rem key (slot arData i) ≠ .ok none := by
          intro i h
          rw [ne_eq, htRound_eq_none_iff, not_not, liveKey_eq_some_iff] at h
          rw [ne_eq, symbolRound_eq_none_iff, not_not]
          exact h.2
        rw [if_neg hnull, if_neg hnull, Loop.stopAt_eq_iff hstrict]
        constructor
        · intro h nUsed' arData' hn' har' _ i hi hbefore hkey
          obtain rfl : nUsed = nUsed' := Except.ok.inj hn'
          obtain rfl : arData = arData' := Except.ok.inj har'
          have hstop : Loop.stopAt (fun i => Target.symbolRound .release rem key (slot arData i))
              (min nUsed.toNat MAX_BUCKETS) = some i :=
            Loop.stopAt_eq_some_iff.mpr ⟨hi, fun j hj => symbolRound_eq_none_iff.mpr (hbefore j hj),
              fun hround => symbolRound_eq_none_iff.mp hround hkey⟩
          have hlive := h i hstop
          rw [ne_eq, htRound_eq_none_iff, not_not, liveKey_eq_some_iff] at hlive
          exact hlive.1
        · intro h i hstop hround
          obtain ⟨hi, hbefore, hkey⟩ := Loop.stopAt_eq_some_iff.mp hstop
          rw [ne_eq, symbolRound_eq_none_iff, not_not] at hkey
          have hlive := h nUsed arData rfl rfl hnull i hi
            (fun j hj => symbolRound_eq_none_iff.mp (hbefore j hj)) hkey
          exact htRound_eq_none_iff.mp hround (liveKey_eq_some_iff.mpr ⟨hlive, hkey⟩)

/-- A symbol table at `0x130` with a tombstone that was called `_SERVER` before the
array of that name. -/
def serverReplaced : Remote :=
  .zeroExcept ([(0x1008, 0), (0x1039, 0x11), (0x1021, 0x20), (0x1028, 7), (0x3001, 0x32),
    (0x3008, 6), (0x148, 2)] ++ oneEntry)

/-- **A tombstone hides the array**: the one scan settles on the tombstone, the other
on the array, and the string `A` in it is not found. -/
theorem serverBucket_serverReplaced :
    oneEntryTarget.serverBucket serverReplaced "A" = some 0 ∧
      htBucket serverReplaced oneEntryTarget.symbolTable "_SERVER" = some 1 ∧
      oneEntryTarget.requestVar .release serverReplaced "A" = .ok none ∧
      htGetString .release serverReplaced 0x2000 "A" = .ok (some "v") := by
  decide +kernel

end PhpFastProfile
