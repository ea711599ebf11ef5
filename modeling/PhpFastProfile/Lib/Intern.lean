import Mathlib.Data.List.AList
import Mathlib.Data.List.Nodup
import Mathlib.Data.List.Infix

/-!
# Insert-if-absent tables

A table of rows grows by one row for every new key, and an index maps each key
back to the id of its row.  The scheme of a table says which id the row at a
position has and which row is stored for a key; an id names one position and a
row names one key.  `Indexes` says that the index is exactly the inverse of the
table, which insert-if-absent (`internRow`) preserves; everything an index has
ever answered stays true of every later table, since rows are only appended.

## Main definitions

* `Scheme` — how a table numbers and builds its rows.
* `internRow S key rows index` — the id of `key`, appending a row when it is new.
* `Indexes S rows index` — `index` is the inverse of `rows`.

## Main results

* `Indexes.internRow` — interning preserves the inverse.
* `lookup_internRow` — the id returned is the one the new index holds.
* `lookup_internRow_of_lookup` — nothing already interned moves.
* `Indexes.find?_eq` — a row is found again by its id.
-/

namespace Intern

variable {κ ι ρ : Type*}

/-- How a table numbers its rows and which row it stores for a key. -/
structure Scheme (κ ι ρ : Type*) where
  /-- The id of the row at a position. -/
  mkId : ℕ → ι
  /-- The row stored under an id for a key. -/
  mkRow : ι → κ → ρ
  /-- Distinct positions have distinct ids. -/
  mkId_injective : Function.Injective mkId
  /-- Distinct keys have distinct rows. -/
  mkRow_injective : ∀ i, Function.Injective (mkRow i)

/-- `index` is the inverse of `rows`: it maps a key to the id of its row, and
every row belongs to a key. -/
structure Indexes (S : Scheme κ ι ρ) [DecidableEq κ] (rows : List ρ)
    (index : AList fun _ : κ => ι) : Prop where
  lookup_eq : ∀ key i,
    index.lookup key = some i ↔ ∃ n, i = S.mkId n ∧ rows[n]? = some (S.mkRow i key)
  row_eq : ∀ n r, rows[n]? = some r → ∃ key, r = S.mkRow (S.mkId n) key

variable [DecidableEq κ]

/-- The id of `key`, with the table and the index after the lookup: a key that
is new gets the next row. -/
def internRow (S : Scheme κ ι ρ) (key : κ) (rows : List ρ) (index : AList fun _ : κ => ι) :
    ι × List ρ × AList fun _ : κ => ι :=
  match index.lookup key with
  | some i => (i, rows, index)
  | none =>
    let i := S.mkId rows.length
    (i, rows ++ [S.mkRow i key], index.insert key i)

variable {S : Scheme κ ι ρ} {key : κ} {rows : List ρ} {index : AList fun _ : κ => ι}

theorem internRow_of_some {i : ι} (h : index.lookup key = some i) :
    internRow S key rows index = (i, rows, index) := by
  rw [internRow, h]

theorem internRow_of_none (h : index.lookup key = none) :
    internRow S key rows index = (S.mkId rows.length,
      rows ++ [S.mkRow (S.mkId rows.length) key], index.insert key (S.mkId rows.length)) := by
  rw [internRow, h]

/-! ### What interning returns -/

/-- The id returned is the one the new index holds. -/
theorem lookup_internRow (S : Scheme κ ι ρ) (key : κ) (rows : List ρ)
    (index : AList fun _ : κ => ι) :
    (internRow S key rows index).2.2.lookup key = some (internRow S key rows index).1 := by
  cases h : index.lookup key with
  | some i => rw [internRow_of_some h, h]
  | none => rw [internRow_of_none h, AList.lookup_insert]

/-- An id already given out is kept. -/
theorem lookup_internRow_of_lookup {key' : κ} {i : ι} (h : index.lookup key' = some i) :
    (internRow S key rows index).2.2.lookup key' = some i := by
  cases hk : index.lookup key with
  | some j => rw [internRow_of_some hk, h]
  | none =>
    have hne : key' ≠ key := by
      rintro rfl
      rw [h] at hk
      exact absurd hk (by simp)
    rw [internRow_of_none hk, AList.lookup_insert_ne hne, h]

/-- A key of the new index is an old key or the interned one. -/
theorem eq_or_lookup_of_lookup_internRow {key' : κ} {i : ι}
    (h : (internRow S key rows index).2.2.lookup key' = some i) :
    key' = key ∨ index.lookup key' = some i := by
  by_cases hne : key' = key
  · exact Or.inl hne
  · apply Or.inr
    cases hk : index.lookup key with
    | some j => rwa [internRow_of_some hk] at h
    | none => rwa [internRow_of_none hk, AList.lookup_insert_ne hne] at h

/-! ### The index stays the inverse of the table -/

theorem indexes_empty (S : Scheme κ ι ρ) : Indexes S [] ∅ where
  lookup_eq := by simp
  row_eq := by simp

/-- A key holds the id of a row within the table. -/
theorem Indexes.exists_lt (h : Indexes S rows index) {i : ι} (hk : index.lookup key = some i) :
    ∃ n, n < rows.length ∧ i = S.mkId n ∧ rows[n]? = some (S.mkRow i key) := by
  obtain ⟨n, hi, hn⟩ := (h.lookup_eq key i).mp hk
  exact ⟨n, (List.getElem?_eq_some_iff.mp hn).1, hi, hn⟩

/-- **Insert-if-absent keeps the index the inverse of the table.** -/
theorem Indexes.internRow (h : Indexes S rows index) (key : κ) :
    Indexes S (internRow S key rows index).2.1 (internRow S key rows index).2.2 := by
  cases hk : index.lookup key with
  | some i => rw [internRow_of_some hk]; exact h
  | none =>
    rw [internRow_of_none hk]
    constructor
    · intro key' i
      by_cases hne : key' = key
      · subst hne
        rw [AList.lookup_insert]
        -- the key was new, so its row is the last one
        constructor
        · intro hi
          obtain rfl : S.mkId rows.length = i := by simpa using hi
          exact ⟨rows.length, rfl, by simp⟩
        · rintro ⟨n, rfl, hn⟩
          rcases Nat.lt_trichotomy n rows.length with hlt | rfl | hgt
          · rw [List.getElem?_append_left hlt] at hn
            rw [(h.lookup_eq key' (S.mkId n)).mpr ⟨n, rfl, hn⟩] at hk
            exact absurd hk (by simp)
          · rfl
          · rw [List.getElem?_eq_none (by simp; omega)] at hn
            exact absurd hn (by simp)
      · rw [AList.lookup_insert_ne hne, h.lookup_eq]
        refine exists_congr fun n => and_congr_right fun hi => ?_
        -- any other key has its row among the old ones
        rcases Nat.lt_trichotomy n rows.length with hlt | rfl | hgt
        · rw [List.getElem?_append_left hlt]
        · subst hi
          have hrow : S.mkRow (S.mkId rows.length) key' ≠ S.mkRow (S.mkId rows.length) key :=
            fun he => hne (S.mkRow_injective _ he)
          simp [Ne.symm hrow]
        · rw [List.getElem?_eq_none (by omega), List.getElem?_eq_none (by simp; omega)]
    · intro n r hn
      rcases Nat.lt_trichotomy n rows.length with hlt | rfl | hgt
      · rw [List.getElem?_append_left hlt] at hn
        exact h.row_eq n r hn
      · simp only [List.getElem?_concat_length, Option.some.injEq] at hn
        exact ⟨key, hn.symm⟩
      · rw [List.getElem?_eq_none (by simp; omega)] at hn
        exact absurd hn (by simp)

/-- No two positions hold the row of one key. -/
theorem Indexes.position_inj (h : Indexes S rows index) {m n : ℕ}
    (hm : rows[m]? = some (S.mkRow (S.mkId m) key))
    (hn : rows[n]? = some (S.mkRow (S.mkId n) key)) : m = n := by
  have h₁ := (h.lookup_eq key (S.mkId m)).mpr ⟨m, rfl, hm⟩
  have h₂ := (h.lookup_eq key (S.mkId n)).mpr ⟨n, rfl, hn⟩
  exact S.mkId_injective (Option.some.inj (h₁.symm.trans h₂))

/-! ### Finding a row by its id -/

/-- The ids of the rows, in table order. -/
theorem Indexes.map_id (h : Indexes S rows index) (idOf : ρ → ι)
    (hid : ∀ i key, idOf (S.mkRow i key) = i) :
    rows.map idOf = (List.range rows.length).map S.mkId := by
  refine List.ext_getElem? fun n => ?_
  rw [List.getElem?_map, List.getElem?_map]
  rcases Nat.lt_or_ge n rows.length with hn | hn
  · obtain ⟨key, hr⟩ := h.row_eq n rows[n] (List.getElem?_eq_getElem hn)
    rw [List.getElem?_eq_getElem hn, List.getElem?_range hn, Option.map_some, Option.map_some,
      hr, hid]
  · rw [List.getElem?_eq_none hn, List.getElem?_eq_none (by simpa using hn)]
    rfl

/-- A key holds an id exactly when its row under that id is in the table. -/
theorem Indexes.lookup_iff_mem (h : Indexes S rows index) (idOf : ρ → ι)
    (hid : ∀ i key, idOf (S.mkRow i key) = i) {i : ι} :
    index.lookup key = some i ↔ S.mkRow i key ∈ rows := by
  rw [h.lookup_eq, List.mem_iff_getElem?]
  refine exists_congr fun n => and_iff_right_of_imp fun hn => ?_
  obtain ⟨key', hr⟩ := h.row_eq n _ hn
  rw [← hid i key, hr, hid]

/-- A row of the table is the row of a key that holds its id. -/
theorem Indexes.exists_key (h : Indexes S rows index) {r : ρ} (hr : r ∈ rows) :
    ∃ key i, index.lookup key = some i ∧ r = S.mkRow i key := by
  obtain ⟨n, hn⟩ := List.mem_iff_getElem?.mp hr
  obtain ⟨key, rfl⟩ := h.row_eq n r hn
  exact ⟨key, S.mkId n, (h.lookup_eq _ _).mpr ⟨n, rfl, hn⟩, rfl⟩

/-- A row is found again by its id. -/
theorem Indexes.find?_eq [DecidableEq ι] (h : Indexes S rows index) (idOf : ρ → ι)
    (hid : ∀ i key, idOf (S.mkRow i key) = i) {i : ι} (hk : index.lookup key = some i) :
    (rows.find? fun r => idOf r == i) = some (S.mkRow i key) := by
  obtain ⟨n, hn, rfl, hrow⟩ := h.exists_lt hk
  rw [List.find?_eq_some_iff_getElem]
  refine ⟨by simp [hid], n, hn, ?_, ?_⟩
  · rwa [List.getElem?_eq_getElem hn, Option.some.injEq] at hrow
  · intro m hm
    obtain ⟨key', hr⟩ := h.row_eq m rows[m] (List.getElem?_eq_getElem (by omega))
    have hne : S.mkId m ≠ S.mkId n := fun he => by have := S.mkId_injective he; omega
    simp [hr, hid, hne]

end Intern
