import Mathlib.Data.List.AList

/-!
# Memoised reads inside a stateful computation

A computation `x` with state *agrees* with a plain computation `y` under an
invariant when from every state of the invariant it has the outcome of `y` and
keeps the invariant, also where it fails.  Agreement composes, so a program is
compared with its plain version one operation at a time.

`cached bound read` keeps the values `read` returned in a table of at most
`bound` entries.  It agrees with `overlay t read`, which takes the entries of
the table `t` it started from and reads otherwise; when these entries are what
`read` returns, that is `read` itself.

## Main definitions

* `Memo.Agrees I x y` — from `I`, `x` does what `y` does.
* `Memo.cached bound read` — the memoised read.
* `Memo.overlay t read` — the entries of `t`, and `read` elsewhere.
* `Memo.Grown t read bound` — the tables that can grow out of `t`.

## Main results

* `Memo.Agrees.bind`, `Memo.Agrees.tryCatch` — agreement composes.
* `Memo.cached_agrees` — **a memoised read agrees with the overlaid one.**
* `Memo.overlay_eq_self` — overlaying coherent entries changes nothing.
-/

namespace Memo

variable {σ ε α β : Type}

/-! ### Agreement -/

/-- The value or error of a finished computation. -/
def outcome : EStateM.Result ε σ α → Except ε α
  | .ok a _ => .ok a
  | .error e _ => .error e

/-- The state a finished computation leaves. -/
def finalState : EStateM.Result ε σ α → σ
  | .ok _ s => s
  | .error _ s => s

/-- From every state of `I`, `x` has the outcome `y` and ends in `I`. -/
def Agrees (I : σ → Prop) (x : EStateM ε σ α) (y : Except ε α) : Prop :=
  ∀ s, I s → outcome (x s) = y ∧ I (finalState (x s))

/-- Run a plain computation, leaving the state alone. -/
def lift (y : Except ε α) : EStateM ε σ α := fun s =>
  match y with
  | .ok a => .ok a s
  | .error e => .error e s

instance instMonadLiftExcept : MonadLift (Except ε) (EStateM ε σ) := ⟨lift⟩

variable {I : σ → Prop}

theorem Agrees.lift (y : Except ε α) : Agrees I (Memo.lift y) y := by
  intro s hs
  cases y with
  | ok a => exact ⟨rfl, hs⟩
  | error e => exact ⟨rfl, hs⟩

theorem Agrees.liftM (y : Except ε α) :
    Agrees I (liftM y : EStateM ε σ α) (liftM y : Except ε α) :=
  Agrees.lift y

theorem Agrees.throw (e : ε) :
    Agrees I (MonadExcept.throw e : EStateM ε σ α) (MonadExcept.throw e) := by
  intro s hs
  exact ⟨rfl, hs⟩

theorem Agrees.pure (a : α) : Agrees I (Pure.pure a : EStateM ε σ α) (Pure.pure a) := by
  intro s hs
  exact ⟨rfl, hs⟩

/-- Agreement of two steps in sequence. -/
theorem Agrees.bind {x : EStateM ε σ α} {y : Except ε α} {f : α → EStateM ε σ β}
    {g : α → Except ε β} (h : Agrees I x y) (hf : ∀ a, Agrees I (f a) (g a)) :
    Agrees I (x >>= f) (y >>= g) := by
  intro s hs
  obtain ⟨hout, hI⟩ := h s hs
  change outcome (EStateM.bind x f s) = _ ∧ I (finalState (EStateM.bind x f s))
  unfold EStateM.bind
  cases hx : x s with
  | ok a s' =>
    rw [hx] at hout hI
    subst hout
    exact hf a s' hI
  | error e s' =>
    rw [hx] at hout hI
    subst hout
    exact ⟨rfl, hI⟩

/-- Agreement of two steps the second of which runs only on an error. -/
theorem Agrees.tryCatch {x : EStateM ε σ α} {y : Except ε α} {h : ε → EStateM ε σ α}
    {k : ε → Except ε α} (hx : Agrees I x y) (hh : ∀ e, Agrees I (h e) (k e)) :
    Agrees I (MonadExcept.tryCatch x h) (MonadExcept.tryCatch y k) := by
  intro s hs
  obtain ⟨hout, hI⟩ := hx s hs
  change outcome (EStateM.tryCatch x h s) = Except.tryCatch y k
    ∧ I (finalState (EStateM.tryCatch x h s))
  unfold EStateM.tryCatch
  cases hxs : x s with
  | ok a s' =>
    rw [hxs] at hout hI
    subst hout
    exact ⟨rfl, hI⟩
  | error e s' =>
    rw [hxs] at hout hI
    subst hout
    exact hh e s' hI

/-- A step that returns a known value. -/
theorem Agrees.bind_ok {x : EStateM ε σ α} {a : α} {f : α → EStateM ε σ β} {y : Except ε β}
    (h : Agrees I x (.ok a)) (hf : Agrees I (f a) y) : Agrees I (x >>= f) y := by
  intro s hs
  obtain ⟨hout, hI⟩ := h s hs
  change outcome (EStateM.bind x f s) = _ ∧ I (finalState (EStateM.bind x f s))
  unfold EStateM.bind
  cases hx : x s with
  | ok a' s' =>
    rw [hx] at hout hI
    obtain rfl := Except.ok.inj hout
    exact hf s' hI
  | error e s' =>
    rw [hx] at hout
    cases hout

/-- Behind a step that fails nothing runs. -/
theorem Agrees.bind_error {x : EStateM ε σ α} {e : ε} {f : α → EStateM ε σ β}
    (h : Agrees I x (.error e)) : Agrees I (x >>= f) (.error e) := by
  intro s hs
  obtain ⟨hout, hI⟩ := h s hs
  change outcome (EStateM.bind x f s) = _ ∧ I (finalState (EStateM.bind x f s))
  unfold EStateM.bind
  cases hx : x s with
  | ok a' s' =>
    rw [hx] at hout
    cases hout
  | error e' s' =>
    rw [hx] at hout hI
    obtain rfl := Except.error.inj hout
    exact ⟨rfl, hI⟩

/-- A plain step, with what it comes to. -/
theorem Agrees.liftM_eq {y y' : Except ε α} (h : y = y') :
    Agrees I (MonadLiftT.monadLift y : EStateM ε σ α) y' :=
  h ▸ Agrees.lift y

theorem Agrees.ite {p : Prop} [Decidable p] {x x' : EStateM ε σ α} {y y' : Except ε α}
    (h : Agrees I x y) (h' : Agrees I x' y') :
    Agrees I (if p then x else x') (if p then y else y') := by
  split
  · exact h
  · exact h'

/-! ### Memoised reads -/

variable {κ ν : Type} [DecidableEq κ]

/-- Read `k`, through a table of at most `bound` entries. -/
def cached (bound : ℕ) (read : κ → Except ε ν) (k : κ) : EStateM ε (AList fun _ : κ => ν) ν :=
  fun t =>
    match t.lookup k with
    | some v => .ok v t
    | none =>
      match read k with
      | .ok v => .ok v (if t.entries.length < bound then t.insert k v else t)
      | .error e => .error e t

/-- The entries of `t`, and `read` where there is none. -/
def overlay (t : AList fun _ : κ => ν) (read : κ → Except ε ν) (k : κ) : Except ε ν :=
  match t.lookup k with
  | some v => .ok v
  | none => read k

/-- `t'` can have grown out of `t` by memoising `read` up to `bound` entries. -/
structure Grown (t : AList fun _ : κ => ν) (read : κ → Except ε ν) (bound : ℕ)
    (t' : AList fun _ : κ => ν) : Prop where
  keeps : ∀ k v, t.lookup k = some v → t'.lookup k = some v
  sound : ∀ k v, t'.lookup k = some v → overlay t read k = .ok v
  size_le : t'.entries.length ≤ bound

theorem Grown.refl {t : AList fun _ : κ => ν} {read : κ → Except ε ν} {bound : ℕ}
    (h : t.entries.length ≤ bound) : Grown t read bound t where
  keeps _ _ hk := hk
  sound k v hk := by rw [overlay, hk]
  size_le := h

/-- **A memoised read agrees with the overlaid one**, also on a table that is
already over the bound. -/
theorem cached_agrees (t : AList fun _ : κ => ν) (read : κ → Except ε ν) {bound n : ℕ}
    (hn : bound ≤ n) (k : κ) :
    Agrees (Grown t read n) (cached bound read k) (overlay t read k) := by
  intro t' h
  unfold cached
  cases hk : t'.lookup k with
  | some v =>
    exact ⟨(h.sound k v hk).symm, h⟩
  | none =>
    -- a key that is missing now was missing at the start
    have hmiss : t.lookup k = none := by
      cases ht : t.lookup k with
      | none => rfl
      | some v => rw [h.keeps k v ht] at hk; exact absurd hk (by simp)
    have hread : overlay t read k = read k := by rw [overlay, hmiss]
    cases hr : read k with
    | error e => exact ⟨by rw [hread, hr]; rfl, h⟩
    | ok v =>
      refine ⟨by rw [hread, hr]; rfl, ?_⟩
      change Grown t read n (if t'.entries.length < bound then t'.insert k v else t')
      split
      · next hlt =>
        have hnot : k ∉ t' := AList.lookup_eq_none.mp hk
        -- the new entry is what the read returns, and there was room for it
        refine ⟨fun k' v' hk' => ?_, fun k' v' hk' => ?_, ?_⟩
        · have hne : k' ≠ k := by rintro rfl; rw [hmiss] at hk'; exact absurd hk' (by simp)
          rw [AList.lookup_insert_ne hne]
          exact h.keeps k' v' hk'
        · by_cases hne : k' = k
          · subst hne
            rw [AList.lookup_insert, Option.some.injEq] at hk'
            rw [hread, hr, hk']
          · rw [AList.lookup_insert_ne hne] at hk'
            exact h.sound k' v' hk'
        · rw [AList.insert_of_notMem hnot]
          exact Nat.le_trans hlt hn
      · exact h

/-- Every entry of a grown table was there at the start or has been read. -/
theorem Grown.entry {t t' : AList fun _ : κ => ν} {read : κ → Except ε ν} {bound : ℕ}
    (h : Grown t read bound t') {k : κ} {v : ν} (hk : t'.lookup k = some v) :
    t.lookup k = some v ∨ read k = .ok v := by
  have hs := h.sound k v hk
  rw [overlay] at hs
  cases ht : t.lookup k with
  | none => rw [ht] at hs; exact Or.inr hs
  | some w => rw [ht] at hs; exact Or.inl (congrArg some (Except.ok.inj hs))

/-- Overlaying entries that are what `read` returns changes nothing. -/
theorem overlay_eq_self {t : AList fun _ : κ => ν} {read : κ → Except ε ν}
    (h : ∀ k v, t.lookup k = some v → read k = .ok v) : overlay t read = read := by
  funext k
  rw [overlay]
  cases hk : t.lookup k with
  | none => rfl
  | some v => exact (h k v hk).symm

@[simp] theorem overlay_empty (read : κ → Except ε ν) : overlay ∅ read = read :=
  overlay_eq_self fun k v hk => absurd hk (by simp)

end Memo
