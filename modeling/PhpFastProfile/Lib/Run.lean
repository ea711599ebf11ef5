import Mathlib.Data.List.Basic
import Mathlib.Data.List.Induction

/-!
# Runs of a guarded step function

A system is given by a step function: `step s a` is the state after the action
`a`, or `none` when `a` cannot happen in `s`.  `exec step s as` performs a list
of actions.  Runs are taken apart at their last action, so that what is known of
a run is carried over one step at a time.

## Main results

* `Run.exec_concat` — a run ends with its last step.
* `Run.invariant` — **what holds at the start and survives every step holds at the end.**
* `Run.invariant_of_forall` — the same for runs of certain actions.
* `Run.exec_trace` — the same for what depends on the actions performed so far.
* `Run.occurs_concat` — an event of a run happens before its last action or with it.
* `Run.observe_concat` — what is seen of the last step comes last.
-/

namespace Run

variable {σ α : Type*} {step : σ → α → Option σ}

/-- Perform the actions one after the other. -/
def exec (step : σ → α → Option σ) (s : σ) (as : List α) : Option σ := as.foldlM step s

@[simp] theorem exec_nil (s : σ) : exec step s [] = some s := rfl

theorem exec_append (s : σ) (as bs : List α) :
    exec step s (as ++ bs) = (exec step s as).bind fun m => exec step m bs := by
  unfold exec
  rw [List.foldlM_append]
  rfl

/-- A run ends with its last step. -/
theorem exec_concat {s s' : σ} {as : List α} {a : α} :
    exec step s (as ++ [a]) = some s' ↔ ∃ m, exec step s as = some m ∧ step m a = some s' := by
  rw [exec_append, Option.bind_eq_some_iff]
  simp [exec, List.foldlM]

/-- **What holds at the start and survives every step holds at the end of a run.** -/
theorem invariant {P : σ → Prop} (hstep : ∀ s a s', P s → step s a = some s' → P s') :
    ∀ {as : List α} {s s' : σ}, P s → exec step s as = some s' → P s' := by
  intro as
  induction as using List.reverseRecOn with
  | nil =>
    intro s s' hs h
    obtain rfl : s = s' := Option.some.inj h
    exact hs
  | append_singleton as a ih =>
    intro s s' hs h
    obtain ⟨m, hm, hlast⟩ := exec_concat.mp h
    exact hstep m a s' (ih hs hm) hlast

/-- The same for a run of actions with `Q`, where only these are known to keep `P`. -/
theorem invariant_of_forall {P : σ → Prop} {Q : α → Prop}
    (hstep : ∀ s a s', Q a → P s → step s a = some s' → P s') :
    ∀ {as : List α} {s s' : σ}, (∀ a ∈ as, Q a) → P s → exec step s as = some s' → P s' := by
  intro as
  induction as using List.reverseRecOn with
  | nil =>
    intro s s' _ hs h
    obtain rfl : s = s' := Option.some.inj h
    exact hs
  | append_singleton as a ih =>
    intro s s' hQ hs h
    obtain ⟨m, hm, hlast⟩ := exec_concat.mp h
    have hP := ih (fun b hb => hQ b (List.mem_append_left _ hb)) hs hm
    exact hstep m a s' (hQ a (by simp)) hP hlast

/-- What holds of the empty run and survives every further step holds of every run. -/
theorem exec_trace {P : List α → σ → Prop} {s : σ} (hnil : P [] s)
    (hstep : ∀ as m a s', exec step s as = some m → P as m → step m a = some s' →
      P (as ++ [a]) s') :
    ∀ {as : List α} {s' : σ}, exec step s as = some s' → P as s' := by
  intro as
  induction as using List.reverseRecOn with
  | nil =>
    intro s' h
    obtain rfl : s = s' := Option.some.inj h
    exact hnil
  | append_singleton as a ih =>
    intro s' h
    obtain ⟨m, hm, hlast⟩ := exec_concat.mp h
    exact hstep as m a s' hm (ih hm) hlast

/-! ### Events -/

/-- Somewhere in the run an action is performed in a state with `E`. -/
def Occurs (step : σ → α → Option σ) (s : σ) (as : List α) (E : σ → α → Prop) : Prop :=
  ∃ pre a post m, as = pre ++ a :: post ∧ exec step s pre = some m ∧ E m a

@[simp] theorem not_occurs_nil (s : σ) (E : σ → α → Prop) : ¬ Occurs step s [] E := by
  rintro ⟨pre, a, post, m, has, -, -⟩
  simp at has

/-- An event happens before the last action or with it. -/
theorem occurs_concat {s m : σ} {as : List α} {a : α} {E : σ → α → Prop}
    (hm : exec step s as = some m) :
    Occurs step s (as ++ [a]) E ↔ Occurs step s as E ∨ E m a := by
  constructor
  · rintro ⟨pre, b, post, n, has, hn, hE⟩
    rcases List.eq_nil_or_concat' post with rfl | ⟨post', c, rfl⟩
    · -- the event is the last action
      obtain ⟨rfl, hab⟩ := List.append_inj' has rfl
      obtain rfl : a = b := by simpa using hab
      obtain rfl : m = n := Option.some.inj (hm.symm.trans hn)
      exact Or.inr hE
    · rw [← List.cons_append, ← List.append_assoc] at has
      obtain ⟨rfl, -⟩ := List.append_inj' has rfl
      exact Or.inl ⟨pre, b, post', n, rfl, hn, hE⟩
  · rintro (⟨pre, b, post, n, rfl, hn, hE⟩ | hE)
    · exact ⟨pre, b, post ++ [a], n, by simp, hn, hE⟩
    · exact ⟨as, a, [], m, rfl, hm, hE⟩

/-- An event of a run is an event of every run that goes on from it. -/
theorem Occurs.append {s : σ} {as : List α} {E : σ → α → Prop} (h : Occurs step s as E)
    (bs : List α) : Occurs step s (as ++ bs) E := by
  obtain ⟨pre, a, post, m, rfl, hm, hE⟩ := h
  exact ⟨pre, a, post ++ bs, m, by simp, hm, hE⟩

/-- An event of a run is an event of the run with one more action before it. -/
theorem Occurs.cons {s m : σ} {a : α} {as : List α} {E : σ → α → Prop} (ha : step s a = some m)
    (h : Occurs step m as E) : Occurs step s (a :: as) E := by
  obtain ⟨pre, b, post, n, rfl, hn, hE⟩ := h
  exact ⟨a :: pre, b, post, n, rfl, Option.bind_eq_some_iff.mpr ⟨m, ha, hn⟩, hE⟩

/-- A run of two parts has an event when one of its parts has. -/
theorem occurs_append {s : σ} {as bs : List α} {E : σ → α → Prop} :
    ∀ {m s' : σ}, exec step s as = some m → exec step m bs = some s' →
      (Occurs step s (as ++ bs) E ↔ Occurs step s as E ∨ Occurs step m bs E) := by
  induction bs using List.reverseRecOn with
  | nil =>
    intro m s' hm _
    simp
  | append_singleton bs b ih =>
    intro m s' hm hs
    obtain ⟨n, hn, -⟩ := exec_concat.mp hs
    have hn' : exec step s (as ++ bs) = some n := by
      rw [exec_append, hm]
      exact hn
    rw [← List.append_assoc, occurs_concat hn', occurs_concat hn, ih hm hn, or_assoc]

/-- An event happens with the first action or after it. -/
theorem occurs_cons {s : σ} {a : α} {as : List α} {E : σ → α → Prop} :
    Occurs step s (a :: as) E ↔ E s a ∨ ∃ m, step s a = some m ∧ Occurs step m as E := by
  constructor
  · rintro ⟨pre, b, post, n, has, hn, hE⟩
    cases pre with
    | nil =>
      obtain ⟨rfl, rfl⟩ := List.cons.inj has
      obtain rfl : s = n := Option.some.inj hn
      exact Or.inl hE
    | cons c pre =>
      obtain ⟨rfl, rfl⟩ := List.cons.inj has
      obtain ⟨m, hm, hn⟩ := Option.bind_eq_some_iff.mp hn
      exact Or.inr ⟨m, hm, pre, b, post, n, rfl, hn, hE⟩
  · rintro (hE | ⟨m, hm, hocc⟩)
    · exact ⟨[], a, as, s, rfl, rfl, hE⟩
    · exact hocc.cons hm

/-- Whether an event happens in a run can be read off the run. -/
instance decidableOccurs {E : σ → α → Prop} [∀ s a, Decidable (E s a)] :
    ∀ (s : σ) (as : List α), Decidable (Occurs step s as E)
  | s, [] => isFalse (not_occurs_nil s E)
  | s, a :: as =>
    match h : step s a with
    | none => decidable_of_iff (E s a) (by rw [occurs_cons, h]; simp)
    | some m =>
      have := decidableOccurs (E := E) m as
      decidable_of_iff (E s a ∨ Occurs step m as E) (by rw [occurs_cons, h]; simp)

/-- An event that no step from a state with `P` has, where `P` survives every step,
does not happen in a run from a state with `P`. -/
theorem not_occurs {P : σ → Prop} {E : σ → α → Prop}
    (hstep : ∀ s a s', P s → step s a = some s' → P s' ∧ ¬ E s a) {s s' : σ} {as : List α}
    (hs : P s) (h : exec step s as = some s') : ¬ Occurs step s as E := by
  have hrun : exec step s as = some s' → P s' ∧ ¬ Occurs step s as E := by
    refine exec_trace (P := fun as s' => P s' ∧ ¬ Occurs step s as E) ⟨hs, by simp⟩ ?_
    intro as m a s'' hm hP ha
    obtain ⟨hP', hE⟩ := hstep m a s'' hP.1 ha
    rw [occurs_concat hm]
    exact ⟨hP', by simp [hP.2, hE]⟩
  exact (hrun h).2

/-! ### Observations -/

/-- What an observer sees of a run: `obs` tells what it sees of a step. -/
def observe {β : Type*} (step : σ → α → Option σ) (obs : σ → α → Option β) : σ → List α → List β
  | _, [] => []
  | s, a :: as => (obs s a).toList ++ (step s a).elim [] fun m => observe step obs m as

/-- What is seen of the last step comes last. -/
theorem observe_concat {β : Type*} {obs : σ → α → Option β} {a : α} :
    ∀ {as : List α} {s m : σ}, exec step s as = some m →
      observe step obs s (as ++ [a]) = observe step obs s as ++ (obs m a).toList := by
  intro as
  induction as with
  | nil =>
    intro s m h
    obtain rfl : s = m := Option.some.inj h
    cases hstep : step s a <;> simp [observe, hstep]
  | cons b as ih =>
    intro s m h
    obtain ⟨n, hn, hm⟩ := Option.bind_eq_some_iff.mp h
    have hrest := ih hm
    simp only [List.cons_append, observe, hn, Option.elim_some, List.append_assoc]
    rw [hrest]

end Run
