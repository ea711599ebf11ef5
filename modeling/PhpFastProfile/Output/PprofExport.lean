import PhpFastProfile.Output.PprofInvariant
import Mathlib.Algebra.Ring.Int.Defs

/-!
# What a taken profile says

A consumer resolves a sample of a message by looking its location ids up in the
location table, their functions in the function table and the names in the
string table.  `Accounted b sts` says that the samples of a builder count
exactly `sts`, each under the location ids its frames have; `add` extends it
by one stack and `takeGzipped` starts it afresh, so the message taken after any
sequence of calls resolves to the stacks added since the last one.

## Main definitions

* `Profile.resolveSample` — the stack a sample stands for.
* `Accounted b sts` — the samples of `b` count `sts`.
* `window ops` — the stacks added since the last `takeGzipped` in `ops`.

## Main results

* `resolveLocation_of_locate` — a message resolves a location to its frame.
* `accounted_run` — every builder accounts for its window.
* `takeGzipped_resolves` — the message of a window resolves to its stacks.
-/

namespace PhpFastProfile

open Intern PprofBuilder

/-! ### Resolving a message -/

/-- The string at an index. -/
def Profile.string (p : Profile) (i : ℤ) : Option String :=
  if 0 ≤ i then p.stringTable[i.toNat]? else none

/-- The frame a location id stands for: its single line's function, and the
strings of that function. -/
def Profile.resolveLocation (p : Profile) (id : ℕ) : Option FrameKey :=
  (p.location.find? fun l => l.id == id).bind fun l =>
    match l.line with
    | [ln] =>
      (p.function.find? fun f => f.id == ln.functionId).bind fun f =>
      (p.string f.name).bind fun name =>
      (p.string f.filename).map fun file => (name, file, ln.line)
    | _ => none

/-- The stack a list of location ids stands for. -/
def Profile.resolveIds (p : Profile) : List ℕ → Option (List FrameKey)
  | [] => some []
  | id :: ids => (p.resolveLocation id).bind fun t => (p.resolveIds ids).map (t :: ·)

/-- The stack a sample stands for, leaf first. -/
def Profile.resolveSample (p : Profile) (s : Sample) : Option (List FrameKey) :=
  p.resolveIds s.locationId

/-- How many stacks a sample stands for. -/
def Sample.weight (s : Sample) : ℕ := (s.value.headD 0).toNat

/-- Every sample of the message with its multiplicity, resolved. -/
def Profile.resolved (p : Profile) : List (Option (List FrameKey)) :=
  p.sample.flatMap fun s => List.replicate s.weight (p.resolveSample s)

namespace PprofBuilder

/-- The message has the tables of the builder. -/
structure TablesOf (p : Profile) (b : PprofBuilder) : Prop where
  strings : p.stringTable = b.strings
  functions : p.function = b.functions
  locations : p.location = b.locations

theorem string_of_lookup {p : Profile} {b : PprofBuilder} (h : Tables b) (hp : TablesOf p b)
    {s : String} {i : ℤ} (hs : b.stringIdx.lookup s = some i) : p.string i = some s := by
  obtain ⟨n, rfl, hn⟩ := (h.strings.lookup_eq s i).mp hs
  change (if 0 ≤ (n : ℤ) then p.stringTable[(n : ℤ).toNat]? else none) = some s
  rw [if_pos (Int.natCast_nonneg n), Int.toNat_natCast, hp.strings]
  exact hn

/-- **A message with the tables of the builder resolves a location to the frame
that was interned under it.** -/
theorem resolveLocation_of_locate {p : Profile} {b : PprofBuilder} (h : Tables b)
    (hp : TablesOf p b) {t : FrameKey} {id : ℕ} (ht : b.locate t = some id) :
    p.resolveLocation id = some t := by
  obtain ⟨n, f, fid, hn, hf, hfid, hid⟩ := locate_eq_some.mp ht
  have hl := h.locations.find?_eq Location.id (fun _ _ => rfl) hid
  have hfn := h.functions.find?_eq FunctionMsg.id (fun _ _ => rfl) hfid
  rw [Profile.resolveLocation, hp.locations, hl, Option.bind_some]
  change ((p.function.find? fun g => g.id == fid).bind fun g => _) = some t
  rw [hp.functions, hfn, Option.bind_some]
  change ((p.string n).bind fun name => (p.string f).map fun file => (name, file, t.2.2)) = some t
  rw [string_of_lookup h hp hn, string_of_lookup h hp hf]
  rfl

theorem resolveIds_of_locate {p : Profile} {b : PprofBuilder} (h : Tables b)
    (hp : TablesOf p b) : ∀ {st : List FrameKey} {ids : List ℕ},
    st.map b.locate = ids.map some → p.resolveIds ids = some st := by
  intro st
  induction st with
  | nil =>
    intro ids hids
    obtain rfl : ids = [] := by simpa using hids.symm
    rfl
  | cons t st ih =>
    intro ids hids
    cases ids with
    | nil => simp at hids
    | cons id ids =>
      rw [List.map_cons, List.map_cons, List.cons.injEq] at hids
      rw [Profile.resolveIds, resolveLocation_of_locate h hp hids.1, ih hids.2]
      rfl

/-! ### Accounting for a window -/

/-- The samples of `b` count exactly `sts`, each under the location ids of its
frames. -/
def Accounted (b : PprofBuilder) (sts : List (List FrameKey)) : Prop :=
  ∃ keys, AList.Counts b.samples keys ∧
    List.Forall₂ (fun st ids => st.map b.locate = ids.map some) sts keys

theorem accounted_new (now : ℤ) : Accounted (new now) [] :=
  ⟨[], AList.counts_empty, List.Forall₂.nil⟩

/-- Located stacks stay located in a later builder. -/
theorem Extends.locate_map {b b' : PprofBuilder} (h : Extends b b') {st : List FrameKey}
    {ids : List ℕ} (hl : st.map b.locate = ids.map some) : st.map b'.locate = ids.map some := by
  rw [← hl]
  -- every frame of the stack has a location, which is kept
  refine List.map_congr_left fun t ht => ?_
  have hmem : b.locate t ∈ ids.map some := hl ▸ List.mem_map_of_mem ht
  obtain ⟨id, -, hid⟩ := List.mem_map.mp hmem
  rw [← hid, h.locate hid.symm]

/-- Adding a stack accounts for it. -/
theorem accounted_add {b : PprofBuilder} (h : Tables b) {sts : List (List FrameKey)}
    (ha : Accounted b sts) (frames : List Frame) :
    Accounted (b.add frames) (sts ++ [frames.map Frame.key]) := by
  obtain ⟨keys, hc, hk⟩ := ha
  obtain ⟨-, hext, hloc⟩ := frameLocations_spec frames h
  refine ⟨keys ++ [(b.frameLocations frames).1], ?_, ?_⟩
  · change AList.Counts ((b.frameLocations frames).2.samples.bump _) _
    rw [hext.samples]
    exact hc.bump _
  · refine List.rel_append (hk.imp fun _ _ hl => hext.locate_map hl) (List.Forall₂.cons ?_ .nil)
    rw [List.map_map]
    exact hloc

/-- One call's effect on the window: `add` extends it, `takeGzipped` empties it. -/
def windowStep (w : List (List Frame)) : Op → List (List Frame)
  | .add frames => w ++ [frames]
  | .takeGzipped .. => []

/-- The stacks added since the last `takeGzipped`. -/
def window (ops : List Op) : List (List Frame) := ops.foldl windowStep []

theorem accounted_foldl : ∀ (ops : List Op) {b : PprofBuilder} {w : List (List Frame)}, Tables b →
    Accounted b (w.map (·.map Frame.key)) →
    Accounted (ops.foldl step b) ((ops.foldl windowStep w).map (·.map Frame.key)) := by
  intro ops
  induction ops with
  | nil => intro b w _ ha; exact ha
  | cons op ops ih =>
    intro b w h ha
    apply ih (tables_step h op)
    cases op with
    | add frames =>
      rw [windowStep, List.map_append]
      exact accounted_add h ha frames
    | takeGzipped order now encode gzip =>
      rw [step_takeGzipped]
      exact accounted_new now

/-- Every builder accounts for its window. -/
theorem accounted_run (start : ℤ) (ops : List Op) :
    Accounted (run start ops) ((window ops).map (·.map Frame.key)) :=
  accounted_foldl ops (tables_new start) (accounted_new start)

/-! ### The message of a window -/

/-- The message has the tables of the builder it was taken from, extended by the
two strings of its sample type, and its samples are the drained entries. -/
theorem buildProfile_spec {b : PprofBuilder} (h : Tables b) (order : DrainOrder) (now : ℤ) :
    ∃ b', Tables b' ∧ Extends b b' ∧ TablesOf (b.buildProfile order now).1 b' ∧
      (b.buildProfile order now).1.sample = (order.run b.samples.entries).map fun e =>
        { locationId := e.1, value := [e.2], label := [] } := by
  obtain ⟨h₁, e₁, -⟩ := intern_spec h "count"
  obtain ⟨h₂, e₂, -⟩ := intern_spec h₁ "samples"
  exact ⟨_, h₂, e₁.trans e₂, ⟨rfl, rfl, rfl⟩, rfl⟩

/-- The ids counted for a window resolve to its stacks. -/
theorem map_resolveIds {p : Profile} {b : PprofBuilder} (h : Tables b) (hp : TablesOf p b) :
    ∀ {sts : List (List FrameKey)} {keys : List (List ℕ)},
    List.Forall₂ (fun st ids => st.map b.locate = ids.map some) sts keys →
    keys.map p.resolveIds = sts.map some := by
  intro sts keys hk
  induction hk with
  | nil => rfl
  | cons hl _ ih => rw [List.map_cons, List.map_cons, ih, resolveIds_of_locate h hp hl]

/-- Counted ids are the locations of some stack. -/
theorem located_of_mem {b : PprofBuilder} {sts : List (List FrameKey)} {keys : List (List ℕ)}
    (hk : List.Forall₂ (fun st ids => st.map b.locate = ids.map some) sts keys) {ids : List ℕ}
    (hids : ids ∈ keys) : ∃ st : List FrameKey, st.map b.locate = ids.map some := by
  induction hk with
  | nil => simp at hids
  | cons hl _ ih =>
    rcases List.mem_cons.mp hids with rfl | hids
    · exact ⟨_, hl⟩
    · exact ih hids

/-- **The message of an accounted builder resolves to what is accounted for**,
each stack once, with its number of occurrences as the value. -/
theorem buildProfile_resolves {b : PprofBuilder} (h : Tables b) {sts : List (List FrameKey)}
    (ha : Accounted b sts) (order : DrainOrder) (now : ℤ) :
    (b.buildProfile order now).1.resolved.Perm (sts.map some) ∧
      ((b.buildProfile order now).1.sample.map (b.buildProfile order now).1.resolveSample).Nodup ∧
      ∀ s ∈ (b.buildProfile order now).1.sample, ∃ c, s.value = [c] ∧ 1 ≤ c := by
  obtain ⟨keys, hc, hk⟩ := ha
  obtain ⟨b', h', hext, hp, hsample⟩ := buildProfile_spec h order now
  set p := (b.buildProfile order now).1
  replace hk : List.Forall₂ (fun st ids => st.map b'.locate = ids.map some) sts keys :=
    hk.imp fun _ _ hl => hext.locate_map hl
  -- an entry that is drained was counted, whatever the order
  have hmem : ∀ e ∈ order.run b.samples.entries, e.1 ∈ keys ∧ 1 ≤ e.2 := by
    intro e he
    obtain ⟨hin, n, hn, hval⟩ :=
      hc.pos_of_lookup (AList.mem_lookup_iff.mpr ((order.perm _).mem_iff.mp he))
    rw [hval]
    exact ⟨hin, Int.ofNat_le.mpr hn⟩
  refine ⟨?_, ?_, ?_⟩
  · have hresolved : p.resolved
        = (AList.expand Int.toNat (order.run b.samples.entries)).map p.resolveIds := by
      rw [Profile.resolved, hsample, List.flatMap_map, AList.expand, List.map_flatMap]
      simp [Sample.weight, Profile.resolveSample]
    rw [hresolved, ← map_resolveIds h' hp hk]
    exact ((AList.expand_perm (order.perm _)).trans (hc.expand_perm Int.toNat_natCast)).map _
  · rw [hsample, List.map_map]
    change ((order.run b.samples.entries).map (p.resolveIds ∘ Sigma.fst)).Nodup
    rw [← List.map_map]
    refine List.Nodup.map_on ?_ (((order.perm _).map _).nodup_iff.mpr b.samples.keys_nodup)
    -- ids that resolve to one stack are the locations of one stack
    intro ids hids ids' hids' he
    obtain ⟨e, hin, rfl⟩ := List.mem_map.mp hids
    obtain ⟨e', hin', rfl⟩ := List.mem_map.mp hids'
    obtain ⟨st, hst⟩ := located_of_mem hk (hmem e hin).1
    obtain ⟨st', hst'⟩ := located_of_mem hk (hmem e' hin').1
    rw [resolveIds_of_locate h' hp hst, resolveIds_of_locate h' hp hst', Option.some.injEq] at he
    subst he
    exact List.map_injective_iff.mpr (fun _ _ h => Option.some.inj h) (hst.symm.trans hst')
  · intro s hs
    rw [hsample] at hs
    obtain ⟨e, he, rfl⟩ := List.mem_map.mp hs
    exact ⟨e.2, rfl, (hmem e he).2⟩

/-- **pprof export loses, invents and merges nothing.**  After any sequence of
calls, `takeGzipped` hands its encoder a message that resolves to exactly the
stacks added since the last one, no two of its samples resolve to the same
stack, and every value is at least one. -/
theorem takeGzipped_resolves (start : ℤ) (ops : List Op) (order : DrainOrder) (now : ℤ)
    (encode : Profile → List UInt8) (gzip : List UInt8 → List UInt8) :
    let b := run start ops
    let p := (b.buildProfile order now).1
    (b.takeGzipped order now (infallible encode) (infallible gzip)).1
        = .ok (gzip (encode p), b.windowStartNanos, now) ∧
      p.resolved.Perm ((window ops).map fun frames => some (frames.map Frame.key)) ∧
      (p.sample.map p.resolveSample).Nodup ∧
      ∀ s ∈ p.sample, ∃ c, s.value = [c] ∧ 1 ≤ c := by
  intro b p
  obtain ⟨hperm, hnodup, hval⟩ :=
    buildProfile_resolves (tables_run start ops) (accounted_run start ops) order now
  rw [List.map_map] at hperm
  exact ⟨takeGzipped_infallible b order now encode gzip, hperm, hnodup, hval⟩

end PprofBuilder
end PhpFastProfile
