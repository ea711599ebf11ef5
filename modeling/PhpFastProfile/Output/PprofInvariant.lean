import PhpFastProfile.Output.PprofSink

/-!
# The invariant of the pprof builder

`Tables b` says that the three index maps of the builder are the inverses of its
three tables and that every row refers to rows that exist.  Each of `intern`,
`functionId` and `locationId` keeps it and moves nothing that was interned
before (`Extends`), so it holds along every sequence of calls.  A successful
`takeGzipped` puts the builder back where `new` left it.

## Main definitions

* `Tables` — the index maps are the inverses of the tables.
* `Extends b b'` — whatever `b` had interned keeps its number in `b'`.
* `WellFormed` — the invariant of a builder, with its samples.
* `Profile.TypesValid` — the sample types of a message name strings it has.

## Main results

* `frameLocations_spec` — what the loop of `add` keeps and returns.
* `wellFormed_run` — the invariant holds after every sequence of calls.
* `takeGzipped_ok_snd` — a successful call leaves a new builder behind.
-/

namespace PhpFastProfile

open Intern

namespace PprofBuilder

/-! ### The invariant of the tables -/

/-- The index maps are the inverses of the tables, the empty string comes first,
and every row refers to rows that exist. -/
structure Tables (b : PprofBuilder) : Prop where
  strings : Indexes stringScheme b.strings b.stringIdx
  functions : Indexes functionScheme b.functions b.functionKey
  locations : Indexes locationScheme b.locations b.locationKey
  empty : b.stringIdx.lookup "" = some 0
  functionStrings : ∀ key id, b.functionKey.lookup key = some id →
    (∃ s, b.stringIdx.lookup s = some key.1) ∧ ∃ s, b.stringIdx.lookup s = some key.2
  locationFunction : ∀ key id, b.locationKey.lookup key = some id →
    ∃ fkey, b.functionKey.lookup fkey = some key.1

/-- Whatever `b` had interned keeps its number in `b'`, which has the samples
and the window of `b`. -/
structure Extends (b b' : PprofBuilder) : Prop where
  string : ∀ s i, b.stringIdx.lookup s = some i → b'.stringIdx.lookup s = some i
  function : ∀ key id, b.functionKey.lookup key = some id → b'.functionKey.lookup key = some id
  location : ∀ key id, b.locationKey.lookup key = some id → b'.locationKey.lookup key = some id
  samples : b'.samples = b.samples
  windowStart : b'.windowStartNanos = b.windowStartNanos

theorem Extends.refl (b : PprofBuilder) : Extends b b :=
  ⟨fun _ _ h => h, fun _ _ h => h, fun _ _ h => h, rfl, rfl⟩

theorem Extends.trans {b₁ b₂ b₃ : PprofBuilder} (h : Extends b₁ b₂) (h' : Extends b₂ b₃) :
    Extends b₁ b₃ where
  string s i hs := h'.string s i (h.string s i hs)
  function key id hk := h'.function key id (h.function key id hk)
  location key id hk := h'.location key id (h.location key id hk)
  samples := h'.samples.trans h.samples
  windowStart := h'.windowStart.trans h.windowStart

/-! ### The three interning calls -/

/-- `intern` keeps the invariant and returns the number of the string. -/
theorem intern_spec {b : PprofBuilder} (h : Tables b) (s : String) :
    Tables (b.intern s).2 ∧ Extends b (b.intern s).2 ∧
      (b.intern s).2.stringIdx.lookup s = some (b.intern s).1 := by
  have hold : ∀ s' i, b.stringIdx.lookup s' = some i →
      (b.intern s).2.stringIdx.lookup s' = some i := fun s' i hs => lookup_internRow_of_lookup hs
  refine ⟨⟨h.strings.internRow s, h.functions, h.locations, hold _ _ h.empty, ?_,
    h.locationFunction⟩, ⟨hold, fun _ _ hk => hk, fun _ _ hk => hk, rfl, rfl⟩,
    lookup_internRow _ _ _ _⟩
  -- the strings a function names keep their numbers
  intro key id hk
  obtain ⟨⟨n, hn⟩, ⟨f, hf⟩⟩ := h.functionStrings key id hk
  exact ⟨⟨n, hold _ _ hn⟩, ⟨f, hold _ _ hf⟩⟩

/-- `functionId` keeps the invariant when its arguments are interned strings. -/
theorem functionId_spec {b : PprofBuilder} (h : Tables b) {name filename : ℤ} {s s' : String}
    (hs : b.stringIdx.lookup s = some name) (hs' : b.stringIdx.lookup s' = some filename) :
    Tables (b.functionId name filename).2 ∧ Extends b (b.functionId name filename).2 ∧
      (b.functionId name filename).2.functionKey.lookup (name, filename)
        = some (b.functionId name filename).1 := by
  have hold : ∀ key id, b.functionKey.lookup key = some id →
      (b.functionId name filename).2.functionKey.lookup key = some id :=
    fun key id hk => lookup_internRow_of_lookup hk
  refine ⟨⟨h.strings, h.functions.internRow _, h.locations, h.empty, ?_, ?_⟩,
    ⟨fun _ _ hk => hk, hold, fun _ _ hk => hk, rfl, rfl⟩, lookup_internRow _ _ _ _⟩
  · intro key id hk
    -- the function is the one asked for, or one from before
    rcases eq_or_lookup_of_lookup_internRow hk with rfl | hk
    · exact ⟨⟨s, hs⟩, ⟨s', hs'⟩⟩
    · exact h.functionStrings key id hk
  · intro key id hk
    obtain ⟨fkey, hf⟩ := h.locationFunction key id hk
    exact ⟨fkey, hold _ _ hf⟩

/-- `locationId` keeps the invariant when its function exists. -/
theorem locationId_spec {b : PprofBuilder} (h : Tables b) {fid : ℕ} {fkey : ℤ × ℤ}
    (hf : b.functionKey.lookup fkey = some fid) (line : ℤ) :
    Tables (b.locationId fid line).2 ∧ Extends b (b.locationId fid line).2 ∧
      (b.locationId fid line).2.locationKey.lookup (fid, line)
        = some (b.locationId fid line).1 := by
  have hold : ∀ key id, b.locationKey.lookup key = some id →
      (b.locationId fid line).2.locationKey.lookup key = some id :=
    fun key id hk => lookup_internRow_of_lookup hk
  refine ⟨⟨h.strings, h.functions, h.locations.internRow _, h.empty, h.functionStrings, ?_⟩,
    ⟨fun _ _ hk => hk, fun _ _ hk => hk, hold, rfl, rfl⟩, lookup_internRow _ _ _ _⟩
  intro key id hk
  rcases eq_or_lookup_of_lookup_internRow hk with rfl | hk
  · exact ⟨fkey, hf⟩
  · exact h.locationFunction key id hk

/-! ### Locating frames -/

/-- What an exported frame is: the printed name, the file or the empty string,
and the line. -/
abbrev FrameKey := String × String × ℤ

/-- The location id the index maps give a frame key. -/
def locate (b : PprofBuilder) (t : FrameKey) : Option ℕ :=
  (b.stringIdx.lookup t.1).bind fun n =>
  (b.stringIdx.lookup t.2.1).bind fun f =>
  (b.functionKey.lookup (n, f)).bind fun fid => b.locationKey.lookup (fid, t.2.2)

theorem locate_eq_some {b : PprofBuilder} {t : FrameKey} {id : ℕ} :
    b.locate t = some id ↔ ∃ n f fid, b.stringIdx.lookup t.1 = some n ∧
      b.stringIdx.lookup t.2.1 = some f ∧ b.functionKey.lookup (n, f) = some fid ∧
      b.locationKey.lookup (fid, t.2.2) = some id := by
  simp [locate, Option.bind_eq_some_iff]

/-- A located frame key keeps its location. -/
theorem Extends.locate {b b' : PprofBuilder} (h : Extends b b') {t : FrameKey} {id : ℕ}
    (hl : b.locate t = some id) : b'.locate t = some id := by
  obtain ⟨n, f, fid, hn, hf, hfid, hid⟩ := locate_eq_some.mp hl
  exact locate_eq_some.mpr ⟨n, f, fid, h.string _ _ hn, h.string _ _ hf, h.function _ _ hfid,
    h.location _ _ hid⟩

end PprofBuilder

open PprofBuilder in
/-- The frame key of a captured frame. -/
def Frame.key (f : Frame) : FrameKey := (f.name, f.file.getD "", f.line.toNat)

namespace PprofBuilder

/-- One turn of the loop of `add` interns the frame and returns its location. -/
theorem frameLocation_spec {b : PprofBuilder} (h : Tables b) (f : Frame) :
    Tables (b.frameLocation f).2 ∧ Extends b (b.frameLocation f).2 ∧
      (b.frameLocation f).2.locate f.key = some (b.frameLocation f).1 := by
  obtain ⟨h₁, e₁, hn⟩ := intern_spec h f.name
  obtain ⟨h₂, e₂, hf⟩ := intern_spec h₁ (f.file.getD "")
  obtain ⟨h₃, e₃, hfid⟩ := functionId_spec h₂ (e₂.string _ _ hn) hf
  obtain ⟨h₄, e₄, hid⟩ := locationId_spec h₃ hfid f.line.toNat
  refine ⟨h₄, ((e₁.trans e₂).trans e₃).trans e₄, ?_⟩
  -- what the earlier calls have interned survives the later ones
  have hn' := e₄.string _ _ (e₃.string _ _ (e₂.string _ _ hn))
  have hf' := e₄.string _ _ (e₃.string _ _ hf)
  exact locate_eq_some.mpr ⟨_, _, _, hn', hf', e₄.function _ _ hfid, hid⟩

/-- **The loop of `add`** interns every frame and returns their locations in order. -/
theorem frameLocations_spec : ∀ (frames : List Frame) {b : PprofBuilder}, Tables b →
    Tables (b.frameLocations frames).2 ∧ Extends b (b.frameLocations frames).2 ∧
      frames.map (fun f => (b.frameLocations frames).2.locate f.key)
        = (b.frameLocations frames).1.map some := by
  intro frames
  induction frames with
  | nil => intro b h; exact ⟨h, Extends.refl b, rfl⟩
  | cons f fs ih =>
    intro b h
    obtain ⟨h₁, e₁, hl⟩ := frameLocation_spec h f
    obtain ⟨h₂, e₂, hls⟩ := ih h₁
    refine ⟨h₂, e₁.trans e₂, ?_⟩
    -- the rest of the loop leaves the location of the first frame alone
    rw [frameLocations, List.map_cons, List.map_cons, ← hls, ← e₂.locate hl]

/-! ### The samples -/

/-- Every location counted in a sample is one the index holds. -/
def SampleRefs (b : PprofBuilder) : Prop :=
  ∀ ids ∈ b.samples, ∀ id ∈ ids, ∃ key, b.locationKey.lookup key = some id

theorem locationKey_of_locate {b : PprofBuilder} {t : FrameKey} {id : ℕ}
    (h : b.locate t = some id) : ∃ key, b.locationKey.lookup key = some id := by
  obtain ⟨-, -, fid, -, -, -, hid⟩ := locate_eq_some.mp h
  exact ⟨_, hid⟩

theorem tables_new (now : ℤ) : Tables (new now) where
  strings := (indexes_empty stringScheme).internRow ""
  functions := indexes_empty functionScheme
  locations := indexes_empty locationScheme
  empty := by rfl
  functionStrings := by simp [new, intern]
  locationFunction := by simp [new, intern]

theorem tables_add {b : PprofBuilder} (h : Tables b) (frames : List Frame) :
    Tables (b.add frames) := by
  obtain ⟨⟨hs, hf, hl, he, hfs, hlf⟩, -, -⟩ := frameLocations_spec frames h
  exact ⟨hs, hf, hl, he, hfs, hlf⟩

theorem windowStart_add {b : PprofBuilder} (h : Tables b) (frames : List Frame) :
    (b.add frames).windowStartNanos = b.windowStartNanos := by
  obtain ⟨-, hext, -⟩ := frameLocations_spec frames h
  exact hext.windowStart

theorem sampleRefs_add {b : PprofBuilder} (h : Tables b) (hs : SampleRefs b)
    (frames : List Frame) : SampleRefs (b.add frames) := by
  obtain ⟨-, hext, hloc⟩ := frameLocations_spec frames h
  intro ids hids id hid
  change ids ∈ AList.insert _ _ _ at hids
  rw [AList.mem_insert, hext.samples] at hids
  change ∃ key, (b.frameLocations frames).2.locationKey.lookup key = some id
  -- the sample is the one just counted, or one from before
  rcases hids with rfl | hids
  · have hmem : some id ∈ (b.frameLocations frames).1.map some := List.mem_map_of_mem hid
    rw [← hloc] at hmem
    obtain ⟨f, -, hf⟩ := List.mem_map.mp hmem
    exact locationKey_of_locate hf
  · obtain ⟨key, hkey⟩ := hs ids hids id hid
    exact ⟨key, hext.location _ _ hkey⟩

/-! ### Taking a window -/

/-- **A successful `take_gzipped` leaves a new builder behind**, up to the start
of its window, whatever the builder was. -/
theorem takeGzipped_ok_snd {ε : Type} {b : PprofBuilder} {order : DrainOrder} {now : ℤ}
    {encode : Profile → Except ε (List UInt8)} {gzip : List UInt8 → Except ε (List UInt8)}
    {out : List UInt8 × ℤ × ℤ} (h : (b.takeGzipped order now encode gzip).1 = .ok out) :
    (b.takeGzipped order now encode gzip).2 = new now := by
  unfold takeGzipped at h ⊢
  cases he : encode (b.buildProfile order now).1 with
  | error e => simp [he] at h
  | ok buf =>
    cases hg : gzip buf with
    | error e => simp [he, hg] at h
    | ok gzipped => simp only [he, hg]; rfl

/-- What `take_gzipped` returns when neither encoder fails. -/
theorem takeGzipped_infallible (b : PprofBuilder) (order : DrainOrder) (now : ℤ)
    (encode : Profile → List UInt8) (gzip : List UInt8 → List UInt8) :
    (b.takeGzipped order now (infallible encode) (infallible gzip)).1
      = .ok (gzip (encode (b.buildProfile order now).1), b.windowStartNanos, now) := rfl

theorem step_takeGzipped (b : PprofBuilder) (order : DrainOrder) (now : ℤ)
    (encode : Profile → List UInt8) (gzip : List UInt8 → List UInt8) :
    b.step (.takeGzipped order now encode gzip) = new now :=
  takeGzipped_ok_snd (takeGzipped_infallible b order now encode gzip)

/-! ### Every run -/

theorem tables_step {b : PprofBuilder} (h : Tables b) (op : Op) : Tables (b.step op) := by
  cases op with
  | add frames => exact tables_add h frames
  | takeGzipped order now encode gzip => rw [step_takeGzipped]; exact tables_new now

theorem sampleRefs_step {b : PprofBuilder} (h : Tables b) (hs : SampleRefs b) (op : Op) :
    SampleRefs (b.step op) := by
  cases op with
  | add frames => exact sampleRefs_add h hs frames
  | takeGzipped order now encode gzip =>
    rw [step_takeGzipped]
    intro ids hids
    exact absurd hids (AList.notMem_empty ids)

/-- The invariant of the tables and of the samples along a sequence of calls. -/
theorem invariant_foldl : ∀ (ops : List Op) {b : PprofBuilder}, Tables b → SampleRefs b →
    Tables (ops.foldl step b) ∧ SampleRefs (ops.foldl step b) := by
  intro ops
  induction ops with
  | nil => intro b h hs; exact ⟨h, hs⟩
  | cons op ops ih => intro b h hs; exact ih (tables_step h op) (sampleRefs_step h hs op)

theorem tables_run (start : ℤ) (ops : List Op) : Tables (run start ops) :=
  (invariant_foldl ops (tables_new start) fun ids hids =>
    absurd hids (AList.notMem_empty ids)).1

theorem sampleRefs_run (start : ℤ) (ops : List Op) : SampleRefs (run start ops) :=
  (invariant_foldl ops (tables_new start) fun ids hids =>
    absurd hids (AList.notMem_empty ids)).2

/-! ### Well-formed builders and messages -/

/-- `i` is an index into the string table. -/
def StringIndex (strings : List String) (i : ℤ) : Prop := ∃ n : ℕ, i = n ∧ n < strings.length

/-- The invariant of a builder, clause by clause over its seven collections. -/
structure WellFormed (b : PprofBuilder) : Prop where
  strings_zero : b.strings[0]? = some ""
  strings_nodup : b.strings.Nodup
  stringIdx_iff : ∀ s i, b.stringIdx.lookup s = some i ↔ ∃ n : ℕ, i = n ∧ b.strings[n]? = some s
  function_ids : b.functions.map (·.id) = List.range' 1 b.functions.length
  functionKey_iff : ∀ name filename id, b.functionKey.lookup (name, filename) = some id ↔
    { id, name, systemName := name, filename, startLine := 0 } ∈ b.functions
  function_rows : ∀ f ∈ b.functions, f.startLine = 0 ∧ StringIndex b.strings f.name ∧
    f.systemName = f.name ∧ StringIndex b.strings f.filename
  location_ids : b.locations.map (·.id) = List.range' 1 b.locations.length
  locationKey_iff : ∀ functionId line id, b.locationKey.lookup (functionId, line) = some id ↔
    { id, mappingId := 0, address := 0, line := [⟨functionId, line⟩], isFolded := false }
      ∈ b.locations
  location_rows : ∀ l ∈ b.locations, l.mappingId = 0 ∧ l.address = 0 ∧ l.isFolded = false ∧
    ∃ functionId line, l.line = [⟨functionId, line⟩] ∧ ∃ f ∈ b.functions, f.id = functionId
  sample_locations : ∀ ids ∈ b.samples, ∀ id ∈ ids, ∃ l ∈ b.locations, l.id = id

theorem Tables.stringIndex {b : PprofBuilder} (h : Tables b) {s : String} {i : ℤ}
    (hs : b.stringIdx.lookup s = some i) : StringIndex b.strings i := by
  obtain ⟨n, hn, hi, -⟩ := h.strings.exists_lt hs
  exact ⟨n, hi, hn⟩

theorem range_succ_eq (n : ℕ) : (List.range n).map (· + 1) = List.range' 1 n := by
  rw [List.range'_eq_map_range]
  exact List.map_congr_left fun i _ => Nat.add_comm i 1

theorem Tables.wellFormed {b : PprofBuilder} (h : Tables b) (hs : SampleRefs b) :
    WellFormed b where
  strings_zero := by
    obtain ⟨n, hi, hn⟩ := (h.strings.lookup_eq "" 0).mp h.empty
    obtain rfl : n = 0 := (Int.ofNat.inj hi).symm
    exact hn
  strings_nodup := by
    -- a string that stood at two places would have two numbers
    rw [List.nodup_iff_getElem?_ne_getElem?]
    intro i j hij hj he
    obtain ⟨key, hi⟩ := h.strings.row_eq i _ (List.getElem?_eq_getElem (hij.trans hj))
    have hrow : b.strings[i]? = some (stringScheme.mkRow (stringScheme.mkId i) key) := by
      rw [List.getElem?_eq_getElem (hij.trans hj), hi]
    exact absurd (h.strings.position_inj hrow (he ▸ hrow)) (Nat.ne_of_lt hij)
  stringIdx_iff := h.strings.lookup_eq
  function_ids := by rw [h.functions.map_id FunctionMsg.id fun _ _ => rfl]; exact range_succ_eq _
  functionKey_iff name filename id := h.functions.lookup_iff_mem FunctionMsg.id fun _ _ => rfl
  function_rows f hf := by
    obtain ⟨key, id, hid, rfl⟩ := h.functions.exists_key hf
    obtain ⟨⟨s, hs⟩, ⟨s', hs'⟩⟩ := h.functionStrings key id hid
    exact ⟨rfl, h.stringIndex hs, rfl, h.stringIndex hs'⟩
  location_ids := by rw [h.locations.map_id Location.id fun _ _ => rfl]; exact range_succ_eq _
  locationKey_iff functionId line id :=
    h.locations.lookup_iff_mem Location.id fun _ _ => rfl
  location_rows l hl := by
    obtain ⟨key, id, hid, rfl⟩ := h.locations.exists_key hl
    obtain ⟨fkey, hf⟩ := h.locationFunction key id hid
    exact ⟨rfl, rfl, rfl, key.1, key.2, rfl, _,
      (h.functions.lookup_iff_mem FunctionMsg.id fun _ _ => rfl).mp hf, rfl⟩
  sample_locations ids hids id hid := by
    obtain ⟨key, hkey⟩ := hs ids hids id hid
    exact ⟨_, (h.locations.lookup_iff_mem Location.id fun _ _ => rfl).mp hkey, rfl⟩

end PprofBuilder

/-- The one sample type of a message is `samples` counted in `count`. -/
def Profile.TypesValid (p : Profile) : Prop :=
  ∃ type unit : ℕ, p.sampleType = [{ type, unit }] ∧
    p.stringTable[type]? = some "samples" ∧ p.stringTable[unit]? = some "count"

namespace PprofBuilder

theorem buildProfile_typesValid {b : PprofBuilder} (h : Tables b) (order : DrainOrder) (now : ℤ) :
    (b.buildProfile order now).1.TypesValid := by
  obtain ⟨h₁, e₁, hu⟩ := intern_spec h "count"
  obtain ⟨h₂, e₂, ht⟩ := intern_spec h₁ "samples"
  obtain ⟨t, hti, htn⟩ := (h₂.strings.lookup_eq _ _).mp ht
  obtain ⟨u, hui, hun⟩ := (h₂.strings.lookup_eq _ _).mp (e₂.string _ _ hu)
  exact ⟨t, u, congrArg₂ (fun type unit => [ValueType.mk type unit]) hti hui, htn, hun⟩

/-- **The builder is well formed after every sequence of calls**, every message
taken from it names its sample type by valid string indices, and every call of
`take_gzipped` that succeeds leaves a new builder with the window moved on. -/
theorem wellFormed_run (start : ℤ) (ops : List Op) :
    WellFormed (run start ops) ∧ ∀ (order : DrainOrder) (now : ℤ),
      ((run start ops).buildProfile order now).1.TypesValid ∧
      ∀ (ε : Type) (encode : Profile → Except ε (List UInt8))
        (gzip : List UInt8 → Except ε (List UInt8)) (out : List UInt8 × ℤ × ℤ),
        ((run start ops).takeGzipped order now encode gzip).1 = .ok out →
          ((run start ops).takeGzipped order now encode gzip).2
            = { new start with windowStartNanos := now } :=
  ⟨(tables_run start ops).wellFormed (sampleRefs_run start ops), fun order now =>
    ⟨buildProfile_typesValid (tables_run start ops) order now,
      fun _ _ _ _ h => takeGzipped_ok_snd h⟩⟩

end PprofBuilder
end PhpFastProfile
