import PhpFastProfile.Lib.Fields
import Mathlib.Data.Nat.Notation

/-!
# The mappings of a process

`parse_maps` reads `/proc/PID/maps` line by line, and `principal_binary` chooses the
binary among the mappings: the file that the first private executable mapping of a
real file belongs to, at its lowest address.

A line has five fields, and a sixth that is the rest of it: the padding and the path,
or nothing.

## Main definitions

* `parseMaps`, `principalBinary` — the reader and the choice.
* `Vma`, `Vma.render` — a mapping, and the line that the kernel writes for it.
* `Vma.Eligible` — a private executable mapping of a real file.
* `ChosenFrom` — the mapping a choice must come to.

## Main results

* `parseMaps_render` — every listing is read back.
* `chosenFrom_principalBinary` — the right mapping is chosen.
* `listing_chosen` — **both, for every ascending listing.**
-/

namespace PhpFastProfile

/-- What the profiler keeps of a line of `/proc/PID/maps`. -/
structure MapEntry where
  start : UInt64
  perms : String
  path : Option String
  deriving DecidableEq, Repr

/-- The errors of `parse_maps`, with what their texts show. -/
inductive MapsError where
  | badLine (line : List Char)
  | badRange (range : List Char)
  | badStart (e : Text.ParseIntError)
  deriving DecidableEq, Repr

/-- The body of the loop of `parse_maps`. -/
def parseMapsLine (line : List Char) : Except MapsError MapEntry :=
  -- address perms offset dev inode pathname
  let parts := (Text.splitn Text.isWhitespace 6 line).filter fun s => !s.isEmpty
  match parts with
  | range :: perms :: rest =>
    let path := (rest[3]?.map Text.trim).filter fun s => !s.isEmpty
    match Text.splitFirst '-' range with
    | none => .error (.badRange range)
    | some (start, _) =>
      match Text.fromStrRadix16 start with
      | .error e => .error (.badStart e)
      | .ok start => .ok { start, perms := String.ofList perms, path := path.map String.ofList }
  | _ => .error (.badLine line)

/-- `parse_maps`: one entry for each line, or an error at the first line that is not read. -/
def parseMaps (raw : String) : Except MapsError (List MapEntry) :=
  (Text.lines raw.toList).mapM parseMapsLine

/-- The path looks like one of a file on disk. -/
def isRealPath (p : String) : Bool :=
  !("[".toList).isPrefixOf p.toList && !p.isEmpty && !("/dev/".toList).isPrefixOf p.toList &&
    !("(deleted)".toList).isSuffixOf p.toList

/-- The mapping looks like the text segment of a file on disk. -/
def isExeMapping (m : MapEntry) : Bool :=
  m.perms.toList.contains 'x' && m.perms.toList.contains 'p' && m.path.any isRealPath

/-- `principal_binary`: the lowest mapping of the file that the first executable mapping belongs
to. -/
def principalBinary (maps : List MapEntry) : Option MapEntry :=
  match maps.find? isExeMapping with
  | none => none
  | some exeMapping =>
    match exeMapping.path with
    | none => none
    | some path => (maps.filter fun m => m.path = some path).minOn? fun m => m.start.toNat

example : parseMaps "not a maps line" = .error (.badRange "not".toList) := by rfl

/-! ### What the kernel lists -/

/-- A path as the kernel lists it. -/
structure VmaPath where
  chars : List Char
  nonempty : chars ≠ []
  noNewline : '\n' ∉ chars
  trimmed : Text.Trimmed chars

/-- What follows the inode. -/
inductive VmaTail where
  | nothing
  | space
  /-- A space, more of them as padding, and the path. -/
  | path (padding : ℕ) (path : VmaPath)

/-- A mapping. -/
structure Vma where
  start : UInt64
  stop : UInt64
  read : Bool
  write : Bool
  exec : Bool
  shared : Bool
  offset : ℕ
  major : ℕ
  minor : ℕ
  inode : ℕ
  tail : VmaTail

namespace Vma

/-- The four permission characters. -/
def perms (v : Vma) : List Char :=
  [if v.read then 'r' else '-', if v.write then 'w' else '-', if v.exec then 'x' else '-',
    if v.shared then 's' else 'p']

/-- The field of the addresses. -/
def range (v : Vma) : List Char :=
  Text.hexPad 8 v.start.toNat ++ '-' :: Text.hexPad 8 v.stop.toNat

/-- The field of the device. -/
def dev (v : Vma) : List Char := Text.hexPad 2 v.major ++ ':' :: Text.hexPad 2 v.minor

/-- What follows the inode. -/
def tailChars : VmaTail → List Char
  | .nothing => []
  | .space => [' ']
  | .path padding path => ' ' :: (List.replicate padding ' ' ++ path.chars)

/-- The line of a mapping, without its newline. -/
def line (v : Vma) : List Char :=
  v.range ++ ' ' :: (v.perms ++ ' ' :: (Text.hexPad 8 v.offset ++ ' ' :: (v.dev ++ ' ' ::
    (Nat.toDigits 10 v.inode ++ tailChars v.tail))))

/-- The listing of the mappings. -/
def render (vs : List Vma) : String :=
  String.ofList (vs.flatMap fun v => v.line ++ ['\n'])

/-- The path that is to be read from the line. -/
def path (v : Vma) : Option String :=
  match v.tail with
  | .path _ path => some (String.ofList path.chars)
  | _ => none

/-- What is to be read from the line. -/
def entry (v : Vma) : MapEntry :=
  { start := v.start, perms := String.ofList v.perms, path := v.path }

/-- A private executable mapping of a real file: one whose path does not begin with a bracket,
is not under `/dev/` and does not end with the bare mark `(deleted)`, wherever that comes from. -/
def Eligible (v : Vma) : Prop :=
  v.exec = true ∧ v.shared = false ∧ ∃ p ∈ v.path,
    ¬ "[".toList <+: p.toList ∧ ¬ "/dev/".toList <+: p.toList ∧ ¬ "(deleted)".toList <:+ p.toList

end Vma

/-- The mapping that is to be chosen: the lowest of the path of the lowest eligible
one, and none only if there is none that is eligible. -/
def ChosenFrom (vs : List Vma) : Option MapEntry → Prop
  | none => ∀ v ∈ vs, ¬ v.Eligible
  | some m => ∃ v ∈ vs, v.Eligible ∧ (∀ w ∈ vs, w.Eligible → v.start ≤ w.start) ∧
      ∃ u ∈ vs, m = u.entry ∧ u.path = v.path ∧ ∀ w ∈ vs, w.path = v.path → u.start ≤ w.start

/-! ### Reading a line -/

namespace Vma

variable (v : Vma)

/-- No field of the line has whitespace in it. -/
def NoSpace (field : List Char) : Prop := ∀ c ∈ field, Text.isWhitespace c = false

theorem NoSpace.append {s t : List Char} (hs : NoSpace s) (ht : NoSpace t) : NoSpace (s ++ t) := by
  intro c hc
  exact (List.mem_append.mp hc).elim (hs c) (ht c)

theorem NoSpace.cons {s : List Char} (hs : NoSpace s) {c : Char}
    (hc : Text.isWhitespace c = false) : NoSpace (c :: s) :=
  List.forall_mem_cons.mpr ⟨hc, hs⟩

theorem noSpace_hexPad (width n : ℕ) : NoSpace (Text.hexPad width n) :=
  Text.forall_mem_hexPad (by decide) width n

theorem noSpace_range : NoSpace v.range :=
  (noSpace_hexPad _ _).append ((noSpace_hexPad _ _).cons rfl)

theorem noSpace_dev : NoSpace v.dev := (noSpace_hexPad _ _).append ((noSpace_hexPad _ _).cons rfl)

theorem noSpace_perms : NoSpace v.perms := by
  have hchar : ∀ (b : Bool) {c d : Char}, Text.isWhitespace c = false →
      Text.isWhitespace d = false → Text.isWhitespace (if b then c else d) = false := by
    intro b c d hc hd
    cases b
    · exact hd
    · exact hc
  have hnil : NoSpace [] := nofun
  exact (((hnil.cons (hchar v.shared rfl rfl)).cons (hchar v.exec rfl rfl)).cons
    (hchar v.write rfl rfl)).cons (hchar v.read rfl rfl)

theorem noSpace_inode : NoSpace (Nat.toDigits 10 v.inode) := fun _ hc =>
  Text.isWhitespace_of_isDigit (Nat.isDigit_of_mem_toDigits (by decide) le_rfl hc)

/-- The parts of a line: the five fields, and what follows the space after them. -/
theorem splitn_line : Text.splitn Text.isWhitespace 6 v.line =
    [v.range, v.perms, Text.hexPad 8 v.offset, v.dev, Nat.toDigits 10 v.inode] ++
      match v.tail with
      | .nothing => []
      | .space => [[]]
      | .path padding path => [List.replicate padding ' ' ++ path.chars] := by
  have hspace : Text.isWhitespace ' ' = true := rfl
  rw [line, Text.splitn_append_cons v.noSpace_range hspace,
    Text.splitn_append_cons v.noSpace_perms hspace,
    Text.splitn_append_cons (noSpace_hexPad 8 v.offset) hspace,
    Text.splitn_append_cons v.noSpace_dev hspace]
  cases v.tail with
  | nothing =>
    rw [tailChars, List.append_nil, Text.splitn_eq_singleton v.noSpace_inode]
    rfl
  | space =>
    rw [tailChars, Text.splitn_append_cons v.noSpace_inode hspace]
    rfl
  | path padding path =>
    rw [tailChars, Text.splitn_append_cons v.noSpace_inode hspace]
    rfl

/-- **A line is read back.** -/
theorem parseMapsLine_line : parseMapsLine v.line = .ok v.entry := by
  have hrange : v.range.isEmpty = false := by simp [range]
  have hperms : v.perms.isEmpty = false := rfl
  have hoffset : (Text.hexPad 8 v.offset).isEmpty = false := by simp [Text.hexPad_ne_nil]
  have hdev : v.dev.isEmpty = false := by simp [dev]
  have hinode : (Nat.toDigits 10 v.inode).isEmpty = false := by simp [Nat.toDigits_ne_nil]
  have hdash : '-' ∉ Text.hexPad 8 v.start.toNat := fun h =>
    Text.forall_mem_hexPad (P := fun c => c ≠ '-') (by decide) 8 v.start.toNat '-' h rfl
  have hsplit : Text.splitFirst '-' v.range =
      some (Text.hexPad 8 v.start.toNat, Text.hexPad 8 v.stop.toNat) :=
    Text.splitFirst_append_cons hdash _
  rw [parseMapsLine, splitn_line]
  cases htail : v.tail with
  | nothing =>
    simp [hrange, hperms, hoffset, hdev, hinode, hsplit, Text.fromStrRadix16_hexPad, entry, path,
      htail]
  | space =>
    -- the empty part is dropped
    simp [hrange, hperms, hoffset, hdev, hinode, hsplit, Text.fromStrRadix16_hexPad, entry, path,
      htail]
  | path padding p =>
    have htrim := Text.trim_replicate_append padding p.trimmed
    simp [hrange, hperms, hoffset, hdev, hinode, hsplit, Text.fromStrRadix16_hexPad, entry, path,
      htail, p.nonempty, htrim]

/-! ### Reading a listing -/

/-- No line of a listing has a newline in it. -/
theorem newline_notMem_line : '\n' ∉ v.line := by
  have hfield : ∀ {field : List Char}, NoSpace field → '\n' ∉ field := fun hno hmem => by
    have hnewline := hno _ hmem
    cases hnewline
  have htail : '\n' ∉ tailChars v.tail := by
    cases v.tail with
    | nothing => simp [tailChars]
    | space => simp [tailChars]
    | path padding path => simp [tailChars, path.noNewline]
  simp [line, hfield v.noSpace_range, hfield v.noSpace_perms, hfield v.noSpace_dev,
    hfield v.noSpace_inode, hfield (noSpace_hexPad 8 v.offset), htail]

/-- The line ends as any of its nonempty ends does. -/
theorem getLast?_line_of_suffix {s : List Char} (hne : s ≠ []) (h : s <:+ v.line) :
    v.line.getLast? = s.getLast? := by
  obtain ⟨before, hbefore⟩ := h
  rw [← hbefore, List.getLast?_append, List.getLast?_eq_some_getLast hne]
  rfl

/-- No line ends with a carriage return. -/
theorem getLast?_line : v.line.getLast? ≠ some '\r' := by
  have hsuffix : Nat.toDigits 10 v.inode ++ tailChars v.tail <:+ v.line :=
    ⟨v.range ++ ' ' :: (v.perms ++ ' ' :: (Text.hexPad 8 v.offset ++ ' ' :: (v.dev ++ [' ']))),
      by simp [line]⟩
  have hne : Nat.toDigits 10 v.inode ++ tailChars v.tail ≠ [] := by simp [Nat.toDigits_ne_nil]
  rw [v.getLast?_line_of_suffix hne hsuffix]
  cases v.tail with
  | nothing =>
    intro h
    rw [tailChars, List.append_nil] at h
    have hreturn := v.noSpace_inode _ (List.mem_of_getLast? h)
    cases hreturn
  | space => simp [tailChars]
  | path padding path =>
    intro h
    have hlast : path.chars.getLast? = some '\r' := by
      rw [tailChars, List.append_cons, ← List.append_assoc, List.getLast?_append,
        List.getLast?_eq_some_getLast path.nonempty] at h
      rw [List.getLast?_eq_some_getLast path.nonempty]
      exact h
    have hreturn := path.trimmed.2 _ hlast
    cases hreturn

theorem lines_render (vs : List Vma) : Text.lines (render vs).toList = vs.map line := by
  rw [render, String.toList_ofList]
  induction vs with
  | nil => rfl
  | cons v vs ih =>
    rw [List.flatMap_cons, List.append_assoc, List.singleton_append,
      Text.lines_append_newline v.newline_notMem_line v.getLast?_line, ih, List.map_cons]

end Vma

/-- **Every listing is read back**, one entry for each mapping, in order. -/
theorem parseMaps_render (vs : List Vma) : parseMaps (Vma.render vs) = .ok (vs.map Vma.entry) := by
  rw [parseMaps, Vma.lines_render]
  induction vs with
  | nil => rfl
  | cons v vs ih =>
    rw [List.map_cons, List.mapM_cons, v.parseMapsLine_line, ih]
    rfl

/-! ### Choosing the binary -/

theorem isRealPath_iff {p : String} (hne : p ≠ "") : isRealPath p = true ↔
    ¬ "[".toList <+: p.toList ∧ ¬ "/dev/".toList <+: p.toList ∧
      ¬ "(deleted)".toList <:+ p.toList := by
  simp [isRealPath, hne, and_assoc, ← List.isPrefixOf_iff_prefix, ← List.isSuffixOf_iff_suffix]

theorem Vma.path_ne_empty {v : Vma} {p : String} (h : p ∈ v.path) : p ≠ "" := by
  unfold Vma.path at h
  split at h
  · next path _ =>
    obtain rfl := Option.some.inj h
    simpa [← String.toList_inj] using path.nonempty
  · cases h

/-- The characters say which flags are set. -/
theorem Vma.contains_perms (v : Vma) :
    v.perms.contains 'x' = v.exec ∧ v.perms.contains 'p' = !v.shared := by
  rw [perms]
  cases v.read <;> cases v.write <;> cases v.exec <;> cases v.shared <;> exact ⟨rfl, rfl⟩

/-- The code looks for what is eligible. -/
theorem isExeMapping_entry {v : Vma} : isExeMapping v.entry = true ↔ v.Eligible := by
  have hpath : v.path.any isRealPath = true ↔ ∃ p ∈ v.path, ¬ "[".toList <+: p.toList ∧
      ¬ "/dev/".toList <+: p.toList ∧ ¬ "(deleted)".toList <:+ p.toList := by
    cases hp : v.path with
    | none => simp
    | some p =>
      rw [Option.any_some, isRealPath_iff (v.path_ne_empty hp)]
      simp
  rw [isExeMapping, Vma.entry, String.toList_ofList, v.contains_perms.1, v.contains_perms.2,
    Bool.and_eq_true, Bool.and_eq_true, hpath, Bool.not_eq_true', and_assoc]
  rfl

/-- The first eligible mapping of an ascending listing is the lowest. -/
theorem le_of_find? {vs : List Vma} (h : vs.Pairwise fun v w => v.start ≤ w.start) {v : Vma}
    (hfind : vs.find? (fun v => isExeMapping v.entry) = some v) :
    ∀ w ∈ vs, w.Eligible → v.start ≤ w.start := by
  obtain ⟨-, before, after, rfl, hbefore⟩ := List.find?_eq_some_iff_append.mp hfind
  intro w hw hel
  rcases List.mem_append.mp hw with hw | hw
  · have hnot := hbefore w hw
    simp [isExeMapping_entry.mpr hel] at hnot
  · rcases List.mem_cons.mp hw with rfl | hw
    · exact UInt64.le_refl _
    · exact List.rel_of_pairwise_cons (List.pairwise_append.mp h).2.1 hw

/-- The lowest mapping of a path, where the path has one. -/
theorem exists_lowest {maps : List MapEntry} {m : MapEntry} (hm : m ∈ maps) :
    ∃ u ∈ maps, maps.minOn? (fun m => m.start.toNat) = some u ∧ ∀ w ∈ maps, u.start ≤ w.start := by
  obtain ⟨u, hu⟩ := Option.isSome_iff_exists.mp
    (List.isSome_minOn?_of_mem (f := fun m : MapEntry => m.start.toNat) hm)
  refine ⟨u, List.minOn?_mem hu, hu, fun w hw => ?_⟩
  have hle := List.apply_get_minOn?_le_of_mem (f := fun m : MapEntry => m.start.toNat) hw
  simp only [hu, Option.get_some] at hle
  exact UInt64.le_iff_toNat_le.mpr hle

/-- **The right mapping is chosen** from an ascending listing. -/
theorem chosenFrom_principalBinary {vs : List Vma}
    (h : vs.Pairwise fun v w => v.start ≤ w.start) :
    ChosenFrom vs (principalBinary (vs.map Vma.entry)) := by
  have hcomp : isExeMapping ∘ Vma.entry = fun v => isExeMapping v.entry := rfl
  rw [principalBinary, List.find?_map, hcomp]
  cases hfind : vs.find? fun v => isExeMapping v.entry with
  | none =>
    intro v hv hel
    exact List.find?_eq_none.mp hfind v hv (isExeMapping_entry.mpr hel)
  | some v =>
    have hv := List.mem_of_find?_eq_some hfind
    have hel : v.Eligible := isExeMapping_entry.mp (by simpa using List.find?_some hfind)
    obtain ⟨-, -, p, hp, -⟩ := id hel
    have hpath : v.entry.path = some p := hp
    have hmem : v.entry ∈ (vs.map Vma.entry).filter fun m => m.path = some p :=
      List.mem_filter.mpr ⟨List.mem_map_of_mem hv, by simp [hpath]⟩
    obtain ⟨m, hm, hmin, hleast⟩ := exists_lowest hmem
    simp only [Option.map_some, hpath, hmin]
    obtain ⟨hm, hmpath⟩ := List.mem_filter.mp hm
    obtain ⟨u, hu, rfl⟩ := List.mem_map.mp hm
    refine ⟨v, hv, hel, le_of_find? h hfind, u, hu, rfl, ?_, fun w hw hwpath => ?_⟩
    · exact (of_decide_eq_true hmpath).trans hp.symm
    · exact hleast w.entry (List.mem_filter.mpr
        ⟨List.mem_map_of_mem hw, decide_eq_true (hwpath.trans hp)⟩)

/-- **Every ascending listing is read back and the right mapping chosen from it.** -/
theorem listing_chosen {vs : List Vma} (h : vs.Pairwise fun v w => v.start ≤ w.start) :
    parseMaps (Vma.render vs) = .ok (vs.map Vma.entry) ∧
      ChosenFrom vs (principalBinary (vs.map Vma.entry)) :=
  ⟨parseMaps_render vs, chosenFrom_principalBinary h⟩

/-- A binary whose header is mapped below its text, and an anonymous mapping. -/
def phpListing : List Vma :=
  let php : VmaPath := ⟨"/usr/bin/php8.3".toList, by decide, by decide, by decide⟩
  [⟨0x555555554000, 0x555555641000, true, false, false, false, 0, 0, 0x1d9, 120084486,
      .path 16 php⟩,
    ⟨0x555555641000, 0x555555969000, true, false, true, false, 0xed000, 0, 0x1d9, 120084486,
      .path 16 php⟩,
    ⟨0x555555ae9000, 0x555555d0f000, true, true, false, false, 0, 0, 0, 0, .nothing⟩]

theorem listing_chosen_php : parseMaps (Vma.render phpListing) = .ok (phpListing.map Vma.entry) ∧
    ChosenFrom phpListing (principalBinary (phpListing.map Vma.entry)) :=
  listing_chosen (by decide)

end PhpFastProfile
