import PhpFastProfile.Output.Folded
import PhpFastProfile.Lib.Text

/-!
# Reading the folded output back

A flame-graph tool takes a line for a stack: the count follows the last space,
and semicolons separate the frames.  The output has no escape for a semicolon or
a newline inside a name, so that it can be read back exactly when no name of a
sample has one.  Spaces do no harm, and neither does any other character.

## Main definitions

* `readFolded` — the stacks and counts such a tool reads.
* `FoldedSink.ReadsBack` — it reads the stacks of the samples, each from one line.

## Main results

* `readFolded_writeLines` — what is read from lines without a newline in a key.
* `FoldedSink.readsBack_iff` — when the output can be read back.
-/

namespace PhpFastProfile

/-! ### The reader -/

/-- A decimal count. -/
def readCount (s : List Char) : Option ℕ :=
  if s ≠ [] ∧ s.all Char.isDigit then some (Nat.ofDigitChars 10 s 0) else none

/-- The frames of a line's stack, root first. -/
def readStack (s : List Char) : List String := (s.splitOn ';').map String.ofList

/-- The stack and the count of one line. -/
def readFoldedLine (s : List Char) : Option (List String × ℕ) :=
  match Text.splitLast ' ' s with
  | some (stack, count) => (readCount count).map fun n => (readStack stack, n)
  | none => none

/-- The stacks and counts of a text.  What is no such line is passed over. -/
def readFolded (text : String) : List (List String × ℕ) :=
  (text.toList.splitOn '\n').filterMap readFoldedLine

example : readFolded "main;App::run 2\nmain 1\n" = [(["main", "App::run"], 2), (["main"], 1)] := by
  decide

/-- **Neither a newline nor a semicolon is in a name that is read.** -/
theorem not_mem_name_of_mem_readFolded {text : String} {row : List String × ℕ}
    (hrow : row ∈ readFolded text) {name : String} (hname : name ∈ row.1) :
    ';' ∉ name.toList ∧ '\n' ∉ name.toList := by
  obtain ⟨s, hs, hread⟩ := List.mem_filterMap.mp hrow
  rw [readFoldedLine] at hread
  split at hread
  · next stack count hsplit =>
    obtain ⟨n, -, rfl⟩ := Option.map_eq_some_iff.mp hread
    obtain ⟨part, hpart, rfl⟩ := List.mem_map.mp hname
    rw [String.toList_ofList]
    constructor
    · intro hmem
      exact (Text.mem_of_mem_splitOn hpart hmem).2 rfl
    · intro hmem
      have hline : '\n' ∈ s := by
        rw [Text.append_of_splitLast hsplit]
        exact List.mem_append_left _ (Text.mem_of_mem_splitOn hpart hmem).1
      exact (Text.mem_of_mem_splitOn hs hline).2 rfl
  · cases hread

/-! ### Reading what was written -/

theorem readCount_toDigits (n : ℕ) : readCount (Nat.toDigits 10 n) = some n := by
  have hdigits : (Nat.toDigits 10 n).all Char.isDigit = true := by
    rw [List.all_eq_true]
    intro c hc
    exact Nat.isDigit_of_mem_toDigits (by decide) le_rfl hc
  rw [readCount, if_pos ⟨Nat.toDigits_ne_nil, hdigits⟩, Nat.ofDigitChars_ten_toDigits]

/-- The count of a line is what follows the last space, whatever the key is. -/
theorem readFoldedLine_append (key : List Char) (n : ℕ) :
    readFoldedLine (key ++ ' ' :: Nat.toDigits 10 n) = some (readStack key, n) := by
  rw [readFoldedLine, Text.splitLast_append (Text.not_mem_toDigits rfl n)]
  simp only [readCount_toDigits, Option.map_some]

namespace FoldedSink

theorem toList_line (e : Sigma fun _ : String => ℕ) :
    (line e).toList = (e.1.toList ++ ' ' :: Nat.toDigits 10 e.2) ++ '\n' :: [] := by
  simp [line, Nat.toString_eq_repr]

theorem toList_writeLines (w : String) (entries : List (Sigma fun _ : String => ℕ)) :
    (writeLines w entries).toList = w.toList ++ entries.flatMap fun e => (line e).toList := by
  induction entries generalizing w with
  | nil => simp [writeLines]
  | cons e entries ih =>
    have hcons : writeLines w (e :: entries) = writeLines (w ++ line e) entries := rfl
    rw [hcons, ih, String.toList_append, List.flatMap_cons, List.append_assoc]

/-- **Lines whose keys have no newline are read one by one.** -/
theorem readFolded_writeLines {entries : List (Sigma fun _ : String => ℕ)}
    (h : ∀ e ∈ entries, '\n' ∉ e.1.toList) :
    readFolded (writeLines "" entries) = entries.map fun e => (readStack e.1.toList, e.2) := by
  rw [readFolded, toList_writeLines, String.toList_empty, List.nil_append]
  induction entries with
  | nil => decide
  | cons e entries ih =>
    have hfree : '\n' ∉ e.1.toList ++ ' ' :: Nat.toDigits 10 e.2 := by
      simp only [List.mem_append, List.mem_cons, not_or]
      exact ⟨h e List.mem_cons_self, by decide, Text.not_mem_toDigits rfl e.2⟩
    rw [List.flatMap_cons, toList_line, List.append_assoc, List.cons_append, List.nil_append,
      List.splitOn_append_cons_self_of_not_mem hfree,
      List.filterMap_cons_some (readFoldedLine_append e.1.toList e.2),
      ih fun e' he' => h e' (List.mem_cons_of_mem e he'), List.map_cons]

/-! ### The names of a stack -/

/-- The printed names, root first. -/
def rootNames (frames : List Frame) : List String := frames.reverse.map Frame.name

/-- No name of the stack has one of the two characters that end a name or a line. -/
def NamesClean (frames : List Frame) : Prop :=
  ∀ f ∈ frames, ';' ∉ f.name.toList ∧ '\n' ∉ f.name.toList

theorem toList_foldedKey (frames : List Frame) :
    (foldedKey frames).toList = [';'].intercalate ((rootNames frames).map String.toList) := by
  rw [foldedKey, String.toList_intercalate]
  rfl

/-- The names of a clean stack are read from its key. -/
theorem readStack_foldedKey {frames : List Frame} (hne : frames ≠ []) (h : NamesClean frames) :
    readStack (foldedKey frames).toList = rootNames frames := by
  have hclean : ∀ s ∈ (rootNames frames).map String.toList, ';' ∉ s := by
    intro s hs
    obtain ⟨name, hname, rfl⟩ := List.mem_map.mp hs
    obtain ⟨f, hf, rfl⟩ := List.mem_map.mp hname
    exact (h f (List.mem_reverse.mp hf)).1
  have hsome : (rootNames frames).map String.toList ≠ [] := by simpa [rootNames] using hne
  rw [readStack, toList_foldedKey, List.splitOn_intercalate ';' hclean hsome, List.map_map]
  simp [Function.comp_def]

/-- The key of a clean stack has no newline. -/
theorem newline_not_mem_foldedKey {frames : List Frame} (h : NamesClean frames) :
    '\n' ∉ (foldedKey frames).toList := by
  have hpieces : ∀ names : List String, (∀ name ∈ names, '\n' ∉ name.toList) →
      '\n' ∉ (";".intercalate names).toList := by
    intro names hnames
    induction names with
    | nil => simp
    | cons name names ih =>
      have ih := ih fun n hn => hnames n (List.mem_cons_of_mem name hn)
      have hname := hnames name List.mem_cons_self
      cases names with
      | nil => simpa using hname
      | cons name' names =>
        rw [String.intercalate_cons_cons, String.toList_append, String.toList_append]
        simp only [List.mem_append, not_or]
        exact ⟨⟨hname, by decide⟩, ih⟩
  apply hpieces
  intro name hname
  obtain ⟨f, hf, rfl⟩ := List.mem_map.mp hname
  exact (h f (List.mem_reverse.mp hf)).2

/-- A key is determined by the stack read from it. -/
theorem readStack_injective {a b : String} (h : readStack a.toList = readStack b.toList) :
    a = b := by
  have hparts : a.toList.splitOn ';' = b.toList.splitOn ';' :=
    List.map_injective_iff.mpr (fun _ _ => String.ofList_injective) h
  apply String.toList_inj.mp
  calc a.toList = [';'].intercalate (a.toList.splitOn ';') := (List.intercalate_splitOn ';').symm
    _ = [';'].intercalate (b.toList.splitOn ';') := by rw [hparts]
    _ = b.toList := List.intercalate_splitOn ';'

/-! ### Reading the output back -/

/-- From the output of the calls, exactly their stacks are read, as often as they
were sampled; none is split over several lines. -/
def ReadsBack (order : AList.IterOrder (Sigma fun _ : String => ℕ))
    (calls : List (List Frame × SampleMeta)) : Prop :=
  let rows := readFolded ((new.writeAll calls).finish order).w
  (rows.map Prod.fst).Nodup ∧
    (rows.flatMap fun row => List.replicate row.2 row.1).Perm ((stacksOf calls).map rootNames)

theorem ne_nil_of_mem_stacksOf {calls : List (List Frame × SampleMeta)} {frames : List Frame}
    (h : frames ∈ stacksOf calls) : frames ≠ [] := by
  simpa using (List.mem_filter.mp h).2

/-- What is read from the output when the names are clean. -/
theorem readFolded_finish {calls : List (List Frame × SampleMeta)}
    (h : ∀ frames ∈ stacksOf calls, NamesClean frames)
    (order : AList.IterOrder (Sigma fun _ : String => ℕ)) :
    readFolded ((new.writeAll calls).finish order).w =
      ((new.writeAll calls).entries order).map fun e => (readStack e.1.toList, e.2) := by
  rw [finish, writeAll_w]
  apply readFolded_writeLines
  intro e he
  have hmem : e ∈ (new.writeAll calls).counts.entries :=
    (AList.sortedEntries_perm byteOrder order _).mem_iff.mp he
  have hlookup : (new.writeAll calls).counts.lookup e.1 = some e.2 := AList.mem_lookup_iff.mpr hmem
  obtain ⟨frames, hframes, hkey⟩ :=
    List.mem_map.mp ((writeAll_counts calls).pos_of_lookup hlookup).1
  rw [← hkey]
  exact newline_not_mem_foldedKey (h frames hframes)

theorem readsBack_of_clean {calls : List (List Frame × SampleMeta)}
    (h : ∀ frames ∈ stacksOf calls, NamesClean frames)
    (order : AList.IterOrder (Sigma fun _ : String => ℕ)) : ReadsBack order calls := by
  have hperm : ((new.writeAll calls).entries order).Perm (new.writeAll calls).counts.entries :=
    AList.sortedEntries_perm byteOrder order _
  have hcounts : (AList.expand id (new.writeAll calls).counts.entries).Perm
      ((stacksOf calls).map foldedKey) :=
    (writeAll_counts calls).expand_perm fun _ => rfl
  rw [ReadsBack, readFolded_finish h order]
  constructor
  · have hkeys : (((new.writeAll calls).entries order).map Sigma.fst).Nodup :=
      ((hperm.map _).nodup_iff).mpr (new.writeAll calls).counts.nodupKeys
    have hread := hkeys.map (f := fun k => readStack k.toList)
      fun a b hab => readStack_injective hab
    rw [List.map_map] at hread ⊢
    exact hread
  · have hread : ((stacksOf calls).map foldedKey).map (fun k => readStack k.toList) =
        (stacksOf calls).map rootNames := by
      rw [List.map_map]
      exact List.map_congr_left fun frames hframes =>
        readStack_foldedKey (ne_nil_of_mem_stacksOf hframes) (h frames hframes)
    have hexpand : ∀ es : List (Sigma fun _ : String => ℕ),
        (es.map fun e => (readStack e.1.toList, e.2)).flatMap
            (fun row => List.replicate row.2 row.1) =
          (AList.expand id es).map fun k => readStack k.toList := by
      intro es
      simp [AList.expand, List.flatMap_map, List.map_flatMap]
    rw [hexpand, ← hread]
    exact ((AList.expand_perm hperm).trans hcounts).map _

/-- No name with a semicolon or a newline is read from anything. -/
theorem clean_of_readsBack {calls : List (List Frame × SampleMeta)}
    {order : AList.IterOrder (Sigma fun _ : String => ℕ)} (h : ReadsBack order calls) :
    ∀ frames ∈ stacksOf calls, NamesClean frames := by
  intro frames hframes f hf
  have hread : rootNames frames ∈ ((readFolded ((new.writeAll calls).finish order).w).flatMap
      fun row => List.replicate row.2 row.1) :=
    h.2.mem_iff.mpr (List.mem_map_of_mem hframes)
  obtain ⟨row, hrow, hstack⟩ := List.mem_flatMap.mp hread
  have hname : f.name ∈ row.1 := by
    rw [← (List.mem_replicate.mp hstack).2]
    exact List.mem_map_of_mem (List.mem_reverse.mpr hf)
  exact not_mem_name_of_mem_readFolded hrow hname

/-- **The output can be read back exactly if no name has a semicolon or a newline.** -/
theorem readsBack_iff (calls : List (List Frame × SampleMeta))
    (order : AList.IterOrder (Sigma fun _ : String => ℕ)) :
    ReadsBack order calls ↔ ∀ frames ∈ stacksOf calls, NamesClean frames :=
  ⟨clean_of_readsBack, fun h => readsBack_of_clean h order⟩

/-- A closure is named after its file, and a file name may have a semicolon. -/
theorem not_readsBack_closure :
    ¬ ReadsBack ⟨id, fun _ => .rfl⟩
      [([⟨"\x7bclosure:/srv/a;b.php:3\x7d", none, some "/srv/a;b.php", 3⟩], ⟨none, none⟩)] := by
  intro h
  have hclean := clean_of_readsBack h _ (List.mem_singleton_self _) _ (List.mem_singleton_self _)
  exact hclean.1 (by decide)

end FoldedSink
end PhpFastProfile
