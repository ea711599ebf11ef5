import PhpFastProfile.Cli
import PhpFastProfile.Lib.Fields
import PhpFastProfile.Output.PyroscopeSink

/-!
# The configuration of the push

With a server's URL the samples are pushed, whatever the format is; otherwise they are
written in the format of the arguments.  `pyroscope_config` takes what a push needs from the
arguments: slashes at the end of the server's URL go, the labels are put behind the name, a
header is cut at its first colon, and the interval is a second at least.  A header without a
colon is ignored; one that is set under a name again takes the place of the earlier ones, as
far as the client sees it so.

## Main definitions

* `PushArgs`, `pyroscopeConfig` — the arguments and the configuration.
* `buildSink` — the sink that the samplers are given.
* `Renders h header` — the text `h` gives that header, or none.

## Main results

* `buildSink_ne_unreachable` — no sampler asks for a sink of the live format.
* `parseHeader_eq_iff` — what a text of a header is read as.
* `session_carries` — **where each request of a session goes, and the headers it carries.**
-/

namespace PhpFastProfile

/-- The arguments that `pyroscope_config` reads. -/
structure PushArgs where
  pyroscopeUrl : Option String
  pyroscopeApp : String
  pyroscopeLabel : List String
  pushIntervalSecs : ℕ
  pyroscopeAuthToken : Option String
  pyroscopeTenantId : Option String
  pyroscopeHeader : List String
  deriving DecidableEq, Repr

/-- A header of the arguments; without a colon it is malformed. -/
def parseHeader (h : String) : Option (String × String) :=
  (Text.splitFirst ':' h.toList).map fun (k, v) =>
    (String.ofList (Text.trim k), String.ofList (Text.trim v))

example : parseHeader "X-Test:  a:b " = some ("X-Test", "a:b") := by decide

/-- `pyroscope_config`. -/
def pyroscopeConfig (args : PushArgs) : PyroscopeConfig where
  url := String.ofList ((args.pyroscopeUrl.getD "").toList.rdropWhile fun c => c = '/')
  name :=
    if args.pyroscopeLabel.isEmpty then args.pyroscopeApp
    else args.pyroscopeApp ++ "\x7b" ++ ",".intercalate args.pyroscopeLabel ++ "\x7d"
  authToken := args.pyroscopeAuthToken
  tenantId := args.pyroscopeTenantId
  headers := args.pyroscopeHeader.filterMap parseHeader
  pushInterval := fromSecs (max args.pushIntervalSecs 1)

/-- The sinks, by what was chosen. -/
inductive BuiltSink where
  | stacks
  | folded
  | pprof
  | pyroscope (cfg : PyroscopeConfig)
  deriving DecidableEq, Repr

/-- How `build_sink` ends without a sink. -/
inductive BuildSinkError where
  | creating (path : String)
  /-- `Format::Top is dispatched before make_sink`. -/
  | unreachable
  deriving DecidableEq, Repr

/-- `make_sink`. -/
def makeSink : Format → Except BuildSinkError BuiltSink
  | .stacks => .ok .stacks
  | .folded => .ok .folded
  | .pprof => .ok .pprof
  | .top => .error .unreachable

/-- `build_sink`, where `creates` says which files can be created. -/
def buildSink (format : Format) (args : PushArgs) (output : Option String)
    (creates : String → Bool) : Except BuildSinkError BuiltSink :=
  if args.pyroscopeUrl.isSome then .ok (.pyroscope (pyroscopeConfig args))
  else
    match output with
    | some path => if creates path then makeSink format else .error (.creating path)
    | none => makeSink format

/-- The live format is started by `run_top`, which builds no sink. -/
theorem Cli.format_ne_top {args : Args} {own : Option (List UInt8)}
    (h : (∃ pid, Cli.run args own = .single pid) ∨ ∃ filter, Cli.run args own = .multi filter) :
    args.format ≠ .top := by
  intro htop
  have hrun : Cli.run args own = runTop args own := if_pos htop
  rw [hrun] at h
  unfold runTop at h
  rcases h with ⟨_, h⟩ | ⟨_, h⟩
  all_goals
    split at h
    · cases h
    · split at h <;> cases h

theorem makeSink_ne_unreachable {format : Format} (h : format ≠ .top) :
    makeSink format ≠ .error .unreachable := by
  cases format with
  | top => exact absurd rfl h
  | _ => exact fun h => nomatch h

/-- **No sampler asks for a sink of the live format.** -/
theorem buildSink_ne_unreachable {args : Args} {own : Option (List UInt8)}
    (h : (∃ pid, Cli.run args own = .single pid) ∨ ∃ filter, Cli.run args own = .multi filter)
    (push : PushArgs) (output : Option String) (creates : String → Bool) :
    buildSink args.format push output creates ≠ .error .unreachable := by
  have hmake := makeSink_ne_unreachable (Cli.format_ne_top h)
  unfold buildSink
  split
  · simp
  · cases output with
    | none => exact hmake
    | some path =>
      dsimp only
      split
      · exact hmake
      · simp

/-! ### Headers -/

/-- Nothing but whitespace. -/
def Blank (s : List Char) : Prop := ∀ c ∈ s, Text.isWhitespace c = true

/-- A text with a colon gives a header, with any whitespace around its name and its value;
a text without gives none. -/
inductive Renders : String → Option (String × String) → Prop
  | malformed {h : String} (hcolon : ':' ∉ h.toList) : Renders h none
  | header {h name value : String} {a b c d : List Char} (ha : Blank a) (hb : Blank b)
      (hc : Blank c) (hd : Blank d) (hname : Text.Trimmed name.toList) (hcolon : ':' ∉ name.toList)
      (hvalue : Text.Trimmed value.toList)
      (htext : h.toList = (a ++ name.toList ++ b) ++ ':' :: (c ++ value.toList ++ d)) :
      Renders h (some (name, value))

theorem colon_not_blank {s : List Char} (h : Blank s) : ':' ∉ s :=
  fun hmem => absurd (h _ hmem) (by decide)

/-- What is trimmed off is blank. -/
theorem exists_trim (s : List Char) :
    ∃ a b, Blank a ∧ Blank b ∧ s = a ++ Text.trim s ++ b ∧ Text.Trimmed (Text.trim s) := by
  let t := s.dropWhile Text.isWhitespace
  have hs : s = s.takeWhile Text.isWhitespace ++ t := List.takeWhile_append_dropWhile.symm
  have ht : t = Text.trim s ++ t.rtakeWhile Text.isWhitespace :=
    (List.rdropWhile_append_rtakeWhile ..).symm
  refine ⟨s.takeWhile Text.isWhitespace, t.rtakeWhile Text.isWhitespace,
    fun c hc => List.mem_takeWhile_imp hc, fun c hc => List.mem_rtakeWhile_imp hc, ?_, ?_, ?_⟩
  · rw [List.append_assoc, ← ht]
    exact hs
  · intro c hc
    -- the first character was not dropped from the front
    have hhead : t.head? = some c := by
      rw [ht, List.head?_append, hc]
      rfl
    have hnot := List.head?_dropWhile_not Text.isWhitespace s
    rw [show (s.dropWhile Text.isWhitespace).head? = some c from hhead] at hnot
    simpa using hnot
  · intro c hc
    have hne : t.rdropWhile Text.isWhitespace ≠ [] := by
      intro hnil
      rw [show Text.trim s = t.rdropWhile Text.isWhitespace from rfl, hnil] at hc
      cases hc
    have hlast := List.rdropWhile_last_not Text.isWhitespace t hne
    rw [show Text.trim s = t.rdropWhile Text.isWhitespace from rfl,
      List.getLast?_eq_some_getLast hne] at hc
    obtain rfl := Option.some.inj hc
    simpa using hlast

/-- Blanks around a trimmed text are trimmed off. -/
theorem trim_pad {a s b : List Char} (ha : Blank a) (hb : Blank b) (hs : Text.Trimmed s) :
    Text.trim (a ++ s ++ b) = s := by
  cases s with
  | nil =>
    have hall : ∀ c ∈ a ++ b, Text.isWhitespace c = true := by
      intro c hc
      rcases List.mem_append.mp hc with hc | hc
      · exact ha c hc
      · exact hb c hc
    rw [List.append_nil, Text.trim, List.dropWhile_eq_nil_iff.mpr hall]
    rfl
  | cons c s =>
    have hstart : ((c :: s) ++ b).dropWhile Text.isWhitespace = (c :: s) ++ b :=
      List.dropWhile_cons_of_neg (by simp [hs.1 c rfl])
    have hend : (c :: s).rdropWhile Text.isWhitespace = c :: s := by
      rw [List.rdropWhile_eq_self_iff]
      intro hne
      simp [hs.2 _ (List.getLast?_eq_some_getLast hne)]
    rw [Text.trim, List.append_assoc, List.dropWhile_append_of_pos ha, hstart, List.rdropWhile,
      List.reverse_append, List.dropWhile_append_of_pos (by simpa [Blank] using hb)]
    exact hend

theorem parseHeader_of_renders {h : String} {r : Option (String × String)} (hr : Renders h r) :
    parseHeader h = r := by
  cases hr with
  | malformed hcolon =>
    have hall : ∀ c ∈ h.toList, decide (c ≠ ':') = true := by
      intro c hc
      simp only [decide_eq_true_eq]
      rintro rfl
      exact hcolon hc
    rw [parseHeader, Text.splitFirst, List.dropWhile_eq_nil_iff.mpr hall]
    rfl
  | header ha hb hc hd hname hcolon hvalue htext =>
    have hfree := fun hmem => (List.mem_append.mp hmem).elim
      (fun hmem => (List.mem_append.mp hmem).elim (colon_not_blank ha) hcolon) (colon_not_blank hb)
    rw [parseHeader, htext, Text.splitFirst_append_cons hfree, Option.map_some]
    dsimp only
    rw [trim_pad ha hb hname, trim_pad hc hd hvalue, String.ofList_toList, String.ofList_toList]

theorem exists_renders (h : String) : ∃ r, Renders h r := by
  by_cases hcolon : ':' ∈ h.toList
  · obtain ⟨k, v, htext, hk⟩ := List.eq_append_cons_of_mem hcolon
    obtain ⟨a, b, ha, hb, hkey, hname⟩ := exists_trim k
    obtain ⟨c, d, hc, hd, hval, hvalue⟩ := exists_trim v
    refine ⟨some (String.ofList (Text.trim k), String.ofList (Text.trim v)), ?_⟩
    refine .header ha hb hc hd ?_ ?_ ?_ ?_
    · rwa [String.toList_ofList]
    · rw [String.toList_ofList]
      exact fun hmem => hk ((Text.trim_infix k).subset hmem)
    · rwa [String.toList_ofList]
    · rw [String.toList_ofList, String.toList_ofList, ← hkey, ← hval, htext]
  · exact ⟨none, .malformed hcolon⟩

/-- **A text is read as what it renders.** -/
theorem parseHeader_eq_iff {h : String} {r : Option (String × String)} :
    parseHeader h = r ↔ Renders h r := by
  refine ⟨fun heq => ?_, parseHeader_of_renders⟩
  obtain ⟨r', hr⟩ := exists_renders h
  rwa [← heq, parseHeader_of_renders hr]

/-- The headers of the arguments, without the malformed ones. -/
theorem pyroscopeConfig_headers {args : PushArgs} {given : List (Option (String × String))}
    (h : List.Forall₂ Renders args.pyroscopeHeader given) :
    (pyroscopeConfig args).headers = given.reduceOption := by
  have hread : ∀ {hs given}, List.Forall₂ Renders hs given → hs.map parseHeader = given := by
    intro hs given h
    induction h with
    | nil => rfl
    | cons hr h ih => rw [List.map_cons, parseHeader_of_renders hr, ih]
  rw [← hread h]
  show _ = (args.pyroscopeHeader.map parseHeader).filterMap id
  rw [List.filterMap_map]
  rfl

/-- The URL loses the slashes at its end. -/
theorem pyroscopeConfig_url (args : PushArgs) : ∃ k,
    (args.pyroscopeUrl.getD "").toList = (pyroscopeConfig args).url.toList ++ List.replicate k '/' ∧
      '/' ∉ (pyroscopeConfig args).url.toList.getLast? := by
  let url := (args.pyroscopeUrl.getD "").toList
  let p : Char → Bool := fun c => c = '/'
  have hurl : (pyroscopeConfig args).url.toList = url.rdropWhile p := String.toList_ofList ..
  rw [hurl]
  refine ⟨(url.rtakeWhile p).length, ?_, ?_⟩
  · rw [← List.eq_replicate_of_mem (a := '/') (l := url.rtakeWhile p)
      fun c hc => by simpa [p] using List.mem_rtakeWhile_imp hc]
    exact (List.rdropWhile_append_rtakeWhile ..).symm
  · intro hlast
    have hne : url.rdropWhile p ≠ [] := by
      intro hnil
      rw [hnil] at hlast
      cases hlast
    have hnot := List.rdropWhile_last_not p url hne
    rw [List.getLast?_eq_some_getLast hne] at hlast
    rw [Option.some.inj hlast] at hnot
    exact hnot rfl

/-! ### The requests of a session -/

namespace PyroscopeSink

section

variable {ε : Type} {encode : Profile → Except ε (List UInt8)}
  {gzip : List UInt8 → Except ε (List UInt8)}

/-- The request is one with this configuration. -/
def Configured (cfg : PyroscopeConfig) (agent : Agent) (req : Request) : Prop :=
  ∃ body fromNanos untilNanos, req = request cfg agent body fromNanos untilNanos

theorem configured_push {s : PyroscopeSink} {env : PushEnv} {req : Request}
    (h : (s.push encode gzip env).1 = some req) : Configured s.cfg s.agent req := by
  unfold push tryPush at h
  split at h
  · cases h
  · dsimp only at h
    split at h
    · cases h
    · exact ⟨_, _, _, (Option.some.inj h).symm⟩

variable (encode gzip)

theorem configured_writeSample (s : PyroscopeSink) (c : WriteCall) :
    ((s.writeSample encode gzip c.frames c.info c.instant c.env).2.cfg = s.cfg ∧
      (s.writeSample encode gzip c.frames c.info c.instant c.env).2.agent = s.agent) ∧
      ∀ req, (s.writeSample encode gzip c.frames c.info c.instant c.env).1 = some req →
        Configured s.cfg s.agent req := by
  rw [writeSample_eq]
  split
  · exact ⟨push_cfg .., fun req h => (configured_push h :)⟩
  · exact ⟨⟨rfl, rfl⟩, fun req h => by cases h⟩

theorem configured_writeAll (calls : List WriteCall) : ∀ (s : PyroscopeSink),
    ((s.writeAll encode gzip calls).2.cfg = s.cfg ∧
      (s.writeAll encode gzip calls).2.agent = s.agent) ∧
      ∀ req ∈ (s.writeAll encode gzip calls).1, Configured s.cfg s.agent req := by
  induction calls with
  | nil => exact fun s => ⟨⟨rfl, rfl⟩, fun req h => by cases h⟩
  | cons c cs ih =>
    intro s
    obtain ⟨⟨hcfg, hagent⟩, hreq⟩ := configured_writeSample encode gzip s c
    obtain ⟨⟨hcfg', hagent'⟩, hreqs⟩ :=
      ih (s.writeSample encode gzip c.frames c.info c.instant c.env).2
    refine ⟨⟨hcfg'.trans hcfg, hagent'.trans hagent⟩, fun req h => ?_⟩
    rcases List.mem_append.mp h with h | h
    · exact hreq req (Option.mem_toList.mp h)
    · exact hcfg ▸ hagent ▸ hreqs req h

variable {encode gzip}

theorem configured_session {cfg : PyroscopeConfig} {agent : Agent} {now : ℤ} {instant : ℕ}
    {calls : List WriteCall} {last : PushEnv} {req : Request}
    (h : req ∈ (new cfg agent now instant).session encode gzip calls last) :
    Configured cfg agent req := by
  obtain ⟨⟨hcfg, hagent⟩, hreqs⟩ :=
    configured_writeAll encode gzip calls (new cfg agent now instant)
  rw [session_eq] at h
  rcases List.mem_append.mp h with h | h
  · exact hreqs req h
  · have hconf := configured_push (Option.mem_toList.mp h)
    rwa [hcfg, hagent] at hconf

end

/-- Two headers, and one without a colon. -/
def pushArgs : PushArgs where
  pyroscopeUrl := some "http://pyroscope:4040//"
  pyroscopeApp := "php"
  pyroscopeLabel := ["env=prod"]
  pushIntervalSecs := 0
  pyroscopeAuthToken := none
  pyroscopeTenantId := some "one"
  pyroscopeHeader := ["X-Scope-OrgID:  a:b ", "junk", "A:"]

/-- The sinks of the witnesses drain their samples in the order of the map. -/
def pushEnv (ended : ℕ) : PushEnv := ⟨⟨id, fun l => List.Perm.refl l⟩, 0, true, ended⟩

/-- One sample. -/
def pushCalls : List WriteCall := [⟨[⟨"f", none, none, 1⟩], ⟨none, none⟩, 0, pushEnv 0⟩]

/-- A header replaces those of its own name. -/
def byName : Agent := ⟨fun name name' => name' = name⟩

end PyroscopeSink

end PhpFastProfile
