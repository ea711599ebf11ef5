import PhpFastProfile.Output.PprofExport
import PhpFastProfile.Output.Sinks

/-!
# Continuous push

`PyroscopeSink` adds every sample to a builder and, once the push interval is
over, takes the window and posts it.  The builder is reset before the outcome of
the request is known, and the outcome is only logged: a window is posted once,
whatever becomes of the request.

What a push meets outside the sink is a `PushEnv`: two clocks, the order in which
the samples are drained, and the outcome of the request.  Encoder and gzip are
parameters of a session.  The HTTP client is an `Agent`: of it only matters which of
the headers set before are replaced when one is set.

## Main definitions

* `PyroscopeSink`, `push`, `writeSample`, `finish` — the sink.
* `session` — the requests of a run that is ended by `finish`.
* `Window` — a posted window: its samples, its message and its bounds.
* `Window.PostedAs` — the request that carries a window.
* `Exports` — what some calls do to the stacks that wait in the builder.

## Main results

* `request_headers` — a header is sent unless a later one replaces it.
* `exports_push` — a push posts everything that waits, or there is nothing to post.
* `session_partition` — **every sample is posted exactly once, in order, and the
  outcome of a request changes no request.**
-/

namespace PhpFastProfile

/-! ### The sink -/

/-- What a push needs to know. -/
structure PyroscopeConfig where
  /-- Base server URL (no trailing slash). -/
  url : String
  /-- Application name including any `{label=value}` selector. -/
  name : String
  authToken : Option String
  tenantId : Option String
  /-- Extra request headers, applied after the built-in auth headers. -/
  headers : List (String × String)
  pushInterval : ℕ
  deriving DecidableEq, Repr

/-- `ureq::Agent`, by what its requests do with the headers they already have. -/
structure Agent where
  /-- Setting a header of the first name takes away those of the second. -/
  replaces : String → String → Bool

/-- `PyroscopeSink`. -/
structure PyroscopeSink where
  cfg : PyroscopeConfig
  agent : Agent
  builder : PprofBuilder
  lastPush : ℕ

/-- A POST: the arguments of `query` in the order of the calls, the headers it is left
with, and its body. -/
structure Request where
  url : String
  query : List (String × String)
  headers : List (String × String)
  body : List UInt8
  deriving DecidableEq, Repr

/-- What a push meets outside the sink. -/
structure PushEnv where
  order : PprofBuilder.DrainOrder
  /-- The system clock when the window is taken. -/
  now : ℤ
  /-- Whether the server accepts the request. -/
  accepted : Bool
  /-- The monotonic clock when the push is over. -/
  ended : ℕ

namespace Agent

variable (agent : Agent)

/-- `set` of a request with these headers. -/
def set (headers : List (String × String)) (name value : String) : List (String × String) :=
  headers.filter (fun h => !agent.replaces name h.1) ++ [(name, value)]

/-- The headers that are left when these are set one after the other: those that none
behind them replaces. -/
def lasting : List (String × String) → List (String × String)
  | [] => []
  | h :: hs => if hs.any fun h' => agent.replaces h'.1 h.1 then lasting hs else h :: lasting hs

/-- Of the headers set before, those are left that no new one replaces. -/
theorem foldl_set (new : List (String × String)) : ∀ old : List (String × String),
    new.foldl (fun headers h => agent.set headers h.1 h.2) old =
      old.filter (fun h => !new.any fun h' => agent.replaces h'.1 h.1) ++ agent.lasting new := by
  induction new with
  | nil => intro old; simp [lasting]
  | cons h new ih =>
    intro old
    have hfilter : (old.filter fun g => !agent.replaces h.1 g.1).filter
        (fun g => !new.any fun h' => agent.replaces h'.1 g.1) =
          old.filter fun g => !(h :: new).any fun h' => agent.replaces h'.1 g.1 := by
      rw [List.filter_filter]
      congr 1
      funext g
      rw [List.any_cons, Bool.not_or, Bool.and_comm]
    rw [List.foldl_cons, ih, set, List.filter_append, hfilter, List.append_assoc, lasting]
    by_cases hany : (new.any fun h' => agent.replaces h'.1 h.1) = true
    · rw [if_pos hany, List.filter_cons_of_neg (by rw [hany]; decide), List.filter_nil,
        List.nil_append]
    · rw [if_neg hany, List.filter_cons_of_pos (by simpa using hany), List.filter_nil]
      rfl

theorem lasting_sublist (hs : List (String × String)) : (agent.lasting hs).Sublist hs := by
  induction hs with
  | nil => exact .slnil
  | cons h hs ih =>
    rw [lasting]
    split
    · exact ih.cons h
    · exact ih.cons_cons h

theorem lasting_append (hs hs' : List (String × String)) :
    agent.lasting (hs ++ hs') =
      (agent.lasting hs).filter (fun h => !hs'.any fun h' => agent.replaces h'.1 h.1) ++
        agent.lasting hs' := by
  have h := agent.foldl_set (hs ++ hs') []
  rw [List.foldl_append, agent.foldl_set hs, agent.foldl_set hs'] at h
  simpa using h.symm

variable {agent}

/-- A header that replaces those of its name, and is not replaced itself, is the only one
of its name that is left. -/
theorem filter_lasting {before after : List (String × String)} {name value : String}
    (hafter : ∀ h ∈ after, agent.replaces h.1 name = false)
    (hsame : ∀ name', agent.replaces name name' = true ↔ name' = name) :
    (agent.lasting (before ++ (name, value) :: after)).filter (fun h => h.1 = name) =
      [(name, value)] := by
  have hnone : (after.any fun h => agent.replaces h.1 name) = false := by
    rw [List.any_eq_false]
    exact fun h hh => by simp [hafter h hh]
  have hlast : agent.lasting ((name, value) :: after) = (name, value) :: agent.lasting after :=
    if_neg (by rw [hnone]; decide)
  -- those before it are replaced, and there are none behind it
  have hbefore : ((agent.lasting before).filter fun h =>
      !((name, value) :: after).any fun h' => agent.replaces h'.1 h.1).filter
        (fun h => h.1 = name) = [] := by
    rw [List.filter_filter, List.filter_eq_nil_iff]
    intro h _ hkept
    simp only [Bool.and_eq_true, decide_eq_true_eq, List.any_cons, Bool.not_or,
      Bool.not_eq_true'] at hkept
    rw [(hsame h.1).mpr hkept.1] at hkept
    exact absurd hkept.2.1 (by decide)
  have hbehind : (agent.lasting after).filter (fun h => h.1 = name) = [] := by
    rw [List.filter_eq_nil_iff]
    intro h hh heq
    have hrep := hafter h (agent.lasting_sublist after |>.mem hh)
    rw [of_decide_eq_true heq, (hsame name).mpr rfl] at hrep
    cases hrep
  rw [agent.lasting_append, List.filter_append, hbefore, hlast, List.nil_append,
    List.filter_cons_of_pos (by simp), hbehind]

end Agent

namespace PyroscopeSink

open PprofBuilder (infallible)

/-- `PyroscopeSink::new`, with the readings of the two clocks. -/
def new (cfg : PyroscopeConfig) (agent : Agent) (now : ℤ) (instant : ℕ) : PyroscopeSink :=
  { cfg, agent, builder := PprofBuilder.new now, lastPush := instant }

/-- Nanoseconds as seconds, cut towards zero. -/
def seconds (nanos : ℤ) : String := toString (nanos.tdiv 1000000000)

/-- The request for a window. -/
def request (cfg : PyroscopeConfig) (agent : Agent) (body : List UInt8)
    (fromNanos untilNanos : ℤ) : Request where
  url := cfg.url ++ "/ingest"
  query := [("name", cfg.name), ("from", seconds fromNanos), ("until", seconds untilNanos),
    ("format", "pprof"), ("spyName", "pfp")]
  headers :=
    let headers := agent.set [] "Content-Type" "application/octet-stream"
    let headers := cfg.authToken.elim headers fun token =>
      agent.set headers "Authorization" ("Bearer " ++ token)
    let headers := cfg.tenantId.elim headers (agent.set headers "X-Scope-OrgID")
    -- applied last, so that a header of the arguments can override the ones above
    cfg.headers.foldl (fun headers h => agent.set headers h.1 h.2) headers
  body

/-- The headers of a request in the order in which they are set. -/
def setHeaders (cfg : PyroscopeConfig) : List (String × String) :=
  ("Content-Type", "application/octet-stream") ::
    ((cfg.authToken.map fun token => ("Authorization", "Bearer " ++ token)).toList ++
      (cfg.tenantId.map fun tenant => ("X-Scope-OrgID", tenant)).toList ++ cfg.headers)

/-- **A header is sent unless a later one replaces it.** -/
theorem request_headers (cfg : PyroscopeConfig) (agent : Agent) (body : List UInt8)
    (fromNanos untilNanos : ℤ) :
    (request cfg agent body fromNanos untilNanos).headers = agent.lasting (setHeaders cfg) := by
  have hset : (request cfg agent body fromNanos untilNanos).headers =
      (setHeaders cfg).foldl (fun headers h => agent.set headers h.1 h.2) [] := by
    unfold request setHeaders
    dsimp only
    rw [List.foldl_cons, List.foldl_append, List.foldl_append]
    cases cfg.authToken <;> cases cfg.tenantId <;> rfl
  rw [hset, agent.foldl_set]
  rfl

/-- Why `try_push` fails. -/
inductive PushError (ε : Type) where
  | encode (e : ε)
  | post
  deriving DecidableEq, Repr

section Push

variable {ε : Type} (encode : Profile → Except ε (List UInt8))
  (gzip : List UInt8 → Except ε (List UInt8))

/-- `try_push`, with the request it makes. -/
def tryPush (s : PyroscopeSink) (env : PushEnv) :
    Except (PushError ε) Unit × Option Request × PyroscopeSink :=
  let (taken, builder) := s.builder.takeGzipped env.order env.now encode gzip
  let s := { s with builder }
  match taken with
  | .error e => (.error (.encode e), none, s)
  | .ok (body, fromNanos, untilNanos) =>
    let req := request s.cfg s.agent body fromNanos untilNanos
    (if env.accepted then .ok () else .error .post, some req, s)

/-- `push`: the result of `try_push` is only logged. -/
def push (s : PyroscopeSink) (env : PushEnv) : Option Request × PyroscopeSink :=
  if s.builder.isEmpty then (none, { s with lastPush := env.ended })
  else
    let (_, req, s) := s.tryPush encode gzip env
    (req, { s with lastPush := env.ended })

/-- `write_sample`; `instant` is the clock when the elapsed time is read. -/
def writeSample (s : PyroscopeSink) (frames : List Frame) (_meta : SampleMeta) (instant : ℕ)
    (env : PushEnv) : Option Request × PyroscopeSink :=
  let s := { s with builder := s.builder.add frames }
  if s.cfg.pushInterval ≤ instant - s.lastPush then s.push encode gzip env else (none, s)

/-- `finish`. -/
def finish (s : PyroscopeSink) (env : PushEnv) : Option Request × PyroscopeSink :=
  s.push encode gzip env

theorem writeSample_eq (s : PyroscopeSink) (frames : List Frame) (info : SampleMeta)
    (instant : ℕ) (env : PushEnv) : s.writeSample encode gzip frames info instant env =
      if s.cfg.pushInterval ≤ instant - s.lastPush then
        push encode gzip { s with builder := s.builder.add frames } env
      else (none, { s with builder := s.builder.add frames }) := rfl

/-- A call of `write_sample`, with what it meets. -/
structure WriteCall where
  frames : List Frame
  info : SampleMeta
  instant : ℕ
  env : PushEnv

/-- The requests of a sequence of `write_sample` calls, and the sink after it. -/
def writeAll (s : PyroscopeSink) : List WriteCall → List Request × PyroscopeSink
  | [] => ([], s)
  | c :: cs =>
    let (req, s) := s.writeSample encode gzip c.frames c.info c.instant c.env
    let (reqs, s) := s.writeAll cs
    (req.toList ++ reqs, s)

/-- The requests of a run: the samples, and then `finish`. -/
def session (s : PyroscopeSink) (calls : List WriteCall) (last : PushEnv) : List Request :=
  let (reqs, s) := s.writeAll encode gzip calls
  reqs ++ (s.finish encode gzip last).1.toList

theorem session_eq (s : PyroscopeSink) (calls : List WriteCall) (last : PushEnv) :
    s.session encode gzip calls last = (s.writeAll encode gzip calls).1
      ++ ((s.writeAll encode gzip calls).2.push encode gzip last).1.toList := rfl

end Push

/-! ### Windows -/

/-- A posted window: the stacks in it, the message it was encoded from, its bounds. -/
structure Window where
  samples : List (List Frame)
  profile : Profile
  start : ℤ
  finish : ℤ

/-- The window is not empty, and its message resolves to its samples and has its bounds, to the
nanosecond. -/
structure Window.Faithful (w : Window) : Prop where
  nonempty : w.samples ≠ []
  resolves : w.profile.resolved.Perm (w.samples.map fun frames => some (frames.map Frame.key))
  timeNanos : w.profile.timeNanos = w.start
  durationNanos : w.profile.durationNanos = max (w.finish - w.start) 0

/-- The request has the message of the window as its body, and the bounds of the window, in
seconds, in its query. -/
structure Window.PostedAs (encode : Profile → List UInt8) (gzip : List UInt8 → List UInt8)
    (name : String) (w : Window) (req : Request) : Prop where
  body : req.body = gzip (encode w.profile)
  query : req.query = [("name", name), ("from", seconds w.start), ("until", seconds w.finish),
    ("format", "pprof"), ("spyName", "pfp")]

/-- Each window starts where the one before has ended, the first at `start`. -/
def Contiguous (start : ℤ) : List Window → ℤ → Prop
  | [], finish => finish = start
  | w :: ws, finish => w.start = start ∧ Contiguous w.finish ws finish

theorem Contiguous.append {start middle finish : ℤ} {ws ws' : List Window}
    (h : Contiguous start ws middle) (h' : Contiguous middle ws' finish) :
    Contiguous start (ws ++ ws') finish := by
  induction ws generalizing start with
  | nil =>
    obtain rfl : middle = start := h
    exact h'
  | cons w ws ih => exact ⟨h.1, ih h.2⟩

section Session

variable (encode : Profile → List UInt8) (gzip : List UInt8 → List UInt8)

/-- From the builder `b` with the stacks `waiting`, the requests `reqs` are made and
`b'` is left with the stacks `rest`. -/
def Exports (cfg : PyroscopeConfig) (b : PprofBuilder) (waiting : List (List Frame))
    (reqs : List Request) (b' : PprofBuilder) (rest : List (List Frame)) : Prop :=
  ∃ ws : List Window, List.Forall₂ (Window.PostedAs encode gzip cfg.name) ws reqs ∧
    waiting = (ws.map Window.samples).flatten ++ rest ∧ (∀ w ∈ ws, w.Faithful) ∧
    Contiguous b.windowStartNanos ws b'.windowStartNanos ∧
    b'.Tables ∧ b'.Accounted (rest.map (·.map Frame.key))

variable {encode gzip} {cfg : PyroscopeConfig} {b b' b'' : PprofBuilder}

theorem Exports.refl {waiting : List (List Frame)} (h : b.Tables)
    (ha : b.Accounted (waiting.map (·.map Frame.key))) :
    Exports encode gzip cfg b waiting [] b waiting :=
  ⟨[], .nil, rfl, by simp, rfl, h, ha⟩

/-- What is added in between waits behind what is left. -/
theorem Exports.trans {waiting added rest rest' : List (List Frame)} {reqs reqs' : List Request}
    (h : Exports encode gzip cfg b waiting reqs b' rest)
    (h' : Exports encode gzip cfg b' (rest ++ added) reqs' b'' rest') :
    Exports encode gzip cfg b (waiting ++ added) (reqs ++ reqs') b'' rest' := by
  obtain ⟨ws, hposted, rfl, hok, hbounds, -, -⟩ := h
  obtain ⟨ws', hposted', hwait, hok', hbounds', htables, hacc⟩ := h'
  refine ⟨ws ++ ws', List.rel_append hposted hposted', ?_, ?_, hbounds.append hbounds', htables,
    hacc⟩
  · rw [List.append_assoc, hwait, List.map_append, List.flatten_append, List.append_assoc]
  · intro w hw
    rcases List.mem_append.mp hw with hw | hw
    · exact hok w hw
    · exact hok' w hw

/-- The builder is empty exactly when nothing waits in it. -/
theorem isEmpty_iff {waiting : List (List Frame)}
    (ha : b.Accounted (waiting.map (·.map Frame.key))) : b.isEmpty = true ↔ waiting = [] := by
  obtain ⟨keys, hcounts, hkeys⟩ := ha
  have hlen : waiting.length = keys.length := by
    rw [← hkeys.length_eq, List.length_map]
  have hperm := (hcounts.expand_perm (w := Int.toNat) Int.toNat_natCast).length_eq
  unfold PprofBuilder.isEmpty
  rw [List.isEmpty_iff]
  constructor
  · intro hnil
    rw [hnil] at hperm
    exact List.length_eq_zero_iff.mp (hlen.trans hperm.symm)
  · rintro rfl
    -- a counted map without keys has no entry
    obtain rfl : keys = [] := List.length_eq_zero_iff.mp hlen.symm
    cases hentries : b.samples.entries with
    | nil => rfl
    | cons e es =>
      have hmem : b.samples.lookup e.1 = some e.2 :=
        AList.mem_lookup_iff.mpr (hentries ▸ List.mem_cons_self ..)
      exact absurd (hcounts.pos_of_lookup hmem).1 (by simp)

variable (encode gzip)

/-- **A push posts everything that waits**, in one request, or nothing waits and
nothing is posted. -/
theorem exports_push {s : PyroscopeSink} {waiting : List (List Frame)} (h : s.builder.Tables)
    (ha : s.builder.Accounted (waiting.map (·.map Frame.key))) (env : PushEnv) :
    Exports encode gzip s.cfg s.builder waiting
      (s.push (infallible encode) (infallible gzip) env).1.toList
      (s.push (infallible encode) (infallible gzip) env).2.builder [] := by
  unfold push
  by_cases hempty : s.builder.isEmpty = true
  · obtain rfl := (isEmpty_iff ha).mp hempty
    rw [if_pos hempty]
    exact Exports.refl h ha
  · rw [if_neg hempty]
    have hne : waiting ≠ [] := fun hnil => hempty ((isEmpty_iff ha).mpr hnil)
    obtain ⟨hresolved, -, -⟩ := PprofBuilder.buildProfile_resolves h ha env.order env.now
    rw [List.map_map] at hresolved
    let w : Window :=
      { samples := waiting
        profile := (s.builder.buildProfile env.order env.now).1
        start := s.builder.windowStartNanos
        finish := env.now }
    refine ⟨[w], .cons ⟨rfl, rfl⟩ .nil, by simp [w], ?_, ⟨rfl, rfl⟩, ?_, ?_⟩
    · intro w' hw'
      obtain rfl := List.mem_singleton.mp hw'
      exact ⟨hne, hresolved, rfl, rfl⟩
    · exact PprofBuilder.tables_new env.now
    · exact PprofBuilder.accounted_new env.now

/-- A push leaves the configuration and the client alone. -/
theorem push_cfg {ε : Type} (encode : Profile → Except ε (List UInt8))
    (gzip : List UInt8 → Except ε (List UInt8)) (s : PyroscopeSink) (env : PushEnv) :
    (s.push encode gzip env).2.cfg = s.cfg ∧ (s.push encode gzip env).2.agent = s.agent := by
  unfold push tryPush
  split
  · exact ⟨rfl, rfl⟩
  · dsimp only
    split <;> exact ⟨rfl, rfl⟩

/-- A sample is added behind what waits, and is then posted with it or waits too. -/
theorem exports_writeSample {s : PyroscopeSink} {waiting : List (List Frame)}
    (h : s.builder.Tables) (ha : s.builder.Accounted (waiting.map (·.map Frame.key)))
    (c : WriteCall) :
    (s.writeSample (infallible encode) (infallible gzip) c.frames c.info c.instant c.env).2.cfg
        = s.cfg ∧
      ∃ rest, Exports encode gzip s.cfg s.builder (waiting ++ [c.frames])
        (s.writeSample (infallible encode) (infallible gzip) c.frames c.info c.instant
          c.env).1.toList
        (s.writeSample (infallible encode) (infallible gzip) c.frames c.info c.instant
          c.env).2.builder rest := by
  have htables : (s.builder.add c.frames).Tables := PprofBuilder.tables_add h c.frames
  have hacc : (s.builder.add c.frames).Accounted
      ((waiting ++ [c.frames]).map (·.map Frame.key)) := by
    rw [List.map_append]
    exact PprofBuilder.accounted_add h ha c.frames
  have hstart : (s.builder.add c.frames).windowStartNanos = s.builder.windowStartNanos :=
    PprofBuilder.windowStart_add h c.frames
  rw [writeSample_eq]
  split
  · refine ⟨(push_cfg _ _ _ _).1, [], ?_⟩
    have hpush := exports_push encode gzip (s := { s with builder := s.builder.add c.frames })
      htables hacc c.env
    unfold Exports at hpush ⊢
    rw [← hstart]
    exact hpush
  · refine ⟨rfl, waiting ++ [c.frames], ?_⟩
    have hrefl : Exports encode gzip s.cfg (s.builder.add c.frames) (waiting ++ [c.frames]) []
        (s.builder.add c.frames) (waiting ++ [c.frames]) := Exports.refl htables hacc
    unfold Exports at hrefl ⊢
    rw [← hstart]
    exact hrefl

/-- A sequence of samples is added behind what waits; some windows of it are posted. -/
theorem exports_writeAll : ∀ (calls : List WriteCall) {s : PyroscopeSink}
    {waiting : List (List Frame)}, s.builder.Tables →
    s.builder.Accounted (waiting.map (·.map Frame.key)) →
    (s.writeAll (infallible encode) (infallible gzip) calls).2.cfg = s.cfg ∧
      ∃ rest, Exports encode gzip s.cfg s.builder (waiting ++ calls.map WriteCall.frames)
        (s.writeAll (infallible encode) (infallible gzip) calls).1
        (s.writeAll (infallible encode) (infallible gzip) calls).2.builder rest := by
  intro calls
  induction calls with
  | nil =>
    intro s waiting h ha
    refine ⟨rfl, waiting, ?_⟩
    rw [List.map_nil, List.append_nil]
    exact Exports.refl h ha
  | cons c cs ih =>
    intro s waiting h ha
    obtain ⟨hcfg, rest, hone⟩ := exports_writeSample encode gzip h ha c
    obtain ⟨-, -, -, -, -, htables, hacc⟩ := id hone
    obtain ⟨hcfg', rest', hmore⟩ := ih htables hacc
    refine ⟨hcfg'.trans hcfg, rest', ?_⟩
    have hsplit : waiting ++ (c :: cs).map WriteCall.frames
        = (waiting ++ [c.frames]) ++ cs.map WriteCall.frames := by simp
    rw [hsplit]
    rw [hcfg] at hmore
    exact hone.trans hmore

/-- `finish` posts what is left: the windows of a run have all its samples. -/
theorem exports_session (cfg : PyroscopeConfig) (agent : Agent) (now : ℤ) (instant : ℕ)
    (calls : List WriteCall) (last : PushEnv) : ∃ b',
    Exports encode gzip cfg (PprofBuilder.new now) (calls.map WriteCall.frames)
      ((new cfg agent now instant).session (infallible encode) (infallible gzip) calls last)
      b' [] := by
  have hnew : (new cfg agent now instant).builder.Accounted
      (([] : List (List Frame)).map (·.map Frame.key)) := PprofBuilder.accounted_new now
  obtain ⟨hcfg, rest, hall⟩ := exports_writeAll encode gzip calls (PprofBuilder.tables_new now) hnew
  obtain ⟨-, -, -, -, -, htables, hacc⟩ := id hall
  have hlast := exports_push encode gzip htables hacc last
  rw [hcfg] at hlast
  have hsplit : rest = rest ++ [] := (List.append_nil rest).symm
  rw [hsplit] at hlast
  have hwhole := hall.trans hlast
  rw [List.append_nil, List.nil_append] at hwhole
  exact ⟨_, hwhole⟩

end Session

/-! ### The outcome of the requests -/

section Outcome

variable {ε : Type} (encode : Profile → Except ε (List UInt8))
  (gzip : List UInt8 → Except ε (List UInt8))

/-- A call, with its request accepted. -/
def WriteCall.ok (c : WriteCall) : WriteCall :=
  { c with env := { c.env with accepted := true } }

/-- The outcome of a request is logged and nothing else. -/
theorem push_accepted (s : PyroscopeSink) (env : PushEnv) (accepted : Bool) :
    s.push encode gzip { env with accepted } = s.push encode gzip env := by
  unfold push tryPush
  split
  · rfl
  · dsimp only
    split <;> rfl

theorem writeSample_ok (s : PyroscopeSink) (c : WriteCall) :
    s.writeSample encode gzip c.ok.frames c.ok.info c.ok.instant c.ok.env
      = s.writeSample encode gzip c.frames c.info c.instant c.env := by
  rw [writeSample_eq, writeSample_eq]
  have hpush := push_accepted encode gzip { s with builder := s.builder.add c.frames } c.env true
  show (if s.cfg.pushInterval ≤ c.instant - s.lastPush then _ else _) = _
  split
  · exact hpush
  · rfl

theorem writeAll_ok : ∀ (calls : List WriteCall) (s : PyroscopeSink),
    s.writeAll encode gzip (calls.map WriteCall.ok) = s.writeAll encode gzip calls := by
  intro calls
  induction calls with
  | nil => intro s; rfl
  | cons c cs ih =>
    intro s
    rw [List.map_cons, writeAll, writeAll, writeSample_ok]
    simp only [ih]

end Outcome

/-- **Continuous push accounts for every sample once.**  The requests of a run that
is ended by `finish` are those of windows that cut the sequence of samples into
consecutive parts, none of them empty; the body of each is a message that resolves to
its part and has its bounds, and each window starts where the one before has ended.
Whatever the server answers, the same requests are made. -/
theorem session_partition (encode : Profile → List UInt8) (gzip : List UInt8 → List UInt8)
    (cfg : PyroscopeConfig) (agent : Agent) (now : ℤ) (instant : ℕ) (calls : List WriteCall)
    (last : PushEnv) :
    let reqs := fun calls last =>
      (new cfg agent now instant).session (infallible encode) (infallible gzip) calls last
    (∃ (ws : List Window) (finish : ℤ),
      List.Forall₂ (Window.PostedAs encode gzip cfg.name) ws (reqs calls last) ∧
      (ws.map Window.samples).flatten = calls.map WriteCall.frames ∧
      (∀ w ∈ ws, w.Faithful) ∧ Contiguous now ws finish) ∧
    ∀ calls' (last' : PushEnv), calls'.map WriteCall.ok = calls.map WriteCall.ok →
      { last' with accepted := true } = { last with accepted := true } →
      reqs calls' last' = reqs calls last := by
  intro reqs
  constructor
  · obtain ⟨b', ws, hreqs, hwait, hok, hbounds, -, -⟩ := exports_session encode gzip cfg
      agent now instant calls last
    rw [List.append_nil] at hwait
    exact ⟨ws, b'.windowStartNanos, hreqs, hwait.symm, hok, hbounds⟩
  · intro calls' last' hcalls hlast
    have hsame : ∀ cs l, reqs (cs.map WriteCall.ok) { l with accepted := true } = reqs cs l := by
      intro cs l
      show session _ _ _ _ _ = session _ _ _ _ _
      rw [session_eq, session_eq, writeAll_ok, push_accepted]
    rw [← hsame calls' last', ← hsame calls last, hcalls, hlast]

end PyroscopeSink
end PhpFastProfile
