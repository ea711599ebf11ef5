import PhpFastProfile.Lib.Batches
import PhpFastProfile.Output.PushConfig

/-!
# How often is pushed

`PyroscopeSink` has no timer: whether the interval is over is looked at when a sample is
written, and the interval begins when the last push is over.  So the samples of a session are
cut into batches by the clock, and each batch is one request.

## Main definitions

* `Clocked t calls t'` — the calls are made one after another, from `t` to `t'`.
* `Carries` — a request has the samples and the times of a window.
* `Posted` — the requests are those of some batches, one each.

## Main results

* `push_of_waiting` — what waits is one request, and nothing waits after it.
* `session_batches` — **how a session is cut into requests, and how many there are.**
-/

namespace PhpFastProfile
namespace PyroscopeSink

open PprofBuilder (infallible)

/-- Between the clock readings `t` and `t'` the calls are made, one after another. -/
inductive Clocked : ℕ → List WriteCall → ℕ → Prop
  | nil {t t' : ℕ} (h : t ≤ t') : Clocked t [] t'
  | cons {t t' : ℕ} {c : WriteCall} {cs : List WriteCall} (hbegins : t ≤ c.instant)
      (hends : c.instant ≤ c.env.ended) (h : Clocked c.env.ended cs t') : Clocked t (c :: cs) t'

theorem Clocked.ended_le {t t' : ℕ} {calls : List WriteCall} (h : Clocked t calls t') :
    t ≤ t' ∧ ∀ c ∈ calls, c.env.ended ≤ t' := by
  induction h with
  | nil h => exact ⟨h, fun c hc => by cases hc⟩
  | @cons t t' c cs hbegins hends h ih =>
    refine ⟨hbegins.trans (hends.trans ih.1), fun d hd => ?_⟩
    rcases List.mem_cons.mp hd with rfl | hd
    · exact ih.1
    · exact ih.2 d hd

/-- The request carries these samples, as the window from `start` to `finish`. -/
def Carries (encode : Profile → List UInt8) (gzip : List UInt8 → List UInt8) (name : String)
    (calls : List WriteCall) (start finish : ℤ) (req : Request) : Prop :=
  ∃ w : Window, w.samples = calls.map WriteCall.frames ∧ w.start = start ∧ w.finish = finish ∧
    w.Faithful ∧ w.PostedAs encode gzip name req

/-- Each batch is posted by one request: its window goes from `start`, or where the one before
it was taken, to where it is taken itself, with its last sample. -/
inductive Posted (encode : Profile → List UInt8) (gzip : List UInt8 → List UInt8) (name : String) :
    ℤ → List (List WriteCall) → ℤ → List Request → Prop
  | nil (start : ℤ) : Posted encode gzip name start [] start []
  | cons {calls : List WriteCall} {c : WriteCall} {batches : List (List WriteCall)}
    {start finish : ℤ} {req : Request} {reqs : List Request}
    (hreq : Carries encode gzip name (calls ++ [c]) start c.env.now req)
    (hreqs : Posted encode gzip name c.env.now batches finish reqs) :
    Posted encode gzip name start ((calls ++ [c]) :: batches) finish (req :: reqs)

section

variable {encode : Profile → List UInt8} {gzip : List UInt8 → List UInt8} {name : String}

theorem Posted.length_eq {batches : List (List WriteCall)} {start finish : ℤ}
    {reqs : List Request} (h : Posted encode gzip name start batches finish reqs) :
    reqs.length = batches.length := by
  induction h with
  | nil => rfl
  | cons hreq hreqs ih => rw [List.length_cons, List.length_cons, ih]

/-- The calls wait: the builder has their samples. -/
structure Waits (s : PyroscopeSink) (waiting : List WriteCall) : Prop where
  tables : s.builder.Tables
  accounted : s.builder.Accounted ((waiting.map WriteCall.frames).map (·.map Frame.key))

theorem Waits.new (cfg : PyroscopeConfig) (agent : Agent) (now : ℤ) (instant : ℕ) :
    Waits (PyroscopeSink.new cfg agent now instant) [] :=
  ⟨PprofBuilder.tables_new now, PprofBuilder.accounted_new now⟩

theorem Waits.add {s : PyroscopeSink} {waiting : List WriteCall} (h : Waits s waiting)
    (c : WriteCall) : Waits { s with builder := s.builder.add c.frames } (waiting ++ [c]) := by
  refine ⟨PprofBuilder.tables_add h.tables c.frames, ?_⟩
  rw [List.map_append, List.map_append]
  exact PprofBuilder.accounted_add h.tables h.accounted c.frames

variable (encode gzip)

/-- **What waits is one request**, and then nothing waits. -/
theorem push_of_waiting {s : PyroscopeSink} {waiting : List WriteCall} (h : Waits s waiting)
    (hne : waiting ≠ []) (env : PushEnv) :
    (∃ req, (s.push (infallible encode) (infallible gzip) env).1 = some req ∧
      Carries encode gzip s.cfg.name waiting s.builder.windowStartNanos env.now req) ∧
    (s.push (infallible encode) (infallible gzip) env).2 =
      { s with builder := PprofBuilder.new env.now, lastPush := env.ended } := by
  have hfull : s.builder.isEmpty ≠ true := by
    intro hempty
    exact hne (List.map_eq_nil_iff.mp ((isEmpty_iff h.accounted).mp hempty))
  obtain ⟨hresolved, -, -⟩ :=
    PprofBuilder.buildProfile_resolves h.tables h.accounted env.order env.now
  rw [List.map_map, List.map_map] at hresolved
  let w : Window :=
    { samples := waiting.map WriteCall.frames
      profile := (s.builder.buildProfile env.order env.now).1
      start := s.builder.windowStartNanos
      finish := env.now }
  have hw : w.Faithful := by
    refine ⟨?_, ?_, rfl, rfl⟩
    · simpa [w] using hne
    · rw [List.map_map]
      exact hresolved
  unfold push
  rw [if_neg hfull]
  exact ⟨⟨_, rfl, w, rfl, rfl, rfl, hw, rfl, rfl⟩, rfl⟩

theorem push_of_empty {s : PyroscopeSink} (h : Waits s []) (env : PushEnv) :
    (s.push (infallible encode) (infallible gzip) env).1 = none := by
  unfold push
  rw [if_pos ((isEmpty_iff h.accounted).mpr rfl)]

/-- The samples that wait were written before a push was due. -/
def Early (s : PyroscopeSink) (waiting : List WriteCall) : Prop :=
  ∀ c ∈ waiting, s.lastPush ≤ c.instant ∧ c.instant < s.lastPush + s.cfg.pushInterval

/-- **What a write does**: it closes the batch and posts it, or waits in it. -/
theorem writeSample_batch {s : PyroscopeSink} {waiting : List WriteCall} (h : Waits s waiting)
    (hearly : Early s waiting) {c : WriteCall} (hc : s.lastPush ≤ c.instant) :
    let out := s.writeSample (infallible encode) (infallible gzip) c.frames c.info c.instant c.env
    out.2.cfg = s.cfg ∧
      (s.lastPush + s.cfg.pushInterval ≤ c.instant ∧
          (∃ req, out.1 = some req ∧ Carries encode gzip s.cfg.name (waiting ++ [c])
            s.builder.windowStartNanos c.env.now req) ∧
          Waits out.2 [] ∧ out.2.lastPush = c.env.ended ∧
          out.2.builder.windowStartNanos = c.env.now ∨
        out.1 = none ∧ Waits out.2 (waiting ++ [c]) ∧ Early out.2 (waiting ++ [c]) ∧
          out.2.lastPush = s.lastPush ∧
          out.2.builder.windowStartNanos = s.builder.windowStartNanos) := by
  intro out
  have hadd := h.add c
  have hstart : (s.builder.add c.frames).windowStartNanos = s.builder.windowStartNanos :=
    PprofBuilder.windowStart_add h.tables c.frames
  by_cases hdue : s.cfg.pushInterval ≤ c.instant - s.lastPush
  · have hout : out = push (infallible encode) (infallible gzip)
        { s with builder := s.builder.add c.frames } c.env := by
      rw [show out = _ from writeSample_eq .., if_pos hdue]
    obtain ⟨hposted, hsink⟩ := push_of_waiting encode gzip hadd (by simp) c.env
    rw [← hout, hstart] at hposted
    rw [← hout] at hsink
    rw [hsink]
    refine ⟨rfl, .inl ⟨by omega, hposted, ?_, rfl, rfl⟩⟩
    exact ⟨PprofBuilder.tables_new _, PprofBuilder.accounted_new _⟩
  · have hout : out = (none, { s with builder := s.builder.add c.frames }) := by
      rw [show out = _ from writeSample_eq .., if_neg hdue]
    rw [hout]
    refine ⟨rfl, .inr ⟨rfl, hadd, fun d hd => ?_, rfl, hstart⟩⟩
    rcases List.mem_append.mp hd with hd | hd
    · exact hearly d hd
    · obtain rfl := List.mem_singleton.mp hd
      exact ⟨hc, show d.instant < s.lastPush + s.cfg.pushInterval by omega⟩

theorem writeAll_cons {ε : Type} (encode : Profile → Except ε (List UInt8))
    (gzip : List UInt8 → Except ε (List UInt8)) (s : PyroscopeSink) (c : WriteCall)
    (cs : List WriteCall) :
    (s.writeAll encode gzip (c :: cs)).1 =
      (s.writeSample encode gzip c.frames c.info c.instant c.env).1.toList ++
        ((s.writeSample encode gzip c.frames c.info c.instant c.env).2.writeAll encode gzip cs).1 :=
  rfl

/-- The writes of a session: the clock closes the batches, and each is posted. -/
theorem writeAll_batches (calls : List WriteCall) :
    ∀ {s : PyroscopeSink} {waiting : List WriteCall} {t t' : ℕ}, Waits s waiting →
      Early s waiting → s.lastPush ≤ t → Clocked t calls t' →
      ∃ batches rest, waiting ++ calls = batches.flatten ++ rest ∧
        Batched s.cfg.pushInterval (·.instant) (·.env.ended) s.lastPush batches rest ∧
        Posted encode gzip s.cfg.name s.builder.windowStartNanos batches
          (s.writeAll (infallible encode) (infallible gzip) calls).2.builder.windowStartNanos
          (s.writeAll (infallible encode) (infallible gzip) calls).1 ∧
        Waits (s.writeAll (infallible encode) (infallible gzip) calls).2 rest ∧
        (s.writeAll (infallible encode) (infallible gzip) calls).2.cfg = s.cfg := by
  induction calls with
  | nil =>
    intro s waiting t t' h hearly _ _
    exact ⟨[], waiting, by simp, .waits hearly, .nil _, h, rfl⟩
  | cons c cs ih =>
    intro s waiting t t' h hearly hlast hclock
    obtain ⟨hbegins, hends, hclock⟩ : t ≤ c.instant ∧ c.instant ≤ c.env.ended ∧
        Clocked c.env.ended cs t' := by
      cases hclock with
      | cons hbegins hends h => exact ⟨hbegins, hends, h⟩
    obtain ⟨hcfg, ⟨hdue, ⟨req, hreq, hcarries⟩, hwaits, hpushed, hstart⟩ |
        ⟨hnone, hwaits, hwait, hkept, hstart⟩⟩ :=
      writeSample_batch encode gzip h hearly (hlast.trans hbegins)
    · -- the batch is closed, and the next one begins with nothing
      obtain ⟨batches, rest, hsplit, hbatched, hrest, hwaits', hcfg'⟩ :=
        ih hwaits (fun d hd => by cases hd) hpushed.le hclock
      rw [hcfg, hpushed] at hbatched
      rw [hcfg, hstart] at hrest
      refine ⟨(waiting ++ [c]) :: batches, rest, ?_,
        .closed hearly hdue hends hbatched, ?_, hwaits',
        hcfg'.trans hcfg⟩
      · rw [List.flatten_cons, List.append_assoc, ← hsplit]
        simp
      · rw [writeAll_cons, hreq]
        exact .cons hcarries hrest
    · obtain ⟨batches, rest, hsplit, hbatched, hrest, hwaits', hcfg'⟩ :=
        ih hwaits hwait (hkept.le.trans (hlast.trans (hbegins.trans hends))) hclock
      rw [hcfg, hkept] at hbatched
      rw [hcfg, hstart] at hrest
      refine ⟨batches, rest, ?_, hbatched, ?_, hwaits', hcfg'.trans hcfg⟩
      · rw [← hsplit]
        simp
      · rw [writeAll_cons, hnone]
        exact hrest

end

/-- **How a session is cut into requests.**  A batch is closed by the first sample that comes
when the interval has gone by since the last push was over, and it is one request, with these
samples and the times at which the batch before it and it were taken; what waits at the end is
one more.  A server is never asked more often: the interval is a second at least, whatever the
arguments say. -/
theorem session_batches (encode : Profile → List UInt8) (gzip : List UInt8 → List UInt8)
    (args : PushArgs) (agent : Agent) (now : ℤ) {t t' : ℕ} {calls : List WriteCall}
    (hclock : Clocked t calls t') (last : PushEnv) :
    let interval := fromSecs (max args.pushIntervalSecs 1)
    let name := (pyroscopeConfig args).name
    let reqs := (new (pyroscopeConfig args) agent now t).session (infallible encode)
      (infallible gzip) calls last
    (∃ batches rest posted left taken, calls = batches.flatten ++ rest ∧
      Batched interval (·.instant) (·.env.ended) t batches rest ∧ reqs = posted ++ left ∧
      Posted encode gzip name now batches taken posted ∧
      (rest = [] ∧ left = [] ∨
        rest ≠ [] ∧ ∃ req, left = [req] ∧ Carries encode gzip name rest taken last.now req)) ∧
    reqs.length ≤ (t' - t) / interval + 1 := by
  intro interval name reqs
  let s := ((new (pyroscopeConfig args) agent now t).writeAll (infallible encode) (infallible gzip)
    calls).2
  obtain ⟨batches, rest, hsplit, hbatched, hposted, hwaits, hcfg⟩ :=
    writeAll_batches encode gzip calls (Waits.new (pyroscopeConfig args) agent now t)
      (fun c hc => by cases hc) (le_refl t) hclock
  -- what is left is posted by `finish`
  have hlast : rest = [] ∧ (s.push (infallible encode) (infallible gzip) last).1.toList = [] ∨
      rest ≠ [] ∧ ∃ req, (s.push (infallible encode) (infallible gzip) last).1.toList = [req] ∧
        Carries encode gzip name rest s.builder.windowStartNanos last.now req := by
    by_cases hrest : rest = []
    · exact .inl ⟨hrest, by rw [push_of_empty encode gzip (hrest ▸ hwaits)]; rfl⟩
    · obtain ⟨⟨req, hreq, hcarries⟩, -⟩ := push_of_waiting encode gzip hwaits hrest last
      rw [hcfg] at hcarries
      exact .inr ⟨hrest, req, by rw [hreq]; rfl, hcarries⟩
  refine ⟨⟨batches, rest, _, _, _, hsplit, hbatched, rfl, hposted, hlast⟩, ?_⟩
  have hcount : t + batches.length * interval ≤ t' := by
    refine hbatched.length_mul_le hclock.ended_le.1 fun c hc => hclock.ended_le.2 c ?_
    rw [List.nil_append] at hsplit
    rw [hsplit]
    exact List.mem_append_left _ hc
  have hpos : 0 < interval := by
    show 0 < max args.pushIntervalSecs 1 * 1000000000
    omega
  have hbatches : batches.length ≤ (t' - t) / interval :=
    (Nat.le_div_iff_mul_le hpos).mpr (by omega)
  have hone : (s.push (infallible encode) (infallible gzip) last).1.toList.length ≤ 1 :=
    Option.length_toList_le
  rw [show reqs.length = _ from List.length_append, hposted.length_eq]
  exact Nat.add_le_add hbatches hone

/-- Three samples, the second when a push is due. -/
def threeCalls : List WriteCall :=
  [0, 1000000000, 1500000000].map fun t => ⟨[⟨"f", none, none, 1⟩], ⟨none, none⟩, t, pushEnv t⟩

theorem session_batches_threeCalls :
    let reqs := (new (pyroscopeConfig pushArgs) byName 0 0).session (infallible fun _ => [1])
      (infallible id) threeCalls (pushEnv 0)
    reqs.length = 2 ∧ (∃ batches rest posted left taken, threeCalls = batches.flatten ++ rest ∧
      Batched 1000000000 (·.instant) (·.env.ended) 0 batches rest ∧ reqs = posted ++ left ∧
      Posted (fun _ => [1]) id "php\x7benv=prod\x7d" 0 batches taken posted ∧
      (rest = [] ∧ left = [] ∨ rest ≠ [] ∧ ∃ req, left = [req] ∧
        Carries (fun _ => [1]) id "php\x7benv=prod\x7d" rest taken 0 req)) ∧
      reqs.length ≤ 1500000000 / 1000000000 + 1 := by
  have hclock : Clocked 0 threeCalls 1500000000 :=
    .cons (le_refl _) (le_refl _) (.cons (by decide) (le_refl _)
      (.cons (by decide) (le_refl _) (.nil (le_refl _))))
  exact ⟨rfl, session_batches (fun _ => [1]) id pushArgs byName 0 hclock (pushEnv 0)⟩

end PyroscopeSink
end PhpFastProfile
