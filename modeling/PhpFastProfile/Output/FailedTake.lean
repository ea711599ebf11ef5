import PhpFastProfile.Output.PprofExport

/-!
# A take that fails

`take_gzipped` drains the samples, moves the three tables out, and then encodes.  If
the encoder or gzip fails it returns before the index maps are cleared, so that these
go on pointing into tables that are empty.  The samples of the window are gone, and
what is added next is given numbers that belong to other rows.

## Main definitions

* `TryOp`, `tryRun` — calls whose encoder and gzip may fail.
* `Waiting` — the stacks that a builder is to hold after some calls.
* `Usable` — index maps and tables agree, and a message resolves to what is waiting.
* `Succeeds` — the encoder accepts the message, and gzip its bytes.

## Main results

* `not_tables_of_failed` — a failed call leaves the maps and the tables in disagreement.
* `usable_iff_succeeds` — **the builder stays usable exactly if no call fails.**
-/

namespace PhpFastProfile
namespace PprofBuilder

variable {ε : Type}

/-- A call on the builder; the encoder and gzip of a `take_gzipped` may fail. -/
inductive TryOp (ε : Type)
  | add (frames : List Frame)
  | takeGzipped (order : DrainOrder) (now : ℤ) (encode : Profile → Except ε (List UInt8))
      (gzip : List UInt8 → Except ε (List UInt8))

/-- The builder after one call, whatever the call returns. -/
def tryStep (b : PprofBuilder) : TryOp ε → PprofBuilder
  | .add frames => b.add frames
  | .takeGzipped order now encode gzip => (b.takeGzipped order now encode gzip).2

/-- The builder after a sequence of calls, of which some may have failed. -/
def tryRun (start : ℤ) (ops : List (TryOp ε)) : PprofBuilder := ops.foldl tryStep (new start)

/-- The encoder accepts the message of the window, and gzip the bytes of the encoder. -/
def Succeeds (b : PprofBuilder) : TryOp ε → Prop
  | .add _ => True
  | .takeGzipped order now encode gzip =>
    ∃ buf out, encode (b.buildProfile order now).1 = .ok buf ∧ gzip buf = .ok out

/-- The stacks that wait after the calls.  A `take_gzipped` takes the window; if it
fails, the window may be lost or kept. -/
inductive Waiting (start : ℤ) : List (TryOp ε) → List (List Frame) → Prop
  | new : Waiting start [] []
  | add {ops w} (frames : List Frame) (h : Waiting start ops w) :
      Waiting start (ops ++ [.add frames]) (w ++ [frames])
  | taken {ops w} (order now encode gzip) (h : Waiting start ops w) :
      Waiting start (ops ++ [.takeGzipped order now encode gzip]) []
  | kept {ops w} (order now encode gzip) (h : Waiting start ops w)
      (hfail : ¬ Succeeds (tryRun start ops) (.takeGzipped order now encode gzip)) :
      Waiting start (ops ++ [.takeGzipped order now encode gzip]) w

/-- After the calls, the index maps are the inverses of the tables and have the empty
string at `0`, and a message that is taken resolves to exactly the stacks that wait. -/
def Usable (start : ℤ) (ops : List (TryOp ε)) : Prop :=
  Tables (tryRun start ops) ∧ ∃ w, Waiting start ops w ∧ ∀ order now,
    ((tryRun start ops).buildProfile order now).1.resolved.Perm
      (w.map fun frames => some (frames.map Frame.key))

theorem tryRun_concat (start : ℤ) (ops : List (TryOp ε)) (op : TryOp ε) :
    tryRun start (ops ++ [op]) = (tryRun start ops).tryStep op := by
  simp [tryRun]

/-! ### Calls that succeed -/

theorem tryStep_takeGzipped {b : PprofBuilder} {order : DrainOrder} {now : ℤ}
    {encode : Profile → Except ε (List UInt8)} {gzip : List UInt8 → Except ε (List UInt8)}
    (h : b.Succeeds (.takeGzipped order now encode gzip)) :
    b.tryStep (.takeGzipped order now encode gzip) = new now := by
  obtain ⟨buf, out, hencode, hgzip⟩ := h
  have hok : (b.takeGzipped order now encode gzip).1 = .ok (out, b.windowStartNanos, now) := by
    simp only [takeGzipped, hencode, hgzip]
  exact takeGzipped_ok_snd hok

/-- What the builder holds after calls that succeed. -/
def Sound (start : ℤ) (ops : List (TryOp ε)) : Prop :=
  Tables (tryRun start ops) ∧ ∃ w, Waiting start ops w ∧
    Accounted (tryRun start ops) (w.map fun frames => frames.map Frame.key)

theorem sound_concat {start : ℤ} {ops : List (TryOp ε)} (h : Sound start ops) {op : TryOp ε}
    (hop : (tryRun start ops).Succeeds op) : Sound start (ops ++ [op]) := by
  obtain ⟨htables, w, hw, hacc⟩ := h
  rw [Sound, tryRun_concat]
  cases op with
  | add frames =>
    refine ⟨tables_add htables frames, w ++ [frames], .add frames hw, ?_⟩
    rw [List.map_append]
    exact accounted_add htables hacc frames
  | takeGzipped order now encode gzip =>
    rw [tryStep_takeGzipped hop]
    exact ⟨tables_new now, [], .taken order now encode gzip hw, accounted_new now⟩

/-- **As long as no call fails, the builder is sound.** -/
theorem sound_of_succeeds {start : ℤ} {ops : List (TryOp ε)}
    (h : ∀ done op, done ++ [op] <+: ops → (tryRun start done).Succeeds op) :
    ∀ done, done <+: ops → Sound start done := by
  intro done
  induction done using List.reverseRecOn with
  | nil => exact fun _ => ⟨tables_new start, [], .new, accounted_new start⟩
  | append_singleton done op ih =>
    intro hdone
    exact sound_concat (ih ((List.prefix_append done [op]).trans hdone)) (h done op hdone)

theorem Sound.usable {start : ℤ} {ops : List (TryOp ε)} (h : Sound start ops) :
    Usable start ops := by
  obtain ⟨htables, w, hw, hacc⟩ := h
  refine ⟨htables, w, hw, fun order now => ?_⟩
  have hperm := (buildProfile_resolves htables hacc order now).1
  rwa [List.map_map] at hperm

/-! ### Calls that fail -/

/-- **A failed call leaves empty tables behind**, which no index map agrees with. -/
theorem not_tables_of_failed {b : PprofBuilder} {op : TryOp ε} (h : ¬ b.Succeeds op) :
    ¬ Tables (b.tryStep op) := by
  intro htables
  cases op with
  | add frames => exact h trivial
  | takeGzipped order now encode gzip =>
    have hempty : (b.tryStep (.takeGzipped order now encode gzip)).strings = [] := by
      cases hencode : encode (b.buildProfile order now).1 with
      | error e =>
        simp only [tryStep, takeGzipped, hencode]
        rfl
      | ok buf =>
        cases hgzip : gzip buf with
        | error e =>
          simp only [tryStep, takeGzipped, hencode, hgzip]
          rfl
        | ok out => exact absurd ⟨buf, out, hencode, hgzip⟩ h
    -- the empty string would be the first of them
    obtain ⟨n, -, hn⟩ := (htables.strings.lookup_eq "" 0).mp htables.empty
    rw [hempty] at hn
    simp at hn

/-- **The builder stays usable exactly if no call fails.** -/
theorem usable_iff_succeeds (start : ℤ) (ops : List (TryOp ε)) :
    (∀ done, done <+: ops → Usable start done) ↔
      ∀ done op, done ++ [op] <+: ops → (tryRun start done).Succeeds op := by
  constructor
  · intro h done op hop
    by_contra hfail
    have htables := (h _ hop).1
    rw [tryRun_concat] at htables
    exact not_tables_of_failed hfail htables
  · intro h done hdone
    exact (sound_of_succeeds h done hdone).usable

/-- A call whose encoder fails. -/
def failedTake : TryOp Unit :=
  .takeGzipped ⟨id, fun _ => .rfl⟩ 1 (fun _ => .error ()) .ok

/-- After a failed call the builder is not usable: a stack that is added then, of a
function `b` without a file, resolves to a function `b` in a file `b`. -/
theorem not_usable_failedTake :
    ¬ Usable 0 [.add [⟨"a", none, none, 1⟩], failedTake] ∧
      ((tryRun 0 [.add [⟨"a", none, none, 1⟩], failedTake,
        .add [⟨"b", none, none, 2⟩]]).buildProfile ⟨id, fun _ => .rfl⟩ 2).1.resolved =
          [some [("b", "b", 2)]] := by
  constructor
  · intro h
    have hfail : ∀ b : PprofBuilder, ¬ b.Succeeds failedTake := by
      rintro b ⟨buf, out, hencode, -⟩
      cases hencode
    exact not_tables_of_failed (hfail _) h.1
  · decide

end PprofBuilder
end PhpFastProfile
