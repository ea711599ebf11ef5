import PhpFastProfile.Sampler.Session
import Mathlib.Algebra.BigOperators.Finprod

/-!
# The profile does not depend on the schedule

Two runs of `run_multi` that have returned, with no panic and no late send, and in which the
workers capture the same write the same profile, although their threads may have been
scheduled differently, their clocks may show different times, and the processes may have been
found in a different order.

## Main results

* `flatMap_range_perm` — lists that are numbered differently have the same members.
* `runMulti_scheduling` — **the profile is that of the captures, whatever the schedule.**
-/

namespace PhpFastProfile

/-! ### Lists by number -/

/-- The members of the lists `f 0`, `f 1`, … do not depend on their numbering. -/
theorem flatMap_range_perm {α : Type*} {f g : ℕ → List α} (σ : Equiv.Perm ℕ)
    (hfg : ∀ w, f w = g (σ w)) {m n : ℕ} (hf : ∀ w, m ≤ w → f w = []) (hg : ∀ w, n ≤ w → g w = []) :
    ((List.range m).flatMap f).Perm ((List.range n).flatMap g) := by
  classical
  have hsum : ∀ (a : α) (h : ℕ → List α) (k : ℕ), (∀ w, k ≤ w → h w = []) →
      ((List.range k).flatMap h).count a = ∑ᶠ w, (h w).count a := by
    intro a h k hk
    rw [List.count_flatMap, finsum_eq_sum_of_support_subset (s := Finset.range k)]
    · rfl
    · intro w hw
      by_contra hge
      rw [Finset.coe_range, Set.mem_Iio, not_lt] at hge
      exact hw (by simp [hk w hge])
  rw [List.perm_iff_count]
  intro a
  rw [hsum a f m hf, hsum a g n hg]
  calc ∑ᶠ w, (f w).count a = ∑ᶠ w, (g (σ w)).count a := finsum_congr fun w => by rw [hfg w]
    _ = ∑ᶠ w, (g w).count a := finsum_comp_equiv (f := fun w => (g w).count a) σ

/-! ### Two runs -/

/-- A worker that was never started has captured nothing. -/
theorem CompleteRun.samples_eq_nil {cfg : Config} {clock : ℕ} {alive : ℤ → Bool}
    {as : List Action} {s : State} (h : CompleteRun cfg clock alive as s) {w : ℕ}
    (hw : s.workers.length ≤ w) : cfg.samples (as.filterMap (Action.outcomeOf w)) = [] := by
  rw [← runMulti_samplesOf h.run (h.noPanic w), List.getElem?_eq_none hw]
  rfl

/-- **The profile does not depend on the schedule.**  Two runs with the same `--drop-leaf` that
have returned, in neither of which a worker panicked or sent after the drain had ended, and whose
workers capture the same, up to a renumbering of the workers, write the same stacks of each
worker; the folded output is the same text, and the two pprof messages have the same samples. -/
theorem runMulti_scheduling {cfg cfg' : Config} {clock clock' : ℕ} {alive alive' : ℤ → Bool}
    {as as' : List Action} {s s' : State} (h : CompleteRun cfg clock alive as s)
    (h' : CompleteRun cfg' clock' alive' as' s') (hdrop : cfg.dropLeaf = cfg'.dropLeaf)
    (σ : Equiv.Perm ℕ) (hsame : ∀ w,
      as.filterMap (Action.outcomeOf w) = as'.filterMap (Action.outcomeOf (σ w))) :
    (∀ w, (s.writtenFrom w).map SampleMsg.frames =
      (s'.writtenFrom (σ w)).map SampleMsg.frames) ∧
    (∀ order order', ((FoldedSink.new.writeAll s.handed).finish order).w =
      ((FoldedSink.new.writeAll s'.handed).finish order').w) ∧
    ∀ start start' order order' now now',
      (((PprofSink.new start).writeAll s.handed).profile order now).resolved.Perm
        (((PprofSink.new start').writeAll s'.handed).profile order' now').resolved := by
  have hsamples : ∀ w, cfg.samples (as.filterMap (Action.outcomeOf w)) =
      cfg'.samples (as'.filterMap (Action.outcomeOf (σ w))) := by
    intro w
    rw [hsame w]
    unfold Config.samples Config.keeps
    rw [hdrop]
  have hperm : (s.handed.map Prod.fst).Perm (s'.handed.map Prod.fst) :=
    (h.handed_perm.trans (flatMap_range_perm σ hsamples (fun w hw => h.samples_eq_nil hw)
      fun w hw => h'.samples_eq_nil hw)).trans h'.handed_perm.symm
  have hne : ∀ st ∈ s'.handed.map Prod.fst, st ≠ [] := by
    intro st hst
    obtain ⟨w, -, hmem⟩ := List.mem_flatMap.mp (h'.handed_perm.mem_iff.mp hst)
    exact Config.ne_nil_of_mem_samples st hmem
  have hshows := showsStacks_of_perm hperm hne
  have hshows' := showsStacks_of_perm (List.Perm.refl (s'.handed.map Prod.fst)) hne
  refine ⟨fun w => ?_, fun order order' => ?_, fun start start' order order' now now' => ?_⟩
  · rw [h.writtenFrom_eq w, h'.writtenFrom_eq (σ w), hsamples w]
  · have hentries := hshows.folded.sortedEntries_eq byteOrder hshows'.folded (List.Perm.refl _)
      order order'
    rw [FoldedSink.finish, FoldedSink.finish, FoldedSink.writeAll_w, FoldedSink.writeAll_w,
      FoldedSink.entries, FoldedSink.entries, hentries]
  · exact (hshows.pprof start order now).trans (hshows'.pprof start' order' now').symm

namespace Scenario

/-- One sample of the worker `w`. -/
def sampled (w : ℕ) (frames : List Frame) : List Action :=
  [.start, .check, .pace, .pace, .capture (some frames), .describe none none, .send].map
    (Action.worker w)

/-- Two processes are found in this order, and their workers send one stack each.  The messages
are written at the end, in the order of the workers `ws`. -/
def twoSampled (pids : List ℤ) (x y : List Frame) (ws : List ℕ) : List Action :=
  [.main .go, .main .go, .main (.discover (some pids)), .main (.spawn true), .main (.spawn true),
    .main .go] ++ sampled 0 x ++ sampled 1 y ++ [.interrupt, .main .go] ++
  pids.map (fun pid => .main (.signal pid)) ++ [.main .go, .main .go] ++
  ws.map (fun w => .main (.recv w true)) ++
  [.worker 0 .check, .worker 0 .finish, .worker 1 .check, .worker 1 .finish, .main .disconnected,
    .main (.join 0), .main (.join 1), .main .go, .main (.finish true), .main .go]

/-- The processes 100 and 200 run. -/
def twoProcesses : ℤ → Bool := fun pid => pid == 100 || pid == 200

end Scenario

open Scenario

/-- The processes are found in either order. -/
theorem runMulti_scheduling_twoSampled :
    ∃ s s', runMulti everySecond (State.init 0 twoProcesses)
        (twoSampled [100, 200] job methodStack [0, 1]) = some s ∧
      runMulti everySecond (State.init 5 twoProcesses)
        (twoSampled [200, 100] methodStack job [0, 1]) = some s' ∧
      ((FoldedSink.new.writeAll s.handed).finish ⟨id, fun _ => .rfl⟩).w =
        ((FoldedSink.new.writeAll s'.handed).finish ⟨List.reverse, List.reverse_perm⟩).w := by
  have h : (runMulti everySecond (State.init 0 twoProcesses)
      (twoSampled [100, 200] job methodStack [0, 1])).map (fun s => (s.main, s.quiet)) =
      some (.returned true, true) := by
    decide +kernel
  have h' : (runMulti everySecond (State.init 5 twoProcesses)
      (twoSampled [200, 100] methodStack job [0, 1])).map (fun s => (s.main, s.quiet)) =
      some (.returned true, true) := by
    decide +kernel
  obtain ⟨s, hs, heq⟩ := Option.map_eq_some_iff.mp h
  obtain ⟨s', hs', heq'⟩ := Option.map_eq_some_iff.mp h'
  obtain ⟨hret, hquiet⟩ : _ ∧ _ := by simpa only [Prod.mk.injEq] using heq
  obtain ⟨hret', hquiet'⟩ : _ ∧ _ := by simpa only [Prod.mk.injEq] using heq'
  have hrun := completeRun_of_quiet hs hret hquiet (by simp [twoSampled, sampled])
  have hrun' := completeRun_of_quiet hs' hret' hquiet' (by simp [twoSampled, sampled])
  refine ⟨s, s', hs, hs', (runMulti_scheduling hrun hrun' rfl (Equiv.swap 0 1) ?_).2.1 _ _⟩
  intro w
  match w with
  | 0 => rw [Equiv.swap_apply_left]; rfl
  | 1 => rw [Equiv.swap_apply_right]; rfl
  | w + 2 =>
    have hnone (pids : List ℤ) (x y : List Frame) :
        (twoSampled pids x y [0, 1]).filterMap (Action.outcomeOf (w + 2)) = [] := by
      refine List.filterMap_eq_nil_iff.mpr fun a ha => Action.outcomeOf_of_other fun b hb => ?_
      subst hb
      simp [twoSampled, sampled] at ha
    rw [Equiv.swap_apply_of_ne_of_ne (by omega) (by omega), hnone, hnone]

end PhpFastProfile
