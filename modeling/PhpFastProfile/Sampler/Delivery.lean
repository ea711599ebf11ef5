import PhpFastProfile.Lib.Channel
import PhpFastProfile.Sampler.RunMulti

/-!
# What is captured and what is written

The messages of a run form a channel with one sender for each worker.  Every step
of the system is a step of this channel, so nothing is lost, repeated or
reordered on the way.  What can still go wrong is that the main thread stops
reading: the drain of the teardown ends on a gap of 100 ms, while a worker that
has passed its stop check is asleep or captures, and what that worker sends
afterwards is accepted by the channel and never written.

## Main definitions

* `State.chan` — the channel of a state.
* `MainPc.pastDrain` — the teardown has given up reading.
* `LateSend` — in the run, a worker sends between the end of the drain and the return.

## Main results

* `State.step_effect` — what a step does to the channel and when the drain ends.
* `runMulti_conserves` — in every run, written and then waiting is what was sent.
* `runMulti_delivers_iff` — **everything sent is written exactly when no send is late.**
* `runMulti_delivers_of_disconnected` — so it is when the drain ends on a hang-up.
* `runMulti_loses` — a run that loses a message.
-/

namespace PhpFastProfile

/-- The teardown has given up reading the channel. -/
def MainPc.pastDrain : MainPc → Bool
  | .joining _ => true
  | .finishing => true
  | .leaving _ => true
  | .returned _ => true
  | _ => false

/-- `sink.finish()` has been called. -/
def MainPc.pastFinish : MainPc → Bool
  | .leaving _ => true
  | .returned _ => true
  | _ => false

/-- The main thread has left the event loop. -/
def MainPc.tearingDown : MainPc → Bool
  | .signalling _ => true
  | .dropping => true
  | .draining _ => true
  | pc => pc.pastDrain

theorem MainPc.pastDrain_of_pastFinish {pc : MainPc} (h : pc.pastFinish = true) :
    pc.pastDrain = true := by
  cases pc <;> simp_all [pastFinish, pastDrain]

namespace State

/-! ### The channel of a state -/

/-- What the worker `w` has sent. -/
def sentBy (s : State) (w : ℕ) : List SampleMsg := (s.workers[w]?).elim [] Worker.sent

/-- What of it is waiting. -/
def waiting (s : State) (w : ℕ) : List SampleMsg := (s.workers[w]?).elim [] Worker.queue

/-- What of it was passed to `sink.write_sample`, in order. -/
def writtenFrom (s : State) (w : ℕ) : List SampleMsg :=
  (s.written.filter fun x => x.worker = w).map Write.msg

/-- The channel of a state: a write stands for the receipt of its message. -/
def chan (s : State) : Channel SampleMsg where
  sent := s.sentBy
  queue := s.waiting
  got := s.written.map fun x => (x.worker, x.msg)

theorem chan_gotFrom (s : State) (w : ℕ) : s.chan.gotFrom w = s.writtenFrom w := by
  unfold Channel.gotFrom writtenFrom chan
  rw [List.filter_map, List.map_map]
  rfl

/-- Reading a field of the threads after one of them was replaced. -/
theorem elim_set {α β : Type} {l : List α} {w : ℕ} {x : α} (hx : l[w]? = some x)
    (x' : α) (d : β) (f : α → β) :
    (fun v => ((l.set w x')[v]?).elim d f)
      = Function.update (fun v => (l[v]?).elim d f) w (f x') := by
  obtain ⟨hw, -⟩ := List.getElem?_eq_some_iff.mp hx
  funext v
  rw [List.getElem?_set]
  by_cases hv : w = v
  · subst hv
    simp [hw]
  · rw [if_neg hv, Function.update_of_ne (Ne.symm hv)]

/-- The channel after a worker was replaced. -/
theorem chan_set {s s' : State} {w : ℕ} {x x' : Worker} (hx : s.workers[w]? = some x)
    (hw : s'.workers = s.workers.set w x') :
    s'.chan = { s.chan with
      sent := Function.update s.chan.sent w x'.sent
      queue := Function.update s.chan.queue w x'.queue
      got := s'.chan.got } := by
  have hsent : s'.sentBy = Function.update s.sentBy w x'.sent := by
    have := elim_set hx x' [] Worker.sent
    rwa [← hw] at this
  have hqueue : s'.waiting = Function.update s.waiting w x'.queue := by
    have := elim_set hx x' [] Worker.queue
    rwa [← hw] at this
  unfold chan
  rw [hsent, hqueue]

theorem chan_sent_eq {s : State} {w : ℕ} {x : Worker} (hx : s.workers[w]? = some x) :
    s.chan.sent w = x.sent := by
  show (s.workers[w]?).elim [] Worker.sent = x.sent
  rw [hx]
  rfl

theorem chan_queue_eq {s : State} {w : ℕ} {x : Worker} (hx : s.workers[w]? = some x) :
    s.chan.queue w = x.queue := by
  show (s.workers[w]?).elim [] Worker.queue = x.queue
  rw [hx]
  rfl

theorem chan_congr {s s' : State} (hw : s'.workers = s.workers)
    (hwritten : s'.written = s.written) : s'.chan = s.chan := by
  unfold chan sentBy waiting
  rw [hw, hwritten]

/-- A replacement that keeps what was sent keeps the channel. -/
theorem chan_set_same {s s' : State} {w : ℕ} {x x' : Worker} (hx : s.workers[w]? = some x)
    (hw : s'.workers = s.workers.set w x') (hwritten : s'.written = s.written)
    (hsent : x'.sent = x.sent) (hqueue : x'.queue = x.queue) : s'.chan = s.chan := by
  have hgot : s'.chan.got = s.chan.got := by
    unfold chan
    rw [hwritten]
  rw [chan_set hx hw, hgot, hsent, hqueue, ← chan_sent_eq hx, ← chan_queue_eq hx,
    Function.update_eq_self, Function.update_eq_self]

/-- A worker that has sent nothing keeps the channel. -/
theorem chan_append {s s' : State} {x : Worker} (hw : s'.workers = s.workers ++ [x])
    (hwritten : s'.written = s.written) (hsent : x.sent = []) (hqueue : x.queue = []) :
    s'.chan = s.chan := by
  have hread : ∀ (f : Worker → List SampleMsg), f x = [] →
      ∀ w : ℕ, ((s.workers ++ [x])[w]?).elim [] f = (s.workers[w]?).elim [] f := by
    intro f hf w
    -- a new worker reads like one that is not there
    rw [List.getElem?_append]
    split
    · rfl
    · next hlt =>
      rw [List.getElem?_eq_none (by omega : s.workers.length ≤ w)]
      rcases Nat.eq_zero_or_pos (w - s.workers.length) with h0 | hpos
      · rw [h0]
        exact hf
      · rw [List.getElem?_eq_none (by simpa [Nat.one_le_iff_ne_zero] using Nat.ne_of_gt hpos)]
  have hs : s'.sentBy = s.sentBy := by
    funext w
    show (s'.workers[w]?).elim [] Worker.sent = _
    rw [hw]
    exact hread _ hsent w
  have hq : s'.waiting = s.waiting := by
    funext w
    show (s'.workers[w]?).elim [] Worker.queue = _
    rw [hw]
    exact hread _ hqueue w
  unfold chan
  rw [hs, hq, hwritten]

/-- A stop flag does not touch the channel. -/
theorem chan_stopWorker (s : State) (w : ℕ) : (s.stopWorker w).chan = s.chan := by
  cases hx : s.workers[w]? with
  | none =>
    have hw : (s.stopWorker w).workers = s.workers := by
      show s.workers.modify w _ = s.workers
      rw [List.modify_eq_self]
      exact List.getElem?_eq_none_iff.mp hx
    unfold chan sentBy waiting
    rw [hw]
    rfl
  | some x =>
    have hw : (s.stopWorker w).workers = s.workers.set w { x with stop := true } := by
      show s.workers.modify w _ = _
      rw [List.modify_eq_set_getElem?, hx]
      rfl
    exact chan_set_same hx hw rfl rfl rfl

theorem quiet_iff (s : State) : s.quiet = true ↔ ∀ w, s.chan.queue w = [] := by
  unfold quiet
  rw [List.all_eq_true]
  constructor
  · intro h w
    cases hx : s.workers[w]? with
    | none =>
      show (s.workers[w]?).elim [] Worker.queue = []
      rw [hx]
      rfl
    | some x =>
      rw [chan_queue_eq hx]
      simpa using h x (List.mem_of_getElem? hx)
  · intro h x hmem
    obtain ⟨w, hx⟩ := List.getElem?_of_mem hmem
    have hw := h w
    rw [chan_queue_eq hx] at hw
    simp [hw]

/-! ### What a step does -/

/-- A worker sends while the receiver still exists. -/
def Sends (s : State) (a : Action) : Prop := s.receiver = true ∧ ∃ w, a = .worker w .send

/-- Every worker of `s'` is where it is in `s`. -/
def SamePcs (s s' : State) : Prop :=
  ∀ (w : ℕ) (x' : Worker), s'.workers[w]? = some x' → ∃ x, s.workers[w]? = some x ∧ x'.pc = x.pc

/-- The channel stays as it is, and the drain ends only when nothing waits. -/
structure Idle (s s' : State) : Prop where
  chan : s'.chan = s.chan
  stays : s.main.pastDrain = true → s'.main.pastDrain = true
  ends : s'.main.pastDrain = true → s.main.pastDrain = true ∨ s.quiet = true

/-- The teardown goes on, and moves no worker. -/
def Winds (s s' : State) : Prop :=
  s.main.tearingDown = true → s'.main.tearingDown = true ∧ SamePcs s s'

/-- A message is received, outside the tail of the teardown. -/
def Receives (s s' : State) : Prop :=
  ∃ w msg rest, s.chan.queue w = msg :: rest ∧ s'.chan = s.chan.recv w msg rest ∧
    s.main.pastDrain = false ∧ s'.main.pastDrain = false

/-- A message is sent. -/
def Accepts (s s' : State) : Prop :=
  ∃ w msg, s'.chan = s.chan.send w msg ∧ s'.main = s.main

theorem samePcs_of_eq {s s' : State} (h : s'.workers = s.workers) : SamePcs s s' := by
  intro w x' hx'
  rw [h] at hx'
  exact ⟨x', hx', rfl⟩

theorem samePcs_set {s s' : State} {w : ℕ} {x x' : Worker} (hx : s.workers[w]? = some x)
    (h : s'.workers = s.workers.set w x') (hpc : x'.pc = x.pc) : SamePcs s s' := by
  intro v y hy
  rw [h, List.getElem?_set] at hy
  split at hy
  · next hwv =>
    subst hwv
    split at hy
    · obtain rfl := Option.some.inj hy
      exact ⟨x, hx, hpc⟩
    · cases hy
  · exact ⟨y, hy, rfl⟩

theorem samePcs_stopWorker {s s' : State} {w : ℕ} (h : s'.workers = (s.stopWorker w).workers) :
    SamePcs s s' := by
  intro v x' hx'
  rw [h] at hx'
  unfold stopWorker at hx'
  rw [List.getElem?_modify] at hx'
  obtain ⟨x, hx, rfl⟩ := Option.map_eq_some_iff.mp hx'
  refine ⟨x, hx, ?_⟩
  split <;> rfl

theorem idle_of_pastDrain {s s' : State} (hc : s'.chan = s.chan)
    (h : s'.main.pastDrain = s.main.pastDrain) : Idle s s' :=
  ⟨hc, by simp [h], by simp +contextual [h]⟩

/-- The main thread goes on from `pc` without touching the workers. -/
theorem idle_of_main {s s' : State} {pc : MainPc} (hpc : s.main = pc)
    (hw : s'.workers = s.workers) (hwritten : s'.written = s.written)
    (h : s'.main.pastDrain = pc.pastDrain)
    (ht : pc.tearingDown = true → s'.main.tearingDown = true) :
    (Idle s s' ∨ Receives s s') ∧ Winds s s' :=
  ⟨Or.inl (idle_of_pastDrain (chan_congr hw hwritten) (by rw [h, hpc])),
    fun hs => ⟨ht (hpc ▸ hs), samePcs_of_eq hw⟩⟩

/-- The drain ends only when nothing waits. -/
theorem drained_idle {s : State} (h : s.quiet = true) :
    (Idle s s.drained ∨ Receives s s.drained) ∧ Winds s s.drained :=
  ⟨Or.inl ⟨chan_congr rfl rfl, fun _ => rfl, fun _ => Or.inr h⟩,
    fun _ => ⟨rfl, samePcs_of_eq rfl⟩⟩

/-- Taking the oldest message of a worker and writing it is a receipt of the channel. -/
theorem receives_of_take {s s' : State} {w : ℕ} {x : Worker} {msg : SampleMsg}
    {rest : List SampleMsg} {info : SampleMeta} {accepted : Bool}
    (hx : s.workers[w]? = some x) (hqueue : x.queue = msg :: rest)
    (hw : s'.workers = s.workers.set w { x with queue := rest })
    (hwritten : s'.written = s.written ++ [{ worker := w, msg, info, accepted }])
    (hpast : s.main.pastDrain = false) (hpast' : s'.main.pastDrain = false) : Receives s s' := by
  refine ⟨w, msg, rest, (chan_queue_eq hx).trans hqueue, ?_, hpast, hpast'⟩
  rw [chan_set hx hw]
  unfold Channel.recv
  congr 1
  · show Function.update s.chan.sent w x.sent = s.chan.sent
    rw [← chan_sent_eq hx, Function.update_eq_self]
  · unfold chan
    rw [hwritten, List.map_append]
    rfl

/-- What a move of the main thread does to the channel and to the teardown. -/
theorem move_effect {cfg : Config} {s s' : State} {a : MainAction} (h : Move cfg s a s') :
    (Idle s s' ∨ Receives s s') ∧ Winds s s' := by
  cases h with
  | recv w accepted deadline x msg rest hpc hx hqueue =>
    have hpast : s.main.pastDrain = false := by rw [hpc]; rfl
    refine ⟨Or.inr (receives_of_take hx hqueue rfl rfl hpast rfl), fun hs => ?_⟩
    rw [hpc] at hs
    cases hs
  | drain w accepted deadline x msg rest hpc hx hqueue =>
    have hpast : s.main.pastDrain = false := by rw [hpc]; rfl
    exact ⟨Or.inr (receives_of_take hx hqueue rfl rfl hpast rfl),
      fun _ => ⟨rfl, samePcs_set hx rfl rfl⟩⟩
  | drainTimeout deadline hpc hle hquiet => exact drained_idle hquiet
  | drainHangUp deadline hpc hup hquiet => exact drained_idle hquiet
  | spawn first pid todo attached hpc hnew hproc =>
    -- the new worker has sent nothing, and none is started in the teardown
    have hidle : Idle s { s with
        workers := s.workers ++ [Worker.spawned pid attached]
        table := s.table.insert pid s.workers.length
        main := .spawning first todo } :=
      idle_of_pastDrain (chan_append rfl rfl rfl rfl) (by rw [hpc]; rfl)
    refine ⟨Or.inl hidle, fun hs => ?_⟩
    rw [hpc] at hs
    cases hs
  | signal pid todo w hpc hmem hw =>
    have hc : chan { s.stopWorker w with main := .signalling (todo.erase pid) } = s.chan :=
      (chan_congr rfl rfl).trans (chan_stopWorker s w)
    exact ⟨Or.inl (idle_of_pastDrain hc (by rw [hpc]; rfl)),
      fun _ => ⟨rfl, samePcs_stopWorker rfl⟩⟩
  -- the other moves leave the workers alone: those of the teardown first
  | join _ _ hpc => exact idle_of_main hpc rfl rfl rfl fun _ => rfl
  | finish _ hpc => exact idle_of_main hpc rfl rfl rfl fun _ => rfl
  | leave _ hpc => exact idle_of_main hpc rfl rfl rfl fun _ => rfl
  | signalled hpc | drop hpc | joined hpc => exact idle_of_main hpc rfl rfl rfl fun _ => rfl
  | spawned _ hpc => exact idle_of_main hpc rfl rfl rfl nofun
  | discover _ hpc => exact idle_of_main hpc rfl rfl rfl nofun
  | rediscover _ hpc => exact idle_of_main hpc rfl rfl rfl nofun
  | keep _ _ _ hpc => exact idle_of_main hpc rfl rfl rfl nofun
  | spawnFails _ _ _ hpc => exact idle_of_main hpc rfl rfl rfl nofun
  | timeout _ hpc => exact idle_of_main hpc rfl rfl rfl nofun
  | hangUp _ hpc => exact idle_of_main hpc rfl rfl rfl nofun
  | reap _ _ hpc => exact idle_of_main hpc rfl rfl rfl nofun
  | start hpc | time hpc | stopped hpc | goesOn hpc | expired hpc | waits hpc | due hpc
  | notDue hpc | arm hpc | reaped hpc | discoverFails hpc | rediscoverFails hpc =>
    exact idle_of_main hpc rfl rfl rfl nofun

/-- A step of a worker sends a message or leaves the channel alone. -/
theorem workerStep_effect {cfg : Config} {s s' : State} {w : ℕ} {a : WorkerAction}
    (h : s.workerStep cfg w a = some s') :
    (Idle s s' ∧ ¬ s.Sends (.worker w a)) ∨ (Accepts s s' ∧ s.Sends (.worker w a)) := by
  obtain ⟨x, x', hx, hstep, rfl⟩ := State.workerStep_eq_some h
  rcases Worker.step_cases hstep with ⟨hsent, hqueue, hno⟩ | ⟨msg, rfl, hrx, -, hsent, hqueue⟩
  · -- nothing is sent, so no send has been accepted
    refine Or.inl ⟨idle_of_pastDrain (chan_set_same hx rfl rfl hsent hqueue) rfl, ?_⟩
    rintro ⟨hrx, v, hv⟩
    obtain ⟨-, rfl⟩ := Action.worker.inj hv
    exact hno ⟨rfl, hrx⟩
  · refine Or.inr ⟨⟨w, msg, ?_, rfl⟩, hrx, w, rfl⟩
    rw [chan_set hx rfl, hsent, hqueue, ← chan_sent_eq hx, ← chan_queue_eq hx]
    rfl

/-- **What a step does to the channel**: it sends a message, it receives one before
the drain has ended, or it leaves the channel alone. -/
theorem step_effect {cfg : Config} {s s' : State} {a : Action} (h : s.step cfg a = some s') :
    (Idle s s' ∧ ¬ s.Sends a) ∨ (Accepts s s' ∧ s.Sends a) ∨ (Receives s s' ∧ ¬ s.Sends a) := by
  rcases step_cases h with ⟨w, b, rfl, h⟩ | ⟨b, rfl, h⟩ | ⟨hother, hw, hwritten, hmain⟩
  · rcases workerStep_effect h with hi | ha
    · exact Or.inl hi
    · exact Or.inr (Or.inl ha)
  · have hno : ¬ s.Sends (.main b) := by
      rintro ⟨-, w, hw⟩
      cases hw
    rcases (move_effect (mainStep_move h)).1 with hi | hr
    · exact Or.inl ⟨hi, hno⟩
    · exact Or.inr (Or.inr ⟨hr, hno⟩)
  · refine Or.inl ⟨idle_of_pastDrain (chan_congr hw hwritten) (by rw [hmain]), ?_⟩
    rintro ⟨-, w, ha⟩
    exact hother w .send ha

/-- Every step of the system is a step of the channel. -/
theorem step_chan {cfg : Config} {s s' : State} {a : Action} (h : s.step cfg a = some s') :
    Channel.Step s.chan s'.chan := by
  rcases step_effect h with
    ⟨⟨hc, -, -⟩, -⟩ | ⟨⟨w, msg, hc, -⟩, -⟩ | ⟨⟨w, msg, rest, hq, hc, -, -⟩, -⟩
  · rw [hc]
    exact .idle
  · rw [hc]
    exact .send w msg
  · rw [hc]
    exact .recv w msg rest hq

end State

/-! ### Runs -/

section Runs

variable {cfg : Config} {clock : ℕ} {alive : ℤ → Bool} {as : List Action} {s : State}

theorem conserved_init (clock : ℕ) (alive : ℤ → Bool) : (State.init clock alive).chan.Conserved :=
  fun _ => rfl

/-- **No run loses, repeats or reorders a message**: of every worker, what was written
and then what waits is what it has sent. -/
theorem runMulti_conserves (h : runMulti cfg (State.init clock alive) as = some s) :
    s.chan.Conserved :=
  Run.invariant (fun _ _ _ hc hstep => (State.step_chan hstep).conserved hc)
    (conserved_init clock alive) h

/-- Somewhere in the run a worker sends after the drain of the teardown has ended
and before the receiver is dropped. -/
def LateSend (cfg : Config) (s : State) (as : List Action) : Prop :=
  Run.Occurs (State.step cfg) s as fun m a => m.main.pastDrain = true ∧ m.Sends a

/-- What a run knows once the drain may have ended: nothing waits exactly when no
send was late. -/
def DrainKnows (cfg : Config) (s₀ : State) (as : List Action) (s : State) : Prop :=
  if s.main.pastDrain then (∀ w, s.chan.queue w = []) ↔ ¬ LateSend cfg s₀ as
  else ¬ LateSend cfg s₀ as

theorem drainKnows_step {s₀ m : State} {a : Action} (hm : runMulti cfg s₀ as = some m)
    (hk : DrainKnows cfg s₀ as m) (hstep : m.step cfg a = some s) :
    DrainKnows cfg s₀ (as ++ [a]) s := by
  have hlate : LateSend cfg s₀ (as ++ [a])
      ↔ LateSend cfg s₀ as ∨ (m.main.pastDrain = true ∧ m.Sends a) := Run.occurs_concat hm
  unfold DrainKnows at hk ⊢
  rw [hlate]
  rcases State.step_effect hstep with
    ⟨⟨hc, hstays, hends⟩, hno⟩ | ⟨⟨w, msg, hc, hmain⟩, hsends⟩ |
    ⟨⟨w, msg, rest, -, -, hp, hp'⟩, hno⟩
  · -- the channel is left alone
    by_cases hp : m.main.pastDrain = true
    · rw [if_pos hp] at hk
      rw [if_pos (hstays hp), hc, hk]
      simp [hno]
    · rw [if_neg hp] at hk
      by_cases hp' : s.main.pastDrain = true
      · -- the drain ends with this step, on an empty channel
        have hq := (State.quiet_iff m).mp ((hends hp').resolve_left hp)
        rw [if_pos hp', hc]
        simp [hq, hk, hno]
      · rw [if_neg hp']
        simp [hk, hno]
  · rw [hmain]
    by_cases hp : m.main.pastDrain = true
    · -- a late send: its message waits for ever
      rw [if_pos hp]
      have hne : ¬ ∀ v, s.chan.queue v = [] := by
        intro hall
        have hw := hall w
        rw [hc] at hw
        simp [Channel.send] at hw
      simp [hne, hp, hsends]
    · rw [if_neg hp] at hk ⊢
      simp [hk, hp]
  · rw [if_neg (by simp [hp])] at hk
    rw [if_neg (by simp [hp'])]
    simp [hk, hno]

theorem runMulti_drainKnows (h : runMulti cfg (State.init clock alive) as = some s) :
    DrainKnows cfg (State.init clock alive) as s := by
  refine Run.exec_trace (P := DrainKnows cfg (State.init clock alive)) ?_ ?_ h
  · exact Run.not_occurs_nil _ _
  · intro as m a s' hm hk hstep
    exact drainKnows_step hm hk hstep

/-- **Delivery.**  In every run, what was written of a worker is a prefix of what it
has sent; and when the sink has been finished, it is all of it, for every worker,
exactly when no worker has sent after the end of the drain. -/
theorem runMulti_delivers_iff (h : runMulti cfg (State.init clock alive) as = some s) :
    (∀ w, s.writtenFrom w <+: s.sentBy w) ∧
    (s.main.pastFinish = true →
      ((∀ w, s.writtenFrom w = s.sentBy w) ↔ ¬ LateSend cfg (State.init clock alive) as)) := by
  have hcons := runMulti_conserves h
  constructor
  · intro w
    rw [← State.chan_gotFrom]
    exact hcons.prefix w
  · intro hfin
    have hknows := runMulti_drainKnows h
    unfold DrainKnows at hknows
    rw [if_pos (MainPc.pastDrain_of_pastFinish hfin)] at hknows
    rw [← hknows, ← hcons.delivered_iff]
    simp only [← State.chan_gotFrom]
    rfl

/-! ### When the last thread is gone -/

/-- The teardown has begun and every thread has finished. -/
def State.Silent (s : State) : Prop :=
  s.main.tearingDown = true ∧ ∀ (w : ℕ) (x : Worker), s.workers[w]? = some x → x.pc = .done

/-- A finished thread does nothing any more, and none is started. -/
theorem State.silent_step {m : State} {a : Action} (hm : m.Silent) (h : m.step cfg a = some s) :
    s.Silent ∧ ¬ m.Sends a := by
  obtain ⟨htear, hdone⟩ := hm
  rcases step_cases h with ⟨w, b, rfl, h⟩ | ⟨b, rfl, h⟩ | ⟨hother, hw, -, hmain⟩
  · obtain ⟨x, x', hx, hstep, -⟩ := State.workerStep_eq_some h
    rw [Worker.step_done (hdone w x hx)] at hstep
    cases hstep
  · obtain ⟨htear', hpcs⟩ := (move_effect (mainStep_move h)).2 htear
    refine ⟨⟨htear', fun w x' hx' => ?_⟩, by rintro ⟨-, w, hw⟩; cases hw⟩
    obtain ⟨x, hx, hpc⟩ := hpcs w x' hx'
    rw [hpc, hdone w x hx]
  · refine ⟨⟨by rw [hmain]; exact htear, fun w x hx => hdone w x (hw ▸ hx)⟩, ?_⟩
    rintro ⟨-, w, ha⟩
    exact hother w .send ha

/-- When `Disconnected` is reported, every thread has finished. -/
theorem State.silent_disconnected {m : State}
    (h : m.step cfg (.main .disconnected) = some s) :
    m.main.pastDrain = false ∧ s.Silent := by
  have hdone : m.hungUp = true → ∀ (w : ℕ) (x : Worker), m.workers[w]? = some x → x.pc = .done := by
    intro hup w x hx
    unfold hungUp at hup
    rw [Bool.and_eq_true, List.all_eq_true] at hup
    exact of_decide_eq_true (hup.2 x (List.mem_of_getElem? hx))
  have hmove : Move cfg m .disconnected s := mainStep_move h
  cases hmove with
  | hangUp deadline hpc hup hquiet => exact ⟨by rw [hpc]; rfl, rfl, hdone hup⟩
  | drainHangUp deadline hpc hup hquiet => exact ⟨by rw [hpc]; rfl, rfl, hdone hup⟩

/-- **A drain that ends because every sender is gone loses nothing.** -/
theorem runMulti_delivers_of_disconnected {bs : List Action}
    (h : runMulti cfg (State.init clock alive) (as ++ .main .disconnected :: bs) = some s)
    (hfin : s.main.pastFinish = true) (w : ℕ) : s.writtenFrom w = s.sentBy w := by
  have hknows := runMulti_drainKnows h
  unfold DrainKnows at hknows
  rw [if_pos (MainPc.pastDrain_of_pastFinish hfin)] at hknows
  rw [← State.chan_gotFrom]
  refine (runMulti_conserves h).delivered_iff.mpr (hknows.mpr ?_) w
  obtain ⟨m, hm, hrest⟩ := Option.bind_eq_some_iff.mp ((Run.exec_append _ _ _).symm.trans h)
  obtain ⟨n, hn, hbs⟩ := Option.bind_eq_some_iff.mp hrest
  obtain ⟨hpast, hsilent⟩ := State.silent_disconnected hn
  -- before the hang-up the drain has not ended, and after it nobody sends
  have hbefore : ¬ LateSend cfg (State.init clock alive) as := by
    have hk := runMulti_drainKnows hm
    unfold DrainKnows at hk
    rwa [if_neg (by simp [hpast])] at hk
  have hafter : ¬ LateSend cfg n bs := by
    refine Run.not_occurs (P := State.Silent) ?_ hsilent hbs
    intro m a s' hP hstep
    obtain ⟨hP', hno⟩ := State.silent_step hP hstep
    exact ⟨hP', fun hE => hno hE.2⟩
  have hcat : as ++ .main .disconnected :: bs = (as ++ [.main .disconnected]) ++ bs := by simp
  have hn' : Run.exec (State.step cfg) (State.init clock alive) (as ++ [.main .disconnected]) =
      some n :=
    Run.exec_concat.mpr ⟨m, hm, hn⟩
  unfold LateSend at hbefore hafter ⊢
  rw [hcat, Run.occurs_append hn' hbs, Run.occurs_concat hm]
  rintro ((hl | hl) | hl)
  · exact hbefore hl
  · rw [hpast] at hl
    cases hl.1
  · exact hafter hl

/-! ### A lost sample -/

namespace Scenario

/-- One sample a second, for as long as nobody interrupts. -/
def everySecond : Config where
  interval := fromSecs 1
  duration := none
  rediscoverSecs := 5
  requestInfo := false
  dropLeaf := []

/-- The stack of a worker of a queue. -/
def job : List Frame := [⟨"work", none, some "/srv/job.php", 7⟩]

/-- One iteration of a worker, from the stop check to the send. -/
def oneSample : List Action :=
  [.worker 0 .check, .worker 0 .pace, .worker 0 .pace, .worker 0 (.capture (some job)),
    .worker 0 (.describe none none), .worker 0 .send]

/-- The profiler finds one process, starts its worker and comes to wait for messages. -/
def startUp : List Action :=
  [.main .go, .main .go, .main (.discover (some [100])), .main (.spawn true), .main .go,
    .main .go, .main .go, .worker 0 .start] ++ oneSample

/-- The first message is written, and the timer of the rediscovery is found to be up. -/
def firstWrite : List Action :=
  [.main (.recv 0 true), .main .go, .main .go, .main (.reap 100), .main .go,
    .main (.discover (some [100])), .main (.spawn true), .main .go]

/-- The interrupt is seen, the worker is signalled and the sender dropped. -/
def shutDown : List Action :=
  [.interrupt, .main .go, .main (.signal 100), .main .go, .main .go]

/-- The joins, the end of the sink and the return. -/
def leave : List Action := [.main (.join 0), .main .go, .main (.finish true), .main .go]

/-- The worker sees its stop flag before it sleeps: it is gone before the drain ends. -/
def cleanRun : List Action :=
  startUp ++ firstWrite ++ shutDown ++
    [.worker 0 .check, .worker 0 .finish, .main .disconnected] ++ leave

/-- The worker has passed its stop check and sleeps until the second is over, ten
times as long as the drain waits. -/
def lateRun : List Action :=
  startUp ++ [.worker 0 .check, .worker 0 .pace] ++ firstWrite ++ shutDown ++
    [.tick (fromMillis 100), .main .timeout, .tick (fromMillis 900),
      .worker 0 .pace, .worker 0 .pace, .worker 0 (.capture (some job)),
      .worker 0 (.describe none none), .worker 0 .send,
      .worker 0 .check, .worker 0 .finish] ++ leave

/-- The process 100 runs when the profiler starts. -/
def oneProcess : State := State.init 0 fun pid => pid == 100

end Scenario

open Scenario

theorem runMulti_delivers_iff_cleanRun :
    ∃ s, runMulti everySecond oneProcess cleanRun = some s ∧ s.main = .returned true ∧
      ((∀ w, s.writtenFrom w = s.sentBy w) ↔ ¬ LateSend everySecond oneProcess cleanRun) := by
  have h : (runMulti everySecond oneProcess cleanRun).map State.main = some (.returned true) := by
    decide +kernel
  obtain ⟨s, hs, hmain⟩ := Option.map_eq_some_iff.mp h
  have hfin : s.main.pastFinish = true := by
    rw [hmain]
    rfl
  exact ⟨s, hs, hmain, (runMulti_delivers_iff hs).2 hfin⟩

/-- A run in which a message is sent that is never written. -/
theorem runMulti_loses :
    ∃ s, runMulti everySecond oneProcess lateRun = some s ∧ s.main = .returned true ∧
      s.sentBy 0 = [⟨100, job, ⟨none, none⟩⟩, ⟨100, job, ⟨none, none⟩⟩] ∧
      s.writtenFrom 0 = [⟨100, job, ⟨none, none⟩⟩] := by
  have h : (runMulti everySecond oneProcess lateRun).map (fun s =>
      (s.main, s.sentBy 0, s.writtenFrom 0)) = some (.returned true,
        [⟨100, job, ⟨none, none⟩⟩, ⟨100, job, ⟨none, none⟩⟩], [⟨100, job, ⟨none, none⟩⟩]) := by
    decide +kernel
  obtain ⟨s, hs, heq⟩ := Option.map_eq_some_iff.mp h
  obtain ⟨hmain, hsent, hwritten⟩ : _ ∧ _ ∧ _ := by simpa only [Prod.mk.injEq] using heq
  exact ⟨s, hs, hmain, hsent, hwritten⟩

end Runs

end PhpFastProfile
