import Mathlib.Logic.Function.Basic
import Mathlib.Data.List.Basic
import Mathlib.Data.List.Perm.Basic

/-!
# Channels with many senders

A channel has any number of senders, numbered, and one receiver.  A message that
is sent waits behind the earlier messages of its sender until the receiver takes
it; the messages of different senders may overtake each other.

## Main definitions

* `Channel` — what each sender has sent, what of it is waiting, and what was received.
* `Channel.Step` — one message sent or received, or nothing.
* `Channel.Conserved` — received, then waiting, is what was sent.

## Main results

* `Channel.Step.conserved` — **no step loses, repeats or reorders a message.**
* `Channel.Conserved.delivered_iff` — everything has been received when nothing waits.
* `Channel.got_perm` — what has been received, sender by sender.
-/

/-- A channel with many senders. -/
structure Channel (μ : Type*) where
  /-- What a sender has sent, in order. -/
  sent : ℕ → List μ
  /-- What of it is waiting, in order. -/
  queue : ℕ → List μ
  /-- What has been received, each message with its sender, in order. -/
  got : List (ℕ × μ)

namespace Channel

variable {μ : Type*}

/-- What has been received of a sender, in order. -/
def gotFrom (c : Channel μ) (w : ℕ) : List μ := (c.got.filter fun x => x.1 = w).map Prod.snd

/-- The sender `w` sends `m`. -/
def send (c : Channel μ) (w : ℕ) (m : μ) : Channel μ :=
  { c with
    sent := Function.update c.sent w (c.sent w ++ [m])
    queue := Function.update c.queue w (c.queue w ++ [m]) }

/-- The receiver takes the message `m` of `w`, and `rest` is left waiting. -/
def recv (c : Channel μ) (w : ℕ) (m : μ) (rest : List μ) : Channel μ :=
  { c with
    queue := Function.update c.queue w rest
    got := c.got ++ [(w, m)] }

/-- One step of the channel. -/
inductive Step (c : Channel μ) : Channel μ → Prop
  | idle : Step c c
  | send (w : ℕ) (m : μ) : Step c (c.send w m)
  | recv (w : ℕ) (m : μ) (rest : List μ) (h : c.queue w = m :: rest) : Step c (c.recv w m rest)

/-- Of every sender, what was received and then what is waiting is what was sent. -/
def Conserved (c : Channel μ) : Prop := ∀ w, c.gotFrom w ++ c.queue w = c.sent w

/-- Everything that was sent has been received, in order. -/
def Delivered (c : Channel μ) : Prop := ∀ w, c.gotFrom w = c.sent w

theorem gotFrom_recv (c : Channel μ) (w w' : ℕ) (m : μ) (rest : List μ) :
    (c.recv w m rest).gotFrom w' = if w = w' then c.gotFrom w' ++ [m] else c.gotFrom w' := by
  unfold gotFrom recv
  rw [List.filter_append, List.map_append]
  by_cases hw : w = w'
  · simp [hw]
  · simp [hw]

/-- **No step loses, repeats or reorders a message.** -/
theorem Step.conserved {c c' : Channel μ} (h : Step c c') (hc : c.Conserved) : c'.Conserved := by
  intro w'
  cases h with
  | idle => exact hc w'
  | send w m =>
    change c.gotFrom w' ++ Function.update c.queue w (c.queue w ++ [m]) w'
      = Function.update c.sent w (c.sent w ++ [m]) w'
    by_cases hw : w' = w
    · subst hw
      rw [Function.update_self, Function.update_self, ← List.append_assoc, hc w']
    · rw [Function.update_of_ne hw, Function.update_of_ne hw]
      exact hc w'
  | recv w m rest hq =>
    change (c.recv w m rest).gotFrom w' ++ Function.update c.queue w rest w' = c.sent w'
    rw [gotFrom_recv]
    by_cases hw : w = w'
    · subst hw
      rw [if_pos rfl, Function.update_self, List.append_assoc, ← hc w, hq]
      rfl
    · rw [if_neg hw, Function.update_of_ne (Ne.symm hw)]
      exact hc w'

/-- What was received of a sender is a prefix of what it sent. -/
theorem Conserved.prefix {c : Channel μ} (h : c.Conserved) (w : ℕ) : c.gotFrom w <+: c.sent w :=
  ⟨c.queue w, h w⟩

/-- Everything has been received exactly when nothing is waiting. -/
theorem Conserved.delivered_iff {c : Channel μ} (h : c.Conserved) :
    c.Delivered ↔ ∀ w, c.queue w = [] := by
  constructor
  · intro hd w
    have hw := h w
    rw [hd w] at hw
    simpa using hw
  · intro hq w
    have hw := h w
    rwa [hq w, List.append_nil] at hw

/-- Sorting a list by senders permutes it. -/
theorem flatMap_filter_perm {α : Type*} (f : α → ℕ) (l : List α) (n : ℕ) :
    ((List.range n).flatMap fun w => l.filter fun x => f x = w).Perm
      (l.filter fun x => f x < n) := by
  induction n with
  | zero => simp
  | succ n ih =>
    have hlow : (l.filter fun x => f x < n + 1).filter (fun x => f x < n) =
        l.filter fun x => f x < n := by
      rw [List.filter_filter]
      exact List.filter_congr fun x _ => by grind
    have hlast : (l.filter fun x => f x < n + 1).filter (fun x => !decide (f x < n)) =
        l.filter fun x => f x = n := by
      rw [List.filter_filter]
      exact List.filter_congr fun x _ => by grind
    have hsplit := List.filter_append_perm (fun x => decide (f x < n))
      (l.filter fun x => f x < n + 1)
    rw [hlow, hlast] at hsplit
    rw [List.range_succ, List.flatMap_append, List.flatMap_singleton]
    exact (ih.append_right _).trans hsplit

/-- What has been received is what has been received of the senders, in some order. -/
theorem got_perm {c : Channel μ} {n : ℕ} (h : ∀ x ∈ c.got, x.1 < n) :
    (c.got.map Prod.snd).Perm ((List.range n).flatMap c.gotFrom) := by
  have hall : (c.got.filter fun x => x.1 < n) = c.got :=
    List.filter_eq_self.mpr fun x hx => decide_eq_true (h x hx)
  have hsplit := (flatMap_filter_perm Prod.fst c.got n).map Prod.snd
  rw [hall, List.map_flatMap] at hsplit
  exact hsplit.symm

end Channel
