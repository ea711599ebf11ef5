import PhpFastProfile.Tls
import Mathlib.Data.List.Perm.Basic

/-!
# The order of the tasks

`pickTask` settles on a task by the order of the directory, before anything is known
of its TSRM slot.  In a target that mixes threads that run PHP with threads that do
not, this decides whether the executor globals are found.

## Main definitions

* `ZtsTarget` — a target all reads of which succeed.
* `ZtsTarget.resolve` — the address found when the directory lists the tasks in an order.
* `ZtsTarget.Finds` — the address is the one of a task that runs PHP.

## Main results

* `ZtsTarget.resolve_eq` — the address found is the one of the task picked, if that runs PHP.
* `ZtsTarget.exists_order` — every task but the leader is picked in some order.
* `resolve_order_iff` — **the order of the tasks does not matter exactly when all tasks
  but the leader run PHP.**
* `resolve_order_matters` — two orders of the same tasks, one of which fails.
-/

namespace PhpFastProfile

/-- A ZTS target whose accessor can be decoded, whose tasks can be attached to and whose
words can be read. -/
structure ZtsTarget (arch : Arch) where
  rem : Remote
  pid : ℤ
  tcbOffsetFn : UInt64
  egOffsetVar : UInt64
  tcbOffset : Int64
  egOffset : UInt64
  /-- The names in `/proc/PID/task`. -/
  names : List (Option (List UInt8))
  tlsBase : ℤ → UInt64
  /-- The TSRM slots, null for tasks that have never run PHP. -/
  cachePtr : ℤ → UInt64
  decodes : decodeTcbOffset arch rem tcbOffsetFn = .ok tcbOffset
  slot_at : ∀ tid ∈ names.filterMap entryPid,
    rem.readU64 (slotAddr (tlsBase tid) tcbOffset) = .ok (cachePtr tid)
  offset_at : rem.readU64 egOffsetVar = .ok egOffset

namespace ZtsTarget

variable {arch : Arch} (t : ZtsTarget arch)

/-- The thread ids that `/proc/PID/task` lists. -/
def tasks : List ℤ := t.names.filterMap entryPid

/-- What is found when the directory lists the names in the given order. -/
def resolve (order : List (Option (List UInt8))) : Except TlsError UInt64 :=
  resolveZtsExecutorGlobals arch t.rem (some order) (fun tid => .ok (t.tlsBase tid)) t.pid
    t.tcbOffsetFn t.egOffsetVar

/-- The executor globals of a task that runs PHP are found. -/
def Finds (order : List (Option (List UInt8))) : Prop :=
  ∃ tid ∈ t.tasks, t.cachePtr tid ≠ 0 ∧ t.resolve order = .ok (t.cachePtr tid + t.egOffset)

variable {t}

/-- **What is found is up to the task that is picked.** -/
theorem resolve_eq {order : List (Option (List UInt8))} {tid : ℤ} (htid : tid ∈ t.tasks)
    (hpick : pickTask (some order) t.pid = .ok tid) :
    t.resolve order =
      if t.cachePtr tid = 0 then .error .nullCache else .ok (t.cachePtr tid + t.egOffset) := by
  unfold resolve resolveZtsExecutorGlobals
  rw [t.decodes, hpick]
  show (do
    let cachePtr ← (t.rem.readU64 (slotAddr (t.tlsBase tid) t.tcbOffset)).mapError TlsError.read
    if cachePtr = 0 then throw TlsError.nullCache
    let egOffset ← (t.rem.readU64 t.egOffsetVar).mapError TlsError.read
    return cachePtr + egOffset) = _
  rw [t.slot_at tid htid, t.offset_at]
  by_cases hnull : t.cachePtr tid = 0
  · rw [if_pos hnull]
    simp [hnull, Except.mapError, bind, Except.bind, throw, throwThe, MonadExceptOf.throw]
  · rw [if_neg hnull]
    simp [hnull, Except.mapError, bind, Except.bind, pure, Except.pure]

/-- In every order some task is picked: the leader only when there is no other. -/
theorem exists_pick {order : List (Option (List UInt8))} (horder : order.Perm t.names)
    (hne : t.tasks ≠ []) : ∃ tid ∈ t.tasks, pickTask (some order) t.pid = .ok tid ∧
      (tid = t.pid → ∀ tid' ∈ t.tasks, tid' = t.pid) := by
  have hperm : (order.filterMap entryPid).Perm t.tasks := horder.filterMap entryPid
  rw [pickTask_eq]
  dsimp only
  cases hfind : (order.filterMap entryPid).find? fun tid => tid ≠ t.pid with
  | some tid =>
    refine ⟨tid, hperm.mem_iff.mp (List.mem_of_find?_eq_some hfind), rfl, fun heq => ?_⟩
    exact absurd heq (by simpa using List.find?_some hfind)
  | none =>
    have hall : ∀ tid' ∈ t.tasks, tid' = t.pid := by
      intro tid' hmem
      simpa using List.find?_eq_none.mp hfind tid' (hperm.mem_iff.mpr hmem)
    cases htids : order.filterMap entryPid with
    | nil =>
      rw [htids] at hperm
      exact absurd hperm.symm.eq_nil hne
    | cons tid tids =>
      have hmem : tid ∈ t.tasks := hperm.mem_iff.mp (by rw [htids]; exact List.mem_cons_self)
      exact ⟨tid, hmem, rfl, fun _ => hall⟩

/-- **Every task but the leader is picked in some order.** -/
theorem exists_order {tid : ℤ} (htid : tid ∈ t.tasks) (hne : tid ≠ t.pid) :
    ∃ order, order.Perm t.names ∧ pickTask (some order) t.pid = .ok tid := by
  obtain ⟨name, hmem, hname⟩ := List.mem_filterMap.mp htid
  obtain ⟨pre, post, hnames⟩ := List.append_of_mem hmem
  refine ⟨name :: (pre ++ post), ?_, ?_⟩
  · rw [hnames]
    exact List.perm_middle.symm
  · rw [pickTask_eq]
    simp [hname, hne]

end ZtsTarget

/-- **The order of the tasks does not matter exactly when all tasks but the leader run
PHP.** -/
theorem resolve_order_iff {arch : Arch} (t : ZtsTarget arch)
    (hphp : ∃ tid ∈ t.tasks, t.cachePtr tid ≠ 0) :
    ((∀ order, order.Perm t.names → t.Finds order) ∧
      ∀ order order', order.Perm t.names → order'.Perm t.names →
        ((t.resolve order).isOk ↔ (t.resolve order').isOk)) ↔
      ∀ tid ∈ t.tasks, tid ≠ t.pid → t.cachePtr tid ≠ 0 := by
  obtain ⟨php, hmem, hphp⟩ := hphp
  constructor
  · rintro ⟨hfinds, -⟩ tid htid hne hnull
    obtain ⟨order, horder, hpick⟩ := t.exists_order htid hne
    obtain ⟨tid', -, -, hok⟩ := hfinds order horder
    rw [t.resolve_eq htid hpick, if_pos hnull] at hok
    cases hok
  · intro hall
    have hfinds : ∀ order, order.Perm t.names → t.Finds order := by
      intro order horder
      obtain ⟨tid, htid, hpick, hleader⟩ := t.exists_pick horder (List.ne_nil_of_mem hmem)
      have hcache : t.cachePtr tid ≠ 0 := by
        by_cases heq : tid = t.pid
        · -- the task that runs PHP is the leader
          rwa [heq, ← hleader heq php hmem]
        · exact hall tid htid heq
      exact ⟨tid, htid, hcache, by rw [t.resolve_eq htid hpick, if_neg hcache]⟩
    have hok : ∀ order, order.Perm t.names → (t.resolve order).isOk = true := by
      intro order horder
      obtain ⟨tid, -, -, hok⟩ := hfinds order horder
      rw [hok]
      rfl
    exact ⟨hfinds, fun order order' h h' => by rw [hok order h, hok order' h']⟩

/-- The memory of a target with an accessor at `0x1000` and TSRM slots from `0x2000` on,
the third of them null unless the third task runs PHP. -/
def poolMemory (php : Bool) : Remote :=
  .zeroExcept [(0x1000, 0x48), (0x1001, 0xC7), (0x1002, 0xC0), (0x1007, 0xC3),
    (0x2001, 0x30), (0x2009, 0x31), (0x2011, if php then 0x32 else 0), (0x4000, 0x10)]

/-- The leader and two more tasks, the second of which may be a helper that does not run PHP. -/
def poolTarget (php : Bool) : ZtsTarget .x86_64 where
  rem := poolMemory php
  pid := 42
  tcbOffsetFn := 0x1000
  egOffsetVar := 0x4000
  tcbOffset := 0
  egOffset := 0x10
  names := ["42", "43", "44"].map fun s => some (Utf8.encode s.toList)
  tlsBase := fun tid => UInt64.ofNat (0x2000 + 8 * (tid - 42).toNat)
  cachePtr := fun tid =>
    if tid = 42 then 0x3000 else if tid = 43 then 0x3100 else if php then 0x3200 else 0
  decodes := by cases php <;> decide +kernel
  slot_at := by cases php <;> decide +kernel
  offset_at := by cases php <;> decide +kernel

theorem resolve_order_iff_pool : (poolTarget true).Finds (poolTarget true).names.reverse := by
  have hphp : ∃ tid ∈ (poolTarget true).tasks, (poolTarget true).cachePtr tid ≠ 0 := by
    decide +kernel
  have hall := ((resolve_order_iff (poolTarget true) hphp).mpr (by decide +kernel)).1
  exact hall _ (List.reverse_perm _)

/-- **Two orders of the same tasks, one of which fails.** -/
theorem resolve_order_matters :
    let t := poolTarget false
    (∃ tid ∈ t.tasks, t.cachePtr tid ≠ 0) ∧
      t.Finds t.names ∧ ∃ order, order.Perm t.names ∧ ¬ t.Finds order ∧
        t.resolve order = .error .nullCache := by
  intro t
  have herr : t.resolve t.names.reverse = .error .nullCache := by decide +kernel
  refine ⟨⟨43, by decide +kernel⟩, ⟨43, by decide +kernel⟩, t.names.reverse,
    List.reverse_perm t.names, ?_, herr⟩
  rintro ⟨tid, -, -, hok⟩
  rw [herr] at hok
  cases hok

end PhpFastProfile
