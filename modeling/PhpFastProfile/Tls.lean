import PhpFastProfile.Discover
import PhpFastProfile.Remote
import PhpFastProfile.Tls.AttachedTask

/-!
# Thread-local storage of the target

A ZTS build keeps the executor globals of a thread behind a pointer in its
thread-local storage.  `resolveZtsExecutorGlobals` decodes the offset of this slot
from a small accessor function, picks a task, reads its thread pointer and follows
the slot.  The accessor is decoded for the machine the profiler is built for.

## Main definitions

* `decodeTcbOffset` — the offset the accessor returns.
* `pickTask` — the task that is attached to.
* `resolveZtsExecutorGlobals` — the address of the executor globals of that task.

## Main results

* `pickTask_eq` — the first task that is not the leader is picked, else the first.
-/

namespace PhpFastProfile

open Bytes

/-- `target_arch`. -/
inductive Arch where
  | x86_64
  | aarch64
  deriving DecidableEq, Repr

/-- The errors of `resolve_zts_executor_globals`, with what their texts show. -/
inductive TlsError where
  | short (buf : List UInt8)
  | notMovRet (buf : List UInt8)
  | shortAfterBti
  | retBeforeMovz (w : UInt32)
  | notX0 (w : UInt32)
  | movkBeforeMovz
  | unexpected (w : UInt32) (off : ℕ)
  | noRet
  | listing
  | noTasks
  | tlsBase (tid : ℤ) (e : TaskError)
  | nullCache
  | read (s : Stop)
  deriving DecidableEq, Repr

/-! ### The accessor -/

/-- The landing pad of an x86-64 function. -/
def ENDBR64 : List UInt8 := [0xF3, 0x0F, 0x1E, 0xFA]

/-- `decode_tcb_offset_bytes` on x86_64. -/
def decodeTcbOffsetX86 (buf : List UInt8) : Except TlsError Int64 :=
  let off := if buf.take 4 = ENDBR64 then 4 else 0
  if buf.length < off + 8 then .error (.short buf)
  else
    let s := buf.drop off
    -- mov $imm32, %rax; ret
    if s[0]? = some 0x48 ∧ s[1]? = some 0xC7 ∧ s[2]? = some 0xC0 ∧ s[7]? = some 0xC3 then
      .ok (UInt32.ofNat (leNat ((s.drop 3).take 4))).toInt32.toInt64
    else .error (.notMovRet buf)

/-- `u32::from_le_bytes`. -/
def leU32 (bs : List UInt8) : UInt32 := UInt32.ofNat (leNat bs)

/-- The loop of `decode_tcb_offset_bytes` on aarch64, from the offset `off` on. -/
def decodeMovs (off : ℕ) (imm : UInt64) (consumedMovz : Bool) :
    List UInt8 → Except TlsError Int64
  | b₀ :: b₁ :: b₂ :: b₃ :: rest =>
    let w := leU32 [b₀, b₁, b₂, b₃]
    if w = 0xD65F03C0 then
      if !consumedMovz then .error (.retBeforeMovz w) else .ok imm.toInt64
    else
      let isMovz : Bool := w &&& 0xFF800000 = 0xD2800000
      let isMovk : Bool := w &&& 0xFF800000 = 0xF2800000
      if isMovz || isMovk then
        if w &&& 0x1F ≠ 0 then .error (.notX0 w)
        else
          let shift : UInt64 := ((w >>> 21) &&& 0x3).toUInt64 * 16
          let chunk := ((w >>> 5) &&& 0xFFFF).toUInt64 <<< shift
          if isMovz then decodeMovs (off + 4) chunk true rest
          else if !consumedMovz then .error .movkBeforeMovz
          else decodeMovs (off + 4) ((imm &&& ~~~((0xFFFF : UInt64) <<< shift)) ||| chunk) true rest
      else .error (.unexpected w off)
  | _ => .error .noRet

/-- `decode_tcb_offset_bytes` on aarch64. -/
def decodeTcbOffsetAarch64 (buf : List UInt8) : Except TlsError Int64 :=
  if buf.length < 12 then .error (.short buf)
  else
    -- an optional landing pad
    let off := if leU32 (buf.take 4) &&& 0xFFFFFF1F = 0xD503241F then 4 else 0
    if buf.length < off + 8 then .error .shortAfterBti
    else decodeMovs off 0 false (buf.drop off)

/-- The offset that an accessor returns, by architecture. -/
def decodeTcbOffsetBytes : Arch → List UInt8 → Except TlsError Int64
  | .x86_64 => decodeTcbOffsetX86
  | .aarch64 => decodeTcbOffsetAarch64

/-- `decode_tcb_offset`: the same for the accessor in the process, by its first 24 bytes. -/
def decodeTcbOffset (arch : Arch) (rem : Remote) (fnAddr : UInt64) : Except TlsError Int64 := do
  let buf ← (rem.read fnAddr 24).mapError .read
  decodeTcbOffsetBytes arch buf

example : decodeTcbOffsetX86 [0x48, 0xC7, 0xC0, 0xF8, 0xFF, 0xFF, 0xFF, 0xC3] = .ok (-8) := by
  decide

/-! ### The task -/

/-- The loop of `pick_task`, where `first` is the first task it has seen. -/
def pickFrom (pid : ℤ) (first : Option ℤ) : List (Option (List UInt8)) → Option ℤ
  | [] => first
  | name :: names =>
    match entryPid name with
    | none => pickFrom pid first names
    | some tid =>
      -- a task other than the leader is preferred
      if tid ≠ pid then some tid
      else pickFrom pid (if first.isNone then some tid else first) names

/-- `pick_task`, given the entries of `/proc/PID/task`. -/
def pickTask (dir : Option (List (Option (List UInt8)))) (pid : ℤ) : Except TlsError ℤ :=
  match dir with
  | none => .error .listing
  | some names =>
    match pickFrom pid none names with
    | some tid => .ok tid
    | none => .error .noTasks

theorem pickFrom_eq (pid : ℤ) (names : List (Option (List UInt8))) (first : Option ℤ) :
    pickFrom pid first names =
      ((names.filterMap entryPid).find? fun tid => tid ≠ pid).or
        (first.or (names.filterMap entryPid).head?) := by
  induction names generalizing first with
  | nil => simp [pickFrom]
  | cons name names ih =>
    rw [pickFrom]
    cases hname : entryPid name with
    | none => simp [hname, ih]
    | some tid =>
      by_cases htid : tid = pid
      · cases first <;> simp [hname, ih, htid]
      · simp [hname, htid]

/-- **The first task that is not the leader is picked**, and the leader if there is no
other. -/
theorem pickTask_eq (names : List (Option (List UInt8))) (pid : ℤ) :
    pickTask (some names) pid =
      let tids := names.filterMap entryPid
      match (tids.find? fun tid => tid ≠ pid).or tids.head? with
      | some tid => .ok tid
      | none => .error .noTasks := by
  rw [pickTask]
  dsimp only
  rw [pickFrom_eq, Option.none_or]

/-! ### The executor globals -/

/-- The address of a slot, at an offset from the thread pointer. -/
def slotAddr (tlsBase : UInt64) (tcbOffset : Int64) : UInt64 :=
  (tlsBase.toInt64 + tcbOffset).toUInt64

/-- `resolve_zts_executor_globals`, where `dir` has the entries of `/proc/PID/task` and
`readTlsBaseRegister` is what attaching to a task gives. -/
def resolveZtsExecutorGlobals (arch : Arch) (rem : Remote)
    (dir : Option (List (Option (List UInt8))))
    (readTlsBaseRegister : ℤ → Except TaskError UInt64) (pid : ℤ)
    (tcbOffsetFn egOffsetVar : UInt64) : Except TlsError UInt64 := do
  let tcbOffset ← decodeTcbOffset arch rem tcbOffsetFn
  let tid ← pickTask dir pid
  let tlsBase ← (readTlsBaseRegister tid).mapError (.tlsBase tid)
  let cachePtr ← (rem.readU64 (slotAddr tlsBase tcbOffset)).mapError .read
  if cachePtr = 0 then throw .nullCache
  let egOffset ← (rem.readU64 egOffsetVar).mapError .read
  return cachePtr + egOffset

end PhpFastProfile
