import HpmSdk.Foundation.Run
import Mathlib.Logic.Function.Basic

set_option autoImplicit false

/-!
# The scheduler (`rt-thread/src/scheduler.c`, `thread.c`, `__rt_ffs` in `kservice.c`)

One processor and 32 priorities, 0 the highest.  A word has a bit for each priority of which a
thread is ready, and each priority has a queue.  Every function below runs with interrupts
disabled, up to the call of `rt_schedule` that some make at their end.
-/

namespace HpmSdk.Rtt

open Foundation

/-! ## The first bit set -/

/-- `__lowest_bit_bitmap`. -/
def lowestBitBitmap : List Nat :=
  [ 0, 0, 1, 0, 2, 0, 1, 0, 3, 0, 1, 0, 2, 0, 1, 0,
    4, 0, 1, 0, 2, 0, 1, 0, 3, 0, 1, 0, 2, 0, 1, 0,
    5, 0, 1, 0, 2, 0, 1, 0, 3, 0, 1, 0, 2, 0, 1, 0,
    4, 0, 1, 0, 2, 0, 1, 0, 3, 0, 1, 0, 2, 0, 1, 0,
    6, 0, 1, 0, 2, 0, 1, 0, 3, 0, 1, 0, 2, 0, 1, 0,
    4, 0, 1, 0, 2, 0, 1, 0, 3, 0, 1, 0, 2, 0, 1, 0,
    5, 0, 1, 0, 2, 0, 1, 0, 3, 0, 1, 0, 2, 0, 1, 0,
    4, 0, 1, 0, 2, 0, 1, 0, 3, 0, 1, 0, 2, 0, 1, 0,
    7, 0, 1, 0, 2, 0, 1, 0, 3, 0, 1, 0, 2, 0, 1, 0,
    4, 0, 1, 0, 2, 0, 1, 0, 3, 0, 1, 0, 2, 0, 1, 0,
    5, 0, 1, 0, 2, 0, 1, 0, 3, 0, 1, 0, 2, 0, 1, 0,
    4, 0, 1, 0, 2, 0, 1, 0, 3, 0, 1, 0, 2, 0, 1, 0,
    6, 0, 1, 0, 2, 0, 1, 0, 3, 0, 1, 0, 2, 0, 1, 0,
    4, 0, 1, 0, 2, 0, 1, 0, 3, 0, 1, 0, 2, 0, 1, 0,
    5, 0, 1, 0, 2, 0, 1, 0, 3, 0, 1, 0, 2, 0, 1, 0,
    4, 0, 1, 0, 2, 0, 1, 0, 3, 0, 1, 0, 2, 0, 1, 0 ]

/-- `__rt_ffs`: the number of the lowest bit set, from 1 on, or 0. -/
def rtFfs (value : BitVec 32) : Nat :=
  let lowestBit (byte : BitVec 32) := lowestBitBitmap.getD byte.toNat 0
  if value = 0 then 0
  else if value &&& 0xFF ≠ 0 then lowestBit (value &&& 0xFF) + 1
  else if value &&& 0xFF00 ≠ 0 then lowestBit ((value &&& 0xFF00) >>> 8) + 9
  else if value &&& 0xFF0000 ≠ 0 then lowestBit ((value &&& 0xFF0000) >>> 16) + 17
  else lowestBit ((value &&& 0xFF000000) >>> 24) + 25

/-! ## Threads -/

/-- `RT_THREAD_STAT_MASK` of a thread's `stat`. -/
inductive ThreadStat where
  | init
  | ready
  | suspend
  | running
  | close
  deriving DecidableEq, Repr

/-- What the scheduler uses of `struct rt_thread`; `yielded` is `RT_THREAD_STAT_YIELD`. -/
structure RtThread where
  stat : ThreadStat
  yielded : Bool
  initPriority : Nat
  currentPriority : Nat
  numberMask : BitVec 32
  initTick : BitVec 32
  remainingTick : BitVec 32
  deriving DecidableEq, Repr

/-- The threads by their address, the queues, `rt_thread_ready_priority_group`,
`rt_current_thread`, `rt_current_priority` and `rt_scheduler_lock_nest`. -/
structure Scheduler where
  thread : Nat → RtThread
  priorityTable : Nat → List Nat
  readyPriorityGroup : BitVec 32
  currentThread : Option Nat
  currentPriority : Nat
  lockNest : Nat

/-- A field of one thread is changed. -/
def Scheduler.update (s : Scheduler) (t : Nat) (f : RtThread → RtThread) : Scheduler :=
  { s with thread := Function.update s.thread t (f (s.thread t)) }

def Scheduler.setStat (s : Scheduler) (t : Nat) (stat : ThreadStat) : Scheduler :=
  s.update t fun x => { x with stat }

/-- `_scheduler_get_highest_priority_thread`, with the priority. -/
def highestPriorityThread (s : Scheduler) : Option (Nat × Nat) :=
  let highest := rtFfs s.readyPriorityGroup - 1
  (s.priorityTable highest).head?.map fun t => (t, highest)

/-- `rt_schedule_insert_thread`. -/
def scheduleInsertThread (s : Scheduler) (t : Nat) : Scheduler :=
  if s.currentThread = some t then s.setStat t .running
  else
    let s := s.setStat t .ready
    let x := s.thread t
    { s with
      priorityTable := Function.update s.priorityTable x.currentPriority
        (s.priorityTable x.currentPriority ++ [t])
      readyPriorityGroup := s.readyPriorityGroup ||| x.numberMask }

/-- `rt_schedule_remove_thread`, from the queue that the thread is in. -/
def scheduleRemoveThread (s : Scheduler) (t : Nat) : Scheduler :=
  let s := { s with priorityTable := fun p => (s.priorityTable p).filter (· ≠ t) }
  let x := s.thread t
  if s.priorityTable x.currentPriority = [] then
    { s with readyPriorityGroup := s.readyPriorityGroup &&& ~~~x.numberMask }
  else s

/-- The current thread goes on although others are ready. -/
def staysCurrent (x : RtThread) (highest : Nat) : Bool :=
  x.currentPriority < highest || x.currentPriority = highest && !x.yielded

/-- The switch of `rt_schedule` to another thread; `insert` tells whether the thread it leaves is
ready. -/
def switchTo (s : Scheduler) (fromThread toThread highest : Nat) (insert : Bool) : Scheduler :=
  let s := { s with currentPriority := highest, currentThread := some toThread }
  let s := if insert then scheduleInsertThread s fromThread else s
  (scheduleRemoveThread s toThread).setStat toThread .running

/-- `rt_schedule`. -/
def rtSchedule (s : Scheduler) : Scheduler :=
  match s.currentThread, highestPriorityThread s with
  | some current, some (toThread, highest) =>
    if s.lockNest ≠ 0 ∨ s.readyPriorityGroup = 0 then s
    else
      let running := (s.thread current).stat = .running
      let stays := running && staysCurrent (s.thread current) highest
      let toThread := if stays then current else toThread
      let s := if running then s.update current fun x => { x with yielded := false } else s
      if toThread ≠ current then switchTo s current toThread highest (running && !stays)
      else (scheduleRemoveThread s current).setStat current .running
  | _, _ => s

/-- `rt_system_scheduler_start`. -/
def rtSystemSchedulerStart (s : Scheduler) : Scheduler :=
  match highestPriorityThread s with
  | some (toThread, _) =>
    (scheduleRemoveThread { s with currentThread := some toThread } toThread).update toThread
      fun x => { x with stat := .running, yielded := false }
  | none => s

/-- `rt_enter_critical`. -/
def rtEnterCritical (s : Scheduler) : Scheduler := { s with lockNest := s.lockNest + 1 }

/-- `rt_exit_critical`. -/
def rtExitCritical (s : Scheduler) : Scheduler :=
  let s := { s with lockNest := s.lockNest - 1 }
  if s.lockNest = 0 then rtSchedule s else s

/-! ## Calls on threads -/

/-- The fields of `_thread_init` that the scheduler uses. -/
def threadInit (s : Scheduler) (t priority : Nat) (tick : BitVec 32) : Scheduler :=
  s.update t fun _ =>
    { stat := .init, yielded := false, initPriority := priority, currentPriority := priority,
      numberMask := 0, initTick := tick, remainingTick := tick }

/-- `rt_thread_resume`, and whether it returns `RT_EOK`. -/
def rtThreadResume (s : Scheduler) (t : Nat) : Bool × Scheduler :=
  if (s.thread t).stat ≠ .suspend then (false, s) else (true, scheduleInsertThread s t)

/-- `rt_thread_suspend`, and whether it returns `RT_EOK`. -/
def rtThreadSuspend (s : Scheduler) (t : Nat) : Bool × Scheduler :=
  let stat := (s.thread t).stat
  if stat ≠ .ready ∧ stat ≠ .running then (false, s)
  else (true, (scheduleRemoveThread s t).setStat t .suspend)

/-- `rt_thread_timeout`: a thread waited long enough. -/
def rtThreadTimeout (s : Scheduler) (t : Nat) : Scheduler := rtSchedule (scheduleInsertThread s t)

/-- `rt_thread_startup`. -/
def rtThreadStartup (s : Scheduler) (t : Nat) : Scheduler :=
  let s := s.update t fun x =>
    { x with
      currentPriority := x.initPriority, numberMask := (1 : BitVec 32) <<< x.initPriority
      stat := .suspend
      yielded := false }
  rtSchedule (rtThreadResume s t).2

/-- `rt_thread_control` with `RT_THREAD_CTRL_CHANGE_PRIORITY`. -/
def rtThreadChangePriority (s : Scheduler) (t priority : Nat) : Scheduler :=
  let change (x : RtThread) : RtThread :=
    { x with currentPriority := priority, numberMask := (1 : BitVec 32) <<< priority }
  if (s.thread t).stat = .ready then
    scheduleInsertThread ((scheduleRemoveThread s t).update t change) t
  else s.update t change

/-- `rt_thread_yield`. -/
def rtThreadYield (s : Scheduler) : Scheduler :=
  match s.currentThread with
  | none => s
  | some t =>
    rtSchedule (s.update t fun x => { x with remainingTick := x.initTick, yielded := true })

/-- `rt_thread_detach`, and as well `rt_thread_delete`. -/
def rtThreadDetach (s : Scheduler) (t : Nat) : Scheduler :=
  if (s.thread t).stat = .close then s
  else
    let s := if (s.thread t).stat ≠ .init then scheduleRemoveThread s t else s
    s.update t fun x => { x with stat := .close, yielded := false }

/-- `_thread_exit`. -/
def threadExit (s : Scheduler) : Scheduler :=
  match s.currentThread with
  | none => s
  | some t =>
    rtSchedule
      ((scheduleRemoveThread s t).update t fun x => { x with stat := .close, yielded := false })

/-- `rt_tick_increase`, less the timers. -/
def tickSlice (s : Scheduler) : Scheduler :=
  match s.currentThread with
  | none => s
  | some t =>
    let s := s.update t fun x => { x with remainingTick := x.remainingTick - 1 }
    if (s.thread t).remainingTick = 0 then
      rtSchedule (s.update t fun x => { x with remainingTick := x.initTick, yielded := true })
    else s

end HpmSdk.Rtt
