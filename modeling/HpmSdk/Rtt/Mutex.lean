import HpmSdk.Rtt.Ipc

set_option autoImplicit false

/-!
# Mutexes (`rt_mutex_take`, `rt_mutex_release` in `rt-thread/src/ipc.c`)

The owner runs at its own priority or at that of a thread that waits, whichever is higher.  A
mutex that is released goes at once to the first of the threads that wait.
-/

namespace HpmSdk.Rtt

open Foundation

/-- `struct rt_mutex`, with the list of its `parent`; the flag is always `RT_IPC_FLAG_PRIO`. -/
structure RtMutex where
  suspendThread : List Nat
  value : BitVec 16
  originalPriority : Nat
  hold : BitVec 8
  owner : Option Nat

/-- `rt_mutex_init`. -/
def rtMutexInit : RtMutex where
  suspendThread := []
  value := 1
  originalPriority := 0xFF
  hold := 0
  owner := none

/-- The threads, `thread->error`, a mutex, and the threads that are inside `rt_mutex_take` behind
its call of `rt_schedule`.

Not in the source: how often a thread got the mutex and did not release it, by the results of its
calls, and the priority that a thread was given outside the mutex. -/
structure MutexState where
  scheduler : Scheduler
  error : Nat → RtErr
  mutex : RtMutex
  taking : Nat → Bool
  takes : Nat → Nat
  given : Nat → Nat

namespace MutexState

def setError (s : MutexState) (t : Nat) (err : RtErr) : MutexState :=
  { s with error := Function.update s.error t err }

def setTaking (s : MutexState) (t : Nat) (taking : Bool) : MutexState :=
  { s with taking := Function.update s.taking t taking }

def setTakes (s : MutexState) (t n : Nat) : MutexState :=
  { s with takes := Function.update s.takes t n }

def priority (s : MutexState) (t : Nat) : Nat := (s.scheduler.thread t).currentPriority

/-- A thread runs, outside `rt_mutex_take`. -/
def Calls (s : MutexState) (t : Nat) : Prop :=
  (s.scheduler.thread t).stat = .running ∧ s.taking t = false

instance (s : MutexState) (t : Nat) : Decidable (s.Calls t) :=
  inferInstanceAs (Decidable (_ ∧ _))

end MutexState

/-! ## The code -/

/-- The owner gets the priority of a thread that waits for it, where that is higher. -/
def raiseOwner (s : MutexState) (thread : Nat) : Scheduler :=
  match s.mutex.owner with
  | some owner =>
    if s.priority thread < s.priority owner then
      rtThreadChangePriority s.scheduler owner (s.priority thread)
    else s.scheduler
  | none => s.scheduler

/-- `rt_mutex_take` up to its end, or up to the call of `rt_schedule` with no result yet. -/
def rtMutexTake (s : MutexState) (thread : Nat) (time : Int) : Option RtErr × MutexState :=
  let s := s.setError thread .eok
  if s.mutex.owner = some thread then
    if s.mutex.hold < 0xFF then
      (some .eok, { s with mutex := { s.mutex with hold := s.mutex.hold + 1 } })
    else (some .efull, s)
  else if 0 < s.mutex.value then
    let mutex : RtMutex := { s.mutex with
      value := s.mutex.value - 1, owner := some thread, originalPriority := s.priority thread }
    if mutex.hold < 0xFF then (some .eok, { s with mutex := { mutex with hold := mutex.hold + 1 } })
    else (some .efull, { s with mutex })
  else if time = 0 then (some .etimeout, s.setError thread .etimeout)
  else
    let (scheduler, suspendThread) :=
      ipcListSuspend (raiseOwner s thread) s.mutex.suspendThread thread .prio
    (none, { s with scheduler := rtSchedule scheduler, mutex := { s.mutex with suspendThread } })

/-- `rt_mutex_take` behind the call of `rt_schedule`. -/
def rtMutexTaken (s : MutexState) (thread : Nat) : RtErr :=
  if s.error thread ≠ .eok then s.error thread else .eok

/-- The owner gets back the priority that it had. -/
def restoreOwner (s : MutexState) (thread : Nat) : Scheduler :=
  if s.mutex.originalPriority ≠ s.priority thread then
    rtThreadChangePriority s.scheduler thread s.mutex.originalPriority
  else s.scheduler

/-- `rt_mutex_release`. -/
def rtMutexRelease (s : MutexState) (thread : Nat) : RtErr × MutexState :=
  if s.mutex.owner ≠ some thread then (.error, s.setError thread .error)
  else
    let mutex : RtMutex := { s.mutex with hold := s.mutex.hold - 1 }
    if mutex.hold ≠ 0 then (.eok, { s with mutex })
    else
      let scheduler := restoreOwner s thread
      match mutex.suspendThread with
      | next :: _ =>
        let mutex : RtMutex := { mutex with
          owner := some next, originalPriority := (scheduler.thread next).currentPriority }
        if mutex.hold < 0xFF then
          let (scheduler, suspendThread) := ipcListResume scheduler mutex.suspendThread
          (.eok, { s with
            scheduler := rtSchedule scheduler
            mutex := { mutex with hold := mutex.hold + 1, suspendThread } })
        else (.efull, { s with scheduler, mutex })
      | [] =>
        if mutex.value < 0xFFFF then
          (.eok, { s with
            scheduler
            mutex := { mutex with
              value := mutex.value + 1, owner := none, originalPriority := 0xFF } })
        else (.efull, { s with scheduler, mutex })

/-- `rt_thread_timeout` of a thread that waits for the mutex. -/
def mutexTimeout (s : MutexState) (t : Nat) : MutexState :=
  { s with
    scheduler := rtThreadTimeout s.scheduler t
    error := Function.update s.error t .etimeout
    mutex := { s.mutex with suspendThread := s.mutex.suspendThread.filter (· ≠ t) } }

/-- `rt_thread_detach`, of a thread that may wait for the mutex. -/
def mutexDetach (s : MutexState) (t : Nat) : MutexState :=
  { s with
    scheduler := rtThreadDetach s.scheduler t
    mutex := { s.mutex with suspendThread := s.mutex.suspendThread.filter (· ≠ t) } }

/-! ## Steps -/

/-- What happens to the mutex and the threads.  `taken` is the rest of a `take` that waited. -/
inductive MutexAct where
  | take (t : Nat) (time : Int)
  | taken (t : Nat)
  | release (t : Nat)
  | timeout (t : Nat)
  | detach (t : Nat)
  | exit (t : Nat)
  | other (act : SchedulerAct)
  deriving DecidableEq, Repr

/-- What goes on outside the mutex: nobody else wakes a thread that waits for it, or sets the
priority of such a thread or of the owner.  No assertion of the source says so.  `rt_thread_resume`
of a thread that waits would let its `rt_mutex_take` return `RT_EOK` while another is the owner. -/
def SchedulerAct.outside (mutex : RtMutex) : SchedulerAct → Bool
  | .init t _ _ => mutex.owner ≠ some t
  | .startup t => mutex.owner ≠ some t
  | .resume t => t ∉ mutex.suspendThread
  | .timeout t => t ∉ mutex.suspendThread
  | .changePriority t _ => mutex.owner ≠ some t && t ∉ mutex.suspendThread
  | .detach _ => false
  | .exit => false
  | _ => true

/-- The result of a take. -/
def MutexState.takeEnds (s : MutexState) (t : Nat) : RtErr → MutexState
  | .eok => s.setTakes t (s.takes t + 1)
  | _ => s

/-- A priority that is set outside the mutex. -/
def MutexState.give (s : MutexState) (who : Option Nat) : MutexState :=
  { s with given := fun t => if who = some t then s.priority t else s.given t }

/-- One step.  Threads call while they run, and the owner does not end.

A thread that waits is not the idle one, and waits with the scheduler unlocked: `rt_mutex_take` goes
on behind a call of `rt_schedule` that does nothing, and returns `RT_EOK` without the mutex. -/
def mutexStep (idle : Nat) (s : MutexState) : MutexAct → Option MutexState
  | .take t time =>
    if s.Calls t ∧ (time = 0 ∨ t ≠ idle ∧ s.scheduler.lockNest = 0) then
      match rtMutexTake s t time with
      | (some err, s) => some (s.takeEnds t err)
      | (none, s) => some (s.setTaking t true)
    else none
  | .taken t =>
    if (s.scheduler.thread t).stat = .running ∧ s.taking t = true then
      some ((s.setTaking t false).takeEnds t (rtMutexTaken s t))
    else none
  | .release t =>
    if s.Calls t then
      match rtMutexRelease s t with
      | (.eok, s) => some (s.setTakes t (s.takes t - 1))
      | (_, s) => some s
    else none
  | .timeout t => if t ∈ s.mutex.suspendThread then some (mutexTimeout s t) else none
  | .detach t =>
    if s.mutex.owner ≠ some t ∧ t ≠ idle then some ((mutexDetach s t).setTaking t false) else none
  | .exit t =>
    if s.Calls t ∧ s.mutex.owner ≠ some t then
      (schedulerStep idle s.scheduler .exit).map fun scheduler => { s with scheduler }
    else none
  | .other act =>
    if act.outside s.mutex = true then
      (schedulerStep idle s.scheduler act).map fun scheduler =>
        ({ s with scheduler } : MutexState).give act.given
    else none

/-- A mutex behind `rt_mutex_init`, and threads that were not started. -/
def mutexStart : MutexState where
  scheduler := schedulerInit
  error _ := .eok
  mutex := rtMutexInit
  taking _ := false
  takes _ := 0
  given _ := 0

end HpmSdk.Rtt
