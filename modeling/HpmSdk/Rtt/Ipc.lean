import HpmSdk.Foundation.Agenda
import HpmSdk.Rtt.SchedulerFrame

set_option autoImplicit false

/-!
# Threads that wait for an object (`_ipc_list_suspend`, `_ipc_list_resume` in `ipc.c`)

An object has a list of the threads that wait for it.  A thread is in the list as long as it is
suspended: what wakes it takes it out.

`ByPriority` and `Waiters` say what a list of waiting threads has to be; the lemmas here are what
the mutex needs of them.
-/

namespace HpmSdk.Rtt

open Foundation

/-- The codes of `rtdef.h` that the objects return, less the sign. -/
inductive RtErr where
  | eok
  | error
  | etimeout
  | efull
  deriving DecidableEq, Repr

/-- `RT_IPC_FLAG_FIFO` and `RT_IPC_FLAG_PRIO`. -/
inductive IpcFlag where
  | fifo
  | prio
  deriving DecidableEq, Repr

/-- The place of a thread in the list: the last, or before the first thread of a lower priority. -/
def ipcListInsert (s : Scheduler) (list : List Nat) (t : Nat) : IpcFlag → List Nat
  | .fifo => list ++ [t]
  | .prio =>
    list.orderedInsert (fun a b => (s.thread a).currentPriority < (s.thread b).currentPriority) t

/-- `_ipc_list_suspend`. -/
def ipcListSuspend (s : Scheduler) (list : List Nat) (t : Nat) (flag : IpcFlag) :
    Scheduler × List Nat :=
  let s := (rtThreadSuspend s t).2
  (s, ipcListInsert s list t flag)

/-- `_ipc_list_resume`, of a list that is not empty. -/
def ipcListResume (s : Scheduler) : List Nat → Scheduler × List Nat
  | [] => (s, [])
  | t :: rest =>
    let (resumed, s) := rtThreadResume s t
    (s, if resumed then rest else t :: rest)

/-- The threads of a list wait. -/
structure Waiters (s : Scheduler) (list : List Nat) : Prop where
  waits : ∀ t ∈ list, (s.thread t).stat = .suspend
  nodup : list.Nodup

/-- A list with the priorities. -/
def withPriority (s : Scheduler) (list : List Nat) : List (Nat × Nat) :=
  list.map fun t => ((s.thread t).currentPriority, t)

/-- The list of an object with `RT_IPC_FLAG_PRIO`. -/
def ByPriority (s : Scheduler) (list : List Nat) : Prop := Sorted (withPriority s list)

section Waiters

variable {idle : Nat} {s s' : Scheduler} {t u : Nat} {list : List Nat} {flag : IpcFlag}

/-- Inserting adds one thread and keeps the others. -/
theorem ipcListInsert_perm : (ipcListInsert s list t flag).Perm (t :: list) := by
  cases flag with
  | fifo => exact List.perm_append_singleton t list
  | prio => exact List.perm_orderedInsert _ t list

theorem mem_ipcListInsert : u ∈ ipcListInsert s list t flag ↔ u = t ∨ u ∈ list :=
  ipcListInsert_perm.mem_iff.trans List.mem_cons

theorem withPriority_congr
    (h : ∀ t ∈ list, (s'.thread t).currentPriority = (s.thread t).currentPriority) :
    withPriority s' list = withPriority s list :=
  List.map_congr_left fun t ht => by rw [h t ht]

/-- The order depends on the priorities only. -/
theorem ByPriority.congr (h : ByPriority s list)
    (hpriority : ∀ t ∈ list, (s'.thread t).currentPriority = (s.thread t).currentPriority) :
    ByPriority s' list := by
  unfold ByPriority
  rw [withPriority_congr hpriority]
  exact h

/-- A thread that is inserted by its priority keeps the order. -/
theorem ByPriority.insert (h : ByPriority s list) : ByPriority s (ipcListInsert s list t .prio) := by
  have hmap := List.map_orderedInsert
    (fun a b => (s.thread a).currentPriority < (s.thread b).currentPriority)
    (fun a b : Nat × Nat => a.1 < b.1) (fun t => ((s.thread t).currentPriority, t)) list t
    (fun _ _ => Iff.rfl) fun _ _ => Iff.rfl
  unfold ByPriority withPriority
  rw [ipcListInsert, hmap]
  exact Sorted.insertBehind (e := ((s.thread t).currentPriority, t)) h

theorem ByPriority.sublist {list' : List Nat} (h : ByPriority s list) (hsub : list'.Sublist list) :
    ByPriority s list' :=
  List.Pairwise.sublist (hsub.map _) h

/-- No other thread of the list has a higher priority than the first. -/
theorem ByPriority.first {rest : List Nat} (h : ByPriority s (t :: rest)) (hu : u ∈ rest) :
    (s.thread t).currentPriority ≤ (s.thread u).currentPriority :=
  (List.pairwise_cons.mp h).1 _
    (List.mem_map_of_mem (f := fun t => ((s.thread t).currentPriority, t)) hu)

theorem Waiters.nil (s : Scheduler) : Waiters s [] :=
  ⟨fun _ ht => absurd ht List.not_mem_nil, List.nodup_nil⟩

/-- Threads that are left alone go on waiting. -/
theorem Waiters.kept (h : Waiters s list) (hkept : ∀ t ∈ list, Kept s s' t) : Waiters s' list :=
  ⟨fun t ht => (hkept t ht).waits (h.waits t ht), h.nodup⟩

theorem Waiters.sublist {list' : List Nat} (h : Waiters s list) (hsub : list'.Sublist list) :
    Waiters s list' :=
  ⟨fun t ht => h.waits t (hsub.subset ht), h.nodup.sublist hsub⟩

/-- A thread that can run does not wait. -/
theorem Waiters.not_mem (h : Waiters s list) (hrun : (s.thread t).stat.Runnable) : t ∉ list := by
  intro ht
  rw [h.waits t ht] at hrun
  exact absurd hrun (by decide)

/-- A thread that runs is suspended. -/
theorem rtThreadSuspend_runnable (hrun : (s.thread t).stat.Runnable) :
    (rtThreadSuspend s t).2 = (scheduleRemoveThread s t).setStat t .suspend := by
  rw [rtThreadSuspend, if_neg]
  rintro ⟨hready, hrunning⟩
  rcases hrun with h | h
  · exact hready h
  · exact hrunning h

/-- Waking a thread that waits puts it into its queue. -/
theorem rtThreadResume_waits (hwaits : (s.thread t).stat = .suspend) :
    rtThreadResume s t = (true, scheduleInsertThread s t) := by
  rw [rtThreadResume, if_neg (not_not.mpr hwaits)]

theorem priority_rtThreadSuspend :
    ((rtThreadSuspend s t).2.thread u).currentPriority = (s.thread u).currentPriority := by
  unfold rtThreadSuspend
  dsimp only
  split
  · rfl
  · rw [priority_setStat, thread_remove]

/-- A thread joins the list. -/
theorem Waiters.suspend (h : Waiters s list) (hrun : (s.thread t).stat.Runnable) :
    Waiters (ipcListSuspend s list t flag).1 (ipcListSuspend s list t flag).2 := by
  have hnot := h.not_mem hrun
  refine ⟨fun u hu => ?_, (ipcListInsert_perm.nodup_iff).mpr (List.nodup_cons.mpr ⟨hnot, h.nodup⟩)⟩
  rcases mem_ipcListInsert.mp hu with rfl | hwaiter
  · show ((rtThreadSuspend s u).2.thread u).stat = .suspend
    rw [rtThreadSuspend_runnable hrun, Scheduler.setStat, thread_update_self]
  · refine (kept_rtThreadSuspend ?_).waits (h.waits u hwaiter)
    rintro rfl
    exact hnot hwaiter

/-- Suspending a thread and putting it into the list keeps the order. -/
theorem ByPriority.suspend (h : ByPriority s list) :
    ByPriority (ipcListSuspend s list t .prio).1 (ipcListSuspend s list t .prio).2 :=
  (h.congr fun _ _ => priority_rtThreadSuspend).insert

/-- The first thread leaves the list and can run. -/
theorem ipcListResume_cons {rest : List Nat} (h : Waiters s (t :: rest)) :
    ipcListResume s (t :: rest) = (scheduleInsertThread s t, rest) := by
  rw [ipcListResume, rtThreadResume_waits (h.waits t List.mem_cons_self)]
  rfl

/-- Waking the first one leaves the others waiting. -/
theorem Waiters.resume {rest : List Nat} (h : Waiters s (t :: rest)) :
    Waiters (scheduleInsertThread s t) rest := by
  refine (h.sublist (List.sublist_cons_self t rest)).kept fun u hu => kept_insert ?_
  rintro rfl
  exact (List.nodup_cons.mp h.nodup).1 hu

end Waiters

end HpmSdk.Rtt
