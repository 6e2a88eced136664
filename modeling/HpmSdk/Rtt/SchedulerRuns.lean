import HpmSdk.Rtt.SchedulerSwitch

set_option autoImplicit false

/-!
# Runs of the scheduler

What threads and interrupt handlers do with threads, in any order, keeps the queues right, and
behind each step that calls `rt_schedule` a thread of the highest priority runs.  Each function has
one lemma about the invariant `SchedulerOk`; `schedulerStep_ok` puts them together, and the rule
for runs carries the invariant from `rt_system_scheduler_init` to every state that is reached.
-/

namespace HpmSdk.Rtt

open Foundation

/-- What threads and interrupt handlers do.  A function that ends in `rt_schedule` is one step. -/
inductive SchedulerAct where
  | init (t priority : Nat) (tick : BitVec 32)
  | startup (t : Nat)
  | start
  | schedule
  | resume (t : Nat)
  | suspend (t : Nat)
  | timeout (t : Nat)
  | changePriority (t priority : Nat)
  | yield
  | detach (t : Nat)
  | exit
  | enterCritical
  | exitCritical
  | tick
  deriving DecidableEq, Repr

/-- One step, where the assertions of the source hold: a thread is initialised while nothing uses it
and started once, and a timeout is one of a thread that waits.

Three conditions are not asserted in the source.  A step that looks at the current thread without a
check needs one.  The priority that a thread is given is below 32, the number of the queues.  The
idle thread is ready at the start, and neither waits nor ends. -/
def schedulerStep (idle : Nat) (s : Scheduler) : SchedulerAct → Option Scheduler
  | .init t priority tick =>
    if ((s.thread t).stat = .init ∨ (s.thread t).stat = .close) ∧ s.currentThread ≠ some t ∧
        priority < 32 then some (threadInit s t priority tick)
    else none
  | .startup t => if (s.thread t).stat = .init then some (rtThreadStartup s t) else none
  | .start =>
    if s.currentThread = none ∧ (s.thread idle).stat = .ready then some (rtSystemSchedulerStart s)
    else none
  | .schedule => if s.currentThread ≠ none then some (rtSchedule s) else none
  | .resume t => some (rtThreadResume s t).2
  | .suspend t => if t ≠ idle then some (rtThreadSuspend s t).2 else none
  | .timeout t =>
    if (s.thread t).stat = .suspend ∧ s.currentThread ≠ none then some (rtThreadTimeout s t)
    else none
  | .changePriority t priority =>
    if priority < 32 then some (rtThreadChangePriority s t priority) else none
  | .yield => if s.currentThread ≠ none then some (rtThreadYield s) else none
  | .detach t => if t ≠ idle then some (rtThreadDetach s t) else none
  | .exit =>
    if s.currentThread ≠ none ∧ s.currentThread ≠ some idle then some (threadExit s) else none
  | .enterCritical => some (rtEnterCritical s)
  | .exitCritical => some (rtExitCritical s)
  | .tick => if s.currentThread ≠ none then some (tickSlice s) else none

/-- `rt_system_scheduler_init`, with threads that were not started. -/
def schedulerInit : Scheduler where
  thread _ :=
    { stat := .init, yielded := false, initPriority := 0, currentPriority := 0, numberMask := 0,
      initTick := 0, remainingTick := 0 }
  priorityTable _ := []
  readyPriorityGroup := 0
  currentThread := none
  currentPriority := 0
  lockNest := 0

/-- The steps that end in `rt_schedule` or start the scheduler.  A tick is one of them where it uses
up the slice of the current thread. -/
def SchedulerAct.Schedules (s : Scheduler) : SchedulerAct → Prop
  | .startup _ => True
  | .schedule => True
  | .timeout _ => True
  | .yield => True
  | .exit => True
  | .exitCritical => True
  | .start => True
  | .tick => ∃ c, s.currentThread = some c ∧ (s.thread c).remainingTick = 1
  | _ => False

section Runs

variable {idle : Nat} {s s' : Scheduler} {t c : Nat}

/-- Behind the set-up no thread is ready. -/
theorem schedulerInit_ok (idle : Nat) : SchedulerOk idle schedulerInit := by
  refine ⟨⟨fun p t => ?_, fun _ => List.nodup_nil, fun p _ => ?_, fun t => ?_⟩, fun t ht => ?_,
    fun c hc => ?_, fun c hc => ?_⟩
  · exact iff_of_false List.not_mem_nil fun h => by cases h.1
  · exact BitVec.getLsbD_zero
  · exact ⟨(by decide : (0 : Nat) < 32), (by decide : (0 : Nat) < 32), Or.inr ⟨rfl, Or.inl rfl⟩⟩
  · cases ht
  · cases hc
  · cases hc

/-- A change of a thread that is neither ready nor running. -/
theorem SchedulerOk.change {f : RtThread → RtThread} (h : SchedulerOk idle s)
    (hold : (s.thread t).stat ≠ .ready) (hnew : (f (s.thread t)).stat ≠ .ready)
    (hnot : (f (s.thread t)).stat ≠ .running) (hvalid : PriorityValid (f (s.thread t)))
    (hcurrent : s.currentThread = some t → (f (s.thread t)).stat ≠ .init)
    (hidle : t = idle → s.currentThread = none) : SchedulerOk idle (s.update t f) := by
  refine ⟨h.queued.change hold hnew hvalid, fun u hu => ?_, fun u hu => ?_, fun u hu => ?_⟩
  · by_cases hut : u = t
    · subst hut
      rw [thread_update_self] at hu
      exact absurd hu hnot
    · rw [thread_update_of_ne hut] at hu
      exact h.running u hu
  · by_cases hut : u = t
    · subst hut
      rw [thread_update_self]
      exact ⟨hnew, hcurrent hu⟩
    · rw [thread_update_of_ne hut]
      exact h.current u hu
  · by_cases hut : idle = t
    · have hnone : s.currentThread = none := hidle hut.symm
      exact absurd (hu.symm.trans hnone) (Option.some_ne_none u)
    · rw [thread_update_of_ne hut]
      exact h.idle u hu

/-- What leaves the states of the threads alone. -/
theorem SchedulerOk.of_stat (h : SchedulerOk idle s) (hqueued : Queued s')
    (hcurrent : s'.currentThread = s.currentThread)
    (hstat : ∀ t, (s'.thread t).stat = (s.thread t).stat) : SchedulerOk idle s' := by
  refine ⟨hqueued, fun t ht => ?_, fun t ht => ?_, fun t ht => ?_⟩
  · rw [hcurrent]
    exact h.running t ((hstat t).symm.trans ht)
  · rw [hstat]
    exact h.current t (hcurrent.symm.trans ht)
  · rw [hstat]
    exact h.idle t (hcurrent.symm.trans ht)

/-- The ticks and the flag of a thread are changed. -/
theorem SchedulerOk.touch {f : RtThread → RtThread} (h : SchedulerOk idle s)
    (hstat : ∀ x, (f x).stat = x.stat)
    (hpriority : ∀ x, (f x).currentPriority = x.currentPriority)
    (hvalid : ∀ {x}, PriorityValid x → PriorityValid (f x)) : SchedulerOk idle (s.update t f) := by
  refine h.of_stat (h.queued.touch (hstat _) (hpriority _) (hvalid (h.queued.valid t))) rfl
    fun u => ?_
  by_cases hu : u = t
  · subst hu
    rw [thread_update_self, hstat]
  · rw [thread_update_of_ne hu]

/-- A thread that waits is ready again, or goes on where it is still the current one. -/
theorem SchedulerOk.insert (h : SchedulerOk idle s) (hsuspend : (s.thread t).stat = .suspend) :
    SchedulerOk idle (scheduleInsertThread s t) := by
  have hnotReady : (s.thread t).stat ≠ .ready := by rw [hsuspend]; decide
  have hon : ¬ (s.thread t).stat.Off := not_off_of_eq hsuspend (by decide)
  by_cases hcurrent : s.currentThread = some t
  · rw [scheduleInsertThread, if_pos hcurrent]
    have hqueued : Queued (s.setStat t .running) :=
      h.queued.change hnotReady (show ThreadStat.running ≠ .ready by decide)
        ((h.queued.valid t).setStat hon _)
    have hself : ((s.setStat t .running).thread t).stat = .running := by
      rw [Scheduler.setStat, thread_update_self]
    have hother {u : Nat} (hu : u ≠ t) : (s.setStat t .running).thread u = s.thread u :=
      thread_update_of_ne hu
    refine ⟨hqueued, fun u hu => ?_, fun u hu => ?_, fun u hu => ?_⟩
    · by_cases hut : u = t
      · rw [hut]
        exact hcurrent
      · rw [hother hut] at hu
        exact h.running u hu
    · obtain rfl : u = t := Option.some.inj (hu.symm.trans hcurrent)
      rw [hself]
      exact ⟨by decide, by decide⟩
    · by_cases hut : idle = t
      · rw [hut]
        exact Or.inr hself
      · rw [hother hut]
        exact h.idle u hu
  · refine ⟨h.queued.insert hcurrent hnotReady hon, fun u hu => ?_, fun u hu => ?_,
      fun u hu => ?_⟩
    · rw [currentThread_insert]
      by_cases hut : u = t
      · subst hut
        rw [thread_insert_self hcurrent] at hu
        cases hu
      · rw [thread_insert_of_ne hut] at hu
        exact h.running u hu
    · rw [currentThread_insert] at hu
      have hut : u ≠ t := by
        rintro rfl
        exact hcurrent hu
      rw [thread_insert_of_ne hut]
      exact h.current u hu
    · rw [currentThread_insert] at hu
      by_cases hut : idle = t
      · rw [hut, thread_insert_self hcurrent]
        exact Or.inl rfl
      · rw [thread_insert_of_ne hut]
        exact h.idle u hu

/-- A thread other than the idle one waits or ends. -/
theorem SchedulerOk.remove {f : RtThread → RtThread} (h : SchedulerOk idle s) (hne : t ≠ idle)
    (hnew : (f (s.thread t)).stat = .suspend ∨ (f (s.thread t)).stat = .close)
    (hvalid : PriorityValid (f (s.thread t))) :
    SchedulerOk idle ((scheduleRemoveThread s t).update t f) := by
  have hnot (stat : ThreadStat) (hs : stat ≠ .suspend) (hc : stat ≠ .close) :
      (f (s.thread t)).stat ≠ stat := by
    rcases hnew with h | h
    · rw [h]
      exact hs.symm
    · rw [h]
      exact hc.symm
  have hself : ((scheduleRemoveThread s t).update t f).thread t = f (s.thread t) := by
    rw [thread_update_self, thread_remove]
  have hother {u : Nat} (hu : u ≠ t) :
      ((scheduleRemoveThread s t).update t f).thread u = s.thread u := by
    rw [thread_update_of_ne hu, thread_remove]
  have hcurrent : ((scheduleRemoveThread s t).update t f).currentThread = s.currentThread :=
    currentThread_remove
  refine ⟨h.queued.remove (hnot _ (by decide) (by decide)) hvalid, fun u hu => ?_, fun u hu => ?_,
    fun u hu => ?_⟩
  · rw [hcurrent]
    by_cases hut : u = t
    · subst hut
      rw [hself] at hu
      exact absurd hu (hnot _ (by decide) (by decide))
    · rw [hother hut] at hu
      exact h.running u hu
  · rw [hcurrent] at hu
    by_cases hut : u = t
    · subst hut
      rw [hself]
      exact ⟨hnot _ (by decide) (by decide), hnot _ (by decide) (by decide)⟩
    · rw [hother hut]
      exact h.current u hu
  · rw [hcurrent] at hu
    rw [hother hne.symm]
    exact h.idle u hu

/-- The state of a thread that is put into a queue is not looked at. -/
theorem insert_setStat (hcurrent : s.currentThread ≠ some t) (stat : ThreadStat) :
    scheduleInsertThread (s.setStat t stat) t = scheduleInsertThread s t := by
  have hsame : (s.setStat t stat).currentThread ≠ some t := hcurrent
  rw [scheduleInsertThread, scheduleInsertThread, if_neg hsame, if_neg hcurrent]
  simp [Scheduler.setStat, Scheduler.update]

/-! ## Steps -/

theorem lockNest_rtSchedule (s : Scheduler) : (rtSchedule s).lockNest = s.lockNest := by
  have hun (c : Nat) (P : Prop) [Decidable P] :
      (if P then s.update c fun x => { x with yielded := false } else s).lockNest = s.lockNest := by
    split <;> rfl
  have hstay (s : Scheduler) (c : Nat) :
      ((scheduleRemoveThread s c).setStat c .running).lockNest = s.lockNest := lockNest_remove
  unfold rtSchedule
  split
  · dsimp only
    split
    · rfl
    · rw [apply_ite Scheduler.lockNest, lockNest_switchTo, hstay, ite_self, hun]
  · rfl

/-- What is promised behind a call of `rt_schedule`: where the scheduler is started and not locked,
a thread of the highest priority runs. -/
def Scheduled (s : Scheduler) : Prop := s.currentThread ≠ none → s.lockNest = 0 → RunsHighest s

/-- `rt_schedule` keeps the queues right and puts a thread of the highest priority on the processor.
-/
theorem SchedulerOk.scheduled (h : SchedulerOk idle s) :
    SchedulerOk idle (rtSchedule s) ∧ Scheduled (rtSchedule s) := by
  cases hc : s.currentThread with
  | none =>
    have hnone : rtSchedule s = s := by rw [rtSchedule, hc]
    rw [hnone]
    exact ⟨h, fun hstarted => absurd hc hstarted⟩
  | some c =>
    have hscheduled := rtSchedule_ok h hc
    rw [← lockNest_rtSchedule] at hscheduled
    exact ⟨hscheduled.1, fun _ => hscheduled.2⟩

/-- A thread that is neither ready nor running is not the idle thread behind the start. -/
theorem SchedulerOk.not_started (h : SchedulerOk idle s) (hready : (s.thread idle).stat ≠ .ready)
    (hrunning : (s.thread idle).stat ≠ .running) : s.currentThread = none := by
  cases hc : s.currentThread with
  | none => rfl
  | some c => exact absurd (h.idle c hc) (not_or.mpr ⟨hready, hrunning⟩)

/-- A thread that is set up is in no queue. -/
theorem threadInit_ok (h : SchedulerOk idle s)
    (hstat : (s.thread t).stat = .init ∨ (s.thread t).stat = .close)
    (hcurrent : s.currentThread ≠ some t) {priority : Nat} (hpriority : priority < 32)
    (tick : BitVec 32) : SchedulerOk idle (threadInit s t priority tick) := by
  have hnot (stat : ThreadStat) (hinit : stat ≠ .init) (hclose : stat ≠ .close) :
      (s.thread t).stat ≠ stat := by
    rcases hstat with hstat | hstat
    · rw [hstat]
      exact hinit.symm
    · rw [hstat]
      exact hclose.symm
  have hready := hnot .ready (by decide) (by decide)
  have hrunning := hnot .running (by decide) (by decide)
  refine h.change hready (show ThreadStat.init ≠ .ready by decide)
    (show ThreadStat.init ≠ .running by decide) ⟨hpriority, hpriority, Or.inr ⟨rfl, Or.inl rfl⟩⟩
    (fun heq => absurd heq hcurrent) ?_
  rintro rfl
  exact h.not_started hready hrunning

/-- Waking a thread puts it into the queue of its priority. -/
theorem rtThreadResume_ok (h : SchedulerOk idle s) (t : Nat) :
    SchedulerOk idle (rtThreadResume s t).2 := by
  unfold rtThreadResume
  split
  · exact h
  · rename_i hsuspend
    exact h.insert (not_not.mp hsuspend)

/-- Suspending takes a thread out of its queue; the idle thread never waits. -/
theorem rtThreadSuspend_ok (h : SchedulerOk idle s) (ht : t ≠ idle) :
    SchedulerOk idle (rtThreadSuspend s t).2 := by
  unfold rtThreadSuspend
  dsimp only
  split
  · exact h
  · rename_i hstat
    have hon : ¬ (s.thread t).stat.Off := by
      rintro (hinit | hclose)
      · exact hstat (by rw [hinit]; decide)
      · exact hstat (by rw [hclose]; decide)
    exact h.remove (f := fun x => { x with stat := .suspend }) ht (Or.inl rfl)
      ((h.queued.valid t).setStat hon _)

/-- A thread that is started waits for the processor. -/
theorem SchedulerOk.started (h : SchedulerOk idle s) (hinit : (s.thread t).stat = .init) :
    SchedulerOk idle (s.update t fun x =>
      { x with
        currentPriority := x.initPriority, numberMask := (1 : BitVec 32) <<< x.initPriority
        stat := .suspend
        yielded := false }) := by
  refine h.change ?_ ?_ ?_ ?_ ?_ ?_
  · rw [hinit]
    decide
  · exact (show ThreadStat.suspend ≠ .ready by decide)
  · exact (show ThreadStat.suspend ≠ .running by decide)
  · exact ⟨(h.queued.valid t).init, (h.queued.valid t).init, Or.inl rfl⟩
  · exact fun _ => (show ThreadStat.suspend ≠ .init by decide)
  · rintro rfl
    exact h.not_started (by rw [hinit]; decide) (by rw [hinit]; decide)

/-- A thread that is started is woken, and the scheduler called. -/
theorem rtThreadStartup_ok (h : SchedulerOk idle s) (hinit : (s.thread t).stat = .init) :
    SchedulerOk idle (rtThreadStartup s t) ∧ Scheduled (rtThreadStartup s t) :=
  (rtThreadResume_ok (h.started hinit) t).scheduled

/-- A ready thread changes its queue with its priority. -/
theorem rtThreadChangePriority_ok (h : SchedulerOk idle s) {priority : Nat}
    (hpriority : priority < 32) : SchedulerOk idle (rtThreadChangePriority s t priority) := by
  have hvalid (x : RtThread) (hx : PriorityValid x) (stat : ThreadStat) :
      PriorityValid { x with
        currentPriority := priority, numberMask := (1 : BitVec 32) <<< priority, stat } :=
    ⟨hx.init, hpriority, Or.inl rfl⟩
  unfold rtThreadChangePriority
  dsimp only
  split
  · rename_i hready
    have hcurrent : s.currentThread ≠ some t := fun hc => (h.current t hc).1 hready
    let changed := (scheduleRemoveThread s t).update t fun x => { x with
      currentPriority := priority, numberMask := (1 : BitVec 32) <<< priority }
    let waiting := (scheduleRemoveThread s t).update t fun x => { x with
      currentPriority := priority, numberMask := (1 : BitVec 32) <<< priority, stat := .suspend }
    have hchanged : changed.currentThread ≠ some t := currentThread_remove.trans_ne hcurrent
    have hsame : scheduleInsertThread changed t = scheduleInsertThread waiting t := by
      have hwait : changed.setStat t .suspend = waiting := by
        simp [changed, waiting, Scheduler.setStat, Scheduler.update]
      rw [← hwait, insert_setStat hchanged]
    have hwaiting : waiting.thread t = { s.thread t with
        currentPriority := priority, numberMask := (1 : BitVec 32) <<< priority
        stat := .suspend } := by
      rw [thread_update_self, thread_remove]
    have hqueued : Queued waiting :=
      h.queued.remove (show ThreadStat.suspend ≠ .ready by decide)
        (hvalid _ (h.queued.valid t) .suspend)
    have hnot : waiting.currentThread ≠ some t := currentThread_remove.trans_ne hcurrent
    show SchedulerOk idle (scheduleInsertThread changed t)
    rw [hsame]
    refine h.of_stat (hqueued.insert hnot ?_ ?_) (currentThread_insert.trans currentThread_remove)
      fun u => ?_
    · rw [hwaiting]
      exact (show ThreadStat.suspend ≠ .ready by decide)
    · rw [hwaiting]
      exact not_or.mpr ⟨show ThreadStat.suspend ≠ .init by decide,
        show ThreadStat.suspend ≠ .close by decide⟩
    · by_cases hu : u = t
      · subst hu
        rw [thread_insert_self hnot, hready]
      · rw [thread_insert_of_ne hu, thread_update_of_ne hu, thread_remove]
  · rename_i hnot
    refine h.of_stat (h.queued.change hnot hnot (hvalid _ (h.queued.valid t) _)) rfl fun u => ?_
    by_cases hu : u = t
    · subst hu
      rw [thread_update_self]
    · rw [thread_update_of_ne hu]

/-- A thread that ends. -/
theorem PriorityValid.close {x : RtThread} (h : PriorityValid x) :
    PriorityValid { x with stat := .close, yielded := false } :=
  ⟨h.init, h.current, h.mask.imp id fun hoff => ⟨hoff.1, Or.inr rfl⟩⟩

/-- A thread that is ended is in no queue. -/
theorem rtThreadDetach_ok (h : SchedulerOk idle s) (ht : t ≠ idle) :
    SchedulerOk idle (rtThreadDetach s t) := by
  unfold rtThreadDetach
  split
  · exact h
  · dsimp only
    by_cases hinit : (s.thread t).stat = .init
    · rw [if_neg (not_not.mpr hinit)]
      exact h.change (by rw [hinit]; decide) (show ThreadStat.close ≠ .ready by decide)
        (show ThreadStat.close ≠ .running by decide) (h.queued.valid t).close
        (fun _ => (show ThreadStat.close ≠ .init by decide)) (fun heq => absurd heq ht)
    · rw [if_pos hinit]
      exact h.remove ht (Or.inr rfl) (h.queued.valid t).close

/-- The first thread of the highest priority is the first to run. -/
theorem rtSystemSchedulerStart_ok (h : SchedulerOk idle s) (hnone : s.currentThread = none)
    (hidle : (s.thread idle).stat = .ready) :
    SchedulerOk idle (rtSystemSchedulerStart s) ∧ RunsHighest (rtSystemSchedulerStart s) := by
  obtain ⟨first, rest, p, htable, hhighest, -, hleast⟩ := h.queued.highest hidle
  obtain ⟨hfirst, hpriority⟩ := (h.queued.mem p first).mp (htable ▸ List.mem_cons_self)
  let entered : Scheduler := { s with currentThread := some first }
  have hentered : Queued entered :=
    ⟨h.queued.mem, h.queued.nodup, h.queued.group, h.queued.valid⟩
  have hstart : rtSystemSchedulerStart s = (scheduleRemoveThread entered first).update first
      fun x => { x with stat := .running, yielded := false } := by
    rw [rtSystemSchedulerStart, hhighest]
  have hself : ((rtSystemSchedulerStart s).thread first) =
      { s.thread first with stat := .running, yielded := false } := by
    rw [hstart, thread_update_self, thread_remove]
  have hother {u : Nat} (hu : u ≠ first) : (rtSystemSchedulerStart s).thread u = s.thread u := by
    rw [hstart, thread_update_of_ne hu, thread_remove]
  have hcurrent : (rtSystemSchedulerStart s).currentThread = some first := by
    rw [hstart]
    exact currentThread_remove
  have hvalid := h.queued.valid first
  have hqueued : Queued (rtSystemSchedulerStart s) := by
    rw [hstart]
    exact hentered.remove (show ThreadStat.running ≠ .ready by decide) ⟨hvalid.init, hvalid.current,
      Or.inl (hvalid.mask.resolve_right fun hoff => not_off_of_eq hfirst (by decide) hoff.2)⟩
  refine ⟨⟨hqueued, fun u hu => ?_, fun u hu => ?_, fun u _ => ?_⟩, first, hcurrent, ?_,
    fun u hu => ?_⟩
  · rw [hcurrent]
    by_cases huf : u = first
    · rw [huf]
    · rw [hother huf] at hu
      have hsome := h.running u hu
      rw [hnone] at hsome
      cases hsome
  · obtain rfl : u = first := Option.some.inj (hu.symm.trans hcurrent)
    rw [hself]
    exact ⟨show ThreadStat.running ≠ .ready by decide, show ThreadStat.running ≠ .init by decide⟩
  · by_cases hif : idle = first
    · rw [hif, hself]
      exact Or.inr rfl
    · rw [hother hif]
      exact Or.inl hidle
  · rw [hself]
  · rw [hself]
    show (s.thread first).currentPriority ≤ _
    rw [hpriority]
    by_cases huf : u = first
    · rw [huf, hself] at hu
      cases hu
    · rw [hother huf] at hu ⊢
      exact hleast u hu

/-- Locking changes no queue. -/
theorem SchedulerOk.lock (h : SchedulerOk idle s) (n : Nat) :
    SchedulerOk idle { s with lockNest := n } :=
  ⟨⟨h.queued.mem, h.queued.nodup, h.queued.group, h.queued.valid⟩, h.running, h.current, h.idle⟩

/-- Neither do the ticks of a slice. -/
theorem SchedulerOk.tick (h : SchedulerOk idle s) (t : Nat) (ticks : RtThread → BitVec 32)
    (yielded : RtThread → Bool) :
    SchedulerOk idle (s.update t fun x =>
      { x with remainingTick := ticks x, yielded := yielded x }) :=
  h.touch (fun _ => rfl) (fun _ => rfl) fun hx => ⟨hx.init, hx.current, hx.mask⟩

/-- Yielding calls the scheduler. -/
theorem rtThreadYield_ok (h : SchedulerOk idle s) :
    SchedulerOk idle (rtThreadYield s) ∧ Scheduled (rtThreadYield s) := by
  unfold rtThreadYield
  split
  · rename_i hnone
    exact ⟨h, fun hstarted => absurd hnone hstarted⟩
  · rename_i t ht
    exact (h.tick t (fun x => x.initTick) fun _ => true).scheduled

/-- The current thread ends. -/
theorem SchedulerOk.closed (h : SchedulerOk idle s) (hidle : s.currentThread ≠ some idle)
    (ht : s.currentThread = some t) :
    SchedulerOk idle ((scheduleRemoveThread s t).update t fun x =>
      { x with stat := .close, yielded := false }) := by
  have hne : t ≠ idle := by
    rintro rfl
    exact hidle ht
  exact h.remove hne (Or.inr rfl) (h.queued.valid t).close

/-- A thread that ends leaves the processor to another one; the idle thread is there if no other one
is. -/
theorem threadExit_ok (h : SchedulerOk idle s) (hidle : s.currentThread ≠ some idle) :
    SchedulerOk idle (threadExit s) ∧ Scheduled (threadExit s) := by
  unfold threadExit
  split
  · rename_i hnone
    exact ⟨h, fun hstarted => absurd hnone hstarted⟩
  · rename_i t ht
    exact (h.closed hidle ht).scheduled

/-- The last unlock calls the scheduler, and any other one leaves it locked. -/
theorem rtExitCritical_ok (h : SchedulerOk idle s) :
    SchedulerOk idle (rtExitCritical s) ∧ Scheduled (rtExitCritical s) := by
  unfold rtExitCritical
  dsimp only
  split
  · exact (h.lock _).scheduled
  · rename_i hlocked
    exact ⟨h.lock _, fun _ hopen => absurd hopen hlocked⟩

/-- A tick that uses the slice up calls the scheduler, and any other one only counts. -/
theorem tickSlice_ok (h : SchedulerOk idle s) :
    SchedulerOk idle (tickSlice s) ∧
      (SchedulerAct.tick.Schedules s → Scheduled (tickSlice s)) := by
  unfold tickSlice
  split
  · rename_i hnone
    exact ⟨h, fun _ hstarted => absurd hnone hstarted⟩
  · rename_i t ht
    have hticked := h.tick t (fun x => x.remainingTick - 1) fun x => x.yielded
    dsimp only
    split
    · have hyielded := hticked.tick t (fun x => x.initTick) fun _ => true
      exact ⟨hyielded.scheduled.1, fun _ => hyielded.scheduled.2⟩
    · rename_i hleft
      refine ⟨hticked, ?_⟩
      rintro ⟨c, hc, hlast⟩
      obtain rfl : t = c := Option.some.inj (ht.symm.trans hc)
      rw [thread_update_self] at hleft
      refine absurd ?_ hleft
      show (s.thread t).remainingTick - 1 = 0
      rw [hlast]
      rfl

/-- Every step keeps the queues right, and behind the ones that call `rt_schedule` a thread of the
highest priority runs. -/
theorem schedulerStep_ok (h : SchedulerOk idle s) {act : SchedulerAct}
    (hstep : schedulerStep idle s act = some s') :
    SchedulerOk idle s' ∧ (act.Schedules s → Scheduled s') := by
  cases act with
  | init t priority tick =>
    obtain ⟨⟨hstat, hcurrent, hpriority⟩, hs⟩ := Option.ite_none_right_eq_some.mp hstep
    obtain rfl := Option.some.inj hs
    exact ⟨threadInit_ok h hstat hcurrent hpriority tick, False.elim⟩
  | startup t =>
    obtain ⟨hinit, hs⟩ := Option.ite_none_right_eq_some.mp hstep
    obtain rfl := Option.some.inj hs
    have hok := rtThreadStartup_ok h hinit
    exact ⟨hok.1, fun _ => hok.2⟩
  | start =>
    obtain ⟨⟨hnone, hidle⟩, hs⟩ := Option.ite_none_right_eq_some.mp hstep
    obtain rfl := Option.some.inj hs
    have hok := rtSystemSchedulerStart_ok h hnone hidle
    exact ⟨hok.1, fun _ _ _ => hok.2⟩
  | schedule =>
    obtain ⟨-, hs⟩ := Option.ite_none_right_eq_some.mp hstep
    obtain rfl := Option.some.inj hs
    exact ⟨h.scheduled.1, fun _ => h.scheduled.2⟩
  | resume t =>
    obtain rfl := Option.some.inj hstep
    exact ⟨rtThreadResume_ok h t, False.elim⟩
  | suspend t =>
    obtain ⟨ht, hs⟩ := Option.ite_none_right_eq_some.mp hstep
    obtain rfl := Option.some.inj hs
    exact ⟨rtThreadSuspend_ok h ht, False.elim⟩
  | timeout t =>
    obtain ⟨⟨hsuspend, -⟩, hs⟩ := Option.ite_none_right_eq_some.mp hstep
    obtain rfl := Option.some.inj hs
    have hok := (h.insert hsuspend).scheduled
    exact ⟨hok.1, fun _ => hok.2⟩
  | changePriority t priority =>
    obtain ⟨hpriority, hs⟩ := Option.ite_none_right_eq_some.mp hstep
    obtain rfl := Option.some.inj hs
    exact ⟨rtThreadChangePriority_ok h hpriority, False.elim⟩
  | yield =>
    obtain ⟨-, hs⟩ := Option.ite_none_right_eq_some.mp hstep
    obtain rfl := Option.some.inj hs
    exact ⟨(rtThreadYield_ok h).1, fun _ => (rtThreadYield_ok h).2⟩
  | detach t =>
    obtain ⟨ht, hs⟩ := Option.ite_none_right_eq_some.mp hstep
    obtain rfl := Option.some.inj hs
    exact ⟨rtThreadDetach_ok h ht, False.elim⟩
  | exit =>
    obtain ⟨⟨-, hidle⟩, hs⟩ := Option.ite_none_right_eq_some.mp hstep
    obtain rfl := Option.some.inj hs
    exact ⟨(threadExit_ok h hidle).1, fun _ => (threadExit_ok h hidle).2⟩
  | enterCritical =>
    obtain rfl := Option.some.inj hstep
    exact ⟨h.lock _, False.elim⟩
  | exitCritical =>
    obtain rfl := Option.some.inj hstep
    exact ⟨(rtExitCritical_ok h).1, fun _ => (rtExitCritical_ok h).2⟩
  | tick =>
    obtain ⟨-, hs⟩ := Option.ite_none_right_eq_some.mp hstep
    obtain rfl := Option.some.inj hs
    exact tickSlice_ok h

end Runs

/-- Whatever threads and handlers do, in any order, as long as the assertions of the source hold,
there is a current thread where it is used, and the idle thread goes on: every thread that is ready
is in the queue of its priority once, and the bits tell the queues that are not empty; only the
current thread is running; and behind each step that calls `rt_schedule`, where the scheduler is not
locked, the current thread is running and no thread of a higher priority is ready.

Every function keeps `SchedulerOk`, so `rt_schedule` always finds the idle thread ready or running;
its choice by `__rt_ffs` is then the least priority of a thread that is ready. -/
theorem scheduler_runs_highest (idle : Nat) {acts : List SchedulerAct} {act : SchedulerAct}
    {s s' : Scheduler} (hrun : run (schedulerStep idle) schedulerInit acts = some s)
    (hstep : schedulerStep idle s act = some s') :
    Queued s' ∧ (∀ t, (s'.thread t).stat = .running → s'.currentThread = some t) ∧
      (act.Schedules s → s'.currentThread ≠ none → s'.lockNest = 0 → RunsHighest s') := by
  have hok : SchedulerOk idle s :=
    run_invariant (fun _ _ _ hs hstep => (schedulerStep_ok hs hstep).1) acts _ _
      (schedulerInit_ok idle) hrun
  obtain ⟨hok', hscheduled⟩ := schedulerStep_ok hok hstep
  exact ⟨hok'.queued, hok'.running, hscheduled⟩

/-- The second tick uses up the slice of thread 1, and thread 2 of the same priority runs. -/
theorem scheduler_runs_highest_tick :
    ∃ s s', run (schedulerStep 0) schedulerInit
        [.init 0 31 5, .init 1 10 2, .init 2 10 3, .startup 0, .startup 1, .startup 2, .start,
          .tick] = some s ∧
      schedulerStep 0 s .tick = some s' ∧ s'.currentThread = some 2 ∧ Queued s' ∧
      RunsHighest s' := by
  refine ⟨_, _, rfl, rfl, rfl, ?_⟩
  have hall := scheduler_runs_highest 0 (show run (schedulerStep 0) schedulerInit
    [.init 0 31 5, .init 1 10 2, .init 2 10 3, .startup 0, .startup 1, .startup 2, .start, .tick] =
      some _ from rfl) (show schedulerStep 0 _ .tick = some _ from rfl)
  exact ⟨hall.1, hall.2.2 ⟨1, rfl, rfl⟩ (by decide) rfl⟩

end HpmSdk.Rtt
