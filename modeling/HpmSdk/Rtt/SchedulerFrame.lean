import HpmSdk.Rtt.SchedulerRuns

set_option autoImplicit false

/-!
# What the scheduler leaves alone

A switch changes which of the threads that can run does run.  It leaves every priority and every
thread that waits.

`Kept` is what a step leaves of a thread that it is not about; every function has its lemma, and
`schedulerStep_kept` puts them together.
-/

namespace HpmSdk.Rtt

open Foundation

/-- A thread in this state runs as soon as the scheduler chooses it. -/
def ThreadStat.Runnable (stat : ThreadStat) : Prop := stat = .ready ∨ stat = .running

instance (stat : ThreadStat) : Decidable stat.Runnable :=
  inferInstanceAs (Decidable (stat = .ready ∨ stat = .running))

/-- The priority of a thread is the same, and its state as well unless it is switched to or left. -/
structure Kept (s s' : Scheduler) (t : Nat) : Prop where
  priority : (s'.thread t).currentPriority = (s.thread t).currentPriority
  stat : (s'.thread t).stat = (s.thread t).stat ∨
    (s.thread t).stat.Runnable ∧ (s'.thread t).stat.Runnable

/-- The thread whose priority a step sets. -/
def SchedulerAct.given : SchedulerAct → Option Nat
  | .init t _ _ => some t
  | .startup t => some t
  | .changePriority t _ => some t
  | _ => none

/-- The step is about one thread. -/
def SchedulerAct.Targets (s : Scheduler) (t : Nat) : SchedulerAct → Prop
  | .init u _ _ => u = t
  | .startup u => u = t
  | .resume u => u = t
  | .suspend u => u = t
  | .timeout u => u = t
  | .changePriority u _ => u = t
  | .detach u => u = t
  | .exit => s.currentThread = some t
  | _ => False

/-- The step ends the wait of a thread, or changes its priority. -/
def SchedulerAct.Wakes (s : Scheduler) (t : Nat) : SchedulerAct → Prop
  | .resume u => u = t
  | .timeout u => u = t
  | .changePriority u _ => u = t
  | .detach u => u = t
  | .exit => s.currentThread = some t
  | _ => False

section Kept

variable {idle : Nat} {s mid s' : Scheduler} {t u : Nat}

theorem Kept.refl (s : Scheduler) (t : Nat) : Kept s s t := ⟨rfl, Or.inl rfl⟩

theorem Kept.of_thread (h : s'.thread t = s.thread t) : Kept s s' t := by
  refine ⟨?_, Or.inl ?_⟩
  · rw [h]
  · rw [h]

/-- A thread that is left alone twice is left alone. -/
theorem Kept.trans (h : Kept s mid t) (h' : Kept mid s' t) : Kept s s' t := by
  refine ⟨h'.priority.trans h.priority, ?_⟩
  rcases h'.stat with hsame' | ⟨hmid, hto⟩
  · rw [hsame']
    exact h.stat
  · rcases h.stat with hsame | ⟨hfrom, -⟩
    · exact Or.inr ⟨hsame ▸ hmid, hto⟩
    · exact Or.inr ⟨hfrom, hto⟩

/-- A thread that waits goes on waiting. -/
theorem Kept.waits (h : Kept s s' t) (hwaits : (s.thread t).stat = .suspend) :
    (s'.thread t).stat = .suspend := by
  rcases h.stat with hsame | ⟨hfrom, -⟩
  · exact hsame.trans hwaits
  · rw [hwaits] at hfrom
    exact absurd hfrom (by decide)

/-- A thread that could run still can. -/
theorem Kept.runnable (h : Kept s s' t) (hrun : (s.thread t).stat.Runnable) :
    (s'.thread t).stat.Runnable := by
  rcases h.stat with hsame | ⟨-, hto⟩
  · rw [hsame]
    exact hrun
  · exact hto

/-- A field other than the priority and the state is changed. -/
theorem Kept.touch {f : RtThread → RtThread}
    (hpriority : ∀ x, (f x).currentPriority = x.currentPriority) (hstat : ∀ x, (f x).stat = x.stat) :
    Kept s (s.update u f) t := by
  by_cases ht : t = u
  · subst ht
    refine ⟨?_, Or.inl ?_⟩
    · rw [thread_update_self, hpriority]
    · rw [thread_update_self, hstat]
  · exact .of_thread (thread_update_of_ne ht)

/-- A switch makes one thread that can run of another. -/
theorem kept_switchTo {c first p : Nat} {insert : Bool} (hne : first ≠ c)
    (hfirst : (s.thread first).stat = .ready)
    (hc : insert = true → (s.thread c).stat = .running) :
    Kept s (switchTo s c first p insert) t := by
  have hthread : (switchTo s c first p insert).thread t = _ := thread_switchTo hne t
  by_cases ht : t = first
  · subst ht
    rw [if_pos rfl] at hthread
    refine ⟨?_, Or.inr ⟨Or.inl hfirst, ?_⟩⟩
    · rw [hthread]
    · rw [hthread]
      exact Or.inr rfl
  · rw [if_neg ht] at hthread
    split at hthread
    · rename_i hleft
      obtain ⟨rfl, hinsert⟩ := hleft
      refine ⟨?_, Or.inr ⟨Or.inr (hc hinsert), ?_⟩⟩
      · rw [hthread]
      · rw [hthread]
        exact Or.inl rfl
    · exact .of_thread hthread

/-- `rt_schedule` leaves alone every thread, as far as `Kept` looks. -/
theorem kept_rtSchedule (h : SchedulerOk idle s) (t : Nat) : Kept s (rtSchedule s) t := by
  cases hc : s.currentThread with
  | none =>
    rw [show rtSchedule s = s by rw [rtSchedule, hc]]
    exact .refl s t
  | some c =>
    by_cases hopen : s.lockNest ≠ 0 ∨ s.readyPriorityGroup = 0
    · rw [rtSchedule_none hopen]
      exact .refl s t
    · obtain ⟨ready, hready⟩ : ∃ t, (s.thread t).stat = .ready := by
        by_contra hnone
        exact hopen (Or.inr (h.queued.group_eq_zero fun t ht => hnone ⟨t, ht⟩))
      obtain ⟨first, rest, p, htable, hhighest, -, -⟩ := h.queued.highest hready
      have hfirst := ((h.queued.mem p first).mp (htable ▸ List.mem_cons_self)).1
      have hne : first ≠ c := by
        rintro rfl
        exact (h.current first hc).1 hfirst
      have hun : Kept s (unyield s c) t := .touch (fun _ => rfl) fun _ => rfl
      by_cases hrun : (s.thread c).stat = .running
      · have hunRun : ((unyield s c).thread c).stat = .running := (thread_unyield c).1.trans hrun
        cases hstays : staysCurrent (s.thread c) p with
        | true =>
          rw [rtSchedule_stays hc hhighest hopen hrun hstays]
          refine hun.trans ?_
          by_cases ht : t = c
          · subst ht
            rw [Scheduler.setStat]
            refine ⟨?_, Or.inl ?_⟩
            · rw [thread_update_self, thread_remove]
            · rw [thread_update_self]
              exact hunRun.symm
          · refine .of_thread ?_
            rw [Scheduler.setStat, thread_update_of_ne ht, thread_remove]
        | false =>
          rw [rtSchedule_switches hc hhighest hopen hne hrun hstays]
          exact hun.trans (kept_switchTo hne ((thread_unyield first).1.trans hfirst) fun _ => hunRun)
      · rw [rtSchedule_leaves hc hhighest hopen hne hrun]
        exact kept_switchTo hne hfirst fun hf => by cases hf

/-- The ticks and the flag of a thread are changed, and the scheduler is called. -/
theorem kept_tick (h : SchedulerOk idle s) (ticks : RtThread → BitVec 32) (yielded : RtThread → Bool) :
    Kept s (rtSchedule (s.update u fun x =>
      { x with remainingTick := ticks x, yielded := yielded x })) t :=
  (Kept.touch (f := fun x => { x with remainingTick := ticks x, yielded := yielded x })
    (fun _ => rfl) fun _ => rfl).trans (kept_rtSchedule (h.tick u ticks yielded) t)

theorem kept_insert (h : t ≠ u) : Kept s (scheduleInsertThread s u) t :=
  .of_thread (thread_insert_of_ne h)

theorem kept_remove {f : RtThread → RtThread} (h : t ≠ u) :
    Kept s ((scheduleRemoveThread s u).update u f) t := by
  refine .of_thread ?_
  rw [thread_update_of_ne h, thread_remove]

/-- Waking a thread leaves the others alone. -/
theorem kept_rtThreadResume (h : t ≠ u) : Kept s (rtThreadResume s u).2 t := by
  unfold rtThreadResume
  split
  · exact .refl s t
  · exact kept_insert h

/-- Suspending a thread leaves the others alone. -/
theorem kept_rtThreadSuspend (h : t ≠ u) : Kept s (rtThreadSuspend s u).2 t := by
  unfold rtThreadSuspend
  dsimp only
  split
  · exact .refl s t
  · exact kept_remove (f := fun x => { x with stat := .suspend }) h

/-- A change of priority leaves the others alone. -/
theorem kept_rtThreadChangePriority {priority : Nat} (h : t ≠ u) :
    Kept s (rtThreadChangePriority s u priority) t := by
  unfold rtThreadChangePriority
  dsimp only
  split
  · exact (kept_remove h).trans (kept_insert h)
  · exact .of_thread (thread_update_of_ne h)

/-- Ending a thread leaves the others alone. -/
theorem kept_rtThreadDetach (h : t ≠ u) : Kept s (rtThreadDetach s u) t := by
  unfold rtThreadDetach
  split
  · exact .refl s t
  · dsimp only
    split
    · exact kept_remove h
    · exact .of_thread (thread_update_of_ne h)

/-- Starting a thread may switch to it. -/
theorem kept_rtThreadStartup (h : SchedulerOk idle s) (hinit : (s.thread u).stat = .init)
    (hne : t ≠ u) : Kept s (rtThreadStartup s u) t :=
  (Kept.of_thread (thread_update_of_ne hne)).trans ((kept_rtThreadResume hne).trans
    (kept_rtSchedule (rtThreadResume_ok (h.started hinit) u) t))

/-- The thread that is the first to run was ready, and no other is changed. -/
theorem kept_rtSystemSchedulerStart (h : SchedulerOk idle s)
    (hidle : (s.thread idle).stat = .ready) (t : Nat) : Kept s (rtSystemSchedulerStart s) t := by
  obtain ⟨first, rest, p, htable, hhighest, -, -⟩ := h.queued.highest hidle
  have hfirst := ((h.queued.mem p first).mp (htable ▸ List.mem_cons_self)).1
  rw [rtSystemSchedulerStart, hhighest]
  by_cases hne : t = first
  · subst hne
    refine ⟨?_, Or.inr ⟨Or.inl hfirst, ?_⟩⟩
    · rw [thread_update_self, thread_remove]
    · rw [thread_update_self]
      exact Or.inr rfl
  · exact .of_thread (by rw [thread_update_of_ne hne, thread_remove])

/-- A thread whose time is over is woken, and may get the processor. -/
theorem kept_rtThreadTimeout (h : SchedulerOk idle s) (hsuspend : (s.thread u).stat = .suspend)
    (hne : t ≠ u) : Kept s (rtThreadTimeout s u) t :=
  (kept_insert hne).trans (kept_rtSchedule (h.insert hsuspend) t)

/-- Yielding only hands the processor on. -/
theorem kept_rtThreadYield (h : SchedulerOk idle s) (t : Nat) : Kept s (rtThreadYield s) t := by
  unfold rtThreadYield
  split
  · exact .refl s t
  · exact kept_tick h (fun x => x.initTick) fun _ => true

/-- Only the current thread ends. -/
theorem kept_threadExit (h : SchedulerOk idle s) (hidle : s.currentThread ≠ some idle)
    (hne : s.currentThread ≠ some t) : Kept s (threadExit s) t := by
  unfold threadExit
  split
  · exact .refl s t
  · rename_i c hc
    have htc : t ≠ c := by
      rintro rfl
      exact hne hc
    exact (kept_remove htc).trans (kept_rtSchedule (h.closed hidle hc) t)

/-- Unlocking may switch, and nothing more. -/
theorem kept_rtExitCritical (h : SchedulerOk idle s) (t : Nat) :
    Kept s (rtExitCritical s) t := by
  unfold rtExitCritical
  dsimp only
  split
  · have hunlocked : Kept s { s with lockNest := s.lockNest - 1 } t := .of_thread rfl
    exact hunlocked.trans (kept_rtSchedule (h.lock (s.lockNest - 1)) t)
  · exact .of_thread rfl

/-- A tick counts a slice down, and may switch. -/
theorem kept_tickSlice (h : SchedulerOk idle s) (t : Nat) : Kept s (tickSlice s) t := by
  unfold tickSlice
  split
  · exact .refl s t
  · rename_i c hc
    have hticked := h.tick c (fun x => x.remainingTick - 1) fun x => x.yielded
    have htouched : Kept s (s.update c fun x => { x with remainingTick := x.remainingTick - 1 }) t :=
      .touch (fun _ => rfl) fun _ => rfl
    dsimp only
    split
    · exact htouched.trans (kept_tick hticked (fun x => x.initTick) fun _ => true)
    · exact htouched

/-- A step leaves the threads that it is not about. -/
theorem schedulerStep_kept (h : SchedulerOk idle s) {act : SchedulerAct}
    (hstep : schedulerStep idle s act = some s') (hact : ¬ act.Targets s t) : Kept s s' t := by
  cases act with
  | init u priority tick =>
    obtain ⟨-, hs⟩ := Option.ite_none_right_eq_some.mp hstep
    obtain rfl := Option.some.inj hs
    exact .of_thread (thread_update_of_ne (Ne.symm hact))
  | startup u =>
    obtain ⟨hinit, hs⟩ := Option.ite_none_right_eq_some.mp hstep
    obtain rfl := Option.some.inj hs
    exact kept_rtThreadStartup h hinit (Ne.symm hact)
  | start =>
    obtain ⟨⟨-, hidle⟩, hs⟩ := Option.ite_none_right_eq_some.mp hstep
    obtain rfl := Option.some.inj hs
    exact kept_rtSystemSchedulerStart h hidle t
  | schedule =>
    obtain ⟨-, hs⟩ := Option.ite_none_right_eq_some.mp hstep
    obtain rfl := Option.some.inj hs
    exact kept_rtSchedule h t
  | resume u =>
    obtain rfl := Option.some.inj hstep
    exact kept_rtThreadResume (Ne.symm hact)
  | suspend u =>
    obtain ⟨-, hs⟩ := Option.ite_none_right_eq_some.mp hstep
    obtain rfl := Option.some.inj hs
    exact kept_rtThreadSuspend (Ne.symm hact)
  | timeout u =>
    obtain ⟨⟨hsuspend, -⟩, hs⟩ := Option.ite_none_right_eq_some.mp hstep
    obtain rfl := Option.some.inj hs
    exact kept_rtThreadTimeout h hsuspend (Ne.symm hact)
  | changePriority u priority =>
    obtain ⟨-, hs⟩ := Option.ite_none_right_eq_some.mp hstep
    obtain rfl := Option.some.inj hs
    exact kept_rtThreadChangePriority (Ne.symm hact)
  | yield =>
    obtain ⟨-, hs⟩ := Option.ite_none_right_eq_some.mp hstep
    obtain rfl := Option.some.inj hs
    exact kept_rtThreadYield h t
  | detach u =>
    obtain ⟨-, hs⟩ := Option.ite_none_right_eq_some.mp hstep
    obtain rfl := Option.some.inj hs
    exact kept_rtThreadDetach (Ne.symm hact)
  | exit =>
    obtain ⟨⟨-, hidle⟩, hs⟩ := Option.ite_none_right_eq_some.mp hstep
    obtain rfl := Option.some.inj hs
    exact kept_threadExit h hidle hact
  | enterCritical =>
    obtain rfl := Option.some.inj hstep
    exact .of_thread rfl
  | exitCritical =>
    obtain rfl := Option.some.inj hstep
    exact kept_rtExitCritical h t
  | tick =>
    obtain ⟨-, hs⟩ := Option.ite_none_right_eq_some.mp hstep
    obtain rfl := Option.some.inj hs
    exact kept_tickSlice h t

/-- A thread that waits goes on waiting at its priority, unless the step ends its wait. -/
theorem schedulerStep_waits (h : SchedulerOk idle s) {act : SchedulerAct}
    (hstep : schedulerStep idle s act = some s') (hwaits : (s.thread t).stat = .suspend)
    (hact : ¬ act.Wakes s t) : Kept s s' t := by
  by_cases htarget : act.Targets s t
  · cases act with
    | init u priority tick =>
      obtain rfl : u = t := htarget
      obtain ⟨⟨hstat, -, -⟩, -⟩ := Option.ite_none_right_eq_some.mp hstep
      rw [hwaits] at hstat
      exact absurd hstat (by decide)
    | startup u =>
      obtain rfl : u = t := htarget
      obtain ⟨hinit, -⟩ := Option.ite_none_right_eq_some.mp hstep
      rw [hwaits] at hinit
      cases hinit
    | suspend u =>
      obtain rfl : u = t := htarget
      obtain ⟨-, hs⟩ := Option.ite_none_right_eq_some.mp hstep
      obtain rfl := Option.some.inj hs
      rw [rtThreadSuspend, if_pos (by rw [hwaits]; decide)]
      exact .refl s _
    | resume | timeout | changePriority | detach | exit => exact absurd htarget hact
    | start | schedule | yield | enterCritical | exitCritical | tick => exact htarget.elim
  · exact schedulerStep_kept h hstep htarget

theorem priority_update {f : RtThread → RtThread}
    (hf : ∀ x, (f x).currentPriority = x.currentPriority) :
    ((s.update u f).thread t).currentPriority = (s.thread t).currentPriority := by
  by_cases ht : t = u
  · subst ht
    rw [thread_update_self, hf]
  · rw [thread_update_of_ne ht]

theorem priority_setStat (stat : ThreadStat) :
    ((s.setStat u stat).thread t).currentPriority = (s.thread t).currentPriority :=
  priority_update (f := fun x => { x with stat }) fun _ => rfl

theorem priority_insert :
    ((scheduleInsertThread s u).thread t).currentPriority = (s.thread t).currentPriority := by
  unfold scheduleInsertThread
  split
  · exact priority_setStat .running
  · exact priority_setStat .ready

theorem priority_close :
    (((scheduleRemoveThread s u).update u fun x =>
      { x with stat := .close, yielded := false }).thread t).currentPriority =
      (s.thread t).currentPriority := by
  rw [priority_update (f := fun x => { x with stat := .close, yielded := false }) fun _ => rfl,
    thread_remove]

theorem priority_rtThreadDetach :
    ((rtThreadDetach s u).thread t).currentPriority = (s.thread t).currentPriority := by
  unfold rtThreadDetach
  split
  · rfl
  · dsimp only
    split
    · exact priority_close
    · exact priority_update (f := fun x => { x with stat := .close, yielded := false }) fun _ => rfl

/-- Only a step that sets the priority of a thread changes it. -/
theorem schedulerStep_priority (h : SchedulerOk idle s) {act : SchedulerAct}
    (hstep : schedulerStep idle s act = some s') (hact : act.given ≠ some t) :
    (s'.thread t).currentPriority = (s.thread t).currentPriority := by
  by_cases htarget : act.Targets s t
  · cases act with
    | init u | startup u | changePriority u => exact absurd (congrArg some htarget) hact
    | resume u =>
      obtain rfl := Option.some.inj hstep
      unfold rtThreadResume
      split
      · rfl
      · exact priority_insert
    | suspend u =>
      obtain ⟨-, hs⟩ := Option.ite_none_right_eq_some.mp hstep
      obtain rfl := Option.some.inj hs
      unfold rtThreadSuspend
      dsimp only
      split
      · rfl
      · rw [priority_setStat, thread_remove]
    | timeout u =>
      obtain ⟨⟨hsuspend, -⟩, hs⟩ := Option.ite_none_right_eq_some.mp hstep
      obtain rfl := Option.some.inj hs
      exact (kept_rtSchedule (h.insert hsuspend) t).priority.trans priority_insert
    | detach u =>
      obtain ⟨-, hs⟩ := Option.ite_none_right_eq_some.mp hstep
      obtain rfl := Option.some.inj hs
      exact priority_rtThreadDetach
    | exit =>
      obtain ⟨⟨-, hidle⟩, hs⟩ := Option.ite_none_right_eq_some.mp hstep
      obtain rfl := Option.some.inj hs
      rw [threadExit, show s.currentThread = some t from htarget]
      exact (kept_rtSchedule (h.closed hidle htarget) t).priority.trans priority_close
    | start | schedule | yield | enterCritical | exitCritical | tick => exact htarget.elim
  · exact (schedulerStep_kept h hstep htarget).priority

end Kept

end HpmSdk.Rtt
