import HpmSdk.Rtt.SchedulerQueues

set_option autoImplicit false

/-!
# The thread that runs

Behind each call of `rt_schedule` that is not locked the current thread is running and no thread of
a higher priority is ready, whatever the threads and the interrupt handlers did before.

`rt_schedule` has four outcomes: none, the running thread stays, it goes back into its queue, or it
has left already.  Each has an equation, and what follows is shown for each.
-/

namespace HpmSdk.Rtt

open Foundation

/-- The queues are right, at most the current thread is running, and the idle thread never
waits once there is a current thread. -/
structure SchedulerOk (idle : Nat) (s : Scheduler) : Prop where
  queued : Queued s
  running : ∀ t, (s.thread t).stat = .running → s.currentThread = some t
  current : ∀ c, s.currentThread = some c → (s.thread c).stat ≠ .ready ∧ (s.thread c).stat ≠ .init
  idle : ∀ c, s.currentThread = some c →
    (s.thread idle).stat = .ready ∨ (s.thread idle).stat = .running

/-- The current thread is running, and none of a higher priority is ready. -/
def RunsHighest (s : Scheduler) : Prop :=
  ∃ c, s.currentThread = some c ∧ (s.thread c).stat = .running ∧
    ∀ t, (s.thread t).stat = .ready → (s.thread c).currentPriority ≤ (s.thread t).currentPriority

section Schedule

variable {s : Scheduler} {idle c first p : Nat} {insert : Bool}

theorem PriorityValid.setStat {x : RtThread} (h : PriorityValid x) (hon : ¬ x.stat.Off)
    (stat : ThreadStat) : PriorityValid { x with stat } :=
  ⟨h.init, h.current, Or.inl (h.mask.resolve_right fun hoff => hon hoff.2)⟩

theorem not_off_of_eq {x : RtThread} {stat : ThreadStat} (h : x.stat = stat) (hstat : ¬ stat.Off) :
    ¬ x.stat.Off := h ▸ hstat

/-- The switch leaves the other threads as they are. -/
theorem thread_switchTo (hne : first ≠ c) (t : Nat) :
    (switchTo s c first p insert).thread t =
      if t = first then { s.thread t with stat := .running }
      else if t = c ∧ insert = true then { s.thread t with stat := .ready }
      else s.thread t := by
  unfold switchTo
  dsimp only
  by_cases ht : t = first
  · subst ht
    rw [if_pos rfl, Scheduler.setStat, thread_update_self, thread_remove]
    split
    · rw [thread_insert_of_ne hne]
    · rfl
  · rw [if_neg ht, Scheduler.setStat, thread_update_of_ne ht, thread_remove]
    cases insert with
    | false => simp
    | true =>
      by_cases htc : t = c
      · subst htc
        rw [if_pos rfl, if_pos ⟨rfl, rfl⟩, thread_insert_self]
        exact fun h => hne (Option.some.inj h)
      · rw [if_pos rfl, if_neg fun h => htc h.1, thread_insert_of_ne htc]

theorem currentThread_switchTo : (switchTo s c first p insert).currentThread = some first := by
  unfold switchTo
  dsimp only [Scheduler.setStat, Scheduler.update]
  rw [currentThread_remove]
  split
  · rw [currentThread_insert]
  · rfl

theorem lockNest_switchTo : (switchTo s c first p insert).lockNest = s.lockNest := by
  unfold switchTo
  dsimp only [Scheduler.setStat, Scheduler.update]
  rw [lockNest_remove]
  split
  · rw [lockNest_insert]
  · rfl

/-- A switch to a thread that is ready. -/
theorem Queued.switchTo (h : Queued s) (hne : first ≠ c) (hfirst : (s.thread first).stat = .ready)
    (hc : insert = true → (s.thread c).stat = .running) :
    Queued (switchTo s c first p insert) := by
  have hentered : Queued { s with currentPriority := p, currentThread := some first } :=
    ⟨h.mem, h.nodup, h.group, h.valid⟩
  unfold HpmSdk.Rtt.switchTo
  dsimp only
  cases insert with
  | false =>
    exact hentered.remove (show ThreadStat.running ≠ .ready by decide)
      ((h.valid first).setStat (not_off_of_eq hfirst (by decide)) _)
  | true =>
    have hinserted := hentered.insert (t := c) (fun heq => hne (Option.some.inj heq))
      (by rw [show _ = _ from hc rfl]; decide) (not_off_of_eq (hc rfl) (by decide))
    have hthread := thread_insert_of_ne (s := { s with
      currentPriority := p, currentThread := some first }) hne
    refine hinserted.remove (show ThreadStat.running ≠ .ready by decide) ?_
    rw [hthread]
    exact (h.valid first).setStat (not_off_of_eq hfirst (by decide)) _

/-! ## `rt_schedule` -/

/-- The yield flag is taken back. -/
def unyield (s : Scheduler) (c : Nat) : Scheduler := s.update c fun x => { x with yielded := false }

/-- Where the scheduler is locked, or no thread is ready, nothing happens. -/
theorem rtSchedule_none (h : s.lockNest ≠ 0 ∨ s.readyPriorityGroup = 0) : rtSchedule s = s := by
  unfold rtSchedule
  split
  · rw [if_pos h]
  · rfl

section Cases

variable (hc : s.currentThread = some c) (hhighest : highestPriorityThread s = some (first, p))
  (hopen : ¬ (s.lockNest ≠ 0 ∨ s.readyPriorityGroup = 0))
include hc hhighest hopen

/-- A running thread stays that no ready one has to go before. -/
theorem rtSchedule_stays (hrun : (s.thread c).stat = .running)
    (hstays : staysCurrent (s.thread c) p = true) :
    rtSchedule s = (scheduleRemoveThread (unyield s c) c).setStat c .running := by
  unfold rtSchedule
  rw [hc, hhighest]
  dsimp only
  rw [if_neg hopen]
  simp [hrun, hstays, unyield]

/-- A running thread that is gone before goes back into its queue. -/
theorem rtSchedule_switches (hne : first ≠ c) (hrun : (s.thread c).stat = .running)
    (hstays : staysCurrent (s.thread c) p = false) :
    rtSchedule s = switchTo (unyield s c) c first p true := by
  unfold rtSchedule
  rw [hc, hhighest]
  dsimp only
  rw [if_neg hopen]
  simp [hrun, hstays, hne, unyield]

/-- A thread that does not run any more goes into no queue. -/
theorem rtSchedule_leaves (hne : first ≠ c) (hrun : (s.thread c).stat ≠ .running) :
    rtSchedule s = switchTo s c first p false := by
  unfold rtSchedule
  rw [hc, hhighest]
  dsimp only
  rw [if_neg hopen]
  simp [hrun, hne]

end Cases

theorem Queued.unyield (h : Queued s) (c : Nat) : Queued (unyield s c) :=
  h.touch rfl rfl ⟨(h.valid c).init, (h.valid c).current, (h.valid c).mask⟩

theorem thread_unyield (t : Nat) :
    ((unyield s c).thread t).stat = (s.thread t).stat ∧
      ((unyield s c).thread t).currentPriority = (s.thread t).currentPriority := by
  unfold HpmSdk.Rtt.unyield
  by_cases ht : t = c
  · subst ht
    rw [thread_update_self]
    exact ⟨rfl, rfl⟩
  · rw [thread_update_of_ne ht]
    exact ⟨rfl, rfl⟩

/-- A switch to the first thread of the highest priority. -/
theorem SchedulerOk.switchTo (h : SchedulerOk idle s) (insert : Bool)
    (hc : s.currentThread = some c)
    (hfirst : (s.thread first).stat = .ready) (hpriority : (s.thread first).currentPriority = p)
    (hleast : ∀ t, (s.thread t).stat = .ready → p ≤ (s.thread t).currentPriority)
    (hinsert : insert = true ↔ (s.thread c).stat = .running)
    (hyield : insert = true → p ≤ (s.thread c).currentPriority) :
    SchedulerOk idle (switchTo s c first p insert) ∧ RunsHighest (switchTo s c first p insert) := by
  have hne : first ≠ c := by
    rintro rfl
    exact (h.current first hc).1 hfirst
  have hrunning : ((HpmSdk.Rtt.switchTo s c first p insert).thread first).stat = .running := by
    rw [thread_switchTo hne, if_pos rfl]
  have hpriorities (t : Nat) : ((HpmSdk.Rtt.switchTo s c first p insert).thread t).currentPriority =
      (s.thread t).currentPriority := by
    rw [thread_switchTo hne]
    split
    · rfl
    · split <;> rfl
  have hothers : ∀ t, t ≠ first →
      ((HpmSdk.Rtt.switchTo s c first p insert).thread t).stat =
        if t = c ∧ insert = true then .ready else (s.thread t).stat := by
    intro t ht
    rw [thread_switchTo hne, if_neg ht]
    split <;> rfl
  constructor
  · refine ⟨h.queued.switchTo hne hfirst hinsert.mp, fun t ht => ?_, fun t ht => ?_, fun t ht => ?_⟩
    · rw [currentThread_switchTo]
      by_contra hneq
      have htf : t ≠ first := fun heq => hneq (by rw [heq])
      rw [hothers t htf] at ht
      split at ht
      · cases ht
      · rename_i hstay
        have htc : t = c := Option.some.inj ((h.running t ht).symm.trans hc)
        subst htc
        exact hstay ⟨rfl, hinsert.mpr ht⟩
    · rw [currentThread_switchTo] at ht
      obtain rfl := Option.some.inj ht
      rw [hrunning]
      exact ⟨by decide, by decide⟩
    · by_cases hif : idle = first
      · rw [hif]
        exact Or.inr hrunning
      · rw [hothers idle hif]
        split
        · exact Or.inl rfl
        · exact h.idle c hc
  · refine ⟨first, currentThread_switchTo, hrunning, fun t ht => ?_⟩
    rw [hpriorities, hpriorities, hpriority]
    by_cases htf : t = first
    · exact Nat.le_of_eq (htf ▸ hpriority.symm)
    · rw [hothers t htf] at ht
      split at ht
      · rename_i hins
        rw [hins.1]
        exact hyield hins.2
      · exact hleast t ht

/-- A thread that stays has a priority as high as the highest that is ready. -/
theorem staysCurrent_le {x : RtThread} (h : staysCurrent x p = true) : x.currentPriority ≤ p := by
  simp only [staysCurrent, Bool.or_eq_true, Bool.and_eq_true, decide_eq_true_eq] at h
  omega

/-- One that does not is gone before by a thread of a priority at least as high. -/
theorem le_of_not_staysCurrent {x : RtThread} (h : staysCurrent x p = false) :
    p ≤ x.currentPriority := by
  simp only [staysCurrent, Bool.or_eq_false_iff, decide_eq_false_iff_not] at h
  omega

theorem SchedulerOk.unyield (h : SchedulerOk idle s) (c : Nat) :
    SchedulerOk idle (unyield s c) := by
  have hstat (t : Nat) := (thread_unyield (s := s) (c := c) t).1
  refine ⟨h.queued.unyield c, fun t ht => h.running t ((hstat t).symm.trans ht), fun t ht => ?_,
    fun t ht => ?_⟩
  · rw [hstat]
    exact h.current t ht
  · rw [hstat]
    exact h.idle t ht

/-- The current thread goes on. -/
theorem SchedulerOk.stay (h : SchedulerOk idle s) (hc : s.currentThread = some c)
    (hrun : (s.thread c).stat = .running) :
    SchedulerOk idle ((scheduleRemoveThread s c).setStat c .running) ∧
      ((∀ t, (s.thread t).stat = .ready →
          (s.thread c).currentPriority ≤ (s.thread t).currentPriority) →
        RunsHighest ((scheduleRemoveThread s c).setStat c .running)) := by
  have hthread : ((scheduleRemoveThread s c).setStat c .running).thread = s.thread := by
    rw [Scheduler.setStat, Scheduler.update, thread_remove, ← hrun]
    exact Function.update_eq_self c s.thread
  have hcurrent : ((scheduleRemoveThread s c).setStat c .running).currentThread = s.currentThread :=
    currentThread_remove
  refine ⟨⟨h.queued.remove (show ThreadStat.running ≠ .ready by decide)
    ((h.queued.valid c).setStat (not_off_of_eq hrun (by decide)) _), ?_, ?_, ?_⟩,
    fun hleast => ⟨c, ?_, ?_, ?_⟩⟩
  · rw [hthread, hcurrent]
    exact h.running
  · rw [hthread, hcurrent]
    exact h.current
  · rw [hthread, hcurrent]
    exact h.idle
  · rw [hcurrent]
    exact hc
  · rw [hthread]
    exact hrun
  · rw [hthread]
    exact hleast

/-- `rt_schedule` keeps the queues right, and leaves a thread of the highest priority running. -/
theorem rtSchedule_ok (h : SchedulerOk idle s) (hc : s.currentThread = some c) :
    SchedulerOk idle (rtSchedule s) ∧ (s.lockNest = 0 → RunsHighest (rtSchedule s)) := by
  by_cases hopen : s.lockNest ≠ 0 ∨ s.readyPriorityGroup = 0
  · rw [rtSchedule_none hopen]
    refine ⟨h, fun hlock => ?_⟩
    have hnone : ∀ t, (s.thread t).stat ≠ .ready := by
      intro t ht
      have hbit := h.queued.getLsbD_group ht
      rw [hopen.resolve_left (not_not.mpr hlock), BitVec.ofNat_eq_ofNat, BitVec.getLsbD_zero] at hbit
      cases hbit
    have hidle := (h.idle c hc).resolve_left (hnone idle)
    exact ⟨idle, h.running idle hidle, hidle, fun t ht => absurd ht (hnone t)⟩
  · obtain ⟨t₀, hready⟩ : ∃ t, (s.thread t).stat = .ready := by
      by_contra hnone
      exact hopen (Or.inr (h.queued.group_eq_zero fun t ht => hnone ⟨t, ht⟩))
    obtain ⟨first, rest, p, htable, hhighest, -, hleast⟩ := h.queued.highest hready
    obtain ⟨hfirst, hpriority⟩ := (h.queued.mem p first).mp (htable ▸ List.mem_cons_self)
    have hne : first ≠ c := by
      rintro rfl
      exact (h.current first hc).1 hfirst
    by_cases hrun : (s.thread c).stat = .running
    · have hun := h.unyield c
      cases hstays : staysCurrent (s.thread c) p with
      | true =>
        rw [rtSchedule_stays hc hhighest hopen hrun hstays]
        have hkept := hun.stay hc ((thread_unyield c).1.trans hrun)
        refine ⟨hkept.1, fun _ => hkept.2 fun t ht => ?_⟩
        rw [(thread_unyield t).1] at ht
        rw [(thread_unyield t).2, (thread_unyield c).2]
        exact Nat.le_trans (staysCurrent_le hstays) (hleast t ht)
      | false =>
        rw [rtSchedule_switches hc hhighest hopen hne hrun hstays]
        have hswitch := hun.switchTo true hc ((thread_unyield first).1.trans hfirst)
          ((thread_unyield first).2.trans hpriority)
          (fun t ht => by
            rw [(thread_unyield t).1] at ht
            rw [(thread_unyield t).2]
            exact hleast t ht)
          (iff_of_true rfl ((thread_unyield c).1.trans hrun))
          (fun _ => by
            rw [(thread_unyield c).2]
            exact le_of_not_staysCurrent hstays)
        exact ⟨hswitch.1, fun _ => hswitch.2⟩
    · rw [rtSchedule_leaves hc hhighest hopen hne hrun]
      have hswitch := h.switchTo false hc hfirst hpriority hleast
        (iff_of_false (by decide) hrun) (fun hf => absurd hf (by decide))
      exact ⟨hswitch.1, fun _ => hswitch.2⟩

end Schedule

end HpmSdk.Rtt
