import HpmSdk.Rtt.Mutex

set_option autoImplicit false

/-!
# Runs with a mutex

One thread at a time has the mutex, and while a thread waits for it the owner runs at a priority
that is at least as high.  Both follow from one invariant, `MutexOk`: the threads that wait are
suspended and in the list in the order of their priorities, and `value`, `hold` and the owner agree
with what the calls returned.  Each branch of `rt_mutex_take` and `rt_mutex_release` has its own
lemma; `frame` covers what the scheduler does meanwhile.
-/

namespace HpmSdk.Rtt

open Foundation

/-- How often a thread has the mutex: once more where it waited for it and did not go on yet. -/
def MutexState.holds (s : MutexState) (t : Nat) : Nat :=
  s.takes t + if s.taking t = true then 1 else 0

/-- A mutex and the threads that use it. -/
structure MutexOk (idle : Nat) (s : MutexState) : Prop where
  scheduler : SchedulerOk idle s.scheduler
  waiters : Waiters s.scheduler s.mutex.suspendThread
  byPriority : ByPriority s.scheduler s.mutex.suspendThread
  waiting : ∀ t ∈ s.mutex.suspendThread,
    s.taking t = true ∧ s.error t = .eok ∧ s.mutex.owner ≠ some t
  free : s.mutex.owner = none →
    s.mutex.value = 1 ∧ s.mutex.hold = 0 ∧ s.mutex.suspendThread = []
  held : ∀ o, s.mutex.owner = some o → s.mutex.value = 0 ∧ s.mutex.hold ≠ 0 ∧
    s.mutex.hold.toNat = s.holds o ∧ (s.taking o = true → s.error o = .eok)
  others : ∀ t, s.mutex.owner ≠ some t → s.takes t = 0 ∧ s.priority t = s.given t ∧
    (s.taking t = true → t ∈ s.mutex.suspendThread ∨ s.error t ≠ .eok)
  inherits : ∀ o, s.mutex.owner = some o → s.mutex.originalPriority = s.given o ∧ s.given o < 32 ∧
    s.priority o ≤ s.given o ∧ ∀ w ∈ s.mutex.suspendThread, s.priority o ≤ s.priority w

section Runs

variable {idle : Nat} {s s' : MutexState} {t o : Nat}

theorem mutexStart_ok (idle : Nat) : MutexOk idle mutexStart where
  scheduler := schedulerInit_ok idle
  waiters := .nil _
  byPriority := List.Pairwise.nil
  waiting _ ht := absurd ht List.not_mem_nil
  free _ := ⟨rfl, rfl, rfl⟩
  held _ ho := by cases ho
  others _ _ := ⟨rfl, rfl, fun hf => by cases hf⟩
  inherits _ ho := by cases ho

/-- What does not wake a waiting thread, and changes at most one priority. -/
theorem MutexOk.frame (h : MutexOk idle s) {scheduler : Scheduler} (who : Option Nat)
    (hok : SchedulerOk idle scheduler)
    (hkept : ∀ w ∈ s.mutex.suspendThread, Kept s.scheduler scheduler w)
    (hpriority : ∀ u, who ≠ some u →
      (scheduler.thread u).currentPriority = (s.scheduler.thread u).currentPriority)
    (hwho : ∀ u, who = some u → s.mutex.owner ≠ some u) :
    MutexOk idle (({ s with scheduler } : MutexState).give who) := by
  refine ⟨hok, h.waiters.kept hkept, h.byPriority.congr fun w hw => (hkept w hw).priority, h.waiting,
    h.free, h.held, fun u hu => ?_, fun o ho => ?_⟩
  · obtain ⟨htakes, hgiven, hout⟩ := h.others u hu
    refine ⟨htakes, ?_, hout⟩
    show (scheduler.thread u).currentPriority = if who = some u then _ else _
    split
    · rfl
    · rename_i hwu
      exact (hpriority u hwu).trans hgiven
  · have hwo : who ≠ some o := fun hw => hwho o hw ho
    obtain ⟨horiginal, hlt, hraised, hall⟩ := h.inherits o ho
    have hgiven : (({ s with scheduler } : MutexState).give who).given o = s.given o := if_neg hwo
    have hsame : (({ s with scheduler } : MutexState).give who).priority o = s.priority o :=
      hpriority o hwo
    rw [hgiven, hsame]
    refine ⟨horiginal, hlt, hraised, fun w hw => ?_⟩
    exact Nat.le_trans (hall w hw) (Nat.le_of_eq (hkept w hw).priority.symm)

/-- The error of a thread outside `rt_mutex_take` tells nothing. -/
theorem MutexOk.setError (h : MutexOk idle s) (ht : s.taking t = false) (err : RtErr) :
    MutexOk idle (s.setError t err) := by
  have hne {u : Nat} (hu : s.taking u = true) : u ≠ t := by
    rintro rfl
    exact Bool.false_ne_true (ht.symm.trans hu)
  have herror {u : Nat} (hu : s.taking u = true) : (s.setError t err).error u = s.error u :=
    Function.update_of_ne (hne hu) _ _
  refine ⟨h.scheduler, h.waiters, h.byPriority, fun u hu => ?_, h.free, fun o ho => ?_,
    fun u hu => ?_, h.inherits⟩
  · obtain ⟨htaking, heok, howner⟩ := h.waiting u hu
    exact ⟨htaking, (herror htaking).trans heok, howner⟩
  · obtain ⟨hvalue, hhold, hcount, heok⟩ := h.held o ho
    exact ⟨hvalue, hhold, hcount, fun htaking => (herror htaking).trans (heok htaking)⟩
  · obtain ⟨htakes, hpriority, hout⟩ := h.others u hu
    refine ⟨htakes, hpriority, fun htaking => ?_⟩
    rw [herror htaking]
    exact hout htaking

/-- A thread that runs does not wait for the mutex. -/
theorem MutexOk.not_waiting (h : MutexOk idle s) (hrun : (s.scheduler.thread t).stat = .running) :
    t ∉ s.mutex.suspendThread := h.waiters.not_mem (Or.inr hrun)

/-! ## `rt_mutex_take` -/

/-- The owner takes the mutex once more. -/
theorem MutexOk.nest (h : MutexOk idle s) (ht : s.taking t = false)
    (howner : s.mutex.owner = some t) (hhold : s.mutex.hold < 0xFF) :
    MutexOk idle
      (({ s with mutex := { s.mutex with hold := s.mutex.hold + 1 } } : MutexState).setTakes t
        (s.takes t + 1)) := by
  obtain ⟨hvalue, hne, hcount, -⟩ := h.held t howner
  have hlt : s.mutex.hold.toNat < 255 := hhold
  have hnext : (s.mutex.hold + 1).toNat = s.mutex.hold.toNat + 1 := by
    rw [BitVec.toNat_add, show (1 : BitVec 8).toNat = 1 from rfl]
    omega
  refine ⟨h.scheduler, h.waiters, h.byPriority, h.waiting, fun hnone => ?_, fun o ho => ?_,
    fun u hu => ?_, h.inherits⟩
  · exact absurd (howner.symm.trans hnone) (Option.some_ne_none t)
  · obtain rfl : t = o := Option.some.inj (howner.symm.trans ho)
    refine ⟨hvalue, fun hzero => ?_, ?_, fun htaking => ?_⟩
    · have : (s.mutex.hold + 1).toNat = 0 := congrArg BitVec.toNat hzero
      omega
    · refine hnext.trans ?_
      rw [hcount]
      simp [MutexState.holds, MutexState.setTakes, ht]
    · exact absurd (ht.symm.trans htaking) Bool.false_ne_true
  · have hut : u ≠ t := by
      rintro rfl
      exact hu howner
    obtain ⟨htakes, hrest⟩ := h.others u hu
    exact ⟨(Function.update_of_ne hut _ _).trans htakes, hrest⟩

/-- A thread takes the mutex while it is free. -/
theorem MutexOk.acquire (h : MutexOk idle s) (ht : s.taking t = false)
    (hfree : s.mutex.owner = none) :
    MutexOk idle
      (({ s with mutex := { s.mutex with
          value := s.mutex.value - 1, owner := some t, originalPriority := s.priority t
          hold := s.mutex.hold + 1 } } : MutexState).setTakes t (s.takes t + 1)) := by
  obtain ⟨hvalue, hhold, hempty⟩ := h.free hfree
  have hnot (u : Nat) : s.mutex.owner ≠ some u := by
    rw [hfree]
    exact fun hf => by cases hf
  obtain ⟨htakes, hgiven, -⟩ := h.others t (hnot t)
  have hnone (u : Nat) : u ∉ s.mutex.suspendThread := hempty ▸ List.not_mem_nil
  refine ⟨h.scheduler, h.waiters, h.byPriority, fun u hu => absurd hu (hnone u),
    fun hf => absurd hf (Option.some_ne_none t), fun o ho => ?_, fun u hu => ?_, fun o ho => ?_⟩
  · obtain rfl : t = o := Option.some.inj ho
    refine ⟨?_, ?_, ?_, fun htaking => ?_⟩
    · show s.mutex.value - 1 = 0
      rw [hvalue]
      rfl
    · show s.mutex.hold + 1 ≠ 0
      rw [hhold]
      decide
    · show (s.mutex.hold + 1).toNat = _
      rw [hhold]
      simp [MutexState.holds, MutexState.setTakes, ht, htakes]
    · exact absurd (ht.symm.trans htaking) Bool.false_ne_true
  · have hut : u ≠ t := by
      rintro rfl
      exact hu rfl
    obtain ⟨hzero, hrest⟩ := h.others u (hnot u)
    exact ⟨(Function.update_of_ne hut _ _).trans hzero, hrest⟩
  · obtain rfl : t = o := Option.some.inj ho
    exact ⟨hgiven, hgiven ▸ (h.scheduler.queued.valid t).current, Nat.le_of_eq hgiven,
      fun w hw => absurd hw (hnone w)⟩

theorem priority_rtThreadChangePriority {scheduler : Scheduler} {priority : Nat} :
    ((rtThreadChangePriority scheduler t priority).thread t).currentPriority = priority := by
  unfold rtThreadChangePriority
  dsimp only
  split
  · rw [priority_insert, thread_update_self]
  · rw [thread_update_self]

/-- The owner has the priority of the thread that waits, if that is the higher one, and nothing
else is changed. -/
theorem raiseOwner_spec (h : MutexOk idle s) (ho : s.mutex.owner = some o) :
    SchedulerOk idle (raiseOwner s t) ∧
      (∀ u, u ≠ o → Kept s.scheduler (raiseOwner s t) u) ∧
      ((raiseOwner s t).thread o).currentPriority = min (s.priority o) (s.priority t) := by
  unfold raiseOwner
  rw [ho]
  dsimp only
  split
  · rename_i hlt
    refine ⟨rtThreadChangePriority_ok h.scheduler (h.scheduler.queued.valid t).current,
      fun u hu => kept_rtThreadChangePriority hu, ?_⟩
    rw [priority_rtThreadChangePriority, Nat.min_eq_right (Nat.le_of_lt hlt)]
  · rename_i hle
    exact ⟨h.scheduler, fun u _ => .refl _ u, (Nat.min_eq_left (Nat.le_of_not_lt hle)).symm⟩

/-- A thread waits for the owner. -/
theorem MutexOk.wait (h : MutexOk idle s) (hrun : (s.scheduler.thread t).stat = .running)
    (herror : s.error t = .eok) (hidle : t ≠ idle) (ho : s.mutex.owner = some o) (hto : t ≠ o) :
    let list := ipcListSuspend (raiseOwner s t) s.mutex.suspendThread t .prio
    MutexOk idle
        (({ s with
            scheduler := rtSchedule list.1
            mutex := { s.mutex with suspendThread := list.2 } } : MutexState).setTaking t true) ∧
      Scheduled (rtSchedule list.1) := by
  intro list
  obtain ⟨hraised, hkept, hmin⟩ := raiseOwner_spec (t := t) h ho
  have hrunnable : ((raiseOwner s t).thread t).stat.Runnable := (hkept t hto).runnable (Or.inr hrun)
  have hnot := h.not_waiting hrun
  have hok : SchedulerOk idle list.1 := rtThreadSuspend_ok hraised hidle
  have hlist (u : Nat) : u ∈ list.2 ↔ u = t ∨ u ∈ s.mutex.suspendThread := by
    show u ∈ ipcListInsert _ _ t .prio ↔ _
    exact mem_ipcListInsert
  -- neither the suspension nor the switch behind it changes a priority
  have hpriority (u : Nat) :
      ((rtSchedule list.1).thread u).currentPriority = ((raiseOwner s t).thread u).currentPriority :=
    (kept_rtSchedule hok u).priority.trans priority_rtThreadSuspend
  have hothers (u : Nat) (hu : u ≠ o) :
      ((rtSchedule list.1).thread u).currentPriority = s.priority u :=
    (hpriority u).trans (hkept u hu).priority
  have howner {u : Nat} (hu : u ∈ s.mutex.suspendThread) : u ≠ o := by
    rintro rfl
    exact (h.waiting u hu).2.2 ho
  have hwaiters : Waiters (raiseOwner s t) s.mutex.suspendThread :=
    h.waiters.kept fun u hu => hkept u (howner hu)
  have hbyPriority : ByPriority (raiseOwner s t) s.mutex.suspendThread :=
    h.byPriority.congr fun u hu => (hkept u (howner hu)).priority
  obtain ⟨hvalue, hhold, hcount, heok⟩ := h.held o ho
  refine ⟨⟨hok.scheduled.1, (hwaiters.suspend hrunnable).kept fun u _ => kept_rtSchedule hok u,
    hbyPriority.suspend.congr fun u _ => (kept_rtSchedule hok u).priority, fun u hu => ?_,
    fun hnone => absurd (ho.symm.trans hnone) (Option.some_ne_none o), fun o' ho' => ?_,
    fun u hu => ?_, fun o' ho' => ?_⟩, hok.scheduled.2⟩
  · rcases (hlist u).mp hu with rfl | hu
    · exact ⟨Function.update_self _ _ _, herror, fun hu => hto (Option.some.inj (hu.symm.trans ho))⟩
    · obtain ⟨htaking, hrest⟩ := h.waiting u hu
      refine ⟨?_, hrest⟩
      show Function.update s.taking t true u = true
      rw [Function.update_apply]
      split
      · rfl
      · exact htaking
  · obtain rfl : o = o' := Option.some.inj (ho.symm.trans ho')
    have htaking : Function.update s.taking t true o = s.taking o :=
      Function.update_of_ne (Ne.symm hto) _ _
    refine ⟨hvalue, hhold, ?_, fun hwait => heok (htaking.symm.trans hwait)⟩
    show _ = s.takes o + if Function.update s.taking t true o = true then 1 else 0
    rw [htaking]
    exact hcount
  · obtain ⟨htakes, hgiven, hout⟩ := h.others u hu
    have huo : u ≠ o := by
      rintro rfl
      exact hu ho
    refine ⟨htakes, (hothers u huo).trans hgiven, fun htaking => ?_⟩
    by_cases hut : u = t
    · exact Or.inl ((hlist u).mpr (Or.inl hut))
    · have hbefore : s.taking u = true := (Function.update_of_ne hut _ _).symm.trans htaking
      exact (hout hbefore).imp_left fun hu => (hlist u).mpr (Or.inr hu)
  · obtain rfl : o = o' := Option.some.inj (ho.symm.trans ho')
    obtain ⟨horiginal, hlt, hraisedLe, hall⟩ := h.inherits o ho
    have hnow : ((rtSchedule list.1).thread o).currentPriority = min (s.priority o) (s.priority t) :=
      (hpriority o).trans hmin
    refine ⟨horiginal, hlt, ?_, fun w hw => ?_⟩
    · exact (Nat.le_of_eq hnow).trans ((Nat.min_le_left _ _).trans hraisedLe)
    · refine (Nat.le_of_eq hnow).trans ?_
      rcases (hlist w).mp hw with rfl | hw
      · exact (Nat.min_le_right _ _).trans (Nat.le_of_eq (hothers w hto).symm)
      · exact (Nat.min_le_left _ _).trans ((hall w hw).trans (Nat.le_of_eq (hothers w (howner hw)).symm))

/-- A thread that waited goes on. -/
theorem MutexOk.taken (h : MutexOk idle s) (hrun : (s.scheduler.thread t).stat = .running)
    (ht : s.taking t = true) :
    MutexOk idle ((s.setTaking t false).takeEnds t (rtMutexTaken s t)) := by
  have hnot := h.not_waiting hrun
  have hself : Function.update s.taking t false t = false := Function.update_self _ _ _
  have hother {u : Nat} (hu : u ≠ t) : Function.update s.taking t false u = s.taking u :=
    Function.update_of_ne hu _ _
  have hwaiting (u : Nat) (hu : u ∈ s.mutex.suspendThread) :
      Function.update s.taking t false u = true ∧ s.error u = .eok ∧ s.mutex.owner ≠ some u := by
    obtain ⟨htaking, hrest⟩ := h.waiting u hu
    refine ⟨(hother ?_).trans htaking, hrest⟩
    rintro rfl
    exact hnot hu
  by_cases howner : s.mutex.owner = some t
  · -- the mutex was handed over
    obtain ⟨hvalue, hhold, hcount, heok⟩ := h.held t howner
    have hresult : rtMutexTaken s t = .eok := by
      rw [rtMutexTaken, heok ht]
      rfl
    rw [hresult]
    refine ⟨h.scheduler, h.waiters, h.byPriority, hwaiting,
      fun hnone => absurd (howner.symm.trans hnone) (Option.some_ne_none t), fun o ho => ?_,
      fun u hu => ?_, h.inherits⟩
    · obtain rfl : t = o := Option.some.inj (howner.symm.trans ho)
      refine ⟨hvalue, hhold, hcount.trans ?_, fun htaking => ?_⟩
      · simp [MutexState.holds, MutexState.takeEnds, MutexState.setTakes, MutexState.setTaking, ht]
      · exact absurd (hself.symm.trans htaking) Bool.false_ne_true
    · have hut : u ≠ t := by
        rintro rfl
        exact hu howner
      obtain ⟨htakes, hgiven, hout⟩ := h.others u hu
      refine ⟨(Function.update_of_ne hut _ _).trans htakes, hgiven, fun htaking => ?_⟩
      exact hout ((hother hut).symm.trans htaking)
  · -- the time was over
    have herror : s.error t ≠ .eok := ((h.others t howner).2.2 ht).resolve_left hnot
    have hresult : rtMutexTaken s t = s.error t := if_pos herror
    have hend : (s.setTaking t false).takeEnds t (rtMutexTaken s t) = s.setTaking t false := by
      rw [hresult]
      cases hcode : s.error t with
      | eok => exact absurd hcode herror
      | error => rfl
      | etimeout => rfl
      | efull => rfl
    rw [hend]
    refine ⟨h.scheduler, h.waiters, h.byPriority, hwaiting, h.free, fun o ho => ?_, fun u hu => ?_,
      h.inherits⟩
    · have hot : o ≠ t := by
        rintro rfl
        exact howner ho
      obtain ⟨hvalue, hhold, hcount, heok⟩ := h.held o ho
      refine ⟨hvalue, hhold, ?_, fun htaking => heok ((hother hot).symm.trans htaking)⟩
      show _ = s.takes o + if Function.update s.taking t false o = true then 1 else 0
      rw [hother hot]
      exact hcount
    · obtain ⟨htakes, hgiven, hout⟩ := h.others u hu
      refine ⟨htakes, hgiven, fun htaking => hout ?_⟩
      by_cases hut : u = t
      · subst hut
        exact ht
      · exact (hother hut).symm.trans htaking

/-- Taking, whichever branch it goes through: a call that ends counts for its thread, and one that
waits leaves a thread of the highest priority running. -/
theorem rtMutexTake_ok (h : MutexOk idle s) (hcalls : s.Calls t) {time : Int}
    (htime : time = 0 ∨ t ≠ idle ∧ s.scheduler.lockNest = 0) :
    (∀ err s', rtMutexTake s t time = (some err, s') → MutexOk idle (s'.takeEnds t err)) ∧
      ∀ s', rtMutexTake s t time = (none, s') →
        MutexOk idle (s'.setTaking t true) ∧ Scheduled s'.scheduler := by
  obtain ⟨hrun, ht⟩ := hcalls
  have hclear := h.setError ht .eok
  refine ⟨fun err s' hresult => ?_, fun s' hresult => ?_⟩
  · unfold rtMutexTake at hresult
    dsimp only at hresult
    split at hresult
    · rename_i howner
      split at hresult
      · rename_i hhold
        obtain ⟨rfl, rfl⟩ := (Prod.mk.inj hresult).imp_left Option.some.inj
        exact hclear.nest ht howner hhold
      · obtain ⟨rfl, rfl⟩ := (Prod.mk.inj hresult).imp_left Option.some.inj
        exact hclear
    · split at hresult
      · rename_i hvalue
        have hfree : s.mutex.owner = none := by
          cases ho : s.mutex.owner with
          | none => rfl
          | some o =>
            rw [show (s.setError t .eok).mutex.value = 0 from (h.held o ho).1] at hvalue
            exact absurd hvalue (by decide)
        split at hresult
        · obtain ⟨rfl, rfl⟩ := (Prod.mk.inj hresult).imp_left Option.some.inj
          exact hclear.acquire ht hfree
        · rename_i hhold
          rw [show (s.setError t .eok).mutex.hold = 0 from (h.free hfree).2.1] at hhold
          exact absurd (by decide) hhold
      · split at hresult
        · obtain ⟨rfl, rfl⟩ := (Prod.mk.inj hresult).imp_left Option.some.inj
          exact hclear.setError ht .etimeout
        · cases (Prod.mk.inj hresult).1
  · unfold rtMutexTake at hresult
    dsimp only at hresult
    split at hresult
    · split at hresult
      · cases (Prod.mk.inj hresult).1
      · cases (Prod.mk.inj hresult).1
    · rename_i howner
      split at hresult
      · split at hresult
        · cases (Prod.mk.inj hresult).1
        · cases (Prod.mk.inj hresult).1
      · rename_i hvalue
        split at hresult
        · cases (Prod.mk.inj hresult).1
        · rename_i hwait
          obtain rfl := (Prod.mk.inj hresult).2
          cases ho : s.mutex.owner with
          | none =>
            rw [show (s.setError t .eok).mutex.value = 1 from (h.free ho).1] at hvalue
            exact absurd (by decide) hvalue
          | some o =>
            have hto : t ≠ o := by
              rintro rfl
              exact howner ho
            exact hclear.wait hrun (Function.update_self _ _ _) (htime.resolve_left hwait).1 ho hto

/-! ## `rt_mutex_release` -/

/-- The owner releases the mutex, which it took more than once. -/
theorem MutexOk.unnest (h : MutexOk idle s) (ht : s.taking t = false)
    (howner : s.mutex.owner = some t) (hhold : s.mutex.hold - 1 ≠ 0) :
    MutexOk idle
      (({ s with mutex := { s.mutex with hold := s.mutex.hold - 1 } } : MutexState).setTakes t
        (s.takes t - 1)) := by
  obtain ⟨hvalue, hne, hcount, -⟩ := h.held t howner
  have hprevious : (s.mutex.hold - 1).toNat = s.mutex.hold.toNat - 1 := by
    have hpos : s.mutex.hold.toNat ≠ 0 := fun hzero => hne (BitVec.eq_of_toNat_eq hzero)
    rw [BitVec.toNat_sub, show (1 : BitVec 8).toNat = 1 from rfl]
    omega
  refine ⟨h.scheduler, h.waiters, h.byPriority, h.waiting,
    fun hnone => absurd (howner.symm.trans hnone) (Option.some_ne_none t), fun o ho => ?_,
    fun u hu => ?_, h.inherits⟩
  · obtain rfl : t = o := Option.some.inj (howner.symm.trans ho)
    refine ⟨hvalue, hhold, ?_, fun htaking => ?_⟩
    · refine hprevious.trans ?_
      rw [hcount]
      simp [MutexState.holds, MutexState.setTakes, ht]
    · exact absurd (ht.symm.trans htaking) Bool.false_ne_true
  · have hut : u ≠ t := by
      rintro rfl
      exact hu howner
    obtain ⟨htakes, hrest⟩ := h.others u hu
    exact ⟨(Function.update_of_ne hut _ _).trans htakes, hrest⟩

/-- The owner has the priority again that it was given. -/
theorem restoreOwner_spec (h : MutexOk idle s) (howner : s.mutex.owner = some t) :
    SchedulerOk idle (restoreOwner s t) ∧
      (∀ u, u ≠ t → Kept s.scheduler (restoreOwner s t) u) ∧
      ((restoreOwner s t).thread t).currentPriority = s.given t := by
  obtain ⟨horiginal, hlt, -⟩ := h.inherits t howner
  unfold restoreOwner
  split
  · refine ⟨?_, fun u hu => kept_rtThreadChangePriority hu, ?_⟩
    · refine rtThreadChangePriority_ok h.scheduler ?_
      rw [horiginal]
      exact hlt
    · rw [priority_rtThreadChangePriority, horiginal]
  · rename_i hsame
    exact ⟨h.scheduler, fun u _ => .refl _ u, (not_not.mp hsame).symm.trans horiginal⟩

/-- The last release of the owner. -/
theorem MutexOk.last (h : MutexOk idle s) (ht : s.taking t = false)
    (howner : s.mutex.owner = some t) (hhold : ¬ s.mutex.hold - 1 ≠ 0) :
    s.mutex.value = 0 ∧ s.mutex.hold - 1 = 0 ∧ s.takes t - 1 = 0 := by
  obtain ⟨hvalue, hne, hcount, -⟩ := h.held t howner
  have hzero : s.mutex.hold - 1 = 0 := not_not.mp hhold
  have hone : s.mutex.hold = 1 := by
    calc s.mutex.hold = s.mutex.hold - 1 + 1 := (BitVec.sub_add_cancel _ _).symm
      _ = 1 := by rw [hzero]; rfl
  refine ⟨hvalue, hzero, ?_⟩
  rw [hone] at hcount
  simp only [MutexState.holds, ht, Bool.false_eq_true, if_false, Nat.add_zero] at hcount
  rw [← hcount]
  rfl

/-- The mutex is released, and nobody waits for it. -/
theorem MutexOk.give_back (h : MutexOk idle s) (ht : s.taking t = false)
    (howner : s.mutex.owner = some t) (hhold : ¬ s.mutex.hold - 1 ≠ 0)
    (hempty : s.mutex.suspendThread = []) :
    MutexOk idle
      (({ s with
          scheduler := restoreOwner s t
          mutex := { s.mutex with
            hold := s.mutex.hold - 1, value := s.mutex.value + 1, owner := none
            originalPriority := 0xFF } } : MutexState).setTakes t (s.takes t - 1)) := by
  obtain ⟨hvalue, hzero, htakes⟩ := h.last ht howner hhold
  obtain ⟨hok, hkept, hself⟩ := restoreOwner_spec h howner
  have hnone (u : Nat) : u ∉ s.mutex.suspendThread := hempty ▸ List.not_mem_nil
  refine ⟨hok, h.waiters.kept fun u hu => absurd hu (hnone u),
    h.byPriority.congr fun u hu => absurd hu (hnone u), fun u hu => absurd hu (hnone u),
    fun _ => ⟨?_, hzero, hempty⟩, fun o ho => absurd ho.symm (Option.some_ne_none o), fun u _ => ?_,
    fun o ho => absurd ho.symm (Option.some_ne_none o)⟩
  · show s.mutex.value + 1 = 1
    rw [hvalue]
    rfl
  · by_cases hut : u = t
    · subst hut
      exact ⟨(Function.update_self _ _ _).trans htakes, hself,
        fun htaking => absurd (ht.symm.trans htaking) Bool.false_ne_true⟩
    · have hother : s.mutex.owner ≠ some u := by
        rw [howner]
        exact fun heq => hut (Option.some.inj heq).symm
      obtain ⟨hnot, hgiven, hout⟩ := h.others u hother
      exact ⟨(Function.update_of_ne hut _ _).trans hnot, (hkept u hut).priority.trans hgiven, hout⟩

/-- The mutex is handed over to the first thread that waits. -/
theorem MutexOk.hand_over (h : MutexOk idle s) (ht : s.taking t = false)
    (howner : s.mutex.owner = some t) (hhold : ¬ s.mutex.hold - 1 ≠ 0) {next : Nat}
    {rest : List Nat} (hlist : s.mutex.suspendThread = next :: rest) :
    let list := ipcListResume (restoreOwner s t) s.mutex.suspendThread
    MutexOk idle
        (({ s with
            scheduler := rtSchedule list.1
            mutex := { s.mutex with
              hold := s.mutex.hold - 1 + 1, owner := some next
              originalPriority := ((restoreOwner s t).thread next).currentPriority
              suspendThread := list.2 } } : MutexState).setTakes t (s.takes t - 1)) ∧
      Scheduled (rtSchedule list.1) := by
  intro list
  obtain ⟨hvalue, hzero, htakes⟩ := h.last ht howner hhold
  obtain ⟨hok, hkept, hself⟩ := restoreOwner_spec h howner
  have hnext : next ∈ s.mutex.suspendThread := hlist ▸ List.mem_cons_self
  have hne {u : Nat} (hu : u ∈ s.mutex.suspendThread) : u ≠ t := by
    rintro rfl
    exact (h.waiting u hu).2.2 howner
  have hwaiters : Waiters (restoreOwner s t) (next :: rest) :=
    hlist ▸ h.waiters.kept fun u hu => hkept u (hne hu)
  have hbyPriority : ByPriority (restoreOwner s t) (next :: rest) :=
    hlist ▸ h.byPriority.congr fun u hu => (hkept u (hne hu)).priority
  have hresumed : list = (scheduleInsertThread (restoreOwner s t) next, rest) := by
    show ipcListResume _ _ = _
    rw [hlist, ipcListResume_cons hwaiters]
  have hnot : next ∉ rest := (List.nodup_cons.mp hwaiters.nodup).1
  have hinserted := hok.insert (hwaiters.waits next List.mem_cons_self)
  -- the priorities stay as they are behind the last release
  have hpriority (u : Nat) :
      ((rtSchedule (scheduleInsertThread (restoreOwner s t) next)).thread u).currentPriority =
        ((restoreOwner s t).thread u).currentPriority :=
    (kept_rtSchedule hinserted u).priority.trans priority_insert
  have hothers (u : Nat) (hu : u ≠ t) :
      ((rtSchedule (scheduleInsertThread (restoreOwner s t) next)).thread u).currentPriority =
        s.priority u :=
    (hpriority u).trans (hkept u hu).priority
  obtain ⟨htaking, herror, hnotOwner⟩ := h.waiting next hnext
  obtain ⟨hnextTakes, hnextGiven, -⟩ := h.others next hnotOwner
  rw [hresumed]
  refine ⟨⟨hinserted.scheduled.1, hwaiters.resume.kept fun u _ => kept_rtSchedule hinserted u,
    (hbyPriority.sublist (List.sublist_cons_self next rest)).congr fun u _ => hpriority u,
    fun u hu => ?_, fun hnone => absurd hnone (Option.some_ne_none next), fun o ho => ?_,
    fun u hu => ?_, fun o ho => ?_⟩, hinserted.scheduled.2⟩
  · obtain ⟨htakingU, herrorU, -⟩ := h.waiting u (hlist ▸ List.mem_cons_of_mem next hu)
    refine ⟨htakingU, herrorU, fun heq => hnot ?_⟩
    rw [Option.some.inj heq]
    exact hu
  · obtain rfl : next = o := Option.some.inj ho
    refine ⟨hvalue, ?_, ?_, fun _ => herror⟩
    · show s.mutex.hold - 1 + 1 ≠ 0
      rw [hzero]
      decide
    · show (s.mutex.hold - 1 + 1).toNat =
        Function.update s.takes t (s.takes t - 1) next + if s.taking next = true then 1 else 0
      rw [hzero, Function.update_of_ne (hne hnext), hnextTakes, if_pos htaking]
      rfl
  · have hun : next ≠ u := fun heq => hu (congrArg some heq)
    by_cases hut : u = t
    · subst hut
      exact ⟨(Function.update_self _ _ _).trans htakes, (hpriority u).trans hself,
        fun htakingU => absurd (ht.symm.trans htakingU) Bool.false_ne_true⟩
    · have hother : s.mutex.owner ≠ some u := by
        rw [howner]
        exact fun heq => hut (Option.some.inj heq).symm
      obtain ⟨htakesU, hgivenU, hout⟩ := h.others u hother
      refine ⟨(Function.update_of_ne hut _ _).trans htakesU, (hothers u hut).trans hgivenU,
        fun htakingU => (hout htakingU).imp_left fun hu => ?_⟩
      rw [hlist] at hu
      exact (List.mem_cons.mp hu).resolve_left (Ne.symm hun)
  · obtain rfl : next = o := Option.some.inj ho
    have hsame := (hkept next (hne hnext)).priority
    refine ⟨hsame.trans hnextGiven, ?_, ?_, fun w hw => ?_⟩
    · exact hnextGiven ▸ (h.scheduler.queued.valid next).current
    · exact Nat.le_of_eq ((hothers next (hne hnext)).trans hnextGiven)
    · have hle : ((restoreOwner s t).thread next).currentPriority ≤
          ((restoreOwner s t).thread w).currentPriority := hbyPriority.first hw
      exact (Nat.le_of_eq (hpriority next)).trans (hle.trans (Nat.le_of_eq (hpriority w).symm))

/-- Releasing, whichever branch it goes through; only a release that hands the mutex over calls the
scheduler. -/
theorem rtMutexRelease_ok (h : MutexOk idle s) (hcalls : s.Calls t) {err : RtErr}
    (hresult : rtMutexRelease s t = (err, s')) :
    (err = .eok → MutexOk idle (s'.setTakes t (s'.takes t - 1))) ∧ (err ≠ .eok → MutexOk idle s') ∧
      (s'.mutex.suspendThread ≠ s.mutex.suspendThread → Scheduled s'.scheduler) := by
  obtain ⟨-, ht⟩ := hcalls
  unfold rtMutexRelease at hresult
  dsimp only at hresult
  split at hresult
  · obtain ⟨rfl, rfl⟩ := Prod.mk.inj hresult
    exact ⟨fun hf => absurd hf (by decide), fun _ => h.setError ht .error, fun hne => absurd rfl hne⟩
  · rename_i howner
    have howner : s.mutex.owner = some t := not_not.mp howner
    split at hresult
    · rename_i hhold
      obtain ⟨rfl, rfl⟩ := Prod.mk.inj hresult
      exact ⟨fun _ => h.unnest ht howner hhold, fun hf => absurd rfl hf, fun hne => absurd rfl hne⟩
    · rename_i hhold
      obtain ⟨hvalue, hzero, -⟩ := h.last ht howner hhold
      split at hresult
      · rename_i next rest hlist
        split at hresult
        · obtain ⟨rfl, rfl⟩ := Prod.mk.inj hresult
          have hover := h.hand_over ht howner hhold hlist
          exact ⟨fun _ => hover.1, fun hf => absurd rfl hf, fun _ => hover.2⟩
        · rename_i hfull
          rw [hzero] at hfull
          exact absurd (by decide) hfull
      · rename_i hempty
        split at hresult
        · obtain ⟨rfl, rfl⟩ := Prod.mk.inj hresult
          exact ⟨fun _ => h.give_back ht howner hhold hempty, fun hf => absurd rfl hf,
            fun hne => absurd rfl hne⟩
        · rename_i hfull
          rw [hvalue] at hfull
          exact absurd (by decide) hfull

/-! ## The other steps -/

/-- A thread leaves the list, and its priority stays as it is. -/
theorem MutexOk.leave (h : MutexOk idle s) {scheduler : Scheduler} (howner : s.mutex.owner ≠ some t)
    (hok : SchedulerOk idle scheduler) (hkept : ∀ u, u ≠ t → Kept s.scheduler scheduler u)
    (hself : (scheduler.thread t).currentPriority = s.priority t) {error : Nat → RtErr}
    {taking : Nat → Bool} (herror : ∀ u, u ≠ t → error u = s.error u)
    (htaking : ∀ u, u ≠ t → taking u = s.taking u) (hout : taking t = true → error t ≠ .eok) :
    MutexOk idle { s with
      scheduler, error, taking
      mutex := { s.mutex with suspendThread := s.mutex.suspendThread.filter (· ≠ t) } } := by
  have hsub : (s.mutex.suspendThread.filter (· ≠ t)).Sublist s.mutex.suspendThread :=
    List.filter_sublist
  have hmem {u : Nat} (hu : u ∈ s.mutex.suspendThread.filter (· ≠ t)) :
      u ∈ s.mutex.suspendThread ∧ u ≠ t := by
    simpa using hu
  have hpriority (u : Nat) : (scheduler.thread u).currentPriority = s.priority u := by
    by_cases hut : u = t
    · subst hut
      exact hself
    · exact (hkept u hut).priority
  refine ⟨hok, (h.waiters.sublist hsub).kept fun u hu => hkept u (hmem hu).2,
    (h.byPriority.sublist hsub).congr fun u _ => hpriority u, fun u hu => ?_, fun hnone => ?_,
    fun o ho => ?_, fun u hu => ?_, fun o ho => ?_⟩
  · obtain ⟨hlist, hut⟩ := hmem hu
    obtain ⟨htake, heok, hnot⟩ := h.waiting u hlist
    exact ⟨(htaking u hut).trans htake, (herror u hut).trans heok, hnot⟩
  · obtain ⟨hvalue, hhold, hempty⟩ := h.free hnone
    refine ⟨hvalue, hhold, ?_⟩
    show s.mutex.suspendThread.filter _ = []
    rw [hempty]
    rfl
  · have hot : o ≠ t := by
      rintro rfl
      exact howner ho
    obtain ⟨hvalue, hhold, hcount, heok⟩ := h.held o ho
    refine ⟨hvalue, hhold, ?_, fun htake => ?_⟩
    · show _ = s.takes o + if taking o = true then 1 else 0
      rw [htaking o hot]
      exact hcount
    · exact (herror o hot).trans (heok ((htaking o hot).symm.trans htake))
  · obtain ⟨htakes, hgiven, hwait⟩ := h.others u hu
    refine ⟨htakes, (hpriority u).trans hgiven, fun htake => ?_⟩
    by_cases hut : u = t
    · subst hut
      exact Or.inr (hout htake)
    · rcases hwait ((htaking u hut).symm.trans htake) with hlist | herr
      · exact Or.inl (List.mem_filter.mpr ⟨hlist, decide_eq_true hut⟩)
      · exact Or.inr fun heq => herr ((herror u hut).symm.trans heq)
  · obtain ⟨horiginal, hlt, hraised, hall⟩ := h.inherits o ho
    refine ⟨horiginal, hlt, (Nat.le_of_eq (hpriority o)).trans hraised, fun w hw => ?_⟩
    exact (Nat.le_of_eq (hpriority o)).trans
      ((hall w (hmem hw).1).trans (Nat.le_of_eq (hpriority w).symm))

/-- A thread whose time is over leaves the list, and its call returns. -/
theorem mutexTimeout_ok (h : MutexOk idle s) (ht : t ∈ s.mutex.suspendThread) :
    MutexOk idle (mutexTimeout s t) ∧ Scheduled (mutexTimeout s t).scheduler := by
  have hinserted := h.scheduler.insert (h.waiters.waits t ht)
  refine ⟨h.leave (h.waiting t ht).2.2 hinserted.scheduled.1 (fun u hu => ?_) ?_
    (fun u hu => Function.update_of_ne hu _ _) (fun _ _ => rfl) fun _ => ?_, hinserted.scheduled.2⟩
  · exact (kept_insert hu).trans (kept_rtSchedule hinserted u)
  · exact (kept_rtSchedule hinserted t).priority.trans priority_insert
  · show Function.update s.error t .etimeout t ≠ .eok
    rw [Function.update_self]
    decide

/-- A thread that waits may be ended: it leaves the list. -/
theorem mutexDetach_ok (h : MutexOk idle s) (howner : s.mutex.owner ≠ some t) (ht : t ≠ idle) :
    MutexOk idle ((mutexDetach s t).setTaking t false) := by
  refine h.leave howner (rtThreadDetach_ok h.scheduler ht) (fun u hu => kept_rtThreadDetach hu)
    priority_rtThreadDetach (fun _ _ => rfl) (fun u hu => Function.update_of_ne hu _ _) fun hf => ?_
  rw [Function.update_self] at hf
  cases hf

/-- Behind these steps the scheduler was called. -/
def MutexAct.Schedules (s s' : MutexState) : MutexAct → Prop
  | .take t time => (rtMutexTake s t time).1 = none
  | .release _ => s'.mutex.suspendThread ≠ s.mutex.suspendThread
  | .timeout _ => True
  | .exit _ => True
  | .other act => act.Schedules s.scheduler
  | _ => False

/-- What goes on around the mutex leaves its threads alone (`frame`). -/
theorem mutexOther_ok (h : MutexOk idle s) {act : SchedulerAct}
    (houtside : act.outside s.mutex = true) {scheduler : Scheduler}
    (hstep : schedulerStep idle s.scheduler act = some scheduler) :
    MutexOk idle (({ s with scheduler } : MutexState).give act.given) := by
  refine h.frame act.given (schedulerStep_ok h.scheduler hstep).1 (fun w hw => ?_)
    (fun u hu => schedulerStep_priority h.scheduler hstep hu) fun u hu => ?_
  · refine schedulerStep_waits h.scheduler hstep (h.waiters.waits w hw) fun hwakes => ?_
    cases act with
    | resume u | timeout u =>
      obtain rfl : u = w := hwakes
      exact of_decide_eq_true houtside hw
    | changePriority u =>
      obtain rfl : u = w := hwakes
      exact of_decide_eq_true (Bool.and_eq_true_iff.mp houtside).2 hw
    | detach | exit => cases houtside
    | init | startup | start | schedule | suspend | yield | enterCritical | exitCritical | tick =>
      exact hwakes
  · cases act with
    | init t | startup t =>
      obtain rfl : t = u := Option.some.inj hu
      exact of_decide_eq_true houtside
    | changePriority t =>
      obtain rfl : t = u := Option.some.inj hu
      exact of_decide_eq_true (Bool.and_eq_true_iff.mp houtside).1
    | start | schedule | resume | suspend | timeout | yield | detach | exit | enterCritical |
        exitCritical | tick => cases hu

/-- **One step keeps `MutexOk`**, by the lemma of its action; and where it calls the scheduler a
thread of the highest priority runs. -/
theorem mutexStep_ok (h : MutexOk idle s) {act : MutexAct} (hstep : mutexStep idle s act = some s') :
    MutexOk idle s' ∧ (act.Schedules s s' → Scheduled s'.scheduler) := by
  cases act with
  | take t time =>
    obtain ⟨⟨hcalls, htime⟩, hs⟩ := Option.ite_none_right_eq_some.mp hstep
    obtain ⟨hends, hwaits⟩ := rtMutexTake_ok h hcalls htime
    split at hs
    · rename_i err mid hresult
      obtain rfl := Option.some.inj hs
      refine ⟨hends err mid hresult, fun hnone => ?_⟩
      have hnone : (rtMutexTake s t time).1 = none := hnone
      rw [hresult] at hnone
      cases hnone
    · rename_i mid hresult
      obtain rfl := Option.some.inj hs
      exact ⟨(hwaits mid hresult).1, fun _ => (hwaits mid hresult).2⟩
  | taken t =>
    obtain ⟨⟨hrun, htaking⟩, hs⟩ := Option.ite_none_right_eq_some.mp hstep
    obtain rfl := Option.some.inj hs
    exact ⟨h.taken hrun htaking, False.elim⟩
  | release t =>
    obtain ⟨hcalls, hs⟩ := Option.ite_none_right_eq_some.mp hstep
    split at hs
    · rename_i mid hresult
      obtain rfl := Option.some.inj hs
      obtain ⟨hok, -, hscheduled⟩ := rtMutexRelease_ok h hcalls hresult
      exact ⟨hok rfl, hscheduled⟩
    · rename_i err mid hne hresult
      obtain rfl := Option.some.inj hs
      obtain ⟨-, hok, hscheduled⟩ := rtMutexRelease_ok h hcalls hresult
      exact ⟨hok hne, hscheduled⟩
  | timeout t =>
    obtain ⟨ht, hs⟩ := Option.ite_none_right_eq_some.mp hstep
    obtain rfl := Option.some.inj hs
    exact ⟨(mutexTimeout_ok h ht).1, fun _ => (mutexTimeout_ok h ht).2⟩
  | detach t =>
    obtain ⟨⟨howner, ht⟩, hs⟩ := Option.ite_none_right_eq_some.mp hstep
    obtain rfl := Option.some.inj hs
    exact ⟨mutexDetach_ok h howner ht, False.elim⟩
  | exit t =>
    obtain ⟨⟨⟨hrun, -⟩, -⟩, hs⟩ := Option.ite_none_right_eq_some.mp hstep
    obtain ⟨scheduler, hexit, rfl⟩ := Option.map_eq_some_iff.mp hs
    refine ⟨?_, fun _ => (schedulerStep_ok h.scheduler hexit).2 trivial⟩
    refine h.frame none (schedulerStep_ok h.scheduler hexit).1 (fun w hw => ?_)
      (fun u _ => schedulerStep_priority h.scheduler hexit (Option.some_ne_none u).symm) fun u hu => ?_
    · refine schedulerStep_waits h.scheduler hexit (h.waiters.waits w hw) fun hcurrent => ?_
      have hcurrent : s.scheduler.currentThread = some w := hcurrent
      obtain rfl := Option.some.inj (hcurrent.symm.trans (h.scheduler.running t hrun))
      exact h.not_waiting hrun hw
    · cases hu
  | other act =>
    obtain ⟨houtside, hs⟩ := Option.ite_none_right_eq_some.mp hstep
    obtain ⟨scheduler, hother, rfl⟩ := Option.map_eq_some_iff.mp hs
    exact ⟨mutexOther_ok h houtside hother, (schedulerStep_ok h.scheduler hother).2⟩

/-- So every state that is reached meets it. -/
theorem MutexOk.run {acts : List MutexAct} (hrun : run (mutexStep idle) mutexStart acts = some s) :
    MutexOk idle s :=
  run_invariant (fun _ _ _ hs hstep => (mutexStep_ok hs hstep).1) acts _ _ (mutexStart_ok idle) hrun

end Runs

/-- In every run of `mutexStep`, in any order: a thread that took the mutex more often than it
released it, by the results of its calls, is the owner, and `hold` says how often, with one more for
a take that was handed the mutex and did not return yet; a thread that is not the owner and got into
`rt_mutex_take` is in the list, or its time was over; the mutex is free exactly while it has no
owner, and then no thread waits.

The owner changes in three places only: a take that finds `value` 1, and a last release, which hands
the mutex to the first thread of the list or sets `value` to 1 again.  The thread of the list still
has no error, and that is why its call returns `RT_EOK` when it goes on. -/
theorem mutex_exclusive (idle : Nat) {acts : List MutexAct} {s : MutexState}
    (hrun : run (mutexStep idle) mutexStart acts = some s) :
    (∀ t, 0 < s.takes t → s.mutex.owner = some t ∧ s.mutex.hold.toNat = s.holds t) ∧
      (∀ t, s.taking t = true → s.mutex.owner = some t ∧ s.error t = .eok ∨
        t ∈ s.mutex.suspendThread ∨ s.error t ≠ .eok) ∧
      (s.mutex.value = 1 ↔ s.mutex.owner = none) ∧
      (s.mutex.owner = none → s.mutex.hold = 0 ∧ s.mutex.suspendThread = []) ∧
      ∀ t ∈ s.mutex.suspendThread, (s.scheduler.thread t).stat = .suspend := by
  have h := MutexOk.run hrun
  refine ⟨fun t htakes => ?_, fun t htaking => ?_, ⟨fun hvalue => ?_, fun hnone => (h.free hnone).1⟩,
    fun hnone => (h.free hnone).2, h.waiters.waits⟩
  · have howner : s.mutex.owner = some t := by
      by_contra hnot
      rw [(h.others t hnot).1] at htakes
      exact absurd htakes (Nat.lt_irrefl 0)
    exact ⟨howner, (h.held t howner).2.2.1⟩
  · by_cases howner : s.mutex.owner = some t
    · exact Or.inl ⟨howner, (h.held t howner).2.2.2 htaking⟩
    · exact Or.inr ((h.others t howner).2.2 htaking)
  · cases ho : s.mutex.owner with
    | none => rfl
    | some o =>
      rw [(h.held o ho).1] at hvalue
      exact absurd hvalue (by decide)

/-- A thread of a low priority that has the mutex, while one of a high priority waits for it. -/
def lowHolds : List MutexAct :=
  [.other (.init 0 31 5), .other (.init 1 20 5), .other (.init 2 10 5), .other (.startup 0),
    .other (.startup 1), .other .start, .take 1 0, .other (.startup 2)]

theorem mutex_exclusive_low_holds : ∃ s,
    run (mutexStep 0) mutexStart (lowHolds ++ [.take 2 (-1)]) = some s ∧ 0 < s.takes 1 ∧
      s.mutex.owner = some 1 ∧ s.mutex.hold.toNat = s.holds 1 := by
  refine ⟨_, rfl, by decide, ?_⟩
  exact (mutex_exclusive 0 (show run (mutexStep 0) mutexStart (lowHolds ++ [.take 2 (-1)]) =
    some _ from rfl)).1 1 (by decide)

/-- While a thread waits, the owner has at least its priority.  The owner has at least the priority
that it was given, and every other thread has that one.  So, behind each step that calls the
scheduler, a tick that uses up a slice among them, no thread of a lower priority than one that waits
is running, unless the owner itself waits for something else.

The scheduler runs a thread of the highest priority that is ready, and the owner is ready or running
at a priority at least as high as that of every thread in the list. -/
theorem priority_inheritance (idle : Nat) {acts : List MutexAct} {act : MutexAct} {s s' : MutexState}
    (hrun : run (mutexStep idle) mutexStart acts = some s) (hstep : mutexStep idle s act = some s') :
    (∀ w ∈ s'.mutex.suspendThread, ∃ o, s'.mutex.owner = some o ∧ s'.priority o ≤ s'.priority w) ∧
      (∀ t, s'.mutex.owner ≠ some t → s'.priority t = s'.given t) ∧
      (∀ o, s'.mutex.owner = some o → s'.priority o ≤ s'.given o) ∧
      (act.Schedules s s' → s'.scheduler.currentThread ≠ none → s'.scheduler.lockNest = 0 →
        ∀ w ∈ s'.mutex.suspendThread, ∀ o, s'.mutex.owner = some o →
          (s'.scheduler.thread o).stat.Runnable →
          ∃ c, s'.scheduler.currentThread = some c ∧ s'.priority c ≤ s'.priority w) := by
  obtain ⟨h, hscheduled⟩ := mutexStep_ok (MutexOk.run hrun) hstep
  refine ⟨fun w hw => ?_, fun t ht => (h.others t ht).2.1, fun o ho => (h.inherits o ho).2.2.1,
    fun hact hstarted hopen w hw o ho hrunnable => ?_⟩
  · cases ho : s'.mutex.owner with
    | none =>
      rw [(h.free ho).2.2] at hw
      exact absurd hw List.not_mem_nil
    | some o => exact ⟨o, rfl, (h.inherits o ho).2.2.2 w hw⟩
  · obtain ⟨c, hc, -, hleast⟩ := hscheduled hact hstarted hopen
    refine ⟨c, hc, Nat.le_trans ?_ ((h.inherits o ho).2.2.2 w hw)⟩
    rcases hrunnable with hready | hrunning
    · exact hleast o hready
    · obtain rfl : c = o := Option.some.inj (hc.symm.trans (h.scheduler.running o hrunning))
      exact Nat.le_refl _

theorem priority_inheritance_low_holds : ∃ s s',
    run (mutexStep 0) mutexStart lowHolds = some s ∧ mutexStep 0 s (.take 2 (-1)) = some s' ∧
      s'.mutex.suspendThread = [2] ∧
      ∃ c, s'.scheduler.currentThread = some c ∧ s'.priority c ≤ s'.priority 2 := by
  refine ⟨_, _, rfl, rfl, rfl, ?_⟩
  exact (priority_inheritance 0 (show run (mutexStep 0) mutexStart lowHolds = some _ from rfl)
    (show mutexStep 0 _ (.take 2 (-1)) = some _ from rfl)).2.2.2
    (show (rtMutexTake _ 2 (-1)).1 = none from rfl) (by decide) rfl 2 (by decide) 1 rfl (by decide)

end HpmSdk.Rtt
