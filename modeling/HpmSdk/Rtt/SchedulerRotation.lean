import HpmSdk.Rtt.SchedulerRuns
import Mathlib.Algebra.Order.Ring.Nat
import Mathlib.Logic.Function.Iterate

set_option autoImplicit false

/-!
# Time slices

The ready threads of the highest priority take turns.  Each runs until its slice is used up and then
goes to the end of the queue, so that the next one gets the processor after exactly the slices in
front of it.

The induction is on the threads in front: a tick counts the running one down, and the tick that uses
its slice up moves it to the end.
-/

namespace HpmSdk.Rtt

open Foundation

/-- The threads of the highest priority in the order of their turns: the one that runs, and the
queue behind it. -/
structure Turns (s : Scheduler) (p : Nat) (turns : List Nat) : Prop where
  current : s.currentThread = turns.head?
  queue : s.priorityTable p = turns.tail
  several : 2 ≤ turns.length
  unlocked : s.lockNest = 0
  highest : ∀ q < p, s.priorityTable q = []
  running : ∀ t ∈ turns.head?, (s.thread t).stat = .running
  threads : ∀ t ∈ turns, (s.thread t).currentPriority = p ∧ (s.thread t).yielded = false ∧
    (s.thread t).initTick ≠ 0 ∧ (s.thread t).remainingTick ≠ 0

/-- The slice that is left to a thread. -/
def sliceLeft (s : Scheduler) (t : Nat) : Nat := (s.thread t).remainingTick.toNat

section Turns

variable {idle : Nat} {s : Scheduler} {p c first : Nat} {rest : List Nat}

/-- The queues behind a switch from a thread that goes on to be ready. -/
theorem priorityTable_switchTo (hne : first ≠ c) (q : Nat) :
    (switchTo s c first p true).priorityTable q =
      (if q = (s.thread c).currentPriority then s.priorityTable q ++ [c]
        else s.priorityTable q).filter (· ≠ first) := by
  have hcurrent : ({ s with currentPriority := p, currentThread := some first } :
      Scheduler).currentThread ≠ some c := fun h => hne (Option.some.inj h)
  unfold switchTo
  dsimp only [Scheduler.setStat, Scheduler.update]
  rw [if_pos rfl, priorityTable_remove, scheduleInsertThread, if_neg hcurrent]
  dsimp only [Scheduler.setStat, Scheduler.update]
  rw [Function.update_self]
  by_cases hq : q = (s.thread c).currentPriority
  · rw [if_pos hq, hq, Function.update_self]
  · rw [if_neg hq, Function.update_of_ne hq]

/-- The first thread of the queue is the one that is found. -/
theorem Queued.highest_of_queue (h : Queued s) (hqueue : s.priorityTable p = first :: rest)
    (hempty : ∀ q < p, s.priorityTable q = []) :
    highestPriorityThread s = some (first, p) ∧ s.readyPriorityGroup ≠ 0 ∧
      (s.thread first).stat = .ready := by
  have hmem := (h.mem p first).mp (hqueue ▸ List.mem_cons_self)
  obtain ⟨first', rest', p', htable, hhighest, hgroup, hleast⟩ := h.highest hmem.1
  have hle := hleast first hmem.1
  rw [hmem.2] at hle
  obtain rfl : p' = p := by
    by_contra hne
    rw [hempty p' (by omega)] at htable
    cases htable
  rw [hqueue] at htable
  cases htable
  exact ⟨hhighest, hgroup, hmem.1⟩

/-- A thread whose slice was used up: it has a new one. -/
def reloaded (s : Scheduler) (c : Nat) : Scheduler :=
  s.update c fun x => { x with remainingTick := x.initTick, yielded := false }

/-- The tick that uses up a slice is a switch. -/
theorem tickSlice_eq_switchTo (hok : SchedulerOk idle s) (h : Turns s p (c :: first :: rest))
    (hlast : sliceLeft s c = 1) : first ≠ c ∧ (s.thread first).stat = .ready ∧
      tickSlice s = switchTo (reloaded s c) c first p true := by
  have hc : s.currentThread = some c := h.current
  have hrun : (s.thread c).stat = .running := h.running c rfl
  obtain ⟨hpriority, -, -, -⟩ := h.threads c List.mem_cons_self
  let spent := s.update c fun x => { x with remainingTick := x.initTick, yielded := true }
  have hspent : SchedulerOk idle spent := hok.tick c (fun x => x.initTick) fun _ => true
  obtain ⟨hhighest, hgroup, hready⟩ := hspent.queued.highest_of_queue (p := p) h.queue h.highest
  have hself : spent.thread c =
      { s.thread c with remainingTick := (s.thread c).initTick, yielded := true } :=
    thread_update_self
  have hne : first ≠ c := by
    rintro rfl
    rw [hself] at hready
    exact absurd (hready.symm.trans hrun) (by decide)
  have hzero : (s.thread c).remainingTick - 1 = 0 := by
    have hone : (s.thread c).remainingTick = 1 := BitVec.eq_of_toNat_eq hlast
    rw [hone]
    rfl
  have htick : tickSlice s = rtSchedule spent := by
    unfold tickSlice
    rw [hc]
    dsimp only
    rw [thread_update_self, if_pos hzero]
    congr 1
    simp [spent, Scheduler.update]
  refine ⟨hne, ?_, ?_⟩
  · rw [← hready]
    exact congrArg RtThread.stat (thread_update_of_ne hne).symm
  · have hstays : staysCurrent (spent.thread c) p = false := by
      rw [hself]
      simp [staysCurrent, hpriority]
    have hopen : ¬ (spent.lockNest ≠ 0 ∨ spent.readyPriorityGroup = 0) :=
      not_or.mpr ⟨not_not.mpr h.unlocked, hgroup⟩
    rw [htick, rtSchedule_switches (s := spent) hc hhighest hopen hne (by rw [hself]; exact hrun)
      hstays]
    congr 1
    simp [spent, unyield, reloaded, Scheduler.update]

/-- The tick that uses up a slice passes the processor on. -/
theorem tickSlice_last (hok : SchedulerOk idle s) (h : Turns s p (c :: first :: rest))
    (hlast : sliceLeft s c = 1) :
    Turns (tickSlice s) p (first :: rest ++ [c]) ∧
      ∀ t, ((tickSlice s).thread t).initTick = (s.thread t).initTick ∧
        ((tickSlice s).thread t).remainingTick =
          if t = c then (s.thread c).initTick else (s.thread t).remainingTick := by
  obtain ⟨hne, hready, hswitch⟩ := tickSlice_eq_switchTo hok h hlast
  have hpriority := (h.threads c List.mem_cons_self).1
  have hqueue : s.priorityTable p = first :: rest := h.queue
  have hnodup := hok.queued.nodup p
  rw [hqueue, List.nodup_cons] at hnodup
  have hself : (reloaded s c).thread c =
      { s.thread c with remainingTick := (s.thread c).initTick, yielded := false } :=
    thread_update_self
  have hother {t : Nat} (ht : t ≠ c) : (reloaded s c).thread t = s.thread t :=
    thread_update_of_ne ht
  have hthread (t : Nat) : (tickSlice s).thread t =
      if t = first then { s.thread t with stat := .running }
      else if t = c then
        { s.thread c with stat := .ready, remainingTick := (s.thread c).initTick, yielded := false }
      else s.thread t := by
    rw [hswitch, thread_switchTo hne]
    by_cases htf : t = first
    · rw [if_pos htf, if_pos htf, htf, hother hne]
    · rw [if_neg htf, if_neg htf]
      by_cases htc : t = c
      · rw [if_pos ⟨htc, rfl⟩, if_pos htc, htc, hself]
      · rw [if_neg (fun hc => htc hc.1), if_neg htc, hother htc]
  have htable (q : Nat) : (tickSlice s).priorityTable q =
      (if q = p then s.priorityTable q ++ [c] else s.priorityTable q).filter (· ≠ first) := by
    rw [hswitch, priorityTable_switchTo hne, hself]
    show (if q = (s.thread c).currentPriority then _ else _ : List Nat).filter _ = _
    rw [hpriority]
    rfl
  refine ⟨⟨?_, ?_, ?_, ?_, ?_, ?_, ?_⟩, fun t => ?_⟩
  · rw [hswitch, currentThread_switchTo]
    rfl
  · have hrest : rest.filter (· ≠ first) = rest :=
      List.filter_eq_self.mpr fun t ht => decide_eq_true fun heq => hnodup.1 (heq ▸ ht)
    rw [htable, if_pos rfl, hqueue, List.cons_append, List.filter_cons_of_neg (by simp),
      List.filter_append, hrest, List.filter_cons_of_pos (by simpa using hne.symm), List.filter_nil]
    rfl
  · have hseveral := h.several
    rwa [List.length_append, List.length_singleton, ← List.length_cons]
  · rw [hswitch, lockNest_switchTo]
    exact h.unlocked
  · intro q hq
    rw [htable, if_neg (Nat.ne_of_lt hq), h.highest q hq, List.filter_nil]
  · intro t ht
    obtain rfl : first = t := Option.some.inj ht
    rw [hthread, if_pos rfl]
  · intro t ht
    have hmem : t ∈ c :: first :: rest := by
      rw [List.mem_append, List.mem_singleton] at ht
      exact ht.elim (List.mem_cons_of_mem c) fun hc => hc ▸ List.mem_cons_self
    obtain ⟨ht₁, ht₂, ht₃, ht₄⟩ := h.threads t hmem
    rw [hthread]
    by_cases htf : t = first
    · rw [if_pos htf]
      exact ⟨ht₁, ht₂, ht₃, ht₄⟩
    · rw [if_neg htf]
      by_cases htc : t = c
      · rw [if_pos htc, ← htc]
        exact ⟨ht₁, rfl, ht₃, ht₃⟩
      · rw [if_neg htc]
        exact ⟨ht₁, ht₂, ht₃, ht₄⟩
  · rw [hthread]
    by_cases htf : t = first
    · rw [if_pos htf, if_neg (htf ▸ hne)]
      exact ⟨rfl, rfl⟩
    · rw [if_neg htf]
      by_cases htc : t = c
      · rw [if_pos htc, if_pos htc, htc]
        exact ⟨rfl, rfl⟩
      · rw [if_neg htc, if_neg htc]
        exact ⟨rfl, rfl⟩

/-- A tick in the middle of a slice. -/
theorem tickSlice_within (h : Turns s p (c :: first :: rest)) {n : Nat}
    (hleft : sliceLeft s c = n + 2) :
    tickSlice s = s.update c fun x => { x with remainingTick := x.remainingTick - 1 } := by
  have hc : s.currentThread = some c := h.current
  have hmore : (s.thread c).remainingTick - 1 ≠ 0 := by
    intro hzero
    have hone : (s.thread c).remainingTick = 1 := by
      rw [← BitVec.sub_add_cancel (s.thread c).remainingTick 1, hzero]
      rfl
    rw [sliceLeft, hone] at hleft
    cases hleft
  unfold tickSlice
  rw [hc]
  dsimp only
  rw [thread_update_self, if_neg hmore]

/-- What is left of a slice, one tick after another. -/
theorem tickSlice_slice (hok : SchedulerOk idle s) (h : Turns s p (c :: first :: rest)) {n : Nat}
    (hleft : sliceLeft s c = n + 1) :
    SchedulerOk idle (tickSlice^[n + 1] s) ∧
      Turns (tickSlice^[n + 1] s) p (first :: rest ++ [c]) ∧
      ∀ t, ((tickSlice^[n + 1] s).thread t).initTick = (s.thread t).initTick ∧
        ((tickSlice^[n + 1] s).thread t).remainingTick =
          if t = c then (s.thread c).initTick else (s.thread t).remainingTick := by
  induction n generalizing s with
  | zero => exact ⟨(tickSlice_ok hok).1, tickSlice_last hok h hleft⟩
  | succ n ih =>
    let s₁ := s.update c fun x => { x with remainingTick := x.remainingTick - 1 }
    have hwithin : tickSlice s = s₁ := tickSlice_within h hleft
    have hself : s₁.thread c =
        { s.thread c with remainingTick := (s.thread c).remainingTick - 1 } := thread_update_self
    have hother {t : Nat} (ht : t ≠ c) : s₁.thread t = s.thread t := thread_update_of_ne ht
    have hleft₁ : sliceLeft s₁ c = n + 1 := by
      have hlt := (s.thread c).remainingTick.isLt
      rw [sliceLeft] at hleft
      rw [sliceLeft, hself]
      dsimp only
      rw [BitVec.toNat_sub_of_le (by rw [BitVec.le_def, hleft]; exact Nat.le_add_left 1 (n + 1)),
        hleft]
      rfl
    have hok₁ : SchedulerOk idle s₁ := hwithin ▸ (tickSlice_ok hok).1
    have h₁ : Turns s₁ p (c :: first :: rest) := by
      refine ⟨h.current, h.queue, h.several, h.unlocked, h.highest, fun t ht => ?_, fun t ht => ?_⟩
      · obtain rfl : c = t := Option.some.inj ht
        rw [hself]
        exact h.running c rfl
      · obtain ⟨ht₁, ht₂, ht₃, ht₄⟩ := h.threads t ht
        by_cases htc : t = c
        · subst htc
          rw [hself]
          refine ⟨ht₁, ht₂, ht₃, fun hzero => ?_⟩
          have hnil : sliceLeft s₁ t = 0 := by
            rw [sliceLeft, hself]
            exact congrArg BitVec.toNat hzero
          omega
        · rw [hother htc]
          exact ⟨ht₁, ht₂, ht₃, ht₄⟩
    obtain ⟨hok₂, h₂, hticks⟩ := ih hok₁ h₁ hleft₁
    rw [Function.iterate_succ_apply, hwithin]
    refine ⟨hok₂, h₂, fun t => ?_⟩
    rw [(hticks t).1, (hticks t).2, hself]
    by_cases htc : t = c
    · rw [if_pos htc, if_pos htc, htc, hself]
      exact ⟨rfl, rfl⟩
    · rw [if_neg htc, if_neg htc, hother htc]
      exact ⟨rfl, rfl⟩

/-- No thread has two turns in one round. -/
theorem Turns.nodup {turns : List Nat} (h : Turns s p turns) (hok : SchedulerOk idle s) :
    turns.Nodup := by
  cases turns with
  | nil => exact List.nodup_nil
  | cons c rest =>
    have hqueue : s.priorityTable p = rest := h.queue
    refine List.nodup_cons.mpr ⟨fun hmem => ?_, hqueue ▸ hok.queued.nodup p⟩
    rw [← hqueue] at hmem
    have hready := ((hok.queued.mem p c).mp hmem).1
    exact absurd (hready.symm.trans (h.running c rfl)) (by decide)

/-- The slices of the first threads, one after another. -/
theorem turns_pass {l₁ l₂ : List Nat} (hok : SchedulerOk idle s) (h : Turns s p (l₁ ++ l₂)) :
    Turns (tickSlice^[(l₁.map (sliceLeft s)).sum] s) p (l₂ ++ l₁) ∧
      ∀ t, ((tickSlice^[(l₁.map (sliceLeft s)).sum] s).thread t).remainingTick =
        if t ∈ l₁ then (s.thread t).initTick else (s.thread t).remainingTick := by
  induction l₁ generalizing s l₂ with
  | nil =>
    rw [List.append_nil]
    exact ⟨h, fun t => (if_neg List.not_mem_nil).symm⟩
  | cons c l₁ ih =>
    obtain ⟨first, rest, hrest⟩ : ∃ first rest, l₁ ++ l₂ = first :: rest := by
      have hseveral := h.several
      rw [List.cons_append, List.length_cons] at hseveral
      exact List.exists_cons_of_length_pos (by omega)
    have hnodup := h.nodup hok
    rw [List.cons_append] at h hnodup
    have hturns : Turns s p (c :: first :: rest) := hrest ▸ h
    obtain ⟨n, hleft⟩ : ∃ n, sliceLeft s c = n + 1 := Nat.exists_eq_succ_of_ne_zero fun hzero =>
      (h.threads c List.mem_cons_self).2.2.2 (BitVec.eq_of_toNat_eq hzero)
    obtain ⟨hok₁, h₁, hticks₁⟩ := tickSlice_slice hok hturns hleft
    rw [← hrest, List.append_assoc, ← hleft] at h₁
    rw [← hleft] at hok₁ hticks₁
    have hc : c ∉ l₁ := fun hmem => (List.nodup_cons.mp hnodup).1 (List.mem_append_left l₂ hmem)
    have hsame : l₁.map (sliceLeft (tickSlice^[sliceLeft s c] s)) = l₁.map (sliceLeft s) := by
      refine List.map_congr_left fun t ht => ?_
      have htc : t ≠ c := fun heq => hc (heq ▸ ht)
      exact congrArg BitVec.toNat ((hticks₁ t).2.trans (if_neg htc))
    obtain ⟨h₂, hticks₂⟩ := ih hok₁ h₁
    rw [hsame, ← Function.iterate_add_apply, Nat.add_comm] at h₂ hticks₂
    rw [List.map_cons, List.sum_cons]
    refine ⟨by rwa [List.append_assoc] at h₂, fun t => ?_⟩
    rw [hticks₂ t, (hticks₁ t).1, (hticks₁ t).2]
    by_cases htc : t = c
    · subst htc
      rw [if_neg hc, if_pos rfl, if_pos List.mem_cons_self]
    · simp [htc]

end Turns

/-- The threads of the highest priority that are ready take turns in the order of their queue: in
every state that can be reached, when as many ticks passed as the slices of the first ones are
long, these are at the end of the queue with new slices, and the next one runs with its slice
untouched.

A tick within a slice only counts it down.  The tick that uses it up marks the thread as one that
yields, so `rt_schedule` takes the first thread of the queue and puts this one at its end.  The
rest is an induction over the threads that had their turn. -/
theorem round_robin (idle : Nat) {p : Nat} {acts : List SchedulerAct} {s : Scheduler} {l₁ l₂ : List Nat}
    (hrun : run (schedulerStep idle) schedulerInit acts = some s) (h : Turns s p (l₁ ++ l₂)) :
    Turns (tickSlice^[(l₁.map (sliceLeft s)).sum] s) p (l₂ ++ l₁) ∧
      ∀ t, ((tickSlice^[(l₁.map (sliceLeft s)).sum] s).thread t).remainingTick =
        if t ∈ l₁ then (s.thread t).initTick else (s.thread t).remainingTick := by
  have hok : SchedulerOk idle s :=
    run_invariant (fun _ _ _ hs hstep => (schedulerStep_ok hs hstep).1) acts _ _
      (schedulerInit_ok idle) hrun
  exact turns_pass hok h

/-- Two threads of priority 10 above the idle thread. -/
def twoThreads : List SchedulerAct :=
  [.init 0 31 5, .init 1 10 2, .init 2 10 3, .startup 0, .startup 1, .startup 2, .start]

theorem round_robin_two_threads :
    ∃ s, run (schedulerStep 0) schedulerInit twoThreads = some s ∧
      Turns (tickSlice^[([1].map (sliceLeft s)).sum] s) 10 ([2] ++ [1]) ∧
      ∀ t, ((tickSlice^[([1].map (sliceLeft s)).sum] s).thread t).remainingTick =
        if t ∈ [1] then (s.thread t).initTick else (s.thread t).remainingTick := by
  refine ⟨_, rfl, round_robin 0 (show run (schedulerStep 0) schedulerInit twoThreads = some _ from
    rfl) ⟨rfl, rfl, by decide, rfl, by decide +kernel, ?_, by decide +kernel⟩⟩
  rintro t ht
  obtain rfl := Option.some.inj ht
  rfl

end HpmSdk.Rtt
