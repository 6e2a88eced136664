import HpmSdk.Rtt.TimerRuns

set_option autoImplicit false

/-!
# Periodic timers

A periodic timer that nothing else touches is started again by `rt_timer_check` in the tick in
which it was due, so that the times at which its function is called are its periods.

The invariant is `OnBeat`: so many periods are over, the timer has rung at each, and its alarm is
the next one.
-/

namespace HpmSdk.Rtt

open Foundation

/-- The timer of a call. -/
def TimerCall.timer : TimerCall → Nat
  | .start t => t
  | .stop t => t
  | .detach t => t
  | .control t _ => t

/-! ## What leaves a timer alone -/

/-- A timer is as it was, and what was done in between was done to other ones. -/
structure LeftAlone (t : Nat) (s s' : Timers) : Prop where
  timer : s'.timer t = s.timer t
  log : ∃ events, s'.log = s.log ++ events ∧ Apart t events

section LeftAlone

variable {s s' s'' : Timers} {t u : Nat}

theorem LeftAlone.refl (s : Timers) : LeftAlone t s s :=
  ⟨rfl, [], (List.append_nil _).symm, fun _ h => absurd h List.not_mem_nil⟩

theorem LeftAlone.trans (h : LeftAlone t s s') (h' : LeftAlone t s' s'') : LeftAlone t s s'' := by
  obtain ⟨events, hlog, hevents⟩ := h.log
  obtain ⟨more, hlog', hmore⟩ := h'.log
  exact ⟨h'.timer.trans h.timer, events ++ more, by rw [hlog', hlog, List.append_assoc],
    hevents.append hmore⟩

/-- One event of another timer. -/
theorem LeftAlone.of_event {event : AgendaEvent Nat} (htimer : s'.timer t = s.timer t)
    (hlog : s'.log = s.log ++ [event]) (hu : u ≠ t) (hevent : event.alarm = some u) :
    LeftAlone t s s' :=
  ⟨htimer, [event], hlog, fun x hx => by
    obtain rfl := List.mem_singleton.mp hx
    exact ⟨u, hu, hevent⟩⟩

theorem rtTimerStart_leftAlone (hu : u ≠ t) : LeftAlone t s (rtTimerStart s u) :=
  .of_event (by simp [rtTimerStart, Timers.update, timerRemove, hu.symm]) rfl hu rfl

theorem rtTimerDetach_leftAlone (hu : u ≠ t) : LeftAlone t s (rtTimerDetach s u) :=
  .of_event (by simp [rtTimerDetach, Timers.update, timerRemove, hu.symm]) rfl hu rfl

theorem update_leftAlone (f : RtTimer → RtTimer) (hu : u ≠ t) : LeftAlone t s (s.update u f) :=
  ⟨timer_update_of_ne f hu.symm, (LeftAlone.refl s).log⟩

/-- A call on another timer leaves this one alone. -/
theorem timerCall_leftAlone {c : TimerCall} (hc : c.timer ≠ t) : LeftAlone t s (timerCall s c) := by
  cases c with
  | start u => exact rtTimerStart_leftAlone hc
  | stop u =>
    show LeftAlone t s (rtTimerStop s u).2
    unfold rtTimerStop
    split
    · exact .refl s
    · exact rtTimerDetach_leftAlone hc
  | detach u => exact rtTimerDetach_leftAlone hc
  | control u cmd =>
    cases cmd with
    | getTime => exact .refl s
    | getState => exact .refl s
    | setTime time => exact update_leftAlone (u := u) (fun x => { x with initTick := time }) hc
    | setOneshot => exact update_leftAlone (u := u) (fun x => { x with periodic := false }) hc
    | setPeriodic => exact update_leftAlone (u := u) (fun x => { x with periodic := true }) hc

theorem checked_timerRemove (hu : u ≠ t) (h : s.checked = some t) :
    (timerRemove s u).checked = some t := by
  show s.checked.filter _ = _
  rw [h, Option.filter_some_pos (by simpa using hu.symm)]

/-- The timer whose function runs stays on the local list. -/
theorem timerCall_checked {c : TimerCall} (hc : c.timer ≠ t) (h : s.checked = some t) :
    (timerCall s c).checked = some t := by
  cases c with
  | start u => exact checked_timerRemove hc h
  | stop u =>
    show (rtTimerStop s u).2.checked = _
    unfold rtTimerStop
    split
    · exact h
    · exact checked_timerRemove hc h
  | detach u => exact checked_timerRemove hc h
  | control u cmd => cases cmd <;> exact h

/-- And so do any number of them, as a timeout function may make them. -/
theorem timerCalls_leftAlone (calls : List TimerCall) (hcalls : ∀ c ∈ calls, c.timer ≠ t) :
    LeftAlone t s (calls.foldl timerCall s) ∧
      (s.checked = some t → (calls.foldl timerCall s).checked = some t) := by
  induction calls generalizing s with
  | nil => exact ⟨.refl s, id⟩
  | cons c calls ih =>
    have hc := hcalls c List.mem_cons_self
    obtain ⟨halone, hchecked⟩ :=
      ih (s := timerCall s c) fun x hx => hcalls x (List.mem_cons_of_mem c hx)
    exact ⟨(timerCall_leftAlone hc).trans halone, fun h => hchecked (timerCall_checked hc h)⟩

theorem takeExpired_leftAlone (hu : u ≠ t) : LeftAlone t s (takeExpired s u) := by
  unfold takeExpired
  dsimp only
  split
  · exact .of_event rfl rfl hu rfl
  · exact .of_event (by simp [Timers.update, timerRemove, hu.symm]) rfl hu rfl

theorem reload_leftAlone (hu : u ≠ t) : LeftAlone t s (reload s u) := by
  unfold reload
  split
  · exact .refl s
  · have hclosed : LeftAlone t s { s with checked := none } := ⟨rfl, (LeftAlone.refl s).log⟩
    dsimp only
    split
    · exact (hclosed.trans (update_leftAlone _ hu)).trans (rtTimerStart_leftAlone hu)
    · exact hclosed

end LeftAlone

/-! ## The beat -/

/-- The first `k` times that are whole numbers of periods behind `start`. -/
def beats (start period k : Nat) : List Nat :=
  (List.range k).map fun i => start + (i + 1) * period

/-- One period more is one beat more. -/
theorem beats_succ (start period k : Nat) :
    beats start period (k + 1) = beats start period k ++ [start + (k + 1) * period] := by
  simp [beats, List.range_succ]

/-- A periodic timer was called `k` times since it was started, and is due the next time. -/
structure OnBeat (t start period : Nat) (before : List Nat) (k : Nat) (s : Timers)
    (g : Agenda Nat) : Prop where
  periodic : (s.timer t).periodic = true
  activated : (s.timer t).activated = true
  init : (s.timer t).initTick.toNat = period
  armed : (start + (k + 1) * period, t) ∈ g.armed
  rings : ringTimes t 0 s.log = before ++ beats start period k
  begun : start + k * period ≤ g.now

section Beat

variable {timeoutFunc : Timers → Nat → List TimerCall} {s s' : Timers} {g g' : Agenda Nat}
  {t start period k : Nat} {before : List Nat}

/-- The agenda of a state is determined by its log. -/
theorem TimersAgenda.unique (h : TimersAgenda s g) (h' : TimersAgenda s g') : g = g' :=
  Option.some.inj (h.log.symm.trans h'.log)

theorem TimersAgenda.now_eq (h : TimersAgenda s g) : g.now = s.log.count .tick :=
  (Agenda.run_now h.log).trans (Nat.zero_add _)

/-- A timer that is left alone stays on its beat. -/
theorem OnBeat.leftAlone (h : OnBeat t start period before k s g) (hs : TimersAgenda s g)
    (hs' : TimersAgenda s' g') (halone : LeftAlone t s s') :
    OnBeat t start period before k s' g' := by
  obtain ⟨htimer, events, hlog, hapart⟩ := halone
  have hrun : run Agenda.step g events = some g' := by
    rw [← run_append hs.log, ← hlog]
    exact hs'.log
  refine ⟨?_, ?_, ?_, (hapart.mem_armed hrun _).mpr h.armed, ?_, ?_⟩
  · rw [htimer]
    exact h.periodic
  · rw [htimer]
    exact h.activated
  · rw [htimer]
    exact h.init
  · rw [hlog, ringTimes_append, ringTimes_apart hapart, List.append_nil]
    exact h.rings
  · rw [Agenda.run_now hrun]
    exact h.begun.trans (Nat.le_add_right _ _)

/-- A periodic timer that is still active is started again. -/
theorem reload_periodic (hchecked : s.checked = some t) (hperiodic : (s.timer t).periodic = true)
    (hactivated : (s.timer t).activated = true) :
    reload s t =
      rtTimerStart ({ s with checked := none }.update t fun x => { x with activated := false }) t := by
  unfold reload
  rw [hchecked]
  dsimp only
  rw [hperiodic, hactivated]
  rfl

/-- A start sets the time anew from the tick that it is called at. -/
theorem rtTimerStart_timer :
    (rtTimerStart s t).timer t = { s.timer t with
      activated := true, timeoutTick := s.rtTick + (s.timer t).initTick } := by
  simp [rtTimerStart, Timers.update, timerRemove]

theorem rtTimerStart_log :
    (rtTimerStart s t).log = s.log ++ [.arm t (s.timer t).initTick.toNat] := by
  have hinit : (rtTimerStart s t).log =
      s.log ++ [.arm t ((rtTimerStart s t).timer t).initTick.toNat] := rfl
  rw [hinit, rtTimerStart_timer]

/-- A start is the first beat. -/
theorem rtTimerStart_onBeat (g : Agenda Nat) (hperiodic : (s.timer t).periodic = true) :
    OnBeat t g.now (s.timer t).initTick.toNat (ringTimes t 0 s.log) 0 (rtTimerStart s t)
      { g with armed := without t g.armed ++ [(g.now + (s.timer t).initTick.toNat, t)] } := by
  refine ⟨?_, ?_, ?_, List.mem_append_right _ ?_, ?_, ?_⟩
  · rw [rtTimerStart_timer]
    exact hperiodic
  · rw [rtTimerStart_timer]
  · rw [rtTimerStart_timer]
  · rw [Nat.zero_add, Nat.one_mul]
    exact List.mem_singleton_self _
  · rw [rtTimerStart_log, ringTimes_append]
    rfl
  · rw [Nat.zero_mul, Nat.add_zero]

/-- The alarms of an agenda have one time each. -/
theorem armed_unique (h : TimersHold s g) {d e : Nat} (hd : (d, t) ∈ g.armed)
    (he : (e, t) ∈ g.armed) : d = e :=
  congrArg Prod.fst (List.inj_on_of_nodup_map h.within.nodup hd he rfl)

/-- A pass of the loop in which the timer itself is called. -/
theorem checkTimer_onBeat (h : OnBeat t start period before k s g) (hs : TimersAgenda s g)
    (hothers : ∀ s u, ∀ c ∈ timeoutFunc s u, c.timer ≠ t)
    (hs' : TimersAgenda (checkTimer timeoutFunc s t) g') (hnow : g'.now = g.now)
    (hdue : start + (k + 1) * period = g.now) :
    OnBeat t start period before (k + 1) (checkTimer timeoutFunc s t) g' := by
  have htaken : ((takeExpired s t).timer t) = s.timer t := by
    simp [takeExpired, timerRemove, h.periodic]
  have htakenLog : (takeExpired s t).log = s.log ++ [.ring t] := by
    unfold takeExpired
    dsimp only
    split <;> rfl
  obtain ⟨⟨htimer, events, hlog, hapart⟩, hchecked⟩ :=
    timerCalls_leftAlone (s := takeExpired s t) _ (hothers (takeExpired s t) t)
  generalize hcalled : (timeoutFunc (takeExpired s t) t).foldl timerCall (takeExpired s t) =
    called at htimer hlog hchecked
  rw [htaken] at htimer
  have hagain : checkTimer timeoutFunc s t = rtTimerStart
      ({ called with checked := none }.update t fun x => { x with activated := false }) t := by
    unfold checkTimer
    dsimp only
    rw [hcalled]
    exact reload_periodic (hchecked rfl) (htimer ▸ h.periodic) (htimer ▸ h.activated)
  have hdone : (checkTimer timeoutFunc s t).timer t =
      { s.timer t with activated := true, timeoutTick := called.rtTick + (s.timer t).initTick } := by
    rw [hagain, rtTimerStart_timer, timer_update_self, ← htimer]
    rfl
  have hlogged : (checkTimer timeoutFunc s t).log =
      s.log ++ ([.ring t] ++ events ++ [.arm t period]) := by
    rw [hagain, rtTimerStart_log, timer_update_self]
    show called.log ++ [.arm t (called.timer t).initTick.toNat] = _
    rw [htimer, h.init, hlog, htakenLog]
    simp
  have hrun : run Agenda.step g ([.ring t] ++ events ++ [.arm t period]) = some g' := by
    rw [← run_append hs.log, ← hlogged]
    exact hs'.log
  refine ⟨?_, ?_, ?_, ?_, ?_, ?_⟩
  · rw [hdone]
    exact h.periodic
  · rw [hdone]
  · rw [hdone]
    exact h.init
  · have harmed := Agenda.mem_armed_of_run hrun
    rwa [hnow, ← hdue, Nat.add_assoc, ← Nat.succ_mul] at harmed
  · have hring : ringTimes t g.now ([.ring t] ++ events ++ [.arm t period]) = [g.now] := by
      rw [List.append_assoc, List.singleton_append, ringTimes, if_pos rfl, ringTimes_append,
        ringTimes_apart hapart]
      rfl
    rw [hlogged, ringTimes_append, Nat.zero_add, ← hs.now_eq, hring, h.rings, beats_succ, hdue,
      List.append_assoc]
  · rw [hnow, hdue]

/-- A pass of the loop keeps the beat. -/
theorem checkFirst_onBeat (h : OnBeat t start period before k s g) (hs : TimersAgenda s g)
    (hothers : ∀ s u, ∀ c ∈ timeoutFunc s u, c.timer ≠ t) (hguard : firstIsDue s = true)
    (hs' : TimersAgenda (checkFirst timeoutFunc s) g') (hnow : g'.now = g.now) :
    ∃ k', OnBeat t start period before k' (checkFirst timeoutFunc s) g' := by
  obtain ⟨e, rest, hfirst, hdue⟩ := (firstIsDue_iff hs.hold).mp hguard
  have hmem : e ∈ g.armed := mem_inOrder.mp (hfirst ▸ List.mem_cons_self)
  have hcheck : checkFirst timeoutFunc s = checkTimer timeoutFunc s e.2 := by
    rw [checkFirst, hs.hold.list, hfirst, List.map_cons]
  rw [hcheck] at hs' ⊢
  by_cases het : e.2 = t
  · subst het
    refine ⟨k + 1, checkTimer_onBeat h hs hothers hs' hnow ?_⟩
    rw [← hdue]
    exact armed_unique hs.hold h.armed hmem
  · have halone := timerCalls_leftAlone (s := takeExpired s e.2) _ (hothers (takeExpired s e.2) e.2)
    exact ⟨k, h.leftAlone hs hs'
      (((takeExpired_leftAlone het).trans halone.1).trans (reload_leftAlone het))⟩

/-- A tick of the clock keeps the beat. -/
theorem rtTickIncrease_onBeat (h : OnBeat t start period before k s g) (hs : TimersAgenda s g)
    (hfunc : ∀ s t, ∀ c ∈ timeoutFunc s t, c.InRange)
    (hothers : ∀ s u, ∀ c ∈ timeoutFunc s u, c.timer ≠ t) (hquiet : g.dueCount = 0)
    (hs' : TimersAgenda s' g') (hstep : rtTickIncrease timeoutFunc s = some s') :
    ∃ k', OnBeat t start period before k' s' g' := by
  have hticked := tick_agenda hs hquiet
  have hbeat : OnBeat t start period before k
      { s with rtTick := s.rtTick + 1, log := s.log ++ [.tick] } { g with now := g.now + 1 } := by
    refine ⟨h.periodic, h.activated, h.init, h.armed, ?_, h.begun.trans (Nat.le_succ _)⟩
    dsimp only
    rw [ringTimes_append, h.rings]
    exact List.append_nil _
  obtain ⟨g₁, k₁, hs₁, h₁⟩ := whileFuel_invariant
    (P := fun s => ∃ g k, TimersAgenda s g ∧ OnBeat t start period before k s g)
    (fun s ⟨g, k, hs, h⟩ hguard =>
      let ⟨g', hs', hnow, _⟩ := checkFirst_agenda hs hfunc hguard
      let ⟨k', h'⟩ := checkFirst_onBeat h hs hothers hguard hs' hnow
      ⟨g', k', hs', h'⟩)
    ⟨_, k, hticked, hbeat⟩ hstep
  rw [hs'.unique hs₁]
  exact ⟨k₁, h₁⟩

/-- A run in which nothing touches the timer keeps its beat. -/
theorem timersRun_onBeat (acts : List TimerAct) (hacts : ∀ act ∈ acts, act.InRange)
    (hapart : ∀ c, .call c ∈ acts → c.timer ≠ t)
    (hfunc : ∀ s t, ∀ c ∈ timeoutFunc s t, c.InRange)
    (hothers : ∀ s u, ∀ c ∈ timeoutFunc s u, c.timer ≠ t)
    (h : OnBeat t start period before k s g) (hs : TimersAgenda s g) (hquiet : g.dueCount = 0) :
    ∃ s' g' k', run (timersStep timeoutFunc) s acts = some s' ∧ TimersAgenda s' g' ∧
      g'.now = g.now + acts.count .tick ∧ g'.dueCount = 0 ∧
      OnBeat t start period before k' s' g' := by
  induction acts generalizing s g k with
  | nil => exact ⟨s, g, k, rfl, hs, rfl, hquiet, h⟩
  | cons act acts ih =>
    obtain ⟨s₁, g₁, hstep, hs₁, hnow₁, hquiet₁⟩ :=
      timersStep_agenda hs hfunc hquiet (hacts act List.mem_cons_self)
    obtain ⟨k₁, h₁⟩ : ∃ k₁, OnBeat t start period before k₁ s₁ g₁ := by
      cases act with
      | call c =>
        cases hstep
        exact ⟨k, h.leftAlone hs hs₁ (timerCall_leftAlone (hapart c List.mem_cons_self))⟩
      | tick => exact rtTickIncrease_onBeat h hs hfunc hothers hquiet hs₁ hstep
    obtain ⟨s₂, g₂, k₂, hrun, hs₂, hnow₂, hquiet₂, h₂⟩ :=
      ih (fun x hx => hacts x (List.mem_cons_of_mem act hx))
        (fun c hc => hapart c (List.mem_cons_of_mem act hc)) h₁ hs₁ hquiet₁
    refine ⟨s₂, g₂, k₂, ?_, hs₂, ?_, hquiet₂, h₂⟩
    · rw [run, hstep]
      exact hrun
    · rw [hnow₂, hnow₁, Nat.add_assoc, ← List.count_append, List.singleton_append]

/-- The number of calls follows from the time. -/
theorem OnBeat.count (h : OnBeat t start period before k s g) (hquiet : g.dueCount = 0)
    {ticks : Nat} (hnow : g.now = start + ticks) : k = ticks / period := by
  have hnext := Agenda.dueCount_eq_zero_iff.mp hquiet _ h.armed
  have hbegun := h.begun
  refine (Nat.div_eq_of_lt_le ?_ ?_).symm
  · omega
  · rw [Nat.succ_mul]
    rw [Nat.add_mul, Nat.one_mul] at hnext
    omega

end Beat

/-- A periodic timer that is started, and that neither a call nor a timer's function touches from
then on, is called in each tick that is a whole number of its periods behind its start, and in no
other one: it does not drift, whatever the other timers do.

It is called in the tick in which it is due, and started again in that tick with the same time, so
that its next time is one period later exactly.  Other timers stand in front of it or behind it in
the list, but take no part in when it is due.  All times are positive and below half the range of
the tick, as for every run of the agenda. -/
theorem periodic_timer_on_beat {timeoutFunc : Timers → Nat → List TimerCall}
    {time : Nat → BitVec 32} {periodic : Nat → Bool} {t : Nat} {acts more : List TimerAct}
    {s : Timers} (hfunc : ∀ s u, ∀ c ∈ timeoutFunc s u, c.InRange)
    (hothers : ∀ s u, ∀ c ∈ timeoutFunc s u, c.timer ≠ t)
    (htime : ∀ u, TimeInRange (time u)) (hacts : ∀ act ∈ acts, act.InRange)
    (hmore : ∀ act ∈ more, act.InRange) (hapart : ∀ c, .call c ∈ more → c.timer ≠ t)
    (hrun : run (timersStep timeoutFunc) (timersStart time periodic) acts = some s)
    (hperiodic : (s.timer t).periodic = true) :
    ∃ s', run (timersStep timeoutFunc) s (.call (.start t) :: more) = some s' ∧
      ringTimes t 0 s'.log = ringTimes t 0 s.log ++
        beats (acts.count .tick) (s.timer t).initTick.toNat
          (more.count .tick / (s.timer t).initTick.toNat) := by
  obtain ⟨s₁, g, hrun₁, hs, hnow, hquiet⟩ :=
    timersRun_agenda acts hacts hfunc
      (timersStart_agenda htime : TimersAgenda (timersStart time periodic) _) rfl
  obtain rfl : s₁ = s := Option.some.inj (hrun₁.symm.trans hrun)
  obtain ⟨s', g', k, hrun', -, hnow', hquiet', hbeat⟩ :=
    timersRun_onBeat more hmore hapart hfunc hothers (rtTimerStart_onBeat g hperiodic)
      (rtTimerStart_agenda hs t)
      (Nat.le_zero.mp ((Agenda.dueCount_arm_le t (hs.hold.inits t).1).trans hquiet.le))
  refine ⟨s', hrun', ?_⟩
  have hrings := hbeat.rings
  rw [hbeat.count hquiet' hnow', hnow, Nat.zero_add] at hrings
  exact hrings

theorem periodic_timer_on_beat_of_three :
    ∃ s', run (timersStep fun _ u => if u = 2 then [.stop 3] else [])
        (timersStart (fun _ => 3) fun _ => true)
        [.call (.start 1), .call (.start 2), .tick, .tick, .tick, .tick, .tick, .tick, .tick] =
          some s' ∧
      ringTimes 1 0 s'.log = ringTimes 1 0 [] ++ beats 0 3 (7 / 3) := by
  have hfunc : ∀ (s : Timers) (u : Nat), ∀ c ∈ if u = 2 then [TimerCall.stop 3] else [],
      c = .stop 3 := by
    intro _ u c hc
    split at hc
    · exact List.mem_singleton.mp hc
    · cases hc
  exact periodic_timer_on_beat
    (fun s u c hc => by rw [hfunc s u c hc]; trivial)
    (fun s u c hc => by rw [hfunc s u c hc]; decide)
    (fun _ => ⟨by decide, by decide⟩) (by simp)
    (by simp [TimerAct.InRange, TimerCall.InRange]) (by simp [TimerCall.timer])
    (show run _ (timersStart _ _) [] = some _ from rfl) rfl

end HpmSdk.Rtt
