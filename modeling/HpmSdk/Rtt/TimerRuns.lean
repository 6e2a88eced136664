import HpmSdk.Rtt.Timer

set_option autoImplicit false

/-!
# Timers on their time

The list of timers is an agenda by the time of its alarms, as long as no timer is set for half of
the clock's range or more: then the differences of the words decide which one is earlier.

`TimersAgenda` ties a state to the agenda that its log makes.  One lemma for each function keeps it,
and a tick ends because each timer that rings is one less that is due.
-/

namespace HpmSdk.Rtt

open Foundation

/-! ## Words as times -/

section Words

variable {now d e : Nat}

/-- How much later one of two times is, as the words tell. -/
theorem toNat_ofNat_sub (hd : now ≤ d) (hd' : d < now + rtTickMax / 2) (he : now ≤ e)
    (he' : e < now + rtTickMax / 2) :
    (BitVec.ofNat 32 d - BitVec.ofNat 32 e).toNat =
      if e ≤ d then d - e else 0x100000000 - (e - d) := by
  unfold rtTickMax at hd' he'
  rw [BitVec.toNat_sub, BitVec.toNat_ofNat, BitVec.toNat_ofNat]
  split <;> omega

/-- Within half of the clock's range, words agree exactly if the times do. -/
theorem ofNat_sub_eq_zero_iff (hd : now ≤ d) (hd' : d < now + rtTickMax / 2) (he : now ≤ e)
    (he' : e < now + rtTickMax / 2) : BitVec.ofNat 32 d - BitVec.ofNat 32 e = 0 ↔ d = e := by
  have hsub := toNat_ofNat_sub hd hd' he he'
  unfold rtTickMax at hd' he'
  rw [BitVec.toNat_eq, hsub, show (0 : BitVec 32).toNat = 0 from rfl]
  split <;> omega

/-- And their difference tells which of the times is earlier. -/
theorem ofNat_sub_small_iff (hd : now ≤ d) (hd' : d < now + rtTickMax / 2) (he : now ≤ e)
    (he' : e < now + rtTickMax / 2) :
    (BitVec.ofNat 32 d - BitVec.ofNat 32 e).toNat < rtTickMax / 2 ↔ e ≤ d := by
  rw [toNat_ofNat_sub hd hd' he he']
  unfold rtTickMax at *
  split <;> omega

end Words

/-! ## The list as an agenda -/

/-- The time of a timer: what `rt_timer_start` asserts of it, and not 0. -/
def TimeInRange (time : BitVec 32) : Prop := 0 < time.toNat ∧ time.toNat < rtTickMax / 2

/-- The timers that are on the list are the alarms of an agenda. -/
structure TimersHold (s : Timers) (g : Agenda Nat) : Prop where
  tick : s.rtTick = BitVec.ofNat 32 g.now
  within : g.Within (rtTickMax / 2)
  list : s.timerList = (inOrder g.armed).map Prod.snd
  timeout : ∀ e ∈ g.armed, (s.timer e.2).timeoutTick = BitVec.ofNat 32 e.1
  inits : ∀ t, TimeInRange (s.timer t).initTick

section Hold

variable {s : Timers} {g : Agenda Nat} {t : Nat}

theorem TimersHold.congr {s' : Timers} (h : TimersHold s g) (htick : s'.rtTick = s.rtTick)
    (htimer : s'.timer = s.timer) (hlist : s'.timerList = s.timerList) : TimersHold s' g := by
  refine ⟨htick.trans h.tick, h.within, hlist.trans h.list, ?_, ?_⟩
  · rw [htimer]
    exact h.timeout
  · rw [htimer]
    exact h.inits

/-- Taking a timer out of the list takes its alarm out of the agenda. -/
theorem TimersHold.remove (h : TimersHold s g) (t : Nat) :
    TimersHold (timerRemove s t) { g with armed := without t g.armed } := by
  refine ⟨h.tick, h.within.cancel t, ?_, fun e he => h.timeout e (mem_without.mp he).1, h.inits⟩
  show s.timerList.filter _ = _
  rw [h.list, ← map_snd_without, without, without, inOrder_filter]

theorem timer_update_self (f : RtTimer → RtTimer) :
    (s.update t f).timer t = f (s.timer t) := Function.update_self _ _ _

theorem timer_update_of_ne {u : Nat} (f : RtTimer → RtTimer) (h : u ≠ t) :
    (s.update t f).timer u = s.timer u := Function.update_of_ne h _ _

/-- A change that leaves the time of a timer on the list alone. -/
theorem TimersHold.update {f : RtTimer → RtTimer} (h : TimersHold s g)
    (htimeout : t ∈ g.armed.map Prod.snd → (f (s.timer t)).timeoutTick = (s.timer t).timeoutTick)
    (hinit : TimeInRange (f (s.timer t)).initTick) : TimersHold (s.update t f) g := by
  refine ⟨h.tick, h.within, h.list, fun e he => ?_, fun u => ?_⟩
  · by_cases het : e.2 = t
    · subst het
      rw [timer_update_self, htimeout (List.mem_map_of_mem he)]
      exact h.timeout e he
    · rw [timer_update_of_ne f het]
      exact h.timeout e he
  · by_cases hut : u = t
    · subst hut
      rw [timer_update_self]
      exact hinit
    · rw [timer_update_of_ne f hut]
      exact h.inits u

/-- The walk finds the place behind the timers that are not later. -/
theorem rowInsert_eq {timer : Nat → RtTimer} {now d : Nat} {l : List (Nat × Nat)}
    (hd : now ≤ d) (hd' : d < now + rtTickMax / 2)
    (htimeout : (timer t).timeoutTick = BitVec.ofNat 32 d)
    (hl : ∀ e ∈ l, now ≤ e.1 ∧ e.1 < now + rtTickMax / 2 ∧
      (timer e.2).timeoutTick = BitVec.ofNat 32 e.1) :
    rowInsert timer t (l.map Prod.snd) = (insertBehind (d, t) l).map Prod.snd := by
  induction l with
  | nil => rfl
  | cons e l ih =>
    obtain ⟨he, he', hrow⟩ := hl e List.mem_cons_self
    have hrest := ih fun x hx => hl x (List.mem_cons_of_mem e hx)
    have hzero := ofNat_sub_eq_zero_iff he he' hd hd'
    have hsmall := ofNat_sub_small_iff he he' hd hd'
    rw [List.map_cons, rowInsert, insertBehind_cons, htimeout, hrow]
    dsimp only
    by_cases heq : e.1 = d
    · rw [if_pos (hzero.mpr heq), if_neg (by omega), hrest, List.map_cons]
    · rw [if_neg (mt hzero.mp heq)]
      by_cases hlt : d < e.1
      · rw [if_pos (hsmall.mpr hlt.le), if_pos hlt]
        rfl
      · rw [if_neg (by rw [hsmall]; omega), if_neg hlt, hrest, List.map_cons]

/-- A timer that is not on the list is put there. -/
theorem TimersHold.insert {time : Nat} (h : TimersHold s g) (ht : t ∉ g.armed.map Prod.snd)
    (htime : time < rtTickMax / 2)
    (htimeout : (s.timer t).timeoutTick = BitVec.ofNat 32 (g.now + time)) :
    TimersHold { s with timerList := rowInsert s.timer t s.timerList }
      { g with armed := g.armed ++ [(g.now + time, t)] } := by
  have hwithin := h.within.arm t htime
  rw [without_of_not_mem ht] at hwithin
  refine ⟨h.tick, hwithin, ?_, fun e he => ?_, h.inits⟩
  · show rowInsert s.timer t s.timerList = (inOrder (g.armed ++ [(g.now + time, t)])).map Prod.snd
    rw [h.list, inOrder_append_singleton]
    refine rowInsert_eq (Nat.le_add_right _ _) (Nat.add_lt_add_left htime _) htimeout ?_
    intro e he
    have hmem := mem_inOrder.mp he
    exact ⟨(h.within.due e hmem).1, (h.within.due e hmem).2, h.timeout e hmem⟩
  · rcases List.mem_append.mp he with he | he
    · exact h.timeout e he
    · obtain rfl := List.mem_singleton.mp he
      exact htimeout

end Hold

/-! ## Calls -/

/-- A time that is set is in range. -/
def TimerCall.InRange : TimerCall → Prop
  | .control _ (.setTime time) => TimeInRange time
  | _ => True

/-- The timers are an agenda, the one that comes of what was done. -/
structure TimersAgenda (s : Timers) (g : Agenda Nat) : Prop where
  hold : TimersHold s g
  log : run Agenda.step ⟨0, []⟩ s.log = some g

section Calls

variable {s : Timers} {g : Agenda Nat}

/-- One more event. -/
theorem log_concat {g' : Agenda Nat} {event : AgendaEvent Nat}
    (h : run Agenda.step ⟨0, []⟩ s.log = some g) (hstep : g.step event = some g') :
    run Agenda.step ⟨0, []⟩ (s.log ++ [event]) = some g' :=
  (run_concat h).trans hstep

theorem not_mem_without (t : Nat) (l : List (Nat × Nat)) : t ∉ (without t l).map Prod.snd := by
  rw [map_snd_without]
  exact fun h => of_decide_eq_true (List.mem_filter.mp h).2 rfl

/-- A started timer is due its time from now. -/
theorem rtTimerStart_agenda (h : TimersAgenda s g) (t : Nat) :
    TimersAgenda (rtTimerStart s t)
      { g with armed := without t g.armed ++ [(g.now + (s.timer t).initTick.toNat, t)] } := by
  have hrange := h.hold.inits t
  have hout := not_mem_without t g.armed
  have hset := (h.hold.remove t).update (t := t)
    (f := fun x => { x with activated := false, timeoutTick := s.rtTick + x.initTick })
    (fun hmem => absurd hmem hout) hrange
  have htimeout : (((timerRemove s t).update t fun x =>
      { x with activated := false, timeoutTick := s.rtTick + x.initTick }).timer t).timeoutTick =
      BitVec.ofNat 32 (g.now + (s.timer t).initTick.toNat) := by
    rw [timer_update_self, BitVec.ofNat_add, ← h.hold.tick, BitVec.ofNat_toNat,
      BitVec.setWidth_eq]
    rfl
  have hinsert := hset.insert hout hrange.2 htimeout
  have hdone := hinsert.update (t := t) (f := fun x => { x with activated := true })
    (fun _ => rfl) (hinsert.inits t)
  refine ⟨hdone.congr rfl rfl rfl, ?_⟩
  have hinit : ((rtTimerStart s t).timer t).initTick = (s.timer t).initTick := by
    simp [rtTimerStart, Timers.update, timerRemove]
  show run Agenda.step ⟨0, []⟩ (s.log ++ [.arm t ((rtTimerStart s t).timer t).initTick.toNat]) = _
  rw [hinit]
  exact log_concat h.log rfl

/-- Stopping a timer cancels its alarm. -/
theorem TimersAgenda.cancelled (h : TimersAgenda s g) (t : Nat) :
    TimersAgenda (rtTimerDetach s t) { g with armed := without t g.armed } := by
  have hset := (h.hold.remove t).update (t := t) (f := fun x => { x with activated := false })
    (fun _ => rfl) (h.hold.inits t)
  exact ⟨hset.congr rfl rfl rfl, log_concat h.log rfl⟩

/-- Changing a timer, but for the tick that it is due at, changes no alarm. -/
theorem TimersAgenda.updated (h : TimersAgenda s g) (t : Nat) (f : RtTimer → RtTimer)
    (htimeout : ∀ x, (f x).timeoutTick = x.timeoutTick)
    (hinit : ∀ {x}, TimeInRange x.initTick → TimeInRange (f x).initTick) :
    TimersAgenda (s.update t f) g :=
  ⟨h.hold.update (fun _ => htimeout _) (hinit (h.hold.inits t)), h.log⟩

/-- A call takes no time, and makes no timer due. -/
theorem timerCall_agenda (h : TimersAgenda s g) {c : TimerCall} (hc : c.InRange) :
    ∃ g', TimersAgenda (timerCall s c) g' ∧ g'.now = g.now ∧ g'.dueCount ≤ g.dueCount := by
  cases c with
  | start t => exact ⟨_, rtTimerStart_agenda h t, rfl, Agenda.dueCount_arm_le t (h.hold.inits t).1⟩
  | stop t =>
    show ∃ g', TimersAgenda (rtTimerStop s t).2 g' ∧ _
    unfold rtTimerStop
    split
    · exact ⟨g, h, rfl, Nat.le_refl _⟩
    · exact ⟨_, h.cancelled t, rfl, Agenda.dueCount_cancel_le t⟩
  | detach t => exact ⟨_, h.cancelled t, rfl, Agenda.dueCount_cancel_le t⟩
  | control t cmd =>
    refine ⟨g, ?_, rfl, Nat.le_refl _⟩
    cases cmd with
    | getTime => exact h
    | getState => exact h
    | setTime time =>
      exact h.updated t (fun x => { x with initTick := time }) (fun _ => rfl) fun _ => hc
    | setOneshot => exact h.updated t (fun x => { x with periodic := false }) (fun _ => rfl) id
    | setPeriodic => exact h.updated t (fun x => { x with periodic := true }) (fun _ => rfl) id

/-- The calls of a timeout function change the agenda as they change the list, and make no alarm
due. -/
theorem timerCalls_agenda (calls : List TimerCall) (hcalls : ∀ c ∈ calls, c.InRange)
    (h : TimersAgenda s g) :
    ∃ g', TimersAgenda (calls.foldl timerCall s) g' ∧ g'.now = g.now ∧
      g'.dueCount ≤ g.dueCount := by
  induction calls generalizing s g with
  | nil => exact ⟨g, h, rfl, Nat.le_refl _⟩
  | cons c calls ih =>
    obtain ⟨g₁, h₁, hnow₁, hdue₁⟩ := timerCall_agenda h (hcalls c List.mem_cons_self)
    obtain ⟨g₂, h₂, hnow₂, hdue₂⟩ := ih (fun x hx => hcalls x (List.mem_cons_of_mem c hx)) h₁
    exact ⟨g₂, h₂, hnow₂.trans hnow₁, hdue₂.trans hdue₁⟩

end Calls

/-! ## The check -/

section Check

variable {timeoutFunc : Timers → Nat → List TimerCall} {s : Timers} {g : Agenda Nat}

/-- The guard holds where there is a first entry and it is due. -/
theorem firstIsDue_iff (h : TimersHold s g) :
    firstIsDue s = true ↔ ∃ e rest, inOrder g.armed = e :: rest ∧ e.1 = g.now := by
  unfold firstIsDue
  rw [h.list]
  cases hfirst : inOrder g.armed with
  | nil => simp
  | cons e rest =>
    have hmem : e ∈ g.armed := mem_inOrder.mp (hfirst ▸ List.mem_cons_self)
    have hdue := h.within.due e hmem
    have hnow : g.now < g.now + rtTickMax / 2 := by unfold rtTickMax; omega
    simp only [List.map_cons, decide_eq_true_eq]
    rw [h.tick, h.timeout e hmem, ofNat_sub_small_iff (Nat.le_refl _) hnow hdue.1 hdue.2]
    constructor
    · intro hle
      exact ⟨e, rest, rfl, Nat.le_antisymm hle hdue.1⟩
    · rintro ⟨e', rest', heq, hdue'⟩
      cases heq
      exact hdue'.le

/-- Where the guard fails no timer is due. -/
theorem dueCount_of_not_firstIsDue (h : TimersHold s g) (hguard : firstIsDue s = false) :
    g.dueCount = 0 := by
  rw [Agenda.dueCount_eq_zero_iff]
  intro e he
  cases hfirst : inOrder g.armed with
  | nil => exact absurd (hfirst ▸ mem_inOrder.mpr he) List.not_mem_nil
  | cons first rest =>
    have hmem : first ∈ g.armed := mem_inOrder.mp (hfirst ▸ List.mem_cons_self)
    have hne : first.1 ≠ g.now := by
      intro heq
      rw [(firstIsDue_iff h).mpr ⟨first, rest, hfirst, heq⟩] at hguard
      cases hguard
    have hfirst_le := (find_of_inOrder_cons hfirst).1 e he
    have hdue := (h.within.due first hmem).1
    omega

/-- The first timer that is due rings. -/
theorem takeExpired_agenda (h : TimersAgenda s g) {e : Nat × Nat} {rest : List (Nat × Nat)}
    (hfirst : inOrder g.armed = e :: rest) (hdue : e.1 = g.now) :
    TimersAgenda (takeExpired s e.2) { g with armed := without e.2 g.armed } := by
  have hremoved := h.hold.remove e.2
  have hlog := log_concat h.log (Agenda.step_ring hfirst hdue)
  unfold takeExpired
  dsimp only
  split
  · exact ⟨hremoved.congr rfl rfl rfl, hlog⟩
  · have hset := hremoved.update (t := e.2) (f := fun x => { x with activated := false })
      (fun _ => rfl) (h.hold.inits e.2)
    exact ⟨hset.congr rfl rfl rfl, hlog⟩

/-- A timer that is reloaded is not due. -/
theorem reload_agenda (h : TimersAgenda s g) (t : Nat) :
    ∃ g', TimersAgenda (reload s t) g' ∧ g'.now = g.now ∧ g'.dueCount ≤ g.dueCount := by
  unfold reload
  split
  · exact ⟨g, h, rfl, Nat.le_refl _⟩
  · have hclosed : TimersAgenda { s with checked := none } g :=
      ⟨h.hold.congr rfl rfl rfl, h.log⟩
    dsimp only
    split
    · have hcleared := hclosed.updated t (fun x => { x with activated := false })
        (fun _ => rfl) id
      exact ⟨_, rtTimerStart_agenda hcleared t, rfl,
        Agenda.dueCount_arm_le t (hcleared.hold.inits t).1⟩
    · exact ⟨g, hclosed, rfl, Nat.le_refl _⟩

/-- A pass of the loop: the first timer that is due rings, and what its function does makes no
other one due. -/
theorem checkFirst_agenda (h : TimersAgenda s g)
    (hfunc : ∀ s t, ∀ c ∈ timeoutFunc s t, c.InRange) (hguard : firstIsDue s = true) :
    ∃ g', TimersAgenda (checkFirst timeoutFunc s) g' ∧ g'.now = g.now ∧
      g'.dueCount < g.dueCount := by
  obtain ⟨e, rest, hfirst, hdue⟩ := (firstIsDue_iff h.hold).mp hguard
  have hmem : e ∈ g.armed := mem_inOrder.mp (hfirst ▸ List.mem_cons_self)
  have hlist : s.timerList = e.2 :: rest.map Prod.snd := by
    rw [h.hold.list, hfirst, List.map_cons]
  have hless := Agenda.dueCount_ring_lt hmem hdue
  obtain ⟨g₁, hcalled, hnow₁, hdue₁⟩ :=
    timerCalls_agenda _ (hfunc _ _) (takeExpired_agenda h hfirst hdue)
  obtain ⟨g₂, hdone, hnow₂, hdue₂⟩ := reload_agenda hcalled e.2
  refine ⟨g₂, ?_, hnow₂.trans hnow₁, by omega⟩
  rw [checkFirst, hlist]
  exact hdone

/-- A check ends, and no timer is due behind it. -/
theorem rtTimerCheck_agenda (h : TimersAgenda s g)
    (hfunc : ∀ s t, ∀ c ∈ timeoutFunc s t, c.InRange) :
    ∃ s' g', rtTimerCheck timeoutFunc s = some s' ∧ TimersAgenda s' g' ∧ g'.now = g.now ∧
      g'.dueCount = 0 := by
  have hcount : g.dueCount ≤ s.timerList.length := by
    rw [h.hold.list, List.length_map, inOrder_perm.length_eq]
    exact List.countP_le_length
  obtain ⟨s', n, hrun, ⟨g', hs', hnow, -⟩, hguard⟩ := whileFuel_of_rank
    (P := fun n s => ∃ g', TimersAgenda s g' ∧ g'.now = g.now ∧ g'.dueCount = n)
    (fun n s ⟨g₁, hs, hnow, hn⟩ hguard =>
      let ⟨g₂, hs', hnow', hless⟩ := checkFirst_agenda hs hfunc hguard
      ⟨_, hn ▸ hless, g₂, hs', hnow'.trans hnow, rfl⟩)
    ⟨g, h, rfl, rfl⟩ (Nat.lt_succ_of_le hcount)
  exact ⟨s', g', hrun, hs', hnow, dueCount_of_not_firstIsDue hs'.hold hguard⟩

/-- The clock ticks where no timer is due. -/
theorem tick_agenda (h : TimersAgenda s g) (hquiet : g.dueCount = 0) :
    TimersAgenda { s with rtTick := s.rtTick + 1, log := s.log ++ [.tick] }
      { g with now := g.now + 1 } := by
  have hpassed := Agenda.dueCount_eq_zero_iff.mp hquiet
  have hstep : g.step .tick = some { g with now := g.now + 1 } := if_pos hpassed
  have htick : s.rtTick + 1 = BitVec.ofNat 32 (g.now + 1) := by
    rw [h.hold.tick, BitVec.ofNat_add]
    rfl
  exact ⟨⟨htick, h.hold.within.tick hpassed, h.hold.list, h.hold.timeout, h.hold.inits⟩,
    log_concat h.log hstep⟩

/-- **A tick rings every alarm that is due, and ends**: each pass of the loop leaves one less that
is due. -/
theorem rtTickIncrease_agenda (h : TimersAgenda s g)
    (hfunc : ∀ s t, ∀ c ∈ timeoutFunc s t, c.InRange) (hquiet : g.dueCount = 0) :
    ∃ s' g', rtTickIncrease timeoutFunc s = some s' ∧ TimersAgenda s' g' ∧
      g'.now = g.now + 1 ∧ g'.dueCount = 0 :=
  rtTimerCheck_agenda (tick_agenda h hquiet) hfunc

end Check

/-! ## Runs -/

/-- A call of a thread or a handler, or a tick of the clock. -/
inductive TimerAct where
  | call (c : TimerCall)
  | tick
  deriving DecidableEq, Repr

def timersStep (timeoutFunc : Timers → Nat → List TimerCall) (s : Timers) :
    TimerAct → Option Timers
  | .call c => some (timerCall s c)
  | .tick => rtTickIncrease timeoutFunc s

/-- Timers as `_timer_init` leaves them, at the start of the clock. -/
def timersStart (time : Nat → BitVec 32) (periodic : Nat → Bool) : Timers :=
  { rtTick := 0, timer := fun t => timerInit (time t) (periodic t), timerList := [], checked := none,
    log := [] }

def TimerAct.InRange : TimerAct → Prop
  | .call c => c.InRange
  | .tick => True

section Runs

variable {timeoutFunc : Timers → Nat → List TimerCall} {s : Timers} {g : Agenda Nat}

/-- Every step is one of the agenda. -/
theorem timersStep_agenda (h : TimersAgenda s g)
    (hfunc : ∀ s t, ∀ c ∈ timeoutFunc s t, c.InRange) (hquiet : g.dueCount = 0) {act : TimerAct}
    (hact : act.InRange) :
    ∃ s' g', timersStep timeoutFunc s act = some s' ∧ TimersAgenda s' g' ∧
      g'.now = g.now + [act].count .tick ∧ g'.dueCount = 0 := by
  cases act with
  | call c =>
    obtain ⟨g', hs', hnow, hdue⟩ := timerCall_agenda h hact
    exact ⟨_, g', rfl, hs', hnow, by omega⟩
  | tick => exact rtTickIncrease_agenda h hfunc hquiet

/-- And every run is. -/
theorem timersRun_agenda (acts : List TimerAct) (hacts : ∀ act ∈ acts, act.InRange)
    (hfunc : ∀ s t, ∀ c ∈ timeoutFunc s t, c.InRange) (h : TimersAgenda s g)
    (hquiet : g.dueCount = 0) :
    ∃ s' g', run (timersStep timeoutFunc) s acts = some s' ∧ TimersAgenda s' g' ∧
      g'.now = g.now + acts.count .tick ∧ g'.dueCount = 0 := by
  induction acts generalizing s g with
  | nil => exact ⟨s, g, rfl, h, rfl, hquiet⟩
  | cons act acts ih =>
    obtain ⟨s₁, g₁, hstep, h₁, hnow₁, hquiet₁⟩ :=
      timersStep_agenda h hfunc hquiet (hacts act List.mem_cons_self)
    obtain ⟨s₂, g₂, hrun, h₂, hnow₂, hquiet₂⟩ :=
      ih (fun x hx => hacts x (List.mem_cons_of_mem act hx)) h₁ hquiet₁
    refine ⟨s₂, g₂, ?_, h₂, ?_, hquiet₂⟩
    · rw [run, hstep]
      exact hrun
    · rw [hnow₂, hnow₁, Nat.add_assoc, ← List.count_append, List.singleton_append]

/-- At the start no timer is set. -/
theorem timersStart_agenda {time : Nat → BitVec 32} {periodic : Nat → Bool}
    (htime : ∀ t, TimeInRange (time t)) : TimersAgenda (timersStart time periodic) ⟨0, []⟩ :=
  ⟨⟨rfl, ⟨List.nodup_nil, fun _ he => absurd he List.not_mem_nil⟩, rfl,
    fun _ he => absurd he List.not_mem_nil, htime⟩, rfl⟩

/-- `rt_timer_next_timeout_tick` returns the earliest time that an alarm is due at. -/
theorem rtTimerNextTimeoutTick_eq (h : TimersHold s g) {e : Nat × Nat} (he : e ∈ g.armed)
    (hearliest : ∀ x ∈ g.armed, e.1 ≤ x.1) : rtTimerNextTimeoutTick s = BitVec.ofNat 32 e.1 := by
  unfold rtTimerNextTimeoutTick
  rw [h.list]
  cases hfirst : inOrder g.armed with
  | nil => exact absurd (hfirst ▸ mem_inOrder.mpr he) List.not_mem_nil
  | cons first rest =>
    have hmem : first ∈ g.armed := mem_inOrder.mp (hfirst ▸ List.mem_cons_self)
    have heq : first.1 = e.1 :=
      Nat.le_antisymm ((find_of_inOrder_cons hfirst).1 e he) (hearliest first hmem)
    rw [← heq]
    exact h.timeout first hmem

end Runs

/-- Whatever timers are started, stopped, detached or changed, in any order with the ticks of the
clock and by the timers' own functions: every check ends; what was done is a run of an agenda, so
that a timer's function is called in the tick its time is due, never earlier or later, and the
ones of one tick in the order they were started; and no timer is due when a tick is over.

The list is the agenda in order of time.  Every time in it is less than half the range of the tick
away, so the comparison of the code, a difference in 32 bits, is the one of the times, also where
the tick wraps.  Each tick works off what is due; a timer that its function starts again is due
later, so the loop does not meet it twice. -/
theorem timers_on_time (timeoutFunc : Timers → Nat → List TimerCall) (time : Nat → BitVec 32)
    (periodic : Nat → Bool) (hfunc : ∀ s t, ∀ c ∈ timeoutFunc s t, c.InRange)
    (htime : ∀ t, TimeInRange (time t)) (acts : List TimerAct)
    (hacts : ∀ act ∈ acts, act.InRange) :
    ∃ s g, run (timersStep timeoutFunc) (timersStart time periodic) acts = some s ∧
      run Agenda.step ⟨0, []⟩ s.log = some g ∧ g.now = acts.count .tick ∧
      s.timerList = (inOrder g.armed).map Prod.snd ∧ (∀ e ∈ g.armed, g.now < e.1) ∧
      ∀ e ∈ g.armed, (∀ x ∈ g.armed, e.1 ≤ x.1) →
        rtTimerNextTimeoutTick s = BitVec.ofNat 32 e.1 := by
  obtain ⟨s, g, hrun, h, hnow, hquiet⟩ :=
    timersRun_agenda acts hacts hfunc (timersStart_agenda htime) rfl
  exact ⟨s, g, hrun, h.log, hnow.trans (Nat.zero_add _), h.hold.list,
    Agenda.dueCount_eq_zero_iff.mp hquiet, fun e he => rtTimerNextTimeoutTick_eq h.hold he⟩

theorem timers_on_time_two_timers :
    ∃ s g, run (timersStep fun _ t => if t = 1 then [.start 2] else [])
        (timersStart (fun _ => 3) fun t => t = 1) [.call (.start 1), .tick, .tick, .tick, .tick] =
          some s ∧
      run Agenda.step ⟨0, []⟩ s.log = some g ∧
      g.now = [TimerAct.call (.start 1), .tick, .tick, .tick, .tick].count .tick ∧
      s.timerList = (inOrder g.armed).map Prod.snd ∧ (∀ e ∈ g.armed, g.now < e.1) ∧
      ∀ e ∈ g.armed, (∀ x ∈ g.armed, e.1 ≤ x.1) →
        rtTimerNextTimeoutTick s = BitVec.ofNat 32 e.1 := by
  have hfunc : ∀ (s : Timers) (t : Nat), ∀ c ∈ if t = 1 then [TimerCall.start 2] else [],
      c.InRange := by
    intro _ t c hc
    split at hc
    · obtain rfl := List.mem_singleton.mp hc
      trivial
    · cases hc
  exact timers_on_time _ _ _ hfunc (fun _ => ⟨by decide, by decide⟩) _
    (by simp [TimerAct.InRange, TimerCall.InRange])

end HpmSdk.Rtt
