import HpmSdk.Foundation.Agenda
import HpmSdk.Foundation.While

set_option autoImplicit false

/-!
# Timers (`rt-thread/src/timer.c`)

The hard timers, on one list (`RT_TIMER_SKIP_LIST_LEVEL` is 1) by the time they are due at.  The
clock is a word that wraps.  Each function runs with interrupts disabled, so that it is one step;
the functions of the timers that are due run inside `rt_timer_check`.
-/

namespace HpmSdk.Rtt

open Foundation

/-- `RT_TICK_MAX`. -/
def rtTickMax : Nat := 0xFFFFFFFF

/-- `struct rt_timer`, less its function and its links. -/
structure RtTimer where
  initTick : BitVec 32
  timeoutTick : BitVec 32
  periodic : Bool
  activated : Bool
  deriving DecidableEq, Repr

/-- `rt_tick`, the timers by their address, `_timer_list`, the timer on the list that is local to
`rt_timer_check`, and what was done. -/
structure Timers where
  rtTick : BitVec 32
  timer : Nat → RtTimer
  timerList : List Nat
  checked : Option Nat
  log : List (AgendaEvent Nat)

/-- `_timer_init`. -/
def timerInit (time : BitVec 32) (periodic : Bool) : RtTimer :=
  { initTick := time, timeoutTick := 0, periodic, activated := false }

/-- A field of one timer is changed. -/
def Timers.update (s : Timers) (t : Nat) (f : RtTimer → RtTimer) : Timers :=
  { s with timer := Function.update s.timer t (f (s.timer t)) }

/-- `_timer_remove`: from the list that the timer is on. -/
def timerRemove (s : Timers) (t : Nat) : Timers :=
  { s with
    timerList := s.timerList.filter (· ≠ t)
    checked := s.checked.filter (· ≠ t) }

/-- The walk of `rt_timer_start`: the new timer goes in front of the first one that is later. -/
def rowInsert (timer : Nat → RtTimer) (t : Nat) : List Nat → List Nat
  | [] => [t]
  | next :: row =>
    let ahead := (timer next).timeoutTick - (timer t).timeoutTick
    if ahead = 0 then next :: rowInsert timer t row
    else if ahead.toNat < rtTickMax / 2 then t :: next :: row
    else next :: rowInsert timer t row

/-- `rt_timer_start`. -/
def rtTimerStart (s : Timers) (t : Nat) : Timers :=
  let s := timerRemove s t
  let s := s.update t fun x =>
    { x with activated := false, timeoutTick := s.rtTick + x.initTick }
  let s := { s with timerList := rowInsert s.timer t s.timerList }
  let s := s.update t fun x => { x with activated := true }
  { s with log := s.log ++ [.arm t (s.timer t).initTick.toNat] }

/-- `rt_timer_stop`, and whether it returns `RT_EOK`. -/
def rtTimerStop (s : Timers) (t : Nat) : Bool × Timers :=
  if (s.timer t).activated = false then (false, s)
  else
    let s := timerRemove s t
    let s := s.update t fun x => { x with activated := false }
    (true, { s with log := s.log ++ [.cancel t] })

/-- `rt_timer_detach`, and as well `rt_timer_delete`. -/
def rtTimerDetach (s : Timers) (t : Nat) : Timers :=
  let s := timerRemove s t
  let s := s.update t fun x => { x with activated := false }
  { s with log := s.log ++ [.cancel t] }

/-- `RT_TIMER_CTRL_...`. -/
inductive TimerCtrl where
  | getTime
  | setTime (time : BitVec 32)
  | setOneshot
  | setPeriodic
  | getState
  deriving DecidableEq, Repr

/-- `rt_timer_control`, with what it writes to its argument. -/
def rtTimerControl (s : Timers) (t : Nat) : TimerCtrl → Option (BitVec 32) × Timers
  | .getTime => (some (s.timer t).initTick, s)
  | .setTime time => (none, s.update t fun x => { x with initTick := time })
  | .setOneshot => (none, s.update t fun x => { x with periodic := false })
  | .setPeriodic => (none, s.update t fun x => { x with periodic := true })
  | .getState => (some (if (s.timer t).activated then 1 else 0), s)

/-- The calls, of threads, of other handlers and of the timers' functions. -/
inductive TimerCall where
  | start (t : Nat)
  | stop (t : Nat)
  | detach (t : Nat)
  | control (t : Nat) (cmd : TimerCtrl)
  deriving DecidableEq, Repr

def timerCall (s : Timers) : TimerCall → Timers
  | .start t => rtTimerStart s t
  | .stop t => (rtTimerStop s t).2
  | .detach t => rtTimerDetach s t
  | .control t cmd => (rtTimerControl s t cmd).2

/-- What the loop of `rt_timer_check` does in front of a timer's function: the timer is put on the
local list. -/
def takeExpired (s : Timers) (t : Nat) : Timers :=
  let s := timerRemove s t
  let s := if (s.timer t).periodic then s else s.update t fun x => { x with activated := false }
  { s with checked := some t, log := s.log ++ [.ring t] }

/-- What it does behind the function, but where the timer left the local list. -/
def reload (s : Timers) (t : Nat) : Timers :=
  match s.checked with
  | none => s
  | some _ =>
    let s := { s with checked := none }
    if (s.timer t).periodic && (s.timer t).activated then
      rtTimerStart (s.update t fun x => { x with activated := false }) t
    else s

section Check

-- The calls that the function of a timer makes; it sees all that was done.
variable (timeoutFunc : Timers → Nat → List TimerCall)

/-- The guard of the loop: there is a first timer, and it is due. -/
def firstIsDue (s : Timers) : Bool :=
  match s.timerList with
  | [] => false
  | t :: _ => (s.rtTick - (s.timer t).timeoutTick).toNat < rtTickMax / 2

/-- The body of the loop, for the first timer. -/
def checkTimer (s : Timers) (t : Nat) : Timers :=
  let s := takeExpired s t
  reload ((timeoutFunc s t).foldl timerCall s) t

def checkFirst (s : Timers) : Timers :=
  match s.timerList with
  | [] => s
  | t :: _ => checkTimer timeoutFunc s t

/-- `rt_timer_check`, with as many passes as there are timers on the list. -/
def rtTimerCheck (s : Timers) : Option Timers :=
  whileFuel firstIsDue (checkFirst timeoutFunc) (s.timerList.length + 1) s

/-- `rt_tick_increase`, less the time slices of the threads. -/
def rtTickIncrease (s : Timers) : Option Timers :=
  rtTimerCheck timeoutFunc { s with rtTick := s.rtTick + 1, log := s.log ++ [.tick] }

end Check

/-- `_timer_list_next_timeout` of the list. -/
def rtTimerNextTimeoutTick (s : Timers) : BitVec 32 :=
  match s.timerList with
  | [] => BitVec.ofNat 32 rtTickMax
  | t :: _ => (s.timer t).timeoutTick

end HpmSdk.Rtt
