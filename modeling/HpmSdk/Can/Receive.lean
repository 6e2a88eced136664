import HpmSdk.Can.BitTiming
import HpmSdk.Foundation.Run
import HpmSdk.Foundation.Updates
import Mathlib.Data.List.Forall2
import Mathlib.Logic.Function.Basic

set_option autoImplicit false

/-!
# CAN: receiving (`hpm_can_drv.c`)

The window `RBUF` shows the oldest entry of the receive FIFO until it is released.  Both
functions return without releasing an entry that is flagged with an error, so every later
call reports it again.

The FIFO is a queue, the frames that arrive are actions of a run beside the calls, and the contract
is about all that was reported in a run.
-/

namespace HpmSdk.Can

open HpmSdk.Foundation

/-! ## Entries -/

/-- `can_receive_buf_t`, and an entry of the FIFO: 20 words. -/
abbrev CanWords : Type := Fin 20 → BitVec 32

/-- `error_type` of a message. -/
def canErrorType (w : CanWords) : BitVec 32 := (⟨13, 3⟩ : RegField).get (w 1)

/-- `remote_frame` of a message. -/
def canRemoteFrame (w : CanWords) : BitVec 32 := (⟨6, 1⟩ : RegField).get (w 1)

/-- The bit field `dlc`. -/
def canDlcField : RegField := ⟨0, 4⟩

/-- `dlc` of a message. -/
def canDlc (w : CanWords) : BitVec 32 := canDlcField.get (w 1)

/-- `can_get_data_words_from_dlc`. -/
def canGetDataWordsFromDlc (dlc : BitVec 32) : Nat :=
  let dlc := (dlc &&& 0xF).toNat
  if dlc ≤ 8 then (dlc + 3) / 4
  else
    match dlc with
    | 9 => 3
    | 10 => 4
    | 11 => 5
    | 12 => 6
    | 13 => 8
    | 14 => 12
    | 15 => 16
    | _ => 0

/-- The bytes that a DLC stands for, by `can_payload_size_0` to `can_payload_size_64`. -/
def canDlcBytes : Nat → Nat
  | 9 => 12
  | 10 => 16
  | 11 => 20
  | 12 => 24
  | 13 => 32
  | 14 => 48
  | 15 => 64
  | n => n

/-- The words that are copied are the bytes of the DLC, rounded up, and messages have room
for them. -/
theorem canGetDataWordsFromDlc_eq (v : BitVec 32) :
    canGetDataWordsFromDlc (canDlcField.get v) =
        (canDlcBytes (canDlcField.get v).toNat + 3) / 4 ∧
      2 + canGetDataWordsFromDlc (canDlcField.get v) ≤ 18 := by
  have htable : ∀ d < 16, canGetDataWordsFromDlc (BitVec.ofNat 32 d) = (canDlcBytes d + 3) / 4 ∧
      2 + canGetDataWordsFromDlc (BitVec.ofNat 32 d) ≤ 18 := by decide
  have hlt : (canDlcField.get v).toNat < 16 := RegField.get_lt v (by decide)
  simpa using htable _ hlt

/-! ## The receive functions -/

/-- The receive FIFO, oldest entry first, and what the window shows where there is none. -/
structure CanRxFifo where
  entries : List CanWords
  idle : CanWords

namespace CanRxFifo

/-- `RBUF`. -/
def rbuf (rx : CanRxFifo) : CanWords := rx.entries.head?.getD rx.idle

/-- `CMD_STA_CMD_CTRL |= CAN_CMD_STA_CMD_CTRL_RREL_MASK`. -/
def release (rx : CanRxFifo) : CanRxFifo := { rx with entries := rx.entries.tail }

end CanRxFifo

/-- How a call ends. -/
inductive CanRxOutcome where
  /-- It polls an empty FIFO. -/
  | polling
  /-- It stores outside of the message. -/
  | overrun
  | returned (status : CanStat) (message : CanWords) (rx : CanRxFifo)

/-- The status for an `error_type`. -/
def canErrorStatus (errorType : BitVec 32) : CanStat :=
  match errorType.toNat with
  | 1 => .bitError
  | 2 => .formError
  | 3 => .stuffError
  | 4 => .ackError
  | 5 => .crcError
  | _ => .otherError

/-- `message->buffer[2U + i] = base->RBUF[2U + i]`, for so many words. -/
def canCopyWords (rbuf message : CanWords) : Nat → Option CanWords
  | 0 => some message
  | i + 1 => (canCopyWords rbuf message i).bind fun message =>
    if h : 2 + i < 20 then some (Function.update message ⟨2 + i, h⟩ (rbuf ⟨2 + i, h⟩)) else none

/-- `can_receive_message_blocking`. -/
def canReceiveMessageBlocking (rx : CanRxFifo) (message : CanWords) : CanRxOutcome :=
  if rx.entries = [] then .polling
  else
    let message := Function.update message 0 (rx.rbuf 0)
    let message := Function.update message 1 (rx.rbuf 1)
    if canErrorType message ≠ 0 then .returned (canErrorStatus (canErrorType message)) message rx
    else
      let copied :=
        if canRemoteFrame message = 0 then
          canCopyWords rx.rbuf message (canGetDataWordsFromDlc (canDlc message))
        else some message
      match copied with
      | none => .overrun
      | some message => .returned .success message rx.release

/-- `can_read_received_message`. -/
def canReadReceivedMessage (rx : CanRxFifo) (message : CanWords) : CanRxOutcome :=
  let message := Function.update message 0 (rx.rbuf 0)
  let message := Function.update message 1 (rx.rbuf 1)
  if canErrorType message ≠ 0 then .returned (canErrorStatus (canErrorType message)) message rx
  else
    let copied :=
      if canRemoteFrame message = 0 then
        canCopyWords rx.rbuf message (canGetDataWordsFromDlc (canDlc message))
      else some message
    match copied with
    | none => .overrun
    | some message => .returned .success message rx.release

/-! ## The contract -/

/-- The words of an entry that a message takes over. -/
def canWordsDelivered (entry : CanWords) : Nat :=
  if canErrorType entry = 0 ∧ canRemoteFrame entry = 0 then
    2 + (canDlcBytes (canDlc entry).toNat + 3) / 4
  else 2

/-- What an entry is delivered or reported as, to a message with some contents. -/
def canDelivered (entry message : CanWords) : CanStat × CanWords :=
  (if canErrorType entry = 0 then .success else canErrorStatus (canErrorType entry),
    fun i => if i < canWordsDelivered entry then entry i else message i)

/-- What happens to the controller: an entry arrives, or one of the functions is called with
a message with some contents. -/
inductive CanRxAction where
  | arrive (entry : CanWords)
  | receive (blocking : Bool) (message : CanWords)

/-- A call with its message before it and what it returned, if it did. -/
structure CanRxCall where
  message : CanWords
  result : Option (CanStat × CanWords)

/-- The FIFO and the calls so far. -/
structure CanRxState where
  rx : CanRxFifo
  calls : List CanRxCall

/-- The result of a call. -/
def CanRxOutcome.result : CanRxOutcome → Option (CanStat × CanWords)
  | .returned status message _ => some (status, message)
  | _ => none

/-- The FIFO behind a call. -/
def CanRxOutcome.rx (before : CanRxFifo) : CanRxOutcome → CanRxFifo
  | .returned _ _ rx => rx
  | _ => before

/-- One action.  A blocking call returns when there is an entry, and the other function is
for a message that is available. -/
def canRxStep (s : CanRxState) : CanRxAction → Option CanRxState
  | .arrive entry => some { s with rx := { s.rx with entries := s.rx.entries ++ [entry] } }
  | .receive blocking message =>
    if s.rx.entries = [] then none
    else
      let outcome :=
        if blocking then canReceiveMessageBlocking s.rx message
        else canReadReceivedMessage s.rx message
      some ⟨outcome.rx s.rx, s.calls ++ [⟨message, outcome.result⟩]⟩

/-- The entry that an action places in the FIFO. -/
def CanRxAction.entry : CanRxAction → Option CanWords
  | .arrive entry => some entry
  | .receive _ _ => none

/-- What is asked for a sequence of entries, for every mixture of arrivals and calls: each call
gives the next entry, and the FIFO has lost the entries that were given. -/
def CanReceives (entries : List CanWords) : Prop :=
  ∀ idle acts s, acts.filterMap CanRxAction.entry = entries →
    run canRxStep ⟨⟨[], idle⟩, []⟩ acts = some s →
    List.Forall₂ (fun entry call => call.result = some (canDelivered entry call.message))
        (entries.take s.calls.length) s.calls ∧
      s.rx.entries = entries.drop s.calls.length

/-! ## One call -/

section Call

/-- The loop copies as many words as it is told, behind the two of the header. -/
theorem canCopyWords_eq (rbuf message : CanWords) {n : Nat} (h : 2 + n ≤ 20) :
    canCopyWords rbuf message n =
      some fun i => if 2 ≤ i.val ∧ i.val < 2 + n then rbuf i else message i := by
  induction n with
  | zero =>
    refine congrArg some (funext fun i => (if_neg ?_).symm)
    omega
  | succ n ih =>
    have hlt : 2 + n < 20 := by omega
    simp only [canCopyWords, ih (by omega), Option.bind_some, dif_pos hlt]
    exact congrArg some (update_range rbuf message hlt)

variable (rx : CanRxFifo) (message : CanWords)

/-- The two functions do the same where there is an entry. -/
theorem canReceiveMessageBlocking_eq (h : rx.entries ≠ []) :
    canReceiveMessageBlocking rx message = canReadReceivedMessage rx message := by
  unfold canReceiveMessageBlocking
  rw [if_neg h]
  rfl

/-- The flags of a message are those of the entry once two words are copied. -/
theorem canHeader_eq (rbuf : CanWords) :
    Function.update (Function.update message 0 (rbuf 0)) 1 (rbuf 1) =
      fun i => if i.val < 2 then rbuf i else message i := by
  funext i
  by_cases h1 : i = 1
  · subst h1
    simp
  · rw [Function.update_of_ne h1]
    by_cases h0 : i = 0
    · subst h0
      simp
    · have hge : ¬ i.val < 2 := by omega
      rw [Function.update_of_ne h0, if_neg hge]

/-- A call gives the oldest entry, and releases it where it has no error. -/
theorem canReadReceivedMessage_eq : canReadReceivedMessage rx message =
    .returned (canDelivered rx.rbuf message).1 (canDelivered rx.rbuf message).2
      (if canErrorType rx.rbuf = 0 then rx.release else rx) := by
  unfold canReadReceivedMessage canDelivered canWordsDelivered
  simp only [canHeader_eq]
  generalize rx.rbuf = entry
  have herror : canErrorType (fun i => if i.val < 2 then entry i else message i) =
      canErrorType entry := rfl
  have hremote : canRemoteFrame (fun i => if i.val < 2 then entry i else message i) =
      canRemoteFrame entry := rfl
  have hdlc : canDlc (fun i => if i.val < 2 then entry i else message i) = canDlc entry := rfl
  obtain ⟨hwords, hroom⟩ := canGetDataWordsFromDlc_eq (entry 1)
  simp only [herror, hremote, hdlc]
  by_cases he : canErrorType entry = 0
  · by_cases hr : canRemoteFrame entry = 0
    · rw [canCopyWords_eq entry _ (by unfold canDlc; omega)]
      simp only [he, hr, ne_eq, not_true, if_false, if_true, and_self]
      refine congrArg (CanRxOutcome.returned _ · _) (funext fun i => ?_)
      have hcount : (canDlcBytes (canDlc entry).toNat + 3) / 4 =
          canGetDataWordsFromDlc (canDlc entry) := hwords.symm
      rw [hcount]
      by_cases h2 : i.val < 2
      · rw [if_neg (by omega), if_pos h2, if_pos (by omega)]
      · by_cases hn : i.val < 2 + canGetDataWordsFromDlc (canDlc entry)
        · rw [if_pos ⟨by omega, hn⟩, if_pos hn]
        · rw [if_neg (by omega), if_neg h2, if_neg hn]
    · simp only [he, hr, ne_eq, not_true, if_false, if_true, and_false]
  · simp only [he, ne_eq, not_false_eq_true, if_true, if_false, false_and]

end Call

/-! ## Runs -/

/-- A call that meets an entry. -/
theorem canRxStep_receive {s : CanRxState} {entry : CanWords} {rest : List CanWords}
    (h : s.rx.entries = entry :: rest) (blocking : Bool) (message : CanWords) :
    canRxStep s (.receive blocking message) =
      some ⟨if canErrorType entry = 0 then { s.rx with entries := rest } else s.rx,
        s.calls ++ [⟨message, some (canDelivered entry message)⟩]⟩ := by
  have hne : s.rx.entries ≠ [] := by simp [h]
  have hrbuf : s.rx.rbuf = entry := by simp [CanRxFifo.rbuf, h]
  have hrelease : s.rx.release = { s.rx with entries := rest } := by simp [CanRxFifo.release, h]
  unfold canRxStep
  simp only [if_neg hne, canReceiveMessageBlocking_eq _ _ hne, ite_self,
    canReadReceivedMessage_eq, hrbuf, hrelease, CanRxOutcome.rx, CanRxOutcome.result]

/-- Where no entry has an error, the calls of a run give the entries in order. -/
theorem run_canRxStep {acts : List CanRxAction} {s s' : CanRxState}
    (hok : ∀ entry ∈ s.rx.entries ++ acts.filterMap CanRxAction.entry, canErrorType entry = 0)
    (hrun : run canRxStep s acts = some s') :
    ∃ calls, s'.calls = s.calls ++ calls ∧
      List.Forall₂ (fun entry call => call.result = some (canDelivered entry call.message))
        ((s.rx.entries ++ acts.filterMap CanRxAction.entry).take calls.length) calls ∧
      s'.rx.entries = (s.rx.entries ++ acts.filterMap CanRxAction.entry).drop calls.length := by
  induction acts generalizing s with
  | nil =>
    cases hrun
    exact ⟨[], (List.append_nil _).symm, .nil, by simp⟩
  | cons act acts ih =>
    obtain ⟨mid, hstep, hrest⟩ := run_cons hrun
    cases act with
    | arrive entry =>
      cases hstep
      have hlist : s.rx.entries ++ List.filterMap CanRxAction.entry (.arrive entry :: acts) =
          s.rx.entries ++ [entry] ++ acts.filterMap CanRxAction.entry := by
        simp [CanRxAction.entry]
      rw [hlist] at hok ⊢
      exact ih hok hrest
    | receive blocking message =>
      have hlist : List.filterMap CanRxAction.entry (.receive blocking message :: acts) =
          acts.filterMap CanRxAction.entry := rfl
      rw [hlist] at hok ⊢
      cases hfifo : s.rx.entries with
      | nil =>
        simp only [canRxStep, if_pos hfifo] at hstep
        exact nomatch hstep
      | cons entry rest =>
        rw [hfifo, List.cons_append, List.forall_mem_cons] at hok
        rw [canRxStep_receive hfifo, if_pos hok.1] at hstep
        cases hstep
        obtain ⟨calls, hcalls, hall, hfifo'⟩ := ih hok.2 hrest
        refine ⟨⟨message, some (canDelivered entry message)⟩ :: calls, ?_, ?_, ?_⟩
        · rw [hcalls, List.append_assoc]
          rfl
        · exact .cons rfl hall
        · exact hfifo'

/-- An entry with an error is still there behind the call that reports it. -/
theorem run_canRxStep_stuck {front back : List CanWords} {entry : CanWords}
    (hfront : ∀ e ∈ front, canErrorType e = 0) (herror : canErrorType entry ≠ 0)
    (message : CanWords) {s : CanRxState} (hs : s.rx.entries = front ++ entry :: back) :
    ∃ s', run canRxStep s (List.replicate (front.length + 1) (.receive false message)) =
        some s' ∧ s'.rx.entries = entry :: back ∧
      s'.calls.length = s.calls.length + (front.length + 1) := by
  induction front generalizing s with
  | nil =>
    refine ⟨⟨s.rx, s.calls ++ [⟨message, some (canDelivered entry message)⟩]⟩, ?_, hs, by simp⟩
    show (canRxStep s (.receive false message)).bind some = _
    rw [canRxStep_receive hs, if_neg herror]
    rfl
  | cons e front ih =>
    rw [List.forall_mem_cons] at hfront
    rw [List.cons_append] at hs
    obtain ⟨s', hrun, hfifo, hcalls⟩ := ih hfront.2
      (s := ⟨{ s.rx with entries := front ++ entry :: back },
        s.calls ++ [⟨message, some (canDelivered e message)⟩]⟩) rfl
    refine ⟨s', ?_, hfifo, ?_⟩
    · rw [List.length_cons, List.replicate_succ, run, canRxStep_receive hs, if_pos hfront.1]
      exact hrun
    · rw [hcalls, List.length_append, List.length_singleton, List.length_cons]
      omega

/-- Frames that arrive before the first call only fill the FIFO. -/
theorem run_canRxStep_arrive (entries : List CanWords) (acts : List CanRxAction)
    (s : CanRxState) : run canRxStep s (entries.map .arrive ++ acts) =
      run canRxStep { s with rx := { s.rx with entries := s.rx.entries ++ entries } } acts := by
  induction entries generalizing s with
  | nil => simp
  | cons entry entries ih =>
    rw [List.map_cons, List.cons_append, run]
    simp only [canRxStep, Option.bind_some, ih, List.append_assoc, List.singleton_append]

/-! ## The contract -/

/-- An entry with an error stays in front of the FIFO, and the call behind it reports it a second
time. -/
theorem not_canReceives {entries : List CanWords} {entry : CanWords} (hmem : entry ∈ entries)
    (herror : canErrorType entry ≠ 0) : ¬ CanReceives entries := by
  intro h
  -- The first entry with an error.
  obtain ⟨first, front, back, hentries, herror, hfront⟩ :
      ∃ first front back, entries = front ++ first :: back ∧ canErrorType first ≠ 0 ∧
        ∀ e ∈ front, canErrorType e = 0 := by
    cases hfind : entries.find? fun e => decide (canErrorType e ≠ 0) with
    | none => exact absurd herror (by simpa using List.find?_eq_none.mp hfind entry hmem)
    | some first =>
      obtain ⟨hfirst, front, back, heq, hfront⟩ := List.find?_eq_some_iff_append.mp hfind
      exact ⟨first, front, back, heq, by simpa using hfirst, fun e he => by simpa using hfront e he⟩
  subst hentries
  obtain ⟨s', hrun, hfifo, hcalls⟩ := @run_canRxStep_stuck front back _ hfront herror (fun _ => 0)
    (⟨⟨[] ++ (front ++ first :: back), fun _ => 0⟩, []⟩) rfl
  have hacts : ((front ++ first :: back).map CanRxAction.arrive ++
      List.replicate (front.length + 1) (CanRxAction.receive false fun _ => 0)).filterMap
        CanRxAction.entry = front ++ first :: back := by
    have harrive : CanRxAction.entry ∘ CanRxAction.arrive = some := rfl
    rw [List.filterMap_append, List.filterMap_map, harrive, List.filterMap_some,
      List.filterMap_replicate_of_none rfl, List.append_nil]
  obtain ⟨-, hdrop⟩ := h (fun _ => 0) _ s' hacts ((run_canRxStep_arrive _ _ _).trans hrun)
  have hlength := congrArg List.length (hfifo.symm.trans hdrop)
  rw [hcalls, List.length_drop, List.length_append, List.length_cons, List.length_nil] at hlength
  omega

/-- **Every entry is delivered or reported once and in order exactly where none is flagged with an
error.**

A call takes the oldest entry and releases it at its end, so a run of calls works off the FIFO
from its front.  An entry with an error leaves the function before the release: the next call
finds it again, and no later entry is reached. -/
theorem canReceives_iff (entries : List CanWords) :
    CanReceives entries ↔ ∀ entry ∈ entries, canErrorType entry = 0 := by
  constructor
  · intro h entry hmem
    by_contra herror
    exact not_canReceives hmem herror h
  · rintro hok idle acts s rfl hrun
    obtain ⟨calls, hcalls, hall, hfifo⟩ := run_canRxStep (s := ⟨⟨[], idle⟩, []⟩) hok hrun
    rw [List.nil_append] at hcalls hall hfifo
    rw [hcalls]
    exact ⟨hall, hfifo⟩

/-- A frame with a CRC error, and one behind it. -/
def canCrcErrorFrames : List CanWords :=
  [fun i => if i = 1 then 0xA000 else 0, fun _ => 0]

/-- The frame with the error is reported by two calls, and the one behind it never. -/
theorem canReceives_stuck : ¬ CanReceives canCrcErrorFrames :=
  not_canReceives (List.mem_cons_self ..) (by decide)

end HpmSdk.Can
