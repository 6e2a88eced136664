import HpmSdk.I2c.Transfer

set_option autoImplicit false

/-!
# I2C: when a transfer that succeeds has moved its bytes

The loops move every byte behind a read of `STATUS` that allows it.  What can go wrong is
outside of them: the count field, the address bytes, which are pushed unchecked, and the loop of
`i2c_slave_write`, which ends before its own limit is reached.

`I2cDid` says what a stretch of a log moved and whether each byte had room or was there.  It is
composed along each function, so that there is one lemma for each of them.
-/

namespace HpmSdk.I2c

open HpmSdk.Foundation

/-! ## What a piece of a call did -/

/-- A longer log is replayed by replaying its two parts. -/
theorem I2cFifo.run_append (f : I2cFifo) (a b : List I2cEvent) :
    f.run (a ++ b) = (f.run a).bind fun g => g.run b := by
  unfold I2cFifo.run
  rw [List.foldlM_append]
  rfl

/-- Between two states these bytes were pushed and popped, these counts were programmed, and
the FIFO allowed it, whatever was known of it before, exactly if `ok`. -/
structure I2cDid (s s' : I2cState) (pushed popped : List UInt8) (counts : List Nat)
    (ok : Prop) : Prop where
  events : ∃ es, s'.log = s.log ++ es ∧ es.filterMap I2cEvent.pushed? = pushed ∧
    es.filterMap I2cEvent.popped? = popped ∧ es.filterMap I2cEvent.count? = counts ∧
    ∀ f : I2cFifo, (f.run es).isSome ↔ ok

namespace I2cDid

variable {s t u : I2cState} {pushed popped pushed' popped' : List UInt8}
  {counts counts' : List Nat} {ok ok' : Prop}

/-- Nothing was done. -/
theorem refl (s : I2cState) : I2cDid s s [] [] [] True :=
  ⟨[], (List.append_nil _).symm, rfl, rfl, rfl, fun _ => by simp [I2cFifo.run]⟩

/-- What two stretches did is done one behind the other. -/
theorem trans (h : I2cDid s t pushed popped counts ok)
    (h' : I2cDid t u pushed' popped' counts' ok') :
    I2cDid s u (pushed ++ pushed') (popped ++ popped') (counts ++ counts') (ok ∧ ok') := by
  obtain ⟨es, hlog, hpushed, hpopped, hcounts, hok⟩ := h.events
  obtain ⟨es', hlog', hpushed', hpopped', hcounts', hok'⟩ := h'.events
  refine ⟨es ++ es', ?_, ?_, ?_, ?_, fun f => ?_⟩
  · rw [hlog', hlog, List.append_assoc]
  · rw [List.filterMap_append, hpushed, hpushed']
  · rw [List.filterMap_append, hpopped, hpopped']
  · rw [List.filterMap_append, hcounts, hcounts']
  · rw [I2cFifo.run_append, ← hok f]
    cases f.run es with
    | none => simp
    | some g => simp [hok' g]

/-- A piece without bytes and counts behind another one. -/
theorem quiet (h : I2cDid s t pushed popped counts ok) (h' : I2cDid t u [] [] [] True) :
    I2cDid s u pushed popped counts ok := by
  have h := h.trans h'
  rwa [List.append_nil, List.append_nil, List.append_nil, and_true] at h

/-- A piece without bytes and counts before another one. -/
theorem after (h : I2cDid t u pushed popped counts ok) (h' : I2cDid s t [] [] [] True) :
    I2cDid s u pushed popped counts ok := by
  have h := h'.trans h
  rwa [true_and] at h

/-- What was done from the start of a call is what its log says. -/
theorem delivered_iff {call : I2cCall} {mem : Buf}
    (h : I2cDid ⟨mem, [], 0, 0⟩ s pushed popped counts ok) (hpushed : pushed = call.toPush mem)
    (hpopped : popped = call.toPop s.mem) :
    I2cDelivered call mem s ↔ counts = call.counts ∧ ok := by
  obtain ⟨es, hlog, hpush, hpop, hcounts, hok⟩ := h.events
  rw [List.nil_append] at hlog
  refine ⟨fun h => ⟨?_, ?_⟩, fun h => ⟨?_, ?_, ?_, ?_⟩⟩
  · rw [← hcounts, ← hlog, h.counted]
  · exact (hok _).mp (hlog ▸ h.fifo)
  · rw [hlog, hpush, hpushed]
  · rw [hlog, hpop, hpopped]
  · rw [hlog]
    exact (hok _).mpr h.2
  · rw [hlog, hcounts, h.1]

end I2cDid

/-! ## Single accesses -/

section Accesses

variable (bus : I2cBus) (s : I2cState) (buf : Nat)

@[simp] theorem put_mem (e : I2cEvent) : (s.put e).mem = s.mem := rfl

@[simp] theorem put_polls (e : I2cEvent) : (s.put e).polls = s.polls := rfl

@[simp] theorem poll_mem : (s.poll bus).mem = s.mem := rfl

@[simp] theorem poll_polls : (s.poll bus).polls = s.polls + 1 := rfl

@[simp] theorem push_mem : (s.push buf).mem = s.mem := rfl

@[simp] theorem push_polls : (s.push buf).polls = s.polls := rfl

@[simp] theorem pop_mem : (s.pop bus buf).mem = s.mem.set buf (bus.data s.pops) := rfl

@[simp] theorem pop_polls : (s.pop bus buf).polls = s.polls := rfl

@[simp] theorem orStatus_mem (mask : BitVec 32) : (s.orStatus bus mask).mem = s.mem := rfl

@[simp] theorem orStatus_polls (mask : BitVec 32) :
    (s.orStatus bus mask).polls = s.polls + 1 := rfl

/-- Everything that is written but bytes. -/
theorem I2cDid.put {e : I2cEvent} (hpush : e.pushed? = none) (hpop : e.popped? = none) :
    I2cDid s (s.put e) [] [] e.count?.toList True := by
  refine ⟨[e], rfl, ?_, ?_, ?_, fun f => ?_⟩
  · simp [hpush]
  · simp [hpop]
  · cases h : e.count? <;> simp [h]
  · cases e with
    | push b => exact nomatch hpush
    | pop b => exact nomatch hpop
    | cmd c => cases c <;> simp [I2cFifo.run, I2cFifo.step]
    | _ => simp [I2cFifo.run, I2cFifo.step]

/-- Issuing a command moves no byte. -/
theorem I2cDid.cmd (c : I2cCmd) : I2cDid s (s.put (.cmd c)) [] [] [] True :=
  I2cDid.put s rfl rfl

theorem I2cDid.inten (v : BitVec 32) : I2cDid s (s.put (.inten v)) [] [] [] True :=
  I2cDid.put s rfl rfl

/-- Reading the status moves no byte. -/
theorem I2cDid.poll : I2cDid s (s.poll bus) [] [] [] True :=
  ⟨[.status (bus.status s.polls)], rfl, rfl, rfl, rfl,
    fun _ => by simp [I2cFifo.run, I2cFifo.step]⟩

theorem I2cDid.orStatus (mask : BitVec 32) : I2cDid s (s.orStatus bus mask) [] [] [] True :=
  (I2cDid.poll bus s).quiet (I2cDid.put _ rfl rfl)

/-- A byte that is pushed behind a status without `FIFOFULL`. -/
theorem I2cDid.pollPush (h : bus.status s.polls &&& i2cStatusFifofull = 0) (b : UInt8) :
    I2cDid s ((s.poll bus).put (.push b)) [b] [] [] True := by
  refine ⟨[.status (bus.status s.polls), .push b], ?_, rfl, rfl, rfl, fun f => ?_⟩
  · simp [I2cState.put, I2cState.poll]
  · have hroom : max 1 f.room ≠ 0 := by omega
    simp [I2cFifo.run, I2cFifo.step, h, hroom]

/-- A byte that is popped behind a status without `FIFOEMPTY`. -/
theorem I2cDid.pollPop (h : bus.status s.polls &&& i2cStatusFifoempty = 0) :
    I2cDid s ((s.poll bus).pop bus buf) [] [bus.data s.pops] [] True := by
  refine ⟨[.status (bus.status s.polls), .pop (bus.data s.pops)], ?_, rfl, rfl, rfl, fun f => ?_⟩
  · simp [I2cState.pop, I2cState.poll]
  · have hheld : max 1 f.held ≠ 0 := by omega
    simp [I2cFifo.run, I2cFifo.step, h, hheld]

end Accesses

/-! ## The wait for completion -/

section Wait

variable (bus : I2cBus)

/-- Waiting for the completion moves no byte. -/
theorem i2cWaitCmpl_did (retry : Nat) (s : I2cState) :
    I2cDid s (i2cWaitCmpl bus retry s).2 [] [] [] True ∧
      (i2cWaitCmpl bus retry s).2.mem = s.mem := by
  fun_induction i2cWaitCmpl bus retry s with
  | case1 => exact ⟨I2cDid.poll bus _, rfl⟩
  | case2 => exact ⟨I2cDid.poll bus _, rfl⟩
  | case3 retry s _ _ ih => exact ⟨(I2cDid.poll bus s).quiet ih.1, ih.2⟩

/-- The wait reads the status a bounded number of times. -/
theorem i2cWaitCmpl_polls (retry : Nat) (s : I2cState) (h : retry ≤ i2cRetryCount + 1) :
    (i2cWaitCmpl bus retry s).2.polls + retry ≤ s.polls + (i2cRetryCount + 2) := by
  fun_induction i2cWaitCmpl bus retry s with
  | case1 =>
    rw [poll_polls]
    omega
  | case2 =>
    rw [poll_polls]
    omega
  | case3 retry s _ hle ih =>
    have hrest := ih (by omega)
    rw [poll_polls] at hrest
    omega

/-- A wait that finds `CMPL` at once. -/
theorem i2cWaitCmpl_ready {s : I2cState} (h : bus.status s.polls &&& i2cStatusCmpl ≠ 0)
    (retry : Nat) : i2cWaitCmpl bus retry s = (retry, s.poll bus) := by
  unfold i2cWaitCmpl
  rw [if_pos h]

end Wait

/-! ## The data loop -/

section DataLoop

variable (bus : I2cBus) (busy : BitVec 32) (move : Nat → Nat → I2cState → I2cState)

/-- The reads of `STATUS` are bounded by the bytes. -/
theorem i2cDataLoop_polls (hmove : ∀ buf left s, (move buf left s).polls = s.polls)
    (left retry buf : Nat) (s : I2cState) (h : retry ≤ i2cRetryCount + 1) :
    (i2cDataLoop bus busy move left retry buf s).2.polls ≤
      s.polls + ((i2cRetryCount + 2) * left - retry) := by
  fun_induction i2cDataLoop bus busy move left retry buf s with
  | case1 => exact Nat.le_add_right _ _
  | case2 left retry buf s _ ih =>
    have hrest := ih (Nat.zero_le _)
    rw [hmove, poll_polls] at hrest
    rw [Nat.mul_succ]
    omega
  | case3 left retry buf s _ hlast =>
    rw [poll_polls, Nat.mul_succ]
    omega
  | case4 left retry buf s _ hle ih =>
    have hrest := ih (by omega)
    rw [poll_polls, Nat.mul_succ] at hrest
    rw [Nat.mul_succ]
    omega

/-- Where every status is ready the loop does not give up. -/
theorem i2cDataLoop_ready (h : ∀ n, bus.status n &&& busy = 0) (left buf : Nat) (s : I2cState) :
    (i2cDataLoop bus busy move left 0 buf s).1 = 0 := by
  induction left generalizing buf s with
  | zero => unfold i2cDataLoop; rfl
  | succ left ih =>
    unfold i2cDataLoop
    rw [if_pos (h s.polls)]
    exact ih _ _

/-- A loop of bytes that are pushed: it gives up, or it has pushed the buffer. -/
theorem i2cDataLoop_pushes
    (hmove : ∀ buf left s, bus.status s.polls &&& busy = 0 →
      I2cDid s (move buf left (s.poll bus)) [s.mem buf] [] [] True ∧
        (move buf left (s.poll bus)).mem = s.mem)
    (left retry buf : Nat) (s : I2cState)
    (h : ¬ i2cRetryCount < (i2cDataLoop bus busy move left retry buf s).1) :
    I2cDid s (i2cDataLoop bus busy move left retry buf s).2 (s.mem.toList buf left) [] [] True ∧
      (i2cDataLoop bus busy move left retry buf s).2.mem = s.mem := by
  fun_induction i2cDataLoop bus busy move left retry buf s with
  | case1 => exact ⟨I2cDid.refl _, rfl⟩
  | case2 left retry buf s hready ih =>
    obtain ⟨hstep, hmem⟩ := hmove buf left s hready
    obtain ⟨hrest, hmem'⟩ := ih h
    refine ⟨?_, hmem'.trans hmem⟩
    have hall := hstep.trans hrest
    rw [hmem, and_true] at hall
    rw [Nat.succ_eq_one_add, Buf.toList_add]
    exact hall
  | case3 left retry buf s _ hlast => exact absurd hlast h
  | case4 left retry buf s _ _ ih =>
    obtain ⟨hrest, hmem⟩ := ih h
    exact ⟨hrest.after (I2cDid.poll bus s), hmem⟩

/-- A loop of bytes that are popped: it gives up, or what it has popped is in the buffer. -/
theorem i2cDataLoop_pops
    (hmove : ∀ buf left s, bus.status s.polls &&& busy = 0 →
      I2cDid s (move buf left (s.poll bus)) [] [bus.data s.pops] [] True ∧
        (move buf left (s.poll bus)).mem = s.mem.set buf (bus.data s.pops))
    (left retry buf : Nat) (s : I2cState)
    (h : ¬ i2cRetryCount < (i2cDataLoop bus busy move left retry buf s).1) :
    I2cDid s (i2cDataLoop bus busy move left retry buf s).2 []
        ((i2cDataLoop bus busy move left retry buf s).2.mem.toList buf left) [] True ∧
      ∀ i < buf, (i2cDataLoop bus busy move left retry buf s).2.mem i = s.mem i := by
  fun_induction i2cDataLoop bus busy move left retry buf s with
  | case1 => exact ⟨I2cDid.refl _, fun _ _ => rfl⟩
  | case2 left retry buf s hready ih =>
    obtain ⟨hstep, hmem⟩ := hmove buf left s hready
    obtain ⟨hrest, hbelow⟩ := ih h
    have hbyte : bus.data s.pops = (i2cDataLoop bus busy move left 0 (buf + 1)
        (move buf left (s.poll bus))).2.mem buf := by
      rw [hbelow buf (Nat.lt_succ_self buf), hmem]
      simp [Buf.set]
    refine ⟨?_, fun i hi => ?_⟩
    · have hall := hstep.trans hrest
      rw [hbyte, and_true] at hall
      rw [Nat.succ_eq_one_add, Buf.toList_add]
      exact hall
    · rw [hbelow i (Nat.lt_succ_of_lt hi), hmem, Buf.set_of_ne _ (Nat.ne_of_lt hi)]
  | case3 left retry buf s _ hlast => exact absurd hlast h
  | case4 left retry buf s _ _ ih =>
    obtain ⟨hrest, hbelow⟩ := ih h
    exact ⟨hrest.after (I2cDid.poll bus s), hbelow⟩

end DataLoop

section Moves

variable (bus : I2cBus)

/-- The byte of `i2c_master_write`, behind a status that has room for it. -/
theorem i2cMasterWriteByte_did (buf left : Nat) (s : I2cState)
    (h : bus.status s.polls &&& i2cStatusFifofull = 0) :
    I2cDid s (i2cMasterWriteByte buf left (s.poll bus)) [s.mem buf] [] [] True ∧
      (i2cMasterWriteByte buf left (s.poll bus)).mem = s.mem :=
  ⟨(I2cDid.pollPush bus s h (s.mem buf)).quiet (I2cDid.cmd _ _), rfl⟩

/-- A byte that is pushed behind a status without `FIFOFULL` has room. -/
theorem push_did (buf _left : Nat) (s : I2cState)
    (h : bus.status s.polls &&& i2cStatusFifofull = 0) :
    I2cDid s ((s.poll bus).push buf) [s.mem buf] [] [] True ∧
      ((s.poll bus).push buf).mem = s.mem :=
  ⟨I2cDid.pollPush bus s h (s.mem buf), rfl⟩

/-- A byte that is popped behind a status without `FIFOEMPTY` is there. -/
theorem pop_did (buf _left : Nat) (s : I2cState)
    (h : bus.status s.polls &&& i2cStatusFifoempty = 0) :
    I2cDid s ((s.poll bus).pop bus buf) [] [bus.data s.pops] [] True ∧
      ((s.poll bus).pop bus buf).mem = s.mem.set buf (bus.data s.pops) :=
  ⟨I2cDid.pollPop bus s buf h, rfl⟩

/-- Reading a byte as a master pops it and stores it. -/
theorem i2cMasterReadByte_did (buf left : Nat) (s : I2cState)
    (h : bus.status s.polls &&& i2cStatusFifoempty = 0) :
    I2cDid s (i2cMasterReadByte bus buf left (s.poll bus)) [] [bus.data s.pops] [] True ∧
      (i2cMasterReadByte bus buf left (s.poll bus)).mem = s.mem.set buf (bus.data s.pops) := by
  obtain ⟨hpop, hmem⟩ := pop_did bus buf left s h
  unfold i2cMasterReadByte
  split
  · exact ⟨hpop.quiet (I2cDid.cmd _ _), hmem⟩
  · exact ⟨hpop, hmem⟩

theorem i2cMasterReadByte_polls (buf left : Nat) (s : I2cState) :
    (i2cMasterReadByte bus buf left s).polls = s.polls := by
  unfold i2cMasterReadByte
  split <;> rfl

end Moves

/-! ## The address bytes -/

/-- So many bytes in a row have room if and only if the FIFO has room for them. -/
theorem I2cFifo.run_pushes (bytes : List UInt8) (f : I2cFifo) :
    (f.run (bytes.map I2cEvent.push)).isSome ↔ bytes.length ≤ f.room := by
  induction bytes generalizing f with
  | nil => simp [I2cFifo.run]
  | cons b bytes ih =>
    have hcons : f.run ((b :: bytes).map I2cEvent.push) =
        (f.step (.push b)).bind fun g => g.run (bytes.map I2cEvent.push) := rfl
    rw [hcons, List.length_cons]
    by_cases hroom : f.room = 0
    · simp [I2cFifo.step, hroom]
    · simp only [I2cFifo.step, hroom, if_false, Option.bind_some, ih]
      omega

/-- The bytes of the address are pushed without a look at the status. -/
theorem i2cPushAddress_log (n addr : Nat) (s : I2cState) :
    (i2cPushAddress n addr s).log = s.log ++ (s.mem.toList addr n).map I2cEvent.push := by
  induction n generalizing addr s with
  | zero => exact (List.append_nil _).symm
  | succ n ih =>
    have hlog : (s.push addr).log = s.log ++ [.push (s.mem addr)] := rfl
    unfold i2cPushAddress
    rw [ih, hlog, push_mem, Nat.add_comm n 1, Buf.toList_add, List.append_assoc]
    rfl

theorem i2cPushAddress_mem (n addr : Nat) (s : I2cState) :
    (i2cPushAddress n addr s).mem = s.mem := by
  induction n generalizing addr s with
  | zero => rfl
  | succ n ih =>
    unfold i2cPushAddress
    rw [ih, push_mem]

theorem i2cPushAddress_polls (n addr : Nat) (s : I2cState) :
    (i2cPushAddress n addr s).polls = s.polls := by
  induction n generalizing addr s with
  | zero => rfl
  | succ n ih =>
    unfold i2cPushAddress
    rw [ih, push_polls]

/-- The address is pushed into a FIFO that was just cleared: it fits, or it does not. -/
theorem I2cDid.address (n addr : Nat) (s : I2cState) (e e' : I2cEvent)
    (he : ∀ f : I2cFifo, f.step e = some f) (he' : ∀ f : I2cFifo, f.step e' = some f)
    (hquiet : [e, e'].filterMap I2cEvent.pushed? = [])
    (hquiet' : [e, e'].filterMap I2cEvent.popped? = []) :
    I2cDid s (i2cPushAddress n addr (((s.put (.cmd .clearFifo)).put e).put e'))
      (s.mem.toList addr n) [] ([e, e'].filterMap I2cEvent.count?) (n ≤ i2cFifoSize) := by
  refine ⟨[.cmd .clearFifo] ++ [e, e'] ++ (s.mem.toList addr n).map I2cEvent.push, ?_, ?_, ?_, ?_,
    fun f => ?_⟩
  · rw [i2cPushAddress_log]
    simp [I2cState.put]
  · rw [List.filterMap_append, List.filterMap_append, hquiet, List.filterMap_map]
    exact List.filterMap_some
  · rw [List.filterMap_append, List.filterMap_append, hquiet', List.filterMap_map]
    exact List.filterMap_eq_nil_iff.mpr fun _ _ => rfl
  · have hnone : ((s.mem.toList addr n).map I2cEvent.push).filterMap I2cEvent.count? = [] := by
      rw [List.filterMap_map]
      exact List.filterMap_eq_nil_iff.mpr fun _ _ => rfl
    rw [List.filterMap_append, List.filterMap_append, hnone, List.append_nil]
    rfl
  · have hcleared : f.run ([.cmd .clearFifo] ++ [e, e']) = some ⟨i2cFifoSize, 0⟩ := by
      have hclear : f.step (.cmd .clearFifo) = some ⟨i2cFifoSize, 0⟩ := rfl
      simp [I2cFifo.run, hclear, he, he']
    rw [I2cFifo.run_append, hcleared, Option.bind_some, I2cFifo.run_pushes]
    simp [Buf.toList]

/-! ## The counts that are programmed -/

/-- The count that `DATACNT` holds for a number of bytes. -/
def i2cCounted (n : Nat) : Nat := if n % 256 = 0 then 256 else n % 256

/-- The count field counts from 1 to 256; 0 in it stands for 256. -/
theorem i2cCounted_eq_iff {n : Nat} : i2cCounted n = n ↔ 1 ≤ n ∧ n ≤ 256 := by
  unfold i2cCounted
  split <;> omega

theorem i2cCtrl_count (dir count : BitVec 32) :
    I2cEvent.count? (.ctrl (i2cCtrl dir count)) = some (i2cCounted count.toNat) := by
  have hphases : i2cCtrlDatacnt.get i2cCtrlPhases = 0 := by decide
  have hget : i2cCtrlDatacnt.get (i2cCtrl dir count) =
      i2cCtrlDatacnt.get (i2cCtrlDatacnt.set count) := by
    unfold i2cCtrl
    rw [RegField.get_or, RegField.get_or, hphases, RegField.get_set_of_apart _ (by decide)]
    simp
  have hnat : (i2cCtrlDatacnt.get (i2cCtrl dir count)).toNat = count.toNat % 256 := by
    rw [hget]
    exact RegField.get_set_toNat count (by decide)
  unfold I2cEvent.count? i2cCounted
  simp only [← hnat, ← BitVec.toNat_inj]
  rfl

theorem i2cCounted_add (size : BitVec 32) (addrSize : BitVec 8) :
    i2cCounted (size + addrSize.setWidth 32).toNat =
      i2cCounted (size.toNat + addrSize.toNat) := by
  have haddr : (addrSize.setWidth 32).toNat = addrSize.toNat :=
    BitVec.toNat_setWidth_of_le (by decide)
  have hmod : (size + addrSize.setWidth 32).toNat % 256 =
      (size.toNat + addrSize.toNat) % 256 := by
    rw [BitVec.toNat_add, haddr]
    omega
  unfold i2cCounted
  rw [hmod]

theorem I2cDid.ctrl (s : I2cState) (dir count : BitVec 32) :
    I2cDid s (s.put (.ctrl (i2cCtrl dir count))) [] [] [i2cCounted count.toNat] True := by
  have hput := @I2cDid.put s (.ctrl (i2cCtrl dir count)) rfl rfl
  rwa [i2cCtrl_count] at hput

/-! ## Calls that succeed -/

section Success

variable (bus : I2cBus) (device : BitVec 16) (addr : Nat) (addrSize : BitVec 8) (buf : Nat)
  (size : BitVec 32) (s : I2cState)

/-- The registers that `i2c_master_write` and `i2c_master_read` write first. -/
theorem I2cDid.start (dir count : BitVec 32) :
    I2cDid s (((s.put (.cmd .clearFifo)).put (.addr (i2cAddr device))).put
      (.ctrl (i2cCtrl dir count))) [] [] [i2cCounted count.toNat] True := by
  have haddr := (I2cDid.cmd s .clearFifo).quiet
    (I2cDid.put (s.put (.cmd .clearFifo)) (e := .addr (i2cAddr device)) rfl rfl)
  have hall := haddr.trans (I2cDid.ctrl _ dir count)
  rwa [and_true] at hall

/-- A call that succeeds has not left where it would fail. -/
theorem not_of_success {c : Prop} [Decidable c] {stat : I2cStat} {t : I2cState}
    {rest : I2cStat × I2cState} (h : (if c then (stat, t) else rest).1 = .success)
    (hstat : stat ≠ .success) : ¬ c := by
  intro hc
  rw [if_pos hc] at h
  exact hstat h

/-- A write that succeeds has pushed the bytes of its buffer. -/
theorem i2cMasterWrite_did (h : (i2cMasterWrite bus device buf size s).1 = .success) :
    I2cDid s (i2cMasterWrite bus device buf size s).2 (s.mem.toList buf size.toNat) []
      [i2cCounted size.toNat] True := by
  have hstart := I2cDid.start device s i2cDirMasterWrite size
  unfold i2cMasterWrite at h ⊢
  dsimp only at h ⊢
  have hmem : (((s.put (.cmd .clearFifo)).put (.addr (i2cAddr device))).put
      (.ctrl (i2cCtrl i2cDirMasterWrite size))).mem = s.mem := rfl
  generalize ((s.put (.cmd .clearFifo)).put (.addr (i2cAddr device))).put
    (.ctrl (i2cCtrl i2cDirMasterWrite size)) = t at h hstart hmem ⊢
  have hlast := not_of_success h nofun
  rw [if_neg hlast] at h ⊢
  have hloop := i2cDataLoop_pushes bus _ _ (i2cMasterWriteByte_did bus) _ _ _ _ hlast
  rw [hmem] at hloop
  have hlast' := not_of_success h nofun
  rw [if_neg hlast'] at h ⊢
  rw [if_neg (not_of_success h nofun)]
  have hwait := hloop.1.quiet (i2cWaitCmpl_did bus 0 _).1
  have htail := ((hwait.quiet (I2cDid.orStatus bus _ i2cStatusCmpl)).quiet
    (I2cDid.inten _ 0)).quiet (I2cDid.cmd _ .reset)
  have hall := hstart.trans htail
  rwa [and_true] at hall

/-- A read that succeeds has popped the bytes that its buffer then has. -/
theorem i2cMasterRead_did (h : (i2cMasterRead bus device buf size s).1 = .success) :
    I2cDid s (i2cMasterRead bus device buf size s).2 []
      ((i2cMasterRead bus device buf size s).2.mem.toList buf size.toNat)
      [i2cCounted size.toNat] True := by
  have hstart := (I2cDid.start device s i2cDirMasterRead size).quiet
    (I2cDid.cmd _ .issueDataTransmission)
  unfold i2cMasterRead at h ⊢
  dsimp only at h ⊢
  generalize (((s.put (.cmd .clearFifo)).put (.addr (i2cAddr device))).put
    (.ctrl (i2cCtrl i2cDirMasterRead size))).put (.cmd .issueDataTransmission) = t
    at h hstart ⊢
  have hlast := not_of_success h nofun
  rw [if_neg hlast] at h ⊢
  have hloop := i2cDataLoop_pops bus _ _ (i2cMasterReadByte_did bus) _ _ _ _ hlast
  have hlast' := not_of_success h nofun
  rw [if_neg hlast'] at h ⊢
  have hhit := not_of_success h nofun
  rw [if_neg hhit] at h ⊢
  rw [if_neg (not_of_success h nofun)]
  have hwait := i2cWaitCmpl_did bus 0 (i2cDataLoop bus i2cStatusFifoempty
    (i2cMasterReadByte bus) size.toNat 0 buf t).2
  have htail := (((hloop.1.quiet hwait.1).quiet (I2cDid.poll bus _)).quiet
    (I2cDid.orStatus bus _ (i2cStatusCmpl ||| i2cStatusAddrhit))).quiet (I2cDid.inten _ 0)
  have hall := hstart.trans htail
  rw [and_true] at hall
  rw [put_mem, orStatus_mem, poll_mem, hwait.2]
  exact hall

/-- The address goes in front of the data and has room if it is not longer than the FIFO; the count
is that of both. -/
theorem i2cMasterAddressWrite_did
    (h : (i2cMasterAddressWrite bus device addr addrSize buf size s).1 = .success) :
    I2cDid s (i2cMasterAddressWrite bus device addr addrSize buf size s).2
      (s.mem.toList addr addrSize.toNat ++ s.mem.toList buf size.toNat) []
      [i2cCounted (size.toNat + addrSize.toNat)] (addrSize.toNat ≤ i2cFifoSize) := by
  have hstart := (I2cDid.cmd s .reset).trans (I2cDid.address addrSize.toNat addr
    (s.put (.cmd .reset)) (.addr (i2cAddr device))
    (.ctrl (i2cCtrl i2cDirMasterWrite (size + addrSize.setWidth 32)))
    (fun _ => rfl) (fun _ => rfl) rfl rfl)
  have hcounts : [I2cEvent.addr (i2cAddr device),
      .ctrl (i2cCtrl i2cDirMasterWrite (size + addrSize.setWidth 32))].filterMap
        I2cEvent.count? = [i2cCounted (size.toNat + addrSize.toNat)] := by
    rw [← i2cCounted_add]
    exact congrArg Option.toList (i2cCtrl_count _ _)
  rw [hcounts, true_and] at hstart
  unfold i2cMasterAddressWrite at h ⊢
  dsimp only at h ⊢
  have hmem := i2cPushAddress_mem addrSize.toNat addr ((((s.put (.cmd .reset)).put
    (.cmd .clearFifo)).put (.addr (i2cAddr device))).put
    (.ctrl (i2cCtrl i2cDirMasterWrite (size + addrSize.setWidth 32))))
  generalize i2cPushAddress addrSize.toNat addr ((((s.put (.cmd .reset)).put
    (.cmd .clearFifo)).put (.addr (i2cAddr device))).put
    (.ctrl (i2cCtrl i2cDirMasterWrite (size + addrSize.setWidth 32)))) = t at h hstart hmem ⊢
  have hlast := not_of_success h nofun
  rw [if_neg hlast] at h ⊢
  have hloop := i2cDataLoop_pushes bus _ _ (push_did bus) _ _ _ _ hlast
  rw [put_mem, hmem] at hloop
  rw [if_neg (not_of_success h nofun)]
  have hwait := hloop.1.quiet (i2cWaitCmpl_did bus 0 _).1
  have htail := (hwait.quiet (I2cDid.orStatus bus _ i2cStatusCmpl)).quiet (I2cDid.cmd _ .reset)
  have hall := (hstart.quiet (I2cDid.cmd _ .issueDataTransmission)).trans htail
  rwa [and_true] at hall

/-- The address is written first, with a count of its own, and then the data is read. -/
theorem i2cMasterAddressRead_did
    (h : (i2cMasterAddressRead bus device addr addrSize buf size s).1 = .success) :
    I2cDid s (i2cMasterAddressRead bus device addr addrSize buf size s).2
      (s.mem.toList addr addrSize.toNat)
      ((i2cMasterAddressRead bus device addr addrSize buf size s).2.mem.toList buf size.toNat)
      [i2cCounted addrSize.toNat, i2cCounted size.toNat] (addrSize.toNat ≤ i2cFifoSize) := by
  have hstart := (I2cDid.cmd s .reset).trans (I2cDid.address addrSize.toNat addr
    (s.put (.cmd .reset)) (.ctrl (i2cCtrl i2cDirMasterWrite (addrSize.setWidth 32)))
    (.addr (i2cAddr device)) (fun _ => rfl) (fun _ => rfl) rfl rfl)
  have hcounts : [I2cEvent.ctrl (i2cCtrl i2cDirMasterWrite (addrSize.setWidth 32)),
      .addr (i2cAddr device)].filterMap I2cEvent.count? = [i2cCounted addrSize.toNat] := by
    have haddr : (addrSize.setWidth 32).toNat = addrSize.toNat :=
      BitVec.toNat_setWidth_of_le (by decide)
    rw [← haddr]
    exact congrArg Option.toList (i2cCtrl_count _ _)
  rw [hcounts, true_and] at hstart
  unfold i2cMasterAddressRead at h ⊢
  dsimp only at h ⊢
  generalize i2cPushAddress addrSize.toNat addr ((((s.put (.cmd .reset)).put
    (.cmd .clearFifo)).put (.ctrl (i2cCtrl i2cDirMasterWrite (addrSize.setWidth 32)))).put
    (.addr (i2cAddr device))) = t at h hstart ⊢
  have hissued := hstart.quiet (I2cDid.cmd _ .issueDataTransmission)
  have hlast := not_of_success h nofun
  rw [if_neg hlast] at h ⊢
  have hwait := hissued.quiet (i2cWaitCmpl_did bus 0 _).1
  generalize (i2cWaitCmpl bus 0 (t.put (.cmd .issueDataTransmission))).2 = u at h hwait ⊢
  have hnext := ((I2cDid.cmd u .clearFifo).trans (I2cDid.ctrl _ i2cDirMasterRead size)).trans
    (I2cDid.cmd _ .issueDataTransmission)
  have hlast' := not_of_success h nofun
  rw [if_neg hlast'] at h ⊢
  have hloop := i2cDataLoop_pops bus _ _ (pop_did bus) _ _ _ _ hlast'
  rw [if_neg (not_of_success h nofun)]
  have hwait' := i2cWaitCmpl_did bus 0 (i2cDataLoop bus i2cStatusFifoempty
    (fun buf _ => I2cState.pop bus buf) size.toNat 0 buf (((u.put (.cmd .clearFifo)).put
    (.ctrl (i2cCtrl i2cDirMasterRead size))).put (.cmd .issueDataTransmission))).2
  have htail := (hloop.1.quiet hwait'.1).quiet (I2cDid.orStatus bus _ i2cStatusCmpl)
  have hall := (hwait.trans hnext).trans htail
  simp only [and_true, List.nil_append, List.append_nil, put_mem] at hall
  rw [orStatus_mem, hwait'.2]
  exact hall

/-- A slave's read that succeeds has popped the bytes that its buffer then has. -/
theorem i2cSlaveRead_did (h : (i2cSlaveRead bus buf size s).1 = .success) :
    I2cDid s (i2cSlaveRead bus buf size s).2 []
      ((i2cSlaveRead bus buf size s).2.mem.toList buf size.toNat) [] True := by
  unfold i2cSlaveRead at h ⊢
  dsimp only at h ⊢
  have hlast := not_of_success h nofun
  rw [if_neg hlast]
  exact (i2cDataLoop_pops bus _ _ (pop_did bus) _ _ _ _ hlast).1

end Success

/-! ## `i2c_slave_write` -/

section SlaveWrite

variable (bus : I2cBus) (b : UInt8)

/-- The loop ends with a counter that is not above the limit, so the test behind it never sees a
timeout. -/
theorem i2cSlaveWriteLoop_retry (retry : Nat) (s : I2cState) (h : retry ≤ i2cRetryCount) :
    (i2cSlaveWriteLoop bus b retry s).1 ≤ i2cRetryCount := by
  fun_induction i2cSlaveWriteLoop bus b retry s with
  | case1 => exact h
  | case2 => exact h
  | case3 retry s hlt _ _ ih => exact ih hlt
  | case4 => exact h

theorem i2cSlaveWriteLoop_polls (retry : Nat) (s : I2cState) :
    (i2cSlaveWriteLoop bus b retry s).2.polls ≤ s.polls + (i2cRetryCount - retry) := by
  fun_induction i2cSlaveWriteLoop bus b retry s with
  | case1 =>
    rw [put_polls, poll_polls]
    omega
  | case2 =>
    rw [poll_polls]
    omega
  | case3 retry s hlt _ _ ih =>
    rw [poll_polls] at ih
    omega
  | case4 => exact Nat.le_add_right _ _

/-- The byte is pushed where one of the reads that are left finds room. -/
theorem i2cSlaveWriteLoop_pushes (retry : Nat) (s : I2cState)
    (h : ∃ i < i2cRetryCount - retry, bus.status (s.polls + i) &&& i2cStatusFifofull = 0) :
    I2cDid s (i2cSlaveWriteLoop bus b retry s).2 [b] [] [] True := by
  fun_induction i2cSlaveWriteLoop bus b retry s with
  | case1 retry s _ hroom => exact I2cDid.pollPush bus s hroom b
  | case2 retry s hlt _ hover => exact absurd hlt (Nat.lt_asymm hover)
  | case3 retry s hlt hfull _ ih =>
    obtain ⟨i, hi, hroom⟩ := h
    cases i with
    | zero => exact absurd hroom hfull
    | succ i =>
      refine (ih ⟨i, by omega, ?_⟩).after (I2cDid.poll bus s)
      rw [poll_polls, Nat.add_assoc, Nat.add_comm 1 i]
      exact hroom
  | case4 retry s hge =>
    obtain ⟨i, hi, -⟩ := h
    omega

/-- Nothing is pushed where none of them does. -/
theorem i2cSlaveWriteLoop_gives_up (retry : Nat) (s : I2cState)
    (h : ¬ ∃ i < i2cRetryCount - retry, bus.status (s.polls + i) &&& i2cStatusFifofull = 0) :
    I2cDid s (i2cSlaveWriteLoop bus b retry s).2 [] [] [] True := by
  fun_induction i2cSlaveWriteLoop bus b retry s with
  | case1 retry s hlt hroom => exact absurd ⟨0, Nat.sub_pos_of_lt hlt, hroom⟩ h
  | case2 retry s => exact I2cDid.poll bus s
  | case3 retry s hlt _ _ ih =>
    refine (I2cDid.poll bus s).quiet (ih ?_)
    rintro ⟨i, hi, hroom⟩
    refine h ⟨i + 1, by omega, ?_⟩
    rw [poll_polls, Nat.add_assoc, Nat.add_comm 1 i] at hroom
    exact hroom
  | case4 retry s => exact I2cDid.refl s

end SlaveWrite

/-! ## The number of polls -/

section Polls

variable (bus : I2cBus) (s : I2cState)

/-- A data loop and the wait behind it. -/
theorem i2cDataLoop_wait_polls (busy : BitVec 32) (move : Nat → Nat → I2cState → I2cState)
    (hmove : ∀ buf left s, (move buf left s).polls = s.polls) (left buf : Nat) :
    (i2cDataLoop bus busy move left 0 buf s).2.polls ≤ s.polls + (i2cRetryCount + 2) * left ∧
      (i2cWaitCmpl bus 0 (i2cDataLoop bus busy move left 0 buf s).2).2.polls ≤
        s.polls + (i2cRetryCount + 2) * left + (i2cRetryCount + 2) := by
  have hloop := i2cDataLoop_polls bus busy move hmove left 0 buf s (Nat.zero_le _)
  have hwait := i2cWaitCmpl_polls bus 0 (i2cDataLoop bus busy move left 0 buf s).2 (Nat.zero_le _)
  exact ⟨hloop, by omega⟩

/-- Every call ends within its bound. -/
theorem i2cCall_polls (call : I2cCall) :
    (call.run bus s).2.polls ≤ s.polls + i2cPollBound call.size := by
  cases call with
  | masterWrite device buf size =>
    obtain ⟨hloop, hwait⟩ := i2cDataLoop_wait_polls bus (((s.put (.cmd .clearFifo)).put
      (.addr (i2cAddr device))).put (.ctrl (i2cCtrl i2cDirMasterWrite size))) i2cStatusFifofull
      i2cMasterWriteByte (fun _ _ _ => rfl) size.toNat buf
    simp only [put_polls] at hloop hwait
    simp only [I2cCall.run, I2cCall.size, i2cMasterWrite, i2cPollBound, Nat.mul_add]
    repeat' split
    all_goals simp only [put_polls, orStatus_polls]
    all_goals omega
  | masterRead device buf size =>
    obtain ⟨hloop, hwait⟩ := i2cDataLoop_wait_polls bus ((((s.put (.cmd .clearFifo)).put
      (.addr (i2cAddr device))).put (.ctrl (i2cCtrl i2cDirMasterRead size))).put
      (.cmd .issueDataTransmission)) i2cStatusFifoempty (i2cMasterReadByte bus)
      (i2cMasterReadByte_polls bus) size.toNat buf
    simp only [put_polls] at hloop hwait
    simp only [I2cCall.run, I2cCall.size, i2cMasterRead, i2cPollBound, Nat.mul_add]
    repeat' split
    all_goals simp only [put_polls, orStatus_polls, poll_polls]
    all_goals omega
  | masterAddressWrite device addr addrSize buf size =>
    obtain ⟨hloop, hwait⟩ := i2cDataLoop_wait_polls bus ((i2cPushAddress addrSize.toNat addr
      ((((s.put (.cmd .reset)).put (.cmd .clearFifo)).put (.addr (i2cAddr device))).put
      (.ctrl (i2cCtrl i2cDirMasterWrite (size + addrSize.setWidth 32))))).put
      (.cmd .issueDataTransmission)) i2cStatusFifofull (fun buf _ => I2cState.push buf)
      (fun _ _ _ => rfl) size.toNat buf
    simp only [put_polls, i2cPushAddress_polls] at hloop hwait
    simp only [I2cCall.run, I2cCall.size, i2cMasterAddressWrite, i2cPollBound, Nat.mul_add]
    repeat' split
    all_goals simp only [put_polls, orStatus_polls]
    all_goals omega
  | masterAddressRead device addr addrSize buf size =>
    have hfirst := i2cWaitCmpl_polls bus 0 ((i2cPushAddress addrSize.toNat addr
      ((((s.put (.cmd .reset)).put (.cmd .clearFifo)).put
      (.ctrl (i2cCtrl i2cDirMasterWrite (addrSize.setWidth 32)))).put
      (.addr (i2cAddr device)))).put (.cmd .issueDataTransmission)) (Nat.zero_le _)
    simp only [put_polls, i2cPushAddress_polls] at hfirst
    simp only [I2cCall.run, I2cCall.size, i2cMasterAddressRead, i2cPollBound, Nat.mul_add]
    generalize i2cWaitCmpl bus 0 ((i2cPushAddress addrSize.toNat addr _).put _) = w at hfirst ⊢
    obtain ⟨hloop, hwait⟩ := i2cDataLoop_wait_polls bus (((w.2.put (.cmd .clearFifo)).put
      (.ctrl (i2cCtrl i2cDirMasterRead size))).put (.cmd .issueDataTransmission))
      i2cStatusFifoempty (fun buf _ => I2cState.pop bus buf) (fun _ _ _ => rfl) size.toNat buf
    simp only [put_polls] at hloop hwait
    repeat' split
    all_goals simp only [orStatus_polls]
    all_goals omega
  | slaveWrite b =>
    have hloop := i2cSlaveWriteLoop_polls bus b 0 s
    simp only [I2cCall.run, I2cCall.size, i2cSlaveWrite, i2cPollBound]
    repeat' split
    all_goals dsimp only
    all_goals omega
  | slaveRead buf size =>
    have hloop := (i2cDataLoop_wait_polls bus s i2cStatusFifoempty
      (fun buf _ => I2cState.pop bus buf) (fun _ _ _ => rfl) size.toNat buf).1
    simp only [I2cCall.run, I2cCall.size, i2cSlaveRead, i2cPollBound, Nat.mul_add]
    repeat' split
    all_goals dsimp only
    all_goals omega

end Polls

/-! ## A bus that is always ready -/

/-- Completed, addressed, and the FIFO neither full nor empty. -/
def i2cReadyBus : I2cBus := ⟨fun _ => 0x208, fun _ => 0, 0⟩

/-- On a bus that is always ready the wait succeeds. -/
theorem i2cReadyBus_wait (s : I2cState) :
    ¬ i2cRetryCount < (i2cWaitCmpl i2cReadyBus 0 s).1 := by
  have hcmpl : i2cReadyBus.status s.polls &&& i2cStatusCmpl ≠ 0 :=
    show 0x208#32 &&& i2cStatusCmpl ≠ 0 by decide
  rw [i2cWaitCmpl_ready i2cReadyBus hcmpl]
  exact Nat.not_lt_zero _

/-- On a bus that is always ready every loop over data succeeds. -/
theorem i2cReadyBus_loop {busy : BitVec 32} (hready : 0x208#32 &&& busy = 0)
    (move : Nat → Nat → I2cState → I2cState) (left buf : Nat) (s : I2cState) :
    ¬ i2cRetryCount < (i2cDataLoop i2cReadyBus busy move left 0 buf s).1 := by
  rw [i2cDataLoop_ready i2cReadyBus busy move fun _ => hready]
  exact Nat.not_lt_zero _

/-- The calls that pass the bytes of a buffer succeed on it. -/
theorem i2cReadyBus_success {call : I2cCall} (hother : ∀ b, call ≠ .slaveWrite b)
    (s : I2cState) : (call.run i2cReadyBus s).1 = .success := by
  have hfull : 0x208#32 &&& i2cStatusFifofull = 0 := by decide
  have hempty : 0x208#32 &&& i2cStatusFifoempty = 0 := by decide
  have hhit : ∀ n, ¬ i2cReadyBus.status n &&& i2cStatusAddrhit = 0 := fun _ =>
    show ¬ 0x208#32 &&& i2cStatusAddrhit = 0 by decide
  have hcount : ¬ i2cGetDataCount i2cReadyBus ≠ 0 := by decide
  cases call with
  | masterWrite device buf size =>
    simp only [I2cCall.run, i2cMasterWrite, if_neg (i2cReadyBus_loop hfull _ _ _ _),
      if_neg (i2cReadyBus_wait _), if_neg hcount]
  | masterRead device buf size =>
    simp only [I2cCall.run, i2cMasterRead, if_neg (i2cReadyBus_loop hempty _ _ _ _),
      if_neg (i2cReadyBus_wait _), if_neg (hhit _), if_neg hcount]
  | masterAddressWrite device addr addrSize buf size =>
    simp only [I2cCall.run, i2cMasterAddressWrite, if_neg (i2cReadyBus_loop hfull _ _ _ _),
      if_neg (i2cReadyBus_wait _)]
  | masterAddressRead device addr addrSize buf size =>
    simp only [I2cCall.run, i2cMasterAddressRead, if_neg (i2cReadyBus_loop hempty _ _ _ _),
      if_neg (i2cReadyBus_wait _)]
  | slaveWrite b => exact absurd rfl (hother b)
  | slaveRead buf size =>
    simp only [I2cCall.run, i2cSlaveRead, if_neg (i2cReadyBus_loop hempty _ _ _ _)]

/-! ## The contract -/

namespace I2cCall

/-- The counts that a call programs. -/
def programmed : I2cCall → List Nat
  | masterWrite _ _ size | masterRead _ _ size => [i2cCounted size.toNat]
  | masterAddressWrite _ _ addrSize _ size => [i2cCounted (size.toNat + addrSize.toNat)]
  | masterAddressRead _ _ addrSize _ size =>
    [i2cCounted addrSize.toNat, i2cCounted size.toNat]
  | slaveWrite _ | slaveRead _ _ => []

/-- The address bytes fit into the FIFO. -/
def AddressFits : I2cCall → Prop
  | masterAddressWrite _ _ addrSize _ _ | masterAddressRead _ _ addrSize _ _ =>
    addrSize.toNat ≤ i2cFifoSize
  | masterWrite _ _ _ | masterRead _ _ _ | slaveWrite _ | slaveRead _ _ => True

/-- Whether a call fits, without the one that writes as a slave, is whether its counts are
programmed and its address has room. -/
theorem fits_iff {call : I2cCall} (hsize : 1 ≤ call.size) (hother : ∀ b, call ≠ .slaveWrite b) :
    call.Fits ↔ call.programmed = call.counts ∧ call.AddressFits := by
  cases call with
  | slaveWrite b => exact absurd rfl (hother b)
  | slaveRead buf size => simp [Fits, programmed, counts, AddressFits]
  | _ =>
    simp only [size, Fits, programmed, counts, AddressFits, List.cons.injEq, and_true,
      i2cCounted_eq_iff] at hsize ⊢
    omega

end I2cCall

/-- What a call that succeeds has done. -/
theorem i2cCall_did (bus : I2cBus) (s : I2cState) {call : I2cCall}
    (hother : ∀ b, call ≠ .slaveWrite b) (h : (call.run bus s).1 = .success) :
    I2cDid s (call.run bus s).2 (call.toPush s.mem) (call.toPop (call.run bus s).2.mem)
      call.programmed call.AddressFits := by
  cases call with
  | masterWrite device buf size => exact i2cMasterWrite_did bus device buf size s h
  | masterRead device buf size => exact i2cMasterRead_did bus device buf size s h
  | masterAddressWrite device addr addrSize buf size =>
    exact i2cMasterAddressWrite_did bus device addr addrSize buf size s h
  | masterAddressRead device addr addrSize buf size =>
    exact i2cMasterAddressRead_did bus device addr addrSize buf size s h
  | slaveWrite b => exact absurd rfl (hother b)
  | slaveRead buf size => exact i2cSlaveRead_did bus buf size s h

/-- The transfers of the master, and the read of the slave: right on every bus if and only if they
fit. -/
theorem i2cMeets_of_fits {call : I2cCall} (hsize : 1 ≤ call.size)
    (hother : ∀ b, call ≠ .slaveWrite b) :
    (∀ bus mem, I2cMeets bus mem call) ↔ call.Fits := by
  rw [I2cCall.fits_iff hsize hother]
  refine ⟨fun h => ?_, fun hfits bus mem => ⟨?_, fun hsucc => ?_⟩⟩
  · have hsucc := i2cReadyBus_success hother ⟨fun _ => 0, [], 0, 0⟩
    exact ((i2cCall_did _ _ hother hsucc).delivered_iff rfl rfl).mp ((h _ _).2 hsucc)
  · have hpolls := i2cCall_polls bus ⟨mem, [], 0, 0⟩ call
    rwa [Nat.zero_add] at hpolls
  · exact ((i2cCall_did _ _ hother hsucc).delivered_iff rfl rfl).mpr hfits

/-- The write of the slave: right if and only if the FIFO drains within the limit. -/
theorem i2cMeets_slaveWrite (bus : I2cBus) (mem : Buf) (b : UInt8) :
    I2cMeets bus mem (.slaveWrite b) ↔ bus.Drains := by
  have hpolls := i2cCall_polls bus ⟨mem, [], 0, 0⟩ (.slaveWrite b)
  have hretry := i2cSlaveWriteLoop_retry bus b 0 ⟨mem, [], 0, 0⟩ (Nat.zero_le _)
  have hrun : (I2cCall.slaveWrite b).run bus ⟨mem, [], 0, 0⟩ =
      (.success, (i2cSlaveWriteLoop bus b 0 ⟨mem, [], 0, 0⟩).2) :=
    if_neg (Nat.not_lt.mpr hretry)
  have hdrains : bus.Drains ↔
      ∃ i < i2cRetryCount - 0, bus.status (0 + i) &&& i2cStatusFifofull = 0 := by
    simp only [I2cBus.Drains, Nat.sub_zero, Nat.zero_add]
  rw [Nat.zero_add, hrun] at hpolls
  unfold I2cMeets
  rw [hrun, hdrains]
  refine ⟨fun h => ?_, fun h => ⟨hpolls, fun _ => ?_⟩⟩
  · by_contra hnone
    have hdid := i2cSlaveWriteLoop_gives_up bus b 0 ⟨mem, [], 0, 0⟩ hnone
    obtain ⟨es, hlog, hpushed, -⟩ := hdid.events
    have hbyte := (h.2 rfl).pushed
    rw [hlog, List.nil_append, hpushed] at hbyte
    exact nomatch hbyte
  · have hdid := i2cSlaveWriteLoop_pushes bus b 0 ⟨mem, [], 0, 0⟩ h
    exact (hdid.delivered_iff rfl rfl).mpr ⟨rfl, trivial⟩

/-- A transfer meets its contract on every bus exactly where the byte counts are within `DATACNT`
and the address bytes within the FIFO; `i2c_slave_write` meets it exactly on the buses that find
room in the FIFO before the retries are used up.

The loops move byte after byte and stop at a timeout or when all are moved, so a call that returns
success has moved what it announced.  What it announced is the count cut to its field, and the
address bytes are pushed without a look at the FIFO.  The loop of `i2c_slave_write` ends at the
number of retries and the test behind it asks for more, so a bus without room makes it report a
success. -/
theorem i2cMeets_iff (call : I2cCall) (hsize : 1 ≤ call.size) :
    ((∀ b, call ≠ .slaveWrite b) → ((∀ bus mem, I2cMeets bus mem call) ↔ call.Fits)) ∧
    (∀ b, call = .slaveWrite b → ∀ bus mem, I2cMeets bus mem call ↔ bus.Drains) := by
  refine ⟨i2cMeets_of_fits hsize, ?_⟩
  intro b hcall bus mem
  rw [hcall]
  exact i2cMeets_slaveWrite bus mem b

/-- A write of 256 bytes, and one byte of a slave at a FIFO that has room at the fourth read. -/
theorem i2cMeets_whole_count :
    (∀ bus mem, I2cMeets bus mem (.masterWrite 0x50 0 256)) ∧
    I2cMeets ⟨fun n => if n < 3 then i2cStatusFifofull else 0, fun _ => 0, 0⟩ (fun _ => 0)
      (.slaveWrite 7) :=
  ⟨((i2cMeets_iff (.masterWrite 0x50 0 256) (by decide)).1 nofun).mpr
      (show (256#32).toNat ≤ 256 by decide),
    ((i2cMeets_iff (.slaveWrite 7) (by decide)).2 7 rfl _ _).mpr ⟨3, by decide, by decide⟩⟩

/-- A slave that finds the FIFO full at every read of `STATUS` reports success, with no byte
pushed. -/
theorem i2cSlaveWrite_full :
    ((I2cCall.slaveWrite 7).run ⟨fun _ => i2cStatusFifofull, fun _ => 0, 0⟩
      ⟨fun _ => 0, [], 0, 0⟩).1 = .success ∧
    ¬ I2cMeets ⟨fun _ => i2cStatusFifofull, fun _ => 0, 0⟩ (fun _ => 0) (.slaveWrite 7) := by
  refine ⟨?_, fun h => ?_⟩
  · exact congrArg Prod.fst (if_neg (Nat.not_lt.mpr
      (i2cSlaveWriteLoop_retry _ 7 0 ⟨fun _ => 0, [], 0, 0⟩ (Nat.zero_le _))))
  · obtain ⟨i, -, hroom⟩ := (i2cMeets_slaveWrite _ _ _).mp h
    exact absurd hroom (show ¬ i2cStatusFifofull &&& i2cStatusFifofull = 0 by decide)

end HpmSdk.I2c
