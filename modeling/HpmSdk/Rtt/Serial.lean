import HpmSdk.Foundation.RingQueue
import HpmSdk.Foundation.Run
import HpmSdk.Uart.Getc

set_option autoImplicit false

/-!
# Receiving in interrupt mode (`rt-thread/components/drivers/serial/serial.c`)

The interrupt handler moves bytes from the UART to a ring in memory, and a thread reads them from
there.  Either takes one byte at a time with interrupts disabled, so that any interleaving of the
two is a sequence of such steps.

`SerialInv` ties the ring to the bytes that wait (`RxQueue`).  What is lost is lost at the full
ring, and always the oldest byte, so what waits is the last of what was moved.
-/

namespace HpmSdk.Rtt

open Foundation Foundation.RingQueue HpmSdk.Uart

/-- `struct rt_serial_rx_fifo`, with `config.bufsz`. -/
structure RtSerialRxFifo where
  buffer : Nat → BitVec 8
  putIndex : Nat
  getIndex : Nat
  isFull : Bool
  bufsz : Nat

/-- An index is raised, back to 0 at the end of the buffer. -/
def nextIndex (bufsz index : Nat) : Nat := if bufsz ≤ index + 1 then 0 else index + 1

/-- `rt_serial_open` for `RT_DEVICE_FLAG_INT_RX`: an empty ring in a buffer of `bufsz` bytes. -/
def openRxFifo (buffer : Nat → BitVec 8) (bufsz : Nat) : RtSerialRxFifo :=
  { buffer, putIndex := 0, getIndex := 0, isFull := false, bufsz }

/-- What `rt_hw_serial_isr` does with a character, and whether it warns that the buffer is too
small. -/
def isrPut (rx : RtSerialRxFifo) (ch : BitVec 32) : Bool × RtSerialRxFifo :=
  let buffer := Ring.set rx.buffer rx.putIndex (ch.setWidth 8)
  let putIndex := nextIndex rx.bufsz rx.putIndex
  if putIndex = rx.getIndex then
    (true, { rx with buffer, putIndex, getIndex := nextIndex rx.bufsz rx.getIndex, isFull := true })
  else (false, { rx with buffer, putIndex })

/-- The length that `rt_hw_serial_isr` hands to `rx_indicate`. -/
def rxLength (rx : RtSerialRxFifo) : Nat :=
  if rx.getIndex ≤ rx.putIndex then rx.putIndex - rx.getIndex
  else rx.bufsz - (rx.getIndex - rx.putIndex)

/-- One pass of the loop of `_serial_int_rx`. -/
def serialIntRxOne (rx : RtSerialRxFifo) : Option (BitVec 8) × RtSerialRxFifo :=
  if rx.getIndex = rx.putIndex ∧ rx.isFull = false then (none, rx)
  else
    (some (rx.buffer rx.getIndex),
      { rx with getIndex := nextIndex rx.bufsz rx.getIndex, isFull := false })

/-! ## The ring as a queue -/

/-- The bytes that wait in the ring; it never holds more than `bufsz - 1` of them. -/
structure RxQueue (rx : RtSerialRxFifo) (q : List (BitVec 8)) : Prop where
  size : 2 ≤ rx.bufsz
  get : rx.getIndex < rx.bufsz
  len : q.length < rx.bufsz
  put : rx.putIndex = (rx.getIndex + q.length) % rx.bufsz
  full : rx.isFull = true → q ≠ []
  list : ringList rx.bufsz rx.buffer rx.getIndex q.length = q

section Queue

variable {rx : RtSerialRxFifo} {q : List (BitVec 8)}

/-- The index goes around at the end of the buffer. -/
theorem nextIndex_eq {N i : Nat} (h : i < N) : nextIndex N i = (i + 1) % N := by
  unfold nextIndex
  split
  · rw [show i + 1 = N by omega, Nat.mod_self]
  · rw [Nat.mod_eq_of_lt (by omega)]

theorem RxQueue.put_lt (h : RxQueue rx q) : rx.putIndex < rx.bufsz := by
  rw [h.put]
  exact Nat.mod_lt _ (Nat.lt_of_lt_of_le Nat.two_pos h.size)

/-- The put index, one further, is behind the queue and the new byte. -/
theorem RxQueue.next_put (h : RxQueue rx q) :
    nextIndex rx.bufsz rx.putIndex = (rx.getIndex + (q.length + 1)) % rx.bufsz := by
  rw [nextIndex_eq h.put_lt, h.put, Nat.mod_add_mod, Nat.add_assoc]

/-- The ring is one byte short of its size where the next place is the one to read. -/
theorem RxQueue.next_eq_get_iff (h : RxQueue rx q) :
    nextIndex rx.bufsz rx.putIndex = rx.getIndex ↔ q.length + 1 = rx.bufsz := by
  have hlen := h.len
  have hget := h.get
  rw [h.next_put]
  constructor
  · intro heq
    by_contra hne
    have hmod : (rx.getIndex + (q.length + 1)) % rx.bufsz = (rx.getIndex + 0) % rx.bufsz := by
      rw [heq, Nat.add_zero, Nat.mod_eq_of_lt hget]
    exact Ring.slot_ne (Nat.le_add_right _ _) (by omega) (Nat.le_add_right _ _) (by omega)
      (by omega) hmod
  · intro heq
    rw [heq, Nat.add_mod_right, Nat.mod_eq_of_lt hget]

/-- The ring with one byte more. -/
theorem RxQueue.pushed (h : RxQueue rx q) (x : BitVec 8) :
    ringList rx.bufsz (Ring.set rx.buffer rx.putIndex x) rx.getIndex (q.length + 1) = q ++ [x] := by
  rw [h.put, ringList_push h.len, h.list]

/-- A byte is added; where there is no place left for it the oldest one goes. -/
theorem isrPut_spec (h : RxQueue rx q) (ch : BitVec 32) :
    (isrPut rx ch).2.bufsz = rx.bufsz ∧
      if q.length + 1 = rx.bufsz then
        (isrPut rx ch).1 = true ∧ RxQueue (isrPut rx ch).2 (q.tail ++ [ch.setWidth 8])
      else (isrPut rx ch).1 = false ∧ RxQueue (isrPut rx ch).2 (q ++ [ch.setWidth 8]) := by
  have hsize := h.size
  have hlen := h.len
  unfold isrPut
  dsimp only
  by_cases hfull : q.length + 1 = rx.bufsz
  · rw [if_pos (h.next_eq_get_iff.mpr hfull), if_pos hfull]
    have hpush := h.pushed (ch.setWidth 8)
    obtain ⟨b, q, rfl⟩ : ∃ b q', q = b :: q' :=
      List.exists_cons_of_length_pos (by omega)
    refine ⟨rfl, rfl, hsize, ?_, ?_, ?_, fun _ => by simp, ?_⟩
    · dsimp only
      rw [nextIndex_eq h.get]
      exact Nat.mod_lt _ (by omega)
    · simpa using hlen
    · dsimp only
      rw [nextIndex_eq h.get, h.next_put, Nat.mod_add_mod]
      simp only [List.tail_cons, List.length_append, List.length_cons, List.length_nil]
      congr 1
      omega
    · rw [ringList_cons] at hpush
      dsimp only
      rw [nextIndex_eq h.get, ringList_mod, List.tail_cons, List.length_append,
        List.length_singleton]
      exact (List.cons.inj hpush).2
  · rw [if_neg (mt h.next_eq_get_iff.mp hfull), if_neg hfull]
    refine ⟨rfl, rfl, hsize, h.get, ?_, ?_, fun _ => by simp, ?_⟩
    · rw [List.length_append, List.length_singleton]
      dsimp only
      omega
    · rw [List.length_append, List.length_singleton]
      exact h.next_put
    · rw [List.length_append, List.length_singleton]
      exact h.pushed _

/-- The indices agree exactly where the queue is empty, as it never fills the whole buffer. -/
theorem RxQueue.put_eq_get_iff (h : RxQueue rx q) : rx.getIndex = rx.putIndex ↔ q = [] := by
  have hlen := h.len
  have hget := h.get
  rw [h.put]
  constructor
  · intro heq
    by_contra hne
    have hpos := List.length_pos_iff.mpr hne
    have hmod : (rx.getIndex + 0) % rx.bufsz = (rx.getIndex + q.length) % rx.bufsz := by
      rw [Nat.add_zero, Nat.mod_eq_of_lt hget]
      exact heq
    exact Ring.slot_ne (Nat.le_add_right _ _) (by omega) (Nat.le_add_right _ _) (by omega)
      (by omega) hmod
  · rintro rfl
    rw [List.length_nil, Nat.add_zero, Nat.mod_eq_of_lt hget]

/-- A read takes the oldest byte. -/
theorem serialIntRxOne_spec (h : RxQueue rx q) :
    (serialIntRxOne rx).1 = q.head? ∧ RxQueue (serialIntRxOne rx).2 q.tail ∧
      (serialIntRxOne rx).2.bufsz = rx.bufsz := by
  unfold serialIntRxOne
  cases q with
  | nil =>
    have hfull : rx.isFull = false := by
      cases hf : rx.isFull with
      | false => rfl
      | true => exact absurd rfl (h.full hf)
    rw [if_pos ⟨h.put_eq_get_iff.mpr rfl, hfull⟩]
    exact ⟨rfl, h, rfl⟩
  | cons b q =>
    have hlist := h.list
    have hlen := h.len
    rw [List.length_cons] at hlist hlen
    rw [ringList_cons, Nat.mod_eq_of_lt h.get] at hlist
    obtain ⟨hb, hq⟩ := List.cons.inj hlist
    rw [if_neg (fun hc => List.cons_ne_nil b q (h.put_eq_get_iff.mp hc.1))]
    refine ⟨congrArg some hb, ⟨h.size, ?_, ?_, ?_, (absurd · Bool.false_ne_true), ?_⟩, rfl⟩
    · dsimp only
      rw [nextIndex_eq h.get]
      exact Nat.mod_lt _ (by omega)
    · dsimp only [List.tail_cons]
      omega
    · dsimp only [List.tail_cons]
      rw [nextIndex_eq h.get, Nat.mod_add_mod, h.put, List.length_cons]
      congr 1
      omega
    · dsimp only [List.tail_cons]
      rw [nextIndex_eq h.get, ringList_mod]
      exact hq

/-- `rx_indicate` is told the number of bytes that wait. -/
theorem rxLength_eq (h : RxQueue rx q) : rxLength rx = q.length := by
  have hput := h.put
  have hget := h.get
  have hlen := h.len
  unfold rxLength
  rcases Nat.lt_or_ge (rx.getIndex + q.length) rx.bufsz with hlt | hge
  · rw [Nat.mod_eq_of_lt hlt] at hput
    rw [if_pos (by omega)]
    omega
  · rw [Nat.mod_eq_sub_mod hge, Nat.mod_eq_of_lt (by omega)] at hput
    rw [if_neg (by omega)]
    omega

/-- Opening the device sets up an empty queue. -/
theorem openRxFifo_queue (buffer : Nat → BitVec 8) {bufsz : Nat} (h : 2 ≤ bufsz) :
    RxQueue (openRxFifo buffer bufsz) [] :=
  ⟨h, Nat.lt_of_lt_of_le Nat.two_pos h, Nat.lt_of_lt_of_le Nat.two_pos h, (Nat.zero_mod _).symm,
    (absurd · Bool.false_ne_true), rfl⟩

end Queue

/-! ## Runs -/

/-- The UART, the ring, and what happened: the bytes that were read, and the number of times that
a byte was given up. -/
structure SerialSystem where
  uart : UartRx
  fifo : RtSerialRxFifo
  delivered : List (BitVec 8)
  overwritten : Nat

/-- One pass of the loop in the interrupt handler, or of the one in the reading thread. -/
inductive SerialAct where
  | isr
  | read
  deriving DecidableEq

/-- One step; bytes arrive at the UART while it goes on. -/
def serialStep (arrivals : Nat → List (BitVec 8)) (s : SerialSystem) : SerialAct → SerialSystem
  | .isr =>
    let (ch, uart) := hpmUartGetc arrivals s.uart
    if ch.toInt = -1 then { s with uart }
    else
      let (full, fifo) := isrPut s.fifo ch
      { s with uart, fifo, overwritten := s.overwritten + full.toNat }
  | .read =>
    let (ch, fifo) := serialIntRxOne s.fifo
    { s with fifo, delivered := s.delivered ++ ch.toList }

/-- Any order of the two. -/
def serialRun (arrivals : Nat → List (BitVec 8)) (s : SerialSystem) (acts : List SerialAct) :
    SerialSystem :=
  acts.foldl (serialStep arrivals) s

/-- `rt_serial_open`, with nothing received. -/
def serialStart (buffer : Nat → BitVec 8) (bufsz : Nat) : SerialSystem :=
  ⟨⟨[], [], 0⟩, openRxFifo buffer bufsz, [], 0⟩

/-- `_serial_int_rx`, where the handler makes `passes length` passes in front of the test that is
made with `length` bytes to go. -/
def serialIntRx (arrivals : Nat → List (BitVec 8)) (passes : Nat → Nat) :
    Nat → SerialSystem → List (BitVec 8) × SerialSystem
  | 0, s => ([], s)
  | length + 1, s =>
    let s := serialRun arrivals s (List.replicate (passes (length + 1)) .isr)
    let next := serialStep arrivals s .read
    match (serialIntRxOne s.fifo).1 with
    | none => ([], next)
    | some ch =>
      let (data, next) := serialIntRx arrivals passes length next
      (ch :: data, next)

/-- The bytes that the handler does not take for the end of the FIFO. -/
def passed (bytes : List (BitVec 8)) : List (BitVec 8) := bytes.filter fun b => b ≠ 0xFF

/-- What is known of the bytes: the handler moves the ones that pass, in order; the ones not read
yet are the last that it moved; and only as many are missing as were given up. -/
structure SerialInv (bufsz : Nat) (s : SerialSystem) : Prop where
  queue : ∃ q moved, RxQueue s.fifo q ∧ q <:+ moved ∧ (s.delivered ++ q).Sublist moved ∧
    moved.length = s.delivered.length + q.length + s.overwritten ∧
    moved ++ passed s.uart.fifo = passed s.uart.received
  bufsz_eq : s.fifo.bufsz = bufsz

section Runs

variable {arrivals : Nat → List (BitVec 8)} {s : SerialSystem} {bufsz : Nat}

/-- Bytes are passed on one by one. -/
theorem passed_append (xs ys : List (BitVec 8)) : passed (xs ++ ys) = passed xs ++ passed ys :=
  List.filter_append xs ys

theorem passed_cons (b : BitVec 8) (l : List (BitVec 8)) :
    passed (b :: l) = if b = 0xFF then passed l else b :: passed l := by
  unfold passed
  rw [List.filter_cons]
  by_cases h : b = 0xFF <;> simp [h]

/-- The byte that was stored is the lowest one of the word. -/
theorem setWidth_setFirstByte (word : BitVec 32) (byte : BitVec 8) :
    (setFirstByte word byte).setWidth 8 = byte := by
  ext i hi
  rw [BitVec.getElem_setWidth]
  exact BitVec.getLsbD_append.trans (by simp [hi])

/-- A call of `getc` takes a byte from the front, and one that returns -1 takes none that
passes. -/
theorem hpmUartGetc_moves (arrivals : Nat → List (BitVec 8)) (rx : UartRx) {moved : List (BitVec 8)}
    (h : moved ++ passed rx.fifo = passed rx.received) :
    if (hpmUartGetc arrivals rx).1.toInt = -1 then
      moved ++ passed (hpmUartGetc arrivals rx).2.fifo = passed (hpmUartGetc arrivals rx).2.received
    else moved ++ [(hpmUartGetc arrivals rx).1.setWidth 8] ++
        passed (hpmUartGetc arrivals rx).2.fifo = passed (hpmUartGetc arrivals rx).2.received := by
  have haccess : moved ++ passed (rx.access arrivals).fifo = passed (rx.access arrivals).received := by
    change moved ++ passed (rx.fifo ++ _) = passed (rx.received ++ _)
    rw [passed_append, passed_append, ← List.append_assoc, h]
  cases hfifo : (rx.access arrivals).fifo with
  | nil =>
    rw [if_pos (hpmUartGetc_neg_one_iff.mpr (Or.inl hfifo)), hpmUartGetc_empty hfifo]
    exact haccess
  | cons byte rest =>
    obtain ⟨more, hresult, hrest, hreceived⟩ := hpmUartGetc_byte hfifo
    have hiff : (hpmUartGetc arrivals rx).1.toInt = -1 ↔ _ := hpmUartGetc_neg_one_iff
    rw [hfifo] at haccess hiff
    rw [hrest, hreceived, passed_append, passed_append, ← haccess]
    rw [passed_cons]
    by_cases hff : byte = 0xFF
    · rw [if_pos (hiff.mpr (Or.inr (by rw [hff]; rfl))), if_pos hff, List.append_assoc]
    · have hmoved : ¬ (hpmUartGetc arrivals rx).1.toInt = -1 := by
        intro hc
        rcases hiff.mp hc with hnil | hhead
        · cases hnil
        · exact hff (Option.some.inj hhead)
      rw [if_neg hmoved, if_neg hff, hresult, setWidth_setFirstByte]
      simp

/-- One step keeps account of every byte. -/
theorem serialStep_inv (h : SerialInv bufsz s) (act : SerialAct) :
    SerialInv bufsz (serialStep arrivals s act) := by
  obtain ⟨⟨q, moved, hq, hsuffix, hsub, hcount, hmoved⟩, hsize⟩ := h
  cases act with
  | read =>
    obtain ⟨hch, hnext, hbufsz⟩ := serialIntRxOne_spec hq
    refine ⟨⟨q.tail, moved, hnext, (List.tail_suffix q).trans hsuffix, ?_, ?_, hmoved⟩,
      hbufsz.trans hsize⟩
    · show (s.delivered ++ (serialIntRxOne s.fifo).1.toList ++ q.tail).Sublist moved
      rw [hch, List.append_assoc]
      have hsplit : q.head?.toList ++ q.tail = q := by cases q <;> simp
      rwa [hsplit]
    · show moved.length = (s.delivered ++ (serialIntRxOne s.fifo).1.toList).length +
        q.tail.length + s.overwritten
      rw [hch, hcount, List.length_append]
      cases q with
      | nil => rfl
      | cons b q =>
        show _ = s.delivered.length + 1 + q.length + s.overwritten
        rw [List.length_cons]
        omega
  | isr =>
    have hmoves := hpmUartGetc_moves arrivals s.uart hmoved
    unfold serialStep
    dsimp only
    split at hmoves
    case isTrue hend =>
      rw [if_pos hend]
      exact ⟨⟨q, moved, hq, hsuffix, hsub, hcount, hmoves⟩, hsize⟩
    case isFalse hch =>
      rw [if_neg hch]
      obtain ⟨hbufsz, hput⟩ := isrPut_spec hq (hpmUartGetc arrivals s.uart).1
      split at hput
      case isTrue hfull =>
        obtain ⟨hwarn, hnext⟩ := hput
        obtain ⟨b, q, rfl⟩ : ∃ b q', q = b :: q' :=
          List.exists_cons_of_length_pos (by have := hq.size; omega)
        obtain ⟨t, rfl⟩ := hsuffix
        refine ⟨⟨_, _, hnext, ⟨t ++ [b], by simp⟩, ?_, ?_, hmoves⟩, hbufsz.trans hsize⟩
        · rw [List.tail_cons, ← List.append_assoc]
          have hless : (s.delivered ++ q).Sublist (s.delivered ++ b :: q) :=
            (List.sublist_cons_self b q).append_left _
          exact (hless.trans hsub).append (List.Sublist.refl _)
        · rw [hwarn, List.length_append, hcount]
          simp
          omega
      case isFalse hroom =>
        obtain ⟨hwarn, hnext⟩ := hput
        obtain ⟨t, rfl⟩ := hsuffix
        refine ⟨⟨_, _, hnext, ⟨t, by simp⟩, ?_, ?_, hmoves⟩, hbufsz.trans hsize⟩
        · rw [← List.append_assoc]
          exact hsub.append (List.Sublist.refl _)
        · rw [hwarn, List.length_append, hcount]
          simp
          omega

/-- Every interleaving keeps the ring and the count of what was moved. -/
theorem serialRun_inv (h : SerialInv bufsz s) (acts : List SerialAct) :
    SerialInv bufsz (serialRun arrivals s acts) := by
  induction acts generalizing s with
  | nil => exact h
  | cons act acts ih => exact ih (serialStep_inv h act)

theorem serialRun_append (acts more : List SerialAct) :
    serialRun arrivals s (acts ++ more) = serialRun arrivals (serialRun arrivals s acts) more :=
  List.foldl_append

/-- The handler delivers nothing itself. -/
theorem serialStep_isr_delivered : (serialStep arrivals s .isr).delivered = s.delivered := by
  unfold serialStep
  dsimp only
  split <;> rfl

/-- The handler delivers nothing. -/
theorem serialRun_isr_delivered (n : Nat) :
    (serialRun arrivals s (List.replicate n .isr)).delivered = s.delivered := by
  induction n generalizing s with
  | zero => rfl
  | succ n ih =>
    rw [List.replicate_succ]
    exact ih.trans serialStep_isr_delivered

/-- A call of `_serial_int_rx` is one of the orders, and what it returns is what it delivers. -/
theorem serialIntRx_run (passes : Nat → Nat) (length : Nat) :
    ∃ acts, (serialIntRx arrivals passes length s).2 = serialRun arrivals s acts ∧
      (serialIntRx arrivals passes length s).2.delivered =
        s.delivered ++ (serialIntRx arrivals passes length s).1 := by
  induction length generalizing s with
  | zero => exact ⟨[], rfl, (List.append_nil _).symm⟩
  | succ length ih =>
    let handled := List.replicate (passes (length + 1)) SerialAct.isr
    have hread : serialStep arrivals (serialRun arrivals s handled) .read =
        serialRun arrivals s (handled ++ [.read]) := by
      rw [serialRun_append]
      rfl
    have hdelivered : (serialStep arrivals (serialRun arrivals s handled) .read).delivered =
        s.delivered ++ (serialIntRxOne (serialRun arrivals s handled).fifo).1.toList := by
      exact congrArg (· ++ _) (serialRun_isr_delivered _)
    rw [serialIntRx]
    dsimp only
    split
    case h_1 hch =>
      rw [hch] at hdelivered
      exact ⟨_, hread, hdelivered⟩
    case h_2 ch hch =>
      rw [hch] at hdelivered
      obtain ⟨acts, hacts, hdata⟩ :=
        ih (s := serialStep arrivals (serialRun arrivals s handled) .read)
      refine ⟨handled ++ [.read] ++ acts, ?_, ?_⟩
      · rw [serialRun_append, ← hread]
        exact hacts
      · rw [hdelivered, List.append_assoc] at hdata
        exact hdata

/-- At the start nothing was moved. -/
theorem serialStart_inv (buffer : Nat → BitVec 8) (h : 2 ≤ bufsz) :
    SerialInv bufsz (serialStart buffer bufsz) :=
  ⟨⟨[], [], openRxFifo_queue buffer h, List.suffix_refl _, List.Sublist.refl _, rfl, rfl⟩, rfl⟩

end Runs

/-- Whatever the order of the handler and the readers: the ring holds a queue `q` of bytes, and
there is a list `moved` of the received bytes that the handler took, all but the ones that read as
the end of the FIFO; what was delivered, and then what waits in the ring, is a part of it in its
order; the ones that wait are its last; and only as many are missing as the handler gave up.
The handler announces the number that waits.  A call of `_serial_int_rx` is one more order, and
returns what it adds to the delivered bytes.

The ring is followed byte by byte: a step of the handler adds the byte that `getc` took from the
FIFO to the end of the queue, at the cost of its oldest one where the ring is full, and a step of a
reader takes the oldest one, so that each keeps account of every byte (`serialStep_inv`). -/
theorem serial_rx_stream (arrivals : Nat → List (BitVec 8)) (buffer : Nat → BitVec 8) {bufsz : Nat}
    (hbufsz : 2 ≤ bufsz) (acts : List SerialAct) :
    let s := serialRun arrivals (serialStart buffer bufsz) acts
    (∃ moved q, RxQueue s.fifo q ∧ moved ++ passed s.uart.fifo = passed s.uart.received ∧
      (s.delivered ++ q).Sublist moved ∧ q <:+ moved ∧
      moved.length = s.delivered.length + q.length + s.overwritten ∧
      rxLength s.fifo = q.length ∧ q.length < bufsz) ∧
    ∀ passes length, ∃ more,
      (serialIntRx arrivals passes length s).2 =
        serialRun arrivals (serialStart buffer bufsz) (acts ++ more) ∧
      (serialIntRx arrivals passes length s).2.delivered =
        s.delivered ++ (serialIntRx arrivals passes length s).1 := by
  intro s
  constructor
  · have hinv : SerialInv bufsz s := serialRun_inv (serialStart_inv buffer hbufsz) acts
    obtain ⟨⟨q, moved, hq, hsuffix, hsub, hcount, hmoved⟩, hsize⟩ := hinv
    exact ⟨moved, q, hq, hmoved, hsub, hsuffix, hcount, rxLength_eq hq, hsize ▸ hq.len⟩
  · intro passes length
    obtain ⟨more, hcall, hdata⟩ := @serialIntRx_run arrivals s passes length
    exact ⟨more, hcall.trans (serialRun_append acts more).symm, hdata⟩

theorem serial_rx_stream_at_64 :
    2 ≤ 64 ∧
    let s := serialRun (fun _ => [0x41]) (serialStart (fun _ => 0) 64) [.isr, .isr, .read]
    (∃ moved q, RxQueue s.fifo q ∧ moved ++ passed s.uart.fifo = passed s.uart.received ∧
      (s.delivered ++ q).Sublist moved ∧ q <:+ moved ∧
      moved.length = s.delivered.length + q.length + s.overwritten ∧
      rxLength s.fifo = q.length ∧ q.length < 64) ∧
    ∀ passes length, ∃ more,
      (serialIntRx (fun _ => [0x41]) passes length s).2 =
        serialRun (fun _ => [0x41]) (serialStart (fun _ => 0) 64) ([.isr, .isr, .read] ++ more) ∧
      (serialIntRx (fun _ => [0x41]) passes length s).2.delivered =
        s.delivered ++ (serialIntRx (fun _ => [0x41]) passes length s).1 :=
  ⟨by decide, serial_rx_stream _ _ (by decide) _⟩

end HpmSdk.Rtt
