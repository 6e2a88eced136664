import HpmSdk.Rtt.RingBufferFifo

set_option autoImplicit false

/-!
# Runs of the ring buffer

Any sequence of calls sees what a queue of `buffer_size` bytes shows: a write stores what fits, a
forced write keeps the last bytes, a read gives the oldest ones.

`FifoRun` is the queue by itself, without indices.  What is said of it carries over to the buffer by
`ringRun_spec`.
-/

namespace HpmSdk.Rtt

open Foundation Foundation.RingQueue

/-- The calls on a ring buffer. -/
inductive RingOp where
  | put (data : List UInt8)
  | putForce (data : List UInt8)
  | get (length : Nat)
  | peak
  | putchar (ch : UInt8)
  | putcharForce (ch : UInt8)
  | getchar
  | reset
  deriving DecidableEq

/-- What a call gives back: the returned number, and the bytes that were read. -/
structure RingResult where
  count : Nat
  bytes : List UInt8
  deriving DecidableEq

/-- One call. -/
def ringStep (rb : RtRingbuffer) : RingOp → RingResult × RtRingbuffer
  | .put data =>
    let (n, rb) := rtRingbufferPut rb (Buf.ofList data) data.length
    (⟨n, []⟩, rb)
  | .putForce data =>
    let (n, rb) := rtRingbufferPutForce rb (Buf.ofList data) data.length
    (⟨n, []⟩, rb)
  | .get length =>
    let (n, ptr, rb) := rtRingbufferGet rb (fun _ => 0) length
    (⟨n, ptr.toList 0 n⟩, rb)
  | .peak =>
    let (n, place, rb) := rtRingbufferPeak rb
    (⟨n, (place.map fun p => rb.bufferPtr.toList p n).getD []⟩, rb)
  | .putchar ch =>
    let (n, rb) := rtRingbufferPutchar rb ch
    (⟨n, []⟩, rb)
  | .putcharForce ch =>
    let (n, rb) := rtRingbufferPutcharForce rb ch
    (⟨n, []⟩, rb)
  | .getchar =>
    let (ch, rb) := rtRingbufferGetchar rb
    (⟨ch.toList.length, ch.toList⟩, rb)
  | .reset => (⟨0, []⟩, rtRingbufferReset rb)

/-- The last `n` bytes. -/
def lastBytes (n : Nat) (l : List UInt8) : List UInt8 := l.drop (l.length - n)

/-- What a queue of at most `n` bytes shows of a call.  `rt_ringbuffer_peak` may give less than
everything, as it stops at the end of the buffer. -/
def FifoStep (n : Nat) (q : List UInt8) : RingOp → RingResult → List UInt8 → Prop
  | .put data, r, q' =>
    r = ⟨min data.length (n - q.length), []⟩ ∧ q' = q ++ data.take (n - q.length)
  | .putForce data, r, q' => r = ⟨min data.length n, []⟩ ∧ q' = lastBytes n (q ++ data)
  | .get length, r, q' => r = ⟨min length q.length, q.take length⟩ ∧ q' = q.drop length
  | .peak, r, q' => (q = [] ∧ r = ⟨0, []⟩ ∧ q' = []) ∨
      ∃ k, 0 < k ∧ k ≤ q.length ∧ r = ⟨k, q.take k⟩ ∧ q' = q.drop k
  | .putchar ch, r, q' =>
    r = ⟨if q.length < n then 1 else 0, []⟩ ∧ q' = if q.length < n then q ++ [ch] else q
  | .putcharForce ch, r, q' => r = ⟨1, []⟩ ∧ q' = lastBytes n (q ++ [ch])
  | .getchar, r, q' => r = ⟨q.head?.toList.length, q.head?.toList⟩ ∧ q' = q.tail
  | .reset, r, q' => r = ⟨0, []⟩ ∧ q' = []

/-- The results of calls one after another. -/
def ringRun (rb : RtRingbuffer) : List RingOp → List RingResult × RtRingbuffer
  | [] => ([], rb)
  | op :: ops =>
    let (r, rb) := ringStep rb op
    let (rs, rb) := ringRun rb ops
    (r :: rs, rb)

/-- The results that the queue allows. -/
def FifoRun (n : Nat) : List UInt8 → List RingOp → List RingResult → List UInt8 → Prop
  | q, [], rs, q' => rs = [] ∧ q' = q
  | q, op :: ops, rs, q' =>
    ∃ r rest mid, rs = r :: rest ∧ FifoStep n q op r mid ∧ FifoRun n mid ops rest q'

section Runs

variable {rb : RtRingbuffer} {q : List UInt8}

theorem toList_ofList_take {data : List UInt8} {k : Nat} (h : k ≤ data.length) :
    (Buf.ofList data).toList 0 k = data.take k := by
  obtain ⟨j, hj⟩ := Nat.exists_eq_add_of_le h
  have hall := Buf.toList_ofList data
  rw [hj, Buf.toList_add] at hall
  conv_rhs => rw [← hall]
  rw [List.take_left' (Buf.length_toList _ _ _)]

theorem toList_ofList_drop {data : List UInt8} {m k : Nat} (h : m + k = data.length) :
    (Buf.ofList data).toList m k = data.drop m := by
  have hall := Buf.toList_ofList data
  rw [← h, Buf.toList_add, Nat.zero_add] at hall
  conv_rhs => rw [← hall]
  rw [List.drop_left' (Buf.length_toList _ _ _)]

/-- One call shows what the queue shows. -/
theorem ringStep_spec (h : Queues rb q) (op : RingOp) :
    ∃ q', FifoStep rb.bufferSize q op (ringStep rb op).1 q' ∧ Queues (ringStep rb op).2 q' ∧
      (ringStep rb op).2.bufferSize = rb.bufferSize := by
  cases op with
  | put data =>
    obtain ⟨hn, hq, hsize⟩ := rtRingbufferPut_spec h (Buf.ofList data) data.length
    refine ⟨_, ⟨?_, rfl⟩, ?_, hsize⟩
    · exact congrArg (RingResult.mk · []) hn
    · rw [toList_ofList_take (Nat.min_le_left _ _), Nat.min_comm, ← List.take_eq_take_min] at hq
      exact hq
  | putForce data =>
    obtain ⟨hn, hq, hsize⟩ := rtRingbufferPutForce_spec h (Buf.ofList data) data.length
    have hle := h.le
    refine ⟨_, ⟨?_, rfl⟩, ?_, hsize⟩
    · exact congrArg (RingResult.mk · []) hn
    · rw [toList_ofList_drop (by omega)] at hq
      have hlast : lastBytes rb.bufferSize (q ++ data) =
          q.drop (q.length + min data.length rb.bufferSize - rb.bufferSize) ++
            data.drop (data.length - rb.bufferSize) := by
        unfold lastBytes
        rw [List.length_append, List.drop_append]
        rcases Nat.le_total data.length rb.bufferSize with hlen | hlen
        · rw [Nat.min_eq_left hlen]
          congr 2
          omega
        · have hold : q.drop (q.length + data.length - rb.bufferSize) = [] :=
            List.drop_of_length_le (by omega)
          rw [Nat.min_eq_right hlen, hold, Nat.add_sub_cancel, List.drop_length]
          congr 2
          omega
      rw [hlast]
      exact hq
  | get length =>
    obtain ⟨hn, hbytes, hq, hsize⟩ := rtRingbufferGet_spec h (fun _ => 0) length
    refine ⟨_, ⟨?_, rfl⟩, hq, hsize⟩
    show RingResult.mk (rtRingbufferGet rb (fun _ => 0) length).1
      ((rtRingbufferGet rb (fun _ => 0) length).2.1.toList 0
        (rtRingbufferGet rb (fun _ => 0) length).1) = _
    rw [hn, hbytes]
  | peak =>
    rcases rtRingbufferPeak_spec h with ⟨rfl, heq⟩ | ⟨k, hpos, hk, hn, hplace, hbytes, hq, hsize, hbuf⟩
    · refine ⟨[], Or.inl ⟨rfl, ?_, rfl⟩, ?_, ?_⟩ <;> rw [ringStep, heq]
      · rfl
      · exact h
    · refine ⟨_, Or.inr ⟨k, hpos, hk, ?_, rfl⟩, hq, hsize⟩
      show RingResult.mk (rtRingbufferPeak rb).1
        (((rtRingbufferPeak rb).2.1.map fun p =>
          (rtRingbufferPeak rb).2.2.bufferPtr.toList p (rtRingbufferPeak rb).1).getD []) = _
      rw [hn, hplace, hbuf, Option.map_some, Option.getD_some, hbytes]
  | putchar ch =>
    obtain ⟨hn, hq, hsize⟩ := rtRingbufferPutchar_spec h ch
    exact ⟨_, ⟨congrArg (RingResult.mk · []) hn, rfl⟩, hq, hsize⟩
  | putcharForce ch =>
    obtain ⟨hn, hq, hsize⟩ := rtRingbufferPutcharForce_spec h ch
    have hle := h.le
    have hpos := h.size
    refine ⟨_, ⟨congrArg (RingResult.mk · []) hn, rfl⟩, ?_, hsize⟩
    have hlast : lastBytes rb.bufferSize (q ++ [ch]) =
        q.drop (q.length + 1 - rb.bufferSize) ++ [ch] := by
      unfold lastBytes
      rw [List.length_append, List.length_singleton, List.drop_append,
        show q.length + 1 - rb.bufferSize - q.length = 0 by omega, List.drop_zero]
    rw [hlast]
    exact hq
  | getchar =>
    obtain ⟨hch, hq, hsize⟩ := rtRingbufferGetchar_spec h
    refine ⟨_, ⟨?_, rfl⟩, hq, hsize⟩
    show RingResult.mk (rtRingbufferGetchar rb).1.toList.length (rtRingbufferGetchar rb).1.toList = _
    rw [hch]
  | reset => exact ⟨[], ⟨rfl, rfl⟩, rtRingbufferReset_spec h, rfl⟩

/-- **The calls of a run return what those on the queue return**, by one specification for each
call. -/
theorem ringRun_spec (ops : List RingOp) : ∀ {rb : RtRingbuffer} {q : List UInt8}, Queues rb q →
    ∃ q', FifoRun rb.bufferSize q ops (ringRun rb ops).1 q' ∧ Queues (ringRun rb ops).2 q' := by
  induction ops with
  | nil => exact fun h => ⟨_, ⟨rfl, rfl⟩, h⟩
  | cons op ops ih =>
    intro rb q h
    obtain ⟨mid, hstep, hmid, hsize⟩ := ringStep_spec h op
    obtain ⟨q', hrun, hq'⟩ := ih hmid
    rw [hsize] at hrun
    exact ⟨q', ⟨_, _, mid, rfl, hstep, hrun⟩, hq'⟩

/-- A ring buffer behaves as a queue of its size, whatever is called in whatever order, and
`rt_ringbuffer_data_len` is the number of bytes in it.

Two numbers that only grow stand for the indices with their mirror bits: an index is the number
modulo the size, and its mirror bit tells whether it went round an odd number of times.  The
length is their difference, and the two copies that a wrapping access makes are one stretch of the
queue.  A buffer below four bytes has size 0, and is left out. -/
theorem ringbuffer_refines_fifo (pool : Buf) {size : Nat} (h : 4 ≤ size) (ops : List RingOp) :
    ∃ q, FifoRun (size / 4 * 4) [] ops (ringRun (rtRingbufferInit pool size) ops).1 q ∧
      rtRingbufferDataLen (ringRun (rtRingbufferInit pool size) ops).2 = q.length := by
  obtain ⟨q, hrun, hq⟩ := ringRun_spec ops (rtRingbufferInit_queues pool h)
  exact ⟨q, hrun, rtRingbufferDataLen_eq hq⟩

/-- A buffer of 7 bytes has room for 4, and goes around. -/
theorem ringbuffer_refines_fifo_seven : ∃ q, FifoRun 4 []
    [.put [1, 2, 3], .get 2, .put [4, 5], .putForce [6, 7], .getchar]
    [⟨3, []⟩, ⟨2, [1, 2]⟩, ⟨2, []⟩, ⟨2, []⟩, ⟨1, [4]⟩] q ∧ q.length = 3 := by
  have hops := ringbuffer_refines_fifo (fun _ => 0) (show 4 ≤ 7 by decide)
    [.put [1, 2, 3], .get 2, .put [4, 5], .putForce [6, 7], .getchar]
  obtain ⟨q, hrun, hlen⟩ := hops
  exact ⟨q, hrun, hlen.symm⟩

/-! ## The stream of bytes -/

/-- A call that gives up no byte that was stored. -/
def RingOp.lossless : RingOp → Bool
  | .putForce _ | .putcharForce _ | .reset => false
  | _ => true

/-- The bytes that a call stored, by what it returned. -/
def RingOp.stored : RingOp → RingResult → List UInt8
  | .put data, r => data.take r.count
  | .putchar ch, r => [ch].take r.count
  | _, _ => []

/-- A call without loss: what it gives and what is left are what was there and what it stored. -/
theorem fifoStep_stream {n : Nat} {q q' : List UInt8} {op : RingOp} {r : RingResult}
    (hop : op.lossless = true) (h : FifoStep n q op r q') : r.bytes ++ q' = q ++ op.stored r := by
  cases op with
  | put data =>
    obtain ⟨rfl, rfl⟩ := h
    show q ++ data.take (n - q.length) = q ++ data.take (min data.length (n - q.length))
    rw [Nat.min_comm, ← List.take_eq_take_min]
  | putchar ch =>
    obtain ⟨rfl, rfl⟩ := h
    rw [RingOp.stored]
    split <;> simp
  | get length =>
    obtain ⟨rfl, rfl⟩ := h
    show q.take length ++ q.drop length = q ++ []
    rw [List.append_nil, List.take_append_drop]
  | peak =>
    rcases h with ⟨rfl, rfl, rfl⟩ | ⟨k, -, -, rfl, rfl⟩
    · rfl
    · show q.take k ++ q.drop k = q ++ []
      rw [List.append_nil, List.take_append_drop]
  | getchar =>
    obtain ⟨rfl, rfl⟩ := h
    show q.head?.toList ++ q.tail = q ++ []
    cases q <;> simp
  | putForce _ => cases hop
  | putcharForce _ => cases hop
  | reset => cases hop

/-- And so for a run. -/
theorem fifoRun_stream {n : Nat} : ∀ {ops : List RingOp} {q q' : List UInt8}
    {rs : List RingResult}, (∀ op ∈ ops, op.lossless = true) → FifoRun n q ops rs q' →
      (rs.map RingResult.bytes).flatten ++ q' = q ++ (List.zipWith RingOp.stored ops rs).flatten
  | [], q, q', rs, _, h => by
    obtain ⟨rfl, rfl⟩ := h
    simp
  | op :: ops, q, q', rs, hall, h => by
    obtain ⟨r, rest, mid, rfl, hstep, hrun⟩ := h
    have hone := fifoStep_stream (hall op List.mem_cons_self) hstep
    have hrest := fifoRun_stream (fun o ho => hall o (List.mem_cons_of_mem op ho)) hrun
    calc ((r :: rest).map RingResult.bytes).flatten ++ q'
        = r.bytes ++ ((rest.map RingResult.bytes).flatten ++ q') := by simp
      _ = (r.bytes ++ mid) ++ (List.zipWith RingOp.stored ops rest).flatten := by
          rw [hrest, List.append_assoc]
      _ = q ++ (List.zipWith RingOp.stored (op :: ops) (r :: rest)).flatten := by
          rw [hone]
          simp

/-- Without forced writes and resets no byte is lost, doubled or moved: what was read, followed by
what is left, is what was stored.

On the queue that the buffer behaves as, a write adds at the end what it reports, and a read takes
what it returns from the front.  So each call leaves the bytes read followed by the queue as long
as the bytes stored, and the refinement carries that over to the code. -/
theorem ringbuffer_stream (pool : Buf) {size : Nat} (h : 4 ≤ size) (ops : List RingOp)
    (hall : ∀ op ∈ ops, op.lossless = true) :
    ∃ left, ((ringRun (rtRingbufferInit pool size) ops).1.map RingResult.bytes).flatten ++ left =
        (List.zipWith RingOp.stored ops (ringRun (rtRingbufferInit pool size) ops).1).flatten ∧
      left.length = rtRingbufferDataLen (ringRun (rtRingbufferInit pool size) ops).2 := by
  obtain ⟨q, hrun, hlen⟩ := ringbuffer_refines_fifo pool h ops
  exact ⟨q, fifoRun_stream hall hrun, hlen.symm⟩

theorem ringbuffer_stream_four : ∃ left, [1, 2, 3, 4, 5] ++ left = ([1, 2, 3, 4, 5, 6] : List UInt8) ∧
    left.length = 1 := by
  have hstream := ringbuffer_stream (fun _ => 0) (show 4 ≤ 4 by decide)
    [.put [1, 2, 3], .get 2, .put [4, 5], .peak, .putchar 6, .get 1] (by decide)
  obtain ⟨left, hbytes, hlen⟩ := hstream
  exact ⟨left, hbytes, hlen⟩

end Runs

end HpmSdk.Rtt
