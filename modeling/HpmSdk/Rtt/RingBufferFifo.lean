import HpmSdk.Foundation.RingQueue
import HpmSdk.Rtt.RingBuffer

set_option autoImplicit false

/-!
# The ring buffer is a bounded queue of bytes

The bytes between the read index and the write index are a queue.  Adding and taking bytes, also
around the end of the buffer and over the oldest bytes, is adding and taking in the queue.

`Queues` ties a buffer to a queue of bytes: the read index is the first slot, the length is the
distance of the indices, and the mirror bits tell an empty buffer from a full one.  Each function
then has one specification.
-/

namespace HpmSdk.Rtt

open Foundation Foundation.RingQueue

/-- The ring buffer holds the bytes of a queue, the oldest one first. -/
structure Queues (rb : RtRingbuffer) (q : List UInt8) : Prop where
  size : 0 < rb.bufferSize
  read : rb.readIndex < rb.bufferSize
  le : q.length ≤ rb.bufferSize
  write : rb.writeIndex = (rb.readIndex + q.length) % rb.bufferSize
  mirror : rb.writeMirror = rb.readMirror ↔ rb.readIndex + q.length < rb.bufferSize
  list : ringList rb.bufferSize rb.bufferPtr rb.readIndex q.length = q

section Arithmetic

variable {N x : Nat}

/-- Going around at most once. -/
theorem mod_of_lt_two_mul (h : x < 2 * N) : x % N = if x < N then x else x - N := by
  split
  · exact Nat.mod_eq_of_lt ‹_›
  · rw [Nat.mod_eq_sub_mod (by omega), Nat.mod_eq_of_lt (by omega)]

theorem not_eq_iff (a b : Bool) : (!a) = b ↔ ¬ a = b := by cases a <;> cases b <;> decide

theorem eq_not_iff (a b : Bool) : a = (!b) ↔ ¬ a = b := by cases a <;> cases b <;> decide

end Arithmetic

section Copies

variable {N wi k : Nat} {b ptr : Buf}

/-- Where a write starts matters up to whole turns. -/
theorem ringWrite_mod {α : Type} {b : Nat → α} {p : Nat} {xs : List α} :
    ringWrite N b (p % N) xs = ringWrite N b p xs := by
  induction xs generalizing b p with
  | nil => rfl
  | cons x xs ih =>
    rw [ringWrite, ringWrite, Nat.mod_mod, ← ih (p := p % N + 1), ← ih (p := p + 1), Nat.mod_add_mod]

theorem getElem_toList {off j : Nat} (hj : j < (b.toList off k).length) :
    (b.toList off k)[j] = b (off + j) := by
  simp [Buf.toList]

/-- A copy that stays in front of the end of the buffer. -/
theorem copy_eq_ringWrite (h : wi + k ≤ N) :
    b.copy wi ptr k = ringWrite N b wi (ptr.toList 0 k) := by
  have hlen := Buf.length_toList ptr 0 k
  refine eq_ringWrite (by omega) (fun j hj => ?_) fun i hi => ?_
  · rw [hlen] at hj
    rw [getElem_toList, Buf.copy]
    rcases Nat.lt_or_ge (wi + j) N with hlt | hge
    · rw [Nat.mod_eq_of_lt hlt, if_pos (by omega)]
      congr 1
      omega
    · omega
  · rw [Buf.copy, if_neg]
    rintro ⟨hlo, hhi⟩
    refine hi (i - wi) (by omega) ?_
    rw [Nat.mod_eq_of_lt (by omega)]
    omega

/-- A copy that goes around the end of the buffer. -/
theorem copyAround_eq_ringWrite {rb : RtRingbuffer} (hwi : rb.writeIndex < rb.bufferSize)
    (hk : k ≤ rb.bufferSize) (haround : rb.bufferSize - rb.writeIndex ≤ k) :
    copyAround rb ptr k = ringWrite rb.bufferSize rb.bufferPtr rb.writeIndex (ptr.toList 0 k) := by
  have hlen := Buf.length_toList ptr 0 k
  refine eq_ringWrite (by omega) (fun j hj => ?_) fun i hi => ?_
  · rw [hlen] at hj
    rw [getElem_toList, mod_of_lt_two_mul (by omega)]
    unfold copyAround Buf.copy Buf.drop
    split
    · rw [if_neg (by omega), if_pos (by omega)]
      congr 1
      omega
    · rw [if_pos (by omega)]
      congr 1
      omega
  · unfold copyAround Buf.copy
    rw [if_neg, if_neg]
    · rintro ⟨hlo, hhi⟩
      refine hi (i - rb.writeIndex) (by omega) ?_
      rw [Nat.mod_eq_of_lt (by omega)]
      omega
    · rintro ⟨-, hhi⟩
      refine hi (i + (rb.bufferSize - rb.writeIndex)) (by omega) ?_
      rw [mod_of_lt_two_mul (by omega), if_neg (by omega)]
      omega

end Copies

section Steps

variable {rb rb' : RtRingbuffer} {q : List UInt8}

/-- What every operation does: bytes are taken in front, or given up, and others added behind. -/
theorem Queues.advance (h : Queues rb q) {m : Nat} {xs : List UInt8} (hm : m ≤ q.length)
    (hfit : q.length - m + xs.length ≤ rb.bufferSize)
    (hsize : rb'.bufferSize = rb.bufferSize)
    (hbuf : rb'.bufferPtr = ringWrite rb.bufferSize rb.bufferPtr rb.writeIndex xs)
    (hread : rb'.readIndex = (rb.readIndex + m) % rb.bufferSize)
    (hwrite : rb'.writeIndex = (rb.writeIndex + xs.length) % rb.bufferSize)
    (hmirror : rb'.writeMirror = rb'.readMirror ↔
      rb'.readIndex + (q.length - m + xs.length) < rb.bufferSize) :
    Queues rb' (q.drop m ++ xs) := by
  have hlen : (q.drop m ++ xs).length = q.length - m + xs.length := by simp
  refine ⟨by rw [hsize]; exact h.size, ?_, ?_, ?_, ?_, ?_⟩
  · rw [hread, hsize]
    exact Nat.mod_lt _ h.size
  · rw [hlen, hsize]
    exact hfit
  · rw [hwrite, hread, hlen, hsize, h.write, Nat.mod_add_mod, Nat.mod_add_mod]
    congr 1
    omega
  · rw [hlen, hsize]
    exact hmirror
  · rw [hlen, hsize, hbuf, hread, ringList_mod, h.write, ringWrite_mod,
      show rb.readIndex + q.length = rb.readIndex + m + (q.length - m) by omega,
      ringList_ringWrite hfit, ringList_drop hm, h.list]

/-- The indices seen from the queue. -/
theorem Queues.write_eq (h : Queues rb q) : rb.writeIndex =
    if rb.readIndex + q.length < rb.bufferSize then rb.readIndex + q.length
    else rb.readIndex + q.length - rb.bufferSize := by
  have hread := h.read
  have hle := h.le
  rw [h.write, mod_of_lt_two_mul (by omega)]

/-- The write index stays in the buffer. -/
theorem Queues.write_lt (h : Queues rb q) : rb.writeIndex < rb.bufferSize := by
  rw [h.write]
  exact Nat.mod_lt _ h.size

/-- `rt_ringbuffer_data_len` is the length of the queue. -/
theorem rtRingbufferDataLen_eq (h : Queues rb q) : rtRingbufferDataLen rb = q.length := by
  have hwrite := h.write_eq
  have hread := h.read
  have hle := h.le
  have hmirror := h.mirror
  unfold rtRingbufferDataLen rtRingbufferStatus
  by_cases heq : rb.readIndex = rb.writeIndex
  · rw [if_pos heq]
    by_cases hsame : rb.readMirror = rb.writeMirror
    · rw [if_pos hsame]
      have hlt := hmirror.mp hsame.symm
      rw [if_pos hlt] at hwrite
      show 0 = q.length
      omega
    · rw [if_neg hsame]
      have hge : ¬ rb.readIndex + q.length < rb.bufferSize := fun hlt => hsame (hmirror.mpr hlt).symm
      rw [if_neg hge] at hwrite
      show rb.bufferSize = q.length
      omega
  · rw [if_neg heq]
    show (if rb.readIndex < rb.writeIndex then rb.writeIndex - rb.readIndex
      else rb.bufferSize - (rb.readIndex - rb.writeIndex)) = q.length
    split at hwrite <;> split <;> omega

/-- The status says full exactly where the queue is. -/
theorem rtRingbufferStatus_full_iff (h : Queues rb q) :
    rtRingbufferStatus rb = .full ↔ q.length = rb.bufferSize := by
  have hdata := rtRingbufferDataLen_eq h
  have hread := h.read
  have hwritelt := h.write_lt
  have hsize := h.size
  unfold rtRingbufferDataLen at hdata
  constructor
  · intro hfull
    rw [hfull] at hdata
    exact hdata.symm
  · intro hlen
    cases hstatus : rtRingbufferStatus rb with
    | full => rfl
    | empty =>
      rw [hstatus] at hdata
      dsimp only at hdata
      omega
    | halfFull =>
      have hne : rb.readIndex ≠ rb.writeIndex := by
        intro heq
        unfold rtRingbufferStatus at hstatus
        rw [if_pos heq] at hstatus
        split at hstatus <;> cases hstatus
      rw [hstatus] at hdata
      dsimp only at hdata
      split at hdata <;> omega

/-! ## Writing -/

/-- A put adds what there is room for; the two copies around the end of the buffer are one write
into the ring. -/
theorem rtRingbufferPut_spec (h : Queues rb q) (ptr : Buf) (length : Nat) :
    (rtRingbufferPut rb ptr length).1 = min length (rb.bufferSize - q.length) ∧
      Queues (rtRingbufferPut rb ptr length).2
        (q ++ ptr.toList 0 (min length (rb.bufferSize - q.length))) ∧
      (rtRingbufferPut rb ptr length).2.bufferSize = rb.bufferSize := by
  have hdata := rtRingbufferDataLen_eq h
  have hread := h.read
  have hle := h.le
  have hwrite := h.write_eq
  have hwritelt := h.write_lt
  have hmirror := h.mirror
  unfold rtRingbufferPut rtRingbufferSpaceLen
  dsimp only
  rw [hdata]
  by_cases hspace : rb.bufferSize - q.length = 0
  · rw [if_pos hspace, hspace, Nat.min_zero]
    exact ⟨rfl, by simpa using h, rfl⟩
  rw [if_neg hspace]
  obtain ⟨k, hk⟩ : ∃ k, k = min length (rb.bufferSize - q.length) := ⟨_, rfl⟩
  have hlength : (if rb.bufferSize - q.length < length then rb.bufferSize - q.length else length) =
      k := by split <;> omega
  have hlen : (ptr.toList 0 k).length = k := Buf.length_toList ptr 0 k
  have hzero : (rb.readIndex + 0) % rb.bufferSize = rb.readIndex := Nat.mod_eq_of_lt hread
  have hsum : (rb.writeIndex + k) % rb.bufferSize = if rb.writeIndex + k < rb.bufferSize then
      rb.writeIndex + k else rb.writeIndex + k - rb.bufferSize := mod_of_lt_two_mul (by omega)
  rw [hlength, ← hk]
  split
  case isTrue hfront =>
    rw [if_pos (by omega)] at hsum
    refine ⟨rfl, h.advance (m := 0) (Nat.zero_le _) (by rw [hlen]; omega) rfl ?_ hzero.symm ?_ ?_,
      rfl⟩
    · exact copy_eq_ringWrite (by omega)
    · rw [hlen, hsum]
    · rw [hlen]
      dsimp only
      rw [hmirror]
      split at hwrite <;> omega
  case isFalse haround =>
    rw [if_neg (by omega)] at hsum
    refine ⟨rfl, h.advance (m := 0) (Nat.zero_le _) (by rw [hlen]; omega) rfl ?_ hzero.symm ?_ ?_,
      rfl⟩
    · exact copyAround_eq_ringWrite hwritelt (by omega) (by omega)
    · rw [hlen, hsum]
      dsimp only
      omega
    · rw [hlen]
      dsimp only
      rw [not_eq_iff, hmirror]
      split at hwrite <;> omega

/-- A forced write keeps the last bytes that fit. -/
theorem rtRingbufferPutForce_spec (h : Queues rb q) (ptr : Buf) (length : Nat) :
    (rtRingbufferPutForce rb ptr length).1 = min length rb.bufferSize ∧
      Queues (rtRingbufferPutForce rb ptr length).2
        (q.drop (q.length + min length rb.bufferSize - rb.bufferSize) ++
          ptr.toList (length - rb.bufferSize) (min length rb.bufferSize)) ∧
      (rtRingbufferPutForce rb ptr length).2.bufferSize = rb.bufferSize := by
  have hdata := rtRingbufferDataLen_eq h
  have hread := h.read
  have hle := h.le
  have hsize := h.size
  have hwrite := h.write_eq
  have hwritelt := h.write_lt
  have hmirror := h.mirror
  unfold rtRingbufferPutForce rtRingbufferSpaceLen
  dsimp only
  rw [hdata]
  obtain ⟨k, hk⟩ : ∃ k, k = min length rb.bufferSize := ⟨_, rfl⟩
  obtain ⟨m, hm⟩ : ∃ m, m = q.length + k - rb.bufferSize := ⟨_, rfl⟩
  obtain ⟨src, hsrc⟩ : ∃ src, src =
    if rb.bufferSize < length then ptr.drop (length - rb.bufferSize) else ptr := ⟨_, rfl⟩
  have hlength : (if rb.bufferSize < length then rb.bufferSize else length) = k := by
    split <;> omega
  have hsrclist : ptr.toList (length - rb.bufferSize) k = src.toList 0 k := by
    rw [hsrc]
    split
    · rw [Buf.toList_drop, Nat.add_zero]
    · rw [show length - rb.bufferSize = 0 by omega]
  have hlen : (src.toList 0 k).length = k := Buf.length_toList src 0 k
  have hwsum : (rb.writeIndex + k) % rb.bufferSize = if rb.writeIndex + k < rb.bufferSize then
      rb.writeIndex + k else rb.writeIndex + k - rb.bufferSize := mod_of_lt_two_mul (by omega)
  have hrsum : (rb.readIndex + m) % rb.bufferSize = if rb.readIndex + m < rb.bufferSize then
      rb.readIndex + m else rb.readIndex + m - rb.bufferSize := mod_of_lt_two_mul (by omega)
  rw [hlength, ← hsrc, ← hk, ← hm, hsrclist]
  split
  case isTrue hfront =>
    rw [if_pos (by omega)] at hwsum
    refine ⟨rfl, h.advance (by omega) (by rw [hlen]; omega) rfl ?_ ?_ ?_ ?_, rfl⟩
    · exact copy_eq_ringWrite (by omega)
    · rw [hrsum]
      dsimp only
      split at hwrite <;> split <;> split <;> omega
    · rw [hlen, hwsum]
    · rw [hlen]
      dsimp only
      rw [hmirror]
      split at hwrite <;> split <;> omega
  case isFalse haround =>
    rw [if_neg (by omega)] at hwsum
    refine ⟨rfl, h.advance (by omega) (by rw [hlen]; omega) rfl ?_ ?_ ?_ ?_, rfl⟩
    · exact copyAround_eq_ringWrite hwritelt (by omega) (by omega)
    · rw [hrsum]
      dsimp only
      split at hwrite <;> split <;> split <;> omega
    · rw [hlen, hwsum]
      dsimp only
      omega
    · rw [hlen]
      dsimp only
      by_cases hflip : rb.bufferSize - q.length < k ∧
          k - (rb.bufferSize - rb.writeIndex) ≤ rb.readIndex
      · -- the oldest byte left is on the other side of the mirror now
        rw [if_pos hflip, if_pos hflip.1, not_eq_iff, eq_not_iff, not_not, hmirror]
        split at hwrite <;> omega
      · rw [if_neg hflip, not_eq_iff, hmirror]
        split at hwrite <;> split <;> omega

/-- A byte is added where there is room. -/
theorem rtRingbufferPutchar_spec (h : Queues rb q) (ch : UInt8) :
    (rtRingbufferPutchar rb ch).1 = (if q.length < rb.bufferSize then 1 else 0) ∧
      Queues (rtRingbufferPutchar rb ch).2 (if q.length < rb.bufferSize then q ++ [ch] else q) ∧
      (rtRingbufferPutchar rb ch).2.bufferSize = rb.bufferSize := by
  have hdata := rtRingbufferDataLen_eq h
  have hread := h.read
  have hle := h.le
  have hwrite := h.write_eq
  have hwritelt := h.write_lt
  have hmirror := h.mirror
  have hset : rb.bufferPtr.set rb.writeIndex ch =
      ringWrite rb.bufferSize rb.bufferPtr rb.writeIndex [ch] := by
    rw [ringWrite, ringWrite, Nat.mod_eq_of_lt hwritelt]
    rfl
  have hzero : (rb.readIndex + 0) % rb.bufferSize = rb.readIndex := Nat.mod_eq_of_lt hread
  unfold rtRingbufferPutchar rtRingbufferSpaceLen
  dsimp only
  rw [hdata]
  by_cases hspace : q.length < rb.bufferSize
  · rw [if_neg (by omega), if_pos hspace, if_pos hspace]
    have hfit : q.length - 0 + [ch].length ≤ rb.bufferSize := hspace
    split
    case isTrue hlast =>
      refine ⟨rfl, h.advance (m := 0) (Nat.zero_le _) hfit rfl hset hzero.symm ?_ ?_, rfl⟩
      · rw [List.length_singleton, hlast, Nat.mod_self]
      · dsimp only [List.length_singleton]
        rw [not_eq_iff, hmirror]
        split at hwrite <;> omega
    case isFalse hlast =>
      refine ⟨rfl, h.advance (m := 0) (Nat.zero_le _) hfit rfl hset hzero.symm ?_ ?_, rfl⟩
      · rw [List.length_singleton, Nat.mod_eq_of_lt (by omega)]
      · dsimp only [List.length_singleton]
        rw [hmirror]
        split at hwrite <;> omega
  · rw [if_pos (by omega), if_neg hspace, if_neg hspace]
    exact ⟨rfl, h, rfl⟩

/-- A forced byte is always added, and pushes the oldest one out of a full queue. -/
theorem rtRingbufferPutcharForce_spec (h : Queues rb q) (ch : UInt8) :
    (rtRingbufferPutcharForce rb ch).1 = 1 ∧
      Queues (rtRingbufferPutcharForce rb ch).2
        (q.drop (q.length + 1 - rb.bufferSize) ++ [ch]) ∧
      (rtRingbufferPutcharForce rb ch).2.bufferSize = rb.bufferSize := by
  have hfull := rtRingbufferStatus_full_iff h
  have hread := h.read
  have hle := h.le
  have hwrite := h.write_eq
  have hwritelt := h.write_lt
  have hmirror := h.mirror
  have hset : rb.bufferPtr.set rb.writeIndex ch =
      ringWrite rb.bufferSize rb.bufferPtr rb.writeIndex [ch] := by
    rw [ringWrite, ringWrite, Nat.mod_eq_of_lt hwritelt]
    rfl
  obtain ⟨m, hm⟩ : ∃ m, m = q.length + 1 - rb.bufferSize := ⟨_, rfl⟩
  have hrsum : (rb.readIndex + m) % rb.bufferSize = if rb.readIndex + m < rb.bufferSize then
      rb.readIndex + m else rb.readIndex + m - rb.bufferSize := mod_of_lt_two_mul (by omega)
  have hfit : q.length - m + [ch].length ≤ rb.bufferSize := by
    rw [List.length_singleton]
    omega
  unfold rtRingbufferPutcharForce
  dsimp only
  rw [← hm]
  simp only [hfull]
  split
  case isTrue hlast =>
    refine ⟨rfl, h.advance (by omega) hfit rfl hset ?_ ?_ ?_, rfl⟩
    · rw [hrsum]
      dsimp only
      split at hwrite <;> split <;> split <;> omega
    · rw [List.length_singleton, hlast, Nat.mod_self]
    · dsimp only [List.length_singleton]
      by_cases hq : q.length = rb.bufferSize
      · rw [if_pos hq, if_pos hq, not_eq_iff, eq_not_iff, not_not, hmirror]
        split at hwrite <;> omega
      · rw [if_neg hq, if_neg hq, not_eq_iff, hmirror]
        split at hwrite <;> omega
  case isFalse hlast =>
    refine ⟨rfl, h.advance (by omega) hfit rfl hset ?_ ?_ ?_, rfl⟩
    · rw [hrsum]
      dsimp only
      split at hwrite <;> split <;> split <;> omega
    · rw [List.length_singleton, Nat.mod_eq_of_lt (by omega)]
    · dsimp only [List.length_singleton]
      rw [hmirror]
      split at hwrite <;> split <;> omega

/-! ## Reading -/

/-- Bytes taken in front. -/
theorem Queues.taken (h : Queues rb q) {m : Nat} (hm : m ≤ q.length)
    (hsize : rb'.bufferSize = rb.bufferSize) (hbuf : rb'.bufferPtr = rb.bufferPtr)
    (hread : rb'.readIndex = (rb.readIndex + m) % rb.bufferSize)
    (hwrite : rb'.writeIndex = rb.writeIndex)
    (hmirror : rb'.writeMirror = rb'.readMirror ↔
      rb'.readIndex + (q.length - m) < rb.bufferSize) : Queues rb' (q.drop m) := by
  have hle := h.le
  have hadvance := h.advance hm
    (show q.length - m + ([] : List UInt8).length ≤ _ by rw [List.length_nil]; omega) hsize hbuf hread
    (by rw [hwrite, List.length_nil, Nat.add_zero, Nat.mod_eq_of_lt h.write_lt]) hmirror
  rwa [List.append_nil] at hadvance

/-- A queue that does not go around the end is a stretch of the buffer. -/
theorem ringList_toList {N r n : Nat} {b : Buf} (h : r + n ≤ N) : ringList N b r n = b.toList r n :=
  ringList_of_le h

/-- A get takes the oldest bytes, as many as there are. -/
theorem rtRingbufferGet_spec (h : Queues rb q) (ptr : Buf) (length : Nat) :
    (rtRingbufferGet rb ptr length).1 = min length q.length ∧
      (rtRingbufferGet rb ptr length).2.1.toList 0 (min length q.length) = q.take length ∧
      Queues (rtRingbufferGet rb ptr length).2.2 (q.drop length) ∧
      (rtRingbufferGet rb ptr length).2.2.bufferSize = rb.bufferSize := by
  have hdata := rtRingbufferDataLen_eq h
  have hread := h.read
  have hle := h.le
  have hwrite := h.write_eq
  have hmirror := h.mirror
  unfold rtRingbufferGet
  dsimp only
  rw [hdata]
  by_cases hempty : q.length = 0
  · have hq : q = [] := List.length_eq_zero_iff.mp hempty
    rw [if_pos hempty, hempty, Nat.min_zero, hq]
    rw [hq] at h
    exact ⟨rfl, by simp, by simpa using h, rfl⟩
  rw [if_neg hempty]
  obtain ⟨k, hk⟩ : ∃ k, k = min length q.length := ⟨_, rfl⟩
  have hlength : (if q.length < length then q.length else length) = k := by
    split <;> omega
  have htake : q.take length = ringList rb.bufferSize rb.bufferPtr rb.readIndex k := by
    rw [ringList_take (n := q.length) (by omega), h.list, hk, List.take_eq_take_iff]
    omega
  have hdrop : q.drop length = q.drop k := by
    rw [hk]
    rcases Nat.le_total length q.length with hlen | hlen
    · rw [Nat.min_eq_left hlen]
    · rw [Nat.min_eq_right hlen, List.drop_of_length_le hlen, List.drop_length]
  have hsum : (rb.readIndex + k) % rb.bufferSize = if rb.readIndex + k < rb.bufferSize then
      rb.readIndex + k else rb.readIndex + k - rb.bufferSize := mod_of_lt_two_mul (by omega)
  rw [hlength, ← hk, htake, hdrop]
  split
  case isTrue hfront =>
    rw [if_pos (by omega)] at hsum
    refine ⟨rfl, ?_, h.taken (by omega) rfl rfl hsum.symm rfl ?_, rfl⟩
    · rw [Buf.toList_copy_self, Buf.toList_drop, Nat.add_zero, ringList_toList (by omega)]
    · dsimp only
      rw [hmirror]
      omega
  case isFalse haround =>
    rw [if_neg (by omega)] at hsum
    obtain ⟨j, rfl⟩ := Nat.exists_eq_add_of_le (show rb.bufferSize - rb.readIndex ≤ k by omega)
    refine ⟨rfl, ?_, h.taken (by omega) rfl rfl ?_ rfl ?_, rfl⟩
    · have hend : rb.readIndex + (rb.bufferSize - rb.readIndex) = rb.bufferSize := by omega
      rw [Nat.add_sub_cancel_left, Buf.toList_copy, Buf.toList_copy_self, Buf.toList_drop,
        Nat.add_zero, ringList_add, hend, ringList_toList (by omega),
        ← ringList_mod (r := rb.bufferSize), Nat.mod_self, ringList_toList (by omega)]
    · rw [hsum]
      dsimp only
      omega
    · dsimp only
      rw [eq_not_iff, hmirror]
      omega

/-- `rt_ringbuffer_peak` takes the bytes up to the end of the buffer. -/
theorem rtRingbufferPeak_spec (h : Queues rb q) :
    (q = [] ∧ rtRingbufferPeak rb = (0, none, rb)) ∨
      ∃ k, 0 < k ∧ k ≤ q.length ∧ (rtRingbufferPeak rb).1 = k ∧
        (rtRingbufferPeak rb).2.1 = some rb.readIndex ∧
        rb.bufferPtr.toList rb.readIndex k = q.take k ∧
        Queues (rtRingbufferPeak rb).2.2 (q.drop k) ∧
        (rtRingbufferPeak rb).2.2.bufferSize = rb.bufferSize ∧
        (rtRingbufferPeak rb).2.2.bufferPtr = rb.bufferPtr := by
  have hdata := rtRingbufferDataLen_eq h
  have hread := h.read
  have hle := h.le
  have hmirror := h.mirror
  unfold rtRingbufferPeak
  dsimp only
  rw [hdata]
  by_cases hempty : q.length = 0
  · left
    rw [if_pos hempty]
    exact ⟨List.length_eq_zero_iff.mp hempty, rfl⟩
  right
  have htake : ∀ k, k ≤ q.length → rb.readIndex + k ≤ rb.bufferSize →
      rb.bufferPtr.toList rb.readIndex k = q.take k := by
    intro k hk hend
    rw [← ringList_toList hend, ringList_take hk, h.list]
  rw [if_neg hempty]
  split
  case isTrue hfront =>
    refine ⟨q.length, by omega, Nat.le_refl _, rfl, rfl, htake _ (Nat.le_refl _) (by omega), ?_,
      rfl, rfl⟩
    refine h.taken (Nat.le_refl _) rfl rfl ?_ rfl ?_
    · exact (Nat.mod_eq_of_lt (show rb.readIndex + q.length < rb.bufferSize by omega)).symm
    · dsimp only
      rw [hmirror]
      omega
  case isFalse haround =>
    refine ⟨rb.bufferSize - rb.readIndex, by omega, by omega, rfl, rfl,
      htake _ (by omega) (by omega), ?_, rfl, rfl⟩
    refine h.taken (by omega) rfl rfl ?_ rfl ?_
    · rw [Nat.add_sub_cancel' (Nat.le_of_lt hread), Nat.mod_self]
    · dsimp only
      rw [eq_not_iff, hmirror]
      omega

/-- The oldest byte is taken, if there is one. -/
theorem rtRingbufferGetchar_spec (h : Queues rb q) :
    (rtRingbufferGetchar rb).1 = q.head? ∧ Queues (rtRingbufferGetchar rb).2 q.tail ∧
      (rtRingbufferGetchar rb).2.bufferSize = rb.bufferSize := by
  have hdata := rtRingbufferDataLen_eq h
  have hread := h.read
  have hle := h.le
  have hmirror := h.mirror
  unfold rtRingbufferGetchar
  dsimp only
  rw [hdata]
  by_cases hempty : q.length = 0
  · have hq : q = [] := List.length_eq_zero_iff.mp hempty
    rw [if_pos hempty, hq]
    rw [hq] at h
    exact ⟨rfl, h, rfl⟩
  have hhead : q.head? = some (rb.bufferPtr rb.readIndex) := by
    rw [← h.list, List.head?_eq_getElem?, getElem?_ringList (by omega), Nat.add_zero,
      Nat.mod_eq_of_lt hread]
  rw [if_neg hempty, hhead, ← List.drop_one]
  split
  case isTrue hlast =>
    refine ⟨rfl, h.taken (by omega) rfl rfl ?_ rfl ?_, rfl⟩
    · rw [hlast, Nat.mod_self]
    · dsimp only
      rw [eq_not_iff, hmirror]
      omega
  case isFalse hlast =>
    refine ⟨rfl, h.taken (by omega) rfl rfl ?_ rfl ?_, rfl⟩
    · exact (Nat.mod_eq_of_lt (show rb.readIndex + 1 < rb.bufferSize by omega)).symm
    · dsimp only
      rw [hmirror]
      omega

/-- A reset empties the queue. -/
theorem rtRingbufferReset_spec (h : Queues rb q) : Queues (rtRingbufferReset rb) [] :=
  ⟨h.size, h.size, Nat.zero_le _, (Nat.zero_mod _).symm, iff_of_true rfl h.size, rfl⟩

/-- A buffer that was just set up is an empty queue. -/
theorem rtRingbufferInit_queues (pool : Buf) {size : Nat} (h : 4 ≤ size) :
    Queues (rtRingbufferInit pool size) [] := by
  have hpos : 0 < size / 4 * 4 := Nat.mul_pos (Nat.div_pos h (by decide)) (by decide)
  exact ⟨hpos, hpos, Nat.zero_le _, (Nat.zero_mod _).symm, iff_of_true rfl hpos, rfl⟩

end Steps

end HpmSdk.Rtt
