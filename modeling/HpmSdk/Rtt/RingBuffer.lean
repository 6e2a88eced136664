import HpmSdk.Foundation.Bytes

set_option autoImplicit false

/-!
# The ring buffer (`rt-thread/components/drivers/src/ringbuffer.c`)

Both indices have a mirror bit that flips when the index goes around.  Where the indices agree the
buffer is empty if the bits agree as well, and full otherwise.  The sizes are small enough that no
index or length leaves its 15 bits.
-/

namespace HpmSdk.Rtt

open Foundation

/-- `struct rt_ringbuffer`; `buffer_ptr` is the bytes that it points to. -/
structure RtRingbuffer where
  bufferPtr : Buf
  readMirror : Bool
  readIndex : Nat
  writeMirror : Bool
  writeIndex : Nat
  bufferSize : Nat

/-- `enum rt_ringbuffer_state`. -/
inductive RtRingbufferState where
  | empty
  | full
  | halfFull
  deriving DecidableEq, Repr

/-- `rt_ringbuffer_status`. -/
def rtRingbufferStatus (rb : RtRingbuffer) : RtRingbufferState :=
  if rb.readIndex = rb.writeIndex then
    if rb.readMirror = rb.writeMirror then .empty else .full
  else .halfFull

/-- `rt_ringbuffer_data_len`. -/
def rtRingbufferDataLen (rb : RtRingbuffer) : Nat :=
  match rtRingbufferStatus rb with
  | .empty => 0
  | .full => rb.bufferSize
  | .halfFull =>
    if rb.readIndex < rb.writeIndex then rb.writeIndex - rb.readIndex
    else rb.bufferSize - (rb.readIndex - rb.writeIndex)

/-- `rt_ringbuffer_space_len`. -/
def rtRingbufferSpaceLen (rb : RtRingbuffer) : Nat := rb.bufferSize - rtRingbufferDataLen rb

/-- `rt_ringbuffer_init`. -/
def rtRingbufferInit (pool : Buf) (size : Nat) : RtRingbuffer where
  bufferPtr := pool
  readMirror := false
  readIndex := 0
  writeMirror := false
  writeIndex := 0
  bufferSize := size / 4 * 4

/-- `rt_ringbuffer_reset`. -/
def rtRingbufferReset (rb : RtRingbuffer) : RtRingbuffer :=
  { rb with readMirror := false, readIndex := 0, writeMirror := false, writeIndex := 0 }

/-- The two `memcpy` of a write that reaches the end of the buffer. -/
def copyAround (rb : RtRingbuffer) (ptr : Buf) (length : Nat) : Buf :=
  let front := rb.bufferSize - rb.writeIndex
  (rb.bufferPtr.copy rb.writeIndex ptr front).copy 0 (ptr.drop front) (length - front)

/-- `rt_ringbuffer_put`. -/
def rtRingbufferPut (rb : RtRingbuffer) (ptr : Buf) (length : Nat) : Nat × RtRingbuffer :=
  let size := rtRingbufferSpaceLen rb
  if size = 0 then (0, rb)
  else
    let length := if size < length then size else length
    if length < rb.bufferSize - rb.writeIndex then
      (length, { rb with
        bufferPtr := rb.bufferPtr.copy rb.writeIndex ptr length
        writeIndex := rb.writeIndex + length })
    else
      (length, { rb with
        bufferPtr := copyAround rb ptr length
        writeMirror := !rb.writeMirror
        writeIndex := length - (rb.bufferSize - rb.writeIndex) })

/-- `rt_ringbuffer_put_force`. -/
def rtRingbufferPutForce (rb : RtRingbuffer) (ptr : Buf) (length : Nat) : Nat × RtRingbuffer :=
  let spaceLength := rtRingbufferSpaceLen rb
  let ptr := if rb.bufferSize < length then ptr.drop (length - rb.bufferSize) else ptr
  let length := if rb.bufferSize < length then rb.bufferSize else length
  if length < rb.bufferSize - rb.writeIndex then
    let writeIndex := rb.writeIndex + length
    (length, { rb with
      bufferPtr := rb.bufferPtr.copy rb.writeIndex ptr length
      writeIndex
      readIndex := if spaceLength < length then writeIndex else rb.readIndex })
  else
    let writeIndex := length - (rb.bufferSize - rb.writeIndex)
    (length, { rb with
      bufferPtr := copyAround rb ptr length
      writeMirror := !rb.writeMirror
      writeIndex
      readMirror :=
        if spaceLength < length ∧ writeIndex ≤ rb.readIndex then !rb.readMirror else rb.readMirror
      readIndex := if spaceLength < length then writeIndex else rb.readIndex })

/-- `rt_ringbuffer_get`, with the buffer that `ptr` points to. -/
def rtRingbufferGet (rb : RtRingbuffer) (ptr : Buf) (length : Nat) : Nat × Buf × RtRingbuffer :=
  let size := rtRingbufferDataLen rb
  if size = 0 then (0, ptr, rb)
  else
    let length := if size < length then size else length
    if length < rb.bufferSize - rb.readIndex then
      (length, ptr.copy 0 (rb.bufferPtr.drop rb.readIndex) length,
        { rb with readIndex := rb.readIndex + length })
    else
      let front := rb.bufferSize - rb.readIndex
      (length, (ptr.copy 0 (rb.bufferPtr.drop rb.readIndex) front).copy front rb.bufferPtr
          (length - front),
        { rb with readMirror := !rb.readMirror, readIndex := length - front })

/-- `rt_ringbuffer_peak`: the number of bytes, and the place that `*ptr` is set to, if any. -/
def rtRingbufferPeak (rb : RtRingbuffer) : Nat × Option Nat × RtRingbuffer :=
  let size := rtRingbufferDataLen rb
  if size = 0 then (0, none, rb)
  else if size < rb.bufferSize - rb.readIndex then
    (size, some rb.readIndex, { rb with readIndex := rb.readIndex + size })
  else
    (rb.bufferSize - rb.readIndex, some rb.readIndex,
      { rb with readMirror := !rb.readMirror, readIndex := 0 })

/-- `rt_ringbuffer_putchar`. -/
def rtRingbufferPutchar (rb : RtRingbuffer) (ch : UInt8) : Nat × RtRingbuffer :=
  if rtRingbufferSpaceLen rb = 0 then (0, rb)
  else
    let bufferPtr := rb.bufferPtr.set rb.writeIndex ch
    if rb.writeIndex + 1 = rb.bufferSize then
      (1, { rb with bufferPtr, writeMirror := !rb.writeMirror, writeIndex := 0 })
    else (1, { rb with bufferPtr, writeIndex := rb.writeIndex + 1 })

/-- `rt_ringbuffer_putchar_force`. -/
def rtRingbufferPutcharForce (rb : RtRingbuffer) (ch : UInt8) : Nat × RtRingbuffer :=
  let oldState := rtRingbufferStatus rb
  let bufferPtr := rb.bufferPtr.set rb.writeIndex ch
  if rb.writeIndex + 1 = rb.bufferSize then
    (1, { rb with
      bufferPtr
      writeMirror := !rb.writeMirror
      writeIndex := 0
      readMirror := if oldState = .full then !rb.readMirror else rb.readMirror
      readIndex := if oldState = .full then 0 else rb.readIndex })
  else
    (1, { rb with
      bufferPtr
      writeIndex := rb.writeIndex + 1
      readIndex := if oldState = .full then rb.writeIndex + 1 else rb.readIndex })

/-- `rt_ringbuffer_getchar`: the byte where there is one. -/
def rtRingbufferGetchar (rb : RtRingbuffer) : Option UInt8 × RtRingbuffer :=
  if rtRingbufferDataLen rb = 0 then (none, rb)
  else
    let ch := rb.bufferPtr rb.readIndex
    if rb.readIndex + 1 = rb.bufferSize then
      (some ch, { rb with readMirror := !rb.readMirror, readIndex := 0 })
    else (some ch, { rb with readIndex := rb.readIndex + 1 })

end HpmSdk.Rtt
