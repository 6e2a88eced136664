import HpmSdk.Foundation.LittleEndian
import HpmSdk.Foundation.Wrap

set_option autoImplicit false

/-!
# The small memory heap (`rt-thread/src/mem.c`)

The heap is one array of bytes.  Every block starts with a `struct heap_mem` of 12 bytes that has
the places of the next and the previous block; the bytes behind it belong to whoever allocated the
block.  `heap_ptr` is the address of byte 0, places are offsets from it.

`RT_ALIGN_SIZE` is 4, `rt_size_t` has 32 bits, there is no `RT_USING_MEMTRACE`.  A loop has an
explicit number of passes, and a call whose loops need more gives `none`.
-/

namespace HpmSdk.Rtt

open Foundation

/-- `RT_NULL`. -/
def rtNull : Nat := 0

/-- `HEAP_MAGIC`. -/
def heapMagic : Nat := 0x1ea0

/-- `SIZEOF_STRUCT_MEM`. -/
def sizeofStructMem : Nat := 12

/-- `MIN_SIZE`. -/
def minSize : Nat := 12

/-- `RT_ALIGN(size, RT_ALIGN_SIZE)`. -/
def rtAlign (size : Nat) : Nat := addMod 32 size 3 / 4 * 4

/-- `RT_ALIGN_DOWN(size, RT_ALIGN_SIZE)`. -/
def rtAlignDown (size : Nat) : Nat := size / 4 * 4

/-- `MIN_SIZE_ALIGNED`. -/
def minSizeAligned : Nat := rtAlign minSize

/-- `struct heap_mem`. -/
structure HeapMem where
  magic : Nat
  used : Nat
  next : Nat
  prev : Nat
  deriving DecidableEq, Repr

/-- The `struct heap_mem` at a place. -/
def heapMem (ram : Buf) (a : Nat) : HeapMem where
  magic := leVal ram a 2
  used := leVal ram (a + 2) 2
  next := leVal ram (a + 4) 4
  prev := leVal ram (a + 8) 4

/-- `mem->magic = v`. -/
def setMagic (ram : Buf) (a v : Nat) : Buf := storeLe ram a 2 v

/-- `mem->used = v`. -/
def setUsed (ram : Buf) (a v : Nat) : Buf := storeLe ram (a + 2) 2 v

/-- `mem->next = v`. -/
def setNext (ram : Buf) (a v : Nat) : Buf := storeLe ram (a + 4) 4 v

/-- `mem->prev = v`. -/
def setPrev (ram : Buf) (a v : Nat) : Buf := storeLe ram (a + 8) 4 v

/-- The variables of `mem.c`: the bytes of the heap with the address of the first one, and
`heap_end` and `lfree` by their places. -/
structure SmallMem where
  ram : Buf
  heapPtr : Nat
  heapEnd : Nat
  lfree : Nat
  memSizeAligned : Nat
  usedMem : Nat
  maxMem : Nat

/-- `plug_holes`, the part that plugs forward. -/
def plugForward (s : SmallMem) (mem : Nat) : SmallMem :=
  let nmem := (heapMem s.ram mem).next
  if mem ≠ nmem ∧ (heapMem s.ram nmem).used = 0 ∧ nmem ≠ s.heapEnd then
    let ram := setNext s.ram mem (heapMem s.ram nmem).next
    { s with
      lfree := if s.lfree = nmem then mem else s.lfree
      ram := setPrev ram (heapMem ram nmem).next mem }
  else s

/-- `plug_holes`, the part that plugs backward. -/
def plugBackward (s : SmallMem) (mem : Nat) : SmallMem :=
  let pmem := (heapMem s.ram mem).prev
  if pmem ≠ mem ∧ (heapMem s.ram pmem).used = 0 then
    let ram := setNext s.ram pmem (heapMem s.ram mem).next
    { s with
      lfree := if s.lfree = mem then pmem else s.lfree
      ram := setPrev ram (heapMem ram mem).next pmem }
  else s

/-- `plug_holes`. -/
def plugHoles (s : SmallMem) (mem : Nat) : SmallMem := plugBackward (plugForward s mem) mem

/-- `rt_system_heap_init` on an area with given bytes; `none` where it only prints the error. -/
def rtSystemHeapInit (ram : Buf) (beginAddr endAddr : Nat) : Option SmallMem :=
  let beginAlign := rtAlign beginAddr
  let endAlign := rtAlignDown endAddr
  if 2 * sizeofStructMem < endAlign ∧ beginAlign ≤ endAlign - 2 * sizeofStructMem then
    let memSizeAligned := endAlign - beginAlign - 2 * sizeofStructMem
    let heapEnd := memSizeAligned + sizeofStructMem
    let ram := setMagic ram 0 heapMagic
    let ram := setNext ram 0 heapEnd
    let ram := setPrev ram 0 0
    let ram := setUsed ram 0 0
    let ram := setMagic ram heapEnd heapMagic
    let ram := setUsed ram heapEnd 1
    let ram := setNext ram heapEnd heapEnd
    let ram := setPrev ram heapEnd heapEnd
    some { ram, heapPtr := beginAlign, heapEnd, lfree := 0, memSizeAligned, usedMem := 0, maxMem := 0 }
  else none

/-- The size of the user data of the block at a place. -/
def userSize (ram : Buf) (ptr : Nat) : Nat :=
  subMod 32 (heapMem ram ptr).next (addMod 32 ptr sizeofStructMem)

/-- The loop of `rt_malloc` up to the first block that is large enough. -/
def findFit (s : SmallMem) (size : Nat) : Nat → Nat → Option (Option Nat)
  | 0, _ => none
  | fuel + 1, ptr =>
    if ptr < subMod 32 s.memSizeAligned size then
      if (heapMem s.ram ptr).used = 0 ∧ size ≤ userSize s.ram ptr then some (some ptr)
      else findFit s size fuel (heapMem s.ram ptr).next
    else some none

/-- `used_mem += n`, and the new `max_mem`. -/
def countUsed (s : SmallMem) (n : Nat) : SmallMem :=
  let usedMem := addMod 32 s.usedMem n
  { s with usedMem, maxMem := if s.maxMem < usedMem then usedMem else s.maxMem }

/-- A new free block at `ptr2`, between the one at `ptr` and the next one. -/
def insertMem (s : SmallMem) (ptr ptr2 : Nat) : SmallMem :=
  let ram := setMagic s.ram ptr2 heapMagic
  let ram := setUsed ram ptr2 0
  let ram := setNext ram ptr2 (heapMem ram ptr).next
  let ram := setPrev ram ptr2 ptr
  let ram := setNext ram ptr ptr2
  { s with ram }

/-- The link back from the block behind the new one, unless that is the end of the heap. -/
def linkBack (s : SmallMem) (ptr2 : Nat) : SmallMem :=
  let next := (heapMem s.ram ptr2).next
  if next ≠ s.memSizeAligned + sizeofStructMem then { s with ram := setPrev s.ram next ptr2 } else s

/-- What `rt_malloc` does with the block that it found: split it or take it whole. -/
def takeBlock (s : SmallMem) (ptr size : Nat) : SmallMem :=
  let s :=
    if size + sizeofStructMem + minSizeAligned ≤ userSize s.ram ptr then
      let ptr2 := ptr + sizeofStructMem + size
      let s := insertMem s ptr ptr2
      let s := { s with ram := setUsed s.ram ptr 1 }
      countUsed (linkBack s ptr2) (size + sizeofStructMem)
    else
      let s := { s with ram := setUsed s.ram ptr 1 }
      countUsed s (subMod 32 (heapMem s.ram ptr).next ptr)
  { s with ram := setMagic s.ram ptr heapMagic }

/-- `while (lfree->used && lfree != heap_end) lfree = lfree->next`. -/
def nextFree (s : SmallMem) : Nat → Nat → Option Nat
  | 0, _ => none
  | fuel + 1, lfree =>
    if (heapMem s.ram lfree).used ≠ 0 ∧ lfree ≠ s.heapEnd then
      nextFree s fuel (heapMem s.ram lfree).next
    else some lfree

/-- `rt_malloc`. -/
def rtMalloc (fuel : Nat) (s : SmallMem) (size : Nat) : Option (Nat × SmallMem) :=
  if size = 0 then some (rtNull, s)
  else
    let size := rtAlign size
    if s.memSizeAligned < size then some (rtNull, s)
    else
      let size := if size < minSizeAligned then minSizeAligned else size
      match findFit s size fuel s.lfree with
      | none => none
      | some none => some (rtNull, s)
      | some (some ptr) =>
        let t := takeBlock s ptr size
        let result := s.heapPtr + ptr + sizeofStructMem
        if ptr = t.lfree then
          (nextFree t fuel t.lfree).map fun lfree => (result, { t with lfree })
        else some (result, t)

/-- `rt_free`. -/
def rtFree (s : SmallMem) (rmem : Nat) : SmallMem :=
  if rmem = rtNull then s
  else if rmem < s.heapPtr ∨ s.heapPtr + s.heapEnd ≤ rmem then s
  else
    let mem := rmem - sizeofStructMem - s.heapPtr
    let s := { s with ram := setMagic (setUsed s.ram mem 0) mem heapMagic }
    let s := { s with lfree := if mem < s.lfree then mem else s.lfree }
    let s := { s with usedMem := subMod 32 s.usedMem (subMod 32 (heapMem s.ram mem).next mem) }
    plugHoles s mem

/-- The part of `rt_realloc` that splits a block in place. -/
def shrinkBlock (s : SmallMem) (ptr size newsize : Nat) : SmallMem :=
  let s := { s with usedMem := subMod 32 s.usedMem (size - newsize) }
  let ptr2 := ptr + sizeofStructMem + newsize
  let s := linkBack (insertMem s ptr ptr2) ptr2
  let s := { s with lfree := if ptr2 < s.lfree then ptr2 else s.lfree }
  plugHoles s ptr2

/-- `rt_realloc`. -/
def rtRealloc (fuel : Nat) (s : SmallMem) (rmem newsize : Nat) : Option (Nat × SmallMem) :=
  let newsize := rtAlign newsize
  if s.memSizeAligned < newsize then some (rtNull, s)
  else if newsize = 0 then some (rtNull, rtFree s rmem)
  else if rmem = rtNull then rtMalloc fuel s newsize
  else if rmem < s.heapPtr ∨ s.heapPtr + s.heapEnd ≤ rmem then some (rmem, s)
  else
    let ptr := rmem - sizeofStructMem - s.heapPtr
    let size := userSize s.ram ptr
    if size = newsize then some (rmem, s)
    else if newsize + sizeofStructMem + minSize < size then
      some (rmem, shrinkBlock s ptr size newsize)
    else
      (rtMalloc fuel s newsize).map fun (nmem, t) =>
        if nmem ≠ rtNull then
          let ram := t.ram.copy (nmem - t.heapPtr) (t.ram.drop (rmem - t.heapPtr))
            (if size < newsize then size else newsize)
          (nmem, rtFree { t with ram } rmem)
        else (nmem, t)

/-- `rt_calloc`. -/
def rtCalloc (fuel : Nat) (s : SmallMem) (count size : Nat) : Option (Nat × SmallMem) :=
  let bytes := count * size % 2 ^ 32
  (rtMalloc fuel s bytes).map fun (p, t) =>
    if p ≠ rtNull then (p, { t with ram := t.ram.fill (p - t.heapPtr) 0 bytes }) else (p, t)

/-- `rt_memory_info`: the total, the used and the largest used size. -/
def rtMemoryInfo (s : SmallMem) : Nat × Nat × Nat := (s.memSizeAligned, s.usedMem, s.maxMem)

end HpmSdk.Rtt
