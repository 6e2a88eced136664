import HpmSdk.Enet.EthRx
import HpmSdk.Foundation.Bytes

set_option autoImplicit false

/-!
# ENET: the copy of a frame into a pbuf chain

The pbufs of a chain and the buffers of a frame are two ways to cut one string of bytes.  The
copy walks both: wherever it stands, so many bytes of the frame are copied, and the next ones are
those behind them.

`ethRxCopyChain_spec` says so for any chain and any frame in one string; the modules above supply
the string.
-/

namespace HpmSdk.Enet

open HpmSdk.Foundation

/-! ## Payloads -/

/-- The payload of a pbuf behind its copies. -/
def ethRxPayload (mem payload : Buf) (copies : List EthRxCopy) : Buf :=
  copies.foldl (fun payload c => payload.copy c.payloadOffset (mem.drop c.src) c.len) payload

/-- The payloads of a chain one after another, of pbufs given by length and by what they held. -/
def ethRxPayloads (mem : Buf) (pbufs : List (Nat × Buf)) (copies : List (List EthRxCopy)) :
    List UInt8 :=
  (List.zipWith (fun p cs => (ethRxPayload mem p.2 cs).toList 0 p.1) pbufs copies).flatten

/-- The copies into a chain write inside its pbufs. -/
def EthRxWritesWithin (lens : List Nat) (copies : List (List EthRxCopy)) : Prop :=
  List.Forall₂ (fun len cs => ∀ c ∈ cs, c.payloadOffset + c.len ≤ len) lens copies

/-! ## Where the copy stands -/

/-- The bytes of a frame whose segment `t` lies at `buffers t`. -/
def ethRxFrameBuf (mem : Buf) (buffers : Nat → Nat) : Buf := fun n =>
  mem (buffers (n / enetRxBuffSize) + n % enetRxBuffSize)

theorem enetRxBuffSize_pos : 0 < enetRxBuffSize := by decide

/-- Inside a segment the bytes of a frame are those of its buffer. -/
theorem ethRxFrameBuf_segment (mem : Buf) (buffers : Nat → Nat) {t x : Nat}
    (hx : x < enetRxBuffSize) :
    ethRxFrameBuf mem buffers (t * enetRxBuffSize + x) = mem (buffers t + x) := by
  unfold ethRxFrameBuf
  have hdiv : (t * enetRxBuffSize + x) / enetRxBuffSize = t := by
    rw [Nat.mul_comm, Nat.mul_add_div enetRxBuffSize_pos, Nat.div_eq_of_lt hx, Nat.add_zero]
  have hmod : (t * enetRxBuffSize + x) % enetRxBuffSize = x := by
    rw [Nat.mul_comm, Nat.mul_add_mod, Nat.mod_eq_of_lt hx]
  rw [hdiv, hmod]

/-- Two copies from one place on are one. -/
theorem copy_copy_drop (payload src : Buf) (o n a c : Nat) :
    (payload.copy o (src.drop n) a).copy (o + a) (src.drop (n + a)) c =
      payload.copy o (src.drop n) (a + c) := by
  funext i
  simp only [Buf.copy, Buf.drop]
  rcases Nat.lt_or_ge i (o + a) with hlt | hge
  · rw [if_neg (by omega)]
    by_cases ho : o ≤ i
    · rw [if_pos (by omega), if_pos (by omega)]
    · rw [if_neg (by omega), if_neg (by omega)]
  · by_cases hend : i < o + a + c
    · rw [if_pos (by omega), if_pos (by omega)]
      congr 1
      omega
    · rw [if_neg (by omega), if_neg (by omega), if_neg (by omega)]

/-- A copy depends on the bytes that it takes only. -/
theorem copy_congr {payload src src' : Buf} {o n : Nat} (h : ∀ i < n, src i = src' i) :
    payload.copy o src n = payload.copy o src' n := by
  funext i
  unfold Buf.copy
  by_cases hi : o ≤ i ∧ i < o + n
  · rw [if_pos hi, if_pos hi]
    exact h _ (by omega)
  · rw [if_neg hi, if_neg hi]

section Walk

-- the descriptors of a frame, one behind the other
variable (tab : Nat → EnetRxDesc) (ix : Nat → Nat)

/-- The copy stands behind `n` bytes of the frame, in the buffer of segment `t`. -/
structure EthRxAt (s : EthRxPos) (t n : Nat) : Prop where
  desc : s.dmaRxDesc = ix t
  buffer : s.buffer = (tab (ix t)).buffer1
  offset : s.bufferOffset ≤ enetRxBuffSize
  pos : t * enetRxBuffSize + s.bufferOffset = n

/-- A copy reads inside the buffer of a segment. -/
def EthRxReads (c : EthRxCopy) (u : Nat) : Prop :=
  (tab (ix u)).buffer1 ≤ c.src ∧ c.src + c.len ≤ (tab (ix u)).buffer1 + enetRxBuffSize

/-- What the copies into a stretch of a payload come to: the stretch holds the bytes of the frame
from `n` on, nothing else is written, and what is read lies in segments that the copy stood in or
that have bytes in front of the end. -/
structure EthRxCopied (copies : List EthRxCopy) (t n o left : Nat) : Prop where
  payload : ∀ mem payload : Buf, ethRxPayload mem payload copies =
    payload.copy o ((ethRxFrameBuf mem fun u => (tab (ix u)).buffer1).drop n) left
  writes : ∀ c ∈ copies, c.payloadOffset + c.len ≤ o + left
  reads : ∀ c ∈ copies, ∃ u, EthRxReads tab ix c u ∧ (u = t ∨ u * enetRxBuffSize < n + left)

variable {tab ix} {s : EthRxPos} {t n : Nat}

/-- The bytes that follow lie in the buffer, up to its end. -/
theorem EthRxAt.bytes (h : EthRxAt tab ix s t n) (mem : Buf) {i : Nat}
    (hi : s.bufferOffset + i < enetRxBuffSize) :
    mem.drop (s.buffer + s.bufferOffset) i =
      (ethRxFrameBuf mem fun u => (tab (ix u)).buffer1).drop n i := by
  simp only [Buf.drop]
  rw [← h.pos, Nat.add_assoc (t * enetRxBuffSize), ethRxFrameBuf_segment _ _ hi, h.buffer,
    Nat.add_assoc]

/-- One copy inside a buffer. -/
theorem EthRxAt.copied (h : EthRxAt tab ix s t n) (o : Nat) {left : Nat}
    (hleft : s.bufferOffset + left ≤ enetRxBuffSize) :
    EthRxCopied tab ix [⟨o, s.buffer + s.bufferOffset, left⟩] t n o left where
  payload := fun mem payload => copy_congr fun i hi =>
    h.bytes mem (Nat.lt_of_lt_of_le (Nat.add_lt_add_left hi _) hleft)
  writes := by
    intro c hc
    rw [List.mem_singleton.mp hc]
  reads := by
    intro c hc
    rw [List.mem_singleton.mp hc]
    refine ⟨t, ⟨?_, ?_⟩, Or.inl rfl⟩
    · rw [h.buffer]
      exact Nat.le_add_right _ _
    · rw [h.buffer]
      dsimp only
      omega

/-- The copies into two adjacent stretches. -/
theorem EthRxCopied.append {c : EthRxCopy} {copies : List EthRxCopy} {t o a left : Nat}
    (hfirst : EthRxCopied tab ix [c] t n o a)
    (hrest : EthRxCopied tab ix copies (t + 1) (n + a) (o + a) left)
    (hnext : (t + 1) * enetRxBuffSize < n + (a + left)) :
    EthRxCopied tab ix (c :: copies) t n o (a + left) where
  payload := by
    intro mem payload
    have hone := hfirst.payload mem payload
    have hall := hrest.payload mem (ethRxPayload mem payload [c])
    rw [hone, copy_copy_drop] at hall
    rw [← hall, ← hone]
    rfl
  writes := by
    intro c' hc'
    rcases List.mem_cons.mp hc' with rfl | hc'
    · have hwrites := hfirst.writes c' List.mem_cons_self
      omega
    · have hwrites := hrest.writes c' hc'
      omega
  reads := by
    intro c' hc'
    rcases List.mem_cons.mp hc' with rfl | hc'
    · obtain ⟨u, hreads, hu⟩ := hfirst.reads c' List.mem_cons_self
      exact ⟨u, hreads, hu.imp_right fun h => by omega⟩
    · obtain ⟨u, hreads, hu⟩ := hrest.reads c' hc'
      refine ⟨u, hreads, Or.inr ?_⟩
      rcases hu with rfl | hu
      · exact hnext
      · omega

/-- The place behind some bytes of the buffer. -/
theorem EthRxAt.advance (h : EthRxAt tab ix s t n) {left : Nat}
    (hleft : s.bufferOffset + left ≤ enetRxBuffSize) :
    EthRxAt tab ix { s with bufferOffset := s.bufferOffset + left } t (n + left) where
  desc := h.desc
  buffer := h.buffer
  offset := hleft
  pos := by
    rw [← h.pos, Nat.add_assoc]

/-- With the buffer read to its end, the copy goes on in the next one. -/
theorem EthRxAt.next (h : EthRxAt tab ix s t n) (hnext : (tab (ix t)).nextDesc = ix (t + 1)) :
    EthRxAt tab ix ⟨(tab s.dmaRxDesc).nextDesc, (tab (tab s.dmaRxDesc).nextDesc).buffer1, 0⟩
      (t + 1) (n + (enetRxBuffSize - s.bufferOffset)) where
  desc := by
    rw [h.desc, hnext]
  buffer := by
    rw [h.desc, hnext]
  offset := Nat.zero_le _
  pos := by
    have hoffset := h.offset
    dsimp only
    rw [← h.pos, Nat.add_mul]
    omega

/-- A pbuf is filled with the bytes that follow, and the copy stands behind them. -/
theorem ethRxCopyPbuf_spec (hnext : ∀ t, (tab (ix t)).nextDesc = ix (t + 1)) (s : EthRxPos)
    (o left : Nat) : ∀ t n, EthRxAt tab ix s t n → ∃ t',
      EthRxAt tab ix (ethRxCopyPbuf tab s o left).2 t' (n + left) ∧
      (t' = t ∨ t' * enetRxBuffSize < n + left) ∧
      EthRxCopied tab ix (ethRxCopyPbuf tab s o left).1 t n o left := by
  induction s, o, left using ethRxCopyPbuf.induct tab with
  | case1 s o left hlt room dmaRxDesc ih =>
    intro t n hat
    rw [ethRxCopyPbuf, if_pos hlt]
    have hoffset := hat.offset
    have hpos := hat.pos
    have hleft : room + (left - room) = left := Nat.add_sub_cancel' (by omega)
    obtain ⟨t', hat', ht', hcopied⟩ := ih (t + 1) _ (hat.next (hnext t))
    have hfirst : EthRxCopied tab ix [⟨o, s.buffer + s.bufferOffset, room⟩] t n o room :=
      hat.copied o (by omega)
    have hentered : (t + 1) * enetRxBuffSize < n + (room + (left - room)) := by
      rw [Nat.add_mul, ← hpos]
      omega
    refine ⟨t', ?_, ?_, ?_⟩
    · rwa [Nat.add_assoc, hleft] at hat'
    · rw [hleft] at hentered
      rcases ht' with rfl | ht'
      · exact Or.inr hentered
      · rw [Nat.add_assoc, hleft] at ht'
        exact Or.inr ht'
    · have hall := hfirst.append hcopied hentered
      rwa [hleft] at hall
  | case2 s o left hle =>
    intro t n hat
    rw [ethRxCopyPbuf, if_neg hle]
    have hroom : s.bufferOffset + left ≤ enetRxBuffSize := by omega
    exact ⟨t, hat.advance hroom, Or.inl rfl, hat.copied o hroom⟩

/-- A chain is filled with the bytes that follow. -/
theorem ethRxCopyChain_spec (hnext : ∀ t, (tab (ix t)).nextDesc = ix (t + 1)) :
    ∀ (pbufs : List (Nat × Buf)) (s : EthRxPos) (t n : Nat), EthRxAt tab ix s t n →
      (∀ mem, ethRxPayloads mem pbufs (ethRxCopyChain tab s (pbufs.map Prod.fst)) =
        (ethRxFrameBuf mem fun u => (tab (ix u)).buffer1).toList n (pbufs.map Prod.fst).sum) ∧
      EthRxWritesWithin (pbufs.map Prod.fst) (ethRxCopyChain tab s (pbufs.map Prod.fst)) ∧
      ∀ cs ∈ ethRxCopyChain tab s (pbufs.map Prod.fst), ∀ c ∈ cs, ∃ u, EthRxReads tab ix c u ∧
        (u = t ∨ u * enetRxBuffSize < n + (pbufs.map Prod.fst).sum) := by
  intro pbufs
  induction pbufs with
  | nil =>
    intro s t n _
    refine ⟨fun _ => rfl, List.Forall₂.nil, ?_⟩
    intro cs hcs
    cases hcs
  | cons p rest ih =>
    intro s t n hat
    obtain ⟨t', hat', ht', hcopied⟩ := ethRxCopyPbuf_spec hnext s 0 p.1 t n hat
    obtain ⟨hpayloads, hwrites, hreads⟩ := ih _ t' _ hat'
    rw [List.map_cons, ethRxCopyChain, List.sum_cons]
    refine ⟨?_, ?_, ?_⟩
    · intro mem
      have hrest := hpayloads mem
      unfold ethRxPayloads at hrest ⊢
      rw [List.zipWith_cons_cons, List.flatten_cons, hrest, hcopied.payload, Buf.toList_copy_self,
        Buf.toList_drop, Nat.add_zero, Buf.toList_add]
    · refine List.Forall₂.cons ?_ hwrites
      intro c hc
      have hwrite := hcopied.writes c hc
      rwa [Nat.zero_add] at hwrite
    · intro cs hcs c hc
      rcases List.mem_cons.mp hcs with rfl | hcs
      · obtain ⟨u, hread, hu⟩ := hcopied.reads c hc
        exact ⟨u, hread, hu.imp_right fun h => by omega⟩
      · obtain ⟨u, hread, hu⟩ := hreads cs hcs c hc
        refine ⟨u, hread, ?_⟩
        rcases hu with rfl | hu
        · exact ht'.imp_right fun h => by omega
        · exact Or.inr (by omega)

end Walk

end HpmSdk.Enet
