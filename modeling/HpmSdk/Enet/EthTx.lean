import HpmSdk.Enet.TxHandover
import HpmSdk.Foundation.Bytes

set_option autoImplicit false

/-!
# ENET: sending a pbuf chain (`rt_hpm_eth_tx`)

The device driver copies the payloads of a chain into the buffers of the transmit
descriptors, moving on to the next descriptor where a buffer is full, and then
hands the descriptors to the DMA.  With its result a call keeps the copies it
made and the descriptors whose own bit it read.

`EthTxAt` says where a walk stands, and with it each piece that is copied is found to lie in the
buffer of its descriptor.
-/

namespace HpmSdk.Enet

open HpmSdk.Foundation

/-! ## Data -/

/-- `ENET_TX_BUFF_SIZE`. -/
def enetTxBuffSize : Nat := 1524

/-- `ERR_OK` and `ERR_USE`. -/
inductive EthErr where
  | ok
  | use
  deriving DecidableEq, Repr

/-- One `SMEMCPY` to an address. -/
structure EthTxCopy where
  dst : Nat
  data : List UInt8
  deriving DecidableEq, Repr

/-- Where the copy stands: `dma_tx_desc`, `buffer`, `buffer_offset` and `frame_length`. -/
structure EthTxPos where
  dmaTxDesc : Nat
  buffer : Nat
  bufferOffset : Nat
  frameLength : Nat
  deriving DecidableEq, Repr

/-- What copying comes to: where it stands in the end, or `none` when it left
with `ERR_USE`; the copies made and the own bits read. -/
structure EthTxCopied where
  pos : Option EthTxPos
  copies : List EthTxCopy
  checked : List Nat

/-- What came before. -/
def EthTxCopied.after (copies : List EthTxCopy) (checked : List Nat) (r : EthTxCopied) :
    EthTxCopied :=
  { r with copies := copies ++ r.copies, checked := checked ++ r.checked }

/-! ## The code -/

/-- The bytes that still fit into the buffer. -/
def EthTxPos.room (s : EthTxPos) : Nat := enetTxBuffSize - s.bufferOffset

/-- The start of the next buffer, with this one full. -/
def EthTxPos.next (t : EnetTx) (s : EthTxPos) : EthTxPos where
  dmaTxDesc := (t.tab s.dmaTxDesc).nextDesc
  buffer := (t.tab (t.tab s.dmaTxDesc).nextDesc).buffer1
  bufferOffset := 0
  frameLength := (s.frameLength + s.room) % 2 ^ 32

/-- Behind `n` more bytes in the same buffer. -/
def EthTxPos.advance (s : EthTxPos) (n : Nat) : EthTxPos :=
  { s with bufferOffset := s.bufferOffset + n, frameLength := (s.frameLength + n) % 2 ^ 32 }

/-- The copies from one pbuf, of which `data` is left. -/
def ethTxCopyPbuf (t : EnetTx) (s : EthTxPos) (data : List UInt8) : EthTxCopied :=
  if enetTxBuffSize < data.length + s.bufferOffset then
    let copies := [⟨s.buffer + s.bufferOffset, data.take s.room⟩]
    let checked := [(s.next t).dmaTxDesc]
    if (t.tab (s.next t).dmaTxDesc).own then ⟨none, copies, checked⟩
    else (ethTxCopyPbuf t (s.next t) (data.drop s.room)).after copies checked
  else ⟨some (s.advance data.length), [⟨s.buffer + s.bufferOffset, data⟩], []⟩
termination_by data.length + s.bufferOffset
decreasing_by
  rw [List.length_drop]
  unfold EthTxPos.room EthTxPos.next enetTxBuffSize at *
  dsimp only
  omega

/-- `for (q = p; q != NULL; q = q->next)`. -/
def ethTxCopyChain (t : EnetTx) (s : EthTxPos) : List (List UInt8) → EthTxCopied
  | [] => ⟨some s, [], []⟩
  | data :: rest =>
    let c := ethTxCopyPbuf t s data
    match c.pos with
    | none => c
    | some s' => (ethTxCopyChain t s' rest).after c.copies c.checked

/-- The result of a call with the driver's state behind it. -/
structure EthTxOut where
  ret : EthErr
  tx : EnetTx
  copies : List EthTxCopy
  checked : List Nat

/-- Where the copy starts. -/
def ethTxStart (t : EnetTx) : EthTxPos :=
  { dmaTxDesc := t.cur, buffer := (t.tab t.cur).buffer1, bufferOffset := 0, frameLength := 0 }

/-- `rt_hpm_eth_tx` on the payloads of a chain. -/
def rtHpmEthTx (t : EnetTx) (p : List (List UInt8)) : EthTxOut :=
  let c := ethTxCopyChain t (ethTxStart t) p
  match c.pos with
  | none => ⟨.use, t, c.copies, c.checked⟩
  | some s =>
    -- the `uint32_t` length goes into a `uint16_t` parameter; the status is only logged
    let frameLength := (s.frameLength + 4) % 2 ^ 32 % 2 ^ 16
    ⟨.ok, (enetPrepareTransmissionDescriptors t frameLength (t.cfg.size % 2 ^ 16)).2, c.copies,
      c.checked⟩

/-- The memory after some copies. -/
def runCopies (copies : List EthTxCopy) (mem : Buf) : Buf :=
  copies.foldl (fun mem c => mem.copy c.dst (Buf.ofList c.data) c.data.length) mem

/-! ## The ring of the driver -/

/-- The transmit ring of the driver: chained, with one buffer of `ENET_TX_BUFF_SIZE`
bytes for each descriptor, laid out by `enet_dma_tx_desc_chain_init` one behind
the other below 4 GiB. -/
structure EthTxRing (t : EnetTx) : Prop extends TxChained t where
  size_eq : t.cfg.size = enetTxBuffSize
  buffer : ∀ i < t.cfg.count, (t.tab i).buffer1 = t.cfg.buffer + i * enetTxBuffSize

/-- A copy stays in the buffer of a descriptor. -/
def EthTxCopy.Inside (c : EthTxCopy) (t : EnetTx) (i : Nat) : Prop :=
  (t.tab i).buffer1 ≤ c.dst ∧ c.dst + c.data.length ≤ (t.tab i).buffer1 + enetTxBuffSize

/-! ## Copies stay with the CPU -/

/-- The copy stands in the buffer of a descriptor that the CPU owns. -/
structure EthTxSafe (t : EnetTx) (s : EthTxPos) : Prop where
  lt : s.dmaTxDesc < t.cfg.count
  own : (t.tab s.dmaTxDesc).own = false
  buffer : s.buffer = (t.tab s.dmaTxDesc).buffer1
  offset : s.bufferOffset ≤ enetTxBuffSize

/-- A copy goes into the buffer of a descriptor that the CPU owns. -/
def EthTxCopy.Safe (c : EthTxCopy) (t : EnetTx) : Prop :=
  ∃ i < t.cfg.count, (t.tab i).own = false ∧ c.Inside t i

/-- One pbuf: every piece is copied into a buffer of the CPU if the walk starts in one. -/
theorem ethTxCopyPbuf_safe {t : EnetTx} (h : TxChained t) (s : EthTxPos) (data : List UInt8) :
    EthTxSafe t s → (∀ c ∈ (ethTxCopyPbuf t s data).copies, c.Safe t) ∧
      ∀ s' ∈ (ethTxCopyPbuf t s data).pos, EthTxSafe t s' := by
  have hfull : ∀ (s : EthTxPos) (data : List UInt8), EthTxSafe t s →
      enetTxBuffSize < data.length + s.bufferOffset →
        EthTxCopy.Safe ⟨s.buffer + s.bufferOffset, data.take s.room⟩ t := by
    intro s data hs hlt
    refine ⟨s.dmaTxDesc, hs.lt, hs.own, ?_, ?_⟩
    · exact hs.buffer ▸ Nat.le_add_right _ _
    · have hoff := hs.offset
      rw [List.length_take, EthTxPos.room, ← hs.buffer]
      dsimp only
      omega
  induction s, data using ethTxCopyPbuf.induct t with
  | case1 s data hlt hown =>
    intro hs
    rw [ethTxCopyPbuf, if_pos hlt, if_pos hown]
    refine ⟨fun c hc => ?_, fun s' hs' => ?_⟩
    · rw [List.mem_singleton.mp hc]
      exact hfull s data hs hlt
    · cases hs'
  | case2 s data hlt hown ih =>
    intro hs
    rw [ethTxCopyPbuf, if_pos hlt, if_neg hown]
    have hnext : EthTxSafe t (s.next t) := by
      refine ⟨?_, Bool.eq_false_iff.mpr hown, rfl, Nat.zero_le _⟩
      rw [EthTxPos.next, h.linked _ hs.lt]
      exact Nat.mod_lt _ h.count_pos
    obtain ⟨hcopies, hpos⟩ := ih hnext
    refine ⟨fun c hc => ?_, hpos⟩
    rcases List.mem_cons.mp hc with rfl | hc
    · exact hfull s data hs hlt
    · exact hcopies c hc
  | case3 s data hle =>
    intro hs
    rw [ethTxCopyPbuf, if_neg hle]
    refine ⟨fun c hc => ?_, fun s' hs' => ?_⟩
    · rw [List.mem_singleton.mp hc]
      refine ⟨s.dmaTxDesc, hs.lt, hs.own, ?_, ?_⟩
      · exact hs.buffer ▸ Nat.le_add_right _ _
      · rw [← hs.buffer]
        dsimp only
        omega
    · cases hs'
      exact ⟨hs.lt, hs.own, hs.buffer, by
        unfold EthTxPos.advance
        dsimp only
        omega⟩

/-- The chain: each pbuf starts where the one before it ended. -/
theorem ethTxCopyChain_safe {t : EnetTx} (h : TxChained t) : ∀ (p : List (List UInt8))
    (s : EthTxPos), EthTxSafe t s → ∀ c ∈ (ethTxCopyChain t s p).copies, c.Safe t := by
  intro p
  induction p with
  | nil =>
    intro s _ c hc
    cases hc
  | cons data rest ih =>
    intro s hs c hc
    obtain ⟨hcopies, hpos⟩ := ethTxCopyPbuf_safe h s data hs
    rw [ethTxCopyChain] at hc
    cases hp : (ethTxCopyPbuf t s data).pos with
    | none =>
      rw [hp] at hc
      exact hcopies c hc
    | some s' =>
      rw [hp] at hc
      rcases List.mem_append.mp hc with hc | hc
      · exact hcopies c hc
      · exact ih s' (hpos s' hp) c hc

/-! ## When copying leaves with `ERR_USE` -/

/-- The copy of byte `m` stands in descriptor `q` behind the current one. -/
structure EthTxAt (t : EnetTx) (s : EthTxPos) (q m : Nat) : Prop where
  desc : s.dmaTxDesc = (t.cur + q) % t.cfg.count
  offset : s.bufferOffset ≤ enetTxBuffSize
  pos : m = q * enetTxBuffSize + s.bufferOffset
  length : s.frameLength = m % 2 ^ 32
  cpu : 0 < q → (t.slot (t.cur + q)).own = false

/-- Some descriptor but the first that the bytes from `m` up to `m'` need belongs
to the DMA. -/
def EthTxBlocked (t : EnetTx) (m m' : Nat) : Prop :=
  ∃ j, 0 < j ∧ m ≤ j * enetTxBuffSize ∧ j * enetTxBuffSize < m' ∧ (t.slot (t.cur + j)).own = true

/-- Bytes are blocked if the first of them are, or the ones behind these. -/
theorem EthTxBlocked.split {t : EnetTx} {m k l : Nat} :
    EthTxBlocked t m (m + (k + l)) ↔
      EthTxBlocked t m (m + k) ∨ EthTxBlocked t (m + k) (m + k + l) := by
  constructor
  · rintro ⟨j, hj, hlow, hhigh, hown⟩
    rcases Nat.lt_or_ge (j * enetTxBuffSize) (m + k) with hlt | hge
    · exact Or.inl ⟨j, hj, hlow, hlt, hown⟩
    · exact Or.inr ⟨j, hj, hge, by omega, hown⟩
  · rintro (⟨j, hj, hlow, hhigh, hown⟩ | ⟨j, hj, hlow, hhigh, hown⟩)
    · exact ⟨j, hj, hlow, by omega, hown⟩
    · exact ⟨j, hj, by omega, by omega, hown⟩

section At

variable {t : EnetTx} {s : EthTxPos} {q m : Nat}

/-- Inside a buffer no further descriptor is needed. -/
theorem EthTxAt.not_blocked (h : EthTxAt t s q m) {n : Nat}
    (hle : n + s.bufferOffset ≤ enetTxBuffSize) :
    ¬ EthTxBlocked t m (m + n) := by
  rintro ⟨j, hj, hlow, hhigh, hown⟩
  have hpos := h.pos
  have hjq : j = q := by
    have h1 : q * enetTxBuffSize ≤ j * enetTxBuffSize := by omega
    have h2 : j * enetTxBuffSize < (q + 1) * enetTxBuffSize := by
      rw [Nat.add_mul]
      omega
    exact Nat.le_antisymm (Nat.lt_succ_iff.mp (Nat.lt_of_mul_lt_mul_right h2))
      (Nat.le_of_mul_le_mul_right h1 (by decide))
  subst hjq
  rw [h.cpu hj] at hown
  exact Bool.noConfusion hown

/-- Copying within a buffer moves on in the frame. -/
theorem EthTxAt.advance (h : EthTxAt t s q m) {n : Nat}
    (hle : n + s.bufferOffset ≤ enetTxBuffSize) :
    EthTxAt t (s.advance n) q (m + n) where
  desc := h.desc
  offset := by
    rw [Nat.add_comm] at hle
    exact hle
  pos := by
    rw [h.pos, Nat.add_assoc]
    rfl
  length := by
    have hlen := h.length
    change (s.frameLength + n) % 2 ^ 32 = (m + n) % 2 ^ 32
    rw [hlen, Nat.mod_add_mod]
  cpu := h.cpu

/-- With the buffer full, the next descriptor is the one behind. -/
theorem EthTxAt.next_desc (h : EthTxAt t s q m) (hc : TxChained t) :
    (s.next t).dmaTxDesc = (t.cur + (q + 1)) % t.cfg.count := by
  rw [EthTxPos.next, h.desc, hc.linked _ (Nat.mod_lt _ hc.count_pos), Ring.succ_slot, Nat.add_assoc]

/-- What is left of a buffer ends where the next one begins. -/
theorem EthTxAt.room_eq (h : EthTxAt t s q m) : m + s.room = (q + 1) * enetTxBuffSize := by
  have hoff := h.offset
  rw [h.pos, EthTxPos.room, Nat.add_mul]
  omega

/-- A full buffer is left for that of the next descriptor, which is the CPU's. -/
theorem EthTxAt.next (h : EthTxAt t s q m) (hc : TxChained t)
    (hown : (t.tab (s.next t).dmaTxDesc).own ≠ true) :
    EthTxAt t (s.next t) (q + 1) (m + s.room) where
  desc := h.next_desc hc
  offset := Nat.zero_le _
  pos := by
    change m + s.room = (q + 1) * enetTxBuffSize + 0
    rw [Nat.add_zero, h.room_eq]
  length := by
    change (s.frameLength + s.room) % 2 ^ 32 = (m + s.room) % 2 ^ 32
    rw [h.length, Nat.mod_add_mod]
  cpu := fun _ => by
    rw [h.next_desc hc] at hown
    exact Bool.eq_false_iff.mpr hown

end At

/-- A pbuf is copied as a whole unless a descriptor that it needs belongs to the DMA. -/
theorem ethTxCopyPbuf_pos {t : EnetTx} (hc : TxChained t) (s : EthTxPos) (data : List UInt8) :
    ∀ q m, EthTxAt t s q m →
      (EthTxBlocked t m (m + data.length) ∧ (ethTxCopyPbuf t s data).pos = none) ∨
      (¬ EthTxBlocked t m (m + data.length) ∧ ∃ s' q', (ethTxCopyPbuf t s data).pos = some s' ∧
        EthTxAt t s' q' (m + data.length)) := by
  induction s, data using ethTxCopyPbuf.induct t with
  | case1 s data hlt hown =>
    intro q m hat
    rw [ethTxCopyPbuf, if_pos hlt, if_pos hown]
    have hroom := hat.room_eq
    have hoff := hat.offset
    refine Or.inl ⟨⟨q + 1, Nat.succ_pos q, by omega, ?_, ?_⟩, rfl⟩
    · rw [← hroom, EthTxPos.room]
      omega
    · rw [hat.next_desc hc] at hown
      exact hown
  | case2 s data hlt hown ih =>
    intro q m hat
    rw [ethTxCopyPbuf, if_pos hlt, if_neg hown]
    have hoff := hat.offset
    have hsplit : m + data.length = m + (s.room + (data.drop s.room).length) := by
      rw [List.length_drop, EthTxPos.room]
      omega
    have hhere : ¬ EthTxBlocked t m (m + s.room) :=
      hat.not_blocked (by rw [EthTxPos.room]; omega)
    rw [hsplit, EthTxBlocked.split, ← Nat.add_assoc]
    rcases ih (q + 1) (m + s.room) (hat.next hc hown) with ⟨hblocked, hnone⟩ | ⟨hfree, hsome⟩
    · exact Or.inl ⟨Or.inr hblocked, hnone⟩
    · exact Or.inr ⟨not_or.mpr ⟨hhere, hfree⟩, hsome⟩
  | case3 s data hle =>
    intro q m hat
    rw [ethTxCopyPbuf, if_neg hle]
    exact Or.inr ⟨hat.not_blocked (Nat.not_lt.mp hle), _, q, rfl, hat.advance (Nat.not_lt.mp hle)⟩

/-- So is a chain. -/
theorem ethTxCopyChain_pos {t : EnetTx} (hc : TxChained t) : ∀ (p : List (List UInt8))
    (s : EthTxPos) (q m : Nat), EthTxAt t s q m →
      (EthTxBlocked t m (m + p.flatten.length) ∧ (ethTxCopyChain t s p).pos = none) ∨
      (¬ EthTxBlocked t m (m + p.flatten.length) ∧ ∃ s' q', (ethTxCopyChain t s p).pos = some s' ∧
        EthTxAt t s' q' (m + p.flatten.length)) := by
  intro p
  induction p with
  | nil =>
    intro s q m hat
    refine Or.inr ⟨hat.not_blocked (n := 0) ?_, s, q, rfl, hat⟩
    rw [Nat.zero_add]
    exact hat.offset
  | cons data rest ih =>
    intro s q m hat
    rw [ethTxCopyChain, List.flatten_cons, List.length_append, EthTxBlocked.split, ← Nat.add_assoc]
    rcases ethTxCopyPbuf_pos hc s data q m hat with ⟨hblocked, hnone⟩ | ⟨hfree, s', q', hsome, hat'⟩
    · rw [hnone]
      exact Or.inl ⟨Or.inl hblocked, hnone⟩
    · rw [hsome]
      rcases ih s' q' _ hat' with ⟨hblocked, hnone⟩ | ⟨hfree', hsome'⟩
      · exact Or.inl ⟨Or.inr hblocked, hnone⟩
      · exact Or.inr ⟨not_or.mpr ⟨hfree, hfree'⟩, hsome'⟩

/-- The walk starts at the current descriptor, at the first byte. -/
theorem ethTxStart_at {t : EnetTx} (hc : TxChained t) : EthTxAt t (ethTxStart t) 0 0 where
  desc := (Nat.mod_eq_of_lt hc.cur_lt).symm
  offset := Nat.zero_le _
  pos := rfl
  length := rfl
  cpu := fun h => absurd h (Nat.lt_irrefl 0)

/-- What a call returns. -/
theorem rtHpmEthTx_cases {t : EnetTx} (hc : TxChained t) (p : List (List UInt8)) :
    (EthTxBlocked t 0 p.flatten.length ∧ (rtHpmEthTx t p).ret = .use ∧ (rtHpmEthTx t p).tx = t) ∨
    (¬ EthTxBlocked t 0 p.flatten.length ∧ (rtHpmEthTx t p).ret = .ok ∧
      (rtHpmEthTx t p).tx = (enetPrepareTransmissionDescriptors t
        ((p.flatten.length + 4) % 2 ^ 16) (t.cfg.size % 2 ^ 16)).2) := by
  unfold rtHpmEthTx
  dsimp only
  rcases ethTxCopyChain_pos hc p _ 0 0 (ethTxStart_at hc) with
    ⟨hblocked, hnone⟩ | ⟨hfree, s', q', hsome, hat⟩
  · rw [Nat.zero_add] at hblocked
    rw [hnone]
    exact Or.inl ⟨hblocked, rfl, rfl⟩
  · rw [Nat.zero_add] at hfree hat
    have hlen : (s'.frameLength + 4) % 2 ^ 32 % 2 ^ 16 = (p.flatten.length + 4) % 2 ^ 16 := by
      rw [hat.length, Nat.mod_add_mod, Nat.mod_mod_of_dvd _ (by decide)]
    rw [hsome, ← hlen]
    exact Or.inr ⟨hfree, rfl, rfl⟩

end HpmSdk.Enet
