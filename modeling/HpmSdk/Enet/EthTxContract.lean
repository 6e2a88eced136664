import HpmSdk.Enet.EthTx
import Mathlib.Data.List.Nodup

set_option autoImplicit false

/-!
# ENET: what `rt_hpm_eth_tx` queues

A call should write into buffers of the CPU only and hand over the whole chain
in descriptors it has checked, or refuse and leave the ring as it is.  It never
looks at the own bit of the first descriptor, hands over the last descriptor of
a frame only, and has no error but the one for a later descriptor that belongs
to the DMA.

The contract is split into the calls that are blocked and those that are not; for the latter
`Queues` says what is handed over, and a frame in two buffers already fails it.
-/

namespace HpmSdk.Enet

open HpmSdk.Foundation

/-! ## What is asked of a call -/

/-- The descriptors whose own bits were set, in ring order from the current one. -/
def handedOver (t t' : EnetTx) : List Nat :=
  ((List.range t.cfg.count).map fun k => (t.cur + k) % t.cfg.count).filter
    fun i => !(t.tab i).own && (t'.tab i).own

/-- What the DMA reads from the buffers of some descriptors. -/
def placed (t : EnetTx) (mem : Buf) (l : List Nat) : List UInt8 :=
  l.flatMap fun i => mem.toList (t.tab i).buffer1 (t.tab i).tbs1.toNat

/-- The frame fits into descriptors that all belong to the CPU. -/
def Queueable (t : EnetTx) (length : Nat) : Prop :=
  (length + 4) ⌈/⌉ enetTxBuffSize ≤ t.cfg.count ∧
    ∀ k < (length + 4) ⌈/⌉ enetTxBuffSize, (t.slot (t.cur + k)).own = false

/-- A copy stays out of the buffer of a descriptor. -/
def EthTxCopy.Apart (c : EthTxCopy) (t : EnetTx) (i : Nat) : Prop :=
  c.dst + c.data.length ≤ (t.tab i).buffer1 ∨ (t.tab i).buffer1 + enetTxBuffSize ≤ c.dst

/-- A call on the ring of the driver. -/
structure EthTxCall where
  tx : EnetTx
  pbufs : List (List UInt8)
  ring : EthTxRing tx

namespace EthTxCall

def out (c : EthTxCall) : EthTxOut := rtHpmEthTx c.tx c.pbufs

/-- The payload as a whole. -/
def payload (c : EthTxCall) : List UInt8 := c.pbufs.flatten

def handed (c : EthTxCall) : List Nat := handedOver c.tx c.out.tx

/-- The frame is queued as a whole, or refused without a change. -/
structure Queues (c : EthTxCall) : Prop where
  writes : ∀ copy ∈ c.out.copies, copy.data ≠ [] →
    ∀ i < c.tx.cfg.count, (c.tx.tab i).own = true → copy.Apart c.tx i
  bytes : c.out.ret = .ok → ∀ mem,
    (placed c.out.tx (runCopies c.out.copies mem) c.handed).take c.payload.length = c.payload
  sizes : c.out.ret = .ok →
    (c.handed.map fun i => (c.out.tx.tab i).tbs1.toNat).sum = c.payload.length + 4
  refused : ¬ Queueable c.tx c.payload.length →
    c.out.ret ≠ .ok ∧ (∀ i, (c.out.tx.tab i).own = (c.tx.tab i).own) ∧ c.out.tx.cur = c.tx.cur

/-- And the own bit of every descriptor handed over was read. -/
structure Contract (c : EthTxCall) : Prop extends Queues c where
  checked : c.out.ret = .ok → ∀ i ∈ c.handed, i ∈ c.out.checked

end EthTxCall

/-! ## Descriptors handed over -/

theorem handedOver_nodup (t t' : EnetTx) : (handedOver t t').Nodup := by
  refine List.Nodup.filter _ (List.Nodup.map_on (fun x hx y hy hxy => ?_) List.nodup_range)
  have hx' := List.mem_range.mp hx
  have hy' := List.mem_range.mp hy
  have hpos := Ring.pos_inj (Nat.le_add_right t.cur x) (by omega) (Nat.le_add_right t.cur y)
    (by omega) hxy
  omega

/-- What is handed over are the descriptors whose own bit was clear and is set. -/
theorem mem_handedOver {t t' : EnetTx} (hc : TxChained t) {i : Nat} :
    i ∈ handedOver t t' ↔
      i < t.cfg.count ∧ (t.tab i).own = false ∧ (t'.tab i).own = true := by
  rw [handedOver, List.mem_filter, List.mem_map, Bool.and_eq_true, Bool.not_eq_true']
  refine and_congr_left fun _ => ⟨?_, fun hi => ?_⟩
  · rintro ⟨k, -, rfl⟩
    exact Nat.mod_lt _ hc.count_pos
  · obtain ⟨q, hq, hqN, rfl⟩ := Ring.exists_pos t.cur hi
    obtain ⟨k, rfl⟩ := Nat.exists_eq_add_of_le hq
    exact ⟨k, List.mem_range.mpr (by omega), rfl⟩

theorem eq_of_nodup {α : Type} {l : List α} {a : α} (hn : l.Nodup) (ha : ∀ x ∈ l, x = a) :
    l = [] ∨ l = [a] := by
  cases l with
  | nil => exact Or.inl rfl
  | cons x l =>
    obtain rfl := ha x List.mem_cons_self
    refine Or.inr (congrArg (x :: ·) (List.eq_nil_iff_forall_not_mem.mpr fun y hy => ?_))
    have hyx := ha y (List.mem_cons_of_mem x hy)
    exact (List.nodup_cons.mp hn).1 (hyx ▸ hy)

/-- The loop sets one own bit, the last, and that descriptor gets the rest of the frame. -/
theorem enetTxSegmentLoop_own {bufCount frameLength txBuffSize : Nat}
    (hmask : txBuffSize ≤ enetDmaTxDescTbs1)
    (hrest : frameLength - (bufCount - 1) * txBuffSize ≤ txBuffSize) (n : Nat) :
    ∀ (i : Nat) (tab : Nat → EnetTxDesc) (desc : Nat), i + (n + 1) = bufCount →
      ∃ last, (∀ j ≠ last, ((enetTxSegmentLoop bufCount frameLength txBuffSize (n + 1) i tab
          desc).1 j).own = (tab j).own) ∧
        ((enetTxSegmentLoop bufCount frameLength txBuffSize (n + 1) i tab desc).1
          last).tbs1.toNat ≤ txBuffSize := by
  induction n with
  | zero =>
    intro i tab desc hi
    refine ⟨desc, fun j hj => ?_, ?_⟩
    · exact congrArg EnetTxDesc.own (Ring.set_of_ne tab _ hj)
    · have hlast : (enetTxSegmentLoop bufCount frameLength txBuffSize (0 + 1) i tab desc).1 desc =
          (tab desc).segment bufCount frameLength txBuffSize i := Ring.set_self _ _ _
      rw [hlast, segment_tbs1, if_pos (by omega), tbs1Of_toNat (Nat.le_trans hrest hmask)]
      exact hrest
  | succ n ih =>
    intro i tab desc hi
    rw [enetTxSegmentLoop]
    obtain ⟨last, hown, hsize⟩ := ih (i + 1)
      (Ring.set tab desc ((tab desc).segment bufCount frameLength txBuffSize i))
      (Ring.set tab desc ((tab desc).segment bufCount frameLength txBuffSize i) desc).nextDesc
      (by omega)
    refine ⟨last, fun j hj => (hown j hj).trans ?_, hsize⟩
    by_cases hjd : j = desc
    · subst hjd
      have hni : decide (i = bufCount - 1) = false := decide_eq_false (by omega)
      rw [Ring.set_self, segment_own, hni, Bool.false_or]
    · rw [Ring.set_of_ne _ _ hjd]

/-- Whatever the length, a call sets at most one own bit, and the size in that
descriptor is at most one buffer. -/
theorem enetPrepare_own (t : EnetTx) (frameLength : Nat) {txBuffSize : Nat}
    (hsize : 0 < txBuffSize) (hmask : txBuffSize ≤ enetDmaTxDescTbs1) :
    ∃ last, (∀ j ≠ last,
        ((enetPrepareTransmissionDescriptors t frameLength txBuffSize).2.tab j).own =
          (t.tab j).own) ∧
      ((enetPrepareTransmissionDescriptors t frameLength txBuffSize).2.tab last).tbs1.toNat ≤
        txBuffSize := by
  unfold enetPrepareTransmissionDescriptors
  rw [if_neg (Nat.ne_of_gt hsize)]
  dsimp only
  rcases Nat.lt_or_ge txBuffSize frameLength with hlt | hle
  · have hcount := txBufCount_eq (Nat.lt_trans hsize hlt) hsize
    obtain ⟨m, hm, hlow, hhigh⟩ := txBufCount_spec (Nat.lt_trans hsize hlt) hsize
    have hm0 : m ≠ 0 := by
      rintro rfl
      omega
    rw [hcount, hm, if_neg (by omega)]
    apply enetTxSegmentLoop_own hmask _ m 0 t.tab t.cur (Nat.zero_add _)
    rw [Nat.add_mul] at hhigh
    rw [Nat.add_sub_cancel]
    omega
  · have hcount : txBufCount frameLength txBuffSize = 1 := if_neg (Nat.not_lt.mpr hle)
    rw [hcount, if_pos rfl]
    refine ⟨t.cur, fun j hj => congrArg EnetTxDesc.own (Ring.set_of_ne t.tab _ hj), ?_⟩
    dsimp only
    rw [Ring.set_self, EnetTxDesc.whole, tbs1Of_toNat (Nat.le_trans hle hmask)]
    exact hle

/-! ## Short chains -/

/-- A chain that fits into the buffer is copied behind what is there, and no own
bit is read. -/
theorem ethTxCopyChain_short (t : EnetTx) : ∀ (p : List (List UInt8)) (s : EthTxPos) (mem : Buf),
    p.flatten.length + s.bufferOffset ≤ enetTxBuffSize →
      (ethTxCopyChain t s p).checked = [] ∧
      runCopies (ethTxCopyChain t s p).copies mem =
        mem.copy (s.buffer + s.bufferOffset) (Buf.ofList p.flatten) p.flatten.length := by
  intro p
  induction p with
  | nil =>
    intro s mem _
    refine ⟨rfl, funext fun i => ?_⟩
    exact (if_neg (by simp)).symm
  | cons data rest ih =>
    intro s mem hle
    rw [List.flatten_cons, List.length_append] at hle
    have hpbuf : ethTxCopyPbuf t s data =
        ⟨some (s.advance data.length), [⟨s.buffer + s.bufferOffset, data⟩], []⟩ := by
      rw [ethTxCopyPbuf, if_neg (by omega)]
    obtain ⟨hchecked, hcopies⟩ := ih (s.advance data.length)
      (mem.copy (s.buffer + s.bufferOffset) (Buf.ofList data) data.length) (by
        unfold EthTxPos.advance
        dsimp only
        omega)
    rw [ethTxCopyChain, hpbuf]
    refine ⟨hchecked, hcopies.trans ?_⟩
    rw [List.flatten_cons, ← Buf.copy_append, Nat.add_assoc]
    rfl

theorem ethTxCopyChain_copies {t : EnetTx} {s : EthTxPos} {data : List UInt8}
    (rest : List (List UInt8)) {c : EthTxCopy} (hc : c ∈ (ethTxCopyPbuf t s data).copies) :
    c ∈ (ethTxCopyChain t s (data :: rest)).copies := by
  rw [ethTxCopyChain]
  cases (ethTxCopyPbuf t s data).pos with
  | none => exact hc
  | some s' => exact List.mem_append_left _ hc

/-- With the buffer empty, the first bytes of a pbuf go to its start. -/
theorem ethTxCopyPbuf_first (t : EnetTx) {s : EthTxPos} {data : List UInt8}
    (hoff : s.bufferOffset = 0) (hne : data ≠ []) :
    ∃ c ∈ (ethTxCopyPbuf t s data).copies, c.data ≠ [] ∧ c.dst = s.buffer := by
  have hroom : s.room = enetTxBuffSize := by rw [EthTxPos.room, hoff, Nat.sub_zero]
  rw [ethTxCopyPbuf]
  split
  · have htake : data.take s.room ≠ [] := by
      rw [hroom]
      exact fun h => (List.take_eq_nil_iff.mp h).elim (by decide) hne
    split
    · exact ⟨_, List.mem_singleton_self _, htake, by rw [hoff]; rfl⟩
    · exact ⟨_, List.mem_cons_self, htake, by rw [hoff]; rfl⟩
  · exact ⟨_, List.mem_singleton_self _, hne, by rw [hoff]; rfl⟩

/-- So do the first bytes of a chain. -/
theorem ethTxCopyChain_first (t : EnetTx) : ∀ (p : List (List UInt8)) (s : EthTxPos),
    s.bufferOffset = 0 → p.flatten ≠ [] →
      ∃ c ∈ (ethTxCopyChain t s p).copies, c.data ≠ [] ∧ c.dst = s.buffer := by
  intro p
  induction p with
  | nil => exact fun _ _ hne => absurd rfl hne
  | cons data rest ih =>
    intro s hoff hne
    cases data with
    | nil =>
      -- an empty pbuf leaves everything as it is
      have hpbuf : ethTxCopyPbuf t s [] =
          ⟨some (s.advance 0), [⟨s.buffer + s.bufferOffset, []⟩], []⟩ := by
        rw [ethTxCopyPbuf, if_neg (by rw [hoff]; decide)]
        rfl
      obtain ⟨c, hc, hcne, hdst⟩ := ih (s.advance 0) hoff hne
      refine ⟨c, ?_, hcne, hdst⟩
      rw [ethTxCopyChain, hpbuf]
      exact List.mem_append_right _ hc
    | cons x xs =>
      obtain ⟨c, hc, hcne, hdst⟩ := ethTxCopyPbuf_first t hoff (List.cons_ne_nil x xs)
      exact ⟨c, ethTxCopyChain_copies rest hc, hcne, hdst⟩

/-! ## The contract -/

namespace EthTxCall

variable {c : EthTxCall}

/-- The first descriptor belongs to the CPU. -/
def FirstFree (c : EthTxCall) : Prop := (c.tx.tab c.tx.cur).own = false

/-- Some later descriptor that the payload needs belongs to the DMA. -/
def Blocked (c : EthTxCall) : Prop :=
  ∃ j, 0 < j ∧ j * enetTxBuffSize < c.payload.length ∧
    (c.tx.slot (c.tx.cur + j)).own = true

/-- A call is refused exactly where a later descriptor that its frame needs is the DMA's. -/
theorem blocked_iff (c : EthTxCall) : EthTxBlocked c.tx 0 c.pbufs.flatten.length ↔ c.Blocked :=
  ⟨fun ⟨j, hj, _, hlt, hown⟩ => ⟨j, hj, hlt, hown⟩,
    fun ⟨j, hj, hlt, hown⟩ => ⟨j, hj, Nat.zero_le _, hlt, hown⟩⟩

theorem size_eq (c : EthTxCall) : c.tx.cfg.size % 2 ^ 16 = enetTxBuffSize := by
  rw [c.ring.size_eq]
  rfl

/-- A blocked call leaves with `ERR_USE` and no change. -/
theorem out_blocked (h : c.Blocked) : c.out.ret = .use ∧ c.out.tx = c.tx := by
  rcases rtHpmEthTx_cases c.ring.toTxChained c.pbufs with ⟨-, hout⟩ | ⟨hfree, -⟩
  · exact hout
  · exact absurd ((blocked_iff c).mpr h) hfree

/-- A call that is not refused gives the length of the frame and its CRC to the preparation. -/
theorem out_ok (h : ¬ c.Blocked) : c.out.ret = .ok ∧
    c.out.tx = (enetPrepareTransmissionDescriptors c.tx ((c.payload.length + 4) % 2 ^ 16)
      enetTxBuffSize).2 := by
  rcases rtHpmEthTx_cases c.ring.toTxChained c.pbufs with ⟨hblocked, -⟩ | ⟨-, hout⟩
  · exact absurd ((blocked_iff c).mp hblocked) h
  · rw [size_eq] at hout
    exact hout

/-- The copies of a call are those of the walk over the chain. -/
theorem out_copied (c : EthTxCall) :
    c.out.copies = (ethTxCopyChain c.tx (ethTxStart c.tx) c.pbufs).copies ∧
      c.out.checked = (ethTxCopyChain c.tx (ethTxStart c.tx) c.pbufs).checked := by
  unfold EthTxCall.out rtHpmEthTx
  dsimp only
  cases (ethTxCopyChain c.tx (ethTxStart c.tx) c.pbufs).pos <;> exact ⟨rfl, rfl⟩

/-- With the first descriptor free, nothing is written into a buffer of the DMA. -/
theorem writes_apart (h : c.FirstFree) : ∀ copy ∈ c.out.copies,
    ∀ i < c.tx.cfg.count, (c.tx.tab i).own = true → copy.Apart c.tx i := by
  intro copy hcopy i hi hown
  rw [c.out_copied.1] at hcopy
  obtain ⟨i', hi', hown', hlow, hhigh⟩ := ethTxCopyChain_safe c.ring.toTxChained c.pbufs
    (ethTxStart c.tx) ⟨c.ring.cur_lt, h, rfl, Nat.zero_le _⟩ copy hcopy
  have hne : i' ≠ i := by
    rintro rfl
    rw [hown] at hown'
    exact Bool.noConfusion hown'
  rw [c.ring.buffer i' hi'] at hlow hhigh
  unfold EthTxCopy.Apart
  rw [c.ring.buffer i hi]
  unfold enetTxBuffSize at *
  omega

/-- A refusal for a later descriptor meets the contract. -/
theorem contract_of_blocked (hfirst : c.FirstFree) (h : c.Blocked) : c.Contract := by
  obtain ⟨hret, htx⟩ := out_blocked h
  have hne : c.out.ret ≠ .ok := by
    rw [hret]
    exact EthErr.noConfusion
  refine ⟨⟨fun copy hcopy _ => writes_apart hfirst copy hcopy, fun hok => absurd hok hne,
    fun hok => absurd hok hne, fun _ => ⟨hne, fun i => ?_, ?_⟩⟩, fun hok => absurd hok hne⟩
  · rw [htx]
  · rw [htx]

/-- A call on a descriptor of the DMA is not refused, or not before it has written
into its buffer. -/
theorem firstFree_of_queues (h : c.Queues) : c.FirstFree := by
  apply Bool.eq_false_iff.mpr
  intro hown
  by_cases hb : c.Blocked
  · -- the payload is not empty
    obtain ⟨j, hj, hlt, -⟩ := hb
    have hne : c.pbufs.flatten ≠ [] := by
      intro hnil
      rw [payload, hnil] at hlt
      exact absurd hlt (Nat.not_lt_zero _)
    obtain ⟨copy, hcopy, hdata, hdst⟩ :=
      ethTxCopyChain_first c.tx c.pbufs (ethTxStart c.tx) rfl hne
    rw [← c.out_copied.1] at hcopy
    have hpos := List.length_pos_iff.mpr hdata
    have hbuf : copy.dst = (c.tx.tab c.tx.cur).buffer1 := hdst
    have hapart := h.writes copy hcopy hdata c.tx.cur c.ring.cur_lt hown
    unfold EthTxCopy.Apart enetTxBuffSize at hapart
    omega
  · have hn : ¬ Queueable c.tx c.payload.length := by
      rintro ⟨-, hcpu⟩
      obtain ⟨m, hm, -⟩ := txBufCount_spec (Nat.succ_pos (c.payload.length + 3))
        (by decide : 0 < enetTxBuffSize)
      have hslot := hcpu 0 (by rw [hm]; exact Nat.succ_pos m)
      rw [EnetTx.slot, Nat.add_zero, Nat.mod_eq_of_lt c.ring.cur_lt, hown] at hslot
      exact Bool.noConfusion hslot
    exact absurd (out_ok hb).1 (h.refused hn).1

/-- Without a refusal the descriptors handed over hold no more than one buffer. -/
theorem short_of_queues (h : c.Queues) (hb : ¬ c.Blocked) :
    c.payload.length + 4 ≤ enetTxBuffSize := by
  obtain ⟨hret, htx⟩ := out_ok hb
  obtain ⟨last, hown, hsize⟩ := enetPrepare_own c.tx ((c.payload.length + 4) % 2 ^ 16)
    (by decide : 0 < enetTxBuffSize) (by decide)
  rw [← htx] at hown hsize
  have hlast : ∀ i ∈ c.handed, i = last := by
    intro i hi
    obtain ⟨-, hold, hnew⟩ := (mem_handedOver c.ring.toTxChained).mp hi
    by_contra hne
    rw [hown i hne, hold] at hnew
    exact Bool.noConfusion hnew
  rw [← h.sizes hret]
  rcases eq_of_nodup (handedOver_nodup c.tx c.out.tx) hlast with hnil | hone
  · rw [handed, hnil]
    exact Nat.zero_le _
  · rw [handed, hone, List.map_singleton, List.sum_singleton]
    exact hsize

/-- A frame in one buffer: the first descriptor is handed over, its own bit unread. -/
theorem handed_short (hfirst : c.FirstFree) (hb : ¬ c.Blocked)
    (hlen : c.payload.length + 4 ≤ enetTxBuffSize) :
    c.handed = [c.tx.cur] ∧ (c.out.tx.tab c.tx.cur).buffer1 = (c.tx.tab c.tx.cur).buffer1 ∧
      (c.out.tx.tab c.tx.cur).tbs1.toNat = c.payload.length + 4 := by
  have hmod : (c.payload.length + 4) % 2 ^ 16 = c.payload.length + 4 :=
    Nat.mod_eq_of_lt (Nat.lt_of_le_of_lt hlen (by decide))
  have hcount : txBufCount (c.payload.length + 4) enetTxBuffSize = 1 :=
    if_neg (Nat.not_lt.mpr hlen)
  have htab : c.out.tx.tab =
      Ring.set c.tx.tab c.tx.cur ((c.tx.tab c.tx.cur).whole (c.payload.length + 4)) := by
    rw [(out_ok hb).2, hmod, enetPrepareTransmissionDescriptors, if_neg (by decide)]
    dsimp only
    rw [if_pos hcount]
  have hcur : c.out.tx.tab c.tx.cur = (c.tx.tab c.tx.cur).whole (c.payload.length + 4) := by
    rw [htab, Ring.set_self]
  refine ⟨?_, ?_, ?_⟩
  · have hmem : c.tx.cur ∈ c.handed := by
      refine (mem_handedOver c.ring.toTxChained).mpr ⟨c.ring.cur_lt, hfirst, ?_⟩
      rw [hcur]
      rfl
    have hall : ∀ i ∈ c.handed, i = c.tx.cur := by
      intro i hi
      obtain ⟨-, hold, hnew⟩ := (mem_handedOver c.ring.toTxChained).mp hi
      by_contra hne
      rw [htab, Ring.set_of_ne _ _ hne, hold] at hnew
      exact Bool.noConfusion hnew
    rcases eq_of_nodup (handedOver_nodup c.tx c.out.tx) hall with hnil | hone
    · rw [handed, hnil] at hmem
      cases hmem
    · exact hone
  · rw [hcur]
    rfl
  · rw [hcur]
    exact tbs1Of_toNat (Nat.le_trans hlen (by decide))

/-- A frame in one buffer, with a free descriptor, is queued as it should be. -/
theorem queues_of_short (hfirst : c.FirstFree) (hlen : c.payload.length + 4 ≤ enetTxBuffSize) :
    c.Queues := by
  by_cases hb : c.Blocked
  · exact (contract_of_blocked hfirst hb).toQueues
  obtain ⟨hhanded, hbuf, hsize⟩ := handed_short hfirst hb hlen
  refine ⟨fun copy hcopy _ => writes_apart hfirst copy hcopy, fun _ mem => ?_, fun _ => ?_,
    fun hn => absurd ?_ hn⟩
  · obtain ⟨-, hcopies⟩ := ethTxCopyChain_short c.tx c.pbufs (ethTxStart c.tx) mem
      (Nat.le_trans (Nat.le_add_right _ 4) hlen)
    rw [hhanded, placed, List.flatMap_singleton, hbuf, hsize, c.out_copied.1, hcopies,
      Buf.toList_add, List.take_left' (Buf.length_toList _ _ _)]
    exact (Buf.toList_copy_self _ _ _ _).trans (Buf.toList_ofList _)
  · rw [hhanded, List.map_singleton, List.sum_singleton, hsize]
  · have hn : (c.payload.length + 4) ⌈/⌉ enetTxBuffSize ≤ 1 :=
      (ceilDiv_le_iff_le_mul (by decide : 0 < enetTxBuffSize)).mpr hlen
    refine ⟨Nat.le_trans hn c.ring.count_pos, fun k hk => ?_⟩
    obtain rfl : k = 0 := by omega
    rw [EnetTx.slot, Nat.add_zero, Nat.mod_eq_of_lt c.ring.cur_lt]
    exact hfirst

/-- The own bit of the first descriptor is never read. -/
theorem blocked_of_contract (h : c.Contract) : c.Blocked := by
  by_contra hb
  have hfirst := firstFree_of_queues h.toQueues
  have hlen := short_of_queues h.toQueues hb
  have hchecked := h.checked (out_ok hb).1 c.tx.cur
  rw [(handed_short hfirst hb hlen).1, c.out_copied.2,
    (ethTxCopyChain_short c.tx c.pbufs (ethTxStart c.tx) (fun _ => 0)
      (Nat.le_trans (Nat.le_add_right _ 4) hlen)).1] at hchecked
  exact absurd (hchecked (List.mem_singleton_self _)) List.not_mem_nil

/-- The contract is met exactly by the calls whose first descriptor is free and that are refused
for a later one; but for the reading of own bits, also by those whose first descriptor is free and
whose frame fits into one buffer.

The own bit is read only when the copy moves on to a further descriptor.  So a refusal needs a
later descriptor that is not free, and whether the first one is free is never looked at; what is
handed over is right only for one buffer, as for the preparation of the descriptors. -/
theorem contract_iff (c : EthTxCall) :
    (c.Contract ↔ c.FirstFree ∧ c.Blocked) ∧
    (c.Queues ↔
      c.FirstFree ∧ (c.payload.length + 4 ≤ enetTxBuffSize ∨ c.Blocked)) := by
  refine ⟨⟨fun h => ⟨firstFree_of_queues h.toQueues, blocked_of_contract h⟩,
    fun h => contract_of_blocked h.1 h.2⟩, ⟨fun h => ⟨firstFree_of_queues h, ?_⟩, ?_⟩⟩
  · by_cases hb : c.Blocked
    · exact Or.inr hb
    · exact Or.inl (short_of_queues h hb)
  · rintro ⟨hfirst, hlen | hb⟩
    · exact queues_of_short hfirst hlen
    · exact (contract_of_blocked hfirst hb).toQueues

end EthTxCall

/-! ## Calls that break it -/

/-- A ring of two descriptors just set up, all of them of one owner. -/
def ethTxTwoSlots (own : Bool) : EnetTx :=
  enetDmaTxDescChainInit
    { tab := fun _ => ⟨own, false, false, false, false, false, false, 0, 0, 0, 0⟩
      cur := 0
      cfg := ⟨4096, 2, 1524⟩
      dmaTxPollDemand := 0 }

theorem ethTxTwoSlots_ring (own : Bool) : EthTxRing (ethTxTwoSlots own) := by
  refine ⟨enetDmaTxDescChainInit_chained _ Nat.two_pos, rfl, ?_⟩
  cases own <;> decide

/-- One byte on a ring that belongs to the DMA. -/
def ethTxOnDma : EthTxCall where
  tx := ethTxTwoSlots true
  pbufs := [[0]]
  ring := ethTxTwoSlots_ring true

/-- 1521 bytes, three short of a buffer, on a ring that belongs to the CPU. -/
def ethTxTwoBuffers : EthTxCall where
  tx := ethTxTwoSlots false
  pbufs := [List.replicate 1521 0]
  ring := ethTxTwoSlots_ring false

/-- The byte is written into a buffer of the DMA; of the two descriptors of the
longer frame only the second is handed over. -/
theorem ethTx_contract_broken : ¬ ethTxOnDma.Contract ∧ ¬ ethTxTwoBuffers.Contract := by
  refine ⟨fun h => ?_, fun h => ?_⟩
  · have hfirst : (ethTxOnDma.tx.tab 0).own = false := EthTxCall.firstFree_of_queues h.toQueues
    exact Bool.noConfusion hfirst
  · obtain ⟨j, hj, hlt, -⟩ := EthTxCall.blocked_of_contract h
    have hlen : ethTxTwoBuffers.payload.length = 1521 := by
      change ([List.replicate 1521 (0 : UInt8)].flatten).length = 1521
      rw [List.flatten_singleton, List.length_replicate]
    rw [hlen] at hlt
    unfold enetTxBuffSize at hlt
    omega

end HpmSdk.Enet
