import HpmSdk.Enet.RxScan
import HpmSdk.Foundation.Run

set_option autoImplicit false

/-!
# ENET: the two receive scanners report the same frames

`enet_get_received_frame_interrupt` scans until it finds a frame;
`enet_check_received_frame` looks at one descriptor a call and is called again
until it returns 1, when `enet_get_received_frame` gives the frame.  In every
state of every run both give the oldest completed frame that was not reported,
and the same state.

Each scanner is brought to the same function of the ring, `ScanOutcome`, so that they agree because
they are equal to one thing.
-/

namespace HpmSdk.Enet

open HpmSdk.Foundation

/-- Poll up to `n` times with `enet_check_received_frame` and get the frame when
it returns 1. -/
def enetPollFrame (r : EnetRx) : Nat → Option (EnetFrame × EnetRx)
  | 0 => some (EnetFrame.zero, r)
  | n + 1 =>
    let c := enetCheckReceivedFrame r
    if c.1 = 1 then enetGetReceivedFrame c.2 else enetPollFrame c.2 n

/-! ## Each scanner -/

section Scanners

variable {w : RxWorld}

/-- The loop, with enough passes left for the segments not yet scanned. -/
theorem RxInv.scanLoop (n : Nat) : ∀ (w : RxWorld), RxInv w → w.filled.length ≤ w.scanned + n →
    ∃ ls frame r, enetScanLoop w.rx n = some (frame, r) ∧ w.ScanOutcome ls frame r ∧
      RxInv (w.take frame r) := by
  induction n with
  | zero =>
    intro w h hn
    have hend : w.filled[w.scanned]? = none := List.getElem?_eq_none_iff.mpr hn
    exact ⟨_, _, _, rfl, h.outcome_end hend, h⟩
  | succ n ih =>
    intro w h hn
    unfold enetScanLoop
    cases hseg : w.filled[w.scanned]? with
    | none =>
      rw [if_neg (by rw [h.own_end hseg]; exact Bool.noConfusion)]
      exact ⟨_, _, _, rfl, h.outcome_end hseg, h⟩
    | some seg =>
      rw [if_pos (h.at_cursor hseg).1]
      have hlt := (List.getElem?_eq_some_iff.mp hseg).1
      cases hls : seg.ls with
      | true =>
        rw [h.pass_last hseg hls]
        exact ⟨_, _, _, rfl, h.outcome_last hseg hls _, h.take_last hseg hls _⟩
      | false =>
        rw [h.pass_open hseg hls]
        have hopen := h.scan_open hseg hls w.rx.info.lsRxDesc
        obtain ⟨ls, frame, r, hloop, hout, hinv⟩ := ih _ hopen (by
          rw [RxWorld.scanOpen_scanned]
          change w.filled.length ≤ w.scanned + 1 + n
          omega)
        rw [w.scanned_eq] at hlt
        exact ⟨ls, frame, r, hloop, hout.of_open (by omega), hinv⟩

/-- One poll that finds no frame. -/
theorem RxInv.check_end (h : RxInv w) (hend : w.filled[w.scanned]? = none) :
    enetCheckReceivedFrame w.rx = (0, w.rx) := by
  unfold enetCheckReceivedFrame
  simp [h.own_end hend]

/-- Polling, often enough for the segments not yet scanned. -/
theorem RxInv.pollFrame (n : Nat) : ∀ (w : RxWorld), RxInv w → w.filled.length ≤ w.scanned + n →
    ∃ ls frame r, enetPollFrame w.rx n = some (frame, r) ∧ w.ScanOutcome ls frame r ∧
      RxInv (w.take frame r) := by
  induction n with
  | zero =>
    intro w h hn
    have hend : w.filled[w.scanned]? = none := List.getElem?_eq_none_iff.mpr hn
    exact ⟨_, _, _, rfl, h.outcome_end hend, h⟩
  | succ n ih =>
    intro w h hn
    unfold enetPollFrame
    cases hseg : w.filled[w.scanned]? with
    | none =>
      rw [h.check_end hseg]
      have hlen := List.getElem?_eq_none_iff.mp hseg
      exact ih w h (by omega)
    | some seg =>
      have hlt := (List.getElem?_eq_some_iff.mp hseg).1
      cases hls : seg.ls with
      | true =>
        obtain ⟨hone, hget⟩ := h.check_last hseg hls
        simp only [hone, if_true, hget]
        exact ⟨_, _, _, rfl, h.outcome_last hseg hls _, h.take_last hseg hls _⟩
      | false =>
        obtain ⟨ls', hcheck⟩ := h.check_open hseg hls
        rw [hcheck]
        have hopen := h.scan_open hseg hls ls'
        obtain ⟨ls, frame, r, hloop, hout, hinv⟩ := ih _ hopen (by
          rw [RxWorld.scanOpen_scanned]
          change w.filled.length ≤ w.scanned + 1 + n
          omega)
        rw [w.scanned_eq] at hlt
        exact ⟨ls, frame, r, hloop, hout.of_open (by omega), hinv⟩

/-- The passes that a full ring can need. -/
theorem RxInv.enough (h : RxInv w) : w.filled.length ≤ w.scanned + w.rx.cfg.count := by
  have hwindow := h.window
  rw [w.scanned_eq]
  omega

end Scanners

/-! ## Runs -/

/-- What can happen next. -/
inductive RxAct where
  /-- The DMA stores a segment. -/
  | dma (ls : Bool) (fl : BitVec 14)
  /-- `enet_check_received_frame`, and `enet_get_received_frame` when it returns 1. -/
  | poll
  | interrupt
  deriving DecidableEq, Repr

/-- One action; what a scanner reports is taken. -/
def RxWorld.step (w : RxWorld) : RxAct → Option RxWorld
  | .dma ls fl => w.dma ls fl
  | .poll => (enetPollFrame w.rx 1).map fun p => w.take p.1 p.2
  | .interrupt =>
    (enetGetReceivedFrameInterrupt w.rx w.rx.cfg.count).map fun p => w.take p.1 p.2

/-- A single poll keeps the invariant. -/
theorem RxInv.poll_step {w : RxWorld} (h : RxInv w) :
    ∃ frame r, enetPollFrame w.rx 1 = some (frame, r) ∧ RxInv (w.take frame r) := by
  cases hseg : w.filled[w.scanned]? with
  | none =>
    refine ⟨EnetFrame.zero, w.rx, ?_, h⟩
    unfold enetPollFrame
    rw [h.check_end hseg]
    rfl
  | some seg =>
    cases hls : seg.ls with
    | true =>
      obtain ⟨hone, hget⟩ := h.check_last hseg hls
      refine ⟨_, _, ?_, h.take_last hseg hls (some w.rx.cur)⟩
      unfold enetPollFrame
      simp only [hone, if_true, hget]
      rfl
    | false =>
      obtain ⟨ls, hcheck⟩ := h.check_open hseg hls
      refine ⟨EnetFrame.zero, _, ?_, h.scan_open hseg hls ls⟩
      unfold enetPollFrame
      rw [hcheck]
      rfl

/-- Every step of the DMA and of the scanners keeps the ring right. -/
theorem RxInv.step {w w' : RxWorld} {a : RxAct} (h : RxInv w) (hstep : w.step a = some w') :
    RxInv w' := by
  cases a with
  | dma ls fl => exact h.dma_step hstep
  | poll =>
    obtain ⟨frame, r, hpoll, hinv⟩ := h.poll_step
    rw [RxWorld.step, hpoll] at hstep
    cases hstep
    exact hinv
  | interrupt =>
    obtain ⟨ls, frame, r, hscan, -, hinv⟩ := h.scanLoop _ w h.enough
    rw [RxWorld.step, enetGetReceivedFrameInterrupt, hscan] at hstep
    cases hstep
    exact hinv

/-! ## The contract -/

/-- A scan comes to what it has to, and with the frame taken the reports are one
frame longer when one was pending. -/
def ScanReports (w : RxWorld) (scan : Option (EnetFrame × EnetRx)) : Prop :=
  ∃ ls frame r, scan = some (frame, r) ∧ w.ScanOutcome ls frame r ∧
    (w.take frame r).reports = w.reports ++ w.pending.take 1

/-- What is asked of both scanners in a state. -/
structure RxScanContract (w : RxWorld) : Prop where
  /-- The reports are the first of the completed frames. -/
  in_order : w.reports <+: completedFrames w.rx.cfg 0 0 w.filled
  interrupt : ScanReports w (enetGetReceivedFrameInterrupt w.rx w.rx.cfg.count)
  poll : ScanReports w (enetPollFrame w.rx w.rx.cfg.count)
  /-- Frame and state are the same, but for the last-segment pointer. -/
  agree : ∃ frame r ls, enetGetReceivedFrameInterrupt w.rx w.rx.cfg.count = some (frame, r) ∧
    enetPollFrame w.rx w.rx.cfg.count =
      some (frame, r.scanTo r.cur ⟨r.info.fsRxDesc, ls, r.info.segCount⟩)

/-- A scan reports the oldest pending frame, or nothing if there is none. -/
theorem RxWorld.ScanOutcome.reports {w : RxWorld} {ls : Option Nat} {frame : EnetFrame}
    {r : EnetRx} (h : w.ScanOutcome ls frame r) :
    (w.take frame r).reports = w.reports ++ w.pending.take 1 := by
  unfold RxWorld.ScanOutcome at h
  cases hp : w.pending with
  | nil =>
    rw [hp] at h
    obtain ⟨rfl, -⟩ := h
    exact (List.append_nil _).symm
  | cons f rest =>
    rw [hp] at h
    obtain ⟨rfl, rfl⟩ := h
    have hmem : f ∈ w.pending := by
      rw [hp]
      exact List.mem_cons_self
    obtain ⟨pos, segs, fl, rfl⟩ := completedFrames_mem _ _ _ _ f (List.mem_of_mem_drop hmem)
    rfl

/-- Two scans of one state agree. -/
theorem RxWorld.ScanOutcome.agree {w : RxWorld} {ls ls' : Option Nat} {frame frame' : EnetFrame}
    {r r' : EnetRx} (h : w.ScanOutcome ls frame r) (h' : w.ScanOutcome ls' frame' r') :
    frame' = frame ∧ r' = r.scanTo r.cur ⟨r.info.fsRxDesc, ls', r.info.segCount⟩ := by
  unfold RxWorld.ScanOutcome at h h'
  cases hp : w.pending with
  | nil =>
    rw [hp] at h h'
    obtain ⟨rfl, rfl⟩ := h
    obtain ⟨rfl, rfl⟩ := h'
    exact ⟨rfl, rfl⟩
  | cons f rest =>
    rw [hp] at h h'
    obtain ⟨rfl, rfl⟩ := h
    obtain ⟨rfl, rfl⟩ := h'
    exact ⟨rfl, rfl⟩

/-- In a ring that is right both scanners do what they should. -/
theorem RxInv.contract {w : RxWorld} (h : RxInv w) : RxScanContract w := by
  obtain ⟨ls, frame, r, hscan, hout, -⟩ := h.scanLoop _ w h.enough
  obtain ⟨ls', frame', r', hpoll, hout', -⟩ := h.pollFrame _ w h.enough
  refine ⟨?_, ⟨ls, frame, r, hscan, hout, hout.reports⟩,
    ⟨ls', frame', r', hpoll, hout', hout'.reports⟩, ?_⟩
  · rw [h.completed_eq]
    exact List.prefix_append _ _
  · obtain ⟨rfl, rfl⟩ := hout.agree hout'
    exact ⟨_, r, ls', hscan, hpoll⟩

/-- From a ring just set up, whatever the DMA stores and whichever scanner is called when: both
scanners report every completed frame once and in order, and they agree.

The reports are the frames that the scanned segments complete (`RxInv.reported`).  Each scanner
goes on from the cursor, segment by segment, and ends at the first one that is the last of its
frame, or where the DMA owns the descriptor, with the segments seen so far in `seg_count`: so the
next call of either goes on where this one stopped. -/
theorem rxScanners_contract (r : EnetRx) (acts : List RxAct) {w : RxWorld}
    (hpos : 0 < r.cfg.count) (hlt : r.cfg.count < 2 ^ 32) (hseg : r.info.segCount = 0)
    (hrun : run RxWorld.step (RxWorld.start r) acts = some w) : RxScanContract w :=
  (run_invariant (fun _ _ _ h hstep => RxInv.step h hstep) acts _ w
    (RxInv.start r hpos hlt hseg) hrun).contract

/-- A ring of two descriptors before it is set up. -/
def rxTwoSlots : EnetRx where
  tab := fun _ => ⟨false, false, false, 0, false, 0, 0, 0⟩
  cur := 0
  info := ⟨none, none, 0⟩
  cfg := ⟨4096, 2, 1524⟩

/-- A frame that is scanned up to its first segment, then completed, taken, and
followed by one more: the ring wraps around. -/
theorem rxScanners_contract_wrapped : ∃ w,
    run RxWorld.step (RxWorld.start rxTwoSlots)
      [.dma false 0, .interrupt, .dma true 1600, .poll, .dma true 64] = some w ∧
    RxScanContract w :=
  ⟨_, rfl, rxScanners_contract rxTwoSlots
    [.dma false 0, .interrupt, .dma true 1600, .poll, .dma true 64] (by decide) (by decide) rfl rfl⟩

end HpmSdk.Enet
