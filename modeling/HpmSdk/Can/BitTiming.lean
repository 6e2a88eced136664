import HpmSdk.Foundation.Registers

set_option autoImplicit false

/-!
# CAN: bit timing (`hpm_can_drv.c`)

The registers of the controller and `can_set_bit_timing`, which searches a prescaler and a
split of the bit into two segments.  The numbers of the search are `uint32_t`: they are kept
below `2 ^ 32`, and `none` is a division by zero, a subtraction that would wrap, or a loop
that does not end within the passes given.
-/

namespace HpmSdk.Can

open HpmSdk.Foundation

/-- The `hpm_stat_t` values of the CAN driver. -/
inductive CanStat where
  | success
  | invalidArgument
  | timeout
  | bitError
  | formError
  | stuffError
  | ackError
  | crcError
  | otherError
  deriving DecidableEq, Repr

/-! ## Registers -/

/-- `CAN_ACFCTRL` addresses this many filters. -/
abbrev canFilterCount : Nat := 16

scoped instance (priority := high) : NeZero canFilterCount := ⟨Nat.succ_ne_zero _⟩

/-- `CAN_Type`: the registers that setting up the controller touches, with what is behind
the window `ACF` for each filter. -/
structure CanBase where
  cmdStaCmdCtrl : BitVec 32
  rtie : BitVec 8
  errint : BitVec 8
  sPresc : BitVec 32
  fPresc : BitVec 32
  acfctrl : BitVec 8
  acfEn : BitVec 16
  acfCode : Fin canFilterCount → BitVec 32
  acfMask : Fin canFilterCount → BitVec 32
  ttcfg : BitVec 8
  deriving Inhabited

/-- `CAN_S_PRESC_S_PRESC`. -/
def canSPrescSPresc : RegField := ⟨24, 8⟩
/-- `CAN_S_PRESC_S_SJW`. -/
def canSPrescSSjw : RegField := ⟨16, 7⟩
/-- `CAN_S_PRESC_S_SEG_2`. -/
def canSPrescSSeg2 : RegField := ⟨8, 7⟩
/-- `CAN_S_PRESC_S_SEG_1`. -/
def canSPrescSSeg1 : RegField := ⟨0, 8⟩
/-- `CAN_F_PRESC_F_PRESC`. -/
def canFPrescFPresc : RegField := ⟨24, 8⟩
/-- `CAN_F_PRESC_F_SJW`. -/
def canFPrescFSjw : RegField := ⟨16, 4⟩
/-- `CAN_F_PRESC_F_SEG_2`. -/
def canFPrescFSeg2 : RegField := ⟨8, 4⟩
/-- `CAN_F_PRESC_F_SEG_1`. -/
def canFPrescFSeg1 : RegField := ⟨0, 4⟩

/-! ## The bit timing table -/

/-- `can_bit_timing_option_t`. -/
inductive CanBitTimingOption where
  | can20
  | canfdNorminal
  | canfdData
  deriving DecidableEq, Repr

/-- `can_bit_timing_table_t`. -/
structure CanBitTimingTable where
  tqMin : Nat
  tqMax : Nat
  seg1Min : Nat
  seg1Max : Nat
  seg2Min : Nat
  seg2Max : Nat
  sjwMin : Nat
  sjwMax : Nat
  minDiffSeg1MinusSeg2 : Nat

/-- `s_can_bit_timing_tbl`. -/
def sCanBitTimingTbl : CanBitTimingOption → CanBitTimingTable
  | .can20 => ⟨8, 65 + 8, 2, 65, 1, 8, 1, 16, 2⟩
  | .canfdNorminal => ⟨8, 65 + 32, 2, 65, 1, 32, 1, 16, 2⟩
  | .canfdData => ⟨8, 17 + 8, 2, 17, 1, 8, 1, 8, 1⟩

/-! ## The search -/

/-- A `uint32_t` result. -/
def u32 (x : Nat) : Nat := x % 2 ^ 32

/-- The loop of `find_closest_prescaler` from `prescaler` on; it returns 0 where it gives up. -/
def findClosestPrescaler (numTqMulPrescaler maxTq minTq : Nat) : Nat → Nat → Option Nat
  | 0, _ => none
  | k + 1, prescaler =>
    if prescaler = 0 then none
    else if maxTq < numTqMulPrescaler / prescaler then
      let prescaler := u32 (prescaler + 1)
      if prescaler = 0 then none
      else
        let tq := numTqMulPrescaler / prescaler
        if u32 (tq * prescaler) = numTqMulPrescaler then some prescaler
        else if tq < minTq then some 0
        else findClosestPrescaler numTqMulPrescaler maxTq minTq k prescaler
    else some prescaler

/-- `while (num_seg2 > tbl->seg2_max) { num_seg2--; num_seg1++; }`. -/
def canLimitSeg2 (seg2Max : Nat) : Nat → Nat → Nat × Nat
  | seg1, 0 => (seg1, 0)
  | seg1, seg2 + 1 =>
    if seg2Max < seg2 + 1 then canLimitSeg2 seg2Max (u32 (seg1 + 1)) seg2 else (seg1, seg2 + 1)

/-- `while ((num_seg1 * 100U) / num_tq < 75U) { ++num_seg1; --num_seg2; }`. -/
def canMoveSamplePoint (numTq : Nat) : Nat → Nat → Option (Nat × Nat)
  | seg1, 0 => if u32 (seg1 * 100) / numTq < 75 then none else some (seg1, 0)
  | seg1, seg2 + 1 =>
    if u32 (seg1 * 100) / numTq < 75 then canMoveSamplePoint numTq (u32 (seg1 + 1)) seg2
    else some (seg1, seg2 + 1)

/-- The split of the time quanta of a bit into segments. -/
def canSplitTq (tbl : CanBitTimingTable) (numTq : Nat) : Option (Nat × Nat) :=
  if numTq < tbl.minDiffSeg1MinusSeg2 then none
  else
    let numSeg2 := (numTq - tbl.minDiffSeg1MinusSeg2) / 2
    let segs := canLimitSeg2 tbl.seg2Max (numTq - numSeg2) numSeg2
    if numTq = 0 then none else canMoveSamplePoint numTq segs.1 segs.2

/-- What the search finds. -/
structure CanTiming where
  prescaler : Nat
  seg1 : Nat
  seg2 : Nat
  sjw : Nat
  deriving DecidableEq, Repr

/-- The search from `startPrescaler` on; `some none` is that nothing fits. -/
def canSearch (tbl : CanBitTimingTable) (numTqMulPrescaler passes : Nat) :
    Nat → Nat → Option (Option CanTiming)
  | 0, _ => none
  | k + 1, startPrescaler =>
    (findClosestPrescaler numTqMulPrescaler tbl.tqMax tbl.tqMin passes startPrescaler).bind
      fun prescaler =>
        if prescaler < startPrescaler then some none
        else if prescaler = 0 then none
        else
          (canSplitTq tbl (numTqMulPrescaler / prescaler)).bind fun segs =>
            if tbl.seg2Min ≤ segs.2 ∧ segs.1 ≤ tbl.seg1Max then
              some (some ⟨prescaler, segs.1, segs.2, min tbl.sjwMax (u32 (segs.2 + 1) / 2)⟩)
            else canSearch tbl numTqMulPrescaler passes k (u32 (prescaler + 1))

/-! ## The call -/

/-- What is written for a timing; the numbers less 1 or 2 must not wrap. -/
def canPrescValue (presc seg1 seg2 sjw : RegField) (t : CanTiming) : Option (BitVec 32) :=
  if t.prescaler < 1 ∨ t.seg1 < 2 ∨ t.seg2 < 1 ∨ t.sjw < 1 then none
  else some (presc.set (BitVec.ofNat 32 (t.prescaler - 1)) |||
    seg1.set (BitVec.ofNat 32 (t.seg1 - 2)) ||| seg2.set (BitVec.ofNat 32 (t.seg2 - 1)) |||
    sjw.set (BitVec.ofNat 32 (t.sjw - 1)))

/-- The write of `S_PRESC` or `F_PRESC`. -/
def canWriteTiming (option : CanBitTimingOption) (base : CanBase) (t : CanTiming) :
    Option CanBase :=
  match option with
  | .can20 | .canfdNorminal =>
    (canPrescValue canSPrescSPresc canSPrescSSeg1 canSPrescSSeg2 canSPrescSSjw t).map fun v =>
      { base with sPresc := v }
  | .canfdData =>
    (canPrescValue canFPrescFPresc canFPrescFSeg1 canFPrescFSeg2 canFPrescFSjw t).map fun v =>
      { base with fPresc := v }

/-- `MIN_TQ_MUL_PRESCALE`. -/
def minTqMulPrescale : Nat := 10

/-- `can_set_bit_timing`, with at most so many passes of its loops. -/
def canSetBitTiming (passes : Nat) (base : CanBase) (option : CanBitTimingOption)
    (srcClkFreq baudrate : BitVec 32) : Option (CanStat × CanBase) :=
  let tbl := sCanBitTimingTbl option
  let numTqMulPrescaler := srcClkFreq.toNat / baudrate.toNat
  if baudrate = 0 ∨ numTqMulPrescaler < minTqMulPrescale then some (.invalidArgument, base)
  else if numTqMulPrescaler < tbl.tqMin then some (.invalidArgument, base)
  else
    (canSearch tbl numTqMulPrescaler passes passes 1).bind fun
      | none => some (.invalidArgument, base)
      | some t => (canWriteTiming option base t).map fun base => (.success, base)

/-! ## The contract -/

/-- The timing that a register stands for. -/
def canReadTiming (option : CanBitTimingOption) (base : CanBase) : CanTiming :=
  match option with
  | .can20 | .canfdNorminal =>
    ⟨(canSPrescSPresc.get base.sPresc).toNat + 1, (canSPrescSSeg1.get base.sPresc).toNat + 2,
      (canSPrescSSeg2.get base.sPresc).toNat + 1, (canSPrescSSjw.get base.sPresc).toNat + 1⟩
  | .canfdData =>
    ⟨(canFPrescFPresc.get base.fPresc).toNat + 1, (canFPrescFSeg1.get base.fPresc).toNat + 2,
      (canFPrescFSeg2.get base.fPresc).toNat + 1, (canFPrescFSjw.get base.fPresc).toNat + 1⟩

/-- A timing for a bit of so many clock cycles: the prescaler leaves as many time quanta as
the segments have, all are within the limits of the table, and the sample point is at 75
percent or behind. -/
structure CanTiming.Fits (tbl : CanBitTimingTable) (numTqMulPrescaler : Nat) (t : CanTiming) :
    Prop where
  quanta : numTqMulPrescaler / t.prescaler = t.seg1 + t.seg2
  tq : tbl.tqMin ≤ t.seg1 + t.seg2 ∧ t.seg1 + t.seg2 ≤ tbl.tqMax
  seg1 : tbl.seg1Min ≤ t.seg1 ∧ t.seg1 ≤ tbl.seg1Max
  seg2 : tbl.seg2Min ≤ t.seg2 ∧ t.seg2 ≤ tbl.seg2Max
  sjw : tbl.sjwMin ≤ t.sjw ∧ t.sjw ≤ tbl.sjwMax
  samplePoint : 75 * (t.seg1 + t.seg2) ≤ 100 * t.seg1

/-- What is asked of a call: it ends without a fault; on success the register holds a timing
that fits, and otherwise the registers are as before. -/
def CanSetsBitTiming (option : CanBitTimingOption) (srcClkFreq baudrate : BitVec 32) : Prop :=
  ∀ base, ∃ passes status base', canSetBitTiming passes base option srcClkFreq baudrate =
      some (status, base') ∧
    (status = .success → (canReadTiming option base').Fits (sCanBitTimingTbl option)
      (srcClkFreq.toNat / baudrate.toNat)) ∧
    (status ≠ .success → base' = base)

end HpmSdk.Can
