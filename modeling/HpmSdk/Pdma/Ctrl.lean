import HpmSdk.Foundation.History
import HpmSdk.Foundation.Registers

set_option autoImplicit false

/-!
# PDMA: the control register (`hpm_pdma_drv.c`)

Three functions change some bits of `CTRL` each.  `pdma_set_block_size` does not: its
conditional takes the rest of the register for its test, and the register becomes what the
conditional gives.

A call says something of some bits, and `Foundation.History` is instantiated with the bits of the
register as the things that have a name.
-/

namespace HpmSdk.Pdma

open HpmSdk.Foundation

/-! ## The functions -/

/-- `PDMA_CTRL_AXIERR_IRQ_EN_MASK`. -/
def pdmaCtrlAxierrIrqEn : BitVec 32 := 0x1000

/-- `PDMA_CTRL_PDMA_DONE_IRQ_EN_MASK`. -/
def pdmaCtrlPdmaDoneIrqEn : BitVec 32 := 0x800

/-- `PDMA_CTRL_IRQ_EN_MASK`. -/
def pdmaCtrlIrqEn : BitVec 32 := 0x40

/-- `PDMA_CTRL_BS16_MASK`. -/
def pdmaCtrlBs16 : BitVec 32 := 0x20

/-- `PDMA_CTRL_P1_EN_MASK`. -/
def pdmaCtrlP1En : BitVec 32 := 0x10

/-- `PDMA_CTRL_P0_EN_MASK`. -/
def pdmaCtrlP0En : BitVec 32 := 0x8

/-- `pdma_blocksize_t`. -/
inductive PdmaBlocksize where
  | blocksize16x16
  | blocksize8x8
  deriving DecidableEq, Repr

/-- `pdma_plane_t`. -/
inductive PdmaPlane where
  | src
  | dst
  | both
  | none
  deriving DecidableEq, Repr

/-- `pdma_set_block_size`, by the precedence of the operators. -/
def pdmaSetBlockSize (ctrl : BitVec 32) (size : PdmaBlocksize) : BitVec 32 :=
  if (ctrl &&& ~~~pdmaCtrlBs16) ||| (if size = .blocksize16x16 then 1 else 0) ≠ 0 then
    pdmaCtrlBs16
  else 0

/-- The bits of a plane. -/
def pdmaPlaneMask : PdmaPlane → BitVec 32
  | .both => pdmaCtrlP0En ||| pdmaCtrlP1En
  | .src => pdmaCtrlP0En
  | .dst => pdmaCtrlP1En
  | .none => 0

/-- `pdma_enable_plane`. -/
def pdmaEnablePlane (ctrl : BitVec 32) (plane : PdmaPlane) (enable : Bool) : BitVec 32 :=
  let mask := pdmaPlaneMask plane
  if mask = 0 then ctrl
  else if enable then ctrl ||| mask
  else ctrl &&& ~~~mask

/-- `pdma_enable_irq`. -/
def pdmaEnableIrq (ctrl mask : BitVec 32) (enable : Bool) : BitVec 32 :=
  let mask := mask &&& (pdmaCtrlAxierrIrqEn ||| pdmaCtrlPdmaDoneIrqEn)
  if enable then ctrl ||| (mask ||| pdmaCtrlIrqEn) else ctrl &&& ~~~mask

/-- A call of one of the functions. -/
inductive PdmaCtrlCall where
  | setBlockSize (size : PdmaBlocksize)
  | enablePlane (plane : PdmaPlane) (enable : Bool)
  | enableIrq (mask : BitVec 32) (enable : Bool)
  deriving DecidableEq, Repr

/-- `CTRL` behind a call. -/
def PdmaCtrlCall.step (ctrl : BitVec 32) : PdmaCtrlCall → BitVec 32
  | setBlockSize size => pdmaSetBlockSize ctrl size
  | enablePlane plane enable => pdmaEnablePlane ctrl plane enable
  | enableIrq mask enable => pdmaEnableIrq ctrl mask enable

/-! ## The contract -/

/-- The bit that a call gives a value, by its number: the block size, the planes that are named
or the interrupts that are named.  `irqEn` says whether `IRQ_EN` counts as a bit that is named
where interrupts are enabled. -/
def PdmaCtrlCall.names (irqEn : Bool) : PdmaCtrlCall → Nat → Option Bool
  | setBlockSize size, i =>
    if pdmaCtrlBs16.getLsbD i then some (decide (size = .blocksize16x16)) else none
  | enablePlane plane enable, i => if (pdmaPlaneMask plane).getLsbD i then some enable else none
  | enableIrq mask enable, i =>
    if (mask &&& (pdmaCtrlAxierrIrqEn ||| pdmaCtrlPdmaDoneIrqEn)).getLsbD i then some enable
    else if irqEn = true ∧ enable = true ∧ pdmaCtrlIrqEn.getLsbD i then some true
    else none

/-- What is asked of a sequence of calls: at every point each bit has the value that the last
call naming it gave, and where none did the value it started with. -/
def PdmaCtrlReflects (irqEn : Bool) (ctrl : BitVec 32) (calls : List PdmaCtrlCall) : Prop :=
  ∀ calls', calls' <+: calls →
    Reflects PdmaCtrlCall.step BitVec.getLsbD (PdmaCtrlCall.names irqEn) ctrl calls'

/-- When a call changes the bits it names and no other: the block size is set where all other
bits are zero; where `IRQ_EN` does not count, interrupts are enabled where it is set. -/
def PdmaCtrlCall.Sets (irqEn : Bool) (ctrl : BitVec 32) : PdmaCtrlCall → Prop
  | setBlockSize _ => ctrl &&& ~~~pdmaCtrlBs16 = 0
  | enablePlane _ _ => True
  | enableIrq _ enable => irqEn = true ∨ (enable = true → ctrl &&& pdmaCtrlIrqEn ≠ 0)

/-! ## One call -/

section Steps

variable (ctrl mask : BitVec 32) (i : Nat)

/-- Oring a mask in sets its bits and leaves the others. -/
theorem getLsbD_or_mask : (ctrl ||| mask).getLsbD i =
    (if mask.getLsbD i then some true else none).getD (ctrl.getLsbD i) := by
  rw [BitVec.getLsbD_or]
  cases mask.getLsbD i <;> simp

/-- Masking out clears the bits of the mask and leaves the others. -/
theorem getLsbD_and_not_mask : (ctrl &&& ~~~mask).getLsbD i =
    (if mask.getLsbD i then some false else none).getD (ctrl.getLsbD i) := by
  rw [BitVec.getLsbD_and, BitVec.getLsbD_not]
  by_cases hi : i < 32
  · cases mask.getLsbD i <;> simp [hi]
  · have hmask := BitVec.getLsbD_of_ge mask i (Nat.le_of_not_lt hi)
    have hctrl := BitVec.getLsbD_of_ge ctrl i (Nat.le_of_not_lt hi)
    simp [hmask, hctrl]

/-- Setting and clearing the bits of a mask. -/
theorem getLsbD_masked (enable : Bool) :
    (if enable then ctrl ||| mask else ctrl &&& ~~~mask).getLsbD i =
      (if mask.getLsbD i then some enable else none).getD (ctrl.getLsbD i) := by
  cases enable
  · exact getLsbD_and_not_mask ctrl mask i
  · exact getLsbD_or_mask ctrl mask i

/-- Enabling or disabling a plane says something of its bits only. -/
theorem pdmaEnablePlane_getLsbD (plane : PdmaPlane) (enable : Bool) :
    (pdmaEnablePlane ctrl plane enable).getLsbD i =
      (if (pdmaPlaneMask plane).getLsbD i then some enable else none).getD (ctrl.getLsbD i) := by
  unfold pdmaEnablePlane
  dsimp only
  by_cases hmask : pdmaPlaneMask plane = 0
  · rw [if_pos hmask, hmask]
    simp
  · rw [if_neg hmask]
    exact getLsbD_masked ctrl _ i enable

/-- Setting a bit to a value. -/
theorem getLsbD_clear_or (set : Bool) :
    ((ctrl &&& ~~~mask) ||| if set then mask else 0).getLsbD i =
      (if mask.getLsbD i then some set else none).getD (ctrl.getLsbD i) := by
  rw [BitVec.getLsbD_or, getLsbD_and_not_mask]
  cases set <;> cases h : mask.getLsbD i <;> simp [h]

theorem clear_or_clear (set : Bool) :
    ((ctrl &&& ~~~mask) ||| if set then mask else 0) &&& ~~~mask = ctrl &&& ~~~mask := by
  refine BitVec.eq_of_getLsbD_eq fun i hi => ?_
  rw [BitVec.getLsbD_and, getLsbD_clear_or, BitVec.getLsbD_and, BitVec.getLsbD_not]
  cases mask.getLsbD i <;> simp

end Steps

variable (ctrl : BitVec 32)

/-- The conditional gives what it should where the rest of the register is zero. -/
theorem pdmaSetBlockSize_eq_iff (size : PdmaBlocksize) :
    pdmaSetBlockSize ctrl size =
        ((ctrl &&& ~~~pdmaCtrlBs16) |||
          if decide (size = .blocksize16x16) then pdmaCtrlBs16 else 0) ↔
      ctrl &&& ~~~pdmaCtrlBs16 = 0 := by
  constructor
  · intro h
    -- without the bit, the left side is zero and the right side the rest of the register
    have hrest := congrArg (· &&& ~~~pdmaCtrlBs16) h
    simp only [clear_or_clear] at hrest
    have hbit : pdmaSetBlockSize ctrl size = pdmaCtrlBs16 ∨ pdmaSetBlockSize ctrl size = 0 :=
      ite_eq_or_eq _ _ _
    rw [← hrest]
    rcases hbit with hbit | hbit <;> rw [hbit]
    · decide
    · decide
  · intro h
    unfold pdmaSetBlockSize
    rw [h]
    cases size
    · decide
    · decide

/-- The test of the conditional is whether the interrupt is enabled. -/
theorem and_irqEn_ne_zero : ctrl &&& pdmaCtrlIrqEn ≠ 0 ↔ ctrl.getLsbD 6 = true := by
  have hpow : pdmaCtrlIrqEn = BitVec.twoPow 32 6 := by decide
  rw [hpow, BitVec.and_twoPow]
  cases ctrl.getLsbD 6
  · simp
  · simp only [if_true, iff_true]
    decide

theorem getLsbD_irqEn (i : Nat) : pdmaCtrlIrqEn.getLsbD i = decide (i = 6) := by
  have hpow : pdmaCtrlIrqEn = BitVec.twoPow 32 6 := by decide
  rw [hpow, BitVec.getLsbD_twoPow]
  simp [eq_comm]

/-- Enabling interrupts sets `IRQ_EN` as well. -/
theorem pdmaEnableIrq_sets_iff (irqEn : Bool) (mask : BitVec 32) :
    (∀ i, (pdmaEnableIrq ctrl mask true).getLsbD i =
        ((PdmaCtrlCall.enableIrq mask true).names irqEn i).getD (ctrl.getLsbD i)) ↔
      irqEn = true ∨ ctrl &&& pdmaCtrlIrqEn ≠ 0 := by
  have hnamed : (mask &&& (pdmaCtrlAxierrIrqEn ||| pdmaCtrlPdmaDoneIrqEn)).getLsbD 6 = false := by
    rw [BitVec.getLsbD_and]
    exact Bool.and_false _
  unfold pdmaEnableIrq
  simp only [PdmaCtrlCall.names, if_true, and_irqEn_ne_zero]
  generalize mask &&& (pdmaCtrlAxierrIrqEn ||| pdmaCtrlPdmaDoneIrqEn) = m at hnamed ⊢
  constructor
  · intro h
    have hbit := h 6
    rw [BitVec.getLsbD_or, BitVec.getLsbD_or, getLsbD_irqEn] at hbit
    cases irqEn
    · simp only [hnamed, Bool.false_eq_true, false_and, if_false, decide_true, Bool.or_true,
        Option.getD_none] at hbit
      exact Or.inr hbit.symm
    · exact Or.inl rfl
  · intro h i
    rw [BitVec.getLsbD_or, BitVec.getLsbD_or, getLsbD_irqEn]
    by_cases hi : i = 6
    · subst hi
      rcases h with h | h
      · simp only [hnamed, h, decide_true, Bool.or_true, Bool.false_eq_true, and_self, if_true,
          if_false, Option.getD_some]
      · simp only [h, Bool.true_or]
        cases irqEn <;> simp only [hnamed, decide_true, Bool.false_eq_true, and_self, false_and,
          if_true, if_false, Option.getD_some, Option.getD_none]
    · cases m.getLsbD i <;> simp [hi]

/-- A call sets what it names and nothing else exactly under its condition. -/
theorem pdmaCtrlCall_sets_iff (irqEn : Bool) (call : PdmaCtrlCall) :
    Foundation.Sets PdmaCtrlCall.step BitVec.getLsbD (PdmaCtrlCall.names irqEn) ctrl call ↔
      call.Sets irqEn ctrl := by
  cases call with
  | setBlockSize size =>
    rw [PdmaCtrlCall.Sets, ← pdmaSetBlockSize_eq_iff ctrl size]
    constructor
    · intro h
      refine BitVec.eq_of_getLsbD_eq fun i _ => ?_
      rw [getLsbD_clear_or]
      exact h i
    · intro h i
      simp only [PdmaCtrlCall.step, h]
      exact getLsbD_clear_or ctrl pdmaCtrlBs16 i _
  | enablePlane plane enable =>
    exact iff_of_true (fun i => pdmaEnablePlane_getLsbD ctrl i plane enable) trivial
  | enableIrq mask enable =>
    cases enable
    · refine iff_of_true (fun i => ?_) (Or.inr fun h => nomatch h)
      simp only [PdmaCtrlCall.names, Bool.false_eq_true, false_and, and_false, if_false]
      exact getLsbD_and_not_mask ctrl _ i
    · refine (pdmaEnableIrq_sets_iff ctrl irqEn mask).trans ?_
      simp only [PdmaCtrlCall.Sets, true_imp_iff]

/-! ## Sequences -/

/-- The bits reflect a sequence of calls at every point exactly if each block size is set where
the other bits are zero and, where `IRQ_EN` does not count as named, interrupts are enabled where
it is set.

All calls but one change the bits they are about and no other one.  In `pdma_set_block_size` the
conditional operator takes the rest of the register as part of its test, so the register is lost
where it was not zero.  Each call is right under its condition whatever was called before, so a
sequence is where each of its calls is. -/
theorem pdmaCtrlReflects_iff (irqEn : Bool) (calls : List PdmaCtrlCall) :
    PdmaCtrlReflects irqEn ctrl calls ↔
      Along (fun ctrl call => some (PdmaCtrlCall.step ctrl call))
        (fun ctrl call => call.Sets irqEn ctrl) ctrl calls :=
  reflects_iff_along (fun ctrl call => pdmaCtrlCall_sets_iff ctrl irqEn call) ctrl calls

/-- A block size that is set while plane 0 is enabled disables it. -/
theorem pdmaCtrlReflects_enabled : ¬ PdmaCtrlReflects true 0
    [.enablePlane .src true, .setBlockSize .blocksize8x8] := by
  intro h
  have hbit := h _ (List.prefix_refl _) 3
  revert hbit
  decide

end HpmSdk.Pdma
