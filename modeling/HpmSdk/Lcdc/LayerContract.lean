import HpmSdk.Foundation.History
import HpmSdk.Lcdc.Layer
import Mathlib.Logic.Function.Basic

set_option autoImplicit false

/-!
# LCDC: what a sequence of layer configurations leaves behind

A configuration is reflected where the control register of the layer holds its values and nothing
else has changed.  Two fields are ored into the register without being masked out, so they hold
what the calls before have set.

For one call this is a condition on what the two fields hold before it, and a run of calls is a run
of such steps.
-/

namespace HpmSdk.Lcdc

open HpmSdk.Foundation

/-! ## The contract -/

/-- The fields of a control register hold the values of a configuration. -/
structure LcdcLayctrlHolds (ctrl : BitVec 32) (layer : LcdcLayerConfig) (enableLayer : Bool) :
    Prop where
  byteorder : lcdcLayctrlPackDir.get ctrl = (lcdcByteorder layer.byteorder).setWidth 32
  pixelFormat : lcdcLayctrlPixformat.get ctrl = lcdcPixelFormat layer.pixelFormat
  mode : lcdcLayctrlAbMode.get ctrl = layer.alphablend.mode.code
  srcAlphaOp : lcdcLayctrlLocalphaOp.get ctrl = layer.alphablend.srcAlphaOp.code
  dstAlphaOp : lcdcLayctrlInalphaOp.get ctrl = layer.alphablend.dstAlphaOp.code
  yuv : lcdcLayctrlYuvFormat.get ctrl = layer.yuv.code
  enable : lcdcLayctrlEn.get ctrl = flag enableLayer

/-- The arguments of a call. -/
structure LcdcCall where
  layerIndex : LcdcLayerIndex
  layer : LcdcLayerConfig
  enableLayer : Bool
  deriving DecidableEq, Repr

/-- A call, or the controller takes over the registers of a layer and clears the bit that asked
for it. -/
inductive LcdcAct where
  | configLayer (call : LcdcCall)
  | shadowLoaded (layerIndex : LcdcLayerIndex)
  deriving DecidableEq, Repr

/-- The registers behind an action. -/
def LcdcAct.step (regs : LcdcLayers) : LcdcAct → LcdcLayers
  | configLayer call => (lcdcConfigLayer regs call.layerIndex call.layer call.enableLayer).2
  | shadowLoaded i => Function.update regs i
      { regs i with layctrl := (regs i).layctrl &&& ~~~lcdcLayctrlShadowLoadEn.mask 32 }

/-- What is asked of a call: one that succeeds leaves its own values in the control register of
its layer and the other layers as they are, one that is rejected changes nothing. -/
def LcdcCallKeeps (regs : LcdcLayers) (call : LcdcCall) : Prop :=
  match lcdcConfigLayer regs call.layerIndex call.layer call.enableLayer with
  | (.success, regs') =>
    LcdcLayctrlHolds (regs' call.layerIndex).layctrl call.layer call.enableLayer ∧
      ∀ i, i ≠ call.layerIndex → regs' i = regs i
  | (.lcdcLayerNotSupported, regs') => regs' = regs

/-- Every call of a sequence does what is asked of it, behind what came before. -/
def LcdcCallsKeep (regs : LcdcLayers) (acts : List LcdcAct) : Prop :=
  ∀ before call, before ++ [.configLayer call] <+: acts →
    LcdcCallKeeps (before.foldl LcdcAct.step regs) call

/-- The two fields that are not masked out are zero, or what is ored into them are all their
bits. -/
def LcdcUnmaskedFit (ctrl : BitVec 32) (layer : LcdcLayerConfig) (enableLayer : Bool) : Prop :=
  (lcdcLayctrlPackDir.get ctrl = 0 ∨ lcdcByteorder layer.byteorder = 1) ∧
    (lcdcLayctrlEn.get ctrl = 0 ∨ enableLayer = true)

instance (ctrl : BitVec 32) (layer : LcdcLayerConfig) (enableLayer : Bool) :
    Decidable (LcdcUnmaskedFit ctrl layer enableLayer) :=
  inferInstanceAs (Decidable (_ ∧ _))

/-- The condition of an action. -/
def LcdcAct.Fits (regs : LcdcLayers) : LcdcAct → Prop
  | configLayer call => lcdcLayerRejected call.layerIndex call.layer = false →
      LcdcUnmaskedFit (regs call.layerIndex).layctrl call.layer call.enableLayer
  | shadowLoaded _ => True

/-! ## The control register -/

section Layctrl

variable {f : RegField} (ctrl : BitVec 32) (layer : LcdcLayerConfig) (enableLayer : Bool)

/-- The fields of the control register that a call sets, with their values. -/
def lcdcLayctrlFields : List (RegField × BitVec 32) :=
  [(lcdcLayctrlPackDir, (lcdcByteorder layer.byteorder).setWidth 32),
    (lcdcLayctrlPixformat, lcdcPixelFormat layer.pixelFormat),
    (lcdcLayctrlAbMode, layer.alphablend.mode.code),
    (lcdcLayctrlLocalphaOp, layer.alphablend.srcAlphaOp.code),
    (lcdcLayctrlInalphaOp, layer.alphablend.dstAlphaOp.code),
    (lcdcLayctrlYuvFormat, layer.yuv.code)]

/-- The values that are ored into the control register. -/
def lcdcLayctrlSets : BitVec 32 := RegField.sets (lcdcLayctrlFields layer)

/-- The fields of the control register do not overlap. -/
theorem lcdcLayctrlFields_apart :
    ((lcdcLayctrlFields layer).map Prod.fst).Pairwise RegField.Apart :=
  show [lcdcLayctrlPackDir, lcdcLayctrlPixformat, lcdcLayctrlAbMode, lcdcLayctrlLocalphaOp,
    lcdcLayctrlInalphaOp, lcdcLayctrlYuvFormat].Pairwise RegField.Apart by decide

/-- Every value fits its field. -/
theorem lcdcLayctrlFields_lt : ∀ p ∈ lcdcLayctrlFields layer,
    p.1.first + p.1.width ≤ 32 ∧ p.2.toNat < 2 ^ p.1.width := by
  have hbyteorder : ((lcdcByteorder layer.byteorder).setWidth 32).toNat < 2 ^ 1 := by
    cases layer.byteorder <;> decide
  have hformat : (lcdcPixelFormat layer.pixelFormat).toNat < 2 ^ 4 := by
    cases layer.pixelFormat <;> decide
  have hmode : layer.alphablend.mode.code.toNat < 2 ^ 4 := by
    cases layer.alphablend.mode <;> decide
  have hop : ∀ op : DisplayAlphaOp, op.code.toNat < 2 ^ 2 := by
    intro op
    cases op <;> decide
  have hyuv : layer.yuv.code.toNat < 2 ^ 2 := by
    cases layer.yuv <;> decide
  simp only [lcdcLayctrlFields, List.forall_mem_cons, List.not_mem_nil, false_imp_iff, implies_true,
    and_true]
  exact ⟨⟨by decide, hbyteorder⟩, ⟨by decide, hformat⟩, ⟨by decide, hmode⟩, ⟨by decide, hop _⟩,
    ⟨by decide, hop _⟩, by decide, hyuv⟩

/-- So each of them reads the value that it was set to. -/
theorem get_lcdcLayctrlSets {x : BitVec 32} (hmem : (f, x) ∈ lcdcLayctrlFields layer) :
    f.get (lcdcLayctrlSets layer) = x := by
  obtain ⟨hfirst, hvalue⟩ := lcdcLayctrlFields_lt layer _ hmem
  exact RegField.get_sets_of_lt (lcdcLayctrlFields_apart layer) hmem hfirst hvalue

/-- A field that sees neither bit 18 nor the request to load holds what was kept of it and what
is ored in. -/
theorem get_lcdcLayctrlOf (hbit : f.get ((1 : BitVec 32) <<< 18) = 0#32)
    (hload : f.get (lcdcLayctrlShadowLoadEn.mask 32) = 0#32) :
    f.get (lcdcLayctrlOf ctrl layer enableLayer) =
      (f.get ctrl &&& ~~~f.get lcdcLayctrlMasked) ||| f.get (lcdcLayctrlSets layer) |||
        f.get (if enableLayer then lcdcLayctrlEn.mask 32 else 0#32) := by
  unfold lcdcLayctrlOf lcdcLayctrlSets lcdcLayctrlFields
  cases enableLayer
  · simp only [RegField.sets, RegField.get_or, RegField.get_and_not, hbit, hload,
      Bool.false_eq_true, if_false, BitVec.or_zero, RegField.get_zero, BitVec.or_assoc]
  · simp only [RegField.sets, RegField.get_or, RegField.get_and_not, hbit, hload, if_true,
      BitVec.or_zero, BitVec.or_assoc]

/-- A field of more than one bit is masked out, so it holds the value of the call. -/
theorem get_lcdcLayctrlOf_of_masked (hbit : f.get ((1 : BitVec 32) <<< 18) = 0#32)
    (hload : f.get (lcdcLayctrlShadowLoadEn.mask 32) = 0#32)
    (hmasked : f.get lcdcLayctrlMasked = f.get (f.mask 32))
    (hen : f.get (lcdcLayctrlEn.mask 32) = 0#32) :
    f.get (lcdcLayctrlOf ctrl layer enableLayer) = f.get (lcdcLayctrlSets layer) := by
  have henable : f.get (if enableLayer then lcdcLayctrlEn.mask 32 else 0#32) = 0#32 := by
    cases enableLayer
    · exact RegField.get_zero
    · exact hen
  rw [get_lcdcLayctrlOf ctrl layer enableLayer hbit hload, hmasked, ← RegField.get_and_not,
    RegField.get_clear, henable, BitVec.or_zero, BitVec.zero_or]

/-- A field of one bit that is ored into holds the bit where it was zero or the bit is set. -/
theorem bit_or_eq_iff {v b : BitVec 32} (hv : v.toNat < 2) (hb : b = 0#32 ∨ b = 1#32) :
    v ||| b = b ↔ v = 0 ∨ b = 1 := by
  have hcases : v = 0#32 ∨ v = 1#32 := by
    have h : v.toNat = 0 ∨ v.toNat = 1 := by omega
    exact h.imp BitVec.eq_of_toNat_eq BitVec.eq_of_toNat_eq
  rcases hcases with rfl | rfl <;> rcases hb with rfl | rfl <;> decide

/-- The byte order is not masked out. -/
theorem get_packDir_lcdcLayctrlOf :
    lcdcLayctrlPackDir.get (lcdcLayctrlOf ctrl layer enableLayer) =
        (lcdcByteorder layer.byteorder).setWidth 32 ↔
      lcdcLayctrlPackDir.get ctrl = 0 ∨ lcdcByteorder layer.byteorder = 1 := by
  have henable : lcdcLayctrlPackDir.get (if enableLayer then lcdcLayctrlEn.mask 32 else 0#32) =
      0#32 := by
    cases enableLayer <;> decide
  have hkept : lcdcLayctrlPackDir.get lcdcLayctrlMasked = 0#32 := by decide
  have hsets : lcdcLayctrlPackDir.get (lcdcLayctrlSets layer) =
      (lcdcByteorder layer.byteorder).setWidth 32 :=
    get_lcdcLayctrlSets layer (by simp [lcdcLayctrlFields])
  rw [get_lcdcLayctrlOf ctrl layer enableLayer (by decide) (by decide), henable, hkept, hsets,
    BitVec.not_zero, BitVec.and_allOnes, BitVec.or_zero, bit_or_eq_iff]
  · cases layer.byteorder <;> simp [lcdcByteorder]
  · exact RegField.get_lt ctrl (by decide)
  · cases layer.byteorder <;> simp [lcdcByteorder]

/-- Nor is the bit that enables the layer. -/
theorem get_en_lcdcLayctrlOf :
    lcdcLayctrlEn.get (lcdcLayctrlOf ctrl layer enableLayer) = flag enableLayer ↔
      lcdcLayctrlEn.get ctrl = 0 ∨ enableLayer = true := by
  have henable : lcdcLayctrlEn.get (if enableLayer then lcdcLayctrlEn.mask 32 else 0#32) =
      flag enableLayer := by
    cases enableLayer <;> decide
  have hkept : lcdcLayctrlEn.get lcdcLayctrlMasked = 0#32 := by decide
  have hsets : lcdcLayctrlEn.get (lcdcLayctrlSets layer) = 0#32 := by
    apply RegField.get_sets_of_apart
    exact show ∀ g ∈ [lcdcLayctrlPackDir, lcdcLayctrlPixformat, lcdcLayctrlAbMode,
      lcdcLayctrlLocalphaOp, lcdcLayctrlInalphaOp, lcdcLayctrlYuvFormat], lcdcLayctrlEn.Apart g
      by decide
  rw [get_lcdcLayctrlOf ctrl layer enableLayer (by decide) (by decide), henable, hkept, hsets,
    BitVec.not_zero, BitVec.and_allOnes, BitVec.or_zero, bit_or_eq_iff]
  · cases enableLayer <;> simp [flag]
  · exact RegField.get_lt ctrl (by decide)
  · cases enableLayer <;> simp [flag]

/-- The control register holds the values of the call exactly if the two fields that are not
masked out fit. -/
theorem lcdcLayctrlHolds_iff :
    LcdcLayctrlHolds (lcdcLayctrlOf ctrl layer enableLayer) layer enableLayer ↔
      LcdcUnmaskedFit ctrl layer enableLayer := by
  have hmasked : ∀ (f : RegField) (x : BitVec 32), (f, x) ∈ lcdcLayctrlFields layer →
      f.get ((1 : BitVec 32) <<< 18) = 0#32 → f.get (lcdcLayctrlShadowLoadEn.mask 32) = 0#32 →
      f.get lcdcLayctrlMasked = f.get (f.mask 32) → f.get (lcdcLayctrlEn.mask 32) = 0#32 →
      f.get (lcdcLayctrlOf ctrl layer enableLayer) = x := by
    intro f x hmem hbit hload hclear hen
    rw [get_lcdcLayctrlOf_of_masked ctrl layer enableLayer hbit hload hclear hen]
    exact get_lcdcLayctrlSets layer hmem
  unfold LcdcUnmaskedFit
  rw [← get_packDir_lcdcLayctrlOf ctrl layer enableLayer, ← get_en_lcdcLayctrlOf ctrl layer]
  constructor
  · intro h
    exact ⟨h.byteorder, h.enable⟩
  · rintro ⟨hbyteorder, henable⟩
    refine ⟨hbyteorder, ?_, ?_, ?_, ?_, ?_, henable⟩
    · exact hmasked _ _ (by simp [lcdcLayctrlFields]) (by decide) (by decide) (by decide)
        (by decide)
    · exact hmasked _ _ (by simp [lcdcLayctrlFields]) (by decide) (by decide) (by decide)
        (by decide)
    · exact hmasked _ _ (by simp [lcdcLayctrlFields]) (by decide) (by decide) (by decide)
        (by decide)
    · exact hmasked _ _ (by simp [lcdcLayctrlFields]) (by decide) (by decide) (by decide)
        (by decide)
    · exact hmasked _ _ (by simp [lcdcLayctrlFields]) (by decide) (by decide) (by decide)
        (by decide)

end Layctrl

/-! ## One call -/

variable (regs : LcdcLayers)

/-- A call that is not rejected writes the registers of its layer, one that is writes none. -/
theorem lcdcConfigLayer_cases (layerIndex : LcdcLayerIndex) (layer : LcdcLayerConfig)
    (enableLayer : Bool) :
    (lcdcLayerRejected layerIndex layer = true ∧
        lcdcConfigLayer regs layerIndex layer enableLayer = (.lcdcLayerNotSupported, regs)) ∨
      (lcdcLayerRejected layerIndex layer = false ∧
        lcdcConfigLayer regs layerIndex layer enableLayer = (.success,
          Function.update regs layerIndex
            (lcdcLayerRegsOf (regs layerIndex).layctrl layer enableLayer))) := by
  unfold lcdcConfigLayer
  cases lcdcLayerRejected layerIndex layer
  · exact Or.inr ⟨rfl, rfl⟩
  · exact Or.inl ⟨rfl, rfl⟩

/-- One call: a configuration is kept if and only if what its two ored fields held before goes with
it. -/
theorem lcdcCallKeeps_iff (call : LcdcCall) :
    LcdcCallKeeps regs call ↔ (LcdcAct.configLayer call).Fits regs := by
  unfold LcdcCallKeeps LcdcAct.Fits
  rcases lcdcConfigLayer_cases regs call.layerIndex call.layer call.enableLayer with
    ⟨hrejected, hcall⟩ | ⟨hrejected, hcall⟩
  · rw [hcall]
    dsimp only
    rw [hrejected]
    exact iff_of_true rfl fun h => nomatch h
  · rw [hcall]
    dsimp only
    rw [hrejected]
    simp only [Function.update_self, lcdcLayerRegsOf, lcdcLayctrlHolds_iff, true_imp_iff]
    refine and_iff_left ?_
    intro i hi
    exact Function.update_of_ne hi _ _

/-! ## Sequences -/

/-- Every call of a sequence does what is asked of it exactly if, whenever one is not rejected,
the layer is disabled or the call enables it, and the layer's bytes have the normal order or the
call turns them round.

The control register is read, some of its fields are cleared and all of them are ored in.  The
fields that are not among the cleared ones are the byte order and the enable bit, so these two
keep a one that is there.  Every other register of the layer is written whole. -/
theorem lcdcCallsKeep_iff (acts : List LcdcAct) :
    LcdcCallsKeep regs acts ↔
      Along (fun regs act => some (LcdcAct.step regs act)) (fun regs act => act.Fits regs)
        regs acts := by
  refine Iff.trans ?_ (along_iff_prefixes acts regs).symm
  unfold LcdcCallsKeep
  constructor
  · intro h before act hpre
    cases act with
    | configLayer call => exact (lcdcCallKeeps_iff _ call).mp (h before call hpre)
    | shadowLoaded i => trivial
  · intro h before call hpre
    exact (lcdcCallKeeps_iff _ call).mpr (h before _ hpre)

/-- The first configuration of a layer behind a reset does what is asked of it. -/
theorem lcdcCallKeeps_reset (call : LcdcCall) :
    LcdcCallKeeps (lcdcResetRegisterValues regs) call := by
  rw [lcdcCallKeeps_iff]
  intro _
  have hctrl : (lcdcResetRegisterValues regs call.layerIndex).layctrl = 0#32 := by
    unfold lcdcResetRegisterValues
    dsimp only
    split <;> rfl
  rw [LcdcUnmaskedFit, hctrl]
  exact ⟨Or.inl RegField.get_zero, Or.inl RegField.get_zero⟩

/-- A configuration for tests. -/
def lcdcLayerExample (byteorder : DisplayByteorder) : LcdcLayerConfig where
  maxOt := 0
  byteorder := byteorder
  yuv := .mode422U1y1v1y2
  pixelFormat := .rgb565
  alphablend := ⟨0, 0, .invalid, .invalid, .clear⟩
  cscConfig := ⟨false, false, ⟨0, 0, 0, 0, 0, 0, 0⟩⟩
  maxBytes := .bytes64
  height := 480
  width := 800
  positionX := 0
  positionY := 0
  background := 0
  buffer := 0x1080000

/-- A layer whose bytes are turned round stays so in the next configuration, which does not ask
for it. -/
theorem lcdcCallsKeep_turned : ¬ LcdcCallsKeep
    (lcdcResetRegisterValues fun _ => ⟨0, 0, 0, 0, 0, 0, 0, 0, 0, 0⟩)
    [.configLayer ⟨⟨0, by decide⟩, lcdcLayerExample .a0a1a2a3, true⟩,
      .configLayer ⟨⟨0, by decide⟩, lcdcLayerExample .a3a2a1a0, true⟩] := by
  intro h
  have hkeeps := h [_] _ (List.prefix_refl _)
  rw [lcdcCallKeeps_iff] at hkeeps
  revert hkeeps
  unfold LcdcAct.Fits
  decide

end HpmSdk.Lcdc
