import HpmSdk.Foundation.Registers
import HpmSdk.Gpio.Pin

set_option autoImplicit false

/-!
# GPIO: what the operations on pins keep

The handlers that are run are the ones that the history of the pin tells, whatever is done; the
bounds of the table, the trigger of an enabled pin and the enable behind a detach hold where every
step meets its condition.

Every part of the state is a function of the history by `Foundation.History`, and for each property
it is the last action on the pin that decides.
-/

namespace HpmSdk.Gpio

open HpmSdk.Foundation

/-! ## The contract -/

/-- What was attached to a pin; the mode is the 16 bits of it that are kept. -/
structure PinAttachment where
  mode : BitVec 16
  hdr : BitVec 32
  args : BitVec 32
  deriving DecidableEq, Repr

/-- What a step says about the attachment of a pin. -/
def PinStep.attachment (pin : Nat) : PinStep → Option (Option PinAttachment)
  | attach p mode hdr args =>
    if p.val = pin then some (some ⟨mode.setWidth 16, hdr, args⟩) else none
  | detach p => if p.val = pin then some none else none
  | _ => none

/-- What a step says about the flag of a pin. -/
def PinStep.flag (pin : Nat) : PinStep → Option Bool
  | raise p => if p.val = pin then some true else none
  | round p => if p = pin then some false else none
  | _ => none

/-- The attachment of a pin behind some steps: the last one, unless it is detached. -/
def pinAttachment (steps : List PinStep) (pin : Nat) : Option PinAttachment :=
  (lastSome (PinStep.attachment pin) steps).getD none

/-- The flag of a pin is up and no round has seen it. -/
def pinPending (steps : List PinStep) (pin : Nat) : Bool :=
  (lastSome (PinStep.flag pin) steps).getD false

/-- The handler that a step runs: in a round for a pin whose flag is up, the one that is
attached. -/
def pinExpected (steps : List PinStep) : PinStep → List PinCall
  | .round pin =>
    match pinPending steps pin, pinAttachment steps pin with
    | true, some ⟨_, hdr, args⟩ => if hdr ≠ 0 then [⟨pin, hdr, args⟩] else []
    | _, _ => []
  | _ => []

/-- The edge or level that a mode asks for; the controller has none for both edges. -/
def pinModeTrigger (mode : BitVec 16) : Option GpioInterruptTrigger :=
  if mode = pinIrqModeRising then some .edgeRising
  else if mode = pinIrqModeFalling then some .edgeFalling
  else if mode = pinIrqModeHighLevel then some .levelHigh
  else if mode = pinIrqModeLowLevel then some .levelLow
  else none

/-- The bit of a pin. -/
def gpioBit (regs : Nat → BitVec 32) (pin : Nat) : Bool := (regs (pin / 32)).getLsbD (pin % 32)

namespace PinState

/-- The interrupt of a pin is enabled. -/
def enabled (s : PinState) (pin : Nat) : Bool := gpioBit s.gpio.enables pin

/-- What a pin triggers on. -/
def trigger (s : PinState) (pin : Nat) : GpioInterruptTrigger :=
  match gpioBit s.gpio.edge pin, gpioBit s.gpio.polarity pin with
  | true, false => .edgeRising
  | true, true => .edgeFalling
  | false, false => .levelHigh
  | false, true => .levelLow

/-- All that belongs to a pin. -/
def view (s : PinState) (pin : Nat) : RtPinIrqHdr × Bool × GpioInterruptTrigger × Bool :=
  (s.tbl pin, s.enabled pin, s.trigger pin, gpioBit s.gpio.flags pin)

end PinState

/-- What is asked behind some steps. -/
structure PinHolds (s : PinState) (steps : List PinStep) : Prop where
  bounds : ∀ i ∈ (steps.foldl pinStep s).accesses, i < hpmGpioPinHdrTblSize
  calls : ∀ before a, steps = before ++ [a] →
    (steps.foldl pinStep s).calls = (before.foldl pinStep s).calls ++ pinExpected before a
  triggers : ∀ pin attachment, pinAttachment steps pin = some attachment →
    (steps.foldl pinStep s).enabled pin = true →
      pinModeTrigger attachment.mode = some ((steps.foldl pinStep s).trigger pin) ∧
        (steps.foldl pinStep s).irqEnabled (hpmGetGpiIrqNum (pin / 32)) = true
  detached : ∀ before pin, steps = before ++ [.detach pin] →
    (steps.foldl pinStep s).enabled pin.val = false
  frame : ∀ before a, steps = before ++ [a] → ∀ pin, pin ≠ a.pin →
    (steps.foldl pinStep s).view pin = (before.foldl pinStep s).view pin

/-- When a step does what is asked: it does not touch the table for the last pad, a pin is detached
while it is not enabled, is attached while it is enabled with a mode that asks for the trigger it
has, and is enabled with a mode that asks for one. -/
def PinFits (s : PinState) : PinStep → Prop
  | .attach pin mode _ _ =>
    pin.val ≠ iocPadPz11 ∧
      (s.enabled pin.val = true →
        pinModeTrigger (mode.setWidth 16) = some (s.trigger pin.val))
  | .detach pin => pin.val ≠ iocPadPz11 ∧ s.enabled pin.val = false
  | .irqEnable pin enabled =>
    enabled = pinIrqEnable →
      pin.val ≠ iocPadPz11 ∧ (pinModeTrigger (s.tbl pin.val).mode).isSome = true
  | .raise _ => True
  | .round pin => gpioBit s.gpio.flags pin = true → pin ≠ iocPadPz11

/-! ## Registers -/

section Registers

variable (regs : Nat → BitVec 32) (pin q : Nat)

/-- Two pins are the same where their ports and bits are. -/
theorem pin_eq_iff : pin = q ↔ pin / 32 = q / 32 ∧ pin % 32 = q % 32 := by
  omega

/-- A write to a set register sets the bit of the pin. -/
theorem gpioBit_set : gpioBit (gpioSet regs (pin / 32) (pin % 32)) q =
    (decide (pin = q) || gpioBit regs q) := by
  have hlt : pin % 32 < 32 := Nat.mod_lt _ (by decide)
  unfold gpioBit gpioSet
  by_cases hport : q / 32 = pin / 32
  · rw [hport, Function.update_self, BitVec.getLsbD_or, getLsbD_one_shiftLeft hlt, Bool.or_comm]
    simp [pin_eq_iff pin q, hport]
  · have hne : pin ≠ q := fun h => hport (by rw [h])
    rw [Function.update_of_ne hport]
    simp [hne]

/-- A write to a clear register clears the bit of the pin. -/
theorem gpioBit_clear : gpioBit (gpioClear regs (pin / 32) (pin % 32)) q =
    (!decide (pin = q) && gpioBit regs q) := by
  have hlt : pin % 32 < 32 := Nat.mod_lt _ (by decide)
  have hlt' : q % 32 < 32 := Nat.mod_lt _ (by decide)
  unfold gpioBit gpioClear
  by_cases hport : q / 32 = pin / 32
  · rw [hport, Function.update_self, BitVec.getLsbD_and, BitVec.getLsbD_not,
      getLsbD_one_shiftLeft hlt, Bool.and_comm]
    simp [pin_eq_iff pin q, hport, hlt']
  · have hne : pin ≠ q := fun h => hport (by rw [h])
    rw [Function.update_of_ne hport]
    simp [hne]

end Registers

/-! ## What a step does -/

section Steps

variable (s : PinState) (a : PinStep) (q : Nat)

/-- The entry that a step writes for a pin. -/
def PinStep.entry (q : Nat) : PinStep → Option RtPinIrqHdr
  | attach p mode hdr args =>
    if p.val = q then some ⟨BitVec.ofNat 16 p.val, mode.setWidth 16, hdr, args⟩ else none
  | detach p => if p.val = q then some ⟨pinIrqPinNone, 0, 0, 0⟩ else none
  | _ => none

/-- What a step says about the enable of a pin. -/
def PinStep.enable (q : Nat) : PinStep → Option Bool
  | irqEnable p enabled =>
    if p.val = q then
      if enabled = pinIrqEnable then some true
      else if enabled = pinIrqDisable then some false else none
    else none
  | _ => none

/-- A round of a pin by its number. -/
theorem hpmGpioIsrRound_eq (pin : Nat) : hpmGpioIsrRound (pin / 32) (pin % 32) s =
    if gpioBit s.gpio.flags pin then
      { s with
        gpio := { s.gpio with flags := gpioClear s.gpio.flags (pin / 32) (pin % 32) }
        accesses := s.accesses ++ [pin]
        calls :=
          if (s.tbl pin).hdr ≠ 0 then s.calls ++ [⟨pin, (s.tbl pin).hdr, (s.tbl pin).args⟩]
          else s.calls }
    else s := by
  rw [hpmGpioIsrRound, Nat.div_add_mod']
  rfl

/-- The table behind a step: the entry that the step writes, and the others as before. -/
theorem pinStep_tbl : (pinStep s a).tbl q = (a.entry q).getD (s.tbl q) := by
  cases a with
  | attach p mode hdr args =>
    simp only [pinStep, hpmPinAttachIrq, PinState.setEntry, PinStep.entry, Function.update_apply,
      eq_comm (a := q)]
    split <;> rfl
  | detach p =>
    simp only [pinStep, hpmPinDetachIrq, PinState.setEntry, PinStep.entry, Function.update_apply,
      eq_comm (a := q)]
    split <;> rfl
  | irqEnable p enabled =>
    simp only [pinStep, hpmPinIrqEnable, PinStep.entry]
    split
    · rfl
    · split <;> rfl
  | raise p => rfl
  | round p =>
    simp only [pinStep, hpmGpioIsrRound_eq, PinStep.entry]
    split <;> rfl

theorem gpioConfigPinInterrupt_enables (gpio : GpioRegs) (gpioIndex pinIndex : Nat)
    (trigger : GpioInterruptTrigger) :
    (gpioConfigPinInterrupt gpio gpioIndex pinIndex trigger).enables = gpio.enables ∧
      (gpioConfigPinInterrupt gpio gpioIndex pinIndex trigger).flags = gpio.flags := by
  cases trigger <;> exact ⟨rfl, rfl⟩

/-- The enables behind a step. -/
theorem pinStep_enabled : (pinStep s a).enabled q = (a.enable q).getD (s.enabled q) := by
  cases a with
  | attach p mode hdr args => rfl
  | detach p => rfl
  | irqEnable p enabled =>
    simp only [pinStep, hpmPinIrqEnable, PinStep.enable, PinState.enabled]
    by_cases henable : enabled = pinIrqEnable
    · rw [if_pos henable, (gpioConfigPinInterrupt_enables _ _ _ _).1, gpioBit_set]
      by_cases hp : p.val = q <;> simp [hp, henable]
    · by_cases hdisable : enabled = pinIrqDisable
      · rw [if_neg henable, if_pos hdisable, gpioBit_clear]
        have hne : pinIrqDisable ≠ pinIrqEnable := by decide
        by_cases hp : p.val = q <;> simp [hp, hdisable, hne]
      · simp [henable, hdisable]
  | raise p => rfl
  | round p =>
    simp only [pinStep, hpmGpioIsrRound_eq, PinStep.enable, PinState.enabled]
    split <;> rfl

/-- The flags behind a step. -/
theorem pinStep_flag :
    gpioBit (pinStep s a).gpio.flags q = (a.flag q).getD (gpioBit s.gpio.flags q) := by
  cases a with
  | attach p mode hdr args => rfl
  | detach p => rfl
  | irqEnable p enabled =>
    simp only [pinStep, hpmPinIrqEnable, PinStep.flag]
    split
    · rw [(gpioConfigPinInterrupt_enables _ _ _ _).2]
      rfl
    · split <;> rfl
  | raise p =>
    simp only [pinStep, PinStep.flag, gpioBit_set]
    by_cases hp : p.val = q <;> simp [hp]
  | round p =>
    simp only [pinStep, hpmGpioIsrRound_eq, PinStep.flag]
    by_cases hflag : gpioBit s.gpio.flags p = true
    · rw [if_pos hflag, gpioBit_clear]
      by_cases hp : p = q <;> simp [hp]
    · rw [if_neg hflag]
      by_cases hp : p = q
      · rw [← hp]
        simpa using hflag
      · simp [hp]

/-- What is configured is what the pin triggers on, and the others keep what they have. -/
theorem trigger_config (pin : Nat) (trigger : GpioInterruptTrigger) :
    PinState.trigger { s with
      gpio := gpioConfigPinInterrupt s.gpio (pin / 32) (pin % 32) trigger } q =
      if pin = q then trigger else s.trigger q := by
  unfold PinState.trigger
  by_cases hp : pin = q <;> cases trigger <;>
    simp [gpioConfigPinInterrupt, gpioBit_set, gpioBit_clear, hp]

/-- Enabling takes the trigger from the mode that was attached. -/
theorem pinStep_trigger : (pinStep s a).trigger q =
    if a.enable q = some true then hpmPinTrigger (s.tbl q).mode else s.trigger q := by
  cases a with
  | attach p mode hdr args => rfl
  | detach p => rfl
  | irqEnable p enabled =>
    simp only [pinStep, hpmPinIrqEnable, PinStep.enable]
    by_cases henable : enabled = pinIrqEnable
    · simp only [henable, if_true]
      refine (trigger_config s q p.val _).trans ?_
      by_cases hp : p.val = q <;> simp [hp]
    · simp only [if_neg henable]
      by_cases hp : p.val = q <;> by_cases hdisable : enabled = pinIrqDisable <;>
        simp [hp, hdisable] <;> rfl
  | raise p => rfl
  | round p =>
    simp only [pinStep, hpmGpioIsrRound_eq, PinStep.enable]
    split <;> rfl

/-- The indices that a step accesses the table at. -/
def PinStep.accesses (s : PinState) : PinStep → List Nat
  | attach p _ _ _ => [p.val]
  | detach p => [p.val]
  | irqEnable p enabled => if enabled = pinIrqEnable then [p.val] else []
  | raise _ => []
  | round p => if gpioBit s.gpio.flags p then [p] else []

/-- Accesses are only noted, so that they add up over a run. -/
theorem pinStep_accesses : (pinStep s a).accesses = s.accesses ++ a.accesses s := by
  cases a with
  | attach p mode hdr args => rfl
  | detach p => rfl
  | irqEnable p enabled =>
    simp only [pinStep, hpmPinIrqEnable, PinStep.accesses]
    split
    · rfl
    · split <;> simp
  | raise p => simp [pinStep, PinStep.accesses]
  | round p =>
    simp only [pinStep, hpmGpioIsrRound_eq, PinStep.accesses]
    split <;> simp

/-- The handlers that a step runs. -/
def PinStep.calls (s : PinState) : PinStep → List PinCall
  | round p =>
    if gpioBit s.gpio.flags p = true ∧ (s.tbl p).hdr ≠ 0 then
      [⟨p, (s.tbl p).hdr, (s.tbl p).args⟩]
    else []
  | _ => []

/-- Handlers that were run are only noted as well. -/
theorem pinStep_calls : (pinStep s a).calls = s.calls ++ a.calls s := by
  cases a with
  | attach p mode hdr args => exact (List.append_nil _).symm
  | detach p => exact (List.append_nil _).symm
  | irqEnable p enabled =>
    simp only [pinStep, hpmPinIrqEnable, PinStep.calls, List.append_nil]
    split
    · rfl
    · split <;> rfl
  | raise p => exact (List.append_nil _).symm
  | round p =>
    simp only [pinStep, hpmGpioIsrRound_eq, PinStep.calls]
    by_cases hflag : gpioBit s.gpio.flags p = true
    · rw [if_pos hflag]
      by_cases hhdr : (s.tbl p).hdr ≠ 0
      · simp only [if_pos hhdr, if_pos (And.intro hflag hhdr)]
      · simp only [if_neg hhdr, if_neg (fun h : _ ∧ _ => hhdr h.2), List.append_nil]
    · simp [hflag]

/-- An enabled pin has the interrupt of its port enabled. -/
def PinLines (s : PinState) : Prop :=
  ∀ pin, s.enabled pin = true → s.irqEnabled (hpmGetGpiIrqNum (pin / 32)) = true

/-- No step leaves a pin enabled without the interrupt of its port. -/
theorem PinLines.step {s : PinState} (h : PinLines s) : PinLines (pinStep s a) := by
  intro q hq
  rw [pinStep_enabled] at hq
  cases a with
  | attach p mode hdr args => exact h q hq
  | detach p => exact h q hq
  | irqEnable p enabled =>
    simp only [pinStep, hpmPinIrqEnable]
    by_cases henable : enabled = pinIrqEnable
    · rw [if_pos henable]
      simp only [Function.update_apply]
      split
      · rfl
      · next hline =>
        refine h q ?_
        have hp : p.val ≠ q := fun hp => hline (by rw [hp])
        simpa [PinStep.enable, hp] using hq
    · rw [if_neg henable]
      have hkept : s.enabled q = true := by
        simp only [PinStep.enable, if_neg henable] at hq
        by_cases hp : p.val = q <;> by_cases hdisable : enabled = pinIrqDisable <;>
          simp [hp, hdisable] at hq <;> exact hq
      split <;> exact h q hkept
  | raise p => exact h q hq
  | round p =>
    simp only [pinStep, hpmGpioIsrRound_eq]
    split <;> exact h q hq

end Steps

/-! ## What a history tells -/

/-- The table and the flags are what the history tells. -/
structure PinInv (s : PinState) (steps : List PinStep) : Prop where
  attached : ∀ pin a, pinAttachment steps pin = some a →
    (s.tbl pin).mode = a.mode ∧ (s.tbl pin).hdr = a.hdr ∧ (s.tbl pin).args = a.args
  vacant : ∀ pin, pinAttachment steps pin = none → (s.tbl pin).mode = 0 ∧ (s.tbl pin).hdr = 0
  pending : ∀ pin, gpioBit s.gpio.flags pin = pinPending steps pin
  pads : ∀ pin, gpioBit s.gpio.flags pin = true → IsPad pin
  lines : PinLines s

section History

variable {s : PinState} {steps : List PinStep}

theorem pinAttachment_concat (steps : List PinStep) (a : PinStep) (pin : Nat) :
    pinAttachment (steps ++ [a]) pin = (a.attachment pin).getD (pinAttachment steps pin) :=
  lastSome_concat_getD _ steps a none

theorem pinPending_concat (steps : List PinStep) (a : PinStep) (pin : Nat) :
    pinPending (steps ++ [a]) pin = (a.flag pin).getD (pinPending steps pin) :=
  lastSome_concat_getD _ steps a false

/-- A step writes the entry of the attachment that it tells. -/
theorem PinStep.entry_cases (a : PinStep) (pin : Nat) :
    (a.attachment pin = none ∧ a.entry pin = none) ∨
      (a.attachment pin = some none ∧ a.entry pin = some ⟨pinIrqPinNone, 0, 0, 0⟩) ∨
      ∃ att n, a.attachment pin = some (some att) ∧
        a.entry pin = some ⟨n, att.mode, att.hdr, att.args⟩ := by
  cases a with
  | attach p mode hdr args =>
    by_cases hp : p.val = pin
    · exact .inr (.inr ⟨⟨mode.setWidth 16, hdr, args⟩, _, if_pos hp, if_pos hp⟩)
    · exact .inl ⟨if_neg hp, if_neg hp⟩
  | detach p =>
    by_cases hp : p.val = pin
    · exact .inr (.inl ⟨if_pos hp, if_pos hp⟩)
    · exact .inl ⟨if_neg hp, if_neg hp⟩
  | irqEnable p enabled => exact .inl ⟨rfl, rfl⟩
  | raise p => exact .inl ⟨rfl, rfl⟩
  | round p => exact .inl ⟨rfl, rfl⟩

/-- What the history of a pin says is what the state has, behind any step. -/
theorem PinInv.step (h : PinInv s steps) (a : PinStep) :
    PinInv (pinStep s a) (steps ++ [a]) := by
  refine ⟨?_, ?_, ?_, ?_, h.lines.step a⟩
  · intro pin att hat
    rw [pinAttachment_concat] at hat
    rw [pinStep_tbl]
    rcases a.entry_cases pin with ⟨ha, he⟩ | ⟨ha, he⟩ | ⟨att₂, n, ha, he⟩
    · rw [ha] at hat
      rw [he]
      exact h.attached pin att hat
    · rw [ha] at hat
      cases hat
    · rw [ha] at hat
      cases hat
      rw [he]
      exact ⟨rfl, rfl, rfl⟩
  · intro pin hat
    rw [pinAttachment_concat] at hat
    rw [pinStep_tbl]
    rcases a.entry_cases pin with ⟨ha, he⟩ | ⟨ha, he⟩ | ⟨att₂, n, ha, he⟩
    · rw [ha] at hat
      rw [he]
      exact h.vacant pin hat
    · rw [he]
      exact ⟨rfl, rfl⟩
    · rw [ha] at hat
      cases hat
  · intro pin
    rw [pinStep_flag, pinPending_concat, h.pending]
  · intro pin hflag
    rw [pinStep_flag] at hflag
    cases a with
    | raise p =>
      by_cases hp : p.val = pin
      · exact hp ▸ p.2
      · exact h.pads pin (by simpa [PinStep.flag, hp] using hflag)
    | round p =>
      by_cases hp : p = pin
      · simp [PinStep.flag, hp] at hflag
      · exact h.pads pin (by simpa [PinStep.flag, hp] using hflag)
    | attach p mode hdr args => exact h.pads pin hflag
    | detach p => exact h.pads pin hflag
    | irqEnable p enabled => exact h.pads pin hflag

variable (polarity edge : Nat → BitVec 32) (irqEnabled : BitVec 32 → Bool)
    (irqPriority : BitVec 32 → BitVec 32)

theorem pinInv_start : PinInv (.start polarity edge irqEnabled irqPriority) [] := by
  have hzero : ∀ pin, gpioBit (fun _ => 0) pin = false := fun pin => BitVec.getLsbD_zero
  refine ⟨?_, ?_, hzero, ?_, ?_⟩
  · intro pin a ha
    cases ha
  · exact fun _ _ => ⟨rfl, rfl⟩
  · intro pin hflag
    exact absurd ((hzero pin).symm.trans hflag) Bool.false_ne_true
  · intro pin henabled
    exact absurd ((hzero pin).symm.trans henabled) Bool.false_ne_true

/-- And so behind any sequence of steps. -/
theorem pinInv_foldl (steps : List PinStep) :
    PinInv (steps.foldl pinStep (.start polarity edge irqEnabled irqPriority)) steps := by
  induction steps using List.reverseRecOn with
  | nil => exact pinInv_start polarity edge irqEnabled irqPriority
  | append_singleton steps a ih =>
    rw [List.foldl_append]
    exact ih.step a

/-- A round runs the handler that the history tells. -/
theorem PinInv.calls_eq (h : PinInv s steps) (a : PinStep) : a.calls s = pinExpected steps a := by
  cases a with
  | round pin =>
    simp only [PinStep.calls, pinExpected, ← h.pending]
    cases hflag : gpioBit s.gpio.flags pin with
    | true =>
      cases hat : pinAttachment steps pin with
      | none => simp [(h.vacant pin hat).2]
      | some att =>
        obtain ⟨-, hhdr, hargs⟩ := h.attached pin att hat
        simp [hhdr, hargs]
    | false => simp
  | attach p mode hdr args => rfl
  | detach p => rfl
  | irqEnable p enabled => rfl
  | raise p => rfl

end History

/-! ## One step -/

section Concat

variable {s₀ : PinState} {steps : List PinStep}

/-- A mode that names a trigger is programmed as that trigger. -/
theorem pinModeTrigger_eq {mode : BitVec 16} (h : (pinModeTrigger mode).isSome = true) :
    pinModeTrigger mode = some (hpmPinTrigger mode) := by
  unfold pinModeTrigger hpmPinTrigger at *
  split_ifs at h ⊢ <;> first | rfl | cases h

/-- Both edges are asked for, and the rising one is configured. -/
example : pinModeTrigger pinIrqModeRisingFalling = none ∧
    hpmPinTrigger pinIrqModeRisingFalling = .edgeRising := by decide

theorem foldl_pinStep_concat (a : PinStep) :
    (steps ++ [a]).foldl pinStep s₀ = pinStep (steps.foldl pinStep s₀) a :=
  List.foldl_append

/-- A step does not touch what belongs to another pin. -/
theorem pinStep_view (s : PinState) (a : PinStep) {pin : Nat} (hpin : pin ≠ a.pin) :
    (pinStep s a).view pin = s.view pin := by
  have hentry : a.entry pin = none := by
    cases a with
    | attach p mode hdr args => exact if_neg hpin.symm
    | detach p => exact if_neg hpin.symm
    | _ => rfl
  have henable : a.enable pin = none := by
    cases a with
    | irqEnable p enabled => exact if_neg hpin.symm
    | _ => rfl
  have hflag : a.flag pin = none := by
    cases a with
    | raise p => exact if_neg hpin.symm
    | round p => exact if_neg hpin.symm
    | _ => rfl
  simp [PinState.view, pinStep_tbl, pinStep_enabled, pinStep_trigger, pinStep_flag, hentry,
    henable, hflag]

/-- The indices of a step are inside of the table where it does not touch the last pad. -/
theorem pinStep_bounds {s : PinState} (hpads : ∀ pin, gpioBit s.gpio.flags pin = true → IsPad pin)
    {a : PinStep} (hfits : PinFits s a) : ∀ i ∈ a.accesses s, i < hpmGpioPinHdrTblSize := by
  have hpad : ∀ pin, IsPad pin → pin ≠ iocPadPz11 → pin < hpmGpioPinHdrTblSize := by
    intro pin hpin hne
    unfold IsPad at hpin
    unfold hpmGpioPinHdrTblSize iocPadPz11 at *
    omega
  intro i hi
  cases a with
  | attach p mode hdr args =>
    rw [List.mem_singleton.1 hi]
    exact hpad _ p.2 hfits.1
  | detach p =>
    rw [List.mem_singleton.1 hi]
    exact hpad _ p.2 hfits.1
  | irqEnable p enabled =>
    rw [PinStep.accesses] at hi
    split at hi
    · next henable =>
      rw [List.mem_singleton.1 hi]
      exact hpad _ p.2 (hfits henable).1
    · exact absurd hi List.not_mem_nil
  | raise p => exact absurd hi List.not_mem_nil
  | round p =>
    rw [PinStep.accesses] at hi
    split at hi
    · next hflag =>
      rw [List.mem_singleton.1 hi]
      exact hpad _ (hpads p hflag) (hfits hflag)
    · exact absurd hi List.not_mem_nil

/-- What is attached to an enabled pin asks for the trigger that the pin has. -/
theorem pinStep_triggers {s : PinState} (hinv : PinInv s steps)
    (htriggers : ∀ pin att, pinAttachment steps pin = some att → s.enabled pin = true →
      pinModeTrigger att.mode = some (s.trigger pin)) {a : PinStep} (hfits : PinFits s a)
    {pin : Nat} {att : PinAttachment} (hatt : pinAttachment (steps ++ [a]) pin = some att)
    (henabled : (pinStep s a).enabled pin = true) :
    pinModeTrigger att.mode = some ((pinStep s a).trigger pin) := by
  rw [pinAttachment_concat] at hatt
  rw [pinStep_enabled] at henabled
  rw [pinStep_trigger]
  cases a with
  | attach p mode hdr args =>
    by_cases hp : p.val = pin
    · simp only [PinStep.attachment, hp, if_true, Option.getD_some, Option.some.injEq] at hatt
      rw [← hatt, ← hp]
      exact hfits.2 (hp ▸ henabled)
    · simp only [PinStep.attachment, if_neg hp, Option.getD_none] at hatt
      exact htriggers pin att hatt henabled
  | detach p =>
    by_cases hp : p.val = pin
    · simp [PinStep.attachment, hp] at hatt
    · simp only [PinStep.attachment, if_neg hp, Option.getD_none] at hatt
      exact htriggers pin att hatt henabled
  | irqEnable p enabled =>
    have hatt : pinAttachment steps pin = some att := hatt
    by_cases henable : p.val = pin ∧ enabled = pinIrqEnable
    · obtain ⟨rfl, rfl⟩ := henable
      have hmode := pinModeTrigger_eq (hfits rfl).2
      simp only [PinStep.enable, if_true]
      rw [← (hinv.attached p.val att hatt).1]
      exact hmode
    · have hne : (PinStep.irqEnable p enabled).enable pin ≠ some true := by
        simp only [PinStep.enable]
        split_ifs with hp he
        · exact absurd ⟨hp, he⟩ henable
        · simp
        · simp
        · simp
      rw [if_neg hne]
      refine htriggers pin att hatt ?_
      cases hen : (PinStep.irqEnable p enabled).enable pin with
      | none => simpa [hen] using henabled
      | some b =>
        cases b
        · simp [hen] at henabled
        · exact absurd hen hne
  | raise p => exact htriggers pin att hatt henabled
  | round p =>
    have hatt : pinAttachment steps pin = some att := hatt
    exact htriggers pin att hatt henabled

/-- The step behind a history that is as asked. -/
theorem PinHolds.concat_iff (hinv : PinInv (steps.foldl pinStep s₀) steps)
    (h : PinHolds s₀ steps) (a : PinStep) :
    PinHolds s₀ (steps ++ [a]) ↔ PinFits (steps.foldl pinStep s₀) a := by
  constructor
  · intro h'
    have hbounds : ∀ i ∈ a.accesses (steps.foldl pinStep s₀), i ≠ iocPadPz11 := by
      intro i hi
      refine Nat.ne_of_lt (h'.bounds i ?_)
      rw [foldl_pinStep_concat, pinStep_accesses]
      exact List.mem_append_right _ hi
    cases a with
    | attach p mode hdr args =>
      refine ⟨hbounds _ (List.mem_singleton_self _), fun henabled => ?_⟩
      have hatt : pinAttachment (steps ++ [.attach p mode hdr args]) p.val =
          some ⟨mode.setWidth 16, hdr, args⟩ := by
        rw [pinAttachment_concat, PinStep.attachment, if_pos rfl]
        rfl
      have htriggers := (h'.triggers p.val _ hatt (by rwa [foldl_pinStep_concat])).1
      rw [foldl_pinStep_concat] at htriggers
      exact htriggers
    | detach p =>
      refine ⟨hbounds _ (List.mem_singleton_self _), ?_⟩
      have hdetached := h'.detached steps p rfl
      rw [foldl_pinStep_concat] at hdetached
      exact hdetached
    | irqEnable p enabled =>
      rintro rfl
      refine ⟨hbounds _ (by simp [PinStep.accesses]), ?_⟩
      cases hatt : pinAttachment steps p.val with
      | none =>
        rw [(hinv.vacant p.val hatt).1]
        decide
      | some att =>
        have hatt' : pinAttachment (steps ++ [PinStep.irqEnable p pinIrqEnable]) p.val =
            some att := by
          rw [pinAttachment_concat]
          exact hatt
        have henabled : ((steps ++ [PinStep.irqEnable p pinIrqEnable]).foldl pinStep s₀).enabled
            p.val = true := by
          rw [foldl_pinStep_concat, pinStep_enabled]
          simp [PinStep.enable]
        rw [(hinv.attached p.val att hatt).1, (h'.triggers p.val att hatt' henabled).1]
        rfl
    | raise p => trivial
    | round p => exact fun hflag => hbounds p (by simp [PinStep.accesses, hflag])
  · intro hfits
    refine ⟨?_, ?_, ?_, ?_, ?_⟩
    · intro i hi
      rw [foldl_pinStep_concat, pinStep_accesses] at hi
      rcases List.mem_append.1 hi with hi | hi
      · exact h.bounds i hi
      · exact pinStep_bounds hinv.pads hfits i hi
    · intro before b heq
      obtain ⟨rfl, hb⟩ := List.append_inj' heq rfl
      cases hb
      rw [foldl_pinStep_concat, pinStep_calls, hinv.calls_eq]
    · intro pin att hatt henabled
      rw [foldl_pinStep_concat] at henabled ⊢
      refine ⟨?_, hinv.lines.step a pin henabled⟩
      exact pinStep_triggers hinv (fun q b hb hq => (h.triggers q b hb hq).1) hfits hatt henabled
    · intro before pin heq
      obtain ⟨rfl, hb⟩ := List.append_inj' heq rfl
      cases hb
      rw [foldl_pinStep_concat, pinStep_enabled]
      exact hfits.2
    · intro before b heq pin hpin
      obtain ⟨rfl, hb⟩ := List.append_inj' heq rfl
      cases hb
      rw [foldl_pinStep_concat]
      exact pinStep_view _ a hpin

theorem pinHolds_nil (polarity edge : Nat → BitVec 32) (irqEnabled : BitVec 32 → Bool)
    (irqPriority : BitVec 32 → BitVec 32) :
    PinHolds (.start polarity edge irqEnabled irqPriority) [] := by
  refine ⟨?_, ?_, ?_, ?_, ?_⟩
  · exact fun i hi => absurd hi List.not_mem_nil
  · exact fun before a heq => absurd heq (by simp)
  · exact fun pin att hatt => absurd hatt (by simp [pinAttachment])
  · exact fun before pin heq => absurd heq (by simp)
  · exact fun before a heq => absurd heq (by simp)

end Concat

/-- Whatever the sequence of operations and interrupts, at every point of it what is asked holds
exactly if every step meets its condition.

The table has an entry for each pin but the last one, and each operation writes its own entry and
its own bit.  The four conditions name the steps that leave the two apart: the pin without an
entry, a detach that leaves the bit set, an attach that leaves the trigger of an enabled pin, and
a mode that the enable does not know. -/
theorem pinHolds_iff (polarity edge : Nat → BitVec 32) (irqEnabled : BitVec 32 → Bool)
    (irqPriority : BitVec 32 → BitVec 32) (steps : List PinStep) :
    (∀ steps', steps' <+: steps →
      PinHolds (.start polarity edge irqEnabled irqPriority) steps') ↔
    Along (fun s a => some (pinStep s a)) PinFits
      (.start polarity edge irqEnabled irqPriority) steps :=
  prefix_iff_along (pinHolds_nil polarity edge irqEnabled irqPriority)
    (fun steps a h => h.concat_iff (pinInv_foldl polarity edge irqEnabled irqPriority steps) a)
    steps

/-- A pin stays enabled behind its detach. -/
theorem pinHolds_detach :
    ¬ ∀ polarity edge irqEnabled irqPriority steps,
      PinHolds (.start polarity edge irqEnabled irqPriority) steps := by
  intro h
  have hholds := h (fun _ => 0) (fun _ => 0) (fun _ => false) (fun _ => 0)
    [.attach ⟨0, by decide⟩ 0 0x80000000 0, .irqEnable ⟨0, by decide⟩ pinIrqEnable,
      .detach ⟨0, by decide⟩]
  exact absurd (hholds.detached [_, _] ⟨0, by decide⟩ rfl) (by decide)

end HpmSdk.Gpio
