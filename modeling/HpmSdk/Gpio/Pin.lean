import HpmSdk.Foundation.History

set_option autoImplicit false

/-!
# GPIO: interrupts of pins (`drv_gpio.c`, `hpm_gpio_drv.c`)

The table of handlers, the operations that attach, detach, enable and disable, and the interrupt
service routine of a port.  A pin is a pad number; its port is the quotient by 32 and its bit the
remainder.  Each access to the table is noted, as the table has one entry less than there are pads.
-/

namespace HpmSdk.Gpio

open HpmSdk.Foundation

/-! ## Pads -/

/-- `IOC_PAD_PZ11`, the last pad. -/
def iocPadPz11 : Nat := 491

/-- The pads `PA00` to `PF10`, `PX00` to `PX11`, `PY00` to `PY11` and `PZ00` to `PZ11`. -/
def IsPad (pin : Nat) : Prop :=
  pin ≤ 170 ∨ 416 ≤ pin ∧ pin ≤ 427 ∨ 448 ≤ pin ∧ pin ≤ 459 ∨ 480 ≤ pin ∧ pin ≤ 491

instance (pin : Nat) : Decidable (IsPad pin) := inferInstanceAs (Decidable (_ ∨ _))

/-- A pad of the SoC. -/
abbrev Pad := { pin : Nat // IsPad pin }

/-- The entries of `hpm_gpio_pin_hdr_tbl`. -/
def hpmGpioPinHdrTblSize : Nat := iocPadPz11

/-- `hpm_gpio_irq_map`: the ports and their interrupts. -/
def hpmGpioIrqMap : List (Nat × BitVec 32) :=
  [(0, 1), (1, 2), (2, 3), (3, 4), (4, 5), (5, 6), (13, 7), (14, 8), (15, 9)]

/-- `hpm_get_gpi_irq_num`. -/
def hpmGetGpiIrqNum (gpioIdx : Nat) : BitVec 32 :=
  match hpmGpioIrqMap.find? fun entry => entry.1 = gpioIdx with
  | some entry => entry.2
  | none => -1

/-! ## Registers -/

/-- The registers of the controller, by port: the flags, the enables, the polarity (low or falling
where it is set) and the type (an edge where it is set). -/
structure GpioRegs where
  flags : Nat → BitVec 32
  enables : Nat → BitVec 32
  polarity : Nat → BitVec 32
  edge : Nat → BitVec 32

/-- A bit written to the register `SET`. -/
def gpioSet (regs : Nat → BitVec 32) (gpioIndex pinIndex : Nat) : Nat → BitVec 32 :=
  Function.update regs gpioIndex (regs gpioIndex ||| (1 : BitVec 32) <<< pinIndex)

/-- A bit written to the register `CLEAR`, or to a flag. -/
def gpioClear (regs : Nat → BitVec 32) (gpioIndex pinIndex : Nat) : Nat → BitVec 32 :=
  Function.update regs gpioIndex (regs gpioIndex &&& ~~~((1 : BitVec 32) <<< pinIndex))

/-- `gpio_interrupt_trigger_t`. -/
inductive GpioInterruptTrigger where
  | levelHigh
  | levelLow
  | edgeRising
  | edgeFalling
  deriving DecidableEq, Repr

/-- `gpio_config_pin_interrupt`. -/
def gpioConfigPinInterrupt (gpio : GpioRegs) (gpioIndex pinIndex : Nat) :
    GpioInterruptTrigger → GpioRegs
  | .levelHigh =>
    { gpio with
      edge := gpioClear gpio.edge gpioIndex pinIndex
      polarity := gpioClear gpio.polarity gpioIndex pinIndex }
  | .levelLow =>
    { gpio with
      edge := gpioClear gpio.edge gpioIndex pinIndex
      polarity := gpioSet gpio.polarity gpioIndex pinIndex }
  | .edgeRising =>
    { gpio with
      edge := gpioSet gpio.edge gpioIndex pinIndex
      polarity := gpioClear gpio.polarity gpioIndex pinIndex }
  | .edgeFalling =>
    { gpio with
      edge := gpioSet gpio.edge gpioIndex pinIndex
      polarity := gpioSet gpio.polarity gpioIndex pinIndex }

/-! ## State -/

/-- `struct rt_pin_irq_hdr`; a handler is its address, zero for `RT_NULL`. -/
structure RtPinIrqHdr where
  pin : BitVec 16
  mode : BitVec 16
  hdr : BitVec 32
  args : BitVec 32
  deriving DecidableEq, Repr

/-- A handler that was run for a pin. -/
structure PinCall where
  pin : Nat
  hdr : BitVec 32
  args : BitVec 32
  deriving DecidableEq, Repr

/-- The table, the controller and the interrupt controller, the indices that the table was
accessed at, and the handlers that were run. -/
structure PinState where
  tbl : Nat → RtPinIrqHdr
  gpio : GpioRegs
  irqEnabled : BitVec 32 → Bool
  irqPriority : BitVec 32 → BitVec 32
  accesses : List Nat
  calls : List PinCall

/-- Before any operation: no interrupt is enabled and no flag is set. -/
def PinState.start (polarity edge : Nat → BitVec 32) (irqEnabled : BitVec 32 → Bool)
    (irqPriority : BitVec 32 → BitVec 32) : PinState :=
  ⟨fun _ => ⟨0, 0, 0, 0⟩, ⟨fun _ => 0, fun _ => 0, polarity, edge⟩, irqEnabled, irqPriority, [], []⟩

/-! ## Operations -/

def rtEok : Int := 0
def rtEinval : Int := 10

def pinIrqModeRising : BitVec 16 := 0
def pinIrqModeFalling : BitVec 16 := 1
def pinIrqModeRisingFalling : BitVec 16 := 2
def pinIrqModeHighLevel : BitVec 16 := 3
def pinIrqModeLowLevel : BitVec 16 := 4

def pinIrqDisable : BitVec 32 := 0
def pinIrqEnable : BitVec 32 := 1

/-- `PIN_IRQ_PIN_NONE`. -/
def pinIrqPinNone : BitVec 16 := -1

/-- The entry of a pin is written. -/
def PinState.setEntry (s : PinState) (pin : Nat) (entry : RtPinIrqHdr) : PinState :=
  { s with tbl := Function.update s.tbl pin entry, accesses := s.accesses ++ [pin] }

/-- `hpm_pin_attach_irq`. -/
def hpmPinAttachIrq (pin : Nat) (mode hdr args : BitVec 32) (s : PinState) : Int × PinState :=
  (rtEok, s.setEntry pin ⟨BitVec.ofNat 16 pin, mode.setWidth 16, hdr, args⟩)

/-- `hpm_pin_detach_irq`. -/
def hpmPinDetachIrq (pin : Nat) (s : PinState) : Int × PinState :=
  (rtEok, s.setEntry pin ⟨pinIrqPinNone, 0, 0, 0⟩)

/-- The trigger that a mode is configured as. -/
def hpmPinTrigger (mode : BitVec 16) : GpioInterruptTrigger :=
  if mode = pinIrqModeRising then .edgeRising
  else if mode = pinIrqModeFalling then .edgeFalling
  else if mode = pinIrqModeHighLevel then .levelHigh
  else if mode = pinIrqModeLowLevel then .levelLow
  else .edgeRising

/-- `hpm_pin_irq_enable`. -/
def hpmPinIrqEnable (pin : Nat) (enabled : BitVec 32) (s : PinState) : Int × PinState :=
  let gpioIdx := pin / 32
  let pinIdx := pin % 32
  if enabled = pinIrqEnable then
    let gpio := gpioConfigPinInterrupt s.gpio gpioIdx pinIdx (hpmPinTrigger (s.tbl pin).mode)
    let irqNum := hpmGetGpiIrqNum gpioIdx
    (rtEok,
      { s with
        accesses := s.accesses ++ [pin]
        gpio := { gpio with enables := gpioSet gpio.enables gpioIdx pinIdx }
        irqPriority := Function.update s.irqPriority irqNum 1
        irqEnabled := Function.update s.irqEnabled irqNum true })
  else if enabled = pinIrqDisable then
    (rtEok,
      { s with gpio := { s.gpio with enables := gpioClear s.gpio.enables gpioIdx pinIdx } })
  else (rtEinval, s)

/-- One round of the loop of `hpm_gpio_isr`. -/
def hpmGpioIsrRound (gpioIndex pinIdx : Nat) (s : PinState) : PinState :=
  if (s.gpio.flags gpioIndex).getLsbD pinIdx then
    let pin := gpioIndex * 32 + pinIdx
    let entry := s.tbl pin
    { s with
      gpio := { s.gpio with flags := gpioClear s.gpio.flags gpioIndex pinIdx }
      accesses := s.accesses ++ [pin]
      calls := if entry.hdr ≠ 0 then s.calls ++ [⟨pin, entry.hdr, entry.args⟩] else s.calls }
  else s

/-- `hpm_gpio_isr`; `others` is what happens behind a round, which are the operations that a
handler calls and the flags that come up. -/
def hpmGpioIsr (gpioIndex : Nat) (others : Nat → PinState → PinState) (s : PinState) : PinState :=
  (List.range 32).foldl (fun s pinIdx => others pinIdx (hpmGpioIsrRound gpioIndex pinIdx s)) s

/-! ## Steps -/

/-- An operation, a flag that comes up, or a round of an interrupt service routine. -/
inductive PinStep where
  | attach (pin : Pad) (mode hdr args : BitVec 32)
  | detach (pin : Pad)
  | irqEnable (pin : Pad) (enabled : BitVec 32)
  | raise (pin : Pad)
  | round (pin : Nat)

/-- The pin that a step is about. -/
def PinStep.pin : PinStep → Nat
  | attach pin _ _ _ => pin.val
  | detach pin => pin.val
  | irqEnable pin _ => pin.val
  | raise pin => pin.val
  | round pin => pin

def pinStep (s : PinState) : PinStep → PinState
  | .attach pin mode hdr args => (hpmPinAttachIrq pin.val mode hdr args s).2
  | .detach pin => (hpmPinDetachIrq pin.val s).2
  | .irqEnable pin enabled => (hpmPinIrqEnable pin.val enabled s).2
  | .raise pin =>
    { s with
      gpio := { s.gpio with flags := gpioSet s.gpio.flags (pin.val / 32) (pin.val % 32) } }
  | .round pin => hpmGpioIsrRound (pin / 32) (pin % 32) s

/-- A service routine is a run of steps. -/
theorem hpmGpioIsr_eq_foldl (gpioIndex : Nat) (others : Nat → List PinStep) (s : PinState) :
    hpmGpioIsr gpioIndex (fun i s => (others i).foldl pinStep s) s =
      ((List.range 32).flatMap fun i => .round (gpioIndex * 32 + i) :: others i).foldl
        pinStep s := by
  have hrounds : ∀ l : List Nat, (∀ i ∈ l, i < 32) → ∀ s,
      l.foldl (fun s i => (others i).foldl pinStep (hpmGpioIsrRound gpioIndex i s)) s =
        (l.flatMap fun i => .round (gpioIndex * 32 + i) :: others i).foldl pinStep s := by
    intro l
    induction l with
    | nil => exact fun _ _ => rfl
    | cons i l ih =>
      intro hl s
      have hi : i < 32 := hl i (by simp)
      have hport : (gpioIndex * 32 + i) / 32 = gpioIndex := by omega
      have hbit : (gpioIndex * 32 + i) % 32 = i := by omega
      rw [List.foldl_cons, ih fun j hj => hl j (by simp [hj])]
      simp only [List.flatMap_cons, List.cons_append, List.foldl_cons, List.foldl_append, pinStep,
        hport, hbit]
  exact hrounds _ (fun i hi => List.mem_range.1 hi) s

end HpmSdk.Gpio
