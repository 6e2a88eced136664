import Mathlib.Data.List.Basic

set_option autoImplicit false

/-!
# WDG: the intervals of the watchdog (`hpm_wdg_drv.c`, `hpm_wdg_drv.h`)

A time in microseconds is converted to ticks of the source clock and the first interval of a table
taken that is not shorter.

The table has the lengths of the stage in ticks, each a power of two.
-/

namespace HpmSdk.Wdg

/-! ## The intervals -/

/-- `reset_interval_t`; `m` stands for `reset_interval_clock_period_mult_`. -/
inductive ResetInterval where
  | m128
  | m256
  | m512
  | m1k
  | m2k
  | m4k
  | m8k
  | m16k
  | outOfRange
  deriving DecidableEq, Repr

/-- The value of the enumerator. -/
def ResetInterval.code : ResetInterval → Nat
  | .m128 => 0
  | .m256 => 1
  | .m512 => 2
  | .m1k => 3
  | .m2k => 4
  | .m4k => 5
  | .m8k => 6
  | .m16k => 7
  | .outOfRange => 8

/-- `interrupt_interval_t`; `m` stands for `interrupt_interval_clock_period_multi_`. -/
inductive InterruptInterval where
  | m64
  | m256
  | m1k
  | m2k
  | m4k
  | m8k
  | m16k
  | m32k
  | m128k
  | m512k
  | m2m
  | m4m
  | m8m
  | m32m
  | m128m
  | m512m
  | m2g
  | outOfRange
  deriving DecidableEq, Repr

/-- The value of the enumerator. -/
def InterruptInterval.code : InterruptInterval → Nat
  | .m64 => 0
  | .m256 => 1
  | .m1k => 2
  | .m2k => 3
  | .m4k => 4
  | .m8k => 5
  | .m16k => 6
  | .m32k => 7
  | .m128k => 8
  | .m512k => 9
  | .m2m => 10
  | .m4m => 11
  | .m8m => 12
  | .m32m => 13
  | .m128m => 14
  | .m512m => 15
  | .m2g => 16
  | .outOfRange => 17

/-- `TICKS_1K`. -/
def ticks1k : BitVec 32 := 1024

/-- `TICKS_1M`. -/
def ticks1m : BitVec 32 := 1024 * ticks1k

/-- `TICKS_1G`. -/
def ticks1g : BitVec 32 := 1024 * ticks1m

/-- `k_reset_interval_map` without its last entry. -/
def kResetIntervalMap : List (BitVec 32 × ResetInterval) := [
  (128, .m128),
  (256, .m256),
  (512, .m512),
  (1 * ticks1k, .m1k),
  (2 * ticks1k, .m2k),
  (4 * ticks1k, .m4k),
  (8 * ticks1k, .m8k),
  (16 * ticks1k, .m16k)]

/-- `k_interrupt_interval_map` without its last entry. -/
def kInterruptIntervalMap : List (BitVec 32 × InterruptInterval) := [
  (64, .m64),
  (256, .m256),
  (1 * ticks1k, .m1k),
  (2 * ticks1k, .m2k),
  (4 * ticks1k, .m4k),
  (8 * ticks1k, .m8k),
  (16 * ticks1k, .m16k),
  (32 * ticks1k, .m32k),
  (128 * ticks1k, .m128k),
  (512 * ticks1k, .m512k),
  (2 * ticks1m, .m2m),
  (4 * ticks1m, .m4m),
  (8 * ticks1m, .m8m),
  (32 * ticks1m, .m32m),
  (128 * ticks1m, .m128m),
  (512 * ticks1m, .m512m),
  (2 * ticks1g, .m2g)]

/-! ## The functions -/

/-- The loop over a map. -/
def wdgLookup {α : Type} (interval : α) (ticks : BitVec 32) : List (BitVec 32 × α) → α
  | [] => interval
  | e :: map => if ticks ≤ e.1 then e.2 else wdgLookup interval ticks map

/-- `ONE_SECOND_TICKS_IN_NS`. -/
def oneSecondTicksInNs : BitVec 32 := 1000 * 1000 * 1000

/-- `src_clk_one_tick_in_ns`. -/
def srcClkOneTickInNs (srcFreq : BitVec 32) : BitVec 32 :=
  let tick := oneSecondTicksInNs / srcFreq
  if tick < 1 then 1 else tick

/-- `wdg_get_reset_interval`. -/
def wdgGetResetInterval (srcFreq resetUs : BitVec 32) : ResetInterval :=
  let resetIntervalTicks := (resetUs * 1000) / srcClkOneTickInNs srcFreq
  wdgLookup .outOfRange resetIntervalTicks (kResetIntervalMap ++ [(0xFFFFFFFF, .outOfRange)])

/-- `wdg_get_interrupt_interval`: the cast is one of the product. -/
def wdgGetInterruptInterval (srcFreq intervalUs : BitVec 32) : InterruptInterval :=
  let interruptIntervalTicks :=
    (intervalUs.setWidth 64 * 1000).setWidth 32 / srcClkOneTickInNs srcFreq
  wdgLookup .outOfRange interruptIntervalTicks
    (kInterruptIntervalMap ++ [(0xFFFFFFFF, .outOfRange)])

/-! ## The contract -/

/-- The two times of the watchdog. -/
inductive WdgStage where
  | reset
  | interrupt
  deriving DecidableEq, Repr

/-- The lengths of the intervals, in clock periods. -/
def WdgStage.lengths : WdgStage → List Nat
  | .reset => [128, 256, 512, 1024, 2048, 4096, 8192, 16384]
  | .interrupt => [64, 256, 1024, 2048, 4096, 8192, 16384, 32768, 131072, 524288, 2097152, 4194304,
      8388608, 33554432, 134217728, 536870912, 2147483648]

/-- The interval for a time, as its place among the lengths; behind them is `out_of_range`. -/
def WdgStage.interval (stage : WdgStage) (srcFreq us : BitVec 32) : Nat :=
  match stage with
  | .reset => (wdgGetResetInterval srcFreq us).code
  | .interrupt => (wdgGetInterruptInterval srcFreq us).code

/-- So many clock periods are at least as long as the time in microseconds. -/
def WdgLasts (srcFreq us : BitVec 32) (len : Nat) : Prop :=
  us.toNat * srcFreq.toNat ≤ 1000000 * len

instance (srcFreq us : BitVec 32) (len : Nat) : Decidable (WdgLasts srcFreq us len) :=
  inferInstanceAs (Decidable (_ ≤ _))

/-- What is asked of the interval for a time. -/
structure WdgRight (stage : WdgStage) (srcFreq us : BitVec 32) : Prop where
  lasts : ∀ len ∈ stage.lengths[stage.interval srcFreq us]?, WdgLasts srcFreq us len
  shortest : ∀ i, ∀ len ∈ stage.lengths[i]?, WdgLasts srcFreq us len →
    stage.interval srcFreq us < stage.lengths.length → stage.interval srcFreq us ≤ i + 1
  outOfRange : stage.interval srcFreq us = stage.lengths.length ↔
    ∀ len ∈ stage.lengths, ¬ WdgLasts srcFreq us len
  monotone : ∀ us' ≤ us, stage.interval srcFreq us' ≤ stage.interval srcFreq us

end HpmSdk.Wdg
