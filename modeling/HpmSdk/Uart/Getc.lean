import HpmSdk.Uart.Init
import Mathlib.Logic.Function.Iterate

set_option autoImplicit false

/-!
# UART: reading a character (`drv_uart.c`, `hpm_uart_drv.c`)

`hpm_uart_getc` presets an `int` with -1 and lets the driver write a byte into it, which leaves the
other three bytes as they are.  Bytes arrive between any two accesses to the registers.

The arrivals are a function of the access, so that every interleaving of the line and the calls is
one.
-/

namespace HpmSdk.Uart

/-! ## The receiver -/

/-- The bytes in the FIFO, all that came into it so far, and the number of accesses to `LSR` and
`RBR`. -/
structure UartRx where
  fifo : List (BitVec 8)
  received : List (BitVec 8)
  accesses : Nat
  deriving DecidableEq, Repr

/-- `LSR & UART_LSR_DR_MASK`. -/
def UartRx.dataReady (rx : UartRx) : Bool := !rx.fifo.isEmpty

/-- `HPM_UART_DRV_RETRY_COUNT`. -/
def hpmUartDrvRetryCount : Nat := 5000

/-- A byte is written to the address of a word, whose first byte is its lowest. -/
def setFirstByte (word : BitVec 32) (byte : BitVec 8) : BitVec 32 := word.extractLsb' 8 24 ++ byte

section Receiver

variable (arrivals : Nat → List (BitVec 8))

/-- What arrives in front of the next access is in the FIFO when it is made. -/
def UartRx.access (rx : UartRx) : UartRx where
  fifo := rx.fifo ++ arrivals rx.accesses
  received := rx.received ++ arrivals rx.accesses
  accesses := rx.accesses + 1

/-- The loop of `uart_receive_byte`, with the number of times that `retry` can still be raised:
whether it is left in time. -/
def uartReceiveByteLoop : Nat → UartRx → Bool × UartRx
  | 0, rx => (false, rx.access arrivals)
  | left + 1, rx =>
    let rx := rx.access arrivals
    if rx.dataReady then (true, rx) else uartReceiveByteLoop left rx

/-- `uart_receive_byte`, with the byte that it writes. -/
def uartReceiveByte (rx : UartRx) : UartStat × Option (BitVec 8) × UartRx :=
  let (inTime, rx) := uartReceiveByteLoop arrivals (hpmUartDrvRetryCount + 1) rx
  if inTime then
    let rx := rx.access arrivals
    (.success, some (rx.fifo.headD 0), { rx with fifo := rx.fifo.tail })
  else (.timeout, none, rx)

/-- `hpm_uart_getc`. -/
def hpmUartGetc (rx : UartRx) : BitVec 32 × UartRx :=
  let result : BitVec 32 := -1
  let rx := rx.access arrivals
  if rx.dataReady then
    let (_, byte, rx) := uartReceiveByte arrivals rx
    (byte.elim result (setFirstByte result), rx)
  else (result, rx)

end Receiver

/-! ## Runs -/

/-- A call: what its first access sees in the FIFO, and what it returns. -/
structure UartCall where
  seen : List (BitVec 8)
  result : BitVec 32
  deriving DecidableEq, Repr

/-- The receiver behind a number of calls, and the calls. -/
structure UartCalls where
  rx : UartRx
  log : List UartCall
  deriving DecidableEq, Repr

/-- One more call. -/
def uartCall (arrivals : Nat → List (BitVec 8)) (s : UartCalls) : UartCalls :=
  let (result, rx) := hpmUartGetc arrivals s.rx
  ⟨rx, s.log ++ [⟨(s.rx.access arrivals).fifo, result⟩]⟩

/-- The first `n` calls.  Where each that returns -1 ends a loop of the interrupt handler, they are
such loops, one behind the other. -/
def uartCalls (arrivals : Nat → List (BitVec 8)) (n : Nat) : UartCalls :=
  (uartCall arrivals)^[n] ⟨⟨[], [], 0⟩, []⟩

/-- The value of a byte. -/
def byteValue (byte : BitVec 8) : Int := byte.toNat

/-- What a call yields where -1 stands for no byte. -/
def UartCall.yields (c : UartCall) : Option Int :=
  if c.result.toInt = -1 then none else some c.result.toInt

/-- What is asked: the calls yield what was received, in order, but for what is still in the FIFO;
-1 is returned only where there is nothing in it; and no value for a byte is negative. -/
structure UartYields (s : UartCalls) : Prop where
  inOrder : s.log.filterMap UartCall.yields ++ s.rx.fifo.map byteValue =
    s.rx.received.map byteValue
  onlyEmpty : ∀ c ∈ s.log, c.result.toInt = -1 → c.seen = []
  natural : ∀ c ∈ s.log, c.seen ≠ [] → 0 ≤ c.result.toInt

/-! ## One call -/

/-- What a call returns, by the first byte that it sees. -/
def getcResult : Option (BitVec 8) → BitVec 32
  | none => -1
  | some byte => setFirstByte (-1) byte

/-- The integer is -1 with its lowest byte replaced, which is the byte less 256. -/
theorem toInt_setFirstByte (byte : BitVec 8) :
    (setFirstByte (-1) byte).toInt = byteValue byte - 256 := by
  have hlt := byte.isLt
  have hhigh : ((-1 : BitVec 32).extractLsb' 8 24).toNat = 2 ^ 24 - 1 := rfl
  have hnat : (setFirstByte (-1) byte).toNat = (2 ^ 24 - 1) * 2 ^ 8 + byte.toNat := by
    unfold setFirstByte
    rw [BitVec.toNat_append, ← Nat.shiftLeft_add_eq_or_of_lt hlt, hhigh, Nat.shiftLeft_eq]
  unfold byteValue
  rw [BitVec.toInt_eq_toNat_cond, hnat, if_neg (by omega)]
  omega

/-- So it is always negative, as the result for an empty FIFO is. -/
theorem toInt_setFirstByte_neg (byte : BitVec 8) : (setFirstByte (-1) byte).toInt < 0 := by
  have hlt := byte.isLt
  rw [toInt_setFirstByte]
  unfold byteValue
  omega

section Calls

variable {arrivals : Nat → List (BitVec 8)} {rx : UartRx} {s : UartCalls}

/-- With an empty FIFO nothing is stored. -/
theorem hpmUartGetc_empty (h : (rx.access arrivals).fifo = []) :
    hpmUartGetc arrivals rx = (-1, rx.access arrivals) := by
  have hready : (rx.access arrivals).dataReady = false := by
    unfold UartRx.dataReady
    rw [h]
    rfl
  unfold hpmUartGetc
  dsimp only
  rw [hready]
  rfl

theorem dataReady_of_cons {byte : BitVec 8} {rest : List (BitVec 8)}
    (h : rx.fifo = byte :: rest) : rx.dataReady = true := by
  unfold UartRx.dataReady
  rw [h]
  rfl

/-- A byte that is seen is taken; behind it is what was, and what arrived meanwhile. -/
theorem hpmUartGetc_byte {byte : BitVec 8} {rest : List (BitVec 8)}
    (h : (rx.access arrivals).fifo = byte :: rest) :
    ∃ more, (hpmUartGetc arrivals rx).1 = setFirstByte (-1) byte ∧
      (hpmUartGetc arrivals rx).2.fifo = rest ++ more ∧
      (hpmUartGetc arrivals rx).2.received = (rx.access arrivals).received ++ more := by
  let rx₁ := rx.access arrivals
  let rx₂ := rx₁.access arrivals
  have hsecond : rx₂.fifo = byte :: (rest ++ arrivals rx₁.accesses) := by
    change rx₁.fifo ++ _ = _
    rw [h, List.cons_append]
  have hloop : uartReceiveByteLoop arrivals (hpmUartDrvRetryCount + 1) rx₁ = (true, rx₂) := by
    rw [uartReceiveByteLoop]
    exact if_pos (dataReady_of_cons hsecond)
  have hreceive : uartReceiveByte arrivals rx₁ =
      (.success, some byte, { rx₂.access arrivals with
        fifo := rest ++ arrivals rx₁.accesses ++ arrivals rx₂.accesses }) := by
    have hthird : (rx₂.access arrivals).fifo =
        byte :: (rest ++ arrivals rx₁.accesses ++ arrivals rx₂.accesses) := by
      change rx₂.fifo ++ _ = _
      rw [hsecond, List.cons_append]
    unfold uartReceiveByte
    rw [hloop]
    dsimp only
    rw [if_pos rfl, hthird]
    rfl
  have hgetc : hpmUartGetc arrivals rx = (setFirstByte (-1) byte, { rx₂.access arrivals with
      fifo := rest ++ arrivals rx₁.accesses ++ arrivals rx₂.accesses }) := by
    unfold hpmUartGetc
    dsimp only
    rw [if_pos (dataReady_of_cons h), hreceive]
    rfl
  rw [hgetc]
  exact ⟨arrivals rx₁.accesses ++ arrivals rx₂.accesses, rfl, List.append_assoc _ _ _,
    List.append_assoc _ _ _⟩

/-- A call returns -1 if and only if it sees no byte, or the byte `0xFF`, which it then takes. -/
theorem hpmUartGetc_neg_one_iff : (hpmUartGetc arrivals rx).1.toInt = -1 ↔
    (rx.access arrivals).fifo = [] ∨ (rx.access arrivals).fifo.head? = some 0xFF := by
  cases h : (rx.access arrivals).fifo with
  | nil =>
    rw [hpmUartGetc_empty h]
    exact iff_of_true rfl (Or.inl rfl)
  | cons byte rest =>
    obtain ⟨-, hresult, -, -⟩ := hpmUartGetc_byte h
    have hlt := byte.isLt
    rw [hresult, toInt_setFirstByte, List.head?_cons, or_iff_right (List.cons_ne_nil _ _),
      Option.some.injEq, ← BitVec.toNat_inj]
    unfold byteValue
    change _ ↔ byte.toNat = 255
    omega

/-! ## All calls -/

/-- What is known of every run: nothing is lost in front of the result, and the result is made
from the byte. -/
structure UartCalls.Inv (s : UartCalls) : Prop where
  conserved : s.log.filterMap (fun c => c.seen.head?) ++ s.rx.fifo = s.rx.received
  results : ∀ c ∈ s.log, c.result = getcResult c.seen.head?

/-- What the calls returned stands for the bytes that they took. -/
theorem UartCalls.Inv.step (h : s.Inv) : (uartCall arrivals s).Inv := by
  have hseen : s.log.filterMap (fun c => c.seen.head?) ++ (s.rx.access arrivals).fifo =
      (s.rx.access arrivals).received := by
    change _ ++ (s.rx.fifo ++ _) = s.rx.received ++ _
    rw [← List.append_assoc, h.conserved]
  unfold uartCall
  cases hfifo : (s.rx.access arrivals).fifo with
  | nil =>
    rw [hpmUartGetc_empty hfifo]
    constructor
    · rw [hfifo] at hseen
      rw [List.filterMap_append, hfifo]
      change _ ++ [] ++ [] = _
      rw [List.append_nil]
      exact hseen
    · intro c hc
      rcases List.mem_append.mp hc with hold | hnew
      · exact h.results c hold
      · rw [List.mem_singleton.mp hnew]
        rfl
  | cons byte rest =>
    obtain ⟨more, hresult, hrest, hreceived⟩ := hpmUartGetc_byte hfifo
    constructor
    · dsimp only
      rw [hrest, hreceived, ← hseen, hfifo]
      simp
    · intro c hc
      rcases List.mem_append.mp hc with hold | hnew
      · exact h.results c hold
      · rw [List.mem_singleton.mp hnew]
        exact hresult

theorem uartCalls_succ (arrivals : Nat → List (BitVec 8)) (n : Nat) :
    uartCalls arrivals (n + 1) = uartCall arrivals (uartCalls arrivals n) :=
  Function.iterate_succ_apply' ..

/-- The bytes that the calls take are those that were received, in order and none twice. -/
theorem uartCalls_inv (arrivals : Nat → List (BitVec 8)) :
    ∀ n, (uartCalls arrivals n).Inv
  | 0 => ⟨rfl, fun _ hc => absurd hc List.not_mem_nil⟩
  | n + 1 => by
    rw [uartCalls_succ]
    exact (uartCalls_inv arrivals n).step

/-- Calls in front of which nothing arrives see nothing, and access one register each. -/
theorem uartCalls_quiet : ∀ {n : Nat}, (∀ k < n, arrivals k = []) →
    (uartCalls arrivals n).rx = ⟨[], [], n⟩ ∧
      ∀ c ∈ (uartCalls arrivals n).log, c = ⟨[], -1⟩
  | 0, _ => ⟨rfl, fun _ hc => absurd hc List.not_mem_nil⟩
  | n + 1, h => by
    obtain ⟨hrx, hlog⟩ := uartCalls_quiet fun k hk => h k (Nat.lt_succ_of_lt hk)
    have haccess : (uartCalls arrivals n).rx.access arrivals = ⟨[], [], n + 1⟩ := by
      rw [hrx]
      unfold UartRx.access
      rw [h n n.lt_succ_self]
      rfl
    have hfifo : ((uartCalls arrivals n).rx.access arrivals).fifo = [] := by rw [haccess]
    rw [uartCalls_succ]
    unfold uartCall
    rw [hpmUartGetc_empty hfifo, hfifo, haccess]
    refine ⟨rfl, fun c hc => ?_⟩
    rcases List.mem_append.mp hc with hold | hnew
    · exact hlog c hold
    · exact List.mem_singleton.mp hnew

/-- Calls that see nothing are those in front of which nothing arrives. -/
theorem uartCalls_quiet_of_seen : ∀ {n : Nat},
    (∀ c ∈ (uartCalls arrivals n).log, c.seen = []) → ∀ k < n, arrivals k = []
  | 0, _, k, hk => absurd hk k.not_lt_zero
  | n + 1, h, k, hk => by
    have hlog : (uartCalls arrivals (n + 1)).log = (uartCalls arrivals n).log ++
        [⟨((uartCalls arrivals n).rx.access arrivals).fifo,
          (hpmUartGetc arrivals (uartCalls arrivals n).rx).1⟩] := by
      rw [uartCalls_succ]
      rfl
    rw [hlog] at h
    have hearlier : ∀ k < n, arrivals k = [] :=
      uartCalls_quiet_of_seen fun c hc => h c (List.mem_append_left _ hc)
    have hlast := h _ (List.mem_append_right _ (List.mem_singleton_self _))
    rcases Nat.lt_succ_iff_lt_or_eq.mp hk with hlt | rfl
    · exact hearlier k hlt
    · rw [(uartCalls_quiet hearlier).1] at hlast
      exact hlast

/-- **The calls yield what was received if and only if nothing was: no byte arrives in front of
the first access of any of them.**

A byte is stored into the first byte of an `int` that holds -1, so what is returned for it is its
value less 256.  That is negative for every byte, and for 0xFF it is the -1 that stands for the
end.  Without a byte -1 is returned, as it should be. -/
theorem uartYields_iff (arrivals : Nat → List (BitVec 8)) (n : Nat) :
    UartYields (uartCalls arrivals n) ↔ ∀ k < n, arrivals k = [] := by
  constructor
  · intro h
    apply uartCalls_quiet_of_seen
    intro c hc
    by_contra hseen
    obtain ⟨byte, rest, hcons⟩ := List.exists_cons_of_ne_nil hseen
    have hresult := (uartCalls_inv arrivals n).results c hc
    rw [hcons, List.head?_cons] at hresult
    have hneg := toInt_setFirstByte_neg byte
    have hnatural := h.natural c hc hseen
    rw [hresult] at hnatural
    exact absurd hnatural (Int.not_le.mpr hneg)
  · intro h
    obtain ⟨hrx, hlog⟩ := uartCalls_quiet h
    constructor
    · have hnone : (uartCalls arrivals n).log.filterMap UartCall.yields = [] := by
        rw [List.filterMap_eq_nil_iff]
        intro c hc
        rw [hlog c hc]
        rfl
      rw [hnone, hrx]
      rfl
    · intro c hc _
      rw [hlog c hc]
    · intro c hc hseen
      rw [hlog c hc] at hseen
      exact absurd rfl hseen

end Calls

/-- A single byte `0xFF`, there from the start. -/
def oneFullByte (k : Nat) : List (BitVec 8) := if k = 0 then [0xFF] else []

/-- The byte `0xFF` is taken, and looks like the end. -/
theorem uartYields_loses : ¬ ∀ (arrivals : Nat → List (BitVec 8)) (n : Nat),
    UartYields (uartCalls arrivals n) := by
  intro h
  have hempty := (h oneFullByte 1).onlyEmpty ⟨[0xFF], -1⟩
  exact absurd (hempty (List.mem_singleton_self _) rfl) (List.cons_ne_nil _ _)

end HpmSdk.Uart
