import HpmSdk.Foundation.Run
import Mathlib.Logic.Function.Basic

set_option autoImplicit false

/-!
# Mailbox: the FIFO between two cores (`hpm_mbx_drv.h`)

One core sends and the other one retrieves.  Every access to a register is a step of its own,
so that the two functions interleave in every order.
-/

namespace HpmSdk.Mbx

open HpmSdk.Foundation

/-- The `hpm_stat_t` values of the functions. -/
inductive MbxStat where
  | success
  | notAvailable
  deriving DecidableEq, Repr

/-! ## The loop of `mbx_send_fifo` and `mbx_retrieve_fifo` -/

/-- A call: its array and its count, the variables `i` and `count` of its loop, whether the
status register was read and allows the access to the FIFO, the words that it moved with their
places in the array, and its status once it has returned. -/
structure MbxCall where
  msg : Nat → BitVec 32
  count : BitVec 32
  i : Nat
  left : BitVec 32
  ready : Bool
  moved : List (Nat × BitVec 32)
  status : Option MbxStat

namespace MbxCall

/-- The start of a call. -/
def begin (msg : Nat → BitVec 32) (count : BitVec 32) : MbxCall :=
  ⟨msg, count, 0, count, false, [], none⟩

/-- The test of the status register. -/
def test (flag : Bool) (c : MbxCall) : MbxCall :=
  if flag then { c with ready := true } else { c with status := some .notAvailable }

/-- The rest of a round behind the access to the FIFO. -/
def next (w : BitVec 32) (c : MbxCall) : MbxCall :=
  let c := { c with moved := c.moved ++ [(c.i, w)], left := c.left - 1, ready := false }
  if c.left = 0 then { c with status := some .success }
  else if c.i + 1 < 4 then { c with i := c.i + 1 }
  else { c with i := c.i + 1, status := some .success }

/-- `*(msg + i) = w`. -/
def store (w : BitVec 32) (c : MbxCall) : MbxCall :=
  { c with msg := Function.update c.msg c.i w }

end MbxCall

/-- A core: the call that it is in, and those that have returned. -/
structure MbxCore where
  current : Option MbxCall
  done : List MbxCall

namespace MbxCore

/-- The current call goes on as `c`. -/
def put (core : MbxCore) (c : MbxCall) : MbxCore :=
  if c.status = none then { core with current := some c } else ⟨none, core.done ++ [c]⟩

/-- All calls, in order. -/
def calls (core : MbxCore) : List MbxCall := core.done ++ core.current.toList

/-- The words that the calls moved, in order. -/
def words (core : MbxCore) : List (BitVec 32) :=
  core.calls.flatMap fun c => c.moved.map Prod.snd

end MbxCore

/-! ## The mailbox -/

/-- The FIFO, the words that have entered and left it so far, and the two cores. -/
structure MbxState where
  fifo : List (BitVec 32)
  enqueued : List (BitVec 32)
  received : List (BitVec 32)
  sender : MbxCore
  receiver : MbxCore

/-- The mailbox at the start. -/
def MbxState.init : MbxState := ⟨[], [], [], ⟨none, []⟩, ⟨none, []⟩⟩

/-- A call, or the next access to a register that a call makes. -/
inductive MbxAct where
  | sendFifo (msg : Nat → BitVec 32) (count : BitVec 32)
  | sendAccess
  | retrieveFifo (msg : Nat → BitVec 32) (count : BitVec 32)
  | retrieveAccess

/-- A write to `TXWRD`: it is ignored where the FIFO is full. -/
def MbxState.write (depth : Nat) (s : MbxState) (w : BitVec 32) : MbxState :=
  if s.fifo.length < depth then
    { s with fifo := s.fifo ++ [w], enqueued := s.enqueued ++ [w] }
  else s

/-- What a read of `RXWRD` gives, and the FIFO behind it. -/
def MbxState.read (s : MbxState) : BitVec 32 × MbxState :=
  match s.fifo with
  | [] => (0, s)
  | w :: fifo => (w, { s with fifo := fifo, received := s.received ++ [w] })

/-- An access of `mbx_send_fifo`: to `SR`, and where it shows room to `TXWRD`. -/
def mbxSendAccess (depth : Nat) (s : MbxState) (c : MbxCall) : MbxState :=
  if c.ready then
    { s.write depth (c.msg c.i) with sender := s.sender.put (c.next (c.msg c.i)) }
  else { s with sender := s.sender.put (c.test (decide (s.fifo.length < depth))) }

/-- An access of `mbx_retrieve_fifo`: to `SR`, and where it shows a word to `RXWRD`. -/
def mbxRetrieveAccess (s : MbxState) (c : MbxCall) : MbxState :=
  if c.ready then
    { s.read.2 with receiver := s.receiver.put ((c.store s.read.1).next s.read.1) }
  else { s with receiver := s.receiver.put (c.test (decide (s.fifo ≠ []))) }

/-- One step of one of the cores; a core makes one call at a time. -/
def mbxStep (depth : Nat) (s : MbxState) : MbxAct → Option MbxState
  | .sendFifo msg count =>
    if s.sender.current = none then
      some { s with sender := s.sender.put (.begin msg count) }
    else none
  | .sendAccess => s.sender.current.map (mbxSendAccess depth s)
  | .retrieveFifo msg count =>
    if s.receiver.current = none then
      some { s with receiver := s.receiver.put (.begin msg count) }
    else none
  | .retrieveAccess => s.receiver.current.map (mbxRetrieveAccess s)

/-! ## The contract -/

/-- What is asked of a call: it moves words of the array within its count, and where it
succeeds exactly so many, in order. -/
structure MbxCall.Kept (c : MbxCall) : Prop where
  within : ∀ p ∈ c.moved, p.1 < c.count.toNat
  whole : c.status = some .success → c.moved.map Prod.fst = List.range c.count.toNat

/-- What is asked of a state: the words that were received are a prefix of those that were
enqueued; these are the words that the calls of the one core have taken from their arrays, and
those the ones that the calls of the other core have stored in theirs, in order. -/
structure MbxState.Holds (s : MbxState) : Prop where
  received : s.received <+: s.enqueued
  sent : s.enqueued = s.sender.words
  retrieved : s.received = s.receiver.words
  stored : ∀ c ∈ s.sender.calls ++ s.receiver.calls, ∀ p ∈ c.moved, p.2 = c.msg p.1
  kept : ∀ c ∈ s.sender.calls ++ s.receiver.calls, c.Kept

/-- The count is one that the loop has rounds for. -/
def MbxCall.Fits (c : MbxCall) : Prop := 1 ≤ c.count.toNat ∧ c.count.toNat ≤ 4

end HpmSdk.Mbx
