import HpmSdk.Dram.ConfigRun
import HpmSdk.Foundation.While

set_option autoImplicit false

/-!
# DRAM: the status of a configuration

A memory is initialised by seven commands.  The status of a configuration says nothing about them,
and the poll that is the last one permitted comes too late.

`FirstAt` names the poll at which a command ends, and a status is right where it is before the last
one for every command.
-/

namespace HpmSdk.Dram

open HpmSdk.Foundation

/-! ## The contract -/

namespace DramReply

variable (reply : DramReply)

/-- The first poll that shows a flag. -/
def FirstAt (p : Nat) : Prop := FirstFails (fun q => reply.intr q &&& dramIntrFlags = 0) p

/-- The command ends at a poll without an error. -/
def EndsAt (p : Nat) : Prop :=
  reply.FirstAt p ∧ reply.intr p &&& dramIntrFlags &&& dramIntrIpcmderr.mask 32 = 0

/-- The command ends without an error; the last poll that is permitted is that of number
`HPM_DRAM_DRV_RETRY_COUNT`. -/
def Completes : Prop := ∃ p ≤ hpmDramDrvRetryCount, reply.EndsAt p

end DramReply

/-- The reply to a command that initialises a memory. -/
def dramReplyAt (hw : DramHw) (ptr : DramBase) (i : Nat) : DramReply := hw (ptr.ipcmd.length + i)

/-- All commands in front of one complete. -/
def DramReaches (hw : DramHw) (ptr : DramBase) (i : Nat) : Prop :=
  i < dramInitOpcodes.length ∧ ∀ j < i, (dramReplyAt hw ptr j).Completes

/-- What is asked of the status of a configuration: success only if every command completes, no
further command and no refreshing behind one that does not, and no timeout of a command that ends at
the last poll that is permitted. -/
structure DramReported (hw : DramHw) (ptr : DramBase) (clkInHz : BitVec 32)
    (config : DramSdramConfig) : Prop where
  success : (dramConfigSdram hw ptr clkInHz config).1 = statusSuccess →
    ∀ i < dramInitOpcodes.length, (dramReplyAt hw ptr i).Completes
  stops : config.Accepted clkInHz → ∀ i, DramReaches hw ptr i →
    ¬ (dramReplyAt hw ptr i).Completes →
      (dramConfigSdram hw ptr clkInHz config).1 ≠ statusSuccess ∧
        (dramConfigSdram hw ptr clkInHz config).2.ipcmd.length = ptr.ipcmd.length + i + 1 ∧
        (⟨0, 1⟩ : RegField).get (dramConfigSdram hw ptr clkInHz config).2.sdrctrl.sdrctrl3 = 0
  lastPoll : config.Accepted clkInHz → ∀ i, DramReaches hw ptr i →
    (dramReplyAt hw ptr i).EndsAt hpmDramDrvRetryCount →
      ∀ ptr', (dramIpCmdDone (dramReplyAt hw ptr i) ptr').1 ≠ statusTimeout

/-! ## Polling -/

section Poll

variable {reply : DramReply} {p : Nat}

/-- Polling ends behind the first poll that shows a flag, whichever poll it is at. -/
theorem dramPoll_of_firstAt (h : reply.FirstAt p) (hp : p ≤ hpmDramDrvRetryCount) :
    ∀ n, n ≤ p → dramPoll reply (p - n) = (p + 1, reply.intr p &&& dramIntrFlags)
  | 0, _ => by
    rw [dramPoll, Nat.sub_zero, if_neg (Nat.not_lt.mpr hp)]
    exact if_neg h.1
  | n + 1, hn => by
    have hlt : p - (n + 1) < p := Nat.sub_lt (Nat.lt_of_lt_of_le n.succ_pos hn) n.succ_pos
    have hnext : p - (n + 1) + 1 = p - n := by omega
    have hle : ¬ hpmDramDrvRetryCount < p - (n + 1) := by omega
    rw [dramPoll, if_neg hle]
    dsimp only
    rw [if_pos (h.2 _ hlt), hnext]
    exact dramPoll_of_firstAt h hp n (Nat.le_of_succ_le hn)

/-- The loop ends at the first poll that shows an end, having counted it. -/
theorem dramPoll_zero (h : reply.FirstAt p) (hp : p ≤ hpmDramDrvRetryCount) :
    dramPoll reply 0 = (p + 1, reply.intr p &&& dramIntrFlags) := by
  have hpoll := dramPoll_of_firstAt h hp p (Nat.le_refl p)
  rwa [Nat.sub_self] at hpoll

/-- A command that ends at the last poll is reported as a timeout. -/
theorem dramIpCmdDone_last (h : reply.FirstAt hpmDramDrvRetryCount) (ptr : DramBase) :
    (dramIpCmdDone reply ptr).1 = statusTimeout := by
  unfold dramIpCmdDone
  rw [dramPoll_zero h (Nat.le_refl _)]
  dsimp only
  rw [if_pos (Nat.lt_succ_self _)]

end Poll

/-! ## The status -/

section Status

variable (hw : DramHw) (ptr : DramBase) (clkInHz : BitVec 32) (config : DramSdramConfig)

/-- Every command ends without an error before the last poll. -/
def DramCompletesEarly : Prop :=
  ∀ i < dramInitOpcodes.length, ∃ p < hpmDramDrvRetryCount, (dramReplyAt hw ptr i).EndsAt p

variable {hw ptr}

/-- Commands that end before the last poll complete. -/
theorem DramCompletesEarly.completes (h : DramCompletesEarly hw ptr) :
    ∀ i < dramInitOpcodes.length, (dramReplyAt hw ptr i).Completes := by
  intro i hi
  obtain ⟨p, hp, hends⟩ := h i hi
  exact ⟨p, Nat.le_of_lt hp, hends⟩

/-- **The status of a configuration is right if and only if it is rejected, or every command
completes before the last poll that is permitted.**

The status of a command is compared with zero as a signed number and is an unsigned one, so no
failure ends the sequence: success is returned whatever the commands did.  And the counter of the
polls is tested once more behind the loop, so a command that ends at the last poll counts as one
that did not. -/
theorem dramReported_iff : DramReported hw ptr clkInHz config ↔
    (config.Accepted clkInHz → DramCompletesEarly hw ptr) := by
  constructor
  · intro h haccepted i hi
    have hall := h.success (dramConfigSdram_of_accepted hw ptr haccepted).status
    obtain ⟨p, hp, hends⟩ := hall i hi
    rcases Nat.lt_or_eq_of_le hp with hlt | rfl
    · exact ⟨p, hlt, hends⟩
    · have hreaches : DramReaches hw ptr i := ⟨hi, fun j hj => hall j (Nat.lt_trans hj hi)⟩
      exact absurd (dramIpCmdDone_last hends.1 ptr) (h.lastPoll haccepted i hreaches hends ptr)
  · intro h
    constructor
    · intro hstatus
      apply (h ?_).completes
      by_contra hrejected
      rw [dramConfigSdram_of_not_accepted hw ptr hrejected] at hstatus
      exact absurd hstatus (show ¬ statusInvalidArgument = statusSuccess by decide)
    · intro haccepted i hreaches hfails
      exact absurd ((h haccepted).completes i hreaches.1) hfails
    · intro haccepted i hreaches hlast
      obtain ⟨p, hp, hends⟩ := h haccepted i hreaches.1
      exact absurd (hends.1.eq hlast.1) (Nat.ne_of_lt hp)

end Status

/-- The first command ends with an error: the status is that of success. -/
theorem dramReported_swallowed : ¬ ∀ (hw : DramHw) (ptr : DramBase) (clkInHz : BitVec 32)
    (config : DramSdramConfig), DramReported hw ptr clkInHz config := by
  intro h
  let hw : DramHw := fun _ => ⟨fun _ => dramIntrIpcmderr.mask 32, 0⟩
  let ptr : DramBase := ⟨fun _ => 0, ⟨0, 0, 0, 0⟩, 0, 0, 0, 0, 0, [], []⟩
  have haccepted : dramBoardConfig.Accepted 166000000 := by decide
  have hstatus := (dramConfigSdram_of_accepted hw ptr haccepted).status
  obtain ⟨p, -, -, herror⟩ := (h hw ptr 166000000 dramBoardConfig).success hstatus 0 (by decide)
  exact absurd herror (show ¬ dramIntrIpcmderr.mask 32 &&& dramIntrFlags &&&
    dramIntrIpcmderr.mask 32 = 0 by decide)

end HpmSdk.Dram
