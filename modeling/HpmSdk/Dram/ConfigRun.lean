import HpmSdk.Dram.Config

set_option autoImplicit false

/-!
# DRAM: what a configuration leaves

A status is unsigned, so none is below zero: every command counts as done, and a configuration that
is accepted runs to its end.

The frame of a command is stated once and carried through the seven of them, so that the registers
behind a configuration are those that it wrote before the first command.
-/

namespace HpmSdk.Dram

open HpmSdk.Foundation

/-- `hpm_stat_t` is unsigned. -/
theorem hpmStat_not_lt_zero (stat : BitVec 32) : ¬ stat < 0 := Nat.not_lt_zero stat.toNat

section Issue

variable (hw : DramHw) (ptr : DramBase) (baseAddress : BitVec 32) (cmd : DramCmd)

/-- Waiting for a command changes neither the registers of the timing nor the commands that were
issued. -/
theorem dramIpCmdDone_frame (reply : DramReply) :
    (dramIpCmdDone reply ptr).2.sdrctrl = ptr.sdrctrl ∧
      (dramIpCmdDone reply ptr).2.ipcmd = ptr.ipcmd := by
  unfold dramIpCmdDone
  dsimp only
  split
  · exact ⟨rfl, rfl⟩
  · split <;> exact ⟨rfl, rfl⟩

/-- A command is never found to have failed. -/
theorem dramIssueIpCmd_fst : (dramIssueIpCmd hw ptr baseAddress cmd).1 = statusSuccess := by
  unfold dramIssueIpCmd
  dsimp only
  rw [if_neg (hpmStat_not_lt_zero _)]

/-- Issuing a command adds it to those that were issued, whatever comes of it. -/
theorem dramIssueIpCmd_frame :
    (dramIssueIpCmd hw ptr baseAddress cmd).2.1.sdrctrl = ptr.sdrctrl ∧
      (dramIssueIpCmd hw ptr baseAddress cmd).2.1.ipcmd = ptr.ipcmd ++ [dramMakeCmd cmd.opcode] := by
  unfold dramIssueIpCmd
  dsimp only
  rw [if_neg (hpmStat_not_lt_zero _)]
  exact dramIpCmdDone_frame _ _

theorem dramIssueIpCmd_opcode :
    (dramIssueIpCmd hw ptr baseAddress cmd).2.2.opcode = cmd.opcode := by
  unfold dramIssueIpCmd
  dsimp only
  rw [if_neg (hpmStat_not_lt_zero _)]
  dsimp only
  split <;> rfl

/-- No command is seen to fail, so the next one always follows. -/
theorem dramThen_issue (next : DramBase → DramCmd → BitVec 32 × DramBase) :
    dramThen (dramIssueIpCmd hw ptr baseAddress cmd) next =
      next (dramIssueIpCmd hw ptr baseAddress cmd).2.1
        (dramIssueIpCmd hw ptr baseAddress cmd).2.2 := by
  unfold dramThen
  rw [dramIssueIpCmd_fst, if_neg (not_not.mpr rfl)]

end Issue

/-! ## A configuration -/

/-- The commands that initialise a memory. -/
def dramInitOpcodes : List (BitVec 32) := [
  dramCmdSdramPrechargeAll, dramCmdSdramAutoRefresh, dramCmdSdramAutoRefresh,
  dramCmdSdramPrechargeAll, dramCmdSdramAutoRefresh, dramCmdSdramAutoRefresh, dramCmdSdramModeSet]

/-- The control registers with refreshing enabled. -/
def DramSdrctrl.refreshing (r : DramSdrctrl) : DramSdrctrl :=
  { r with sdrctrl3 := r.sdrctrl3 ||| (⟨0, 1⟩ : RegField).mask 32 }

section Config

variable (hw : DramHw) (ptr : DramBase) (clkInHz : BitVec 32) (config : DramSdramConfig)

/-- What the commands leave. -/
structure DramInitialised (sdrctrl : DramSdrctrl) (ipcmd : List (BitVec 32))
    (r : BitVec 32 × DramBase) : Prop where
  status : r.1 = statusSuccess
  sdrctrl : r.2.sdrctrl = sdrctrl.refreshing
  ipcmd : r.2.ipcmd = ipcmd ++ dramInitOpcodes.map dramMakeCmd

/-- The seven commands go out in order, whatever the controller answers. -/
theorem dramInitSdram_initialised {sdrctrl : DramSdrctrl} {ipcmd : List (BitVec 32)}
    (hptr : ptr.sdrctrl = sdrctrl) (hissued : ptr.ipcmd = ipcmd) :
    DramInitialised sdrctrl ipcmd (dramInitSdram hw ptr config) := by
  subst hptr hissued
  have hsdrctrl := fun ptr cmd => (dramIssueIpCmd_frame hw ptr config.baseAddress cmd).1
  have hipcmd := fun ptr cmd => (dramIssueIpCmd_frame hw ptr config.baseAddress cmd).2
  unfold dramInitSdram
  simp only [dramThen_issue]
  constructor
  · rfl
  · simp only [hsdrctrl, dramConfigDelayCell, DramSdrctrl.refreshing]
  · simp only [hipcmd, dramIssueIpCmd_opcode, dramConfigDelayCell, List.append_assoc,
      List.cons_append, List.nil_append, dramInitOpcodes, List.map_cons, List.map_nil]

variable {clkInHz config}

/-- A configuration that is accepted runs to its end. -/
theorem dramConfigSdram_of_accepted (h : config.Accepted clkInHz) :
    DramInitialised (config.sdrctrl clkInHz) ptr.ipcmd (dramConfigSdram hw ptr clkInHz config) := by
  unfold dramConfigSdram
  rw [if_neg (not_not.mpr h)]
  exact dramInitSdram_initialised hw _ config rfl rfl

/-- A configuration that is refused writes nothing. -/
theorem dramConfigSdram_of_not_accepted (h : ¬ config.Accepted clkInHz) :
    dramConfigSdram hw ptr clkInHz config = (statusInvalidArgument, ptr) := if_pos h

end Config

end HpmSdk.Dram
