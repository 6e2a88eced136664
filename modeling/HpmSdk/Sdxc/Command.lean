import HpmSdk.Sdxc.Adma2

set_option autoImplicit false

/-!
# SDXC: commands and their responses (`hpm_sdxc_drv.c`)

The command structure and `sdxc_receive_cmd_response`, which copies the response
registers.  They hold a long response without its last byte, so it is moved up by
eight bits over the four words.
-/

namespace HpmSdk.Sdxc

/-- `sdxc_dev_resp_type_t`. -/
inductive SdxcDevResp where
  | none
  | r1
  | r1b
  | r2
  | r3
  | r4
  | r5
  | r5b
  | r6
  | r7
  deriving DecidableEq, Repr

/-- `uint32_t [4]`. -/
structure Words4 where
  w0 : BitVec 32
  w1 : BitVec 32
  w2 : BitVec 32
  w3 : BitVec 32
  deriving DecidableEq, Repr

/-- Four zero words. -/
def Words4.zero : Words4 := ⟨0, 0, 0, 0⟩

/-- The words of a 128-bit register, the lowest first. -/
def Words4.ofRegister (v : BitVec 128) : Words4 :=
  ⟨v.extractLsb' 0 32, v.extractLsb' 32 32, v.extractLsb' 64 32, v.extractLsb' 96 32⟩

/-- `sdxc_command_t`, as far as a response is about it. -/
structure SdxcCommand where
  respType : SdxcDevResp
  respErrorFlags : BitVec 32
  response : Words4
  autoCmdResp : BitVec 32
  deriving DecidableEq, Repr

/-- `sdxc_receive_cmd_response`; `resp` are the registers `RESP`, and `autoCmd12`
tells that `CMD_XFER` selects the automatic CMD12. -/
def sdxcReceiveCmdResponse (resp : Words4) (autoCmd12 : Bool) (cmd : SdxcCommand) :
    SdxcStat × SdxcCommand :=
  let cmd :=
    if cmd.respType ≠ .none then
      let cmd := { cmd with response := { cmd.response with w0 := resp.w0 } }
      let cmd :=
        if cmd.respType = .r2 then
          { cmd with response :=
            { w0 := resp.w0 <<< 8
              w1 := (resp.w1 <<< 8) ||| (resp.w0 >>> 24)
              w2 := (resp.w2 <<< 8) ||| (resp.w1 >>> 24)
              w3 := (resp.w3 <<< 8) ||| (resp.w2 >>> 24) } }
        else cmd
      if autoCmd12 then { cmd with autoCmdResp := resp.w3 } else cmd
    else cmd
  if cmd.respErrorFlags ≠ 0 ∧
      (cmd.respType = .r1 ∨ cmd.respType = .r1b ∨ cmd.respType = .r6 ∨ cmd.respType = .r5) ∧
      cmd.respErrorFlags &&& cmd.response.w0 ≠ 0 then
    (.sdxcSendCmdFailed, cmd)
  else (.success, cmd)

/-- The next word takes over the byte that the word below it loses. -/
theorem shiftLeft_or_shiftRight (v : BitVec 128) (k : Nat) (hk : 8 + (32 + k) + 32 ≤ 128 + 8) :
    ((v >>> 8).extractLsb' (32 + k) 32 <<< 8) ||| ((v >>> 8).extractLsb' k 32 >>> 24) =
      (v >>> 8 <<< 8).extractLsb' (32 + k) 32 := by
  ext i hi
  have hlow : ¬ 32 + k + i < 8 := by omega
  have hin : 32 + k + i < 128 := by omega
  have hback : 8 + (32 + k + i - 8) = 32 + k + i := by omega
  by_cases h : i < 8
  · have hnext : 8 + (k + (24 + i)) = 32 + k + i := by omega
    have hcarry : 24 + i < 32 := by omega
    simp [h, hlow, hin, hback, hnext, hcarry]
  · have hsame : 8 + (32 + k + (i - 8)) = 32 + k + i := by omega
    have hcarry : ¬ 24 + i < 32 := by omega
    simp [h, hlow, hin, hback, hsame, hcarry]

/-- A long response is received as the register without its last byte. -/
theorem sdxcReceiveCmdResponse_r2 (v : BitVec 128) (autoCmd12 : Bool) {cmd : SdxcCommand}
    (hr2 : cmd.respType = .r2) :
    (sdxcReceiveCmdResponse (Words4.ofRegister (v >>> 8)) autoCmd12 cmd).1 = .success ∧
      (sdxcReceiveCmdResponse (Words4.ofRegister (v >>> 8)) autoCmd12 cmd).2.response =
        Words4.ofRegister (v >>> 8 <<< 8) := by
  have hfirst : (v >>> 8).extractLsb' 0 32 <<< 8 = (v >>> 8 <<< 8).extractLsb' 0 32 := by
    ext i hi
    have hin : i < 128 := by omega
    simp [hin]
  unfold sdxcReceiveCmdResponse Words4.ofRegister
  rw [hr2, ← hfirst, ← shiftLeft_or_shiftRight v 0 (by decide),
    ← shiftLeft_or_shiftRight v 32 (by decide),
    ← shiftLeft_or_shiftRight v 64 (by decide)]
  cases autoCmd12 <;> simp

end HpmSdk.Sdxc
