import Mathlib.Logic.Basic

set_option autoImplicit false

/-!
# Status codes (`hpm_common.h`, `hpm_sdp_drv.h`)

`hpm_stat_t` is a `uint32_t` that carries one of the enumerators below; the
drivers only compare it with `status_success` and hand it on.
-/

namespace HpmSdk

/-- `hpm_stat_t`: the common codes and the SDP group. -/
inductive HpmStat where
  | success
  | fail
  | invalidArgument
  | timeout
  | sdpNoCryptoSupport
  | sdpNoHashSupport
  | sdpErrorPacket
  | sdpErrorSetup
  | sdpErrorSrc
  | sdpErrorDst
  | sdpErrorHash
  | sdpErrorChain
  | sdpErrorInvalidMac
  deriving DecidableEq, Repr, Inhabited

end HpmSdk
