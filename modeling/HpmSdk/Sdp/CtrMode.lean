import HpmSdk.Sdp.Ctr

set_option autoImplicit false

/-!
# SDP: counter mode as a stream cipher

The contract of `sdp_aes_crypt_ctr` over an engine that computes a block cipher:
the keystream is `E(ctr) ‖ E(ctr + 1) ‖ …` over 128-bit big-endian counters, the
caller's counter is left at the next unused value, a second run undoes the
first, and a message may be given in pieces.  The last two hold of every call.
The first two hold exactly of the calls whose counter does not carry into its
top byte.
-/

namespace HpmSdk.Sdp

open HpmSdk.Foundation

/-- The pointers and the `uint32_t` length of one call. -/
structure CtrCall where
  nonce : Ptr SdpObj
  input : Ptr SdpObj
  output : Ptr SdpObj
  length : Nat
  args : CtrArgs nonce input output length
  length_lt : length < 2 ^ 32

/-- Successive calls over the pieces of a message, each where the previous one
stopped, with the counter carried over in the caller's buffer. -/
def ctrPieces {σ : Type} (hw : SdpHw σ) (nonce : Ptr SdpObj) :
    SdpState σ → Ptr SdpObj → Ptr SdpObj → List Nat → SdpState σ
  | s, _, _, [] => s
  | s, input, output, n :: ns =>
    ctrPieces hw nonce (sdpAesCryptCtr hw s nonce input output n).2 (input.add n) (output.add n) ns

variable (aes : SdpAesKey → SdpAesOp → Block → Block)

/-- The state a call ends in. -/
def CtrCall.run (c : CtrCall) (s : SdpState Unit) : SdpState Unit :=
  (sdpAesCryptCtr (.ofCipher aes) s c.nonce c.input c.output c.length).2

/-- The counter block a call starts from. -/
def CtrCall.counter (c : CtrCall) (s : SdpState Unit) : Block := blockAt s.mem c.nonce

/-- The number of counter values a call uses. -/
def CtrCall.blocks (c : CtrCall) : Nat := (c.length + 15) / 16

/-- What `sdp_aes_crypt_ctr` is for. -/
structure CtrContract (c : CtrCall) (s : SdpState Unit) : Prop where
  /-- The output is the input under `E(ctr) ‖ E(ctr + 1) ‖ …`. -/
  stream : ∀ i < c.length, (c.run aes s).mem c.output.obj (c.output.off + i) =
    s.mem c.input.obj (c.input.off + i) ^^^
      (s.cipher aes (Block.inc128^[i / 16] (c.counter s))).toBuf (i % 16)
  /-- The caller's counter has advanced by one for each block. -/
  next : blockAt (c.run aes s).mem c.nonce = Block.inc128^[c.blocks] (c.counter s)
  /-- A second call from the same counter restores the input. -/
  twice : ∀ output', CtrArgs c.nonce c.output output' c.length → ∀ i < c.length,
    (sdpAesCryptCtr (.ofCipher aes)
        ((c.run aes s).setBlock c.nonce (c.counter s)) c.nonce c.output output'
        c.length).2.mem output'.obj (output'.off + i) =
      s.mem c.input.obj (c.input.off + i)
  /-- Pieces of whole blocks, the last of any length, make up the one call. -/
  pieces : ∀ ns : List Nat, (∀ n ∈ ns.dropLast, 16 ∣ n) → ns.sum = c.length →
    ctrPieces (.ofCipher aes) c.nonce s c.input c.output ns = c.run aes s

/-! ## The laws that need no bound -/

/-- What a call has done when it returns. -/
theorem CtrCall.run_done (c : CtrCall) (s : SdpState Unit) :
    CtrDone (s.cipher aes) c.nonce c.input c.output c.length s (c.run aes s) :=
  (sdpAesCryptCtrLoop_done aes c.length s .invalidArgument c.args).2

/-- Counter mode is an involution: the second call sees the same keystream. -/
theorem CtrCall.run_twice (c : CtrCall) (s : SdpState Unit) (output' : Ptr SdpObj)
    (h : CtrArgs c.nonce c.output output' c.length) {i : Nat} (hi : i < c.length) :
    (sdpAesCryptCtr (.ofCipher aes)
        ((c.run aes s).setBlock c.nonce (c.counter s)) c.nonce c.output output'
        c.length).2.mem output'.obj (output'.off + i) =
      s.mem c.input.obj (c.input.off + i) := by
  have h₁ := c.run_done aes s
  set s₂ : SdpState Unit := (c.run aes s).setBlock c.nonce (c.counter s) with hs₂
  have h₂ := (sdpAesCryptCtrLoop_done aes c.length s₂ .invalidArgument h).2
  have hkey : s₂.cipher aes = s.cipher aes := congrArg (fun k => aes k .encrypt) h₁.key
  have hctr : blockAt s₂.mem c.nonce = c.counter s := blockAt_storeBlock _ _ _
  have hout : s₂.mem c.output.obj (c.output.off + i) =
      (c.run aes s).mem c.output.obj (c.output.off + i) := by
    rw [hs₂, SdpState.setBlock_mem, storeBlock_apply, if_neg]
    rintro ⟨ho, hlo, hhi⟩
    have := c.args.nonce_output ho.symm
    omega
  have hstream := h₂.stream i hi
  rw [hkey, hctr, hout, h₁.stream i hi, UInt8.xor_assoc] at hstream
  rw [sdpAesCryptCtr, hstream]
  simp [CtrCall.counter]

/-- The state a run ends in does not depend on the status it starts with. -/
theorem sdpAesCryptCtrLoop_status (s : SdpState Unit) (nonce input output : Ptr SdpObj) (n : Nat)
    (st st' : HpmStat) :
    (sdpAesCryptCtrLoop (.ofCipher aes) s nonce input output n st).2 =
      (sdpAesCryptCtrLoop (.ofCipher aes) s nonce input output n st').2 := by
  rcases Nat.eq_zero_or_pos n with rfl | hpos
  · rw [sdpAesCryptCtrLoop_zero, sdpAesCryptCtrLoop_zero]
  · rw [sdpAesCryptCtrLoop_pos aes _ _ _ _ hpos, sdpAesCryptCtrLoop_pos aes _ _ _ _ hpos]

/-- A run splits after any number of whole blocks. -/
theorem sdpAesCryptCtrLoop_add (nonce : Ptr SdpObj) (b : Nat) (st st' : HpmStat) :
    ∀ (q : Nat) (s : SdpState Unit) (input output : Ptr SdpObj),
      (sdpAesCryptCtrLoop (.ofCipher aes) s nonce input output (16 * q + b) st).2 =
        (sdpAesCryptCtrLoop (.ofCipher aes)
          (sdpAesCryptCtrLoop (.ofCipher aes) s nonce input output (16 * q) st').2
          nonce (input.add (16 * q)) (output.add (16 * q)) b st).2 := by
  intro q
  induction q generalizing st st' with
  | zero =>
    intro s input output
    rw [Nat.mul_zero, sdpAesCryptCtrLoop_zero, Nat.zero_add]
    rfl
  | succ q ih =>
    intro s input output
    have h16 : min (16 * (q + 1)) 16 = 16 := by omega
    have h16b : min (16 * (q + 1) + b) 16 = 16 := by omega
    rw [sdpAesCryptCtrLoop_pos aes s nonce input output (n := 16 * (q + 1) + b) (by omega),
      sdpAesCryptCtrLoop_pos aes s nonce input output (n := 16 * (q + 1)) (by omega), h16, h16b,
      show 16 * (q + 1) + b - 16 = 16 * q + b by omega, show 16 * (q + 1) - 16 = 16 * q by omega,
      ih .success .success, Ptr.add_add, Ptr.add_add, show 16 + 16 * q = 16 * (q + 1) by omega]
    exact sdpAesCryptCtrLoop_status aes _ _ _ _ _ _ _

/-- Pieces of whole blocks, but for the last one, are one call: the counter goes on where it was. -/
theorem ctrPieces_eq (nonce : Ptr SdpObj) : ∀ (ns : List Nat) (s : SdpState Unit)
    (input output : Ptr SdpObj), (∀ n ∈ ns.dropLast, 16 ∣ n) →
    ctrPieces (.ofCipher aes) nonce s input output ns =
      (sdpAesCryptCtr (.ofCipher aes) s nonce input output ns.sum).2 := by
  intro ns
  induction ns with
  | nil =>
    intro s input output _
    rw [List.sum_nil, sdpAesCryptCtr, sdpAesCryptCtrLoop_zero]
    rfl
  | cons n ns ih =>
    intro s input output hns
    cases ns with
    | nil => simp [ctrPieces]
    | cons n' ns =>
      obtain ⟨q, rfl⟩ : 16 ∣ n := hns n (by simp)
      have hrest : ∀ k ∈ (n' :: ns).dropLast, 16 ∣ k := fun k hk => hns k (by simp [hk])
      rw [ctrPieces, ih _ _ _ hrest, List.sum_cons (a := 16 * q), sdpAesCryptCtr, sdpAesCryptCtr,
        sdpAesCryptCtr, ← sdpAesCryptCtrLoop_add]

/-! ## The contract -/

/-- The contract holds exactly when the low 120 bits of the counter do not run over during the
call.

The increment of the code is the one modulo `2 ^ 128` as long as no carry goes to byte 0
(`Block.iterate_incBn_eq_iff`), so up to there each block is encrypted under the counter it should
be.  Behind a lost carry the counter that is left to the caller is already a wrong one. -/
theorem ctrContract_iff (c : CtrCall) (s : SdpState Unit) :
    CtrContract aes c s ↔ (c.counter s).low120 + c.blocks < 2 ^ 120 := by
  have hdone := c.run_done aes s
  have hlen := c.length_lt
  have hblocks : c.blocks < 256 ^ 15 := by
    rw [CtrCall.blocks]
    omega
  have hpow : (2 : Nat) ^ 120 = 256 ^ 15 := by norm_num
  rw [hpow, ← Block.iterate_incBn_eq_iff _ hblocks]
  constructor
  · intro h
    rw [← h.next]
    exact hdone.counter.symm
  · intro heq
    have hlow := (Block.iterate_incBn_eq_iff _ hblocks).mp heq
    refine ⟨fun i hi => ?_, ?_, fun output' h i hi => c.run_twice aes s output' h hi,
      fun ns hns hsum => ?_⟩
    · have hi' : i / 16 < c.blocks := by
        rw [CtrCall.blocks]
        omega
      rw [hdone.stream i hi, ← (Block.iterate_incBn_eq_iff _ (by omega)).mpr (by omega)]
      rfl
    · rw [← heq]
      exact hdone.counter
    · rw [ctrPieces_eq aes _ _ _ _ _ hns, hsum]
      rfl

/-- A counter whose fifteen low bytes are all `0xFF`, then one block of data. -/
def carryState : SdpState Unit where
  hw := ()
  keyIdx := 0
  keyBits := .keybits128
  mem o i := if o = .user ∧ 1 ≤ i ∧ i < 16 then 0xFF else 0
  issued := []

/-- Seventeen bytes, in place, behind the counter. -/
def carryCall : CtrCall where
  nonce := ⟨.user, 0⟩
  input := ⟨.user, 16⟩
  output := ⟨.user, 16⟩
  length := 17
  args := {
    nonce_ne := by decide
    input_ne := by decide
    output_ne := by decide
    same := Ptr.SameOrApart.refl _ _
    nonce_input := fun _ => Or.inl (Nat.le_refl _)
    nonce_output := fun _ => Or.inl (Nat.le_refl _) }
  length_lt := by decide

/-- The counter `00 FF … FF` is followed by `00 00 … 00`: the carry is lost, and
the second block is encrypted under a counter that is `2 ^ 120` too small. -/
theorem carry_lost : ¬ CtrContract (fun _ _ b => b) carryCall carryState := by
  intro h
  have hdone := carryCall.run_done (fun _ _ b => b) carryState
  have hlow : (carryCall.counter carryState).low120 = 256 ^ 15 - 1 := by decide
  have hblocks : carryCall.blocks = 2 := by decide
  have heq : Block.incBn^[2] (carryCall.counter carryState) =
      Block.inc128^[2] (carryCall.counter carryState) := by
    rw [← hblocks, ← h.next]
    exact hdone.counter.symm
  rw [Block.iterate_incBn_eq_iff _ (by norm_num), hlow] at heq
  omega

end HpmSdk.Sdp
