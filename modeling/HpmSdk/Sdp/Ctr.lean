import HpmSdk.Sdp.Engine
import Mathlib.Tactic.Ring
import Mathlib.Tactic.NormNum

set_option autoImplicit false

/-!
# SDP: counter mode (`sdp_increment_bn`, `sdp_aes_crypt_ctr`)

The driver encrypts the caller's counter block, exclusive-ors up to sixteen
bytes and increments the counter in place.  The increment loop of
`sdp_increment_bn` stops at byte 1 (`i > 0`), so byte 0 never takes a carry:
the counter is a big-endian number modulo `2 ^ 120` under a fixed top byte.

`CtrDone` is the specification of the loop: the stream that was written, the counter behind it, and
the bytes that were left.
-/

namespace HpmSdk.Sdp

open HpmSdk.Foundation

/-! ## The code -/

/-- The loop of `sdp_increment_bn` from index `i` down to 1. -/
def sdpIncrementBnLoop (bigNum : Buf) (off : Nat) : Nat → Buf
  | 0 => bigNum
  | i + 1 =>
    let next := bigNum.set (off + (i + 1)) (bigNum (off + (i + 1)) + 1)
    if next (off + (i + 1)) ≠ 0 then next else sdpIncrementBnLoop next off i

/-- `sdp_increment_bn` on the number of `bytes` bytes at offset `off`. -/
def sdpIncrementBn (bigNum : Buf) (off bytes : Nat) : Buf :=
  sdpIncrementBnLoop bigNum off (bytes - 1)

/-- `AES_CTR_BLOCK_UNIT`. -/
def AES_CTR_BLOCK_UNIT : Nat := 16

/-- The byte loop of `sdp_aes_crypt_ctr`, in ascending order:
`*output++ = *input++ ^ cipher_nonce[i]` for `i < n`. -/
def ctrXorBytes (m : Mem SdpObj) (input output cipherNonce : Ptr SdpObj) : Nat → Mem SdpObj
  | 0 => m
  | i + 1 =>
    let m' := ctrXorBytes m input output cipherNonce i
    m'.set (output.add i)
      (m' input.obj (input.off + i) ^^^ m' cipherNonce.obj (cipherNonce.off + i))

variable {σ : Type}

/-- The `while (length > 0)` loop of `sdp_aes_crypt_ctr`. -/
def sdpAesCryptCtrLoop (hw : SdpHw σ) (s : SdpState σ) (nonceCounter input output : Ptr SdpObj)
    (length : Nat) (status : HpmStat) : HpmStat × SdpState σ :=
  if 0 < length then
    let calcLen := if length < 16 then length else 16
    let (status, s) := sdpAesCryptEcb hw s .encrypt nonceCounter ⟨.buf3, 0⟩
    if status ≠ .success then (status, s)
    else
      let m := ctrXorBytes s.mem input output ⟨.buf3, 0⟩ calcLen
      let m := m.modify nonceCounter.obj fun b =>
        sdpIncrementBn b nonceCounter.off AES_CTR_BLOCK_UNIT
      sdpAesCryptCtrLoop hw { s with mem := m } nonceCounter (input.add calcLen)
        (output.add calcLen) (length - calcLen) status
  else (status, s)
termination_by length
decreasing_by split <;> omega

/-- `sdp_aes_crypt_ctr` on pointers that are not `NULL`. -/
def sdpAesCryptCtr (hw : SdpHw σ) (s : SdpState σ) (nonceCounter input output : Ptr SdpObj)
    (length : Nat) : HpmStat × SdpState σ :=
  sdpAesCryptCtrLoop hw s nonceCounter input output length .invalidArgument

/-! ## The counter -/

/-- What the increment does to the bytes it visits, and that it visits no other. -/
theorem sdpIncrementBnLoop_spec (i : Nat) : ∀ (n : Buf) (off : Nat),
    beVal (sdpIncrementBnLoop n off i) (off + 1) i = (beVal n (off + 1) i + 1) % 256 ^ i ∧
      ∀ k, k ≤ off ∨ off + i < k → sdpIncrementBnLoop n off i k = n k := by
  induction i with
  | zero => intro n off; simp [sdpIncrementBnLoop, beVal]
  | succ i ih =>
    intro n off
    set x := n (off + (i + 1)) with hx
    have hxlt : x.toNat < 256 := UInt8.toNat_lt x
    have hprefix : beVal (n.set (off + (i + 1)) (x + 1)) (off + 1) i = beVal n (off + 1) i := by
      refine beVal_congr fun k hk => Buf.set_of_ne _ (by omega)
    have hV : beVal n (off + 1) i < 256 ^ i := beVal_lt _ _ _
    have hidx : off + 1 + i = off + (i + 1) := by omega
    have hstep : beVal n (off + 1) (i + 1) = beVal n (off + 1) i * 256 + x.toNat := by
      rw [beVal, hidx, ← hx]
    have hsucc : (x + 1).toNat = (x.toNat + 1) % 256 := by simp
    rw [sdpIncrementBnLoop]
    simp only [← hx, Buf.set_self]
    split
    · -- the carry stops here
      rename_i hne
      have hnz : (x + 1).toNat ≠ 0 := fun h0 => hne (UInt8.toNat_inj.mp (by simpa using h0))
      have hlt : x.toNat + 1 < 256 := by
        by_contra hge
        have : x.toNat = 255 := by omega
        simp [hsucc, this] at hnz
      refine ⟨?_, fun k hk => Buf.set_of_ne _ (by omega)⟩
      rw [beVal, hprefix, hidx, Buf.set_self, hstep, hsucc, Nat.mod_eq_of_lt hlt,
        Nat.mod_eq_of_lt (by rw [pow_succ]; omega)]
      omega
    · -- byte 0xFF becomes 0 and the carry moves on
      rename_i hz
      have hzero : x + 1 = 0 := not_not.mp hz
      have h255 : x.toNat = 255 := by
        have : (x + 1).toNat = 0 := by rw [hzero]; rfl
        omega
      obtain ⟨hval, hframe⟩ := ih (n.set (off + (i + 1)) (x + 1)) off
      refine ⟨?_, fun k hk => ?_⟩
      · rw [beVal, hval, hprefix, hidx, hframe _ (Or.inr (by omega)), Buf.set_self, hzero, hstep,
          h255, pow_succ,
          show beVal n (off + 1) i * 256 + 255 + 1 = (beVal n (off + 1) i + 1) * 256 by ring,
          Nat.mul_mod_mul_right, UInt8.toNat_zero, Nat.add_zero]
      · rw [hframe k (by omega), Buf.set_of_ne _ (by omega)]

/-- The counter block as a 128-bit big-endian number. -/
def Block.toNat (b : Block) : Nat := beVal b.toBuf 0 16

/-- The counter block without its top byte. -/
def Block.low120 (b : Block) : Nat := beVal b.toBuf 1 15

/-- The block that encodes a number modulo `2 ^ 128`. -/
def Block.ofNat (n : Nat) : Block := fun i => UInt8.ofNat (n / 256 ^ (15 - i.val))

/-- The counter incremented as one 128-bit big-endian integer. -/
def Block.inc128 (b : Block) : Block := Block.ofNat (b.toNat + 1)

/-- The increment the code makes. -/
def Block.incBn (b : Block) : Block := Block.ofBuf (sdpIncrementBn b.toBuf 0 16) 0

theorem Block.toNat_lt (b : Block) : b.toNat < 256 ^ 16 := beVal_lt _ _ _

theorem Block.low120_lt (b : Block) : b.low120 < 256 ^ 15 := beVal_lt _ _ _

/-- A block is the number that it is read as. -/
theorem Block.toNat_inj {a b : Block} (h : a.toNat = b.toNat) : a = b := by
  funext i
  have := beVal_inj h i i.isLt
  simpa [Block.toBuf] using this

theorem Block.toNat_ofNat (n : Nat) : (Block.ofNat n).toNat = n % 256 ^ 16 := by
  refine beVal_of_digits fun i hi => ?_
  rw [Nat.zero_add, Block.toBuf_apply _ hi]
  rfl

/-- The number of a block, by its first byte and the other fifteen. -/
theorem Block.toNat_eq (b : Block) : b.toNat = (b 0).toNat * 256 ^ 15 + b.low120 := by
  have h := beVal_add b.toBuf 0 1 15
  simpa [beVal, Block.toBuf, Block.toNat, Block.low120] using h

/-- The driver increments the lower fifteen bytes. -/
theorem Block.low120_incBn (b : Block) : b.incBn.low120 = (b.low120 + 1) % 256 ^ 15 := by
  have h := (sdpIncrementBnLoop_spec 15 b.toBuf 0).1
  rw [Block.low120, Block.low120, ← h]
  refine beVal_congr fun k hk => ?_
  rw [Block.toBuf_apply _ (by omega)]
  simp [Block.incBn, Block.ofBuf, sdpIncrementBn]

/-- And leaves the first one, also where they carry. -/
theorem Block.incBn_zero (b : Block) : b.incBn 0 = b 0 := by
  have h := (sdpIncrementBnLoop_spec 15 b.toBuf 0).2 0 (Or.inl (by omega))
  simpa [Block.incBn, Block.ofBuf, sdpIncrementBn, Block.toBuf] using h

theorem Block.toNat_inc128 (b : Block) : b.inc128.toNat = (b.toNat + 1) % 256 ^ 16 :=
  Block.toNat_ofNat _

/-- After `n` increments of the code the top byte is the old one. -/
theorem Block.iterate_incBn (b : Block) (n : Nat) :
    (Block.incBn^[n] b) 0 = b 0 ∧ (Block.incBn^[n] b).low120 = (b.low120 + n) % 256 ^ 15 := by
  induction n with
  | zero =>
    rw [Function.iterate_zero_apply, Nat.add_zero, Nat.mod_eq_of_lt b.low120_lt]
    exact ⟨rfl, rfl⟩
  | succ n ih =>
    rw [Function.iterate_succ_apply']
    refine ⟨by rw [Block.incBn_zero, ih.1], ?_⟩
    rw [Block.low120_incBn, ih.2, Nat.mod_add_mod, Nat.add_assoc]

/-- So many increments add so much, in 128 bits. -/
theorem Block.iterate_inc128 (b : Block) (n : Nat) :
    (Block.inc128^[n] b).toNat = (b.toNat + n) % 256 ^ 16 := by
  induction n with
  | zero => rw [Function.iterate_zero_apply, Nat.add_zero, Nat.mod_eq_of_lt b.toNat_lt]
  | succ n ih =>
    rw [Function.iterate_succ_apply', Block.toNat_inc128, ih, Nat.mod_add_mod, Nat.add_assoc]

/-- The two increments agree over `n` steps exactly when no carry reaches the
top byte. -/
theorem Block.iterate_incBn_eq_iff (b : Block) {n : Nat} (hn : n < 256 ^ 15) :
    Block.incBn^[n] b = Block.inc128^[n] b ↔ b.low120 + n < 256 ^ 15 := by
  have hhi : (b 0).toNat < 256 := UInt8.toNat_lt _
  have hlo := b.low120_lt
  obtain ⟨htop, hlow⟩ := b.iterate_incBn n
  have hcode : (Block.incBn^[n] b).toNat = (b 0).toNat * 256 ^ 15 + (b.low120 + n) % 256 ^ 15 := by
    rw [Block.toNat_eq, htop, hlow]
  have hspec : (Block.inc128^[n] b).toNat =
      ((b 0).toNat * 256 ^ 15 + b.low120 + n) % 256 ^ 16 := by
    rw [Block.iterate_inc128, ← Block.toNat_eq]
  constructor
  · intro heq
    have h : (Block.incBn^[n] b).toNat = (Block.inc128^[n] b).toNat := by rw [heq]
    rw [hcode, hspec] at h
    omega
  · intro hlt
    refine Block.toNat_inj ?_
    rw [hcode, hspec, Nat.mod_eq_of_lt hlt, Nat.mod_eq_of_lt (by omega)]
    omega

/-! ## One run over the engine of a cipher -/

/-- The byte loop stores the exclusive or of the two inputs and nothing else. -/
theorem ctrXorBytes_apply (m : Mem SdpObj) {input output : Ptr SdpObj} (nonce : Ptr SdpObj)
    {N : Nat}
    (hio : Ptr.SameOrApart input output N) (hno : nonce.obj ≠ output.obj) :
    ∀ n ≤ N, ∀ o k, ctrXorBytes m input output nonce n o k =
      if o = output.obj ∧ output.off ≤ k ∧ k < output.off + n then
        m input.obj (input.off + (k - output.off)) ^^^
          m nonce.obj (nonce.off + (k - output.off))
      else m o k := by
  intro n
  induction n with
  | zero =>
    intro _ o k
    have hno : ¬ (o = output.obj ∧ output.off ≤ k ∧ k < output.off + 0) := by omega
    rw [if_neg hno]
    rfl
  | succ n ih =>
    intro hn o k
    have hprev := ih (by omega)
    -- the byte about to be read is not one already written
    have hin : ctrXorBytes m input output nonce n input.obj (input.off + n) =
        m input.obj (input.off + n) := by
      rw [hprev]
      refine if_neg fun ⟨hobj, hlo, hhi⟩ => ?_
      rcases hio with rfl | hap
      · omega
      · have := hap hobj
        omega
    have hkey : ctrXorBytes m input output nonce n nonce.obj (nonce.off + n) =
        m nonce.obj (nonce.off + n) := by
      rw [hprev]
      exact if_neg fun h => hno h.1
    rw [ctrXorBytes]
    simp only [hin, hkey]
    by_cases ho : o = output.obj
    · subst ho
      rw [Mem.set, Ptr.add_obj, Mem.modify_self]
      by_cases hk : k = output.off + n
      · subst hk
        simp
      · rw [Ptr.add_off, Buf.set_of_ne _ hk, hprev]
        congr 1
        simp only [true_and, eq_iff_iff]
        omega
    · rw [Mem.set, Ptr.add_obj, Mem.modify_of_ne _ _ ho, hprev]
      simp [ho]

/-- The block function the encrypting packets of a context compute. -/
abbrev SdpState.cipher (aes : SdpAesKey → SdpAesOp → Block → Block) (s : SdpState Unit) :
    Block → Block := aes s.key .encrypt

section OfCipher

variable (aes : SdpAesKey → SdpAesOp → Block → Block)

/-- Enciphering a block with an engine that computes the cipher. -/
theorem sdpAesCryptEcb_ofCipher (s : SdpState Unit) (i o : Ptr SdpObj) :
    sdpAesCryptEcb (.ofCipher aes) s .encrypt i o =
      (.success, { s with
        mem := storeBlock s.mem o (s.cipher aes (blockAt s.mem i))
        issued := s.issued ++ [.success] }) := by
  simp [sdpAesCryptEcb, runPacket, SdpHw.ofCipher, aesModctrl, SdpState.cipher, SdpState.key,
    sdpWaitDone_pktcnt0]

/-- Chaining a block with an engine that computes the cipher. -/
theorem sdpAesCryptCbc_ofCipher (s : SdpState Unit) (iv i o : Ptr SdpObj) :
    sdpAesCryptCbc (.ofCipher aes) s .encrypt iv i o =
      (.success, { s with
        mem := storeBlock s.mem o (s.cipher aes (Block.xor (blockAt s.mem iv) (blockAt s.mem i)))
        issued := s.issued ++ [.success] }) := by
  simp [sdpAesCryptCbc, runPacket, SdpHw.ofCipher, aesModctrl, SdpState.cipher, SdpState.key,
    sdpWaitDone_pktcnt0]

/-- What one pass of the loop body leaves in memory. -/
def ctrStep (s : SdpState Unit) (nonce input output : Ptr SdpObj) (n : Nat) : SdpState Unit :=
  let m := storeBlock s.mem ⟨.buf3, 0⟩ (s.cipher aes (blockAt s.mem nonce))
  { s with
    mem := (ctrXorBytes m input output ⟨.buf3, 0⟩ n).modify nonce.obj fun b =>
      sdpIncrementBn b nonce.off AES_CTR_BLOCK_UNIT
    issued := s.issued ++ [.success] }

theorem sdpAesCryptCtrLoop_zero {σ : Type} (hw : SdpHw σ) (s : SdpState σ)
    (nonce input output : Ptr SdpObj) (st : HpmStat) :
    sdpAesCryptCtrLoop hw s nonce input output 0 st = (st, s) := by
  rw [sdpAesCryptCtrLoop]
  simp

/-- A round of the loop takes sixteen bytes, or what is left. -/
theorem sdpAesCryptCtrLoop_pos (s : SdpState Unit) (nonce input output : Ptr SdpObj) {n : Nat}
    (hn : 0 < n) (st : HpmStat) :
    sdpAesCryptCtrLoop (.ofCipher aes) s nonce input output n st =
      sdpAesCryptCtrLoop (.ofCipher aes) (ctrStep aes s nonce input output (min n 16)) nonce
        (input.add (min n 16)) (output.add (min n 16)) (n - min n 16) .success := by
  have hmin : (if n < 16 then n else 16) = min n 16 := by split <;> omega
  rw [sdpAesCryptCtrLoop]
  simp only [hn, if_true, hmin, sdpAesCryptEcb_ofCipher, ne_eq, not_true_eq_false, if_false]
  rfl

end OfCipher

/-! ## What a whole call does -/

theorem Block.low120_ofBuf (b : Buf) (off : Nat) :
    (Block.ofBuf b off).low120 = beVal b (off + 1) 15 := by
  refine beVal_congr fun k hk => ?_
  rw [Block.toBuf_apply _ (by omega)]
  simp [Block.ofBuf, Nat.add_assoc]

/-- A block is its first byte and the number in the others. -/
theorem Block.ext_low120 {a b : Block} (h0 : a 0 = b 0) (hlow : a.low120 = b.low120) : a = b := by
  refine Block.toNat_inj ?_
  rw [Block.toNat_eq, Block.toNat_eq, h0, hlow]

/-- The increment acts on a counter block wherever it is stored. -/
theorem Block.ofBuf_sdpIncrementBn (b : Buf) (off : Nat) :
    Block.ofBuf (sdpIncrementBn b off AES_CTR_BLOCK_UNIT) off = (Block.ofBuf b off).incBn := by
  obtain ⟨hval, hframe⟩ := sdpIncrementBnLoop_spec 15 b off
  refine Block.ext_low120 ?_ ?_
  · rw [Block.incBn_zero]
    exact hframe off (Or.inl (Nat.le_refl _))
  · rw [Block.low120_incBn, Block.low120_ofBuf, Block.low120_ofBuf]
    exact hval

/-- The pointers of a call: the counter block, the input and the output lie
outside the context's scratch buffer, the counter overlaps neither of the other
two, and input and output are one buffer or disjoint. -/
structure CtrArgs (nonce input output : Ptr SdpObj) (n : Nat) : Prop where
  nonce_ne : nonce.obj ≠ .buf3
  input_ne : input.obj ≠ .buf3
  output_ne : output.obj ≠ .buf3
  same : Ptr.SameOrApart input output n
  nonce_input : nonce.Apart 16 input n
  nonce_output : nonce.Apart 16 output n

/-- The arguments for what is left. -/
theorem CtrArgs.drop {nonce input output : Ptr SdpObj} {n k : Nat}
    (h : CtrArgs nonce input output n) (hk : k ≤ n) :
    CtrArgs nonce (input.add k) (output.add k) (n - k) where
  nonce_ne := h.nonce_ne
  input_ne := h.input_ne
  output_ne := h.output_ne
  same := h.same.drop hk
  nonce_input := fun ho => by have := h.nonce_input ho; simp only [Ptr.add_off]; omega
  nonce_output := fun ho => by have := h.nonce_output ho; simp only [Ptr.add_off]; omega

/-- The arguments for a first piece. -/
theorem CtrArgs.take {nonce input output : Ptr SdpObj} {n k : Nat}
    (h : CtrArgs nonce input output n) (hk : k ≤ n) : CtrArgs nonce input output k where
  nonce_ne := h.nonce_ne
  input_ne := h.input_ne
  output_ne := h.output_ne
  same := h.same.imp id fun hap ho => by have := hap ho; omega
  nonce_input := fun ho => by have := h.nonce_input ho; omega
  nonce_output := fun ho => by have := h.nonce_output ho; omega

/-- The byte `k` of object `o` lies in none of the regions a call of `n` bytes
writes. -/
def CtrUntouched (nonce output : Ptr SdpObj) (n : Nat) (o : SdpObj) (k : Nat) : Prop :=
  o ≠ .buf3 ∧ ¬ (o = output.obj ∧ output.off ≤ k ∧ k < output.off + n) ∧
    ¬ (o = nonce.obj ∧ nonce.off ≤ k ∧ k < nonce.off + 16)

/-- The state after `n` bytes: the output is the input under the keystream of
`E` from the counter found at `nonce`, the counter has advanced once per block,
and nothing else but the scratch buffer has changed. -/
structure CtrDone (E : Block → Block) (nonce input output : Ptr SdpObj) (n : Nat)
    (s s' : SdpState Unit) : Prop where
  stream : ∀ i < n, s'.mem output.obj (output.off + i) =
    s.mem input.obj (input.off + i) ^^^
      (E (Block.incBn^[i / 16] (blockAt s.mem nonce))).toBuf (i % 16)
  counter : blockAt s'.mem nonce = Block.incBn^[(n + 15) / 16] (blockAt s.mem nonce)
  frame : ∀ o k, CtrUntouched nonce output n o k → s'.mem o k = s.mem o k
  issued : s'.issued = s.issued ++ List.replicate ((n + 15) / 16) .success
  keyIdx : s'.keyIdx = s.keyIdx
  keyBits : s'.keyBits = s.keyBits

section OfCipher

variable (aes : SdpAesKey → SdpAesOp → Block → Block)

/-- One pass of the loop body, of at most one block. -/
theorem ctrStep_done {s : SdpState Unit} {nonce input output : Ptr SdpObj} {n : Nat}
    (h : CtrArgs nonce input output n) (hpos : 0 < n) (hle : n ≤ 16) :
    CtrDone (s.cipher aes) nonce input output n s (ctrStep aes s nonce input output n) := by
  set ks := s.cipher aes (blockAt s.mem nonce) with hks
  set m := storeBlock s.mem ⟨.buf3, 0⟩ ks with hm
  have hm_of_ne : ∀ {o : SdpObj}, o ≠ .buf3 → m o = s.mem o := fun ho => storeBlock_of_ne _ _ ho
  have hxor := ctrXorBytes_apply m ⟨.buf3, 0⟩ h.same h.output_ne.symm n (Nat.le_refl n)
  have hmem : (ctrStep aes s nonce input output n).mem =
      (ctrXorBytes m input output ⟨.buf3, 0⟩ n).modify nonce.obj
        (fun b => sdpIncrementBn b nonce.off AES_CTR_BLOCK_UNIT) := rfl
  have hblocks : (n + 15) / 16 = 1 := by omega
  -- the increment leaves every byte outside the counter block alone
  have hinc : ∀ o k, ¬ (o = nonce.obj ∧ nonce.off ≤ k ∧ k < nonce.off + 16) →
      (ctrStep aes s nonce input output n).mem o k =
        ctrXorBytes m input output ⟨.buf3, 0⟩ n o k := by
    intro o k hout
    rw [hmem]
    by_cases ho : o = nonce.obj
    · subst ho
      simp only [true_and] at hout
      rw [Mem.modify_self]
      exact (sdpIncrementBnLoop_spec 15 _ _).2 k (by omega)
    · rw [Mem.modify_of_ne _ _ ho]
  refine ⟨?_, ?_, ?_, ?_, rfl, rfl⟩
  · intro i hi
    have hnon : ¬ (output.obj = nonce.obj ∧ nonce.off ≤ output.off + i ∧
        output.off + i < nonce.off + 16) := by
      rintro ⟨ho, h1, h2⟩
      have := h.nonce_output ho.symm
      omega
    have hin : output.obj = output.obj ∧ output.off ≤ output.off + i ∧
        output.off + i < output.off + n := ⟨rfl, by omega, by omega⟩
    rw [hinc _ _ hnon, hxor, if_pos hin, Nat.add_sub_cancel_left, hm_of_ne h.input_ne,
      Nat.div_eq_of_lt (by omega : i < 16), Nat.mod_eq_of_lt (by omega : i < 16),
      Function.iterate_zero_apply]
    congr 1
    simp [hm, storeBlock, Buf.copy, hks, show i < 16 by omega]
  · have hsame : blockAt (ctrXorBytes m input output ⟨.buf3, 0⟩ n) nonce = blockAt s.mem nonce := by
      refine Block.ofBuf_congr fun i hi => ?_
      rw [hxor, if_neg, hm_of_ne h.nonce_ne]
      rintro ⟨ho, h1, h2⟩
      have := h.nonce_output ho
      omega
    rw [hblocks, Function.iterate_one, ← hsame, blockAt, hmem, Mem.modify_self,
      Block.ofBuf_sdpIncrementBn]
    rfl
  · rintro o k ⟨h3, hout, hnon⟩
    rw [hinc _ _ hnon, hxor, if_neg hout, hm_of_ne h3]
  · rw [hblocks]
    rfl

/-- Two runs in sequence, the first of whole blocks. -/
theorem CtrDone.append {E : Block → Block} {nonce input output : Ptr SdpObj} {a b : Nat}
    {s s₁ s₂ : SdpState Unit} (hargs : CtrArgs nonce input output (a + b)) (ha : 16 ∣ a)
    (h₁ : CtrDone E nonce input output a s s₁)
    (h₂ : CtrDone E nonce (input.add a) (output.add a) b s₁ s₂) :
    CtrDone E nonce input output (a + b) s s₂ := by
  obtain ⟨q, rfl⟩ := ha
  have hq : (16 * q + 15) / 16 = q := by omega
  have hqb : (16 * q + b + 15) / 16 = (b + 15) / 16 + q := by omega
  have hc₁ := h₁.counter
  rw [hq] at hc₁
  refine ⟨?_, ?_, ?_, ?_, h₂.keyIdx.trans h₁.keyIdx, h₂.keyBits.trans h₁.keyBits⟩
  · intro i hi
    rcases Nat.lt_or_ge i (16 * q) with hlt | hge
    · -- a byte of the first run: the second does not touch it
      rw [h₂.frame _ _ ?_, h₁.stream i hlt]
      refine ⟨hargs.output_ne, fun ⟨_, h1, _⟩ => ?_, fun ⟨ho, h1, h2⟩ => ?_⟩
      · simp only [Ptr.add_off] at h1
        omega
      · have := hargs.nonce_output ho.symm
        omega
    · obtain ⟨j, rfl⟩ := Nat.exists_eq_add_of_le hge
      have hj := h₂.stream j (by omega)
      simp only [Ptr.add_obj, Ptr.add_off] at hj
      have hdiv : (16 * q + j) / 16 = j / 16 + q := by omega
      have hmod : (16 * q + j) % 16 = j % 16 := by omega
      rw [hdiv, hmod, ← Nat.add_assoc, hj, hc₁, ← Function.iterate_add_apply, ← Nat.add_assoc,
        h₁.frame _ _ ?_]
      refine ⟨hargs.input_ne, fun ⟨ho, h1, h2⟩ => ?_, fun ⟨ho, h1, h2⟩ => ?_⟩
      · rcases hargs.same with heq | hap
        · subst heq; omega
        · have := hap ho
          omega
      · have := hargs.nonce_input ho.symm
        omega
  · rw [h₂.counter, hc₁, hqb, Function.iterate_add_apply]
  · rintro o k ⟨h3, hout, hnon⟩
    rw [h₂.frame o k ⟨h3, ?_, hnon⟩, h₁.frame o k ⟨h3, ?_, hnon⟩]
    · rintro ⟨ho, h1, h2⟩
      exact hout ⟨ho, h1, by omega⟩
    · rintro ⟨ho, h1, h2⟩
      simp only [Ptr.add_off] at h1 h2
      exact hout ⟨ho, by omega, by omega⟩
  · rw [h₂.issued, h₁.issued, hq, hqb, List.append_assoc, List.replicate_append_replicate,
      Nat.add_comm q]

theorem CtrDone.key {E : Block → Block} {nonce input output : Ptr SdpObj} {n : Nat}
    {s s' : SdpState Unit} (h : CtrDone E nonce input output n s s') : s'.key = s.key := by
  simp [SdpState.key, h.keyIdx, h.keyBits]

theorem CtrDone.zero (E : Block → Block) (nonce input output : Ptr SdpObj) (s : SdpState Unit) :
    CtrDone E nonce input output 0 s s where
  stream i hi := absurd hi (Nat.not_lt_zero i)
  counter := rfl
  frame _ _ _ := rfl
  issued := (List.append_nil _).symm
  keyIdx := rfl
  keyBits := rfl

/-- The loop runs to its end and does what `CtrDone` says. -/
theorem sdpAesCryptCtrLoop_done {nonce : Ptr SdpObj} : ∀ (n : Nat) {input output : Ptr SdpObj}
    (s : SdpState Unit) (st : HpmStat), CtrArgs nonce input output n →
    (sdpAesCryptCtrLoop (.ofCipher aes) s nonce input output n st).1 =
        (if n = 0 then st else .success) ∧
      CtrDone (s.cipher aes) nonce input output n s
        (sdpAesCryptCtrLoop (.ofCipher aes) s nonce input output n st).2 := by
  intro n
  induction n using Nat.strongRecOn with
  | ind n ih =>
    intro input output s st hargs
    rcases Nat.eq_zero_or_pos n with rfl | hpos
    · rw [sdpAesCryptCtrLoop_zero]
      exact ⟨rfl, CtrDone.zero _ _ _ _ _⟩
    · rw [sdpAesCryptCtrLoop_pos aes s nonce input output hpos]
      set c := min n 16 with hc
      have hstep := ctrStep_done aes (s := s) (hargs.take (show c ≤ n by omega))
        (by omega) (by omega)
      obtain ⟨hst, hrest⟩ := ih (n - c) (by omega) (ctrStep aes s nonce input output c) .success
        (hargs.drop (by omega))
      have hE : (ctrStep aes s nonce input output c).cipher aes = s.cipher aes := by
        rw [SdpState.cipher, SdpState.cipher, hstep.key]
      rw [hE] at hrest
      refine ⟨?_, ?_⟩
      · rw [hst, if_neg (by omega : n ≠ 0)]
        simp
      · have hsum : c + (n - c) = n := by omega
        rcases Nat.lt_or_ge n 16 with hlt | hge
        · -- the last, partial block
          have hc' : c = n := by omega
          rw [hc', Nat.sub_self, sdpAesCryptCtrLoop_zero]
          rw [hc'] at hstep
          exact hstep
        · have h16 : 16 ∣ c := ⟨1, by omega⟩
          have := CtrDone.append (hsum.symm ▸ hargs) h16 hstep hrest
          rwa [hsum] at this

end OfCipher

end HpmSdk.Sdp
