import HpmSdk.Sdp.CcmRoundTrip

set_option autoImplicit false

/-!
# SDP: what the CCM calls report

`aes_ccm_auth_crypt` drops the status of every hardware operation it issues and
ends with `status_success`; `sdp_aes_crypt_ctr` next to it breaks off on the
first failure.  The failing operations are given as a pattern, the `STA` reading
of the k-th packet, laid over an arbitrary engine: how many packets a call
starts depends on its lengths alone, so the pattern decides exactly which calls
report what happened.
-/

namespace HpmSdk.Sdp

open HpmSdk.Foundation

/-! ## Failure patterns -/

/-- The engine `hw` with a failure pattern: packet `k` since reset ends with the
reading `sta k`. -/
def SdpHw.withSta {τ : Type} (hw : SdpHw τ) (sta : Nat → BitVec 32) : SdpHw (Nat × τ) where
  exec st mc iv x :=
    let done := hw.exec st.2 mc iv x
    { state := (st.1 + 1, done.state), sta := sta st.1, dst := done.dst }

variable {τ : Type}

/-- Exactly the next `n` packets of the pattern have been run. -/
structure Issued (sta : Nat → BitVec 32) (n : Nat) (s s' : SdpState (Nat × τ)) : Prop where
  count : s'.hw.1 = s.hw.1 + n
  log : s'.issued = s.issued ++ (List.range n).map fun k => sdpWaitDone (sta (s.hw.1 + k))

theorem Issued.nil (sta : Nat → BitVec 32) (s : SdpState (Nat × τ)) : Issued sta 0 s s where
  count := rfl
  log := (List.append_nil _).symm

/-- Packets that are started one behind the other add up. -/
theorem Issued.append {sta : Nat → BitVec 32} {m n : Nat} {s s₁ s₂ : SdpState (Nat × τ)}
    (h₁ : Issued sta m s s₁) (h₂ : Issued sta n s₁ s₂) : Issued sta (m + n) s s₂ where
  count := by rw [h₂.count, h₁.count, Nat.add_assoc]
  log := by
    rw [h₂.log, h₁.log, h₁.count, List.append_assoc, List.range_add, List.map_append,
      List.map_map]
    simp only [Function.comp_def, Nat.add_assoc]

/-- Stores of the processor start no packet. -/
theorem Issued.modify {sta : Nat → BitVec 32} {n : Nat} {s s' : SdpState (Nat × τ)}
    (h : Issued sta n s s') (o : SdpObj) (f : Buf → Buf) : Issued sta n s (s'.modify o f) :=
  ⟨h.count, h.log⟩

theorem Issued.of_modify {sta : Nat → BitVec 32} {n : Nat} {s s' : SdpState (Nat × τ)}
    {o : SdpObj} {f : Buf → Buf} (h : Issued sta n (s.modify o f) s') : Issued sta n s s' :=
  ⟨h.count, h.log⟩

section Pattern

variable (hw : SdpHw τ) (sta : Nat → BitVec 32)

/-- A packet is one packet, whatever its status is. -/
theorem runPacket_issued (s : SdpState (Nat × τ)) (op : SdpAesOp) (cbc : Bool) (iv : Block)
    (i o : Ptr SdpObj) : Issued sta 1 s (runPacket (hw.withSta sta) s op cbc iv i o).2 :=
  ⟨rfl, rfl⟩

/-- Counter mode over at most one block starts one packet, whether or not that
packet fails. -/
theorem sdpAesCryptCtr_issued (s : SdpState (Nat × τ)) (nonce i o : Ptr SdpObj) {n : Nat}
    (hpos : 0 < n) (hle : n ≤ 16) :
    Issued sta 1 s (sdpAesCryptCtr (hw.withSta sta) s nonce i o n).2 := by
  unfold sdpAesCryptCtr
  rw [sdpAesCryptCtrLoop]
  simp only [hpos, if_true]
  split
  · exact runPacket_issued hw sta s .encrypt false _ _ _
  · have hcalc : n - (if n < 16 then n else 16) = 0 := by
      split
      · exact Nat.sub_self n
      · omega
    rw [hcalc, sdpAesCryptCtrLoop_zero]
    exact ⟨rfl, rfl⟩

theorem aesCcmMac_issued (s : SdpState (Nat × τ)) :
    Issued sta 1 s (aesCcmMac (hw.withSta sta) s) :=
  runPacket_issued hw sta s .encrypt true _ _ _

theorem aesCcmMacBlock_issued (s : SdpState (Nat × τ)) (src : Buf) (off n : Nat) :
    Issued sta 1 s (aesCcmMacBlock (hw.withSta sta) s src off n) :=
  (aesCcmMac_issued hw sta _).of_modify

/-- The associated data takes a packet for each of its blocks. -/
theorem aesCcmAadLoop_issued (aad : Buf) : ∀ (n off : Nat) (s : SdpState (Nat × τ)),
    Issued sta ((n + 15) / 16) s (aesCcmAadLoop (hw.withSta sta) s aad off n) := by
  intro n
  induction n using Nat.strongRecOn with
  | ind n ih =>
    intro off s
    rw [aesCcmAadLoop]
    rcases Nat.eq_zero_or_pos n with rfl | hpos
    · rw [if_neg (Nat.lt_irrefl 0)]
      exact Issued.nil sta s
    · rw [if_pos hpos]
      have hfirst := aesCcmMacBlock_issued hw sta s aad off (min n 16)
      have hrest := ih (n - min n 16) (by omega) (off + min n 16)
        (aesCcmMacBlock (hw.withSta sta) s aad off (min n 16))
      have hsum : (n + 15) / 16 = 1 + (n - min n 16 + 15) / 16 := by omega
      rw [hsum]
      exact hfirst.append hrest

/-- The packets for the associated data. -/
def ccmAadPackets (aadLen : Nat) : Nat :=
  if 0 < aadLen then 1 + (aadLen - ccmB1Len aadLen + 15) / 16 else 0

/-- And with its first block one more. -/
theorem aesCcmAad_issued (s : SdpState (Nat × τ)) (aad : Buf) (aadLen : Nat) :
    Issued sta (ccmAadPackets aadLen) s (aesCcmAad (hw.withSta sta) s aad aadLen) := by
  unfold aesCcmAad ccmAadPackets
  split
  · simp only [aesCcmFormatB1_len]
    exact (aesCcmMac_issued hw sta _).of_modify.append (aesCcmAadLoop_issued hw sta aad _ _ _)
  · exact Issued.nil sta s

/-- Each block of the payload takes two packets, one for the tag and one for the stream. -/
theorem ccmPayloadStep_issued (op : SdpAesOp) (s : SdpState (Nat × τ)) (src dst : Ptr SdpObj)
    {n : Nat} (hpos : 0 < n) (hle : n ≤ 16) :
    Issued sta 2 s (ccmPayloadStep (hw.withSta sta) op s src dst n) := by
  cases op with
  | encrypt =>
    exact (aesCcmMacBlock_issued hw sta s _ _ n).append
      (sdpAesCryptCtr_issued hw sta _ _ src dst hpos hle)
  | decrypt =>
    exact (sdpAesCryptCtr_issued hw sta s _ src dst hpos hle).append
      (aesCcmMacBlock_issued hw sta _ _ _ n)

/-- So the payload takes two for each of its blocks. -/
theorem aesCcmPayloadLoop_issued (op : SdpAesOp) : ∀ (n : Nat) (s : SdpState (Nat × τ))
    (src dst : Ptr SdpObj), Issued sta (2 * ((n + 15) / 16)) s
      (aesCcmPayloadLoop (hw.withSta sta) op s src dst n) := by
  intro n
  induction n using Nat.strongRecOn with
  | ind n ih =>
    intro s src dst
    rcases Nat.eq_zero_or_pos n with rfl | hpos
    · rw [aesCcmPayloadLoop_zero]
      exact Issued.nil sta s
    · rw [aesCcmPayloadLoop_pos _ _ _ _ _ hpos]
      have hstep := ccmPayloadStep_issued hw sta op s src dst (n := min n 16) (by omega) (by omega)
      have hrest := ih (n - min n 16) (by omega)
        (ccmPayloadStep (hw.withSta sta) op s src dst (min n 16)) (src.add (min n 16))
        (dst.add (min n 16))
      have hsum : 2 * ((n + 15) / 16) = 2 + 2 * ((n - min n 16 + 15) / 16) := by omega
      rw [hsum]
      exact hstep.append hrest

/-- The packets an accepted call starts: `Y0`, the associated data, two for
each payload block, the tag mask. -/
def CcmArgs.packets (c : CcmArgs) : Nat :=
  1 + ccmAadPackets c.aadLen + 2 * ((c.inputLen + 15) / 16) + 1

/-- An accepted call starts all its packets, whatever becomes of them. -/
theorem aesCcmAuthCrypt_issued (op : SdpAesOp) (s : SdpState (Nat × τ)) {c : CcmArgs} (tag : Buf)
    (h : c.rejected = false) :
    Issued sta c.packets s (aesCcmAuthCrypt (hw.withSta sta) op s c tag).state := by
  rw [aesCcmAuthCrypt_accepted _ _ _ _ h]
  have hheader : Issued sta (1 + ccmAadPackets c.aadLen) s (ccmHeader (hw.withSta sta) s c) :=
    ((runPacket_issued hw sta _ .encrypt false _ _ _).of_modify.append
      (aesCcmAad_issued hw sta _ c.aad c.aadLen)).modify _ _
  have hpay := hheader.append (aesCcmPayloadLoop_issued hw sta op c.inputLen _ c.input c.output)
  refine hpay.append ?_
  have hmask := sdpAesCryptCtr_issued hw sta
    ((aesCcmPayloadLoop (hw.withSta sta) op (ccmHeader (hw.withSta sta) s c) c.input c.output
      c.inputLen).modify .buf2 fun b => aesCcmFormatCtr0 b c.iv c.ivLen)
    ⟨.buf2, 0⟩ ⟨.buf1, 0⟩ ⟨.buf0, 0⟩ (by decide : 0 < 16) (Nat.le_refl 16)
  exact ((hmask.of_modify.modify .buf0 _).modify .buf1 _).modify .buf2 _

end Pattern

/-! ## The contract -/

/-- The statuses of the packets a call started. -/
def startedBy (s s' : SdpState (Nat × τ)) : List HpmStat := s'.issued.drop s.issued.length

/-- The statuses of the packets that were started, in order. -/
theorem Issued.startedBy {sta : Nat → BitVec 32} {n : Nat} {s s' : SdpState (Nat × τ)}
    (h : Issued sta n s s') :
    startedBy s s' = (List.range n).map fun k => sdpWaitDone (sta (s.hw.1 + k)) := by
  rw [Sdp.startedBy, h.log, List.drop_left]

/-- No call hides a failed operation, and no tag is accepted that does not match. -/
structure CcmReports (hw : SdpHw (Nat × τ)) (c : CcmArgs) (s : SdpState (Nat × τ)) : Prop where
  generate : ∀ tag : Buf,
    (∃ st ∈ startedBy s (sdpAesCcmGenerateEncrypt hw s c tag).state, st ≠ .success) →
      (sdpAesCcmGenerateEncrypt hw s c tag).status ≠ .success
  verify : ∀ given : Buf,
    (∃ st ∈ startedBy s (sdpAesCcmDecryptVerify hw s c given).2, st ≠ .success) →
      (sdpAesCcmDecryptVerify hw s c given).1 ≠ .success
  verified : ∀ given : Buf, (sdpAesCcmDecryptVerify hw s c given).1 = .success →
    ∀ i < c.tagLen, (aesCcmAuthCrypt hw .decrypt s c fun _ => 0).tag i = given i

/-- A call that is refused starts none. -/
theorem aesCcmAuthCrypt_rejected {σ : Type} (hw : SdpHw σ) (op : SdpAesOp) (s : SdpState σ)
    {c : CcmArgs} (tag : Buf) (h : c.rejected = true) :
    aesCcmAuthCrypt hw op s c tag = ⟨.invalidArgument, s, tag⟩ := by
  unfold aesCcmAuthCrypt
  exact if_pos h

/-- A call that is refused starts none. -/
theorem sdpAesCcmDecryptVerify_rejected {σ : Type} (hw : SdpHw σ) (s : SdpState σ) {c : CcmArgs}
    (given : Buf) (h : c.rejected = true) :
    sdpAesCcmDecryptVerify hw s c given = (.invalidArgument, s) := by
  unfold sdpAesCcmDecryptVerify
  simp [aesCcmAuthCrypt_rejected hw .decrypt s _ h]

/-- The calls report every failure exactly when the arguments are rejected or none of the packets
they start fails.

The status at the end is `status_success` whatever the packets returned, so one packet that fails
is enough for a wrong report.  Which packets a call starts depends on its lengths alone: they are
numbered from the one the engine is at, and the condition is on those numbers only. -/
theorem ccmReports_iff (hw : SdpHw τ) (sta : Nat → BitVec 32) (c : CcmArgs)
    (s : SdpState (Nat × τ)) :
    CcmReports (hw.withSta sta) c s ↔
      c.rejected = true ∨ ∀ k < c.packets, sdpWaitDone (sta (s.hw.1 + k)) = .success := by
  cases hrej : c.rejected with
  | true =>
    refine iff_of_true ⟨fun tag h => ?_, fun given h => ?_, fun given h => ?_⟩ (Or.inl rfl)
    · rw [sdpAesCcmGenerateEncrypt, aesCcmAuthCrypt_rejected _ _ _ _ hrej]
      exact fun hc => HpmStat.noConfusion hc
    · rw [sdpAesCcmDecryptVerify_rejected _ _ _ hrej]
      exact fun hc => HpmStat.noConfusion hc
    · rw [sdpAesCcmDecryptVerify_rejected _ _ _ hrej] at h
      exact HpmStat.noConfusion h
  | false =>
    have hgen := fun tag => (aesCcmAuthCrypt_issued hw sta .encrypt s tag hrej).startedBy
    have hdec := fun tag => (aesCcmAuthCrypt_issued hw sta .decrypt s tag hrej).startedBy
    have hok : ∀ op tag, (aesCcmAuthCrypt (hw.withSta sta) op s c tag).status = .success := by
      intro op tag
      rw [aesCcmAuthCrypt_accepted _ _ _ _ hrej]
      rfl
    have hver := fun given =>
      sdpAesCcmDecryptVerify_eq (hw.withSta sta) s c given (hok .decrypt fun _ => 0)
    constructor
    · intro h
      refine Or.inr fun k hk => ?_
      by_contra hne
      refine h.generate (fun _ => 0) ⟨_, ?_, hne⟩ (hok .encrypt _)
      rw [sdpAesCcmGenerateEncrypt, hgen]
      exact List.mem_map_of_mem (List.mem_range.mpr hk)
    · rintro (h | h)
      · exact Bool.noConfusion h
      · have hall : ∀ st ∈ (List.range c.packets).map fun k => sdpWaitDone (sta (s.hw.1 + k)),
            st = .success := by
          intro st hst
          obtain ⟨k, hk, rfl⟩ := List.mem_map.mp hst
          exact h k (List.mem_range.mp hk)
        refine ⟨fun tag hex => ?_, fun given hex => ?_, fun given hs i hi => ?_⟩
        · obtain ⟨st, hst, hne⟩ := hex
          rw [sdpAesCcmGenerateEncrypt, hgen] at hst
          exact absurd (hall st hst) hne
        · obtain ⟨st, hst, hne⟩ := hex
          rw [hver, hdec] at hst
          exact absurd (hall st hst) hne
        · rw [hver] at hs
          by_contra hne
          rw [if_neg fun hc => hne (hc i hi)] at hs
          exact HpmStat.noConfusion hs

/-! ## A dead engine -/

/-- The engine that leaves zeros and reports a source error on every packet. -/
def deadSta : Nat → BitVec 32 := fun _ => SDP_STA_PKTCNT0_MASK ||| SDP_STA_ERRSRC_MASK

def deadHw : SdpHw Unit where
  exec _ _ _ _ := { state := (), sta := 0, dst := fun _ => 0 }

/-- No data at all, the shortest nonce and the shortest tag. -/
def deadArgs : CcmArgs where
  inputLen := 0
  iv := fun _ => 0
  ivLen := 7
  aad := fun _ => 0
  aadLen := 0
  input := ⟨.user, 0⟩
  output := ⟨.user, 0⟩
  tagLen := 4

def deadState : SdpState (Nat × Unit) where
  hw := (0, ())
  keyIdx := 0
  keyBits := .keybits128
  mem _ _ := 0
  issued := []

/-- Both packets of the call fail and it returns `status_success`. -/
theorem ccm_failure_unreported : ¬ CcmReports (deadHw.withSta deadSta) deadArgs deadState := by
  intro h
  have hrej : deadArgs.rejected = false := rfl
  have hstarted := (aesCcmAuthCrypt_issued deadHw deadSta .encrypt deadState (fun _ => 0)
    hrej).startedBy
  refine h.generate (fun _ => 0) ⟨.sdpErrorSrc, ?_, by decide⟩ ?_
  · rw [sdpAesCcmGenerateEncrypt, hstarted]
    decide
  · rw [sdpAesCcmGenerateEncrypt, aesCcmAuthCrypt_accepted _ _ _ _ hrej]
    rfl

end HpmSdk.Sdp
