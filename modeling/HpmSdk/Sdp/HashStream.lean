import HpmSdk.Sdp.Hash

set_option autoImplicit false

/-!
# SDP: a hash does not depend on how the message is cut

A block hash takes whole blocks until its last packet.  `HashPackets` says what
sequence of packets feeds it one message; an engine is trusted only on such
sequences (`SdpHashEngine`).  Every way of cutting a message into update calls
produces one, so the digest is the engine's digest of the message.
-/

namespace HpmSdk.Sdp

open HpmSdk.Foundation

/-! ## Packet sequences -/

/-- The packets of a message whose last packet is still to come. -/
structure HashPrefix (alg : SdpHashAlg) (ps : List SdpHashPacket) : Prop where
  alg : ∀ p ∈ ps, p.alg = alg
  first : ∀ p ∈ ps.head?, p.hashInit = true
  rest : ∀ p ∈ ps.tail, p.hashInit = false
  unfinished : ∀ p ∈ ps, p.hashFinish = false
  blocks : ∀ p ∈ ps, 0 < p.data.length ∧ 64 ∣ p.data.length

/-- The packets that feed one message: whole blocks under `HASHINIT` on the
first alone, then whatever is left under `HASHFINISH`. -/
structure HashPackets (alg : SdpHashAlg) (msg : List UInt8) (ps : List SdpHashPacket) : Prop where
  data : ps.flatMap (·.data) = msg
  alg : ∀ p ∈ ps, p.alg = alg
  first : ∃ p ∈ ps.head?, p.hashInit = true
  rest : ∀ p ∈ ps.tail, p.hashInit = false
  unfinished : ∀ p ∈ ps.dropLast, p.hashFinish = false
  last : ∃ p ∈ ps.getLast?, p.hashFinish = true
  blocks : ∀ p ∈ ps.dropLast, 0 < p.data.length ∧ 64 ∣ p.data.length

/-- Before the first packet there is nothing to say. -/
theorem HashPrefix.nil (alg : SdpHashAlg) : HashPrefix alg [] where
  alg _ h := absurd h List.not_mem_nil
  first _ h := absurd h (by simp)
  rest _ h := absurd h List.not_mem_nil
  unfinished _ h := absurd h List.not_mem_nil
  blocks _ h := absurd h List.not_mem_nil

/-- Appending a packet keeps `HASHINIT` on the first alone. -/
theorem hashInit_snoc {ps : List SdpHashPacket} {q : SdpHashPacket}
    (hfirst : ∀ p ∈ ps.head?, p.hashInit = true) (hrest : ∀ p ∈ ps.tail, p.hashInit = false)
    (hq : q.hashInit = ps.isEmpty) :
    (∃ p ∈ (ps ++ [q]).head?, p.hashInit = true) ∧ ∀ p ∈ (ps ++ [q]).tail, p.hashInit = false := by
  cases ps with
  | nil =>
    refine ⟨⟨q, rfl, hq⟩, fun p hp => ?_⟩
    simp at hp
  | cons a ps =>
    refine ⟨⟨a, rfl, hfirst a rfl⟩, fun p hp => ?_⟩
    rw [List.cons_append, List.tail_cons, List.mem_append, List.mem_singleton] at hp
    rcases hp with hp | rfl
    · exact hrest p hp
    · exact hq

/-- Another packet of whole blocks. -/
theorem HashPrefix.snoc {alg : SdpHashAlg} {ps : List SdpHashPacket} {d : List UInt8}
    (h : HashPrefix alg ps) (hpos : 0 < d.length) (h64 : 64 ∣ d.length) :
    HashPrefix alg (ps ++ [⟨alg, ps.isEmpty, false, d⟩]) := by
  obtain ⟨⟨p, hp, hpi⟩, hrest⟩ :=
    hashInit_snoc (q := ⟨alg, ps.isEmpty, false, d⟩) h.first h.rest rfl
  refine ⟨?_, ?_, hrest, ?_, ?_⟩
  · intro p hp
    rcases List.mem_append.mp hp with hp | hp
    · exact h.alg p hp
    · rw [List.mem_singleton.mp hp]
  · intro p' hp'
    rw [Option.mem_unique hp' hp]
    exact hpi
  · intro p hp
    rcases List.mem_append.mp hp with hp | hp
    · exact h.unfinished p hp
    · rw [List.mem_singleton.mp hp]
  · intro p hp
    rcases List.mem_append.mp hp with hp | hp
    · exact h.blocks p hp
    · rw [List.mem_singleton.mp hp]
      exact ⟨hpos, h64⟩

/-- The last packet, of any length. -/
theorem HashPrefix.finish {alg : SdpHashAlg} {ps : List SdpHashPacket} (h : HashPrefix alg ps)
    (d : List UInt8) :
    HashPackets alg (ps.flatMap (·.data) ++ d) (ps ++ [⟨alg, ps.isEmpty, true, d⟩]) := by
  obtain ⟨hfirst, hrest⟩ :=
    hashInit_snoc (q := ⟨alg, ps.isEmpty, true, d⟩) h.first h.rest rfl
  refine ⟨?_, ?_, hfirst, hrest, ?_, ?_, ?_⟩
  · rw [List.flatMap_append, List.flatMap_singleton]
  · intro p hp
    rcases List.mem_append.mp hp with hp | hp
    · exact h.alg p hp
    · rw [List.mem_singleton.mp hp]
  · rw [List.dropLast_concat]
    exact h.unfinished
  · exact ⟨_, List.getLast?_concat, rfl⟩
  · rw [List.dropLast_concat]
    exact h.blocks

/-! ## Engines that hash -/

/-- The state of an engine after a sequence of packets. -/
def SdpHashHw.run {σ : Type} (hw : SdpHashHw σ) (st : σ) (ps : List SdpHashPacket) : σ :=
  ps.foldl (fun st p => (hw.exec st p).1) st

/-- An engine whose packets succeed and which computes the digests `H`: after
the packets of a message, from whatever state, `HASWRD` holds its digest. -/
structure SdpHashEngine (σ : Type) extends SdpHashHw σ where
  H : SdpHashAlg → List UInt8 → Nat → UInt32
  succeeds : ∀ st p, sdpWaitDone (exec st p).2 = .success
  digest : ∀ st alg msg ps, HashPackets alg msg ps → ∀ i < alg.copyBytes / 4,
    haswrd (toSdpHashHw.run st ps) i = H alg msg i

variable {σ : Type}

/-! ## The invariant -/

/-- Since the engine was in state `st₀` and the log was `old`, the packets `ps`
have been started, and the flags in the context say what the next one must be. -/
structure HashCore (hw : SdpHashHw σ) (st₀ : σ) (old : List SdpHashPacket) (alg : SdpHashAlg)
    (ps : List SdpHashPacket) (s : SdpHashState σ) : Prop where
  packets : s.packets = old ++ ps
  hw : s.hw = hw.run st₀ ps
  wf : HashPrefix alg ps
  alg : s.ctx.alg = alg
  noFinish : s.ctx.hashFinish = false
  fresh : s.ctx.state = .hashInit → ps = []
  ready : s.ctx.state = .hashUpdate → s.ctx.hashInit = ps.isEmpty

/-- The message `m` has been taken: the packets and the carry buffer make it up. -/
structure HashInv (hw : SdpHashHw σ) (st₀ : σ) (old : List SdpHashPacket) (alg : SdpHashAlg)
    (m : List UInt8) (s : SdpHashState σ) : Prop where
  blk : s.ctx.blkSize ≤ 64
  taken : ∃ ps, HashCore hw st₀ old alg ps s ∧
    ps.flatMap (·.data) ++ s.ctx.block.toList 0 s.ctx.blkSize = m

/-- The core does not look at the carry buffer. -/
theorem HashCore.setCarry {hw : SdpHashHw σ} {st₀ : σ} {old ps : List SdpHashPacket}
    {alg : SdpHashAlg} {s : SdpHashState σ} (h : HashCore hw st₀ old alg ps s) (b : Buf) (n : Nat) :
    HashCore hw st₀ old alg ps (s.setCarry b n) :=
  ⟨h.packets, h.hw, h.wf, h.alg, h.noFinish, h.fresh, h.ready⟩

/-- Counting the bytes sends no packet. -/
theorem HashCore.addMsgSize {hw : SdpHashHw σ} {st₀ : σ} {old ps : List SdpHashPacket}
    {alg : SdpHashAlg} {s : SdpHashState σ} (h : HashCore hw st₀ old alg ps s) (n : Nat) :
    HashCore hw st₀ old alg ps (s.addMsgSize n) :=
  ⟨h.packets, h.hw, h.wf, h.alg, h.noFinish, h.fresh, h.ready⟩

/-- Before its first packet the engine is set up, once. -/
theorem HashCore.engineOpen {hw : SdpHashHw σ} {st₀ : σ} {old ps : List SdpHashPacket}
    {alg : SdpHashAlg} {s : SdpHashState σ} (h : HashCore hw st₀ old alg ps s) :
    HashCore hw st₀ old alg ps (sdpHashEngineOpen s) ∧
      (sdpHashEngineOpen s).ctx.state = .hashUpdate ∧
      (sdpHashEngineOpen s).ctx.block = s.ctx.block ∧
      (sdpHashEngineOpen s).ctx.blkSize = s.ctx.blkSize := by
  unfold sdpHashEngineOpen
  cases hstate : s.ctx.state with
  | hashInit =>
    have hps := h.fresh hstate
    rw [if_pos (by decide)]
    exact ⟨⟨h.packets, h.hw, h.wf, h.alg, rfl, fun _ => hps, fun _ => by rw [hps]; rfl⟩,
      rfl, rfl, rfl⟩
  | hashUpdate =>
    rw [if_neg (by decide)]
    exact ⟨h, hstate, rfl, rfl⟩

section Engine

variable (eng : SdpHashEngine σ)

/-- Whole blocks handed to the engine. -/
theorem HashCore.internalUpdate {st₀ : σ} {old ps : List SdpHashPacket} {alg : SdpHashAlg}
    {s : SdpHashState σ} (h : HashCore eng.toSdpHashHw st₀ old alg ps s)
    (hstate : s.ctx.state = .hashUpdate) (msg : Buf) {n : Nat} (hpos : 0 < n) (h64 : 64 ∣ n) :
    (sdpHashInternalUpdate eng.toSdpHashHw s msg n).1 = .success ∧
      HashCore eng.toSdpHashHw st₀ old alg
        (ps ++ [⟨alg, ps.isEmpty, false, msg.toList 0 n⟩])
        (sdpHashInternalUpdate eng.toSdpHashHw s msg n).2 := by
  have hpacket : (⟨s.ctx.alg, s.ctx.hashInit, s.ctx.hashFinish, msg.toList 0 n⟩ : SdpHashPacket) =
      ⟨alg, ps.isEmpty, false, msg.toList 0 n⟩ := by
    rw [h.alg, h.ready hstate, h.noFinish]
  refine ⟨eng.succeeds _ _, ?_, ?_, ?_, h.alg, rfl, fun hc => ?_, fun _ => ?_⟩
  · rw [sdpHashInternalUpdate, hpacket, h.packets, List.append_assoc]
  · rw [sdpHashInternalUpdate, hpacket, h.hw, SdpHashHw.run, SdpHashHw.run, List.foldl_append]
    rfl
  · exact h.wf.snoc (by rwa [Buf.length_toList]) (by rwa [Buf.length_toList])
  · exact absurd (hstate.symm.trans hc) (by decide)
  · simp [sdpHashInternalUpdate]

/-- Everything that is left after the carry buffer has been emptied. -/
theorem HashCore.processBlocks {st₀ : σ} {old ps : List SdpHashPacket} {alg : SdpHashAlg}
    {s : SdpHashState σ} (h : HashCore eng.toSdpHashHw st₀ old alg ps s)
    (hstate : s.ctx.state = .hashUpdate) (msg : Buf) (n : Nat) {status : HpmStat}
    (hst : status = .success ∨ 64 ≤ n) :
    (sdpHashProcessBlocks eng.toSdpHashHw s msg n status).1 = .success ∧
      HashInv eng.toSdpHashHw st₀ old alg (ps.flatMap (·.data) ++ msg.toList 0 n)
        (sdpHashProcessBlocks eng.toSdpHashHw s msg n status).2 := by
  have hfull : (n >>> 6) <<< 6 = n / 64 * 64 := by
    rw [Nat.shiftRight_eq_div_pow, Nat.shiftLeft_eq]
  unfold sdpHashProcessBlocks
  simp only [hfull]
  rcases Nat.lt_or_ge n 64 with hlt | hge
  · -- no full block: everything goes to the carry buffer
    rw [if_neg (by omega)]
    refine ⟨hst.resolve_right (by omega), Nat.le_of_lt hlt, ps, h.setCarry _ _, ?_⟩
    have hcopy := Buf.toList_copy s.ctx.block msg 0 n
    rw [Nat.zero_add, Buf.toList_zero, List.nil_append] at hcopy
    simp only [SdpHashState.setCarry_block, SdpHashState.setCarry_blkSize, hcopy]
  · obtain ⟨hok, hcore⟩ := h.internalUpdate eng hstate msg (n := n / 64 * 64) (by omega)
      (Nat.dvd_mul_left 64 (n / 64))
    rw [if_pos (by omega)]
    simp only [hok, ne_eq, not_true_eq_false, if_false]
    refine ⟨trivial, by rw [SdpHashState.setCarry_blkSize]; omega, _, hcore.setCarry _ _, ?_⟩
    set b := (sdpHashInternalUpdate eng.toSdpHashHw s msg (n / 64 * 64)).2.ctx.block with hb
    have hcopy := Buf.toList_copy b (msg.drop (n / 64 * 64)) 0 (n - n / 64 * 64)
    rw [Nat.zero_add, Buf.toList_zero, List.nil_append, Buf.toList_drop] at hcopy
    simp only [SdpHashState.setCarry_block, SdpHashState.setCarry_blkSize, hcopy,
      List.flatMap_append, List.flatMap_singleton, List.append_assoc]
    congr 1
    have hn : n = n / 64 * 64 + (n - n / 64 * 64) := by omega
    conv_rhs => rw [hn, Buf.toList_add]
    rw [Nat.zero_add, Nat.add_zero]

/-- A message that does not fit the carry buffer. -/
theorem HashCore.processMessage {st₀ : σ} {old ps : List SdpHashPacket} {alg : SdpHashAlg}
    {s : SdpHashState σ} (h : HashCore eng.toSdpHashHw st₀ old alg ps s)
    (hstate : s.ctx.state = .hashUpdate) (hblk : s.ctx.blkSize ≤ 64) (msg : Buf) {n : Nat}
    (hn : 64 < s.ctx.blkSize + n) (uninit : HpmStat) :
    (sdpHashProcessMessage eng.toSdpHashHw s msg n uninit).1 = .success ∧
      HashInv eng.toSdpHashHw st₀ old alg
        (ps.flatMap (·.data) ++ (s.ctx.block.toList 0 s.ctx.blkSize ++ msg.toList 0 n))
        (sdpHashProcessMessage eng.toSdpHashHw s msg n uninit).2 := by
  unfold sdpHashProcessMessage
  rcases Nat.eq_zero_or_pos s.ctx.blkSize with h0 | hpos
  · rw [if_neg (by omega), h0, Buf.toList_zero, List.nil_append]
    exact h.processBlocks eng hstate msg n (Or.inr (by omega))
  · rw [if_pos hpos]
    have h64 : HASH_BLOCK_SIZE = 64 := rfl
    simp only [SdpHashState.setCarry_block]
    set k := HASH_BLOCK_SIZE - s.ctx.blkSize with hk
    set b := s.ctx.block.copy s.ctx.blkSize msg k with hb
    have hcarry :
        b.toList 0 HASH_BLOCK_SIZE = s.ctx.block.toList 0 s.ctx.blkSize ++ msg.toList 0 k := by
      have hcopy := Buf.toList_copy s.ctx.block msg s.ctx.blkSize k
      rwa [show s.ctx.blkSize + k = HASH_BLOCK_SIZE by omega] at hcopy
    obtain ⟨hok, hcore⟩ := (h.setCarry b s.ctx.blkSize).internalUpdate eng hstate b
      (by decide : 0 < HASH_BLOCK_SIZE) (Nat.dvd_refl 64)
    simp only [hok, ne_eq, not_true_eq_false, if_false]
    have hrest := hcore.processBlocks eng hstate (msg.drop k) (n - k) (Or.inl rfl)
    have hsplit : ps.flatMap (·.data) ++ (s.ctx.block.toList 0 s.ctx.blkSize ++ msg.toList 0 n) =
        (ps ++ [(⟨alg, ps.isEmpty, false, b.toList 0 HASH_BLOCK_SIZE⟩ : SdpHashPacket)]).flatMap
          (·.data) ++
          (msg.drop k).toList 0 (n - k) := by
      have hmsg : msg.toList 0 n = msg.toList 0 k ++ msg.toList k (n - k) := by
        have hadd := Buf.toList_add msg 0 k (n - k)
        rwa [show k + (n - k) = n by omega, Nat.zero_add] at hadd
      rw [List.flatMap_append, List.flatMap_singleton, hcarry, Buf.toList_drop, Nat.add_zero, hmsg]
      simp only [List.append_assoc]
    rw [hsplit]
    exact hrest

/-- One update call takes its data. -/
theorem HashInv.update {st₀ : σ} {old : List SdpHashPacket} {alg : SdpHashAlg} {m : List UInt8}
    {s : SdpHashState σ} (h : HashInv eng.toSdpHashHw st₀ old alg m s) (data : List UInt8)
    (hlen : m.length + data.length < 2 ^ 32) (uninit : HpmStat) :
    (sdpHashUpdate eng.toSdpHashHw s (Buf.ofList data) data.length uninit).1 = .success ∧
      HashInv eng.toSdpHashHw st₀ old alg (m ++ data)
        (sdpHashUpdate eng.toSdpHashHw s (Buf.ofList data) data.length uninit).2 := by
  obtain ⟨hblk, ps, hcore, hm⟩ := h
  unfold sdpHashUpdate
  split
  · -- an empty update changes nothing
    rename_i h0
    rw [List.length_eq_zero_iff.mp h0, List.append_nil]
    exact ⟨rfl, hblk, ps, hcore, hm⟩
  · rename_i hne
    have hle : s.ctx.blkSize ≤ m.length := by
      have := congrArg List.length hm
      rw [List.length_append, Buf.length_toList] at this
      omega
    have hmod : (s.ctx.blkSize + data.length) % 2 ^ 32 = s.ctx.blkSize + data.length :=
      Nat.mod_eq_of_lt (by omega)
    simp only [SdpHashState.addMsgSize_blkSize, SdpHashState.addMsgSize_block, hmod]
    have h64 : HASH_BLOCK_SIZE = 64 := rfl
    split
    · -- everything fits the carry buffer
      rename_i hfit
      refine ⟨rfl, hfit, ps, (hcore.addMsgSize _).setCarry _ _, ?_⟩
      simp only [SdpHashState.setCarry_block, SdpHashState.setCarry_blkSize, Buf.toList_copy,
        Buf.toList_ofList, ← List.append_assoc, hm]
    · rename_i hbig
      obtain ⟨hopen, hstate, hblock, hsize⟩ := (hcore.addMsgSize data.length).engineOpen
      have hmsg := hopen.processMessage eng hstate (by rw [hsize]; exact hblk) (Buf.ofList data)
        (n := data.length) (by rw [hsize, SdpHashState.addMsgSize_blkSize]; omega) uninit
      rw [hblock, hsize, SdpHashState.addMsgSize_block, SdpHashState.addMsgSize_blkSize,
        Buf.toList_ofList, ← List.append_assoc, hm] at hmsg
      exact hmsg

/-- A sequence of update calls takes the pieces one after another. -/
theorem HashInv.updates {st₀ : σ} {old : List SdpHashPacket} {alg : SdpHashAlg}
    (uninit : HpmStat) : ∀ (pieces : List (List UInt8)) {m : List UInt8} {s : SdpHashState σ},
    HashInv eng.toSdpHashHw st₀ old alg m s → m.length + pieces.flatten.length < 2 ^ 32 →
    (∀ st ∈ (sdpHashUpdates eng.toSdpHashHw uninit s pieces).1, st = .success) ∧
      HashInv eng.toSdpHashHw st₀ old alg (m ++ pieces.flatten)
        (sdpHashUpdates eng.toSdpHashHw uninit s pieces).2 := by
  intro pieces
  induction pieces with
  | nil =>
    intro m s h _
    rw [List.flatten_nil, List.append_nil]
    exact ⟨fun st hst => absurd hst List.not_mem_nil, h⟩
  | cons piece pieces ih =>
    intro m s h hlen
    rw [List.flatten_cons, List.length_append] at hlen
    obtain ⟨hok, hinv⟩ := h.update eng piece (by omega) uninit
    obtain ⟨hoks, hinvs⟩ := ih hinv (by rw [List.length_append]; omega)
    rw [List.append_assoc] at hinvs
    refine ⟨fun st hst => ?_, hinvs⟩
    rcases List.mem_cons.mp hst with rfl | hst
    · exact hok
    · exact hoks st hst

/-- After `sdp_hash_init` nothing has been taken. -/
theorem HashInv.init (s : SdpHashState σ) (alg : SdpHashAlg) (hsup : s.hasdis = false) :
    (sdpHashInit s alg).1 = .success ∧ (sdpHashInit s alg).2.packets = s.packets ∧
      HashInv eng.toSdpHashHw s.hw s.packets alg [] (sdpHashInit s alg).2 := by
  unfold sdpHashInit
  rw [hsup]
  refine ⟨rfl, rfl, Nat.zero_le 64, [], ⟨(List.append_nil _).symm, rfl, HashPrefix.nil alg, rfl,
    rfl, fun _ => rfl, fun h => ?_⟩, rfl⟩
  cases h

/-- `sdp_hash_finish` sends the carry buffer as the last packet and reads the
digest of everything taken. -/
theorem HashInv.finish {st₀ : σ} {old : List SdpHashPacket} {alg : SdpHashAlg} {m : List UInt8}
    {s : SdpHashState σ} (h : HashInv eng.toSdpHashHw st₀ old alg m s) (digest : Buf) :
    (sdpHashFinish eng.toSdpHashHw s digest).1 = .success ∧
      (∃ ps, (sdpHashFinish eng.toSdpHashHw s digest).2.1.packets = old ++ ps ∧
        HashPackets alg m ps) ∧
      (sdpHashFinish eng.toSdpHashHw s digest).2.2.toList 0 alg.copyBytes =
        (wordBytes (eng.H alg m)).toList 0 alg.copyBytes := by
  obtain ⟨-, ps, hcore, hm⟩ := h
  set s₁ := if s.ctx.state = .hashInit then sdpHashInternalEngineInit s else s with hs₁
  have hcarry : s₁.ctx.block = s.ctx.block ∧ s₁.ctx.blkSize = s.ctx.blkSize ∧
      s₁.ctx.alg = alg ∧ s₁.ctx.hashInit = ps.isEmpty ∧ s₁.packets = old ++ ps ∧
      s₁.hw = eng.run st₀ ps := by
    rw [hs₁]
    cases hstate : s.ctx.state with
    | hashInit =>
      rw [if_pos rfl]
      refine ⟨rfl, rfl, hcore.alg, ?_, hcore.packets, hcore.hw⟩
      rw [hcore.fresh hstate]
      rfl
    | hashUpdate =>
      rw [if_neg (by decide)]
      exact ⟨rfl, rfl, hcore.alg, hcore.ready hstate, hcore.packets, hcore.hw⟩
  obtain ⟨hblock, hsize, halg, hinit, hpackets, hhw⟩ := hcarry
  set q : SdpHashPacket := ⟨alg, ps.isEmpty, true, s.ctx.block.toList 0 s.ctx.blkSize⟩ with hq
  have hlast : (⟨s₁.ctx.alg, s₁.ctx.hashInit, true, s₁.ctx.block.toList 0 s₁.ctx.blkSize⟩ :
      SdpHashPacket) = q := by
    rw [hblock, hsize, halg, hinit]
  have hwf := hcore.wf.finish (s.ctx.block.toList 0 s.ctx.blkSize)
  rw [hm, ← hq] at hwf
  set r := sdpHashFinalize eng.toSdpHashHw s₁ with hr
  have hok : r.1 = .success := eng.succeeds _ _
  have hrp : r.2.packets = old ++ (ps ++ [q]) := by
    rw [hr, sdpHashFinalize, sdpHashInternalUpdate]
    simp only [hlast, hpackets, List.append_assoc]
  have hrw : r.2.hw = eng.run st₀ (ps ++ [q]) := by
    rw [hr, sdpHashFinalize, sdpHashInternalUpdate]
    simp only [hlast, hhw, SdpHashHw.run, List.foldl_append]
    rfl
  have hra : r.2.ctx.alg = alg := halg
  unfold sdpHashFinish
  simp only [← hs₁, ← hr, hok, hra, ne_eq, not_true_eq_false, if_false]
  refine ⟨trivial, ⟨_, hrp, hwf⟩, ?_⟩
  refine Buf.toList_congr fun i hi => ?_
  rw [Nat.zero_add, Buf.copy, if_pos ⟨Nat.zero_le i, by omega⟩, Nat.sub_zero]
  -- every byte of the digest lies in a word that was read
  have hword : i / 4 < alg.copyBytes / 4 := by
    cases alg <;> simp only [SdpHashAlg.copyBytes] at hi ⊢ <;> omega
  unfold wordBytes copyHaswrd
  rw [if_pos hword, hrw, eng.digest st₀ alg m _ hwf _ hword]

/-! ## The contract -/

/-- All the calls for one message, cut into `pieces`. -/
structure HashStream (σ : Type) where
  initStatus : HpmStat
  updateStatuses : List HpmStat
  finishStatus : HpmStat
  state : SdpHashState σ
  digest : Buf

/-- `sdp_hash_init`, an update for every piece, `sdp_hash_finish`. -/
def sdpHashStream (hw : SdpHashHw σ) (uninit : HpmStat) (s : SdpHashState σ) (alg : SdpHashAlg)
    (pieces : List (List UInt8)) (digest : Buf) : HashStream σ :=
  let r₀ := sdpHashInit s alg
  let r₁ := sdpHashUpdates hw uninit r₀.2 pieces
  let r₂ := sdpHashFinish hw r₁.2 digest
  ⟨r₀.1, r₁.1, r₂.1, r₂.2.1, r₂.2.2⟩

/-- What the streaming interface promises for one way of cutting a message. -/
structure HashContract (uninit : HpmStat) (s : SdpHashState σ) (alg : SdpHashAlg)
    (pieces : List (List UInt8)) (digest : Buf) : Prop where
  /-- Every call succeeds. -/
  statuses : (sdpHashStream eng.toSdpHashHw uninit s alg pieces digest).initStatus = .success ∧
    (∀ st ∈ (sdpHashStream eng.toSdpHashHw uninit s alg pieces digest).updateStatuses,
      st = .success) ∧
    (sdpHashStream eng.toSdpHashHw uninit s alg pieces digest).finishStatus = .success
  /-- The carry buffer never overflows. -/
  carry : ∀ k, (sdpHashUpdates eng.toSdpHashHw uninit (sdpHashInit s alg).2
    (pieces.take k)).2.ctx.blkSize ≤ 64
  /-- The packets are those of the message. -/
  packets : ∃ ps, (sdpHashStream eng.toSdpHashHw uninit s alg pieces digest).state.packets =
    s.packets ++ ps ∧ HashPackets alg pieces.flatten ps
  /-- The digest is that of the message. -/
  digests : (sdpHashStream eng.toSdpHashHw uninit s alg pieces digest).digest.toList 0
    alg.copyBytes = (wordBytes (eng.H alg pieces.flatten)).toList 0 alg.copyBytes
  /-- Cutting the message in another way gives the same digest. -/
  recut : ∀ pieces' : List (List UInt8), pieces'.flatten = pieces.flatten →
    (sdpHashStream eng.toSdpHashHw uninit s alg pieces' digest).digest.toList 0 alg.copyBytes =
      (sdpHashStream eng.toSdpHashHw uninit s alg pieces digest).digest.toList 0 alg.copyBytes

/-- The contract holds for every engine, message of less than `2 ^ 32` bytes and way of cutting
it, on a chip with hash support.

`HashInv` says that the packets so far and the carry buffer make up the bytes that were given, in
their order.  Every update keeps it, whatever the size of its piece, and the last packet takes
what is left in the buffer; so the packets together are the message, and the digest depends on
nothing else. -/
theorem sdpHash_stream (uninit : HpmStat) {s : SdpHashState σ} (alg : SdpHashAlg)
    {pieces : List (List UInt8)} (digest : Buf) (hsup : s.hasdis = false)
    (hlen : pieces.flatten.length < 2 ^ 32) :
    HashContract eng uninit s alg pieces digest := by
  obtain ⟨hinit, -, hinv⟩ := HashInv.init eng s alg hsup
  have htake : ∀ k, (pieces.take k).flatten.length ≤ pieces.flatten.length := by
    intro k
    conv_rhs => rw [← List.take_append_drop k pieces, List.flatten_append, List.length_append]
    exact Nat.le_add_right _ _
  have hrun : ∀ ps : List (List UInt8), ps.flatten.length < 2 ^ 32 →
      (∀ st ∈ (sdpHashUpdates eng.toSdpHashHw uninit (sdpHashInit s alg).2 ps).1, st = .success) ∧
        HashInv eng.toSdpHashHw s.hw s.packets alg ps.flatten
          (sdpHashUpdates eng.toSdpHashHw uninit (sdpHashInit s alg).2 ps).2 := by
    intro ps hps
    have h := HashInv.updates eng uninit ps hinv (by rwa [List.length_nil, Nat.zero_add])
    rwa [List.nil_append] at h
  obtain ⟨hupd, hinv'⟩ := hrun pieces hlen
  obtain ⟨hfin, hpackets, hdigest⟩ := hinv'.finish eng digest
  refine ⟨⟨hinit, hupd, hfin⟩, fun k => ?_, hpackets, hdigest, fun pieces' h => ?_⟩
  · exact (hrun (pieces.take k) (Nat.lt_of_le_of_lt (htake k) hlen)).2.blk
  · have hlen' : pieces'.flatten.length < 2 ^ 32 := by rwa [h]
    obtain ⟨-, -, hdigest'⟩ := (hrun pieces' hlen').2.finish eng digest
    rw [h] at hdigest'
    exact hdigest'.trans hdigest.symm

end Engine

/-! ## An engine that absorbs its packets -/

/-- The engine that keeps the bytes absorbed since `HASHINIT` and the digest
words written at the last `HASHFINISH`. -/
def SdpHashHw.absorbing (H : SdpHashAlg → List UInt8 → Nat → UInt32) :
    SdpHashHw (List UInt8 × (Nat → UInt32)) where
  exec st p :=
    let m := (if p.hashInit then [] else st.1) ++ p.data
    ((m, if p.hashFinish then H p.alg m else st.2), SDP_STA_PKTCNT0_MASK)
  haswrd st := st.2

/-- An engine that only takes up the data has taken up that of all packets. -/
theorem absorbing_run (H : SdpHashAlg → List UInt8 → Nat → UInt32) : ∀ (ps : List SdpHashPacket)
    (st : List UInt8 × (Nat → UInt32)), (∀ p ∈ ps, p.hashInit = false) →
    ((SdpHashHw.absorbing H).run st ps).1 = st.1 ++ ps.flatMap (·.data) := by
  intro ps
  induction ps with
  | nil =>
    intro st _
    rw [List.flatMap_nil, List.append_nil]
    rfl
  | cons p ps ih =>
    intro st h
    have hrest :=
      ih ((SdpHashHw.absorbing H).exec st p).1 fun q hq => h q (List.mem_cons_of_mem _ hq)
    have hp : ((SdpHashHw.absorbing H).exec st p).1.1 = st.1 ++ p.data := by
      simp [SdpHashHw.absorbing, h p List.mem_cons_self]
    rw [hp, List.append_assoc, ← List.flatMap_cons] at hrest
    exact hrest

/-- The absorbing engine computes `H`. -/
def SdpHashEngine.absorbing (H : SdpHashAlg → List UInt8 → Nat → UInt32) :
    SdpHashEngine (List UInt8 × (Nat → UInt32)) where
  toSdpHashHw := SdpHashHw.absorbing H
  H := H
  succeeds _ _ := sdpWaitDone_pktcnt0
  digest := by
    intro st alg msg ps h i _
    obtain ⟨q, hq, hfinish⟩ := h.last
    obtain ⟨p, hp, hinit⟩ := h.first
    obtain ⟨qs, rfl⟩ : ∃ qs, ps = qs ++ [q] := List.getLast?_eq_some_iff.mp hq
    have hlast : ((SdpHashHw.absorbing H).run st (qs ++ [q])).2 =
        H q.alg ((SdpHashHw.absorbing H).run st (qs ++ [q])).1 := by
      rw [SdpHashHw.run, List.foldl_append]
      simp [SdpHashHw.absorbing, hfinish]
    have hall : ((SdpHashHw.absorbing H).run st (qs ++ [q])).1 = msg := by
      obtain ⟨rest, hrest⟩ : ∃ rest, qs ++ [q] = p :: rest := List.head?_eq_some_iff.mp hp
      have htail := h.rest
      have hdata := h.data
      rw [hrest] at htail hdata ⊢
      have hrun := absorbing_run H rest ((SdpHashHw.absorbing H).exec st p).1 htail
      rw [← hdata, List.flatMap_cons]
      refine hrun.trans ?_
      simp [SdpHashHw.absorbing, hinit]
    change ((SdpHashHw.absorbing H).run st (qs ++ [q])).2 i = H alg msg i
    rw [hlast, hall, h.alg q (List.mem_append_right _ (List.mem_singleton_self q))]

/-- A chip with hash support, before the first call. -/
def hashReset : SdpHashState (List UInt8 × (Nat → UInt32)) where
  hw := ([], fun _ => 0)
  hasdis := false
  ctx :=
    { block := fun _ => 0
      blkSize := 0
      fullMsgSize := 0
      runningHash := fun _ => 0
      alg := .sha1
      state := .hashInit
      hashInit := false
      hashFinish := false }
  packets := []

/-- Seventy bytes in three calls, one of them empty. -/
theorem sdpHash_stream_seventy :
    HashContract (SdpHashEngine.absorbing fun _ m i => UInt32.ofNat (m.length + i)) .fail hashReset
      .sha256 [List.replicate 64 7, [], List.replicate 6 9] (fun _ => 0) :=
  sdpHash_stream _ .fail .sha256 (fun _ => 0) rfl (by decide)

end HpmSdk.Sdp
