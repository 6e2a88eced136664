import HpmSdk.Spi.Chunks

set_option autoImplicit false

/-!
# SPI: where the words of the chunks lie

Word `k` of a message with wide words is taken from, and stored to, the place that is as many
bytes behind the start of its chunk as it should be, and each chunk starts 512 bytes behind
the one before it.

The log of a transfer has these addresses, and for two chunks the second list goes on where the
first one ends only if a word is a byte.
-/

namespace HpmSdk.Spi

/-- The address of a word that is sent. -/
def SpiEvent.sentAt : SpiEvent → Option Nat
  | .sent buff _ => some buff
  | _ => none

/-- The address of a word that is stored. -/
def SpiEvent.storedAt : SpiEvent → Option Nat
  | .stored buff _ => some buff
  | _ => none

/-- The addresses of so many words of a transfer. -/
def spiAddresses (datalen start n : Nat) : List Nat :=
  (List.range n).map fun k => start + k * spiWordBytes datalen

/-- The addresses of so many words of `hpm_spi_xfer`. -/
def spiXferAddresses (datalen start n : Nat) : List Nat :=
  (List.range n).map fun k => start + k / spiChunk * spiChunk + k % spiChunk * spiWordBytes datalen

/-! ## One transfer -/

section Loop

variable {datalen wsize rsize wstart rstart : Nat} {s s' : SpiLoop} {polls rest : List SpiPoll}

/-- The addresses that a loop has logged behind what was there before it. -/
structure SpiLoop.Logged (datalen wstart rstart : Nat) (log : List SpiEvent) (s : SpiLoop) :
    Prop where
  sent : s.io.log.filterMap SpiEvent.sentAt =
    log.filterMap SpiEvent.sentAt ++ spiAddresses datalen wstart s.wtransferred
  stored : s.io.log.filterMap SpiEvent.storedAt =
    log.filterMap SpiEvent.storedAt ++ spiAddresses datalen rstart s.rtransferred

/-- One word more, so many bytes further. -/
theorem spiAddresses_succ (start n : Nat) : spiAddresses datalen start (n + 1) =
    spiAddresses datalen start n ++ [start + n * spiWordBytes datalen] := by
  simp [spiAddresses, List.range_succ]

/-- Each pass logs the addresses of the words that it moves. -/
theorem SpiLoop.Logged.pass {log : List SpiEvent} (h : s.Logged datalen wstart rstart log)
    (hat : s.At datalen wsize rsize wstart rstart) (p : SpiPoll) :
    (s.pass datalen wsize rsize p).Logged datalen wstart rstart log := by
  have hwrite : (s.writePart datalen wsize p).Logged datalen wstart rstart log ∧
      (s.writePart datalen wsize p).rbuff = s.rbuff := by
    unfold SpiLoop.writePart
    split
    · refine ⟨⟨?_, ?_⟩, rfl⟩
      · rw [List.filterMap_append, h.sent, spiAddresses_succ, List.append_assoc, ← hat.wbuff]
        rfl
      · rw [List.filterMap_append, h.stored, List.append_assoc]
        exact congrArg _ (List.append_nil _)
    · exact ⟨h, rfl⟩
  have hcount := @SpiLoop.writePart_rtransferred datalen wsize s p
  unfold SpiLoop.pass
  generalize s.writePart datalen wsize p = t at hwrite hcount ⊢
  obtain ⟨hlogged, hrbuff⟩ := hwrite
  unfold SpiLoop.readPart
  split
  · refine ⟨?_, ?_⟩
    · rw [List.filterMap_append, hlogged.sent, List.append_assoc]
      exact congrArg _ (List.append_nil _)
    · rw [List.filterMap_append, hlogged.stored, spiAddresses_succ, List.append_assoc, hcount,
        ← hat.rbuff, ← hrbuff]
      rfl
  · exact hlogged

/-- A transfer takes and stores its words one behind the other. -/
theorem spiDataLoop_addresses {io : SpiIo}
    (h : spiDataLoop datalen wsize rsize polls ⟨io, wstart, rstart, 0, 0⟩ = some (s', rest)) :
    s'.io.log.filterMap SpiEvent.sentAt =
        io.log.filterMap SpiEvent.sentAt ++ spiAddresses datalen wstart wsize ∧
      s'.io.log.filterMap SpiEvent.storedAt =
        io.log.filterMap SpiEvent.storedAt ++ spiAddresses datalen rstart rsize := by
  have hstart : SpiLoop.At datalen wsize rsize wstart rstart ⟨io, wstart, rstart, 0, 0⟩ :=
    ⟨Nat.zero_le _, Nat.zero_le _, by simp, by simp⟩
  obtain ⟨hw, hr, -, -⟩ := hstart.ends h
  obtain ⟨⟨-, hlogged⟩, -⟩ := spiDataLoop_invariant
    (P := fun s => s.At datalen wsize rsize wstart rstart ∧
      s.Logged datalen wstart rstart io.log)
    (fun s p hs _ => ⟨hs.1.pass p, hs.2.pass hs.1 p⟩)
    ⟨hstart, by simp [spiAddresses], by simp [spiAddresses]⟩ h
  exact ⟨hw ▸ hlogged.sent, hr ▸ hlogged.stored⟩

/-- With both FIFOs ready a pass transfers a word on either side. -/
theorem SpiLoop.pass_ready (s : SpiLoop) :
    (s.pass datalen wsize rsize ⟨false, false, 0⟩).wtransferred =
        (if s.wtransferred < wsize then s.wtransferred + 1 else s.wtransferred) ∧
      (s.pass datalen wsize rsize ⟨false, false, 0⟩).rtransferred =
        if s.rtransferred < rsize then s.rtransferred + 1 else s.rtransferred := by
  have hcount := @SpiLoop.writePart_rtransferred datalen wsize s ⟨false, false, 0⟩
  have hwrite : (s.writePart datalen wsize ⟨false, false, 0⟩).wtransferred =
      if s.wtransferred < wsize then s.wtransferred + 1 else s.wtransferred := by
    unfold SpiLoop.writePart
    simp only [and_true]
    split <;> rfl
  unfold SpiLoop.pass
  rw [← hwrite, ← hcount]
  generalize s.writePart datalen wsize ⟨false, false, 0⟩ = t
  unfold SpiLoop.readPart
  simp only [and_true]
  split <;> exact ⟨rfl, rfl⟩

/-- With the FIFOs always ready a transfer goes through. -/
theorem spiDataLoop_ready (k : Nat) (s : SpiLoop)
    (hk : k = max (wsize - s.wtransferred) (rsize - s.rtransferred)) :
    ∃ s', ∀ more, spiDataLoop datalen wsize rsize
      (List.replicate k ⟨false, false, 0⟩ ++ more) s = some (s', more) := by
  induction k generalizing s with
  | zero =>
    refine ⟨s, fun more => spiDataLoop_done ?_⟩
    unfold SpiLoop.Goes
    omega
  | succ k ih =>
    have hgoes : s.Goes wsize rsize := by
      unfold SpiLoop.Goes
      omega
    obtain ⟨hw, hr⟩ := @SpiLoop.pass_ready datalen wsize rsize s
    have hleft : k = max (wsize - (s.pass datalen wsize rsize ⟨false, false, 0⟩).wtransferred)
        (rsize - (s.pass datalen wsize rsize ⟨false, false, 0⟩).rtransferred) := by
      rw [hw, hr]
      split <;> split <;> omega
    obtain ⟨s', hs'⟩ := ih _ hleft
    refine ⟨s', fun more => ?_⟩
    rw [List.replicate_succ, List.cons_append, spiDataLoop_goes hgoes]
    exact hs' more

end Loop

/-! ## All chunks -/

section Chunks

variable {msg : RtSpiMessage} {datalen : Nat} {config : SpiControlConfig} {status : SpiStat}
  {polls rest : List SpiPoll} {io io' : SpiIo} {txBuf rxBuf : Option Nat}

/-- A message that is served goes through. -/
theorem hpmSpiXferLoop_ready (h : msg.Served config) (hinto : msg.Into txBuf rxBuf) (n : Nat)
    (io : SpiIo) : ∃ polls io',
      hpmSpiXferLoop msg datalen config n txBuf rxBuf polls io = some (.success, io', []) := by
  induction n using Nat.strongRecOn generalizing txBuf rxBuf io with
  | ind n ih =>
    by_cases hn : n = 0
    · refine ⟨[], io, ?_⟩
      rw [hpmSpiXferLoop, dif_pos hn]
    · generalize ht : min spiChunk n = t
      have ht0 : t ≠ 0 := by
        unfold spiChunk at ht
        omega
      obtain ⟨s, hs⟩ := @spiDataLoop_ready datalen (msg.wsize t) (msg.rsize t)
        (max (msg.wsize t) (msg.rsize t))
        ⟨io, txBuf.getD 0, rxBuf.getD 0, 0, 0⟩ rfl
      obtain ⟨polls, io', hrun⟩ := ih (n - t) (by omega) (hinto.add t) s.io
      refine ⟨List.replicate (max (msg.wsize t) (msg.rsize t)) ⟨false, false, 0⟩ ++ polls, io', ?_⟩
      rw [hpmSpiXferLoop, dif_neg hn, ht]
      simp only [RtSpiMessage.transfer_served h hinto ht0, spiDataPhase]
      rw [hs polls]
      exact hrun

/-- The words of the first chunk, and of the others from 512 bytes on. -/
theorem spiXferAddresses_split (start : Nat) {t m : Nat} (ht : min spiChunk (t + m) = t) :
    spiXferAddresses datalen start (t + m) =
      spiAddresses datalen start t ++ spiXferAddresses datalen (start + t) m := by
  unfold spiXferAddresses spiAddresses
  rw [List.range_add, List.map_append, List.map_map]
  congr 1
  · refine List.map_congr_left fun k hk => ?_
    have hlt : k < spiChunk := by
      have := List.mem_range.mp hk
      omega
    rw [Nat.div_eq_of_lt hlt, Nat.mod_eq_of_lt hlt, Nat.zero_mul, Nat.add_zero]
  · refine List.map_congr_left fun k hk => ?_
    have hfull : t = spiChunk := by
      have := List.mem_range.mp hk
      omega
    have hpos : 0 < spiChunk := by decide
    subst hfull
    simp only [Function.comp_apply, Nat.add_div_left k hpos, Nat.add_mod_left, Nat.succ_mul]
    omega

/-- Where the words of a message are taken from and stored to. -/
theorem hpmSpiXferLoop_addresses (h : msg.Served config) (hinto : msg.Into txBuf rxBuf) (n : Nat)
    (hrun : hpmSpiXferLoop msg datalen config n txBuf rxBuf polls io = some (status, io', rest)) :
    io'.log.filterMap SpiEvent.sentAt = io.log.filterMap SpiEvent.sentAt ++
        spiXferAddresses datalen (txBuf.getD 0) (msg.wsize n) ∧
      io'.log.filterMap SpiEvent.storedAt = io.log.filterMap SpiEvent.storedAt ++
        spiXferAddresses datalen (rxBuf.getD 0) (msg.rsize n) := by
  induction n using Nat.strongRecOn generalizing txBuf rxBuf polls io with
  | ind n ih =>
    by_cases hn : n = 0
    · subst hn
      rw [hpmSpiXferLoop, dif_pos rfl] at hrun
      cases hrun
      simp [RtSpiMessage.wsize, RtSpiMessage.rsize, spiXferAddresses]
    · obtain ⟨t, m, s, rest₁, ht0, rfl, ht, hloop, hrun⟩ := hpmSpiXferLoop_cases h hn hinto hrun
      obtain ⟨hsent, hstored⟩ := spiDataLoop_addresses hloop
      obtain ⟨hsent', hstored'⟩ := ih m (by omega) (hinto.add t) hrun
      rw [hinto.tx_add] at hsent'
      rw [hinto.rx_add] at hstored'
      have hsplit : ∀ (b : Option Nat) (start : Nat),
          spiXferAddresses datalen start (if b = none then 0 else t + m) =
            spiAddresses datalen start (if b = none then 0 else t) ++
              spiXferAddresses datalen (start + if b = none then 0 else t)
                (if b = none then 0 else m) := by
        intro b start
        split
        · rfl
        · exact spiXferAddresses_split start ht
      refine ⟨?_, ?_⟩
      · rw [hsent', hsent, List.append_assoc]
        exact congrArg _ (hsplit msg.sendBuf _).symm
      · rw [hstored', hstored, List.append_assoc]
        exact congrArg _ (hsplit msg.recvBuf _).symm

/-! ## The contract -/

/-- The addresses of a long message tell whether a word is a byte. -/
theorem spiWordBytes_of_addresses {start n : Nat} (hn : spiChunk < n)
    (h : spiXferAddresses datalen start n = spiAddresses datalen start n) :
    spiWordBytes datalen = 1 := by
  have hat := List.map_inj_left.mp h spiChunk (List.mem_range.mpr hn)
  unfold spiChunk at hat
  omega

theorem filterMap_sentAt_filter (log : List SpiEvent) :
    (log.filter SpiEvent.isWord).filterMap SpiEvent.sentAt = log.filterMap SpiEvent.sentAt := by
  rw [List.filterMap_filter]
  refine List.filterMap_congr fun e _ => ?_
  cases e <;> rfl

theorem filterMap_storedAt_filter (log : List SpiEvent) :
    (log.filter SpiEvent.isWord).filterMap SpiEvent.storedAt =
      log.filterMap SpiEvent.storedAt := by
  rw [List.filterMap_filter]
  refine List.filterMap_congr fun e _ => ?_
  cases e <;> rfl

/-- Where several chunks are one message a word is a byte. -/
theorem spiWordBytes_of_matches (h : SpiXferMatches datalen msg) (hn : spiChunk < msg.length)
    (hbuffer : msg.sendBuf ≠ none ∨ msg.recvBuf ≠ none) : spiWordBytes datalen = 1 := by
  have hserved : msg.Served ⟨false, false, .noData⟩ := ⟨rfl, rfl, hbuffer⟩
  have hinto : msg.Into msg.sendBuf msg.recvBuf := ⟨Iff.rfl, Iff.rfl⟩
  obtain ⟨polls, io, hrun⟩ := @hpmSpiXferLoop_ready msg datalen _ _ _ hserved hinto msg.length
    ⟨fun _ => 0, []⟩
  obtain ⟨hsent, hstored⟩ := hpmSpiXferLoop_addresses hserved hinto msg.length hrun
  have hxfer : hpmSpiXfer datalen ⟨false, false, .noData⟩ false msg polls (fun _ => 0) =
      some (msg.length, { io with log := io.log ++ [] }) := by
    unfold hpmSpiXfer
    simp only [Bool.false_eq_true, false_and, if_false, hrun, Option.map_some, if_true]
  obtain ⟨⟨wholePolls, status, whole, rest, hwhole, -, hlog, -⟩, -⟩ := h _ _ _ _ _ _ hxfer
  rw [RtSpiMessage.transfer_served hserved hinto (by omega), spiDataPhase] at hwhole
  obtain ⟨⟨s, rest⟩, hloop, heq⟩ := Option.map_eq_some_iff.mp hwhole
  obtain ⟨-, heq⟩ := Prod.mk.inj heq
  obtain ⟨rfl, -⟩ := Prod.mk.inj heq
  obtain ⟨hsent', hstored'⟩ := spiDataLoop_addresses hloop
  rw [List.append_nil] at hlog
  rw [← hlog, filterMap_sentAt_filter, hsent] at hsent'
  rw [← hlog, filterMap_storedAt_filter, hstored] at hstored'
  rcases hbuffer with hs | hr
  · unfold RtSpiMessage.wsize at hsent'
    rw [if_neg hs] at hsent'
    exact spiWordBytes_of_addresses hn hsent'
  · unfold RtSpiMessage.rsize at hstored'
    rw [if_neg hr] at hstored'
    exact spiWordBytes_of_addresses hn hstored'

/-- **A message is transferred as by one transfer exactly where a word is a byte, there is a
single chunk, or there is no buffer.**

The chunks are counted in words and the pointers moved by that number of bytes.  For words of a
byte both are the same.  For wider ones the second chunk starts inside the first, so with a buffer
and a second chunk some word is moved from or to another place. -/
theorem spiXferMatches_iff (datalen : Nat) (msg : RtSpiMessage) :
    SpiXferMatches datalen msg ↔
      datalen ≤ 7 ∨ msg.length ≤ spiChunk ∨ msg.sendBuf = none ∧ msg.recvBuf = none := by
  have hbyte : spiWordBytes datalen = 1 ↔ datalen ≤ 7 := by
    unfold spiWordBytes
    split
    · simp_all
    · split <;> simp_all
  rw [← hbyte]
  refine ⟨fun h => ?_, spiXferMatches_of⟩
  by_contra hnot
  rw [not_or, not_or, not_and_or, Nat.not_le] at hnot
  obtain ⟨hwide, hlong, hbuffer⟩ := hnot
  exact hwide (spiWordBytes_of_matches h hlong hbuffer)

/-- The last of 513 words of 16 bits is taken from the middle of the buffer. -/
theorem spiXferMatches_wide :
    ¬ SpiXferMatches 15 ⟨some 0x80000, none, 513, true, true⟩ ∧
      (spiXferAddresses 15 0x80000 513).getLast? = some 0x80200 ∧
      (spiAddresses 15 0x80000 513).getLast? = some 0x80400 := by
  refine ⟨fun h => ?_, by decide +kernel, by decide +kernel⟩
  exact absurd (spiWordBytes_of_matches h (by decide) (Or.inl nofun)) (by decide)

end Chunks

end HpmSdk.Spi
