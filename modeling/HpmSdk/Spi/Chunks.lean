import HpmSdk.Spi.Transfer

set_option autoImplicit false

/-!
# SPI: when the chunks of a message are the message

The pointers of `hpm_spi_xfer` go on by a number of words and not of bytes.  So the chunks are
one transfer exactly where a word is a byte, or where there is a single chunk.

A transfer of two chunks is compared with one of their sum by shifting the counters of the second
one.
-/

namespace HpmSdk.Spi

/-! ## The loop of the data phase -/

section Loop

variable {datalen wsize rsize : Nat} {s s' : SpiLoop} {polls rest : List SpiPoll}

/-- The loop goes on while words are left. -/
theorem spiDataLoop_goes (h : s.Goes wsize rsize) (p : SpiPoll) :
    spiDataLoop datalen wsize rsize (p :: polls) s =
      spiDataLoop datalen wsize rsize polls (s.pass datalen wsize rsize p) := by
  simp only [spiDataLoop, if_pos h]

/-- The loop ends when none are. -/
theorem spiDataLoop_done (h : ¬ s.Goes wsize rsize) :
    spiDataLoop datalen wsize rsize polls s = some (s, polls) := by
  cases polls <;> simp only [spiDataLoop, if_neg h]

/-- What holds after every pass holds where the loop ends. -/
theorem spiDataLoop_invariant {P : SpiLoop → Prop}
    (hpass : ∀ s p, P s → s.Goes wsize rsize → P (s.pass datalen wsize rsize p)) (hs : P s)
    (h : spiDataLoop datalen wsize rsize polls s = some (s', rest)) :
    P s' ∧ ¬ s'.Goes wsize rsize := by
  induction polls generalizing s with
  | nil =>
    unfold spiDataLoop at h
    split at h
    · exact nomatch h
    · rename_i hdone
      cases h
      exact ⟨hs, hdone⟩
  | cons p polls ih =>
    by_cases hgoes : s.Goes wsize rsize
    · rw [spiDataLoop_goes hgoes] at h
      exact ih (hpass s p hs hgoes) h
    · rw [spiDataLoop_done hgoes] at h
      cases h
      exact ⟨hs, hgoes⟩

/-- The loop is within its sizes, and the pointers are as many words behind their starts as
were transferred. -/
structure SpiLoop.At (datalen wsize rsize wstart rstart : Nat) (s : SpiLoop) : Prop where
  wtransferred : s.wtransferred ≤ wsize
  rtransferred : s.rtransferred ≤ rsize
  wbuff : s.wbuff = wstart + s.wtransferred * spiWordBytes datalen
  rbuff : s.rbuff = rstart + s.rtransferred * spiWordBytes datalen

/-- A pass takes the pointers on with the words. -/
theorem SpiLoop.At.pass {wstart rstart : Nat} (h : s.At datalen wsize rsize wstart rstart)
    (p : SpiPoll) : (s.pass datalen wsize rsize p).At datalen wsize rsize wstart rstart := by
  have hwrite : (s.writePart datalen wsize p).At datalen wsize rsize wstart rstart := by
    unfold SpiLoop.writePart
    split
    · rename_i hgo
      refine ⟨hgo.1, h.rtransferred, ?_, h.rbuff⟩
      simp only [h.wbuff, Nat.add_mul, Nat.one_mul, Nat.add_assoc]
    · exact h
  unfold SpiLoop.pass
  generalize s.writePart datalen wsize p = t at hwrite ⊢
  unfold SpiLoop.readPart
  split
  · rename_i hgo
    refine ⟨hwrite.wtransferred, hgo.1, hwrite.wbuff, ?_⟩
    simp only [hwrite.rbuff, Nat.add_mul, Nat.one_mul, Nat.add_assoc]
  · exact hwrite

/-- Where the loop ends all words are transferred. -/
theorem SpiLoop.At.ends {wstart rstart : Nat} (hs : s.At datalen wsize rsize wstart rstart)
    (h : spiDataLoop datalen wsize rsize polls s = some (s', rest)) :
    s'.wtransferred = wsize ∧ s'.rtransferred = rsize ∧
      s'.wbuff = wstart + wsize * spiWordBytes datalen ∧
      s'.rbuff = rstart + rsize * spiWordBytes datalen := by
  obtain ⟨hat, hdone⟩ := spiDataLoop_invariant
    (P := SpiLoop.At datalen wsize rsize wstart rstart) (fun s p hs _ => hs.pass p) hs h
  unfold SpiLoop.Goes at hdone
  have hwend : s'.wtransferred = wsize := by
    have := hat.wtransferred
    omega
  have hrend : s'.rtransferred = rsize := by
    have := hat.rtransferred
    omega
  exact ⟨hwend, hrend, hwend ▸ hat.wbuff, hrend ▸ hat.rbuff⟩

/-- The statuses of a pass with the FIFOs held back where a smaller loop is at its end. -/
def SpiPoll.held (p : SpiPoll) (wsize rsize : Nat) (s : SpiLoop) : SpiPoll where
  txFull := p.txFull || decide (wsize ≤ s.wtransferred)
  rxEmpty := p.rxEmpty || decide (rsize ≤ s.rtransferred)
  data := p.data

theorem SpiLoop.writePart_rtransferred (p : SpiPoll) :
    (s.writePart datalen wsize p).rtransferred = s.rtransferred := by
  unfold SpiLoop.writePart
  split <;> rfl

/-- A loop that is to move more words does the same, where the FIFOs are seen full or empty as
before. -/
theorem SpiLoop.pass_held {wsize' rsize' : Nat} (hw : wsize ≤ wsize') (hr : rsize ≤ rsize')
    (p : SpiPoll) : s.pass datalen wsize' rsize' (p.held wsize rsize s) =
      s.pass datalen wsize rsize p := by
  have hheld : ∀ (size size' n : Nat) (b : Bool), size ≤ size' →
      ((n < size' ∧ (b || decide (size ≤ n)) = false) ↔ (n < size ∧ b = false)) := by
    intro size size' n b hle
    rw [Bool.or_eq_false_iff, decide_eq_false_iff_not, Nat.not_le]
    exact ⟨fun h => ⟨h.2.2, h.2.1⟩, fun h => ⟨Nat.lt_of_lt_of_le h.1 hle, h.2, h.1⟩⟩
  have hwrite : s.writePart datalen wsize' (p.held wsize rsize s) =
      s.writePart datalen wsize p := by
    unfold SpiLoop.writePart SpiPoll.held
    simp only [hheld wsize wsize' s.wtransferred p.txFull hw]
  unfold SpiLoop.pass
  rw [hwrite]
  have hcount := @SpiLoop.writePart_rtransferred datalen wsize s p
  generalize s.writePart datalen wsize p = t at hcount ⊢
  unfold SpiLoop.readPart SpiPoll.held
  simp only [← hcount, hheld rsize rsize' t.rtransferred p.rxEmpty hr]

/-- A loop with larger sizes starts like a smaller one, for statuses that hold the FIFOs back
where the smaller one is at its end. -/
theorem spiDataLoop_extend {wsize' rsize' : Nat} (hw : wsize ≤ wsize') (hr : rsize ≤ rsize')
    (h : spiDataLoop datalen wsize rsize polls s = some (s', rest)) :
    ∃ front, ∀ more, spiDataLoop datalen wsize' rsize' (front ++ more) s =
      spiDataLoop datalen wsize' rsize' more s' := by
  induction polls generalizing s with
  | nil =>
    unfold spiDataLoop at h
    split at h
    · exact nomatch h
    · cases h
      exact ⟨[], fun more => rfl⟩
  | cons p polls ih =>
    by_cases hgoes : s.Goes wsize rsize
    · rw [spiDataLoop_goes hgoes] at h
      obtain ⟨front, hfront⟩ := ih h
      have hgoes' : s.Goes wsize' rsize' := by
        unfold SpiLoop.Goes at hgoes ⊢
        omega
      refine ⟨p.held wsize rsize s :: front, fun more => ?_⟩
      rw [List.cons_append, spiDataLoop_goes hgoes', SpiLoop.pass_held hw hr]
      exact hfront more
    · rw [spiDataLoop_done hgoes] at h
      cases h
      exact ⟨[], fun more => rfl⟩

/-- The loop does not look at how its words are counted. -/
def SpiLoop.shift (s : SpiLoop) (m n : Nat) : SpiLoop :=
  { s with wtransferred := m + s.wtransferred, rtransferred := n + s.rtransferred }

/-- A pass does not depend on how many words there were before. -/
theorem SpiLoop.shift_pass (m n : Nat) (p : SpiPoll) :
    (s.shift m n).pass datalen (m + wsize) (n + rsize) p =
      (s.pass datalen wsize rsize p).shift m n := by
  have hwrite : (s.shift m n).writePart datalen (m + wsize) p =
      (s.writePart datalen wsize p).shift m n := by
    unfold SpiLoop.writePart
    simp only [SpiLoop.shift, Nat.add_lt_add_iff_left]
    split <;> rfl
  unfold SpiLoop.pass
  rw [hwrite]
  generalize s.writePart datalen wsize p = t
  unfold SpiLoop.readPart
  simp only [SpiLoop.shift, Nat.add_lt_add_iff_left]
  split <;> rfl

/-- And neither does the loop. -/
theorem spiDataLoop_shift (m n : Nat) :
    spiDataLoop datalen (m + wsize) (n + rsize) polls (s.shift m n) =
      (spiDataLoop datalen wsize rsize polls s).map fun r => (r.1.shift m n, r.2) := by
  have hgoes : ∀ s : SpiLoop, (s.shift m n).Goes (m + wsize) (n + rsize) ↔ s.Goes wsize rsize := by
    intro s
    unfold SpiLoop.Goes SpiLoop.shift
    simp only [Nat.add_lt_add_iff_left]
  induction polls generalizing s with
  | nil =>
    simp only [spiDataLoop, hgoes]
    split <;> rfl
  | cons p polls ih =>
    simp only [spiDataLoop, hgoes, SpiLoop.shift_pass, ih]
    split <;> rfl

/-- The loop does not look at what happened before it. -/
def SpiLoop.behind (s : SpiLoop) (log : List SpiEvent) : SpiLoop :=
  { s with io := { s.io with log := log ++ s.io.log } }

theorem SpiLoop.behind_pass (log : List SpiEvent) (p : SpiPoll) :
    (s.behind log).pass datalen wsize rsize p = (s.pass datalen wsize rsize p).behind log := by
  have hwrite : (s.behind log).writePart datalen wsize p =
      (s.writePart datalen wsize p).behind log := by
    unfold SpiLoop.writePart SpiLoop.behind
    by_cases hgo : s.wtransferred < wsize ∧ p.txFull = false
    · simp only [if_pos hgo, List.append_assoc]
    · simp only [if_neg hgo]
  unfold SpiLoop.pass
  rw [hwrite]
  generalize s.writePart datalen wsize p = t
  unfold SpiLoop.readPart SpiLoop.behind
  by_cases hgo : t.rtransferred < rsize ∧ p.rxEmpty = false
  · simp only [if_pos hgo, List.append_assoc]
  · simp only [if_neg hgo]

/-- Nor does it depend on the log. -/
theorem spiDataLoop_behind (log : List SpiEvent) :
    spiDataLoop datalen wsize rsize polls (s.behind log) =
      (spiDataLoop datalen wsize rsize polls s).map fun r => (r.1.behind log, r.2) := by
  have hgoes : ∀ s : SpiLoop, (s.behind log).Goes wsize rsize ↔ s.Goes wsize rsize :=
    fun _ => Iff.rfl
  induction polls generalizing s with
  | nil =>
    simp only [spiDataLoop, hgoes]
    split <;> rfl
  | cons p polls ih =>
    simp only [spiDataLoop, hgoes, SpiLoop.behind_pass, ih]
    split <;> rfl

end Loop

/-! ## One transfer of a message -/

namespace RtSpiMessage

variable (msg : RtSpiMessage)

/-- A message that is transferred: it has a buffer, and no command or address is asked for. -/
structure Served (config : SpiControlConfig) : Prop where
  cmdEnable : config.cmdEnable = false
  addrEnable : config.addrEnable = false
  buffer : msg.sendBuf ≠ none ∨ msg.recvBuf ≠ none

instance (config : SpiControlConfig) : Decidable (msg.Served config) :=
  decidable_of_iff
    (config.cmdEnable = false ∧ config.addrEnable = false ∧
      (msg.sendBuf ≠ none ∨ msg.recvBuf ≠ none))
    ⟨fun ⟨hc, ha, hb⟩ => ⟨hc, ha, hb⟩, fun ⟨hc, ha, hb⟩ => ⟨hc, ha, hb⟩⟩

/-- The words to be sent, of so many. -/
def wsize (n : Nat) : Nat := if msg.sendBuf = none then 0 else n

/-- The words to be received, of so many. -/
def rsize (n : Nat) : Nat := if msg.recvBuf = none then 0 else n

/-- Pointers into the buffers of a message. -/
structure Into (txBuf rxBuf : Option Nat) : Prop where
  tx : txBuf = none ↔ msg.sendBuf = none
  rx : rxBuf = none ↔ msg.recvBuf = none

variable {msg} {datalen n : Nat} {config : SpiControlConfig} {txBuf rxBuf : Option Nat}
  {polls : List SpiPoll} {io : SpiIo}

/-- A transfer that the configuration serves is its data phase. -/
theorem transfer_served (h : msg.Served config) (hinto : msg.Into txBuf rxBuf) (hn : n ≠ 0) :
    msg.transfer datalen config txBuf rxBuf n polls io =
      spiDataPhase datalen (txBuf.getD 0) (msg.wsize n) (rxBuf.getD 0) (msg.rsize n) polls io := by
  obtain ⟨hcmd, haddr, hbuffer⟩ := h
  obtain ⟨htx, hrx⟩ := hinto
  cases hs : msg.sendBuf <;> cases hr : msg.recvBuf <;> cases txBuf <;> cases rxBuf <;>
    simp [RtSpiMessage.transfer, spiTransfer, spiWriteData, spiReadData, spiWriteReadData,
      RtSpiMessage.wsize, RtSpiMessage.rsize, hcmd, haddr, hn, hs, hr] at htx hrx hbuffer ⊢

/-- A transfer that it does not serve is refused. -/
theorem transfer_refused (h : ¬ msg.Served config) (hinto : msg.Into txBuf rxBuf) :
    msg.transfer datalen config txBuf rxBuf n polls io = some (.invalidArgument, io, polls) := by
  cases hcmd : config.cmdEnable with
  | true =>
    unfold RtSpiMessage.transfer spiTransfer
    simp only [hcmd, true_and, if_true, ite_self]
  | false =>
    cases haddr : config.addrEnable with
    | true =>
      unfold RtSpiMessage.transfer spiTransfer
      simp only [hcmd, haddr, Bool.false_eq_true, false_and, true_and, if_true, ite_self]
    | false =>
      have hnone : msg.sendBuf = none ∧ msg.recvBuf = none := by
        by_contra hbuffer
        exact h ⟨hcmd, haddr, not_and_or.mp hbuffer⟩
      have hrx : rxBuf = none := hinto.rx.mpr hnone.2
      simp [RtSpiMessage.transfer, spiTransfer, spiReadData, hcmd, haddr, hnone, hrx]

/-- A transfer of no words fails. -/
theorem transfer_zero (hinto : msg.Into txBuf rxBuf) :
    msg.transfer datalen config txBuf rxBuf 0 polls io = some (.invalidArgument, io, polls) := by
  by_cases h : msg.Served config
  · obtain ⟨hcmd, haddr, hbuffer⟩ := h
    obtain ⟨htx, hrx⟩ := hinto
    cases hs : msg.sendBuf <;> cases hr : msg.recvBuf <;> cases txBuf <;> cases rxBuf <;>
      simp [RtSpiMessage.transfer, spiTransfer, spiWriteData, spiReadData, spiWriteReadData,
        hcmd, haddr, hs, hr] at htx hrx hbuffer ⊢
  · exact transfer_refused h hinto

theorem Into.add (hinto : msg.Into txBuf rxBuf) (k : Nat) :
    msg.Into (txBuf.map (· + k)) (rxBuf.map (· + k)) :=
  ⟨by rw [Option.map_eq_none_iff]; exact hinto.tx, by rw [Option.map_eq_none_iff]; exact hinto.rx⟩

/-- A pointer that goes on by the number of words, where a word is a byte. -/
theorem Into.tx_add (hinto : msg.Into txBuf rxBuf) (k : Nat) :
    (txBuf.map (· + k)).getD 0 = txBuf.getD 0 + msg.wsize k := by
  unfold wsize
  cases txBuf with
  | none =>
    rw [if_pos (hinto.tx.mp rfl)]
    rfl
  | some tx =>
    rw [if_neg fun hs => nomatch hinto.tx.mpr hs]
    rfl

theorem Into.rx_add (hinto : msg.Into txBuf rxBuf) (k : Nat) :
    (rxBuf.map (· + k)).getD 0 = rxBuf.getD 0 + msg.rsize k := by
  unfold rsize
  cases rxBuf with
  | none =>
    rw [if_pos (hinto.rx.mp rfl)]
    rfl
  | some rx =>
    rw [if_neg fun hs => nomatch hinto.rx.mpr hs]
    rfl

theorem wsize_add (m n : Nat) : msg.wsize (m + n) = msg.wsize m + msg.wsize n := by
  unfold wsize
  split <;> rfl

theorem rsize_add (m n : Nat) : msg.rsize (m + n) = msg.rsize m + msg.rsize n := by
  unfold rsize
  split <;> rfl

end RtSpiMessage

/-! ## All chunks -/

section Chunks

variable {msg : RtSpiMessage} {datalen : Nat} {config : SpiControlConfig} {status : SpiStat}
  {polls rest : List SpiPoll} {io io' : SpiIo}

/-- A run of the loop with words to go transfers one chunk and goes on behind it. -/
theorem hpmSpiXferLoop_cases (h : msg.Served config) {n : Nat} (hn : n ≠ 0)
    {txBuf rxBuf : Option Nat} (hinto : msg.Into txBuf rxBuf)
    (hrun : hpmSpiXferLoop msg datalen config n txBuf rxBuf polls io = some (status, io', rest)) :
    ∃ t m s polls', t ≠ 0 ∧ n = t + m ∧ min spiChunk (t + m) = t ∧
      spiDataLoop datalen (msg.wsize t) (msg.rsize t) polls
        ⟨io, txBuf.getD 0, rxBuf.getD 0, 0, 0⟩ = some (s, polls') ∧
      hpmSpiXferLoop msg datalen config m (txBuf.map (· + t)) (rxBuf.map (· + t)) polls' s.io =
        some (status, io', rest) := by
  rw [hpmSpiXferLoop, dif_neg hn] at hrun
  generalize ht : min spiChunk n = t at hrun
  have ht0 : t ≠ 0 := by
    unfold spiChunk at ht
    omega
  simp only [RtSpiMessage.transfer_served h hinto ht0, spiDataPhase] at hrun
  obtain ⟨r, hphase, hrun⟩ := Option.bind_eq_some_iff.mp hrun
  obtain ⟨⟨s, polls'⟩, hloop, rfl⟩ := Option.map_eq_some_iff.mp hphase
  rw [if_neg (fun hne => hne rfl)] at hrun
  obtain ⟨m, rfl⟩ : ∃ m, n = t + m := ⟨n - t, by omega⟩
  rw [Nat.add_sub_cancel_left] at hrun
  exact ⟨t, m, s, polls', ht0, rfl, ht, hloop, hrun⟩

/-- The chunks of a message do what one transfer of it does, where the pointers are right. -/
theorem hpmSpiXferLoop_whole (h : msg.Served config) {n : Nat} (hn : n ≠ 0)
    (hbytes : spiWordBytes datalen = 1 ∨ n ≤ spiChunk) {txBuf rxBuf : Option Nat}
    (hinto : msg.Into txBuf rxBuf)
    (hrun : hpmSpiXferLoop msg datalen config n txBuf rxBuf polls io = some (status, io', rest)) :
    ∃ polls' s rest', status = .success ∧
      spiDataLoop datalen (msg.wsize n) (msg.rsize n) polls'
        ⟨io, txBuf.getD 0, rxBuf.getD 0, 0, 0⟩ = some (s, rest') ∧ s.io = io' := by
  induction n using Nat.strongRecOn generalizing txBuf rxBuf polls io with
  | ind n ih =>
    obtain ⟨t, m, ⟨io₁, wbuff, rbuff, w, r⟩, rest₁, ht0, rfl, ht, hloop, hrun⟩ :=
      hpmSpiXferLoop_cases h hn hinto hrun
    have hat : SpiLoop.At datalen (msg.wsize t) (msg.rsize t) (txBuf.getD 0) (rxBuf.getD 0)
        ⟨io, txBuf.getD 0, rxBuf.getD 0, 0, 0⟩ :=
      ⟨Nat.zero_le _, Nat.zero_le _, by simp, by simp⟩
    obtain ⟨hw, hr, hwb, hrb⟩ := hat.ends hloop
    simp only at hw hr hwb hrb hrun
    by_cases hlast : m = 0
    · subst hlast
      rw [hpmSpiXferLoop, dif_pos rfl] at hrun
      cases hrun
      exact ⟨polls, _, _, rfl, hloop, rfl⟩
    · have hone : spiWordBytes datalen = 1 := hbytes.resolve_right (by omega)
      obtain ⟨polls₂, s₂, rest₂, hstatus, hloop₂, hio⟩ :=
        ih m (by omega) hlast (Or.inl hone) (hinto.add t) hrun
      rw [msg.wsize_add, msg.rsize_add]
      obtain ⟨front, hfront⟩ := @spiDataLoop_extend _ _ _ _ _ _ _ (msg.wsize t + msg.wsize m)
        (msg.rsize t + msg.rsize m) (Nat.le_add_right _ _) (Nat.le_add_right _ _) hloop
      -- Behind the first chunk the pointers and counts are those of the whole transfer.
      have hstart : (⟨io₁, wbuff, rbuff, w, r⟩ : SpiLoop) = SpiLoop.shift ⟨io₁,
          (txBuf.map (· + t)).getD 0, (rxBuf.map (· + t)).getD 0, 0, 0⟩
          (msg.wsize t) (msg.rsize t) := by
        rw [hinto.tx_add, hinto.rx_add, hw, hr, hwb, hrb, hone, Nat.mul_one, Nat.mul_one]
        rfl
      refine ⟨front ++ polls₂, s₂.shift (msg.wsize t) (msg.rsize t), rest₂, hstatus, ?_, hio⟩
      rw [hfront, hstart, spiDataLoop_shift, hloop₂]
      rfl

/-- A message whose first chunk is refused is refused. -/
theorem hpmSpiXferLoop_refused (h : ¬ msg.Served config) {n : Nat} (hn : n ≠ 0)
    {txBuf rxBuf : Option Nat} (hinto : msg.Into txBuf rxBuf) :
    hpmSpiXferLoop msg datalen config n txBuf rxBuf polls io =
      some (.invalidArgument, io, polls) := by
  rw [hpmSpiXferLoop, dif_neg hn]
  simp only [RtSpiMessage.transfer_refused h hinto]
  rfl

/-- A transfer logs words only. -/
theorem spiDataLoop_words {wsize rsize : Nat} {s s' : SpiLoop}
    (hs : ∀ e ∈ s.io.log, e.isWord = true)
    (h : spiDataLoop datalen wsize rsize polls s = some (s', rest)) :
    ∀ e ∈ s'.io.log, e.isWord = true := by
  refine (spiDataLoop_invariant (P := fun s => ∀ e ∈ s.io.log, e.isWord = true)
    (fun s p hs _ => ?_) hs h).1
  have hwrite : ∀ e ∈ (s.writePart datalen wsize p).io.log, e.isWord = true := by
    unfold SpiLoop.writePart
    split
    · simp only [List.forall_mem_append, List.forall_mem_singleton]
      exact ⟨hs, rfl⟩
    · exact hs
  unfold SpiLoop.pass SpiLoop.readPart
  split
  · simp only [List.forall_mem_append, List.forall_mem_singleton]
    exact ⟨hwrite, rfl⟩
  · exact hwrite

/-- The chunks are one transfer where a word is a byte or there is a single chunk; and where
there is no buffer both fail. -/
theorem spiXferMatches_of (hok : spiWordBytes datalen = 1 ∨ msg.length ≤ spiChunk ∨
    msg.sendBuf = none ∧ msg.recvBuf = none) : SpiXferMatches datalen msg := by
  intro config csPin polls mem length io hrun
  obtain ⟨⟨status, io₁, rest⟩, hloop, heq⟩ := Option.map_eq_some_iff.mp hrun
  obtain ⟨rfl, rfl⟩ := Prod.mk.inj heq
  generalize htaken : (if csPin = true ∧ msg.csTake = true then [SpiEvent.cs true] else []) =
    taken at hloop
  have hwords : taken.filter SpiEvent.isWord = [] := by
    rw [← htaken]
    split <;> rfl
  generalize hreleased : (if csPin = true ∧ msg.csRelease = true then [SpiEvent.cs false] else []) =
    released
  have hwords' : released.filter SpiEvent.isWord = [] := by
    rw [← hreleased]
    split <;> rfl
  refine ⟨?_, fun hpin hrelease => ?_⟩
  · have hinto : msg.Into msg.sendBuf msg.recvBuf := ⟨Iff.rfl, Iff.rfl⟩
    by_cases hserved : msg.Served config ∧ msg.length ≠ 0
    · obtain ⟨hserved, hn⟩ := hserved
      have hbytes : spiWordBytes datalen = 1 ∨ msg.length ≤ spiChunk := by
        rcases hok with hone | hshort | ⟨hs, hr⟩
        · exact Or.inl hone
        · exact Or.inr hshort
        · exact absurd hserved.buffer (by simp [hs, hr])
      obtain ⟨polls', s, rest', rfl, hwhole, rfl⟩ :=
        hpmSpiXferLoop_whole hserved hn hbytes hinto hloop
      -- What chip select logged is in front of what the transfer logs.
      have hbehind := @spiDataLoop_behind datalen (msg.wsize msg.length) (msg.rsize msg.length)
        (⟨⟨mem, []⟩, msg.sendBuf.getD 0, msg.recvBuf.getD 0, 0, 0⟩) polls' taken
      simp only [SpiLoop.behind, List.append_nil] at hbehind
      rw [hwhole] at hbehind
      obtain ⟨⟨whole, rest₂⟩, hwhole', heq'⟩ := Option.map_eq_some_iff.mp hbehind.symm
      obtain ⟨rfl, rfl⟩ := Prod.mk.inj heq'
      have hall := spiDataLoop_words (fun _ h => absurd h List.not_mem_nil) hwhole'
      refine ⟨polls', .success, whole.io, rest₂, ?_, rfl, ?_, rfl⟩
      · rw [RtSpiMessage.transfer_served hserved hinto hn, spiDataPhase, hwhole']
        rfl
      · rw [List.filter_append, List.filter_append, hwords, hwords', List.nil_append,
          List.append_nil, List.filter_eq_self.mpr hall]
    · have hinvalid : msg.transfer datalen config msg.sendBuf msg.recvBuf msg.length [] ⟨mem, []⟩ =
          some (.invalidArgument, ⟨mem, []⟩, []) := by
        by_cases hn : msg.length = 0
        · rw [hn]
          exact RtSpiMessage.transfer_zero hinto
        · exact RtSpiMessage.transfer_refused (fun hs => hserved ⟨hs, hn⟩) hinto
      have hends : io₁ = ⟨mem, taken⟩ ∧ (status = .success → msg.length = 0) := by
        by_cases hn : msg.length = 0
        · rw [hn, hpmSpiXferLoop, dif_pos rfl] at hloop
          cases hloop
          exact ⟨rfl, fun _ => hn⟩
        · rw [hpmSpiXferLoop_refused (fun hs => hserved ⟨hs, hn⟩) hn hinto] at hloop
          cases hloop
          exact ⟨rfl, nofun⟩
      obtain ⟨rfl, hlength⟩ := hends
      refine ⟨[], .invalidArgument, ⟨mem, []⟩, [], hinvalid, rfl, ?_, ?_⟩
      · rw [List.filter_append, hwords, hwords']
        rfl
      · simp only
        split
        · exact hlength (by assumption)
        · rfl
  · rw [← hreleased, if_pos ⟨hpin, hrelease⟩]
    simp

end Chunks

end HpmSdk.Spi
