import HpmSdk.Sd.Init

set_option autoImplicit false

/-!
# SD cards: what `sd_card_init` reports

The status of the selection and that of the SCR are dropped, and the loop of ACMD41 is left alone
when a command of it fails: with 1.8 V accepted the voltage is switched then, and the status of
that command takes the place of the failure.

A chain of commands breaks off at its first failure and reports it.  What is not reported is a
failure whose status is overwritten, and `SdInitFits` says that there is none.
-/

namespace HpmSdk.Sd

open HpmSdk.Sdxc

/-! ## The contract -/

/-- A command that failed, other than the exempted one. -/
def SdIssued.Failed (e : SdIssued) : Prop :=
  e.cmdIndex ≠ sdCmdSendIfCond ∧ e.status ≠ statusSuccess

instance (e : SdIssued) : Decidable e.Failed := inferInstanceAs (Decidable (_ ∧ _))

/-- No command failed. -/
def SdClean (log : List SdIssued) : Prop := ∀ e ∈ log, ¬ e.Failed

/-- What is asked of a call, be it finished or not: success only where no command failed, and the
first command that failed is the last one, and its status is returned. -/
structure SdReports (result : Option HpmStatus) (log : List SdIssued) : Prop where
  success : result = some statusSuccess → SdClean log
  first : ∀ before e after, log = before ++ e :: after → SdClean before → e.Failed →
    after = [] ∧ result = some e.status

section Replies

variable (support1v8 : Bool) (replies : Nat → SdInitReply)

/-- A command succeeds. -/
def SdOk (i : Nat) : Prop := (replies i).status = statusSuccess

/-- The command before the first ACMD41: with a card that is not supported, the second CMD0 comes
in between. -/
def sdOpCondFirst : Nat :=
  if sdIfCondStatus (replies 1) = statusSdmmcCardNotSupport then 3 else 2

/-- Both commands of a round of ACMD41 succeed; the first round is the one before the loop. -/
def SdRound (n : Nat) : Prop :=
  SdOk replies (sdOpCondFirst replies + 2 * n) ∧ SdOk replies (sdOpCondFirst replies + 2 * n + 1)

/-- The conditions that a round receives. -/
def sdRoundOcr (n : Nat) : BitVec 32 :=
  (replies (sdOpCondFirst replies + 2 * n + 1)).response.w0

/-- Both sides take 1.8 V after a round. -/
def sdAccepts (n : Nat) : Bool :=
  support1v8 && switchingTo1v8Accepted (sdRoundOcr replies n)

/-- The card is reset. -/
def SdStarted : Prop := SdOk replies 0 ∧ (sdOpCondFirst replies = 3 → SdOk replies 2)

/-- The card is still waited for after a round. -/
def SdWaits (n : Nat) : Prop :=
  (SdStarted replies ∧ SdRound replies 0) ∧
    ∀ i < n, SdRound replies (i + 1) ∧ cardPowerUpStatus (sdRoundOcr replies (i + 1)) = false

/-- The card is powered up with the first so many commands, and at 1.8 V where both sides
take it. -/
def SdProbed (k : Nat) : Prop :=
  ∃ n, SdWaits replies n ∧ SdRound replies (n + 1) ∧
    cardPowerUpStatus (sdRoundOcr replies (n + 1)) = true ∧
    (sdAccepts support1v8 replies (n + 1) = true →
      SdOk replies (sdOpCondFirst replies + 2 * n + 4)) ∧
    k = sdOpCondFirst replies + 2 * n + 4 + (sdAccepts support1v8 replies (n + 1)).toNat

/-- When the call reports as asked: a round of ACMD41 that fails does not follow a round after
which 1.8 V is taken, and a card that is identified can be selected and its SCR read. -/
structure SdInitFits : Prop where
  opCond : ∀ n, SdWaits replies n → ¬ SdRound replies (n + 1) →
    sdAccepts support1v8 replies n = false
  selected : ∀ k, SdProbed support1v8 replies k → SdOk replies k → SdOk replies (k + 1) →
    SdOk replies (k + 2) →
      SdOk replies (k + 3) ∧ SdOk replies (k + 4) ∧ SdOk replies (k + 5)

/-- The session before any command of the call. -/
def SdInitSession.start (card : SdInitCard) (response : Words4) (busWidth clock : BitVec 32) :
    SdInitSession :=
  ⟨card, response, busWidth, clock, 0, []⟩

end Replies

/-! ## Logs -/

/-- The last command failed, and it is the first one. -/
def SdStopped (status : HpmStatus) (log : List SdIssued) : Prop :=
  ∃ before e, log = before ++ [e] ∧ SdClean before ∧ e.Failed ∧ status = e.status

/-- Other commands follow the first one that failed. -/
def SdLost (log : List SdIssued) : Prop :=
  ∃ before e after, log = before ++ e :: after ∧ SdClean before ∧ e.Failed ∧ after ≠ []

/-- A log without failures stays one when such a log is added. -/
theorem SdClean.append {log es : List SdIssued} (hlog : SdClean log) (hes : SdClean es) :
    SdClean (log ++ es) := by
  intro e he
  rcases List.mem_append.1 he with he | he
  · exact hlog e he
  · exact hes e he

theorem SdClean.singleton {e : SdIssued} (he : ¬ e.Failed) : SdClean [e] := by
  intro e' he'
  rw [List.mem_singleton.1 he']
  exact he

/-- A log without a failure is as asked, whatever is returned. -/
theorem SdClean.reports {log : List SdIssued} (hlog : SdClean log) (result : Option HpmStatus) :
    SdReports result log := by
  refine ⟨fun _ => hlog, ?_⟩
  rintro before e after rfl _ he
  exact absurd he (hlog e (by simp))

/-- The first failure is at one place. -/
theorem sdFirst_unique {before before' : List SdIssued} {e e' : SdIssued}
    {after after' : List SdIssued} (h : before ++ e :: after = before' ++ e' :: after')
    (hbefore : SdClean before) (hbefore' : SdClean before') (he : e.Failed) (he' : e'.Failed) :
    before = before' ∧ e = e' ∧ after = after' := by
  induction before generalizing before' with
  | nil =>
    cases before' with
    | nil => simpa using h
    | cons e₁ es =>
      obtain ⟨rfl, -⟩ := List.cons.inj h
      exact absurd he (hbefore' e (by simp))
  | cons e₀ es ih =>
    cases before' with
    | nil =>
      obtain ⟨rfl, -⟩ := List.cons.inj h
      exact absurd he' (hbefore e₀ (by simp))
    | cons e₁ es' =>
      obtain ⟨rfl, hrest⟩ := List.cons.inj h
      obtain ⟨rfl, rest⟩ := ih hrest (fun x hx => hbefore x (by simp [hx]))
        (fun x hx => hbefore' x (by simp [hx]))
      exact ⟨rfl, rest⟩

/-- A function that stops at a failure reports it. -/
theorem SdStopped.reports {status : HpmStatus} {log : List SdIssued}
    (h : SdStopped status log) : SdReports (some status) log := by
  obtain ⟨before, e, rfl, hbefore, he, rfl⟩ := h
  refine ⟨?_, ?_⟩
  · intro hsuccess
    exact absurd (Option.some.inj hsuccess) he.2
  · intro before' e' after' hlog hbefore' he'
    obtain ⟨-, rfl, rfl⟩ := sdFirst_unique hlog hbefore hbefore' he he'
    exact ⟨rfl, rfl⟩

/-- A failure behind which other commands went out is not reported. -/
theorem SdLost.not_reports {result : Option HpmStatus} {log : List SdIssued} (h : SdLost log) :
    ¬ SdReports result log := by
  obtain ⟨before, e, after, hlog, hbefore, he, hafter⟩ := h
  intro hreports
  exact hafter (hreports.first before e after hlog hbefore he).1

/-- And it is not reported later. -/
theorem SdLost.append {log : List SdIssued} (h : SdLost log) (es : List SdIssued) :
    SdLost (log ++ es) := by
  obtain ⟨before, e, after, rfl, hbefore, he, hafter⟩ := h
  exact ⟨before, e, after ++ es, by simp, hbefore, he, by simp [hafter]⟩

/-- Whatever follows a failure loses it. -/
theorem SdStopped.append {status : HpmStatus} {log es : List SdIssued}
    (h : SdStopped status log) (hes : es ≠ []) : SdLost (log ++ es) := by
  obtain ⟨before, e, rfl, hbefore, he, -⟩ := h
  exact ⟨before, e, es, by simp, hbefore, he, hes⟩

/-! ## Chains of commands -/

/-- Commands that are issued one after the other up to the first that fails. -/
inductive SdChain (replies : Nat → SdInitReply) (n : Nat) (s : SdInitSession) :
    HpmStatus × SdInitSession → Prop
  | done (s' : SdInitSession) (es : List SdIssued) (hlog : s'.log = s.log ++ es)
      (hclean : SdClean es) (hlength : es.length = n) (hcommands : s'.commands = s.commands + n)
      (hok : ∀ i < n, SdOk replies (s.commands + i)) : SdChain replies n s (statusSuccess, s')
  | stopped (s' : SdInitSession) (es : List SdIssued) (e : SdIssued)
      (hlog : s'.log = s.log ++ (es ++ [e])) (hclean : SdClean es) (hfailed : e.Failed)
      (hfail : ¬ ∀ i < n, SdOk replies (s.commands + i)) : SdChain replies n s (e.status, s')

section Chains

variable {replies : Nat → SdInitReply} {n m : Nat} {s : SdInitSession}

variable (replies) in
/-- One command. -/
theorem sdInitCommand_chain (cmdIndex : BitVec 32) (hindex : cmdIndex ≠ sdCmdSendIfCond)
    (cmdArgument : BitVec 32) (data : Option SdmmcData) (s : SdInitSession) :
    SdChain replies 1 s (sdInitCommand replies cmdIndex cmdArgument data s) := by
  by_cases hok : SdOk replies s.commands
  · have hstatus : (replies s.commands).status = statusSuccess := hok
    have hr : sdInitCommand replies cmdIndex cmdArgument data s =
        (statusSuccess, (sdInitCommand replies cmdIndex cmdArgument data s).2) := by
      rw [← hstatus]
      rfl
    rw [hr]
    refine .done _ [⟨cmdIndex, cmdArgument, data, statusSuccess⟩] ?_ ?_ rfl rfl ?_
    · rw [← hstatus]
      rfl
    · exact SdClean.singleton fun he => he.2 rfl
    · intro i hi
      rw [Nat.lt_one_iff.1 hi]
      exact hok
  · refine .stopped _ [] ⟨cmdIndex, cmdArgument, data, (replies s.commands).status⟩ rfl ?_
      ⟨hindex, hok⟩ ?_
    · exact fun e he => absurd he (List.not_mem_nil)
    · intro h
      exact hok (h 0 Nat.one_pos)

/-- What is done behind a break without a command. -/
theorem SdChain.keep {r : HpmStatus × SdInitSession} (h : SdChain replies n s r)
    {f : SdInitSession → SdInitSession} (hlog : ∀ s, (f s).log = s.log)
    (hcommands : ∀ s, (f s).commands = s.commands) :
    SdChain replies n s (hpmBreakIf r fun s => (statusSuccess, f s)) := by
  cases h with
  | done s' es hl hclean hlength hc hok =>
    simp only [hpmBreakIf, ne_eq, not_true, if_false]
    exact .done _ es (by rw [hlog, hl]) hclean hlength (by rw [hcommands, hc]) hok
  | stopped s' es e hl hclean hfailed hfail =>
    simp only [hpmBreakIf, hfailed.2, ne_eq, not_false_eq_true, if_true]
    exact .stopped s' es e hl hclean hfailed hfail

/-- The card has no part in what a chain is. -/
theorem SdChain.of_card {r : HpmStatus × SdInitSession} {card : SdInitCard}
    (h : SdChain replies n { s with card := card } r) : SdChain replies n s r := by
  cases h with
  | done s' es hl hclean hlength hc hok => exact .done s' es hl hclean hlength hc hok
  | stopped s' es e hl hclean hfailed hfail => exact .stopped s' es e hl hclean hfailed hfail

/-- Two chains with a break between them. -/
theorem SdChain.trans {r : HpmStatus × SdInitSession} (h : SdChain replies n s r)
    {next : SdInitSession → HpmStatus × SdInitSession} (hnext : ∀ s, SdChain replies m s (next s)) :
    SdChain replies (n + m) s (hpmBreakIf r next) := by
  cases h with
  | done s' es hl hclean hlength hc hok =>
    simp only [hpmBreakIf, ne_eq, not_true, if_false]
    have hall : (∀ i < m, SdOk replies (s'.commands + i)) →
        ∀ i < n + m, SdOk replies (s.commands + i) := by
      intro h i hi
      by_cases hin : i < n
      · exact hok i hin
      · have := h (i - n) (by omega)
        rwa [hc, show s.commands + n + (i - n) = s.commands + i by omega] at this
    have hback : (∀ i < n + m, SdOk replies (s.commands + i)) →
        ∀ i < m, SdOk replies (s'.commands + i) := by
      intro h i hi
      rw [hc, Nat.add_assoc]
      exact h (n + i) (by omega)
    generalize hr : next s' = r'
    have hchain := hnext s'
    rw [hr] at hchain
    cases hchain with
    | done s'' es' hl' hclean' hlength' hc' hok' =>
      refine .done s'' (es ++ es') ?_ (hclean.append hclean') ?_ ?_ (hall hok')
      · rw [hl', hl, List.append_assoc]
      · rw [List.length_append, hlength, hlength']
      · rw [hc', hc, Nat.add_assoc]
    | stopped s'' es' e hl' hclean' hfailed' hfail' =>
      refine .stopped s'' (es ++ es') e ?_ (hclean.append hclean') hfailed' ?_
      · rw [hl', hl]
        simp
      · exact fun h => hfail' (hback h)
  | stopped s' es e hl hclean hfailed hfail =>
    simp only [hpmBreakIf, hfailed.2, ne_eq, not_false_eq_true, if_true]
    refine .stopped s' es e hl hclean hfailed fun h => hfail fun i hi => h i (by omega)

/-- A chain only adds to the log, and a chain of some commands adds one at least. -/
theorem SdChain.appends {r : HpmStatus × SdInitSession} (h : SdChain replies n s r) :
    ∃ es, r.2.log = s.log ++ es ∧ (0 < n → es ≠ []) := by
  cases h with
  | done s' es hl hclean hlength hc hok =>
    refine ⟨es, hl, ?_⟩
    rintro hn rfl
    simp at hlength
    omega
  | stopped s' es e hl hclean hfailed hfail => exact ⟨es ++ [e], hl, by simp⟩

/-- A chain that all commands of succeed. -/
theorem SdChain.ok {r : HpmStatus × SdInitSession} (h : SdChain replies n s r)
    (hok : ∀ i < n, SdOk replies (s.commands + i)) (hclean : SdClean s.log) :
    r.1 = statusSuccess ∧ SdClean r.2.log ∧ r.2.commands = s.commands + n := by
  cases h with
  | done s' es hl hes hlength hc hall =>
    refine ⟨rfl, ?_, hc⟩
    rw [show (statusSuccess, s').2.log = s.log ++ es from hl]
    exact hclean.append hes
  | stopped s' es e hl hes hfailed hfail => exact absurd hok hfail

/-- A chain with a command that fails. -/
theorem SdChain.fail {r : HpmStatus × SdInitSession} (h : SdChain replies n s r)
    (hfail : ¬ ∀ i < n, SdOk replies (s.commands + i)) (hclean : SdClean s.log) :
    r.1 ≠ statusSuccess ∧ SdStopped r.1 r.2.log := by
  cases h with
  | done s' es hl hes hlength hc hall => exact absurd hall hfail
  | stopped s' es e hl hes hfailed _ =>
    refine ⟨hfailed.2, s.log ++ es, e, ?_, hclean.append hes, hfailed, rfl⟩
    rw [show (e.status, s').2.log = s.log ++ (es ++ [e]) from hl, List.append_assoc]

/-- A chain reports as asked. -/
theorem SdChain.reports {r : HpmStatus × SdInitSession} (h : SdChain replies n s r)
    (hclean : SdClean s.log) : SdReports (some r.1) r.2.log := by
  by_cases hok : ∀ i < n, SdOk replies (s.commands + i)
  · exact (h.ok hok hclean).2.1.reports _
  · exact (h.fail hok hclean).2.reports

end Chains

section Functions

variable (replies : Nat → SdInitReply) (s : SdInitSession)

theorem sdmmcSendApplicationCommand_chain :
    SdChain replies 1 s (sdmmcSendApplicationCommand replies s) :=
  sdInitCommand_chain replies sdmmcCmdAppCmd (by decide) _ none s

/-- Two commands, of which the second is not sent when the first one fails. -/
theorem sdAppCmdSendCondOp_chain (ocr : BitVec 32) :
    SdChain replies 2 s (sdAppCmdSendCondOp replies ocr s) :=
  (sdmmcSendApplicationCommand_chain replies s).trans
    (sdInitCommand_chain replies sdAcmdSdSendOpCond (by decide) ocr none)

theorem sdAllSendCid_chain : SdChain replies 1 s (sdAllSendCid replies s) :=
  (sdInitCommand_chain replies sdCmdAllSendCid (by decide) 0 none s).keep (fun _ => rfl)
    fun _ => rfl

theorem sdSendRca_chain : SdChain replies 1 s (sdSendRca replies s) :=
  (sdInitCommand_chain replies sdCmdSendRelativeAddr (by decide) 0 none s).keep (fun _ => rfl)
    fun _ => rfl

theorem sdSendCsd_chain : SdChain replies 1 s (sdSendCsd replies s) :=
  (sdInitCommand_chain replies sdCmdSendCsd (by decide) _ none s).keep (fun _ => rfl)
    fun _ => rfl

theorem sdSelectCard_chain : SdChain replies 1 s (sdSelectCard replies s) :=
  sdInitCommand_chain replies sdmmcCmdSelectCard (by decide) _ none s

/-- Two commands, of which the second is not sent when the first one fails. -/
theorem sdSendScr_chain : SdChain replies 2 s (sdSendScr replies s) := by
  apply (sdmmcSendApplicationCommand_chain replies s).trans (m := 1)
  intro s
  apply (sdInitCommand_chain replies sdAcmdSendScr (by decide) 0 _ s).keep
  · exact fun _ => rfl
  · exact fun _ => rfl

/-- Two commands, of which the second is not sent when the first one fails. -/
theorem sdSetBusWidth_chain : SdChain replies 2 s (sdSetBusWidth replies sdmmcBusWidth4bit s) :=
  (sdmmcSendApplicationCommand_chain replies s).trans
    (sdInitCommand_chain replies sdAcmdSetBusWidth (by decide) 2 none)

theorem sdSetBusTiming_chain : SdChain replies 1 s (sdSetBusTiming replies s) := by
  have hswitch := sdInitCommand_chain replies sdCmdSwitch (by decide)
    (sdSwitchArgument sdSwitchFunctionModeSet sdSwitchFunctionGroupAccessMode
      sdTimingSdr25Highspeed) (some ⟨64, 1, 0, 0⟩) s
  have hfunction : SdChain replies 1 s (sdSwitchFunction replies sdSwitchFunctionModeSet
      sdSwitchFunctionGroupAccessMode sdTimingSdr25Highspeed s) := by
    rw [sdSwitchFunction, if_neg (by decide)]
    apply hswitch.keep
    · exact fun _ => rfl
    · exact fun _ => rfl
  exact hfunction.keep (fun _ => rfl) fun _ => rfl

/-- Four commands with the bus width, and two without. -/
theorem sdConfigure_chain : ∃ n, 0 < n ∧ SdChain replies n s (sdConfigure replies s) := by
  have htail : ∀ s, SdChain replies (1 + 1) s
      (hpmBreakIf (sdmmcSetBlockSize replies sdmmcBlockSizeDefault s) fun s =>
        sdSetBusTiming replies s) := fun s =>
    (sdInitCommand_chain replies sdmmcCmdSetBlockLength (by decide) _ none s).trans
      (sdSetBusTiming_chain replies)
  by_cases hwide : s.card.registers.sdFlags.support4bitWidth
  · refine ⟨2 + (1 + 1), by decide, ?_⟩
    have hwiden : SdChain replies 2 s (sdWiden replies s) := by
      simp only [sdWiden, hwide, if_true]
      exact (sdSetBusWidth_chain replies s).keep (fun _ => rfl) fun _ => rfl
    exact hwiden.trans htail
  · refine ⟨1 + 1, by decide, ?_⟩
    simp only [sdConfigure, sdWiden, hwide]
    exact htail s

end Functions

/-! ## From the selection on -/

section Identify

variable (replies : Nat → SdInitReply) {s : SdInitSession}

/-- Commands follow the bus width, the block length and the timing. -/
theorem sdConfigure_appends (s : SdInitSession) :
    ∃ es, (sdConfigure replies s).2.log = s.log ++ es ∧ es ≠ [] := by
  obtain ⟨n, hn, hchain⟩ := sdConfigure_chain replies s
  obtain ⟨es, hlog, hne⟩ := hchain.appends
  exact ⟨es, hlog, hne hn⟩

/-- Commands follow the selection. -/
theorem sdSendScr_appends (s : SdInitSession) :
    ∃ es, (sdConfigure replies (sdSendScr replies s).2).2.log = s.log ++ es ∧ es ≠ [] := by
  obtain ⟨es, hscr, -⟩ := (sdSendScr_chain replies s).appends
  obtain ⟨es', hrest, hne⟩ := sdConfigure_appends replies (sdSendScr replies s).2
  refine ⟨es ++ es', ?_, by simp [hne]⟩
  rw [hrest, hscr, List.append_assoc]

/-- The three commands before the selection. -/
def sdIdentified (s : SdInitSession) : HpmStatus × SdInitSession :=
  hpmBreakIf (sdAllSendCid replies s) fun s =>
    hpmBreakIf (sdSendRca replies s) fun s => sdSendCsd replies s

/-- The identification, from the card's own number to its registers. -/
theorem sdIdentified_chain (s : SdInitSession) :
    SdChain replies (1 + (1 + 1)) s (sdIdentified replies s) :=
  (sdAllSendCid_chain replies s).trans fun s =>
    (sdSendRca_chain replies s).trans fun s => sdSendCsd_chain replies s

/-- Breaking off at a failure is associative, so that chains of commands can be cut anywhere. -/
theorem hpmBreakIf_assoc (r : HpmStatus × SdInitSession)
    (f g : SdInitSession → HpmStatus × SdInitSession) :
    hpmBreakIf (hpmBreakIf r f) g = hpmBreakIf r fun s => hpmBreakIf (f s) g := by
  by_cases h : r.1 = statusSuccess <;> simp [hpmBreakIf, h]

/-- The sequence of the initialisation as two chains. -/
theorem sdIdentify_eq (s : SdInitSession) :
    sdIdentify replies s = hpmBreakIf (sdIdentified replies s) (sdSelected replies) := by
  simp only [sdIdentify, sdIdentified, hpmBreakIf_assoc]

/-- The selection and the SCR lose a failure of theirs. -/
theorem sdSelected_reports (hclean : SdClean s.log) :
    SdReports (some (sdSelected replies s).1) (sdSelected replies s).2.log ↔
      SdOk replies s.commands ∧ SdOk replies (s.commands + 1) ∧ SdOk replies (s.commands + 2) := by
  have hselect := sdSelectCard_chain replies s
  have hscr := sdSendScr_chain replies { (sdSelectCard replies s).2 with clock := sdClock25Mhz }
  by_cases hselected : SdOk replies s.commands
  · have hone : ∀ i < 1, SdOk replies (s.commands + i) := by
      intro i hi
      rwa [Nat.lt_one_iff.1 hi]
    obtain ⟨-, hclean₁, hcommands⟩ := hselect.ok hone hclean
    by_cases hread : SdOk replies (s.commands + 1) ∧ SdOk replies (s.commands + 2)
    · have htwo : ∀ i < 2, SdOk replies ((sdSelectCard replies s).2.commands + i) := by
        intro i hi
        rw [hcommands]
        obtain rfl | rfl : i = 0 ∨ i = 1 := by omega
        · exact hread.1
        · exact hread.2
      obtain ⟨-, hclean₂, -⟩ := hscr.ok htwo hclean₁
      obtain ⟨n, -, hconfigure⟩ := sdConfigure_chain replies (sdSendScr replies
        { (sdSelectCard replies s).2 with clock := sdClock25Mhz }).2
      exact iff_of_true (hconfigure.reports hclean₂) ⟨hselected, hread⟩
    · have htwo : ¬ ∀ i < 2, SdOk replies ((sdSelectCard replies s).2.commands + i) := by
        intro h
        rw [hcommands] at h
        exact hread ⟨h 0 (by decide), h 1 (by decide)⟩
      obtain ⟨-, hstopped⟩ := hscr.fail htwo hclean₁
      obtain ⟨es, hlog, hne⟩ := sdConfigure_appends replies (sdSendScr replies
        { (sdSelectCard replies s).2 with clock := sdClock25Mhz }).2
      have hlost : SdLost (sdSelected replies s).2.log := by
        rw [sdSelected, hlog]
        exact hstopped.append hne
      exact iff_of_false hlost.not_reports fun h => hread h.2
  · have hone : ¬ ∀ i < 1, SdOk replies (s.commands + i) := fun h => hselected (h 0 (by decide))
    obtain ⟨-, hstopped⟩ := hselect.fail hone hclean
    obtain ⟨es, hlog, hne⟩ := sdSendScr_appends replies
      { (sdSelectCard replies s).2 with clock := sdClock25Mhz }
    have hlost : SdLost (sdSelected replies s).2.log := by
      rw [sdSelected, hlog]
      exact hstopped.append hne
    exact iff_of_false hlost.not_reports fun h => hselected h.1

/-- Behind a probe that went well: the rest reports as asked where a card that is identified can be
selected and its SCR read, and loses a failure otherwise. -/
theorem sdIdentify_reports (hclean : SdClean s.log) :
    SdReports (some (sdIdentify replies s).1) (sdIdentify replies s).2.log ↔
      (SdOk replies s.commands → SdOk replies (s.commands + 1) → SdOk replies (s.commands + 2) →
        SdOk replies (s.commands + 3) ∧ SdOk replies (s.commands + 4) ∧
          SdOk replies (s.commands + 5)) := by
  have hidentified := sdIdentified_chain replies s
  rw [sdIdentify_eq]
  by_cases hok : ∀ i < 1 + (1 + 1), SdOk replies (s.commands + i)
  · obtain ⟨hstatus, hclean₁, hcommands⟩ := hidentified.ok hok hclean
    generalize sdIdentified replies s = r at hstatus hclean₁ hcommands
    rw [hpmBreakIf, if_neg (by simpa using hstatus)]
    have hthree : SdOk replies s.commands ∧ SdOk replies (s.commands + 1) ∧
        SdOk replies (s.commands + 2) :=
      ⟨hok 0 (by decide), hok 1 (by decide), hok 2 (by decide)⟩
    simp only [hthree, true_imp_iff]
    have hrest := sdSelected_reports replies hclean₁
    rw [hcommands] at hrest
    exact hrest
  · obtain ⟨hstatus, hstopped⟩ := hidentified.fail hok hclean
    rw [hpmBreakIf, if_pos hstatus]
    refine iff_of_true hstopped.reports fun h₀ h₁ h₂ => absurd ?_ hok
    intro i hi
    obtain rfl | rfl | rfl : i = 0 ∨ i = 1 ∨ i = 2 := by omega
    · exact h₀
    · exact h₁
    · exact h₂

/-- What has been issued stays. -/
theorem sdIdentify_appends (s : SdInitSession) :
    ∃ es, (sdIdentify replies s).2.log = s.log ++ es := by
  rw [sdIdentify_eq, hpmBreakIf]
  obtain ⟨es, hidentified, -⟩ := (sdIdentified_chain replies s).appends
  split
  · exact ⟨es, hidentified⟩
  · obtain ⟨es₁, hselect, -⟩ := (sdSelectCard_chain replies (sdIdentified replies s).2).appends
    obtain ⟨es₂, hrest, -⟩ := sdSendScr_appends replies
      { (sdSelectCard replies (sdIdentified replies s).2).2 with clock := sdClock25Mhz }
    refine ⟨es ++ (es₁ ++ es₂), ?_⟩
    rw [sdSelected, hrest, ← List.append_assoc, ← hidentified, ← List.append_assoc, ← hselect]

end Identify

/-! ## The probe -/

section Probe

variable (support1v8 : Bool) (replies : Nat → SdInitReply)

/-- How the loop ends, or where it is after the last round. -/
inductive SdLoopEnd (last : Nat) : Option HpmStatus × BitVec 32 × SdInitSession → Prop
  | waiting (recvOcr : BitVec 32) (s : SdInitSession) (hwaits : SdWaits replies last)
      (hclean : SdClean s.log) : SdLoopEnd last (none, recvOcr, s)
  | failed (n : Nat) (status : HpmStatus) (s : SdInitSession) (hwaits : SdWaits replies n)
      (hround : ¬ SdRound replies (n + 1)) (hstatus : status ≠ statusSuccess)
      (hstopped : SdStopped status s.log) : SdLoopEnd last (some status, sdRoundOcr replies n, s)
  | powered (n : Nat) (s : SdInitSession) (hwaits : SdWaits replies n)
      (hround : SdRound replies (n + 1))
      (hpower : cardPowerUpStatus (sdRoundOcr replies (n + 1)) = true) (hclean : SdClean s.log)
      (hcommands : s.commands = sdOpCondFirst replies + 2 * n + 4) :
      SdLoopEnd last (some statusSuccess, sdRoundOcr replies (n + 1), s)

/-- One more round in which the card is not powered up. -/
theorem SdWaits.succ {n : Nat} (h : SdWaits replies n) (hround : SdRound replies (n + 1))
    (hpower : cardPowerUpStatus (sdRoundOcr replies (n + 1)) = false) :
    SdWaits replies (n + 1) := by
  refine ⟨h.1, ?_⟩
  intro i hi
  rcases Nat.lt_succ_iff_lt_or_eq.1 hi with hi | rfl
  · exact h.2 i hi
  · exact ⟨hround, hpower⟩

/-- A card is waited for up to one round only. -/
theorem SdWaits.unique {n m : Nat} (hn : SdWaits replies n) (hm : SdWaits replies m)
    (hn' : SdRound replies (n + 1) → cardPowerUpStatus (sdRoundOcr replies (n + 1)) = true)
    (hm' : SdRound replies (m + 1) → cardPowerUpStatus (sdRoundOcr replies (m + 1)) = true) :
    n = m := by
  rcases Nat.lt_trichotomy n m with hlt | heq | hlt
  · obtain ⟨hround, hpower⟩ := hm.2 n hlt
    exact absurd (hn' hround) (by simp [hpower])
  · exact heq
  · obtain ⟨hround, hpower⟩ := hn.2 m hlt
    exact absurd (hm' hround) (by simp [hpower])

/-- A round of ACMD41. -/
theorem sdAppCmdSendCondOp_round (ocr : BitVec 32) {n : Nat} {s : SdInitSession}
    (hcommands : s.commands = sdOpCondFirst replies + 2 * n) (hclean : SdClean s.log) :
    (SdRound replies n ∧ (sdAppCmdSendCondOp replies ocr s).1 = statusSuccess ∧
        (sdAppCmdSendCondOp replies ocr s).2.response.w0 = sdRoundOcr replies n ∧
        (sdAppCmdSendCondOp replies ocr s).2.commands = sdOpCondFirst replies + 2 * (n + 1) ∧
        SdClean (sdAppCmdSendCondOp replies ocr s).2.log) ∨
      (¬ SdRound replies n ∧ (sdAppCmdSendCondOp replies ocr s).1 ≠ statusSuccess ∧
        SdStopped (sdAppCmdSendCondOp replies ocr s).1
          (sdAppCmdSendCondOp replies ocr s).2.log) := by
  have hchain := sdAppCmdSendCondOp_chain replies s ocr
  have hround : (∀ i < 2, SdOk replies (s.commands + i)) ↔ SdRound replies n := by
    rw [hcommands]
    constructor
    · exact fun h => ⟨h 0 (by decide), h 1 (by decide)⟩
    · intro h i hi
      obtain rfl | rfl : i = 0 ∨ i = 1 := by omega
      · exact h.1
      · exact h.2
  by_cases hr : SdRound replies n
  · obtain ⟨hstatus, hclean', hcommands'⟩ := hchain.ok (hround.2 hr) hclean
    refine .inl ⟨hr, hstatus, ?_, ?_, hclean'⟩
    · have hfirst : (sdmmcSendApplicationCommand replies s).1 = statusSuccess := by
        have := hr.1
        rw [← hcommands] at this
        exact this
      rw [sdAppCmdSendCondOp, hpmBreakIf, if_neg (by simpa using hfirst), sdRoundOcr, ← hcommands]
      rfl
    · rw [hcommands', hcommands, Nat.mul_add, Nat.add_assoc]
  · obtain ⟨hstatus, hstopped⟩ := hchain.fail (fun h => hr (hround.1 h)) hclean
    exact .inr ⟨hr, hstatus, hstopped⟩

/-- The loop over the operating conditions ends at the first card that is powered up, at a failure,
or when its rounds are over. -/
theorem sdOpCondLoop_end (rounds : Nat) {n : Nat} {s : SdInitSession}
    (hwaits : SdWaits replies n)
    (hcommands : s.commands = sdOpCondFirst replies + 2 * (n + 1)) (hclean : SdClean s.log) :
    SdLoopEnd replies (n + rounds)
      (sdOpCondLoop support1v8 replies rounds (sdRoundOcr replies n) s) := by
  induction rounds generalizing n s with
  | zero => exact .waiting _ _ hwaits hclean
  | succ rounds ih =>
    rw [sdOpCondLoop]
    rcases sdAppCmdSendCondOp_round replies (sdHostOcr support1v8) hcommands hclean with
      ⟨hround, hstatus, hocr, hcommands', hclean'⟩ | ⟨hround, hstatus, hstopped⟩
    · simp only [hstatus, hocr, ne_eq, not_true, if_false]
      by_cases hpower : cardPowerUpStatus (sdRoundOcr replies (n + 1)) = true
      · rw [if_pos hpower]
        exact .powered n _ hwaits hround hpower hclean' hcommands'
      · rw [if_neg hpower, Nat.add_comm rounds 1, ← Nat.add_assoc]
        exact ih (hwaits.succ replies hround (by simpa using hpower)) hcommands' hclean'
    · simp only [hstatus, ne_eq, not_false_eq_true, if_true]
      exact .failed n _ _ hwaits hround hstatus hstopped

/-- How the probe ends, or where it is after the last round. -/
inductive SdProbeEnd (last : Nat) : Option HpmStatus × SdInitSession → Prop
  | waiting (s : SdInitSession) (hwaits : SdWaits replies last) (hclean : SdClean s.log) :
      SdProbeEnd last (none, s)
  | early (status : HpmStatus) (s : SdInitSession) (hwaits : ∀ n, ¬ SdWaits replies n)
      (hstatus : status ≠ statusSuccess) (hstopped : SdStopped status s.log) :
      SdProbeEnd last (some status, s)
  | failed (n : Nat) (status : HpmStatus) (s : SdInitSession) (hwaits : SdWaits replies n)
      (hround : ¬ SdRound replies (n + 1)) (haccepts : sdAccepts support1v8 replies n = false)
      (hstatus : status ≠ statusSuccess) (hstopped : SdStopped status s.log) :
      SdProbeEnd last (some status, s)
  | lost (n : Nat) (status : HpmStatus) (s : SdInitSession) (hwaits : SdWaits replies n)
      (hround : ¬ SdRound replies (n + 1)) (haccepts : sdAccepts support1v8 replies n = true)
      (hlost : SdLost s.log) : SdProbeEnd last (some status, s)
  | unswitched (n : Nat) (status : HpmStatus) (s : SdInitSession) (hwaits : SdWaits replies n)
      (hround : SdRound replies (n + 1))
      (hpower : cardPowerUpStatus (sdRoundOcr replies (n + 1)) = true)
      (haccepts : sdAccepts support1v8 replies (n + 1) = true)
      (hswitch : ¬ SdOk replies (sdOpCondFirst replies + 2 * n + 4))
      (hstatus : status ≠ statusSuccess) (hstopped : SdStopped status s.log) :
      SdProbeEnd last (some status, s)
  | probed (k : Nat) (s : SdInitSession) (hprobed : SdProbed support1v8 replies k)
      (hclean : SdClean s.log) (hcommands : s.commands = k) :
      SdProbeEnd last (some statusSuccess, s)

/-- At 1.8 V one command is issued behind the loop. -/
theorem sdProbeVoltage_chain (status : HpmStatus) {recvOcr : BitVec 32} (s : SdInitSession)
    (haccepts : (support1v8 && switchingTo1v8Accepted recvOcr) = true) :
    SdChain replies 1 s (sdProbeVoltage support1v8 replies status recvOcr s) := by
  rw [sdProbeVoltage, if_pos haccepts]
  apply SdChain.keep
  · exact (sdInitCommand_chain replies sdCmdSwitch (by decide) 0 none _).of_card
  · exact fun _ => rfl
  · exact fun _ => rfl

/-- Otherwise none is. -/
theorem sdProbeVoltage_kept (status : HpmStatus) {recvOcr : BitVec 32} (s : SdInitSession)
    (haccepts : (support1v8 && switchingTo1v8Accepted recvOcr) = false) :
    (sdProbeVoltage support1v8 replies status recvOcr s).1 = status ∧
      (sdProbeVoltage support1v8 replies status recvOcr s).2.log = s.log ∧
      (sdProbeVoltage support1v8 replies status recvOcr s).2.commands = s.commands := by
  rw [sdProbeVoltage, if_neg (by simp [haccepts])]
  exact ⟨rfl, rfl, rfl⟩

/-- The probe is this loop behind its first command. -/
theorem sdProbeOpCond_end (rounds : Nat) {s : SdInitSession} (hstarted : SdStarted replies)
    (hcommands : s.commands = sdOpCondFirst replies) (hclean : SdClean s.log) :
    SdProbeEnd support1v8 replies rounds (sdProbeOpCond support1v8 replies rounds s) := by
  rw [sdProbeOpCond]
  rcases sdAppCmdSendCondOp_round replies (sdHostOcr support1v8) (n := 0) hcommands hclean with
    ⟨hround, hstatus, hocr, hcommands', hclean'⟩ | ⟨hround, hstatus, hstopped⟩
  · simp only [hstatus, hocr, ne_eq, not_true, if_false]
    have hwaits : SdWaits replies 0 :=
      ⟨⟨hstarted, hround⟩, fun i hi => absurd hi (Nat.not_lt_zero i)⟩
    have hend := sdOpCondLoop_end support1v8 replies rounds hwaits hcommands' hclean'
    rw [Nat.zero_add] at hend
    generalize sdOpCondLoop support1v8 replies rounds _ _ = r at hend
    cases hend with
    | waiting recvOcr s hwaits hclean => exact .waiting s hwaits hclean
    | failed n status s hwaits hround hstatus hstopped =>
      cases haccepts : sdAccepts support1v8 replies n with
      | true =>
        obtain ⟨es, hlog, hne⟩ :=
          (sdProbeVoltage_chain support1v8 replies status s haccepts).appends
        refine .lost n _ _ hwaits hround haccepts ?_
        rw [hlog]
        exact hstopped.append (hne Nat.one_pos)
      | false =>
        obtain ⟨hstatus', hlog, -⟩ := sdProbeVoltage_kept support1v8 replies status s haccepts
        refine .failed n _ _ hwaits hround haccepts ?_ ?_
        · rwa [hstatus']
        · rwa [hstatus', hlog]
    | powered n s hwaits hround hpower hclean hcommands =>
      cases haccepts : sdAccepts support1v8 replies (n + 1) with
      | true =>
        have hswitched := sdProbeVoltage_chain support1v8 replies statusSuccess s haccepts
        by_cases hswitch : SdOk replies (sdOpCondFirst replies + 2 * n + 4)
        · have hone : ∀ i < 1, SdOk replies (s.commands + i) := by
            intro i hi
            rw [Nat.lt_one_iff.1 hi, hcommands]
            exact hswitch
          obtain ⟨hstatus', hclean', hcommands'⟩ := hswitched.ok hone hclean
          simp only [hstatus']
          refine .probed _ _ ⟨n, hwaits, hround, hpower, fun _ => hswitch, rfl⟩ hclean' ?_
          rw [hcommands', hcommands, haccepts]
          rfl
        · have hone : ¬ ∀ i < 1, SdOk replies (s.commands + i) := by
            intro h
            have := h 0 Nat.one_pos
            rw [hcommands] at this
            exact hswitch this
          obtain ⟨hstatus', hstopped⟩ := hswitched.fail hone hclean
          exact .unswitched n _ _ hwaits hround hpower haccepts hswitch hstatus' hstopped
      | false =>
        obtain ⟨hstatus', hlog, hcommands'⟩ :=
          sdProbeVoltage_kept support1v8 replies statusSuccess s haccepts
        simp only [hstatus']
        refine .probed _ _ ⟨n, hwaits, hround, hpower, ?_, rfl⟩ (by rwa [hlog]) ?_
        · intro h
          exact absurd h (by simp [haccepts])
        · rw [hcommands', hcommands, haccepts]
          rfl
  · simp only [hstatus, ne_eq, not_false_eq_true, if_true]
    exact .early _ _ (fun n h => hround h.1.2) hstatus hstopped

/-- The reset, whose CMD8 may fail. -/
theorem sdProbeBusVoltage_end (rounds : Nat) {s : SdInitSession} (hcommands : s.commands = 0)
    (hlog : s.log = []) :
    SdProbeEnd support1v8 replies rounds (sdProbeBusVoltage support1v8 replies rounds s) := by
  have hclean : SdClean s.log := by
    rw [hlog]
    exact fun e he => absurd he List.not_mem_nil
  have hidle : ∀ s, SdChain replies 1 s (sdmmcGoIdleState replies s) :=
    sdInitCommand_chain replies sdmmcCmdGoIdleState (by decide) 0 none
  have hone : ∀ s : SdInitSession, (∀ i < 1, SdOk replies (s.commands + i)) ↔
      SdOk replies s.commands := by
    intro s
    constructor
    · exact fun h => h 0 Nat.one_pos
    · intro h i hi
      rwa [Nat.lt_one_iff.1 hi]
  rw [sdProbeBusVoltage]
  by_cases hfirst : SdOk replies 0
  · obtain ⟨hstatus, hclean₁, hcommands₁⟩ :=
      (hidle s).ok ((hone s).2 (by rwa [hcommands])) hclean
    simp only [hstatus, ne_eq, not_true, if_false]
    generalize sdmmcGoIdleState replies s = r at hclean₁ hcommands₁
    have hcond : (sdSendIfCond replies r.2).1 = sdIfCondStatus (replies 1) := by
      rw [sdSendIfCond, hcommands₁, hcommands]
    have hclean₂ : SdClean (sdSendIfCond replies r.2).2.log :=
      hclean₁.append (SdClean.singleton fun he => he.1 rfl)
    have hcommands₂ : (sdSendIfCond replies r.2).2.commands = 2 := by
      rw [show (sdSendIfCond replies r.2).2.commands = r.2.commands + 1 from rfl, hcommands₁,
        hcommands]
    rw [hcond]
    by_cases hsupport : sdIfCondStatus (replies 1) = statusSdmmcCardNotSupport
    · have hopcond : sdOpCondFirst replies = 3 := if_pos hsupport
      rw [if_pos hsupport]
      by_cases hsecond : SdOk replies 2
      · obtain ⟨hstatus', hclean₃, hcommands₃⟩ :=
          (hidle _).ok ((hone _).2 (by rwa [hcommands₂])) hclean₂
        simp only [hstatus', not_true, if_false]
        apply sdProbeOpCond_end
        · exact ⟨hfirst, fun _ => hsecond⟩
        · rw [hcommands₃, hcommands₂, hopcond]
        · exact hclean₃
      · obtain ⟨hstatus', hstopped⟩ :=
          (hidle _).fail (fun h => hsecond (by rw [← hcommands₂]; exact (hone _).1 h)) hclean₂
        simp only [hstatus', not_false_eq_true, if_true]
        exact .early _ _ (fun n h => hsecond (h.1.1.2 hopcond)) hstatus' hstopped
    · have hopcond : sdOpCondFirst replies = 2 := if_neg hsupport
      rw [if_neg hsupport]
      apply sdProbeOpCond_end
      · exact ⟨hfirst, fun h => absurd h (by rw [hopcond]; decide)⟩
      · rw [hcommands₂, hopcond]
      · exact hclean₂
  · obtain ⟨hstatus, hstopped⟩ :=
      (hidle s).fail (fun h => hfirst (by rw [← hcommands]; exact (hone s).1 h)) hclean
    simp only [hstatus, ne_eq, not_false_eq_true, if_true]
    exact .early _ _ (fun n h => hfirst h.1.1.1) hstatus hstopped

end Probe

/-! ## The contract of `sd_card_init` -/

/-- What is asked of every call, however many rounds the card is waited for. -/
def SdCardInitHolds (support1v8 : Bool) (replies : Nat → SdInitReply) (s : SdInitSession) : Prop :=
  ∀ rounds, SdReports (sdCardInit support1v8 replies rounds s).1
    (sdCardInit support1v8 replies rounds s).2.log

section Contract

variable {support1v8 : Bool} {replies : Nat → SdInitReply}

/-- The call behind its probe. -/
def sdBehindProbe (replies : Nat → SdInitReply) :
    Option HpmStatus × SdInitSession → Option HpmStatus × SdInitSession
  | (none, s) => (none, s)
  | (some status, s) =>
    if status ≠ statusSuccess then (some status, s)
    else (some (sdIdentify replies s).1, (sdIdentify replies s).2)

/-- A failure that is lost in the probe stays lost. -/
theorem sdBehindProbe_lost {status : HpmStatus} {s : SdInitSession} (hlost : SdLost s.log) :
    SdLost (sdBehindProbe replies (some status, s)).2.log := by
  rw [sdBehindProbe]
  split
  · exact hlost
  · obtain ⟨es, hlog⟩ := sdIdentify_appends replies s
    rw [show (some (sdIdentify replies s).1, (sdIdentify replies s).2).2.log = _ from hlog]
    exact hlost.append es

/-- Behind a probe that failed nothing more is sent. -/
theorem sdBehindProbe_stopped {status : HpmStatus} {s : SdInitSession}
    (hstatus : status ≠ statusSuccess) (hstopped : SdStopped status s.log) :
    SdReports (sdBehindProbe replies (some status, s)).1
      (sdBehindProbe replies (some status, s)).2.log := by
  rw [sdBehindProbe, if_pos hstatus]
  exact hstopped.reports

/-- A card is probed with one number of commands only. -/
theorem SdProbed.unique {k k' : Nat} (h : SdProbed support1v8 replies k)
    (h' : SdProbed support1v8 replies k') : k = k' := by
  obtain ⟨n, hwaits, -, hpower, -, rfl⟩ := h
  obtain ⟨n', hwaits', -, hpower', -, rfl⟩ := h'
  rw [hwaits.unique replies hwaits' (fun _ => hpower) fun _ => hpower']

/-- The condition follows from the reports. -/
theorem sdInitFits_of_reports
    (h : ∀ rounds, ∃ r, SdProbeEnd support1v8 replies rounds r ∧
      SdReports (sdBehindProbe replies r).1 (sdBehindProbe replies r).2.log) :
    SdInitFits support1v8 replies := by
  refine ⟨?_, ?_⟩
  · intro n hwaits hround
    have hended : SdRound replies (n + 1) →
        cardPowerUpStatus (sdRoundOcr replies (n + 1)) = true := fun h => absurd h hround
    obtain ⟨r, hend, hreports⟩ := h (n + 1)
    cases hend with
    | waiting s hwaits' hclean => exact absurd (hwaits'.2 n (Nat.lt_succ_self n)).1 hround
    | early status s hwaits' hstatus hstopped => exact absurd hwaits (hwaits' n)
    | failed m status s hwaits' hround' haccepts hstatus hstopped =>
      rwa [hwaits.unique replies hwaits' hended fun h => absurd h hround']
    | lost m status s hwaits' hround' haccepts hlost =>
      exact absurd hreports (sdBehindProbe_lost hlost).not_reports
    | unswitched m status s hwaits' hround' hpower haccepts hswitch hstatus hstopped =>
      rw [hwaits.unique replies hwaits' hended fun _ => hpower] at hround
      exact absurd hround' hround
    | probed k s hprobed hclean hcommands =>
      obtain ⟨m, hwaits', hround', hpower, -⟩ := hprobed
      rw [hwaits.unique replies hwaits' hended fun _ => hpower] at hround
      exact absurd hround' hround
  · intro k hprobed
    obtain ⟨n, hwaits, hround, hpower, hswitched, -⟩ := id hprobed
    obtain ⟨r, hend, hreports⟩ := h (n + 1)
    cases hend with
    | waiting s hwaits' hclean =>
      exact absurd (hwaits'.2 n (Nat.lt_succ_self n)).2 (by simp [hpower])
    | early status s hwaits' hstatus hstopped => exact absurd hwaits (hwaits' n)
    | failed m status s hwaits' hround' haccepts hstatus hstopped =>
      rw [hwaits.unique replies hwaits' (fun _ => hpower) fun h => absurd h hround'] at hround
      exact absurd hround hround'
    | lost m status s hwaits' hround' haccepts hlost =>
      exact absurd hreports (sdBehindProbe_lost hlost).not_reports
    | unswitched m status s hwaits' hround' hpower' haccepts hswitch hstatus hstopped =>
      rw [hwaits.unique replies hwaits' (fun _ => hpower) fun _ => hpower'] at hswitched
      exact absurd (hswitched haccepts) hswitch
    | probed k' s hprobed' hclean hcommands =>
      rw [sdBehindProbe, if_neg (not_not.2 rfl), sdIdentify_reports replies hclean,
        hcommands, hprobed'.unique hprobed] at hreports
      exact hreports

/-- And is enough for them. -/
theorem SdInitFits.reports (h : SdInitFits support1v8 replies) {rounds : Nat}
    {r : Option HpmStatus × SdInitSession} (hend : SdProbeEnd support1v8 replies rounds r) :
    SdReports (sdBehindProbe replies r).1 (sdBehindProbe replies r).2.log := by
  cases hend with
  | waiting s hwaits hclean => exact hclean.reports none
  | early status s hwaits hstatus hstopped => exact sdBehindProbe_stopped hstatus hstopped
  | failed n status s hwaits hround haccepts hstatus hstopped =>
    exact sdBehindProbe_stopped hstatus hstopped
  | lost n status s hwaits hround haccepts hlost =>
    exact absurd haccepts (by simp [h.opCond n hwaits hround])
  | unswitched n status s hwaits hround hpower haccepts hswitch hstatus hstopped =>
    exact sdBehindProbe_stopped hstatus hstopped
  | probed k s hprobed hclean hcommands =>
    rw [sdBehindProbe, if_neg (not_not.2 rfl), sdIdentify_reports replies hclean, hcommands]
    exact h.selected k hprobed

/-- The probe starts from the narrow bus and the slow clock. -/
theorem sdCardInit_eq (rounds : Nat) (s : SdInitSession) :
    sdCardInit support1v8 replies rounds s =
      sdBehindProbe replies (sdProbeBusVoltage support1v8 replies rounds
        { s with busWidth := sdxcBusWidth1bit, clock := sdmmcClock400Khz }) := by
  rw [sdCardInit]
  generalize sdProbeBusVoltage support1v8 replies rounds _ = r
  obtain ⟨_ | status, s⟩ := r
  · rfl
  · simp only [sdBehindProbe]

end Contract

/-- A call reports the first command that failed where the card stays at its voltage in a round
that fails, and where it can be selected and its SCR be read.

The statuses of `sd_select_card` and `sd_send_scr` are overwritten by the next command's, and the
break in the inner loop of the voltage probe leaves that loop only.  Every other status is tested
before the next command is issued.  What the card answers decides the way through the commands, so
the condition is on the answers, whatever the number of rounds. -/
theorem sdCardInitHolds_iff (support1v8 : Bool) (replies : Nat → SdInitReply) (card : SdInitCard)
    (response : Words4) (busWidth clock : BitVec 32) :
    SdCardInitHolds support1v8 replies (.start card response busWidth clock) ↔
      SdInitFits support1v8 replies := by
  have hend := fun rounds => sdProbeBusVoltage_end support1v8 replies rounds
    (s := { SdInitSession.start card response busWidth clock with
      busWidth := sdxcBusWidth1bit, clock := sdmmcClock400Khz }) rfl rfl
  simp only [SdCardInitHolds, sdCardInit_eq]
  constructor
  · exact fun h => sdInitFits_of_reports fun rounds => ⟨_, hend rounds, h rounds⟩
  · exact fun h rounds => h.reports (hend rounds)

/-- A card that answers every command but the selection. -/
def sdUnselectedReplies (i : Nat) : SdInitReply :=
  ⟨if i = 9 then statusInvalidArgument else statusSuccess, ⟨0x800000AA, 0, 0, 0⟩, fun _ => 0⟩

/-- The selection fails, and success is returned. -/
theorem sdCardInitHolds_unselected :
    ¬ ∀ support1v8 replies card response busWidth clock,
      SdCardInitHolds support1v8 replies (.start card response busWidth clock) := by
  intro h
  have hreports := h false sdUnselectedReplies ⟨0, 0, 0, 0, SdCard.zero, [], .v3v3⟩
    Words4.zero 0 0 1
  have hclean := hreports.success (by decide)
  exact hclean ⟨sdmmcCmdSelectCard, 0x80000000, none, statusInvalidArgument⟩ (by decide) (by decide)

end HpmSdk.Sd
