import HpmSdk.Common
import HpmSdk.Foundation.Registers
import HpmSdk.Foundation.While

set_option autoImplicit false

/-!
# SD cards: switching to 1.8 V (`hpm_sdmmc_host.c`)

`sdmmchost_switch_to_1v8` waits for the data lines to go low, stops and restarts the clock, and
waits for them to go high.  Its guard rejects every host that there is.  Behind it a counter that
runs out wraps, which is taken for success, and one that reaches its last value in time is taken
for a timeout.

The readings of the lines decide how the two loops end, and their end decides what is returned; the
guard in front of them is the wrong way round.
-/

namespace HpmSdk.Sd

open HpmSdk.Foundation

/-! ## Data -/

/-- `SDXC_PSTATE_DAT_3_0`. -/
def pstateDat30 : RegField := ⟨20, 4⟩

/-- `SDXC_SYS_CTRL_SD_CLK_EN`. -/
def sysCtrlSdClkEn : RegField := ⟨2, 1⟩

/-- The bit of `HPM_CONCTL` that inverts the clock of a card. -/
def conctlInverseClk : RegField := ⟨28, 1⟩

/-- `HPM_SDXC0`. -/
def hpmSdxc0 : BitVec 32 := 0xF2030000

/-- `sdmmc_host_t`, as far as the function reads it; `delay_ms` is in the log of the delays. -/
structure SdmmcLineHost where
  base : BitVec 32
  deriving DecidableEq, Repr

/-- What the function writes: `SYS_CTRL` of the controller of the host, the two words of
`HPM_CONCTL`, and the delays. -/
structure SdmmcLineRegs where
  sysCtrl : BitVec 32
  conctlCtrl4 : BitVec 32
  conctlCtrl5 : BitVec 32
  delaysMs : List (BitVec 32)
  deriving DecidableEq, Repr

/-- `sdxc_get_data3_0_level`. -/
def sdxcGetData30Level (pstate : BitVec 32) : BitVec 32 := pstateDat30.get pstate

/-- A bit of a word is set or cleared. -/
def enableBit (f : RegField) (word : BitVec 32) (enable : Bool) : BitVec 32 :=
  if enable then word ||| f.mask 32 else word &&& ~~~f.mask 32

/-- `sdxc_enable_inverse_clock`. -/
def sdxcEnableInverseClock (base : BitVec 32) (enable : Bool) (regs : SdmmcLineRegs) :
    SdmmcLineRegs :=
  if base = hpmSdxc0 then
    { regs with conctlCtrl4 := enableBit conctlInverseClk regs.conctlCtrl4 enable }
  else { regs with conctlCtrl5 := enableBit conctlInverseClk regs.conctlCtrl5 enable }

/-- `sdxc_enable_sd_clock`; the bit reads as it was written. -/
def sdxcEnableSdClock (enable : Bool) (regs : SdmmcLineRegs) : SdmmcLineRegs :=
  { regs with sysCtrl := enableBit sysCtrlSdClkEn regs.sysCtrl enable }

/-- `host->delay_ms`. -/
def hostDelayMs (ms : BitVec 32) (regs : SdmmcLineRegs) : SdmmcLineRegs :=
  { regs with delaysMs := regs.delaysMs ++ [ms] }

/-! ## The function -/

/-- What `delay_cnt` starts from. -/
def sdmmcSwitchPolls : Nat := 1000000

/-- `do { .. } while (goesOn(level) && (delay_cnt-- > 0U))`, where the counter has the value
`delayCnt`: the number of the next read, and the counter behind the loop. -/
def sdmmchostPollLevel (goesOn : BitVec 32 → Bool) (pstate : Nat → BitVec 32) :
    Nat → Nat → Nat × BitVec 32
  | reads, 0 =>
    -- Zero is decremented as well, whether or not it ends the loop.
    if goesOn (sdxcGetData30Level (pstate reads)) then (reads + 1, 0 - 1) else (reads + 1, 0)
  | reads, delayCnt + 1 =>
    if goesOn (sdxcGetData30Level (pstate reads)) then
      sdmmchostPollLevel goesOn pstate (reads + 1) delayCnt
    else (reads + 1, BitVec.ofNat 32 (delayCnt + 1))

/-- The clock is stopped, and restarted after 5 ms. -/
def sdmmchostRestartClock (host : SdmmcLineHost) (regs : SdmmcLineRegs) : SdmmcLineRegs :=
  hostDelayMs 1 (sdxcEnableSdClock true (sdxcEnableInverseClock host.base true
    (hostDelayMs 5 (sdxcEnableSdClock false (sdxcEnableInverseClock host.base false regs)))))

/-- `sdmmchost_switch_to_1v8` behind its guard; `pstate` is what each read of `PSTATE` gives. -/
def sdmmchostSwitchLines (pstate : Nat → BitVec 32) (host : SdmmcLineHost)
    (regs : SdmmcLineRegs) : HpmStat × SdmmcLineRegs :=
  let (reads, delayCnt) := sdmmchostPollLevel (fun level => decide (level ≠ 0)) pstate 0
    sdmmcSwitchPolls
  if delayCnt < 1 then (.timeout, regs)
  else
    let regs := sdmmchostRestartClock host regs
    let (_, delayCnt) := sdmmchostPollLevel (fun level => decide (level = 0)) pstate reads
      sdmmcSwitchPolls
    if delayCnt < 1 then (.timeout, regs) else (.success, regs)

/-- `sdmmchost_switch_to_1v8`; there is no result where `NULL` is dereferenced. -/
def sdmmchostSwitchTo1v8 (pstate : Nat → BitVec 32) (host : Option SdmmcLineHost)
    (regs : SdmmcLineRegs) : Option (HpmStat × SdmmcLineRegs) :=
  if host ≠ none then some (.invalidArgument, regs)
  else host.map fun host => sdmmchostSwitchLines pstate host regs

/-! ## The contract -/

/-- The data lines are low at a read. -/
def LinesLow (pstate : Nat → BitVec 32) (k : Nat) : Prop := sdxcGetData30Level (pstate k) = 0

instance (pstate : Nat → BitVec 32) : DecidablePred (LinesLow pstate) :=
  fun k => inferInstanceAs (Decidable (sdxcGetData30Level (pstate k) = 0))

/-- The lines are low within `first` reads, and behind the first such read high within `second`
reads. -/
def LinesSwitch (pstate : Nat → BitVec 32) (first second : Nat) : Prop :=
  ∃ k < first, FirstFails (fun m => ¬ LinesLow pstate m) k ∧
    ∃ j < second, ¬ LinesLow pstate (k + 1 + j)

/-- What is asked behind the guard: success if and only if the lines go low and high within the
limits, and otherwise a timeout. -/
def SwitchReports (pstate : Nat → BitVec 32) (stat : HpmStat) : Prop :=
  (LinesSwitch pstate sdmmcSwitchPolls sdmmcSwitchPolls → stat = .success) ∧
    (¬ LinesSwitch pstate sdmmcSwitchPolls sdmmcSwitchPolls → stat = .timeout)

/-- What is asked: a host gets the report, and `NULL` is rejected without being dereferenced. -/
def SwitchRight (pstate : Nat → BitVec 32) (host : Option SdmmcLineHost)
    (result : Option (HpmStat × SdmmcLineRegs)) : Prop :=
  ∃ stat regs, result = some (stat, regs) ∧
    match host with
    | none => stat = .invalidArgument
    | some _ => SwitchReports pstate stat

/-! ## Polling -/

/-- The loop goes on behind the read that is `m` behind number `reads`. -/
def PollGoesOn (goesOn : BitVec 32 → Bool) (pstate : Nat → BitVec 32) (reads m : Nat) : Prop :=
  goesOn (sdxcGetData30Level (pstate (reads + m))) = true

section Poll

variable {goesOn : BitVec 32 → Bool} {pstate : Nat → BitVec 32}

instance (reads : Nat) : DecidablePred (PollGoesOn goesOn pstate reads) :=
  fun m => inferInstanceAs (Decidable (goesOn (sdxcGetData30Level (pstate (reads + m))) = true))

/-- One poll more, from one reading later. -/
theorem pollGoesOn_succ_iff (reads m : Nat) :
    PollGoesOn goesOn pstate reads (m + 1) ↔ PollGoesOn goesOn pstate (reads + 1) m := by
  unfold PollGoesOn
  rw [Nat.add_right_comm, Nat.add_assoc]

/-- A level that ends the loop leaves what is left of the counter. -/
theorem sdmmchostPollLevel_of_ends : ∀ {p n : Nat} (reads : Nat), p ≤ n →
    FirstFails (PollGoesOn goesOn pstate reads) p →
    sdmmchostPollLevel goesOn pstate reads n = (reads + p + 1, BitVec.ofNat 32 (n - p))
  | 0, 0, reads, _, h => by
    rw [sdmmchostPollLevel]
    exact if_neg h.1
  | 0, n + 1, reads, _, h => by
    rw [sdmmchostPollLevel]
    exact if_neg h.1
  | p + 1, n + 1, reads, hle, h => by
    obtain ⟨hfirst, hrest⟩ := (firstFails_succ_iff (pollGoesOn_succ_iff reads)).mp h
    have hlevel : goesOn (sdxcGetData30Level (pstate reads)) = true := hfirst
    rw [sdmmchostPollLevel, if_pos hlevel,
      sdmmchostPollLevel_of_ends (reads + 1) (Nat.le_of_succ_le_succ hle) hrest,
      Nat.add_right_comm reads 1 p, Nat.add_sub_add_right]
    rfl

/-- A level that never ends it wraps the counter. -/
theorem sdmmchostPollLevel_of_expires : ∀ (n reads : Nat),
    (∀ m ≤ n, PollGoesOn goesOn pstate reads m) →
    sdmmchostPollLevel goesOn pstate reads n = (reads + n + 1, 0 - 1)
  | 0, reads, h => by
    rw [sdmmchostPollLevel]
    exact if_pos (h 0 (Nat.le_refl 0))
  | n + 1, reads, h => by
    have hrest : ∀ m ≤ n, PollGoesOn goesOn pstate (reads + 1) m := fun m hm =>
      (pollGoesOn_succ_iff reads m).mp (h (m + 1) (Nat.succ_le_succ hm))
    have hlevel : goesOn (sdxcGetData30Level (pstate reads)) = true := h 0 n.succ.zero_le
    rw [sdmmchostPollLevel, if_pos hlevel,
      sdmmchostPollLevel_of_expires n (reads + 1) hrest, Nat.add_right_comm reads 1 n]
    rfl

/-- The counter is taken for one that has run out if and only if the level comes at the last
read. -/
theorem sdmmchostPollLevel_timeout_iff {n : Nat} (hn : n < 2 ^ 32) (reads : Nat) :
    (sdmmchostPollLevel goesOn pstate reads n).2 < 1 ↔
      FirstFails (PollGoesOn goesOn pstate reads) n := by
  rcases firstFails_or_forall (PollGoesOn goesOn pstate reads) n with ⟨p, hle, hfirst⟩ | hall
  · rw [sdmmchostPollLevel_of_ends reads hle hfirst, BitVec.lt_def, BitVec.toNat_ofNat,
      Nat.mod_eq_of_lt ((Nat.sub_le n p).trans_lt hn)]
    change n - p < 1 ↔ _
    rw [Nat.lt_one_iff, Nat.sub_eq_zero_iff_le]
    constructor
    · intro hge
      rwa [Nat.le_antisymm hge hle]
    · intro hlast
      exact (hlast.eq hfirst).le
  · rw [sdmmchostPollLevel_of_expires n reads hall]
    refine iff_of_false (show ¬ (0 - 1 : BitVec 32) < 1 by decide) fun hlast => ?_
    exact hlast.1 (hall n (Nat.le_refl n))

end Poll

/-! ## The two polls -/

section Lines

variable {pstate : Nat → BitVec 32} {host : SdmmcLineHost} {regs : SdmmcLineRegs}

/-- The first poll waits for the lines to go low. -/
theorem lowPoll_iff (m : Nat) :
    PollGoesOn (fun level => decide (level ≠ 0)) pstate 0 m ↔ ¬ LinesLow pstate m := by
  unfold PollGoesOn
  rw [decide_eq_true_iff, Nat.zero_add]
  exact Iff.rfl

/-- The second poll waits for them to go high again. -/
theorem highPoll_iff (reads m : Nat) :
    PollGoesOn (fun level => decide (level = 0)) pstate reads m ↔
      LinesLow pstate (reads + m) :=
  decide_eq_true_iff

/-- The first poll is taken for a timeout. -/
theorem sdmmchostSwitchLines_timeout
    (h : FirstFails (fun m => ¬ LinesLow pstate m) sdmmcSwitchPolls) :
    (sdmmchostSwitchLines pstate host regs).1 = .timeout := by
  have hpoll := (sdmmchostPollLevel_timeout_iff (by decide) 0).mpr
    ((firstFails_congr lowPoll_iff).mpr h)
  unfold sdmmchostSwitchLines
  dsimp only
  rw [if_pos hpoll]

/-- The second poll decides where the first one is not taken for a timeout. -/
theorem sdmmchostSwitchLines_second {reads : Nat} {delayCnt : BitVec 32}
    (hpoll : sdmmchostPollLevel (fun level => decide (level ≠ 0)) pstate 0 sdmmcSwitchPolls =
      (reads, delayCnt)) (hcnt : ¬ delayCnt < 1) :
    (sdmmchostSwitchLines pstate host regs).1 = .timeout ∧
        FirstFails (fun m => LinesLow pstate (reads + m)) sdmmcSwitchPolls ∨
      (sdmmchostSwitchLines pstate host regs).1 = .success ∧
        ¬ FirstFails (fun m => LinesLow pstate (reads + m)) sdmmcSwitchPolls := by
  have hiff : (sdmmchostPollLevel (fun level => decide (level = 0)) pstate reads
      sdmmcSwitchPolls).2 < 1 ↔
        FirstFails (fun m => LinesLow pstate (reads + m)) sdmmcSwitchPolls :=
    (sdmmchostPollLevel_timeout_iff (by decide) reads).trans
      (firstFails_congr (highPoll_iff reads))
  unfold sdmmchostSwitchLines
  rw [hpoll]
  dsimp only
  rw [if_neg hcnt]
  split
  · next h => exact Or.inl ⟨rfl, hiff.mp h⟩
  · next h => exact Or.inr ⟨rfl, mt hiff.mpr h⟩

/-- Behind the first read that is low, what is asked is about the reads that follow. -/
theorem linesSwitch_iff {k : Nat} (h : FirstFails (fun m => ¬ LinesLow pstate m) k)
    {first second : Nat} : LinesSwitch pstate first second ↔
      k < first ∧ ∃ j < second, ¬ LinesLow pstate (k + 1 + j) := by
  constructor
  · rintro ⟨k', hk', hfirst, hsecond⟩
    obtain rfl := hfirst.eq h
    exact ⟨hk', hsecond⟩
  · rintro ⟨hk, hsecond⟩
    exact ⟨k, hk, h, hsecond⟩

/-- The report is right for a level that never goes low if and only if the second poll sees the
lines high at its last read. -/
theorem switchReports_of_never (h : ∀ m ≤ sdmmcSwitchPolls, ¬ LinesLow pstate m) :
    SwitchReports pstate (sdmmchostSwitchLines pstate host regs).1 ↔
      FirstFails (fun m => LinesLow pstate (sdmmcSwitchPolls + 1 + m)) sdmmcSwitchPolls := by
  have hnone : ¬ LinesSwitch pstate sdmmcSwitchPolls sdmmcSwitchPolls := by
    rintro ⟨k, hk, hfirst, -⟩
    exact hfirst.1 (h k hk.le)
  have hpoll := sdmmchostPollLevel_of_expires sdmmcSwitchPolls 0
    fun m hm => (lowPoll_iff m).mpr (h m hm)
  rw [Nat.zero_add] at hpoll
  rcases @sdmmchostSwitchLines_second pstate host regs _ _ hpoll
    (show ¬ (0 - 1 : BitVec 32) < 1 by decide) with ⟨hstat, hlast⟩ | ⟨hstat, hlast⟩
  · rw [hstat]
    exact iff_of_true ⟨fun hswitch => absurd hswitch hnone, fun _ => rfl⟩ hlast
  · rw [hstat]
    refine iff_of_false (fun hreports => ?_) hlast
    cases hreports.2 hnone

/-- It is right for one that does before the last read if and only if the second poll sees the
lines high. -/
theorem switchReports_of_low {k : Nat} (hk : k < sdmmcSwitchPolls)
    (h : FirstFails (fun m => ¬ LinesLow pstate m) k) :
    SwitchReports pstate (sdmmchostSwitchLines pstate host regs).1 ↔
      ∃ j ≤ sdmmcSwitchPolls, ¬ LinesLow pstate (k + 1 + j) := by
  have hiff : LinesSwitch pstate sdmmcSwitchPolls sdmmcSwitchPolls ↔
      ∃ j < sdmmcSwitchPolls, ¬ LinesLow pstate (k + 1 + j) :=
    (linesSwitch_iff h).trans (and_iff_right hk)
  have hpoll := sdmmchostPollLevel_of_ends 0 hk.le
    ((firstFails_congr lowPoll_iff).mpr h)
  rw [Nat.zero_add] at hpoll
  have hcnt : ¬ BitVec.ofNat 32 (sdmmcSwitchPolls - k) < 1 := by
    have hlt : sdmmcSwitchPolls - k < 2 ^ 32 := (Nat.sub_le _ _).trans_lt (by decide)
    rw [BitVec.lt_def, BitVec.toNat_ofNat, Nat.mod_eq_of_lt hlt]
    exact Nat.not_lt.mpr (Nat.sub_pos_of_lt hk)
  unfold SwitchReports
  rw [hiff]
  rcases @sdmmchostSwitchLines_second pstate host regs _ _ hpoll hcnt with
    ⟨hstat, hlast⟩ | ⟨hstat, hlast⟩
  · rw [hstat]
    refine iff_of_true ⟨?_, fun _ => rfl⟩ ⟨sdmmcSwitchPolls, Nat.le_refl _, hlast.1⟩
    rintro ⟨j, hj, hhigh⟩
    exact absurd (hlast.2 j hj) hhigh
  · rw [hstat]
    constructor
    · intro hreports
      by_contra hnone
      have hearly : ¬ ∃ j < sdmmcSwitchPolls, ¬ LinesLow pstate (k + 1 + j) :=
        fun ⟨j, hj, hhigh⟩ => hnone ⟨j, hj.le, hhigh⟩
      cases hreports.2 hearly
    · rintro ⟨j, hj, hhigh⟩
      refine ⟨fun _ => rfl, fun hnone => absurd ?_ hlast⟩
      have hlow : ∀ m < sdmmcSwitchPolls, LinesLow pstate (k + 1 + m) := by
        intro m hm
        by_contra hm'
        exact hnone ⟨m, hm, hm'⟩
      rcases Nat.lt_or_eq_of_le hj with hlt | rfl
      · exact absurd (hlow j hlt) hhigh
      · exact ⟨hhigh, hlow⟩

/-- Behind the guard the report is right if and only if the lines go low at the last read of the
first poll, or before it and high by the last read of the second; or never low, with the lines high
at the last read of the second. -/
theorem switchReports_iff : SwitchReports pstate (sdmmchostSwitchLines pstate host regs).1 ↔
    (∃ k ≤ sdmmcSwitchPolls, FirstFails (fun m => ¬ LinesLow pstate m) k ∧
      (k < sdmmcSwitchPolls → ∃ j ≤ sdmmcSwitchPolls, ¬ LinesLow pstate (k + 1 + j))) ∨
    (∀ m ≤ sdmmcSwitchPolls, ¬ LinesLow pstate m) ∧
      FirstFails (fun m => LinesLow pstate (sdmmcSwitchPolls + 1 + m)) sdmmcSwitchPolls := by
  rcases firstFails_or_forall (fun m => ¬ LinesLow pstate m) sdmmcSwitchPolls with
    ⟨k, hle, hfirst⟩ | hall
  · have hsome : ¬ ∀ m ≤ sdmmcSwitchPolls, ¬ LinesLow pstate m := fun hall =>
      hfirst.1 (hall k hle)
    rw [or_iff_left fun h => hsome h.1]
    rcases Nat.lt_or_eq_of_le hle with hlt | rfl
    · rw [switchReports_of_low hlt hfirst]
      constructor
      · intro hhigh
        exact ⟨k, hle, hfirst, fun _ => hhigh⟩
      · rintro ⟨k', -, hfirst', hhigh⟩
        obtain rfl := hfirst'.eq hfirst
        exact hhigh hlt
    · rw [sdmmchostSwitchLines_timeout hfirst]
      refine iff_of_true ⟨fun hswitch => ?_, fun _ => rfl⟩
        ⟨sdmmcSwitchPolls, hle, hfirst, fun hlt => absurd hlt (Nat.lt_irrefl _)⟩
      exact absurd ((linesSwitch_iff hfirst).mp hswitch).1 (Nat.lt_irrefl _)
  · rw [switchReports_of_never hall, or_iff_right]
    · exact (and_iff_right hall).symm
    · rintro ⟨k, hle, hfirst, -⟩
      exact hfirst.1 (hall k hle)

end Lines

/-! ## The guard -/

/-- **No call is right: a host is rejected, and `NULL` is dereferenced.**

The guard is the wrong way round, so for a host nothing behind it is run, and the status it
returns is neither of the two that tell how the switch ended; and for `NULL` the first access
behind the guard has no result. -/
theorem sdmmchostSwitchTo1v8_never (pstate : Nat → BitVec 32) (host : Option SdmmcLineHost)
    (regs : SdmmcLineRegs) :
    ¬ SwitchRight pstate host (sdmmchostSwitchTo1v8 pstate host regs) := by
  rintro ⟨stat, regs', hsome, hstat⟩
  cases host with
  | none => cases hsome
  | some host =>
    cases hsome
    have hswitch : ¬ LinesSwitch pstate sdmmcSwitchPolls sdmmcSwitchPolls := fun h => by
      cases hstat.1 h
    cases hstat.2 hswitch

/-- Lines that are low at the first read and high at the next. -/
def promptPstate (k : Nat) : BitVec 32 := if k = 0 then 0 else 0xF00000

/-- A host whose lines do what they should is rejected. -/
theorem sdmmchostSwitchTo1v8_rejects : ¬ ∀ (pstate : Nat → BitVec 32)
    (host : Option SdmmcLineHost) (regs : SdmmcLineRegs),
    SwitchRight pstate host (sdmmchostSwitchTo1v8 pstate host regs) := by
  intro h
  obtain ⟨stat, regs', hsome, hreports⟩ := h promptPstate (some ⟨hpmSdxc0⟩) ⟨0, 0, 0, []⟩
  cases hsome
  have hprompt : LinesSwitch promptPstate sdmmcSwitchPolls sdmmcSwitchPolls :=
    ⟨0, by decide, ⟨not_not.mpr rfl, fun m hm => absurd hm m.not_lt_zero⟩, 0, by decide,
      by decide⟩
  cases hreports.1 hprompt

end HpmSdk.Sd
