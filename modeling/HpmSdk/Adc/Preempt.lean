import HpmSdk.Common
import HpmSdk.Foundation.Registers

set_option autoImplicit false

/-!
# ADC: triggers of the preemption mode (`hpm_adc16_drv.c`, `hpm_adc12_drv.c`)

A trigger has a word of `CONFIG`, with a slot of eight bits for each of up to four conversions and
the number of conversions less 1 in its two upper bits.  Both drivers fill the slots in a loop;
`adc12_set_preempt_config` alone sets the number.  Reading beyond the four entries of the
configuration and writing beyond the twelve words of `CONFIG` have no result, which is `none`.

The loop has an invariant, `AdcHolds`: the slots so far hold their conversions, and the field of the
number what the driver puts there.  Both drivers are instances of one loop, which differs in the
number only.
-/

namespace HpmSdk.Adc

open HpmSdk.Foundation

/-- `ADC_SOC_MAX_TRIG_CH_LEN`. -/
def adcSocMaxTrigChLen : Nat := 4

/-- The words of `CONFIG`. -/
def adcConfigWords : Nat := 12

/-- `ADC16_CONFIG_TRIG_LEN`, `ADC12_CONFIG_TRIG_LEN`. -/
def configTrigLen : RegField := ⟨30, 2⟩

/-- `.._CONFIG_INTEN0` and those behind it. -/
def configInten (i : Fin adcSocMaxTrigChLen) : RegField := ⟨5 + i.val * 8, 1⟩

/-- `.._CONFIG_CHAN0` and those behind it. -/
def configChan (i : Fin adcSocMaxTrigChLen) : RegField := ⟨0 + i.val * 8, 5⟩

/-- `adc16_trig_config_t`, `adc12_trig_config_t`. -/
structure AdcTrigConfig where
  inten : Fin adcSocMaxTrigChLen → Bool
  adcCh : Fin adcSocMaxTrigChLen → BitVec 8
  trigCh : BitVec 8
  trigLen : BitVec 8

/-- `CONFIG` of `ADC16_Type` and `ADC12_Type`. -/
abbrev AdcConfigRegs := Fin adcConfigWords → BitVec 32

/-- What an iteration puts into the word, with the field that the driver sets each time. -/
def AdcTrigConfig.slot (config : AdcTrigConfig) (lenField : BitVec 32)
    (i : Fin adcSocMaxTrigChLen) : BitVec 32 :=
  lenField ||| (BitVec.ofBool (config.inten i)).setWidth 32 <<< (configInten i).first |||
    (config.adcCh i).setWidth 32 <<< (configChan i).first

/-- The loop of both functions from the slot `i` on, with `n` conversions left: `some none` is a
channel above the last one. -/
def adcPreemptLoop (lastChannel : Nat) (lenField : BitVec 32) (config : AdcTrigConfig) :
    (n i : Nat) → BitVec 32 → Option (Option (BitVec 32))
  | 0, _, temp => some (some temp)
  | n + 1, i, temp =>
    if h : i < adcSocMaxTrigChLen then
      if lastChannel < (config.adcCh ⟨i, h⟩).toNat then some none
      else adcPreemptLoop lastChannel lenField config n (i + 1)
        (temp ||| config.slot lenField ⟨i, h⟩)
    else none

/-- The body of both functions. -/
def adcSetPreemptConfig (lastChannel : Nat) (lenField : BitVec 32) (regs : AdcConfigRegs)
    (config : AdcTrigConfig) : Option (HpmStat × AdcConfigRegs) :=
  (adcPreemptLoop lastChannel lenField config config.trigLen.toNat 0 0).bind fun
    | none => some (.invalidArgument, regs)
    | some temp =>
      if h : config.trigCh.toNat < adcConfigWords then
        some (.success, Function.update regs ⟨config.trigCh.toNat, h⟩ temp)
      else none

/-- `adc16_set_preempt_config`, which does not set the number of conversions. -/
def adc16SetPreemptConfig (regs : AdcConfigRegs) (config : AdcTrigConfig) :
    Option (HpmStat × AdcConfigRegs) :=
  adcSetPreemptConfig 7 0 regs config

/-- `adc12_set_preempt_config`. -/
def adc12SetPreemptConfig (regs : AdcConfigRegs) (config : AdcTrigConfig) :
    Option (HpmStat × AdcConfigRegs) :=
  adcSetPreemptConfig 18 (configTrigLen.set (config.trigLen.setWidth 32 - 1)) regs config

/-! ## The contract -/

/-- The conversions that a word of `CONFIG` stands for. -/
def adcDecode (word : BitVec 32) : List (BitVec 8 × Bool) :=
  ((List.finRange adcSocMaxTrigChLen).take ((configTrigLen.get word).toNat + 1)).map fun i =>
    (((configChan i).get word).setWidth 8, decide ((configInten i).get word ≠ 0))

/-- The conversions that are asked for. -/
def AdcTrigConfig.conversions (config : AdcTrigConfig) : List (BitVec 8 × Bool) :=
  ((List.finRange adcSocMaxTrigChLen).take config.trigLen.toNat).map fun i =>
    (config.adcCh i, config.inten i)

/-- What is asked of a call: it has a result; a list that it accepts has conversions, not more than
there are slots, and the word of the trigger stands for them; and a list that it rejects leaves the
words. -/
structure AdcPreemptMeets (regs : AdcConfigRegs) (config : AdcTrigConfig)
    (r : Option (HpmStat × AdcConfigRegs)) : Prop where
  returns : r.isSome
  accepted : ∀ regs', r = some (.success, regs') →
    0 < config.trigLen.toNat ∧ config.trigLen.toNat ≤ adcSocMaxTrigChLen ∧
      ∃ h : config.trigCh.toNat < adcConfigWords,
        adcDecode (regs' ⟨config.trigCh.toNat, h⟩) = config.conversions
  rejected : ∀ stat regs', r = some (stat, regs') → stat ≠ .success → regs' = regs

/-- One of the channels that the loop reads is above the last one. -/
def AdcTrigConfig.Refused (config : AdcTrigConfig) (lastChannel : Nat) : Prop :=
  ∃ i : Fin adcSocMaxTrigChLen,
    i.val < config.trigLen.toNat ∧ lastChannel < (config.adcCh i).toNat

instance (config : AdcTrigConfig) (lastChannel : Nat) : Decidable (config.Refused lastChannel) :=
  inferInstanceAs (Decidable (∃ _, _))

/-! ## The slots of a word -/

section Fields

variable (i j : Fin adcSocMaxTrigChLen)

/-- The channels of two slots do not overlap. -/
theorem chan_apart (hij : i ≠ j) : (configChan i).Apart (configChan j) := by
  unfold RegField.Apart configChan
  dsimp only
  omega

/-- The interrupt enables of two slots do not overlap. -/
theorem inten_apart (hij : i ≠ j) : (configInten i).Apart (configInten j) := by
  unfold RegField.Apart configInten
  dsimp only
  omega

theorem chan_apart_inten : (configChan i).Apart (configInten j) := by
  unfold RegField.Apart configChan configInten
  dsimp only
  omega

/-- The number of conversions lies above the slots. -/
theorem trigLen_apart_chan : configTrigLen.Apart (configChan i) := by
  have hi : i.val < 4 := i.isLt
  unfold RegField.Apart configChan configTrigLen
  dsimp only
  omega

theorem trigLen_apart_inten : configTrigLen.Apart (configInten i) := by
  have hi : i.val < 4 := i.isLt
  unfold RegField.Apart configInten configTrigLen
  dsimp only
  omega

theorem chan_inWord : (configChan i).first + (configChan i).width ≤ 32 := by
  have hi : i.val < 4 := i.isLt
  unfold configChan
  dsimp only
  omega

theorem inten_inWord : (configInten i).first + (configInten i).width ≤ 32 := by
  have hi : i.val < 4 := i.isLt
  unfold configInten
  dsimp only
  omega

end Fields

section Slots

variable {config : AdcTrigConfig} {lenField word : BitVec 32} {lastChannel i : Nat}

/-- What a driver sets as the number is beside the slots. -/
structure AdcLenField (lenField : BitVec 32) : Prop where
  chan : ∀ i, (configChan i).get lenField = 0#32
  inten : ∀ i, (configInten i).get lenField = 0#32

theorem adcLenField_zero : AdcLenField 0 :=
  ⟨fun _ => RegField.get_zero, fun _ => RegField.get_zero⟩

theorem adcLenField_set (x : BitVec 32) : AdcLenField (configTrigLen.set x) :=
  ⟨fun i => RegField.get_set_of_apart _ (trigLen_apart_chan i).symm,
    fun i => RegField.get_set_of_apart _ (trigLen_apart_inten i).symm⟩

theorem inten_lt (b : Bool) : ((BitVec.ofBool b).setWidth 32).toNat < 2 ^ 1 := by
  cases b <;> decide

theorem chan_lt {ch : BitVec 8} (hlast : lastChannel < 32) (hch : ch.toNat ≤ lastChannel) :
    (ch.setWidth 32).toNat < 2 ^ 5 := by
  rw [BitVec.toNat_setWidth_of_le (by decide)]
  exact hch.trans_lt hlast

/-- A slot as fields, for a channel that the driver lets through. -/
theorem slot_eq (k : Fin adcSocMaxTrigChLen) (hlast : lastChannel < 32)
    (hch : (config.adcCh k).toNat ≤ lastChannel) :
    config.slot lenField k = lenField |||
      (configInten k).set ((BitVec.ofBool (config.inten k)).setWidth 32) |||
      (configChan k).set ((config.adcCh k).setWidth 32) := by
  unfold AdcTrigConfig.slot
  rw [RegField.set_of_lt _ (inten_lt _), RegField.set_of_lt _ (chan_lt hlast hch)]

/-- A word that holds the first `i` conversions and nothing in the other slots. -/
structure AdcHolds (config : AdcTrigConfig) (lenField : BitVec 32) (i : Nat) (word : BitVec 32) :
    Prop where
  chan : ∀ k : Fin adcSocMaxTrigChLen,
    (configChan k).get word = if k.val < i then (config.adcCh k).setWidth 32 else 0#32
  inten : ∀ k : Fin adcSocMaxTrigChLen, (configInten k).get word =
    if k.val < i then (BitVec.ofBool (config.inten k)).setWidth 32 else 0#32
  len : configTrigLen.get word = if 0 < i then configTrigLen.get lenField else 0#32

/-- The loop starts with a word in which nothing is set. -/
theorem AdcHolds.start : AdcHolds config lenField 0 0 :=
  ⟨fun _ => RegField.get_zero, fun _ => RegField.get_zero, RegField.get_zero⟩

/-- A field of the slots takes what an iteration sets in it. -/
theorem or_ite_of_eq {i k : Nat} {x y : BitVec 32} (h : k = i → y = x) (hne : k ≠ i → y = 0#32) :
    (if k < i then x else 0#32) ||| y = if k < i + 1 then x else 0#32 := by
  rcases lt_trichotomy k i with hlt | heq | hgt
  · rw [if_pos hlt, if_pos (by omega), hne hlt.ne, BitVec.or_zero]
  · rw [if_neg heq.not_lt, if_pos (by omega), h heq, BitVec.zero_or]
  · rw [if_neg hgt.not_gt, if_neg (by omega), hne hgt.ne', BitVec.or_zero]

/-- An iteration of the loop puts one more conversion into the word. -/
theorem AdcHolds.step (h : AdcHolds config lenField i word) (hlen : AdcLenField lenField)
    (hi : i < adcSocMaxTrigChLen) (hlast : lastChannel < 32)
    (hch : (config.adcCh ⟨i, hi⟩).toNat ≤ lastChannel) :
    AdcHolds config lenField (i + 1) (word ||| config.slot lenField ⟨i, hi⟩) := by
  rw [slot_eq _ hlast hch]
  refine ⟨fun k => ?_, fun k => ?_, ?_⟩
  · rw [RegField.get_or, h.chan k, RegField.get_or, RegField.get_or, hlen.chan k,
      RegField.get_set_of_apart _ (chan_apart_inten k _), BitVec.zero_or, BitVec.zero_or]
    refine or_ite_of_eq (fun heq => ?_) fun hne => ?_
    · obtain rfl : k = ⟨i, hi⟩ := Fin.ext heq
      exact RegField.get_set_of_lt _ (chan_inWord _) (chan_lt hlast hch)
    · exact RegField.get_set_of_apart _ (chan_apart _ _ fun heq => hne (congrArg Fin.val heq))
  · rw [RegField.get_or, h.inten k, RegField.get_or, RegField.get_or, hlen.inten k,
      RegField.get_set_of_apart _ (chan_apart_inten _ k).symm, BitVec.zero_or, BitVec.or_zero]
    refine or_ite_of_eq (fun heq => ?_) fun hne => ?_
    · obtain rfl : k = ⟨i, hi⟩ := Fin.ext heq
      exact RegField.get_set_of_lt _ (inten_inWord _) (inten_lt _)
    · exact RegField.get_set_of_apart _ (inten_apart _ _ fun heq => hne (congrArg Fin.val heq))
  · rw [RegField.get_or, h.len, RegField.get_or, RegField.get_or,
      RegField.get_set_of_apart _ (trigLen_apart_inten _),
      RegField.get_set_of_apart _ (trigLen_apart_chan _), BitVec.or_zero, BitVec.or_zero,
      if_pos (Nat.succ_pos i)]
    split_ifs
    · exact BitVec.or_self
    · exact BitVec.zero_or

/-- How the loop ends: at a channel above the last one, beyond the entries, or with a word that
holds the conversions. -/
theorem adcPreemptLoop_spec (config : AdcTrigConfig) (hlen : AdcLenField lenField)
    (hlast : lastChannel < 32) :
    ∀ (n i : Nat) (word : BitVec 32), i ≤ adcSocMaxTrigChLen → AdcHolds config lenField i word →
      (∃ k : Fin adcSocMaxTrigChLen,
          i ≤ k.val ∧ k.val < i + n ∧ lastChannel < (config.adcCh k).toNat) ∧
        adcPreemptLoop lastChannel lenField config n i word = some none ∨
      (∀ k : Fin adcSocMaxTrigChLen,
          i ≤ k.val → k.val < i + n → (config.adcCh k).toNat ≤ lastChannel) ∧
        (adcSocMaxTrigChLen < i + n ∧
            adcPreemptLoop lastChannel lenField config n i word = none ∨
          i + n ≤ adcSocMaxTrigChLen ∧ ∃ word',
            adcPreemptLoop lastChannel lenField config n i word = some (some word') ∧
              AdcHolds config lenField (i + n) word')
  | 0, i, word, hi, h => .inr ⟨fun k hk hk' => absurd hk' (by omega), .inr ⟨hi, word, rfl, h⟩⟩
  | n + 1, i, word, hi, h => by
    rw [adcPreemptLoop]
    by_cases hin : i < adcSocMaxTrigChLen
    · rw [dif_pos hin]
      by_cases hch : lastChannel < (config.adcCh ⟨i, hin⟩).toNat
      · rw [if_pos hch]
        exact .inl ⟨⟨⟨i, hin⟩, le_rfl, by simp, hch⟩, rfl⟩
      · rw [if_neg hch]
        have hle := Nat.le_of_not_lt hch
        have hrest := adcPreemptLoop_spec config hlen hlast n (i + 1) _ hin
          (h.step hlen hin hlast hle)
        rw [show i + 1 + n = i + (n + 1) by omega] at hrest
        rcases hrest with ⟨⟨k, hk, hk', hgt⟩, heq⟩ | ⟨hall, hend⟩
        · exact .inl ⟨⟨k, by omega, hk', hgt⟩, heq⟩
        · refine .inr ⟨fun k hk hk' => ?_, hend⟩
          rcases hk.eq_or_lt with rfl | hlt
          · exact hle
          · exact hall k hlt hk'
    · rw [dif_neg hin]
      refine .inr ⟨fun k hk _ => ?_, .inl ⟨by omega, rfl⟩⟩
      have hk' := k.isLt
      omega

end Slots

/-! ## When a call is right -/

section Meets

variable {regs : AdcConfigRegs} {config : AdcTrigConfig} {lenField word : BitVec 32}
  {lastChannel : Nat}

/-- What the converter reads of a word has one conversion more than the field says. -/
theorem adcDecode_length (word : BitVec 32) :
    (adcDecode word).length = (configTrigLen.get word).toNat + 1 := by
  have hlt : (configTrigLen.get word).toNat < 4 := RegField.get_lt word (by decide)
  unfold adcDecode
  rw [List.length_map, List.length_take, List.length_finRange]
  exact Nat.min_eq_left hlt

theorem conversions_length (h : config.trigLen.toNat ≤ adcSocMaxTrigChLen) :
    config.conversions.length = config.trigLen.toNat := by
  unfold AdcTrigConfig.conversions
  rw [List.length_map, List.length_take, List.length_finRange]
  exact Nat.min_eq_left h

/-- A word with the conversions stands for them exactly where its number is theirs. -/
theorem AdcHolds.decode_iff (h : AdcHolds config lenField config.trigLen.toNat word)
    (hle : config.trigLen.toNat ≤ adcSocMaxTrigChLen) :
    adcDecode word = config.conversions ↔
      (configTrigLen.get word).toNat + 1 = config.trigLen.toNat := by
  constructor
  · intro heq
    rw [← adcDecode_length, heq, conversions_length hle]
  · intro hlen
    unfold adcDecode AdcTrigConfig.conversions
    rw [hlen]
    refine List.map_congr_left fun k hk => ?_
    have hlt : k.val < config.trigLen.toNat := by
      obtain ⟨j, hj, rfl⟩ := List.mem_take_iff_getElem.mp hk
      rw [List.getElem_finRange]
      exact hj.trans_le (Nat.min_le_left _ _)
    refine Prod.ext ?_ ?_
    · dsimp only
      rw [h.chan, if_pos hlt, BitVec.setWidth_setWidth_of_le _ (by decide), BitVec.setWidth_eq]
    · dsimp only
      rw [h.inten, if_pos hlt]
      cases config.inten k <;> decide

/-- A list that is rejected leaves the words. -/
theorem adcPreemptMeets_rejected :
    AdcPreemptMeets regs config (some (.invalidArgument, regs)) := by
  refine ⟨rfl, fun regs' hr => ?_, fun stat regs' hr _ => ?_⟩
  · cases hr
  · cases hr
    rfl

/-- When a driver is right, by the number that it sets. -/
theorem adcSetPreemptConfig_meets_iff (hlen : AdcLenField lenField) (hlast : lastChannel < 32) :
    AdcPreemptMeets regs config (adcSetPreemptConfig lastChannel lenField regs config) ↔
      config.Refused lastChannel ∨
        config.trigCh.toNat < adcConfigWords ∧ 0 < config.trigLen.toNat ∧
          config.trigLen.toNat ≤ adcSocMaxTrigChLen ∧
            (configTrigLen.get lenField).toNat + 1 = config.trigLen.toNat := by
  have hspec := adcPreemptLoop_spec config hlen hlast config.trigLen.toNat 0 0
    (Nat.zero_le _) .start
  rw [Nat.zero_add] at hspec
  unfold adcSetPreemptConfig
  rcases hspec with ⟨⟨k, -, hk, hgt⟩, heq⟩ | ⟨hall, ⟨hmore, heq⟩ | ⟨hle, word, heq, hword⟩⟩
  · rw [heq]
    exact iff_of_true adcPreemptMeets_rejected (.inl ⟨k, hk, hgt⟩)
  · rw [heq]
    refine iff_of_false (fun h => Bool.false_ne_true h.returns) ?_
    rintro (⟨k, hk, hgt⟩ | ⟨-, -, hle, -⟩)
    · exact hgt.not_ge (hall k (Nat.zero_le _) hk)
    · omega
  · have hnot : ¬ config.Refused lastChannel := fun ⟨k, hk, hgt⟩ =>
      hgt.not_ge (hall k (Nat.zero_le _) hk)
    rw [heq, Option.bind_some]
    dsimp only
    by_cases hch : config.trigCh.toNat < adcConfigWords
    · rw [dif_pos hch]
      constructor
      · intro h
        obtain ⟨hpos, -, _, hdecode⟩ := h.accepted _ rfl
        rw [Function.update_self, hword.decode_iff hle, hword.len, if_pos hpos] at hdecode
        exact .inr ⟨hch, hpos, hle, hdecode⟩
      · rintro (href | ⟨-, hpos, -, hnum⟩)
        · exact absurd href hnot
        · refine ⟨rfl, fun regs' hr => ?_, fun stat regs' hr hne => ?_⟩
          · cases hr
            refine ⟨hpos, hle, hch, ?_⟩
            rw [Function.update_self, hword.decode_iff hle, hword.len, if_pos hpos]
            exact hnum
          · cases hr
            exact absurd rfl hne
    · rw [dif_neg hch]
      refine iff_of_false (fun h => Bool.false_ne_true h.returns) ?_
      rintro (href | ⟨hin, -⟩)
      · exact hnot href
      · exact hch hin

end Meets

/-- The driver of the 16-bit converter is right for lists of one conversion, that of the 12-bit
one for all lists of one to four.

Both write one slot of the word for each conversion, and the slots lie apart.  The 12-bit driver
puts the length less one into its field, and the 16-bit driver leaves that field zero, which
stands for one conversion.  Neither refuses an empty list or a longer one. -/
theorem adcPreemptMeets_iff (regs : AdcConfigRegs) (config : AdcTrigConfig) :
    (AdcPreemptMeets regs config (adc16SetPreemptConfig regs config) ↔
        config.Refused 7 ∨
          config.trigCh.toNat < adcConfigWords ∧ config.trigLen.toNat = 1) ∧
      (AdcPreemptMeets regs config (adc12SetPreemptConfig regs config) ↔
        config.Refused 18 ∨
          config.trigCh.toNat < adcConfigWords ∧ 0 < config.trigLen.toNat ∧
            config.trigLen.toNat ≤ adcSocMaxTrigChLen) := by
  constructor
  · refine (adcSetPreemptConfig_meets_iff adcLenField_zero (by decide)).trans ?_
    refine or_congr_right (and_congr_right fun _ => ?_)
    rw [show configTrigLen.get 0 = 0#32 from RegField.get_zero]
    constructor
    · rintro ⟨-, -, hnum⟩
      exact hnum.symm
    · intro hone
      rw [hone]
      decide
  · refine (adcSetPreemptConfig_meets_iff (adcLenField_set _) (by decide)).trans ?_
    refine or_congr_right (and_congr_right fun _ => ?_)
    refine and_congr_right fun hpos => and_iff_left_of_imp fun hle => ?_
    have hle' : config.trigLen.toNat ≤ 4 := hle
    have hone : (1 : BitVec 32) ≤ config.trigLen.setWidth 32 := by
      rw [BitVec.le_def, BitVec.toNat_setWidth_of_le (by decide)]
      exact hpos
    have hsub : (config.trigLen.setWidth 32 - 1).toNat = config.trigLen.toNat - 1 := by
      rw [BitVec.toNat_sub_of_le hone, BitVec.toNat_setWidth_of_le (by decide)]
      rfl
    rw [RegField.get_set_toNat _ (by decide), hsub, Nat.mod_eq_of_lt]
    · omega
    · show config.trigLen.toNat - 1 < 4
      omega

/-- Two conversions with the driver of the 16-bit converter are read as one; an empty list is
accepted by both drivers. -/
theorem adcPreemptMeets_broken :
    ¬ AdcPreemptMeets (fun _ => 0) ⟨fun _ => true, fun _ => 3, 0, 2⟩
        (adc16SetPreemptConfig (fun _ => 0) ⟨fun _ => true, fun _ => 3, 0, 2⟩) ∧
      ¬ AdcPreemptMeets (fun _ => 0) ⟨fun _ => true, fun _ => 3, 0, 0⟩
        (adc12SetPreemptConfig (fun _ => 0) ⟨fun _ => true, fun _ => 3, 0, 0⟩) := by
  refine ⟨fun h => ?_, fun h => ?_⟩
  · obtain ⟨-, -, _, hdecode⟩ := h.accepted _ rfl
    rw [Function.update_self] at hdecode
    exact absurd hdecode (by decide)
  · exact absurd (h.accepted _ rfl).1 (by decide)

end HpmSdk.Adc
