import HpmSdk.Foundation.Ticks
import HpmSdk.Wdg.Interval

set_option autoImplicit false

/-!
# WDG: when an interval is right

The number of ticks that is looked up is that of the nanoseconds below `2 ^ 32`, in a tick of whole
nanoseconds, rounded down.  An interval is right where this makes no difference for any length of
the table.

`WdgResolves` says so of each length that would be taken, and of the longest one, behind which there
is none.
-/

namespace HpmSdk.Wdg

open HpmSdk.Foundation

/-! ## The ticks -/

/-- The tick in nanoseconds. -/
def wdgTickNs (srcFreq : BitVec 32) : Nat := max 1 (1000000000 / srcFreq.toNat)

/-- The nanoseconds that are looked up. -/
def wdgNs (us : BitVec 32) : Nat := 1000 * us.toNat % 2 ^ 32

section Ticks

variable (srcFreq us : BitVec 32)

theorem wdgTickNs_pos : 0 < wdgTickNs srcFreq := Nat.lt_of_lt_of_le Nat.one_pos (Nat.le_max_left _ _)

/-- The tick in whole nanoseconds, and at least 1. -/
theorem srcClkOneTickInNs_toNat : (srcClkOneTickInNs srcFreq).toNat = wdgTickNs srcFreq := by
  have hsecond : oneSecondTicksInNs.toNat = 1000000000 := by decide
  unfold srcClkOneTickInNs wdgTickNs
  dsimp only
  split
  · rename_i hlt
    rw [BitVec.lt_def, BitVec.toNat_udiv, hsecond] at hlt
    change _ < 1 at hlt
    rw [Nat.max_eq_left (Nat.le_of_lt hlt)]
    rfl
  · rename_i hge
    rw [BitVec.lt_def, BitVec.toNat_udiv, hsecond] at hge
    change ¬ _ < 1 at hge
    rw [BitVec.toNat_udiv, hsecond, Nat.max_eq_right (Nat.le_of_not_lt hge)]

/-- The cast of the product undoes what widening was for. -/
theorem wdgNs_eq : (us * 1000 : BitVec 32).toNat = wdgNs us ∧
    ((us.setWidth 64 * 1000).setWidth 32 : BitVec 32).toNat = wdgNs us := by
  have hus := us.isLt
  unfold wdgNs
  constructor
  · rw [BitVec.toNat_mul, Nat.mul_comm]
    rfl
  · rw [BitVec.toNat_setWidth, BitVec.toNat_mul, BitVec.toNat_setWidth]
    change us.toNat % 2 ^ 64 * 1000 % 2 ^ 64 % 2 ^ 32 = _
    omega

end Ticks

/-! ## The table -/

/-- The place of the interval that is found. -/
theorem wdgLookup_code {α : Type} (code : α → Nat) {end' : α} {ticks : BitVec 32} :
    ∀ (first : Nat) {map : List (BitVec 32 × α)},
      map.map (fun e => code e.2) = List.range' first map.length →
      code end' = first + map.length →
      code (wdgLookup end' ticks map) =
        first + (map.map fun e => e.1.toNat).findIdx (fun len => decide (ticks.toNat ≤ len))
  | _, [], _, hend => hend
  | first, e :: map, hcode, hend => by
    rw [List.map_cons, List.length_cons, List.range'_succ] at hcode
    obtain ⟨hhead, htail⟩ := List.cons.inj hcode
    rw [wdgLookup, List.map_cons, List.findIdx_cons]
    by_cases hle : ticks ≤ e.1
    · rw [if_pos hle, decide_eq_true (BitVec.le_def.mp hle)]
      exact hhead
    · have hnot : ¬ ticks.toNat ≤ e.1.toNat := fun h => hle (BitVec.le_def.mpr h)
      rw [if_neg hle, decide_eq_false hnot, wdgLookup_code code (first + 1) htail, cond_false]
      · omega
      · rw [hend, List.length_cons]
        omega

/-- The last entry of a map only says what is returned without it. -/
theorem wdgLookup_append {α : Type} (end' : α) (ticks top : BitVec 32) :
    ∀ map : List (BitVec 32 × α),
      wdgLookup end' ticks (map ++ [(top, end')]) = wdgLookup end' ticks map
  | [] => ite_self end'
  | e :: map => by
    rw [List.cons_append, wdgLookup, wdgLookup, wdgLookup_append end' ticks top map]

/-- The place of the interval for a time. -/
theorem wdgInterval_eq (stage : WdgStage) (srcFreq us : BitVec 32) :
    stage.interval srcFreq us = stage.lengths.findIdx fun len =>
      decide (wdgNs us / wdgTickNs srcFreq ≤ len) := by
  have hreset : kResetIntervalMap.map (fun e => e.1.toNat) = WdgStage.reset.lengths := by decide
  have hinterrupt : kInterruptIntervalMap.map (fun e => e.1.toNat) = WdgStage.interrupt.lengths := by
    decide
  cases stage with
  | reset =>
    rw [WdgStage.interval, wdgGetResetInterval, wdgLookup_append,
      wdgLookup_code ResetInterval.code 0 (by decide) (by decide), hreset,
      BitVec.toNat_udiv, (wdgNs_eq us).1, srcClkOneTickInNs_toNat, Nat.zero_add]
  | interrupt =>
    rw [WdgStage.interval, wdgGetInterruptInterval, wdgLookup_append,
      wdgLookup_code InterruptInterval.code 0 (by decide) (by decide),
      hinterrupt, BitVec.toNat_udiv, (wdgNs_eq us).2, srcClkOneTickInNs_toNat, Nat.zero_add]

/-! ## The condition -/

/-- The longest interval. -/
def WdgStage.longest : WdgStage → Nat
  | .reset => 16384
  | .interrupt => 2147483648

/-- A length is taken only if it lasts, and the longest one also if it lasts. -/
structure WdgResolves (stage : WdgStage) (srcFreq us : BitVec 32) : Prop where
  lasts : ∀ len ∈ stage.lengths, wdgNs us < (len + 1) * wdgTickNs srcFreq →
    WdgLasts srcFreq us len
  longest : WdgLasts srcFreq us stage.longest →
    wdgNs us < (stage.longest + 1) * wdgTickNs srcFreq

section Lengths

variable (stage : WdgStage)

/-- Each length is at least twice the one before. -/
theorem wdgLengths_double : stage.lengths.Pairwise fun a b => 2 * a ≤ b := by
  cases stage <;> decide

/-- The lengths are powers of two. -/
theorem wdgLengths_dvd : ∀ len ∈ stage.lengths, len ∣ 2 ^ 32 := by
  cases stage <;> decide

theorem wdgLengths_pos : ∀ len ∈ stage.lengths, 0 < len := by
  cases stage <;> decide

theorem wdgLongest_mem : stage.longest ∈ stage.lengths := by
  cases stage <;> decide

/-- The last length is the longest. -/
theorem le_wdgLongest : ∀ len ∈ stage.lengths, len ≤ stage.longest := by
  cases stage <;> decide

end Lengths

section Interval

variable {stage : WdgStage} {srcFreq us : BitVec 32}

/-- A length is long enough for the ticks that are looked up, without the division. -/
theorem wdgTaken_iff (len : Nat) :
    wdgNs us / wdgTickNs srcFreq ≤ len ↔ wdgNs us < (len + 1) * wdgTickNs srcFreq := by
  rw [← Nat.lt_succ_iff]
  exact Nat.div_lt_iff_lt_mul (wdgTickNs_pos srcFreq)

/-- A longer interval lasts as long. -/
theorem WdgLasts.mono {len len' : Nat} (h : WdgLasts srcFreq us len) (hle : len ≤ len') :
    WdgLasts srcFreq us len' := Nat.le_trans h (Nat.mul_le_mul_left _ hle)

/-- The interval for a time is taken. -/
theorem wdgInterval_taken {len : Nat} (h : len ∈ stage.lengths[stage.interval srcFreq us]?) :
    wdgNs us < (len + 1) * wdgTickNs srcFreq := by
  rw [wdgInterval_eq] at h
  have hfound : decide (wdgNs us / wdgTickNs srcFreq ≤ len) = true :=
    List.findIdx_of_getElem?_eq_some (p := fun len => decide (wdgNs us / wdgTickNs srcFreq ≤ len)) h
  exact (wdgTaken_iff len).mp (of_decide_eq_true hfound)

/-- The intervals in front of it are not. -/
theorem wdgInterval_before {i len : Nat} (h : len ∈ stage.lengths[i]?)
    (hi : i < stage.interval srcFreq us) : ¬ wdgNs us < (len + 1) * wdgTickNs srcFreq := by
  rw [wdgInterval_eq] at hi
  obtain ⟨hlt, rfl⟩ := List.getElem?_eq_some_iff.mp h
  rw [← wdgTaken_iff]
  exact of_decide_eq_false (List.not_of_lt_findIdx hi)

theorem wdgInterval_le_length : stage.interval srcFreq us ≤ stage.lengths.length := by
  rw [wdgInterval_eq]
  exact List.findIdx_le_length

/-- Out of range is where no length is taken. -/
theorem wdgInterval_eq_length : stage.interval srcFreq us = stage.lengths.length ↔
    ∀ len ∈ stage.lengths, ¬ wdgNs us < (len + 1) * wdgTickNs srcFreq := by
  rw [wdgInterval_eq, List.findIdx_eq_length]
  refine forall₂_congr ?_
  intro len _
  rw [decide_eq_false_iff_not, wdgTaken_iff]

/-- Where some length is taken, one is found that is not longer. -/
theorem wdgInterval_le_of_taken {i len : Nat} (h : len ∈ stage.lengths[i]?)
    (htaken : wdgNs us < (len + 1) * wdgTickNs srcFreq) :
    stage.interval srcFreq us ≤ i :=
  Nat.le_of_not_lt fun hi => wdgInterval_before h hi htaken

/-- The tick is not longer than the clock period, and less than a nanosecond shorter. -/
theorem wdgTickNs_bounds (hfreq : srcFreq ≠ 0) :
    1000000000 < (wdgTickNs srcFreq + 1) * srcFreq.toNat := by
  have hpos : 0 < srcFreq.toNat := BitVec.toNat_pos_of_ne_zero hfreq
  have hle : 1000000000 / srcFreq.toNat ≤ wdgTickNs srcFreq := Nat.le_max_right _ _
  calc 1000000000 < (1000000000 / srcFreq.toNat + 1) * srcFreq.toNat :=
        second_lt_tick_succ_mul hpos
    _ ≤ (wdgTickNs srcFreq + 1) * srcFreq.toNat :=
        Nat.mul_le_mul_right _ (Nat.succ_le_succ hle)

/-- A length of at least twice one that lasts is taken. -/
theorem wdgTaken_of_double (hfreq : srcFreq ≠ 0) {len len' : Nat} (hpos : 0 < len)
    (hlasts : WdgLasts srcFreq us len) (hdouble : 2 * len ≤ len') :
    wdgNs us < (len' + 1) * wdgTickNs srcFreq := by
  have hbound := wdgTickNs_bounds hfreq
  have htick := wdgTickNs_pos srcFreq
  have hns : 1000 * us.toNat < len * (wdgTickNs srcFreq + 1) := by
    by_contra hge
    rw [Nat.not_lt] at hge
    have hover : 1000000000 * len < 1000 * us.toNat * srcFreq.toNat := by
      calc 1000000000 * len < (wdgTickNs srcFreq + 1) * srcFreq.toNat * len :=
            Nat.mul_lt_mul_of_pos_right hbound hpos
        _ = len * (wdgTickNs srcFreq + 1) * srcFreq.toNat := by ring
        _ ≤ 1000 * us.toNat * srcFreq.toNat := Nat.mul_le_mul_right _ hge
    have hlasts' : us.toNat * srcFreq.toNat ≤ 1000000 * len := hlasts
    rw [Nat.mul_assoc] at hover
    omega
  calc wdgNs us ≤ 1000 * us.toNat := Nat.mod_le _ _
    _ < len * (wdgTickNs srcFreq + 1) := hns
    _ ≤ len * (2 * wdgTickNs srcFreq) := Nat.mul_le_mul_left _ (by omega)
    _ = 2 * len * wdgTickNs srcFreq := by ring
    _ ≤ (len' + 1) * wdgTickNs srcFreq := Nat.mul_le_mul_right _ (by omega)

/-- A length that lasts for a time whose nanoseconds do not fit is always taken. -/
theorem wdgTaken_of_wrapped {len : Nat} (hfreq : srcFreq ≠ 0) (hdvd : len ∣ 2 ^ 32)
    (hlasts : WdgLasts srcFreq us len) (hwrap : 2 ^ 32 ≤ 1000 * us.toNat) (us' : BitVec 32) :
    wdgNs us' < (len + 1) * wdgTickNs srcFreq := by
  obtain ⟨m, hm⟩ := hdvd
  have hpos : 0 < srcFreq.toNat := BitVec.toNat_pos_of_ne_zero hfreq
  have hlen : 0 < len := Nat.pos_of_ne_zero fun h => by simp [h] at hm
  have hlasts' : us.toNat * srcFreq.toNat ≤ 1000000 * len := hlasts
  have htick : m ≤ wdgTickNs srcFreq := by
    refine Nat.le_trans ?_ (Nat.le_max_right _ _)
    apply (Nat.le_div_iff_mul_le hpos).mpr
    apply Nat.le_of_mul_le_mul_left _ hlen
    calc len * (m * srcFreq.toNat) = 2 ^ 32 * srcFreq.toNat := by rw [← Nat.mul_assoc, ← hm]
      _ ≤ 1000 * us.toNat * srcFreq.toNat := Nat.mul_le_mul_right _ hwrap
      _ = 1000 * (us.toNat * srcFreq.toNat) := Nat.mul_assoc _ _ _
      _ ≤ 1000 * (1000000 * len) := Nat.mul_le_mul_left _ hlasts'
      _ = len * 1000000000 := by ring
  calc wdgNs us' < 2 ^ 32 := Nat.mod_lt _ (Nat.two_pow_pos 32)
    _ = len * m := hm
    _ ≤ len * wdgTickNs srcFreq := Nat.mul_le_mul_left _ htick
    _ ≤ (len + 1) * wdgTickNs srcFreq := Nat.mul_le_mul_right _ (Nat.le_succ len)

/-- Where the ticks that are looked up make no difference the interval is right. -/
theorem wdgRight_of_resolves (hfreq : srcFreq ≠ 0) (h : WdgResolves stage srcFreq us) :
    WdgRight stage srcFreq us where
  lasts len hlen := h.lasts len (List.mem_of_getElem? hlen) (wdgInterval_taken hlen)
  shortest i len hlen hlasts hrange := by
    by_contra hgt
    have hi : i + 1 < stage.lengths.length := by omega
    obtain ⟨hi', rfl⟩ := List.getElem?_eq_some_iff.mp hlen
    have hdouble : 2 * stage.lengths[i] ≤ stage.lengths[i + 1] :=
      List.pairwise_iff_getElem.mp (wdgLengths_double stage) i (i + 1) hi' hi (Nat.lt_succ_self i)
    have hpos := wdgLengths_pos stage _ (List.getElem_mem hi')
    exact wdgInterval_before (List.getElem?_eq_getElem hi) (Nat.not_le.mp hgt)
      (wdgTaken_of_double hfreq hpos hlasts hdouble)
  outOfRange := by
    rw [wdgInterval_eq_length]
    constructor
    · intro hnone len hlen hlasts
      exact hnone _ (wdgLongest_mem stage) (h.longest (hlasts.mono (le_wdgLongest stage len hlen)))
    · intro hnone len hlen htaken
      exact hnone len hlen (h.lasts len hlen htaken)
  monotone us' hle := by
    rcases Nat.lt_or_ge (stage.interval srcFreq us) stage.lengths.length with hlt | hge
    · have hlen := List.getElem?_eq_getElem hlt
      have htaken := wdgInterval_taken hlen
      have hmem := List.getElem_mem hlt
      refine wdgInterval_le_of_taken hlen ?_
      rcases Nat.lt_or_ge (1000 * us.toNat) (2 ^ 32) with hfits | hwrap
      · have hle' : us'.toNat ≤ us.toNat := hle
        have hns : wdgNs us' ≤ wdgNs us := by
          unfold wdgNs
          rw [Nat.mod_eq_of_lt hfits]
          exact Nat.le_trans (Nat.mod_le _ _) (Nat.mul_le_mul_left _ hle')
        exact Nat.lt_of_le_of_lt hns htaken
      · exact wdgTaken_of_wrapped hfreq (wdgLengths_dvd stage _ hmem) (h.lasts _ hmem htaken) hwrap
          us'
    · exact Nat.le_trans wdgInterval_le_length hge

/-- And where the interval is right they make none. -/
theorem resolves_of_wdgRight (h : WdgRight stage srcFreq us) : WdgResolves stage srcFreq us where
  lasts len hlen htaken := by
    obtain ⟨i, hi, rfl⟩ := List.mem_iff_getElem.mp hlen
    have hle := wdgInterval_le_of_taken (List.getElem?_eq_getElem hi) htaken
    have hlt := Nat.lt_of_le_of_lt hle hi
    refine (h.lasts _ (List.getElem?_eq_getElem hlt)).mono ?_
    rcases Nat.eq_or_lt_of_le hle with heq | hlt'
    · exact Nat.le_of_eq (getElem_congr_idx heq)
    · have hdouble := List.pairwise_iff_getElem.mp (wdgLengths_double stage) _ i hlt hi hlt'
      omega
  longest hlasts := by
    by_contra hnot
    have hnone : stage.interval srcFreq us = stage.lengths.length := by
      apply wdgInterval_eq_length.mpr
      intro len hlen htaken
      refine hnot (Nat.lt_of_lt_of_le htaken (Nat.mul_le_mul_right _ ?_))
      exact Nat.succ_le_succ (le_wdgLongest stage len hlen)
    exact h.outOfRange.mp hnone _ (wdgLongest_mem stage) hlasts

/-- **An interval is right if and only if the ticks that are looked up decide about the lengths of
the table as the time does.**

The lookup takes the first length of the table that is not below the ticks.  The ticks are the
time in nanoseconds, which wraps in 32 bits, over the length of a tick, which is rounded down, and
are rounded down themselves.  For each length it therefore matters only on which side of it the
ticks are and on which side the time is. -/
theorem wdgRight_iff (hfreq : srcFreq ≠ 0) :
    WdgRight stage srcFreq us ↔ WdgResolves stage srcFreq us :=
  ⟨resolves_of_wdgRight, wdgRight_of_resolves hfreq⟩

end Interval

/-- A millisecond of a clock of 1 MHz. -/
theorem wdgRight_iff_millisecond : WdgRight .reset 1000000 1000 :=
  (wdgRight_iff (by decide)).mpr ⟨by decide, by decide⟩

/-- A little more than four seconds of a clock of 1 MHz become 128 microseconds. -/
theorem wdgRight_bites : ¬ ∀ (stage : WdgStage) (srcFreq us : BitVec 32), srcFreq ≠ 0 →
    WdgRight stage srcFreq us := by
  intro h
  have hlasts := (h .reset 1000000 4294968 (by decide)).lasts 128
  revert hlasts
  decide

end HpmSdk.Wdg
