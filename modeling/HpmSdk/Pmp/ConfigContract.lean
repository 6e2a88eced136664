import HpmSdk.Pmp.Config

set_option autoImplicit false

/-!
# PMP and PMA entries: what `pmp_config` writes

A pass of the loop writes the address registers and the configuration bytes of its entry and
nothing else, except that for the fifteenth entry the switch has no case and the addresses
stay.

`pmpConfigLoop_holds` carries this over the loop: the entries that were passed hold their
configuration, and the others what they held.
-/

namespace HpmSdk.Pmp

/-! ## Numbers of registers -/

section Numbers

variable {u u' : PmpUnit} {i k : Nat}

/-- The address registers of the entries are different ones. -/
theorem csrAddr_inj (hi : i < 16) (hk : k < 16) :
    csrAddr u i = csrAddr u' k ↔ u = u' ∧ i = k := by
  cases u <;> cases u' <;>
    simp only [csrAddr, reduceCtorEq, eq_self, true_and, false_and, iff_false] <;> omega

/-- The configuration registers are different ones. -/
theorem csrCfg_inj (hi : i < 4) (hk : k < 4) : csrCfg u i = csrCfg u' k ↔ u = u' ∧ i = k := by
  cases u <;> cases u' <;>
    simp only [csrCfg, reduceCtorEq, eq_self, true_and, false_and, iff_false] <;> omega

/-- No address register is a configuration register. -/
theorem csrAddr_ne_csrCfg (hi : i < 16) (hk : k < 4) : csrAddr u i ≠ csrCfg u' k := by
  cases u <;> cases u' <;> simp only [csrAddr, csrCfg] <;> omega

end Numbers

theorem writeCsr_apply (csrs : Csrs) (n m : Nat) (v : BitVec 32) :
    writeCsr csrs n v m = if n = m then v else csrs m := by
  unfold writeCsr
  rw [Function.update_apply]
  exact if_congr eq_comm rfl rfl

/-! ## The switches -/

/-- The switches over the configuration registers have all four cases. -/
theorem cfgCase_of_lt : ∀ i < 4, cfgCase i = some i := by decide

/-- The address register of every entry but the fifteenth. -/
theorem addrCase_of_lt : ∀ i < 16, addrCase i = if i = 14 then none else some i := by decide

section Switches

variable (u u' : PmpUnit) (csrs : Csrs) (v : BitVec 32) {i k : Nat}

theorem readCfg_of_lt (hi : i < 4) : readCfg u csrs i = csrs (csrCfg u i) := by
  unfold readCfg
  rw [cfgCase_of_lt i hi]
  rfl

theorem writeCfg_of_lt (hi : i < 4) : writeCfg u csrs v i = writeCsr csrs (csrCfg u i) v := by
  unfold writeCfg
  rw [cfgCase_of_lt i hi]

/-- Writing a configuration register leaves the other ones. -/
theorem writeCfg_cfg (hi : i < 4) (hk : k < 4) :
    writeCfg u csrs v i (csrCfg u' k) = if u = u' ∧ i = k then v else csrs (csrCfg u' k) := by
  rw [writeCfg_of_lt u csrs v hi, writeCsr_apply]
  exact if_congr (csrCfg_inj hi hk) rfl rfl

theorem writeCfg_addr (hi : i < 4) (hk : k < 16) :
    writeCfg u csrs v i (csrAddr u' k) = csrs (csrAddr u' k) := by
  rw [writeCfg_of_lt u csrs v hi, writeCsr_apply]
  exact if_neg (csrAddr_ne_csrCfg hk hi).symm

/-- Writing an address register leaves the other ones, and for entry 14 leaves all. -/
theorem writeAddr_addr (hi : i < 16) (hk : k < 16) :
    writeAddr u csrs v i (csrAddr u' k) =
      if u = u' ∧ i = k ∧ i ≠ 14 then v else csrs (csrAddr u' k) := by
  unfold writeAddr
  rw [addrCase_of_lt i hi]
  by_cases hskip : i = 14
  · rw [if_pos hskip, if_neg fun h => h.2.2 hskip]
  · rw [if_neg hskip]
    simp only [writeCsr_apply]
    exact if_congr ((csrAddr_inj hi hk).trans (by simp [hskip])) rfl rfl

theorem writeAddr_cfg (hi : i < 16) (hk : k < 4) :
    writeAddr u csrs v i (csrCfg u' k) = csrs (csrCfg u' k) := by
  unfold writeAddr
  rw [addrCase_of_lt i hi]
  by_cases hskip : i = 14
  · rw [if_pos hskip]
  · rw [if_neg hskip]
    exact (writeCsr_apply _ _ _ _).trans (if_neg (csrAddr_ne_csrCfg hi hk))

/-- What the driver itself reads back; of the fifteenth entry it is 0. -/
theorem readAddr_writeAddr (hi : i < 16) :
    readAddr u (writeAddr u csrs v i) i = if i = 14 then 0 else v := by
  unfold readAddr
  rw [addrCase_of_lt i hi]
  by_cases hskip : i = 14
  · rw [if_pos hskip, if_pos hskip]
  · rw [if_neg hskip, if_neg hskip]
    exact (writeAddr_addr u u csrs v hi hi).trans (if_pos ⟨rfl, rfl, hskip⟩)

end Switches

/-! ## The bytes -/

/-- The mask of a byte has the bits of the byte. -/
theorem getLsbD_byteMask {offset j : Nat} (hj : j < 32) :
    (0xFF#32 <<< offset).getLsbD j = decide (offset ≤ j ∧ j < offset + 8) := by
  have hmask : ∀ n < 32, (0xFF#32).getLsbD n = decide (n < 8) := by decide
  rw [BitVec.getLsbD_shiftLeft, decide_eq_true hj, Bool.true_and]
  by_cases hle : offset ≤ j
  · rw [hmask _ (by omega), decide_eq_false (Nat.not_lt.mpr hle), Bool.not_false, Bool.true_and]
    exact decide_eq_decide.mpr (by omega)
  · rw [decide_eq_true (Nat.lt_of_not_le hle), Bool.not_true, Bool.false_and]
    exact (decide_eq_false fun h => hle h.1).symm

/-- Replacing byte `k` keeps the other three. -/
theorem extractLsb'_putCfg (cfg : BitVec 32) (val : BitVec 8) {i : Nat} (k : Nat)
    (hi : i < 4) : (putCfg cfg (8 * k) val).extractLsb' (8 * i) 8 =
      if k = i then val else cfg.extractLsb' (8 * i) 8 := by
  refine BitVec.eq_of_getLsbD_eq fun j hj => ?_
  have hlt : 8 * i + j < 32 := by omega
  unfold putCfg
  rw [BitVec.getLsbD_extractLsb', decide_eq_true hj, Bool.true_and, BitVec.getLsbD_or,
    BitVec.getLsbD_and, BitVec.getLsbD_not, getLsbD_byteMask hlt, decide_eq_true hlt,
    Bool.true_and, BitVec.getLsbD_shiftLeft, decide_eq_true hlt, Bool.true_and,
    BitVec.getLsbD_setWidth]
  by_cases heq : k = i
  · subst heq
    have hin : 8 * k ≤ 8 * k + j ∧ 8 * k + j < 8 * k + 8 := by omega
    have hsmall : j < 32 := by omega
    simp [hin, hsmall]
  · have hout : ¬ (8 * k ≤ 8 * i + j ∧ 8 * i + j < 8 * k + 8) := by omega
    rw [if_neg heq, decide_eq_false hout, Bool.not_false, Bool.and_true,
      BitVec.getLsbD_extractLsb', decide_eq_true hj, Bool.true_and]
    by_cases hbelow : 8 * i + j < 8 * k
    · simp [hbelow]
    · have hge : val.getLsbD (8 * i + j - 8 * k) = false := BitVec.getLsbD_of_ge _ _ (by omega)
      simp [hge]

theorem offset_eq (i : Nat) : (i * 8) &&& 0x1F = 8 * (i % 4) := by
  have hmod : (i * 8) &&& 0x1F = i * 8 % 32 := Nat.and_two_pow_sub_one_eq_mod (i * 8) 5
  omega

/-! ## The loop -/

section Pass

variable (csrs : Csrs) (e : PmpEntry) (u : PmpUnit) {i k : Nat}

/-- A pass writes the address of its entry, unless that is entry 14. -/
theorem pmpConfigEntry_addr (hi : i < 16) (hk : k < 16) :
    pmpConfigEntry csrs e i (csrAddr u k) =
      if i = k ∧ i ≠ 14 then e.addr u else csrs (csrAddr u k) := by
  have hidx : i / 4 < 4 := by omega
  unfold pmpConfigEntry
  simp only [writePmpCfg, writePmaCfg, writePmaAddr, writePmpAddr, writeCfg_addr _ _ _ _ hidx hk,
    writeAddr_addr _ _ _ _ hi hk]
  cases u <;> simp [PmpEntry.addr]

theorem pmpConfigEntry_cfg (hi : i < 16) (hk : k < 4) :
    pmpConfigEntry csrs e i (csrCfg u k) =
      if i / 4 = k then putCfg (csrs (csrCfg u k)) (8 * (i % 4)) (e.cfg u)
      else csrs (csrCfg u k) := by
  have hidx : i / 4 < 4 := by omega
  unfold pmpConfigEntry
  simp only [writePmpCfg, writePmaCfg, writePmaAddr, writePmpAddr, readPmpCfg, readPmaCfg,
    writeCfg_cfg _ _ _ _ hidx hk, writeAddr_cfg _ _ _ _ hi hk, readCfg_of_lt _ _ hidx, offset_eq]
  by_cases heq : i / 4 = k
  · subst heq
    cases u <;> simp [PmpEntry.cfg]
  · simp [heq]

/-- A pass writes the configuration byte of its entry and leaves the other bytes of the word. -/
theorem pmpConfigEntry_cfgByte (hi : i < 16) (hk : k < 16) :
    cfgByte (pmpConfigEntry csrs e i) u k = if i = k then e.cfg u else cfgByte csrs u k := by
  have hidx : k / 4 < 4 := by omega
  unfold cfgByte
  rw [pmpConfigEntry_cfg csrs e u hi hidx]
  by_cases hreg : i / 4 = k / 4
  · rw [if_pos hreg, extractLsb'_putCfg _ _ _ (Nat.mod_lt k (by decide))]
    exact if_congr (by omega) rfl rfl
  · rw [if_neg hreg, if_neg fun heq => hreg (by rw [heq])]

end Pass

/-- Behind `n` passes the first `n` entries are written, but for the addresses of the
fifteenth. -/
theorem pmpConfigLoop_holds (csrs : Csrs) (entry : Nat → PmpEntry) (u : PmpUnit) (n : Nat)
    (hn : n ≤ 16) : ∀ k < 16,
      pmpConfigLoop csrs entry n (csrAddr u k) =
          (if k < n ∧ k ≠ 14 then (entry k).addr u else csrs (csrAddr u k)) ∧
        cfgByte (pmpConfigLoop csrs entry n) u k =
          if k < n then (entry k).cfg u else cfgByte csrs u k := by
  induction n with
  | zero => exact fun k _ => ⟨by simp [pmpConfigLoop], by simp [pmpConfigLoop]⟩
  | succ n ih =>
    intro k hk
    obtain ⟨haddr, hcfg⟩ := ih (by omega) k hk
    unfold pmpConfigLoop
    rw [pmpConfigEntry_addr _ _ _ (by omega) hk, pmpConfigEntry_cfgByte _ _ _ (by omega) hk, haddr,
      hcfg]
    by_cases heq : n = k
    · subst heq
      simp
    · have hlt : k < n + 1 ↔ k < n := by omega
      simp [heq, hlt]

/-! ## The contract -/

/-- The check lets 1 to 15 entries pass, and then the loop runs over all of them. -/
theorem pmpConfig_success_iff (csrs csrs' : Csrs) (list : Nat → PmpEntry)
    (numOfEntries : BitVec 32) :
    pmpConfig csrs (some list) numOfEntries = (.success, csrs') ↔
      (1 ≤ numOfEntries.toNat ∧ numOfEntries.toNat ≤ 15) ∧
        csrs' = pmpConfigLoop csrs list numOfEntries.toNat := by
  unfold pmpConfig
  by_cases hbad : numOfEntries.toNat < 1 ∨ 15 < numOfEntries.toNat
  · simp only [if_pos hbad, Prod.mk.injEq, reduceCtorEq, false_and, false_iff]
    omega
  · simp only [if_neg hbad, Prod.mk.injEq, true_and]
    exact ⟨fun h => ⟨by omega, h.symm⟩, fun h => h.2.symm⟩

/-- **`pmp_config` does what it is asked exactly where there are fewer than fifteen entries, or
the address registers of the fifteenth already hold its addresses.**

Each entry has a case of its own in the two switches, and that of entry 14 has the label 16.  So
its addresses are never written, and they are the ones asked for only if they were there before.
All other cases write what they are labelled with. -/
theorem pmpConfigures_iff (csrs : Csrs) (entry : Option (Nat → PmpEntry))
    (numOfEntries : BitVec 32) :
    PmpConfigures csrs entry numOfEntries ↔
      (numOfEntries.toNat = 15 → ∀ list ∈ entry, ∀ u, csrs (csrAddr u 14) = (list 14).addr u) := by
  constructor
  · rintro h hn list rfl u
    have hholds := h list rfl _ ((pmpConfig_success_iff _ _ _ _).mpr ⟨by omega, rfl⟩)
    have haddr := hholds.addr u 14 (by decide)
    rw [(pmpConfigLoop_holds csrs list u _ (by omega) 14 (by decide)).1, hn] at haddr
    exact haddr
  · rintro h list rfl csrs' hok
    obtain ⟨hnum, rfl⟩ := (pmpConfig_success_iff _ _ _ _).mp hok
    have hloop := fun u => pmpConfigLoop_holds csrs list u numOfEntries.toNat (by omega)
    refine ⟨fun u i hi => ?_, fun u i hi => (hloop u i hi).2⟩
    rw [(hloop u i hi).1]
    by_cases hskip : i = 14
    · subst hskip
      by_cases hlt : 14 < numOfEntries.toNat
      · have hold := h (by omega) list rfl u
        simp [hlt, hold]
      · simp [hlt]
    · simp [hskip]

/-- Fifteen entries over registers that are all 0: the last one is not written. -/
theorem pmpConfigures_fifteen :
    ¬ ∀ csrs entry numOfEntries, PmpConfigures csrs entry numOfEntries := by
  intro h
  have hholds := h (fun _ => 0) (some fun _ => ⟨0x0F, 1, 0x0F, 1⟩) 15 _ rfl _ rfl
  have haddr := hholds.addr .pmp 14 (by decide)
  revert haddr
  decide

end HpmSdk.Pmp
