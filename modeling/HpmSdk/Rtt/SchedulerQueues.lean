import HpmSdk.Rtt.Scheduler
import Mathlib.Data.List.Nodup

set_option autoImplicit false

/-!
# The queues of the scheduler

A thread is in the queue of its priority if and only if it is ready, and the bits tell which queues
are not empty, so that `__rt_ffs` finds the highest priority of which a thread is ready.

`Queued` is that invariant.  A thread that is inserted or removed changes one queue and one bit, and
each edit has a lemma on both.
-/

namespace HpmSdk.Rtt

open Foundation

/-! ## The first bit set -/

/-- The table of the 256 bytes: each entry is the lowest bit of its byte. -/
theorem lowestBitBitmap_spec : ∀ byte : BitVec 8, byte ≠ 0 →
    byte.getLsbD (lowestBitBitmap.getD byte.toNat 0) = true ∧
      ∀ j < lowestBitBitmap.getD byte.toNat 0, byte.getLsbD j = false := by
  decide +kernel

/-- A byte of a word, where the lower ones are 0. -/
theorem lowestBit_of_byte {value : BitVec 32} {byte : BitVec 8} {k n : Nat}
    (hbyte : ∀ j < 8, byte.getLsbD j = value.getLsbD (k + j)) (hne : byte ≠ 0)
    (hlow : ∀ j < k, value.getLsbD j = false)
    (hn : n = lowestBitBitmap.getD byte.toNat 0) :
    value.getLsbD (k + n) = true ∧ ∀ j < k + n, value.getLsbD j = false := by
  obtain ⟨hset, hclear⟩ := lowestBitBitmap_spec byte hne
  rw [← hn] at hset hclear
  have hlt : n < 8 := by
    by_contra hge
    rw [BitVec.getLsbD_of_ge _ _ (by omega)] at hset
    cases hset
  refine ⟨by rw [← hbyte n hlt, hset], fun j hj => ?_⟩
  rcases Nat.lt_or_ge j k with hjk | hjk
  · exact hlow j hjk
  · obtain ⟨i, rfl⟩ := Nat.exists_eq_add_of_le hjk
    rw [← hbyte i (by omega), hclear i (by omega)]

theorem getLsbD_ff (j : Nat) : (0xFF : BitVec 32).getLsbD j = decide (j < 8) := by
  have h : (0xFF : BitVec 32) = (BitVec.allOnes 8).setWidth 32 := by decide
  rw [h, BitVec.getLsbD_setWidth, BitVec.getLsbD_allOnes]
  by_cases hj : j < 8
  · simp [hj, show j < 32 by omega]
  · simp [hj]

/-- A byte that is masked and shifted is a byte of the word. -/
theorem byte_of_mask (value : BitVec 32) {k : Nat} (hk : k ≤ 24) :
    (value &&& ((0xFF : BitVec 32) <<< k)) >>> k = (value.extractLsb' k 8).setWidth 32 := by
  refine BitVec.eq_of_getLsbD_eq fun j hj => ?_
  rw [BitVec.getLsbD_ushiftRight, BitVec.getLsbD_and, BitVec.getLsbD_shiftLeft, getLsbD_ff,
    BitVec.getLsbD_setWidth, BitVec.getLsbD_extractLsb']
  by_cases h8 : j < 8
  · simp [h8, hj, show k + j < 32 by omega]
  · simp [h8, hj]

theorem getLsbD_of_mask_eq_zero {value : BitVec 32} {k : Nat} (hk : k ≤ 24)
    (h : value &&& ((0xFF : BitVec 32) <<< k) = 0) {j : Nat} (hj : j < 8) :
    value.getLsbD (k + j) = false := by
  have hbit : (value &&& ((0xFF : BitVec 32) <<< k)).getLsbD (k + j) = false := by
    rw [h]
    exact BitVec.getLsbD_zero
  rw [BitVec.getLsbD_and, BitVec.getLsbD_shiftLeft, getLsbD_ff, Nat.add_sub_cancel_left] at hbit
  rwa [decide_eq_true hj, decide_eq_true (show k + j < 32 by omega),
    decide_eq_false (Nat.not_lt.mpr (Nat.le_add_right k j)), Bool.not_false, Bool.and_true,
    Bool.and_true, Bool.and_true] at hbit

theorem byte_ne_zero {value : BitVec 32} {k : Nat}
    (h : value &&& ((0xFF : BitVec 32) <<< k) ≠ 0) : value.extractLsb' k 8 ≠ 0 := by
  intro hbyte
  refine h (BitVec.eq_of_getLsbD_eq fun j hj => ?_)
  rw [BitVec.getLsbD_and, BitVec.getLsbD_shiftLeft, getLsbD_ff, BitVec.ofNat_eq_ofNat,
    BitVec.getLsbD_zero]
  rcases Nat.lt_or_ge j k with hjk | hjk
  · simp [hjk]
  · obtain ⟨i, rfl⟩ := Nat.exists_eq_add_of_le hjk
    have hbit := congrArg (BitVec.getLsbD · i) hbyte
    simp only [BitVec.getLsbD_extractLsb', BitVec.ofNat_eq_ofNat, BitVec.getLsbD_zero] at hbit
    rw [Nat.add_sub_cancel_left]
    cases hv : value.getLsbD (k + i) with
    | false => rfl
    | true =>
      rw [hv, Bool.and_true, decide_eq_false_iff_not] at hbit
      simp [hbit]

theorem getD_byte {value : BitVec 32} {k : Nat} (hk : k ≤ 24) :
    lowestBitBitmap.getD (((value &&& ((0xFF : BitVec 32) <<< k)) >>> k).toNat) 0 =
      lowestBitBitmap.getD (value.extractLsb' k 8).toNat 0 := by
  rw [byte_of_mask value hk, BitVec.toNat_setWidth_of_le (by omega)]

/-- What `rtFfs` finds in one byte. -/
theorem lowestBit_spec {value : BitVec 32} {k : Nat} (hk : k ≤ 24)
    (hne : value &&& ((0xFF : BitVec 32) <<< k) ≠ 0) (hlow : ∀ j < k, value.getLsbD j = false) :
    let n := lowestBitBitmap.getD ((value &&& ((0xFF : BitVec 32) <<< k)) >>> k).toNat 0
    value.getLsbD (k + n) = true ∧ ∀ j < k + n, value.getLsbD j = false :=
  lowestBit_of_byte
    (fun j hj => by rw [BitVec.getLsbD_extractLsb', decide_eq_true hj, Bool.true_and])
    (byte_ne_zero hne) hlow (getD_byte hk)

/-- A byte without bits adds eight to the clear ones. -/
theorem clear_below {value : BitVec 32} {k : Nat} (hk : k ≤ 24)
    (hzero : value &&& ((0xFF : BitVec 32) <<< k) = 0) (hlow : ∀ j < k, value.getLsbD j = false) :
    ∀ j < k + 8, value.getLsbD j = false := by
  intro j hj
  rcases Nat.lt_or_ge j k with hjk | hjk
  · exact hlow j hjk
  · obtain ⟨i, rfl⟩ := Nat.exists_eq_add_of_le hjk
    exact getLsbD_of_mask_eq_zero hk hzero (by omega)

/-- The bytes of `rtFfs`, each in its place. -/
theorem rtFfs_eq (value : BitVec 32) :
    rtFfs value =
      let mask (k : Nat) := value &&& ((0xFF : BitVec 32) <<< k)
      let lowestBit (k : Nat) := lowestBitBitmap.getD (mask k >>> k).toNat 0
      if value = 0 then 0
      else if mask 0 ≠ 0 then lowestBit 0 + 1
      else if mask 8 ≠ 0 then lowestBit 8 + 9
      else if mask 16 ≠ 0 then lowestBit 16 + 17
      else lowestBit 24 + 25 := by
  have h0 : (0xFF : BitVec 32) = (0xFF : BitVec 32) <<< 0 := by decide
  have h8 : (0xFF00 : BitVec 32) = (0xFF : BitVec 32) <<< 8 := by decide
  have h16 : (0xFF0000 : BitVec 32) = (0xFF : BitVec 32) <<< 16 := by decide
  have h24 : (0xFF000000 : BitVec 32) = (0xFF : BitVec 32) <<< 24 := by decide
  unfold rtFfs
  rw [h8, h16, h24, h0]
  rfl

/-- `__rt_ffs` finds the lowest bit. -/
theorem rtFfs_spec {value : BitVec 32} (h : value ≠ 0) :
    ∃ p, rtFfs value = p + 1 ∧ value.getLsbD p = true ∧ ∀ j < p, value.getLsbD j = false := by
  have hnone : ∀ j < 0, value.getLsbD j = false := fun j hj => absurd hj (Nat.not_lt_zero j)
  rw [rtFfs_eq]
  dsimp only
  rw [if_neg h]
  by_cases h0 : value &&& ((0xFF : BitVec 32) <<< 0) = 0
  · have hlow8 := clear_below (by decide) h0 hnone
    rw [if_neg (not_not.mpr h0)]
    by_cases h8 : value &&& ((0xFF : BitVec 32) <<< 8) = 0
    · have hlow16 := clear_below (by decide) h8 hlow8
      rw [if_neg (not_not.mpr h8)]
      by_cases h16 : value &&& ((0xFF : BitVec 32) <<< 16) = 0
      · have hlow24 := clear_below (by decide) h16 hlow16
        rw [if_neg (not_not.mpr h16)]
        have h24 : value &&& ((0xFF : BitVec 32) <<< 24) ≠ 0 := by
          intro h24
          have hlow32 := clear_below (by decide) h24 hlow24
          exact h (BitVec.eq_of_getLsbD_eq fun j hj => (hlow32 j hj).trans BitVec.getLsbD_zero.symm)
        exact ⟨24 + _, by omega, lowestBit_spec (by decide) h24 hlow24⟩
      · rw [if_pos h16]
        exact ⟨16 + _, by omega, lowestBit_spec (by decide) h16 hlow16⟩
    · rw [if_pos h8]
      exact ⟨8 + _, by omega, lowestBit_spec (by decide) h8 hlow8⟩
  · rw [if_pos h0]
    exact ⟨0 + _, by omega, lowestBit_spec (by decide) h0 hnone⟩

/-! ## The queues -/

/-- The thread was not started yet, or ended. -/
def ThreadStat.Off (stat : ThreadStat) : Prop := stat = .init ∨ stat = .close

instance (stat : ThreadStat) : Decidable stat.Off :=
  inferInstanceAs (Decidable (stat = .init ∨ stat = .close))

/-- The priorities of a thread, and the mask of the current one; a thread that was never started
has none. -/
structure PriorityValid (x : RtThread) : Prop where
  init : x.initPriority < 32
  current : x.currentPriority < 32
  mask : x.numberMask = (1 : BitVec 32) <<< x.currentPriority ∨ x.numberMask = 0 ∧ x.stat.Off

/-- The queues hold the threads that are ready, and the word has a bit for each one that is not
empty. -/
structure Queued (s : Scheduler) : Prop where
  mem : ∀ p t, t ∈ s.priorityTable p ↔
    (s.thread t).stat = .ready ∧ (s.thread t).currentPriority = p
  nodup : ∀ p, (s.priorityTable p).Nodup
  group : ∀ p < 32, s.readyPriorityGroup.getLsbD p = !(s.priorityTable p).isEmpty
  valid : ∀ t, PriorityValid (s.thread t)

/-- The mask of a priority has the bit of the priority. -/
theorem getLsbD_priorityMask {p q : Nat} (hp : p < 32) :
    ((1 : BitVec 32) <<< q).getLsbD p = decide (p = q) := by
  have hone (j : Nat) : (1 : BitVec 32).getLsbD j = decide (j = 0) := by
    rw [BitVec.ofNat_eq_ofNat, BitVec.getLsbD_one, decide_eq_true (show 0 < 32 by decide),
      Bool.true_and]
  rw [BitVec.getLsbD_shiftLeft, decide_eq_true hp, Bool.true_and, hone]
  by_cases hpq : p = q
  · subst hpq
    simp
  · rw [decide_eq_false hpq]
    by_cases hlt : p < q
    · simp [hlt]
    · simp [show p - q ≠ 0 by omega]

section Queues

variable {s : Scheduler} {t u : Nat} {f : RtThread → RtThread}

@[simp] theorem thread_update_self : (s.update t f).thread t = f (s.thread t) :=
  Function.update_self _ _ _

theorem thread_update_of_ne (h : u ≠ t) : (s.update t f).thread u = s.thread u :=
  Function.update_of_ne h _ _

@[simp] theorem currentThread_insert :
    (scheduleInsertThread s t).currentThread = s.currentThread := by
  unfold scheduleInsertThread
  split <;> rfl

@[simp] theorem lockNest_insert : (scheduleInsertThread s t).lockNest = s.lockNest := by
  unfold scheduleInsertThread
  split <;> rfl

/-- A thread that is inserted is ready, unless it is the current one. -/
theorem thread_insert_self (hcurrent : s.currentThread ≠ some t) :
    (scheduleInsertThread s t).thread t = { s.thread t with stat := .ready } := by
  rw [scheduleInsertThread, if_neg hcurrent]
  exact Function.update_self _ _ _

/-- Inserting leaves the other threads. -/
theorem thread_insert_of_ne (h : u ≠ t) : (scheduleInsertThread s t).thread u = s.thread u := by
  unfold scheduleInsertThread
  split
  · exact Function.update_of_ne h _ _
  · exact Function.update_of_ne h _ _

/-- A change of a thread that neither was ready nor becomes so. -/
theorem Queued.change (h : Queued s) (hold : (s.thread t).stat ≠ .ready)
    (hnew : (f (s.thread t)).stat ≠ .ready) (hvalid : PriorityValid (f (s.thread t))) :
    Queued (s.update t f) := by
  refine ⟨fun p u => ?_, h.nodup, h.group, fun u => ?_⟩
  · refine (h.mem p u).trans ?_
    by_cases hu : u = t
    · subst hu
      rw [thread_update_self]
      exact iff_of_false (fun hc => hold hc.1) (fun hc => hnew hc.1)
    · rw [thread_update_of_ne hu]
  · by_cases hu : u = t
    · subst hu
      rw [thread_update_self]
      exact hvalid
    · rw [thread_update_of_ne hu]
      exact h.valid u

/-- A change of what the queues do not depend on. -/
theorem Queued.touch (h : Queued s) (hstat : (f (s.thread t)).stat = (s.thread t).stat)
    (hpriority : (f (s.thread t)).currentPriority = (s.thread t).currentPriority)
    (hvalid : PriorityValid (f (s.thread t))) : Queued (s.update t f) := by
  refine ⟨fun p u => ?_, h.nodup, h.group, fun u => ?_⟩
  · refine (h.mem p u).trans ?_
    by_cases hu : u = t
    · subst hu
      rw [thread_update_self, hstat, hpriority]
    · rw [thread_update_of_ne hu]
  · by_cases hu : u = t
    · subst hu
      rw [thread_update_self]
      exact hvalid
    · rw [thread_update_of_ne hu]
      exact h.valid u

/-- A thread that is not ready goes to the end of the queue of its priority. -/
theorem Queued.insert (h : Queued s) (hcurrent : s.currentThread ≠ some t)
    (hready : (s.thread t).stat ≠ .ready) (hon : ¬ (s.thread t).stat.Off) :
    Queued (scheduleInsertThread s t) := by
  obtain ⟨hpriority, hlt, hmaskOff⟩ := h.valid t
  have hmask := hmaskOff.resolve_right fun hoff => hon hoff.2
  have hout : t ∉ s.priorityTable (s.thread t).currentPriority :=
    fun hmem => hready ((h.mem _ t).mp hmem).1
  rw [scheduleInsertThread, if_neg hcurrent]
  simp only [Scheduler.setStat, thread_update_self]
  refine ⟨fun p u => ?_, fun p => ?_, fun p hp => ?_, fun u => ?_⟩
  · dsimp only [Scheduler.update]
    by_cases hu : u = t
    · subst hu
      rw [Function.update_self]
      by_cases hp : p = (s.thread u).currentPriority
      · subst hp
        simp
      · rw [Function.update_of_ne hp]
        exact iff_of_false (fun hmem => hready ((h.mem _ u).mp hmem).1) (fun hc => hp hc.2.symm)
    · rw [Function.update_of_ne hu, ← h.mem p u]
      by_cases hp : p = (s.thread t).currentPriority
      · subst hp
        rw [Function.update_self, List.mem_append, List.mem_singleton]
        exact or_iff_left hu
      · rw [Function.update_of_ne hp]
  · dsimp only [Scheduler.update]
    by_cases hp : p = (s.thread t).currentPriority
    · subst hp
      rw [Function.update_self]
      exact (h.nodup _).append (List.nodup_singleton t)
        (by simpa using hout)
    · rw [Function.update_of_ne hp]
      exact h.nodup p
  · dsimp only [Scheduler.update]
    rw [BitVec.getLsbD_or, h.group p hp, hmask, getLsbD_priorityMask hp]
    by_cases hpt : p = (s.thread t).currentPriority
    · subst hpt
      rw [Function.update_self]
      simp
    · rw [Function.update_of_ne hpt]
      simp [hpt]
  · by_cases hu : u = t
    · subst hu
      simp only [Scheduler.update, Function.update_self]
      exact ⟨hpriority, hlt, Or.inl hmask⟩
    · simp only [Scheduler.update, Function.update_of_ne hu]
      exact h.valid u

@[simp] theorem thread_remove : (scheduleRemoveThread s t).thread = s.thread := by
  unfold scheduleRemoveThread
  dsimp only
  split <;> rfl

@[simp] theorem currentThread_remove :
    (scheduleRemoveThread s t).currentThread = s.currentThread := by
  unfold scheduleRemoveThread
  dsimp only
  split <;> rfl

@[simp] theorem lockNest_remove : (scheduleRemoveThread s t).lockNest = s.lockNest := by
  unfold scheduleRemoveThread
  dsimp only
  split <;> rfl

/-- Removing takes a thread out of its queue. -/
theorem priorityTable_remove (p : Nat) :
    (scheduleRemoveThread s t).priorityTable p = (s.priorityTable p).filter (· ≠ t) := by
  unfold scheduleRemoveThread
  dsimp only
  split <;> rfl

/-- The bit of a priority is cleared with its last thread. -/
theorem group_remove (t : Nat) :
    (scheduleRemoveThread s t).readyPriorityGroup =
      if (s.priorityTable (s.thread t).currentPriority).filter (· ≠ t) = [] then
        s.readyPriorityGroup &&& ~~~(s.thread t).numberMask
      else s.readyPriorityGroup := by
  unfold scheduleRemoveThread
  dsimp only
  split <;> rfl

/-- No queue holds a thread that is not ready. -/
theorem Queued.filter_of_not_ready (h : Queued s) (hready : (s.thread t).stat ≠ .ready) {p : Nat} :
    (s.priorityTable p).filter (· ≠ t) = s.priorityTable p := by
  refine List.filter_eq_self.mpr fun u hu => decide_eq_true ?_
  rintro rfl
  exact hready ((h.mem p u).mp hu).1

/-- The other queues do not hold the thread. -/
theorem Queued.filter_of_ne (h : Queued s) {p : Nat} (hp : p ≠ (s.thread t).currentPriority) :
    (s.priorityTable p).filter (· ≠ t) = s.priorityTable p := by
  refine List.filter_eq_self.mpr fun u hu => decide_eq_true ?_
  rintro rfl
  exact hp ((h.mem p u).mp hu).2.symm

/-- A thread leaves the queue that it is in. -/
theorem Queued.remove (h : Queued s) (hnew : (f (s.thread t)).stat ≠ .ready)
    (hvalid : PriorityValid (f (s.thread t))) :
    Queued ((scheduleRemoveThread s t).update t f) := by
  refine ⟨fun p u => ?_, fun p => ?_, fun p hp => ?_, fun u => ?_⟩
  · show u ∈ (scheduleRemoveThread s t).priorityTable p ↔ _
    rw [priorityTable_remove, List.mem_filter, h.mem]
    by_cases hu : u = t
    · subst hu
      rw [thread_update_self, thread_remove]
      exact iff_of_false (by simp) (fun hc => hnew hc.1)
    · rw [thread_update_of_ne hu, thread_remove]
      exact and_iff_left (decide_eq_true hu)
  · show ((scheduleRemoveThread s t).priorityTable p).Nodup
    rw [priorityTable_remove]
    exact (h.nodup p).filter _
  · show (scheduleRemoveThread s t).readyPriorityGroup.getLsbD p =
      !((scheduleRemoveThread s t).priorityTable p).isEmpty
    have hbit := h.group p hp
    rw [priorityTable_remove, group_remove]
    by_cases hpt : p = (s.thread t).currentPriority
    · subst hpt
      by_cases hempty : (s.priorityTable (s.thread t).currentPriority).filter (· ≠ t) = []
      · rw [if_pos hempty, hempty, BitVec.getLsbD_and, BitVec.getLsbD_not, hbit]
        rcases (h.valid t).mask with hmask | ⟨-, hoff⟩
        · rw [hmask, getLsbD_priorityMask hp]
          simp
        · have hnotReady : (s.thread t).stat ≠ .ready := by
            intro hready
            rw [hready] at hoff
            rcases hoff with hoff | hoff <;> cases hoff
          rw [← h.filter_of_not_ready hnotReady, hempty]
          rfl
      · have hfull : s.priorityTable (s.thread t).currentPriority ≠ [] :=
          fun hnil => hempty (by rw [hnil, List.filter_nil])
        rw [if_neg hempty, hbit, List.isEmpty_eq_false_iff.mpr hempty,
          List.isEmpty_eq_false_iff.mpr hfull]
    · rw [h.filter_of_ne hpt, ← hbit]
      split
      · have hclear : (s.thread t).numberMask.getLsbD p = false := by
          rcases (h.valid t).mask with hmask | ⟨hmask, -⟩
          · rw [hmask, getLsbD_priorityMask hp, decide_eq_false hpt]
          · rw [hmask, BitVec.ofNat_eq_ofNat, BitVec.getLsbD_zero]
        rw [BitVec.getLsbD_and, BitVec.getLsbD_not, hclear, decide_eq_true hp, Bool.not_false,
          Bool.and_true, Bool.and_true]
      · rfl
  · by_cases hu : u = t
    · subst hu
      rw [thread_update_self, thread_remove]
      exact hvalid
    · rw [thread_update_of_ne hu, thread_remove]
      exact h.valid u

/-- The bit of a thread that is ready. -/
theorem Queued.getLsbD_group (h : Queued s) (hready : (s.thread t).stat = .ready) :
    s.readyPriorityGroup.getLsbD (s.thread t).currentPriority = true := by
  have hlt := (h.valid t).current
  have hmem : t ∈ s.priorityTable (s.thread t).currentPriority := (h.mem _ t).mpr ⟨hready, rfl⟩
  rw [h.group _ hlt, List.isEmpty_eq_false_iff.mpr (List.ne_nil_of_mem hmem), Bool.not_false]

/-- The first thread of the highest priority of which one is ready. -/
theorem Queued.highest (h : Queued s) (hready : (s.thread t).stat = .ready) :
    ∃ first rest p, s.priorityTable p = first :: rest ∧
      highestPriorityThread s = some (first, p) ∧ s.readyPriorityGroup ≠ 0 ∧
      ∀ u, (s.thread u).stat = .ready → p ≤ (s.thread u).currentPriority := by
  have hgroup : s.readyPriorityGroup ≠ 0 := by
    intro hzero
    have hbit := h.getLsbD_group hready
    rw [hzero, BitVec.ofNat_eq_ofNat, BitVec.getLsbD_zero] at hbit
    cases hbit
  obtain ⟨p, hffs, hset, hclear⟩ := rtFfs_spec hgroup
  have hlt : p < 32 := by
    by_contra hge
    rw [BitVec.getLsbD_of_ge _ _ (Nat.not_lt.mp hge)] at hset
    cases hset
  rw [h.group p hlt] at hset
  cases htable : s.priorityTable p with
  | nil =>
    rw [htable] at hset
    cases hset
  | cons first rest =>
    refine ⟨first, rest, p, htable, ?_, hgroup, fun u hu => Nat.not_lt.mp fun hlow => ?_⟩
    · rw [highestPriorityThread, hffs, Nat.add_sub_cancel, htable]
      rfl
    · have hbit := h.getLsbD_group hu
      rw [hclear _ hlow] at hbit
      cases hbit

/-- Where no thread is ready no bit is set. -/
theorem Queued.group_eq_zero (h : Queued s) (hnone : ∀ t, (s.thread t).stat ≠ .ready) :
    s.readyPriorityGroup = 0 := by
  refine BitVec.eq_of_getLsbD_eq fun p hp => ?_
  have hempty : s.priorityTable p = [] :=
    List.eq_nil_iff_forall_not_mem.mpr fun t ht => hnone t ((h.mem p t).mp ht).1
  rw [h.group p hp, hempty]
  exact BitVec.getLsbD_zero.symm

end Queues

end HpmSdk.Rtt
