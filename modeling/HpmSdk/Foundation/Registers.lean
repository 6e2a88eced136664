import HpmSdk.Foundation.Bits

set_option autoImplicit false

/-!
# Fields of a register

A field is set by shifting and masking a value, and read by masking and shifting the
register.  What is read is what was set, cut to the width of the field, and fields that
lie apart do not see each other.
-/

namespace HpmSdk.Foundation

/-- Bits that are ored into a word leave it as it is where it has them all. -/
theorem or_eq_right_iff {n : Nat} {v w : BitVec n} : v ||| w = w ↔ v &&& ~~~w = 0#n := by
  constructor
  · intro h
    rw [← h, BitVec.not_or, ← BitVec.and_assoc, BitVec.and_not_self]
    exact BitVec.zero_and
  · intro h
    refine BitVec.eq_of_getLsbD_eq fun i hi => ?_
    have hbit := congrArg (fun u => u.getLsbD i) h
    simp only [BitVec.getLsbD_and, BitVec.getLsbD_not, hi, decide_true, Bool.true_and,
      BitVec.getLsbD_zero] at hbit
    rw [BitVec.getLsbD_or]
    cases hv : v.getLsbD i
    · rw [Bool.false_or]
    · rw [hv, Bool.true_and, Bool.not_eq_false'] at hbit
      rw [hbit, Bool.true_or]

/-- The word with one bit. -/
theorem getLsbD_one_shiftLeft {n i : Nat} (hi : i < n) (j : Nat) :
    ((1 : BitVec n) <<< i).getLsbD j = decide (i = j) := by
  rw [show (1 : BitVec n) <<< i = BitVec.twoPow n i from rfl, BitVec.getLsbD_twoPow]
  by_cases h : i = j
  · simp [h, h ▸ hi]
  · simp [h]

/-- A bit is tested by masking the word with it. -/
theorem and_one_shiftLeft_ne_zero {n i : Nat} (hi : i < n) (v : BitVec n) :
    v &&& (1 : BitVec n) <<< i ≠ 0#n ↔ v.getLsbD i = true := by
  constructor
  · intro h
    by_contra hbit
    refine h (BitVec.eq_of_getLsbD_eq fun j _ => ?_)
    rw [BitVec.getLsbD_and, getLsbD_one_shiftLeft hi, BitVec.getLsbD_zero]
    by_cases heq : i = j
    · rw [← heq, eq_false_of_ne_true hbit, Bool.false_and]
    · rw [decide_eq_false heq, Bool.and_false]
  · intro hbit h
    have hat := congrArg (fun w => w.getLsbD i) h
    rw [BitVec.getLsbD_and, getLsbD_one_shiftLeft hi, hbit, decide_eq_true rfl,
      BitVec.getLsbD_zero] at hat
    exact Bool.false_ne_true hat.symm

/-- A field of a register, by its first bit and its width. -/
structure RegField where
  first : Nat
  width : Nat
  deriving DecidableEq, Repr

namespace RegField

/-- `.._MASK`. -/
def mask (f : RegField) (n : Nat) : BitVec n := BitVec.ofNat n (fieldMask f.first f.width)

/-- `.._SET(x)`. -/
def set {n : Nat} (f : RegField) (x : BitVec n) : BitVec n := x <<< f.first &&& f.mask n

/-- `.._GET(v)`. -/
def get {n : Nat} (f : RegField) (v : BitVec n) : BitVec n := (v &&& f.mask n) >>> f.first

/-- Fields without a common bit. -/
def Apart (f g : RegField) : Prop :=
  f.first + f.width ≤ g.first ∨ g.first + g.width ≤ f.first

instance (f g : RegField) : Decidable (f.Apart g) := inferInstanceAs (Decidable (_ ∨ _))

theorem Apart.symm {f g : RegField} (h : f.Apart g) : g.Apart f := Or.symm h

section Bits

variable {n : Nat} (f : RegField) (v x : BitVec n) (i : Nat)

/-- The mask of a field has the bits of the field. -/
theorem getLsbD_mask : (f.mask n).getLsbD i =
    decide (i < n ∧ f.first ≤ i ∧ i < f.first + f.width) := by
  unfold mask
  rw [BitVec.getLsbD_ofNat, testBit_fieldMask, ← Bool.decide_and]

/-- A value is shifted to the field and masked, so nothing of it gets outside. -/
theorem getLsbD_set : (f.set x).getLsbD i =
    (decide (i < n ∧ f.first ≤ i ∧ i < f.first + f.width) && x.getLsbD (i - f.first)) := by
  unfold set
  rw [BitVec.getLsbD_and, BitVec.getLsbD_shiftLeft, getLsbD_mask]
  by_cases hn : i < n
  · by_cases hi : f.first ≤ i
    · simp [hn, hi, Nat.not_lt.mpr hi, Bool.and_comm]
    · simp [hi]
  · simp [hn]

/-- Bit `i` of what is read is bit `first + i` of the register. -/
theorem getLsbD_get : (f.get v).getLsbD i =
    (decide (i < f.width) && v.getLsbD (f.first + i)) := by
  unfold get
  rw [BitVec.getLsbD_ushiftRight, BitVec.getLsbD_and, getLsbD_mask, Bool.and_comm]
  by_cases hi : i < f.width
  · by_cases hn : f.first + i < n
    · simp [hi, hn]
    · simp [hn, BitVec.getLsbD_of_ge v _ (Nat.le_of_not_lt hn)]
  · simp [hi]

/-- A field at the start of a register cuts a value to its width. -/
theorem set_zero_toNat (width : Nat) (hw : width ≤ n) :
    ((RegField.mk 0 width).set x).toNat = x.toNat % 2 ^ width := by
  refine Nat.eq_of_testBit_eq fun i => ?_
  rw [Nat.testBit_mod_two_pow, BitVec.testBit_toNat, BitVec.testBit_toNat, getLsbD_set]
  refine congrArg (· && x.getLsbD i) (decide_eq_decide.mpr ?_)
  dsimp only
  omega

end Bits

section Fields

variable {n : Nat} {f g : RegField} (v w x : BitVec n)

theorem get_or : f.get (v ||| w) = f.get v ||| f.get w := by
  refine BitVec.eq_of_getLsbD_eq fun i _ => ?_
  rw [BitVec.getLsbD_or, getLsbD_get, getLsbD_get, getLsbD_get, BitVec.getLsbD_or,
    Bool.and_or_distrib_left]

theorem get_and_not : f.get (v &&& ~~~w) = f.get v &&& ~~~f.get w := by
  refine BitVec.eq_of_getLsbD_eq fun i hin => ?_
  rw [BitVec.getLsbD_and, BitVec.getLsbD_not, getLsbD_get, getLsbD_get, getLsbD_get,
    BitVec.getLsbD_and, BitVec.getLsbD_not]
  by_cases hi : i < f.width
  · by_cases hn : f.first + i < n
    · simp [hi, hn, hin]
    · simp [BitVec.getLsbD_of_ge v _ (Nat.le_of_not_lt hn)]
  · simp [hi]

/-- Bits that a field does not see can be masked out. -/
theorem get_and_not_of_get_eq_zero (h : f.get w = 0#n) : f.get (v &&& ~~~w) = f.get v := by
  rw [get_and_not, h, BitVec.not_zero, BitVec.and_allOnes]

/-- What is read is what was set, cut to the width of the field. -/
theorem get_set_toNat (hn : f.first + f.width ≤ n) :
    (f.get (f.set x)).toNat = x.toNat % 2 ^ f.width := by
  refine Nat.eq_of_testBit_eq fun i => ?_
  rw [Nat.testBit_mod_two_pow, BitVec.testBit_toNat, BitVec.testBit_toNat, getLsbD_get,
    getLsbD_set, Nat.add_sub_cancel_left]
  by_cases hi : i < f.width
  · have hlt : f.first + i < n := by omega
    simp [hi, hlt]
  · simp [hi]

/-- A value that fits is read back as it was set. -/
theorem get_set_of_lt (hn : f.first + f.width ≤ n) (hx : x.toNat < 2 ^ f.width) :
    f.get (f.set x) = x := by
  refine BitVec.eq_of_toNat_eq ?_
  rw [get_set_toNat x hn]
  exact Nat.mod_eq_of_lt hx

/-- Setting a value that fits a field is shifting it. -/
theorem set_of_lt (hx : x.toNat < 2 ^ f.width) : f.set x = x <<< f.first := by
  refine BitVec.eq_of_getLsbD_eq fun i hi => ?_
  rw [getLsbD_set, BitVec.getLsbD_shiftLeft]
  by_cases hfirst : i < f.first
  · simp [hfirst, Nat.not_le.mpr hfirst]
  · by_cases hwidth : i < f.first + f.width
    · simp [hi, hfirst, hwidth, Nat.le_of_not_lt hfirst]
    · have hout : x.getLsbD (i - f.first) = false := by
        rw [← BitVec.testBit_toNat]
        exact Nat.testBit_lt_two_pow
          (hx.trans_le (Nat.pow_le_pow_right Nat.two_pos (by omega)))
      rw [hout, Bool.and_false, Bool.and_false]

/-- A field does not see bits that are in another one. -/
theorem get_eq_zero_of_apart (h : f.Apart g)
    (hw : ∀ i, w.getLsbD i = true → g.first ≤ i ∧ i < g.first + g.width) : f.get w = 0#n := by
  refine BitVec.eq_of_getLsbD_eq fun i _ => ?_
  rw [getLsbD_get, BitVec.getLsbD_zero]
  by_contra hbit
  rw [Bool.not_eq_false, Bool.and_eq_true, decide_eq_true_iff] at hbit
  have hin := hw _ hbit.2
  unfold Apart at h
  omega

/-- A field does not see what is set in another one. -/
theorem get_set_of_apart (h : f.Apart g) : f.get (g.set x) = 0#n := by
  apply get_eq_zero_of_apart _ h
  intro i hi
  rw [getLsbD_set, Bool.and_eq_true, decide_eq_true_iff] at hi
  exact hi.1.2

/-- A field does not see the mask of another one. -/
theorem get_mask_of_apart (h : f.Apart g) : f.get (g.mask n) = 0#n := by
  apply get_eq_zero_of_apart _ h
  intro i hi
  rw [getLsbD_mask, decide_eq_true_iff] at hi
  exact hi.2

/-- A field is zero where nothing is left of the register behind its mask. -/
theorem and_mask_eq_zero : v &&& f.mask n = 0#n ↔ f.get v = 0#n := by
  refine ⟨fun h => ?_, fun h => ?_⟩
  · unfold get
    rw [h, BitVec.zero_ushiftRight]
  · refine BitVec.eq_of_getLsbD_eq fun i _ => ?_
    rw [BitVec.getLsbD_and, getLsbD_mask, BitVec.getLsbD_zero]
    by_cases hin : i < n ∧ f.first ≤ i ∧ i < f.first + f.width
    · have hbit := congrArg (fun w => w.getLsbD (i - f.first)) h
      have hlt : i - f.first < f.width := by omega
      simp only [getLsbD_get, BitVec.getLsbD_zero, hlt, decide_true, Bool.true_and,
        Nat.add_sub_cancel' hin.2.1] at hbit
      rw [hbit, Bool.false_and]
    · rw [decide_eq_false hin, Bool.and_false]

/-- Masking with its own mask keeps a field. -/
theorem get_and_mask : f.get (v &&& f.mask n) = f.get v := by
  unfold get
  rw [BitVec.and_assoc, BitVec.and_self]

/-- A field that is masked out is zero. -/
theorem get_clear : f.get (v &&& ~~~f.mask n) = 0#n := by
  refine BitVec.eq_of_getLsbD_eq fun i _ => ?_
  rw [getLsbD_get, BitVec.getLsbD_and, BitVec.getLsbD_not, getLsbD_mask, BitVec.getLsbD_zero]
  by_cases hi : i < f.width
  · by_cases hn : f.first + i < n
    · simp [hi, hn]
    · simp [hn]
  · simp [hi]

/-- Masking another field out keeps a field. -/
theorem get_clear_of_apart (h : f.Apart g) : f.get (v &&& ~~~g.mask n) = f.get v :=
  get_and_not_of_get_eq_zero _ _ (get_mask_of_apart h)

/-- A field is stored, and the fields beside it stay. -/
theorem get_store (hn : f.first + f.width ≤ n) :
    (f.get (v &&& ~~~f.mask n ||| f.set x)).toNat = x.toNat % 2 ^ f.width := by
  rw [get_or, get_clear, BitVec.zero_or, get_set_toNat _ hn]

/-- Storing to one field leaves what is read of another one. -/
theorem get_store_of_apart (h : f.Apart g) :
    f.get (v &&& ~~~g.mask n ||| g.set x) = f.get v := by
  rw [get_or, get_clear_of_apart _ h, get_set_of_apart _ h, BitVec.or_zero]

theorem get_zero : f.get 0#n = 0#n := by
  refine BitVec.eq_of_getLsbD_eq fun i _ => ?_
  rw [getLsbD_get, BitVec.getLsbD_zero, BitVec.getLsbD_zero, Bool.and_false]

/-- What is read of a field fits its width. -/
theorem get_lt (hn : f.first + f.width ≤ n) : (f.get v).toNat < 2 ^ f.width := by
  unfold get mask
  have hmask : (BitVec.ofNat n (fieldMask f.first f.width)).toNat = fieldMask f.first f.width := by
    refine Nat.mod_eq_of_lt ?_
    unfold fieldMask
    calc (2 ^ f.width - 1) * 2 ^ f.first < 2 ^ f.width * 2 ^ f.first :=
          Nat.mul_lt_mul_of_pos_right (Nat.sub_lt (Nat.two_pow_pos _) Nat.one_pos)
            (Nat.two_pow_pos _)
      _ = 2 ^ (f.width + f.first) := (Nat.pow_add _ _ _).symm
      _ ≤ 2 ^ n := Nat.pow_le_pow_right Nat.two_pos (by omega)
  rw [maskShift_toNat hmask]
  exact field_lt _ _ _

/-- A field holds a value exactly where the value fits it. -/
theorem get_set_eq_iff (hn : f.first + f.width ≤ n) :
    f.get (f.set x) = x ↔ x.toNat < 2 ^ f.width := by
  refine ⟨fun h => ?_, get_set_of_lt x hn⟩
  rw [← h]
  exact get_lt _ hn

end Fields

/-! ## Several fields -/

section Sets

variable {n : Nat} {f : RegField} {x : BitVec n}

/-- Fields with their values, ored together. -/
def sets : List (RegField × BitVec n) → BitVec n
  | [] => 0#n
  | p :: l => p.1.set p.2 ||| sets l

/-- A field that none of the values is set to reads 0. -/
theorem get_sets_of_apart : ∀ {l : List (RegField × BitVec n)},
    (∀ g ∈ l.map Prod.fst, f.Apart g) → f.get (sets l) = 0#n
  | [], _ => get_zero
  | p :: l, h => by
    have hhead : f.Apart p.1 := h p.1 (List.mem_cons_self)
    have htail : f.get (sets l) = 0#n :=
      get_sets_of_apart fun g hg => h g (List.mem_cons_of_mem _ hg)
    rw [sets, get_or, get_set_of_apart _ hhead, htail, BitVec.or_zero]

/-- Of fields that lie apart, each holds its value. -/
theorem get_sets_of_mem : ∀ {l : List (RegField × BitVec n)},
    (l.map Prod.fst).Pairwise Apart → (f, x) ∈ l → f.get (sets l) = f.get (f.set x)
  | p :: l, hl, hmem => by
    rw [List.map_cons, List.pairwise_cons] at hl
    rw [sets, get_or]
    rcases List.mem_cons.mp hmem with hp | hmem
    · rw [← hp]
      rw [← hp] at hl
      rw [get_sets_of_apart hl.1, BitVec.or_zero]
    · have happart : p.1.Apart f := hl.1 f (List.mem_map_of_mem hmem)
      rw [get_set_of_apart _ happart.symm, BitVec.zero_or]
      exact get_sets_of_mem hl.2 hmem

/-- Of several fields that lie apart each one reads what it was set to. -/
theorem get_sets_of_lt {l : List (RegField × BitVec n)} (hl : (l.map Prod.fst).Pairwise Apart)
    (hmem : (f, x) ∈ l) (hn : f.first + f.width ≤ n) (hx : x.toNat < 2 ^ f.width) :
    f.get (sets l) = x :=
  (get_sets_of_mem hl hmem).trans (get_set_of_lt x hn hx)

end Sets

end RegField

end HpmSdk.Foundation
