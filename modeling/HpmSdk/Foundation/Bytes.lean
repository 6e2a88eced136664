import Mathlib.Data.List.GetD
import Mathlib.Tactic.Ring
import Mathlib.Tactic.Linarith

set_option autoImplicit false

/-!
# Foundation: byte buffers and big-endian numbers

A C buffer is a function from byte offsets to bytes.  This module fixes the
big-endian reading `beVal` of a stretch of a buffer and the big-endian encoding
`beBytes` of a number in a given width, and proves that each determines the
other.  Nothing here names a particular program.
-/

namespace HpmSdk.Foundation

/-- The contents of a byte buffer, by offset from its start. -/
abbrev Buf : Type := Nat → UInt8

namespace Buf

/-- Store one byte. -/
def set (b : Buf) (k : Nat) (v : UInt8) : Buf := fun i => if i = k then v else b i

/-- Copy the `n` bytes `src 0 .. src (n - 1)` to offset `off` (`memcpy`). -/
def copy (b : Buf) (off : Nat) (src : Buf) (n : Nat) : Buf :=
  fun i => if off ≤ i ∧ i < off + n then src (i - off) else b i

/-- Fill `n` bytes from offset `off` with `v` (`memset`). -/
def fill (b : Buf) (off : Nat) (v : UInt8) (n : Nat) : Buf :=
  fun i => if off ≤ i ∧ i < off + n then v else b i

/-- The bytes from an offset on. -/
def drop (b : Buf) (off : Nat) : Buf := fun i => b (off + i)

/-- The buffer holding the bytes of a list, zero behind them. -/
def ofList (l : List UInt8) : Buf := fun i => l.getD i 0

/-- The `n` bytes from offset `off`, as a list. -/
def toList (b : Buf) (off n : Nat) : List UInt8 := (List.range n).map fun i => b (off + i)

@[simp] theorem set_self (b : Buf) (k : Nat) (v : UInt8) : b.set k v k = v := by
  simp [set]

theorem set_of_ne {b : Buf} {k i : Nat} (v : UInt8) (h : i ≠ k) : b.set k v i = b i := by
  simp [set, h]

@[simp] theorem length_toList (b : Buf) (off n : Nat) : (b.toList off n).length = n := by
  simp [toList]

theorem getD_toList (b : Buf) (off : Nat) {n i : Nat} (h : i < n) :
    (b.toList off n).getD i 0 = b (off + i) := by
  simp [toList, List.getD_eq_getElem?_getD, h]

/-- Stretches that agree byte by byte are the same list. -/
theorem toList_congr {b c : Buf} {off off' n : Nat}
    (h : ∀ i < n, b (off + i) = c (off' + i)) : b.toList off n = c.toList off' n := by
  refine List.map_congr_left fun i hi => ?_
  exact h i (List.mem_range.mp hi)

/-- A stretch is its first part and the rest behind it. -/
theorem toList_add (b : Buf) (off m n : Nat) :
    b.toList off (m + n) = b.toList off m ++ b.toList (off + m) n := by
  simp [toList, List.range_add, Function.comp_def, Nat.add_assoc]

@[simp] theorem toList_zero (b : Buf) (off : Nat) : b.toList off 0 = [] := rfl

theorem toList_drop (b : Buf) (off k n : Nat) : (b.drop off).toList k n = b.toList (off + k) n :=
  toList_congr fun i _ => by rw [drop, Nat.add_assoc]

/-- A copy that ends a stretch leaves the bytes in front of it. -/
theorem toList_copy (b src : Buf) (off n : Nat) :
    (b.copy off src n).toList 0 (off + n) = b.toList 0 off ++ src.toList 0 n := by
  rw [toList_add]
  congr 1
  · refine toList_congr fun i hi => ?_
    rw [copy, if_neg (by omega)]
  · refine toList_congr fun i hi => ?_
    rw [copy, if_pos (by omega)]
    congr 1
    omega

theorem toList_ofList (l : List UInt8) : (ofList l).toList 0 l.length = l := by
  apply List.ext_getElem (by simp)
  intro i h₁ h₂
  simp [toList, ofList, List.getD_eq_getElem?_getD, h₂]

/-- The bytes just copied. -/
theorem toList_copy_self (b src : Buf) (off n : Nat) :
    (b.copy off src n).toList off n = src.toList 0 n := by
  refine toList_congr fun i hi => ?_
  rw [copy, if_pos (by omega)]
  congr 1
  omega

/-- Two adjacent copies are one. -/
theorem copy_append (b : Buf) (off : Nat) (x y : List UInt8) :
    (b.copy off (ofList x) x.length).copy (off + x.length) (ofList y) y.length =
      b.copy off (ofList (x ++ y)) (x ++ y).length := by
  funext i
  simp only [copy, ofList, List.length_append]
  rcases Nat.lt_or_ge i (off + x.length) with hlt | hge
  · rw [if_neg (by omega)]
    by_cases hoff : off ≤ i
    · rw [if_pos ⟨hoff, hlt⟩, if_pos (by omega), List.getD_append _ _ _ _ (by omega)]
    · rw [if_neg (fun h => hoff h.1), if_neg (fun h => hoff h.1)]
  · by_cases hend : i < off + x.length + y.length
    · rw [if_pos ⟨hge, hend⟩, if_pos (by omega), List.getD_append_right _ _ _ _ (by omega),
        Nat.sub_add_eq]
    · rw [if_neg (fun h => hend h.2), if_neg (by omega), if_neg (by omega)]

end Buf

/-! ## Big-endian values -/

/-- The number whose big-endian bytes are `b a, …, b (a + n - 1)`. -/
def beVal (b : Buf) (a : Nat) : Nat → Nat
  | 0 => 0
  | n + 1 => beVal b a n * 256 + (b (a + n)).toNat

/-- A number of `n` bytes is below `256 ^ n`. -/
theorem beVal_lt (b : Buf) (a n : Nat) : beVal b a n < 256 ^ n := by
  induction n with
  | zero => simp [beVal]
  | succ n ih =>
    have hb : (b (a + n)).toNat < 256 := UInt8.toNat_lt _
    rw [beVal, pow_succ]
    omega

/-- The value of a stretch depends on its bytes only. -/
theorem beVal_congr {b c : Buf} {a a' n : Nat}
    (h : ∀ k < n, b (a + k) = c (a' + k)) : beVal b a n = beVal c a' n := by
  induction n with
  | zero => rfl
  | succ n ih =>
    rw [beVal, beVal, ih fun k hk => h k (by omega), h n (by omega)]

/-- The value determines the bytes. -/
theorem beVal_inj {b c : Buf} {a a' n : Nat} (h : beVal b a n = beVal c a' n) :
    ∀ k < n, b (a + k) = c (a' + k) := by
  induction n with
  | zero => intro k hk; omega
  | succ n ih =>
    have hb : (b (a + n)).toNat < 256 := UInt8.toNat_lt _
    have hc : (c (a' + n)).toNat < 256 := UInt8.toNat_lt _
    rw [beVal, beVal] at h
    intro k hk
    rcases Nat.lt_or_ge k n with hlt | hge
    · exact ih (by omega) k hlt
    · have hkn : k = n := by omega
      subst hkn
      exact UInt8.toNat_inj.mp (by omega)

/-- Reading two adjacent stretches. -/
theorem beVal_add (b : Buf) (a m n : Nat) :
    beVal b a (m + n) = beVal b a m * 256 ^ n + beVal b (a + m) n := by
  induction n with
  | zero => simp [beVal]
  | succ n ih =>
    rw [← Nat.add_assoc, beVal, ih, beVal, Nat.add_assoc a m n, pow_succ]
    ring

/-! ## Big-endian encodings -/

/-- The big-endian encoding of `n` in `len` bytes; higher bytes are dropped. -/
def beBytes (len n : Nat) : List UInt8 :=
  (List.range len).map fun i => UInt8.ofNat (n / 256 ^ (len - 1 - i))

@[simp] theorem length_beBytes (len n : Nat) : (beBytes len n).length = len := by
  simp [beBytes]

/-- Byte `i` of an encoding, counted from the most significant one. -/
theorem getD_beBytes (n : Nat) {len i : Nat} (h : i < len) :
    (beBytes len n).getD i 0 = UInt8.ofNat (n / 256 ^ (len - 1 - i)) := by
  simp [beBytes, List.getD_eq_getElem?_getD, h]

/-- A buffer that holds the digits of `n` has the value of `n` in that width. -/
theorem beVal_of_digits {b : Buf} {a len n : Nat}
    (h : ∀ i < len, b (a + i) = UInt8.ofNat (n / 256 ^ (len - 1 - i))) :
    beVal b a len = n % 256 ^ len := by
  induction len generalizing n with
  | zero => simp [beVal, Nat.mod_one]
  | succ len ih =>
    have hlast : (b (a + len)).toNat = n % 256 := by
      rw [h len (by omega)]
      simp
    have hrest : beVal b a len = (n / 256) % 256 ^ len := by
      apply ih
      intro i hi
      rw [h i (by omega), Nat.div_div_eq_div_mul, ← pow_succ']
      congr 3
      omega
    rw [beVal, hrest, hlast, pow_succ', Nat.mod_mul]
    ring

end HpmSdk.Foundation
