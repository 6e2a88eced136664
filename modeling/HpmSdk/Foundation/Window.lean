import Mathlib.Tactic.Ring

set_option autoImplicit false

/-!
# Windows in images

An image is rows of pixels in memory, one behind the other.  A window is programmed by the
address of its first pixel, the distance of its rows and its size.  Where neither the address nor
the distance is beyond that of the image, the window stays in its place in the image exactly if
both are right and its rows end before those of the image do.
-/

namespace HpmSdk.Foundation

/-- A pixel in memory. -/
structure Pixel where
  addr : Nat
  size : Nat
  deriving DecidableEq, Repr

/-- A buffer of rows of pixels. -/
structure Image where
  base : Nat
  rowWidth : Nat
  size : Nat
  deriving DecidableEq, Repr

/-- The pixel in a column of a row. -/
def Image.pixel (image : Image) (column row : Nat) : Pixel :=
  ⟨image.base + (row * image.rowWidth + column) * image.size, image.size⟩

/-- A window as it is programmed. -/
structure Window where
  base : Nat
  pitch : Nat
  width : Nat
  height : Nat
  size : Nat
  deriving DecidableEq, Repr

/-- The pixel in a column of a row of a window. -/
def Window.pixel (w : Window) (column row : Nat) : Pixel :=
  ⟨w.base + row * w.pitch + column * w.size, w.size⟩

/-- Every pixel of a window is in the row of the image that is its own, from column `x` on. -/
def Window.Within (w : Window) (image : Image) (x y : Nat) : Prop :=
  ∀ i j, i < w.width → j < w.height →
    ∃ column, x ≤ column ∧ column < image.rowWidth ∧ w.pixel i j = image.pixel column (y + j)

/-- What a window that has pixels is programmed with to be within an image. -/
structure Window.Placed (w : Window) (image : Image) (x y : Nat) : Prop where
  size : w.size = image.size
  base : w.base = image.base + (y * image.rowWidth + x) * image.size
  width : x + w.width ≤ image.rowWidth
  pitch : 2 ≤ w.height → w.pitch = image.rowWidth * image.size

/-- A window without pixels. -/
def Window.Empty (w : Window) : Prop := w.width = 0 ∨ w.height = 0

instance (w : Window) : Decidable w.Empty := inferInstanceAs (Decidable (_ ∨ _))

section Windows

variable {w : Window} {image : Image} {x y : Nat}

/-- A window without pixels is within every image. -/
theorem Window.within_of_empty (h : w.Empty) : w.Within image x y := by
  intro i j hi hj
  unfold Empty at h
  omega

/-- A window in its place, with rows that end in time, touches only its own pixels. -/
theorem Window.Placed.within (h : w.Placed image x y) : w.Within image x y := by
  intro i j hi hj
  have hwidth := h.width
  refine ⟨x + i, Nat.le_add_right x i, by omega, ?_⟩
  unfold Window.pixel Image.pixel
  rw [Pixel.mk.injEq]
  refine ⟨?_, h.size⟩
  cases j with
  | zero =>
    rw [h.base, h.size]
    ring
  | succ j =>
    rw [h.base, h.size, h.pitch (by omega)]
    ring

/-- What holds of the address and the pitch of a window that is within an image. -/
theorem Window.Within.placed (hsize : 0 < w.size)
    (hbase : w.base ≤ image.base + (y * image.rowWidth + x) * image.size)
    (hpitch : w.size = image.size → 0 < image.rowWidth → w.pitch ≤ image.rowWidth * image.size)
    (hempty : ¬ w.Empty) (h : w.Within image x y) : w.Placed image x y := by
  unfold Empty at hempty
  have hwidth : 0 < w.width := by omega
  have hheight : 0 < w.height := by omega
  -- the first pixel
  obtain ⟨column, hle, hlt, heq⟩ := h 0 0 hwidth hheight
  unfold Window.pixel Image.pixel at heq
  obtain ⟨haddr, hsizes⟩ := Pixel.mk.inj heq
  simp only [Nat.zero_mul, Nat.add_zero] at haddr
  have hpos : 0 < image.size := hsizes ▸ hsize
  have hbase' : w.base = image.base + (y * image.rowWidth + x) * image.size := by
    have hmono : (y * image.rowWidth + x) * image.size ≤
        (y * image.rowWidth + column) * image.size :=
      Nat.mul_le_mul_right _ (Nat.add_le_add_left hle _)
    omega
  refine ⟨hsizes, hbase', ?_, ?_⟩
  · -- the last pixel of the first row
    obtain ⟨last, -, hlast, heq⟩ := h (w.width - 1) 0 (by omega) hheight
    have haddr := (Pixel.mk.inj heq).1
    simp only [hbase', hsizes, Nat.zero_mul, Nat.add_zero] at haddr
    have hmul : (y * image.rowWidth + x + (w.width - 1)) * image.size =
        (y * image.rowWidth + last) * image.size := by
      rw [Nat.add_mul _ (w.width - 1)]
      omega
    have hcolumn := Nat.eq_of_mul_eq_mul_right hpos hmul
    omega
  · -- the first pixel of the second row
    intro hrows
    obtain ⟨first, hfirst, -, heq⟩ := h 0 1 hwidth (by omega)
    have haddr := (Pixel.mk.inj heq).1
    simp only [hbase', Nat.one_mul, Nat.zero_mul, Nat.add_zero] at haddr
    have hmono : (y * image.rowWidth + x) * image.size + image.rowWidth * image.size ≤
        ((y + 1) * image.rowWidth + first) * image.size := by
      rw [← Nat.add_mul]
      refine Nat.mul_le_mul_right _ ?_
      rw [Nat.succ_mul]
      omega
    have hle' := hpitch hsizes (by omega)
    omega

/-- **A window that has pixels stays within its place exactly if it has its place**: the first pixel
tells the base, the second row the distance, and the last pixel of a row its end. -/
theorem Window.within_iff (hsize : 0 < w.size)
    (hbase : w.base ≤ image.base + (y * image.rowWidth + x) * image.size)
    (hpitch : w.size = image.size → 0 < image.rowWidth → w.pitch ≤ image.rowWidth * image.size) :
    w.Within image x y ↔ (¬ w.Empty → w.Placed image x y) := by
  constructor
  · intro h hempty
    exact h.placed hsize hbase hpitch hempty
  · intro h
    by_cases hempty : w.Empty
    · exact within_of_empty hempty
    · exact (h hempty).within

end Windows

end HpmSdk.Foundation
