import HpmSdk.Common
import HpmSdk.Foundation.Bits
import HpmSdk.Foundation.While

set_option autoImplicit false

/-!
# Touch panels: the reported points (`hpm_touch_ft5406.c`, `hpm_touch_gt911.c`)

A report is a run of registers: a status with the number of points, and five points.  One driver
counts the points by what is in them, and the other one by the status; neither takes the five that
a report can have.
-/

namespace HpmSdk.Touch

open HpmSdk.Foundation

/-! ## Data -/

/-- `touch_point_t`. -/
structure TouchPoint where
  x : BitVec 16
  y : BitVec 16
  deriving DecidableEq, Repr

/-- `(h & 0xF) << 8 | l`. -/
def touchCoordinate (h l : BitVec 8) : BitVec 16 := (h &&& 0xF).setWidth 16 <<< 8 ||| l.setWidth 16

/-- What a call leaves: its status, `*num_of_points` where it was written, the elements of `points`
that were, and the registers of the panel. -/
structure TouchResult where
  stat : HpmStat
  numOfPoints : Option (BitVec 8)
  points : List (Nat × TouchPoint)
  registers : List (BitVec 16 × BitVec 8)
  deriving DecidableEq, Repr

/-! ## FT5406 -/

/-- `FT5406_MAX_TOUCH_POINTS`. -/
def ft5406MaxTouchPoints : Nat := 5

/-- `ft5406_touch_point_t`. -/
structure Ft5406TouchPoint where
  xH : BitVec 8
  xL : BitVec 8
  yH : BitVec 8
  yL : BitVec 8
  deriving DecidableEq, Repr

/-- `ft5406_touch_data_t`, with its five points. -/
structure Ft5406TouchData where
  status : BitVec 8
  points : Nat → Ft5406TouchPoint

/-- What is read from `FT5406_GEST_ID` on, which comes first. -/
def Ft5406TouchData.ofBytes (bytes : Nat → BitVec 8) : Ft5406TouchData where
  status := bytes 1
  points i := ⟨bytes (2 + 6 * i), bytes (2 + 6 * i + 1), bytes (2 + 6 * i + 2),
    bytes (2 + 6 * i + 3)⟩

def Ft5406TouchPoint.touch (p : Ft5406TouchPoint) : TouchPoint :=
  ⟨touchCoordinate p.xH p.xL, touchCoordinate p.yH p.yL⟩

/-- `x_h > 0 && x_h < 0xFF`. -/
def Ft5406TouchPoint.Scanned (p : Ft5406TouchPoint) : Prop := 0 < p.xH ∧ p.xH < 0xFF

instance (p : Ft5406TouchPoint) : Decidable p.Scanned :=
  inferInstanceAs (Decidable (0 < p.xH ∧ p.xH < 0xFF))

/-- The loop of `touch_get_data`, with the number of points from the index on: the index behind it
and the elements that were written. -/
def ft5406Loop (points : Nat → Ft5406TouchPoint) :
    Nat → Nat → List (Nat × TouchPoint) → Option (Nat × List (Nat × TouchPoint))
  -- The index is that of no point, and `x_h` is read from behind the array.
  | 0, _, _ => none
  | left + 1, i, written =>
    if (points i).Scanned then
      ft5406Loop points left (i + 1) (written ++ [(i, (points i).touch)])
    else some (i, written)

/-- `touch_get_data` of `hpm_touch_ft5406.c`. -/
def ft5406TouchGetData (stat : HpmStat) (data : Ft5406TouchData) : Option TouchResult :=
  if stat ≠ .success then some ⟨stat, none, [], []⟩
  else if data.status.toNat < ft5406MaxTouchPoints ∧ data.status ≠ 0 then
    (ft5406Loop data.points ft5406MaxTouchPoints 0 []).map fun (i, written) =>
      ⟨stat, some (BitVec.ofNat 8 i), written, []⟩
  else some ⟨stat, some 0, [], []⟩

/-! ## GT911 -/

/-- `GT911_MAX_TOUCH_POINTS`. -/
def gt911MaxTouchPoints : Nat := 5

/-- `GT911_STATUS`. -/
def gt911Status : BitVec 16 := 0x814E

/-- `gt911_touch_point_t`, as far as it is used. -/
structure Gt911TouchPoint where
  xL : BitVec 8
  xH : BitVec 8
  yL : BitVec 8
  yH : BitVec 8
  deriving DecidableEq, Repr

/-- `gt911_touch_data_t`, with its five points. -/
structure Gt911TouchData where
  status : BitVec 8
  points : Nat → Gt911TouchPoint

/-- What is read from `GT911_STATUS` on; a point starts with its `track_id` and has eight bytes. -/
def Gt911TouchData.ofBytes (bytes : Nat → BitVec 8) : Gt911TouchData where
  status := bytes 0
  points i := ⟨bytes (1 + 8 * i + 1), bytes (1 + 8 * i + 2), bytes (1 + 8 * i + 3),
    bytes (1 + 8 * i + 4)⟩

def Gt911TouchPoint.touch (p : Gt911TouchPoint) : TouchPoint :=
  ⟨touchCoordinate p.xH p.xL, touchCoordinate p.yH p.yL⟩

/-- `GT911_GET_STATUS_NUM_OF_POINTS`. -/
def gt911GetStatusNumOfPoints (status : BitVec 8) : BitVec 8 := status &&& 0xF

/-- The loop of `touch_get_data`. -/
def gt911Loop (points : Nat → Gt911TouchPoint) (num : Nat) : List (Nat × TouchPoint) :=
  (List.range num).map fun i => (i, (points i).touch)

/-- `touch_get_data` of `hpm_touch_gt911.c`; the status is cleared by `gt911_read_touch_data`, and
once more behind the loop. -/
def gt911TouchGetData (stat : HpmStat) (data : Gt911TouchData) : TouchResult :=
  if stat ≠ .success then ⟨stat, none, [], []⟩
  else
    let num := gt911GetStatusNumOfPoints data.status
    let written :=
      if 0 < num ∧ num.toNat < gt911MaxTouchPoints then gt911Loop data.points num.toNat else []
    ⟨stat, some num, written, [(gt911Status, 0), (gt911Status, 0)]⟩

/-! ## The contract -/

/-- The two panels. -/
inductive TouchPanel where
  | ft5406
  | gt911
  deriving DecidableEq, Repr

namespace TouchPanel

/-- A call of `touch_get_data`: `stat` is the status of the transfer and `bytes` what it reads. -/
def getData (panel : TouchPanel) (stat : HpmStat) (bytes : Nat → BitVec 8) : Option TouchResult :=
  match panel with
  | ft5406 => ft5406TouchGetData stat (.ofBytes bytes)
  | gt911 => some (gt911TouchGetData stat (.ofBytes bytes))

/-- The number of touches that a report declares: the status of one panel, and the lower half of
that of the other. -/
def declared (panel : TouchPanel) (bytes : Nat → BitVec 8) : Nat :=
  match panel with
  | ft5406 => (bytes 1).toNat
  | gt911 => (bytes 0).toNat % 16

/-- The largest number of touches. -/
def maxTouchPoints (panel : TouchPanel) : Nat :=
  match panel with
  | ft5406 => ft5406MaxTouchPoints
  | gt911 => gt911MaxTouchPoints

/-- The coordinate whose high and low bytes are given. -/
def coordinate (high low : BitVec 8) : Nat := high.toNat % 16 * 256 + low.toNat

/-- An element has the coordinates of a point of the report. -/
def Holds (panel : TouchPanel) (bytes : Nat → BitVec 8) (i : Nat) (p : TouchPoint) : Prop :=
  match panel with
  | ft5406 => p.x.toNat = coordinate (bytes (2 + 6 * i)) (bytes (2 + 6 * i + 1)) ∧
      p.y.toNat = coordinate (bytes (2 + 6 * i + 2)) (bytes (2 + 6 * i + 3))
  | gt911 => p.x.toNat = coordinate (bytes (1 + 8 * i + 2)) (bytes (1 + 8 * i + 1)) ∧
      p.y.toNat = coordinate (bytes (1 + 8 * i + 4)) (bytes (1 + 8 * i + 3))

/-- What is asked: nothing is read from behind the report, and a call that succeeds gives the
number of touches up to the largest one, and has written that many elements with their
coordinates. -/
def Right (panel : TouchPanel) (bytes : Nat → BitVec 8) (result : Option TouchResult) : Prop :=
  ∃ r, result = some r ∧ (r.stat = .success →
    r.numOfPoints.map BitVec.toNat = some (min (panel.declared bytes) panel.maxTouchPoints) ∧
      ∀ i p, (i, p) ∈ r.points ↔
        i < min (panel.declared bytes) panel.maxTouchPoints ∧ panel.Holds bytes i p)

/-- The reports that are taken as they are: no touch, or fewer than five, which for the first panel
have a high byte that is neither 0 nor `0xFF`, unlike the point behind them. -/
def Taken (panel : TouchPanel) (bytes : Nat → BitVec 8) : Prop :=
  match panel with
  | ft5406 => bytes 1 = 0 ∨ (bytes 1).toNat < 5 ∧
      FirstFails (fun i => 0 < bytes (2 + 6 * i) ∧ bytes (2 + 6 * i) < 0xFF) (bytes 1).toNat
  | gt911 => (bytes 0).toNat % 16 < 5

end TouchPanel

/-! ## Coordinates -/

theorem toNat_lowHalf (v : BitVec 8) : (v &&& 0xF).toNat = v.toNat % 16 := by
  rw [mask_toNat (show (0xF : BitVec 8).toNat = fieldMask 0 4 from rfl)]
  unfold field
  rw [Nat.pow_zero, Nat.div_one]
  rfl

/-- A coordinate is put together of its twelve bits. -/
theorem toNat_touchCoordinate (h l : BitVec 8) :
    (touchCoordinate h l).toNat = TouchPanel.coordinate h l := by
  have hlow : (l.setWidth 16).toNat = l.toNat := BitVec.toNat_setWidth_of_le (by decide)
  have hhigh : ((h &&& 0xF).setWidth 16).toNat = h.toNat % 16 :=
    (BitVec.toNat_setWidth_of_le (by decide)).trans (toNat_lowHalf h)
  unfold touchCoordinate TouchPanel.coordinate
  rw [shiftLeft_or_toNat, hhigh, hlow]
  · rfl
  · rw [hlow]
    exact l.isLt
  · rw [hhigh]
    omega

namespace TouchPanel

/-- A point of a report, as the drivers read it. -/
def point (panel : TouchPanel) (bytes : Nat → BitVec 8) (i : Nat) : TouchPoint :=
  match panel with
  | ft5406 => ((Ft5406TouchData.ofBytes bytes).points i).touch
  | gt911 => ((Gt911TouchData.ofBytes bytes).points i).touch

/-- The drivers read the coordinates that the points have. -/
theorem holds_iff (panel : TouchPanel) (bytes : Nat → BitVec 8) (i : Nat) (p : TouchPoint) :
    panel.Holds bytes i p ↔ p = panel.point bytes i := by
  have heq : ∀ {xh xl yh yl : BitVec 8}, p.x.toNat = coordinate xh xl ∧
      p.y.toNat = coordinate yh yl ↔ p = ⟨touchCoordinate xh xl, touchCoordinate yh yl⟩ := by
    intro xh xl yh yl
    rw [← toNat_touchCoordinate, ← toNat_touchCoordinate, BitVec.toNat_inj, BitVec.toNat_inj,
      TouchPoint.mk.injEq]
  cases panel with
  | ft5406 => exact heq
  | gt911 => exact heq

end TouchPanel

/-! ## The elements that are written -/

/-- The first elements, with the points that they are given. -/
def touchWrites (f : Nat → TouchPoint) (n : Nat) : List (Nat × TouchPoint) :=
  (List.range n).map fun i => (i, f i)

/-- The points that are written are the first ones, each at its place. -/
theorem mem_touchWrites_iff (f : Nat → TouchPoint) (n i : Nat) (p : TouchPoint) :
    (i, p) ∈ touchWrites f n ↔ i < n ∧ p = f i := by
  unfold touchWrites
  rw [List.mem_map]
  constructor
  · rintro ⟨j, hj, heq⟩
    cases heq
    exact ⟨List.mem_range.mp hj, rfl⟩
  · rintro ⟨hi, rfl⟩
    exact ⟨i, List.mem_range.mpr hi, rfl⟩

theorem touchWrites_succ (f : Nat → TouchPoint) (n : Nat) :
    touchWrites f (n + 1) = touchWrites f n ++ [(n, f n)] := by
  unfold touchWrites
  rw [List.range_succ, List.map_append]
  rfl

section Scan

variable {points : Nat → Ft5406TouchPoint}

/-- The scan ends at the first point that it does not take. -/
theorem ft5406Loop_of_firstFails {k : Nat} (h : FirstFails (fun i => (points i).Scanned) k) :
    ∀ {left i : Nat}, i ≤ k → k < i + left →
      ft5406Loop points left i (touchWrites (fun i => (points i).touch) i) =
        some (k, touchWrites (fun i => (points i).touch) k)
  | 0, i, hik, hlt => absurd hlt (Nat.not_lt.mpr hik)
  | left + 1, i, hik, hlt => by
    rw [ft5406Loop]
    rcases Nat.lt_or_eq_of_le hik with hbefore | rfl
    · rw [if_pos (h.2 i hbefore), ← touchWrites_succ (fun i => (points i).touch)]
      apply ft5406Loop_of_firstFails h hbefore
      omega
    · exact if_neg h.1

/-- Where it takes all points, it reads from behind them. -/
theorem ft5406Loop_of_all : ∀ {left i : Nat} (written : List (Nat × TouchPoint)),
    (∀ m < left, (points (i + m)).Scanned) → ft5406Loop points left i written = none
  | 0, _, _, _ => rfl
  | left + 1, i, written, h => by
    have hfirst : (points i).Scanned := h 0 left.succ_pos
    rw [ft5406Loop, if_pos hfirst]
    apply ft5406Loop_of_all
    intro m hm
    rw [Nat.add_right_comm, Nat.add_assoc]
    exact h (m + 1) (Nat.succ_lt_succ hm)

end Scan

/-! ## The calls -/

section Calls

variable {bytes : Nat → BitVec 8}

/-- A call that counts `n` points and writes as many is right if and only if that is the number of
touches. -/
theorem TouchPanel.right_iff_of_count {panel : TouchPanel} {n : Nat} (hn : n < 2 ^ 8)
    (registers : List (BitVec 16 × BitVec 8)) :
    panel.Right bytes (some ⟨.success, some (BitVec.ofNat 8 n),
      touchWrites (panel.point bytes) n, registers⟩) ↔
        n = min (panel.declared bytes) panel.maxTouchPoints := by
  have hcount : (BitVec.ofNat 8 n).toNat = n := Nat.mod_eq_of_lt hn
  constructor
  · rintro ⟨r, hsome, hright⟩
    cases hsome
    rw [← hcount]
    exact Option.some.inj (hright rfl).1
  · intro heq
    refine ⟨_, rfl, fun _ => ⟨?_, fun i p => ?_⟩⟩
    · rw [Option.map_some, hcount, heq]
    · rw [mem_touchWrites_iff, heq, TouchPanel.holds_iff]

/-- A scan is right if and only if it ends behind the touches that are declared. -/
theorem ft5406_right_of_scanned (hlt : (bytes 1).toNat < 5) (hne : bytes 1 ≠ 0) :
    TouchPanel.ft5406.Right bytes (ft5406TouchGetData .success (.ofBytes bytes)) ↔
      FirstFails (fun i => ((Ft5406TouchData.ofBytes bytes).points i).Scanned)
        (bytes 1).toNat := by
  have hmin : min (bytes 1).toNat 5 = (bytes 1).toNat := Nat.min_eq_left hlt.le
  have hscans : ft5406TouchGetData .success (.ofBytes bytes) =
      (ft5406Loop (Ft5406TouchData.ofBytes bytes).points 5 0 []).map fun (i, written) =>
        ⟨.success, some (BitVec.ofNat 8 i), written, []⟩ := by
    unfold ft5406TouchGetData
    rw [if_neg (not_not.mpr rfl)]
    exact if_pos ⟨hlt, hne⟩
  rw [hscans]
  rcases firstFails_or_forall
    (fun i => ((Ft5406TouchData.ofBytes bytes).points i).Scanned) 4 with ⟨k, hk, hfirst⟩ | hall
  · have hloop : ft5406Loop (Ft5406TouchData.ofBytes bytes).points 5 0 [] =
        some (k, touchWrites (TouchPanel.ft5406.point bytes) k) :=
      ft5406Loop_of_firstFails hfirst k.zero_le (by omega)
    rw [hloop]
    refine (TouchPanel.right_iff_of_count (by omega) []).trans ?_
    change k = min (bytes 1).toNat 5 ↔ _
    rw [hmin]
    constructor
    · rintro rfl
      exact hfirst
    · intro hstatus
      exact hfirst.eq hstatus
  · have hloop : ft5406Loop (Ft5406TouchData.ofBytes bytes).points 5 0 [] = none :=
      ft5406Loop_of_all [] fun m hm => by
        rw [Nat.zero_add]
        exact hall m (Nat.le_of_lt_succ hm)
    rw [hloop]
    refine iff_of_false ?_ fun hstatus => hstatus.1 (hall _ (Nat.le_of_lt_succ hlt))
    rintro ⟨r, hsome, -⟩
    cases hsome

/-- Without a scan there is no point, which is right if and only if none is declared. -/
theorem ft5406_right_of_unscanned (h : ¬ ((bytes 1).toNat < 5 ∧ bytes 1 ≠ 0)) :
    TouchPanel.ft5406.Right bytes (ft5406TouchGetData .success (.ofBytes bytes)) ↔
      bytes 1 = 0 := by
  have hnone : ft5406TouchGetData .success (.ofBytes bytes) =
      some ⟨.success, some (BitVec.ofNat 8 0),
        touchWrites (TouchPanel.ft5406.point bytes) 0, []⟩ := by
    unfold ft5406TouchGetData
    rw [if_neg (not_not.mpr rfl)]
    exact if_neg h
  rw [hnone]
  refine (TouchPanel.right_iff_of_count (by decide) []).trans ?_
  change 0 = min (bytes 1).toNat 5 ↔ _
  rcases eq_or_ne (bytes 1) 0 with hzero | hne
  · rw [hzero]
    exact iff_of_true rfl rfl
  · have hge : 5 ≤ (bytes 1).toNat := by
      by_contra hlt
      exact h ⟨Nat.lt_of_not_le hlt, hne⟩
    rw [Nat.min_eq_right hge]
    exact iff_of_false (by decide) hne

/-- The FT5406 reports what its points tell, and its status is not looked at. -/
theorem ft5406_right_iff : TouchPanel.ft5406.Right bytes
    (ft5406TouchGetData .success (.ofBytes bytes)) ↔ TouchPanel.ft5406.Taken bytes := by
  by_cases h : (bytes 1).toNat < 5 ∧ bytes 1 ≠ 0
  · rw [ft5406_right_of_scanned h.1 h.2]
    exact ((or_iff_right h.2).trans (and_iff_right h.1)).symm
  · rw [ft5406_right_of_unscanned h]
    constructor
    · exact Or.inl
    · rintro (hzero | ⟨hlt, -⟩)
      · exact hzero
      · by_contra hne
        exact h ⟨hlt, hne⟩

/-- What is written: nothing where there are five points or more. -/
theorem gt911TouchGetData_success (data : Gt911TouchData) {n : Nat}
    (hnum : (gt911GetStatusNumOfPoints data.status).toNat = n) :
    gt911TouchGetData .success data = ⟨.success, some (BitVec.ofNat 8 n),
      if n < 5 then touchWrites (fun i => (data.points i).touch) n else [],
      [(gt911Status, 0), (gt911Status, 0)]⟩ := by
  have hofNat : gt911GetStatusNumOfPoints data.status = BitVec.ofNat 8 n := by
    rw [← hnum, BitVec.ofNat_toNat, BitVec.setWidth_eq]
  have hwritten : (if 0 < gt911GetStatusNumOfPoints data.status ∧
      (gt911GetStatusNumOfPoints data.status).toNat < gt911MaxTouchPoints then
        gt911Loop data.points (gt911GetStatusNumOfPoints data.status).toNat else []) =
      if n < 5 then touchWrites (fun i => (data.points i).touch) n else [] := by
    simp only [BitVec.lt_def, hnum]
    rcases Nat.eq_zero_or_pos n with rfl | hpos
    · rfl
    · exact if_congr (and_iff_right hpos) rfl rfl
  unfold gt911TouchGetData
  rw [if_neg (not_not.mpr rfl)]
  dsimp only
  rw [hwritten, hofNat]

/-- The GT911 reports as many as its status tells. -/
theorem gt911_right_iff : TouchPanel.gt911.Right bytes
    (some (gt911TouchGetData .success (.ofBytes bytes))) ↔ TouchPanel.gt911.Taken bytes := by
  have hlt : (bytes 0).toNat % 16 < 16 := Nat.mod_lt _ (by decide)
  rw [gt911TouchGetData_success (.ofBytes bytes)
    (show (gt911GetStatusNumOfPoints (bytes 0)).toNat = _ from toNat_lowHalf (bytes 0))]
  change _ ↔ (bytes 0).toNat % 16 < 5
  rcases Nat.lt_or_ge ((bytes 0).toNat % 16) 5 with hfew | hmany
  · rw [if_pos hfew]
    refine (TouchPanel.right_iff_of_count (hlt.trans (by decide)) _).trans ?_
    exact iff_of_true (Nat.min_eq_left hfew.le).symm hfew
  · rw [if_neg (Nat.not_lt.mpr hmany)]
    refine iff_of_false ?_ (Nat.not_lt.mpr hmany)
    rintro ⟨r, hsome, hright⟩
    cases hsome
    -- The first of five points was not written.
    have hfirst := ((hright rfl).2 0 (TouchPanel.gt911.point bytes 0)).mpr
      ⟨Nat.lt_min.mpr ⟨Nat.lt_of_lt_of_le (by decide) hmany, by decide⟩,
        (TouchPanel.holds_iff ..).mpr rfl⟩
    cases hfirst

end Calls

/-- A transfer that fails leaves everything as it was. -/
theorem TouchPanel.getData_of_failed (panel : TouchPanel) {stat : HpmStat}
    (hfails : stat ≠ .success) (bytes : Nat → BitVec 8) :
    panel.getData stat bytes = some ⟨stat, none, [], []⟩ := by
  cases panel with
  | ft5406 => exact if_pos hfails
  | gt911 => exact congrArg some (if_pos hfails)

/-- **A call is right if and only if the transfer fails, or the report is taken as it is.**

A failed transfer is reported and leaves everything alone.  The two panels take the number of
points from different places: the FT5406 from the first high byte that is 0 or 0xFF and not from
the status, the GT911 from the status without a look at the length of the array.  `Taken` says for
each of them when that is the number that the panel declared. -/
theorem touchGetData_right_iff (panel : TouchPanel) (stat : HpmStat) (bytes : Nat → BitVec 8) :
    panel.Right bytes (panel.getData stat bytes) ↔ (stat = .success → panel.Taken bytes) := by
  rcases eq_or_ne stat .success with rfl | hfails
  · rw [imp_iff_right rfl]
    cases panel with
    | ft5406 => exact ft5406_right_iff
    | gt911 => exact gt911_right_iff
  · refine iff_of_true ?_ fun hstat => absurd hstat hfails
    exact ⟨_, panel.getData_of_failed hfails bytes, fun hstat => absurd hstat hfails⟩

/-- A touch at the left edge, whose coordinate has the high byte 0. -/
def leftEdge (k : Nat) : BitVec 8 := if k = 1 then 1 else 0

/-- The one touch that a report declares is not counted. -/
theorem touchGetData_misses : ¬ ∀ (panel : TouchPanel) (stat : HpmStat) (bytes : Nat → BitVec 8),
    panel.Right bytes (panel.getData stat bytes) := by
  intro h
  obtain ⟨r, hsome, hright⟩ := h .ft5406 .success leftEdge
  cases hsome
  cases (hright rfl).1

end HpmSdk.Touch
