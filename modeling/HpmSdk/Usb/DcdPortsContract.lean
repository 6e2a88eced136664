import HpmSdk.Usb.DcdPorts

set_option autoImplicit false

/-!
# USB device: what a port sees of the other one

A port is told by its own calls alone which transfers it has, and its controller says what is left
of them.  The completions are those of the port, and its queue heads and descriptors are its own,
exactly if no step of the other port writes to the shared data while both are initialised.
-/

namespace HpmSdk.Usb

open HpmSdk.Foundation HpmSdk.Soc

/-! ## The contract -/

/-- A transfer that was submitted, and what the controller has left of it. -/
structure DcdXfer where
  expected : BitVec 16
  remaining : BitVec 15
  xactErr : Bool
  bufferErr : Bool
  halted : Bool
  deriving DecidableEq, Repr

namespace DcdXfer

/-- A transfer that no controller has touched. -/
def submitted (totalBytes : BitVec 16) : DcdXfer :=
  ⟨totalBytes, totalBytes.setWidth 15, false, false, false⟩

variable (x : DcdXfer)

/-- The controller is done with a transfer. -/
def finish (f : DcdFinish) : DcdXfer :=
  ⟨x.expected, f.remaining, f.xactErr, f.bufferErr, f.halted⟩

/-- How a transfer ended. -/
def result : XferResult :=
  if x.halted then .stalled else if x.xactErr || x.bufferErr then .failed else .success

/-- The event that tells it. -/
def completion (p : UsbRhport) (i : DcdEpIdx) : DcdCompletion :=
  ⟨p, dcdEpAddrOf i, x.expected.setWidth 32 - x.remaining.setWidth 32, x.result⟩

end DcdXfer

/-- What a port was told, whatever is done with the other one: the transfers that were submitted
on it, and the endpoints that are complete and not reported. -/
structure DcdOwn where
  initialised : Bool
  xfer : DcdEpIdx → Option DcdXfer
  done : DcdEpIdx → Bool

/-- The status has the bit of a bus reset. -/
def DcdLine.resets (line : DcdLine) : Bool := decide (line.status &&& intrReset ≠ 0)

/-- The status has the bit of a transfer. -/
def DcdLine.completes (line : DcdLine) : Bool := decide (line.status &&& intrUsb ≠ 0)

namespace DcdOwn

/-- A port without transfers. -/
def init (initialised : Bool) : DcdOwn := ⟨initialised, fun _ => none, fun _ => false⟩

variable (r : DcdPort) (o : DcdOwn)

/-- A transfer is submitted. -/
def submit (i : DcdEpIdx) (totalBytes : BitVec 16) : DcdOwn :=
  { o with xfer := Function.update o.xfer i (some (.submitted totalBytes)) }

/-- The controller is done with an endpoint. -/
def finish (f : DcdFinish) : DcdOwn where
  initialised := o.initialised
  xfer := Function.update o.xfer f.idx ((o.xfer f.idx).map fun x => x.finish f)
  done := Function.update o.done f.idx true

/-- The controller is done with some endpoints, of those that it works on. -/
def finishAll : DcdPort → DcdOwn → List DcdFinish → DcdOwn
  | _, o, [] => o
  | r, o, f :: fs =>
    if r.canFinish f.idx then finishAll (r.finish f.idx) (o.finish f) fs else finishAll r o fs

/-- What was complete before is reported. -/
def reported (before : DcdOwn) : DcdOwn := { o with done := fun i => o.done i && !before.done i }

/-- What a step on a port tells it. -/
def step : DcdStep → DcdOwn
  | .init _ => init true
  | .deinit _ => if r.handle then init false else o
  | .setAddress _ => if r.canSubmit dcdEp0In then o.submit dcdEp0In 0 else o
  | .edptXfer _ addr _ totalBytes =>
    if r.canSubmit addr.idx then o.submit addr.idx totalBytes else o
  | .interrupt _ line =>
    if !o.initialised then o
    else if line.resets then init true
    else if line.completes then (finishAll r o line.late).reported o
    else o
  | .finish _ f => if r.canFinish f.idx then o.finish f else o
  | _ => o

/-- What an interrupt has to report: each endpoint that is complete, once. -/
def expected (p : UsbRhport) (line : DcdLine) : List DcdCompletion :=
  if o.initialised && !line.resets && line.completes then
    (List.finRange usbSosDcdMaxQhdCount).filterMap fun i =>
      if o.done i then ((finishAll r o line.late).xfer i).map fun x => x.completion p i else none
  else []

end DcdOwn

/-- The system, and what each port was told. -/
structure DcdTracked where
  sys : DcdSystem
  own : UsbRhport → DcdOwn

namespace DcdTracked

/-- Before the first call. -/
def start (data : DcdRam) : DcdTracked := ⟨.start data, fun _ => .init false⟩

variable (t : DcdTracked)

/-- The completions that a step has to report. -/
def expected : DcdStep → List DcdCompletion
  | .interrupt p line => (t.own p).expected (t.sys.port p) p line
  | _ => []

end DcdTracked

/-- A step of the system, which is told to its port. -/
def dcdTrack (cfg : DcdConfig) (t : DcdTracked) (a : DcdStep) : DcdTracked where
  sys := dcdStep cfg t.sys a
  own := fun p => if a.port = some p then (t.own p).step (t.sys.port p) a else t.own p

/-- What is asked of a step: `dcd_init` refuses a number without a controller, a call or an
interrupt leaves the data of the other port as it was, the completions are those of the port, and
what is complete and not reported is still marked. -/
structure DcdStepHolds (cfg : DcdConfig) (t : DcdTracked) (a : DcdStep) : Prop where
  rejects : ∀ rhport, a = .init rhport → UsbRhport.ofNumber rhport = none →
    (dcdInit t.sys rhport).1 = false
  frame : a.ofController = false → ∀ p, a.port ≠ some p → (t.own p).initialised = true →
    (dcdTrack cfg t a).sys.dcdData p = t.sys.dcdData p
  reports : (dcdTrack cfg t a).sys.completions = t.sys.completions ++ t.expected a
  kept : ∀ p i, ((dcdTrack cfg t a).own p).done i = true →
    ((dcdTrack cfg t a).sys.port p).endptcomplete.getLsbD (epIdx2bit i) = true

/-- A write of a port: it is not made while both are initialised.  On a port that was
deinitialised it may write what is there. -/
def DcdTracked.Spares (t : DcdTracked) (p : UsbRhport) (data : DcdRam) : Prop :=
  (t.own p.other).initialised = true → (t.own p).initialised = false ∧ data = t.sys.data

/-- When a step does what is asked: a port is initialised or deinitialised while nothing is in the
data or the other one is not initialised; an endpoint is opened, a transfer is submitted and a bus
reset is handled while the other one is not initialised; and no endpoint gets complete between the
read and the write of `ENDPTCOMPLETE`, unless it was marked before. -/
def DcdFits (cfg : DcdConfig) (t : DcdTracked) : DcdStep → Prop
  | .init rhport => rhport ≠ 2 ∧ ∀ p, UsbRhport.ofNumber rhport = some p →
    (t.own p.other).initialised = true → t.sys.data = .zero
  | .deinit p => (t.sys.port p).handle = true →
    (t.own p.other).initialised = true → t.sys.data = .zero
  | .setAddress p => (t.sys.port p).canSubmit dcdEp0In = true →
    t.Spares p (dcdRamXfer cfg t.sys.data dcdEp0In 0 0)
  | .edptOpen p xfer addr maxPacketSize => (t.sys.port p).handle = true → xfer ≠ .isochronous →
    ∀ h : dcdEpNum addr < usbSocDcdMaxEndpointCount,
      t.Spares p { t.sys.data with
        qhd := Function.update t.sys.data.qhd (dcdEpIdx addr h) (dcdQhdOpen maxPacketSize) }
  | .edptXfer p addr buffer totalBytes => (t.sys.port p).canSubmit addr.idx = true →
    t.Spares p (dcdRamXfer cfg t.sys.data addr.idx buffer totalBytes)
  | .interrupt p line => (t.own p).initialised = true →
    (line.resets = true → (t.own p.other).initialised = false) ∧
      (line.resets = false → line.completes = true → ∀ f ∈ line.late,
        (t.sys.port p).canFinish f.idx = true →
          (t.sys.port p).endptcomplete.getLsbD (epIdx2bit f.idx) = true)
  | _ => True

/-! ## Registers -/

section Registers

theorem epIdx2bit_lt (i : DcdEpIdx) : epIdx2bit i < 32 := by
  have hi : i.val < 16 := i.isLt
  unfold epIdx2bit
  split <;> omega

/-- Two endpoints have different bits. -/
theorem epIdx2bit_inj {i j : DcdEpIdx} : epIdx2bit i = epIdx2bit j ↔ i = j := by
  refine ⟨fun h => Fin.ext ?_, fun h => h ▸ rfl⟩
  have hi : i.val < 16 := i.isLt
  have hj : j.val < 16 := j.isLt
  unfold epIdx2bit at h
  split at h <;> split at h <;> omega

variable (r : DcdPort) (i j : DcdEpIdx)

/-- Every endpoint has a bit of its own. -/
theorem getLsbD_epBit :
    ((1 : BitVec 32) <<< epIdx2bit i).getLsbD (epIdx2bit j) = decide (i = j) := by
  rw [getLsbD_one_shiftLeft (epIdx2bit_lt i)]
  exact decide_eq_decide.mpr epIdx2bit_inj

/-- The end of a transfer clears the bit of its endpoint. -/
theorem finish_endptstat : (r.finish i).endptstat.getLsbD (epIdx2bit j) =
    (r.endptstat.getLsbD (epIdx2bit j) && !decide (i = j)) := by
  unfold DcdPort.finish
  rw [BitVec.getLsbD_and, BitVec.getLsbD_not, getLsbD_epBit]
  simp [epIdx2bit_lt j]

/-- And sets the one that tells it. -/
theorem finish_endptcomplete : (r.finish i).endptcomplete.getLsbD (epIdx2bit j) =
    (r.endptcomplete.getLsbD (epIdx2bit j) || decide (i = j)) := by
  unfold DcdPort.finish
  rw [BitVec.getLsbD_or, getLsbD_epBit]

/-- The controller works on an endpoint until it is done with it. -/
theorem finish_canFinish : (r.finish i).canFinish j = (r.canFinish j && !decide (i = j)) := by
  simp only [DcdPort.canFinish, finish_endptstat, Bool.and_assoc]
  rfl

end Registers

/-! ## A port and what it was told -/

/-- The registers of a port and what it was told. -/
structure DcdPortInv (r : DcdPort) (o : DcdOwn) : Prop where
  handle : o.initialised = true → r.handle = true
  usbintr : r.usbintr = if o.initialised then dcdIntMask else 0
  listaddr : r.endptlistaddr = true → o.initialised = true
  complete : ∀ i, r.endptcomplete.getLsbD (epIdx2bit i) = o.done i
  submitted : ∀ i, r.endptstat.getLsbD (epIdx2bit i) = true ∨ o.done i = true →
    (o.xfer i).isSome = true

/-- A descriptor carries a transfer. -/
def DcdQtdRam.Carries (q : DcdQtdRam) (x : DcdXfer) : Prop :=
  q.next = usbSocDcdQtdNextInvalid ∧ q.expectedBytes = x.expected ∧ q.totalBytes = x.remaining ∧
    q.xactErr = x.xactErr ∧ q.bufferErr = x.bufferErr ∧ q.halted = x.halted

/-- The descriptors carry the transfers of a port. -/
def DcdRam.Carries (d : DcdRam) (o : DcdOwn) : Prop :=
  ∀ i, ∀ x ∈ o.xfer i, (d.qtd i).Carries x

section Port

variable {r : DcdPort} {o : DcdOwn} {q : DcdQtdRam} {x : DcdXfer} {d : DcdRam}

/-- A descriptor goes on saying what the transfer of its endpoint is. -/
theorem DcdQtdRam.Carries.finish (h : q.Carries x) (f : DcdFinish) :
    (q.finish f).Carries (x.finish f) :=
  ⟨h.1, h.2.1, rfl, rfl, rfl, rfl⟩

/-- The event of a descriptor is that of the transfer. -/
theorem DcdQtdRam.Carries.completion (h : q.Carries x) (p : UsbRhport) (i : DcdEpIdx) :
    q.completion p i = x.completion p i := by
  obtain ⟨-, hexpected, hremaining, hxact, hbuffer, hhalted⟩ := h
  simp only [DcdQtdRam.completion, DcdXfer.completion, DcdQtdRam.result, DcdXfer.result,
    hexpected, hremaining, hxact, hbuffer, hhalted]

theorem DcdQtdRam.carries_submitted (buffer : BitVec 32) (totalBytes : BitVec 16) :
    DcdQtdRam.Carries { dcdQtdInit buffer totalBytes with intOnComplete := true }
      (.submitted totalBytes) :=
  ⟨rfl, rfl, rfl, rfl, rfl, rfl⟩

theorem DcdRam.carries_init (d : DcdRam) (initialised : Bool) : d.Carries (.init initialised) := by
  intro i x hx
  cases hx

/-- Writing one descriptor leaves what the others say. -/
theorem DcdRam.Carries.update (h : d.Carries o) {i : DcdEpIdx} {x : Option DcdXfer}
    {q : DcdQtdRam} (hq : ∀ y ∈ x, q.Carries y) {qhd : DcdEpIdx → DcdQhd}
    {done : DcdEpIdx → Bool} :
    DcdRam.Carries ⟨qhd, Function.update d.qtd i q⟩
      ⟨o.initialised, Function.update o.xfer i x, done⟩ := by
  intro j y hy
  by_cases hj : j = i
  · simp only [hj, Function.update_self] at hy ⊢
    exact hq y hy
  · simp only [Function.update_of_ne hj] at hy ⊢
    exact h j y hy

/-- A port on which nothing is primed and complete. -/
theorem DcdPortInv.cleared {initialised : Bool} (hhandle : initialised = true → r.handle = true)
    (husbintr : r.usbintr = if initialised then dcdIntMask else 0)
    (hlistaddr : r.endptlistaddr = true → initialised = true) (hstat : r.endptstat = 0#32)
    (hcomplete : r.endptcomplete = 0#32) : DcdPortInv r (.init initialised) := by
  refine ⟨hhandle, husbintr, hlistaddr, fun i => ?_, ?_⟩
  · rw [hcomplete]
    exact BitVec.getLsbD_zero
  · rintro i (hprimed | hdone)
    · rw [hstat, BitVec.getLsbD_zero] at hprimed
      exact absurd hprimed Bool.false_ne_true
    · exact absurd hdone Bool.false_ne_true

/-- A transfer that is given to the controller is active. -/
theorem DcdPortInv.submit (h : DcdPortInv r o) (i : DcdEpIdx) (totalBytes : BitVec 16) :
    DcdPortInv { r with endptstat := r.endptstat ||| (1 : BitVec 32) <<< epIdx2bit i }
      (o.submit i totalBytes) := by
  refine ⟨h.handle, h.usbintr, h.listaddr, h.complete, fun j hj => ?_⟩
  unfold DcdOwn.submit
  by_cases hij : j = i
  · simp only [hij, Function.update_self, Option.isSome_some]
  · simp only [Function.update_of_ne hij]
    refine h.submitted j (hj.imp_left fun hprimed => ?_)
    rw [BitVec.getLsbD_or, getLsbD_epBit, decide_eq_false (Ne.symm hij), Bool.or_false] at hprimed
    exact hprimed

/-- The controller is only done with a transfer that was submitted. -/
theorem DcdPortInv.xfer_of_canFinish (h : DcdPortInv r o) {i : DcdEpIdx}
    (hcan : r.canFinish i = true) : o.initialised = true ∧ (o.xfer i).isSome = true := by
  unfold DcdPort.canFinish at hcan
  simp only [Bool.and_eq_true] at hcan
  exact ⟨h.listaddr hcan.1.1, h.submitted i (.inl hcan.2)⟩

/-- One that ends is complete. -/
theorem DcdPortInv.finish (h : DcdPortInv r o) {f : DcdFinish}
    (hcan : r.canFinish f.idx = true) : DcdPortInv (r.finish f.idx) (o.finish f) := by
  refine ⟨h.handle, h.usbintr, h.listaddr, fun j => ?_, fun j hj => ?_⟩
  · rw [finish_endptcomplete, h.complete, DcdOwn.finish]
    by_cases hij : j = f.idx
    · simp [hij]
    · simp [hij, Ne.symm hij]
  · unfold DcdOwn.finish at hj ⊢
    by_cases hij : j = f.idx
    · simp only [hij, Function.update_self, Option.isSome_map]
      exact (h.xfer_of_canFinish hcan).2
    · simp only [finish_endptstat, Function.update_of_ne hij] at hj ⊢
      refine h.submitted j (hj.imp_left fun hprimed => ?_)
      exact (Bool.and_eq_true_iff.mp hprimed).1

end Port

/-! ## Steps of the controller -/

section Finish

variable (s : DcdSystem) (o : DcdOwn) {p q : UsbRhport} (late : List DcdFinish)

@[simp] theorem setPort_self (r : DcdPort) : (s.setPort p r).port p = r := Function.update_self _ _ _

theorem setPort_of_ne (r : DcdPort) (h : q ≠ p) : (s.setPort p r).port q = s.port q :=
  Function.update_of_ne h _ _

@[simp] theorem setPort_data (r : DcdPort) : (s.setPort p r).data = s.data := rfl

@[simp] theorem setData_port (d : DcdRam) : (s.setData d).port = s.port := rfl

@[simp] theorem setData_data (d : DcdRam) : (s.setData d).data = d := rfl

@[simp] theorem emit_port (es : List DcdEvent) : (s.emit es).port = s.port := rfl

@[simp] theorem emit_data (es : List DcdEvent) : (s.emit es).data = s.data := rfl

@[simp] theorem completions_setPort (r : DcdPort) : (s.setPort p r).completions = s.completions :=
  rfl

@[simp] theorem completions_setData (d : DcdRam) : (s.setData d).completions = s.completions := rfl

/-- The completions are those among the events. -/
theorem completions_emit (es : List DcdEvent) :
    (s.emit es).completions = s.completions ++ es.filterMap DcdEvent.completion :=
  List.filterMap_append

/-- The controller ends a transfer that is active, and no other one. -/
theorem finish_port (f : DcdFinish) : (s.finish p f).port p =
    if (s.port p).canFinish f.idx then (s.port p).finish f.idx else s.port p := by
  unfold DcdSystem.finish
  split
  · exact setPort_self _ _
  · rfl

/-- And changes nothing of the other port. -/
theorem finish_port_of_ne (f : DcdFinish) (h : q ≠ p) : (s.finish p f).port q = s.port q := by
  unfold DcdSystem.finish
  split
  · exact setPort_of_ne _ _ h
  · rfl

theorem finish_completions (f : DcdFinish) : (s.finish p f).completions = s.completions := by
  unfold DcdSystem.finish
  split <;> rfl

variable {s o}

/-- The descriptors of the port go on saying what its transfers are. -/
theorem finish_carries {f : DcdFinish} (hcan : (s.port p).canFinish f.idx = true)
    (h : s.data.Carries o) : (s.finish p f).data.Carries (o.finish f) := by
  unfold DcdSystem.finish
  rw [if_pos hcan]
  refine h.update fun y hy => ?_
  obtain ⟨x, hx, rfl⟩ := Option.mem_map.mp hy
  exact (h f.idx x hx).finish f

theorem foldl_finish_port_of_ne (h : q ≠ p) :
    (late.foldl (fun s f => s.finish p f) s).port q = s.port q := by
  induction late generalizing s with
  | nil => rfl
  | cons f late ih => exact ih.trans (finish_port_of_ne s f h)

theorem foldl_finish_completions :
    (late.foldl (fun s f => s.finish p f) s).completions = s.completions := by
  induction late generalizing s with
  | nil => rfl
  | cons f late ih => exact ih.trans (finish_completions s f)

/-- What a port was told stays true of it while its controller goes on. -/
theorem foldl_finish_inv (hinv : DcdPortInv (s.port p) o) (hcarries : s.data.Carries o) :
    DcdPortInv ((late.foldl (fun s f => s.finish p f) s).port p) (o.finishAll (s.port p) late) ∧
      (late.foldl (fun s f => s.finish p f) s).data.Carries (o.finishAll (s.port p) late) := by
  induction late generalizing s o with
  | nil => exact ⟨hinv, hcarries⟩
  | cons f late ih =>
    rw [List.foldl_cons, DcdOwn.finishAll]
    have hport := finish_port s (p := p) f
    by_cases hcan : (s.port p).canFinish f.idx = true
    · rw [if_pos hcan] at hport ⊢
      rw [← hport]
      exact ih (hport ▸ hinv.finish hcan) (finish_carries hcan hcarries)
    · have hsame : s.finish p f = s := if_neg hcan
      rw [if_neg hcan, hsame]
      exact ih hinv hcarries

/-- Without an endpoint to work on nothing is done. -/
theorem foldl_finish_eq_self (h : ∀ i, (s.port p).canFinish i = false) :
    late.foldl (fun s f => s.finish p f) s = s := by
  induction late with
  | nil => rfl
  | cons f late ih =>
    have hsame : s.finish p f = s := if_neg (by rw [h]; exact Bool.false_ne_true)
    rw [List.foldl_cons, hsame, ih]

/-- An endpoint is complete where it was before, or where the controller was done with it. -/
theorem finishAll_done (r : DcdPort) (i : DcdEpIdx) : (o.finishAll r late).done i = true ↔
    o.done i = true ∨ r.canFinish i = true ∧ ∃ f ∈ late, f.idx = i := by
  induction late generalizing r o with
  | nil => simp [DcdOwn.finishAll]
  | cons f late ih =>
    rw [DcdOwn.finishAll]
    by_cases hcan : r.canFinish f.idx = true
    · rw [if_pos hcan, ih, finish_canFinish]
      by_cases hi : f.idx = i
      · subst hi
        simp [DcdOwn.finish, hcan]
      · simp [DcdOwn.finish, hi, Function.update_of_ne (Ne.symm hi)]
    · rw [if_neg hcan, ih]
      by_cases hi : f.idx = i
      · subst hi
        simp [hcan]
      · simp [hi]

end Finish

/-! ## The interrupt -/

section Interrupt

variable (cfg : DcdConfig) (s : DcdSystem) {p q : UsbRhport} (line : DcdLine)

/-- The system behind what the controller does while the handler runs. -/
def DcdSystem.late (s : DcdSystem) (p : UsbRhport) (line : DcdLine) : DcdSystem :=
  line.late.foldl (fun s f => s.finish p f) s

/-- What was reported before does not matter to the controller. -/
theorem late_emit (es : List DcdEvent) : (s.emit es).late p line = (s.late p line).emit es := by
  unfold DcdSystem.late
  induction line.late generalizing s with
  | nil => rfl
  | cons f late ih =>
    have hfinish : (s.emit es).finish p f = (s.finish p f).emit es := by
      unfold DcdSystem.finish
      rw [emit_port]
      split <;> rfl
    rw [List.foldl_cons, List.foldl_cons, hfinish, ih]

theorem dcdIntSetup_data : (dcdIntSetup s p).data = s.data := by
  unfold dcdIntSetup
  split <;> rfl

theorem dcdIntSetup_port : (dcdIntSetup s p).port p = { s.port p with endptsetupstat := 0 } := by
  unfold dcdIntSetup
  split
  · exact setPort_self _ _
  · next h => rw [← not_not.mp h]

theorem dcdIntSetup_port_of_ne (h : q ≠ p) : (dcdIntSetup s p).port q = s.port q := by
  unfold dcdIntSetup
  split
  · exact setPort_of_ne _ _ h
  · rfl

theorem dcdIntSetup_completions : (dcdIntSetup s p).completions = s.completions := by
  unfold dcdIntSetup
  split
  · rw [completions_emit]
    exact List.append_nil _
  · rfl

theorem filterMap_xferComplete (cs : List DcdCompletion) :
    (cs.map DcdEvent.xferComplete).filterMap DcdEvent.completion = cs := by
  rw [List.filterMap_map]
  exact List.filterMap_some

/-- What the branch of a transfer does where it is taken. -/
theorem dcdIntUsb_spec {intStatus : BitVec 32} (h : intStatus &&& intrUsb ≠ 0) :
    (dcdIntUsb s p intStatus line).data = (s.late p line).data ∧
      (dcdIntUsb s p intStatus line).port p =
        { (s.late p line).port p with endptcomplete := 0, endptsetupstat := 0 } ∧
      (∀ q, q ≠ p → (dcdIntUsb s p intStatus line).port q = s.port q) ∧
      (dcdIntUsb s p intStatus line).completions =
        s.completions ++ dcdCompletions p (s.late p line).data (s.port p).endptcomplete := by
  have hclear : ∀ v w : BitVec 32, v &&& ~~~(v ||| w) = 0 := by
    intro v w
    rw [BitVec.not_or, ← BitVec.and_assoc, BitVec.and_not_self]
    exact BitVec.zero_and
  simp only [dcdIntUsb, if_pos h]
  refine ⟨?_, ?_, fun q hq => ?_, ?_⟩
  · rw [emit_data, dcdIntSetup_data]
    rfl
  · rw [emit_port, dcdIntSetup_port, setPort_self, hclear]
    rfl
  · rw [emit_port, dcdIntSetup_port_of_ne _ hq, setPort_of_ne _ _ hq]
    exact foldl_finish_port_of_ne _ hq
  · rw [completions_emit, filterMap_xferComplete, dcdIntSetup_completions, completions_setPort,
      foldl_finish_completions, dcdIntSetup_data]
    rfl

/-- A bus reset leaves nothing to the branch of a transfer. -/
theorem dcdIntUsb_of_reset (intStatus : BitVec 32) {r : DcdPort}
    (hr : s.port p = { r with endptsetupstat := 0, endptstat := 0, endptcomplete := 0 }) :
    (dcdIntUsb s p intStatus line).data = s.data ∧
      (∀ q, (dcdIntUsb s p intStatus line).port q = s.port q) ∧
      (dcdIntUsb s p intStatus line).completions = s.completions := by
  have hstat : (s.port p).endptstat = 0#32 := congrArg DcdPort.endptstat hr
  have hcomplete : (s.port p).endptcomplete = 0#32 := congrArg DcdPort.endptcomplete hr
  by_cases h : intStatus &&& intrUsb ≠ 0
  · have hidle : ∀ i, (s.port p).canFinish i = false := by
      intro i
      rw [DcdPort.canFinish, hstat, BitVec.getLsbD_zero, Bool.and_false]
    have hlate : s.late p line = s := foldl_finish_eq_self _ hidle
    obtain ⟨hdata, hport, hother, hcompletions⟩ := dcdIntUsb_spec s (p := p) line h
    rw [hlate] at hdata hport hcompletions
    refine ⟨hdata, fun q => ?_, ?_⟩
    · by_cases hq : q = p
      · rw [hq, hport, hr]
      · exact hother q hq
    · have hnone : dcdCompletions p s.data (s.port p).endptcomplete = [] := by
        rw [hcomplete]
        refine List.filterMap_eq_nil_iff.mpr fun i _ => ?_
        rw [BitVec.getLsbD_zero]
        rfl
      rw [hcompletions, hnone, List.append_nil]
  · have hsame : dcdIntUsb s p intStatus line = s := if_neg h
    rw [hsame]
    exact ⟨rfl, fun _ => rfl, rfl⟩

/-- A signal that is no completion does not count as one. -/
theorem filterMap_dcdIntSignals (intStatus : BitVec 32) :
    (dcdIntSignals p intStatus line).filterMap DcdEvent.completion = [] := by
  unfold dcdIntSignals
  split_ifs <;> rfl

/-- The mask that `dcd_init` sets has the bit of a bus reset. -/
theorem resets_iff : line.resets = true ↔ line.status &&& dcdIntMask &&& intrReset ≠ 0 := by
  rw [BitVec.and_assoc]
  exact decide_eq_true_iff

/-- The mask that `dcd_init` sets has the bit of a transfer. -/
theorem completes_iff : line.completes = true ↔ line.status &&& dcdIntMask &&& intrUsb ≠ 0 := by
  rw [BitVec.and_assoc]
  exact decide_eq_true_iff

/-- An interrupt of a port that is not initialised does nothing. -/
theorem dcdIntHandler_vacant (h : (s.port p).usbintr = 0) : dcdIntHandler cfg s p line = s := by
  unfold dcdIntHandler
  rw [h]
  exact if_pos BitVec.and_zero

/-- The events at the start and the end of the handler are no completions. -/
theorem dcdIntHandler_eq {intStatus : BitVec 32}
    (hstatus : line.status &&& (s.port p).usbintr = intStatus) (h : intStatus ≠ 0) :
    ∃ es : List DcdEvent, es.filterMap DcdEvent.completion = [] ∧
      dcdIntHandler cfg s p line =
        (dcdIntUsb ((dcdIntReset cfg s p intStatus line).emit (dcdIntSignals p intStatus line))
          p intStatus line).emit es := by
  refine ⟨if intStatus &&& intrSof ≠ 0 then [.sof p] else [], ?_, ?_⟩
  · split <;> rfl
  · unfold dcdIntHandler
    rw [hstatus]
    exact if_neg h

/-- A bus reset that is handled. -/
theorem dcdIntHandler_resets (h : (s.port p).usbintr = dcdIntMask) (hresets : line.resets = true) :
    (dcdIntHandler cfg s p line).data = dcdRamReset cfg ∧
      (dcdIntHandler cfg s p line).port p =
        { s.port p with endptsetupstat := 0, endptstat := 0, endptcomplete := 0 } ∧
      (∀ q, q ≠ p → (dcdIntHandler cfg s p line).port q = s.port q) ∧
      (dcdIntHandler cfg s p line).completions = s.completions := by
  rw [resets_iff] at hresets
  obtain ⟨es, hes, heq⟩ := dcdIntHandler_eq cfg s (p := p) line (congrArg _ h)
    (fun hzero => hresets (by rw [hzero]; exact BitVec.zero_and))
  have hbranch : dcdIntReset cfg s p (line.status &&& dcdIntMask) line =
      (dcdBusReset cfg s p).emit [.busReset p line.speed] := if_pos hresets
  obtain ⟨hdata, hport, hcompletions⟩ := dcdIntUsb_of_reset
    ((dcdIntReset cfg s p (line.status &&& dcdIntMask) line).emit
      (dcdIntSignals p (line.status &&& dcdIntMask) line)) (p := p) line
    (line.status &&& dcdIntMask) (r := s.port p)
    (by rw [emit_port, hbranch]; exact setPort_self _ _)
  rw [heq, completions_emit, hes, List.append_nil]
  refine ⟨hdata.trans ?_, (hport p).trans ?_, fun q hq => (hport q).trans ?_, hcompletions.trans ?_⟩
  · rw [emit_data, hbranch]
    rfl
  · rw [emit_port, hbranch]
    exact setPort_self _ _
  · rw [emit_port, hbranch]
    exact setPort_of_ne _ _ hq
  · rw [completions_emit, filterMap_dcdIntSignals, List.append_nil, hbranch, completions_emit]
    exact List.append_nil _

/-- An interrupt without a bus reset, on a port whose controller reports a transfer. -/
theorem dcdIntHandler_completes (h : (s.port p).usbintr = dcdIntMask)
    (hresets : line.resets = false) (hcompletes : line.completes = true) :
    (dcdIntHandler cfg s p line).data = (s.late p line).data ∧
      (dcdIntHandler cfg s p line).port p =
        { (s.late p line).port p with endptcomplete := 0, endptsetupstat := 0 } ∧
      (∀ q, q ≠ p → (dcdIntHandler cfg s p line).port q = s.port q) ∧
      (dcdIntHandler cfg s p line).completions =
        s.completions ++ dcdCompletions p (s.late p line).data (s.port p).endptcomplete := by
  rw [← Bool.not_eq_true, resets_iff] at hresets
  rw [completes_iff] at hcompletes
  obtain ⟨es, hes, heq⟩ := dcdIntHandler_eq cfg s (p := p) line (congrArg _ h)
    (fun hzero => hcompletes (by rw [hzero]; exact BitVec.zero_and))
  have hbranch : dcdIntReset cfg s p (line.status &&& dcdIntMask) line = s := if_neg hresets
  obtain ⟨hdata, hport, hother, hcompletions⟩ := dcdIntUsb_spec
    (s.emit (dcdIntSignals p (line.status &&& dcdIntMask) line)) (p := p) line hcompletes
  rw [heq, hbranch, completions_emit, hes, List.append_nil]
  rw [late_emit] at hdata hport hcompletions
  refine ⟨hdata, hport, hother, hcompletions.trans ?_⟩
  rw [completions_emit, filterMap_dcdIntSignals, List.append_nil]
  rfl

/-- An interrupt without a bus reset and without a transfer. -/
theorem dcdIntHandler_idle (h : (s.port p).usbintr = dcdIntMask)
    (hresets : line.resets = false) (hcompletes : line.completes = false) :
    (dcdIntHandler cfg s p line).data = s.data ∧ (dcdIntHandler cfg s p line).port = s.port ∧
      (dcdIntHandler cfg s p line).completions = s.completions := by
  rw [← Bool.not_eq_true, resets_iff] at hresets
  rw [← Bool.not_eq_true, completes_iff] at hcompletes
  by_cases hzero : line.status &&& dcdIntMask = 0
  · have hsame : dcdIntHandler cfg s p line = s := by
      unfold dcdIntHandler
      rw [h]
      exact if_pos hzero
    rw [hsame]
    exact ⟨rfl, rfl, rfl⟩
  · obtain ⟨es, hes, heq⟩ := dcdIntHandler_eq cfg s (p := p) line (congrArg _ h) hzero
    have hreset : dcdIntReset cfg s p (line.status &&& dcdIntMask) line = s := if_neg hresets
    have husb : ∀ s, dcdIntUsb s p (line.status &&& dcdIntMask) line = s :=
      fun _ => if_neg hcompletes
    rw [heq, hreset, husb]
    refine ⟨rfl, rfl, ?_⟩
    rw [completions_emit, hes, List.append_nil, completions_emit, filterMap_dcdIntSignals,
      List.append_nil]

end Interrupt

end HpmSdk.Usb
