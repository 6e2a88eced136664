import HpmSdk.Usb.DcdPortsContract

set_option autoImplicit false

/-!
# USB device: runs of two root ports

What a port was told is true of its registers, and of the descriptors while the port is
initialised.  This is kept as long as every step meets its condition, and then every step does what
is asked; a step that does not meet it does not.

`DcdInv` ties what each port was told to its registers and, while it is initialised, to the shared
data.
-/

namespace HpmSdk.Usb

open HpmSdk.Foundation

/-! ## What a step does to the registers -/

section Steps

variable (cfg : DcdConfig) {s : DcdSystem} {o : DcdOwn} {p q : UsbRhport} {a : DcdStep}

theorem dcdInit_of_port {rhport : BitVec 8} (h : UsbRhport.ofNumber rhport = some p) :
    dcdInit s rhport = (true, usbDeviceInit s p) := by
  have hle : ¬ rhport > usbSocMaxCount := by
    unfold UsbRhport.ofNumber at h
    split at h
    · next h0 => exact h0 ▸ by decide
    · split at h
      · next h1 => exact h1 ▸ by decide
      · cases h
  rw [dcdInit, if_neg hle, h]

/-- Of the numbers without a controller, 2 is not refused. -/
theorem dcdInit_of_none {rhport : BitVec 8} (h : UsbRhport.ofNumber rhport = none) :
    dcdInit s rhport = if rhport = 2 then (true, s.setData .zero) else (false, s) := by
  by_cases htwo : rhport = 2
  · subst htwo
    rfl
  · have hgt : rhport > usbSocMaxCount := by
      unfold UsbRhport.ofNumber at h
      split at h
      · cases h
      · split at h
        · cases h
        · next h0 h1 =>
          unfold usbSocMaxCount
          bv_omega
    rw [dcdInit, if_pos hgt, if_neg htwo]

/-- No endpoint gets complete while the handler is about to clear `ENDPTCOMPLETE`, unless it was
marked. -/
def DcdPort.NotLate (r : DcdPort) (line : DcdLine) : Prop :=
  line.resets = false → line.completes = true → ∀ f ∈ line.late, r.canFinish f.idx = true →
    r.endptcomplete.getLsbD (epIdx2bit f.idx) = true

/-- What an interrupt tells its port. -/
theorem DcdOwn.step_interrupt (r : DcdPort) (hinit : o.initialised = true) (line : DcdLine) :
    (line.resets = true → o.step r (.interrupt p line) = .init true) ∧
      (line.resets = false → line.completes = true →
        o.step r (.interrupt p line) = (o.finishAll r line.late).reported o) ∧
      (line.resets = false → line.completes = false → o.step r (.interrupt p line) = o) := by
  refine ⟨fun hresets => ?_, fun hresets hcompletes => ?_, fun hresets hcompletes => ?_⟩
  · simp [DcdOwn.step, hinit, hresets]
  · simp [DcdOwn.step, hinit, hresets, hcompletes]
  · simp [DcdOwn.step, hinit, hresets, hcompletes]

theorem DcdOwn.step_interrupt_vacant (r : DcdPort) (hinit : o.initialised = false)
    (line : DcdLine) : o.step r (.interrupt p line) = o := by
  simp [DcdOwn.step, hinit]

/-- An interrupt tells the port what its controller says. -/
theorem DcdPortInv.interrupt (hinv : DcdPortInv (s.port p) o)
    (hcarries : o.initialised = true → s.data.Carries o) {line : DcdLine}
    (hlate : o.initialised = true → (s.port p).NotLate line) :
    DcdPortInv ((dcdIntHandler cfg s p line).port p) (o.step (s.port p) (.interrupt p line)) := by
  have husbintr := hinv.usbintr
  cases hinit : o.initialised with
  | false =>
    rw [hinit] at husbintr
    rw [dcdIntHandler_vacant cfg s line husbintr, DcdOwn.step_interrupt_vacant _ hinit]
    exact hinv
  | true =>
    rw [hinit] at husbintr
    obtain ⟨hreset, hcomplete, hidle⟩ := DcdOwn.step_interrupt (p := p) (s.port p) hinit line
    cases hresets : line.resets with
    | true =>
      rw [(dcdIntHandler_resets cfg s line husbintr hresets).2.1, hreset hresets]
      exact .cleared (fun _ => hinv.handle hinit) husbintr (fun _ => rfl) rfl rfl
    | false =>
      cases hcompletes : line.completes with
      | true =>
        obtain ⟨hlater, -⟩ := foldl_finish_inv line.late hinv (hcarries hinit)
        rw [(dcdIntHandler_completes cfg s line husbintr hresets hcompletes).2.1,
          hcomplete hresets hcompletes]
        refine ⟨hlater.handle, hlater.usbintr, hlater.listaddr, fun i => ?_, fun i hi => ?_⟩
        · -- what got complete was marked before, so that all of it is reported
          have hdone : (o.finishAll (s.port p) line.late).done i = true → o.done i = true := by
            intro hdone
            rcases (finishAll_done line.late (s.port p) i).mp hdone with hdone | ⟨hcan, f, hf, rfl⟩
            · exact hdone
            · rw [← hinv.complete]
              exact hlate hinit hresets hcompletes f hf hcan
          refine BitVec.getLsbD_zero.trans ?_
          unfold DcdOwn.reported
          cases hd : (o.finishAll (s.port p) line.late).done i with
          | false => simp only [hd, Bool.false_and]
          | true => simp only [hdone hd, Bool.not_true, Bool.and_false]
        · refine hlater.submitted i (hi.imp_right fun hdone => ?_)
          exact (Bool.and_eq_true_iff.mp hdone).1
      | false =>
        rw [(dcdIntHandler_idle cfg s line husbintr hresets hcompletes).2.1,
          hidle hresets hcompletes]
        exact hinv

/-- A transfer is taken where the endpoint is free. -/
theorem DcdPortInv.edptXfer (hinv : DcdPortInv (s.port p) o) (i : DcdEpIdx) (buffer : BitVec 32)
    (totalBytes : BitVec 16) : DcdPortInv ((dcdEdptXfer cfg s p i buffer totalBytes).port p)
      (if (s.port p).canSubmit i then o.submit i totalBytes else o) := by
  unfold dcdEdptXfer
  split
  · rw [setData_port, setPort_self]
    exact hinv.submit i totalBytes
  · exact hinv

/-- What a port was told is true of its registers behind a step on it. -/
theorem DcdPortInv.step (hinv : DcdPortInv (s.port p) o)
    (hcarries : o.initialised = true → s.data.Carries o) (hp : a.port = some p)
    (hlate : ∀ line, a = .interrupt p line → o.initialised = true → (s.port p).NotLate line) :
    DcdPortInv ((dcdStep cfg s a).port p) (o.step (s.port p) a) := by
  cases a with
  | init rhport =>
    rw [dcdStep, dcdInit_of_port hp]
    have hport : (usbDeviceInit s p).port p =
        ⟨true, true, true, (s.port p).usbintr ||| dcdIntMask, 0, 0, 0⟩ := setPort_self _ _
    have husbintr : (s.port p).usbintr ||| dcdIntMask = dcdIntMask := by
      rw [hinv.usbintr]
      cases o.initialised <;> rfl
    rw [hport, husbintr]
    exact .cleared (fun _ => rfl) rfl (fun _ => rfl) rfl rfl
  | deinit q =>
    cases hp
    simp only [dcdStep, DcdOwn.step]
    split
    · rw [show (usbDeviceDeinit s p).port p = { DcdPort.init with handle := (s.port p).handle } from
        setPort_self _ _]
      exact .cleared (fun h => absurd h Bool.false_ne_true) rfl id rfl rfl
    · exact hinv
  | connect q =>
    cases hp
    simp only [dcdStep, DcdOwn.step]
    split
    · rw [setPort_self]
      exact ⟨hinv.handle, hinv.usbintr, hinv.listaddr, hinv.complete, hinv.submitted⟩
    · exact hinv
  | disconnect q =>
    cases hp
    simp only [dcdStep, DcdOwn.step]
    split
    · rw [setPort_self]
      exact ⟨hinv.handle, hinv.usbintr, hinv.listaddr, hinv.complete, hinv.submitted⟩
    · exact hinv
  | setAddress q =>
    cases hp
    exact hinv.edptXfer cfg dcdEp0In 0 0
  | edptOpen q xfer addr maxPacketSize =>
    cases hp
    have hport : (dcdStep cfg s (.edptOpen p xfer addr maxPacketSize)).port = s.port := by
      simp only [dcdStep, dcdEdptOpen]
      split_ifs <;> rfl
    rw [hport]
    exact hinv
  | edptXfer q addr buffer totalBytes =>
    cases hp
    exact hinv.edptXfer cfg addr.idx buffer totalBytes
  | edptStall q addr => exact hinv
  | edptClearStall q addr => exact hinv
  | edptClose q addr =>
    cases hp
    simp only [dcdStep, DcdOwn.step]
    split
    · rw [dcdEdptClose, setPort_self]
      refine ⟨hinv.handle, hinv.usbintr, hinv.listaddr, hinv.complete, fun i hi => ?_⟩
      refine hinv.submitted i (hi.imp_left fun hprimed => ?_)
      rw [BitVec.getLsbD_and] at hprimed
      exact (Bool.and_eq_true_iff.mp hprimed).1
    · exact hinv
  | interrupt q line =>
    cases hp
    exact hinv.interrupt cfg hcarries (hlate line rfl)
  | finish q f =>
    cases hp
    rw [dcdStep, finish_port, DcdOwn.step]
    split
    · next hcan => exact hinv.finish hcan
    · exact hinv
  | setup q request =>
    cases hp
    simp only [dcdStep, DcdSystem.setupPacket, DcdOwn.step]
    split
    · rw [setData_port, setPort_self]
      exact ⟨hinv.handle, hinv.usbintr, hinv.listaddr, hinv.complete, hinv.submitted⟩
    · exact hinv

/-- Nothing is reported, and only the port that is given may have changed. -/
structure DcdSystem.Quiet (s s' : DcdSystem) (port : Option UsbRhport) : Prop where
  events : s'.events = s.events
  others : ∀ q, port ≠ some q → s'.port q = s.port q

namespace DcdSystem.Quiet

variable {s' : DcdSystem} {port : Option UsbRhport}

theorem refl (s : DcdSystem) (port : Option UsbRhport) : s.Quiet s port := ⟨rfl, fun _ _ => rfl⟩

/-- A change of one port is not seen by the other one. -/
theorem setPort (s : DcdSystem) (p : UsbRhport) (r : DcdPort) : s.Quiet (s.setPort p r) (some p) :=
  ⟨rfl, fun _ h => setPort_of_ne s r fun heq => h (congrArg some heq.symm)⟩

/-- Neither is a change of the data. -/
theorem setData (h : s.Quiet s' port) (d : DcdRam) : s.Quiet (s'.setData d) port := ⟨h.1, h.2⟩

/-- A call that is not made changes nothing. -/
theorem ite {c : Prop} [Decidable c] (h : s.Quiet s' port) : s.Quiet (if c then s' else s) port := by
  split
  · exact h
  · exact refl s port

end DcdSystem.Quiet

open DcdSystem in
/-- Whatever is not an interrupt reports nothing and stays on its port. -/
theorem dcdStep_quiet (h : ∀ p line, a ≠ .interrupt p line) : s.Quiet (dcdStep cfg s a) a.port := by
  cases a with
  | init rhport =>
    rw [dcdStep]
    cases hnumber : UsbRhport.ofNumber rhport with
    | none =>
      rw [dcdInit_of_none hnumber]
      split
      · exact (Quiet.refl s _).setData _
      · exact Quiet.refl s _
    | some p =>
      rw [dcdInit_of_port hnumber, DcdStep.port, hnumber]
      exact (Quiet.setPort s p _).setData _
  | deinit p => exact ((Quiet.setPort s p _).setData _).ite
  | connect p => exact (Quiet.setPort s p _).ite
  | disconnect p => exact (Quiet.setPort s p _).ite
  | setAddress p => exact ((Quiet.setPort s p _).setData _).ite
  | edptOpen p xfer addr maxPacketSize =>
    apply Quiet.ite
    unfold dcdEdptOpen
    split_ifs
    · exact Quiet.refl s _
    · exact (Quiet.refl s _).setData _
    · exact Quiet.refl s _
  | edptXfer p addr buffer totalBytes => exact ((Quiet.setPort s p _).setData _).ite
  | edptStall p addr => exact Quiet.refl s _
  | edptClearStall p addr => exact Quiet.refl s _
  | edptClose p addr => exact (Quiet.setPort s p _).ite
  | interrupt p line => exact absurd rfl (h p line)
  | finish p f => exact ((Quiet.setPort s p _).setData _).ite
  | setup p request => exact ((Quiet.setPort s p _).setData _).ite

/-- A step does not touch the registers of another port. -/
theorem dcdStep_port_of_ne (husbintr : ∀ p, (s.port p).usbintr = 0 ∨ (s.port p).usbintr = dcdIntMask)
    (h : a.port ≠ some q) : (dcdStep cfg s a).port q = s.port q := by
  by_cases hint : ∃ p line, a = .interrupt p line
  · obtain ⟨p, line, rfl⟩ := hint
    have hq : q ≠ p := fun heq => h (congrArg some heq.symm)
    rcases husbintr p with hzero | hmask
    · rw [dcdStep, dcdIntHandler_vacant cfg s line hzero]
    · cases hresets : line.resets with
      | true => exact (dcdIntHandler_resets cfg s line hmask hresets).2.2.1 q hq
      | false =>
        cases hcompletes : line.completes with
        | true => exact (dcdIntHandler_completes cfg s line hmask hresets hcompletes).2.2.1 q hq
        | false =>
          exact congrFun (dcdIntHandler_idle cfg s line hmask hresets hcompletes).2.1 q
  · exact (dcdStep_quiet cfg fun p line heq => hint ⟨p, line, heq⟩).others q h

/-- An interrupt leaves the descriptors as they are. -/
theorem DcdPortInv.interrupt_carries (hinv : DcdPortInv (s.port p) o)
    (hcarries : o.initialised = true → s.data.Carries o) {line : DcdLine}
    (hinit : (o.step (s.port p) (.interrupt p line)).initialised = true) :
    (dcdIntHandler cfg s p line).data.Carries (o.step (s.port p) (.interrupt p line)) := by
  have husbintr := hinv.usbintr
  cases ho : o.initialised with
  | false =>
    rw [DcdOwn.step_interrupt_vacant _ ho] at hinit
    exact absurd (ho.symm.trans hinit) Bool.false_ne_true
  | true =>
    rw [ho] at husbintr
    obtain ⟨hreset, hcomplete, hidle⟩ := DcdOwn.step_interrupt (p := p) (s.port p) ho line
    cases hresets : line.resets with
    | true =>
      rw [hreset hresets]
      exact DcdRam.carries_init _ true
    | false =>
      cases hcompletes : line.completes with
      | true =>
        rw [hcomplete hresets hcompletes,
          (dcdIntHandler_completes cfg s line husbintr hresets hcompletes).1]
        exact (foldl_finish_inv line.late hinv (hcarries ho)).2
      | false =>
        rw [hidle hresets hcompletes,
          (dcdIntHandler_idle cfg s line husbintr hresets hcompletes).1]
        exact hcarries ho

/-- The descriptors carry the transfers of a port behind a step on it. -/
theorem DcdPortInv.step_carries (hinv : DcdPortInv (s.port p) o)
    (hcarries : o.initialised = true → s.data.Carries o) (hp : a.port = some p)
    (hinit : (o.step (s.port p) a).initialised = true) :
    (dcdStep cfg s a).data.Carries (o.step (s.port p) a) := by
  have hxfer : ∀ i buffer totalBytes, o.initialised = true →
      (dcdEdptXfer cfg s p i buffer totalBytes).data.Carries
        (if (s.port p).canSubmit i then o.submit i totalBytes else o) := by
    intro i buffer totalBytes hinit
    unfold dcdEdptXfer
    split
    · refine (hcarries hinit).update fun y hy => ?_
      cases hy
      exact DcdQtdRam.carries_submitted _ _
    · exact hcarries hinit
  cases a with
  | init rhport => exact DcdRam.carries_init _ true
  | deinit q =>
    cases hp
    simp only [dcdStep, DcdOwn.step] at hinit ⊢
    split
    · exact DcdRam.carries_init _ false
    · next h =>
      rw [if_neg h] at hinit
      exact hcarries hinit
  | connect q =>
    simp only [dcdStep]
    split <;> exact hcarries hinit
  | disconnect q =>
    simp only [dcdStep]
    split <;> exact hcarries hinit
  | setAddress q =>
    cases hp
    refine hxfer dcdEp0In 0 0 ?_
    simp only [DcdOwn.step] at hinit
    split at hinit <;> exact hinit
  | edptOpen q xfer addr maxPacketSize =>
    simp only [dcdStep, dcdEdptOpen]
    split_ifs <;> exact hcarries hinit
  | edptXfer q addr buffer totalBytes =>
    cases hp
    refine hxfer addr.idx buffer totalBytes ?_
    simp only [DcdOwn.step] at hinit
    split at hinit <;> exact hinit
  | edptStall q addr => exact hcarries hinit
  | edptClearStall q addr => exact hcarries hinit
  | edptClose q addr =>
    simp only [dcdStep]
    split <;> exact hcarries hinit
  | interrupt q line =>
    cases hp
    exact hinv.interrupt_carries cfg hcarries hinit
  | finish q f =>
    cases hp
    simp only [dcdStep, DcdOwn.step] at hinit ⊢
    split
    · next hcan => exact finish_carries hcan (hcarries (hinv.xfer_of_canFinish hcan).1)
    · next hcan =>
      rw [if_neg hcan] at hinit
      rw [show s.finish p f = s from if_neg hcan]
      exact hcarries hinit
  | setup q request =>
    simp only [dcdStep, DcdSystem.setupPacket]
    split <;> exact hcarries hinit

end Steps

/-! ## What a step does to the shared data -/

/-- Nothing is in the data but what a setup packet brings. -/
def DcdRam.Blank (d : DcdRam) : Prop :=
  (∀ i, d.qtd i = .zero) ∧ ∀ i, { d.qhd i with setupRequest := 0 } = DcdQhd.zero

/-- Each port is as it was told, and nothing is in the data while both are initialised. -/
structure DcdInv (t : DcdTracked) : Prop where
  port : ∀ p, DcdPortInv (t.sys.port p) (t.own p)
  carries : ∀ p, (t.own p).initialised = true → t.sys.data.Carries (t.own p)
  blank : (∀ p, (t.own p).initialised = true) → t.sys.data.Blank

section Shared

variable {cfg : DcdConfig} {t : DcdTracked} {p q : UsbRhport} {a : DcdStep}

theorem eq_other_of_ne (h : q ≠ p) : q = p.other := by
  cases p <;> cases q <;> first | rfl | exact absurd rfl h

theorem forall_rhport {P : UsbRhport → Prop} (p : UsbRhport) (hp : P p) (hother : P p.other) :
    ∀ q, P q := by
  intro q
  by_cases h : q = p
  · exact h ▸ hp
  · exact eq_other_of_ne h ▸ hother

namespace DcdInv

variable (h : DcdInv t)
include h

/-- A port has its interrupts enabled or not. -/
theorem usbintr (p : UsbRhport) :
    (t.sys.port p).usbintr = 0 ∨ (t.sys.port p).usbintr = dcdIntMask := by
  rw [(h.port p).usbintr]
  cases (t.own p).initialised
  · exact .inl rfl
  · exact .inr rfl

theorem usbintr_of_initialised (hp : (t.own p).initialised = true) :
    (t.sys.port p).usbintr = dcdIntMask := by
  rw [(h.port p).usbintr, hp]
  rfl

/-- While both are initialised no controller has anything to work on. -/
theorem not_canFinish (hp : (t.own p).initialised = true)
    (hother : (t.own p.other).initialised = true) (i : DcdEpIdx) :
    (t.sys.port p).canFinish i = false := by
  rw [← Bool.not_eq_true]
  intro hcan
  obtain ⟨x, hx⟩ := Option.isSome_iff_exists.mp ((h.port p).xfer_of_canFinish hcan).2
  have hnext := (h.carries p hp i x hx).1
  rw [(h.blank (forall_rhport p hp hother)).1 i] at hnext
  exact absurd hnext (by decide)

/-- While both ports are initialised no transfer ends late. -/
theorem late_eq_self (hp : (t.own p).initialised = true)
    (hother : (t.own p.other).initialised = true) (line : DcdLine) :
    t.sys.late p line = t.sys :=
  foldl_finish_eq_self _ (h.not_canFinish hp hother)

variable (cfg) in
/-- While the other port is initialised, a controller leaves the descriptors alone. -/
theorem controller (hp : a.port = some p) (hcontroller : a.ofController = true)
    (hother : (t.own p.other).initialised = true) :
    (dcdStep cfg t.sys a).data.qtd = t.sys.data.qtd ∧
      ∀ i, { (dcdStep cfg t.sys a).data.qhd i with setupRequest := 0 } =
        { t.sys.data.qhd i with setupRequest := 0 } := by
  cases a with
  | finish q f =>
    cases hp
    have hcan : (t.sys.port p).canFinish f.idx ≠ true := by
      intro hcan
      have hinit := ((h.port p).xfer_of_canFinish hcan).1
      exact absurd hcan (by rw [h.not_canFinish hinit hother]; exact Bool.false_ne_true)
    rw [dcdStep, show t.sys.finish p f = t.sys from if_neg hcan]
    exact ⟨rfl, fun _ => rfl⟩
  | setup q request =>
    simp only [dcdStep, DcdSystem.setupPacket]
    split
    · refine ⟨rfl, fun i => ?_⟩
      rw [setData_data]
      by_cases hi : i = dcdEp0Out
      · simp only [hi, Function.update_self]
      · simp only [Function.update_of_ne hi]
    · exact ⟨rfl, fun _ => rfl⟩
  | _ => cases hcontroller

end DcdInv

/-- A step that spares a port leaves its data. -/
theorem DcdTracked.Spares.data_eq {data : DcdRam} (h : t.Spares p data)
    (hother : (t.own p.other).initialised = true) : data = t.sys.data :=
  (h hother).2

/-- A step that fits leaves the data of the other port alone. -/
theorem DcdFits.data_eq (hfits : DcdFits cfg t a) (h : DcdInv t) (hsoftware : a.ofController = false)
    (hq : a.port ≠ some q) (hinit : (t.own q).initialised = true) :
    (dcdStep cfg t.sys a).data = t.sys.data := by
  have hother : ∀ p, some p ≠ some q → (t.own p.other).initialised = true := fun p hp =>
    eq_other_of_ne (fun heq => hp (congrArg some heq.symm)) ▸ hinit
  cases a with
  | init rhport =>
    simp only [dcdStep]
    cases hnumber : UsbRhport.ofNumber rhport with
    | some p =>
      have hp : some p ≠ some q := fun heq => hq (hnumber.trans heq)
      rw [dcdInit_of_port hnumber, hfits.2 p hnumber (hother p hp)]
      rfl
    | none => rw [dcdInit_of_none hnumber, if_neg hfits.1]
  | deinit p =>
    simp only [dcdStep]
    split
    · next hhandle =>
      rw [hfits hhandle (hother p hq)]
      rfl
    · rfl
  | connect p =>
    simp only [dcdStep]
    split <;> rfl
  | disconnect p =>
    simp only [dcdStep]
    split <;> rfl
  | setAddress p =>
    simp only [dcdStep, dcdEdptXfer]
    split
    · next hcan => exact (hfits hcan).data_eq (hother p hq)
    · rfl
  | edptOpen p xfer addr maxPacketSize =>
    simp only [dcdStep, dcdEdptOpen]
    split_ifs with hhandle hiso hlt
    · rfl
    · exact (hfits hhandle hiso hlt).data_eq (hother p hq)
    · rfl
    · rfl
  | edptXfer p addr buffer totalBytes =>
    simp only [dcdStep, dcdEdptXfer]
    split
    · next hcan => exact (hfits hcan).data_eq (hother p hq)
    · rfl
  | edptStall p addr => rfl
  | edptClearStall p addr => rfl
  | edptClose p addr =>
    simp only [dcdStep]
    split <;> rfl
  | interrupt p line =>
    simp only [dcdStep]
    cases hp : (t.own p).initialised with
    | false =>
      have hzero := (h.port p).usbintr
      rw [hp] at hzero
      rw [dcdIntHandler_vacant cfg t.sys line hzero]
    | true =>
      have hmask := h.usbintr_of_initialised hp
      cases hresets : line.resets with
      | true =>
        exact absurd (((hfits hp).1 hresets).symm.trans (hother p hq)) Bool.false_ne_true
      | false =>
        cases hcompletes : line.completes with
        | true =>
          rw [(dcdIntHandler_completes cfg t.sys line hmask hresets hcompletes).1,
            h.late_eq_self hp (hother p hq)]
        | false => exact (dcdIntHandler_idle cfg t.sys line hmask hresets hcompletes).1
  | finish p f => cases hsoftware
  | setup p request => cases hsoftware

/-- Only `dcd_init` makes a port initialised. -/
theorem DcdOwn.step_initialised {r : DcdPort} {o : DcdOwn}
    (h : (o.step r a).initialised = true) :
    o.initialised = true ∨ ∃ rhport, a = .init rhport := by
  cases a with
  | init rhport => exact .inr ⟨rhport, rfl⟩
  | deinit p =>
    simp only [DcdOwn.step] at h
    split at h
    · cases h
    · exact .inl h
  | setAddress p =>
    simp only [DcdOwn.step] at h
    split at h <;> exact .inl h
  | edptXfer p addr buffer totalBytes =>
    simp only [DcdOwn.step] at h
    split at h <;> exact .inl h
  | interrupt p line =>
    cases ho : o.initialised with
    | true => exact .inl rfl
    | false =>
      rw [DcdOwn.step_interrupt_vacant r ho] at h
      exact .inl (ho.symm.trans h)
  | finish p f =>
    simp only [DcdOwn.step] at h
    split at h <;> exact .inl h
  | _ => exact .inl h

variable (cfg) in
/-- A step of one port tells the other one nothing. -/
theorem dcdTrack_own_of_ne (h : a.port ≠ some p) : (dcdTrack cfg t a).own p = t.own p := if_neg h

theorem dcdTrack_own (h : a.port = some p) :
    (dcdTrack cfg t a).own p = (t.own p).step (t.sys.port p) a := if_pos h

theorem DcdFits.notLate {line : DcdLine} (hfits : DcdFits cfg t (.interrupt p line))
    (hinit : (t.own p).initialised = true) : (t.sys.port p).NotLate line :=
  (hfits hinit).2

/-- What is in the data while both ports are initialised. -/
theorem DcdFits.blank (hfits : DcdFits cfg t a) (h : DcdInv t)
    (hboth : ∀ q, ((dcdTrack cfg t a).own q).initialised = true) :
    (dcdStep cfg t.sys a).data.Blank := by
  cases hport : a.port with
  | none =>
    have hsame : ∀ q, (dcdTrack cfg t a).own q = t.own q := fun q =>
      dcdTrack_own_of_ne cfg (by rw [hport]; exact nofun)
    have hsoftware : a.ofController = false := by
      cases a <;> first | rfl | cases hport
    have hdata := hfits.data_eq h hsoftware (q := .usb0) (by rw [hport]; exact nofun)
      (hsame .usb0 ▸ hboth .usb0)
    rw [hdata]
    exact h.blank fun q => hsame q ▸ hboth q
  | some p =>
    have hne : a.port ≠ some p.other := by
      rw [hport]
      cases p <;> exact nofun
    have hother : (t.own p.other).initialised = true :=
      dcdTrack_own_of_ne cfg hne ▸ hboth p.other
    have hp := hboth p
    rw [dcdTrack_own hport] at hp
    cases hcontroller : a.ofController with
    | true =>
      obtain ⟨hqtd, hqhd⟩ := h.controller cfg hport hcontroller hother
      have hinit : (t.own p).initialised = true := by
        rcases DcdOwn.step_initialised hp with hinit | ⟨rhport, rfl⟩
        · exact hinit
        · cases hcontroller
      obtain ⟨hblank, hblank'⟩ := h.blank (forall_rhport p hinit hother)
      exact ⟨fun i => hqtd ▸ hblank i, fun i => (hqhd i).trans (hblank' i)⟩
    | false =>
      rcases DcdOwn.step_initialised hp with hinit | ⟨rhport, rfl⟩
      · rw [hfits.data_eq h hcontroller hne hother]
        exact h.blank (forall_rhport p hinit hother)
      · rw [dcdStep, dcdInit_of_port hport]
        exact ⟨fun _ => rfl, fun _ => rfl⟩

/-- The invariant is kept by a step that fits. -/
theorem DcdInv.step (h : DcdInv t) (hfits : DcdFits cfg t a) : DcdInv (dcdTrack cfg t a) := by
  refine ⟨fun p => ?_, fun p hp => ?_, hfits.blank h⟩
  · by_cases hport : a.port = some p
    · rw [dcdTrack_own hport]
      refine (h.port p).step cfg (h.carries p) hport ?_
      rintro line rfl hinit
      cases hport
      exact hfits.notLate hinit
    · rw [dcdTrack_own_of_ne cfg hport]
      rw [dcdTrack, dcdStep_port_of_ne cfg h.usbintr hport]
      exact h.port p
  · by_cases hport : a.port = some p
    · rw [dcdTrack_own hport] at hp ⊢
      exact (h.port p).step_carries cfg (h.carries p) hport hp
    · rw [dcdTrack_own_of_ne cfg hport] at hp ⊢
      have hqtd : (dcdStep cfg t.sys a).data.qtd = t.sys.data.qtd := by
        cases hcontroller : a.ofController with
        | true =>
          obtain ⟨q, hq⟩ : ∃ q, a.port = some q := by
            cases a <;> first | exact ⟨_, rfl⟩ | cases hcontroller
          have heq : p = q.other := eq_other_of_ne fun heq => hport (heq ▸ hq)
          exact (h.controller cfg hq hcontroller (heq ▸ hp)).1
        | false => rw [hfits.data_eq h hcontroller hport hp]
      intro i x hx
      rw [dcdTrack, hqtd]
      exact h.carries p hp i x hx

/-- At the start neither port is initialised. -/
theorem DcdInv.start (data : DcdRam) : DcdInv (.start data) := by
  refine ⟨fun p => ?_, fun p hp => ?_, fun hboth => ?_⟩
  · exact .cleared (fun h => absurd h Bool.false_ne_true) rfl id rfl rfl
  · exact absurd hp Bool.false_ne_true
  · exact absurd (hboth .usb0) Bool.false_ne_true

/-- The loop over the endpoints reports those that are complete. -/
theorem DcdInv.dcdCompletions_eq (h : DcdInv t) (hp : (t.own p).initialised = true)
    (line : DcdLine) :
    dcdCompletions p (t.sys.late p line).data (t.sys.port p).endptcomplete =
      (List.finRange usbSosDcdMaxQhdCount).filterMap fun i =>
        if (t.own p).done i then
          (((t.own p).finishAll (t.sys.port p) line.late).xfer i).map fun x => x.completion p i
        else none := by
  obtain ⟨hinv, hcarries⟩ := foldl_finish_inv line.late (h.port p) (h.carries p hp)
  refine List.filterMap_congr fun i _ => ?_
  rw [(h.port p).complete]
  split
  · next hdone =>
    have hlater := (finishAll_done line.late (t.sys.port p) i).mpr (.inl hdone)
    obtain ⟨x, hx⟩ := Option.isSome_iff_exists.mp (hinv.submitted i (.inr hlater))
    rw [hx, Option.map_some]
    exact congrArg some ((hcarries i x hx).completion p i)
  · rfl

/-- The completions of an interrupt are those that the port expects. -/
theorem DcdInv.reports_interrupt (h : DcdInv t) {line : DcdLine} :
    (dcdIntHandler cfg t.sys p line).completions =
      t.sys.completions ++ (t.own p).expected (t.sys.port p) p line := by
  unfold DcdOwn.expected
  cases hp : (t.own p).initialised with
  | false =>
    have hzero := (h.port p).usbintr
    rw [hp] at hzero
    rw [dcdIntHandler_vacant cfg t.sys line hzero]
    exact (List.append_nil _).symm
  | true =>
    have hmask := h.usbintr_of_initialised hp
    cases hresets : line.resets with
    | true =>
      rw [(dcdIntHandler_resets cfg t.sys line hmask hresets).2.2.2]
      exact (List.append_nil _).symm
    | false =>
      cases hcompletes : line.completes with
      | true =>
        rw [(dcdIntHandler_completes cfg t.sys line hmask hresets hcompletes).2.2.2,
          h.dcdCompletions_eq hp]
        rfl
      | false =>
        rw [(dcdIntHandler_idle cfg t.sys line hmask hresets hcompletes).2.2]
        exact (List.append_nil _).symm

/-- The completions of an interrupt are those of the transfers of its port. -/
theorem DcdInv.reports (h : DcdInv t) :
    (dcdTrack cfg t a).sys.completions = t.sys.completions ++ t.expected a := by
  by_cases hint : ∃ p line, a = .interrupt p line
  · obtain ⟨p, line, rfl⟩ := hint
    exact h.reports_interrupt
  · have hnone : t.expected a = [] := by
      cases a with
      | interrupt p line => exact absurd ⟨p, line, rfl⟩ hint
      | _ => rfl
    have hevents := (dcdStep_quiet cfg (s := t.sys) fun p line heq => hint ⟨p, line, heq⟩).events
    rw [hnone, List.append_nil, dcdTrack, DcdSystem.completions, hevents]
    rfl

/-- A step that fits does what is asked. -/
theorem DcdFits.stepHolds (hfits : DcdFits cfg t a) (h : DcdInv t) : DcdStepHolds cfg t a := by
  refine ⟨?_, fun hsoftware p hport hp => ?_, h.reports, fun p i hdone => ?_⟩
  · rintro rhport rfl hnone
    rw [dcdInit_of_none hnone, if_neg hfits.1]
  · rw [dcdTrack, DcdSystem.dcdData, DcdSystem.dcdData, dcdStep_port_of_ne cfg h.usbintr hport,
      hfits.data_eq h hsoftware hport hp]
  · exact (((h.step hfits).port p).complete i).trans hdone

/-- The data of an initialised port is left alone by a step on the other one. -/
theorem DcdStepHolds.data_eq (hholds : DcdStepHolds cfg t a) (h : DcdInv t)
    (hsoftware : a.ofController = false) (hport : a.port = some p)
    (hother : (t.own p.other).initialised = true) : (dcdStep cfg t.sys a).data = t.sys.data := by
  have hne : a.port ≠ some p.other := by
    rw [hport]
    cases p <;> exact nofun
  have hframe := hholds.frame hsoftware p.other hne hother
  rw [dcdTrack, DcdSystem.dcdData, DcdSystem.dcdData, dcdStep_port_of_ne cfg h.usbintr hne,
    if_pos ((h.port p.other).handle hother), if_pos ((h.port p.other).handle hother)] at hframe
  exact Option.some.inj hframe

/-- A write that leaves something in the data is not made while both ports are initialised. -/
theorem DcdInv.spares (h : DcdInv t) {data : DcdRam} (hblank : ¬ data.Blank)
    (hdata : (t.own p.other).initialised = true → data = t.sys.data) : t.Spares p data := by
  intro hother
  refine ⟨?_, hdata hother⟩
  rw [← Bool.not_eq_true]
  intro hp
  exact hblank (hdata hother ▸ h.blank (forall_rhport p hp hother))

/-- A submitted transfer is seen in the data. -/
theorem dcdRamXfer_not_blank (d : DcdRam) (i : DcdEpIdx) (buffer : BitVec 32)
    (totalBytes : BitVec 16) : ¬ (dcdRamXfer cfg d i buffer totalBytes).Blank := by
  intro hblank
  have hnext := congrArg (fun q => q.next) (hblank.1 i)
  simp only [dcdRamXfer, Function.update_self] at hnext
  exact absurd (show usbSocDcdQtdNextInvalid = 0 from hnext) (by decide)

/-- An open endpoint is seen in the data. -/
theorem dcdQhdOpen_not_blank (d : DcdRam) (i : DcdEpIdx) (maxPacketSize : BitVec 16) :
    ¬ DcdRam.Blank
      { d with qhd := Function.update d.qhd i (dcdQhdOpen maxPacketSize) } := by
  intro hblank
  have hzlt := congrArg DcdQhd.zeroLengthTermination (hblank.2 i)
  simp only [Function.update_self] at hzlt
  exact absurd (show true = false from hzlt) (by decide)

/-- A reset is seen in the data. -/
theorem dcdRamReset_not_blank : ¬ (dcdRamReset cfg).Blank := by
  intro hblank
  have hsetup := congrArg DcdQhd.intOnSetup (hblank.2 dcdEp0Out)
  exact absurd (show true = false from hsetup) (by decide)

/-- A step that does what is asked fits. -/
theorem DcdStepHolds.fits (hholds : DcdStepHolds cfg t a) (h : DcdInv t) : DcdFits cfg t a := by
  have hdata := fun p => hholds.data_eq h (p := p)
  cases a with
  | init rhport =>
    refine ⟨?_, fun p hnumber hother => ?_⟩
    · rintro rfl
      have hrejects := hholds.rejects 2 rfl (by decide)
      rw [dcdInit_of_none (by decide), if_pos rfl] at hrejects
      cases hrejects
    · have hzero := hdata p rfl hnumber hother
      rw [dcdStep, dcdInit_of_port hnumber] at hzero
      exact hzero.symm
  | deinit p =>
    intro hhandle hother
    have hzero := hdata p rfl rfl hother
    rw [dcdStep, if_pos hhandle] at hzero
    exact hzero.symm
  | setAddress p =>
    refine fun hcan => h.spares (dcdRamXfer_not_blank _ _ _ _) fun hother => ?_
    have hxfer := hdata p rfl rfl hother
    rw [dcdStep, dcdEdptXfer, if_pos hcan] at hxfer
    exact hxfer
  | edptOpen p xfer addr maxPacketSize =>
    refine fun hhandle hiso hlt => h.spares (dcdQhdOpen_not_blank _ _ _) fun hother => ?_
    have hopen := hdata p rfl rfl hother
    rw [dcdStep, if_pos hhandle, dcdEdptOpen, if_neg hiso, dif_pos hlt] at hopen
    exact hopen
  | edptXfer p addr buffer totalBytes =>
    refine fun hcan => h.spares (dcdRamXfer_not_blank _ _ _ _) fun hother => ?_
    have hxfer := hdata p rfl rfl hother
    rw [dcdStep, dcdEdptXfer, if_pos hcan] at hxfer
    exact hxfer
  | interrupt p line =>
    intro hp
    have hmask := h.usbintr_of_initialised hp
    refine ⟨fun hresets => ?_, fun hresets hcompletes f hf hcan => ?_⟩
    · rw [← Bool.not_eq_true]
      intro hother
      have hreset := hdata p rfl rfl hother
      rw [dcdStep, (dcdIntHandler_resets cfg t.sys line hmask hresets).1] at hreset
      exact dcdRamReset_not_blank (hreset ▸ h.blank (forall_rhport p hp hother))
    · -- an endpoint that is not marked is complete behind the handler and marked no more
      rw [(h.port p).complete, ← Bool.not_eq_false]
      intro hdone
      have hkept := hholds.kept p f.idx
      rw [dcdTrack_own rfl, (DcdOwn.step_interrupt (t.sys.port p) hp line).2.1 hresets hcompletes,
        dcdTrack, dcdStep, (dcdIntHandler_completes cfg t.sys line hmask hresets hcompletes).2.1]
        at hkept
      have hlater := (finishAll_done line.late (t.sys.port p) f.idx (o := t.own p)).mpr
        (.inr ⟨hcan, f, hf, rfl⟩)
      have hmarked := hkept (by simp only [DcdOwn.reported, hlater, hdone]; rfl)
      exact absurd (BitVec.getLsbD_zero.symm.trans hmarked) Bool.false_ne_true
  | _ => trivial

end Shared

/-- Whatever is done with the two ports, every step does what is asked exactly if every step meets
its condition.

There is one set of queue heads and descriptors behind both handles.  A step of one port that
writes them changes what the other one has, unless that one is not in use or what is written is
already there; the invariant follows which port is in use, and what was given to each.  The same
step lemma gives both directions: a step that meets its condition keeps the invariant, and so does
one that does what is asked. -/
theorem dcdHolds_iff (cfg : DcdConfig) (data : DcdRam) (steps : List DcdStep) :
    (∀ before a, before ++ [a] <+: steps →
      DcdStepHolds cfg (before.foldl (dcdTrack cfg) (.start data)) a) ↔
    Along (fun t a => some (dcdTrack cfg t a)) (DcdFits cfg) (.start data) steps := by
  rw [← along_iff_prefixes]
  constructor
  · refine along_of_invariant (P := DcdInv) ?_ (fun t a h hholds => hholds.fits h) steps _
      (.start data)
    rintro t a t' h hholds ⟨⟩
    exact h.step (hholds.fits h)
  · refine along_of_invariant (P := DcdInv) ?_ (fun t a h hfits => hfits.stepHolds h) steps _
      (.start data)
    rintro t a t' h hfits ⟨⟩
    exact h.step hfits

/-- The second `dcd_init` clears the descriptor of the first port. -/
theorem dcdHolds_fails :
    ¬ ∀ (cfg : DcdConfig) (data : DcdRam) (steps : List DcdStep) (before : List DcdStep) a,
      before ++ [a] <+: steps →
        DcdStepHolds cfg (before.foldl (dcdTrack cfg) (.start data)) a := by
  intro h
  have hholds := h ⟨0x1080000, 64⟩ .zero _
    [.init 0, .edptXfer .usb0 ⟨0x81, by decide⟩ 0x1090000 64] (.init 1) (List.prefix_refl _)
  have hframe := hholds.frame rfl .usb0 nofun rfl
  have hbytes := congrArg
    (fun d => d.map fun d : DcdRam => (d.qtd ⟨3, by decide⟩).expectedBytes) hframe
  exact absurd hbytes (by decide)

end HpmSdk.Usb
