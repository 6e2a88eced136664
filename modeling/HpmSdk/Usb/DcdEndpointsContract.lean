import HpmSdk.Usb.DcdEndpoints

set_option autoImplicit false

/-!
# USB device: what the endpoint control registers hold

Every call changes the fields of its own endpoint and direction only.  What goes wrong is in
two places: an open ors its type over the one that is in the register, which a reset and a close
leave there, and a close flushes bits of other endpoints where the direction is IN.

Each call is a mask that is ored into, or cleared in, the half of its endpoint, and `UsbDcdBits`
tells what a mask has in each field; so one lemma answers for all of them.
-/

namespace HpmSdk.Usb

open HpmSdk.Foundation

/-! ## What a write leaves in a field -/

theorem UsbDcdEp.ext_iff_num {ep ep' : UsbDcdEp} :
    ep' = ep ↔ ep'.num = ep.num ∧ ep'.dir = ep.dir := by
  cases ep
  cases ep'
  simp

/-- No field sees the toggle bits. -/
theorem usbDcdField_toggles (dir : Bool) (f : UsbDcdField) :
    (f.at dir).get usbEndptctrlToggles = 0#32 := by
  cases dir <;> cases f <;> decide

/-- Bits that are shifted for an endpoint: fields of its own direction, none of the other. -/
structure UsbDcdBits (ep : UsbDcdEp) (mask : BitVec 32) (bits : UsbDcdField → BitVec 32) :
    Prop where
  own : ∀ f : UsbDcdField, (f.at ep.dir).get (mask <<< ep.shift) = bits f
  other : ∀ f : UsbDcdField, (f.at (!ep.dir)).get (mask <<< ep.shift) = 0#32

/-- A mask for each direction, as the tables of the driver have it. -/
theorem UsbDcdBits.of_forall {ep : UsbDcdEp} {mask : BitVec 32} {bits : UsbDcdField → BitVec 32}
    (h : ∀ (dir : Bool) (f : UsbDcdField),
      (f.at dir).get (mask <<< (if dir then 16 else 0)) = bits f ∧
        (f.at (!dir)).get (mask <<< (if dir then 16 else 0)) = 0#32) :
    UsbDcdBits ep mask bits :=
  ⟨fun f => (h ep.dir f).1, fun f => (h ep.dir f).2⟩

namespace UsbDcdRegs

variable (r : UsbDcdRegs) {ep : UsbDcdEp} {mask : BitVec 32} {bits : UsbDcdField → BitVec 32}

/-- A write that keeps the other direction changes the fields of its own endpoint only. -/
theorem field_write {v : BitVec 32}
    (hother : ∀ f : UsbDcdField,
      (f.at (!ep.dir)).get v = (f.at (!ep.dir)).get (r.endptctrl ep.num))
    (ep' : UsbDcdEp) (f : UsbDcdField) :
    (r.write ep v).field ep' f = if ep' = ep then (f.at ep.dir).get v else r.field ep' f := by
  unfold field write
  dsimp only
  by_cases hnum : ep'.num = ep.num
  · rw [hnum, Function.update_self,
      RegField.get_and_not_of_get_eq_zero _ _ (usbDcdField_toggles _ _)]
    by_cases hdir : ep'.dir = ep.dir
    · rw [if_pos (UsbDcdEp.ext_iff_num.mpr ⟨hnum, hdir⟩), hdir]
    · have hne : ep' ≠ ep := fun h => hdir (congrArg UsbDcdEp.dir h)
      rw [if_neg hne, Bool.eq_not.mpr hdir]
      exact hother f
  · have hne : ep' ≠ ep := fun h => hnum (congrArg UsbDcdEp.num h)
    rw [if_neg hne, Function.update_of_ne hnum]

/-- Oring a mask into the half of an endpoint changes the fields of that endpoint. -/
theorem field_orShifted (hbits : UsbDcdBits ep mask bits) (ep' : UsbDcdEp) (f : UsbDcdField) :
    (r.orShifted ep mask).field ep' f =
      if ep' = ep then r.field ep f ||| bits f else r.field ep' f := by
  unfold orShifted
  rw [field_write, RegField.get_or, hbits.own]
  · rfl
  · intro f
    rw [RegField.get_or, hbits.other, BitVec.or_zero]

/-- Clearing a mask in the half of an endpoint changes the fields of that endpoint. -/
theorem field_clearShifted (hbits : UsbDcdBits ep mask bits) (ep' : UsbDcdEp)
    (f : UsbDcdField) :
    (r.clearShifted ep mask).field ep' f =
      if ep' = ep then r.field ep f &&& ~~~bits f else r.field ep' f := by
  unfold clearShifted
  rw [field_write, RegField.get_and_not, hbits.own]
  · rfl
  · intro f
    rw [RegField.get_and_not, hbits.other, BitVec.not_zero, BitVec.and_allOnes]

end UsbDcdRegs

/-! ## The bits of the functions -/

/-- The fields that an open ors in. -/
def usbDcdOpenBits (xfer : UsbXferType) : UsbDcdField → BitVec 32
  | .type => xfer.code
  | .enable => 1
  | .stall | .inhibit => 0

/-- The fields that a stall ors in and a clear masks out. -/
def usbDcdStallBits : UsbDcdField → BitVec 32
  | .stall => 1
  | .type | .inhibit | .enable => 0

/-- The fields that a close masks out: the type's lower bit only. -/
def usbDcdCloseBits : UsbDcdField → BitVec 32
  | .stall | .type | .enable => 1
  | .inhibit => 0

/-- An open sets type and enable, and resets the toggle. -/
theorem usbDcdBits_open (ep : UsbDcdEp) (xfer : UsbXferType) :
    UsbDcdBits ep (xfer.code <<< 2 ||| endptctrlEnable ||| endptctrlToggleReset)
      (usbDcdOpenBits xfer) := by
  refine UsbDcdBits.of_forall fun dir f => ?_
  cases dir <;> cases xfer <;> cases f <;> decide

/-- A stall sets one bit. -/
theorem usbDcdBits_stall (ep : UsbDcdEp) : UsbDcdBits ep endptctrlStall usbDcdStallBits := by
  refine UsbDcdBits.of_forall fun dir f => ?_
  cases dir <;> cases f <;> decide

theorem usbDcdBits_toggleReset (ep : UsbDcdEp) :
    UsbDcdBits ep endptctrlToggleReset fun _ => 0 := by
  refine UsbDcdBits.of_forall fun dir f => ?_
  cases dir <;> cases f <;> decide

/-- A close clears type, enable and stall. -/
theorem usbDcdBits_close (ep : UsbDcdEp) :
    UsbDcdBits ep (endptctrlType ||| endptctrlEnable ||| endptctrlStall) usbDcdCloseBits := by
  refine UsbDcdBits.of_forall fun dir f => ?_
  cases dir <;> cases f <;> decide

/-! ## What a call leaves in a field -/

section Calls

variable (r : UsbDcdRegs) (ep ep' : UsbDcdEp) (f : UsbDcdField)

theorem field_usbDcdEdptOpen (xfer : UsbXferType) :
    (usbDcdEdptOpen r ep xfer).field ep' f =
      if ep' = ep then r.field ep f ||| usbDcdOpenBits xfer f else r.field ep' f :=
  r.field_orShifted (usbDcdBits_open ep xfer) ep' f

theorem field_usbDcdEdptStall :
    (usbDcdEdptStall r ep).field ep' f =
      if ep' = ep then r.field ep f ||| usbDcdStallBits f else r.field ep' f :=
  r.field_orShifted (usbDcdBits_stall ep) ep' f

theorem field_usbDcdEdptClearStall :
    (usbDcdEdptClearStall r ep).field ep' f =
      if ep' = ep then r.field ep f &&& ~~~usbDcdStallBits f else r.field ep' f := by
  unfold usbDcdEdptClearStall
  have htoggle : ∀ ep'', (r.orShifted ep endptctrlToggleReset).field ep'' f = r.field ep'' f := by
    intro ep''
    rw [r.field_orShifted (usbDcdBits_toggleReset ep)]
    split
    next h =>
      rw [h]
      exact BitVec.or_zero
    next => rfl
  rw [UsbDcdRegs.field_clearShifted _ (usbDcdBits_stall ep), htoggle, htoggle]

theorem field_usbDcdEdptClose (more : Nat) :
    (usbDcdEdptClose r ep more).field ep' f =
      if ep' = ep then r.field ep f &&& ~~~usbDcdCloseBits f else r.field ep' f := by
  unfold usbDcdEdptClose
  rw [UsbDcdRegs.field_clearShifted _ (usbDcdBits_close ep)]
  rfl

/-- A reset leaves every endpoint a bulk endpoint that is not open. -/
theorem field_usbDcdBusReset :
    (usbDcdBusReset r).field ep f = if f = .type then UsbXferType.bulk.code else 0 := by
  unfold UsbDcdRegs.field usbDcdBusReset
  dsimp only
  rw [if_neg ep.pos]
  cases ep.dir <;> cases f <;> decide

end Calls

/-! ## One lemma for the calls -/

/-- A call is for an endpoint, or for all of them. -/
def UsbDcdCall.Touches (call : UsbDcdCall) (ep : UsbDcdEp) : Prop :=
  ∀ ep' ∈ call.ep, ep' = ep

instance (call : UsbDcdCall) (ep : UsbDcdEp) : Decidable (call.Touches ep) :=
  match h : call.ep with
  | none => .isTrue (by simp [UsbDcdCall.Touches, h])
  | some ep' => decidable_of_iff (ep' = ep) (by simp [UsbDcdCall.Touches, h])

/-- What a call makes of a field that it touches. -/
def UsbDcdCall.effect (f : UsbDcdField) (old : BitVec 32) : UsbDcdCall → BitVec 32
  | busReset => if f = .type then UsbXferType.bulk.code else 0
  | open' _ xfer => old ||| usbDcdOpenBits xfer f
  | stall _ => old ||| usbDcdStallBits f
  | clearStall _ => old &&& ~~~usbDcdStallBits f
  | close _ _ => old &&& ~~~usbDcdCloseBits f

section Steps

variable {r : UsbDcdRegs} {ep : UsbDcdEp} (call : UsbDcdCall)

theorem UsbDcdCall.touches_iff {call : UsbDcdCall} {ep' : UsbDcdEp} (h : call.ep = some ep') :
    call.Touches ep ↔ ep = ep' := by
  unfold Touches
  rw [h]
  exact ⟨fun hall => (hall ep' rfl).symm, fun heq ep'' hmem => by
    rw [heq]
    exact (Option.some.inj hmem).symm⟩

/-- A call for one endpoint. -/
theorem UsbDcdCall.field_step_own {call : UsbDcdCall} {ep' : UsbDcdEp} {f : UsbDcdField}
    (hep : call.ep = some ep')
    (hfield : (call.step r).field ep f =
      if ep = ep' then call.effect f (r.field ep' f) else r.field ep f) :
    (call.step r).field ep f =
      if call.Touches ep then call.effect f (r.field ep f) else r.field ep f := by
  rw [hfield]
  by_cases heq : ep = ep'
  · rw [if_pos heq, if_pos ((touches_iff hep).mpr heq), ← heq]
  · rw [if_neg heq, if_neg (mt (touches_iff hep).mp heq)]

/-- A call has its effect on the fields that it touches and keeps the others. -/
theorem UsbDcdCall.field_step (f : UsbDcdField) :
    (call.step r).field ep f =
      if call.Touches ep then call.effect f (r.field ep f) else r.field ep f := by
  cases call with
  | busReset =>
    have htouches : busReset.Touches ep := fun _ h => absurd h (Option.not_mem_none _)
    rw [if_pos htouches]
    exact field_usbDcdBusReset r ep f
  | open' addr xfer => exact field_step_own rfl (field_usbDcdEdptOpen r addr.ep ep f xfer)
  | stall addr => exact field_step_own rfl (field_usbDcdEdptStall r addr.ep ep f)
  | clearStall addr => exact field_step_own rfl (field_usbDcdEdptClearStall r addr.ep ep f)
  | close addr more => exact field_step_own rfl (field_usbDcdEdptClose r addr.ep ep f more)

/-- Where a call does not touch an endpoint, it says nothing of it. -/
theorem UsbDcdCall.says_nothing {call : UsbDcdCall} (h : ¬ call.Touches ep) :
    call.opens ep = none ∧ call.stalls ep = none := by
  have hne : ∀ {ep'}, call.ep = some ep' → ep' ≠ ep := fun hep heq =>
    h ((touches_iff hep).mpr heq.symm)
  cases call with
  | busReset => exact absurd (fun _ h => absurd h (Option.not_mem_none _)) h
  | open' addr xfer => exact ⟨if_neg (hne rfl), rfl⟩
  | stall addr => exact ⟨rfl, if_neg (hne rfl)⟩
  | clearStall addr => exact ⟨rfl, if_neg (hne rfl)⟩
  | close addr more => exact ⟨if_neg (hne rfl), if_neg (hne rfl)⟩

theorem UsbDcdCall.opens_of_touches {call : UsbDcdCall} (h : call.Touches ep) :
    call.opens ep = match (motive := UsbDcdCall → Option (Option UsbXferType)) call with
      | busReset | close _ _ => some none
      | open' _ xfer => some (some xfer)
      | stall _ | clearStall _ => none := by
  cases call with
  | busReset | stall addr | clearStall addr => rfl
  | open' addr xfer => exact if_pos (h _ rfl)
  | close addr more => exact if_pos (h _ rfl)

theorem UsbDcdCall.stalls_of_touches {call : UsbDcdCall} (h : call.Touches ep) :
    call.stalls ep = match (motive := UsbDcdCall → Option Bool) call with
      | busReset | clearStall _ | close _ _ => some false
      | stall _ => some true
      | open' _ _ => none := by
  cases call with
  | busReset | open' addr xfer => rfl
  | stall addr => exact if_pos (h _ rfl)
  | clearStall addr => exact if_pos (h _ rfl)
  | close addr more => exact if_pos (h _ rfl)

/-- The enable of an endpoint says whether it is open. -/
theorem UsbDcdCall.step_enable {opened : Option UsbXferType}
    (h : r.field ep .enable = if opened.isSome then 1 else 0) :
    (call.step r).field ep .enable =
      if ((call.opens ep).getD opened).isSome then 1 else 0 := by
  rw [field_step, h]
  by_cases htouches : call.Touches ep
  · rw [if_pos htouches, opens_of_touches htouches]
    cases call <;> cases opened <;>
      simp [effect, usbDcdOpenBits, usbDcdStallBits, usbDcdCloseBits]
  · rw [if_neg htouches, (says_nothing htouches).1]
    rfl

/-- The stall of an endpoint says whether it is stalled. -/
theorem UsbDcdCall.step_stall {stalled : Bool}
    (h : r.field ep .stall = if stalled then 1 else 0) :
    (call.step r).field ep .stall = if (call.stalls ep).getD stalled then 1 else 0 := by
  rw [field_step, h]
  by_cases htouches : call.Touches ep
  · rw [if_pos htouches, stalls_of_touches htouches]
    cases call <;> cases stalled <;>
      simp [effect, usbDcdOpenBits, usbDcdStallBits, usbDcdCloseBits]
  · rw [if_neg htouches, (says_nothing htouches).2]
    rfl

/-- The type of an endpoint that stays open, or is opened where the type in its register has no
bit of its own. -/
theorem UsbDcdCall.step_type {opened : Option UsbXferType} (hfits : call.Fits r)
    (h : ∀ xfer ∈ opened, r.field ep .type = xfer.code) :
    ∀ xfer ∈ (call.opens ep).getD opened, (call.step r).field ep .type = xfer.code := by
  rw [field_step]
  by_cases htouches : call.Touches ep
  · rw [if_pos htouches, opens_of_touches htouches]
    cases call with
    | busReset => exact fun _ hmem => absurd hmem (Option.not_mem_none _)
    | close addr more => exact fun _ hmem => absurd hmem (Option.not_mem_none _)
    | stall addr =>
      intro xfer hmem
      exact BitVec.or_zero.trans (h xfer hmem)
    | clearStall addr =>
      intro xfer hmem
      exact BitVec.and_allOnes.trans (h xfer hmem)
    | open' addr xfer =>
      intro xfer' hmem
      have hold : r.field ep .type &&& ~~~xfer.code = 0#32 := by
        rw [← htouches _ rfl]
        exact hfits
      rw [← Option.some.inj hmem]
      exact or_eq_right_iff.mpr hold
  · rw [if_neg htouches, (says_nothing htouches).1]
    exact h

/-- An open of an endpoint whose register has another bit in its type gives the wrong type. -/
theorem UsbDcdCall.fits_of_type {addr : UsbDcdAddr} {xfer : UsbXferType}
    (h : ((open' addr xfer).step r).field addr.ep .type = xfer.code) :
    (open' addr xfer).Fits r := by
  have htouches : (open' addr xfer).Touches addr.ep := (touches_iff rfl).mpr rfl
  rw [field_step, if_pos htouches] at h
  exact or_eq_right_iff.mp h

end Steps

/-! ## What is flushed -/

/-- What a call flushes. -/
def UsbDcdCall.flushes : UsbDcdCall → List (Option UsbDcdEp × BitVec 32)
  | busReset => [(none, 0xffffffff)]
  | close addr more => List.replicate (more + 1) (some addr.ep, usbDcdPrimebit addr.ep)
  | open' _ _ | stall _ | clearStall _ => []

/-- Flushes are only noted, so that they add up over a run. -/
theorem UsbDcdCall.flushes_step (r : UsbDcdRegs) (call : UsbDcdCall) :
    (call.step r).flushes = r.flushes ++ call.flushes := by
  cases call with
  | busReset | close addr more => rfl
  | open' addr xfer | stall addr | clearStall addr => exact (List.append_nil _).symm

/-- The bit that a close flushes is that of the endpoint for OUT endpoints only. -/
theorem usbDcdPrimebit_eq_iff (ep : UsbDcdEp) :
    usbDcdPrimebit ep = 1 <<< (ep.num.val + ep.shift) ↔ ep.dir = false := by
  have hall : ∀ (num : Fin usbSocDcdMaxEndpointCount) (dir : Bool),
      (1 <<< num.val + BitVec.ofNat 32 (if dir then 16 else 0) : BitVec 32) =
        1 <<< (num.val + if dir then 16 else 0) ↔ dir = false := by decide
  exact hall ep.num ep.dir

/-- A call flushes its own endpoint where it is not a close of an IN endpoint. -/
theorem UsbDcdCall.flushes_own {r : UsbDcdRegs} {call : UsbDcdCall} (hfits : call.Fits r)
    {ep : UsbDcdEp} {bits : BitVec 32} (hmem : (some ep, bits) ∈ call.flushes) :
    bits = 1 <<< (ep.num.val + ep.shift) := by
  cases call with
  | busReset => simp [flushes] at hmem
  | open' addr xfer => simp [flushes] at hmem
  | stall addr => simp [flushes] at hmem
  | clearStall addr => simp [flushes] at hmem
  | close addr more =>
    obtain ⟨hep, hbits⟩ := Prod.mk.inj (List.eq_of_mem_replicate hmem)
    rw [hbits, Option.some.inj hep]
    exact (usbDcdPrimebit_eq_iff addr.ep).mpr hfits

/-! ## Sequences of calls -/

theorem usbDcdRun_concat (calls : List UsbDcdCall) (call : UsbDcdCall) :
    usbDcdRun (calls ++ [call]) = call.step (usbDcdRun calls) := by
  unfold usbDcdRun
  rw [List.foldl_append, List.foldl_cons, List.foldl_nil]

/-- Behind a reset every field is 0. -/
theorem usbDcdHolds_nil : UsbDcdHolds [] where
  enabled _ := RegField.get_zero
  typed _ _ hmem := absurd hmem (Option.not_mem_none _)
  stalled _ := RegField.get_zero
  others before call _ heq := absurd heq.symm (by simp)
  flushed _ _ hmem := absurd hmem List.not_mem_nil

/-- Behind a sequence that does what is asked, the next call does it exactly if it fits. -/
theorem usbDcdHolds_concat_iff {calls : List UsbDcdCall} (h : UsbDcdHolds calls)
    (call : UsbDcdCall) : UsbDcdHolds (calls ++ [call]) ↔ call.Fits (usbDcdRun calls) := by
  constructor
  · intro h'
    cases call with
    | busReset | stall addr | clearStall addr => exact trivial
    | open' addr xfer =>
      have hopened : xfer ∈ usbDcdOpened addr.ep (calls ++ [.open' addr xfer]) := by
        unfold usbDcdOpened
        rw [lastSome_concat_getD,
          UsbDcdCall.opens_of_touches ((UsbDcdCall.touches_iff rfl).mpr rfl)]
        rfl
      have htype := h'.typed addr.ep xfer hopened
      rw [usbDcdRun_concat] at htype
      exact UsbDcdCall.fits_of_type htype
    | close addr more =>
      refine (usbDcdPrimebit_eq_iff addr.ep).mp (h'.flushed addr.ep _ ?_)
      rw [usbDcdRun_concat, UsbDcdCall.flushes_step]
      exact List.mem_append_right _ List.mem_cons_self
  · intro hfits
    constructor
    case enabled =>
      intro ep
      unfold usbDcdOpened
      rw [usbDcdRun_concat, lastSome_concat_getD]
      exact call.step_enable (h.enabled ep)
    case typed =>
      intro ep
      unfold usbDcdOpened
      rw [usbDcdRun_concat, lastSome_concat_getD]
      exact call.step_type hfits (h.typed ep)
    case stalled =>
      intro ep
      unfold usbDcdStalled
      rw [usbDcdRun_concat, lastSome_concat_getD]
      exact call.step_stall (h.stalled ep)
    case others =>
      intro before call' ep heq hep ep' f hne
      obtain ⟨hbefore, hcall⟩ := List.append_inj' heq rfl
      have hcall' := (List.cons.inj hcall).1
      rw [usbDcdRun_concat, ← hbefore, UsbDcdCall.field_step, hcall',
        if_neg (mt (UsbDcdCall.touches_iff hep).mp hne)]
    case flushed =>
      intro ep bits hmem
      rw [usbDcdRun_concat, UsbDcdCall.flushes_step] at hmem
      rcases List.mem_append.mp hmem with hold | hnew
      · exact h.flushed ep bits hold
      · exact UsbDcdCall.flushes_own hfits hnew

/-- The registers reflect the calls at every point of a sequence exactly if every open fits the
type that is in its register and every close is of an OUT endpoint.

A call writes the half of one register that belongs to its direction, and so changes no other
field.  The type is ored over the old one, so it is right where the old one has no further bit;
and the flush bit of a close is computed with an addition where a shift is meant, which gives the
right bit for OUT endpoints only.  Each step meets what is asked exactly under its condition, and
so does each prefix. -/
theorem usbDcdHolds_iff (calls : List UsbDcdCall) :
    (∀ calls', calls' <+: calls → UsbDcdHolds calls') ↔
      Along (fun r call => some (UsbDcdCall.step r call)) (fun r call => call.Fits r)
        UsbDcdRegs.init calls :=
  prefix_iff_along usbDcdHolds_nil (fun _ call h => usbDcdHolds_concat_iff h call) calls

/-- An isochronous endpoint that is opened behind a reset becomes an interrupt endpoint.  Through
`usb_device_edpt_open`, which refuses that type, a sequence still fails: the close of the IN
endpoint 0x81 flushes by the bits of `0x12`, the OUT endpoint 1 among them, and not by its own. -/
theorem usbDcdHolds_reset_open :
    ¬ UsbDcdHolds [.busReset, .open' ⟨0x81, by decide, by decide⟩ .isochronous] ∧
      ¬ UsbDcdHolds [.busReset, .open' ⟨0x81, by decide, by decide⟩ .bulk,
        .close ⟨0x81, by decide, by decide⟩ 0] := by
  refine ⟨fun h => ?_, fun h => ?_⟩
  · have htype := h.typed ⟨1, true, by decide⟩ .isochronous (by decide)
    exact absurd htype (by decide)
  · have hbits := h.flushed ⟨1, true, by decide⟩ 0x12 (by decide)
    exact absurd hbits (by decide)

end HpmSdk.Usb
