import HpmSdk.Usb.PlacedWords

set_option autoImplicit false

/-!
# USB host: interrupts and the controller lead to what they mean

The same for the interrupts: those about the asynchronous list map back, those about the periodic
lists need a place where the addresses do not differ, and the link that a queue goes on with needs
one as well.  The controller finds the descriptors by their system addresses.
-/

namespace HpmSdk.Usb

open HpmSdk.Foundation HpmSdk.Soc

namespace Placed

variable {P : UsbPlace} {m : UsbMem} {h : UsbHcd}

/-! ## Interrupts leave links and buffers of the descriptors alone -/

/-- The links and the buffers of the descriptors are the same. -/
def SameFilled (h h' : UsbHcd) : Prop :=
  ∀ t, (h'.qtd t).next = (h.qtd t).next ∧ (h'.qtd t).buffer = (h.qtd t).buffer

theorem SameFilled.refl (h : UsbHcd) : SameFilled h h := fun _ => ⟨rfl, rfl⟩

/-- What two stretches leave, both leave. -/
theorem SameFilled.trans {h' h'' : UsbHcd} (h₁ : SameFilled h h') (h₂ : SameFilled h' h'') :
    SameFilled h h'' :=
  fun t => ⟨(h₂ t).1.trans (h₁ t).1, (h₂ t).2.trans (h₁ t).2⟩

/-- A descriptor that keeps its link and its buffer is filled as before. -/
theorem sameFilled_setQtd {t : UsbQtdNode} {d : UsbQtd} (hnext : d.next = (h.qtd t).next)
    (hbuffer : d.buffer = (h.qtd t).buffer) : SameFilled h (h.setQtd t d) := by
  intro u
  by_cases hu : u = t
  · rw [hu, UsbHcd.setQtd_self]
    exact ⟨hnext, hbuffer⟩
  · rw [UsbHcd.setQtd_of_ne _ _ hu]
    exact ⟨rfl, rfl⟩

theorem usbHostCollect_filled (n : UsbNode) (t : UsbQtdNode) :
    SameFilled h (usbHostCollect h n t) :=
  sameFilled_setQtd (h := h.setQueue n _) rfl rfl

theorem usbHostQtdRemove1stFromQhd_filled {n : UsbNode} {h' : UsbHcd}
    (hr : Usb.usbHostQtdRemove1stFromQhd h n = some h') : SameFilled h h' := by
  unfold Usb.usbHostQtdRemove1stFromQhd at hr
  split at hr
  · cases hr
    exact SameFilled.refl _
  · obtain ⟨t, -, rfl⟩ := Option.map_eq_some_iff.mp hr
    exact SameFilled.refl _

theorem qhdXferCompleteLoop_filled {n : UsbNode} : ∀ (k : Nat) {h : UsbHcd}
    {r : UsbHcd × List UsbTrace}, Usb.qhdXferCompleteLoop k h n = some r → SameFilled h r.1
  | 0, _, _, hr => by cases hr
  | k + 1, h, r, hr => by
    rw [Usb.qhdXferCompleteLoop] at hr
    split at hr
    · cases hr
      exact SameFilled.refl _
    · next t _ =>
      split at hr
      · cases hr
        exact SameFilled.refl _
      · dsimp only at hr
        obtain ⟨h₁, hremove, hr⟩ := Option.bind_eq_some_iff.mp hr
        have hfirst : SameFilled h h₁ :=
          (usbHostCollect_filled n t).trans (usbHostQtdRemove1stFromQhd_filled hremove)
        split at hr
        · obtain ⟨r', hr', rfl⟩ := Option.map_eq_some_iff.mp hr
          have hrest := qhdXferCompleteLoop_filled k hr'
          exact hfirst.trans hrest
        · obtain ⟨r', hr', rfl⟩ := Option.map_eq_some_iff.mp hr
          have hrest := qhdXferCompleteLoop_filled k hr'
          exact hfirst.trans hrest

theorem qhdXferCompleteUnlessHalted_filled {n : UsbNode} {r : UsbHcd × List UsbTrace}
    (hr : Usb.qhdXferCompleteUnlessHalted h n = some r) : SameFilled h r.1 := by
  unfold Usb.qhdXferCompleteUnlessHalted at hr
  split at hr
  · cases hr
    exact SameFilled.refl _
  · exact qhdXferCompleteLoop_filled _ hr

theorem usbHostClearControl_filled {n : UsbNode} {h' : UsbHcd}
    (hr : Usb.usbHostClearControl h n = some h') : SameFilled h h' := by
  obtain ⟨setup, -, rfl⟩ := Option.map_eq_some_iff.mp hr
  exact sameFilled_setQtd (h := h.setQueue n _) rfl rfl

theorem qhdXferErrorIsr_filled {n : UsbNode} {r : UsbHcd × List UsbTrace}
    (hr : Usb.qhdXferErrorIsr h n = some r) : SameFilled h r.1 := by
  unfold Usb.qhdXferErrorIsr at hr
  split at hr
  · obtain ⟨t, -, hr⟩ := Option.bind_eq_some_iff.mp hr
    obtain ⟨h₁, hremove, hr⟩ := Option.bind_eq_some_iff.mp hr
    obtain ⟨h₂, hclear, rfl⟩ := Option.map_eq_some_iff.mp hr
    have hfirst : SameFilled h h₁ :=
      (usbHostCollect_filled n t).trans (usbHostQtdRemove1stFromQhd_filled hremove)
    split at hclear
    · have hrest := usbHostClearControl_filled hclear
      exact hfirst.trans hrest
    · cases hclear
      exact hfirst
  · cases hr
    exact SameFilled.refl _

section Loops

variable {isr : UsbHcd → UsbNode → Option (UsbHcd × List UsbTrace)}
  (hisr : ∀ h n r, isr h n = some r → SameFilled h r.1)
include hisr

theorem usbAsyncLoop_filled : ∀ (k : Nat) {h : UsbHcd} {n : UsbNode}
    {r : UsbHcd × List UsbTrace}, Usb.usbAsyncLoop isr k h n = some r → SameFilled h r.1
  | 0, _, _, _, hr => by cases hr
  | k + 1, h, n, r, hr => by
    rw [Usb.usbAsyncLoop] at hr
    obtain ⟨r₁, h₁, hr⟩ := Option.bind_eq_some_iff.mp hr
    split at hr
    · cases hr
    · split at hr
      · cases hr
        exact hisr _ _ _ h₁
      · obtain ⟨r', hr', rfl⟩ := Option.map_eq_some_iff.mp hr
        have hrest := usbAsyncLoop_filled k hr'
        exact (hisr _ _ _ h₁).trans hrest

theorem usbPeriodLoop_filled {limit : UsbHcd → Option (UsbHcd × List UsbTrace)}
    (hlimit : ∀ h r, limit h = some r → SameFilled h r.1) {i : Fin usbHcdPeriodicArrCount} :
    ∀ (k : Nat) {h : UsbHcd} {item : UsbLink} {r : UsbHcd × List UsbTrace},
      Usb.usbPeriodLoop isr limit i k h item = some r → SameFilled h r.1
  | 0, h, _, r, hr => hlimit h r hr
  | k + 1, h, item, r, hr => by
    rw [Usb.usbPeriodLoop] at hr
    split at hr
    · cases hr
      exact SameFilled.refl _
    · obtain ⟨n, -, hr⟩ := Option.bind_eq_some_iff.mp hr
      obtain ⟨r₁, h₁, hr⟩ := Option.bind_eq_some_iff.mp hr
      obtain ⟨r', hr', rfl⟩ := Option.map_eq_some_iff.mp hr
      have hrest := usbPeriodLoop_filled hlimit k hr'
      exact (hisr _ _ _ h₁).trans hrest

end Loops

/-- An interrupt fills no descriptor. -/
theorem usbCompletionIsr_filled {cfg : TusbConfig} {c : UsbList} {r : UsbHcd × List UsbTrace}
    (hr : Usb.usbCompletionIsr cfg h c = some r) : SameFilled h r.1 := by
  have hisr : ∀ (h : UsbHcd) (n : UsbNode) (r : UsbHcd × List UsbTrace),
      Usb.qhdXferCompleteUnlessHalted h n = some r → SameFilled h r.1 :=
    fun _ _ _ => qhdXferCompleteUnlessHalted_filled
  cases c with
  | async => exact usbAsyncLoop_filled hisr _ hr
  | period i =>
    refine usbPeriodLoop_filled hisr (fun h r hlimit => ?_) _ hr
    cases hlimit
    exact SameFilled.refl _

/-- Neither does an interrupt for an error. -/
theorem xferErrorIsr_filled {r : UsbHcd × List UsbTrace} (hr : Usb.xferErrorIsr h = some r) :
    SameFilled h r.1 := by
  have hisr : ∀ (h : UsbHcd) (n : UsbNode) (r : UsbHcd × List UsbTrace),
      Usb.qhdXferErrorIsr h n = some r → SameFilled h r.1 := fun _ _ _ => qhdXferErrorIsr_filled
  obtain ⟨r₁, h₁, hr⟩ := Option.bind_eq_some_iff.mp hr
  rw [foldlM_eq_run] at hr
  refine run_invariant (P := fun r : UsbHcd × List UsbTrace => SameFilled h r.1)
    (fun s i s' hs hstep => ?_) _ _ _ (usbAsyncLoop_filled hisr _ h₁) hr
  obtain ⟨r₂, h₂, rfl⟩ := Option.map_eq_some_iff.mp hstep
  have hrest := usbPeriodLoop_filled hisr (fun _ _ hlimit => by cases hlimit) _ h₂
  exact hs.trans hrest

/-! ## Interrupts -/

/-- No descriptor is linked to another one. -/
def Unchained (h : UsbHcd) : Prop := ∀ t, (h.qtd t).next.address = none

/-- Descriptors that are not chained stay so. -/
theorem Unchained.of_filled {h' : UsbHcd} (hchain : Unchained h) (hsame : SameFilled h h') :
    Unchained h' := by
  intro t
  rw [(hsame t).1]
  exact hchain t

/-- A next link that is taken for a pointer as it is leads the driver there where the addresses
agree, and where there is none. -/
theorem usbHostQtdRemove1stFromQhd_put {n : UsbNode} {h' : UsbHcd}
    (hchain : P.InDlm → Unchained h) (hr : Usb.usbHostQtdRemove1stFromQhd h n = some h') :
    usbHostQtdRemove1stFromQhd P (m.put P h) n = some (m.put P h') := by
  have hone : (m.put P h).words.listHead n = (m.put P h).words.listTail n ↔
      (h.queue n).listHead = (h.queue n).listTail := UsbPlace.pointer_inj
  unfold Usb.usbHostQtdRemove1stFromQhd at hr
  unfold usbHostQtdRemove1stFromQhd
  simp only [hone]
  have hwords : ∀ head tail, P.words (h.setQueue n
      { h.queue n with listHead := head, listTail := tail }) =
      (P.words h).setQueue n (P.pointer head) (P.pointer tail) :=
    fun _ _ => UsbPlace.words_setQueue_lists h rfl
  split at hr
  · next hlast =>
    cases hr
    rw [if_pos hlast, UsbMem.put_of_words (hwords none none)]
    rfl
  · next hmore =>
    obtain ⟨t, ht, rfl⟩ := Option.map_eq_some_iff.mp hr
    have hnext : usbHostAlign32 (P.qtdLink (h.qtd t).next) = P.pointer (h.qtd t).next.address := by
      cases hu : (h.qtd t).next.address with
      | none => exact UsbPlace.align32_qtdLink_none hu
      | some u =>
        have hsys : ¬ P.InDlm := fun hlocal => by
          rw [hchain hlocal t] at hu
          cases hu
        rw [UsbPlace.align32_qtdLink hu]
        exact UsbPlace.sys_eq_self hsys u.offset_lt.1
    rw [if_neg hmore, UsbMem.qtdAt_listHead ht, Option.map_some,
      UsbMem.put_of_words (hwords (h.qtd t).next.address _), ← hnext]
    rfl

theorem usbHostCollect_put (n : UsbNode) (t : UsbQtdNode) :
    { m.put P h with hcd := usbHostCollect h n t } = m.put P (usbHostCollect h n t) := by
  have hwords : P.words (usbHostCollect h n t) = P.words h := by
    unfold usbHostCollect
    dsimp only
    rw [UsbPlace.words_setQtd_same, UsbPlace.words_setQueue_same]
    all_goals rfl
  rw [UsbMem.put_of_words hwords]
  rfl

theorem usbHostClearTotal_put (n : UsbNode) :
    { m.put P h with hcd := usbHostClearTotal h n } = m.put P (usbHostClearTotal h n) := by
  have hwords : P.words (usbHostClearTotal h n) = P.words h :=
    UsbPlace.words_setQueue_same h rfl rfl rfl
  rw [UsbMem.put_of_words hwords]
  rfl

/-- The words behind the loop are those of the objects behind it. -/
theorem qhdXferCompleteLoop_put {n : UsbNode} : ∀ (k : Nat) {h : UsbHcd}
    {r : UsbHcd × List UsbTrace}, (P.InDlm → Unchained h) →
    Usb.qhdXferCompleteLoop k h n = some r →
    qhdXferCompleteLoop P k (m.put P h) n = some (m.put P r.1, r.2)
  | 0, _, _, _, hr => by cases hr
  | k + 1, h, r, hchain, hr => by
    rw [Usb.qhdXferCompleteLoop] at hr
    rw [qhdXferCompleteLoop]
    cases ht : (h.queue n).listHead with
    | none =>
      have hpointer : (m.put P h).words.listHead n = 0 := congrArg P.pointer ht
      rw [ht] at hr
      cases hr
      rw [if_pos hpointer]
    | some t =>
      have hpointer : (m.put P h).words.listHead n = P.qtd t := congrArg P.pointer ht
      rw [ht] at hr
      dsimp only at hr
      rw [hpointer, if_neg (UsbPlace.qtd_ne_zero t), UsbPlace.qtdAt_qtd, Option.bind_some]
      rw [UsbMem.put_hcd]
      split at hr
      · next hactive =>
        cases hr
        rw [if_pos hactive]
      · next hactive =>
        rw [if_neg hactive]
        dsimp only
        obtain ⟨h₁, hremove, hr⟩ := Option.bind_eq_some_iff.mp hr
        have hcollect := usbHostCollect_filled (h := h) n t
        have hchain₁ : P.InDlm → Unchained h₁ := fun hlocal =>
          (hchain hlocal).of_filled
            (hcollect.trans (usbHostQtdRemove1stFromQhd_filled hremove))
        rw [usbHostCollect_put, usbHostQtdRemove1stFromQhd_put
          (fun hlocal => (hchain hlocal).of_filled hcollect) hremove, Option.bind_some]
        split at hr
        · next hioc =>
          obtain ⟨r', hr', rfl⟩ := Option.map_eq_some_iff.mp hr
          rw [if_pos hioc, UsbMem.put_hcd, usbHostClearTotal_put,
            qhdXferCompleteLoop_put k (h := usbHostClearTotal h₁ n) hchain₁ hr', Option.map_some]
        · next hioc =>
          obtain ⟨r', hr', rfl⟩ := Option.map_eq_some_iff.mp hr
          rw [if_neg hioc, qhdXferCompleteLoop_put k hchain₁ hr', Option.map_some]

theorem qhdXferCompleteUnlessHalted_put {n : UsbNode} {r : UsbHcd × List UsbTrace}
    (hchain : P.InDlm → Unchained h) (hr : Usb.qhdXferCompleteUnlessHalted h n = some r) :
    qhdXferCompleteUnlessHalted P (m.put P h) n = some (m.put P r.1, r.2) := by
  unfold Usb.qhdXferCompleteUnlessHalted at hr
  unfold qhdXferCompleteUnlessHalted
  rw [UsbMem.put_hcd]
  split at hr
  · next hhalted =>
    cases hr
    rw [if_pos hhalted]
  · next hhalted =>
    rw [if_neg hhalted]
    exact qhdXferCompleteLoop_put _ hchain hr

theorem usbHostClearControl_put {n : UsbNode} {h' : UsbHcd}
    (hr : Usb.usbHostClearControl h n = some h') :
    usbHostClearControl (m.put P h) n = some (m.put P h') := by
  have hwords : P.words h' =
      ((P.words h).setQueue n 0 0).setOverlay n ((P.words h).overlayNext n ||| 1) := by
    obtain ⟨setup, -, rfl⟩ := Option.map_eq_some_iff.mp hr
    rw [UsbPlace.words_setQtd_same, UsbPlace.words_setQueue]
    · dsimp only
      rw [UsbPlace.qtdLink_terminated]
      rfl
    · rfl
  unfold usbHostClearControl
  rw [UsbMem.put_hcd, hr, Option.map_some]
  rw [UsbMem.put_of_words hwords]
  rfl

theorem qhdXferErrorIsr_put {n : UsbNode} {r : UsbHcd × List UsbTrace}
    (hchain : P.InDlm → Unchained h) (hr : Usb.qhdXferErrorIsr h n = some r) :
    qhdXferErrorIsr P (m.put P h) n = some (m.put P r.1, r.2) := by
  unfold Usb.qhdXferErrorIsr at hr
  unfold qhdXferErrorIsr
  rw [UsbMem.put_hcd]
  split at hr
  · next hreports =>
    obtain ⟨t, ht, hr⟩ := Option.bind_eq_some_iff.mp hr
    obtain ⟨h₁, hremove, hr⟩ := Option.bind_eq_some_iff.mp hr
    obtain ⟨h₂, hclear, rfl⟩ := Option.map_eq_some_iff.mp hr
    have hcollect := usbHostCollect_filled (h := h) n t
    rw [if_pos hreports, UsbMem.qtdAt_listHead ht]
    dsimp only
    rw [Option.bind_some, usbHostCollect_put, usbHostQtdRemove1stFromQhd_put
      (fun hlocal => (hchain hlocal).of_filled hcollect) hremove, Option.bind_some]
    rw [UsbMem.put_hcd]
    split at hclear
    · next hcontrol =>
      rw [if_pos hcontrol, usbHostClearControl_put hclear, Option.map_some]
      exact congrArg (fun m => some (m, _)) (usbHostClearTotal_put n)
    · next hcontrol =>
      cases hclear
      rw [if_neg hcontrol, Option.map_some]
      exact congrArg (fun m => some (m, _)) (usbHostClearTotal_put n)
  · next hreports =>
    cases hr
    rw [if_neg hreports]

/-! ## Going through the lists -/

section Loops

variable {isr : UsbHcd → UsbNode → Option (UsbHcd × List UsbTrace)}
  {isr' : UsbMem → UsbNode → Option (UsbMem × List UsbTrace)}
  (hisr : ∀ h n r, (P.InDlm → Unchained h) → isr h n = some r →
    isr' (m.put P h) n = some (m.put P r.1, r.2))
include hisr

/-- Going through the asynchronous list maps every link back. -/
theorem usbAsyncLoop_put (hfilled : ∀ h n r, isr h n = some r → SameFilled h r.1)
    (hback : P.MapsBack) : ∀ (k : Nat) {h : UsbHcd} {n : UsbNode}
    {r : UsbHcd × List UsbTrace}, (P.InDlm → Unchained h) → Usb.usbAsyncLoop isr k h n = some r →
    usbAsyncLoop P isr' k (m.put P h) (P.node n) = some (m.put P r.1, r.2)
  | 0, _, _, _, _, hr => by cases hr
  | k + 1, h, n, r, hchain, hr => by
    rw [Usb.usbAsyncLoop] at hr
    obtain ⟨r₁, h₁, hr⟩ := Option.bind_eq_some_iff.mp hr
    rw [usbAsyncLoop, UsbPlace.nodeAt_node, Option.bind_some, hisr h n r₁ hchain h₁,
      Option.bind_some]
    dsimp only
    split at hr
    · cases hr
    · next next hnext =>
      have hpointer : P.back (usbHostAlign32 ((m.put P r₁.1).words.next n)) = P.node next :=
        back_link hback hnext
      rw [hpointer]
      split at hr
      · next hend =>
        cases hr
        rw [if_pos (congrArg P.node hend)]
      · next hend =>
        obtain ⟨r', hr', rfl⟩ := Option.map_eq_some_iff.mp hr
        rw [if_neg (mt UsbPlace.node_inj hend), usbAsyncLoop_put hfilled hback k
          (fun hlocal => (hchain hlocal).of_filled (hfilled _ _ _ h₁)) hr', Option.map_some]

/-- Where the addresses agree the periodic lists are followed, whether the pointer to the next
link is mapped back or not. -/
theorem usbPeriodLoop_put {limit : UsbHcd → Option (UsbHcd × List UsbTrace)}
    {limit' : UsbMem → Option (UsbMem × List UsbTrace)} {follow : BitVec 32 → BitVec 32}
    (hlimit : ∀ h r, limit h = some r → limit' (m.put P h) = some (m.put P r.1, r.2))
    (hsys : ¬ P.InDlm) (hfollow : ∀ n, follow (P.node n) = P.node n)
    {i : Fin usbHcdPeriodicArrCount} : ∀ (k : Nat) {h : UsbHcd} {item : UsbLink}
    {r : UsbHcd × List UsbTrace}, Usb.usbPeriodLoop isr limit i k h item = some r →
    usbPeriodLoop P isr' limit' follow i k (m.put P h) (P.link item) = some (m.put P r.1, r.2)
  | 0, h, _, r, hr => hlimit h r hr
  | k + 1, h, item, r, hr => by
    rw [Usb.usbPeriodLoop] at hr
    rw [usbPeriodLoop, UsbPlace.terminates_link]
    split at hr
    · next hend =>
      cases hr
      refine if_pos (hend.imp_right fun h => ⟨h.1, ?_⟩)
      rw [UsbPlace.align32_link h.2]
      exact (UsbPlace.sys_eq_self hsys (UsbNode.offset_lt _).1).symm
    · next hend =>
      obtain ⟨n, hn, hr⟩ := Option.bind_eq_some_iff.mp hr
      obtain ⟨r₁, h₁, hr⟩ := Option.bind_eq_some_iff.mp hr
      obtain ⟨r', hr', rfl⟩ := Option.map_eq_some_iff.mp hr
      have hpointer : usbHostAlign32 (P.link item) = P.node n :=
        (UsbPlace.align32_link hn).trans (UsbPlace.sys_eq_self hsys n.offset_lt.1)
      have hnot : ¬ (item.terminate = true ∨
          (i ≠ usbPeriod1ms ∧ P.node (.period usbPeriod1ms) = P.node n)) := by
        rintro (hterm | ⟨hi, heq⟩)
        · exact hend (Or.inl hterm)
        · exact hend (Or.inr ⟨hi, hn.trans (congrArg some (UsbPlace.node_inj heq).symm)⟩)
      rw [hpointer, if_neg hnot, UsbPlace.nodeAt_node, Option.bind_some,
        hisr h n r₁ (fun hlocal => absurd hlocal hsys) h₁, Option.bind_some, hfollow,
        UsbPlace.nodeAt_node, Option.bind_some]
      have hrest := usbPeriodLoop_put hlimit hsys hfollow k hr'
      exact congrArg (Option.map _) hrest

end Loops

/-- The interrupt about the asynchronous list, on words. -/
theorem asyncListXferCompleteIsr_put {r : UsbHcd × List UsbTrace} (hback : P.MapsBack)
    (hchain : P.InDlm → Unchained h) (hr : Usb.asyncListXferCompleteIsr h = some r) :
    asyncListXferCompleteIsr P (m.put P h) = some (m.put P r.1, r.2) :=
  usbAsyncLoop_put (fun _ _ _ => qhdXferCompleteUnlessHalted_put)
    (fun _ _ _ => qhdXferCompleteUnlessHalted_filled) hback _ hchain hr

/-- A terminated list is left at once, wherever it lies. -/
theorem periodListXferCompleteIsr_put {cfg : TusbConfig} {i : Fin usbHcdPeriodicArrCount}
    {r : UsbHcd × List UsbTrace}
    (hplace : P.InDlm → (h.host.qhd (.period i)).next.terminate = true)
    (hr : Usb.periodListXferCompleteIsr cfg h i = some r) :
    periodListXferCompleteIsr P cfg (m.put P h) i = some (m.put P r.1, r.2) := by
  by_cases hlocal : P.InDlm
  · have hterm := hplace hlocal
    have hterm' : usbLinkTerminates ((m.put P h).words.next (.period i)) = true :=
      (UsbPlace.terminates_link _).trans hterm
    unfold Usb.periodListXferCompleteIsr at hr
    unfold periodListXferCompleteIsr
    cases hk : cfg.maxLoop with
    | zero =>
      rw [hk] at hr
      cases hr
      rfl
    | succ k =>
      rw [hk, Usb.usbPeriodLoop, if_pos (Or.inl hterm)] at hr
      cases hr
      rw [usbPeriodLoop, if_pos (Or.inl hterm')]
  · have hlimit : ∀ (h : UsbHcd) (r : UsbHcd × List UsbTrace), some (h, []) = some r →
        some (m.put P h, []) = some (m.put P r.1, r.2) := by
      rintro h _ ⟨rfl⟩
      rfl
    exact usbPeriodLoop_put (fun _ _ _ => qhdXferCompleteUnlessHalted_put) hlimit hlocal
      (fun _ => rfl) _ hr

/-- The interrupt for errors, on words: on core 0 and where the addresses do not differ. -/
theorem xferErrorIsr_put {r : UsbHcd × List UsbTrace} (hcore : P.core = .core0)
    (hsys : ¬ P.InDlm) (hr : Usb.xferErrorIsr h = some r) :
    xferErrorIsr P (m.put P h) = some (m.put P r.1, r.2) := by
  have hback : P.MapsBack := Or.inr hcore
  have hfollow : ∀ n, P.back (P.node n) = P.node n := fun n => by
    have hround := UsbPlace.back_sys hback n.offset_lt.1
    rw [UsbPlace.sys_eq_self hsys n.offset_lt.1] at hround
    exact hround
  obtain ⟨r₁, h₁, hr⟩ := Option.bind_eq_some_iff.mp hr
  unfold xferErrorIsr
  rw [usbAsyncLoop_put (fun _ _ _ => qhdXferErrorIsr_put) (fun _ _ _ => qhdXferErrorIsr_filled)
    hback _ (fun hlocal => absurd hlocal hsys) h₁, Option.bind_some]
  rw [foldlM_eq_run] at hr ⊢
  refine run_map (φ := fun r : UsbHcd × List UsbTrace => (m.put P r.1, r.2))
    (fun r i r' hr => ?_) _ _ _ hr
  obtain ⟨r₂, h₂, rfl⟩ := Option.map_eq_some_iff.mp hr
  have hlist : periodListXferErrorIsr P (m.put P r.1) i = some (m.put P r₂.1, r₂.2) :=
    usbPeriodLoop_put (fun _ _ _ => qhdXferErrorIsr_put) (fun _ _ hr => by cases hr) hsys hfollow
      _ h₂
  rw [hlist, Option.map_some]

/-! ## The controller -/

/-- The controller comes to the descriptors that are meant. -/
theorem usbFirstActive_put : ∀ (k : Nat) {t u : UsbQtdNode},
    Usb.usbFirstActive h k (some t) = some u →
    usbFirstActive P (m.put P h) k (P.sys (P.qtd t)) = some u
  | 0, _, _, hr => by cases hr
  | k + 1, t, u, hr => by
    rw [Usb.usbFirstActive] at hr
    rw [usbFirstActive, UsbPlace.qtdAtSys_sys, Option.bind_some]
    rw [UsbMem.put_hcd]
    split at hr
    · next hactive =>
      cases hr
      rw [if_pos hactive]
    · next hactive =>
      rw [if_neg hactive]
      cases hnext : (h.qtd t).next.address with
      | none =>
        rw [hnext] at hr
        cases k <;> cases hr
      | some next =>
        rw [hnext] at hr
        have haddress : usbHostAlign32 ((m.put P h).words.qtdNext t) = P.sys (P.qtd next) :=
          UsbPlace.align32_qtdLink hnext
        rw [haddress]
        exact usbFirstActive_put k hr

/-- The controller, on words. -/
theorem usbHcComplete_put {n : UsbNode} {left : BitVec 15} {how : UsbEnd}
    {r : UsbQtdNode × UsbHcd} (hr : Usb.usbHcComplete h n left how = some r) :
    usbHcComplete P (m.put P h) n left how = some (m.put P r.2) ∧ SameFilled h r.2 := by
  unfold Usb.usbHcComplete at hr
  unfold usbHcComplete
  rw [UsbMem.put_hcd]
  split at hr
  · cases hr
  · next hhalted =>
    rw [if_neg hhalted]
    obtain ⟨t, ht, hr⟩ := Option.bind_eq_some_iff.mp hr
    split at hr
    · cases hr
    · next hleft =>
      cases hr
      have hfilled : SameFilled h (h.setQtd t ((h.qtd t).ended left how)) :=
        sameFilled_setQtd rfl rfl
      refine ⟨?_, hfilled⟩
      cases hhead : (h.queue n).listHead with
      | none =>
        rw [hhead] at ht
        cases ht
      | some first =>
        rw [hhead] at ht
        have haddress : (m.put P h).words.listHead n = P.qtd first := congrArg P.pointer hhead
        rw [haddress, usbFirstActive_put _ ht, Option.bind_some, if_neg hleft]
        have hwords : P.words ((h.setQtd t ((h.qtd t).ended left how)).setQueue n
            { h.queue n with overlay := (h.qtd t).ended left how }) =
            (P.words h).setOverlay n ((P.words h).qtdNext t) := by
          rw [UsbPlace.words_setQueue, UsbPlace.words_setQtd_same]
          · exact ((P.words h).setOverlay n _).setQueue_self n
          · rfl
        rw [UsbMem.put_of_words hwords]
        rfl

/-! ## Calls that change no address -/

/-- The async advance changes no link. -/
theorem words_asyncAdvance {cfg : TusbConfig} {host : UsbHost}
    (hr : asyncAdvanceIsrFor cfg h.host = some host) :
    P.words { h with host := host } = P.words h := by
  unfold asyncAdvanceIsrFor at hr
  rw [foldlM_eq_run] at hr
  refine run_invariant (P := fun host => P.words { h with host := host } = P.words h)
    (fun host i host' hhost hstep => ?_) _ _ _ rfl hr
  split at hstep
  · cases hstep
    unfold UsbHost.freeRemoved
    split
    · refine Eq.trans ?_ hhost
      exact UsbPlace.words_setQhd_same { h with host := host } rfl
    · exact hhost
  · cases hstep

/-- Clearing a stall changes no link. -/
theorem words_clearStall {devAddr epAddr : BitVec 8} {r : Bool × UsbHcd}
    (hr : usbHostEdptClearStall h devAddr epAddr = some r) : P.words r.2 = P.words h := by
  obtain ⟨n, -, rfl⟩ := Option.map_eq_some_iff.mp hr
  exact UsbPlace.words_setQueue_same h rfl rfl rfl

end Placed

end HpmSdk.Usb
