import HpmSdk.Usb.Placed
import HpmSdk.Foundation.Run

set_option autoImplicit false

/-!
# USB host: lists and transfers lead to what they mean

On words that lead to what the links mean, the functions of the driver do what they do to the
objects, and leave such words again: for the lists where system addresses are mapped back, and for
a second descriptor of a queue where the addresses do not differ.

Each function has one lemma, which puts the words of the objects behind it in the place of the words
before.
-/

namespace HpmSdk.Usb

open HpmSdk.Foundation HpmSdk.Soc

/-! ## Words of a state -/

namespace UsbWords

variable (w : UsbWords) (n : UsbNode) (t : UsbQtdNode)

@[simp] theorem setNext_self : w.setNext n (w.next n) = w := by
  unfold setNext
  rw [Function.update_eq_self]

@[simp] theorem setOverlay_self : w.setOverlay n (w.overlayNext n) = w := by
  unfold setOverlay
  rw [Function.update_eq_self]

@[simp] theorem setQueue_self : w.setQueue n (w.listHead n) (w.listTail n) = w := by
  unfold setQueue
  rw [Function.update_eq_self, Function.update_eq_self]

theorem setOverlay_again (v v' : BitVec 32) :
    (w.setOverlay n v).setOverlay n v' = w.setOverlay n v' := by
  unfold setOverlay
  dsimp only
  rw [Function.update_idem]

theorem setQueue_again (head tail head' tail' : BitVec 32) :
    (w.setQueue n head tail).setQueue n head' tail' = w.setQueue n head' tail' := by
  unfold setQueue
  dsimp only
  rw [Function.update_idem, Function.update_idem]

theorem setQueue_setOverlay (head tail v : BitVec 32) :
    (w.setQueue n head tail).setOverlay n v = (w.setOverlay n v).setQueue n head tail := rfl

@[simp] theorem setQtdNext_self : w.setQtdNext t (w.qtdNext t) = w := by
  unfold setQtdNext
  rw [Function.update_eq_self]

end UsbWords

namespace UsbPlace

variable {P : UsbPlace} (h : UsbHcd)

theorem words_setQhd (n : UsbNode) (q : UsbQhd) :
    P.words { h with host := h.host.setQhd n q } = (P.words h).setNext n (P.link q.next) := by
  have hnext : (fun k => P.link ((h.host.setQhd n q).qhd k).next) =
      Function.update (P.words h).next n (P.link q.next) := by
    funext k
    by_cases hk : k = n
    · rw [hk, UsbHost.setQhd_self, Function.update_self]
    · rw [UsbHost.setQhd_of_ne _ _ hk, Function.update_of_ne hk]
      rfl
  unfold UsbWords.setNext
  rw [← hnext]
  rfl

theorem words_setNext (n : UsbNode) (l : UsbLink) :
    P.words { h with host := h.host.setNext n l } = (P.words h).setNext n (P.link l) :=
  words_setQhd h n _

/-- Setting a queue writes its three words. -/
theorem words_setQueue (n : UsbNode) (q : UsbQueue) : P.words (h.setQueue n q) =
    ((P.words h).setOverlay n (P.qtdLink q.overlay.next)).setQueue n (P.pointer q.listHead)
      (P.pointer q.listTail) := by
  have hupdate : ∀ f : UsbQueue → BitVec 32, (fun k => f ((h.setQueue n q).queue k)) =
      Function.update (fun k => f (h.queue k)) n (f q) := by
    intro f
    funext k
    by_cases hk : k = n
    · rw [hk, UsbHcd.setQueue_self, Function.update_self]
    · rw [UsbHcd.setQueue_of_ne _ _ hk, Function.update_of_ne hk]
  have hoverlay := hupdate fun q => P.qtdLink q.overlay.next
  have hhead := hupdate fun q => P.pointer q.listHead
  have htail := hupdate fun q => P.pointer q.listTail
  unfold words UsbWords.setOverlay UsbWords.setQueue
  rw [hoverlay, hhead, htail]
  rfl

theorem words_setQtd (t : UsbQtdNode) (d : UsbQtd) :
    P.words (h.setQtd t d) = (P.words h).setQtdNext t (P.qtdLink d.next) := by
  have hnext : (fun k => P.qtdLink ((h.setQtd t d).qtd k).next) =
      Function.update (P.words h).qtdNext t (P.qtdLink d.next) := by
    funext k
    by_cases hk : k = t
    · rw [hk, UsbHcd.setQtd_self, Function.update_self]
    · rw [UsbHcd.setQtd_of_ne _ _ hk, Function.update_of_ne hk]
      rfl
  unfold UsbWords.setQtdNext
  rw [← hnext]
  rfl

/-- A queue whose overlay stays changes its two pointers. -/
theorem words_setQueue_lists {n : UsbNode} {q : UsbQueue}
    (hoverlay : q.overlay.next = (h.queue n).overlay.next) : P.words (h.setQueue n q) =
      (P.words h).setQueue n (P.pointer q.listHead) (P.pointer q.listTail) := by
  rw [words_setQueue, hoverlay]
  exact congrArg (fun w : UsbWords => w.setQueue n _ _) ((P.words h).setOverlay_self n)

/-- A queue whose links stay leaves the words alone. -/
theorem words_setQueue_same {n : UsbNode} {q : UsbQueue}
    (hoverlay : q.overlay.next = (h.queue n).overlay.next)
    (hhead : q.listHead = (h.queue n).listHead) (htail : q.listTail = (h.queue n).listTail) :
    P.words (h.setQueue n q) = P.words h := by
  rw [words_setQueue_lists h hoverlay, hhead, htail]
  exact (P.words h).setQueue_self n

/-- A descriptor that keeps its link keeps its word. -/
theorem words_setQtd_same {t : UsbQtdNode} {d : UsbQtd} (hnext : d.next = (h.qtd t).next) :
    P.words (h.setQtd t d) = P.words h := by
  rw [words_setQtd, hnext]
  exact (P.words h).setQtdNext_self t

/-- A queue head that keeps its link keeps its word. -/
theorem words_setQhd_same {n : UsbNode} {q : UsbQhd} (hnext : q.next = (h.host.qhd n).next) :
    P.words { h with host := h.host.setQhd n q } = P.words h := by
  rw [words_setQhd, hnext]
  exact (P.words h).setNext_self n

end UsbPlace

/-- The memory with other objects, and the words that lead to them. -/
def UsbMem.put (P : UsbPlace) (m : UsbMem) (h : UsbHcd) : UsbMem :=
  { m with hcd := h, words := P.words h }

section Put

variable {P : UsbPlace} {m : UsbMem} {h : UsbHcd} {n : UsbNode} {t : UsbQtdNode}

@[simp] theorem UsbMem.put_hcd : (m.put P h).hcd = h := rfl

theorem UsbMem.put_of_words {w : UsbWords} (hwords : P.words h = w) :
    m.put P h = { m with hcd := h, words := w } := by
  unfold put
  rw [hwords]

/-- The driver comes to the first descriptor of a queue. -/
theorem UsbMem.qtdAt_listHead (ht : (h.queue n).listHead = some t) :
    P.qtdAt ((m.put P h).words.listHead n) = some t :=
  (congrArg (fun u => P.qtdAt (P.pointer u)) ht).trans (UsbPlace.qtdAt_qtd t)

/-- And to the last one. -/
theorem UsbMem.qtdAt_listTail (ht : (h.queue n).listTail = some t) :
    P.qtdAt ((m.put P h).words.listTail n) = some t :=
  (congrArg (fun u => P.qtdAt (P.pointer u)) ht).trans (UsbPlace.qtdAt_qtd t)

end Put

/-- A descriptor is filled for a buffer. -/
def UsbMem.give (m : UsbMem) (t : UsbQtdNode) (given : BitVec 32) (length : BitVec 16) : UsbMem :=
  { m with given := Function.update m.given t (given, length) }

/-- The buffers of the descriptors behind a call that fills one, or refuses. -/
def UsbMem.gives (m : UsbMem) (ok : Bool) (target : Option (UsbNode × UsbQtdNode))
    (given : BitVec 32) (length : BitVec 16) : UsbMem :=
  match ok, target with
  | true, some p => m.give p.2 given length
  | _, _ => m

namespace Placed

variable {P : UsbPlace} {m : UsbMem} {h : UsbHcd}

/-! ## Lists -/

/-- Inserting into a list, on words. -/
theorem usbHostListInsert_put (current new : UsbNode) :
    usbHostListInsert P (m.put P h) current new =
      m.put P { h with host := Usb.usbHostListInsert h.host current new } := by
  have hwords : P.words { h with host := Usb.usbHostListInsert h.host current new } =
      ((P.words h).setNext new (P.link (h.host.qhd current).next)).setNext current
        (P.link (UsbLink.to new)) := by
    rw [← UsbPlace.words_setNext, ← UsbPlace.words_setNext]
    rfl
  rw [UsbPlace.link_to] at hwords
  rw [UsbMem.put_of_words hwords]
  rfl

theorem usbHostFramelistInsert_put (current : Fin usbHostFramelistSize) (new : UsbNode) :
    usbHostFramelistInsert P (m.put P h) current new =
      m.put P { h with host := Usb.usbHostFramelistInsert h.host current new } := by
  have hframe : (fun i => P.link (if i = current then UsbLink.to new else h.host.framelist i)) =
      Function.update (P.words h).framelist current (P.toNode new) := by
    funext i
    by_cases hi : i = current
    · rw [if_pos hi, hi, Function.update_self, UsbPlace.link_to]
    · rw [if_neg hi, Function.update_of_ne hi]
      rfl
  have hwords : P.words { h with host := Usb.usbHostFramelistInsert h.host current new } =
      { (P.words h).setNext new (P.link (h.host.framelist current)) with
        framelist := Function.update (P.words h).framelist current (P.toNode new) } := by
    rw [← UsbPlace.words_setNext, ← hframe]
    rfl
  rw [UsbMem.put_of_words hwords]
  rfl

/-- Unlinking, on words. -/
theorem usbHostUnlink_put (listHead prev qhd : UsbNode) :
    usbHostUnlink P (m.put P h) listHead prev qhd =
      m.put P { h with host := Usb.usbHostUnlink h.host listHead prev qhd } := by
  have hrelease : ∀ q : UsbQhd, q.release.next = q.next := by
    intro q
    unfold UsbQhd.release
    split <;> rfl
  have hwords : P.words { h with host := Usb.usbHostUnlink h.host listHead prev qhd } =
      ((P.words h).setNext prev (P.link (h.host.qhd qhd).next)).setNext qhd
        (P.link (UsbLink.to listHead)) := by
    unfold Usb.usbHostUnlink
    dsimp only
    rw [← UsbPlace.words_setNext, ← UsbPlace.words_setNext]
    dsimp only
    generalize (h.host.setNext prev (h.host.qhd qhd).next).setNext qhd
      (UsbLink.to listHead) = host
    exact UsbPlace.words_setQhd_same { h with host := host } (hrelease _)
  rw [UsbPlace.link_to] at hwords
  rw [UsbMem.put_of_words hwords]
  rfl

/-- What the driver makes of a link to a queue head. -/
theorem back_link (hback : P.MapsBack) {l : UsbLink} {n : UsbNode} (hl : l.address = some n) :
    P.back (usbHostAlign32 (P.link l)) = P.node n := by
  rw [UsbPlace.align32_link hl]
  exact UsbPlace.back_sys hback n.offset_lt.1

theorem usbHostListRemoveLoop_none {listHead : UsbNode} {devAddr : BitVec 8} {host : UsbHost}
    {seen : List UsbNode} {r : UsbHost × List UsbNode} : ∀ k : Nat,
    Usb.usbHostListRemoveLoop listHead devAddr k host none seen ≠ some r
  | 0 => fun hr => nomatch hr
  | _ + 1 => fun hr => nomatch hr

/-- The loop of a close, on words: the address of each queue head is mapped back. -/
theorem usbHostListRemoveLoop_put (hback : P.MapsBack) (listHead : UsbNode) (devAddr : BitVec 8) :
    ∀ (k : Nat) {h : UsbHcd} {prev : UsbNode} {seen : List UsbNode}
      {r : UsbHost × List UsbNode},
      Usb.usbHostListRemoveLoop listHead devAddr k h.host (some prev) seen = some r →
      usbHostListRemoveLoop P listHead devAddr k (m.put P h) (P.node prev) seen =
        some (m.put P { h with host := r.1 }, r.2)
  | 0, _, _, _, _, hr => by cases hr
  | k + 1, h, prev, seen, r, hr => by
    rw [Usb.usbHostListRemoveLoop] at hr
    rw [usbHostListRemoveLoop, UsbPlace.nodeAt_node, Option.bind_some]
    dsimp only at hr ⊢
    have hnext : (m.put P h).words.next prev = P.link (h.host.qhd prev).next := rfl
    rw [hnext, UsbPlace.terminates_link]
    cases hl : (h.host.qhd prev).next.address with
    | none =>
      rw [hl] at hr
      split at hr
      · next hend =>
        cases hr
        rw [if_pos (Or.inl (hend.resolve_right (Option.some_ne_none listHead).symm))]
      · cases hr
    | some qhd =>
      rw [hl] at hr
      have hhead : P.back (usbHostAlign32 (P.link (h.host.qhd prev).next)) = P.node listHead ↔
          some qhd = some listHead := by
        rw [back_link hback hl, Option.some_inj]
        exact ⟨UsbPlace.node_inj, congrArg P.node⟩
      simp only [hhead]
      split at hr
      · next hend =>
        cases hr
        rw [if_pos hend]
      · next hend =>
        rw [if_neg hend, back_link hback hl, UsbPlace.nodeAt_node, Option.bind_some]
        dsimp only at hr
        have hdev : ((m.put P h).hcd.host.qhd qhd).devAddr = (h.host.qhd qhd).devAddr := rfl
        rw [hdev]
        split at hr
        · next hown =>
          rw [if_pos hown, usbHostUnlink_put]
          generalize Usb.usbHostUnlink h.host listHead prev qhd = host at hr ⊢
          cases hafter : (host.qhd prev).next.address with
          | none =>
            rw [hafter] at hr
            exact absurd hr (usbHostListRemoveLoop_none k)
          | some after =>
            rw [hafter] at hr
            have hpointer : P.back (usbHostAlign32
                ((m.put P { h with host := host }).words.next prev)) = P.node after :=
              back_link hback hafter
            rw [hpointer]
            exact usbHostListRemoveLoop_put hback listHead devAddr k
              (h := { h with host := host }) hr
        · next hown =>
          rw [if_neg hown]
          exact usbHostListRemoveLoop_put hback listHead devAddr k hr

/-- A close, on words. -/
theorem usbHostDeviceClose_put {passes : Nat} {devAddr : BitVec 8} {r : UsbHost × List UsbNode}
    (hback : devAddr = 0 ∨ P.MapsBack)
    (hr : Usb.usbHostDeviceClose passes h.host devAddr = some r) :
    usbHostDeviceClose P passes (m.put P h) devAddr =
      some (m.put P { h with host := r.1 }, r.2) := by
  unfold Usb.usbHostDeviceClose at hr
  unfold usbHostDeviceClose
  split at hr
  · next hzero =>
    cases hr
    rw [if_pos hzero]
  · next hzero =>
    have hback := hback.resolve_left hzero
    rw [if_neg hzero]
    obtain ⟨s, hs, hr⟩ := Option.bind_eq_some_iff.mp hr
    have hsweep : ∀ (listHead : UsbNode) (s s' : UsbHost × List UsbNode),
        Usb.usbHostListRemoveQhdByAddr passes devAddr s listHead = some s' →
        usbHostListRemoveQhdByAddr P passes devAddr (m.put P { h with host := s.1 }, s.2)
          listHead = some (m.put P { h with host := s'.1 }, s'.2) :=
      fun listHead s s' hs => usbHostListRemoveLoop_put hback listHead devAddr passes
        (h := { h with host := s.1 }) hs
    have hasync : usbHostListRemoveQhdByAddr P passes devAddr (m.put P h, []) usbHostQhdAsyncHead =
        some (m.put P { h with host := s.1 }, s.2) := hsweep _ (h.host, []) s hs
    rw [hasync, Option.bind_some]
    rw [foldlM_eq_run] at hr ⊢
    exact run_map (φ := fun s : UsbHost × List UsbNode => (m.put P { h with host := s.1 }, s.2))
      (fun s i s' hs => hsweep (.period i) s s' hs) _ _ _ hr

/-! ## Opening an endpoint -/

theorem usbHostQhdInit_next (q : UsbQhd) (devAddr : BitVec 8) (speed : UsbSpeed)
    (desc : UsbDescEndpoint) : (Usb.usbHostQhdInit q devAddr speed desc).2.next =
      if devAddr ≠ 0 then UsbQhd.zero.next else q.next := by
  have hinterval : ∀ (q q' : UsbQhd) (interval : Nat),
      usbHostQhdInitInterval q speed interval = some q' → q'.next = q.next := by
    intro q q' interval hq
    unfold usbHostQhdInitInterval at hq
    split at hq
    · split at hq
      · cases hq
      · split at hq <;> cases hq <;> rfl
    · split at hq <;> cases hq
      rfl
  have hstart : (if devAddr ≠ 0 then UsbQhd.zero else q).next =
      if devAddr ≠ 0 then UsbQhd.zero.next else q.next := apply_ite UsbQhd.next _ _ _
  unfold Usb.usbHostQhdInit
  dsimp only
  split
  · exact hstart
  · next q' hq' =>
    split at hq'
    · exact (hinterval _ _ _ hq').trans hstart
    · cases hq'
      exact hstart

/-- The host with a queue head and its queue set up for an endpoint. -/
def usbHcdQhdInit (h : UsbHcd) (n : UsbNode) (devAddr : BitVec 8) (speed : UsbSpeed)
    (desc : UsbDescEndpoint) : UsbHcd :=
  let host := h.host.setQhd n (Usb.usbHostQhdInit (h.host.qhd n) devAddr speed desc).2
  { h with host := host }.setQueue n (usbHostQueueInit (h.queue n) devAddr speed desc)

theorem words_usbHcdQhdInit (n : UsbNode) (devAddr : BitVec 8) (speed : UsbSpeed)
    (desc : UsbDescEndpoint) : P.words (usbHcdQhdInit h n devAddr speed desc) =
      (usbHostQhdInit (m.put P h) n devAddr speed desc).words := by
  have hzero : P.link UsbQhd.zero.next = 0 := BitVec.or_zero
  have hqueue : P.qtdLink UsbQueue.zero.overlay.next = 0 := BitVec.or_zero
  have hnext : (P.words h).setNext n (P.link (h.host.qhd n).next) = P.words h :=
    (P.words h).setNext_self n
  unfold usbHcdQhdInit
  dsimp only
  rw [UsbPlace.words_setQueue, UsbPlace.words_setQhd, usbHostQhdInit_next]
  unfold usbHostQhdInit usbHostQueueInit UsbMem.put
  dsimp only
  by_cases hdev : devAddr ≠ 0
  · rw [if_pos hdev, if_pos hdev, if_pos hdev, hzero]
    by_cases hok : desc.IntervalOk speed
    · rw [if_pos hok, if_pos hok, UsbPlace.qtdLink_terminated, hqueue,
        UsbWords.setQueue_setOverlay, UsbWords.setQueue_again, UsbWords.setOverlay_again]
      rw [show ((((P.words h).setNext n 0).setOverlay n 0).setQueue n 0 0).overlayNext n = 0 from
        Function.update_self ..]
      rfl
    · rw [if_neg hok, if_neg hok, hqueue]
      rfl
  · rw [if_neg hdev, if_neg hdev, if_neg hdev, hnext]
    by_cases hok : desc.IntervalOk speed
    · rw [if_pos hok, if_pos hok, UsbPlace.qtdLink_terminated]
      rfl
    · rw [if_neg hok, if_neg hok]
      rw [← UsbPlace.words_setQueue]
      exact UsbPlace.words_setQueue_same h rfl rfl rfl

theorem usbHostQhdInit_put (n : UsbNode) (devAddr : BitVec 8) (speed : UsbSpeed)
    (desc : UsbDescEndpoint) : usbHostQhdInit (m.put P h) n devAddr speed desc =
      m.put P (usbHcdQhdInit h n devAddr speed desc) := by
  have hwords := words_usbHcdQhdInit (m := m) (P := P) (h := h) n devAddr speed desc
  rw [UsbMem.put_of_words hwords]
  rfl

/-- An open, on words. -/
theorem usbHostEdptOpen_put {devAddr : BitVec 8} {speed : UsbSpeed} {desc : UsbDescEndpoint}
    {r : Bool × UsbHcd} (hr : usbHcdEdptOpen h devAddr speed desc = some r) :
    usbHostEdptOpen P (m.put P h) devAddr speed desc = some (r.1, m.put P r.2) := by
  unfold usbHcdEdptOpen at hr
  obtain ⟨⟨b, host⟩, hopen, hr⟩ := Option.map_eq_some_iff.mp hr
  unfold Usb.usbHostEdptOpen at hopen
  unfold usbHostEdptOpen
  split at hopen
  · next hiso =>
    cases hopen
    rw [if_pos hiso]
    cases hn : usbHostOpenQhd h.host devAddr desc with
    | none =>
      rw [hn] at hr
      cases hr
      rfl
    | some n =>
      rw [hn] at hr
      cases hr
      rfl
  · next hiso =>
    rw [if_neg hiso]
    obtain ⟨n, hn, hopen⟩ := Option.map_eq_some_iff.mp hopen
    cases hopen
    rw [hn] at hr
    cases hr
    have hopened : usbHostOpenQhd (m.put P h).hcd.host devAddr desc = some n := hn
    rw [hopened, Option.map_some]
    dsimp only
    rw [usbHostQhdInit_put, usbHostListInsert_put]
    have hinterval : ((usbHcdQhdInit h n devAddr speed desc).host.qhd n).intervalMs =
        (Usb.usbHostQhdInit (h.host.qhd n) devAddr speed desc).2.intervalMs :=
      congrArg UsbQhd.intervalMs (UsbHost.setQhd_self _ _)
    have hput : (m.put P (usbHcdQhdInit h n devAddr speed desc)).hcd =
        usbHcdQhdInit h n devAddr speed desc := rfl
    rw [hput, hinterval]
    rfl

/-! ## Transfers -/

/-- A descriptor that is filled is the last one. -/
theorem usbHostQtdFill_put {t : UsbQtdNode} {d : UsbQtd} (given : BitVec 32) (length : BitVec 16)
    (hd : d.next = ⟨none, true⟩) : usbHostQtdFill (m.put P h) t given length d =
      (m.give t given length).put P (h.setQtd t d) := by
  have hword : P.qtdLink ⟨none, true⟩ = 1 := BitVec.zero_or
  have hwords : P.words (h.setQtd t d) = (P.words h).setQtdNext t 1 := by
    rw [UsbPlace.words_setQtd, hd, hword]
  rw [UsbMem.put_of_words hwords]
  rfl

/-- A link that gets a pointer as it is leads the controller there where the addresses agree; a
queue without descriptors has no such link. -/
theorem usbHostQtdInsertToQhd_put {n : UsbNode} {new : UsbQtdNode} {h' : UsbHcd}
    (hplace : P.InDlm → (h.queue n).listHead = none)
    (hr : Usb.usbHostQtdInsertToQhd h n new = some h') :
    usbHostQtdInsertToQhd P (m.put P h) n new = some (m.put P h') := by
  have hempty : (m.put P h).words.listHead n = 0 ↔ (h.queue n).listHead = none :=
    UsbPlace.pointer_eq_zero_iff
  unfold Usb.usbHostQtdInsertToQhd at hr
  unfold usbHostQtdInsertToQhd
  simp only [hempty]
  split at hr
  · next hnone =>
    cases hr
    rw [if_pos hnone]
    have hwords : P.words (h.setQueue n
        { h.queue n with listHead := some new, listTail := some new }) =
        (P.words h).setQueue n (P.qtd new) (P.qtd new) := UsbPlace.words_setQueue_lists h rfl
    rw [UsbMem.put_of_words hwords]
    rfl
  · next hsome =>
    obtain ⟨tail, htail, rfl⟩ := Option.map_eq_some_iff.mp hr
    rw [if_neg hsome, UsbMem.qtdAt_listTail htail, Option.map_some]
    have hsys : P.sys (P.qtd new) = P.qtd new :=
      UsbPlace.sys_eq_self (mt hplace hsome) new.offset_lt.1
    have hwords : P.words ((h.setQtd tail { h.qtd tail with next := ⟨some new, false⟩ }).setQueue n
        { h.queue n with listTail := some new }) =
        ((P.words h).setQtdNext tail (P.qtd new)).setQueue n ((P.words h).listHead n)
          (P.qtd new) := by
      rw [UsbPlace.words_setQueue_lists, UsbPlace.words_setQtd, UsbPlace.qtdLink_to, hsys]
      all_goals rfl
    rw [UsbMem.put_of_words hwords]
    rfl

theorem usbHostQtdInsertToQhd_head {n : UsbNode} {new : UsbQtdNode} {h' : UsbHcd}
    (hr : Usb.usbHostQtdInsertToQhd h n new = some h') : (h'.queue n).listHead ≠ none := by
  unfold Usb.usbHostQtdInsertToQhd at hr
  split at hr
  · cases hr
    rw [UsbHcd.setQueue_self]
    exact Option.some_ne_none new
  · next hsome =>
    obtain ⟨tail, -, rfl⟩ := Option.map_eq_some_iff.mp hr
    rw [UsbHcd.setQueue_self]
    exact hsome

theorem usbHostTailIoc_put {n : UsbNode} {h' : UsbHcd} (hr : Usb.usbHostTailIoc h n = some h') :
    usbHostTailIoc P (m.put P h) n = some (m.put P h') := by
  obtain ⟨tail, htail, rfl⟩ := Option.map_eq_some_iff.mp hr
  have hwords : P.words (h.setQtd tail { h.qtd tail with intOnComplete := true }) = P.words h :=
    UsbPlace.words_setQtd_same h rfl
  unfold usbHostTailIoc
  rw [UsbMem.qtdAt_listTail htail, Option.map_some, UsbMem.put_of_words hwords]
  rfl

theorem usbHostTailIoc_queue {n : UsbNode} {h' : UsbHcd} (hr : Usb.usbHostTailIoc h n = some h') :
    h'.queue = h.queue := by
  obtain ⟨tail, -, rfl⟩ := Option.map_eq_some_iff.mp hr
  rfl

/-- The overlay of a queue with a descriptor gets its system address. -/
theorem usbHostAttach_put {n : UsbNode} (hhead : (h.queue n).listHead ≠ none) :
    usbHostAttach P (m.put P h) n = m.put P (Usb.usbHostAttach h n) := by
  obtain ⟨t, ht⟩ := Option.ne_none_iff_exists'.mp hhead
  have hpointer : (P.words h).listHead n = P.qtd t := congrArg P.pointer ht
  have hwords : P.words (Usb.usbHostAttach h n) = (P.words h).setOverlay n (P.sys (P.qtd t)) := by
    unfold Usb.usbHostAttach
    rw [UsbPlace.words_setQueue]
    dsimp only
    rw [ht, UsbPlace.qtdLink_to, ← ht]
    exact UsbWords.setQueue_self ((P.words h).setOverlay n (P.sys (P.qtd t))) n
  unfold usbHostAttach UsbMem.put
  dsimp only
  rw [hwords, hpointer]

/-- A control transfer, on words. -/
theorem usbHostControlXfer_put {n : UsbNode} {t : UsbQtdNode} {d : UsbQtd} (given : BitVec 32)
    (length : BitVec 16) (hd : d.next = ⟨none, true⟩) :
    usbHostControlXfer P (m.put P h) n t given length d =
      (m.give t given length).put P (Usb.usbHostControlXfer h n t d) := by
  have hfirst : (((h.setQtd t d).setQueue n { h.queue n with
      listHead := some t, listTail := some t }).queue n).listHead ≠ none := by
    rw [UsbHcd.setQueue_self]
    exact Option.some_ne_none t
  have hwords : P.words ((h.setQtd t d).setQueue n { h.queue n with
      listHead := some t, listTail := some t }) =
      (P.words (h.setQtd t d)).setQueue n (P.qtd t) (P.qtd t) :=
    UsbPlace.words_setQueue_lists _ rfl
  unfold usbHostControlXfer Usb.usbHostControlXfer
  rw [usbHostQtdFill_put given length hd, ← usbHostAttach_put hfirst, UsbMem.put_of_words hwords]
  rfl

section Calls

variable {devAddr epAddr : BitVec 8} {buffer : BitVec 32} {length : BitVec 16} {r : Bool × UsbHcd}

theorem usbPipeTarget_eq {n : UsbNode} {t : UsbQtdNode}
    (hn : usbHostQhdGetFromAddr h.host devAddr epAddr = some n)
    (ht : usbHostQtdFindFree h = some t) : usbPipeTarget h devAddr epAddr = some (n, t) := by
  unfold usbPipeTarget
  rw [hn, Option.bind_some, ht, Option.map_some]

theorem usbControlTarget_eq {n : UsbNode} {t : UsbQtdNode}
    (hn : usbHostQhdControl devAddr = some n) (ht : usbHostQtdControl devAddr = some t) :
    usbControlTarget devAddr = some (n, t) := by
  unfold usbControlTarget
  rw [hn, Option.bind_some, ht, Option.map_some]

/-- A queue that a descriptor may go to: where the addresses differ it is empty. -/
def QueueFree (P : UsbPlace) (h : UsbHcd) (target : Option (UsbNode × UsbQtdNode)) : Prop :=
  P.InDlm → ∀ p ∈ target, (h.queue p.1).listHead = none

/-- Filling a descriptor and queueing it. -/
theorem usbHostQueued_put {n : UsbNode} {t : UsbQtdNode} {d : UsbQtd} {h' : UsbHcd}
    (hd : d.next = ⟨none, true⟩) (hplace : P.InDlm → (h.queue n).listHead = none)
    (hr : Usb.usbHostQtdInsertToQhd (h.setQtd t d) n t = some h') :
    usbHostQtdInsertToQhd P (usbHostQtdFill (m.put P h) t buffer length d) n t =
      some ((m.give t buffer length).put P h') := by
  rw [usbHostQtdFill_put buffer length hd]
  exact usbHostQtdInsertToQhd_put hplace hr

/-- A transfer to an endpoint, on words: a queue with a descriptor in it needs a place where the
addresses do not differ. -/
theorem usbHostEdptXfer_put
    (hplace : usbEdptNumber epAddr ≠ 0 → QueueFree P h (usbPipeTarget h devAddr epAddr))
    (hr : Usb.usbHostEdptXfer P.core h devAddr epAddr buffer length = some r) :
    usbHostEdptXfer P (m.put P h) devAddr epAddr buffer length =
      some (r.1, (m.gives r.1 (usbEdptTarget h devAddr epAddr) buffer length).put P r.2) := by
  unfold Usb.usbHostEdptXfer at hr
  unfold usbHostEdptXfer usbEdptTarget
  dsimp only at hr ⊢
  split at hr
  · next hcontrol =>
    obtain ⟨n, hn, hr⟩ := Option.bind_eq_some_iff.mp hr
    obtain ⟨t, ht, rfl⟩ := Option.map_eq_some_iff.mp hr
    rw [if_pos hcontrol, if_pos hcontrol, hn, Option.bind_some, ht, Option.map_some,
      usbControlTarget_eq hn ht]
    exact congrArg (fun m => some (true, m)) (usbHostControlXfer_put buffer length rfl)
  · next hcontrol =>
    rw [if_neg hcontrol, if_neg hcontrol]
    rw [UsbMem.put_hcd]
    cases hn : usbHostQhdGetFromAddr h.host devAddr epAddr with
    | none =>
      rw [hn] at hr
      cases hr
      rfl
    | some n =>
      cases ht : usbHostQtdFindFree h with
      | none =>
        rw [hn, ht] at hr
        cases hr
        rfl
      | some t =>
        rw [hn, ht] at hr
        obtain ⟨h₁, hins, hr⟩ := Option.bind_eq_some_iff.mp hr
        obtain ⟨h₂, hioc, rfl⟩ := Option.map_eq_some_iff.mp hr
        have htarget := usbPipeTarget_eq hn ht
        rw [htarget]
        dsimp only
        rw [usbHostQueued_put rfl (fun hlocal => hplace hcontrol hlocal (n, t) htarget) hins,
          Option.bind_some, usbHostTailIoc_put hioc, Option.map_some, usbHostAttach_put ?_]
        · rfl
        · rw [usbHostTailIoc_queue hioc]
          exact usbHostQtdInsertToQhd_head hins

/-- A set-up packet, on words. -/
theorem usbHostSetupSend_put {setupPacket : BitVec 32}
    (hr : Usb.usbHostSetupSend P.core h devAddr setupPacket = some r) :
    usbHostSetupSend P (m.put P h) devAddr setupPacket =
      some (r.1, (m.gives r.1 (usbControlTarget devAddr) setupPacket usbSetupPacketLen).put P
        r.2) := by
  obtain ⟨n, hn, hr⟩ := Option.bind_eq_some_iff.mp hr
  obtain ⟨t, ht, rfl⟩ := Option.map_eq_some_iff.mp hr
  unfold usbHostSetupSend
  rw [hn, Option.bind_some, ht, Option.map_some, usbControlTarget_eq hn ht]
  exact congrArg (fun m => some (true, m)) (usbHostControlXfer_put setupPacket _ rfl)

theorem usbHostPipeQueueXfer_put (hplace : QueueFree P h (usbPipeTarget h devAddr epAddr))
    (hr : Usb.usbHostPipeQueueXfer h devAddr epAddr buffer length = some r) :
    usbHostPipeQueueXfer P (m.put P h) devAddr epAddr buffer length =
      some (r.1, (m.gives r.1 (usbPipeTarget h devAddr epAddr) buffer length).put P r.2) := by
  unfold Usb.usbHostPipeQueueXfer at hr
  unfold usbHostPipeQueueXfer
  rw [UsbMem.put_hcd]
  cases hn : usbHostQhdGetFromAddr h.host devAddr epAddr with
  | none =>
    rw [hn] at hr
    cases hr
    rfl
  | some n =>
    cases ht : usbHostQtdFindFree h with
    | none =>
      rw [hn, ht] at hr
      cases hr
      rfl
    | some t =>
      rw [hn, ht] at hr
      obtain ⟨h₁, hins, rfl⟩ := Option.map_eq_some_iff.mp hr
      have htarget := usbPipeTarget_eq hn ht
      rw [htarget]
      dsimp only
      rw [usbHostQueued_put rfl (fun hlocal => hplace hlocal (n, t) htarget) hins,
        Option.map_some]
      rfl

theorem usbHostPipeQueueXfer_head {h' : UsbHcd}
    (hr : Usb.usbHostPipeQueueXfer h devAddr epAddr buffer length = some (true, h')) :
    ∃ n, usbHostQhdGetFromAddr h.host devAddr epAddr = some n ∧ (h'.queue n).listHead ≠ none := by
  unfold Usb.usbHostPipeQueueXfer at hr
  split at hr
  · next n t hn ht =>
    obtain ⟨h₁, hins, hr⟩ := Option.map_eq_some_iff.mp hr
    cases hr
    exact ⟨n, hn, usbHostQtdInsertToQhd_head hins⟩
  · cases hr

/-- A transfer to a pipe, on words. -/
theorem usbHostPipeXfer_put {intOnComplete : Bool}
    (hplace : QueueFree P h (usbPipeTarget h devAddr epAddr))
    (hr : Usb.usbHostPipeXfer h devAddr epAddr buffer length intOnComplete = some r) :
    usbHostPipeXfer P (m.put P h) devAddr epAddr buffer length intOnComplete =
      some (r.1, (m.gives r.1 (usbPipeTarget h devAddr epAddr) buffer length).put P r.2) := by
  obtain ⟨⟨ok, h₁⟩, hqueue, hr⟩ := Option.bind_eq_some_iff.mp hr
  unfold usbHostPipeXfer
  rw [usbHostPipeQueueXfer_put hplace hqueue, Option.bind_some]
  rw [UsbMem.put_hcd]
  cases ok with
  | false =>
    cases hr
    rfl
  | true =>
    obtain ⟨n, hn, hhead⟩ := usbHostPipeQueueXfer_head hqueue
    rw [hn] at hr ⊢
    dsimp only at hr ⊢
    obtain ⟨h₂, hioc, rfl⟩ := Option.map_eq_some_iff.mp hr
    cases intOnComplete with
    | false =>
      cases hioc
      rw [if_neg Bool.false_ne_true, Option.map_some, usbHostAttach_put hhead]
    | true =>
      rw [if_pos rfl] at hioc
      rw [if_pos rfl, usbHostTailIoc_put hioc, Option.map_some, usbHostAttach_put]
      rw [usbHostTailIoc_queue hioc]
      exact hhead

end Calls

end Placed

end HpmSdk.Usb
