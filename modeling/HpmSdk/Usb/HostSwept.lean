import HpmSdk.Usb.HostDevice

set_option autoImplicit false

/-!
# USB host: what any close leaves

Whether or not the sweeps of `usb_host_list_remove_qhd_by_addr` reach all queue heads
of a device, a close that ends leaves a well-formed schedule, has taken out queue heads
of the device only, and has changed nothing else but links.
-/

namespace HpmSdk.Usb

/-! ## Queue heads but for their links -/

/-- The same queue head, perhaps linked elsewhere. -/
def UsbQhd.Relinked (q q' : UsbQhd) : Prop := q' = { q with next := q'.next }

theorem UsbQhd.Relinked.refl (q : UsbQhd) : q.Relinked q := rfl

theorem UsbQhd.Relinked.trans {q₁ q₂ q₃ : UsbQhd} (h₁ : q₁.Relinked q₂) (h₂ : q₂.Relinked q₃) :
    q₁.Relinked q₃ := by
  unfold UsbQhd.Relinked at h₁ h₂ ⊢
  rw [h₂, h₁]

theorem UsbQhd.Relinked.release {q q' : UsbQhd} (h : q.Relinked q') :
    q.release.Relinked q'.release := by
  unfold UsbQhd.Relinked at h ⊢
  rw [h]
  unfold UsbQhd.release
  dsimp only
  split <;> rfl

theorem UsbQhd.Relinked.devAddr {q q' : UsbQhd} (h : q.Relinked q') : q'.devAddr = q.devAddr := by
  unfold UsbQhd.Relinked at h
  rw [h]

section SetNext

variable (h : UsbHost) (n k : UsbNode) (l : UsbLink)

theorem UsbHost.setNext_relinked : (h.qhd k).Relinked ((h.setNext n l).qhd k) := by
  by_cases hk : k = n
  · rw [hk, UsbHost.setNext, UsbHost.setQhd_self]
    rfl
  · rw [UsbHost.setNext_of_ne h l hk]
    exact UsbQhd.Relinked.refl _

/-- Inserting changes links only. -/
theorem usbHostListInsert_relinked (current new : UsbNode) :
    (h.qhd k).Relinked ((usbHostListInsert h current new).qhd k) := by
  unfold usbHostListInsert
  exact (h.setNext_relinked _ _ _).trans (UsbHost.setNext_relinked _ _ _ _)

/-- Taking a queue head out releases it; the others are only linked elsewhere. -/
theorem usbHostUnlink_relinked (listHead prev x : UsbNode) :
    (if k = x then (h.qhd k).release else h.qhd k).Relinked
      ((usbHostUnlink h listHead prev x).qhd k) := by
  have hlinks := (h.setNext_relinked prev k (h.qhd x).next).trans
    (UsbHost.setNext_relinked (h.setNext prev (h.qhd x).next) x k (UsbLink.to listHead))
  unfold usbHostUnlink
  split
  · rename_i hk
    subst hk
    rw [UsbHost.setQhd_self]
    exact hlinks.release
  · rename_i hk
    rw [UsbHost.setQhd_of_ne _ _ hk]
    exact hlinks

end SetNext

/-! ## Sweeps -/

/-- A queue head is a member of a list. -/
def InList (mem : UsbList → List UsbNode) (k : UsbNode) : Prop := ∃ c, k ∈ mem c

/-- Queue heads of the device have been taken out, in any number. -/
structure Swept (devAddr : BitVec 8) (h : UsbHost) (mem : UsbList → List UsbNode) (h' : UsbHost)
    (mem' : UsbList → List UsbNode) : Prop where
  sub : ∀ c, (mem' c).Sublist (mem c)
  kept : ∀ k, (InList mem k → InList mem' k) → (h.qhd k).Relinked (h'.qhd k)
  gone : ∀ k, InList mem k → ¬ InList mem' k →
    h.owned devAddr k = true ∧ (h.qhd k).release.Relinked (h'.qhd k)

section Swept

variable {devAddr : BitVec 8} {h h₁ h₂ : UsbHost} {mem mem₁ mem₂ : UsbList → List UsbNode}

theorem Swept.refl (devAddr : BitVec 8) (h : UsbHost) (mem : UsbList → List UsbNode) :
    Swept devAddr h mem h mem :=
  ⟨fun _ => List.Sublist.refl _, fun _ _ => UsbQhd.Relinked.refl _,
    fun _ hin hout => absurd hin hout⟩

theorem Swept.inList (hs : Swept devAddr h mem h₁ mem₁) {k : UsbNode} (hk : InList mem₁ k) :
    InList mem k :=
  hk.imp fun c hc => (hs.sub c).subset hc

/-- A sweep does not change whose a queue head is. -/
theorem Swept.owned (hs : Swept devAddr h mem h₁ mem₁) (k : UsbNode) :
    h₁.owned devAddr k = h.owned devAddr k := by
  have hdev : (h₁.qhd k).devAddr = (h.qhd k).devAddr := by
    by_cases hk : InList mem k → InList mem₁ k
    · exact (hs.kept k hk).devAddr
    · obtain ⟨hin, hout⟩ := Classical.not_imp.mp hk
      exact (hs.gone k hin hout).2.devAddr.trans (UsbQhd.release_devAddr _)
  unfold UsbHost.owned
  rw [hdev]

/-- Two sweeps of a device are a sweep of it. -/
theorem Swept.trans (h₀₁ : Swept devAddr h mem h₁ mem₁) (h₁₂ : Swept devAddr h₁ mem₁ h₂ mem₂) :
    Swept devAddr h mem h₂ mem₂ := by
  refine ⟨fun c => (h₁₂.sub c).trans (h₀₁.sub c), fun k hk => ?_, fun k hin hout => ?_⟩
  · refine (h₀₁.kept k fun hin => h₁₂.inList (hk hin)).trans (h₁₂.kept k fun hin => ?_)
    exact hk (h₀₁.inList hin)
  · by_cases hmid : InList mem₁ k
    · obtain ⟨howned, hrel⟩ := h₁₂.gone k hmid hout
      refine ⟨(h₀₁.owned k).symm.trans howned, ?_⟩
      exact (h₀₁.kept k fun _ => hmid).release.trans hrel
    · obtain ⟨howned, hrel⟩ := h₀₁.gone k hin hmid
      exact ⟨howned, hrel.trans (h₁₂.kept k fun hin => absurd hin hmid)⟩

end Swept

/-- A pass that takes out a member. -/
theorem Swept.unlink {devAddr : BitVec 8} {h : UsbHost} {mem : UsbList → List UsbNode}
    {c : UsbList} {pre zs : List UsbNode} {x : UsbNode} (hs : Sched h mem)
    (hmem : mem c = pre ++ x :: zs) (hx : h.owned devAddr x = true) (listHead prev : UsbNode) :
    Swept devAddr h mem (usbHostUnlink h listHead prev x) (setMembers mem c (pre ++ zs)) := by
  have hxc : x ∈ mem c := hmem ▸ List.mem_append_right pre List.mem_cons_self
  have hnotin : ¬ InList (setMembers mem c (pre ++ zs)) x := by
    rintro ⟨c', hc'⟩
    by_cases hcc : c' = c
    · subst hcc
      rw [setMembers_self] at hc'
      have hnodup := (List.nodup_cons.mp (hs.nodup c')).2
      rw [hmem, List.nodup_middle] at hnodup
      exact (List.nodup_cons.mp hnodup).1 hc'
    · rw [setMembers_of_ne hcc] at hc'
      exact hs.apart c' c hcc (List.mem_cons_of_mem _ hc') (List.mem_cons_of_mem _ hxc)
  have hin : ∀ k, k ≠ x → InList mem k → InList (setMembers mem c (pre ++ zs)) k := by
    rintro k hk ⟨c', hc'⟩
    refine ⟨c', ?_⟩
    by_cases hcc : c' = c
    · subst hcc
      rw [hmem] at hc'
      rw [setMembers_self]
      rcases List.mem_append.mp hc' with hc' | hc'
      · exact List.mem_append_left _ hc'
      · exact List.mem_append_right _ ((List.mem_cons.mp hc').resolve_left hk)
    · rw [setMembers_of_ne hcc]
      exact hc'
  refine ⟨fun c' => ?_, fun k hk => ?_, fun k hmemk hout => ?_⟩
  · by_cases hcc : c' = c
    · subst hcc
      rw [setMembers_self, hmem]
      exact (List.sublist_cons_self x zs).append_left pre
    · rw [setMembers_of_ne hcc]
  · have hkx : k ≠ x := fun hkx => hnotin (hkx ▸ hk (hkx ▸ ⟨c, hxc⟩))
    have hrel := usbHostUnlink_relinked h k listHead prev x
    rwa [if_neg hkx] at hrel
  · obtain rfl : k = x := by
      by_contra hkx
      exact hout (hin k hkx hmemk)
    have hrel := usbHostUnlink_relinked h k listHead prev k
    rw [if_pos rfl] at hrel
    exact ⟨hx, hrel⟩

/-! ## Any close that ends -/

section Ends

variable {devAddr : BitVec 8}

/-- What the loop finds behind the last member of a list: the stop, `NULL`, or the head of
a list, which is of no device. -/
theorem Sched.tail_cases {h : UsbHost} {mem : UsbList → List UsbNode} (hs : Sched h mem)
    (haddr : devAddr ≠ 0) (c : UsbList) : c.tail = ⟨none, true⟩ ∨
      ∃ c' : UsbList, c.tail = UsbLink.to c'.head ∧ h.owned devAddr c'.head = false := by
  have hother : ∀ c' : UsbList, h.owned devAddr c'.head = false := fun c' => by
    unfold UsbHost.owned
    rw [hs.heads c']
    exact decide_eq_false fun hzero => haddr hzero.symm
  cases c with
  | async => exact Or.inr ⟨.async, rfl, hother _⟩
  | period i =>
    by_cases hi : i = usbPeriod1ms
    · exact Or.inl (if_pos hi)
    · exact Or.inr ⟨.period usbPeriod1ms, if_neg hi, hother _⟩

/-- The loop from any place of a list, for any list head. -/
theorem Sched.loop_swept (haddr : devAddr ≠ 0) (listHead : UsbList) : ∀ (n : Nat) {h h' : UsbHost}
    {mem : UsbList → List UsbNode} (c : UsbList) (pre : List UsbNode) {zs seen seen' : List UsbNode},
      Sched h mem → mem c = pre ++ zs →
      usbHostListRemoveLoop listHead.head devAddr n h (some (lastNode c.head pre)) seen =
        some (h', seen') →
      ∃ mem', Sched h' mem' ∧ Swept devAddr h mem h' mem' := by
  intro n
  induction n with
  | zero =>
    intro h h' mem c pre zs seen seen' _ _ hr
    cases hr
  | succ n ih =>
    intro h h' mem c pre zs seen seen' hs hmem hr
    have hc : Closing h h mem := ⟨hs, fun _ => rfl⟩
    cases zs with
    | nil =>
      -- behind the last member: the loop stops, or goes on at the head of a list
      have hlink : (h.qhd (lastNode c.head pre)).next = c.tail := (hmem ▸ hs.path c).next_last
      rw [usbHostListRemoveLoop, hlink] at hr
      dsimp only at hr
      split at hr
      · cases hr
        exact ⟨mem, hs, Swept.refl _ _ _⟩
      · rename_i hgo
        rcases hs.tail_cases haddr c with htail | ⟨c', htail, hother⟩
        · rw [htail] at hgo
          exact absurd (Or.inl rfl) hgo
        · have hne : ¬ (h.qhd c'.head).devAddr.setWidth 8 = devAddr := of_decide_eq_false hother
          rw [htail] at hr
          dsimp only [UsbLink.to] at hr
          rw [if_neg hne] at hr
          exact ih c' [] hs rfl hr
    | cons x zs =>
      cases hx : h.owned devAddr x with
      | false =>
        rw [hc.pass_keep listHead hmem hx] at hr
        have hlast := lastNode_snoc c.head x pre
        rw [← hlast] at hr
        exact ih c (pre ++ [x]) hs (hmem.trans (List.append_cons _ _ _)) hr
      | true =>
        obtain ⟨hclosing, hpass⟩ := hc.pass_remove listHead hmem hx
        have hswept := Swept.unlink hs hmem hx listHead.head (lastNode c.head pre)
        rw [hpass] at hr
        have hpath := (hmem ▸ hs.path c : Path h c.head (pre ++ x :: zs) c.tail).next_last.2
        cases zs with
        | cons y zs =>
          have hnext : (h.qhd x).next = UsbLink.to y := hpath.1
          have hlast := lastNode_snoc c.head y pre
          rw [hnext, UsbLink.to, ← hlast] at hr
          obtain ⟨mem', hs', hrest⟩ := ih c (pre ++ [y]) hclosing.sched
            (setMembers_self.trans (List.append_cons _ _ _)) hr
          exact ⟨mem', hs', hswept.trans hrest⟩
        | nil =>
          have hnext : (h.qhd x).next = c.tail := hpath
          rw [hnext] at hr
          rcases hs.tail_cases haddr c with htail | ⟨c', htail, -⟩
          · rw [htail] at hr
            cases n <;> cases hr
          · rw [htail] at hr
            obtain ⟨mem', hs', hrest⟩ := ih c' [] hclosing.sched rfl hr
            exact ⟨mem', hs', hswept.trans hrest⟩

/-- The sweeps of the periodic lists, one behind the other. -/
theorem Sched.removes_swept (haddr : devAddr ≠ 0) {passes : Nat} :
    ∀ (is : List (Fin usbHcdPeriodicArrCount)) {s s' : UsbHost × List UsbNode}
      {mem : UsbList → List UsbNode}, Sched s.1 mem →
      is.foldlM (fun s i => usbHostListRemoveQhdByAddr passes devAddr s (.period i)) s = some s' →
      ∃ mem', Sched s'.1 mem' ∧ Swept devAddr s.1 mem s'.1 mem'
  | [], s, s', mem, hs, hr => by
    obtain rfl := Option.some.inj hr
    exact ⟨mem, hs, Swept.refl _ _ _⟩
  | i :: is, s, s', mem, hs, hr => by
    rw [List.foldlM_cons] at hr
    obtain ⟨mid, hmid, hrest⟩ := Option.bind_eq_some_iff.mp hr
    obtain ⟨mem₁, hs₁, hswept₁⟩ := Sched.loop_swept haddr (.period i) passes
      (.period i) [] hs rfl hmid
    obtain ⟨mem₂, hs₂, hswept₂⟩ := removes_swept haddr is hs₁ hrest
    exact ⟨mem₂, hs₂, hswept₁.trans hswept₂⟩

/-- A close that ends leaves a well-formed schedule without some queue heads of the
device. -/
theorem Sched.close_swept {h h' : UsbHost} (hs : Sched h h.members) {seen : List UsbNode}
    {passes : Nat} (hr : usbHostDeviceClose passes h devAddr = some (h', seen)) :
    Sched h' h'.members ∧ Swept devAddr h h.members h' h'.members := by
  unfold usbHostDeviceClose at hr
  split at hr
  · cases hr
    exact ⟨hs, Swept.refl _ _ _⟩
  · rename_i haddr
    obtain ⟨mid, hmid, hrest⟩ := Option.bind_eq_some_iff.mp hr
    obtain ⟨mem₁, hs₁, hswept₁⟩ := Sched.loop_swept haddr .async passes
      .async [] hs rfl hmid
    obtain ⟨mem₂, hs₂, hswept₂⟩ := Sched.removes_swept haddr _ hs₁ hrest
    rw [hs₂.members_eq]
    exact ⟨hs₂, hswept₁.trans hswept₂⟩

end Ends

end HpmSdk.Usb
