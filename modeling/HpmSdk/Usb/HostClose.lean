import HpmSdk.Usb.HostSchedule
import HpmSdk.Foundation.Sweep

set_option autoImplicit false

/-!
# USB host: closing a device

A pass of `usb_host_list_remove_qhd_by_addr` that removes a queue head steps over
the next one, so the loop sweeps a list as `Sweep.sweep` does.  When the last one
is removed the loop goes on with what the tail refers to: the head of the
asynchronous list, which is swept again, the 1 ms head behind the longer periods,
and `NULL` behind the 1 ms list.
-/

namespace HpmSdk.Usb

open HpmSdk.Foundation

/-! ## Taking out one queue head -/

section Unlink

variable {h : UsbHost} {listHead prev x : UsbNode}

/-- The queue head before goes on to the one behind. -/
theorem usbHostUnlink_next_prev (hne : prev ≠ x) :
    ((usbHostUnlink h listHead prev x).qhd prev).next = (h.qhd x).next := by
  unfold usbHostUnlink
  rw [UsbHost.setQhd_of_ne _ _ hne, UsbHost.setNext_of_ne _ _ hne, UsbHost.setNext_next]

/-- The other links stay. -/
theorem usbHostUnlink_next_of_ne {k : UsbNode} (hp : k ≠ prev) (hx : k ≠ x) :
    ((usbHostUnlink h listHead prev x).qhd k).next = (h.qhd k).next := by
  unfold usbHostUnlink
  rw [UsbHost.setQhd_of_ne _ _ hx, UsbHost.setNext_of_ne _ _ hx, UsbHost.setNext_of_ne _ _ hp]

/-- And so does what each queue head is for. -/
theorem usbHostUnlink_devAddr (k : UsbNode) :
    ((usbHostUnlink h listHead prev x).qhd k).devAddr = (h.qhd k).devAddr := by
  unfold usbHostUnlink
  dsimp only
  by_cases hx : k = x
  · subst hx
    simp
  · rw [UsbHost.setQhd_of_ne _ _ hx]
    simp

end Unlink

/-- A queue head belongs to the device. -/
def UsbHost.owned (h : UsbHost) (devAddr : BitVec 8) (n : UsbNode) : Bool :=
  decide ((h.qhd n).devAddr.setWidth 8 = devAddr)

/-- The state while a device is closed: a schedule, with the addresses it had before. -/
structure Closing (h₀ h : UsbHost) (mem : UsbList → List UsbNode) : Prop where
  sched : Sched h mem
  dev : ∀ k, (h.qhd k).devAddr = (h₀.qhd k).devAddr

section OnePass

variable {h₀ h : UsbHost} {mem : UsbList → List UsbNode} {devAddr : BitVec 8} {c c' : UsbList}
  {pre zs : List UsbNode} {x : UsbNode}

/-- The link that the loop looks at. -/
theorem Closing.next_eq (hc : Closing h₀ h mem) (hmem : mem c = pre ++ x :: zs) :
    (h.qhd (lastNode c.head pre)).next = UsbLink.to x :=
  (hmem ▸ hc.sched.path c).next_last.1

variable (c') in
/-- A pass over a queue head of another device. -/
theorem Closing.pass_keep (hc : Closing h₀ h mem) (hmem : mem c = pre ++ x :: zs)
    (hx : h₀.owned devAddr x = false) (n : Nat) (seen : List UsbNode) :
    usbHostListRemoveLoop c'.head devAddr (n + 1) h (some (lastNode c.head pre)) seen =
      usbHostListRemoveLoop c'.head devAddr n h (some x)
        (seen ++ [lastNode c.head pre, x]) := by
  have hne : x ≠ c'.head := by
    rintro rfl
    exact hc.sched.head_not_mem c' c (hmem ▸ List.mem_append_right pre List.mem_cons_self)
  have hdev : ¬ (h.qhd x).devAddr.setWidth 8 = devAddr := by
    rw [hc.dev]
    exact of_decide_eq_false hx
  rw [usbHostListRemoveLoop, hc.next_eq hmem]
  simp [UsbLink.to, hne, hdev]

variable (c') in
/-- A pass that takes a queue head out. -/
theorem Closing.pass_remove (hc : Closing h₀ h mem) (hmem : mem c = pre ++ x :: zs)
    (hx : h₀.owned devAddr x = true) :
    Closing h₀ (usbHostUnlink h c'.head (lastNode c.head pre) x) (setMembers mem c (pre ++ zs)) ∧
    ∀ n seen, usbHostListRemoveLoop c'.head devAddr (n + 1) h (some (lastNode c.head pre)) seen =
      usbHostListRemoveLoop c'.head devAddr n (usbHostUnlink h c'.head (lastNode c.head pre) x)
        (h.qhd x).next.address (seen ++ [lastNode c.head pre, x]) := by
  have hpath := hmem ▸ hc.sched.path c
  have hnodup := hmem ▸ hc.sched.nodup c
  have hxmem : x ∈ mem c := hmem ▸ List.mem_append_right pre List.mem_cons_self
  have hne : x ≠ c'.head := by
    rintro rfl
    exact hc.sched.head_not_mem c' c hxmem
  have hlast : lastNode c.head pre ∈ c.head :: pre := lastNode_mem _ _
  have hprev : lastNode c.head pre ≠ x := by
    intro heq
    rw [heq] at hlast
    rw [← List.cons_append] at hnodup
    exact (List.nodup_append.mp hnodup).2.2 x hlast x List.mem_cons_self rfl
  have hprevmem : lastNode c.head pre ∈ c.head :: mem c := by
    rw [hmem]
    exact List.mem_append_left (x :: zs) hlast
  have hdev : (h.qhd x).devAddr.setWidth 8 = devAddr := by
    rw [hc.dev]
    exact of_decide_eq_true hx
  refine ⟨⟨?_, fun k => (usbHostUnlink_devAddr k).trans (hc.dev k)⟩, fun n seen => ?_⟩
  · refine hc.sched.set ?_ ?_ ?_ ?_ fun c' => (usbHostUnlink_devAddr _).trans (hc.sched.heads c')
    · exact hpath.unlink hnodup (usbHostUnlink_next_prev hprev)
        fun k hkp hkx => usbHostUnlink_next_of_ne hkp hkx
    · exact List.Nodup.sublist ((List.sublist_cons_self x zs).append_left pre |>.cons_cons _) hnodup
    · intro y hy
      refine Or.inl ?_
      rw [hmem]
      rcases List.mem_append.mp hy with hy | hy
      · exact List.mem_append_left _ hy
      · exact List.mem_append_right pre (List.mem_cons_of_mem x hy)
    · intro c'' hne'' k hk
      refine usbHostUnlink_next_of_ne ?_ ?_
      · rintro rfl
        exact hc.sched.apart c'' c hne'' hk hprevmem
      · rintro rfl
        exact hc.sched.apart c'' c hne'' hk (List.mem_cons_of_mem _ hxmem)
  · have hnext : ((usbHostUnlink h c'.head (lastNode c.head pre) x).qhd
        (lastNode c.head pre)).next = (h.qhd x).next := usbHostUnlink_next_prev hprev
    rw [usbHostListRemoveLoop, hc.next_eq hmem]
    simp [UsbLink.to, hne, hdev, hnext]

end OnePass

/-! ## One list -/

section OneList

variable {h₀ : UsbHost} {devAddr : BitVec 8}

/-- The loop sweeps the rest of a list, whichever head it was started for. -/
theorem Closing.segment {c c' : UsbList} (zs : List UsbNode) : ∀ (h : UsbHost)
    (mem : UsbList → List UsbNode) (pre : List UsbNode), Closing h₀ h mem → mem c = pre ++ zs →
      ∃ k h' seen', Closing h₀ h' (setMembers mem c (pre ++ Sweep.sweep (h₀.owned devAddr) zs)) ∧
        (∀ n ∈ seen', n ∈ c.head :: mem c) ∧
        ∀ n seen,
          usbHostListRemoveLoop c'.head devAddr (n + k) h (some (lastNode c.head pre)) seen =
          usbHostListRemoveLoop c'.head devAddr n h'
            (if Sweep.dropsLast (h₀.owned devAddr) zs then c.tail.address
              else some (lastNode c.head (pre ++ Sweep.sweep (h₀.owned devAddr) zs)))
            (seen ++ seen') := by
  have hseen : ∀ {mem : UsbList → List UsbNode} {pre zs : List UsbNode} {x : UsbNode},
      mem c = pre ++ x :: zs → ∀ n ∈ [lastNode c.head pre, x], n ∈ c.head :: mem c := by
    intro mem pre zs x hmem n hn
    rw [hmem]
    rcases List.mem_cons.mp hn with rfl | hn
    · exact List.mem_append_left (x :: zs) (lastNode_mem c.head pre)
    · rw [List.mem_singleton.mp hn]
      exact List.mem_cons_of_mem _ (List.mem_append_right pre List.mem_cons_self)
  induction zs using Sweep.sweep.induct (h₀.owned devAddr) with
  | case1 =>
    intro h mem pre hc hmem
    refine ⟨0, h, [], ?_, fun _ hn => absurd hn List.not_mem_nil, fun n seen => ?_⟩
    · rw [Sweep.sweep, setMembers_eq hmem]
      exact hc
    · rw [Sweep.dropsLast, if_neg Bool.false_ne_true, Sweep.sweep, List.append_nil,
        List.append_nil]
      rfl
  | case2 x hx =>
    intro h mem pre hc hmem
    obtain ⟨hc', hloop⟩ := hc.pass_remove c' hmem hx
    have hnext : (h.qhd x).next = c.tail := (hmem ▸ hc.sched.path c).next_last.2
    rw [Sweep.sweep, if_pos hx, Sweep.dropsLast, if_pos hx, ← hnext]
    exact ⟨1, _, _, hc', hseen hmem, hloop⟩
  | case3 x hx =>
    intro h mem pre hc hmem
    have hloop := hc.pass_keep c' hmem (Bool.eq_false_iff.mpr hx)
    rw [Sweep.sweep, if_neg hx, Sweep.dropsLast, if_neg hx, setMembers_eq hmem, lastNode_snoc]
    exact ⟨1, h, _, hc, hseen hmem, hloop⟩
  | case4 x y ys hx ih =>
    intro h mem pre hc hmem
    obtain ⟨hc', hloop⟩ := hc.pass_remove c' hmem hx
    have hnext : (h.qhd x).next = UsbLink.to y := (hmem ▸ hc.sched.path c).next_last.2.1
    obtain ⟨k, h', seen', hc'', hsub, hrest⟩ := ih _ _ (pre ++ [y]) hc' (by
      rw [setMembers_self, List.append_assoc]
      rfl)
    rw [setMembers_setMembers, List.append_assoc, List.singleton_append] at hc''
    rw [setMembers_self] at hsub
    rw [lastNode_snoc, List.append_assoc, List.singleton_append] at hrest
    rw [Sweep.sweep, if_pos hx, Sweep.dropsLast, if_pos hx]
    refine ⟨k + 1, h', [lastNode c.head pre, x] ++ seen', hc'', fun n hn => ?_, fun n seen => ?_⟩
    · rcases List.mem_append.mp hn with hn | hn
      · exact hseen hmem n hn
      · rw [hmem]
        rcases List.mem_cons.mp (hsub n hn) with rfl | hn
        · exact List.mem_cons_self
        · refine List.mem_cons_of_mem _ ?_
          rcases List.mem_append.mp hn with hn | hn
          · exact List.mem_append_left _ hn
          · exact List.mem_append_right pre (List.mem_cons_of_mem x hn)
    · rw [← Nat.add_assoc, hloop, hnext, ← List.append_assoc, ← hrest]
      rfl
  | case5 x y ys hx ih =>
    intro h mem pre hc hmem
    have hloop := hc.pass_keep c' hmem (Bool.eq_false_iff.mpr hx)
    obtain ⟨k, h', seen', hc'', hsub, hrest⟩ := ih h mem (pre ++ [x]) hc (by
      rw [hmem, List.append_assoc]
      rfl)
    rw [List.append_assoc, List.singleton_append] at hc''
    rw [lastNode_snoc, List.append_assoc, List.singleton_append] at hrest
    rw [Sweep.sweep, if_neg hx, Sweep.dropsLast, if_neg hx]
    refine ⟨k + 1, h', [lastNode c.head pre, x] ++ seen', hc'', fun n hn => ?_, fun n seen => ?_⟩
    · rcases List.mem_append.mp hn with hn | hn
      · exact hseen hmem n hn
      · exact hsub n hn
    · rw [← Nat.add_assoc, hloop, ← List.append_assoc, ← hrest]

variable (devAddr) in
/-- The same for a whole list, from its head on. -/
theorem Closing.sweep {h : UsbHost} {mem : UsbList → List UsbNode} (hc : Closing h₀ h mem)
    (c c' : UsbList) :
      ∃ k h' seen', Closing h₀ h' (setMembers mem c (Sweep.sweep (h₀.owned devAddr) (mem c))) ∧
        (∀ n ∈ seen', n ∈ c.head :: mem c) ∧
        ∀ n seen, usbHostListRemoveLoop c'.head devAddr (n + k) h (some c.head) seen =
          usbHostListRemoveLoop c'.head devAddr n h'
            (if Sweep.dropsLast (h₀.owned devAddr) (mem c) then c.tail.address
              else some (lastNode c.head (Sweep.sweep (h₀.owned devAddr) (mem c))))
            (seen ++ seen') :=
  Closing.segment (mem c) h mem [] hc rfl

/-- Where the loop stands when a sweep did not remove the last queue head. -/
theorem Closing.next_tail {h : UsbHost} {mem : UsbList → List UsbNode} (hc : Closing h₀ h mem)
    (c : UsbList) : (h.qhd (lastNode c.head (mem c))).next = c.tail := by
  have hpath := hc.sched.path c
  rw [← List.append_nil (mem c)] at hpath
  exact hpath.next_last

theorem lastNode_sweep_mem {m : UsbNode → Bool} (n : UsbNode) (xs : List UsbNode) :
    lastNode n (Sweep.sweep m xs) ∈ n :: xs :=
  ((Sweep.sweep_sublist m xs).cons_cons n).subset (lastNode_mem n _)

variable (devAddr) in
/-- The loop ends behind a sweep that kept the last queue head, where the tail is a
terminator or refers to the head it was started for. -/
theorem Closing.sweep_stop {h : UsbHost} {mem : UsbList → List UsbNode} (hc : Closing h₀ h mem)
    {c c' : UsbList} (hkept : Sweep.trail (h₀.owned devAddr) (mem c) % 2 = 0)
    (hstop : c.tail.terminate = true ∨ c.tail.address = some c'.head) :
      ∃ k h' seen', Closing h₀ h' (setMembers mem c (Sweep.sweep (h₀.owned devAddr) (mem c))) ∧
        (∀ n ∈ seen', n ∈ c.head :: mem c) ∧
        ∀ n seen, usbHostListRemoveLoop c'.head devAddr (n + k) h (some c.head) seen =
          some (h', seen ++ seen') := by
  have hdrop : Sweep.dropsLast (h₀.owned devAddr) (mem c) = false := by
    rw [Bool.eq_false_iff, Ne, Sweep.dropsLast_iff, hkept]
    decide
  obtain ⟨k, h', seen', hc', hsub, hloop⟩ := hc.sweep devAddr c c'
  have hnext := hc'.next_tail c
  rw [setMembers_self] at hnext
  refine ⟨k + 1, h', seen' ++ [lastNode c.head (Sweep.sweep (h₀.owned devAddr) (mem c))], hc',
    fun n hn => ?_, fun n seen => ?_⟩
  · rcases List.mem_append.mp hn with hn | hn
    · exact hsub n hn
    · exact List.mem_singleton.mp hn ▸ lastNode_sweep_mem c.head (mem c)
  · rw [Nat.add_comm k 1, ← Nat.add_assoc, hloop, hdrop, if_neg Bool.false_ne_true,
      usbHostListRemoveLoop]
    dsimp only
    rw [hnext, if_pos hstop, List.append_assoc]

end OneList

/-! ## The lists one after another -/

section Lists

variable {h₀ h : UsbHost} {mem : UsbList → List UsbNode} {devAddr : BitVec 8}

variable (devAddr) in
/-- The asynchronous list is swept until the run at its end has even length. -/
theorem Closing.async (t : Nat) : ∀ (h : UsbHost) (mem : UsbList → List UsbNode),
    Closing h₀ h mem → Sweep.trail (h₀.owned devAddr) (mem .async) + 1 = 2 ^ t →
    Sweep.maxRun (h₀.owned devAddr) (mem .async) < 2 ^ (t + 1) →
      ∃ k h' seen',
        Closing h₀ h' (setMembers mem .async ((mem .async).filter fun n => !h₀.owned devAddr n)) ∧
        (∀ n ∈ seen', n ∈ UsbList.async.head :: mem .async) ∧
        ∀ n seen, usbHostListRemoveLoop UsbList.async.head devAddr (n + k) h
          (some UsbList.async.head) seen = some (h', seen ++ seen') := by
  induction t with
  | zero =>
    intro h mem hc htrail hrun
    have htrail0 : Sweep.trail (h₀.owned devAddr) (mem .async) = 0 := by
      rw [pow_zero] at htrail
      omega
    rw [← Sweep.sweep_eq_filter _ hrun]
    exact Closing.sweep_stop devAddr hc (by rw [htrail0]) (Or.inr rfl)
  | succ t ih =>
    intro h mem hc htrail hrun
    have hdrop : Sweep.dropsLast (h₀.owned devAddr) (mem .async) = true := by
      rw [Sweep.dropsLast_iff]
      rw [pow_succ] at htrail
      omega
    obtain ⟨k, h', seen', hc', hsub, hloop⟩ := hc.sweep devAddr .async .async
    obtain ⟨k₂, h₂, seen₂, hc₂, hsub₂, hloop₂⟩ := ih h' _ hc'
      (by
        rw [setMembers_self, Sweep.trail_sweep]
        rw [pow_succ] at htrail
        omega)
      (by
        rw [setMembers_self, Sweep.maxRun_sweep]
        rw [pow_succ] at hrun
        omega)
    rw [setMembers_self, setMembers_setMembers, Sweep.sweep_filter] at hc₂
    rw [setMembers_self] at hsub₂
    refine ⟨k₂ + k, h₂, seen' ++ seen₂, hc₂, fun n hn => ?_, fun n seen => ?_⟩
    · rcases List.mem_append.mp hn with hn | hn
      · exact hsub n hn
      · rcases List.mem_cons.mp (hsub₂ n hn) with heq | hmem
        · exact heq ▸ List.mem_cons_self
        · exact List.mem_cons_of_mem _ ((Sweep.sweep_sublist _ _).subset hmem)
    · rw [← Nat.add_assoc, hloop, hdrop, if_pos rfl, ← List.append_assoc]
      exact hloop₂ n (seen ++ seen')

variable (devAddr) in
/-- The 1 ms list, reached from any periodic head, is swept up to its terminator. -/
theorem Closing.oneMs (hc : Closing h₀ h mem)
    (htrail : Sweep.trail (h₀.owned devAddr) (mem (.period usbPeriod1ms)) = 0) (c' : UsbList) :
    ∃ k h' seen', Closing h₀ h' (setMembers mem (.period usbPeriod1ms)
        (Sweep.sweep (h₀.owned devAddr) (mem (.period usbPeriod1ms)))) ∧
      (∀ n ∈ seen', n ∈ (UsbList.period usbPeriod1ms).head :: mem (.period usbPeriod1ms)) ∧
      ∀ n seen, usbHostListRemoveLoop c'.head devAddr (n + k) h
        (some (UsbList.period usbPeriod1ms).head) seen = some (h', seen ++ seen') :=
  hc.sweep_stop devAddr (by rw [htrail]) (Or.inl rfl)

/-- A longer period is swept, and the 1 ms list behind it once more. -/
theorem Closing.longer (hc : Closing h₀ h mem) (haddr : devAddr ≠ 0)
    (htrail : Sweep.trail (h₀.owned devAddr) (mem (.period usbPeriod1ms)) = 0)
    {i : Fin usbHcdPeriodicArrCount} (hi : i ≠ usbPeriod1ms) :
    ∃ k h' seen', Closing h₀ h' (setMembers (setMembers mem (.period i)
        (Sweep.sweep (h₀.owned devAddr) (mem (.period i)))) (.period usbPeriod1ms)
          (Sweep.sweep (h₀.owned devAddr) (mem (.period usbPeriod1ms)))) ∧
      (∀ n ∈ seen', n ∈ (UsbList.period i).head :: mem (.period i) ∨
        n ∈ (UsbList.period usbPeriod1ms).head :: mem (.period usbPeriod1ms)) ∧
      ∀ n seen, usbHostListRemoveLoop (UsbList.period i).head devAddr (n + k) h
        (some (UsbList.period i).head) seen = some (h', seen ++ seen') := by
  have hne : UsbList.period usbPeriod1ms ≠ .period i := fun hc => hi (UsbList.period.inj hc).symm
  have htail : (UsbList.period i).tail = UsbLink.to (.period usbPeriod1ms) := if_neg hi
  obtain ⟨k, h', seen', hc', hsub, hloop⟩ := hc.sweep devAddr (.period i) (.period i)
  have hmem0 : setMembers mem (.period i) (Sweep.sweep (h₀.owned devAddr) (mem (.period i)))
      (.period usbPeriod1ms) = mem (.period usbPeriod1ms) := setMembers_of_ne hne
  obtain ⟨k₂, h₂, seen₂, hc₂, hsub₂, hloop₂⟩ :=
    hc'.oneMs devAddr (by rw [hmem0]; exact htrail) (.period i)
  rw [hmem0] at hc₂ hsub₂
  by_cases hdrop : Sweep.dropsLast (h₀.owned devAddr) (mem (.period i)) = true
  · -- the loop goes on with the 1 ms head
    refine ⟨k₂ + k, h₂, seen' ++ seen₂, hc₂, fun n hn => ?_, fun n seen => ?_⟩
    · exact (List.mem_append.mp hn).imp (hsub n) (hsub₂ n)
    · rw [← Nat.add_assoc, hloop, if_pos hdrop, htail, ← List.append_assoc]
      exact hloop₂ n (seen ++ seen')
  · -- one pass more, over the 1 ms head
    have hnext := hc'.next_tail (.period i)
    rw [setMembers_self, htail] at hnext
    have hhead : (h'.qhd (.period usbPeriod1ms)).devAddr = 0 :=
      hc'.sched.heads (.period usbPeriod1ms)
    refine ⟨k₂ + (k + 1), h₂, seen' ++ [lastNode (UsbList.period i).head
      (Sweep.sweep (h₀.owned devAddr) (mem (.period i))), .period usbPeriod1ms] ++ seen₂, hc₂,
      fun n hn => ?_, fun n seen => ?_⟩
    · rcases List.mem_append.mp hn with hn | hn
      · rcases List.mem_append.mp hn with hn | hn
        · exact Or.inl (hsub n hn)
        · rcases List.mem_cons.mp hn with rfl | hn
          · exact Or.inl (lastNode_sweep_mem _ _)
          · exact Or.inr (List.mem_singleton.mp hn ▸ List.mem_cons_self)
      · exact Or.inr (hsub₂ n hn)
    · have hi' : (UsbList.period i).head ≠ .period usbPeriod1ms :=
        fun hc => hi (UsbNode.period.inj hc)
      rw [Nat.add_comm k 1, ← Nat.add_assoc, ← Nat.add_assoc, hloop, if_neg hdrop,
        usbHostListRemoveLoop]
      dsimp only
      rw [hnext]
      simp only [UsbLink.to, Bool.false_eq_true, Option.some.injEq, hi'.symm, or_self, if_false,
        hhead]
      have hzero : ¬ BitVec.setWidth 8 (0 : BitVec 7) = devAddr := fun hz => haddr hz.symm
      rw [if_neg hzero]
      rw [← List.append_assoc, ← List.append_assoc]
      exact hloop₂ n _

end Lists

end HpmSdk.Usb
