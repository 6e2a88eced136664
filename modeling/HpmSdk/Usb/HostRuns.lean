import HpmSdk.Usb.HostDevice
import HpmSdk.Foundation.Run

set_option autoImplicit false

/-!
# USB host: runs of the schedule

Endpoints are opened, devices closed, and interrupts come in between.  While
every open takes a queue head that is not linked and every close meets a device
whose queue heads the sweeps reach, the schedule stays well formed.
-/

namespace HpmSdk.Usb

open HpmSdk.Foundation

/-! ## Opening an endpoint -/

/-- An open takes a queue head that is in no list, or it is one of the control
endpoint of device 0, whose queue head is the head of the asynchronous list. -/
def UsbHost.OpensFree (h : UsbHost) (devAddr : BitVec 8) (desc : UsbDescEndpoint) : Prop :=
  desc.xfer = .isochronous ∨ ∀ n ∈ usbHostOpenQhd h devAddr desc,
    ¬ h.Linked n ∨ (n = usbHostQhdAsyncHead ∧ desc.xfer ≠ .interrupt)

instance (h : UsbHost) (devAddr : BitVec 8) (desc : UsbDescEndpoint) :
    Decidable (h.OpensFree devAddr desc) := by
  unfold UsbHost.OpensFree
  exact inferInstance

/-- An endpoint is linked behind one of the five heads. -/
theorem usbHostOpenHead_eq (xfer : UsbXfer) (intervalMs : BitVec 8) :
    ∃ c : UsbList, usbHostOpenHead xfer intervalMs = c.head := by
  unfold usbHostOpenHead usbHostGetPeriodHead
  split
  · exact ⟨.period _, rfl⟩
  · exact ⟨.async, rfl⟩

/-- Inserting a queue head that is in no list makes it the first of one. -/
theorem Sched.insert {h : UsbHost} {mem : UsbList → List UsbNode} (hs : Sched h mem)
    {n : UsbNode} (hn : ∀ c : UsbList, n ∉ c.head :: mem c) (c : UsbList) :
    Sched (usbHostListInsert h c.head n) (setMembers mem c (n :: mem c)) := by
  have hne : c.head ≠ n := fun hc => hn c (hc ▸ List.mem_cons_self)
  have hhead : ((usbHostListInsert h c.head n).qhd c.head).next = UsbLink.to n := by
    unfold usbHostListInsert
    exact UsbHost.setNext_next _ _
  have hnew : ((usbHostListInsert h c.head n).qhd n).next = (h.qhd c.head).next := by
    unfold usbHostListInsert
    rw [UsbHost.setNext_of_ne _ _ hne.symm, UsbHost.setNext_next]
  have hother : ∀ k, k ≠ n → k ≠ c.head →
      ((usbHostListInsert h c.head n).qhd k).next = (h.qhd k).next := by
    intro k hkn hkc
    unfold usbHostListInsert
    rw [UsbHost.setNext_of_ne _ _ hkc, UsbHost.setNext_of_ne _ _ hkn]
  have hdev : ∀ k, ((usbHostListInsert h c.head n).qhd k).devAddr = (h.qhd k).devAddr := by
    intro k
    unfold usbHostListInsert
    simp
  have hin : ∀ c' : UsbList, ∀ k ∈ c'.head :: mem c', k ≠ n := fun c' k hk hc => hn c' (hc ▸ hk)
  refine hs.set ?_ ?_ ?_ ?_ fun c' => (hdev _).trans (hs.heads c')
  · refine ⟨hhead, ?_⟩
    have hpath := hs.path c
    cases hm : mem c with
    | nil =>
      rw [hm] at hpath
      exact hnew.trans hpath
    | cons x xs =>
      rw [hm] at hpath
      refine ⟨hnew.trans hpath.1, hpath.2.congr fun k hk => hother k ?_ ?_⟩
      · exact hin c k (hm ▸ List.mem_cons_of_mem _ hk)
      · rintro rfl
        exact hs.head_not_mem c c (hm ▸ hk)
  · have hnodup := hs.nodup c
    obtain ⟨hc, hrest⟩ := List.nodup_cons.mp hnodup
    refine List.nodup_cons.mpr ⟨?_, List.nodup_cons.mpr
      ⟨fun hmem => hn c (List.mem_cons_of_mem _ hmem), hrest⟩⟩
    intro hmem
    rcases List.mem_cons.mp hmem with heq | hmem
    · exact hne heq
    · exact hc hmem
  · intro x hx
    rcases List.mem_cons.mp hx with rfl | hx
    · exact Or.inr hn
    · exact Or.inl hx
  · intro c' hc' k hk
    refine hother k (hin c' k hk) ?_
    rintro rfl
    exact hs.apart c' c hc' hk List.mem_cons_self

/-- Setting up a queue head that is in no list and inserting it. -/
theorem Sched.insertSet {h : UsbHost} {mem : UsbList → List UsbNode} (hs : Sched h mem)
    {n : UsbNode} (hn : ∀ c : UsbList, n ∉ c.head :: mem c) (q : UsbQhd) (c : UsbList) :
    Sched (usbHostListInsert (h.setQhd n q) c.head n) (setMembers mem c (n :: mem c)) := by
  have hother : ∀ (c' : UsbList) (k : UsbNode), k ∈ c'.head :: mem c' → k ≠ n := by
    rintro c' k hk rfl
    exact hn c' hk
  have hset : Sched (h.setQhd n q) mem := by
    refine hs.congr (fun c' k hk => ?_) fun c' => ?_
    · rw [UsbHost.setQhd_of_ne _ _ (hother c' k hk)]
    · rw [UsbHost.setQhd_of_ne _ _ (hother c' _ List.mem_cons_self)]
      exact hs.heads c'
  exact hset.insert hn c

/-- Opening the control endpoint of device 0 again leaves its queue head alone in
the asynchronous list. -/
theorem Sched.reopen {h : UsbHost} {mem : UsbList → List UsbNode} (hs : Sched h mem) {q : UsbQhd}
    (hq : q.devAddr = 0) :
    Sched
      (usbHostListInsert (h.setQhd usbHostQhdAsyncHead q) usbHostQhdAsyncHead usbHostQhdAsyncHead)
      (setMembers mem .async []) := by
  refine hs.set ?_ (List.nodup_singleton _) (fun x hx => absurd hx List.not_mem_nil) ?_ ?_
  · unfold usbHostListInsert
    exact UsbHost.setNext_next _ _
  · intro c' hc' k hk
    have hkne : k ≠ usbHostQhdAsyncHead := by
      rintro rfl
      exact hs.apart c' .async hc' hk List.mem_cons_self
    unfold usbHostListInsert
    rw [UsbHost.setNext_of_ne _ _ hkne, UsbHost.setNext_of_ne _ _ hkne,
      UsbHost.setQhd_of_ne _ _ hkne]
  · intro c'
    unfold usbHostListInsert
    dsimp only
    rw [UsbHost.setNext_devAddr, UsbHost.setNext_devAddr]
    by_cases hc' : c'.head = usbHostQhdAsyncHead
    · rw [hc', UsbHost.setQhd_self, hq]
    · rw [UsbHost.setQhd_of_ne _ _ hc']
      exact hs.heads c'

theorem usbHostQhdInitInterval_devAddr {q q' : UsbQhd} {speed : UsbSpeed} {interval : Nat}
    (h : usbHostQhdInitInterval q speed interval = some q') : q'.devAddr = q.devAddr := by
  unfold usbHostQhdInitInterval at h
  split at h
  · split at h
    · cases h
    · split at h <;> cases h <;> rfl
  · split at h <;> cases h
    rfl

/-- A queue head that is set up has the address of its device. -/
theorem usbHostQhdInit_devAddr (q : UsbQhd) (devAddr : BitVec 8) (speed : UsbSpeed)
    (desc : UsbDescEndpoint) :
    (usbHostQhdInit q devAddr speed desc).2.devAddr = devAddr.setWidth 7 := by
  unfold usbHostQhdInit
  dsimp only
  split
  · rfl
  · rename_i q' hq'
    split at hq'
    · exact usbHostQhdInitInterval_devAddr hq'
    · cases hq'
      rfl

/-- The head of the asynchronous list is taken for the control endpoint of device 0 only. -/
theorem usbHostOpenQhd_head {h : UsbHost} {devAddr : BitVec 8} {desc : UsbDescEndpoint}
    (hopen : usbHostOpenQhd h devAddr desc = some usbHostQhdAsyncHead) : devAddr = 0 := by
  unfold usbHostOpenQhd at hopen
  split at hopen
  · split at hopen
    · have hval := congrArg Fin.val (UsbNode.control.inj (Option.some.inj hopen))
      exact BitVec.eq_of_toNat_eq hval
    · cases hopen
  · unfold usbHostQhdFindFree at hopen
    obtain ⟨i, -, hi⟩ := Option.map_eq_some_iff.mp hopen
    cases hi

/-- An open of a free queue head keeps the schedule well formed. -/
theorem Sched.open_step {h h' : UsbHost} (hs : Sched h h.members) {devAddr : BitVec 8}
    {speed : UsbSpeed} {desc : UsbDescEndpoint} {b : Bool} (hok : h.OpensFree devAddr desc)
    (hr : usbHostEdptOpen h devAddr speed desc = some (b, h')) : Sched h' h'.members := by
  unfold usbHostEdptOpen at hr
  split at hr
  · cases hr
    exact hs
  · rename_i hiso
    obtain ⟨n, hn, hr⟩ := Option.map_eq_some_iff.mp hr
    cases hr
    rcases hok.resolve_left hiso n hn with hfree | ⟨rfl, hint⟩
    · have hnot : ∀ c : UsbList, n ∉ c.head :: h.members c :=
        fun c hc => hfree ⟨c, UsbList.mem_all c, hc⟩
      obtain ⟨c, hc⟩ := usbHostOpenHead_eq desc.xfer
        (usbHostQhdInit (h.qhd n) devAddr speed desc).2.intervalMs
      have hins := hs.insertSet hnot (usbHostQhdInit (h.qhd n) devAddr speed desc).2 c
      rw [hc, hins.members_eq]
      exact hins
    · have hq : (usbHostQhdInit (h.qhd usbHostQhdAsyncHead) devAddr speed desc).2.devAddr = 0 := by
        rw [usbHostQhdInit_devAddr, usbHostOpenQhd_head hn]
        rfl
      have hhead : ∀ i, usbHostOpenHead desc.xfer i = usbHostQhdAsyncHead := fun i => if_neg hint
      have hre := hs.reopen hq
      rw [hhead, hre.members_eq]
      exact hre

/-! ## Runs -/

/-- What can happen next. -/
inductive UsbAct where
  | edptOpen (devAddr : BitVec 8) (speed : UsbSpeed) (desc : UsbDescEndpoint)
  /-- A transfer, or an interrupt about one: they change transfer descriptors only. -/
  | transfer
  | asyncAdvance
  | deviceClose (devAddr : BitVec 8) (passes : Nat)
  deriving DecidableEq, Repr

namespace UsbHost

def step (h : UsbHost) : UsbAct → Option UsbHost
  | .edptOpen devAddr speed desc => (usbHostEdptOpen h devAddr speed desc).map Prod.snd
  | .transfer => some h
  | .asyncAdvance => some (asyncAdvanceIsr h)
  | .deviceClose devAddr passes => (usbHostDeviceClose passes h devAddr).map Prod.fst

/-- Opens take free queue heads and closes reach all of theirs. -/
def Orderly (h : UsbHost) : UsbAct → Prop
  | .edptOpen devAddr _ desc => h.OpensFree devAddr desc
  | .transfer => True
  | .asyncAdvance => True
  | .deviceClose devAddr _ => devAddr = 0 ∨ h.Closable devAddr

instance (h : UsbHost) : ∀ a, Decidable (h.Orderly a)
  | .edptOpen devAddr _ desc => inferInstanceAs (Decidable (h.OpensFree devAddr desc))
  | .transfer => inferInstanceAs (Decidable True)
  | .asyncAdvance => inferInstanceAs (Decidable True)
  | .deviceClose devAddr _ => inferInstanceAs (Decidable (devAddr = 0 ∨ h.Closable devAddr))

end UsbHost

/-- The schedule that `usb_host_init` sets up. -/
theorem usbHostInit_sched : Sched usbHostInit fun _ => [] := by
  refine ⟨fun c => ?_, fun c => List.nodup_singleton _, fun c c' hne x hx hx' => ?_, fun c => ?_⟩
  · cases c with
    | async => rfl
    | period i =>
      change (usbHostInit.qhd (.period i)).next = (UsbList.period i).tail
      revert i
      decide
  · rw [List.mem_singleton] at hx hx'
    exact hne (UsbList.head_inj (hx.symm.trans hx'))
  · cases c with
    | async => rfl
    | period i =>
      change (usbHostInit.qhd (.period i)).devAddr = 0
      revert i
      decide

/-- `async_advance_isr` changes no link and no address. -/
theorem asyncAdvanceIsr_kept (h : UsbHost) (k : UsbNode) :
    ((asyncAdvanceIsr h).qhd k).next = (h.qhd k).next ∧
      ((asyncAdvanceIsr h).qhd k).devAddr = (h.qhd k).devAddr := by
  unfold asyncAdvanceIsr
  generalize List.finRange usbSocHcdMaxEndpointCount = is
  induction is generalizing h with
  | nil => exact ⟨rfl, rfl⟩
  | cons i is ih =>
    rw [List.foldl_cons]
    obtain ⟨hnext, hdev⟩ := ih (if (h.qhd (.pool i)).removing = true then
      h.setQhd (.pool i) { h.qhd (.pool i) with removing := false, used := false } else h)
    rw [hnext, hdev]
    split
    · by_cases hk : k = .pool i
      · subst hk
        rw [UsbHost.setQhd_self]
        exact ⟨rfl, rfl⟩
      · rw [UsbHost.setQhd_of_ne _ _ hk]
        exact ⟨rfl, rfl⟩
    · exact ⟨rfl, rfl⟩

/-- Every orderly step leaves a well-formed schedule. -/
theorem Sched.step {h h' : UsbHost} {a : UsbAct} (hs : Sched h h.members) (hok : h.Orderly a)
    (hstep : h.step a = some h') : Sched h' h'.members := by
  cases a with
  | edptOpen devAddr speed desc =>
    obtain ⟨⟨b, h₂⟩, hr, rfl⟩ := Option.map_eq_some_iff.mp hstep
    exact hs.open_step hok hr
  | transfer =>
    cases hstep
    exact hs
  | asyncAdvance =>
    cases hstep
    have hs' : Sched (asyncAdvanceIsr h) h.members :=
      hs.congr (fun c k _ => (asyncAdvanceIsr_kept h k).1)
        fun c => (asyncAdvanceIsr_kept h _).2.trans (hs.heads c)
    rw [hs'.members_eq]
    exact hs'
  | deviceClose devAddr passes =>
    obtain ⟨⟨h₂, seen⟩, hr, rfl⟩ := Option.map_eq_some_iff.mp hstep
    exact hs.close_step hok hr

end HpmSdk.Usb
