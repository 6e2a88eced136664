import HpmSdk.Usb.HostRuns

set_option autoImplicit false

/-!
# USB host: what closing a device does to the schedule

The contract of `usb_host_device_close` in terms of what is reachable from the
list heads, the runs that meet it and two that do not.

The run follows by the rule for runs from the step of `HostRuns`.
-/

namespace HpmSdk.Usb

open HpmSdk.Foundation

/-! ## The contract -/

/-- What is reachable from the head of the asynchronous list, which it returns to. -/
def AsyncList (h : UsbHost) (xs : List UsbNode) : Prop :=
  Path h usbHostQhdAsyncHead xs (UsbLink.to usbHostQhdAsyncHead) ∧ usbHostQhdAsyncHead ∉ xs

/-- What is reachable from a periodic head up to the terminator. -/
def PeriodList (h : UsbHost) (i : Fin usbHcdPeriodicArrCount) (xs : List UsbNode) : Prop :=
  Path h (.period i) xs ⟨none, true⟩

/-- A queue head is reachable from a list head. -/
def Listed (h : UsbHost) (n : UsbNode) : Prop :=
  (∃ xs, AsyncList h xs ∧ n ∈ usbHostQhdAsyncHead :: xs) ∨
    ∃ i xs, PeriodList h i xs ∧ n ∈ UsbNode.period i :: xs

/-- Of every list exactly the queue heads of the device are gone, and only queue
heads of the schedule were followed. -/
structure Closed (h : UsbHost) (devAddr : BitVec 8) (h' : UsbHost) (seen : List UsbNode) :
    Prop where
  async : ∃ xs, AsyncList h xs ∧ AsyncList h' (xs.filter fun n => !h'.owned devAddr n)
  period : ∀ i, ∃ xs, PeriodList h i xs ∧ PeriodList h' i (xs.filter fun n => !h'.owned devAddr n)
  dev : ∀ n, (h'.qhd n).devAddr = (h.qhd n).devAddr
  followed : ∀ n ∈ seen, Listed h n

/-- A close ends, and does what it should. -/
def Closes (h : UsbHost) (devAddr : BitVec 8) : Prop :=
  ∃ passes h' seen, usbHostDeviceClose passes h devAddr = some (h', seen) ∧
    Closed h devAddr h' seen

section Reachable

variable {h : UsbHost} {mem : UsbList → List UsbNode}

/-- The whole of a periodic list, with the part that it shares. -/
def wholePeriod (mem : UsbList → List UsbNode) (i : Fin usbHcdPeriodicArrCount) : List UsbNode :=
  if i = usbPeriod1ms then mem (.period usbPeriod1ms)
  else mem (.period i) ++ .period usbPeriod1ms :: mem (.period usbPeriod1ms)

theorem Sched.asyncList (hs : Sched h mem) : AsyncList h (mem .async) :=
  ⟨hs.path .async, hs.head_not_mem .async .async⟩

theorem Sched.periodList (hs : Sched h mem) (i : Fin usbHcdPeriodicArrCount) :
    PeriodList h i (wholePeriod mem i) := by
  unfold PeriodList wholePeriod
  split
  · rename_i hi
    subst hi
    exact hs.path (.period usbPeriod1ms)
  · rename_i hi
    have hpath := hs.path (.period i)
    rw [show (UsbList.period i).tail = UsbLink.to (.period usbPeriod1ms) from if_neg hi] at hpath
    exact Path.append_iff.mpr ⟨hpath, hs.path (.period usbPeriod1ms)⟩

/-- A queue head of a list is reached from its head. -/
theorem Sched.listed (hs : Sched h mem) {c : UsbList} {n : UsbNode} (hn : n ∈ c.head :: mem c) :
    Listed h n := by
  cases c with
  | async => exact Or.inl ⟨_, hs.asyncList, hn⟩
  | period i =>
    refine Or.inr ⟨i, _, hs.periodList i, ?_⟩
    rcases List.mem_cons.mp hn with rfl | hn
    · exact List.mem_cons_self
    · refine List.mem_cons_of_mem _ ?_
      unfold wholePeriod
      split
      · rename_i hi
        exact hi ▸ hn
      · exact List.mem_append_left _ hn

end Reachable

/-- A close that reaches all queue heads of its device meets the contract. -/
theorem Sched.closes {h : UsbHost} (hs : Sched h h.members) {devAddr : BitVec 8}
    (haddr : devAddr ≠ 0) (hcl : h.Closable devAddr) : Closes h devAddr := by
  obtain ⟨k, h', mem', seen, hc, hmem, hseen, hclose⟩ := hs.close haddr hcl
  have howned : h'.owned devAddr = h.owned devAddr := by
    funext n
    unfold UsbHost.owned
    rw [hc.dev]
  have hzero : h.owned devAddr (.period usbPeriod1ms) = false := by
    have hdev : (h.qhd (.period usbPeriod1ms)).devAddr = 0 := hs.heads (.period usbPeriod1ms)
    unfold UsbHost.owned
    rw [hdev]
    exact decide_eq_false fun hz => haddr hz.symm
  refine ⟨0 + k, h', seen, hclose 0, ⟨_, hs.asyncList, ?_⟩, fun i => ⟨_, hs.periodList i, ?_⟩,
    hc.dev, fun n hn => ?_⟩
  · rw [howned, ← hmem .async]
    exact hc.sched.asyncList
  · have hwhole : (wholePeriod h.members i).filter (fun n => !h'.owned devAddr n) =
        wholePeriod mem' i := by
      rw [howned]
      unfold wholePeriod
      split
      · rw [hmem]
      · rw [List.filter_append, List.filter_cons, hzero, hmem, hmem]
        rfl
    rw [hwhole]
    exact hc.sched.periodList i
  · obtain ⟨c, hcn⟩ := hseen n hn
    exact hs.listed hcn

/-- After every orderly run from the schedule just set up, closing a device whose queue heads the
sweeps reach meets the contract.

An orderly run keeps the schedule one of linked lists with known members (`Sched`).  A sweep steps
over the queue head behind each one that it removes; `Closable` says of the lists that a further
sweep, or the end of the list, still reaches all of them, and that the 1 ms list does not end with
one, as its removal would leave a null pointer to be followed. -/
theorem usbHostDeviceClose_closes (acts : List UsbAct) {h : UsbHost} {devAddr : BitVec 8}
    (horderly : Along UsbHost.step UsbHost.Orderly usbHostInit acts)
    (hrun : run UsbHost.step usbHostInit acts = some h) (haddr : devAddr ≠ 0)
    (hcl : h.Closable devAddr) : Closes h devAddr := by
  have hinit : Sched usbHostInit usbHostInit.members := by
    rw [usbHostInit_sched.members_eq]
    exact usbHostInit_sched
  exact (run_invariant_along (P := fun h => Sched h h.members)
    (fun _ _ _ hs hok hstep => hs.step hok hstep) acts _ h hinit horderly hrun).closes haddr hcl

/-- A device with its control, two bulk and one interrupt endpoint behind another
device's interrupt endpoint. -/
def usbOneDevice : List UsbAct :=
  [.edptOpen 0 .high ⟨0, .control, 0⟩, .edptOpen 1 .high ⟨0, .control, 0⟩,
    .edptOpen 1 .high ⟨0x81, .bulk, 0⟩, .transfer, .edptOpen 1 .high ⟨0x02, .bulk, 0⟩,
    .edptOpen 2 .full ⟨0x81, .interrupt, 1⟩, .edptOpen 1 .full ⟨0x83, .interrupt, 8⟩]

theorem usbHostDeviceClose_closes_oneDevice : ∃ h,
    run UsbHost.step usbHostInit usbOneDevice = some h ∧ Closes h 1 :=
  ⟨_, rfl, usbHostDeviceClose_closes usbOneDevice (by decide) rfl (by decide) (by decide)⟩

/-- The first queue head behind the head of the asynchronous list is not one of the
closed device. -/
theorem Closed.first {h h' : UsbHost} {devAddr : BitVec 8} {seen : List UsbNode} {x : UsbNode}
    (hclosed : Closed h devAddr h' seen) (hnext : (h'.qhd usbHostQhdAsyncHead).next = UsbLink.to x)
    (hx : x ≠ usbHostQhdAsyncHead) : h'.owned devAddr x = false := by
  obtain ⟨xs, -, hpath, -⟩ := hclosed.async
  have hkept : ∀ y ∈ xs.filter fun n => !h'.owned devAddr n, h'.owned devAddr y = false := by
    intro y hy
    have hy' := (List.mem_filter.mp hy).2
    rwa [Bool.not_eq_true'] at hy'
  cases hys : xs.filter fun n => !h'.owned devAddr n with
  | nil =>
    rw [hys] at hpath
    have heq : UsbLink.to x = UsbLink.to usbHostQhdAsyncHead := hnext.symm.trans hpath
    cases heq
    exact absurd rfl hx
  | cons y ys =>
    rw [hys] at hpath
    have heq : UsbLink.to x = UsbLink.to y := hnext.symm.trans hpath.1
    cases heq
    exact hkept x (hys ▸ List.mem_cons_self)

/-- An interrupt endpoint of 1 ms alone: taking it out of the terminated list goes
on with `NULL`. -/
def usbInterruptOnly : List UsbAct := [.edptOpen 1 .full ⟨0x81, .interrupt, 1⟩]

/-- A control and a bulk endpoint, next to each other in the asynchronous list:
the one behind the removed one is stepped over. -/
def usbControlBulk : List UsbAct :=
  [.edptOpen 1 .high ⟨0, .control, 0⟩, .edptOpen 1 .high ⟨0x81, .bulk, 0⟩]

theorem usbHostDeviceClose_broken :
    (∃ h, run UsbHost.step usbHostInit usbInterruptOnly = some h ∧ ¬ Closes h 1) ∧
      ∃ h, run UsbHost.step usbHostInit usbControlBulk = some h ∧ ¬ Closes h 1 := by
  refine ⟨⟨_, rfl, ?_⟩, ⟨_, rfl, ?_⟩⟩
  · rintro ⟨passes, h', seen, hclose, -⟩
    cases passes with
    | zero => cases hclose
    | succ passes =>
      cases passes with
      | zero => cases hclose
      | succ passes => cases hclose
  · rintro ⟨passes, h', seen, hclose, hclosed⟩
    have hmore := usbHostDeviceClose_mono 2 hclose
    cases hmore
    have howned := hclosed.first rfl (x := .control 1) (by decide)
    cases howned

end HpmSdk.Usb
