import HpmSdk.Usb.HostRuns
import HpmSdk.Usb.HostSwept
import HpmSdk.Usb.Transfer
import Mathlib.Data.List.FinRange

set_option autoImplicit false

/-!
# USB host: opening endpoints

What an open does to the pool and the lists and what is found for an endpoint later,
over runs of opens, closes and async advances, and the opens for which that is as it
should be.
-/

namespace HpmSdk.Usb

open HpmSdk.Foundation

/-! ## The configuration -/

/-- What the configuration of the stack fixes: `HCD_MAX_ENDPOINT`, which counts the
endpoints of the classes, and `CFG_TUSB_HOST_DEVICE_MAX`. -/
structure TusbConfig where
  hcdMaxEndpoint : Nat
  hostDeviceMax : Nat
  hostDeviceMax_pos : 0 < hostDeviceMax

/-- What the loop of `async_advance_isr` does with a queue head. -/
def UsbHost.freeRemoved (h : UsbHost) (i : Fin usbSocHcdMaxEndpointCount) : UsbHost :=
  if (h.qhd (.pool i)).removing then
    h.setQhd (.pool i) { h.qhd (.pool i) with removing := false, used := false }
  else h

/-- `async_advance_isr` of a configuration: it goes up to `HCD_MAX_ENDPOINT`, not to the
size of the pool. -/
def asyncAdvanceIsrFor (cfg : TusbConfig) (h : UsbHost) : Option UsbHost :=
  (List.range cfg.hcdMaxEndpoint).foldlM
    (fun h i => if hlt : i < usbSocHcdMaxEndpointCount then some (h.freeRemoved ⟨i, hlt⟩) else none) h

/-- With as many endpoints as the pool has queue heads all of them are gone through. -/
theorem asyncAdvanceIsrFor_eq (cfg : TusbConfig) (h : UsbHost)
    (hcfg : cfg.hcdMaxEndpoint = usbSocHcdMaxEndpointCount) :
    asyncAdvanceIsrFor cfg h = some (asyncAdvanceIsr h) := by
  have hbody : (fun (h : UsbHost) (i : Fin usbSocHcdMaxEndpointCount) =>
      if hlt : i.val < usbSocHcdMaxEndpointCount then some (h.freeRemoved ⟨i.val, hlt⟩) else none) =
        fun h i => some (h.freeRemoved i) := by
    funext h i
    exact dif_pos i.isLt
  unfold asyncAdvanceIsrFor
  rw [hcfg, ← List.map_coe_finRange_eq_range, List.foldlM_map, hbody]
  exact List.foldlM_pure

/-! ## The contract -/

/-- The queue head of the pool is one for the endpoint. -/
def UsbHost.Holds (h : UsbHost) (i : Fin usbSocHcdMaxEndpointCount) (devAddr epAddr : BitVec 8) :
    Prop :=
  (h.qhd (.pool i)).devAddr.setWidth 8 = devAddr ∧
    epAddr = usbEdptAddr (h.qhd (.pool i)).epNumber (h.qhd (.pool i)).pidIn

instance (h : UsbHost) (i : Fin usbSocHcdMaxEndpointCount) (devAddr epAddr : BitVec 8) :
    Decidable (h.Holds i devAddr epAddr) :=
  inferInstanceAs (Decidable (_ ∧ _))

/-- The interval that an interrupt endpoint asks for can be scheduled. -/
def UsbDescEndpoint.IntervalOk (desc : UsbDescEndpoint) (speed : UsbSpeed) : Prop :=
  desc.xfer = .interrupt →
    if speed = .high then desc.bInterval.toNat ≤ 16 else desc.bInterval.toNat ≠ 0

instance (desc : UsbDescEndpoint) (speed : UsbSpeed) : Decidable (desc.IntervalOk speed) := by
  unfold UsbDescEndpoint.IntervalOk
  exact inferInstance

/-- An open can be served. -/
def UsbHost.CanOpen (h : UsbHost) (devAddr : BitVec 8) (speed : UsbSpeed)
    (desc : UsbDescEndpoint) : Prop :=
  desc.xfer ≠ .isochronous ∧ desc.IntervalOk speed ∧ usbHostOpenQhd h devAddr desc ≠ none

/-- What is asked of an open. -/
structure UsbHost.OpenMeets (h : UsbHost) (devAddr : BitVec 8) (speed : UsbSpeed)
    (desc : UsbDescEndpoint) (b : Bool) (h' : UsbHost) : Prop where
  /-- One queue head is added, and every list keeps the others. -/
  added : b = true → ∃ n ∈ usbHostOpenQhd h devAddr desc, h'.Linked n ∧
    ∀ c, (h'.members c).erase n = (h.members c).erase n
  /-- No queue head that is linked or waits for the async advance is set up anew. -/
  kept : ∀ i, h.Linked (.pool i) ∨ (h.qhd (.pool i)).removing = true →
    (h.qhd (.pool i)).Relinked (h'.qhd (.pool i))
  refused : ¬ h.CanOpen devAddr speed desc → b = false ∧ h' = h

/-- An open ends, and does what it should. -/
def UsbHost.Opens (h : UsbHost) (devAddr : BitVec 8) (speed : UsbSpeed) (desc : UsbDescEndpoint) :
    Prop :=
  ∃ b h', usbHostEdptOpen h devAddr speed desc = some (b, h') ∧ h.OpenMeets devAddr speed desc b h'

/-- An endpoint, other than the control endpoint, and the queue head opened for it. -/
structure UsbOpened where
  devAddr : BitVec 8
  epAddr : BitVec 8
  node : UsbNode
  deriving DecidableEq, Repr

/-- The host, with the endpoints that were opened and not closed. -/
structure UsbOpens where
  host : UsbHost
  opened : List UsbOpened

namespace UsbOpens

/-- What an open adds. -/
def added (h : UsbHost) (devAddr : BitVec 8) (desc : UsbDescEndpoint) : List UsbOpened :=
  if desc.bEndpointAddress = 0 then []
  else ((usbHostOpenQhd h devAddr desc).map (⟨devAddr, desc.bEndpointAddress, ·⟩)).toList

def step (cfg : TusbConfig) (s : UsbOpens) : UsbAct → Option UsbOpens
  | .edptOpen devAddr speed desc =>
    (usbHostEdptOpen s.host devAddr speed desc).map fun r =>
      ⟨r.2, if r.1 then added s.host devAddr desc ++ s.opened else s.opened⟩
  | .transfer => some s
  | .asyncAdvance => (asyncAdvanceIsrFor cfg s.host).map (⟨·, s.opened⟩)
  | .deviceClose devAddr passes =>
    (usbHostDeviceClose passes s.host devAddr).map fun r =>
      ⟨r.1, s.opened.filter fun o => o.devAddr ≠ devAddr⟩

/-- After `usb_host_init`. -/
def init : UsbOpens := ⟨usbHostInit, []⟩

/-- The lists are well formed, and the queue head of every open endpoint is found. -/
structure Kept (s : UsbOpens) : Prop where
  lists : ∃ mem, Sched s.host mem
  found : ∀ o ∈ s.opened, usbHostQhdGetFromAddr s.host o.devAddr o.epAddr = some o.node

/-- What is asked of an action. -/
def Meets (cfg : TusbConfig) (s : UsbOpens) : UsbAct → Prop
  | .edptOpen devAddr speed desc => s.host.Opens devAddr speed desc
  | .asyncAdvance => asyncAdvanceIsrFor cfg s.host ≠ none
  | _ => True

end UsbOpens

/-! ## The opens that are served -/

/-- The queue head that an open takes is new: the control queue head of a device is not
linked, and that of device 0 alone in its list; for one of the pool the address is one of
a device and an endpoint, and no queue head that is found first is in use for it. -/
def UsbHost.TakesNew (h : UsbHost) (devAddr : BitVec 8) (desc : UsbDescEndpoint) : UsbNode → Prop
  | .pool i => devAddr.toNat < 128 ∧ desc.bEndpointAddress &&& 0x70 = 0 ∧
      ∀ j, (h.qhd (.pool j)).used = true → h.Holds j devAddr desc.bEndpointAddress →
        (h.qhd (.pool j)).removing = true ∧ i < j
  | n => ¬ h.Linked n ∨
      (n = usbHostQhdAsyncHead ∧ desc.xfer ≠ .interrupt ∧ h.members .async = [])

instance (h : UsbHost) (devAddr : BitVec 8) (desc : UsbDescEndpoint) :
    ∀ n, Decidable (h.TakesNew devAddr desc n)
  | .pool _ => inferInstanceAs (Decidable (_ ∧ _ ∧ _))
  | .control _ => inferInstanceAs (Decidable (_ ∨ _))
  | .period _ => inferInstanceAs (Decidable (_ ∨ _))

/-- An open is refused at once, or its interval is accepted and it takes a new queue head. -/
def UsbHost.Serves (h : UsbHost) (devAddr : BitVec 8) (speed : UsbSpeed) (desc : UsbDescEndpoint) :
    Prop :=
  desc.xfer = .isochronous ∨ (desc.IntervalOk speed ∧ (usbHostOpenQhd h devAddr desc).isSome ∧
    ∀ n ∈ usbHostOpenQhd h devAddr desc, h.TakesNew devAddr desc n)

instance (h : UsbHost) (devAddr : BitVec 8) (speed : UsbSpeed) (desc : UsbDescEndpoint) :
    Decidable (h.Serves devAddr speed desc) := by
  unfold UsbHost.Serves
  exact inferInstance

/-- Opens are served, and async advances stay within the pool. -/
def UsbOpens.Served (cfg : TusbConfig) (s : UsbOpens) : UsbAct → Prop
  | .edptOpen devAddr speed desc => s.host.Serves devAddr speed desc
  | .asyncAdvance => cfg.hcdMaxEndpoint ≤ usbSocHcdMaxEndpointCount
  | _ => True

instance (cfg : TusbConfig) (s : UsbOpens) : ∀ a, Decidable (s.Served cfg a)
  | .edptOpen devAddr speed desc => inferInstanceAs (Decidable (s.host.Serves devAddr speed desc))
  | .transfer => inferInstanceAs (Decidable True)
  | .asyncAdvance => inferInstanceAs (Decidable (_ ≤ _))
  | .deviceClose _ _ => inferInstanceAs (Decidable True)

/-! ## Searches of the pool -/

/-- A search of an array finds the first index. -/
theorem find?_finRange_eq_some {n : Nat} {p : Fin n → Bool} {i : Fin n} :
    (List.finRange n).find? p = some i ↔ p i = true ∧ ∀ j < i, p j = false := by
  rw [List.find?_eq_some_iff_getElem]
  refine and_congr_right fun _ => ⟨?_, fun hfirst => ?_⟩
  · rintro ⟨k, hk, hki, hfirst⟩ j hj
    rw [List.getElem_finRange] at hki
    have hjk : j.val < k := by
      have hval : k = i.val := congrArg Fin.val hki
      rw [hval]
      exact hj
    have hnot := hfirst j.val hjk
    rw [List.getElem_finRange, Bool.not_eq_true'] at hnot
    exact hnot
  · have hi : i.val < (List.finRange n).length := by
      rw [List.length_finRange]
      exact i.isLt
    refine ⟨i.val, hi, ?_, fun j hj => ?_⟩
    · rw [List.getElem_finRange]
      rfl
    · rw [List.getElem_finRange, Bool.not_eq_true']
      exact hfirst _ hj

/-- A free queue head is the first one that is not used. -/
theorem usbHostQhdFindFree_eq_some {h : UsbHost} {n : UsbNode} :
    usbHostQhdFindFree h = some n ↔ ∃ i, n = .pool i ∧ (h.qhd (.pool i)).used = false ∧
      ∀ j < i, (h.qhd (.pool j)).used = true := by
  unfold usbHostQhdFindFree
  rw [Option.map_eq_some_iff]
  refine exists_congr fun i => ?_
  rw [find?_finRange_eq_some]
  simp only [Bool.not_eq_true', Bool.not_eq_false']
  exact ⟨fun h => ⟨h.2.symm, h.1⟩, fun h => ⟨h.2, h.1.symm⟩⟩

/-- The queue head for an endpoint is the first one that is for it, used or not. -/
theorem usbHostQhdGetFromAddr_eq_some {h : UsbHost} {devAddr epAddr : BitVec 8}
    {i : Fin usbSocHcdMaxEndpointCount} :
    usbHostQhdGetFromAddr h devAddr epAddr = some (.pool i) ↔
      h.Holds i devAddr epAddr ∧ ∀ j < i, ¬ h.Holds j devAddr epAddr := by
  unfold usbHostQhdGetFromAddr
  rw [Option.map_eq_some_iff]
  constructor
  · rintro ⟨k, hk, hki⟩
    obtain rfl := UsbNode.pool.inj hki
    obtain ⟨hholds, hfirst⟩ := find?_finRange_eq_some.mp hk
    exact ⟨of_decide_eq_true hholds, fun j hj => of_decide_eq_false (hfirst j hj)⟩
  · rintro ⟨hholds, hfirst⟩
    exact ⟨i, find?_finRange_eq_some.mpr
      ⟨decide_eq_true hholds, fun j hj => decide_eq_false (hfirst j hj)⟩, rfl⟩

/-! ## Setting up a queue head -/

theorem usbHostQhdInitInterval_isSome {desc : UsbDescEndpoint} {speed : UsbSpeed} (q : UsbQhd)
    (hint : desc.xfer = .interrupt) (hok : desc.IntervalOk speed) :
    ∃ q', usbHostQhdInitInterval q speed desc.bInterval.toNat = some q' ∧
      q'.devAddr = q.devAddr ∧ q'.epNumber = q.epNumber := by
  have hok := hok hint
  unfold usbHostQhdInitInterval
  split
  · rename_i hspeed
    rw [if_pos hspeed] at hok
    rw [if_neg (Nat.not_lt.mpr hok)]
    split
    · exact ⟨_, rfl, rfl, rfl⟩
    · exact ⟨_, rfl, rfl, rfl⟩
  · rename_i hspeed
    rw [if_neg hspeed] at hok
    rw [if_neg hok]
    exact ⟨_, rfl, rfl, rfl⟩

/-- What setting up a queue head leaves when the interval is accepted. -/
structure UsbQhd.IsFor (q : UsbQhd) (devAddr epAddr : BitVec 8) : Prop where
  used : q.used = true
  removing : q.removing = false
  devAddr : q.devAddr = devAddr.setWidth 7
  epNumber : q.epNumber = (epAddr &&& 0x7F).setWidth 4
  pidIn : q.pidIn = decide (epAddr &&& 0x80 ≠ 0)

/-- A queue head that is set up is for its endpoint. -/
theorem usbHostQhdInit_isFor (q : UsbQhd) (devAddr : BitVec 8) {speed : UsbSpeed}
    {desc : UsbDescEndpoint} (hok : desc.IntervalOk speed) :
    (usbHostQhdInit q devAddr speed desc).2.IsFor devAddr desc.bEndpointAddress := by
  unfold usbHostQhdInit
  dsimp only
  split
  · rename_i hnone
    split at hnone
    · rename_i hint
      obtain ⟨q', hq', -⟩ := usbHostQhdInitInterval_isSome
        { (if devAddr ≠ 0 then UsbQhd.zero else q) with
          devAddr := devAddr.setWidth 7
          epNumber := (desc.bEndpointAddress &&& 0x7F).setWidth 4 } hint hok
      rw [hq'] at hnone
      cases hnone
    · cases hnone
  · rename_i q' hq'
    split at hq'
    · rename_i hint
      obtain ⟨q'', hq'', hdev, hep⟩ := usbHostQhdInitInterval_isSome
        { (if devAddr ≠ 0 then UsbQhd.zero else q) with
          devAddr := devAddr.setWidth 7
          epNumber := (desc.bEndpointAddress &&& 0x7F).setWidth 4 } hint hok
      rw [hq''] at hq'
      obtain rfl := Option.some.inj hq'
      exact ⟨rfl, rfl, hdev, hep, rfl⟩
    · obtain rfl := Option.some.inj hq'
      exact ⟨rfl, rfl, rfl, rfl, rfl⟩

theorem UsbQhd.IsFor.relinked {q q' : UsbQhd} {devAddr epAddr : BitVec 8}
    (h : q.IsFor devAddr epAddr) (hrel : q.Relinked q') : q'.IsFor devAddr epAddr := by
  unfold UsbQhd.Relinked at hrel
  rw [hrel]
  exact ⟨h.used, h.removing, h.devAddr, h.epNumber, h.pidIn⟩

/-- The address of an endpoint without reserved bits. -/
theorem usbEdptAddr_split : ∀ epAddr : BitVec 8, epAddr &&& 0x70 = 0 →
    usbEdptAddr ((epAddr &&& 0x7F).setWidth 4) (decide (epAddr &&& 0x80 ≠ 0)) = epAddr := by
  decide +kernel

/-- A queue head that was set up is for its endpoint and no other. -/
theorem UsbQhd.IsFor.holds_iff {h : UsbHost} {i : Fin usbSocHcdMaxEndpointCount}
    {devAddr epAddr : BitVec 8} (hfor : (h.qhd (.pool i)).IsFor devAddr epAddr)
    (hdev : devAddr.toNat < 128) (hep : epAddr &&& 0x70 = 0) (devAddr' epAddr' : BitVec 8) :
    h.Holds i devAddr' epAddr' ↔ devAddr' = devAddr ∧ epAddr' = epAddr := by
  have hwidth : (devAddr.setWidth 7).setWidth 8 = devAddr := by
    refine BitVec.eq_of_toNat_eq ?_
    rw [BitVec.toNat_setWidth, BitVec.toNat_setWidth, Nat.mod_eq_of_lt hdev]
    exact Nat.mod_eq_of_lt devAddr.isLt
  unfold UsbHost.Holds
  rw [hfor.devAddr, hfor.epNumber, hfor.pidIn, hwidth, usbEdptAddr_split epAddr hep, eq_comm]

/-! ## What an open changes -/

section Open

variable {h : UsbHost} {devAddr : BitVec 8} {speed : UsbSpeed} {desc : UsbDescEndpoint}

/-- The host behind an open that takes `n`. -/
def usbHostOpened (h : UsbHost) (devAddr : BitVec 8) (speed : UsbSpeed) (desc : UsbDescEndpoint)
    (n : UsbNode) : UsbHost :=
  usbHostListInsert (h.setQhd n (usbHostQhdInit (h.qhd n) devAddr speed desc).2)
    (usbHostOpenHead desc.xfer (usbHostQhdInit (h.qhd n) devAddr speed desc).2.intervalMs) n

/-- An open that finds a queue head sets it up and links it. -/
theorem usbHostEdptOpen_of_some {n : UsbNode} (hiso : desc.xfer ≠ .isochronous)
    (hn : usbHostOpenQhd h devAddr desc = some n) :
    usbHostEdptOpen h devAddr speed desc = some (true, usbHostOpened h devAddr speed desc n) := by
  unfold usbHostEdptOpen
  rw [if_neg hiso, hn]
  rfl

/-- And changes nothing but links of the others. -/
theorem usbHostOpened_of_ne {n k : UsbNode} (hk : k ≠ n) :
    (h.qhd k).Relinked ((usbHostOpened h devAddr speed desc n).qhd k) := by
  unfold usbHostOpened
  generalize (usbHostQhdInit (h.qhd n) devAddr speed desc).2 = q
  have hset : ((h.setQhd n q).qhd k) = h.qhd k := UsbHost.setQhd_of_ne h q hk
  have hrel := usbHostListInsert_relinked (h.setQhd n q) k
    (usbHostOpenHead desc.xfer q.intervalMs) n
  rwa [hset] at hrel

theorem usbHostOpened_isFor (n : UsbNode) (hok : desc.IntervalOk speed) :
    ((usbHostOpened h devAddr speed desc n).qhd n).IsFor devAddr desc.bEndpointAddress := by
  have hfor := usbHostQhdInit_isFor (h.qhd n) devAddr hok
  unfold usbHostOpened
  generalize (usbHostQhdInit (h.qhd n) devAddr speed desc).2 = q at hfor ⊢
  have hset : ((h.setQhd n q).qhd n) = q := UsbHost.setQhd_self h q
  have hrel := usbHostListInsert_relinked (h.setQhd n q) n
    (usbHostOpenHead desc.xfer q.intervalMs) n
  rw [hset] at hrel
  exact hfor.relinked hrel

/-- What an open leaves of the lists. -/
structure UsbHost.Adds (h h' : UsbHost) (n : UsbNode) : Prop where
  sched : Sched h' h'.members
  linked : h'.Linked n
  lists : ∀ c, (h'.members c).erase n = (h.members c).erase n
  new : ∀ k, InList h'.members k → k = n ∨ InList h.members k

/-- A queue head that is in no list is linked into one. -/
theorem Sched.adds_fresh {n : UsbNode} (hs : Sched h h.members)
    (hfree : ∀ c : UsbList, n ∉ c.head :: h.members c) :
    h.Adds (usbHostOpened h devAddr speed desc n) n := by
  obtain ⟨c, hc⟩ := usbHostOpenHead_eq desc.xfer
    (usbHostQhdInit (h.qhd n) devAddr speed desc).2.intervalMs
  have hins := hs.insertSet hfree (usbHostQhdInit (h.qhd n) devAddr speed desc).2 c
  unfold usbHostOpened
  rw [hc]
  refine ⟨hins.members_eq ▸ hins, ⟨c, UsbList.mem_all c, ?_⟩, fun c' => ?_, fun k hk => ?_⟩
  · rw [hins.members_eq, setMembers_self]
    exact List.mem_cons_of_mem _ List.mem_cons_self
  · rw [hins.members_eq]
    by_cases hcc : c' = c
    · subst hcc
      have hnot : n ∉ h.members c' := fun hmem => hfree c' (List.mem_cons_of_mem _ hmem)
      rw [setMembers_self, List.erase_cons_head, List.erase_of_not_mem hnot]
    · rw [setMembers_of_ne hcc]
  · obtain ⟨c', hc'⟩ := hk
    rw [hins.members_eq] at hc'
    by_cases hcc : c' = c
    · subst hcc
      rw [setMembers_self] at hc'
      exact (List.mem_cons.mp hc').imp_right fun hmem => ⟨c', hmem⟩
    · rw [setMembers_of_ne hcc] at hc'
      exact Or.inr ⟨c', hc'⟩

/-- The head of the asynchronous list is linked to itself, and stays so. -/
theorem Sched.adds_head (hs : Sched h h.members)
    (hn : usbHostOpenQhd h devAddr desc = some usbHostQhdAsyncHead) (hint : desc.xfer ≠ .interrupt)
    (hempty : h.members .async = []) :
    h.Adds (usbHostOpened h devAddr speed desc usbHostQhdAsyncHead) usbHostQhdAsyncHead := by
  have hq : (usbHostQhdInit (h.qhd usbHostQhdAsyncHead) devAddr speed desc).2.devAddr = 0 := by
    rw [usbHostQhdInit_devAddr, usbHostOpenQhd_head hn]
    rfl
  have hre := hs.reopen hq
  have hhead : ∀ i, usbHostOpenHead desc.xfer i = usbHostQhdAsyncHead := fun i => if_neg hint
  rw [setMembers_eq hempty] at hre
  unfold usbHostOpened
  rw [hhead]
  have hmem := hre.members_eq
  refine ⟨hmem.symm ▸ hre, ⟨.async, UsbList.mem_all _, List.mem_cons_self⟩, fun c => ?_,
    fun k hk => Or.inr ?_⟩
  · rw [hmem]
  · rwa [hmem] at hk

end Open

end HpmSdk.Usb
