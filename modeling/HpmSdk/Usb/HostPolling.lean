import HpmSdk.Usb.HostOpenRuns

set_option autoImplicit false

/-!
# USB host: how often interrupt endpoints are polled

The frame list with the four heads is a tree whose branches share the 1 ms list.  An open inserts
behind a head, and the endpoint is polled in the frames of one residue class as long as its queue
head is in one list.  An interval that is refused leaves the queue head free in its list, where the
next open takes it again.
-/

namespace HpmSdk.Usb

open HpmSdk.Foundation

/-! ## The contract -/

/-- The queue heads that the controller goes through from a link on up to the terminator. -/
inductive UsbChain (h : UsbHost) : UsbLink → List UsbNode → Prop
  | stop (l : UsbLink) (hterm : l.terminate = true) : UsbChain h l []
  | visit (l : UsbLink) (n : UsbNode) (xs : List UsbNode) (hterm : l.terminate = false)
      (haddr : l.address = some n) (hrest : UsbChain h (h.qhd n).next xs) : UsbChain h l (n :: xs)

/-- An open of an interrupt endpoint. -/
structure UsbInterruptOpen where
  devAddr : BitVec 8
  speed : UsbSpeed
  desc : UsbDescEndpoint
  interrupt : desc.xfer = .interrupt
  endpoint : desc.bEndpointAddress ≠ 0

/-- The interval that the descriptor asks for, in whole milliseconds. -/
def UsbInterruptOpen.requestedMs (a : UsbInterruptOpen) : Nat :=
  if a.speed = .high then
    if a.desc.bInterval.toNat < 4 then 0 else 2 ^ (a.desc.bInterval.toNat - 4)
  else a.desc.bInterval.toNat

/-- The host, with the opens that succeeded and their queue heads. -/
structure UsbPolls where
  host : UsbHost
  opened : List (UsbInterruptOpen × UsbNode)

namespace UsbPolls

/-- After `usb_host_init`. -/
def init : UsbPolls := ⟨usbHostInit, []⟩

/-- An open that succeeds. -/
def step (s : UsbPolls) (a : UsbInterruptOpen) : Option UsbPolls :=
  (usbHostEdptOpen s.host a.devAddr a.speed a.desc).bind fun r =>
    if r.1 then
      some ⟨r.2, ((usbHostOpenQhd s.host a.devAddr a.desc).map (a, ·)).toList ++ s.opened⟩
    else none

end UsbPolls

/-- The largest power of two that is not above the interval and the size of the frame list, or
one frame for no interval. -/
def IsPollPeriod (intervalMs p : Nat) : Prop :=
  if intervalMs = 0 then p = 1
  else (∃ j, p = 2 ^ j) ∧ p ≤ min intervalMs usbHostFramelistSize ∧
    ∀ j, 2 ^ j ≤ min intervalMs usbHostFramelistSize → 2 ^ j ≤ p

/-- What is asked: the chain of every frame ends and visits no queue head twice, and an endpoint is
visited in the frames of one residue class modulo its period, not less often than requested. -/
structure UsbPolls.Holds (s : UsbPolls) : Prop where
  ends : ∀ i, ∃ xs, UsbChain s.host (s.host.framelist i) xs ∧ xs.Nodup
  polled : ∀ o ∈ s.opened, ∃ p r,
    IsPollPeriod (s.host.qhd o.2).intervalMs.toNat p ∧ p ≤ max 1 o.1.requestedMs ∧ r < p ∧
      ∀ i xs, UsbChain s.host (s.host.framelist i) xs → (o.2 ∈ xs ↔ i.val % p = r)

/-! ## Chains -/

section Chains

variable {h : UsbHost}

/-- What a list holds is determined by its links. -/
theorem UsbChain.unique {l : UsbLink} {xs ys : List UsbNode} (hx : UsbChain h l xs)
    (hy : UsbChain h l ys) : xs = ys := by
  induction hx generalizing ys with
  | stop l hterm =>
    cases hy with
    | stop => rfl
    | visit _ n ys hterm' => exact absurd hterm (by simp [hterm'])
  | visit l n xs hterm haddr hrest ih =>
    cases hy with
    | stop _ hterm' => exact absurd hterm' (by simp [hterm])
    | visit _ n' ys hterm' haddr' hrest' =>
      obtain rfl : n = n' := Option.some.inj (haddr.symm.trans haddr')
      rw [ih hrest']

/-- A path is the first part of a chain. -/
theorem Path.chain {n : UsbNode} {xs ys : List UsbNode} {e : UsbLink} (hp : Path h n xs e)
    (hc : UsbChain h e ys) : UsbChain h (UsbLink.to n) (n :: xs ++ ys) := by
  induction xs generalizing n with
  | nil =>
    refine .visit _ n _ rfl rfl ?_
    rw [show (h.qhd n).next = e from hp]
    exact hc
  | cons x xs ih =>
    refine .visit _ n _ rfl rfl ?_
    rw [hp.1]
    exact ih hp.2

/-- A chain starts with every path. -/
theorem UsbChain.path {n : UsbNode} {xs ys : List UsbNode} {e : UsbLink}
    (hc : UsbChain h (UsbLink.to n) ys) (hp : Path h n xs e) :
    ∃ zs, ys = n :: xs ++ zs ∧ UsbChain h e zs := by
  induction xs generalizing n ys with
  | nil =>
    cases hc with
    | stop _ hterm => cases hterm
    | visit _ m zs hterm haddr hrest =>
      cases haddr
      rw [show (h.qhd n).next = e from hp] at hrest
      exact ⟨zs, rfl, hrest⟩
  | cons x xs ih =>
    cases hc with
    | stop _ hterm => cases hterm
    | visit _ m zs hterm haddr hrest =>
      cases haddr
      rw [hp.1] at hrest
      obtain ⟨zs', rfl, hrest'⟩ := ih hrest hp.2
      exact ⟨zs', rfl, hrest'⟩

/-- A chain does not come back to where it was. -/
theorem UsbChain.no_cycle {n : UsbNode} {xs ys : List UsbNode} (hp : Path h n xs (UsbLink.to n)) :
    ¬ UsbChain h (UsbLink.to n) ys := by
  intro hc
  obtain ⟨zs, heq, hrest⟩ := hc.path hp
  have hlen : ys.length = (n :: xs ++ zs).length := congrArg List.length heq
  rw [← hc.unique hrest] at hlen
  simp at hlen
  omega

end Chains

/-! ## The tree -/

/-- The list that a frame starts with. -/
def usbFrameList (i : Fin usbHostFramelistSize) : Fin usbHcdPeriodicArrCount :=
  if i.val % 2 = 0 then 1 else if i.val % 4 = 1 then 2 else if i.val = 3 then 3 else 0

/-- The class of the frames that go through a list. -/
def usbListResidue (c : Fin usbHcdPeriodicArrCount) : Nat :=
  if c.val ≤ 1 then 0 else if c.val = 2 then 1 else 3

theorem usbHostInit_framelist (i : Fin usbHostFramelistSize) :
    usbHostInit.framelist i = UsbLink.to (.period (usbFrameList i)) := by
  revert i
  decide

/-- A frame goes through its own list and the one of 1 ms. -/
theorem usbFrameList_iff (i : Fin usbHostFramelistSize) (c : Fin usbHcdPeriodicArrCount) :
    (usbFrameList i = c ∨ c = usbPeriod1ms) ↔ i.val % 2 ^ c.val = usbListResidue c := by
  revert i c
  decide

/-- The frames of a list are one residue class of its period. -/
theorem usbListResidue_lt (c : Fin usbHcdPeriodicArrCount) : usbListResidue c < 2 ^ c.val := by
  revert c
  decide

/-- Every list is the one of a frame. -/
theorem exists_usbFrameList (c : Fin usbHcdPeriodicArrCount) : ∃ i, usbFrameList i = c := by
  revert c
  decide

/-- The list of an interval. -/
def usbIntervalList (intervalMs : BitVec 8) : Fin usbHcdPeriodicArrCount :=
  Fin.ofNat usbHcdPeriodicArrCount (usbLog2 (min usbHostFramelistSize intervalMs.toNat))

theorem usbIntervalList_val (intervalMs : BitVec 8) :
    (usbIntervalList intervalMs).val = Nat.log2 (min usbHostFramelistSize intervalMs.toNat) := by
  refine Nat.mod_eq_of_lt ?_
  rcases Nat.eq_zero_or_pos (min usbHostFramelistSize intervalMs.toNat) with hzero | hpos
  · rw [usbLog2, hzero]
    decide
  · rw [usbLog2, Nat.log2_lt (Nat.ne_of_gt hpos)]
    exact Nat.lt_of_le_of_lt (Nat.min_le_left _ _) (by decide)

/-- The list that is taken for an interval has the longest period within it. -/
theorem isPollPeriod_list (intervalMs : BitVec 8) :
    IsPollPeriod intervalMs.toNat (2 ^ (usbIntervalList intervalMs).val) := by
  unfold IsPollPeriod
  rw [usbIntervalList_val, Nat.min_comm]
  split
  · next hzero =>
    rw [hzero]
    rfl
  · next hpos =>
    have hne : min intervalMs.toNat usbHostFramelistSize ≠ 0 :=
      Nat.ne_of_gt (Nat.lt_min.mpr ⟨Nat.pos_of_ne_zero hpos, by decide⟩)
    refine ⟨⟨_, rfl⟩, Nat.log2_self_le hne, ?_⟩
    intro j hj
    exact Nat.pow_le_pow_right Nat.two_pos ((Nat.le_log2 hne).mpr hj)

/-- A period is at most the interval, and at least 1. -/
theorem IsPollPeriod.le {intervalMs p : Nat} (h : IsPollPeriod intervalMs p) :
    p ≤ max 1 intervalMs := by
  unfold IsPollPeriod at h
  split at h
  · rw [h]
    exact Nat.le_max_left _ _
  · exact Nat.le_trans h.2.1 (Nat.le_trans (Nat.min_le_left _ _) (Nat.le_max_right _ _))

/-! ## Setting up a queue head -/

/-- An interval is accepted and set to what is asked for, or less, or it is refused. -/
theorem usbHostQhdInitInterval_cases (q : UsbQhd) (a : UsbInterruptOpen) :
    (a.desc.IntervalOk a.speed ∧ ∃ q',
      usbHostQhdInitInterval q a.speed a.desc.bInterval.toNat = some q' ∧
        q'.intervalMs.toNat ≤ a.requestedMs) ∨
      (¬ a.desc.IntervalOk a.speed ∧
        usbHostQhdInitInterval q a.speed a.desc.bInterval.toNat = none) := by
  have hok : a.desc.IntervalOk a.speed ↔
      if a.speed = .high then a.desc.bInterval.toNat ≤ 16 else a.desc.bInterval.toNat ≠ 0 :=
    ⟨fun h => h a.interrupt, fun h _ => h⟩
  rw [hok]
  unfold usbHostQhdInitInterval UsbInterruptOpen.requestedMs
  by_cases hspeed : a.speed = .high
  · simp only [if_pos hspeed]
    by_cases hmax : a.desc.bInterval.toNat ≤ 16
    · refine .inl ⟨hmax, ?_⟩
      rw [if_neg (Nat.not_lt.mpr hmax)]
      by_cases hsub : a.desc.bInterval.toNat < 4
      · rw [if_pos hsub, if_pos hsub]
        exact ⟨_, rfl, Nat.le_refl 0⟩
      · rw [if_neg hsub, if_neg hsub]
        refine ⟨_, rfl, ?_⟩
        refine Nat.le_trans (Nat.mod_le _ _) (Nat.le_trans (Nat.min_le_left _ _) ?_)
        rw [Nat.one_shiftLeft]
    · exact .inr ⟨hmax, if_pos (Nat.lt_of_not_le hmax)⟩
  · simp only [if_neg hspeed]
    by_cases hzero : a.desc.bInterval.toNat = 0
    · exact .inr ⟨not_not.mpr hzero, if_pos hzero⟩
    · refine .inl ⟨hzero, _, if_neg hzero, ?_⟩
      exact Nat.mod_le _ _

/-- A free queue head that is set up: it is used where the interval is accepted, and free as before
where it is refused. -/
theorem usbHostQhdInit_cases {q : UsbQhd} (hused : q.used = false) (hq : q.intervalMs = 0)
    (a : UsbInterruptOpen) :
    (usbHostQhdInit q a.devAddr a.speed a.desc).2.intervalMs.toNat ≤ a.requestedMs ∧
      if a.desc.IntervalOk a.speed then
        (usbHostQhdInit q a.devAddr a.speed a.desc).2.used = true
      else (usbHostQhdInit q a.devAddr a.speed a.desc).2.used = false ∧
        (usbHostQhdInit q a.devAddr a.speed a.desc).2.intervalMs = 0 := by
  have hbase : ∀ q₀ : UsbQhd, q₀ = (if a.devAddr ≠ 0 then UsbQhd.zero else q) →
      q₀.used = false ∧ q₀.intervalMs = 0 := by
    rintro q₀ rfl
    split
    · exact ⟨rfl, rfl⟩
    · exact ⟨hused, hq⟩
  unfold usbHostQhdInit
  generalize (if a.devAddr ≠ 0 then UsbQhd.zero else q) = q₀ at hbase
  obtain ⟨hused₀, hq₀⟩ := hbase q₀ rfl
  simp only [a.interrupt, if_true]
  rcases usbHostQhdInitInterval_cases { q₀ with
      devAddr := a.devAddr.setWidth 7
      epNumber := (a.desc.bEndpointAddress &&& 0x7F).setWidth 4 } a with
    ⟨hok, q', hsome, hle⟩ | ⟨hok, hnone⟩
  · rw [hsome, if_pos hok]
    exact ⟨hle, rfl⟩
  · rw [hnone, if_neg hok]
    refine ⟨?_, hused₀, hq₀⟩
    rw [show q₀.intervalMs = 0 from hq₀]
    exact Nat.zero_le _

/-! ## Chains of a schedule -/

/-- The frames of a list. -/
def UsbNode.chain (mem : UsbList → List UsbNode) (c : Fin usbHcdPeriodicArrCount) : List UsbNode :=
  .period c :: mem (.period c) ++
    if c = usbPeriod1ms then [] else .period usbPeriod1ms :: mem (.period usbPeriod1ms)

section Tree

variable {h : UsbHost} {mem : UsbList → List UsbNode}

/-- In a well-formed schedule every list goes on into the 1 ms list. -/
theorem Sched.chain (hs : Sched h mem) (c : Fin usbHcdPeriodicArrCount) :
    UsbChain h (UsbLink.to (.period c)) (UsbNode.chain mem c) := by
  have hstop : UsbChain h ⟨none, true⟩ [] := .stop _ rfl
  have hroot := (hs.path (.period usbPeriod1ms)).chain hstop
  rw [List.append_nil] at hroot
  have hpath := hs.path (.period c)
  unfold UsbNode.chain
  by_cases hc : c = usbPeriod1ms
  · rw [if_pos hc, hc, List.append_nil]
    exact hroot
  · rw [if_neg hc]
    rw [UsbList.tail, if_neg hc] at hpath
    exact hpath.chain hroot

/-- No queue head is met twice on the way. -/
theorem Sched.chain_nodup (hs : Sched h mem) (c : Fin usbHcdPeriodicArrCount) :
    (UsbNode.chain mem c).Nodup := by
  have hc := hs.nodup (.period c)
  unfold UsbNode.chain
  by_cases h0 : c = usbPeriod1ms
  · rw [if_pos h0, List.append_nil]
    exact hc
  · rw [if_neg h0]
    have hne : UsbList.period c ≠ .period usbPeriod1ms := fun heq => h0 (UsbList.period.inj heq)
    exact hc.append (hs.nodup (.period usbPeriod1ms)) (hs.apart _ _ hne)

/-- A queue head is in the chains of its list and, for the 1 ms list, in all. -/
theorem Sched.mem_chain_iff (hs : Sched h mem) {c c' : Fin usbHcdPeriodicArrCount} {n : UsbNode}
    (hn : n ∈ mem (.period c)) :
    n ∈ UsbNode.chain mem c' ↔ c' = c ∨ c = usbPeriod1ms := by
  have hlist : ∀ d, n ∈ UsbNode.period d :: mem (.period d) ↔ d = c := by
    intro d
    constructor
    · intro hd
      by_contra hne
      have hlists : UsbList.period d ≠ .period c := fun heq => hne (UsbList.period.inj heq)
      exact hs.apart _ _ hlists hd (List.mem_cons_of_mem _ hn)
    · rintro rfl
      exact List.mem_cons_of_mem _ hn
  unfold UsbNode.chain
  rw [List.mem_append, hlist]
  by_cases h0 : c' = usbPeriod1ms
  · rw [if_pos h0, h0, eq_comm]
    simp
  · rw [if_neg h0, hlist, eq_comm (a := usbPeriod1ms)]

end Tree

/-! ## Opens -/

/-- The lists hold the queue heads that were opened, each in the list of its interval. -/
structure UsbPolls.Inv (s : UsbPolls) : Prop where
  sched : Sched s.host s.host.members
  frames : s.host.framelist = usbHostInit.framelist
  opened : ∀ o ∈ s.opened,
    o.2 ∈ s.host.members (.period (usbIntervalList (s.host.qhd o.2).intervalMs)) ∧
      (s.host.qhd o.2).intervalMs.toNat ≤ o.1.requestedMs

/-- A queue head that is free is in no list. -/
def UsbPolls.Free (s : UsbPolls) : Prop :=
  ∀ i, (s.host.qhd (.pool i)).used = false →
    (∀ c : UsbList, .pool i ∉ c.head :: s.host.members c) ∧
      (s.host.qhd (.pool i)).intervalMs = 0

theorem UsbPolls.init_inv : UsbPolls.init.Inv :=
  ⟨usbHostInit_sched.members_eq ▸ usbHostInit_sched, rfl, fun _ ho => absurd ho List.not_mem_nil⟩

theorem UsbPolls.init_free : UsbPolls.init.Free := by
  intro i _
  refine ⟨?_, ?_⟩
  · intro c hmem
    rw [UsbPolls.init, usbHostInit_sched.members_eq, List.mem_singleton] at hmem
    cases c <;> cases hmem
  · revert i
    decide

section Opens

variable {s s' : UsbPolls} {a b : UsbInterruptOpen}

/-- What is asked holds where the lists are in order. -/
theorem UsbPolls.Inv.holds (hs : s.Inv) : s.Holds := by
  have hframe : ∀ i, UsbChain s.host (s.host.framelist i)
      (UsbNode.chain s.host.members (usbFrameList i)) := by
    intro i
    rw [hs.frames, usbHostInit_framelist]
    exact hs.sched.chain _
  refine ⟨?_, ?_⟩
  · exact fun i => ⟨_, hframe i, hs.sched.chain_nodup _⟩
  · intro o ho
    obtain ⟨hmem, hle⟩ := hs.opened o ho
    refine ⟨_, _, isPollPeriod_list _, ?_, usbListResidue_lt _, ?_⟩
    · exact Nat.le_trans (isPollPeriod_list _).le (max_le_max_left 1 hle)
    · intro i xs hxs
      rw [hxs.unique (hframe i), hs.sched.mem_chain_iff hmem, usbFrameList_iff]

/-- What an open does: it takes the first queue head that is free. -/
theorem UsbPolls.step_cases (h : s.step a = some s') :
    ∃ i, usbHostQhdFindFree s.host = some (.pool i) ∧
      (s.host.qhd (.pool i)).used = false ∧
      s' = ⟨usbHostOpened s.host a.devAddr a.speed a.desc (.pool i), (a, .pool i) :: s.opened⟩ := by
  have hiso : a.desc.xfer ≠ .isochronous := by
    rw [a.interrupt]
    decide
  have hqhd : usbHostOpenQhd s.host a.devAddr a.desc = usbHostQhdFindFree s.host :=
    if_neg a.endpoint
  obtain ⟨r, hr, hs'⟩ := Option.bind_eq_some_iff.mp h
  cases hfind : usbHostQhdFindFree s.host with
  | none =>
    rw [usbHostEdptOpen, if_neg hiso, hqhd, hfind] at hr
    cases hr
  | some n =>
    obtain ⟨i, rfl, hused, -⟩ := usbHostQhdFindFree_eq_some.mp hfind
    rw [usbHostEdptOpen_of_some hiso (hqhd.trans hfind)] at hr
    cases hr
    rw [hqhd, hfind] at hs'
    cases hs'
    exact ⟨i, rfl, hused, rfl⟩

theorem UsbQhd.Relinked.intervalMs {q q' : UsbQhd} (h : q.Relinked q') :
    q'.intervalMs = q.intervalMs := by
  unfold UsbQhd.Relinked at h
  rw [h]

/-- The queue head behind an open that takes it. -/
theorem usbHostOpened_relinked (h : UsbHost) (a : UsbInterruptOpen) (n : UsbNode) :
    (usbHostQhdInit (h.qhd n) a.devAddr a.speed a.desc).2.Relinked
      ((usbHostOpened h a.devAddr a.speed a.desc n).qhd n) := by
  have hrel := usbHostListInsert_relinked
    (h.setQhd n (usbHostQhdInit (h.qhd n) a.devAddr a.speed a.desc).2) n
    (usbHostOpenHead a.desc.xfer
      (usbHostQhdInit (h.qhd n) a.devAddr a.speed a.desc).2.intervalMs) n
  rwa [UsbHost.setQhd_self] at hrel

theorem usbHostOpenHead_interrupt (a : UsbInterruptOpen) (intervalMs : BitVec 8) :
    usbHostOpenHead a.desc.xfer intervalMs = .period (usbIntervalList intervalMs) :=
  if_pos a.interrupt

/-- An open keeps the tree, and its interval decides whether the pool stays free of linked queue
heads. -/
theorem UsbPolls.step_inv (hs : s.Inv) (hfree : s.Free) (h : s.step a = some s') :
    s'.Inv ∧ (a.desc.IntervalOk a.speed → s'.Free) := by
  obtain ⟨i, -, hused, rfl⟩ := UsbPolls.step_cases h
  obtain ⟨hunlinked, hinterval⟩ := hfree i hused
  obtain ⟨hle, hset⟩ := usbHostQhdInit_cases hused hinterval a
  have hself := usbHostOpened_relinked s.host a (.pool i)
  have hother : ∀ k, k ≠ .pool i → (s.host.qhd k).Relinked
      ((usbHostOpened s.host a.devAddr a.speed a.desc (.pool i)).qhd k) :=
    fun k hk => usbHostOpened_of_ne hk
  have hins := hs.sched.insertSet hunlinked
    (usbHostQhdInit (s.host.qhd (.pool i)) a.devAddr a.speed a.desc).2
    (.period (usbIntervalList
      (usbHostQhdInit (s.host.qhd (.pool i)) a.devAddr a.speed a.desc).2.intervalMs))
  have hopened : usbHostListInsert (s.host.setQhd (.pool i)
        (usbHostQhdInit (s.host.qhd (.pool i)) a.devAddr a.speed a.desc).2)
      (UsbList.head (.period (usbIntervalList
        (usbHostQhdInit (s.host.qhd (.pool i)) a.devAddr a.speed a.desc).2.intervalMs)))
      (.pool i) = usbHostOpened s.host a.devAddr a.speed a.desc (.pool i) := by
    rw [usbHostOpened, usbHostOpenHead_interrupt]
    rfl
  rw [hopened] at hins
  have hmembers := hins.members_eq
  refine ⟨⟨hmembers.symm ▸ hins, hs.frames, ?_⟩, ?_⟩
  · intro o ho
    rcases List.mem_cons.mp ho with rfl | ho
    · dsimp only
      rw [hself.intervalMs, hmembers, setMembers_self]
      exact ⟨List.mem_cons_self, hle⟩
    · obtain ⟨hmem, hole⟩ := hs.opened o ho
      have hne : o.2 ≠ .pool i := by
        intro heq
        exact hunlinked _ (heq ▸ List.mem_cons_of_mem _ hmem)
      dsimp only
      rw [(hother o.2 hne).intervalMs, hmembers]
      refine ⟨?_, hole⟩
      unfold setMembers
      split
      · next hlist => exact List.mem_cons_of_mem _ (hlist ▸ hmem)
      · exact hmem
  · intro hok j hj
    rw [if_pos hok] at hset
    have hne : UsbNode.pool j ≠ .pool i := by
      intro heq
      dsimp only at hj
      rw [heq, hself.used, hset] at hj
      cases hj
    dsimp only at hj ⊢
    rw [(hother _ hne).used] at hj
    obtain ⟨hj', hinterval'⟩ := hfree j hj
    rw [(hother _ hne).intervalMs, hmembers]
    refine ⟨?_, hinterval'⟩
    intro c hmem
    unfold setMembers at hmem
    split at hmem
    · next hlist =>
      rcases List.mem_cons.mp hmem with heq | hmem
      · exact hj' c (heq ▸ List.mem_cons_self)
      · rcases List.mem_cons.mp hmem with heq | hmem
        · exact hne heq
        · exact hj' _ (List.mem_cons_of_mem _ hmem)
    · exact hj' c hmem

/-- The links behind an open. -/
theorem usbHostOpened_next (h : UsbHost) (a : UsbInterruptOpen)
    (i : Fin usbSocHcdMaxEndpointCount) : ∃ c : Fin usbHcdPeriodicArrCount,
      c = usbIntervalList
        ((usbHostOpened h a.devAddr a.speed a.desc (.pool i)).qhd (.pool i)).intervalMs ∧
      ((usbHostOpened h a.devAddr a.speed a.desc (.pool i)).qhd (.period c)).next =
        UsbLink.to (.pool i) ∧
      ((usbHostOpened h a.devAddr a.speed a.desc (.pool i)).qhd (.pool i)).next =
        (h.qhd (.period c)).next ∧
      ∀ k, k ≠ .pool i → k ≠ .period c →
        ((usbHostOpened h a.devAddr a.speed a.desc (.pool i)).qhd k).next = (h.qhd k).next := by
  have hself := (usbHostOpened_relinked h a (.pool i)).intervalMs
  refine ⟨_, rfl, ?_⟩
  rw [hself]
  unfold usbHostOpened
  rw [usbHostOpenHead_interrupt]
  generalize (usbHostQhdInit (h.qhd (.pool i)) a.devAddr a.speed a.desc).2 = q
  have hne : UsbNode.pool i ≠ .period (usbIntervalList q.intervalMs) := fun h => by cases h
  unfold usbHostListInsert
  refine ⟨UsbHost.setNext_next _ _, ?_, ?_⟩
  · rw [UsbHost.setNext_of_ne _ _ hne, UsbHost.setNext_next, UsbHost.setQhd_of_ne _ _ hne.symm]
  · intro k hk hkc
    rw [UsbHost.setNext_of_ne _ _ hkc, UsbHost.setNext_of_ne _ _ hk, UsbHost.setQhd_of_ne _ _ hk]

/-- A queue head that takes over the link of a list head leads through the list. -/
theorem Path.behind {h h' : UsbHost} {n m : UsbNode} {xs : List UsbNode} {e : UsbLink}
    (hp : Path h n xs e) (hm : (h'.qhd m).next = (h.qhd n).next)
    (hother : ∀ k ∈ xs, (h'.qhd k).next = (h.qhd k).next) : Path h' m xs e := by
  cases xs with
  | nil => exact hm.trans hp
  | cons x xs => exact ⟨hm.trans hp.1, hp.2.congr hother⟩

/-- What is free depends on the marks only. -/
theorem usbHostQhdFindFree_congr {h h' : UsbHost}
    (hused : ∀ i, (h'.qhd (.pool i)).used = (h.qhd (.pool i)).used) :
    usbHostQhdFindFree h' = usbHostQhdFindFree h := by
  simp only [usbHostQhdFindFree, hused]

/-- Behind an interval that was refused, the next open breaks a chain. -/
theorem UsbPolls.step_refused {s₁ s₂ : UsbPolls} (hs : s.Inv) (hfree : s.Free)
    (h₁ : s.step a = some s₁) (hrefused : ¬ a.desc.IntervalOk a.speed)
    (h₂ : s₁.step b = some s₂) : ¬ s₂.Holds := by
  obtain ⟨hs₁, -⟩ := UsbPolls.step_inv hs hfree h₁
  obtain ⟨i, hfind, hused, rfl⟩ := UsbPolls.step_cases h₁
  obtain ⟨j, hfind₁, -, rfl⟩ := UsbPolls.step_cases h₂
  have hset := (usbHostQhdInit_cases hused (hfree i hused).2 a).2
  rw [if_neg hrefused] at hset
  have hself := usbHostOpened_relinked s.host a (.pool i)
  have hsame : ∀ k,
      ((usbHostOpened s.host a.devAddr a.speed a.desc (.pool i)).qhd (.pool k)).used =
        (s.host.qhd (.pool k)).used := by
    intro k
    by_cases hk : UsbNode.pool k = .pool i
    · rw [hk, hself.used, hset.1, hused]
    · exact (usbHostOpened_of_ne hk).used
  dsimp only at hfind₁
  rw [usbHostQhdFindFree_congr hsame, hfind] at hfind₁
  obtain rfl : i = j := UsbNode.pool.inj (Option.some.inj hfind₁)
  -- it is in the 1 ms list
  have hmem := (hs₁.opened (a, .pool i) List.mem_cons_self).1
  obtain ⟨c₁, hc₁, hhead₁, -⟩ := usbHostOpened_next s.host a i
  have hroot : c₁ = usbPeriod1ms := by
    rw [hc₁, hself.intervalMs, hset.2]
    decide
  rw [hroot] at hc₁ hhead₁
  dsimp only at hmem
  rw [← hc₁] at hmem
  obtain ⟨c, -, hhead, hnode, hother⟩ :=
    usbHostOpened_next (usbHostOpened s.host a.devAddr a.speed a.desc (.pool i)) b i
  intro hholds
  obtain ⟨f, hf⟩ := exists_usbFrameList c
  obtain ⟨xs, hchain, -⟩ := hholds.ends f
  have hframe : (usbHostOpened (usbHostOpened s.host a.devAddr a.speed a.desc (.pool i)) b.devAddr
      b.speed b.desc (.pool i)).framelist f = UsbLink.to (.period c) := by
    rw [← hf, ← usbHostInit_framelist, ← hs₁.frames]
    rfl
  dsimp only at hchain
  rw [hframe] at hchain
  have hto : Path _ (.period c) [] (UsbLink.to (.pool i)) := hhead
  obtain ⟨zs, -, hrest⟩ := hchain.path hto
  suffices hcycle : ∃ ys, Path (usbHostOpened (usbHostOpened s.host a.devAddr a.speed a.desc
      (.pool i)) b.devAddr b.speed b.desc (.pool i)) (.pool i) ys (UsbLink.to (.pool i)) by
    obtain ⟨ys, hys⟩ := hcycle
    exact UsbChain.no_cycle hys hrest
  by_cases hc : c = usbPeriod1ms
  · refine ⟨[], ?_⟩
    rw [hc, hhead₁] at hnode
    exact hnode
  · have hlists : UsbList.period c ≠ .period usbPeriod1ms := fun heq => hc (UsbList.period.inj heq)
    have hpath := hs₁.sched.path (.period c)
    rw [UsbList.tail, if_neg hc] at hpath
    refine ⟨_ ++ [.period usbPeriod1ms], Path.append_iff.mpr ⟨hpath.behind hnode ?_, ?_⟩⟩
    · intro k hk
      refine hother k ?_ ?_
      · rintro rfl
        exact hs₁.sched.apart _ _ hlists (List.mem_cons_of_mem _ hk)
          (List.mem_cons_of_mem _ hmem)
      · rintro rfl
        exact hs₁.sched.head_not_mem (.period c) (.period c) hk
    · have hne : UsbNode.period usbPeriod1ms ≠ .period c := by
        intro heq
        exact hc (UsbNode.period.inj heq).symm
      refine (hother _ ?_ hne).trans hhead₁
      intro heq
      cases heq

/-- The opens of a run that starts from lists in order. -/
theorem UsbPolls.run_holds_iff (acts : List UsbInterruptOpen) (hs : s.Inv) (hfree : s.Free)
    (hrun : run UsbPolls.step s acts = some s') :
    (∀ acts', acts' <+: acts → ∀ t, run UsbPolls.step s acts' = some t → t.Holds) ↔
      ∀ a ∈ acts.dropLast, a.desc.IntervalOk a.speed := by
  induction acts generalizing s with
  | nil =>
    refine iff_of_true ?_ fun a ha => absurd ha List.not_mem_nil
    intro acts' hpre t ht
    rw [List.prefix_nil.mp hpre] at ht
    cases ht
    exact hs.holds
  | cons a acts ih =>
    obtain ⟨mid, hmid, hrest⟩ := run_cons hrun
    obtain ⟨hinv, hkept⟩ := UsbPolls.step_inv hs hfree hmid
    have hheads : (∀ acts', acts' <+: a :: acts → ∀ t,
        run UsbPolls.step s acts' = some t → t.Holds) ↔
        ∀ acts', acts' <+: acts → ∀ t, run UsbPolls.step mid acts' = some t → t.Holds := by
      constructor
      · intro h acts' hpre t ht
        refine h (a :: acts') (List.cons_prefix_cons.mpr ⟨rfl, hpre⟩) t ?_
        rw [run, hmid]
        exact ht
      · intro h acts' hpre t ht
        rcases List.prefix_cons_iff.mp hpre with rfl | ⟨acts'', rfl, htail⟩
        · cases ht
          exact hs.holds
        · rw [run, hmid] at ht
          exact h acts'' htail t ht
    rw [hheads]
    by_cases hok : a.desc.IntervalOk a.speed
    · rw [ih hinv (hkept hok) hrest]
      cases acts with
      | nil => simp
      | cons b acts => simp [hok]
    · cases acts with
      | nil =>
        refine iff_of_true ?_ fun a ha => absurd ha List.not_mem_nil
        intro acts' hpre t ht
        rw [List.prefix_nil.mp hpre] at ht
        cases ht
        exact hinv.holds
      | cons b acts =>
        obtain ⟨next, hnext, -⟩ := run_cons hrest
        refine iff_of_false ?_ ?_
        · intro h
          have hone : run UsbPolls.step mid [b] = some next := by
            rw [run, hnext]
            rfl
          exact UsbPolls.step_refused hs hfree hmid hok hnext
            (h [b] (List.cons_prefix_cons.mpr ⟨rfl, List.nil_prefix⟩) next hone)
        · intro h
          exact hok (h a (by simp))

end Opens

/-- Whatever interrupt endpoints are opened, what is asked holds behind each open exactly if every
open but the last one has an interval that is accepted.

A refused interval leaves its queue head linked but free, so the next open takes the same queue
head, clears it and links it a second time: the chain of a frame then runs in a circle.  Behind
the last open nothing does that.  Accepted intervals take a new queue head each, behind the head
of their period, and the chains still end in the terminator. -/
theorem usbPolls_holds_iff (acts : List UsbInterruptOpen) {s : UsbPolls}
    (hrun : run UsbPolls.step UsbPolls.init acts = some s) :
    (∀ acts', acts' <+: acts → ∀ t, run UsbPolls.step UsbPolls.init acts' = some t → t.Holds) ↔
      ∀ a ∈ acts.dropLast, a.desc.IntervalOk a.speed :=
  UsbPolls.run_holds_iff acts UsbPolls.init_inv UsbPolls.init_free hrun

/-- A full speed endpoint with 10 ms, and a high speed one with 17, which is refused. -/
def usbTwoInterrupts : List UsbInterruptOpen :=
  [⟨1, .full, ⟨0x81, .interrupt, 10⟩, rfl, by decide⟩,
    ⟨2, .high, ⟨0x81, .interrupt, 17⟩, rfl, by decide⟩]

theorem usbPolls_holds_iff_twoInterrupts : ∃ s,
    run UsbPolls.step UsbPolls.init usbTwoInterrupts = some s ∧
      ((∀ acts', acts' <+: usbTwoInterrupts → ∀ t,
        run UsbPolls.step UsbPolls.init acts' = some t → t.Holds) ↔
          ∀ a ∈ usbTwoInterrupts.dropLast, a.desc.IntervalOk a.speed) :=
  ⟨_, rfl, usbPolls_holds_iff usbTwoInterrupts rfl⟩

/-- The same in the other order: the second open takes the queue head of the first again. -/
theorem usbPolls_not_holds :
    ¬ ∀ acts s, run UsbPolls.step UsbPolls.init acts = some s → s.Holds := by
  intro h
  have hall := UsbPolls.run_holds_iff usbTwoInterrupts.reverse UsbPolls.init_inv UsbPolls.init_free
    rfl
  have hok := hall.mp (fun acts' _ t ht => h acts' t ht)
    ⟨2, .high, ⟨0x81, .interrupt, 17⟩, rfl, by decide⟩ List.mem_cons_self
  exact absurd hok (by decide)

end HpmSdk.Usb
