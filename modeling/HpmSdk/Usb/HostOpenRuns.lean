import HpmSdk.Usb.HostOpen

set_option autoImplicit false

/-!
# USB host: runs of opens and closes

While every open is served, the pool and the lists agree: a linked queue head is in
use, one that waits for the async advance is not free, and the first queue head that is
for an open endpoint is its own.

Each of the three kinds of step, an open, a close and an async advance, has its lemma.
-/

namespace HpmSdk.Usb

open HpmSdk.Foundation

/-! ## The invariant -/

/-- What every action keeps. -/
structure UsbOpens.Inv (s : UsbOpens) : Prop where
  sched : Sched s.host s.host.members
  linked : ∀ i, InList s.host.members (.pool i) →
    (s.host.qhd (.pool i)).used = true ∧ (s.host.qhd (.pool i)).removing = false
  removing : ∀ i, (s.host.qhd (.pool i)).removing = true → (s.host.qhd (.pool i)).used = true
  opened : ∀ o ∈ s.opened, ∃ i, o.node = .pool i ∧ (s.host.qhd (.pool i)).used = true ∧
    (s.host.qhd (.pool i)).removing = false ∧ s.host.Holds i o.devAddr o.epAddr ∧
      ∀ j < i, ¬ s.host.Holds j o.devAddr o.epAddr

/-- The invariant says what is asked of every state. -/
theorem UsbOpens.Inv.kept {s : UsbOpens} (hs : s.Inv) : s.Kept := by
  refine ⟨⟨_, hs.sched⟩, fun o ho => ?_⟩
  obtain ⟨i, hi, -, -, hholds⟩ := hs.opened o ho
  rw [hi]
  exact usbHostQhdGetFromAddr_eq_some.mpr hholds

theorem UsbOpens.init_inv : UsbOpens.init.Inv := by
  have hinit : Sched UsbOpens.init.host UsbOpens.init.host.members := by
    have hs : Sched UsbOpens.init.host fun _ => [] := usbHostInit_sched
    rw [hs.members_eq]
    exact hs
  refine ⟨hinit, fun i hi => ?_, fun i hi => ?_, fun o ho => absurd ho List.not_mem_nil⟩
  · obtain ⟨c, hc⟩ := hi
    rw [show UsbOpens.init.host.members = fun _ => [] from usbHostInit_sched.members_eq] at hc
    exact absurd hc List.not_mem_nil
  · revert i
    decide

/-- A linked queue head of the pool is a member of a list. -/
theorem UsbHost.linked_pool {h : UsbHost} {i : Fin usbSocHcdMaxEndpointCount} :
    h.Linked (.pool i) ↔ InList h.members (.pool i) := by
  constructor
  · rintro ⟨c, -, hc⟩
    refine ⟨c, (List.mem_cons.mp hc).resolve_left ?_⟩
    cases c <;> exact UsbNode.noConfusion
  · rintro ⟨c, hc⟩
    exact ⟨c, UsbList.mem_all c, List.mem_cons_of_mem _ hc⟩

/-! ### Queue heads that are for the same endpoint -/

/-- The fields that tell the endpoint are the same. -/
def UsbQhd.SameFor (q q' : UsbQhd) : Prop :=
  q'.devAddr = q.devAddr ∧ q'.epNumber = q.epNumber ∧ q'.pidIn = q.pidIn

theorem UsbQhd.Relinked.sameFor {q q' : UsbQhd} (h : q.Relinked q') : q.SameFor q' := by
  unfold UsbQhd.Relinked at h
  rw [h]
  exact ⟨rfl, rfl, rfl⟩

theorem UsbQhd.Relinked.used {q q' : UsbQhd} (h : q.Relinked q') : q'.used = q.used := by
  unfold UsbQhd.Relinked at h
  rw [h]

theorem UsbQhd.Relinked.removing {q q' : UsbQhd} (h : q.Relinked q') :
    q'.removing = q.removing := by
  unfold UsbQhd.Relinked at h
  rw [h]

theorem UsbQhd.release_sameFor (q : UsbQhd) : q.SameFor q.release := by
  unfold UsbQhd.release
  split <;> exact ⟨rfl, rfl, rfl⟩

theorem UsbQhd.SameFor.trans {q₁ q₂ q₃ : UsbQhd} (h₁ : q₁.SameFor q₂) (h₂ : q₂.SameFor q₃) :
    q₁.SameFor q₃ :=
  ⟨h₂.1.trans h₁.1, h₂.2.1.trans h₁.2.1, h₂.2.2.trans h₁.2.2⟩

theorem UsbQhd.SameFor.holds_iff {h h' : UsbHost} {i : Fin usbSocHcdMaxEndpointCount}
    (hsame : (h.qhd (.pool i)).SameFor (h'.qhd (.pool i))) (devAddr epAddr : BitVec 8) :
    h'.Holds i devAddr epAddr ↔ h.Holds i devAddr epAddr := by
  unfold UsbHost.Holds
  rw [hsame.1, hsame.2.1, hsame.2.2]

/-- A close changes what no queue head is for. -/
theorem Swept.sameFor {devAddr : BitVec 8} {h h' : UsbHost} {mem mem' : UsbList → List UsbNode}
    (hs : Swept devAddr h mem h' mem') (k : UsbNode) : (h.qhd k).SameFor (h'.qhd k) := by
  by_cases hk : InList mem k → InList mem' k
  · exact (hs.kept k hk).sameFor
  · obtain ⟨hin, hout⟩ := Classical.not_imp.mp hk
    exact (UsbQhd.release_sameFor _).trans (hs.gone k hin hout).2.sameFor

/-! ### Opens -/

section Step

variable {s : UsbOpens}

/-- An open that is served takes a queue head that is free, or the head of the
asynchronous list alone. -/
theorem UsbOpens.Inv.adds (hs : s.Inv) {devAddr : BitVec 8} (speed : UsbSpeed)
    {desc : UsbDescEndpoint} {n : UsbNode} (hn : usbHostOpenQhd s.host devAddr desc = some n)
    (hnew : s.host.TakesNew devAddr desc n) :
    s.host.Adds (usbHostOpened s.host devAddr speed desc n) n ∧
      ∀ i, n = .pool i → (s.host.qhd (.pool i)).used = false ∧
        ∀ j < i, (s.host.qhd (.pool j)).used = true := by
  cases n with
  | pool i =>
    have hfirst : (s.host.qhd (.pool i)).used = false ∧
        ∀ j < i, (s.host.qhd (.pool j)).used = true := by
      unfold usbHostOpenQhd at hn
      split at hn
      · split at hn <;> cases hn
      · obtain ⟨k, hk, hfirst⟩ := usbHostQhdFindFree_eq_some.mp hn
        obtain rfl := UsbNode.pool.inj hk
        exact hfirst
    refine ⟨hs.sched.adds_fresh fun c hc => ?_, ?_⟩
    · have hlinked : s.host.Linked (.pool i) := ⟨c, UsbList.mem_all c, hc⟩
      have hused := (hs.linked i (UsbHost.linked_pool.mp hlinked)).1
      rw [hfirst.1] at hused
      exact Bool.false_ne_true hused
    · rintro k hk
      obtain rfl := UsbNode.pool.inj hk
      exact hfirst
  | control i =>
    refine ⟨?_, fun _ hk => nomatch hk⟩
    rcases hnew with hfree | ⟨hhead, hint, hempty⟩
    · exact hs.sched.adds_fresh fun c hc => hfree ⟨c, UsbList.mem_all c, hc⟩
    · rw [hhead] at hn ⊢
      exact hs.sched.adds_head hn hint hempty
  | period i =>
    refine ⟨?_, fun _ hk => nomatch hk⟩
    rcases hnew with hfree | ⟨hhead, -⟩
    · exact hs.sched.adds_fresh fun c hc => hfree ⟨c, UsbList.mem_all c, hc⟩
    · cases hhead

/-- Queue heads of the pool that are used are not touched. -/
theorem usbHostOpened_used {h : UsbHost} {devAddr : BitVec 8} {speed : UsbSpeed}
    {desc : UsbDescEndpoint} {n : UsbNode}
    (hfree : ∀ i, n = .pool i → (h.qhd (.pool i)).used = false ∧
      ∀ j < i, (h.qhd (.pool j)).used = true)
    {i : Fin usbSocHcdMaxEndpointCount} (hused : (h.qhd (.pool i)).used = true) :
    (h.qhd (.pool i)).Relinked ((usbHostOpened h devAddr speed desc n).qhd (.pool i)) := by
  refine usbHostOpened_of_ne fun hin => ?_
  rw [(hfree i hin.symm).1] at hused
  exact Bool.false_ne_true hused

/-- An open that is served finds every endpoint that was open, and the new one. -/
theorem UsbOpens.Inv.opened_step (hs : s.Inv) {devAddr : BitVec 8} {speed : UsbSpeed}
    {desc : UsbDescEndpoint} {n : UsbNode} (hok : desc.IntervalOk speed)
    (hn : usbHostOpenQhd s.host devAddr desc = some n) (hnew : s.host.TakesNew devAddr desc n) :
    UsbOpens.Inv ⟨usbHostOpened s.host devAddr speed desc n,
      UsbOpens.added s.host devAddr desc ++ s.opened⟩ := by
  obtain ⟨hadds, hfree⟩ := hs.adds speed hn hnew
  have hfor := @usbHostOpened_isFor s.host devAddr _ _ n hok
  have hkept : ∀ i, UsbNode.pool i ≠ n → (s.host.qhd (.pool i)).Relinked
      ((usbHostOpened s.host devAddr speed desc n).qhd (.pool i)) := fun i hi =>
    usbHostOpened_of_ne hi
  have hused : ∀ i, (s.host.qhd (.pool i)).used = true → (s.host.qhd (.pool i)).Relinked
      ((usbHostOpened s.host devAddr speed desc n).qhd (.pool i)) := fun i hi =>
    usbHostOpened_used hfree hi
  refine ⟨hadds.sched, fun i hi => ?_, fun i hi => ?_, fun o ho => ?_⟩
  · by_cases hin : UsbNode.pool i = n
    · subst hin
      exact ⟨hfor.used, hfor.removing⟩
    · have hold := hs.linked i ((hadds.new _ hi).resolve_left hin)
      exact ⟨(hkept i hin).used.trans hold.1, (hkept i hin).removing.trans hold.2⟩
  · by_cases hin : UsbNode.pool i = n
    · subst hin
      exact hfor.used
    · refine (hkept i hin).used.trans (hs.removing i ?_)
      rw [← (hkept i hin).removing]
      exact hi
  · rcases List.mem_append.mp ho with ho | ho
    · -- the endpoint that was opened now
      unfold UsbOpens.added at ho
      split at ho
      · exact absurd ho List.not_mem_nil
      · rename_i hep
        rw [hn, Option.map_some, Option.toList_some] at ho
        obtain rfl := List.mem_singleton.mp ho
        obtain ⟨i, rfl⟩ : ∃ i, n = .pool i := by
          unfold usbHostOpenQhd at hn
          rw [if_neg hep] at hn
          obtain ⟨i, hi, -⟩ := usbHostQhdFindFree_eq_some.mp hn
          exact ⟨i, hi⟩
        obtain ⟨hdev, haddr, hclear⟩ := hnew
        have hholds := UsbQhd.IsFor.holds_iff hfor hdev haddr
        refine ⟨i, rfl, hfor.used, hfor.removing, (hholds _ _).mpr ⟨rfl, rfl⟩, fun j hj hj' => ?_⟩
        have huse := (hfree i rfl).2 j hj
        have hbelow := (hclear j huse (((hused j huse).sameFor.holds_iff _ _).mp hj')).2
        exact absurd (hj.trans hbelow) (lt_irrefl j)
    · -- an endpoint that was open before
      obtain ⟨i, hi, huse, hremoving, hholds, hfirst⟩ := hs.opened o ho
      have hrel := hused i huse
      refine ⟨i, hi, hrel.used.trans huse, hrel.removing.trans hremoving,
        (hrel.sameFor.holds_iff _ _).mpr hholds, fun j hj hj' => ?_⟩
      by_cases hjn : UsbNode.pool j = n
      · subst hjn
        obtain ⟨hdev, haddr, hclear⟩ := hnew
        obtain ⟨hdev', hep'⟩ := (UsbQhd.IsFor.holds_iff hfor hdev haddr _ _).mp hj'
        rw [hdev', hep'] at hholds
        have hgone := (hclear i huse hholds).1
        rw [hremoving] at hgone
        exact Bool.false_ne_true hgone
      · exact hfirst j hj (((hkept j hjn).sameFor.holds_iff _ _).mp hj')

/-- An isochronous endpoint is refused. -/
theorem usbHostEdptOpen_isochronous {h : UsbHost} {devAddr : BitVec 8} {speed : UsbSpeed}
    {desc : UsbDescEndpoint} (hiso : desc.xfer = .isochronous) :
    h.Opens devAddr speed desc := by
  have hrun : usbHostEdptOpen h devAddr speed desc = some (false, h) := if_pos hiso
  refine ⟨false, h, hrun, ⟨fun hb => absurd hb Bool.false_ne_true, fun _ _ => ?_, fun _ => ?_⟩⟩
  · exact UsbQhd.Relinked.refl _
  · exact ⟨rfl, rfl⟩

/-- An open that is served meets the contract. -/
theorem UsbOpens.Inv.opens (hs : s.Inv) {devAddr : BitVec 8} {speed : UsbSpeed}
    {desc : UsbDescEndpoint} (hok : s.host.Serves devAddr speed desc) :
    s.host.Opens devAddr speed desc := by
  by_cases hiso : desc.xfer = .isochronous
  · exact usbHostEdptOpen_isochronous hiso
  obtain ⟨hint, hsome, hnew⟩ := hok.resolve_left hiso
  obtain ⟨n, hn⟩ := Option.isSome_iff_exists.mp hsome
  obtain ⟨hadds, hfree⟩ := hs.adds speed hn (hnew n hn)
  refine ⟨true, _, usbHostEdptOpen_of_some hiso hn, ⟨fun _ => ⟨n, hn, hadds.linked, hadds.lists⟩,
    fun i hi => usbHostOpened_used hfree ?_, fun hcannot => ?_⟩⟩
  · rcases hi with hi | hi
    · exact (hs.linked i (UsbHost.linked_pool.mp hi)).1
    · exact hs.removing i hi
  · refine absurd ⟨hiso, hint, ?_⟩ hcannot
    rw [hn]
    exact Option.some_ne_none n

end Step

/-! ### Async advances and closes -/

/-- The async advance frees a queue head that waits for it. -/
theorem UsbHost.freeRemoved_pool (h : UsbHost) (i : Fin usbSocHcdMaxEndpointCount) :
    (h.freeRemoved i).qhd (.pool i) = if (h.qhd (.pool i)).removing = true then
      { h.qhd (.pool i) with removing := false, used := false } else h.qhd (.pool i) := by
  unfold UsbHost.freeRemoved
  split
  · exact UsbHost.setQhd_self h _
  · rfl

theorem UsbHost.freeRemoved_of_ne (h : UsbHost) (i : Fin usbSocHcdMaxEndpointCount) {k : UsbNode}
    (hk : k ≠ .pool i) : (h.freeRemoved i).qhd k = h.qhd k := by
  unfold UsbHost.freeRemoved
  split
  · exact UsbHost.setQhd_of_ne h _ hk
  · rfl

/-- What an async advance within the pool leaves. -/
theorem asyncAdvanceIsrFor_some {cfg : TusbConfig} (h : UsbHost)
    (hmax : cfg.hcdMaxEndpoint ≤ usbSocHcdMaxEndpointCount) :
    ∃ h', asyncAdvanceIsrFor cfg h = some h' ∧ ∀ k, h'.qhd k =
      if (∃ i, k = .pool i ∧ i.val < cfg.hcdMaxEndpoint) ∧ (h.qhd k).removing = true then
        { h.qhd k with removing := false, used := false }
      else h.qhd k := by
  unfold asyncAdvanceIsrFor
  generalize cfg.hcdMaxEndpoint = m at hmax ⊢
  induction m with
  | zero =>
    refine ⟨h, rfl, fun k => (if_neg ?_).symm⟩
    rintro ⟨⟨i, -, hi⟩, -⟩
    exact absurd hi (Nat.not_lt_zero _)
  | succ m ih =>
    obtain ⟨mid, hmid, hqhd⟩ := ih (Nat.le_of_succ_le hmax)
    have hstep : (List.range (m + 1)).foldlM (fun (h : UsbHost) (i : Nat) =>
        if hlt : i < usbSocHcdMaxEndpointCount then some (h.freeRemoved ⟨i, hlt⟩) else none) h =
          some (mid.freeRemoved ⟨m, hmax⟩) := by
      have hlt : m < usbSocHcdMaxEndpointCount := hmax
      rw [List.range_succ, List.foldlM_append, hmid]
      simp only [Option.bind_eq_bind, Option.bind_some, List.foldlM_cons, List.foldlM_nil, hlt,
        dif_pos]
      rfl
    refine ⟨_, hstep, fun k => ?_⟩
    by_cases hk : k = .pool ⟨m, hmax⟩
    · have hlast := hqhd k
      rw [if_neg (by
        rintro ⟨⟨i, hi, hlt⟩, -⟩
        rw [← UsbNode.pool.inj (hk.symm.trans hi)] at hlt
        exact absurd hlt (Nat.lt_irrefl m))] at hlast
      have hin : ∃ i : Fin usbSocHcdMaxEndpointCount, k = .pool i ∧ i.val < m + 1 :=
        ⟨⟨m, hmax⟩, hk, Nat.lt_succ_self m⟩
      rw [← hlast, hk, UsbHost.freeRemoved_pool, ← hk]
      simp only [hin, true_and]
    · have hother : (∃ i : Fin usbSocHcdMaxEndpointCount, k = .pool i ∧ i.val < m + 1) ↔
          ∃ i : Fin usbSocHcdMaxEndpointCount, k = .pool i ∧ i.val < m := by
        refine exists_congr fun i => and_congr_right fun hi => ?_
        rw [Nat.lt_succ_iff_lt_or_eq]
        refine or_iff_left fun him => hk ?_
        rw [hi]
        exact congrArg UsbNode.pool (Fin.ext him)
      simp only [hother]
      rw [← hqhd k]
      exact UsbHost.freeRemoved_of_ne mid _ hk

/-- An async advance keeps the lists and what the queue heads are for. -/
theorem Sched.advanced {h h' : UsbHost} (hs : Sched h h.members) {cfg : TusbConfig}
    (hqhd : ∀ k, h'.qhd k =
      if (∃ i, k = .pool i ∧ i.val < cfg.hcdMaxEndpoint) ∧ (h.qhd k).removing = true then
        { h.qhd k with removing := false, used := false }
      else h.qhd k) :
    h'.members = h.members ∧ Sched h' h'.members ∧ ∀ k, (h.qhd k).SameFor (h'.qhd k) := by
  have hlinks : ∀ k, (h'.qhd k).next = (h.qhd k).next ∧ (h.qhd k).SameFor (h'.qhd k) := by
    intro k
    rw [hqhd k]
    split <;> exact ⟨rfl, rfl, rfl, rfl⟩
  have hsched : Sched h' h.members :=
    hs.congr (fun c k _ => (hlinks k).1) fun c => (hlinks _).2.1.trans (hs.heads c)
  exact ⟨hsched.members_eq, hsched.members_eq ▸ hsched, fun k => (hlinks k).2⟩

/-- The async advance keeps the pool right. -/
theorem UsbOpens.Inv.advance_step {s : UsbOpens} {cfg : TusbConfig} (hs : s.Inv)
    (hmax : cfg.hcdMaxEndpoint ≤ usbSocHcdMaxEndpointCount) :
    ∃ h', asyncAdvanceIsrFor cfg s.host = some h' ∧ UsbOpens.Inv ⟨h', s.opened⟩ := by
  obtain ⟨h', hrun, hqhd⟩ := asyncAdvanceIsrFor_some s.host hmax
  obtain ⟨hmembers, hsched, hsame⟩ := hs.sched.advanced hqhd
  have hstays : ∀ i, (s.host.qhd (.pool i)).removing = false →
      h'.qhd (.pool i) = s.host.qhd (.pool i) := fun i hi => by
    rw [hqhd, if_neg fun h => Bool.false_ne_true (hi.symm.trans h.2)]
  refine ⟨h', hrun, hsched, fun i hi => ?_, fun i hi => ?_, fun o ho => ?_⟩
  · dsimp only at hi
    rw [hmembers] at hi
    have hold := hs.linked i hi
    dsimp only
    rw [hstays i hold.2]
    exact hold
  · dsimp only at hi ⊢
    rw [hqhd] at hi ⊢
    split at hi
    · exact nomatch hi
    · rename_i hnot
      rw [if_neg hnot]
      exact hs.removing i hi
  · obtain ⟨i, hi, huse, hremoving, hholds, hfirst⟩ := hs.opened o ho
    refine ⟨i, hi, ?_, ?_, ((hsame _).holds_iff _ _).mpr hholds, fun j hj hj' =>
      hfirst j hj (((hsame _).holds_iff _ _).mp hj')⟩
    · dsimp only
      rw [hstays i hremoving, huse]
    · dsimp only
      rw [hstays i hremoving, hremoving]

/-- A close keeps the pool right, whatever the sweeps reach. -/
theorem UsbOpens.Inv.close_step {s : UsbOpens} (hs : s.Inv) {devAddr : BitVec 8} {passes : Nat}
    {h' : UsbHost} {seen : List UsbNode}
    (hr : usbHostDeviceClose passes s.host devAddr = some (h', seen)) :
    UsbOpens.Inv ⟨h', s.opened.filter fun o => o.devAddr ≠ devAddr⟩ := by
  obtain ⟨hsched, hswept⟩ := hs.sched.close_swept hr
  have hsame : ∀ i, (s.host.qhd (.pool i)).SameFor (h'.qhd (.pool i)) := fun i =>
    hswept.sameFor _
  refine ⟨hsched, fun i hi => ?_, fun i hi => ?_, fun o ho => ?_⟩
  · have hrel := hswept.kept _ fun _ => hi
    have hold := hs.linked i (hswept.inList hi)
    exact ⟨hrel.used.trans hold.1, hrel.removing.trans hold.2⟩
  · dsimp only at hi ⊢
    by_cases hin : InList s.host.members (.pool i) → InList h'.members (.pool i)
    · have hrel := hswept.kept _ hin
      rw [hrel.used]
      exact hs.removing i (hrel.removing.symm.trans hi)
    · -- taken out just now: it was used, and one that is free at once does not wait
      obtain ⟨hmem, hout⟩ := Classical.not_imp.mp hin
      have hold := hs.linked i hmem
      have hrel := (hswept.gone _ hmem hout).2
      rw [hrel.removing] at hi
      rw [hrel.used]
      unfold UsbQhd.release at hi ⊢
      split at hi
      · exact absurd (hold.2.symm.trans hi) Bool.false_ne_true
      · rename_i hsmask
        rw [if_neg hsmask]
        exact hold.1
  · obtain ⟨hmem, hdev⟩ := List.mem_filter.mp ho
    have hdev : o.devAddr ≠ devAddr := of_decide_eq_true hdev
    obtain ⟨i, hi, huse, hremoving, hholds, hfirst⟩ := hs.opened o hmem
    have hrel : (s.host.qhd (.pool i)).Relinked (h'.qhd (.pool i)) := by
      refine hswept.kept _ fun hin => ?_
      by_contra hout
      have howned := (hswept.gone _ hin hout).1
      exact hdev (hholds.1.symm.trans (of_decide_eq_true howned))
    exact ⟨i, hi, hrel.used.trans huse, hrel.removing.trans hremoving,
      ((hsame i).holds_iff _ _).mpr hholds,
      fun j hj hj' => hfirst j hj (((hsame j).holds_iff _ _).mp hj')⟩

/-! ### All runs -/

/-- Every step that is served keeps the invariant. -/
theorem UsbOpens.Inv.step {cfg : TusbConfig} {s s' : UsbOpens} {a : UsbAct} (hs : s.Inv)
    (hok : s.Served cfg a) (hstep : s.step cfg a = some s') : s'.Inv := by
  cases a with
  | edptOpen devAddr speed desc =>
    obtain ⟨⟨b, h'⟩, hr, rfl⟩ := Option.map_eq_some_iff.mp hstep
    by_cases hiso : desc.xfer = .isochronous
    · have hrun : usbHostEdptOpen s.host devAddr speed desc = some (false, s.host) := if_pos hiso
      rw [hrun] at hr
      cases hr
      exact hs
    · obtain ⟨hint, hsome, hnew⟩ := hok.resolve_left hiso
      obtain ⟨n, hn⟩ := Option.isSome_iff_exists.mp hsome
      rw [usbHostEdptOpen_of_some hiso hn] at hr
      cases hr
      exact hs.opened_step hint hn (hnew n hn)
  | transfer =>
    cases hstep
    exact hs
  | asyncAdvance =>
    obtain ⟨h', hr, rfl⟩ := Option.map_eq_some_iff.mp hstep
    obtain ⟨h₂, hr₂, hinv⟩ := hs.advance_step hok
    rw [hr₂] at hr
    obtain rfl := Option.some.inj hr
    exact hinv
  | deviceClose devAddr passes =>
    obtain ⟨⟨h', seen⟩, hr, rfl⟩ := Option.map_eq_some_iff.mp hstep
    exact hs.close_step hr

/-- And does what is asked of it. -/
theorem UsbOpens.Inv.meets {cfg : TusbConfig} {s : UsbOpens} {a : UsbAct} (hs : s.Inv)
    (hok : s.Served cfg a) : s.Meets cfg a := by
  cases a with
  | edptOpen devAddr speed desc => exact hs.opens hok
  | transfer => trivial
  | asyncAdvance =>
    obtain ⟨h', hr, -⟩ := hs.advance_step hok
    exact Option.ne_none_iff_exists'.mpr ⟨h', hr⟩
  | deviceClose devAddr passes => trivial

/-- In every run whose opens are served, every open does what it should and the schedule and what
is found for the open endpoints are right in every state.

An open takes a queue head for its address, sets it up and links it; the result of the set-up is
not looked at.  So it is right where the set-up succeeds on a queue head that is in no list and
that is found for no other endpoint, which `Served` says of the state before it, and then the
invariant goes through the open, every close and every async advance. -/
theorem usbHostOpens_kept (cfg : TusbConfig) (acts : List UsbAct)
    (hserved : Along (UsbOpens.step cfg) (UsbOpens.Served cfg) UsbOpens.init acts) :
    Along (UsbOpens.step cfg) (UsbOpens.Meets cfg) UsbOpens.init acts ∧
      ∀ s, run (UsbOpens.step cfg) UsbOpens.init acts = some s → s.Kept :=
  ⟨along_of_invariant (P := UsbOpens.Inv) (fun _ _ _ hs hok hstep => hs.step hok hstep)
      (fun _ _ hs hok => hs.meets hok) acts _ UsbOpens.init_inv hserved,
    fun s hrun => (run_invariant_along (P := UsbOpens.Inv)
      (fun _ _ _ hs hok hstep => hs.step hok hstep) acts _ s UsbOpens.init_inv hserved hrun).kept⟩

/-- A mass storage class alone: two endpoints of one device. -/
def tusbMscOnly : TusbConfig := ⟨2, 1, Nat.one_pos⟩

/-- A hub, a keyboard, a mouse, mass storage and a serial class: eight endpoints for each
of five devices. -/
def tusbHubClasses : TusbConfig := ⟨40, 5, by decide⟩

/-- A device is opened, closed and opened again once the async advance has come; another
one stays open, and an isochronous endpoint is refused. -/
def usbReplug : List UsbAct :=
  [.edptOpen 0 .high ⟨0, .control, 0⟩, .edptOpen 2 .high ⟨0, .control, 0⟩,
    .edptOpen 1 .high ⟨0x81, .bulk, 0⟩, .edptOpen 2 .full ⟨0x83, .interrupt, 8⟩,
    .edptOpen 2 .full ⟨0x84, .isochronous, 1⟩, .deviceClose 1 20, .asyncAdvance,
    .edptOpen 1 .high ⟨0x81, .bulk, 0⟩, .transfer]

theorem usbHostOpens_kept_replug :
    Along (UsbOpens.step tusbMscOnly) (UsbOpens.Meets tusbMscOnly) UsbOpens.init usbReplug ∧
      ∀ s, run (UsbOpens.step tusbMscOnly) UsbOpens.init usbReplug = some s → s.Kept :=
  usbHostOpens_kept tusbMscOnly usbReplug (by decide)

/-- An interrupt endpoint of high speed with an interval above 16. -/
def usbBadInterval : UsbDescEndpoint := ⟨0x81, .interrupt, 17⟩

/-- The endpoint of a device is opened again before the async advance. -/
def usbEarlyReplug : List UsbAct :=
  [.edptOpen 1 .high ⟨0x81, .bulk, 0⟩, .deviceClose 1 20, .edptOpen 1 .high ⟨0x81, .bulk, 0⟩]

/-- The control endpoint of a device is opened again while it is linked. -/
def usbReopened : List UsbAct :=
  [.edptOpen 1 .high ⟨0, .control, 0⟩, .edptOpen 1 .high ⟨0x81, .bulk, 0⟩,
    .edptOpen 1 .high ⟨0, .control, 0⟩]

/-- A refused interval is not reported, the queue head of the closed endpoint is found for
the new one, and the asynchronous list becomes a circle without its head; with more classes
the async advance goes beyond the pool. -/
theorem usbHostOpens_broken :
    ¬ UsbOpens.init.Meets tusbMscOnly (.edptOpen 1 .high usbBadInterval) ∧
      (∃ s, run (UsbOpens.step tusbMscOnly) UsbOpens.init usbEarlyReplug = some s ∧ ¬ s.Kept) ∧
      (∃ s, run (UsbOpens.step tusbMscOnly) UsbOpens.init usbReopened = some s ∧ ¬ s.Kept) ∧
        ¬ UsbOpens.init.Meets tusbHubClasses .asyncAdvance := by
  refine ⟨?_, ⟨_, rfl, ?_⟩, ⟨_, rfl, ?_⟩, fun h => h rfl⟩
  · rintro ⟨b, h', hr, hmeets⟩
    have hcannot : ¬ UsbOpens.init.host.CanOpen 1 .high usbBadInterval := fun h =>
      absurd (h.2.1 rfl) (by decide)
    obtain ⟨rfl, -⟩ := hmeets.refused hcannot
    have htrue := congrArg (Option.map Prod.fst) hr
    cases htrue
  · intro hkept
    have hfound := hkept.found ⟨1, 0x81, .pool 1⟩ List.mem_cons_self
    exact absurd hfound (by decide)
  · intro hkept
    obtain ⟨mem, hs⟩ := hkept.lists
    have hnodup := hs.nodup .async
    rw [← hs.members_eq] at hnodup
    exact absurd hnodup (by decide)

end HpmSdk.Usb
