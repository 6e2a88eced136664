import HpmSdk.Usb.HostClose

set_option autoImplicit false

/-!
# USB host: `usb_host_device_close`

The sweeps of the five lists one after another.  `Closable` says when they reach
every queue head of the device; a close then takes out exactly those, and however
many passes it is given to end within, the schedule is well formed again.
-/

namespace HpmSdk.Usb

open HpmSdk.Foundation

/-! ## One list after another -/

section Close

variable {h₀ : UsbHost} {devAddr : BitVec 8}

/-- The longer periods, one after another. -/
theorem Closing.periods (haddr : devAddr ≠ 0) (is : List (Fin usbHcdPeriodicArrCount)) :
    ∀ (h : UsbHost) (mem : UsbList → List UsbNode), Closing h₀ h mem →
      Sweep.trail (h₀.owned devAddr) (mem (.period usbPeriod1ms)) = 0 → is.Nodup →
      (∀ i ∈ is, i ≠ usbPeriod1ms ∧ Sweep.maxRun (h₀.owned devAddr) (mem (.period i)) < 2) →
      ∃ k h' mem' seen', Closing h₀ h' mem' ∧
        (∀ i ∈ is, mem' (.period i) = (mem (.period i)).filter fun n => !h₀.owned devAddr n) ∧
        mem' (.period usbPeriod1ms) =
          (Sweep.sweep (h₀.owned devAddr))^[is.length] (mem (.period usbPeriod1ms)) ∧
        (∀ c, c ≠ .period usbPeriod1ms → (∀ i ∈ is, c ≠ .period i) → mem' c = mem c) ∧
        (∀ n ∈ seen', ∃ i, n ∈ (UsbList.period i).head :: mem (.period i)) ∧
        ∀ n seen, is.foldlM (fun s i =>
          usbHostListRemoveQhdByAddr (n + k) devAddr s (.period i)) (h, seen) =
            some (h', seen ++ seen') := by
  induction is with
  | nil =>
    intro h mem hc _ _ _
    exact ⟨0, h, mem, [], hc, fun i hi => absurd hi List.not_mem_nil, rfl, fun _ _ _ => rfl,
      fun n hn => absurd hn List.not_mem_nil, fun n seen => by rw [List.append_nil]; rfl⟩
  | cons i is ih =>
    intro h mem hc htrail hnodup his
    obtain ⟨hi0, hrun⟩ := his i List.mem_cons_self
    obtain ⟨hni, hnodup'⟩ := List.nodup_cons.mp hnodup
    obtain ⟨k₁, h₁, seen₁, hc₁, hsub₁, hloop₁⟩ := hc.longer haddr htrail hi0
    set mem₁ := setMembers (setMembers mem (.period i)
      (Sweep.sweep (h₀.owned devAddr) (mem (.period i)))) (.period usbPeriod1ms)
        (Sweep.sweep (h₀.owned devAddr) (mem (.period usbPeriod1ms))) with hmem₁
    have hzero : mem₁ (.period usbPeriod1ms) =
        Sweep.sweep (h₀.owned devAddr) (mem (.period usbPeriod1ms)) :=
      setMembers_self
    have hself : mem₁ (.period i) = (mem (.period i)).filter fun n => !h₀.owned devAddr n := by
      rw [hmem₁, setMembers_of_ne (fun hc => hi0 (UsbList.period.inj hc)), setMembers_self,
        Sweep.sweep_eq_filter _ hrun]
    have hother : ∀ c, c ≠ .period usbPeriod1ms → c ≠ .period i → mem₁ c = mem c := by
      intro c hc0 hci
      rw [hmem₁, setMembers_of_ne hc0, setMembers_of_ne hci]
    have hrest : ∀ j ∈ is, mem₁ (.period j) = mem (.period j) := by
      intro j hj
      refine hother _ (fun hc => (his j (List.mem_cons_of_mem i hj)).1 (UsbList.period.inj hc)) ?_
      intro hc
      exact hni (UsbList.period.inj hc ▸ hj)
    obtain ⟨k₂, h₂, mem₂, seen₂, hc₂, his₂, hzero₂, hother₂, hsub₂, hloop₂⟩ := ih h₁ mem₁ hc₁
      (by rw [hzero, Sweep.trail_sweep, htrail]) hnodup' (fun j hj => by
        rw [hrest j hj]
        exact his j (List.mem_cons_of_mem i hj))
    refine ⟨k₁ + k₂, h₂, mem₂, seen₁ ++ seen₂, hc₂, fun j hj => ?_, ?_, fun c hc0 hcs => ?_,
      fun n hn => ?_, fun n seen => ?_⟩
    · rcases List.mem_cons.mp hj with rfl | hj
      · rw [hother₂ _ (fun hc => hi0 (UsbList.period.inj hc))
          (fun i' hi' hc => hni (UsbList.period.inj hc ▸ hi')), hself]
      · rw [his₂ j hj, hrest j hj]
    · rw [hzero₂, hzero, List.length_cons, Function.iterate_succ_apply]
    · rw [hother₂ c hc0 fun j hj => hcs j (List.mem_cons_of_mem i hj),
        hother c hc0 (hcs i List.mem_cons_self)]
    · rcases List.mem_append.mp hn with hn | hn
      · exact (hsub₁ n hn).elim (fun hn => ⟨i, hn⟩) fun hn => ⟨0, hn⟩
      · obtain ⟨j, hj⟩ := hsub₂ n hn
        refine ⟨j, ?_⟩
        by_cases hj0 : j = usbPeriod1ms
        · subst hj0
          rw [hzero] at hj
          exact ((Sweep.sweep_sublist _ _).cons_cons _).subset hj
        · by_cases hji : j = i
          · subst hji
            rw [hself] at hj
            exact (List.filter_sublist.cons_cons _).subset hj
          · rwa [hother _ (fun hc => hj0 (UsbList.period.inj hc))
              (fun hc => hji (UsbList.period.inj hc))] at hj
    · have h1 := hloop₁ (n + k₂) seen
      have h2 := hloop₂ (n + k₁) (seen ++ seen₁)
      rw [show n + k₂ + k₁ = n + (k₁ + k₂) by omega] at h1
      rw [show n + k₁ + k₂ = n + (k₁ + k₂) by omega] at h2
      rw [List.foldlM_cons, usbHostListRemoveQhdByAddr]
      exact (congrArg (fun o => Option.bind o _) h1).trans (h2.trans (by rw [List.append_assoc]))

end Close

/-- All lists. -/
def UsbList.all : List UsbList := .async :: (List.finRange usbHcdPeriodicArrCount).map .period

theorem UsbList.mem_all (c : UsbList) : c ∈ UsbList.all := by
  cases c with
  | async => decide
  | period i => revert i; decide

namespace UsbHost

/-- A queue head is the head or a member of a list. -/
def Linked (h : UsbHost) (n : UsbNode) : Prop := ∃ c ∈ UsbList.all, n ∈ c.head :: h.members c

/-- The sweeps reach every queue head of the device.  In the asynchronous list the
run of them at the end has length `2 ^ t - 1` and every run is shorter than
`2 ^ (t + 1)`; the 1 ms list does not end with one; in the longer periods no two
of them are adjacent. -/
def Closable (h : UsbHost) (devAddr : BitVec 8) : Prop :=
  (∃ t ≤ (h.members .async).length,
    Sweep.trail (h.owned devAddr) (h.members .async) + 1 = 2 ^ t ∧
      Sweep.maxRun (h.owned devAddr) (h.members .async) < 2 ^ (t + 1)) ∧
  Sweep.trail (h.owned devAddr) (h.members (.period usbPeriod1ms)) = 0 ∧
  ∀ i : Fin usbHcdPeriodicArrCount, i ≠ usbPeriod1ms →
    Sweep.maxRun (h.owned devAddr) (h.members (.period i)) < 2

instance (h : UsbHost) (n : UsbNode) : Decidable (h.Linked n) :=
  inferInstanceAs (Decidable (∃ c ∈ UsbList.all, n ∈ c.head :: h.members c))

instance (h : UsbHost) (devAddr : BitVec 8) : Decidable (h.Closable devAddr) := by
  unfold Closable
  exact inferInstance

end UsbHost

/-- A periodic list has room for fewer than sixteen members. -/
theorem Sched.length_lt {h : UsbHost} {mem : UsbList → List UsbNode} (hs : Sched h mem) :
    (mem (.period usbPeriod1ms)).length < 16 := by
  have hnodup : (([.period 0, .period 1, .period 2, .period 3] : List UsbNode) ++
      mem (.period usbPeriod1ms)).Nodup := by
    refine List.nodup_append.mpr
      ⟨by decide, (List.nodup_cons.mp (hs.nodup (.period usbPeriod1ms))).2, ?_⟩
    intro x hx y hy hxy
    have hhead : ∃ i, x = (UsbList.period i).head := by
      simp only [List.mem_cons, List.not_mem_nil, or_false] at hx
      rcases hx with rfl | rfl | rfl | rfl
      · exact ⟨0, rfl⟩
      · exact ⟨1, rfl⟩
      · exact ⟨2, rfl⟩
      · exact ⟨3, rfl⟩
    obtain ⟨i, rfl⟩ := hhead
    exact hs.head_not_mem (.period i) (.period usbPeriod1ms) (hxy ▸ hy)
  have hcard := hnodup.length_le_card
  rw [List.length_append] at hcard
  have h18 : Fintype.card UsbNode = 18 := by decide
  rw [h18] at hcard
  change 4 + (mem (.period usbPeriod1ms)).length ≤ 18 at hcard
  omega

/-- Four sweeps, one for each period, clear the 1 ms list. -/
theorem Sched.four_sweeps {h : UsbHost} {mem : UsbList → List UsbNode} (hs : Sched h mem)
    (m : UsbNode → Bool) : (Sweep.sweep m)^[4] (mem (.period usbPeriod1ms)) =
      (mem (.period usbPeriod1ms)).filter fun n => !m n := by
  apply Sweep.iterate_sweep_eq_filter
  exact Nat.lt_of_le_of_lt (Sweep.maxRun_le_length _ _) hs.length_lt

/-- What a close does to a well-formed schedule. -/
theorem Sched.close {h : UsbHost} (hs : Sched h h.members) {devAddr : BitVec 8}
    (haddr : devAddr ≠ 0) (hcl : h.Closable devAddr) :
    ∃ k h' mem' seen, Closing h h' mem' ∧
      (∀ c, mem' c = (h.members c).filter fun n => !h.owned devAddr n) ∧
      (∀ n ∈ seen, ∃ c : UsbList, n ∈ c.head :: h.members c) ∧
      ∀ n, usbHostDeviceClose (n + k) h devAddr = some (h', seen) := by
  obtain ⟨⟨t, -, htrail, hrun⟩, htrail0, hlonger⟩ := hcl
  obtain ⟨k₁, h₁, seen₁, hc₁, hsub₁, hloop₁⟩ :=
    Closing.async devAddr t h h.members ⟨hs, fun _ => rfl⟩ htrail hrun
  set mem₁ := setMembers h.members .async
    ((h.members .async).filter fun n => !h.owned devAddr n) with hmem₁
  have hper₁ : ∀ i, mem₁ (.period i) = h.members (.period i) := fun i =>
    setMembers_of_ne (UsbList.noConfusion)
  obtain ⟨k₂, h₂, seen₂, hc₂, hsub₂, hloop₂⟩ := hc₁.oneMs devAddr
    (by rw [hper₁]; exact htrail0) (.period usbPeriod1ms)
  set mem₂ := setMembers mem₁ (.period usbPeriod1ms)
    (Sweep.sweep (h.owned devAddr) (mem₁ (.period usbPeriod1ms))) with hmem₂
  have hzero₂ : mem₂ (.period usbPeriod1ms) =
      Sweep.sweep (h.owned devAddr) (h.members (.period usbPeriod1ms)) := by
    rw [hmem₂, setMembers_self, hper₁]
  have hper₂ : ∀ i, i ≠ usbPeriod1ms → mem₂ (.period i) = h.members (.period i) := by
    intro i hi
    rw [hmem₂, setMembers_of_ne (fun hc => hi (UsbList.period.inj hc)), hper₁]
  obtain ⟨k₃, h₃, mem₃, seen₃, hc₃, his₃, hzero₃, hother₃, hsub₃, hloop₃⟩ :=
    Closing.periods haddr [1, 2, 3] h₂ mem₂ hc₂
      (by rw [hzero₂, Sweep.trail_sweep, htrail0]) (by decide) (fun i hi => by
        have hi0 : i ≠ usbPeriod1ms := by
          rintro rfl
          exact absurd hi (by decide)
        refine ⟨hi0, ?_⟩
        rw [hper₂ i hi0]
        exact hlonger i hi0)
  refine ⟨k₁ + k₂ + k₃, h₃, mem₃, seen₁ ++ seen₂ ++ seen₃, hc₃, fun c => ?_, fun n hn => ?_,
    fun n => ?_⟩
  · cases c with
    | async =>
      rw [hother₃ .async UsbList.noConfusion fun _ _ => UsbList.noConfusion, hmem₂,
        setMembers_of_ne UsbList.noConfusion, hmem₁, setMembers_self]
    | period i =>
      by_cases hi : i = usbPeriod1ms
      · subst hi
        rw [hzero₃, hzero₂]
        exact hs.four_sweeps (h.owned devAddr)
      · have hmem : i ∈ ([1, 2, 3] : List (Fin usbHcdPeriodicArrCount)) := by
          revert i
          decide
        rw [his₃ i hmem, hper₂ i hi]
  · rcases List.mem_append.mp hn with hn | hn
    · rcases List.mem_append.mp hn with hn | hn
      · exact ⟨.async, hsub₁ n hn⟩
      · rw [hper₁] at hsub₂
        exact ⟨.period usbPeriod1ms, hsub₂ n hn⟩
    · obtain ⟨i, hi⟩ := hsub₃ n hn
      refine ⟨.period i, ?_⟩
      by_cases hi0 : i = usbPeriod1ms
      · subst hi0
        rw [hzero₂] at hi
        exact ((Sweep.sweep_sublist _ _).cons_cons _).subset hi
      · rwa [hper₂ i hi0] at hi
  · have h1 := hloop₁ (n + k₂ + k₃) []
    have h2 := hloop₂ (n + k₁ + k₃) seen₁
    have h3 := hloop₃ (n + k₁ + k₂) (seen₁ ++ seen₂)
    rw [show n + k₂ + k₃ + k₁ = n + (k₁ + k₂ + k₃) by omega] at h1
    rw [show n + k₁ + k₃ + k₂ = n + (k₁ + k₂ + k₃) by omega] at h2
    rw [show n + k₁ + k₂ + k₃ = n + (k₁ + k₂ + k₃) by omega] at h3
    rw [usbHostDeviceClose, if_neg haddr]
    refine (congrArg (fun o => Option.bind o _) h1).trans ?_
    exact (congrArg (fun o => Option.bind o _) h2).trans h3

/-! ## The number of passes -/

section Passes

variable {devAddr : BitVec 8}

/-- A loop that ends is the same with more passes allowed. -/
theorem usbHostListRemoveLoop_mono (listHead : UsbNode) (k : Nat) : ∀ (n : Nat) (h : UsbHost)
    (prev : Option UsbNode) (seen : List UsbNode) (r : UsbHost × List UsbNode),
      usbHostListRemoveLoop listHead devAddr n h prev seen = some r →
        usbHostListRemoveLoop listHead devAddr (n + k) h prev seen = some r := by
  intro n
  induction n with
  | zero =>
    intro h prev seen r hr
    cases hr
  | succ n ih =>
    intro h prev seen r hr
    rw [Nat.add_right_comm]
    cases prev with
    | none => cases hr
    | some prev =>
      rw [usbHostListRemoveLoop] at hr ⊢
      dsimp only at hr ⊢
      split at hr
      · rename_i hstop
        rw [if_pos hstop]
        exact hr
      · rename_i hgo
        rw [if_neg hgo]
        cases hx : (h.qhd prev).next.address with
        | none =>
          rw [hx] at hr
          cases hr
        | some x =>
          rw [hx] at hr
          dsimp only at hr ⊢
          split at hr
          · rename_i howned
            rw [if_pos howned]
            exact ih _ _ _ _ hr
          · rename_i howned
            rw [if_neg howned]
            exact ih _ _ _ _ hr

/-- More fuel does not change a result. -/
theorem foldlM_mono {α β : Type} {f g : β → α → Option β}
    (hfg : ∀ b a r, f b a = some r → g b a = some r) (l : List α) :
    ∀ (b r : β), l.foldlM f b = some r → l.foldlM g b = some r := by
  induction l with
  | nil => exact fun b r hr => hr
  | cons a l ih =>
    intro b r hr
    rw [List.foldlM_cons] at hr ⊢
    obtain ⟨b', hb', hr'⟩ := Option.bind_eq_some_iff.mp hr
    exact Option.bind_eq_some_iff.mpr ⟨b', hfg b a b' hb', ih b' r hr'⟩

/-- So a close that ends within some passes ends with the same result within more. -/
theorem usbHostDeviceClose_mono {n : Nat} {h : UsbHost} {r : UsbHost × List UsbNode} (k : Nat)
    (hr : usbHostDeviceClose n h devAddr = some r) :
    usbHostDeviceClose (n + k) h devAddr = some r := by
  unfold usbHostDeviceClose at hr ⊢
  split at hr
  · rename_i h0
    rw [if_pos h0]
    exact hr
  · rename_i h0
    rw [if_neg h0]
    obtain ⟨s, hs, hr'⟩ := Option.bind_eq_some_iff.mp hr
    refine Option.bind_eq_some_iff.mpr ⟨s, usbHostListRemoveLoop_mono _ k _ _ _ _ _ hs, ?_⟩
    exact foldlM_mono (fun s i r => usbHostListRemoveLoop_mono _ k _ _ _ _ r) _ _ _ hr'

/-- Whatever number of passes a close ends within, the schedule is well formed again. -/
theorem Sched.close_step {h h' : UsbHost} (hs : Sched h h.members) {seen : List UsbNode}
    {n : Nat} (hcl : devAddr = 0 ∨ h.Closable devAddr)
    (hr : usbHostDeviceClose n h devAddr = some (h', seen)) : Sched h' h'.members := by
  by_cases haddr : devAddr = 0
  · rw [usbHostDeviceClose, if_pos haddr] at hr
    cases hr
    exact hs
  · obtain ⟨k, h₂, mem₂, seen₂, hc, -, -, hclose⟩ := hs.close haddr (hcl.resolve_left haddr)
    have hmono := usbHostDeviceClose_mono k hr
    rw [hclose n] at hmono
    cases hmono
    rw [hc.sched.members_eq]
    exact hc.sched

end Passes

end HpmSdk.Usb
