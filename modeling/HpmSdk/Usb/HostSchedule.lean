import HpmSdk.Usb.Host
import Mathlib.Data.Fintype.Card

set_option autoImplicit false

/-!
# USB host: well-formed schedules

The asynchronous list runs from the control queue head of device 0 back to it;
the lists of the four periods run from their heads to the 1 ms head, and that one
to a terminator.  `Sched` says so for given members, with no queue head in two
places, and is kept by linking and unlinking one queue head.
-/

namespace HpmSdk.Usb

/-! ## Paths -/

/-- The links from `n` on lead through `xs` and then give the link `e`. -/
def Path (h : UsbHost) (n : UsbNode) (xs : List UsbNode) (e : UsbLink) : Prop :=
  match xs with
  | [] => (h.qhd n).next = e
  | x :: xs => (h.qhd n).next = UsbLink.to x ∧ Path h x xs e

/-- The last queue head of a path. -/
def lastNode (n : UsbNode) : List UsbNode → UsbNode
  | [] => n
  | x :: xs => lastNode x xs

@[simp] theorem lastNode_snoc (n x : UsbNode) (xs : List UsbNode) :
    lastNode n (xs ++ [x]) = x := by
  induction xs generalizing n with
  | nil => rfl
  | cons y ys ih => exact ih y

theorem lastNode_mem (n : UsbNode) (xs : List UsbNode) : lastNode n xs ∈ n :: xs := by
  induction xs generalizing n with
  | nil => exact List.mem_singleton_self n
  | cons x xs ih => exact List.mem_cons_of_mem n (ih x)

/-- A path depends on the links of its queue heads only. -/
theorem Path.congr {h h' : UsbHost} {n : UsbNode} {xs : List UsbNode} {e : UsbLink}
    (hp : Path h n xs e) (heq : ∀ k ∈ n :: xs, (h'.qhd k).next = (h.qhd k).next) :
    Path h' n xs e := by
  induction xs generalizing n with
  | nil => exact (heq n (List.mem_singleton_self n)).trans hp
  | cons x xs ih =>
    exact ⟨(heq n List.mem_cons_self).trans hp.1,
      ih hp.2 fun k hk => heq k (List.mem_cons_of_mem n hk)⟩

/-- A path through a queue head is one to it and one from it on. -/
theorem Path.append_iff {h : UsbHost} {n m : UsbNode} {xs ys : List UsbNode} {e : UsbLink} :
    Path h n (xs ++ m :: ys) e ↔ Path h n xs (UsbLink.to m) ∧ Path h m ys e := by
  induction xs generalizing n with
  | nil => exact Iff.rfl
  | cons x xs ih =>
    rw [List.cons_append, Path, Path, ih, and_assoc]

/-- The link behind the first part of a path. -/
theorem Path.next_last {h : UsbHost} {n : UsbNode} {xs ys : List UsbNode} {e : UsbLink}
    (hp : Path h n (xs ++ ys) e) : Path h (lastNode n xs) ys e := by
  induction xs generalizing n with
  | nil => exact hp
  | cons x xs ih => exact ih hp.2

/-- Taking a queue head out of a path. -/
theorem Path.unlink {h h' : UsbHost} {n x : UsbNode} {xs ys : List UsbNode} {e : UsbLink}
    (hp : Path h n (xs ++ x :: ys) e) (hnodup : (n :: (xs ++ x :: ys)).Nodup)
    (hlast : (h'.qhd (lastNode n xs)).next = (h.qhd x).next)
    (hother : ∀ k, k ≠ lastNode n xs → k ≠ x → (h'.qhd k).next = (h.qhd k).next) :
    Path h' n (xs ++ ys) e := by
  induction xs generalizing n with
  | nil =>
    rw [List.nil_append] at hp hnodup ⊢
    obtain ⟨hn, hx⟩ := List.nodup_cons.mp hnodup
    obtain ⟨hxs, hys⟩ := List.nodup_cons.mp hx
    cases ys with
    | nil => exact hlast.trans hp.2
    | cons y ys =>
      refine ⟨hlast.trans hp.2.1, hp.2.2.congr fun k hk => hother k ?_ ?_⟩
      · rintro rfl
        exact hn (List.mem_cons_of_mem x hk)
      · rintro rfl
        exact hxs hk
  | cons y xs ih =>
    obtain ⟨hn, hy⟩ := List.nodup_cons.mp hnodup
    refine ⟨(hother n ?_ ?_).trans hp.1, ih hp.2 hy hlast hother⟩
    · intro hc
      have hmem : lastNode n (y :: xs) ∈ y :: xs := lastNode_mem y xs
      rw [← hc] at hmem
      exact hn (List.mem_append_left (x :: ys) hmem)
    · rintro rfl
      exact hn (List.mem_cons_of_mem y (List.mem_append_right xs List.mem_cons_self))

/-! ## Schedules -/

/-- The lists, each for the part that it does not share. -/
inductive UsbList where
  | async
  | period (i : Fin usbHcdPeriodicArrCount)
  deriving DecidableEq, Repr

namespace UsbList

/-- The head of a list. -/
def head : UsbList → UsbNode
  | .async => usbHostQhdAsyncHead
  | .period i => .period i

/-- The link at the end of a list. -/
def tail : UsbList → UsbLink
  | .async => UsbLink.to usbHostQhdAsyncHead
  | .period i => if i = usbPeriod1ms then ⟨none, true⟩ else UsbLink.to (.period usbPeriod1ms)

/-- The lists have different heads. -/
theorem head_inj {c c' : UsbList} (h : c.head = c'.head) : c = c' := by
  cases c <;> cases c' <;> simp_all [head]

end UsbList

/-- The lists have the members given. -/
structure Sched (h : UsbHost) (mem : UsbList → List UsbNode) : Prop where
  path : ∀ c, Path h c.head (mem c) c.tail
  nodup : ∀ c, (c.head :: mem c).Nodup
  apart : ∀ c c', c ≠ c' → List.Disjoint (c.head :: mem c) (c'.head :: mem c')
  heads : ∀ c : UsbList, (h.qhd c.head).devAddr = 0

/-- Replace the members of one list. -/
def setMembers (mem : UsbList → List UsbNode) (c : UsbList) (xs : List UsbNode) :
    UsbList → List UsbNode := fun c' => if c' = c then xs else mem c'

section SetMembers

variable {mem : UsbList → List UsbNode} {c c' : UsbList} {xs ys : List UsbNode}

@[simp] theorem setMembers_self : setMembers mem c xs c = xs := if_pos rfl

theorem setMembers_of_ne (h : c' ≠ c) : setMembers mem c xs c' = mem c' := if_neg h

@[simp] theorem setMembers_setMembers :
    setMembers (setMembers mem c xs) c ys = setMembers mem c ys := by
  funext c'
  unfold setMembers
  split <;> rfl

@[simp] theorem setMembers_eq (h : mem c = xs) : setMembers mem c xs = mem := by
  funext c'
  unfold setMembers
  split
  · rename_i hc
    rw [hc, h]
  · rfl

end SetMembers

section Sched

variable {h h' : UsbHost} {mem : UsbList → List UsbNode}

/-- A head is in no list. -/
theorem Sched.head_not_mem (hs : Sched h mem) (c c' : UsbList) : c.head ∉ mem c' := by
  intro hmem
  by_cases hc : c = c'
  · subst hc
    exact (List.nodup_cons.mp (hs.nodup c)).1 hmem
  · exact hs.apart c c' hc List.mem_cons_self (List.mem_cons_of_mem _ hmem)

/-- Changing one list keeps the others, when its new members are old ones or new
to the schedule. -/
theorem Sched.set (hs : Sched h mem) {c : UsbList} {xs : List UsbNode}
    (hpath : Path h' c.head xs c.tail) (hnodup : (c.head :: xs).Nodup)
    (hnew : ∀ x ∈ xs, x ∈ mem c ∨ ∀ c', x ∉ c'.head :: mem c')
    (hother : ∀ c', c' ≠ c → ∀ k ∈ c'.head :: mem c', (h'.qhd k).next = (h.qhd k).next)
    (hheads : ∀ c' : UsbList, (h'.qhd c'.head).devAddr = 0) : Sched h' (setMembers mem c xs) := by
  have hapart : ∀ c', c' ≠ c → List.Disjoint (c'.head :: mem c') (c.head :: xs) := by
    intro c' hc' k hk hkx
    rcases List.mem_cons.mp hkx with rfl | hkx
    · exact hs.apart c' c hc' hk List.mem_cons_self
    · rcases hnew k hkx with hold | hfresh
      · exact hs.apart c' c hc' hk (List.mem_cons_of_mem _ hold)
      · exact hfresh c' hk
  refine ⟨fun c' => ?_, fun c' => ?_, fun c' c'' hne => ?_, hheads⟩
  · by_cases hc' : c' = c
    · subst hc'
      rw [setMembers_self]
      exact hpath
    · rw [setMembers_of_ne hc']
      exact (hs.path c').congr (hother c' hc')
  · by_cases hc' : c' = c
    · subst hc'
      rw [setMembers_self]
      exact hnodup
    · rw [setMembers_of_ne hc']
      exact hs.nodup c'
  · by_cases hc' : c' = c
    · subst hc'
      rw [setMembers_self, setMembers_of_ne hne.symm]
      exact (hapart c'' hne.symm).symm
    · by_cases hc'' : c'' = c
      · subst hc''
        rw [setMembers_self, setMembers_of_ne hc']
        exact hapart c' hc'
      · rw [setMembers_of_ne hc', setMembers_of_ne hc'']
        exact hs.apart c' c'' hne

/-- A change of no link in a list and of no address of a head. -/
theorem Sched.congr (hs : Sched h mem)
    (hnext : ∀ c, ∀ k ∈ c.head :: mem c, (h'.qhd k).next = (h.qhd k).next)
    (hheads : ∀ c : UsbList, (h'.qhd c.head).devAddr = 0) : Sched h' mem :=
  ⟨fun c => (hs.path c).congr (hnext c), hs.nodup, hs.apart, hheads⟩

end Sched

/-! ## The members of a list, followed link by link -/

/-- The queue heads behind `n` up to a terminator or a stop, at most so many. -/
def follow (h : UsbHost) (stop : UsbNode) : Nat → UsbNode → List UsbNode
  | 0, _ => []
  | k + 1, n =>
    if (h.qhd n).next.terminate = true then []
    else
      match (h.qhd n).next.address with
      | none => []
      | some x => if x = stop then [] else x :: follow h stop k x

/-- The members of a list: what lies between its head and its tail. -/
def UsbHost.members (h : UsbHost) : UsbList → List UsbNode
  | .async => follow h usbHostQhdAsyncHead (Fintype.card UsbNode) usbHostQhdAsyncHead
  | .period i => follow h (.period usbPeriod1ms) (Fintype.card UsbNode) (.period i)

/-- Following the links gives the members of a list. -/
theorem follow_eq {h : UsbHost} {stop : UsbNode} {e : UsbLink}
    (he : e.terminate = true ∨ e = UsbLink.to stop) : ∀ (k : Nat) (n : UsbNode) (xs : List UsbNode),
      Path h n xs e → stop ∉ xs → xs.length < k → follow h stop k n = xs := by
  intro k
  induction k with
  | zero => exact fun n xs _ _ hlt => absurd hlt (Nat.not_lt_zero _)
  | succ k ih =>
    intro n xs hp hstop hlt
    cases xs with
    | nil =>
      have hnext : (h.qhd n).next = e := hp
      rw [follow, hnext]
      rcases he with hterm | rfl
      · rw [if_pos hterm]
      · exact if_pos rfl
    | cons x xs =>
      have hx : x ≠ stop := fun hc => hstop (hc ▸ List.mem_cons_self)
      rw [follow, hp.1]
      change (if x = stop then [] else x :: follow h stop k x) = x :: xs
      rw [if_neg hx, ih x xs hp.2 (fun hmem => hstop (List.mem_cons_of_mem x hmem))
        (Nat.lt_of_succ_lt_succ hlt)]

/-- So the members are determined by the schedule. -/
theorem Sched.members_eq {h : UsbHost} {mem : UsbList → List UsbNode} (hs : Sched h mem) :
    h.members = mem := by
  funext c
  have hlen : (mem c).length < Fintype.card UsbNode := (hs.nodup c).length_le_card
  cases c with
  | async => exact follow_eq (Or.inr rfl) _ _ _ (hs.path .async) (hs.head_not_mem .async _) hlen
  | period i =>
    refine follow_eq ?_ _ _ _ (hs.path (.period i)) (hs.head_not_mem (.period usbPeriod1ms) _) hlen
    unfold UsbList.tail
    dsimp only
    split
    · exact Or.inl rfl
    · exact Or.inr rfl

end HpmSdk.Usb
