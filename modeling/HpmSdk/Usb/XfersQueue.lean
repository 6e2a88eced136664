import HpmSdk.Usb.Xfers
import Mathlib.Data.List.Chain

set_option autoImplicit false

/-!
# USB host: the queues of transfer descriptors

The queues agree with the ledger; taking the first descriptor out of one and appending a
new one keep that.

`UsbFifo` is the queue as a list of descriptors; its first and its last one are those that the queue
head names.
-/

namespace HpmSdk.Usb

/-! ## The invariant of the queues -/

/-- The descriptors that a queue head can have. -/
def UsbNode.Owns : UsbNode → UsbQtdNode → Prop
  | .control i, t => t = .control i
  | .pool _, t => ∃ j, t = .pool j
  | .period _, _ => False

/-- The queues agree with the ledger. -/
structure UsbQueues (h : UsbHcd) (l : UsbLedger) : Prop where
  fifo : UsbFifo h l.queue
  ends : ∀ n, ∀ t ∈ (l.queue n).getLast?, (h.qtd t).next.address = none
  owner : ∀ n, ∀ t ∈ l.queue n, n.Owns t
  conserved : ∀ t, l.submitted t = l.returned t + if ∃ n, t ∈ l.queue n then 1 else 0
  bytes : ∀ p ∈ l.events, p.1.bytes.toNat = p.2
  total : ∀ n, (h.queue n).totalXferredBytes.toNat = l.since n
  left : ∀ n, ∀ t ∈ l.queue n,
    (h.qtd t).expectedBytes.toNat = (h.qtd t).totalBytes.toNat + l.moved t
  halted : ∀ n, ∀ t ∈ l.queue n, (h.qtd t).halted = true →
    (h.queue n).overlay.halted = true ∧ (h.queue n).overlay.hasError = (h.qtd t).hasError
  one : ∀ n, ∀ t ∈ l.queue n, ∀ u ∈ l.queue n, (h.qtd t).halted = true →
    (h.qtd u).halted = true → t = u

/-- The stalls and errors were reported, or are still to be reported. -/
def UsbFailures (h : UsbHcd) (l : UsbLedger) : Prop :=
  ∀ n r, r ≠ .success →
    l.failed n r = l.reported n r + if (UsbXfers.mk h l).Pending n r then 1 else 0

section Queue

variable {h : UsbHcd} {l : UsbLedger} {n : UsbNode} {t : UsbQtdNode} {ts : List UsbQtdNode}

/-- The bytes of a descriptor are those that the controller moved by it. -/
theorem UsbQueues.bytes_eq (hq : UsbQueues h l) (ht : t ∈ l.queue n) :
    (h.qtd t).bytes = l.moved t := by
  unfold UsbQtd.bytes
  rw [hq.left n t ht]
  exact Nat.add_sub_cancel_left _ _

/-- A descriptor of one queue is in no other. -/
theorem UsbQueues.unique (hq : UsbQueues h l) {m : UsbNode} (hn : t ∈ l.queue n)
    (hm : t ∈ l.queue m) : n = m := by
  by_contra hne
  exact hq.fifo.apart n m hne hn hm

/-- Only the overlays, the flags that nobody counts and the interrupts on completion differ. -/
structure UsbHcd.SameQueues (h h' : UsbHcd) : Prop where
  head : ∀ n, (h'.queue n).listHead = (h.queue n).listHead
  tail : ∀ n, (h'.queue n).listTail = (h.queue n).listTail
  total : ∀ n, (h'.queue n).totalXferredBytes = (h.queue n).totalXferredBytes
  next : ∀ t, (h'.qtd t).next.address = (h.qtd t).next.address
  used : ∀ t, (h'.qtd t).used = (h.qtd t).used
  expected : ∀ t, (h'.qtd t).expectedBytes = (h.qtd t).expectedBytes
  left : ∀ t, (h'.qtd t).totalBytes = (h.qtd t).totalBytes
  halted : ∀ t, (h'.qtd t).halted = (h.qtd t).halted
  error : ∀ t, (h'.qtd t).hasError = (h.qtd t).hasError

theorem UsbHcd.SameQueues.refl (h : UsbHcd) : h.SameQueues h :=
  ⟨fun _ => rfl, fun _ => rfl, fun _ => rfl, fun _ => rfl, fun _ => rfl, fun _ => rfl,
    fun _ => rfl, fun _ => rfl, fun _ => rfl⟩

/-- Where the queues are the same they hold the same descriptors. -/
theorem UsbHcd.SameQueues.fifo {h' : UsbHcd} (hs : h.SameQueues h')
    {q : UsbNode → List UsbQtdNode} (hf : UsbFifo h q) : UsbFifo h' q := by
  refine ⟨fun n => (hs.head n).trans (hf.head n), fun n => (hs.tail n).trans (hf.tail n),
    fun n => (hf.links n).imp fun t u htu => (hs.next t).trans htu, fun t => ?_, hf.nodup, hf.apart⟩
  rw [hs.used]
  exact hf.used t

/-- Such a change keeps the agreement, when the overlays of queue heads with a halted
descriptor show it still. -/
theorem UsbQueues.congr {h' : UsbHcd} (hq : UsbQueues h l) (hs : h.SameQueues h')
    (hoverlay : ∀ n, ∀ t ∈ l.queue n, (h.qtd t).halted = true →
      (h'.queue n).overlay.halted = (h.queue n).overlay.halted ∧
        (h'.queue n).overlay.hasError = (h.queue n).overlay.hasError) : UsbQueues h' l := by
  refine ⟨hs.fifo hq.fifo, fun n t ht => (hs.next t).trans (hq.ends n t ht), hq.owner,
    hq.conserved, hq.bytes, fun n => ?_, fun n t ht => ?_, fun n t ht hhalt => ?_,
    fun n t ht u hu hth huh => ?_⟩
  · rw [hs.total]
    exact hq.total n
  · rw [hs.expected, hs.left]
    exact hq.left n t ht
  · rw [hs.halted] at hhalt
    rw [hs.error, (hoverlay n t ht hhalt).1, (hoverlay n t ht hhalt).2]
    exact hq.halted n t ht hhalt
  · rw [hs.halted] at hth huh
    exact hq.one n t ht u hu hth huh

/-- Where the queues are the same so are the failures. -/
theorem UsbFailures.congr {h' : UsbHcd} (hf : UsbFailures h l) (hs : h.SameQueues h') :
    UsbFailures h' l := by
  intro n r hr
  have hpending : (UsbXfers.mk h' l).Pending n r ↔ (UsbXfers.mk h l).Pending n r := by
    refine exists_congr fun t => and_congr_right fun _ => ?_
    unfold UsbQtd.result
    rw [hs.halted, hs.error]
  rw [hf n r hr]
  simp only [hpending]

/-! ## Taking out the first descriptor -/

/-- The state behind the removal of `t`, the first of a queue, with the others `ts`. -/
def usbHostPopped (h : UsbHcd) (n : UsbNode) (t : UsbQtdNode) (ts : List UsbQtdNode) : UsbHcd :=
  (usbHostCollect h n t).setQueue n
    { (usbHostCollect h n t).queue n with listHead := ts.head?, listTail := ts.getLast? }

theorem usbHostCollect_queue : (usbHostCollect h n t).queue n =
    { h.queue n with totalXferredBytes := (h.queue n).totalXferredBytes +
      ((h.qtd t).expectedBytes - (h.qtd t).totalBytes.setWidth 16) } := by
  unfold usbHostCollect
  dsimp only
  rw [UsbHcd.setQtd_queue, UsbHcd.setQueue_self]

theorem usbHostCollect_queue_of_ne {m : UsbNode} (hm : m ≠ n) :
    (usbHostCollect h n t).queue m = h.queue m := by
  unfold usbHostCollect
  dsimp only
  rw [UsbHcd.setQtd_queue, UsbHcd.setQueue_of_ne _ _ hm]

theorem usbHostCollect_qtd (u : UsbQtdNode) : (usbHostCollect h n t).qtd u =
    { h.qtd u with used := if u = t then false else (h.qtd u).used } := by
  unfold usbHostCollect
  by_cases hu : u = t
  · subst hu
    rw [UsbHcd.setQtd_self, if_pos rfl]
  · rw [UsbHcd.setQtd_of_ne _ _ hu, UsbHcd.setQueue_qtd, if_neg hu]

theorem usbHostPopped_queue : (usbHostPopped h n t ts).queue n =
    { h.queue n with
      totalXferredBytes := (h.queue n).totalXferredBytes +
        ((h.qtd t).expectedBytes - (h.qtd t).totalBytes.setWidth 16)
      listHead := ts.head?
      listTail := ts.getLast? } := by
  unfold usbHostPopped
  rw [UsbHcd.setQueue_self, usbHostCollect_queue]

theorem usbHostPopped_queue_of_ne {m : UsbNode} (hm : m ≠ n) :
    (usbHostPopped h n t ts).queue m = h.queue m := by
  unfold usbHostPopped
  rw [UsbHcd.setQueue_of_ne _ _ hm, usbHostCollect_queue_of_ne hm]

theorem usbHostPopped_qtd (u : UsbQtdNode) : (usbHostPopped h n t ts).qtd u =
    { h.qtd u with used := if u = t then false else (h.qtd u).used } := by
  unfold usbHostPopped
  rw [UsbHcd.setQueue_qtd, usbHostCollect_qtd]

/-- The removal follows the link of the first descriptor, unless it is the last. -/
theorem UsbFifo.remove1st {q : UsbNode → List UsbQtdNode} (hf : UsbFifo h q)
    (hn : q n = t :: ts) :
    usbHostQtdRemove1stFromQhd (usbHostCollect h n t) n = some (usbHostPopped h n t ts) := by
  have hhead := hf.head n
  have htail := hf.tail n
  rw [hn] at hhead htail
  unfold usbHostQtdRemove1stFromQhd
  rw [usbHostCollect_queue]
  dsimp only
  rw [hhead, htail, List.head?_cons]
  cases ts with
  | nil =>
    have hlast : some t = [t].getLast? := rfl
    rw [if_pos hlast]
    unfold usbHostPopped
    rw [usbHostCollect_queue]
    rfl
  | cons u ts =>
    have hnodup := hf.nodup n
    have hlinks := hf.links n
    rw [hn] at hnodup hlinks
    have hlast : some t ≠ (t :: u :: ts).getLast? := by
      rw [List.getLast?_cons_cons]
      intro hc
      exact (List.nodup_cons.mp hnodup).1 (List.mem_of_getLast? hc.symm)
    rw [if_neg hlast, Option.map_some, usbHostCollect_qtd]
    dsimp only
    rw [(List.isChain_cons_cons.mp hlinks).1]
    unfold usbHostPopped
    rw [usbHostCollect_queue, List.head?_cons]
    dsimp only
    rw [List.getLast?_cons_cons]

/-- What is behind the first descriptor was in the queue before. -/
theorem mem_of_mem_tail {q : UsbNode → List UsbQtdNode} {m : UsbNode} {u : UsbQtdNode}
    (hu : u ∈ Function.update q n (q n).tail m) : u ∈ q m := by
  by_cases hm : m = n
  · subst hm
    rw [Function.update_self] at hu
    exact List.mem_of_mem_tail hu
  · rwa [Function.update_of_ne hm] at hu

/-- Of the members of all queues only the first descriptor of one is gone. -/
theorem UsbFifo.mem_tail_iff {q : UsbNode → List UsbQtdNode} (hf : UsbFifo h q)
    (hn : q n = t :: ts) (u : UsbQtdNode) :
    (∃ m, u ∈ Function.update q n (q n).tail m) ↔ u ≠ t ∧ ∃ m, u ∈ q m := by
  have hnodup := hf.nodup n
  rw [hn] at hnodup
  have htn : t ∈ q n := hn ▸ List.mem_cons_self
  constructor
  · rintro ⟨m, hm⟩
    refine ⟨?_, m, mem_of_mem_tail hm⟩
    rintro rfl
    by_cases hmn : m = n
    · subst hmn
      rw [Function.update_self, hn] at hm
      exact (List.nodup_cons.mp hnodup).1 hm
    · rw [Function.update_of_ne hmn] at hm
      exact hf.apart m n hmn hm htn
  · rintro ⟨hut, m, hm⟩
    refine ⟨m, ?_⟩
    by_cases hmn : m = n
    · subst hmn
      rw [Function.update_self, hn]
      rw [hn] at hm
      exact (List.mem_cons.mp hm).resolve_left hut
    · rwa [Function.update_of_ne hmn]

/-- Taking the first descriptor out leaves the others in order. -/
theorem UsbFifo.popped {q : UsbNode → List UsbQtdNode} (hf : UsbFifo h q) (hn : q n = t :: ts) :
    UsbFifo (usbHostPopped h n t ts) (Function.update q n (q n).tail) := by
  have hother : ∀ m, m ≠ n → Function.update q n (q n).tail m = q m := fun m hm =>
    Function.update_of_ne hm _ _
  refine ⟨fun m => ?_, fun m => ?_, fun m => ?_, fun u => ?_, fun m => ?_, fun m m' hne => ?_⟩
  · by_cases hm : m = n
    · subst hm
      rw [usbHostPopped_queue, Function.update_self, hn]
      rfl
    · rw [usbHostPopped_queue_of_ne hm, hother m hm]
      exact hf.head m
  · by_cases hm : m = n
    · subst hm
      rw [usbHostPopped_queue, Function.update_self, hn]
      rfl
    · rw [usbHostPopped_queue_of_ne hm, hother m hm]
      exact hf.tail m
  · have hlinks : (q m).IsChain
        fun a b => ((usbHostPopped h n t ts).qtd a).next.address = some b := by
      refine (hf.links m).imp fun a b hab => ?_
      rw [usbHostPopped_qtd]
      exact hab
    by_cases hm : m = n
    · subst hm
      rw [Function.update_self]
      exact hlinks.tail
    · rwa [hother m hm]
  · rw [hf.mem_tail_iff hn, usbHostPopped_qtd]
    dsimp only
    split
    · rename_i hut
      exact iff_of_false Bool.false_ne_true fun hc => hc.1 hut
    · rename_i hut
      rw [hf.used u]
      exact (and_iff_right hut).symm
  · by_cases hm : m = n
    · subst hm
      rw [Function.update_self]
      exact (hf.nodup m).tail
    · rw [hother m hm]
      exact hf.nodup m
  · exact fun u hu hu' => hf.apart m m' hne (mem_of_mem_tail hu) (mem_of_mem_tail hu')

/-- The bytes of a descriptor, added in 16 bits. -/
theorem UsbQueues.total_add (hq : UsbQueues h l) (ht : t ∈ l.queue n)
    (hsum : l.since n + (h.qtd t).bytes < 2 ^ 16) :
    ((h.queue n).totalXferredBytes +
      ((h.qtd t).expectedBytes - (h.qtd t).totalBytes.setWidth 16)).toNat =
        l.since n + l.moved t := by
  have hleft := hq.left n t ht
  have htotal := hq.total n
  have hwidth : ((h.qtd t).totalBytes.setWidth 16).toNat = (h.qtd t).totalBytes.toNat :=
    BitVec.toNat_setWidth_of_le (by decide)
  have hsub : ((h.qtd t).expectedBytes - (h.qtd t).totalBytes.setWidth 16).toNat = l.moved t := by
    rw [BitVec.toNat_sub_of_le, hwidth, hleft, Nat.add_sub_cancel_left]
    rw [BitVec.le_def, hwidth, hleft]
    exact Nat.le_add_right _ _
  rw [hq.bytes_eq ht] at hsum
  rw [BitVec.toNat_add, hsub, htotal]
  exact Nat.mod_eq_of_lt hsum

/-- Freeing the first descriptor of a queue. -/
theorem UsbQueues.popped (hq : UsbQueues h l) (hn : l.queue n = t :: ts)
    (hsum : l.since n + (h.qtd t).bytes < 2 ^ 16) :
    UsbQueues (usbHostPopped h n t ts) (l.free n t) := by
  have htn : t ∈ l.queue n := hn ▸ List.mem_cons_self
  have hold : ∀ m u, u ∈ (l.free n t).queue m → u ∈ l.queue m := fun m u hu => mem_of_mem_tail hu
  refine ⟨hq.fifo.popped hn, fun m u hu => ?_, fun m u hu => hq.owner m u (hold m u hu),
    fun u => ?_, hq.bytes, fun m => ?_, fun m u hu => ?_, fun m u hu hhalt => ?_,
    fun m u hu v hv hhu hhv => ?_⟩
  · rw [usbHostPopped_qtd]
    refine hq.ends m u ?_
    unfold UsbLedger.free at hu
    dsimp only at hu
    by_cases hm : m = n
    · subst hm
      rw [Function.update_self, hn, List.tail_cons] at hu
      rw [hn]
      cases ts with
      | nil => exact nomatch hu
      | cons v ts => exact hu
    · rwa [Function.update_of_ne hm] at hu
  · have hcount := hq.conserved u
    have hiff := hq.fifo.mem_tail_iff hn u
    unfold UsbLedger.free
    dsimp only
    by_cases hut : u = t
    · subst hut
      have hin : ∃ m, u ∈ l.queue m := ⟨n, htn⟩
      have hout : ¬ ∃ m, u ∈ Function.update l.queue n (l.queue n).tail m := fun hc =>
        (hiff.mp hc).1 rfl
      rw [if_pos hin] at hcount
      rw [if_neg hout, Function.update_self]
      exact hcount
    · rw [Function.update_of_ne hut, hcount]
      simp only [hiff, hut, ne_eq, not_false_eq_true, true_and]
  · unfold UsbLedger.free
    dsimp only
    by_cases hm : m = n
    · subst hm
      rw [usbHostPopped_queue, Function.update_self]
      exact hq.total_add htn hsum
    · rw [usbHostPopped_queue_of_ne hm, Function.update_of_ne hm]
      exact hq.total m
  · rw [usbHostPopped_qtd]
    exact hq.left m u (hold m u hu)
  · rw [usbHostPopped_qtd] at hhalt ⊢
    have hshows := hq.halted m u (hold m u hu) hhalt
    by_cases hm : m = n
    · subst hm
      rw [usbHostPopped_queue]
      exact hshows
    · rw [usbHostPopped_queue_of_ne hm]
      exact hshows
  · rw [usbHostPopped_qtd] at hhu hhv
    exact hq.one m u (hold m u hu) v (hold m v hv) hhu hhv

/-! ## Reporting -/

/-- An event shows the bytes since the last one, and they are counted from zero again. -/
theorem UsbQueues.reported (hq : UsbQueues h l) {e : UsbEvent}
    (he : e.bytes = (h.queue n).totalXferredBytes) :
    UsbQueues (usbHostClearTotal h n) (l.report n e) := by
  have hqueue : ∀ m, (usbHostClearTotal h n).queue m =
      { h.queue m with
        totalXferredBytes := if m = n then 0 else (h.queue m).totalXferredBytes } := by
    intro m
    unfold usbHostClearTotal
    by_cases hm : m = n
    · subst hm
      rw [UsbHcd.setQueue_self, if_pos rfl]
    · rw [UsbHcd.setQueue_of_ne _ _ hm, if_neg hm]
  refine ⟨⟨fun m => ?_, fun m => ?_, hq.fifo.links, hq.fifo.used, hq.fifo.nodup, hq.fifo.apart⟩,
    hq.ends, hq.owner, hq.conserved, fun p hp => ?_, fun m => ?_, hq.left,
    fun m u hu hhalt => ?_, hq.one⟩
  · rw [hqueue]
    exact hq.fifo.head m
  · rw [hqueue]
    exact hq.fifo.tail m
  · rcases List.mem_append.mp hp with hp | hp
    · exact hq.bytes p hp
    · rw [List.mem_singleton.mp hp, he]
      exact hq.total n
  · unfold UsbLedger.report
    rw [hqueue]
    dsimp only
    by_cases hm : m = n
    · subst hm
      rw [if_pos rfl, Function.update_self]
      rfl
    · rw [if_neg hm, Function.update_of_ne hm]
      exact hq.total m
  · rw [hqueue]
    exact hq.halted m u hu hhalt

/-! ## Appending a descriptor -/

/-- The state behind the insertion of `t` as the last of a queue. -/
def usbHostAppended (h : UsbHcd) (n : UsbNode) (t : UsbQtdNode) (d : UsbQtd)
    (ts : List UsbQtdNode) : UsbHcd :=
  { h with
    queue := Function.update h.queue n
      { h.queue n with listHead := (ts ++ [t]).head?, listTail := some t }
    qtd := fun u => if u = t then d else if some u = ts.getLast? then
      { h.qtd u with next := ⟨some t, false⟩ } else h.qtd u }

section Appended

variable {d : UsbQtd}

theorem usbHostAppended_queue : (usbHostAppended h n t d ts).queue n =
    { h.queue n with listHead := (ts ++ [t]).head?, listTail := some t } :=
  Function.update_self _ _ _

theorem usbHostAppended_queue_of_ne {m : UsbNode} (hm : m ≠ n) :
    (usbHostAppended h n t d ts).queue m = h.queue m :=
  Function.update_of_ne hm _ _

theorem usbHostAppended_qtd : (usbHostAppended h n t d ts).qtd t = d := if_pos rfl

/-- The descriptors that were there differ at most in their link. -/
theorem usbHostAppended_qtd_of_ne {u : UsbQtdNode} (hu : u ≠ t) :
    (usbHostAppended h n t d ts).qtd u = { h.qtd u with
      next := if some u = ts.getLast? then ⟨some t, false⟩ else (h.qtd u).next } := by
  have hqtd : (usbHostAppended h n t d ts).qtd u = if some u = ts.getLast? then
      { h.qtd u with next := ⟨some t, false⟩ } else h.qtd u := if_neg hu
  rw [hqtd]
  split <;> rfl

/-- A descriptor that is in no queue is appended. -/
theorem UsbFifo.insert {q : UsbNode → List UsbQtdNode} (hf : UsbFifo h q) (ht : ∀ m, t ∉ q m) :
    usbHostQtdInsertToQhd (h.setQtd t d) n t = some (usbHostAppended h n t d (q n)) := by
  have hhead := hf.head n
  have htail := hf.tail n
  unfold usbHostQtdInsertToQhd
  rw [UsbHcd.setQtd_queue]
  rcases List.eq_nil_or_concat (q n) with hnil | ⟨ts, z, hts⟩
  · rw [hnil] at hhead ⊢
    have hnone : (h.queue n).listHead = none := hhead
    rw [if_pos hnone]
    refine congrArg some ?_
    unfold usbHostAppended UsbHcd.setQueue UsbHcd.setQtd
    refine congrArg₂ (UsbHcd.mk h.host) ?_ ?_
    · funext m
      by_cases hm : m = n
      · subst hm
        rw [Function.update_self]
        exact if_pos rfl
      · rw [Function.update_of_ne hm]
        exact if_neg hm
    · funext u
      dsimp only
      split
      · rfl
      · exact (if_neg (Option.some_ne_none u)).symm
  · have hsome : (h.queue n).listHead ≠ none := by
      rw [hhead, hts]
      cases ts <;> exact Option.some_ne_none _
    have hz : (h.queue n).listTail = some z := by
      rw [htail, hts, List.concat_eq_append]
      exact List.getLast?_concat
    have hzt : z ≠ t := by
      rintro rfl
      refine ht n ?_
      rw [hts, List.concat_eq_append]
      exact List.mem_append_right _ List.mem_cons_self
    rw [if_neg hsome, hz, Option.map_some]
    refine congrArg some ?_
    have hlast : (q n).getLast? = some z := htail.symm.trans hz
    have hfirst : (q n ++ [t]).head? = (h.queue n).listHead := by
      rw [hhead]
      refine List.head?_append_of_ne_nil _ ?_
      rw [hts, List.concat_eq_append]
      exact List.append_ne_nil_of_right_ne_nil _ (List.cons_ne_nil _ _)
    unfold usbHostAppended UsbHcd.setQueue UsbHcd.setQtd
    refine congrArg₂ (UsbHcd.mk h.host) ?_ ?_
    · funext m
      dsimp only
      by_cases hm : m = n
      · subst hm
        rw [Function.update_self, if_pos rfl, hfirst]
      · rw [Function.update_of_ne hm, if_neg hm]
    · funext u
      dsimp only
      rw [hlast]
      by_cases huz : u = z
      · subst huz
        rw [if_pos rfl, if_neg hzt, if_neg hzt, if_pos rfl]
      · have hne : ¬ some u = some z := fun hc => huz (Option.some.inj hc)
        rw [if_neg huz, if_neg hne]

theorem mem_append_of_mem {q : UsbNode → List UsbQtdNode} {m : UsbNode} {u : UsbQtdNode}
    (hu : u ∈ q m) : u ∈ Function.update q n (q n ++ [t]) m := by
  by_cases hm : m = n
  · subst hm
    rw [Function.update_self]
    exact List.mem_append_left _ hu
  · rwa [Function.update_of_ne hm]

/-- The members of all queues and the new one. -/
theorem mem_append_iff (q : UsbNode → List UsbQtdNode) (u : UsbQtdNode) :
    (∃ m, u ∈ Function.update q n (q n ++ [t]) m) ↔ u = t ∨ ∃ m, u ∈ q m := by
  constructor
  · rintro ⟨m, hm⟩
    by_cases hmn : m = n
    · subst hmn
      rw [Function.update_self] at hm
      rcases List.mem_append.mp hm with hm | hm
      · exact Or.inr ⟨m, hm⟩
      · exact Or.inl (List.mem_singleton.mp hm)
    · rw [Function.update_of_ne hmn] at hm
      exact Or.inr ⟨m, hm⟩
  · rintro (rfl | ⟨m, hm⟩)
    · refine ⟨n, ?_⟩
      rw [Function.update_self]
      exact List.mem_append_right _ List.mem_cons_self
    · exact ⟨m, mem_append_of_mem hm⟩

theorem mem_of_mem_append {q : UsbNode → List UsbQtdNode} {m : UsbNode} {u : UsbQtdNode}
    (hu : u ∈ Function.update q n (q n ++ [t]) m) : u ∈ q m ∨ (u = t ∧ m = n) := by
  by_cases hm : m = n
  · subst hm
    rw [Function.update_self] at hu
    exact (List.mem_append.mp hu).imp_right fun hu => ⟨List.mem_singleton.mp hu, rfl⟩
  · rw [Function.update_of_ne hm] at hu
    exact Or.inl hu

/-- A chain of links to which a new last element is linked, where no other link changes. -/
theorem isChain_link_concat {A : Type} [DecidableEq A] {f f' : A → Option A} {b : A} : ∀ {l : List A},
    l.Nodup → l.IsChain (fun x y => f x = some y) →
    (∀ x ∈ l, f' x = if some x = l.getLast? then some b else f x) →
      (l ++ [b]).IsChain fun x y => f' x = some y
  | [], _, _, _ => List.isChain_singleton b
  | [x], _, _, hlink => List.isChain_cons_cons.mpr
      ⟨(hlink x List.mem_cons_self).trans (if_pos rfl), List.isChain_singleton b⟩
  | x :: y :: l, hnodup, hchain, hlink => by
    obtain ⟨hnotin, hnodup'⟩ := List.nodup_cons.mp hnodup
    obtain ⟨hxy, hchain'⟩ := List.isChain_cons_cons.mp hchain
    have hne : some x ≠ (x :: y :: l).getLast? := by
      rw [List.getLast?_cons_cons]
      exact fun heq => hnotin (List.mem_of_getLast? heq.symm)
    have hlink' : ∀ z ∈ y :: l, f' z = if some z = (y :: l).getLast? then some b else f z := by
      intro z hz
      rw [hlink z (List.mem_cons_of_mem _ hz), List.getLast?_cons_cons]
    refine List.isChain_cons_cons.mpr ⟨?_, isChain_link_concat hnodup' hchain' hlink'⟩
    rw [hlink x List.mem_cons_self, if_neg hne, hxy]

/-- A link that was set to the new descriptor, where the last one of a queue had none. -/
theorem UsbFifo.appended {q : UsbNode → List UsbQtdNode} (hf : UsbFifo h q) (ht : ∀ m, t ∉ q m)
    (hused : d.used = true) :
    UsbFifo (usbHostAppended h n t d (q n)) (Function.update q n (q n ++ [t])) := by
  have hother : ∀ m, m ≠ n → Function.update q n (q n ++ [t]) m = q m := fun m hm =>
    Function.update_of_ne hm _ _
  refine ⟨fun m => ?_, fun m => ?_, fun m => ?_, fun u => ?_, fun m => ?_, fun m m' hne => ?_⟩
  · by_cases hm : m = n
    · subst hm
      rw [usbHostAppended_queue, Function.update_self]
    · rw [usbHostAppended_queue_of_ne hm, hother m hm]
      exact hf.head m
  · by_cases hm : m = n
    · subst hm
      rw [usbHostAppended_queue, Function.update_self]
      exact List.getLast?_concat.symm
    · rw [usbHostAppended_queue_of_ne hm, hother m hm]
      exact hf.tail m
  · -- a link changes only for the last descriptor of the queue, which had none behind it
    have hlink : ∀ m, ∀ a ∈ q m, ((usbHostAppended h n t d (q n)).qtd a).next.address =
        if some a = (q n).getLast? then some t else (h.qtd a).next.address := by
      intro m a ha
      have hat : a ≠ t := fun heq => ht m (heq ▸ ha)
      rw [usbHostAppended_qtd_of_ne hat]
      exact apply_ite UsbQtdLink.address _ _ _
    by_cases hm : m = n
    · subst hm
      rw [Function.update_self]
      exact isChain_link_concat (hf.nodup m) (hf.links m) (hlink m)
    · rw [hother m hm]
      refine (List.IsChain.iff_mem.mp (hf.links m)).imp fun a b hab => ?_
      have hlast : some a ≠ (q n).getLast? := fun heq =>
        hf.apart m n hm hab.1 (List.mem_of_getLast? heq.symm)
      rw [hlink m a hab.1, if_neg hlast]
      exact hab.2.2
  · rw [mem_append_iff]
    by_cases hu : u = t
    · subst hu
      rw [usbHostAppended_qtd]
      exact iff_of_true hused (Or.inl rfl)
    · rw [usbHostAppended_qtd_of_ne hu, or_iff_right hu]
      exact hf.used u
  · by_cases hm : m = n
    · subst hm
      rw [Function.update_self]
      refine List.Nodup.append (hf.nodup m) (List.nodup_singleton t) fun a ha ha' => ?_
      exact ht m (List.mem_singleton.mp ha' ▸ ha)
    · rw [hother m hm]
      exact hf.nodup m
  · intro u hu hu'
    rcases mem_of_mem_append hu with hin | ⟨rfl, rfl⟩
    · rcases mem_of_mem_append hu' with hin' | ⟨rfl, -⟩
      · exact hf.apart m m' hne hin hin'
      · exact ht m hin
    · rcases mem_of_mem_append hu' with hin' | ⟨-, rfl⟩
      · exact ht m' hin'
      · exact hne rfl

/-- Submitting a descriptor that is in no queue. -/
theorem UsbQueues.appended (hq : UsbQueues h l) (hown : n.Owns t) (ht : ∀ m, t ∉ l.queue m)
    (hused : d.used = true) (hend : d.next.address = none) (hhalt : d.halted = false)
    (hlength : d.expectedBytes.toNat = d.totalBytes.toNat) :
    UsbQueues (usbHostAppended h n t d (l.queue n)) (l.submit n t) := by
  have hfields : ∀ m u, u ∈ l.queue m → ∃ next,
      (usbHostAppended h n t d (l.queue n)).qtd u = { h.qtd u with next := next } := fun m u hu =>
    ⟨_, usbHostAppended_qtd_of_ne fun hc => ht m (hc ▸ hu)⟩
  have hoverlay : ∀ m, ((usbHostAppended h n t d (l.queue n)).queue m).overlay =
      (h.queue m).overlay := by
    intro m
    by_cases hm : m = n
    · subst hm
      rw [usbHostAppended_queue]
    · rw [usbHostAppended_queue_of_ne hm]
  have hactive : ∀ u, ((usbHostAppended h n t d (l.queue n)).qtd u).halted = true → u ≠ t := by
    rintro u hu rfl
    rw [usbHostAppended_qtd, hhalt] at hu
    exact Bool.false_ne_true hu
  refine ⟨hq.fifo.appended ht hused, fun m u hu => ?_, fun m u hu => ?_, fun u => ?_, hq.bytes,
    fun m => ?_, fun m u hu => ?_, fun m u hu hhu => ?_, fun m u hu v hv hhu hhv => ?_⟩
  · unfold UsbLedger.submit at hu
    dsimp only at hu
    by_cases hm : m = n
    · subst hm
      rw [Function.update_self, List.getLast?_concat] at hu
      obtain rfl := Option.some.inj hu
      rw [usbHostAppended_qtd]
      exact hend
    · rw [Function.update_of_ne hm] at hu
      have hin := List.mem_of_getLast? hu
      have hut : u ≠ t := by
        rintro rfl
        exact ht m hin
      have hlast : some u ≠ (l.queue n).getLast? := fun hc =>
        hq.fifo.apart m n hm hin (List.mem_of_getLast? hc.symm)
      rw [usbHostAppended_qtd_of_ne hut, if_neg hlast]
      exact hq.ends m u hu
  · rcases mem_of_mem_append hu with hu | ⟨rfl, rfl⟩
    · exact hq.owner m u hu
    · exact hown
  · have hcount := hq.conserved u
    have hiff := mem_append_iff (n := n) (t := t) l.queue u
    unfold UsbLedger.submit
    dsimp only
    by_cases hu : u = t
    · subst hu
      have hout : ¬ ∃ m, u ∈ l.queue m := fun ⟨m, hm⟩ => ht m hm
      rw [if_neg hout] at hcount
      rw [Function.update_self, if_pos (hiff.mpr (Or.inl rfl)), hcount]
    · rw [Function.update_of_ne hu, hcount]
      simp only [hiff, hu, false_or]
  · have htotal : ((usbHostAppended h n t d (l.queue n)).queue m).totalXferredBytes =
        (h.queue m).totalXferredBytes := by
      by_cases hm : m = n
      · subst hm
        rw [usbHostAppended_queue]
      · rw [usbHostAppended_queue_of_ne hm]
    rw [htotal]
    exact hq.total m
  · unfold UsbLedger.submit
    dsimp only
    by_cases hut : u = t
    · subst hut
      rw [usbHostAppended_qtd, Function.update_self]
      exact hlength
    · have hu := (mem_of_mem_append hu).resolve_right fun hc => hut hc.1
      obtain ⟨next, hnext⟩ := hfields m u hu
      rw [hnext, Function.update_of_ne hut]
      exact hq.left m u hu
  · have hu := (mem_of_mem_append hu).resolve_right fun hc => hactive u hhu hc.1
    obtain ⟨next, hnext⟩ := hfields m u hu
    rw [hnext] at hhu ⊢
    rw [hoverlay]
    exact hq.halted m u hu hhu
  · have hu := (mem_of_mem_append hu).resolve_right fun hc => hactive u hhu hc.1
    have hv := (mem_of_mem_append hv).resolve_right fun hc => hactive v hhv hc.1
    obtain ⟨next, hnext⟩ := hfields m u hu
    obtain ⟨next', hnext'⟩ := hfields m v hv
    rw [hnext] at hhu
    rw [hnext'] at hhv
    exact hq.one m u hu v hv hhu hhv

/-- A new descriptor leaves nothing more to report. -/
theorem UsbFailures.appended (hf : UsbFailures h l) (ht : ∀ m, t ∉ l.queue m)
    (hhalt : d.halted = false) :
    UsbFailures (usbHostAppended h n t d (l.queue n)) (l.submit n t) := by
  intro m r hr
  have hpending :
      (UsbXfers.mk (usbHostAppended h n t d (l.queue n)) (l.submit n t)).Pending m r ↔
        (UsbXfers.mk h l).Pending m r := by
    constructor
    · rintro ⟨u, hu, hhu, hresult⟩
      have hut : u ≠ t := by
        rintro rfl
        rw [usbHostAppended_qtd, hhalt] at hhu
        exact Bool.false_ne_true hhu
      rw [usbHostAppended_qtd_of_ne hut] at hhu hresult
      exact ⟨u, (mem_of_mem_append hu).resolve_right fun hc => hut hc.1, hhu, hresult⟩
    · rintro ⟨u, hu, hhu, hresult⟩
      have hut : u ≠ t := fun hc => ht m (hc ▸ hu)
      refine ⟨u, mem_append_of_mem hu, ?_, ?_⟩
      · rw [usbHostAppended_qtd_of_ne hut]
        exact hhu
      · rw [usbHostAppended_qtd_of_ne hut]
        exact hresult
  rw [show (l.submit n t).failed m r = l.failed m r from rfl, hf m r hr]
  simp only [hpending]
  rfl

end Appended

end Queue

end HpmSdk.Usb
