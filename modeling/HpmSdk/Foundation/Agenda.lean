import HpmSdk.Foundation.Run
import Mathlib.Data.List.Induction
import Mathlib.Data.List.Sort

set_option autoImplicit false

/-!
# Foundation: alarms

An agenda holds alarms with the times they are due at, in the order they were set.  Time passes
in ticks, and none passes while an alarm is due.  Alarms that are due at one time ring in the
order they were set.
-/

namespace HpmSdk.Foundation

/-! ## Entries by their time -/

section InOrder

variable {α : Type}

/-- Put an entry behind the ones that are not later. -/
def insertBehind (e : Nat × α) (l : List (Nat × α)) : List (Nat × α) :=
  l.orderedInsert (fun a b => a.1 < b.1) e

/-- Entries by their time; the ones of one time stay in their order. -/
def inOrder (l : List (Nat × α)) : List (Nat × α) := l.foldl (fun l e => insertBehind e l) []

/-- No entry is later than one behind it. -/
def Sorted (l : List (Nat × α)) : Prop := l.Pairwise fun a b => a.1 ≤ b.1

variable {l : List (Nat × α)} {e : Nat × α} {p : Nat × α → Bool}

/-- What is set last is inserted behind the alarms of its time, so the order of setting decides
between equal times. -/
theorem inOrder_append_singleton : inOrder (l ++ [e]) = insertBehind e (inOrder l) := by
  simp [inOrder]

theorem insertBehind_cons (e b : Nat × α) (l : List (Nat × α)) :
    insertBehind e (b :: l) = if e.1 < b.1 then e :: b :: l else b :: insertBehind e l := rfl

theorem perm_insertBehind : (insertBehind e l).Perm (e :: l) := List.perm_orderedInsert _ e l

theorem inOrder_perm : (inOrder l).Perm l := by
  induction l using List.reverseRecOn with
  | nil => exact List.Perm.refl _
  | append_singleton l e ih =>
    rw [inOrder_append_singleton]
    exact (perm_insertBehind.trans (ih.cons e)).trans (List.perm_append_singleton e l).symm

theorem mem_inOrder {x : Nat × α} : x ∈ inOrder l ↔ x ∈ l := inOrder_perm.mem_iff

/-- An alarm that is due before all others goes to the front. -/
theorem insertBehind_front (h : ∀ b ∈ l, e.1 < b.1) : insertBehind e l = e :: l := by
  cases l with
  | nil => rfl
  | cons b l => rw [insertBehind_cons, if_pos (h b List.mem_cons_self)]

/-- An alarm before which no other one is due later goes to the end. -/
theorem insertBehind_back (h : ∀ b ∈ l, b.1 ≤ e.1) : insertBehind e l = l ++ [e] := by
  induction l with
  | nil => rfl
  | cons b l ih =>
    rw [insertBehind_cons, if_neg (Nat.not_lt.mpr (h b List.mem_cons_self)),
      ih fun x hx => h x (List.mem_cons_of_mem b hx), List.cons_append]

/-- Inserting an alarm keeps the list sorted. -/
theorem Sorted.insertBehind (h : Sorted l) : Sorted (insertBehind e l) := by
  induction l with
  | nil => exact List.pairwise_singleton _ _
  | cons b l ih =>
    obtain ⟨hb, hl⟩ := List.pairwise_cons.mp h
    rw [insertBehind_cons]
    by_cases hlt : e.1 < b.1
    · rw [if_pos hlt]
      refine List.pairwise_cons.mpr ⟨fun x hx => ?_, h⟩
      rcases List.mem_cons.mp hx with rfl | hx
      · exact hlt.le
      · exact hlt.le.trans (hb x hx)
    · rw [if_neg hlt]
      refine List.pairwise_cons.mpr ⟨fun x hx => ?_, ih hl⟩
      rcases List.mem_cons.mp (perm_insertBehind.mem_iff.mp hx) with rfl | hx
      · exact Nat.not_lt.mp hlt
      · exact hb x hx

theorem sorted_inOrder (l : List (Nat × α)) : Sorted (inOrder l) := by
  induction l using List.reverseRecOn with
  | nil => exact List.Pairwise.nil
  | append_singleton l e ih =>
    rw [inOrder_append_singleton]
    exact ih.insertBehind

/-- To leave entries out and to add one that stays may be done in either order. -/
theorem filter_insertBehind (h : Sorted l) (he : p e = true) :
    (insertBehind e l).filter p = insertBehind e (l.filter p) := by
  induction l with
  | nil => simp [insertBehind, he]
  | cons b l ih =>
    obtain ⟨hb, hl⟩ := List.pairwise_cons.mp h
    rw [insertBehind_cons]
    by_cases hlt : e.1 < b.1
    · have hall : ∀ x ∈ (b :: l).filter p, e.1 < x.1 := by
        intro x hx
        rcases List.mem_cons.mp (List.mem_of_mem_filter hx) with rfl | hx
        · exact hlt
        · exact hlt.trans_le (hb x hx)
      rw [if_pos hlt, List.filter_cons_of_pos he, insertBehind_front hall]
    · rw [if_neg hlt]
      by_cases hpb : p b = true
      · rw [List.filter_cons_of_pos hpb, List.filter_cons_of_pos hpb, insertBehind_cons,
          if_neg hlt, ih hl]
      · rw [List.filter_cons_of_neg hpb, List.filter_cons_of_neg hpb, ih hl]

theorem filter_insertBehind_neg (he : ¬ p e = true) :
    (insertBehind e l).filter p = l.filter p := by
  induction l with
  | nil => simp [insertBehind, he]
  | cons b l ih =>
    rw [insertBehind_cons]
    split
    · rw [List.filter_cons_of_neg he]
    · rw [List.filter_cons, List.filter_cons, ih]

/-- Taking alarms out and sorting can be done in either order, which is what a cancelled alarm
needs. -/
theorem inOrder_filter (l : List (Nat × α)) (p : Nat × α → Bool) :
    inOrder (l.filter p) = (inOrder l).filter p := by
  induction l using List.reverseRecOn with
  | nil => rfl
  | append_singleton l e ih =>
    rw [List.filter_append, inOrder_append_singleton]
    by_cases he : p e = true
    · rw [filter_insertBehind (sorted_inOrder l) he, List.filter_cons_of_pos he, List.filter_nil,
        inOrder_append_singleton, ih]
    · rw [filter_insertBehind_neg he, List.filter_cons_of_neg he, List.filter_nil,
        List.append_nil, ih]

/-- Entries of one time stay as they are. -/
theorem inOrder_of_le {t : Nat} (h : ∀ x ∈ l, x.1 = t) : inOrder l = l := by
  induction l using List.reverseRecOn with
  | nil => rfl
  | append_singleton l e ih =>
    have hl : inOrder l = l := ih fun x hx => h x (List.mem_append_left _ hx)
    have he : e.1 = t := h e (List.mem_append_right _ (List.mem_singleton_self e))
    rw [inOrder_append_singleton, hl]
    exact insertBehind_back fun b hb => ((h b (List.mem_append_left _ hb)).trans he.symm).le

/-- The first entry is the first one to be found of those that no other one is in front of. -/
theorem find_of_inOrder_cons {rest : List (Nat × α)} (h : inOrder l = e :: rest) :
    (∀ x ∈ l, e.1 ≤ x.1) ∧ l.find? (fun x => x.1 ≤ e.1) = some e := by
  have hsorted := sorted_inOrder l
  rw [h] at hsorted
  have hfirst : ∀ x ∈ l, e.1 ≤ x.1 := by
    intro x hx
    rcases List.mem_cons.mp (h ▸ mem_inOrder.mpr hx) with rfl | hx
    · exact Nat.le_refl _
    · exact (List.pairwise_cons.mp hsorted).1 x hx
  refine ⟨hfirst, ?_⟩
  have hsame : ∀ x ∈ l.filter (fun x => x.1 ≤ e.1), x.1 = e.1 := by
    intro x hx
    obtain ⟨hmem, hle⟩ := List.mem_filter.mp hx
    exact Nat.le_antisymm (of_decide_eq_true hle) (hfirst x hmem)
  rw [← List.head?_filter, ← inOrder_of_le hsame, inOrder_filter, h]
  exact List.head?_filter.trans (List.find?_cons_of_pos (decide_eq_true (Nat.le_refl e.1)))

end InOrder

/-! ## The agenda -/

/-- The time, and the alarms with the times they are due at, in the order they were set. -/
structure Agenda (α : Type) where
  now : Nat
  armed : List (Nat × α)

/-- Each alarm is there once, and none is overdue or `horizon` ticks away. -/
structure Agenda.Within {α : Type} (g : Agenda α) (horizon : Nat) : Prop where
  nodup : (g.armed.map Prod.snd).Nodup
  due : ∀ e ∈ g.armed, g.now ≤ e.1 ∧ e.1 < g.now + horizon

/-- Where no alarm is due, all of them are still within the horizon behind a tick. -/
theorem Agenda.Within.tick {α : Type} {g : Agenda α} {horizon : Nat} (h : g.Within horizon)
    (hpassed : ∀ e ∈ g.armed, g.now < e.1) :
    Agenda.Within { g with now := g.now + 1 } horizon :=
  ⟨h.nodup, fun e he => ⟨hpassed e he, by have := (h.due e he).2; dsimp only; omega⟩⟩

/-- The number of alarms that are due. -/
def Agenda.dueCount {α : Type} (g : Agenda α) : Nat := g.armed.countP fun e => e.1 ≤ g.now

/-- No alarm is due exactly when all of them are later than now. -/
theorem Agenda.dueCount_eq_zero_iff {α : Type} {g : Agenda α} :
    g.dueCount = 0 ↔ ∀ e ∈ g.armed, g.now < e.1 := by
  simp [Agenda.dueCount]

/-- What happens to an agenda. -/
inductive AgendaEvent (α : Type) where
  | arm (a : α) (delay : Nat)
  | cancel (a : α)
  | ring (a : α)
  | tick
  deriving DecidableEq

section Alarms

variable {α : Type} {a : α} {events : List (AgendaEvent α)}

/-- The alarm of an event. -/
def AgendaEvent.alarm : AgendaEvent α → Option α
  | .arm a _ => some a
  | .cancel a => some a
  | .ring a => some a
  | .tick => none

/-- Events of other alarms. -/
def Apart (a : α) (events : List (AgendaEvent α)) : Prop :=
  ∀ event ∈ events, ∃ b, b ≠ a ∧ event.alarm = some b

theorem Apart.cons {event : AgendaEvent α} (h : Apart a (event :: events)) :
    (∃ b, b ≠ a ∧ event.alarm = some b) ∧ Apart a events :=
  ⟨h event List.mem_cons_self, fun x hx => h x (List.mem_cons_of_mem event hx)⟩

theorem Apart.append {more : List (AgendaEvent α)} (h : Apart a events) (hmore : Apart a more) :
    Apart a (events ++ more) := fun x hx =>
  (List.mem_append.mp hx).elim (h x) (hmore x)

end Alarms

section Events

variable {α : Type} [DecidableEq α]

/-- The other alarms. -/
def without (a : α) (l : List (Nat × α)) : List (Nat × α) := l.filter fun e => e.2 ≠ a

/-- One event.  Only the first alarm that is due rings, on its time, and no tick passes one that is
due. -/
def Agenda.step (g : Agenda α) : AgendaEvent α → Option (Agenda α)
  | .arm a delay => some { g with armed := without a g.armed ++ [(g.now + delay, a)] }
  | .cancel a => some { g with armed := without a g.armed }
  | .ring a =>
    if g.armed.find? (fun e => e.1 ≤ g.now) = some (g.now, a) then
      some { g with armed := without a g.armed }
    else none
  | .tick => if ∀ e ∈ g.armed, g.now < e.1 then some { g with now := g.now + 1 } else none

/-- The times at which an alarm rings, where the events start at time `t`. -/
def ringTimes (a : α) : Nat → List (AgendaEvent α) → List Nat
  | _, [] => []
  | t, .tick :: events => ringTimes a (t + 1) events
  | t, .ring b :: events => if b = a then t :: ringTimes a t events else ringTimes a t events
  | t, _ :: events => ringTimes a t events

variable {l : List (Nat × α)} {a : α} {g : Agenda α} {horizon : Nat}

theorem mem_without {e : Nat × α} : e ∈ without a l ↔ e ∈ l ∧ e.2 ≠ a := by
  simp [without]

theorem without_of_not_mem (h : a ∉ l.map Prod.snd) : without a l = l := by
  refine List.filter_eq_self.mpr fun e he => decide_eq_true ?_
  rintro rfl
  exact h (List.mem_map_of_mem he)

theorem map_snd_without : (without a l).map Prod.snd = (l.map Prod.snd).filter (· ≠ a) := by
  unfold without
  rw [List.filter_map]
  rfl

/-- Cancelling an alarm keeps the others within the horizon. -/
theorem Agenda.Within.cancel (h : g.Within horizon) (a : α) :
    Agenda.Within { g with armed := without a g.armed } horizon := by
  refine ⟨?_, fun e he => h.due e (mem_without.mp he).1⟩
  dsimp only
  rw [map_snd_without]
  exact h.nodup.filter _

/-- An alarm that is set for less than the horizon keeps all of them within it. -/
theorem Agenda.Within.arm (h : g.Within horizon) (a : α) {delay : Nat} (hdelay : delay < horizon) :
    Agenda.Within { g with armed := without a g.armed ++ [(g.now + delay, a)] } horizon := by
  refine ⟨?_, fun e he => ?_⟩
  · dsimp only
    rw [List.map_append, map_snd_without]
    refine (h.nodup.filter _).append (List.nodup_singleton a) ?_
    rintro b hb hab
    obtain rfl := List.mem_singleton.mp hab
    exact absurd rfl (of_decide_eq_true (List.mem_filter.mp hb).2)
  · rcases List.mem_append.mp he with he | he
    · exact h.due e (mem_without.mp he).1
    · obtain rfl := List.mem_singleton.mp he
      exact ⟨Nat.le_add_right _ _, Nat.add_lt_add_left hdelay _⟩

theorem Agenda.dueCount_cancel_le (a : α) :
    Agenda.dueCount { g with armed := without a g.armed } ≤ g.dueCount :=
  List.filter_sublist.countP_le

/-- An alarm that is set anew for later does not add to those that are due, which is why ringing
ends. -/
theorem Agenda.dueCount_arm_le (a : α) {delay : Nat} (h : 0 < delay) :
    Agenda.dueCount { g with armed := without a g.armed ++ [(g.now + delay, a)] } ≤ g.dueCount := by
  have hlater : ¬ g.now + delay ≤ g.now := by omega
  unfold Agenda.dueCount
  rw [List.countP_append, List.countP_singleton, if_neg (by simpa using hlater)]
  exact Agenda.dueCount_cancel_le a

/-- Each alarm that rings is one less that is due. -/
theorem Agenda.dueCount_ring_lt {e : Nat × α} (he : e ∈ g.armed) (hdue : e.1 = g.now) :
    Agenda.dueCount { g with armed := without e.2 g.armed } < g.dueCount := by
  have hsplit := List.countP_eq_countP_filter_add g.armed (fun x => decide (x.1 ≤ g.now))
    (fun x => decide (x.2 ≠ e.2))
  have hpos : 0 < (g.armed.filter fun x => !decide (x.2 ≠ e.2)).countP
      fun x => decide (x.1 ≤ g.now) :=
    List.countP_pos_iff.mpr ⟨e, by simp [he], by simp [hdue]⟩
  unfold Agenda.dueCount without
  dsimp only
  omega

/-- The first entry by time rings where it is due. -/
theorem Agenda.step_ring {e : Nat × α} {rest : List (Nat × α)}
    (hfirst : inOrder g.armed = e :: rest) (hdue : e.1 = g.now) :
    g.step (.ring e.2) = some { g with armed := without e.2 g.armed } := by
  have hfind := (find_of_inOrder_cons hfirst).2
  rw [hdue] at hfind
  rw [Agenda.step, hfind, if_pos (by rw [← hdue])]

/-! ## Runs of events -/

/-- The time is the number of ticks. -/
theorem Agenda.run_now {events : List (AgendaEvent α)} {g' : Agenda α}
    (h : run Agenda.step g events = some g') : g'.now = g.now + events.count .tick := by
  induction events generalizing g with
  | nil =>
    cases h
    rfl
  | cons event events ih =>
    obtain ⟨mid, hmid, hrest⟩ := run_cons h
    have hnow : mid.now = g.now + [event].count .tick := by
      cases event with
      | arm b delay => cases hmid; rfl
      | cancel b => cases hmid; rfl
      | ring b =>
        rw [Agenda.step] at hmid
        split at hmid
        · cases hmid; rfl
        · cases hmid
      | tick =>
        rw [Agenda.step] at hmid
        split at hmid
        · cases hmid; rfl
        · cases hmid
    rw [ih hrest, hnow, Nat.add_assoc, ← List.count_append, List.singleton_append]

/-- The alarm that was set last is there. -/
theorem Agenda.mem_armed_of_run {events : List (AgendaEvent α)} {g' : Agenda α} {delay : Nat}
    (h : run Agenda.step g (events ++ [.arm a delay]) = some g') :
    (g'.now + delay, a) ∈ g'.armed := by
  induction events generalizing g with
  | nil =>
    cases h
    exact List.mem_append_right _ (List.mem_singleton_self _)
  | cons event events ih =>
    obtain ⟨mid, -, hrest⟩ := run_cons h
    exact ih hrest

/-- The times of an alarm over two stretches: the second stretch starts at the ticks of the first.
-/
theorem ringTimes_append (t : Nat) (events more : List (AgendaEvent α)) :
    ringTimes a t (events ++ more) =
      ringTimes a t events ++ ringTimes a (t + events.count .tick) more := by
  induction events generalizing t with
  | nil => rfl
  | cons event events ih =>
    cases event with
    | tick =>
      rw [List.cons_append, ringTimes, ringTimes, ih, List.count_cons_self,
        show t + 1 + events.count .tick = t + (events.count .tick + 1) by omega]
    | ring b =>
      rw [List.cons_append, ringTimes, ringTimes, List.count_cons_of_ne (by simp), ih]
      split
      · rw [List.cons_append]
      · rfl
    | arm b delay =>
      rw [List.count_cons_of_ne (by simp)]
      exact ih t
    | cancel b =>
      rw [List.count_cons_of_ne (by simp)]
      exact ih t

variable {events : List (AgendaEvent α)}

/-- Events of other alarms give no time of this one. -/
theorem ringTimes_apart (h : Apart a events) (t : Nat) : ringTimes a t events = [] := by
  induction events generalizing t with
  | nil => rfl
  | cons event events ih =>
    obtain ⟨⟨b, hb, halarm⟩, hrest⟩ := h.cons
    cases event with
    | tick => cases halarm
    | ring c =>
      cases halarm
      rw [ringTimes, if_neg hb, ih hrest]
    | arm c delay => exact ih hrest t
    | cancel c => exact ih hrest t

theorem mem_without_append {b : α} {d delay : Nat} (hb : b ≠ a) :
    (d, a) ∈ without b l ++ [(delay, b)] ↔ (d, a) ∈ l := by
  rw [List.mem_append, mem_without, List.mem_singleton, Prod.mk.injEq]
  exact ⟨fun h => h.elim And.left fun h => absurd h.2.symm hb, fun h => Or.inl ⟨h, hb.symm⟩⟩

/-- An alarm stays as it is while only other ones change. -/
theorem Apart.mem_armed {g' : Agenda α} (h : Apart a events)
    (hrun : run Agenda.step g events = some g') (d : Nat) :
    (d, a) ∈ g'.armed ↔ (d, a) ∈ g.armed := by
  induction events generalizing g with
  | nil =>
    cases hrun
    rfl
  | cons event events ih =>
    obtain ⟨⟨b, hb, halarm⟩, hothers⟩ := h.cons
    obtain ⟨mid, hmid, hrest⟩ := run_cons hrun
    refine (ih hothers hrest).trans ?_
    have hout : (d, a) ∈ without b g.armed ↔ (d, a) ∈ g.armed := by
      rw [mem_without]
      exact and_iff_left hb.symm
    cases event with
    | tick => cases halarm
    | arm c delay =>
      cases halarm
      cases hmid
      exact mem_without_append hb
    | cancel c =>
      cases halarm
      cases hmid
      exact hout
    | ring c =>
      cases halarm
      rw [Agenda.step] at hmid
      split at hmid
      · cases hmid
        exact hout
      · cases hmid

end Events

end HpmSdk.Foundation
