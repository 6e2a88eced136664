import HpmSdk.Mbx.Fifo

set_option autoImplicit false

/-!
# Mailbox: runs of the two cores

A call that succeeds has moved four words, or as many as its count where that is one to four.
So the counts that the loop has rounds for are exactly those that a success answers for.

The invariant says that what was sent is what was retrieved followed by what is in the FIFO. Each
access of a core keeps it, so every interleaving does; what the loops count is a matter of each call
alone.
-/

namespace HpmSdk.Mbx

open HpmSdk.Foundation

/-! ## Calls -/

namespace MbxCall

section Fields

variable (c : MbxCall) (w : BitVec 32) (flag : Bool)

theorem next_moved : (c.next w).moved = c.moved ++ [(c.i, w)] := by
  unfold next
  dsimp only
  split
  · rfl
  · split <;> rfl

theorem next_msg : (c.next w).msg = c.msg := by
  unfold next
  dsimp only
  split
  · rfl
  · split <;> rfl

theorem next_count : (c.next w).count = c.count := by
  unfold next
  dsimp only
  split
  · rfl
  · split <;> rfl

theorem next_left : (c.next w).left = c.left - 1 := by
  unfold next
  dsimp only
  split
  · rfl
  · split <;> rfl

theorem next_ready : (c.next w).ready = false := by
  unfold next
  dsimp only
  split
  · rfl
  · split <;> rfl

theorem test_moved : (c.test flag).moved = c.moved := by
  cases flag <;> rfl

end Fields

/-- What holds of a call at any time: the words that it moved are the first ones of its array,
and it has not gone past its count unless that is zero. -/
structure Inv (c : MbxCall) : Prop where
  places : c.moved.map Prod.fst = List.range c.moved.length
  words : ∀ p ∈ c.moved, p.2 = c.msg p.1
  left : c.left = c.count - BitVec.ofNat 32 c.moved.length
  before : ∀ k, 1 ≤ k → k < c.moved.length → c.count.toNat ≠ k
  going : c.status ≠ some .success →
    c.i = c.moved.length ∧ c.moved.length < 4 ∧ (1 ≤ c.moved.length → c.count.toNat ≠ c.moved.length)
  ended : c.status = some .success →
    1 ≤ c.moved.length ∧ c.moved.length ≤ 4 ∧
      (c.moved.length = 4 ∨ c.count.toNat = c.moved.length)

/-- A call that begins has moved nothing. -/
theorem inv_begin (msg : Nat → BitVec 32) (count : BitVec 32) : (begin msg count).Inv where
  places := rfl
  words := fun _ h => absurd h List.not_mem_nil
  left := (BitVec.sub_zero count).symm
  before := fun k _ h => absurd h (Nat.not_lt_zero k)
  going := fun _ => ⟨rfl, Nat.zero_lt_succ 3, fun h => absurd h (Nat.not_succ_le_zero 0)⟩
  ended := fun h => nomatch h

namespace Inv

variable {c : MbxCall}

/-- The words of a call were moved in the order of their places. -/
theorem place_lt (h : c.Inv) {p : Nat × BitVec 32} (hp : p ∈ c.moved) :
    p.1 < c.moved.length := by
  have hmem : p.1 ∈ c.moved.map Prod.fst := List.mem_map_of_mem hp
  rw [h.places] at hmem
  exact List.mem_range.mp hmem

/-- Looking at the flag moves nothing. -/
theorem test (h : c.Inv) (hrun : c.status = none) (flag : Bool) : (c.test flag).Inv := by
  have hgoing := h.going (by rw [hrun]; exact nofun)
  cases flag with
  | true => exact ⟨h.places, h.words, h.left, h.before, h.going, h.ended⟩
  | false => exact ⟨h.places, h.words, h.left, h.before, fun _ => hgoing, fun h => nomatch h⟩

/-- A word that is stored is beyond those that were moved. -/
theorem store (h : c.Inv) (hrun : c.status = none) (w : BitVec 32) : (c.store w).Inv := by
  have hgoing := h.going (by rw [hrun]; exact nofun)
  refine ⟨h.places, fun p hp => ?_, h.left, h.before, h.going, h.ended⟩
  have hlt := h.place_lt hp
  have hne : p.1 ≠ c.i := by
    rw [hgoing.1]
    exact Nat.ne_of_lt hlt
  exact (h.words p hp).trans (Function.update_of_ne hne _ _).symm

/-- The count is used up where so many words were moved. -/
theorem left_eq_zero_iff (h : c.Inv) (hlt : c.moved.length < 4) :
    c.left - 1 = 0 ↔ c.count.toNat = c.moved.length + 1 := by
  rw [h.left]
  generalize c.moved.length = n at hlt
  constructor
  · intro hzero
    have hcount : c.count = BitVec.ofNat 32 (n + 1) := by bv_omega
    rw [hcount, BitVec.toNat_ofNat]
    exact Nat.mod_eq_of_lt (by omega)
  · intro hcount
    bv_omega

/-- Moving a word moves the next one of the message. -/
theorem next (h : c.Inv) (hrun : c.status = none) {w : BitVec 32} (hw : c.msg c.i = w) :
    (c.next w).Inv := by
  obtain ⟨hi, hlt, hne⟩ := h.going (by rw [hrun]; exact nofun)
  have hlen : (c.next w).moved.length = c.moved.length + 1 := by
    rw [next_moved, List.length_append, List.length_singleton]
  have hzero := h.left_eq_zero_iff hlt
  refine ⟨?_, ?_, ?_, ?_, ?_, ?_⟩
  · rw [hlen, next_moved, List.map_append, h.places, List.map_singleton, hi, List.range_succ]
  · intro p hp
    rw [next_moved] at hp
    rw [next_msg]
    rcases List.mem_append.mp hp with hp | hp
    · exact h.words p hp
    · rw [List.mem_singleton.mp hp]
      exact hw.symm
  · rw [hlen, next_left, next_count, h.left]
    generalize c.moved.length = n
    bv_omega
  · intro k hk hklt
    rw [hlen] at hklt
    rw [next_count]
    rcases Nat.lt_succ_iff_lt_or_eq.mp hklt with hklt | rfl
    · exact h.before k hk hklt
    · exact hne hk
  · intro hstat
    rw [hlen, next_count]
    unfold MbxCall.next at hstat ⊢
    dsimp only at hstat ⊢
    split at hstat
    · exact absurd rfl hstat
    · next hleft =>
      split at hstat
      · next hround =>
        rw [if_neg hleft, if_pos hround]
        exact ⟨by rw [hi], by omega, fun _ heq => hleft (hzero.mpr heq)⟩
      · exact absurd rfl hstat
  · intro hstat
    rw [hlen, next_count]
    unfold MbxCall.next at hstat
    dsimp only at hstat
    split at hstat
    · next hleft => exact ⟨by omega, by omega, Or.inr (hzero.mp hleft)⟩
    · split at hstat
      · rw [hrun] at hstat
        exact nomatch hstat
      · exact ⟨by omega, by omega, Or.inl (by omega)⟩

/-- Where the count is one to four the call keeps within it. -/
theorem kept (h : c.Inv) (hfits : c.Fits) : c.Kept := by
  have hlen : c.moved.length ≤ c.count.toNat := by
    rcases Nat.lt_or_ge c.count.toNat c.moved.length with hlt | hge
    · exact absurd rfl (h.before c.count.toNat hfits.1 hlt)
    · exact hge
  refine ⟨fun p hp => Nat.lt_of_lt_of_le (h.place_lt hp) hlen, fun hstat => ?_⟩
  obtain ⟨-, -, hfour | heq⟩ := h.ended hstat
  · have heq : c.count.toNat = c.moved.length := by
      have := hfits.2
      omega
    rw [h.places, heq]
  · rw [h.places, heq]

/-- A success answers for no other count. -/
theorem kept_iff (h : c.Inv) (hstat : c.status = some .success) : c.Kept ↔ c.Fits := by
  refine ⟨fun hkept => ?_, h.kept⟩
  obtain ⟨hpos, hfour, -⟩ := h.ended hstat
  have hlen := congrArg List.length (hkept.whole hstat)
  rw [List.length_map, List.length_range] at hlen
  unfold Fits
  omega

end Inv

end MbxCall

/-! ## Cores -/

namespace MbxCore

variable {core : MbxCore} {c c' : MbxCall}

theorem calls_put (core : MbxCore) (c : MbxCall) : (core.put c).calls = core.done ++ [c] := by
  unfold put
  split
  · rfl
  · exact List.append_nil _

theorem current_put (h : (core.put c).current = some c') : c' = c ∧ c.status = none := by
  unfold put at h
  split at h
  · next hstat => exact ⟨(Option.some.inj h).symm, hstat⟩
  · exact nomatch h

theorem calls_current (h : core.current = some c) : core.calls = core.done ++ [c] := by
  unfold calls
  rw [h]
  rfl

theorem calls_idle (h : core.current = none) : core.calls = core.done := by
  unfold calls
  rw [h]
  exact List.append_nil _

theorem words_current (h : core.current = some c) : core.words =
    (core.done.flatMap fun c => c.moved.map Prod.snd) ++ c.moved.map Prod.snd := by
  unfold words
  rw [calls_current h]
  simp

theorem words_put (core : MbxCore) (c : MbxCall) : (core.put c).words =
    (core.done.flatMap fun c => c.moved.map Prod.snd) ++ c.moved.map Prod.snd := by
  unfold words
  rw [calls_put]
  simp

/-- A new call has moved no words. -/
theorem words_begin (h : core.current = none) (msg : Nat → BitVec 32) (count : BitVec 32) :
    (core.put (.begin msg count)).words = core.words := by
  unfold words
  rw [calls_put, calls_idle h]
  simp [MbxCall.begin]

/-- A test of the status register moves no words. -/
theorem words_test (h : core.current = some c) (flag : Bool) :
    (core.put (c.test flag)).words = core.words := by
  rw [words_put, words_current h, MbxCall.test_moved]

/-- The word that is moved is the last of those that the core has moved. -/
theorem words_next (h : core.current = some c) (hmoved : c'.moved = c.moved) (w : BitVec 32) :
    (core.put (c'.next w)).words = core.words ++ [w] := by
  rw [words_put, words_current h, MbxCall.next_moved, hmoved, List.map_append, List.append_assoc]
  rfl

/-- What all calls of a core keep, another step of the current one keeps. -/
theorem calls_put_all {P : MbxCall → Prop} (hall : ∀ c ∈ core.calls, P c) (hc : P c) :
    ∀ c' ∈ (core.put c).calls, P c' := by
  intro c' hmem
  rw [calls_put] at hmem
  rcases List.mem_append.mp hmem with hmem | hmem
  · exact hall c' (List.mem_append_left _ hmem)
  · rw [List.mem_singleton.mp hmem]
    exact hc

end MbxCore

/-! ## Runs -/

/-- What holds at any time of a run. -/
structure MbxState.Inv (depth : Nat) (s : MbxState) : Prop where
  queue : s.enqueued = s.received ++ s.fifo
  sent : s.enqueued = s.sender.words
  retrieved : s.received = s.receiver.words
  sendCalls : ∀ c ∈ s.sender.calls, c.Inv
  retrieveCalls : ∀ c ∈ s.receiver.calls, c.Inv
  sending : ∀ c, s.sender.current = some c →
    c.status = none ∧ (c.ready = true → s.fifo.length < depth)
  retrieving : ∀ c, s.receiver.current = some c →
    c.status = none ∧ (c.ready = true → s.fifo ≠ [])

theorem mbxInit_inv (depth : Nat) : MbxState.init.Inv depth where
  queue := rfl
  sent := rfl
  retrieved := rfl
  sendCalls := fun _ h => absurd h List.not_mem_nil
  retrieveCalls := fun _ h => absurd h List.not_mem_nil
  sending := fun _ h => nomatch h
  retrieving := fun _ h => nomatch h

namespace MbxState.Inv

variable {depth : Nat} {s : MbxState} {c : MbxCall}

/-- An access of the sender keeps the FIFO what was sent and not retrieved. -/
theorem sendAccess (h : s.Inv depth) (hc : s.sender.current = some c) :
    (mbxSendAccess depth s c).Inv depth := by
  obtain ⟨hstat, hroom⟩ := h.sending c hc
  have hinv : c.Inv := h.sendCalls c (by rw [MbxCore.calls_current hc]; simp)
  unfold mbxSendAccess
  by_cases hready : c.ready = true
  · have hlt := hroom hready
    rw [if_pos hready]
    have hwrite : s.write depth (c.msg c.i) =
        { s with fifo := s.fifo ++ [c.msg c.i], enqueued := s.enqueued ++ [c.msg c.i] } :=
      if_pos hlt
    rw [hwrite]
    refine ⟨?_, ?_, h.retrieved, ?_, h.retrieveCalls, ?_, ?_⟩
    · rw [h.queue, List.append_assoc]
    · rw [MbxCore.words_next hc rfl, h.sent]
    · exact MbxCore.calls_put_all h.sendCalls (hinv.next hstat rfl)
    · intro c' hc'
      obtain ⟨rfl, hnone⟩ := MbxCore.current_put hc'
      refine ⟨hnone, fun hr => ?_⟩
      rw [MbxCall.next_ready] at hr
      exact nomatch hr
    · intro c' hc'
      exact ⟨(h.retrieving c' hc').1, fun _ => List.append_ne_nil_of_right_ne_nil _ nofun⟩
  · rw [if_neg hready]
    refine ⟨h.queue, ?_, h.retrieved, ?_, h.retrieveCalls, ?_, h.retrieving⟩
    · rw [MbxCore.words_test hc]
      exact h.sent
    · exact MbxCore.calls_put_all h.sendCalls (hinv.test hstat _)
    · intro c' hc'
      obtain ⟨rfl, hnone⟩ := MbxCore.current_put hc'
      refine ⟨hnone, fun hr => ?_⟩
      by_cases hlt : s.fifo.length < depth
      · exact hlt
      · rw [decide_eq_false hlt] at hr
        exact absurd hr hready

/-- An access of the receiver keeps it as well. -/
theorem retrieveAccess (h : s.Inv depth) (hc : s.receiver.current = some c) :
    (mbxRetrieveAccess s c).Inv depth := by
  obtain ⟨hstat, hword⟩ := h.retrieving c hc
  have hinv : c.Inv := h.retrieveCalls c (by rw [MbxCore.calls_current hc]; simp)
  unfold mbxRetrieveAccess
  by_cases hready : c.ready = true
  · obtain ⟨w, fifo, hfifo⟩ := List.exists_cons_of_ne_nil (hword hready)
    rw [if_pos hready]
    have hread : s.read = (w, { s with fifo := fifo, received := s.received ++ [w] }) := by
      unfold MbxState.read
      rw [hfifo]
    have hplace : (c.store w).msg (c.store w).i = w := Function.update_self _ _ _
    rw [hread]
    dsimp only
    refine ⟨?_, h.sent, ?_, h.sendCalls, ?_, ?_, ?_⟩
    · rw [h.queue, hfifo, List.append_assoc]
      rfl
    · have hwords := MbxCore.words_next hc (rfl : (c.store w).moved = c.moved) w
      exact (congrArg (· ++ [w]) h.retrieved).trans hwords.symm
    · exact MbxCore.calls_put_all h.retrieveCalls ((hinv.store hstat w).next hstat hplace)
    · intro c' hc'
      obtain ⟨hnone, hroom⟩ := h.sending c' hc'
      refine ⟨hnone, fun hr => Nat.lt_of_succ_lt ?_⟩
      have hlt := hroom hr
      rwa [hfifo] at hlt
    · intro c' hc'
      obtain ⟨rfl, hnone⟩ := MbxCore.current_put hc'
      refine ⟨hnone, fun hr => ?_⟩
      rw [MbxCall.next_ready] at hr
      exact nomatch hr
  · rw [if_neg hready]
    refine ⟨h.queue, h.sent, ?_, h.sendCalls, ?_, h.sending, ?_⟩
    · rw [MbxCore.words_test hc]
      exact h.retrieved
    · exact MbxCore.calls_put_all h.retrieveCalls (hinv.test hstat _)
    · intro c' hc'
      obtain ⟨rfl, hnone⟩ := MbxCore.current_put hc'
      refine ⟨hnone, fun hr => ?_⟩
      by_cases hne : s.fifo ≠ []
      · exact hne
      · rw [decide_eq_false hne] at hr
        exact absurd hr hready

/-- So does every step, whichever core takes it. -/
theorem step (h : s.Inv depth) {act : MbxAct} {s' : MbxState}
    (hstep : mbxStep depth s act = some s') : s'.Inv depth := by
  cases act with
  | sendFifo msg count =>
    simp only [mbxStep] at hstep
    split at hstep
    · next hidle =>
      cases hstep
      refine ⟨h.queue, ?_, h.retrieved, ?_, h.retrieveCalls, ?_, h.retrieving⟩
      · rw [MbxCore.words_begin hidle]
        exact h.sent
      · exact MbxCore.calls_put_all h.sendCalls (MbxCall.inv_begin msg count)
      · intro c' hc'
        obtain ⟨rfl, hnone⟩ := MbxCore.current_put hc'
        exact ⟨hnone, fun hr => nomatch hr⟩
    · exact nomatch hstep
  | sendAccess =>
    obtain ⟨c, hc, rfl⟩ := Option.map_eq_some_iff.mp hstep
    exact h.sendAccess hc
  | retrieveFifo msg count =>
    simp only [mbxStep] at hstep
    split at hstep
    · next hidle =>
      cases hstep
      refine ⟨h.queue, h.sent, ?_, h.sendCalls, ?_, h.sending, ?_⟩
      · rw [MbxCore.words_begin hidle]
        exact h.retrieved
      · exact MbxCore.calls_put_all h.retrieveCalls (MbxCall.inv_begin msg count)
      · intro c' hc'
        obtain ⟨rfl, hnone⟩ := MbxCore.current_put hc'
        exact ⟨hnone, fun hr => nomatch hr⟩
    · exact nomatch hstep
  | retrieveAccess =>
    obtain ⟨c, hc, rfl⟩ := Option.map_eq_some_iff.mp hstep
    exact h.retrieveAccess hc

/-- All calls of the two cores. -/
theorem calls (h : s.Inv depth) (hc : c ∈ s.sender.calls ++ s.receiver.calls) : c.Inv := by
  rcases List.mem_append.mp hc with hc | hc
  · exact h.sendCalls c hc
  · exact h.retrieveCalls c hc

end MbxState.Inv

/-- In every run whose calls have counts of one to four the words pass in order, each once, and
every call keeps to its count; a call that succeeds with another count does not.

The invariant is that the words sent are the words retrieved followed by those in the FIFO,
whatever way the calls of the two cores are interleaved.  A call's loop goes four rounds at most
and compares the count behind its decrement, so a success with a count of 0 or beyond 4 has moved
another number of words. -/
theorem mbxRun_holds (depth : Nat) (acts : List MbxAct) (s : MbxState)
    (hrun : run (mbxStep depth) MbxState.init acts = some s) :
    ((∀ c ∈ s.sender.calls ++ s.receiver.calls, c.Fits) → s.Holds) ∧
    ∀ c ∈ s.sender.calls ++ s.receiver.calls, c.status = some .success → (c.Kept ↔ c.Fits) := by
  have hinv : s.Inv depth := run_invariant (P := fun s => s.Inv depth)
    (fun _ _ _ hs hstep => hs.step hstep) acts _ s (mbxInit_inv depth) hrun
  refine ⟨fun hfits => ⟨?_, hinv.sent, hinv.retrieved, ?_, ?_⟩, ?_⟩
  · exact ⟨s.fifo, hinv.queue.symm⟩
  · intro c hc
    exact (hinv.calls hc).words
  · intro c hc
    exact (hinv.calls hc).kept (hfits c hc)
  · intro c hc hstat
    exact (hinv.calls hc).kept_iff hstat

/-- Two words that are sent while they are retrieved. -/
def mbxTwoWords : List MbxAct :=
  [.sendFifo (fun i => BitVec.ofNat 32 (i + 7)) 2, .sendAccess, .sendAccess,
    .retrieveFifo (fun _ => 0) 2, .retrieveAccess, .sendAccess, .retrieveAccess, .sendAccess,
    .retrieveAccess, .retrieveAccess]

theorem mbxRun_two :
    ∃ s, run (mbxStep 4) MbxState.init mbxTwoWords = some s ∧ s.received = [7, 8] ∧ s.Holds :=
  ⟨_, rfl, rfl, (mbxRun_holds 4 mbxTwoWords _ rfl).1 (by unfold MbxCall.Fits; decide)⟩

/-- A send of no words that succeeds with four words in the FIFO. -/
theorem mbxSend_nothing : ∃ s, run (mbxStep 4) MbxState.init
    [.sendFifo (fun i => BitVec.ofNat 32 (i + 7)) 0, .sendAccess, .sendAccess, .sendAccess,
      .sendAccess, .sendAccess, .sendAccess, .sendAccess, .sendAccess] = some s ∧
    s.fifo = [7, 8, 9, 10] ∧ ¬ s.Holds :=
  ⟨_, rfl, rfl, fun h => absurd ((h.kept _ List.mem_cons_self).whole rfl) (by decide)⟩

end HpmSdk.Mbx
