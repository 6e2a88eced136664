import HpmSdk.Can.Send

set_option autoImplicit false

/-!
# CAN: when messages are sent once

From an empty buffer a call sends its frame and nothing else where the bus is ready for it
while the call polls.  Otherwise the frame stays in the buffer, requested, behind a timeout.

`Clean`, an empty buffer in which every call has sent its frame, is the invariant of the runs that
meet the condition; a call that does not meet it leaves a state that is wrong and stays so.
-/

namespace HpmSdk.Can

open HpmSdk.Foundation

/-- Other contents of the selected slot, some accesses later. -/
def CanTx.loaded (s : CanTx) (slot : CanTxWords) (accesses : Nat) : CanTx :=
  { s with slot := slot, time := s.time + accesses }

theorem CanTx.loaded_loaded (s : CanTx) (slot slot' : CanTxWords) (m n : Nat) :
    (s.loaded slot m).loaded slot' n = s.loaded slot' (m + n) :=
  congrArg (fun time => { s with slot := slot', time := time }) (Nat.add_assoc _ _ _)

/-- A poll that finds nothing to wait for ends with success. -/
theorem canPoll_done {bus : CanBus} {waits : CanTx → Bool} {n : Nat} {s : CanTx} (hn : 0 < n)
    (h : waits (s.tick bus) = false) : canPoll bus waits n s = (.success, s.tick bus) := by
  cases n with
  | zero => omega
  | succ n => simp only [canPoll, h, Bool.false_eq_true, if_false]

/-- A poll that has to wait leaves the rest of the polls. -/
theorem canPoll_on {bus : CanBus} {waits : CanTx → Bool} {n : Nat} {s : CanTx}
    (h : waits (s.tick bus) = true) :
    canPoll bus waits (n + 1) s = canPoll bus waits n (s.tick bus) := by
  simp only [canPoll, h, if_true]

section Empty

variable (bus : CanBus) (message : CanTxWords) {s : CanTx} (h : s.stb = [])
include h

/-! ## A call on an empty buffer -/

theorem CanTx.tick_of_empty : s.tick bus = s.loaded s.slot 1 := by
  simp only [CanTx.tick, CanTx.loaded, h]

theorem CanTx.writeTbuf_of_empty (i : Fin 18) (v : BitVec 32) :
    s.writeTbuf bus i v = s.loaded (Function.update s.slot i v) 1 := by
  have hroom : s.stb.length < bus.depth := by
    rw [h]
    exact bus.depth_pos
  unfold CanTx.writeTbuf
  rw [CanTx.tick_of_empty bus h]
  exact if_pos hroom

/-- The words of a frame go into the slot one by one; on an empty FIFO the bus sends nothing
meanwhile. -/
theorem canFillWords_of_empty {n : Nat} (hn : 2 + n ≤ 18) :
    canFillWords bus message n s =
      s.loaded (fun i => if 2 ≤ i.val ∧ i.val < 2 + n then message i else s.slot i) n := by
  induction n with
  | zero =>
    have hslot : (fun i : Fin 18 => if 2 ≤ i.val ∧ i.val < 2 + 0 then message i else s.slot i) =
        s.slot := funext fun i => if_neg (by omega)
    rw [hslot]
    rfl
  | succ n ih =>
    have hlt : 2 + n < 18 := by omega
    simp only [canFillWords, ih (by omega), dif_pos hlt]
    rw [CanTx.writeTbuf_of_empty (s := s.loaded _ n) bus h]
    exact congrArg (s.loaded · (n + 1)) (update_range message s.slot hlt)

/-- The slot carries the message. -/
theorem canFillTxBuffer_of_empty : ∃ slot, CanCarries slot message ∧
    canFillTxBuffer bus message s = s.loaded slot (2 + canTxDataWords message) := by
  have hn : 2 + canTxDataWords message ≤ 18 := (canGetDataWordsFromDlc_eq (message 1)).2
  have hslot := fun slot accesses => CanTx.writeTbuf_of_empty (s := s.loaded slot accesses) bus h
  have hwords := fun slot accesses =>
    canFillWords_of_empty (s := s.loaded slot accesses) bus message h hn
  refine ⟨fun i => if i.val < 2 + canTxDataWords message then message i else s.slot i,
    fun i hi => if_pos hi, ?_⟩
  simp only [canFillTxBuffer, CanTx.writeTbuf_of_empty bus h, hslot, CanTx.loaded_loaded, hwords]
  refine congrArg (s.loaded · (2 + canTxDataWords message)) (funext fun i => ?_)
  by_cases hi : i.val < 2
  · have hhead : i = 0 ∨ i = 1 := by omega
    rw [if_neg (by omega), if_pos (by omega)]
    rcases hhead with rfl | rfl <;> simp [CanTx.loaded]
  · have h0 : i ≠ 0 := fun heq => hi (by simp [heq])
    have h1 : i ≠ 1 := fun heq => hi (by simp [heq])
    have hold : (s.loaded (Function.update s.slot 0 (message 0)) 1).slot i = s.slot i :=
      Function.update_of_ne h0 _ _
    by_cases hn' : i.val < 2 + canTxDataWords message
    · rw [if_pos ⟨by omega, hn'⟩, if_pos hn']
    · rw [if_neg (by omega), if_neg hn']
      exact (Function.update_of_ne h1 _ _).trans hold

/-- The first wait ends at once, and the frame is all that is in the buffer. -/
theorem canSendMessageBlocking_of_empty : ∃ frame, CanCarries frame message ∧
    canSendMessageBlocking bus message s =
      canPoll bus (fun s => s.tsstat bus ≠ canStbIsEmpty) canTimeoutCnt
        { s with
          slot := bus.stale (s.time + canSendAccesses message)
          stb := [frame]
          tsone := true
          time := s.time + canSendAccesses message } := by
  obtain ⟨slot, hcarries, hfill⟩ := canFillTxBuffer_of_empty (s := s.loaded s.slot 1) bus message h
  refine ⟨slot, hcarries, ?_⟩
  have htick : ∀ accesses, (s.loaded slot accesses).tick bus = s.loaded slot (accesses + 1) :=
    fun accesses => (CanTx.tick_of_empty (s := s.loaded slot accesses) bus h).trans
      (CanTx.loaded_loaded _ _ _ _ _)
  have hempty : ∀ accesses, (s.loaded slot accesses).stb.length = 0 :=
    fun _ => congrArg List.length h
  have hnotFull : ∀ accesses, (s.loaded slot accesses).tsstat bus ≠ canStbIsFull := by
    intro accesses
    unfold CanTx.tsstat
    rw [if_pos (hempty accesses)]
    decide
  have hroom : ∀ accesses, (s.loaded slot accesses).stb.length < bus.depth :=
    fun accesses => (hempty accesses).symm ▸ bus.depth_pos
  have hpoll : ∀ accesses, canPoll bus (fun s => s.tsstat bus = canStbIsFull) canTimeoutCnt
      (s.loaded slot accesses) = (.success, s.loaded slot (accesses + 1)) := by
    intro accesses
    rw [canPoll_done (by decide) (by rw [htick]; exact decide_eq_false (hnotFull _)), htick]
  have haccesses : 1 + (2 + canTxDataWords message) + 1 + 1 = canSendAccesses message := by
    unfold canSendAccesses
    omega
  have hwrite : ∀ accesses, (s.loaded slot accesses).writeTsnextTsone bus =
      { s with
        slot := bus.stale (s.time + (accesses + 1))
        stb := [slot]
        tsone := true
        time := s.time + (accesses + 1) } := by
    intro accesses
    unfold CanTx.writeTsnextTsone
    rw [htick]
    simp only [if_pos (hroom (accesses + 1))]
    simp only [CanTx.loaded, h, List.nil_append]
  unfold canSendMessageBlocking CanTx.writeCtrl
  simp only [CanTx.tick_of_empty bus h, hfill, CanTx.loaded_loaded, hpoll, hwrite, haccesses,
    ne_eq, not_true, if_false]

end Empty

/-! ## The wait for the frame -/

section Frame

variable (bus : CanBus) {frame : CanTxWords} {s : CanTx} (hstb : s.stb = [frame])
include hstb

/-- A FIFO with a frame does not read as empty. -/
theorem CanTx.tsstat_frame : s.tsstat bus ≠ canStbIsEmpty := by
  unfold CanTx.tsstat
  rw [hstb, List.length_singleton, if_neg Nat.one_ne_zero]
  split
  · decide
  · split <;> decide

/-- An access at which the bus is not ready only takes time. -/
theorem CanTx.tick_stalled (h : bus.sends s.time = false) :
    s.tick bus = { s with time := s.time + 1 } := by
  simp [CanTx.tick, hstb, h]

/-- An access at which the bus is ready sends the frame that is requested. -/
theorem CanTx.tick_sent (htsone : s.tsone = true) (h : bus.sends s.time = true) :
    s.tick bus = { s with
      stb := []
      tsone := false
      sent := s.sent ++ [frame]
      time := s.time + 1 } := by
  simp [CanTx.tick, hstb, htsone, h]

/-- A frame that the bus takes while the call polls. -/
theorem canPoll_sent (htsone : s.tsone = true) {n : Nat}
    (h : ∃ polls < n, bus.sends (s.time + polls) = true) :
    ∃ s', canPoll bus (fun s => s.tsstat bus ≠ canStbIsEmpty) n s = (.success, s') ∧
      s'.stb = [] ∧ s'.sent = s.sent ++ [frame] := by
  induction n generalizing s with
  | zero =>
    obtain ⟨polls, hlt, -⟩ := h
    omega
  | succ n ih =>
    cases hnow : bus.sends s.time with
    | true =>
      have htick := CanTx.tick_sent bus hstb htsone hnow
      refine ⟨_, canPoll_done (Nat.succ_pos n) ?_, ?_, ?_⟩ <;> rw [htick]
      exact decide_eq_false (not_not.mpr rfl)
    | false =>
      have htick := CanTx.tick_stalled bus hstb hnow
      rw [canPoll_on (by rw [htick]; exact decide_eq_true (CanTx.tsstat_frame bus hstb)), htick]
      refine ih (s := { s with time := s.time + 1 }) hstb htsone ?_
      obtain ⟨polls, hlt, hsends⟩ := h
      cases polls with
      | zero => exact absurd (hnow.symm.trans hsends) Bool.false_ne_true
      | succ polls => exact ⟨polls, by omega, by rwa [Nat.succ_add_eq_add_succ]⟩

/-- A frame that it does not take stays. -/
theorem canPoll_stalled {n : Nat} (h : ∀ polls < n, bus.sends (s.time + polls) = false) :
    canPoll bus (fun s => s.tsstat bus ≠ canStbIsEmpty) n s =
      (.timeout, { s with time := s.time + n }) := by
  induction n generalizing s with
  | zero => rfl
  | succ n ih =>
    have htick := CanTx.tick_stalled bus hstb (h 0 (Nat.succ_pos n))
    rw [canPoll_on (by rw [htick]; exact decide_eq_true (CanTx.tsstat_frame bus hstb)), htick,
      ih (s := { s with time := s.time + 1 }) hstb fun polls hlt => by
        have := h (polls + 1) (by omega)
        rwa [← Nat.succ_add_eq_add_succ] at this]
    have htime : s.time + 1 + n = s.time + (n + 1) := by omega
    simp only [htime]

end Frame

/-! ## Runs -/

/-- Before a call: nothing is left, every call so far returned success, and exactly their
messages were on the bus. -/
structure CanTxRun.Clean (s : CanTxRun) : Prop where
  empty : s.tx.stb = []
  transmitted : List.Forall₂ CanCarries s.tx.sent s.succeeded
  success : ∀ call ∈ s.calls, call.2 = .success

/-- An empty buffer and calls that sent their frame are what is asked for. -/
theorem CanTxRun.Clean.kept {s : CanTxRun} (h : s.Clean) : s.Kept :=
  ⟨h.transmitted, fun _ => h.empty⟩

theorem canTxRun_start_clean (slot : CanTxWords) : (CanTxRun.start slot).Clean :=
  ⟨rfl, .nil, fun _ h => absurd h List.not_mem_nil⟩

section Runs

variable {bus : CanBus} {s : CanTxRun} (h : s.Clean)
include h

/-- A call whose frame the bus takes sends its message. -/
theorem canTxStep_served {act : CanTxAction} (hserved : CanTxServed bus s act) :
    ∃ s', canTxStep bus s act = some s' ∧ s'.Clean := by
  cases act with
  | idle =>
    refine ⟨_, rfl, ?_, ?_, h.success⟩
    · rw [CanTx.tick_of_empty bus h.empty]
      exact h.empty
    · rw [CanTx.tick_of_empty bus h.empty]
      exact h.transmitted
  | send message =>
    obtain ⟨frame, hcarries, hcall⟩ := canSendMessageBlocking_of_empty bus message h.empty
    obtain ⟨tx, hpoll, hempty, hsent⟩ := @canPoll_sent bus frame
      ({ s.tx with
        slot := bus.stale (s.tx.time + canSendAccesses message)
        stb := [frame]
        tsone := true
        time := s.tx.time + canSendAccesses message }) rfl rfl _ hserved
    rw [← hcall] at hpoll
    refine ⟨⟨tx, s.calls ++ [(message, .success)]⟩, ?_, hempty, ?_, ?_⟩
    · simp only [canTxStep, hpoll]
    · have hsucceeded : CanTxRun.succeeded ⟨tx, s.calls ++ [(message, .success)]⟩ =
          s.succeeded ++ [message] := by simp [CanTxRun.succeeded, List.filter_append]
      rw [hsucceeded, hsent]
      exact List.rel_append h.transmitted (.cons hcarries .nil)
    · intro call hmem
      rcases List.mem_append.mp hmem with hold | hnew
      · exact h.success call hold
      · rw [List.mem_singleton.mp hnew]

/-- A call whose frame it does not take returns a timeout and leaves the frame, requested. -/
theorem canTxStep_stalled {message : CanTxWords} (hstalled : ¬ CanTxServed bus s (.send message)) :
    ∃ slot frame, canTxStep bus s (.send message) =
      some ⟨⟨slot, [frame], true, s.tx.sent,
        s.tx.time + canSendAccesses message + canTimeoutCnt⟩,
        s.calls ++ [(message, .timeout)]⟩ := by
  obtain ⟨frame, -, hcall⟩ := canSendMessageBlocking_of_empty bus message h.empty
  have hpoll := @canPoll_stalled bus frame
    ({ s.tx with
      slot := bus.stale (s.tx.time + canSendAccesses message)
      stb := [frame]
      tsone := true
      time := s.tx.time + canSendAccesses message }) rfl canTimeoutCnt
    fun polls hlt => Bool.eq_false_iff.mpr fun hsends => hstalled ⟨polls, hlt, hsends⟩
  rw [← hcall] at hpoll
  refine ⟨bus.stale (s.tx.time + canSendAccesses message), frame, ?_⟩
  simp only [canTxStep, hpoll]

omit h in
/-- A call that timed out and left its frame in the buffer is not as it should be. -/
theorem not_kept_of_left {tx : CanTx} {calls : List (CanTxWords × CanStat)} {message : CanTxWords}
    (hleft : tx.stb ≠ []) : ¬ CanTxRun.Kept ⟨tx, calls ++ [(message, .timeout)]⟩ := by
  intro hkept
  exact hleft (hkept.nothingLeft ⟨(message, .timeout), List.mem_append_right _
    (List.mem_singleton_self _), nofun⟩)

end Runs

/-- **In a run every message that is reported as sent is sent once, in order, and no other is,
exactly where the bus takes the frame of each call while the call polls.**

A call whose frame is taken while it polls leaves an empty buffer, which is what the next call
starts from (`Clean`).  A call that times out leaves its frame requested, so the frame goes out
behind a report that it did not; one such call is enough, and the condition is asked at each step
of the run. -/
theorem canTxKept_iff (bus : CanBus) (slot : CanTxWords) (acts : List CanTxAction) :
    CanTxKept bus slot acts ↔
      Along (canTxStep bus) (CanTxServed bus) (CanTxRun.start slot) acts := by
  have hok : ∀ s act, s.Clean →
      ((∀ s' ∈ canTxStep bus s act, s'.Kept) ↔ CanTxServed bus s act) := by
    intro s act h
    constructor
    · intro hkept
      cases act with
      | idle => trivial
      | send message =>
        by_contra hstalled
        obtain ⟨slot, frame, hstep⟩ := canTxStep_stalled h hstalled
        exact not_kept_of_left (List.cons_ne_nil _ _) (hkept _ hstep)
    · intro hserved s' hs'
      obtain ⟨s₁, hstep, hclean⟩ := canTxStep_served h hserved
      rw [← Option.some.inj (hstep.symm.trans hs')]
      exact hclean.kept
  refine along_congr (P := CanTxRun.Clean) (fun s act s' h hkept hs' => ?_) hok acts _
    (canTxRun_start_clean slot)
  obtain ⟨s₁, hstep, hclean⟩ := canTxStep_served h ((hok s act h).mp hkept)
  rw [← Option.some.inj (hstep.symm.trans hs')]
  exact hclean

/-- A bus that becomes ready just behind the timeout of a first call of an empty message. -/
def canLateBus : CanBus where
  depth := 3
  depth_pos := by decide
  sends t := 5 + canTimeoutCnt ≤ t
  stale _ _ := 0

/-- The frame of a call that returned a timeout is sent behind it. -/
theorem canTxKept_late :
    ¬ CanTxKept canLateBus (fun _ => 0) [.send fun _ => 0, .idle] ∧
      ∃ s, run (canTxStep canLateBus) (CanTxRun.start fun _ => 0) [.send fun _ => 0, .idle] =
        some s ∧ s.calls.map Prod.snd = [.timeout] ∧ s.tx.sent.length = 1 := by
  have hclean := canTxRun_start_clean fun _ => 0
  have hstalled : ¬ CanTxServed canLateBus (CanTxRun.start fun _ => 0) (.send fun _ => 0) := by
    rintro ⟨polls, hlt, hsends⟩
    have hready : 5 + canTimeoutCnt ≤ 0 + canSendAccesses (fun _ => 0) + polls :=
      of_decide_eq_true hsends
    have haccesses : canSendAccesses (fun _ => 0) = 5 := by decide
    omega
  obtain ⟨slot, frame, hstep⟩ := canTxStep_stalled hclean hstalled
  refine ⟨fun hkept => not_kept_of_left (List.cons_ne_nil _ _) (hkept.1 _ hstep), ?_⟩
  have hready : canLateBus.sends (0 + canSendAccesses (fun _ => 0) + canTimeoutCnt) = true := by
    decide
  have htick := @CanTx.tick_sent canLateBus frame (⟨slot, [frame], true, [],
    0 + canSendAccesses (fun _ => 0) + canTimeoutCnt⟩) rfl rfl hready
  refine ⟨⟨_, [(fun _ => 0, .timeout)]⟩, ?_, rfl, (congrArg (fun tx => tx.sent.length) htick)⟩
  rw [run, hstep]
  rfl

end HpmSdk.Can
