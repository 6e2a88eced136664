import Mathlib.Data.Option.Basic

set_option autoImplicit false

/-!
# Foundation: runs of a step function

A system is a partial step function on states and actions: `none` is an action
that is refused.  An invariant of the steps is an invariant of the runs, also
when it is only kept by the actions that meet a condition.
-/

namespace HpmSdk.Foundation

variable {S A : Type} {step : S → A → Option S} {ok : S → A → Prop} {P : S → Prop}

/-- Take the actions one after another. -/
def run (step : S → A → Option S) : S → List A → Option S
  | s, [] => some s
  | s, a :: acts => (step s a).bind fun s' => run step s' acts

/-- Every action of a run meets a condition in the state it is taken in. -/
def Along (step : S → A → Option S) (ok : S → A → Prop) : S → List A → Prop
  | _, [] => True
  | s, a :: acts => ok s a ∧ ∀ s' ∈ step s a, Along step ok s' acts

instance decidableAlong [∀ s a, Decidable (ok s a)] : ∀ (acts : List A) (s : S),
    Decidable (Along step ok s acts)
  | [], _ => inferInstanceAs (Decidable True)
  | a :: acts, s =>
    have _ : ∀ s', Decidable (Along step ok s' acts) := decidableAlong acts
    inferInstanceAs (Decidable (ok s a ∧ ∀ s' ∈ step s a, Along step ok s' acts))

/-- A run is a first step and a run from where that leads. -/
theorem run_cons {s s' : S} {a : A} {acts : List A} (h : run step s (a :: acts) = some s') :
    ∃ mid, step s a = some mid ∧ run step mid acts = some s' :=
  Option.bind_eq_some_iff.mp h

/-- A longer run goes on from where the shorter one ended. -/
theorem run_append {s mid : S} {acts more : List A} (h : run step s acts = some mid) :
    run step s (acts ++ more) = run step mid more := by
  induction acts generalizing s with
  | nil =>
    cases h
    rfl
  | cons a acts ih =>
    obtain ⟨next, hnext, hrest⟩ := run_cons h
    rw [List.cons_append, run, hnext, Option.bind_some, ih hrest]

/-- The last action of a run is a step from the state before it. -/
theorem run_concat {s mid : S} {acts : List A} {a : A} (h : run step s acts = some mid) :
    run step s (acts ++ [a]) = step mid a := by
  rw [run_append h, run]
  exact Option.bind_fun_some _

/-- What the actions that meet the condition keep, a run of such actions keeps. -/
theorem run_invariant_along (hstep : ∀ s a s', P s → ok s a → step s a = some s' → P s') :
    ∀ (acts : List A) (s s' : S), P s → Along step ok s acts → run step s acts = some s' →
      P s' := by
  intro acts
  induction acts with
  | nil =>
    intro s s' hs _ hrun
    cases hrun
    exact hs
  | cons a acts ih =>
    intro s s' hs hok hrun
    obtain ⟨mid, hmid, hrest⟩ := run_cons hrun
    exact ih mid s' (hstep s a mid hs hok.1 hmid) (hok.2 mid hmid) hrest

/-- What an invariant and the condition give for one action, they give along a run. -/
theorem along_of_invariant {ok' : S → A → Prop}
    (hstep : ∀ s a s', P s → ok s a → step s a = some s' → P s')
    (hok : ∀ s a, P s → ok s a → ok' s a) :
    ∀ (acts : List A) (s : S), P s → Along step ok s acts → Along step ok' s acts
  | [], _, _, _ => trivial
  | a :: acts, s, hs, h =>
    ⟨hok s a hs h.1, fun s' hs' =>
      along_of_invariant hstep hok acts s' (hstep s a s' hs h.1 hs') (h.2 s' hs')⟩

/-- Conditions that are the same where an invariant holds are the same along a run. -/
theorem along_congr {ok' : S → A → Prop}
    (hstep : ∀ s a s', P s → ok s a → step s a = some s' → P s')
    (hok : ∀ s a, P s → (ok s a ↔ ok' s a)) (acts : List A) (s : S) (hs : P s) :
    Along step ok s acts ↔ Along step ok' s acts := by
  constructor
  · exact along_of_invariant hstep (fun s a hs => (hok s a hs).mp) acts s hs
  · exact along_of_invariant (fun s a s' hs ha => hstep s a s' hs ((hok s a hs).mpr ha))
      (fun s a hs => (hok s a hs).mpr) acts s hs

theorem along_trivial : ∀ (acts : List A) (s : S), Along step (fun _ _ => True) s acts
  | [], _ => trivial
  | _ :: acts, _ => ⟨trivial, fun s' _ => along_trivial acts s'⟩

/-- **What every step keeps, every run keeps.** -/
theorem run_invariant (hstep : ∀ s a s', P s → step s a = some s' → P s')
    (acts : List A) (s s' : S) (hs : P s) (hrun : run step s acts = some s') : P s' :=
  run_invariant_along (fun s a s' hs _ => hstep s a s' hs) acts s s' hs (along_trivial acts s) hrun

/-- A fold over actions that may fail is a run. -/
theorem foldlM_eq_run : ∀ (acts : List A) (s : S), acts.foldlM step s = run step s acts
  | [], _ => rfl
  | a :: acts, s => by
    rw [List.foldlM_cons]
    exact congrArg (Option.bind (step s a)) (funext fun s' => foldlM_eq_run acts s')

/-- What every step does on one level, a run does on another one. -/
theorem run_map {T : Type} {step' : T → A → Option T} {φ : S → T}
    (hstep : ∀ s a s', step s a = some s' → step' (φ s) a = some (φ s')) :
    ∀ (acts : List A) (s s' : S), run step s acts = some s' → run step' (φ s) acts = some (φ s')
  | [], _, _, hrun => congrArg (Option.map φ) hrun
  | a :: acts, s, s', hrun => by
    obtain ⟨mid, hmid, hrest⟩ := run_cons hrun
    rw [run, hstep s a mid hmid]
    exact run_map hstep acts mid s' hrest

end HpmSdk.Foundation
