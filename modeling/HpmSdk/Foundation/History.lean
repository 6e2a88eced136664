import HpmSdk.Foundation.Run
import Mathlib.Data.List.Infix

set_option autoImplicit false

/-!
# Foundation: what the last action that names a thing said of it

A system with a total step function has things that can be read, and an action may give
some of them a value.  The system reflects its history where every thing has the value that
the last action naming it gave, and its first value where none did.
-/

namespace HpmSdk.Foundation

variable {S A I V : Type}

/-- The value that the last of the actions gives, of those that give one. -/
def lastSome (f : A → Option V) : List A → Option V
  | [] => none
  | a :: acts => (lastSome f acts).or (f a)

@[simp] theorem lastSome_nil (f : A → Option V) : lastSome f [] = none := rfl

/-- What is said later counts, and where nothing is, what was said before. -/
theorem lastSome_append (f : A → Option V) (xs ys : List A) :
    lastSome f (xs ++ ys) = (lastSome f ys).or (lastSome f xs) := by
  induction xs with
  | nil => simp
  | cons x xs ih => simp only [List.cons_append, lastSome, ih, Option.or_assoc]

theorem lastSome_concat (f : A → Option V) (acts : List A) (a : A) :
    lastSome f (acts ++ [a]) = (f a).or (lastSome f acts) := by
  rw [lastSome_append]
  rfl

/-- One more action either says something or leaves the value as it was. -/
theorem lastSome_concat_getD (f : A → Option V) (acts : List A) (a : A) (v : V) :
    (lastSome f (acts ++ [a])).getD v = (f a).getD ((lastSome f acts).getD v) := by
  rw [lastSome_concat]
  cases f a <;> rfl

section Reflects

variable (step : S → A → S) (get : S → I → V) (names : A → I → Option V)

/-- A step gives the things that the action names their values and keeps the others. -/
def Sets (s : S) (a : A) : Prop :=
  ∀ i, get (step s a) i = (names a i).getD (get s i)

/-- Every thing has the value of the last action that names it. -/
def Reflects (s : S) (acts : List A) : Prop :=
  ∀ i, get (acts.foldl step s) i = (lastSome (fun a => names a i) acts).getD (get s i)

theorem Reflects.nil (s : S) : Reflects step get names s [] := fun _ => rfl

variable {step get names}

/-- The step behind a history that is reflected. -/
theorem Reflects.concat_iff {s : S} {acts : List A} (h : Reflects step get names s acts)
    (a : A) : Reflects step get names s (acts ++ [a]) ↔
      Sets step get names (acts.foldl step s) a := by
  refine forall_congr' fun i => ?_
  rw [List.foldl_append, List.foldl_cons, List.foldl_nil, lastSome_concat, h i]
  cases names a i <;> simp

/-- A condition on every step of a longer run is one on the run before it and on its last step. -/
theorem along_concat {ok : S → A → Prop} (acts : List A) (a : A) (s : S) :
    Along (fun s a => some (step s a)) ok s (acts ++ [a]) ↔
      Along (fun s a => some (step s a)) ok s acts ∧ ok (acts.foldl step s) a := by
  induction acts generalizing s with
  | nil => simp [Along]
  | cons b acts ih => simp [Along, ih, and_assoc]

/-- The actions of a history meet a condition exactly if each does behind those before it. -/
theorem along_iff_prefixes {ok : S → A → Prop} (acts : List A) (s : S) :
    Along (fun s a => some (step s a)) ok s acts ↔
      ∀ before a, before ++ [a] <+: acts → ok (before.foldl step s) a := by
  induction acts using List.reverseRecOn with
  | nil =>
    refine iff_of_true trivial fun before a h => ?_
    exact absurd (List.prefix_nil.mp h) (List.append_ne_nil_of_right_ne_nil _ (by simp))
  | append_singleton acts b ih =>
    rw [along_concat, ih]
    constructor
    · rintro ⟨hall, hok⟩ before a hpre
      rcases List.prefix_concat_iff.mp hpre with heq | hpre
      · obtain ⟨rfl, hab⟩ := List.append_inj' heq rfl
        cases hab
        exact hok
      · exact hall before a hpre
    · intro h
      exact ⟨fun before a hpre => h before a (hpre.trans (List.prefix_append _ _)),
        h acts b (List.prefix_refl _)⟩

/-- What every step keeps exactly under a condition holds at every point of a history exactly if
its steps meet the condition. -/
theorem prefix_iff_along {ok : S → A → Prop} {Holds : List A → Prop} {s : S} (hnil : Holds [])
    (hstep : ∀ acts a, Holds acts → (Holds (acts ++ [a]) ↔ ok (acts.foldl step s) a))
    (acts : List A) :
    (∀ acts', acts' <+: acts → Holds acts') ↔
      Along (fun s a => some (step s a)) ok s acts := by
  induction acts using List.reverseRecOn with
  | nil =>
    refine iff_of_true (fun acts' h => ?_) trivial
    rw [List.prefix_nil.mp h]
    exact hnil
  | append_singleton acts a ih =>
    rw [along_concat, ← ih]
    constructor
    · intro h
      have hall : ∀ acts', acts' <+: acts → Holds acts' := fun acts' hpre =>
        h acts' (hpre.trans (List.prefix_append _ _))
      exact ⟨hall, (hstep acts a (hall acts (List.prefix_refl _))).mp (h _ (List.prefix_refl _))⟩
    · rintro ⟨hall, hok⟩ acts' hpre
      rcases List.prefix_concat_iff.mp hpre with heq | hpre
      · rw [heq]
        exact (hstep acts a (hall acts (List.prefix_refl _))).mpr hok
      · exact hall acts' hpre

/-- A history is reflected at every point exactly if each of its steps sets what its action
names. -/
theorem reflects_iff_along {ok : S → A → Prop}
    (hstep : ∀ s a, Sets step get names s a ↔ ok s a) (s : S) (acts : List A) :
    (∀ acts', acts' <+: acts → Reflects step get names s acts') ↔
      Along (fun s a => some (step s a)) ok s acts :=
  prefix_iff_along (Reflects.nil step get names s)
    (fun acts a h => (h.concat_iff a).trans (hstep (acts.foldl step s) a)) acts

end Reflects

end HpmSdk.Foundation
