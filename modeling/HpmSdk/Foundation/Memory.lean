import HpmSdk.Foundation.Bytes
import Mathlib.Logic.Function.Basic

set_option autoImplicit false

/-!
# Foundation: a memory of separate objects

A C memory is a family of buffers, one for each object, and a pointer is an
object with a byte offset.  Stores to one object leave every other object
alone, so separation of two different objects needs no hypothesis; overlap is
possible inside one object only, and `Ptr.Apart` and `Ptr.SameOrApart` say when
two stretches do not overlap.
-/

namespace HpmSdk.Foundation

/-- A pointer: an object and a byte offset into it. -/
structure Ptr (Obj : Type) where
  obj : Obj
  off : Nat
  deriving DecidableEq, Repr

/-- The contents of every object. -/
abbrev Mem (Obj : Type) : Type := Obj → Buf

namespace Ptr

variable {Obj : Type}

/-- Pointer arithmetic. -/
def add (p : Ptr Obj) (n : Nat) : Ptr Obj := ⟨p.obj, p.off + n⟩

@[simp] theorem add_obj (p : Ptr Obj) (n : Nat) : (p.add n).obj = p.obj := rfl
@[simp] theorem add_off (p : Ptr Obj) (n : Nat) : (p.add n).off = p.off + n := rfl

theorem add_add (p : Ptr Obj) (m n : Nat) : (p.add m).add n = p.add (m + n) := by
  simp [add, Nat.add_assoc]

/-- The `n` bytes at `p` and the `k` bytes at `q` do not overlap. -/
def Apart (p : Ptr Obj) (n : Nat) (q : Ptr Obj) (k : Nat) : Prop :=
  p.obj = q.obj → p.off + n ≤ q.off ∨ q.off + k ≤ p.off

/-- The two stretches of `n` bytes are one and the same or do not overlap. -/
def SameOrApart (p q : Ptr Obj) (n : Nat) : Prop := p = q ∨ p.Apart n q n

theorem SameOrApart.refl (p : Ptr Obj) (n : Nat) : SameOrApart p p n := Or.inl rfl

/-- To be the same or apart does not depend on the order. -/
theorem SameOrApart.symm {p q : Ptr Obj} {n : Nat} (h : SameOrApart p q n) :
    SameOrApart q p n := by
  rcases h with rfl | h
  · exact Or.inl rfl
  · exact Or.inr fun ho => (h ho.symm).symm

/-- Equal or disjoint stretches stay so when both lose the same first bytes. -/
theorem SameOrApart.drop {p q : Ptr Obj} {n k : Nat} (h : SameOrApart p q n) (hk : k ≤ n) :
    SameOrApart (p.add k) (q.add k) (n - k) := by
  rcases h with rfl | h
  · exact Or.inl rfl
  · refine Or.inr fun ho => ?_
    have := h ho
    simp only [add_off]
    omega

end Ptr

namespace Mem

variable {Obj : Type} [DecidableEq Obj]

/-- The `n` bytes at `p`. -/
def load (m : Mem Obj) (p : Ptr Obj) (n : Nat) : List UInt8 := (m p.obj).toList p.off n

/-- Replace the contents of the object of `p` by `f` of them. -/
def modify (m : Mem Obj) (o : Obj) (f : Buf → Buf) : Mem Obj := Function.update m o (f (m o))

/-- Store one byte. -/
def set (m : Mem Obj) (p : Ptr Obj) (v : UInt8) : Mem Obj := m.modify p.obj fun b => b.set p.off v

@[simp] theorem modify_self (m : Mem Obj) (o : Obj) (f : Buf → Buf) : m.modify o f o = f (m o) := by
  simp [modify]

/-- A change of one object leaves the others. -/
theorem modify_of_ne (m : Mem Obj) {o o' : Obj} (f : Buf → Buf) (h : o' ≠ o) :
    m.modify o f o' = m o' := by
  simp [modify, h]

omit [DecidableEq Obj] in
@[simp] theorem length_load (m : Mem Obj) (p : Ptr Obj) (n : Nat) : (m.load p n).length = n := by
  simp [load]

omit [DecidableEq Obj] in
/-- A load is that of its first part and that of the rest. -/
theorem load_add (m : Mem Obj) (p : Ptr Obj) (a b : Nat) :
    m.load p (a + b) = m.load p a ++ m.load (p.add a) b := by
  simp [load, Buf.toList_add]

omit [DecidableEq Obj] in
/-- A load depends on the bytes of its stretch only. -/
theorem load_congr {m m' : Mem Obj} {p : Ptr Obj} {n : Nat}
    (h : ∀ i < n, m p.obj (p.off + i) = m' p.obj (p.off + i)) : m.load p n = m'.load p n :=
  Buf.toList_congr h

end Mem

end HpmSdk.Foundation
