import Mathlib.Data.Set.Card

/-!
# JcosKernel.Lib.Allocator

**Allocators by contract.** An allocator hands out units and takes them back; both may fail
at any time. What it promises is only this: a unit it hands out was not allocated, a unit is
allocated from then on until it is taken back, and none is taken back twice. Which unit is chosen, and when a request is
refused, is left open, so what is proved about a client holds for every allocator.
-/

namespace JcosKernel.Lib

structure Allocator (α σ : Type*) where
  alloc : σ → Option α × σ
  free : α → σ → Bool × σ
  /-- The units that are in use. -/
  allocated : σ → Set α
  alloc_none : ∀ {s s'}, alloc s = (none, s') → allocated s' = allocated s
  alloc_some : ∀ {s a s'}, alloc s = (some a, s') →
    a ∉ allocated s ∧ allocated s' = insert a (allocated s)
  free_false : ∀ {a s s'}, free a s = (false, s') → allocated s' = allocated s
  free_true : ∀ {a s s'}, free a s = (true, s') →
    a ∈ allocated s ∧ allocated s' = allocated s \ {a}

/-- Units in use can be taken back. -/
def Allocator.FreesAllocated {α σ : Type*} (A : Allocator α σ) : Prop :=
  ∀ a s, a ∈ A.allocated s → (A.free a s).1 = true

/-- An allocator that counts what is left of a fixed number of units. -/
structure Allocator.Counted {α σ : Type*} (A : Allocator α σ) where
  freeCount : σ → Nat
  total : Nat
  finite : ∀ s, (A.allocated s).Finite
  balance : ∀ s, freeCount s + (A.allocated s).ncard = total

theorem Allocator.Counted.freeCount_eq {α σ : Type*} {A : Allocator α σ} (C : A.Counted) {s s' : σ}
    (h : (A.allocated s').ncard = (A.allocated s).ncard) : C.freeCount s' = C.freeCount s := by
  have h1 := C.balance s
  have h2 := C.balance s'
  omega

end JcosKernel.Lib
