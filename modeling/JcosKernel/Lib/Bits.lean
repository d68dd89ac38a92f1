import Mathlib.Data.BitVec

/-!
# JcosKernel.Lib.Bits

**Words made of a field and flags.** `Has e m` is the test `(e & m) != 0` of a word against a
mask. A word that lies within the mask of the field (`Within`) has none of the flags outside
of it, and combining it with such flags loses neither.
-/

namespace JcosKernel.Lib

variable {w : Nat} {a b f m M p : BitVec w}

/-- Some bit of the mask is set. -/
def Has (a m : BitVec w) : Prop := a &&& m ≠ 0

instance (a m : BitVec w) : Decidable (Has a m) := inferInstanceAs (Decidable (_ ≠ _))

/-- No bit outside of the mask is set. -/
def Within (p M : BitVec w) : Prop := p &&& ~~~M = 0

instance (p M : BitVec w) : Decidable (Within p M) := inferInstanceAs (Decidable (_ = _))

theorem or_eq_zero : a ||| b = 0 ↔ a = 0 ∧ b = 0 := by
  constructor
  · intro h
    constructor
    all_goals
      grind
  · simp

@[simp] theorem not_has_zero : ¬ Has (0 : BitVec w) m := by simp [Has]

theorem has_or : Has (a ||| b) m ↔ Has a m ∨ Has b m := by
  have hdist : (a ||| b) &&& m = a &&& m ||| b &&& m := by
    refine BitVec.eq_of_getElem_eq fun i hi => ?_
    simp [Bool.and_or_distrib_right]
  rw [Has, hdist, ne_eq, or_eq_zero, not_and_or]
  exact Iff.rfl

/-- Flags outside of the field do not change it. -/
theorem or_and_of_and_eq_zero (hf : f &&& M = 0) : (a ||| f) &&& M = a &&& M := by
  ext i hi
  have hbit := congrArg (·[i]) hf
  grind

theorem and_not_and_of_and_eq_zero (hf : f &&& M = 0) : a &&& ~~~f &&& M = a &&& M := by
  ext i hi
  have hbit := congrArg (·[i]) hf
  grind

/-- Clearing bits outside of the mask is not seen. -/
theorem has_and_not (h : m &&& f = 0) : Has (a &&& ~~~f) m ↔ Has a m := by
  rw [BitVec.and_comm] at h
  rw [Has, and_not_and_of_and_eq_zero h, Has]

theorem not_has_and_not : ¬ Has (a &&& ~~~m) m := by
  have heq : a &&& ~~~m &&& m = 0 := by
    grind
  rw [Has, heq]
  simp

theorem Within.and_eq_zero (h : Within p M) (hm : m &&& M = 0) : p &&& m = 0 := by
  ext i hi
  have h1 := congrArg (·[i]) h
  grind

theorem Within.not_has (h : Within p M) (hm : m &&& M = 0) : ¬ Has p m := by
  rw [Has, h.and_eq_zero hm]
  simp

/-- The field can be read back. -/
theorem Within.or_and (h : Within p M) (hf : f &&& M = 0) : (p ||| f) &&& M = p := by
  ext i hi
  have hbit := congrArg (·[i]) h
  grind

/-- The flags can be read back. -/
theorem Within.or_and_flags (h : Within p M) (hm : m &&& M = 0) : (p ||| f) &&& m = f &&& m := by
  rw [BitVec.or_comm]
  exact or_and_of_and_eq_zero (h.and_eq_zero hm)

end JcosKernel.Lib
